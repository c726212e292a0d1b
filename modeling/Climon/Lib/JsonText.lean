import Climon.Lib.AssocList
import Climon.Lib.HostText
import Climon.Lib.JsonValue
import Climon.Lib.Utf16
import Mathlib.Data.List.Chain
import Mathlib.Data.List.Sort

namespace Climon.Lib.JsonText

open Climon.Lib.JsonValue

/-!
# JSON as text

A text is split into tokens, which a machine with a stack puts together. A comment is refused, or
taken as white space, or as if it were not there.
-/

inductive Mark where
  | openObject
  | closeObject
  | openArray
  | closeArray
  | colon
  | comma
  deriving DecidableEq, Repr

/-- A string is kept as it is written between its quotes. -/
inductive Token where
  | mark (mark : Mark)
  | word (text : List Char)
  | string (raw : List Char)
  deriving DecidableEq, Repr

def Token.isWord : Token → Bool
  | .word _ => true
  | _ => false

inductive Comments where
  | refused
  | space
  | nothing
  deriving DecidableEq, Repr

/-! ## Tokens -/

/-- Outside strings, the word so far is kept: it is empty between tokens. -/
inductive Mode where
  | plain (word : List Char)
  | string (raw : List Char)
  | escaped (raw : List Char)
  | slash (word : List Char)
  | line (word : List Char)
  | block (word : List Char)
  | star (word : List Char)
  deriving DecidableEq, Repr

structure Lexer where
  tokens : List Token
  mode : Mode
  deriving DecidableEq, Repr

def isSpace (c : Char) : Bool := c == ' ' || c == '\t' || c == '\n' || c == '\r'

def isLineEnd (c : Char) : Bool := c == '\n' || c == '\r'

def toMark (c : Char) : Option Mark :=
  if c = '\x7b' then some .openObject
  else if c = '\x7d' then some .closeObject
  else if c = '[' then some .openArray
  else if c = ']' then some .closeArray
  else if c = ':' then some .colon
  else if c = ',' then some .comma
  else none

def emit (tokens : List Token) : List Char → List Token
  | [] => tokens
  | word => tokens ++ [.word word]

namespace Lexer

def plainStep (comments : Comments) (tokens : List Token) (word : List Char) (c : Char) :
    Option Lexer :=
  if isSpace c then some ⟨emit tokens word, .plain []⟩
  else if c = '"' then some ⟨emit tokens word, .string []⟩
  else if c = '/' then
    match comments with
    | .refused => none
    | .space => some ⟨emit tokens word, .slash []⟩
    | .nothing => some ⟨tokens, .slash word⟩
  else
    match toMark c with
    | some mark => some ⟨emit tokens word ++ [.mark mark], .plain []⟩
    | none => some ⟨tokens, .plain (word ++ [c])⟩

def step (comments : Comments) (s : Lexer) (c : Char) : Option Lexer :=
  match s.mode with
  | .plain word => plainStep comments s.tokens word c
  | .string raw =>
    if c = '\\' then some ⟨s.tokens, .escaped (raw ++ [c])⟩
    else if c = '"' then some ⟨s.tokens ++ [.string raw], .plain []⟩
    else some ⟨s.tokens, .string (raw ++ [c])⟩
  | .escaped raw => some ⟨s.tokens, .string (raw ++ [c])⟩
  | .slash word =>
    if c = '/' then some ⟨s.tokens, .line word⟩
    else if c = '*' then some ⟨s.tokens, .block word⟩
    else none
  | .line word =>
    if isLineEnd c then some ⟨emit s.tokens word, .plain []⟩ else some ⟨s.tokens, .line word⟩
  | .block word => if c = '*' then some ⟨s.tokens, .star word⟩ else some ⟨s.tokens, .block word⟩
  | .star word =>
    if c = '/' then some ⟨s.tokens, .plain word⟩
    else if c = '*' then some ⟨s.tokens, .star word⟩
    else some ⟨s.tokens, .block word⟩

def run (comments : Comments) (s : Lexer) (text : List Char) : Option Lexer :=
  text.foldlM (step comments) s

/-- A text ends outside strings and block comments. -/
def finish (s : Lexer) : Option (List Token) :=
  match s.mode with
  | .plain word | .line word => some (emit s.tokens word)
  | _ => none

end Lexer

def lex (comments : Comments) (text : List Char) : Option (List Token) :=
  (Lexer.run comments ⟨[], .plain []⟩ text).bind Lexer.finish

/-! ## Strings -/

def shortEscape (c : Char) : Option Char :=
  if c = '"' ∨ c = '\\' ∨ c = '/' then some c
  else if c = 'b' then some '\x08'
  else if c = 'f' then some '\x0c'
  else if c = 'n' then some '\n'
  else if c = 'r' then some '\r'
  else if c = 't' then some '\t'
  else none

def readUnit (digits : List Char) : Option UInt16 :=
  if digits.all fun c => (HostText.hexValue c).isSome then
    some (UInt16.ofNat (HostText.readHex digits))
  else none

/-- The code units of a raw string. A control character must be escaped. -/
def readUnits : List Char → Option (List UInt16)
  | [] => some []
  | '\\' :: 'u' :: a :: b :: c :: d :: rest =>
    (readUnit [a, b, c, d]).bind fun unit => (readUnits rest).map (unit :: ·)
  | '\\' :: c :: rest =>
    (shortEscape c).bind fun c => (readUnits rest).map (Utf16.encodeChar c ++ ·)
  | c :: rest =>
    if c = '\\' ∨ c.toNat < 0x20 then none else (readUnits rest).map (Utf16.encodeChar c ++ ·)

/-- No surrogate may stand alone. -/
def readString (raw : List Char) : Option String := (readUnits raw).bind Utf16.decode

/-! ## Numbers -/

/-- No zero in front of another digit. -/
def isWhole : List Char → Bool
  | [] => false
  | [c] => c.isDigit
  | c :: rest => c.isDigit && c != '0' && rest.all Char.isDigit

def isDigits (text : List Char) : Bool := !text.isEmpty && text.all Char.isDigit

def dropMinus : List Char → List Char
  | '-' :: rest => rest
  | text => text

def dropSign : List Char → List Char
  | '+' :: rest => rest
  | text => dropMinus text

def isExponent : List Char → Bool
  | [] => true
  | c :: rest => (c == 'e' || c == 'E') && isDigits (dropSign rest)

def isNumber (text : List Char) : Bool :=
  let unsigned := dropMinus text
  isWhole (unsigned.takeWhile Char.isDigit) &&
    match unsigned.dropWhile Char.isDigit with
    | '.' :: rest =>
      isDigits (rest.takeWhile Char.isDigit) && isExponent (rest.dropWhile Char.isDigit)
    | rest => isExponent rest

/-! ## Values -/

/-- What the grammar leaves open: the value of a number, and how deep a text may nest. -/
structure Reader where
  number : List Char → Option Number
  depth : Option Nat

/-- What surrounds the value that is read. -/
inductive Frame where
  | array (items : List Json)
  | object (fields : List (String × Json)) (key : String)

inductive Parser where
  | value (stack : List Frame)
  | firstItem (stack : List Frame)
  | firstKey (stack : List Frame)
  | key (fields : List (String × Json)) (stack : List Frame)
  | colon (fields : List (String × Json)) (key : String) (stack : List Frame)
  | after (value : Json) (stack : List Frame)

/-- A text is one value. -/
def Parser.finish : Parser → Option Json
  | .after result [] => some result
  | _ => none

/-- A key that occurs again takes the later value. -/
def insertField (fields : List (String × Json)) (key : String) (value : Json) :
    List (String × Json) :=
  (fields.filter fun field => field.1 != key).orderedInsert (fun f g => f.1 ≤ g.1) (key, value)

namespace Reader

variable (r : Reader)

def readWord (text : List Char) : Option Json :=
  if text = "null".toList then some .null
  else if text = "true".toList then some (.bool true)
  else if text = "false".toList then some (.bool false)
  else if isNumber text then (r.number text).map .number
  else none

def roomFor (stack : List Frame) : Bool := r.depth.all (stack.length < ·)

def startValue (stack : List Frame) : Token → Option Parser
  | .word text => (r.readWord text).map (.after · stack)
  | .string raw => (readString raw).map fun s => .after (.string s) stack
  | .mark .openArray => if r.roomFor stack then some (.firstItem stack) else none
  | .mark .openObject => if r.roomFor stack then some (.firstKey stack) else none
  | .mark _ => none

def step : Parser → Token → Option Parser
  | .value stack, token => r.startValue stack token
  | .firstItem stack, .mark .closeArray => some (.after (.array []) stack)
  | .firstItem stack, token => r.startValue (.array [] :: stack) token
  | .firstKey stack, .mark .closeObject => some (.after (.object []) stack)
  | .firstKey stack, .string raw => (readString raw).map (.colon [] · stack)
  | .key fields stack, .string raw => (readString raw).map (.colon fields · stack)
  | .colon fields key stack, .mark .colon => some (.value (.object fields key :: stack))
  | .after value (.array items :: stack), .mark .comma =>
    some (.value (.array (items ++ [value]) :: stack))
  | .after value (.array items :: stack), .mark .closeArray =>
    some (.after (.array (items ++ [value])) stack)
  | .after value (.object fields key :: stack), .mark .comma =>
    some (.key (insertField fields key value) stack)
  | .after value (.object fields key :: stack), .mark .closeObject =>
    some (.after (.object (insertField fields key value)) stack)
  | _, _ => none

def run (p : Parser) (tokens : List Token) : Option Parser := tokens.foldlM r.step p

def parse (tokens : List Token) : Option Json := (r.run (.value []) tokens).bind Parser.finish

/-- The value of a text. -/
def read (comments : Comments) (text : List Char) : Option Json :=
  (lex comments text).bind r.parse

end Reader

/-! ## Comments between words -/

/-- No word stands directly behind another. -/
def Apart (tokens : List Token) : Prop :=
  tokens.IsChain fun s t => s.isWord = false ∨ t.isWord = false

section

variable {comments : Comments} {tokens rest : List Token} {token : Token} {word other : List Char}
  {text : List Char} {c : Char} {mark : Mark}

theorem emit_nil : emit tokens [] = tokens := rfl

theorem emit_of_ne_nil (h : word ≠ []) : emit tokens word = tokens ++ [.word word] := by
  cases word with
  | nil => exact absurd rfl h
  | cons c word => rfl

theorem not_apart_append (h : ¬ Apart tokens) : ¬ Apart (tokens ++ rest) := by
  rw [Apart, List.isChain_append]
  exact fun happ => h happ.1

/-- A word may grow: what stands before it decides. -/
theorem apart_concat_word :
    Apart (tokens ++ [.word word]) ↔
      Apart tokens ∧ ∀ token ∈ tokens.getLast?, token.isWord = false := by
  rw [Apart, List.isChain_append]
  simp [Apart, Token.isWord]

theorem not_apart_concat (h : ¬ Apart (tokens ++ [.word word])) :
    ¬ Apart (tokens ++ [.word other]) := by
  rwa [apart_concat_word] at h ⊢

theorem not_apart_emit_emit (hword : word ≠ []) (hother : other ≠ []) :
    ¬ Apart (emit (emit tokens word) other) := by
  rw [emit_of_ne_nil hword, emit_of_ne_nil hother, apart_concat_word]
  rintro ⟨-, hlast⟩
  have hlast := hlast (.word word) (by simp)
  cases hlast

namespace Lexer

variable {s s' t t' : Lexer}

theorem run_cons : run comments s (c :: text) = (s.step comments c).bind (run comments · text) :=
  List.foldlM_cons

theorem run_plain : run comments ⟨tokens, .plain word⟩ (c :: text) =
    (plainStep comments tokens word c).bind (run comments · text) := run_cons

theorem run_append {back : List Char} :
    run comments s (text ++ back) = (run comments s text).bind (run comments · back) :=
  List.foldlM_append

theorem plainStep_space (h : isSpace c = true) :
    plainStep comments tokens word c = some ⟨emit tokens word, .plain []⟩ := if_pos h

theorem plainStep_mark (h : toMark c = some mark) :
    plainStep comments tokens word c = some ⟨emit tokens word ++ [.mark mark], .plain []⟩ := by
  have hplain : isSpace c = false ∧ c ≠ '"' ∧ c ≠ '/' := by
    refine ⟨?_, ?_, ?_⟩
    · by_contra hspace
      simp only [isSpace, Bool.not_eq_false, Bool.or_eq_true, beq_iff_eq] at hspace
      rcases hspace with ((rfl | rfl) | rfl) | rfl <;> cases h
    · rintro rfl
      cases h
    · rintro rfl
      cases h
  simp only [plainStep, hplain.1, hplain.2.1, hplain.2.2, h, Bool.false_eq_true, if_false]

theorem run_space (h : isSpace c = true) : run comments ⟨tokens, .plain word⟩ (c :: text) =
    run comments ⟨emit tokens word, .plain []⟩ text := by
  rw [run_plain, plainStep_space h, Option.bind_some]

theorem run_mark (h : toMark c = some mark) : run comments ⟨tokens, .plain word⟩ (c :: text) =
    run comments ⟨emit tokens word ++ [.mark mark], .plain []⟩ text := by
  rw [run_plain, plainStep_mark h, Option.bind_some]

/-- Nothing but a slash or a quote leaves a reading outside strings and comments. -/
theorem plainStep_plain (hquote : c ≠ '"') (hslash : c ≠ '/') : ∃ tokens' word', ∀ comments,
    plainStep comments tokens word c = some ⟨tokens', .plain word'⟩ := by
  unfold plainStep
  by_cases hspace : isSpace c = true
  · exact ⟨_, _, fun _ => if_pos hspace⟩
  · simp only [if_neg hspace, if_neg hquote, if_neg hslash]
    cases toMark c with
    | none => exact ⟨_, _, fun _ => rfl⟩
    | some mark => exact ⟨_, _, fun _ => rfl⟩

theorem plainStep_quote :
    plainStep comments tokens word '"' = some ⟨emit tokens word, .string []⟩ := rfl

theorem plainStep_word (hspace : isSpace c = false) (hquote : c ≠ '"') (hslash : c ≠ '/')
    (hmark : toMark c = none) :
    plainStep comments tokens word c = some ⟨tokens, .plain (word ++ [c])⟩ := by
  simp only [plainStep, hspace, hquote, hslash, hmark, Bool.false_eq_true, if_false]

/-- The word so far is over. -/
def pause (s : Lexer) : Lexer :=
  match s.mode with
  | .plain word => ⟨emit s.tokens word, .plain []⟩
  | .slash word => ⟨emit s.tokens word, .slash []⟩
  | .line word => ⟨emit s.tokens word, .line []⟩
  | .block word => ⟨emit s.tokens word, .block []⟩
  | .star word => ⟨emit s.tokens word, .star []⟩
  | .string _ | .escaped _ => s

/-- The tokens so far, with the word that is being read. -/
def seen (s : Lexer) : List Token := s.pause.tokens

theorem plainStep_seen (h : ¬ Apart (emit tokens word))
    (hstep : plainStep comments tokens word c = some s') : ¬ Apart s'.seen := by
  unfold plainStep at hstep
  split at hstep
  · obtain rfl := Option.some.inj hstep
    exact h
  · split at hstep
    · obtain rfl := Option.some.inj hstep
      exact h
    · split at hstep
      · cases comments with
        | refused => cases hstep
        | space =>
          obtain rfl := Option.some.inj hstep
          exact h
        | nothing =>
          obtain rfl := Option.some.inj hstep
          exact h
      · split at hstep
        · obtain rfl := Option.some.inj hstep
          exact not_apart_append h
        · obtain rfl := Option.some.inj hstep
          change ¬ Apart (emit tokens (word ++ [c]))
          rw [emit_of_ne_nil (List.concat_ne_nil c word)]
          by_cases hword : word = []
          · subst hword
            exact not_apart_append h
          · rw [emit_of_ne_nil hword] at h
            exact not_apart_concat h

theorem step_seen (h : ¬ Apart s.seen) (hstep : s.step comments c = some s') :
    ¬ Apart s'.seen := by
  obtain ⟨tokens, mode⟩ := s
  cases mode with
  | plain word => exact plainStep_seen h hstep
  | string raw =>
    change (if c = '\\' then some (⟨tokens, .escaped (raw ++ [c])⟩ : Lexer)
      else if c = '"' then some ⟨tokens ++ [.string raw], .plain []⟩
      else some ⟨tokens, .string (raw ++ [c])⟩) = some s' at hstep
    split_ifs at hstep <;> obtain rfl := Option.some.inj hstep
    · exact h
    · exact not_apart_append h
    · exact h
  | escaped raw =>
    obtain rfl := Option.some.inj hstep
    exact h
  | slash word =>
    change (if c = '/' then some (⟨tokens, .line word⟩ : Lexer)
      else if c = '*' then some ⟨tokens, .block word⟩ else none) = some s' at hstep
    split_ifs at hstep <;> obtain rfl := Option.some.inj hstep <;> exact h
  | line word =>
    change (if isLineEnd c then some (⟨emit tokens word, .plain []⟩ : Lexer)
      else some ⟨tokens, .line word⟩) = some s' at hstep
    split_ifs at hstep <;> obtain rfl := Option.some.inj hstep
    · exact h
    · exact h
  | block word =>
    change (if c = '*' then some (⟨tokens, .star word⟩ : Lexer) else some ⟨tokens, .block word⟩) =
      some s' at hstep
    split_ifs at hstep <;> obtain rfl := Option.some.inj hstep <;> exact h
  | star word =>
    change (if c = '/' then some (⟨tokens, .plain word⟩ : Lexer)
      else if c = '*' then some ⟨tokens, .star word⟩ else some ⟨tokens, .block word⟩) =
      some s' at hstep
    split_ifs at hstep <;> obtain rfl := Option.some.inj hstep <;> exact h

/-- Read with comments as white space, and as nothing. -/
def Beside (s t : Lexer) : Prop := s = t ∨ s = t.pause

/-- The two readings keep beside each other until two words are read that touch. -/
theorem plainStep_beside (hstep : plainStep .space tokens word c = some s') :
    ∃ t', plainStep .nothing tokens word c = some t' ∧ Beside s' t' := by
  unfold plainStep at hstep ⊢
  split
  · next hspace =>
    rw [if_pos hspace] at hstep
    exact ⟨s', hstep, .inl rfl⟩
  · next hspace =>
    rw [if_neg hspace] at hstep
    split
    · next hquote =>
      rw [if_pos hquote] at hstep
      exact ⟨s', hstep, .inl rfl⟩
    · next hquote =>
      rw [if_neg hquote] at hstep
      split
      · next hslash =>
        rw [if_pos hslash] at hstep
        exact ⟨_, rfl, .inr (Option.some.inj hstep).symm⟩
      · next hslash =>
        rw [if_neg hslash] at hstep
        exact ⟨s', hstep, .inl rfl⟩

theorem plainStep_pause (hstep : plainStep .space (emit tokens word) [] c = some s') :
    (∃ t', plainStep .nothing tokens word c = some t' ∧ Beside s' t') ∨ ¬ Apart s'.seen := by
  by_cases hword : word = []
  · subst hword
    exact .inl (plainStep_beside hstep)
  · by_cases hplain : isSpace c = false ∧ c ≠ '"' ∧ c ≠ '/' ∧ toMark c = none
    · obtain ⟨hspace, hquote, hslash, hmark⟩ := hplain
      rw [plainStep_word hspace hquote hslash hmark] at hstep
      obtain rfl := Option.some.inj hstep
      exact .inr (not_apart_emit_emit hword (List.concat_ne_nil c []))
    · left
      have hemit : plainStep .space tokens word c = some s' := by
        rw [← hstep]
        unfold plainStep
        split_ifs with hspace hquote hslash
        · rw [emit_nil]
        · rw [emit_nil]
        · rw [emit_nil]
        · cases hmark : toMark c with
          | none => exact absurd ⟨by simpa using hspace, hquote, hslash, hmark⟩ hplain
          | some mark => simp only [emit_nil]
      exact plainStep_beside hemit

theorem step_beside (h : Beside s t) (hstep : s.step .space c = some s') :
    (∃ t', t.step .nothing c = some t' ∧ Beside s' t') ∨ ¬ Apart s'.seen := by
  obtain ⟨tokens, mode⟩ := t
  rcases h with rfl | rfl
  · left
    cases mode with
    | plain word => exact plainStep_beside hstep
    | _ => exact ⟨s', hstep, .inl rfl⟩
  · cases mode with
    | plain word => exact plainStep_pause hstep
    | string raw => exact .inl ⟨s', hstep, .inl rfl⟩
    | escaped raw => exact .inl ⟨s', hstep, .inl rfl⟩
    | slash word =>
      left
      change (if c = '/' then some (⟨emit tokens word, .line []⟩ : Lexer)
        else if c = '*' then some ⟨emit tokens word, .block []⟩ else none) = some s' at hstep
      simp only [step]
      split_ifs at hstep ⊢
      · exact ⟨_, rfl, .inr (Option.some.inj hstep).symm⟩
      · exact ⟨_, rfl, .inr (Option.some.inj hstep).symm⟩
    | line word =>
      left
      change (if isLineEnd c then some (⟨emit (emit tokens word) [], .plain []⟩ : Lexer)
        else some ⟨emit tokens word, .line []⟩) = some s' at hstep
      simp only [step]
      split_ifs at hstep ⊢
      · exact ⟨_, rfl, .inr (Option.some.inj hstep).symm⟩
      · exact ⟨_, rfl, .inr (Option.some.inj hstep).symm⟩
    | block word =>
      left
      change (if c = '*' then some (⟨emit tokens word, .star []⟩ : Lexer)
        else some ⟨emit tokens word, .block []⟩) = some s' at hstep
      simp only [step]
      split_ifs at hstep ⊢
      · exact ⟨_, rfl, .inr (Option.some.inj hstep).symm⟩
      · exact ⟨_, rfl, .inr (Option.some.inj hstep).symm⟩
    | star word =>
      left
      change (if c = '/' then some (⟨emit tokens word, .plain []⟩ : Lexer)
        else if c = '*' then some ⟨emit tokens word, .star []⟩
        else some ⟨emit tokens word, .block []⟩) = some s' at hstep
      simp only [step]
      split_ifs at hstep ⊢
      · exact ⟨_, rfl, .inr (Option.some.inj hstep).symm⟩
      · exact ⟨_, rfl, .inr (Option.some.inj hstep).symm⟩
      · exact ⟨_, rfl, .inr (Option.some.inj hstep).symm⟩

theorem run_seen (h : ¬ Apart s.seen) (hrun : s.run comments text = some s') :
    ¬ Apart s'.seen := by
  induction text generalizing s with
  | nil =>
    obtain rfl := Option.some.inj hrun
    exact h
  | cons c text ih =>
    rw [run_cons, Option.bind_eq_some_iff] at hrun
    obtain ⟨next, hstep, hrun⟩ := hrun
    exact ih (step_seen h hstep) hrun

theorem run_beside (h : Beside s t) (hrun : s.run .space text = some s') :
    (∃ t', t.run .nothing text = some t' ∧ Beside s' t') ∨ ¬ Apart s'.seen := by
  induction text generalizing s t with
  | nil =>
    obtain rfl := Option.some.inj hrun
    exact .inl ⟨t, rfl, h⟩
  | cons c text ih =>
    rw [run_cons, Option.bind_eq_some_iff] at hrun
    obtain ⟨next, hstep, hrun⟩ := hrun
    rcases step_beside h hstep with ⟨t', hstep', hbeside⟩ | hapart
    · rw [run_cons, hstep']
      exact ih hbeside hrun
    · exact .inr (run_seen hapart hrun)

theorem finish_pause : t.pause.finish = t.finish := by
  obtain ⟨tokens, mode⟩ := t
  cases mode <;> rfl

theorem finish_eq (h : s.finish = some tokens) : tokens = s.seen := by
  obtain ⟨before, mode⟩ := s
  cases mode with
  | plain word => exact (Option.some.inj h).symm
  | line word => exact (Option.some.inj h).symm
  | _ => cases h

end Lexer

/-- Unless two words touch, comments may be taken as nothing. -/
theorem lex_nothing (h : lex .space text = some tokens) :
    lex .nothing text = some tokens ∨ ¬ Apart tokens := by
  rw [lex, Option.bind_eq_some_iff] at h
  obtain ⟨s, hrun, hfinish⟩ := h
  rcases Lexer.run_beside (.inl rfl) hrun with ⟨t, hrun', rfl | rfl⟩ | hapart
  · exact .inl (by rw [lex, hrun', Option.bind_some, hfinish])
  · exact .inl (by rw [lex, hrun', Option.bind_some, ← Lexer.finish_pause, hfinish])
  · exact .inr (Lexer.finish_eq hfinish ▸ hapart)

namespace Reader

variable {r : Reader} {p p' : Parser} {value : Json}

theorem run_parser_cons : r.run p (token :: rest) = (r.step p token).bind (r.run · rest) :=
  List.foldlM_cons

theorem run_parser_append {back : List Token} :
    r.run p (rest ++ back) = (r.run p rest).bind (r.run · back) :=
  List.foldlM_append

theorem startValue_word {stack : List Frame} (h : r.startValue stack (.word word) = some p') :
    ∃ value stack, p' = .after value stack := by
  obtain ⟨value, -, rfl⟩ := Option.map_eq_some_iff.mp h
  exact ⟨value, stack, rfl⟩

/-- Only a word that is a value on its own is accepted. -/
theorem step_word (h : r.step p (.word word) = some p') : ∃ value stack, p' = .after value stack := by
  cases p with
  | value stack => exact startValue_word h
  | firstItem stack => exact startValue_word h
  | after value stack =>
    rcases stack with _ | ⟨_ | _, _⟩ <;> cases h
  | _ => cases h

theorem step_after_word {stack : List Frame} : r.step (.after value stack) (.word word) = none := by
  rcases stack with _ | ⟨_ | _, _⟩ <;> rfl

theorem apart_of_run (h : r.run p tokens = some p') : Apart tokens := by
  induction tokens generalizing p with
  | nil => exact List.IsChain.nil
  | cons token rest ih =>
    rw [run_parser_cons, Option.bind_eq_some_iff] at h
    obtain ⟨next, hstep, hrun⟩ := h
    cases rest with
    | nil => exact List.isChain_singleton token
    | cons following rest =>
      refine List.isChain_cons_cons.mpr ⟨?_, ih hrun⟩
      rcases token with _ | word | _
      · exact .inl rfl
      · rcases following with _ | _ | _
        · exact .inr rfl
        · obtain ⟨value, stack, rfl⟩ := step_word hstep
          rw [run_parser_cons, step_after_word] at hrun
          cases hrun
        · exact .inr rfl
      · exact .inl rfl

theorem apart_of_parse (h : r.parse tokens = some value) : Apart tokens := by
  rw [parse, Option.bind_eq_some_iff] at h
  obtain ⟨p, hrun, -⟩ := h
  exact apart_of_run hrun

theorem lex_of_read (h : r.read .space text = some value) : lex .space text = lex .nothing text := by
  rw [read, Option.bind_eq_some_iff] at h
  obtain ⟨tokens, hlex, hparse⟩ := h
  rcases lex_nothing hlex with hnothing | hapart
  · rw [hlex, hnothing]
  · exact absurd (apart_of_parse hparse) hapart

/-- A text reads the same either way unless it is a value only with its comments as nothing. -/
theorem read_space_iff (P : Json → Prop) :
    (∀ value, P value → (r.read .nothing text = some value ↔ r.read .space text = some value)) ↔
      ¬ (lex .space text ≠ lex .nothing text ∧ ∃ value, P value ∧ r.read .nothing text = some value) := by
  constructor
  · rintro h ⟨hne, value, hP, hread⟩
    exact hne (lex_of_read ((h value hP).mp hread))
  · intro h value hP
    constructor
    · intro hread
      by_cases heq : lex .space text = lex .nothing text
      · rw [read, heq]
        exact hread
      · exact absurd ⟨heq, value, hP, hread⟩ h
    · intro hread
      rw [read, ← lex_of_read hread]
      exact hread

end Reader

end

/-! ## Fields -/

section

variable {fields : List (String × Json)} {key other : String} {value : Json}

theorem lookup_orderedInsert (h : key ∉ fields.map (·.1)) :
    (fields.orderedInsert (fun f g => f.1 ≤ g.1) (key, value)).lookup other =
      if other = key then some value else fields.lookup other := by
  induction fields with
  | nil =>
    rw [List.orderedInsert, List.lookup_cons]
    by_cases hkey : other = key
    · rw [hkey, if_pos rfl, beq_self_eq_true]
    · rw [if_neg hkey, beq_false_of_ne hkey]
  | cons field fields ih =>
    rw [List.map_cons, List.mem_cons, not_or] at h
    rw [List.orderedInsert]
    split_ifs with hle hkey hkey
    · rw [hkey, List.lookup_cons_self]
    · rw [List.lookup_cons, beq_false_of_ne hkey]
    · subst hkey
      rw [List.lookup_cons, beq_false_of_ne h.1]
      exact (ih h.2).trans (if_pos rfl)
    · rw [List.lookup_cons, List.lookup_cons, ih h.2, if_neg hkey]

theorem lookup_insertField : (insertField fields key value).lookup other =
    if other = key then some value else fields.lookup other := by
  have hmissing : key ∉ (fields.filter fun field => field.1 != key).map (·.1) := by
    rw [List.mem_map]
    rintro ⟨field, hfield, rfl⟩
    simp [List.mem_filter] at hfield
  rw [insertField, lookup_orderedInsert hmissing]
  split_ifs with hkey
  · rfl
  · exact AssocList.lookup_filter_ne hkey

end

/-! ## Strings between their quotes -/

/-- Read inside a string, a text neither ends it nor leaves an escape open. -/
def Inside (text : List Char) : Prop :=
  ∀ comments tokens raw, Lexer.run comments ⟨tokens, .string raw⟩ text =
    some ⟨tokens, .string (raw ++ text)⟩

section

variable {comments : Comments} {tokens : List Token} {text back word : List Char} {c : Char}

theorem inside_nil : Inside [] := by
  intro comments tokens raw
  rw [List.append_nil]
  rfl

theorem inside_append (h : Inside text) (hback : Inside back) : Inside (text ++ back) := by
  intro comments tokens raw
  rw [Lexer.run_append, h, Option.bind_some, hback, List.append_assoc]

theorem inside_plain (hquote : c ≠ '"') (hescape : c ≠ '\\') : Inside [c] := by
  intro comments tokens raw
  simp only [Lexer.run_cons, Lexer.step, if_neg hescape, if_neg hquote]
  rfl

theorem inside_escape : Inside ['\\', c] := by
  intro comments tokens raw
  simp only [Lexer.run_cons, Lexer.step, if_true, Option.bind_some]
  rw [← List.append_cons]
  rfl

theorem inside_flatMap {f : Char → List Char} (h : ∀ c ∈ text, Inside (f c)) :
    Inside (text.flatMap f) := by
  induction text with
  | nil => exact inside_nil
  | cons c text ih =>
    rw [List.forall_mem_cons] at h
    exact inside_append h.1 (ih h.2)

/-- A quoted string is one token. -/
theorem Lexer.run_quoted (h : Inside text) :
    Lexer.run comments ⟨tokens, .plain word⟩ ('"' :: text ++ '"' :: back) =
      Lexer.run comments ⟨emit tokens word ++ [.string text], .plain []⟩ back := by
  rw [List.cons_append, run_plain, plainStep_quote, Option.bind_some, run_append, h,
    Option.bind_some, run_cons]
  rfl

theorem readUnits_plain (hescape : c ≠ '\\') (hcontrol : 0x20 ≤ c.toNat) :
    readUnits (c :: back) = (readUnits back).map (Utf16.encodeChar c ++ ·) := by
  have hplain : ¬ (c = '\\' ∨ c.toNat < 0x20) := by
    rintro (h | h)
    · exact hescape h
    · exact absurd h (Nat.not_lt.mpr hcontrol)
  rw [readUnits.eq_def]
  split
  · next heq => cases heq
  · next heq => exact absurd (List.cons.inj heq).1 hescape
  · next heq => exact absurd (List.cons.inj heq).1 hescape
  · next heq =>
    obtain ⟨rfl, rfl⟩ := List.cons.inj heq
    rw [if_neg hplain]

theorem readUnits_control (hcontrol : c.toNat < 0x20) : readUnits (c :: back) = none := by
  have hescape : c ≠ '\\' := by
    rintro rfl
    exact absurd hcontrol (by decide)
  rw [readUnits.eq_def]
  split
  · next heq => cases heq
  · next heq => exact absurd (List.cons.inj heq).1 hescape
  · next heq => exact absurd (List.cons.inj heq).1 hescape
  · next heq =>
    obtain ⟨rfl, rfl⟩ := List.cons.inj heq
    rw [if_pos (Or.inr hcontrol)]

theorem readString_plain {s : String}
    (h : ∀ c ∈ s.toList, c ≠ '\\' ∧ 0x20 ≤ c.toNat) : readString s.toList = some s := by
  have hunits : ∀ chars : List Char, (∀ c ∈ chars, c ≠ '\\' ∧ 0x20 ≤ c.toNat) →
      readUnits chars = some (chars.flatMap Utf16.encodeChar) := by
    intro chars hchars
    induction chars with
    | nil => rfl
    | cons c chars ih =>
      rw [List.forall_mem_cons] at hchars
      rw [readUnits_plain hchars.1.1 hchars.1.2, ih hchars.2]
      rfl
  rw [readString, hunits _ h]
  exact Utf16.decode_encode s

theorem readUnits_escape {d : Char} (h : shortEscape c = some d) :
    readUnits ('\\' :: c :: back) = (readUnits back).map (Utf16.encodeChar d ++ ·) := by
  have hc : c ≠ 'u' := by
    rintro rfl
    cases h
  rw [readUnits]
  · rw [h, Option.bind_some]
  · rintro - - - - - h -
    exact hc h

end

end Climon.Lib.JsonText
