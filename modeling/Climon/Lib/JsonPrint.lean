import Climon.Lib.DecimalText
import Climon.Lib.JsonText

namespace Climon.Lib.JsonPrint

open Climon.Lib.JsonText Climon.Lib.JsonValue

/-!
# JSON as a library prints it

Compact texts, and what a reader makes of them.  A text is read in two steps: to its tokens, whatever
stands behind it, and from them to its value, whatever stands around it.
-/

/-! ## Printing -/

/-- The characters with an escape of their own. -/
def escapes : List (Char × Char) :=
  [('"', '"'), ('\\', '\\'), ('\x08', 'b'), ('\x0c', 'f'), ('\n', 'n'), ('\r', 'r'), ('\t', 't')]

def unitEscape (c : Char) : List Char :=
  ['\\', 'u', '0', '0', Nat.digitChar (c.toNat / 16), Nat.digitChar (c.toNat % 16)]

def escapeChar (c : Char) : List Char :=
  match escapes.lookup c with
  | some d => ['\\', d]
  | none => if c.toNat < 0x20 then unitEscape c else [c]

def escape (s : String) : List Char := s.toList.flatMap escapeChar

def quoted (raw : List Char) : List Char := '"' :: raw ++ ['"']

/-- The pieces with commas between them. -/
def commas {α : Type} (comma : α) : List (List α) → List α
  | [] => []
  | piece :: pieces => piece ++ pieces.flatMap (comma :: ·)

section Printing

variable (floatText : Rat → List Char)

def numberText : Number → List Char
  | .posInt n => n.toNat.repr.toList
  | .negInt n => n.toInt.repr.toList
  | .float q => floatText q

mutual

/-- `floatText` prints a double. -/
def print : Json → List Char
  | .null => "null".toList
  | .bool b => (if b then "true" else "false").toList
  | .number n => numberText floatText n
  | .string s => quoted (escape s)
  | .array items => '[' :: commas ',' (printItems items) ++ [']']
  | .object fields => '\x7b' :: commas ',' (printFields fields) ++ ['\x7d']

def printItems : List Json → List (List Char)
  | [] => []
  | item :: items => print item :: printItems items

def printFields : List (String × Json) → List (List Char)
  | [] => []
  | (key, value) :: fields => (quoted (escape key) ++ ':' :: print value) :: printFields fields

end

end Printing

/-! ## Strings -/

section Strings

variable {c d : Char} {back : List Char} {chars : List Char}

theorem escapes_short (h : escapes.lookup c = some d) : shortEscape d = some c := by
  have hall : ∀ pair ∈ escapes, shortEscape pair.2 = some pair.1 := by decide
  exact hall (c, d) (AssocList.mem_of_lookup h)

theorem readUnit_control : ∀ n < 0x20,
    readUnit ['0', '0', Nat.digitChar (n / 16), Nat.digitChar (n % 16)] =
      some (UInt16.ofNat n) := by decide

theorem plain_of_lookup (h : escapes.lookup c = none) : c ≠ '"' ∧ c ≠ '\\' := by
  refine ⟨?_, ?_⟩
  · rintro rfl
    cases h
  · rintro rfl
    cases h

theorem inside_escapeChar : Inside (escapeChar c) := by
  unfold escapeChar
  split
  · exact inside_escape
  · next hplain =>
    split
    · next hcontrol =>
      have hdigit : ∀ n < 16, Nat.digitChar n ≠ '"' ∧ Nat.digitChar n ≠ '\\' := by decide
      have hhigh := hdigit (c.toNat / 16) (by omega)
      have hlow := hdigit (c.toNat % 16) (by omega)
      refine inside_append inside_escape ?_
      refine inside_append (inside_plain (by decide) (by decide)) ?_
      refine inside_append (inside_plain (by decide) (by decide)) ?_
      exact inside_append (inside_plain hhigh.1 hhigh.2) (inside_plain hlow.1 hlow.2)
    · exact inside_plain (plain_of_lookup hplain).1 (plain_of_lookup hplain).2

theorem inside_escaped (s : String) : Inside (escape s) := inside_flatMap fun _ _ => inside_escapeChar

theorem readUnits_escapeChar :
    readUnits (escapeChar c ++ back) = (readUnits back).map (Utf16.encodeChar c ++ ·) := by
  unfold escapeChar
  split
  · next d hlookup => exact readUnits_escape (escapes_short hlookup)
  · next hplain =>
    split
    · next hcontrol =>
      have hunit : Utf16.encodeChar c = [UInt16.ofNat c.toNat] := by
        unfold Utf16.encodeChar
        rw [if_pos (by omega)]
      rw [unitEscape, List.cons_append, List.cons_append, List.cons_append, List.cons_append,
        List.cons_append, List.cons_append, List.nil_append, readUnits,
        readUnit_control _ hcontrol, Option.bind_some, hunit]
      rfl
    · next hcontrol =>
      exact readUnits_plain (plain_of_lookup hplain).2 (Nat.le_of_not_lt hcontrol)

theorem readUnits_escaped :
    readUnits (chars.flatMap escapeChar) = some (chars.flatMap Utf16.encodeChar) := by
  induction chars with
  | nil => rfl
  | cons c chars ih =>
    rw [List.flatMap_cons, readUnits_escapeChar, ih, List.flatMap_cons]
    rfl

theorem readString_escape (s : String) : readString (escape s) = some s := by
  rw [readString, escape, readUnits_escaped]
  exact Utf16.decode_encode s

end Strings

/-! ## Numbers -/

/-- The characters of a number. -/
def isNumberChar (c : Char) : Bool := c.isDigit || ['.', 'e', 'E', '+', '-'].contains c

section Numbers

variable {text : List Char} {c : Char}

theorem isDigits_chars (h : isDigits text = true) : ∀ c ∈ text, isNumberChar c = true := by
  intro c hc
  rw [isDigits, Bool.and_eq_true] at h
  rw [isNumberChar, List.all_eq_true.mp h.2 c hc, Bool.true_or]

theorem dropMinus_chars (h : ∀ c ∈ dropMinus text, isNumberChar c = true) :
    ∀ c ∈ text, isNumberChar c = true := by
  unfold dropMinus at h
  split at h
  · exact List.forall_mem_cons.mpr ⟨by decide, h⟩
  · exact h

theorem dropSign_chars (h : ∀ c ∈ dropSign text, isNumberChar c = true) :
    ∀ c ∈ text, isNumberChar c = true := by
  unfold dropSign at h
  split at h
  · exact List.forall_mem_cons.mpr ⟨by decide, h⟩
  · exact dropMinus_chars h

theorem isExponent_chars (h : isExponent text = true) : ∀ c ∈ text, isNumberChar c = true := by
  cases text with
  | nil => exact nofun
  | cons e rest =>
    rw [isExponent, Bool.and_eq_true, Bool.or_eq_true, beq_iff_eq, beq_iff_eq] at h
    refine List.forall_mem_cons.mpr ⟨?_, dropSign_chars (isDigits_chars h.2)⟩
    cases h.1 with
    | inl he => subst he; decide
    | inr he => subst he; decide

theorem takeWhile_digits_chars : ∀ c ∈ text.takeWhile Char.isDigit, isNumberChar c = true := by
  intro c hc
  rw [isNumberChar, List.mem_takeWhile_imp hc, Bool.true_or]

theorem isNumber_chars (h : isNumber text = true) : ∀ c ∈ text, isNumberChar c = true := by
  rw [isNumber, Bool.and_eq_true] at h
  apply dropMinus_chars
  rw [← List.takeWhile_append_dropWhile (p := Char.isDigit) (l := dropMinus text),
    List.forall_mem_append]
  refine ⟨takeWhile_digits_chars, ?_⟩
  have hrest := h.2
  split at hrest
  · next rest heq =>
    rw [Bool.and_eq_true] at hrest
    rw [heq]
    refine List.forall_mem_cons.mpr ⟨by decide, ?_⟩
    rw [← List.takeWhile_append_dropWhile (p := Char.isDigit) (l := rest), List.forall_mem_append]
    exact ⟨takeWhile_digits_chars, isExponent_chars hrest.2⟩
  · exact isExponent_chars hrest

theorem isNumber_ne_nil (h : isNumber text = true) : text ≠ [] := by
  rintro rfl
  cases h

theorem head_toDigits {n : Nat} (h : 0 < n) : (Nat.toDigits 10 n).head? ≠ some '0' := by
  induction n using Nat.strongRecOn with
  | _ n ih =>
    rw [Nat.toDigits_eq_if (by decide)]
    split
    · next hlt =>
      have hdigit : ∀ d < 10, 0 < d → Nat.digitChar d ≠ '0' := by decide
      exact fun hhead => hdigit n hlt h (Option.some.inj hhead)
    · next hge =>
      have hfront := ih (n / 10) (by omega) (by omega)
      rwa [List.head?_append_of_ne_nil _ Nat.toDigits_ne_nil]

theorem isWhole_toDigits (n : Nat) : isWhole (Nat.toDigits 10 n) = true := by
  have hdigits : ∀ c ∈ Nat.toDigits 10 n, c.isDigit = true := fun c hc =>
    Nat.isDigit_of_mem_toDigits (by decide) (by decide) hc
  by_cases hlt : n < 10
  · rw [Nat.toDigits_of_lt_base hlt] at hdigits ⊢
    exact hdigits _ List.mem_cons_self
  · have hhead := head_toDigits (show 0 < n by omega)
    cases htext : Nat.toDigits 10 n with
    | nil => exact absurd htext Nat.toDigits_ne_nil
    | cons c rest =>
      rw [htext, List.forall_mem_cons] at hdigits
      rw [htext, List.head?_cons] at hhead
      have hzero : c ≠ '0' := fun hc => hhead (congrArg some hc)
      cases rest with
      | nil => exact hdigits.1
      | cons d rest =>
        rw [isWhole, hdigits.1, bne_iff_ne.mpr hzero, List.all_eq_true.mpr hdigits.2]
        · rfl
        · exact nofun

theorem isNumber_repr (n : Nat) : isNumber n.repr.toList = true := by
  have hdigits := DecimalText.digits_repr n
  have hminus : dropMinus n.repr.toList = n.repr.toList := by
    unfold dropMinus
    split
    · next rest heq =>
      rw [heq, List.forall_mem_cons] at hdigits
      cases hdigits.1
    · rfl
  rw [isNumber, hminus, List.takeWhile_eq_self_iff.mpr hdigits,
    List.dropWhile_eq_nil_iff.mpr hdigits, Nat.toList_repr, isWhole_toDigits]
  rfl

theorem isNumber_minus (n : Nat) : isNumber ('-' :: n.repr.toList) = true := by
  have hdigits := DecimalText.digits_repr n
  rw [isNumber, dropMinus, List.takeWhile_eq_self_iff.mpr hdigits,
    List.dropWhile_eq_nil_iff.mpr hdigits, Nat.toList_repr, isWhole_toDigits]
  rfl

theorem isNumber_int (n : Int) : isNumber n.repr.toList = true := by
  rw [Int.repr_eq_if]
  split
  · exact isNumber_repr n.toNat
  · rw [String.toList_append]
    exact isNumber_minus _

end Numbers

/-! ## Reading a text to its tokens -/

/-- What ends a word without taking part in it. -/
def isDelimiter (c : Char) : Bool := isSpace c || (toMark c).isSome

def isWordChar (c : Char) : Bool := !isDelimiter c && c != '"' && c != '/'

/-- Between tokens the text is read to the tokens, whatever ends it. -/
def Lexes (comments : Comments) (text : List Char) (tokens : List Token) : Prop :=
  ∀ seen next back, isDelimiter next = true →
    Lexer.run comments ⟨seen, .plain []⟩ (text ++ next :: back) =
      Lexer.run comments ⟨seen ++ tokens, .plain []⟩ (next :: back)

/-- The same for a text that needs nothing to end it. -/
def Closed (comments : Comments) (text : List Char) (tokens : List Token) : Prop :=
  ∀ seen back, Lexer.run comments ⟨seen, .plain []⟩ (text ++ back) =
    Lexer.run comments ⟨seen ++ tokens, .plain []⟩ back

section Lexing

variable {comments : Comments} {text other word : List Char} {tokens more seen : List Token}
  {c : Char} {mark : Mark}

theorem Closed.lexes (h : Closed comments text tokens) : Lexes comments text tokens :=
  fun seen next back _ => h seen (next :: back)

theorem Closed.append (h : Closed comments text tokens) (h' : Closed comments other more) :
    Closed comments (text ++ other) (tokens ++ more) := by
  intro seen back
  rw [List.append_assoc, h, h', List.append_assoc]

theorem Closed.lexes_append (h : Closed comments text tokens) (h' : Lexes comments other more) :
    Lexes comments (text ++ other) (tokens ++ more) := by
  intro seen next back hnext
  rw [List.append_assoc, h, h' _ _ _ hnext, List.append_assoc]

theorem closed_nil : Closed comments [] [] := by
  intro seen back
  rw [List.append_nil]
  rfl

theorem closed_space (h : isSpace c = true) : Closed comments [c] [] := by
  intro seen back
  rw [List.singleton_append, Lexer.run_space h, List.append_nil]
  rfl

theorem closed_mark (h : toMark c = some mark) : Closed comments [c] [.mark mark] := by
  intro seen back
  rw [List.singleton_append, Lexer.run_mark h]
  rfl

theorem closed_spaces (h : ∀ c ∈ text, isSpace c = true) : Closed comments text [] := by
  induction text with
  | nil => exact closed_nil
  | cons c text ih =>
    rw [List.forall_mem_cons] at h
    exact (closed_space h.1).append (ih h.2)

theorem closed_quoted (h : Inside text) : Closed comments (quoted text) [.string text] := by
  intro seen back
  rw [quoted, List.append_assoc, List.singleton_append, Lexer.run_quoted h]
  rfl

/-- A text and the delimiter behind it. -/
theorem Lexes.close (h : Lexes comments text tokens) (hc : isDelimiter c = true)
    (hclosed : Closed comments [c] more) : Closed comments (text ++ [c]) (tokens ++ more) := by
  intro seen back
  rw [List.append_assoc, List.singleton_append, h _ _ _ hc, ← List.singleton_append, hclosed,
    List.append_assoc]

theorem run_delimiter {back : List Char} (h : isDelimiter c = true) :
    Lexer.run comments ⟨seen, .plain word⟩ (c :: back) =
      Lexer.run comments ⟨emit seen word, .plain []⟩ (c :: back) := by
  rw [isDelimiter, Bool.or_eq_true] at h
  cases h with
  | inl hspace => rw [Lexer.run_space hspace, Lexer.run_space hspace, emit_nil]
  | inr hmark =>
    obtain ⟨mark, hmark⟩ := Option.isSome_iff_exists.mp hmark
    rw [Lexer.run_mark hmark, Lexer.run_mark hmark, emit_nil]

theorem run_wordChars {back : List Char} (h : ∀ c ∈ text, isWordChar c = true) :
    Lexer.run comments ⟨seen, .plain word⟩ (text ++ back) =
      Lexer.run comments ⟨seen, .plain (word ++ text)⟩ back := by
  induction text generalizing word with
  | nil => rw [List.nil_append, List.append_nil]
  | cons c text ih =>
    rw [List.forall_mem_cons] at h
    have hc := h.1
    simp only [isWordChar, isDelimiter, Bool.and_eq_true, Bool.not_eq_true', Bool.or_eq_false_iff,
      bne_iff_ne, Option.isSome_eq_false_iff, Option.isNone_iff_eq_none] at hc
    rw [List.cons_append, Lexer.run_plain, Lexer.plainStep_word hc.1.1.1 hc.1.2 hc.2 hc.1.1.2,
      Option.bind_some, ih h.2, List.append_assoc]
    rfl

theorem lexes_word (h : ∀ c ∈ text, isWordChar c = true) (hne : text ≠ []) :
    Lexes comments text [.word text] := by
  intro seen next back hnext
  rw [run_wordChars h, List.nil_append, run_delimiter hnext, emit_of_ne_nil hne]

theorem wordChar_of_numberChar (h : isNumberChar c = true) : isWordChar c = true := by
  rw [isNumberChar, Bool.or_eq_true] at h
  cases h with
  | inl hdigit =>
    have hbound := DecimalText.toNat_digit hdigit
    have hall : ∀ n < 58, 48 ≤ n → isWordChar (Char.ofNat n) = true := by decide
    rw [← Char.ofNat_toNat c]
    exact hall c.toNat (by omega) hbound.1
  | inr hother =>
    rw [List.contains_iff_mem] at hother
    have hall : ∀ c ∈ ['.', 'e', 'E', '+', '-'], isWordChar c = true := by decide
    exact hall c hother

theorem lexes_number (h : isNumber text = true) : Lexes comments text [.word text] :=
  lexes_word (fun _ hc => wordChar_of_numberChar (isNumber_chars h _ hc)) (isNumber_ne_nil h)

end Lexing

/-! ## Reading tokens to a value -/

/-- Where a value is due, the tokens are read to it, unless containers stand too deep. -/
def Parses (r : Reader) (tokens : List Token) (value : Json) : Prop :=
  ∀ stack, (∀ d ∈ r.depth, stack.length + value.nesting ≤ d) →
    r.run (.value stack) tokens = some (.after value stack)

/-- Objects keep their fields in the order of their keys, each key once. -/
def Sorted (fields : List (String × Json)) : Prop := fields.Pairwise fun f g => f.1 < g.1

/-- The fields that are read one after another. -/
def collect (fields : List (String × Json)) : List (String × Json) :=
  fields.foldl (fun found field => insertField found field.1 field.2) []

section Collecting

variable {fields sorted : List (String × Json)} {key : String} {value : Json}

theorem filter_of_notMem (h : key ∉ fields.map (·.1)) :
    (fields.filter fun field => field.1 != key) = fields := by
  rw [List.filter_eq_self]
  intro field hfield
  exact bne_iff_ne.mpr fun heq => h (List.mem_map.mpr ⟨field, hfield, heq⟩)

theorem insertField_perm (h : key ∉ fields.map (·.1)) :
    (insertField fields key value).Perm ((key, value) :: fields) := by
  rw [insertField, filter_of_notMem h]
  exact List.perm_orderedInsert _ _ _

theorem pairwise_insertField (h : fields.Pairwise fun f g => f.1 ≤ g.1) :
    (insertField fields key value).Pairwise fun f g => f.1 ≤ g.1 := by
  have : Std.Total fun f g : String × Json => f.1 ≤ g.1 := ⟨fun f g => String.le_total f.1 g.1⟩
  have : IsTrans (String × Json) fun f g => f.1 ≤ g.1 :=
    ⟨fun _ _ _ => String.le_trans⟩
  exact (h.filter _).orderedInsert _ _

theorem collect_perm (h : (fields.map (·.1)).Nodup) :
    (collect fields).Perm fields ∧ (collect fields).Pairwise fun f g => f.1 ≤ g.1 := by
  induction fields using List.reverseRecOn with
  | nil => exact ⟨.refl [], .nil⟩
  | append_singleton fields field ih =>
    rw [List.map_append, List.nodup_append] at h
    obtain ⟨hperm, hle⟩ := ih h.1
    have hnew : field.1 ∉ (collect fields).map (·.1) := by
      rw [(hperm.map _).mem_iff]
      exact fun hmem => h.2.2 field.1 hmem field.1 List.mem_cons_self rfl
    have hcollect : collect (fields ++ [field]) = insertField (collect fields) field.1 field.2 := by
      rw [collect, List.foldl_append]
      rfl
    rw [hcollect]
    refine ⟨?_, pairwise_insertField hle⟩
    exact (insertField_perm hnew).trans ((hperm.cons field).trans (List.perm_append_singleton _ _).symm)

theorem Sorted.nodup (h : Sorted sorted) : (sorted.map (·.1)).Nodup := by
  rw [List.Nodup, List.pairwise_map]
  exact h.imp String.ne_of_lt

/-- In whatever order the fields of an object come, they are put into its order. -/
theorem collect_eq (hperm : fields.Perm sorted) (h : Sorted sorted) : collect fields = sorted := by
  have hnodup : (fields.map (·.1)).Nodup := (hperm.map _).nodup_iff.mpr h.nodup
  obtain ⟨hcollect, hle⟩ := collect_perm hnodup
  refine (hcollect.trans hperm).eq_of_pairwise ?_ hle (h.imp fun hlt => String.lt_asymm hlt)
  intro f g hf hg hfg hgf
  have hkey : f.1 = g.1 := String.le_antisymm hfg hgf
  have hmem : f ∈ sorted := (hcollect.trans hperm).subset hf
  have hvalue := AssocList.lookup_of_mem h.nodup hmem
  rw [hkey, AssocList.lookup_of_mem h.nodup hg] at hvalue
  exact Prod.ext hkey (Option.some.inj hvalue).symm

end Collecting

section Parsing

variable {r : Reader} {tokens : List Token} {value : Json} {stack : List Frame}

theorem roomFor_of_le {n : Nat} (h : ∀ d ∈ r.depth, stack.length + (n + 1) ≤ d) :
    r.roomFor stack = true := by
  rw [Reader.roomFor, Option.all_eq_true]
  intro d hd
  have hd := h d hd
  exact decide_eq_true (by omega)

theorem parses_word {text : List Char} (h : r.readWord text = some value) :
    Parses r [.word text] value := by
  intro stack _
  rw [Reader.run_parser_cons]
  simp only [Reader.step, Reader.startValue, h, Option.map_some, Option.bind_some]
  rfl

theorem parses_string {raw : List Char} {s : String} (h : readString raw = some s) :
    Parses r [.string raw] (.string s) := by
  intro stack _
  rw [Reader.run_parser_cons]
  simp only [Reader.step, Reader.startValue, h, Option.map_some, Option.bind_some]
  rfl

/-- The first item of an array is read like any other value. -/
theorem run_firstItem
    (h : r.run (.value (.array [] :: stack)) tokens = some (.after value (.array [] :: stack))) :
    r.run (.firstItem stack) tokens = some (.after value (.array [] :: stack)) := by
  cases tokens with
  | nil => cases h
  | cons token tokens =>
    have hstep : r.step (.firstItem stack) token = r.step (.value (.array [] :: stack)) token := by
      rcases token with mark | _ | _
      · cases mark with
        | closeArray => cases h
        | _ => rfl
      · rfl
      · rfl
    rw [Reader.run_parser_cons, hstep, ← Reader.run_parser_cons]
    exact h

theorem run_items {pieces : List (List Token)} {items : List Json}
    (h : List.Forall₂ (Parses r) pieces items)
    (hroom : ∀ item ∈ items, ∀ d ∈ r.depth, stack.length + 1 + item.nesting ≤ d)
    (front : List Json) (value : Json) :
    r.run (.after value (.array front :: stack))
        (pieces.flatMap (Token.mark .comma :: ·) ++ [.mark .closeArray]) =
      some (.after (.array (front ++ value :: items)) stack) := by
  induction h generalizing front value with
  | nil => rfl
  | @cons piece item pieces items hpiece _ ih =>
    rw [List.forall_mem_cons] at hroom
    rw [List.flatMap_cons, List.append_assoc, List.cons_append, Reader.run_parser_cons]
    simp only [Reader.step, Option.bind_some]
    rw [Reader.run_parser_append, hpiece (.array (front ++ [value]) :: stack) hroom.1, Option.bind_some, ih hroom.2]
    simp

theorem parses_array {pieces : List (List Token)} {items : List Json}
    (h : List.Forall₂ (Parses r) pieces items) :
    Parses r (.mark .openArray :: commas (.mark .comma) pieces ++ [.mark .closeArray])
      (.array items) := by
  intro stack hdepth
  simp only [Json.nesting] at hdepth
  have hopen : r.step (.value stack) (.mark .openArray) = some (.firstItem stack) :=
    if_pos (roomFor_of_le hdepth)
  have hroom : ∀ item ∈ items, ∀ d ∈ r.depth, stack.length + 1 + item.nesting ≤ d := by
    intro item hitem d hd
    have hle := Json.nestingItems_le_iff.mp (Nat.le_refl _) item hitem
    have hd := hdepth d hd
    omega
  rw [List.cons_append, Reader.run_parser_cons, hopen, Option.bind_some]
  cases h with
  | nil => rfl
  | @cons piece item pieces items hpiece hpieces =>
    rw [List.forall_mem_cons] at hroom
    rw [commas, List.append_assoc, Reader.run_parser_append,
      run_firstItem (hpiece (.array [] :: stack) hroom.1), Option.bind_some,
      run_items hpieces hroom.2]
    rfl

/-- The tokens of a field. -/
def fieldTokens (raw : List Char) (tokens : List Token) : List Token :=
  .string raw :: .mark .colon :: tokens

/-- A piece of an object is read to a field. -/
def ParsesField (r : Reader) (piece : List Token) (field : String × Json) : Prop :=
  ∃ raw tokens, piece = fieldTokens raw tokens ∧ readString raw = some field.1 ∧
    Parses r tokens field.2

theorem run_fields {pieces : List (List Token)} {fields : List (String × Json)}
    (h : List.Forall₂ (ParsesField r) pieces fields)
    (hroom : ∀ field ∈ fields, ∀ d ∈ r.depth, stack.length + 1 + field.2.nesting ≤ d)
    (found : List (String × Json)) (key : String) (value : Json) :
    r.run (.after value (.object found key :: stack))
        (pieces.flatMap (Token.mark .comma :: ·) ++ [.mark .closeObject]) =
      some (.after (.object (((key, value) :: fields).foldl
        (fun found field => insertField found field.1 field.2) found)) stack) := by
  induction h generalizing found key value with
  | nil => rfl
  | @cons piece field pieces fields hpiece _ ih =>
    obtain ⟨raw, tokens, rfl, hkey, hvalue⟩ := hpiece
    rw [List.forall_mem_cons] at hroom
    rw [List.flatMap_cons, List.append_assoc, List.cons_append, fieldTokens, List.cons_append,
      List.cons_append]
    simp only [Reader.run_parser_cons, Reader.step, hkey, Option.map_some, Option.bind_some]
    rw [Reader.run_parser_append,
      hvalue (.object (insertField found key value) field.1 :: stack) hroom.1, Option.bind_some,
      ih hroom.2]
    rfl

theorem parses_object {pieces : List (List Token)} {fields sorted : List (String × Json)}
    (h : List.Forall₂ (ParsesField r) pieces fields) (hperm : fields.Perm sorted)
    (hsorted : Sorted sorted) :
    Parses r (.mark .openObject :: commas (.mark .comma) pieces ++ [.mark .closeObject])
      (.object sorted) := by
  intro stack hdepth
  simp only [Json.nesting] at hdepth
  have hopen : r.step (.value stack) (.mark .openObject) = some (.firstKey stack) :=
    if_pos (roomFor_of_le hdepth)
  have hroom : ∀ field ∈ fields, ∀ d ∈ r.depth, stack.length + 1 + field.2.nesting ≤ d := by
    intro field hfield d hd
    have hle := Json.nestingFields_le_iff.mp (Nat.le_refl _) field (hperm.subset hfield)
    have hd := hdepth d hd
    omega
  rw [List.cons_append, Reader.run_parser_cons, hopen, Option.bind_some, ← collect_eq hperm hsorted]
  cases h with
  | nil => rfl
  | @cons piece field pieces fields hpiece hpieces =>
    obtain ⟨raw, tokens, rfl, hkey, hvalue⟩ := hpiece
    rw [List.forall_mem_cons] at hroom
    rw [commas, fieldTokens, List.cons_append, List.cons_append, List.cons_append,
      List.cons_append]
    simp only [Reader.run_parser_cons, Reader.step, hkey, Option.map_some, Option.bind_some]
    rw [List.append_assoc, Reader.run_parser_append, hvalue (.object [] field.1 :: stack) hroom.1,
      Option.bind_some, run_fields hpieces hroom.2]
    rfl

end Parsing

/-! ## Reading a print back -/

/-- The text is read to the value, whatever ends it. -/
def Reads (comments : Comments) (r : Reader) (text : List Char) (value : Json) : Prop :=
  ∃ tokens, Lexes comments text tokens ∧ Parses r tokens value

/-- A number that is read back from its print. -/
def Keeps (r : Reader) (floatText : Rat → List Char) (n : Number) : Prop :=
  isNumber (numberText floatText n) = true ∧ r.number (numberText floatText n) = some n

/-- A number whose print is a number again. -/
def Rereads (r : Reader) (floatText : Rat → List Char) (n : Number) : Prop :=
  isNumber (numberText floatText n) = true ∧ (r.number (numberText floatText n)).isSome = true

/-- The number that is read from the print of another. -/
def reprint (r : Reader) (floatText : Rat → List Char) (n : Number) : Number :=
  (r.number (numberText floatText n)).getD n

mutual

/-- The numbers in a value. -/
def numbers : Json → List Number
  | .number n => [n]
  | .array items => numbersItems items
  | .object fields => numbersFields fields
  | _ => []

def numbersItems : List Json → List Number
  | [] => []
  | item :: items => numbers item ++ numbersItems items

def numbersFields : List (String × Json) → List Number
  | [] => []
  | (_, value) :: fields => numbers value ++ numbersFields fields

end

/-- All objects in a value are in order, each key once. -/
inductive Ordered : Json → Prop where
  | null : Ordered .null
  | bool (b : Bool) : Ordered (.bool b)
  | number (n : Number) : Ordered (.number n)
  | string (s : String) : Ordered (.string s)
  | array {items : List Json} (h : ∀ item ∈ items, Ordered item) : Ordered (.array items)
  | object {fields : List (String × Json)} (sorted : Sorted fields)
      (h : ∀ field ∈ fields, Ordered field.2) : Ordered (.object fields)

section Printed

variable {comments : Comments} {r : Reader} {floatText : Rat → List Char} {value : Json}
  {items : List Json} {fields : List (String × Json)} {text : List Char} {n : Number}

theorem mem_numbersItems : n ∈ numbersItems items ↔ ∃ item ∈ items, n ∈ numbers item := by
  induction items with
  | nil => simp [numbersItems]
  | cons item items ih => simp [numbersItems, ih]

theorem mem_numbersFields : n ∈ numbersFields fields ↔ ∃ field ∈ fields, n ∈ numbers field.2 := by
  induction fields with
  | nil => simp [numbersFields]
  | cons field fields ih =>
    obtain ⟨key, value⟩ := field
    simp [numbersFields, ih]

theorem printItems_eq : printItems floatText items = items.map (print floatText) := by
  induction items with
  | nil => rfl
  | cons item items ih => rw [printItems, ih, List.map_cons]

theorem printFields_eq : printFields floatText fields =
    fields.map fun field => quoted (escape field.1) ++ ':' :: print floatText field.2 := by
  induction fields with
  | nil => rfl
  | cons field fields ih => rw [printFields, ih, List.map_cons]

theorem Keeps.rereads (h : Keeps r floatText n) : Rereads r floatText n := by
  refine ⟨h.1, ?_⟩
  rw [h.2]
  rfl

theorem Keeps.reprint (h : Keeps r floatText n) : reprint r floatText n = n := by
  rw [JsonPrint.reprint, h.2]
  rfl

theorem Rereads.number (h : Rereads r floatText n) :
    r.number (numberText floatText n) = some (reprint r floatText n) := by
  obtain ⟨back, hback⟩ := Option.isSome_iff_exists.mp h.2
  rw [reprint, hback]
  rfl

theorem mapNumbers_eq_self {f : Number → Number} (h : ∀ n ∈ numbers value, f n = n) :
    value.mapNumbers f = value := by
  induction value using Json.induction with
  | number n => rw [Json.mapNumbers, h n List.mem_cons_self]
  | array items ih =>
    rw [Json.mapNumbers, Json.mapItems_eq]
    apply congrArg Json.array
    apply (List.map_congr_left _).trans (List.map_id items)
    exact fun item hitem => ih item hitem fun n hn => h n (mem_numbersItems.mpr ⟨item, hitem, hn⟩)
  | object fields ih =>
    rw [Json.mapNumbers, Json.mapFields_eq]
    apply congrArg Json.object
    apply (List.map_congr_left _).trans (List.map_id fields)
    intro field hfield
    have hvalue := ih field hfield fun n hn => h n (mem_numbersFields.mpr ⟨field, hfield, hn⟩)
    exact congrArg (field.1, ·) hvalue
  | _ => rfl

theorem sorted_map {f : String × Json → Json} (h : Sorted fields) :
    Sorted (fields.map fun field => (field.1, f field)) := by
  rw [Sorted, List.pairwise_map]
  exact h

theorem lexes_commas {texts : List (List Char)} {pieces : List (List Token)}
    (h : List.Forall₂ (Lexes comments) texts pieces) :
    Lexes comments (commas ',' texts) (commas (.mark .comma) pieces) := by
  have hrest : ∀ {texts : List (List Char)} {pieces : List (List Token)},
      List.Forall₂ (Lexes comments) texts pieces →
        ∀ {front : List Char} {tokens : List Token}, Lexes comments front tokens →
          Lexes comments (front ++ texts.flatMap (',' :: ·))
            (tokens ++ pieces.flatMap (Token.mark .comma :: ·)) := by
    intro texts pieces h
    induction h with
    | nil =>
      intro front tokens hfront
      rw [List.flatMap_nil, List.append_nil, List.flatMap_nil, List.append_nil]
      exact hfront
    | cons hpiece _ ih =>
      intro front tokens hfront
      have hcomma := hfront.close (c := ',') rfl (closed_mark rfl)
      have hnext := ih (hcomma.lexes_append hpiece)
      simpa only [List.flatMap_cons, List.append_assoc, List.cons_append, List.nil_append,
        List.singleton_append] using hnext
  cases h with
  | nil => exact closed_nil.lexes
  | cons hpiece hpieces => exact hrest hpieces hpiece

theorem lexes_field {raw : List Char} {tokens : List Token} (hraw : Inside raw)
    (h : Lexes comments text tokens) :
    Lexes comments (quoted raw ++ ':' :: text) (fieldTokens raw tokens) := by
  have hfront : Closed comments (quoted raw ++ [':']) [.string raw, .mark .colon] :=
    (closed_quoted hraw).append (closed_mark rfl)
  have hfield := hfront.lexes_append h
  rwa [List.append_assoc, List.singleton_append] at hfield

theorem Reads.array {texts : List (List Char)} (h : List.Forall₂ (Reads comments r) texts items) :
    Reads comments r ('[' :: commas ',' texts ++ [']']) (.array items) := by
  obtain ⟨pieces, hlex, hparse⟩ : ∃ pieces, List.Forall₂ (Lexes comments) texts pieces ∧
      List.Forall₂ (Parses r) pieces items := by
    induction h with
    | nil => exact ⟨[], .nil, .nil⟩
    | cons hpiece _ ih =>
      obtain ⟨tokens, hlex, hparse⟩ := hpiece
      obtain ⟨pieces, hlexes, hparses⟩ := ih
      exact ⟨tokens :: pieces, .cons hlex hlexes, .cons hparse hparses⟩
  refine ⟨_, ?_, parses_array hparse⟩
  have hopen : Closed comments ['['] [.mark .openArray] := closed_mark rfl
  have hclose := (lexes_commas hlex).close (c := ']') rfl (closed_mark rfl)
  have harray := (hopen.append hclose).lexes
  rwa [List.singleton_append, List.singleton_append, ← List.cons_append, ← List.cons_append]
    at harray

/-- A text is read to a field behind its key. -/
def ReadsField (comments : Comments) (r : Reader) (text : List Char) (field : String × Json) :
    Prop :=
  ∃ tokens, Lexes comments text tokens ∧ ParsesField r tokens field

theorem Reads.object {texts : List (List Char)}
    (h : List.Forall₂ (ReadsField comments r) texts fields) (hsorted : Sorted fields) :
    Reads comments r ('\x7b' :: commas ',' texts ++ ['\x7d']) (.object fields) := by
  obtain ⟨pieces, hlex, hparse⟩ : ∃ pieces, List.Forall₂ (Lexes comments) texts pieces ∧
      List.Forall₂ (ParsesField r) pieces fields := by
    induction h with
    | nil => exact ⟨[], .nil, .nil⟩
    | cons hpiece _ ih =>
      obtain ⟨tokens, hlex, hparse⟩ := hpiece
      obtain ⟨pieces, hlexes, hparses⟩ := ih (List.pairwise_cons.mp hsorted).2
      exact ⟨tokens :: pieces, .cons hlex hlexes, .cons hparse hparses⟩
  refine ⟨_, ?_, parses_object hparse (.refl _) hsorted⟩
  have hopen : Closed comments ['\x7b'] [.mark .openObject] := closed_mark rfl
  have hclose := (lexes_commas hlex).close (c := '\x7d') rfl (closed_mark rfl)
  have hobject := (hopen.append hclose).lexes
  rwa [List.singleton_append, List.singleton_append, ← List.cons_append, ← List.cons_append]
    at hobject

theorem Reads.numeral (hnumber : isNumber text = true) (h : r.number text = some n) :
    Reads comments r text (.number n) := by
  refine ⟨_, lexes_number hnumber, parses_word ?_⟩
  have hne : ∀ word : List Char, (∃ c ∈ word, isNumberChar c = false) → text ≠ word := by
    rintro word ⟨c, hc, hchar⟩ rfl
    rw [isNumber_chars hnumber c hc] at hchar
    cases hchar
  rw [Reader.readWord, if_neg (hne _ ⟨'n', by decide, rfl⟩), if_neg (hne _ ⟨'t', by decide, rfl⟩),
    if_neg (hne _ ⟨'f', by decide, rfl⟩), if_pos hnumber, h]
  rfl

theorem Reads.word {word : List Char} (hword : ∀ c ∈ word, isWordChar c = true) (hne : word ≠ [])
    (h : r.readWord word = some value) : Reads comments r word value :=
  ⟨_, lexes_word hword hne, parses_word h⟩

theorem Reads.null : Reads comments r "null".toList .null := .word (by decide) (by decide) rfl

theorem Reads.bool (b : Bool) :
    Reads comments r (if b then "true" else "false").toList (.bool b) := by
  cases b with
  | false => exact .word (by decide) (by decide) rfl
  | true => exact .word (by decide) (by decide) rfl

/-- A library reads what it prints as what it printed, but for the numbers. -/
theorem reads_print (h : Ordered value) (hnumbers : ∀ n ∈ numbers value, Rereads r floatText n) :
    Reads comments r (print floatText value) (value.mapNumbers (reprint r floatText)) := by
  induction h with
  | null => exact .null
  | bool b => exact .bool b
  | number n =>
    have hn := hnumbers n List.mem_cons_self
    exact .numeral hn.1 hn.number
  | string s =>
    exact ⟨_, (closed_quoted (inside_escaped s)).lexes, parses_string (readString_escape s)⟩
  | @array items _ ih =>
    rw [print, printItems_eq, Json.mapNumbers, Json.mapItems_eq]
    refine .array (List.forall₂_map_left_iff.mpr (List.forall₂_map_right_iff.mpr
      (List.forall₂_same.mpr ?_)))
    exact fun item hitem => ih item hitem fun n hn =>
      hnumbers n (mem_numbersItems.mpr ⟨item, hitem, hn⟩)
  | @object fields hsorted _ ih =>
    rw [print, printFields_eq, Json.mapNumbers, Json.mapFields_eq]
    refine .object (List.forall₂_map_left_iff.mpr (List.forall₂_map_right_iff.mpr
      (List.forall₂_same.mpr ?_))) (sorted_map hsorted)
    intro field hfield
    obtain ⟨tokens, hlex, hparse⟩ := ih field hfield fun n hn =>
      hnumbers n (mem_numbersFields.mpr ⟨field, hfield, hn⟩)
    exact ⟨_, lexes_field (inside_escaped field.1) hlex, _, tokens, rfl,
      readString_escape field.1, hparse⟩

/-- A whole text, with a line end behind it. -/
theorem Reads.read (h : Reads comments r text value) (hdepth : ∀ d ∈ r.depth, value.nesting ≤ d) :
    r.read comments (text ++ ['\n']) = some value := by
  obtain ⟨tokens, hlex, hparse⟩ := h
  have hrun : lex comments (text ++ ['\n']) = some tokens := by
    rw [lex, hlex [] '\n' [] rfl, List.nil_append, Lexer.run_space rfl]
    rfl
  rw [Reader.read, hrun, Option.bind_some, Reader.parse,
    hparse [] (by simpa only [List.length_nil, Nat.zero_add] using hdepth)]
  rfl

end Printed

end Climon.Lib.JsonPrint
