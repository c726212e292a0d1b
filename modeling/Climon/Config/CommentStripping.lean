import Climon.Lib.JsonText
import Mathlib.Data.List.Infix

namespace Climon.Config.CommentStripping

open Climon.Lib.JsonText Climon.Lib.JsonValue

/-!
# Reading a config file

Comments are cut out of the text, and what is left is parsed as JSON.
-/

inductive Place where
  | outside
  | inString
  | lineComment
  | blockComment
  deriving DecidableEq, Repr

/-- From a place in the text on. -/
def stripFrom (path : String) : Place → List Char → Except String (List Char)
  | .inString, '\\' :: next :: rest =>
    (stripFrom path .inString rest).map fun result => '\\' :: next :: result
  | .inString, '"' :: rest => (stripFrom path .outside rest).map ('"' :: ·)
  | .inString, ch :: rest => (stripFrom path .inString rest).map (ch :: ·)
  | .outside, '"' :: rest => (stripFrom path .inString rest).map ('"' :: ·)
  | .outside, '/' :: '/' :: rest => stripFrom path .lineComment rest
  | .outside, '/' :: '*' :: rest => stripFrom path .blockComment rest
  | .outside, ch :: rest => (stripFrom path .outside rest).map (ch :: ·)
  | .lineComment, ch :: rest =>
    if isLineEnd ch then (stripFrom path .outside rest).map (ch :: ·)
    else stripFrom path .lineComment rest
  | .blockComment, '*' :: '/' :: rest => stripFrom path .outside rest
  | .blockComment, _ :: rest => stripFrom path .blockComment rest
  | .blockComment, [] => .error ("Unterminated block comment in " ++ path)
  | _, [] => .ok []

def stripComments (raw : List Char) (path : String) : Except String (List Char) :=
  stripFrom path .outside raw

/-- An error names the file. -/
def namePath (path msg : String) : String :=
  if "Invalid JSONC in".toList <:+: msg.toList then msg
  else "Invalid JSONC in " ++ path ++ ": " ++ msg

/-- `fromStr` parses a JSON text. -/
def parseJsoncConfig (fromStr : List Char → Except String Json) (raw : List Char) (path : String) :
    Except String Json :=
  let result := do
    let stripped ← stripComments raw path
    let parsed ← fromStr stripped
    if !parsed.isObject then throw ("Invalid JSONC in " ++ path ++ ": root must be an object")
    return parsed
  result.mapError (namePath path)

/-! ## Stripping, and reading past comments -/

/-- Where the parser of the stripped text is. -/
def Place.stripped : Place → List Char → Mode
  | .inString, word => .string word
  | _, word => .plain word

/-- Where a reader that takes comments as nothing is. -/
def Place.commented : Place → List Char → Mode
  | .outside, word => .plain word
  | .inString, word => .string word
  | .lineComment, word => .line word
  | .blockComment, word => .block word

section

variable {path : String} {tokens : List Token} {word text : List Char}

theorem bind_toOption_map {α : Type} {result : Except String (List Char)} {f : List Char → List Char}
    {g : List Char → Option α} :
    (result.map f).toOption.bind g = result.toOption.bind fun s => g (f s) := by
  cases result <;> rfl

/-- Behind a star, only a slash tells the two places in a block comment apart. -/
theorem run_star (h : text.head? ≠ some '/') :
    (Lexer.run .nothing ⟨tokens, .star word⟩ text).bind Lexer.finish =
      (Lexer.run .nothing ⟨tokens, .block word⟩ text).bind Lexer.finish := by
  cases text with
  | nil => rfl
  | cons c text =>
    have hslash : c ≠ '/' := fun hc => h (congrArg some hc)
    simp only [Lexer.run_cons, Lexer.step, if_neg hslash]

/-- Reading what is left of a text, comments are nothing. -/
theorem lex_stripFrom (place : Place) (text : List Char) : ∀ tokens word,
    ((stripFrom path place text).toOption.bind fun s =>
        (Lexer.run .refused ⟨tokens, place.stripped word⟩ s).bind Lexer.finish) =
      (Lexer.run .nothing ⟨tokens, place.commented word⟩ text).bind Lexer.finish := by
  fun_induction stripFrom path place text with
  | case1 next rest ih =>
    intro tokens word
    rw [bind_toOption_map]
    exact ih tokens (word ++ ['\\'] ++ [next])
  | case2 rest ih =>
    intro tokens word
    rw [bind_toOption_map]
    exact ih (tokens ++ [.string word]) []
  | case3 ch rest hescape hquote ih =>
    intro tokens word
    rw [bind_toOption_map]
    by_cases hch : ch = '\\'
    · subst hch
      cases rest with
      | nil => rfl
      | cons next rest => exact (hescape next rest rfl rfl).elim
    · have hstep (comments : Comments) : Lexer.step comments ⟨tokens, .string word⟩ ch =
          some ⟨tokens, .string (word ++ [ch])⟩ := by
        simp only [Lexer.step, if_neg hch, if_neg hquote]
      simp only [Place.stripped, Place.commented, Lexer.run_cons, hstep, Option.bind_some]
      exact ih tokens (word ++ [ch])
  | case4 rest ih =>
    intro tokens word
    rw [bind_toOption_map]
    exact ih (emit tokens word) []
  | case5 rest ih => exact ih
  | case6 rest ih => exact ih
  | case7 ch rest hquote hline hblock ih =>
    intro tokens word
    rw [bind_toOption_map]
    by_cases hslash : ch = '/'
    · subst hslash
      have hrefused (s : List Char) :
          Lexer.run .refused ⟨tokens, .plain word⟩ ('/' :: s) = none := rfl
      have hnothing : Lexer.run .nothing ⟨tokens, .plain word⟩ ('/' :: rest) =
          Lexer.run .nothing ⟨tokens, .slash word⟩ rest := rfl
      simp only [Place.stripped, Place.commented, hrefused, hnothing, Option.bind_none,
        Option.bind_fun_none]
      cases rest with
      | nil => rfl
      | cons next rest =>
        have hnext : next ≠ '/' ∧ next ≠ '*' :=
          ⟨fun h => hline rest rfl (h ▸ rfl), fun h => hblock rest rfl (h ▸ rfl)⟩
        simp only [Lexer.run_cons, Lexer.step, if_neg hnext.1, if_neg hnext.2, Option.bind_none]
    · obtain ⟨tokens', word', hstep⟩ := @Lexer.plainStep_plain tokens word ch hquote hslash
      simp only [Place.stripped, Place.commented, Lexer.run_plain, hstep, Option.bind_some]
      exact ih tokens' word'
  | case8 ch rest hend ih =>
    intro tokens word
    have hspace : isSpace ch = true := by
      rw [isLineEnd, Bool.or_eq_true] at hend
      simp only [isSpace, Bool.or_eq_true]
      exact hend.imp_left .inr
    rw [bind_toOption_map]
    simp only [Place.stripped, Place.commented, Lexer.run_space hspace, Lexer.run_cons, Lexer.step,
      if_pos hend, Option.bind_some]
    exact ih (emit tokens word) []
  | case9 ch rest hend ih =>
    intro tokens word
    have hstep : Lexer.step .nothing ⟨tokens, .line word⟩ ch = some ⟨tokens, .line word⟩ := if_neg hend
    simp only [Place.commented, Lexer.run_cons, hstep, Option.bind_some]
    exact ih tokens word
  | case10 rest ih => exact ih
  | case11 ch rest hclose ih =>
    intro tokens word
    by_cases hstar : ch = '*'
    · have hhead : rest.head? ≠ some '/' := by
        intro hhead
        cases rest with
        | nil => cases hhead
        | cons next rest => exact hclose rest hstar (by rw [Option.some.inj hhead])
      have hstep : Lexer.step .nothing ⟨tokens, .block word⟩ ch = some ⟨tokens, .star word⟩ :=
        if_pos hstar
      simp only [Place.commented, Lexer.run_cons, hstep, Option.bind_some]
      rw [run_star hhead]
      exact ih tokens word
    · have hstep : Lexer.step .nothing ⟨tokens, .block word⟩ ch = some ⟨tokens, .block word⟩ :=
        if_neg hstar
      simp only [Place.commented, Lexer.run_cons, hstep, Option.bind_some]
      exact ih tokens word
  | case12 =>
    intro tokens word
    rfl
  | case13 place hplace =>
    intro tokens word
    cases place with
    | blockComment => exact (hplace rfl).elim
    | _ => rfl

theorem lex_stripComments {raw : List Char} :
    (stripComments raw path).toOption.bind (lex .refused) = lex .nothing raw :=
  lex_stripFrom .outside raw [] []

end

/-! ## The values of a config file -/

section

variable {r : Reader} {fromStr : List Char → Except String Json} {raw : List Char} {path : String}
  {value : Json}

/-- A config file is read with its comments as nothing. -/
theorem parseJsoncConfig_iff (hjson : ∀ text, (fromStr text).toOption = r.read .refused text) :
    parseJsoncConfig fromStr raw path = .ok value ↔
      r.read .nothing raw = some value ∧ value.isObject = true := by
  have hread : r.read .nothing raw = (stripComments raw path).toOption.bind
      fun s => (fromStr s).toOption := by
    simp only [hjson, Reader.read, ← @lex_stripComments path raw, Option.bind_assoc]
  rw [hread, parseJsoncConfig]
  cases stripComments raw path with
  | error e => simp [bind, Except.bind, Except.mapError, Except.toOption]
  | ok stripped =>
    cases hparsed : fromStr stripped with
    | error e => simp [hparsed, bind, Except.bind, Except.mapError, Except.toOption]
    | ok parsed =>
      cases hobject : parsed.isObject with
      | true =>
        simp only [bind, Except.bind, hparsed, hobject, pure, Except.pure, Except.mapError,
          Except.toOption, Option.bind_some, Bool.not_true, Bool.false_eq_true, if_false,
          Except.ok.injEq, Option.some.injEq]
        exact ⟨fun h => ⟨h, h ▸ hobject⟩, fun h => h.1⟩
      | false =>
        simp only [bind, Except.bind, hparsed, hobject, throw, throwThe, MonadExceptOf.throw,
          Except.mapError, Except.toOption, Option.bind_some, Bool.not_false, if_true,
          Option.some.injEq]
        constructor
        · intro h
          cases h
        · rintro ⟨rfl, h⟩
          rw [hobject] at h
          cases h

end

/-- A config file is read as JSON with comments as white space, unless it is a JSON object only
when its comments count as nothing and words on both sides of a block comment become one. -/
theorem comment_stripping_iff (r : Reader) (fromStr : List Char → Except String Json)
    (hjson : ∀ text, (fromStr text).toOption = r.read .refused text) (raw : List Char)
    (path : String) :
    (∀ value, parseJsoncConfig fromStr raw path = .ok value ↔
        r.read .space raw = some value ∧ value.isObject = true) ↔
      ¬ (lex .space raw ≠ lex .nothing raw ∧
        ∃ value, value.isObject = true ∧ r.read .nothing raw = some value) := by
  rw [← Reader.read_space_iff]
  constructor
  · intro h value hobject
    have hvalue := (parseJsoncConfig_iff hjson).symm.trans (h value)
    rwa [and_iff_left hobject, and_iff_left hobject] at hvalue
  · intro h value
    rw [parseJsoncConfig_iff hjson]
    exact and_congr_left fun hobject => h value hobject

section

/-- A parser for JSON, with whole numbers only. -/
def wholeNumbers : Reader where
  number text := some (.posInt (UInt64.ofNat (Nat.ofDigitChars 10 text 0)))
  depth := none

def parseWhole (text : List Char) : Except String Json :=
  match wholeNumbers.read .refused text with
  | some value => .ok value
  | none => .error "expected value"

theorem parseWhole_toOption (text : List Char) :
    (parseWhole text).toOption = wholeNumbers.read .refused text := by
  rw [parseWhole]
  cases wholeNumbers.read .refused text <;> rfl

theorem commented_object_read :
    parseJsoncConfig parseWhole "\x7b/* none */\x7d".toList "config.jsonc" = .ok (.object []) ↔
      wholeNumbers.read .space "\x7b/* none */\x7d".toList = some (.object []) ∧
        (Json.object []).isObject = true :=
  (comment_stripping_iff wholeNumbers parseWhole parseWhole_toOption _ _).mpr
    (fun h => h.1 (by decide)) (.object [])

/-- Two digits with a block comment between them are read as one number. -/
theorem digits_joined :
    ¬ ∀ (r : Reader) (fromStr : List Char → Except String Json),
      (∀ text, (fromStr text).toOption = r.read .refused text) →
        ∀ (raw : List Char) (path : String) (value : Json),
          parseJsoncConfig fromStr raw path = .ok value ↔
            r.read .space raw = some value ∧ value.isObject = true := by
  intro h
  have hlex : lex .nothing "\x7b\"a\":1/**/2\x7d".toList = some [.mark .openObject, .string ['a'],
      .mark .colon, .word ['1', '2'], .mark .closeObject] := by decide
  have hkey : readString ['a'] = some "a" := @readString_plain "a" (by decide)
  have hparse : parseJsoncConfig parseWhole "\x7b\"a\":1/**/2\x7d".toList "config.jsonc" =
      .ok (.object [("a", .number (.posInt 12))]) := by
    rw [parseJsoncConfig_iff parseWhole_toOption, Reader.read, hlex]
    refine ⟨?_, rfl⟩
    have hopen : wholeNumbers.step (.value []) (.mark .openObject) = some (.firstKey []) := rfl
    have hname : wholeNumbers.step (.firstKey []) (.string ['a']) = some (.colon [] "a" []) := by
      simp only [Reader.step, hkey, Option.map_some]
    have hnumber : wholeNumbers.readWord ['1', '2'] = some (.number (.posInt 12)) := rfl
    have hvalue : wholeNumbers.step (.value [.object [] "a"]) (.word ['1', '2']) =
        some (.after (.number (.posInt 12)) [.object [] "a"]) := by
      simp only [Reader.step, Reader.startValue, hnumber, Option.map_some]
    simp only [Option.bind_some, Reader.parse, Reader.run_parser_cons, hopen, hname, hvalue,
      show wholeNumbers.step (.colon [] "a" []) (.mark .colon) =
        some (.value [.object [] "a"]) from rfl]
    rfl
  have hread := ((h wholeNumbers parseWhole parseWhole_toOption _ _ _).mp hparse).1
  exact absurd (Reader.lex_of_read hread) (by decide)

end

end Climon.Config.CommentStripping
