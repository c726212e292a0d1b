import Climon.Cli.Args
import Climon.Lib.JsonText
import Climon.Lib.Utf8
import Climon.Lib.Words

namespace Climon.Cli.SpawnReport

open Climon.Cli.Args (isWhitespace)
open Climon.Lib Climon.Lib.JsonText Climon.Lib.JsonValue

/-!
# The line a spawn reports

The spawn command writes its outcome as one line of JSON, assembled by hand. The uplink runs the
command as a child process and reads the last line of what it wrote.
-/

structure SpawnOutcome where
  id : Option String
  warning : Option String

def escapeChar (c : Char) : List Char :=
  if c = '"' then ['\\', '"']
  else if c = '\\' then ['\\', '\\']
  else if c = '\n' then ['\\', 'n']
  else if c = '\r' then ['\\', 'r']
  else if c = '\t' then ['\\', 't']
  else [c]

def jsonStr (s : String) : List Char := '"' :: s.toList.flatMap escapeChar ++ ['"']

/-- A field that is present. -/
def part (name : List Char) (value : Option String) : List (List Char) :=
  (value.map fun value => '"' :: name ++ '"' :: ':' :: jsonStr value).toList

namespace SpawnOutcome

def toJson (outcome : SpawnOutcome) : List Char :=
  let parts := part "id".toList outcome.id ++ part "warning".toList outcome.warning
  '\x7b' :: [','].intercalate parts ++ ['\x7d']

end SpawnOutcome

/-- What became of the child. -/
inductive Child where
  | notLocated (error : String)
  | notRun (error : String)
  | exited (success : Bool) (stdout stderr : List UInt8)

/-- `str::lines`: a line feed ends a line, and a carriage return before it is dropped. -/
def lines (text : List Char) : List (List Char) :=
  let pieces := text.splitOn '\n'
  pieces.dropLast.map (fun piece => if piece.getLast? = some '\r' then piece.dropLast else piece) ++
    pieces.getLast?.toList.filter fun piece => !piece.isEmpty

/-- The session id, the warning and the error. `fromStr` parses a JSON text. -/
def runSpawn (fromStr : List Char → Option Json) :
    Child → Option String × Option String × Option String
  | .notLocated error => (none, none, some ("cannot locate climon binary: " ++ error))
  | .notRun error => (none, none, some ("failed to run spawn: " ++ error))
  | .exited true stdout _ =>
    let line := Utf8.lossyChars stdout
    let trimmed := (lines (Words.trim isWhitespace line)).getLast?.getD "\x7b\x7d".toList
    match fromStr trimmed with
    | some v => ((v.get? "id").bind Json.asStr, (v.get? "warning").bind Json.asStr, none)
    | none => (none, none, some "invalid spawn outcome")
  | .exited false _ stderr =>
    (none, none, some (String.ofList (Words.trim isWhitespace (Utf8.lossyChars stderr))))

/-! ## Reading strings back -/

/-- The control characters that are escaped. -/
def Covered (c : Char) : Prop := 0x20 ≤ c.toNat ∨ c = '\n' ∨ c = '\r' ∨ c = '\t'

instance (c : Char) : Decidable (Covered c) := inferInstanceAs (Decidable (_ ∨ _))

def Plain (text : String) : Prop := ∀ c ∈ text.toList, Covered c

instance (text : String) : Decidable (Plain text) := inferInstanceAs (Decidable (∀ c ∈ _, _))

section

variable {c : Char} {chars back : List Char} {text : String} {tokens : List Token}

theorem inside_escapeChar : Inside (escapeChar c) := by
  unfold escapeChar
  split_ifs with hquote hescape
  · exact inside_escape
  · exact inside_escape
  · exact inside_escape
  · exact inside_escape
  · exact inside_escape
  · exact inside_plain hquote hescape

theorem readUnits_covered (h : Covered c) :
    readUnits (escapeChar c ++ back) = (readUnits back).map (Utf16.encodeChar c ++ ·) := by
  unfold escapeChar
  split_ifs with hquote hescape hnewline hreturn htab
  · subst hquote
    exact readUnits_escape rfl
  · subst hescape
    exact readUnits_escape rfl
  · subst hnewline
    exact readUnits_escape rfl
  · subst hreturn
    exact readUnits_escape rfl
  · subst htab
    exact readUnits_escape rfl
  · rcases h with hcontrol | h | h | h
    · exact readUnits_plain hescape hcontrol
    · exact absurd h hnewline
    · exact absurd h hreturn
    · exact absurd h htab

theorem readUnits_not_covered (h : ¬ Covered c) : readUnits (escapeChar c ++ back) = none := by
  have hcontrol : c.toNat < 0x20 := Nat.lt_of_not_le fun hle => h (.inl hle)
  have hplain : escapeChar c = [c] := by
    unfold escapeChar
    split_ifs with hquote hescape hnewline hreturn htab
    · exact absurd hcontrol (by subst hquote; decide)
    · exact absurd hcontrol (by subst hescape; decide)
    · exact absurd (.inr (.inl hnewline)) h
    · exact absurd (.inr (.inr (.inl hreturn))) h
    · exact absurd (.inr (.inr (.inr htab))) h
    · rfl
  rw [hplain]
  exact readUnits_control hcontrol

theorem readUnits_escaped (h : ∀ c ∈ chars, Covered c) :
    readUnits (chars.flatMap escapeChar) = some (chars.flatMap Utf16.encodeChar) := by
  induction chars with
  | nil => rfl
  | cons c chars ih =>
    rw [List.forall_mem_cons] at h
    rw [List.flatMap_cons, readUnits_covered h.1, ih h.2]
    rfl

theorem readUnits_not_escaped (h : ¬ ∀ c ∈ chars, Covered c) :
    readUnits (chars.flatMap escapeChar) = none := by
  induction chars with
  | nil => exact absurd (by simp) h
  | cons c chars ih =>
    rw [List.flatMap_cons]
    by_cases hc : Covered c
    · rw [readUnits_covered hc, ih fun hchars => h (List.forall_mem_cons.mpr ⟨hc, hchars⟩)]
      rfl
    · exact readUnits_not_covered hc

theorem readString_escaped (h : Plain text) :
    readString (text.toList.flatMap escapeChar) = some text := by
  rw [readString, readUnits_escaped h]
  exact Utf16.decode_encode text

theorem readString_not_escaped (h : ¬ Plain text) :
    readString (text.toList.flatMap escapeChar) = none := by
  rw [readString, readUnits_not_escaped h]
  rfl

/-! ## Reading the line back -/

/-- The tokens of a field. -/
def partTokens (name : List Char) (value : String) : List Token :=
  [.string name, .mark .colon, .string (value.toList.flatMap escapeChar)]

theorem inside_escaped : Inside (chars.flatMap escapeChar) :=
  inside_flatMap fun _ _ => inside_escapeChar

theorem run_part {name : List Char} (hname : Inside name) :
    Lexer.run .refused ⟨tokens, .plain []⟩ ('"' :: name ++ '"' :: ':' :: jsonStr text ++ back) =
      Lexer.run .refused ⟨tokens ++ partTokens name text, .plain []⟩ back := by
  have htail : '"' :: name ++ '"' :: ':' :: jsonStr text ++ back =
      '"' :: name ++ '"' :: ':' :: ('"' :: text.toList.flatMap escapeChar ++ '"' :: back) := by
    simp [jsonStr]
  rw [htail, Lexer.run_quoted hname, Lexer.run_mark rfl, Lexer.run_quoted inside_escaped, partTokens]
  simp only [emit_nil, List.append_assoc, List.cons_append, List.nil_append]

end

namespace SpawnOutcome

/-- The tokens between the braces. -/
def fieldTokens : SpawnOutcome → List Token
  | ⟨none, none⟩ => []
  | ⟨some id, none⟩ => partTokens "id".toList id
  | ⟨none, some warning⟩ => partTokens "warning".toList warning
  | ⟨some id, some warning⟩ =>
    partTokens "id".toList id ++ .mark .comma :: partTokens "warning".toList warning

/-- The texts can be read back. -/
def Covered (outcome : SpawnOutcome) : Prop :=
  (∀ id ∈ outcome.id, Plain id) ∧ ∀ warning ∈ outcome.warning, Plain warning

/-- A value that says what the outcome says. -/
def Says (outcome : SpawnOutcome) (value : Json) : Prop :=
  value.isObject = true ∧ (value.get? "id").bind Json.asStr = outcome.id ∧
    (value.get? "warning").bind Json.asStr = outcome.warning

variable (outcome : SpawnOutcome)

theorem lex_toJson : lex .refused outcome.toJson =
    some (.mark .openObject :: (outcome.fieldTokens ++ [.mark .closeObject])) := by
  have hinside : ∀ name : List Char, (∀ c ∈ name, c ≠ '"' ∧ c ≠ '\\') → Inside name := by
    intro name hplain
    have hchars : ∀ c ∈ name, Inside [c] := fun c hc => inside_plain (hplain c hc).1 (hplain c hc).2
    exact List.flatMap_singleton' name ▸ inside_flatMap hchars
  have hid : Inside "id".toList := hinside _ (by decide)
  have hwarning : Inside "warning".toList := hinside _ (by decide)
  have hopen (text : List Char) : Lexer.run .refused ⟨[], .plain []⟩ ('\x7b' :: text) =
      Lexer.run .refused ⟨[.mark .openObject], .plain []⟩ text := Lexer.run_mark rfl
  have hclose (tokens : List Token) : Lexer.run .refused ⟨tokens, .plain []⟩ ['\x7d'] =
      some ⟨tokens ++ [.mark .closeObject], .plain []⟩ := Lexer.run_mark rfl
  have hcomma (tokens : List Token) (text : List Char) :
      Lexer.run .refused ⟨tokens, .plain []⟩ ([','] ++ text) =
        Lexer.run .refused ⟨tokens ++ [.mark .comma], .plain []⟩ text := Lexer.run_mark rfl
  obtain ⟨id, warning⟩ := outcome
  rw [lex, toJson]
  cases id with
  | none =>
    cases warning with
    | none => rfl
    | some warning =>
      change (Lexer.run .refused _ ('\x7b' :: ([','].intercalate ['"' :: "warning".toList ++
        '"' :: ':' :: jsonStr warning] ++ ['\x7d']))).bind _ = _
      rw [List.intercalate_singleton, hopen, run_part hwarning, hclose]
      rfl
  | some id =>
    cases warning with
    | none =>
      change (Lexer.run .refused _ ('\x7b' :: ([','].intercalate ['"' :: "id".toList ++
        '"' :: ':' :: jsonStr id] ++ ['\x7d']))).bind _ = _
      rw [List.intercalate_singleton, hopen, run_part hid, hclose]
      rfl
    | some warning =>
      change (Lexer.run .refused _ ('\x7b' :: ([','].intercalate ['"' :: "id".toList ++
        '"' :: ':' :: jsonStr id, '"' :: "warning".toList ++ '"' :: ':' :: jsonStr warning] ++
          ['\x7d']))).bind _ = _
      rw [List.intercalate_cons_cons, List.intercalate_singleton, hopen, List.append_assoc,
        List.append_assoc, run_part hid, hcomma, run_part hwarning, hclose]
      rfl

/-! ## What the fields say -/

section

variable {r : Reader} {name : List Char} {key text : String} {fields : List (String × Json)}
  {tokens : List Token}

theorem run_partTokens (hname : readString name = some key) (htext : Plain text) :
    r.run (.key fields []) (partTokens name text ++ tokens) =
      r.run (.after (.string text) [.object fields key]) tokens := by
  have hkey : r.step (.key fields []) (.string name) = some (.colon fields key []) :=
    (congrArg (Option.map _) hname).trans rfl
  have hcolon : r.step (.colon fields key []) (.mark .colon) =
      some (.value [.object fields key]) := rfl
  have hvalue : r.step (.value [.object fields key])
      (.string (text.toList.flatMap escapeChar)) =
        some (.after (.string text) [.object fields key]) :=
    (congrArg (Option.map _) (readString_escaped htext)).trans rfl
  simp only [partTokens, List.cons_append, List.nil_append, Reader.run_parser_cons, hkey, hcolon,
    hvalue, Option.bind_some]

theorem run_partTokens_none (hname : readString name = some key) (htext : ¬ Plain text) :
    r.run (.key fields []) (partTokens name text ++ tokens) = none := by
  have hkey : r.step (.key fields []) (.string name) = some (.colon fields key []) :=
    (congrArg (Option.map _) hname).trans rfl
  have hcolon : r.step (.colon fields key []) (.mark .colon) =
      some (.value [.object fields key]) := rfl
  have hvalue : r.step (.value [.object fields key])
      (.string (text.toList.flatMap escapeChar)) = none :=
    (congrArg (Option.map _) (readString_not_escaped htext)).trans rfl
  simp only [partTokens, List.cons_append, List.nil_append, Reader.run_parser_cons, hkey, hcolon,
    hvalue, Option.bind_some, Option.bind_none]

end

theorem readString_id : readString "id".toList = some "id" := readString_plain (by decide)

theorem readString_warning : readString "warning".toList = some "warning" :=
  readString_plain (by decide)

section

variable (number : List Char → Option Number)

/-- Between the braces, the first key is read as any other. -/
theorem read_toJson {raw : List Char} {tokens : List Token}
    (h : outcome.fieldTokens = .string raw :: tokens) :
    Reader.read ⟨number, some 127⟩ .refused outcome.toJson =
      (Reader.run ⟨number, some 127⟩ (.key [] []) (outcome.fieldTokens ++ [.mark .closeObject])).bind
        Parser.finish := by
  rw [Reader.read, lex_toJson, h]
  rfl

theorem says_of_covered (h : outcome.Covered) :
    ∃ value, Reader.read ⟨number, some 127⟩ .refused outcome.toJson = some value ∧
      outcome.Says value := by
  obtain ⟨id, warning⟩ := outcome
  obtain ⟨hid, hwarning⟩ := h
  cases id with
  | none =>
    cases warning with
    | none =>
      rw [Reader.read, lex_toJson]
      exact ⟨.object [], rfl, rfl, rfl, rfl⟩
    | some warning =>
      rw [read_toJson _ number rfl, fieldTokens, run_partTokens readString_warning (hwarning _ rfl)]
      exact ⟨.object [("warning", .string warning)], rfl, rfl, rfl, rfl⟩
  | some id =>
    cases warning with
    | none =>
      rw [read_toJson _ number rfl, fieldTokens, run_partTokens readString_id (hid _ rfl)]
      exact ⟨.object [("id", .string id)], rfl, rfl, rfl, rfl⟩
    | some warning =>
      have hcomma (tokens : List Token) :
          Reader.run ⟨number, some 127⟩ (.after (.string id) [.object [] "id"])
            (.mark .comma :: tokens) =
          Reader.run ⟨number, some 127⟩ (.key [("id", .string id)] []) tokens := rfl
      rw [read_toJson _ number rfl, fieldTokens, List.append_assoc,
        run_partTokens readString_id (hid _ rfl), List.cons_append, hcomma,
        run_partTokens readString_warning (hwarning _ rfl)]
      refine ⟨.object (insertField [("id", .string id)] "warning" (.string warning)), rfl, rfl, ?_, ?_⟩
      · rw [Json.get?, lookup_insertField]
        rfl
      · rw [Json.get?, lookup_insertField]
        rfl

theorem read_none (h : ¬ outcome.Covered) :
    Reader.read ⟨number, some 127⟩ .refused outcome.toJson = none := by
  obtain ⟨id, warning⟩ := outcome
  cases id with
  | none =>
    cases warning with
    | none => exact absurd ⟨by simp, by simp⟩ h
    | some warning =>
      have hwarning : ¬ Plain warning := fun hplain => h ⟨by simp, by simpa using hplain⟩
      rw [read_toJson _ number rfl, fieldTokens, run_partTokens_none readString_warning hwarning]
      rfl
  | some id =>
    cases warning with
    | none =>
      have hid : ¬ Plain id := fun hplain => h ⟨by simpa using hplain, by simp⟩
      rw [read_toJson _ number rfl, fieldTokens, run_partTokens_none readString_id hid]
      rfl
    | some warning =>
      rw [read_toJson _ number rfl, fieldTokens, List.append_assoc]
      by_cases hid : Plain id
      · have hwarning : ¬ Plain warning :=
          fun hplain => h ⟨by simpa using hid, by simpa using hplain⟩
        have hcomma (tokens : List Token) :
            Reader.run ⟨number, some 127⟩ (.after (.string id) [.object [] "id"])
              (.mark .comma :: tokens) =
            Reader.run ⟨number, some 127⟩ (.key [("id", .string id)] []) tokens := rfl
        rw [run_partTokens readString_id hid, List.cons_append, hcomma,
          run_partTokens_none readString_warning hwarning]
        rfl
      · rw [run_partTokens_none readString_id hid]
        rfl

end

end SpawnOutcome

/-! ## The last line of the output -/

section

variable {before body : List Char} {c : Char}

/-- Nothing, or whole lines. -/
def WholeLines (before : List Char) : Prop := before = [] ∨ before.getLast? = some '\n'

theorem wholeLines_suffix {rest : List Char} (h : WholeLines before) (hsuffix : rest <:+ before) :
    WholeLines rest := by
  obtain ⟨front, rfl⟩ := hsuffix
  by_cases hrest : rest = []
  · exact .inl hrest
  · rcases h with h | h
    · exact absurd (List.append_eq_nil_iff.mp h).2 hrest
    · rw [List.getLast?_append_of_ne_nil front hrest] at h
      exact .inr h

/-- A line in braces is left whole by trimming. -/
theorem trim_line : Words.trim isWhitespace (before ++ ('\x7b' :: body ++ ['\x7d'] ++ ['\n'])) =
    before.dropWhile isWhitespace ++ ('\x7b' :: body ++ ['\x7d']) := by
  have hstart : Words.trimStart isWhitespace (before ++ ('\x7b' :: body ++ ['\x7d'] ++ ['\n'])) =
      before.dropWhile isWhitespace ++ ('\x7b' :: body ++ ['\x7d'] ++ ['\n']) := by
    rw [Words.trimStart, List.dropWhile_append]
    split
    · next hempty =>
      rw [List.isEmpty_iff.mp hempty]
      rfl
    · rfl
  rw [Words.trim, hstart, ← List.append_assoc, List.rdropWhile_concat_pos _ _ _ (by decide),
    ← List.append_assoc, List.rdropWhile_concat_neg _ _ _ (by decide)]

theorem lastLine (h : WholeLines before) (hbody : '\n' ∉ body) :
    (lines (Words.trim isWhitespace (before ++ ('\x7b' :: body ++ ['\x7d'] ++ ['\n'])))).getLast? =
      some ('\x7b' :: body ++ ['\x7d']) := by
  have hline : '\n' ∉ '\x7b' :: body ++ ['\x7d'] := by
    simp [hbody]
  have hlast : ((before.dropWhile isWhitespace ++ ('\x7b' :: body ++ ['\x7d'])).splitOn
      '\n').getLast? = some ('\x7b' :: body ++ ['\x7d']) := by
    rcases wholeLines_suffix h (List.dropWhile_suffix isWhitespace) with hempty | hfeed
    · rw [hempty, List.nil_append, List.splitOn_eq_singleton hline]
      rfl
    · obtain ⟨front, hfront⟩ := List.getLast?_eq_some_iff.mp hfeed
      rw [hfront, List.append_assoc, List.singleton_append, List.splitOn_append_cons_self,
        List.splitOn_eq_singleton hline, List.getLast?_concat]
  rw [trim_line, lines, hlast]
  exact List.getLast?_concat

/-- The decoded output, for a line printed behind whole lines. -/
theorem decoded_output {earlier : List UInt8} (h : earlier = [] ∨ earlier.getLast? = some 10)
    (text : List Char) : ∃ before, WholeLines before ∧
      Utf8.lossyChars (earlier ++ (text ++ ['\n']).flatMap String.utf8EncodeChar) =
        before ++ (text ++ ['\n']) := by
  have htext := Utf8.lossyChars_encode (text ++ ['\n'])
  rcases h with rfl | h
  · exact ⟨[], .inl rfl, by rw [List.nil_append, htext, List.nil_append]⟩
  · obtain ⟨front, rfl⟩ := List.getLast?_eq_some_iff.mp h
    refine ⟨Utf8.lossyChars front ++ ['\n'], .inr List.getLast?_concat, ?_⟩
    rw [List.append_assoc, List.singleton_append, Utf8.lossyChars_append (by decide), htext,
      List.append_assoc]
    rfl

end

namespace SpawnOutcome

/-- One line of JSON that says what the outcome says, and that the uplink reads as such behind
whatever lines the child wrote before. -/
structure Readable (fromStr : List Char → Option Json) (outcome : SpawnOutcome) : Prop where
  line : ∀ c ∈ outcome.toJson, isLineEnd c = false
  json : ∃ value, fromStr outcome.toJson = some value ∧ outcome.Says value
  uplink : ∀ earlier stderr, earlier = [] ∨ earlier.getLast? = some 10 →
    runSpawn fromStr (.exited true
      (earlier ++ (outcome.toJson ++ ['\n']).flatMap String.utf8EncodeChar) stderr) =
        (outcome.id, outcome.warning, none)

theorem escapeChar_line {c : Char} : ∀ d ∈ escapeChar c, isLineEnd d = false := by
  unfold escapeChar
  split_ifs with hquote hescape hnewline hreturn htab
  · decide
  · decide
  · decide
  · decide
  · decide
  · intro d hd
    rw [List.mem_singleton.mp hd, isLineEnd, Bool.or_eq_false_iff]
    exact ⟨beq_false_of_ne hnewline, beq_false_of_ne hreturn⟩

theorem part_line {name : List Char} (hname : ∀ c ∈ name, isLineEnd c = false) (value : String) :
    ∀ c ∈ '"' :: name ++ '"' :: ':' :: jsonStr value, isLineEnd c = false := by
  have hvalue : ∀ c ∈ value.toList.flatMap escapeChar, isLineEnd c = false := by
    intro c hc
    obtain ⟨d, -, hd⟩ := List.mem_flatMap.mp hc
    exact escapeChar_line c hd
  simp only [jsonStr, List.forall_mem_append, List.forall_mem_cons]
  exact ⟨⟨by decide, hname⟩, by decide, by decide, ⟨by decide, hvalue⟩, by decide, by simp⟩

variable (outcome : SpawnOutcome)

/-- The line is a text in braces. -/
theorem toJson_eq : ∃ body, outcome.toJson = '\x7b' :: body ++ ['\x7d'] ∧
    ∀ c ∈ body, isLineEnd c = false := by
  obtain ⟨id, warning⟩ := outcome
  refine ⟨_, rfl, ?_⟩
  have hid := @part_line "id".toList (by decide)
  have hwarning := @part_line "warning".toList (by decide)
  cases id with
  | none =>
    cases warning with
    | none => exact fun c hc => absurd hc List.not_mem_nil
    | some warning =>
      change ∀ c ∈ [','].intercalate [_], _
      rw [List.intercalate_singleton]
      exact hwarning warning
  | some id =>
    cases warning with
    | none =>
      change ∀ c ∈ [','].intercalate [_], _
      rw [List.intercalate_singleton]
      exact hid id
    | some warning =>
      change ∀ c ∈ [','].intercalate ['"' :: "id".toList ++ '"' :: ':' :: jsonStr id,
        '"' :: "warning".toList ++ '"' :: ':' :: jsonStr warning], _
      rw [List.intercalate_cons_cons, List.intercalate_singleton, List.forall_mem_append,
        List.forall_mem_append]
      exact ⟨⟨hid id, by decide⟩, hwarning warning⟩

theorem toJson_line : ∀ c ∈ outcome.toJson, isLineEnd c = false := by
  obtain ⟨body, htext, hbody⟩ := outcome.toJson_eq
  rw [htext, List.forall_mem_append, List.forall_mem_cons]
  exact ⟨⟨by decide, hbody⟩, by decide⟩

/-- The uplink parses the line that was printed last. -/
theorem runSpawn_toJson (fromStr : List Char → Option Json) {earlier : List UInt8}
    (stderr : List UInt8) (h : earlier = [] ∨ earlier.getLast? = some 10) :
    runSpawn fromStr (.exited true
      (earlier ++ (outcome.toJson ++ ['\n']).flatMap String.utf8EncodeChar) stderr) =
      match fromStr outcome.toJson with
      | some v => ((v.get? "id").bind Json.asStr, (v.get? "warning").bind Json.asStr, none)
      | none => (none, none, some "invalid spawn outcome") := by
  obtain ⟨body, htext, hbody⟩ := outcome.toJson_eq
  obtain ⟨before, hbefore, hdecoded⟩ := decoded_output h outcome.toJson
  have hfeed : '\n' ∉ body := fun hmem => absurd (hbody _ hmem) (by decide)
  rw [htext] at hdecoded ⊢
  simp only [runSpawn, hdecoded, lastLine hbefore hfeed, Option.getD_some]

end SpawnOutcome

/-- With a parser for JSON that nests 127 deep: an outcome is reported readably exactly when every
control character in its texts is a line feed, a carriage return or a tab. -/
theorem spawn_report_iff (fromStr : List Char → Option Json) (number : List Char → Option Number)
    (hserde : ∀ text, fromStr text = Reader.read ⟨number, some 127⟩ .refused text)
    (outcome : SpawnOutcome) : outcome.Readable fromStr ↔ outcome.Covered := by
  constructor
  · intro h
    by_contra hcovered
    obtain ⟨value, hvalue, -⟩ := h.json
    rw [hserde, outcome.read_none number hcovered] at hvalue
    cases hvalue
  · intro hcovered
    obtain ⟨value, hvalue, htold⟩ := outcome.says_of_covered number hcovered
    rw [← hserde] at hvalue
    refine ⟨outcome.toJson_line, ⟨value, hvalue, htold⟩, fun earlier stderr hearlier => ?_⟩
    rw [outcome.runSpawn_toJson fromStr stderr hearlier, hvalue]
    simp only [htold.2.1, htold.2.2]

theorem quoted_report_readable :
    (SpawnOutcome.mk none (some "say \"no\"\n")).Readable
      (Reader.read ⟨fun _ => none, some 127⟩ .refused) :=
  (spawn_report_iff _ (fun _ => none) (fun _ => rfl) _).mpr ⟨by simp, by
    intro warning hwarning
    rw [← Option.mem_some_iff.mp hwarning]
    decide⟩

/-- An escape character, as in colored error text, is written as it is. -/
theorem escape_report_not_readable :
    ¬ ∀ (fromStr : List Char → Option Json) (number : List Char → Option Number),
      (∀ text, fromStr text = Reader.read ⟨number, some 127⟩ .refused text) →
        ∀ outcome : SpawnOutcome, outcome.Readable fromStr := by
  intro h
  obtain ⟨value, hvalue, -⟩ :=
    (h (Reader.read ⟨fun _ => none, some 127⟩ .refused) (fun _ => none) (fun _ => rfl)
      ⟨none, some "\x1b"⟩).json
  have hnone := SpawnOutcome.read_none ⟨none, some "\x1b"⟩ (fun _ => none) fun hcovered =>
    absurd (hcovered.2 "\x1b" rfl) (by decide)
  rw [hnone] at hvalue
  cases hvalue

end Climon.Cli.SpawnReport
