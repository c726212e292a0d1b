import Climon.Config.CommentStripping
import Climon.Config.Settings
import Climon.Lib.JsonPrint
import Mathlib.Data.List.Sort

namespace Climon.Config.Rendering

open Climon.Config.CommentStripping (parseJsoncConfig parseJsoncConfig_iff)
open Climon.Config.Settings Climon.Lib.JsonPrint Climon.Lib.JsonText Climon.Lib.JsonValue

/-!
# Writing a config file

An object is laid out one setting a line, those of the registry first and under their purpose.
-/

/-! ## What the registry says of a path -/

section Registry

variable (settings : List ConfigSetting)

def settingPurpose (path : String) : Option String :=
  (settings.find? fun setting => setting.path == path).map (·.purpose)

def settingHas (path : String) : Bool := settings.any fun setting => setting.path == path

mutual

def hasKnownDescendant (pre : String) : Json → Bool
  | .object fields => fieldsKnown pre fields
  | _ => false

def fieldsKnown (pre : String) : List (String × Json) → Bool
  | [] => false
  | (key, value) :: fields =>
    settingHas settings (pre ++ "." ++ key) || hasKnownDescendant (pre ++ "." ++ key) value ||
      fieldsKnown pre fields

end

/-- The place of a path in the registry, or of the first path below it. -/
def findEarliestRegistryIndex (path : String) : Nat :=
  let registryOrder := settings.map (·.path)
  if registryOrder.contains path then registryOrder.idxOf path
  else registryOrder.findIdx fun p => (path ++ ".").toList <+: p.toList

end Registry

def joinPath (pre key : String) : String := if pre = "" then key else pre ++ "." ++ key

/-! ## Lines -/

def spaces (indent : Nat) : List Char := List.replicate (2 * indent) ' '

def joinLines (lines : List (List Char)) : List Char := ['\n'].intercalate lines

/-- A field and the text of its value. -/
abbrev Entry := (String × Json) × List Char

section Rendering

variable (settings : List ConfigSetting) (floatText : Rat → List Char)

def isKnown (pre : String) (field : String × Json) : Bool :=
  settingHas settings (joinPath pre field.1) ||
    hasKnownDescendant settings (joinPath pre field.1) field.2

def sortEntries (pre : String) (entries : List Entry) : List Entry :=
  let index := fun entry : Entry => findEarliestRegistryIndex settings (joinPath pre entry.1.1)
  (entries.filter fun entry => isKnown settings pre entry.1).mergeSort
      (fun e f => index e ≤ index f) ++
    (entries.filter fun entry => !isKnown settings pre entry.1).mergeSort
      (fun e f => e.1.1 ≤ f.1.1)

def commentLines (pre : String) (indent : Nat) (key : String) : List (List Char) :=
  match settingPurpose settings (joinPath pre key) with
  | some purpose => [spaces indent ++ "// ".toList ++ purpose.toList]
  | none => []

/-- The key is written as it is. -/
def entryLine (indent : Nat) (entry : Entry) (comma : List Char) : List Char :=
  spaces indent ++ '"' :: entry.1.1.toList ++ "\": ".toList ++ entry.2 ++ comma

def bodyLines (pre : String) (indent : Nat) : List Entry → List (List Char)
  | [] => []
  | [entry] => commentLines settings pre indent entry.1.1 ++ [entryLine indent entry []]
  | entry :: entries =>
    commentLines settings pre indent entry.1.1 ++ entryLine indent entry [','] ::
      bodyLines pre indent entries

def objectText (pre : String) (indent : Nat) (entries : List Entry) : List Char :=
  joinLines (['\x7b'] :: bodyLines settings pre (indent + 1) (sortEntries settings pre entries) ++
    [spaces indent ++ ['\x7d']])

/-- A whole double is written as an integer, through a cast that saturates. -/
def renderLeafValue : Json → List Char
  | .number (.float q) =>
    if isInt q ∧ -2 ^ 63 ≤ q ∧ q ≤ 2 ^ 63 then (saturateI64 q.num).repr.toList
    else if isInt q ∧ 0 ≤ q ∧ q ≤ 2 ^ 64 then (min q.num.toNat (2 ^ 64 - 1)).repr.toList
    else floatText q
  | value => print floatText value

mutual

/-- The lines of a nested object keep their breaks. -/
def valueText (path : String) (indent : Nat) : Json → List Char
  | .object fields =>
    if fields.isEmpty then ['\x7b', '\x7d']
    else objectText settings path indent (fieldEntries path (indent + 1) fields)
  | value => renderLeafValue floatText value

def fieldEntries (pre : String) (indent : Nat) : List (String × Json) → List Entry
  | [] => []
  | (key, value) :: fields =>
    ((key, value), valueText (joinPath pre key) indent value) :: fieldEntries pre indent fields

end

end Rendering

/-- What is not an object is written as an empty one. -/
def renderJsoncConfig (floatText : Rat → List Char) (config : Json) : List Char :=
  let obj := match config with
    | .object fields => fields
    | _ => []
  objectText configSettings "" 0 (fieldEntries configSettings floatText "" 1 obj) ++ ['\n']

/-! ## What is read from the text -/

mutual

/-- The keys of a value and of the objects in it, but not of those in arrays. -/
def objectKeys : Json → List String
  | .object fields => fieldKeys fields
  | _ => []

def fieldKeys : List (String × Json) → List String
  | [] => []
  | (key, value) :: fields => key :: objectKeys value ++ fieldKeys fields

end

/-- A key that needs no escape. -/
def Plain (key : String) : Prop := ∀ c ∈ key.toList, c ≠ '"' ∧ c ≠ '\\' ∧ 0x20 ≤ c.toNat

/-- The number that the text of a setting holds. -/
def leafNumber : Number → Number
  | .float q =>
    if isInt q ∧ -2 ^ 63 ≤ q ∧ q ≤ 2 ^ 63 then ofI64 (saturateI64 q.num)
    else if isInt q ∧ 0 ≤ q ∧ q ≤ 2 ^ 64 then .posInt (UInt64.ofNat (min q.num.toNat (2 ^ 64 - 1)))
    else .float q
  | n => n

mutual

def reread : Json → Json
  | .object fields => .object (rereadFields fields)
  | .number n => .number (leafNumber n)
  | value => value

def rereadFields : List (String × Json) → List (String × Json)
  | [] => []
  | (key, value) :: fields => (key, reread value) :: rereadFields fields

end

/-- What a value is read back as. -/
def loaded (r : Reader) (floatText : Rat → List Char) (value : Json) : Json :=
  (reread value).mapNumbers (reprint r floatText)

/-- Integers are read from their digits. -/
structure KeepsIntegers (r : Reader) : Prop where
  posInt : ∀ n : UInt64, r.number n.toNat.repr.toList = some (.posInt n)
  negInt : ∀ n : Int64, n < 0 → r.number n.toInt.repr.toList = some (.negInt n)

/-- A text that stays on its line and closes no block comment. -/
def OneLine (text : String) : Prop := ∀ c ∈ text.toList, c ≠ '\n' ∧ c ≠ '\r' ∧ c ≠ '*'

theorem oneLine_append {text other : String} :
    OneLine (text ++ other) ↔ OneLine text ∧ OneLine other := by
  unfold OneLine
  rw [String.toList_append, List.forall_mem_append]

/-- For literals, whose characters are compared as numbers. -/
theorem oneLine_literal {text : String} {chars : List Char} (htext : text = String.ofList chars)
    (h : (chars.all fun c => c.toNat != 10 && c.toNat != 13 && c.toNat != 42) = true) :
    OneLine text := by
  subst htext
  intro c hc
  rw [String.toList_ofList] at hc
  have hchar := List.all_eq_true.mp h c hc
  refine ⟨?_, ?_, ?_⟩
  · rintro rfl
    cases hchar
  · rintro rfl
    cases hchar
  · rintro rfl
    cases hchar

def OneLines (settings : List ConfigSetting) : Prop :=
  ∀ setting ∈ settings, OneLine setting.purpose

theorem oneLines_configSettings : OneLines configSettings := by
  unfold OneLines configSettings coreConfigSettings featureConfigSettings featureFlags
    installConfigSettings
  simp only [List.map_cons, List.map_nil, List.cons_append, List.nil_append, FeatureStatus.name,
    List.forall_mem_cons, oneLine_append, List.not_mem_nil, false_implies, implies_true, and_true]
  and_intros
  all_goals exact oneLine_literal rfl rfl

section Layout

variable {settings : List ConfigSetting} {floatText : Rat → List Char} {pre path key : String}
  {indent : Nat} {entries : List Entry} {fields : List (String × Json)}

theorem joinLines_concat (lines : List (List Char)) (last : List Char) :
    joinLines (lines ++ [last]) = lines.flatMap (· ++ ['\n']) ++ last := by
  unfold joinLines
  induction lines with
  | nil => simp [List.intercalate]
  | cons line lines ih =>
    obtain ⟨next, rest, hrest⟩ := List.exists_cons_of_ne_nil
      (List.append_ne_nil_of_right_ne_nil lines (List.cons_ne_nil last []))
    rw [hrest] at ih
    rw [List.cons_append, hrest, List.flatMap_cons, List.append_assoc, ← ih]
    simp [List.intercalate, List.intersperse]

theorem sortEntries_perm : (sortEntries settings pre entries).Perm entries := by
  unfold sortEntries
  refine ((List.mergeSort_perm _ _).append (List.mergeSort_perm _ _)).trans ?_
  exact List.filter_append_perm _ entries

theorem fieldEntries_eq : fieldEntries settings floatText pre indent fields =
    fields.map fun field =>
      (field, valueText settings floatText (joinPath pre field.1) indent field.2) := by
  induction fields with
  | nil => rfl
  | cons field fields ih => rw [fieldEntries, ih, List.map_cons]

theorem rereadFields_eq : rereadFields fields = fields.map fun field => (field.1, reread field.2) := by
  induction fields with
  | nil => rfl
  | cons field fields ih => rw [rereadFields, ih, List.map_cons]

theorem mem_fieldKeys {name : String} : name ∈ fieldKeys fields ↔
    ∃ field ∈ fields, name = field.1 ∨ name ∈ objectKeys field.2 := by
  induction fields with
  | nil => simp [fieldKeys]
  | cons field fields ih =>
    obtain ⟨key, value⟩ := field
    simp [fieldKeys, ih, or_assoc]

/-- The lines between the braces, each with its end. -/
def bodyText (settings : List ConfigSetting) (pre : String) (indent : Nat) (entries : List Entry) :
    List Char :=
  (bodyLines settings pre indent entries).flatMap (· ++ ['\n'])

theorem objectText_eq : objectText settings pre indent entries =
    '\x7b' :: '\n' :: bodyText settings pre (indent + 1) (sortEntries settings pre entries) ++
      (spaces indent ++ ['\x7d']) := by
  rw [objectText, joinLines_concat, List.flatMap_cons]
  rfl

end Layout

/-! ## Reading the lines -/

section Reading

variable {settings : List ConfigSetting} {floatText : Rat → List Char} {r : Reader}
  {pre path key : String} {indent : Nat} {entry : Entry} {entries : List Entry}
  {fields : List (String × Json)} {value : Json} {comments : Comments}

theorem closed_indent : Closed comments (spaces indent) [] := by
  apply closed_spaces
  intro c hc
  rw [List.eq_of_mem_replicate hc]
  rfl

theorem run_line {seen : List Token} {text back : List Char} (h : ∀ c ∈ text, isLineEnd c = false) :
    Lexer.run comments ⟨seen, .line []⟩ (text ++ back) =
      Lexer.run comments ⟨seen, .line []⟩ back := by
  induction text with
  | nil => rfl
  | cons c text ih =>
    rw [List.forall_mem_cons] at h
    have hstep : Lexer.step comments ⟨seen, .line []⟩ c = some ⟨seen, .line []⟩ := by
      simp only [Lexer.step, h.1, Bool.false_eq_true, if_false]
    rw [List.cons_append, Lexer.run_cons, hstep, Option.bind_some, ih h.2]

theorem purpose_oneLine (hsettings : OneLines settings) {purpose : String}
    (h : settingPurpose settings path = some purpose) :
    ∀ c ∈ purpose.toList, c ≠ '\n' ∧ c ≠ '\r' ∧ c ≠ '*' := by
  obtain ⟨setting, hfind, rfl⟩ := Option.map_eq_some_iff.mp h
  exact hsettings setting (List.mem_of_find?_eq_some hfind)

/-- A comment is nothing. -/
theorem closed_comment (hsettings : OneLines settings) :
    Closed .nothing ((commentLines settings pre indent key).flatMap (· ++ ['\n'])) [] := by
  unfold commentLines
  split
  · next purpose hpurpose =>
    have hline : Closed .nothing ("// ".toList ++ purpose.toList ++ ['\n']) [] := by
      intro seen back
      have hchars : ∀ c ∈ ' ' :: purpose.toList, isLineEnd c = false := by
        refine List.forall_mem_cons.mpr ⟨rfl, fun c hc => ?_⟩
        obtain ⟨hline, hreturn, -⟩ := purpose_oneLine hsettings hpurpose c hc
        simp only [isLineEnd, beq_false_of_ne hline, beq_false_of_ne hreturn, Bool.or_self]
      have hslashes : Lexer.run .nothing ⟨seen, .plain []⟩
          ('/' :: '/' :: (' ' :: purpose.toList ++ '\n' :: back)) =
            Lexer.run .nothing ⟨seen, .line []⟩ (' ' :: purpose.toList ++ '\n' :: back) := rfl
      have hend : Lexer.run .nothing ⟨seen, .line []⟩ ('\n' :: back) =
          Lexer.run .nothing ⟨seen ++ [], .plain []⟩ back := by
        rw [List.append_nil]
        rfl
      rw [run_line hchars, hend] at hslashes
      simpa using hslashes
    rw [List.flatMap_cons, List.flatMap_nil, List.append_nil, List.append_assoc, List.append_assoc]
    rw [List.append_assoc] at hline
    exact closed_indent.append hline
  · exact closed_nil

theorem inside_of_plain (h : Plain key) : Inside key.toList := by
  have hflat : key.toList = key.toList.flatMap fun c => [c] := by simp
  rw [hflat]
  exact inside_flatMap fun c hc => inside_plain (h c hc).1 (h c hc).2.1

/-- The line of a field, to the end of its value. -/
theorem lexes_entryLine {tokens : List Token} (hkey : Plain entry.1.1)
    (h : Lexes comments entry.2 tokens) :
    Lexes comments (entryLine indent entry []) (fieldTokens entry.1.1.toList tokens) := by
  have hcolon : Closed comments [':', ' '] [.mark .colon] :=
    (closed_mark rfl).append (closed_space rfl)
  have hindent : Closed comments (spaces indent) [] := closed_indent
  have hfront := (hindent.append (closed_quoted (inside_of_plain hkey))).append hcolon
  have hline := hfront.lexes_append h
  simpa [entryLine, quoted, fieldTokens] using hline

theorem closed_bodyText (hsettings : OneLines settings) {pieces : List (List Token)}
    (h : List.Forall₂ (fun entry piece => Lexes .nothing (entryLine indent entry []) piece)
      entries pieces) :
    Closed .nothing (bodyText settings pre indent entries) (commas (.mark .comma) pieces) := by
  unfold bodyText
  induction h with
  | nil => exact closed_nil
  | @cons entry piece entries pieces hpiece hpieces ih =>
    have hcomment := @closed_comment settings pre entry.1.1 indent hsettings
    cases hpieces with
    | nil =>
      have hline := hpiece.close (c := '\n') rfl (closed_space rfl)
      have hlast := hcomment.append hline
      simpa [bodyLines, commas] using hlast
    | @cons next piece' entries pieces hnext hpieces =>
      have hcomma : Closed .nothing (entryLine indent entry [] ++ [',']) (piece ++ [.mark .comma]) :=
        hpiece.close rfl (closed_mark rfl)
      have hline := hcomma.append (closed_space (c := '\n') rfl)
      have hbody := (hcomment.append hline).append ih
      simpa [bodyLines, commas, entryLine] using hbody

theorem readString_of_plain (h : Plain key) : readString key.toList = some key :=
  readString_plain fun c hc => (h c hc).2

theorem loaded_object : loaded r floatText (.object fields) =
    .object (fields.map fun field => (field.1, loaded r floatText field.2)) := by
  rw [loaded, reread, Json.mapNumbers, Json.mapFields_eq, rereadFields_eq, List.map_map]
  rfl

/-- An object is read from its lines, in whatever order they stand. -/
theorem reads_objectText {f : Json → Json} (hsettings : OneLines settings) (hfields : Sorted fields)
    (hperm : (entries.map (·.1)).Perm fields) (hkeys : ∀ field ∈ fields, Plain field.1)
    (hread : ∀ entry ∈ entries, Reads .nothing r entry.2 (f entry.1.2)) :
    Reads .nothing r (objectText settings pre indent entries)
      (.object (fields.map fun field => (field.1, f field.2))) := by
  have hsort := @sortEntries_perm settings pre entries
  have hentry : ∀ entry ∈ sortEntries settings pre entries, ∃ piece,
      Lexes .nothing (entryLine (indent + 1) entry []) piece ∧
        ParsesField r piece (entry.1.1, f entry.1.2) := by
    intro entry hmem
    have hmem := hsort.subset hmem
    have hplain := hkeys entry.1 (hperm.subset (List.mem_map_of_mem hmem))
    obtain ⟨tokens, hlex, hparse⟩ := hread entry hmem
    exact ⟨_, lexes_entryLine hplain hlex, _, tokens, rfl, readString_of_plain hplain, hparse⟩
  obtain ⟨pieces, hlex, hparse⟩ : ∃ pieces,
      List.Forall₂ (fun entry piece => Lexes .nothing (entryLine (indent + 1) entry []) piece)
        (sortEntries settings pre entries) pieces ∧
      List.Forall₂ (ParsesField r) pieces
        ((sortEntries settings pre entries).map fun entry => (entry.1.1, f entry.1.2)) := by
    generalize sortEntries settings pre entries = sorted at hentry
    induction sorted with
    | nil => exact ⟨[], .nil, .nil⟩
    | cons entry sorted ih =>
      rw [List.forall_mem_cons] at hentry
      obtain ⟨⟨piece, hlex, hparse⟩, hrest⟩ := hentry
      obtain ⟨pieces, hlexes, hparses⟩ := ih hrest
      exact ⟨piece :: pieces, .cons hlex hlexes, .cons hparse hparses⟩
  refine ⟨_, ?_, parses_object hparse ?_ (sorted_map hfields)⟩
  · have hopen : Closed .nothing ['\x7b', '\n'] [.mark .openObject] :=
      (closed_mark rfl).append (closed_space rfl)
    have hindent : Closed .nothing (spaces indent) [] := closed_indent
    have hclose : Closed .nothing (spaces indent ++ ['\x7d']) [.mark .closeObject] :=
      hindent.append (closed_mark rfl)
    have hbody : Closed .nothing (bodyText settings pre (indent + 1)
        (sortEntries settings pre entries)) (commas (.mark .comma) pieces) :=
      closed_bodyText hsettings hlex
    have hobject := (hopen.append hbody).append hclose
    rw [objectText_eq]
    exact hobject.lexes
  · have hfieldsPerm := ((hsort.map (·.1)).trans hperm).map fun field => (field.1, f field.2)
    rwa [List.map_map] at hfieldsPerm

theorem numberText_ofI64 {n : Int} (hlow : -2 ^ 63 ≤ n) (hhigh : n < 2 ^ 63) :
    numberText floatText (ofI64 n) = n.repr.toList := by
  unfold ofI64
  split
  · rw [numberText, Int64.toInt_ofInt_of_le hlow hhigh]
  · have hvalue : (UInt64.ofNat n.toNat).toNat = n.toNat := by
      rw [UInt64.toNat_ofNat']
      omega
    rw [numberText, hvalue, Int.repr_eq_if, if_pos (by omega)]

theorem keeps_posInt (hintegers : KeepsIntegers r) (n : UInt64) : Keeps r floatText (.posInt n) :=
  ⟨isNumber_repr n.toNat, hintegers.posInt n⟩

theorem keeps_negInt (hintegers : KeepsIntegers r) {n : Int64} (h : n < 0) :
    Keeps r floatText (.negInt n) :=
  ⟨isNumber_int n.toInt, hintegers.negInt n h⟩

theorem keeps_ofI64 (hintegers : KeepsIntegers r) {n : Int} (hlow : -2 ^ 63 ≤ n) (hhigh : n < 2 ^ 63) :
    Keeps r floatText (ofI64 n) := by
  unfold ofI64
  split
  · next hneg =>
    apply keeps_negInt hintegers
    rw [Int64.lt_iff_toInt_lt, Int64.toInt_ofInt_of_le hlow hhigh]
    exact hneg
  · exact keeps_posInt hintegers _

theorem reads_number {n : Number} (h : Keeps r floatText n) :
    Reads comments r (numberText floatText n) (.number (reprint r floatText n)) := by
  rw [h.reprint]
  exact .numeral h.1 h.2

theorem reads_renderLeafValue (hintegers : KeepsIntegers r) (hobject : value.isObject = false)
    (hvalue : Ordered value) (hnumbers : ∀ n ∈ numbers value, Rereads r floatText n) :
    Reads comments r (renderLeafValue floatText value) (loaded r floatText value) := by
  have hprint := @reads_print comments r floatText value hvalue hnumbers
  cases value with
  | number n =>
    cases n with
    | float q =>
      rw [renderLeafValue, loaded, reread, leafNumber, Json.mapNumbers]
      split_ifs with hsigned hunsigned
      · have hlow : -2 ^ 63 ≤ saturateI64 q.num := by
          unfold saturateI64
          omega
        have hhigh : saturateI64 q.num < 2 ^ 63 := by
          unfold saturateI64
          omega
        have hread := @reads_number floatText r comments _ (keeps_ofI64 hintegers hlow hhigh)
        rwa [numberText_ofI64 hlow hhigh] at hread
      · have hvalue : (UInt64.ofNat (min q.num.toNat (2 ^ 64 - 1))).toNat =
            min q.num.toNat (2 ^ 64 - 1) := by
          rw [UInt64.toNat_ofNat']
          omega
        have hread := @reads_number floatText r comments _
          (keeps_posInt hintegers (UInt64.ofNat (min q.num.toNat (2 ^ 64 - 1))))
        rwa [numberText, hvalue] at hread
      · exact hprint
    | _ => exact hprint
  | object fields => cases hobject
  | _ => exact hprint

/-- A value whose keys need no escape is read back from its text, its whole doubles as integers. -/
theorem reads_valueText (hsettings : OneLines settings) (hintegers : KeepsIntegers r)
    (h : Ordered value) (hnumbers : ∀ n ∈ numbers value, Rereads r floatText n)
    (hkeys : ∀ key ∈ objectKeys value, Plain key) (path : String) (indent : Nat) :
    Reads .nothing r (valueText settings floatText path indent value) (loaded r floatText value) := by
  induction h generalizing path indent with
  | @object fields hsorted hordered ih =>
    rw [valueText, loaded_object]
    cases fields with
    | nil => exact .object (.nil) .nil
    | cons field fields =>
      rw [if_neg (by simp), fieldEntries_eq]
      refine reads_objectText hsettings hsorted ?_ ?_ ?_
      · rw [List.map_map]
        exact .of_eq (List.map_id _)
      · exact fun f hf => hkeys f.1 (mem_fieldKeys.mpr ⟨f, hf, .inl rfl⟩)
      · intro entry hentry
        obtain ⟨f, hf, rfl⟩ := List.mem_map.mp hentry
        refine ih f hf (fun n hn => ?_) (fun key hkey => ?_) _ _
        · exact hnumbers n (mem_numbersFields.mpr ⟨f, hf, hn⟩)
        · exact hkeys key (mem_fieldKeys.mpr ⟨f, hf, .inr hkey⟩)
  | null => exact reads_renderLeafValue hintegers rfl .null hnumbers
  | bool b => exact reads_renderLeafValue hintegers rfl (.bool b) hnumbers
  | number n => exact reads_renderLeafValue hintegers rfl (.number n) hnumbers
  | string s => exact reads_renderLeafValue hintegers rfl (.string s) hnumbers
  | array hitems _ => exact reads_renderLeafValue hintegers rfl (.array hitems) hnumbers

end Reading

end Climon.Config.Rendering
