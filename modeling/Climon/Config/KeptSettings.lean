import Climon.Config.SettingWrites

namespace Climon.Config.KeptSettings

open Climon.Config.Cascade
open Climon.Config.CommentStripping Climon.Config.EscapedKeys Climon.Config.ReadYourWrite
  Climon.Config.Rendering Climon.Config.RoundTrip Climon.Config.SettingPaths Climon.Config.SettingWrites
  Climon.Config.Settings
open Climon.Lib Climon.Lib.JsonBounds Climon.Lib.JsonOccurrences Climon.Lib.JsonPrint
  Climon.Lib.JsonText Climon.Lib.JsonValue

/-!
# Settings that a write keeps

A config that is read, changed and written whole has its other settings again, unless it was not read
at all, or its rendering has something else in it.
-/

/-! ## What is promised -/

/-- The first two segments of a key. -/
def place (key : String) : List String := [(splitTwo key).1, (splitTwo key).2]

/-- The whole key, and with one segment the field without a name that it stands for. -/
def target (key : String) : List String :=
  match split key with
  | [segment] => [segment, ""]
  | segments => segments

/-- A value of the config that is not what the key names. An object around it is none, nor is what
has the name of a section and is written as a setting. -/
def Other (call : Call) (key : String) (path : List String) (value : Json) : Prop :=
  ¬ target key <+: path ∧ (path <+: target key → value.isObject = false) ∧
    (call ≠ .unset → path ≠ split key)

/-- Every other setting of a config is in the one that replaces it. -/
def KeepsOthers (call : Call) (key : String) (old : Json) (replaced : Option Json) : Prop :=
  ∀ path value, valueAt old path = some value → Other call key path value →
    ∃ new value', replaced = some new ∧ valueAt new path = some value' ∧
      normalise value' = normalise value

section Promise

variable {L : Type} (sys : System L) (dir : Path)

/-- The object in a config file, if it can be read and parsed. -/
def content : Option (String × File) → Option Json
  | some (name, .text raw) => (parseJsoncConfig sys.fromStr raw (dir.join name).display).toOption
  | _ => none

/-- A call that fails leaves the config file as it was. One that does not keeps every other setting,
and a file that cannot be read. -/
def Kept (call : Call) (key : String) (before after : Option (String × File)) :
    Except String Unit → Prop
  | .error _ => after = before
  | .ok _ =>
    (before.isSome = true → content sys dir before = none → after = before) ∧
      ∀ old, content sys dir before = some old → KeepsOthers call key old (content sys dir after)

end Promise

/-! ## When it is kept -/

/-- What a call replaces or removes. -/
def Touched (call : Call) (key : String) (path : List String) (value : Json) : Prop :=
  place key <+: path ∨ call ≠ .unset ∧ path = [(splitTwo key).1] ∧ value.isObject = false

/-- Not replaced, under names that need no escape, and no double that the casts cut. -/
def Survives (call : Call) (key : String) (path : List String) (value : Json) : Prop :=
  ¬ Touched call key path value ∧ (∀ name ∈ path, Plain name) ∧ ∀ n, value = .number n → ¬ Cut n

def OthersSurvive (call : Call) (key : String) (old : Json) : Prop :=
  ∀ path value, valueAt old path = some value → Other call key path value →
    Survives call key path value

section Conditions

variable {L : Type} (sys : System L) (left : L → Option File) (call : Call) (key : String)
  (dir : Path)

/-- Nothing is written. -/
def Stops (before : Option (String × File)) : Prop :=
  Refused key before call ∨
    (∃ e, sys.createDirAll (sys.locate dir) = .error e) ∨
      (∃ e, sys.write (sys.locate dir) = .error e) ∧ left (sys.locate dir) = none

/-- The file can be read, and its other settings survive. -/
def Safe (before : Option (String × File)) : Prop :=
  ∃ old, content sys dir before = some old ∧ OthersSurvive call key old

/-- Nothing is written, or a write that fails changes nothing, or nothing fails and the file is safe
or new. -/
def Guarded (before : Option (String × File)) : Prop :=
  Stops sys left call key dir before ∨
    (∃ e file, sys.write (sys.locate dir) = .error e ∧ left (sys.locate dir) = some file ∧
      before = some ("config.jsonc", file)) ∨
    sys.write (sys.locate dir) = .ok () ∧
      (∀ file, before = some ("config.json", file) → sys.rename (sys.locate dir) = .ok ()) ∧
        (before = none ∨ Safe sys call key dir before)

end Conditions

/-! ## Paths beside a change -/

/-- Not the setting that is changed, nothing in it and no object around it. -/
inductive Beside (names : String × String) (setting : Option Json) : List String → Json → Prop
  | other (name : String) (path : List String) (value : Json) (h : name ≠ names.1) :
    Beside names setting (name :: path) value
  | member (name : String) (path : List String) (value : Json) (h : name ≠ names.2) :
    Beside names setting (names.1 :: name :: path) value
  | whole (value : Json) (h : value.isObject = false) (hsetting : setting = none) :
    Beside names setting [names.1] value

section Paths

variable {key : String} {call : Call} {names : String × String} {setting : Option Json}
  {old new : List (String × Json)} {path rest : List String} {value value' : Json}

theorem beside_append (h : Beside names setting path value)
    (hrest : valueAt value rest = some value') : Beside names setting (path ++ rest) value' := by
  cases h with
  | other name path _ hname => exact .other name _ _ hname
  | member name path _ hname => exact .member name _ _ hname
  | whole _ hvalue hsetting =>
    cases rest with
    | nil =>
      obtain rfl := Option.some.inj hrest
      exact .whole _ hvalue hsetting
    | cons name rest =>
      rw [valueAt, Json.get?_of_not_object hvalue] at hrest
      cases hrest

theorem valueAt_beside (hedit : Edited names setting old new) (h : Beside names setting path value) :
    valueAt (.object new) path = some value ↔ valueAt (.object old) path = some value := by
  cases h with
  | other name path _ hname => rw [valueAt_object, valueAt_object, hedit.other name hname]
  | member name path _ hname => rw [valueAt_member, valueAt_member, hedit.member name hname]
  | whole _ hvalue hsetting =>
    rw [valueAt_single, valueAt_single, hedit.whole value hvalue, and_iff_right hsetting]

theorem split_ne_nil : split key ≠ [] := by
  rw [split, ne_eq, List.map_eq_nil_iff]
  exact List.splitOn_ne_nil _ _

theorem split_starts : split key <+: target key := by
  unfold target
  split
  · next segment hsplit =>
    rw [hsplit]
    exact List.prefix_append [segment] [""]
  · exact List.prefix_rfl

theorem place_starts : place key <+: target key := by
  unfold place target splitTwo
  split
  · next segment hsplit =>
    rw [hsplit]
    exact List.prefix_rfl
  · next hlong =>
    cases hsplit : split key with
    | nil => exact absurd hsplit split_ne_nil
    | cons first segments =>
      cases segments with
      | nil => exact absurd hsplit (hlong first)
      | cons second segments => exact List.prefix_append [first, second] segments

/-- The keys of the registry have two segments at most. -/
theorem target_configSettings : ∀ setting ∈ configSettings, target setting.path = place setting.path := by
  decide +kernel

/-- A value from text, at a key from the registry. -/
structure Scalar (key : String) (value : Json) : Prop where
  plain : Plain (splitTwo key).1 ∧ Plain (splitTwo key).2
  target : target key = place key
  isObject : value.isObject = false
  occurrences : ∀ k, occurrences k value = 0

theorem scalar_of_coerced {text : String}
    (h : coerceConfigValueFromSettings key text = .ok value) : Scalar key value := by
  obtain ⟨hplain, hcases⟩ := coerced_cases h
  have htarget : target key = place key := by
    unfold coerceConfigValueFromSettings findConfigSetting at h
    split at h
    · cases h
    · next setting hfind =>
      have hfound := List.find?_some hfind
      have hkey : setting.path = key := beq_iff_eq.mp hfound
      rw [← hkey]
      exact target_configSettings setting (List.mem_of_find?_eq_some hfind)
  have hleaf : value.isObject = false ∧ ∀ k, occurrences k value = 0 := by
    rcases hcases with ⟨b, rfl⟩ | ⟨s, rfl⟩ | ⟨d, rfl⟩
    · exact ⟨rfl, fun _ => rfl⟩
    · exact ⟨rfl, fun _ => rfl⟩
    · rcases numberValue_cases d with hd | ⟨m, hd, -, -⟩ | ⟨q, hd⟩
      · rw [hd]
        exact ⟨rfl, fun _ => rfl⟩
      · rw [hd]
        exact ⟨rfl, fun _ => rfl⟩
      · rw [hd]
        exact ⟨rfl, fun _ => rfl⟩
  exact ⟨plain_splitTwo hplain, htarget, hleaf.1, hleaf.2⟩

/-- A setting is removed, or a scalar set. -/
theorem change_cases (h : Change key call setting) :
    call = .unset ∧ setting = none ∨
      call ≠ .unset ∧ ∃ value, setting = some value ∧ Scalar key value := by
  cases h with
  | removed => exact .inl ⟨rfl, rfl⟩
  | set hcoerced => exact .inr ⟨nofun, _, rfl, scalar_of_coerced hcoerced⟩

/-- What the change leaves is beside it. -/
theorem beside_of_other (hchange : Change key call setting) (hpath : valueAt (.object old) path = some value)
    (hother : Other call key path value) (htouched : ¬ Touched call key path value) :
    Beside (splitTwo key) setting path value := by
  obtain ⟨-, haround, -⟩ := hother
  cases path with
  | nil =>
    obtain rfl := Option.some.inj hpath
    cases haround List.nil_prefix
  | cons name path =>
    by_cases hname : name = (splitTwo key).1
    · subst hname
      cases path with
      | nil =>
        have hplace : [(splitTwo key).1] <+: place key := List.prefix_append _ [_]
        have hvalue := haround (hplace.trans place_starts)
        refine .whole value hvalue ?_
        rcases change_cases hchange with ⟨-, hnone⟩ | ⟨hset, -⟩
        · exact hnone
        · exact absurd (.inr ⟨hset, rfl, hvalue⟩) htouched
      | cons field path =>
        refine .member field path value fun hfield => htouched (.inl ?_)
        subst hfield
        exact List.prefix_append (place key) path
    · exact .other name path value hname

theorem not_under (h : Beside (splitTwo key) setting path value) : ¬ place key <+: path := by
  rintro ⟨rest, hrest⟩
  cases h with
  | other name path _ hname => exact hname (List.cons.inj hrest).1.symm
  | member name path _ hname => exact hname (List.cons.inj (List.cons.inj hrest).2).1.symm
  | whole _ hvalue hsetting => cases (List.cons.inj hrest).2

/-- Beside a change only a section that is none stands around it. -/
theorem whole_of_around (h : Beside (splitTwo key) setting path value)
    (haround : path <+: target key) : value.isObject = false ∧ setting = none := by
  have hplace : path <+: place key :=
    (List.prefix_or_prefix_of_prefix haround place_starts).resolve_right (not_under h)
  obtain ⟨rest, hrest⟩ := hplace
  cases h with
  | other name path _ hname => exact absurd (List.cons.inj hrest).1 hname
  | member name path _ hname => exact absurd (List.cons.inj (List.cons.inj hrest).2).1 hname
  | whole _ hvalue hsetting => exact ⟨hvalue, hsetting⟩

theorem other_of_beside (hchange : Change key call setting)
    (h : Beside (splitTwo key) setting path value) :
    Other call key path value ∧ ¬ Touched call key path value := by
  have hset : call ≠ .unset → setting ≠ none := by
    rcases change_cases hchange with ⟨hunset, -⟩ | ⟨-, scalar, hsome, -⟩
    · exact absurd hunset
    · exact fun _ => hsome ▸ Option.some_ne_none scalar
  refine ⟨⟨fun htarget => not_under h (place_starts.trans htarget),
    fun haround => (whole_of_around h haround).1, ?_⟩, ?_⟩
  · rintro hcall rfl
    exact hset hcall (whole_of_around h split_starts).2
  · rintro (hunder | ⟨hcall, rfl, hvalue⟩)
    · exact not_under h hunder
    · have hsingle : [(splitTwo key).1] <+: place key := List.prefix_append _ [_]
      exact hset hcall (whole_of_around h (hsingle.trans place_starts)).2

/-- What is not beside it is replaced by an object, or gone. -/
theorem touched_changed (hchange : Change key call setting)
    (hedit : Edited (splitTwo key) setting old new) (hother : Other call key path value)
    (htouched : Touched call key path value) (hnew : valueAt (.object new) path = some value') :
    value'.isObject = true ∧ value.isObject = false := by
  rcases change_cases hchange with ⟨hunset, rfl⟩ | ⟨-, scalar, rfl, hscalar⟩
  · rcases htouched with ⟨rest, rfl⟩ | ⟨hcall, -⟩
    · change valueAt (.object new) ((splitTwo key).1 :: (splitTwo key).2 :: rest) = _ at hnew
      rw [valueAt_member, hedit.setting_eq] at hnew
      cases hnew
    · exact absurd hunset hcall
  · rcases htouched with hunder | ⟨-, rfl, hvalue⟩
    · exact absurd (hscalar.target ▸ hunder) hother.1
    · refine ⟨?_, hvalue⟩
      rw [valueAt_single] at hnew
      by_contra hobject
      cases ((hedit.whole value' (Bool.eq_false_of_not_eq_true hobject)).mp hnew).1

/-- A section that is left with other settings has one beside the change. -/
theorem exists_beside_section (hedit : Edited (splitTwo key) none old new)
    (hpath : valueAt (.object new) [(splitTwo key).1] = some value) : ∃ path value',
      valueAt (.object new) ((splitTwo key).1 :: path) = some value' ∧
        Beside (splitTwo key) none ((splitTwo key).1 :: path) value' := by
  rw [valueAt_single] at hpath
  cases value with
  | object entry =>
    obtain ⟨field, hfield, hsome⟩ := hedit.occupied rfl entry hpath
    obtain ⟨inner, hinner⟩ := Option.isSome_iff_exists.mp hsome
    refine ⟨[field], inner, ?_, .member field [] inner hfield⟩
    rw [valueAt_object, hpath, Option.bind_some, valueAt_single, hinner]
  | _ => exact ⟨[], _, valueAt_single.trans hpath, .whole _ rfl rfl⟩

/-- A key that needs an escape is on a path beside the change. -/
theorem exists_beside (hchange : Change key call setting)
    (hedit : Edited (splitTwo key) setting old new) (hordered : Ordered (.object new))
    (hbad : ¬ ∀ name ∈ fieldKeys new, Plain name) : ∃ path value,
      valueAt (.object new) path = some value ∧ Beside (splitTwo key) setting path value ∧
        ¬ ∀ name ∈ path, Plain name := by
  push Not at hbad
  obtain ⟨k, hk, hplain⟩ := hbad
  obtain ⟨path, value, hpath, hmem⟩ := exists_path_key hordered hk
  have hescape : ¬ ∀ name ∈ path, Plain name := fun hall => hplain (hall k hmem)
  cases path with
  | nil => cases hmem
  | cons name path =>
    by_cases hname : name = (splitTwo key).1
    · subst hname
      rcases change_cases hchange with ⟨-, rfl⟩ | ⟨-, scalar, rfl, hscalar⟩
      · cases path with
        | nil =>
          obtain rfl := List.mem_singleton.mp hmem
          obtain ⟨rest, value', hrest, hbeside⟩ := exists_beside_section hedit hpath
          exact ⟨_, value', hrest, hbeside, fun hall => hplain (hall _ List.mem_cons_self)⟩
        | cons field path =>
          refine ⟨_, value, hpath, .member field path value ?_, hescape⟩
          rintro rfl
          rw [valueAt_member, hedit.setting_eq] at hpath
          cases hpath
      · have hrest : k ∈ path := (List.mem_cons.mp hmem).resolve_left fun heq =>
          hplain (heq ▸ hscalar.plain.1)
        cases path with
        | nil => cases hrest
        | cons field path =>
          refine ⟨_, value, hpath, .member field path value ?_, hescape⟩
          rintro rfl
          rw [valueAt_member, hedit.setting_eq, Option.bind_some] at hpath
          cases path with
          | nil =>
            rw [List.mem_singleton.mp hrest] at hplain
            exact hplain hscalar.plain.2
          | cons next path =>
            rw [valueAt, Json.get?_of_not_object hscalar.isObject] at hpath
            cases hpath
    · exact ⟨_, value, hpath, .other name path value hname, hescape⟩

end Paths

/-! ## What is read of the record -/

section Reading

variable {L : Type} {sys : System L} {r : Reader} {dir : Path} {key : String} {call : Call}
  {setting : Option Json} {old new others : List (String × Json)} {json : Json}

theorem content_eq_some (lib : Library sys r) {name : String} {raw : List Char} :
    content sys dir (some (name, .text raw)) = some json ↔
      r.read .nothing raw = some json ∧ json.isObject = true := by
  rw [← @parseJsoncConfig_iff r sys.fromStr raw (dir.join name).display json lib.parses, content]
  cases parseJsoncConfig sys.fromStr raw (dir.join name).display with
  | error e => exact iff_of_false nofun nofun
  | ok value => exact ⟨fun h => congrArg Except.ok (Option.some.inj h), fun h => congrArg some (Except.ok.inj h)⟩

/-- A record without escapes is read back. -/
theorem content_rendering (lib : Library sys r) (hrecord : Renderable r sys.floatText new)
    (hplain : ∀ name ∈ fieldKeys new, Plain name) (name : String) :
    content sys dir (some (name, .text (renderJsoncConfig sys.floatText (.object new)))) =
      some (loaded r sys.floatText (.object new)) := by
  rw [content_eq_some lib]
  exact ⟨read_rendering lib.integers hrecord.1.1 hrecord.1.2 hplain hrecord.2, isObject_loaded⟩

/-- All beside the change is in a config that was read. -/
def Found (names : String × String) (setting : Option Json) (new others : List (String × Json)) : Prop :=
  ∀ path value, Beside names setting path value → valueAt (.object new) path = some value →
    ∃ value', valueAt (.object others) path = some value' ∧ normalise value' = normalise value

section Sections

variable {k : String} {entry : List (String × Json)} {value : Json} {field : String × Json}

/-- The setting itself has no key that needs an escape. -/
theorem setting_weightless (hchange : Change key call setting)
    (hedit : Edited (splitTwo key) setting old new) (hnodup : (entry.map (·.1)).Nodup)
    (hentry : new.lookup (splitTwo key).1 = some (.object entry)) (hk : ¬ Plain k)
    (hfield : field ∈ entry) (hname : field.1 = (splitTwo key).2) :
    Plain (splitTwo key).1 ∧ field.1 ≠ k ∧ occurrences k field.2 = 0 := by
  have hlookup : entry.lookup field.1 = some field.2 := AssocList.lookup_of_mem hnodup hfield
  have hvalue := hedit.setting_eq
  rw [hentry, Option.bind_some, Json.get?, ← hname, hlookup] at hvalue
  rcases change_cases hchange with ⟨-, rfl⟩ | ⟨-, scalar, rfl, hscalar⟩
  · cases hvalue
  · obtain rfl := Option.some.inj hvalue
    refine ⟨hscalar.plain.1, ?_, hscalar.occurrences k⟩
    rintro rfl
    exact hk (hname ▸ hscalar.plain.2)

theorem member_found (hfound : Found (splitTwo key) setting new others)
    (hnodup : (entry.map (·.1)).Nodup)
    (hentry : new.lookup (splitTwo key).1 = some (.object entry)) (hfield : field ∈ entry)
    (hname : field.1 ≠ (splitTwo key).2) :
    ∃ inner value', others.lookup (splitTwo key).1 = some (.object inner) ∧
      inner.lookup field.1 = some value' ∧ occurrences k field.2 ≤ occurrences k value' := by
  have hpath : valueAt (.object new) [(splitTwo key).1, field.1] = some field.2 := by
    rw [valueAt_object, hentry, Option.bind_some, valueAt_single]
    exact AssocList.lookup_of_mem hnodup hfield
  obtain ⟨value', hvalue', hsame⟩ := hfound _ _ (.member field.1 [] field.2 hname) hpath
  obtain ⟨section', hsection, hrest⟩ := valueAt_cons hvalue'
  obtain ⟨last, hlast, hend⟩ := valueAt_cons hrest
  obtain rfl := Option.some.inj hend
  cases section' with
  | object inner => exact ⟨inner, last, hsection, hlast, (occurrences_of_normalise hsame).ge⟩
  | _ => cases hlast

/-- Of the section of the setting all keys are found. -/
theorem section_found (hchange : Change key call setting)
    (hedit : Edited (splitTwo key) setting old new) (hnodup : (entry.map (·.1)).Nodup)
    (hentry : new.lookup (splitTwo key).1 = some (.object entry)) (hk : ¬ Plain k)
    (hfound : Found (splitTwo key) setting new others) :
    ((splitTwo key).1 ≠ k ∧ occurrences k (.object entry) = 0) ∨
      ∃ other, others.lookup (splitTwo key).1 = some other ∧
        occurrences k (.object entry) ≤ occurrences k other := by
  by_cases hmember : ∃ field ∈ entry, field.1 ≠ (splitTwo key).2
  · right
    obtain ⟨field, hfield, hname⟩ := hmember
    obtain ⟨inner, -, hinner, -⟩ := @member_found key setting new others k _ _ hfound hnodup hentry
      hfield hname
    refine ⟨_, hinner, occurrencesFields_le hnodup fun f hf => ?_⟩
    by_cases hsetting : f.1 = (splitTwo key).2
    · exact .inl (setting_weightless hchange hedit hnodup hentry hk hf hsetting).2
    · right
      obtain ⟨inner', value', hinner', hlookup, hle⟩ :=
        @member_found key setting new others k _ _ hfound hnodup hentry hf hsetting
      obtain rfl := Json.object.inj (Option.some.inj (hinner.symm.trans hinner'))
      exact ⟨value', hlookup, hle⟩
  · left
    push Not at hmember
    have hweightless : ∀ f ∈ entry, Plain (splitTwo key).1 ∧ f.1 ≠ k ∧ occurrences k f.2 = 0 :=
      fun f hf => setting_weightless hchange hedit hnodup hentry hk hf (hmember f hf)
    have hzero : occurrencesFields k entry ≤ occurrencesFields k [] :=
      occurrencesFields_le hnodup fun f hf => .inl (hweightless f hf).2
    refine ⟨?_, Nat.eq_zero_of_le_zero hzero⟩
    rintro rfl
    cases entry with
    | nil =>
      -- No section is left empty, but by a setting that was not set.
      rcases change_cases hchange with ⟨-, rfl⟩ | ⟨-, scalar, -, hscalar⟩
      · obtain ⟨name, -, hsome⟩ := hedit.occupied rfl [] hentry
        cases hsome
      · exact hk hscalar.plain.1
    | cons field entry => exact hk (hweightless field List.mem_cons_self).1

end Sections

/-- Where all beside the change is read from its rendering, no key of a record needs an escape. -/
theorem plain_of_found (hchange : Change key call setting)
    (hedit : Edited (splitTwo key) setting old new) (hrecord : Renderable r sys.floatText new)
    (hread : r.read .nothing (renderJsoncConfig sys.floatText (.object new)) = some (.object others))
    (hfound : Found (splitTwo key) setting new others) : ∀ name ∈ fieldKeys new, Plain name := by
  have hnumeric : Numeric sys.floatText (.object new) := fun n hn => (hrecord.1.2 n hn).1
  have hordered := hrecord.1.1
  have hnodup := nodup_of_ordered hordered
  refine plain_of_occurrences hnumeric hread fun k hk => ?_
  refine occurrencesFields_le hnodup fun field hfield => ?_
  have hlookup : new.lookup field.1 = some field.2 := AssocList.lookup_of_mem hnodup hfield
  have hbeside (h : Beside (splitTwo key) setting [field.1] field.2) :
      ∃ other, others.lookup field.1 = some other ∧
        occurrences k field.2 ≤ occurrences k other := by
    obtain ⟨value', hvalue', hsame⟩ := hfound _ _ h (valueAt_single.trans hlookup)
    exact ⟨value', valueAt_single.symm.trans hvalue', (occurrences_of_normalise hsame).ge⟩
  by_cases hname : field.1 = (splitTwo key).1
  · obtain ⟨name, value⟩ := field
    subst hname
    cases value with
    | object entry =>
      have hentry := nodup_of_ordered (ordered_field hordered hfield)
      exact section_found hchange hedit hentry hlookup hk hfound
    | _ => exact .inr (hbeside (.whole _ rfl ((hedit.whole _ rfl).mp hlookup).1))
  · exact .inr (hbeside (.other _ [] _ hname))

/-- Where no key needs an escape, what is beside the change is kept but for doubles that are cut. -/
theorem keepsOthers_loaded (hintegers : KeepsIntegers r) {floatText : Rat → List Char}
    (hkeeps : ∀ n ∈ numbers (.object old), Keeps r floatText n) (hold : Ordered (.object old))
    (hchange : Change key call setting) (hedit : Edited (splitTwo key) setting old new)
    (hplain : ∀ name ∈ fieldKeys new, Plain name) :
    KeepsOthers call key (.object old) (some (loaded r floatText (.object new))) ↔
      OthersSurvive call key (.object old) := by
  have hvalue {path : List String} {value : Json} (hpath : valueAt (.object old) path = some value) :
      normalise (loaded r floatText value) = normalise value ↔ ∀ n ∈ leafNumbers value, ¬ Cut n :=
    normalise_loaded_iff hintegers fun n hn => hkeeps n (numbers_valueAt hpath hn)
  constructor
  · intro hkept path value hpath hother
    obtain ⟨read, value', hread, hvalue', hsame⟩ := hkept path value hpath hother
    obtain rfl := Option.some.inj hread
    rw [valueAt_loaded, Option.map_eq_some_iff] at hvalue'
    obtain ⟨found, hfound, rfl⟩ := hvalue'
    have htouched : ¬ Touched call key path value := by
      intro htouched
      obtain ⟨hobject, hnone⟩ := touched_changed hchange hedit hother htouched hfound
      have hsame := isObject_of_normalise hsame
      rw [isObject_loaded, hobject, hnone] at hsame
      cases hsame
    have hbeside := beside_of_other hchange hpath hother htouched
    have hnew := (valueAt_beside hedit hbeside).mpr hpath
    obtain rfl := Option.some.inj (hnew.symm.trans hfound)
    refine ⟨htouched, fun name hname => hplain name (keys_valueAt hnew name hname), ?_⟩
    rintro n rfl
    exact (hvalue hpath).mp hsame n List.mem_cons_self
  · intro hsurvive path value hpath hother
    obtain ⟨htouched, -, -⟩ := hsurvive path value hpath hother
    have hbeside := beside_of_other hchange hpath hother htouched
    have hnew := (valueAt_beside hedit hbeside).mpr hpath
    refine ⟨_, loaded r floatText value, rfl, ?_, (hvalue hpath).mpr fun n hn => ?_⟩
    · rw [valueAt_loaded, hnew]
      rfl
    · obtain ⟨rest, hrest⟩ := exists_path_number (ordered_valueAt hold hpath) hn
      have hinner : valueAt (.object old) (path ++ rest) = some (.number n) := by
        rw [valueAt_append, hpath]
        exact hrest
      have hother := (other_of_beside hchange (beside_append hbeside hrest)).1
      exact (hsurvive _ _ hinner hother).2.2 n rfl

/-- After a write that succeeds the other settings are there if and only if they survive. -/
theorem keepsOthers_iff (lib : Library sys r)
    (hkeeps : ∀ n ∈ numbers (.object old), Keeps r sys.floatText n) (hold : Ordered (.object old))
    (hchange : Change key call setting) (hedit : Edited (splitTwo key) setting old new)
    (hrecord : Renderable r sys.floatText new) (name : String) :
    KeepsOthers call key (.object old)
        (content sys dir (some (name, .text (renderJsoncConfig sys.floatText (.object new))))) ↔
      OthersSurvive call key (.object old) := by
  by_cases hplain : ∀ name ∈ fieldKeys new, Plain name
  · rw [content_rendering lib hrecord hplain]
    exact keepsOthers_loaded lib.integers hkeeps hold hchange hedit hplain
  · obtain ⟨path, value, hpath, hbeside, hescape⟩ := exists_beside hchange hedit hrecord.1.1 hplain
    have hother := (other_of_beside hchange hbeside).1
    have hpathOld := (valueAt_beside hedit hbeside).mp hpath
    refine iff_of_false (fun hkept => hplain ?_) fun hsurvive =>
      hescape (hsurvive path value hpathOld hother).2.1
    obtain ⟨read, -, hcontent, -⟩ := hkept path value hpathOld hother
    obtain ⟨hread, hobject⟩ := (content_eq_some lib).mp hcontent
    cases read with
    | object others =>
      refine plain_of_found hchange hedit hrecord hread fun p v hbeside hp => ?_
      have hother := (other_of_beside hchange hbeside).1
      obtain ⟨new', value', hnew', hvalue', hsame⟩ :=
        hkept p v ((valueAt_beside hedit hbeside).mp hp) hother
      obtain rfl := Option.some.inj (hcontent.symm.trans hnew')
      exact ⟨value', hvalue', hsame⟩
    | _ => cases hobject

/-- A record made of nothing is read back, so a file that was not read is replaced. -/
theorem content_fresh (lib : Library sys r) (hchange : Change key call setting)
    (hedit : Edited (splitTwo key) setting [] new) (hrecord : Renderable r sys.floatText new)
    (name : String) :
    content sys dir (some (name, .text (renderJsoncConfig sys.floatText (.object new)))) ≠ none := by
  by_cases hplain : ∀ name ∈ fieldKeys new, Plain name
  · rw [content_rendering lib hrecord hplain]
    exact Option.some_ne_none _
  · obtain ⟨path, value, hpath, hbeside, hescape⟩ := exists_beside hchange hedit hrecord.1.1 hplain
    have hempty := (valueAt_beside hedit hbeside).mp hpath
    cases hbeside with
    | other name path _ _ => cases hempty
    | member name path _ _ => cases hempty
    | whole _ _ _ => cases hempty

end Reading

/-! ## When nothing is lost -/

section Keeping

variable {L : Type} {sys : System L} {left : L → Option File} {r : Reader} {dir : Path} {key : String}
  {call : Call} {before after : Option (String × File)} {old record : List (String × Json)}
  {setting : Option Json} {json : Json} {result : Except String Unit}

theorem content_some (h : content sys dir before = some json) :
    ∃ name raw, before = some (name, .text raw) := by
  cases before with
  | none => cases h
  | some found =>
    obtain ⟨name, file⟩ := found
    cases file with
    | unreadable => cases h
    | text raw => exact ⟨name, raw, rfl⟩

/-- The sparse config is what was read, and empty where nothing was. -/
theorem content_cases (lib : Library sys r) (disk : Disk L) (dir : Path) :
    content sys dir (existingConfig (disk (sys.locate dir))) =
        some (.object (readSparseConfig sys disk dir)) ∨
      content sys dir (existingConfig (disk (sys.locate dir))) = none ∧
        readSparseConfig sys disk dir = [] := by
  unfold readSparseConfig
  cases hcontent : content sys dir (existingConfig (disk (sys.locate dir))) with
  | none =>
    refine .inr ⟨rfl, ?_⟩
    split
    · next name raw hfile =>
      rw [hfile, content] at hcontent
      cases hparse : parseJsoncConfig sys.fromStr raw (dir.join name).display with
      | error e => rfl
      | ok value =>
        rw [hparse] at hcontent
        cases hcontent
    · rfl
  | some json =>
    left
    obtain ⟨name, raw, hfile⟩ := content_some hcontent
    rw [hfile] at hcontent ⊢
    obtain ⟨hread, hobject⟩ := (content_eq_some lib).mp hcontent
    cases json with
    | object fields =>
      have hparse := (@parseJsoncConfig_iff r sys.fromStr raw (dir.join name).display _ lib.parses).mpr
        ⟨hread, hobject⟩
      dsimp only
      rw [hparse]
    | _ => cases hobject

/-- Numbers that were read are read again, where doubles are. -/
theorem keeps_content (lib : Library sys r) (hcontent : content sys dir before = some json)
    (hfloats : ∀ q, .float q ∈ numbers json → Keeps r sys.floatText (.float q)) :
    Ordered json ∧ ∀ n ∈ numbers json, Keeps r sys.floatText n := by
  obtain ⟨name, raw, rfl⟩ := content_some hcontent
  obtain ⟨hread, -⟩ := (content_eq_some lib).mp hcontent
  refine ⟨ordered_of_read hread, fun n hn => ?_⟩
  obtain ⟨word, hword⟩ := numbers_of_read hread n hn
  cases n with
  | posInt n => exact keeps_posInt lib.integers n
  | negInt n => exact keeps_negInt lib.integers (lib.negative word n hword)
  | float q => exact hfloats q hn

theorem guarded_torn (hrefused : ¬ Refused key before call)
    (hcreate : sys.createDirAll (sys.locate dir) = .ok ()) {e : String} {file : File}
    (hwrite : sys.write (sys.locate dir) = .error e) (hleft : left (sys.locate dir) = some file) :
    Guarded sys left call key dir before ↔ before = some ("config.jsonc", file) := by
  unfold Guarded Stops
  simp [hrefused, hcreate, hwrite, hleft]

theorem guarded_written (hrefused : ¬ Refused key before call)
    (hcreate : sys.createDirAll (sys.locate dir) = .ok ())
    (hwrite : sys.write (sys.locate dir) = .ok ()) : Guarded sys left call key dir before ↔
      (∀ file, before = some ("config.json", file) → sys.rename (sys.locate dir) = .ok ()) ∧
        (before = none ∨ Safe sys call key dir before) := by
  unfold Guarded Stops
  simp [hrefused, hcreate, hwrite]

/-- A file is replaced by a record without loss if and only if there was none, or it was safe. -/
theorem replaced_iff (lib : Library sys r)
    (hold : content sys dir before = some (.object old) ∨ content sys dir before = none ∧ old = [])
    (hfloats : ∀ q, .float q ∈ numbers (.object old) → Keeps r sys.floatText (.float q))
    (hchange : Change key call setting) (hedit : Edited (splitTwo key) setting old record)
    (hrecord : Renderable r sys.floatText record) :
    Kept sys dir call key before
        (some ("config.jsonc", .text (renderJsoncConfig sys.floatText (.object record)))) (.ok ()) ↔
      before = none ∨ Safe sys call key dir before := by
  rcases hold with hcontent | ⟨hcontent, rfl⟩
  · obtain ⟨hordered, hkeeps⟩ := keeps_content lib hcontent hfloats
    have hothers := @keepsOthers_iff L sys r dir key call setting old record lib hkeeps hordered
      hchange hedit hrecord "config.jsonc"
    constructor
    · rintro ⟨-, hkept⟩
      exact .inr ⟨_, hcontent, hothers.mp (hkept _ hcontent)⟩
    · rintro (rfl | ⟨json, hjson, hsurvive⟩)
      · cases hcontent
      · obtain rfl := Option.some.inj (hcontent.symm.trans hjson)
        refine ⟨fun _ hnone => ?_, fun json hjson => ?_⟩
        · rw [hcontent] at hnone
          cases hnone
        · obtain rfl := Option.some.inj (hcontent.symm.trans hjson)
          exact hothers.mpr hsurvive
  · constructor
    · rintro ⟨hbroken, -⟩
      left
      by_contra hsome
      have hsame := hbroken (Option.isSome_iff_ne_none.mpr hsome) hcontent
      rw [← hsame] at hcontent
      exact content_fresh lib hchange hedit hrecord "config.jsonc" hcontent
    · rintro (rfl | ⟨json, hjson, -⟩)
      · exact ⟨nofun, nofun⟩
      · rw [hcontent] at hjson
        cases hjson

/-- A record is stored over what it was made from without loss if and only if that is guarded. -/
theorem kept_iff (lib : Library sys r) (hrefused : ¬ Refused key before call)
    (hold : content sys dir before = some (.object old) ∨ content sys dir before = none ∧ old = [])
    (hfloats : ∀ q, .float q ∈ numbers (.object old) → Keeps r sys.floatText (.float q))
    (hchange : Change key call setting) (hedit : Edited (splitTwo key) setting old record)
    (hrecord : Renderable r sys.floatText record)
    (h : Stored sys left dir (.object record) before result after) :
    Kept sys dir call key before after result ↔ Guarded sys left call key dir before := by
  cases h with
  | kept e hfails => exact iff_of_true rfl (.inl (.inr hfails))
  | torn e file hcreate hwrite hleft =>
    rw [guarded_torn hrefused hcreate hwrite hleft]
    exact eq_comm
  | stranded e message file hcreate hwrite hlegacy hrename =>
    rw [guarded_written hrefused hcreate hwrite]
    refine iff_of_false (fun hsame => ?_) fun hguarded => ?_
    · have hname := congrArg Prod.fst (Option.some.inj (Eq.trans hsame hlegacy))
      exact absurd hname (by simp)
    · rw [hguarded.1 file hlegacy] at hrename
      cases hrename
  | done hcreate hwrite hlegacy =>
    rw [guarded_written hrefused hcreate hwrite, and_iff_right hlegacy]
    exact replaced_iff lib hold hfloats hchange hedit hrecord

end Keeping

/-- A setting is set or removed without loss if and only if nothing is written, a write that fails
changes nothing, or nothing fails and the file is new or safe. -/
theorem keeps_settings_iff {L : Type} [DecidableEq L] (sys : System L) (r : Reader)
    (lib : Library sys r) (left : L → Option File) (env : Env) (cwd : Path) (key : String)
    (scope : WriteScope) (disk : Disk L) (call : Call) (dir : Path)
    (hdir : dir = resolveWriteDirForKey sys env cwd key scope disk)
    (hfloats : ∀ q, .float q ∈ numbers (.object (readSparseConfig sys disk dir)) →
      Keeps r sys.floatText (.float q))
    (hfloat : ∀ text q, call = .write text →
      coerceConfigValueFromSettings key text = .ok (.number (.float q)) →
        Keeps r sys.floatText (.float q)) :
    Kept sys dir call key (existingConfig (disk (sys.locate dir)))
        (existingConfig ((call.run sys left env cwd key scope disk).2 (sys.locate dir)))
        (call.run sys left env cwd key scope disk).1 ↔
      Guarded sys left call key dir (existingConfig (disk (sys.locate dir))) := by
  rcases run_cases lib left env cwd scope disk call hfloat hdir with
    ⟨hrefused, result, hrun, hnone⟩ | ⟨hrefused, setting, record, hchange, hedit, hrecord, hrun⟩
  · rw [hrun]
    refine iff_of_true ?_ (.inl (.inl hrefused))
    cases result with
    | error e => rfl
    | ok _ =>
      rw [hnone rfl]
      exact ⟨nofun, nofun⟩
  · rw [hrun]
    exact kept_iff lib hrefused (content_cases lib disk dir) hfloats hchange hedit hrecord stored_store

section

/-- The global config has a text in it. -/
def fileDisk (raw : List Char) : Disk Path := fun place =>
  if place = getClimonHome homeEnv then { canonical := some (.text raw) } else {}

theorem existing_fileDisk (raw : List Char) :
    existingConfig (fileDisk raw (plainSystem.locate (getClimonHome homeEnv))) =
      some ("config.jsonc", .text raw) := by
  change existingConfig (fileDisk raw (getClimonHome homeEnv)) = _
  rw [fileDisk, if_pos rfl]
  rfl

/-- A flag is no double. -/
theorem keeps_pinned (text : String) (q : Rat) (hcall : Call.write "true" = .write text)
    (hcoerced : coerceConfigValueFromSettings "dashboard.keyBarPinned" text =
      .ok (.number (.float q))) : Keeps integers plainSystem.floatText (.float q) := by
  obtain rfl := Call.write.inj hcall
  cases Except.ok.inj (coerce_pinned.symm.trans hcoerced)

theorem content_one : content plainSystem (getClimonHome homeEnv)
    (some ("config.jsonc", .text "\x7b\"a\":1\x7d".toList)) =
      some (.object [("a", .number (.posInt 1))]) := by
  rw [content_eq_some library_plainSystem]
  have hlex : lex .nothing "\x7b\"a\":1\x7d".toList = some [.mark .openObject,
      .string ['a'], .mark .colon, .word ['1'], .mark .closeObject] := by decide
  have hkey : readString ['a'] = some "a" := readString_escape "a"
  have hname : integers.step (.firstKey []) (.string ['a']) = some (.colon [] "a" []) := by
    simp only [Reader.step, hkey, Option.map_some]
  have hnumber : integers.readWord ['1'] = some (.number (.posInt 1)) := rfl
  have hvalue : integers.step (.value [.object [] "a"]) (.word ['1']) =
      some (.after (.number (.posInt 1)) [.object [] "a"]) := by
    simp only [Reader.step, Reader.startValue, hnumber, Option.map_some]
  have hopen : integers.step (.value []) (.mark .openObject) = some (.firstKey []) := rfl
  refine ⟨?_, rfl⟩
  rw [Reader.read, hlex]
  simp only [Option.bind_some, Reader.parse, Reader.run_parser_cons, hopen, hname, hvalue,
    show integers.step (.colon [] "a" []) (.mark .colon) = some (.value [.object [] "a"]) from rfl]
  rfl

theorem one_survives : OthersSurvive (.write "true") "dashboard.keyBarPinned"
    (.object [("a", .number (.posInt 1))]) := by
  have hplace : place "dashboard.keyBarPinned" = ["dashboard", "keyBarPinned"] := by
    rw [place, splitTwo, split_pinned]
    rfl
  rintro path value hpath ⟨-, haround, -⟩
  cases path with
  | nil =>
    obtain rfl := Option.some.inj hpath
    cases haround List.nil_prefix
  | cons name path =>
    obtain ⟨inner, hget, hinner⟩ := valueAt_cons hpath
    obtain ⟨fields, heq, hfield⟩ := mem_of_get? hget
    obtain rfl := Json.object.inj heq
    obtain ⟨rfl, rfl⟩ := Prod.mk.inj (List.mem_singleton.mp hfield)
    cases path with
    | nil =>
      obtain rfl := Option.some.inj hinner
      refine ⟨?_, List.forall_mem_singleton.mpr (plain_literal rfl rfl), ?_⟩
      · rintro (⟨rest, hrest⟩ | ⟨-, heq, -⟩)
        · rw [hplace] at hrest
          exact absurd (List.cons.inj hrest).1 (by decide)
        · rw [splitTwo, split_pinned] at heq
          exact absurd (List.cons.inj heq).1 (by decide)
      · rintro n hn
        obtain rfl := Json.number.inj hn
        simp [Cut]
    | cons next path => cases hinner

theorem one_kept : Kept plainSystem (getClimonHome homeEnv) (.write "true") "dashboard.keyBarPinned"
    (existingConfig (fileDisk "\x7b\"a\":1\x7d".toList (plainSystem.locate (getClimonHome homeEnv))))
    (existingConfig (((Call.write "true").run plainSystem (fun _ => none) homeEnv homeEnv.home
      "dashboard.keyBarPinned" .global (fileDisk "\x7b\"a\":1\x7d".toList)).2
        (plainSystem.locate (getClimonHome homeEnv))))
    ((Call.write "true").run plainSystem (fun _ => none) homeEnv homeEnv.home "dashboard.keyBarPinned"
      .global (fileDisk "\x7b\"a\":1\x7d".toList)).1 := by
  have hfile := existing_fileDisk "\x7b\"a\":1\x7d".toList
  have hcontent := content_one
  rw [← hfile] at hcontent
  have hfields : Json.object (readSparseConfig plainSystem (fileDisk "\x7b\"a\":1\x7d".toList)
      (getClimonHome homeEnv)) = .object [("a", .number (.posInt 1))] := by
    rcases content_cases library_plainSystem (fileDisk "\x7b\"a\":1\x7d".toList)
      (getClimonHome homeEnv) with hread | ⟨hnone, -⟩
    · exact Option.some.inj (hread.symm.trans hcontent)
    · rw [hcontent] at hnone
      cases hnone
  refine (keeps_settings_iff plainSystem integers library_plainSystem (fun _ => none) homeEnv
    homeEnv.home "dashboard.keyBarPinned" .global (fileDisk "\x7b\"a\":1\x7d".toList) (.write "true")
    (getClimonHome homeEnv) rfl ?_ ?_).mpr (.inr (.inr ⟨rfl, fun _ _ => rfl, .inr ?_⟩))
  · intro q hq
    rw [hfields] at hq
    cases List.mem_singleton.mp hq
  · exact keeps_pinned
  · exact ⟨_, hcontent, one_survives⟩

theorem content_torn : content plainSystem (getClimonHome homeEnv)
    (existingConfig (fileDisk [] (plainSystem.locate (getClimonHome homeEnv)))) = none := by
  rw [existing_fileDisk, Option.eq_none_iff_forall_not_mem]
  intro json hjson
  cases ((content_eq_some library_plainSystem).mp hjson).1

theorem read_torn : readSparseConfig plainSystem (fileDisk []) (getClimonHome homeEnv) = [] := by
  rcases content_cases library_plainSystem (fileDisk []) (getClimonHome homeEnv) with
    hread | ⟨-, hread⟩
  · rw [content_torn] at hread
    cases hread
  · exact hread

/-- An empty file is as good as none, and is replaced. -/
theorem torn_replaced :
    ¬ ∀ (L : Type) [DecidableEq L] (sys : System L) (r : Reader), Library sys r →
      ∀ (left : L → Option File) (env : Env) (cwd : Path) (key : String) (scope : WriteScope)
        (disk : Disk L) (call : Call) (dir : Path),
        dir = resolveWriteDirForKey sys env cwd key scope disk →
        (∀ q, .float q ∈ numbers (.object (readSparseConfig sys disk dir)) →
          Keeps r sys.floatText (.float q)) →
        (∀ text q, call = .write text →
          coerceConfigValueFromSettings key text = .ok (.number (.float q)) →
            Keeps r sys.floatText (.float q)) →
          Kept sys dir call key (existingConfig (disk (sys.locate dir)))
            (existingConfig ((call.run sys left env cwd key scope disk).2 (sys.locate dir)))
            (call.run sys left env cwd key scope disk).1 := by
  intro h
  have hfloats : ∀ q, .float q ∈ numbers (.object (readSparseConfig plainSystem (fileDisk [])
      (getClimonHome homeEnv))) → Keeps integers plainSystem.floatText (.float q) := by
    rw [read_torn]
    exact nofun
  have hkept := h Path plainSystem integers library_plainSystem (fun _ => none) homeEnv homeEnv.home
    "dashboard.keyBarPinned" .global (fileDisk []) (.write "true") (getClimonHome homeEnv) rfl hfloats
    keeps_pinned
  have hdir : getClimonHome homeEnv = resolveWriteDirForKey plainSystem homeEnv homeEnv.home
      "dashboard.keyBarPinned" .global (fileDisk []) := rfl
  rcases run_cases library_plainSystem (fun _ => none) homeEnv homeEnv.home .global (fileDisk [])
    (.write "true") keeps_pinned hdir with
    ⟨⟨e, he⟩, -⟩ | ⟨hrefused, setting, record, hchange, hedit, hrecord, hrun⟩
  · rw [coerce_pinned] at he
    cases he
  · rw [hrun] at hkept
    have hguarded := (kept_iff library_plainSystem hrefused (.inr ⟨content_torn, read_torn⟩) hfloats hchange
      hedit hrecord stored_store).mp hkept
    rw [guarded_written hrefused rfl rfl] at hguarded
    rcases hguarded.2 with hbefore | ⟨json, hjson, -⟩
    · rw [existing_fileDisk] at hbefore
      cases hbefore
    · rw [content_torn] at hjson
      cases hjson

end

end Climon.Config.KeptSettings
