import Climon.Config.SettingPaths

namespace Climon.Config.SettingWrites

open Climon.Config.Cascade (Disk Env File Folder Path System WriteScope existingConfig readSparseConfig
  resolveWriteDirForKey split splitTwo withSetting writeSparseConfig)
open Climon.Config.CommentStripping Climon.Config.EscapedKeys Climon.Config.ReadYourWrite
  Climon.Config.Rendering Climon.Config.RoundTrip Climon.Config.SettingPaths Climon.Config.Settings
open Climon.Lib Climon.Lib.JsonBounds Climon.Lib.JsonOccurrences Climon.Lib.JsonPrint
  Climon.Lib.JsonText Climon.Lib.JsonValue

/-!
# Setting and removing a setting

To change one setting a config is read, changed and written whole.
-/

/-! ## Calls -/

section Calls

variable {L : Type} [DecidableEq L] (sys : System L) (left : L → Option File) (env : Env) (cwd : Path)
  (key : String) (scope : WriteScope) (disk : Disk L)

/-- As `writeSparseConfig`, with the disk also where it fails. A write that fails leaves something in
the file, if it has opened it. -/
def storeSparseConfig (dir : Path) (record : Json) : Except String Unit × Disk L :=
  let place := sys.locate dir
  let folder := disk place
  match sys.createDirAll place with
  | .error e => (.error e, disk)
  | .ok _ =>
    match sys.write place with
    | .error e =>
      match left place with
      | some file => (.error e, Function.update disk place { folder with canonical := some file })
      | none => (.error e, disk)
    | .ok _ =>
      let written :=
        { folder with canonical := some (.text (renderJsoncConfig sys.floatText record)) }
      if folder.legacy.isSome && folder.canonical.isNone then
        match sys.rename place with
        | .error e =>
          (.error ("Wrote " ++ (dir.join "config.jsonc").display ++ " but failed to back up legacy " ++
            (dir.join "config.json").display ++ " to " ++ (dir.join "config.json.bak").display ++
            ": " ++ e), Function.update disk place written)
        | .ok _ =>
          (.ok (), Function.update disk place { written with legacy := none, backup := folder.legacy })
      else (.ok (), Function.update disk place written)

/-- Only what has fields loses one, and goes itself with the last. -/
def withoutSetting (obj : List (String × Json)) (names : String × String) : List (String × Json) :=
  match obj.lookup names.1 with
  | some (.object fields) =>
    let entry := fields.filter fun field => field.1 != names.2
    if entry.isEmpty then obj.filter fun field => field.1 != names.1
    else insertField obj names.1 (.object entry)
  | _ => obj

inductive Call where
  | write (value : String)
  | unset
  deriving DecidableEq, Repr

def writeConfigSetting (value : String) : Except String Unit × Disk L :=
  let dir := resolveWriteDirForKey sys env cwd key scope disk
  let current := readSparseConfig sys disk dir
  match coerceConfigValueFromSettings key value with
  | .error e => (.error e, disk)
  | .ok coerced =>
    storeSparseConfig sys left disk dir (.object (withSetting current (splitTwo key) coerced))

def unsetConfigSetting : Except String Unit × Disk L :=
  let dir := resolveWriteDirForKey sys env cwd key scope disk
  if (existingConfig (disk (sys.locate dir))).isNone then (.ok (), disk)
  else
    let current := readSparseConfig sys disk dir
    storeSparseConfig sys left disk dir (.object (withoutSetting current (splitTwo key)))

def Call.run : Call → Except String Unit × Disk L
  | .write value => writeConfigSetting sys left env cwd key scope disk value
  | .unset => unsetConfigSetting sys left env cwd key scope disk

end Calls

section Results

variable {L : Type} [DecidableEq L] {sys : System L} {left : L → Option File} {env : Env}
  {cwd dir : Path} {key : String} {scope : WriteScope} {disk : Disk L} {record : Json}

/-- The result of a call, without the disk that a failure leaves. -/
def succeeded {α : Type} : Except String Unit × α → Except String α
  | (.ok _, disk) => .ok disk
  | (.error e, _) => .error e

theorem succeeded_store : succeeded (storeSparseConfig sys left disk dir record) =
    writeSparseConfig sys disk dir record := by
  unfold storeSparseConfig writeSparseConfig
  dsimp only
  cases sys.createDirAll (sys.locate dir) with
  | error e => rfl
  | ok _ =>
    cases sys.write (sys.locate dir) with
    | error e =>
      cases left (sys.locate dir) with
      | none => rfl
      | some file => rfl
    | ok _ =>
      dsimp only
      split
      · cases sys.rename (sys.locate dir) with
        | error e => rfl
        | ok _ => rfl
      · rfl

/-- But for failures this is the write of the cascade. -/
theorem succeeded_write (value : String) :
    (succeeded (writeConfigSetting sys left env cwd key scope disk value)).map
        (resolveWriteDirForKey sys env cwd key scope disk, ·) =
      Cascade.writeConfigSetting sys env cwd key scope disk value := by
  unfold writeConfigSetting Cascade.writeConfigSetting
  dsimp only
  cases coerceConfigValueFromSettings key value with
  | error e => rfl
  | ok coerced =>
    dsimp only
    rw [succeeded_store]
    change _ = (writeSparseConfig sys disk _ _ >>= _)
    generalize writeSparseConfig sys disk _ _ = stored
    cases stored with
    | error e => rfl
    | ok disk' => rfl

end Results

/-! ## What a call comes to -/

section Outcomes

variable {L : Type} [DecidableEq L] {sys : System L} {left : L → Option File} {env : Env}
  {cwd dir : Path} {key : String} {scope : WriteScope} {disk : Disk L} {record : Json}

/-- The result of storing a record, and the config file before and after. -/
inductive Stored (sys : System L) (left : L → Option File) (dir : Path) (record : Json)
    (before : Option (String × File)) : Except String Unit → Option (String × File) → Prop
  | kept (e : String) (h : (∃ e, sys.createDirAll (sys.locate dir) = .error e) ∨
      (∃ e, sys.write (sys.locate dir) = .error e) ∧ left (sys.locate dir) = none) :
      Stored sys left dir record before (.error e) before
  | torn (e : String) (file : File) (hcreate : sys.createDirAll (sys.locate dir) = .ok ())
      (hwrite : sys.write (sys.locate dir) = .error e) (hleft : left (sys.locate dir) = some file) :
      Stored sys left dir record before (.error e) (some ("config.jsonc", file))
  | stranded (e message : String) (file : File)
      (hcreate : sys.createDirAll (sys.locate dir) = .ok ())
      (hwrite : sys.write (sys.locate dir) = .ok ()) (hlegacy : before = some ("config.json", file))
      (hrename : sys.rename (sys.locate dir) = .error e) :
      Stored sys left dir record before (.error message)
        (some ("config.jsonc", .text (renderJsoncConfig sys.floatText record)))
  | done (hcreate : sys.createDirAll (sys.locate dir) = .ok ())
      (hwrite : sys.write (sys.locate dir) = .ok ())
      (hlegacy : ∀ file, before = some ("config.json", file) → sys.rename (sys.locate dir) = .ok ()) :
      Stored sys left dir record before (.ok ())
        (some ("config.jsonc", .text (renderJsoncConfig sys.floatText record)))

theorem existingConfig_legacy {folder : Folder} {file : File}
    (h : existingConfig folder = some ("config.json", file)) :
    folder.canonical = none ∧ folder.legacy = some file := by
  unfold existingConfig at h
  split at h
  · simp at h
  · next hcanonical =>
    obtain ⟨legacy, hlegacy, heq⟩ := Option.map_eq_some_iff.mp h
    obtain ⟨-, rfl⟩ := Prod.mk.inj heq
    exact ⟨hcanonical, hlegacy⟩

theorem stored_store : Stored sys left dir record (existingConfig (disk (sys.locate dir)))
    (storeSparseConfig sys left disk dir record).1
    (existingConfig ((storeSparseConfig sys left disk dir record).2 (sys.locate dir))) := by
  unfold storeSparseConfig
  dsimp only
  cases hcreate : sys.createDirAll (sys.locate dir) with
  | error e => exact .kept e (.inl ⟨e, hcreate⟩)
  | ok _ =>
    cases hwrite : sys.write (sys.locate dir) with
    | error e =>
      cases hleft : left (sys.locate dir) with
      | none => exact .kept e (.inr ⟨⟨e, hwrite⟩, hleft⟩)
      | some file =>
        dsimp only
        rw [Function.update_self]
        exact .torn e file hcreate hwrite hleft
    | ok _ =>
      dsimp only
      split
      · next hmigrate =>
        rw [Bool.and_eq_true, Option.isSome_iff_exists, Option.isNone_iff_eq_none] at hmigrate
        obtain ⟨⟨legacy, hlegacy⟩, hcanonical⟩ := hmigrate
        have hbefore : existingConfig (disk (sys.locate dir)) = some ("config.json", legacy) := by
          rw [existingConfig, hcanonical, hlegacy]
          rfl
        cases hrename : sys.rename (sys.locate dir) with
        | error e =>
          dsimp only
          rw [Function.update_self]
          exact .stranded e _ legacy hcreate hwrite hbefore hrename
        | ok _ =>
          dsimp only
          rw [Function.update_self]
          exact .done hcreate hwrite fun _ _ => hrename
      · next hstay =>
        dsimp only
        rw [Function.update_self]
        refine .done hcreate hwrite fun file hbefore => absurd ?_ hstay
        obtain ⟨hcanonical, hlegacy⟩ := existingConfig_legacy hbefore
        rw [hcanonical, hlegacy]
        rfl

end Outcomes

/-! ## The record that is written -/

/-- One setting of a record changed. The second has the value, or nothing. -/
structure Edited (names : String × String) (setting : Option Json) (old new : List (String × Json)) :
    Prop where
  other : ∀ name, name ≠ names.1 → new.lookup name = old.lookup name
  member : ∀ name, name ≠ names.2 →
    (new.lookup names.1).bind (·.get? name) = (old.lookup names.1).bind (·.get? name)
  setting_eq : (new.lookup names.1).bind (·.get? names.2) = setting
  whole : ∀ value, value.isObject = false →
    (new.lookup names.1 = some value ↔ setting = none ∧ old.lookup names.1 = some value)
  occupied : setting = none → ∀ entry, new.lookup names.1 = some (.object entry) →
    ∃ name, name ≠ names.2 ∧ (entry.lookup name).isSome = true

section Records

variable {names : String × String} {fields old new : List (String × Json)} {value : Json}
  {setting : Option Json} {name : String} {path : List String} {r : Reader}
  {floatText : Rat → List Char} {d : Nat}

theorem lookup_sectionOf :
    (sectionOf fields names.1).lookup name = (fields.lookup names.1).bind (·.get? name) := by
  unfold sectionOf
  split
  · next entry hlookup =>
    rw [hlookup]
    rfl
  · next hnone =>
    cases hlookup : fields.lookup names.1 with
    | none => rfl
    | some inner =>
      cases inner with
      | object entry => exact absurd hlookup (hnone entry)
      | _ => rfl

theorem edited_withSetting : Edited names (some value) fields (withSetting fields names value) := by
  have hsection : (withSetting fields names value).lookup names.1 =
      some (.object (insertField (sectionOf fields names.1) names.2 value)) := by
    rw [withSetting_eq, lookup_insertField, if_pos rfl]
  refine ⟨fun name hname => ?_, fun name hname => ?_, ?_, fun other hother => ?_, nofun⟩
  · rw [withSetting_eq, lookup_insertField, if_neg hname]
  · rw [hsection, Option.bind_some, Json.get?, lookup_insertField, if_neg hname, lookup_sectionOf]
  · rw [hsection, Option.bind_some, Json.get?, lookup_insertField, if_pos rfl]
  · rw [hsection]
    constructor
    · intro heq
      obtain rfl := Option.some.inj heq
      cases hother
    · rintro ⟨heq, -⟩
      cases heq

section Removing

variable {entry : List (String × Json)}

theorem lookup_object (hentry : fields.lookup names.1 = some (.object entry))
    (hvalue : value.isObject = false) : fields.lookup names.1 ≠ some value := by
  intro hlookup
  obtain rfl := Option.some.inj (hentry.symm.trans hlookup)
  cases hvalue

theorem member_entry (hentry : fields.lookup names.1 = some (.object entry)) (hname : name ≠ names.2) :
    (fields.lookup names.1).bind (·.get? name) =
      (entry.filter fun field => field.1 != names.2).lookup name := by
  rw [hentry, Option.bind_some, Json.get?, AssocList.lookup_filter_ne hname]

/-- With its last field a section goes. -/
theorem edited_gone (hentry : fields.lookup names.1 = some (.object entry))
    (hempty : (entry.filter fun field => field.1 != names.2) = []) :
    Edited names none fields (fields.filter fun field => field.1 != names.1) := by
  have hgone := AssocList.lookup_filter_self fields names.1
  refine ⟨fun name => AssocList.lookup_filter_ne, fun name hname => ?_, ?_, fun value hvalue => ?_,
    fun _ other hother => ?_⟩
  · rw [hgone, member_entry hentry hname, hempty]
    rfl
  · rw [hgone]
    rfl
  · rw [hgone]
    exact iff_of_false nofun fun h => lookup_object hentry hvalue h.2
  · rw [hgone] at hother
    cases hother

theorem edited_shrunk (hentry : fields.lookup names.1 = some (.object entry))
    (hfilter : (entry.filter fun field => field.1 != names.2) ≠ []) :
    Edited names none fields (insertField fields names.1
      (.object (entry.filter fun field => field.1 != names.2))) := by
  have hsection : (insertField fields names.1 (.object
      (entry.filter fun field => field.1 != names.2))).lookup names.1 =
        some (.object (entry.filter fun field => field.1 != names.2)) := by
    rw [lookup_insertField, if_pos rfl]
  refine ⟨fun name hname => ?_, fun name hname => ?_, ?_, fun value hvalue => ?_,
    fun _ other hother => ?_⟩
  · rw [lookup_insertField, if_neg hname]
  · rw [hsection, member_entry hentry hname]
    rfl
  · rw [hsection]
    exact AssocList.lookup_filter_self entry names.2
  · exact iff_of_false (lookup_object hsection hvalue) fun h => lookup_object hentry hvalue h.2
  · obtain rfl := Json.object.inj (Option.some.inj (hsection.symm.trans hother))
    obtain ⟨field, hfield⟩ := List.exists_mem_of_ne_nil _ hfilter
    refine ⟨field.1, bne_iff_ne.mp (List.mem_filter.mp hfield).2, ?_⟩
    rw [AssocList.isSome_lookup_iff]
    exact List.mem_map_of_mem hfield

/-- What is no section has no fields to remove. -/
theorem edited_same (h : ∀ entry, fields.lookup names.1 ≠ some (.object entry)) :
    Edited names none fields fields := by
  refine ⟨fun _ _ => rfl, fun _ _ => rfl, ?_, fun _ _ => (and_iff_right rfl).symm,
    fun _ entry hentry => absurd hentry (h entry)⟩
  cases hlookup : fields.lookup names.1 with
  | none => rfl
  | some value =>
    cases value with
    | object entry => exact absurd hlookup (h entry)
    | _ => rfl

theorem edited_withoutSetting : Edited names none fields (withoutSetting fields names) := by
  unfold withoutSetting
  split
  · next entry hentry =>
    dsimp only
    split
    · next hempty => exact edited_gone hentry (List.isEmpty_iff.mp hempty)
    · next hempty => exact edited_shrunk hentry fun hnil => hempty (List.isEmpty_iff.mpr hnil)
  · next hobject => exact edited_same hobject

end Removing

/-- Read back from its rendering, where its keys need no escape. -/
def Renderable (r : Reader) (floatText : Rat → List Char) (fields : List (String × Json)) : Prop :=
  Sound r floatText (.object fields) ∧ ∀ d ∈ r.depth, (Json.object fields).nesting ≤ d

theorem FieldsHold.filter {P : Json → Prop} {p : String × Json → Bool} (h : FieldsHold P fields) :
    FieldsHold P (fields.filter p) :=
  ⟨h.1.filter _, fun field hfield => h.2 field (List.mem_of_mem_filter hfield)⟩

theorem sound_withoutSetting (h : Sound r floatText (.object fields)) :
    Sound r floatText (.object (withoutSetting fields names)) := by
  rw [sound_object] at h ⊢
  unfold withoutSetting
  split
  · next entry hentry =>
    have hsection := sound_object.mp (h.2 _ (AssocList.mem_of_lookup hentry))
    dsimp only
    split
    · exact FieldsHold.filter h
    · exact h.insert (sound_object.mpr (FieldsHold.filter hsection))
  · exact h

theorem nestingFields_filter {p : String × Json → Bool} :
    Json.nestingFields (fields.filter p) ≤ Json.nestingFields fields := by
  rw [Json.nestingFields_le_iff]
  intro field hfield
  exact Json.nestingFields_le_iff.mp (Nat.le_refl _) field (List.mem_of_mem_filter hfield)

theorem nesting_withoutSetting (h : (Json.object fields).nesting ≤ d) :
    (Json.object (withoutSetting fields names)).nesting ≤ d := by
  unfold withoutSetting
  split
  · next entry hentry =>
    have hsection : Json.nestingFields entry + 1 ≤ Json.nestingFields fields :=
      Json.nestingFields_le_iff.mp (Nat.le_refl _) _ (AssocList.mem_of_lookup hentry)
    have hfilter := @nestingFields_filter entry fun field => field.1 != names.2
    rw [Json.nesting] at h
    dsimp only
    split
    · have hrest := @nestingFields_filter fields fun field => field.1 != names.1
      rw [Json.nesting]
      omega
    · have hinsert := @nestingFields_insert
        (.object (entry.filter fun field => field.1 != names.2)) fields names.1
      simp only [Json.nesting] at hinsert ⊢
      omega
  · exact h

end Records

/-! ## What a call writes -/

/-- There is nothing to write. -/
def Refused (key : String) (before : Option (String × File)) : Call → Prop
  | .write value => ∃ e, coerceConfigValueFromSettings key value = .error e
  | .unset => before = none

/-- The value that a call leaves at its key. -/
inductive Change (key : String) : Call → Option Json → Prop
  | removed : Change key .unset none
  | set {text : String} {value : Json} (h : coerceConfigValueFromSettings key text = .ok value) :
    Change key (.write text) (some value)

section Changing

variable {L : Type} [DecidableEq L] {sys : System L} {key : String} {r : Reader}

/-- A call writes nothing, or stores a record with its key changed. -/
theorem run_cases (lib : Library sys r) (left : L → Option File) (env : Env) (cwd : Path)
    (scope : WriteScope) (disk : Disk L) (call : Call)
    (hfloat : ∀ text q, call = .write text →
      coerceConfigValueFromSettings key text = .ok (.number (.float q)) →
        Keeps r sys.floatText (.float q)) {dir : Path}
    (hdir : dir = resolveWriteDirForKey sys env cwd key scope disk) :
    (Refused key (existingConfig (disk (sys.locate dir))) call ∧
        ∃ result, call.run sys left env cwd key scope disk = (result, disk) ∧
          (result = .ok () → existingConfig (disk (sys.locate dir)) = none)) ∨
      ¬ Refused key (existingConfig (disk (sys.locate dir))) call ∧
        ∃ setting record, Change key call setting ∧
          Edited (splitTwo key) setting (readSparseConfig sys disk dir) record ∧
          Renderable r sys.floatText record ∧
          call.run sys left env cwd key scope disk =
            storeSparseConfig sys left disk dir (.object record) := by
  obtain ⟨hsound, hdepth⟩ := sound_readSparseConfig lib disk dir
  cases call with
  | write text =>
    rw [Call.run, writeConfigSetting, ← hdir]
    cases hcoerced : coerceConfigValueFromSettings key text with
    | error e => exact .inl ⟨⟨e, hcoerced⟩, .error e, rfl, nofun⟩
    | ok value =>
      right
      obtain ⟨hordered, -, hnesting, -⟩ := scalar_coerced hcoerced
      have hnumbers := keeps_coerced lib hcoerced fun q hq => hfloat text q rfl (hq ▸ hcoerced)
      refine ⟨?_, some value, _, .set hcoerced, edited_withSetting, ⟨?_, fun d hd => ?_⟩, rfl⟩
      · rintro ⟨e, he⟩
        rw [hcoerced] at he
        cases he
      · exact sound_withSetting hsound ⟨hordered, fun n hn => (hnumbers n hn).rereads⟩
      · exact nesting_withSetting (lib.depth d hd) (hdepth d hd) hnesting
  | unset =>
    rw [Call.run, unsetConfigSetting, ← hdir]
    cases hbefore : existingConfig (disk (sys.locate dir)) with
    | none => exact .inl ⟨rfl, .ok (), rfl, fun _ => rfl⟩
    | some file =>
      right
      exact ⟨nofun, none, _, .removed, edited_withoutSetting,
        ⟨sound_withoutSetting hsound, fun d hd => nesting_withoutSetting (hdepth d hd)⟩, rfl⟩

end Changing

end Climon.Config.SettingWrites
