import Climon.Config.SettingWrites
import Climon.Lib.Selection
import Climon.Store.Timestamps

namespace Climon.Update.Notices

open Climon.Config
open Climon.Config.Cascade (Disk Env File Path System WriteScope existingConfig getClimonHome
  readDottedKey readGlobalConfigSetting readSparseConfig resolveWriteDirForKey split splitTwo)
open Climon.Config.ReadYourWrite Climon.Config.Rendering Climon.Config.RoundTrip
  Climon.Config.SettingPaths Climon.Config.SettingWrites Climon.Config.Settings
  Climon.Config.CommentStripping
open Climon.Lib Climon.Lib.JsonPrint Climon.Lib.JsonText Climon.Lib.JsonValue Climon.Lib.Selection
open Climon.Store.Timestamps Climon.Update.Manifest

/-!
# Update notices

What a launch says about updates and the license is kept in the global config, among the settings of
the user. Background checks, updates, launches and `climon config` all write to it.
-/

/-! ## The records -/

def defaultIntervalMs : Int64 := 24 * 60 * 60 * 1000

inductive BannerDecision where
  | none
  | spawnUpdate
  | show (banner : String)
  deriving DecidableEq, Repr

section Source

variable {L : Type} [DecidableEq L] (sys : System L) (left : L → Option File) (env : Env)
  (disk : Disk L)

/-- Whether it succeeds is ignored. -/
def writeGlobal (key value : String) : Disk L :=
  (writeConfigSetting sys left env ⟨false, ["."]⟩ key .global disk value).2

def shouldCheck (intervalMs now : Int64) : Bool :=
  match readGlobalConfigSetting sys env "update.lastCheck" disk with
  | some (.string last) =>
    if last = "" then true
    else
      match Update.parseIso8601Ms last with
      | some lastMs => decide (intervalMs ≤ now - lastMs)
      | none => true
  | _ => true

def recordCheck (now : Int64) : Disk L :=
  writeGlobal sys left env disk "update.lastCheck" (Update.toIso8601 now)

def getAvailableVersion : Option String :=
  match readGlobalConfigSetting sys env "update.availableVersion" disk with
  | some (.string version) => if version = "" then none else some version
  | _ => none

def setAvailableVersion (version : String) : Disk L :=
  writeGlobal sys left env disk "update.availableVersion" version

def clearAvailableVersion : Disk L := writeGlobal sys left env disk "update.availableVersion" ""

def isAutoUpdate : Bool :=
  match readGlobalConfigSetting sys env "update.auto" disk with
  | some (.bool auto) => auto
  | _ => false

def getLicenseNoticeShown : Bool :=
  match readGlobalConfigSetting sys env "license.noticeShown" disk with
  | some (.bool shown) => shown
  | _ => false

def markLicenseNoticeShown : Disk L :=
  writeGlobal sys left env disk "license.noticeShown" "true"

/-! ## Checks and launches -/

/-- The part of a check that keeps what it found. -/
def keepFound (artifactKey currentVersion : String) (fetched : Except String Manifest) : Disk L :=
  match fetched with
  | .ok manifest =>
    if (manifest.artifacts.lookup artifactKey).isSome = true ∧
        0 < compareSemver manifest.version currentVersion then
      setAvailableVersion sys left env disk manifest.version
    else clearAvailableVersion sys left env disk
  | .error _ => disk

def runBackgroundCheck (artifactKey currentVersion : String) (fetched : Except String Manifest)
    (now : Int64) : Disk L :=
  recordCheck sys left env (keepFound sys left env disk artifactKey currentVersion fetched) now

def bannerDecision (currentVersion : String) : BannerDecision :=
  match getAvailableVersion sys env disk with
  | none => .none
  | some next =>
    if compareSemver next currentVersion ≤ 0 then .none
    else if isAutoUpdate sys env disk then .spawnUpdate
    else .show ("Update " ++ currentVersion ++ " → " ++ next ++
      " available — run `climon --update`\n")

def licenseNoticeDecision : Bool :=
  let legacy := (readGlobalConfigSetting sys env "eula.version" disk).isSome ||
    (readGlobalConfigSetting sys env "eula.accepted" disk).isSome
  legacy && !getLicenseNoticeShown sys env disk

/-- Whether it is shown, and the disk then. -/
def maybeShowLicenseNotice : Bool × Disk L :=
  if licenseNoticeDecision sys env disk then (true, markLicenseNoticeShown sys left env disk)
  else (false, disk)

end Source

/-! ## The config file -/

section Loading

variable {r : Reader} {floatText : Rat → List Char} {fields : List (String × Json)} {value : Json}

theorem fieldKeys_map {f : Json → Json} (hf : ∀ field ∈ fields, objectKeys (f field.2) =
    objectKeys field.2) : fieldKeys (fields.map fun field => (field.1, f field.2)) =
      fieldKeys fields := by
  induction fields with
  | nil => rfl
  | cons field fields ih =>
    rw [List.forall_mem_cons] at hf
    rw [List.map_cons, fieldKeys, fieldKeys, hf.1, ih hf.2]

/-- Reading back changes no key. -/
theorem objectKeys_loaded : objectKeys (loaded r floatText value) = objectKeys value := by
  induction value using Json.induction with
  | object fields ih =>
    rw [loaded_object]
    exact fieldKeys_map ih
  | _ => rfl

theorem loaded_string {text : String} : loaded r floatText (.string text) = .string text := rfl

theorem mem_fieldKeys_filter {p : String × Json → Bool} {name : String}
    (h : name ∈ fieldKeys (fields.filter p)) : name ∈ fieldKeys fields := by
  obtain ⟨field, hfield, hname⟩ := mem_fieldKeys.mp h
  exact mem_fieldKeys.mpr ⟨field, List.mem_of_mem_filter hfield, hname⟩

theorem mem_fieldKeys_withoutSetting {names : String × String} {name : String}
    (h : name ∈ fieldKeys (withoutSetting fields names)) : name ∈ fieldKeys fields := by
  unfold withoutSetting at h
  split at h
  · next entry hentry =>
    dsimp only at h
    split at h
    · exact mem_fieldKeys_filter h
    · have hmem := AssocList.mem_of_lookup hentry
      rcases mem_fieldKeys_insert h with rfl | hin | hold
      · exact mem_fieldKeys.mpr ⟨_, hmem, .inl rfl⟩
      · exact mem_fieldKeys.mpr ⟨_, hmem, .inr (mem_fieldKeys_filter hin)⟩
      · exact hold
  · exact h

end Loading

section File

variable {L : Type} [DecidableEq L] {sys : System L} {left : L → Option File} {env : Env}
  {r : Reader} {cwd dir home : Path} {scope : WriteScope} {key : String} {call : Call}
  {disk : Disk L} {record : List (String × Json)}

/-- Writes to the directory succeed. -/
structure Writable (sys : System L) (dir : Path) : Prop where
  create : sys.createDirAll (sys.locate dir) = .ok ()
  write : sys.write (sys.locate dir) = .ok ()

omit [DecidableEq L] in
/-- The path itself is named in errors only. -/
theorem readSparseConfig_place (lib : Library sys r) (disk : Disk L)
    (hplace : sys.locate home = sys.locate dir) :
    readSparseConfig sys disk home = readSparseConfig sys disk dir := by
  unfold readSparseConfig
  rw [hplace]
  cases existingConfig (disk (sys.locate dir)) with
  | none => rfl
  | some file =>
    obtain ⟨name, file⟩ := file
    cases file with
    | unreadable => rfl
    | text raw =>
      have hiff : ∀ value, parseJsoncConfig sys.fromStr raw (home.join name).display = .ok value ↔
          parseJsoncConfig sys.fromStr raw (dir.join name).display = .ok value := by
        intro value
        rw [parseJsoncConfig_iff lib.parses, parseJsoncConfig_iff lib.parses]
      dsimp only
      cases hparse : parseJsoncConfig sys.fromStr raw (home.join name).display with
      | ok value => rw [(hiff value).mp hparse]
      | error e =>
        cases hparse' : parseJsoncConfig sys.fromStr raw (dir.join name).display with
        | ok value =>
          rw [(hiff value).mpr hparse'] at hparse
          cases hparse
        | error e' => rfl

theorem store_other {record : Json} (hplace : sys.locate home ≠ sys.locate dir) :
    readSparseConfig sys (storeSparseConfig sys left disk dir record).2 home =
      readSparseConfig sys disk home := by
  have hfolder : (storeSparseConfig sys left disk dir record).2 (sys.locate home) =
      disk (sys.locate home) := by
    unfold storeSparseConfig
    dsimp only
    split
    · rfl
    · split
      · split
        · exact Function.update_of_ne hplace _ _
        · rfl
      · split
        · split
          · exact Function.update_of_ne hplace _ _
          · exact Function.update_of_ne hplace _ _
        · exact Function.update_of_ne hplace _ _
  rw [readSparseConfig, hfolder, ← readSparseConfig]

/-- A record that was stored is read back. -/
theorem store_read (lib : Library sys r) (hwritable : Writable sys home)
    (hplace : sys.locate home = sys.locate dir) (hrecord : Renderable r sys.floatText record)
    (hplain : ∀ name ∈ fieldKeys record, Plain name) :
    readSparseConfig sys (storeSparseConfig sys left disk dir (.object record)).2 home =
      record.map fun field => (field.1, loaded r sys.floatText field.2) := by
  obtain ⟨hcreate, hwrite⟩ := hwritable
  rw [hplace] at hcreate hwrite
  have hfile : existingConfig ((storeSparseConfig sys left disk dir (.object record)).2
      (sys.locate dir)) =
        some ("config.jsonc", .text (renderJsoncConfig sys.floatText (.object record))) := by
    have hstored := @stored_store L _ sys left dir disk (.object record)
    generalize (storeSparseConfig sys left disk dir (.object record)).1 = result at hstored
    generalize existingConfig ((storeSparseConfig sys left disk dir (.object record)).2
      (sys.locate dir)) = after at hstored ⊢
    cases hstored with
    | kept e h =>
      rcases h with ⟨e, he⟩ | ⟨⟨e, he⟩, -⟩
      · rw [hcreate] at he
        cases he
      · rw [hwrite] at he
        cases he
    | torn e file _ he =>
      rw [hwrite] at he
      cases he
    | stranded => rfl
    | done => rfl
  have hread := read_rendering lib.integers hrecord.1.1 hrecord.1.2 hplain hrecord.2
  rw [loaded_object] at hread
  have hparse := (@parseJsoncConfig_iff r sys.fromStr _ (home.join "config.jsonc").display _
    lib.parses).mpr ⟨hread, rfl⟩
  rw [readSparseConfig, hplace, hfile]
  simp only [hparse]

/-- The keys of the global config need no escape. -/
def Healthy (sys : System L) (env : Env) (disk : Disk L) : Prop :=
  ∀ name ∈ fieldKeys (readSparseConfig sys disk (getClimonHome env)), Plain name

omit [DecidableEq L] in
theorem healthy_loaded
    (hread : readSparseConfig sys disk (getClimonHome env) =
      record.map fun field => (field.1, loaded r sys.floatText field.2))
    (hplain : ∀ name ∈ fieldKeys record, Plain name) : Healthy sys env disk := by
  have hkeys := @fieldKeys_map record (loaded r sys.floatText) fun _ _ => objectKeys_loaded
  rwa [Healthy, hread, hkeys]

/-- One setting of the global config changed; all of it was read back. -/
def Changed (r : Reader) (floatText : Rat → List Char) (names : String × String)
    (setting : Option Json) (old new : List (String × Json)) : Prop :=
  ∃ record, Edited names setting old record ∧
    new = record.map fun field => (field.1, loaded r floatText field.2)

/-- What becomes of the global config when a config is stored, there or elsewhere. -/
theorem stored_effect (lib : Library sys r) (hwritable : Writable sys (getClimonHome env))
    (hhealthy : Healthy sys env disk) {names : String × String} {setting : Option Json}
    (hrecord : Renderable r sys.floatText record)
    (hedited : Edited names setting (readSparseConfig sys disk dir) record)
    (hplain : (∀ name ∈ fieldKeys (readSparseConfig sys disk dir), Plain name) →
      ∀ name ∈ fieldKeys record, Plain name)
    {disk' : Disk L} (hdisk : disk' = (storeSparseConfig sys left disk dir (.object record)).2) :
    Healthy sys env disk' ∧
      (sys.locate (getClimonHome env) = sys.locate dir →
        Changed r sys.floatText names setting (readSparseConfig sys disk (getClimonHome env))
          (readSparseConfig sys disk' (getClimonHome env))) ∧
      (sys.locate (getClimonHome env) ≠ sys.locate dir →
        readSparseConfig sys disk' (getClimonHome env) =
          readSparseConfig sys disk (getClimonHome env)) := by
  subst hdisk
  by_cases hplace : sys.locate (getClimonHome env) = sys.locate dir
  · have hsame := readSparseConfig_place lib disk hplace
    rw [Healthy, hsame] at hhealthy
    have hread := @store_read L _ sys left r dir (getClimonHome env) disk record lib hwritable
      hplace hrecord (hplain hhealthy)
    exact ⟨healthy_loaded hread (hplain hhealthy), fun _ => ⟨record, hsame ▸ hedited, hread⟩,
      fun hnot => absurd hplace hnot⟩
  · have hother := @store_other L _ sys left dir (getClimonHome env) disk (.object record) hplace
    exact ⟨by rwa [Healthy, hother], fun hnot => absurd hnot hplace, fun _ => hother⟩

/-- The doubles that a call would set are printed as numbers. -/
def Printable (r : Reader) (floatText : Rat → List Char) (key : String) (call : Call) : Prop :=
  ∀ text q, call = .write text → coerceConfigValueFromSettings key text = .ok (.number (.float q)) →
    Keeps r floatText (.float q)

/-- What becomes of the global config by a call: nothing if the value is refused or it is stored
elsewhere. -/
theorem call_effect (lib : Library sys r) (hwritable : Writable sys (getClimonHome env))
    (hhealthy : Healthy sys env disk) (hprintable : Printable r sys.floatText key call)
    {disk' : Disk L} (hdisk : disk' = (call.run sys left env cwd key scope disk).2) :
    Healthy sys env disk' ∧
      (sys.locate (getClimonHome env) =
          sys.locate (resolveWriteDirForKey sys env cwd key scope disk) →
        (∃ text e, call = .write text ∧ coerceConfigValueFromSettings key text = .error e ∧
          disk' = disk) ∨
        ∃ setting, Change key call setting ∧
          Changed r sys.floatText (splitTwo key) setting
            (readSparseConfig sys disk (getClimonHome env))
            (readSparseConfig sys disk' (getClimonHome env))) ∧
      (sys.locate (getClimonHome env) ≠
          sys.locate (resolveWriteDirForKey sys env cwd key scope disk) →
        readSparseConfig sys disk' (getClimonHome env) =
          readSparseConfig sys disk (getClimonHome env)) := by
  generalize hdir : resolveWriteDirForKey sys env cwd key scope disk = dir
  obtain ⟨hsound, hdepth⟩ := sound_readSparseConfig lib disk dir
  cases call with
  | write text =>
    rw [Call.run, writeConfigSetting, hdir] at hdisk
    cases hcoerced : coerceConfigValueFromSettings key text with
    | error e =>
      rw [hcoerced] at hdisk
      subst hdisk
      exact ⟨hhealthy, fun _ => .inl ⟨text, e, rfl, hcoerced, rfl⟩, fun _ => rfl⟩
    | ok value =>
      rw [hcoerced] at hdisk
      obtain ⟨hordered, hnames, hnesting, -⟩ := scalar_coerced hcoerced
      have hnumbers := keeps_coerced lib hcoerced fun q hq => hprintable text q rfl (hq ▸ hcoerced)
      have hrecord : Renderable r sys.floatText
          (Cascade.withSetting (readSparseConfig sys disk dir) (splitTwo key) value) := by
        refine ⟨?_, fun d hd => nesting_withSetting (lib.depth d hd) (hdepth d hd) hnesting⟩
        exact sound_withSetting hsound ⟨hordered, fun n hn => (hnumbers n hn).rereads⟩
      obtain ⟨hhealthy', hchanged, hsame⟩ := stored_effect lib hwritable hhealthy hrecord
        edited_withSetting
        (fun h => plain_withSetting h (plain_splitTwo (coerced_cases hcoerced).1) hnames) hdisk
      exact ⟨hhealthy', fun hplace => .inr ⟨some value, .set hcoerced, hchanged hplace⟩, hsame⟩
  | unset =>
    rw [Call.run, unsetConfigSetting, hdir] at hdisk
    by_cases hnone : (existingConfig (disk (sys.locate dir))).isNone = true
    · rw [if_pos hnone] at hdisk
      subst hdisk
      refine ⟨hhealthy, fun hplace => .inr ⟨none, .removed, ?_⟩, fun _ => rfl⟩
      have hempty : readSparseConfig sys disk' (getClimonHome env) = [] := by
        rw [readSparseConfig, hplace, Option.isNone_iff_eq_none.mp hnone]
      rw [hempty]
      refine ⟨[], edited_same fun entry hentry => ?_, rfl⟩
      cases hentry
    · rw [if_neg hnone] at hdisk
      have hrecord : Renderable r sys.floatText
          (withoutSetting (readSparseConfig sys disk dir) (splitTwo key)) :=
        ⟨sound_withoutSetting hsound, fun d hd => nesting_withoutSetting (hdepth d hd)⟩
      obtain ⟨hhealthy', hchanged, hsame⟩ := stored_effect lib hwritable hhealthy hrecord
        edited_withoutSetting (fun h name hname => h name (mem_fieldKeys_withoutSetting hname)) hdisk
      exact ⟨hhealthy', fun hplace => .inr ⟨none, .removed, hchanged hplace⟩, hsame⟩

/-! ## What is read of it -/

theorem readDottedKey_pair {fields : List (String × Json)} {other : String}
    (h : 2 ≤ (split other).length) : readDottedKey fields other =
      (fields.lookup (splitTwo other).1).bind (·.get? (splitTwo other).2) := by
  unfold readDottedKey splitTwo
  match split other, h with
  | _ :: _ :: _, _ => rfl

theorem readDottedKey_changed {names : String × String} {setting : Option Json}
    {floatText : Rat → List Char} {old new : List (String × Json)} {other : String}
    (hchanged : Changed r floatText names setting old new) (hother : 2 ≤ (split other).length) :
    readDottedKey new other =
      (if splitTwo other = names then setting else readDottedKey old other).map
        (loaded r floatText) := by
  obtain ⟨record, hedited, rfl⟩ := hchanged
  rw [readDottedKey_map]
  apply congrArg
  rw [readDottedKey_pair hother, readDottedKey_pair hother]
  by_cases hnames : splitTwo other = names
  · rw [if_pos hnames, hnames, hedited.setting_eq]
  · rw [if_neg hnames]
    by_cases hname : (splitTwo other).1 = names.1
    · have hfield : (splitTwo other).2 ≠ names.2 := fun heq => hnames (Prod.ext hname heq)
      rw [hname, hedited.member _ hfield]
    · rw [hedited.other _ hname]

/-- The same, or the same read back. -/
def Alike (r : Reader) (floatText : Rat → List Char) (value value' : Option Json) : Prop :=
  value' = value ∨ value' = value.map (loaded r floatText)

/-- A call leaves every setting but its own. -/
theorem call_keeps (lib : Library sys r) (hwritable : Writable sys (getClimonHome env))
    (hhealthy : Healthy sys env disk) (hprintable : Printable r sys.floatText key call)
    {disk' : Disk L} (hdisk : disk' = (call.run sys left env cwd key scope disk).2) :
    Healthy sys env disk' ∧ ∀ other, 2 ≤ (split other).length → splitTwo other ≠ splitTwo key →
      Alike r sys.floatText (readGlobalConfigSetting sys env other disk)
        (readGlobalConfigSetting sys env other disk') := by
  obtain ⟨hhealthy', hchanged, hsame⟩ := call_effect lib hwritable hhealthy hprintable hdisk
  refine ⟨hhealthy', fun other hother hne => ?_⟩
  unfold readGlobalConfigSetting
  by_cases hplace : sys.locate (getClimonHome env) =
      sys.locate (resolveWriteDirForKey sys env cwd key scope disk)
  · rcases hchanged hplace with ⟨_, _, -, -, rfl⟩ | ⟨setting, -, hchanged⟩
    · exact .inl rfl
    · right
      rw [readDottedKey_changed hchanged hother, if_neg hne]
  · left
    rw [hsame hplace]

/-- A call that comes to the global config sets its own. -/
theorem call_sets (lib : Library sys r) (hwritable : Writable sys (getClimonHome env))
    (hhealthy : Healthy sys env disk) (hprintable : Printable r sys.floatText key call)
    (hplace : sys.locate (getClimonHome env) =
      sys.locate (resolveWriteDirForKey sys env cwd key scope disk))
    (hkey : 2 ≤ (split key).length)
    {disk' : Disk L} (hdisk : disk' = (call.run sys left env cwd key scope disk).2) :
    (∃ text e, call = .write text ∧ coerceConfigValueFromSettings key text = .error e ∧
      disk' = disk) ∨
    ∃ setting, Change key call setting ∧ readGlobalConfigSetting sys env key disk' =
      setting.map (loaded r sys.floatText) := by
  obtain ⟨-, hchanged, -⟩ := call_effect lib hwritable hhealthy hprintable hdisk
  refine (hchanged hplace).imp_right fun ⟨setting, hchange, hchanged⟩ => ⟨setting, hchange, ?_⟩
  unfold readGlobalConfigSetting
  rw [readDottedKey_changed hchanged hkey, if_pos rfl]

end File

/-! ## What a launch goes by -/

@[ext] structure Registers where
  lastCheck : Option Int64
  available : Option String
  auto : Bool
  noticeDue : Bool
  deriving DecidableEq

def textOf : Option Json → Option String
  | some (.string text) => some text
  | _ => none

def flagOf : Option Json → Bool
  | some (.bool flag) => flag
  | _ => false

/-- By the values of the settings. -/
def Registers.of (read : String → Option Json) : Registers where
  lastCheck := (textOf (read "update.lastCheck")).bind Update.parseIso8601Ms
  available := (textOf (read "update.availableVersion")).filter (· ≠ "")
  auto := flagOf (read "update.auto")
  noticeDue := ((read "eula.version").isSome || (read "eula.accepted").isSome) &&
    !flagOf (read "license.noticeShown")

section Alike

variable {r : Reader} {floatText : Rat → List Char} {value value' : Option Json}

theorem Alike.textOf (h : Alike r floatText value value') : textOf value' = textOf value := by
  rcases h with rfl | rfl
  · rfl
  · cases value with
    | none => rfl
    | some json => cases json with
      | _ => rfl

theorem Alike.flagOf (h : Alike r floatText value value') : flagOf value' = flagOf value := by
  rcases h with rfl | rfl
  · rfl
  · cases value with
    | none => rfl
    | some json => cases json with
      | _ => rfl

theorem Alike.isSome (h : Alike r floatText value value') : value'.isSome = value.isSome := by
  rcases h with rfl | rfl
  · rfl
  · exact Option.isSome_map

end Alike

section Observed

variable {L : Type} {sys : System L} {env : Env} {disk : Disk L}

def observe (sys : System L) (env : Env) (disk : Disk L) : Registers :=
  .of fun key => readGlobalConfigSetting sys env key disk

theorem shouldCheck_eq (intervalMs now : Int64) : shouldCheck sys env disk intervalMs now =
    (observe sys env disk).lastCheck.all fun last => decide (intervalMs ≤ now - last) := by
  unfold shouldCheck observe Registers.of
  dsimp only
  split
  next last hlast =>
    rw [hlast]
    by_cases hempty : last = ""
    · rw [if_pos hempty, hempty]
      rfl
    · rw [if_neg hempty, textOf, Option.bind_some]
      cases Update.parseIso8601Ms last with
      | none => rfl
      | some lastMs => rfl
  next hother =>
    have hnone : textOf (readGlobalConfigSetting sys env "update.lastCheck" disk) = none := by
      unfold textOf
      split
      next last hlast => exact absurd hlast (hother last)
      · rfl
    rw [hnone]
    rfl

theorem getAvailableVersion_eq :
    getAvailableVersion sys env disk = (observe sys env disk).available := by
  unfold getAvailableVersion observe Registers.of textOf
  dsimp only
  split
  next version hversion =>
    rw [Option.filter_some]
    by_cases hempty : version = ""
    · simp [hempty]
    · simp [hempty]
  · rfl

theorem isAutoUpdate_eq : isAutoUpdate sys env disk = (observe sys env disk).auto := rfl

theorem licenseNoticeDecision_eq :
    licenseNoticeDecision sys env disk = (observe sys env disk).noticeDue := rfl

end Observed

/-! ## Events -/

/-- What writes to the config, in whatever order. A call that does not save fails before it has
opened the file. -/
inductive Event where
  | found (currentVersion : String) (fetched : Except String Manifest) (saves : Bool)
  | recorded (now : Int64) (saves : Bool)
  | noticed (saves : Bool)
  | updated (saves : Bool)
  | configured (cwd : Path) (scope : WriteScope) (key : String) (call : Call) (saves : Bool)

/-- Of these only the first may be set by `climon config`. -/
def recordKeys : List String :=
  ["update.auto", "update.lastCheck", "update.availableVersion", "license.noticeShown"]

section Events

variable {L : Type} [DecidableEq L] (sys : System L) (left : L → Option File) (env : Env)
  (artifactKey : String)

def step (disk : Disk L) : Event → Disk L
  | .found currentVersion fetched true =>
    keepFound sys left env disk artifactKey currentVersion fetched
  | .recorded now true => recordCheck sys left env disk now
  | .noticed true => (maybeShowLicenseNotice sys left env disk).2
  | .updated true => clearAvailableVersion sys left env disk
  | .configured cwd scope key call true => (call.run sys left env cwd key scope disk).2
  | _ => disk

/-- The check and the recording of it are one call. -/
theorem runBackgroundCheck_eq (disk : Disk L) (currentVersion : String)
    (fetched : Except String Manifest) (now : Int64) :
    runBackgroundCheck sys left env disk artifactKey currentVersion fetched now =
      [Event.found currentVersion fetched true, .recorded now true].foldl
        (step sys left env artifactKey) disk := rfl

/-- What `climon config` can be asked, in the years that have four digits. -/
def Accepted (r : Reader) : Event → Prop
  | .recorded now _ => InRange now
  | .configured _ _ key call _ => (findConfigSetting key).isSome = true ∧
      (key ∈ recordKeys → key = "update.auto") ∧ Printable r sys.floatText key call
  | _ => True

/-- What it makes of the time of the last check. -/
def Event.check? : Event → Option (Option Int64)
  | .recorded now true => some (some now)
  | _ => none

/-- What it makes of the version that is known of. -/
def Event.version? : Event → Option (Option String)
  | .found currentVersion (.ok manifest) true =>
    if (manifest.artifacts.lookup artifactKey).isSome = true ∧
        0 < compareSemver manifest.version currentVersion ∧ manifest.version ≠ "" then
      some (some manifest.version)
    else some none
  | .updated true => some none
  | _ => none

/-- What it makes of the choice of the user, if it is not made for a directory alone. -/
def Event.auto? : Event → Option Bool
  | .configured cwd scope key call true =>
    if key = "update.auto" ∧ (scope = .local →
        sys.locate ((cwd.resolve env.currentDir).join ".climon") =
          sys.locate (getClimonHome env)) then
      match call with
      | .write text => if text = "true" then some true else if text = "false" then some false else none
      | .unset => some false
    else none
  | _ => none

def Event.marks : Event → Bool
  | .noticed true => true
  | _ => false

def Registers.after (s : Registers) (e : Event) : Registers where
  lastCheck := e.check?.getD s.lastCheck
  available := (e.version? artifactKey).getD s.available
  auto := (e.auto? sys env).getD s.auto
  noticeDue := s.noticeDue && !e.marks

end Events

/-! ## The settings of the registry -/

theorem registry_apart : ∀ setting ∈ configSettings, setting.path ∉ recordKeys →
    ∀ other ∈ recordKeys ++ ["eula.version", "eula.accepted"],
      splitTwo other ≠ splitTwo setting.path := by
  decide +kernel

theorem records_apart : ∀ key ∈ recordKeys,
    ∀ other ∈ recordKeys ++ ["eula.version", "eula.accepted"], other ≠ key →
      splitTwo other ≠ splitTwo key := by
  decide +kernel

theorem records_split : ∀ key ∈ recordKeys ++ ["eula.version", "eula.accepted"],
    2 ≤ (split key).length := by
  decide +kernel

theorem coerce_lastCheck (text : String) :
    coerceConfigValueFromSettings "update.lastCheck" text = .ok (.string text) := rfl

theorem coerce_availableVersion (text : String) :
    coerceConfigValueFromSettings "update.availableVersion" text = .ok (.string text) := rfl

theorem coerce_noticeShown :
    coerceConfigValueFromSettings "license.noticeShown" "true" = .ok (.bool true) := rfl

theorem parse_toIso8601 {now : Int64} (h : InRange now) :
    Update.parseIso8601Ms (Update.toIso8601 now) = some now := by
  have hlt : now.toInt < 253402300800000 := by
    have hle := h.2
    omega
  rw [toIso8601_eq, iso8601MillisUtc_eq h.1 hlt, Update.parseIso8601Ms_text,
    IsoTimestamp.Stamp.total_ofTotal, Int64.ofInt_toInt]

/-! ## Steps -/

section Steps

variable {L : Type} {sys : System L} {left : L → Option File} {env : Env} {r : Reader}
  {artifactKey key text : String} {value : Json} {disk disk' : Disk L}

/-- The setting is read as before. -/
def Stays (sys : System L) (env : Env) (r : Reader) (disk disk' : Disk L) (key : String) : Prop :=
  Alike r sys.floatText (readGlobalConfigSetting sys env key disk)
    (readGlobalConfigSetting sys env key disk')

theorem lastCheck_stays (h : Stays sys env r disk disk' "update.lastCheck") :
    (observe sys env disk').lastCheck = (observe sys env disk).lastCheck := by
  unfold observe Registers.of
  dsimp only
  rw [h.textOf]

theorem available_stays (h : Stays sys env r disk disk' "update.availableVersion") :
    (observe sys env disk').available = (observe sys env disk).available := by
  unfold observe Registers.of
  dsimp only
  rw [h.textOf]

theorem auto_stays (h : Stays sys env r disk disk' "update.auto") :
    (observe sys env disk').auto = (observe sys env disk).auto := h.flagOf

theorem noticeDue_stays (hversion : Stays sys env r disk disk' "eula.version")
    (haccepted : Stays sys env r disk disk' "eula.accepted")
    (hshown : Stays sys env r disk disk' "license.noticeShown") :
    (observe sys env disk').noticeDue = (observe sys env disk).noticeDue := by
  unfold observe Registers.of
  dsimp only
  rw [hversion.isSome, haccepted.isSome, hshown.flagOf]

variable [DecidableEq L]

/-- What a write to a record does. -/
structure Written (sys : System L) (env : Env) (r : Reader) (key : String) (value : Json)
    (disk disk' : Disk L) : Prop where
  healthy : Healthy sys env disk'
  stays : ∀ other ∈ recordKeys ++ ["eula.version", "eula.accepted"], other ≠ key →
    Stays sys env r disk disk' other
  reads : readGlobalConfigSetting sys env key disk' = some (loaded r sys.floatText value)

theorem written (lib : Library sys r) (hwritable : Writable sys (getClimonHome env))
    (hhealthy : Healthy sys env disk) (hkey : key ∈ recordKeys)
    (hcoerced : coerceConfigValueFromSettings key text = .ok value)
    (hvalue : ∀ q, value ≠ .number (.float q)) :
    Written sys env r key value disk (writeGlobal sys left env disk key text) := by
  have hprintable : Printable r sys.floatText key (.write text) := by
    intro other q heq hother
    cases heq
    exact absurd (Except.ok.inj (hcoerced.symm.trans hother)) (hvalue q)
  obtain ⟨hhealthy', hstays⟩ := @call_keeps L _ sys left env r ⟨false, ["."]⟩ .global key
    (.write text) disk lib hwritable hhealthy hprintable _ rfl
  have hsets := @call_sets L _ sys left env r ⟨false, ["."]⟩ .global key (.write text) disk lib
    hwritable hhealthy hprintable rfl (records_split key (List.mem_append_left _ hkey)) _ rfl
  refine ⟨hhealthy', fun other hother hne => hstays other (records_split other hother)
    (records_apart key hkey other hother hne), ?_⟩
  rcases hsets with ⟨_, e, heq, herror, -⟩ | ⟨setting, hchange, hread⟩
  · cases heq
    rw [hcoerced] at herror
    cases herror
  · cases hchange with
    | set hset =>
      rw [hcoerced] at hset
      cases hset
      exact hread

/-- A time that is written is read back. -/
theorem recordCheck_observed (lib : Library sys r) (hwritable : Writable sys (getClimonHome env))
    (hhealthy : Healthy sys env disk) {now : Int64} (hnow : InRange now) :
    Healthy sys env (recordCheck sys left env disk now) ∧
      observe sys env (recordCheck sys left env disk now) =
        { observe sys env disk with lastCheck := some now } := by
  have hwritten : Written sys env r "update.lastCheck" (.string (Update.toIso8601 now)) disk
      (recordCheck sys left env disk now) :=
    written lib hwritable hhealthy (by decide) (coerce_lastCheck _) fun q => Json.noConfusion
  refine ⟨hwritten.healthy, Registers.ext ?_ ?_ ?_ ?_⟩
  · unfold observe Registers.of
    dsimp only
    rw [hwritten.reads, loaded_string, textOf, Option.bind_some, parse_toIso8601 hnow]
  · exact available_stays (hwritten.stays _ (by decide) (by decide))
  · exact auto_stays (hwritten.stays _ (by decide) (by decide))
  · exact noticeDue_stays (hwritten.stays _ (by decide) (by decide))
      (hwritten.stays _ (by decide) (by decide)) (hwritten.stays _ (by decide) (by decide))

theorem setAvailableVersion_observed (lib : Library sys r)
    (hwritable : Writable sys (getClimonHome env)) (hhealthy : Healthy sys env disk)
    (version : String) :
    Healthy sys env (setAvailableVersion sys left env disk version) ∧
      observe sys env (setAvailableVersion sys left env disk version) =
        { observe sys env disk with
          available := (some version).filter (· ≠ "") } := by
  have hwritten : Written sys env r "update.availableVersion" (.string version) disk
      (setAvailableVersion sys left env disk version) :=
    written lib hwritable hhealthy (by decide) (coerce_availableVersion _) fun q => Json.noConfusion
  refine ⟨hwritten.healthy, Registers.ext ?_ ?_ ?_ ?_⟩
  · exact lastCheck_stays (hwritten.stays _ (by decide) (by decide))
  · unfold observe Registers.of
    dsimp only
    rw [hwritten.reads, loaded_string, textOf]
  · exact auto_stays (hwritten.stays _ (by decide) (by decide))
  · exact noticeDue_stays (hwritten.stays _ (by decide) (by decide))
      (hwritten.stays _ (by decide) (by decide)) (hwritten.stays _ (by decide) (by decide))

theorem maybeShowLicenseNotice_observed (lib : Library sys r)
    (hwritable : Writable sys (getClimonHome env)) (hhealthy : Healthy sys env disk) :
    Healthy sys env (maybeShowLicenseNotice sys left env disk).2 ∧
      observe sys env (maybeShowLicenseNotice sys left env disk).2 =
        { observe sys env disk with noticeDue := false } := by
  unfold maybeShowLicenseNotice
  by_cases hdue : licenseNoticeDecision sys env disk = true
  · rw [if_pos hdue]
    have hwritten : Written sys env r "license.noticeShown" (.bool true) disk
        (markLicenseNoticeShown sys left env disk) :=
      written lib hwritable hhealthy (by decide) coerce_noticeShown fun q => Json.noConfusion
    refine ⟨hwritten.healthy, Registers.ext ?_ ?_ ?_ ?_⟩
    · exact lastCheck_stays (hwritten.stays _ (by decide) (by decide))
    · exact available_stays (hwritten.stays _ (by decide) (by decide))
    · exact auto_stays (hwritten.stays _ (by decide) (by decide))
    · unfold observe Registers.of
      dsimp only
      rw [hwritten.reads]
      exact Bool.and_false _
  · rw [if_neg hdue]
    refine ⟨hhealthy, Registers.ext rfl rfl rfl ?_⟩
    rw [← licenseNoticeDecision_eq]
    exact Bool.eq_false_iff.mpr hdue

theorem coerce_auto (text : String) : coerceConfigValueFromSettings "update.auto" text =
    if text = "true" then .ok (.bool true)
    else if text = "false" then .ok (.bool false)
    else .error "Value for 'update.auto' must be 'true' or 'false'." := by
  by_cases htrue : text = "true"
  · subst htrue
    rfl
  · rw [if_neg htrue]
    by_cases hfalse : text = "false"
    · subst hfalse
      rfl
    · have hsetting : ∃ setting, findConfigSetting "update.auto" = some setting ∧
          setting.kind = .boolean := ⟨_, rfl, rfl⟩
      obtain ⟨setting, hsetting, hkind⟩ := hsetting
      rw [if_neg hfalse, coerceConfigValueFromSettings, hsetting]
      dsimp only
      rw [hkind]
      dsimp only
      rw [if_neg htrue, if_neg hfalse]
      rfl

omit [DecidableEq L] in
/-- A setting that is global only is written elsewhere on demand only. -/
theorem resolve_auto {scope : WriteScope} {cwd : Path} :
    sys.locate (getClimonHome env) =
        sys.locate (resolveWriteDirForKey sys env cwd "update.auto" scope disk) ↔
      (scope = .local → sys.locate ((cwd.resolve env.currentDir).join ".climon") =
        sys.locate (getClimonHome env)) := by
  cases scope with
  | «local» => exact ⟨fun h _ => h.symm, fun h => (h rfl).symm⟩
  | auto => exact ⟨fun _ => WriteScope.noConfusion, fun _ => rfl⟩
  | global => exact ⟨fun _ => WriteScope.noConfusion, fun _ => rfl⟩

theorem auto_configured {scope : WriteScope} {cwd : Path} {call : Call} (lib : Library sys r)
    (hwritable : Writable sys (getClimonHome env)) (hhealthy : Healthy sys env disk)
    (hprintable : Printable r sys.floatText "update.auto" call)
    (hdisk : disk' = (call.run sys left env cwd "update.auto" scope disk).2) :
    (observe sys env disk').auto =
      ((Event.configured cwd scope "update.auto" call true).auto? sys env).getD
        (observe sys env disk).auto := by
  unfold Event.auto?
  dsimp only
  have hiff := @resolve_auto L sys env disk scope cwd
  by_cases hplace : sys.locate (getClimonHome env) =
      sys.locate (resolveWriteDirForKey sys env cwd "update.auto" scope disk)
  · rw [if_pos ⟨rfl, hiff.mp hplace⟩]
    rcases call_sets lib hwritable hhealthy hprintable hplace (records_split _ (by decide)) hdisk with
      ⟨text, e, rfl, herror, rfl⟩ | ⟨setting, hchange, hread⟩
    · rw [coerce_auto] at herror
      dsimp only
      split at herror
      · cases herror
      next htrue =>
        split at herror
        · cases herror
        next hfalse =>
          rw [if_neg htrue, if_neg hfalse, Option.getD_none]
    · have hauto : (observe sys env disk').auto = flagOf setting := by
        unfold observe Registers.of
        dsimp only
        rw [hread]
        exact Alike.flagOf (.inr rfl)
      rw [hauto]
      cases hchange with
      | removed => rfl
      | set hcoerced =>
        rw [coerce_auto] at hcoerced
        dsimp only
        split at hcoerced
        next htrue =>
          rw [if_pos htrue]
          cases hcoerced
          rfl
        next htrue =>
          split at hcoerced
          next hfalse =>
            rw [if_neg htrue, if_pos hfalse]
            cases hcoerced
            rfl
          · cases hcoerced
  · rw [if_neg fun h => hplace (hiff.mpr h.2)]
    have hsame := (call_effect lib hwritable hhealthy hprintable hdisk).2.2 hplace
    unfold observe Registers.of readGlobalConfigSetting
    dsimp only
    rw [hsame, Option.getD_none]

/-- What `climon config` leaves of the records, but for the choice of the user. -/
theorem configured_observed {scope : WriteScope} {cwd : Path} {call : Call} (lib : Library sys r)
    (hwritable : Writable sys (getClimonHome env)) (hhealthy : Healthy sys env disk)
    (hknown : (findConfigSetting key).isSome = true)
    (hown : key ∈ recordKeys → key = "update.auto")
    (hprintable : Printable r sys.floatText key call)
    (hdisk : disk' = (call.run sys left env cwd key scope disk).2) :
    Healthy sys env disk' ∧ observe sys env disk' = (observe sys env disk).after sys env
      artifactKey (.configured cwd scope key call true) := by
  obtain ⟨hhealthy', hstays⟩ := call_keeps lib hwritable hhealthy hprintable hdisk
  refine ⟨hhealthy', ?_⟩
  obtain ⟨setting, hsetting⟩ := Option.isSome_iff_exists.mp hknown
  have hmem := List.mem_of_find?_eq_some hsetting
  have hpath : setting.path = key := by
    unfold findConfigSetting at hsetting
    have hfound := List.find?_some hsetting
    exact beq_iff_eq.mp hfound
  by_cases hauto : key = "update.auto"
  · subst hauto
    have hothers : ∀ other ∈ recordKeys ++ ["eula.version", "eula.accepted"],
        other ≠ "update.auto" → Stays sys env r disk disk' other := fun other hother hne =>
      hstays other (records_split other hother) (records_apart _ (by decide) other hother hne)
    refine Registers.ext ?_ ?_ ?_ ?_
    · exact lastCheck_stays (hothers _ (by decide) (by decide))
    · exact available_stays (hothers _ (by decide) (by decide))
    · exact auto_configured lib hwritable hhealthy hprintable hdisk
    · rw [noticeDue_stays (hothers _ (by decide) (by decide)) (hothers _ (by decide) (by decide))
        (hothers _ (by decide) (by decide))]
      exact (Bool.and_true _).symm
  · have hkey : setting.path ∉ recordKeys := fun hin => hauto (hown (hpath ▸ hin))
    have hothers : ∀ other ∈ recordKeys ++ ["eula.version", "eula.accepted"],
        Stays sys env r disk disk' other := fun other hother =>
      hstays other (records_split other hother) (hpath ▸ registry_apart setting hmem hkey other hother)
    refine Registers.ext ?_ ?_ ?_ ?_
    · exact lastCheck_stays (hothers _ (by decide))
    · exact available_stays (hothers _ (by decide))
    · rw [auto_stays (hothers _ (by decide))]
      simp only [Registers.after, Event.auto?, hauto, false_and, if_false, Option.getD_none]
    · rw [noticeDue_stays (hothers _ (by decide)) (hothers _ (by decide)) (hothers _ (by decide))]
      exact (Bool.and_true _).symm

variable {s : Registers} {e : Event} {events : List Event}

/-- An event that does not save. -/
theorem after_quiet (hcheck : e.check? = none) (hversion : e.version? artifactKey = none)
    (hauto : e.auto? sys env = none) (hmarks : e.marks = false) :
    s.after sys env artifactKey e = s := by
  unfold Registers.after
  rw [hcheck, hversion, hauto, hmarks, Bool.not_false, Bool.and_true]
  rfl

theorem keepFound_observed (lib : Library sys r) (hwritable : Writable sys (getClimonHome env))
    (hhealthy : Healthy sys env disk) (currentVersion : String)
    (fetched : Except String Manifest) :
    Healthy sys env (keepFound sys left env disk artifactKey currentVersion fetched) ∧
      observe sys env (keepFound sys left env disk artifactKey currentVersion fetched) =
        (observe sys env disk).after sys env artifactKey (.found currentVersion fetched true) := by
  have hset : ∀ version, Healthy sys env (setAvailableVersion sys left env disk version) ∧ _ :=
    setAvailableVersion_observed lib hwritable hhealthy
  unfold keepFound
  cases fetched with
  | error e =>
    refine ⟨hhealthy, (after_quiet rfl rfl rfl rfl).symm⟩
  | ok manifest =>
    dsimp only
    split
    next hnewer =>
      refine ⟨(hset _).1, (hset _).2.trans ?_⟩
      refine Registers.ext rfl ?_ rfl (Bool.and_true _).symm
      by_cases hempty : manifest.version = ""
      · simp [Registers.after, Event.version?, hempty]
      · simp [Registers.after, Event.version?, hempty, hnewer]
    next hold =>
      refine ⟨(hset "").1, (hset "").2.trans ?_⟩
      refine Registers.ext rfl ?_ rfl (Bool.and_true _).symm
      have hnot : ¬ ((manifest.artifacts.lookup artifactKey).isSome = true ∧
          0 < compareSemver manifest.version currentVersion ∧ manifest.version ≠ "") :=
        fun h => hold ⟨h.1, h.2.1⟩
      simp only [Registers.after, Event.version?, if_neg hnot]
      rfl

/-- What is read of the config after a step is what the registers hold. -/
theorem step_observed (lib : Library sys r) (hwritable : Writable sys (getClimonHome env))
    (hhealthy : Healthy sys env disk) (haccepted : Accepted sys r e) :
    Healthy sys env (step sys left env artifactKey disk e) ∧
      observe sys env (step sys left env artifactKey disk e) =
        (observe sys env disk).after sys env artifactKey e := by
  cases e with
  | found currentVersion fetched saves =>
    cases saves with
    | false =>
      refine ⟨hhealthy, (after_quiet rfl ?_ rfl rfl).symm⟩
      cases fetched with
      | error e => rfl
      | ok manifest => rfl
    | true => exact keepFound_observed lib hwritable hhealthy currentVersion fetched
  | recorded now saves =>
    cases saves with
    | false => exact ⟨hhealthy, (after_quiet rfl rfl rfl rfl).symm⟩
    | true =>
      obtain ⟨hhealthy', hobserved⟩ := recordCheck_observed lib hwritable hhealthy haccepted
      refine ⟨hhealthy', hobserved.trans ?_⟩
      exact Registers.ext rfl rfl rfl (Bool.and_true _).symm
  | noticed saves =>
    cases saves with
    | false => exact ⟨hhealthy, (after_quiet rfl rfl rfl rfl).symm⟩
    | true =>
      obtain ⟨hhealthy', hobserved⟩ := maybeShowLicenseNotice_observed lib hwritable hhealthy
      refine ⟨hhealthy', hobserved.trans ?_⟩
      exact Registers.ext rfl rfl rfl (Bool.and_false _).symm
  | updated saves =>
    cases saves with
    | false => exact ⟨hhealthy, (after_quiet rfl rfl rfl rfl).symm⟩
    | true =>
      obtain ⟨hhealthy', hobserved⟩ := setAvailableVersion_observed lib hwritable hhealthy ""
      refine ⟨hhealthy', hobserved.trans ?_⟩
      exact Registers.ext rfl rfl rfl (Bool.and_true _).symm
  | configured cwd scope key call saves =>
    cases saves with
    | false => exact ⟨hhealthy, (after_quiet rfl rfl rfl rfl).symm⟩
    | true =>
      obtain ⟨hknown, hown, hprintable⟩ := haccepted
      exact configured_observed lib hwritable hhealthy hknown hown hprintable rfl

/-! ## Runs -/

theorem run_observed (lib : Library sys r) (hwritable : Writable sys (getClimonHome env))
    (hhealthy : Healthy sys env disk) (haccepted : ∀ e ∈ events, Accepted sys r e) :
    observe sys env (events.foldl (step sys left env artifactKey) disk) =
      events.foldl (Registers.after sys env artifactKey) (observe sys env disk) := by
  induction events generalizing disk with
  | nil => rfl
  | cons e events ih =>
    rw [List.forall_mem_cons] at haccepted
    obtain ⟨hhealthy', hstep⟩ :=
      @step_observed L sys left env r artifactKey disk _ e lib hwritable hhealthy haccepted.1
    rw [List.foldl_cons, List.foldl_cons, ih hhealthy' haccepted.2, hstep]

/-- The registers after a run, by the last event that set each. -/
theorem foldl_after : events.foldl (Registers.after sys env artifactKey) s =
    { lastCheck := latest Event.check? events s.lastCheck
      available := latest (Event.version? artifactKey) events s.available
      auto := latest (Event.auto? sys env) events s.auto
      noticeDue := s.noticeDue && !events.any Event.marks } := by
  induction events generalizing s with
  | nil => exact Registers.ext rfl rfl rfl (Bool.and_true _).symm
  | cons e events ih =>
    rw [List.foldl_cons, ih]
    refine Registers.ext (latest_cons ..).symm (latest_cons ..).symm (latest_cons ..).symm ?_
    simp only [Registers.after, List.any_cons, Bool.not_or, Bool.and_assoc]

/-- The banner for a version that is known of. -/
def bannerFor (available : Option String) (auto : Bool) (currentVersion : String) :
    BannerDecision :=
  match available with
  | none => .none
  | some next =>
    if compareSemver next currentVersion ≤ 0 then .none
    else if auto then .spawnUpdate
    else .show ("Update " ++ currentVersion ++ " → " ++ next ++
      " available — run `climon --update`\n")

/-- The decisions of a launch follow what happened: a check is due by the last that was recorded,
the banner goes by the last check that learnt something, or update, and the last choice of the
user, and the license notice is not shown again once that was recorded. -/
structure Follows (sys : System L) (env : Env) (artifactKey : String) (events : List Event)
    (disk disk' : Disk L) : Prop where
  checks : ∀ intervalMs now, shouldCheck sys env disk' intervalMs now =
    (latest Event.check? events (observe sys env disk).lastCheck).all
      fun last => decide (intervalMs ≤ now - last)
  banner : ∀ currentVersion, bannerDecision sys env disk' currentVersion =
    bannerFor (latest (Event.version? artifactKey) events (getAvailableVersion sys env disk))
      (latest (Event.auto? sys env) events (isAutoUpdate sys env disk)) currentVersion
  notice : licenseNoticeDecision sys env disk' =
    (licenseNoticeDecision sys env disk && !events.any Event.marks)

/-- However checks, launches, updates and `climon config` follow each other, whatever else the config
file holds. -/
theorem decisions_follow (lib : Library sys r) (hwritable : Writable sys (getClimonHome env))
    (hhealthy : Healthy sys env disk) (haccepted : ∀ e ∈ events, Accepted sys r e) :
    Follows sys env artifactKey events disk
      (events.foldl (step sys left env artifactKey) disk) := by
  have hobserved := (@run_observed L sys left env r artifactKey disk _ events lib hwritable hhealthy
    haccepted).trans foldl_after
  refine ⟨fun intervalMs now => ?_, fun currentVersion => ?_, ?_⟩
  · rw [shouldCheck_eq, hobserved]
  · rw [getAvailableVersion_eq, isAutoUpdate_eq, bannerDecision, getAvailableVersion_eq,
      isAutoUpdate_eq, hobserved]
    rfl
  · rw [licenseNoticeDecision_eq, hobserved, licenseNoticeDecision_eq]

end Steps

/-! A check finds a version, and the user wants it installed. -/

def foundVersion : List Event :=
  [.recorded 1000 true,
    .configured homeEnv.home .auto "update.auto" (.write "true") true,
    .found "0.12.1" (.ok ⟨"0.13.0", none, [("linux-x64", ⟨"u", "s"⟩)]⟩) true]

theorem foundVersion_follows : ∃ disk',
    disk' = foundVersion.foldl (step plainSystem (fun _ => none) homeEnv "linux-x64") (fun _ => {}) ∧
      Follows plainSystem homeEnv "linux-x64" foundVersion (fun _ => {}) disk' ∧
      shouldCheck plainSystem homeEnv disk' defaultIntervalMs 2000 = false ∧
      bannerDecision plainSystem homeEnv disk' "0.12.1" = .spawnUpdate := by
  have hpinned : Printable integers plainSystem.floatText "update.auto" (.write "true") := by
    intro text q heq hcoerced
    cases heq
    cases hcoerced
  have haccepted : ∀ e ∈ foundVersion, Accepted plainSystem integers e := by
    unfold foundVersion
    simp only [List.forall_mem_cons]
    refine ⟨?_, ⟨rfl, fun _ => rfl, hpinned⟩, trivial, fun e he => ?_⟩
    · unfold Accepted InRange
      decide
    · cases he
  have hhealthy : Healthy plainSystem homeEnv fun _ => {} := by
    intro name hname
    cases hname
  have hfollows : Follows plainSystem homeEnv "linux-x64" foundVersion (fun _ => {})
      (foundVersion.foldl (step plainSystem (fun _ => none) homeEnv "linux-x64") fun _ => {}) :=
    decisions_follow library_plainSystem ⟨rfl, rfl⟩ hhealthy haccepted
  refine ⟨_, rfl, hfollows, ?_, ?_⟩
  · rw [hfollows.checks]
    rfl
  · rw [hfollows.banner]
    rfl

end Climon.Update.Notices
