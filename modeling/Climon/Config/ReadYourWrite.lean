import Climon.Config.Cascade
import Climon.Config.RoundTrip

namespace Climon.Config.ReadYourWrite

open Climon.Cli.Args (bind_ok)
open Climon.Config.Cascade Climon.Config.CommentStripping Climon.Config.Rendering
  Climon.Config.RoundTrip Climon.Config.Settings
open Climon.Lib Climon.Lib.JsonBounds Climon.Lib.JsonPrint Climon.Lib.JsonText Climon.Lib.JsonValue

/-!
# Settings read after they are written

A write reaches the first place that is searched for it, or one that no search comes to.
-/

/-! ## Keys and values -/

section Values

variable {key text : String} {value : Json} {r : Reader} {floatText : Rat → List Char}

theorem plain_append {s t : String} : Plain (s ++ t) ↔ Plain s ∧ Plain t := by
  unfold Plain
  rw [String.toList_append, List.forall_mem_append]

theorem plain_literal {chars : List Char} (htext : text = String.ofList chars)
    (h : (chars.all fun c => c.toNat != 34 && c.toNat != 92 && 32 ≤ c.toNat) = true) :
    Plain text := by
  subst htext
  intro c hc
  rw [String.toList_ofList] at hc
  have hchar := List.all_eq_true.mp h c hc
  rw [Bool.and_eq_true, decide_eq_true_eq] at hchar
  refine ⟨?_, ?_, hchar.2⟩
  · rintro rfl
    cases hchar.1
  · rintro rfl
    cases hchar.1

theorem plain_configSettings : ∀ setting ∈ configSettings, Plain setting.path := by
  unfold configSettings coreConfigSettings featureConfigSettings featureFlags installConfigSettings
  simp only [List.map_cons, List.map_nil, List.cons_append, List.nil_append,
    List.forall_mem_cons, plain_append, List.not_mem_nil, false_implies, implies_true, and_true]
  and_intros
  all_goals exact plain_literal rfl rfl

theorem mem_of_mem_splitOn {a c : Char} {chars piece : List Char} (hpiece : piece ∈ chars.splitOn a)
    (hc : c ∈ piece) : c ∈ chars := by
  induction chars generalizing piece with
  | nil => simp_all
  | cons d chars ih =>
    obtain ⟨first, pieces, hsplit⟩ := List.exists_cons_of_ne_nil (List.splitOn_ne_nil a chars)
    rw [List.splitOn_cons_eq_if_modifyHead, hsplit] at hpiece
    rw [hsplit] at ih
    split_ifs at hpiece
    · rcases List.mem_cons.mp hpiece with rfl | hmem
      · cases hc
      · exact List.mem_cons_of_mem d (ih hmem hc)
    · rw [List.modifyHead_cons] at hpiece
      rcases List.mem_cons.mp hpiece with rfl | hmem
      · rcases List.mem_cons.mp hc with rfl | hc
        · exact List.mem_cons_self
        · exact List.mem_cons_of_mem d (ih List.mem_cons_self hc)
      · exact List.mem_cons_of_mem d (ih (List.mem_cons_of_mem _ hmem) hc)

theorem plain_split (h : Plain key) : ∀ segment ∈ split key, Plain segment := by
  rw [split, List.forall_mem_map]
  intro piece hpiece c hc
  rw [String.toList_ofList] at hc
  exact h c (mem_of_mem_splitOn hpiece hc)

theorem plain_splitTwo (h : Plain key) : Plain (splitTwo key).1 ∧ Plain (splitTwo key).2 := by
  have hsegments := plain_split h
  have hempty : Plain "" := nofun
  have hhead : ∀ segments : List String, (∀ segment ∈ segments, Plain segment) →
      Plain (segments.headD "") := by
    intro segments hall
    cases segments with
    | nil => exact hempty
    | cons segment segments => exact hall segment List.mem_cons_self
  exact ⟨hhead _ hsegments, hhead _ fun segment hmem => hsegments segment (List.mem_of_mem_tail hmem)⟩

/-- A key from the registry takes a flag, a text or a number. -/
theorem coerced_cases (h : coerceConfigValueFromSettings key text = .ok value) :
    Plain key ∧ ((∃ b, value = .bool b) ∨ (∃ s, value = .string s) ∨
      ∃ d, value = numberValue d) := by
  unfold coerceConfigValueFromSettings findConfigSetting at h
  split at h
  · cases h
  · next setting hfind =>
    have hfound := List.find?_some hfind
    have hkey : setting.path = key := beq_iff_eq.mp hfound
    refine ⟨hkey ▸ plain_configSettings setting (List.mem_of_find?_eq_some hfind), ?_⟩
    have hreturn : ∀ {check : Json → Except String Unit} {coerced : Json},
        (Except.ok coerced >>= fun c => check c >>= fun _ => pure c) = .ok value →
          value = coerced := by
      intro check coerced hreturned
      obtain ⟨c, hcoerced, hchecked⟩ := bind_ok hreturned
      obtain ⟨_, -, hvalue⟩ := bind_ok hchecked
      rw [Except.ok.inj hcoerced]
      exact (Except.ok.inj hvalue).symm
    cases hkind : setting.kind with
    | boolean =>
      simp only [hkind] at h
      left
      split_ifs at h
      · exact ⟨true, by split at h <;> exact hreturn h⟩
      · exact ⟨false, by split at h <;> exact hreturn h⟩
      · cases h
    | number =>
      simp only [hkind] at h
      right
      right
      split at h
      · next d _ => exact ⟨d, by split at h <;> exact hreturn h⟩
      · cases h
    | string =>
      simp only [hkind] at h
      right
      left
      exact ⟨text, by split at h <;> exact hreturn h⟩

theorem numberValue_cases (d : Option JavaScript.Double) :
    numberValue d = .null ∨ (∃ n, numberValue d = .number (ofI64 n) ∧ -2 ^ 63 ≤ n ∧ n < 2 ^ 63) ∨
      ∃ q, numberValue d = .number (.float q) := by
  unfold numberValue
  split
  · split_ifs
    · refine .inr (.inl ⟨_, rfl, ?_, ?_⟩)
      · unfold saturateI64
        omega
      · unfold saturateI64
        omega
    · exact .inr (.inr ⟨_, rfl⟩)
  · exact .inl rfl

end Values

/-! ## Configs that a rendering keeps readable -/

section Readable

variable {key : String} {value : Json} {r : Reader} {floatText : Rat → List Char}
  {fields : List (String × Json)} {names : String × String}

/-- In order, with numbers that are read again from their print. -/
def Sound (r : Reader) (floatText : Rat → List Char) (value : Json) : Prop :=
  Ordered value ∧ ∀ n ∈ numbers value, Rereads r floatText n

theorem sound_object : Sound r floatText (.object fields) ↔
    FieldsHold (Sound r floatText) fields := by
  constructor
  · rintro ⟨hordered, hnumbers⟩
    cases hordered with
    | object hsorted hfields =>
      refine ⟨hsorted, fun field hfield => ⟨hfields field hfield, fun n hn => ?_⟩⟩
      exact hnumbers n (mem_numbersFields.mpr ⟨field, hfield, hn⟩)
  · rintro ⟨hsorted, hfields⟩
    refine ⟨.object hsorted fun field hfield => (hfields field hfield).1, fun n hn => ?_⟩
    obtain ⟨field, hfield, hmem⟩ := mem_numbersFields.mp hn
    exact (hfields field hfield).2 n hmem

/-- The fields of a section, none where it has none. -/
def sectionOf (fields : List (String × Json)) (name : String) : List (String × Json) :=
  match fields.lookup name with
  | some (.object entry) => entry
  | _ => []

theorem withSetting_eq : withSetting fields names value =
    insertField fields names.1 (.object (insertField (sectionOf fields names.1) names.2 value)) := rfl

theorem sectionOf_cases {name : String} :
    sectionOf fields name = [] ∨ (name, .object (sectionOf fields name)) ∈ fields := by
  unfold sectionOf
  split
  · next entry hlookup => exact .inr (AssocList.mem_of_lookup hlookup)
  · exact .inl rfl

theorem sound_withSetting (h : Sound r floatText (.object fields)) (hvalue : Sound r floatText value) :
    Sound r floatText (.object (withSetting fields names value)) := by
  rw [sound_object] at h
  have hsection : FieldsHold (Sound r floatText) (sectionOf fields names.1) := by
    rcases @sectionOf_cases fields names.1 with hnone | hmem
    · rw [hnone]
      exact ⟨.nil, List.forall_mem_nil _⟩
    · exact sound_object.mp (h.2 _ hmem)
  rw [withSetting_eq, sound_object]
  exact h.insert (sound_object.mpr (hsection.insert hvalue))

theorem mem_fieldKeys_insert {name : String}
    (h : name ∈ fieldKeys (insertField fields key value)) :
    name = key ∨ name ∈ objectKeys value ∨ name ∈ fieldKeys fields := by
  obtain ⟨field, hfield, hname⟩ := mem_fieldKeys.mp h
  rcases mem_insertField hfield with rfl | hmem
  · exact hname.imp_right .inl
  · exact .inr (.inr (mem_fieldKeys.mpr ⟨field, hmem, hname⟩))

theorem plain_withSetting (h : ∀ name ∈ fieldKeys fields, Plain name)
    (hnames : Plain names.1 ∧ Plain names.2) (hvalue : objectKeys value = []) :
    ∀ name ∈ fieldKeys (withSetting fields names value), Plain name := by
  rw [withSetting_eq]
  intro name hname
  rcases mem_fieldKeys_insert hname with rfl | hin | hold
  · exact hnames.1
  · rcases mem_fieldKeys_insert hin with rfl | hin | hin
    · exact hnames.2
    · rw [hvalue] at hin
      cases hin
    · apply h name
      rcases @sectionOf_cases fields names.1 with hnone | hmem
      · rw [hnone] at hin
        cases hin
      · exact mem_fieldKeys.mpr ⟨_, hmem, .inr hin⟩
  · exact h name hold

theorem nesting_withSetting {d : Nat} (hd : 2 ≤ d) (h : (Json.object fields).nesting ≤ d)
    (hvalue : value.nesting = 0) : (Json.object (withSetting fields names value)).nesting ≤ d := by
  have hinner := @nestingFields_insert value (sectionOf fields names.1) names.2
  have houter := @nestingFields_insert
    (.object (insertField (sectionOf fields names.1) names.2 value)) fields names.1
  have hsection : Json.nestingFields (sectionOf fields names.1) + 2 ≤ d := by
    rcases @sectionOf_cases fields names.1 with hnone | hmem
    · rw [hnone]
      exact hd
    · have hle := Json.nestingFields_le_iff.mp (Nat.le_refl _) _ hmem
      simp only [Json.nesting] at hle h
      omega
  rw [withSetting_eq]
  simp only [Json.nesting] at h houter ⊢
  omega

end Readable

/-! ## One directory -/

section Directory

variable {L : Type} {sys : System L} {r : Reader} {env : Env} {cwd : Path}
  {key text : String} {scope : WriteScope} {disk disk' : Disk L} {dir other : Path}
  {fields : List (String × Json)} {value coerced : Json}

/-- What is relied on of the JSON library: its grammar, its integers, that the doubles it reads are
printed as numbers, and that an object may stand in an object. -/
structure Library (sys : System L) (r : Reader) : Prop where
  parses : ∀ text, (sys.fromStr text).toOption = r.read .refused text
  integers : KeepsIntegers r
  negative : ∀ text n, r.number text = some (.negInt n) → n < 0
  floats : ∀ text q, r.number text = some (.float q) → Rereads r sys.floatText (.float q)
  depth : ∀ d ∈ r.depth, 2 ≤ d

theorem Library.rereads (lib : Library sys r) {word : List Char} {n : Number}
    (h : r.number word = some n) : Rereads r sys.floatText n := by
  cases n with
  | posInt n => exact (keeps_posInt lib.integers n).rereads
  | negInt n => exact (keeps_negInt lib.integers (lib.negative word n h)).rereads
  | float q => exact lib.floats word q h

/-- A sparse config is sound and not too deep, whatever its file holds. -/
theorem sound_readSparseConfig (lib : Library sys r) (disk : Disk L) (dir : Path) :
    Sound r sys.floatText (.object (readSparseConfig sys disk dir)) ∧
      ∀ d ∈ r.depth, (Json.object (readSparseConfig sys disk dir)).nesting ≤ d := by
  have hempty : Sound r sys.floatText (.object []) ∧
      ∀ d ∈ r.depth, (Json.object []).nesting ≤ d := by
    refine ⟨sound_object.mpr ⟨.nil, List.forall_mem_nil _⟩, fun d hd => ?_⟩
    exact (Nat.le_succ 1).trans (lib.depth d hd)
  unfold readSparseConfig
  split
  · next name raw _ =>
    split
    · next fields hparse =>
      have hread := ((parseJsoncConfig_iff lib.parses).mp hparse).1
      refine ⟨⟨ordered_of_read hread, fun n hn => ?_⟩, nesting_le_of_read hread⟩
      obtain ⟨word, hword⟩ := numbers_of_read hread n hn
      exact lib.rereads hword
    · exact hempty
  · exact hempty

theorem lookup_map {f : Json → Json} {name : String} :
    (fields.map fun field => (field.1, f field.2)).lookup name = (fields.lookup name).map f := by
  induction fields with
  | nil => rfl
  | cons field fields ih =>
    rw [List.map_cons, List.lookup_cons, List.lookup_cons, ih]
    split <;> rfl

theorem get?_loaded {name : String} {floatText : Rat → List Char} :
    (loaded r floatText value).get? name = (value.get? name).map (loaded r floatText) := by
  cases value with
  | object fields =>
    rw [loaded_object]
    exact lookup_map
  | _ => rfl

theorem readDottedKey_withSetting (h : 2 ≤ (split key).length) :
    readDottedKey (withSetting fields (splitTwo key) value) key = some value := by
  unfold readDottedKey splitTwo
  match split key, h with
  | name :: field :: rest, _ =>
    simp [withSetting_eq, lookup_insertField, Json.get?]

theorem readDottedKey_map {floatText : Rat → List Char} :
    readDottedKey (fields.map fun field => (field.1, loaded r floatText field.2)) key =
      (readDottedKey fields key).map (loaded r floatText) := by
  unfold readDottedKey
  split
  · rw [lookup_map]
    cases fields.lookup _ with
    | none => rfl
    | some entry => exact get?_loaded
  · rfl

/-- The numbers of a value from text are read back, where a double is. -/
theorem keeps_coerced (lib : Library sys r)
    (hcoerced : coerceConfigValueFromSettings key text = .ok coerced)
    (hfloat : ∀ q, coerced = .number (.float q) → Keeps r sys.floatText (.float q)) :
    ∀ n ∈ numbers coerced, Keeps r sys.floatText n := by
  intro n hn
  obtain ⟨-, ⟨b, rfl⟩ | ⟨s, rfl⟩ | ⟨d, rfl⟩⟩ := coerced_cases hcoerced
  · cases hn
  · cases hn
  · rcases numberValue_cases d with hd | ⟨m, hd, hlow, hhigh⟩ | ⟨q, hd⟩
    · rw [hd] at hn
      cases hn
    · rw [hd] at hn
      rw [List.mem_singleton.mp hn]
      exact keeps_ofI64 lib.integers hlow hhigh
    · have hkeeps := hfloat q hd
      rw [hd] at hn
      rwa [List.mem_singleton.mp hn]

theorem scalar_coerced (hcoerced : coerceConfigValueFromSettings key text = .ok coerced) :
    Ordered coerced ∧ objectKeys coerced = [] ∧ coerced.nesting = 0 ∧
      ∀ n, n ∈ leafNumbers coerced ↔ coerced = .number n := by
  obtain ⟨-, ⟨b, rfl⟩ | ⟨s, rfl⟩ | ⟨d, rfl⟩⟩ := coerced_cases hcoerced
  · exact ⟨.bool b, rfl, rfl, by simp [leafNumbers]⟩
  · exact ⟨.string s, rfl, rfl, by simp [leafNumbers]⟩
  · rcases numberValue_cases d with hd | ⟨m, hd, -, -⟩ | ⟨q, hd⟩ <;> rw [hd]
    · exact ⟨.null, rfl, rfl, by simp [leafNumbers]⟩
    · exact ⟨.number _, rfl, rfl, by simp [leafNumbers, eq_comm]⟩
    · exact ⟨.number _, rfl, rfl, by simp [leafNumbers, eq_comm]⟩

/-- A value from text is read back as it is, but for a double that the casts cut. -/
theorem normalise_loaded (lib : Library sys r)
    (hcoerced : coerceConfigValueFromSettings key text = .ok coerced)
    (hfloat : ∀ q, coerced = .number (.float q) → Keeps r sys.floatText (.float q)) :
    normalise (loaded r sys.floatText coerced) = normalise coerced ↔
      ∀ n, coerced = .number n → ¬ Cut n := by
  obtain ⟨-, -, -, hleaves⟩ := scalar_coerced hcoerced
  rw [loaded_eq lib.integers (keeps_coerced lib hcoerced hfloat), normalise_reread]
  apply forall_congr'
  intro n
  rw [hleaves n, value_leafNumber]

variable [DecidableEq L]

/-- What a write does: one folder gets a canonical file, rendered from its sparse config. -/
theorem write_spec (h : writeConfigSetting sys env cwd key scope disk text = .ok (dir, disk')) :
    dir = resolveWriteDirForKey sys env cwd key scope disk ∧
      ∃ coerced folder, coerceConfigValueFromSettings key text = .ok coerced ∧
        disk' = Function.update disk (sys.locate dir) folder ∧
        folder.canonical = some (.text (renderJsoncConfig sys.floatText
          (.object (withSetting (readSparseConfig sys disk dir) (splitTwo key) coerced)))) := by
  obtain ⟨coerced, hcoerced, h⟩ := bind_ok h
  obtain ⟨written, hwritten, h⟩ := bind_ok h
  obtain ⟨rfl, rfl⟩ := Prod.ext_iff.mp (Except.ok.inj h)
  refine ⟨rfl, coerced, ?_⟩
  unfold writeSparseConfig at hwritten
  obtain ⟨-, -, hwritten⟩ := bind_ok hwritten
  obtain ⟨-, -, hwritten⟩ := bind_ok hwritten
  split at hwritten
  · obtain ⟨-, -, hwritten⟩ := bind_ok hwritten
    exact ⟨_, hcoerced, (Except.ok.inj hwritten).symm, rfl⟩
  · exact ⟨_, hcoerced, (Except.ok.inj hwritten).symm, rfl⟩

/-- The directory that was written has the config with the setting, as it is read back. -/
theorem readSparseConfig_written (lib : Library sys r)
    (hwrite : writeConfigSetting sys env cwd key scope disk text = .ok (dir, disk'))
    (hcoerced : coerceConfigValueFromSettings key text = .ok coerced)
    (hfloat : ∀ q, coerced = .number (.float q) → Keeps r sys.floatText (.float q))
    (hkeys : ∀ name ∈ fieldKeys (readSparseConfig sys disk dir), Plain name)
    (hplace : sys.locate other = sys.locate dir) :
    Json.object (readSparseConfig sys disk' other) = loaded r sys.floatText
      (.object (withSetting (readSparseConfig sys disk dir) (splitTwo key) coerced)) := by
  obtain ⟨-, coerced', folder, hcoerced', rfl, hcanonical⟩ := write_spec hwrite
  obtain rfl := Except.ok.inj (hcoerced.symm.trans hcoerced')
  obtain ⟨hsound, hdepth⟩ := sound_readSparseConfig lib disk dir
  obtain ⟨hordered, hnames, hnesting, -⟩ := scalar_coerced hcoerced
  have hnumbers := keeps_coerced lib hcoerced hfloat
  have hrecord := @sound_withSetting _ r sys.floatText _ (splitTwo key) hsound
    ⟨hordered, fun n hn => (hnumbers n hn).rereads⟩
  have hread := read_rendering lib.integers hrecord.1 hrecord.2
    (plain_withSetting hkeys (plain_splitTwo (coerced_cases hcoerced).1) hnames)
    fun d hd => nesting_withSetting (lib.depth d hd) (hdepth d hd) hnesting
  have hobject : ∃ fields, loaded r sys.floatText (.object (withSetting
      (readSparseConfig sys disk dir) (splitTwo key) coerced)) = .object fields :=
    ⟨_, loaded_object⟩
  obtain ⟨fields, hfields⟩ := hobject
  rw [hfields] at hread ⊢
  have hparse := (@parseJsoncConfig_iff r sys.fromStr _ (other.join "config.jsonc").display _
    lib.parses).mpr ⟨hread, rfl⟩
  rw [readSparseConfig, hplace, Function.update_self, existingConfig, hcanonical]
  simp only [hparse]

theorem readSparseConfig_other
    (hwrite : writeConfigSetting sys env cwd key scope disk text = .ok (dir, disk'))
    (hplace : sys.locate other ≠ sys.locate dir) :
    readSparseConfig sys disk' other = readSparseConfig sys disk other := by
  obtain ⟨-, coerced, folder, -, rfl, -⟩ := write_spec hwrite
  rw [readSparseConfig, Function.update_of_ne hplace, ← readSparseConfig]

end Directory

/-! ## The whole cascade -/

section Searching

variable {α β : Type} {f g : α → Option β} {hit : α → Bool} {value : β} {items : List α}

/-- The first of some new entries is found unless an old one stands before it. -/
theorem findSome?_hit (hnew : ∀ a, hit a = true → g a = some value)
    (hold : ∀ a, hit a = false → g a = f a) (h : ∃ a ∈ items, hit a = true) :
    items.findSome? g = ((items.takeWhile fun a => !hit a).findSome? f).or (some value) := by
  induction items with
  | nil => simp at h
  | cons a items ih =>
    cases hhit : hit a with
    | true => simp [hnew a hhit, hhit]
    | false =>
      have hrest : ∃ b ∈ items, hit b = true := by
        obtain ⟨b, hb, hbhit⟩ := h
        rcases List.mem_cons.mp hb with rfl | hb
        · rw [hhit] at hbhit
          cases hbhit
        · exact ⟨b, hb, hbhit⟩
      rw [List.findSome?_cons, hold a hhit, ih hrest]
      simp only [List.takeWhile_cons, hhit, Bool.not_false, if_true, List.findSome?_cons]
      cases f a <;> rfl

theorem findSome?_same (h : ∀ a ∈ items, g a = f a) : items.findSome? g = items.findSome? f := by
  induction items with
  | nil => rfl
  | cons a items ih =>
    rw [List.forall_mem_cons] at h
    rw [List.findSome?_cons, List.findSome?_cons, h.1, ih h.2]

end Searching

section Cascading

variable {L : Type} [DecidableEq L] (sys : System L) (env : Env) (cwd : Path) (key : String)

/-- The lookup comes to the directory, by whatever path. -/
def Searched (dir : Path) : Prop :=
  ∃ other ∈ candidateConfigDirs env cwd, sys.locate other = sys.locate dir

/-- The project-local directories that come before it. -/
def moreSpecific (dir : Path) : List Path :=
  (projectConfigDirs env cwd).takeWhile fun other => sys.locate other ≠ sys.locate dir

/-- A more specific project-local config sets the key, which is not read from the global one only. -/
def Shadowed (dir : Path) (disk : Disk L) : Prop :=
  isGlobalOnly key = false ∧ ∃ other ∈ moreSpecific sys env cwd dir,
    (readDottedKey (readSparseConfig sys disk other) key).isSome = true

/-- The setting is found, with the value up to the notation of a number. -/
def Loads (disk : Disk L) (value : Json) : Prop :=
  ∃ json, resolveConfigSetting sys env cwd key disk = some json ∧ normalise json = normalise value

end Cascading

section Cascaded

variable {L : Type} {sys : System L} {r : Reader} {env : Env} {cwd : Path}
  {key text : String} {scope : WriteScope} {disk disk' : Disk L} {dir other : Path}
  {value coerced : Json}

theorem candidateConfigDirs_eq : candidateConfigDirs env cwd =
    if (projectConfigDirs env cwd).contains (getClimonHome env) then projectConfigDirs env cwd
    else projectConfigDirs env cwd ++ [getClimonHome env] := rfl

theorem projectConfigDirs_eq : projectConfigDirs env cwd =
    if (cwd.resolve env.currentDir).startsWith (env.home.resolve env.currentDir) then
      climb (env.home.resolve env.currentDir) (cwd.resolve env.currentDir).absolute
        (cwd.resolve env.currentDir).parts.reverse
    else [(cwd.resolve env.currentDir).join ".climon"] := rfl

theorem home_mem_candidates : getClimonHome env ∈ candidateConfigDirs env cwd := by
  rw [candidateConfigDirs_eq]
  split
  · next h => exact List.contains_iff_mem.mp h
  · exact List.mem_append_right _ List.mem_cons_self

/-- Below the home directory the search starts where it is asked to. -/
theorem head_climb {path boundary : Path} (h : path ≠ boundary) :
    path.join ".climon" ∈ climb boundary path.absolute path.parts.reverse := by
  obtain ⟨absolute, parts⟩ := path
  cases hparts : parts.reverse with
  | nil =>
    obtain rfl := List.reverse_eq_nil_iff.mp hparts
    rw [climb, if_neg h]
    exact List.mem_cons_self
  | cons name above =>
    have hdir : (name :: above).reverse = parts := by
      rw [← hparts, List.reverse_reverse]
    rw [climb, hdir, if_neg h]
    exact List.mem_cons_self

theorem climb_boundary {path : Path} : climb path path.absolute path.parts.reverse = [] := by
  obtain ⟨absolute, parts⟩ := path
  cases hparts : parts.reverse with
  | nil =>
    obtain rfl := List.reverse_eq_nil_iff.mp hparts
    exact if_pos rfl
  | cons name above =>
    have hdir : (name :: above).reverse = parts := by
      rw [← hparts, List.reverse_reverse]
    rw [climb, hdir]
    exact if_pos rfl

/-- A write goes where the search comes by, or it is local to a home directory whose global config
is elsewhere. -/
theorem searched_or : Searched sys env cwd (resolveWriteDirForKey sys env cwd key scope disk) ∨
    scope = .local ∧ cwd.resolve env.currentDir = env.home.resolve env.currentDir := by
  have hhome : Searched sys env cwd (getClimonHome env) := ⟨_, home_mem_candidates, rfl⟩
  unfold resolveWriteDirForKey
  split
  · exact .inl hhome
  · cases scope with
    | global => exact .inl hhome
    | auto =>
      refine .inl ?_
      rw [resolveWriteDir]
      cases hfind : (candidateConfigDirs env cwd).find? fun dir =>
          (existingConfig (disk (sys.locate dir))).isSome with
      | none => exact hhome
      | some dir => exact ⟨dir, List.mem_of_find?_eq_some hfind, rfl⟩
    | «local» =>
      by_cases hstart : cwd.resolve env.currentDir = env.home.resolve env.currentDir
      · exact .inr ⟨rfl, hstart⟩
      · refine .inl ⟨_, ?_, rfl⟩
        have hproject : (cwd.resolve env.currentDir).join ".climon" ∈ projectConfigDirs env cwd := by
          rw [projectConfigDirs_eq]
          split
          · exact head_climb hstart
          · exact List.mem_cons_self
        rw [resolveWriteDir, candidateConfigDirs_eq]
        split
        · exact hproject
        · exact List.mem_append_left _ hproject

theorem projectConfigDirs_home
    (h : cwd.resolve env.currentDir = env.home.resolve env.currentDir) :
    projectConfigDirs env cwd = [] := by
  have hprefix : (env.home.resolve env.currentDir).startsWith (env.home.resolve env.currentDir) =
      true := by
    simp [Path.startsWith]
  rw [projectConfigDirs_eq, h, if_pos hprefix, climb_boundary]

theorem resolveWriteDirForKey_global (hscope : ¬ (scope = .local ∧ isGlobalOnly key = true))
    (hglobal : isGlobalOnly key = true) :
    resolveWriteDirForKey sys env cwd key scope disk = getClimonHome env := by
  unfold resolveWriteDirForKey
  cases scope with
  | auto => exact if_pos ⟨rfl, hglobal⟩
  | «local» => exact absurd ⟨rfl, hglobal⟩ hscope
  | global => rw [if_neg (by simp), resolveWriteDir]

theorem readDottedKey_short (h : ¬ 2 ≤ (split key).length) (fields : List (String × Json)) :
    readDottedKey fields key = none := by
  unfold readDottedKey
  match split key, h with
  | [], _ => rfl
  | [_], _ => rfl
  | _ :: _ :: _, h => exact absurd (by simp) h

theorem resolve_short (h : ¬ 2 ≤ (split key).length) :
    resolveConfigSetting sys env cwd key disk = none := by
  unfold resolveConfigSetting readGlobalConfigSetting
  split
  · exact readDottedKey_short h _
  · rw [List.findSome?_eq_none_iff]
    exact fun other _ => readDottedKey_short h _

/-- Whatever the project-local configs hold, a key that is global only is read from the global one. -/
theorem resolve_global {other : Disk L} (hglobal : isGlobalOnly key = true)
    (hsame : other (sys.locate (getClimonHome env)) = disk (sys.locate (getClimonHome env))) :
    resolveConfigSetting sys env cwd key other = resolveConfigSetting sys env cwd key disk := by
  unfold resolveConfigSetting readGlobalConfigSetting readSparseConfig
  rw [if_pos hglobal, if_pos hglobal, hsame]

variable [DecidableEq L]

theorem takeWhile_candidates (h : Searched sys env cwd dir) :
    (candidateConfigDirs env cwd).takeWhile (fun other => sys.locate other ≠ sys.locate dir) =
      moreSpecific sys env cwd dir := by
  rw [Searched, candidateConfigDirs_eq] at h
  rw [moreSpecific, candidateConfigDirs_eq]
  split
  · rfl
  · next hnew =>
    rw [if_neg hnew] at h
    rw [List.takeWhile_append]
    split_ifs with hall
    · have hpass : (projectConfigDirs env cwd).takeWhile
          (fun other => sys.locate other ≠ sys.locate dir) = projectConfigDirs env cwd :=
        List.IsPrefix.eq_of_length (List.takeWhile_prefix _) hall
      obtain ⟨other, hother, hplace⟩ := h
      rcases List.mem_append.mp hother with hmem | hmem
      · have hne := List.takeWhile_eq_self_iff.mp hpass other hmem
        exact absurd hplace (of_decide_eq_true hne)
      · rw [List.mem_singleton.mp hmem] at hplace
        rw [hpass]
        simp [hplace]
    · rfl

/-- Where the written directory is searched, its setting is found if no other hides it. -/
theorem resolve_searched (lib : Library sys r)
    (hscope : ¬ (scope = .local ∧ isGlobalOnly key = true))
    (hwrite : writeConfigSetting sys env cwd key scope disk text = .ok (dir, disk'))
    (hcoerced : coerceConfigValueFromSettings key text = .ok coerced)
    (hfloat : ∀ q, coerced = .number (.float q) → Keeps r sys.floatText (.float q))
    (hkeys : ∀ name ∈ fieldKeys (readSparseConfig sys disk dir), Plain name)
    (hkey : 2 ≤ (split key).length) (hsearched : Searched sys env cwd dir)
    (hshadow : ¬ Shadowed sys env cwd key dir disk) :
    resolveConfigSetting sys env cwd key disk' = some (loaded r sys.floatText coerced) := by
  have hwritten : ∀ other, sys.locate other = sys.locate dir →
      readDottedKey (readSparseConfig sys disk' other) key =
        some (loaded r sys.floatText coerced) := by
    intro other hplace
    have hread := readSparseConfig_written lib hwrite hcoerced hfloat hkeys hplace
    rw [loaded_object] at hread
    rw [Json.object.inj hread, readDottedKey_map, readDottedKey_withSetting hkey, Option.map_some]
  unfold resolveConfigSetting
  split
  · next hglobal =>
    have hdir := (write_spec hwrite).1
    rw [resolveWriteDirForKey_global hscope hglobal] at hdir
    subst hdir
    exact hwritten _ rfl
  · next hlocal =>
    have hother : ∀ other, decide (sys.locate other = sys.locate dir) = false →
        readDottedKey (readSparseConfig sys disk' other) key =
          readDottedKey (readSparseConfig sys disk other) key := by
      intro other hne
      rw [readSparseConfig_other hwrite (of_decide_eq_false hne)]
    have hsearch : ∃ other ∈ candidateConfigDirs env cwd,
        decide (sys.locate other = sys.locate dir) = true := by
      obtain ⟨other, hmem, hplace⟩ := hsearched
      exact ⟨other, hmem, decide_eq_true hplace⟩
    have hbefore : (moreSpecific sys env cwd dir).findSome?
        (fun other => readDottedKey (readSparseConfig sys disk other) key) = none := by
      rw [List.findSome?_eq_none_iff]
      intro other hmem
      by_contra hsome
      refine hshadow ⟨Bool.eq_false_iff.mpr hlocal, other, hmem, ?_⟩
      exact Option.isSome_iff_ne_none.mpr hsome
    have hpred : (fun other => !decide (sys.locate other = sys.locate dir)) =
        fun other => decide (sys.locate other ≠ sys.locate dir) := by
      funext other
      exact decide_not.symm
    rw [findSome?_hit (fun other hhit => hwritten other (of_decide_eq_true hhit)) hother hsearch,
      hpred, takeWhile_candidates hsearched, hbefore, Option.none_or]

/-- Where it is not, all is as before. -/
theorem resolve_unsearched
    (hwrite : writeConfigSetting sys env cwd key scope disk text = .ok (dir, disk'))
    (hsearched : ¬ Searched sys env cwd dir) :
    resolveConfigSetting sys env cwd key disk' = resolveConfigSetting sys env cwd key disk := by
  have hother : ∀ other ∈ candidateConfigDirs env cwd,
      readSparseConfig sys disk' other = readSparseConfig sys disk other := fun other hmem =>
    readSparseConfig_other hwrite fun hplace => hsearched ⟨other, hmem, hplace⟩
  unfold resolveConfigSetting readGlobalConfigSetting
  rw [hother _ home_mem_candidates]
  split
  · rfl
  · apply findSome?_same
    intro other hmem
    rw [hother other hmem]

theorem shadowed_written
    (hwrite : writeConfigSetting sys env cwd key scope disk text = .ok (dir, disk')) :
    Shadowed sys env cwd key dir disk' ↔ Shadowed sys env cwd key dir disk := by
  unfold Shadowed
  apply and_congr_right
  intro _
  apply exists_congr
  intro other
  apply and_congr_right
  intro hmem
  have hne := List.mem_takeWhile_imp hmem
  rw [readSparseConfig_other hwrite (of_decide_eq_true hne)]

end Cascaded

/-- After a write into a config whose keys need no escape, the value is found unless the key has no
second segment, the casts cut the value, or no search comes by and the global config has another.
A more specific config may hide it. -/
theorem readYourWrite_iff {L : Type} [DecidableEq L] (sys : System L) (r : Reader)
    (lib : Library sys r) (env : Env) (cwd : Path) (key text : String) (scope : WriteScope)
    (disk disk' : Disk L) (dir : Path) (coerced : Json)
    (hscope : ¬ (scope = .local ∧ isGlobalOnly key = true))
    (hwrite : writeConfigSetting sys env cwd key scope disk text = .ok (dir, disk'))
    (hcoerced : coerceConfigValueFromSettings key text = .ok coerced)
    (hfloat : ∀ q, coerced = .number (.float q) → Keeps r sys.floatText (.float q)) :
    ((∀ name ∈ fieldKeys (readSparseConfig sys disk dir), Plain name) →
      (Loads sys env cwd key disk' coerced ∨ Shadowed sys env cwd key dir disk' ↔
        Shadowed sys env cwd key dir disk ∨
          (Searched sys env cwd dir → 2 ≤ (split key).length ∧ ∀ n, coerced = .number n → ¬ Cut n) ∧
            (¬ Searched sys env cwd dir → Loads sys env cwd key disk coerced))) ∧
      (isGlobalOnly key = true → ∀ other : Disk L,
        other (sys.locate (getClimonHome env)) = disk' (sys.locate (getClimonHome env)) →
          resolveConfigSetting sys env cwd key other =
            resolveConfigSetting sys env cwd key disk') := by
  refine ⟨fun hkeys => ?_, fun hglobal other => resolve_global hglobal⟩
  rw [shadowed_written hwrite, or_comm]
  by_cases hshadow : Shadowed sys env cwd key dir disk
  · exact iff_of_true (.inl hshadow) (.inl hshadow)
  · simp only [hshadow, false_or]
    by_cases hsearched : Searched sys env cwd dir
    · simp only [hsearched, true_implies, not_true_eq_false, false_implies, and_true]
      by_cases hkey : 2 ≤ (split key).length
      · have hresolve :=
          resolve_searched lib hscope hwrite hcoerced hfloat hkeys hkey hsearched hshadow
        rw [Loads, hresolve]
        simp [hkey, normalise_loaded lib hcoerced hfloat]
      · rw [Loads, resolve_short hkey]
        simp [hkey]
    · rw [Loads, resolve_unsearched hwrite hsearched, ← Loads]
      simp [hsearched]

section

/-- Nothing fails, and no path is a link. -/
def plainSystem : System Path where
  locate path := path
  createDirAll _ := .ok ()
  write _ := .ok ()
  rename _ := .ok ()
  fromStr := parseIntegers
  floatText _ := []

theorem library_plainSystem : Library plainSystem integers where
  parses := parseIntegers_toOption
  integers := keepsIntegers_integers
  negative text n h := by
    simp only [integers] at h
    split at h
    · split_ifs at h with hrange
      obtain rfl := Number.negInt.inj (Option.some.inj h)
      rw [Int64.lt_iff_toInt_lt, Int64.toInt_ofInt_of_le (by omega) (by omega)]
      change -(Nat.ofDigitChars 10 _ 0 : Int) < 0
      omega
    · cases h
  floats text q h := by
    simp only [integers] at h
    split at h
    · split_ifs at h
      cases h
    · cases h
  depth d hd := by
    obtain rfl := Option.some.inj hd
    decide

def homeEnv : Env := ⟨none, ⟨true, ["home", "user"]⟩, ⟨true, ["home", "user"]⟩⟩

theorem coerce_pinned :
    coerceConfigValueFromSettings "dashboard.keyBarPinned" "true" = .ok (.bool true) := rfl

theorem split_pinned : split "dashboard.keyBarPinned" = ["dashboard", "keyBarPinned"] := by decide +kernel

theorem write_pinned (disk : Disk Path) : ∃ disk',
    writeConfigSetting plainSystem homeEnv homeEnv.home "dashboard.keyBarPinned" .global disk "true" =
      .ok (getClimonHome homeEnv, disk') := by
  have hstored : ∀ record, ∃ disk',
      writeSparseConfig plainSystem disk (getClimonHome homeEnv) record = .ok disk' := by
    intro record
    unfold writeSparseConfig
    dsimp only [plainSystem]
    split
    · exact ⟨_, rfl⟩
    · exact ⟨_, rfl⟩
  obtain ⟨disk', hdisk⟩ := hstored (.object (withSetting
    (readSparseConfig plainSystem disk (getClimonHome homeEnv)) (splitTwo "dashboard.keyBarPinned")
    (.bool true)))
  have hdir : resolveWriteDirForKey plainSystem homeEnv homeEnv.home "dashboard.keyBarPinned" .global
      disk = getClimonHome homeEnv := rfl
  refine ⟨disk', ?_⟩
  rw [writeConfigSetting, hdir, coerce_pinned]
  change (writeSparseConfig plainSystem disk (getClimonHome homeEnv) _ >>= _) = _
  rw [hdisk]
  rfl

theorem pinned_found : ∃ disk',
    writeConfigSetting plainSystem homeEnv homeEnv.home "dashboard.keyBarPinned" .global
        (fun _ => {}) "true" = .ok (getClimonHome homeEnv, disk') ∧
      (Loads plainSystem homeEnv homeEnv.home "dashboard.keyBarPinned" disk' (.bool true) ∨
        Shadowed plainSystem homeEnv homeEnv.home "dashboard.keyBarPinned" (getClimonHome homeEnv)
          disk') := by
  obtain ⟨disk', hwrite⟩ := write_pinned fun _ => {}
  refine ⟨disk', hwrite, ?_⟩
  have hfloat : ∀ q, Json.bool true = .number (.float q) →
      Keeps integers plainSystem.floatText (.float q) := nofun
  refine ((readYourWrite_iff plainSystem integers library_plainSystem homeEnv homeEnv.home
    "dashboard.keyBarPinned" "true" .global (fun _ => {}) disk' (getClimonHome homeEnv)
    (.bool true) (by simp) hwrite coerce_pinned hfloat).1 nofun).mpr (.inr ⟨?_, ?_⟩)
  · refine fun _ => ⟨?_, nofun⟩
    rw [split_pinned]
    exact Nat.le_refl 2
  · exact fun hsearched => absurd ⟨_, home_mem_candidates, rfl⟩ hsearched

/-- The global config holds a key that is a quote. -/
def quoteDisk : Disk Path := fun place =>
  if place = getClimonHome homeEnv then
    { canonical := some (.text "\x7b\"\\\"\":1\x7d".toList) }
  else {}

theorem read_quote : readSparseConfig plainSystem quoteDisk (getClimonHome homeEnv) =
    [("\"", .number (.posInt 1))] := by
  have hlex : lex .nothing "\x7b\"\\\"\":1\x7d".toList = some [.mark .openObject,
      .string ['\\', '"'], .mark .colon, .word ['1'], .mark .closeObject] := by decide
  have hkey : readString ['\\', '"'] = some "\"" := readString_escape "\""
  have hread : integers.read .nothing "\x7b\"\\\"\":1\x7d".toList =
      some (.object [("\"", .number (.posInt 1))]) := by
    have hname : integers.step (.firstKey []) (.string ['\\', '"']) = some (.colon [] "\"" []) := by
      simp only [Reader.step, hkey, Option.map_some]
    have hnumber : integers.readWord ['1'] = some (.number (.posInt 1)) := rfl
    have hvalue : integers.step (.value [.object [] "\""]) (.word ['1']) =
        some (.after (.number (.posInt 1)) [.object [] "\""]) := by
      simp only [Reader.step, Reader.startValue, hnumber, Option.map_some]
    have hopen : integers.step (.value []) (.mark .openObject) = some (.firstKey []) := rfl
    rw [Reader.read, hlex]
    simp only [Option.bind_some, Reader.parse, Reader.run_parser_cons, hopen, hname, hvalue,
      show integers.step (.colon [] "\"" []) (.mark .colon) =
        some (.value [.object [] "\""]) from rfl]
    rfl
  have hparse := (@parseJsoncConfig_iff integers plainSystem.fromStr _
    ((getClimonHome homeEnv).join "config.jsonc").display _ parseIntegers_toOption).mpr ⟨hread, rfl⟩
  have hfolder : existingConfig (quoteDisk (plainSystem.locate (getClimonHome homeEnv))) =
      some ("config.jsonc", .text "\x7b\"\\\"\":1\x7d".toList) := by
    change existingConfig (quoteDisk (getClimonHome homeEnv)) = _
    rw [quoteDisk, if_pos rfl]
    rfl
  rw [readSparseConfig, hfolder]
  simp only [hparse]

theorem withSetting_quote : withSetting [("\"", .number (.posInt 1))] ("dashboard", "keyBarPinned")
    (.bool true) = [("\"", .number (.posInt 1)), ("dashboard", .object [("keyBarPinned", .bool true)])] := by
  rfl

/-- The third quote opens a string that nothing closes. -/
theorem lex_quote : lex .nothing (renderJsoncConfig (fun _ => []) (.object
    [("\"", .number (.posInt 1)), ("dashboard", .object [("keyBarPinned", .bool true)])])) =
      none := by
  let pinned : Json := .object [("keyBarPinned", .bool true)]
  let text := valueText configSettings (fun _ => []) "dashboard" 1 pinned
  have hsort : sortEntries configSettings ""
      [(("\"", .number (.posInt 1)), ['1']), (("dashboard", pinned), text)] =
        [(("dashboard", pinned), text), (("\"", .number (.posInt 1)), ['1'])] := by
    have hquote : isKnown configSettings "" ("\"", .number (.posInt 1)) = false := rfl
    have hdashboard : isKnown configSettings "" ("dashboard", pinned) = true := rfl
    simp [sortEntries, hquote, hdashboard]
  have hordered : Ordered pinned :=
    .object (List.pairwise_singleton _ _) (List.forall_mem_singleton.mpr (.bool true))
  have hreads : Reads .nothing integers text (loaded integers (fun _ => []) pinned) :=
    reads_valueText oneLines_configSettings keepsIntegers_integers hordered nofun
      (List.forall_mem_singleton.mpr (plain_literal rfl rfl)) _ _
  obtain ⟨tokens, hlex, -⟩ := hreads
  have hline := @lexes_entryLine 1 (("dashboard", pinned), text) _ tokens
    (plain_literal rfl rfl) hlex
  have hopen : Closed .nothing ['\x7b', '\n'] [.mark .openObject] :=
    (closed_mark rfl).append (closed_space rfl)
  have hcomma : Closed .nothing (entryLine 1 (("dashboard", pinned), text) [] ++ [','] ++ ['\n']) _ :=
    (hline.close rfl (closed_mark rfl)).append (closed_space rfl)
  have htext : renderJsoncConfig (fun _ => []) (.object
      [("\"", .number (.posInt 1)), ("dashboard", pinned)]) =
        ['\x7b', '\n'] ++ (entryLine 1 (("dashboard", pinned), text) [] ++ [','] ++ ['\n']) ++
          "  \"\"\": 1\n\x7d\n".toList := by
    change objectText configSettings "" 0 [(("\"", .number (.posInt 1)), ['1']),
      (("dashboard", pinned), text)] ++ ['\n'] = _
    rw [objectText_eq, hsort]
    have hdashboard : commentLines configSettings "" 1 "dashboard" = [] := rfl
    have hquote : commentLines configSettings "" 1 "\"" = [] := rfl
    simp only [bodyText, bodyLines, hdashboard, hquote, entryLine]
    simp
    rfl
  rw [lex, htext, hopen.append hcomma]
  rfl

theorem quote_lost {disk' : Disk Path}
    (hwrite : writeConfigSetting plainSystem homeEnv homeEnv.home "dashboard.keyBarPinned" .global
      quoteDisk "true" = .ok (getClimonHome homeEnv, disk')) :
    readSparseConfig plainSystem disk' (getClimonHome homeEnv) = [] := by
  obtain ⟨-, coerced, folder, hcoerced, rfl, hcanonical⟩ := write_spec hwrite
  obtain rfl := Except.ok.inj (coerce_pinned.symm.trans hcoerced)
  have hnames : splitTwo "dashboard.keyBarPinned" = ("dashboard", "keyBarPinned") := by
    rw [splitTwo, split_pinned]
    rfl
  rw [read_quote, hnames, withSetting_quote] at hcanonical
  rw [readSparseConfig, Function.update_self, existingConfig, hcanonical]
  dsimp only
  split
  · next fields hok =>
    have hread := ((parseJsoncConfig_iff parseIntegers_toOption).mp hok).1
    change integers.read .nothing (renderJsoncConfig (fun _ => []) _) = _ at hread
    rw [Reader.read, lex_quote] at hread
    cases hread
  · rfl

/-- Where a key is a quote, the config is lost with the next write. -/
theorem quote_loses :
    ¬ ∀ (L : Type) [DecidableEq L] (sys : System L) (r : Reader), Library sys r →
      ∀ (env : Env) (cwd : Path) (key text : String) (scope : WriteScope) (disk disk' : Disk L)
        (dir : Path) (coerced : Json), ¬ (scope = .local ∧ isGlobalOnly key = true) →
        writeConfigSetting sys env cwd key scope disk text = .ok (dir, disk') →
        coerceConfigValueFromSettings key text = .ok coerced →
        (∀ q, coerced = .number (.float q) → Keeps r sys.floatText (.float q)) →
          Loads sys env cwd key disk' coerced ∨ Shadowed sys env cwd key dir disk' := by
  intro h
  obtain ⟨disk', hwrite⟩ := write_pinned quoteDisk
  have hproject : projectConfigDirs homeEnv homeEnv.home = [] := projectConfigDirs_home rfl
  rcases h Path plainSystem integers library_plainSystem homeEnv homeEnv.home
      "dashboard.keyBarPinned" "true" .global quoteDisk disk' (getClimonHome homeEnv) (.bool true)
      (by simp) hwrite coerce_pinned nofun with ⟨json, hresolve, -⟩ | ⟨-, other, hmem, -⟩
  · have hglobal : isGlobalOnly "dashboard.keyBarPinned" = false := rfl
    have hdirs : candidateConfigDirs homeEnv homeEnv.home = [getClimonHome homeEnv] := by
      rw [candidateConfigDirs_eq, hproject]
      rfl
    have hnone : resolveConfigSetting plainSystem homeEnv homeEnv.home "dashboard.keyBarPinned" disk' =
        none := by
      rw [resolveConfigSetting, hglobal, if_neg Bool.false_ne_true, hdirs, List.findSome?_cons,
        quote_lost hwrite, readDottedKey, split_pinned]
      rfl
    rw [hnone] at hresolve
    cases hresolve
  · rw [moreSpecific, hproject] at hmem
    cases hmem

end

end Climon.Config.ReadYourWrite
