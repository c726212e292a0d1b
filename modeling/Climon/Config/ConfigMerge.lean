import Climon.Lib.ValueTree

namespace Climon.Config.ConfigMerge

open Climon.Lib.AssocList Climon.Lib.ValueTree

/-!
# Merging configs

What a caller changed since it loaded its config, applied to the config that is on disk by now.
-/

/-! ## Values -/

/-- A number is the bits of its double: the comparison tells the two zeros apart. -/
inductive Scalar where
  | null
  | bool (b : Bool)
  | number (bits : UInt64)
  | string (units : List UInt16)
  deriving DecidableEq

abbrev Key := List UInt16

abbrev Value := Tree Key Scalar

abbrev Properties := Entries Key Scalar

inductive ConfigDelta where
  | delete
  | replace (value : Value)
  | object (entries : List (Key × ConfigDelta))

/-! ## Diffs -/

def objectDelta (entries : List (Key × ConfigDelta)) : Option ConfigDelta :=
  if entries.isEmpty then none else some (.object entries)

/-- The keys `golden` lacks. -/
def addedEntries (golden current : Properties) : List (Key × ConfigDelta) :=
  (current.filter fun prop => (golden.lookup prop.1).isNone).map fun prop =>
    (prop.1, .replace prop.2)

mutual

def diffConfig (golden current : Value) : Option ConfigDelta :=
  if isDeepStrictEqual golden current then none
  else
    match golden, current with
    | .record golden, .record current =>
      objectDelta (goldenEntries golden current ++ addedEntries golden current)
    | _, current => some (.replace current)

/-- The keys of `golden`. -/
def goldenEntries : List (Key × Value) → Properties → List (Key × ConfigDelta)
  | [], _ => []
  | (key, value) :: golden, current =>
    match current.lookup key with
    | none => (key, .delete) :: goldenEntries golden current
    | some other =>
      match diffConfig value other with
      | none => goldenEntries golden current
      | some delta => (key, delta) :: goldenEntries golden current

end

def diffObjectConfig (golden current : Properties) : Option ConfigDelta :=
  objectDelta (goldenEntries golden current ++ addedEntries golden current)

/-! ## Applying a diff -/

def deleteProperty (target : Properties) (key : Key) : Properties :=
  target.filter fun prop => prop.1 != key

def setOwnDataProperty (target : Properties) (key : Key) (value : Value) : Properties :=
  (key, value) :: deleteProperty target key

/-- What a section is merged into. What a name inherits from `Object.prototype` is no section with
properties of its own either. -/
def baseOf : Option Value → Properties
  | some (.record existing) => existing
  | _ => []

mutual

def applyObjectDelta (next : Properties) : List (Key × ConfigDelta) → Properties
  | [] => next
  | (key, delta) :: entries => applyObjectDelta (applyEntry next key delta) entries

def applyEntry (next : Properties) (key : Key) : ConfigDelta → Properties
  | .delete => deleteProperty next key
  | .replace value => setOwnDataProperty next key value
  | .object entries =>
    setOwnDataProperty next key (.record (applyObjectDelta (baseOf (next.lookup key)) entries))

end

def applyConfigDelta (latest : Properties) : ConfigDelta → Except String Properties
  | .object entries => .ok (applyObjectDelta latest entries)
  | _ => .error "applyConfigDelta requires an object delta at the root"

/-! ## One key of a diff and of a merge -/

/-- What the two have at a key, `none` for nothing. -/
def diffAt : Option Value → Option Value → Option ConfigDelta
  | some _, none => some .delete
  | none, some value => some (.replace value)
  | some golden, some current => diffConfig golden current
  | none, none => none

def applyAt (existing : Option Value) : ConfigDelta → Option Value
  | .delete => none
  | .replace value => some value
  | .object entries => some (.record (applyObjectDelta (baseOf existing) entries))

def mergeAt (golden caller latest : Option Value) : Option Value :=
  match diffAt golden caller with
  | none => latest
  | some delta => applyAt latest delta

theorem lookup_baseOf (t : Option Value) (key : Key) : (baseOf t).lookup key = member t key := by
  match t with
  | none | some (.atom _) | some (.list _) | some (.record _) => rfl

theorem lookup_deleteProperty_self (target : Properties) (key : Key) :
    (deleteProperty target key).lookup key = none := lookup_filter_self target key

theorem lookup_deleteProperty_of_ne (target : Properties) {key other : Key} (h : key ≠ other) :
    (deleteProperty target other).lookup key = target.lookup key := lookup_filter_ne h

theorem lookup_applyEntry_self (next : Properties) (key : Key) (delta : ConfigDelta) :
    (applyEntry next key delta).lookup key = applyAt (next.lookup key) delta := by
  cases delta <;>
    simp [applyEntry, applyAt, setOwnDataProperty, lookup_deleteProperty_self]

theorem lookup_applyEntry_of_ne (next : Properties) {key other : Key} (h : key ≠ other)
    (delta : ConfigDelta) : (applyEntry next other delta).lookup key = next.lookup key := by
  cases delta <;>
    simp [applyEntry, setOwnDataProperty, List.lookup_cons, beq_eq_false_iff_ne.mpr h,
      lookup_deleteProperty_of_ne _ h]

theorem lookup_applyObjectDelta {entries : List (Key × ConfigDelta)}
    (hkeys : (entries.map (·.1)).Nodup) (next : Properties) (key : Key) :
    (applyObjectDelta next entries).lookup key =
      match entries.lookup key with
      | none => next.lookup key
      | some delta => applyAt (next.lookup key) delta := by
  induction entries generalizing next with
  | nil => rw [applyObjectDelta, List.lookup_nil]
  | cons entry entries ih =>
    obtain ⟨name, delta⟩ := entry
    rw [List.map_cons, List.nodup_cons] at hkeys
    rw [applyObjectDelta, ih hkeys.2]
    by_cases h : key = name
    · subst h
      have hnone : entries.lookup key = none := by
        rw [← Option.not_isSome_iff_eq_none, isSome_lookup_iff]
        exact hkeys.1
      rw [hnone, List.lookup_cons_self]
      exact lookup_applyEntry_self next key delta
    · rw [List.lookup_cons, beq_eq_false_iff_ne.mpr h, lookup_applyEntry_of_ne next h]

theorem diffConfig_record (golden current : Properties) :
    diffConfig (.record golden) (.record current) =
      if isDeepStrictEqual (.record golden) (.record current) then none
      else diffObjectConfig golden current := by
  rw [diffConfig, diffObjectConfig]

theorem diffConfig_of_not_record {golden current : Value}
    (h : ¬ (isRecord (some golden) = true ∧ isRecord (some current) = true)) :
    diffConfig golden current =
      if isDeepStrictEqual golden current then none else some (.replace current) := by
  unfold diffConfig
  split
  · rfl
  · split
    · exact absurd ⟨rfl, rfl⟩ h
    · rfl

theorem mem_keys_goldenEntries {golden current : Properties} {key : Key}
    (h : key ∈ (goldenEntries golden current).map (·.1)) : key ∈ golden.map (·.1) := by
  induction golden with
  | nil => simp [goldenEntries] at h
  | cons prop golden ih =>
    obtain ⟨name, value⟩ := prop
    rw [goldenEntries] at h
    rw [List.map_cons, List.mem_cons]
    split at h
    · rw [List.map_cons, List.mem_cons] at h
      exact h.imp_right ih
    · split at h
      · exact .inr (ih h)
      · rw [List.map_cons, List.mem_cons] at h
        exact h.imp_right ih

theorem nodup_goldenEntries {golden : Properties} (h : (golden.map (·.1)).Nodup)
    (current : Properties) : ((goldenEntries golden current).map (·.1)).Nodup := by
  induction golden with
  | nil => simp [goldenEntries]
  | cons prop golden ih =>
    obtain ⟨name, value⟩ := prop
    rw [List.map_cons, List.nodup_cons] at h
    have hnew : name ∉ (goldenEntries golden current).map (·.1) :=
      fun hmem => h.1 (mem_keys_goldenEntries hmem)
    rw [goldenEntries]
    split
    · rw [List.map_cons, List.nodup_cons]
      exact ⟨hnew, ih h.2⟩
    · split
      · exact ih h.2
      · rw [List.map_cons, List.nodup_cons]
        exact ⟨hnew, ih h.2⟩

theorem lookup_goldenEntries {golden : Properties} (h : (golden.map (·.1)).Nodup)
    (current : Properties) (key : Key) :
    (goldenEntries golden current).lookup key =
      (golden.lookup key).bind fun value => diffAt (some value) (current.lookup key) := by
  induction golden with
  | nil => simp [goldenEntries]
  | cons prop golden ih =>
    obtain ⟨name, value⟩ := prop
    rw [List.map_cons, List.nodup_cons] at h
    by_cases hname : key = name
    · subst hname
      have hnone : (goldenEntries golden current).lookup key = none := by
        rw [← Option.not_isSome_iff_eq_none, isSome_lookup_iff]
        exact fun hmem => h.1 (mem_keys_goldenEntries hmem)
      rw [goldenEntries, List.lookup_cons_self, Option.bind_some]
      cases hother : current.lookup key with
      | none => simp [diffAt]
      | some other =>
        cases hdelta : diffConfig value other with
        | none => simp [diffAt, hdelta, hnone]
        | some delta => simp [diffAt, hdelta]
    · have hne := beq_eq_false_iff_ne.mpr hname
      rw [goldenEntries, List.lookup_cons (k := name), hne, ← ih h.2]
      split
      · rw [List.lookup_cons, hne]
      · split
        · rfl
        · rw [List.lookup_cons, hne]

theorem lookup_addedEntries (golden current : Properties) (key : Key) :
    (addedEntries golden current).lookup key =
      if golden.lookup key = none then (current.lookup key).map .replace else none := by
  induction current with
  | nil => simp [addedEntries]
  | cons prop current ih =>
    obtain ⟨name, value⟩ := prop
    unfold addedEntries at ih ⊢
    by_cases hname : key = name
    · subst hname
      rw [List.lookup_cons_self, Option.map_some]
      split
      next hnone =>
        rw [List.filter_cons_of_pos (by rw [hnone, Option.isNone_none]), List.map_cons,
          List.lookup_cons_self]
      next hsome =>
        rw [List.filter_cons_of_neg (by rwa [Option.isNone_iff_eq_none]), ih, if_neg hsome]
    · have hne := beq_eq_false_iff_ne.mpr hname
      rw [List.filter_cons, List.lookup_cons, hne, ← ih]
      split
      · rw [List.map_cons, List.lookup_cons, hne]
      · rfl

theorem mem_keys_addedEntries {golden current : Properties} {key : Key}
    (h : key ∈ (addedEntries golden current).map (·.1)) : golden.lookup key = none := by
  unfold addedEntries at h
  rw [List.map_map] at h
  obtain ⟨prop, hprop, rfl⟩ := List.mem_map.mp h
  exact Option.isNone_iff_eq_none.mp (List.mem_filter.mp hprop).2

/-- All entries of a diff of two objects. -/
def entriesOf (golden current : Properties) : List (Key × ConfigDelta) :=
  goldenEntries golden current ++ addedEntries golden current

theorem nodup_entriesOf {golden current : Properties} (hgolden : (golden.map (·.1)).Nodup)
    (hcurrent : (current.map (·.1)).Nodup) : ((entriesOf golden current).map (·.1)).Nodup := by
  unfold entriesOf
  rw [List.map_append, List.nodup_append]
  refine ⟨nodup_goldenEntries hgolden current, ?_, ?_⟩
  · unfold addedEntries
    rw [List.map_map]
    exact (List.filter_sublist.map _).nodup hcurrent
  · rintro key hkey _ hadded rfl
    have hsome := isSome_lookup_iff.mpr (mem_keys_goldenEntries hkey)
    rw [mem_keys_addedEntries hadded] at hsome
    cases hsome

theorem lookup_entriesOf {golden : Properties} (hgolden : (golden.map (·.1)).Nodup)
    (current : Properties) (key : Key) :
    (entriesOf golden current).lookup key =
      diffAt (golden.lookup key) (current.lookup key) := by
  unfold entriesOf
  rw [List.lookup_append, lookup_goldenEntries hgolden, lookup_addedEntries]
  cases golden.lookup key with
  | none => cases current.lookup key <;> rfl
  | some value => simp

/-! ## What a merge does to a value -/

/-- Whatever is there has no key twice. -/
def Formed (t : Option Value) : Prop := ∀ value, t = some value → value.WellFormed

theorem formed_lookup {props : Properties} (h : (Tree.record props).WellFormed) (key : Key) :
    Formed (props.lookup key) := fun _ hvalue => h.lookup hvalue

theorem formed_some {value : Value} (h : value.WellFormed) : Formed (some value) := by
  rintro _ heq
  cases heq
  exact h

theorem Formed.toMember {t : Option Value} (h : Formed t) (key : Key) : Formed (member t key) := by
  match t with
  | none | some (.atom _) | some (.list _) => exact fun _ hvalue => by cases hvalue
  | some (.record props) => exact formed_lookup (h _ rfl) key

theorem formed_none : Formed none := by
  rintro _ ⟨⟩

/-- Induction on a value through the members of its sections. -/
theorem Formed.induction {P : ∀ t, Formed t → Prop}
    (step : ∀ t (ht : Formed t), (isRecord t = true → ∀ key, P _ (ht.toMember key)) → P t ht)
    {t : Option Value} (ht : Formed t) : P t ht := by
  have hnone : P none formed_none := step none formed_none fun h => by cases h
  cases t with
  | none => exact hnone
  | some value =>
    have hvalue := ht value rfl
    induction hvalue with
    | atom a => exact step _ ht fun h => by cases h
    | list hitems => exact step _ ht fun h => by cases h
    | @record props hkeys hentries ih =>
      refine step _ ht fun _ key => ?_
      have hmember (t : Option Value) (ht : Formed t) (h : props.lookup key = t) : P t ht := by
        cases t with
        | none => exact hnone
        | some value => exact ih _ (mem_of_lookup h) ht
      exact hmember _ _ rfl

theorem diffObjectConfig_eq_none_iff {golden current : Properties}
    (hgolden : (golden.map (·.1)).Nodup) :
    diffObjectConfig golden current = none ↔
      ∀ key, diffAt (golden.lookup key) (current.lookup key) = none := by
  change objectDelta (entriesOf golden current) = none ↔ _
  unfold objectDelta
  rw [ite_eq_left_iff]
  constructor
  · intro h key
    rw [← lookup_entriesOf hgolden]
    by_contra hkey
    cases hentries : entriesOf golden current with
    | nil => simp [hentries] at hkey
    | cons entry entries => simp [hentries] at h
  · intro h hne
    cases hentries : entriesOf golden current with
    | nil => simp [hentries] at hne
    | cons entry entries =>
      have hkey := h entry.1
      rw [← lookup_entriesOf hgolden, hentries, List.lookup_cons_self] at hkey
      cases hkey

theorem diffConfig_eq_none_of_leaf {golden current : Value} (hgolden : golden.WellFormed)
    (hcurrent : current.WellFormed)
    (h : ¬ (isRecord (some golden) = true ∧ isRecord (some current) = true)) :
    diffConfig golden current = none ↔ Same (some golden) (some current) := by
  rw [diffConfig_of_not_record h, ite_eq_left_iff, ← isDeepStrictEqual_iff hgolden hcurrent]
  simp

/-- A diff is empty exactly where the two say the same. -/
theorem diffConfig_eq_none_iff {golden current : Value} (hgolden : golden.WellFormed)
    (hcurrent : current.WellFormed) :
    diffConfig golden current = none ↔ Same (some golden) (some current) := by
  induction hgolden generalizing current with
  | atom a => exact diffConfig_eq_none_of_leaf (.atom a) hcurrent (by simp [isRecord])
  | list hitems => exact diffConfig_eq_none_of_leaf (.list hitems) hcurrent (by simp [isRecord])
  | @record props hkeys hentries ih =>
    have hprops := Tree.WellFormed.record hkeys hentries
    cases current with
    | record others =>
      rw [diffConfig_record]
      by_cases h : Same (some (.record props)) (some (.record others))
      · rw [if_pos ((isDeepStrictEqual_iff hprops hcurrent).mpr h)]
        exact iff_of_true rfl h
      · rw [if_neg (mt (isDeepStrictEqual_iff hprops hcurrent).mp h),
          diffObjectConfig_eq_none_iff hkeys, same_record_iff]
        apply forall_congr'
        intro key
        cases hvalue : props.lookup key with
        | none => cases others.lookup key <;> simp [diffAt, Same.comm (t := none)]
        | some value =>
          cases hother : others.lookup key with
          | none => simp [diffAt]
          | some other => exact ih _ (mem_of_lookup hvalue) (hcurrent.lookup hother)
    | _ => exact diffConfig_eq_none_of_leaf hprops hcurrent (by simp [isRecord])

theorem diffAt_eq_none_iff {golden current : Option Value} (hgolden : Formed golden)
    (hcurrent : Formed current) : diffAt golden current = none ↔ Same golden current := by
  match golden, current with
  | none, none => simp [diffAt]
  | none, some value => simp [diffAt, Same.comm (t := none)]
  | some value, none => simp [diffAt]
  | some golden, some current =>
    exact diffConfig_eq_none_iff (hgolden golden rfl) (hcurrent current rfl)

section Merge

variable {golden caller : Option Value} (hgolden : Formed golden) (hcaller : Formed caller)
include hgolden hcaller

theorem mergeAt_same (h : Same golden caller) (latest : Option Value) :
    mergeAt golden caller latest = latest := by
  rw [mergeAt, (diffAt_eq_none_iff hgolden hcaller).mpr h]

/-- Unless both are sections, a change replaces all there is. -/
theorem mergeAt_replaced (h : ¬ Same golden caller)
    (hrecord : ¬ (isRecord golden = true ∧ isRecord caller = true)) (latest : Option Value) :
    mergeAt golden caller latest = caller := by
  match golden, caller with
  | none, none => exact absurd (Same.refl none) h
  | none, some value => rfl
  | some value, none => rfl
  | some golden, some caller =>
    have hne : ¬ isDeepStrictEqual golden caller = true := by
      rwa [isDeepStrictEqual_iff (hgolden golden rfl) (hcaller caller rfl)]
    rw [mergeAt, diffAt, diffConfig_of_not_record hrecord, if_neg hne]
    rfl

end Merge

/-- Of two different sections every key is merged on its own. -/
theorem mergeAt_section {golden caller : Properties} (hgolden : (Tree.record golden).WellFormed)
    (hcaller : (Tree.record caller).WellFormed)
    (h : ¬ Same (some (.record golden)) (some (.record caller))) (latest : Option Value) :
    ∃ merged, mergeAt (some (.record golden)) (some (.record caller)) latest =
        some (.record merged) ∧
      ∀ key, merged.lookup key =
        mergeAt (golden.lookup key) (caller.lookup key) (member latest key) := by
  have hdelta : diffConfig (.record golden) (.record caller) =
      some (.object (entriesOf golden caller)) := by
    have hsome := mt (diffConfig_eq_none_iff hgolden hcaller).mp h
    rw [diffConfig_record, if_neg (mt (isDeepStrictEqual_iff hgolden hcaller).mp h)] at hsome ⊢
    change objectDelta (entriesOf golden caller) ≠ none at hsome
    change objectDelta (entriesOf golden caller) = _
    unfold objectDelta at hsome ⊢
    split
    next hempty => exact absurd (if_pos hempty) hsome
    next => rfl
  refine ⟨applyObjectDelta (baseOf latest) (entriesOf golden caller), ?_, fun key => ?_⟩
  · rw [mergeAt, diffAt, hdelta]
    rfl
  · rw [lookup_applyObjectDelta (nodup_entriesOf hgolden.keys hcaller.keys),
      lookup_entriesOf hgolden.keys, lookup_baseOf]
    rfl

/-- A merge of two different sections leaves a section. -/
theorem isRecord_mergeAt {golden caller : Option Value} (hgolden : Formed golden) (hcaller : Formed caller)
    (hchanged : ¬ Same golden caller)
    (h : isRecord golden = true ∧ isRecord caller = true) (latest : Option Value) :
    isRecord (mergeAt golden caller latest) = true ∧
      ∀ key, member (mergeAt golden caller latest) key =
        mergeAt (member golden key) (member caller key) (member latest key) := by
  obtain ⟨props, rfl⟩ := exists_of_isRecord h.1
  obtain ⟨others, rfl⟩ := exists_of_isRecord h.2
  obtain ⟨merged, hmerged, hlookup⟩ :=
    mergeAt_section (hgolden _ rfl) (hcaller _ rfl) hchanged latest
  rw [hmerged]
  exact ⟨rfl, hlookup⟩

/-! ## Configs -/

/-- The values a diff carries are well formed. -/
inductive ConfigDelta.WellFormed : ConfigDelta → Prop where
  | delete : WellFormed .delete
  | replace {value : Value} (hvalue : value.WellFormed) : WellFormed (.replace value)
  | object {entries : List (Key × ConfigDelta)}
      (hentries : ∀ entry ∈ entries, WellFormed entry.2) : WellFormed (.object entries)

theorem wellFormed_addedEntries (golden : Properties) {current : Properties}
    (h : (Tree.record current).WellFormed) :
    ∀ entry ∈ addedEntries golden current, entry.2.WellFormed := by
  intro entry hentry
  obtain ⟨prop, hprop, rfl⟩ := List.mem_map.mp hentry
  cases h with
  | record _ hvalues => exact .replace (hvalues prop (List.mem_of_mem_filter hprop))

theorem wellFormed_objectDelta {entries : List (Key × ConfigDelta)} {delta : ConfigDelta}
    (hentries : ∀ entry ∈ entries, entry.2.WellFormed) (h : objectDelta entries = some delta) :
    delta.WellFormed := by
  unfold objectDelta at h
  split at h
  · cases h
  · cases h
    exact .object hentries

theorem wellFormed_diffConfig {golden current : Value} {delta : ConfigDelta}
    (hgolden : golden.WellFormed) (hcurrent : current.WellFormed)
    (h : diffConfig golden current = some delta) : delta.WellFormed := by
  have hleaf {golden current : Value} {delta : ConfigDelta} (hcurrent : current.WellFormed)
      (hne : ¬ (isRecord (some golden) = true ∧ isRecord (some current) = true))
      (h : diffConfig golden current = some delta) : delta.WellFormed := by
    rw [diffConfig_of_not_record hne] at h
    split at h
    · cases h
    · cases h
      exact .replace hcurrent
  induction hgolden generalizing current delta with
  | atom a => exact hleaf hcurrent (by simp [isRecord]) h
  | list hitems => exact hleaf hcurrent (by simp [isRecord]) h
  | @record props hkeys hentries ih =>
    cases current with
    | record others =>
      rw [diffConfig_record] at h
      split at h
      · cases h
      · refine wellFormed_objectDelta (fun entry hentry => ?_) h
        rcases List.mem_append.mp hentry with hentry | hentry
        · have hlookup := lookup_of_mem (nodup_goldenEntries hkeys others) hentry
          rw [lookup_goldenEntries hkeys] at hlookup
          obtain ⟨value, hvalue, hdelta⟩ := Option.bind_eq_some_iff.mp hlookup
          cases hother : others.lookup entry.1 with
          | none =>
            rw [hother] at hdelta
            rw [← Option.some.inj hdelta]
            exact .delete
          | some other =>
            rw [hother] at hdelta
            exact ih _ (mem_of_lookup hvalue) (hcurrent.lookup hother) hdelta
        · exact wellFormed_addedEntries props hcurrent entry hentry
    | _ => exact hleaf hcurrent (by simp [isRecord]) h

theorem wellFormed_deleteProperty {target : Properties} (h : (Tree.record target).WellFormed)
    (key : Key) : (Tree.record (deleteProperty target key)).WellFormed := by
  cases h with
  | record hkeys hvalues =>
    apply Tree.WellFormed.record
    · exact (List.filter_sublist.map _).nodup hkeys
    · intro prop hprop
      exact hvalues prop (List.mem_of_mem_filter hprop)

theorem wellFormed_setOwnDataProperty {target : Properties} {value : Value}
    (h : (Tree.record target).WellFormed) (hvalue : value.WellFormed) (key : Key) :
    (Tree.record (setOwnDataProperty target key value)).WellFormed := by
  have hrest := wellFormed_deleteProperty h key
  cases hrest with
  | record hkeys hvalues =>
    apply Tree.WellFormed.record
    · unfold setOwnDataProperty
      rw [List.map_cons, List.nodup_cons]
      refine ⟨?_, hkeys⟩
      rw [← isSome_lookup_iff, lookup_deleteProperty_self]
      simp
    · exact List.forall_mem_cons.mpr ⟨hvalue, hvalues⟩

theorem wellFormed_baseOf {t : Option Value} (h : Formed t) :
    (Tree.record (baseOf t)).WellFormed := by
  match t with
  | some (.record props) => exact h _ rfl
  | none | some (.atom _) | some (.list _) => exact .record (by simp [baseOf]) (by simp [baseOf])

theorem wellFormed_applyObjectDelta {entries : List (Key × ConfigDelta)} {next : Properties}
    (hentries : ∀ entry ∈ entries, ∀ next, (Tree.record next).WellFormed →
      (Tree.record (applyEntry next entry.1 entry.2)).WellFormed)
    (h : (Tree.record next).WellFormed) :
    (Tree.record (applyObjectDelta next entries)).WellFormed := by
  induction entries generalizing next with
  | nil => exact h
  | cons entry entries ih =>
    rw [List.forall_mem_cons] at hentries
    rw [applyObjectDelta]
    exact ih hentries.2 (hentries.1 next h)

theorem wellFormed_applyEntry {delta : ConfigDelta} (hdelta : delta.WellFormed) (key : Key)
    {next : Properties} (h : (Tree.record next).WellFormed) :
    (Tree.record (applyEntry next key delta)).WellFormed := by
  induction hdelta generalizing key next with
  | delete => exact wellFormed_deleteProperty h key
  | replace hvalue => exact wellFormed_setOwnDataProperty h hvalue key
  | object _ ih =>
    rw [applyEntry]
    apply wellFormed_setOwnDataProperty h
    apply wellFormed_applyObjectDelta
    · exact fun entry hentry next hnext => ih entry hentry entry.1 hnext
    · exact wellFormed_baseOf (formed_lookup h key)

theorem wellFormed_applyConfigDelta {latest written : Properties} {delta : ConfigDelta}
    (hdelta : delta.WellFormed) (h : (Tree.record latest).WellFormed)
    (hwritten : applyConfigDelta latest delta = .ok written) :
    (Tree.record written).WellFormed := by
  cases hdelta with
  | object hentries =>
    cases hwritten
    exact wellFormed_applyObjectDelta
      (fun entry hentry _ hnext => wellFormed_applyEntry (hentries entry hentry) entry.1 hnext) h
  | _ => cases hwritten

/-- An object of JSON values, none of which has a key twice. -/
structure ClimonConfig where
  props : Properties
  wellFormed : (Tree.record props).WellFormed

def ClimonConfig.value (config : ClimonConfig) : Value := .record config.props

def ClimonConfig.root (config : ClimonConfig) : Option Value := some config.value

/-- What `saveConfig` writes of a config it once loaded: `golden` is the config as loaded, `caller`
the config now, `latest` the one on disk. -/
def toWrite (golden caller latest : ClimonConfig) :
    Except String ClimonConfig :=
  match hdelta : diffConfig golden.value caller.value with
  | none => .ok latest
  | some delta =>
    match hwritten : applyConfigDelta latest.props delta with
    | .error message => .error message
    | .ok written =>
      .ok ⟨written, wellFormed_applyConfigDelta
        (wellFormed_diffConfig golden.wellFormed caller.wellFormed hdelta) latest.wellFormed
        hwritten⟩

theorem exists_of_diffConfig_record {golden current : Properties} {delta : ConfigDelta}
    (h : diffConfig (.record golden) (.record current) = some delta) :
    ∃ entries, delta = .object entries := by
  rw [diffConfig_record] at h
  split at h
  · cases h
  · unfold diffObjectConfig objectDelta at h
    split at h
    · cases h
    · exact ⟨_, (Option.some.inj h).symm⟩

theorem formed_root (config : ClimonConfig) : Formed config.root := formed_some config.wellFormed

/-- The diff of two objects is applied to an object, so no save fails. -/
theorem toWrite_eq (golden caller latest : ClimonConfig) :
    ∃ written, toWrite golden caller latest = .ok written ∧
      written.root = mergeAt golden.root caller.root latest.root := by
  have hmerge {delta : ConfigDelta} (h : diffConfig golden.value caller.value = some delta) :
      mergeAt golden.root caller.root latest.root = applyAt latest.root delta := by
    unfold ClimonConfig.root
    rw [mergeAt, diffAt, h]
  unfold toWrite
  split
  next hdelta =>
    refine ⟨latest, rfl, ?_⟩
    unfold ClimonConfig.root
    rw [mergeAt, diffAt, hdelta]
  next delta hdelta =>
    obtain ⟨entries, rfl⟩ := exists_of_diffConfig_record hdelta
    split
    next hwritten => cases hwritten
    next hwritten =>
      refine ⟨_, rfl, (Eq.trans (hmerge hdelta) ?_).symm⟩
      exact congrArg (some <| Tree.record ·) (Except.ok.inj hwritten)

end Climon.Config.ConfigMerge
