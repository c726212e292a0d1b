import Climon.Lib.AssocList
import Mathlib.Data.List.Perm.Subperm

namespace Climon.Lib.ValueTree

open Climon.Lib.AssocList

/-!
# Value trees

Atoms, lists and records. The order of the entries of a record says nothing, so two values are the
same when every place in them holds the same.
-/

inductive Tree (κ α : Type) where
  | atom (a : α)
  | list (items : List (Tree κ α))
  | record (entries : List (κ × Tree κ α))

abbrev Entries (κ α : Type) := List (κ × Tree κ α)

variable {κ α : Type} [BEq κ]

namespace Tree

/-- No record in it has a key twice. -/
inductive WellFormed : Tree κ α → Prop where
  | atom (a : α) : WellFormed (.atom a)
  | list {items : List (Tree κ α)} (hitems : ∀ t ∈ items, WellFormed t) : WellFormed (.list items)
  | record {entries : Entries κ α} (hkeys : (entries.map (·.1)).Nodup)
      (hentries : ∀ entry ∈ entries, WellFormed entry.2) : WellFormed (.record entries)

omit [BEq κ] in
theorem WellFormed.keys {entries : Entries κ α} (h : WellFormed (.record entries)) :
    (entries.map (·.1)).Nodup := by
  cases h
  assumption

theorem WellFormed.lookup [LawfulBEq κ] {entries : Entries κ α} (h : WellFormed (.record entries)) {key : κ}
    {t : Tree κ α} (ht : entries.lookup key = some t) : t.WellFormed := by
  cases h with
  | record _ hentries => exact hentries _ (mem_of_lookup ht)

end Tree

/-! ## Places -/

inductive Place (κ : Type) where
  | key (k : κ)
  | index (i : Nat)

/-- What stands at a place, its items and entries aside. -/
inductive Node (α : Type) where
  | atom (a : α)
  | list (length : Nat)
  | record

def node : Tree κ α → Node α
  | .atom a => .atom a
  | .list items => .list items.length
  | .record _ => .record

def child : Tree κ α → Place κ → Option (Tree κ α)
  | .list items, .index i => items[i]?
  | .record entries, .key k => entries.lookup k
  | _, _ => none

def contents : Tree κ α → List (Place κ) → Option (Node α)
  | t, [] => some (node t)
  | t, place :: path => (child t place).bind fun t => contents t path

/-- Both are absent, or they say the same. -/
def Same (t u : Option (Tree κ α)) : Prop := ∀ path, t.bind (contents · path) = u.bind (contents · path)

section Same

variable {t u v : Option (Tree κ α)}

@[refl] theorem Same.refl (t : Option (Tree κ α)) : Same t t := fun _ => rfl

@[symm] theorem Same.symm (h : Same t u) : Same u t := fun path => (h path).symm

@[trans] theorem Same.trans (h : Same t u) (k : Same u v) : Same t v :=
  fun path => (h path).trans (k path)

theorem Same.comm : Same t u ↔ Same u t := ⟨Same.symm, Same.symm⟩

theorem Same.isSome (h : Same t u) : t.isSome = u.isSome := by
  have hnode := h []
  cases t <;> cases u <;> simp_all [contents]

@[simp] theorem same_none_iff : Same t none ↔ t = none := by
  constructor
  · intro h
    simpa using h.isSome
  · rintro rfl
    rfl

/-- The same at the top, and the same below. -/
theorem same_some_iff {t u : Tree κ α} :
    Same (some t) (some u) ↔
      node t = node u ∧ ∀ place, Same (child t place) (child u place) := by
  constructor
  · intro h
    constructor
    · have hnode := h []
      simpa [contents] using hnode
    · intro place path
      have hpath := h (place :: path)
      simpa [contents] using hpath
  · rintro ⟨hnode, hchildren⟩ path
    cases path with
    | nil => simp [contents, hnode]
    | cons place path =>
      have hpath := hchildren place path
      simpa [contents] using hpath

theorem same_record_iff {entries others : Entries κ α} :
    Same (some (.record entries)) (some (.record others)) ↔
      ∀ key, Same (entries.lookup key) (others.lookup key) := by
  rw [same_some_iff]
  constructor
  · intro h key
    exact h.2 (.key key)
  · intro h
    refine ⟨rfl, fun place => ?_⟩
    cases place with
    | key key => exact h key
    | index i => rfl

theorem same_list_iff {items others : List (Tree κ α)} :
    Same (some (.list items)) (some (.list others)) ↔
      items.length = others.length ∧ ∀ i : Nat, Same items[i]? others[i]? := by
  rw [same_some_iff]
  constructor
  · intro h
    exact ⟨Node.list.inj h.1, fun i => h.2 (.index i)⟩
  · intro h
    refine ⟨congrArg Node.list h.1, fun place => ?_⟩
    cases place with
    | key key => rfl
    | index i => exact h.2 i

end Same

/-! ## Comparing -/

section Comparing

variable [DecidableEq α]

mutual

/-- Node's comparison: as many keys on both sides, and at each of them the same. -/
def isDeepStrictEqual : Tree κ α → Tree κ α → Bool
  | .atom a, .atom b => a = b
  | .list items, .list others => itemsEqual items others
  | .record entries, .record others =>
    entries.length = others.length && entriesEqual entries others
  | _, _ => false

def itemsEqual : List (Tree κ α) → List (Tree κ α) → Bool
  | [], [] => true
  | t :: items, u :: others => isDeepStrictEqual t u && itemsEqual items others
  | _, _ => false

def entriesEqual : List (κ × Tree κ α) → List (κ × Tree κ α) → Bool
  | [], _ => true
  | (key, t) :: entries, others =>
    (match others.lookup key with
    | some u => isDeepStrictEqual t u
    | none => false) && entriesEqual entries others

end

theorem itemsEqual_iff {items others : List (Tree κ α)} :
    itemsEqual items others = true ↔ List.Forall₂ (fun t u => isDeepStrictEqual t u) items others := by
  induction items generalizing others with
  | nil => cases others <;> simp [itemsEqual]
  | cons t items ih => cases others <;> simp [itemsEqual, ih]

theorem entriesEqual_iff {entries others : Entries κ α} :
    entriesEqual entries others = true ↔
      ∀ entry ∈ entries, ∃ u, others.lookup entry.1 = some u ∧ isDeepStrictEqual entry.2 u := by
  induction entries with
  | nil => simp [entriesEqual]
  | cons entry entries ih =>
    obtain ⟨key, t⟩ := entry
    rw [entriesEqual, Bool.and_eq_true, ih, List.forall_mem_cons]
    cases hlookup : others.lookup key <;> simp

variable [LawfulBEq κ]

omit [DecidableEq α] in
/-- As many keys on both sides, all of the first among those of the second: the same keys. -/
theorem lookup_eq_none_of_length {entries others : Entries κ α}
    (hkeys : (entries.map (·.1)).Nodup) (hlength : entries.length = others.length)
    (hsub : ∀ entry ∈ entries, ∃ u, others.lookup entry.1 = some u) {key : κ}
    (hnone : entries.lookup key = none) : others.lookup key = none := by
  have hsubset : entries.map (·.1) ⊆ others.map (·.1) := by
    intro k hk
    obtain ⟨entry, hentry, rfl⟩ := List.mem_map.mp hk
    obtain ⟨u, hu⟩ := hsub entry hentry
    exact List.mem_map_of_mem (f := (·.1)) (mem_of_lookup hu)
  have hperm : (entries.map (·.1)).Perm (others.map (·.1)) := by
    apply (hkeys.subperm hsubset).perm_of_length_le
    simp [hlength]
  simp only [List.lookup_eq_none_iff, bne_iff_ne] at hnone ⊢
  intro entry hentry hkey
  have hmem := hperm.mem_iff.mpr (List.mem_map_of_mem (f := (·.1)) hentry)
  obtain ⟨other, hother, heq⟩ := List.mem_map.mp hmem
  exact hnone other hother (hkey.trans heq.symm)

theorem isDeepStrictEqual_iff {t u : Tree κ α} (ht : t.WellFormed) (hu : u.WellFormed) :
    isDeepStrictEqual t u = true ↔ Same (some t) (some u) := by
  induction ht generalizing u with
  | atom a =>
    rw [same_some_iff]
    cases u <;> simp [isDeepStrictEqual, node, child, Same.refl]
  | @list items _ ih =>
    cases u with
    | list others =>
      cases hu with
      | list hothers =>
        rw [isDeepStrictEqual, itemsEqual_iff, same_list_iff, List.forall₂_iff_get]
        apply and_congr_right
        intro hlength
        constructor
        · intro h i
          by_cases hi : i < items.length
          · have hi' : i < others.length := hlength ▸ hi
            rw [List.getElem?_eq_getElem hi, List.getElem?_eq_getElem hi',
              ← ih _ (List.getElem_mem hi) (hothers _ (List.getElem_mem hi'))]
            exact h i hi hi'
          · rw [List.getElem?_eq_none (by omega), List.getElem?_eq_none (by omega)]
        · intro h i hi hi'
          have hat := h i
          rw [List.getElem?_eq_getElem hi, List.getElem?_eq_getElem hi',
            ← ih _ (List.getElem_mem hi) (hothers _ (List.getElem_mem hi'))] at hat
          exact hat
    | _ =>
      rw [same_some_iff]
      simp [isDeepStrictEqual, node]
  | @record entries hkeys _ ih =>
    cases u with
    | record others =>
      have hat {entry} (hentry : entry ∈ entries) {u} (hu' : others.lookup entry.1 = some u) :=
        ih entry hentry (hu.lookup hu')
      rw [isDeepStrictEqual, Bool.and_eq_true, decide_eq_true_eq, entriesEqual_iff,
        same_record_iff]
      constructor
      · rintro ⟨hlength, h⟩ key
        cases hkey : entries.lookup key with
        | none =>
          have hsub : ∀ entry ∈ entries, ∃ u, others.lookup entry.1 = some u := by
            intro entry hentry
            obtain ⟨u, hu', -⟩ := h entry hentry
            exact ⟨u, hu'⟩
          rw [lookup_eq_none_of_length hkeys hlength hsub hkey]
        | some t =>
          obtain ⟨u, hu', heq⟩ := h _ (mem_of_lookup hkey)
          rw [hu']
          exact (hat (mem_of_lookup hkey) hu').mp heq
      · intro h
        constructor
        · have hperm : (entries.map (·.1)).Perm (others.map (·.1)) := by
            rw [List.perm_ext_iff_of_nodup hkeys hu.keys]
            intro key
            rw [← isSome_lookup_iff, ← isSome_lookup_iff, (h key).isSome]
          simpa using hperm.length_eq
        · intro entry hentry
          have hsame := h entry.1
          rw [lookup_of_mem hkeys hentry] at hsame
          obtain ⟨u, hu'⟩ := Option.isSome_iff_exists.mp hsame.isSome.symm
          rw [hu'] at hsame
          exact ⟨u, hu', (hat hentry hu').mpr hsame⟩
    | _ =>
      rw [same_some_iff]
      simp [isDeepStrictEqual, node]

end Comparing

/-! ## Paths of keys -/

def member (t : Option (Tree κ α)) (key : κ) : Option (Tree κ α) := t.bind (child · (.key key))

def valueAt : Option (Tree κ α) → List κ → Option (Tree κ α)
  | t, [] => t
  | t, key :: path => valueAt (member t key) path

def isRecord : Option (Tree κ α) → Bool
  | some (.record _) => true
  | _ => false

/-- A value that is not a record. -/
def leaf (t : Option (Tree κ α)) : Option (Tree κ α) := if isRecord t then none else t

def leafAt (t : Option (Tree κ α)) (path : List κ) : Option (Tree κ α) := leaf (valueAt t path)

section Paths

variable {t u : Option (Tree κ α)}

@[simp] theorem member_none (key : κ) : member (none : Option (Tree κ α)) key = none := rfl

@[simp] theorem member_record (entries : Entries κ α) (key : κ) :
    member (some (.record entries)) key = entries.lookup key := rfl

theorem member_of_not_record (h : isRecord t = false) (key : κ) : member t key = none := by
  match t with
  | none | some (.atom _) | some (.list _) => rfl
  | some (.record _) => cases h

@[simp] theorem valueAt_none (path : List κ) : valueAt (none : Option (Tree κ α)) path = none := by
  induction path with
  | nil => rfl
  | cons key path ih => exact ih

omit [BEq κ] in
theorem exists_of_isRecord (h : isRecord t = true) :
    ∃ entries, t = some (.record entries) := by
  match t with
  | none | some (.atom _) | some (.list _) => cases h
  | some (.record entries) => exact ⟨entries, rfl⟩

theorem Same.member (h : Same t u) (key : κ) : Same (member t key) (member u key) := by
  cases t with
  | none => rw [same_none_iff.mp h.symm]
  | some t =>
    cases u with
    | none => cases same_none_iff.mp h
    | some u => exact (same_some_iff.mp h).2 (.key key)

theorem Same.valueAt (h : Same t u) (path : List κ) : Same (valueAt t path) (valueAt u path) := by
  induction path generalizing t u with
  | nil => exact h
  | cons key path ih => exact ih (h.member key)

theorem Same.isRecord (h : Same t u) : isRecord t = isRecord u := by
  cases t with
  | none => rw [same_none_iff.mp h.symm]
  | some t =>
    cases u with
    | none => cases same_none_iff.mp h
    | some u =>
      have hnode := (same_some_iff.mp h).1
      cases t <;> cases u <;> simp_all [node, ValueTree.isRecord]

theorem Same.leaf (h : Same t u) : Same (leaf t) (leaf u) := by
  unfold ValueTree.leaf
  rw [h.isRecord]
  split
  · rfl
  · exact h

theorem Same.leafAt (h : Same t u) (path : List κ) : Same (leafAt t path) (leafAt u path) :=
  (h.valueAt path).leaf

theorem same_iff_of_isRecord (ht : isRecord t = true)
    (hu : isRecord u = true) : Same t u ↔ ∀ key, Same (member t key) (member u key) := by
  obtain ⟨props, rfl⟩ := exists_of_isRecord ht
  obtain ⟨others, rfl⟩ := exists_of_isRecord hu
  exact same_record_iff

/-- A section and something else differ. -/
theorem not_same_of_isRecord (ht : isRecord t = true)
    (hu : ¬ isRecord u = true) : ¬ Same t u := fun h => hu (h.isRecord ▸ ht)

end Paths

end Climon.Lib.ValueTree
