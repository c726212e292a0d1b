import Mathlib.Data.List.Basic

namespace Climon.Lib.AssocList

/-! # Association lists -/

variable {α β : Type} [BEq α] [LawfulBEq α] {entries : List (α × β)}

theorem mem_of_lookup {key : α} {value : β} (h : entries.lookup key = some value) :
    (key, value) ∈ entries := by
  obtain ⟨front, back, heq, -⟩ := List.lookup_eq_some_iff.mp h
  rw [heq]
  exact List.mem_append_right _ List.mem_cons_self

/-- With distinct keys an entry is what its key finds. -/
theorem lookup_of_mem (hkeys : (entries.map (·.1)).Nodup) {key : α} {value : β}
    (h : (key, value) ∈ entries) : entries.lookup key = some value := by
  induction entries with
  | nil => cases h
  | cons entry entries ih =>
    rw [List.map_cons, List.nodup_cons] at hkeys
    rcases List.mem_cons.mp h with rfl | htail
    · exact List.lookup_cons_self
    · have hne : key ≠ entry.1 := by
        rintro rfl
        exact hkeys.1 (List.mem_map.mpr ⟨_, htail, rfl⟩)
      rw [List.lookup_cons, beq_eq_false_iff_ne.mpr hne]
      exact ih hkeys.2 htail

/-- The last entry of a key is the first one where it occurs at most once. -/
theorem lookup_reverse {key : α} (h : (entries.map (·.1)).count key ≤ 1) :
    entries.reverse.lookup key = entries.lookup key := by
  induction entries with
  | nil => rfl
  | cons entry entries ih =>
    obtain ⟨name, value⟩ := entry
    rw [List.map_cons, List.count_cons] at h
    dsimp only at h
    rw [List.reverse_cons, List.lookup_append]
    by_cases hname : name = key
    · subst hname
      rw [beq_self_eq_true, if_pos rfl] at h
      have hrest : entries.reverse.lookup name = none := by
        rw [List.lookup_eq_none_iff]
        intro other hother
        refine bne_iff_ne.mpr fun heq => ?_
        have hmem : name ∈ entries.map (·.1) :=
          List.mem_map.mpr ⟨other, List.mem_reverse.mp hother, heq.symm⟩
        have hcount := List.count_pos_iff.mpr hmem
        omega
      rw [hrest, Option.none_or, List.lookup_cons_self, List.lookup_cons_self]
    · have hkey : (key == name) = false := beq_eq_false_iff_ne.mpr fun heq => hname heq.symm
      rw [ih (by omega), List.lookup_cons, List.lookup_cons, hkey, List.lookup_nil, Option.or_none]

/-- Entries without a value left out: a lookup finds the value of the key, if there is one. -/
theorem lookup_filterMap_of_mem {γ : Type} {entries : List (α × Option γ)}
    (hkeys : (entries.map (·.1)).Nodup) {key : α} {value : Option γ}
    (h : (key, value) ∈ entries) :
    (entries.filterMap fun entry => entry.2.map (entry.1, ·)).lookup key = value := by
  induction entries with
  | nil => cases h
  | cons entry entries ih =>
    rw [List.map_cons, List.nodup_cons] at hkeys
    obtain ⟨name, content⟩ := entry
    rcases List.mem_cons.mp h with heq | htail
    · obtain ⟨rfl, rfl⟩ := Prod.mk.inj heq
      cases value with
      | some value => simp
      | none =>
        simp only [List.filterMap_cons, Option.map_none]
        rw [List.lookup_eq_none_iff]
        intro other hother
        obtain ⟨source, hsource, hmap⟩ := List.mem_filterMap.mp hother
        obtain ⟨a, -, rfl⟩ := Option.map_eq_some_iff.mp hmap
        exact bne_iff_ne.mpr fun heq =>
          hkeys.1 (List.mem_map.mpr ⟨source, hsource, heq.symm⟩)
    · have hne : key ≠ name := by
        rintro rfl
        exact hkeys.1 (List.mem_map.mpr ⟨_, htail, rfl⟩)
      cases content with
      | none => exact ih hkeys.2 htail
      | some content =>
        simp only [List.filterMap_cons, Option.map_some, List.lookup_cons,
          beq_eq_false_iff_ne.mpr hne]
        exact ih hkeys.2 htail

theorem lookup_filter_ne {key other : α} (h : key ≠ other) :
    (entries.filter fun entry => entry.1 != other).lookup key = entries.lookup key := by
  induction entries with
  | nil => rfl
  | cons entry entries ih =>
    obtain ⟨name, value⟩ := entry
    by_cases hname : name = other
    · subst hname
      rw [List.filter_cons_of_neg (by simp), ih, List.lookup_cons, beq_eq_false_iff_ne.mpr h]
    · rw [List.filter_cons_of_pos (by simpa using hname), List.lookup_cons, List.lookup_cons, ih]

theorem lookup_filter_self (entries : List (α × β)) (key : α) :
    (entries.filter fun entry => entry.1 != key).lookup key = none := by
  rw [List.lookup_eq_none_iff]
  intro entry hentry
  have hne : entry.1 ≠ key := by simpa using (List.mem_filter.mp hentry).2
  exact bne_iff_ne.mpr hne.symm

theorem isSome_lookup_iff {key : α} : (entries.lookup key).isSome = true ↔ key ∈ entries.map (·.1) := by
  induction entries with
  | nil => simp
  | cons entry entries ih =>
    rw [List.lookup_cons, List.map_cons, List.mem_cons]
    by_cases h : key = entry.1
    · simp [h]
    · rw [beq_eq_false_iff_ne.mpr h]
      exact ih.trans (by simp [h])

end Climon.Lib.AssocList
