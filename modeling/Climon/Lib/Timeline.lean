import Mathlib.Data.List.Range

namespace Climon.Lib.Timeline

/-! # Values over time -/

variable {α : Type} [DecidableEq α] {f g : Nat → α} {u v : Nat}

/-- How often the value has changed up to a time. -/
def revision (f : Nat → α) (v : Nat) : Nat :=
  (List.range v).countP fun u => decide (f u ≠ f (u + 1))

theorem revision_succ (f : Nat → α) (v : Nat) :
    revision f (v + 1) = revision f v + if f v ≠ f (v + 1) then 1 else 0 := by
  unfold revision
  rw [List.range_succ, List.countP_append, List.countP_singleton]
  simp

theorem revision_congr (h : ∀ w ≤ v, f w = g w) : revision f v = revision g v := by
  unfold revision
  apply List.countP_congr
  intro u hu
  rw [List.mem_range] at hu
  rw [h u (by omega), h (u + 1) (by omega)]

theorem revision_mono (f : Nat → α) (h : u ≤ v) : revision f u ≤ revision f v := by
  induction v, h using Nat.le_induction with
  | base => exact le_refl _
  | succ v _ ih =>
    rw [revision_succ]
    omega

/-- A later revision, and the change that made it. -/
theorem revision_lt_iff : revision f u < revision f v ↔ ∃ w, u ≤ w ∧ w < v ∧ f w ≠ f (w + 1) := by
  constructor
  · intro h
    induction v with
    | zero => simp [revision] at h
    | succ v ih =>
      by_cases hchanged : f v ≠ f (v + 1)
      · refine ⟨v, ?_, by omega, hchanged⟩
        by_contra hle
        have := revision_mono f (show v + 1 ≤ u by omega)
        omega
      · rw [revision_succ, if_neg hchanged, Nat.add_zero] at h
        obtain ⟨w, hu, hw, hne⟩ := ih h
        exact ⟨w, hu, by omega, hne⟩
  · rintro ⟨w, hu, hw, hne⟩
    have hbefore := revision_mono f hu
    have hafter := revision_mono f hw
    rw [Nat.succ_eq_add_one, revision_succ, if_pos hne] at hafter
    omega

/-- At one revision there is one value. -/
theorem eq_of_revision_eq (h : u ≤ v) (heq : revision f u = revision f v) : f u = f v := by
  induction v, h using Nat.le_induction with
  | base => rfl
  | succ v hle ih =>
    rw [revision_succ] at heq
    have hmono := revision_mono f hle
    split at heq
    · omega
    next hsame => exact (ih (by omega)).trans (not_not.mp hsame)

end Climon.Lib.Timeline
