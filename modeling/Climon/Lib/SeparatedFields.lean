import Mathlib.Algebra.GroupWithZero.Nat
import Mathlib.Data.List.Basic

namespace Climon.Lib.SeparatedFields

/-! # Fields joined by a separator

Where the fields on one side are free of the separator, a joined text tells how often it occurs, and
that fixes where fields of the same number on the other side can end.
-/

variable {α : Type} [DecidableEq α] {sep : α}

theorem count_intercalate (field : List α) (fields : List (List α)) :
    ([sep].intercalate (field :: fields)).count sep =
      fields.length + ((field :: fields).map (List.count sep)).sum := by
  induction fields generalizing field with
  | nil => simp
  | cons next fields ih =>
    rw [List.intercalate_cons_cons, List.count_append, List.count_append, ih,
      List.count_singleton_self, List.map_cons (a := field), List.sum_cons, List.length_cons]
    omega

theorem sum_count_eq_zero {fields : List (List α)} :
    (fields.map (List.count sep)).sum = 0 ↔ ∀ field ∈ fields, sep ∉ field := by
  rw [List.sum_eq_zero_iff_forall_eq_nat, List.forall_mem_map]
  simp only [List.count_eq_zero]

/-- What has no separator belongs to the field that follows. -/
theorem splitOn_append {front : List α} (h : sep ∉ front) (back : List α) :
    (front ++ back).splitOn sep = (back.splitOn sep).modifyHead (front ++ ·) := by
  induction front with
  | nil =>
    rw [List.nil_append]
    cases back.splitOn sep <;> rfl
  | cons c front ih =>
    rw [List.mem_cons, not_or] at h
    rw [List.cons_append, List.splitOn_cons_eq_if_modifyHead, ih h.2,
      if_neg (by simpa using Ne.symm h.1), List.modifyHead_modifyHead]
    rfl

/-- Fields without the separator are what any fields with the same join are. -/
theorem intercalate_injective {fields others : List (List α)}
    (hfree : ∀ field ∈ fields, sep ∉ field) (hlength : fields.length = others.length)
    (h : [sep].intercalate fields = [sep].intercalate others) : fields = others := by
  cases fields with
  | nil =>
    rw [List.length_nil, eq_comm, List.length_eq_zero_iff] at hlength
    exact hlength.symm
  | cons field fields =>
    cases others with
    | nil => cases hlength
    | cons other others =>
      have hcount := congrArg (List.count sep) h
      rw [count_intercalate, count_intercalate, sum_count_eq_zero.mpr hfree] at hcount
      rw [List.length_cons, List.length_cons] at hlength
      have hothers : ∀ field ∈ other :: others, sep ∉ field := by
        apply sum_count_eq_zero.mp
        omega
      rw [← List.splitOn_intercalate sep hfree (List.cons_ne_nil _ _), h]
      exact List.splitOn_intercalate sep hothers (List.cons_ne_nil _ _)

/-- The last separator is where what has none after it ends. -/
theorem append_cons_injective {front front' back back' : List α} (h : sep ∉ back)
    (h' : sep ∉ back') (heq : front ++ sep :: back = front' ++ sep :: back') :
    front = front' ∧ back = back' := by
  have hnil {c rest rest' : List α} (hfree : sep ∉ rest) (hc : sep :: rest = c ++ sep :: rest') :
      c = [] := by
    cases c with
    | nil => rfl
    | cons d c =>
      rw [List.cons_append, List.cons.injEq] at hc
      rw [hc.2] at hfree
      exact absurd (List.mem_append_right c List.mem_cons_self) hfree
  rcases List.append_eq_append_iff.mp heq with ⟨c, rfl, hc⟩ | ⟨c, rfl, hc⟩
  · obtain rfl := hnil h hc
    exact ⟨(List.append_nil front).symm, (List.cons.inj hc).2⟩
  · obtain rfl := hnil h' hc
    exact ⟨List.append_nil front', (List.cons.inj hc).2.symm⟩

end Climon.Lib.SeparatedFields
