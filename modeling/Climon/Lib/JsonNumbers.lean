import Climon.Lib.JsonValue
import Mathlib.Algebra.Order.Ring.Rat
import Mathlib.Data.Int.Cast.Lemmas
import Mathlib.Data.Rat.Cast.Order
import Mathlib.Tactic.Linarith
import Mathlib.Tactic.NormNum

namespace Climon.Lib.JsonValue

/-!
# What a conversion keeps of a number

An integer literal of more than 53 bits is rounded to a double, and a double past 64 bits is cut
off. Either way a small number is read as it is written, and a large one stays large.
-/

/-- The number that is written. -/
def Number.value : Number → Rat
  | .posInt n => n.toNat
  | .negInt n => n.toInt
  | .float q => q

/-- The number that is written at a key. -/
def numberAt (value : Json) (key : String) : Option Number :=
  match value.get? key with
  | some (.number n) => some n
  | _ => none

/-- The two numbers are the same, or both are far from zero on one side. -/
def Near (q r : Rat) : Prop :=
  q = r ∨ 2 ^ 52 ≤ q ∧ 2 ^ 52 ≤ r ∨ q ≤ -2 ^ 52 ∧ r ≤ -2 ^ 52

theorem Near.trans {q r t : Rat} (h : Near q r) (h' : Near r t) : Near q t := by
  unfold Near at *
  grind

theorem roundToDouble_of_small {n : Nat} (h : n < 2 ^ 52) : roundToDouble n = n := by
  have hlog : n.log2 + 1 - 53 = 0 := by
    by_cases hn : n = 0
    · subst hn
      decide
    · have hlt : n.log2 < 52 := (Nat.log2_lt hn).mpr h
      omega
  have hunit : n % 1 = 0 := Nat.mod_one n
  simp [roundToDouble, hlog, hunit]

/-- Rounding keeps the leading bit in place. -/
theorem le_roundToDouble {n : Nat} (h : 2 ^ 52 ≤ n) : 2 ^ 52 ≤ roundToDouble n := by
  have hne : n ≠ 0 := by omega
  have hlog : 52 ≤ n.log2 := (Nat.le_log2 hne).mpr h
  have hlow := Nat.log2_self_le hne
  have hsplit : 2 ^ n.log2 = 2 ^ 52 * 2 ^ (n.log2 + 1 - 53) := by
    rw [← pow_add]
    congr 1
    omega
  have hquotient : 2 ^ 52 ≤ n / 2 ^ (n.log2 + 1 - 53) := by
    rw [Nat.le_div_iff_mul_le (by positivity), ← hsplit]
    exact hlow
  have hunit : 0 < 2 ^ (n.log2 + 1 - 53) := by positivity
  have hdown : 2 ^ 52 ≤ n / 2 ^ (n.log2 + 1 - 53) * 2 ^ (n.log2 + 1 - 53) :=
    hquotient.trans (Nat.le_mul_of_pos_right _ hunit)
  unfold roundToDouble
  dsimp only
  split
  · exact hdown.trans (Nat.mul_le_mul_right _ (Nat.le_succ _))
  · exact hdown

theorem near_intCast {m n : Int}
    (h : m = n ∨ 2 ^ 52 ≤ m ∧ 2 ^ 52 ≤ n ∨ m ≤ -2 ^ 52 ∧ n ≤ -2 ^ 52) : Near m n := by
  unfold Near
  exact_mod_cast h

theorem near_double (n : Int) : Near n ((n.sign * roundToDouble n.natAbs : Int) : Rat) := by
  refine near_intCast ?_
  by_cases hsmall : n.natAbs < 2 ^ 52
  · rw [roundToDouble_of_small hsmall, Int.sign_mul_natAbs]
    exact .inl rfl
  · have hround := le_roundToDouble (Nat.not_lt.mp hsmall)
    rcases Int.lt_or_le n 0 with hneg | hpos
    · rw [Int.sign_eq_neg_one_of_neg hneg]
      omega
    · rw [Int.sign_eq_one_of_pos (by omega)]
      omega

theorem bind_asF64 (value : Json) (key : String) :
    (value.get? key).bind Json.asF64 = (numberAt value key).map Number.asF64 := by
  unfold numberAt
  cases value.get? key with
  | none => rfl
  | some item => cases item <;> rfl

/-- A number is read as it is written, or stays far from zero. -/
theorem near_asF64 (n : Number) : Near n.value n.asF64 := by
  cases n with
  | posInt n =>
    have h := near_double n.toNat
    by_cases hzero : n.toNat = 0
    · simp [Number.asF64, Number.value, hzero, Near, roundToDouble]
    · rw [Int.sign_natCast_of_ne_zero hzero, one_mul, Int.natAbs_natCast] at h
      exact_mod_cast h
  | negInt n => exact near_double n.toInt
  | float q => exact .inl rfl

/-- Only what is written as an integer is read as one. -/
theorem den_asF64 (n : Number) : n.asF64.den = 1 ↔ n.value.den = 1 := by
  cases n with
  | posInt n => simp [Number.asF64, Number.value]
  | negInt n => exact iff_of_true (Rat.den_intCast _) (Rat.den_intCast _)
  | float q => exact Iff.rfl

theorem near_saturateI64 {q : Rat} (h : q.den = 1) : Near q (saturateI64 q.num) := by
  rw [← Rat.coe_int_num_of_den_eq_one h, Rat.num_intCast]
  refine near_intCast ?_
  unfold saturateI64
  omega

end Climon.Lib.JsonValue
