import Mathlib.Data.Nat.Digits.Defs
import Mathlib.Data.List.Basic
import Mathlib.Tactic.Tauto

namespace Climon.Lib.FixedWidth

/-! # Decimal fields of a fixed width -/

/-- The digits of a number, with zeros in front up to a width. -/
def fixed (width n : Nat) : List Char := n.repr.toList.leftpad width '0'

section

variable {width n m : Nat}

theorem fixed_digits : ∀ c ∈ fixed width n, c.isDigit = true := by
  intro c hc
  unfold fixed List.leftpad at hc
  rcases List.mem_append.mp hc with hzero | hdigit
  · rw [List.eq_of_mem_replicate hzero]
    rfl
  · rw [Nat.toList_repr] at hdigit
    exact Nat.isDigit_of_mem_toDigits (by decide) (by decide) hdigit

theorem length_fixed (hwidth : 0 < width) (h : n < 10 ^ width) : (fixed width n).length = width := by
  have hlen : n.repr.length ≤ width := Nat.repr_length n width hwidth h
  unfold fixed
  rw [List.length_leftpad, String.length_toList]
  exact max_eq_left hlen

@[simp] theorem ofDigitChars_fixed : Nat.ofDigitChars 10 (fixed width n) 0 = n := by
  unfold fixed List.leftpad
  rw [Nat.ofDigitChars_append, Nat.ofDigitChars_replicate_zero, Nat.mul_zero, Nat.toList_repr,
    Nat.ofDigitChars_ten_toDigits]

theorem fixed_inj : fixed width n = fixed width m ↔ n = m := by
  constructor
  · intro h
    have hvalue := congrArg (fun digits => Nat.ofDigitChars 10 digits 0) h
    simpa using hvalue
  · intro h
    rw [h]

end

/-! ## Order -/

section

variable {as bs cs ds : List Char}

theorem digit_value {c : Char} (h : c.isDigit = true) :
    c.toNat - '0'.toNat < 10 ∧ c.toNat = c.toNat - '0'.toNat + '0'.toNat := by
  simp only [Char.isDigit, Bool.and_eq_true, decide_eq_true_eq] at h
  have hlo : 48 ≤ c.toNat := h.1
  have hhi : c.toNat ≤ 57 := h.2
  have hzero : '0'.toNat = 48 := rfl
  rw [hzero]
  omega

theorem value_cons (c : Char) (as : List Char) :
    Nat.ofDigitChars 10 (c :: as) 0 =
      10 ^ as.length * (c.toNat - '0'.toNat) + Nat.ofDigitChars 10 as 0 := by
  rw [Nat.ofDigitChars_cons, Nat.ofDigitChars_eq_ofDigitChars_zero, Nat.mul_zero, Nat.zero_add]

theorem value_lt (h : ∀ c ∈ as, c.isDigit = true) :
    Nat.ofDigitChars 10 as 0 < 10 ^ as.length := by
  induction as with
  | nil => decide
  | cons c as ih =>
    rw [List.forall_mem_cons] at h
    have hc := (digit_value h.1).1
    have hrest := ih h.2
    rw [value_cons, List.length_cons, Nat.pow_succ]
    generalize c.toNat - '0'.toNat = d at *
    have hmul : 10 ^ as.length * d ≤ 10 ^ as.length * 9 := Nat.mul_le_mul_left _ (by omega)
    omega

/-- Digit strings of one length are in the order of their numbers. -/
theorem lt_iff_value_lt (ha : ∀ c ∈ as, c.isDigit = true) (hb : ∀ c ∈ bs, c.isDigit = true)
    (hlen : as.length = bs.length) :
    as < bs ↔ Nat.ofDigitChars 10 as 0 < Nat.ofDigitChars 10 bs 0 := by
  induction as generalizing bs with
  | nil =>
    have hnil : bs = [] := List.eq_nil_of_length_eq_zero hlen.symm
    subst hnil
    simp
  | cons a as ih =>
    cases bs with
    | nil => simp at hlen
    | cons b bs =>
      rw [List.forall_mem_cons] at ha hb
      have hlen : as.length = bs.length := Nat.succ.inj hlen
      have htail := ih ha.2 hb.2 hlen
      have hvalueA := value_lt ha.2
      have hvalueB := value_lt hb.2
      have hdigitA := (digit_value ha.1).2
      have hdigitB := (digit_value hb.1).2
      have hchar : a < b ↔ a.toNat < b.toNat := Iff.rfl
      have heq : a = b ↔ a.toNat = b.toNat := Char.toNat_inj.symm
      rw [List.cons_lt_cons_iff, htail, value_cons, value_cons, hchar, heq, ← hlen]
      rw [← hlen] at hvalueB
      generalize a.toNat - '0'.toNat = d at *
      generalize b.toNat - '0'.toNat = e at *
      generalize 10 ^ as.length = p at *
      rcases Nat.lt_trichotomy d e with hlt | heq | hgt
      · have hmul : p * d + p ≤ p * e := by
          rw [← Nat.mul_succ]
          exact Nat.mul_le_mul_left p hlt
        omega
      · subst heq
        omega
      · have hmul : p * e + p ≤ p * d := by
          rw [← Nat.mul_succ]
          exact Nat.mul_le_mul_left p hgt
        omega

theorem fixed_lt_fixed {width n m : Nat} (hwidth : 0 < width) (hn : n < 10 ^ width)
    (hm : m < 10 ^ width) : fixed width n < fixed width m ↔ n < m := by
  rw [lt_iff_value_lt fixed_digits fixed_digits, ofDigitChars_fixed, ofDigitChars_fixed]
  rw [length_fixed hwidth hn, length_fixed hwidth hm]

theorem append_lt_append (hlen : as.length = bs.length) :
    as ++ cs < bs ++ ds ↔ as < bs ∨ as = bs ∧ cs < ds := by
  induction as generalizing bs with
  | nil =>
    have hnil : bs = [] := List.eq_nil_of_length_eq_zero hlen.symm
    subst hnil
    simp
  | cons a as ih =>
    cases bs with
    | nil => simp at hlen
    | cons b bs =>
      have htail := @ih bs (Nat.succ.inj hlen)
      simp only [List.cons_append, List.cons_lt_cons_iff, htail, List.cons.injEq]
      tauto

end

end Climon.Lib.FixedWidth
