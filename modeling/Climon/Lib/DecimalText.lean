import Climon.Lib.JsonAgreement
import Mathlib.Data.List.TakeWhile

namespace Climon.Lib.DecimalText

open Climon.Lib.JavaScript Climon.Lib.JsonAgreement Climon.Lib.Utf16

/-! # Decimal texts of integers -/

section

variable {c : Char} {digits : List Char}

theorem toNat_digit (h : c.isDigit = true) : 48 ≤ c.toNat ∧ c.toNat ≤ 57 := by
  simp only [Char.isDigit, Bool.and_eq_true, decide_eq_true_eq] at h
  exact ⟨h.1, h.2⟩

theorem encodeChar_digit (h : c.isDigit = true) : encodeChar c = [UInt16.ofNat c.toNat] := by
  have hbound := toNat_digit h
  unfold encodeChar
  rw [if_pos (by omega)]

theorem isDigit_unit (h : c.isDigit = true) :
    (0x30 ≤ UInt16.ofNat c.toNat && UInt16.ofNat c.toNat ≤ 0x39) = true := by
  have hbound := toNat_digit h
  have hnat : (UInt16.ofNat c.toNat).toNat = c.toNat := by
    rw [UInt16.toNat_ofNat']
    exact Nat.mod_eq_of_lt (by omega)
  simp only [Bool.and_eq_true, decide_eq_true_eq, UInt16.le_iff_toNat_le, hnat]
  exact hbound

theorem digitValue_unit (h : c.isDigit = true) :
    digitValue (UInt16.ofNat c.toNat) = some (c.toNat - '0'.toNat) := by
  have hunit := isDigit_unit h
  have hbound := toNat_digit h
  simp only [Bool.and_eq_true, decide_eq_true_eq] at hunit
  unfold digitValue
  rw [if_pos hunit, UInt16.toNat_sub_of_le _ _ hunit.1, UInt16.toNat_ofNat',
    Nat.mod_eq_of_lt (by omega)]
  rfl

theorem encode_digits (h : ∀ c ∈ digits, c.isDigit = true) :
    encode (String.ofList digits) = digits.map fun c => UInt16.ofNat c.toNat := by
  unfold encode
  rw [String.toList_ofList]
  induction digits with
  | nil => rfl
  | cons c digits ih =>
    rw [List.forall_mem_cons] at h
    rw [List.flatMap_cons, encodeChar_digit h.1, ih h.2]
    rfl

theorem numeral_digits (h : ∀ c ∈ digits, c.isDigit = true) (hne : digits ≠ []) :
    numeral 10 (digits.map fun c => UInt16.ofNat c.toNat) =
      some (Nat.ofDigitChars 10 digits 0) := by
  have hfold (start : Nat) : (digits.map fun c => UInt16.ofNat c.toNat).foldlM (fun n u =>
      (digitValue u).bind fun d => if d < 10 then some (n * 10 + d) else none) start =
        some (Nat.ofDigitChars 10 digits start) := by
    clear hne
    induction digits generalizing start with
    | nil => simp
    | cons c digits ih =>
      rw [List.forall_mem_cons] at h
      have hbound := toNat_digit h.1
      have hlt : c.toNat - '0'.toNat < 10 := by
        change c.toNat - 48 < 10
        omega
      rw [List.map_cons, List.foldlM_cons, digitValue_unit h.1, Nat.ofDigitChars_cons]
      simp only [Option.bind_some, if_pos hlt, Option.bind_eq_bind]
      rw [ih h.2, Nat.mul_comm start 10]
  cases digits with
  | nil => exact absurd rfl hne
  | cons c digits => exact hfold 0

theorem unsignedDecimal_digits (h : ∀ c ∈ digits, c.isDigit = true) (hne : digits ≠ []) :
    unsignedDecimal (encode (String.ofList digits)) =
      some (Nat.ofDigitChars 10 digits 0 : Rat) := by
  have hall : ∀ u ∈ digits.map fun c => UInt16.ofNat c.toNat,
      (0x30 ≤ u && u ≤ 0x39) = true := by
    intro u hu
    obtain ⟨c, hc, rfl⟩ := List.mem_map.mp hu
    exact isDigit_unit (h c hc)
  rw [encode_digits h]
  unfold unsignedDecimal
  simp only [List.takeWhile_eq_self_iff.mpr hall, List.dropWhile_eq_nil_iff.mpr hall,
    List.head?_nil, reduceCtorEq, if_false, List.append_nil, numeral_digits h hne]
  simp [power]

end

/-! ## Naturals -/

theorem digits_repr (n : Nat) : ∀ c ∈ n.repr.toList, c.isDigit = true := by
  intro c hc
  rw [Nat.toList_repr] at hc
  exact Nat.isDigit_of_mem_toDigits (by decide) (by decide) hc

theorem repr_ne_nil (n : Nat) : n.repr.toList ≠ [] := by
  rw [Nat.toList_repr]
  exact Nat.toDigits_ne_nil

@[simp] theorem ofDigitChars_repr (n : Nat) : Nat.ofDigitChars 10 n.repr.toList 0 = n := by
  rw [Nat.toList_repr, Nat.ofDigitChars_ten_toDigits]

theorem repr_injective {m n : Nat} (h : m.repr = n.repr) : m = n := by
  rw [← ofDigitChars_repr m, h, ofDigitChars_repr]

/-- `str::parse::<u32>` -/
def parseU32 (text : List Char) : Option UInt32 :=
  let digits :=
    match text with
    | '+' :: digits => digits
    | digits => digits
  if digits ≠ [] ∧ digits.all Char.isDigit ∧ Nat.ofDigitChars 10 digits 0 < 2 ^ 32 then
    some (UInt32.ofNat (Nat.ofDigitChars 10 digits 0))
  else none

theorem parseU32_repr (n : UInt32) : parseU32 n.toNat.repr.toList = some n := by
  have hdigits := digits_repr n.toNat
  have hne := repr_ne_nil n.toNat
  have hplus : (match n.toNat.repr.toList with
      | '+' :: digits => digits
      | digits => digits) = n.toNat.repr.toList := by
    split
    next digits heq =>
      rw [heq] at hdigits
      exact absurd (hdigits '+' List.mem_cons_self) (by decide)
    next => rfl
  unfold parseU32
  rw [hplus]
  simp only [ofDigitChars_repr, UInt32.ofNat_toNat]
  exact if_pos ⟨hne, List.all_eq_true.mpr hdigits, n.toNat_lt⟩

/-! ## Integers -/

theorem minus_mem_repr {n : Int} : '-' ∈ n.repr.toList ↔ n < 0 := by
  have hminus : "-".toList = ['-'] := rfl
  rw [Int.repr_eq_if]
  split
  · next hn =>
    constructor
    · intro h
      exact absurd (digits_repr n.toNat '-' h) (by decide)
    · omega
  · next hn =>
    rw [String.toList_append, hminus]
    constructor
    · omega
    · intro _
      exact List.mem_cons_self

theorem int_repr_injective {m n : Int} (h : m.repr = n.repr) : m = n := by
  have hsign : m < 0 ↔ n < 0 := by rw [← minus_mem_repr, h, minus_mem_repr]
  rw [Int.repr_eq_if, Int.repr_eq_if] at h
  by_cases hn : 0 ≤ n
  · have hm : 0 ≤ m := by omega
    rw [if_pos hm, if_pos hn] at h
    have hnat := repr_injective h
    omega
  · have hm : ¬ 0 ≤ m := by omega
    rw [if_neg hm, if_neg hn] at h
    have hlist := congrArg String.toList h
    rw [String.toList_append, String.toList_append, List.append_cancel_left_eq,
      String.toList_inj] at hlist
    have hnat := repr_injective hlist
    omega

end Climon.Lib.DecimalText
