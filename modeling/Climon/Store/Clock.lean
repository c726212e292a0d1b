import Mathlib.Data.Nat.Digits.Defs

namespace Climon.Store.Clock

/-! # Timestamps -/

/-- Days since the epoch to year, month and day. -/
def civilFromDays (z : Int) : Int × Nat × Nat :=
  let z := z + 719468
  let era := (if 0 ≤ z then z else z - 146096).tdiv 146097
  let doe := (z - era * 146097).toNat
  let yoe := (doe - doe / 1460 + doe / 36524 - doe / 146096) / 365
  let doy := doe - (365 * yoe + yoe / 4 - yoe / 100)
  let mp := (5 * doy + 2) / 153
  let d := doy - (153 * mp + 2) / 5 + 1
  let m := if mp < 10 then mp + 3 else mp - 9
  let y := yoe + era * 400
  (if m ≤ 2 then y + 1 else y, m, d)

/-- A decimal number with leading zeros up to a width. -/
def pad (width n : Nat) : String := String.ofList (n.repr.toList.leftpad width '0')

def padYear (year : Int) : String :=
  if year < 0 then "-" ++ pad 3 year.natAbs else pad 4 year.natAbs

/-- `YYYY-MM-DDTHH:MM:SS.mmmZ` -/
def iso8601MillisUtc (totalMillis : Int64) : String :=
  let secs := totalMillis.toInt / 1000
  let millis := (totalMillis.toInt % 1000).toNat
  let days := secs / 86400
  let rem := (secs % 86400).toNat
  let (year, month, day) := civilFromDays days
  padYear year ++ "-" ++ pad 2 month ++ "-" ++ pad 2 day ++ "T" ++ pad 2 (rem / 3600) ++ ":" ++
    pad 2 (rem % 3600 / 60) ++ ":" ++ pad 2 (rem % 60) ++ "." ++ pad 3 millis ++ "Z"

theorem length_pad_le {width n k : Nat} (hk : 0 < k) (hn : n < 10 ^ k) (hw : width ≤ k) :
    (pad width n).length ≤ k := by
  unfold pad
  rw [String.length_ofList, List.length_leftpad, String.length_toList]
  exact max_le hw (Nat.repr_length n k hk hn)

theorem civilFromDays_bounds {z : Int} (hlo : -2 ^ 63 ≤ z) (hhi : z < 2 ^ 63) :
    (civilFromDays z).1.natAbs < 10 ^ 23 ∧ (civilFromDays z).2.1 < 10 ^ 2 ∧
      (civilFromDays z).2.2 < 10 ^ 6 := by
  have hera {z : Int} : (if 0 ≤ z then z else z - 146096).tdiv 146097 = z / 146097 := by
    split
    next h => exact Int.tdiv_eq_ediv_of_nonneg h
    next h =>
      have hneg : z - 146096 = -(146096 - z) := by omega
      rw [hneg, Int.neg_tdiv, Int.tdiv_eq_ediv_of_nonneg (by omega)]
      omega
  unfold civilFromDays
  simp only [hera]
  refine ⟨?_, ?_, ?_⟩
  · split <;> omega
  · split <;> omega
  · omega

private theorem length_padYear_le {year : Int} (h : year.natAbs < 10 ^ 23) :
    (padYear year).length ≤ 24 := by
  unfold padYear
  split
  · have hpad : (pad 3 year.natAbs).length ≤ 23 := length_pad_le (by omega) h (by omega)
    have hsign : "-".length = 1 := rfl
    rw [String.length_append]
    omega
  · have hpad : (pad 4 year.natAbs).length ≤ 23 := length_pad_le (by omega) h (by omega)
    omega

/-- Whatever the clock says, its text is short. -/
theorem length_iso8601MillisUtc_le (totalMillis : Int64) :
    (iso8601MillisUtc totalMillis).length ≤ 64 := by
  have hlo := totalMillis.le_toInt
  have hhi := totalMillis.toInt_lt
  have hcivil := civilFromDays_bounds (z := totalMillis.toInt / 1000 / 86400) (by omega) (by omega)
  have two {n : Nat} (h : n < 10 ^ 2) : (pad 2 n).length ≤ 2 := length_pad_le (by omega) h (by omega)
  unfold iso8601MillisUtc
  rcases hdate : civilFromDays (totalMillis.toInt / 1000 / 86400) with ⟨year, month, day⟩
  rw [hdate] at hcivil
  obtain ⟨hyear, hmonth, hday⟩ := hcivil
  have hpadYear : (padYear year).length ≤ 24 := length_padYear_le hyear
  have hpadMonth : (pad 2 month).length ≤ 2 := two hmonth
  have hpadDay : (pad 2 day).length ≤ 6 := length_pad_le (by omega) hday (by omega)
  have hrem : (totalMillis.toInt / 1000 % 86400).toNat < 86400 := by omega
  have hhour := two (n := (totalMillis.toInt / 1000 % 86400).toNat / 3600) (by omega)
  have hmin := two (n := (totalMillis.toInt / 1000 % 86400).toNat % 3600 / 60) (by omega)
  have hsec := two (n := (totalMillis.toInt / 1000 % 86400).toNat % 60) (by omega)
  have hmillis : (pad 3 (totalMillis.toInt % 1000).toNat).length ≤ 3 :=
    length_pad_le (by omega) (by omega) (by omega)
  have hdash : "-".length = 1 := rfl
  have htime : "T".length = 1 := rfl
  have hcolon : ":".length = 1 := rfl
  have hdot : ".".length = 1 := rfl
  have hutc : "Z".length = 1 := rfl
  simp only [hdate, String.length_append]
  omega

end Climon.Store.Clock
