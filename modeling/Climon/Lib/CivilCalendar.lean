import Mathlib.Tactic.IntervalCases

namespace Climon.Lib.CivilCalendar

/-! # The civil calendar -/

structure Date where
  year : Int
  month : Nat
  day : Nat
  deriving DecidableEq, Repr

def isLeap (year : Int) : Bool := year % 4 = 0 && (year % 100 ≠ 0 || year % 400 = 0)

def monthLength (year : Int) (month : Nat) : Nat :=
  if month = 2 then if isLeap year then 29 else 28
  else if month = 4 ∨ month = 6 ∨ month = 9 ∨ month = 11 then 30
  else 31

structure Date.Valid (date : Date) : Prop where
  month_pos : 1 ≤ date.month
  month_le : date.month ≤ 12
  day_pos : 1 ≤ date.day
  day_le : date.day ≤ monthLength date.year date.month

def Date.Before (a b : Date) : Prop :=
  a.year < b.year ∨
    a.year = b.year ∧ (a.month < b.month ∨ a.month = b.month ∧ a.day < b.day)

/-! ## Years that start in March

400 of them make an era of 146097 days, and a leap day is the last day of its year. -/

def yearStart (yoe : Nat) : Nat := 365 * yoe + yoe / 4 - yoe / 100

def yearOfEra (doe : Nat) : Nat := (doe - doe / 1460 + doe / 36524 - doe / 146096) / 365

def monthStart (mp : Nat) : Nat := (153 * mp + 2) / 5

def monthOfYear (doy : Nat) : Nat := (5 * doy + 2) / 153

/-- The calendar month of a month of the March year. -/
def civilMonth (mp : Nat) : Nat := if mp < 10 then mp + 3 else mp - 9

/-- The date of a day, day 0 being 1970-01-01. -/
def ofDays (z : Int) : Date :=
  let era := (z + 719468) / 146097
  let doe := ((z + 719468) % 146097).toNat
  let yoe := yearOfEra doe
  let doy := doe - yearStart yoe
  let mp := monthOfYear doy
  let month := civilMonth mp
  let year : Int := yoe + era * 400
  { year := if month ≤ 2 then year + 1 else year, month, day := doy - monthStart mp + 1 }

def Date.marchYear (date : Date) : Int := if date.month ≤ 2 then date.year - 1 else date.year

def Date.marchMonth (date : Date) : Nat :=
  if date.month ≤ 2 then date.month + 9 else date.month - 3

def daysBefore (year : Int) : Int := 365 * year + year / 4 - year / 100 + year / 400

def toDays (date : Date) : Int :=
  daysBefore date.marchYear + monthStart date.marchMonth + date.day - 1 - 719468

section

variable {doe : Nat}

private theorem century {n : Nat} (h : doe < 146097)
    (hn : n = doe - doe / 1460 + doe / 36524 - doe / 146096) :
    n / 36500 + doe / 146096 = doe / 36524 := by
  have hcases : doe / 36524 = 0 ∨ doe / 36524 = 1 ∨ doe / 36524 = 2 ∨ doe / 36524 = 3 ∨
      doe = 146096 := by omega
  have hlo : 25 * (doe / 36524) ≤ doe / 1460 := by omega
  have hhi : doe / 1460 ≤ 25 * (doe / 36524) + 25 := by omega
  rcases hcases with h0 | h1 | h2 | h3 | hlast
  · rw [h0] at hlo hhi ⊢
    omega
  · omega
  · omega
  · omega
  · subst hlast
    omega

private theorem year_end {n : Nat} (h : doe < 146096)
    (hn : doe - doe / 1460 + doe / 36524 = n) (hcentury : n / 36500 = doe / 36524)
    (hfour : n / 1460 ≤ doe / 1460 ∧ doe / 1460 ≤ n / 1460 + 1) :
    doe < 365 * (n / 365 + 1) + (n / 365 + 1) / 4 - (n / 365 + 1) / 100 := by
  have hcases : (n / 365 + 1) / 4 = n / 1460 ∧ n % 1460 < 1095 ∨
      (n / 365 + 1) / 4 = n / 1460 + 1 ∧ (n / 365 + 1) / 100 = n / 36500 ∨
      (n / 365 + 1) / 4 = n / 1460 + 1 ∧ (n / 365 + 1) / 100 = n / 36500 + 1 := by omega
  rcases hcases with ⟨hnext4, hshort⟩ | ⟨hnext4, hnext100⟩ | ⟨hnext4, hnext100⟩
  · have hnext100 : (n / 365 + 1) / 100 = n / 36500 := by omega
    have hq : doe / 1460 = n / 1460 := by omega
    rw [hnext4, hnext100, ← hq, hcentury]
    omega
  · rw [hnext4, hnext100, hcentury]
    omega
  · -- the last year of a century has no leap day
    have hq : n / 1460 = 25 * (n / 36500) + 24 := by omega
    have hyear : n / 365 = 100 * (n / 36500) + 99 := by omega
    have hbound : doe < 36524 * (doe / 36524 + 1) := by omega
    rw [hnext4, hnext100, hq, hyear, hcentury]
    rw [hcentury] at hq
    omega

/-- A day lies in the year that is computed for it, and before the next one. -/
theorem yearOfEra_spec (h : doe < 146097) :
    yearOfEra doe < 400 ∧ yearStart (yearOfEra doe) ≤ doe ∧
      doe < yearStart (yearOfEra doe + 1) + (yearOfEra doe + 1) / 400 := by
  unfold yearOfEra yearStart
  generalize hn : doe - doe / 1460 + doe / 36524 - doe / 146096 = n
  have hcentury := century h hn.symm
  have hfour : n / 1460 ≤ doe / 1460 ∧ doe / 1460 ≤ n / 1460 + 1 := by omega
  have hdiv4 : n / 365 / 4 = n / 1460 := by omega
  have hdiv100 : n / 365 / 100 = n / 36500 := by omega
  have hlast : doe / 146096 = 0 ∨ doe = 146096 := by omega
  refine ⟨by omega, ?_, ?_⟩
  · rw [hdiv4, hdiv100]
    generalize doe / 36524 = e at *
    generalize doe / 1460 = g at *
    generalize doe / 146096 = f at *
    generalize n / 1460 = q at *
    generalize n / 36500 = c at *
    omega
  · rcases hlast with hlast | hlast
    · rw [hlast] at hn hcentury
      have hend := year_end (by omega) hn hcentury hfour
      omega
    · subst hlast
      omega

theorem isLeap_iff {year : Int} :
    isLeap year = true ↔ year % 4 = 0 ∧ (year % 100 ≠ 0 ∨ year % 400 = 0) := by
  simp [isLeap]

theorem isLeap_add_era (year era : Int) : isLeap (year + era * 400) = isLeap year := by
  have h4 : (year + era * 400) % 4 = year % 4 := by omega
  have h100 : (year + era * 400) % 100 = year % 100 := by omega
  have h400 : (year + era * 400) % 400 = year % 400 := by omega
  unfold isLeap
  rw [h4, h100, h400]

/-- A year that starts in March has the leap day of the next calendar year. -/
theorem daysBefore_succ (year : Int) :
    daysBefore (year + 1) = daysBefore year + if isLeap (year + 1) then 366 else 365 := by
  have h4 : (year + 1) / 4 = year / 4 + if (year + 1) % 4 = 0 then 1 else 0 := by
    split <;> omega
  have h100 : (year + 1) / 100 = year / 100 + if (year + 1) % 100 = 0 then 1 else 0 := by
    split <;> omega
  have h400 : (year + 1) / 400 = year / 400 + if (year + 1) % 400 = 0 then 1 else 0 := by
    split <;> omega
  unfold daysBefore
  rw [h4, h100, h400]
  by_cases hfour : (year + 1) % 4 = 0
  · by_cases hcentury : (year + 1) % 100 = 0
    · by_cases hera : (year + 1) % 400 = 0
      · rw [if_pos (isLeap_iff.mpr ⟨hfour, .inr hera⟩), if_pos hfour, if_pos hcentury,
          if_pos hera]
        omega
      · have hleap : ¬ isLeap (year + 1) = true := by
          rw [isLeap_iff]
          omega
        rw [if_neg hleap, if_pos hfour, if_pos hcentury, if_neg hera]
        omega
    · have hera : (year + 1) % 400 ≠ 0 := by omega
      rw [if_pos (isLeap_iff.mpr ⟨hfour, .inl hcentury⟩), if_pos hfour, if_neg hcentury,
        if_neg hera]
      omega
  · have hcentury : (year + 1) % 100 ≠ 0 := by omega
    have hera : (year + 1) % 400 ≠ 0 := by omega
    have hleap : ¬ isLeap (year + 1) = true := by
      rw [isLeap_iff]
      omega
    rw [if_neg hleap, if_neg hfour, if_neg hcentury, if_neg hera]
    omega

theorem daysBefore_natCast (yoe : Nat) : daysBefore yoe = (yearStart yoe + yoe / 400 : Nat) := by
  unfold daysBefore yearStart
  omega

theorem monthOfYear_spec {doy : Nat} (h : doy < 366) :
    monthOfYear doy < 12 ∧ monthStart (monthOfYear doy) ≤ doy ∧
      doy < monthStart (monthOfYear doy + 1) := by
  unfold monthOfYear monthStart
  omega

end

/-! ## Dates of days -/

section

variable {z : Int}

/-- Where a day lies in its era, its year and its month. -/
private theorem parts (z : Int) :
    ∃ era : Int, ∃ yoe mp d : Nat, yoe < 400 ∧ mp < 12 ∧ monthStart mp + d < monthStart (mp + 1) ∧
      (mp = 11 → d < if isLeap (yoe + 1 : Nat) then 29 else 28) ∧
      z + 719468 = era * 146097 + (yearStart yoe + monthStart mp + d : Nat) ∧
      ofDays z = { year := (if civilMonth mp ≤ 2 then yoe + era * 400 + 1 else yoe + era * 400),
                   month := civilMonth mp, day := d + 1 } := by
  have hdoe : ((z + 719468) % 146097).toNat < 146097 := by omega
  have hz : z + 719468 = (z + 719468) / 146097 * 146097 + ((z + 719468) % 146097).toNat := by
    omega
  unfold ofDays
  generalize ((z + 719468) % 146097).toNat = doe at *
  generalize (z + 719468) / 146097 = era at *
  obtain ⟨hyoe, hstart, hend⟩ := yearOfEra_spec hdoe
  have hsucc := daysBefore_succ (yearOfEra doe)
  rw [show (yearOfEra doe : Int) + 1 = (yearOfEra doe + 1 : Nat) from rfl, daysBefore_natCast,
    daysBefore_natCast] at hsucc
  have hera : yearOfEra doe / 400 = 0 := by omega
  have hdoy : doe - yearStart (yearOfEra doe) <
      if isLeap (yearOfEra doe + 1 : Nat) then 366 else 365 := by
    split at hsucc
    next hleap => rw [if_pos hleap]; omega
    next hleap => rw [if_neg hleap]; omega
  have hbound : doe - yearStart (yearOfEra doe) < 366 := by
    split at hdoy <;> omega
  obtain ⟨hmp, hfrom, hto⟩ := monthOfYear_spec hbound
  refine ⟨era, yearOfEra doe, monthOfYear (doe - yearStart (yearOfEra doe)),
    doe - yearStart (yearOfEra doe) - monthStart (monthOfYear (doe - yearStart (yearOfEra doe))),
    hyoe, hmp, by omega, ?_, ?_, rfl⟩
  · intro hfeb
    rw [hfeb] at hfrom ⊢
    have h11 : monthStart 11 = 337 := rfl
    rw [h11] at hfrom ⊢
    split at hdoy
    next hleap => rw [if_pos hleap]; omega
    next hleap => rw [if_neg hleap]; omega
  · rw [hz]
    congr 2
    omega

theorem monthLength_civilMonth {mp : Nat} (h : mp < 11) (year : Int) :
    monthStart (mp + 1) = monthStart mp + monthLength year (civilMonth mp) := by
  interval_cases mp <;> rfl

theorem ofDays_valid (z : Int) : (ofDays z).Valid := by
  obtain ⟨era, yoe, mp, d, hyoe, hmp, hd, hfeb, -, hz⟩ := parts z
  rw [hz]
  by_cases hlast : mp = 11
  · have hday := hfeb hlast
    subst hlast
    have hera : isLeap ((yoe + 1 : Nat) + era * 400) = isLeap (yoe + 1 : Nat) :=
      isLeap_add_era _ era
    have hyear : (yoe : Int) + era * 400 + 1 = (yoe + 1 : Nat) + era * 400 := by omega
    refine ⟨(by decide : 1 ≤ civilMonth 11), (by decide : civilMonth 11 ≤ 12),
      Nat.le_add_left 1 d, ?_⟩
    change d + 1 ≤ if isLeap (yoe + era * 400 + 1) then 29 else 28
    rw [hyear, hera]
    split at hday <;> omega
  · have hlength := monthLength_civilMonth (show mp < 11 by omega)
      (if civilMonth mp ≤ 2 then yoe + era * 400 + 1 else yoe + era * 400)
    have hmonth : 1 ≤ civilMonth mp ∧ civilMonth mp ≤ 12 := by
      unfold civilMonth
      split <;> omega
    have hday : d + 1 ≤ monthLength
        (if civilMonth mp ≤ 2 then yoe + era * 400 + 1 else yoe + era * 400) (civilMonth mp) := by
      omega
    exact ⟨hmonth.1, hmonth.2, Nat.le_add_left 1 d, hday⟩

/-- The day of the date of a day. -/
@[simp] theorem toDays_ofDays (z : Int) : toDays (ofDays z) = z := by
  obtain ⟨era, yoe, mp, d, hyoe, hmp, hd, -, hsum, hz⟩ := parts z
  have hmarch : (ofDays z).marchYear = yoe + era * 400 ∧ (ofDays z).marchMonth = mp := by
    rw [hz]
    unfold Date.marchYear Date.marchMonth
    dsimp only
    unfold civilMonth
    split <;> constructor <;> split <;> omega
  have h4 : ((yoe : Int) + era * 400) / 4 = yoe / 4 + era * 100 := by omega
  have h100 : ((yoe : Int) + era * 400) / 100 = yoe / 100 + era * 4 := by omega
  have h400 : ((yoe : Int) + era * 400) / 400 = era := by omega
  have hyear : daysBefore (yoe + era * 400) = era * 146097 + yearStart yoe := by
    unfold daysBefore yearStart
    rw [h4, h100, h400]
    omega
  have hday : (ofDays z).day = d + 1 := by rw [hz]
  unfold toDays
  rw [hmarch.1, hmarch.2, hyear, hday]
  omega

end

/-! ## Order -/

section

variable {a b : Date}

theorem daysBefore_mono {y y' : Int} (h : y ≤ y') : daysBefore y ≤ daysBefore y' := by
  unfold daysBefore
  omega

/-- A day comes before the next month, and before the next year. -/
theorem Date.Valid.month_end (h : a.Valid) :
    monthStart a.marchMonth + a.day ≤ (if isLeap (a.marchYear + 1) then 366 else 365) ∧
      (a.marchMonth < 11 → monthStart a.marchMonth + a.day ≤ monthStart (a.marchMonth + 1)) := by
  have hpos := h.month_pos
  have hle := h.month_le
  have hday := h.day_le
  by_cases hfeb : a.month = 2
  · have hmarch : a.marchMonth = 11 := by
      rw [Date.marchMonth, hfeb]
      rfl
    have hyear : a.marchYear + 1 = a.year := by
      rw [Date.marchYear, hfeb]
      exact Int.sub_add_cancel a.year 1
    have h11 : monthStart 11 = 337 := rfl
    rw [hfeb] at hday
    change a.day ≤ if isLeap a.year then 29 else 28 at hday
    rw [hmarch, hyear, h11]
    refine ⟨?_, by omega⟩
    split at hday
    next hleap => rw [if_pos hleap]; omega
    next hleap => rw [if_neg hleap]; omega
  · have hmarch : a.marchMonth < 11 := by
      unfold Date.marchMonth
      split <;> omega
    have hmonth : civilMonth a.marchMonth = a.month := by
      unfold civilMonth Date.marchMonth
      split <;> split <;> omega
    have hlength := monthLength_civilMonth hmarch a.year
    rw [hmonth] at hlength
    have hstart : monthStart (a.marchMonth + 1) ≤ 365 := by
      unfold monthStart
      omega
    refine ⟨?_, fun _ => by omega⟩
    split <;> omega

theorem toDays_lt (ha : a.Valid) (hb : b.Valid) (h : a.Before b) : toDays a < toDays b := by
  have hend := ha.month_end
  have hpos := hb.day_pos
  have hmarch : a.marchYear < b.marchYear ∨ a.marchYear = b.marchYear ∧
      (a.marchMonth < b.marchMonth ∨ a.marchMonth = b.marchMonth ∧ a.day < b.day) := by
    have hmonths := And.intro ha.month_pos hb.month_pos
    have hle := And.intro ha.month_le hb.month_le
    unfold Date.Before at h
    unfold Date.marchYear Date.marchMonth
    split <;> split <;> omega
  have hlast : b.marchMonth ≤ 11 := by
    have hle := hb.month_le
    unfold Date.marchMonth
    split <;> omega
  unfold toDays
  rcases hmarch with hyear | ⟨hyear, hmonth | ⟨hmonth, hday⟩⟩
  · have hbefore : daysBefore (a.marchYear + 1) ≤ daysBefore b.marchYear := daysBefore_mono hyear
    rw [daysBefore_succ] at hbefore
    have hyearEnd := hend.1
    split at hbefore
    next hleap =>
      rw [if_pos hleap] at hyearEnd
      omega
    next hleap =>
      rw [if_neg hleap] at hyearEnd
      omega
  · have hmono : monthStart (a.marchMonth + 1) ≤ monthStart b.marchMonth := by
      unfold monthStart
      omega
    have := hend.2 (by omega)
    rw [hyear]
    omega
  · rw [hyear, hmonth]
    omega

theorem Date.before_or_eq (a b : Date) : a.Before b ∨ a = b ∨ b.Before a := by
  cases a
  cases b
  simp only [Date.Before, Date.mk.injEq]
  omega

/-- Dates are in the order of their days. -/
theorem before_iff (ha : a.Valid) (hb : b.Valid) : a.Before b ↔ toDays a < toDays b := by
  constructor
  · exact toDays_lt ha hb
  · intro h
    rcases Date.before_or_eq a b with hbefore | heq | hafter
    · exact hbefore
    · rw [heq] at h
      omega
    · have hlt := toDays_lt hb ha hafter
      omega

end

end Climon.Lib.CivilCalendar
