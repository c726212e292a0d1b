import Climon.Lib.CivilCalendar
import Climon.Lib.FixedWidth
import Climon.Lib.TextSlices
import Mathlib.Data.String.Basic

namespace Climon.Lib.IsoTimestamp

open Climon.Lib.CivilCalendar Climon.Lib.FixedWidth Climon.Lib.TextSlices

/-! # ISO 8601 timestamps with milliseconds -/

/-- An instant of a year that has four digits. -/
structure Stamp where
  date : Date
  hour : Nat
  minute : Nat
  second : Nat
  millis : Nat
  valid : date.Valid
  year_nonneg : 0 ≤ date.year
  year_lt : date.year < 10000
  hour_lt : hour < 24
  minute_lt : minute < 60
  second_lt : second < 60
  millis_lt : millis < 1000

def Stamp.year (s : Stamp) : Nat := s.date.year.toNat

/-- Milliseconds since the epoch. -/
def Stamp.total (s : Stamp) : Int :=
  (toDays s.date * 86400 + s.hour * 3600 + s.minute * 60 + s.second) * 1000 + s.millis

/-- `YYYY-MM-DDTHH:MM:SS.mmmZ` -/
def Stamp.text (s : Stamp) : List Char :=
  fixed 4 s.year ++ '-' :: (fixed 2 s.date.month ++ '-' :: (fixed 2 s.date.day ++
    'T' :: (fixed 2 s.hour ++ ':' :: (fixed 2 s.minute ++ ':' :: (fixed 2 s.second ++
      '.' :: (fixed 3 s.millis ++ ['Z']))))))

theorem year_bounds {z : Int} (h : 0 ≤ z) (hlt : z < 2932897) :
    0 ≤ (ofDays z).year ∧ (ofDays z).year < 10000 := by
  have hfirst : ¬ (ofDays z).Before (ofDays 0) := by
    rw [before_iff (ofDays_valid z) (ofDays_valid 0), toDays_ofDays, toDays_ofDays]
    omega
  have hend : (ofDays z).Before (ofDays 2932897) := by
    rw [before_iff (ofDays_valid z) (ofDays_valid _), toDays_ofDays, toDays_ofDays]
    exact hlt
  have hepoch : ofDays 0 = ⟨1970, 1, 1⟩ := by decide
  have hlast : ofDays 2932897 = ⟨10000, 1, 1⟩ := by decide
  have hmonth := (ofDays_valid z).month_pos
  have hday := (ofDays_valid z).day_pos
  rw [hepoch] at hfirst
  rw [hlast] at hend
  simp only [Date.Before] at hfirst hend
  omega

/-- The instant of a number of milliseconds. -/
def Stamp.ofTotal (t : Int) (h : 0 ≤ t) (hlt : t < 253402300800000) : Stamp where
  date := ofDays (t / 1000 / 86400)
  hour := (t / 1000 % 86400).toNat / 3600
  minute := (t / 1000 % 86400).toNat % 3600 / 60
  second := (t / 1000 % 86400).toNat % 60
  millis := (t % 1000).toNat
  valid := ofDays_valid _
  year_nonneg := (year_bounds (by omega) (by omega)).1
  year_lt := (year_bounds (by omega) (by omega)).2
  hour_lt := by omega
  minute_lt := by omega
  second_lt := by omega
  millis_lt := by omega

@[simp] theorem Stamp.total_ofTotal (t : Int) (h : 0 ≤ t) (hlt : t < 253402300800000) :
    (Stamp.ofTotal t h hlt).total = t := by
  unfold Stamp.total Stamp.ofTotal
  rw [toDays_ofDays]
  dsimp only
  omega

section

variable {s s' : Stamp}

theorem Stamp.year_bound (s : Stamp) : s.year < 10 ^ 4 ∧ (s.year : Int) = s.date.year := by
  have hnonneg := s.year_nonneg
  have hlt := s.year_lt
  unfold Stamp.year
  omega

theorem Stamp.month_bound (s : Stamp) : s.date.month < 10 ^ 2 :=
  lt_of_le_of_lt s.valid.month_le (by decide)

theorem Stamp.day_le (s : Stamp) : s.date.day ≤ 31 := by
  have hlength : monthLength s.date.year s.date.month ≤ 31 := by
    unfold monthLength
    split
    · split <;> decide
    · split <;> decide
  exact s.valid.day_le.trans hlength

theorem Stamp.day_bound (s : Stamp) : s.date.day < 10 ^ 2 := lt_of_le_of_lt s.day_le (by decide)

theorem field_lt {width n m : Nat} {c : Char} {as bs : List Char} (hwidth : 0 < width)
    (hn : n < 10 ^ width) (hm : m < 10 ^ width) :
    fixed width n ++ c :: as < fixed width m ++ c :: bs ↔ n < m ∨ n = m ∧ as < bs := by
  rw [append_lt_append (by rw [length_fixed hwidth hn, length_fixed hwidth hm]),
    fixed_lt_fixed hwidth hn hm, fixed_inj, List.cons_lt_cons_iff]
  simp

theorem Stamp.date_lt (s s' : Stamp) (r : Prop) :
    (s.year < s'.year ∨ s.year = s'.year ∧ (s.date.month < s'.date.month ∨
      s.date.month = s'.date.month ∧ (s.date.day < s'.date.day ∨ s.date.day = s'.date.day ∧ r))) ↔
      toDays s.date < toDays s'.date ∨ toDays s.date = toDays s'.date ∧ r := by
  have hbefore := before_iff s.valid s'.valid
  have hafter := before_iff s'.valid s.valid
  have hyear := s.year_bound.2
  have hyear' := s'.year_bound.2
  unfold Date.Before at hbefore hafter
  by_cases hr : r
  · simp only [hr, and_true]
    omega
  · simp only [hr, and_false, or_false]
    omega

/-- Texts are in the order of their instants. -/
theorem Stamp.text_lt_iff : s.text < s'.text ↔ s.total < s'.total := by
  have hhour := And.intro s.hour_lt s'.hour_lt
  have hminute := And.intro s.minute_lt s'.minute_lt
  have hsecond := And.intro s.second_lt s'.second_lt
  have hmillis := And.intro s.millis_lt s'.millis_lt
  unfold Stamp.text
  rw [field_lt (by decide) s.year_bound.1 s'.year_bound.1,
    field_lt (by decide) s.month_bound s'.month_bound,
    field_lt (by decide) s.day_bound s'.day_bound, field_lt (by decide) (by omega) (by omega),
    field_lt (by decide) (by omega) (by omega), field_lt (by decide) (by omega) (by omega),
    field_lt (by decide) (by omega) (by omega), Stamp.date_lt]
  have hend : ¬ ([] : List Char) < [] := List.not_lt_nil []
  simp only [hend, and_false, or_false]
  unfold Stamp.total
  omega

/-! ## Layout -/

theorem ascii_digit {c : Char} (h : c.isDigit = true) : c.utf8Size = 1 := by
  simp only [Char.isDigit, Bool.and_eq_true, decide_eq_true_eq] at h
  have hhi : c.toNat ≤ 57 := h.2
  rw [Char.utf8Size_eq_one_iff, UInt32.le_iff_toNat_le]
  exact Nat.le_trans hhi (by decide)

theorem Stamp.ascii (s : Stamp) : Ascii s.text := by
  have hfield {width n : Nat} {c : Char} (hc : c ∈ fixed width n) : c.utf8Size = 1 :=
    ascii_digit (fixed_digits c hc)
  intro c hc
  simp only [Stamp.text, List.mem_append, List.mem_cons, List.not_mem_nil, or_false] at hc
  rcases hc with hc | rfl | hc | rfl | hc | rfl | hc | rfl | hc | rfl | hc | rfl | hc | rfl
  all_goals first | exact hfield hc | rfl

theorem two_digits {n : Nat} (h : n < 10 ^ 2) : ∃ a b, fixed 2 n = [a, b] :=
  List.length_eq_two.mp (length_fixed (by decide) h)

/-- The characters of a text, the fields named. -/
theorem Stamp.layout (s : Stamp) :
    ∃ y₁ y₂ y₃ y₄ m₁ m₂ d₁ d₂ h₁ h₂ i₁ i₂ e₁ e₂ f₁ f₂ f₃ : Char,
      fixed 4 s.year = [y₁, y₂, y₃, y₄] ∧ fixed 2 s.date.month = [m₁, m₂] ∧
      fixed 2 s.date.day = [d₁, d₂] ∧ fixed 2 s.hour = [h₁, h₂] ∧
      fixed 2 s.minute = [i₁, i₂] ∧ fixed 2 s.second = [e₁, e₂] ∧
      fixed 3 s.millis = [f₁, f₂, f₃] ∧
      s.text = [y₁, y₂, y₃, y₄, '-', m₁, m₂, '-', d₁, d₂, 'T', h₁, h₂, ':', i₁, i₂, ':', e₁, e₂,
        '.', f₁, f₂, f₃, 'Z'] := by
  have hhour := s.hour_lt
  have hminute := s.minute_lt
  have hsecond := s.second_lt
  obtain ⟨y₁, y₂, y₃, y₄, hy⟩ := List.length_eq_four.mp (length_fixed (by decide) s.year_bound.1)
  obtain ⟨m₁, m₂, hm⟩ := two_digits s.month_bound
  obtain ⟨d₁, d₂, hd⟩ := two_digits s.day_bound
  obtain ⟨h₁, h₂, hh⟩ := two_digits (show s.hour < 10 ^ 2 by omega)
  obtain ⟨i₁, i₂, hi⟩ := two_digits (show s.minute < 10 ^ 2 by omega)
  obtain ⟨e₁, e₂, he⟩ := two_digits (show s.second < 10 ^ 2 by omega)
  obtain ⟨f₁, f₂, f₃, hf⟩ := List.length_eq_three.mp (length_fixed (by decide) s.millis_lt)
  refine ⟨y₁, y₂, y₃, y₄, m₁, m₂, d₁, d₂, h₁, h₂, i₁, i₂, e₁, e₂, f₁, f₂, f₃,
    hy, hm, hd, hh, hi, he, hf, ?_⟩
  rw [Stamp.text, hy, hm, hd, hh, hi, he, hf]
  rfl

theorem Stamp.length_text (s : Stamp) : s.text.length = 24 := by
  obtain ⟨_, _, _, _, _, _, _, _, _, _, _, _, _, _, _, _, _, -, -, -, -, -, -, -, h⟩ := s.layout
  rw [h]
  rfl

/-- Where the fields of a text begin and end. -/
theorem Stamp.slices (s : Stamp) :
    get s.text 0 4 = some (fixed 4 s.year) ∧ get s.text 5 7 = some (fixed 2 s.date.month) ∧
      get s.text 8 10 = some (fixed 2 s.date.day) ∧ get s.text 11 13 = some (fixed 2 s.hour) ∧
      get s.text 14 16 = some (fixed 2 s.minute) ∧ get s.text 17 19 = some (fixed 2 s.second) := by
  have hlen := s.length_text
  have hget {start stop : Nat} (h : start ≤ stop) (hstop : stop ≤ 24) :
      get s.text start stop = some ((s.text.drop start).take (stop - start)) :=
    s.ascii.get h (by omega)
  rw [hget (by decide) (by decide), hget (by decide) (by decide), hget (by decide) (by decide),
    hget (by decide) (by decide), hget (by decide) (by decide), hget (by decide) (by decide)]
  obtain ⟨_, _, _, _, _, _, _, _, _, _, _, _, _, _, _, _, _, hy, hm, hd, hh, hi, he, -, h⟩ :=
    s.layout
  rw [h, hy, hm, hd, hh, hi, he]
  exact ⟨rfl, rfl, rfl, rfl, rfl, rfl⟩

theorem Stamp.separators (s : Stamp) :
    charAt s.text 4 = some '-' ∧ charAt s.text 7 = some '-' ∧ charAt s.text 10 = some 'T' ∧
      charAt s.text 13 = some ':' ∧ charAt s.text 16 = some ':' ∧ charAt s.text 19 = some '.' := by
  have hlen := s.length_text
  have hchar {offset : Nat} (h : offset ≤ 24) : charAt s.text offset = s.text[offset]? :=
    s.ascii.charAt (by omega)
  rw [hchar (by decide), hchar (by decide), hchar (by decide), hchar (by decide),
    hchar (by decide), hchar (by decide)]
  obtain ⟨_, _, _, _, _, _, _, _, _, _, _, _, _, _, _, _, _, -, -, -, -, -, -, -, h⟩ := s.layout
  rw [h]
  exact ⟨rfl, rfl, rfl, rfl, rfl, rfl⟩

/-- What follows the seconds. -/
theorem Stamp.fraction (s : Stamp) :
    ∃ before, cutAt s.text 19 = some (before, '.' :: (fixed 3 s.millis ++ ['Z'])) := by
  have hlen := s.length_text
  refine ⟨s.text.take 19, ?_⟩
  rw [s.ascii.cutAt (by omega)]
  obtain ⟨_, _, _, _, _, _, _, _, _, _, _, _, _, _, _, _, _, -, -, -, -, -, -, hf, h⟩ := s.layout
  rw [h, hf]
  rfl

end

end Climon.Lib.IsoTimestamp
