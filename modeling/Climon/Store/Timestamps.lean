import Climon.Lib.IsoTimestamp
import Climon.Store.Clock
import Climon.Update.Manifest

namespace Climon.Store.Timestamps

open Climon.Cli.Args Climon.Lib.CivilCalendar Climon.Lib.FixedWidth Climon.Lib.IsoTimestamp
  Climon.Lib.TextSlices Climon.Store.Clock Climon.Update.Manifest

/-! # The timestamp code

Machine arithmetic wraps, as in a release build. -/

/-! ## The update clock -/

def Update.civilFromDays (z : Int) : Int × Int × Int :=
  let z := z + 719468
  let era := (if 0 ≤ z then z else z - 146096).tdiv 146097
  let doe := z - era * 146097
  let yoe := (doe - doe.tdiv 1460 + doe.tdiv 36524 - doe.tdiv 146096).tdiv 365
  let y := yoe + era * 400
  let doy := doe - (365 * yoe + yoe.tdiv 4 - yoe.tdiv 100)
  let mp := (5 * doy + 2).tdiv 153
  let d := doy - (153 * mp + 2).tdiv 5 + 1
  let m := if mp < 10 then mp + 3 else mp - 9
  (if m ≤ 2 then y + 1 else y, m, d)

def padInt (width : Nat) (n : Int) : String :=
  if n < 0 then "-" ++ pad (width - 1) n.natAbs else pad width n.natAbs

def Update.toIso8601 (ms : Int64) : String :=
  let secs := ms.toInt / 1000
  let millis := ms.toInt % 1000
  let days := secs / 86400
  let secs := secs % 86400
  let (year, month, day) := Update.civilFromDays days
  let hour := secs.tdiv 3600
  let minute := (secs.tmod 3600).tdiv 60
  let second := secs.tmod 60
  padInt 4 year ++ "-" ++ padInt 2 month ++ "-" ++ padInt 2 day ++ "T" ++ padInt 2 hour ++ ":" ++
    padInt 2 minute ++ ":" ++ padInt 2 second ++ "." ++ padInt 3 millis ++ "Z"

def Update.daysFromCivil (y m d : Int64) : Int64 :=
  let y := if m ≤ 2 then y - 1 else y
  let era := (if 0 ≤ y then y else y - 399) / 400
  let yoe := y - era * 400
  let doy := (153 * (if 2 < m then m - 3 else m + 9) + 2) / 5 + d - 1
  let doe := yoe * 365 + yoe / 4 - yoe / 100 + doy
  era * 146097 + doe - 719468

/-- The milliseconds of an optional fraction, and the text after it. -/
def Update.fraction : List Char → Option (Int64 × List Char)
  | '.' :: rest =>
    let frac := rest.takeWhile Char.isDigit
    let after := rest.dropWhile Char.isDigit
    if frac = [] then some (0, after)
    else (parseI64 ((frac ++ List.replicate 3 '0').take 3)).map fun millis => (millis, after)
  | rest => some (0, rest)

/-- The minutes of an optional zone. -/
def Update.offsetMin (rest : List Char) : Option Int64 :=
  match rest.head? with
  | none => some 0
  | some zone =>
    if zone = 'Z' ∨ zone = 'z' then some 0
    else if zone = '+' ∨ zone = '-' then do
      let sign : Int64 := if zone = '-' then -1 else 1
      let oh ← (get rest 1 3).bind parseI64
      let om ←
        if charAt rest 3 = some ':' then (get rest 4 6).bind parseI64
        else (get rest 3 5).bind parseI64
      some (sign * (oh * 60 + om))
    else none

def Update.parseIso8601Ms (s : String) : Option Int64 := do
  let text := (trim s).toList
  guard (19 ≤ byteLength text ∧ charAt text 4 = some '-' ∧ charAt text 7 = some '-')
  guard (charAt text 10 = some 'T' ∨ charAt text 10 = some 't' ∨ charAt text 10 = some ' ')
  guard (charAt text 13 = some ':' ∧ charAt text 16 = some ':')
  let year ← (get text 0 4).bind parseI64
  let month ← (get text 5 7).bind parseI64
  let day ← (get text 8 10).bind parseI64
  let hour ← (get text 11 13).bind parseI64
  let minute ← (get text 14 16).bind parseI64
  let second ← (get text 17 19).bind parseI64
  guard (1 ≤ month ∧ month ≤ 12 ∧ 1 ≤ day ∧ day ≤ 31)
  let cut ← cutAt text 19
  let (millis, rest) ← Update.fraction cut.2
  let offsetMin ← Update.offsetMin rest
  let days := Update.daysFromCivil year month day
  let totalSecs := days * 86400 + hour * 3600 + minute * 60 + second
  some ((totalSecs - offsetMin * 60) * 1000 + millis)

/-! ## The lock -/

/-- When the owner of a lock made it. -/
def Lock.createdAt (now : Int64) : String := iso8601MillisUtc now

def Lock.daysFromCivil (y m d : Int64) : Int64 :=
  let y := if m ≤ 2 then y - 1 else y
  let era := (if 0 ≤ y then y else y - 399) / 400
  let yoe := y - era * 400
  let mp := if 2 < m then m - 3 else m + 9
  let doy := (153 * mp + 2) / 5 + d - 1
  let doe := yoe * 365 + yoe / 4 - yoe / 100 + doy
  era * 146097 + doe - 719468

/-- `str::split_once` -/
def splitOnce (c : Char) (text : List Char) : Option (List Char × List Char) :=
  if c ∈ text then some (text.takeWhile (· ≠ c), (text.dropWhile (· ≠ c)).tail) else none

def Lock.fraction : Option (List Char) → Option Int64
  | some f =>
    let digits := f.takeWhile Char.isDigit
    if digits = [] then none
    else parseI64 ((digits ++ List.replicate (3 - digits.length) '0').take 3)
  | none => some 0

def Lock.parseIso8601ToMillis (s : String) : Option Int64 := do
  let (date, time) ← splitOnce 'T' s.toList
  let [year, month, day] := date.splitOn '-' | none
  let year ← parseI64 year
  let month ← parseI64 month
  let day ← parseI64 day
  let time := if time.getLast? = some 'Z' then time.dropLast else time
  let (hms, frac) :=
    match splitOnce '.' time with
    | some (a, b) => (a, some b)
    | none => (time, none)
  let [hour, minute, second] := hms.splitOn ':' | none
  let hour ← parseI64 hour
  let minute ← parseI64 minute
  let second ← parseI64 second
  let millis ← Lock.fraction frac
  let days := Lock.daysFromCivil year month day
  some ((days * 86400 + hour * 3600 + minute * 60 + second) * 1000 + millis)

/-! ## Session priority -/

def Priority.daysFromCivil (y : Int64) (m d : UInt32) : Int64 :=
  let y := if m ≤ 2 then y - 1 else y
  let era := (if 0 ≤ y then y else y - 399) / 400
  let yoe := y - era * 400
  let m := m.toUInt64.toInt64
  let d := d.toUInt64.toInt64
  let mp := if 2 < m then m - 3 else m + 9
  let doy := (153 * mp + 2) / 5 + d - 1
  let doe := yoe * 365 + yoe / 4 - yoe / 100 + doy
  era * 146097 + doe - 719468

def Priority.fraction : List Char → Option Int64
  | '.' :: rest =>
    let frac := rest.takeWhile Char.isDigit
    if frac = [] then some 0
    else
      let kept := frac.take (min frac.length 3)
      parseI64 (kept ++ List.replicate (3 - kept.length) '0')
  | _ => some 0

def Priority.parseIsoMillis (value : String) : Option Int64 := do
  let text := value.toList
  guard (19 ≤ byteLength text ∧ charAt text 4 = some '-' ∧ charAt text 7 = some '-' ∧
    charAt text 10 = some 'T')
  let num (start len : Nat) : Option Int64 := (get text start (start + len)).bind parseI64
  let year ← num 0 4
  let month ← num 5 2
  let day ← num 8 2
  let hour ← num 11 2
  let minute ← num 14 2
  let second ← num 17 2
  let cut ← cutAt text 19
  let millis ← Priority.fraction cut.2
  let days := Priority.daysFromCivil year month.toUInt64.toUInt32 day.toUInt64.toUInt32
  let secs := days * 86400 + hour * 3600 + minute * 60 + second
  some (secs * 1000 + millis)

def Priority.timestampMs (value : String) : Int64 := (Priority.parseIsoMillis value).getD 0

example : Update.parseIso8601Ms "2021-01-01T01:00:00+01:00" = some 1609459200000 := by decide
example : Lock.parseIso8601ToMillis "1970-01-01T00:00:01Z" = some 1000 := by decide

/-! ## Dates in machine arithmetic -/

/-- A number that machine arithmetic does not wrap. -/
def Small (a : Int) : Prop := -2 ^ 62 ≤ a ∧ a < 2 ^ 62

section

variable {a b : Int}

theorem ofInt_div (ha : Small a) (hb : Small b) :
    Int64.ofInt a / Int64.ofInt b = Int64.ofInt (a.tdiv b) := by
  have hmin : Int64.minValue.toInt = -2 ^ 63 := by decide
  have hmax : Int64.maxValue.toInt = 2 ^ 63 - 1 := by decide
  unfold Small at *
  exact (Int64.ofInt_tdiv (by omega) (by omega) (by omega) (by omega)).symm

theorem ofInt_le (ha : Small a) (hb : Small b) : Int64.ofInt a ≤ Int64.ofInt b ↔ a ≤ b := by
  have hmin : Int64.minValue.toInt = -2 ^ 63 := by decide
  have hmax : Int64.maxValue.toInt = 2 ^ 63 - 1 := by decide
  unfold Small at *
  exact Int64.ofInt_le_iff_le (by omega) (by omega) (by omega) (by omega)

theorem ofInt_lt (ha : Small a) (hb : Small b) : Int64.ofInt a < Int64.ofInt b ↔ a < b := by
  have hmin : Int64.minValue.toInt = -2 ^ 63 := by decide
  have hmax : Int64.maxValue.toInt = 2 ^ 63 - 1 := by decide
  unfold Small at *
  exact Int64.ofInt_lt_iff_lt (by omega) (by omega) (by omega) (by omega)

theorem ofInt_ediv (h : 0 ≤ a) (ha : Small a) (hb : Small b) :
    Int64.ofInt a / Int64.ofInt b = Int64.ofInt (a / b) := by
  rw [ofInt_div ha hb, Int.tdiv_eq_ediv_of_nonneg h]

end

section

variable {y m d : Int}

theorem marchYear_ofInt (hm : Small m) :
    (if Int64.ofInt m ≤ 2 then Int64.ofInt y - 1 else Int64.ofInt y) =
      Int64.ofInt (if m ≤ 2 then y - 1 else y) := by
  have hle : Int64.ofInt m ≤ 2 ↔ m ≤ 2 := ofInt_le (b := 2) hm (by unfold Small; omega)
  simp only [hle]
  split
  · exact (Int64.ofInt_sub y 1).symm
  · rfl

theorem era_ofInt (hlo : -1 ≤ y) (hy : Small y) :
    (if 0 ≤ Int64.ofInt y then Int64.ofInt y else Int64.ofInt y - 399) / 400 =
      Int64.ofInt (y / 400) := by
  have hle : 0 ≤ Int64.ofInt y ↔ 0 ≤ y := ofInt_le (a := 0) (by unfold Small; omega) hy
  simp only [hle]
  split
  next h => exact ofInt_ediv (b := 400) h hy (by unfold Small; omega)
  next h =>
    have hlast : y = -1 := by omega
    subst hlast
    decide

theorem marchMonth_ofInt (hm : Small m) :
    (if 2 < Int64.ofInt m then Int64.ofInt m - 3 else Int64.ofInt m + 9) =
      Int64.ofInt (if 2 < m then m - 3 else m + 9) := by
  have hlt : 2 < Int64.ofInt m ↔ 2 < m := ofInt_lt (a := 2) (by unfold Small; omega) hm
  simp only [hlt]
  split
  · exact (Int64.ofInt_sub m 3).symm
  · exact (Int64.ofInt_add m 9).symm

theorem daysFromCivil_ofInt (hy : 0 ≤ y ∧ y < 10000) (hm : 1 ≤ m ∧ m ≤ 12)
    (hd : 1 ≤ d ∧ d ≤ 31) :
    Lock.daysFromCivil (Int64.ofInt y) (Int64.ofInt m) (Int64.ofInt d) =
      Int64.ofInt (toDays ⟨y, m.toNat, d.toNat⟩) := by
  have hmsmall : Small m := by unfold Small; omega
  unfold Lock.daysFromCivil
  rw [marchYear_ofInt hmsmall, marchMonth_ofInt hmsmall]
  have hdays : toDays ⟨y, m.toNat, d.toNat⟩ =
      daysBefore (if m ≤ 2 then y - 1 else y) + (153 * (if 2 < m then m - 3 else m + 9) + 2) / 5 +
        d - 1 - 719468 := by
    unfold toDays Date.marchYear Date.marchMonth monthStart
    dsimp only
    split <;> split <;> split <;> omega
  rw [hdays]
  have hyear : -1 ≤ (if m ≤ 2 then y - 1 else y) ∧ (if m ≤ 2 then y - 1 else y) < 10000 := by
    split <;> omega
  have hmonth : 0 ≤ (if 2 < m then m - 3 else m + 9) ∧ (if 2 < m then m - 3 else m + 9) ≤ 11 := by
    split <;> omega
  generalize (if m ≤ 2 then y - 1 else y) = year at *
  generalize (if 2 < m then m - 3 else m + 9) = mp at *
  dsimp only
  rw [era_ofInt hyear.1 (by unfold Small; omega)]
  have hyoe : Int64.ofInt year - Int64.ofInt (year / 400) * 400 = Int64.ofInt (year % 400) := by
    have h : year % 400 = year - year / 400 * 400 := by omega
    rw [h, Int64.ofInt_sub, Int64.ofInt_mul]
    rfl
  have h4 : Int64.ofInt (year % 400) / 4 = Int64.ofInt (year % 400 / 4) :=
    ofInt_ediv (b := 4) (by omega) (by unfold Small; omega) (by unfold Small; omega)
  have h100 : Int64.ofInt (year % 400) / 100 = Int64.ofInt (year % 400 / 100) :=
    ofInt_ediv (b := 100) (by omega) (by unfold Small; omega) (by unfold Small; omega)
  have hmp : (153 * Int64.ofInt mp + 2) / 5 = Int64.ofInt ((153 * mp + 2) / 5) := by
    have h := ofInt_ediv (a := 153 * mp + 2) (b := 5) (by omega) (by unfold Small; omega)
      (by unfold Small; omega)
    rw [← h, Int64.ofInt_add, Int64.ofInt_mul]
    rfl
  rw [hyoe, h4, h100, hmp]
  have hsum : daysBefore year + (153 * mp + 2) / 5 + d - 1 - 719468 =
      year / 400 * 146097 + (year % 400 * 365 + year % 400 / 4 - year % 400 / 100 +
        ((153 * mp + 2) / 5 + d - 1)) - 719468 := by
    unfold daysBefore
    omega
  rw [hsum]
  simp only [Int64.ofInt_add, Int64.ofInt_sub, Int64.ofInt_mul]
  rfl

end

/-- The days of the date of a timestamp, in all three modules. -/
theorem Lock.daysFromCivil_stamp (s : Stamp) :
    Lock.daysFromCivil (Int64.ofInt s.year) (Int64.ofInt s.date.month) (Int64.ofInt s.date.day) =
      Int64.ofInt (toDays s.date) := by
  have hday := s.day_le
  have hyear := s.year_bound
  have h := daysFromCivil_ofInt (y := s.year) (m := s.date.month) (d := s.date.day) (by omega)
    ⟨by exact_mod_cast s.valid.month_pos, by exact_mod_cast s.valid.month_le⟩
    ⟨by exact_mod_cast s.valid.day_pos, by exact_mod_cast hday⟩
  rw [h, hyear.2]
  rfl

/-! ## Formatting -/

theorem era_tdiv {z : Int} : (if 0 ≤ z then z else z - 146096).tdiv 146097 = z / 146097 := by
  split
  next h => exact Int.tdiv_eq_ediv_of_nonneg h
  next h =>
    have hneg : z - 146096 = -(146096 - z) := by omega
    rw [hneg, Int.neg_tdiv, Int.tdiv_eq_ediv_of_nonneg (by omega)]
    omega

theorem civilFromDays_eq (z : Int) :
    civilFromDays z = ((ofDays z).year, (ofDays z).month, (ofDays z).day) := by
  have hdoe : (z + 719468) - (z + 719468) / 146097 * 146097 = (z + 719468) % 146097 := by omega
  unfold civilFromDays
  simp only [era_tdiv, hdoe]
  rfl

theorem Update.civilFromDays_eq (z : Int) :
    Update.civilFromDays z = ((ofDays z).year, ((ofDays z).month : Int), ((ofDays z).day : Int)) := by
  have hdiv (a b : Nat) : (a : Int).tdiv b = (a / b : Nat) := (Int.ofNat_tdiv a b).symm
  have hdoe : (z + 719468) - (z + 719468) / 146097 * 146097 = ((z + 719468) % 146097).toNat := by
    omega
  unfold Update.civilFromDays ofDays
  simp only [era_tdiv, hdoe]
  have hlt : ((z + 719468) % 146097).toNat < 146097 := by omega
  generalize ((z + 719468) % 146097).toNat = doe at *
  obtain ⟨hyoe, hstart, hend⟩ := yearOfEra_spec hlt
  have hyear : ((doe : Int) - (doe : Int).tdiv 1460 + (doe : Int).tdiv 36524 -
      (doe : Int).tdiv 146096).tdiv 365 = yearOfEra doe := by
    have hn : (doe : Int) - (doe : Int).tdiv 1460 + (doe : Int).tdiv 36524 -
        (doe : Int).tdiv 146096 = (doe - doe / 1460 + doe / 36524 - doe / 146096 : Nat) := by
      have h1 := hdiv doe 1460
      have h2 := hdiv doe 36524
      have h3 := hdiv doe 146096
      push_cast at h1 h2 h3
      rw [h1, h2, h3]
      omega
    rw [hn]
    exact hdiv _ 365
  rw [hyear]
  have hdoy : (doe : Int) - (365 * (yearOfEra doe : Int) + (yearOfEra doe : Int).tdiv 4 -
      (yearOfEra doe : Int).tdiv 100) = (doe - yearStart (yearOfEra doe) : Nat) := by
    have h4 := hdiv (yearOfEra doe) 4
    have h100 := hdiv (yearOfEra doe) 100
    push_cast at h4 h100
    rw [h4, h100]
    unfold yearStart at *
    omega
  rw [hdoy]
  generalize doe - yearStart (yearOfEra doe) = doy at *
  have hmp : (5 * (doy : Int) + 2).tdiv 153 = monthOfYear doy := hdiv (5 * doy + 2) 153
  rw [hmp]
  have hstartle : monthStart (monthOfYear doy) ≤ doy := by
    unfold monthStart monthOfYear
    omega
  have hday : (doy : Int) - (153 * (monthOfYear doy : Int) + 2).tdiv 5 + 1 =
      (doy - monthStart (monthOfYear doy) + 1 : Nat) := by
    have hms : (153 * (monthOfYear doy : Int) + 2).tdiv 5 = monthStart (monthOfYear doy) :=
      hdiv (153 * monthOfYear doy + 2) 5
    rw [hms]
    omega
  have hmonth : (if (monthOfYear doy : Int) < 10 then (monthOfYear doy : Int) + 3
      else (monthOfYear doy : Int) - 9) = civilMonth (monthOfYear doy) := by
    unfold civilMonth
    split <;> split <;> omega
  have hle : ((civilMonth (monthOfYear doy) : Int) ≤ 2) ↔ civilMonth (monthOfYear doy) ≤ 2 := by
    omega
  rw [hday, hmonth]
  simp only [hle]

theorem padInt_natCast (width n : Nat) : padInt width n = pad width n := by
  unfold padInt
  rw [if_neg (by omega)]
  rfl

/-- The store and the update clock write the same text at any time. -/
theorem toIso8601_eq (ms : Int64) : Update.toIso8601 ms = iso8601MillisUtc ms := by
  have hrem : 0 ≤ ms.toInt / 1000 % 86400 ∧ ms.toInt / 1000 % 86400 < 86400 := by omega
  have hhour : (ms.toInt / 1000 % 86400).tdiv 3600 =
      ((ms.toInt / 1000 % 86400).toNat / 3600 : Nat) := by
    rw [Int.tdiv_eq_ediv_of_nonneg hrem.1]
    omega
  have hmod : (ms.toInt / 1000 % 86400).tmod 3600 =
      ((ms.toInt / 1000 % 86400).toNat % 3600 : Nat) := by
    rw [Int.tmod_eq_emod_of_nonneg hrem.1]
    omega
  have hminute : (((ms.toInt / 1000 % 86400).toNat % 3600 : Nat) : Int).tdiv 60 =
      ((ms.toInt / 1000 % 86400).toNat % 3600 / 60 : Nat) := by
    rw [Int.tdiv_eq_ediv_of_nonneg (by omega)]
    omega
  have hsecond : (ms.toInt / 1000 % 86400).tmod 60 =
      ((ms.toInt / 1000 % 86400).toNat % 60 : Nat) := by
    rw [Int.tmod_eq_emod_of_nonneg hrem.1]
    omega
  have hmillis : ms.toInt % 1000 = ((ms.toInt % 1000).toNat : Int) := by omega
  unfold Update.toIso8601 iso8601MillisUtc
  simp only [Update.civilFromDays_eq, civilFromDays_eq]
  rw [hhour, hmod, hminute, hsecond, hmillis]
  simp only [padInt_natCast]
  rfl

/-- The text of an instant in the years of four digits. -/
theorem iso8601MillisUtc_eq {t : Int64} (h : 0 ≤ t.toInt) (hlt : t.toInt < 253402300800000) :
    iso8601MillisUtc t = String.ofList (Stamp.ofTotal t.toInt h hlt).text := by
  have hyear := (year_bounds (z := t.toInt / 1000 / 86400) (by omega) (by omega)).1
  have hpad (width n : Nat) : (pad width n).toList = fixed width n := String.toList_ofList
  have hpadYear : padYear (ofDays (t.toInt / 1000 / 86400)).year =
      pad 4 (ofDays (t.toInt / 1000 / 86400)).year.toNat := by
    unfold padYear
    rw [if_neg (by omega)]
    congr 1
    omega
  apply String.toList_inj.mp
  unfold iso8601MillisUtc
  simp only [civilFromDays_eq, hpadYear, String.toList_append, hpad, String.toList_ofList,
    List.append_assoc]
  rfl

/-! ## Parsing -/

section

variable {width n : Nat}

theorem fixed_cons (hwidth : 0 < width) (h : n < 10 ^ width) :
    ∃ c rest, fixed width n = c :: rest ∧ c.isDigit = true := by
  have hlen := length_fixed hwidth h
  have hdigits := @fixed_digits width n
  cases hfixed : fixed width n with
  | nil =>
    rw [hfixed] at hlen
    exact absurd hlen (Nat.ne_of_lt hwidth)
  | cons c rest =>
    rw [hfixed] at hdigits
    exact ⟨c, rest, rfl, hdigits c List.mem_cons_self⟩

theorem parseI64_fixed (hwidth : 0 < width) (h : n < 10 ^ width) (hsmall : n < 2 ^ 63) :
    parseI64 (fixed width n) = some (Int64.ofInt n) := by
  have hdigits : (fixed width n).all Char.isDigit = true :=
    List.all_eq_true.mpr fixed_digits
  have hvalue := @ofDigitChars_fixed width n
  obtain ⟨c, rest, hfixed, hc⟩ := fixed_cons hwidth h
  rw [hfixed] at hdigits hvalue ⊢
  have hminus : c ≠ '-' := fun heq => by rw [heq] at hc; exact absurd hc (by decide)
  have hplus : c ≠ '+' := fun heq => by rw [heq] at hc; exact absurd hc (by decide)
  unfold parseI64
  dsimp only
  split
  next heq => exact absurd (List.cons.inj heq).1 hminus
  next heq => exact absurd (List.cons.inj heq).1 hplus
  next =>
    rw [if_pos ⟨List.cons_ne_nil c rest, hdigits⟩, hvalue, Option.bind_some, if_pos hsmall]

theorem takeWhile_fixed : (fixed width n ++ ['Z']).takeWhile Char.isDigit = fixed width n := by
  rw [List.takeWhile_append_of_pos fixed_digits]
  exact List.append_nil _

theorem dropWhile_fixed : (fixed width n ++ ['Z']).dropWhile Char.isDigit = ['Z'] := by
  rw [List.dropWhile_append_of_pos fixed_digits]
  rfl

end

section

variable (s : Stamp)

/-- The fields of a text as numbers. -/
theorem parse_fields :
    parseI64 (fixed 4 s.year) = some (Int64.ofInt s.year) ∧
      parseI64 (fixed 2 s.date.month) = some (Int64.ofInt s.date.month) ∧
      parseI64 (fixed 2 s.date.day) = some (Int64.ofInt s.date.day) ∧
      parseI64 (fixed 2 s.hour) = some (Int64.ofInt s.hour) ∧
      parseI64 (fixed 2 s.minute) = some (Int64.ofInt s.minute) ∧
      parseI64 (fixed 2 s.second) = some (Int64.ofInt s.second) ∧
      parseI64 (fixed 3 s.millis) = some (Int64.ofInt s.millis) := by
  have hyear := s.year_bound.1
  have hmonth := s.month_bound
  have hday := s.day_bound
  have hhour := s.hour_lt
  have hminute := s.minute_lt
  have hsecond := s.second_lt
  have hmillis := s.millis_lt
  exact ⟨parseI64_fixed (by decide) hyear (by omega), parseI64_fixed (by decide) hmonth (by omega),
    parseI64_fixed (by decide) hday (by omega), parseI64_fixed (by decide) (by omega) (by omega),
    parseI64_fixed (by decide) (by omega) (by omega),
    parseI64_fixed (by decide) (by omega) (by omega),
    parseI64_fixed (by decide) hmillis (by omega)⟩

theorem sum_stamp :
    (Int64.ofInt (toDays s.date) * 86400 + Int64.ofInt s.hour * 3600 + Int64.ofInt s.minute * 60 +
      Int64.ofInt s.second) * 1000 + Int64.ofInt s.millis = Int64.ofInt s.total := by
  unfold Stamp.total
  simp only [Int64.ofInt_add, Int64.ofInt_mul]
  rfl

theorem length_millis : (fixed 3 s.millis).length = 3 := length_fixed (by decide) s.millis_lt

theorem millis_ne_nil : fixed 3 s.millis ≠ [] := by
  intro h
  have hlen := length_millis s
  rw [h] at hlen
  cases hlen

theorem byteLength_text : 19 ≤ byteLength s.text := by
  rw [s.ascii.byteLength, s.length_text]
  decide

/-- Small numbers survive the narrowing to 32 bits. -/
theorem narrow {n : Nat} (h : n < 32) :
    (Int64.ofInt n).toUInt64.toUInt32.toUInt64.toInt64 = Int64.ofInt n ∧
      ((Int64.ofInt n).toUInt64.toUInt32 ≤ 2 ↔ Int64.ofInt n ≤ 2) := by
  revert n
  decide

theorem Priority.daysFromCivil_stamp :
    Priority.daysFromCivil (Int64.ofInt s.year) (Int64.ofInt s.date.month).toUInt64.toUInt32
      (Int64.ofInt s.date.day).toUInt64.toUInt32 = Int64.ofInt (toDays s.date) := by
  have hmonth := narrow (lt_of_le_of_lt s.valid.month_le (by decide))
  have hday := narrow (lt_of_le_of_lt s.day_le (by decide))
  rw [← Lock.daysFromCivil_stamp]
  unfold Priority.daysFromCivil
  simp only [hmonth.1, hmonth.2, hday.1]
  rfl

/-- Session priority reads a text back. -/
theorem Priority.parseIsoMillis_text :
    Priority.parseIsoMillis (String.ofList s.text) = some (Int64.ofInt s.total) := by
  obtain ⟨hy, hm, hd, hh, hi, he⟩ := s.slices
  obtain ⟨hsep4, hsep7, hsep10, -, -, -⟩ := s.separators
  obtain ⟨before, hcut⟩ := s.fraction
  obtain ⟨hyear, hmonth, hday, hhour, hminute, hsecond, hmillis⟩ := parse_fields s
  have hfraction : Priority.fraction ('.' :: (fixed 3 s.millis ++ ['Z'])) =
      some (Int64.ofInt s.millis) := by
    have htake : (fixed 3 s.millis).take 3 = fixed 3 s.millis :=
      List.take_of_length_le (by rw [length_millis])
    simp only [Priority.fraction, takeWhile_fixed]
    rw [if_neg (millis_ne_nil s), length_millis, Nat.min_self, htake, length_millis,
      Nat.sub_self, List.replicate_zero, List.append_nil]
    exact hmillis
  unfold Priority.parseIsoMillis
  simp only [String.toList_ofList, byteLength_text, hsep4, hsep7, hsep10, hy, hm, hd, hh, hi, he,
    hcut, hfraction, Priority.daysFromCivil_stamp, hyear, hmonth, hday, hhour, hminute, hsecond,
    and_self, guard, if_true, Option.pure_def, Option.bind_eq_bind, Option.bind_some,
    Nat.zero_add, Nat.reduceAdd]
  rw [sum_stamp]

theorem trim_text : trim (String.ofList s.text) = String.ofList s.text := by
  obtain ⟨y₁, y₂, y₃, y₄, m₁, m₂, d₁, d₂, h₁, h₂, i₁, i₂, e₁, e₂, f₁, f₂, f₃, hy, -, -, -, -, -,
    -, htext⟩ := s.layout
  have hfirst : isWhitespace y₁ = false :=
    digit_not_whitespace (fixed_digits y₁ (by rw [hy]; exact List.mem_cons_self))
  have hfront : s.text.dropWhile isWhitespace = s.text := by
    rw [htext, List.dropWhile_cons_of_neg (by rw [hfirst]; decide)]
  have hback : s.text.reverse.dropWhile isWhitespace = s.text.reverse := by
    rw [htext]
    rfl
  rw [trim, String.toList_ofList, hfront, hback, List.reverse_reverse]

/-- The update clock reads a text back. -/
theorem Update.parseIso8601Ms_text :
    Update.parseIso8601Ms (String.ofList s.text) = some (Int64.ofInt s.total) := by
  obtain ⟨hy, hm, hd, hh, hi, he⟩ := s.slices
  obtain ⟨hsep4, hsep7, hsep10, hsep13, hsep16, -⟩ := s.separators
  obtain ⟨before, hcut⟩ := s.fraction
  obtain ⟨hyear, hmonth, hday, hhour, hminute, hsecond, hmillis⟩ := parse_fields s
  have htrim := trim_text s
  have hfraction : Update.fraction ('.' :: (fixed 3 s.millis ++ ['Z'])) =
      some (Int64.ofInt s.millis, ['Z']) := by
    have htake : (fixed 3 s.millis ++ List.replicate 3 '0').take 3 = fixed 3 s.millis :=
      List.take_left' (length_millis s)
    simp only [Update.fraction, takeWhile_fixed, dropWhile_fixed]
    rw [if_neg (millis_ne_nil s), htake, hmillis]
    rfl
  have hzone : Update.offsetMin ['Z'] = some 0 := rfl
  have hdays : Update.daysFromCivil (Int64.ofInt s.year) (Int64.ofInt s.date.month)
      (Int64.ofInt s.date.day) = Int64.ofInt (toDays s.date) := Lock.daysFromCivil_stamp s
  have hrange : 1 ≤ Int64.ofInt s.date.month ∧ Int64.ofInt s.date.month ≤ 12 ∧
      1 ≤ Int64.ofInt s.date.day ∧ Int64.ofInt s.date.day ≤ 31 := by
    have hmonth := s.valid.month_le
    have hday := s.day_le
    refine ⟨(ofInt_le (a := 1) ?_ ?_).mpr ?_, (ofInt_le (b := 12) ?_ ?_).mpr ?_,
      (ofInt_le (a := 1) ?_ ?_).mpr ?_, (ofInt_le (b := 31) ?_ ?_).mpr ?_⟩
    all_goals first | (unfold Small; omega) | skip
    · exact_mod_cast s.valid.month_pos
    · exact_mod_cast s.valid.month_le
    · exact_mod_cast s.valid.day_pos
    · exact_mod_cast s.day_le
  unfold Update.parseIso8601Ms
  simp only [htrim, String.toList_ofList, byteLength_text, hsep4, hsep7, hsep10, hsep13, hsep16,
    hy, hm, hd, hh, hi, he, hcut, hfraction, hzone, hdays, hrange, hyear, hmonth, hday, hhour,
    hminute, hsecond, and_self, true_or, guard, if_true, Option.pure_def, Option.bind_eq_bind,
    Option.bind_some]
  rw [← sum_stamp, Int64.zero_mul, Int64.sub_zero]

theorem splitOnce_append {c : Char} {as : List Char} (h : c ∉ as) (bs : List Char) :
    splitOnce c (as ++ c :: bs) = some (as, bs) := by
  have hall : ∀ a ∈ as, decide (a ≠ c) = true := fun a ha =>
    decide_eq_true fun heq => h (heq ▸ ha)
  have hmem : c ∈ as ++ c :: bs := List.mem_append_right as List.mem_cons_self
  rw [splitOnce, if_pos hmem, List.takeWhile_append_of_pos hall, List.dropWhile_append_of_pos hall]
  simp

theorem not_mem_fixed {c : Char} {width n : Nat} (h : c.isDigit = false) : c ∉ fixed width n := by
  intro hc
  rw [fixed_digits c hc] at h
  cases h

/-- Three fields are split apart. -/
theorem splitOn_fields {c : Char} (h : c.isDigit = false) (u v w i j k : Nat) :
    (fixed u i ++ c :: (fixed v j ++ c :: fixed w k)).splitOn c =
      [fixed u i, fixed v j, fixed w k] := by
  rw [List.splitOn_append_cons_self_of_not_mem (not_mem_fixed h),
    List.splitOn_append_cons_self_of_not_mem (not_mem_fixed h),
    List.splitOn_eq_singleton (not_mem_fixed h)]

/-- The lock reads a text back. -/
theorem Lock.parseIso8601ToMillis_text :
    Lock.parseIso8601ToMillis (String.ofList s.text) = some (Int64.ofInt s.total) := by
  obtain ⟨hyear, hmonth, hday, hhour, hminute, hsecond, hmillis⟩ := parse_fields s
  have hdate : 'T' ∉ fixed 4 s.year ++ '-' :: (fixed 2 s.date.month ++ '-' :: fixed 2 s.date.day) := by
    simp [not_mem_fixed (c := 'T') rfl]
  have htime : '.' ∉ fixed 2 s.hour ++ ':' :: (fixed 2 s.minute ++ ':' :: fixed 2 s.second) := by
    simp [not_mem_fixed (c := '.') rfl]
  have htext : s.text =
      (fixed 4 s.year ++ '-' :: (fixed 2 s.date.month ++ '-' :: fixed 2 s.date.day)) ++
        'T' :: ((fixed 2 s.hour ++ ':' :: (fixed 2 s.minute ++ ':' :: fixed 2 s.second)) ++
          '.' :: fixed 3 s.millis ++ ['Z']) := by
    simp [Stamp.text]
  have hfraction : Lock.fraction (some (fixed 3 s.millis)) = some (Int64.ofInt s.millis) := by
    have htake : (fixed 3 s.millis).takeWhile Char.isDigit = fixed 3 s.millis :=
      List.takeWhile_eq_self_iff.mpr fixed_digits
    simp only [Lock.fraction, htake]
    rw [if_neg (millis_ne_nil s), length_millis, Nat.sub_self, List.replicate_zero,
      List.append_nil, List.take_of_length_le (by rw [length_millis])]
    exact hmillis
  unfold Lock.parseIso8601ToMillis
  rw [String.toList_ofList, htext, splitOnce_append hdate]
  simp only [Option.bind_eq_bind, Option.bind_some, List.getLast?_append, List.getLast?_singleton,
    Option.some_or, if_true, List.dropLast_concat, splitOnce_append htime,
    splitOn_fields (c := '-') rfl, splitOn_fields (c := ':') rfl, hyear, hmonth, hday, hhour,
    hminute, hsecond, hfraction, Lock.daysFromCivil_stamp, sum_stamp]

end

/-! ## Agreement -/

/-- From 1970-01-01 to 9999-12-31. -/
def InRange (t : Int64) : Prop := 0 ≤ t.toInt ∧ t.toInt ≤ 253402300799999

/-- The three formatters write one text, the three parsers read it back, and texts are in
the order of their times. -/
theorem timestamps_agree {t t' : Int64} (h : InRange t) (h' : InRange t') :
    Lock.createdAt t = iso8601MillisUtc t ∧ Update.toIso8601 t = iso8601MillisUtc t ∧
      Lock.parseIso8601ToMillis (iso8601MillisUtc t) = some t ∧
      Priority.parseIsoMillis (iso8601MillisUtc t) = some t ∧
      Update.parseIso8601Ms (iso8601MillisUtc t) = some t ∧
      (iso8601MillisUtc t < iso8601MillisUtc t' ↔ t < t') := by
  have hlt : t.toInt < 253402300800000 := by
    have hle := h.2
    omega
  have hlt' : t'.toInt < 253402300800000 := by
    have hle := h'.2
    omega
  have htotal : Int64.ofInt (Stamp.ofTotal t.toInt h.1 hlt).total = t := by
    rw [Stamp.total_ofTotal, Int64.ofInt_toInt]
  have horder : iso8601MillisUtc t < iso8601MillisUtc t' ↔ t < t' := by
    rw [iso8601MillisUtc_eq h.1 hlt, iso8601MillisUtc_eq h'.1 hlt', String.lt_iff_toList_lt,
      String.toList_ofList, String.toList_ofList, Stamp.text_lt_iff, Stamp.total_ofTotal,
      Stamp.total_ofTotal, Int64.lt_iff_toInt_lt]
  refine ⟨rfl, toIso8601_eq t, ?_, ?_, ?_, horder⟩
  · rw [iso8601MillisUtc_eq h.1 hlt, Lock.parseIso8601ToMillis_text, htotal]
  · rw [iso8601MillisUtc_eq h.1 hlt, Priority.parseIsoMillis_text, htotal]
  · rw [iso8601MillisUtc_eq h.1 hlt, Update.parseIso8601Ms_text, htotal]

/-- The last second of a leap day, and the next millisecond after it. -/
theorem timestamps_agree_leap_day :
    InRange 951868799999 ∧ InRange 951868800000 ∧
      Lock.parseIso8601ToMillis (iso8601MillisUtc 951868799999) = some 951868799999 ∧
      iso8601MillisUtc 951868799999 < iso8601MillisUtc 951868800000 := by
  have h : InRange 951868799999 := by unfold InRange; decide
  have h' : InRange 951868800000 := by unfold InRange; decide
  have hagree := timestamps_agree h h'
  exact ⟨h, h', hagree.2.2.1, hagree.2.2.2.2.2.mpr (by decide)⟩

end Climon.Store.Timestamps
