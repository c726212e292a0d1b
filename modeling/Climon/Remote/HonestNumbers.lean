import Climon.Lib.JsonNumbers
import Climon.Remote.Sanitize

namespace Climon.Remote.HonestNumbers

open Climon.Lib.JsonValue Climon.Proto.Meta Climon.Remote.Sanitize

/-!
# The numbers of remote metadata

Sizes and exit codes are narrowed by casts that wrap, priorities by one that cuts off, and only
percentages are clamped first.
-/

/-- What a field makes of a wire number is nothing, its default where no integer is written, the
number itself, or the nearest bound of the range. -/
def Honest (low high : Int) (default : Option Int) (wire : Option Number) (got : Option Int) :
    Prop :=
  got = none ∨ (got = default ∧ ∀ n ∈ wire, n.value.den ≠ 1) ∨
    ∃ n ∈ wire, ∃ v, got = some v ∧
      (n.value = v ∨ n.value < low ∧ v = low ∨ high < n.value ∧ v = high)

def sizeOf (size : Option UInt16) : Option Int := size.map fun n => (n.toNat : Int)

@[simp] theorem sizeOf_some (n : UInt16) : sizeOf (some n) = some (n.toNat : Int) := rfl

def percentOf (progress : Option TerminalProgress) : Option Int :=
  (progress.bind TerminalProgress.value).map fun n => (n.toNat : Int)

def percentWire (input : Json) : Option Number :=
  (input.get? "progress").bind fun progress => numberAt progress "value"

/-- Every number of a sanitised patch. -/
structure PatchHonest (input : Json) : Prop where
  cols : Honest 0 65535 none (numberAt input "cols") (sizeOf (sanitizeRemotePatch input).cols)
  rows : Honest 0 65535 none (numberAt input "rows") (sizeOf (sanitizeRemotePatch input).rows)
  exitCode : Honest (-2 ^ 31) (2 ^ 31 - 1) none (numberAt input "exitCode")
    ((sanitizeRemotePatch input).exitCode.map Int32.toInt)
  priority : Honest 0 1000 none (numberAt input "priority")
    (sizeOf (sanitizeRemotePatch input).priority)
  progress : Honest 0 100 (some 0) (percentWire input)
    (percentOf (sanitizeRemotePatch input).progress.join)

/-- Every number of sanitised metadata, where sizes have defaults. -/
structure MetaHonest (remote : Json) (record : SessionMeta) : Prop where
  cols : Honest 0 65535 (some 80) (numberAt remote "cols") (some record.cols.toNat)
  rows : Honest 0 65535 (some 24) (numberAt remote "rows") (some record.rows.toNat)
  exitCode : Honest (-2 ^ 31) (2 ^ 31 - 1) none (numberAt remote "exitCode")
    (record.exitCode.map Int32.toInt)
  priority : Honest 0 1000 none (numberAt remote "priority") (sizeOf record.priority)
  progress : Honest 0 100 (some 0) (percentWire remote) (percentOf record.progress)

/-! ## The numbers that survive -/

/-- An integer in the range of a 16-bit size, or one beyond it that wraps to the bound next to it. -/
def SizeFits (n : Number) : Prop :=
  n.asF64.den = 1 →
    let m := saturateI64 n.asF64.num
    (0 ≤ m ∧ m ≤ 65535) ∨ (65535 < m ∧ m % 65536 = 65535) ∨ (m < 0 ∧ m % 65536 = 0)

/-- As for a size, with 32 bits and a sign. -/
def ExitFits (n : Number) : Prop :=
  ∀ m ∈ n.asI64, (-2 ^ 31 ≤ m ∧ m < 2 ^ 31) ∨ (2 ^ 31 ≤ m ∧ m % 2 ^ 32 = 2 ^ 31 - 1) ∨
    (m < -2 ^ 31 ∧ m % 2 ^ 32 = 2 ^ 31)

/-- An integer of 16 bits, or what is cut off at a bound of the documented range. -/
def PriorityFits (n : Number) : Prop :=
  n.asF64 < 0 ∨ (n.asF64.den = 1 ∧ n.asF64 ≤ 65535) ∨ (1000 < n.asF64 ∧ n.asF64 < 1001)

structure NumbersFit (input : Json) : Prop where
  cols : ∀ n ∈ numberAt input "cols", SizeFits n
  rows : ∀ n ∈ numberAt input "rows", SizeFits n
  exitCode : ∀ n ∈ numberAt input "exitCode", ExitFits n
  priority : ∀ n ∈ numberAt input "priority", PriorityFits n

/-! ## One number -/

theorem honest_some {low high v : Int} {default : Option Int} {n : Number}
    (h : n.value.den = 1 ∨ some v ≠ default) :
    Honest low high default (some n) (some v) ↔
      n.value = v ∨ n.value < low ∧ v = low ∨ high < n.value ∧ v = high := by
  unfold Honest
  simp only [Option.mem_def, Option.some.injEq, exists_eq_left', forall_eq', reduceCtorEq, false_or]
  grind

theorem honest_none {low high : Int} {default : Option Int} {wire : Option Number} :
    Honest low high default wire none := .inl rfl

theorem honest_default {low high : Int} {default : Option Int} {wire : Option Number}
    (h : ∀ n ∈ wire, n.value.den ≠ 1) : Honest low high default wire default := .inr (.inl ⟨rfl, h⟩)

/-- Where a number is near the one written, the bounds of a range hold for both or neither. -/
theorem near_honest {q r : Rat} {low high v : Int} (h : Near q r) (hrange : low ≤ high)
    (hlow : -2 ^ 51 < low) (hhigh : high < 2 ^ 51) (hv : -2 ^ 51 < v ∧ v < 2 ^ 51) :
    (q = v ∨ q < low ∧ v = low ∨ high < q ∧ v = high) ↔
      r = v ∨ r < low ∧ v = low ∨ high < r ∧ v = high := by
  have hrange' : (low : Rat) ≤ high := by exact_mod_cast hrange
  have hlow' : (-2 ^ 51 : Rat) < low := by exact_mod_cast hlow
  have hhigh' : (high : Rat) < 2 ^ 51 := by exact_mod_cast hhigh
  have hv' : (-2 ^ 51 : Rat) < v ∧ (v : Rat) < 2 ^ 51 := by exact_mod_cast hv
  -- Far from zero, a number is no value of the range, and beyond one bound of it.
  have hup : ∀ t : Rat, 2 ^ 52 ≤ t → ¬ t = v ∧ ¬ t < low ∧ high < t := by
    intro t ht
    refine ⟨?_, ?_, ?_⟩ <;> linarith
  have hdown : ∀ t : Rat, t ≤ -2 ^ 52 → ¬ t = v ∧ t < low ∧ ¬ high < t := by
    intro t ht
    refine ⟨?_, ?_, ?_⟩ <;> linarith
  rcases h with heq | ⟨hq, hr⟩ | ⟨hq, hr⟩
  · rw [heq]
  · simp only [hup q hq, hup r hr]
  · simp only [hdown q hq, hdown r hr]

/-- The integer that `as_integer` reads. -/
def readInteger (n : Number) : Option Int :=
  if n.asF64.den = 1 then some (saturateI64 n.asF64.num) else none

theorem near_readInteger {n : Number} (h : n.asF64.den = 1) :
    Near n.value (saturateI64 n.asF64.num) :=
  (near_asF64 n).trans (near_saturateI64 h)

theorem bind_asInteger (input : Json) (key : String) :
    (input.get? key).bind asInteger = (numberAt input key).bind readInteger := by
  unfold numberAt
  cases input.get? key with
  | none => rfl
  | some value => cases value <;> rfl

theorem toNat_wrapU16 (m : Int) : ((wrapU16 m).toNat : Int) = m % 65536 := by
  have hlow := Int.emod_nonneg m (b := 65536) (by decide)
  have hhigh := Int.emod_lt_of_pos m (b := 65536) (by decide)
  rw [wrapU16, UInt16.toNat_ofNat_of_lt' (by simp only [UInt16.size]; omega), Int.toNat_of_nonneg hlow]

theorem size_honest (wire : Option Number) (default : Option UInt16) :
    Honest 0 65535 (sizeOf default) wire (sizeOf (((wire.bind readInteger).map wrapU16).or default)) ↔
      ∀ n ∈ wire, SizeFits n := by
  cases wire with
  | none => exact iff_of_true (honest_default (by simp)) (by simp)
  | some n =>
    simp only [Option.bind_some, Option.mem_def, Option.some.injEq, forall_eq']
    by_cases h : n.asF64.den = 1
    · have hv := toNat_wrapU16 (saturateI64 n.asF64.num)
      rw [readInteger, if_pos h, Option.map_some, Option.some_or, sizeOf_some, hv,
        honest_some (.inl ((den_asF64 n).mp h)),
        near_honest (near_readInteger h) (by decide) (by decide) (by decide) (by omega)]
      unfold SizeFits
      rw [Int.cast_inj, Int.cast_lt, Int.cast_lt]
      simp only [h, forall_const]
      omega
    · rw [readInteger, if_neg h, Option.map_none, Option.none_or]
      refine iff_of_true (honest_default fun m hm => ?_) fun hden => absurd hden h
      cases hm
      exact fun hden => h ((den_asF64 n).mpr hden)

theorem value_of_asI64 {n : Number} {m : Int} (h : n.asI64 = some m) : n.value = m := by
  cases n with
  | posInt n =>
    simp only [Number.asI64] at h
    split at h
    · cases h
      rfl
    · cases h
  | negInt n =>
    cases h
    rfl
  | float q => cases h

theorem exit_honest (wire : Option Number) :
    Honest (-2 ^ 31) (2 ^ 31 - 1) none wire
        (((wire.bind Number.asI64).map wrapI32).map Int32.toInt) ↔
      ∀ n ∈ wire, ExitFits n := by
  cases wire with
  | none => exact iff_of_true honest_none (by simp)
  | some n =>
    simp only [Option.bind_some, Option.mem_def, Option.some.injEq, forall_eq', ExitFits]
    cases h : n.asI64 with
    | none => exact iff_of_true honest_none (by simp)
    | some m =>
      have hint : (wrapI32 m).toInt = m.bmod (2 ^ 32) := Int32.toInt_ofInt
      have hbmod : m.bmod (2 ^ 32) = if m % 2 ^ 32 < 2 ^ 31 then m % 2 ^ 32 else m % 2 ^ 32 - 2 ^ 32 := rfl
      rw [Option.map_some, Option.map_some, honest_some (.inr (by simp)), value_of_asI64 h]
      simp only [Option.some.injEq, forall_eq', hint, hbmod]
      rw [Int.cast_inj, Int.cast_lt, Int.cast_lt]
      split <;> omega

/-- A cast from a double keeps the integer part, up to the ends of the type. -/
theorem toNat_saturateU16 (q : Rat) :
    ((saturateU16 q).toNat : Int) = max 0 (min 65535 q.floor) := by
  rw [saturateU16, UInt16.toNat_ofNat_of_lt' (by simp only [UInt16.size]; omega)]
  omega

theorem priority_of_double {q : Rat} {v : Int} (hv : v = max 0 (min 65535 q.floor)) :
    (q = v ∨ q < (0 : Int) ∧ v = 0 ∨ (1000 : Int) < q ∧ v = 1000) ↔
      q < 0 ∨ (q.den = 1 ∧ q ≤ 65535) ∨ (1000 < q ∧ q < 1001) := by
  have hfloor : q.den = 1 → q = q.floor := by
    intro h
    rw [← Rat.coe_int_num_of_den_eq_one h, Rat.floor_intCast]
  have hden : q = v → q.den = 1 := by
    intro h
    rw [h]
    exact Rat.den_intCast v
  rcases lt_or_ge q 0 with hneg | hpos
  · have hf : q.floor < 0 := Rat.floor_lt_iff.mpr (by exact_mod_cast hneg)
    have hzero : v = 0 := by omega
    simp [hneg, hzero]
  · have hf : 0 ≤ q.floor := Rat.le_floor_iff.mpr (by exact_mod_cast hpos)
    have hneg : ¬ q < (0 : Int) := by exact_mod_cast not_lt.mpr hpos
    have hthousand : 1000 < q → (q.floor = 1000 ↔ q < 1001) := by
      intro h
      have hle : 1000 ≤ q.floor := Rat.le_floor_iff.mpr (by exact_mod_cast h.le)
      have hlt : q.floor < 1001 ↔ q < 1001 := by
        rw [Rat.floor_lt_iff]
        norm_cast
      rw [← hlt]
      omega
    constructor
    · rintro (h | ⟨h, -⟩ | ⟨h, hbound⟩)
      · have hle : (v : Rat) ≤ 65535 := by exact_mod_cast (by omega : v ≤ 65535)
        exact .inr (.inl ⟨hden h, h.trans_le hle⟩)
      · exact absurd h hneg
      · have hq : 1000 < q := by exact_mod_cast h
        exact .inr (.inr ⟨hq, (hthousand hq).mp (by omega)⟩)
    · rintro (h | ⟨h, hle⟩ | ⟨hq, hlt⟩)
      · exact absurd h (not_lt.mpr hpos)
      · rw [hfloor h] at hle
        have hcut : q.floor ≤ 65535 := by exact_mod_cast hle
        have hsame : v = q.floor := by omega
        rw [hsame]
        exact .inl (hfloor h)
      · have hcut := (hthousand hq).mpr hlt
        exact .inr (.inr ⟨by exact_mod_cast hq, by omega⟩)

theorem priority_honest (wire : Option Number) :
    Honest 0 1000 none wire (sizeOf ((wire.map Number.asF64).map saturateU16)) ↔
      ∀ n ∈ wire, PriorityFits n := by
  cases wire with
  | none => exact iff_of_true honest_none (by simp)
  | some n =>
    have hv := toNat_saturateU16 n.asF64
    simp only [Option.map_some, sizeOf_some, Option.mem_def, Option.some.injEq, forall_eq',
      PriorityFits]
    rw [honest_some (.inr (by simp)), ← priority_of_double hv,
      near_honest (near_asF64 n) (by decide) (by decide) (by decide) (by omega)]

/-- A percentage is clamped before it is narrowed. -/
theorem progress_honest (progress : Json) :
    Honest 0 100 (some 0) (numberAt progress "value") (percentOf (parseProgress progress)) := by
  unfold parseProgress
  split
  · exact honest_none
  · rw [bind_asInteger]
    cases numberAt progress "value" with
    | none => exact honest_default (by simp)
    | some n =>
      by_cases h : n.asF64.den = 1
      · have hv : ((UInt8.ofNat (max 0 (min 100 (saturateI64 n.asF64.num))).toNat).toNat : Int) =
            max 0 (min 100 (saturateI64 n.asF64.num)) := by
          rw [UInt8.toNat_ofNat_of_lt' (by simp only [UInt8.size]; omega)]
          omega
        simp only [Option.bind_some, readInteger, if_pos h, Option.map_some, Option.getD_some,
          percentOf]
        rw [hv, honest_some (.inl ((den_asF64 n).mp h)),
          near_honest (near_readInteger h) (by decide) (by decide) (by decide) (by omega),
          Int.cast_inj, Int.cast_lt, Int.cast_lt]
        omega
      · simp only [Option.bind_some, readInteger, if_neg h]
        refine honest_default fun m hm => ?_
        cases hm
        exact fun hden => h ((den_asF64 n).mpr hden)
  · exact honest_none

/-! ## All numbers -/

theorem bind_asI64 (input : Json) (key : String) :
    (input.get? key).bind Json.asI64 = (numberAt input key).bind Number.asI64 := by
  unfold numberAt
  cases input.get? key with
  | none => rfl
  | some value => cases value <;> rfl

/-- The numbers that a patch takes over; anything but an object has none. -/
theorem patch_numbers (input : Json) :
    (sanitizeRemotePatch input).cols = ((numberAt input "cols").bind readInteger).map wrapU16 ∧
      (sanitizeRemotePatch input).rows = ((numberAt input "rows").bind readInteger).map wrapU16 ∧
      (sanitizeRemotePatch input).exitCode =
        ((numberAt input "exitCode").bind Number.asI64).map wrapI32 ∧
      (sanitizeRemotePatch input).priority =
        ((numberAt input "priority").map Number.asF64).map saturateU16 := by
  simp only [← bind_asInteger, ← bind_asI64, ← bind_asF64]
  unfold sanitizeRemotePatch
  split
  next h =>
    have hnone (key : String) : input.get? key = none :=
      Json.get?_of_not_object (Bool.eq_false_of_not_eq_true h)
    simp only [hnone, Option.bind_none, Option.map_none, and_self]
  next => exact ⟨rfl, rfl, rfl, rfl⟩

theorem patch_progress (input : Json) :
    (sanitizeRemotePatch input).progress.join = (input.get? "progress").bind parseProgress := by
  unfold sanitizeRemotePatch
  split
  next h =>
    rw [Json.get?_of_not_object (Bool.eq_false_of_not_eq_true h)]
    rfl
  next =>
    cases input.get? "progress" with
    | none => rfl
    | some progress =>
      cases progress with
      | null => rfl
      | _ =>
        simp only [Option.bind_some, Json.isNull, Bool.false_eq_true, if_false]
        cases parseProgress _ <;> rfl

/-- An absent value reads as `null`, which has no number in it. -/
theorem getD_null {α : Type} (input : Json) (key : String) (read : Json → Option α)
    (h : read .null = none) : read ((input.get? key).getD .null) = (input.get? key).bind read := by
  cases input.get? key with
  | none => exact h
  | some value => rfl

theorem percent_honest (input : Json) :
    Honest 0 100 (some 0) (percentWire input)
      (percentOf ((input.get? "progress").bind parseProgress)) := by
  unfold percentWire
  cases input.get? "progress" with
  | none => exact honest_none
  | some progress => exact progress_honest progress

theorem patch_honest (input : Json) : PatchHonest input ↔ NumbersFit input := by
  obtain ⟨hcols, hrows, hexit, hpriority⟩ := patch_numbers input
  have hsize := fun key => size_honest (numberAt input key) none
  simp only [Option.or_none] at hsize
  constructor
  · intro h
    refine ⟨(hsize "cols").mp ?_, (hsize "rows").mp ?_, (exit_honest _).mp ?_,
      (priority_honest _).mp ?_⟩
    · rw [← hcols]
      exact h.cols
    · rw [← hrows]
      exact h.rows
    · rw [← hexit]
      exact h.exitCode
    · rw [← hpriority]
      exact h.priority
  · intro h
    refine ⟨?_, ?_, ?_, ?_, ?_⟩
    · rw [hcols]
      exact (hsize "cols").mpr h.cols
    · rw [hrows]
      exact (hsize "rows").mpr h.rows
    · rw [hexit]
      exact (exit_honest _).mpr h.exitCode
    · rw [hpriority]
      exact (priority_honest _).mpr h.priority
    · rw [patch_progress]
      exact percent_honest input

theorem sizeOf_or (size : Option UInt16) (default : UInt16) :
    sizeOf (size.or (some default)) = some ((size.getD default).toNat : Int) := by
  cases size <;> rfl

section

variable (remote : Json) (label localId socketPath now : String)

/-- The numbers that metadata takes over, with the defaults of a terminal. -/
theorem meta_numbers :
    let record := toLocalMeta remote label localId socketPath now
    record.cols = (((numberAt remote "cols").bind readInteger).map wrapU16).getD 80 ∧
      record.rows = (((numberAt remote "rows").bind readInteger).map wrapU16).getD 24 ∧
      record.exitCode = ((numberAt remote "exitCode").bind Number.asI64).map wrapI32 ∧
      record.priority = ((numberAt remote "priority").map Number.asF64).map saturateU16 ∧
      record.progress = (remote.get? "progress").bind parseProgress := by
  simp only [← bind_asInteger, ← bind_asI64, ← bind_asF64, toLocalMeta]
  rw [getD_null remote "cols" asInteger rfl, getD_null remote "rows" asInteger rfl,
    getD_null remote "exitCode" Json.asI64 rfl, getD_null remote "priority" Json.asF64 rfl]
  refine ⟨rfl, rfl, rfl, rfl, ?_⟩
  cases remote.get? "progress" with
  | none => rfl
  | some progress => cases progress <;> rfl

theorem meta_honest :
    MetaHonest remote (toLocalMeta remote label localId socketPath now) ↔ NumbersFit remote := by
  obtain ⟨hcols, hrows, hexit, hpriority, hprogress⟩ :=
    meta_numbers remote label localId socketPath now
  have hsize := fun key default => size_honest (numberAt remote key) (some default)
  simp only [sizeOf_or] at hsize
  constructor
  · intro h
    refine ⟨(hsize "cols" 80).mp ?_, (hsize "rows" 24).mp ?_, (exit_honest _).mp ?_,
      (priority_honest _).mp ?_⟩
    · rw [← hcols]
      exact h.cols
    · rw [← hrows]
      exact h.rows
    · rw [← hexit]
      exact h.exitCode
    · rw [← hpriority]
      exact h.priority
  · intro h
    refine ⟨?_, ?_, ?_, ?_, ?_⟩
    · rw [hcols]
      exact (hsize "cols" 80).mpr h.cols
    · rw [hrows]
      exact (hsize "rows" 24).mpr h.rows
    · rw [hexit]
      exact (exit_honest _).mpr h.exitCode
    · rw [hpriority]
      exact (priority_honest _).mpr h.priority
    · rw [hprogress]
      exact percent_honest remote

end

/-- The numbers of a patch or of metadata are honest if and only if those that are narrowed fit. -/
theorem numbers_honest_iff (input : Json) (label localId socketPath now : String) :
    (PatchHonest input ↔ NumbersFit input) ∧
      (MetaHonest input (toLocalMeta input label localId socketPath now) ↔ NumbersFit input) :=
  ⟨patch_honest input, meta_honest input label localId socketPath now⟩

/-- An exit code of `2 ^ 32` becomes a success, a width of 65636 one of 100, and a priority of 70000
the largest that fits the type. -/
theorem numbers_wrapped :
    (sanitizeRemotePatch (.object [("exitCode", .number (.posInt 4294967296))])).exitCode = some 0 ∧
      ¬ PatchHonest (.object [("exitCode", .number (.posInt 4294967296))]) ∧
      ¬ PatchHonest (.object [("cols", .number (.posInt 65636))]) ∧
      ¬ PatchHonest (.object [("priority", .number (.posInt 70000))]) := by
  simp only [patch_honest]
  refine ⟨by decide, fun h => ?_, fun h => ?_, fun h => ?_⟩
  · exact absurd (h.exitCode (.posInt 4294967296) rfl) (by unfold ExitFits; decide)
  · exact absurd (h.cols (.posInt 65636) rfl) (by unfold SizeFits; decide)
  · exact absurd (h.priority (.posInt 70000) rfl) (by unfold PriorityFits; decide)

end Climon.Remote.HonestNumbers
