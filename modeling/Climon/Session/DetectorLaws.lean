import Climon.Lib.Machine
import Climon.Session.Idle

namespace Climon.Session.DetectorLaws

open Climon.Session.Idle Climon.Lib.Machine

/-! # The laws of the screen idle detector, over every run of its operations -/

inductive Call where
  | update (fingerprint : String) (now : Int)
  | acknowledge (fingerprint : String) (now : Int)
  | absorbResize (fingerprint : String) (now : Int)

def next (d : ScreenIdleDetector) : Call → ScreenIdleDetector
  | .update fingerprint now => (d.update fingerprint now).2
  | .acknowledge fingerprint now => d.acknowledge fingerprint now
  | .absorbResize fingerprint now => d.absorbResize fingerprint now

def emitted (d : ScreenIdleDetector) : Call → Option IdleTransition
  | .update fingerprint now => (d.update fingerprint now).1
  | _ => none

abbrev Visit := ScreenIdleDetector × Call

/-- The call emits the needs-attention transition. -/
def Flags (v : Visit) : Prop :=
  ∃ t ∈ emitted v.1 v.2, t.needsAttention = true

/-- An acknowledgement that is no no-op. -/
def Acknowledges : Visit → Prop
  | (d, .acknowledge _ _) => 0 < d.idleMs ∧ d.lastFingerprint ≠ none
  | _ => False

/-- An update outside the settle window whose body is not the stored one. -/
def SeesChange : Visit → Prop
  | (d, .update fingerprint now) =>
    0 < d.idleMs ∧ d.settleUntil ≤ now ∧
      ∃ last ∈ d.lastFingerprint, fingerprintBody last ≠ fingerprintBody fingerprint
  | _ => False

/-- When the call counts as a change: the first update, a change it sees, an acknowledgement. -/
def countedAt (v : Visit) : Option Int :=
  match v.2, v.1.lastFingerprint with
  | .update _ now, none => some now
  | .update fingerprint now, some last =>
    if fingerprintBody last ≠ fingerprintBody fingerprint ∧ v.1.settleUntil ≤ now then some now
    else none
  | .acknowledge _ now, some _ => some now
  | _, _ => none

def lastCounted (past : List Visit) : Option Int :=
  (past.filterMap countedAt).getLast?

/-- The settle window that an absorbed resize opens ends here. -/
def settlesAt (v : Visit) : Option Int :=
  match v.2, v.1.lastFingerprint with
  | .absorbResize _ now, some _ => some (now + resizeSettleMs)
  | _, _ => none

def settleEnd (past : List Visit) : Int :=
  (past.filterMap settlesAt).getLast?.getD 0

/-! ## What one call does -/

section

variable {d : ScreenIdleDetector} {c : Call} {fingerprint last : String} {now : Int}

theorem update_first (hon : 0 < d.idleMs) (hlast : d.lastFingerprint = none) :
    d.update fingerprint now =
      (none, { d with lastFingerprint := some fingerprint, lastChangeAt := now }) := by
  simp [ScreenIdleDetector.update, hlast, Int.not_le.mpr hon]

theorem update_changed (hon : 0 < d.idleMs) (hlast : d.lastFingerprint = some last)
    (hbody : fingerprintBody last ≠ fingerprintBody fingerprint) :
    d.update fingerprint now =
      if now < d.settleUntil then (none, { d with lastFingerprint := some fingerprint })
      else
        (if d.flagged || d.acknowledged then some ⟨false, none⟩ else none,
          { d with
            lastFingerprint := some fingerprint, lastChangeAt := now, flagged := false,
            acknowledged := false }) := by
  simp [ScreenIdleDetector.update, hlast, hbody, Int.not_le.mpr hon]

theorem update_same (hon : 0 < d.idleMs) (hlast : d.lastFingerprint = some last)
    (hbody : fingerprintBody last = fingerprintBody fingerprint) :
    d.update fingerprint now =
      if d.acknowledged = false ∧ d.flagged = false ∧ d.idleMs ≤ now - d.lastChangeAt then
        (some ⟨true, some s!"Screen idle for {d.idleMs / 1000}s"⟩,
          { d with lastFingerprint := some fingerprint, flagged := true })
      else (none, { d with lastFingerprint := some fingerprint }) := by
  cases hack : d.acknowledged <;>
    simp [ScreenIdleDetector.update, hlast, hbody, hack, Int.not_le.mpr hon]

theorem next_idleMs (hon : 0 < d.idleMs) : (next d c).idleMs = d.idleMs := by
  cases c with
  | acknowledge fingerprint now =>
    simp only [next, ScreenIdleDetector.acknowledge]
    split_ifs <;> rfl
  | absorbResize fingerprint now =>
    simp only [next, ScreenIdleDetector.absorbResize]
    split_ifs <;> rfl
  | update fingerprint now =>
    cases hlast : d.lastFingerprint with
    | none => simp [next, update_first hon hlast]
    | some last =>
      by_cases hbody : fingerprintBody last = fingerprintBody fingerprint
      · simp only [next, update_same hon hlast hbody]
        split_ifs <;> rfl
      · simp only [next, update_changed hon hlast hbody]
        split_ifs <;> rfl

theorem flags_update_iff (hon : 0 < d.idleMs) :
    Flags (d, .update fingerprint now) ↔
      (∃ last ∈ d.lastFingerprint, fingerprintBody last = fingerprintBody fingerprint) ∧
      d.acknowledged = false ∧ d.flagged = false ∧ d.idleMs ≤ now - d.lastChangeAt := by
  simp only [Flags, emitted]
  cases hlast : d.lastFingerprint with
  | none => simp [update_first hon hlast]
  | some last =>
    by_cases hbody : fingerprintBody last = fingerprintBody fingerprint
    · rw [update_same hon hlast hbody]
      split_ifs with hflags <;> simp [hbody, hflags]
    · rw [update_changed hon hlast hbody]
      split_ifs <;> simp [hbody]

theorem Flags.eq_update (h : Flags (d, c)) :
    ∃ fingerprint now, c = .update fingerprint now := by
  cases c with
  | update fingerprint now => exact ⟨fingerprint, now, rfl⟩
  | acknowledge fingerprint now => simp [Flags, emitted] at h
  | absorbResize fingerprint now => simp [Flags, emitted] at h

theorem Flags.before (hon : 0 < d.idleMs) (h : Flags (d, c)) :
    d.acknowledged = false ∧ d.flagged = false := by
  obtain ⟨fingerprint, now, rfl⟩ := h.eq_update
  have hflags := (flags_update_iff hon).mp h
  exact ⟨hflags.2.1, hflags.2.2.1⟩

theorem Flags.not_acknowledges (h : Flags (d, c)) : ¬ Acknowledges (d, c) := by
  obtain ⟨fingerprint, now, rfl⟩ := h.eq_update
  simp [Acknowledges]

theorem SeesChange.not_acknowledges (h : SeesChange (d, c)) : ¬ Acknowledges (d, c) := by
  cases c <;> simp [SeesChange, Acknowledges] at h ⊢

/-- The detector is flagged by flagging, and unflagged by a change or an acknowledgement. -/
theorem next_flagged_iff (hon : 0 < d.idleMs) :
    (next d c).flagged = true ↔
      Flags (d, c) ∨ d.flagged = true ∧ ¬ SeesChange (d, c) ∧ ¬ Acknowledges (d, c) := by
  cases c with
  | acknowledge fingerprint now =>
    by_cases hlast : d.lastFingerprint = none <;>
      simp [next, ScreenIdleDetector.acknowledge, Flags, emitted, SeesChange, Acknowledges, hlast,
        hon, Int.not_le.mpr hon]
  | absorbResize fingerprint now =>
    by_cases hlast : d.lastFingerprint = none <;>
      simp [next, ScreenIdleDetector.absorbResize, Flags, emitted, SeesChange, Acknowledges, hlast,
        Int.not_le.mpr hon]
  | update fingerprint now =>
    rw [flags_update_iff hon]
    simp only [next, SeesChange, Acknowledges]
    cases hlast : d.lastFingerprint with
    | none => simp [update_first hon hlast]
    | some last =>
      by_cases hbody : fingerprintBody last = fingerprintBody fingerprint
      · rw [update_same hon hlast hbody]
        split_ifs with hflags <;> simp [hbody, hflags]
      · rw [update_changed hon hlast hbody]
        split_ifs with hsettle
        · simp [hbody, Int.not_le.mpr hsettle]
        · simp [hbody, hon, Int.not_lt.mp hsettle]

/-- The screen is acknowledged until a change is seen. -/
theorem next_acknowledged_iff (hon : 0 < d.idleMs) :
    (next d c).acknowledged = true ↔
      Acknowledges (d, c) ∨ d.acknowledged = true ∧ ¬ SeesChange (d, c) := by
  cases c with
  | acknowledge fingerprint now =>
    by_cases hlast : d.lastFingerprint = none <;>
      simp [next, ScreenIdleDetector.acknowledge, SeesChange, Acknowledges, hlast, hon,
        Int.not_le.mpr hon]
  | absorbResize fingerprint now =>
    by_cases hlast : d.lastFingerprint = none <;>
      simp [next, ScreenIdleDetector.absorbResize, SeesChange, Acknowledges, hlast,
        Int.not_le.mpr hon]
  | update fingerprint now =>
    simp only [next, SeesChange, Acknowledges]
    cases hlast : d.lastFingerprint with
    | none => simp [update_first hon hlast]
    | some last =>
      by_cases hbody : fingerprintBody last = fingerprintBody fingerprint
      · rw [update_same hon hlast hbody]
        split_ifs <;> simp [hbody]
      · rw [update_changed hon hlast hbody]
        split_ifs with hsettle
        · simp [Int.not_le.mpr hsettle]
        · simp [hbody, hon, Int.not_lt.mp hsettle]

/-- The start of the idle window moves where a change counts, and the first update stores one. -/
theorem next_window (hon : 0 < d.idleMs) :
    (next d c).lastFingerprint.map (fun _ => (next d c).lastChangeAt) =
      (countedAt (d, c)).or (d.lastFingerprint.map fun _ => d.lastChangeAt) := by
  cases c with
  | acknowledge fingerprint now =>
    cases hlast : d.lastFingerprint <;>
      simp [next, ScreenIdleDetector.acknowledge, countedAt, hlast, Int.not_le.mpr hon]
  | absorbResize fingerprint now =>
    cases hlast : d.lastFingerprint <;>
      simp [next, ScreenIdleDetector.absorbResize, countedAt, hlast, Int.not_le.mpr hon]
  | update fingerprint now =>
    cases hlast : d.lastFingerprint with
    | none => simp [next, countedAt, update_first hon hlast, hlast]
    | some last =>
      by_cases hbody : fingerprintBody last = fingerprintBody fingerprint
      · have hat : countedAt (d, .update fingerprint now) = none := by
          simp [countedAt, hlast, hbody]
        simp only [next, hat, update_same hon hlast hbody]
        split_ifs <;> simp
      · simp only [next, update_changed hon hlast hbody]
        split_ifs with hsettle
        · simp [countedAt, hlast, Int.not_le.mpr hsettle]
        · simp [countedAt, hlast, hbody, Int.not_lt.mp hsettle]
        · simp [countedAt, hlast, hbody, Int.not_lt.mp hsettle]

theorem next_settle (hon : 0 < d.idleMs) :
    (next d c).settleUntil = (settlesAt (d, c)).getD d.settleUntil := by
  cases c with
  | acknowledge fingerprint now =>
    cases hlast : d.lastFingerprint <;>
      simp [next, ScreenIdleDetector.acknowledge, settlesAt, hlast, Int.not_le.mpr hon]
  | absorbResize fingerprint now =>
    cases hlast : d.lastFingerprint <;>
      simp [next, ScreenIdleDetector.absorbResize, settlesAt, hlast, Int.not_le.mpr hon]
  | update fingerprint now =>
    cases hlast : d.lastFingerprint with
    | none => simp [next, settlesAt, update_first hon hlast]
    | some last =>
      by_cases hbody : fingerprintBody last = fingerprintBody fingerprint
      · simp only [next, settlesAt, update_same hon hlast hbody]
        split_ifs <;> simp
      · simp only [next, settlesAt, update_changed hon hlast hbody]
        split_ifs <;> simp

end

/-! ## Runs -/

variable {idleSeconds : Int} {calls : List Call}

abbrev run (idleSeconds : Int) (calls : List Call) : ScreenIdleDetector :=
  after next (.new idleSeconds) calls

abbrev history (idleSeconds : Int) (calls : List Call) : List Visit :=
  visits next (.new idleSeconds) calls

/-- What the detector knows is what the calls so far make of it. -/
structure Tracks (idleSeconds : Int) (past : List Visit) (d : ScreenIdleDetector) : Prop where
  window : d.idleMs = idleSeconds * 1000
  exclusive : ¬ (d.flagged = true ∧ d.acknowledged = true)
  counted : d.lastFingerprint.map (fun _ => d.lastChangeAt) = lastCounted past
  settle : d.settleUntil = settleEnd past

theorem lastCounted_append (past : List Visit) (v : Visit) :
    lastCounted (past ++ [v]) = (countedAt v).or (lastCounted past) := by
  cases hat : countedAt v <;> simp [lastCounted, hat]

theorem settleEnd_append (past : List Visit) (v : Visit) :
    settleEnd (past ++ [v]) = (settlesAt v).getD (settleEnd past) := by
  cases hat : settlesAt v <;> simp [settleEnd, hat]

theorem Tracks.next (hpos : 0 < idleSeconds) {past : List Visit} {d : ScreenIdleDetector} {c : Call}
    (h : Tracks idleSeconds past d) :
    Tracks idleSeconds (past ++ [(d, c)]) (DetectorLaws.next d c) := by
  have hon : 0 < d.idleMs := by rw [h.window]; omega
  refine ⟨?_, ?_, ?_, ?_⟩
  · rw [next_idleMs hon, h.window]
  · rw [next_flagged_iff hon, next_acknowledged_iff hon]
    rintro ⟨hflags | ⟨hflagged, -, hacks⟩, hacked | ⟨hacked, -⟩⟩
    · exact hflags.not_acknowledges hacked
    · simp [hflags.before hon] at hacked
    · exact hacks hacked
    · exact h.exclusive ⟨hflagged, hacked⟩
  · rw [next_window hon, lastCounted_append, h.counted]
  · rw [next_settle hon, settleEnd_append, h.settle]

theorem tracks (hpos : 0 < idleSeconds) :
    Tracks idleSeconds (history idleSeconds calls) (run idleSeconds calls) := by
  apply after_history (I := Tracks idleSeconds) (fun h => h.next hpos)
  constructor <;> simp [ScreenIdleDetector.new, lastCounted, settleEnd]

section

variable {a b c : List Visit} {v w : Visit} {d : ScreenIdleDetector} {fingerprint last : String}
  {now : Int}

end

end Climon.Session.DetectorLaws
