import Climon.Remote.SpawnAuth
import Mathlib.Algebra.Group.Nat.Defs
import Mathlib.Data.List.Induction
import Mathlib.Data.List.Nodup

namespace Climon.Remote.ReplayWindow

open Climon.Remote.SpawnAuth (RejectReason)

/-!
# The replay guard over machine time

Time stamps are what a peer sends, so the distance to the clock is computed with the arithmetic of
64-bit integers, which wraps.
-/

/-- The nonces seen, each with the time stamp it came with. -/
structure ReplayGuard where
  windowMs : Int64
  seen : List (String × Int64)
  deriving DecidableEq, Repr

namespace ReplayGuard

def new (windowMs : Int64) : ReplayGuard := ⟨windowMs, []⟩

def prune (guard : ReplayGuard) (now : Int64) : ReplayGuard :=
  { guard with seen := guard.seen.filter fun entry => (now - entry.2).abs ≤ guard.windowMs }

def check (guard : ReplayGuard) (nonce : String) (ts now : Int64) :
    Except RejectReason Unit × ReplayGuard :=
  if guard.windowMs < (now - ts).abs then (.error .stale, guard)
  else
    let guard := guard.prune now
    if guard.seen.any fun entry => entry.1 == nonce then (.error .replay, guard)
    else (.ok (), { guard with seen := (nonce, ts) :: guard.seen })

end ReplayGuard

structure Call where
  nonce : String
  ts : Int64
  now : Int64
  deriving DecidableEq, Repr

def Call.entry (call : Call) : String × Int64 := (call.nonce, call.ts)

def ReplayGuard.verdict (guard : ReplayGuard) (call : Call) : Except RejectReason Unit :=
  (guard.check call.nonce call.ts call.now).1

def ReplayGuard.next (guard : ReplayGuard) (call : Call) : ReplayGuard :=
  (guard.check call.nonce call.ts call.now).2

/-- The guard after a sequence of calls. -/
def ReplayGuard.after (guard : ReplayGuard) (calls : List Call) : ReplayGuard :=
  calls.foldl ReplayGuard.next guard

/-- The calls of a sequence that are accepted. -/
def ReplayGuard.accepted (guard : ReplayGuard) : List Call → List Call
  | [] => []
  | call :: calls =>
    (if guard.verdict call = .ok () then [call] else []) ++ (guard.next call).accepted calls

/-- The exact distance of two times. -/
def distance (now ts : Int64) : Nat := (now.toInt - ts.toInt).natAbs

/-- The time stamp of the call lies within the window of its current time. -/
def Fresh (windowMs : Int64) (call : Call) : Prop := distance call.now call.ts ≤ windowMs.toInt

/-- The clock does not go back, and neither a subtraction nor its absolute value overflows. -/
structure Orderly (calls : List Call) : Prop where
  clock : calls.Pairwise fun earlier later => earlier.now ≤ later.now
  own : ∀ call ∈ calls, distance call.now call.ts < 2 ^ 63
  earlier : calls.Pairwise fun earlier later => distance later.now earlier.ts < 2 ^ 63

/-! ## Machine arithmetic -/

theorem abs_sub {now ts : Int64} (h : distance now ts < 2 ^ 63) :
    (now - ts).abs.toInt = distance now ts := by
  unfold distance at h ⊢
  have hsub : (now - ts).toInt = now.toInt - ts.toInt := by
    rw [Int64.toInt_sub]
    exact Int.bmod_eq_of_le (by omega) (by omega)
  have habs : (now - ts).abs.toInt = (now - ts).toBitVec.abs.toInt := rfl
  have hint : (now - ts).toBitVec.toInt = (now - ts).toInt := rfl
  rw [habs, BitVec.toInt_abs_eq_natAbs, hint, hsub]
  split
  next hmin =>
    have hval : (now - ts).toInt = (BitVec.intMin 64).toInt := by rw [← hint, hmin]
    rw [hsub] at hval
    have hmin : (BitVec.intMin 64).toInt = -2 ^ 63 := by decide
    omega
  next => rfl

theorem abs_le_iff {windowMs now ts : Int64} (h : distance now ts < 2 ^ 63) :
    (now - ts).abs ≤ windowMs ↔ (distance now ts : Int) ≤ windowMs.toInt := by
  rw [Int64.le_iff_toInt_le, abs_sub h]

theorem lt_abs_iff {windowMs : Int64} {call : Call} (h : distance call.now call.ts < 2 ^ 63) :
    windowMs < (call.now - call.ts).abs ↔ ¬ Fresh windowMs call := by
  rw [Int64.lt_iff_toInt_lt, abs_sub h, Fresh, Int.not_le]

/-! ## One call -/

section

variable {guard : ReplayGuard} {call : Call}

theorem check_stale (h : guard.windowMs < (call.now - call.ts).abs) :
    guard.verdict call = .error .stale ∧ guard.next call = guard := by
  unfold ReplayGuard.verdict ReplayGuard.next ReplayGuard.check
  rw [if_pos h]
  exact ⟨rfl, rfl⟩

theorem check_replay (h : ¬ guard.windowMs < (call.now - call.ts).abs)
    (hseen : ∃ entry ∈ (guard.prune call.now).seen, entry.1 = call.nonce) :
    guard.verdict call = .error .replay ∧ guard.next call = guard.prune call.now := by
  have hany : ((guard.prune call.now).seen.any fun entry => entry.1 == call.nonce) = true := by
    simpa using hseen
  unfold ReplayGuard.verdict ReplayGuard.next ReplayGuard.check
  rw [if_neg h]
  dsimp only
  rw [if_pos hany]
  exact ⟨rfl, rfl⟩

theorem check_ok (h : ¬ guard.windowMs < (call.now - call.ts).abs)
    (hnew : ¬ ∃ entry ∈ (guard.prune call.now).seen, entry.1 = call.nonce) :
    guard.verdict call = .ok () ∧
      guard.next call =
        { guard with seen := call.entry :: (guard.prune call.now).seen } := by
  have hany : ¬ ((guard.prune call.now).seen.any fun entry => entry.1 == call.nonce) = true := by
    simpa using hnew
  unfold ReplayGuard.verdict ReplayGuard.next ReplayGuard.check
  rw [if_neg h]
  dsimp only
  rw [if_neg hany]
  exact ⟨rfl, rfl⟩

@[simp] theorem next_windowMs : (guard.next call).windowMs = guard.windowMs := by
  unfold ReplayGuard.next ReplayGuard.check
  split
  · rfl
  · dsimp only
    split <;> rfl

theorem mem_prune {now : Int64} {entry : String × Int64} :
    entry ∈ (guard.prune now).seen ↔
      entry ∈ guard.seen ∧ (now - entry.2).abs ≤ guard.windowMs := by
  simp [ReplayGuard.prune]

end

/-! ## Sequences of calls -/

section

variable {guard : ReplayGuard}

theorem after_append (front : List Call) (call : Call) :
    guard.after (front ++ [call]) = (guard.after front).next call := by
  simp [ReplayGuard.after]

@[simp] theorem after_windowMs (calls : List Call) : (guard.after calls).windowMs = guard.windowMs := by
  induction calls generalizing guard with
  | nil => rfl
  | cons call calls ih =>
    change ((guard.next call).after calls).windowMs = _
    rw [ih, next_windowMs]

theorem accepted_append (front : List Call) (call : Call) :
    guard.accepted (front ++ [call]) =
      guard.accepted front ++ if (guard.after front).verdict call = .ok () then [call] else [] := by
  induction front generalizing guard with
  | nil =>
    simp only [ReplayGuard.accepted, List.nil_append, List.append_nil]
    rfl
  | cons first front ih =>
    rw [List.cons_append, ReplayGuard.accepted, ih, ReplayGuard.accepted, List.append_assoc]
    rfl

theorem accepted_subset (calls : List Call) : guard.accepted calls ⊆ calls := by
  induction calls using List.reverseRecOn with
  | nil => exact List.Subset.refl _
  | append_singleton front call ih =>
    rw [accepted_append]
    refine List.append_subset.mpr ⟨fun a ha => List.mem_append_left _ (ih ha), fun a ha => ?_⟩
    split at ha
    · exact List.mem_append_right _ ha
    · cases ha

end

theorem Orderly.front {front : List Call} {call : Call} (h : Orderly (front ++ [call])) :
    Orderly front where
  clock := (List.pairwise_append.mp h.clock).1
  own := fun c hc => h.own c (List.mem_append_left _ hc)
  earlier := (List.pairwise_append.mp h.earlier).1

/-- What the guard has of the calls it accepted: none that it did not, and every one that a later
call could still match. -/
structure Recalls (windowMs : Int64) (calls accepted : List Call) (guard : ReplayGuard) : Prop where
  window : guard.windowMs = windowMs
  seen : ∀ entry ∈ guard.seen, ∃ call ∈ accepted, call.entry = entry
  fresh : ∀ call ∈ accepted, Fresh windowMs call
  kept : ∀ call ∈ accepted,
    (∀ later ∈ calls, later.now.toInt ≤ call.ts.toInt + windowMs.toInt) → call.entry ∈ guard.seen

/-- An entry that a call finds fresh outlives the pruning of that call. -/
theorem distance_le {windowMs : Int64} {accepted call : Call} (hfresh : Fresh windowMs accepted)
    (hclock : accepted.now ≤ call.now)
    (hold : call.now.toInt ≤ accepted.ts.toInt + windowMs.toInt) :
    (distance call.now accepted.ts : Int) ≤ windowMs.toInt := by
  rw [Int64.le_iff_toInt_le] at hclock
  unfold Fresh distance at hfresh
  unfold distance
  omega

theorem Recalls.new (windowMs : Int64) :
    Recalls windowMs [] [] (ReplayGuard.new windowMs) where
  window := rfl
  seen := by
    intro entry hentry
    cases hentry
  fresh := by
    intro call hcall
    cases hcall
  kept := by
    intro call hcall
    cases hcall

section

variable {windowMs : Int64} {front accepted : List Call} {call : Call} {guard : ReplayGuard}

theorem Recalls.stale (h : Recalls windowMs front accepted guard) :
    Recalls windowMs (front ++ [call]) accepted guard where
  window := h.window
  seen := h.seen
  fresh := h.fresh
  kept := by
    intro a ha hin
    exact h.kept a ha fun later hlater => hin later (List.mem_append_left _ hlater)

/-- What a later call could still match is not pruned. -/
theorem Recalls.pruned (h : Recalls windowMs front accepted guard) (hsub : accepted ⊆ front)
    (hok : Orderly (front ++ [call])) :
    Recalls windowMs (front ++ [call]) accepted (guard.prune call.now) where
  window := h.window
  seen := by
    intro entry hentry
    exact h.seen entry (mem_prune.mp hentry).1
  fresh := h.fresh
  kept := by
    intro a ha hin
    have hmem : call ∈ [call] := List.mem_singleton_self call
    have hclock := (List.pairwise_append.mp hok.clock).2.2 a (hsub ha) call hmem
    have hdistance := (List.pairwise_append.mp hok.earlier).2.2 a (hsub ha) call hmem
    have hnow := hin call (List.mem_append_right _ hmem)
    rw [mem_prune, h.window]
    refine ⟨h.stale.kept a ha hin, ?_⟩
    rw [Call.entry, abs_le_iff hdistance]
    exact distance_le (h.fresh a ha) hclock hnow

theorem Recalls.accept (h : Recalls windowMs (front ++ [call]) accepted guard)
    (hfresh : Fresh windowMs call) :
    Recalls windowMs (front ++ [call]) (accepted ++ [call])
      { guard with seen := call.entry :: guard.seen } where
  window := h.window
  seen := by
    intro entry hentry
    rcases List.mem_cons.mp hentry with rfl | hold
    · exact ⟨call, List.mem_append_right _ (List.mem_singleton_self call), rfl⟩
    · obtain ⟨a, ha, heq⟩ := h.seen entry hold
      exact ⟨a, List.mem_append_left _ ha, heq⟩
  fresh := by
    intro a ha
    rcases List.mem_append.mp ha with hold | hnew
    · exact h.fresh a hold
    · rw [List.mem_singleton.mp hnew]
      exact hfresh
  kept := by
    intro a ha hin
    rcases List.mem_append.mp ha with hold | hnew
    · exact List.mem_cons_of_mem _ (h.kept a hold hin)
    · rw [List.mem_singleton.mp hnew]
      exact List.mem_cons_self

/-- The three outcomes of a call, and what the guard recalls after each. -/
theorem Recalls.next (h : Recalls windowMs front accepted guard) (hsub : accepted ⊆ front)
    (hok : Orderly (front ++ [call])) :
    Recalls windowMs (front ++ [call])
      (accepted ++ if guard.verdict call = .ok () then [call] else []) (guard.next call) := by
  by_cases hstale : guard.windowMs < (call.now - call.ts).abs
  · obtain ⟨hverdict, hnext⟩ := check_stale hstale
    rw [hverdict, hnext, if_neg (by simp), List.append_nil]
    exact h.stale
  · have hpruned := h.pruned hsub hok
    by_cases hseen : ∃ entry ∈ (guard.prune call.now).seen, entry.1 = call.nonce
    · obtain ⟨hverdict, hnext⟩ := check_replay hstale hseen
      rw [hverdict, hnext, if_neg (by simp), List.append_nil]
      exact hpruned
    · obtain ⟨hverdict, hnext⟩ := check_ok hstale hseen
      have hown := hok.own call (List.mem_append_right _ (List.mem_singleton_self call))
      rw [h.window, lt_abs_iff hown, not_not] at hstale
      rw [hverdict, hnext, if_pos rfl]
      exact hpruned.accept hstale

end

theorem recalls (windowMs : Int64) {calls : List Call} (h : Orderly calls) :
    Recalls windowMs calls ((ReplayGuard.new windowMs).accepted calls)
      ((ReplayGuard.new windowMs).after calls) := by
  induction calls using List.reverseRecOn with
  | nil => exact .new windowMs
  | append_singleton front call ih =>
    rw [accepted_append, after_append]
    exact (ih h.front).next (accepted_subset front) h

section

variable {windowMs : Int64} {front : List Call} {call : Call}

/-- A pair that was accepted is in the guard for as long as it is fresh. -/
theorem verdict_replay (h : Orderly (front ++ [call])) {a : Call}
    (ha : a ∈ (ReplayGuard.new windowMs).accepted front) (heq : a.entry = call.entry) :
    ((ReplayGuard.new windowMs).after front).verdict call ≠ .ok () := by
  have hrecalls := recalls windowMs h.front
  have hpruned := hrecalls.pruned (accepted_subset front) h
  have hmem : call ∈ [call] := List.mem_singleton_self call
  have hown := h.own call (List.mem_append_right _ hmem)
  by_cases hstale : ((ReplayGuard.new windowMs).after front).windowMs < (call.now - call.ts).abs
  · rw [(check_stale hstale).1]
    simp
  · have hfresh := hstale
    rw [hrecalls.window, lt_abs_iff hown, not_not, Fresh, distance] at hfresh
    have hts : a.ts = call.ts := congrArg Prod.snd heq
    have hkept := hpruned.kept a ha fun later hlater => by
      have hclock : later.now ≤ call.now := by
        rcases List.mem_append.mp hlater with hold | hnew
        · exact (List.pairwise_append.mp h.clock).2.2 later hold call hmem
        · rw [List.mem_singleton.mp hnew]
          exact Int64.le_refl _
      rw [Int64.le_iff_toInt_le] at hclock
      rw [hts]
      omega
    rw [(check_replay hstale ⟨a.entry, hkept, congrArg Prod.fst heq⟩).1]
    simp

theorem accepted_nodup {calls : List Call} (h : Orderly calls) :
    (((ReplayGuard.new windowMs).accepted calls).map Call.entry).Nodup := by
  induction calls using List.reverseRecOn with
  | nil => exact List.nodup_nil
  | append_singleton front call ih =>
    rw [accepted_append]
    split
    next hok =>
      rw [List.map_append, List.map_singleton]
      refine List.nodup_append.mpr ⟨ih h.front, List.nodup_singleton _, fun e he e' he' heq => ?_⟩
      obtain ⟨a, ha, hentry⟩ := List.mem_map.mp he
      rw [List.mem_singleton.mp he', ← hentry] at heq
      exact verdict_replay h ha heq hok
    next =>
      rw [List.append_nil]
      exact ih h.front

theorem verdict_ok (h : Orderly (front ++ [call])) (hfresh : Fresh windowMs call)
    (hnew : ∀ a ∈ (ReplayGuard.new windowMs).accepted front, a.nonce ≠ call.nonce) :
    ((ReplayGuard.new windowMs).after front).verdict call = .ok () := by
  have hrecalls := recalls windowMs h.front
  have hown := h.own call (List.mem_append_right _ (List.mem_singleton_self call))
  refine (check_ok ?_ ?_).1
  · rw [hrecalls.window, lt_abs_iff hown, not_not]
    exact hfresh
  · rintro ⟨entry, hentry, hnonce⟩
    obtain ⟨a, ha, heq⟩ := hrecalls.seen entry (mem_prune.mp hentry).1
    rw [← heq] at hnonce
    exact hnew a ha hnonce

/-- A call that is not rejected as stale leaves nothing behind that is. -/
theorem remembered_fresh (h : Orderly (front ++ [call])) {entry : String × Int64}
    (hentry : entry ∈ ((ReplayGuard.new windowMs).after (front ++ [call])).seen)
    (hverdict : ((ReplayGuard.new windowMs).after front).verdict call ≠ .error .stale) :
    (distance call.now entry.2 : Int) ≤ windowMs.toInt := by
  have hrecalls := recalls windowMs h.front
  have hmem : call ∈ [call] := List.mem_singleton_self call
  have hpruned : ∀ e ∈ (((ReplayGuard.new windowMs).after front).prune call.now).seen,
      (distance call.now e.2 : Int) ≤ windowMs.toInt := by
    intro e he
    rw [mem_prune, hrecalls.window] at he
    obtain ⟨a, ha, heq⟩ := hrecalls.seen e he.1
    have hdistance := (List.pairwise_append.mp h.earlier).2.2 a (accepted_subset front ha) call hmem
    rw [← heq] at he ⊢
    exact (abs_le_iff hdistance).mp he.2
  rw [after_append] at hentry
  by_cases hstale : ((ReplayGuard.new windowMs).after front).windowMs < (call.now - call.ts).abs
  · exact absurd (check_stale hstale).1 hverdict
  · by_cases hseen : ∃ e ∈ (((ReplayGuard.new windowMs).after front).prune call.now).seen,
        e.1 = call.nonce
    · rw [(check_replay hstale hseen).2] at hentry
      exact hpruned entry hentry
    · rw [(check_ok hstale hseen).2] at hentry
      rcases List.mem_cons.mp hentry with rfl | hold
      · have hown := h.own call (List.mem_append_right _ hmem)
        rw [hrecalls.window, lt_abs_iff hown, not_not] at hstale
        exact hstale
      · exact hpruned entry hold

/-- A call that is rejected as stale does not touch the guard. -/
theorem remembered_stale {guard : ReplayGuard} (h : guard.verdict call = .error .stale) :
    guard.next call = guard := by
  by_cases hstale : guard.windowMs < (call.now - call.ts).abs
  · exact (check_stale hstale).2
  · by_cases hseen : ∃ entry ∈ (guard.prune call.now).seen, entry.1 = call.nonce
    · rw [(check_replay hstale hseen).1] at h
      cases h
    · rw [(check_ok hstale hseen).1] at h
      cases h

end

theorem Orderly.upTo {front back : List Call} {call : Call}
    (h : Orderly (front ++ call :: back)) : Orderly (front ++ [call]) := by
  rw [List.append_cons] at h
  exact ⟨(List.pairwise_append.mp h.clock).1, fun c hc => h.own c (List.mem_append_left _ hc),
    (List.pairwise_append.mp h.earlier).1⟩

/-- No pair passes twice, what passes is fresh, what is fresh and new passes, and only a stale call
leaves the memory as it was. -/
theorem replay_guard_laws (windowMs : Int64) (calls : List Call) (h : Orderly calls) :
    let guard := ReplayGuard.new windowMs
    ((guard.accepted calls).map Call.entry).Nodup ∧
      (∀ call ∈ guard.accepted calls, Fresh windowMs call) ∧
      ∀ front call back, calls = front ++ call :: back →
        (Fresh windowMs call → (∀ a ∈ guard.accepted front, a.nonce ≠ call.nonce) →
          (guard.after front).verdict call = .ok ()) ∧
        (∀ entry ∈ (guard.after (front ++ [call])).seen,
          ∃ a ∈ guard.accepted (front ++ [call]), a.entry = entry) ∧
        ((guard.after front).verdict call ≠ .error .stale →
          ∀ entry ∈ (guard.after (front ++ [call])).seen,
            (distance call.now entry.2 : Int) ≤ windowMs.toInt) ∧
        ((guard.after front).verdict call = .error .stale →
          guard.after (front ++ [call]) = guard.after front) := by
  intro guard
  refine ⟨accepted_nodup h, (recalls windowMs h).fresh, ?_⟩
  rintro front call back rfl
  refine ⟨verdict_ok h.upTo, (recalls windowMs h.upTo).seen, ?_, ?_⟩
  · intro hverdict entry hentry
    exact remembered_fresh h.upTo hentry hverdict
  · intro hverdict
    rw [after_append]
    exact remembered_stale hverdict

/-- A message, its replay, and one from a clock that is far ahead. -/
def replayed : List Call := [⟨"a", 0, 0⟩, ⟨"a", 0, 10⟩, ⟨"b", 100000, 20⟩]

theorem replay_guard_laws_replayed :
    Orderly replayed ∧
      (((ReplayGuard.new 30000).accepted replayed).map Call.entry).Nodup ∧
      (ReplayGuard.new 30000).accepted replayed = [⟨"a", 0, 0⟩] := by
  have h : Orderly replayed := ⟨by decide, by decide, by decide⟩
  exact ⟨h, (replay_guard_laws 30000 replayed h).1, by decide⟩

/-- A stale call returns before the guard is pruned, so the nonce of a message that is out of the
window stays. And the one difference that has no absolute value counts as fresh. -/
theorem remembered_out_of_window :
    (Orderly [⟨"a", 0, 0⟩, ⟨"b", 0, 100000⟩] ∧
      ∃ entry ∈ ((ReplayGuard.new 30000).after [⟨"a", 0, 0⟩, ⟨"b", 0, 100000⟩]).seen,
        (30000 : Int) < distance 100000 entry.2) ∧
      (ReplayGuard.new 30000).accepted [⟨"a", 9223372036854775807, -1⟩] =
        [⟨"a", 9223372036854775807, -1⟩] :=
  ⟨⟨⟨by decide, by decide, by decide⟩, by decide⟩, by decide⟩

end Climon.Remote.ReplayWindow
