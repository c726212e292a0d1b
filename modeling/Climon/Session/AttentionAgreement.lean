import Climon.Session.AttentionView

namespace Climon.Session.AttentionAgreement

open Climon.Lib.Transition Climon.Proto.Frame Climon.Proto.Meta Climon.Session.Host
  Climon.Session.Idle Climon.Session.AttentionView

/-!
# Three copies of one bit

The detector, the host and the store each keep whether the session needs attention. Here the host
runs beside the stored status, which other processes write as well.
-/

variable {G : Type}

/-! ## The system -/

/-- `persisted` is the last status this host wrote. -/
structure AttentionHost (G : Type) where
  host : HostState G
  stored : SessionStatus
  persisted : Option SessionStatus

/-- A critical section, with whether its patches reach the disk, or an edit from elsewhere. -/
inductive AttentionEvent where
  | locked (e : Event) (written : Bool)
  | edited (status : SessionStatus)
  deriving DecidableEq, Repr

/-- The statuses among the patches a section makes. -/
def statuses (s t : HostState G) : List SessionStatus :=
  (t.patches.drop s.patches.length).filterMap (·.status)

def AttentionHost.after (s : AttentionHost G) (t : HostState G) (written : Bool) :
    AttentionHost G :=
  match if written then (statuses s.host t).getLast? else none with
  | some status => ⟨t, status, some status⟩
  | none => { s with host := t }

/-- What an event's locked read of the store finds. -/
def storedRead : Event → Option SessionStatus
  | .frame _ _ stored => stored
  | .idleSample stored => stored
  | _ => none

inductive AttentionStep (env : HostEnv G) :
    AttentionHost G → AttentionEvent → AttentionHost G → Prop where
  | locked {s : AttentionHost G} {e : Event} {t : HostState G} (written : Bool) :
      storedRead e = none ∨ storedRead e = some s.stored → Step env s.host e t →
      AttentionStep env s (.locked e written) (s.after t written)
  | edited {s : AttentionHost G} (status : SessionStatus) :
      AttentionStep env s (.edited status) { s with stored := status }

/-- The schedule of a deterministic run. -/
def attentionNext (env : HostEnv G) (s : AttentionHost G) :
    AttentionEvent → Option (AttentionHost G)
  | .locked e written =>
    if storedRead e = none ∨ storedRead e = some s.stored then
      (next env s.host e).map fun t => s.after t written
    else none
  | .edited status => some { s with stored := status }

theorem attentionStep_of_next {env : HostEnv G} {s t : AttentionHost G} {e : AttentionEvent}
    (h : attentionNext env s e = some t) : AttentionStep env s e t := by
  cases e with
  | locked e written =>
    simp only [attentionNext, Option.ite_none_right_eq_some] at h
    obtain ⟨hread, hnext⟩ := h
    obtain ⟨t, ht, rfl⟩ := Option.map_eq_some_iff.mp hnext
    exact .locked written hread (step_of_next ht)
  | edited status =>
    cases h
    exact .edited status

/-- The patch that marks the session running leaves a paused one paused. -/
def markRunningPatch (current : SessionStatus) (pid : Option UInt32) : SessionMetaPatch :=
  if current = .paused then { daemonPid := pid, priorityReason := some .running }
  else { status := some .running, priorityReason := some .running, daemonPid := pid }

def attentionInitial (env : HostEnv G) (launch : Launch) (cols rows : UInt16) (idleSeconds : Int)
    (snippetEnabled : Bool) (stored : SessionStatus) (pid : Option UInt32) (marked : Bool) :
    AttentionHost G :=
  let host := initialState env launch cols rows idleSeconds snippetEnabled
  match if marked then (markRunningPatch stored pid).status else none with
  | some status => ⟨host, status, some status⟩
  | none => ⟨host, stored, none⟩

/-! ## What the sections do -/

def flagged (s : HostState G) : Prop := s.idleDetector.flagged = true

/-- The detector stays as it is, goes back to running, or flags the screen. -/
theorem update_cases (d : ScreenIdleDetector) (fp : String) (now : Int) :
    (∃ d', d.update fp now = (none, d') ∧ d'.flagged = d.flagged ∧ (Armed d → Armed d')) ∨
    (∃ reason d', d.update fp now = (some ⟨false, reason⟩, d') ∧ d'.flagged = false) ∨
    ∃ reason d', d.update fp now = (some ⟨true, reason⟩, d') ∧ d.flagged = false ∧
      d'.flagged = true ∧ Armed d' := by
  unfold ScreenIdleDetector.update
  split
  · exact .inl ⟨d, rfl, rfl, id⟩
  next hidle =>
    have hon : 0 < d.idleMs := by omega
    split
    · exact .inl ⟨_, rfl, rfl, fun _ => ⟨hon, nofun⟩⟩
    dsimp only
    split
    · split
      · exact .inl ⟨_, rfl, rfl, fun _ => ⟨hon, nofun⟩⟩
      · cases hactive : d.flagged || d.acknowledged with
        | true => exact .inr (.inl ⟨_, _, rfl, rfl⟩)
        | false =>
          have hquiet : d.flagged = false := by simp_all
          exact .inl ⟨_, rfl, hquiet.symm, fun _ => ⟨hon, nofun⟩⟩
    · split
      · exact .inl ⟨_, rfl, rfl, fun _ => ⟨hon, nofun⟩⟩
      · split
        · next hflags =>
          have hquiet : d.flagged = false := by simpa using hflags.1
          exact .inr (.inr ⟨_, _, rfl, hquiet, rfl, hon, nofun⟩)
        · exact .inl ⟨_, rfl, rfl, fun _ => ⟨hon, nofun⟩⟩

theorem accepted_last {last : Option Bool} {matchedAt token flaggedFp : Option String} {fp : String}
    (h : shouldApplyUserAttentionAcknowledgement last matchedAt token flaggedFp fp = true) :
    last = some true := by
  unfold shouldApplyUserAttentionAcknowledgement at h
  split at h
  · cases h
  · next hnamed =>
    by_contra hne
    exact hnamed (.inl hne)

theorem acknowledge_flagged {d : ScreenIdleDetector} (h : Armed d) (fp : String) (now : Int) :
    (d.acknowledge fp now).flagged = false := by
  have hon : ¬ (d.idleMs ≤ 0 ∨ d.lastFingerprint = none) := by
    rintro (hoff | hunseen)
    · have hpositive := h.1
      omega
    · exact h.2 hunseen
  unfold ScreenIdleDetector.acknowledge
  rw [if_neg hon]

theorem statuses_append {s t : HostState G} {new : List SessionMetaPatch}
    (h : t.patches = s.patches ++ new) : statuses s t = new.filterMap (·.status) := by
  unfold statuses
  rw [h, List.drop_left]

theorem filterMap_status {new : List SessionMetaPatch} (h : ∀ patch ∈ new, Unmarked patch) :
    new.filterMap (·.status) = [] :=
  List.filterMap_eq_nil_iff.mpr fun patch hpatch => (h patch hpatch).1

theorem statuses_quiet {s t : HostState G} (h : Quiet s t) : statuses s t = [] := by
  obtain ⟨new, hnew, hstatus⟩ := h.patches
  rw [statuses_append hnew, filterMap_status hstatus]

/-- The attention was cleared by the detector or by an accepted acknowledgement. -/
structure Clears (s t : HostState G) (stored : Option SessionStatus) : Prop where
  last : t.lastAttentionState = some false
  flagged : t.idleDetector.flagged = false
  exited : t.exited = s.exited
  patches : ∃ new status, t.patches = s.patches ++ new ∧ status ≠ .needsAttention ∧
    new.filterMap (·.status) = (stored.map fun _ => status).toList

theorem Clears.then_quiet {s t u : HostState G} {stored : Option SessionStatus}
    (h : Clears s t stored) (k : Quiet t u) : Clears s u stored where
  last := k.last.trans h.last
  flagged := k.flagged.trans h.flagged
  exited := k.exited.trans h.exited
  patches := by
    obtain ⟨new, status, hnew, hstatus, hstatuses⟩ := h.patches
    obtain ⟨later, hlater, hquiet⟩ := k.patches
    refine ⟨new ++ later, status, by rw [hlater, hnew, List.append_assoc], hstatus, ?_⟩
    rw [List.filterMap_append, hstatuses, filterMap_status hquiet, List.append_nil]

theorem clearedStatus_ne (current : SessionStatus) (byUser : Bool) :
    (if current = .paused then SessionStatus.paused
      else if byUser then .acknowledged else .running) ≠ .needsAttention := by
  split
  · nofun
  · split <;> nofun

theorem clear_clears (env : HostEnv G) {s : HostState G} (hrunning : s.exited = false)
    (hflagged : s.idleDetector.flagged = false) (reason : Option String) (fp : String)
    (stored : Option SessionStatus) :
    Clears s (s.applyAttention env ⟨false, reason, none⟩ .detector fp stored) stored := by
  unfold HostState.applyAttention
  rw [if_neg (by simp [hrunning]), if_pos (by simp), if_neg (by simp)]
  cases stored with
  | none => exact ⟨rfl, hflagged, rfl, [], .running, (List.append_nil _).symm, nofun, rfl⟩
  | some status => exact ⟨rfl, hflagged, rfl, _, _, rfl, clearedStatus_ne status false, rfl⟩

theorem acknowledge_clears (env : HostEnv G) {s : HostState G} (hrunning : s.exited = false)
    (harmed : Armed s.idleDetector) {payload : AttentionPayload}
    (hpayload : payload.needsAttention = false) {fp : String}
    (haccepted : shouldApplyUserAttentionAcknowledgement s.lastAttentionState
      s.currentAttentionMatchedAt payload.attentionMatchedAt s.currentAttentionFingerprint fp = true)
    (stored : Option SessionStatus) :
    Clears s (s.applyAttention env payload .user fp stored) stored := by
  have hflagged := acknowledge_flagged harmed fp s.nowMs
  unfold HostState.applyAttention
  rw [if_neg (by simp [hrunning]), if_pos (by simp [hpayload]), if_neg (by simp [haccepted])]
  cases stored with
  | none => exact ⟨rfl, hflagged, rfl, [], .running, (List.append_nil _).symm, nofun, rfl⟩
  | some status => exact ⟨rfl, hflagged, rfl, _, _, rfl, clearedStatus_ne status true, rfl⟩

theorem acknowledge_refused (env : HostEnv G) {s : HostState G} {payload : AttentionPayload}
    (hpayload : payload.needsAttention = false) {fp : String}
    (hrefused : shouldApplyUserAttentionAcknowledgement s.lastAttentionState
      s.currentAttentionMatchedAt payload.attentionMatchedAt s.currentAttentionFingerprint fp = false)
    (stored : Option SessionStatus) : s.applyAttention env payload .user fp stored = s := by
  unfold HostState.applyAttention
  split
  · rfl
  · rw [if_pos (by simp [hpayload]), if_pos ⟨rfl, by simp [hrefused]⟩]

/-- The host took notice of a flag of the detector. -/
structure Flags (s t : HostState G) : Prop where
  last : t.lastAttentionState = some true
  exited : t.exited = s.exited
  patches : ∃ new, t.patches = s.patches ++ new ∧ new.filterMap (·.status) = [.needsAttention]

/-- A flag is recorded when the store is found unpaused. -/
theorem flag_recorded (env : HostEnv G) {s : HostState G} (hrunning : s.exited = false)
    (hlast : s.lastAttentionState ≠ some true) (reason : Option String) (fp : String)
    {stored : SessionStatus} (hstored : stored ≠ .paused) :
    Flags s (s.applyAttention env ⟨true, reason, none⟩ .detector fp (some stored)) ∧
      (s.applyAttention env ⟨true, reason, none⟩ .detector fp (some stored)).idleDetector =
        s.idleDetector := by
  unfold HostState.applyAttention
  rw [if_neg (by simp [hrunning]), if_neg (by simp), if_neg hlast]
  cases stored with
  | paused => exact absurd rfl hstored
  | _ => exact ⟨⟨rfl, rfl, _, rfl, rfl⟩, rfl⟩

theorem flag_refused (env : HostEnv G) (s : HostState G) (reason : Option String) (fp : String)
    {stored : Option SessionStatus} (hstored : stored = none ∨ stored = some .paused) :
    s.applyAttention env ⟨true, reason, none⟩ .detector fp stored = s := by
  unfold HostState.applyAttention
  split
  · rfl
  · rw [if_neg (by simp)]
    split
    · rfl
    · rcases hstored with rfl | rfl <;> rfl

/-! ## Agreement -/

structure Agree (s : AttentionHost G) : Prop where
  host : s.host.idleDetector.flagged = true ↔ s.host.lastAttentionState = some true
  store : s.host.lastAttentionState = some true ↔ s.persisted = some .needsAttention

/-- The detector flagged a screen while the session was paused, so nobody else took notice. -/
structure Refused (s : AttentionHost G) : Prop where
  paused : s.stored = .paused
  flagged : s.host.idleDetector.flagged = true
  last : s.host.lastAttentionState ≠ some true
  persisted : s.persisted ≠ some .needsAttention

/-- The patch finds the session's metadata and reaches the disk. -/
def Reaches (stored : Option SessionStatus) (written : Bool) : Prop :=
  stored.isSome = true ∧ written = true

/-- Flags are written unless the session is paused, clearing the attention is written, clients only
acknowledge, and the session is not unpaused while a refused flag is up. -/
def Delivered (env : HostEnv G) (s : AttentionHost G) : AttentionEvent → Prop
  | .locked (.idleSample stored) written =>
    ∀ transition,
      (s.host.idleDetector.update (env.fingerprint s.host.grid) s.host.nowMs).1 = some transition →
      (if transition.needsAttention then s.stored ≠ .paused
        else s.persisted = some .needsAttention) →
      Reaches stored written
  | .locked (.frame _ (.attention payload) stored) written =>
    payload.needsAttention = false ∧ (s.persisted = some .needsAttention →
      shouldApplyUserAttentionAcknowledgement s.host.lastAttentionState
        s.host.currentAttentionMatchedAt payload.attentionMatchedAt
        s.host.currentAttentionFingerprint (env.fingerprint s.host.grid) = true →
      Reaches stored written)
  | .edited status =>
    s.stored = .paused → status ≠ .paused → s.host.idleDetector.flagged = true →
      s.host.lastAttentionState = some true
  | _ => True

structure Attending (s : AttentionHost G) : Prop where
  armed : s.host.idleDetector.flagged = true → Armed s.host.idleDetector
  agree : Agree s ∨ Refused s

theorem after_host (s : AttentionHost G) (t : HostState G) (written : Bool) :
    (s.after t written).host = t := by
  unfold AttentionHost.after
  split <;> rfl

theorem after_quiet (s : AttentionHost G) {t : HostState G} (h : statuses s.host t = [])
    (written : Bool) : s.after t written = { s with host := t } := by
  unfold AttentionHost.after
  rw [h, List.getLast?_nil, ite_self]

theorem Clears.agree {s : AttentionHost G} {t : HostState G} {stored : Option SessionStatus}
    (h : Clears s.host t stored) {written : Bool}
    (hreaches : s.persisted = some .needsAttention → Reaches stored written) :
    Agree (s.after t written) := by
  have hpersisted : (s.after t written).persisted ≠ some .needsAttention := by
    obtain ⟨new, status, hnew, hstatus, hstatuses⟩ := h.patches
    unfold AttentionHost.after
    rw [statuses_append hnew, hstatuses]
    split
    · next written' hlast =>
      cases stored with
      | none => simp at hlast
      | some found =>
        have heq : status = written' := by simp_all
        exact fun hsame => hstatus (heq.trans (Option.some.inj hsame))
    · next hlast =>
      intro hsame
      obtain ⟨hfound, hwritten⟩ := hreaches hsame
      obtain ⟨found, rfl⟩ := Option.isSome_iff_exists.mp hfound
      rw [if_pos hwritten] at hlast
      cases hlast
  refine ⟨?_, ?_⟩
  · rw [after_host, h.flagged, h.last]
    exact ⟨nofun, nofun⟩
  · rw [after_host, h.last]
    exact ⟨nofun, fun hstored => absurd hstored hpersisted⟩

theorem Flags.agree {s : AttentionHost G} {t : HostState G} (h : Flags s.host t)
    (hflagged : t.idleDetector.flagged = true) : Agree (s.after t true) := by
  have hpersisted : (s.after t true).persisted = some .needsAttention := by
    obtain ⟨new, hnew, hstatuses⟩ := h.patches
    unfold AttentionHost.after
    rw [statuses_append hnew, hstatuses]
    rfl
  refine ⟨?_, ?_⟩
  · rw [after_host]
    exact ⟨fun _ => h.last, fun _ => hflagged⟩
  · rw [after_host]
    exact ⟨fun _ => hpersisted, fun _ => h.last⟩

/-- A section that changes neither copy and writes no status. -/
theorem Attending.keep {s : AttentionHost G} {t : HostState G} (h : Attending s)
    (hflagged : t.idleDetector.flagged = s.host.idleDetector.flagged)
    (harmed : Armed s.host.idleDetector → Armed t.idleDetector)
    (hlast : t.lastAttentionState = s.host.lastAttentionState)
    (hstatuses : statuses s.host t = []) (written : Bool) : Attending (s.after t written) := by
  rw [after_quiet s hstatuses]
  refine ⟨fun hnow => harmed (h.armed (hflagged ▸ hnow)), ?_⟩
  rcases h.agree with hagree | hrefused
  · refine .inl ⟨?_, ?_⟩
    · rw [hflagged, hlast]
      exact hagree.host
    · rw [hlast]
      exact hagree.store
  · exact .inr ⟨hrefused.paused, hflagged.trans hrefused.flagged, hlast ▸ hrefused.last,
      hrefused.persisted⟩

theorem Attending.quiet {s : AttentionHost G} {t : HostState G} (h : Attending s)
    (hquiet : Quiet s.host t) (written : Bool) : Attending (s.after t written) :=
  h.keep hquiet.flagged hquiet.armed hquiet.last (statuses_quiet hquiet) written

theorem Attending.cleared {s : AttentionHost G} {t : HostState G} {stored : Option SessionStatus}
    (h : Clears s.host t stored) {written : Bool}
    (hreaches : s.persisted = some .needsAttention → Reaches stored written) :
    Attending (s.after t written) := by
  refine ⟨fun hflagged => ?_, .inl (h.agree hreaches)⟩
  rw [after_host, h.flagged] at hflagged
  cases hflagged

/-- The detector's flag is up only if the host knows, or it was refused. -/
theorem Attending.last_of_unflagged {s : AttentionHost G} (h : Attending s)
    (hflagged : s.host.idleDetector.flagged = false) :
    s.host.lastAttentionState ≠ some true ∧ s.persisted ≠ some .needsAttention := by
  rcases h.agree with hagree | hrefused
  · have hlast : s.host.lastAttentionState ≠ some true := by
      intro hlast
      rw [hagree.host.mpr hlast] at hflagged
      cases hflagged
    exact ⟨hlast, fun hpersisted => hlast (hagree.store.mpr hpersisted)⟩
  · rw [hrefused.flagged] at hflagged
    cases hflagged

theorem Attending.idleSample {env : HostEnv G} {s : AttentionHost G} (h : Attending s)
    (hrunning : s.host.exited = false) {stored : Option SessionStatus} {written : Bool}
    (hread : stored = none ∨ stored = some s.stored)
    (hdelivered : Delivered env s (.locked (.idleSample stored) written)) :
    Attending (s.after (s.host.idleSample env stored) written) := by
  unfold HostState.idleSample
  rw [if_neg (by simp [hrunning])]
  dsimp only
  rcases update_cases s.host.idleDetector (env.fingerprint s.host.grid) s.host.nowMs with
    ⟨d, hupdate, hflagged, harmed⟩ | ⟨reason, d, hupdate, hflagged⟩ |
      ⟨reason, d, hupdate, hbefore, hflagged, harmed⟩
  · rw [hupdate]
    exact h.keep (t := { s.host with idleDetector := d }) hflagged harmed rfl
      (statuses_append (List.append_nil _).symm) written
  · have hreaches := hdelivered ⟨false, reason⟩ (congrArg Prod.fst hupdate)
    rw [hupdate]
    have hclears := clear_clears env (s := { s.host with idleDetector := d }) hrunning hflagged
      reason (env.fingerprint s.host.grid) stored
    exact Attending.cleared (s := s) ⟨hclears.last, hclears.flagged, hclears.exited, hclears.patches⟩
      hreaches
  · have hreaches := hdelivered ⟨true, reason⟩ (congrArg Prod.fst hupdate)
    obtain ⟨hlast, hpersisted⟩ := h.last_of_unflagged hbefore
    rw [hupdate]
    by_cases hpaused : s.stored = .paused
    · dsimp only
      rw [flag_refused env _ reason _ (hpaused ▸ hread),
        after_quiet s (t := { s.host with idleDetector := d })
          (statuses_append (List.append_nil _).symm)]
      exact ⟨fun _ => harmed, .inr ⟨hpaused, hflagged, hlast, hpersisted⟩⟩
    · obtain ⟨hfound, rfl⟩ := hreaches hpaused
      have hstored : stored = some s.stored := by
        refine hread.resolve_left fun hnone => ?_
        rw [hnone] at hfound
        cases hfound
      subst hstored
      dsimp only
      generalize hflag : HostState.applyAttention env { s.host with idleDetector := d }
        ⟨true, reason, none⟩ .detector (env.fingerprint s.host.grid) (some s.stored) = t
      have hrecorded : Flags { s.host with idleDetector := d } t ∧ t.idleDetector = d := by
        rw [← hflag]
        exact flag_recorded env (s := { s.host with idleDetector := d }) hrunning hlast reason _
          hpaused
      obtain ⟨hflags, hdetector⟩ := hrecorded
      have hagree : Agree (s.after t true) :=
        Flags.agree ⟨hflags.last, hflags.exited, hflags.patches⟩ (by rw [hdetector, hflagged])
      refine ⟨fun _ => ?_, .inl hagree⟩
      rw [after_host, hdetector]
      exact harmed

theorem Attending.acknowledge {env : HostEnv G} {s : AttentionHost G} (h : Attending s)
    (hrunning : s.host.exited = false) (n : ClientId) {payload : AttentionPayload}
    {stored : Option SessionStatus} {written : Bool}
    (hdelivered : Delivered env s (.locked (.frame n (.attention payload) stored) written)) :
    Attending
      (s.after (s.host.handleFrame env n stored (.attention payload)) written) := by
  obtain ⟨hpayload, hreaches⟩ := hdelivered
  simp only [HostState.handleFrame]
  cases haccepted : shouldApplyUserAttentionAcknowledgement s.host.lastAttentionState
      s.host.currentAttentionMatchedAt payload.attentionMatchedAt
      s.host.currentAttentionFingerprint (env.fingerprint s.host.grid) with
  | false =>
    rw [acknowledge_refused env hpayload haccepted]
    exact h.quiet (writeInitialFrames_quiet _ n) written
  | true =>
    have hlast := accepted_last haccepted
    have hagree : Agree s := h.agree.resolve_right fun hrefused => hrefused.last hlast
    have harmed := h.armed (hagree.host.mpr hlast)
    refine Attending.cleared ((acknowledge_clears env hrunning harmed hpayload haccepted
      stored).then_quiet (writeInitialFrames_quiet _ n)) fun hpersisted => ?_
    exact hreaches hpersisted haccepted

theorem Attending.handle {env : HostEnv G} {s : AttentionHost G} (h : Attending s)
    (hrunning : s.host.exited = false) {e : Event} {written : Bool}
    (hread : storedRead e = none ∨ storedRead e = some s.stored)
    (hdelivered : Delivered env s (.locked e written))
    (hlater : (handle env s.host e).exited = false) :
    Attending (s.after (handle env s.host e) written) := by
  cases hattentive : attentive e with
  | false => exact h.quiet (handle_quiet env s.host hattentive) written
  | true =>
    cases e with
    | idleSample stored => exact h.idleSample hrunning hread hdelivered
    | exit exitCode =>
      exact absurd (hlater.symm.trans (teardown_exited env s.host exitCode)) nofun
    | frame n frame stored =>
      cases frame with
      | attention payload => exact h.acknowledge hrunning n hdelivered
      | _ => cases hattentive
    | _ => cases hattentive

/-! ## Runs -/

theorem attending_step {env : HostEnv G} {s t : AttentionHost G} {e : AttentionEvent}
    (h : s.host.exited = false → Attending s)
    (hstep : Guarded (Delivered env) (AttentionStep env) s e t) :
    t.host.exited = false → Attending t := by
  obtain ⟨hdelivered, hstep⟩ := hstep
  cases hstep with
  | @locked e t written hread hlocked =>
    obtain ⟨-, clients, -, rfl⟩ := hlocked
    intro hlater
    rw [after_host] at hlater
    have hrunning : s.host.exited = false := by
      cases hexited : s.host.exited with
      | false => rfl
      | true =>
        rw [handle_exited env (s := { s.host with clients := clients }) hexited e] at hlater
        cases hlater
    have hpermuted : Attending { s with host := { s.host with clients := clients } } := by
      obtain ⟨harmed, hagree | hrefused⟩ := h hrunning
      · exact ⟨harmed, .inl ⟨hagree.host, hagree.store⟩⟩
      · exact ⟨harmed, .inr ⟨hrefused.paused, hrefused.flagged, hrefused.last,
          hrefused.persisted⟩⟩
    exact hpermuted.handle hrunning hread hdelivered hlater
  | edited status =>
    intro hrunning
    obtain ⟨harmed, hagree | hrefused⟩ := h hrunning
    · exact ⟨harmed, .inl ⟨hagree.host, hagree.store⟩⟩
    · refine ⟨harmed, .inr ⟨?_, hrefused.flagged, hrefused.last, hrefused.persisted⟩⟩
      by_contra hunpaused
      exact hrefused.last (hdelivered hrefused.paused hunpaused hrefused.flagged)

theorem attentionInitial_attending (env : HostEnv G) (launch : Launch) (cols rows : UInt16)
    (idleSeconds : Int) (snippetEnabled : Bool) (stored : SessionStatus) (pid : Option UInt32)
    (marked : Bool) :
    Attending
      (attentionInitial env launch cols rows idleSeconds snippetEnabled stored pid marked) := by
  have hstatus : ∀ status,
      (if marked then (markRunningPatch stored pid).status else none) = some status →
        status ≠ .needsAttention := by
    intro status hmarked
    unfold markRunningPatch at hmarked
    split at hmarked
    · split at hmarked <;> cases hmarked
      nofun
    · cases hmarked
  unfold attentionInitial
  dsimp only
  split
  · next status hmarked =>
    refine ⟨nofun, .inl ⟨⟨nofun, nofun⟩, nofun, fun hsame => ?_⟩⟩
    exact absurd (Option.some.inj hsame) (hstatus status hmarked)
  · exact ⟨nofun, .inl ⟨⟨nofun, nofun⟩, nofun, nofun⟩⟩

/-- While the host runs and the session is not paused, the detector's flag, the host's and the
status the host wrote last agree. -/
theorem attention_agrees (env : HostEnv G) (launch : Launch) (cols rows : UInt16)
    (idleSeconds : Int) (snippetEnabled : Bool) (stored : SessionStatus) (pid : Option UInt32)
    (marked : Bool) (es : List AttentionEvent) (s : AttentionHost G)
    (run : Run (Guarded (Delivered env) (AttentionStep env))
      (attentionInitial env launch cols rows idleSeconds snippetEnabled stored pid marked) es s)
    (hrunning : s.host.exited = false) (hunpaused : s.stored ≠ .paused) :
    (s.host.idleDetector.flagged = true ↔ s.host.lastAttentionState = some true) ∧
      (s.host.lastAttentionState = some true ↔ s.persisted = some .needsAttention) := by
  have hattending := run.invariant (I := fun s => s.host.exited = false → Attending s)
    (fun h hstep => attending_step h hstep)
    (fun _ => attentionInitial_attending env launch cols rows idleSeconds snippetEnabled stored pid
      marked) hrunning
  have hagree : Agree s := hattending.agree.resolve_right fun hrefused => hunpaused hrefused.paused
  exact ⟨hagree.host, hagree.store⟩

/-- A screen stays the same for ten seconds, and the flag is written. -/
def idle : List AttentionEvent :=
  [.locked (.idleSample (some .running)) true, .locked (.clock 10000) true,
    .locked (.idleSample (some .running)) true]

theorem attention_agrees_idle : ∃ s,
    exec (attentionNext plainEnv)
        (attentionInitial plainEnv .headless 80 24 10 false .running none true) idle = some s ∧
      s.host.lastAttentionState = some true ∧ s.persisted = some .needsAttention := by
  refine ⟨_, rfl, rfl, ?_⟩
  refine (attention_agrees plainEnv .headless 80 24 10 false .running none true idle _
    (.cons ⟨fun _ _ _ => ⟨rfl, rfl⟩, attentionStep_of_next rfl⟩
      (.cons ⟨trivial, attentionStep_of_next rfl⟩
        (.cons ⟨fun _ _ _ => ⟨rfl, rfl⟩, attentionStep_of_next rfl⟩ (.nil _)))) rfl nofun).2.mp rfl

/-- The same while the session is paused, which is then unpaused and stays idle. -/
def idleWhilePaused : List AttentionEvent :=
  [.edited .paused, .locked (.idleSample (some .paused)) true, .locked (.clock 10000) true,
    .locked (.idleSample (some .paused)) true, .edited .running, .locked (.clock 60000) true,
    .locked (.idleSample (some .running)) true]

/-- The detector thinks it has flagged the screen, and neither the host nor the store ever hears of
it. -/
theorem paused_flag_lost : ∃ s,
    exec (attentionNext plainEnv)
        (attentionInitial plainEnv .headless 80 24 10 false .running none true) idleWhilePaused =
          some s ∧
      s.host.exited = false ∧ s.stored ≠ .paused ∧ s.host.idleDetector.flagged = true ∧
      s.host.lastAttentionState ≠ some true ∧ s.persisted ≠ some .needsAttention :=
  ⟨_, rfl, rfl, nofun, rfl, nofun, nofun⟩

end Climon.Session.AttentionAgreement
