import Climon.Remote.Ingest
import Climon.Session.KillRuns
import Climon.Session.TerminalRecord

namespace Climon.Session.OutcomeRuns

open Climon.Lib.JsonValue Climon.Lib.Transition Climon.Proto.Meta Climon.Remote.Ingest
  Climon.Remote.Sanitize Climon.Session.AttentionView Climon.Session.Host
  Climon.Session.HostProcess Climon.Store.Meta
open Climon.Session.KillRuns (failedPatch)
open Climon.Store.PatchRuns (sampleMeta)

/-!
# Everyone who writes one session's metadata

A session has its own host, or it is the mirror of a remote one. Beside that, sweeps mark sessions
disconnected from a snapshot they have read before, and users edit, pause, kill and delete.
-/

variable {G : Type}

abbrev PassId := Nat

/-! ## Sweeps -/

/-- The three places that decide on a snapshot and then patch without a second look. -/
inductive Sweep where
  | cleanupStaleSessions
  | reconcile
  | reconcileStaleRemoteSessions
  deriving DecidableEq, Repr

def isLive : SessionStatus → Bool
  | .running | .acknowledged | .needsAttention | .paused => true
  | _ => false

/-- A local session without a live pid and a socket that answers; a pid of zero counts as none. -/
def shouldMarkDisconnected (sessionMeta : SessionMeta) (isProcessAlive probe : Bool) : Bool :=
  if ¬ isLive sessionMeta.status then false
  else if sessionMeta.origin = some .remote then false
  else
    let pidAlive := (sessionMeta.daemonPid.any (· ≠ 0)) && isProcessAlive
    let socketOk := pidAlive && probe
    !socketOk

def Sweep.marks (sweep : Sweep) (sessionMeta : SessionMeta) (isProcessAlive probe : Bool) : Bool :=
  match sweep with
  | .cleanupStaleSessions => shouldMarkDisconnected sessionMeta isProcessAlive probe
  | .reconcile =>
    sessionMeta.origin ≠ some .remote && isLive sessionMeta.status &&
      sessionMeta.daemonPid.isSome && !isProcessAlive
  | .reconcileStaleRemoteSessions =>
    sessionMeta.origin = some .remote && isLive sessionMeta.status

/-! ## Mirrors and users -/

/-- What ingest does to the file of a mirrored session. -/
inductive MirrorEvent where
  | materialise (advertised : Json) (label localId socketPath now : String)
  | sessionAdded (advertised : Json) (now : String)
  | sessionUpdated (patch : Json)
  | disconnected

/-- A patch of the file as it is under the lock. -/
def patchFile (file : Option SessionMeta) (patch : SessionMetaPatch) : Option SessionMeta :=
  file.map fun sessionMeta => mergePatch (applyUserPausedOverlay sessionMeta) patch

def advertisedPatch (advertised : Json) (now : String) : SessionMetaPatch :=
  { sanitizeRemotePatch (.object [
      ("status", (advertised.get? "status").getD .null),
      ("priorityReason", (advertised.get? "priorityReason").getD .null)]) with
    lastActivityAt := some now }

def MirrorEvent.apply (file : Option SessionMeta) : MirrorEvent → Option SessionMeta
  | .materialise advertised label localId socketPath now =>
    some (toLocalMeta advertised label localId socketPath now)
  | .sessionAdded advertised now => patchFile file (advertisedPatch advertised now)
  | .sessionUpdated patch => patchFile file (sanitizeRemotePatch patch)
  | .disconnected => patchFile file disconnectedPatch

/-- A user pauses a live session, or resumes a paused one. -/
def allowsTransition (current : SessionStatus) (pause : Bool) : Bool :=
  if pause then isLive current else current == .paused

def browserPatch (pause : Bool) : SessionMetaPatch where
  status := some (if pause then .paused else .running)
  priorityReason := some .running
  userPaused := some pause
  attentionMatchedAt := if pause then none else some none
  attentionReason := if pause then none else some none

/-! ## The system -/

inductive Source (G : Type) where
  | host (process : Process G)
  | mirror

/-- `pending` are the sweeps that have decided to mark the session, and have not yet. -/
structure SharedSession (G : Type) where
  file : Option SessionMeta
  source : Source G
  pending : PassId → Bool

inductive SharedEvent where
  | host (e : ProcessEvent)
  | mirror (e : MirrorEvent)
  | snapshot (pass : PassId) (sweep : Sweep) (isProcessAlive probe : Bool)
  | mark (pass : PassId)
  | browser (pause : Bool)
  | edit (patch : SessionMetaPatch)
  | kill
  | remove

/-- What an updater of the host finds under the lock. -/
def hostRead : ProcessEvent → Option SessionStatus
  | .main (.markRunning stored) => stored
  | .worker (.frame _ _ stored) => stored
  | .worker (.idleSample stored) => stored
  | _ => none

def storedStatus (file : Option SessionMeta) : Option SessionStatus :=
  file.map fun sessionMeta => (applyUserPausedOverlay sessionMeta).status

inductive SharedStep (env : HostEnv G) (sessionMeta : SessionMeta) :
    SharedSession G → SharedEvent → SharedSession G → Prop where
  | host {s : SharedSession G} {p q : Process G} {e : ProcessEvent} :
      s.source = .host p → hostRead e = none ∨ hostRead e = storedStatus s.file →
      ProcessStep env sessionMeta p e q →
      SharedStep env sessionMeta s (.host e)
        { s with
          source := .host q
          file := (q.writes.drop p.writes.length).foldl patchFile s.file }
  | mirror {s : SharedSession G} (e : MirrorEvent) : s.source = .mirror →
      SharedStep env sessionMeta s (.mirror e) { s with file := e.apply s.file }
  | snapshot {s : SharedSession G} {stored : SessionMeta} (pass : PassId) (sweep : Sweep)
      (isProcessAlive probe : Bool) : s.file = some stored →
      SharedStep env sessionMeta s (.snapshot pass sweep isProcessAlive probe)
        { s with
          pending := Function.update s.pending pass
            (sweep.marks (applyUserPausedOverlay stored) isProcessAlive probe) }
  | mark {s : SharedSession G} {pass : PassId} : s.pending pass = true →
      SharedStep env sessionMeta s (.mark pass)
        { s with
          pending := Function.update s.pending pass false
          file := patchFile s.file disconnectedPatch }
  | browser {s : SharedSession G} {current : SessionStatus} (pause : Bool) :
      storedStatus s.file = some current → allowsTransition current pause →
      SharedStep env sessionMeta s (.browser pause)
        { s with file := patchFile s.file (browserPatch pause) }
  | edit {s : SharedSession G} {patch : SessionMetaPatch} : Unmarked patch →
      SharedStep env sessionMeta s (.edit patch) { s with file := patchFile s.file patch }
  | kill {s : SharedSession G} :
      SharedStep env sessionMeta s .kill { s with file := patchFile s.file failedPatch }
  | remove {s : SharedSession G} :
      SharedStep env sessionMeta s .remove { s with file := none }

/-- What the launcher writes has no exit code yet. -/
structure Fresh where
  record : SessionMeta
  noExitCode : record.exitCode = none

def localInitial (fresh : Fresh) : SharedSession G :=
  ⟨some fresh.record, .host processInitial, fun _ => false⟩

/-- A mirror starts without a file, or with the one that an earlier connection left. -/
def mirrorInitial (file : Option SessionMeta) : SharedSession G := ⟨file, .mirror, fun _ => false⟩

/-! ## The promise, and where it is kept -/

/-- A terminal status together with its exit code. -/
def Settled (sessionMeta : SessionMeta) : Prop :=
  sessionMeta.status.isTerminalOutcome = true ∧ sessionMeta.exitCode.isSome = true

def SettledFile (file : Option SessionMeta) : Prop :=
  ∃ sessionMeta, file = some sessionMeta ∧ Settled sessionMeta

/-- A status in the patch is terminal. -/
def Harmless (patch : SessionMetaPatch) : Prop :=
  ∀ status, patch.status = some status → status.isTerminalOutcome = true

/-- The patch has a part of an outcome. -/
def Carries (patch : SessionMetaPatch) : Prop :=
  (∃ status, patch.status = some status ∧ status.isTerminalOutcome = true) ∨
    patch.exitCode.isSome = true

/-- The message keeps the outcome of a settled file. -/
def Keeps : MirrorEvent → Prop
  | .materialise advertised label localId socketPath now =>
    Settled (toLocalMeta advertised label localId socketPath now)
  | .sessionAdded advertised now => Harmless (advertisedPatch advertised now)
  | .sessionUpdated patch => Harmless (sanitizeRemotePatch patch)
  | .disconnected => False

/-- The message has an outcome, or a part of one. -/
def Outcome : MirrorEvent → Prop
  | .materialise advertised label localId socketPath now =>
    Settled (toLocalMeta advertised label localId socketPath now)
  | .sessionAdded advertised now => Carries (advertisedPatch advertised now)
  | .sessionUpdated patch => Carries (sanitizeRemotePatch patch)
  | .disconnected => False

/-- No outcome is written while a sweep is between its snapshot and its patch, and no message of a
connection, nor its end, takes the outcome from a settled mirror. -/
def Timely (s : SharedSession G) : SharedEvent → Prop
  | .host e => Ends e → ∀ pass, s.pending pass = false
  | .mirror e => (Outcome e → ∀ pass, s.pending pass = false) ∧ (SettledFile s.file → Keeps e)
  | .kill => (∃ stored, s.file = some stored ∧ stored.exitCode.isSome = true) →
      ∀ pass, s.pending pass = false
  | _ => True

/-! ## Patches of a file -/

theorem overlay_exitCode (sessionMeta : SessionMeta) :
    (applyUserPausedOverlay sessionMeta).exitCode = sessionMeta.exitCode := by
  unfold applyUserPausedOverlay
  split <;> rfl

/-- The overlay shows an outcome as it is. -/
theorem overlay_terminal (sessionMeta : SessionMeta) :
    (applyUserPausedOverlay sessionMeta).status.isTerminalOutcome =
      sessionMeta.status.isTerminalOutcome := by
  unfold applyUserPausedOverlay
  split
  · rfl
  next h =>
    rw [not_or, not_not] at h
    cases hstatus : sessionMeta.status with
    | completed => exact absurd h.2 (by rw [hstatus]; decide)
    | failed => exact absurd h.2 (by rw [hstatus]; decide)
    | _ => rfl

theorem patched_exitCode (sessionMeta : SessionMeta) (patch : SessionMetaPatch) :
    (mergePatch (applyUserPausedOverlay sessionMeta) patch).exitCode =
      patch.exitCode.or sessionMeta.exitCode := by
  unfold mergePatch
  dsimp only
  rw [overlay_exitCode]

theorem patchFile_some {file : Option SessionMeta} {patch : SessionMetaPatch}
    {written : SessionMeta} (h : patchFile file patch = some written) :
    ∃ stored, file = some stored ∧
      mergePatch (applyUserPausedOverlay stored) patch = written :=
  Option.map_eq_some_iff.mp h

/-- A settled file stays so, or there is no file, under a patch that does no harm. -/
theorem settled_patched {stored : SessionMeta} {patch : SessionMetaPatch} (h : Settled stored)
    (hpatch : Harmless patch) : Settled (mergePatch (applyUserPausedOverlay stored) patch) := by
  constructor
  · unfold mergePatch
    dsimp only
    cases hstatus : patch.status with
    | none => exact (overlay_terminal stored).trans h.1
    | some status => exact hpatch status hstatus
  · rw [patched_exitCode, Option.isSome_or, h.2, Bool.or_true]

/-- A patch without any part of an outcome settles nothing. -/
theorem settled_of_patched {stored : SessionMeta} {patch : SessionMetaPatch}
    (hpatch : ¬ Carries patch)
    (h : Settled (mergePatch (applyUserPausedOverlay stored) patch)) : Settled stored := by
  have hcode : patch.exitCode = none := by
    cases hcode : patch.exitCode with
    | none => rfl
    | some code => exact absurd (.inr (by rw [hcode]; rfl)) hpatch
  have hterminal := h.1
  unfold mergePatch at hterminal
  dsimp only at hterminal
  constructor
  · cases hstatus : patch.status with
    | none =>
      rw [hstatus] at hterminal
      exact (overlay_terminal stored).symm.trans hterminal
    | some status =>
      rw [hstatus] at hterminal
      exact absurd (.inl ⟨status, hstatus, hterminal⟩) hpatch
  · have hsome := h.2
    rwa [patched_exitCode, hcode, Option.none_or] at hsome

theorem unmarked_harmless {patch : SessionMetaPatch} (h : Unmarked patch) : Harmless patch := by
  intro status hstatus
  rw [h.1] at hstatus
  cases hstatus

theorem unmarked_carries {patch : SessionMetaPatch} (h : Unmarked patch) : ¬ Carries patch := by
  rintro (⟨status, hstatus, -⟩ | hcode)
  · rw [h.1] at hstatus
    cases hstatus
  · rw [h.2] at hcode
    cases hcode

theorem live_carries {patch : SessionMetaPatch} (h : Live patch) : ¬ Carries patch := by
  rintro (⟨status, hstatus, hterminal⟩ | hcode)
  · exact absurd ((h.1 status hstatus).symm.trans hterminal) nofun
  · rw [h.2] at hcode
    cases hcode

/-- What one step may do to the file: a settled one stays settled, and one that was not is settled
only where no sweep is pending. -/
structure Heeds (s : SharedSession G) (file : Option SessionMeta) : Prop where
  keeps : ∀ stored written, s.file = some stored → file = some written → Settled stored →
    Settled written
  settles : ∀ written, file = some written → Settled written →
    SettledFile s.file ∨ ∀ pass, s.pending pass = false

theorem heeds_patched {s : SharedSession G} {patch : SessionMetaPatch}
    (hharmless : SettledFile s.file → Harmless patch)
    (hcarries : Carries patch → ∀ stored, s.file = some stored →
      Settled (mergePatch (applyUserPausedOverlay stored) patch) →
      ∀ pass, s.pending pass = false) :
    Heeds s (patchFile s.file patch) := by
  constructor
  · intro stored written hstored hwritten hsettled
    obtain ⟨other, hother, rfl⟩ := patchFile_some hwritten
    rw [hstored] at hother
    cases hother
    exact settled_patched hsettled (hharmless ⟨stored, hstored, hsettled⟩)
  · intro written hwritten hsettled
    obtain ⟨stored, hstored, rfl⟩ := patchFile_some hwritten
    by_cases hpatch : Carries patch
    · exact .inr (hcarries hpatch stored hstored hsettled)
    · exact .inl ⟨stored, hstored, settled_of_patched hpatch hsettled⟩

theorem heeds_uncarried {s : SharedSession G} {patch : SessionMetaPatch}
    (hharmless : SettledFile s.file → Harmless patch) (hpatch : ¬ Carries patch) :
    Heeds s (patchFile s.file patch) :=
  heeds_patched hharmless fun hcarries => absurd hcarries hpatch

theorem heeds_same (s : SharedSession G) : Heeds s s.file := by
  constructor
  · intro stored written hstored hwritten hsettled
    rw [hstored] at hwritten
    cases hwritten
    exact hsettled
  · exact fun written hwritten hsettled => .inl ⟨written, hwritten, hsettled⟩

theorem fold_unmarked {new : List SessionMetaPatch} (hnew : ∀ patch ∈ new, Unmarked patch)
    {file : Option SessionMeta} {written : SessionMeta}
    (h : new.foldl patchFile file = some written) :
    ∃ stored, file = some stored ∧ (Settled stored ↔ Settled written) := by
  induction new generalizing file with
  | nil => exact ⟨written, h, Iff.rfl⟩
  | cons patch rest ih =>
    have hpatch := hnew patch List.mem_cons_self
    obtain ⟨middle, hmiddle, hiff⟩ := ih (fun p hp => hnew p (List.mem_cons_of_mem _ hp)) h
    obtain ⟨stored, hstored, rfl⟩ := patchFile_some hmiddle
    refine ⟨stored, hstored, fun hsettled => ?_, fun hsettled => ?_⟩
    · exact hiff.mp (settled_patched hsettled (unmarked_harmless hpatch))
    · exact settled_of_patched (unmarked_carries hpatch) (hiff.mpr hsettled)

/-- The file has no exit code yet. -/
def NoExitCode (file : Option SessionMeta) : Prop :=
  ∀ stored, file = some stored → stored.exitCode = none

theorem NoExitCode.patched {file : Option SessionMeta} (h : NoExitCode file)
    {patch : SessionMetaPatch} (hpatch : patch.exitCode = none) :
    NoExitCode (patchFile file patch) := by
  intro written hwritten
  obtain ⟨stored, hstored, rfl⟩ := patchFile_some hwritten
  rw [patched_exitCode, hpatch, Option.none_or]
  exact h stored hstored

theorem NoExitCode.fold {new : List SessionMetaPatch}
    (hnew : ∀ patch ∈ new, patch.exitCode = none) {file : Option SessionMeta}
    (h : NoExitCode file) : NoExitCode (new.foldl patchFile file) := by
  induction new generalizing file with
  | nil => exact h
  | cons patch rest ih =>
    exact ih (fun p hp => hnew p (List.mem_cons_of_mem _ hp))
      (h.patched (hnew patch List.mem_cons_self))

theorem NoExitCode.unsettled {file : Option SessionMeta} (h : NoExitCode file)
    {stored : SessionMeta} (hstored : file = some stored) : ¬ Settled stored := by
  intro hsettled
  have hcode := hsettled.2
  rw [h stored hstored] at hcode
  cases hcode

/-! ## Steps -/

/-- Before its end the host has written no exit code, and nobody else writes one to its file; a
sweep that is pending has decided on a file that is not settled. -/
structure OutcomeInv (s : SharedSession G) : Prop where
  placed : ∀ p, s.source = .host p → Placed p
  running : ∀ p, s.source = .host p → p.pc.ended = false → NoExitCode s.file
  settled : SettledFile s.file → ∀ pass, s.pending pass = false

theorem host_heeds {env : HostEnv G} {sessionMeta : SessionMeta} {s : SharedSession G}
    {p q : Process G} {e : ProcessEvent} (h : OutcomeInv s) (hsource : s.source = .host p)
    (htimely : Ends e → ∀ pass, s.pending pass = false)
    (hstep : ProcessStep env sessionMeta p e q) :
    Heeds s ((q.writes.drop p.writes.length).foldl patchFile s.file) := by
  obtain ⟨-, new, hwrites, hnew⟩ := step_writes (h.placed p hsource) hstep
  rw [hwrites, List.drop_left]
  cases hnew with
  | live hs ht hlive =>
    have hnone := h.running p hsource hs
    refine ⟨fun stored written hstored _ hsettled => ?_, fun written hwritten hsettled => ?_⟩
    · exact absurd hsettled (hnone.unsettled hstored)
    · exact absurd hsettled ((hnone.fold fun patch hp => (hlive patch hp).2).unsettled hwritten)
  | final patch hs ht hpatch hfinal =>
    rw [hpatch]
    refine heeds_patched (fun _ status hstatus => ?_) fun _ _ _ _ =>
      htimely (ends_of_step hstep hs ht)
    obtain ⟨⟨other, hother, hterminal⟩, -⟩ := hfinal
    rw [hother] at hstatus
    cases hstatus
    exact hterminal
  | unmarked hended hunmarked =>
    refine ⟨fun stored written hstored hwritten hsettled => ?_,
      fun written hwritten hsettled => ?_⟩
    · obtain ⟨other, hother, hiff⟩ := fold_unmarked hunmarked hwritten
      rw [hstored] at hother
      cases hother
      exact hiff.mp hsettled
    · obtain ⟨other, hother, hiff⟩ := fold_unmarked hunmarked hwritten
      exact .inl ⟨other, hother, hiff.mpr hsettled⟩

theorem mirror_heeds {s : SharedSession G} {e : MirrorEvent}
    (hpending : Outcome e → ∀ pass, s.pending pass = false)
    (hkeeps : SettledFile s.file → Keeps e) : Heeds s (e.apply s.file) := by
  cases e with
  | materialise advertised label localId socketPath now =>
    refine ⟨fun stored written hstored hwritten hsettled => ?_,
      fun written hwritten hsettled => ?_⟩
    · cases hwritten
      exact hkeeps ⟨stored, hstored, hsettled⟩
    · cases hwritten
      exact .inr (hpending hsettled)
  | sessionAdded advertised now => exact heeds_patched hkeeps fun hcarries _ _ _ => hpending hcarries
  | sessionUpdated patch => exact heeds_patched hkeeps fun hcarries _ _ _ => hpending hcarries
  | disconnected =>
    refine heeds_uncarried (fun hsettled => (hkeeps hsettled).elim) ?_
    exact live_carries (live_of_status rfl rfl rfl)

theorem kill_heeds {s : SharedSession G}
    (htimely : (∃ stored, s.file = some stored ∧ stored.exitCode.isSome = true) →
      ∀ pass, s.pending pass = false) : Heeds s (patchFile s.file failedPatch) := by
  refine heeds_patched (fun _ status hstatus => ?_) fun _ stored hstored hsettled => ?_
  · cases hstatus
    rfl
  · have hcode := hsettled.2
    rw [patched_exitCode] at hcode
    exact htimely ⟨stored, hstored, hcode⟩

theorem transition_live {current : SessionStatus} {pause : Bool}
    (h : allowsTransition current pause = true) : current.isTerminalOutcome = false := by
  cases current <;> cases pause <;> first | rfl | exact absurd h (by decide)

/-- A file that a user may pause or resume is not settled. -/
theorem unsettled_of_transition {file : Option SessionMeta} {current : SessionStatus}
    {pause : Bool} (hcurrent : storedStatus file = some current)
    (hallowed : allowsTransition current pause = true) : ¬ SettledFile file := by
  rintro ⟨stored, rfl, hsettled⟩
  have hstatus : (applyUserPausedOverlay stored).status = current := Option.some.inj hcurrent
  have hterminal := (overlay_terminal stored).trans hsettled.1
  rw [hstatus, transition_live hallowed] at hterminal
  cases hterminal

theorem browserPatch_live (pause : Bool) : Live (browserPatch pause) := by
  refine live_of_status rfl ?_ rfl
  cases pause <;> rfl

theorem step_heeds {env : HostEnv G} {sessionMeta : SessionMeta} {s t : SharedSession G}
    {e : SharedEvent} (h : OutcomeInv s)
    (hstep : Guarded Timely (SharedStep env sessionMeta) s e t) : Heeds s t.file := by
  obtain ⟨htimely, hstep⟩ := hstep
  cases hstep with
  | host hsource hread hstep => exact host_heeds h hsource htimely hstep
  | mirror e hsource => exact mirror_heeds htimely.1 htimely.2
  | snapshot => exact heeds_same s
  | @mark pass hpending =>
    refine heeds_uncarried (fun hsettled => ?_) (live_carries (live_of_status rfl rfl rfl))
    exact absurd ((h.settled hsettled pass).symm.trans hpending) nofun
  | browser pause hcurrent hallowed =>
    refine heeds_uncarried (fun hsettled => ?_) (live_carries (browserPatch_live pause))
    exact absurd hsettled (unsettled_of_transition hcurrent hallowed)
  | edit hpatch => exact heeds_uncarried (fun _ => unmarked_harmless hpatch) (unmarked_carries hpatch)
  | kill => exact kill_heeds htimely
  | remove =>
    refine ⟨fun stored written _ hwritten _ => ?_, fun written hwritten _ => ?_⟩
    · cases hwritten
    · cases hwritten

/-- A sweep that reads a settled file leaves it alone. -/
theorem marks_settled {stored : SessionMeta} (h : Settled stored) (sweep : Sweep)
    (isProcessAlive probe : Bool) :
    sweep.marks (applyUserPausedOverlay stored) isProcessAlive probe = false := by
  have hlive : isLive (applyUserPausedOverlay stored).status = false := by
    have hterminal := (overlay_terminal stored).trans h.1
    cases hstatus : (applyUserPausedOverlay stored).status with
    | completed => rfl
    | failed => rfl
    | _ =>
      rw [hstatus] at hterminal
      cases hterminal
  cases sweep with
  | cleanupStaleSessions =>
    unfold Sweep.marks shouldMarkDisconnected
    dsimp only
    rw [if_pos (by simp [hlive])]
  | reconcile => simp [Sweep.marks, hlive]
  | reconcileStaleRemoteSessions => simp [Sweep.marks, hlive]

/-- No sweep decides on this step. -/
theorem heeds_pending {s : SharedSession G} (h : OutcomeInv s) {file : Option SessionMeta}
    (hheeds : Heeds s file) (hsettled : SettledFile file) (pass : PassId) :
    s.pending pass = false := by
  obtain ⟨written, hwritten, hsettled⟩ := hsettled
  rcases hheeds.settles written hwritten hsettled with hbefore | hpending
  · exact h.settled hbefore pass
  · exact hpending pass

/-- A step of another component keeps the host's own invariants. -/
theorem OutcomeInv.patched {s : SharedSession G} (h : OutcomeInv s) {patch : SessionMetaPatch}
    (hcode : patch.exitCode = none) (hheeds : Heeds s (patchFile s.file patch)) :
    OutcomeInv { s with file := patchFile s.file patch } :=
  ⟨h.placed, fun p hp hs => (h.running p hp hs).patched hcode,
    fun hsettled => heeds_pending (s := s) h hheeds hsettled⟩

theorem host_inv {env : HostEnv G} {sessionMeta : SessionMeta} {s : SharedSession G}
    {p q : Process G} {e : ProcessEvent} (h : OutcomeInv s) (hsource : s.source = .host p)
    (hstep : ProcessStep env sessionMeta p e q)
    (hheeds : Heeds s ((q.writes.drop p.writes.length).foldl patchFile s.file)) :
    OutcomeInv { s with
      source := .host q, file := (q.writes.drop p.writes.length).foldl patchFile s.file } := by
  obtain ⟨hplaced, new, hwrites, hnew⟩ := step_writes (h.placed p hsource) hstep
  refine ⟨fun r hr => ?_, fun r hr hrunning => ?_,
    fun hsettled => heeds_pending (s := s) h hheeds hsettled⟩
  · cases hr
    exact hplaced
  · cases hr
    dsimp only
    rw [hwrites, List.drop_left]
    cases hnew with
    | live hs ht hlive =>
      exact (h.running p hsource hs).fold fun patch hp => (hlive patch hp).2
    | final patch hs ht => exact absurd (ht.symm.trans hrunning) nofun
    | unmarked hended hunmarked =>
      exact (h.running p hsource (hended.symm.trans hrunning)).fold fun patch hp =>
        (hunmarked patch hp).2

theorem step_inv {env : HostEnv G} {sessionMeta : SessionMeta} {s t : SharedSession G}
    {e : SharedEvent} (h : OutcomeInv s)
    (hstep : Guarded Timely (SharedStep env sessionMeta) s e t) : OutcomeInv t := by
  have hheeds := step_heeds h hstep
  obtain ⟨htimely, hstep⟩ := hstep
  cases hstep with
  | host hsource hread hstep => exact host_inv h hsource hstep hheeds
  | mirror e hsource =>
    refine ⟨fun p hp => ?_, fun p hp => ?_, fun hsettled => heeds_pending (s := s) h hheeds hsettled⟩
    · exact absurd (hsource.symm.trans hp) nofun
    · exact absurd (hsource.symm.trans hp) nofun
  | @snapshot stored pass sweep isProcessAlive probe hstored =>
    refine ⟨h.placed, h.running, fun hsettled other => ?_⟩
    obtain ⟨found, hfound, hdone⟩ := hsettled
    have hsame : found = stored := Option.some.inj (hfound.symm.trans hstored)
    subst hsame
    dsimp only
    by_cases heq : other = pass
    · rw [heq, Function.update_self]
      exact marks_settled hdone sweep isProcessAlive probe
    · rw [Function.update_of_ne heq]
      exact h.settled ⟨found, hfound, hdone⟩ other
  | @mark pass hpending =>
    have hmarked := h.patched rfl hheeds
    refine ⟨hmarked.placed, hmarked.running, fun hsettled other => ?_⟩
    dsimp only
    by_cases heq : other = pass
    · rw [heq, Function.update_self]
    · rw [Function.update_of_ne heq]
      exact hmarked.settled hsettled other
  | browser pause hcurrent hallowed => exact h.patched rfl hheeds
  | edit hpatch => exact h.patched hpatch.2 hheeds
  | kill => exact h.patched rfl hheeds
  | remove =>
    refine ⟨h.placed, fun p hp hs stored hstored => ?_, fun hsettled => ?_⟩
    · cases hstored
    · obtain ⟨stored, hstored, -⟩ := hsettled
      cases hstored

/-- Where a session starts: with the launcher's record and its host, or as a mirror. -/
inductive Start : SharedSession G → Prop where
  | host (fresh : Fresh) : Start (localInitial fresh)
  | mirror (file : Option SessionMeta) : Start (mirrorInitial file)

theorem start_inv {s : SharedSession G} (h : Start s) : OutcomeInv s := by
  cases h with
  | host fresh =>
    refine ⟨fun p hp => ?_, fun p hp _ stored hstored => ?_, fun _ _ => rfl⟩
    · cases hp
      exact initial_placed
    · cases hstored
      exact fresh.noExitCode
  | mirror file =>
    refine ⟨fun p hp => ?_, fun p hp => ?_, fun _ _ => rfl⟩
    · cases hp
    · cases hp

/-- Only a removal takes the file away. -/
theorem step_some {env : HostEnv G} {sessionMeta : SessionMeta} {s t : SharedSession G}
    {e : SharedEvent} (hstep : SharedStep env sessionMeta s e t) (hremove : e ≠ .remove)
    (h : s.file.isSome = true) : t.file.isSome = true := by
  have hpatched (file : Option SessionMeta) (patch : SessionMetaPatch) :
      (patchFile file patch).isSome = file.isSome := Option.isSome_map
  have hfold (new : List SessionMetaPatch) (file : Option SessionMeta) :
      (new.foldl patchFile file).isSome = file.isSome := by
    induction new generalizing file with
    | nil => rfl
    | cons patch rest ih => rw [List.foldl_cons, ih, hpatched]
  cases hstep with
  | host hsource hread hstep => exact (hfold _ _).trans h
  | mirror e hsource =>
    cases e with
    | materialise => rfl
    | sessionAdded => exact (hpatched _ _).trans h
    | sessionUpdated => exact (hpatched _ _).trans h
    | disconnected => exact (hpatched _ _).trans h
  | snapshot => exact h
  | mark hpending => exact (hpatched _ _).trans h
  | browser pause hcurrent hallowed => exact (hpatched _ _).trans h
  | edit hpatch => exact (hpatched _ _).trans h
  | kill => exact (hpatched _ _).trans h
  | remove => exact absurd rfl hremove

/-- A step other than a removal keeps a settled file settled. -/
theorem step_settled {env : HostEnv G} {sessionMeta : SessionMeta} {s t : SharedSession G}
    {e : SharedEvent} (h : OutcomeInv s)
    (hstep : Guarded Timely (SharedStep env sessionMeta) s e t) (hremove : e ≠ .remove)
    (hsettled : SettledFile s.file) : SettledFile t.file := by
  obtain ⟨stored, hstored, hdone⟩ := hsettled
  have hsome : t.file.isSome = true :=
    step_some hstep.2 hremove (by rw [hstored]; rfl)
  obtain ⟨written, hwritten⟩ := Option.isSome_iff_exists.mp hsome
  exact ⟨written, hwritten, (step_heeds h hstep).keeps stored written hstored hwritten hdone⟩

/-! ## Main result -/

/-- In every timely run, a file that has got a terminal status together with its exit code keeps
both, as long as it is not removed. -/
theorem outcome_absorbing (env : HostEnv G) (sessionMeta : SessionMeta)
    (start s t : SharedSession G) (hstart : Start start) (es fs : List SharedEvent)
    (before : Run (Guarded Timely (SharedStep env sessionMeta)) start es s)
    (hsettled : SettledFile s.file)
    (after : Run (Guarded Timely (SharedStep env sessionMeta)) s fs t)
    (hkept : SharedEvent.remove ∉ fs) : SettledFile t.file := by
  have hinv : OutcomeInv s :=
    before.invariant (I := OutcomeInv) (fun h hstep => step_inv h hstep) (start_inv hstart)
  clear before
  induction after with
  | nil => exact hsettled
  | cons hstep _ ih =>
    have hsettled' := step_settled hinv hstep (List.ne_of_not_mem_cons hkept).symm hsettled
    exact ih hsettled' (List.not_mem_of_not_mem_cons hkept) (step_inv hinv hstep)

/-! A session whose command cannot be spawned, and one that exits beside a sweep. -/

def sampleFresh : Fresh := ⟨sampleMeta "t" none, rfl⟩

def spawnFailure : List SharedEvent :=
  [.host (.main (.loadConfig (.ok ⟨10, false⟩))), .host (.main .resolveCommand),
    .host (.main (.spawn (.error .emptyCommand) "t"))]

theorem outcome_absorbing_spawn_failure : ∃ t : SharedSession Unit,
    Run (Guarded Timely (SharedStep plainEnv sampleFresh.record)) (localInitial sampleFresh)
      (spawnFailure ++ [.snapshot 0 .cleanupStaleSessions false false]) t ∧
    SettledFile t.file := by
  have before : ∃ s : SharedSession Unit, SettledFile s.file ∧ s.file.isSome = true ∧
      Run (Guarded Timely (SharedStep plainEnv sampleFresh.record)) (localInitial sampleFresh)
        spawnFailure s :=
    ⟨_, ⟨_, rfl, rfl, rfl⟩, rfl, .cons ⟨fun h => h.elim, .host rfl (.inl rfl) (.main rfl)⟩
      (.cons ⟨fun h => h.elim, .host rfl (.inl rfl) (.main rfl)⟩
      (.cons ⟨fun _ _ => rfl, .host rfl (.inl rfl) (.main rfl)⟩ (.nil _)))⟩
  obtain ⟨s, hsettled, hsome, before⟩ := before
  obtain ⟨stored, hstored⟩ := Option.isSome_iff_exists.mp hsome
  have hread : ∃ t, Guarded Timely (SharedStep plainEnv sampleFresh.record) s
      (.snapshot 0 .cleanupStaleSessions false false) t :=
    ⟨_, trivial, .snapshot 0 .cleanupStaleSessions false false hstored⟩
  obtain ⟨t, hread⟩ := hread
  have after := Run.cons hread (.nil t)
  exact ⟨t, before.append after, outcome_absorbing plainEnv sampleFresh.record _ s t
    (.host sampleFresh) _ _ before hsettled after (by simp)⟩

/-- The child has ended when the sweep reads the session, and the host has not said so yet. -/
def exitBesideSweep : List SharedEvent :=
  [.host (.main (.loadConfig (.ok ⟨10, false⟩))), .host (.main .resolveCommand),
    .host (.main (.spawn (.ok (some 7)) "t")), .host (.main (.cloneReader (.ok ()))),
    .host (.main (.takeWriter (.ok ()))), .host (.main (.setup .headless)),
    .host (.main (.markRunning (some .running))),
    .host (.main (.listen (.ok "tcp://127.0.0.1:4000"))), .host (.main (.setNonblocking (.ok ()))),
    .host (.main (.wait (.ok 0))), .snapshot 0 .cleanupStaleSessions false false, .host .teardown]

theorem outcome_overwritten : ∃ s t : SharedSession Unit,
    Run (SharedStep plainEnv sampleFresh.record) (localInitial sampleFresh) exitBesideSweep s ∧
    SettledFile s.file ∧ SharedStep plainEnv sampleFresh.record s (.mark 0) t ∧
    t.file.map (·.status) = some .disconnected := by
  have run : ∃ s : SharedSession Unit, SettledFile s.file ∧ s.pending 0 = true ∧
      Run (SharedStep plainEnv sampleFresh.record) (localInitial sampleFresh) exitBesideSweep s :=
    ⟨_, ⟨_, rfl, rfl, rfl⟩, rfl, .cons (.host rfl (.inl rfl) (.main rfl))
      (.cons (.host rfl (.inl rfl) (.main rfl)) (.cons (.host rfl (.inl rfl) (.main rfl))
      (.cons (.host rfl (.inl rfl) (.main rfl)) (.cons (.host rfl (.inl rfl) (.main rfl))
      (.cons (.host rfl (.inl rfl) (.main rfl)) (.cons (.host rfl (.inr rfl) (.main rfl))
      (.cons (.host rfl (.inl rfl) (.main rfl)) (.cons (.host rfl (.inl rfl) (.main rfl))
      (.cons (.host rfl (.inl rfl) (.main rfl)) (.cons (.snapshot _ _ _ _ rfl)
      (.cons (.host rfl (.inl rfl) (.teardown rfl rfl (step_of_next rfl))) (.nil _))))))))))))⟩
  obtain ⟨s, ⟨stored, hstored, hsettled⟩, hpending, run⟩ := run
  refine ⟨s, _, run, ⟨stored, hstored, hsettled⟩, .mark hpending, ?_⟩
  simp [patchFile, hstored, mergePatch, disconnectedPatch]

end Climon.Session.OutcomeRuns
