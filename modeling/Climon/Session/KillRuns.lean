import Mathlib.Logic.Function.Basic
import Climon.Lib.Transition
import Climon.Server.Handlers
import Climon.Store.PatchRuns

namespace Climon.Session.KillRuns

open Climon.Lib.Transition Climon.Proto.Meta Climon.Server.Handlers Climon.Store.Meta
  Climon.Store.PatchRuns

/-!
# Kill requests

Any number of requests to kill one session, from the command line and from the dashboard, beside
the processes of the machine. A pid is free for another process as soon as its process has ended.
-/

abbrev Pid := UInt32

/-- Processes are told apart even where they have had the same pid. -/
abbrev Process := Nat

abbrev RequestId := Nat

/-- The process whose pid the metadata records. -/
def recorded : Process := 0

inductive KillRequest where
  | cli
  | delete (mode : KillMode)
  deriving DecidableEq, Repr

/-- Whether the request is one for a kill; a plain clean-up is not. -/
def KillRequest.kills : KillRequest → Bool
  | .cli => true
  | .delete mode => mode != .none

inductive KillOutcome where
  | failed (message : String)
  | exited (code : Int32) (output : String)
  | responded (response : Response)

/-- What a request does next, with the metadata that it read. -/
inductive KillPc where
  | idle
  | signalling (sessionMeta : SessionMeta) (pid : Pid) (force : Bool)
  | checking (sessionMeta : SessionMeta) (pid : Pid) (forced : Bool)
  | patching (sessionMeta : SessionMeta)
  | removing (sessionMeta : Option SessionMeta)
  | done (outcome : KillOutcome)

structure KillState where
  file : Option SessionMeta
  table : Pid → Option Process
  nextProcess : Process
  pc : RequestId → KillPc

/-- `answer` is what `kill` or `is_alive` returned. A process may be there and not answer, but a
free pid never does. -/
inductive KillEvent where
  | ends (pid : Pid)
  | starts (pid : Pid)
  | patched (patch : SessionMetaPatch)
  | read (r : RequestId)
  | signal (r : RequestId) (answer : Bool)
  | check (r : RequestId) (answer : Bool)
  | markFailed (r : RequestId)
  | remove (r : RequestId)
  deriving DecidableEq, Repr

/-! ## What a request decides -/

variable (id : String)

def couldNotTerminate (why : String) : String :=
  s!"climon: could not terminate session {id}; {why}.\n"

def afterRead (request : KillRequest) (found : Option SessionMeta) : KillPc :=
  match request, found with
  | .cli, none => .done (.failed s!"No session found with id '{id}'.")
  | .cli, some sessionMeta =>
    match sessionMeta.daemonPid with
    | none =>
      if sessionMeta.origin ≠ some .remote then
        .done (.exited 1 (couldNotTerminate id "daemon pid is not available yet"))
      else .patching sessionMeta
    | some pid => .signalling sessionMeta pid false
  | .delete _, none => .removing none
  | .delete mode, some sessionMeta =>
    match mode, sessionMeta.daemonPid with
    | .none, _ => .removing sessionMeta
    | _, none => .removing sessionMeta
    | .force, some pid => .signalling sessionMeta pid true
    | .graceful, some pid => .signalling sessionMeta pid false

/-- The command line checks only after a SIGTERM that failed; the dashboard only after a graceful
one that did not. -/
def afterSignal (request : KillRequest) (sessionMeta : SessionMeta) (pid : Pid) (force answer : Bool) :
    KillPc :=
  match request with
  | .cli => if force ∨ ¬ answer then .checking sessionMeta pid force else .patching sessionMeta
  | .delete .force => .removing sessionMeta
  | .delete _ => if answer then .checking sessionMeta pid false else .removing sessionMeta

def afterCheck (request : KillRequest) (sessionMeta : SessionMeta) (pid : Pid) (forced alive : Bool) :
    KillPc :=
  match request with
  | .cli =>
    if ¬ alive then .patching sessionMeta
    else if forced then .done (.exited 1 (couldNotTerminate id "it may still be running"))
    else .signalling sessionMeta pid true
  | .delete _ => if alive then .done (.responded .stillRunning) else .removing sessionMeta

def afterRemove (request : KillRequest) (removed : Bool) : KillOutcome :=
  match request with
  | .cli => .exited 0 s!"Killed session {id}.\n"
  | .delete _ => .responded (if removed then .empty 204 else .text 404 "Not found")

def failedPatch : SessionMetaPatch where
  status := some .failed
  priorityReason := some .failed

/-! ## The steps -/

variable (requests : RequestId → KillRequest)

def KillState.goto (s : KillState) (r : RequestId) (pc : KillPc) : KillState :=
  { s with pc := Function.update s.pc r pc }

def killNext (s : KillState) : KillEvent → Option KillState
  | .ends pid =>
    match s.table pid with
    | some _ => some { s with table := Function.update s.table pid none }
    | none => none
  | .starts pid =>
    match s.table pid with
    | some _ => none
    | none =>
      some { s with
        table := Function.update s.table pid (some s.nextProcess)
        nextProcess := s.nextProcess + 1 }
  | .patched patch =>
    if patch.daemonPid = none then
      some { s with file := s.file.map fun sessionMeta => mergePatch sessionMeta patch }
    else none
  | .read r =>
    match s.pc r with
    | .idle => some (s.goto r (afterRead id (requests r) (s.file.map applyUserPausedOverlay)))
    | _ => none
  | .signal r answer =>
    match s.pc r with
    | .signalling sessionMeta pid force =>
      if answer = true ∧ s.table pid = none then none
      else some (s.goto r (afterSignal (requests r) sessionMeta pid force answer))
    | _ => none
  | .check r answer =>
    match s.pc r with
    | .checking sessionMeta pid forced =>
      if answer = true ∧ s.table pid = none then none
      else some (s.goto r (afterCheck id (requests r) sessionMeta pid forced answer))
    | _ => none
  | .markFailed r =>
    match s.pc r with
    | .patching sessionMeta =>
      some ({ s with file := s.file.map fun stored => mergePatch stored failedPatch }.goto r
        (.removing sessionMeta))
    | _ => none
  | .remove r =>
    match s.pc r with
    | .removing _ =>
      some ({ s with file := none }.goto r (.done (afterRemove id (requests r) s.file.isSome)))
    | _ => none

def KillStep (s : KillState) (e : KillEvent) (t : KillState) : Prop :=
  killNext id requests s e = some t

/-- Any stored metadata, with any pids in use; the recorded process has its pid or has ended. -/
def killInitial (file : Option SessionMeta) (inUse : Pid → Bool) (running : Bool) : KillState where
  file := file
  table := fun pid =>
    if running ∧ (file.bind (·.daemonPid)) = some pid then some recorded
    else if inUse pid then some (pid.toNat + 1)
    else none
  nextProcess := 2 ^ 32 + 1
  pc := fun _ => .idle

/-! ## The promise, and where it is kept -/

def Gone (s : KillState) : Prop := ∀ pid, s.table pid ≠ some recorded

/-- A signal goes to the pid that a live session's metadata records, and a killed session's
metadata is removed when its process is gone. -/
def Proper (s : KillState) : KillEvent → Prop
  | .signal r _ => ∀ sessionMeta pid force, s.pc r = .signalling sessionMeta pid force →
      sessionMeta.daemonPid = some pid ∧ sessionMeta.status.isTerminalOutcome = false
  | .remove r => ∀ sessionMeta, s.pc r = .removing (some sessionMeta) →
      (requests r).kills = true → sessionMeta.daemonPid ≠ none → Gone s
  | _ => True

/-- After a signal that the request does not check on, the pid was free already: the command
line's SIGTERM got no answer, a forced one had no process, and an unanswered one was not refused. -/
def Checked (request : KillRequest) (force answer : Bool) (occupant : Option Process) : Prop :=
  match request with
  | .cli => force = true ∨ answer = false
  | .delete .force => occupant = none
  | .delete _ => answer = false → occupant = none

/-- No finished session is read, no unchecked branch is taken, and no process is there that does
not answer. -/
def Careful (s : KillState) : KillEvent → Prop
  | .read r => (requests r).kills = true → ∀ sessionMeta, s.file = some sessionMeta →
      sessionMeta.daemonPid ≠ none → sessionMeta.status.isTerminalOutcome = false
  | .signal r answer => ∀ sessionMeta pid force, s.pc r = .signalling sessionMeta pid force →
      Checked (requests r) force answer (s.table pid)
  | .check r answer => ∀ sessionMeta pid forced, s.pc r = .checking sessionMeta pid forced →
      answer = false → s.table pid = none
  | _ => True

/-! ## Invariants -/

section Invariants

variable (daemonPid : Option Pid)

/-- What a request relies on: the pid it took from a live session, or that the process is gone. -/
def PcSafe (request : KillRequest) (gone : Prop) : KillPc → Prop
  | .signalling sessionMeta pid _ | .checking sessionMeta pid _ =>
    daemonPid = some pid ∧ sessionMeta.daemonPid = some pid ∧
      sessionMeta.status.isTerminalOutcome = false
  | .patching sessionMeta | .removing (some sessionMeta) =>
    request.kills = true → sessionMeta.daemonPid ≠ none → gone
  | _ => True

structure KillInv (s : KillState) : Prop where
  started : recorded < s.nextProcess
  fresh : ∀ pid process, s.table pid = some process → process < s.nextProcess
  place : ∀ pid, s.table pid = some recorded → daemonPid = some pid
  file : ∀ sessionMeta, s.file = some sessionMeta → sessionMeta.daemonPid = daemonPid
  pc : ∀ r, PcSafe daemonPid (requests r) (Gone s) (s.pc r)

end Invariants

variable {id : String} {requests : RequestId → KillRequest} {daemonPid : Option Pid}

theorem pcSafe_mono {request : KillRequest} {gone later : Prop} (h : gone → later) {pc : KillPc}
    (hpc : PcSafe daemonPid request gone pc) : PcSafe daemonPid request later pc := by
  cases pc with
  | patching sessionMeta => exact fun hkills hpid => h (hpc hkills hpid)
  | removing found =>
    cases found with
    | none => trivial
    | some sessionMeta => exact fun hkills hpid => h (hpc hkills hpid)
  | _ => exact hpc

/-- The pid of the recorded process is free, so it has ended. -/
theorem KillInv.gone {s : KillState} (h : KillInv requests daemonPid s) {pid : Pid}
    (hpid : daemonPid = some pid) (hfree : s.table pid = none) : Gone s := by
  intro other hother
  have hsame : pid = other := Option.some.inj (hpid.symm.trans (h.place other hother))
  rw [← hsame, hfree] at hother
  cases hother

/-- A request goes on. -/
theorem KillInv.goto {s : KillState} (h : KillInv requests daemonPid s) {r : RequestId}
    {pc : KillPc} (hpc : PcSafe daemonPid (requests r) (Gone s) pc) :
    KillInv requests daemonPid (s.goto r pc) := by
  refine ⟨h.started, h.fresh, h.place, h.file, fun q => ?_⟩
  unfold KillState.goto
  dsimp only
  by_cases hq : q = r
  · subst hq
    rw [Function.update_self]
    exact hpc
  · rw [Function.update_of_ne hq]
    exact h.pc q

/-- A patch leaves the recorded pid alone, and a removed file records none. -/
theorem KillInv.withFile {s : KillState} (h : KillInv requests daemonPid s)
    {file : Option SessionMeta}
    (hfile : ∀ sessionMeta, file = some sessionMeta → sessionMeta.daemonPid = daemonPid) :
    KillInv requests daemonPid { s with file := file } :=
  ⟨h.started, h.fresh, h.place, hfile, h.pc⟩

theorem KillInv.patched {s : KillState} (h : KillInv requests daemonPid s)
    {patch : SessionMetaPatch} (hpatch : patch.daemonPid = none) :
    KillInv requests daemonPid
      { s with file := s.file.map fun sessionMeta => mergePatch sessionMeta patch } := by
  refine h.withFile fun sessionMeta hmeta => ?_
  obtain ⟨stored, hstored, rfl⟩ := Option.map_eq_some_iff.mp hmeta
  unfold mergePatch
  dsimp only
  rw [hpatch, Option.none_or]
  exact h.file stored hstored

theorem KillInv.removed {s : KillState} (h : KillInv requests daemonPid s) :
    KillInv requests daemonPid { s with file := none } := by
  refine h.withFile fun sessionMeta hmeta => ?_
  cases hmeta

theorem KillInv.ends {s : KillState} (h : KillInv requests daemonPid s) (pid : Pid) :
    KillInv requests daemonPid { s with table := Function.update s.table pid none } := by
  have hsub (other : Pid) (process : Process)
      (hother : Function.update s.table pid none other = some process) :
      s.table other = some process := by
    by_cases heq : other = pid
    · subst heq
      rw [Function.update_self] at hother
      cases hother
    · rwa [Function.update_of_ne heq] at hother
  refine ⟨h.started, fun p q hq => h.fresh p q (hsub p q hq),
    fun p hp => h.place p (hsub p _ hp), h.file, fun r => pcSafe_mono ?_ (h.pc r)⟩
  exact fun hgone p hp => hgone p (hsub p _ hp)

/-- A new process is none that there was before. -/
theorem KillInv.starts {s : KillState} (h : KillInv requests daemonPid s) (pid : Pid) :
    KillInv requests daemonPid
      { s with
        table := Function.update s.table pid (some s.nextProcess)
        nextProcess := s.nextProcess + 1 } := by
  have hsub (other : Pid) (process : Process)
      (hother : Function.update s.table pid (some s.nextProcess) other = some process) :
      process = s.nextProcess ∨ s.table other = some process := by
    by_cases heq : other = pid
    · subst heq
      rw [Function.update_self] at hother
      exact .inl (Option.some.inj hother).symm
    · rw [Function.update_of_ne heq] at hother
      exact .inr hother
  have hold (other : Pid)
      (hother : Function.update s.table pid (some s.nextProcess) other = some recorded) :
      s.table other = some recorded :=
    (hsub other _ hother).resolve_left (Nat.ne_of_lt h.started)
  refine ⟨Nat.lt_succ_of_lt h.started, fun p q hq => ?_, fun p hp => h.place p (hold p hp),
    h.file, fun r => pcSafe_mono (fun hgone p hp => hgone p (hold p hp)) (h.pc r)⟩
  rcases hsub p q hq with heq | hq
  · rw [heq]
    exact Nat.lt_succ_self _
  · exact Nat.lt_succ_of_lt (h.fresh p q hq)

theorem overlay_daemonPid (sessionMeta : SessionMeta) :
    (applyUserPausedOverlay sessionMeta).daemonPid = sessionMeta.daemonPid := by
  unfold applyUserPausedOverlay
  split <;> rfl

/-- The overlay only ever shows a session as paused. -/
theorem overlay_live {sessionMeta : SessionMeta}
    (h : sessionMeta.status.isTerminalOutcome = false) :
    (applyUserPausedOverlay sessionMeta).status.isTerminalOutcome = false := by
  unfold applyUserPausedOverlay
  split
  · exact h
  · rfl

/-! ## What a request decides is safe -/

theorem afterRead_safe {request : KillRequest} {found : Option SessionMeta} {gone : Prop}
    (hpid : ∀ sessionMeta, found = some sessionMeta → sessionMeta.daemonPid = daemonPid)
    (hlive : request.kills = true → ∀ sessionMeta, found = some sessionMeta →
      sessionMeta.daemonPid ≠ none → sessionMeta.status.isTerminalOutcome = false) :
    PcSafe daemonPid request gone (afterRead id request found) := by
  cases found with
  | none => cases request <;> trivial
  | some sessionMeta =>
    have hstored := hpid sessionMeta rfl
    cases hdaemon : sessionMeta.daemonPid with
    | none =>
      have hnone (hsome : sessionMeta.daemonPid ≠ none) : gone := absurd hdaemon hsome
      cases request with
      | cli =>
        simp only [afterRead, hdaemon]
        split
        · trivial
        · exact fun _ => hnone
      | delete mode =>
        cases mode <;> simp only [afterRead, hdaemon] <;> exact fun _ => hnone
    | some pid =>
      have hsafe (hkills : request.kills = true) : daemonPid = some pid ∧
          sessionMeta.daemonPid = some pid ∧ sessionMeta.status.isTerminalOutcome = false := by
        refine ⟨hstored ▸ hdaemon, hdaemon, hlive hkills sessionMeta rfl ?_⟩
        rw [hdaemon]
        nofun
      cases request with
      | cli =>
        simp only [afterRead, hdaemon]
        exact hsafe rfl
      | delete mode =>
        cases mode with
        | none =>
          simp only [afterRead]
          exact fun hkills => absurd hkills (by decide)
        | graceful =>
          simp only [afterRead, hdaemon]
          exact hsafe rfl
        | force =>
          simp only [afterRead, hdaemon]
          exact hsafe rfl

theorem afterSignal_safe {request : KillRequest} {sessionMeta : SessionMeta} {pid : Pid}
    {force answer : Bool} {gone : Prop} {occupant : Option Process}
    (hsafe : PcSafe daemonPid request gone (.signalling sessionMeta pid force))
    (hchecked : Checked request force answer occupant) (hgone : occupant = none → gone) :
    PcSafe daemonPid request gone (afterSignal request sessionMeta pid force answer) := by
  cases request with
  | cli =>
    unfold afterSignal
    dsimp only
    split
    · exact hsafe
    next hunchecked =>
      rcases hchecked with hforce | hanswer
      · exact absurd (.inl hforce) hunchecked
      · exact absurd (.inr (by simp [hanswer])) hunchecked
  | delete mode =>
    have hremoving (hfree : answer = false ∨ mode = .force → occupant = none)
        (hbranch : answer = false ∨ mode = .force) :
        PcSafe daemonPid (.delete mode) gone (.removing sessionMeta) :=
      fun _ _ => hgone (hfree hbranch)
    cases mode with
    | force => exact hremoving (fun _ => hchecked) (.inr rfl)
    | none | graceful =>
      cases answer with
      | true => exact hsafe
      | false => exact hremoving (fun _ => hchecked rfl) (.inl rfl)

theorem afterCheck_safe {request : KillRequest} {sessionMeta : SessionMeta} {pid : Pid}
    {forced alive : Bool} {gone : Prop}
    (hsafe : PcSafe daemonPid request gone (.checking sessionMeta pid forced))
    (hgone : alive = false → gone) :
    PcSafe daemonPid request gone (afterCheck id request sessionMeta pid forced alive) := by
  cases request with
  | cli =>
    cases alive with
    | false => exact fun _ _ => hgone rfl
    | true =>
      cases forced with
      | false => exact hsafe
      | true => trivial
  | delete mode =>
    cases alive with
    | false => exact fun _ _ => hgone rfl
    | true => trivial

/-! ## Runs -/

theorem step_inv {s t : KillState} {e : KillEvent} (h : KillInv requests daemonPid s)
    (hstep : Guarded (Careful requests) (KillStep id requests) s e t) :
    KillInv requests daemonPid t := by
  obtain ⟨hcareful, hstep⟩ := hstep
  unfold KillStep killNext at hstep
  cases e with
  | ends pid =>
    dsimp only at hstep
    split at hstep
    · cases hstep
      exact h.ends pid
    · cases hstep
  | starts pid =>
    dsimp only at hstep
    split at hstep
    · cases hstep
    · cases hstep
      exact h.starts pid
  | patched patch =>
    dsimp only at hstep
    split at hstep
    next hpatch =>
      cases hstep
      exact h.patched hpatch
    · cases hstep
  | read r =>
    dsimp only at hstep
    split at hstep
    next hpc =>
      cases hstep
      refine h.goto (afterRead_safe ?_ fun hkills => ?_)
      · intro sessionMeta hfound
        obtain ⟨stored, hstored, rfl⟩ := Option.map_eq_some_iff.mp hfound
        rw [overlay_daemonPid]
        exact h.file stored hstored
      · intro sessionMeta hfound hsome
        obtain ⟨stored, hstored, rfl⟩ := Option.map_eq_some_iff.mp hfound
        rw [overlay_daemonPid] at hsome
        exact overlay_live (hcareful hkills stored hstored hsome)
    · cases hstep
  | signal r answer =>
    dsimp only at hstep
    split at hstep
    next sessionMeta pid force hpc =>
      split at hstep
      · cases hstep
      · cases hstep
        have hsafe := h.pc r
        rw [hpc] at hsafe
        exact h.goto (afterSignal_safe hsafe (hcareful sessionMeta pid force hpc)
          (h.gone hsafe.1))
    · cases hstep
  | check r answer =>
    dsimp only at hstep
    split at hstep
    next sessionMeta pid forced hpc =>
      split at hstep
      · cases hstep
      · cases hstep
        have hsafe := h.pc r
        rw [hpc] at hsafe
        exact h.goto (afterCheck_safe hsafe fun hanswer =>
          h.gone hsafe.1 (hcareful sessionMeta pid forced hpc hanswer))
    · cases hstep
  | markFailed r =>
    dsimp only at hstep
    split at hstep
    next sessionMeta hpc =>
      cases hstep
      have hsafe := h.pc r
      rw [hpc] at hsafe
      have hpatched : KillInv requests daemonPid
          { s with file := s.file.map fun stored => mergePatch stored failedPatch } :=
        h.patched rfl
      exact hpatched.goto hsafe
    · cases hstep
  | remove r =>
    dsimp only at hstep
    split at hstep
    next found hpc =>
      cases hstep
      exact h.removed.goto trivial
    · cases hstep

theorem initial_inv (file : Option SessionMeta) (inUse : Pid → Bool) (running : Bool) :
    KillInv requests (file.bind (·.daemonPid)) (killInitial file inUse running) := by
  refine ⟨Nat.succ_pos _, fun pid process h => ?_, fun pid h => ?_, fun sessionMeta h => ?_,
    fun _ => trivial⟩
  · unfold killInitial at h ⊢
    dsimp only at h ⊢
    split at h
    · cases h
      exact Nat.succ_pos _
    · split at h
      · cases h
        exact Nat.succ_lt_succ pid.toNat_lt
      · cases h
  · unfold killInitial at h
    dsimp only at h
    split at h
    next hrecorded => exact hrecorded.2
    · split at h
      · exact absurd (Option.some.inj h) (Nat.succ_ne_zero _)
      · cases h
  · change file = some sessionMeta at h
    rw [h]
    rfl

theorem KillInv.proper {s : KillState} (h : KillInv requests daemonPid s) (e : KillEvent) :
    Proper requests s e := by
  cases e with
  | signal r answer =>
    intro sessionMeta pid force hpc
    have hsafe := h.pc r
    rw [hpc] at hsafe
    exact hsafe.2
  | remove r =>
    intro sessionMeta hpc
    have hsafe := h.pc r
    rwa [hpc] at hsafe
  | _ => trivial

/-! ## Main result -/

/-- In every run whose steps are all careful, from any stored session and any processes, every next
signal and removal keeps the promise. -/
theorem kill_runs_proper (id : String) (requests : RequestId → KillRequest)
    (file : Option SessionMeta) (inUse : Pid → Bool) (running : Bool) (es : List KillEvent)
    (s : KillState)
    (run : Run (Guarded (Careful requests) (KillStep id requests))
      (killInitial file inUse running) es s) (e : KillEvent) : Proper requests s e := by
  have h := run.invariant
    (I := KillInv requests (file.bind (·.daemonPid))) (fun h hstep => step_inv h hstep)
    (initial_inv file inUse running)
  exact h.proper e

/-! A graceful request to kill a session that ends in time, and two requests that are not careful. -/

def storedSample (status : SessionStatus) : SessionMeta :=
  { sampleMeta "t" none with status := status, daemonPid := some 7 }

def gracefulEvents : List KillEvent := [.read 0, .signal 0 true, .ends 7, .check 0 false]

theorem kill_runs_proper_graceful : ∃ s,
    Run (Guarded (Careful fun _ => .delete .graceful) (KillStep "s" fun _ => .delete .graceful))
      (killInitial (some (storedSample .running)) (fun _ => false) true) gracefulEvents s ∧
    s.pc 0 = .removing (some (storedSample .running)) ∧ Gone s := by
  have hread : Careful (fun _ => .delete .graceful)
      (killInitial (some (storedSample .running)) (fun _ => false) true) (.read 0) := by
    intro _ sessionMeta h _
    cases h
    rfl
  have run : ∃ s, s.pc 0 = .removing (some (storedSample .running)) ∧
      Run (Guarded (Careful fun _ => .delete .graceful) (KillStep "s" fun _ => .delete .graceful))
        (killInitial (some (storedSample .running)) (fun _ => false) true) gracefulEvents s := by
    refine ⟨_, rfl, .cons ⟨hread, rfl⟩ (.cons ⟨fun _ _ _ _ => nofun, rfl⟩
      (.cons ⟨trivial, rfl⟩ (.cons ⟨fun m pid forced h _ => ?_, rfl⟩ (.nil _))))⟩
    cases h
    rfl
  obtain ⟨s, hpc, run⟩ := run
  refine ⟨s, run, hpc, ?_⟩
  exact kill_runs_proper "s" _ _ _ _ _ s run (.remove 0) _ hpc rfl nofun

/-- The pid of a completed session belongs to another process by now, and `climon kill` signals it.
Of a running one, `climon kill` removes the metadata while the process handles its SIGTERM. -/
theorem kill_runs_improper :
    (∃ s t, exec (killNext "s" fun _ => .cli)
        (killInitial (some (storedSample .completed)) (fun pid => pid == 7) false) [.read 0] = some s ∧
      KillStep "s" (fun _ => .cli) s (.signal 0 true) t ∧ s.table 7 = some 8 ∧
      ¬ Proper (fun _ => .cli) s (.signal 0 true)) ∧
    ∃ s t, exec (killNext "s" fun _ => .cli)
        (killInitial (some (storedSample .running)) (fun _ => false) true)
        [.read 0, .signal 0 true, .markFailed 0] = some s ∧
      KillStep "s" (fun _ => .cli) s (.remove 0) t ∧ t.file = none ∧
      ¬ Proper (fun _ => .cli) s (.remove 0) := by
  refine ⟨⟨_, _, rfl, rfl, rfl, fun h => ?_⟩, ⟨_, _, rfl, rfl, rfl, fun h => ?_⟩⟩
  · exact absurd (h (storedSample .completed) 7 false rfl).2 nofun
  · exact h (storedSample .running) rfl rfl nofun 7 rfl

end Climon.Session.KillRuns
