import Climon.Session.AttentionAgreement
import Climon.Store.Meta

namespace Climon.Session.HostProcess

open Climon.Lib.Transition Climon.Proto.Frame Climon.Proto.Meta Climon.Session.Host
  Climon.Session.AttentionView Climon.Session.AttentionAgreement Climon.Store.Meta

/-!
# The process of a session host

The main thread from the launcher's record to the exit of the process, with its worker threads
beside it. Every call that can fail is an event that carries its outcome.
-/

variable {G : Type}

inductive PtyError where
  | emptyCommand
  | io (e : String)
  | backend (msg : String)
  | writerTaken
  deriving DecidableEq, Repr

def PtyError.text : PtyError → String
  | .emptyCommand => "cannot spawn an empty command"
  | .io e => s!"io error: {e}"
  | .backend msg => s!"pty backend error: {msg}"
  | .writerTaken => "pty writer already taken"

inductive SessionError where
  | pty (e : PtyError)
  | config (msg : String)
  | io (e : String)
  deriving DecidableEq, Repr

def SessionError.text : SessionError → String
  | .pty e => s!"pty error: {e.text}"
  | .config msg => s!"config error: {msg}"
  | .io e => s!"io error: {e}"

/-- What the host takes from the configuration. -/
structure HostConfig where
  idleSeconds : Int
  snippetEnabled : Bool
  deriving DecidableEq, Repr

/-- The record that the launcher wrote before it started the host. -/
structure Launched where
  record : SessionMeta
  running : record.status = .running

/-- What the main thread does next. -/
inductive MainPc where
  | loadConfig
  | resolveCommand (config : HostConfig)
  | spawn (config : HostConfig) (file : String) (args : List String)
  | cloneReader (config : HostConfig) (pid : Option UInt32)
  | takeWriter (config : HostConfig) (pid : Option UInt32)
  | setup (config : HostConfig) (pid : Option UInt32)
  | markRunning (pid : Option UInt32)
  | listen
  | setNonblocking
  | wait
  | teardown (exitCode : Int32)
  | join (exitCode : Int32)
  | returned (result : Except SessionError Int32)
  | finished (result : Except String Int32)
  deriving Repr

/-- `host` is there from the time its threads are, and `writes` are all patches in their order. -/
structure Process (G : Type) where
  pc : MainPc
  host : Option (HostState G)
  writes : List SessionMetaPatch

def processInitial : Process G := ⟨.loadConfig, none, []⟩

inductive MainEvent where
  | loadConfig (outcome : Except String HostConfig)
  | resolveCommand
  | spawn (outcome : Except PtyError (Option UInt32)) (now : String)
  | cloneReader (outcome : Except PtyError Unit)
  | takeWriter (outcome : Except PtyError Unit)
  | setup (launch : Launch)
  | markRunning (stored : Option SessionStatus)
  | listen (outcome : Except String String)
  | setNonblocking (outcome : Except String Unit)
  | wait (outcome : Except PtyError Int32)
  | join
  | launcher
  deriving Repr

inductive ProcessEvent where
  | main (e : MainEvent)
  | worker (e : Event)
  | captured (title : Option String) (progress : Option (Option TerminalProgress))
  | teardown
  deriving Repr

/-! ## The steps -/

def resolveCommand : List String → Except PtyError (String × List String)
  | file :: args => .ok (file, args)
  | [] => .error .emptyCommand

def spawnFailedPatch (e : PtyError) (now : String) : SessionMetaPatch where
  status := some .failed
  priorityReason := some .failed
  completedAt := some now
  exitCode := some 1
  error := some e.text
  lastActivityAt := some now

def socketPatch (resolved : String) : SessionMetaPatch where
  socketPath := some resolved

def capturedPatch (title : Option String) (progress : Option (Option TerminalProgress)) :
    SessionMetaPatch where
  terminalTitle := title
  progress := progress

/-- The `?` operator: an error leaves the function at once. -/
def Process.propagate {α ε : Type} (s : Process G) (wrap : ε → SessionError) (outcome : Except ε α)
    (next : α → MainPc) : Process G :=
  match outcome with
  | .ok a => { s with pc := next a }
  | .error e => { s with pc := .returned (.error (wrap e)) }

def mainNext (env : HostEnv G) (sessionMeta : SessionMeta) (s : Process G) :
    MainEvent → Option (Process G)
  | .loadConfig outcome =>
    match s.pc with
    | .loadConfig => some (s.propagate .config outcome .resolveCommand)
    | _ => none
  | .resolveCommand =>
    match s.pc with
    | .resolveCommand config =>
      some (s.propagate .pty (resolveCommand sessionMeta.command) fun p => .spawn config p.1 p.2)
    | _ => none
  | .spawn outcome now =>
    match s.pc with
    | .spawn config _ _ =>
      match outcome with
      | .ok pid => some { s with pc := .cloneReader config pid }
      | .error e =>
        some { s with pc := .returned (.ok 1), writes := s.writes ++ [spawnFailedPatch e now] }
    | _ => none
  | .cloneReader outcome =>
    match s.pc with
    | .cloneReader config pid => some (s.propagate .pty outcome fun _ => .takeWriter config pid)
    | _ => none
  | .takeWriter outcome =>
    match s.pc with
    | .takeWriter config pid => some (s.propagate .pty outcome fun _ => .setup config pid)
    | _ => none
  | .setup launch =>
    match s.pc with
    | .setup config pid =>
      some { s with
        pc := .markRunning pid
        host := some (initialState env launch sessionMeta.cols sessionMeta.rows config.idleSeconds
          config.snippetEnabled) }
    | _ => none
  | .markRunning stored =>
    match s.pc with
    | .markRunning pid =>
      -- The outcome of this patch is dropped, so a missing session goes unnoticed.
      some { s with
        pc := .listen
        writes := s.writes ++ (stored.map fun status => markRunningPatch status pid).toList }
    | _ => none
  | .listen outcome =>
    match s.pc with
    | .listen =>
      match outcome with
      | .ok resolved =>
        some { s with pc := .setNonblocking, writes := s.writes ++ [socketPatch resolved] }
      | .error e => some { s with pc := .returned (.error (.io e)) }
    | _ => none
  | .setNonblocking outcome =>
    match s.pc with
    | .setNonblocking => some (s.propagate .io outcome fun _ => .wait)
    | _ => none
  | .wait outcome =>
    match s.pc with
    | .wait =>
      match outcome with
      | .ok exitCode => some { s with pc := .teardown exitCode }
      | .error _ => some { s with pc := .teardown 1 }
    | _ => none
  | .join =>
    match s.pc with
    | .join exitCode => some { s with pc := .returned (.ok exitCode), host := none }
    | _ => none
  | .launcher =>
    match s.pc with
    | .returned result =>
      some { s with pc := .finished (result.mapError SessionError.text), host := none }
    | _ => none

/-- The accept, idle and title threads have been started. -/
def MainPc.accepting : MainPc → Bool
  | .wait | .teardown _ | .join _ => true
  | _ => false

/-- The sections that a worker thread can be in. The teardown is the main thread's own. -/
def MainPc.runs (pc : MainPc) : Event → Bool
  | .exit _ => false
  | .connect | .idleSample _ => pc.accepting
  | _ => true

def Process.after (s : Process G) (host t : HostState G) : Process G :=
  { s with host := some t, writes := s.writes ++ t.patches.drop host.patches.length }

inductive ProcessStep (env : HostEnv G) (sessionMeta : SessionMeta) :
    Process G → ProcessEvent → Process G → Prop where
  | main {s t : Process G} {e : MainEvent} :
      mainNext env sessionMeta s e = some t → ProcessStep env sessionMeta s (.main e) t
  | worker {s : Process G} {host t : HostState G} {e : Event} :
      s.host = some host → s.pc.runs e → Step env host e t →
      ProcessStep env sessionMeta s (.worker e) (s.after host t)
  | captured {s : Process G} (title : Option String)
      (progress : Option (Option TerminalProgress)) :
      s.host.isSome → s.pc.accepting →
      ProcessStep env sessionMeta s (.captured title progress)
        { s with writes := s.writes ++ [capturedPatch title progress] }
  | teardown {s : Process G} {host t : HostState G} {exitCode : Int32} :
      s.pc = .teardown exitCode → s.host = some host → Step env host (.exit exitCode) t →
      ProcessStep env sessionMeta s .teardown { s.after host t with pc := .join exitCode }

/-- The host has returned to its launcher. -/
def MainPc.over : MainPc → Bool
  | .returned _ | .finished _ => true
  | _ => false

/-- An outcome that leaves `run_session_host` through a `?`. -/
def Escapes (sessionMeta : SessionMeta) : ProcessEvent → Bool
  | .main (.loadConfig (.error _)) => true
  | .main .resolveCommand => sessionMeta.command.isEmpty
  | .main (.cloneReader (.error _)) => true
  | .main (.takeWriter (.error _)) => true
  | .main (.listen (.error _)) => true
  | .main (.setNonblocking (.error _)) => true
  | _ => false

/-! ## What a patch can do to the record -/

/-- No terminal outcome and no exit code. -/
def Live (patch : SessionMetaPatch) : Prop :=
  (∀ status, patch.status = some status → status.isTerminalOutcome = false) ∧
    patch.exitCode = none

/-- The outcome of the session, with its exit code. -/
def Final (patch : SessionMetaPatch) : Prop :=
  (∃ status, patch.status = some status ∧ status.isTerminalOutcome = true) ∧
    patch.exitCode.isSome = true

theorem live_of_unmarked {patch : SessionMetaPatch} (h : Unmarked patch) : Live patch := by
  refine ⟨fun status hstatus => ?_, h.2⟩
  rw [h.1] at hstatus
  cases hstatus

theorem live_of_status {patch : SessionMetaPatch} {status : SessionStatus}
    (hstatus : patch.status = some status) (hlive : status.isTerminalOutcome = false)
    (hcode : patch.exitCode = none) : Live patch := by
  refine ⟨fun other hother => ?_, hcode⟩
  rw [hstatus] at hother
  cases hother
  exact hlive

theorem attentionClearedPatch_live (current : SessionStatus) (byUser : Bool) (now : String) :
    Live (attentionClearedPatch current byUser now) := by
  refine live_of_status rfl ?_ rfl
  split
  · rfl
  · split <;> rfl

theorem attentionFlaggedPatch_live (reason snippet : Option String) (now : String) :
    Live (attentionFlaggedPatch reason snippet now) := live_of_status rfl rfl rfl

theorem markRunningPatch_live (current : SessionStatus) (pid : Option UInt32) :
    Live (markRunningPatch current pid) := by
  unfold markRunningPatch
  split
  · exact live_of_unmarked ⟨rfl, rfl⟩
  · exact live_of_status rfl rfl rfl

theorem exitPatch_final (exitCode : Int32) (now : String) : Final (exitPatch exitCode now) := by
  refine ⟨⟨_, rfl, ?_⟩, rfl⟩
  split <;> rfl

theorem spawnFailedPatch_final (e : PtyError) (now : String) : Final (spawnFailedPatch e now) :=
  ⟨⟨_, rfl, rfl⟩, rfl⟩

theorem merge_unmarked {base : SessionMeta} {patch : SessionMetaPatch} (h : Unmarked patch) :
    (mergePatch base patch).status = base.status := by
  unfold mergePatch
  rw [h.1]
  rfl

theorem merge_live {base : SessionMeta} {patch : SessionMetaPatch} (h : Live patch)
    (hbase : base.status.isTerminalOutcome = false) :
    (mergePatch base patch).status.isTerminalOutcome = false := by
  unfold mergePatch
  cases hstatus : patch.status with
  | none => exact hbase
  | some status => exact h.1 status hstatus

theorem merge_final {base : SessionMeta} {patch : SessionMetaPatch} (h : Final patch) :
    (mergePatch base patch).status.isTerminalOutcome = true := by
  obtain ⟨status, hstatus, hterminal⟩ := h.1
  unfold mergePatch
  rw [hstatus]
  exact hterminal

/-! ## What a worker writes -/

/-- A section of a worker adds live patches, and after the teardown unmarked ones only. -/
structure Works (s t : HostState G) : Prop where
  exited : t.exited = s.exited
  patches : ∃ new, t.patches = s.patches ++ new ∧ (∀ patch ∈ new, Live patch) ∧
    (s.exited = true → ∀ patch ∈ new, Unmarked patch)

theorem Works.of_quiet {s t : HostState G} (h : Quiet s t) : Works s t := by
  obtain ⟨new, hpatches, hquiet⟩ := h.patches
  exact ⟨h.exited, new, hpatches, fun p hp => live_of_unmarked (hquiet p hp), fun _ => hquiet⟩

theorem Works.trans {s t u : HostState G} (h : Works s t) (k : Works t u) : Works s u := by
  obtain ⟨first, hfirst, hlive, hquiet⟩ := h.patches
  obtain ⟨second, hsecond, hlive', hquiet'⟩ := k.patches
  refine ⟨k.exited.trans h.exited, first ++ second, ?_, ?_, ?_⟩
  · rw [hsecond, hfirst, List.append_assoc]
  · intro patch hpatch
    exact (List.mem_append.mp hpatch).elim (hlive patch) (hlive' patch)
  · intro hexited patch hpatch
    exact (List.mem_append.mp hpatch).elim (hquiet hexited patch)
      (hquiet' (h.exited.trans hexited) patch)

/-- Attention is patched only before the teardown. -/
theorem Works.of_patch {s t : HostState G} {patch : SessionMetaPatch} (hexited : t.exited = s.exited)
    (hrunning : s.exited = false) (hpatches : t.patches = s.patches ++ [patch])
    (hlive : Live patch) : Works s t := by
  refine ⟨hexited, [patch], hpatches, ?_, ?_⟩
  · intro p hp
    rw [List.mem_singleton.mp hp]
    exact hlive
  · intro h
    rw [hrunning] at h
    cases h

theorem Works.of_same {s t : HostState G} (hexited : t.exited = s.exited)
    (hpatches : t.patches = s.patches) : Works s t :=
  ⟨hexited, [], by rw [hpatches, List.append_nil], fun _ h => absurd h List.not_mem_nil,
    fun _ _ h => absurd h List.not_mem_nil⟩

theorem applyAttention_works (env : HostEnv G) (s : HostState G) (payload : AttentionPayload)
    (source : HostState.AttentionSource) (fp : String) (stored : Option SessionStatus) :
    Works s (s.applyAttention env payload source fp stored) := by
  unfold HostState.applyAttention
  split
  · exact .of_same rfl rfl
  next hrunning =>
    have hexited : s.exited = false := by simpa using hrunning
    split
    · split
      · exact .of_same rfl rfl
      · dsimp only
        by_cases hsource : source = .user
        · rw [if_pos hsource]
          cases stored with
          | none => exact .of_same rfl rfl
          | some status => exact .of_patch rfl hexited rfl (attentionClearedPatch_live _ _ _)
        · rw [if_neg hsource]
          cases stored with
          | none => exact .of_same rfl rfl
          | some status => exact .of_patch rfl hexited rfl (attentionClearedPatch_live _ _ _)
    · split
      · exact .of_same rfl rfl
      · split
        · exact .of_same rfl rfl
        · exact .of_same rfl rfl
        · exact .of_patch rfl hexited rfl (attentionFlaggedPatch_live _ _ _)

theorem idleSample_works (env : HostEnv G) (s : HostState G) (stored : Option SessionStatus) :
    Works s (s.idleSample env stored) := by
  unfold HostState.idleSample
  split
  · exact .of_same rfl rfl
  · dsimp only
    split
    · exact .of_same rfl rfl
    · refine Works.trans ?_ (applyAttention_works env _ _ _ _ _)
      exact .of_same rfl rfl

theorem handle_works (env : HostEnv G) (s : HostState G) {e : Event}
    (hexit : ∀ exitCode, e ≠ .exit exitCode) : Works s (handle env s e) := by
  cases hattentive : attentive e with
  | false => exact .of_quiet (handle_quiet env s hattentive)
  | true =>
    cases e with
    | idleSample stored => exact idleSample_works env s stored
    | exit exitCode => exact absurd rfl (hexit exitCode)
    | frame n frame stored =>
      cases frame with
      | attention payload =>
        simp only [handle, HostState.handleFrame]
        exact (applyAttention_works env s _ _ _ _).trans (.of_quiet (writeInitialFrames_quiet _ n))
      | _ => cases hattentive
    | _ => cases hattentive

theorem step_works {env : HostEnv G} {s t : HostState G} {e : Event} (hstep : Step env s e t)
    (hexit : ∀ exitCode, e ≠ .exit exitCode) : Works s t := by
  obtain ⟨-, clients, -, rfl⟩ := hstep
  refine Works.trans ?_ (handle_works env _ hexit)
  exact .of_same rfl rfl

theorem teardown_patches (env : HostEnv G) (s : HostState G) (exitCode : Int32) :
    (s.teardown env exitCode).patches = s.patches ++ [exitPatch exitCode (env.nowIso s.nowMs)] := by
  unfold HostState.teardown
  dsimp only
  split <;> rfl

/-! ## What the main thread does -/

/-- The teardown, or the failed spawn, has been written. -/
def MainPc.ended : MainPc → Bool
  | .join _ | .returned (.ok _) | .finished (.ok _) => true
  | _ => false

/-- No thread has been started. -/
def MainPc.early : MainPc → Bool
  | .loadConfig | .resolveCommand _ | .spawn _ _ _ | .cloneReader _ _ | .takeWriter _ _
  | .setup _ _ => true
  | _ => false

/-- The host has returned an error. -/
def MainPc.failed : MainPc → Bool
  | .returned (.error _) | .finished (.error _) => true
  | _ => false

/-- All that a step of the main thread can do to the host and to the record. -/
inductive MainEffect (s t : Process G) : MainEvent → Prop where
  | writes {e : MainEvent} (new : List SessionMetaPatch) : s.pc.ended = false →
      t.pc.ended = false → (t.pc.early = true → s.pc.early = true) → t.host = s.host →
      t.writes = s.writes ++ new → (∀ patch ∈ new, Live patch) → MainEffect s t e
  | starts {e : MainEvent} (host : HostState G) : s.pc.ended = false → t.pc.ended = false →
      t.pc.early = false → t.host = some host → host.exited = false → t.writes = s.writes →
      MainEffect s t e
  | spawnFails (error : PtyError) (now : String) : s.pc.early = true → s.pc.ended = false →
      t.pc.ended = true → t.pc.early = false → t.host = s.host →
      t.writes = s.writes ++ [spawnFailedPatch error now] → MainEffect s t (.spawn (.error error) now)
  | leaves {e : MainEvent} : t.pc.ended = s.pc.ended → t.host = none → t.writes = s.writes →
      MainEffect s t e

theorem silent_effect {s : Process G} {e : MainEvent} {pc : MainPc} (hs : s.pc.ended = false)
    (hpc : pc.ended = false) (hearly : pc.early = true → s.pc.early = true) :
    MainEffect s { s with pc := pc } e :=
  .writes [] hs hpc hearly rfl (List.append_nil _).symm fun _ h => absurd h List.not_mem_nil

theorem patch_effect {s : Process G} {e : MainEvent} {pc : MainPc} {patch : SessionMetaPatch}
    (hs : s.pc.ended = false) (hpc : pc.ended = false) (hearly : pc.early = false)
    (hlive : Live patch) :
    MainEffect s { s with pc := pc, writes := s.writes ++ [patch] } e := by
  refine .writes [patch] hs hpc (fun h => ?_) rfl rfl fun p hp => ?_
  · exact absurd (hearly.symm.trans h) nofun
  · rw [List.mem_singleton.mp hp]
    exact hlive

theorem propagate_effect {s : Process G} {e : MainEvent} {α ε : Type} {wrap : ε → SessionError}
    {outcome : Except ε α} {next : α → MainPc} (hs : s.pc.ended = false)
    (hnext : ∀ a, (next a).ended = false ∧ ((next a).early = true → s.pc.early = true)) :
    MainEffect s (s.propagate wrap outcome next) e := by
  unfold Process.propagate
  cases outcome with
  | ok a => exact silent_effect hs (hnext a).1 (hnext a).2
  | error e => exact silent_effect hs rfl nofun

theorem propagate_failed {s : Process G} {α ε : Type} {wrap : ε → SessionError}
    {outcome : Except ε α} {next : α → MainPc} (hnext : ∀ a, (next a).failed = false) :
    (s.propagate wrap outcome next).pc.failed = !outcome.isOk := by
  unfold Process.propagate
  cases outcome with
  | ok a => exact hnext a
  | error e => rfl

theorem isEmpty_of_resolve (command : List String) :
    (!(resolveCommand command).isOk) = command.isEmpty := by
  cases command <;> rfl

/-- The inversion of `mainNext`: its effect, and that it fails the process if and only if the
outcome escapes. -/
theorem main_effect {env : HostEnv G} {sessionMeta : SessionMeta} {s t : Process G}
    {e : MainEvent} (hstep : mainNext env sessionMeta s e = some t) :
    MainEffect s t e ∧ t.pc.failed = (s.pc.failed || Escapes sessionMeta (.main e)) := by
  unfold mainNext at hstep
  cases e with
  | loadConfig outcome =>
    dsimp only at hstep
    split at hstep
    next hpc =>
      cases hstep
      refine ⟨propagate_effect (by rw [hpc]; rfl) fun _ => ⟨rfl, fun _ => by rw [hpc]; rfl⟩, ?_⟩
      rw [propagate_failed fun _ => rfl, hpc]
      cases outcome <;> rfl
    · cases hstep
  | resolveCommand =>
    dsimp only at hstep
    split at hstep
    next config hpc =>
      cases hstep
      refine ⟨propagate_effect (by rw [hpc]; rfl) fun _ => ⟨rfl, fun _ => by rw [hpc]; rfl⟩, ?_⟩
      rw [propagate_failed fun _ => rfl, hpc]
      exact isEmpty_of_resolve sessionMeta.command
    · cases hstep
  | spawn outcome now =>
    dsimp only at hstep
    split at hstep
    next hpc =>
      have hearly : s.pc.early = true := by rw [hpc]; rfl
      have hlive : s.pc.ended = false := by rw [hpc]; rfl
      cases outcome with
      | ok pid =>
        cases hstep
        refine ⟨silent_effect hlive rfl fun _ => hearly, ?_⟩
        rw [hpc]
        rfl
      | error e =>
        cases hstep
        refine ⟨.spawnFails e now hearly hlive rfl rfl rfl rfl, ?_⟩
        rw [hpc]
        rfl
    · cases hstep
  | cloneReader outcome =>
    dsimp only at hstep
    split at hstep
    next hpc =>
      cases hstep
      refine ⟨propagate_effect (by rw [hpc]; rfl) fun _ => ⟨rfl, fun _ => by rw [hpc]; rfl⟩, ?_⟩
      rw [propagate_failed fun _ => rfl, hpc]
      cases outcome <;> rfl
    · cases hstep
  | takeWriter outcome =>
    dsimp only at hstep
    split at hstep
    next hpc =>
      cases hstep
      refine ⟨propagate_effect (by rw [hpc]; rfl) fun _ => ⟨rfl, fun _ => by rw [hpc]; rfl⟩, ?_⟩
      rw [propagate_failed fun _ => rfl, hpc]
      cases outcome <;> rfl
    · cases hstep
  | setup launch =>
    dsimp only at hstep
    split at hstep
    next config pid hpc =>
      cases hstep
      refine ⟨.starts _ (by rw [hpc]; rfl) rfl rfl rfl rfl rfl, ?_⟩
      rw [hpc]
      rfl
    · cases hstep
  | markRunning stored =>
    dsimp only at hstep
    split at hstep
    next pid hpc =>
      cases hstep
      have hlive : s.pc.ended = false := by rw [hpc]; rfl
      refine ⟨?_, by rw [hpc]; rfl⟩
      cases stored with
      | none => exact .writes [] hlive rfl nofun rfl rfl fun _ hp => absurd hp List.not_mem_nil
      | some status => exact patch_effect hlive rfl rfl (markRunningPatch_live status pid)
    · cases hstep
  | listen outcome =>
    dsimp only at hstep
    split at hstep
    next hpc =>
      have hlive : s.pc.ended = false := by rw [hpc]; rfl
      cases outcome with
      | ok resolved =>
        cases hstep
        refine ⟨patch_effect hlive rfl rfl (live_of_unmarked ⟨rfl, rfl⟩), ?_⟩
        rw [hpc]
        rfl
      | error e =>
        cases hstep
        refine ⟨silent_effect hlive rfl nofun, ?_⟩
        rw [hpc]
        rfl
    · cases hstep
  | setNonblocking outcome =>
    dsimp only at hstep
    split at hstep
    next hpc =>
      cases hstep
      refine ⟨propagate_effect (by rw [hpc]; rfl) fun _ => ⟨rfl, nofun⟩, ?_⟩
      rw [propagate_failed fun _ => rfl, hpc]
      cases outcome <;> rfl
    · cases hstep
  | wait outcome =>
    dsimp only at hstep
    split at hstep
    next hpc =>
      have hlive : s.pc.ended = false := by rw [hpc]; rfl
      cases outcome with
      | ok exitCode =>
        cases hstep
        refine ⟨silent_effect hlive rfl nofun, ?_⟩
        rw [hpc]
        rfl
      | error e =>
        cases hstep
        refine ⟨silent_effect hlive rfl nofun, ?_⟩
        rw [hpc]
        rfl
    · cases hstep
  | join =>
    dsimp only at hstep
    split at hstep
    next exitCode hpc =>
      cases hstep
      refine ⟨.leaves (by rw [hpc]; rfl) rfl rfl, ?_⟩
      rw [hpc]
      rfl
    · cases hstep
  | launcher =>
    dsimp only at hstep
    split at hstep
    next result hpc =>
      cases hstep
      refine ⟨.leaves ?_ rfl rfl, ?_⟩
      · rw [hpc]
        cases result <;> rfl
      · rw [hpc]
        cases result <;> rfl
    · cases hstep

/-! ## What a step writes -/

/-- Before the end no thread is without its host state, and the host knows whether it has ended. -/
structure Placed (s : Process G) : Prop where
  early : s.pc.early = true → s.host = none
  exited : ∀ host, s.host = some host → host.exited = s.pc.ended

theorem initial_placed : Placed (processInitial : Process G) := by
  refine ⟨fun _ => rfl, fun host hhost => ?_⟩
  cases hhost

/-- The patches of one step: live ones before the end, the final one at the end, and unmarked ones
after it. -/
inductive Writes (s t : Process G) (new : List SessionMetaPatch) : Prop where
  | live : s.pc.ended = false → t.pc.ended = false → (∀ patch ∈ new, Live patch) → Writes s t new
  | final (patch : SessionMetaPatch) : s.pc.ended = false → t.pc.ended = true → new = [patch] →
      Final patch → Writes s t new
  | unmarked : t.pc.ended = s.pc.ended → (∀ patch ∈ new, Unmarked patch) → Writes s t new

theorem Writes.none {s t : Process G} (h : t.pc.ended = s.pc.ended) : Writes s t [] :=
  .unmarked h fun _ hp => absurd hp List.not_mem_nil

theorem worker_writes {env : HostEnv G} {s : Process G} {host t : HostState G} {e : Event}
    (h : Placed s) (hhost : s.host = some host) (hruns : s.pc.runs e = true)
    (hstep : Step env host e t) :
    Placed (s.after host t) ∧
      ∃ new, (s.after host t).writes = s.writes ++ new ∧ Writes s (s.after host t) new := by
  have hexit (exitCode : Int32) : e ≠ .exit exitCode := by
    rintro rfl
    cases hruns
  have hworks := step_works hstep hexit
  obtain ⟨new, hnew, hlive, hquiet⟩ := hworks.patches
  refine ⟨⟨fun hearly => ?_, fun u hu => ?_⟩, new, ?_, ?_⟩
  · have hnone := h.early hearly
    rw [hhost] at hnone
    cases hnone
  · cases hu
    exact hworks.exited.trans (h.exited host hhost)
  · unfold Process.after
    rw [hnew, List.drop_left]
  · cases hended : s.pc.ended with
    | false => exact .live hended hended hlive
    | true => exact .unmarked rfl (hquiet ((h.exited host hhost).trans hended))

theorem main_writes {s t : Process G} {e : MainEvent} (h : Placed s) (heffect : MainEffect s t e) :
    Placed t ∧ ∃ new, t.writes = s.writes ++ new ∧ Writes s t new := by
  cases heffect with
  | writes new hs ht hearly hhost hwrites hlive =>
    refine ⟨⟨fun he => ?_, fun host hh => ?_⟩, new, hwrites, .live hs ht hlive⟩
    · rw [hhost]
      exact h.early (hearly he)
    · rw [hhost] at hh
      exact (h.exited host hh).trans (hs.trans ht.symm)
  | starts host hs ht hearly hhost hrunning hwrites =>
    refine ⟨⟨fun he => ?_, fun other hh => ?_⟩, [], ?_, .none (ht.trans hs.symm)⟩
    · exact absurd (hearly.symm.trans he) nofun
    · rw [hhost] at hh
      cases hh
      exact hrunning.trans ht.symm
    · rw [hwrites, List.append_nil]
  | spawnFails error now hearly hs ht hlate hhost hwrites =>
    refine ⟨⟨fun he => ?_, fun host hh => ?_⟩, _, hwrites,
      .final _ hs ht rfl (spawnFailedPatch_final error now)⟩
    · exact absurd (hlate.symm.trans he) nofun
    · rw [hhost, h.early hearly] at hh
      cases hh
  | leaves hended hhost hwrites =>
    refine ⟨⟨fun _ => hhost, fun host hh => ?_⟩, [], ?_, .none hended⟩
    · rw [hhost] at hh
      cases hh
    · rw [hwrites, List.append_nil]

theorem teardown_writes {env : HostEnv G} {s : Process G} {host t : HostState G}
    {exitCode : Int32} (hpc : s.pc = .teardown exitCode) (hstep : Step env host (.exit exitCode) t) :
    Placed { s.after host t with pc := .join exitCode } ∧
      ∃ new, (s.after host t).writes = s.writes ++ new ∧
        Writes s { s.after host t with pc := .join exitCode } new := by
  obtain ⟨-, clients, -, rfl⟩ := hstep
  have hnew : (handle env { host with clients := clients } (.exit exitCode)).patches =
      host.patches ++ [exitPatch exitCode (env.nowIso host.nowMs)] := teardown_patches env _ _
  refine ⟨⟨nofun, fun u hu => ?_⟩, [exitPatch exitCode (env.nowIso host.nowMs)], ?_, ?_⟩
  · cases hu
    exact teardown_exited env { host with clients := clients } exitCode
  · unfold Process.after
    rw [hnew, List.drop_left]
  · exact .final _ (by rw [hpc]; rfl) rfl rfl (exitPatch_final _ _)

theorem step_writes {env : HostEnv G} {sessionMeta : SessionMeta} {s t : Process G}
    {e : ProcessEvent} (h : Placed s) (hstep : ProcessStep env sessionMeta s e t) :
    Placed t ∧ ∃ new, t.writes = s.writes ++ new ∧ Writes s t new := by
  cases hstep with
  | main hstep => exact main_writes h (main_effect hstep).1
  | worker hhost hruns hstep => exact worker_writes h hhost hruns hstep
  | captured title progress =>
    refine ⟨⟨h.early, h.exited⟩, _, rfl, .unmarked rfl fun patch hpatch => ?_⟩
    rw [List.mem_singleton.mp hpatch]
    exact ⟨rfl, rfl⟩
  | teardown hpc hhost hstep => exact teardown_writes hpc hstep

/-- The steps that write an outcome. -/
def Ends : ProcessEvent → Prop
  | .main (.spawn (.error _) _) | .teardown => True
  | _ => False

theorem ends_of_step {env : HostEnv G} {sessionMeta : SessionMeta} {s t : Process G}
    {e : ProcessEvent} (hstep : ProcessStep env sessionMeta s e t) (hs : s.pc.ended = false)
    (ht : t.pc.ended = true) : Ends e := by
  cases hstep with
  | main hstep =>
    cases (main_effect hstep).1 with
    | writes new _ hlive => exact absurd (hlive.symm.trans ht) nofun
    | starts host _ hlive => exact absurd (hlive.symm.trans ht) nofun
    | spawnFails error now => trivial
    | leaves hended => exact absurd (hs.symm.trans (hended.symm.trans ht)) nofun
  | worker hhost hruns hstep => exact absurd (hs.symm.trans ht) nofun
  | captured title progress => exact absurd (hs.symm.trans ht) nofun
  | teardown hpc hhost hstep => trivial

end Climon.Session.HostProcess
