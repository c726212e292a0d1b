import Climon.Session.HostProcess
import Climon.Store.PatchRuns

namespace Climon.Session.TerminalRecord

open Climon.Lib.Transition Climon.Proto.Meta Climon.Session.AttentionView Climon.Session.Host
  Climon.Session.HostProcess Climon.Store.Meta Climon.Store.PatchRuns

/-!
# The record that a process leaves

What the launcher and the host have written, taken together, has a terminal status if and only if
the host did not leave through a `?`.
-/

variable {G : Type}

/-- The launcher's record under all patches of the process. -/
def recordOf (launched : Launched) (s : Process G) : SessionMeta :=
  s.writes.foldl mergePatch launched.record

theorem fold_unmarked {new : List SessionMetaPatch} (hnew : ∀ patch ∈ new, Unmarked patch)
    (base : SessionMeta) : (new.foldl mergePatch base).status = base.status := by
  induction new generalizing base with
  | nil => rfl
  | cons patch rest ih =>
    rw [List.foldl_cons, ih fun p hp => hnew p (List.mem_cons_of_mem _ hp)]
    exact merge_unmarked (hnew patch List.mem_cons_self)

theorem fold_live {new : List SessionMetaPatch} (hnew : ∀ patch ∈ new, Live patch)
    {base : SessionMeta} (hbase : base.status.isTerminalOutcome = false) :
    (new.foldl mergePatch base).status.isTerminalOutcome = false := by
  induction new generalizing base with
  | nil => exact hbase
  | cons patch rest ih =>
    rw [List.foldl_cons]
    exact ih (fun p hp => hnew p (List.mem_cons_of_mem _ hp))
      (merge_live (hnew patch List.mem_cons_self) hbase)

theorem recorded_append (launched : Launched) (s : Process G) (new : List SessionMetaPatch) :
    (s.writes ++ new).foldl mergePatch launched.record =
      new.foldl mergePatch (recordOf launched s) :=
  List.foldl_append

structure Recorded (launched : Launched) (s : Process G) : Prop where
  status : (recordOf launched s).status.isTerminalOutcome = s.pc.ended
  placed : Placed s

theorem recorded_writes {launched : Launched} {s t : Process G} {new : List SessionMetaPatch}
    (h : (recordOf launched s).status.isTerminalOutcome = s.pc.ended)
    (hwrites : t.writes = s.writes ++ new) (hnew : Writes s t new) :
    (recordOf launched t).status.isTerminalOutcome = t.pc.ended := by
  unfold recordOf
  rw [hwrites, recorded_append]
  cases hnew with
  | live hs ht hlive => rw [fold_live hlive (h.trans hs), ht]
  | final patch hs ht hpatch hfinal =>
    rw [hpatch, ht]
    exact merge_final hfinal
  | unmarked hended hunmarked => rw [fold_unmarked hunmarked, h, hended]

theorem step_recorded {launched : Launched} {env : HostEnv G} {sessionMeta : SessionMeta}
    {s t : Process G} {e : ProcessEvent} (h : Recorded launched s)
    (hstep : ProcessStep env sessionMeta s e t) : Recorded launched t := by
  obtain ⟨hplaced, new, hwrites, hnew⟩ := step_writes h.placed hstep
  exact ⟨recorded_writes h.status hwrites hnew, hplaced⟩

theorem initial_recorded (launched : Launched) :
    Recorded launched (processInitial : Process G) := by
  refine ⟨?_, initial_placed⟩
  change launched.record.status.isTerminalOutcome = false
  rw [launched.running]
  rfl

/-! ## Where a process leaves -/

theorem over_iff {pc : MainPc} (h : pc.over = true) : pc.ended = true ↔ pc.failed = false := by
  cases pc with
  | returned result => cases result <;> simp [MainPc.ended, MainPc.failed]
  | finished result => cases result <;> simp [MainPc.ended, MainPc.failed]
  | _ => cases h

theorem step_failed {env : HostEnv G} {sessionMeta : SessionMeta} {s t : Process G}
    {e : ProcessEvent} (hstep : ProcessStep env sessionMeta s e t) :
    t.pc.failed = (s.pc.failed || Escapes sessionMeta e) := by
  cases hstep with
  | main hstep => exact (main_effect hstep).2
  | worker hhost hruns hstep => exact (Bool.or_false _).symm
  | captured title progress => exact (Bool.or_false _).symm
  | teardown hpc hhost hstep =>
    rw [hpc]
    rfl

theorem run_failed {env : HostEnv G} {sessionMeta : SessionMeta} {s t : Process G}
    {es : List ProcessEvent} (run : Run (ProcessStep env sessionMeta) s es t) :
    t.pc.failed = (s.pc.failed || es.any (Escapes sessionMeta)) := by
  induction run with
  | nil => exact (Bool.or_false _).symm
  | cons hstep _ ih => rw [ih, step_failed hstep, List.any_cons, Bool.or_assoc]

/-! ## Main result -/

/-- Once the host has returned to its launcher, the last status that either of them wrote is
terminal exactly if no call on the way failed whose error leaves through a `?`. -/
theorem terminal_record (env : HostEnv G) (launched : Launched) (sessionMeta : SessionMeta)
    (es : List ProcessEvent) (s : Process G)
    (run : Run (ProcessStep env sessionMeta) processInitial es s) (hover : s.pc.over = true) :
    (recordOf launched s).status.isTerminalOutcome = true ↔
      ∀ e ∈ es, Escapes sessionMeta e = false := by
  have hrecorded : Recorded launched s :=
    run.invariant (I := Recorded launched) (fun h hstep => step_recorded h hstep)
      (initial_recorded launched)
  have hfailed : s.pc.failed = es.any (Escapes sessionMeta) := run_failed run
  rw [hrecorded.status, over_iff hover, hfailed, List.any_eq_false]
  simp

/-! A session that runs to its end, and one whose configuration does not load. -/

def sampleLaunched : Launched := ⟨sampleMeta "t" none, rfl⟩

def samplePlain : List ProcessEvent :=
  [.main (.loadConfig (.ok ⟨10, false⟩)), .main .resolveCommand, .main (.spawn (.ok (some 7)) "t"),
    .main (.cloneReader (.ok ())), .main (.takeWriter (.ok ())), .main (.setup .headless),
    .main (.markRunning (some .running)), .main (.listen (.ok "tcp://127.0.0.1:4000")),
    .main (.setNonblocking (.ok ())), .main (.wait (.ok 0)), .teardown, .main .join]

theorem terminal_record_plain : ∃ s, s.pc.over = true ∧
    Run (ProcessStep plainEnv sampleLaunched.record) processInitial samplePlain s ∧
    (recordOf sampleLaunched s).status.isTerminalOutcome = true := by
  have run : ∃ s, s.pc.over = true ∧
      Run (ProcessStep plainEnv sampleLaunched.record) processInitial samplePlain s :=
    ⟨_, rfl, .cons (.main rfl) (.cons (.main rfl) (.cons (.main rfl) (.cons (.main rfl)
      (.cons (.main rfl) (.cons (.main rfl) (.cons (.main rfl) (.cons (.main rfl)
      (.cons (.main rfl) (.cons (.main rfl) (.cons (.teardown rfl rfl (step_of_next rfl))
      (.cons (.main rfl) (.nil _))))))))))))⟩
  obtain ⟨s, hover, run⟩ := run
  refine ⟨s, hover, run, (terminal_record plainEnv sampleLaunched sampleLaunched.record _ s run
    hover).mpr ?_⟩
  unfold samplePlain
  simp [Escapes, sampleLaunched, sampleMeta]

def sampleConfigError : List ProcessEvent :=
  [.main (.loadConfig (.error "Unsupported climon config format in /root/.climon/config.jsonc")),
    .main .launcher]

/-- The session stays recorded as running. -/
theorem running_after_config_error : ∃ s,
    Run (ProcessStep plainEnv sampleLaunched.record) processInitial sampleConfigError s ∧
    s.pc.over = true ∧ (recordOf sampleLaunched s).status = .running :=
  ⟨_, .cons (.main rfl) (.cons (.main rfl) (.nil _)), rfl, rfl⟩

end Climon.Session.TerminalRecord
