import Climon.Remote.Teardown

namespace Climon.Remote.BeaconOwners

open Climon.Lib.EffectLog Climon.Remote.StateFiles Climon.Remote.Teardown

/-!
# Beacons of living processes

Each beacon names a process by its own pid. What a teardown knows of a process are the answers to
its probes, each at its place in the log.
-/

section

variable (windows : Bool) (world : World) (log : List Effect) (pid : UInt32)

/-- The process was probed, with this answer. -/
def Probed (alive : Bool) (before after : List Effect) : Prop :=
  log = before ++ .probe (address windows pid) :: after ∧ world.alive before pid = alive

/-- The answer to the first probe. -/
def First (alive : Bool) : Prop :=
  ∃ before after, Probed windows world log pid alive before after ∧
    .probe (address windows pid) ∉ before

def Found (alive : Bool) : Prop := ∃ before after, Probed windows world log pid alive before after

/-- Found dead, and not signalled any more. -/
def DeadAtLast : Prop :=
  ∃ before after, Probed windows world log pid false before after ∧
    ∀ force, .signal (address windows pid) force ∉ after

end

/-! ## What is reported -/

inductive Component where
  | server
  | ingest
  | uplink
  deriving DecidableEq, Repr

namespace Component

def name : Component → String
  | server => "dashboard server"
  | ingest => "ingest daemon"
  | uplink => "uplink daemon"

/-- The process that is recorded for it. -/
def recorded (home : Home) : Component → Option UInt32
  | server => (home.serverJson.bind parseServerState).map (·.pid)
  | ingest => readPid home.ingestPid
  | uplink => readPid home.uplinkPid

def stopped (report : TeardownReport) : Component → Bool
  | server => report.serverStopped
  | ingest => report.ingestStopped
  | uplink => report.uplinkStopped

end Component

/-- The pid that a file names. -/
def named (home : Home) : BeaconFile → Option UInt32
  | .serverJson => (home.serverJson.bind parseServerState).map (·.pid)
  | .ingestJson => (home.ingestJson.bind parseIngestState).map (·.pid)
  | .ingestPid => readPid home.ingestPid
  | .uplinkPid => readPid home.uplinkPid
  | .shutdownRequest => none

/-- What a teardown may remove and must report. -/
structure Keeps (windows : Bool) (world : World) (home : Home) (report : TeardownReport)
    (log : List Effect) : Prop where
  removed : ∀ file pid, named home file = some pid → .remove file ∈ log →
    First windows world log pid false ∨ DeadAtLast windows world log pid
  retained : ∀ file, home.present file = true → .remove file ∉ log →
    ∃ owner, ⟨file, owner⟩ ∈ report.staleFiles ∧ ∀ pid ∈ named home file, owner = pid
  stopped : ∀ c : Component, c.stopped report = true ↔ ∃ pid, c.recorded home = some pid ∧
    First windows world log pid true ∧ Found windows world log pid false
  failures : ∀ (c : Component) pid, c.recorded home = some pid → Found windows world log pid true →
    ¬ Found windows world log pid false →
      ∃ failure ∈ report.failures, failure.component = c.name ∧ failure.pid = pid

/-- Whatever is answered. -/
def KeepsAlways (windows : Bool) (home : Home) : Prop :=
  ∀ world, Keeps windows world home (teardownLocalServerStack windows world home []).1
    (teardownLocalServerStack windows world home []).2

/-- No process is recorded for two components, and the ingest beacon names that of the pidfile. -/
structure Agreed (home : Home) : Prop where
  distinct : ∀ (c d : Component) pid, c.recorded home = some pid → d.recorded home = some pid → c = d
  beacon : ∀ pid, home.present .ingestJson = true → named home .ingestJson = some pid →
    readPid home.ingestPid = some pid

/-! ## Waiting for a process -/

section

variable {windows : Bool} {world : World} {pid : UInt32} {component : String}
  {log added more : List Effect} {outcome : DaemonOutcome}

/-- Every answer so far is that it lives. -/
def AllAlive (windows : Bool) (world : World) (pid : UInt32) (log added : List Effect) : Prop :=
  ∀ front back, added = front ++ .probe (address windows pid) :: back →
    world.alive (log ++ front) pid = true

theorem allAlive_nil : AllAlive windows world pid log [] := by
  intro front back h
  exact absurd (congrArg List.length h) (by simp)

theorem allAlive_append (h : AllAlive windows world pid log added)
    (hmore : AllAlive windows world pid (log ++ added) more) :
    AllAlive windows world pid log (added ++ more) := by
  intro front back heq
  rcases List.append_eq_append_iff.mp heq with ⟨rest, rfl, hrest⟩ | ⟨rest, hadded, hrest⟩
  · rw [← List.append_assoc]
    exact hmore rest back hrest
  · cases rest with
    | nil =>
      rw [List.append_nil] at hadded
      subst hadded
      have halive := hmore [] back (by rw [List.nil_append]; exact hrest.symm)
      rwa [List.append_nil] at halive
    | cons e rest =>
      obtain ⟨rfl, -⟩ := List.cons.inj hrest
      exact h front rest hadded

theorem allAlive_cons {e : Effect} (h : e = .probe (address windows pid) → world.alive log pid = true)
    (hmore : AllAlive windows world pid (log ++ [e]) more) :
    AllAlive windows world pid log (e :: more) := by
  have hone : AllAlive windows world pid log [e] := by
    intro front back heq
    cases front with
    | nil =>
      rw [List.append_nil]
      exact h (List.cons.inj heq).1
    | cons f front => exact absurd (congrArg List.length heq) (by simp)
  exact allAlive_append hone hmore

/-- Found dead by the last probe, or alive by every one. -/
def Concluded (windows : Bool) (world : World) (pid : UInt32) (log added : List Effect)
    (dead : Bool) : Prop :=
  if dead then ∃ front, added = front ++ [.probe (address windows pid)] ∧
    world.alive (log ++ front) pid = false
  else AllAlive windows world pid log added

theorem concluded_append {dead : Bool} (h : AllAlive windows world pid log added)
    (hmore : Concluded windows world pid (log ++ added) more dead) :
    Concluded windows world pid log (added ++ more) dead := by
  cases dead with
  | true =>
    obtain ⟨front, rfl, hdead⟩ := hmore
    rw [List.append_assoc] at hdead
    exact ⟨added ++ front, (List.append_assoc _ _ _).symm, hdead⟩
  | false => exact allAlive_append h hmore

theorem concluded_probe :
    Concluded windows world pid log [.probe (address windows pid)] !(world.alive log pid) := by
  cases halive : world.alive log pid with
  | true => exact allAlive_cons (fun _ => halive) allAlive_nil
  | false => exact ⟨[], rfl, by rwa [List.append_nil]⟩

theorem pollDeath_spec (polls : Nat) (log : List Effect) : ∃ added,
    (pollDeath windows world pid polls log).2 = log ++ added ∧
      Concluded windows world pid log added (pollDeath windows world pid polls log).1 := by
  induction polls generalizing log with
  | zero => exact ⟨[.probe (address windows pid)], rfl, concluded_probe⟩
  | succ polls ih =>
    have hrun : pollDeath windows world pid (polls + 1) log =
        (if world.alive log pid then pollDeath windows world pid polls else pure true)
          (log ++ [.probe (address windows pid)]) := rfl
    rw [hrun]
    cases halive : world.alive log pid with
    | true =>
      obtain ⟨added, hadded, hconcluded⟩ := ih (log ++ [.probe (address windows pid)])
      refine ⟨.probe (address windows pid) :: added, ?_, ?_⟩
      · rw [if_pos rfl, hadded, List.append_assoc, List.singleton_append]
      · have hone : AllAlive windows world pid log [.probe (address windows pid)] :=
          allAlive_cons (fun _ => halive) allAlive_nil
        exact concluded_append hone hconcluded
    | false =>
      have hprobe : Concluded windows world pid log [.probe (address windows pid)] true := by
        have h : Concluded windows world pid log _ _ := concluded_probe
        rwa [halive] at h
      exact ⟨[.probe (address windows pid)], rfl, hprobe⟩

theorem waitForDeath_spec (timeoutMs : Nat) (log : List Effect) : ∃ added,
    (waitForDeath windows world pid timeoutMs log).2 = log ++ added ∧
      Concluded windows world pid log added (waitForDeath windows world pid timeoutMs log).1 :=
  pollDeath_spec (world.polls log timeoutMs) log

/-! ## Stopping a process that was found alive -/

/-- Gone, as the last probe says, or else alive by every probe and reported as a failure. -/
def Judged (windows : Bool) (world : World) (component : String) (pid : UInt32)
    (log added : List Effect) (outcome : DaemonOutcome) : Prop :=
  outcome = gone ∧ Concluded windows world pid log added true ∨
    outcome.stopped = false ∧ outcome.dead = false ∧
      (∃ failure ∈ outcome.failures, failure.component = component ∧ failure.pid = pid) ∧
      AllAlive windows world pid log added

/-- Wherever it starts, the program judges the process. -/
def Judges (windows : Bool) (world : World) (component : String) (pid : UInt32)
    (m : Acting Effect DaemonOutcome) : Prop :=
  ∀ log, ∃ added, (m log).2 = log ++ added ∧ Judged windows world component pid log added (m log).1

theorem judged_append (h : AllAlive windows world pid log added)
    (hmore : Judged windows world component pid (log ++ added) more outcome) :
    Judged windows world component pid log (added ++ more) outcome := by
  rcases hmore with ⟨hgone, hdead⟩ | ⟨hstopped, hdead, hfailure, halive⟩
  · exact .inl ⟨hgone, concluded_append h hdead⟩
  · exact .inr ⟨hstopped, hdead, hfailure, allAlive_append h halive⟩

theorem judges_failure (hstopped : outcome.stopped = false) (hdead : outcome.dead = false)
    (hfailure : ∃ failure ∈ outcome.failures, failure.component = component ∧ failure.pid = pid) :
    Judges windows world component pid (pure outcome) :=
  fun log => ⟨[], (List.append_nil log).symm, .inr ⟨hstopped, hdead, hfailure, allAlive_nil⟩⟩

theorem judges_act {α : Type} {e : Effect} {answer : List Effect → α}
    {k : α → Acting Effect DaemonOutcome} (he : e ≠ .probe (address windows pid))
    (h : ∀ a, Judges windows world component pid (k a)) :
    Judges windows world component pid (act e answer >>= k) := by
  intro log
  obtain ⟨added, hadded, hjudged⟩ := h (answer log) (log ++ [e])
  refine ⟨e :: added, ?_, ?_⟩
  · calc
      ((act e answer >>= k) log).2 = (k (answer log) (log ++ [e])).2 := rfl
      _ = log ++ e :: added := by rw [hadded, List.append_assoc, List.singleton_append]
  · have hone : AllAlive windows world pid log [e] :=
      allAlive_cons (fun heq => absurd heq he) allAlive_nil
    exact judged_append hone hjudged

/-- The program returns once the process is dead. -/
theorem judges_wait {k : Bool → Acting Effect DaemonOutcome} {timeoutMs : Nat}
    (hdead : k true = pure gone) (h : Judges windows world component pid (k false)) :
    Judges windows world component pid (waitForDeath windows world pid timeoutMs >>= k) := by
  intro log
  obtain ⟨added, hadded, hconcluded⟩ := @waitForDeath_spec windows world pid timeoutMs log
  have hrun : (waitForDeath windows world pid timeoutMs >>= k) log =
      k (waitForDeath windows world pid timeoutMs log).1 (log ++ added) := by
    rw [← hadded]
    rfl
  rw [hrun]
  cases hresult : (waitForDeath windows world pid timeoutMs log).1 with
  | true =>
    rw [hresult] at hconcluded
    rw [hdead]
    exact ⟨added, rfl, .inl ⟨rfl, hconcluded⟩⟩
  | false =>
    rw [hresult] at hconcluded
    obtain ⟨more, hmore, hjudged⟩ := h (log ++ added)
    exact ⟨added ++ more, by rw [hmore, List.append_assoc], judged_append hconcluded hjudged⟩

theorem judges_unsignalled :
    Judges windows world component pid (pure (unsignalled windows component pid)) :=
  judges_failure rfl rfl ⟨_, List.mem_singleton_self _, rfl, rfl⟩

theorem judges_outlived :
    Judges windows world component pid (pure (outlived windows component pid)) :=
  judges_failure rfl rfl ⟨_, List.mem_singleton_self _, rfl, rfl⟩

theorem judges_lastWait (timeoutMs : Nat) : Judges windows world component pid (do
    if ← waitForDeath windows world pid timeoutMs then return gone
    return outlived windows component pid) :=
  judges_wait rfl judges_outlived

theorem judges_stopDaemon :
    Judges windows world component pid (stopDaemon windows world component pid) := by
  refine judges_act (by simp) fun killed => ?_
  cases killed with
  | false => exact judges_unsignalled
  | true =>
    refine judges_wait rfl ?_
    cases windows with
    | true => exact judges_lastWait _
    | false => exact judges_act (by simp) fun _ => judges_lastWait _

/-- Once the server was found alive. -/
theorem judges_server (port : UInt16) : Judges windows world "dashboard server" pid (do
    let _ ← requestShutdown world port
    if ← waitForDeath windows world pid waitTimeoutMs then return gone
    if ← killProcess windows world pid windows then
      if ← waitForDeath windows world pid waitTimeoutMs then return gone
      let _ ← killProcess windows world pid true
      if ← waitForDeath windows world pid (min waitTimeoutMs 2000) then return gone
      return outlived windows "dashboard server" pid
    else return unsignalled windows "dashboard server" pid) := by
  refine judges_act (by simp) fun _ => judges_wait rfl (judges_act (by simp) fun killed => ?_)
  cases killed with
  | false => exact judges_unsignalled
  | true => exact judges_wait rfl (judges_act (by simp) fun _ => judges_lastWait _)

/-! ## The part of a component -/

/-- What a component's part adds to the log, and what comes of it. -/
inductive Part (windows : Bool) (world : World) (component : String) :
    Option UInt32 → List Effect → List Effect → DaemonOutcome → Prop where
  | absent (log : List Effect) : Part windows world component none log [] ⟨false, true, []⟩
  | deadAtFirst (pid : UInt32) (log : List Effect) (h : world.alive log pid = false) :
      Part windows world component (some pid) log [.probe (address windows pid)] ⟨false, true, []⟩
  | judged (pid : UInt32) (log added : List Effect) (outcome : DaemonOutcome)
      (h : world.alive log pid = true)
      (hjudged : Judged windows world component pid (log ++ [.probe (address windows pid)]) added
        outcome) :
      Part windows world component (some pid) log (.probe (address windows pid) :: added) outcome

/-- A part probes first, and goes on if the process lives. -/
theorem part_of_judges {m : Acting Effect DaemonOutcome}
    (h : Judges windows world component pid m) (log : List Effect) :
    let run := (do if ← isProcessAlive windows world pid then m else return ⟨false, true, []⟩ :
      Acting Effect DaemonOutcome) log
    ∃ added, run.2 = log ++ added ∧ Part windows world component (some pid) log added run.1 := by
  have hrun : (do if ← isProcessAlive windows world pid then m else return ⟨false, true, []⟩ :
      Acting Effect DaemonOutcome) log =
        (if world.alive log pid then m else pure ⟨false, true, []⟩)
          (log ++ [.probe (address windows pid)]) := rfl
  rw [hrun]
  cases halive : world.alive log pid with
  | true =>
    obtain ⟨added, hadded, hjudged⟩ := h (log ++ [.probe (address windows pid)])
    refine ⟨.probe (address windows pid) :: added, ?_, .judged pid log added _ halive hjudged⟩
    rw [if_pos rfl, hadded, List.append_assoc, List.singleton_append]
  | false => exact ⟨[.probe (address windows pid)], rfl, .deadAtFirst pid log halive⟩

theorem stopServer_part (state : Option ServerState) (log : List Effect) : ∃ added,
    (stopServer windows world state log).2 = log ++ added ∧
      Part windows world "dashboard server" (state.map (·.pid)) log added
        (stopServer windows world state log).1 := by
  cases state with
  | none => exact ⟨[], (List.append_nil log).symm, .absent log⟩
  | some state => exact part_of_judges (judges_server state.port) log

theorem stopByPid_part (raw : Option UInt32) (log : List Effect) : ∃ added,
    (stopByPid windows world component raw log).2 = log ++ added ∧
      Part windows world component raw log added (stopByPid windows world component raw log).1 := by
  cases raw with
  | none => exact ⟨[], (List.append_nil log).symm, .absent log⟩
  | some pid => exact part_of_judges judges_stopDaemon log

end

/-! ## What a part says about its process -/

section

variable {windows : Bool} {world : World} {pid : UInt32} {component : String}
  {before part after : List Effect} {outcome : DaemonOutcome}

theorem address_inj {p q : UInt32} (h : address windows p = address windows q) : p = q := by
  cases windows with
  | true => exact UInt32.toNat_inj.mp (Int.ofNat.inj h)
  | false =>
    have hsigned : p.toInt32 = q.toInt32 := Int32.toInt_inj.mp h
    exact congrArg Int32.toUInt32 hsigned

/-- No probe and no signal of the process. -/
def Foreign (windows : Bool) (pid : UInt32) (log : List Effect) : Prop :=
  .probe (address windows pid) ∉ log ∧ ∀ force, .signal (address windows pid) force ∉ log

/-- A probe of the process is in its part. -/
theorem probed_part {alive : Bool} {front back : List Effect} (hbefore : Foreign windows pid before)
    (hafter : Foreign windows pid after)
    (h : Probed windows world (before ++ part ++ after) pid alive front back) :
    ∃ head tail, part = head ++ .probe (address windows pid) :: tail ∧ front = before ++ head ∧
      back = tail ++ after := by
  obtain ⟨head, rfl, hrest⟩ : ∃ head, front = before ++ head ∧
      part ++ after = head ++ .probe (address windows pid) :: back := by
    have heq := h.1
    rw [List.append_assoc] at heq
    rcases List.append_eq_append_iff.mp heq with ⟨head, hfront, hrest⟩ | ⟨rest, hfront, hrest⟩
    · exact ⟨head, hfront, hrest⟩
    · cases rest with
      | nil => exact ⟨[], by rw [hfront, List.append_nil, List.append_nil], hrest.symm⟩
      | cons e rest =>
        obtain ⟨rfl, -⟩ := List.cons.inj hrest
        exact absurd (hfront ▸ List.mem_append_right front List.mem_cons_self) hbefore.1
  rcases List.append_eq_append_iff.mp hrest with ⟨rest, rfl, hback⟩ | ⟨tail, hpart, hback⟩
  · exact absurd (hback ▸ List.mem_append_right rest List.mem_cons_self) hafter.1
  · cases tail with
    | nil =>
      rw [List.nil_append] at hback
      exact absurd (hback ▸ List.mem_cons_self) hafter.1
    | cons e tail =>
      obtain ⟨rfl, rfl⟩ := List.cons.inj hback
      exact ⟨head, tail, hpart, rfl, rfl⟩

variable {log added : List Effect} {b : Bool}

/-- A part starts with the first probe of its process. -/
theorem first_iff (hbefore : Foreign windows pid before) (hafter : Foreign windows pid after) :
    First windows world (before ++ .probe (address windows pid) :: added ++ after) pid b ↔
      world.alive before pid = b := by
  constructor
  · rintro ⟨front, back, hprobed, hfirst⟩
    obtain ⟨head, tail, hpart, rfl, -⟩ := probed_part hbefore hafter hprobed
    cases head with
    | nil => simpa using hprobed.2
    | cons e head =>
      obtain ⟨rfl, -⟩ := List.cons.inj hpart
      exact absurd (List.mem_append_right before List.mem_cons_self) hfirst
  · intro h
    exact ⟨before, added ++ after, ⟨by simp, h⟩, hbefore.1⟩

/-- What a part is judged by is all there is about its process. -/
structure Told (windows : Bool) (world : World) (component : String) (pid : UInt32)
    (log : List Effect) (outcome : DaemonOutcome) : Prop where
  stopped : outcome.stopped = true ↔ First windows world log pid true ∧ Found windows world log pid false
  dead : outcome.dead = true → First windows world log pid false ∨ DeadAtLast windows world log pid
  failure : Found windows world log pid true → ¬ Found windows world log pid false →
    ∃ failure ∈ outcome.failures, failure.component = component ∧ failure.pid = pid

theorem told_of_part (h : Part windows world component (some pid) before part outcome)
    (hbefore : Foreign windows pid before) (hafter : Foreign windows pid after) :
    Told windows world component pid (before ++ part ++ after) outcome := by
  cases h with
  | deadAtFirst _ _ hdead =>
    have hfirst : First windows world (before ++ [.probe (address windows pid)] ++ after) pid false :=
      (first_iff hbefore hafter).mpr hdead
    refine ⟨?_, fun _ => .inl hfirst, ?_⟩
    · refine iff_of_false (by simp) fun hstopped => ?_
      have halive := (first_iff hbefore hafter).mp hstopped.1
      rw [hdead] at halive
      cases halive
    · intro _ hnot
      obtain ⟨front, back, hprobed, -⟩ := hfirst
      exact absurd ⟨front, back, hprobed⟩ hnot
  | judged _ _ added _ halive hjudged =>
    have hfirst : First windows world
        (before ++ .probe (address windows pid) :: added ++ after) pid true :=
      (first_iff hbefore hafter).mpr halive
    rcases hjudged with ⟨rfl, front, hadded, hdead⟩ | ⟨hstopped, hnotDead, hfailure, hall⟩
    · have hlast : Probed windows world
          (before ++ .probe (address windows pid) :: added ++ after) pid false
            (before ++ .probe (address windows pid) :: front) after := by
        refine ⟨by simp [hadded], ?_⟩
        rw [List.append_assoc, List.singleton_append] at hdead
        exact hdead
      exact ⟨iff_of_true rfl ⟨hfirst, _, _, hlast⟩, fun _ => .inr ⟨_, _, hlast, hafter.2⟩,
        fun _ hnot => absurd ⟨_, _, hlast⟩ hnot⟩
    · have hnever : ¬ Found windows world
          (before ++ .probe (address windows pid) :: added ++ after) pid false := by
        rintro ⟨front, back, hprobed⟩
        obtain ⟨head, tail, hpart, rfl, -⟩ := probed_part hbefore hafter hprobed
        have hanswer := hprobed.2
        cases head with
        | nil =>
          rw [List.append_nil, halive] at hanswer
          cases hanswer
        | cons e head =>
          obtain ⟨rfl, hadded⟩ := List.cons.inj hpart
          have halive' := hall head tail hadded
          rw [List.append_assoc, List.singleton_append, hanswer] at halive'
          cases halive'
      refine ⟨iff_of_false (by simp [hstopped]) fun h => hnever h.2, ?_, fun _ _ => hfailure⟩
      intro hdead
      rw [hnotDead] at hdead
      cases hdead

end

/-! ## The sweep -/

section

variable {windows : Bool} {world : World} {home : Home} {file : BeaconFile} {pid : UInt32}

/-- A file, its owner and whether that is dead. -/
abbrev Owned := BeaconFile × Option UInt32 × Bool

def removedOf (home : Home) (owners : List Owned) : List BeaconFile :=
  (owners.filter fun o => home.present o.1 && (o.2.2 || o.2.1.isNone)).map (·.1)

def staleOf (home : Home) (owners : List Owned) : List StaleFile :=
  owners.filterMap fun o =>
    if home.present o.1 && !o.2.2 then o.2.1.map fun pid => ⟨o.1, pid⟩ else none

theorem sweep_eq (owners : List Owned) (log : List Effect) : sweep home owners log =
    ((removedOf home owners, staleOf home owners),
      log ++ (removedOf home owners).map Effect.remove) := by
  induction owners generalizing log with
  | nil => exact congrArg (([], []), ·) (List.append_nil log).symm
  | cons owner rest ih =>
    obtain ⟨file, pid, dead⟩ := owner
    cases hpresent : home.present file with
    | false =>
      have hskip : sweep home ((file, pid, dead) :: rest) log = sweep home rest log := by
        simp [sweep, hpresent]
      rw [hskip, ih]
      simp [removedOf, staleOf, hpresent]
    | true =>
      have hgone (hown : (dead || pid.isNone) = true) :
          sweep home ((file, pid, dead) :: rest) log =
            ((file :: removedOf home rest, staleOf home rest),
              log ++ [.remove file] ++ (removedOf home rest).map Effect.remove) := by
        have hrun : sweep home ((file, pid, dead) :: rest) log =
            (fun r => ((file :: r.1.1, r.1.2), r.2)) (sweep home rest (log ++ [.remove file])) := by
          cases dead with
          | true =>
            cases pid <;>
            · rw [sweep.eq_def]
              simp only [hpresent, not_true_eq_false, if_false]
              rfl
          | false =>
            cases pid with
            | none =>
              rw [sweep.eq_def]
              simp only [hpresent, not_true_eq_false, if_false]
              rfl
            | some pid => cases hown
        rw [hrun, ih]
      cases dead with
      | true =>
        rw [hgone rfl]
        simp [removedOf, staleOf, hpresent]
      | false =>
        cases pid with
        | none =>
          rw [hgone rfl]
          simp [removedOf, staleOf, hpresent]
        | some pid =>
          have hkept : sweep home ((file, some pid, false) :: rest) log =
              (fun r => ((r.1.1, ⟨file, pid⟩ :: r.1.2), r.2)) (sweep home rest log) := by
            rw [sweep]
            simp only [hpresent, not_true_eq_false, if_false]
            rfl
          rw [hkept, ih]
          simp [removedOf, staleOf, hpresent]

/-- The owners as the parts leave them. -/
def owners (home : Home) (server ingest uplink : Bool) : List Owned :=
  [(.serverJson, Component.server.recorded home, server),
    (.ingestJson, Component.ingest.recorded home, ingest),
    (.ingestPid, Component.ingest.recorded home, ingest),
    (.uplinkPid, Component.uplink.recorded home, uplink),
    (.shutdownRequest, none, true)]

/-- Effects of a part: on its own process, and no removal. -/
def Own (windows : Bool) (raw : Option UInt32) (e : Effect) : Prop :=
  (∀ pid, raw ≠ some pid → e ≠ .probe (address windows pid) ∧
    ∀ force, e ≠ .signal (address windows pid) force) ∧ ∀ file, e ≠ .remove file

theorem own_allows (pid : UInt32) : Allows (Own windows (some pid)) windows pid := by
  have hother {q : UInt32} (h : some pid ≠ some q) : address windows pid ≠ address windows q :=
    fun heq => h (congrArg some (address_inj heq))
  constructor
  · exact ⟨fun q hq => ⟨by simpa using hother hq, by simp⟩, by simp⟩
  · intro force
    refine ⟨fun q hq => ⟨by simp, fun force' heq => ?_⟩, by simp⟩
    exact hother hq (Effect.signal.inj heq).1

/-- The log of a teardown, part by part, and the report that is made of the parts. -/
structure Run (windows : Bool) (world : World) (home : Home) (server ingest uplink : List Effect)
    (s i u : DaemonOutcome) : Prop where
  log : (teardownLocalServerStack windows world home []).2 = server ++ ingest ++ uplink ++
    (removedOf home (owners home s.dead i.dead u.dead)).map Effect.remove
  report : (teardownLocalServerStack windows world home []).1 =
    { serverStopped := s.stopped
      ingestStopped := i.stopped
      uplinkStopped := u.stopped
      removed := removedOf home (owners home s.dead i.dead u.dead)
      failures := s.failures ++ i.failures ++ u.failures
      staleFiles := staleOf home (owners home s.dead i.dead u.dead) }
  serverPart : Part windows world Component.server.name (Component.server.recorded home) [] server s
  ingestPart : Part windows world Component.ingest.name (Component.ingest.recorded home) server
    ingest i
  uplinkPart : Part windows world Component.uplink.name (Component.uplink.recorded home)
    (server ++ ingest) uplink u
  serverOwn : ∀ e ∈ server, Own windows (Component.server.recorded home) e
  ingestOwn : ∀ e ∈ ingest, Own windows (Component.ingest.recorded home) e
  uplinkOwn : ∀ e ∈ uplink, Own windows (Component.uplink.recorded home) e

theorem teardown_run (windows : Bool) (world : World) (home : Home) :
    ∃ server ingest uplink s i u, Run windows world home server ingest uplink s i u := by
  have hown {raw : Option UInt32} {component : String} {log added : List Effect}
      (h : (stopByPid windows world component raw log).2 = log ++ added) :
      ∀ e ∈ added, Own windows raw e := by
    have hallows : ∀ pid, raw = some pid → Allows (Own windows raw) windows pid := by
      rintro pid rfl
      exact own_allows pid
    obtain ⟨added', hadded, hwithin⟩ := within_stopByPid hallows component log
    rw [h] at hadded
    rwa [List.append_cancel_left hadded]
  obtain ⟨server, hserver, hserverPart⟩ :=
    @stopServer_part windows world (home.serverJson.bind parseServerState) []
  have hserverOwn : ∀ e ∈ server, Own windows (Component.server.recorded home) e := by
    have hallows : ∀ state, home.serverJson.bind parseServerState = some state →
        Allows (Own windows (Component.server.recorded home)) windows state.pid ∧
          Own windows (Component.server.recorded home) (.contact "127.0.0.1" state.port) := by
      intro state hstate
      rw [Component.recorded, hstate]
      exact ⟨own_allows state.pid, by simp [Own]⟩
    obtain ⟨added, hadded, hwithin⟩ := within_stopServer hallows []
    rw [hserver] at hadded
    rwa [List.append_cancel_left hadded]
  obtain ⟨ingest, hingest, hingestPart⟩ :=
    @stopByPid_part windows world "ingest daemon" (readPid home.ingestPid) server
  obtain ⟨uplink, huplink, huplinkPart⟩ :=
    @stopByPid_part windows world "uplink daemon" (readPid home.uplinkPid) (server ++ ingest)
  rw [List.nil_append] at hserver
  have hrun : teardownLocalServerStack windows world home [] =
      (let first := stopServer windows world (home.serverJson.bind parseServerState) []
       let second := stopByPid windows world "ingest daemon" (readPid home.ingestPid) first.2
       let third := stopByPid windows world "uplink daemon" (readPid home.uplinkPid) second.2
       let swept := sweep home (owners home first.1.dead second.1.dead third.1.dead) third.2
       ({ serverStopped := first.1.stopped
          ingestStopped := second.1.stopped
          uplinkStopped := third.1.stopped
          removed := swept.1.1
          failures := first.1.failures ++ second.1.failures ++ third.1.failures
          staleFiles := swept.1.2 }, swept.2)) := rfl
  simp only [hserver, hingest, huplink, sweep_eq] at hrun
  exact ⟨server, ingest, uplink, _, _, _, congrArg Prod.snd hrun, congrArg Prod.fst hrun, hserverPart,
    hingestPart, huplinkPart, hserverOwn, hown hingest, hown huplink⟩

end

/-! ## The beacons and their owners -/

namespace Component

/-- The component that a file belongs to. -/
def ofFile : BeaconFile → Option Component
  | .serverJson => some server
  | .ingestJson => some ingest
  | .ingestPid => some ingest
  | .uplinkPid => some uplink
  | .shutdownRequest => none

/-- One value for each component. -/
def pick {α : Type} (s i u : α) : Component → α
  | server => s
  | ingest => i
  | uplink => u

/-- The order of the parts. -/
def index : Component → Nat := pick 0 1 2

end Component

section

variable {windows : Bool} {world : World} {home : Home} {file : BeaconFile} {pid : UInt32}
  {c d : Component} {server ingest uplink : List Effect} {s i u : DaemonOutcome}

theorem mem_removedOf {ds di du : Bool} : file ∈ removedOf home (owners home ds di du) ↔
    home.present file = true ∧ ∀ c, Component.ofFile file = some c →
      c.pick ds di du = true ∨ c.recorded home = none := by
  have hmem (owners : List Owned) : file ∈ removedOf home owners ↔
      ∃ raw dead, (file, raw, dead) ∈ owners ∧ home.present file = true ∧
        (dead = true ∨ raw = none) := by
    simp [removedOf]
  rw [hmem]
  cases file <;> simp [owners, Component.ofFile, Component.pick, and_assoc]

theorem mem_staleOf {ds di du : Bool} : ⟨file, pid⟩ ∈ staleOf home (owners home ds di du) ↔
    home.present file = true ∧ ∃ c, Component.ofFile file = some c ∧ c.pick ds di du = false ∧
      c.recorded home = some pid := by
  cases file <;> simp [staleOf, owners, Component.ofFile, Component.pick, and_assoc]

/-- In agreement, what a file names is recorded for its component. -/
theorem Agreed.recorded (h : Agreed home) (hpresent : home.present file = true)
    (hnamed : named home file = some pid) :
    ∃ c, Component.ofFile file = some c ∧ c.recorded home = some pid := by
  cases file with
  | serverJson => exact ⟨.server, rfl, hnamed⟩
  | ingestJson => exact ⟨.ingest, rfl, h.beacon pid hpresent hnamed⟩
  | ingestPid => exact ⟨.ingest, rfl, hnamed⟩
  | uplinkPid => exact ⟨.uplink, rfl, hnamed⟩
  | shutdownRequest => cases hnamed

theorem foreign_append {front back : List Effect} (h : Foreign windows pid front)
    (hback : Foreign windows pid back) : Foreign windows pid (front ++ back) := by
  constructor
  · rw [List.mem_append]
    exact fun hmem => hmem.elim h.1 hback.1
  · intro force
    rw [List.mem_append]
    exact fun hmem => hmem.elim (h.2 force) (hback.2 force)

theorem foreign_nil : Foreign windows pid [] := ⟨List.not_mem_nil, fun _ => List.not_mem_nil⟩

theorem foreign_removals (files : List BeaconFile) :
    Foreign windows pid (files.map Effect.remove) := by
  constructor
  · simp
  · simp

theorem foreign_of_own {raw : Option UInt32} {part : List Effect}
    (h : ∀ e ∈ part, Own windows raw e) (hne : raw ≠ some pid) : Foreign windows pid part :=
  ⟨fun hmem => ((h _ hmem).1 pid hne).1 rfl, fun force hmem => ((h _ hmem).1 pid hne).2 force rfl⟩

theorem part_cons {component : String} {before part : List Effect} {outcome : DaemonOutcome}
    (h : Part windows world component (some pid) before part outcome) :
    ∃ rest, part = .probe (address windows pid) :: rest := by
  cases h with
  | deadAtFirst _ _ _ => exact ⟨_, rfl⟩
  | judged _ _ _ _ _ _ => exact ⟨_, rfl⟩

theorem mem_part {component : String} {before part : List Effect} {outcome : DaemonOutcome}
    (h : Part windows world component (some pid) before part outcome) :
    .probe (address windows pid) ∈ part := by
  obtain ⟨rest, rfl⟩ := part_cons h
  exact List.mem_cons_self

theorem pick_dead (c : Component) : c.pick s.dead i.dead u.dead = (c.pick s i u).dead := by
  cases c <;> rfl

namespace Run

variable (run : Run windows world home server ingest uplink s i u)

include run

/-- Only the sweep removes files. -/
theorem mem_log : .remove file ∈ (teardownLocalServerStack windows world home []).2 ↔
    file ∈ removedOf home (owners home s.dead i.dead u.dead) := by
  have hnone {raw : Option UInt32} {part : List Effect} (h : ∀ e ∈ part, Own windows raw e) :
      .remove file ∉ part := fun hmem => (h _ hmem).2 file rfl
  rw [run.log]
  simp [hnone run.serverOwn, hnone run.ingestOwn, hnone run.uplinkOwn]

/-- Where a component's part stands in the log. -/
theorem parts (c : Component) : ∃ before part after,
    (teardownLocalServerStack windows world home []).2 = before ++ part ++ after ∧
      Part windows world c.name (c.recorded home) before part (c.pick s i u) ∧
        (∀ pid, (∀ d : Component, d.recorded home = some pid → d = c) →
          Foreign windows pid before ∧ Foreign windows pid after) ∧
        ∀ (d : Component) pid, d.index < c.index → d.recorded home = some pid →
          .probe (address windows pid) ∈ before := by
  obtain ⟨removals, hremovals, hlog⟩ : ∃ removals, (∀ pid, Foreign windows pid removals) ∧
      (teardownLocalServerStack windows world home []).2 = server ++ ingest ++ uplink ++ removals :=
    ⟨_, fun _ => foreign_removals _, run.log⟩
  cases c with
  | server =>
    refine ⟨[], server, ingest ++ uplink ++ removals, ?_, run.serverPart, fun pid hown => ?_, ?_⟩
    · rw [hlog, List.nil_append, List.append_assoc, List.append_assoc, List.append_assoc]
    · have hingest := foreign_of_own run.ingestOwn fun h => nomatch hown .ingest h
      have huplink := foreign_of_own run.uplinkOwn fun h => nomatch hown .uplink h
      exact ⟨foreign_nil, foreign_append (foreign_append hingest huplink) (hremovals pid)⟩
    · intro d pid hlt
      exact absurd hlt (Nat.not_lt_zero _)
  | ingest =>
    refine ⟨server, ingest, uplink ++ removals, ?_, run.ingestPart, fun pid hown => ?_, ?_⟩
    · rw [hlog, List.append_assoc (server ++ ingest)]
    · have hserver := foreign_of_own run.serverOwn fun h => nomatch hown .server h
      have huplink := foreign_of_own run.uplinkOwn fun h => nomatch hown .uplink h
      exact ⟨hserver, foreign_append huplink (hremovals pid)⟩
    · intro d pid hlt hd
      cases d with
      | server => exact mem_part (hd ▸ run.serverPart)
      | _ => exact absurd hlt (by decide)
  | uplink =>
    refine ⟨server ++ ingest, uplink, removals, hlog, run.uplinkPart, fun pid hown => ?_, ?_⟩
    · have hserver := foreign_of_own run.serverOwn fun h => nomatch hown .server h
      have hingest := foreign_of_own run.ingestOwn fun h => nomatch hown .ingest h
      exact ⟨foreign_append hserver hingest, hremovals pid⟩
    · intro d pid hlt hd
      cases d with
      | server => exact List.mem_append_left _ (mem_part (hd ▸ run.serverPart))
      | ingest => exact List.mem_append_right _ (mem_part (hd ▸ run.ingestPart))
      | uplink => exact absurd hlt (by decide)

/-- What the report says of a component is what came of its part. -/
theorem report_eq (c : Component) :
    c.stopped (teardownLocalServerStack windows world home []).1 = (c.pick s i u).stopped ∧
      ∀ failure ∈ (c.pick s i u).failures,
        failure ∈ (teardownLocalServerStack windows world home []).1.failures := by
  rw [run.report]
  cases c with
  | server =>
    exact ⟨rfl, fun failure h => List.mem_append_left _ (List.mem_append_left _ h)⟩
  | ingest =>
    exact ⟨rfl, fun failure h => List.mem_append_left _ (List.mem_append_right _ h)⟩
  | uplink => exact ⟨rfl, fun failure h => List.mem_append_right _ h⟩

theorem told (h : Agreed home) (hc : c.recorded home = some pid) :
    Told windows world c.name pid (teardownLocalServerStack windows world home []).2
      (c.pick s i u) := by
  obtain ⟨before, part, after, hlog, hpart, hforeign, -⟩ := run.parts c
  obtain ⟨hbefore, hafter⟩ := hforeign pid fun d hd => h.distinct d c pid hd hc
  rw [hlog]
  rw [hc] at hpart
  exact told_of_part hpart hbefore hafter

/-- In agreement, the beacons are kept and the report is right. -/
theorem keeps (h : Agreed home) : Keeps windows world home
    (teardownLocalServerStack windows world home []).1
    (teardownLocalServerStack windows world home []).2 where
  removed := by
    intro file pid hnamed hremoved
    obtain ⟨hpresent, hdead⟩ := mem_removedOf.mp (run.mem_log.mp hremoved)
    obtain ⟨c, hfile, hc⟩ := h.recorded hpresent hnamed
    rcases hdead c hfile with hdead | hnone
    · rw [pick_dead] at hdead
      exact (run.told h hc).dead hdead
    · rw [hc] at hnone
      cases hnone
  retained := by
    intro file hpresent hkept
    rw [run.mem_log, mem_removedOf, not_and] at hkept
    have hkept := hkept hpresent
    push Not at hkept
    obtain ⟨c, hfile, hdead, hrecorded⟩ := hkept
    obtain ⟨owner, howner⟩ := Option.ne_none_iff_exists'.mp hrecorded
    refine ⟨owner, ?_, fun pid hnamed => ?_⟩
    · rw [run.report]
      exact mem_staleOf.mpr ⟨hpresent, c, hfile, by simpa using hdead, howner⟩
    · obtain ⟨c', hfile', hc'⟩ := h.recorded hpresent hnamed
      obtain rfl : c = c' := Option.some.inj (hfile.symm.trans hfile')
      exact Option.some.inj (howner.symm.trans hc')
  stopped := by
    intro c
    rw [(run.report_eq c).1]
    cases hc : c.recorded home with
    | none =>
      obtain ⟨before, part, after, -, hpart, -⟩ := run.parts c
      rw [hc] at hpart
      have hnot : (c.pick s i u).stopped = false := by
        generalize c.pick s i u = outcome at hpart
        cases hpart
        rfl
      simp [hnot]
    | some pid =>
      rw [(run.told h hc).stopped]
      simp
  failures := by
    intro c pid hc halive hnever
    obtain ⟨failure, hmem, hname⟩ := (run.told h hc).failure halive hnever
    exact ⟨failure, (run.report_eq c).2 failure hmem, hname⟩

end Run

end

/-! ## Disagreement -/

section

variable {windows : Bool} {home : Home} {pid : UInt32}

/-- A process lives until it is probed. -/
def livesOnce (windows : Bool) : World where
  alive log pid := !log.contains (.probe (address windows pid))
  killed _ _ _ := true
  connects _ _ _ := false
  polls _ _ := 0

/-- One process lives, and no other. -/
def livesAlone (pid : UInt32) : World where
  alive _ p := p == pid
  killed _ _ _ := true
  connects _ _ _ := false
  polls _ _ := 0

/-- The later of two components that share a process finds it dead, and does not report it as
stopped. -/
theorem not_shared (h : KeepsAlways windows home) {c d : Component} (hlt : c.index < d.index)
    (hc : c.recorded home = some pid) : d.recorded home ≠ some pid := by
  intro hd
  obtain ⟨server, ingest, uplink, s, i, u, run⟩ := teardown_run windows (livesOnce windows) home
  obtain ⟨before, part, after, hlog, hpart, -, hearlier⟩ := run.parts d
  have hprobed := hearlier c pid hlt hc
  have hdead : (livesOnce windows).alive before pid = false := by
    simpa [livesOnce] using hprobed
  rw [hd] at hpart
  obtain ⟨rest, hrest⟩ := part_cons hpart
  have hstopped : (d.pick s i u).stopped = false := by
    generalize d.pick s i u = outcome at hpart
    cases hpart with
    | deadAtFirst _ _ _ => rfl
    | judged _ _ _ _ halive _ =>
      rw [hdead] at halive
      cases halive
  have hfirst : First windows (livesOnce windows)
      (teardownLocalServerStack windows (livesOnce windows) home []).2 pid true := by
    have hany : .probe (address windows pid) ∈
        (teardownLocalServerStack windows (livesOnce windows) home []).2 := by
      rw [hlog]
      exact List.mem_append_left _ (List.mem_append_right _ (mem_part hpart))
    obtain ⟨front, back, hsplit, hfront⟩ := List.eq_append_cons_of_mem hany
    exact ⟨front, back, ⟨hsplit, by simpa [livesOnce] using hfront⟩, hfront⟩
  have hfound : Found windows (livesOnce windows)
      (teardownLocalServerStack windows (livesOnce windows) home []).2 pid false := by
    exact ⟨before, rest ++ after, by rw [hlog, hrest, List.append_assoc, List.cons_append], hdead⟩
  have hreported := ((h (livesOnce windows)).stopped d).mpr ⟨pid, hd, hfirst, hfound⟩
  rw [(run.report_eq d).1, hstopped] at hreported
  cases hreported

/-- An ingest beacon that names another process than the pidfile is removed while that lives. -/
theorem beacon_of_keeps (h : KeepsAlways windows home) (hpresent : home.present .ingestJson = true)
    (hnamed : named home .ingestJson = some pid) : readPid home.ingestPid = some pid := by
  by_contra hne
  obtain ⟨server, ingest, uplink, s, i, u, run⟩ := teardown_run windows (livesAlone pid) home
  have hdead : i.dead = true := by
    have hpart := run.ingestPart
    cases hraw : Component.ingest.recorded home with
    | none =>
      rw [hraw] at hpart
      cases hpart
      rfl
    | some p =>
      rw [hraw] at hpart
      cases hpart with
      | deadAtFirst _ _ _ => rfl
      | judged _ _ _ _ halive _ =>
        have hp : p = pid := by simpa [livesAlone] using halive
        exact absurd (hp ▸ hraw) hne
  have hremoved : .remove .ingestJson ∈
      (teardownLocalServerStack windows (livesAlone pid) home []).2 := by
    rw [run.mem_log, mem_removedOf]
    refine ⟨hpresent, fun c hfile => .inl ?_⟩
    obtain rfl : Component.ingest = c := Option.some.inj hfile
    exact hdead
  have halive (log : List Effect) : (livesAlone pid).alive log pid = true := beq_self_eq_true pid
  rcases (h (livesAlone pid)).removed .ingestJson pid hnamed hremoved with
    ⟨before, after, hprobed, -⟩ | ⟨before, after, hprobed, -⟩
  · have hanswer := hprobed.2
    rw [halive] at hanswer
    cases hanswer
  · have hanswer := hprobed.2
    rw [halive] at hanswer
    cases hanswer

theorem agreed_of_keeps (h : KeepsAlways windows home) : Agreed home where
  distinct := by
    intro c d pid hc hd
    rcases Nat.lt_trichotomy c.index d.index with hlt | heq | hgt
    · exact absurd hd (not_shared h hlt hc)
    · cases c <;> cases d <;> first | rfl | cases heq
    · exact absurd hc (not_shared h hgt hd)
  beacon := fun _ hpresent hnamed => beacon_of_keeps h hpresent hnamed

end

/-- Whatever is answered, a teardown keeps the beacons of living processes and reports what became of
each, exactly when the files agree on whose processes they record. -/
theorem beacons_kept_iff (windows : Bool) (home : Home) :
    KeepsAlways windows home ↔ Agreed home := by
  constructor
  · exact agreed_of_keeps
  · intro h world
    obtain ⟨server, ingest, uplink, s, i, u, run⟩ := teardown_run windows world home
    exact run.keeps h

/-- An ingest beacon without a pidfile. -/
def orphanedHome : Home where
  serverJson := none
  ingestJson := some (.object [("pid", .number (.posInt 500)), ("port", .number (.posInt 7422))])
  ingestPid := none
  uplinkPid := none
  present file := file == .ingestJson

/-- Nobody asks whether process 500 lives, and its beacon is removed. -/
theorem orphaned_beacon_removed : ¬ ∀ (windows : Bool) (home : Home), KeepsAlways windows home := by
  intro h
  have hpid := beacon_of_keeps (h false orphanedHome) rfl (show _ = some 500 by decide)
  cases hpid

end Climon.Remote.BeaconOwners
