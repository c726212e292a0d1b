import Climon.Server.DashboardTunnel

namespace Climon.Server.TunnelRuns

open Climon.Lib.Transition Climon.Server.DashboardTunnel

/-! # At most one tunnel host, and none after `close` -/

/-! ## What a step does to the hosts -/

variable {port : Nat} {s t : State} {f : Nat}

@[simp] theorem goOn_hosts (s : State) (f : Nat) (phase : Phase) :
    (s.goOn f phase).hosts = s.hosts := rfl

@[simp] theorem finish_hosts (s : State) (f : Nat) : (s.finish f).hosts = s.hosts := rfl

@[simp] theorem hosted_hosts (s : State) (f : Nat) : (s.hosted f).hosts = s.hosts := rfl

@[simp] theorem forgetTunnel_hosts (s : State) (tunnelId : Option String) :
    (s.forgetTunnel tunnelId).hosts = s.hosts := rfl

@[simp] theorem ensurePort_hosts (s : State) (f recreations : Nat) :
    (s.ensurePort f recreations).hosts = s.hosts := rfl

@[simp] theorem withTunnel_hosts (s : State) (f recreations : Nat) :
    (s.withTunnel f recreations).hosts = s.hosts := by
  simp only [State.withTunnel]
  repeat' split
  all_goals simp

@[simp] theorem startHost_hosts (s : State) (f recreations : Nat) :
    (s.startHost f recreations).hosts = s.hosts := by
  unfold State.startHost
  split <;> simp

@[simp] theorem begin_hosts (s : State) : s.begin.hosts = s.hosts := by simp [State.begin]

@[simp] theorem verifyTunnel_hosts (s : State) (f recreations process : Nat)
    (tunnelId : Option String) :
    (s.verifyTunnel f recreations process tunnelId).hosts = s.hosts := by
  unfold State.verifyTunnel
  split <;> simp

@[simp] theorem poll_hosts (s : State) (f recreations process : Nat) (tunnelId : Option String)
    (late missing : Bool) :
    (s.poll port f recreations process tunnelId late missing).hosts = s.hosts := by
  unfold State.poll
  repeat' split
  all_goals simp

theorem resume_hosts {phase : Phase} {answer : Answer} (h : s.resume f phase answer = some t) :
    t.hosts = s.hosts ∨ t.hosts = s.hosts.stop := by
  unfold State.resume at h
  split at h <;> cases h
  all_goals first
    | exact .inl rfl
    | exact .inr rfl
    | exact .inl (by simp)
    | exact .inl (by split <;> simp)

/-- Only a spawned host, an exit, its notification, and the two stops change the hosts; `ensure` and
`close` also say since when the manager is closed. -/
theorem step_hosts {e : Event} (hs : Step port s e t) :
    t.hosts = s.hosts ∨ t.hosts = s.hosts.stop ∨
      (∃ f runs, e = .spawn f runs ∧ t.hosts = s.hosts.spawn runs) ∨
      (∃ p, t.hosts = s.hosts.exit p) ∨
      (∃ p last, t.hosts = s.hosts.onExit p last ∧
        ∃ process, s.hosts.processes[p]? = some process ∧ process.running = false ∧
          process.closed = false) ∨
      (e = .ensure ∧ t.hosts = { s.hosts with closedAt := none }) ∨
      (e = .close ∧ t = close s) := by
  cases e with
  | ensure =>
    cases hs
    simp
  | detected ready =>
    simp only [Step, next] at hs
    left
    split at hs
    · cases hs
    · cases hs
      repeat' split
      all_goals simp
  | settled =>
    simp only [Step, next] at hs
    left
    repeat' split at hs
    all_goals cases hs
    rfl
  | tick =>
    simp only [Step, next] at hs
    left
    split at hs
    · cases hs
      repeat' split
      all_goals simp
    · cases hs
  | resume f answer =>
    obtain ⟨phase, -, hphase⟩ := Option.bind_eq_some_iff.mp hs
    rcases resume_hosts hphase with hsame | hstop
    · exact .inl hsame
    · exact .inr (.inl hstop)
  | spawn f runs =>
    simp only [Step, next] at hs
    split at hs <;> cases hs
    exact .inr (.inr (.inl ⟨f, runs, rfl, rfl⟩))
  | poll f late missing =>
    simp only [Step, next] at hs
    split at hs <;> cases hs
    exact .inl (poll_hosts ..)
  | output p url =>
    simp only [Step, next] at hs
    split at hs <;> cases hs
    exact .inl rfl
  | exit p =>
    simp only [Step, next] at hs
    split at hs <;> cases hs
    exact .inr (.inr (.inr (.inl ⟨p, rfl⟩)))
  | onExit p last =>
    simp only [Step, next] at hs
    split at hs <;> cases hs
    next hany =>
      obtain ⟨process, hprocess, hends⟩ := (Option.any_eq_true _ _).mp hany
      simp only [Bool.and_eq_true, Bool.not_eq_true'] at hends
      exact .inr (.inr (.inr (.inr (.inl
        ⟨p, last, rfl, process, hprocess, hends.1.1, hends.1.2⟩))))
  | close =>
    cases hs
    simp

/-! ## The hosts in turn -/

/-- One of the processes: it is the last one or has had its last notification, and while it runs
without a SIGTERM it is the recorded one. -/
structure Fits (h : Hosts) (p : Nat) (process : HostProcess) : Prop where
  older : p + 1 < h.processes.length → process.closed = true
  ended : process.closed = true → process.alive = false
  gone : process.alive = false → process.running = false
  recorded : process.running = true → process.stopped = false → h.host = some p

structure Orderly (h : Hosts) : Prop where
  fits : ∀ {p process}, h.processes[p]? = some process → Fits h p process
  newest : ∀ {p}, h.host = some p → p + 1 = h.processes.length
  own : ∀ entry ∈ h.cleared, entry.1 = entry.2

variable {h : Hosts} {p : Nat}

theorem getElem?_modify {α : Type} {l : List α} {g : α → α} {i j : Nat} {x : α}
    (hx : (l.modify i g)[j]? = some x) :
    ∃ y, l[j]? = some y ∧ (i = j ∧ x = g y ∨ i ≠ j ∧ x = y) := by
  rw [List.getElem?_modify] at hx
  obtain ⟨y, hy, rfl⟩ := Option.map_eq_some_iff.mp hx
  refine ⟨y, hy, ?_⟩
  by_cases hij : i = j <;> simp [hij]

theorem orderly_stop (ok : Orderly h) : Orderly h.stop := by
  unfold Hosts.stop
  split
  · exact ok
  next p hhost =>
    refine ⟨fun {q process} hprocess => ?_, (fun hnone => by cases hnone), ok.own⟩
    obtain ⟨before, hbefore, hcase⟩ := getElem?_modify hprocess
    have fits := ok.fits hbefore
    rcases hcase with ⟨rfl, rfl⟩ | ⟨hne, rfl⟩
    · refine ⟨by simpa using fits.older, fits.ended, fits.gone, fun hrunning hstopped => ?_⟩
      -- a process that runs is alive, and so gets its SIGTERM
      simp only [Bool.or_eq_false_iff] at hstopped
      rw [fits.gone hstopped.2] at hrunning
      cases hrunning
    · refine ⟨by simpa using fits.older, fits.ended, fits.gone, fun hrunning hstopped => ?_⟩
      have hrecorded := fits.recorded hrunning hstopped
      rw [hhost] at hrecorded
      exact absurd (Option.some.inj hrecorded) hne

theorem orderly_exit (ok : Orderly h) (p : Nat) : Orderly (h.exit p) := by
  refine ⟨fun {q process} hprocess => ?_, fun hhost => ?_, ok.own⟩
  · obtain ⟨before, hbefore, hcase⟩ := getElem?_modify hprocess
    have fits := ok.fits hbefore
    rcases hcase with ⟨rfl, rfl⟩ | ⟨-, rfl⟩
    · exact ⟨by simpa [Hosts.exit] using fits.older, fits.ended, fun _ => rfl,
        fun hrunning => by cases hrunning⟩
    · exact ⟨by simpa [Hosts.exit] using fits.older, fits.ended, fits.gone, fits.recorded⟩
  · simpa [Hosts.exit] using ok.newest hhost

/-- The process that a notification is of is the last one. -/
theorem newest_of_open (ok : Orderly h) {process : HostProcess}
    (hprocess : h.processes[p]? = some process) (hopen : process.closed = false) :
    p + 1 = h.processes.length := by
  have hlt := (List.getElem?_eq_some_iff.mp hprocess).1
  by_contra hne
  have hclosed := (ok.fits hprocess).older (by omega)
  rw [hopen] at hclosed
  cases hclosed

theorem orderly_onExit (ok : Orderly h) {process : HostProcess}
    (hprocess : h.processes[p]? = some process) (hended : process.running = false)
    (hopen : process.closed = false) (last : Bool) : Orderly (h.onExit p last) := by
  have hlast := newest_of_open ok hprocess hopen
  refine ⟨fun {q process'} hprocess' => ?_, (fun hnone => by cases hnone), fun entry hentry => ?_⟩
  · obtain ⟨before, hbefore, hcase⟩ := getElem?_modify hprocess'
    have fits := ok.fits hbefore
    rcases hcase with ⟨rfl, rfl⟩ | ⟨hne, rfl⟩
    · rw [hprocess] at hbefore
      cases hbefore
      refine ⟨fun hlt => ?_, fun _ => rfl, fun _ => hended, fun hrunning => ?_⟩
      · simp [Hosts.onExit] at hlt
        omega
      · rw [hended] at hrunning
        cases hrunning
    · refine ⟨by simpa [Hosts.onExit] using fits.older, fits.ended, fits.gone,
        fun hrunning hstopped => ?_⟩
      have hnewest := ok.newest (fits.recorded hrunning hstopped)
      omega
  · rcases List.mem_append.mp hentry with hold | hnew
    · exact ok.own entry hold
    · obtain ⟨q, hq, rfl⟩ := List.mem_map.mp hnew
      have hnewest := ok.newest (Option.mem_toList.mp hq)
      change p = q
      omega

theorem orderly_spawn (ok : Orderly h) (runs : Bool)
    (hclosed : ∀ process ∈ h.processes, process.closed = true) : Orderly (h.spawn runs) := by
  refine ⟨fun {p process} hprocess => ?_, fun hhost => ?_, ok.own⟩
  · simp only [Hosts.spawn, List.getElem?_append] at hprocess
    split at hprocess
    next hlt =>
      have hold := hclosed process (List.mem_of_getElem? hprocess)
      have fits := ok.fits hprocess
      refine ⟨fun _ => hold, fits.ended, fits.gone, fun hrunning => ?_⟩
      rw [fits.gone (fits.ended hold)] at hrunning
      cases hrunning
    next hge =>
      obtain ⟨hzero, hnew⟩ := List.getElem?_eq_some_iff.mp hprocess
      have hp : p = h.processes.length := by
        simp at hzero
        omega
      subst hp
      simp at hnew
      subst hnew
      refine ⟨fun hlt => ?_, (fun hclosed => by cases hclosed), (fun hdead => by cases hdead),
        fun _ _ => rfl⟩
      simp [Hosts.spawn] at hlt
  · cases hhost
    simp [Hosts.spawn]

theorem orderly_close (ok : Orderly h) (closing : Bool) (closedAt : Option Nat) :
    Orderly { h with closing := closing, closedAt := closedAt } :=
  ⟨fun hprocess =>
    ⟨(ok.fits hprocess).older, (ok.fits hprocess).ended, (ok.fits hprocess).gone,
      (ok.fits hprocess).recorded⟩, ok.newest, ok.own⟩

@[simp] theorem stop_host (h : Hosts) : h.stop.host = none := by
  unfold Hosts.stop
  split
  · assumption
  · rfl

@[simp] theorem stop_closing (h : Hosts) : h.stop.closing = h.closing := by
  unfold Hosts.stop
  split <;> rfl

@[simp] theorem stop_closedAt (h : Hosts) : h.stop.closedAt = h.closedAt := by
  unfold Hosts.stop
  split <;> rfl

/-! ## A closed manager -/

/-- Nothing is at work that could start a host. -/
structure Quiet (s : State) : Prop where
  watchdog : s.watchdog = false
  detecting : s.detecting = 0
  flows : ∀ f, s.flows f = none

theorem quiet_step {e : Event} (quiet : Quiet s) (hs : Step port s e t) (he : e ≠ .ensure) :
    Quiet t ∧ t.hosts.processes.length = s.hosts.processes.length ∧
      (s.hosts.host = none → t.hosts.host = none) := by
  obtain ⟨hwatchdog, hdetecting, hflows⟩ := quiet
  cases e with
  | ensure => exact absurd rfl he
  | detected ready => simp [Step, next, hdetecting] at hs
  | tick => simp [Step, next, hwatchdog] at hs
  | resume f answer => simp [Step, next, hflows] at hs
  | spawn f runs => simp [Step, next, hflows] at hs
  | poll f late missing => simp [Step, next, hflows] at hs
  | settled =>
    simp only [Step, next] at hs
    repeat' split at hs
    all_goals cases hs
    exact ⟨⟨hwatchdog, hdetecting, hflows⟩, rfl, fun hnone => hnone⟩
  | output p url =>
    simp only [Step, next] at hs
    split at hs <;> cases hs
    exact ⟨⟨hwatchdog, hdetecting, hflows⟩, rfl, fun hnone => hnone⟩
  | exit p =>
    simp only [Step, next] at hs
    split at hs <;> cases hs
    exact ⟨⟨hwatchdog, hdetecting, hflows⟩, by simp [Hosts.exit], fun hnone => hnone⟩
  | onExit p last =>
    simp only [Step, next] at hs
    split at hs <;> cases hs
    exact ⟨⟨hwatchdog, hdetecting, hflows⟩, by simp [Hosts.onExit], fun _ => rfl⟩
  | close =>
    cases hs
    refine ⟨⟨rfl, hdetecting, hflows⟩, ?_, fun _ => by simp [close]⟩
    simp only [close, Hosts.stop]
    split <;> simp

structure Inv (s : State) : Prop where
  orderly : Orderly s.hosts
  closing : s.hosts.closing = false
  closed : ∀ {n}, s.hosts.closedAt = some n →
    Quiet s ∧ s.hosts.processes.length = n ∧ s.hosts.host = none

theorem inv_init (tunnelId cluster : Option String) : Inv (init tunnelId cluster) where
  orderly :=
    { fits := fun hprocess => by cases hprocess
      newest := fun hhost => by cases hhost
      own := fun _ hentry => by cases hentry }
  closing := rfl
  closed hclosed := by cases hclosed

theorem orderly_step {e : Event} (inv : Inv s) (hs : Guarded InTurn (Step port) s e t) :
    Orderly t.hosts ∧ t.hosts.closing = false := by
  obtain ⟨hturn, hs⟩ := hs
  have ok := inv.orderly
  rcases step_hosts hs with heq | heq | ⟨f, runs, rfl, heq⟩ | ⟨p, heq⟩ |
    ⟨p, last, heq, process, hprocess, hended, hopen⟩ | ⟨-, heq⟩ | ⟨-, rfl⟩
  · rw [heq]
    exact ⟨ok, inv.closing⟩
  · rw [heq]
    exact ⟨orderly_stop ok, by simp [inv.closing]⟩
  · rw [heq]
    exact ⟨orderly_spawn ok runs hturn, inv.closing⟩
  · rw [heq]
    exact ⟨orderly_exit ok p, inv.closing⟩
  · rw [heq]
    exact ⟨orderly_onExit ok hprocess hended hopen last, inv.closing⟩
  · rw [heq]
    exact ⟨orderly_close ok _ _, inv.closing⟩
  · exact ⟨orderly_close (orderly_stop (orderly_close ok _ _)) _ _, rfl⟩

/-- The manager becomes closed by `close` only. -/
theorem closedAt_step {e : Event} {n : Nat} (hs : Step port s e t)
    (hclosed : t.hosts.closedAt = some n) :
    (e ≠ .ensure ∧ s.hosts.closedAt = some n) ∨ (e = .close ∧ t = close s) := by
  by_cases he : e = .ensure
  · subst he
    cases hs
    cases hclosed
  · rcases step_hosts hs with heq | heq | ⟨f, runs, -, heq⟩ | ⟨p, heq⟩ | ⟨p, last, heq, -⟩ |
      ⟨hensure, -⟩ | hclose
    · exact .inl ⟨he, by rwa [heq] at hclosed⟩
    · exact .inl ⟨he, by rwa [heq, stop_closedAt] at hclosed⟩
    · exact .inl ⟨he, by rwa [heq] at hclosed⟩
    · exact .inl ⟨he, by rwa [heq] at hclosed⟩
    · exact .inl ⟨he, by rwa [heq] at hclosed⟩
    · exact absurd hensure he
    · exact .inr hclose

theorem inv_step {e : Event} (inv : Inv s) (hs : Guarded InTurn (Step port) s e t) : Inv t := by
  obtain ⟨orderly, closing⟩ := orderly_step inv hs
  refine ⟨orderly, closing, fun {n} hclosed => ?_⟩
  obtain ⟨hturn, hs⟩ := hs
  rcases closedAt_step hs hclosed with ⟨he, hbefore⟩ | ⟨rfl, rfl⟩
  · obtain ⟨quiet, hlength, hhost⟩ := inv.closed hbefore
    obtain ⟨quiet', hlength', hhost'⟩ := quiet_step quiet hs he
    exact ⟨quiet', hlength'.trans hlength, hhost' hhost⟩
  · cases hclosed
    exact ⟨⟨rfl, hturn.1, hturn.2⟩, rfl, by simp [close]⟩

def persisted : State := init (some "quiet-dog.eun1") (some "eun1")

def link : Option String := some "https://quiet-dog-3131.eun1.devtunnels.ms/"

/-- `ensure` with everything going well. -/
def hosting : List Event :=
  [.ensure, .detected true, .resume 0 .ok, .spawn 0 true, .output 0 link, .poll 0 false false,
    .resume 0 .ok, .settled]

end Climon.Server.TunnelRuns
