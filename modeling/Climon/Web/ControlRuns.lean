import Climon.Web.ControlAgreement

namespace Climon.Web.ControlRuns

open Climon.Lib.Transition Climon.Proto.Frame Climon.Session.Host Climon.Session.Surfaces
  Climon.Session.AttachStream Climon.Session.AttachRuns Climon.Session.Announcements
  Climon.Web.TerminalView Climon.Web.Attachment Climon.Web.ControlAgreement

/-! # Agreement about control in every run -/

variable {G : Type} {env : HostEnv G} {me : Viewer}

/-- A fit that reports nothing finds a controller at the host. -/
def Informed (s : HostState G) (d : Dashboard) (measured : Option Size) : Prop :=
  ∀ n ∈ d.linked, n ∈ keys s → d.tab.initialReplayComplete = true → d.tab.displaced = false →
    reports d.tab measured = false → s.controllerId ≠ none

/-- The steps that keep both sides informed: no controller is renamed, no new connection's default
id is the controller's, and the tab keeps a size to itself only while there is a controller. -/
structure Steady (me : Viewer) (s : Net G) (e : NetEvent) : Prop where
  orderly : ∀ host d, plan me s.host s.dashboard e = some (some host, d) →
    (∃ exitCode, host = .exit exitCode) ∨ Orderly s.host host
  informed : ∀ measured, e = .fit measured → Informed s.host s.dashboard measured

section

variable {s : Net G} {e : NetEvent} {host : Event}

theorem Steady.of_quiet (hplan : (plan me s.host s.dashboard e).map (·.1) = some none)
    (hfit : ∀ measured, e ≠ .fit measured) : Steady me s e where
  orderly := by
    intro host d hhost
    rw [hhost] at hplan
    cases hplan
  informed := fun measured heq => absurd heq (hfit measured)

theorem Steady.of_host (hplan : (plan me s.host s.dashboard e).map (·.1) = some (some host))
    (ho : Orderly s.host host) (hfit : ∀ measured, e ≠ .fit measured) : Steady me s e where
  orderly := by
    intro host' d hhost
    rw [hhost] at hplan
    cases hplan
    exact .inr ho
  informed := fun measured heq => absurd heq (hfit measured)

theorem Steady.of_report {measured : Option Size} (h : reports s.dashboard.tab measured = true) :
    Steady me s (.fit measured) where
  orderly := by
    intro host d hhost
    cases hhost
  informed := by
    intro measured' heq n _ _ _ _ hsilent
    cases heq
    rw [h] at hsilent
    cases hsilent

end

section

variable {s t : HostState G} {d d' : Dashboard} {e : NetEvent} {host : Event}

theorem foreign_mine (h : foreign me d host = true) (n : ClientId) :
    renamer host ≠ some (n, me.id) := by
  intro hr
  cases host with
  | frame m frame stored =>
    cases frame with
    | resize size =>
      obtain ⟨vid, hvid, hpair⟩ := Option.map_eq_some_iff.mp hr
      cases hpair
      simp [foreign, reportedId, hvid] at h
    | _ => cases hr
  | _ => cases hr

theorem foreign_replay (h : foreign me d host = true) (n : ClientId) (hn : n ∈ d.linked) :
    replayer host ≠ some n := by
  intro hr
  cases host with
  | frame m frame stored =>
    cases frame with
    | replay =>
      cases hr
      simp [foreign, Dashboard.owned, hn] at h
    | _ => cases hr
  | _ => cases hr

theorem arrival_none {n : ClientId} {frame : ClientFrame}
    {stored : Option Climon.Proto.Meta.SessionStatus} (h : arrival s n frame stored = none) :
    n ∉ s.readers := by
  unfold arrival at h
  split at h
  · cases h
  next hreader =>
    simpa using hreader

theorem arrival_some {n : ClientId} {frame : ClientFrame}
    {stored : Option Climon.Proto.Meta.SessionStatus} (h : arrival s n frame stored = some host) :
    host = .frame n frame stored := by
  unfold arrival at h
  split at h
  · cases h
    rfl
  · cases h

/-- An event that the host takes no part in. -/
theorem quiet_step (h : Agreeing me s d) (hplan : plan me s d e = some (none, d'))
    (hinformed : ∀ measured, e = .fit measured → Informed s d measured) : Agreeing me s d' := by
  cases e with
  | host e =>
    simp only [plan] at hplan
    split at hplan <;> cases hplan
  | select attaches =>
    cases hplan
    exact h.select attaches
  | reconnect =>
    simp only [plan] at hplan
    split at hplan
    next hdue =>
      cases hplan
      exact h.reconnect hdue.2
    next => cases hplan
  | opened =>
    simp only [plan] at hplan
    split at hplan
    next l hlink =>
      split at hplan
      · cases hplan
      · cases hplan
        exact h.opened hlink
    next => cases hplan
  | accept =>
    simp only [plan] at hplan
    split at hplan
    next => split at hplan <;> cases hplan
    next => cases hplan
  | drop serverConnected =>
    simp only [plan] at hplan
    split at hplan
    next l hlink =>
      cases hplan
      exact h.drop l serverConnected
    next => cases hplan
  | read =>
    simp only [plan] at hplan
    split at hplan
    next l hlink =>
      split at hplan
      next n hclient hopened =>
        split at hplan
        next frame hframe =>
          cases hplan
          exact h.read hlink hclient hopened hframe
        next => cases hplan
      next => cases hplan
    next => cases hplan
  | deliver stored =>
    simp only [plan] at hplan
    split at hplan
    next l hlink =>
      split at hplan
      next n frame rest hclient hup =>
        simp only [Option.some.injEq, Prod.mk.injEq] at hplan
        obtain ⟨harrival, rfl⟩ := hplan
        exact h.lost hlink hclient rest (arrival_none harrival)
      next => cases hplan
    next => cases hplan
  | staleAccept i =>
    simp only [plan] at hplan
    split at hplan
    next => split at hplan <;> cases hplan
    next => cases hplan
  | staleDeliver i stored =>
    simp only [plan] at hplan
    split at hplan
    next p hp =>
      split at hplan
      next n frame rest hclient hup =>
        simp only [Option.some.injEq, Prod.mk.injEq] at hplan
        obtain ⟨-, rfl⟩ := hplan
        exact h.restale _ (set_staleClients hp rest)
      next => cases hplan
    next => cases hplan
  | staleClose i =>
    simp only [plan] at hplan
    split at hplan
    next p hp =>
      split at hplan
      next n hclient =>
        simp only [Option.some.injEq, Prod.mk.injEq] at hplan
        obtain ⟨hreader, rfl⟩ := hplan
        apply h.staleClose hp
        intro m hm q hq heq
        rw [hclient] at hm
        cases hm
        simp [← heq, h.announced.reader q hq] at hreader
      next hclient =>
        cases hplan
        apply h.staleClose hp
        intro m hm
        rw [hclient] at hm
        cases hm
    next => cases hplan
  | fit measured =>
    cases hplan
    apply h.fit
    intro n hn hcomplete hshown hreports hmem
    exact hinformed measured rfl n hn hmem hcomplete hshown hreports
  | replayWritten =>
    simp only [plan] at hplan
    split at hplan
    next hwrites =>
      cases hplan
      exact h.replayWritten hwrites
    next => cases hplan
  | overlayTimer =>
    simp only [plan] at hplan
    split at hplan
    next =>
      cases hplan
      exact h.overlayTimer
    next => cases hplan
  | takeControl proposed =>
    cases hplan
    exact h.emit (takeControl_outgoing (SameView.refl _) _ _)
  | armTakeControl proposed =>
    cases hplan
    exact h.emit (armTakeControl_outgoing _ _ _)
  | flushTakeControl proposed =>
    cases hplan
    exact h.emit (flushPendingTakeControl_outgoing (SameView.refl _) _ _)
  | focus visible proposed =>
    cases hplan
    exact h.emit (reclaimOnFocus_outgoing _ _ _ _)
  | input data =>
    cases hplan
    exact h.emit (sendInput_outgoing _ _ _)
  | acknowledge attentionMatchedAt =>
    cases hplan
    exact h.emit (sendAttentionAck_outgoing _ _ _)

/-- A frame from a stale connection is about another connection than the current one. -/
theorem staleArrive_agreeing {n : ClientId} {frame : ClientFrame}
    {stored : Option Climon.Proto.Meta.SessionStatus} (h : Agreeing me s d)
    (hn : n ∈ d.staleClients) (ho : Orderly s (.frame n frame stored))
    (hstep : Session.Host.Step env s (.frame n frame stored) t) : Agreeing me t d := by
  apply h.host ho hstep
  · intro m hm
    cases frame with
    | resize size =>
      obtain ⟨vid, -, hpair⟩ := Option.map_eq_some_iff.mp hm
      cases hpair
      exact List.mem_append_right _ hn
    | _ => cases hm
  · intro m hm hr
    cases frame with
    | replay =>
      cases hr
      exact h.apart n hm hn
    | _ => cases hr

/-- The host sees the end of a stale connection. -/
theorem disconnect_agreeing {i : Nat} {p : Pipe} {n : ClientId} (h : Agreeing me s d)
    (hp : d.stale[i]? = some p) (hclient : p.client = some n)
    (hstep : Session.Host.Step env s (.disconnect n) t) :
    Agreeing me t { d with stale := d.stale.eraseIdx i } := by
  have ho : Orderly s (.disconnect n) := trivial
  have hnext : Agreeing me t d := by
    apply h.host ho hstep
    · intro m hm
      cases hm
    · intro m _ hr
      cases hr
  apply hnext.staleClose hp
  intro m hm
  rw [hclient] at hm
  cases hm
  exact step_disconnect h.announced hstep

/-- An event that the host takes part in. -/
theorem host_step (h : Agreeing me s d) (hplan : plan me s d e = some (some host, d'))
    (ho : Orderly s host) (hstep : Session.Host.Step env s host t) : Agreeing me t d' := by
  cases e with
  | host e =>
    simp only [plan] at hplan
    split at hplan
    next hforeign =>
      cases hplan
      exact h.host ho hstep (fun n hn => absurd hn (foreign_mine hforeign n))
        (foreign_replay hforeign)
    next => cases hplan
  | accept =>
    simp only [plan] at hplan
    split at hplan
    next l hlink =>
      split at hplan
      next hclient =>
        cases hplan
        exact h.accept hlink hclient ho hstep
      next => cases hplan
    next => cases hplan
  | deliver stored =>
    simp only [plan] at hplan
    split at hplan
    next l hlink =>
      split at hplan
      next n frame rest hclient hup =>
        simp only [Option.some.injEq, Prod.mk.injEq] at hplan
        obtain ⟨harrival, rfl⟩ := hplan
        cases arrival_some harrival
        exact h.arrive hlink hclient hup ho hstep
      next => cases hplan
    next => cases hplan
  | staleAccept i =>
    simp only [plan] at hplan
    split at hplan
    next p hp =>
      split at hplan
      next hclient =>
        cases hplan
        exact h.staleAccept hp hclient ho hstep
      next => cases hplan
    next => cases hplan
  | staleDeliver i stored =>
    simp only [plan] at hplan
    split at hplan
    next p hp =>
      split at hplan
      next n frame rest hclient hup =>
        simp only [Option.some.injEq, Prod.mk.injEq] at hplan
        obtain ⟨harrival, rfl⟩ := hplan
        cases arrival_some harrival
        have hstale : n ∈ d.staleClients :=
          List.mem_filterMap.mpr ⟨p, List.mem_of_getElem? hp, hclient⟩
        exact (staleArrive_agreeing h hstale ho hstep).restale _ (set_staleClients hp rest)
      next => cases hplan
    next => cases hplan
  | staleClose i =>
    simp only [plan] at hplan
    split at hplan
    next p hp =>
      split at hplan
      next n hclient =>
        simp only [Option.some.injEq, Prod.mk.injEq] at hplan
        obtain ⟨hreader, rfl⟩ := hplan
        split at hreader
        · cases hreader
          exact disconnect_agreeing h hp hclient hstep
        · cases hreader
      next => cases hplan
    next => cases hplan
  | reconnect =>
    simp only [plan] at hplan
    split at hplan <;> cases hplan
  | opened =>
    simp only [plan] at hplan
    split at hplan
    next => split at hplan <;> cases hplan
    next => cases hplan
  | drop serverConnected =>
    simp only [plan] at hplan
    split at hplan <;> cases hplan
  | read =>
    simp only [plan] at hplan
    split at hplan
    next =>
      split at hplan
      next => split at hplan <;> cases hplan
      next => cases hplan
    next => cases hplan
  | replayWritten =>
    simp only [plan] at hplan
    split at hplan <;> cases hplan
  | overlayTimer =>
    simp only [plan] at hplan
    split at hplan <;> cases hplan
  | _ => cases hplan

end

section

variable {s t : Net G} {e : NetEvent} {es : List NetEvent}

theorem step_exits {s t : HostState G} {exitCode : Int32}
    (hstep : Session.Host.Step env s (.exit exitCode) t) : t.exited = true := by
  obtain ⟨-, clients, -, rfl⟩ := hstep
  exact Climon.Session.AttentionView.teardown_exited env _ exitCode

theorem agreeing_step (h : Agreeing me s.host s.dashboard) (hsteady : Steady me s e)
    (hstep : Attachment.Step env me s e t) (hrunning : t.host.exited = false) :
    Agreeing me t.host t.dashboard := by
  obtain ⟨host, hplan, hhost⟩ := hstep
  cases host with
  | none =>
    have hsame : t.host = s.host := hhost
    rw [hsame]
    exact quiet_step h hplan hsteady.informed
  | some host =>
    rcases hsteady.orderly host t.dashboard hplan with ⟨exitCode, rfl⟩ | ho
    · rw [step_exits hhost] at hrunning
      cases hrunning
    · exact host_step h hplan ho hhost

/-- A host that has exited stays so. -/
theorem exited_step (hstep : Attachment.Step env me s e t) (hrunning : t.host.exited = false) :
    s.host.exited = false := by
  obtain ⟨host, -, hhost⟩ := hstep
  by_contra hexited
  rw [Bool.not_eq_false] at hexited
  have hlater : t.host.exited = true := by
    cases host with
    | none =>
      have hsame : t.host = s.host := hhost
      rwa [hsame]
    | some host =>
      obtain ⟨-, clients, -, heq⟩ := hhost
      have hsame : { s.host with clients := clients }.exited = true := hexited
      rw [heq]
      exact Climon.Session.AttentionView.handle_exited env hsame host
  rw [hlater] at hrunning
  cases hrunning

theorem initial_agreeing (env : HostEnv G) (me : Viewer) (launch : Launch) (cols rows : UInt16)
    (idleSeconds : Int) (snippetEnabled : Bool) :
    Agreeing me (initialState env launch cols rows idleSeconds snippetEnabled)
      ⟨.mounted, none, []⟩ where
  hosted := {
    announced := initialState_announced env launch cols rows idleSeconds snippetEnabled
    streams := ⟨[], initial_streams env launch cols rows idleSeconds snippetEnabled⟩
    mine := by intro q hq; cases hq
    fresh := by intro n hn; cases hn }
  shown := by intro hdisplaced; cases hdisplaced
  apart := by intro n hn; cases hn
  idle := by intro l hl; cases hl
  conn := by intro l n hl; cases hl

theorem agreeing_run (run : Run (Guarded (Steady me) (Attachment.Step env me)) s es t)
    (h : Agreeing me s.host s.dashboard) (hrunning : t.host.exited = false) :
    Agreeing me t.host t.dashboard := by
  induction run with
  | nil => exact h
  | cons hstep rest ih =>
    have hmiddle := rest.backward (P := fun s : Net G => s.host.exited = false)
      (fun hs => exited_step hs.2) hrunning
    exact ih (agreeing_step h hstep.1 hstep.2 hmiddle) hrunning

end

/-! ## When everything has arrived -/

/-- Every frame that was sent has arrived, no connection is about to be accepted, to be given up or
to get its first frames, and no write, refit or timer of the tab is outstanding. -/
structure Quiet (s : Net G) (l : Link) (n : ClientId) : Prop where
  link : s.dashboard.link = some l
  client : l.client = some n
  sent : l.up = []
  read : l.read = (s.host.channels n).frames.length
  stale : s.dashboard.stale = []
  reader : n ∈ s.host.readers
  alive : (s.host.channels n).dead = false
  settled : ¬ Pending s.host
  joined : ¬ Waiting s.host n
  running : s.host.exited = false
  written : s.dashboard.tab.replayWrites = 0
  fitted : s.dashboard.tab.refitDue = false
  overlay : s.dashboard.tab.displacedOverlayTimer = false

/-- Both sides name this tab, so that what it types passes. -/
def InControl (me : Viewer) (s : Net G) (n : ClientId) : Prop :=
  s.host.controllerId = some me.id ∧
    socketClientControlsInput s.host.controllerId ((s.host.getClient n).map (·.viewerId)) = true

section

variable {s t : Net G} {l : Link} {n : ClientId} {es : List NetEvent}

/-- The first replay has been written, since it has arrived. -/
theorem Quiet.complete (hquiet : Quiet s l n) (h : Agreeing me s.host s.dashboard)
    (hmem : n ∈ keys s.host) : s.dashboard.tab.initialReplayComplete = true := by
  obtain ⟨past, hpast⟩ := h.hosted.streams
  have hlive : Live s.host n := by
    obtain ⟨q, hq, rfl⟩ := mem_keys_iff.mp hmem
    refine ⟨?_, hquiet.alive⟩
    rw [shape_eq_seats, List.mem_map]
    exact ⟨q, hq, by rw [not_waiting_iff.mp hquiet.joined q hq rfl]⟩
  obtain ⟨before, hjoined⟩ := hpast.live n hlive
  obtain ⟨received, rest, -, ⟨pre, cols, rows, post, hframes, -⟩, -⟩ := hjoined.attached
  have hread : .replay (replayOf before) ∈ (s.host.channels n).frames.take l.read := by
    rw [hquiet.read, List.take_length, hframes]
    simp
  have hc := h.conn l n hquiet.link hquiet.client
  refine (hc.replayed _ hread).resolve_right ?_
  rw [hquiet.written]
  exact Nat.lt_irrefl 0

theorem Quiet.inControl (hquiet : Quiet s l n) (h : Agreeing me s.host s.dashboard)
    (hshown : s.dashboard.tab.displayed = .controlling) : InControl me s n := by
  have hc := h.conn l n hquiet.link hquiet.client
  have hmem : n ∈ keys s.host := by
    by_contra hgone
    exact hquiet.settled ⟨n, hquiet.reader, hgone⟩
  have hopen : s.dashboard.tab.displaced = false := by
    by_contra hdisplaced
    rw [Bool.not_eq_false] at hdisplaced
    rcases h.shown hdisplaced with hoverlay | htimer
    · rw [hshown] at hoverlay
      cases hoverlay
    · rw [hquiet.overlay] at htimer
      cases htimer
  obtain ⟨X, hX⟩ : ∃ X, s.host.controllerId = some X := by
    apply Option.ne_none_iff_exists'.mp
    rcases hc.engaged (hquiet.complete h hmem) hquiet.fitted hopen with
      ⟨size, hsize⟩ | hgone | hsome
    · rw [hquiet.sent] at hsize
      cases hsize
    · exact absurd hmem hgone
    · exact hsome
  obtain ⟨q, hq, hqn⟩ := mem_keys_iff.mp hmem
  have hjoined := not_waiting_iff.mp hquiet.joined q hq hqn
  have hheard : Heard s.host X := (h.announced.present X hX).resolve_right hquiet.settled
  have hlast : (controls (s.host.channels n).frames).getLast? = some X := by
    have htold := h.announced.told X hX hheard q hq hjoined
    rw [hqn, hquiet.alive] at htold
    exact htold.resolve_left Bool.false_ne_true
  have hme : X = me.id := by
    have htold := hc.told X
    rw [hquiet.read, List.take_length, hopen] at htold
    simpa using htold hlast
  subst hme
  refine ⟨hX, ?_⟩
  obtain ⟨r, hr, hrid⟩ := hheard.resolve_left me.ne_local
  have howned := h.hosted.mine r hr hrid
  have hrn : r.client = n := by
    simpa [Dashboard.owned, Dashboard.linked, Dashboard.staleClients, hquiet.link, hquiet.client,
      hquiet.stale] using howned
  have hclient : (s.host.getClient n).map (·.viewerId) = some me.id := by
    obtain ⟨p, hp, rfl⟩ := List.mem_map.mp hr
    obtain ⟨c, hget⟩ := Option.isSome_iff_exists.mp (getClient_isSome hp)
    have hsame : seat (p.1, c) = seat p := h.announced.eq_of_client
      (List.mem_map_of_mem (mem_of_getClient hget)) (List.mem_map_of_mem hp) rfl
    rw [← hrn, show (seat p).client = p.1 from rfl, hget, Option.map_some, ← hrid, ← hsame]
    rfl
  rw [hX, hclient]
  exact beq_self_eq_true me.id

/-- In every run whose steps keep both sides informed: when everything has arrived and the tab does
not show the overlay, it is the host's controller and its input passes. -/
theorem dashboard_controls (launch : Launch) (cols rows : UInt16) (idleSeconds : Int)
    (snippetEnabled : Bool)
    (run : Run (Guarded (Steady me) (Attachment.Step env me))
      (initialNet env launch cols rows idleSeconds snippetEnabled) es t)
    (hquiet : Quiet t l n) (hshown : t.dashboard.tab.displayed = .controlling) :
    InControl me t n :=
  hquiet.inControl
    (agreeing_run run (initial_agreeing env me launch cols rows idleSeconds snippetEnabled)
      hquiet.running)
    hshown

end

def laptop : Viewer where
  id := "laptop"
  kind := .dashboard
  ne_empty := by decide
  ne_local := by decide
  ne_client := by
    intro n heq
    have hlist := congrArg String.toList heq
    simp [show toString "client-" = "client-" from rfl] at hlist

def headless : Net Unit := initialNet plainEnv .headless 80 24 10 false

/-- The tab's socket opens, connection `n` is accepted for it and gets its first frames, and the
terminal fits. -/
def attaching (n : ClientId) : List NetEvent :=
  [.opened, .accept, .host (.initialFramesTimer n), .read, .read, .replayWritten,
    .fit (some (80, 24))]

def firstVisit : List NetEvent := .select true :: attaching 0 ++ [.deliver none, .read]

/-- The socket is lost, the host sees its end, and the tab attaches again at the same size. -/
def secondVisit : List NetEvent := [.drop true, .staleClose 0, .reconnect] ++ attaching 1

theorem firstVisit_controls :
    ∃ t, Run (Guarded (Steady laptop) (Attachment.Step plainEnv laptop)) headless firstVisit t ∧
      InControl laptop t 0 := by
  have hrun : ∃ t l, Run (Guarded (Steady laptop) (Attachment.Step plainEnv laptop)) headless
      firstVisit t ∧ Quiet t l 0 ∧ t.dashboard.tab.displayed = .controlling := by
    refine ⟨_, _, .cons ⟨.of_quiet rfl (by simp), step_of_next rfl⟩
      (.cons ⟨.of_quiet rfl (by simp), step_of_next rfl⟩
      (.cons ⟨.of_host rfl ?_ (by simp), step_of_next rfl⟩
      (.cons ⟨.of_host rfl trivial (by simp), step_of_next rfl⟩
      (.cons ⟨.of_quiet rfl (by simp), step_of_next rfl⟩
      (.cons ⟨.of_quiet rfl (by simp), step_of_next rfl⟩
      (.cons ⟨.of_quiet rfl (by simp), step_of_next rfl⟩
      (.cons ⟨.of_report rfl, step_of_next rfl⟩
      (.cons ⟨.of_host rfl ?_ (by simp), step_of_next rfl⟩
      (.cons ⟨.of_quiet rfl (by simp), step_of_next rfl⟩ (.nil _)))))))))),
      ⟨rfl, rfl, rfl, rfl, rfl, ?_, rfl, ?_, ?_, rfl, rfl, rfl, rfl⟩, rfl⟩
    · intro hcontroller
      cases hcontroller
    · intro c _ hcontroller
      cases hcontroller
    · decide
    · rintro ⟨n, hn, hgone⟩
      revert n
      decide
    · unfold Waiting
      decide
  obtain ⟨t, l, hrun, hquiet, hshown⟩ := hrun
  exact ⟨t, hrun, dashboard_controls .headless 80 24 10 false hrun hquiet hshown⟩

/-- The tab keeps its unchanged size to itself, and nobody controls a session that shows no
overlay. -/
theorem reconnect_loses_control :
    ¬ ∀ (me : Viewer) (launch : Launch) (cols rows : UInt16) (idleSeconds : Int)
      (snippetEnabled : Bool) (es : List NetEvent) (t : Net Unit) (l : Link) (n : ClientId),
      Run (Attachment.Step plainEnv me)
          (initialNet plainEnv launch cols rows idleSeconds snippetEnabled) es t →
        Quiet t l n → t.dashboard.tab.displayed = .controlling → InControl me t n := by
  intro hcontrols
  have hrun : ∃ t l, exec (next plainEnv laptop) headless (firstVisit ++ secondVisit) = some t ∧
      Quiet t l 1 ∧ t.dashboard.tab.displayed = .controlling ∧ t.host.controllerId = none := by
    refine ⟨_, _, rfl, ⟨rfl, rfl, rfl, rfl, rfl, ?_, rfl, ?_, ?_, rfl, rfl, rfl, rfl⟩, rfl, rfl⟩
    · decide
    · rintro ⟨n, hn, hgone⟩
      revert n
      decide
    · unfold Waiting
      decide
  obtain ⟨t, l, hexec, hquiet, hshown, hnone⟩ := hrun
  have hcontrol := hcontrols laptop .headless 80 24 10 false (firstVisit ++ secondVisit) t l 1
    (Run.of_exec Attachment.step_of_next hexec) hquiet hshown
  rw [hcontrol.1] at hnone
  cases hnone

end Climon.Web.ControlRuns
