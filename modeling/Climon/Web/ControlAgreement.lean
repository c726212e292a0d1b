import Climon.Session.Announcements
import Climon.Session.AttentionView
import Climon.Web.Attachment

namespace Climon.Web.ControlAgreement

open Climon.Lib.Transition Climon.Proto.Frame Climon.Session.Control Climon.Session.Host
  Climon.Session.Surfaces Climon.Session.AttachStream Climon.Session.AttachRuns
  Climon.Session.Announcements Climon.Web.TerminalView Climon.Web.Attachment

/-!
# Who controls, as the tab and the host see it

The tab's view is the last `Control` frame that it has read. It agrees with the host's once
everything has arrived, unless the host has no controller; the tab's own resize gives it one.
-/

variable {G : Type} {env : HostEnv G} {me : Viewer}

/-! ## What a step of the host leaves of a connection -/

theorem not_waiting_iff {s : HostState G} {n : ClientId} :
    ¬ Waiting s n ↔ ∀ q ∈ seats s, q.client = n → q.joined = true := by
  rw [waiting_iff]
  constructor
  · intro h q hq hqn
    by_contra hjoined
    rw [Bool.not_eq_true] at hjoined
    exact h ⟨q, hq, hqn, hjoined⟩
  · rintro h ⟨q, hq, hqn, hjoined⟩
    rw [h q hq hqn] at hjoined
    cases hjoined

theorem mem_keys_iff {s : HostState G} {n : ClientId} :
    n ∈ keys s ↔ ∃ q ∈ seats s, q.client = n := by
  rw [keys_eq_seats, List.mem_map]

structure Carried (s t : HostState G) (n : ClientId) : Prop where
  frames : ∃ ext, (t.channels n).frames = (s.channels n).frames ++ ext
  admitted : ¬ Waiting s n → ¬ Waiting t n
  held : (t.channels n).frames ≠ (s.channels n).frames → ¬ Waiting t n
  gone : n ∉ keys s → n ∉ keys t
  led : ¬ Waiting s n → s.controllerId ≠ none → n ∉ keys t ∨ t.controllerId ≠ none

theorem Carried.refl (s : HostState G) (n : ClientId) : Carried s s n where
  frames := ⟨[], (List.append_nil _).symm⟩
  admitted := fun h => h
  held := fun h => absurd rfl h
  gone := fun h => h
  led := fun _ h => .inr h

theorem connect_carried {s t : HostState G} {n : ClientId} (hstep : Session.Host.Step env s .connect t)
    (hn : n < s.clientSeq) : Carried s t n := by
  obtain ⟨-, hcontroller, hseats, hchannels⟩ := step_connect hstep
  have hne : n ≠ s.clientSeq := Nat.ne_of_lt hn
  have hframes : t.channels n = s.channels n := by rw [hchannels, Function.update_of_ne hne]
  have hold : ∀ q ∈ seats t, q.client = n → q ∈ seats s := by
    intro q hq hqn
    rcases (hseats q).mp hq with rfl | hq
    · exact absurd hqn.symm hne
    · exact hq
  refine ⟨⟨[], by simp [hframes]⟩, ?_, by simp [hframes], ?_, ?_⟩
  · rw [not_waiting_iff, not_waiting_iff]
    exact fun h q hq hqn => h q (hold q hq hqn) hqn
  · rw [mem_keys_iff, mem_keys_iff]
    rintro h ⟨q, hq, hqn⟩
    exact h ⟨q, hold q hq hqn, hqn⟩
  · intro _ hsome
    exact .inr (by rwa [hcontroller])

theorem step_carried {s t : HostState G} {e : Event} {n : ClientId} (h : Announced s)
    (ho : Orderly s e) (hstep : Session.Host.Step env s e t) (hn : n < s.clientSeq)
    (hreplay : replayer e = some n → ¬ Waiting s n) : Carried s t n := by
  by_cases hnew : e = .connect
  · subst hnew
    exact connect_carried hstep hn
  have hev := step_evolves h ho hstep hnew
  have hadmitted : ¬ Waiting s n → ¬ Waiting t n := by
    rw [not_waiting_iff, not_waiting_iff]
    intro hs q hq hqn
    obtain ⟨q', hq', hclient, hjoined, -⟩ := hev.seats q hq
    exact hjoined (hs q' hq' (hclient.trans hqn))
  refine ⟨hev.frames n, hadmitted, ?_, ?_, ?_⟩
  · intro hne
    by_cases hr : replayer e = some n
    · exact hadmitted (hreplay hr)
    · rw [not_waiting_iff]
      exact hev.held n (fun heq => hr heq.symm) hne
  · rw [mem_keys_iff, mem_keys_iff]
    rintro hs ⟨q, hq, hqn⟩
    obtain ⟨q', hq', hclient, -⟩ := hev.seats q hq
    exact hs ⟨q', hq', hclient.trans hqn⟩
  · intro hs hsome
    by_cases hnone : t.controllerId = none
    · rcases step_controller h ho hstep hnone with hold | hall
      · exact absurd hold hsome
      · left
        rw [mem_keys_iff]
        rintro ⟨q, hq, hqn⟩
        have hjoined := not_waiting_iff.mp (hadmitted hs) q hq hqn
        rw [hall q hq] at hjoined
        cases hjoined
    · exact .inr hnone

/-! ## The connection's view -/

/-- Every replay that is asked for comes after a resize. -/
def replaysLate : List ClientFrame → Bool
  | [] => true
  | .resize _ :: _ => true
  | .replay :: _ => false
  | _ :: rest => replaysLate rest

theorem replaysLate_append {xs ys : List ClientFrame} (hx : replaysLate xs = true)
    (hy : replaysLate ys = true) : replaysLate (xs ++ ys) = true := by
  induction xs with
  | nil => exact hy
  | cons frame rest ih =>
    cases frame with
    | resize size => rfl
    | replay => cases hx
    | _ => exact ih hx

/-- What the tab knows through its connection, and what it owes the host. -/
structure Conn (me : Viewer) (h : HostState G) (tab : Tab) (l : Link) (n : ClientId) : Prop where
  bound : l.read ≤ (h.channels n).frames.length
  told : ∀ X, (controls ((h.channels n).frames.take l.read)).getLast? = some X →
    tab.displaced = decide (X ≠ me.id)
  replayed : ∀ payload, .replay payload ∈ (h.channels n).frames.take l.read →
    tab.initialReplayComplete = true ∨ 0 < tab.replayWrites
  held : (h.channels n).frames ≠ [] → ¬ Waiting h n
  late : ¬ Waiting h n ∨ replaysLate l.up = true
  written : tab.initialReplayComplete = true ∨ 0 < tab.replayWrites →
    l.opened = true ∧ ¬ Waiting h n
  /-- A tab that has fitted after its replay has reported its size, or did not have to. -/
  engaged : tab.initialReplayComplete = true → tab.refitDue = false → tab.displaced = false →
    (∃ size, .resize size ∈ l.up) ∨ n ∉ keys h ∨ h.controllerId ≠ none

/-- Before the connection is accepted nothing comes back. -/
structure Idle (tab : Tab) (l : Link) : Prop where
  incomplete : tab.initialReplayComplete = false
  unwritten : tab.replayWrites = 0
  unread : l.read = 0
  late : replaysLate l.up = true

section

variable {s t : HostState G} {tab tab' : Tab} {l : Link} {n : ClientId}

theorem Conn.carry (h : Conn me s tab l n) (k : Carried s t n) : Conn me t tab l n := by
  obtain ⟨ext, hext⟩ := k.frames
  have htake : (t.channels n).frames.take l.read = (s.channels n).frames.take l.read := by
    rw [hext, List.take_append_of_le_length h.bound]
  refine ⟨?_, ?_, ?_, ?_, ?_, ?_, ?_⟩
  · rw [hext, List.length_append]
    exact Nat.le_add_right_of_le h.bound
  · rw [htake]
    exact h.told
  · rw [htake]
    exact h.replayed
  · intro hne
    by_cases hsame : (t.channels n).frames = (s.channels n).frames
    · exact k.admitted (h.held (hsame ▸ hne))
    · exact k.held hsame
  · exact h.late.imp_left k.admitted
  · intro hwrites
    exact (h.written hwrites).imp_right k.admitted
  · intro hcomplete hfit hshown
    rcases h.engaged hcomplete hfit hshown with hup | hgone | hsome
    · exact .inl hup
    · exact .inr (.inl (k.gone hgone))
    · exact .inr (k.led (h.written (.inl hcomplete)).2 hsome)

/-- A connection that was just accepted. -/
theorem Idle.conn (h : Idle tab l) (hframes : (t.channels n).frames = []) :
    Conn me t tab { l with client := some n } n where
  bound := by simp [h.unread]
  told := by simp [hframes]
  replayed := by simp [hframes]
  held := fun hne => absurd hframes hne
  late := .inr h.late
  written := by simp [h.incomplete, h.unwritten]
  engaged := by simp [h.incomplete]

/-! ## What the tab sends and reads -/

/-- The tab's view of who controls and of its replay is not touched. -/
structure SameView (tab tab' : Tab) : Prop where
  displaced : tab'.displaced = tab.displaced
  displayed : tab'.displayed = tab.displayed
  timer : tab'.displacedOverlayTimer = tab.displacedOverlayTimer
  complete : tab'.initialReplayComplete = tab.initialReplayComplete
  writes : tab'.replayWrites = tab.replayWrites
  refitDue : tab'.refitDue = tab.refitDue

theorem SameView.refl (tab : Tab) : SameView tab tab := ⟨rfl, rfl, rfl, rfl, rfl, rfl⟩

structure Outgoing (tab : Tab) (p : Tab × List BrowserMessage) : Prop extends SameView tab p.1 where
  late : replaysLate (p.2.filterMap forward) = true

theorem Outgoing.silent (h : SameView tab tab') : Outgoing tab (tab', []) := ⟨h, rfl⟩

theorem takeControl_outgoing (h : SameView tab tab') (isOpen : Bool) (proposed : Size) :
    Outgoing tab (tab'.takeControl me isOpen proposed) := by
  unfold Tab.takeControl
  split
  · refine ⟨⟨h.displaced, h.displayed, h.timer, h.complete, h.writes, h.refitDue⟩, ?_⟩
    simp only [List.filterMap_cons, Tab.resizeMessage, forward, browserResizePayload]
    by_cases hzero : proposed.1 = 0 ∨ proposed.2 = 0 <;> simp [hzero, replaysLate]
  · exact Outgoing.silent h

theorem flushPendingTakeControl_outgoing (h : SameView tab tab') (isOpen : Bool)
    (proposed : Size) : Outgoing tab (tab'.flushPendingTakeControl me isOpen proposed) := by
  unfold Tab.flushPendingTakeControl
  split
  · apply takeControl_outgoing
    exact ⟨h.displaced, h.displayed, h.timer, h.complete, h.writes, h.refitDue⟩
  · exact Outgoing.silent h

theorem armTakeControl_outgoing (tab : Tab) (isOpen : Bool) (proposed : Size) :
    Outgoing tab (tab.armTakeControl me isOpen proposed) := by
  unfold Tab.armTakeControl
  dsimp only
  split
  · apply flushPendingTakeControl_outgoing
    exact ⟨rfl, rfl, rfl, rfl, rfl, rfl⟩
  · exact ⟨⟨rfl, rfl, rfl, rfl, rfl, rfl⟩, rfl⟩

theorem reclaimOnFocus_outgoing (tab : Tab) (visible isOpen : Bool) (proposed : Size) :
    Outgoing tab (tab.reclaimOnFocus me visible isOpen proposed) := by
  unfold Tab.reclaimOnFocus
  split
  · exact armTakeControl_outgoing tab isOpen proposed
  · exact Outgoing.silent (SameView.refl tab)

theorem sendAttentionAck_outgoing (tab : Tab) (isOpen : Bool) (attentionMatchedAt : String) :
    Outgoing tab (tab.sendAttentionAck isOpen attentionMatchedAt) := by
  unfold Tab.sendAttentionAck
  split
  · exact ⟨SameView.refl tab, rfl⟩
  · exact ⟨⟨rfl, rfl, rfl, rfl, rfl, rfl⟩, rfl⟩

theorem flushAttentionAck_outgoing (tab : Tab) : Outgoing tab tab.flushAttentionAck := by
  unfold Tab.flushAttentionAck
  split
  · exact ⟨⟨rfl, rfl, rfl, rfl, rfl, rfl⟩, rfl⟩
  · exact Outgoing.silent (SameView.refl tab)

theorem sendInput_outgoing (tab : Tab) (isOpen : Bool) (data : List UInt8) :
    Outgoing tab (tab.sendInput isOpen data) := by
  unfold Tab.sendInput
  split
  · exact ⟨SameView.refl tab, rfl⟩
  · exact Outgoing.silent (SameView.refl tab)

theorem Conn.send {p : Tab × List BrowserMessage} (h : Conn me s tab l n) (k : Outgoing tab p) :
    Conn me s p.1 { l with up := l.up ++ p.2.filterMap forward } n where
  bound := h.bound
  told := by
    intro X hX
    rw [k.displaced]
    exact h.told X hX
  replayed := by
    rw [k.complete, k.writes]
    exact h.replayed
  held := h.held
  late := h.late.imp_right fun hlate => replaysLate_append hlate k.late
  written := by
    rw [k.complete, k.writes]
    exact h.written
  engaged := by
    rw [k.complete, k.refitDue, k.displaced]
    intro hcomplete hfit hshown
    refine (h.engaged hcomplete hfit hshown).imp_left ?_
    rintro ⟨size, hsize⟩
    exact ⟨size, List.mem_append_left _ hsize⟩

theorem Idle.send {p : Tab × List BrowserMessage} (h : Idle tab l) (k : Outgoing tab p) :
    Idle p.1 { l with up := l.up ++ p.2.filterMap forward } where
  incomplete := k.complete.trans h.incomplete
  unwritten := k.writes.trans h.unwritten
  unread := h.unread
  late := replaysLate_append h.late k.late

/-- A fit at this measure puts a resize frame on the way. -/
def reports (tab : Tab) : Option Size → Bool
  | some proposed =>
    proposed.1 != 0 && proposed.2 != 0 &&
      shouldSendResize tab.lastSentSize proposed tab.replayAfterNextResize
  | none => false

theorem fitNow_view (me : Viewer) (tab : Tab) (isOpen : Bool) (measured : Option Size) :
    SameView tab (tab.fitNow me isOpen measured).1 := by
  unfold Tab.fitNow Tab.sendResize
  split
  · exact SameView.refl tab
  cases measured with
  | none => exact SameView.refl tab
  | some proposed =>
    dsimp only
    split
    · exact SameView.refl tab
    split
    · exact SameView.refl tab
    · exact ⟨rfl, rfl, rfl, rfl, rfl, rfl⟩

theorem fitNow_incomplete (me : Viewer) (h : tab.initialReplayComplete = false) (isOpen : Bool)
    (measured : Option Size) : tab.fitNow me isOpen measured = (tab, []) := by
  simp [Tab.fitNow, h]

theorem fitNow_reports (me : Viewer) {measured : Option Size}
    (hcomplete : tab.initialReplayComplete = true) (hshown : tab.displaced = false) (hreports : reports tab measured = true) :
    ∃ size, .resize size ∈ (tab.fitNow me true measured).2.filterMap forward := by
  cases measured with
  | none => cases hreports
  | some proposed =>
    simp only [reports, Bool.and_eq_true, bne_iff_ne] at hreports
    refine ⟨⟨proposed.1, proposed.2, some me.kind, some me.id⟩, ?_⟩
    simp [Tab.fitNow, Tab.sendResize, Tab.resizeMessage, hcomplete, hshown, hreports, forward,
      browserResizePayload]

/-- The fit that is due: it reports the size, or the host has a controller. -/
theorem Conn.fit {measured : Option Size} (h : Conn me s tab l n)
    (hinformed : tab.initialReplayComplete = true → tab.displaced = false →
      reports tab measured = false → n ∈ keys s → s.controllerId ≠ none) :
    Conn me s (tab.refitted.fitNow me l.opened measured).1
      { l with up := l.up ++ (tab.refitted.fitNow me l.opened measured).2.filterMap forward }
      n := by
  have hview := fitNow_view me tab.refitted l.opened measured
  refine ⟨h.bound, ?_, ?_, h.held, ?_, ?_, ?_⟩
  · intro X hX
    rw [hview.displaced]
    exact h.told X hX
  · rw [hview.complete, hview.writes]
    exact h.replayed
  · by_cases hcomplete : tab.initialReplayComplete = true
    · exact .inl (h.written (.inl hcomplete)).2
    · rw [Bool.not_eq_true] at hcomplete
      have hnothing : tab.refitted.initialReplayComplete = false := hcomplete
      rw [fitNow_incomplete me hnothing]
      simpa using h.late
  · rw [hview.complete, hview.writes]
    exact h.written
  · rw [hview.complete, hview.displaced]
    intro (hcomplete : tab.initialReplayComplete = true) _ (hshown : tab.displaced = false)
    cases hreports : reports tab measured with
    | true =>
      rw [(h.written (.inl hcomplete)).1]
      have hready : tab.refitted.initialReplayComplete = true := hcomplete
      obtain ⟨size, hsize⟩ := fitNow_reports me hready hshown hreports
      exact .inl ⟨size, List.mem_append_right _ hsize⟩
    | false =>
      by_cases hmem : n ∈ keys s
      · exact .inr (.inr (hinformed hcomplete hshown hreports hmem))
      · exact .inr (.inl hmem)

theorem deriveControlState_controlling (me : Viewer) (X : String) :
    deriveControlState me.id (some X) = .controlling ↔ X = me.id := by
  unfold deriveControlState
  constructor
  · intro h
    by_contra hne
    simp [hne] at h
  · rintro rfl
    simp [me.ne_empty]

theorem onControl_displaced (me : Viewer) (tab : Tab) (X : String) :
    (tab.onControl me X).displaced = decide (X ≠ me.id) := by
  have hiff := deriveControlState_controlling me X
  unfold Tab.onControl
  cases hstate : deriveControlState me.id (some X) with
  | controlling => simp [hiff.mp hstate]
  | displaced =>
    have hne : X ≠ me.id := by
      intro heq
      rw [hiff.mpr heq] at hstate
      cases hstate
    simp [hne]

theorem readFrame_writes (me : Viewer) (tab : Tab) (frame : HostFrame) :
    (tab.readFrame me frame).initialReplayComplete = tab.initialReplayComplete ∧
      tab.replayWrites ≤ (tab.readFrame me frame).replayWrites := by
  cases frame with
  | control X cols rows =>
    simp only [Tab.readFrame, Tab.onControl]
    split <;> exact ⟨rfl, Nat.le_refl _⟩
  | output data =>
    simp only [Tab.readFrame]
    split
    · exact ⟨rfl, Nat.le_refl _⟩
    · exact ⟨rfl, Nat.le_succ _⟩
  | replay payload => exact ⟨rfl, Nat.le_succ _⟩
  | exit exitCode => exact ⟨rfl, Nat.le_refl _⟩
  | ptySize cols rows => exact ⟨rfl, Nat.le_refl _⟩

/-- Whoever is shown to control after a frame, with no refit due, was so before it. -/
theorem readFrame_engaged {frame : HostFrame} (hfit : (tab.readFrame me frame).refitDue = false)
    (hshown : (tab.readFrame me frame).displaced = false) :
    tab.refitDue = false ∧ tab.displaced = false := by
  cases frame with
  | control X cols rows =>
    simp only [Tab.readFrame, Tab.onControl] at hfit hshown
    split at hfit
    · simp_all
    · simp only [shouldRefitOnControlFrame, Bool.or_eq_false_iff] at hfit
      exact ⟨hfit.2, by simpa using hfit.1⟩
  | output data =>
    simp only [Tab.readFrame] at hfit hshown
    split at hfit <;> simp_all
  | replay payload => exact ⟨hfit, hshown⟩
  | exit exitCode => exact ⟨hfit, hshown⟩
  | ptySize cols rows => exact ⟨hfit, hshown⟩

theorem readFrame_displaced (me : Viewer) (tab : Tab) {frame : HostFrame}
    (hf : controlId frame = none) : (tab.readFrame me frame).displaced = tab.displaced := by
  cases frame with
  | control X cols rows => cases hf
  | output data =>
    simp only [Tab.readFrame]
    split <;> rfl
  | _ => rfl

theorem Conn.read {frame : HostFrame} (h : Conn me s tab l n) (hopened : l.opened = true)
    (hframe : (s.channels n).frames[l.read]? = some frame) (exitReceived : Bool) :
    Conn me s (tab.readFrame me frame)
      { l with read := l.read + 1, exitReceived := exitReceived } n := by
  have hlt : l.read < (s.channels n).frames.length := (List.getElem?_eq_some_iff.mp hframe).1
  have htake : (s.channels n).frames.take (l.read + 1) =
      (s.channels n).frames.take l.read ++ [frame] := by
    rw [List.take_add_one, hframe, Option.toList_some]
  have hnonempty : (s.channels n).frames ≠ [] := List.ne_nil_of_length_pos (by omega)
  obtain ⟨hcomplete, hwrites⟩ := readFrame_writes me tab frame
  refine ⟨hlt, ?_, ?_, h.held, h.late, fun _ => ⟨hopened, h.held hnonempty⟩, ?_⟩
  · intro X hX
    rw [htake, controls_append] at hX
    cases hid : controlId frame with
    | none =>
      rw [readFrame_displaced me tab hid]
      apply h.told X
      simpa [controls, hid] using hX
    | some Y =>
      cases frame with
      | control Z cols rows =>
        cases hid
        have hlast : Y = X := by simpa [controls, controlId] using hX
        rw [← hlast]
        exact onControl_displaced me tab Y
      | _ => cases hid
  · intro payload hpayload
    rw [htake] at hpayload
    rcases List.mem_append.mp hpayload with hold | hnew
    · rw [hcomplete]
      exact (h.replayed payload hold).imp_right fun hpos => Nat.lt_of_lt_of_le hpos hwrites
    · rw [List.mem_singleton] at hnew
      subst hnew
      exact .inr (Nat.succ_pos _)
  · intro hc hfit hshown
    rw [hcomplete] at hc
    obtain ⟨hdue, hdisplaced⟩ := readFrame_engaged hfit hshown
    exact h.engaged hc hdue hdisplaced

theorem Conn.replayWritten (h : Conn me s tab l n) (hwrites : 0 < tab.replayWrites) :
    Conn me s tab.completeInitialReplay l n where
  bound := h.bound
  told := h.told
  replayed := fun _ _ => .inl rfl
  held := h.held
  late := h.late
  written := fun _ => h.written (.inr hwrites)
  engaged := by
    intro _ hfit
    cases hfit

/-! ## What arrives -/

/-- Nobody reads a frame for a connection that has ended. -/
theorem Conn.lost (rest : List ClientFrame) (h : Conn me s tab l n)
    (hs : Announced s) (hreader : n ∉ s.readers) : Conn me s tab { l with up := rest } n := by
  have hgone : ∀ q ∈ seats s, q.client ≠ n := fun q hq heq => hreader (heq ▸ hs.reader q hq)
  refine ⟨h.bound, h.told, h.replayed, h.held, .inl ?_, h.written, ?_⟩
  · rw [not_waiting_iff]
    exact fun q hq heq => absurd heq (hgone q hq)
  · intro _ _ _
    refine .inr (.inl ?_)
    rw [mem_keys_iff]
    rintro ⟨q, hq, heq⟩
    exact hgone q hq heq

theorem Conn.arrive {frame : ClientFrame} {rest : List ClientFrame}
    {stored : Option Climon.Proto.Meta.SessionStatus} (h : Conn me s tab l n) (hs : Announced s)
    (ho : Orderly s (.frame n frame stored)) (hn : n < s.clientSeq) (hup : l.up = frame :: rest)
    (hstep : Session.Host.Step env s (.frame n frame stored) t) :
    Conn me t tab { l with up := rest } n := by
  have hlate := h.late
  have hengaged := h.engaged
  rw [hup] at hlate hengaged
  have hreplay : replayer (.frame n frame stored) = some n → ¬ Waiting s n := by
    intro hr
    cases frame with
    | replay => exact hlate.resolve_right (by simp [replaysLate])
    | _ => cases hr
  have hcarried := step_carried hs ho hstep hn hreplay
  have hc := h.carry hcarried
  have hresize : ∀ size, frame = .resize size → t.controllerId ≠ none ∧ ¬ Waiting t n := by
    rintro size rfl
    rw [not_waiting_iff]
    exact step_resize hs ho hstep
  refine ⟨hc.bound, hc.told, hc.replayed, hc.held, ?_, hc.written, ?_⟩
  · rcases hlate with hadmitted | hlate
    · exact .inl (hcarried.admitted hadmitted)
    · cases frame with
      | resize size => exact .inl (hresize size rfl).2
      | replay => cases hlate
      | _ => exact .inr hlate
  · intro hcomplete hfit hshown
    rcases hc.engaged hcomplete hfit hshown with ⟨size, hsize⟩ | hother
    · rw [hup] at hsize
      rcases List.mem_cons.mp hsize with heq | hrest
      · exact .inr (.inr (hresize size heq.symm).1)
      · exact .inl ⟨size, hrest⟩
    · exact .inr hother

end

/-! ## The tab's connections at the host -/

/-- What holds of the host whatever is on the way: the clients that go by the tab's id are its
own. -/
structure Hosted (me : Viewer) (owned : List ClientId) (s : HostState G) : Prop where
  announced : Announced s
  streams : ∃ past, Streams (chunks past) s
  mine : ∀ q ∈ seats s, q.viewerId = me.id → q.client ∈ owned
  fresh : ∀ n ∈ owned, n < s.clientSeq

section

variable {s t : HostState G} {owned owned' : List ClientId} {e : Event} {n : ClientId}

theorem Hosted.streams_step (h : Hosted me owned s) (hstep : Session.Host.Step env s e t) :
    ∃ past, Streams (chunks past) t := by
  obtain ⟨past, hpast⟩ := h.streams
  exact ⟨past ++ [e], hpast.step hstep⟩

theorem Hosted.step (h : Hosted me owned s) (ho : Orderly s e)
    (hstep : Session.Host.Step env s e t) (hnew : e ≠ .connect)
    (hmine : ∀ n, renamer e = some (n, me.id) → n ∈ owned) : Hosted me owned t := by
  have hev := step_evolves h.announced ho hstep hnew
  refine ⟨step_announced h.announced ho hstep, h.streams_step hstep, ?_, ?_⟩
  · intro q hq hid
    obtain ⟨q', hq', hclient, -, hname⟩ := hev.seats q hq
    rcases hname with hsame | hrenamed
    · rw [← hclient]
      exact h.mine q' hq' (hsame.trans hid)
    · rw [hid] at hrenamed
      exact hmine q.client hrenamed
  · rw [hev.clientSeq]
    exact h.fresh

theorem Hosted.connect (h : Hosted me owned s) (ho : Orderly s .connect)
    (hstep : Session.Host.Step env s .connect t)
    (howned : ∀ n, n ∈ owned' → n ∈ owned ∨ n = s.clientSeq) (hkeep : ∀ n ∈ owned, n ∈ owned') :
    Hosted me owned' t := by
  obtain ⟨hseq, -, hseats, -⟩ := step_connect hstep
  refine ⟨step_announced h.announced ho hstep, h.streams_step hstep, ?_, ?_⟩
  · intro q hq hid
    rcases (hseats q).mp hq with rfl | hold
    · exact absurd hid.symm (me.ne_client s.clientSeq)
    · exact hkeep _ (h.mine q hold hid)
  · intro n hn
    rw [hseq]
    rcases howned n hn with hold | rfl
    · exact Nat.lt_succ_of_lt (h.fresh n hold)
    · exact Nat.lt_succ_self _

/-- A socket that is gone for the host too is no longer the tab's. -/
theorem Hosted.forget (h : Hosted me owned s) (hsub : ∀ n ∈ owned', n ∈ owned)
    (hkeep : ∀ n ∈ owned, n ∈ owned' ∨ ∀ q ∈ seats s, q.client ≠ n) : Hosted me owned' s where
  announced := h.announced
  streams := h.streams
  mine := by
    intro q hq hid
    exact (hkeep q.client (h.mine q hq hid)).resolve_right fun hgone => hgone q hq rfl
  fresh := fun n hn => h.fresh n (hsub n hn)

end

structure Agreeing (me : Viewer) (s : HostState G) (d : Dashboard) : Prop where
  hosted : Hosted me d.owned s
  /-- The overlay is shown, or its timer runs, while the gate is closed. -/
  shown : d.tab.displaced = true →
    d.tab.displayed = .displaced ∨ d.tab.displacedOverlayTimer = true
  apart : ∀ n ∈ d.linked, n ∉ d.staleClients
  idle : ∀ l, d.link = some l → l.client = none → Idle d.tab l
  conn : ∀ l n, d.link = some l → l.client = some n → Conn me s d.tab l n

section

variable {s t : HostState G} {d : Dashboard} {l : Link} {n : ClientId} {e : Event}

theorem linked_of_link (hlink : d.link = some l) : d.linked = l.client.toList := by
  simp [Dashboard.linked, hlink]

theorem mem_linked (hlink : d.link = some l) (hclient : l.client = some n) : n ∈ d.linked := by
  simp [linked_of_link hlink, hclient]

theorem Agreeing.announced (h : Agreeing me s d) : Announced s := h.hosted.announced

theorem Agreeing.fresh (h : Agreeing me s d) (hlink : d.link = some l)
    (hclient : l.client = some n) : n < s.clientSeq :=
  h.hosted.fresh n (List.mem_append_left _ (mem_linked hlink hclient))

/-! ### The tab alone -/

theorem Agreeing.retab (h : Agreeing me s d) (tab : Tab)
    (hshown : tab.displaced = true → tab.displayed = .displaced ∨ tab.displacedOverlayTimer = true)
    (hidle : ∀ l, Idle d.tab l → Idle tab l)
    (hconn : ∀ l n, Conn me s d.tab l n → Conn me s tab l n) :
    Agreeing me s { d with tab := tab } where
  hosted := h.hosted
  shown := hshown
  apart := h.apart
  idle := fun l hlink hclient => hidle l (h.idle l hlink hclient)
  conn := fun l n hlink hclient => hconn l n (h.conn l n hlink hclient)

theorem relink_linked (tab : Tab) (hlink : d.link = some l) {l' : Link}
    (hclient : l'.client = l.client) :
    Dashboard.linked { d with tab := tab, link := some l' } = d.linked := by
  simp [Dashboard.linked, hlink, hclient]

/-- The current socket says something else, over the same connection. -/
theorem Agreeing.relink (h : Agreeing me s d) (tab : Tab) (hlink : d.link = some l) (l' : Link)
    (hclient : l'.client = l.client)
    (hshown : tab.displaced = true → tab.displayed = .displaced ∨ tab.displacedOverlayTimer = true)
    (hidle : l.client = none → Idle d.tab l → Idle tab l')
    (hconn : ∀ n, l.client = some n → Conn me s tab l' n) :
    Agreeing me s { d with tab := tab, link := some l' } where
  hosted := by
    rw [Dashboard.owned, relink_linked tab hlink hclient]
    exact h.hosted
  shown := hshown
  apart := by
    rw [relink_linked tab hlink hclient]
    exact h.apart
  idle := by
    rintro l'' hl'' hnone
    cases hl''
    have hwaits : l.client = none := hclient ▸ hnone
    exact hidle hwaits (h.idle l hlink hwaits)
  conn := by
    rintro l'' n hl'' hsome
    cases hl''
    exact hconn n (hclient ▸ hsome)

theorem SameView.shown {tab tab' : Tab} (k : SameView tab tab')
    (h : tab.displaced = true → tab.displayed = .displaced ∨ tab.displacedOverlayTimer = true) :
    tab'.displaced = true → tab'.displayed = .displaced ∨ tab'.displacedOverlayTimer = true := by
  rw [k.displaced, k.displayed, k.timer]
  exact h

theorem emit_link {p : Tab × List BrowserMessage} (hlink : d.link = some l) :
    d.emit p =
      { d with
        tab := p.1, link := some { l with up := l.up ++ p.2.filterMap forward } } := by
  simp [Dashboard.emit, hlink]

theorem emit_unlinked {p : Tab × List BrowserMessage} (hlink : d.link = none) :
    d.emit p = { d with tab := p.1 } := by
  cases d
  cases hlink
  rfl

theorem isOpen_link (hlink : d.link = some l) : d.isOpen = l.opened := by
  simp [Dashboard.isOpen, hlink]

/-- Without a socket there is no connection to speak about. -/
theorem Agreeing.unlinked (h : Agreeing me s d) (hlink : d.link = none) (tab : Tab)
    (hshown : tab.displaced = true →
      tab.displayed = .displaced ∨ tab.displacedOverlayTimer = true) :
    Agreeing me s { d with tab := tab } where
  hosted := h.hosted
  shown := hshown
  apart := h.apart
  idle := by
    intro l hl
    rw [show d.link = some l from hl] at hlink
    cases hlink
  conn := by
    intro l n hl
    rw [show d.link = some l from hl] at hlink
    cases hlink

theorem Agreeing.emit {p : Tab × List BrowserMessage} (h : Agreeing me s d)
    (k : Outgoing d.tab p) : Agreeing me s (d.emit p) := by
  cases hlink : d.link with
  | none =>
    rw [emit_unlinked hlink]
    exact h.unlinked hlink p.1 (k.shown h.shown)
  | some l =>
    rw [emit_link hlink]
    apply h.relink p.1 hlink
    · rfl
    · exact k.shown h.shown
    · exact fun _ hidle => hidle.send k
    · exact fun n hclient => (h.conn l n hlink hclient).send k

theorem Agreeing.fit {measured : Option Size} (h : Agreeing me s d)
    (hinformed : ∀ n ∈ d.linked, d.tab.initialReplayComplete = true → d.tab.displaced = false →
      reports d.tab measured = false → n ∈ keys s → s.controllerId ≠ none) :
    Agreeing me s (d.fit me measured) := by
  have hview := fitNow_view me d.tab.refitted d.isOpen measured
  have hshown := hview.shown h.shown
  unfold Dashboard.fit
  cases hlink : d.link with
  | none =>
    rw [emit_unlinked hlink]
    exact h.unlinked hlink _ hshown
  | some l =>
    rw [emit_link hlink]
    apply h.relink _ hlink
    · rfl
    · exact hshown
    · intro _ hidle
      have hnothing : d.tab.refitted.initialReplayComplete = false := hidle.incomplete
      rw [fitNow_incomplete me hnothing]
      exact ⟨hidle.incomplete, hidle.unwritten, hidle.unread, by simpa using hidle.late⟩
    · intro n hclient
      rw [isOpen_link hlink]
      exact (h.conn l n hlink hclient).fit (hinformed n (mem_linked hlink hclient))

theorem Agreeing.opened (h : Agreeing me s d) (hlink : d.link = some l) :
    Agreeing me s (d.opened l) := by
  have hopened : Agreeing me s { d with link := some { l with opened := true } } := by
    apply h.relink d.tab hlink
    · rfl
    · exact h.shown
    · exact fun _ hidle => ⟨hidle.incomplete, hidle.unwritten, hidle.unread, hidle.late⟩
    · intro n hclient
      have hc := h.conn l n hlink hclient
      exact ⟨hc.bound, hc.told, hc.replayed, hc.held, hc.late,
        fun hwrites => ⟨rfl, (hc.written hwrites).2⟩, hc.engaged⟩
  exact hopened.emit (flushAttentionAck_outgoing d.tab)

theorem onControl_shown (tab : Tab) (X : String)
    (h : (tab.onControl me X).displaced = true) :
    (tab.onControl me X).displacedOverlayTimer = true := by
  unfold Tab.onControl at h ⊢
  split
  · rfl
  · simp_all

theorem readFrame_shown {tab : Tab} (frame : HostFrame)
    (h : tab.displaced = true → tab.displayed = .displaced ∨ tab.displacedOverlayTimer = true) :
    (tab.readFrame me frame).displaced = true →
      (tab.readFrame me frame).displayed = .displaced ∨
        (tab.readFrame me frame).displacedOverlayTimer = true := by
  cases frame with
  | control X cols rows => exact fun hdisplaced => .inr (onControl_shown tab X hdisplaced)
  | output data =>
    simp only [Tab.readFrame]
    split <;> exact h
  | replay payload => exact h
  | exit exitCode => exact h
  | ptySize cols rows => exact h

theorem Agreeing.read {frame : HostFrame} (h : Agreeing me s d) (hlink : d.link = some l)
    (hclient : l.client = some n) (hopened : l.opened = true)
    (hframe : (s.channels n).frames[l.read]? = some frame) :
    Agreeing me s (d.read me l frame) := by
  apply h.relink _ hlink
  · rfl
  · exact readFrame_shown frame h.shown
  · intro hnone
    rw [hclient] at hnone
    cases hnone
  · intro m hm
    rw [hclient] at hm
    cases hm
    exact (h.conn l n hlink hclient).read hopened hframe _

theorem Agreeing.replayWritten (h : Agreeing me s d) (hwrites : 0 < d.tab.replayWrites) :
    Agreeing me s { d with tab := d.tab.completeInitialReplay } := by
  refine h.retab _ h.shown ?_ fun l n hc => hc.replayWritten hwrites
  intro l hidle
  rw [hidle.unwritten] at hwrites
  cases hwrites

theorem Agreeing.overlayTimer (h : Agreeing me s d) :
    Agreeing me s { d with tab := d.tab.showDisplacedOverlay } := by
  refine h.retab _ ?_ ?_ ?_
  · intro (hdisplaced : d.tab.displaced = true)
    left
    simp [Tab.showDisplacedOverlay, hdisplaced]
  · exact fun l hidle => ⟨hidle.incomplete, hidle.unwritten, hidle.unread, hidle.late⟩
  · exact fun l n hc =>
      ⟨hc.bound, hc.told, hc.replayed, hc.held, hc.late, hc.written, hc.engaged⟩

/-! ### Sockets that come and go -/

theorem hangUp_owned (d : Dashboard) : d.hangUp.staleClients = d.owned := by
  cases hlink : d.link with
  | none => simp [Dashboard.hangUp, Dashboard.owned, Dashboard.staleClients, Dashboard.linked, hlink]
  | some l =>
    cases hclient : l.client <;>
      simp [Dashboard.hangUp, Dashboard.owned, Dashboard.staleClients, Dashboard.linked, hlink,
        hclient]

/-- A socket is given up, and another one may be opened. -/
theorem Agreeing.hangUp (h : Agreeing me s d) (tab : Tab) (link : Option Link)
    (hlink : ∀ l, link = some l →
      l = .fresh ∧ tab.initialReplayComplete = false ∧ tab.replayWrites = 0)
    (hshown : tab.displaced = true →
      tab.displayed = .displaced ∨ tab.displacedOverlayTimer = true) :
    Agreeing me s ⟨tab, link, d.hangUp.stale⟩ := by
  have hlinked : Dashboard.linked ⟨tab, link, d.hangUp.stale⟩ = [] := by
    cases link with
    | none => rfl
    | some l =>
      obtain ⟨rfl, -, -⟩ := hlink l rfl
      rfl
  refine ⟨?_, hshown, ?_, ?_, ?_⟩
  · rw [Dashboard.owned, hlinked, List.nil_append]
    have howned := hangUp_owned d
    rw [show Dashboard.staleClients ⟨tab, link, d.hangUp.stale⟩ = d.hangUp.staleClients from rfl,
      howned]
    exact h.hosted
  · rw [hlinked]
    intro n hn
    cases hn
  · intro l hl _
    obtain ⟨rfl, hincomplete, hunwritten⟩ := hlink l hl
    exact ⟨hincomplete, hunwritten, rfl, rfl⟩
  · intro l n hl hclient
    obtain ⟨rfl, -, -⟩ := hlink l hl
    cases hclient

theorem Agreeing.select (h : Agreeing me s d) (attaches : Bool) :
    Agreeing me s (d.select attaches) := by
  apply h.hangUp
  · intro l hl
    cases attaches with
    | true =>
      cases hl
      exact ⟨rfl, rfl, rfl⟩
    | false => cases hl
  · intro hdisplaced
    cases attaches <;> cases hdisplaced

theorem Agreeing.drop (h : Agreeing me s d) (l : Link) (serverConnected : Bool) :
    Agreeing me s (d.drop l serverConnected) := by
  apply h.hangUp
  · intro l hl
    cases hl
  · exact h.shown

theorem Agreeing.reconnect (h : Agreeing me s d) (hlink : d.link = none) :
    Agreeing me s d.reconnect := by
  have hstale : d.hangUp.stale = d.stale := by simp [Dashboard.hangUp, hlink]
  unfold Dashboard.reconnect
  rw [← hstale]
  apply h.hangUp
  · intro l hl
    cases hl
    exact ⟨rfl, rfl, rfl⟩
  · exact h.shown

theorem stale_split {i : Nat} {p : Pipe} (h : d.stale[i]? = some p) :
    ∃ front back, d.stale = front ++ p :: back ∧ d.stale.eraseIdx i = front ++ back ∧
      ∀ q, d.stale.set i q = front ++ q :: back := by
  obtain ⟨hi, rfl⟩ := List.getElem?_eq_some_iff.mp h
  refine ⟨d.stale.take i, d.stale.drop (i + 1), ?_, List.eraseIdx_eq_take_drop_succ d.stale i, ?_⟩
  · rw [List.getElem_cons_drop, List.take_append_drop]
  · intro q
    rw [List.set_eq_take_append_cons_drop, if_pos hi]

/-- Other stale connections, or the same ones with other frames on the way. -/
theorem Agreeing.restale (h : Agreeing me s d) (stale : List Pipe)
    (hstale : stale.filterMap (·.client) = d.staleClients) :
    Agreeing me s { d with stale := stale } where
  hosted := by
    have howned : Dashboard.owned { d with stale := stale } = d.owned := by
      unfold Dashboard.owned
      rw [show Dashboard.staleClients { d with stale := stale } = d.staleClients from hstale]
      rfl
    rw [howned]
    exact h.hosted
  shown := h.shown
  apart := by
    rw [show Dashboard.staleClients { d with stale := stale } = d.staleClients from hstale]
    exact h.apart
  idle := h.idle
  conn := h.conn

theorem set_staleClients {i : Nat} {p : Pipe} (h : d.stale[i]? = some p) (up : List ClientFrame) :
    (d.stale.set i { p with up := up }).filterMap (·.client) = d.staleClients := by
  obtain ⟨front, back, heq, -, hset⟩ := stale_split h
  rw [hset, Dashboard.staleClients, heq]
  simp [List.filterMap_append, List.filterMap_cons]

/-! ### The host's part -/

theorem Agreeing.carry (h : Agreeing me s d) (hosted : Hosted me d.owned t)
    (hcarried : ∀ n ∈ d.linked, Carried s t n) : Agreeing me t d where
  hosted := hosted
  shown := h.shown
  apart := h.apart
  idle := h.idle
  conn := fun l n hlink hclient =>
    (h.conn l n hlink hclient).carry (hcarried n (mem_linked hlink hclient))

/-- A step of the host that is not about the tab's current connection. -/
theorem Agreeing.host (h : Agreeing me s d) (ho : Orderly s e)
    (hstep : Session.Host.Step env s e t) (hmine : ∀ n, renamer e = some (n, me.id) → n ∈ d.owned)
    (hreplay : ∀ n ∈ d.linked, replayer e ≠ some n) : Agreeing me t d := by
  apply h.carry
  · by_cases hnew : e = .connect
    · subst hnew
      exact h.hosted.connect ho hstep (fun n hn => .inl hn) (fun n hn => hn)
    · exact h.hosted.step ho hstep hnew hmine
  · intro n hn
    have hlt := h.hosted.fresh n (List.mem_append_left _ hn)
    exact step_carried h.announced ho hstep hlt fun hr => absurd hr (hreplay n hn)

/-- A frame of the tab reaches the host. -/
theorem Agreeing.arrive {frame : ClientFrame} {rest : List ClientFrame}
    {stored : Option Climon.Proto.Meta.SessionStatus} (h : Agreeing me s d)
    (hlink : d.link = some l) (hclient : l.client = some n) (hup : l.up = frame :: rest)
    (ho : Orderly s (.frame n frame stored))
    (hstep : Session.Host.Step env s (.frame n frame stored) t) :
    Agreeing me t { d with link := some { l with up := rest } } := by
  have howned : n ∈ d.owned := List.mem_append_left _ (mem_linked hlink hclient)
  have hmine : ∀ m, renamer (.frame n frame stored) = some (m, me.id) → m ∈ d.owned := by
    intro m hm
    cases frame with
    | resize size =>
      obtain ⟨vid, -, hpair⟩ := Option.map_eq_some_iff.mp hm
      cases hpair
      exact howned
    | _ => cases hm
  have hlinked : Dashboard.linked { d with link := some { l with up := rest } } = d.linked :=
    relink_linked d.tab hlink rfl
  refine ⟨?_, h.shown, ?_, ?_, ?_⟩
  · rw [Dashboard.owned, hlinked]
    apply h.hosted.step ho hstep
    · intro hconnect
      cases hconnect
    · exact hmine
  · rw [hlinked]
    exact h.apart
  · intro l' hl' hnone
    cases hl'
    rw [show l.client = none from hnone] at hclient
    cases hclient
  · intro l' m hl' hm
    cases hl'
    rw [show l.client = some m from hm] at hclient
    cases hclient
    exact (h.conn l n hlink hm).arrive h.announced ho (h.fresh hlink hm) hup hstep

theorem Agreeing.lost (h : Agreeing me s d) (hlink : d.link = some l) (hclient : l.client = some n)
    (rest : List ClientFrame) (hreader : n ∉ s.readers) :
    Agreeing me s { d with link := some { l with up := rest } } := by
  apply h.relink d.tab hlink
  · rfl
  · exact h.shown
  · intro hnone
    rw [hclient] at hnone
    cases hnone
  · intro m hm
    rw [hclient] at hm
    cases hm
    exact (h.conn l n hlink hclient).lost rest h.announced hreader

/-- The host accepts the tab's connection. -/
theorem Agreeing.accept (h : Agreeing me s d) (hlink : d.link = some l) (hclient : l.client = none)
    (ho : Orderly s .connect) (hstep : Session.Host.Step env s .connect t) :
    Agreeing me t { d with link := some { l with client := some s.clientSeq } } := by
  have hlinked : d.linked = [] := by rw [linked_of_link hlink, hclient, Option.toList_none]
  refine ⟨?_, h.shown, ?_, ?_, ?_⟩
  · apply h.hosted.connect ho hstep
    · intro n hn
      rcases List.mem_cons.mp hn with rfl | hn
      · exact .inr rfl
      · exact .inl (List.mem_append_right _ hn)
    · intro n hn
      rw [Dashboard.owned, hlinked, List.nil_append] at hn
      exact List.mem_cons_of_mem _ hn
  · intro n hn hstale
    rw [List.mem_singleton.mp hn] at hstale
    exact Nat.lt_irrefl _ (h.hosted.fresh s.clientSeq (List.mem_append_right _ hstale))
  · intro l' hl' hnone
    cases hl'
    cases hnone
  · intro l' n hl' hn
    cases hl'
    cases hn
    apply (h.idle l hlink hclient).conn
    obtain ⟨-, -, -, hchannels⟩ := step_connect hstep
    rw [hchannels, Function.update_self]

/-- The host accepts a connection whose socket the tab has given up. -/
theorem Agreeing.staleAccept {i : Nat} {p : Pipe} (h : Agreeing me s d)
    (hp : d.stale[i]? = some p) (hclient : p.client = none) (ho : Orderly s .connect)
    (hstep : Session.Host.Step env s .connect t) :
    Agreeing me t { d with stale := d.stale.set i { p with client := some s.clientSeq } } := by
  obtain ⟨front, back, heq, -, hset⟩ := stale_split hp
  have hstale : ∀ n,
      n ∈ Dashboard.staleClients
          { d with stale := d.stale.set i { p with client := some s.clientSeq } } ↔
        n ∈ d.staleClients ∨ n = s.clientSeq := by
    intro n
    simp only [Dashboard.staleClients, hset]
    simp only [heq, List.filterMap_append, List.filterMap_cons, hclient, List.mem_append,
      List.mem_cons]
    tauto
  refine ⟨?_, h.shown, ?_, h.idle, ?_⟩
  · apply h.hosted.connect ho hstep
    · intro n hn
      rcases List.mem_append.mp hn with hlinked | hn
      · exact .inl (List.mem_append_left _ hlinked)
      · exact ((hstale n).mp hn).imp_left fun hold => List.mem_append_right _ hold
    · intro n hn
      rcases List.mem_append.mp hn with hlinked | hn
      · exact List.mem_append_left _ hlinked
      · exact List.mem_append_right _ ((hstale n).mpr (.inl hn))
  · intro n hn hnew
    rcases (hstale n).mp hnew with hold | rfl
    · exact h.apart n hn hold
    · exact Nat.lt_irrefl _ (h.hosted.fresh s.clientSeq (List.mem_append_left _ hn))
  · intro l n hlink hn
    exact (h.conn l n hlink hn).carry (connect_carried hstep (h.fresh hlink hn))

/-- A stale connection has ended at the host. -/
theorem Agreeing.staleClose {i : Nat} {p : Pipe} (h : Agreeing me s d)
    (hp : d.stale[i]? = some p)
    (hgone : ∀ n, p.client = some n → ∀ q ∈ seats s, q.client ≠ n) :
    Agreeing me s { d with stale := d.stale.eraseIdx i } := by
  obtain ⟨front, back, heq, herase, -⟩ := stale_split hp
  have hsub : ∀ n, n ∈ Dashboard.staleClients { d with stale := d.stale.eraseIdx i } →
      n ∈ d.staleClients := by
    intro n hn
    exact (d.stale.eraseIdx_sublist i).filterMap _ |>.subset hn
  have hkeep : ∀ n ∈ d.staleClients,
      n ∈ Dashboard.staleClients { d with stale := d.stale.eraseIdx i } ∨ p.client = some n := by
    intro n
    simp only [Dashboard.staleClients, herase]
    simp only [heq, List.mem_filterMap, List.mem_append, List.mem_cons]
    rintro ⟨q, hfront | rfl | hback, hq⟩
    · exact .inl ⟨q, .inl hfront, hq⟩
    · exact .inr hq
    · exact .inl ⟨q, .inr hback, hq⟩
  refine ⟨?_, h.shown, ?_, h.idle, h.conn⟩
  · apply h.hosted.forget
    · intro n hn
      rcases List.mem_append.mp hn with hlinked | hn
      · exact List.mem_append_left _ hlinked
      · exact List.mem_append_right _ (hsub n hn)
    · intro n hn
      rcases List.mem_append.mp hn with hlinked | hn
      · exact .inl (List.mem_append_left _ hlinked)
      · exact (hkeep n hn).imp (fun hleft => List.mem_append_right _ hleft) (hgone n)
  · exact fun n hn hstale => h.apart n hn (hsub n hstale)

end

end Climon.Web.ControlAgreement
