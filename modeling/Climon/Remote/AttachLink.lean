import Climon.Lib.Transition
import Climon.Remote.ControlLoop

namespace Climon.Remote.AttachLink

open Climon.Lib.Transition Climon.Remote.SpawnAuth Climon.Remote.ControlLoop

/-!
# Attaching over the link

Viewers of one mirrored session come and go at ingest, which tells the uplink over the link when to
attach to the session's daemon and when to detach.
-/

/-- `sockets` is ingest's table of viewers, `pendingAttach` the viewers whose Attach has yet to be
sent, and `leaving` the ones that left the table, with what they found: that they were the last.

`attached` and `attaching` are the uplink's attachment and the one being set up, numbered in
order. `readers` has the running reader threads and `stopped` those that were told to stop. -/
structure State where
  sockets : List Nat
  nextId : Nat
  pendingAttach : List Nat
  leaving : List (Nat × Bool)
  wire : List ControlMessage
  bridge : Bridge
  attached : Option Nat
  attaching : Option Nat
  nextAttachment : Nat
  readers : List Nat
  stopped : List Nat

def init (spawnSecret : Option String) (remoteSpawnEnabled : Bool) : State :=
  ⟨[], 0, [], [], [], Bridge.new spawnSecret remoteSpawnEnabled, none, none, 0, [], []⟩

/-- `connectOk` is whether the session's daemon answers, and `locked` whether the ending reader
thread gets the lock of the table. -/
inductive Event where
  | accept
  | sendAttach (viewer : Nat)
  | leave (viewer : Nat)
  | sendDetach (viewer : Nat)
  | deliver (now : Int) (connectOk : Bool)
  | insertAttached
  | readerEnds (attachment : Nat) (eof locked : Bool)
  deriving DecidableEq, Repr

namespace State

def attach (s : State) (connectOk : Bool) : State :=
  if s.attached.isSome then s
  else if connectOk then
    { s with
      attaching := some s.nextAttachment
      readers := s.nextAttachment :: s.readers
      nextAttachment := s.nextAttachment + 1 }
  else s

def detach (s : State) : State :=
  match s.attached with
  | none => s
  | some attachment => { s with attached := none, stopped := attachment :: s.stopped }

/-- The uplink handles the messages of the one session. -/
def handle (sessionId : String) (s : State) (connectOk : Bool) : Action → State
  | .attach id => if id = sessionId then s.attach connectOk else s
  | .detach id => if id = sessionId then s.detach else s
  | _ => s

end State

def step (crates : Crates) (sessionId : String) (s : State) : Event → Option State
  | .accept => some { s with
      sockets := s.nextId :: s.sockets
      pendingAttach := s.nextId :: s.pendingAttach
      nextId := s.nextId + 1 }
  | .sendAttach viewer =>
    if viewer ∈ s.pendingAttach then
      some { s with
        pendingAttach := s.pendingAttach.filter (· != viewer)
        wire := s.wire ++ [.attach sessionId] }
    else none
  | .leave viewer =>
    if viewer ∈ s.sockets ∧ viewer ∉ s.pendingAttach then
      let sockets := s.sockets.filter (· != viewer)
      some { s with sockets := sockets, leaving := (viewer, sockets.isEmpty) :: s.leaving }
    else none
  | .sendDetach viewer =>
    match s.leaving.lookup viewer with
    | none => none
    | some last =>
      let t := { s with leaving := s.leaving.erase (viewer, last) }
      some (if last then { t with wire := t.wire ++ [.detach sessionId] } else t)
  | .deliver now connectOk =>
    match s.attaching, s.wire with
    | none, message :: rest =>
      let (action, bridge) := s.bridge.control crates message now
      some ({ s with wire := rest, bridge := bridge }.handle sessionId connectOk action)
    | _, _ => none
  | .insertAttached =>
    match s.attaching with
    | none => none
    | some attachment => some { s with attached := some attachment, attaching := none }
  | .readerEnds attachment eof locked =>
    if attachment ∈ s.readers ∧ (attachment ∈ s.stopped ∨ eof) then
      let t := { s with readers := s.readers.filter (· != attachment) }
      some (if locked then { t with attached := none } else t)
    else none

abbrev Step (crates : Crates) (sessionId : String) (s : State) (e : Event) (t : State) : Prop :=
  step crates sessionId s e = some t

/-! ## Agreement -/

/-- No message is in flight and nobody is in the middle of a step. -/
structure Quiescent (s : State) : Prop where
  wire : s.wire = []
  pendingAttach : s.pendingAttach = []
  leaving : s.leaving = []
  attaching : s.attaching = none

def Agrees (s : State) : Prop := s.attached.isSome ↔ s.sockets ≠ []

/-- The viewers that are there have yet to send their Attach. -/
def Unasked (s : State) : Prop := ∀ viewer ∈ s.sockets, viewer ∈ s.pendingAttach

/-- Nothing undoes an Attach that a viewer counts on: no Detach is sent after it, it takes effect
where no message follows it, and no reader thread that ends takes the attachment away. -/
def Undisturbed (sessionId : String) (s : State) : Event → Prop
  | .sendDetach viewer => s.leaving.lookup viewer = some true → Unasked s
  | .deliver _ connectOk => s.wire = [.attach sessionId] →
      s.bridge.spawnSecret = none ∧ (s.attached.isSome ∨ connectOk = true) ∨ Unasked s
  | .readerEnds _ _ locked => locked = true → s.attached = none ∨ s.wire ≠ [] ∨ Unasked s
  | _ => True

/-- Whether the session is attached once the link is empty, if all attaching works out. -/
def settled (sessionId : String) (s : State) : Bool :=
  match s.wire.getLast? with
  | some message => message == .attach sessionId
  | none => s.attached.isSome || s.attaching.isSome

structure Inv (sessionId : String) (s : State) : Prop where
  wire : ∀ message ∈ s.wire, message = .attach sessionId ∨ message = .detach sessionId
  hardened : s.bridge.spawnSecret.isSome → s.attached = none ∧ s.attaching = none
  pending : ∀ viewer ∈ s.pendingAttach, viewer ∈ s.sockets
  asked : ¬ Unasked s → settled sessionId s = true
  wanted : settled sessionId s = true → s.sockets ≠ [] ∨ ∃ viewer, (viewer, true) ∈ s.leaving

theorem inv_init (sessionId : String) (spawnSecret : Option String) (remoteSpawnEnabled : Bool) :
    Inv sessionId (init spawnSecret remoteSpawnEnabled) := by
  constructor <;> simp [init, Unasked, settled]

theorem Inv.agrees {sessionId : String} {s : State} (h : Inv sessionId s) (hq : Quiescent s) :
    Agrees s := by
  have hsettled : settled sessionId s = s.attached.isSome := by
    simp [settled, hq.wire, hq.attaching]
  have hasked := h.asked
  have hwanted := h.wanted
  rw [hsettled] at hasked hwanted
  constructor
  · intro hattached
    rcases hwanted hattached with hsockets | ⟨viewer, hmem⟩
    · exact hsockets
    · simp [hq.leaving] at hmem
  · intro hsockets
    obtain ⟨viewer, hviewer⟩ := List.exists_mem_of_ne_nil _ hsockets
    refine hasked fun hall => ?_
    simpa [hq.pendingAttach] using hall viewer hviewer

/-! ## Steps -/

section

variable {sessionId : String} {s t : State}

@[simp] theorem settled_append (message : ControlMessage) (h : t.wire = s.wire ++ [message]) :
    settled sessionId t = (message == .attach sessionId) := by
  simp [settled, h]

/-- Joining, and asking for the session, which it will then be attached for. -/
theorem Inv.accept (h : Inv sessionId s) : Inv sessionId { s with
    sockets := s.nextId :: s.sockets
    pendingAttach := s.nextId :: s.pendingAttach
    nextId := s.nextId + 1 } where
  wire := h.wire
  hardened := h.hardened
  pending viewer hviewer := by
    rcases List.mem_cons.mp hviewer with rfl | hold
    · exact List.mem_cons_self
    · exact List.mem_cons_of_mem _ (h.pending viewer hold)
  asked hasked := by
    refine h.asked fun hall => hasked fun viewer hviewer => ?_
    rcases List.mem_cons.mp hviewer with rfl | hold
    · exact List.mem_cons_self
    · exact List.mem_cons_of_mem _ (hall viewer hold)
  wanted _ := .inl (List.cons_ne_nil _ _)

theorem Inv.sendAttach (h : Inv sessionId s) {viewer : Nat} (hviewer : viewer ∈ s.pendingAttach) :
    Inv sessionId { s with
      pendingAttach := s.pendingAttach.filter (· != viewer)
      wire := s.wire ++ [.attach sessionId] } where
  wire message hmessage := by
    rcases List.mem_append.mp hmessage with hold | hnew
    · exact h.wire message hold
    · exact .inl (List.mem_singleton.mp hnew)
  hardened := h.hardened
  pending other hother := h.pending other (List.mem_filter.mp hother).1
  asked _ := by simp [settled]
  wanted _ := .inl (List.ne_nil_of_mem (h.pending viewer hviewer))

theorem Inv.leave (h : Inv sessionId s) {viewer : Nat} (hviewer : viewer ∉ s.pendingAttach) :
    Inv sessionId { s with
      sockets := s.sockets.filter (· != viewer)
      leaving := (viewer, (s.sockets.filter (· != viewer)).isEmpty) :: s.leaving } where
  wire := h.wire
  hardened := h.hardened
  pending other hother := by
    refine List.mem_filter.mpr ⟨h.pending other hother, bne_iff_ne.mpr ?_⟩
    rintro rfl
    exact hviewer hother
  asked hasked := h.asked fun hall => hasked fun other hother =>
    hall other (List.mem_filter.mp hother).1
  wanted _ := by
    by_cases hempty : s.sockets.filter (· != viewer) = []
    · exact .inr ⟨viewer, by simp [hempty]⟩
    · exact .inl hempty

theorem Inv.sendDetach (h : Inv sessionId s) {viewer : Nat} (hok : Unasked s) :
    Inv sessionId { s with
      leaving := s.leaving.erase (viewer, true)
      wire := s.wire ++ [.detach sessionId] } where
  wire message hmessage := by
    rcases List.mem_append.mp hmessage with hold | hnew
    · exact h.wire message hold
    · exact .inr (List.mem_singleton.mp hnew)
  hardened := h.hardened
  pending := h.pending
  asked hasked := absurd hok hasked
  wanted hsettled := by simp [settled] at hsettled

theorem Inv.stay (h : Inv sessionId s) (viewer : Nat) :
    Inv sessionId { s with leaving := s.leaving.erase (viewer, false) } where
  wire := h.wire
  hardened := h.hardened
  pending := h.pending
  asked := h.asked
  wanted hsettled := by
    rcases h.wanted hsettled with hsockets | ⟨other, hother⟩
    · exact .inl hsockets
    · exact .inr ⟨other, (List.mem_erase_of_ne (by simp)).mpr hother⟩

/-- The uplink's side changes while the viewers stay as they are. -/
theorem Inv.uplink (h : Inv sessionId s) (hsockets : t.sockets = s.sockets)
    (hpending : t.pendingAttach = s.pendingAttach) (hleaving : t.leaving = s.leaving)
    (hwire : ∀ message ∈ t.wire, message ∈ s.wire)
    (hhardened : t.bridge.spawnSecret.isSome → t.attached = none ∧ t.attaching = none)
    (hsettled : settled sessionId t = settled sessionId s ∨
      settled sessionId t = false ∧ Unasked s) : Inv sessionId t where
  wire message hmessage := h.wire message (hwire message hmessage)
  hardened := hhardened
  pending := by
    rw [hpending, hsockets]
    exact h.pending
  asked hasked := by
    have hasked : ¬ Unasked s := by
      unfold Unasked at hasked ⊢
      rwa [← hsockets, ← hpending]
    rcases hsettled with hsame | ⟨-, hunasked⟩
    · rw [hsame]
      exact h.asked hasked
    · exact absurd hunasked hasked
  wanted htrue := by
    rw [hsockets, hleaving]
    rcases hsettled with hsame | ⟨hfalse, -⟩
    · exact h.wanted (hsame ▸ htrue)
    · rw [hfalse] at htrue
      cases htrue

/-- The uplink has taken a message off the link. What it did matters when no other follows. -/
theorem Inv.pop (h : Inv sessionId s) {message : ControlMessage} {rest : List ControlMessage}
    (hwire : s.wire = message :: rest) (hsockets : t.sockets = s.sockets)
    (hpending : t.pendingAttach = s.pendingAttach) (hleaving : t.leaving = s.leaving)
    (hrest : t.wire = rest)
    (hhardened : t.bridge.spawnSecret.isSome → t.attached = none ∧ t.attaching = none)
    (hdone : (t.attached.isSome || t.attaching.isSome) = (message == .attach sessionId) ∨
      (t.attached.isSome || t.attaching.isSome) = false ∧ (rest = [] → Unasked s)) :
    Inv sessionId t := by
  refine h.uplink hsockets hpending hleaving (fun other hother => ?_) hhardened ?_
  · rw [hwire]
    exact List.mem_cons_of_mem _ (hrest ▸ hother)
  · by_cases hnil : rest = []
    · subst hnil
      simp only [settled, hrest, hwire, List.getLast?_nil, List.getLast?_singleton]
      rcases hdone with hsame | ⟨hfalse, hunasked⟩
      · exact .inl hsame
      · exact .inr ⟨hfalse, hunasked rfl⟩
    · have hlast := List.getLast?_eq_some_getLast hnil
      refine .inl ?_
      simp [settled, hrest, hwire, List.getLast?_cons, hlast]

theorem Inv.deliver (h : Inv sessionId s) {crates : Crates} {now : Int} {connectOk : Bool}
    {message : ControlMessage} {rest : List ControlMessage} (hwire : s.wire = message :: rest)
    (hattaching : s.attaching = none)
    (hok : Undisturbed sessionId s (.deliver now connectOk)) :
    Inv sessionId (({ s with
      wire := rest
      bridge := (s.bridge.control crates message now).2 }).handle sessionId connectOk
        (s.bridge.control crates message now).1) := by
  have hkind := h.wire message (hwire ▸ List.mem_cons_self)
  have hunsigned : message.isSigned = false := by
    rcases hkind with rfl | rfl <;> rfl
  rw [control_unsigned hunsigned]
  split
  next hsecret =>
    -- A hardened uplink lets nothing in.
    obtain ⟨hattached, -⟩ := h.hardened hsecret
    refine h.pop hwire rfl rfl rfl rfl (fun _ => ⟨hattached, hattaching⟩) ?_
    rcases hkind with rfl | rfl
    · refine .inr ⟨by simp [State.handle, hattached, hattaching], ?_⟩
      rintro rfl
      refine (hok hwire).resolve_left fun hbad => ?_
      simp [hbad.1] at hsecret
    · exact .inl (by simp [State.handle, hattached, hattaching])
  next hsecret =>
    rcases hkind with rfl | rfl
    · simp only [Bridge.dispatch, State.handle, if_pos, State.attach]
      split
      next hattached =>
        exact h.pop hwire rfl rfl rfl rfl (fun hbad => absurd hbad hsecret)
          (.inl (by simp [hattached]))
      next hattached =>
        split
        · exact h.pop hwire rfl rfl rfl rfl (fun hbad => absurd hbad hsecret) (.inl (by simp))
        next hconnect =>
          refine h.pop hwire rfl rfl rfl rfl (fun hbad => absurd hbad hsecret) (.inr ⟨?_, ?_⟩)
          · simpa [hattaching] using hattached
          · rintro rfl
            refine (hok hwire).resolve_left fun hbad => ?_
            rcases hbad.2 with hyes | hyes
            · exact hattached hyes
            · exact hconnect hyes
    · simp only [Bridge.dispatch, State.handle, if_pos, State.detach]
      split
      next hattached =>
        exact h.pop hwire rfl rfl rfl rfl (fun hbad => absurd hbad hsecret)
          (.inl (by simp [hattached, hattaching]))
      · exact h.pop hwire rfl rfl rfl rfl (fun hbad => absurd hbad hsecret)
          (.inl (by simp [hattaching]))

theorem inv_step {crates : Crates} {e : Event} (h : Inv sessionId s)
    (hs : Guarded (Undisturbed sessionId) (Step crates sessionId) s e t) : Inv sessionId t := by
  obtain ⟨hok, hs⟩ := hs
  cases e with
  | accept =>
    cases hs
    exact h.accept
  | sendAttach viewer =>
    simp only [Step, step, Option.ite_none_right_eq_some, Option.some.injEq] at hs
    obtain ⟨hviewer, rfl⟩ := hs
    exact h.sendAttach hviewer
  | leave viewer =>
    simp only [Step, step, Option.ite_none_right_eq_some, Option.some.injEq] at hs
    obtain ⟨hviewer, rfl⟩ := hs
    exact h.leave hviewer.2
  | sendDetach viewer =>
    simp only [Step, step] at hs
    split at hs
    · cases hs
    next last hlast =>
      cases hs
      cases last with
      | true => exact h.sendDetach (hok hlast)
      | false => exact h.stay viewer
  | deliver now connectOk =>
    simp only [Step, step] at hs
    split at hs
    next message rest hattaching hwire =>
      cases hs
      exact h.deliver hwire hattaching hok
    · cases hs
  | insertAttached =>
    simp only [Step, step] at hs
    split at hs
    · cases hs
    next attachment hattaching =>
      cases hs
      refine h.uplink rfl rfl rfl (fun _ hmessage => hmessage) (fun hsecret => ?_) (.inl ?_)
      · simp [(h.hardened hsecret).2] at hattaching
      · simp [settled, hattaching]
  | readerEnds attachment eof locked =>
    simp only [Step, step, Option.ite_none_right_eq_some, Option.some.injEq] at hs
    obtain ⟨hreader, rfl⟩ := hs
    cases locked with
    | false => exact h.uplink rfl rfl rfl (fun _ hmessage => hmessage) h.hardened (.inl rfl)
    | true =>
      refine h.uplink rfl rfl rfl (fun _ hmessage => hmessage)
        (fun hsecret => ⟨rfl, (h.hardened hsecret).2⟩) ?_
      by_cases hwire : s.wire = []
      · rcases hok rfl with hattached | hne | hunasked
        · exact .inl (by simp [settled, hwire, hattached])
        · exact absurd hwire hne
        · cases hattaching : s.attaching with
          | some attachment => exact .inl (by simp [settled, hwire, hattaching])
          | none => exact .inr ⟨by simp [settled, hwire], hunasked⟩
      · have hlast := List.getLast?_eq_some_getLast hwire
        exact .inl (by simp [settled, hlast])

/-- While nothing undoes what a viewer asked for, the uplink is attached exactly while ingest has
viewers, whenever nothing is under way. -/
theorem attach_agreement {crates : Crates} {spawnSecret : Option String}
    {remoteSpawnEnabled : Bool} {es : List Event}
    (run : Run (Guarded (Undisturbed sessionId) (Step crates sessionId))
      (init spawnSecret remoteSpawnEnabled) es t) (hq : Quiescent t) : Agrees t :=
  (run.invariant (I := Inv sessionId) inv_step
    (inv_init sessionId spawnSecret remoteSpawnEnabled)).agrees hq

/-! ## A viewer that comes while the last one leaves -/

end

def overlap : List Event :=
  [.accept, .sendAttach 0, .deliver 0 true, .insertAttached, .leave 0, .accept, .sendAttach 1,
    .sendDetach 0, .deliver 0 true, .deliver 0 true]

/-- The Detach of the one that left is sent after the new one's Attach, and undoes it. -/
theorem overlap_disagrees :
    ∃ t, Run (Step sampleCrates "r") (init none false) overlap t ∧ Quiescent t ∧
      t.sockets = [1] ∧ t.attached = none ∧ ¬ Agrees t := by
  have run : Run (Step sampleCrates "r") (init none false) overlap _ :=
    Run.of_exec (fun h => h) rfl
  exact ⟨_, run, ⟨rfl, rfl, rfl, rfl⟩, rfl, rfl, fun h => nomatch h.mpr (List.cons_ne_nil _ _)⟩

theorem overlap_in_order_agrees :
    ∃ t, Run (Guarded (Undisturbed "r") (Step sampleCrates "r")) (init none false)
        [.accept, .sendAttach 0, .deliver 0 true, .insertAttached] t ∧ Agrees t := by
  have run : Run (Guarded (Undisturbed "r") (Step sampleCrates "r")) (init none false)
      [.accept, .sendAttach 0, .deliver 0 true, .insertAttached] _ :=
    .cons ⟨trivial, rfl⟩ (.cons ⟨trivial, rfl⟩ (.cons ⟨fun _ => .inl ⟨rfl, .inr rfl⟩, rfl⟩
      (.cons ⟨trivial, rfl⟩ (.nil _))))
  exact ⟨_, run, attach_agreement run ⟨rfl, rfl, rfl, rfl⟩⟩

end Climon.Remote.AttachLink
