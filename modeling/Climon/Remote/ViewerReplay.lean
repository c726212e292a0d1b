import Climon.Lib.Interleaving
import Climon.Lib.JsonDocument
import Climon.Proto.FrameCodec
import Climon.Remote.AttachLink
import Climon.Session.AttachRuns

namespace Climon.Remote.ViewerReplay

open Climon.Lib.Interleaving Climon.Lib.JsonDocument Climon.Lib.Transition Climon.Lib.Utf16
  Climon.Proto.Frame Climon.Proto.FrameCodec Climon.Remote.SpawnAuth Climon.Session.Host
  Climon.Session.AttachStream Climon.Session.AttachRuns

/-!
# What viewers are shown

The uplink's connection to the daemon is a client like any other, and gets its replay once. Ingest
passes what the uplink forwards on to whoever is there.
-/

/-! ## The bytes of a client's queue -/

def sizeFields (cols rows : UInt16) : Fields :=
  [(encode "cols", .number (.integer cols.toNat)), (encode "rows", .number (.integer rows.toNat))]

/-- `toVec` serializes the payloads that are JSON. -/
def encodeHostFrame (toVec : Doc → List UInt8) : HostFrame → List UInt8
  | .output data => encodeFrame .output data
  | .exit exitCode =>
    encodeFrame .exit (toVec (.object [(encode "exitCode", .number (.integer exitCode.toInt))]))
  | .replay payload => encodeFrame .replay payload
  | .ptySize cols rows => encodeFrame .ptySize (toVec (.object (sizeFields cols rows)))
  | .control controllerId cols rows =>
    encodeFrame .control (toVec (.object
      ((encode "controllerId", .string (encode controllerId)) :: sizeFields cols rows)))

def queue (toVec : Doc → List UInt8) (frames : List HostFrame) : List UInt8 :=
  frames.flatMap (encodeHostFrame toVec)

theorem queue_append (toVec : Doc → List UInt8) (xs ys : List HostFrame) :
    queue toVec (xs ++ ys) = queue toVec xs ++ queue toVec ys :=
  List.flatMap_append

/-! ## The three programs -/

/-- `clientOf` is the daemon's client behind an attachment of the uplink, `taken` the number of
bytes its reader thread has read, and `spent` has the threads that read once more after they were
told to stop. `channel` is under way to ingest, each chunk with its attachment. `arrived` logs what
ingest has handled of an attachment, and `received` is what a viewer was sent. -/
structure State (G : Type) where
  link : AttachLink.State
  host : HostState G
  clientOf : Nat → ClientId
  taken : Nat → Nat
  spent : List Nat
  channel : List (Nat × List UInt8)
  arrived : Nat → List UInt8
  received : Nat → List UInt8

inductive Event where
  | link (e : AttachLink.Event)
  | host (e : Session.Host.Event)
  | read (attachment n : Nat)
  | arrive

def bufferSize : Nat := 64 * 1024

namespace State

variable {G : Type}

def connection (toVec : Doc → List UInt8) (s : State G) (attachment : Nat) : List UInt8 :=
  queue toVec (s.host.channels (s.clientOf attachment)).frames

/-- A new attachment is a new client of the daemon. -/
def follow (s : State G) (link : AttachLink.State) : State G :=
  if link.nextAttachment = s.link.nextAttachment then { s with link := link }
  else
    { s with
      link := link
      host := s.host.acceptClient
      clientOf := Function.update s.clientOf s.link.nextAttachment s.host.clientSeq }

def read (toVec : Doc → List UInt8) (s : State G) (attachment n : Nat) : State G :=
  { s with
    taken := Function.update s.taken attachment (s.taken attachment + n)
    spent := if attachment ∈ s.link.stopped then attachment :: s.spent else s.spent
    channel := s.channel ++
      [(attachment, ((s.connection toVec attachment).drop (s.taken attachment)).take n)] }

/-- The same bytes for every viewer in the table. -/
def arrive (s : State G) (attachment : Nat) (data : List UInt8)
    (rest : List (Nat × List UInt8)) : State G :=
  { s with
    channel := rest
    arrived := Function.update s.arrived attachment (s.arrived attachment ++ data)
    received := fun viewer =>
      if viewer ∈ s.link.sockets then s.received viewer ++ data else s.received viewer }

end State

section

variable {G : Type}

def init (env : HostEnv G) (spawnSecret : Option String) (remoteSpawnEnabled : Bool)
    (launch : Launch) (cols rows : UInt16) (idleSeconds : Int) (snippetEnabled : Bool) :
    State G where
  link := AttachLink.init spawnSecret remoteSpawnEnabled
  host := initialState env launch cols rows idleSeconds snippetEnabled
  clientOf _ := 0
  taken _ := 0
  spent := []
  channel := []
  arrived _ := []
  received _ := []

/-- What the viewers write is among the frames that the daemon may get at any time. -/
inductive Step (env : HostEnv G) (toVec : Doc → List UInt8) (crates : Crates) (sessionId : String)
    (s : State G) : Event → State G → Prop
  | link {e : AttachLink.Event} {link : AttachLink.State} :
      AttachLink.step crates sessionId s.link e = some link →
      Step env toVec crates sessionId s (.link e) (s.follow link)
  | host {e : Session.Host.Event} {host : HostState G} : Session.Host.Step env s.host e host →
      Step env toVec crates sessionId s (.host e) { s with host := host }
  | read {attachment n : Nat} : attachment ∈ s.link.readers →
      (attachment ∈ s.link.stopped → attachment ∉ s.spent) → 0 < n → n ≤ bufferSize →
      s.taken attachment + n ≤ (s.connection toVec attachment).length →
      Step env toVec crates sessionId s (.read attachment n) (s.read toVec attachment n)
  | arrive {attachment : Nat} {data : List UInt8} {rest : List (Nat × List UInt8)} :
      s.channel = (attachment, data) :: rest →
      Step env toVec crates sessionId s .arrive (s.arrive attachment data rest)

/-! ## Pictures -/

def hostEvent : Event → Option Session.Host.Event
  | .host e => some e
  | _ => none

/-- The output of the session so far. -/
def produced (es : List Event) : List (List UInt8) := chunks (es.filterMap hostEvent)

/-- The frames of a client of the daemon: before any output a replay of all there was. -/
def Picture (stream : List (List UInt8)) (frames : List HostFrame) : Prop :=
  outputs frames = [] ∨ ∃ before received, before ++ received <+: stream ∧
    Attached before received frames

/-- Everything the daemon has sent to the uplink has arrived. -/
structure CaughtUp (toVec : Doc → List UInt8) (s : State G) (attachment : Nat) : Prop where
  attached : s.link.attached = some attachment
  reading : attachment ∈ s.link.readers
  live : Live s.host (s.clientOf attachment)
  taken : s.taken attachment = (s.connection toVec attachment).length
  channel : s.channel = []

structure FullPictures (toVec : Doc → List UInt8) (stream : List (List UInt8)) (s : State G) :
    Prop where
  begins : ∀ viewer, ∃ frames, s.received viewer <+: queue toVec frames ∧ Picture stream frames
  complete : ∀ viewer ∈ s.link.sockets, ∀ attachment, CaughtUp toVec s attachment →
    ∃ before received frames, stream = before ++ received ∧
      s.received viewer = queue toVec frames ∧ Attached before received frames

/-- Bytes of the attachment may still come to ingest. -/
def Flowing (s : State G) (attachment : Nat) : Prop :=
  attachment ∈ s.link.readers ∨ ∃ data, (attachment, data) ∈ s.channel

/-- A viewer joins only where ingest has handled nothing yet of what is coming, and the uplink
opens a connection only for viewers who have received nothing and get nothing else. -/
def FromTheStart (sessionId : String) (s : State G) : Event → Prop
  | .link .accept => ∀ attachment, Flowing s attachment →
      s.arrived attachment = [] ∧ ∀ other, Flowing s other → other = attachment
  | .link (.deliver _ connectOk) => s.link.wire.head? = some (.attach sessionId) →
      s.link.attached = none → connectOk = true → s.link.sockets = [] ∨
        (∀ attachment, ¬ Flowing s attachment) ∧ ∀ viewer ∈ s.link.sockets, s.received viewer = []
  | _ => True

/-! ## The daemon's side -/

variable {env : HostEnv G} {s t : HostState G} {n : ClientId}

theorem writeInitialFrames_frames (h : Registered s) (m : ClientId) :
    (s.writeInitialFrames m).clientSeq = s.clientSeq ∧
      ∃ ext, ((s.writeInitialFrames m).channels n).frames = (s.channels n).frames ++ ext ∧
        outputs ext = [] := by
  by_cases hw : Waiting s m
  · have hquiet := writeInitialFrames_quiet h hw
    exact ⟨hquiet.clientSeq, hquiet.frames n⟩
  · rw [writeInitialFrames_of_not_waiting hw]
    exact ⟨rfl, [], (List.append_nil _).symm, rfl⟩

/-- A queue grows at its end, and by output only while its client is live. -/
theorem effect_frames {e : Session.Host.Event} (h : Registered s) (effect : Effect env s e t)
    (hn : n < s.clientSeq) :
    s.clientSeq ≤ t.clientSeq ∧
      ∃ ext, (t.channels n).frames = (s.channels n).frames ++ ext ∧
        (¬ Live s n → outputs ext = []) := by
  cases effect with
  | quiet silent quiet =>
    obtain ⟨ext, hext, hout⟩ := quiet.frames n
    exact ⟨quiet.clientSeq.ge, ext, hext, fun _ => hout⟩
  | connect =>
    refine ⟨Nat.le_succ _, [], ?_, fun _ => rfl⟩
    rw [acceptClient_channels (Nat.ne_of_lt hn), List.append_nil]
  | output data copy =>
    obtain ⟨ext, hext, hout⟩ := copy.frames n
    have hseq : t.clientSeq = s.clientSeq := copy.clientSeq
    by_cases hl : Live s n
    · rw [relay_frames_live hl, List.append_assoc] at hext
      exact ⟨hseq.ge, _, hext, fun hnot => absurd hl hnot⟩
    · rw [relay_frames_other hl] at hext
      exact ⟨hseq.ge, ext, hext, fun _ => hout⟩
  | writerDies m =>
    refine ⟨Nat.le_refl _, [], ?_, fun _ => rfl⟩
    rw [killWriter_frames, List.append_nil]
  | initial m silent before =>
    obtain ⟨ext, hext, hout⟩ := before.frames n
    obtain ⟨hseq, more, hmore, hmoreOut⟩ :=
      writeInitialFrames_frames (n := n) (h.quiet before.toQuiet) m
    refine ⟨(hseq.trans before.clientSeq).ge, ext ++ more, ?_, fun _ => ?_⟩
    · rw [hmore, hext, List.append_assoc]
    · unfold outputs at hout hmoreOut ⊢
      rw [List.filterMap_append, hout, hmoreOut, List.append_nil]

theorem step_frames {e : Session.Host.Event} (h : Registered s)
    (hstep : Session.Host.Step env s e t) (hn : n < s.clientSeq) :
    s.clientSeq ≤ t.clientSeq ∧
      ∃ ext, (t.channels n).frames = (s.channels n).frames ++ ext ∧
        (¬ Live s n → outputs ext = []) := by
  obtain ⟨m, hm, effect⟩ := step_effect hstep
  obtain ⟨more, hmore, hmoreOut⟩ := hm.frames n
  obtain ⟨hseq, ext, hext, hout⟩ := effect_frames (h.quiet hm.toQuiet) effect (hm.clientSeq ▸ hn)
  refine ⟨hm.clientSeq ▸ hseq, more ++ ext, by rw [hext, hmore, List.append_assoc], fun hl => ?_⟩
  unfold outputs at hmoreOut hout ⊢
  rw [List.filterMap_append, hmoreOut, hout fun hm' => hl (live_of_quiet hm.toQuiet hm'),
    List.append_nil]

/-- The client was sent no output yet, or joined with its replay. -/
def Pictured (stream : List (List UInt8)) (s : HostState G) (n : ClientId) : Prop :=
  outputs (s.channels n).frames = [] ∨ ∃ before, Joined before stream s n

theorem Pictured.picture {stream : List (List UInt8)} (h : Pictured stream s n) :
    Picture stream (s.channels n).frames := by
  refine h.imp_right fun ⟨before, hjoined⟩ => ?_
  obtain ⟨received, rest, hstream, hattached, -⟩ := hjoined.attached
  exact ⟨before, received, ⟨rest, hstream.symm⟩, hattached⟩

theorem Pictured.step {past : List Session.Host.Event} {e : Session.Host.Event}
    (hs : Streams (chunks past) s)
    (h : Pictured (chunks past) s n) (hn : n < s.clientSeq) (hstep : Session.Host.Step env s e t) :
    Pictured (chunks (past ++ [e])) t n := by
  by_cases hl : Live s n
  · obtain ⟨before, hjoined⟩ := hs.live n hl
    exact .inr ⟨before, hjoined.step hs.toRegistered hstep⟩
  · rcases h with hnone | ⟨before, hjoined⟩
    · obtain ⟨-, ext, hext, hout⟩ := step_frames hs.toRegistered hstep hn
      refine .inl ?_
      have hnew := hout hl
      unfold outputs at hnone hnew ⊢
      rw [hext, List.filterMap_append, hnone, hnew, List.append_nil]
    · exact .inr ⟨before, hjoined.step hs.toRegistered hstep⟩

theorem Pictured.acceptClient {stream : List (List UInt8)} (h : Pictured stream s n)
    (hn : n < s.clientSeq) : Pictured stream s.acceptClient n := by
  refine h.imp (fun hnone => ?_) fun ⟨before, hjoined⟩ => ⟨before, hjoined.acceptClient⟩
  rwa [acceptClient_channels (Nat.ne_of_lt hn)]

end

/-! ## The link's side -/

section

variable {crates : Crates} {sessionId : String} {s t : AttachLink.State}

def OnWire (sessionId : String) (s : AttachLink.State) : Prop :=
  ∀ message ∈ s.wire, message = .attach sessionId ∨ message = .detach sessionId

/-- What a step of the link does to the viewers and to the reader threads. -/
inductive LinkEffect (sessionId : String) (s : AttachLink.State) :
    AttachLink.Event → AttachLink.State → Prop
  | joins {t : AttachLink.State} (sockets : t.sockets = s.nextId :: s.sockets)
      (nextId : t.nextId = s.nextId + 1) (readers : t.readers = s.readers)
      (nextAttachment : t.nextAttachment = s.nextAttachment) : LinkEffect sessionId s .accept t
  | opens {t : AttachLink.State} {now : Int} (head : s.wire.head? = some (.attach sessionId))
      (attached : s.attached = none) (sockets : t.sockets = s.sockets)
      (nextId : t.nextId = s.nextId) (readers : t.readers = s.nextAttachment :: s.readers)
      (nextAttachment : t.nextAttachment = s.nextAttachment + 1) :
      LinkEffect sessionId s (.deliver now true) t
  | keeps {e : AttachLink.Event} {t : AttachLink.State} (sockets : t.sockets ⊆ s.sockets)
      (nextId : t.nextId = s.nextId) (readers : t.readers ⊆ s.readers)
      (nextAttachment : t.nextAttachment = s.nextAttachment) : LinkEffect sessionId s e t

theorem onWire_snoc {message : ControlMessage} (h : OnWire sessionId s)
    (hmessage : message = .attach sessionId ∨ message = .detach sessionId)
    (hwire : t.wire = s.wire ++ [message]) : OnWire sessionId t := by
  intro other hother
  rw [hwire] at hother
  rcases List.mem_append.mp hother with hold | hnew
  · exact h other hold
  · cases List.mem_singleton.mp hnew
    exact hmessage

theorem LinkEffect.same {e : AttachLink.Event} (hsockets : t.sockets = s.sockets)
    (hnextId : t.nextId = s.nextId) (hreaders : t.readers = s.readers)
    (hnext : t.nextAttachment = s.nextAttachment) : LinkEffect sessionId s e t :=
  .keeps (hsockets ▸ List.Subset.refl _) hnextId (hreaders ▸ List.Subset.refl _) hnext

theorem attach_effect {now : Int} {connectOk : Bool} {rest : List ControlMessage}
    {bridge : ControlLoop.Bridge} (hwire : s.wire = .attach sessionId :: rest) :
    LinkEffect sessionId s (.deliver now connectOk)
        ({ s with wire := rest, bridge := bridge }.attach connectOk) ∧
      ({ s with wire := rest, bridge := bridge }.attach connectOk).wire = rest := by
  unfold AttachLink.State.attach
  split
  · exact ⟨.same rfl rfl rfl rfl, rfl⟩
  next hattached =>
    split
    next hok =>
      subst hok
      exact ⟨.opens (by rw [hwire]; rfl) (by simpa using hattached) rfl rfl rfl rfl, rfl⟩
    next => exact ⟨.same rfl rfl rfl rfl, rfl⟩

theorem detach_effect {e : AttachLink.Event} {rest : List ControlMessage}
    {bridge : ControlLoop.Bridge} :
    LinkEffect sessionId s e { s with wire := rest, bridge := bridge }.detach ∧
      ({ s with wire := rest, bridge := bridge } : AttachLink.State).detach.wire = rest := by
  unfold AttachLink.State.detach
  split <;> exact ⟨.same rfl rfl rfl rfl, rfl⟩

theorem deliver_effect {now : Int} {connectOk : Bool} {message : ControlMessage}
    {rest : List ControlMessage} (h : OnWire sessionId s) (hwire : s.wire = message :: rest)
    (ht : t = ({ s with
      wire := rest
      bridge := (s.bridge.control crates message now).2 }).handle sessionId connectOk
        (s.bridge.control crates message now).1) :
    LinkEffect sessionId s (.deliver now connectOk) t ∧ t.wire = rest := by
  have hkind := h message (hwire ▸ List.mem_cons_self)
  have hunsigned : message.isSigned = false := by
    rcases hkind with rfl | rfl <;> rfl
  rw [ControlLoop.control_unsigned hunsigned] at ht
  subst ht
  split
  · exact ⟨.same rfl rfl rfl rfl, rfl⟩
  · rcases hkind with rfl | rfl
    · simp only [ControlLoop.Bridge.dispatch, AttachLink.State.handle, if_pos]
      exact attach_effect hwire
    · simp only [ControlLoop.Bridge.dispatch, AttachLink.State.handle, if_pos]
      exact detach_effect

theorem link_effect {e : AttachLink.Event} (h : OnWire sessionId s)
    (hs : AttachLink.step crates sessionId s e = some t) :
    LinkEffect sessionId s e t ∧ OnWire sessionId t := by
  cases e with
  | accept =>
    cases hs
    exact ⟨.joins rfl rfl rfl rfl, h⟩
  | sendAttach viewer =>
    simp only [AttachLink.step, Option.ite_none_right_eq_some, Option.some.injEq] at hs
    obtain ⟨-, rfl⟩ := hs
    exact ⟨.same rfl rfl rfl rfl, onWire_snoc h (.inl rfl) rfl⟩
  | leave viewer =>
    simp only [AttachLink.step, Option.ite_none_right_eq_some, Option.some.injEq] at hs
    obtain ⟨-, rfl⟩ := hs
    exact ⟨.keeps (List.filter_subset_self _) rfl (List.Subset.refl _) rfl, h⟩
  | sendDetach viewer =>
    simp only [AttachLink.step] at hs
    split at hs
    · cases hs
    next last hlast =>
      cases hs
      cases last with
      | true => exact ⟨.same rfl rfl rfl rfl, onWire_snoc h (.inr rfl) rfl⟩
      | false => exact ⟨.same rfl rfl rfl rfl, h⟩
  | deliver now connectOk =>
    simp only [AttachLink.step] at hs
    split at hs
    next message rest hattaching hwire =>
      obtain ⟨heffect, hrest⟩ := deliver_effect h hwire (Option.some.inj hs).symm
      refine ⟨heffect, fun other hother => h other ?_⟩
      rw [hwire]
      exact List.mem_cons_of_mem _ (hrest ▸ hother)
    · cases hs
  | insertAttached =>
    simp only [AttachLink.step] at hs
    split at hs
    · cases hs
    · cases hs
      exact ⟨.same rfl rfl rfl rfl, h⟩
  | readerEnds attachment eof locked =>
    simp only [AttachLink.step, Option.ite_none_right_eq_some, Option.some.injEq] at hs
    obtain ⟨-, rfl⟩ := hs
    cases locked <;> exact ⟨.keeps (List.Subset.refl _) rfl (List.filter_subset_self _) rfl, h⟩

end

/-! ## All three together -/

section

variable {G : Type} {env : HostEnv G} {toVec : Doc → List UInt8} {crates : Crates}
  {sessionId : String}

/-- `reached` is what the reader thread of an attachment has forwarded, and `shown` that the
viewers have everything that arrived of what is still coming, from its first byte. -/
structure Inv (toVec : Doc → List UInt8) (sessionId : String) (out : List (List UInt8))
    (s : State G) : Prop where
  onWire : OnWire sessionId s.link
  streams : Streams out s.host
  clients : ∀ a < s.link.nextAttachment, s.clientOf a < s.host.clientSeq ∧
    Pictured out s.host (s.clientOf a)
  numbered : ∀ a, Flowing s a → a < s.link.nextAttachment
  unopened : ∀ a, s.link.nextAttachment ≤ a → s.arrived a = []
  reached : ∀ a < s.link.nextAttachment,
    s.arrived a ++ stream a s.channel <+: s.connection toVec a
  counted : ∀ a, s.taken a = (s.arrived a ++ stream a s.channel).length
  joined : ∀ viewer ∈ s.link.sockets, viewer < s.link.nextId
  newcomers : ∀ viewer, s.link.nextId ≤ viewer → s.received viewer = []
  shown : ∀ viewer ∈ s.link.sockets, ∀ a, Flowing s a →
    s.received viewer = s.arrived a ∧ ∀ b, Flowing s b → b = a
  views : ∀ viewer, s.received viewer = [] ∨
    ∃ a < s.link.nextAttachment, s.received viewer <+: s.connection toVec a

theorem inv_init (env : HostEnv G) (toVec : Doc → List UInt8) (sessionId : String)
    (spawnSecret : Option String) (remoteSpawnEnabled : Bool) (launch : Launch)
    (cols rows : UInt16) (idleSeconds : Int) (snippetEnabled : Bool) :
    Inv toVec sessionId [] (init env spawnSecret remoteSpawnEnabled launch cols rows idleSeconds
      snippetEnabled) where
  onWire _ h := absurd h List.not_mem_nil
  streams := initial_streams env launch cols rows idleSeconds snippetEnabled
  clients _ h := absurd h (Nat.not_lt_zero _)
  numbered _ h := h.elim (fun hreader => absurd hreader List.not_mem_nil)
    fun ⟨_, hdata⟩ => absurd hdata List.not_mem_nil
  unopened _ _ := rfl
  reached _ h := absurd h (Nat.not_lt_zero _)
  counted _ := rfl
  joined _ h := absurd h List.not_mem_nil
  newcomers _ _ := rfl
  shown _ h := absurd h List.not_mem_nil
  views _ := .inl rfl

variable {out : List (List UInt8)} {s : State G}

theorem stream_of_not_flowing {a : Nat} (h : ¬ Flowing s a) : stream a s.channel = [] := by
  have hnone : project a s.channel = [] := by
    unfold project
    rw [List.map_eq_nil_iff, List.filter_eq_nil_iff]
    rintro ⟨b, data⟩ hmem hb
    obtain rfl : b = a := by simpa using hb
    exact h (.inr ⟨data, hmem⟩)
  rw [stream, hnone]
  rfl

/-- The link changes while no connection is opened. -/
theorem Inv.follow_same (h : Inv toVec sessionId out s) {link : AttachLink.State}
    (hwire : OnWire sessionId link) (hreaders : link.readers ⊆ s.link.readers)
    (hnext : link.nextAttachment = s.link.nextAttachment) (hnextId : s.link.nextId ≤ link.nextId)
    (hjoined : ∀ viewer ∈ link.sockets, viewer < link.nextId)
    (hshown : ∀ viewer ∈ link.sockets, ∀ a, Flowing s a →
      s.received viewer = s.arrived a ∧ ∀ b, Flowing s b → b = a) :
    Inv toVec sessionId out (s.follow link) := by
  rw [State.follow, if_pos hnext]
  have hflow {a : Nat} (ha : Flowing { s with link := link } a) : Flowing s a :=
    ha.imp_left fun hreader => hreaders hreader
  refine ⟨hwire, h.streams, ?_, ?_, ?_, ?_, h.counted, hjoined, ?_, ?_, ?_⟩
  · rw [hnext]
    exact h.clients
  · rw [hnext]
    exact fun a ha => h.numbered a (hflow ha)
  · rw [hnext]
    exact h.unopened
  · rw [hnext]
    exact h.reached
  · exact fun viewer hviewer => h.newcomers viewer (hnextId.trans hviewer)
  · intro viewer hviewer a ha
    obtain ⟨hsame, hsingle⟩ := hshown viewer hviewer a (hflow ha)
    exact ⟨hsame, fun b hb => hsingle b (hflow hb)⟩
  · rw [hnext]
    exact h.views

theorem follow_opened {link : AttachLink.State}
    (hnext : link.nextAttachment = s.link.nextAttachment + 1) :
    s.follow link = { s with
      link := link
      host := s.host.acceptClient
      clientOf := Function.update s.clientOf s.link.nextAttachment s.host.clientSeq } := by
  rw [State.follow, if_neg]
  rw [hnext]
  exact Nat.succ_ne_self _

theorem follow_clientOf {link : AttachLink.State}
    (hnext : link.nextAttachment = s.link.nextAttachment + 1) {a : Nat}
    (ha : a < s.link.nextAttachment) : (s.follow link).clientOf a = s.clientOf a := by
  rw [follow_opened hnext]
  exact Function.update_of_ne (Nat.ne_of_lt ha) _ _

theorem Inv.follow_connection (h : Inv toVec sessionId out s) {link : AttachLink.State}
    (hnext : link.nextAttachment = s.link.nextAttachment + 1) {a : Nat}
    (ha : a < s.link.nextAttachment) :
    (s.follow link).connection toVec a = s.connection toVec a := by
  have hhost : (s.follow link).host = s.host.acceptClient := by rw [follow_opened hnext]
  unfold State.connection
  rw [follow_clientOf hnext ha, hhost, acceptClient_channels (Nat.ne_of_lt (h.clients a ha).1)]

theorem follow_flowing {link : AttachLink.State}
    (hreaders : link.readers = s.link.nextAttachment :: s.link.readers)
    (hnext : link.nextAttachment = s.link.nextAttachment + 1) {a : Nat}
    (ha : Flowing (s.follow link) a) : a = s.link.nextAttachment ∨ Flowing s a := by
  rw [follow_opened hnext] at ha
  rcases ha with hreader | hdata
  · change a ∈ link.readers at hreader
    rw [hreaders] at hreader
    exact (List.mem_cons.mp hreader).imp_right .inl
  · exact .inr (.inr hdata)

/-- The new connection is a client of its own, that was sent nothing yet. -/
theorem Inv.follow_clients (h : Inv toVec sessionId out s) {link : AttachLink.State}
    (hnext : link.nextAttachment = s.link.nextAttachment + 1) {a : Nat}
    (ha : a < s.link.nextAttachment + 1) :
    (s.follow link).clientOf a < s.host.acceptClient.clientSeq ∧
      Pictured out s.host.acceptClient ((s.follow link).clientOf a) := by
  rcases Nat.lt_succ_iff_lt_or_eq.mp ha with hlt | rfl
  · obtain ⟨hseq, hpictured⟩ := h.clients a hlt
    rw [follow_clientOf hnext hlt]
    exact ⟨Nat.lt_succ_of_lt hseq, hpictured.acceptClient hseq⟩
  · have hnew : (s.follow link).clientOf s.link.nextAttachment = s.host.clientSeq := by
      rw [follow_opened hnext]
      exact Function.update_self _ _ _
    have hempty : s.host.acceptClient.channels s.host.clientSeq = ⟨[], false⟩ :=
      Function.update_self _ _ _
    rw [hnew]
    refine ⟨Nat.lt_succ_self _, .inl ?_⟩
    rw [hempty]
    rfl

/-- The first viewer's Attach takes effect, with nothing left of an earlier connection. -/
theorem Inv.follow_opens (h : Inv toVec sessionId out s) {link : AttachLink.State}
    (hwire : OnWire sessionId link) (hsockets : link.sockets = s.link.sockets)
    (hnextId : link.nextId = s.link.nextId)
    (hreaders : link.readers = s.link.nextAttachment :: s.link.readers)
    (hnext : link.nextAttachment = s.link.nextAttachment + 1)
    (hok : s.link.sockets = [] ∨
      (∀ a, ¬ Flowing s a) ∧ ∀ viewer ∈ s.link.sockets, s.received viewer = []) :
    Inv toVec sessionId out (s.follow link) := by
  have hclients {a : Nat} := h.follow_clients hnext (a := a)
  have hconnection {a : Nat} := h.follow_connection hnext (a := a)
  have hflow {a : Nat} := follow_flowing hreaders hnext (a := a)
  have hfresh : ¬ Flowing s s.link.nextAttachment := fun ha =>
    Nat.lt_irrefl _ (h.numbered _ ha)
  have hunopened := h.unopened s.link.nextAttachment (Nat.le_refl _)
  rw [follow_opened hnext] at hclients hconnection hflow ⊢
  refine ⟨hwire, h.streams.acceptClient, ?_, ?_, ?_, ?_, h.counted, ?_, ?_, ?_, ?_⟩
  · exact fun a ha => hclients (hnext ▸ ha)
  · intro a ha
    rw [hnext]
    rcases hflow ha with rfl | hflowing
    · exact Nat.lt_succ_self _
    · exact Nat.lt_succ_of_lt (h.numbered a hflowing)
  · intro a ha
    rw [hnext] at ha
    exact h.unopened a (Nat.le_of_succ_le ha)
  · intro a ha
    rw [hnext] at ha
    rcases Nat.lt_succ_iff_lt_or_eq.mp ha with hlt | rfl
    · rw [hconnection hlt]
      exact h.reached a hlt
    · dsimp only
      rw [hunopened, stream_of_not_flowing hfresh]
      exact List.nil_prefix
  · rw [hsockets, hnextId]
    exact h.joined
  · rw [hnextId]
    exact h.newcomers
  · intro viewer hviewer a ha
    rw [hsockets] at hviewer
    rcases hok with hempty | ⟨hnone, hreceived⟩
    · rw [hempty] at hviewer
      cases hviewer
    · obtain rfl := (hflow ha).resolve_right (hnone a)
      refine ⟨?_, fun b hb => (hflow hb).resolve_right (hnone b)⟩
      dsimp only
      rw [hreceived viewer hviewer, hunopened]
  · intro viewer
    refine (h.views viewer).imp_right fun ⟨a, ha, hview⟩ => ⟨a, ?_, ?_⟩
    · rw [hnext]
      exact Nat.lt_succ_of_lt ha
    · rw [hconnection ha]
      exact hview

theorem Inv.follow (h : Inv toVec sessionId out s) {e : AttachLink.Event}
    {link : AttachLink.State} (hok : FromTheStart sessionId s (.link e))
    (hs : AttachLink.step crates sessionId s.link e = some link) :
    Inv toVec sessionId out (s.follow link) := by
  obtain ⟨heffect, hwire⟩ := link_effect h.onWire hs
  cases heffect with
  | joins hsockets hnextId hreaders hnext =>
    refine h.follow_same hwire (hreaders ▸ List.Subset.refl _) hnext (hnextId ▸ Nat.le_succ _) ?_ ?_
    · intro viewer hviewer
      rw [hsockets] at hviewer
      rw [hnextId]
      rcases List.mem_cons.mp hviewer with rfl | hold
      · exact Nat.lt_succ_self _
      · exact Nat.lt_succ_of_lt (h.joined viewer hold)
    · intro viewer hviewer a ha
      rw [hsockets] at hviewer
      rcases List.mem_cons.mp hviewer with rfl | hold
      · obtain ⟨hnothing, hsingle⟩ := hok a ha
        exact ⟨by rw [hnothing, h.newcomers _ (Nat.le_refl _)], hsingle⟩
      · exact h.shown viewer hold a ha
  | opens hhead hattached hsockets hnextId hreaders hnext =>
    exact h.follow_opens hwire hsockets hnextId hreaders hnext (hok hhead hattached rfl)
  | keeps hsockets hnextId hreaders hnext =>
    refine h.follow_same hwire hreaders hnext hnextId.ge ?_ ?_
    · rw [hnextId]
      exact fun viewer hviewer => h.joined viewer (hsockets hviewer)
    · exact fun viewer hviewer => h.shown viewer (hsockets hviewer)

theorem connection_grows {host : HostState G} {e : Session.Host.Event}
    (h : Inv toVec sessionId out s) (hstep : Session.Host.Step env s.host e host) {a : Nat}
    (ha : a < s.link.nextAttachment) :
    s.connection toVec a <+: State.connection toVec { s with host := host } a := by
  obtain ⟨-, ext, hext, -⟩ := step_frames h.streams.toRegistered hstep (h.clients a ha).1
  unfold State.connection
  rw [hext, queue_append]
  exact List.prefix_append _ _

/-- The daemon queues more frames, and the old ones stay in front. -/
theorem Inv.host {past : List Session.Host.Event} (h : Inv toVec sessionId (chunks past) s)
    {e : Session.Host.Event} {host : HostState G} (hstep : Session.Host.Step env s.host e host) :
    Inv toVec sessionId (chunks (past ++ [e])) { s with host := host } where
  onWire := h.onWire
  streams := h.streams.step hstep
  clients a ha := by
    obtain ⟨hseq, hpictured⟩ := h.clients a ha
    obtain ⟨hmore, -⟩ := step_frames h.streams.toRegistered hstep hseq
    exact ⟨hseq.trans_le hmore, hpictured.step h.streams hseq hstep⟩
  numbered := h.numbered
  unopened := h.unopened
  reached a ha := (h.reached a ha).trans (connection_grows h hstep ha)
  counted := h.counted
  joined := h.joined
  newcomers := h.newcomers
  shown := h.shown
  views viewer := (h.views viewer).imp_right fun ⟨a, ha, hview⟩ =>
    ⟨a, ha, hview.trans (connection_grows h hstep ha)⟩

theorem take_drop_prefix {xs ys : List UInt8} (h : xs <+: ys) (n : Nat) :
    xs ++ (ys.drop xs.length).take n <+: ys := by
  obtain ⟨rest, rfl⟩ := h
  rw [List.drop_left, List.prefix_append_right_inj]
  exact List.take_prefix n rest

theorem Inv.read (h : Inv toVec sessionId out s) {a n : Nat} (hreader : a ∈ s.link.readers)
    (hn : s.taken a + n ≤ (s.connection toVec a).length) :
    Inv toVec sessionId out (s.read toVec a n) := by
  have hflow {b : Nat} (hb : Flowing (s.read toVec a n) b) : Flowing s b := by
    rcases hb with hb | ⟨data, hdata⟩
    · exact .inl hb
    · rcases List.mem_append.mp hdata with hold | hnew
      · exact .inr ⟨data, hold⟩
      · cases List.mem_singleton.mp hnew
        exact .inl hreader
  have hself : stream a (s.read toVec a n).channel =
      stream a s.channel ++ ((s.connection toVec a).drop (s.taken a)).take n := by
    unfold State.read
    rw [stream_append, stream_singleton_self]
  have hother {b : Nat} (hb : b ≠ a) :
      stream b (s.read toVec a n).channel = stream b s.channel := by
    unfold State.read
    rw [stream_append, stream_singleton_ne hb, List.append_nil]
  refine ⟨h.onWire, h.streams, h.clients, fun b hb => h.numbered b (hflow hb), h.unopened, ?_, ?_,
    h.joined, h.newcomers, ?_, h.views⟩
  · intro b hb
    by_cases heq : b = a
    · subst heq
      rw [hself, h.counted b, ← List.append_assoc]
      exact take_drop_prefix (h.reached b hb) n
    · rw [hother heq]
      exact h.reached b hb
  · intro b
    by_cases heq : b = a
    · subst heq
      have hcounted := h.counted b
      rw [List.length_append] at hcounted
      rw [hself]
      simp only [State.read, Function.update_self, List.length_append, List.length_take,
        List.length_drop]
      omega
    · rw [hother heq]
      simp only [State.read, Function.update_of_ne heq]
      exact h.counted b
  · intro viewer hviewer b hb
    obtain ⟨hsame, hsingle⟩ := h.shown viewer hviewer b (hflow hb)
    exact ⟨hsame, fun c hc => hsingle c (hflow hc)⟩

theorem Inv.arrive (h : Inv toVec sessionId out s) {a : Nat} {data : List UInt8}
    {rest : List (Nat × List UInt8)} (hchannel : s.channel = (a, data) :: rest) :
    Inv toVec sessionId out (s.arrive a data rest) := by
  have hflowing : Flowing s a := .inr ⟨data, hchannel ▸ List.mem_cons_self⟩
  have ha := h.numbered a hflowing
  have hflow {b : Nat} (hb : Flowing (s.arrive a data rest) b) : Flowing s b :=
    hb.imp_right fun ⟨data, hdata⟩ => ⟨data, hchannel ▸ List.mem_cons_of_mem _ hdata⟩
  have hkeeps (b : Nat) : (s.arrive a data rest).arrived b ++ stream b rest =
      s.arrived b ++ stream b s.channel := by
    have hsplit : stream b s.channel = stream b [(a, data)] ++ stream b rest := by
      rw [← stream_append, hchannel]
      rfl
    by_cases heq : b = a
    · subst heq
      rw [hsplit, stream_singleton_self]
      simp [State.arrive]
    · rw [hsplit, stream_singleton_ne heq]
      simp [State.arrive, Function.update_of_ne heq]
  have hview (viewer : Nat) (hviewer : viewer ∈ s.link.sockets) :
      (s.arrive a data rest).received viewer = (s.arrive a data rest).arrived a := by
    simp only [State.arrive, if_pos hviewer, Function.update_self]
    rw [(h.shown viewer hviewer a hflowing).1]
  refine ⟨h.onWire, h.streams, h.clients, fun b hb => h.numbered b (hflow hb), ?_, ?_, ?_,
    h.joined, ?_, ?_, ?_⟩
  · intro b hb
    have hne : b ≠ a := fun heq => Nat.not_le_of_lt ha (heq ▸ hb)
    simp only [State.arrive, Function.update_of_ne hne]
    exact h.unopened b hb
  · intro b hb
    change (s.arrive a data rest).arrived b ++ stream b rest <+: _
    rw [hkeeps]
    exact h.reached b hb
  · intro b
    change _ = ((s.arrive a data rest).arrived b ++ stream b rest).length
    rw [hkeeps]
    exact h.counted b
  · intro viewer hviewer
    have hnot : viewer ∉ s.link.sockets := fun hmem =>
      Nat.not_le_of_lt (h.joined viewer hmem) hviewer
    simp only [State.arrive, if_neg hnot]
    exact h.newcomers viewer hviewer
  · intro viewer hviewer b hb
    obtain ⟨-, hsingle⟩ := h.shown viewer hviewer a hflowing
    obtain rfl := hsingle b (hflow hb)
    exact ⟨hview viewer hviewer, fun c hc => hsingle c (hflow hc)⟩
  · intro viewer
    by_cases hviewer : viewer ∈ s.link.sockets
    · refine .inr ⟨a, ha, ?_⟩
      rw [hview viewer hviewer]
      have hreached := h.reached a ha
      rw [← hkeeps] at hreached
      exact (List.prefix_append _ _).trans hreached
    · simp only [State.arrive, if_neg hviewer]
      exact h.views viewer

theorem inv_step {past : List Event} {e : Event} {t : State G}
    (h : Inv toVec sessionId (produced past) s)
    (hs : Guarded (FromTheStart sessionId) (Step env toVec crates sessionId) s e t) :
    Inv toVec sessionId (produced (past ++ [e])) t := by
  obtain ⟨hok, hs⟩ := hs
  unfold produced at h ⊢
  rw [List.filterMap_append]
  cases hs with
  | link hlink => exact (List.append_nil (past.filterMap hostEvent)).symm ▸ h.follow hok hlink
  | host hhost => exact h.host hhost
  | read hreader hspent hpos hsize hlength =>
    exact (List.append_nil (past.filterMap hostEvent)).symm ▸ h.read hreader hlength
  | arrive hchannel => exact (List.append_nil (past.filterMap hostEvent)).symm ▸ h.arrive hchannel

theorem Inv.fullPictures (h : Inv toVec sessionId out s) : FullPictures toVec out s where
  begins viewer := by
    rcases h.views viewer with hnothing | ⟨a, ha, hview⟩
    · exact ⟨[], by rw [hnothing]; exact List.nil_prefix, .inl rfl⟩
    · exact ⟨_, hview, (h.clients a ha).2.picture⟩
  complete viewer hviewer a hcaught := by
    have hflowing : Flowing s a := .inl hcaught.reading
    have ha := h.numbered a hflowing
    obtain ⟨before, hjoined⟩ := h.streams.live _ hcaught.live
    obtain ⟨received, rest, hstream, hattached, hlive⟩ := hjoined.attached
    refine ⟨before, received, _, ?_, ?_, hattached⟩
    · rw [hstream, hlive hcaught.live, List.append_nil]
    · have hreached := h.reached a ha
      have hcounted := h.counted a
      rw [hcaught.channel] at hreached hcounted
      rw [show stream a ([] : List (Nat × List UInt8)) = [] from rfl, List.append_nil]
        at hreached hcounted
      rw [(h.shown viewer hviewer a hflowing).1]
      exact hreached.eq_of_length (hcounted.symm.trans hcaught.taken)

/-- Where every connection of the uplink is forwarded to its viewers from the start, all of them
have the full picture, in every state that is reached. -/
theorem viewers_full_picture (env : HostEnv G) (toVec : Doc → List UInt8) (crates : Crates)
    (sessionId : String) (spawnSecret : Option String) (remoteSpawnEnabled : Bool)
    (launch : Launch) (cols rows : UInt16) (idleSeconds : Int) (snippetEnabled : Bool)
    {es : List Event} {t : State G}
    (run : Run (Guarded (FromTheStart sessionId) (Step env toVec crates sessionId))
      (init env spawnSecret remoteSpawnEnabled launch cols rows idleSeconds snippetEnabled) es t) :
    FullPictures toVec (produced es) t :=
  (run.history (I := fun past s => Inv toVec sessionId (produced past) s)
    (fun h hs => inv_step h hs) []
    (inv_init env toVec sessionId spawnSecret remoteSpawnEnabled launch cols rows idleSeconds
      snippetEnabled)).fullPictures

end

/-! ## A second viewer -/

theorem not_picture_output {stream : List (List UInt8)} {data : List UInt8}
    {frames : List HostFrame} : ¬ Picture stream (.output data :: frames) := by
  rintro (hnone | ⟨before, received, -, pre, cols, rows, post, heq, hpre, -⟩)
  · cases hnone
  · cases pre with
    | nil => cases heq
    | cons frame pre =>
      cases heq
      cases hpre

/-- A stream that starts with an `Output` frame is not a full picture. -/
theorem not_picture_of_type {toVec : Doc → List UInt8} {stream : List (List UInt8)}
    {frames : List HostFrame} (h : (queue toVec frames)[4]? = some FrameType.output.byte) :
    ¬ Picture stream frames := by
  cases frames with
  | nil => cases h
  | cons frame frames =>
    cases frame with
    | output data => exact not_picture_output
    | _ =>
      injection h with htype
      cases htype

/-- The serializer on the one payload below. -/
def sampleToVec : Doc → List UInt8 := fun _ =>
  Lib.Utf8.asBytes "\x7b\"cols\":80,\"rows\":24\x7d"

abbrev SampleStep := Step (G := Unit) plainEnv sampleToVec sampleCrates "r"

def sampleInit : State Unit := init plainEnv none false .headless 80 24 10 false

/-- A viewer joins and gets the replay. -/
def joins : List Event :=
  [.link .accept, .link (.sendAttach 0), .link (.deliver 0 true), .link .insertAttached,
    .host (.initialFramesTimer 0), .read 0 31, .arrive]

/-- Another one joins, and the session prints a character. -/
def joinsLater : List Event :=
  [.link .accept, .link (.sendAttach 1), .link (.deliver 0 true), .host (.output [98]), .read 0 6,
    .arrive]

theorem sample_host {s t : HostState Unit} {e : Session.Host.Event}
    (h : Session.Host.next plainEnv s e = some t) : Session.Host.Step plainEnv s e t :=
  step_of_next h

/-- The second Attach finds the session attached, and no replay comes. -/
theorem later_viewer_without_picture : ∃ t, Run SampleStep sampleInit (joins ++ joinsLater) t ∧
    t.received 1 = encodeFrame .output [98] ∧
    ¬ FullPictures sampleToVec (produced (joins ++ joinsLater)) t := by
  obtain ⟨t, run, hreceived⟩ : ∃ t, Run SampleStep sampleInit (joins ++ joinsLater) t ∧
      t.received 1 = encodeFrame .output [98] := by
    refine ⟨_, .cons (.link rfl) (.cons (.link rfl) (.cons (.link rfl) (.cons (.link rfl)
      (.cons (.host (sample_host rfl)) (.cons (.read ?_ ?_ ?_ ?_ ?_) (.cons (.arrive rfl)
      (.cons (.link rfl) (.cons (.link rfl) (.cons (.link rfl) (.cons (.host (sample_host rfl))
      (.cons (.read ?_ ?_ ?_ ?_ ?_) (.cons (.arrive rfl) (.nil _))))))))))))), ?_⟩
    all_goals decide
  refine ⟨t, run, hreceived, fun hfull => ?_⟩
  obtain ⟨frames, hprefix, hpicture⟩ := hfull.begins 1
  obtain ⟨rest, hrest⟩ := hprefix
  refine @not_picture_of_type sampleToVec _ _ ?_ hpicture
  rw [← hrest, hreceived]
  rfl

/-- The only viewer gets the replay, and then the output. -/
theorem only_viewer_full_picture : ∃ t,
    Run (Guarded (FromTheStart "r") SampleStep) sampleInit
      (joins ++ [.host (.output [98]), .read 0 6, .arrive]) t ∧
    FullPictures sampleToVec [[98]] t := by
  have hnone {a : Nat} : ¬ Flowing sampleInit a := fun ha =>
    ha.elim (fun hreader => absurd hreader List.not_mem_nil)
      fun ⟨_, hdata⟩ => absurd hdata List.not_mem_nil
  obtain ⟨t, run⟩ : ∃ t, Run (Guarded (FromTheStart "r") SampleStep) sampleInit
      (joins ++ [.host (.output [98]), .read 0 6, .arrive]) t := by
    refine ⟨_, .cons ⟨fun a ha => absurd ha hnone, .link rfl⟩ (.cons ⟨trivial, .link rfl⟩
      (.cons ⟨fun _ _ _ => .inr ⟨fun a => hnone, fun _ _ => rfl⟩, .link rfl⟩
      (.cons ⟨trivial, .link rfl⟩ (.cons ⟨trivial, .host (sample_host rfl)⟩
      (.cons ⟨trivial, .read ?_ ?_ ?_ ?_ ?_⟩ (.cons ⟨trivial, .arrive rfl⟩
      (.cons ⟨trivial, .host (sample_host rfl)⟩ (.cons ⟨trivial, .read ?_ ?_ ?_ ?_ ?_⟩
      (.cons ⟨trivial, .arrive rfl⟩ (.nil _))))))))))⟩
    all_goals decide
  exact ⟨t, run, viewers_full_picture plainEnv sampleToVec sampleCrates "r" none false .headless
    80 24 10 false run⟩

end Climon.Remote.ViewerReplay
