import Climon.Cli.AttachClient
import Climon.Remote.ViewerReplay
import Climon.Session.LastReplay

namespace Climon.Cli.LocalAttach

open Climon.Cli.AttachClient Climon.Cli.DetachChord Climon.Lib.Framing Climon.Lib.JsonDocument
  Climon.Lib.Transition Climon.Lib.Utf16 Climon.Proto.Frame Climon.Proto.FrameCodec
  Climon.Proto.Meta Climon.Remote.ViewerReplay Climon.Session.AttachRuns
  Climon.Session.AttachStream Climon.Session.LastReplay Climon.Session.Surfaces

open Climon.Session.Host hiding next

/-!
# A terminal and its session

The attach client and the daemon, with what is under way between them. Once all of that has arrived,
the terminal shows the whole session or says that another surface does.
-/

/-! ## Frames on the socket -/

/-- A frame of a queue, as the client decodes it. -/
def wire (toVec : Doc → List UInt8) : HostFrame → DecodedFrame
  | .output data => ⟨.output, data⟩
  | .exit exitCode =>
    ⟨.exit, toVec (.object [(encode "exitCode", .number (.integer exitCode.toInt))])⟩
  | .replay payload => ⟨.replay, payload⟩
  | .ptySize cols rows => ⟨.ptySize, toVec (.object (sizeFields cols rows))⟩
  | .control controllerId cols rows =>
    ⟨.control, toVec (.object
      ((encode "controllerId", .string (encode controllerId)) :: sizeFields cols rows))⟩

/-- The length of every payload fits its field. -/
def Fits (toVec : Doc → List UInt8) (frames : List HostFrame) : Prop :=
  ∀ frame ∈ frames, (wire toVec frame).payload.length < 2 ^ 32

/-- What the daemon's reader makes of a frame of the client. -/
def clientFrame (viewerId : String) : Sent → ClientFrame
  | .resize size => .resize ⟨size.cols, size.rows, some .terminal, some viewerId⟩
  | .input forward => .input forward
  | .takeControl => .takeControl
  | .replay => .replay

def sent? : Entry → Option Sent
  | .sent frame => some frame
  | .wrote _ => none

def sentFrames (log : List Entry) : List Sent := log.filterMap sent?

/-! ## The two programs -/

/-- `handled` counts the client's frames that the daemon has handled. -/
structure State (G : Type) where
  host : HostState G
  client : AttachClient.State
  handled : Nat

inductive Event where
  | host (e : Session.Host.Event)
  /-- The daemon handles the next frame of the client. -/
  | handle (stored : Option SessionStatus)
  | client (e : AttachClient.Event)

namespace State

variable {G : Type}

def frames (s : State G) (n : ClientId) : List HostFrame := (s.host.channels n).frames

def pending (s : State G) : List Sent := (sentFrames s.client.log).drop s.handled

end State

def fromClient (n : ClientId) : Session.Host.Event → Bool
  | .frame m _ _ => m == n
  | _ => false

section

variable {G : Type}

/-- The client connects. -/
def init (host : HostState G) (viewerId : String) (detachPrefix : UInt8) (size : Size) :
    State G where
  host := host.acceptClient
  client := AttachClient.init viewerId detachPrefix size
  handled := 0

/-- Whatever else happens to the daemon, and however the bytes of the client's queue are cut. -/
inductive Step (env : HostEnv G) (toVec : Doc → List UInt8) (payloads : Payloads)
    (viewerId : String) (n : ClientId) (s : State G) : Event → State G → Prop
  | host {e : Session.Host.Event} {host : HostState G} : fromClient n e = false →
      Session.Host.Step env s.host e host →
      Step env toVec payloads viewerId n s (.host e) { s with host := host }
  | handle {frame : Sent} {stored : Option SessionStatus} {host : HostState G} :
      s.pending.head? = some frame →
      Session.Host.Step env s.host (.frame n (clientFrame viewerId frame) stored) host →
      Step env toVec payloads viewerId n s (.handle stored)
        { s with host := host, handled := s.handled + 1 }
  | client {e : AttachClient.Event} {client : AttachClient.State} :
      AttachClient.Step payloads s.client e client →
      client.received <+: queue toVec (s.frames n) →
      Step env toVec payloads viewerId n s (.client e) { s with client := client }

def hostEvent : Event → Option Session.Host.Event
  | .host e => some e
  | _ => none

def produced (es : List Event) : List (List UInt8) := chunks (es.filterMap hostEvent)

/-- Nothing is under way in either direction, and the daemon holds on to the client. -/
structure Settled (toVec : Doc → List UInt8) (n : ClientId) (s : State G) : Prop where
  handled : s.pending = []
  received : s.client.received = queue toVec (s.frames n)
  consumed : s.client.batch = none
  live : Live s.host n

/-- In control, the terminal was last given a replay of all there was and then every chunk; without,
a notice stands where it stopped. -/
structure Shows (stream : List (List UInt8)) (client : AttachClient.State) : Prop where
  controlling : client.displaced = false → ∃ earlier before after, stream = before ++ after ∧
    client.log.filterMap Entry.write? =
      earlier ++ .output (replayOf before) :: after.map .output
  displaced : client.displaced = true → ∃ earlier size,
    client.log.filterMap Entry.write? = earlier ++ [.notice size]

end

/-! ## Decoding a queue -/

section

variable {toVec : Doc → List UInt8} {frames ext : List HostFrame}

theorem encodeHostFrame_eq (frame : HostFrame) : encodeHostFrame toVec frame =
    encodeFrame (wire toVec frame).frameType (wire toVec frame).payload := by
  cases frame <;> rfl

theorem Fits.left (h : Fits toVec (frames ++ ext)) : Fits toVec frames :=
  fun frame hframe => h frame (List.mem_append_left ext hframe)

theorem parse_queue (h : Fits toVec frames) :
    grammar.parse (queue toVec frames) = ⟨frames.map (wire toVec), .waiting []⟩ := by
  induction frames with
  | nil => exact grammar.parse_short (scan_of_none rfl)
  | cons frame frames ih =>
    unfold Fits at h
    rw [List.forall_mem_cons] at h
    have hscan := scan_of_some (frontFrame_encode
      (.known (wire toVec frame).frameType (wire toVec frame).payload h.1))
    rw [show queue toVec (frame :: frames) =
        encodeHostFrame toVec frame ++ queue toVec frames from List.flatMap_cons,
      encodeHostFrame_eq]
    exact (grammar.parse_unit_append hscan _).trans (congrArg _ (ih h.2))

/-- The frames of a read are the next ones of the queue. -/
theorem messages_prefix {received rest : List UInt8} (h : Fits toVec frames)
    (hreceived : received <+: queue toVec frames)
    (hrest : (grammar.parse received).ending = .waiting rest) :
    (grammar.parse received).messages <+: frames.map (wire toVec) := by
  obtain ⟨more, hmore⟩ := hreceived
  have hparse := grammar.parse_append_waiting more hrest
  rw [hmore, parse_queue h] at hparse
  have hmessages := congrArg Parse.messages hparse
  rw [Parse.messages_after] at hmessages
  exact ⟨_, hmessages.symm⟩

end

/-! ## What a terminal in control shows -/

section

variable {payloads : Payloads} {viewerId : String} {before frames : List DecodedFrame}
  {consumed : List (DecodedFrame × Size)}

/-- The frame names nobody, or this surface. -/
def Own (payloads : Payloads) (viewerId : String) (frame : DecodedFrame) : Prop :=
  ∀ id, controllerId? payloads frame = some id → id = viewerId

def payload? (frame : DecodedFrame) : Option (List UInt8) :=
  if frame.frameType = .output ∨ frame.frameType = .replay then some frame.payload else none

theorem displacedBy_of_own {frame : DecodedFrame} (h : Own payloads viewerId frame)
    (hbefore : displacedBy payloads viewerId before = false) :
    displacedBy payloads viewerId (before ++ [frame]) = false := by
  rw [displacedBy_concat]
  cases hid : controllerId? payloads frame with
  | none => exact hbefore
  | some id =>
    rw [h id hid]
    exact bne_self_eq_false viewerId

theorem displacedBy_append_of_own (h : ∀ frame ∈ frames, Own payloads viewerId frame)
    (hbefore : displacedBy payloads viewerId before = false) :
    displacedBy payloads viewerId (before ++ frames) = false := by
  induction frames generalizing before with
  | nil => rwa [List.append_nil]
  | cons frame frames ih =>
    rw [List.forall_mem_cons] at h
    rw [List.append_cons]
    exact ih h.2 (displacedBy_of_own h.1 hbefore)

theorem own_of_displacedBy {frame : DecodedFrame}
    (h : displacedBy payloads viewerId (before ++ [frame]) = false) :
    Own payloads viewerId frame := by
  intro id hid
  rw [displacedBy_concat, hid] at h
  simpa using h

theorem control_of_named {frame : DecodedFrame} {id : String}
    (h : controllerId? payloads frame = some id) :
    ∃ payload, frame = ⟨.control, payload⟩ ∧ payloads.controllerId payload = some id := by
  obtain ⟨frameType, payload⟩ := frame
  unfold controllerId? at h
  split at h
  next hcontrol =>
    cases hcontrol
    exact ⟨payload, rfl, h⟩
  · cases h

theorem shown_named {displaced : Bool} {frame : DecodedFrame} {size : Size} {id : String}
    (h : controllerId? payloads frame = some id) :
    shown payloads viewerId displaced frame size =
      if id ≠ viewerId then [.notice size] else if displaced then [.clear] else [] := by
  obtain ⟨payload, rfl, hid⟩ := control_of_named h
  simp only [shown, hid]

theorem shown_unnamed {displaced : Bool} {frame : DecodedFrame} {size : Size}
    (h : controllerId? payloads frame = none) :
    shown payloads viewerId displaced frame size =
      if displaced then [] else ((payload? frame).map Write.output).toList := by
  obtain ⟨frameType, payload⟩ := frame
  cases frameType
  case control =>
    have hnone : payloads.controllerId payload = none := by simpa [controllerId?] using h
    simp [shown, payload?, hnone]
  all_goals simp [shown, payload?]

theorem payload?_named {frame : DecodedFrame} {id : String}
    (h : controllerId? payloads frame = some id) : payload? frame = none := by
  obtain ⟨payload, rfl, -⟩ := control_of_named h
  rfl

theorem shown_own {frame : DecodedFrame} {size : Size} (h : Own payloads viewerId frame) :
    shown payloads viewerId false frame size = ((payload? frame).map Write.output).toList := by
  cases hid : controllerId? payloads frame with
  | none => exact shown_unnamed hid
  | some id =>
    rw [shown_named hid, payload?_named hid, if_neg (not_not_intro (h id hid))]
    rfl

theorem screen_append (rest : List (DecodedFrame × Size)) :
    screen payloads viewerId before (consumed ++ rest) =
      screen payloads viewerId before consumed ++
        screen payloads viewerId (before ++ consumed.map (·.1)) rest := by
  induction consumed generalizing before with
  | nil => simp [screen]
  | cons first consumed ih =>
    rw [List.cons_append, screen, screen, ih, List.append_assoc, List.append_assoc, List.map_cons,
      List.singleton_append]

theorem screen_own (h : ∀ frame ∈ consumed.map (·.1), Own payloads viewerId frame)
    (hbefore : displacedBy payloads viewerId before = false) :
    screen payloads viewerId before consumed =
      ((consumed.map (·.1)).filterMap payload?).map .output := by
  induction consumed generalizing before with
  | nil => rfl
  | cons first consumed ih =>
    obtain ⟨frame, size⟩ := first
    rw [List.map_cons, List.forall_mem_cons] at h
    rw [screen, hbefore, shown_own h.1, ih h.2 (displacedBy_of_own h.1 hbefore), List.map_cons,
      List.filterMap_cons]
    cases payload? frame <;> rfl

/-- Nothing is written behind the notice. -/
theorem screen_displaced (h : displacedBy payloads viewerId (consumed.map (·.1)) = true) :
    ∃ earlier size, screen payloads viewerId [] consumed = earlier ++ [.notice size] := by
  induction consumed using List.reverseRecOn with
  | nil => cases h
  | append_singleton consumed last ih =>
    obtain ⟨frame, size⟩ := last
    rw [List.map_append, List.map_singleton, displacedBy_concat] at h
    rw [screen_concat, List.nil_append]
    cases hid : controllerId? payloads frame with
    | none =>
      rw [hid] at h
      obtain ⟨earlier, size', heq⟩ := ih h
      have hdisplaced : displacedBy payloads viewerId (consumed.map (·.1)) = true := h
      rw [shown_unnamed hid, if_pos hdisplaced, heq]
      exact ⟨earlier, size', List.append_nil _⟩
    | some id =>
      rw [hid] at h
      have hother : id ≠ viewerId := by simpa using h
      rw [shown_named hid, if_pos hother]
      exact ⟨_, size, rfl⟩

end

/-! ## Replays that are owed -/

/-- The daemon has no way left to reach the client. -/
def Lost {G : Type} (s : HostState G) (n : ClientId) : Prop :=
  n ∉ keys s ∨ (s.channels n).dead = true

/-- How the terminal came to what it shows: what the client last asked to be repainted for, or the
start, is followed by a replay, unless the request is still to be made or handled. -/
structure Recovery (payloads : Payloads) (viewerId : String) (queued consumed : List DecodedFrame)
    (log : List Entry) (pending : List Sent) (lost : Prop) (front back : List DecodedFrame) :
    Prop where
  split : consumed = front ++ back
  undisplaced : displacedBy payloads viewerId front = false
  own : ∀ frame ∈ back, Own payloads viewerId frame
  replay : front = [] ∨ owed log = true ∨ .replay ∈ pending ∨
    (∃ frame ∈ queued.drop front.length, frame.frameType = .replay) ∨ lost

def Recovers (payloads : Payloads) (viewerId : String) (queued consumed : List DecodedFrame)
    (log : List Entry) (pending : List Sent) (lost : Prop) : Prop :=
  displacedBy payloads viewerId consumed = false → ∃ front back,
    Recovery payloads viewerId queued consumed log pending lost front back

section

variable {payloads : Payloads} {viewerId : String} {queued consumed more : List DecodedFrame}
  {log ext : List Entry} {pending : List Sent} {lost lost' : Prop} {frame : DecodedFrame}
  {size : Size}

/-- The client goes on and a request may be made. -/
theorem Recovers.goesOn (h : Recovers payloads viewerId queued consumed log pending lost)
    (hext : owed log = true → owed (log ++ ext) = true ∨ .replay ∈ sentFrames ext) :
    Recovers payloads viewerId queued consumed (log ++ ext) (pending ++ sentFrames ext) lost := by
  intro hin
  obtain ⟨front, back, hconsumed, hfront, hback, hreplay⟩ := h hin
  refine ⟨front, back, hconsumed, hfront, hback, ?_⟩
  rcases hreplay with hstart | howed | hpending | hqueued
  · exact .inl hstart
  · rcases hext howed with howed' | hsent
    · exact .inr (.inl howed')
    · exact .inr (.inr (.inl (List.mem_append_right _ hsent)))
  · exact .inr (.inr (.inl (List.mem_append_left _ hpending)))
  · exact .inr (.inr (.inr hqueued))

/-- Control that comes back clears the terminal, and a replay is owed from there on. -/
theorem Recovers.consumes (h : Recovers payloads viewerId queued consumed log pending lost) :
    Recovers payloads viewerId queued (consumed ++ [frame])
      (log ++ (shown payloads viewerId (displacedBy payloads viewerId consumed) frame size).map
        .wrote) pending lost := by
  intro hin
  have hown := own_of_displacedBy hin
  cases hdisplaced : displacedBy payloads viewerId consumed with
  | false =>
    obtain ⟨front, back, hconsumed, hfront, hback, hreplay⟩ := h hdisplaced
    refine ⟨front, back ++ [frame], ?_, hfront, ?_, ?_⟩
    · rw [hconsumed, List.append_assoc]
    · rw [List.forall_mem_append, List.forall_mem_singleton]
      exact ⟨hback, hown⟩
    · refine hreplay.imp_right (Or.imp_left fun howed => ?_)
      rw [owed_wrote, howed]
      rfl
  | true =>
    refine ⟨consumed ++ [frame], [], (List.append_nil _).symm, hin, by simp, .inr (.inl ?_)⟩
    have hclear : .clear ∈ shown payloads viewerId true frame size := by
      rw [displacedBy_concat, hdisplaced] at hin
      cases hid : controllerId? payloads frame with
      | none =>
        rw [hid] at hin
        cases hin
      | some id =>
        rw [shown_named hid, if_neg (not_not_intro (hown id hid)), if_pos rfl]
        exact List.mem_singleton_self _
    rw [owed_wrote, decide_eq_true hclear, Bool.or_true]

/-- The daemon queues more frames. -/
theorem Recovers.queues (h : Recovers payloads viewerId queued consumed log pending lost)
    (hlost : lost → lost') :
    Recovers payloads viewerId (queued ++ more) consumed log pending lost' := by
  intro hin
  obtain ⟨front, back, hconsumed, hfront, hback, hreplay⟩ := h hin
  refine ⟨front, back, hconsumed, hfront, hback,
    hreplay.imp_right (Or.imp_right (Or.imp_right ?_))⟩
  refine Or.imp (fun ⟨frame, hframe, htype⟩ => ⟨frame, ?_, htype⟩) hlost
  rw [List.drop_append]
  exact List.mem_append_left _ hframe

/-- The daemon handles a frame of the client, and answers a request unless the client is lost. -/
theorem Recovers.handles {sent : Sent}
    (h : Recovers payloads viewerId queued consumed log (sent :: pending) lost)
    (hlost : lost → lost') (hconsumed : consumed <+: queued)
    (hanswer : sent = .replay → lost' ∨ ∃ frame ∈ more, frame.frameType = .replay) :
    Recovers payloads viewerId (queued ++ more) consumed log pending lost' := by
  intro hin
  obtain ⟨front, back, hsplit, hfront, hback, hreplay⟩ := h hin
  refine ⟨front, back, hsplit, hfront, hback, hreplay.imp_right (Or.imp_right ?_)⟩
  have hlength : front.length ≤ queued.length :=
    ((List.prefix_append front back).trans (hsplit ▸ hconsumed)).length_le
  rintro (hpending | hqueued | hlost')
  · rcases List.mem_cons.mp hpending with rfl | hrest
    · refine .inr ((hanswer rfl).symm.imp_left fun ⟨frame, hframe, htype⟩ =>
        ⟨frame, ?_, htype⟩)
      rw [List.drop_append_of_le_length hlength]
      exact List.mem_append_right _ hframe
    · exact .inl hrest
  · obtain ⟨frame, hframe, htype⟩ := hqueued
    refine .inr (.inl ⟨frame, ?_, htype⟩)
    rw [List.drop_append]
    exact List.mem_append_left _ hframe
  · exact .inr (.inr (hlost hlost'))

end

/-! ## Steps of the daemon -/

section

variable {G : Type} {env : HostEnv G} {s t : HostState G} {n : ClientId}

theorem Lost.not_live (h : Lost s n) : ¬ Live s n := by
  rintro ⟨hmem, hdead⟩
  rcases h with hgone | hdead'
  · exact hgone (mem_keys hmem)
  · exact Bool.noConfusion (hdead'.symm.trans hdead)

theorem Lost.of_shape (h : Lost s n) (hshape : ∀ entry ∈ shape t, entry ∈ shape s)
    (hdead : (s.channels n).dead = true → (t.channels n).dead = true) : Lost t n := by
  refine h.imp (fun hgone hmem => hgone ?_) hdead
  rw [keys_eq_shape] at hmem ⊢
  obtain ⟨entry, hentry, heq⟩ := List.mem_map.mp hmem
  exact heq ▸ List.mem_map_of_mem (hshape entry hentry)

theorem Lost.quiet (h : Lost s n) (k : Quiet s t) : Lost t n :=
  h.of_shape (fun _ hentry => k.shape.subset hentry) fun hdead => (k.dead n).trans hdead

theorem Lost.writeInitialFrames (hr : Registered s) (h : Lost s n) (m : ClientId) :
    Lost (s.writeInitialFrames m) n := by
  by_cases hw : Waiting s m
  · have hmark : Lost (markJoined s m) n := by
      refine h.imp_left fun hgone => ?_
      rwa [markJoined_keys]
    exact hmark.quiet (writeInitialFrames_quiet hr hw)
  · rw [writeInitialFrames_of_not_waiting hw]
    exact h

theorem Lost.step {e : Session.Host.Event} (hr : Registered s) (h : Lost s n)
    (hn : n < s.clientSeq) (hstep : Session.Host.Step env s e t) : Lost t n := by
  obtain ⟨m, hm, effect⟩ := step_effect hstep
  have hlost := h.quiet hm.toQuiet
  have hrm := hr.quiet hm.toQuiet
  cases effect with
  | quiet silent quiet => exact hlost.quiet quiet
  | connect =>
    have hne : n ≠ m.clientSeq := Nat.ne_of_lt (hm.clientSeq ▸ hn)
    refine hlost.imp (fun hgone hmem => ?_) fun hdead => ?_
    · rcases List.mem_cons.mp hmem with hnew | hold
      · exact hne hnew
      · exact hgone hold
    · rwa [acceptClient_channels hne]
  | output data copy =>
    have hrelay : Lost (relay env m data) n := hlost.of_shape
      (fun _ hentry => (relay_shape env m data).subset hentry)
      fun hdead => (relay_dead env m data n).trans hdead
    exact hrelay.quiet copy.toQuiet
  | writerDies k =>
    refine hlost.imp_right fun hdead => ?_
    by_cases hk : n = k
    · subst hk
      simp [killWriter]
    · simpa [killWriter, Function.update_of_ne hk] using hdead
  | initial k silent before =>
    exact (hlost.quiet before.toQuiet).writeInitialFrames (hrm.quiet before.toQuiet) k

theorem replay_answered {stored : Option SessionStatus}
    (hstep : Session.Host.Step env s (.frame n .replay stored) t) :
    Lost s n ∨ ∃ cols rows payload, (t.channels n).frames =
      (s.channels n).frames ++ [.ptySize cols rows, .replay payload] := by
  obtain ⟨-, clients, hperm, rfl⟩ := hstep
  by_cases hmem : n ∈ keys s
  · cases hdead : (s.channels n).dead with
    | true => exact .inl (.inr hdead)
    | false =>
      have hmem' : n ∈ keys { s with clients := clients } :=
        ((hperm.map (·.1)).mem_iff).mpr hmem
      exact .inr ⟨_, _, _, writeReplay_frames hmem' hdead⟩
  · exact .inl (.inl hmem)

end

/-! ## Steps of the client -/

section

variable {payloads : Payloads} {viewerId : String} {detachPrefix : UInt8} {size : Size}
  {s t : AttachClient.State}

inductive ClientEffect (payloads : Payloads) (viewerId : String) (s : AttachClient.State) :
    AttachClient.State → Prop
  | goesOn {t : AttachClient.State} (ext : List Entry) (consumed : t.consumed = s.consumed)
      (log : t.log = s.log ++ ext)
      (owes : owed s.log = true → owed (s.log ++ ext) = true ∨ .replay ∈ sentFrames ext) :
      ClientEffect payloads viewerId s t
  | consumes {t : AttachClient.State} (frame : DecodedFrame)
      (consumed : t.consumed = s.consumed ++ [(frame, s.size)])
      (log : t.log = s.log ++ (shown payloads viewerId
        (displacedBy payloads viewerId (s.consumed.map (·.1))) frame s.size).map .wrote) :
      ClientEffect payloads viewerId s t

theorem ClientEffect.same (hconsumed : t.consumed = s.consumed) (hlog : t.log = s.log) :
    ClientEffect payloads viewerId s t :=
  .goesOn [] hconsumed (hlog.trans (List.append_nil _).symm) fun howed =>
    .inl ((congrArg owed (List.append_nil s.log)).trans howed)

theorem ClientEffect.sends {frame : Sent} (hconsumed : t.consumed = s.consumed)
    (hlog : t.log = s.log ++ [.sent frame]) : ClientEffect payloads viewerId s t := by
  refine .goesOn [.sent frame] hconsumed hlog fun howed => ?_
  by_cases hreplay : frame = .replay
  · subst hreplay
    exact .inr (List.mem_singleton_self _)
  · exact .inl ((owed_sent hreplay).trans howed)

theorem client_effect {e : AttachClient.Event}
    (h : AttachClient.Inv payloads viewerId detachPrefix s)
    (hstep : AttachClient.Step payloads s e t) : ClientEffect payloads viewerId s t := by
  unfold AttachClient.Step at hstep
  cases e with
  | receive chunk =>
    rw [next] at hstep
    split at hstep
    · cases hstep
      exact .same rfl rfl
    · cases hstep
  | consume =>
    rw [next] at hstep
    split at hstep
    next frame frames code requestReplay hbatch =>
      cases hstep
      refine .consumes frame rfl ?_
      have hresult : Consumes payloads frame s.size s.gate code
          (consumeFrame payloads frame s.size s.gate code) := consumes h.taken
      dsimp only
      rw [hresult.out, h.viewer, h.displaced]
    · cases hstep
  | settle =>
    rw [next] at hstep
    split at hstep
    next code requestReplay hbatch =>
      cases hstep
      cases requestReplay with
      | false => exact .same rfl (List.append_nil _)
      | true => exact .sends rfl rfl
    · cases hstep
  | hangUp =>
    rw [next] at hstep
    split at hstep
    · cases hstep
    · cases hstep
      exact .same rfl rfl
  | resized size =>
    cases hstep
    exact .same rfl rfl
  | forwardResize =>
    rw [next] at hstep
    split at hstep
    · cases hstep
      exact .sends rfl rfl
    · cases hstep
  | type chunk =>
    rw [next] at hstep
    split at hstep
    · cases hstep
      exact .same rfl rfl
    · cases hstep
  | send =>
    rw [next] at hstep
    split at hstep
    · cases hstep
      exact .sends rfl rfl
    · cases hstep
  | decide =>
    rw [next] at hstep
    split at hstep
    · cases hstep
      exact .same rfl rfl
    · cases hstep
      exact .same rfl rfl
    · cases hstep
  | quit =>
    rw [next] at hstep
    split at hstep
    · cases hstep
      exact .same rfl rfl
    · cases hstep

/-- Only the reader reads from the socket. -/
theorem received_kept {e : AttachClient.Event} (hother : ∀ chunk, e ≠ .receive chunk)
    (hstep : AttachClient.Step payloads s e t) : t.received = s.received := by
  unfold AttachClient.Step at hstep
  cases e with
  | receive chunk => exact absurd rfl (hother chunk)
  | resized size =>
    cases hstep
    rfl
  | _ =>
    rw [next] at hstep
    split at hstep <;> cases hstep <;> rfl

end

/-! ## The invariant -/

section

variable {G : Type} {env : HostEnv G} {toVec : Doc → List UInt8} {payloads : Payloads}
  {viewerId : String} {detachPrefix : UInt8} {n : ClientId}

/-- The daemon's frames are decodable only as long as they fit. -/
structure Inv (toVec : Doc → List UInt8) (payloads : Payloads) (viewerId : String)
    (detachPrefix : UInt8) (n : ClientId) (past : List Session.Host.Event) (s : State G) :
    Prop where
  client : AttachClient.Inv payloads viewerId detachPrefix s.client
  known : n < s.host.clientSeq
  streams : Streams (chunks past) s.host
  repainted : Repainted (chunks past) s.host n
  received : s.client.received <+: queue toVec (s.frames n)
  handled : s.handled ≤ (sentFrames s.client.log).length
  recovers : Fits toVec (s.frames n) → Recovers payloads viewerId ((s.frames n).map (wire toVec))
    (s.client.consumed.map (·.1)) s.client.log s.pending (Lost s.host n)

variable {past : List Session.Host.Event} {s : State G}

theorem Inv.consumed_prefix (h : Inv toVec payloads viewerId detachPrefix n past s)
    (hfits : Fits toVec (s.frames n)) :
    s.client.consumed.map (·.1) <+: (s.frames n).map (wire toVec) := by
  have hmessages := messages_prefix hfits h.received h.client.decoder
  rw [← h.client.frames] at hmessages
  exact (List.prefix_append _ _).trans hmessages

/-- The daemon goes on, by itself or with a frame of the client. -/
theorem Inv.hostStep {e : Session.Host.Event} {host : HostState G} {handled : Nat}
    (h : Inv toVec payloads viewerId detachPrefix n past s)
    (hstep : Session.Host.Step env s.host e host)
    (hhandled : handled ≤ (sentFrames s.client.log).length)
    (hrecovers : ∀ ext, (host.channels n).frames = s.frames n ++ ext →
      Fits toVec (s.frames n) → (Lost s.host n → Lost host n) →
      Recovers payloads viewerId ((s.frames n).map (wire toVec) ++ ext.map (wire toVec))
        (s.client.consumed.map (·.1)) s.client.log ((sentFrames s.client.log).drop handled)
        (Lost host n)) :
    Inv toVec payloads viewerId detachPrefix n (past ++ [e])
      { s with host := host, handled := handled } := by
  obtain ⟨hseq, ext, hext, -⟩ := step_frames h.streams.toRegistered hstep h.known
  refine ⟨h.client, h.known.trans_le hseq, h.streams.step hstep, h.repainted.step h.streams hstep,
    ?_, hhandled, fun hfits => ?_⟩
  · unfold State.frames
    rw [hext, queue_append]
    exact h.received.trans (List.prefix_append _ _)
  · unfold State.frames at hfits ⊢
    rw [hext] at hfits ⊢
    rw [List.map_append]
    exact hrecovers ext hext hfits.left fun hlost =>
      hlost.step h.streams.toRegistered h.known hstep

theorem Inv.host {e : Session.Host.Event} {host : HostState G}
    (h : Inv toVec payloads viewerId detachPrefix n past s)
    (hstep : Session.Host.Step env s.host e host) :
    Inv toVec payloads viewerId detachPrefix n (past ++ [e]) { s with host := host } :=
  h.hostStep hstep h.handled fun _ _ hfits hlost => (h.recovers hfits).queues hlost

theorem Inv.handle {frame : Sent} {stored : Option SessionStatus} {host : HostState G}
    (h : Inv toVec payloads viewerId detachPrefix n past s) (hhead : s.pending.head? = some frame)
    (hstep : Session.Host.Step env s.host (.frame n (clientFrame viewerId frame) stored) host) :
    Inv toVec payloads viewerId detachPrefix n
      (past ++ [.frame n (clientFrame viewerId frame) stored])
      { s with host := host, handled := s.handled + 1 } := by
  have hpending : s.pending = frame :: (sentFrames s.client.log).drop (s.handled + 1) := by
    obtain ⟨rest, hrest⟩ := List.head?_eq_some_iff.mp hhead
    have htail := congrArg List.tail hrest
    unfold State.pending at htail
    rw [List.tail_drop] at htail
    rw [hrest, htail]
    rfl
  have hlt : s.handled < (sentFrames s.client.log).length := by
    have hlength := congrArg List.length hpending
    unfold State.pending at hlength
    rw [List.length_drop, List.length_cons] at hlength
    omega
  refine h.hostStep hstep hlt fun ext hext hfits hlost => ?_
  have hrecovers := h.recovers hfits
  rw [hpending] at hrecovers
  refine hrecovers.handles hlost (h.consumed_prefix hfits) fun hreplay => ?_
  subst hreplay
  rcases replay_answered hstep with hlost' | ⟨cols, rows, payload, hframes⟩
  · exact .inl (hlost hlost')
  · have hanswer := List.append_cancel_left (hext.symm.trans hframes)
    exact .inr ⟨wire toVec (.replay payload), by simp [hanswer], rfl⟩

theorem Inv.clientStep {e : AttachClient.Event} {client : AttachClient.State}
    (h : Inv toVec payloads viewerId detachPrefix n past s)
    (hstep : AttachClient.Step payloads s.client e client)
    (hreceived : client.received <+: queue toVec (s.frames n)) :
    Inv toVec payloads viewerId detachPrefix n past { s with client := client } := by
  have heffect := client_effect h.client hstep
  have hsent {ext : List Entry} (hlog : client.log = s.client.log ++ ext) :
      sentFrames client.log = sentFrames s.client.log ++ sentFrames ext := by
    unfold sentFrames
    rw [hlog, List.filterMap_append]
  have hpending {ext : List Entry} (hlog : client.log = s.client.log ++ ext) :
      State.pending { s with client := client } = s.pending ++ sentFrames ext := by
    unfold State.pending
    rw [hsent hlog, List.drop_append_of_le_length h.handled]
  refine ⟨AttachClient.inv_step h.client hstep, h.known, h.streams, h.repainted, hreceived, ?_,
    fun hfits => ?_⟩
  · cases heffect with
    | goesOn ext consumed log owes =>
      rw [hsent log, List.length_append]
      exact Nat.le_add_right_of_le h.handled
    | consumes frame consumed log =>
      rw [hsent log, List.length_append]
      exact Nat.le_add_right_of_le h.handled
  · have hrecovers := h.recovers hfits
    cases heffect with
    | goesOn ext consumed log owes =>
      rw [hpending log]
      dsimp only
      rw [consumed, log]
      exact hrecovers.goesOn owes
    | consumes frame consumed log =>
      have hnone : sentFrames ((shown payloads viewerId (displacedBy payloads viewerId
          (s.client.consumed.map (·.1))) frame s.client.size).map Entry.wrote) = [] := by
        unfold sentFrames
        rw [List.filterMap_map]
        exact List.filterMap_eq_nil_iff.mpr fun write _ => rfl
      rw [hpending log, hnone, List.append_nil]
      dsimp only
      rw [consumed, log, List.map_append]
      exact hrecovers.consumes

theorem inv_init {host : HostState G} {size : Size} (hs : Streams (chunks past) host) :
    Inv toVec payloads viewerId detachPrefix host.clientSeq past
      (init host viewerId detachPrefix size) where
  client := AttachClient.inv_init
  known := Nat.lt_succ_self _
  streams := hs.acceptClient
  repainted := by
    rintro ⟨hmem, -⟩
    rcases mem_shape_acceptClient.mp hmem with hnew | hold
    · cases hnew.2
    · exact absurd (hs.fresh _ (mem_keys hold)) (Nat.lt_irrefl _)
  received := List.nil_prefix
  handled := Nat.zero_le _
  recovers _ _ := ⟨[], [], rfl, rfl, by simp, .inl rfl⟩

/-- The daemon's output so far is known from some run of it. -/
def Reached (toVec : Doc → List UInt8) (payloads : Payloads) (viewerId : String)
    (detachPrefix : UInt8) (n : ClientId) (stream : List (List UInt8)) (s : State G) : Prop :=
  ∃ past, chunks past = stream ∧ Inv toVec payloads viewerId detachPrefix n past s

theorem reached_step {before : List (List UInt8)} {earlier : List Event} {e : Event}
    {t : State G}
    (h : Reached toVec payloads viewerId detachPrefix n (before ++ produced earlier) s)
    (hstep : Step env toVec payloads viewerId n s e t) :
    Reached toVec payloads viewerId detachPrefix n (before ++ produced (earlier ++ [e])) t := by
  obtain ⟨past, hpast, hinv⟩ := h
  unfold produced at hpast ⊢
  rw [List.filterMap_append]
  cases hstep with
  | @host e host hother hhost =>
    refine ⟨past ++ [e], ?_, hinv.host hhost⟩
    rw [chunks_concat, hpast, List.append_assoc]
    exact congrArg _ (chunks_concat _ e).symm
  | handle hhead hhost =>
    refine ⟨_, ?_, hinv.handle hhead hhost⟩
    rw [chunks_concat_of_none past rfl, hpast]
    exact congrArg (before ++ chunks ·) (List.append_nil _).symm
  | client hclient hreceived =>
    refine ⟨past, ?_, hinv.clientStep hclient hreceived⟩
    rw [hpast]
    exact congrArg (before ++ chunks ·) (List.append_nil _).symm

/-! ## Settled states -/

theorem payload?_wire {frames : List HostFrame} (h : replays frames = []) :
    (frames.map (wire toVec)).filterMap payload? = outputs frames := by
  unfold outputs replays at *
  induction frames with
  | nil => rfl
  | cons frame frames ih =>
    cases frame with
    | replay payload => cases h
    | output data => exact congrArg (data :: ·) (ih h)
    | _ => exact ih h

/-- The last replay of a queue is behind any point that some replay is behind. -/
theorem exists_behind {front back pre post : List DecodedFrame} {last : DecodedFrame}
    (heq : front ++ back = pre ++ last :: post)
    (hpost : ∀ frame ∈ post, frame.frameType ≠ .replay)
    (hback : ∃ frame ∈ back, frame.frameType = .replay) :
    ∃ middle, back = middle ++ last :: post := by
  rcases List.append_eq_append_iff.mp heq with ⟨middle, rfl, hmiddle⟩ | ⟨c, rfl, hc⟩
  · exact ⟨middle, hmiddle⟩
  · cases c with
    | nil => exact ⟨[], hc.symm⟩
    | cons first c =>
      rw [List.cons_append, List.cons.injEq] at hc
      obtain ⟨frame, hframe, htype⟩ := hback
      refine absurd htype (hpost frame ?_)
      rw [hc.2]
      exact List.mem_append_right c hframe

theorem Inv.shows (h : Inv toVec payloads viewerId detachPrefix n past s)
    (settled : Settled toVec n s) (hfits : Fits toVec (s.frames n)) :
    Shows (chunks past) s.client := by
  have hdisplaced : s.client.displaced =
      displacedBy payloads viewerId (s.client.consumed.map (·.1)) :=
    (h.client.flag settled.consumed).trans h.client.displaced
  have hscreen := h.client.screen
  have hall : s.client.consumed.map (·.1) = (s.frames n).map (wire toVec) := by
    have hframes := h.client.frames
    unfold AttachClient.State.waiting at hframes
    rw [settled.consumed, settled.received, parse_queue hfits] at hframes
    exact (List.append_nil _).symm.trans hframes
  refine ⟨fun hcontrol => ?_, fun hnotice => ?_⟩
  · rw [hdisplaced] at hcontrol
    obtain ⟨front, back, hsplit, hfront, hown, hreplay⟩ := h.recovers hfits hcontrol
    obtain ⟨before, after, hstream, hlast⟩ := h.repainted settled.live
    obtain ⟨pre, post, hframes, rfl, hnone⟩ := lastReplay_eq_some hlast
    have hqueue : front ++ back = pre.map (wire toVec) ++
        wire toVec (.replay (replayOf before)) :: post.map (wire toVec) := by
      have hmap := congrArg (List.map (wire toVec)) hframes
      rw [List.map_append, List.map_cons] at hmap
      exact hsplit.symm.trans (hall.trans hmap)
    have hpost : ∀ frame ∈ post.map (wire toVec), frame.frameType ≠ .replay := by
      rintro frame hframe htype
      obtain ⟨host, hhost, rfl⟩ := List.mem_map.mp hframe
      cases host with
      | replay payload =>
        have hmem : payload ∈ replays post := List.mem_filterMap.mpr ⟨_, hhost, rfl⟩
        rw [hnone] at hmem
        cases hmem
      | _ => cases htype
    have hback : ∃ frame ∈ back, frame.frameType = .replay := by
      rcases hreplay with rfl | howed | hpending | ⟨frame, hframe, htype⟩ | hlost
      · rw [List.nil_append] at hqueue
        exact ⟨_, hqueue ▸ List.mem_append_right _ List.mem_cons_self, rfl⟩
      · rw [h.client.owes, settled.consumed] at howed
        cases howed
      · rw [settled.handled] at hpending
        cases hpending
      · rw [← hall, hsplit, List.drop_left] at hframe
        exact ⟨frame, hframe, htype⟩
      · exact absurd settled.live hlost.not_live
    obtain ⟨middle, rfl⟩ := exists_behind hqueue hpost hback
    rw [← List.append_assoc] at hsplit
    obtain ⟨shownBefore, shownAfter, hconsumed, hbefore, hafter⟩ :=
      List.map_eq_append_iff.mp hsplit
    rw [List.forall_mem_append] at hown
    have hpayloads : (wire toVec (.replay (replayOf before)) :: post.map (wire toVec)).filterMap
        payload? = replayOf before :: outputs post :=
      congrArg (replayOf before :: ·) (payload?_wire hnone)
    refine ⟨screen payloads viewerId [] shownBefore, before, outputs post, hstream, ?_⟩
    rw [hscreen, hconsumed, screen_append, List.nil_append, hbefore, screen_own (hafter ▸ hown.2)
      (displacedBy_append_of_own hown.1 hfront), hafter, hpayloads, List.map_cons]
  · rw [hscreen]
    exact screen_displaced (hdisplaced.symm.trans hnotice)

variable {launch : Session.Host.Launch} {cols rows : UInt16} {idleSeconds : Int}
  {snippetEnabled : Bool} {host : HostState G} {size : Size} {es : List Event}

/-- Whenever the terminal attached and whoever took control meanwhile. -/
theorem attached_terminal_shows
    (session : Run (Session.Host.Step env)
      (initialState env launch cols rows idleSeconds snippetEnabled) past host)
    (run : Run (Step env toVec payloads viewerId host.clientSeq)
      (init host viewerId detachPrefix size) es s)
    (settled : Settled toVec host.clientSeq s) (hfits : Fits toVec (s.frames host.clientSeq)) :
    Shows (chunks past ++ produced es) s.client := by
  have hstreams : Streams (chunks past) host :=
    session.history (I := fun past s => Streams (chunks past) s) (fun h hs => h.step hs) []
      (initial_streams env launch cols rows idleSeconds snippetEnabled)
  have hreached := run.history
    (I := fun earlier s => Reached toVec payloads viewerId detachPrefix host.clientSeq
      (chunks past ++ produced earlier) s)
    (fun h hs => reached_step h hs) [] ⟨past, (List.append_nil _).symm, inv_init hstreams⟩
  obtain ⟨log, hlog, hinv⟩ := hreached
  exact hlog ▸ hinv.shows settled hfits

end

/-- The serializer on what the daemon sends below. -/
def sampleToVec : Doc → List UInt8
  | .object [(_, .string id), _, _] => if id = encode "web" then webControls else terminalControls
  | _ => ascii "\x7b\"cols\":80,\"rows\":24\x7d"

abbrev SampleStep := Step (G := Unit) plainEnv sampleToVec samplePayloads "terminal-7" 0

def sizeFrame : WireFrame := .known .ptySize (ascii "\x7b\"cols\":80,\"rows\":24\x7d") (by decide)

theorem terminalControls_fit : terminalControls.length < 2 ^ 32 := by decide

theorem webControls_fit : webControls.length < 2 ^ 32 := by decide

def terminalFrame : WireFrame := .known .control terminalControls terminalControls_fit

def joinFrames : List WireFrame := [sizeFrame, .known .replay [0x61] (by decide), terminalFrame]

def webFrames : List WireFrame :=
  [terminalFrame, terminalFrame, .known .control webControls webControls_fit]

def backFrames : List WireFrame := [.known .output [0x62] (by decide), terminalFrame]

def replayFrames : List WireFrame :=
  [sizeFrame, .known .replay [0x61, 0x62] (by decide), .known .output [0x63] (by decide)]

def consuming (frames : List WireFrame) : List AttachClient.Event :=
  List.replicate frames.length .consume ++ [.settle]

def reading (frames : List WireFrame) : List Event :=
  .client (.receive (encodeAll frames)) :: (consuming frames).map .client

def typing : List AttachClient.Event := [.type [takeControlKey], .send, .decide]

/-- A dashboard takes control, and the terminal takes it back. -/
def tookBack : List Event :=
  .handle none :: (reading joinFrames ++ (.host .connect ::
    .host (.frame 1 (.resize ⟨80, 24, some .dashboard, some "web"⟩) none) ::
    .host (.frame 1 .takeControl none) :: (reading webFrames ++ (typing.map .client ++
    (.host (.output [0x62]) :: .handle none :: (reading backFrames ++
    (.handle none :: .host (.output [0x63]) :: reading replayFrames)))))))

def sampleHost : HostState Unit :=
  (initialState plainEnv .headless 80 24 10 false).handleOutput plainEnv [0x61] true

theorem sample_session : Run (Session.Host.Step plainEnv)
    (initialState plainEnv .headless 80 24 10 false) [.output [0x61]] sampleHost :=
  .cons (step_of_next rfl) (.nil _)

theorem sample_step {e : Session.Host.Event} {s : State Unit} {host : HostState Unit}
    (hother : fromClient 0 e = false) (h : Session.Host.next plainEnv s.host e = some host) :
    SampleStep s (.host e) { s with host := host } :=
  .host hother (step_of_next h)

theorem sample_handle {frame : Sent} {s : State Unit} {host : HostState Unit}
    (hhead : s.pending.head? = some frame) (h : Session.Host.next plainEnv s.host
      (.frame 0 (clientFrame "terminal-7" frame) none) = some host) :
    SampleStep s (.handle none) { s with host := host, handled := s.handled + 1 } :=
  .handle hhead (step_of_next h)

theorem sample_client {es : List AttachClient.Event} {s : State Unit}
    {client : AttachClient.State}
    (h : exec (AttachClient.next samplePayloads) s.client es = some client)
    (hother : ∀ e ∈ es, ∀ chunk, e ≠ .receive chunk)
    (hreceived : s.client.received <+: queue sampleToVec (s.frames 0)) :
    Run SampleStep s (es.map .client) { s with client := client } := by
  induction es generalizing s with
  | nil =>
    cases h
    exact .nil _
  | cons e es ih =>
    obtain ⟨middle, hstep, hrest⟩ := Option.bind_eq_some_iff.mp h
    rw [List.forall_mem_cons] at hother
    have hreceived' : middle.received <+: queue sampleToVec (s.frames 0) := by
      rwa [received_kept hother.1 hstep]
    exact .cons (.client hstep hreceived')
      (ih (s := { s with client := middle }) hrest hother.2 hreceived')

/-- The client has read whole frames. -/
def hasRead (frames : List WireFrame) (client : AttachClient.State) : AttachClient.State :=
  { client with
    decoder := .new
    batch := some ⟨frames.filterMap WireFrame.decoded, client.exitCode, false⟩
    received := client.received ++ encodeAll frames }

theorem sample_reading {frames : List WireFrame} {s : State Unit} {client : AttachClient.State}
    (hdecoder : s.client.decoder = .new) (hdone : s.client.done = false)
    (hbatch : s.client.batch = none)
    (hreceived : s.client.received ++ encodeAll frames <+: queue sampleToVec (s.frames 0))
    (h : exec (AttachClient.next samplePayloads) (hasRead frames s.client) (consuming frames) =
      some client) :
    Run SampleStep s (reading frames) { s with client := client } := by
  have hread : AttachClient.Step samplePayloads s.client (.receive (encodeAll frames))
      (hasRead frames s.client) :=
    receive_step (hdecoder ▸ push_encodeAll frames) hdone hbatch
  have hother : ∀ e ∈ consuming frames, ∀ chunk, e ≠ .receive chunk := by
    intro e he chunk
    rcases List.mem_append.mp he with hconsume | hsettle
    · rw [List.eq_of_mem_replicate hconsume]
      exact AttachClient.Event.noConfusion
    · rw [List.mem_singleton.mp hsettle]
      exact AttachClient.Event.noConfusion
  exact .cons (.client hread hreceived)
    (@sample_client _ { s with client := hasRead frames s.client } _ h hother hreceived)

theorem tookBack_run : ∃ s,
    Run SampleStep (init sampleHost "terminal-7" 0x1c ⟨80, 24⟩) tookBack s ∧
    Settled sampleToVec 0 s ∧ Fits sampleToVec (s.frames 0) ∧
    s.client.log.filterMap Entry.write? =
      [.output [0x61], .notice ⟨80, 24⟩, .clear, .output [0x61, 0x62], .output [0x63]] := by
  refine ⟨_,
    -- the client joins
    .cons (sample_handle rfl rfl) <| .append (sample_reading rfl rfl rfl ?_ rfl) <|
    -- a dashboard takes control
    .cons (sample_step rfl rfl) <| .cons (sample_step rfl rfl) <| .cons (sample_step rfl rfl) <|
    .append (sample_reading rfl rfl rfl ?_ rfl) <|
    -- and the terminal takes it back, and is owed a replay
    .append (sample_client rfl (by simp [typing]) ?_) <| .cons (sample_step rfl rfl) <|
    .cons (sample_handle rfl rfl) <| .append (sample_reading rfl rfl rfl ?_ rfl) <|
    -- which it gets
    .cons (sample_handle rfl rfl) <| .cons (sample_step rfl rfl) <|
    sample_reading rfl rfl rfl ?_ rfl, ?_⟩
  rotate_right
  · refine ⟨⟨rfl, by decide +kernel, rfl, by decide +kernel, rfl⟩, ?_, by decide +kernel⟩
    unfold Fits
    decide +kernel
  all_goals decide +kernel

theorem tookBack_shows : ∃ s : State Unit, s.client.log.filterMap Entry.write? =
      [.output [0x61], .notice ⟨80, 24⟩, .clear, .output [0x61, 0x62], .output [0x63]] ∧
    Shows [[0x61], [0x62], [0x63]] s.client := by
  obtain ⟨s, run, settled, hfits, hlog⟩ := tookBack_run
  have hshows := attached_terminal_shows sample_session run settled hfits
  have hstream : chunks [.output [0x61]] ++ produced tookBack = [[0x61], [0x62], [0x63]] := rfl
  exact ⟨s, hlog, hstream ▸ hshows⟩

end Climon.Cli.LocalAttach
