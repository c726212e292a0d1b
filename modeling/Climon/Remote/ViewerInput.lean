import Mathlib.Logic.Function.Basic
import Climon.Lib.Interleaving
import Climon.Lib.Transition
import Climon.Proto.FrameCodec
import Climon.Remote.MuxStream
import Climon.Remote.Sanitize

namespace Climon.Remote.ViewerInput

open Climon.Lib.Framing Climon.Lib.Interleaving Climon.Lib.Transition Climon.Lib.Utf8
  Climon.Proto.FrameCodec Climon.Remote.Mux
open Climon.Remote.MuxStream (Item)
open Climon.Remote.Sanitize (isValidRemoteId)

/-!
# What viewers write

Ingest reads each viewer's socket in chunks and sends every chunk as it is in a data frame. The
uplink writes the chunks of the attached session to its one connection to the daemon.
-/

/-- `unread` has what is under way from a viewer to ingest, and `written` what the daemon was
sent. `wrote` and `forwarded` log the frames of the viewers and the chunks of ingest. -/
structure State where
  unread : Nat → List UInt8
  channel : List UInt8
  decoder : MuxDecoder
  written : List UInt8
  wrote : Nat → List WireFrame
  forwarded : List (Nat × List UInt8)

def init : State := ⟨fun _ => [], [], MuxDecoder.new, [], fun _ => [], []⟩

inductive Event where
  | write (viewer : Nat) (frame : WireFrame)
  | read (viewer n : Nat)
  | receive (n : Nat)

def bufferSize : Nat := 64 * 1024

/-- The bytes for the attached session. -/
def dataFor {C : Type} (sessionId : String) : MuxMessage C → List UInt8
  | .data id data => if id = sessionId then data else []
  | .control _ => []

namespace State

def write (s : State) (viewer : Nat) (frame : WireFrame) : State :=
  { s with
    unread := Function.update s.unread viewer (s.unread viewer ++ frame.encode)
    wrote := Function.update s.wrote viewer (s.wrote viewer ++ [frame]) }

/-- A chunk that cannot be encoded is dropped. -/
def read (sessionId : String) (s : State) (viewer n : Nat) : State :=
  let chunk := (s.unread viewer).take n
  let t := { s with unread := Function.update s.unread viewer ((s.unread viewer).drop n) }
  match encodeData sessionId chunk with
  | .ok frame =>
    { t with channel := t.channel ++ frame, forwarded := t.forwarded ++ [(viewer, chunk)] }
  | .error _ => t

/-- A frame that cannot be decoded would end the connection. -/
def receive {C : Type} (parse : List UInt8 → Option C) (sessionId : String) (s : State) (n : Nat) :
    Option State :=
  match s.decoder.push parse (s.channel.take n) with
  | some (.ok messages, decoder) =>
    some { s with
      channel := s.channel.drop n
      decoder := decoder
      written := s.written ++ (messages.map (dataFor sessionId)).flatten }
  | _ => none

end State

def step {C : Type} (parse : List UInt8 → Option C) (sessionId : String) (s : State) :
    Event → Option State
  | .write viewer frame => some (s.write viewer frame)
  | .read viewer n =>
    if 0 < n ∧ n ≤ bufferSize ∧ n ≤ (s.unread viewer).length then some (s.read sessionId viewer n)
    else none
  | .receive n =>
    if 0 < n ∧ n ≤ bufferSize ∧ n ≤ s.channel.length then s.receive parse sessionId n else none

abbrev Step {C : Type} (parse : List UInt8 → Option C) (sessionId : String) (s : State) (e : Event)
    (t : State) : Prop :=
  step parse sessionId s e = some t

/-! ## Whole frames -/

/-- Everything that was written has arrived at the daemon. -/
def Drained (s : State) : Prop := (∀ viewer, s.unread viewer = []) ∧ s.channel = []

/-- However the daemon's reads cut the bytes, it decodes frames of the viewers, each viewer's in
order and none twice, and in the end all of them. -/
def Framed (s : State) : Prop :=
  ∀ chunks : List (List UInt8), chunks.flatten = s.written →
    ∃ order : List (Nat × DecodedFrame),
      (FrameDecoder.new.pushAll chunks).1 = order.map (·.2) ∧
      ∀ viewer, project viewer order <+: (s.wrote viewer).filterMap WireFrame.decoded ∧
        (Drained s → project viewer order = (s.wrote viewer).filterMap WireFrame.decoded)

/-- What ingest has read from a viewer ends with a frame. -/
def AtBoundary (s : State) (viewer : Nat) : Prop :=
  ∃ frames, frames <+: s.wrote viewer ∧ stream viewer s.forwarded = encodeAll frames

/-- Ingest reads from a viewer only while the others are between two frames. -/
def Uninterrupted (s : State) : Event → Prop
  | .read viewer _ => ∀ other ≠ viewer, AtBoundary s other
  | _ => True

/-! ## Frames in the chunks -/

variable {sessionId : String} {s t : State}

theorem parse_encodeAll_nil (frames : List WireFrame) :
    Proto.FrameCodec.grammar.parse (encodeAll frames) =
      ⟨frames.filterMap WireFrame.decoded, .waiting []⟩ := by
  have hempty : Proto.FrameCodec.grammar.parse [] = ⟨[], .waiting []⟩ :=
    Proto.FrameCodec.grammar.parse_short rfl
  have hparse := parse_encodeAll frames []
  rw [List.append_nil, hempty, Parse.after, List.append_nil] at hparse
  exact hparse

theorem atBoundary_whole {viewer : Nat} (h : AtBoundary s viewer) :
    (Proto.FrameCodec.grammar.parse (stream viewer s.forwarded)).ending = .waiting [] := by
  obtain ⟨frames, -, heq⟩ := h
  rw [heq, parse_encodeAll_nil]

/-! ## The channel -/

/-- The data frame a chunk travels in. -/
def chunkItem (sessionId : String) (entry : Nat × List UInt8) : Item := .data sessionId entry.2

def payload : RawFrame → List UInt8
  | .data _ data => data
  | .control _ => []

/-- The uplink has read `received`, and written what that held for the daemon. -/
structure Carries (sessionId : String) (s : State) (received : List UInt8) : Prop where
  split : (s.forwarded.map fun entry => (chunkItem sessionId entry).frame).flatten =
    received ++ s.channel
  buffer : (Mux.grammar.parse received).ending = .waiting s.decoder.buffer
  written : s.written = ((Mux.grammar.parse received).messages.map payload).flatten

/-- No byte is lost on the way. -/
structure Inv (sessionId : String) (s : State) : Prop where
  conserved : ∀ viewer, stream viewer s.forwarded ++ s.unread viewer = encodeAll (s.wrote viewer)
  small : ∀ entry ∈ s.forwarded, entry.2.length ≤ bufferSize
  carries : ∃ received, Carries sessionId s received

theorem inv_init : Inv sessionId init where
  conserved _ := rfl
  small := nofun
  carries := ⟨[], rfl, by rw [Mux.grammar.parse_short rfl]; rfl,
    by rw [Mux.grammar.parse_short rfl]; rfl⟩

theorem chunkItem_valid (hid : isValidRemoteId sessionId = true) {entry : Nat × List UInt8}
    (hsmall : entry.2.length ≤ bufferSize) : (chunkItem sessionId entry).Valid := by
  have hlength : (asBytes sessionId).length ≤ 64 := by
    simp only [isValidRemoteId, Bool.and_eq_true, decide_eq_true_eq] at hid
    exact hid.1.2
  refine ⟨?_, ?_, nofun⟩
  · simp only [chunkItem, Item.payload, dataPayload, List.length_cons, List.length_append,
      maxMuxPayload]
    simp only [bufferSize] at hsmall
    omega
  · intro id bytes heq
    cases heq
    omega

theorem messages_forwarded (hid : isValidRemoteId sessionId = true) (h : Inv sessionId s) :
    Mux.grammar.parse (s.forwarded.map fun entry => (chunkItem sessionId entry).frame).flatten =
      ⟨s.forwarded.map fun entry => RawFrame.data sessionId entry.2, .waiting []⟩ := by
  have hvalid : ∀ item ∈ s.forwarded.map (chunkItem sessionId), item.Valid := by
    intro item hitem
    obtain ⟨entry, hentry, rfl⟩ := List.mem_map.mp hitem
    exact chunkItem_valid hid (h.small entry hentry)
  have hparse := MuxStream.parse_frames hvalid
  rw [List.map_map] at hparse
  rw [show (fun entry => (chunkItem sessionId entry).frame) = Item.frame ∘ chunkItem sessionId
    from rfl, hparse, List.filterMap_map]
  congr 1
  exact congrFun (List.filterMap_eq_map (f := fun entry : Nat × List UInt8 =>
    RawFrame.data sessionId entry.2)) _

/-- The daemon has been sent the first chunks, and all of them once the channel is empty. -/
theorem written_chunks (hid : isValidRemoteId sessionId = true) (h : Inv sessionId s) :
    ∃ chunks, chunks <+: s.forwarded ∧ s.written = merged chunks ∧
      (s.channel = [] → chunks = s.forwarded) := by
  obtain ⟨received, hsplit, hbuffer, hwritten⟩ := h.carries
  have hall := messages_forwarded hid h
  rw [hsplit, Mux.grammar.parse_append_waiting _ hbuffer, Parse.after, Parse.mk.injEq] at hall
  obtain ⟨first, rest, hforwarded, hfirst, hrest⟩ := List.append_eq_map_iff.mp hall.1
  refine ⟨first, ⟨rest, hforwarded.symm⟩, ?_, ?_⟩
  · rw [hwritten, ← hfirst, merged, List.map_map]
    rfl
  · intro hempty
    rw [hempty, List.append_nil, Mux.grammar.parse_short (Mux.grammar.scan_rest hbuffer),
      List.map_eq_nil_iff] at hrest
    rw [hforwarded, hrest, List.append_nil]

/-! ## Steps -/

theorem Inv.write (h : Inv sessionId s) (viewer : Nat) (frame : WireFrame) :
    Inv sessionId (s.write viewer frame) where
  conserved other := by
    have hother := h.conserved other
    by_cases heq : other = viewer
    · subst heq
      simp only [State.write, Function.update_self]
      rw [← List.append_assoc, hother]
      simp [encodeAll]
    · simpa [State.write, Function.update_of_ne heq] using hother
  small := h.small
  carries := by
    obtain ⟨received, hsplit, hbuffer, hwritten⟩ := h.carries
    exact ⟨received, hsplit, hbuffer, hwritten⟩

/-- A chunk of an accepted id is always sent. -/
theorem read_eq (hid : isValidRemoteId sessionId = true) {viewer n : Nat} (hn : n ≤ bufferSize) :
    s.read sessionId viewer n =
      { s with
        unread := Function.update s.unread viewer ((s.unread viewer).drop n)
        channel := s.channel ++ (chunkItem sessionId (viewer, (s.unread viewer).take n)).frame
        forwarded := s.forwarded ++ [(viewer, (s.unread viewer).take n)] } := by
  have hsmall : ((s.unread viewer).take n).length ≤ bufferSize :=
    (List.length_take_le _ _).trans hn
  have hvalid : (chunkItem sessionId (viewer, (s.unread viewer).take n)).Valid :=
    chunkItem_valid hid hsmall
  have hencode : encodeData sessionId ((s.unread viewer).take n) =
      .ok (chunkItem sessionId (viewer, (s.unread viewer).take n)).frame := hvalid.encode_eq
  simp only [State.read, hencode]

theorem Inv.read (hid : isValidRemoteId sessionId = true) (h : Inv sessionId s) {viewer n : Nat}
    (hn : n ≤ bufferSize) : Inv sessionId (s.read sessionId viewer n) := by
  rw [read_eq hid hn]
  refine ⟨fun other => ?_, fun entry hentry => ?_, ?_⟩
  · have hother := h.conserved other
    by_cases heq : other = viewer
    · subst heq
      simp only [Function.update_self]
      rw [stream_append, stream_singleton_self, List.append_assoc, List.take_append_drop, hother]
    · simp only [Function.update_of_ne heq]
      rw [stream_append, stream_singleton_ne heq, List.append_nil, hother]
  · rcases List.mem_append.mp hentry with hold | hnew
    · exact h.small entry hold
    · cases List.mem_singleton.mp hnew
      exact (List.length_take_le _ _).trans hn
  · obtain ⟨received, hsplit, hbuffer, hwritten⟩ := h.carries
    exact ⟨received, by simp [hsplit], hbuffer, hwritten⟩

theorem mapM_toMessage {C : Type} (parse : List UInt8 → Option C) {frames : List RawFrame}
    (h : ∀ frame ∈ frames, ∃ data, frame = .data sessionId data) :
    ∃ messages, frames.mapM (toMessage parse) = .ok messages ∧
      (messages.map (dataFor sessionId)).flatten = (frames.map payload).flatten := by
  induction frames with
  | nil => exact ⟨[], rfl, rfl⟩
  | cons frame frames ih =>
    rw [List.forall_mem_cons] at h
    obtain ⟨⟨data, rfl⟩, hrest⟩ := h
    obtain ⟨messages, hmessages, hsame⟩ := ih hrest
    refine ⟨.data sessionId data :: messages, ?_, ?_⟩
    · rw [List.mapM_cons, hmessages]
      rfl
    · simp [dataFor, payload, hsame]

/-- Every piece of the channel is decoded. -/
theorem Inv.receive {C : Type} {parse : List UInt8 → Option C}
    (hid : isValidRemoteId sessionId = true) (h : Inv sessionId s) (n : Nat) :
    ∃ t, s.receive parse sessionId n = some t ∧ Inv sessionId t := by
  obtain ⟨received, hsplit, hbuffer, hwritten⟩ := h.carries
  have hall := messages_forwarded hid h
  rw [hsplit, ← List.take_append_drop n s.channel, ← List.append_assoc] at hall
  -- No prefix of what ingest sends is rejected.
  have hwaits : ∃ rest, (Mux.grammar.parse (received ++ s.channel.take n)).ending =
      .waiting rest := by
    cases hending : (Mux.grammar.parse (received ++ s.channel.take n)).ending with
    | waiting rest => exact ⟨rest, rfl⟩
    | failed e =>
      rw [Mux.grammar.parse_append_failed _ hending, Parse.mk.injEq] at hall
      rw [hending] at hall
      cases hall.2
  obtain ⟨rest, hrest⟩ := hwaits
  have hgrown := Mux.grammar.parse_append_waiting (s.channel.take n) hbuffer
  have hpiece : (Mux.grammar.parse (s.decoder.buffer ++ s.channel.take n)).ending =
      .waiting rest := by
    rw [hgrown] at hrest
    exact hrest
  have hdata : ∀ frame ∈ (Mux.grammar.parse (s.decoder.buffer ++ s.channel.take n)).messages,
      ∃ data, frame = .data sessionId data := by
    intro frame hframe
    rw [Mux.grammar.parse_append_waiting _ hrest, hgrown, Parse.mk.injEq] at hall
    have hmem : frame ∈ s.forwarded.map fun entry => RawFrame.data sessionId entry.2 := by
      rw [← hall.1]
      exact List.mem_append_left _ (List.mem_append_right _ hframe)
    obtain ⟨entry, -, rfl⟩ := List.mem_map.mp hmem
    exact ⟨entry.2, rfl⟩
  obtain ⟨messages, hmessages, hsame⟩ := mapM_toMessage parse hdata
  have hframes : s.decoder.pushFrames (s.channel.take n) =
      some (.ok (Mux.grammar.parse (s.decoder.buffer ++ s.channel.take n)).messages, ⟨rest⟩) := by
    have hread := Mux.readFrames_implements.waiting hpiece
    obtain ⟨⟨frames, decoder⟩, hpush, heq⟩ := Option.map_eq_some_iff.mp hread
    cases heq
    exact hpush
  have hpush : s.decoder.push parse (s.channel.take n) = some (.ok messages, ⟨rest⟩) := by
    rw [MuxDecoder.push, hframes, Option.map_some]
    exact congrArg (fun result => some (result, MuxDecoder.mk rest)) hmessages
  refine ⟨{ s with
      channel := s.channel.drop n
      decoder := ⟨rest⟩
      written := s.written ++ (messages.map (dataFor sessionId)).flatten },
    by simp only [State.receive, hpush], ⟨h.conserved, h.small, ?_⟩⟩
  refine ⟨received ++ s.channel.take n, ?_, hrest, ?_⟩
  · rw [hsplit, List.append_assoc, List.take_append_drop]
  · rw [hgrown, Parse.messages_after, List.map_append, List.flatten_append, ← hwritten, hsame]

theorem step_read {C : Type} {parse : List UInt8 → Option C} {viewer n : Nat}
    (hs : Step parse sessionId s (.read viewer n) t) :
    n ≤ bufferSize ∧ t = s.read sessionId viewer n := by
  simp only [Step, step, Option.ite_none_right_eq_some, Option.some.injEq] at hs
  exact ⟨hs.1.2.1, hs.2.symm⟩

theorem step_receive {C : Type} {parse : List UInt8 → Option C} {n : Nat}
    (hs : Step parse sessionId s (.receive n) t) : s.receive parse sessionId n = some t := by
  simp only [Step, step, Option.ite_none_right_eq_some] at hs
  exact hs.2

theorem inv_step {C : Type} {parse : List UInt8 → Option C}
    (hid : isValidRemoteId sessionId = true) (h : Inv sessionId s) {e : Event}
    (hs : Step parse sessionId s e t) : Inv sessionId t := by
  cases e with
  | write viewer frame =>
    cases hs
    exact h.write viewer frame
  | read viewer n =>
    obtain ⟨hn, rfl⟩ := step_read hs
    exact h.read hid hn
  | receive n =>
    obtain ⟨u, hreceive, hinv⟩ : ∃ u, s.receive parse sessionId n = some u ∧ Inv sessionId u :=
      h.receive hid n
    cases hreceive.symm.trans (step_receive hs)
    exact hinv

theorem receive_frame {C : Type} {parse : List UInt8 → Option C} {n : Nat}
    (h : s.receive parse sessionId n = some t) :
    t.unread = s.unread ∧ t.wrote = s.wrote ∧ t.forwarded = s.forwarded ∧
      t.channel = s.channel.drop n := by
  unfold State.receive at h
  split at h
  · cases h
    exact ⟨rfl, rfl, rfl, rfl⟩
  · cases h

/-- An uninterrupted read keeps the chunks aligned, and nothing else forwards one. -/
theorem aligned_step {C : Type} {parse : List UInt8 → Option C}
    (hid : isValidRemoteId sessionId = true) {e : Event}
    (h : Aligned Proto.FrameCodec.grammar s.forwarded)
    (hs : Guarded Uninterrupted (Step parse sessionId) s e t) :
    Aligned Proto.FrameCodec.grammar t.forwarded := by
  obtain ⟨hok, hs⟩ := hs
  cases e with
  | write viewer frame =>
    cases hs
    exact h
  | read viewer n =>
    obtain ⟨hn, rfl⟩ := step_read hs
    rw [read_eq hid hn]
    exact h.snoc fun other hother => atBoundary_whole (hok other hother)
  | receive n =>
    rw [(receive_frame (step_receive hs)).2.2.1]
    exact h

/-! ## What the daemon decodes -/

theorem stream_prefix {chunks : List (Nat × List UInt8)} (h : chunks <+: s.forwarded)
    (hinv : Inv sessionId s) (viewer : Nat) :
    ∃ rest, stream viewer chunks ++ rest = encodeAll (s.wrote viewer) := by
  obtain ⟨later, hlater⟩ := h
  refine ⟨stream viewer later ++ s.unread viewer, ?_⟩
  rw [← hinv.conserved viewer, ← hlater, stream_append, List.append_assoc]

theorem Inv.framed (hid : isValidRemoteId sessionId = true) (h : Inv sessionId s)
    (haligned : Aligned Proto.FrameCodec.grammar s.forwarded) : Framed s := by
  intro pieces hpieces
  obtain ⟨chunks, hfront, hmerged, hwhole⟩ := written_chunks hid h
  obtain ⟨order, rest, hparse, hproject, -⟩ := (haligned.front hfront).parse parse_ending
  refine ⟨order, ?_, fun viewer => ⟨?_, fun hdrained => ?_⟩⟩
  · have hwaiting : (Proto.FrameCodec.grammar.parse
        (FrameDecoder.new.buffer ++ pieces.flatten)).ending = .waiting rest := by
      rw [FrameDecoder.new, List.nil_append, hpieces, hmerged, hparse]
    rw [pushAll_eq FrameDecoder.new pieces rest rfl hwaiting, FrameDecoder.new, List.nil_append,
      hpieces, hmerged, hparse]
  · obtain ⟨later, hlater⟩ := stream_prefix hfront h viewer
    obtain ⟨left, hleft⟩ := parse_ending (stream viewer chunks)
    have hall := parse_encodeAll_nil (s.wrote viewer)
    rw [← hlater, Proto.FrameCodec.grammar.parse_append_waiting _ hleft, Parse.after,
      Parse.mk.injEq] at hall
    rw [hproject, ← hall.1]
    exact List.prefix_append _ _
  · have hstream : stream viewer chunks = encodeAll (s.wrote viewer) := by
      rw [hwhole hdrained.2, ← h.conserved viewer, hdrained.1 viewer, List.append_nil]
    rw [hproject, hstream, parse_encodeAll_nil]

/-- The daemon decodes whole frames of the viewers as long as no chunk of one comes inside a frame
of another. -/
theorem viewers_framed {C : Type} {parse : List UInt8 → Option C}
    (hid : isValidRemoteId sessionId = true) {es : List Event} {t : State}
    (run : Run (Guarded Uninterrupted (Step parse sessionId)) init es t) : Framed t := by
  obtain ⟨hinv, haligned⟩ := run.invariant
    (I := fun s => Inv sessionId s ∧ Aligned Proto.FrameCodec.grammar s.forwarded)
    (fun h hs => ⟨inv_step hid h.1 hs.2, aligned_step hid h.2 hs⟩) ⟨inv_init, .nil⟩
  exact hinv.framed hid haligned

/-! ## Two viewers that type at once -/

def typed (byte : UInt8) : WireFrame := .known .input [byte] (by simp)

/-- The first viewer's frame is read in two pieces, and the other's in between. -/
def interrupted : List Event :=
  [.write 0 (typed 97), .write 1 (typed 98), .read 0 5, .read 1 6, .read 0 1]

theorem interrupted_written {C : Type} (parse : List UInt8 → Option C) :
    ∃ t, Run (Step parse "s") init (interrupted ++ [.receive 33]) t ∧ Drained t ∧
      t.wrote 0 = [typed 97] ∧ t.written = [0, 0, 0, 1, 2, 0, 0, 0, 1, 2, 98, 97] := by
  have hid : isValidRemoteId "s" = true := by decide
  obtain ⟨s, typing, hforwarded, hchannel, hunread, hwrote⟩ :
      ∃ s, Run (Step parse "s") init interrupted s ∧
        s.forwarded = [(0, [0, 0, 0, 1, 2]), (1, [0, 0, 0, 1, 2, 98]), (0, [97])] ∧
        s.channel.length = 33 ∧ (∀ viewer, s.unread viewer = []) ∧ s.wrote 0 = [typed 97] := by
    refine ⟨_, Run.of_exec (fun h => h) rfl, rfl, rfl, fun viewer => ?_, rfl⟩
    match viewer with
    | 0 | 1 | _ + 2 => rfl
  have hinv := typing.invariant (fun h hs => inv_step hid h hs) inv_init
  obtain ⟨t, hreceive, ht⟩ : ∃ t, s.receive parse "s" 33 = some t ∧ Inv "s" t :=
    hinv.receive hid 33
  obtain ⟨hunread', hwrote', hforwarded', hchannel'⟩ := receive_frame hreceive
  have hempty : t.channel = [] := by
    rw [hchannel', ← hchannel, List.drop_length]
  have hstep : Step parse "s" s (.receive 33) t := by
    simp only [Step, step, hchannel]
    exact (if_pos (by decide)).trans hreceive
  obtain ⟨chunks, -, hwritten, hall⟩ := written_chunks hid ht
  refine ⟨t, typing.append (.cons hstep (.nil _)), ⟨by rwa [hunread'], hempty⟩,
    by rw [hwrote', hwrote], ?_⟩
  rw [hwritten, hall hempty, hforwarded', hforwarded]
  rfl

/-- The daemon takes the length byte of the second frame for the input. -/
theorem interrupted_misframed : ∃ t, Run (Step (fun _ => some ()) "s") init
    (interrupted ++ [.receive 33]) t ∧ Drained t ∧ ¬ Framed t := by
  obtain ⟨t, run, hdrained, hwrote, hwritten⟩ := interrupted_written fun _ => some ()
  refine ⟨t, run, hdrained, fun hframed => ?_⟩
  obtain ⟨order, hdecoded, hviewers⟩ := hframed [t.written] (by simp)
  have hparse : Proto.FrameCodec.grammar.parse t.written =
      ⟨[⟨.input, [0]⟩], .waiting [0, 0, 1, 2, 98, 97]⟩ := by
    rw [hwritten, Proto.FrameCodec.grammar.parse_unit (scan_of_some rfl),
      Proto.FrameCodec.grammar.parse_short (scan_of_none rfl)]
    rfl
  rw [pushAll_eq FrameDecoder.new [t.written] [0, 0, 1, 2, 98, 97] rfl
    (by simp [FrameDecoder.new, hparse])] at hdecoded
  have horder : order.map (·.2) = [⟨.input, [0]⟩] := by
    rw [← hdecoded]
    simp [FrameDecoder.new, hparse]
  have hfirst : project 0 order = [⟨.input, [97]⟩] := by
    rw [(hviewers 0).2 hdrained, hwrote]
    rfl
  have hmem : (⟨.input, [97]⟩ : DecodedFrame) ∈ order.map (·.2) := by
    have hself : (⟨.input, [97]⟩ : DecodedFrame) ∈ project 0 order := by simp [hfirst]
    obtain ⟨entry, hentry, heq⟩ := List.mem_map.mp hself
    exact List.mem_map.mpr ⟨entry, (List.mem_filter.mp hentry).1, heq⟩
  rw [horder] at hmem
  exact absurd hmem (by decide)

/-- The same frames, the first one cut, with nothing between its pieces. -/
theorem cut_frame_framed : ∃ t, Run (Guarded Uninterrupted (Step (fun _ => some ()) "s")) init
    [.write 0 (typed 97), .write 1 (typed 98), .read 0 5, .read 0 1, .read 1 6] t ∧ Framed t := by
  have hnone (s : State) (viewer : Nat) (h : stream viewer s.forwarded = []) :
      AtBoundary s viewer := ⟨[], List.nil_prefix, h⟩
  obtain ⟨t, run⟩ : ∃ t, Run (Guarded Uninterrupted (Step (fun _ => some ()) "s")) init
      [.write 0 (typed 97), .write 1 (typed 98), .read 0 5, .read 0 1, .read 1 6] t := by
    refine ⟨_, .cons ⟨trivial, rfl⟩ (.cons ⟨trivial, rfl⟩ (.cons ⟨fun other hother => ?_, rfl⟩
      (.cons ⟨fun other hother => ?_, rfl⟩ (.cons ⟨fun other hother => ?_, rfl⟩ (.nil _)))))⟩
    · exact hnone _ _ rfl
    · match other with
      | 0 => exact absurd rfl hother
      | _ + 1 => exact hnone _ _ rfl
    · match other with
      | 0 => exact ⟨[typed 97], List.prefix_rfl, rfl⟩
      | 1 => exact absurd rfl hother
      | _ + 2 => exact hnone _ _ rfl
  exact ⟨t, run, viewers_framed (by decide) run⟩

end Climon.Remote.ViewerInput
