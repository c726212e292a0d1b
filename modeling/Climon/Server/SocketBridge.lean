import Climon.Lib.Framing
import Climon.Lib.JsonParse
import Climon.Lib.Utf8

namespace Climon.Server.SocketBridge

open Climon.Lib Climon.Lib.Framing Climon.Lib.JavaScript Climon.Lib.JsonDocument Climon.Lib.Utf16
  Climon.Lib.Utf8

/-!
# The bridge from a session socket to a WebSocket

The data callback of every open WebSocket decodes the frames of its own session socket and sends
them on. An exception that escapes it leaves the rest of the chunk unsent and reaches the process.
-/

/-! ## Frames -/

structure DecodedFrame where
  type : UInt8
  payload : List UInt8
  deriving DecidableEq, Repr

namespace FrameType

def output : UInt8 := 1
def exit : UInt8 := 4
def replay : UInt8 := 5
def ptySize : UInt8 := 6
def control : UInt8 := 11

end FrameType

def headerSize : Nat := 5

def readUInt32BE (buffer : List UInt8) : Nat :=
  (buffer.take 4).foldl (fun n b => n * 256 + b.toNat) 0

def readUInt8 (buffer : List UInt8) (offset : Nat) : UInt8 := buffer.getD offset 0

/-- The frames in front of the buffer behind those found so far, and what is left of it. -/
def decode (buffer : List UInt8) (frames : List DecodedFrame) : List DecodedFrame × List UInt8 :=
  if _h : buffer.length < headerSize then (frames, buffer)
  else
    let total := headerSize + readUInt32BE buffer
    if buffer.length < total then (frames, buffer)
    else
      decode (buffer.drop total)
        (frames ++ [⟨readUInt8 buffer 4, (buffer.take total).drop headerSize⟩])
termination_by buffer.length
decreasing_by
  simp only [headerSize] at _h
  simp only [headerSize, List.length_drop]
  omega

/-- `FrameDecoder.push` -/
def push (buffer chunk : List UInt8) : List DecodedFrame × List UInt8 := decode (buffer ++ chunk) []

def parseJsonPayload (payload : List UInt8) : Option JsValue := JsonParse.parse (lossyChars payload)

/-! ## Replays -/

def alternateScreenEnter : List UInt8 := asBytes "\x1b[?1049h"

/-- The last character of a control that enters or leaves the alternate screen. -/
def alternateScreenControl (text : List Char) : Option Char :=
  ["47", "1047", "1049"].findSome? fun mode =>
    ['h', 'l'].find? fun final => ("\x1b[?" ++ mode).toList ++ [final] <+: text

def firstAlternateControl (text : List Char) : Option Char :=
  text.tails.findSome? alternateScreenControl

def sanitizeBrowserTerminalReplay (data : List UInt8) : List UInt8 :=
  if firstAlternateControl (lossyChars data) = some 'l' then alternateScreenEnter ++ data else data

/-! ## Messages to the browser -/

inductive Message where
  | text (json : Doc)
  | binary (data : List UInt8)

/-- `JSON.stringify` of an object literal; fields that are undefined are left out. -/
def stringify (type : String) (fields : List (String × Option JsValue)) : Message :=
  let fields := ("type", some (JsValue.string (encode type))) :: fields
  .text (JsValue.toDoc (.object (fields.filterMap fun field =>
    field.2.map fun value => (encode field.1, value))))

/-- A field of a parsed value: `none` where reading one throws, `some none` where it is undefined. -/
def property (value : JsValue) (key : String) : Option (Option JsValue) :=
  match value with
  | .null => none
  | .object props => some (Props.get? props key)
  | _ => some none

/-- The messages of a frame that carries JSON: its payload is parsed, and the fields that are read
off it are announced under the type. -/
def announce (type : String) (fields : List String) (payload : List UInt8) :
    Option (List Message) :=
  (parseJsonPayload payload).bind fun value =>
    (fields.mapM fun key => (property value key).map fun field => (key, field)).map fun fields =>
      [stringify type fields]

/-- One turn of the callback's loop; `none` where it throws. -/
def forward (frame : DecodedFrame) : Option (List Message) :=
  if frame.type = FrameType.output then some [.binary frame.payload]
  else if frame.type = FrameType.replay then
    some [stringify "replay" [], .binary (sanitizeBrowserTerminalReplay frame.payload)]
  else if frame.type = FrameType.exit then announce "exit" ["exitCode"] frame.payload
  else if frame.type = FrameType.ptySize then announce "size" ["cols", "rows"] frame.payload
  else if frame.type = FrameType.control then
    announce "control" ["controllerId", "cols", "rows"] frame.payload
  else some []

/-- What is sent for the frames of a chunk, and whether the callback throws. -/
def forwardAll : List DecodedFrame → List Message × Bool
  | [] => ([], false)
  | frame :: frames =>
    match forward frame with
    | none => ([], true)
    | some messages =>
      let (later, thrown) := forwardAll frames
      (messages ++ later, thrown)

structure Bridge where
  buffer : List UInt8
  sent : List Message
  /-- Some call of the callback threw. -/
  thrown : Bool

namespace Bridge

def opened : Bridge := ⟨[], [], false⟩

def onData (bridge : Bridge) (chunk : List UInt8) : Bridge :=
  let (frames, buffer) := push bridge.buffer chunk
  let (messages, thrown) := forwardAll frames
  ⟨buffer, bridge.sent ++ messages, bridge.thrown || thrown⟩

end Bridge

/-- A chunk that the session socket of one WebSocket delivers. -/
structure Event (ι : Type) where
  socket : ι
  chunk : List UInt8

section Server

variable {ι : Type} [DecidableEq ι]

def serve (bridges : ι → Bridge) (event : Event ι) : ι → Bridge :=
  Function.update bridges event.socket ((bridges event.socket).onData event.chunk)

/-- The bridges after the chunks of all sockets in the order they come in. -/
def run (events : List (Event ι)) : ι → Bridge := events.foldl serve fun _ => Bridge.opened

/-- The stream that one session socket delivered. -/
def received (events : List (Event ι)) (socket : ι) : List UInt8 :=
  (events.filter fun event => event.socket = socket).flatMap (·.chunk)

end Server

/-! ## What is asked of the bridge -/

/-- A unit of the stream: a header that tells the length of the payload, and the payload. -/
def grammar : Grammar UInt8 DecodedFrame Empty :=
  .prefixed headerSize (by decide) readUInt32BE fun unit =>
    ⟨readUInt8 unit 4, unit.drop headerSize⟩

/-- The complete frames of a stream. -/
def frames (stream : List UInt8) : List DecodedFrame := (grammar.parse stream).messages

def isNumber : JsValue → Bool
  | .number _ => true
  | _ => false

def isString : JsValue → Bool
  | .string _ => true
  | _ => false

/-- The payload types of the frames that carry JSON, with the type they are announced under. -/
def payloadType (type : UInt8) : Option (String × List (String × (JsValue → Bool))) :=
  if type = FrameType.exit then some ("exit", [("exitCode", isNumber)])
  else if type = FrameType.ptySize then some ("size", [("cols", isNumber), ("rows", isNumber)])
  else if type = FrameType.control then
    some ("control", [("controllerId", isString), ("cols", isNumber), ("rows", isNumber)])
  else none

/-- An object whose fields have the types of the payload. -/
def Shaped (fields : List (String × (JsValue → Bool))) (props : Props) : Prop :=
  ∀ field ∈ fields, ∃ value, Props.get? props field.1 = some value ∧ field.2 value = true

/-- What the kind of a frame requires to be sent for it. Where the payload is malformed or of the
wrong shape nothing is required. -/
def Forwards (frame : DecodedFrame) (messages : List Message) : Prop :=
  if frame.type = FrameType.output then messages = [.binary frame.payload]
  else if frame.type = FrameType.replay then
    messages = [stringify "replay" [], .binary (sanitizeBrowserTerminalReplay frame.payload)]
  else
    match payloadType frame.type with
    | some (type, fields) => ∀ props, parseJsonPayload frame.payload = some (.object props) →
        Shaped fields props →
        messages = [stringify type (fields.map fun field => (field.1, Props.get? props field.1))]
    | none => messages = []

/-- No call of the callback throws, and the frames that came in are forwarded once and in order. -/
def Bridges (stream : List UInt8) (bridge : Bridge) : Prop :=
  bridge.thrown = false ∧
    ∃ blocks, List.Forall₂ Forwards (frames stream) blocks ∧ bridge.sent = blocks.flatten

/-- Where the frame carries JSON, its payload is the text of a value other than null. -/
def Readable (frame : DecodedFrame) : Prop :=
  (payloadType frame.type).isSome = true →
    ∃ value, parseJsonPayload frame.payload = some value ∧ value.isNull = false

/-! ## The decoder reads the grammar -/

section Decoder

variable {buffer rest : List UInt8} {found : List DecodedFrame} {n : Nat} {m : Option DecodedFrame}

theorem readUInt32BE_take : readUInt32BE (buffer.take headerSize) = readUInt32BE buffer := by
  unfold readUInt32BE
  rw [List.take_take, headerSize]
  rfl

theorem scan_unit_iff : grammar.scan buffer = .unit n m ↔
    n = headerSize + readUInt32BE buffer ∧ n ≤ buffer.length ∧
      m = some ⟨readUInt8 (buffer.take n) 4, (buffer.take n).drop headerSize⟩ := by
  rw [← readUInt32BE_take]
  exact Grammar.prefixed_unit_iff

theorem scan_short (h : grammar.scan buffer = .short) :
    buffer.length < headerSize + readUInt32BE buffer := by
  by_contra hlong
  have hunit := scan_unit_iff.mpr ⟨rfl, Nat.le_of_not_lt hlong, rfl⟩
  rw [h] at hunit
  cases hunit

theorem decode_short (h : buffer.length < headerSize + readUInt32BE buffer) :
    decode buffer found = (found, buffer) := by
  rw [decode]
  split
  · rfl
  · rw [if_pos h]

theorem decode_unit (hn : n = headerSize + readUInt32BE buffer) (hle : n ≤ buffer.length) :
    decode buffer found = decode (buffer.drop n)
      (found ++ [⟨readUInt8 (buffer.take n) 4, (buffer.take n).drop headerSize⟩]) := by
  have htype : readUInt8 (buffer.take n) 4 = readUInt8 buffer 4 := by
    unfold readUInt8
    rw [List.getD_eq_getElem?_getD, List.getD_eq_getElem?_getD, List.getElem?_take, if_pos]
    rw [hn, headerSize]
    omega
  conv_lhs => rw [decode]
  rw [dif_neg (by omega), if_neg (by omega), htype, hn]

/-- The decoder gives back the frames of the grammar and keeps what the grammar leaves over. -/
theorem decode_eq (h : (grammar.parse buffer).ending = .waiting rest) :
    decode buffer found = (found ++ frames buffer, rest) := by
  unfold frames
  induction buffer using Grammar.parse.induct grammar generalizing found with
  | case1 buffer hs =>
    rw [grammar.parse_short hs] at h ⊢
    cases h
    rw [decode_short (scan_short hs), List.append_nil]
  | case2 buffer e hs => exact e.elim
  | case3 buffer n m hs ih =>
    rw [grammar.parse_unit hs] at h ⊢
    obtain ⟨hn, hle, rfl⟩ := scan_unit_iff.mp hs
    rw [decode_unit hn hle, ih h, Parse.messages_after, List.append_assoc]
    rfl

theorem frames_append {stream : List UInt8} (chunk : List UInt8)
    (h : (grammar.parse stream).ending = .waiting buffer) :
    frames (stream ++ chunk) = frames stream ++ frames (buffer ++ chunk) := by
  unfold frames
  rw [grammar.parse_append_waiting _ h, Parse.messages_after]

end Decoder

/-! ## One frame -/

section Forwarding

variable {value : JsValue} {frame : DecodedFrame} {payload : List UInt8} {type : String}
  {keys : List String}

/-- A field of a value that is not null. -/
def field (value : JsValue) (key : String) : Option JsValue :=
  match value with
  | .object props => Props.get? props key
  | _ => none

theorem property_eq (h : value.isNull = false) (key : String) :
    property value key = some (field value key) := by
  cases value with
  | null => cases h
  | _ => rfl

theorem announce_eq (hparse : parseJsonPayload payload = some value) (h : value.isNull = false) :
    announce type keys payload =
      some [stringify type (keys.map fun key => (key, field value key))] := by
  have hread : (fun key => (property value key).map fun field => (key, field)) =
      fun key => some (key, field value key) := by
    funext key
    rw [property_eq h, Option.map_some]
  unfold announce
  rw [hparse, Option.bind_some, hread, ← Option.pure_def, List.mapM_pure]
  rfl

theorem announce_none (hkeys : keys ≠ [])
    (h : ¬ ∃ value, parseJsonPayload payload = some value ∧ value.isNull = false) :
    announce type keys payload = none := by
  unfold announce
  cases hparse : parseJsonPayload payload with
  | none => rfl
  | some value =>
    cases value with
    | null =>
      cases keys with
      | nil => exact absurd rfl hkeys
      | cons key keys => simp [property]
    | _ => exact absurd ⟨_, hparse, rfl⟩ h

variable {fields : List (String × (JsValue → Bool))} {messages : List Message}

theorem payloadType_carried (h : payloadType frame.type = some (type, fields)) :
    frame.type ≠ FrameType.output ∧ frame.type ≠ FrameType.replay ∧ fields ≠ [] ∧
      forward frame = announce type (fields.map (·.1)) frame.payload := by
  unfold payloadType at h
  unfold forward
  split at h
  · next htype =>
    cases h
    rw [htype]
    exact ⟨by decide, by decide, by decide, rfl⟩
  · split at h
    · next htype =>
      cases h
      rw [htype]
      exact ⟨by decide, by decide, by decide, rfl⟩
    · split at h
      · next htype =>
        cases h
        rw [htype]
        exact ⟨by decide, by decide, by decide, rfl⟩
      · cases h

theorem forward_ignored (h : payloadType frame.type = none) (hout : frame.type ≠ FrameType.output)
    (hreplay : frame.type ≠ FrameType.replay) : forward frame = some [] := by
  unfold payloadType at h
  unfold forward
  rw [if_neg hout, if_neg hreplay]
  split at h
  · cases h
  · next hexit =>
    rw [if_neg hexit]
    split at h
    · cases h
    · next hsize =>
      rw [if_neg hsize]
      split at h
      · cases h
      · next hcontrol => rw [if_neg hcontrol]

/-- A payload that can be read is announced with the fields it has. -/
theorem announce_forwards (h : payloadType frame.type = some (type, fields))
    (hparse : parseJsonPayload frame.payload = some value) :
    Forwards frame [stringify type (fields.map fun f => (f.1, field value f.1))] := by
  obtain ⟨hout, hreplay, -, -⟩ := payloadType_carried h
  unfold Forwards
  rw [if_neg hout, if_neg hreplay, h]
  intro props hprops _
  rw [hparse] at hprops
  cases hprops
  rfl

theorem forward_readable (h : Readable frame) :
    ∃ messages, forward frame = some messages ∧ Forwards frame messages := by
  by_cases hout : frame.type = FrameType.output
  · refine ⟨[.binary frame.payload], ?_, ?_⟩
    · rw [forward, if_pos hout]
    · rw [Forwards, if_pos hout]
  by_cases hreplay : frame.type = FrameType.replay
  · refine ⟨[stringify "replay" [], .binary (sanitizeBrowserTerminalReplay frame.payload)], ?_, ?_⟩
    · rw [forward, if_neg hout, if_pos hreplay]
    · rw [Forwards, if_neg hout, if_pos hreplay]
  cases hkind : payloadType frame.type with
  | none =>
    refine ⟨[], forward_ignored hkind hout hreplay, ?_⟩
    rw [Forwards, if_neg hout, if_neg hreplay, hkind]
  | some kind =>
    obtain ⟨type, fields⟩ := kind
    obtain ⟨value, hparse, hnull⟩ := h (by rw [hkind]; rfl)
    refine ⟨_, ?_, announce_forwards hkind hparse⟩
    rw [(payloadType_carried hkind).2.2.2, announce_eq hparse hnull, List.map_map]
    rfl

theorem forward_unreadable (h : ¬ Readable frame) : forward frame = none := by
  unfold Readable at h
  push Not at h
  obtain ⟨hkind, hvalue⟩ := h
  obtain ⟨⟨type, fields⟩, hsome⟩ := Option.isSome_iff_exists.mp hkind
  obtain ⟨-, -, hfields, hforward⟩ := payloadType_carried hsome
  rw [hforward]
  refine announce_none ?_ ?_
  · exact fun hnil => hfields (List.map_eq_nil_iff.mp hnil)
  · rintro ⟨value, hparse, hnull⟩
    exact hvalue value hparse hnull

end Forwarding

/-! ## The frames of a chunk -/

section Chunk

variable {frames : List DecodedFrame}

theorem forwardAll_readable (h : ∀ frame ∈ frames, Readable frame) :
    ∃ blocks, List.Forall₂ Forwards frames blocks ∧ forwardAll frames = (blocks.flatten, false) := by
  induction frames with
  | nil => exact ⟨[], .nil, rfl⟩
  | cons frame frames ih =>
    rw [List.forall_mem_cons] at h
    obtain ⟨messages, hforward, hmessages⟩ := forward_readable h.1
    obtain ⟨blocks, hblocks, hlater⟩ := ih h.2
    refine ⟨messages :: blocks, .cons hmessages hblocks, ?_⟩
    rw [forwardAll, hforward, hlater]
    rfl

theorem forwardAll_thrown (h : (forwardAll frames).2 = false) :
    ∀ frame ∈ frames, Readable frame := by
  induction frames with
  | nil => exact nofun
  | cons frame frames ih =>
    rw [List.forall_mem_cons]
    by_cases hframe : Readable frame
    · obtain ⟨messages, hforward, -⟩ := forward_readable hframe
      rw [forwardAll, hforward] at h
      exact ⟨hframe, ih h⟩
    · rw [forwardAll, forward_unreadable hframe] at h
      cases h

end Chunk

/-! ## Runs -/

/-- What holds of a bridge after the stream. -/
structure Carries (stream : List UInt8) (bridge : Bridge) : Prop where
  buffer : (grammar.parse stream).ending = .waiting bridge.buffer
  readable : bridge.thrown = false → ∀ frame ∈ frames stream, Readable frame
  bridges : (∀ frame ∈ frames stream, Readable frame) → Bridges stream bridge

theorem carries_opened : Carries [] Bridge.opened := by
  have hparse : grammar.parse [] = ⟨[], .waiting []⟩ := grammar.parse_short rfl
  have hframes : frames [] = [] := by
    rw [frames, hparse]
  refine ⟨?_, ?_, ?_⟩
  · rw [hparse]
    rfl
  · rw [hframes]
    exact fun _ => nofun
  · intro _
    refine ⟨rfl, [], ?_, rfl⟩
    rw [hframes]
    exact .nil

theorem carries_onData {stream : List UInt8} {bridge : Bridge} (h : Carries stream bridge)
    (chunk : List UInt8) : Carries (stream ++ chunk) (bridge.onData chunk) := by
  obtain ⟨rest, hrest⟩ := parse_waiting grammar (bridge.buffer ++ chunk)
  have hpush : push bridge.buffer chunk = (frames (bridge.buffer ++ chunk), rest) :=
    decode_eq hrest
  have hframes := frames_append chunk h.buffer
  have hdata : bridge.onData chunk =
      ⟨rest, bridge.sent ++ (forwardAll (frames (bridge.buffer ++ chunk))).1,
        bridge.thrown || (forwardAll (frames (bridge.buffer ++ chunk))).2⟩ := by
    rw [Bridge.onData, hpush]
  rw [hdata]
  refine ⟨?_, ?_, ?_⟩
  · rw [grammar.parse_append_waiting _ h.buffer]
    exact hrest
  · intro hthrown frame hframe
    rw [hframes, List.mem_append] at hframe
    obtain ⟨hbefore, hchunk⟩ := Bool.or_eq_false_iff.mp hthrown
    cases hframe with
    | inl hmem => exact h.readable hbefore frame hmem
    | inr hmem => exact forwardAll_thrown hchunk frame hmem
  · intro hreadable
    rw [hframes, List.forall_mem_append] at hreadable
    obtain ⟨hbefore, blocks, hblocks, hsent⟩ := h.bridges hreadable.1
    obtain ⟨later, hlater, hall⟩ := forwardAll_readable hreadable.2
    refine ⟨?_, blocks ++ later, ?_, ?_⟩
    · simp only [hbefore, hall, Bool.or_self]
    · rw [hframes]
      exact List.rel_append hblocks hlater
    · simp only [hsent, hall, List.flatten_append]

section Server

variable {ι : Type} [DecidableEq ι]

theorem carries_foldl {streams : ι → List UInt8} {bridges : ι → Bridge}
    (h : ∀ socket, Carries (streams socket) (bridges socket)) (events : List (Event ι))
    (socket : ι) :
    Carries (streams socket ++ received events socket) (events.foldl serve bridges socket) := by
  induction events generalizing streams bridges with
  | nil =>
    simp only [received, List.filter_nil, List.flatMap_nil, List.append_nil]
    exact h socket
  | cons event events ih =>
    have hserve : ∀ s, Carries (Function.update streams event.socket
        (streams event.socket ++ event.chunk) s) (serve bridges event s) := by
      intro s
      unfold serve
      by_cases hs : s = event.socket
      · rw [hs, Function.update_self, Function.update_self]
        exact carries_onData (h event.socket) event.chunk
      · rw [Function.update_of_ne hs, Function.update_of_ne hs]
        exact h s
    have hrun := ih hserve
    rw [List.foldl_cons]
    by_cases hsocket : event.socket = socket
    · subst hsocket
      rw [Function.update_self, List.append_assoc] at hrun
      simpa [received] using hrun
    · rw [Function.update_of_ne (Ne.symm hsocket)] at hrun
      simpa [received, hsocket] using hrun

theorem carries_run (events : List (Event ι)) (socket : ι) :
    Carries (received events socket) (run events socket) :=
  carries_foldl (fun _ => carries_opened) events socket

/-- No callback throws and every frame is forwarded, whatever the sockets deliver in whatever
chunks, exactly when each payload that has to be parsed is the text of a value other than null. -/
theorem bridges_iff (events : List (Event ι)) :
    (∀ socket, Bridges (received events socket) (run events socket)) ↔
      ∀ socket, ∀ frame ∈ frames (received events socket), Readable frame := by
  constructor
  · intro h socket
    exact (carries_run events socket).readable (h socket).1
  · intro h socket
    exact (carries_run events socket).bridges (h socket)

end Server

/-- One chunk of a mirrored session: an exit frame without a payload, and a frame of output. -/
def emptyExit : List (Event Nat) := [⟨0, [0, 0, 0, 0, 4, 0, 0, 0, 1, 1, 0x41]⟩]

theorem emptyExit_throws : (run emptyExit 0).thrown = true ∧ (run emptyExit 0).sent = [] ∧
    ¬ ∀ socket, Bridges (received emptyExit socket) (run emptyExit socket) := by
  have hpush : push [] [0, 0, 0, 0, 4, 0, 0, 0, 1, 1, 0x41] = ([⟨4, []⟩, ⟨1, [0x41]⟩], []) := by
    unfold push
    rw [decode_unit (n := 5) rfl (by decide), decode_unit (n := 6) rfl (by decide)]
    exact decode_short (by decide)
  have hforward : forward ⟨4, []⟩ = none := by
    have hparse : parseJsonPayload [] = none := by
      unfold parseJsonPayload
      rw [lossyChars]
      rfl
    refine forward_unreadable fun h => ?_
    obtain ⟨value, hvalue, -⟩ := h rfl
    rw [hparse] at hvalue
    cases hvalue
  have hrun : run emptyExit 0 = ⟨[], [], true⟩ := by
    unfold run emptyExit
    rw [List.foldl_cons, List.foldl_nil, serve, Function.update_self, Bridge.onData]
    simp only [Bridge.opened, hpush, forwardAll, hforward, List.append_nil, Bool.or_true]
  refine ⟨?_, ?_, fun h => ?_⟩
  · rw [hrun]
  · rw [hrun]
  · have hthrown := (h 0).1
    rw [hrun] at hthrown
    cases hthrown

end Climon.Server.SocketBridge
