import Climon.Remote.Mux

namespace Climon.Proto.FrameCodec

open Climon.Lib.Framing Climon.Remote.Mux

/-!
# The frame codec of the session socket

The header is that of a mux frame, without a bound on the length.
-/

inductive FrameType where
  | output
  | input
  | resize
  | exit
  | replay
  | ptySize
  | attention
  | title
  | control
  | takeControl
  deriving DecidableEq, Repr

namespace FrameType

/-- The tags 9 and 10 are reserved. -/
def byte : FrameType → UInt8
  | .output => 1
  | .input => 2
  | .resize => 3
  | .exit => 4
  | .replay => 5
  | .ptySize => 6
  | .attention => 7
  | .title => 8
  | .control => 11
  | .takeControl => 12

def fromU8 (value : UInt8) : Option FrameType :=
  match value with
  | 1 => some .output
  | 2 => some .input
  | 3 => some .resize
  | 4 => some .exit
  | 5 => some .replay
  | 6 => some .ptySize
  | 7 => some .attention
  | 8 => some .title
  | 11 => some .control
  | 12 => some .takeControl
  | _ => none

@[simp] theorem fromU8_byte (t : FrameType) : fromU8 t.byte = some t := by
  cases t <;> rfl

end FrameType

def encodeFrame (frameType : FrameType) (payload : List UInt8) : List UInt8 :=
  envelope frameType.byte payload

structure DecodedFrame where
  frameType : FrameType
  payload : List UInt8
  deriving DecidableEq, Repr

/-! ## The decoder -/

/-- The width of the frame in front and what it decodes to; `none` while it is incomplete. -/
def frontFrame : List UInt8 → Option (Nat × Option DecodedFrame)
  | b0 :: b1 :: b2 :: b3 :: typeByte :: body =>
    let len := (fromBeBytes b0 b1 b2 b3).toNat
    if body.length < len then none
    else
      some (headerSize + len,
        (FrameType.fromU8 typeByte).map fun frameType => ⟨frameType, body.take len⟩)
  | _ => none

theorem frontFrame_some {xs : List UInt8} {n : Nat} {m : Option DecodedFrame}
    (h : frontFrame xs = some (n, m)) :
    ∃ b0 b1 b2 b3 ty body, xs = b0 :: b1 :: b2 :: b3 :: ty :: body ∧
      (fromBeBytes b0 b1 b2 b3).toNat ≤ body.length ∧
      n = headerSize + (fromBeBytes b0 b1 b2 b3).toNat ∧
      m = (FrameType.fromU8 ty).map fun t => ⟨t, body.take (fromBeBytes b0 b1 b2 b3).toNat⟩ := by
  unfold frontFrame at h
  split at h
  next b0 b1 b2 b3 ty body =>
    dsimp only at h
    split at h
    · cases h
    · next hlen =>
      obtain ⟨rfl, rfl⟩ := Prod.mk.inj (Option.some.inj h)
      exact ⟨b0, b1, b2, b3, ty, body, rfl, Nat.le_of_not_lt hlen, rfl, rfl⟩
  next => cases h

theorem frontFrame_parts {b0 b1 b2 b3 ty : UInt8} {body : List UInt8}
    (h : (fromBeBytes b0 b1 b2 b3).toNat ≤ body.length) :
    frontFrame (b0 :: b1 :: b2 :: b3 :: ty :: body) =
      some (headerSize + (fromBeBytes b0 b1 b2 b3).toNat,
        (FrameType.fromU8 ty).map fun t =>
          ⟨t, body.take (fromBeBytes b0 b1 b2 b3).toNat⟩) := by
  rw [frontFrame, if_neg (Nat.not_lt_of_le h)]

theorem frontFrame_width {xs : List UInt8} {n : Nat} {m : Option DecodedFrame}
    (h : frontFrame xs = some (n, m)) : 0 < n ∧ n ≤ xs.length := by
  obtain ⟨b0, b1, b2, b3, ty, body, rfl, hlen, rfl, -⟩ := frontFrame_some h
  simp only [headerSize, List.length_cons]
  omega

/-- The `while` loop of `push`. -/
def pushLoop (buffer : List UInt8) (offset : Nat) (frames : List DecodedFrame) :
    List DecodedFrame × Nat :=
  match _h : frontFrame (buffer.drop offset) with
  | none => (frames, offset)
  | some (total, frame) => pushLoop buffer (offset + total) (frames ++ frame.toList)
termination_by buffer.length - offset
decreasing_by
  have ⟨hpos, hle⟩ := frontFrame_width _h
  rw [List.length_drop] at hle
  omega

structure FrameDecoder where
  buffer : List UInt8
  deriving DecidableEq, Repr

def FrameDecoder.new : FrameDecoder := ⟨[]⟩

def FrameDecoder.push (decoder : FrameDecoder) (chunk : List UInt8) :
    List DecodedFrame × FrameDecoder :=
  let buffer := decoder.buffer ++ chunk
  let (frames, offset) := pushLoop buffer 0 []
  (frames, ⟨if 0 < offset then buffer.drop offset else buffer⟩)

/-- All frames of a run of pushes, and the decoder after them. -/
def FrameDecoder.pushAll (decoder : FrameDecoder) :
    List (List UInt8) → List DecodedFrame × FrameDecoder
  | [] => ([], decoder)
  | chunk :: chunks =>
    let (frames, decoder) := decoder.push chunk
    let (later, decoder) := decoder.pushAll chunks
    (frames ++ later, decoder)

/-! ## The decoder reads a grammar without rejections -/

theorem frontFrame_take {xs : List UInt8} {n : Nat} {m : Option DecodedFrame}
    (h : frontFrame xs = some (n, m)) : frontFrame (xs.take n) = some (n, m) := by
  obtain ⟨b0, b1, b2, b3, ty, body, rfl, hlen, rfl, rfl⟩ := frontFrame_some h
  have hcut : (b0 :: b1 :: b2 :: b3 :: ty :: body).take
      (headerSize + (fromBeBytes b0 b1 b2 b3).toNat) =
        b0 :: b1 :: b2 :: b3 :: ty :: body.take (fromBeBytes b0 b1 b2 b3).toNat := by
    rw [headerSize, Nat.add_comm]
    rfl
  have htake : (fromBeBytes b0 b1 b2 b3).toNat ≤
      (body.take (fromBeBytes b0 b1 b2 b3).toNat).length := by
    rw [List.length_take]
    omega
  rw [hcut, frontFrame_parts htake, List.take_take, Nat.min_self]

theorem frontFrame_append {xs : List UInt8} {n : Nat} {m : Option DecodedFrame}
    (ys : List UInt8) (h : frontFrame xs = some (n, m)) : frontFrame (xs ++ ys) = some (n, m) := by
  obtain ⟨b0, b1, b2, b3, ty, body, rfl, hlen, rfl, rfl⟩ := frontFrame_some h
  have happend : (fromBeBytes b0 b1 b2 b3).toNat ≤ (body ++ ys).length := by
    rw [List.length_append]
    omega
  simp only [List.cons_append]
  rw [frontFrame_parts happend, List.take_append_of_le_length hlen]

def grammar : Grammar UInt8 DecodedFrame Empty where
  scan xs :=
    match frontFrame xs with
    | none => .short
    | some (n, m) => .unit n m
  unit_pos := by
    intro xs n m h
    split at h
    · cases h
    · next hfront =>
      cases h
      exact (frontFrame_width hfront).1
  unit_le := by
    intro xs n m h
    split at h
    · cases h
    · next hfront =>
      cases h
      exact (frontFrame_width hfront).2
  unit_take := by
    intro xs n m h
    split at h
    · cases h
    · next hfront =>
      cases h
      rw [frontFrame_take hfront]
  unit_append := by
    intro xs n m ys h
    split at h
    · cases h
    · next hfront =>
      cases h
      rw [frontFrame_append ys hfront]
  bad_append := by
    intro xs e
    exact e.elim

theorem scan_of_none {xs : List UInt8} (h : frontFrame xs = none) : grammar.scan xs = .short := by
  change (match frontFrame xs with | none => Scan.short | some (n, m) => .unit n m) = _
  rw [h]

theorem scan_of_some {xs : List UInt8} {n : Nat} {m : Option DecodedFrame}
    (h : frontFrame xs = some (n, m)) : grammar.scan xs = .unit n m := by
  change (match frontFrame xs with | none => Scan.short | some (n, m) => .unit n m) = _
  rw [h]

theorem parse_ending (xs : List UInt8) : ∃ rest, (grammar.parse xs).ending = .waiting rest := by
  cases h : (grammar.parse xs).ending with
  | waiting rest => exact ⟨rest, rfl⟩
  | failed e => exact e.elim

/-- What is left of a push that starts at `pre.length`. -/
theorem pushLoop_eq (pre xs rest : List UInt8) (frames : List DecodedFrame)
    (h : (grammar.parse xs).ending = .waiting rest) :
    ∃ n, xs.drop n = rest ∧
      pushLoop (pre ++ xs) pre.length frames =
        (frames ++ (grammar.parse xs).messages, pre.length + n) := by
  induction xs using Grammar.parse.induct grammar generalizing pre frames with
  | case1 xs hs =>
    have hfront : frontFrame ((pre ++ xs).drop pre.length) = none := by
      rw [List.drop_left]
      cases hf : frontFrame xs with
      | none => rfl
      | some unit =>
        rw [scan_of_some hf] at hs
        cases hs
    rw [grammar.parse_short hs] at h ⊢
    cases h
    refine ⟨0, rfl, ?_⟩
    rw [pushLoop]
    split <;> simp_all
  | case2 xs e hs => exact e.elim
  | case3 xs n m hs ih =>
    have hfront : frontFrame ((pre ++ xs).drop pre.length) = some (n, m) := by
      rw [List.drop_left]
      cases hf : frontFrame xs with
      | none =>
        rw [scan_of_none hf] at hs
        cases hs
      | some unit =>
        rw [scan_of_some hf] at hs
        cases hs
        rfl
    have hle := grammar.unit_le hs
    have hloop : pushLoop (pre ++ xs) pre.length frames =
        pushLoop ((pre ++ xs.take n) ++ xs.drop n) (pre ++ xs.take n).length
          (frames ++ m.toList) := by
      rw [List.append_assoc, List.take_append_drop, List.length_append, List.length_take,
        Nat.min_eq_left hle]
      conv_lhs => rw [pushLoop]
      split <;> simp_all
    rw [grammar.parse_unit hs] at h ⊢
    obtain ⟨k, hk, hrun⟩ := ih (pre ++ xs.take n) (frames ++ m.toList) h
    refine ⟨n + k, by rw [← hk, List.drop_drop], ?_⟩
    rw [hloop, hrun, Parse.messages_after, List.append_assoc, List.length_append, List.length_take,
      Nat.min_eq_left hle, Nat.add_assoc]

theorem push_eq (decoder : FrameDecoder) (chunk rest : List UInt8)
    (h : (grammar.parse (decoder.buffer ++ chunk)).ending = .waiting rest) :
    decoder.push chunk = ((grammar.parse (decoder.buffer ++ chunk)).messages, ⟨rest⟩) := by
  obtain ⟨n, hn, hrun⟩ := pushLoop_eq [] (decoder.buffer ++ chunk) rest [] h
  simp only [List.nil_append, List.length_nil, Nat.zero_add] at hrun
  rw [FrameDecoder.push]
  simp only [hrun]
  split
  · rw [hn]
  · next hzero =>
    rw [← hn, Nat.eq_zero_of_not_pos hzero, List.drop_zero]

/-- A push as the library reads it: no chunk is rejected. -/
def readFrames : Push UInt8 DecodedFrame Empty := fun buffer chunk =>
  let (frames, decoder) := (FrameDecoder.mk buffer).push chunk
  some (.ok frames, decoder.buffer)

theorem readFrames_implements : Implements grammar readFrames := by
  intro buffer chunk
  obtain ⟨rest, hrest⟩ := parse_ending (buffer ++ chunk)
  rw [hrest]
  change readFrames buffer chunk = _
  rw [readFrames, push_eq ⟨buffer⟩ chunk rest hrest]

theorem feed_pushAll (decoder : FrameDecoder) (chunks : List (List UInt8)) :
    feed readFrames decoder.buffer chunks =
      some ⟨(decoder.pushAll chunks).1, none, (decoder.pushAll chunks).2.buffer⟩ := by
  induction chunks generalizing decoder with
  | nil => rfl
  | cons chunk chunks ih =>
    simp only [feed, readFrames, FrameDecoder.pushAll]
    rw [ih (decoder.push chunk).2, Option.map_some]

/-- However the bytes are cut, the frames are those of the whole stream. -/
theorem pushAll_eq (decoder : FrameDecoder) (chunks : List (List UInt8)) (rest : List UInt8)
    (hbuffer : grammar.scan decoder.buffer = .short)
    (h : (grammar.parse (decoder.buffer ++ chunks.flatten)).ending = .waiting rest) :
    decoder.pushAll chunks =
      ((grammar.parse (decoder.buffer ++ chunks.flatten)).messages, ⟨rest⟩) := by
  have hfeed := feed_waiting readFrames_implements hbuffer h
  rw [feed_pushAll] at hfeed
  have heq := Feed.mk.inj (Option.some.inj hfeed)
  exact Prod.ext heq.1 (congrArg FrameDecoder.mk heq.2.2)

/-! ## Frames on the wire -/

/-- What a peer sends: a known frame, or a well-framed one of a type this side does not know. -/
inductive WireFrame where
  | known (frameType : FrameType) (payload : List UInt8) (fits : payload.length < 2 ^ 32)
  | unknown (typeByte : UInt8) (payload : List UInt8) (fits : payload.length < 2 ^ 32)
      (unmapped : FrameType.fromU8 typeByte = none)

namespace WireFrame

def encode : WireFrame → List UInt8
  | .known frameType payload _ => encodeFrame frameType payload
  | .unknown typeByte payload _ _ => envelope typeByte payload

def decoded : WireFrame → Option DecodedFrame
  | .known frameType payload _ => some ⟨frameType, payload⟩
  | .unknown _ _ _ _ => none

end WireFrame

theorem frontFrame_envelope (typeByte : UInt8) {payload : List UInt8}
    (fits : payload.length < 2 ^ 32) :
    frontFrame (envelope typeByte payload) =
      some ((envelope typeByte payload).length,
        (FrameType.fromU8 typeByte).map fun frameType => ⟨frameType, payload⟩) := by
  have hlen : (UInt32.ofNat payload.length).toNat = payload.length := by
    rw [UInt32.toNat_ofNat']
    omega
  simp only [envelope, toBeBytes, List.cons_append, List.nil_append]
  rw [frontFrame_parts (by rw [fromBeBytes_toBeBytes, hlen]), fromBeBytes_toBeBytes, hlen,
    List.take_length]
  simp only [headerSize, List.length_cons]
  congr 2
  omega

theorem frontFrame_encode (frame : WireFrame) :
    frontFrame frame.encode = some (frame.encode.length, frame.decoded) := by
  cases frame with
  | known frameType payload fits =>
    have hfront := frontFrame_envelope frameType.byte fits
    rwa [FrameType.fromU8_byte] at hfront
  | unknown typeByte payload fits unmapped =>
    have hfront := frontFrame_envelope typeByte fits
    rwa [unmapped] at hfront

/-- A frame is not complete before its last byte. -/
theorem frontFrame_short {frame : WireFrame} {front back : List UInt8}
    (h : frame.encode = front ++ back) (hback : back ≠ []) : frontFrame front = none := by
  cases hf : frontFrame front with
  | none => rfl
  | some unit =>
    obtain ⟨n, m⟩ := unit
    have happend := grammar.unit_append back (scan_of_some hf)
    rw [← h, scan_of_some (frontFrame_encode frame)] at happend
    have hn : frame.encode.length = n := (Scan.unit.inj happend).1
    have hle := (frontFrame_width hf).2
    have hpos := List.length_pos_of_ne_nil hback
    rw [h, List.length_append] at hn
    omega

def encodeAll (frames : List WireFrame) : List UInt8 := (frames.map WireFrame.encode).flatten

theorem parse_encodeAll (frames : List WireFrame) (rest : List UInt8) :
    grammar.parse (encodeAll frames ++ rest) =
      (grammar.parse rest).after (frames.filterMap WireFrame.decoded) := by
  induction frames with
  | nil => rfl
  | cons frame frames ih =>
    rw [encodeAll, List.map_cons, List.flatten_cons, List.append_assoc,
      grammar.parse_unit_append (scan_of_some (frontFrame_encode frame)), ← encodeAll, ih,
      Parse.after_after]
    cases hm : frame.decoded with
    | none =>
      rw [List.filterMap_cons_none hm]
      rfl
    | some decoded =>
      rw [List.filterMap_cons_some hm]
      rfl

/-- Frames and a proper prefix of another, cut anywhere, yield the known frames and leave the
prefix; the bytes that complete the other frame yield it, and what follows them is read as by a
fresh decoder. -/
theorem pushAll_roundTrip (frames : List WireFrame) (next : WireFrame) (front back : List UInt8)
    (chunks : List (List UInt8)) (hnext : next.encode = front ++ back) (hback : back ≠ [])
    (hchunks : chunks.flatten = encodeAll frames ++ front) :
    FrameDecoder.new.pushAll chunks = (frames.filterMap WireFrame.decoded, ⟨front⟩) ∧
      ∀ later, (FrameDecoder.mk front).push (back ++ later) =
        (next.decoded.toList ++ (FrameDecoder.new.push later).1,
          (FrameDecoder.new.push later).2) := by
  have hshort := scan_of_none (frontFrame_short hnext hback)
  constructor
  · have hparse : grammar.parse (FrameDecoder.new.buffer ++ chunks.flatten) =
        ⟨frames.filterMap WireFrame.decoded, .waiting front⟩ := by
      rw [FrameDecoder.new, List.nil_append, hchunks, parse_encodeAll, grammar.parse_short hshort,
        Parse.after, List.append_nil]
    rw [pushAll_eq _ chunks front (scan_of_none rfl) (by rw [hparse]), hparse]
  · intro later
    have hparse : grammar.parse (front ++ (back ++ later)) =
        (grammar.parse later).after next.decoded.toList := by
      rw [← List.append_assoc, ← hnext,
        grammar.parse_unit_append (scan_of_some (frontFrame_encode next))]
    obtain ⟨rest, hrest⟩ := parse_ending later
    rw [push_eq FrameDecoder.new later rest hrest, push_eq _ _ rest (by rw [hparse]; exact hrest),
      hparse]
    rfl

def sampleFrame : WireFrame := .known .input [0x41, 0x42] (by decide)

def reservedFrame : WireFrame := .unknown 9 [0xFF] (by decide) (by decide)

/-- An input frame and one of a reserved type, cut inside their headers, and three bytes of the
next. -/
theorem pushAll_roundTrip_cut_header :
    FrameDecoder.new.pushAll [[0, 0], [0, 2, 2, 0x41], [], [0x42, 0, 0, 0, 1], [9, 0xFF, 0, 0, 0]] =
        ([⟨.input, [0x41, 0x42]⟩], ⟨[0, 0, 0]⟩) ∧
      ∀ later, (FrameDecoder.mk [0, 0, 0]).push ([2, 2, 0x41, 0x42] ++ later) =
        (sampleFrame.decoded.toList ++ (FrameDecoder.new.push later).1,
          (FrameDecoder.new.push later).2) :=
  pushAll_roundTrip [sampleFrame, reservedFrame] sampleFrame [0, 0, 0] [2, 2, 0x41, 0x42] _ rfl
    (by decide) rfl

end Climon.Proto.FrameCodec
