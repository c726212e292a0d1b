import Mathlib.Data.List.Basic
import Mathlib.Tactic.Linarith
import Climon.Lib.Framing
import Climon.Lib.Utf8

namespace Climon.Remote.Mux

open Climon.Lib.Framing Climon.Lib.Utf8

/-!
# Mux framing of the uplink channel

A frame is a 4-byte big-endian payload length, a type byte and the payload. The
decoder reads bytes of an untrusted peer, so its indexing is modelled with the
checks whose failure would be a panic.
-/

inductive MuxType where
  | control
  | data
  deriving DecidableEq, Repr

def MuxType.byte : MuxType → UInt8
  | .control => 1
  | .data => 2

def headerSize : Nat := 5

def maxMuxPayload : Nat := 8 * 1024 * 1024

inductive MuxError where
  | sessionIdTooLong
  | frameTooLarge (length : UInt32)
  | badControl
  | malformedData
  deriving DecidableEq, Repr

/-- A decoded frame whose control payload is left as raw JSON bytes. -/
inductive RawFrame where
  | control (payload : List UInt8)
  | data (sessionId : String) (data : List UInt8)
  deriving DecidableEq, Repr

def toBeBytes (n : UInt32) : List UInt8 :=
  [UInt8.ofNat (n.toNat / 2 ^ 24), UInt8.ofNat (n.toNat / 2 ^ 16), UInt8.ofNat (n.toNat / 2 ^ 8),
    UInt8.ofNat n.toNat]

def fromBeBytes (b0 b1 b2 b3 : UInt8) : UInt32 :=
  UInt32.ofNat (((b0.toNat * 256 + b1.toNat) * 256 + b2.toNat) * 256 + b3.toNat)

theorem fromBeBytes_toNat (b0 b1 b2 b3 : UInt8) :
    (fromBeBytes b0 b1 b2 b3).toNat =
      ((b0.toNat * 256 + b1.toNat) * 256 + b2.toNat) * 256 + b3.toNat := by
  have h0 := b0.toNat_lt
  have h1 := b1.toNat_lt
  have h2 := b2.toNat_lt
  have h3 := b3.toNat_lt
  rw [fromBeBytes, UInt32.toNat_ofNat']
  omega

theorem toBeBytes_fromBeBytes (b0 b1 b2 b3 : UInt8) :
    toBeBytes (fromBeBytes b0 b1 b2 b3) = [b0, b1, b2, b3] := by
  have h0 := b0.toNat_lt
  have h1 := b1.toNat_lt
  have h2 := b2.toNat_lt
  have h3 := b3.toNat_lt
  simp only [toBeBytes, fromBeBytes_toNat, List.cons.injEq, and_true]
  refine ⟨?_, ?_, ?_, ?_⟩ <;>
    · apply UInt8.toNat_inj.mp
      rw [UInt8.toNat_ofNat']
      omega

theorem fromBeBytes_toBeBytes (n : UInt32) :
    fromBeBytes (UInt8.ofNat (n.toNat / 2 ^ 24)) (UInt8.ofNat (n.toNat / 2 ^ 16))
      (UInt8.ofNat (n.toNat / 2 ^ 8)) (UInt8.ofNat n.toNat) = n := by
  have hn := n.toNat_lt
  apply UInt32.toNat_inj.mp
  simp only [fromBeBytes_toNat, UInt8.toNat_ofNat']
  omega

def envelope (typeByte : UInt8) (payload : List UInt8) : List UInt8 :=
  toBeBytes (UInt32.ofNat payload.length) ++ typeByte :: payload

def encodeControl (json : List UInt8) : List UInt8 :=
  envelope MuxType.control.byte json

def dataPayload (sessionId : String) (data : List UInt8) : List UInt8 :=
  UInt8.ofNat (asBytes sessionId).length :: (asBytes sessionId ++ data)

def encodeData (sessionId : String) (data : List UInt8) : Except MuxError (List UInt8) :=
  if 255 < (asBytes sessionId).length then .error .sessionIdTooLong
  else .ok (envelope MuxType.data.byte (dataPayload sessionId data))

/-! ## The decoder -/

structure MuxDecoder where
  buffer : List UInt8
  deriving DecidableEq, Repr

def MuxDecoder.new : MuxDecoder := ⟨[]⟩

/-- `xs[start..stop]`, which panics unless `start ≤ stop ≤ xs.len()`. -/
def slice? (xs : List UInt8) (start stop : Nat) : Option (List UInt8) :=
  if start ≤ stop ∧ stop ≤ xs.length then some ((xs.drop start).take (stop - start)) else none

/-- Unsigned subtraction, which panics on underflow. -/
def checkedSub (a b : Nat) : Option Nat :=
  if b ≤ a then some (a - b) else none

/-- How one turn of the decoding loop ends. -/
inductive LoopStep where
  | exit
  | fail (error : MuxError)
  | advance (total : Nat) (frame : Option RawFrame)
  deriving DecidableEq, Repr

/-- The branches of `push_frames` on the type of a complete frame; `none` is a panic. -/
def decodePayload (total : Nat) (typeByte : UInt8) (payload : List UInt8) :
    Option LoopStep := do
  if typeByte = MuxType.control.byte then
    return .advance total (some (.control payload))
  else if typeByte = MuxType.data.byte then
    if payload.isEmpty then
      return .fail .malformedData
    let idLen ← payload[0]?
    -- an oversized id length is clamped to the payload
    let idEnd := min (1 + idLen.toNat) payload.length
    let id ← slice? payload 1 idEnd
    let data ← slice? payload idEnd payload.length
    return .advance total (some (.data (fromUtf8Lossy id) data))
  else
    return .advance total none

/-- One turn of the `while` loop of `push_frames`. -/
def loopBody (buffer : List UInt8) (offset : Nat) : Option LoopStep := do
  let remaining ← checkedSub buffer.length offset
  if remaining < headerSize then
    return .exit
  let b0 ← buffer[offset]?
  let b1 ← buffer[offset + 1]?
  let b2 ← buffer[offset + 2]?
  let b3 ← buffer[offset + 3]?
  let length := fromBeBytes b0 b1 b2 b3
  if maxMuxPayload < length.toNat then
    return .fail (.frameTooLarge length)
  let total := headerSize + length.toNat
  if remaining < total then
    return .exit
  let typeByte ← buffer[offset + 4]?
  let payload ← slice? buffer (offset + headerSize) (offset + total)
  decodePayload total typeByte payload

/-! ## The wire grammar -/

/-- What a complete frame of a given type says; unknown types say nothing. -/
def interpret (typeByte : UInt8) (payload : List UInt8) : Except MuxError (Option RawFrame) :=
  if typeByte = MuxType.control.byte then .ok (some (.control payload))
  else if typeByte = MuxType.data.byte then
    match payload with
    | [] => .error .malformedData
    | idLen :: body =>
      .ok (some (.data (fromUtf8Lossy (body.take idLen.toNat)) (body.drop idLen.toNat)))
  else .ok none

def scanFrame : List UInt8 → Scan RawFrame MuxError
  | b0 :: b1 :: b2 :: b3 :: typeByte :: body =>
    let length := fromBeBytes b0 b1 b2 b3
    if maxMuxPayload < length.toNat then .bad (.frameTooLarge length)
    else if body.length < length.toNat then .short
    else
      match interpret typeByte (body.take length.toNat) with
      | .ok frame => .unit (headerSize + length.toNat) frame
      | .error e => .bad e
  | _ => .short

theorem scanFrame_unit {xs : List UInt8} {n : Nat} {m : Option RawFrame}
    (h : scanFrame xs = .unit n m) :
    ∃ b0 b1 b2 b3 ty body, xs = b0 :: b1 :: b2 :: b3 :: ty :: body ∧
      (fromBeBytes b0 b1 b2 b3).toNat ≤ maxMuxPayload ∧
      (fromBeBytes b0 b1 b2 b3).toNat ≤ body.length ∧
      interpret ty (body.take (fromBeBytes b0 b1 b2 b3).toNat) = .ok m ∧
      n = headerSize + (fromBeBytes b0 b1 b2 b3).toNat := by
  unfold scanFrame at h
  split at h
  next b0 b1 b2 b3 ty body =>
    dsimp only at h
    split at h
    · cases h
    · split at h
      · cases h
      · split at h
        next frame hok =>
          cases h
          exact ⟨b0, b1, b2, b3, ty, body, rfl, by omega, by omega, hok, rfl⟩
        next => cases h
  next => cases h

private theorem scanFrame_of_parts {b0 b1 b2 b3 ty : UInt8} {body : List UInt8}
    {m : Option RawFrame} (hmax : (fromBeBytes b0 b1 b2 b3).toNat ≤ maxMuxPayload)
    (hlen : (fromBeBytes b0 b1 b2 b3).toNat ≤ body.length)
    (hok : interpret ty (body.take (fromBeBytes b0 b1 b2 b3).toNat) = .ok m) :
    scanFrame (b0 :: b1 :: b2 :: b3 :: ty :: body) =
      .unit (headerSize + (fromBeBytes b0 b1 b2 b3).toNat) m := by
  unfold scanFrame
  dsimp only
  rw [if_neg (by omega), if_neg (by omega), hok]

private theorem scanFrame_bad_append {xs : List UInt8} {e : MuxError} (ys : List UInt8)
    (h : scanFrame xs = .bad e) : scanFrame (xs ++ ys) = .bad e := by
  unfold scanFrame at h
  split at h
  next b0 b1 b2 b3 ty body =>
    simp only [List.cons_append, scanFrame]
    dsimp only at h
    split at h
    next hmax =>
      rw [if_pos hmax]
      exact h
    next hmax =>
      split at h
      · cases h
      · rw [if_neg hmax, if_neg (by rw [List.length_append]; omega),
          List.take_append_of_le_length (by omega)]
        exact h
  next => cases h

/-- The reference grammar of the channel. -/
def grammar : Grammar UInt8 RawFrame MuxError where
  scan := scanFrame
  unit_pos := by
    intro xs n m h
    obtain ⟨b0, b1, b2, b3, ty, body, -, -, -, -, rfl⟩ := scanFrame_unit h
    simp only [headerSize]
    omega
  unit_le := by
    intro xs n m h
    obtain ⟨b0, b1, b2, b3, ty, body, rfl, -, hlen, -, rfl⟩ := scanFrame_unit h
    simp only [headerSize, List.length_cons]
    omega
  unit_take := by
    intro xs n m h
    obtain ⟨b0, b1, b2, b3, ty, body, rfl, hmax, hlen, hok, rfl⟩ := scanFrame_unit h
    have hcut : (b0 :: b1 :: b2 :: b3 :: ty :: body).take
        (headerSize + (fromBeBytes b0 b1 b2 b3).toNat) =
          b0 :: b1 :: b2 :: b3 :: ty :: body.take (fromBeBytes b0 b1 b2 b3).toNat := by
      rw [headerSize, Nat.add_comm]
      rfl
    rw [hcut]
    apply scanFrame_of_parts hmax
    · rw [List.length_take]
      omega
    · rwa [List.take_take, Nat.min_self]
  unit_append := by
    intro xs n m ys h
    obtain ⟨b0, b1, b2, b3, ty, body, rfl, hmax, hlen, hok, rfl⟩ := scanFrame_unit h
    simp only [List.cons_append]
    apply scanFrame_of_parts hmax
    · rw [List.length_append]
      omega
    · rwa [List.take_append_of_le_length hlen]
  bad_append := scanFrame_bad_append

/-! ## The decoder reads the grammar -/

def stepOf : Scan RawFrame MuxError → LoopStep
  | .short => .exit
  | .bad e => .fail e
  | .unit n m => .advance n m

private theorem slice_append (pre xs : List UInt8) (start stop : Nat) :
    slice? (pre ++ xs) (pre.length + start) (pre.length + stop) = slice? xs start stop := by
  unfold slice?
  have hsub : pre.length + stop - (pre.length + start) = stop - start := by omega
  rw [List.drop_append, List.drop_of_length_le (by omega), List.nil_append, hsub,
    List.length_append, Nat.add_sub_cancel_left]
  simp only [Nat.add_le_add_iff_left]

private theorem slice_split (idLen : UInt8) (body : List UInt8) :
    slice? (idLen :: body) 1 (min (1 + idLen.toNat) (body.length + 1)) =
        some (body.take idLen.toNat) ∧
      slice? (idLen :: body) (min (1 + idLen.toNat) (body.length + 1)) (body.length + 1) =
        some (body.drop idLen.toNat) := by
  have hend : min (1 + idLen.toNat) (body.length + 1) =
      min idLen.toNat body.length + 1 := by omega
  rw [hend]
  unfold slice?
  constructor
  · rw [if_pos ⟨by omega, by rw [List.length_cons]; omega⟩]
    simp [← List.take_eq_take_min]
  · rw [if_pos ⟨by omega, by simp⟩, List.drop_succ_cons, List.take_of_length_le]
    · congr 1
      by_cases h : idLen.toNat ≤ body.length
      · rw [Nat.min_eq_left h]
      · rw [Nat.min_eq_right (by omega), List.drop_length, List.drop_of_length_le (by omega)]
    · rw [List.length_drop]
      omega

theorem decodePayload_eq (total : Nat) (typeByte : UInt8) (payload : List UInt8) :
    decodePayload total typeByte payload =
      some (match interpret typeByte payload with
        | .ok frame => .advance total frame
        | .error e => .fail e) := by
  unfold decodePayload interpret
  split
  · rfl
  · split
    · cases payload with
      | nil => rfl
      | cons idLen body =>
        have ⟨hid, hdata⟩ := slice_split idLen body
        simp only [List.isEmpty_cons, Bool.false_eq_true, if_false, List.getElem?_cons_zero,
          List.length_cons, Option.bind_eq_bind, Option.bind_some, hid, hdata]
        rfl
    · rfl

private theorem slice_body (b0 b1 b2 b3 ty : UInt8) {body : List UInt8} {n : Nat}
    (h : n ≤ body.length) :
    slice? (b0 :: b1 :: b2 :: b3 :: ty :: body) headerSize (headerSize + n) =
      some (body.take n) := by
  unfold slice?
  rw [if_pos ⟨by omega, by simp only [headerSize, List.length_cons]; omega⟩,
    Nat.add_sub_cancel_left]
  rfl

/-- Every index of a turn is in range, and the turn does what the grammar says of the
bytes from `offset` on. -/
theorem loopBody_eq (pre xs : List UInt8) :
    loopBody (pre ++ xs) pre.length = some (stepOf (scanFrame xs)) := by
  have hsub : checkedSub (pre ++ xs).length pre.length = some xs.length := by
    simp [checkedSub]
  have hget (i : Nat) : (pre ++ xs)[pre.length + i]? = xs[i]? := by
    rw [List.getElem?_append_right (by omega), Nat.add_sub_cancel_left]
  have hget0 : (pre ++ xs)[pre.length]? = xs[0]? := hget 0
  unfold loopBody
  simp only [hsub, hget, hget0, slice_append, decodePayload_eq, Option.bind_eq_bind,
    Option.bind_some]
  match xs with
  | [] | [_] | [_, _] | [_, _, _] | [_, _, _, _] => rfl
  | b0 :: b1 :: b2 :: b3 :: ty :: body =>
    have hnot : ¬ (b0 :: b1 :: b2 :: b3 :: ty :: body).length < headerSize := by
      simp only [headerSize, List.length_cons]
      omega
    have hshort (n : Nat) : (b0 :: b1 :: b2 :: b3 :: ty :: body).length < headerSize + n ↔
        body.length < n := by
      simp only [headerSize, List.length_cons]
      omega
    rw [if_neg hnot]
    simp only [List.getElem?_cons_zero, List.getElem?_cons_succ, Option.bind_some, scanFrame]
    generalize fromBeBytes b0 b1 b2 b3 = length
    split
    · rfl
    · by_cases hlen : body.length < length.toNat
      · rw [if_pos ((hshort _).mpr hlen), if_pos hlen]
        rfl
      · rw [if_neg (mt (hshort _).mp hlen), if_neg hlen,
          slice_body b0 b1 b2 b3 ty (by omega), Option.bind_some]
        cases interpret ty (body.take length.toNat) <;> rfl

private theorem loopBody_advance {buffer : List UInt8} {offset total : Nat}
    {frame : Option RawFrame} (h : loopBody buffer offset = some (.advance total frame)) :
    0 < total ∧ offset + total ≤ buffer.length := by
  by_cases hle : offset ≤ buffer.length
  · have hlen : (buffer.take offset).length = offset := List.length_take_of_le hle
    have heq := loopBody_eq (buffer.take offset) (buffer.drop offset)
    rw [List.take_append_drop, hlen, h] at heq
    cases hs : scanFrame (buffer.drop offset) with
    | short => simp [hs, stepOf] at heq
    | bad e => simp [hs, stepOf] at heq
    | unit n m =>
      simp only [hs, stepOf, Option.some.injEq, LoopStep.advance.injEq] at heq
      have hpos := grammar.unit_pos hs
      have hfit := grammar.unit_le hs
      rw [List.length_drop] at hfit
      omega
  · simp [loopBody, checkedSub, hle] at h

/-- The `while` loop of `push_frames`, with the frames decoded so far. -/
def frameLoop (buffer : List UInt8) (offset : Nat) (out : List RawFrame) :
    Option (Except MuxError (List RawFrame × Nat)) :=
  match _h : loopBody buffer offset with
  | none => none
  | some .exit => some (.ok (out, offset))
  | some (.fail e) => some (.error e)
  | some (.advance total frame) => frameLoop buffer (offset + total) (out ++ frame.toList)
termination_by buffer.length - offset
decreasing_by
  have := loopBody_advance _h
  omega

/-- A rejected chunk stays in the buffer, and the frames decoded in front of the
malformed one are dropped with the error. -/
def MuxDecoder.pushFrames (decoder : MuxDecoder) (chunk : List UInt8) :
    Option (Except MuxError (List RawFrame) × MuxDecoder) :=
  let buffer := decoder.buffer ++ chunk
  match frameLoop buffer 0 [] with
  | none => none
  | some (.error e) => some (.error e, ⟨buffer⟩)
  | some (.ok (out, offset)) =>
    some (.ok out, ⟨if 0 < offset then buffer.drop offset else buffer⟩)

/-- A decoded message; `C` is the type of parsed control messages. -/
inductive MuxMessage (C : Type) where
  | control (message : C)
  | data (sessionId : String) (data : List UInt8)
  deriving DecidableEq, Repr

def toMessage {C : Type} (parse : List UInt8 → Option C) :
    RawFrame → Except MuxError (MuxMessage C)
  | .control payload =>
    match parse payload with
    | some message => .ok (.control message)
    | none => .error .badControl
  | .data sessionId data => .ok (.data sessionId data)

/-- `pushFrames` followed by the strict parse of the control payloads. -/
def MuxDecoder.push {C : Type} (parse : List UInt8 → Option C) (decoder : MuxDecoder)
    (chunk : List UInt8) : Option (Except MuxError (List (MuxMessage C)) × MuxDecoder) :=
  (decoder.pushFrames chunk).map fun r => (r.1.bind fun frames => frames.mapM (toMessage parse), r.2)

/-- What a push has read so far when it starts at `pre.length`. -/
theorem frameLoop_eq (pre xs : List UInt8) (out : List RawFrame) :
    match (grammar.parse xs).ending with
    | .waiting rest => ∃ n, xs.drop n = rest ∧
        frameLoop (pre ++ xs) pre.length out =
          some (.ok (out ++ (grammar.parse xs).messages, pre.length + n))
    | .failed e => frameLoop (pre ++ xs) pre.length out = some (.error e) := by
  induction xs using Grammar.parse.induct grammar generalizing pre out with
  | case1 xs hs =>
    rw [grammar.parse_short hs]
    refine ⟨0, rfl, ?_⟩
    have hb := loopBody_eq pre xs
    rw [show scanFrame xs = .short from hs] at hb
    rw [frameLoop]
    split <;> simp_all [stepOf]
  | case2 xs e hs =>
    rw [grammar.parse_bad hs]
    have hb := loopBody_eq pre xs
    rw [show scanFrame xs = .bad e from hs] at hb
    change frameLoop (pre ++ xs) pre.length out = some (.error e)
    rw [frameLoop]
    split <;> simp_all [stepOf]
  | case3 xs n m hs ih =>
    have hb := loopBody_eq pre xs
    rw [show scanFrame xs = .unit n m from hs] at hb
    have hle := grammar.unit_le hs
    have hloop : frameLoop (pre ++ xs) pre.length out =
        frameLoop ((pre ++ xs.take n) ++ xs.drop n) (pre ++ xs.take n).length
          (out ++ m.toList) := by
      rw [List.append_assoc, List.take_append_drop, List.length_append, List.length_take,
        Nat.min_eq_left hle]
      conv_lhs => rw [frameLoop]
      split <;> simp_all [stepOf]
    have hrest := ih (pre ++ xs.take n) (out ++ m.toList)
    rw [grammar.parse_unit hs, Parse.ending_after, Parse.messages_after, hloop]
    cases he : (grammar.parse (xs.drop n)).ending with
    | failed e =>
      rw [he] at hrest
      exact hrest
    | waiting rest =>
      rw [he] at hrest
      obtain ⟨k, hk, hrun⟩ := hrest
      refine ⟨n + k, by rw [← hk, List.drop_drop], ?_⟩
      rw [hrun, List.append_assoc, List.length_append, List.length_take, Nat.min_eq_left hle,
        Nat.add_assoc]

/-- A push as a function of the buffered bytes. -/
def readFrames : Push UInt8 RawFrame MuxError := fun buffer chunk =>
  ((MuxDecoder.mk buffer).pushFrames chunk).map fun r => (r.1, r.2.buffer)

theorem readFrames_implements : Implements grammar readFrames := by
  intro buffer chunk
  have h := frameLoop_eq [] (buffer ++ chunk) []
  simp only [List.nil_append, List.length_nil, Nat.zero_add] at h
  cases he : (grammar.parse (buffer ++ chunk)).ending with
  | waiting rest =>
    rw [he] at h
    obtain ⟨n, hn, hrun⟩ := h
    simp only [readFrames, MuxDecoder.pushFrames, hrun, Option.map_some]
    congr 2
    split
    · exact hn
    · have hzero : n = 0 := by omega
      rw [← hn, hzero, List.drop_zero]
  | failed e =>
    rw [he] at h
    exact ⟨buffer ++ chunk, by simp only [readFrames, MuxDecoder.pushFrames, h, Option.map_some]⟩

/-- Feed a fresh decoder until one of the pushes fails. -/
def pushAll (chunks : List (List UInt8)) : Option (Feed UInt8 RawFrame MuxError) :=
  feed readFrames MuxDecoder.new.buffer chunks

end Climon.Remote.Mux
