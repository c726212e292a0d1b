import Climon.Remote.Mux

namespace Climon.Remote.MuxStream

open Climon.Lib.Framing Climon.Lib.Utf8 Climon.Remote.Mux

/-- What a peer may put on the wire: the two known kinds, or a frame of another type. -/
inductive Item where
  | control (json : List UInt8)
  | data (sessionId : String) (bytes : List UInt8)
  | unknown (typeByte : UInt8) (payload : List UInt8)
  deriving DecidableEq, Repr

def Item.encode : Item → Except MuxError (List UInt8)
  | .control json => .ok (encodeControl json)
  | .data sessionId bytes => encodeData sessionId bytes
  | .unknown typeByte payload => .ok (envelope typeByte payload)

def Item.typeByte : Item → UInt8
  | .control _ => MuxType.control.byte
  | .data _ _ => MuxType.data.byte
  | .unknown typeByte _ => typeByte

def Item.payload : Item → List UInt8
  | .control json => json
  | .data sessionId bytes => dataPayload sessionId bytes
  | .unknown _ payload => payload

def Item.message : Item → Option RawFrame
  | .control json => some (.control json)
  | .data sessionId bytes => some (.data sessionId bytes)
  | .unknown _ _ => none

structure Item.Valid (item : Item) : Prop where
  fits : item.payload.length ≤ maxMuxPayload
  id_fits : ∀ sessionId bytes, item = .data sessionId bytes → (asBytes sessionId).length ≤ 255
  unknown_type : ∀ typeByte payload, item = .unknown typeByte payload →
    typeByte ≠ MuxType.control.byte ∧ typeByte ≠ MuxType.data.byte

def Item.frame (item : Item) : List UInt8 := envelope item.typeByte item.payload

theorem Item.Valid.encode_eq {item : Item} (h : item.Valid) : item.encode = .ok item.frame := by
  cases item with
  | control json => rfl
  | data sessionId bytes =>
    have hid := h.id_fits sessionId bytes rfl
    simp only [Item.encode, encodeData, Item.frame, Item.typeByte, Item.payload]
    rw [if_neg (by omega)]
  | unknown typeByte payload => rfl

theorem Item.Valid.interpret_eq {item : Item} (h : item.Valid) :
    interpret item.typeByte item.payload = .ok item.message := by
  cases item with
  | control json => rfl
  | data sessionId bytes =>
    have hid := h.id_fits sessionId bytes rfl
    have hlen : (UInt8.ofNat (asBytes sessionId).length).toNat = (asBytes sessionId).length := by
      rw [UInt8.toNat_ofNat']
      omega
    change interpret MuxType.data.byte (dataPayload sessionId bytes) = _
    unfold interpret dataPayload
    rw [if_neg (by decide), if_pos rfl]
    dsimp only
    rw [hlen, List.take_left, List.drop_left, fromUtf8Lossy_asBytes]
    rfl
  | unknown typeByte payload =>
    have ⟨hcontrol, hdata⟩ := h.unknown_type typeByte payload rfl
    change interpret typeByte payload = .ok none
    unfold interpret
    rw [if_neg hcontrol, if_neg hdata]

theorem length_toNat {payload : List UInt8} (h : payload.length ≤ maxMuxPayload) :
    (UInt32.ofNat payload.length).toNat = payload.length := by
  simp only [maxMuxPayload] at h
  rw [UInt32.toNat_ofNat']
  omega

/-- The grammar finds an enveloped payload whole, whatever follows it. -/
theorem scanFrame_envelope {typeByte : UInt8} {payload : List UInt8} {m : Option RawFrame}
    (hfits : payload.length ≤ maxMuxPayload) (hok : interpret typeByte payload = .ok m)
    (rest : List UInt8) :
    scanFrame (envelope typeByte payload ++ rest) =
      .unit (envelope typeByte payload).length m := by
  have hlen := length_toNat hfits
  simp only [envelope, toBeBytes, List.cons_append, List.nil_append, List.length_cons, scanFrame]
  rw [fromBeBytes_toBeBytes, hlen, if_neg (by omega),
    if_neg (by rw [List.length_append]; omega), List.take_left, hok]
  simp only [headerSize]
  congr 1
  omega

theorem parse_frames {items : List Item} (h : ∀ item ∈ items, item.Valid) :
    grammar.parse (items.map Item.frame).flatten =
      ⟨items.filterMap Item.message, .waiting []⟩ := by
  induction items with
  | nil => exact grammar.parse_short rfl
  | cons item items ih =>
    have hitem := h item List.mem_cons_self
    have hscan : grammar.scan item.frame = .unit item.frame.length item.message := by
      have := scanFrame_envelope hitem.fits hitem.interpret_eq []
      rwa [List.append_nil] at this
    rw [List.map_cons, List.flatten_cons, grammar.parse_unit_append hscan,
      ih fun i hi => h i (List.mem_cons_of_mem _ hi)]
    cases hm : item.message <;> simp [Parse.after, hm]

theorem mapM_encode {items : List Item} (h : ∀ item ∈ items, item.Valid) :
    items.mapM Item.encode = .ok (items.map Item.frame) := by
  induction items with
  | nil => rfl
  | cons item items ih =>
    rw [List.mapM_cons, (h item List.mem_cons_self).encode_eq,
      ih fun i hi => h i (List.mem_cons_of_mem _ hi)]
    rfl

/-! ## Malformed frames -/

/-- A frame whose length is honest and within bounds; a data frame has its length prefix. -/
def WellFormed (frame : List UInt8) : Prop :=
  ∃ typeByte payload, frame = envelope typeByte payload ∧ payload.length ≤ maxMuxPayload ∧
    (typeByte = MuxType.data.byte → payload ≠ [])

/-- A complete header that announces too much, or a data frame without a payload. -/
def MalformedHead (bytes : List UInt8) : Prop :=
  ∃ b0 b1 b2 b3 typeByte body, bytes = b0 :: b1 :: b2 :: b3 :: typeByte :: body ∧
    (maxMuxPayload < (fromBeBytes b0 b1 b2 b3).toNat ∨
      (fromBeBytes b0 b1 b2 b3).toNat = 0 ∧ typeByte = MuxType.data.byte)

def MalformedBehindComplete (bytes : List UInt8) : Prop :=
  ∃ (frames : List (List UInt8)) (tail : List UInt8), bytes = frames.flatten ++ tail ∧
    (∀ frame ∈ frames, WellFormed frame) ∧ MalformedHead tail

theorem interpret_ok_iff (typeByte : UInt8) (payload : List UInt8) :
    (∃ m, interpret typeByte payload = .ok m) ↔
      (typeByte = MuxType.data.byte → payload ≠ []) := by
  unfold interpret
  split
  next h =>
    simp [h, MuxType.byte]
  next =>
    split
    next h =>
      cases payload with
      | nil => simp [h]
      | cons idLen body => simp
    next h => simp [h]

theorem complete_iff (frame : List UInt8) : grammar.Complete frame ↔ WellFormed frame := by
  constructor
  · rintro ⟨m, hm⟩
    obtain ⟨b0, b1, b2, b3, ty, body, rfl, hmax, -, hok, hn⟩ := scanFrame_unit hm
    have hlen : body.length = (fromBeBytes b0 b1 b2 b3).toNat := by
      simp only [List.length_cons, headerSize] at hn
      omega
    rw [← hlen, List.take_length] at hok
    refine ⟨ty, body, ?_, by omega, (interpret_ok_iff ty body).mp ⟨m, hok⟩⟩
    rw [envelope, hlen, UInt32.ofNat_toNat, toBeBytes_fromBeBytes]
    rfl
  · rintro ⟨typeByte, payload, rfl, hfits, hdata⟩
    obtain ⟨m, hm⟩ := (interpret_ok_iff typeByte payload).mpr hdata
    refine ⟨m, ?_⟩
    have := scanFrame_envelope hfits hm []
    rwa [List.append_nil] at this

theorem bad_iff (bytes : List UInt8) : (∃ e, scanFrame bytes = .bad e) ↔ MalformedHead bytes := by
  constructor
  · rintro ⟨e, h⟩
    unfold scanFrame at h
    split at h
    next b0 b1 b2 b3 ty body =>
      refine ⟨b0, b1, b2, b3, ty, body, rfl, ?_⟩
      dsimp only at h
      split at h
      next hmax => exact .inl hmax
      next hmax =>
        split at h
        · cases h
        next hlen =>
          have hnot : ¬ ∃ m, interpret ty (body.take (fromBeBytes b0 b1 b2 b3).toNat) = .ok m := by
            rintro ⟨m, hm⟩
            simp [hm] at h
          rw [interpret_ok_iff] at hnot
          simp only [Classical.not_imp, not_not] at hnot
          have hzero := congrArg List.length hnot.2
          rw [List.length_take, List.length_nil] at hzero
          exact .inr ⟨by omega, hnot.1⟩
    next => cases h
  · rintro ⟨b0, b1, b2, b3, ty, body, rfl, hbad⟩
    cases hbad with
    | inl hmax => exact ⟨_, by simp only [scanFrame]; rw [if_pos hmax]⟩
    | inr hempty =>
      obtain ⟨hzero, hty⟩ := hempty
      refine ⟨.malformedData, ?_⟩
      simp only [scanFrame, hzero, hty, Nat.not_lt_zero, if_false, List.take_zero]
      rfl

theorem failed_iff_malformed (bytes : List UInt8) :
    (∃ e, (grammar.parse bytes).ending = .failed e) ↔ MalformedBehindComplete bytes := by
  simp only [grammar.failed_iff, MalformedBehindComplete, ← complete_iff, ← bad_iff]
  constructor
  · rintro ⟨e, units, tail, hx, hu, ht⟩
    exact ⟨units, tail, hx, hu, e, ht⟩
  · rintro ⟨units, tail, hx, hu, e, ht⟩
    exact ⟨e, units, tail, hx, hu, ht⟩

/-! ## The decoder under any chunking -/

theorem pushAll_items {items : List Item} (h : ∀ item ∈ items, item.Valid)
    {chunks : List (List UInt8)} (hc : chunks.flatten = (items.map Item.frame).flatten) :
    pushAll chunks = some ⟨items.filterMap Item.message, none, []⟩ := by
  have hparse := parse_frames h
  have hw : (grammar.parse ([] ++ chunks.flatten)).ending = .waiting [] := by
    rw [List.nil_append, hc, hparse]
  have hfeed := feed_waiting readFrames_implements rfl hw
  rw [List.nil_append, hc, hparse] at hfeed
  exact hfeed

theorem pushAll_spec (chunks : List (List UInt8)) :
    ∃ f, pushAll chunks = some f ∧ f.delivered <+: (grammar.parse chunks.flatten).messages ∧
      (f.error.isSome ↔ MalformedBehindComplete chunks.flatten) := by
  have hnew : grammar.scan MuxDecoder.new.buffer = .short := rfl
  obtain ⟨f, hfeed, hd, he⟩ := feed_spec readFrames_implements chunks hnew
  refine ⟨f, hfeed, hd, ?_⟩
  rw [← failed_iff_malformed, Option.isSome_iff_exists]
  exact exists_congr he

theorem pushFrames_isSome (decoder : MuxDecoder) (chunk : List UInt8) :
    (decoder.pushFrames chunk).isSome := by
  have h := readFrames_implements decoder.buffer chunk
  cases he : (grammar.parse (decoder.buffer ++ chunk)).ending with
  | waiting rest =>
    rw [he] at h
    have := congrArg Option.isSome h
    simpa [readFrames] using this
  | failed e =>
    rw [he] at h
    obtain ⟨kept, hk⟩ := h
    have := congrArg Option.isSome hk
    simpa [readFrames] using this

theorem push_isSome {C : Type} (parse : List UInt8 → Option C) (decoder : MuxDecoder)
    (chunk : List UInt8) : (decoder.push parse chunk).isSome := by
  rw [MuxDecoder.push, Option.isSome_map]
  exact pushFrames_isSome decoder chunk

/-- The decoder against its grammar: valid items come out whole and in order however the
bytes are cut, and on arbitrary bytes it neither panics nor delivers anything from behind a
malformed frame, which it reports as soon as the frame's header is there. -/
theorem pushAll_reads_grammar :
    (∀ items : List Item, (∀ item ∈ items, item.Valid) →
      ∃ frames, items.mapM Item.encode = .ok frames ∧
        ∀ chunks : List (List UInt8), chunks.flatten = frames.flatten →
          pushAll chunks = some ⟨items.filterMap Item.message, none, []⟩) ∧
    (∀ chunks : List (List UInt8), ∃ f, pushAll chunks = some f ∧
      f.delivered <+: (grammar.parse chunks.flatten).messages ∧
      (f.error.isSome ↔ MalformedBehindComplete chunks.flatten)) ∧
    (∀ (C : Type) (parse : List UInt8 → Option C) (decoder : MuxDecoder) (chunk : List UInt8),
      (decoder.push parse chunk).isSome) := by
  refine ⟨?_, pushAll_spec, ?_⟩
  · intro items h
    exact ⟨_, mapM_encode h, fun chunks hc => pushAll_items h hc⟩
  · intro C parse decoder chunk
    exact push_isSome parse decoder chunk

private def sampleItems : List Item :=
  [.control [0x7B, 0x7D], .unknown 9 [5], .data "s1" [1, 2]]

private theorem sampleItems_valid : ∀ item ∈ sampleItems, item.Valid := by
  intro item h
  simp only [sampleItems, List.mem_cons, List.not_mem_nil, or_false] at h
  rcases h with rfl | rfl | rfl
  · exact ⟨by decide, by simp, by simp⟩
  · exact ⟨by decide, by simp, by rintro typeByte payload ⟨⟩; decide⟩
  · exact ⟨by decide, by rintro sessionId bytes ⟨⟩; decide, by simp⟩

theorem pushAll_reads_split_frames :
    pushAll [[0, 0], [0, 2, 1, 0x7B, 0x7D, 0, 0, 0, 1, 9, 5, 0, 0, 0], [5, 2, 2, 115, 49, 1, 2]] =
      some ⟨[.control [0x7B, 0x7D], .data "s1" [1, 2]], none, []⟩ := by
  obtain ⟨frames, hf, hrun⟩ := pushAll_reads_grammar.1 sampleItems sampleItems_valid
  rw [mapM_encode sampleItems_valid] at hf
  cases hf
  exact hrun _ (by decide)

end Climon.Remote.MuxStream
