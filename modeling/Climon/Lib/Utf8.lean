import Mathlib.Data.List.Basic

namespace Climon.Lib.Utf8

/-! # Lossy UTF-8 decoding -/

/-- The bytes of a string. -/
def asBytes (s : String) : List UInt8 := s.toList.flatMap String.utf8EncodeChar

def isContinuation (b : UInt8) : Bool := 0x80 ≤ b && b ≤ 0xBF

/-- Second bytes that keep a multi-byte sequence free of overlong forms, surrogates
and scalars past U+10FFFF. -/
def secondByteOk (first second : UInt8) : Bool :=
  if first = 0xE0 then 0xA0 ≤ second && second ≤ 0xBF
  else if first = 0xED then 0x80 ≤ second && second ≤ 0x9F
  else if first = 0xF0 then 0x90 ≤ second && second ≤ 0xBF
  else if first = 0xF4 then 0x80 ≤ second && second ≤ 0x8F
  else isContinuation second

/-- The length of the maximal subpart at the front of an undecodable sequence, which
one replacement character stands for. -/
def subpartLength : List UInt8 → Nat
  | first :: second :: rest =>
    if 0xE0 ≤ first && first ≤ 0xF4 && secondByteOk first second then
      if 0xF0 ≤ first && rest.head?.any isContinuation then 3 else 2
    else 1
  | _ => 1

/-- Decode the scalar at the front, or say how many bytes to replace. -/
def decodeFront (bytes : List UInt8) : Char × Nat :=
  match (bytes.take 4).toByteArray.utf8DecodeChar? 0 with
  | some c => (c, c.utf8Size)
  | none => ('\uFFFD', subpartLength bytes)

def lossyChars : List UInt8 → List Char
  | [] => []
  | b :: bytes =>
    let front := decodeFront (b :: bytes)
    front.1 :: lossyChars (bytes.drop (front.2 - 1))
termination_by bytes => bytes.length
decreasing_by
  simp only [List.length_drop, List.length_cons]
  omega

/-- Replace every maximal ill-formed subpart by U+FFFD. -/
def fromUtf8Lossy (bytes : List UInt8) : String := String.ofList (lossyChars bytes)

theorem decode_encodeChar_append (c : Char) (rest : List UInt8) :
    ((String.utf8EncodeChar c ++ rest).take 4).toByteArray.utf8DecodeChar? 0 = some c := by
  have hlen : (String.utf8EncodeChar c).length ≤ 4 := by
    rw [String.length_utf8EncodeChar]
    exact Char.utf8Size_le_four c
  rw [List.take_append, List.take_of_length_le hlen, List.toByteArray_append]
  exact ByteArray.utf8DecodeChar?_utf8EncodeChar_append

theorem decodeFront_encodeChar_append (c : Char) (rest : List UInt8) :
    decodeFront (String.utf8EncodeChar c ++ rest) = (c, c.utf8Size) := by
  simp only [decodeFront, decode_encodeChar_append]

theorem lossyChars_encodeChar_append (c : Char) (rest : List UInt8) :
    lossyChars (String.utf8EncodeChar c ++ rest) = c :: lossyChars rest := by
  have hfront := decodeFront_encodeChar_append c rest
  have hlen := String.length_utf8EncodeChar c
  cases hb : String.utf8EncodeChar c with
  | nil =>
    rw [hb] at hlen
    have := Char.utf8Size_pos c
    simp at hlen
    omega
  | cons b bytes =>
    rw [hb, List.cons_append] at hfront
    rw [hb, List.length_cons] at hlen
    rw [List.cons_append, lossyChars, hfront]
    simp only [← hlen, Nat.add_sub_cancel, List.drop_left]

/-- Well-formed text survives lossy decoding, whatever follows it. -/
theorem lossyChars_asBytes (text : List Char) (rest : List UInt8) :
    lossyChars (text.flatMap String.utf8EncodeChar ++ rest) = text ++ lossyChars rest := by
  induction text with
  | nil => rfl
  | cons c text ih =>
    rw [List.flatMap_cons, List.append_assoc, lossyChars_encodeChar_append, ih, List.cons_append]

@[simp] theorem lossyChars_encode (text : List Char) :
    lossyChars (text.flatMap String.utf8EncodeChar) = text := by
  have htext := lossyChars_asBytes text []
  rwa [List.append_nil, lossyChars, List.append_nil] at htext

@[simp] theorem fromUtf8Lossy_asBytes (s : String) : fromUtf8Lossy (asBytes s) = s := by
  rw [fromUtf8Lossy, asBytes, lossyChars_encode, String.ofList_toList]

/-! ## What decoding leaves alone -/

theorem encodeChar_of_ascii {b : UInt8} (h : b < 0x80) :
    String.utf8EncodeChar (Char.ofUInt8 b) = [b] := by
  have hval : (Char.ofUInt8 b).val = b.toUInt32 := rfl
  have hsize : (Char.ofUInt8 b).utf8Size = 1 := by
    rw [Char.utf8Size_eq_one_iff, hval, UInt32.le_iff_toNat_le, UInt8.toNat_toUInt32]
    rw [UInt8.lt_iff_toNat_lt] at h
    exact Nat.le_of_lt_succ h
  rw [String.utf8EncodeChar_eq_singleton hsize, hval]
  simp

theorem wide_or {b m : UInt8} (hm : 0x80 ≤ m) : 0x80 ≤ b ||| m := by
  apply UInt8.le_trans hm
  rw [UInt8.le_iff_toNat_le, UInt8.toNat_or]
  exact Nat.right_le_or

/-- A scalar is encoded as one ASCII byte or without any. -/
theorem encodeChar_wide {c : Char} (h : c.utf8Size ≠ 1) {b : UInt8}
    (hb : b ∈ String.utf8EncodeChar c) : 0x80 ≤ b := by
  have hpos := Char.utf8Size_pos c
  have hle := Char.utf8Size_le_four c
  have hsize : c.utf8Size = 2 ∨ c.utf8Size = 3 ∨ c.utf8Size = 4 := by omega
  rcases hsize with hsize | hsize | hsize
  · rw [String.utf8EncodeChar_eq_cons_cons hsize] at hb
    simp only [List.mem_cons, List.not_mem_nil, or_false] at hb
    rcases hb with rfl | rfl <;> exact wide_or (by decide)
  · rw [String.utf8EncodeChar_eq_cons_cons_cons hsize] at hb
    simp only [List.mem_cons, List.not_mem_nil, or_false] at hb
    rcases hb with rfl | rfl | rfl <;> exact wide_or (by decide)
  · rw [String.utf8EncodeChar_eq_cons_cons_cons_cons hsize] at hb
    simp only [List.mem_cons, List.not_mem_nil, or_false] at hb
    rcases hb with rfl | rfl | rfl | rfl <;> exact wide_or (by decide)

theorem subpartLength_pos (bytes : List UInt8) : 0 < subpartLength bytes := by
  fun_cases subpartLength bytes <;> simp

theorem isContinuation_wide {b : UInt8} (h : isContinuation b = true) : 0x80 ≤ b := by
  simp only [isContinuation, Bool.and_eq_true, decide_eq_true_eq] at h
  exact h.1

theorem secondByteOk_wide {first second : UInt8} (h : secondByteOk first second = true) :
    0x80 ≤ second := by
  unfold secondByteOk at h
  split_ifs at h
  · simp only [Bool.and_eq_true, decide_eq_true_eq] at h
    exact UInt8.le_trans (by decide) h.1
  · simp only [Bool.and_eq_true, decide_eq_true_eq] at h
    exact h.1
  · simp only [Bool.and_eq_true, decide_eq_true_eq] at h
    exact UInt8.le_trans (by decide) h.1
  · simp only [Bool.and_eq_true, decide_eq_true_eq] at h
    exact h.1
  · exact isContinuation_wide h

/-- One replacement character stands for bytes past ASCII only. -/
theorem subpart_wide {b : UInt8} {bytes : List UInt8} (hb : 0x80 ≤ b) :
    ∀ b' ∈ (b :: bytes).take (subpartLength (b :: bytes)), 0x80 ≤ b' := by
  rcases bytes with _ | ⟨second, rest⟩
  · simpa [subpartLength] using hb
  · simp only [subpartLength]
    split_ifs with hok hthird
    · simp only [Bool.and_eq_true] at hok hthird
      rcases rest with _ | ⟨third, rest⟩
      · simp at hthird
      · have hcont : isContinuation third = true := by simpa using hthird.2
        simp [hb, secondByteOk_wide hok.2, isContinuation_wide hcont]
    · simp only [Bool.and_eq_true] at hok
      simp [hb, secondByteOk_wide hok.2]
    · simpa using hb

theorem decodeFront_some {bytes : List UInt8} {c : Char}
    (h : (bytes.take 4).toByteArray.utf8DecodeChar? 0 = some c) :
    ∃ rest, bytes = String.utf8EncodeChar c ++ rest := by
  obtain ⟨tail, htail⟩ := ByteArray.exists_of_utf8DecodeChar?_eq_some h
  have hlist := congrArg (fun b => b.data.toList) htail
  simp only [List.data_toByteArray, ByteArray.data_append, Array.toList_append] at hlist
  exact ⟨tail.data.toList ++ bytes.drop 4, by
    rw [← List.append_assoc, ← hlist, List.take_append_drop]⟩

/-- The front of a stream is the encoding of a scalar, or bytes none of which is ASCII. -/
theorem lossyChars_front (b : UInt8) (bytes : List UInt8) :
    ∃ read rest, b :: bytes = read ++ rest ∧ rest.length ≤ bytes.length ∧
      ∃ c, lossyChars (b :: bytes) = c :: lossyChars rest ∧
        (read = String.utf8EncodeChar c ∨
          read ≠ [] ∧ (∀ b ∈ read, 0x80 ≤ b) ∧ c = '\uFFFD') := by
  cases hdecode : ((b :: bytes).take 4).toByteArray.utf8DecodeChar? 0 with
  | some c =>
    obtain ⟨rest, hrest⟩ := decodeFront_some hdecode
    have hlen := congrArg List.length hrest
    have hpos := Char.utf8Size_pos c
    simp only [List.length_cons, List.length_append, String.length_utf8EncodeChar] at hlen
    exact ⟨_, rest, hrest, by omega, c, by rw [hrest, lossyChars_encodeChar_append], .inl rfl⟩
  | none =>
    have hb : 0x80 ≤ b := by
      by_contra hascii
      have hsome := decode_encodeChar_append (Char.ofUInt8 b) bytes
      rw [encodeChar_of_ascii (UInt8.not_le.mp hascii), List.singleton_append, hdecode] at hsome
      cases hsome
    have hpos := subpartLength_pos (b :: bytes)
    refine ⟨_, (b :: bytes).drop (subpartLength (b :: bytes)), (List.take_append_drop _ _).symm, ?_,
      '\uFFFD', ?_, .inr ⟨?_, subpart_wide hb, rfl⟩⟩
    · simp only [List.length_drop, List.length_cons]
      omega
    · rw [lossyChars, decodeFront, hdecode]
      simp only [List.drop_cons hpos]
    · simp
      omega

/-! ## Decoding up to an ASCII byte -/

section

variable {b : UInt8} {bytes rest : List UInt8}

theorem secondByteOk_ascii {first : UInt8} (h : b < 0x80) : secondByteOk first b = false := by
  by_contra hok
  exact absurd (secondByteOk_wide (Bool.not_eq_false _ ▸ hok)) (UInt8.not_le.mpr h)

theorem isContinuation_ascii (h : b < 0x80) : isContinuation b = false := by
  by_contra hok
  exact absurd (isContinuation_wide (Bool.not_eq_false _ ▸ hok)) (UInt8.not_le.mpr h)

theorem subpartLength_append (h : b < 0x80) (hne : bytes ≠ []) :
    subpartLength (bytes ++ b :: rest) = subpartLength bytes := by
  match bytes, hne with
  | [first], _ => simp [subpartLength, secondByteOk_ascii h]
  | [first, second], _ => simp [subpartLength, isContinuation_ascii h]
  | first :: second :: third :: bytes, _ => simp [subpartLength]

theorem subpartLength_le (hne : bytes ≠ []) : subpartLength bytes ≤ bytes.length := by
  match bytes, hne with
  | [first], _ => simp [subpartLength]
  | [first, second], _ => simp [subpartLength]; split_ifs <;> omega
  | first :: second :: third :: bytes, _ => simp [subpartLength]; split_ifs <;> omega

theorem lossyChars_cons_none (h : ((b :: bytes).take 4).toByteArray.utf8DecodeChar? 0 = none) :
    lossyChars (b :: bytes) =
      '\uFFFD' :: lossyChars (bytes.drop (subpartLength (b :: bytes) - 1)) := by
  rw [lossyChars, decodeFront, h]

/-- An ASCII byte does not complete a scalar. -/
theorem decode_none_append (h : b < 0x80) (hne : bytes ≠ [])
    (hnone : (bytes.take 4).toByteArray.utf8DecodeChar? 0 = none) :
    ((bytes ++ b :: rest).take 4).toByteArray.utf8DecodeChar? 0 = none := by
  rw [Option.eq_none_iff_forall_not_mem]
  intro c hc
  have hshort : ∀ tail, bytes ≠ String.utf8EncodeChar c ++ tail := by
    rintro tail rfl
    rw [decode_encodeChar_append] at hnone
    cases hnone
  obtain ⟨tail, htail⟩ := decodeFront_some hc
  rcases List.append_eq_append_iff.mp htail with ⟨more, hbytes, hmore⟩ | ⟨more, hbytes, -⟩
  · cases more with
    | nil => exact hshort [] (by rw [hbytes, List.append_nil, List.append_nil])
    | cons b' more =>
      obtain ⟨rfl, -⟩ := List.cons.inj hmore
      have hwide : c.utf8Size ≠ 1 := by
        have hlen := congrArg List.length hbytes
        have hpos := List.length_pos_iff.mpr hne
        rw [String.length_utf8EncodeChar, List.length_append, List.length_cons] at hlen
        omega
      have hmem : b ∈ String.utf8EncodeChar c := by
        rw [hbytes]
        exact List.mem_append_right bytes List.mem_cons_self
      exact absurd (encodeChar_wide hwide hmem) (UInt8.not_le.mpr h)
  · exact hshort more hbytes

/-- What stands before an ASCII byte is decoded on its own. -/
theorem lossyChars_append (h : b < 0x80) :
    lossyChars (bytes ++ b :: rest) = lossyChars bytes ++ Char.ofUInt8 b :: lossyChars rest := by
  induction hlen : bytes.length using Nat.strongRecOn generalizing bytes with
  | ind n ih =>
    cases bytes with
    | nil =>
      have hascii := lossyChars_encodeChar_append (Char.ofUInt8 b) rest
      rw [encodeChar_of_ascii h] at hascii
      simpa [lossyChars] using hascii
    | cons first bytes =>
      subst hlen
      cases hdecode : ((first :: bytes).take 4).toByteArray.utf8DecodeChar? 0 with
      | some c =>
        obtain ⟨tail, htail⟩ := decodeFront_some hdecode
        have hshort : tail.length < (first :: bytes).length := by
          have hpos := Char.utf8Size_pos c
          rw [htail, List.length_append, String.length_utf8EncodeChar]
          omega
        rw [htail, List.append_assoc, lossyChars_encodeChar_append, lossyChars_encodeChar_append,
          ih _ hshort rfl, List.cons_append]
      | none =>
        have hne : first :: bytes ≠ [] := List.cons_ne_nil first bytes
        have hlong := @decode_none_append b (first :: bytes) rest h hne hdecode
        have hle := subpartLength_le hne
        have hshort : (bytes.drop (subpartLength (first :: bytes) - 1)).length <
            (first :: bytes).length := by
          rw [List.length_drop, List.length_cons]
          omega
        have hdrop : subpartLength (first :: bytes) - 1 ≤ bytes.length := by
          rw [List.length_cons] at hle
          omega
        rw [List.cons_append] at hlong
        rw [lossyChars_cons_none hdecode, List.cons_append, lossyChars_cons_none hlong,
          ← List.cons_append, subpartLength_append h hne, List.cons_append, ← ih _ hshort rfl,
          List.drop_append_of_le_length hdrop]

end

section

variable {σ : Type} {f : σ → UInt8 → σ} {reset : σ → σ} {s : σ}

theorem foldl_wide (hwide : ∀ s b, 0x80 ≤ b → f s b = reset s)
    (hreset : ∀ s, reset (reset s) = reset s) {bytes : List UInt8} (hne : bytes ≠ [])
    (h : ∀ b ∈ bytes, 0x80 ≤ b) : bytes.foldl f s = reset s := by
  induction bytes generalizing s with
  | nil => exact absurd rfl hne
  | cons b bytes ih =>
    rw [List.forall_mem_cons] at h
    rw [List.foldl_cons, hwide s b h.1]
    cases bytes with
    | nil => rfl
    | cons b' bytes => rw [ih (by simp) h.2, hreset]

/-- A reader that every byte past ASCII resets reads the same from the decoded text. -/
theorem foldl_fromUtf8Lossy (hwide : ∀ s b, 0x80 ≤ b → f s b = reset s)
    (hreset : ∀ s, reset (reset s) = reset s) (bytes : List UInt8) :
    (asBytes (fromUtf8Lossy bytes)).foldl f s = bytes.foldl f s := by
  rw [asBytes, fromUtf8Lossy, String.toList_ofList]
  induction hlen : bytes.length using Nat.strongRecOn generalizing bytes s with
  | ind n ih =>
    cases bytes with
    | nil => simp [lossyChars]
    | cons b bytes =>
      obtain ⟨read, rest, hsplit, hshort, c, hchars, hread⟩ := lossyChars_front b bytes
      rw [hchars, hsplit, List.flatMap_cons, List.foldl_append, List.foldl_append,
        ih rest.length (by rw [← hlen, List.length_cons]; omega) rest rfl]
      rcases hread with rfl | ⟨hne, hall, rfl⟩
      · rfl
      · rw [foldl_wide hwide hreset hne hall,
          foldl_wide hwide hreset String.utf8EncodeChar_ne_nil
            (fun b hb => encodeChar_wide (by decide) hb)]

end

end Climon.Lib.Utf8
