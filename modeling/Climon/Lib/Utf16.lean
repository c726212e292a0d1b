import Mathlib.Data.List.Basic

namespace Climon.Lib.Utf16

/-! # Strings as UTF-16 code units -/

def encodeChar (c : Char) : List UInt16 :=
  if c.toNat < 0x10000 then [UInt16.ofNat c.toNat]
  else
    [UInt16.ofNat (0xD800 + (c.toNat - 0x10000) / 0x400),
      UInt16.ofNat (0xDC00 + (c.toNat - 0x10000) % 0x400)]

def encode (s : String) : List UInt16 := s.toList.flatMap encodeChar

def isHigh (u : UInt16) : Bool := 0xD800 ≤ u.toNat && u.toNat < 0xDC00

def isLow (u : UInt16) : Bool := 0xDC00 ≤ u.toNat && u.toNat < 0xE000

def decodeChars : List UInt16 → Option (List Char)
  | [] => some []
  | u :: rest =>
    if isHigh u then
      match rest with
      | [] => none
      | v :: rest =>
        if isLow v then
          (decodeChars rest).map
            (Char.ofNat (0x10000 + (u.toNat - 0xD800) * 0x400 + (v.toNat - 0xDC00)) :: ·)
        else none
    else if isLow u then none
    else (decodeChars rest).map (Char.ofNat u.toNat :: ·)

/-- `none` where a surrogate stands alone. -/
def decode (units : List UInt16) : Option String := (decodeChars units).map String.ofList

/-! ## Deciding over the characters of a text

The characters are checked one by one, never all that there are.
-/

section

variable (p : Char → Prop) [DecidablePred p]

instance (priority := 2000) decidableText (text : List Char) : Decidable (∀ c ∈ text, p c) :=
  List.decidableBAll p text

instance (priority := 2000) decidableOption (o : Option Char) : Decidable (∀ c ∈ o, p c) :=
  Option.decidableForallMem o

end

theorem toNat_char (c : Char) : c.toNat < 0xD800 ∨ 0xDFFF < c.toNat ∧ c.toNat < 0x110000 :=
  c.valid

theorem toNat_ofNat_char {n : Nat} (h : n < 0xD800 ∨ 0xDFFF < n ∧ n < 0x110000) :
    (Char.ofNat n).toNat = n := by
  have hvalid : n.isValidChar := h
  unfold Char.ofNat
  rw [dif_pos hvalid]
  rfl

theorem decodeChars_unit {u : UInt16} (hhigh : isHigh u = false) (hlow : isLow u = false)
    (rest : List UInt16) :
    decodeChars (u :: rest) = (decodeChars rest).map (Char.ofNat u.toNat :: ·) := by
  rw [decodeChars.eq_def]
  simp only [hhigh, hlow, Bool.false_eq_true, ↓reduceIte]

theorem decodeChars_pair {u v : UInt16} (hhigh : isHigh u = true) (hlow : isLow v = true)
    (rest : List UInt16) :
    decodeChars (u :: v :: rest) = (decodeChars rest).map
      (Char.ofNat (0x10000 + (u.toNat - 0xD800) * 0x400 + (v.toNat - 0xDC00)) :: ·) := by
  rw [decodeChars.eq_def]
  simp only [hhigh, hlow, ↓reduceIte]

theorem decodeChars_encodeChar_append (c : Char) (rest : List UInt16) :
    decodeChars (encodeChar c ++ rest) = (decodeChars rest).map (c :: ·) := by
  have hc := toNat_char c
  unfold encodeChar
  split
  next h =>
    have hunit : (UInt16.ofNat c.toNat).toNat = c.toNat := UInt16.toNat_ofNat_of_lt' h
    have hhigh : isHigh (UInt16.ofNat c.toNat) = false := by
      rw [isHigh, hunit, Bool.and_eq_false_iff, decide_eq_false_iff_not, decide_eq_false_iff_not]
      omega
    have hlow : isLow (UInt16.ofNat c.toNat) = false := by
      rw [isLow, hunit, Bool.and_eq_false_iff, decide_eq_false_iff_not, decide_eq_false_iff_not]
      omega
    rw [List.singleton_append, decodeChars_unit hhigh hlow, hunit, Char.ofNat_toNat]
  next h =>
    have hhi : (UInt16.ofNat (0xD800 + (c.toNat - 0x10000) / 0x400)).toNat =
        0xD800 + (c.toNat - 0x10000) / 0x400 :=
      UInt16.toNat_ofNat_of_lt' (by simp only [UInt16.size]; omega)
    have hlo : (UInt16.ofNat (0xDC00 + (c.toNat - 0x10000) % 0x400)).toNat =
        0xDC00 + (c.toNat - 0x10000) % 0x400 :=
      UInt16.toNat_ofNat_of_lt' (by simp only [UInt16.size]; omega)
    have hhigh : isHigh (UInt16.ofNat (0xD800 + (c.toNat - 0x10000) / 0x400)) = true := by
      rw [isHigh, hhi, Bool.and_eq_true, decide_eq_true_eq, decide_eq_true_eq]
      omega
    have hlow : isLow (UInt16.ofNat (0xDC00 + (c.toNat - 0x10000) % 0x400)) = true := by
      rw [isLow, hlo, Bool.and_eq_true, decide_eq_true_eq, decide_eq_true_eq]
      omega
    have hscalar : 0x10000 + (0xD800 + (c.toNat - 0x10000) / 0x400 - 0xD800) * 0x400 +
        (0xDC00 + (c.toNat - 0x10000) % 0x400 - 0xDC00) = c.toNat := by omega
    rw [List.cons_append, List.singleton_append, decodeChars_pair hhigh hlow, hhi, hlo, hscalar,
      Char.ofNat_toNat]

@[simp] theorem decode_encode (s : String) : decode (encode s) = some s := by
  have h : ∀ cs : List Char, decodeChars (cs.flatMap encodeChar) = some cs := by
    intro cs
    induction cs with
    | nil => rfl
    | cons c cs ih =>
      rw [List.flatMap_cons, decodeChars_encodeChar_append, ih]
      rfl
  rw [decode, encode, h, Option.map_some, String.ofList_toList]

theorem encodeChar_of_unit {u : UInt16} (hhigh : isHigh u = false) (hlow : isLow u = false) :
    encodeChar (Char.ofNat u.toNat) = [u] := by
  have hu : u.toNat < 0x10000 := u.toNat_lt
  simp only [isHigh, isLow, Bool.and_eq_false_iff, decide_eq_false_iff_not] at hhigh hlow
  have hscalar : (Char.ofNat u.toNat).toNat = u.toNat := toNat_ofNat_char (by omega)
  rw [encodeChar, hscalar, if_pos hu, UInt16.ofNat_toNat]

theorem encodeChar_of_pair {u v : UInt16} (hhigh : isHigh u = true) (hlow : isLow v = true) :
    encodeChar (Char.ofNat (0x10000 + (u.toNat - 0xD800) * 0x400 + (v.toNat - 0xDC00))) =
      [u, v] := by
  simp only [isHigh, isLow, Bool.and_eq_true, decide_eq_true_eq] at hhigh hlow
  have hscalar := toNat_ofNat_char
    (n := 0x10000 + (u.toNat - 0xD800) * 0x400 + (v.toNat - 0xDC00)) (by omega)
  have hhi : 0xD800 + (0x10000 + (u.toNat - 0xD800) * 0x400 + (v.toNat - 0xDC00) - 0x10000) /
      0x400 = u.toNat := by omega
  have hlo : 0xDC00 + (0x10000 + (u.toNat - 0xD800) * 0x400 + (v.toNat - 0xDC00) - 0x10000) %
      0x400 = v.toNat := by omega
  rw [encodeChar, hscalar, if_neg (by omega), hhi, hlo, UInt16.ofNat_toNat, UInt16.ofNat_toNat]

theorem flatMap_encodeChar_of_decodeChars {units : List UInt16} {cs : List Char}
    (h : decodeChars units = some cs) : cs.flatMap encodeChar = units := by
  induction units using decodeChars.induct generalizing cs with
  | case1 =>
    cases h
    rfl
  | case2 u hhigh =>
    rw [decodeChars, if_pos hhigh] at h
    cases h
  | case3 u hhigh v rest hlow ih =>
    rw [decodeChars_pair hhigh hlow] at h
    obtain ⟨cs', hcs', rfl⟩ := Option.map_eq_some_iff.mp h
    rw [List.flatMap_cons, encodeChar_of_pair hhigh hlow, ih hcs']
    rfl
  | case4 u hhigh v rest hlow =>
    rw [decodeChars, if_pos hhigh, if_neg hlow] at h
    cases h
  | case5 u rest hhigh hlow =>
    rw [decodeChars.eq_def] at h
    simp only [hhigh, hlow, Bool.false_eq_true, ↓reduceIte] at h
    cases h
  | case6 u rest hhigh hlow ih =>
    have hhigh := Bool.eq_false_iff.mpr hhigh
    have hlow := Bool.eq_false_iff.mpr hlow
    rw [decodeChars_unit hhigh hlow] at h
    obtain ⟨cs', hcs', rfl⟩ := Option.map_eq_some_iff.mp h
    rw [List.flatMap_cons, encodeChar_of_unit hhigh hlow, ih hcs']
    rfl

/-- Only the encoding of a string decodes to it. -/
theorem encode_of_decode {units : List UInt16} {s : String} (h : decode units = some s) :
    encode s = units := by
  obtain ⟨cs, hcs, rfl⟩ := Option.map_eq_some_iff.mp h
  rw [encode, String.toList_ofList, flatMap_encodeChar_of_decodeChars hcs]

theorem encode_injective {s t : String} (h : encode s = encode t) : s = t := by
  have hdecode := congrArg decode h
  rw [decode_encode, decode_encode] at hdecode
  exact Option.some.inj hdecode

end Climon.Lib.Utf16
