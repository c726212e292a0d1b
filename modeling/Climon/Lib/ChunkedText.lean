import Climon.Lib.OscSequences
import Climon.Lib.Utf8
import Mathlib.Data.List.ReduceOption

namespace Climon.Lib.ChunkedText

open Climon.Lib.OscSequences Climon.Lib.Utf8

/-!
# Text that is decoded chunk by chunk

Decoding a stream whole and decoding its chunks apart agree on ASCII and differ, if at all, in the
stretches between.
-/

/-- The bytes of the chunks, with `none` where one ends. -/
def items (chunks : List (List UInt8)) : List (Option UInt8) :=
  chunks.flatMap fun chunk => chunk.map some ++ [none]

/-- Decode up to each cut, from what is left over since the one before. -/
def decodeApart : List UInt8 → List (Option UInt8) → List Char
  | front, [] => lossyChars front
  | front, none :: rest => lossyChars front ++ decodeApart [] rest
  | front, some b :: rest => decodeApart (front ++ [b]) rest

/-- An ASCII byte, or what stands before the next one. -/
inductive Token where
  | ascii (b : UInt8) (h : b < 0x80)
  | stretch (run : List (Option UInt8)) (h : ∀ b, some b ∈ run → 0x80 ≤ b)

namespace Token

/-- A stretch without bytes shows nothing. -/
def view : Token → Option Char
  | ascii b _ => some (Char.ofUInt8 b)
  | stretch run _ => if run.reduceOption = [] then none else some '\uFFFD'

def whole : Token → List Char
  | ascii b _ => [Char.ofUInt8 b]
  | stretch run _ => lossyChars run.reduceOption

def apart : Token → List Char
  | ascii b _ => [Char.ofUInt8 b]
  | stretch run _ => decodeApart [] run

end Token

def tokens (run : List (Option UInt8)) (h : ∀ b, some b ∈ run → 0x80 ≤ b) :
    List (Option UInt8) → List Token
  | [] => [.stretch run h]
  | none :: rest => tokens (run ++ [none]) (by simpa using h) rest
  | some b :: rest =>
    if hb : b < 0x80 then .stretch run h :: .ascii b hb :: tokens [] (by simp) rest
    else
      tokens (run ++ [some b])
        (by
          intro b' hb'
          rw [List.mem_append, List.mem_singleton, Option.some.injEq] at hb'
          rcases hb' with hb' | rfl
          · exact h b' hb'
          · exact UInt8.not_lt.mp hb) rest

/-- The tokens of a stream in chunks. -/
def tokensOf (chunks : List (List UInt8)) : List Token := tokens [] (by simp) (items chunks)

/-! ## The two decodings by tokens -/

theorem reduceOption_items (chunks : List (List UInt8)) :
    (items chunks).reduceOption = chunks.flatten := by
  induction chunks with
  | nil => rfl
  | cons chunk chunks ih =>
    rw [items, List.flatMap_cons, List.reduceOption_append, ← items, ih, List.flatten_cons]
    simp [List.reduceOption]

theorem decodeApart_chunk (front chunk : List UInt8) (rest : List (Option UInt8)) :
    decodeApart front (chunk.map some ++ none :: rest) =
      lossyChars (front ++ chunk) ++ decodeApart [] rest := by
  induction chunk generalizing front with
  | nil => simp [decodeApart]
  | cons b chunk ih => simp [decodeApart, ih]

theorem decodeApart_items (chunks : List (List UInt8)) :
    decodeApart [] (items chunks) = chunks.flatMap lossyChars := by
  induction chunks with
  | nil => simp [items, decodeApart, lossyChars]
  | cons chunk chunks ih =>
    rw [items, List.flatMap_cons, List.append_assoc, List.singleton_append, decodeApart_chunk,
      ← items, ih]
    rfl

theorem decodeApart_ascii {b : UInt8} (h : b < 0x80) (front back : List UInt8)
    (rest : List (Option UInt8)) :
    decodeApart (front ++ b :: back) rest =
      lossyChars front ++ Char.ofUInt8 b :: decodeApart back rest := by
  induction rest generalizing back with
  | nil => exact lossyChars_append h
  | cons item rest ih =>
    cases item with
    | none => simp [decodeApart, lossyChars_append h]
    | some b' => simp [decodeApart, ih]

theorem decodeApart_append {b : UInt8} (h : b < 0x80) (front : List UInt8)
    (run rest : List (Option UInt8)) :
    decodeApart front (run ++ some b :: rest) =
      decodeApart front run ++ Char.ofUInt8 b :: decodeApart [] rest := by
  induction run generalizing front with
  | nil => exact decodeApart_ascii h front [] rest
  | cons item run ih =>
    cases item with
    | none => simp [decodeApart, ih]
    | some b' => simp [decodeApart, ih]

section

variable {run : List (Option UInt8)} {h : ∀ b, some b ∈ run → 0x80 ≤ b}

theorem flatMap_whole (rest : List (Option UInt8)) :
    (tokens run h rest).flatMap Token.whole = lossyChars (run ++ rest).reduceOption := by
  fun_induction tokens run h rest with
  | case1 run h => simp [Token.whole]
  | case2 run h rest ih => simpa using ih
  | case3 run h b rest hb ih =>
    simp only [List.flatMap_cons, ih, Token.whole, List.nil_append, List.singleton_append,
      List.reduceOption_append, List.reduceOption_cons_of_some, lossyChars_append hb]
  | case4 run h b rest hb ih => simpa using ih

theorem flatMap_apart (rest : List (Option UInt8)) :
    (tokens run h rest).flatMap Token.apart = decodeApart [] (run ++ rest) := by
  fun_induction tokens run h rest with
  | case1 run h => simp [Token.apart]
  | case2 run h rest ih => simpa using ih
  | case3 run h b rest hb ih =>
    simp only [List.flatMap_cons, ih, Token.apart, List.nil_append, List.singleton_append,
      decodeApart_append hb]
  | case4 run h b rest hb ih => simpa using ih

end

theorem tokensOf_whole (chunks : List (List UInt8)) :
    (tokensOf chunks).flatMap Token.whole = lossyChars chunks.flatten := by
  rw [tokensOf, flatMap_whole, List.nil_append, reduceOption_items]

theorem tokensOf_apart (chunks : List (List UInt8)) :
    (tokensOf chunks).flatMap Token.apart = chunks.flatMap lossyChars := by
  rw [tokensOf, flatMap_apart, List.nil_append, decodeApart_items]

/-! ## Stretches -/

theorem not_wide_ascii {b : UInt8} (h : b < 0x80) : ¬ Wide (Char.ofUInt8 b) := by
  have hval : (Char.ofUInt8 b).toNat = b.toNat := by
    change b.toUInt32.toNat = b.toNat
    exact UInt8.toNat_toUInt32 b
  rw [UInt8.lt_iff_toNat_lt] at h
  unfold Wide
  rw [hval]
  exact Nat.not_le.mpr h

theorem wide_of_utf8Size {c : Char} (h : c.utf8Size ≠ 1) : Wide c := by
  by_contra hwide
  apply h
  rw [Char.utf8Size_eq_one_iff, UInt32.le_iff_toNat_le]
  unfold Wide at hwide
  change c.toNat ≤ 127
  omega

/-- Bytes past ASCII are decoded to characters past ASCII. -/
theorem wide_lossyChars {bytes : List UInt8} (h : ∀ b ∈ bytes, 0x80 ≤ b) :
    ∀ c ∈ lossyChars bytes, Wide c := by
  induction hlen : bytes.length using Nat.strongRecOn generalizing bytes with
  | ind n ih =>
    cases bytes with
    | nil => simp [lossyChars]
    | cons b bytes =>
      obtain ⟨read, rest, hsplit, hshort, c, hchars, hread⟩ := lossyChars_front b bytes
      have hrest : ∀ c ∈ lossyChars rest, Wide c := by
        apply ih rest.length (by rw [← hlen, List.length_cons]; omega) _ rfl
        intro b' hb'
        exact h b' (hsplit ▸ List.mem_append_right read hb')
      rw [hchars, List.forall_mem_cons]
      refine ⟨?_, hrest⟩
      rcases hread with rfl | ⟨-, -, rfl⟩
      · apply wide_of_utf8Size
        intro hsize
        have hmem : c.val.toUInt8 ∈ b :: bytes := by
          rw [hsplit, String.utf8EncodeChar_eq_singleton hsize]
          exact List.mem_cons_self
        have hbyte := h _ hmem
        rw [Char.utf8Size_eq_one_iff, UInt32.le_iff_toNat_le] at hsize
        rw [UInt8.le_iff_toNat_le, UInt32.toNat_toUInt8] at hbyte
        change c.val.toNat ≤ 127 at hsize
        change 128 ≤ c.val.toNat % 256 at hbyte
        omega
      · decide

theorem lossyChars_eq_nil_iff {bytes : List UInt8} : lossyChars bytes = [] ↔ bytes = [] := by
  cases bytes with
  | nil => simp [lossyChars]
  | cons b bytes =>
    rw [lossyChars]
    simp

theorem decodeApart_wide {front : List UInt8} {run : List (Option UInt8)}
    (hfront : ∀ b ∈ front, 0x80 ≤ b) (h : ∀ b, some b ∈ run → 0x80 ≤ b) :
    ∀ c ∈ decodeApart front run, Wide c := by
  induction run generalizing front with
  | nil => exact wide_lossyChars hfront
  | cons item run ih =>
    have hrun : ∀ b, some b ∈ run → 0x80 ≤ b := fun b hb => h b (List.mem_cons_of_mem item hb)
    cases item with
    | none =>
      intro c hc
      rw [decodeApart, List.mem_append] at hc
      rcases hc with hc | hc
      · exact wide_lossyChars hfront c hc
      · exact ih (by simp) hrun c hc
    | some b =>
      apply ih _ hrun
      intro b' hb'
      rw [List.mem_append, List.mem_singleton] at hb'
      rcases hb' with hb' | rfl
      · exact hfront b' hb'
      · exact h b' List.mem_cons_self

theorem decodeApart_eq_nil_iff {front : List UInt8} {run : List (Option UInt8)} :
    decodeApart front run = [] ↔ front = [] ∧ run.reduceOption = [] := by
  induction run generalizing front with
  | nil => simp [decodeApart, lossyChars_eq_nil_iff]
  | cons item run ih =>
    cases item with
    | none => simp [decodeApart, lossyChars_eq_nil_iff, ih]
    | some b => simp [decodeApart, ih]

theorem decodes_of {dec : Token → List Char} (hascii : ∀ b h, dec (.ascii b h) = [Char.ofUInt8 b])
    (hnil : ∀ run h, dec (.stretch run h) = [] ↔ run.reduceOption = [])
    (hwide : ∀ run h, ∀ c ∈ dec (.stretch run h), Wide c) : Decodes Token.view dec where
  none {token} h := by
    cases token with
    | ascii => cases h
    | stretch run hrun =>
      rw [Token.view, ite_eq_left_iff] at h
      rw [hnil]
      by_contra hne
      cases h hne
  ascii {token c} h hc := by
    cases token with
    | ascii b hb =>
      cases h
      exact hascii b hb
    | stretch run hrun =>
      rw [Token.view] at h
      split at h
      · cases h
      · cases h
        exact absurd (by decide) hc
  wide {token c} h hc := by
    cases token with
    | ascii b hb =>
      cases h
      exact absurd hc (not_wide_ascii hb)
    | stretch run hrun =>
      rw [Token.view] at h
      split at h
      · cases h
      next hne =>
        refine ⟨?_, hwide run hrun⟩
        intro h
        exact hne ((hnil run hrun).mp h)

theorem decodes_whole : Decodes Token.view Token.whole := by
  apply decodes_of
  · intro b h
    rfl
  · intro run h
    exact lossyChars_eq_nil_iff
  · intro run h
    apply wide_lossyChars
    intro b hb
    exact h b (List.reduceOption_mem_iff.mp hb)

theorem decodes_apart : Decodes Token.view Token.apart := by
  apply decodes_of
  · intro b h
    rfl
  · intro run h
    rw [Token.apart, decodeApart_eq_nil_iff]
    simp
  · intro run h
    exact decodeApart_wide (by simp) h

end Climon.Lib.ChunkedText
