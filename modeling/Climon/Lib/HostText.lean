import Mathlib.Data.List.Basic
import Mathlib.Data.List.Induction
import Mathlib.Order.Basic

namespace Climon.Lib.HostText

/-! # IP addresses as the hosts of URLs -/

structure Ipv4 where
  a : UInt8
  b : UInt8
  c : UInt8
  d : UInt8
  deriving DecidableEq, Repr

structure Ipv6 where
  pieces : List UInt16
  length_eq : pieces.length = 8
  deriving DecidableEq, Repr

inductive Host where
  | ipv4 (ip : Ipv4)
  | ipv6 (ip : Ipv6)
  | name (text : List Char)
  deriving DecidableEq, Repr

def decimalText (octet : UInt8) : List Char := Nat.toDigits 10 octet.toNat

def hexText (piece : UInt16) : List Char := Nat.toDigits 16 piece.toNat

def Ipv4.text (ip : Ipv4) : List Char :=
  ['.'].intercalate ([ip.a, ip.b, ip.c, ip.d].map decimalText)

/-- How many pieces from an index on are zero. -/
def zeroRun (pieces : List UInt16) (i : Nat) : Nat := ((pieces.drop i).takeWhile (· == 0)).length

def longer (pieces : List UInt16) (best : Nat × Nat) (i : Nat) : Nat × Nat :=
  if best.2 < zeroRun pieces i then (i, zeroRun pieces i) else best

/-- The first of the longest runs of at least two zeros: where it starts, and its length. -/
def compress (pieces : List UInt16) : Option (Nat × Nat) :=
  let best := (List.range pieces.length).foldl (longer pieces) (0, 0)
  if 2 ≤ best.2 then some best else none

def hextets (pieces : List UInt16) : List Char := [':'].intercalate (pieces.map hexText)

def compressed (pieces : List UInt16) : List Char :=
  match compress pieces with
  | none => hextets pieces
  | some (start, count) =>
    hextets (pieces.take start) ++ ':' :: ':' :: hextets (pieces.drop (start + count))

def Ipv6.text (ip : Ipv6) : List Char := compressed ip.pieces

/-- What `hostname` shows. -/
def Host.text : Host → List Char
  | ipv4 ip => ip.text
  | ipv6 ip => '[' :: ip.text ++ [']']
  | name text => text

/-! ## Numerals -/

def hexValue (c : Char) : Option Nat :=
  if c.isDigit then some (c.toNat - 48)
  else if 'a' ≤ c ∧ c ≤ 'f' then some (c.toNat - 87)
  else if 'A' ≤ c ∧ c ≤ 'F' then some (c.toNat - 55)
  else none

def readHex (digits : List Char) : Nat :=
  digits.foldl (fun n c => n * 16 + (hexValue c).getD 0) 0

section

variable {pieces back : List UInt16} {octet : UInt8} {piece : UInt16} {n count : Nat}

theorem hexValue_digitChar (h : n < 16) : hexValue n.digitChar = some n := by
  decide +revert

theorem mem_toDigits {c : Char} (h : c ∈ Nat.toDigits 16 n) : ∃ d < 16, c = d.digitChar := by
  induction n using Nat.strongRecOn with
  | ind n ih =>
    rw [Nat.toDigits_eq_if (by decide)] at h
    split at h
    · next hlt => exact ⟨n, hlt, List.mem_singleton.mp h⟩
    · rcases List.mem_append.mp h with h | h
      · exact ih (n / 16) (Nat.div_lt_self (by omega) (by decide)) h
      · exact ⟨n % 16, Nat.mod_lt n (by decide), List.mem_singleton.mp h⟩

theorem readHex_toDigits : readHex (Nat.toDigits 16 n) = n := by
  induction n using Nat.strongRecOn with
  | ind n ih =>
    rw [Nat.toDigits_eq_if (by decide)]
    split
    · next hlt => simp [readHex, hexValue_digitChar hlt]
    · next hle =>
      have hfront := ih (n / 16) (Nat.div_lt_self (by omega) (by decide))
      rw [readHex] at hfront ⊢
      rw [List.foldl_append, hfront, List.foldl_cons, List.foldl_nil,
        hexValue_digitChar (Nat.mod_lt n (by decide)), Option.getD_some]
      omega

theorem hexText_ne_nil : hexText piece ≠ [] := Nat.toDigits_ne_nil

/-- What holds of the sixteen digits holds of every character of a piece. -/
theorem forall_hexText {p : Char → Prop} (h : ∀ d < 16, p d.digitChar) :
    ∀ c ∈ hexText piece, p c := by
  intro c hc
  obtain ⟨d, hd, rfl⟩ := mem_toDigits hc
  exact h d hd

theorem hexValue_hexText : ∀ c ∈ hexText piece, (hexValue c).isSome = true :=
  forall_hexText (by decide)

theorem readHex_hexText : readHex (hexText piece) = piece.toNat := readHex_toDigits

theorem hexText_inj {p q : UInt16} (h : hexText p = hexText q) : p = q := by
  have hread := congrArg readHex h
  rw [readHex_hexText, readHex_hexText] at hread
  exact UInt16.toNat_inj.mp hread

theorem colon_not_mem_hexText : ':' ∉ hexText piece := by
  intro h
  exact absurd (hexValue_hexText ':' h) (by decide)

theorem isDigit_decimalText : ∀ c ∈ decimalText octet, c.isDigit = true :=
  fun _ => Nat.isDigit_of_mem_toDigits (by decide) (by decide)

theorem decimalText_ne_nil : decimalText octet ≠ [] := Nat.toDigits_ne_nil

theorem length_decimalText : (decimalText octet).length ≤ 3 := by
  rw [decimalText, Nat.length_toDigits_le_iff (by decide) (by decide)]
  have hlt := octet.toNat_lt
  omega

/-! ## The run that is compressed -/

theorem foldl_longer (is : List Nat) (best : Nat × Nat)
    (hbest : best = (0, 0) ∨ best.2 = zeroRun pieces best.1) :
    is.foldl (longer pieces) best = (0, 0) ∨
      (is.foldl (longer pieces) best).2 = zeroRun pieces (is.foldl (longer pieces) best).1 := by
  induction is generalizing best with
  | nil => exact hbest
  | cons i is ih =>
    rw [List.foldl_cons]
    apply ih
    rw [longer]
    split
    · exact .inr rfl
    · exact hbest

theorem zeroRun_zero : zeroRun pieces 0 = (pieces.takeWhile (· == 0)).length := by
  rw [zeroRun, List.drop_zero]

/-- A text that starts with the mark of a run starts with the zeros it stands for. -/
theorem compress_front (h : compress pieces = some (0, count)) :
    2 ≤ count ∧ ∃ back, pieces = List.replicate count 0 ++ back ∧ back.head? ≠ some 0 := by
  rw [compress] at h
  split at h
  · next hle =>
    have hrun := @foldl_longer pieces (List.range pieces.length) (0, 0) (.inl rfl)
    rw [Option.some.inj h] at hle hrun
    rcases hrun with hrun | hrun
    · rw [hrun] at hle
      cases hle
    · refine ⟨hle, pieces.dropWhile (· == 0), ?_, ?_⟩
      · have hzeros : pieces.takeWhile (· == 0) = List.replicate count 0 := by
          rw [List.eq_replicate_iff]
          refine ⟨by rw [← zeroRun_zero]; exact hrun.symm, fun p hp => ?_⟩
          have hall := List.all_eq_true.mp (List.all_takeWhile (p := (· == 0)) (l := pieces)) p hp
          simpa using hall
        rw [← hzeros, List.takeWhile_append_dropWhile]
      · have hhead := List.head?_dropWhile_not (· == 0) pieces
        intro hzero
        rw [hzero] at hhead
        simp at hhead
  · cases h

theorem foldl_longer_keeps {is : List Nat} {best : Nat × Nat}
    (h : ∀ i ∈ is, zeroRun pieces i ≤ best.2) : is.foldl (longer pieces) best = best := by
  induction is with
  | nil => rfl
  | cons i is ih =>
    rw [List.forall_mem_cons] at h
    rw [List.foldl_cons, longer, if_neg (Nat.not_lt.mpr h.1), ih h.2]

theorem zeroRun_le (i : Nat) : zeroRun pieces i ≤ pieces.length - i := by
  rw [zeroRun, ← List.length_drop]
  exact List.takeWhile_sublist (· == 0) |>.length_le

theorem zeroRun_replicate (hback : back.head? ≠ some 0) {i : Nat} (hi : i ≤ count) :
    zeroRun (List.replicate count 0 ++ back) i = count - i := by
  have hdrop : (List.replicate count (0 : UInt16) ++ back).drop i =
      List.replicate (count - i) 0 ++ back := by
    rw [List.drop_append_of_le_length (by rw [List.length_replicate]; exact hi),
      List.drop_replicate]
  have hstop : back.takeWhile (· == 0) = [] := by
    cases back with
    | nil => rfl
    | cons p back =>
      rw [List.takeWhile_cons_of_neg]
      simpa using hback
  rw [zeroRun, hdrop, List.takeWhile_append_of_pos (by simp), hstop, List.append_nil,
    List.length_replicate]

/-- Five zeros at the start are the longest run. -/
theorem compress_replicate (hlen : pieces.length = 8) (hcount : 5 ≤ count)
    (hpieces : pieces = List.replicate count 0 ++ back) (hback : back.head? ≠ some 0) :
    compress pieces = some (0, count) := by
  have hrun : ∀ i ≤ count, zeroRun pieces i = count - i := by
    intro i hi
    rw [hpieces]
    exact zeroRun_replicate hback hi
  have hfirst : longer pieces (0, 0) 0 = (0, count) := by
    rw [longer, hrun 0 (Nat.zero_le count)]
    exact if_pos (by change 0 < count - 0; omega)
  have hlater : ∀ i ∈ List.range' 1 7, zeroRun pieces i ≤ ((0, count) : Nat × Nat).2 := by
    intro i hi
    change zeroRun pieces i ≤ count
    by_cases hin : i ≤ count
    · rw [hrun i hin]
      omega
    · have hle : zeroRun pieces i ≤ pieces.length - i := zeroRun_le i
      omega
  have hrange : List.range 8 = 0 :: List.range' 1 7 := rfl
  have hfold : (List.range pieces.length).foldl (longer pieces) (0, 0) = (0, count) := by
    rw [hlen, hrange, List.foldl_cons, hfirst, foldl_longer_keeps hlater]
  rw [compress, hfold]
  exact if_pos (by change 2 ≤ count; omega)

/-! ## How an address starts -/

theorem hextets_cons_cons {p q : UInt16} :
    hextets (p :: q :: back) = hexText p ++ ':' :: hextets (q :: back) := by
  rw [hextets, List.map_cons, List.map_cons, List.intercalate_cons_cons, ← List.map_cons, hextets,
    List.append_assoc]
  rfl

theorem hextets_singleton {p : UInt16} : hextets [p] = hexText p := List.intercalate_singleton

/-- An address starts with a run of zeros or with its first piece. -/
theorem compressed_front {first second : UInt16} :
    (∃ count, 2 ≤ count ∧ ∃ back, first :: second :: pieces = List.replicate count 0 ++ back ∧
      back.head? ≠ some 0 ∧
        compressed (first :: second :: pieces) = ':' :: ':' :: hextets back) ∨
      ∃ rest, compressed (first :: second :: pieces) = hexText first ++ ':' :: rest := by
  rw [compressed]
  cases hcompress : compress (first :: second :: pieces) with
  | none => exact .inr ⟨_, hextets_cons_cons⟩
  | some run =>
    obtain ⟨start, count⟩ := run
    cases start with
    | zero =>
      obtain ⟨hle, back, hpieces, hback⟩ := compress_front hcompress
      refine .inl ⟨count, hle, back, hpieces, hback, ?_⟩
      have hdrop : (List.replicate count (0 : UInt16) ++ back).drop (0 + count) = back := by
        rw [Nat.zero_add, List.drop_left' List.length_replicate]
      simp only [hpieces, List.take_zero, hdrop]
      rfl
    | succ start =>
      cases start with
      | zero =>
        refine .inr ⟨':' :: hextets ((first :: second :: pieces).drop (0 + 1 + count)), ?_⟩
        simp only [List.take_succ_cons, List.take_zero, hextets_singleton]
      | succ start =>
        refine .inr ⟨hextets (second :: pieces.take start) ++ ':' :: ':' ::
          hextets ((first :: second :: pieces).drop (start + 1 + 1 + count)), ?_⟩
        simp only [List.take_succ_cons, hextets_cons_cons, List.append_assoc, List.cons_append]

theorem forall_hextets {p : Char → Prop} (h : ∀ d < 16, p d.digitChar) (hcolon : p ':') :
    ∀ c ∈ hextets pieces, p c := by
  induction pieces with
  | nil => simp [hextets]
  | cons first pieces ih =>
    cases pieces with
    | nil =>
      rw [hextets_singleton]
      exact forall_hexText h
    | cons second pieces =>
      rw [hextets_cons_cons, List.forall_mem_append, List.forall_mem_cons]
      exact ⟨forall_hexText h, hcolon, ih⟩

theorem forall_compressed {p : Char → Prop} (h : ∀ d < 16, p d.digitChar) (hcolon : p ':') :
    ∀ c ∈ compressed pieces, p c := by
  rw [compressed]
  split
  · exact forall_hextets h hcolon
  · rw [List.forall_mem_append, List.forall_mem_cons, List.forall_mem_cons]
    exact ⟨forall_hextets h hcolon, hcolon, hcolon, forall_hextets h hcolon⟩

theorem Ipv4.forall_text {p : Char → Prop} (h : ∀ c, c.isDigit = true → p c) (hdot : p '.')
    (ip : Ipv4) : ∀ c ∈ ip.text, p c := by
  have hoctet (octet : UInt8) : ∀ c ∈ decimalText octet, p c := fun c hc =>
    h c (isDigit_decimalText c hc)
  simp only [Ipv4.text, List.map_cons, List.map_nil, List.intercalate_cons_cons,
    List.intercalate_singleton, List.forall_mem_append, List.forall_mem_singleton]
  exact ⟨⟨hoctet ip.a, hdot⟩, ⟨hoctet ip.b, hdot⟩, ⟨hoctet ip.c, hdot⟩, hoctet ip.d⟩

/-- The pieces are read back. -/
theorem hextets_ne_nil (hne : pieces ≠ []) : hextets pieces ≠ [] := by
  obtain ⟨first, rest, rfl⟩ := List.exists_cons_of_ne_nil hne
  cases rest with
  | nil =>
    rw [hextets_singleton]
    exact hexText_ne_nil
  | cons second rest =>
    rw [hextets_cons_cons]
    simp

theorem splitOn_hextets (hne : pieces ≠ []) :
    (hextets pieces).splitOn ':' = pieces.map hexText := by
  rw [hextets, List.splitOn_intercalate ':' ?_ (by simpa using hne)]
  intro part hpart
  obtain ⟨piece, -, rfl⟩ := List.mem_map.mp hpart
  exact colon_not_mem_hexText

theorem hextets_inj (h : hextets pieces = hextets back) : pieces = back := by
  by_cases hpieces : pieces = []
  · by_cases hback : back = []
    · rw [hpieces, hback]
    · rw [hpieces] at h
      exact absurd h.symm (hextets_ne_nil hback)
  · by_cases hback : back = []
    · rw [hback] at h
      exact absurd h (hextets_ne_nil hpieces)
    · have hsplit := congrArg (List.splitOn ':') h
      rw [splitOn_hextets hpieces, splitOn_hextets hback] at hsplit
      exact List.map_injective_iff.mpr (fun _ _ => hexText_inj) hsplit

end

end Climon.Lib.HostText
