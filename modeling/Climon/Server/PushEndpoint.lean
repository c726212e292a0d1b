import Climon.Lib.HostText
import Climon.Lib.JavaScript
import Mathlib.Data.Int.Bitwise
import Mathlib.Data.List.TakeWhile

namespace Climon.Server.PushEndpoint

open Climon.Lib.HostText

/-!
# Endpoints that push messages are sent to

The URL parser is not part of the repository: `newUrl` stands for it, and yields the protocol and
the host of a URL. `hostname` is then the text of that host.
-/

structure Url where
  protocol : List Char
  host : Host

def Url.hostname (url : Url) : List Char := url.host.text

def internalHostExact : List (List Char) :=
  ["localhost".toList, "local".toList, "ip6-localhost".toList, "ip6-loopback".toList,
    "metadata.google.internal".toList]

def internalHostSuffixes : List (List Char) :=
  [".localhost".toList, ".local".toList, ".internal".toList]

def normalizeEndpointHostname (hostname : List Char) : List Char :=
  let lower := hostname.map Char.toLower
  if lower.getLast? = some '.' then lower.dropLast else lower

def isInternalHostname (hostname : List Char) : Bool :=
  internalHostExact.contains hostname ||
    internalHostSuffixes.any fun suffix => suffix.isSuffixOf hostname

/-- `\\d{1,3}` -/
def isOctetText (part : List Char) : Bool :=
  1 ≤ part.length && part.length ≤ 3 && part.all Char.isDigit

def ipv4OctetsFromLiteral (hostname : List Char) : Option (Nat × Nat × Nat × Nat) :=
  match hostname.splitOn '.' with
  | [a, b, c, d] =>
    if [a, b, c, d].all isOctetText then
      let octets := [a, b, c, d].map fun part => Nat.ofDigitChars 10 part 0
      if octets.any fun octet => 255 < octet then none
      else some (octets.getD 0 0, octets.getD 1 0, octets.getD 2 0, octets.getD 3 0)
    else none
  | _ => none

def isPrivateIpv4Octets : Nat × Nat × Nat × Nat → Bool
  | (a, b, _, _) =>
    if a == 127 || a == 10 || a == 0 then true
    else if a == 169 && b == 254 then true
    else if a == 192 && b == 168 then true
    else if a == 172 && 16 ≤ b && b ≤ 31 then true
    else false

def isSpace (c : Char) : Bool :=
  c.toNat < 2 ^ 16 && Lib.JavaScript.isSpace (UInt16.ofNat c.toNat)

def splitSign : List Char → Int × List Char
  | '-' :: rest => (-1, rest)
  | '+' :: rest => (1, rest)
  | text => (1, text)

def dropHexPrefix : List Char → List Char
  | '0' :: 'x' :: rest => rest
  | '0' :: 'X' :: rest => rest
  | text => text

/-- `Number.parseInt(text, 16)`: the digits at the front, `none` for NaN. -/
def parseInt16 (text : List Char) : Option Int :=
  let (sign, unsigned) := splitSign (text.dropWhile isSpace)
  let digits := (dropHexPrefix unsigned).takeWhile fun c => (hexValue c).isSome
  if digits.isEmpty then none else some (sign * readHex digits)

def ipv4OctetsFromEmbeddedIpv6Literal (hostname : List Char) : Option (Nat × Nat × Nat × Nat) :=
  let embedded :=
    if "::ffff:".toList.isPrefixOf hostname then some (hostname.drop 7)
    else if "::".toList.isPrefixOf hostname then some (hostname.drop 2)
    else none
  match embedded with
  | none => none
  | some embedded =>
    match ipv4OctetsFromLiteral embedded with
    | some dotted => some dotted
    | none =>
      match (embedded.splitOn ':').map parseInt16 with
      | [some high, some low] =>
        if high < 0 ∨ 0xFFFF < high ∨ low < 0 ∨ 0xFFFF < low then none
        else
          let high := high.toNat
          let low := low.toNat
          some (high >>> 8, high &&& 0xFF, low >>> 8, low &&& 0xFF)
      | _ => none

def isPrivateIpv6Literal (hostname : List Char) : Bool :=
  if hostname == "::".toList || hostname == "::1".toList then true
  else
    match ipv4OctetsFromEmbeddedIpv6Literal hostname with
    | some embeddedIpv4 => isPrivateIpv4Octets embeddedIpv4
    | none =>
      let firstHextet := hostname.takeWhile (· != ':')
      if firstHextet.isEmpty then false
      else
        match parseInt16 firstHextet with
        | none => false
        | some first =>
          if Int.land first 0xFE00 = 0xFC00 then true
          else if Int.land first 0xFFC0 = 0xFE80 then true
          else false

/-- `hostname.replace(/^\\[|\\]$/g, "")` -/
def stripBrackets (hostname : List Char) : List Char :=
  let opened := if hostname.head? = some '[' then hostname.tail else hostname
  if opened.getLast? = some ']' then opened.dropLast else opened

def isPrivateIpLiteral (hostname : List Char) : Bool :=
  let normalized := (stripBrackets hostname).map Char.toLower
  if normalized.contains ':' then isPrivateIpv6Literal normalized
  else
    match ipv4OctetsFromLiteral normalized with
    | none => false
    | some ipv4 => isPrivateIpv4Octets ipv4

def isAllowedPushEndpoint (newUrl : List Char → Option Url) (endpoint : List Char) : Bool :=
  match newUrl endpoint with
  | none => false
  | some url =>
    if url.protocol ≠ "https:".toList then false
    else
      let hostname := normalizeEndpointHostname url.hostname
      if isInternalHostname hostname then false
      else !isPrivateIpLiteral hostname

/-! ## Internal addresses -/

/-- In 0/8, 10/8, 127/8, 169.254/16, 192.168/16 or 172.16/12. -/
def PrivateIpv4 (value : Nat) : Prop :=
  value / 2 ^ 24 ∈ [0, 10, 127] ∨ value / 2 ^ 16 ∈ [169 * 2 ^ 8 + 254, 192 * 2 ^ 8 + 168] ∨
    value / 2 ^ 20 = 172 * 2 ^ 4 + 1

/-- Link-local or unique-local: in fe80::/10 or fc00::/7. -/
def LocalPiece (first : UInt16) : Prop :=
  first.toNat / 2 ^ 6 = 0xFE80 / 2 ^ 6 ∨ first.toNat / 2 ^ 9 = 0xFC00 / 2 ^ 9

def joined (high low : UInt16) : Nat := high.toNat * 2 ^ 16 + low.toNat

def mapped (high low : UInt16) : List UInt16 := [0, 0, 0, 0, 0, 0xFFFF, high, low]

def compatible (high low : UInt16) : List UInt16 := [0, 0, 0, 0, 0, 0, high, low]

def translated (high low : UInt16) : List UInt16 := [0, 0, 0, 0, 0xFFFF, 0, high, low]

def nat64 (high low : UInt16) : List UInt16 := [0x64, 0xFF9B, 0, 0, 0, 0, high, low]

/-- Unspecified, loopback, link-local, unique-local, or a form of an internal IPv4 address. -/
def InternalIpv6 (pieces : List UInt16) : Prop :=
  pieces = compatible 0 0 ∨ pieces = compatible 0 1 ∨ (∃ first ∈ pieces.head?, LocalPiece first) ∨
    ∃ high low, PrivateIpv4 (joined high low) ∧
      (pieces = mapped high low ∨ pieces = compatible high low ∨ pieces = translated high low ∨
        pieces = nat64 high low)

/-- The forms of internal IPv4 addresses that are let through. -/
def MissedIpv6 (pieces : List UInt16) : Prop :=
  (∃ low, 2 ≤ low ∧ pieces = compatible 0 low) ∨
    ∃ high low, PrivateIpv4 (joined high low) ∧
      (pieces = translated high low ∨ pieces = nat64 high low)

inductive Literal where
  | ipv4 (ip : Ipv4)
  | ipv6 (ip : Ipv6)

namespace Literal

def host : Literal → Host
  | ipv4 ip => .ipv4 ip
  | ipv6 ip => .ipv6 ip

def Internal : Literal → Prop
  | ipv4 ip => PrivateIpv4 (ip.a.toNat * 2 ^ 24 + ip.b.toNat * 2 ^ 16 + ip.c.toNat * 2 ^ 8 + ip.d.toNat)
  | ipv6 ip => InternalIpv6 ip.pieces

def Missed : Literal → Prop
  | ipv4 _ => False
  | ipv6 ip => MissedIpv6 ip.pieces

end Literal

/-! ## Octets -/

section

variable {a b c d : Nat} {high low first piece : UInt16} {pieces back rest : List UInt16}
  {text : List Char}

theorem isPrivateIpv4Octets_iff (hb : b < 256) (hc : c < 256) (hd : d < 256) :
    isPrivateIpv4Octets (a, b, c, d) = true ↔
      PrivateIpv4 (a * 2 ^ 24 + b * 2 ^ 16 + c * 2 ^ 8 + d) := by
  simp only [isPrivateIpv4Octets, PrivateIpv4, List.mem_cons, List.not_mem_nil, or_false,
    Bool.or_eq_true, Bool.and_eq_true, beq_iff_eq, decide_eq_true_eq]
  split_ifs <;> simp only [true_iff, false_iff] <;> omega

theorem isPrivateIpv4Octets_joined :
    isPrivateIpv4Octets (high.toNat >>> 8, high.toNat &&& 0xFF, low.toNat >>> 8,
      low.toNat &&& 0xFF) = true ↔ PrivateIpv4 (joined high low) := by
  have hbyte (n : Nat) : n &&& 0xFF = n % 2 ^ 8 := Nat.and_two_pow_sub_one_eq_mod n 8
  have hlow := low.toNat_lt
  have hsplit : joined high low = high.toNat / 2 ^ 8 * 2 ^ 24 + high.toNat % 2 ^ 8 * 2 ^ 16 +
      low.toNat / 2 ^ 8 * 2 ^ 8 + low.toNat % 2 ^ 8 := by
    rw [joined]
    omega
  rw [hbyte, hbyte, Nat.shiftRight_eq_div_pow, Nat.shiftRight_eq_div_pow, hsplit]
  exact isPrivateIpv4Octets_iff (Nat.mod_lt _ (by decide)) (by omega) (Nat.mod_lt _ (by decide))

/-! ## Numerals of a host -/

theorem parseInt16_hexText : parseInt16 (hexText piece) = some (piece.toNat : Int) := by
  have hplain : ∀ c ∈ hexText piece, isSpace c = false ∧ c ≠ '-' ∧ c ≠ '+' ∧ c ≠ 'x' ∧ c ≠ 'X' :=
    forall_hexText (by decide)
  have hdigits : (hexText piece).takeWhile (fun c => (hexValue c).isSome) = hexText piece := by
    rw [List.takeWhile_eq_self_iff]
    exact hexValue_hexText
  have htrim : (hexText piece).dropWhile isSpace = hexText piece := by
    have hne : hexText piece ≠ [] := hexText_ne_nil
    obtain ⟨c, rest, htext⟩ := List.exists_cons_of_ne_nil hne
    rw [htext] at hplain ⊢
    rw [List.dropWhile_cons_of_neg (by simp [(hplain c List.mem_cons_self).1])]
  have hsign : splitSign (hexText piece) = (1, hexText piece) := by
    unfold splitSign
    split
    · next heq => exact absurd rfl (hplain '-' (heq ▸ List.mem_cons_self)).2.1
    · next heq => exact absurd rfl (hplain '+' (heq ▸ List.mem_cons_self)).2.2.1
    · rfl
  have hprefix : dropHexPrefix (hexText piece) = hexText piece := by
    unfold dropHexPrefix
    split
    · next heq =>
      exact absurd rfl (hplain 'x' (heq ▸ List.mem_cons_of_mem _ List.mem_cons_self)).2.2.2.1
    · next heq =>
      exact absurd rfl (hplain 'X' (heq ▸ List.mem_cons_of_mem _ List.mem_cons_self)).2.2.2.2
    · rfl
  have hne : (hexText piece).isEmpty = false := by simpa using hexText_ne_nil
  simp only [parseInt16, htrim, hsign, hprefix, hdigits, hne, Bool.false_eq_true, if_false,
    readHex_hexText, Int.one_mul]

theorem dot_not_mem_hextets : '.' ∉ hextets pieces := by
  intro h
  have hne : ∀ c ∈ hextets pieces, c ≠ '.' := forall_hextets (by decide) (by decide)
  exact hne '.' h rfl

theorem ipv4OctetsFromLiteral_hextets : ipv4OctetsFromLiteral (hextets pieces) = none := by
  rw [ipv4OctetsFromLiteral, List.splitOn_eq_singleton dot_not_mem_hextets]

theorem land_high {n : Nat} (k j : Nat) (hn : n < 2 ^ (k + j)) :
    n &&& ((2 ^ j - 1) <<< k) = n / 2 ^ k * 2 ^ k := by
  have hlt : n >>> k < 2 ^ j := by
    rw [Nat.shiftRight_eq_div_pow]
    exact Nat.div_lt_of_lt_mul (by rwa [← Nat.pow_add])
  have hhigh : n &&& ((2 ^ j - 1) <<< k) = (n >>> k &&& (2 ^ j - 1)) <<< k := by
    apply Nat.eq_of_testBit_eq
    intro i
    simp only [Nat.testBit_and, Nat.testBit_shiftLeft, Nat.testBit_shiftRight]
    by_cases hi : k ≤ i
    · simp [hi]
    · simp [hi]
  rw [hhigh, Nat.and_two_pow_sub_one_eq_mod, Nat.mod_eq_of_lt hlt, Nat.shiftLeft_eq,
    Nat.shiftRight_eq_div_pow]

/-- The masks test the first seven and the first ten bits. -/
theorem masks_iff :
    (Int.land (first.toNat : Int) 0xFE00 = 0xFC00 ∨ Int.land (first.toNat : Int) 0xFFC0 = 0xFE80) ↔
      LocalPiece first := by
  have hlt : first.toNat < 2 ^ 16 := first.toNat_lt
  have hunique : Int.land (first.toNat : Int) 0xFE00 = ((first.toNat / 2 ^ 9 * 2 ^ 9 : Nat) : Int) := by
    rw [← land_high 9 7 hlt]
    rfl
  have hlink : Int.land (first.toNat : Int) 0xFFC0 = ((first.toNat / 2 ^ 6 * 2 ^ 6 : Nat) : Int) := by
    rw [← land_high 6 10 hlt]
    rfl
  rw [hunique, hlink, LocalPiece]
  omega

/-! ## Reading an address back -/

theorem piece_ne_colon : ∀ tail, hexText first ++ ':' :: text ≠ ':' :: tail := by
  intro tail heq
  have hne : hexText first ≠ [] := hexText_ne_nil
  have hcolon : ':' ∉ hexText first := colon_not_mem_hexText
  obtain ⟨c, more, htext⟩ := List.exists_cons_of_ne_nil hne
  rw [htext, List.cons_append] at heq
  apply hcolon
  rw [htext, (List.cons.inj heq).1]
  exact List.mem_cons_self

/-- An address that starts with a piece is judged by that piece. -/
theorem isPrivateIpv6Literal_piece :
    isPrivateIpv6Literal (hexText first ++ ':' :: text) = true ↔ LocalPiece first := by
  have hprefix (tail : List Char) :
      (':' :: tail).isPrefixOf (hexText first ++ ':' :: text) = false := by
    rw [← Bool.not_eq_true, List.isPrefixOf_iff_prefix]
    rintro ⟨rest, heq⟩
    exact piece_ne_colon _ heq.symm
  have hembedded : ipv4OctetsFromEmbeddedIpv6Literal (hexText first ++ ':' :: text) = none := by
    have hmapped : "::ffff:".toList.isPrefixOf (hexText first ++ ':' :: text) = false := hprefix _
    have hcompatible : "::".toList.isPrefixOf (hexText first ++ ':' :: text) = false := hprefix _
    simp only [ipv4OctetsFromEmbeddedIpv6Literal, hmapped, hcompatible, Bool.false_eq_true,
      if_false]
  have hfront : (hexText first ++ ':' :: text).takeWhile (· != ':') = hexText first := by
    have hall : ∀ c ∈ hexText first, (c != ':') = true := forall_hexText (by decide)
    rw [List.takeWhile_append_of_pos hall, List.takeWhile_cons_of_neg (by decide), List.append_nil]
  have hzero : (hexText first ++ ':' :: text == "::".toList) = false :=
    beq_false_of_ne (piece_ne_colon _)
  have hone : (hexText first ++ ':' :: text == "::1".toList) = false :=
    beq_false_of_ne (piece_ne_colon _)
  have hne : (hexText first).isEmpty = false := by simpa using hexText_ne_nil
  simp only [isPrivateIpv6Literal, hzero, hone, hembedded, hfront, hne, parseInt16_hexText,
    Bool.or_false, Bool.false_eq_true, if_false]
  rw [← masks_iff]
  split_ifs with hunique hlink
  · exact iff_of_true rfl (.inl hunique)
  · exact iff_of_true rfl (.inr hlink)
  · exact iff_of_false (by decide) (not_or.mpr ⟨hunique, hlink⟩)

/-- Only the pieces behind the zeros are looked at. -/
theorem mapped_front :
    "::ffff:".toList.isPrefixOf (':' :: ':' :: hextets back) = true ↔
      ∃ rest, rest ≠ [] ∧ back = 0xFFFF :: rest := by
  have hffff : hexText 0xFFFF = "ffff".toList := by decide
  rw [List.isPrefixOf_iff_prefix]
  constructor
  · rintro ⟨tail, heq⟩
    have htail : "ffff".toList ++ ':' :: tail = hextets back := by
      simpa using heq
    cases back with
    | nil => cases htail
    | cons piece back =>
      cases back with
      | nil =>
        rw [hextets_singleton] at htail
        have hcolon : ':' ∉ hexText piece := colon_not_mem_hexText
        exact absurd (htail ▸ by simp) hcolon
      | cons next back =>
        rw [hextets_cons_cons] at htail
        have hfront := congrArg (List.takeWhile (· != ':')) htail
        have hall : ∀ c ∈ hexText piece, (c != ':') = true := forall_hexText (by decide)
        rw [List.takeWhile_append_of_pos hall, List.takeWhile_cons_of_neg (by decide),
          List.append_nil, List.takeWhile_append_of_pos (by decide),
          List.takeWhile_cons_of_neg (by decide), List.append_nil, ← hffff] at hfront
        exact ⟨next :: back, List.cons_ne_nil _ _, by rw [hexText_inj hfront]⟩
  · rintro ⟨rest, hne, rfl⟩
    obtain ⟨next, more, rfl⟩ := List.exists_cons_of_ne_nil hne
    rw [hextets_cons_cons, hffff]
    exact ⟨hextets (next :: more), rfl⟩

/-- What an embedded address is read as: two pieces. -/
def embeddedPieces (back : List UInt16) : List UInt16 :=
  match back with
  | first :: rest => if first = 0xFFFF ∧ rest ≠ [] then rest else back
  | [] => []

theorem parseInt16_hextets :
    ((hextets back).splitOn ':').map parseInt16 =
      if back = [] then [none] else back.map fun piece => some (piece.toNat : Int) := by
  split
  · next hnil =>
    rw [hnil]
    decide
  · next hne =>
    rw [splitOn_hextets hne, List.map_map]
    exact List.map_congr_left fun piece _ => parseInt16_hexText

theorem embedded_hextets :
    ipv4OctetsFromEmbeddedIpv6Literal (':' :: ':' :: hextets back) =
      match embeddedPieces back with
      | [high, low] => some (high.toNat >>> 8, high.toNat &&& 0xFF, low.toNat >>> 8, low.toNat &&& 0xFF)
      | _ => none := by
  have hembedded : (if "::ffff:".toList.isPrefixOf (':' :: ':' :: hextets back) then
        some ((':' :: ':' :: hextets back).drop 7)
      else if "::".toList.isPrefixOf (':' :: ':' :: hextets back) then
        some ((':' :: ':' :: hextets back).drop 2)
      else none) = some (hextets (embeddedPieces back)) := by
    split
    · next hmapped =>
      obtain ⟨rest, hne, rfl⟩ := mapped_front.mp hmapped
      obtain ⟨next, more, rfl⟩ := List.exists_cons_of_ne_nil hne
      have hffff : hexText 0xFFFF = "ffff".toList := by decide
      rw [hextets_cons_cons, hffff, embeddedPieces, if_pos ⟨rfl, hne⟩]
      rfl
    · next hmapped =>
      have hback : embeddedPieces back = back := by
        cases back with
        | nil => rfl
        | cons first rest =>
          rw [embeddedPieces, if_neg]
          rintro ⟨rfl, hne⟩
          exact hmapped (mapped_front.mpr ⟨rest, hne, rfl⟩)
      rw [hback]
      rfl
  simp only [ipv4OctetsFromEmbeddedIpv6Literal, hembedded, ipv4OctetsFromLiteral_hextets,
    parseInt16_hextets]
  rcases embeddedPieces back with _ | ⟨high, _ | ⟨low, _ | ⟨next, rest⟩⟩⟩
  · rfl
  · rfl
  · have hhigh := high.toNat_lt
    have hlow := low.toNat_lt
    simp only [if_neg (List.cons_ne_nil high [low]), List.map_cons, List.map_nil, Int.toNat_natCast]
    rw [if_neg (by omega)]
  · rfl

/-- An address that starts with a run of zeros is internal when nothing or a one follows, or an
internal IPv4 address. -/
theorem isPrivateIpv6Literal_zeros :
    isPrivateIpv6Literal (':' :: ':' :: hextets back) = true ↔
      back = [] ∨ back = [1] ∨ ∃ high low, PrivateIpv4 (joined high low) ∧
        embeddedPieces back = [high, low] := by
  have hzero : (':' :: ':' :: hextets back = "::".toList) ↔ back = [] := by
    constructor
    · intro h
      apply hextets_inj
      have hright : hextets [] = [] := rfl
      rw [hright]
      simpa using h
    · rintro rfl
      rfl
  have hone : (':' :: ':' :: hextets back = "::1".toList) ↔ back = [1] := by
    constructor
    · intro h
      apply hextets_inj
      have hright : hextets [1] = ['1'] := by decide
      rw [hright]
      simpa using h
    · rintro rfl
      decide
  have hfront : (':' :: ':' :: hextets back).takeWhile (· != ':') = [] := rfl
  rw [isPrivateIpv6Literal]
  simp only [Bool.or_eq_true, beq_iff_eq, hzero, hone, embedded_hextets, hfront]
  by_cases hshort : back = [] ∨ back = [1]
  · rw [if_pos hshort]
    exact iff_of_true rfl (hshort.elim .inl fun h => .inr (.inl h))
  · rw [if_neg hshort]
    rw [not_or] at hshort
    rw [or_iff_right hshort.1, or_iff_right hshort.2]
    rcases embeddedPieces back with _ | ⟨high, _ | ⟨low, _ | ⟨next, rest⟩⟩⟩
    · simp
    · simp
    · simp only [isPrivateIpv4Octets_joined, List.cons.injEq, and_true]
      constructor
      · intro h
        exact ⟨high, low, h, rfl, rfl⟩
      · rintro ⟨_, _, h, rfl, rfl⟩
        exact h
    · simp

/-! ## Which addresses are rejected -/

/-- What the tests on the text reject. -/
def RejectedIpv6 (pieces : List UInt16) : Prop :=
  pieces = compatible 0 0 ∨ pieces = compatible 0 1 ∨ (∃ first ∈ pieces.head?, LocalPiece first) ∨
    ∃ high low, PrivateIpv4 (joined high low) ∧
      (pieces = mapped high low ∨ high ≠ 0 ∧ pieces = compatible high low)

theorem dropWhile_zeros {count : Nat} (hback : back.head? ≠ some 0) :
    (List.replicate count 0 ++ back).dropWhile (· == 0) = back := by
  rw [List.dropWhile_append_of_pos (by simp)]
  cases back with
  | nil => rfl
  | cons piece back =>
    rw [List.dropWhile_cons_of_neg]
    simpa using hback

theorem not_private_ffff : ¬ PrivateIpv4 (joined 0xFFFF low) := by
  have hlow := low.toNat_lt
  have hvalue : joined 0xFFFF low = 65535 * 2 ^ 16 + low.toNat := rfl
  rw [hvalue, PrivateIpv4]
  simp only [List.mem_cons, List.not_mem_nil, or_false]
  omega

theorem embeddedPieces_iff (h : PrivateIpv4 (joined high low)) :
    embeddedPieces back = [high, low] ↔ back = [0xFFFF, high, low] ∨ back = [high, low] := by
  constructor
  · intro heq
    cases back with
    | nil => cases heq
    | cons first rest =>
      rw [embeddedPieces] at heq
      split at heq
      · next hmapped => exact .inl (by rw [hmapped.1, heq])
      · exact .inr heq
  · rintro (rfl | rfl)
    · rfl
    · rw [embeddedPieces, if_neg]
      rintro ⟨rfl, -⟩
      exact not_private_ffff h

/-- Behind a run of zeros that is compressed. -/
theorem rejected_zeros {count : Nat} (hlen : (List.replicate count 0 ++ back).length = 8)
    (hcount : 2 ≤ count) (hhead : back.head? ≠ some 0) :
    RejectedIpv6 (List.replicate count 0 ++ back) ↔
      back = [] ∨ back = [1] ∨ ∃ high low, PrivateIpv4 (joined high low) ∧
        embeddedPieces back = [high, low] := by
  have hdrop : (List.replicate count 0 ++ back).dropWhile (· == 0) = back := dropWhile_zeros hhead
  have hsplit (pieces : List UInt16) : List.replicate count 0 ++ back = pieces →
      back = pieces.dropWhile (· == 0) := by
    rintro rfl
    exact hdrop.symm
  have hback (rest : List UInt16) (hrest : back = rest) :
      List.replicate count 0 ++ back = List.replicate (8 - rest.length) 0 ++ rest := by
    rw [List.length_append, List.length_replicate] at hlen
    rw [hrest] at hlen ⊢
    rw [← hlen, Nat.add_sub_cancel]
  have hlocal : ¬ ∃ first ∈ (List.replicate count 0 ++ back).head?, LocalPiece first := by
    rintro ⟨first, hfirst, h⟩
    obtain ⟨n, rfl⟩ : ∃ n, count = n + 1 := ⟨count - 1, by omega⟩
    rw [List.replicate_succ, List.cons_append, List.head?_cons, Option.mem_some_iff] at hfirst
    rw [← hfirst] at h
    revert h
    rw [LocalPiece]
    decide
  rw [RejectedIpv6, or_iff_right hlocal]
  have hzero : List.replicate count 0 ++ back = compatible 0 0 ↔ back = [] :=
    ⟨hsplit _, hback []⟩
  have hone : List.replicate count 0 ++ back = compatible 0 1 ↔ back = [1] :=
    ⟨hsplit _, hback [1]⟩
  rw [hzero, hone]
  refine or_congr_right (or_congr_right (exists_congr fun high => exists_congr fun low => ?_))
  refine and_congr_right fun hprivate => ?_
  rw [embeddedPieces_iff hprivate]
  refine or_congr ⟨hsplit _, hback [0xFFFF, high, low]⟩ ?_
  constructor
  · rintro ⟨hne, h⟩
    rw [hsplit _ h]
    simp [compatible, hne]
  · intro h
    refine ⟨?_, hback [high, low] h⟩
    rintro rfl
    exact hhead (by rw [h]; rfl)

theorem compressed_zeros {count : Nat} (hlen : (List.replicate count 0 ++ back).length = 8)
    (hcount : 5 ≤ count) (hhead : back.head? ≠ some 0) :
    compressed (List.replicate count 0 ++ back) = ':' :: ':' :: hextets back := by
  rw [compressed, compress_replicate hlen hcount rfl hhead]
  simp only [List.take_zero, Nat.zero_add, List.drop_left' List.length_replicate]
  rfl

/-- An address rejected for what follows its zeros has so many that they are compressed. -/
theorem rejected_compressed (h : pieces = compatible 0 0 ∨ pieces = compatible 0 1 ∨
    ∃ high low, pieces = mapped high low ∨ high ≠ 0 ∧ pieces = compatible high low) :
    ∃ rest, compressed pieces = ':' :: rest := by
  rcases h with rfl | rfl | ⟨high, low, rfl | ⟨hne, rfl⟩⟩
  · exact ⟨_, @compressed_zeros [] 8 rfl (by decide) (by decide)⟩
  · exact ⟨_, @compressed_zeros [1] 7 rfl (by decide) (by decide)⟩
  · exact ⟨_, @compressed_zeros [0xFFFF, high, low] 5 rfl (by decide) (by simp)⟩
  · exact ⟨_, @compressed_zeros [high, low] 6 rfl (by decide) (by simpa using hne)⟩

theorem isPrivateIpv6Literal_iff (ip : Ipv6) :
    isPrivateIpv6Literal ip.text = true ↔ RejectedIpv6 ip.pieces := by
  obtain ⟨pieces, hlen⟩ := ip
  obtain ⟨first, second, rest, rfl⟩ : ∃ first second rest, pieces = first :: second :: rest := by
    match pieces, hlen with
    | first :: second :: rest, _ => exact ⟨first, second, rest, rfl⟩
  change isPrivateIpv6Literal (compressed (first :: second :: rest)) = true ↔
    RejectedIpv6 (first :: second :: rest)
  rcases @compressed_front rest first second with
    ⟨count, hcount, back, hpieces, hhead, htext⟩ | ⟨text, htext⟩
  · rw [htext, isPrivateIpv6Literal_zeros, hpieces, rejected_zeros (hpieces ▸ hlen) hcount hhead]
  · have hplain : ¬ ∃ rest', compressed (first :: second :: rest) = ':' :: rest' := by
      rintro ⟨rest', h⟩
      exact piece_ne_colon rest' (htext ▸ h)
    rw [htext, isPrivateIpv6Literal_piece]
    constructor
    · intro h
      exact .inr (.inr (.inl ⟨first, rfl, h⟩))
    · rintro (h | h | ⟨piece, hpiece, h⟩ | ⟨high, low, -, h⟩)
      · exact absurd (rejected_compressed (.inl h)) hplain
      · exact absurd (rejected_compressed (.inr (.inl h))) hplain
      · rwa [Option.mem_some_iff.mp hpiece]
      · exact absurd (rejected_compressed (.inr (.inr ⟨high, low, h⟩))) hplain

/-- What is internal is rejected, but for the forms that are missed. -/
theorem internalIpv6_iff : InternalIpv6 pieces ↔ RejectedIpv6 pieces ∨ MissedIpv6 pieces := by
  constructor
  · rintro (h | h | h | ⟨high, low, hprivate, h⟩)
    · exact .inl (.inl h)
    · exact .inl (.inr (.inl h))
    · exact .inl (.inr (.inr (.inl h)))
    · rcases h with h | h | h | h
      · exact .inl (.inr (.inr (.inr ⟨high, low, hprivate, .inl h⟩)))
      · by_cases hhigh : high = 0
        · subst hhigh
          by_cases hlow : 2 ≤ low
          · exact .inr (.inl ⟨low, hlow, h⟩)
          · have hcases : low = 0 ∨ low = 1 := by
              rw [UInt16.le_iff_toNat_le] at hlow
              rw [← UInt16.toNat_inj, ← UInt16.toNat_inj]
              change low.toNat = 0 ∨ low.toNat = 1
              change ¬ 2 ≤ low.toNat at hlow
              omega
            rcases hcases with rfl | rfl
            · exact .inl (.inl h)
            · exact .inl (.inr (.inl h))
        · exact .inl (.inr (.inr (.inr ⟨high, low, hprivate, .inr ⟨hhigh, h⟩⟩)))
      · exact .inr (.inr ⟨high, low, hprivate, .inl h⟩)
      · exact .inr (.inr ⟨high, low, hprivate, .inr h⟩)
  · rintro ((h | h | h | ⟨high, low, hprivate, h⟩) | ⟨low, -, h⟩ | ⟨high, low, hprivate, h⟩)
    · exact .inl h
    · exact .inr (.inl h)
    · exact .inr (.inr (.inl h))
    · exact .inr (.inr (.inr ⟨high, low, hprivate, h.imp_right fun h => .inl h.2⟩))
    · refine .inr (.inr (.inr ⟨0, low, ?_, .inr (.inl h)⟩))
      have hlow := low.toNat_lt
      have hvalue : joined 0 low = low.toNat := by
        rw [joined]
        exact Nat.zero_add _
      rw [PrivateIpv4, hvalue]
      simp only [List.mem_cons, List.not_mem_nil, or_false]
      omega
    · exact .inr (.inr (.inr ⟨high, low, hprivate, .inr (.inr h)⟩))

theorem not_rejected_of_missed (h : MissedIpv6 pieces) : ¬ RejectedIpv6 pieces := by
  have hfirst : pieces.head? = some 0 ∨ pieces.head? = some 0x64 := by
    rcases h with ⟨low, -, rfl⟩ | ⟨high, low, -, rfl | rfl⟩
    · exact .inl rfl
    · exact .inl rfl
    · exact .inr rfl
  have hlocal : ¬ ∃ first ∈ pieces.head?, LocalPiece first := by
    rintro ⟨first, hmem, hlocal⟩
    rcases hfirst with hfirst | hfirst <;> rw [hfirst] at hmem <;> cases hmem <;>
      revert hlocal <;> rw [LocalPiece] <;> decide
  rw [RejectedIpv6, or_iff_right hlocal]
  rcases h with ⟨low, hlow, rfl⟩ | ⟨high, low, -, rfl | rfl⟩
  · rintro (heq | heq | ⟨high, other, -, heq | ⟨hne, heq⟩⟩)
    · obtain rfl : low = 0 := by simpa [compatible] using heq
      exact absurd hlow (by decide)
    · obtain rfl : low = 1 := by simpa [compatible] using heq
      exact absurd hlow (by decide)
    · simp [compatible, mapped] at heq
    · simp only [compatible, List.cons.injEq, true_and] at heq
      exact hne heq.1.symm
  · rintro (heq | heq | ⟨_, _, -, heq | ⟨-, heq⟩⟩) <;>
      simp [compatible, mapped, translated] at heq
  · rintro (heq | heq | ⟨_, _, -, heq | ⟨-, heq⟩⟩) <;> simp [compatible, mapped, nat64] at heq

/-! ## The filter on a literal -/

theorem map_toLower (hlower : ∀ c ∈ text, c.toLower = c) : text.map Char.toLower = text := by
  conv_rhs => rw [← List.map_id text]
  exact List.map_congr_left hlower

theorem normalizeEndpointHostname_eq (hlower : ∀ c ∈ text, c.toLower = c)
    (hlast : text.getLast? ≠ some '.') : normalizeEndpointHostname text = text := by
  rw [normalizeEndpointHostname, map_toLower hlower]
  exact if_neg hlast

/-- Names end with a letter, and literals do not. -/
theorem isInternalHostname_eq {last : Char} (hlast : text.getLast? = some last)
    (hletter : last.isAlpha = false) : isInternalHostname text = false := by
  have hnames : ∀ name ∈ internalHostExact ++ internalHostSuffixes,
      name ≠ [] ∧ ∀ c ∈ name.getLast?, c.isAlpha = true := by decide
  have hsuffix : ∀ name ∈ internalHostExact ++ internalHostSuffixes, ¬ name <:+ text := by
    rintro name hname ⟨front, rfl⟩
    obtain ⟨hne, halpha⟩ := hnames name hname
    rw [List.getLast?_append_of_ne_nil front hne] at hlast
    rw [halpha last hlast] at hletter
    cases hletter
  rw [List.forall_mem_append] at hsuffix
  rw [isInternalHostname, Bool.or_eq_false_iff, List.any_eq_false]
  constructor
  · rw [List.contains_eq_mem, decide_eq_false_iff_not]
    exact fun hmem => hsuffix.1 text hmem (List.suffix_refl text)
  · intro name hname
    rw [List.isSuffixOf_iff_suffix]
    exact hsuffix.2 name hname

theorem ipv4OctetsFromLiteral_text (ip : Ipv4) :
    ipv4OctetsFromLiteral ip.text = some (ip.a.toNat, ip.b.toNat, ip.c.toNat, ip.d.toNat) := by
  have hsplit : ip.text.splitOn '.' = [ip.a, ip.b, ip.c, ip.d].map decimalText := by
    rw [Ipv4.text, List.splitOn_intercalate '.' ?_ (by simp)]
    intro part hpart hdot
    obtain ⟨octet, -, rfl⟩ := List.mem_map.mp hpart
    exact absurd (isDigit_decimalText '.' hdot) (by decide)
  have hoctet (octet : UInt8) : isOctetText (decimalText octet) = true := by
    have hpos : 0 < (decimalText octet).length := List.length_pos_iff.mpr decimalText_ne_nil
    have hdigits : (decimalText octet).all Char.isDigit = true :=
      List.all_eq_true.mpr isDigit_decimalText
    rw [isOctetText, Bool.and_eq_true, Bool.and_eq_true, decide_eq_true_eq, decide_eq_true_eq]
    exact ⟨⟨hpos, length_decimalText⟩, hdigits⟩
  have hread (octet : UInt8) : Nat.ofDigitChars 10 (decimalText octet) 0 = octet.toNat :=
    Nat.ofDigitChars_ten_toDigits
  have hbound (octet : UInt8) : ¬ 255 < octet.toNat := by
    have hlt := octet.toNat_lt
    omega
  simp only [ipv4OctetsFromLiteral, hsplit, List.map_cons, List.map_nil, List.all_cons, hoctet,
    List.all_nil, Bool.and_self, if_true, hread, List.any_cons, hbound, decide_false, List.any_nil,
    Bool.or_self, Bool.false_eq_true, if_false, List.getD_cons_zero, List.getD_cons_succ]

theorem digit_toLower {c : Char} (h : c.isDigit = true) : c.toLower = c := by
  unfold Char.toLower
  rw [dif_neg]
  rintro ⟨hupper, -⟩
  rw [Char.isDigit, Bool.and_eq_true, decide_eq_true_eq, decide_eq_true_eq] at h
  exact absurd (UInt32.le_trans hupper h.2) (by decide)

theorem digit_plain {c : Char} (h : c.isDigit = true) : c.isAlpha = false ∧ c ≠ '.' := by
  constructor
  · have hval : c.val ≤ 57 := by
      rw [Char.isDigit, Bool.and_eq_true, decide_eq_true_eq, decide_eq_true_eq] at h
      exact h.2
    have halpha : c.isAlpha = (decide (65 ≤ c.val ∧ c.val ≤ 90) ||
        (decide (97 ≤ c.val) && decide (c.val ≤ 122))) := rfl
    rw [halpha, Bool.or_eq_false_iff, Bool.and_eq_false_iff, decide_eq_false_iff_not,
      decide_eq_false_iff_not]
    exact ⟨fun hupper => absurd (UInt32.le_trans hupper.1 hval) (by decide),
      .inl fun hlower => absurd (UInt32.le_trans hlower hval) (by decide)⟩
  · rintro rfl
    cases h

theorem isPrivateIpLiteral_ipv4 (ip : Ipv4) :
    isPrivateIpLiteral ip.text = true ↔ (Literal.ipv4 ip).Internal := by
  have hlower : ∀ c ∈ ip.text, c.toLower = c := ip.forall_text (fun _ => digit_toLower) (by decide)
  have hdigit : ∀ c : Char, c.isDigit = true → c ≠ '[' ∧ c ≠ ']' ∧ c ≠ ':' := by
    intro c hc
    refine ⟨?_, ?_, ?_⟩ <;> rintro rfl <;> cases hc
  have hbracket : ∀ c ∈ ip.text, c ≠ '[' ∧ c ≠ ']' ∧ c ≠ ':' := ip.forall_text hdigit (by decide)
  have hopen : ip.text.head? ≠ some '[' := fun h =>
    (hbracket '[' (List.mem_of_mem_head? h)).1 rfl
  have hclose : ip.text.getLast? ≠ some ']' := fun h =>
    (hbracket ']' (List.mem_of_mem_getLast? h)).2.1 rfl
  have hstrip : stripBrackets ip.text = ip.text := by
    simp only [stripBrackets, if_neg hopen, if_neg hclose]
  have hcolon : ip.text.contains ':' = false := by
    rw [List.contains_eq_mem, decide_eq_false_iff_not]
    exact fun h => (hbracket ':' h).2.2 rfl
  have hb := ip.b.toNat_lt
  have hc := ip.c.toNat_lt
  have hd := ip.d.toNat_lt
  simp only [isPrivateIpLiteral, hstrip, map_toLower hlower, hcolon, Bool.false_eq_true, if_false,
    ipv4OctetsFromLiteral_text]
  exact isPrivateIpv4Octets_iff (by omega) (by omega) (by omega)

theorem isPrivateIpLiteral_ipv6 (ip : Ipv6) :
    isPrivateIpLiteral (Host.ipv6 ip).text = true ↔ RejectedIpv6 ip.pieces := by
  have hlower : ∀ c ∈ ip.text, c.toLower = c := forall_compressed (by decide) (by decide)
  have hstrip : stripBrackets (Host.ipv6 ip).text = ip.text := by
    have hhead : (Host.ipv6 ip).text.head? = some '[' := rfl
    have hopened : (Host.ipv6 ip).text.tail = ip.text ++ [']'] := rfl
    simp only [stripBrackets, if_pos hhead, hopened, List.getLast?_concat, if_true,
      List.dropLast_concat]
  have hcolon : ip.text.contains ':' = true := by
    rw [List.contains_eq_mem, decide_eq_true_eq, Ipv6.text]
    match hpieces : ip.pieces, ip.length_eq with
    | first :: second :: rest, _ =>
      rcases @compressed_front rest first second with ⟨_, _, _, _, _, htext⟩ | ⟨_, htext⟩ <;>
        rw [htext] <;> simp
  simp only [isPrivateIpLiteral, hstrip, map_toLower hlower, hcolon, if_true]
  exact isPrivateIpv6Literal_iff ip

end

/-- The hosts that the filter rejects. -/
def Literal.Rejected : Literal → Prop
  | .ipv4 ip => (Literal.ipv4 ip).Internal
  | .ipv6 ip => RejectedIpv6 ip.pieces

section

variable {newUrl : List Char → Option Url} {endpoint : List Char} {literal : Literal}

theorem isPrivateIpLiteral_iff :
    isPrivateIpLiteral literal.host.text = true ↔ literal.Rejected := by
  cases literal with
  | ipv4 ip => exact isPrivateIpLiteral_ipv4 ip
  | ipv6 ip => exact isPrivateIpLiteral_ipv6 ip

/-- A literal is no name, and is in normal form. -/
theorem literal_hostname : normalizeEndpointHostname literal.host.text = literal.host.text ∧
    isInternalHostname literal.host.text = false := by
  cases literal with
  | ipv4 ip =>
    have hlower : ∀ c ∈ ip.text, c.toLower = c := ip.forall_text (fun _ => digit_toLower) (by decide)
    have htext : ip.text = decimalText ip.a ++ '.' :: (decimalText ip.b ++ '.' ::
        (decimalText ip.c ++ '.' :: decimalText ip.d)) := by
      simp [Ipv4.text, List.intercalate_cons_cons]
    obtain ⟨front, hfront⟩ : decimalText ip.d <:+ ip.text := by
      rw [htext]
      exact ⟨decimalText ip.a ++ '.' :: (decimalText ip.b ++ '.' :: (decimalText ip.c ++ ['.'])),
        by simp⟩
    have hne : decimalText ip.d ≠ [] := decimalText_ne_nil
    obtain ⟨last, hlast⟩ : ∃ last, (decimalText ip.d).getLast? = some last :=
      ⟨_, List.getLast?_eq_some_getLast hne⟩
    have hdigit := isDigit_decimalText last (List.mem_of_mem_getLast? hlast)
    have hend : ip.text.getLast? = some last := by
      rw [← hfront, List.getLast?_append_of_ne_nil front hne, hlast]
    have hplain := digit_plain hdigit
    refine ⟨normalizeEndpointHostname_eq hlower ?_, isInternalHostname_eq hend hplain.1⟩
    change ip.text.getLast? ≠ some '.'
    rw [hend]
    exact fun h => hplain.2 (Option.some.inj h)
  | ipv6 ip =>
    have hlast : (Host.ipv6 ip).text.getLast? = some ']' := List.getLast?_concat
    have hlower : ∀ c ∈ (Host.ipv6 ip).text, c.toLower = c := by
      have htext : ∀ c ∈ ip.text, c.toLower = c := forall_compressed (by decide) (by decide)
      rw [Host.text, List.forall_mem_append, List.forall_mem_cons, List.forall_mem_singleton]
      exact ⟨⟨by decide, htext⟩, by decide⟩
    refine ⟨normalizeEndpointHostname_eq hlower ?_, isInternalHostname_eq hlast (by decide)⟩
    change (Host.ipv6 ip).text.getLast? ≠ some '.'
    rw [hlast]
    decide

theorem isAllowedPushEndpoint_iff (h : newUrl endpoint = some ⟨"https:".toList, literal.host⟩) :
    isAllowedPushEndpoint newUrl endpoint = true ↔ ¬ literal.Rejected := by
  have hplain : normalizeEndpointHostname literal.host.text = literal.host.text ∧
      isInternalHostname literal.host.text = false := literal_hostname
  obtain ⟨hnormal, hname⟩ := hplain
  simp only [isAllowedPushEndpoint, h, Url.hostname, hnormal, hname, ne_eq, not_true_eq_false,
    if_false, Bool.false_eq_true, ← isPrivateIpLiteral_iff, Bool.not_eq_true', Bool.not_eq_true]

theorem Literal.not_rejected_of_missed (literal : Literal) (h : literal.Missed) :
    ¬ literal.Rejected := by
  cases literal with
  | ipv4 ip => exact h.elim
  | ipv6 ip => exact PushEndpoint.not_rejected_of_missed h

theorem Literal.internal_iff (literal : Literal) :
    literal.Internal ↔ literal.Rejected ∨ literal.Missed := by
  cases literal with
  | ipv4 ip => exact (or_false _).symm.to_iff
  | ipv6 ip => exact internalIpv6_iff

end

/-- An https endpoint on an IP literal is accepted exactly when the address is not internal, but
for IPv4-translated and NAT64 forms of internal addresses and for the IPv4-compatible forms of
0.0/16 that are neither unspecified nor loopback, which are let through. -/
theorem push_endpoint_filter_iff (newUrl : List Char → Option Url) (endpoint protocol : List Char)
    (literal : Literal) (h : newUrl endpoint = some ⟨protocol, literal.host⟩) :
    ((literal.Internal → isAllowedPushEndpoint newUrl endpoint = false) ∧
        (protocol = "https:".toList → ¬ literal.Internal →
          isAllowedPushEndpoint newUrl endpoint = true)) ↔
      ¬ (protocol = "https:".toList ∧ literal.Missed) := by
  by_cases hprotocol : protocol = "https:".toList
  · subst hprotocol
    have hdisjoint : literal.Missed → ¬ literal.Rejected := literal.not_rejected_of_missed
    rw [← Bool.not_eq_true, isAllowedPushEndpoint_iff h, literal.internal_iff]
    tauto
  · have hfalse : isAllowedPushEndpoint newUrl endpoint = false := by
      simp only [isAllowedPushEndpoint, h, if_pos (show protocol ≠ "https:".toList from hprotocol)]
    exact iff_of_true ⟨fun _ => hfalse, fun h => absurd h hprotocol⟩ fun h => hprotocol h.1

theorem loopback_private : PrivateIpv4 (joined 0x7F00 1) := by
  rw [PrivateIpv4]
  decide

/-- The parser reads `https://[::ffff:127.0.0.1]/x` as the mapped form of 127.0.0.1. -/
theorem mapped_loopback_rejected :
    isAllowedPushEndpoint
      (fun _ => some ⟨"https:".toList, .ipv6 ⟨mapped 0x7F00 1, rfl⟩⟩)
      "https://[::ffff:127.0.0.1]/x".toList = false :=
  ((push_endpoint_filter_iff _ _ "https:".toList (.ipv6 ⟨mapped 0x7F00 1, rfl⟩) rfl).mpr (by
    rintro ⟨-, hmissed⟩
    exact Literal.not_rejected_of_missed _ hmissed
      (.inr (.inr (.inr ⟨0x7F00, 1, loopback_private, .inl rfl⟩))))).1
    (.inr (.inr (.inr ⟨0x7F00, 1, loopback_private, .inl rfl⟩)))

/-- The NAT64 form of 127.0.0.1 is let through. -/
theorem nat64_loopback_allowed :
    ¬ ∀ (newUrl : List Char → Option Url) (endpoint protocol : List Char) (literal : Literal),
      newUrl endpoint = some ⟨protocol, literal.host⟩ →
        (literal.Internal → isAllowedPushEndpoint newUrl endpoint = false) ∧
          (protocol = "https:".toList → ¬ literal.Internal →
            isAllowedPushEndpoint newUrl endpoint = true) := by
  intro h
  have hallowed := (h (fun _ => some ⟨"https:".toList, .ipv6 ⟨nat64 0x7F00 1, rfl⟩⟩)
    "https://[64:ff9b::7f00:1]/x".toList _ (.ipv6 ⟨nat64 0x7F00 1, rfl⟩) rfl).1
    (.inr (.inr (.inr ⟨0x7F00, 1, loopback_private, .inr (.inr (.inr rfl))⟩)))
  revert hallowed
  decide

end Climon.Server.PushEndpoint
