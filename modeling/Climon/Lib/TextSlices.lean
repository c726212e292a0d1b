import Climon.Lib.Utf8
import Mathlib.Algebra.GroupWithZero.Nat

namespace Climon.Lib.TextSlices

/-! # Byte offsets into a text -/

def byteLength (text : List Char) : Nat := (text.map Char.utf8Size).sum

/-- What comes before a byte offset and what comes from it on, unless the offset is inside
a character or past the end. -/
def cutAt : List Char → Nat → Option (List Char × List Char)
  | text, 0 => some ([], text)
  | [], _ + 1 => none
  | c :: text, n + 1 =>
    if c.utf8Size ≤ n + 1 then
      (cutAt text (n + 1 - c.utf8Size)).map fun cut => (c :: cut.1, cut.2)
    else none

/-- The character that starts at a byte offset. -/
def charAt (text : List Char) (offset : Nat) : Option Char :=
  (cutAt text offset).bind fun cut => cut.2.head?

/-- `str::find` of a character -/
def find (text : List Char) (c : Char) : Option Nat :=
  if c ∈ text then some (byteLength (text.takeWhile fun d => d != c)) else none

/-- `str::rfind` of a set of characters -/
def rfind (p : Char → Bool) : List Char → Option Nat
  | [] => none
  | c :: text =>
    match rfind p text with
    | some offset => some (c.utf8Size + offset)
    | none => if p c then some 0 else none

/-- `str::get(start..stop)` -/
def get (text : List Char) (start stop : Nat) : Option (List Char) :=
  if start ≤ stop then do
    let before ← cutAt text start
    let middle ← cutAt before.2 (stop - start)
    some middle.1
  else none

section

variable {text as bs : List Char} {offset start stop : Nat}

@[simp] theorem byteLength_nil : byteLength [] = 0 := rfl

@[simp] theorem byteLength_cons {c : Char} :
    byteLength (c :: text) = c.utf8Size + byteLength text := rfl

@[simp] theorem byteLength_append : byteLength (as ++ bs) = byteLength as + byteLength bs := by
  simp [byteLength]

@[simp] theorem cutAt_zero : cutAt text 0 = some ([], text) := by
  cases text <;> rfl

/-- A text is cut where its first part ends. -/
theorem cutAt_byteLength (as bs : List Char) : cutAt (as ++ bs) (byteLength as) = some (as, bs) := by
  induction as with
  | nil => exact cutAt_zero
  | cons c as ih =>
    have hpos := c.utf8Size_pos
    obtain ⟨n, hn⟩ : ∃ n, byteLength (c :: as) = n + 1 := by
      rw [byteLength_cons]
      exact ⟨c.utf8Size + byteLength as - 1, by omega⟩
    have hrest : n + 1 - c.utf8Size = byteLength as := by
      rw [byteLength_cons] at hn
      omega
    rw [hn, List.cons_append, cutAt, if_pos (by rw [← hn, byteLength_cons]; omega), hrest, ih]
    rfl

/-- A text is cut between two of its characters, and nowhere else. -/
theorem cutAt_eq_some_iff :
    cutAt text offset = some (as, bs) ↔ text = as ++ bs ∧ byteLength as = offset := by
  constructor
  · intro h
    fun_induction cutAt text offset generalizing as with
    | case1 text =>
      obtain ⟨rfl, rfl⟩ := Prod.mk.inj (Option.some.inj h)
      exact ⟨rfl, rfl⟩
    | case2 => cases h
    | case3 c text n hle ih =>
      obtain ⟨cut, hcut, heq⟩ := Option.map_eq_some_iff.mp h
      obtain ⟨rfl, rfl⟩ := Prod.mk.inj heq
      obtain ⟨htext, hlen⟩ := ih hcut
      refine ⟨by rw [List.cons_append, ← htext], ?_⟩
      rw [byteLength_cons, hlen]
      omega
    | case4 => cases h
  · rintro ⟨rfl, rfl⟩
    exact cutAt_byteLength as bs

theorem rfind_eq_none_iff {p : Char → Bool} : rfind p text = none ↔ ∀ c ∈ text, p c = false := by
  induction text with
  | nil => simp [rfind]
  | cons c text ih =>
    rw [rfind, List.forall_mem_cons, ← ih]
    cases rfind p text <;> simp

theorem rfind_eq_some {p : Char → Bool} (h : rfind p text = some offset) :
    ∃ before c after, text = before ++ c :: after ∧ byteLength before = offset ∧ p c = true ∧
      ∀ d ∈ after, p d = false := by
  induction text generalizing offset with
  | nil => cases h
  | cons c text ih =>
    rw [rfind] at h
    split at h
    · next later hlater =>
      obtain ⟨before, d, after, rfl, hlen, hd, hafter⟩ := ih hlater
      refine ⟨c :: before, d, after, rfl, ?_, hd, hafter⟩
      rw [byteLength_cons, hlen]
      exact Option.some.inj h
    · next hnone =>
      split at h
      · next hc =>
        exact ⟨[], c, text, rfl, Option.some.inj h, hc, rfind_eq_none_iff.mp hnone⟩
      · cases h

theorem cutAt_find {c : Char} (h : find text c = some offset) :
    ∃ before after, text = before ++ c :: after ∧
      cutAt text offset = some (before, c :: after) := by
  have hmem : c ∈ text := by
    by_contra hmem
    simp [find, hmem] at h
  obtain ⟨before, after, rfl, hbefore⟩ := List.eq_append_cons_of_mem hmem
  have hne : ∀ d ∈ before, (d != c) = true := by
    intro d hd
    simpa using fun heq : d = c => hbefore (heq ▸ hd)
  have htake : (before ++ c :: after).takeWhile (fun d => d != c) = before := by
    rw [List.takeWhile_append_of_pos hne, List.takeWhile_cons_of_neg (by simp), List.append_nil]
  rw [find, if_pos hmem, htake, Option.some.injEq] at h
  exact ⟨before, after, rfl, h ▸ cutAt_byteLength before (c :: after)⟩

/-- An ASCII byte of the encoding is a character of the text. -/
theorem split_at_ascii {front back : List UInt8} {b : UInt8}
    (h : text.flatMap String.utf8EncodeChar = front ++ b :: back) (hb : b < 0x80) :
    ∃ before c after, text = before ++ c :: after ∧ byteLength before = front.length ∧
      c.utf8Size = 1 ∧ after.flatMap String.utf8EncodeChar = back := by
  induction text generalizing front with
  | nil => simp at h
  | cons c text ih =>
    have hlater (front' : List UInt8) (hfront : front = String.utf8EncodeChar c ++ front')
        (hrest : text.flatMap String.utf8EncodeChar = front' ++ b :: back) :
        ∃ before d after, c :: text = before ++ d :: after ∧ byteLength before = front.length ∧
          d.utf8Size = 1 ∧ after.flatMap String.utf8EncodeChar = back := by
      obtain ⟨before, d, after, rfl, hlen, hd, hback⟩ := ih hrest
      refine ⟨c :: before, d, after, rfl, ?_, hd, hback⟩
      rw [byteLength_cons, hlen, hfront, List.length_append, String.length_utf8EncodeChar]
    rw [List.flatMap_cons, List.append_eq_append_iff] at h
    rcases h with ⟨front', hfront, hrest⟩ | ⟨part, hchar, hrest⟩
    · exact hlater front' hfront hrest
    · cases part with
      | nil => exact hlater [] (by simpa using hchar.symm) hrest.symm
      | cons b' part =>
        rw [List.cons_append, List.cons.injEq] at hrest
        obtain ⟨rfl, hback⟩ := hrest
        have hsize : c.utf8Size = 1 := by
          by_contra hsize
          have hwide := Utf8.encodeChar_wide hsize (b := b) (by rw [hchar]; simp)
          exact absurd hb (UInt8.not_lt.mpr hwide)
        have hlen := congrArg List.length hchar
        rw [String.length_utf8EncodeChar, hsize, List.length_append, List.length_cons] at hlen
        have hpart : part = [] := List.length_eq_zero_iff.mp (by omega)
        refine ⟨[], c, text, rfl, ?_, hsize, ?_⟩
        · rw [byteLength_nil]
          omega
        · rw [hback, hpart, List.nil_append]

end

/-! ## Texts of one-byte characters -/

def Ascii (text : List Char) : Prop := ∀ c ∈ text, c.utf8Size = 1

section

variable {text : List Char} {offset start stop : Nat}

theorem Ascii.byteLength (h : Ascii text) : byteLength text = text.length := by
  induction text with
  | nil => rfl
  | cons c text ih =>
    rw [Ascii, List.forall_mem_cons] at h
    rw [byteLength_cons, h.1, ih h.2, List.length_cons, Nat.add_comm]

theorem Ascii.cutAt (h : Ascii text) (hle : offset ≤ text.length) :
    cutAt text offset = some (text.take offset, text.drop offset) := by
  have htake : Ascii (text.take offset) := fun c hc => h c (List.mem_of_mem_take hc)
  have hlen : TextSlices.byteLength (text.take offset) = offset := by
    rw [htake.byteLength, List.length_take]
    exact Nat.min_eq_left hle
  have hcut := cutAt_byteLength (text.take offset) (text.drop offset)
  rwa [List.take_append_drop, hlen] at hcut

theorem Ascii.charAt (h : Ascii text) (hle : offset ≤ text.length) :
    charAt text offset = text[offset]? := by
  rw [TextSlices.charAt, h.cutAt hle, Option.bind_some, List.head?_drop]

theorem Ascii.get (h : Ascii text) (hle : start ≤ stop) (hstop : stop ≤ text.length) :
    get text start stop = some ((text.drop start).take (stop - start)) := by
  have hrest : Ascii (text.drop start) := fun c hc => h c (List.mem_of_mem_drop hc)
  have hlen : stop - start ≤ (text.drop start).length := by
    rw [List.length_drop]
    omega
  rw [TextSlices.get, if_pos hle, h.cutAt (by omega), Option.bind_eq_bind, Option.bind_some,
    hrest.cutAt hlen]
  rfl

end

end Climon.Lib.TextSlices
