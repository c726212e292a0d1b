import Climon.Lib.JsonCost

namespace Climon.Lib.JsonRank

open Climon.Lib.JsonCost Climon.Lib.JsonText

/-!
# How much a string has to be escaped

A string that needs an escape is read only from a text with enough backslashes.
-/

/-! ## What a string takes -/

/-- What the escape of a character takes, by its code: half a backslash is one. -/
def codeRank (n : Nat) : Nat := if n = 0x5C then 2 else if n = 0x22 ∨ n < 0x20 then 1 else 0

def rank (text : List Char) : Nat := (text.map fun c => codeRank c.toNat).sum

def unitsRank (units : List UInt16) : Nat := (units.map fun u => codeRank u.toNat).sum

def width (text : List Char) : Nat := (text.flatMap Utf16.encodeChar).length

section Ranks

variable {c d : Char} {text raw back : List Char} {units : List UInt16} {s : String}

@[simp] theorem rank_cons : rank (c :: text) = codeRank c.toNat + rank text := by
  simp [rank]

@[simp] theorem rank_append : rank (text ++ back) = rank text + rank back := by
  simp [rank]

@[simp] theorem width_cons : width (c :: text) = (Utf16.encodeChar c).length + width text := by
  simp [width]

@[simp] theorem width_append : width (text ++ back) = width text + width back := by
  simp [width]

theorem unitsRank_append {front : List UInt16} :
    unitsRank (front ++ units) = unitsRank front + unitsRank units := by
  simp [unitsRank]

theorem codeRank_le (n : Nat) : codeRank n ≤ 2 := by
  unfold codeRank
  split_ifs <;> omega

theorem codeRank_wide {n : Nat} (h : 0x5D ≤ n) : codeRank n = 0 := by
  unfold codeRank
  rw [if_neg (by omega), if_neg (by omega)]

theorem unitsRank_encodeChar : unitsRank (Utf16.encodeChar c) = codeRank c.toNat :=
  sum_encodeChar fun _ hn => codeRank_wide (Nat.le_trans (by decide) hn)

theorem unitsRank_encode : unitsRank (Utf16.encode s) = rank s.toList := by
  unfold Utf16.encode
  induction s.toList with
  | nil => rfl
  | cons c chars ih =>
    rw [List.flatMap_cons, unitsRank_append, unitsRank_encodeChar, ih, rank_cons]

theorem toNat_ne (h : c ≠ d) : c.toNat ≠ d.toNat := fun heq =>
  h (Char.ext (UInt32.toNat_inj.mp heq))

theorem codeRank_eq_zero :
    codeRank c.toNat = 0 ↔ c ≠ '"' ∧ c ≠ '\\' ∧ 0x20 ≤ c.toNat := by
  constructor
  · intro h
    unfold codeRank at h
    split_ifs at h with hescape hquote
    rw [not_or, Nat.not_lt] at hquote
    refine ⟨?_, ?_, hquote.2⟩
    · rintro rfl
      exact hquote.1 rfl
    · rintro rfl
      exact hescape rfl
  · rintro ⟨hquote, hescape, hcontrol⟩
    have hq := toNat_ne hquote
    have he := toNat_ne hescape
    simp only [Char.reduceToNat] at hq he
    unfold codeRank
    rw [if_neg he, if_neg (by omega)]

theorem rank_eq_zero : rank text = 0 ↔ ∀ c ∈ text, c ≠ '"' ∧ c ≠ '\\' ∧ 0x20 ≤ c.toNat := by
  induction text with
  | nil => exact iff_of_true rfl (List.forall_mem_nil _)
  | cons c text ih => rw [rank_cons, Nat.add_eq_zero_iff, List.forall_mem_cons, codeRank_eq_zero, ih]

theorem slashes_le_rank : 2 * text.count '\\' ≤ rank text := by
  induction text with
  | nil => exact Nat.le_refl 0
  | cons c text ih =>
    rw [List.count_cons, rank_cons]
    by_cases hc : c = '\\'
    · subst hc
      have hrank : codeRank '\\'.toNat = 2 := rfl
      simp only [beq_self_eq_true, if_true]
      omega
    · rw [beq_false_of_ne hc, if_neg Bool.false_ne_true]
      omega

theorem shortEscape_rank (h : shortEscape c = some d) :
    codeRank d.toNat + [c].count '"' ≤ 2 + 2 * [c].count '\\' := by
  unfold shortEscape at h
  split_ifs at h with hself hb hf hn hr ht
  · obtain rfl := Option.some.inj h
    rcases hself with rfl | rfl | rfl <;> decide
  all_goals
    subst_vars
    obtain rfl := Option.some.inj h
    decide

theorem readUnit_quotes {digits : List Char} {unit : UInt16} (h : readUnit digits = some unit) :
    digits.count '"' = 0 := by
  unfold readUnit at h
  split at h
  · next hall =>
    rw [List.count_eq_zero]
    intro hmem
    have hhex := List.all_eq_true.mp hall _ hmem
    cases hhex
  · cases h

/-- Every backslash makes for a backslash or two other escapes, and quotes are escaped. -/
theorem unitsRank_le (htidy : Tidy raw) (h : readUnits raw = some units) :
    unitsRank units + raw.count '"' ≤ 2 * raw.count '\\' := by
  fun_induction readUnits raw generalizing units with
  | case1 =>
    obtain rfl := Option.some.inj h
    exact Nat.le_refl 0
  | case2 a b c d rest ih =>
    rw [Option.bind_eq_some_iff] at h
    obtain ⟨unit, hunit, hmap⟩ := h
    obtain ⟨later, hlater, rfl⟩ := Option.map_eq_some_iff.mp hmap
    have hdigits := readUnit_digits hunit
    have hquotes := readUnit_quotes hunit
    simp only [List.mem_cons, List.not_mem_nil, or_false, forall_eq_or_imp, forall_eq] at hdigits
    have hrest := tidy_tail hdigits.2.2.2 (tidy_tail hdigits.2.2.1 (tidy_tail hdigits.2.1
      (tidy_tail hdigits.1 htidy)))
    have hle := ih hrest hlater
    have hcode := codeRank_le unit.toNat
    have hraw : '\\' :: 'u' :: a :: b :: c :: d :: rest = ['\\', 'u'] ++ [a, b, c, d] ++ rest := rfl
    have hquote : ['\\', 'u'].count '"' = 0 := rfl
    have hescape : ['\\', 'u'].count '\\' = 1 := rfl
    rw [hraw, List.count_append, List.count_append, List.count_append, List.count_append, hquote,
      hescape, hquotes, unitsRank, List.map_cons, List.sum_cons, ← unitsRank]
    omega
  | case3 c rest hunit ih =>
    rw [Option.bind_eq_some_iff] at h
    obtain ⟨d, hd, hmap⟩ := h
    obtain ⟨later, hlater, rfl⟩ := Option.map_eq_some_iff.mp hmap
    have hle := ih htidy hlater
    have hescape := shortEscape_rank hd
    have hraw : '\\' :: c :: rest = ['\\'] ++ [c] ++ rest := rfl
    have hquote : ['\\'].count '"' = 0 := rfl
    have hslash : ['\\'].count '\\' = 1 := rfl
    rw [hraw, List.count_append, List.count_append, List.count_append, List.count_append, hquote,
      hslash, unitsRank_append, unitsRank_encodeChar]
    omega
  | case4 c rest hunit hshort hbad => cases h
  | case5 c rest hunit hshort hgood ih =>
    obtain ⟨later, hlater, rfl⟩ := Option.map_eq_some_iff.mp h
    rw [not_or, Nat.not_lt] at hgood
    have hquote : c ≠ '"' := by
      rintro rfl
      exact htidy.2.1 rfl
    have hle := ih (tidy_tail hgood.1 htidy) hlater
    rw [unitsRank_append, unitsRank_encodeChar, codeRank_eq_zero.mpr ⟨hquote, hgood.1, hgood.2⟩,
      List.count_cons_of_ne hquote, List.count_cons_of_ne hgood.1, Nat.zero_add]
    exact hle

theorem encodeChar_pos : 1 ≤ (Utf16.encodeChar c).length := by
  unfold Utf16.encodeChar
  split <;> simp

theorem length_shortEscape (h : shortEscape c = some d) : (Utf16.encodeChar d).length = 1 := by
  unfold shortEscape at h
  split_ifs at h with hself
  · obtain rfl := Option.some.inj h
    rcases hself with rfl | rfl | rfl <;> rfl
  all_goals
    obtain rfl := Option.some.inj h
    rfl

/-- An escape is longer than what it stands for. -/
theorem length_le_width (h : readUnits raw = some units) :
    units.length ≤ width raw ∧ ('\\' ∈ raw → units.length < width raw) := by
  fun_induction readUnits raw generalizing units with
  | case1 =>
    obtain rfl := Option.some.inj h
    exact ⟨Nat.le_refl 0, fun hmem => absurd hmem List.not_mem_nil⟩
  | case2 a b c d rest ih =>
    rw [Option.bind_eq_some_iff] at h
    obtain ⟨unit, -, hmap⟩ := h
    obtain ⟨later, hlater, rfl⟩ := Option.map_eq_some_iff.mp hmap
    have hle := (ih hlater).1
    have hfront : 2 ≤ width ['\\', 'u'] := by decide
    have hraw : '\\' :: 'u' :: a :: b :: c :: d :: rest = ['\\', 'u'] ++ ([a, b, c, d] ++ rest) := rfl
    rw [hraw, width_append, width_append, List.length_cons]
    omega
  | case3 c rest hunit ih =>
    rw [Option.bind_eq_some_iff] at h
    obtain ⟨d, hd, hmap⟩ := h
    obtain ⟨later, hlater, rfl⟩ := Option.map_eq_some_iff.mp hmap
    have hle := (ih hlater).1
    have hescape := length_shortEscape hd
    have hfront : (Utf16.encodeChar '\\').length = 1 := rfl
    have hc := @encodeChar_pos c
    rw [width_cons, width_cons, List.length_append, hescape, hfront]
    omega
  | case4 c rest hunit hshort hbad => cases h
  | case5 c rest hunit hshort hgood ih =>
    obtain ⟨later, hlater, rfl⟩ := Option.map_eq_some_iff.mp h
    obtain ⟨hle, hlt⟩ := ih hlater
    rw [width_cons, List.length_append]
    refine ⟨Nat.add_le_add_left hle _, fun hmem => Nat.add_lt_add_left (hlt ?_) _⟩
    exact (List.mem_cons.mp hmem).resolve_left fun heq => hgood (.inl heq.symm)

/-- What is read from a raw string with few quotes and backslashes has few to escape. -/
theorem rank_le (htidy : Tidy raw) (h : readString raw = some s) :
    rank s.toList + raw.count '"' ≤ 2 * raw.count '\\' := by
  obtain ⟨units, hunits, hdecode⟩ := Option.bind_eq_some_iff.mp h
  rw [← unitsRank_encode, Utf16.encode_of_decode hdecode]
  exact unitsRank_le htidy hunits

theorem width_lt (h : readString raw = some s) (hescape : '\\' ∈ raw) :
    width s.toList < width raw := by
  obtain ⟨units, hunits, hdecode⟩ := Option.bind_eq_some_iff.mp h
  have hlength : width s.toList = units.length := by
    rw [← Utf16.encode_of_decode hdecode]
    rfl
  rw [hlength]
  exact (length_le_width hunits).2 hescape

end Ranks

/-! ## Strings that are read from no part of another -/

/-- With at least as many characters to escape, and at least as long where they are as many. -/
def Outranks (k name : String) : Prop :=
  rank name.toList < rank k.toList ∨
    rank name.toList = rank k.toList ∧ width name.toList ≤ width k.toList

/-- However it goes on with characters that need no escape, this is not the string. -/
def Poor (k : String) (raw : List Char) : Prop :=
  ∀ tail, (∀ c ∈ tail, c ≠ '"' ∧ c ≠ '\\') → Tidy (raw ++ tail) → readString (raw ++ tail) ≠ some k

section Outranking

variable {k name : String} {c : Char} {raw text : List Char}

/-- Backslashes are too few for the string. -/
theorem poor_of_rank (h : 2 * raw.count '\\' < rank k.toList + raw.count '"') : Poor k raw := by
  intro tail htail htidy hread
  have hle := rank_le htidy hread
  have hquotes : tail.count '"' = 0 := List.count_eq_zero.mpr fun hmem => (htail _ hmem).1 rfl
  have hescapes : tail.count '\\' = 0 := List.count_eq_zero.mpr fun hmem => (htail _ hmem).2 rfl
  rw [List.count_append, List.count_append, hquotes, hescapes] at hle
  omega

theorem Poor.append (h : Poor k raw) (htext : ∀ c ∈ text, c ≠ '"' ∧ c ≠ '\\') :
    Poor k (raw ++ text) := by
  intro tail htail htidy
  rw [List.append_assoc] at htidy ⊢
  exact h _ (List.forall_mem_append.mpr ⟨htext, htail⟩) htidy

theorem poor_nil (hk : 0 < rank k.toList) : Poor k [] := poor_of_rank hk

/-- No part of a string is read as one that outranks it. -/
theorem Outranks.unread (h : Outranks k name) (hk : 0 < rank k.toList)
    (hpart : raw <:+: name.toList) (htidy : Tidy raw) : readString raw ≠ some k := by
  intro hread
  have hle := rank_le htidy hread
  have hcount := hpart.sublist.count_le '\\'
  have hname := @slashes_le_rank name.toList
  have hescape : '\\' ∈ raw := List.count_pos_iff.mp (by omega)
  have hlt := width_lt hread hescape
  have hwidth : width raw ≤ width name.toList := by
    obtain ⟨front, back, hsplit⟩ := hpart
    rw [← hsplit, width_append, width_append]
    omega
  rcases h with hrank | ⟨hrank, hlonger⟩
  · omega
  · omega

/-- Nor is what ends with an escaped quote behind it. -/
theorem Outranks.poor (h : Outranks k name) (hpart : raw <:+: name.toList) :
    Poor k (raw ++ ['"']) := by
  apply poor_of_rank
  have hcount := hpart.sublist.count_le '\\'
  have hname := @slashes_le_rank name.toList
  have hquote : ['"'].count '"' = 1 := rfl
  have hescape : ['"'].count '\\' = 0 := rfl
  rw [List.count_append, List.count_append, hquote, hescape]
  rcases h with hrank | ⟨hrank, -⟩
  · omega
  · omega

end Outranking

end Climon.Lib.JsonRank
