import Climon.Lib.SeparatedFields
import Climon.Update.Manifest
import Mathlib.Data.List.Lex

namespace Climon.Update.VersionOrder

open Climon.Cli.Args Climon.Lib Climon.Update.Manifest

/-! # The order of versions -/

/-- The exact difference of the first two numbers that differ. -/
def difference : List Int → List Int → Int
  | a :: as, b :: bs => if a ≠ b then a - b else difference as bs
  | _, _ => 0

def exactCompare (a b : String) : Int :=
  difference ((parse a).map Int64.toInt) ((parse b).map Int64.toInt)

/-- The comparison does not overflow. -/
def Exact (a b : String) : Prop := (compareSemver a b).toInt = exactCompare a b

/-- The first two numbers that differ are less than `2 ^ 63` apart. -/
def Close (a b : String) : Prop := |exactCompare a b| < 2 ^ 63

/-- Three versions are compared without overflow, the same way round from both sides, and in one
order. -/
structure Ordered (a b c : String) : Prop where
  exact : ∀ x ∈ [a, b, c], ∀ y ∈ [a, b, c], Exact x y
  antisymm : ∀ x ∈ [a, b, c], ∀ y ∈ [a, b, c], 0 < compareSemver x y ↔ compareSemver y x < 0
  trans : 0 ≤ compareSemver a b → 0 ≤ compareSemver b c → 0 ≤ compareSemver a c
  strict : 0 < compareSemver a b → 0 < compareSemver b c → 0 < compareSemver a c

section

variable {as bs cs : List Int} {xs ys : List Int64} {a b c : String}

theorem difference_swap : difference bs as = -difference as bs := by
  induction as generalizing bs with
  | nil => cases bs <;> simp [difference]
  | cons a as ih =>
    cases bs with
    | nil => simp [difference]
    | cons b bs =>
      simp only [difference]
      by_cases heq : a = b
      · rw [if_neg (not_not.mpr heq.symm), if_neg (not_not.mpr heq), ih]
      · rw [if_pos (Ne.symm heq), if_pos heq]
        omega

theorem difference_pos (hlen : as.length = bs.length) : 0 < difference as bs ↔ bs < as := by
  induction as generalizing bs with
  | nil =>
    cases bs with
    | nil => simp [difference]
    | cons b bs => simp at hlen
  | cons a as ih =>
    cases bs with
    | nil => simp at hlen
    | cons b bs =>
      have htail := ih (by simpa using hlen)
      simp only [difference, List.cons_lt_cons_iff]
      by_cases heq : a = b
      · subst heq
        simpa using htail
      · rw [if_pos heq]
        simp [Ne.symm heq]

theorem difference_nonneg (hlen : as.length = bs.length) : 0 ≤ difference as bs ↔ bs ≤ as := by
  rw [← not_lt, ← not_lt, ← difference_pos hlen.symm, difference_swap]
  omega

/-- The subtraction wraps. -/
theorem toInt_compareParts :
    (compareParts xs ys).toInt =
      (difference (xs.map Int64.toInt) (ys.map Int64.toInt)).bmod (2 ^ 64) := by
  induction xs generalizing ys with
  | nil => simp [compareParts, difference]
  | cons x xs ih =>
    cases ys with
    | nil => simp [compareParts, difference]
    | cons y ys =>
      simp only [compareParts, List.map_cons, difference]
      by_cases heq : x = y
      · rw [if_neg (not_not.mpr heq), if_neg (not_not.mpr (congrArg _ heq)), ih]
      · have hne : x.toInt ≠ y.toInt := fun h => heq (Int64.toInt_inj.mp h)
        rw [if_pos heq, if_pos hne, Int64.toInt_sub]

theorem exact_iff : Exact a b ↔ -2 ^ 63 ≤ exactCompare a b ∧ exactCompare a b < 2 ^ 63 := by
  rw [Exact, compareSemver, toInt_compareParts, ← exactCompare, Int.bmod_eq_iff (by decide),
    sub_self]
  simp

theorem exactCompare_swap : exactCompare b a = -exactCompare a b := difference_swap

theorem close_iff : Close a b ↔ Exact a b ∧ Exact b a := by
  have hswap : exactCompare b a = -exactCompare a b := exactCompare_swap
  rw [exact_iff, exact_iff, hswap, Close, abs_lt]
  omega

theorem length_parse : ((parse a).map Int64.toInt).length = ((parse b).map Int64.toInt).length := by
  simp only [parse, List.map_cons, List.map_nil, List.length_cons, List.length_nil]

theorem Exact.pos (h : Exact a b) :
    0 < compareSemver a b ↔ (parse b).map Int64.toInt < (parse a).map Int64.toInt := by
  rw [Int64.lt_iff_toInt_lt, h, Int64.toInt_zero, exactCompare, difference_pos length_parse]

theorem Exact.neg (h : Exact a b) :
    compareSemver a b < 0 ↔ (parse a).map Int64.toInt < (parse b).map Int64.toInt := by
  rw [Int64.lt_iff_toInt_lt, h, Int64.toInt_zero, ← difference_pos length_parse, exactCompare,
    difference_swap]
  omega

theorem Exact.nonneg (h : Exact a b) :
    0 ≤ compareSemver a b ↔ (parse b).map Int64.toInt ≤ (parse a).map Int64.toInt := by
  rw [Int64.le_iff_toInt_le, h, Int64.toInt_zero, exactCompare, difference_nonneg length_parse]

theorem exact_self : Exact a a := by
  rw [exact_iff]
  have hswap : exactCompare a a = -exactCompare a a := exactCompare_swap
  omega

theorem ordered_iff : Ordered a b c ↔ Close a b ∧ Close b c ∧ Close a c := by
  simp only [close_iff]
  constructor
  · intro h
    have hexact := h.exact
    exact ⟨⟨hexact a (by simp) b (by simp), hexact b (by simp) a (by simp)⟩,
      ⟨hexact b (by simp) c (by simp), hexact c (by simp) b (by simp)⟩,
      hexact a (by simp) c (by simp), hexact c (by simp) a (by simp)⟩
  · rintro ⟨⟨hab, hba⟩, ⟨hbc, hcb⟩, hac, hca⟩
    have hexact : ∀ x ∈ [a, b, c], ∀ y ∈ [a, b, c], Exact x y := by
      simp only [List.forall_mem_cons, List.not_mem_nil, IsEmpty.forall_iff, implies_true,
        and_true]
      exact ⟨⟨exact_self, hab, hac⟩, ⟨hba, exact_self, hbc⟩, hca, hcb, exact_self⟩
    refine ⟨hexact, ?_, ?_, ?_⟩
    · intro x hx y hy
      rw [(hexact x hx y hy).pos, (hexact y hy x hx).neg]
    · rw [hab.nonneg, hbc.nonneg, hac.nonneg]
      exact fun h k => le_trans k h
    · rw [hab.pos, hbc.pos, hac.pos]
      exact fun h k => lt_trans k h

end

/-! ## Released versions -/

/-- `[v]X.Y.Z[-prerelease][+build]` -/
structure Release where
  lead : List Char
  major : List Char
  minor : List Char
  patch : List Char
  suffix : List Char
  lead_v : lead = [] ∨ lead = ['v']
  numeral : ∀ digits ∈ [major, minor, patch], digits ≠ [] ∧ ∀ c ∈ digits, c.isDigit = true
  suffix_mark : ∀ c ∈ suffix.head?, c = '-' ∨ c = '+'
  suffix_solid : ∀ c ∈ suffix, isWhitespace c = false

namespace Release

def numbers (r : Release) : List Char :=
  r.major ++ '.' :: (r.minor ++ '.' :: (r.patch ++ r.suffix))

def text (r : Release) : String := String.ofList (r.lead ++ r.numbers)

def value (digits : List Char) : Nat := Nat.ofDigitChars 10 digits 0

def core (r : Release) : List Nat := [value r.major, value r.minor, value r.patch]

/-- A number that does not fit counts as zero. -/
def read (n : Nat) : Nat := if n < 2 ^ 63 then n else 0

/-- The numbers that are compared: a patch number with a suffix is none, and counts as zero. -/
def effective (r : Release) : List Nat :=
  [read (value r.major), read (value r.minor), if r.suffix = [] then read (value r.patch) else 0]

end Release

section

variable {digits tail xs ys : List Char} {r a b : Release}

theorem parseI64_digits (h : digits ≠ [] ∧ ∀ c ∈ digits, c.isDigit = true) :
    (parseI64 digits).getD 0 = Int64.ofInt (Release.read (Release.value digits)) := by
  obtain ⟨hne, hdigits⟩ := h
  have hsign (c : Char) (hc : c.isDigit = false) : ∀ rest, digits ≠ c :: rest := by
    rintro rest rfl
    rw [hdigits c List.mem_cons_self] at hc
    cases hc
  unfold parseI64
  split
  · exact absurd rfl (hsign '-' rfl _)
  · exact absurd rfl (hsign '+' rfl _)
  · dsimp only
    rw [if_pos ⟨hne, List.all_eq_true.mpr hdigits⟩, Option.bind_some, Release.read, Release.value]
    split <;> rfl

/-- A number with anything behind it is no number. -/
theorem parseI64_suffix {mark : Char} (h : digits ≠ [] ∧ ∀ c ∈ digits, c.isDigit = true)
    (hmark : mark.isDigit = false) : (parseI64 (digits ++ mark :: tail)).getD 0 = 0 := by
  obtain ⟨hne, hdigits⟩ := h
  obtain ⟨first, rest, rfl⟩ := List.exists_cons_of_ne_nil hne
  have hfirst := hdigits first List.mem_cons_self
  have hall : ((first :: rest) ++ mark :: tail).all Char.isDigit = false := by
    simp [hmark]
  unfold parseI64
  split
  · next heq =>
    rw [List.cons_append, List.cons.injEq] at heq
    rw [heq.1] at hfirst
    cases hfirst
  · next heq =>
    rw [List.cons_append, List.cons.injEq] at heq
    rw [heq.1] at hfirst
    cases hfirst
  · dsimp only
    rw [if_neg (by simp only [hall]; simp), Option.bind_none]
    rfl

theorem dot_not_mem (h : ∀ c ∈ digits, c.isDigit = true) : '.' ∉ digits := by
  intro hmem
  cases h '.' hmem

theorem text_solid : ∀ c ∈ r.lead ++ r.numbers, isWhitespace c = false := by
  have hdigits : ∀ digits ∈ [r.major, r.minor, r.patch], ∀ c ∈ digits, isWhitespace c = false :=
    fun digits hmem c hc => digit_not_whitespace ((r.numeral digits hmem).2 c hc)
  have hlead : ∀ c ∈ r.lead, isWhitespace c = false := by
    rcases r.lead_v with h | h <;> rw [h] <;> decide
  have hdot : isWhitespace '.' = false := by decide
  simp only [List.forall_mem_cons, List.not_mem_nil, IsEmpty.forall_iff, implies_true,
    and_true] at hdigits
  simp only [Release.numbers, List.forall_mem_append, List.forall_mem_cons]
  exact ⟨hlead, hdigits.1, hdot, hdigits.2.1, hdot, hdigits.2.2, r.suffix_solid⟩

/-- The third part reaches to the next dot, and so takes in the start of a suffix. -/
theorem splitOn_numbers :
    ∃ part parts, r.numbers.splitOn '.' = r.major :: r.minor :: part :: parts ∧
      (parseI64 part).getD 0 =
        Int64.ofInt (if r.suffix = [] then Release.read (Release.value r.patch) else 0 : Nat) := by
  have hmajor := dot_not_mem (r.numeral r.major (by simp)).2
  have hminor := dot_not_mem (r.numeral r.minor (by simp)).2
  have hpatch := r.numeral r.patch (by simp)
  rw [Release.numbers, List.splitOn_append_cons_self_of_not_mem hmajor,
    List.splitOn_append_cons_self_of_not_mem hminor]
  cases hsuffix : r.suffix with
  | nil =>
    rw [List.append_nil, List.splitOn_eq_singleton (dot_not_mem hpatch.2), if_pos rfl]
    exact ⟨r.patch, [], rfl, parseI64_digits hpatch⟩
  | cons mark tail =>
    obtain ⟨part, parts, hsplit⟩ := List.exists_cons_of_ne_nil (List.splitOn_ne_nil '.' tail)
    have hmark : mark = '-' ∨ mark = '+' := r.suffix_mark mark (by rw [hsuffix]; rfl)
    have hplain : mark.isDigit = false ∧ (mark == '.') = false := by
      rcases hmark with rfl | rfl <;> decide
    rw [SeparatedFields.splitOn_append (dot_not_mem hpatch.2), List.splitOn_cons_eq_if_modifyHead, hplain.2, hsplit,
      if_neg (by simp), List.modifyHead_cons, List.modifyHead_cons, if_neg (List.cons_ne_nil _ _)]
    exact ⟨_, parts, rfl, parseI64_suffix hpatch hplain.1⟩

theorem numbers_ne (rest : List Char) : r.numbers ≠ 'v' :: rest := by
  obtain ⟨hne, hdigits⟩ := r.numeral r.major (by simp)
  obtain ⟨first, tail, hmajor⟩ := List.exists_cons_of_ne_nil hne
  have hfirst := hdigits first (by rw [hmajor]; exact List.mem_cons_self)
  rw [Release.numbers, hmajor, List.cons_append]
  intro heq
  rw [(List.cons.inj heq).1] at hfirst
  cases hfirst

theorem parse_text : parse r.text = r.effective.map fun n : Nat => Int64.ofInt n := by
  obtain ⟨part, parts, hsplit, hpart⟩ := splitOn_numbers (r := r)
  have hparts : parse r.text = [versionPart (r.numbers.splitOn '.') 0,
      versionPart (r.numbers.splitOn '.') 1, versionPart (r.numbers.splitOn '.') 2] := by
    unfold parse
    rw [Release.text, trim_solid text_solid, String.toList_ofList]
    dsimp only
    split
    · next rest heq =>
      rcases r.lead_v with hlead | hlead <;> rw [hlead] at heq
      · exact absurd heq (numbers_ne rest)
      · rw [List.singleton_append, List.cons.injEq] at heq
        rw [heq.2]
    · next hv =>
      rcases r.lead_v with hlead | hlead <;> rw [hlead] at hv ⊢
      · rfl
      · exact absurd rfl (hv r.numbers)
  rw [hparts, hsplit]
  simp only [versionPart, List.getD_cons_zero, List.getD_cons_succ, hpart,
    parseI64_digits (r.numeral r.major (by simp)), parseI64_digits (r.numeral r.minor (by simp)),
    Release.effective, List.map_cons, List.map_nil]

theorem read_lt (n : Nat) : Release.read n < 2 ^ 63 := by
  rw [Release.read]
  split
  · assumption
  · decide

theorem effective_lt : ∀ n ∈ r.effective, n < 2 ^ 63 := by
  simp only [Release.effective, List.forall_mem_cons, List.not_mem_nil, IsEmpty.forall_iff,
    implies_true, and_true]
  refine ⟨read_lt _, read_lt _, ?_⟩
  split
  · exact read_lt _
  · decide

theorem parse_text_toInt :
    (parse r.text).map Int64.toInt = r.effective.map fun n : Nat => (n : Int) := by
  rw [parse_text, List.map_map]
  apply List.map_congr_left
  intro n hn
  have hlt := effective_lt n hn
  exact Int64.toInt_ofInt_of_le (by omega) (by omega)

theorem difference_lt {as bs : List Int} {bound : Int} (hpos : 0 < bound)
    (ha : ∀ a ∈ as, 0 ≤ a ∧ a < bound) (hb : ∀ b ∈ bs, 0 ≤ b ∧ b < bound) :
    |difference as bs| < bound := by
  induction as generalizing bs with
  | nil => simpa [difference] using hpos
  | cons a as ih =>
    cases bs with
    | nil => simpa [difference] using hpos
    | cons b bs =>
      rw [List.forall_mem_cons] at ha hb
      rw [difference]
      split
      · rw [abs_lt]
        omega
      · exact ih ha.2 hb.2

/-- Released versions carry no minus sign, and so are compared without overflow. -/
theorem close_text : Close a.text b.text := by
  have hbound (r : Release) : ∀ n ∈ r.effective.map fun n : Nat => (n : Int),
      0 ≤ n ∧ n < 2 ^ 63 := by
    intro n hn
    obtain ⟨m, hm, rfl⟩ := List.mem_map.mp hn
    have hlt := effective_lt m hm
    omega
  rw [Close, exactCompare, parse_text_toInt, parse_text_toInt]
  exact difference_lt (by decide) (hbound a) (hbound b)

theorem map_cast_lt {ms ns : List Nat} :
    (ms.map fun n : Nat => (n : Int)) < (ns.map fun n : Nat => (n : Int)) ↔ ms < ns := by
  induction ms generalizing ns with
  | nil => cases ns <;> simp
  | cons m ms ih =>
    cases ns with
    | nil => simp
    | cons n ns => simp [List.cons_lt_cons_iff, ih]

theorem compareSemver_pos : 0 < compareSemver b.text a.text ↔ a.effective < b.effective := by
  have hexact : Exact b.text a.text := (close_iff.mp close_text).1
  rw [hexact.pos, parse_text_toInt, parse_text_toInt, map_cast_lt]

end

/-- Of two releases the older one is never offered, and the newer one is. -/
def NewerOffered (a b : Release) : Prop :=
  a.core < b.core → ¬ 0 < compareSemver a.text b.text ∧ 0 < compareSemver b.text a.text

/-- Versions are compared in one order exactly while no difference overflows, and a newer release
is offered exactly when it is still newer by the numbers that are read. -/
theorem version_order_iff (x y z : String) (a b : Release) :
    (Ordered x y z ↔ Close x y ∧ Close y z ∧ Close x z) ∧
      (NewerOffered a b ↔ (a.core < b.core → a.effective < b.effective)) := by
  refine ⟨ordered_iff, ?_⟩
  have hasymm : 0 < compareSemver b.text a.text → ¬ 0 < compareSemver a.text b.text := by
    rw [compareSemver_pos, compareSemver_pos]
    exact fun h => lt_asymm h
  rw [NewerOffered, ← compareSemver_pos]
  exact forall_congr' fun _ => ⟨fun h => h.2, fun h => ⟨hasymm h, h⟩⟩

def stable : Release where
  lead := []
  major := ['1']
  minor := ['2']
  patch := ['3']
  suffix := []
  lead_v := by decide
  numeral := by decide
  suffix_mark := by decide
  suffix_solid := by decide

def candidate : Release where
  lead := ['v']
  major := ['1']
  minor := ['2']
  patch := ['4']
  suffix := "-rc.1".toList
  lead_v := by decide
  numeral := by decide
  suffix_mark := by decide
  suffix_solid := by decide

/-- The release before a release candidate is offered to whoever runs the candidate. -/
theorem older_release_offered :
    ¬ ((∀ a b c : String, Ordered a b c) ∧ ∀ a b : Release, NewerOffered a b) := by
  rintro ⟨-, h⟩
  have hcore : stable.core < candidate.core := by decide
  have hoffered : 0 < compareSemver stable.text candidate.text := by decide
  exact (h stable candidate hcore).1 hoffered

end Climon.Update.VersionOrder
