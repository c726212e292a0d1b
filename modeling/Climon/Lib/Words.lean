import Mathlib.Data.List.Chain
import Mathlib.Data.List.Induction
import Mathlib.Data.List.DropRight

namespace Climon.Lib.Words

/-! # Words between spaces -/

variable {α : Type} (isSpace : α → Bool) (sep : α)

/-- The longest parts of a text without a space. -/
def words (text : List α) : List (List α) :=
  (text.splitOnP isSpace).filter fun word => !word.isEmpty

/-- The words of a text with one separator between any two. -/
def collapse (text : List α) : List α := [sep].intercalate (words isSpace text)

def trimStart (text : List α) : List α := text.dropWhile isSpace

def trim (text : List α) : List α := (trimStart isSpace text).rdropWhile isSpace

/-- Nothing to collapse: no space but the separator, none at an end and no two together. -/
structure Tidy (text : List α) : Prop where
  plain : ∀ c ∈ text, isSpace c = true → c = sep
  start : ∀ c ∈ text.head?, isSpace c = false
  stop : ∀ c ∈ text.getLast?, isSpace c = false
  single : text.IsChain fun c d => isSpace c = false ∨ isSpace d = false

variable {isSpace sep} {c d : α} {text part : List α}

/-! ## Words, character by character -/

@[simp] theorem words_nil : words isSpace [] = [] := rfl

theorem words_cons_space (hc : isSpace c = true) :
    words isSpace (c :: text) = words isSpace text := by
  simp [words, List.splitOnP_cons_eq_if_modifyHead, hc]

theorem words_singleton (hc : isSpace c = false) : words isSpace [c] = [[c]] := by
  simp [words, List.splitOnP_cons_eq_if_modifyHead, hc]

theorem words_cons_cons_space (hc : isSpace c = false) (hd : isSpace d = true) :
    words isSpace (c :: d :: text) = [c] :: words isSpace text := by
  simp [words, List.splitOnP_cons_eq_if_modifyHead, hc, hd]

theorem words_cons_cons (hc : isSpace c = false) (hd : isSpace d = false) :
    words isSpace (c :: d :: text) = (words isSpace (d :: text)).modifyHead (c :: ·) := by
  obtain ⟨word, rest, hsplit⟩ := List.exists_cons_of_ne_nil (List.splitOnP_ne_nil isSpace text)
  simp [words, List.splitOnP_cons_eq_if_modifyHead, hc, hd, hsplit]

theorem words_cons_ne_nil (hc : isSpace c = false) : words isSpace (c :: text) ≠ [] := by
  obtain ⟨word, rest, hsplit⟩ := List.exists_cons_of_ne_nil (List.splitOnP_ne_nil isSpace text)
  simp [words, List.splitOnP_cons_eq_if_modifyHead, hc, hsplit]

theorem words_eq_nil : words isSpace text = [] ↔ ∀ c ∈ text, isSpace c = true := by
  induction text with
  | nil => simp
  | cons c text ih =>
    cases hc : isSpace c with
    | true => rw [words_cons_space hc, ih, List.forall_mem_cons, and_iff_right hc]
    | false => simp [words_cons_ne_nil hc, hc]

/-! ## Collapsing, character by character -/

@[simp] theorem collapse_nil : collapse isSpace sep [] = [] := rfl

theorem collapse_cons_space (hc : isSpace c = true) :
    collapse isSpace sep (c :: text) = collapse isSpace sep text := by
  rw [collapse, words_cons_space hc, collapse]

theorem collapse_singleton (hc : isSpace c = false) : collapse isSpace sep [c] = [c] := by
  rw [collapse, words_singleton hc, List.intercalate_singleton]

theorem collapse_cons_cons (hc : isSpace c = false) (hd : isSpace d = false) :
    collapse isSpace sep (c :: d :: text) = c :: collapse isSpace sep (d :: text) := by
  have hne : words isSpace (d :: text) ≠ [] := words_cons_ne_nil hd
  obtain ⟨word, rest, hwords⟩ := List.exists_cons_of_ne_nil hne
  rw [collapse, collapse, words_cons_cons hc hd, hwords, List.modifyHead_cons]
  cases rest with
  | nil => simp only [List.intercalate_singleton]
  | cons word' rest => simp only [List.intercalate_cons_cons, List.cons_append]

theorem collapse_eq_nil : collapse isSpace sep text = [] ↔ ∀ c ∈ text, isSpace c = true := by
  rw [← words_eq_nil, collapse]
  constructor
  · intro h
    cases hwords : words isSpace text with
    | nil => rfl
    | cons word rest =>
      have hword : word ≠ [] := by
        have hmem : word ∈ words isSpace text := hwords ▸ List.mem_cons_self
        rw [words, List.mem_filter] at hmem
        simpa using hmem.2
      rw [hwords] at h
      cases rest with
      | nil => exact absurd (by simpa using h) hword
      | cons word' rest => simp [List.intercalate_cons_cons] at h
  · intro h
    rw [h]
    rfl

theorem collapse_cons_cons_space (hc : isSpace c = false) (hd : isSpace d = true) :
    collapse isSpace sep (c :: d :: text) =
      if collapse isSpace sep text = [] then [c] else c :: sep :: collapse isSpace sep text := by
  rw [collapse, words_cons_cons_space hc hd]
  cases hwords : words isSpace text with
  | nil => rw [collapse, hwords, if_pos List.intercalate_nil, List.intercalate_singleton]
  | cons word rest =>
    have hne : collapse isSpace sep text ≠ [] := by
      rw [Ne, collapse_eq_nil, ← words_eq_nil, hwords]
      exact List.cons_ne_nil word rest
    rw [if_neg hne, collapse, hwords, List.intercalate_cons_cons]
    rfl

theorem collapse_cons (hc : isSpace c = false) :
    ∃ rest, collapse isSpace sep (c :: text) = c :: rest := by
  cases text with
  | nil => exact ⟨[], collapse_singleton hc⟩
  | cons d text =>
    cases hd : isSpace d with
    | false => exact ⟨_, collapse_cons_cons hc hd⟩
    | true =>
      rw [collapse_cons_cons_space hc hd]
      split
      · exact ⟨[], rfl⟩
      · exact ⟨_, rfl⟩

theorem words_collapse (hsep : isSpace sep = true) :
    words isSpace (collapse isSpace sep text) = words isSpace text := by
  induction text using List.twoStepInduction with
  | nil => rfl
  | singleton c =>
    cases hc : isSpace c with
    | true => rw [collapse_cons_space hc, collapse_nil, words_cons_space hc]
    | false => rw [collapse_singleton hc]
  | cons_cons c d text ih ihcons =>
    cases hc : isSpace c with
    | true => rw [collapse_cons_space hc, words_cons_space hc, ihcons d]
    | false =>
      cases hd : isSpace d with
      | false =>
        obtain ⟨rest, hrest⟩ : ∃ rest, collapse isSpace sep (d :: text) = d :: rest :=
          collapse_cons hd
        rw [collapse_cons_cons hc hd, hrest, words_cons_cons hc hd, ← hrest, ihcons d,
          words_cons_cons hc hd]
      | true =>
        rw [collapse_cons_cons_space hc hd, words_cons_cons_space hc hd]
        split
        · next hnil =>
          rw [words_singleton hc, words_eq_nil.mpr (collapse_eq_nil.mp hnil)]
        · rw [words_cons_cons_space hc hsep, ih]

/-! ## Collapsed texts are tidy -/

@[simp] theorem tidy_nil : Tidy isSpace sep [] := by
  constructor <;> simp

theorem Tidy.cons (hc : isSpace c = false) (h : Tidy isSpace sep text) :
    Tidy isSpace sep (c :: text) where
  plain := by
    rw [List.forall_mem_cons]
    exact ⟨fun hspace => absurd hspace (by simp [hc]), h.plain⟩
  start := by simpa using hc
  stop := by
    cases text with
    | nil => simpa using hc
    | cons d text => simpa only [List.getLast?_cons_cons] using h.stop
  single := by
    cases text with
    | nil => exact List.isChain_singleton c
    | cons d text => exact List.isChain_cons_cons.mpr ⟨.inl hc, h.single⟩

theorem Tidy.cons_sep (hc : isSpace c = false) (hne : text ≠ []) (h : Tidy isSpace sep text) :
    Tidy isSpace sep (c :: sep :: text) := by
  obtain ⟨d, text, rfl⟩ := List.exists_cons_of_ne_nil hne
  have hd : isSpace d = false := h.start d rfl
  constructor
  · rw [List.forall_mem_cons, List.forall_mem_cons]
    exact ⟨fun hspace => absurd hspace (by simp [hc]), fun _ => rfl, h.plain⟩
  · simpa using hc
  · simpa only [List.getLast?_cons_cons] using h.stop
  · rw [List.isChain_cons_cons, List.isChain_cons_cons]
    exact ⟨.inl hc, .inr hd, h.single⟩

theorem tidy_collapse : Tidy isSpace sep (collapse isSpace sep text) := by
  induction text using List.twoStepInduction with
  | nil => exact tidy_nil
  | singleton c =>
    cases hc : isSpace c with
    | true =>
      rw [collapse_cons_space hc]
      exact tidy_nil
    | false =>
      rw [collapse_singleton hc]
      exact tidy_nil.cons hc
  | cons_cons c d text ih ihcons =>
    cases hc : isSpace c with
    | true =>
      rw [collapse_cons_space hc]
      exact ihcons d
    | false =>
      cases hd : isSpace d with
      | false =>
        rw [collapse_cons_cons hc hd]
        exact (ihcons d).cons hc
      | true =>
        rw [collapse_cons_cons_space hc hd]
        split
        · exact tidy_nil.cons hc
        · next hne => exact ih.cons_sep hc hne

theorem length_collapse_le : (collapse isSpace sep text).length ≤ text.length := by
  induction text using List.twoStepInduction with
  | nil => exact Nat.le_refl 0
  | singleton c =>
    cases hc : isSpace c with
    | true => simp [collapse_cons_space hc]
    | false => simp [collapse_singleton hc]
  | cons_cons c d text ih ihcons =>
    have hrest := ihcons d
    simp only [List.length_cons] at hrest ⊢
    cases hc : isSpace c with
    | true =>
      rw [collapse_cons_space hc]
      omega
    | false =>
      cases hd : isSpace d with
      | false =>
        rw [collapse_cons_cons hc hd, List.length_cons]
        omega
      | true =>
        rw [collapse_cons_cons_space hc hd]
        split <;> simp only [List.length_cons, List.length_nil] <;> omega

theorem mem_collapse (h : c ∈ collapse isSpace sep text) : c = sep ∨ c ∈ text := by
  induction text using List.twoStepInduction with
  | nil => exact absurd h List.not_mem_nil
  | singleton d =>
    cases hd : isSpace d with
    | true => simp [collapse_cons_space hd] at h
    | false =>
      rw [collapse_singleton hd] at h
      exact .inr h
  | cons_cons d e text ih ihcons =>
    have hrest (h : c ∈ collapse isSpace sep (e :: text)) : c = sep ∨ c ∈ d :: e :: text :=
      (ihcons e h).imp_right (List.mem_cons_of_mem d)
    cases hd : isSpace d with
    | true =>
      rw [collapse_cons_space hd] at h
      exact hrest h
    | false =>
      cases he : isSpace e with
      | false =>
        rw [collapse_cons_cons hd he, List.mem_cons] at h
        rcases h with rfl | h
        · exact .inr List.mem_cons_self
        · exact hrest h
      | true =>
        rw [collapse_cons_cons_space hd he] at h
        split at h
        · exact .inr (by simp_all)
        · rcases List.mem_cons.mp h with rfl | h
          · exact .inr List.mem_cons_self
          · rcases List.mem_cons.mp h with rfl | h
            · exact .inl rfl
            · exact (ih h).imp_right fun h => List.mem_cons_of_mem d (List.mem_cons_of_mem e h)

/-! ## What is tidy stays as it is -/

theorem Tidy.collapse (h : Tidy isSpace sep text) : collapse isSpace sep text = text := by
  induction text using List.twoStepInduction with
  | nil => rfl
  | singleton c => exact collapse_singleton (h.start c rfl)
  | cons_cons c d text ih ihcons =>
    have hc : isSpace c = false := h.start c rfl
    have hsingle := List.isChain_cons_cons.mp h.single
    have hplain := (List.forall_mem_cons.mp h.plain).2
    have hstop := h.stop
    rw [List.getLast?_cons_cons] at hstop
    cases hd : isSpace d with
    | false =>
      have hrest : Tidy isSpace sep (d :: text) :=
        ⟨hplain, by simpa using hd, hstop, hsingle.2⟩
      rw [collapse_cons_cons hc hd, ihcons d hrest]
    | true =>
      cases text with
      | nil => exact absurd hd (by simp [hstop d rfl])
      | cons e text =>
        have hnext := List.isChain_cons_cons.mp hsingle.2
        have he : isSpace e = false := hnext.1.resolve_left (by simp [hd])
        have hrest : Tidy isSpace sep (e :: text) :=
          ⟨(List.forall_mem_cons.mp hplain).2, by simpa using he,
            by rwa [List.getLast?_cons_cons] at hstop, hnext.2⟩
        rw [collapse_cons_cons_space hc hd, ih hrest, if_neg (List.cons_ne_nil e text),
          hplain d List.mem_cons_self hd]

/-- A tidy text may be cut before any of its words. -/
theorem Tidy.of_suffix (h : Tidy isSpace sep text) (hsuffix : part <:+ text)
    (hstart : ∀ c ∈ part.head?, isSpace c = false) : Tidy isSpace sep part where
  plain := fun c hc => h.plain c (hsuffix.mem hc)
  start := hstart
  stop := by
    intro c hc
    cases hpart : part with
    | nil => simp [hpart] at hc
    | cons d rest =>
      have hne : part ≠ [] := by simp [hpart]
      obtain ⟨front, rfl⟩ := hsuffix
      exact h.stop c (by rwa [List.getLast?_append_of_ne_nil front hne])
  single := h.single.suffix hsuffix

theorem head_trimStart : ∀ c ∈ (trimStart isSpace text).head?, isSpace c = false := by
  intro c hc
  have hhead := List.head?_dropWhile_not isSpace text
  rw [trimStart] at hc
  rw [Option.mem_def.mp hc] at hhead
  simpa using hhead

theorem trimStart_suffix : trimStart isSpace text <:+ text := List.dropWhile_suffix isSpace

/-! ## Trimming keeps the words -/

theorem words_trimStart : words isSpace (trimStart isSpace text) = words isSpace text := by
  induction text with
  | nil => rfl
  | cons c text ih =>
    cases hc : isSpace c with
    | true => rw [trimStart, List.dropWhile_cons_of_pos hc, words_cons_space hc, ← ih, trimStart]
    | false => rw [trimStart, List.dropWhile_cons_of_neg (by simp [hc])]

theorem words_concat_space (hc : isSpace c = true) :
    words isSpace (text ++ [c]) = words isSpace text := by
  induction text using List.twoStepInduction with
  | nil => rw [List.nil_append, words_cons_space hc]
  | singleton d =>
    cases hd : isSpace d with
    | true => rw [List.singleton_append, words_cons_space hd, words_cons_space hd,
        words_cons_space hc]
    | false => rw [List.singleton_append, words_cons_cons_space hd hc, words_singleton hd, words_nil]
  | cons_cons d e text ih ihcons =>
    have hrest := ihcons e
    rw [List.cons_append] at hrest
    rw [List.cons_append, List.cons_append]
    cases hd : isSpace d with
    | true => rw [words_cons_space hd, words_cons_space hd, hrest]
    | false =>
      cases he : isSpace e with
      | true => rw [words_cons_cons_space hd he, words_cons_cons_space hd he, ih]
      | false => rw [words_cons_cons hd he, words_cons_cons hd he, hrest]

theorem words_trim : words isSpace (trim isSpace text) = words isSpace text := by
  have hstart : words isSpace (trimStart isSpace text) = words isSpace text := words_trimStart
  rw [← hstart, trim]
  induction trimStart isSpace text using List.reverseRecOn with
  | nil => rfl
  | append_singleton text c ih =>
    cases hc : isSpace c with
    | true => rw [List.rdropWhile_concat_pos isSpace text c hc, ih, words_concat_space hc]
    | false => rw [List.rdropWhile_concat_neg isSpace text c (by simp [hc])]

theorem collapse_trim : Words.collapse isSpace sep (trim isSpace text) =
    Words.collapse isSpace sep text := by
  rw [Words.collapse, words_trim, Words.collapse]

end Climon.Lib.Words
