import Climon.Cli.Args
import Climon.Lib.TextSlices
import Climon.Lib.Words

namespace Climon.Session.Snippet

open Climon.Lib Climon.Lib.TextSlices
open Climon.Lib.Words (Tidy words trim trimStart)
open Climon.Cli.Args (isWhitespace)

/-!
# The last relevant paragraph of a screen

An index or a slice out of range, or off a character boundary, is a panic: the outer `none` of a
result here. What a line must score to be prose is left to `relevant`.
-/

def snippetMaxChars : Nat := 160

def boxChars : List Char :=
  ['│', '┃', '║', '╎', '┆', '┊', '─', '━', '═', '╌', '┄', '╭', '╮', '╰', '╯', '┌', '┐', '└', '┘',
    '├', '┤', '┬', '┴', '┼', '▌', '▐', '█', '▁', '▔', '░', '▒', '▓']

def isBoxChar (c : Char) : Bool := boxChars.contains c

def sigils : List Char := ['>', '❯', '$', '#', '?', '●', '•', '➜']

def collapseWs (s : List Char) : List Char := Words.collapse isWhitespace ' ' s

/-- Remove box characters and one leading prompt sigil, and collapse white space. -/
def cleanLine (line : List Char) : List Char :=
  let replaced := line.map fun c => if isBoxChar c then ' ' else c
  let s := collapseWs (trim isWhitespace replaced)
  match s with
  | [] => s
  | first :: rest =>
    if sigils.contains first && (rest.isEmpty || rest.head? == some ' ') then
      trimStart isWhitespace rest
    else s

/-- `xs[start..stop]` -/
def slice {α : Type} (xs : List α) (start stop : Nat) : Option (List α) :=
  if start ≤ stop ∧ stop ≤ xs.length then some ((xs.take stop).drop start) else none

/-! ## Trimming to the budget -/

/-- Where the text after the first sentence end starts. -/
def sentenceStart : List UInt8 → Option Nat
  | b :: next :: bytes =>
    if (b = 0x2E ∨ b = 0x21 ∨ b = 0x3F) ∧ next = 0x20 then some 2
    else (sentenceStart (next :: bytes)).map (· + 1)
  | _ => none

/-- What follows the first sentence end, unless it is too short. -/
def sentenceTail (window : List Char) : Option (Option (List Char)) :=
  match sentenceStart (window.flatMap String.utf8EncodeChar) with
  | none => some none
  | some pos => do
    let cut ← cutAt window pos
    let rest := trimStart isWhitespace cut.2
    some (if 20 ≤ rest.length then some rest else none)

/-- Keep the last `max` characters, from a sentence or else a word on, behind an ellipsis. -/
def trimTail (text : List Char) (max : Nat) : Option (List Char) :=
  if text.length ≤ max then some text
  else do
    let window ← slice text (text.length - max) text.length
    match ← sentenceTail window with
    | some rest => some ('…' :: rest)
    | none =>
      match TextSlices.find window ' ' with
      | some pos => do
        let cut ← cutAt window pos
        some ('…' :: trimStart isWhitespace cut.2)
      | none => do
        -- One character less leaves room for the ellipsis.
        let trimmed ← slice text (text.length - (max - 1)) text.length
        some ('…' :: trimmed)

/-- C0 or DEL. -/
def isControl (c : Char) : Bool := (c.toNat ≤ 0x1F && c != ' ') || c.toNat == 0x7F

def sanitize (text : List Char) : List Char :=
  collapseWs (trim isWhitespace (text.filter fun c => !isControl c))

/-! ## Choosing the paragraph -/

/-- The last index below a bound whose line is relevant. -/
def paragraphEnd (scores : List Bool) : Nat → Option (Option Nat)
  | 0 => some none
  | i + 1 => do
    if ← scores[i]? then some (some i) else paragraphEnd scores i

/-- Walk up while the line above is relevant. -/
def paragraphStart (scores : List Bool) : Nat → Option Nat
  | 0 => some 0
  | start + 1 => do
    if ← scores[start]? then paragraphStart scores start else some (start + 1)

/-- The last run of relevant lines, cleaned and joined. -/
def lastParagraph (relevant : List Char → Bool) (lines : List (List Char)) :
    Option (Option (List Char)) := do
  let cleaned := lines.map cleanLine
  let scores := cleaned.map relevant
  match ← paragraphEnd scores cleaned.length with
  | none => some none
  | some stop =>
    let start ← paragraphStart scores stop
    let chosen ← slice cleaned start (stop + 1)
    some (some (collapseWs ([' '].intercalate chosen)))

/-- Only rows above the cursor are searched, unless it is on the top row or unknown. -/
def extractSnippet (relevant : List Char → Bool) (lines : List (List Char))
    (cursorRow : Option Nat) : Option (Option (List Char)) := do
  let limit := match cursorRow with
    | some row => if 0 < row then min row lines.length else lines.length
    | none => lines.length
  let lines ← slice lines 0 limit
  match ← lastParagraph relevant lines with
  | none => some none
  | some paragraph =>
    let snippet := sanitize (← trimTail paragraph snippetMaxChars)
    some (if snippet.isEmpty then none else some snippet)

section

variable {α : Type} {xs : List α} {start stop max : Nat} {relevant : List Char → Bool}
  {lines : List (List Char)} {text window before after rest : List Char} {bytes : List UInt8}

/-! ## Slices are in range -/

theorem slice_eq (hle : start ≤ stop) (hstop : stop ≤ xs.length) :
    slice xs start stop = some ((xs.take stop).drop start) := if_pos ⟨hle, hstop⟩

theorem slice_tail (h : start ≤ xs.length) : slice xs start xs.length = some (xs.drop start) := by
  rw [slice_eq h (Nat.le_refl _), List.take_length]

theorem paragraphEnd_spec {scores : List Bool} {n : Nat} (h : n ≤ scores.length) :
    ∃ found, paragraphEnd scores n = some found ∧ ∀ i ∈ found, i < n := by
  induction n with
  | zero => exact ⟨none, rfl, by simp⟩
  | succ i ih =>
    have hscore : scores[i]? = some scores[i] := List.getElem?_eq_getElem h
    rw [paragraphEnd, hscore, Option.bind_eq_bind, Option.bind_some]
    split
    · exact ⟨some i, rfl, by simp⟩
    · obtain ⟨found, hfound, hbound⟩ := ih (by omega)
      exact ⟨found, hfound, fun j hj => Nat.lt_succ_of_lt (hbound j hj)⟩

theorem paragraphStart_spec {scores : List Bool} (h : stop ≤ scores.length) :
    ∃ start, paragraphStart scores stop = some start ∧ start ≤ stop := by
  induction stop with
  | zero => exact ⟨0, rfl, Nat.le_refl 0⟩
  | succ stop ih =>
    have hscore : scores[stop]? = some scores[stop] := List.getElem?_eq_getElem h
    rw [paragraphStart, hscore, Option.bind_eq_bind, Option.bind_some]
    split
    · obtain ⟨start, hstart, hle⟩ := ih (by omega)
      exact ⟨start, hstart, by omega⟩
    · exact ⟨stop + 1, rfl, Nat.le_refl _⟩

theorem lastParagraph_spec :
    ∃ found, lastParagraph relevant lines = some found ∧
      ∀ paragraph ∈ found, Tidy isWhitespace ' ' paragraph := by
  have hlen : ((lines.map cleanLine).map relevant).length = (lines.map cleanLine).length :=
    List.length_map relevant
  obtain ⟨found, hfound, hbound⟩ := paragraphEnd_spec (Nat.le_of_eq hlen.symm)
  rw [lastParagraph, hfound, Option.bind_eq_bind, Option.bind_some]
  cases found with
  | none => exact ⟨none, rfl, by simp⟩
  | some stop =>
    have hstop := hbound stop rfl
    obtain ⟨start, hstart, hle⟩ := paragraphStart_spec
      (show stop ≤ ((lines.map cleanLine).map relevant).length by omega)
    have hslice := slice_eq (show start ≤ stop + 1 by omega) (Nat.succ_le_of_lt hstop)
    simp only [hstart, hslice, Option.bind_eq_bind, Option.bind_some]
    refine ⟨_, rfl, fun paragraph h => ?_⟩
    rw [← Option.some.inj h]
    exact Words.tidy_collapse

/-! ## The tail fits -/

/-- The end of a text from a word on, which leaves room for one character more. -/
structure TailOf (text : List Char) (max : Nat) (rest : List Char) : Prop where
  suffix : rest <:+ text
  short : rest.length < max
  word : ∀ c ∈ rest.head?, isWhitespace c = false

theorem TailOf.trimStart (hwindow : before ++ after <:+ text) (hne : before ≠ [])
    (hmax : (before ++ after).length = max) : TailOf text max (trimStart isWhitespace after) where
  suffix := Words.trimStart_suffix.trans ((List.suffix_append before after).trans hwindow)
  short := by
    have hpos := List.length_pos_iff.mpr hne
    have hsuffix : Words.trimStart isWhitespace after <:+ after := Words.trimStart_suffix
    have hle := hsuffix.length_le
    rw [List.length_append] at hmax
    omega
  word := Words.head_trimStart

theorem sentenceStart_some {pos : Nat} (h : sentenceStart bytes = some pos) :
    ∃ front b back, bytes = front ++ b :: 0x20 :: back ∧ b < 0x80 ∧ pos = front.length + 2 := by
  induction bytes using sentenceStart.induct generalizing pos with
  | case1 b next bytes hend =>
    rw [sentenceStart, if_pos hend] at h
    obtain ⟨hb, rfl⟩ := hend
    refine ⟨[], b, bytes, rfl, ?_, (Option.some.inj h).symm⟩
    rcases hb with rfl | rfl | rfl <;> decide
  | case2 b next bytes hend ih =>
    rw [sentenceStart, if_neg hend, Option.map_eq_some_iff] at h
    obtain ⟨pos', hpos', rfl⟩ := h
    obtain ⟨front, b', back, hbytes, hb', rfl⟩ := ih hpos'
    refine ⟨b :: front, b', back, by rw [hbytes, List.cons_append], hb', ?_⟩
    rw [List.length_cons]
  | case3 bytes hshort =>
    rw [sentenceStart] at h
    · cases h
    · exact hshort

/-- The byte after a sentence end and its space starts a character. -/
theorem cutAt_sentenceStart {pos : Nat}
    (h : sentenceStart (window.flatMap String.utf8EncodeChar) = some pos) :
    ∃ before after, window = before ++ after ∧ before ≠ [] ∧
      cutAt window pos = some (before, after) := by
  obtain ⟨front, b, back, hbytes, hb, rfl⟩ := sentenceStart_some h
  obtain ⟨before, c, rest, rfl, hbefore, hc, hrest⟩ := split_at_ascii hbytes hb
  rw [← List.nil_append (0x20 :: back)] at hrest
  obtain ⟨empty, space, after, rfl, hempty, hspace, -⟩ := split_at_ascii hrest (by decide)
  have hlen : byteLength (before ++ c :: empty ++ [space]) = front.length + 2 := by
    simp only [byteLength_append, byteLength_cons, byteLength_nil, hbefore, hc, hempty, hspace,
      List.length_nil]
  have hsplit : before ++ c :: (empty ++ space :: after) =
      before ++ c :: empty ++ [space] ++ after := by simp
  refine ⟨before ++ c :: empty ++ [space], after, hsplit, by simp, ?_⟩
  rw [hsplit, ← hlen, cutAt_byteLength]

theorem sentenceTail_spec (hwindow : window <:+ text) (hmax : window.length = max) :
    ∃ found, sentenceTail window = some found ∧ ∀ rest ∈ found, TailOf text max rest := by
  unfold sentenceTail
  split
  · exact ⟨none, rfl, by simp⟩
  · next pos hpos =>
    obtain ⟨before, after, rfl, hne, hcut⟩ := cutAt_sentenceStart hpos
    simp only [hcut, Option.bind_eq_bind, Option.bind_some]
    refine ⟨_, rfl, fun rest h => ?_⟩
    split at h
    · rw [← Option.some.inj h]
      exact .trimStart hwindow hne hmax
    · cases h

theorem trimTail_spec (hmax : 0 < max) (h : Tidy isWhitespace ' ' text) :
    ∃ trimmed, trimTail text max = some trimmed ∧
      (text.length ≤ max ∧ trimmed = text ∨
        max < text.length ∧ ∃ rest, TailOf text max rest ∧ trimmed = '…' :: rest) := by
  unfold trimTail
  split
  · next hle => exact ⟨text, rfl, .inl ⟨hle, rfl⟩⟩
  · next hle =>
    have hlong : max < text.length := Nat.lt_of_not_le hle
    have hlen : (text.drop (text.length - max)).length = max := by
      rw [List.length_drop]
      omega
    have hsuffix := List.drop_suffix (text.length - max) text
    obtain ⟨found, hfound, htail⟩ := sentenceTail_spec hsuffix hlen
    simp only [slice_tail (Nat.sub_le text.length max), hfound, Option.bind_eq_bind,
      Option.bind_some]
    cases found with
    | some rest => exact ⟨_, rfl, .inr ⟨hlong, rest, htail rest rfl, rfl⟩⟩
    | none =>
      cases hfind : TextSlices.find (text.drop (text.length - max)) ' ' with
      | some pos =>
        obtain ⟨before, after, hsplit, hcut⟩ := cutAt_find hfind
        simp only [hcut, Option.bind_some]
        refine ⟨_, rfl, .inr ⟨hlong, _, ?_, rfl⟩⟩
        rw [hsplit, ← List.singleton_append, ← List.append_assoc] at hsuffix hlen
        have hrest : trimStart isWhitespace (' ' :: after) = trimStart isWhitespace after := rfl
        rw [hrest]
        exact .trimStart hsuffix (by simp) hlen
      | none =>
        simp only [slice_tail (Nat.sub_le text.length (max - 1)), Option.bind_some]
        refine ⟨_, rfl, .inr ⟨hlong, _, ⟨List.drop_suffix _ _, ?_, ?_⟩, rfl⟩⟩
        · rw [List.length_drop]
          omega
        · intro c hc
          -- The window has no space, and a tidy text no other white space.
          have hmem : c ∈ text.drop (text.length - (max - 1)) := List.mem_of_mem_head? hc
          have hwindow : c ∈ text.drop (text.length - max) :=
            (List.drop_suffix_drop_left text (by omega)).mem hmem
          cases hspace : isWhitespace c with
          | false => rfl
          | true =>
            have hplain := h.plain c (List.mem_of_mem_drop hmem) hspace
            rw [hplain] at hwindow
            simp [TextSlices.find, hwindow] at hfind

/-! ## Sanitizing -/

theorem sanitize_eq : sanitize text = collapseWs (text.filter fun c => !isControl c) :=
  Words.collapse_trim

theorem words_sanitize :
    words isWhitespace (sanitize text) =
      words isWhitespace (text.filter fun c => !isControl c) := by
  rw [sanitize_eq]
  exact Words.words_collapse (by decide)

theorem tidy_sanitize : Tidy isWhitespace ' ' (sanitize text) := by
  rw [sanitize_eq]
  exact Words.tidy_collapse

theorem length_sanitize_le : (sanitize text).length ≤ text.length := by
  rw [sanitize_eq]
  exact Nat.le_trans Words.length_collapse_le (List.length_filter_le _ text)

theorem not_control_of_sanitize {c : Char} (h : c ∈ sanitize text) : isControl c = false := by
  rw [sanitize_eq] at h
  rcases Words.mem_collapse h with rfl | hmem
  · decide
  · simpa using (List.mem_filter.mp hmem).2

theorem sanitize_of_tidy (h : Tidy isWhitespace ' ' text) (hclean : ∀ c ∈ text, isControl c = false) :
    sanitize text = text := by
  have hfilter : (text.filter fun c => !isControl c) = text := by
    rw [List.filter_eq_self]
    intro c hc
    rw [hclean c hc]
    rfl
  rw [sanitize_eq, hfilter]
  exact h.collapse

end

/-! ## The snippet -/

/-- One line of printable text, within the budget and without white space to spare. -/
structure Presentable (snippet : List Char) : Prop where
  nonempty : snippet ≠ []
  short : snippet.length ≤ snippetMaxChars
  printable : ∀ c ∈ snippet, isControl c = false
  tidy : Tidy isWhitespace ' ' snippet

/-- The end of a paragraph behind an ellipsis where it is cut: word by word once the control
characters are removed, and to the character where there is none. -/
def ShowsEndOf (paragraph snippet : List Char) : Prop :=
  ∃ mark rest, rest <:+ paragraph ∧
    (paragraph.length ≤ snippetMaxChars ∧ mark = [] ∧ rest = paragraph ∨
      snippetMaxChars < paragraph.length ∧ mark = ['…'] ∧ rest ≠ paragraph) ∧
    words isWhitespace snippet = words isWhitespace ((mark ++ rest).filter fun c => !isControl c) ∧
    ((∀ c ∈ paragraph, isControl c = false) → snippet = mark ++ rest)

/-- The rows that may be shown. -/
def rowsAbove (lines : List (List Char)) : Option Nat → List (List Char)
  | some (row + 1) => lines.take (row + 1)
  | _ => lines

section

variable {relevant : List Char → Bool} {lines : List (List Char)} {cursorRow : Option Nat}
  {paragraph : List Char}

theorem sanitize_trimTail (h : Tidy isWhitespace ' ' paragraph) :
    ∃ trimmed, trimTail paragraph snippetMaxChars = some trimmed ∧
      trimmed.length ≤ snippetMaxChars ∧ ShowsEndOf paragraph (sanitize trimmed) := by
  obtain ⟨trimmed, htrim, hcut⟩ := trimTail_spec (show 0 < snippetMaxChars by decide) h
  refine ⟨trimmed, htrim, ?_⟩
  rcases hcut with ⟨hshort, rfl⟩ | ⟨hlong, rest, htail, rfl⟩
  · exact ⟨hshort, [], trimmed, List.suffix_refl _, .inl ⟨hshort, rfl, rfl⟩, words_sanitize,
      sanitize_of_tidy h⟩
  · have hrest : Tidy isWhitespace ' ' rest := h.of_suffix htail.suffix htail.word
    refine ⟨htail.short, ['…'], rest, htail.suffix, .inr ⟨hlong, rfl, ?_⟩, words_sanitize, ?_⟩
    · rintro rfl
      exact absurd htail.short (Nat.lt_asymm hlong)
    · intro hclean
      refine sanitize_of_tidy (hrest.cons (by decide)) ?_
      rw [List.forall_mem_cons]
      exact ⟨by decide, fun c hc => hclean c (htail.suffix.mem hc)⟩

/-- The limit is in range, and selects the rows above the cursor. -/
theorem extractSnippet_eq :
    extractSnippet relevant lines cursorRow = (do
      match ← lastParagraph relevant (rowsAbove lines cursorRow) with
      | none => some none
      | some paragraph =>
        let snippet := sanitize (← trimTail paragraph snippetMaxChars)
        some (if snippet.isEmpty then none else some snippet)) := by
  have hslice : ∀ limit ≤ lines.length, slice lines 0 limit = some (lines.take limit) := by
    intro limit h
    rw [slice_eq (Nat.zero_le limit) h, List.drop_zero]
  have hrows : slice lines 0 (match cursorRow with
      | some row => if 0 < row then min row lines.length else lines.length
      | none => lines.length) = some (rowsAbove lines cursorRow) := by
    rcases cursorRow with _ | _ | row
    · exact (hslice lines.length (Nat.le_refl _)).trans (by rw [List.take_length]; rfl)
    · exact (hslice lines.length (Nat.le_refl _)).trans (by rw [List.take_length]; rfl)
    · change slice lines 0 (if 0 < row + 1 then min (row + 1) lines.length else lines.length) = _
      rw [if_pos (Nat.succ_pos row), hslice _ (Nat.min_le_right _ _), rowsAbove,
        ← List.take_eq_take_min]
  simp only [extractSnippet, hrows, Option.bind_eq_bind, Option.bind_some]

theorem extractSnippet_spec :
    ∃ result, extractSnippet relevant lines cursorRow = some result ∧
      ∀ snippet ∈ result, Presentable snippet ∧ ∃ paragraph,
        lastParagraph relevant (rowsAbove lines cursorRow) = some (some paragraph) ∧
          ShowsEndOf paragraph snippet := by
  obtain ⟨found, hfound, htidy⟩ : ∃ found,
      lastParagraph relevant (rowsAbove lines cursorRow) = some found ∧
        ∀ paragraph ∈ found, Tidy isWhitespace ' ' paragraph := lastParagraph_spec
  rw [extractSnippet_eq, hfound, Option.bind_eq_bind, Option.bind_some]
  cases found with
  | none => exact ⟨none, rfl, by simp⟩
  | some paragraph =>
    obtain ⟨trimmed, htrim, hshort, hshows⟩ := sanitize_trimTail (htidy paragraph rfl)
    simp only [htrim, Option.bind_eq_bind, Option.bind_some]
    refine ⟨_, rfl, fun snippet h => ?_⟩
    split at h
    · cases h
    · next hne =>
      obtain rfl := Option.some.inj h
      exact ⟨⟨by simpa using hne, Nat.le_trans length_sanitize_le hshort,
        fun _ => not_control_of_sanitize, tidy_sanitize⟩, paragraph, rfl, hshows⟩

end

/-- Whatever the screen, a snippet is presentable, shows the end of the last relevant paragraph
above the cursor, and depends on nothing below it. -/
theorem snippet_clean (relevant : List Char → Bool) (lines : List (List Char))
    (cursorRow : Option Nat) :
    (∃ result, extractSnippet relevant lines cursorRow = some result ∧
      ∀ snippet ∈ result, Presentable snippet ∧ ∃ paragraph,
        lastParagraph relevant (rowsAbove lines cursorRow) = some (some paragraph) ∧
          ShowsEndOf paragraph snippet) ∧
    ∀ row other, lines.take (row + 1) = other.take (row + 1) →
      extractSnippet relevant lines (some (row + 1)) =
        extractSnippet relevant other (some (row + 1)) := by
  refine ⟨extractSnippet_spec, fun row other h => ?_⟩
  rw [extractSnippet_eq, extractSnippet_eq, rowsAbove, rowsAbove, h]

/-- A screen whose one line holds a control character between spaces. -/
def controlScreen : List (List Char) := ["alpha \x01 beta gamma".toList]

/-- Spaces around a removed control character are collapsed. -/
theorem removed_control_joins_spaces :
    ¬ ∀ (relevant : List Char → Bool) (lines : List (List Char)) (cursorRow : Option Nat)
        (snippet paragraph : List Char),
      extractSnippet relevant lines cursorRow = some (some snippet) →
        lastParagraph relevant (rowsAbove lines cursorRow) = some (some paragraph) →
          ∃ mark rest, (mark = [] ∨ mark = ['…']) ∧ rest <:+ paragraph ∧
            snippet = (mark ++ rest).filter fun c => !isControl c := by
  intro h
  have hnone : ∀ rest ∈ ("alpha \x01 beta gamma".toList).tails, ∀ mark ∈ [[], ['…']],
      "alpha beta gamma".toList ≠ (mark ++ rest).filter fun c => !isControl c := by
    decide
  obtain ⟨mark, rest, hmark, hrest, heq⟩ := h (fun _ => true) controlScreen none
    "alpha beta gamma".toList "alpha \x01 beta gamma".toList (by decide) (by decide)
  exact hnone rest ((List.mem_tails rest _).mpr hrest) mark (by simpa using hmark) heq

end Climon.Session.Snippet
