import Climon.Lib.SeparatedFields
import Mathlib.Data.List.Induction

namespace Climon.Lib.OscSequences

/-!
# Operating system commands in a stream

`ESC ] digits ; text`, ended by BEL or by `ESC \`, is read one symbol at a time. What a symbol shows is a
character or nothing, and the text of a command is kept in symbols, so that it can be decoded later.
-/

def esc : Char := '\x1b'

def bel : Char := '\x07'

structure Command (α : Type) where
  code : List Char
  text : List α
  deriving DecidableEq, Repr

/-- How much of a command has been read. Of a closing one, `held` may be the start of its end. -/
inductive Reader (α : Type) where
  | ground
  | escape
  | number (digits : List Char)
  | text (code : List Char) (read : List α)
  | closing (code : List Char) (read held : List α)
  deriving DecidableEq, Repr

variable {α : Type}

namespace Reader

/-- A symbol that shows a character. -/
def take (r : Reader α) (a : α) (c : Char) : Reader α × Option (Command α) :=
  match r with
  | ground => (if c = esc then escape else ground, none)
  | escape => (if c = esc then escape else if c = ']' then number [] else ground, none)
  | number digits =>
    (if c = esc then escape
      else if c.isDigit then number (digits ++ [c])
      else if c = ';' then text digits []
      else ground, none)
  | text code read =>
    if c = bel then (ground, some ⟨code, read⟩)
    else if c = esc then (closing code read [a], none)
    else (text code (read ++ [a]), none)
  | closing code read held =>
    if c = '\\' then (ground, some ⟨code, read⟩)
    else if c = bel then (ground, some ⟨code, read ++ held⟩)
    else if c = esc then (closing code (read ++ held) [a], none)
    else (text code (read ++ held ++ [a]), none)

/-- A symbol that shows nothing. -/
def pass (r : Reader α) (a : α) : Reader α :=
  match r with
  | text code read => text code (read ++ [a])
  | closing code read held => closing code read (held ++ [a])
  | r => r

def step (view : α → Option Char) (r : Reader α) (a : α) : Reader α × Option (Command α) :=
  match view a with
  | some c => r.take a c
  | none => (r.pass a, none)

end Reader

/-- The commands that a stream completes, and what is read of the next one at its end. -/
def run (view : α → Option Char) : Reader α → List α → List (Command α) × Reader α
  | r, [] => ([], r)
  | r, a :: as =>
    let later := run view (r.step view a).1 as
    ((r.step view a).2.toList ++ later.1, later.2)

theorem run_append (view : α → Option Char) (r : Reader α) (first second : List α) :
    run view r (first ++ second) =
      ((run view r first).1 ++ (run view (run view r first).2 second).1,
        (run view (run view r first).2 second).2) := by
  induction first generalizing r with
  | nil => rfl
  | cons a first ih => simp [run, ih]

theorem run_singleton (view : α → Option Char) (r : Reader α) (a : α) :
    run view r [a] = ((r.step view a).2.toList, (r.step view a).1) := by
  simp [run]

/-! ## Decoding the symbols -/

/-- A character past ASCII takes no part in the syntax of commands. -/
def Wide (c : Char) : Prop := 128 ≤ c.toNat

instance (c : Char) : Decidable (Wide c) := inferInstanceAs (Decidable (128 ≤ c.toNat))

/-- What symbols stand for: nothing, the character they show, or a text past ASCII. -/
structure Decodes (view : α → Option Char) (dec : α → List Char) : Prop where
  none : ∀ {a}, view a = none → dec a = []
  ascii : ∀ {a c}, view a = some c → ¬ Wide c → dec a = [c]
  wide : ∀ {a c}, view a = some c → Wide c → dec a ≠ [] ∧ ∀ c ∈ dec a, Wide c

def Command.decode (dec : α → List Char) (command : Command α) : Command Char :=
  ⟨command.code, command.text.flatMap dec⟩

def Reader.decode (dec : α → List Char) : Reader α → Reader Char
  | ground => ground
  | escape => escape
  | number digits => number digits
  | text code read => text code (read.flatMap dec)
  | closing code read held => closing code (read.flatMap dec) (held.flatMap dec)

theorem Wide.ne {c d : Char} (h : Wide c) (hd : ¬ Wide d) : c ≠ d := by
  rintro rfl
  exact hd h

theorem Wide.not_isDigit {c : Char} (h : Wide c) : c.isDigit = false := by
  rw [Bool.eq_false_iff]
  intro hdigit
  simp only [Char.isDigit, Bool.and_eq_true, decide_eq_true_eq] at hdigit
  have hle : c.toNat ≤ 57 := hdigit.2
  unfold Wide at h
  omega

namespace Reader

/-- The reader after a text past ASCII. -/
def skip (r : Reader α) (as : List α) : Reader α :=
  match r with
  | text code read => text code (read ++ as)
  | closing code read held => text code (read ++ held ++ as)
  | _ => ground

theorem take_wide (r : Reader α) (a : α) {c : Char} (h : Wide c) :
    r.take a c = (r.skip [a], none) := by
  have hesc : c ≠ esc := h.ne (by decide)
  have hbel : c ≠ bel := h.ne (by decide)
  have hbracket : c ≠ ']' := h.ne (by decide)
  have hsemicolon : c ≠ ';' := h.ne (by decide)
  have hslash : c ≠ '\\' := h.ne (by decide)
  cases r <;> simp [take, skip, hesc, hbel, hbracket, hsemicolon, hslash, h.not_isDigit]

theorem skip_skip (r : Reader α) (first second : List α) :
    (r.skip first).skip second = r.skip (first ++ second) := by
  cases r <;> simp [skip]

end Reader

theorem run_wide (r : Reader Char) {chars : List Char} (hne : chars ≠ [])
    (h : ∀ c ∈ chars, Wide c) : run some r chars = ([], r.skip chars) := by
  induction chars generalizing r with
  | nil => exact absurd rfl hne
  | cons c chars ih =>
    rw [List.forall_mem_cons] at h
    have hstep : r.step some c = (r.skip [c], none) := r.take_wide c h.1
    rw [run, hstep]
    cases chars with
    | nil => rfl
    | cons d chars =>
      rw [ih _ (List.cons_ne_nil d chars) h.2, Reader.skip_skip]
      rfl

section

variable {view : α → Option Char} {dec : α → List Char}

theorem Reader.decode_skip (r : Reader α) (as : List α) :
    (r.skip as).decode dec = (r.decode dec).skip (as.flatMap dec) := by
  cases r <;> simp [skip, decode]

theorem Reader.decode_pass (r : Reader α) {a : α} (h : dec a = []) :
    (r.pass a).decode dec = r.decode dec := by
  cases r <;> simp [pass, decode, h]

theorem Reader.take_decode (r : Reader α) {a : α} {c : Char} (h : dec a = [c]) :
    (r.decode dec).take c c =
      ((r.take a c).1.decode dec, (r.take a c).2.map (Command.decode dec)) := by
  cases r with
  | ground => simp only [take, decode]; split_ifs <;> rfl
  | escape => simp only [take, decode]; split_ifs <;> rfl
  | number digits => simp only [take, decode]; split_ifs <;> rfl
  | text code read => simp only [take, decode]; split_ifs <;> simp [Command.decode, h]
  | closing code read held =>
    simp only [take, decode]
    split_ifs <;> simp [Command.decode, h]

theorem Reader.step_decode (h : Decodes view dec) (r : Reader α) (a : α) :
    run some (r.decode dec) (dec a) =
      ((r.step view a).2.toList.map (Command.decode dec), (r.step view a).1.decode dec) := by
  unfold step
  cases hview : view a with
  | none =>
    rw [h.none hview]
    dsimp only
    rw [r.decode_pass (h.none hview)]
    rfl
  | some c =>
    by_cases hwide : Wide c
    · obtain ⟨hne, hall⟩ := h.wide hview hwide
      dsimp only
      rw [run_wide _ hne hall, r.take_wide a hwide, Reader.decode_skip, List.flatMap_singleton]
      rfl
    · have hdec := h.ascii hview hwide
      rw [hdec, run_singleton]
      change (((r.decode dec).take c c).2.toList, ((r.decode dec).take c c).1) = _
      rw [r.take_decode hdec]
      cases (r.take a c).2 <;> rfl

/-- Decoding the symbols and reading commands from them commute. -/
theorem run_decode (h : Decodes view dec) (r : Reader α) (as : List α) :
    run some (r.decode dec) (as.flatMap dec) =
      ((run view r as).1.map (Command.decode dec), (run view r as).2.decode dec) := by
  induction as generalizing r with
  | nil => rfl
  | cons a as ih =>
    rw [List.flatMap_cons, run_append, Reader.step_decode h, ih, run, List.map_append]

end

/-! ## What a reader goes on with -/

namespace Reader

/-- The characters read of a command so far. -/
def pending : Reader Char → List Char
  | ground => []
  | escape => [esc]
  | number digits => esc :: ']' :: digits
  | text code read => esc :: ']' :: code ++ ';' :: read
  | closing code read held => esc :: ']' :: code ++ ';' :: read ++ held

theorem step_cases (r : Reader Char) (c : Char) :
    (r.step some c).1 = ground ∨ ((r.step some c).1 = escape ∧ c = esc) ∨
      ((r.step some c).1.pending = r.pending ++ [c] ∧ (r.step some c).2 = none) := by
  change (r.take c c).1 = ground ∨ ((r.take c c).1 = escape ∧ c = esc) ∨
    ((r.take c c).1.pending = r.pending ++ [c] ∧ (r.take c c).2 = none)
  cases r with
  | ground =>
    simp only [take]
    split_ifs with hesc
    · exact .inr (.inl ⟨rfl, hesc⟩)
    · exact .inl rfl
  | escape =>
    simp only [take]
    split_ifs with hesc hbracket
    · exact .inr (.inl ⟨rfl, hesc⟩)
    · exact .inr (.inr (by simp [pending, hbracket]))
    · exact .inl rfl
  | number digits =>
    simp only [take]
    split_ifs with hesc hdigit hsemicolon
    · exact .inr (.inl ⟨rfl, hesc⟩)
    · exact .inr (.inr (by simp [pending]))
    · exact .inr (.inr (by simp [pending, hsemicolon]))
    · exact .inl rfl
  | text code read =>
    simp only [take]
    split_ifs with hbel hesc
    · exact .inl rfl
    · exact .inr (.inr (by simp [pending]))
    · exact .inr (.inr (by simp [pending]))
  | closing code read held =>
    simp only [take]
    split_ifs with hslash hbel hesc
    · exact .inl rfl
    · exact .inl rfl
    · exact .inr (.inr (by simp [pending]))
    · exact .inr (.inr (by simp [pending]))

end Reader

/-- A reader goes on with what is pending as it does from where it stands. -/
theorem run_pending (chars : List Char) :
    run some .ground (run some .ground chars).2.pending =
      ([], (run some .ground chars).2) := by
  induction chars using List.reverseRecOn with
  | nil => rfl
  | append_singleton chars c ih =>
    rw [run_append, run_singleton]
    dsimp only
    rcases (run some .ground chars).2.step_cases c with hstep | ⟨hstep, -⟩ | ⟨hstep, hnone⟩
    · rw [hstep]
      rfl
    · rw [hstep]
      rfl
    · rw [hstep, run_append, ih, run_singleton, hnone]
      rfl

theorem run_ground_pending (chars more : List Char) :
    run some .ground ((run some .ground chars).2.pending ++ more) =
      run some (run some .ground chars).2 more := by
  rw [run_append, run_pending]
  rfl

/-- Nothing is read of a command in text without ESC. -/
theorem run_plain {text : List Char} (h : esc ∉ text) : run some .ground text = ([], .ground) := by
  induction text with
  | nil => rfl
  | cons c text ih =>
    rw [List.mem_cons, not_or] at h
    have hstep : Reader.ground.step some c = (.ground, none) := by
      simp [Reader.step, Reader.take, Ne.symm h.1]
    rw [run, hstep, ih h.2]
    rfl

/-! ## Fields of a decoded text -/

/-- Texts that are equal, or both have characters past ASCII. -/
def Alike (chars chars' : List Char) : Prop :=
  chars = chars' ∨ (∃ c ∈ chars, Wide c) ∧ ∃ c ∈ chars', Wide c

theorem Alike.append {chars chars' : List Char} (h : Alike chars chars') (front : List Char) :
    Alike (front ++ chars) (front ++ chars') := by
  rcases h with rfl | ⟨⟨c, hc, hwide⟩, c', hc', hwide'⟩
  · exact .inl rfl
  · exact .inr ⟨⟨c, List.mem_append_right front hc, hwide⟩, c', List.mem_append_right front hc', hwide'⟩

/-- Only ASCII text tells alike texts from others. -/
theorem Alike.eq_iff {chars chars' text : List Char} (h : Alike chars chars')
    (htext : ∀ c ∈ text, ¬ Wide c) : chars = text ↔ chars' = text := by
  rcases h with rfl | ⟨⟨c, hc, hwide⟩, c', hc', hwide'⟩
  · exact Iff.rfl
  · constructor
    · rintro rfl
      exact absurd hwide (htext c hc)
    · rintro rfl
      exact absurd hwide' (htext c' hc')

theorem forall₂_modifyHead {R : List Char → List Char → Prop} {f g : List Char → List Char}
    {fields fields' : List (List Char)} (h : List.Forall₂ R fields fields')
    (hstep : ∀ {chars chars'}, R chars chars' → R (f chars) (g chars')) :
    List.Forall₂ R (fields.modifyHead f) (fields'.modifyHead g) := by
  cases h with
  | nil => exact .nil
  | cons hhead htail => exact .cons (hstep hhead) htail

/-- Whatever the symbols are decoded to, the fields between separators are alike. -/
theorem alike_fields {view : α → Option Char} {dec dec' : α → List Char} (h : Decodes view dec)
    (h' : Decodes view dec') {sep : Char} (hsep : ¬ Wide sep) (text : List α) :
    List.Forall₂ Alike ((text.flatMap dec).splitOn sep) ((text.flatMap dec').splitOn sep) := by
  induction text with
  | nil => exact .cons (.inl rfl) .nil
  | cons a text ih =>
    rw [List.flatMap_cons, List.flatMap_cons]
    cases hview : view a with
    | none => rwa [h.none hview, h'.none hview]
    | some c =>
      by_cases hwide : Wide c
      · obtain ⟨hne, hall⟩ := h.wide hview hwide
        obtain ⟨hne', hall'⟩ := h'.wide hview hwide
        rw [SeparatedFields.splitOn_append fun hmem => hsep (hall sep hmem),
          SeparatedFields.splitOn_append fun hmem => hsep (hall' sep hmem)]
        apply forall₂_modifyHead ih
        intro chars chars' _
        obtain ⟨d, hd⟩ := List.exists_mem_of_ne_nil _ hne
        obtain ⟨d', hd'⟩ := List.exists_mem_of_ne_nil _ hne'
        exact .inr ⟨⟨d, List.mem_append_left chars hd, hall d hd⟩,
          d', List.mem_append_left chars' hd', hall' d' hd'⟩
      · rw [h.ascii hview hwide, h'.ascii hview hwide]
        by_cases hc : c = sep
        · subst hc
          simpa [List.splitOn_cons_eq_if_modifyHead] using ⟨.inl rfl, ih⟩
        · rw [SeparatedFields.splitOn_append (by simpa using Ne.symm hc),
            SeparatedFields.splitOn_append (by simpa using Ne.symm hc)]
          exact forall₂_modifyHead ih fun halike => halike.append [c]

end Climon.Lib.OscSequences
