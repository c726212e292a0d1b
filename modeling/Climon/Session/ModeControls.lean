import Climon.Session.Replay
import Mathlib.Data.List.TakeWhile

namespace Climon.Session.ModeControls

open Climon.Lib.Utf8 Climon.Session.Replay

/-! # Set and reset controls of a byte stream -/

structure Control where
  params : List UInt8
  enabled : Bool
  deriving DecidableEq, Repr

def Control.width (c : Control) : Nat := c.params.length + 4

/-- The complete control at the front of a stream. -/
def frontControl (bytes : List UInt8) : Option Control :=
  let params := (bytes.drop 3).takeWhile isParamByte
  let final := ((bytes.drop 3).drop params.length).head?
  if bytes.take 3 = escCsiPrivateModePrefix ∧ (final = some 0x68 ∨ final = some 0x6C) then
    some ⟨params, final == some 0x68⟩
  else none

/-- The complete controls of a stream that starts at `pos`, each with the position of its ESC. -/
def controls : Nat → List UInt8 → List (Nat × Control)
  | _, [] => []
  | pos, b :: rest =>
    ((frontControl (b :: rest)).map fun c => (pos, c)).toList ++ controls (pos + 1) rest

theorem frontControl_eq_none {b : UInt8} {rest : List UInt8} (h : b ≠ 0x1B) :
    frontControl (b :: rest) = none := by
  simp [frontControl, escCsiPrivateModePrefix, h]

/-- No control starts in text without ESC. -/
theorem controls_skip {text : List UInt8} (h : (0x1B : UInt8) ∉ text) (pos : Nat)
    (rest : List UInt8) : controls pos (text ++ rest) = controls (pos + text.length) rest := by
  induction text generalizing pos with
  | nil => simp
  | cons b text ih =>
    rw [List.mem_cons, not_or] at h
    rw [List.cons_append, controls, frontControl_eq_none (Ne.symm h.1), ih h.2]
    simp [Nat.add_comm 1, Nat.add_assoc]

/-! ## Reading the controls byte by byte -/

/-- How much of a control has been read. -/
inductive Lexer where
  | idle
  | esc
  | bracket
  | params (read : List UInt8) (h : read.all isParamByte = true)

namespace Lexer

def read : Lexer → List UInt8
  | idle => []
  | esc => [0x1B]
  | bracket => [0x1B, 0x5B]
  | params read _ => escCsiPrivateModePrefix ++ read

def step (s : Lexer) (b : UInt8) : Lexer × Option Control :=
  if b = 0x1B then (esc, none)
  else
    match s with
    | idle => (idle, none)
    | esc => (if b = 0x5B then bracket else idle, none)
    | bracket => (if b = 0x3F then params [] rfl else idle, none)
    | params read h =>
      if hb : isParamByte b = true then (params (read ++ [b]) (by simp_all), none)
      else if b = 0x68 ∨ b = 0x6C then (idle, some ⟨read, b == 0x68⟩)
      else (idle, none)

end Lexer

/-- The controls that a stream completes, and what is read of the next one at its end. -/
def lex : Nat → Lexer → List UInt8 → List (Nat × Control) × Lexer
  | _, s, [] => ([], s)
  | pos, s, b :: rest =>
    let later := lex (pos + 1) (s.step b).1 rest
    (((s.step b).2.map fun c => (pos - s.read.length, c)).toList ++ later.1, later.2)

theorem isParamByte_ne {b : UInt8} (h : isParamByte b = true) :
    b ≠ 0x1B ∧ b ≠ 0x68 ∧ b ≠ 0x6C := by
  refine ⟨?_, ?_, ?_⟩ <;> rintro rfl <;> revert h <;> decide

theorem Lexer.read_esc (s : Lexer) :
    s = .idle ∨ ∃ tail, s.read = 0x1B :: tail ∧ (0x1B : UInt8) ∉ tail := by
  cases s with
  | idle => exact .inl rfl
  | esc => exact .inr ⟨[], rfl, by decide⟩
  | bracket => exact .inr ⟨[0x5B], rfl, by decide⟩
  | params read h =>
    refine .inr ⟨[0x5B, 0x3F] ++ read, rfl, ?_⟩
    intro hmem
    rw [List.mem_append] at hmem
    rcases hmem with hmem | hmem
    · revert hmem
      decide
    · exact (isParamByte_ne (List.all_eq_true.mp h _ hmem)).1 rfl

theorem frontControl_params {read : List UInt8} (h : read.all isParamByte = true) {b : UInt8}
    (hb : isParamByte b = false) (rest : List UInt8) :
    frontControl (escCsiPrivateModePrefix ++ read ++ b :: rest) =
      if b = 0x68 ∨ b = 0x6C then some ⟨read, b == 0x68⟩ else none := by
  have htake : (read ++ b :: rest).takeWhile isParamByte = read := by
    rw [List.takeWhile_append_of_pos (List.all_eq_true.mp h), List.takeWhile_cons, hb]
    simp
  simp [frontControl, escCsiPrivateModePrefix, htake]

/-- Where a control breaks off, none starts at its front. -/
theorem frontControl_broken {s : Lexer} {b : UInt8} (hs : s ≠ .idle)
    (hidle : (s.step b).1 = .idle ∨ b = 0x1B) (rest : List UInt8) :
    frontControl (s.read ++ b :: rest) = (s.step b).2 := by
  cases s with
  | idle => exact absurd rfl hs
  | esc =>
    have hb : b ≠ 0x5B := by
      rintro rfl
      simp [Lexer.step] at hidle
    by_cases hesc : b = 0x1B <;>
      simp [frontControl, Lexer.read, Lexer.step, escCsiPrivateModePrefix, hb, hesc]
  | bracket =>
    have hb : b ≠ 0x3F := by
      rintro rfl
      simp [Lexer.step] at hidle
    by_cases hesc : b = 0x1B <;>
      simp [frontControl, Lexer.read, Lexer.step, escCsiPrivateModePrefix, hb, hesc]
  | params read h =>
    by_cases hesc : b = 0x1B
    · subst hesc
      rw [Lexer.read, frontControl_params h rfl]
      rfl
    · have hb : isParamByte b = false := by
        cases hb : isParamByte b with
        | false => rfl
        | true => simp [Lexer.step, hesc, hb] at hidle
      rw [Lexer.read, frontControl_params h hb]
      by_cases hfinal : b = 0x68 ∨ b = 0x6C <;> simp [Lexer.step, hesc, hb, hfinal]

/-- A byte starts a control, breaks off or completes the one that is read, or belongs to it. -/
theorem Lexer.step_cases (s : Lexer) (b : UInt8) :
    (b = 0x1B ∧ s.step b = (.esc, none)) ∨ (s.step b).1 = .idle ∨
      (s ≠ .idle ∧ (s.step b).1.read = s.read ++ [b] ∧ (s.step b).2 = none) := by
  by_cases hesc : b = 0x1B
  · exact .inl ⟨hesc, by simp [step, hesc]⟩
  · refine .inr ?_
    cases s with
    | idle => exact .inl (by simp [step, hesc])
    | esc => by_cases hb : b = 0x5B <;> simp [step, hb, hesc, read]
    | bracket => by_cases hb : b = 0x3F <;> simp [step, hb, hesc, read, escCsiPrivateModePrefix]
    | params read h =>
      cases hb : isParamByte b with
      | true => exact .inr (by simp [step, hesc, hb, Lexer.read])
      | false => by_cases hfinal : b = 0x68 ∨ b = 0x6C <;> simp [step, hesc, hb, hfinal]

theorem Lexer.length_step_le (s : Lexer) (b : UInt8) :
    (s.step b).1.read.length ≤ s.read.length + 1 := by
  rcases s.step_cases b with ⟨-, hstep⟩ | hstep | ⟨-, hstep, -⟩
  · simp [hstep, read]
  · simp [hstep, read]
  · simp [hstep]

theorem controls_step (s : Lexer) (b : UInt8) (rest : List UInt8) (pos : Nat) :
    controls pos (s.read ++ b :: rest) =
      ((s.step b).2.map fun c => (pos, c)).toList ++
        controls (pos + s.read.length + 1 - (s.step b).1.read.length)
          ((s.step b).1.read ++ rest) := by
  rcases s.read_esc with rfl | ⟨tail, hread, hnot⟩
  · by_cases hesc : b = 0x1B
    · simp [Lexer.step, Lexer.read, hesc]
    · simp [Lexer.step, Lexer.read, hesc, controls, frontControl_eq_none]
  · have hs : s ≠ .idle := by
      rintro rfl
      cases hread
    rcases s.step_cases b with ⟨rfl, hstep⟩ | hstep | ⟨-, hstep, hout⟩
    · have hbroken := frontControl_broken (b := 0x1B) hs (.inr rfl) rest
      rw [hread] at hbroken ⊢
      rw [List.cons_append, controls, ← List.cons_append, hbroken, controls_skip hnot, hstep]
      simp [Lexer.read, Nat.add_comm 1, Nat.add_assoc]
    · have hbroken := frontControl_broken hs (.inl hstep) rest
      by_cases hesc : b = 0x1B
      · simp [Lexer.step, hesc] at hstep
      · have hskip : (0x1B : UInt8) ∉ tail ++ [b] := by simp [hnot, Ne.symm hesc]
        rw [hread] at hbroken ⊢
        rw [List.cons_append, controls, ← List.cons_append, hbroken, hstep, List.append_cons,
          controls_skip hskip]
        simp [Lexer.read, Nat.add_comm 1, Nat.add_assoc]
    · rw [hstep, hout]
      simp

theorem frontControl_read (s : Lexer) : frontControl s.read = none := by
  cases s with
  | idle => rfl
  | esc => rfl
  | bracket => rfl
  | params read h =>
    have htake := List.takeWhile_eq_self_iff.mpr (List.all_eq_true.mp h)
    simp [frontControl, Lexer.read, escCsiPrivateModePrefix, htake]

theorem controls_read (s : Lexer) (pos : Nat) : controls pos s.read = [] := by
  rcases s.read_esc with rfl | ⟨tail, hread, hnot⟩
  · rfl
  · have hnone := frontControl_read s
    have hskip := controls_skip hnot (pos + 1) []
    rw [List.append_nil] at hskip
    rw [hread] at hnone ⊢
    simp [controls, hnone, hskip]

/-- The lexer emits the controls of what it has read and of what it reads. -/
theorem lex_eq_controls (s : Lexer) (bytes : List UInt8) (pos : Nat) (h : s.read.length ≤ pos) :
    (lex pos s bytes).1 = controls (pos - s.read.length) (s.read ++ bytes) := by
  induction bytes generalizing s pos with
  | nil => simp [lex, controls_read]
  | cons b bytes ih =>
    have hle := s.length_step_le b
    rw [lex, controls_step, ih _ _ (by omega), Nat.sub_add_cancel h]

theorem lex_idle (bytes : List UInt8) (pos : Nat) : (lex pos .idle bytes).1 = controls pos bytes :=
  lex_eq_controls .idle bytes pos (Nat.zero_le _)

theorem lex_append (s : Lexer) (first second : List UInt8) (pos : Nat) :
    lex pos s (first ++ second) =
      let before := lex pos s first
      let later := lex (pos + first.length) before.2 second
      (before.1 ++ later.1, later.2) := by
  induction first generalizing s pos with
  | nil => simp [lex]
  | cons b first ih => simp [lex, ih, Nat.add_comm 1, Nat.add_assoc]

theorem Lexer.width_of_step {s : Lexer} {b : UInt8} {c : Control} (h : (s.step b).2 = some c) :
    c.width = s.read.length + 1 := by
  by_cases hesc : b = 0x1B
  · simp [step, hesc] at h
  · cases s with
    | params read hread =>
      simp only [step, hesc, if_false] at h
      split_ifs at h
      cases h
      simp [Control.width, Lexer.read, escCsiPrivateModePrefix]
    | _ => simp [step, hesc] at h

/-- A control that is read now started where the lexer stands or later, and ends within it. -/
theorem lex_bounds {s : Lexer} {bytes : List UInt8} {pos : Nat} {p : Nat × Control}
    (h : s.read.length ≤ pos) (hp : p ∈ (lex pos s bytes).1) :
    pos - s.read.length ≤ p.1 ∧ pos < p.1 + p.2.width ∧ p.1 + p.2.width ≤ pos + bytes.length := by
  induction bytes generalizing s pos with
  | nil => cases hp
  | cons b bytes ih =>
    have hle := s.length_step_le b
    rw [lex, List.mem_append] at hp
    rcases hp with hp | hp
    · simp only [Option.mem_toList, Option.map_eq_some_iff] at hp
      obtain ⟨c, hc, rfl⟩ := hp
      have hwidth := Lexer.width_of_step hc
      simp only [List.length_cons]
      omega
    · have hlater := ih (by omega) hp
      simp only [List.length_cons]
      omega

/-- What is read of a control at the end was read before or is new. -/
theorem length_lex_read_le (s : Lexer) (bytes : List UInt8) (pos : Nat) :
    (lex pos s bytes).2.read.length ≤ s.read.length + bytes.length := by
  induction bytes generalizing s pos with
  | nil => simp [lex]
  | cons b bytes ih =>
    have hnext := ih (s.step b).1 (pos + 1)
    have hle := s.length_step_le b
    simp only [lex, List.length_cons]
    omega

/-- The control at whose bytes a stream goes on, or not: what else it completes is the same. -/
theorem lex_forget (s : Lexer) (bytes : List UInt8) (pos : Nat) :
    (∃ c, (lex pos s bytes).1 = (pos - s.read.length, c) :: (lex pos .idle bytes).1 ∧
        (lex pos s bytes).2 = (lex pos .idle bytes).2) ∨
      ((lex pos s bytes).1 = [] ∧ (lex pos s bytes).2.read = s.read ++ bytes ∧
        lex pos .idle bytes = ([], .idle)) ∨
      lex pos s bytes = lex pos .idle bytes := by
  induction bytes generalizing s pos with
  | nil => exact .inr (.inl ⟨rfl, by simp [lex], rfl⟩)
  | cons b bytes ih =>
    by_cases hesc : b = 0x1B
    · exact .inr (.inr (by simp [lex, Lexer.step, hesc]))
    · have hidle : Lexer.idle.step b = (.idle, none) := by simp [Lexer.step, hesc]
      rcases s.step_cases b with ⟨hb, -⟩ | hstep | ⟨-, hread, hout⟩
      · exact absurd hb hesc
      · cases hout : (s.step b).2 with
        | none => exact .inr (.inr (by simp [lex, hidle, hstep, hout]))
        | some c => exact .inl ⟨c, by simp [lex, hidle, hstep, hout]⟩
      · have hlen := congrArg List.length hread
        have hstart : pos + 1 - (s.step b).1.read.length = pos - s.read.length := by
          simp at hlen
          omega
        rcases ih (s.step b).1 (pos + 1) with ⟨c, hfirst, hlast⟩ | ⟨hnone, hlast, hnew⟩ | hsame
        · exact .inl ⟨c, by simp [lex, hidle, hout, hfirst, hstart], by simp [lex, hidle, hlast]⟩
        · refine .inr (.inl ⟨by simp [lex, hout, hnone], ?_, by simp [lex, hidle, hnew]⟩)
          simp [lex, hlast, hread]
        · exact .inr (.inr (by simp [lex, hidle, hout, hsame]))

/-- What is read of a control at the end is the end of the stream. -/
theorem lex_read_suffix (s : Lexer) (bytes : List UInt8) (pos : Nat) :
    ∃ front, s.read ++ bytes = front ++ (lex pos s bytes).2.read := by
  induction bytes generalizing s pos with
  | nil => exact ⟨[], by simp [lex]⟩
  | cons b bytes ih =>
    obtain ⟨front, hfront⟩ := ih (s.step b).1 (pos + 1)
    rw [lex]
    rcases s.step_cases b with ⟨rfl, hstep⟩ | hstep | ⟨-, hstep, -⟩
    · refine ⟨s.read ++ front, ?_⟩
      rw [hstep] at hfront ⊢
      rw [List.append_assoc, ← hfront]
      rfl
    · refine ⟨s.read ++ [b] ++ front, ?_⟩
      rw [hstep] at hfront ⊢
      rw [List.append_assoc, ← hfront]
      simp [Lexer.read]
    · refine ⟨front, ?_⟩
      rw [← hfront, hstep]
      simp

theorem lex_params {read : List UInt8} (hread : read.all isParamByte = true)
    {bytes : List UInt8} (hbytes : bytes.all isParamByte = true) (pos : Nat) :
    lex pos (.params read hread) bytes = ([], .params (read ++ bytes) (by simp_all)) := by
  induction bytes generalizing read pos with
  | nil => simp [lex]
  | cons b bytes ih =>
    rw [List.all_cons, Bool.and_eq_true] at hbytes
    have hstep : (Lexer.params read hread).step b =
        (.params (read ++ [b]) (by simp_all), none) := by
      simp [Lexer.step, hbytes.1, (isParamByte_ne hbytes.1).1]
    rw [lex, hstep, ih _ hbytes.2]
    simp

/-- A stream that ends in an incomplete control leaves it with the lexer. -/
theorem lex_incomplete (s : Lexer) (front : List UInt8) {bytes : List UInt8}
    (hbytes : bytes.all isParamByte = true) (pos : Nat) :
    (lex pos s (front ++ (escCsiPrivateModePrefix ++ bytes))).2 = .params bytes hbytes := by
  rw [lex_append]
  simp only [escCsiPrivateModePrefix, List.cons_append, List.nil_append, lex]
  generalize (lex pos s front).2 = s'
  simp [Lexer.step, lex_params List.all_nil hbytes]

theorem lex_read (s : Lexer) (pos : Nat) : lex pos .idle s.read = ([], s) := by
  apply Prod.ext
  · rw [lex_eq_controls .idle _ _ (Nat.zero_le _)]
    exact controls_read s _
  · cases s with
    | params read h => exact lex_incomplete .idle [] h pos
    | _ => rfl

theorem lex_skip {text : List UInt8} (h : (0x1B : UInt8) ∉ text) (pos : Nat) :
    lex pos .idle text = ([], .idle) := by
  induction text generalizing pos with
  | nil => rfl
  | cons b text ih =>
    rw [List.mem_cons, not_or] at h
    simp [lex, Lexer.step, Ne.symm h.1, ih h.2]

/-- Reading one byte, positions forgotten. -/
def lexByte (acc : List Control × Lexer) (b : UInt8) : List Control × Lexer :=
  (acc.1 ++ (acc.2.step b).2.toList, (acc.2.step b).1)

theorem foldl_lexByte (s : Lexer) (bytes : List UInt8) (pos : Nat) (cs : List Control) :
    bytes.foldl lexByte (cs, s) =
      (cs ++ (lex pos s bytes).1.map Prod.snd, (lex pos s bytes).2) := by
  induction bytes generalizing s pos cs with
  | nil => simp [lex]
  | cons b bytes ih =>
    rw [List.foldl_cons, lexByte, ih _ (pos + 1)]
    cases hout : (s.step b).2 <;> simp [lex, hout]

/-- Where a stream starts does not matter to what it contains. -/
theorem lex_pos (s : Lexer) (bytes : List UInt8) (pos pos' : Nat) :
    (lex pos s bytes).1.map Prod.snd = (lex pos' s bytes).1.map Prod.snd ∧
      (lex pos s bytes).2 = (lex pos' s bytes).2 := by
  have hpos := foldl_lexByte s bytes pos []
  rw [foldl_lexByte s bytes pos' [], Prod.mk.injEq] at hpos
  simpa [eq_comm] using hpos

theorem Lexer.step_wide {b : UInt8} (h : 0x80 ≤ b) (s : Lexer) : s.step b = (.idle, none) := by
  have hne : ∀ c : UInt8, c < 0x80 → b ≠ c := by
    rintro c hc rfl
    exact UInt8.not_le.mpr hc h
  have hdigit : ¬ b ≤ 0x39 := UInt8.not_le.mpr (UInt8.lt_of_lt_of_le (by decide) h)
  have hparam : isParamByte b = false := by
    simp [isParamByte, hdigit, hne]
  cases s <;> simp [step, hne, hparam]

/-- Lossy decoding moves the controls of a stream and changes none. -/
theorem lex_lossy (s : Lexer) (front bytes : List UInt8) (pos pos' : Nat) :
    (lex pos s (front ++ asBytes (fromUtf8Lossy bytes))).1.map Prod.snd =
        (lex pos' s (front ++ bytes)).1.map Prod.snd ∧
      (lex pos s (front ++ asBytes (fromUtf8Lossy bytes))).2 =
        (lex pos' s (front ++ bytes)).2 := by
  have hwide : ∀ acc b, 0x80 ≤ b → lexByte acc b = (acc.1, .idle) := by
    intro acc b hb
    simp [lexByte, Lexer.step_wide hb]
  have hfold := foldl_fromUtf8Lossy (s := front.foldl lexByte ([], s)) hwide (fun _ => rfl) bytes
  rw [← List.foldl_append, ← List.foldl_append, foldl_lexByte s _ pos, foldl_lexByte s _ pos']
    at hfold
  simpa using hfold

end Climon.Session.ModeControls
