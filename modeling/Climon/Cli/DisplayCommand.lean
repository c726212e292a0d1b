import Climon.Lib.TextSlices
import Mathlib.Data.List.DropRight

namespace Climon.Cli.DisplayCommand

open Climon.Lib.TextSlices

/-!
# The command line that is shown

A byte offset inside a character is a panic, `none` here.
-/

/-- `^[A-Za-z]:[/\\]` -/
def isWindowsDrive : List Char → Bool
  | letter :: colon :: slash :: _ =>
    letter.isAlpha && colon == ':' && (slash == '/' || slash == '\\')
  | _ => false

def isAbsolute (first : List Char) : Bool := first.head? == some '/' || isWindowsDrive first

def isSeparator (c : Char) : Bool := c == '/' || c == '\\'

/-- The final path segment, split on both separators. -/
def basename (s : List Char) : Option (List Char) :=
  match rfind isSeparator s with
  | some i => do
    let cut ← cutAt s (i + 1)
    some cut.2
  | none => some s

/-- Strip a trailing `.exe` in any case, found by its length in bytes. -/
def stripExe (s : List Char) : Option (List Char) :=
  if 4 ≤ byteLength s then do
    let cut ← cutAt s (byteLength s - 4)
    if cut.2.map Char.toLower = ['.', 'e', 'x', 'e'] then some cut.1 else some s
  else some s

def join (parts : List (List Char)) : List Char := [' '].intercalate parts

def buildDisplayCommand : List (List Char) → Option (List Char)
  | [] => some []
  | first :: rest =>
    if isAbsolute first then do
      let name ← basename first
      let short ← stripExe name
      some (join (short :: rest))
    else some (join (first :: rest))

/-- What follows the last separator. -/
def lastSegment (s : List Char) : List Char := s.rtakeWhile fun c => !isSeparator c

/-- Four bytes from the end is between two characters, or before the start. -/
def Strippable (name : List Char) : Prop :=
  byteLength name < 4 ∨ ∃ suffix, suffix <:+ name ∧ byteLength suffix = 4

variable {s name first : List Char}

theorem basename_eq : basename s = some (lastSegment s) := by
  rw [basename, lastSegment]
  cases hfind : rfind isSeparator s with
  | none =>
    have hall : s.rtakeWhile (fun c => !isSeparator c) = s := by
      rw [List.rtakeWhile_eq_self_iff]
      intro c hc
      rw [rfind_eq_none_iff.mp hfind c hc]
      rfl
    rw [hall]
  | some i =>
    obtain ⟨before, c, after, rfl, rfl, hc, hafter⟩ := rfind_eq_some hfind
    have hsize : c.utf8Size = 1 := by
      rw [isSeparator, Bool.or_eq_true, beq_iff_eq, beq_iff_eq] at hc
      rcases hc with rfl | rfl <;> decide
    have hcut : cutAt (before ++ c :: after) (byteLength before + 1) =
        some (before ++ [c], after) := by
      rw [cutAt_eq_some_iff, byteLength_append, byteLength_cons, hsize]
      exact ⟨by simp, rfl⟩
    have htake : (before ++ c :: after).rtakeWhile (fun c => !isSeparator c) = after := by
      have hseg : ∀ d ∈ after.reverse, (!isSeparator d) = true := by
        intro d hd
        rw [hafter d (List.mem_reverse.mp hd)]
        rfl
      rw [List.rtakeWhile, List.reverse_append, List.reverse_cons, List.append_assoc,
        List.takeWhile_append_of_pos hseg, List.singleton_append,
        List.takeWhile_cons_of_neg (by simp [hc]), List.append_nil, List.reverse_reverse]
    simp only [hcut, htake, Option.bind_eq_bind, Option.bind_some]

/-- The suffix is looked up without a panic exactly when a character starts there. -/
theorem stripExe_isSome : (∃ short, stripExe name = some short) ↔ Strippable name := by
  rw [stripExe, Strippable]
  split
  · next hlong =>
    rw [or_iff_right (Nat.not_lt.mpr hlong)]
    constructor
    · rintro ⟨short, h⟩
      obtain ⟨cut, hcut, -⟩ := Option.bind_eq_some_iff.mp h
      obtain ⟨hname, hlen⟩ := cutAt_eq_some_iff.mp hcut
      refine ⟨cut.2, ⟨cut.1, hname.symm⟩, ?_⟩
      have htotal := congrArg byteLength hname
      rw [byteLength_append] at htotal
      omega
    · rintro ⟨suffix, ⟨front, rfl⟩, hsuffix⟩
      have hcut : cutAt (front ++ suffix) (byteLength (front ++ suffix) - 4) =
          some (front, suffix) := by
        rw [cutAt_eq_some_iff, byteLength_append]
        exact ⟨rfl, by omega⟩
      simp only [hcut, Option.bind_eq_bind, Option.bind_some]
      split <;> exact ⟨_, rfl⟩
  · next hshort => exact iff_of_true ⟨name, rfl⟩ (.inl (Nat.lt_of_not_le hshort))

/-- The command is shown, with every argument after the program's name in order, unless four
bytes from the end of an absolute program's name is inside a character. -/
theorem display_command_iff (command : List (List Char)) :
    (∃ text, buildDisplayCommand command = some text ∧
      ∃ shown, text = join (shown :: command.tail)) ↔
      ∀ first ∈ command.head?, isAbsolute first = true → Strippable (lastSegment first) := by
  cases command with
  | nil => exact iff_of_true ⟨[], rfl, [], rfl⟩ (by simp)
  | cons first rest =>
    have hhead : (∀ program ∈ (first :: rest).head?, isAbsolute program = true →
        Strippable (lastSegment program)) ↔
          (isAbsolute first = true → Strippable (lastSegment first)) := by simp
    rw [hhead, buildDisplayCommand]
    split
    · next habsolute =>
      simp only [basename_eq, Option.bind_eq_bind, Option.bind_some]
      rw [← stripExe_isSome]
      constructor
      · rintro ⟨text, h, -⟩ -
        obtain ⟨short, hshort, -⟩ := Option.bind_eq_some_iff.mp h
        exact ⟨short, hshort⟩
      · intro h
        obtain ⟨short, hshort⟩ := h habsolute
        rw [hshort, Option.bind_some]
        exact ⟨_, rfl, short, rfl⟩
    · next hrelative =>
      exact iff_of_true ⟨_, rfl, first, rfl⟩ fun habsolute => absurd habsolute hrelative

/-- A name of two three-byte characters. -/
theorem wide_name_panics :
    ¬ ∀ command : List (List Char), ∃ text, buildDisplayCommand command = some text ∧
      ∃ shown, text = join (shown :: command.tail) := by
  intro h
  obtain ⟨text, htext, -⟩ := h ["/opt/日本".toList, "--version".toList]
  have hnone : buildDisplayCommand ["/opt/日本".toList, "--version".toList] = none := by decide
  rw [hnone] at htext
  cases htext

end Climon.Cli.DisplayCommand
