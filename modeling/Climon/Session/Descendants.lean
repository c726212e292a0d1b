import Climon.Cli.SpawnReport
import Climon.Lib.DecimalText
import Climon.Lib.GraphSearch
import Climon.Lib.SeparatedFields

namespace Climon.Session.Descendants

open Climon.Cli.Args (digit_not_whitespace isWhitespace)
open Climon.Cli.SpawnReport (lines)
open Climon.Lib.DecimalText Climon.Lib.GraphSearch Climon.Lib.SeparatedFields Climon.Lib.Words

/-!
# The processes below a session's child

A resize signals the child of the PTY and everything below it, as `ps` lists the processes.
-/

/-- A process and its parent. -/
structure Row where
  pid : UInt32
  ppid : UInt32
  deriving DecidableEq, Repr

/-- A line says nothing unless it starts with two numbers. -/
def psRow (line : List Char) : Option Row :=
  match words isWhitespace line with
  | pid :: ppid :: _ => (parseU32 pid).bind fun pid => (parseU32 ppid).map fun ppid => ⟨pid, ppid⟩
  | _ => none

def psRows (psOutput : List Char) : List Row := (lines psOutput).filterMap psRow

def childrenByParent (rows : List Row) (parent : UInt32) : List UInt32 :=
  (rows.filter fun row => row.ppid = parent).map (·.pid)

theorem mem_childrenByParent {rows : List Row} {parent child : UInt32} :
    child ∈ childrenByParent rows parent ↔ ⟨child, parent⟩ ∈ rows := by
  simp only [childrenByParent, List.mem_map, List.mem_filter, decide_eq_true_eq]
  constructor
  · rintro ⟨⟨pid, ppid⟩, ⟨hrow, rfl⟩, rfl⟩
    exact hrow
  · intro hrow
    exact ⟨_, ⟨hrow, rfl⟩, rfl⟩

def processes (rows : List Row) : Graph UInt32 where
  next := childrenByParent rows
  nodes := rows.map (·.pid)
  next_mem h := List.mem_map_of_mem (mem_childrenByParent.mp h)

def descendantPidsFromPs (psOutput : List Char) (root : UInt32) : List UInt32 :=
  explore (processes (psRows psOutput)) (.start root)

/-- `psOutput` is what a successful `ps` printed. -/
def descendantPids (psOutput : Option (List Char)) (root : UInt32) : List UInt32 :=
  psOutput.elim [] fun psOutput => descendantPidsFromPs psOutput root

/-- The processes that get a `SIGWINCH`, in order. -/
def deliverSigwinch (psOutput : Option (List Char)) (pid : Option UInt32) : List UInt32 :=
  pid.elim [] fun pid => pid :: descendantPids psOutput pid

/-! ## What `ps` prints -/

def columns (row : Row) (left middle right : Nat) : List Char :=
  List.replicate left ' ' ++ (row.pid.toNat.repr.toList ++
    ' ' :: (List.replicate middle ' ' ++ (row.ppid.toNat.repr.toList ++
      List.replicate right ' ')))

/-- A row with spaces around its columns, or a line that is none. -/
inductive PsLine where
  | row (process : Row) (left middle right : Nat)
  | other (text : List Char) (feed : '\n' ∉ text) (ends : text.getLast? ≠ some '\r')
      (junk : psRow text = none)

namespace PsLine

def text : PsLine → List Char
  | .row process left middle right => columns process left middle right
  | .other text _ _ _ => text

def row? : PsLine → Option Row
  | .row process _ _ _ => some process
  | .other _ _ _ _ => none

end PsLine

def psOutput (table : List PsLine) : List Char := table.flatMap fun line => line.text ++ ['\n']

section

variable {word text : List Char} {c : Char}

theorem words_spaces (n : Nat) (text : List Char) :
    words isWhitespace (List.replicate n ' ' ++ text) = words isWhitespace text := by
  induction n with
  | zero => rfl
  | succ n ih =>
    rw [List.replicate_succ, List.cons_append, words_cons_space (by decide), ih]

theorem words_word (hword : ∀ c ∈ word, isWhitespace c = false) (hne : word ≠ [])
    (hc : isWhitespace c = true) (text : List Char) :
    words isWhitespace (word ++ c :: text) = word :: words isWhitespace text := by
  induction word with
  | nil => exact absurd rfl hne
  | cons d word ih =>
    rw [List.forall_mem_cons] at hword
    cases word with
    | nil => exact words_cons_cons_space hword.1 hc
    | cons d' word =>
      have hd' := (List.forall_mem_cons.mp hword.2).1
      rw [List.cons_append, List.cons_append, words_cons_cons hword.1 hd', ← List.cons_append,
        ih hword.2 (List.cons_ne_nil _ _), List.modifyHead_cons]

theorem words_solid (hword : ∀ c ∈ word, isWhitespace c = false) (hne : word ≠ []) :
    words isWhitespace word = [word] := by
  induction word with
  | nil => exact absurd rfl hne
  | cons d word ih =>
    rw [List.forall_mem_cons] at hword
    cases word with
    | nil => exact words_singleton hword.1
    | cons d' word =>
      rw [words_cons_cons hword.1 (List.forall_mem_cons.mp hword.2).1,
        ih hword.2 (List.cons_ne_nil _ _), List.modifyHead_cons]

theorem words_repr (n : Nat) (hc : isWhitespace c = true) (text : List Char) :
    words isWhitespace (n.repr.toList ++ c :: text) = n.repr.toList :: words isWhitespace text :=
  words_word (fun d hd => digit_not_whitespace (digits_repr n d hd)) (repr_ne_nil n) hc text

theorem psRow_columns (row : Row) (left middle right : Nat) :
    psRow (columns row left middle right) = some row := by
  obtain ⟨pid, ppid⟩ := row
  have hspaces : words isWhitespace (List.replicate right ' ') = [] := by
    have hwords := words_spaces right []
    rwa [List.append_nil] at hwords
  have hlast : words isWhitespace (ppid.toNat.repr.toList ++ List.replicate right ' ') =
      [ppid.toNat.repr.toList] := by
    cases right with
    | zero =>
      rw [List.replicate_zero, List.append_nil]
      exact words_solid (fun c hc => digit_not_whitespace (digits_repr _ c hc)) (repr_ne_nil _)
    | succ right =>
      rw [List.replicate_succ, words_repr _ (by decide)]
      rw [List.replicate_succ, words_cons_space (by decide)] at hspaces
      rw [hspaces]
  rw [psRow, columns, words_spaces, words_repr _ (by decide), words_spaces, hlast]
  simp only [parseU32_repr, Option.bind_some, Option.map_some]

theorem psRow_text (line : PsLine) : psRow line.text = line.row? := by
  cases line with
  | row process left middle right => exact psRow_columns process left middle right
  | other text feed ends junk => exact junk

theorem lines_cons {line : List Char} (hfeed : '\n' ∉ line) (hreturn : line.getLast? ≠ some '\r')
    (text : List Char) : lines (line ++ '\n' :: text) = line :: lines text := by
  have hpieces : (line ++ '\n' :: text).splitOn '\n' = line :: text.splitOn '\n' := by
    rw [splitOn_append hfeed, List.splitOn_cons_eq_if_modifyHead, if_pos (by decide),
      List.modifyHead_cons, List.append_nil]
  obtain ⟨piece, pieces, htext⟩ := List.exists_cons_of_ne_nil (List.splitOn_ne_nil '\n' text)
  unfold lines
  rw [hpieces, htext]
  simp [hreturn]

theorem plain_columns (row : Row) (left middle right : Nat) :
    ∀ c ∈ columns row left middle right, c = ' ' ∨ c.isDigit = true := by
  intro c hc
  simp only [columns, List.mem_append, List.mem_cons, List.mem_replicate] at hc
  rcases hc with ⟨-, rfl⟩ | hpid | rfl | ⟨-, rfl⟩ | hppid | ⟨-, rfl⟩
  · exact .inl rfl
  · exact .inr (digits_repr _ c hpid)
  · exact .inl rfl
  · exact .inl rfl
  · exact .inr (digits_repr _ c hppid)
  · exact .inl rfl

/-- A line is read as one. -/
theorem text_line (line : PsLine) : '\n' ∉ line.text ∧ line.text.getLast? ≠ some '\r' := by
  cases line with
  | row process left middle right =>
    constructor
    · intro h
      rcases plain_columns process left middle right _ h with h | h <;> cases h
    · intro h
      rcases plain_columns process left middle right _ (List.mem_of_getLast? h) with h | h <;> cases h
  | other text feed ends junk => exact ⟨feed, ends⟩

theorem psRows_psOutput (table : List PsLine) :
    psRows (psOutput table) = table.filterMap PsLine.row? := by
  induction table with
  | nil => rfl
  | cons line table ih =>
    obtain ⟨hfeed, hreturn⟩ := text_line line
    rw [psOutput, List.flatMap_cons, List.append_assoc, List.singleton_append, ← psOutput, psRows,
      lines_cons hfeed hreturn, List.filterMap_cons, psRow_text, ← psRows, ih, List.filterMap_cons]

end

/-! ## Who is signalled -/

/-- In a table of processes one is below another. -/
def Below (table : List PsLine) (root pid : UInt32) : Prop :=
  Relation.ReflTransGen (fun parent child => ⟨child, parent⟩ ∈ table.filterMap PsLine.row?) root pid

theorem edge_eq {table : List PsLine} : (processes (psRows (psOutput table))).Edge =
    fun parent child => ⟨child, parent⟩ ∈ table.filterMap PsLine.row? := by
  funext parent child
  rw [psRows_psOutput]
  exact propext mem_childrenByParent

/-- However `ps` pads its columns, and whatever cycles its table has, the child and all that is below
it are signalled, each once, and nothing else; without a table the child alone is. -/
theorem sigwinch_reaches_all (table : List PsLine) (pid : UInt32) :
    (deliverSigwinch (some (psOutput table)) (some pid)).Nodup ∧
      (∀ target, target ∈ deliverSigwinch (some (psOutput table)) (some pid) ↔
        Below table pid target) ∧
      deliverSigwinch none (some pid) = [pid] := by
  obtain ⟨hnodup, hmem⟩ :=
    @explore_start _ _ (processes (psRows (psOutput table))) pid
  have hsignals : deliverSigwinch (some (psOutput table)) (some pid) =
      pid :: explore (processes (psRows (psOutput table))) (.start pid) := rfl
  rw [hsignals]
  refine ⟨List.nodup_cons.mpr ⟨fun h => ((hmem pid).mp h).1 rfl, hnodup⟩, fun target => ?_, rfl⟩
  rw [List.mem_cons, hmem, edge_eq]
  constructor
  · rintro (rfl | ⟨-, hbelow⟩)
    · exact .refl
    · exact hbelow
  · intro hbelow
    by_cases heq : target = pid
    · exact .inl heq
    · exact .inr ⟨heq, hbelow⟩

end Climon.Session.Descendants
