import Mathlib.Data.List.Basic

namespace Climon.Proto.Meta

/-! # Session metadata types -/

inductive SessionStatus where
  | running
  | acknowledged
  | needsAttention
  | completed
  | paused
  | failed
  | disconnected
  deriving DecidableEq, Repr

def SessionStatus.all : List SessionStatus :=
  [.running, .acknowledged, .needsAttention, .completed, .paused, .failed, .disconnected]

def SessionStatus.name : SessionStatus → String
  | .running => "running"
  | .acknowledged => "acknowledged"
  | .needsAttention => "needs-attention"
  | .completed => "completed"
  | .paused => "paused"
  | .failed => "failed"
  | .disconnected => "disconnected"

inductive AnsiColor where
  | black
  | red
  | green
  | yellow
  | blue
  | magenta
  | cyan
  | white
  deriving DecidableEq, Repr

def AnsiColor.all : List AnsiColor :=
  [.black, .red, .green, .yellow, .blue, .magenta, .cyan, .white]

def AnsiColor.name : AnsiColor → String
  | .black => "black"
  | .red => "red"
  | .green => "green"
  | .yellow => "yellow"
  | .blue => "blue"
  | .magenta => "magenta"
  | .cyan => "cyan"
  | .white => "white"

inductive ProgressState where
  | normal
  | error
  | indeterminate
  | warning
  deriving DecidableEq, Repr

def ProgressState.all : List ProgressState := [.normal, .error, .indeterminate, .warning]

def ProgressState.name : ProgressState → String
  | .normal => "normal"
  | .error => "error"
  | .indeterminate => "indeterminate"
  | .warning => "warning"

structure TerminalProgress where
  state : ProgressState
  value : Option UInt8
  deriving DecidableEq, Repr

inductive PriorityReason where
  | attention
  | completed
  | failed
  | running
  | disconnected
  | manual
  deriving DecidableEq, Repr

def PriorityReason.all : List PriorityReason :=
  [.attention, .completed, .failed, .running, .disconnected, .manual]

def PriorityReason.name : PriorityReason → String
  | .attention => "attention"
  | .completed => "completed"
  | .failed => "failed"
  | .running => "running"
  | .disconnected => "disconnected"
  | .manual => "manual"

inductive Origin where
  | local
  | remote
  deriving DecidableEq, Repr

def Origin.all : List Origin := [.local, .remote]

def Origin.name : Origin → String
  | .local => "local"
  | .remote => "remote"

/-- The variant whose serialised name is `name`, as the derived decoders find it. -/
def ofName {α : Type} (all : List α) (nameOf : α → String) (name : String) : Option α :=
  all.find? fun a => nameOf a == name

theorem ofName_some {α : Type} {all : List α} {nameOf : α → String} {name : String} {a : α}
    (h : ofName all nameOf name = some a) : a ∈ all ∧ nameOf a = name := by
  unfold ofName at h
  refine ⟨List.mem_of_find?_eq_some h, ?_⟩
  simpa using List.find?_some h

/-- A `color` of `some none` is an explicit null. -/
structure SessionMeta where
  id : String
  command : List String
  displayCommand : String
  cwd : String
  status : SessionStatus
  priorityReason : PriorityReason
  daemonPid : Option UInt32
  cols : UInt16
  rows : UInt16
  headless : Option Bool
  socketPath : String
  clientVersion : Option String
  createdAt : String
  updatedAt : String
  lastActivityAt : String
  attentionMatchedAt : Option String
  attentionReason : Option String
  completedAt : Option String
  exitCode : Option Int32
  error : Option String
  origin : Option Origin
  clientLabel : Option String
  name : Option String
  priority : Option UInt16
  color : Option (Option AnsiColor)
  theme : Option String
  userPaused : Option Bool
  terminalTitle : Option String
  attentionSnippet : Option String
  progress : Option TerminalProgress
  deriving DecidableEq, Repr

/-- Absent fields are `none`; the doubly optional ones tell absent from null. -/
structure SessionMetaPatch where
  status : Option SessionStatus := none
  priorityReason : Option PriorityReason := none
  daemonPid : Option UInt32 := none
  lastActivityAt : Option String := none
  attentionMatchedAt : Option (Option String) := none
  attentionReason : Option (Option String) := none
  completedAt : Option String := none
  exitCode : Option Int32 := none
  error : Option String := none
  socketPath : Option String := none
  cols : Option UInt16 := none
  rows : Option UInt16 := none
  name : Option String := none
  priority : Option UInt16 := none
  color : Option (Option AnsiColor) := none
  theme : Option (Option String) := none
  userPaused : Option Bool := none
  terminalTitle : Option String := none
  attentionSnippet : Option (Option String) := none
  progress : Option (Option TerminalProgress) := none
  deriving DecidableEq, Repr

def SessionStatus.isTerminalOutcome : SessionStatus → Bool
  | .completed | .failed => true
  | _ => false

end Climon.Proto.Meta
