import Mathlib.Data.List.Basic

namespace Climon.Proto.Frame

/-! # Frames between a session host and its clients -/

inductive SurfaceKind where
  | terminal
  | dashboard
  | pwa
  deriving DecidableEq, Repr

def SurfaceKind.priority : SurfaceKind → Nat
  | .terminal => 1
  | .dashboard => 2
  | .pwa => 3

structure ResizePayload where
  cols : UInt16
  rows : UInt16
  kind : Option SurfaceKind
  viewerId : Option String
  deriving DecidableEq, Repr

structure AttentionPayload where
  needsAttention : Bool
  reason : Option String
  attentionMatchedAt : Option String
  deriving DecidableEq, Repr

/-- A frame a client sends to the host, with its payload parsed. -/
inductive ClientFrame where
  | input (payload : List UInt8)
  | resize (size : ResizePayload)
  | takeControl
  | attention (payload : AttentionPayload)
  | replay
  | other
  deriving DecidableEq, Repr

/-- A frame the host queues to a client. -/
inductive HostFrame where
  | output (data : List UInt8)
  | exit (exitCode : Int32)
  | replay (payload : List UInt8)
  | ptySize (cols rows : UInt16)
  | control (controllerId : String) (cols rows : UInt16)
  deriving DecidableEq, Repr

/-- `n.max(1)` on a reported dimension. -/
def max1 (n : UInt16) : UInt16 := if n = 0 then 1 else n

@[simp] theorem max1_max1 (n : UInt16) : max1 (max1 n) = max1 n := by
  unfold max1
  by_cases h : n = 0
  · rw [if_pos h]
    rfl
  · rw [if_neg h, if_neg h]

theorem max1_of_ne {n : UInt16} (h : n ≠ 0) : max1 n = n := if_neg h

end Climon.Proto.Frame
