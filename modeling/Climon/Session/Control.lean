import Climon.Proto.Frame

namespace Climon.Session.Control

open Climon.Proto.Frame

/-- A connected surface: the local terminal, a dashboard tab or a PWA. -/
structure Surface where
  id : String
  kind : SurfaceKind
  cols : UInt16
  rows : UInt16
  seq : Nat
  deriving DecidableEq, Repr

/-- The order of `max_by_key` on kind priority, then connection sequence. -/
def Surface.keyLe (a b : Surface) : Bool :=
  a.kind.priority < b.kind.priority ||
    (a.kind.priority == b.kind.priority && a.seq ≤ b.seq)

/-- The fallback controller. Of equal keys the last one wins, as with `max_by_key`. -/
def chooseController : List Surface → Option Surface
  | [] => none
  | first :: rest => some (rest.foldl (fun best s => if best.keyLe s then s else best) first)

private theorem foldl_best_mem (best : Surface) (rest : List Surface) :
    rest.foldl (fun best s => if best.keyLe s then s else best) best ∈ best :: rest := by
  induction rest generalizing best with
  | nil => exact List.mem_singleton_self best
  | cons s rest ih =>
    rw [List.foldl_cons]
    split
    · exact List.mem_cons_of_mem _ (ih s)
    · have h := ih best
      rw [List.mem_cons] at h ⊢
      exact h.imp id (List.mem_cons_of_mem s)

theorem chooseController_mem {surfaces : List Surface} {s : Surface}
    (h : chooseController surfaces = some s) : s ∈ surfaces := by
  cases surfaces with
  | nil => cases h
  | cons first rest =>
    cases h
    exact foldl_best_mem first rest

theorem chooseController_eq_none {surfaces : List Surface} :
    chooseController surfaces = none ↔ surfaces = [] := by
  cases surfaces <;> simp [chooseController]

end Climon.Session.Control
