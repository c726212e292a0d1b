import Mathlib.Data.List.Induction

namespace Climon.Lib.Machine

/-! # Runs of a deterministic machine, call by call -/

variable {σ ε : Type} (next : σ → ε → σ)

def after (s : σ) (es : List ε) : σ :=
  es.foldl next s

/-- Every call of a run beside the state it meets. -/
def visits : σ → List ε → List (σ × ε)
  | _, [] => []
  | s, e :: es => (s, e) :: visits (next s e) es

variable {next} {s : σ} {es fs : List ε} {a b c : List (σ × ε)} {v w : σ × ε}

@[simp] theorem after_nil : after next s [] = s := rfl

@[simp] theorem after_cons {e : ε} : after next s (e :: es) = after next (next s e) es := rfl

theorem after_append : after next s (es ++ fs) = after next (after next s es) fs := by
  simp [after]

theorem visits_append :
    visits next s (es ++ fs) = visits next s es ++ visits next (after next s es) fs := by
  induction es generalizing s with
  | nil => simp [visits]
  | cons e es ih => simp [visits, ih]

/-- What every call preserves, the calls before it included, holds after every run. -/
theorem after_history {I : List (σ × ε) → σ → Prop}
    (hstep : ∀ {past s e}, I past s → I (past ++ [(s, e)]) (next s e)) (h : I [] s) :
    I (visits next s es) (after next s es) := by
  induction es using List.reverseRecOn with
  | nil => simpa [visits] using h
  | append_singleton es e ih =>
    rw [visits_append, after_append]
    exact hstep ih

end Climon.Lib.Machine
