import Mathlib.Data.List.Basic
import Mathlib.Logic.Function.Basic

namespace Climon.Lib.Transition

/-! # Runs of labelled transition systems -/

variable {σ ε : Type}

inductive Run (step : σ → ε → σ → Prop) : σ → List ε → σ → Prop where
  | nil (s : σ) : Run step s [] s
  | cons {s t u : σ} {e : ε} {es : List ε} :
      step s e t → Run step t es u → Run step s (e :: es) u

/-- A step that is only taken where `ok` allows it. -/
def Guarded (ok : σ → ε → Prop) (step : σ → ε → σ → Prop) : σ → ε → σ → Prop :=
  fun s e t => ok s e ∧ step s e t

/-- Follow an executable step function through a schedule; `none` where it is disabled. -/
def exec (next : σ → ε → Option σ) : σ → List ε → Option σ
  | s, [] => some s
  | s, e :: es => (next s e).bind fun t => exec next t es

variable {step : σ → ε → σ → Prop}

/-- What every step preserves holds at the end of every run. -/
theorem Run.invariant {I : σ → Prop} (hstep : ∀ {s e t}, I s → step s e t → I t)
    {s t : σ} {es : List ε} (run : Run step s es t) (h : I s) : I t := by
  induction run with
  | nil => exact h
  | cons hs _ ih => exact ih (hstep h hs)

/-- An invariant that also speaks about the events taken so far. -/
theorem Run.history {I : List ε → σ → Prop}
    (hstep : ∀ {past s e t}, I past s → step s e t → I (past ++ [e]) t) {s t : σ} {es : List ε}
    (run : Run step s es t) (past : List ε) (h : I past s) : I (past ++ es) t := by
  induction run generalizing past with
  | nil =>
    rw [List.append_nil]
    exact h
  | cons hs _ ih =>
    have hnext := ih _ (hstep h hs)
    rwa [List.append_assoc] at hnext

theorem Run.mono {step' : σ → ε → σ → Prop} (hstep : ∀ {s e t}, step s e t → step' s e t)
    {s t : σ} {es : List ε} (run : Run step s es t) : Run step' s es t := by
  induction run with
  | nil => exact .nil _
  | cons hs _ ih => exact .cons (hstep hs) ih

/-- What can only break is unbroken at the start of a run that ends with it. -/
theorem Run.backward {P : σ → Prop} (hback : ∀ {s e t}, step s e t → P t → P s)
    {s t : σ} {es : List ε} (run : Run step s es t) (h : P t) : P s := by
  induction run with
  | nil => exact h
  | cons hs _ ih => exact hback hs (ih h)

/-- Where what breaks stays broken and `G` tells the steps that break nothing, a run ends unbroken
exactly when all its steps are among these. -/
theorem Run.guarded_iff {I P : σ → Prop} {G : σ → ε → Prop}
    (hinv : ∀ {s e t}, I s → step s e t → I t) (hback : ∀ {s e t}, step s e t → P t → P s)
    (hok : ∀ {s e t}, I s → P s → step s e t → (P t ↔ G s e)) {s t : σ} {es : List ε}
    (run : Run step s es t) (hI : I s) (hP : P s) : P t ↔ Run (Guarded G step) s es t := by
  constructor
  · intro ht
    induction run with
    | nil => exact .nil _
    | cons hs rest ih =>
      have hnext := rest.backward (fun hs => hback hs) ht
      exact .cons ⟨(hok hI hP hs).mp hnext, hs⟩ (ih (hinv hI hs) hnext ht)
  · intro guarded
    have hboth := guarded.invariant (I := fun s => I s ∧ P s)
      (fun h hs => ⟨hinv h.1 hs.2, (hok h.1 h.2 hs.2).mpr hs.1⟩) ⟨hI, hP⟩
    exact hboth.2

theorem Run.guard {p : ε → Prop} {s t : σ} {es : List ε} (run : Run step s es t)
    (h : ∀ e ∈ es, p e) : Run (Guarded (fun _ e => p e) step) s es t := by
  induction run with
  | nil => exact .nil _
  | cons hs _ ih =>
    rw [List.forall_mem_cons] at h
    exact .cons ⟨h.1, hs⟩ (ih h.2)

theorem Run.append {s t u : σ} {es fs : List ε} (first : Run step s es t)
    (second : Run step t fs u) : Run step s (es ++ fs) u := by
  induction first with
  | nil => exact second
  | cons hs _ ih => exact .cons hs (ih second)

theorem Run.of_exec {next : σ → ε → Option σ}
    (sound : ∀ {s e t}, next s e = some t → step s e t) {s t : σ} {es : List ε}
    (h : exec next s es = some t) : Run step s es t := by
  induction es generalizing s with
  | nil =>
    cases h
    exact .nil _
  | cons e es ih =>
    obtain ⟨u, hu, hrest⟩ := Option.bind_eq_some_iff.mp h
    exact .cons (sound hu) (ih hrest)

/-! ## States that are tables -/

section

variable {κ α : Type} [DecidableEq κ] {table after : κ → Option α} {i j : κ} {entry : Option α}
  {a : α}

/-- What is in a table after one entry of it was set. -/
theorem some_of_update (hafter : after = Function.update table i entry) (h : after j = some a) :
    (j = i ∧ entry = some a) ∨ (j ≠ i ∧ table j = some a) := by
  rw [hafter] at h
  by_cases hj : j = i
  · subst hj
    rw [Function.update_self] at h
    exact .inl ⟨rfl, h⟩
  · rw [Function.update_of_ne hj] at h
    exact .inr ⟨hj, h⟩

theorem some_of_update_none (hafter : after = Function.update table i none)
    (h : after j = some a) : j ≠ i ∧ table j = some a := by
  rcases some_of_update hafter h with ⟨-, hnone⟩ | hold
  · cases hnone
  · exact hold

end

section

variable {α : Type} {entries : List α} {i j : Nat} {a b : α}

/-- What is in a list after one entry of it was set. -/
theorem some_of_set (h : (entries.set i a)[j]? = some b) :
    (j = i ∧ a = b) ∨ (j ≠ i ∧ entries[j]? = some b) := by
  rw [List.getElem?_set] at h
  by_cases hj : i = j
  · rw [if_pos hj] at h
    split at h
    · exact .inl ⟨hj.symm, Option.some.inj h⟩
    · cases h
  · rw [if_neg hj] at h
    exact .inr ⟨Ne.symm hj, h⟩

/-- What is in a list that has grown by an entry. -/
theorem some_of_concat (h : (entries ++ [a])[j]? = some b) :
    entries[j]? = some b ∨ j = entries.length ∧ a = b := by
  rw [List.getElem?_append] at h
  split at h
  · exact .inl h
  next hlt =>
    rw [List.getElem?_singleton] at h
    split at h
    next hj => exact .inr ⟨by omega, Option.some.inj h⟩
    · cases h

theorem some_concat (h : entries[j]? = some b) : (entries ++ [a])[j]? = some b := by
  rw [List.getElem?_append_left (List.getElem?_eq_some_iff.mp h).1]
  exact h

end

end Climon.Lib.Transition
