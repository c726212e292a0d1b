import Mathlib.Data.List.Induction
import Mathlib.Order.Lattice

namespace Climon.Lib.Selection

/-! # One choice out of several, made anew by every event

An event sets one of the choices or resets it; whatever was chosen before, the event alone decides.
-/

variable {α β : Type}

def chosen (event : α × Bool) : Option α := if event.2 then some event.1 else none

def select (now : Option α) (events : List (α × Bool)) : Option α :=
  events.foldl (fun _ event => chosen event) now

@[simp] theorem select_nil (now : Option α) : select now [] = now := rfl

theorem select_append (now : Option α) (first second : List (α × Bool)) :
    select now (first ++ second) = select (select now first) second :=
  List.foldl_append

@[simp] theorem select_concat (now : Option α) (events : List (α × Bool)) (event : α × Bool) :
    select now (events ++ [event]) = chosen event := by
  rw [select_append]
  rfl

theorem select_eq (now : Option α) (events : List (α × Bool)) :
    select now events = (events.getLast?.map chosen).getD now := by
  induction events using List.reverseRecOn with
  | nil => rfl
  | append_singleton events event => simp

/-- Sets alone leave the last of them. -/
theorem select_sets (choices : List α) :
    select none (choices.map fun choice => (choice, true)) = choices.getLast? := by
  rw [select_eq, List.getLast?_map]
  cases choices.getLast? <;> rfl

/-- Resets leave nothing chosen, whatever was. -/
theorem select_resets {choices : List α} (h : choices ≠ []) (now : Option α) :
    select now (choices.map fun choice => (choice, false)) = none := by
  rw [select_eq, List.getLast?_map, List.getLast?_eq_some_getLast h]
  rfl

/-- The last element of an ascending list that is on is the greatest one. -/
theorem last_on_iff [LinearOrder β] {rank : α → β} {order : List α} {on : α → Bool} {a : α}
    (h : order.Pairwise fun a b => rank a < rank b) :
    (order.filter on).getLast? = some a ↔
      a ∈ order ∧ on a = true ∧ ∀ b ∈ order, on b = true → rank b ≤ rank a := by
  induction order using List.reverseRecOn with
  | nil => simp
  | append_singleton order last ih =>
    rw [List.pairwise_append] at h
    obtain ⟨horder, -, hlast⟩ := h
    have hbelow : ∀ b ∈ order, rank b < rank last := by
      intro b hb
      exact hlast b hb last (List.mem_singleton_self last)
    rw [List.filter_append]
    cases hon : on last with
    | true =>
      simp only [List.filter_cons_of_pos hon, List.filter_nil, List.getLast?_concat,
        Option.some.injEq]
      constructor
      · rintro rfl
        refine ⟨by simp, hon, ?_⟩
        intro b hb _
        rw [List.mem_append, List.mem_singleton] at hb
        rcases hb with hb | rfl
        · exact (hbelow b hb).le
        · exact le_refl _
      · rintro ⟨ha, -, hgreatest⟩
        rw [List.mem_append, List.mem_singleton] at ha
        rcases ha with ha | rfl
        · exact absurd (hgreatest last (by simp) hon) (not_le.mpr (hbelow a ha))
        · rfl
    | false =>
      rw [List.filter_cons_of_neg (by simp [hon]), List.filter_nil, List.append_nil, ih horder]
      constructor
      · rintro ⟨ha, haon, hgreatest⟩
        refine ⟨List.mem_append_left _ ha, haon, ?_⟩
        intro b hb hbon
        rw [List.mem_append, List.mem_singleton] at hb
        rcases hb with hb | rfl
        · exact hgreatest b hb hbon
        · simp [hon] at hbon
      · rintro ⟨ha, haon, hgreatest⟩
        rw [List.mem_append, List.mem_singleton] at ha
        rcases ha with ha | rfl
        · exact ⟨ha, haon, fun b hb => hgreatest b (List.mem_append_left _ hb)⟩
        · simp [hon] at haon

/-- Replaying what is on in ascending order ends with the choice that the events made exactly when
the events ended with the greatest choice that is on, or with none where nothing is. -/
theorem replay_eq_select_iff [LinearOrder β] {rank : α → β} {order : List α} {on : α → Bool}
    (h : order.Pairwise fun a b => rank a < rank b) (events : List (α × Bool)) :
    select none ((order.filter on).map fun a => (a, true)) = select none events ↔
      match select none events with
      | some a => a ∈ order ∧ on a = true ∧ ∀ b ∈ order, on b = true → rank b ≤ rank a
      | none => ∀ b ∈ order, on b = false := by
  rw [select_sets]
  cases select none events with
  | some a => exact last_on_iff h
  | none => simp

/-! ## Registers -/

section

variable {ε : Type} {f : ε → Option α}

/-- What a register holds that some of the events set: the last of them decides. -/
def latest (f : ε → Option α) (events : List ε) (a : α) : α := (events.filterMap f).getLast?.getD a

theorem latest_cons (e : ε) (events : List ε) (a : α) :
    latest f (e :: events) a = latest f events ((f e).getD a) := by
  unfold latest
  cases hf : f e with
  | none => rw [List.filterMap_cons_none hf, Option.getD_none]
  | some b => rw [List.filterMap_cons_some hf, List.getLast?_cons, Option.getD_some, Option.getD_some]

end

end Climon.Lib.Selection
