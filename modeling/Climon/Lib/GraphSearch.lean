import Mathlib.Data.List.Basic
import Mathlib.Data.List.Nodup
import Mathlib.Logic.Relation

namespace Climon.Lib.GraphSearch

/-!
# Searching a graph with a stack

A node is put on the stack when it is seen for the first time, so the search ends on every finite
graph, with or without cycles.
-/

variable {α : Type} [DecidableEq α]

/-- All nodes that have an edge into them are listed. -/
structure Graph (α : Type) where
  next : α → List α
  nodes : List α
  next_mem : ∀ {x y}, y ∈ next x → y ∈ nodes

def Graph.Edge (g : Graph α) (x y : α) : Prop := y ∈ g.next x

structure Search (α : Type) where
  seen : List α
  found : List α
  stack : List α

namespace Search

def start (root : α) : Search α := ⟨[root], [], [root]⟩

def meet (s : Search α) (x : α) : Search α :=
  if x ∈ s.seen then s else ⟨x :: s.seen, s.found ++ [x], x :: s.stack⟩

def meetAll (s : Search α) (xs : List α) : Search α := xs.foldl meet s

/-- What is still to be done, at most. -/
def measure (g : Graph α) (s : Search α) : Nat :=
  g.nodes.countP (fun x => decide (x ∉ s.seen)) + s.stack.length

variable {g : Graph α} {s : Search α} {x y : α} {xs : List α}

theorem measure_meet (h : x ∈ g.nodes) : (s.meet x).measure g ≤ s.measure g := by
  unfold meet
  split
  · exact Nat.le_refl _
  next hnew =>
    obtain ⟨front, back, hnodes⟩ := List.append_of_mem h
    have hmono (l : List α) : l.countP (fun y => decide (y ∉ x :: s.seen)) ≤
        l.countP (fun y => decide (y ∉ s.seen)) := by
      apply List.countP_mono_left
      intro y _ hunseen
      simp only [List.mem_cons, not_or, decide_eq_true_eq] at hunseen ⊢
      exact hunseen.2
    have hfront := hmono front
    have hback := hmono back
    simp only [measure, List.length_cons, hnodes, List.countP_append, List.countP_cons,
      List.mem_cons_self, not_true, decide_false, hnew, not_false_iff, decide_true, if_true,
      Bool.false_eq_true, if_false]
    omega

theorem measure_meetAll (h : ∀ x ∈ xs, x ∈ g.nodes) : (s.meetAll xs).measure g ≤ s.measure g := by
  induction xs generalizing s with
  | nil => exact Nat.le_refl _
  | cons x xs ih =>
    rw [List.forall_mem_cons] at h
    exact Nat.le_trans (ih h.2) (measure_meet h.1)

end Search

/-- Take a node off the stack and look at where its edges lead, until the stack is empty. -/
def explore (g : Graph α) (s : Search α) : List α :=
  match _h : s.stack with
  | [] => s.found
  | x :: stack => explore g (({ s with stack := stack } : Search α).meetAll (g.next x))
termination_by s.measure g
decreasing_by
  have hle : (({ s with stack := stack } : Search α).meetAll (g.next x)).measure g ≤
      ({ s with stack := stack } : Search α).measure g :=
    Search.measure_meetAll fun y hy => g.next_mem hy
  have hlt : ({ s with stack := stack } : Search α).measure g < s.measure g := by
    simp only [Search.measure, _h, List.length_cons]
    omega
  exact Nat.lt_of_le_of_lt hle hlt

namespace Search

variable {g : Graph α} {s : Search α} {x y root : α} {xs : List α}

/-- What meeting nodes adds. -/
structure Met (s t : Search α) (xs : List α) : Prop where
  seen : ∀ x, x ∈ t.seen ↔ x ∈ s.seen ∨ x ∈ xs
  stack : ∀ x, x ∈ t.stack ↔ x ∈ s.stack ∨ (x ∈ xs ∧ x ∉ s.seen)
  found : ∃ new, t.found = s.found ++ new ∧ new.Nodup ∧ ∀ x, x ∈ new ↔ x ∈ xs ∧ x ∉ s.seen

theorem meetAll_cons : s.meetAll (x :: xs) = (s.meet x).meetAll xs := rfl

theorem met_meetAll : Met s (s.meetAll xs) xs := by
  induction xs generalizing s with
  | nil =>
    exact ⟨by simp [meetAll], by simp [meetAll], [], by simp [meetAll], .nil, by simp⟩
  | cons x xs ih =>
    have hrest := ih (s := s.meet x)
    obtain ⟨new, hfound, hnodup, hnew⟩ := hrest.found
    rw [meetAll_cons]
    by_cases h : x ∈ s.seen
    · rw [show s.meet x = s from if_pos h] at hrest hfound hnew ⊢
      refine ⟨fun y => ?_, fun y => ?_, new, hfound, hnodup, fun y => ?_⟩
      · rw [hrest.seen, List.mem_cons]
        grind
      · rw [hrest.stack, List.mem_cons]
        grind
      · rw [hnew, List.mem_cons]
        grind
    · rw [show s.meet x = ⟨x :: s.seen, s.found ++ [x], x :: s.stack⟩ from if_neg h]
        at hrest hfound hnew ⊢
      refine ⟨fun y => ?_, fun y => ?_, x :: new, ?_, ?_, fun y => ?_⟩
      · rw [hrest.seen, List.mem_cons, List.mem_cons]
        grind
      · rw [hrest.stack, List.mem_cons, List.mem_cons, List.mem_cons]
        grind
      · rw [hfound, List.append_assoc, List.singleton_append]
      · exact List.nodup_cons.mpr ⟨fun hmem => ((hnew x).mp hmem).2 List.mem_cons_self, hnodup⟩
      · rw [List.mem_cons, hnew, List.mem_cons, List.mem_cons]
        grind

/-- What is seen is reached, and what is not on the stack any more has been looked at. -/
structure Sound (g : Graph α) (root : α) (s : Search α) : Prop where
  rooted : root ∈ s.seen
  found : ∀ {x}, x ∈ s.found ↔ x ∈ s.seen ∧ x ≠ root
  nodup : s.found.Nodup
  reached : ∀ {x}, x ∈ s.seen → Relation.ReflTransGen g.Edge root x
  stacked : ∀ {x}, x ∈ s.stack → x ∈ s.seen
  closed : ∀ {x y}, x ∈ s.seen → x ∉ s.stack → g.Edge x y → y ∈ s.seen

omit [DecidableEq α] in
theorem sound_start : Sound g root (start root) where
  rooted := List.mem_singleton_self root
  found := by simp [start]
  nodup := .nil
  reached h := by
    rw [List.mem_singleton.mp h]
  stacked h := h
  closed h hstack := absurd h hstack

omit [DecidableEq α] in
theorem Sound.seen_of_reached (h : Sound g root s) (hstack : s.stack = [])
    (hreach : Relation.ReflTransGen g.Edge root x) : x ∈ s.seen := by
  induction hreach with
  | refl => exact h.rooted
  | tail _ hedge ih => exact h.closed ih (by rw [hstack]; exact List.not_mem_nil) hedge

theorem Sound.expand (h : Sound g root s) {stack : List α} (hstack : s.stack = x :: stack) :
    Sound g root (({ s with stack := stack } : Search α).meetAll (g.next x)) := by
  have hmet : Met ({ s with stack := stack } : Search α) _ (g.next x) := met_meetAll
  obtain ⟨new, hfound, hnodup, hnew⟩ := hmet.found
  have hx : x ∈ s.seen := h.stacked (hstack ▸ List.mem_cons_self)
  refine ⟨?rooted, ?found, ?nodup, ?reached, ?stacked, ?closed⟩
  case rooted => exact (hmet.seen root).mpr (.inl h.rooted)
  case found =>
    intro y
    rw [hfound, List.mem_append, hmet.seen, hnew, h.found]
    have hroot := h.rooted
    grind
  case nodup =>
    rw [hfound]
    refine List.nodup_append.mpr ⟨h.nodup, hnodup, ?_⟩
    rintro y hy _ hy' rfl
    exact ((hnew y).mp hy').2 (h.found.mp hy).1
  case reached =>
    intro y hy
    rcases (hmet.seen y).mp hy with hold | hedge
    · exact h.reached hold
    · exact (h.reached hx).tail hedge
  case stacked =>
    intro y hy
    rcases (hmet.stack y).mp hy with hold | ⟨hedge, -⟩
    · exact (hmet.seen y).mpr (.inl (h.stacked (hstack ▸ List.mem_cons_of_mem x hold)))
    · exact (hmet.seen y).mpr (.inr hedge)
  case closed =>
    intro y z hy hdone hedge
    rw [hmet.stack, not_or, not_and, not_not] at hdone
    have hold : y ∈ s.seen := by
      rcases (hmet.seen y).mp hy with hold | hnext
      · exact hold
      · exact hdone.2 hnext
    by_cases hyx : y = x
    · subst hyx
      exact (hmet.seen z).mpr (.inr hedge)
    · refine (hmet.seen z).mpr (.inl (h.closed hold ?_ hedge))
      rw [hstack, List.mem_cons, not_or]
      exact ⟨hyx, hdone.1⟩

end Search

variable {g : Graph α} {root x : α}

theorem explore_sound {s : Search α} (h : s.Sound g root) :
    (explore g s).Nodup ∧
      ∀ x, x ∈ explore g s ↔ x ≠ root ∧ Relation.ReflTransGen g.Edge root x := by
  induction s using explore.induct g with
  | case1 s hstack =>
    rw [explore]
    split
    · refine ⟨h.nodup, fun x => ?_⟩
      rw [h.found]
      constructor
      · intro hx
        exact ⟨hx.2, h.reached hx.1⟩
      · intro hx
        exact ⟨h.seen_of_reached hstack hx.2, hx.1⟩
    next hcons =>
      rw [hstack] at hcons
      cases hcons
  | case2 s x stack hstack ih =>
    rw [explore]
    split
    next hnil =>
      rw [hstack] at hnil
      cases hnil
    next x' stack' hcons =>
      rw [hstack] at hcons
      cases hcons
      exact ih (h.expand hstack)

/-- The search finds what is reached from the root, the root apart, and nothing twice. -/
theorem explore_start : (explore g (.start root)).Nodup ∧
    ∀ x, x ∈ explore g (.start root) ↔ x ≠ root ∧ Relation.ReflTransGen g.Edge root x :=
  explore_sound Search.sound_start

end Climon.Lib.GraphSearch
