import Mathlib.Data.List.Basic

namespace Climon.Lib.EffectLog

/-!
# Programs whose effects are logged

A program adds to a log what it does to the world. The answers it gets may be any function of the
log so far, so a statement about every world covers whatever the world does in between.
-/

variable {ε α β : Type}

/-- Programs that only add to the log of their effects. -/
abbrev Acting (ε : Type) := StateM (List ε)

def act (e : ε) (answer : List ε → α) : Acting ε α := fun log => (answer log, log ++ [e])

/-- A program goes on with the answer to its first act. -/
theorem act_bind_fst (e : ε) (answer : List ε → α) (k : α → Acting ε β) (log : List ε) :
    ((act e answer >>= k) log).1 = (k (answer log) (log ++ [e])).1 := rfl

/-- Every effect of the program satisfies the predicate, wherever it starts. -/
def Within (P : ε → Prop) (m : Acting ε α) : Prop :=
  ∀ log, ∃ added, (m log).2 = log ++ added ∧ ∀ e ∈ added, P e

variable {P : ε → Prop}

theorem Within.pure (a : α) : Within P (pure a : Acting ε α) := by
  intro log
  refine ⟨[], (List.append_nil log).symm, ?_⟩
  intro e he
  cases he

theorem Within.bind {m : Acting ε α} {k : α → Acting ε β} (hm : Within P m)
    (hk : ∀ a, Within P (k a)) : Within P (m >>= k) := by
  intro log
  obtain ⟨first, hfirst, hin⟩ := hm log
  obtain ⟨second, hsecond, hin'⟩ := hk (m log).1 (m log).2
  refine ⟨first ++ second, ?_, ?_⟩
  · calc
      ((m >>= k) log).2 = (k (m log).1 (m log).2).2 := rfl
      _ = log ++ (first ++ second) := by rw [hsecond, hfirst, List.append_assoc]
  · intro e he
    rcases List.mem_append.mp he with hold | hnew
    · exact hin e hold
    · exact hin' e hnew

theorem Within.act {e : ε} (he : P e) (answer : List ε → α) : Within P (act e answer) := by
  intro log
  refine ⟨[e], rfl, ?_⟩
  intro e' he'
  rw [List.mem_singleton.mp he']
  exact he

/-- What a program does may depend on the log. -/
theorem Within.get_bind {k : List ε → Acting ε α} (hk : ∀ log, Within P (k log)) :
    Within P (get >>= k) := fun log => hk log log

theorem Within.mono {Q : ε → Prop} {m : Acting ε α} (h : Within P m) (hPQ : ∀ e, P e → Q e) :
    Within Q m := by
  intro log
  obtain ⟨added, hadded, hin⟩ := h log
  exact ⟨added, hadded, fun e he => hPQ e (hin e he)⟩

/-- The first effect of a program is in its log. -/
theorem mem_act_bind (e : ε) (answer : List ε → α) {k : α → Acting ε β}
    (hk : ∀ a, Within (fun _ => True) (k a)) (log : List ε) :
    e ∈ ((act e answer >>= k) log).2 := by
  obtain ⟨added, hadded, -⟩ := hk (answer log) (log ++ [e])
  have hsame : ((act e answer >>= k) log).2 = log ++ [e] ++ added := hadded
  rw [hsame]
  exact List.mem_append_left _ (List.mem_append_right _ (List.mem_singleton_self e))

/-- What a program did stays in the log. -/
theorem mem_bind {m : Acting ε α} {k : α → Acting ε β} {e : ε} {log : List ε}
    (hk : ∀ a, Within (fun _ => True) (k a)) (h : e ∈ (m log).2) : e ∈ ((m >>= k) log).2 := by
  obtain ⟨added, hadded, -⟩ := hk (m log).1 (m log).2
  have hsame : ((m >>= k) log).2 = (m log).2 ++ added := hadded
  rw [hsame]
  exact List.mem_append_left _ h

theorem mem_bind_next {m : Acting ε α} {k : α → Acting ε β} {e : ε} {log : List ε}
    (h : e ∈ (k (m log).1 (m log).2).2) : e ∈ ((m >>= k) log).2 := h

end Climon.Lib.EffectLog
