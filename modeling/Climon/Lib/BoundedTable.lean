import Mathlib.Data.Finset.Card
import Mathlib.Data.Set.Basic

namespace Climon.Lib.BoundedTable

/-!
# A bounded table beside a store

Items are offered one by one. The table takes what it has room for, and what it takes is stored.
A list of what is there then clears both.
-/

structure Tables (α : Type) where
  registered : Finset α
  stored : Set α

variable {α : Type}

section

variable [DecidableEq α] (capacity : Nat) (refused : α → Prop) [DecidablePred refused]

/-- A refused item loses its place, and a known one keeps it. -/
def offer (t : Tables α) (a : α) : Tables α :=
  if refused a then { t with registered := t.registered.erase a }
  else if a ∈ t.registered ∨ capacity ≤ t.registered.card then t
  else ⟨insert a t.registered, insert a t.stored⟩

def keepListed (listed : Finset α) (t : Tables α) : Tables α :=
  ⟨t.registered ∩ listed, {a | a ∈ t.stored ∧ a ∈ listed ∧ ¬ refused a}⟩

/-- What is listed and not refused. -/
def wanted (listed : Finset α) : Finset α := listed.filter fun a => ¬ refused a

/-- Everything listed was offered before. -/
def receive (t : Tables α) (offers : List α) : Tables α :=
  keepListed refused offers.toFinset (offers.foldl (offer capacity refused) t)

/-- The state after `past` was offered, from `before`. -/
structure Offered (before : Tables α) (past : List α) (now : Tables α) : Prop where
  bound : now.registered.card ≤ capacity
  keeps : ∀ a ∈ before.registered, ¬ refused a → a ∈ now.registered
  source : ∀ a ∈ now.registered, a ∈ before.registered ∨ a ∈ past ∧ ¬ refused a
  dropped : ∀ a ∈ past, refused a → a ∉ now.registered
  stored : ∀ a, ¬ refused a →
    (a ∈ now.stored ↔ a ∈ before.stored ∨ a ∈ now.registered ∧ a ∉ before.registered)

end

variable {capacity : Nat} {refused : α → Prop} {before now : Tables α}
  {past : List α} {a : α}

theorem mem_wanted [DecidablePred refused] {listed : Finset α} :
    a ∈ wanted refused listed ↔ a ∈ listed ∧ ¬ refused a :=
  Finset.mem_filter

section

variable [DecidableEq α] [DecidablePred refused] {t : Tables α}

theorem offer_refused (ha : refused a) :
    offer capacity refused t a = { t with registered := t.registered.erase a } :=
  if_pos ha

theorem offer_known (ha : ¬ refused a) (h : a ∈ t.registered ∨ capacity ≤ t.registered.card) :
    offer capacity refused t a = t := by
  rw [offer, if_neg ha, if_pos h]

theorem offer_new (ha : ¬ refused a) (hnew : a ∉ t.registered)
    (hroom : ¬ capacity ≤ t.registered.card) :
    offer capacity refused t a = ⟨insert a t.registered, insert a t.stored⟩ := by
  rw [offer, if_neg ha, if_neg (not_or.mpr ⟨hnew, hroom⟩)]

end

theorem Offered.nil (h : before.registered.card ≤ capacity) :
    Offered capacity refused before [] before where
  bound := h
  keeps _ ha _ := ha
  source _ ha := .inl ha
  dropped _ ha := absurd ha List.not_mem_nil
  stored _ _ := ⟨.inl, fun h => h.elim id fun hnew => absurd hnew.1 hnew.2⟩

theorem Offered.skip (h : Offered capacity refused before past now) (ha : ¬ refused a) :
    Offered capacity refused before (past ++ [a]) now where
  bound := h.bound
  keeps := h.keeps
  source b hb := (h.source b hb).imp_right fun hpast => ⟨List.mem_append_left _ hpast.1, hpast.2⟩
  dropped b hb hrefused := by
    rcases List.mem_append.mp hb with hold | hnew
    · exact h.dropped b hold hrefused
    · cases List.mem_singleton.mp hnew
      exact absurd hrefused ha
  stored := h.stored

variable [DecidableEq α]

theorem Offered.erase (h : Offered capacity refused before past now) (ha : refused a) :
    Offered capacity refused before (past ++ [a])
      { now with registered := now.registered.erase a } where
  bound := (Finset.card_erase_le).trans h.bound
  keeps b hb hnot := Finset.mem_erase.mpr ⟨fun heq => hnot (heq ▸ ha), h.keeps b hb hnot⟩
  source b hb := (h.source b (Finset.mem_of_mem_erase hb)).imp_right fun hpast =>
    ⟨List.mem_append_left _ hpast.1, hpast.2⟩
  dropped b hb hrefused hmem := by
    rcases List.mem_append.mp hb with hold | hnew
    · exact h.dropped b hold hrefused (Finset.mem_of_mem_erase hmem)
    · cases List.mem_singleton.mp hnew
      exact Finset.notMem_erase _ now.registered hmem
  stored b hnot := by
    have hne : b ≠ a := fun heq => hnot (heq ▸ ha)
    rw [h.stored b hnot, Finset.mem_erase, and_iff_right hne]

theorem Offered.insert (h : Offered capacity refused before past now) (ha : ¬ refused a)
    (hnew : a ∉ now.registered) (hroom : now.registered.card < capacity) :
    Offered capacity refused before (past ++ [a])
      ⟨insert a now.registered, insert a now.stored⟩ where
  bound := (Finset.card_insert_le a now.registered).trans hroom
  keeps b hb hnot := Finset.mem_insert_of_mem (h.keeps b hb hnot)
  source b hb := by
    rcases Finset.mem_insert.mp hb with rfl | hold
    · exact .inr ⟨List.mem_append_right _ List.mem_cons_self, ha⟩
    · exact (h.source b hold).imp_right fun hpast => ⟨List.mem_append_left _ hpast.1, hpast.2⟩
  dropped b hb hrefused hmem := by
    have hne : b ≠ a := fun heq => ha (heq ▸ hrefused)
    rcases List.mem_append.mp hb with hold | hlast
    · exact h.dropped b hold hrefused ((Finset.mem_insert.mp hmem).resolve_left hne)
    · exact hne (List.mem_singleton.mp hlast)
  stored b hnot := by
    have hfresh : a ∉ before.registered := fun hmem => hnew (h.keeps a hmem ha)
    rw [Set.mem_insert_iff, Finset.mem_insert, h.stored b hnot]
    by_cases heq : b = a
    · subst heq
      simp [hfresh]
    · simp [heq]

variable [DecidablePred refused]

theorem Offered.offer (h : Offered capacity refused before past now) (a : α) :
    Offered capacity refused before (past ++ [a]) (offer capacity refused now a) := by
  by_cases ha : refused a
  · rw [offer_refused ha]
    exact h.erase ha
  · by_cases hkeep : a ∈ now.registered ∨ capacity ≤ now.registered.card
    · rw [offer_known ha hkeep]
      exact h.skip ha
    · rw [not_or] at hkeep
      rw [offer_new ha hkeep.1 hkeep.2]
      exact h.insert ha hkeep.1 (Nat.not_le.mp hkeep.2)

theorem offered (hbefore : before.registered.card ≤ capacity) (offers : List α) :
    Offered capacity refused before offers (offers.foldl (offer capacity refused) before) := by
  induction offers using List.reverseRecOn with
  | nil => exact .nil hbefore
  | append_singleton past a ih =>
    rw [List.foldl_concat]
    exact ih.offer a

/-- An item that was left out met a full table. -/
theorem offered_or_full (hbefore : before.registered.card ≤ capacity) (offers : List α)
    (hkept : ∀ a ∈ before.registered, ¬ refused a) :
    (∀ a ∈ offers, ¬ refused a →
        a ∈ (offers.foldl (offer capacity refused) before).registered) ∨
      (offers.foldl (offer capacity refused) before).registered.card = capacity := by
  induction offers using List.reverseRecOn with
  | nil => exact .inl fun a ha => absurd ha List.not_mem_nil
  | append_singleton past a ih =>
    have hpast : Offered capacity refused before past
        (past.foldl (offer capacity refused) before) := offered hbefore past
    rw [List.foldl_concat]
    generalize past.foldl (offer capacity refused) before = now at ih hpast
    unfold offer
    split
    next ha =>
      -- Nobody in the table is refused, so nothing goes.
      have hgone : now.registered.erase a = now.registered := by
        refine Finset.erase_eq_of_notMem fun hmem => ?_
        exact (hpast.source a hmem).elim (fun hold => hkept a hold ha) fun hnew => hnew.2 ha
      rw [hgone]
      refine ih.imp_left fun hall b hb hnot => ?_
      rcases List.mem_append.mp hb with hold | hlast
      · exact hall b hold hnot
      · exact absurd ha (List.mem_singleton.mp hlast ▸ hnot)
    next ha =>
      split
      next hkeep =>
        rcases hkeep with hmem | hfull
        · refine ih.imp_left fun hall b hb hnot => ?_
          rcases List.mem_append.mp hb with hold | hlast
          · exact hall b hold hnot
          · exact List.mem_singleton.mp hlast ▸ hmem
        · exact .inr (Nat.le_antisymm hpast.bound hfull)
      next hroom =>
        rw [not_or, Nat.not_le] at hroom
        refine .inl fun b hb hnot => ?_
        rcases List.mem_append.mp hb with hold | hlast
        · refine Finset.mem_insert_of_mem ((ih.resolve_right ?_) b hold hnot)
          exact Nat.ne_of_lt hroom.2
        · exact List.mem_singleton.mp hlast ▸ Finset.mem_insert_self _ _

/-- With room for everything that is there or offered, everything offered is taken. -/
theorem offered_all (offers : List α)
    (hfits : (before.registered ∪ wanted refused offers.toFinset).card ≤ capacity) :
    ∀ a ∈ offers, ¬ refused a → a ∈ (offers.foldl (offer capacity refused) before).registered := by
  induction offers using List.reverseRecOn with
  | nil => exact fun a ha => absurd ha List.not_mem_nil
  | append_singleton past a ih =>
    have hwanted : wanted refused past.toFinset ⊆ wanted refused (past ++ [a]).toFinset :=
      Finset.filter_subset_filter _ fun b hb => by simp_all
    have hpast : Offered capacity refused before past
        (past.foldl (offer capacity refused) before) :=
      offered ((Finset.card_le_card Finset.subset_union_left).trans hfits) past
    have hall := ih ((Finset.card_le_card (Finset.union_subset_union_right hwanted)).trans hfits)
    have hoffered := hpast.offer a
    rw [List.foldl_concat]
    generalize past.foldl (offer capacity refused) before = now at hall hpast hoffered ⊢
    intro b hb hnot
    rcases List.mem_append.mp hb with hold | hlast
    · have hmem := hall b hold hnot
      unfold offer
      split
      next ha => exact Finset.mem_erase.mpr ⟨fun heq => hnot (heq ▸ ha), hmem⟩
      next =>
        split
        · exact hmem
        · exact Finset.mem_insert_of_mem hmem
    · cases List.mem_singleton.mp hlast
      unfold offer
      rw [if_neg hnot]
      split
      next hkeep =>
        by_contra hmissing
        have hsub : insert a now.registered ⊆
            before.registered ∪ wanted refused (past ++ [a]).toFinset := by
          intro c hc
          rcases Finset.mem_insert.mp hc with rfl | hmem
          · simp [wanted, hnot]
          · rcases hpast.source c hmem with hbefore | hnew
            · exact Finset.mem_union_left _ hbefore
            · simp [wanted, hnew]
        have hcard := (Finset.card_le_card hsub).trans hfits
        rw [Finset.card_insert_of_notMem hmissing] at hcard
        exact absurd hcard (Nat.not_le.mpr
          (Nat.lt_succ_of_le (hkeep.resolve_left hmissing)))
      next => exact Finset.mem_insert_self _ _

section

variable {offers : List α}

theorem receive_subset (hbefore : before.registered.card ≤ capacity) :
    (receive capacity refused before offers).registered ⊆ wanted refused offers.toFinset := by
  intro a ha
  obtain ⟨hmem, hlisted⟩ := Finset.mem_inter.mp ha
  exact mem_wanted.mpr ⟨hlisted, fun hrefused =>
    (offered hbefore offers).dropped a (List.mem_toFinset.mp hlisted) hrefused hmem⟩

theorem receive_keeps (hbefore : before.registered.card ≤ capacity) (ha : a ∈ before.registered)
    (hwanted : a ∈ wanted refused offers.toFinset) :
    a ∈ (receive capacity refused before offers).registered := by
  obtain ⟨hlisted, hnot⟩ := mem_wanted.mp hwanted
  exact Finset.mem_inter.mpr ⟨(offered hbefore offers).keeps a ha hnot, hlisted⟩

theorem receive_bound (hbefore : before.registered.card ≤ capacity) :
    (receive capacity refused before offers).registered.card ≤ capacity :=
  (Finset.card_le_card Finset.inter_subset_left).trans (offered hbefore offers).bound

/-- What is stored in the end was stored before or was taken. -/
theorem receive_stored (hbefore : before.registered.card ≤ capacity) :
    a ∈ (receive capacity refused before offers).stored ↔
      a ∈ wanted refused offers.toFinset ∧ (a ∈ before.stored ∨
        a ∈ (receive capacity refused before offers).registered ∧ a ∉ before.registered) := by
  change _ ∧ a ∈ offers.toFinset ∧ ¬ refused a ↔ _
  rw [mem_wanted]
  constructor
  · rintro ⟨hstored, hlisted, hnot⟩
    refine ⟨⟨hlisted, hnot⟩, (((offered hbefore offers).stored a hnot).mp hstored).imp_right ?_⟩
    exact fun hnew => ⟨Finset.mem_inter.mpr ⟨hnew.1, hlisted⟩, hnew.2⟩
  · rintro ⟨⟨hlisted, hnot⟩, hsource⟩
    refine ⟨((offered hbefore offers).stored a hnot).mpr (hsource.imp_right ?_), hlisted, hnot⟩
    exact fun hnew => ⟨(Finset.mem_inter.mp hnew.1).1, hnew.2⟩

/-- With room for all, exactly what is wanted is registered. -/
theorem receive_all
    (hfits : (before.registered ∪ wanted refused offers.toFinset).card ≤ capacity) :
    (receive capacity refused before offers).registered = wanted refused offers.toFinset := by
  refine Finset.Subset.antisymm
    (receive_subset ((Finset.card_le_card Finset.subset_union_left).trans hfits)) fun a ha => ?_
  obtain ⟨hlisted, hnot⟩ := mem_wanted.mp ha
  exact Finset.mem_inter.mpr
    ⟨offered_all offers hfits a (List.mem_toFinset.mp hlisted) hnot, hlisted⟩

/-- Where nothing has to go, the table takes all it has room for. -/
theorem receive_card (hbefore : before.registered.card ≤ capacity)
    (hkept : before.registered ⊆ wanted refused offers.toFinset) :
    (receive capacity refused before offers).registered.card =
      min (wanted refused offers.toFinset).card capacity := by
  have hsub : (receive capacity refused before offers).registered ⊆
      wanted refused offers.toFinset := receive_subset hbefore
  have hcard := Finset.card_le_card hsub
  have hbound : (receive capacity refused before offers).registered.card ≤ capacity :=
    receive_bound hbefore
  rcases offered_or_full hbefore offers fun a ha => (mem_wanted.mp (hkept ha)).2 with hall | hfull
  · have heq : wanted refused offers.toFinset ⊆
        (receive capacity refused before offers).registered := by
      intro a ha
      obtain ⟨hlisted, hnot⟩ := mem_wanted.mp ha
      exact Finset.mem_inter.mpr ⟨hall a (List.mem_toFinset.mp hlisted) hnot, hlisted⟩
    have := Finset.card_le_card heq
    omega
  · have hsame : (receive capacity refused before offers).registered =
        (offers.foldl (offer capacity refused) before).registered := by
      refine Finset.inter_eq_left.mpr fun a ha => ?_
      rcases (offered hbefore offers).source a ha with hold | hnew
      · exact (mem_wanted.mp (hkept hold)).1
      · exact List.mem_toFinset.mpr hnew.1
    rw [hsame] at hcard ⊢
    omega

end

end Climon.Lib.BoundedTable
