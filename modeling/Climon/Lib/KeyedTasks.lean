import Mathlib.Data.List.Induction
import Mathlib.Data.List.Nodup
import Mathlib.Data.List.Range

namespace Climon.Lib.KeyedTasks

/-!
# Running tasks and the list of wanted ones

Tasks run under the key of what they were started for. A round takes the list that is wanted now,
cancels the tasks whose key is not in it, and starts one for each key that has none.
-/

/-- A task that was started; no two of them have the same number. -/
structure Handle (σ : Type) where
  id : Nat
  spec : σ
  deriving DecidableEq, Repr

/-- The running tasks by key, and all that were ever started or cancelled, in order. -/
structure Supervisor (κ σ : Type) where
  active : List (κ × Handle σ)
  started : List (Handle σ)
  cancelled : List (Handle σ)
  deriving DecidableEq, Repr

variable {κ σ : Type}

def Supervisor.empty : Supervisor κ σ := ⟨[], [], []⟩

def Supervisor.keys (s : Supervisor κ σ) : List κ := s.active.map Prod.fst

section

variable [DecidableEq κ] (key : σ → κ)

def cancelStale (wanted : List κ) (s : Supervisor κ σ) : Supervisor κ σ :=
  { s with
    active := s.active.filter fun entry => entry.1 ∈ wanted
    cancelled := s.cancelled ++ (s.active.filter fun entry => entry.1 ∉ wanted).map Prod.snd }

def spawnMissing (s : Supervisor κ σ) (spec : σ) : Supervisor κ σ :=
  if key spec ∈ s.keys then s
  else
    let handle := ⟨s.started.length, spec⟩
    { s with
      active := (key spec, handle) :: s.active
      started := s.started ++ [handle] }

def reconcile (s : Supervisor κ σ) (desired : List σ) : Supervisor κ σ :=
  desired.foldl (spawnMissing key) (cancelStale (desired.map key) s)

/-- The supervisor after a sequence of rounds. -/
def after (rounds : List (List σ)) : Supervisor κ σ := rounds.foldl (reconcile key) .empty

end

variable (key : σ → κ)

def Running (s : Supervisor κ σ) (h : Handle σ) : Prop := (key h.spec, h) ∈ s.active

/-- Every task runs under its own key, and has been started; it runs until it is cancelled. -/
structure Sound (s : Supervisor κ σ) : Prop where
  keyed : ∀ entry ∈ s.active, entry.1 = key entry.2.spec
  nodup : s.keys.Nodup
  ids : s.started.map Handle.id = List.range s.started.length
  live : ∀ entry ∈ s.active, entry.2 ∈ s.started
  once : s.cancelled.Nodup
  known : ∀ h ∈ s.cancelled, h ∈ s.started
  accounted : ∀ h ∈ s.started, Running key s h ↔ h ∉ s.cancelled

variable {key} {s : Supervisor κ σ}

theorem Sound.empty : Sound key (.empty : Supervisor κ σ) where
  keyed := by
    intro entry hentry
    cases hentry
  nodup := List.nodup_nil
  ids := rfl
  live := by
    intro entry hentry
    cases hentry
  once := List.nodup_nil
  known := by
    intro h hh
    cases hh
  accounted := by
    intro h hh
    cases hh

theorem Sound.running (h : Sound key s) {entry : κ × Handle σ} (hentry : entry ∈ s.active) :
    Running key s entry.2 := by
  rw [Running, ← h.keyed entry hentry]
  exact hentry

theorem Sound.id_of_getElem? (h : Sound key s) {i : Nat} {handle : Handle σ}
    (hi : s.started[i]? = some handle) : handle.id = i := by
  have hid : (s.started.map Handle.id)[i]? = some handle.id := by
    rw [List.getElem?_map, hi]
    rfl
  rw [h.ids, List.getElem?_range (List.getElem?_eq_some_iff.mp hi).1] at hid
  exact (Option.some.inj hid).symm

/-- A task stands in the list of those started under its number. -/
theorem Sound.getElem?_of_mem (h : Sound key s) {handle : Handle σ} (hmem : handle ∈ s.started) :
    s.started[handle.id]? = some handle := by
  obtain ⟨i, hi⟩ := List.mem_iff_getElem?.mp hmem
  rw [h.id_of_getElem? hi]
  exact hi

theorem Sound.handles_nodup (h : Sound key s) : (s.active.map Prod.snd).Nodup := by
  refine List.Nodup.of_map (fun handle => key handle.spec) ?_
  have hkeys : (s.active.map Prod.snd).map (fun handle => key handle.spec) = s.keys := by
    rw [List.map_map, Supervisor.keys]
    exact List.map_congr_left fun entry hentry => (h.keyed entry hentry).symm
  rw [hkeys]
  exact h.nodup

variable [DecidableEq κ]

/-! ## Cancelling -/

theorem mem_cancelled_cancelStale (h : Sound key s) {wanted : List κ} {handle : Handle σ} :
    handle ∈ (cancelStale wanted s).cancelled ↔
      handle ∈ s.cancelled ∨ Running key s handle ∧ key handle.spec ∉ wanted := by
  simp only [cancelStale, List.mem_append, List.mem_map, List.mem_filter, decide_eq_true_eq]
  refine or_congr_right ⟨?_, ?_⟩
  · rintro ⟨entry, ⟨hentry, hstale⟩, rfl⟩
    rw [h.keyed entry hentry] at hstale
    exact ⟨h.running hentry, hstale⟩
  · rintro ⟨hrunning, hstale⟩
    exact ⟨_, ⟨hrunning, hstale⟩, rfl⟩

theorem running_cancelStale {wanted : List κ} {handle : Handle σ} :
    Running key (cancelStale wanted s) handle ↔
      Running key s handle ∧ key handle.spec ∈ wanted := by
  simp [Running, cancelStale]

theorem Sound.cancelStale (h : Sound key s) (wanted : List κ) : Sound key (cancelStale wanted s) where
  keyed entry hentry := h.keyed entry (List.mem_of_mem_filter hentry)
  nodup := h.nodup.sublist (List.filter_sublist.map Prod.fst)
  ids := h.ids
  live entry hentry := h.live entry (List.mem_of_mem_filter hentry)
  once := by
    refine List.nodup_append.mpr ⟨h.once, ?_, ?_⟩
    · exact h.handles_nodup.sublist (List.filter_sublist.map Prod.snd)
    · rintro old hold _ hnew rfl
      obtain ⟨entry, hentry, rfl⟩ := List.mem_map.mp hnew
      have hrunning := h.running (List.mem_of_mem_filter hentry)
      exact (h.accounted _ (h.known _ hold)).mp hrunning hold
  known handle hhandle := by
    rcases (mem_cancelled_cancelStale h).mp hhandle with hold | ⟨hrunning, -⟩
    · exact h.known handle hold
    · exact h.live _ hrunning
  accounted handle hhandle := by
    rw [running_cancelStale, mem_cancelled_cancelStale h, not_or, h.accounted handle hhandle]
    tauto

/-! ## Starting -/

theorem spawnMissing_known {spec : σ} (h : key spec ∈ s.keys) : spawnMissing key s spec = s :=
  if_pos h

theorem spawnMissing_new {spec : σ} (h : key spec ∉ s.keys) :
    spawnMissing key s spec =
      { s with
        active := (key spec, ⟨s.started.length, spec⟩) :: s.active
        started := s.started ++ [⟨s.started.length, spec⟩] } :=
  if_neg h

omit [DecidableEq κ] in
/-- The number of a new task is not taken. -/
theorem Sound.notMem_started (h : Sound key s) (spec : σ) : ⟨s.started.length, spec⟩ ∉ s.started := by
  intro hmem
  have hid := List.mem_map_of_mem (f := Handle.id) hmem
  rw [h.ids, List.mem_range] at hid
  exact Nat.lt_irrefl _ hid

theorem Sound.spawnMissing (h : Sound key s) (spec : σ) : Sound key (spawnMissing key s spec) := by
  by_cases hknown : key spec ∈ s.keys
  · rw [spawnMissing_known hknown]
    exact h
  · have hfresh := h.notMem_started spec
    rw [spawnMissing_new hknown]
    refine ⟨?_, List.nodup_cons.mpr ⟨hknown, h.nodup⟩, ?_, ?_, h.once, ?_, ?_⟩
    · intro entry hentry
      rcases List.mem_cons.mp hentry with rfl | hold
      · rfl
      · exact h.keyed entry hold
    · rw [List.map_append, h.ids, List.length_append, List.map_singleton, List.length_singleton,
        List.range_succ]
    · intro entry hentry
      rcases List.mem_cons.mp hentry with rfl | hold
      · exact List.mem_append_right _ (List.mem_singleton_self _)
      · exact List.mem_append_left _ (h.live entry hold)
    · intro handle hhandle
      exact List.mem_append_left _ (h.known handle hhandle)
    · intro handle hhandle
      rcases List.mem_append.mp hhandle with hold | hnew
      · rw [← h.accounted handle hold]
        refine ⟨fun hrunning => ?_, fun hrunning => List.mem_cons_of_mem _ hrunning⟩
        rcases List.mem_cons.mp hrunning with heq | hrunning
        · rw [(Prod.mk.inj heq).2] at hold
          exact absurd hold hfresh
        · exact hrunning
      · rw [List.mem_singleton.mp hnew]
        exact iff_of_true List.mem_cons_self fun hmem => hfresh (h.known _ hmem)

/-- What starting the tasks that are missing changes. -/
structure Spawned (key : σ → κ) (s t : Supervisor κ σ) (desired : List σ) : Prop where
  sound : Sound key t
  cancelled : t.cancelled = s.cancelled
  grows : s.started ⊆ t.started
  keys : ∀ k, k ∈ t.keys ↔ k ∈ s.keys ∨ k ∈ desired.map key

theorem Sound.spawned (h : Sound key s) (desired : List σ) :
    Spawned key s (desired.foldl (KeyedTasks.spawnMissing key) s) desired := by
  induction desired generalizing s with
  | nil => exact ⟨h, rfl, List.Subset.refl _, by simp⟩
  | cons spec desired ih =>
    have hrest := ih (h.spawnMissing spec)
    by_cases hknown : key spec ∈ s.keys
    · rw [spawnMissing_known hknown] at hrest
      rw [List.foldl_cons, spawnMissing_known hknown]
      refine ⟨hrest.sound, hrest.cancelled, hrest.grows, fun k => ?_⟩
      rw [hrest.keys, List.map_cons, List.mem_cons]
      refine ⟨Or.imp_right .inr, ?_⟩
      rintro (hk | rfl | hk)
      · exact .inl hk
      · exact .inl hknown
      · exact .inr hk
    · rw [spawnMissing_new hknown] at hrest
      rw [List.foldl_cons, spawnMissing_new hknown]
      refine ⟨hrest.sound, hrest.cancelled, ?_, fun k => ?_⟩
      · exact List.Subset.trans (List.subset_append_left _ _) hrest.grows
      · rw [hrest.keys]
        simp only [Supervisor.keys, List.map_cons, List.mem_cons]
        tauto

/-! ## A round -/

/-- What a round changes, for the keys that are wanted in it. -/
structure Reconciled (key : σ → κ) (s t : Supervisor κ σ) (wanted : List κ) : Prop where
  sound : Sound key t
  grows : s.started ⊆ t.started
  keys : ∀ k, k ∈ t.keys ↔ k ∈ wanted
  kept : ∀ h ∈ s.started, (Running key t h ↔ Running key s h ∧ key h.spec ∈ wanted)
  cancelled : ∀ h, h ∈ t.cancelled ↔ h ∈ s.cancelled ∨ Running key s h ∧ key h.spec ∉ wanted
  fresh : ∀ h ∈ t.started, h ∉ s.started → Running key t h

theorem Sound.reconciled (h : Sound key s) (desired : List σ) :
    Reconciled key s (reconcile key s desired) (desired.map key) := by
  have hstale := h.cancelStale (desired.map key)
  have hspawned := hstale.spawned desired
  have hcancelled : ∀ handle, handle ∈ (reconcile key s desired).cancelled ↔
      handle ∈ s.cancelled ∨ Running key s handle ∧ key handle.spec ∉ desired.map key := by
    intro handle
    rw [reconcile, hspawned.cancelled, mem_cancelled_cancelStale h]
  refine ⟨hspawned.sound, hspawned.grows, fun k => ?_, fun handle hhandle => ?_, hcancelled, ?_⟩
  · have hkept : k ∈ (KeyedTasks.cancelStale (desired.map key) s).keys → k ∈ desired.map key := by
      intro hk
      obtain ⟨entry, hentry, rfl⟩ := List.mem_map.mp hk
      exact of_decide_eq_true (List.mem_filter.mp hentry).2
    rw [reconcile, hspawned.keys]
    exact ⟨fun hk => hk.elim hkept id, .inr⟩
  · rw [reconcile, hspawned.sound.accounted handle (hspawned.grows hhandle), hspawned.cancelled,
      ← hstale.accounted handle hhandle, running_cancelStale]
  · intro handle hhandle hnew
    rw [reconcile, hspawned.sound.accounted handle hhandle, hspawned.cancelled]
    exact fun hmem => hnew (hstale.known handle hmem)

/-! ## A run -/

theorem after_append (front : List (List σ)) (round : List σ) :
    after key (front ++ [round]) = reconcile key (after key front) round :=
  List.foldl_concat _ _ _ _

theorem sound_after (rounds : List (List σ)) : Sound key (after key rounds) := by
  induction rounds using List.reverseRecOn with
  | nil => exact .empty
  | append_singleton front round ih =>
    rw [after_append]
    exact (ih.reconciled round).sound

theorem reconciled_after (front : List (List σ)) (round : List σ) :
    Reconciled key (after key front) (after key (front ++ [round])) (round.map key) := by
  rw [after_append]
  exact (sound_after front).reconciled round

theorem started_mono (front middle : List (List σ)) :
    (after key front).started ⊆ (after key (front ++ middle)).started := by
  induction middle using List.reverseRecOn with
  | nil =>
    rw [List.append_nil]
    exact List.Subset.refl _
  | append_singleton middle round ih =>
    rw [← List.append_assoc]
    exact List.Subset.trans ih (reconciled_after (front ++ middle) round).grows

/-- Every task was started in some round. -/
theorem exists_round (rounds : List (List σ)) {h : Handle σ} (hstarted : h ∈ (after key rounds).started) :
    ∃ front round middle, rounds = front ++ round :: middle ∧
      h ∈ (after key (front ++ [round])).started ∧ h ∉ (after key front).started := by
  induction rounds using List.reverseRecOn with
  | nil => cases hstarted
  | append_singleton front round ih =>
    by_cases hold : h ∈ (after key front).started
    · obtain ⟨before, first, middle, rfl, hfirst, hnew⟩ := ih hold
      exact ⟨before, first, middle ++ [round], by simp, hfirst, hnew⟩
    · exact ⟨front, round, [], rfl, hstarted, hold⟩

/-- A task that a round starts runs for as long as its key is wanted without a gap. -/
theorem running_iff (front middle : List (List σ)) (round : List σ) {h : Handle σ}
    (hstarted : h ∈ (after key (front ++ [round])).started)
    (hnew : h ∉ (after key front).started) :
    Running key (after key (front ++ [round] ++ middle)) h ↔
      ∀ later ∈ middle, key h.spec ∈ later.map key := by
  induction middle using List.reverseRecOn with
  | nil =>
    rw [List.append_nil]
    exact iff_of_true ((reconciled_after front round).fresh h hstarted hnew) (by simp)
  | append_singleton middle later ih =>
    have hknown := started_mono (front ++ [round]) middle hstarted
    rw [← List.append_assoc, (reconciled_after (front ++ [round] ++ middle) later).kept h hknown, ih]
    simp [or_imp, forall_and]

/-- It is cancelled as soon as its key is not. -/
theorem cancelled_iff (front middle : List (List σ)) (round : List σ) {h : Handle σ}
    (hstarted : h ∈ (after key (front ++ [round])).started)
    (hnew : h ∉ (after key front).started) :
    h ∈ (after key (front ++ [round] ++ middle)).cancelled ↔
      ∃ later ∈ middle, key h.spec ∉ later.map key := by
  have hknown := started_mono (front ++ [round]) middle hstarted
  rw [← not_iff_not, ← (sound_after _).accounted h hknown,
    running_iff front middle round hstarted hnew]
  push Not
  rfl

end Climon.Lib.KeyedTasks
