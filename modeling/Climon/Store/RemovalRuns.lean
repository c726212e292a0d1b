import Climon.Lib.Transition
import Climon.Store.PatchRuns

namespace Climon.Store.RemovalRuns

open Climon.Lib.Transition Climon.Proto.Meta Climon.Store.Patch
  Climon.Store.PatchRuns

/-!
# Removing a session

A removal runs beside the patches of the session. It does not take their lock, so it may come
between the read of a patch and its rename.
-/

/-- The patched file and the scrollback beside it. -/
structure RemovalState where
  store : StoreState
  scrollback : Option Bytes

def removeSessionMeta (id : String) (s : RemovalState) : Bool × RemovalState :=
  match s.store.files id with
  | none => (false, s)
  | some _ =>
    (true, { store := { s.store with files := Function.update s.store.files id none },
             scrollback := none })

/-- A step of a patch or of a reader, or a whole removal; one whose unlink fails changes nothing. -/
inductive RemovalEvent where
  | patch (e : Event)
  | remove
  | removeFails (e : StoreError)
  deriving DecidableEq, Repr

variable (codec : MetaCodec) (calls : CallId → Call) (id : String)

def removalNext (s : RemovalState) : RemovalEvent → Option RemovalState
  | .patch e => (next codec calls id s.store e).map fun t => { s with store := t }
  | .remove => some (removeSessionMeta id s).2
  | .removeFails _ => some s

def RemovalStep (s : RemovalState) (e : RemovalEvent) (t : RemovalState) : Prop :=
  removalNext codec calls id s e = some t

/-- The call has read the metadata and is on its way to rename a new version to the session's
path. -/
def Publishes (call : Call) : Pc → Prop
  | .computing current =>
    ∃ updated data, computed codec call current = .creating updated data ∧ updated.id = id
  | .creating updated _ | .writing updated _ _ | .publishing updated _ _ => updated.id = id
  | _ => False

/-- The call has not read the metadata yet. -/
def Unread : Pc → Prop
  | .idle | .queued | .locked => True
  | _ => False

/-- The call never sees the session: what it reports is that it is missing, or an error. -/
def ReportsMissing : Pc → Prop
  | .idle | .queued | .locked | .crashed => True
  | .releasing result | .done result _ => result = .missing ∨ ∃ e, result = .failed e
  | _ => False

variable {codec : MetaCodec} {calls : CallId → Call} {id : String}

/-! ## After a removal -/

structure Gone (codec : MetaCodec) (calls : CallId → Call) (id : String) (late : CallId → Prop)
    (s : StoreState) : Prop where
  absent : s.files id = none
  quiet : ∀ c, ¬ Publishes codec id (calls c) (s.pc c)
  missing : ∀ c, late c → ReportsMissing (s.pc c)

/-- One call moves and no path changes. -/
theorem Gone.moves {late : CallId → Prop} {s t : StoreState} (h : Gone codec calls id late s)
    {c : CallId} {pc : Pc} (hfiles : t.files id = s.files id)
    (hpc : t.pc = Function.update s.pc c pc) (hquiet : ¬ Publishes codec id (calls c) pc)
    (hmissing : late c → ReportsMissing pc) : Gone codec calls id late t := by
  refine ⟨hfiles.trans h.absent, fun d => ?_, fun d hd => ?_⟩
  · rw [hpc]
    by_cases hsame : d = c
    · subst hsame
      rwa [Function.update_self]
    · rw [Function.update_of_ne hsame]
      exact h.quiet d
  · rw [hpc]
    by_cases hsame : d = c
    · subst hsame
      rw [Function.update_self]
      exact hmissing hd
    · rw [Function.update_of_ne hsame]
      exact h.missing d hd

theorem Gone.fail {late : CallId → Prop} {s : StoreState} (h : Gone codec calls id late s)
    (c : CallId) (e : StoreError) : Gone codec calls id late (s.fail c e) :=
  h.moves rfl rfl (fun h => h) fun _ => .inr ⟨e, rfl⟩

/-- A call that has read the session goes on, and no path changes. -/
theorem Gone.onward {late : CallId → Prop} {s t : StoreState} (h : Gone codec calls id late s)
    {c : CallId} {old pc : Pc} (hold : s.pc c = old) (hfiles : t.files id = s.files id)
    (hpc : t.pc = Function.update s.pc c pc) (hread : ¬ ReportsMissing old)
    (hquiet : Publishes codec id (calls c) pc → Publishes codec id (calls c) old) :
    Gone codec calls id late t := by
  subst hold
  exact h.moves hfiles hpc (fun hpub => h.quiet c (hquiet hpub))
    fun hlate => absurd (h.missing c hlate) hread

theorem Gone.compute {late : CallId → Prop} {s : StoreState} (h : Gone codec calls id late s)
    {c : CallId} {current : SessionMeta} (hpc : s.pc c = .computing current) :
    Gone codec calls id late (s.goto c (computed codec (calls c) current)) := by
  refine h.onward hpc rfl rfl (fun hmissing => hmissing) fun hpub => ?_
  rcases computed_cases codec (calls c) current with ⟨updated, data, heq⟩ | ⟨result, heq, -⟩
  · rw [heq] at hpub
    exact ⟨updated, data, heq, hpub⟩
  · rw [heq] at hpub
    exact hpub.elim

/-- What a late call has to report does not change when it releases. -/
theorem Gone.release {late : CallId → Prop} {s t : StoreState} (h : Gone codec calls id late s)
    {c : CallId} {result : Result} {failure : Option StoreError} (hold : s.pc c = .releasing result)
    (hfiles : t.files id = s.files id)
    (hpc : t.pc = Function.update s.pc c (.done result failure)) : Gone codec calls id late t := by
  refine h.moves hfiles hpc (fun hpub => hpub) fun hlate => ?_
  have hmissing := h.missing c hlate
  rwa [hold] at hmissing

theorem Gone.readers {late : CallId → Prop} {s : StoreState} (h : Gone codec calls id late s)
    (readers : Nat → Reader) : Gone codec calls id late { s with readers := readers } :=
  ⟨h.absent, h.quiet, h.missing⟩

/-- A call whose rename would bring the file back is excluded, so a rename goes to another path. -/
theorem Gone.rename {late : CallId → Prop} {s : StoreState} (h : Gone codec calls id late s)
    {c : CallId} {updated : SessionMeta} {temp : Inode} {attempt : Nat}
    (hold : s.pc c = .publishing updated temp attempt) :
    Gone codec calls id late ({ s with
      files := Function.update s.files updated.id (some temp) }.goto c
        (.releasing (.written updated))) := by
  have hne : id ≠ updated.id := by
    intro heq
    have hquiet := h.quiet c
    rw [hold] at hquiet
    exact hquiet heq.symm
  refine h.onward hold ?_ rfl (fun hmissing => hmissing) fun hpub => hpub.elim
  exact Function.update_of_ne hne _ _

theorem Gone.step {late : CallId → Prop} {s t : StoreState} (h : Gone codec calls id late s)
    {e : Event} (hstep : Step codec calls id s e t) : Gone codec calls id late t := by
  unfold Step next at hstep
  cases e with
  | enter c =>
    dsimp only at hstep
    split at hstep
    · cases hstep
      exact h.moves rfl rfl (fun hpub => hpub) fun _ => trivial
    · cases hstep
  | acquire c =>
    dsimp only at hstep
    split at hstep
    · cases hstep
      exact h.moves rfl rfl (fun hpub => hpub) fun _ => trivial
    · cases hstep
  | acquireFails c e =>
    dsimp only at hstep
    split at hstep
    · cases hstep
      exact h.moves rfl rfl (fun hpub => hpub) fun _ => .inr ⟨e, rfl⟩
    · cases hstep
  | read c ok =>
    dsimp only at hstep
    split at hstep
    next hpc =>
      cases hstep
      split
      · have hcontent : s.content id = none := by rw [StoreState.content, h.absent]; rfl
        rw [hcontent]
        exact h.moves rfl rfl (fun hpub => hpub) fun _ => .inl rfl
      · exact h.fail c .io
    · cases hstep
  | compute c =>
    dsimp only at hstep
    split at hstep
    next current hpc =>
      cases hstep
      exact h.compute hpc
    · cases hstep
  | createTemp c ok =>
    dsimp only at hstep
    split at hstep
    next updated data hpc =>
      cases hstep
      split
      · exact h.onward hpc rfl rfl (fun hmissing => hmissing) fun hpub => hpub
      · exact h.fail c .io
    · cases hstep
  | writeChunk c n =>
    dsimp only at hstep
    split at hstep
    next updated temp rest hpc =>
      cases hstep
      refine h.onward hpc rfl rfl (fun hmissing => hmissing) fun hpub => ?_
      split at hpub <;> exact hpub
    · cases hstep
  | writeFails c =>
    dsimp only at hstep
    split at hstep
    · cases hstep
      exact h.fail c .io
    · cases hstep
  | rename c outcome =>
    dsimp only at hstep
    split at hstep
    next updated temp attempt hpc =>
      cases outcome with
      | ok =>
        cases hstep
        exact h.rename hpc
      | transient =>
        dsimp only at hstep
        split at hstep
        · cases hstep
          exact h.fail c .io
        · cases hstep
          exact h.onward hpc rfl rfl (fun hmissing => hmissing) fun hpub => hpub
      | permanent =>
        cases hstep
        exact h.fail c .io
    · cases hstep
  | release c failure =>
    dsimp only at hstep
    split at hstep
    next result hpc =>
      cases hstep
      exact h.release hpc rfl rfl
    · cases hstep
  | crash c =>
    cases hstep
    exact h.moves rfl rfl (fun hpub => hpub) fun _ => trivial
  | openFile r =>
    dsimp only at hstep
    split at hstep <;> (cases hstep; exact h.readers _)
  | readChunk r n =>
    dsimp only at hstep
    split at hstep
    · cases hstep
      exact h.readers _
    · cases hstep

theorem patch_step {s t : RemovalState} {e : Event}
    (hstep : RemovalStep codec calls id s (.patch e) t) :
    Step codec calls id s.store e t.store ∧ t.scrollback = s.scrollback := by
  obtain ⟨store, hstore, rfl⟩ := Option.map_eq_some_iff.mp hstep
  exact ⟨hstore, rfl⟩

theorem Gone.removalStep {late : CallId → Prop} {s t : RemovalState} {e : RemovalEvent}
    (h : Gone codec calls id late s.store) (hstep : RemovalStep codec calls id s e t) :
    Gone codec calls id late t.store := by
  cases e with
  | patch e => exact h.step (patch_step hstep).1
  | remove =>
    cases hstep
    unfold removeSessionMeta
    rw [h.absent]
    exact h
  | removeFails e =>
    cases hstep
    exact h

theorem Gone.run {late : CallId → Prop} {s t : RemovalState} {es : List RemovalEvent}
    (run : Run (RemovalStep codec calls id) s es t) (h : Gone codec calls id late s.store) :
    Gone codec calls id late t.store :=
  run.invariant (I := fun s : RemovalState => Gone codec calls id late s.store)
    (fun h hstep => h.removalStep hstep) h

@[simp] theorem removeSessionMeta_pc (s : RemovalState) :
    (removeSessionMeta id s).2.store.pc = s.store.pc := by
  unfold removeSessionMeta
  cases s.store.files id <;> rfl

@[simp] theorem removeSessionMeta_files (s : RemovalState) :
    (removeSessionMeta id s).2.store.files id = none := by
  unfold removeSessionMeta
  cases h : s.store.files id with
  | none => exact h
  | some inode => exact Function.update_self _ _ _

theorem removed_gone {s : RemovalState}
    (hquiet : ∀ c, ¬ Publishes codec id (calls c) (s.store.pc c)) :
    Gone codec calls id (fun c => Unread (s.store.pc c)) (removeSessionMeta id s).2.store := by
  refine ⟨removeSessionMeta_files s, ?_, ?_⟩
  · rw [removeSessionMeta_pc]
    exact hquiet
  · rw [removeSessionMeta_pc]
    intro c hunread
    cases hpc : s.store.pc c with
    | idle => trivial
    | queued => trivial
    | locked => trivial
    | _ =>
      rw [hpc] at hunread
      exact hunread.elim

/-! ## A patch that comes back -/

/-- Without another step in between, the call gets to its rename. -/
theorem publishing_returns {s : StoreState} {c : CallId} {updated : SessionMeta} {temp : Inode}
    {attempt : Nat} (hpc : s.pc c = .publishing updated temp attempt) (hid : updated.id = id) :
    ∃ es t, Run (Step codec calls id) s es t ∧ t.files id ≠ none := by
  have hstep : ∃ t, Step codec calls id s (.rename c .ok) t ∧ t.files id = some temp := by
    simp only [Step, next, hpc]
    exact ⟨_, rfl, hid ▸ Function.update_self _ _ _⟩
  obtain ⟨t, hstep, ht⟩ := hstep
  refine ⟨_, t, .cons hstep (.nil t), ?_⟩
  rw [ht]
  exact Option.some_ne_none _

theorem writing_returns {s : StoreState} {c : CallId} {updated : SessionMeta} {temp : Inode}
    {rest : Bytes} (hpc : s.pc c = .writing updated temp rest) (hid : updated.id = id) :
    ∃ es t, Run (Step codec calls id) s es t ∧ t.files id ≠ none := by
  have hstep : ∃ t, Step codec calls id s (.writeChunk c rest.length) t ∧
      t.pc c = .publishing updated temp 0 := by
    simp only [Step, next, hpc, List.drop_length, ↓reduceIte]
    exact ⟨_, rfl, Function.update_self _ _ _⟩
  obtain ⟨u, hstep, hu⟩ := hstep
  obtain ⟨es, t, run, ht⟩ := publishing_returns hu hid
  exact ⟨_, t, .cons hstep run, ht⟩

theorem creating_returns {s : StoreState} {c : CallId} {updated : SessionMeta} {data : Bytes}
    (hpc : s.pc c = .creating updated data) (hid : updated.id = id) :
    ∃ es t, Run (Step codec calls id) s es t ∧ t.files id ≠ none := by
  have hstep : ∃ t, Step codec calls id s (.createTemp c true) t ∧
      t.pc c = .writing updated s.nextInode data := by
    simp only [Step, next, hpc, ↓reduceIte]
    exact ⟨_, rfl, Function.update_self _ _ _⟩
  obtain ⟨u, hstep, hu⟩ := hstep
  obtain ⟨es, t, run, ht⟩ := writing_returns hu hid
  exact ⟨_, t, .cons hstep run, ht⟩

theorem computing_returns {s : StoreState} {c : CallId} {current updated : SessionMeta}
    {data : Bytes} (hpc : s.pc c = .computing current)
    (hcomputed : computed codec (calls c) current = .creating updated data)
    (hid : updated.id = id) :
    ∃ es t, Run (Step codec calls id) s es t ∧ t.files id ≠ none := by
  have hstep : ∃ t, Step codec calls id s (.compute c) t ∧ t.pc c = .creating updated data := by
    simp only [Step, next, hpc, hcomputed]
    exact ⟨_, rfl, Function.update_self _ _ _⟩
  obtain ⟨u, hstep, hu⟩ := hstep
  obtain ⟨es, t, run, ht⟩ := creating_returns hu hid
  exact ⟨_, t, .cons hstep run, ht⟩

theorem publishes_returns {s : StoreState} {c : CallId}
    (hpub : Publishes codec id (calls c) (s.pc c)) :
    ∃ es t, Run (Step codec calls id) s es t ∧ t.files id ≠ none := by
  cases hpc : s.pc c with
  | computing current =>
    rw [hpc] at hpub
    obtain ⟨updated, data, hcomputed, hid⟩ := hpub
    exact computing_returns hpc hcomputed hid
  | creating updated data =>
    rw [hpc] at hpub
    exact creating_returns hpc hpub
  | writing updated temp rest =>
    rw [hpc] at hpub
    exact writing_returns hpc hpub
  | publishing updated temp attempt =>
    rw [hpc] at hpub
    exact publishing_returns hpc hpub
  | _ =>
    rw [hpc] at hpub
    exact hpub.elim

theorem patches_run {s t : StoreState} {es : List Event} (run : Run (Step codec calls id) s es t)
    (scrollback : Option Bytes) :
    Run (RemovalStep codec calls id) ⟨s, scrollback⟩ (es.map .patch) ⟨t, scrollback⟩ := by
  induction run with
  | nil => exact .nil _
  | cons hstep _ ih =>
    refine .cons ?_ ih
    simp only [RemovalStep, removalNext, show next codec calls id _ _ = some _ from hstep,
      Option.map_some]

/-! ## Main result -/

/-- A removal that returned true is final exactly if no call had read the metadata and was still to
publish what it made of it. Final means that in every run from there on the file stays absent, and
a call that had not read yet never finds the session. -/
theorem removal_final (codec : MetaCodec) (calls : CallId → Call) (id : String)
    (u v : RemovalState) (hremoved : removeSessionMeta id u = (true, v)) :
    (∀ es s, Run (RemovalStep codec calls id) v es s →
      s.store.files id = none ∧ ∀ c, Unread (u.store.pc c) → ReportsMissing (s.store.pc c)) ↔
    ∀ c, ¬ Publishes codec id (calls c) (u.store.pc c) := by
  have hv : v = (removeSessionMeta id u).2 := by rw [hremoved]
  constructor
  · intro hfinal c hpub
    have hpub' : Publishes codec id (calls c) (v.store.pc c) := by
      rwa [hv, removeSessionMeta_pc]
    obtain ⟨es, t, run, ht⟩ := publishes_returns hpub'
    exact ht (hfinal _ _ (patches_run run v.scrollback)).1
  · intro hquiet es s run
    have h := Gone.run run (hv ▸ removed_gone hquiet)
    exact ⟨h.absent, h.missing⟩

/-! A patch of the priority beside a removal of the same session. -/

def sampleStored : RemovalState := ⟨initialState "s" (some sampleBefore.2), none⟩

def sampleRead : List RemovalEvent :=
  [.patch (.enter 0), .patch (.acquire 0), .patch (.read 0 true), .patch (.compute 0)]

def sampleWrite (size : Nat) : List RemovalEvent :=
  [.remove, .patch (.createTemp 0 true), .patch (.writeChunk 0 size), .patch (.rename 0 .ok),
    .patch (.release 0 none)]

def sampleLate : List RemovalEvent :=
  [.patch (.enter 0), .patch (.acquire 0), .patch (.read 0 true), .patch (.release 0 none)]

theorem late_exec (codec : MetaCodec) (raw : Bytes) :
    (exec (removalNext codec sampleCalls "s")
      (removeSessionMeta "s" ⟨initialState "s" (some raw), none⟩).2 sampleLate).isSome = true := by
  simp [exec, sampleLate, removalNext, next, removeSessionMeta, initialState, StoreState.goto,
    StoreState.content, afterRead, readSessionMeta]

theorem removal_final_late : ∃ s,
    exec (removalNext sampleCodec sampleCalls "s") (removeSessionMeta "s" sampleStored).2
      sampleLate = some s ∧ s.store.files "s" = none ∧ ReportsMissing (s.store.pc 0) := by
  obtain ⟨s, hs⟩ := Option.isSome_iff_exists.mp (late_exec sampleCodec sampleBefore.2)
  have hfinal := (removal_final sampleCodec sampleCalls "s" sampleStored _ rfl).mpr
    (fun _ hpub => hpub) _ s (Run.of_exec (fun h => h) hs)
  exact ⟨s, hs, hfinal.1, hfinal.2 0 trivial⟩

theorem undone_exec {codec : MetaCodec} {raw data : Bytes}
    (hparse : codec.parse raw = some sampleBefore.1)
    (hserialize : codec.serialize sampleAfter.1 = some data) : ∃ u s,
    exec (removalNext codec sampleCalls "s") ⟨initialState "s" (some raw), none⟩ sampleRead =
      some u ∧
    (removeSessionMeta "s" u).1 = true ∧
    exec (removalNext codec sampleCalls "s") u (sampleWrite data.length) = some s ∧
    s.store.content "s" = some data ∧
    s.store.pc 0 = .done (.written sampleAfter.1) none := by
  have hread : afterRead codec (some raw) = .computing sampleBefore.1 :=
    afterRead_parsed codec hparse
  have hcomputed : computed codec (sampleCalls 0) sampleBefore.1 = .creating sampleAfter.1 data :=
    (computed_eq_creating codec).mpr ⟨_, rfl, rfl, hserialize⟩
  have hid : sampleAfter.1.id = "s" := rfl
  simp [exec, sampleRead, sampleWrite, removalNext, next, initialState, removeSessionMeta,
    StoreState.goto, StoreState.content, hread, hcomputed, hid]

/-- The removal comes between the read and the rename: it returns true, and the patch writes the
session again. -/
theorem removal_undone : ∃ u s,
    exec (removalNext sampleCodec sampleCalls "s") sampleStored sampleRead = some u ∧
    (removeSessionMeta "s" u).1 = true ∧
    exec (removalNext sampleCodec sampleCalls "s") u (sampleWrite sampleAfter.2.length) = some s ∧
    s.store.content "s" = some sampleAfter.2 ∧
    s.store.pc 0 = .done (.written sampleAfter.1) none := by
  have hparse : sampleCodec.parse sampleBefore.2 = some sampleBefore.1 := pairCodec_parse _ _ _
  have hserialize : sampleCodec.serialize sampleAfter.1 = some sampleAfter.2 :=
    pairCodec_serialize _ _ _ fun h => nomatch congrArg SessionMeta.priority h
  exact undone_exec hparse hserialize

end Climon.Store.RemovalRuns
