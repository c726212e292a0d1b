import Climon.Remote.Snapshot

namespace Climon.Remote.Dismissal

open Climon.Lib.AssocList Climon.Lib.BoundedTable Climon.Lib.JsonValue Climon.Lib.Transition
  Climon.Proto.Meta Climon.Remote.Ingest Climon.Remote.Namespace Climon.Remote.Sanitize
  Climon.Remote.Snapshot Climon.Store.SessionFiles

/-!
# Dismissed sessions

ingest polls the session directory. A mirror whose file is gone since the last poll counts as
deleted by the user, and its session is not mirrored again in this run of ingest.
-/

/-! ## The watcher -/

def idPart (part : List Char) : Bool :=
  !part.isEmpty && part.all fun c => c.isAlphanum || c == '.' || c == '_' || c == '-'

/-- The id of a mirror's file, from the file's name. -/
def matchNamespacedSessionFile (filename : String) : Option String :=
  let chars := filename.toList
  if ".json".toList.isSuffixOf chars then
    let stem := chars.take (chars.length - 5)
    match stem.dropWhile (· != '~') with
    | [] => none
    | _ :: right =>
      if idPart (stem.takeWhile (· != '~')) && idPart right then some (String.ofList stem) else none
  else none

/-- A directory that cannot be read looks empty. -/
def scanNamespacedSessionFiles (readable : Bool) (dir : Directory) : List String :=
  if readable then dir.metas.filterMap fun file => matchNamespacedSessionFile (file.1 ++ ".json")
  else []

/-! ## Messages that other processes interrupt -/

/-- What is left to do of a message: each is one look at the directory or one change of it. -/
inductive Task where
  | add (advertised : Json)
  | delete (remoteId : String)
  | reconcile (label : String) (valid : List String) (dismissed : String → Bool)
  | reconcileFile (label : String) (valid : List String) (dismissed : String → Bool)
      (sessionMeta : SessionMeta)

/-- The check for dismissal comes first. The port is bound, and the file written, after it. -/
def beginAdd (config : Config) (s : IngestState) (c : ConnId) (advertised : Json) :
    IngestState × List Task :=
  match (s.conns c).label with
  | none => (s, [])
  | some label =>
    let remoteId := advertisedId advertised
    if ¬ isValidRemoteId remoteId then (s, [])
    else if config.registry ∧ s.dismissed (namespacedId label remoteId) then
      (s.dropSession c remoteId, [])
    else (s, [.add advertised])

def beginList (config : Config) (s : IngestState) (c : ConnId) (ids : List String) : List Task :=
  match (s.conns c).label with
  | none => []
  | some label =>
    let valid := ids.filter isValidRemoteId
    let dismissed := if config.registry then s.dismissed else fun _ => false
    let toDrop := ((s.conns c).sessions.map (·.1)).filter fun remoteId => !valid.contains remoteId
    toDrop.map .delete ++ [.reconcile label valid dismissed]

/-- The change, and the work that follows from it. An addition has its check behind it. -/
def perform (config : Config) (io : Io) (c : ConnId) (s : IngestState) :
    Task → IngestState × List Task
  | .add advertised => (s.addSession { config with registry := false } io c advertised, [])
  | .delete remoteId => (s.removeSessionDeleting io c remoteId, [])
  | .reconcile label valid dismissed =>
    (s, if io.listOk then s.dir.listSessions.map (.reconcileFile label valid dismissed) else [])
  | .reconcileFile label valid dismissed sessionMeta =>
    (s.reconcileFile io label valid dismissed sessionMeta, [])

section

variable {config : Config} {s : IngestState} {c : ConnId} {label : String}

theorem addSession_unrefused {advertised : Json} (hlabel : (s.conns c).label = some label)
    (hkept : ¬ Refused config s label (advertisedId advertised)) (io : Io) :
    s.addSession { config with registry := false } io c advertised =
      s.addSession config io c advertised := by
  unfold IngestState.addSession
  rw [hlabel]
  dsimp only
  have hnot : ¬ (config.registry = true ∧ s.dismissed (namespacedId label
    (((advertised.get? "id").bind Json.asStr).getD "")) = true) := hkept
  simp only [Bool.false_eq_true, false_and, if_false, if_neg hnot]

/-- A message that nothing interrupts is handled as a whole. -/
theorem beginAdd_uninterrupted (io : Io) (advertised : Json) :
    let begun := beginAdd config s c advertised
    begun.2.foldl (fun s task => (perform config io c s task).1) begun.1 =
      s.addSession config io c advertised := by
  unfold beginAdd
  cases hlabel : (s.conns c).label with
  | none => simp [IngestState.addSession, hlabel]
  | some label =>
    dsimp only
    split
    next hbad =>
      change s = _
      rw [IngestState.addSession, hlabel]
      exact (if_pos hbad).symm
    · split
      next hvalid hrefused =>
        change s.dropSession c _ = _
        rw [IngestState.addSession, hlabel]
        exact ((if_neg hvalid).trans (if_pos hrefused)).symm
      next hkept => exact addSession_unrefused hlabel hkept io

theorem beginList_uninterrupted (hlabel : (s.conns c).label = some label) (io : Io)
    (ids : List String) :
    let valid := ids.filter isValidRemoteId
    let dismissed := if config.registry then s.dismissed else fun _ => false
    ∃ drops, beginList config s c ids = drops ++ [.reconcile label valid dismissed] ∧
      let t := drops.foldl (fun s task => (perform config io c s task).1) s
      (perform config io c t (.reconcile label valid dismissed)).2.foldl
        (fun s task => (perform config io c s task).1) t = s.sessionList config io c ids := by
  refine ⟨_, by rw [beginList, hlabel], ?_⟩
  rw [IngestState.sessionList, hlabel]
  simp only [List.foldl_map, perform, IngestState.applySessionList,
    IngestState.reconcileAgainstSnapshot]
  split
  · rw [List.foldl_map]
  · rfl

end

/-! ## Runs -/

/-- Who removed a mirror's file: the user, or ingest for a session that its source has no more, or
that was dismissed. -/
inductive Cause where
  | user
  | source
  | dismissed
  deriving DecidableEq, Repr

/-- `prev` is what the last poll found. `gone` is the log of the files that went, last first. -/
structure WatchState where
  ingest : IngestState
  work : ConnId → List Task
  prev : List String
  gone : List (String × Cause)

inductive Event where
  | ingest (e : Ingest.Event)
  | added (c : ConnId) (advertised : Json)
  | listed (c : ConnId) (ids : List String)
  | work (c : ConnId) (io : Io)
  | delete (id : String)
  | edit (id : String) (patch : SessionMetaPatch) (now : String)
  | poll (readable : Bool)

def initial (dir : Directory) (readable : Bool) : WatchState where
  ingest := initialState dir fun _ => false
  work := fun _ => []
  prev := scanNamespacedSessionFiles readable dir
  gone := []

namespace WatchState

/-- The files that ingest removed on the way to `t`. -/
def removals (s : WatchState) (t : IngestState) : List (String × Cause) :=
  ((s.ingest.dir.metas.map (·.1)).filter fun id => (t.dir.lookup id).isNone).map fun id =>
    (id, if s.ingest.dismissed id then .dismissed else .source)

def follow (s : WatchState) (t : IngestState) (work : ConnId → List Task) : WatchState :=
  { s with ingest := t, work := work, gone := s.removals t ++ s.gone }

def idle (s : WatchState) (c : ConnId) : Bool :=
  (s.ingest.conns c).phase = .reading && (s.work c).isEmpty

/-- A connection reads on when its message is handled. What other processes do has events of its
own, and the leftovers are handled before the watcher starts. -/
def allowed (s : WatchState) : Ingest.Event → Bool
  | .connect _ | .viewer _ _ => true
  | .control c _ _ | .data c _ _ | .registered c | .close c _ => (s.work c).isEmpty
  | .start _ | .others _ _ => false

end WatchState

def next (config : Config) (s : WatchState) : Event → Option WatchState
  | .ingest e =>
    if s.allowed e then (Ingest.next config s.ingest e).map fun t => s.follow t s.work else none
  | .added c advertised =>
    if s.idle c then
      let begun := beginAdd config s.ingest c advertised
      some (s.follow begun.1 (Function.update s.work c begun.2))
    else none
  | .listed c ids =>
    if s.idle c then
      some { s with work := Function.update s.work c (beginList config s.ingest c ids) }
    else none
  | .work c io =>
    match s.work c with
    | [] => none
    | task :: rest =>
      let done := perform config io c s.ingest task
      some (s.follow done.1 (Function.update s.work c (done.2 ++ rest)))
  | .delete id =>
    match s.ingest.dir.lookup id with
    | none => none
    | some _ =>
      some { s with
        ingest := { s.ingest with dir := s.ingest.dir.removeSessionMeta id }
        gone := (id, .user) :: s.gone }
  | .edit id patch now =>
    some { s with
      ingest := { s.ingest with dir := s.ingest.dir.patchSessionMeta id patch now } }
  | .poll readable =>
    let current := scanNamespacedSessionFiles readable s.ingest.dir
    some { s with
      ingest := { s.ingest with
        dismissed := fun id => s.ingest.dismissed id || s.prev.contains id && !current.contains id }
      prev := current }

def Step (config : Config) (s : WatchState) (e : Event) (t : WatchState) : Prop :=
  next config s e = some t

/-- A poll misses a file of the last one only where the user was the last to remove it, or where
the session is dismissed already. -/
def OnlyDeletedMissing (s : WatchState) : Event → Prop
  | .poll readable =>
    ∀ id ∈ s.prev, id ∉ scanNamespacedSessionFiles readable s.ingest.dir →
      s.ingest.dismissed id = true ∨ s.gone.lookup id = some .user
  | _ => True

instance (s : WatchState) (e : Event) : Decidable (OnlyDeletedMissing s e) := by
  cases e with
  | poll readable => exact inferInstanceAs (Decidable (∀ id ∈ s.prev, _ → _))
  | _ => exact isTrue trivial

/-! ## What a run keeps -/

structure WatchInv (config : Config) (s : WatchState) : Prop where
  inv : Inv s.ingest
  allOk : AllOk config s.ingest
  users : ∀ id, s.ingest.dismissed id = true → (id, .user) ∈ s.gone
  spared : ∀ id, s.gone.lookup id = some .source → s.ingest.dismissed id = false

section

variable {config : Config} {s t : WatchState}

theorem lookup_tagged {β : Type} (f : String → β) (ids : List String) (id : String) {b : β}
    (h : (ids.map fun id => (id, f id)).lookup id = some b) : b = f id := by
  obtain ⟨other, -, heq⟩ := List.mem_map.mp (mem_of_lookup h)
  cases heq
  rfl

/-- A change that ingest makes. What it removes and was not dismissed is not dismissed now. -/
theorem WatchInv.follow (h : WatchInv config s) {u : IngestState} (hinv : Inv u)
    (htables : AllOk config u) (hdismissed : u.dismissed = s.ingest.dismissed)
    (work : ConnId → List Task) : WatchInv config (s.follow u work) where
  inv := hinv
  allOk := htables
  users id hid := by
    change u.dismissed id = true at hid
    rw [hdismissed] at hid
    exact List.mem_append_right _ (h.users id hid)
  spared id hid := by
    change u.dismissed id = false
    change (s.removals u ++ s.gone).lookup id = some .source at hid
    rw [hdismissed]
    rw [List.lookup_append] at hid
    cases hremoved : (s.removals u).lookup id with
    | none =>
      rw [hremoved, Option.none_or] at hid
      exact h.spared id hid
    | some cause =>
      rw [hremoved, Option.some_or] at hid
      cases hid
      have hcause := lookup_tagged _ _ _ hremoved
      by_contra hnot
      rw [if_pos (Bool.not_eq_false _ ▸ hnot)] at hcause
      cases hcause

theorem allOk_registry {u : IngestState} {registry : Bool} :
    AllOk { config with registry := registry } u ↔ AllOk config u :=
  ⟨fun h c => ⟨(h c).distinct, (h c).bound, (h c).named⟩,
    fun h c => ⟨(h c).distinct, (h c).bound, (h c).named⟩⟩

theorem beginAdd_handled {u : IngestState} {c : ConnId} (h : Inv u) (htables : AllOk config u)
    (advertised : Json) :
    Handled (u.conns c).label c u (beginAdd config u c advertised).1 ∧
      AllOk config (beginAdd config u c advertised).1 := by
  unfold beginAdd
  split
  · exact ⟨Handled.refl h, htables⟩
  · dsimp only
    split
    · exact ⟨Handled.refl h, htables⟩
    · split
      · exact ⟨dropSession_handled h _, htables.drop _⟩
      · exact ⟨Handled.refl h, htables⟩

theorem reconcileFile_keeps {u : IngestState} (h : Inv u) (io : Io) (label : String)
    (valid : List String) (dismissed : String → Bool) (sessionMeta : SessionMeta) :
    Inv (u.reconcileFile io label valid dismissed sessionMeta) ∧
      (u.reconcileFile io label valid dismissed sessionMeta).dismissed = u.dismissed := by
  unfold IngestState.reconcileFile IngestState.remove
  repeat' split
  all_goals first
    | exact ⟨h, rfl⟩
    | exact ⟨⟨h.tidy.remove _, h.conns⟩, rfl⟩

theorem perform_keeps {u : IngestState} {c : ConnId} (h : Inv u) (htables : AllOk config u)
    (io : Io) (task : Task) :
    Inv (perform config io c u task).1 ∧ AllOk config (perform config io c u task).1 ∧
      (perform config io c u task).1.dismissed = u.dismissed := by
  cases task with
  | add advertised =>
    have hhandled := addSession_handled (c := c) h { config with registry := false } io advertised
    have htables' : AllOk { config with registry := false } u := allOk_registry.mpr htables
    have hadded := htables'.addSession (c := c) io advertised
    exact ⟨hhandled.inv, allOk_registry.mp hadded, hhandled.confined.dismissed⟩
  | delete remoteId =>
    have hhandled := removeSessionDeleting_handled (c := c) h io remoteId
    exact ⟨hhandled.inv, htables.removeSessionDeleting io remoteId, hhandled.confined.dismissed⟩
  | reconcile label valid dismissed => exact ⟨h, htables, rfl⟩
  | reconcileFile label valid dismissed sessionMeta =>
    obtain ⟨hinv, hdismissed⟩ := reconcileFile_keeps h io label valid dismissed sessionMeta
    exact ⟨hinv, htables.congr (reconcileFile_conns io label valid dismissed sessionMeta),
      hdismissed⟩

theorem ingest_dismissed {u v : IngestState} {e : Ingest.Event} (h : Inv u)
    (hothers : ∀ dir dismissed, e ≠ .others dir dismissed) (hstart : ∀ io, e ≠ .start io)
    (hstep : Ingest.Step config u e v) : v.dismissed = u.dismissed := by
  cases hc : connOf e with
  | some c =>
    obtain ⟨label, hhandled, -⟩ := step_handled h hc hstep
    exact hhandled.confined.dismissed
  | none =>
    cases e with
    | connect c =>
      obtain ⟨-, rfl⟩ := (Option.ite_none_right_eq_some.mp hstep).imp_right Option.some.inj
      rfl
    | start io => exact absurd rfl (hstart io)
    | others dir dismissed => exact absurd rfl (hothers dir dismissed)
    | _ => cases hc

theorem watchInv_step {e : Event} (h : WatchInv config s)
    (hstep : Guarded OnlyDeletedMissing (Step config) s e t) : WatchInv config t := by
  obtain ⟨hmissing, hstep⟩ := hstep
  simp only [Step, next] at hstep
  cases e with
  | ingest e =>
    obtain ⟨hallowed, hmap⟩ := Option.ite_none_right_eq_some.mp hstep
    obtain ⟨u, hu, rfl⟩ := Option.map_eq_some_iff.mp hmap
    have htidy : OthersTidy s.ingest e := by
      cases e with
      | others => cases hallowed
      | _ => trivial
    refine h.follow (step_inv h.inv ⟨htidy, hu⟩) (allOk_step h.allOk hu)
      (ingest_dismissed h.inv ?_ ?_ hu) _
    · rintro dir dismissed rfl
      cases hallowed
    · rintro io rfl
      cases hallowed
  | added c advertised =>
    obtain ⟨-, rfl⟩ := (Option.ite_none_right_eq_some.mp hstep).imp_right Option.some.inj
    obtain ⟨hhandled, htables⟩ := beginAdd_handled (c := c) h.inv h.allOk advertised
    exact h.follow hhandled.inv htables hhandled.confined.dismissed _
  | listed c ids =>
    obtain ⟨-, rfl⟩ := (Option.ite_none_right_eq_some.mp hstep).imp_right Option.some.inj
    exact ⟨h.inv, h.allOk, h.users, h.spared⟩
  | work c io =>
    dsimp only at hstep
    split at hstep
    · cases hstep
    next task rest hwork =>
      cases hstep
      obtain ⟨hinv, htables, hdismissed⟩ := perform_keeps (c := c) h.inv h.allOk io task
      exact h.follow hinv htables hdismissed _
  | delete id =>
    dsimp only at hstep
    split at hstep
    · cases hstep
    · cases hstep
      refine ⟨⟨h.inv.tidy.remove id, h.inv.conns⟩, h.allOk, fun other hother => ?_,
        fun other hother => ?_⟩
      · exact List.mem_cons_of_mem _ (h.users other hother)
      · rw [List.lookup_cons] at hother
        split at hother
        · cases hother
        · exact h.spared other hother
  | edit id patch now =>
    cases hstep
    exact ⟨⟨h.inv.tidy.patch id patch now, h.inv.conns⟩, h.allOk, h.users, h.spared⟩
  | poll readable =>
    cases hstep
    have hnew (id : String) (hid : (s.ingest.dismissed id || s.prev.contains id &&
        !(scanNamespacedSessionFiles readable s.ingest.dir).contains id) = true) :
        s.ingest.dismissed id = true ∨ s.gone.lookup id = some .user := by
      rcases Bool.or_eq_true_iff.mp hid with hold | hgone
      · exact .inl hold
      · obtain ⟨hseen, hmissed⟩ := Bool.and_eq_true_iff.mp hgone
        exact hmissing id (List.contains_iff_mem.mp hseen) (by simpa using hmissed)
    refine ⟨⟨h.inv.tidy, h.inv.conns⟩, h.allOk, fun id hid => ?_, fun id hid => ?_⟩
    · rcases hnew id hid with hold | huser
      · exact h.users id hold
      · exact mem_of_lookup huser
    · refine Bool.eq_false_iff.mpr fun hdismissed => ?_
      rcases hnew id hdismissed with hold | huser
      · exact absurd (h.spared id hid) (by simp [hold])
      · cases hid.symm.trans huser

/-! ## What is dismissed -/

/-- ingest removed the mirror's file last, because the source did not list the session. -/
def Unlisted (s : WatchState) (label remoteId : String) : Prop :=
  s.gone.lookup (namespacedId label remoteId) = some .source

instance (s : WatchState) (label remoteId : String) : Decidable (Unlisted s label remoteId) :=
  inferInstanceAs (Decidable (_ = _))

/-- The session can be mirrored by the connection: its table has room for it, or has it together
with its file. -/
def Room (config : Config) (s : IngestState) (c : ConnId) (label remoteId : String) : Prop :=
  if remoteId ∈ keys s c then Mirrored s.dir label remoteId
  else (s.conns c).sessions.length < config.maxSessions

/-- Users dismiss. What ingest removed is mirrored when it is advertised again, and stays as long
as it is listed. -/
structure Respected (config : Config) (s : WatchState) : Prop where
  users : ∀ id, s.ingest.dismissed id = true → (id, .user) ∈ s.gone
  again : ∀ c label, (s.ingest.conns c).label = some label → ∀ io, Works io → ∀ advertised,
    isValidRemoteId (advertisedId advertised) = true → Unlisted s label (advertisedId advertised) →
    Room config s.ingest c label (advertisedId advertised) →
      let t := s.ingest.handleControl config io c (sessionAdded advertised)
      advertisedId advertised ∈ keys t c ∧ Mirrored t.dir label (advertisedId advertised)
  stays : ∀ c label, (s.ingest.conns c).label = some label → ∀ io, Works io → ∀ ids value,
    IsSnapshot config ids value io → ∀ remoteId ∈ ids, isValidRemoteId remoteId = true →
    Unlisted s label remoteId → remoteId ∈ keys s.ingest c → Mirrored s.ingest.dir label remoteId →
      let t := s.ingest.handleControl config io c value
      remoteId ∈ keys t c ∧ Mirrored t.dir label remoteId

theorem WatchInv.unrefused (h : WatchInv config s) {label remoteId : String}
    (hunlisted : Unlisted s label remoteId) : ¬ Refused config s.ingest label remoteId := by
  rintro ⟨-, hdismissed⟩
  rw [h.spared _ hunlisted] at hdismissed
  cases hdismissed

theorem WatchInv.respected (h : WatchInv config s) : Respected config s where
  users := h.users
  again c label hlabel io hio advertised hvalid hunlisted hroom := by
    have hkept := h.unrefused hunlisted
    have hadded := addSession_refines h.inv (h.allOk c) hlabel hio advertised
    rw [if_pos hvalid] at hadded
    have hcard : (tables label c s.ingest).registered.card = _ := card_keys (h.allOk c)
    change _ ∈ keys (s.ingest.addSession config io c advertised) c ∧
      Mirrored (s.ingest.addSession config io c advertised).dir _ _
    generalize s.ingest.addSession config io c advertised = t at hadded
    have hboth : advertisedId advertised ∈ (tables label c t).registered ∧
        advertisedId advertised ∈ (tables label c t).stored := by
      rw [hadded]
      unfold Room at hroom
      split at hroom
      next hknown =>
        have hmem : advertisedId advertised ∈ (tables label c s.ingest).registered :=
          List.mem_toFinset.mpr hknown
        rw [offer_known hkept (.inl hmem)]
        exact ⟨hmem, hroom⟩
      next hnew =>
        have hmem : advertisedId advertised ∉ (tables label c s.ingest).registered :=
          fun hmem => hnew (List.mem_toFinset.mp hmem)
        rw [offer_new hkept hmem (by omega)]
        exact ⟨Finset.mem_insert_self _ _, Set.mem_insert _ _⟩
    exact ⟨List.mem_toFinset.mp hboth.1, hboth.2⟩
  stays c label hlabel io hio ids value hsnapshot remoteId hlisted hvalid hunlisted hknown hfile := by
    have hkept := h.unrefused hunlisted
    have hlist := sessionList_refines ⟨h.inv, h.allOk, hlabel⟩ hio ids
    dsimp only
    rw [handle_snapshot hsnapshot]
    have hmem : remoteId ∈ (ids.filter isValidRemoteId).toFinset :=
      List.mem_toFinset.mpr (List.mem_filter.mpr ⟨hlisted, hvalid⟩)
    have hboth : remoteId ∈ (tables label c (s.ingest.sessionList config io c ids)).registered ∧
        remoteId ∈ (tables label c (s.ingest.sessionList config io c ids)).stored := by
      rw [hlist]
      exact ⟨Finset.mem_inter.mpr ⟨List.mem_toFinset.mpr hknown, hmem⟩, hfile, hmem, hkept⟩
    exact ⟨List.mem_toFinset.mp hboth.1, hboth.2⟩

theorem watchInv_initial (config : Config) {dir : Directory} (hdir : Tidy dir) (readable : Bool) :
    WatchInv config (initial dir readable) where
  inv := initial_inv hdir _
  allOk _ := ⟨List.nodup_nil, Nat.zero_le _, fun _ hp => absurd hp List.not_mem_nil⟩
  users _ hid := by cases hid
  spared _ hid := by cases hid

/-- While polls miss only what users deleted, only users dismiss, and a session that was unlisted
for a while comes back. -/
theorem dismissal_respected (config : Config) (dir : Directory) (hdir : Tidy dir)
    (readable : Bool) (es : List Event) (s : WatchState)
    (run : Run (Guarded OnlyDeletedMissing (Step config)) (initial dir readable) es s) :
    Respected config s := by
  have hinv := run.invariant (fun h hstep => watchInv_step h hstep)
    (watchInv_initial config hdir readable)
  exact hinv.respected

end

/-! ## A list that is empty for a moment -/

def wideConfig : Config := ⟨16, true, none, false⟩

def emptyDirectory : Directory := ⟨[], fun _ => none⟩

theorem emptyDirectory_tidy : Tidy emptyDirectory :=
  ⟨fun _ _ h => absurd h List.not_mem_nil, fun _ _ h => absurd h List.not_mem_nil⟩

def emptyList : Json := .object [("kind", .string "session-list"), ("ids", .array [])]

def mirrored : List Event :=
  helloEvents.map .ingest ++ [.added 0 (advertise "b"), .work 0 sampleIo, .poll true]

def onlyB : Batch wideConfig ["b"] where
  adds := [(advertise "b", sampleIo)]
  value := .object [("kind", .string "session-list"), ("ids", .array [.string "b"])]
  io := sampleIo
  works := by simp [sample_works]
  listWorks := sample_works
  snapshot := rfl
  full _ := Iff.rfl

/-- The session is dismissed though no user deleted anything, and does not come back. -/
theorem unlisted_dismissed : ∃ s,
    Run (Step wideConfig) (initial emptyDirectory true)
      (mirrored ++ [.ingest (.control 0 emptyList sampleIo), .poll true]) s ∧
    s.ingest.dismissed "l~b" = true ∧ s.gone = [("l~b", .source)] ∧
    ¬ Mirrored (handleBatch 0 s.ingest onlyB).dir "l" "b" := by
  refine ⟨_, .cons rfl (.cons rfl (.cons rfl (.cons rfl (.cons rfl (.cons rfl (.cons rfl
    (.nil _))))))), by decide, by decide, ?_⟩
  rintro ⟨sessionMeta, hlookup, -⟩
  cases hlookup

/-- A user's deletion, and a session that ingest removed between two polls. -/
theorem deleted_respected : ∃ s,
    Run (Guarded OnlyDeletedMissing (Step wideConfig)) (initial emptyDirectory true)
      (mirrored ++ [.delete "l~b", .poll true, .added 0 (advertise "c"), .work 0 sampleIo,
        .ingest (.control 0 emptyList sampleIo), .poll true]) s ∧
    s.ingest.dismissed "l~b" = true ∧ Unlisted s "l" "c" ∧ Respected wideConfig s := by
  have run : Run (Guarded OnlyDeletedMissing (Step wideConfig)) (initial emptyDirectory true)
      (mirrored ++ [.delete "l~b", .poll true, .added 0 (advertise "c"), .work 0 sampleIo,
        .ingest (.control 0 emptyList sampleIo), .poll true]) _ :=
    .cons ⟨trivial, rfl⟩ (.cons ⟨trivial, rfl⟩ (.cons ⟨trivial, rfl⟩ (.cons ⟨trivial, rfl⟩
      (.cons ⟨by decide, rfl⟩ (.cons ⟨trivial, rfl⟩ (.cons ⟨by decide, rfl⟩ (.cons ⟨trivial, rfl⟩
        (.cons ⟨trivial, rfl⟩ (.cons ⟨trivial, rfl⟩ (.cons ⟨by decide, rfl⟩ (.nil _)))))))))))
  exact ⟨_, run, by decide, by decide, dismissal_respected wideConfig _ emptyDirectory_tidy true
    _ _ run⟩

end Climon.Remote.Dismissal
