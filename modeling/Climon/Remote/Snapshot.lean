import Climon.Lib.BoundedTable
import Climon.Remote.Namespace

namespace Climon.Remote.Snapshot

open Climon.Lib.AssocList Climon.Lib.BoundedTable Climon.Lib.JsonValue Climon.Lib.Transition
  Climon.Proto.Meta Climon.Remote.Ingest Climon.Remote.Namespace Climon.Remote.Sanitize
  Climon.Store.Meta Climon.Store.SessionFiles Climon.Store.SessionFiles.Directory
open Climon.Store.Patch (overlay_id)

/-!
# Full snapshots

An uplink that reconciles advertises its sessions one by one and then lists them all. The sessions
of the connection and the files of its label follow, within the connection's bound.
-/

/-! ## The table of a connection -/

/-- Keys are distinct and valid, and each names the file of its session. -/
structure TableOk (config : Config) (conn : Conn) : Prop where
  distinct : (conn.sessions.map (·.1)).Nodup
  bound : conn.sessions.length ≤ config.maxSessions
  named : ∀ p ∈ conn.sessions, ∃ l, conn.label = some l ∧ isValidRemoteId p.1 = true ∧
    p.2.localId = namespacedId l p.1

def AllOk (config : Config) (s : IngestState) : Prop := ∀ c, TableOk config (s.conns c)

section

variable {config : Config} {s : IngestState} {c : ConnId} {conn : Conn}

theorem TableOk.touch (h : TableOk config conn) {conn' : Conn}
    (hlabel : conn'.label = conn.label) (hsessions : conn'.sessions = conn.sessions) :
    TableOk config conn' := by
  obtain ⟨hdistinct, hbound, hnamed⟩ := h
  rw [← hlabel] at hnamed
  rw [← hsessions] at hdistinct hbound hnamed
  exact ⟨hdistinct, hbound, hnamed⟩

theorem TableOk.sublist (h : TableOk config conn) {sessions : List (String × RemoteSession)}
    (hsub : sessions.Sublist conn.sessions) : TableOk config { conn with sessions := sessions } where
  distinct := h.distinct.sublist (hsub.map _)
  bound := hsub.length_le.trans h.bound
  named p hp := h.named p (hsub.subset hp)

/-- The viewers' sockets change. -/
theorem TableOk.map (h : TableOk config conn) {f : String × RemoteSession → String × RemoteSession}
    (hkey : ∀ p, (f p).1 = p.1) (hid : ∀ p, (f p).2.localId = p.2.localId) :
    TableOk config { conn with sessions := conn.sessions.map f } where
  distinct := by
    have heq : (conn.sessions.map f).map (·.1) = conn.sessions.map (·.1) := by
      rw [List.map_map]
      exact List.map_congr_left fun p _ => hkey p
    rw [heq]
    exact h.distinct
  bound := by
    rw [List.length_map]
    exact h.bound
  named p hp := by
    obtain ⟨q, hq, rfl⟩ := List.mem_map.mp hp
    rw [hkey, hid]
    exact h.named q hq

theorem AllOk.updateConn (h : AllOk config s) {f : Conn → Conn}
    (hf : TableOk config (f (s.conns c))) : AllOk config (s.updateConn c f) := by
  intro d
  by_cases hd : d = c
  · rw [hd, updateConn_self]
    exact hf
  · rw [updateConn_other hd]
    exact h d

theorem AllOk.touch (h : AllOk config s) (d : ConnId) {f : Conn → Conn}
    (hlabel : ∀ conn, (f conn).label = conn.label)
    (hsessions : ∀ conn, (f conn).sessions = conn.sessions) : AllOk config (s.updateConn d f) :=
  h.updateConn ((h d).touch (hlabel _) (hsessions _))

theorem AllOk.drop (h : AllOk config s) (remoteId : String) :
    AllOk config (s.dropSession c remoteId) :=
  h.updateConn ((h c).sublist List.filter_sublist)

@[simp] theorem patch_conns (io : Io) (id : String) (patch : SessionMetaPatch) :
    (s.patch io id patch).conns = s.conns := by
  unfold IngestState.patch
  split <;> rfl

@[simp] theorem remove_conns (io : Io) (id : String) : (s.remove io id).conns = s.conns := by
  unfold IngestState.remove
  split <;> rfl

theorem AllOk.congr {t : IngestState} (h : AllOk config s) (hconns : t.conns = s.conns) :
    AllOk config t := by
  unfold AllOk
  rw [hconns]
  exact h

theorem AllOk.removeSession (h : AllOk config s) (io : Io) (remoteId : String) :
    AllOk config (s.removeSession io c remoteId) := by
  unfold IngestState.removeSession
  split
  · exact h
  · exact (h.drop remoteId).congr (patch_conns _ _ _)

theorem AllOk.removeSessionDeleting (h : AllOk config s) (io : Io) (remoteId : String) :
    AllOk config (s.removeSessionDeleting io c remoteId) := by
  unfold IngestState.removeSessionDeleting
  split
  · exact h
  · exact (h.drop remoteId).congr (remove_conns _ _)

theorem reconcileFile_conns (io : Io) (label : String) (ids : List String)
    (dismissed : String → Bool) (sessionMeta : SessionMeta) :
    (s.reconcileFile io label ids dismissed sessionMeta).conns = s.conns := by
  unfold IngestState.reconcileFile
  repeat' split
  all_goals first | rfl | exact remove_conns _ _

theorem reconcile_conns (io : Io) (label : String) (ids : List String)
    (dismissed : String → Bool) :
    (s.reconcileAgainstSnapshot io label ids dismissed).conns = s.conns := by
  unfold IngestState.reconcileAgainstSnapshot
  split
  · exact List.foldlRecOn (motive := fun (t : IngestState) => t.conns = s.conns) _ _ rfl
      fun _ ht sessionMeta _ => (reconcileFile_conns io label ids dismissed sessionMeta).trans ht
  · rfl

theorem AllOk.applySessionList (h : AllOk config s) (io : Io) (label : String)
    (ids : List String) : AllOk config (s.applySessionList config io c label ids) := by
  unfold IngestState.applySessionList
  dsimp only
  have hdrops := List.foldlRecOn (motive := AllOk config)
    (((s.conns c).sessions.map (·.1)).filter fun remoteId =>
      !(ids.filter isValidRemoteId).contains remoteId)
    (IngestState.removeSessionDeleting io c) h fun _ ht remoteId _ =>
      AllOk.removeSessionDeleting ht io remoteId
  exact hdrops.congr (reconcile_conns _ _ _ _)

theorem AllOk.sessionList (h : AllOk config s) (io : Io) (ids : List String) :
    AllOk config (s.sessionList config io c ids) := by
  unfold IngestState.sessionList
  split
  · exact h
  · exact h.applySessionList io _ ids

/-- A new session is entered under a free key while there is room. -/
theorem TableOk.cons (h : TableOk config conn) {label remoteId : String} {port : UInt16}
    (hlabel : conn.label = some label) (hvalid : isValidRemoteId remoteId = true)
    (hnew : conn.sessions.lookup remoteId = none)
    (hroom : ¬ config.maxSessions ≤ conn.sessions.length) :
    TableOk config { conn with
      sessions := (remoteId, ⟨namespacedId label remoteId, port, []⟩) :: conn.sessions } where
  distinct := by
    refine List.nodup_cons.mpr ⟨fun hmem => ?_, h.distinct⟩
    obtain ⟨p, hp, heq⟩ := List.mem_map.mp hmem
    exact absurd heq.symm (by simpa using List.lookup_eq_none_iff.mp hnew p hp)
  bound := Nat.not_le.mp hroom
  named p hp := by
    rcases List.mem_cons.mp hp with rfl | hold
    · exact ⟨label, hlabel, hvalid, rfl⟩
    · exact h.named p hold

theorem AllOk.addSession (h : AllOk config s) (io : Io) (advertised : Json) :
    AllOk config (s.addSession config io c advertised) := by
  unfold IngestState.addSession
  split
  · exact h
  next label hlabel =>
    dsimp only
    split
    · exact h
    next hvalid =>
      split
      · exact h.drop _
      · split
        · exact h.congr (patch_conns _ _ _)
        next hnew =>
          split
          · exact h
          next hroom =>
            split
            · exact h
            · split
              · exact AllOk.updateConn (f := fun conn => { conn with
                    sessions := (_, ⟨namespacedId label _, _, []⟩) :: conn.sessions }) h
                  ((h c).cons hlabel (not_not.mp hvalid) hnew hroom)
              · exact h

theorem AllOk.updateSession (h : AllOk config s) (io : Io) (value : Json) :
    AllOk config (s.updateSession io c value) := by
  unfold IngestState.updateSession
  dsimp only
  repeat' split
  all_goals first | exact h | exact h.congr (patch_conns _ _ _)

theorem AllOk.sessionRemoved (h : AllOk config s) (io : Io) (value : Json) :
    AllOk config (s.sessionRemoved io c value) := by
  unfold IngestState.sessionRemoved
  dsimp only
  split
  · exact h.removeSessionDeleting io _
  · exact h

theorem AllOk.evictAndRegister (h : AllOk config s) (clientId : String) :
    AllOk config (s.evictAndRegister c clientId) := by
  unfold IngestState.evictAndRegister
  split
  next old _ =>
    have hevict := h.touch old (f := fun conn => { conn with shutdown := true }) (fun _ => rfl)
      fun _ => rfl
    exact hevict.touch c (fun _ => rfl) fun _ => rfl
  · exact h

theorem AllOk.hello (h : AllOk config s) (value : Json) : AllOk config (s.hello config c value) := by
  unfold IngestState.hello
  split
  · exact h
  next hnone =>
    dsimp only
    split
    · exact h.touch c (fun _ => rfl) fun _ => rfl
    · split
      · exact h
      next clientId _ =>
        split
        · have hset : AllOk config
              (s.updateConn c fun conn => { conn with label := some clientId }) := by
            refine h.updateConn ⟨(h c).distinct, (h c).bound, fun p hp => ?_⟩
            obtain ⟨l, hl, -⟩ := (h c).named p hp
            rw [hnone] at hl
            cases hl
          split
          · exact hset.evictAndRegister clientId
          · exact hset
        · exact h

theorem AllOk.handleControl (h : AllOk config s) (io : Io) (value : Json) :
    AllOk config (s.handleControl config io c value) := by
  unfold IngestState.handleControl
  split
  · exact h.hello value
  · split
    · exact h
    · exact h.addSession io _
  · exact h.updateSession io value
  · exact h.sessionRemoved io value
  · split
    · exact h
    · exact h.sessionList io _
  · split
    · exact h.sessionList io _
    · exact h
  · exact h

theorem AllOk.teardown (h : AllOk config s) (io : Io) : AllOk config (s.teardown config io c) := by
  unfold IngestState.teardown
  dsimp only
  have hremoved := List.foldlRecOn (motive := AllOk config) ((s.conns c).sessions.map (·.1))
    (IngestState.removeSession io c) h fun _ ht remoteId _ => AllOk.removeSession ht io remoteId
  refine AllOk.touch ?_ c (fun _ => rfl) fun _ => rfl
  split
  · split
    · unfold IngestState.markTornDown
      split
      · exact hremoved.touch c (f := fun conn => { conn with teardownDone := true }) (fun _ => rfl)
          fun _ => rfl
      · exact hremoved
    · exact hremoved
  · exact hremoved

theorem reconcileStale_conns (io : Io) : (s.reconcileStaleRemoteSessions io).conns = s.conns := by
  unfold IngestState.reconcileStaleRemoteSessions
  split
  · refine List.foldlRecOn (motive := fun t => t.conns = s.conns) _ _ rfl
      fun (t : IngestState) ht sessionMeta _ => ?_
    unfold IngestState.reconcileStaleFile
    repeat' split
    all_goals simp [ht]
  · rfl

theorem allOk_step {t : IngestState} {e : Event} (h : AllOk config s) (hs : Step config s e t) :
    AllOk config t := by
  simp only [Step, next] at hs
  cases e with
  | start io =>
    cases hs
    exact h.congr (reconcileStale_conns io)
  | connect d =>
    obtain ⟨-, rfl⟩ := (Option.ite_none_right_eq_some.mp hs).imp_right Option.some.inj
    exact h.touch d (fun _ => rfl) fun _ => rfl
  | control d value io =>
    obtain ⟨-, rfl⟩ := (Option.ite_none_right_eq_some.mp hs).imp_right Option.some.inj
    exact h.handleControl io value
  | data d sessionId data =>
    obtain ⟨-, rfl⟩ := (Option.ite_none_right_eq_some.mp hs).imp_right Option.some.inj
    exact h.updateConn ((h d).map (fun _ => by split <;> rfl) fun _ => by split <;> rfl)
  | registered d =>
    dsimp only at hs
    split at hs
    next old label _ _ =>
      split at hs
      · cases hs
        have hdone := h.touch old (f := fun conn => { conn with teardownDone := false })
          (fun _ => rfl) fun _ => rfl
        exact hdone.touch d (f := fun conn => { conn with phase := .reading }) (fun _ => rfl)
          fun _ => rfl
      · cases hs
    · cases hs
  | viewer d remoteId =>
    cases hs
    exact h.updateConn ((h d).map (fun _ => by split <;> rfl) fun _ => by split <;> rfl)
  | close d io =>
    obtain ⟨-, rfl⟩ := (Option.ite_none_right_eq_some.mp hs).imp_right Option.some.inj
    exact h.teardown io
  | others dir dismissed =>
    cases hs
    exact h

end

/-! ## Mirrored files -/

/-- The label's file of a remote session, as far as it parses. -/
def Mirrored (d : Directory) (label remoteId : String) : Prop :=
  ∃ sessionMeta, d.lookup (namespacedId label remoteId) = some (some sessionMeta) ∧
    sessionMeta.origin = some .remote

section

variable {d e : Directory} {label remoteId : String}

theorem mirrored_congr (h : SameAt d e (namespacedId label remoteId)) :
    Mirrored e label remoteId ↔ Mirrored d label remoteId := by
  unfold Mirrored
  rw [h.1]

theorem lookup_write (d : Directory) (sessionMeta : SessionMeta) :
    (d.writeSessionMeta sessionMeta).lookup sessionMeta.id = some (some sessionMeta) :=
  List.lookup_cons_self

theorem lookup_remove (d : Directory) (id : String) : (d.removeSessionMeta id).lookup id = none := by
  unfold Directory.removeSessionMeta
  split
  next h => exact h
  next => exact lookup_filter_self d.metas id

/-- A patch leaves a mirrored file where it is, and makes none. -/
theorem mirrored_patch (hnamed : d.Named) (id : String) (patch : SessionMetaPatch) (now : String) :
    Mirrored (d.patchSessionMeta id patch now) label remoteId ↔ Mirrored d label remoteId := by
  by_cases hid : namespacedId label remoteId = id
  · subst hid
    cases hlookup : d.lookup (namespacedId label remoteId) with
    | none => simp [Directory.patchSessionMeta, Directory.readSessionMeta, hlookup]
    | some content =>
      cases content with
      | none => simp [Directory.patchSessionMeta, Directory.readSessionMeta, hlookup]
      | some sessionMeta =>
        obtain ⟨hsame, horigin⟩ := patched_identity sessionMeta patch now
        rw [hnamed _ _ (mem_of_lookup hlookup)] at hsame
        have hwritten := lookup_write d
          { mergePatch (applyUserPausedOverlay sessionMeta) patch with updatedAt := now }
        rw [hsame] at hwritten
        simp only [Mirrored, Directory.patchSessionMeta, Directory.readSessionMeta, hlookup,
          hwritten, Option.some.injEq, exists_eq_left']
        exact (Eq.congr_left horigin :)
  · exact mirrored_congr (patchSessionMeta_sameAt hnamed hid patch now)

theorem stripPrefix_namespacedId (label remoteId : String) :
    stripPrefix (namespacedId label remoteId) (label ++ "~") = some remoteId := by
  have hlist : (namespacedId label remoteId).toList = (label ++ "~").toList ++ remoteId.toList := by
    rw [namespacedId, String.toList_append]
  unfold stripPrefix
  rw [hlist, if_pos (List.isPrefixOf_iff_prefix.mpr (List.prefix_append _ _)),
    ← String.length_toList, List.drop_left, String.ofList_toList]

theorem stripPrefix_eq_some {id : String} :
    stripPrefix id (label ++ "~") = some remoteId ↔ id = namespacedId label remoteId := by
  constructor
  · intro h
    apply String.toList_inj.mp
    rw [toList_of_stripPrefix h, namespacedId, String.toList_append]
    simp only [String.toList_append]
  · rintro rfl
    exact stripPrefix_namespacedId label remoteId

/-- A mirrored file is listed under its id. -/
theorem Mirrored.listed (h : Mirrored d label remoteId) (hnamed : d.Named) :
    ∃ sessionMeta ∈ d.listSessions, sessionMeta.id = namespacedId label remoteId ∧
      sessionMeta.origin = some .remote := by
  obtain ⟨sessionMeta, hlookup, horigin⟩ := h
  have hmem := mem_of_lookup hlookup
  refine ⟨applyUserPausedOverlay sessionMeta, ?_, ?_, ?_⟩
  · exact List.mem_map_of_mem (List.mem_filterMap.mpr ⟨_, hmem, rfl⟩)
  · exact (overlay_id sessionMeta).trans (hnamed _ _ hmem)
  · rw [← horigin]
    unfold applyUserPausedOverlay
    split <;> rfl

end

/-! ## The tables of a label -/

def keys (s : IngestState) (c : ConnId) : List String := (s.conns c).sessions.map (·.1)

/-- What the connection has registered, and what of its label is on disk. -/
def tables (label : String) (c : ConnId) (s : IngestState) : Tables String :=
  ⟨(keys s c).toFinset, {remoteId | Mirrored s.dir label remoteId}⟩

/-- The user deleted the session. -/
def Refused (config : Config) (s : IngestState) (label remoteId : String) : Prop :=
  config.registry = true ∧ s.dismissed (namespacedId label remoteId) = true

instance (config : Config) (s : IngestState) (label : String) :
    DecidablePred (Refused config s label) :=
  fun _ => inferInstanceAs (Decidable (_ ∧ _))

def advertisedId (advertised : Json) : String := ((advertised.get? "id").bind Json.asStr).getD ""

/-- Files are written and removed and a port is found. -/
structure Works (io : Io) : Prop where
  port : ∃ port, io.port = some port
  write : io.writeOk = true
  remove : ∀ id, io.removeOk id = true
  list : io.listOk = true

section

variable {config : Config} {s t : IngestState} {c : ConnId} {label : String} {io : Io}

theorem tables_ext {x y : Tables String} (hregistered : x.registered = y.registered)
    (hstored : ∀ a, a ∈ x.stored ↔ a ∈ y.stored) : x = y := by
  obtain ⟨registered, stored⟩ := x
  obtain ⟨registered', stored'⟩ := y
  cases hregistered
  cases Set.ext hstored
  rfl

theorem keys_of_conns (h : t.conns = s.conns) : keys t c = keys s c := by
  rw [keys, keys, h]

@[simp] theorem keys_drop (remoteId : String) :
    keys (s.dropSession c remoteId) c = (keys s c).filter (· != remoteId) := by
  unfold keys IngestState.dropSession
  rw [updateConn_self, List.filter_map]
  rfl

theorem toFinset_filter_ne (ids : List String) (id : String) :
    (ids.filter (· != id)).toFinset = ids.toFinset.erase id := by
  ext other
  simp [and_comm]

theorem mem_keys {remoteId : String} :
    remoteId ∈ keys s c ↔ ((s.conns c).sessions.lookup remoteId).isSome := by
  rw [List.lookup_isSome_iff]
  constructor
  · intro h
    obtain ⟨p, hp, rfl⟩ := List.mem_map.mp h
    exact ⟨p, hp, beq_self_eq_true _⟩
  · rintro ⟨p, hp, heq⟩
    exact List.mem_map.mpr ⟨p, hp, (beq_iff_eq.mp heq).symm⟩

theorem tables_drop (remoteId : String) :
    tables label c (s.dropSession c remoteId) =
      { tables label c s with registered := (tables label c s).registered.erase remoteId } := by
  refine tables_ext ?_ fun _ => Iff.rfl
  change (keys (s.dropSession c remoteId) c).toFinset = _
  rw [keys_drop, toFinset_filter_ne]
  rfl

theorem tables_patch (h : Inv s) (id : String) (patch : SessionMetaPatch) :
    tables label c (s.patch io id patch) = tables label c s := by
  refine tables_ext ?_ fun remoteId => ?_
  · exact congrArg List.toFinset (keys_of_conns (patch_conns io id patch))
  · unfold IngestState.patch
    split
    · exact mirrored_patch h.tidy.named id patch _
    · exact Iff.rfl

/-- The two sides are the same table with the same bound. -/
theorem card_keys (h : TableOk config (s.conns c)) :
    (tables label c s).registered.card = (s.conns c).sessions.length := by
  have hcard := List.toFinset_card_of_nodup h.distinct
  rw [List.length_map] at hcard
  exact hcard

theorem tables_write (hlabel : isValidRemoteId label = true) (remoteId : String)
    {sessionMeta : SessionMeta} (hid : sessionMeta.id = namespacedId label remoteId)
    (horigin : sessionMeta.origin = some .remote) (session : RemoteSession)
    (opened : List (UInt16 × String)) :
    tables label c (IngestState.updateConn
        { s with opened := opened, dir := s.dir.writeSessionMeta sessionMeta } c fun conn =>
          { conn with sessions := (remoteId, session) :: conn.sessions }) =
      ⟨insert remoteId (tables label c s).registered,
        insert remoteId (tables label c s).stored⟩ := by
  refine tables_ext ?_ fun other => ?_
  · unfold tables keys
    rw [updateConn_self]
    simp
  · by_cases heq : other = remoteId
    · subst heq
      have hwritten := lookup_write s.dir sessionMeta
      rw [hid] at hwritten
      exact iff_of_true ⟨sessionMeta, hwritten, horigin⟩ (Set.mem_insert _ _)
    · have hne : namespacedId label other ≠ sessionMeta.id := fun hsame =>
        heq (namespacedId_inj hlabel hlabel (hsame.trans hid)).2
      refine (mirrored_congr (writeSessionMeta_sameAt s.dir hne)).trans ?_
      simp [tables, heq]

/-- An advertised session is offered to the tables, if its id is valid. -/
theorem addSession_refines (h : Inv s) (hok : TableOk config (s.conns c))
    (hlabel : (s.conns c).label = some label) (hio : Works io) (advertised : Json) :
    tables label c (s.addSession config io c advertised) =
      if isValidRemoteId (advertisedId advertised) then
        offer config.maxSessions (Refused config s label) (tables label c s)
          (advertisedId advertised)
      else tables label c s := by
  have hvalid := (h.conns c).label label hlabel
  have hregistered : advertisedId advertised ∈ (tables label c s).registered ↔
      ((s.conns c).sessions.lookup (advertisedId advertised)).isSome :=
    List.mem_toFinset.trans mem_keys
  have hcard : (tables label c s).registered.card = _ := card_keys hok
  obtain ⟨port, hport⟩ := hio.port
  by_cases hid : isValidRemoteId (advertisedId advertised) = true
  · rw [if_pos hid]
    unfold IngestState.addSession
    split
    next hnone => exact absurd (hnone.symm.trans hlabel) (by simp)
    next other hother =>
      obtain rfl := Option.some.inj (hother.symm.trans hlabel)
      dsimp only
      split
      next hbad => exact absurd hid hbad
      split
      next hdismissed =>
        have hrefused : Refused config s other (advertisedId advertised) := hdismissed
        exact (tables_drop _).trans (offer_refused hrefused).symm
      next hdismissed =>
        have hrefused : ¬ Refused config s other (advertisedId advertised) := hdismissed
        split
        next existing hexisting =>
          have hmem := hregistered.mpr (Option.isSome_iff_exists.mpr ⟨existing, hexisting⟩)
          exact (tables_patch h _ _).trans (offer_known hrefused (.inl hmem)).symm
        next hnew =>
          have hmem := mt hregistered.mp (Option.not_isSome_iff_eq_none.mpr hnew)
          split
          next hfull => exact (offer_known hrefused (.inr (hcard ▸ hfull))).symm
          next hroom =>
            rw [hport]
            dsimp only
            rw [if_pos hio.write]
            exact (tables_write hvalid _ rfl rfl _ _).trans
              (offer_new hrefused hmem (hcard ▸ hroom)).symm
  · rw [if_neg hid]
    unfold IngestState.addSession
    split
    · rfl
    · exact congrArg (tables label c) (if_pos hid)

/-! ## The list -/

theorem mirrored_remove (hlabel : isValidRemoteId label = true) (hio : Works io)
    (remoteId other : String) :
    Mirrored (s.remove io (namespacedId label remoteId)).dir label other ↔
      Mirrored s.dir label other ∧ other ≠ remoteId := by
  rw [IngestState.remove, if_pos (hio.remove _)]
  by_cases heq : other = remoteId
  · subst heq
    refine iff_of_false (fun ⟨sessionMeta, hlookup, _⟩ => ?_) fun h => h.2 rfl
    rw [lookup_remove] at hlookup
    cases hlookup
  · have hne : namespacedId label other ≠ namespacedId label remoteId := fun hsame =>
      heq (namespacedId_inj hlabel hlabel hsame).2
    rw [and_iff_left heq]
    exact mirrored_congr (removeSessionMeta_sameAt s.dir hne)

/-- The state of a connection that has said hello. -/
structure Ready (config : Config) (label : String) (c : ConnId) (s : IngestState) : Prop where
  inv : Inv s
  tables : AllOk config s
  label : (s.conns c).label = some label

theorem Ready.handled (h : Ready config label c s) (hhandled : Handled (s.conns c).label c s t)
    (htables : AllOk config t) : Ready config label c t :=
  ⟨hhandled.inv, htables, hhandled.label.trans h.label⟩

theorem Ready.valid (h : Ready config label c s) : isValidRemoteId label = true :=
  (h.inv.conns c).label label h.label

theorem removeSessionDeleting_refines (h : Ready config label c s) (hio : Works io)
    {remoteId : String} (hmem : remoteId ∈ keys s c) :
    tables label c (s.removeSessionDeleting io c remoteId) =
      ⟨(tables label c s).registered.erase remoteId,
        {other | other ∈ (tables label c s).stored ∧ other ≠ remoteId}⟩ := by
  obtain ⟨session, hsession⟩ := Option.isSome_iff_exists.mp (mem_keys.mp hmem)
  obtain ⟨l, hl, -, hid⟩ := (h.tables c).named _ (mem_of_lookup hsession)
  obtain rfl := Option.some.inj (hl.symm.trans h.label)
  simp only [IngestState.removeSessionDeleting, hsession]
  dsimp only at hid
  rw [hid]
  refine tables_ext ?_ fun other => mirrored_remove h.valid hio remoteId other
  change (keys _ c).toFinset = _
  rw [keys_of_conns (remove_conns io _), keys_drop, toFinset_filter_ne]
  rfl

/-- Every session that is not listed goes, and so does its file. -/
theorem removeAll_refines (hio : Works io) (gone : List String) (hgone : gone.Nodup)
    (h : Ready config label c s) (hsub : ∀ remoteId ∈ gone, remoteId ∈ keys s c) :
    let t := gone.foldl (IngestState.removeSessionDeleting io c) s
    Ready config label c t ∧ tables label c t =
      ⟨(tables label c s).registered \ gone.toFinset,
        {other | other ∈ (tables label c s).stored ∧ other ∉ gone}⟩ := by
  induction gone generalizing s with
  | nil => exact ⟨h, tables_ext (by simp) (by simp)⟩
  | cons remoteId gone ih =>
    rw [List.nodup_cons] at hgone
    rw [List.forall_mem_cons] at hsub
    have hremoved := removeSessionDeleting_refines h hio hsub.1
    have hready := h.handled (removeSessionDeleting_handled (c := c) h.inv io remoteId)
      (h.tables.removeSessionDeleting io remoteId)
    have hkeys := congrArg Tables.registered hremoved
    obtain ⟨hdone, htables⟩ := ih hgone.2 hready fun other hother => by
      have hmem : other ∈ (keys (s.removeSessionDeleting io c remoteId) c).toFinset := by
        change other ∈ (tables label c _).registered
        rw [hkeys]
        refine Finset.mem_erase.mpr ⟨?_, List.mem_toFinset.mpr (hsub.2 other hother)⟩
        rintro rfl
        exact hgone.1 hother
      exact List.mem_toFinset.mp hmem
    refine ⟨hdone, htables.trans (tables_ext ?_ fun other => ?_)⟩
    · rw [hremoved, List.toFinset_cons, Finset.sdiff_insert, Finset.erase_sdiff_comm]
    · rw [hremoved]
      simp [and_assoc]

/-- What the snapshot says about a file that is listed with this metadata. -/
def Spared (valid : List String) (dismissed : String → Bool) (remoteId id : String) : Prop :=
  remoteId ∈ valid ∧ dismissed id = false

theorem reconcileFile_refines (hlabel : isValidRemoteId label = true) (hio : Works io)
    (valid : List String) (dismissed : String → Bool) (sessionMeta : SessionMeta)
    (remoteId : String) :
    Mirrored (s.reconcileFile io label valid dismissed sessionMeta).dir label remoteId ↔
      Mirrored s.dir label remoteId ∧ (sessionMeta.origin = some .remote →
        sessionMeta.id = namespacedId label remoteId →
          Spared valid dismissed remoteId sessionMeta.id) := by
  unfold IngestState.reconcileFile
  split
  next horigin => exact ⟨fun h => ⟨h, fun h' => absurd h' horigin⟩, fun h => h.1⟩
  next horigin =>
    split
    next hnone =>
      refine ⟨fun h => ⟨h, fun _ hid => ?_⟩, fun h => h.1⟩
      rw [stripPrefix_eq_some.mpr hid] at hnone
      cases hnone
    next found hfound =>
      have hid := stripPrefix_eq_some.mp hfound
      have hself : sessionMeta.id = namespacedId label remoteId ↔ remoteId = found := by
        rw [hid]
        exact ⟨fun h => (namespacedId_inj hlabel hlabel h).2.symm, fun h => h ▸ rfl⟩
      rw [hself, imp_iff_right (not_not.mp horigin)]
      split
      next hbad =>
        rw [hid, mirrored_remove hlabel hio]
        refine and_congr_right fun _ => ⟨fun hne heq => absurd heq hne, ?_⟩
        rintro hspared rfl
        obtain ⟨hmem, hkept⟩ := hspared rfl
        rw [hid, hkept] at hbad
        simp [hmem] at hbad
      next hgood =>
        rw [not_or, not_not] at hgood
        refine ⟨fun h => ⟨h, ?_⟩, fun h => h.1⟩
        rintro rfl
        exact ⟨by simpa using hgood.2, by simpa using hgood.1⟩

theorem reconcileFiles_refines (hlabel : isValidRemoteId label = true) (hio : Works io)
    (valid : List String) (dismissed : String → Bool) (files : List SessionMeta)
    (remoteId : String) :
    Mirrored (files.foldl (IngestState.reconcileFile io label valid dismissed) s).dir label
        remoteId ↔
      Mirrored s.dir label remoteId ∧ ∀ sessionMeta ∈ files, sessionMeta.origin = some .remote →
        sessionMeta.id = namespacedId label remoteId →
          Spared valid dismissed remoteId sessionMeta.id := by
  induction files generalizing s with
  | nil => simp
  | cons sessionMeta files ih =>
    rw [List.foldl_cons, ih, reconcileFile_refines hlabel hio, List.forall_mem_cons, and_assoc]

theorem reconcile_refines (h : Ready config label c s) (hio : Works io) (valid : List String)
    (dismissed : String → Bool) :
    tables label c (s.reconcileAgainstSnapshot io label valid dismissed) =
      ⟨(tables label c s).registered, {remoteId | remoteId ∈ (tables label c s).stored ∧
        Spared valid dismissed remoteId (namespacedId label remoteId)}⟩ := by
  refine tables_ext ?_ fun remoteId => ?_
  · exact congrArg List.toFinset (keys_of_conns (reconcile_conns io label valid dismissed))
  · change Mirrored (s.reconcileAgainstSnapshot io label valid dismissed).dir label remoteId ↔
      Mirrored s.dir label remoteId ∧ _
    rw [IngestState.reconcileAgainstSnapshot, if_pos hio.list,
      reconcileFiles_refines h.valid hio]
    refine and_congr_right fun hmirrored => ⟨fun hall => ?_, fun hspared m _ _ hid => hid ▸ hspared⟩
    obtain ⟨sessionMeta, hlisted, hid, horigin⟩ := hmirrored.listed h.inv.tidy.named
    exact hid ▸ hall sessionMeta hlisted horigin hid

/-- A list keeps what it lists and the user did not delete. -/
theorem sessionList_refines (h : Ready config label c s) (hio : Works io) (ids : List String) :
    tables label c (s.sessionList config io c ids) =
      keepListed (Refused config s label) (ids.filter isValidRemoteId).toFinset
        (tables label c s) := by
  rw [IngestState.sessionList, h.label]
  dsimp only
  unfold IngestState.applySessionList
  dsimp only
  have hgone (remoteId : String) : remoteId ∈ (((s.conns c).sessions.map (·.1)).filter fun other =>
      !(ids.filter isValidRemoteId).contains other) ↔
        remoteId ∈ keys s c ∧ remoteId ∉ ids.filter isValidRemoteId := by
    rw [List.mem_filter]
    exact and_congr_right fun _ => by simp [-List.mem_filter]
  have hnodup := (h.tables c).distinct.filter fun other =>
    !(ids.filter isValidRemoteId).contains other
  generalize ((s.conns c).sessions.map (·.1)).filter (fun other =>
    !(ids.filter isValidRemoteId).contains other) = gone at hgone hnodup ⊢
  obtain ⟨hready, hremoved⟩ := removeAll_refines hio gone hnodup h fun remoteId hmem =>
    ((hgone remoteId).mp hmem).1
  have hdismissed (id : String) : (if config.registry then s.dismissed else fun _ => false) id =
      false ↔ ¬ (config.registry = true ∧ s.dismissed id = true) := by
    cases config.registry <;> simp
  rw [reconcile_refines hready hio, hremoved]
  refine tables_ext (Finset.ext fun remoteId => ?_) fun remoteId => ?_
  · have hregistered : remoteId ∈ (tables label c s).registered ↔ remoteId ∈ keys s c :=
      List.mem_toFinset
    simp only [keepListed, Finset.mem_sdiff, Finset.mem_inter, List.mem_toFinset, hgone,
      hregistered]
    tauto
  · change (_ ∧ remoteId ∉ gone) ∧ remoteId ∈ ids.filter isValidRemoteId ∧ _ = false ↔
      _ ∧ remoteId ∈ (ids.filter isValidRemoteId).toFinset ∧ ¬ _
    rw [hgone, List.mem_toFinset, hdismissed, Refused]
    tauto

/-! ## A batch -/

def sessionAdded (advertised : Json) : Json :=
  .object [("kind", .string "session-added"), ("meta", advertised)]

/-- With a spawn secret the list is the payload of an envelope that verified. -/
def IsSnapshot (config : Config) (ids : List String) (value : Json) (io : Io) : Prop :=
  match config.spawnSecret with
  | none => value = .object [("kind", .string "session-list"), ("ids", .array (ids.map .string))]
  | some _ => (value.get? "kind").bind Json.asStr = some "signed" ∧
      io.verified = some (.sessionList ids)

theorem handle_snapshot {ids : List String} {value : Json} (h : IsSnapshot config ids value io) :
    s.handleControl config io c value = s.sessionList config io c ids := by
  unfold IsSnapshot at h
  split at h
  next hsecret =>
    subst h
    have hids : (ids.map Json.string).filterMap Json.asStr = ids := by
      rw [List.filterMap_map]
      exact List.filterMap_some
    change (if config.spawnSecret.isSome then s
      else s.sessionList config io c ((ids.map Json.string).filterMap Json.asStr)) = _
    rw [hids, hsecret]
    rfl
  next secret hsecret =>
    unfold IngestState.handleControl
    rw [h.1]
    simp only [Option.getD_some, hsecret, h.2]

/-- The messages of a batch, each with what the outside answers to it. -/
def handleAdds (config : Config) (c : ConnId) (s : IngestState) (adds : List (Json × Io)) :
    IngestState :=
  adds.foldl (fun s add => s.handleControl config add.2 c (sessionAdded add.1)) s

def offeredIds (adds : List (Json × Io)) : List String :=
  (adds.map fun add => advertisedId add.1).filter isValidRemoteId

theorem offer_congr (h : t.dismissed = s.dismissed) :
    offer config.maxSessions (Refused config t label) =
      offer config.maxSessions (Refused config s label) := by
  funext x remoteId
  have hrefused : Refused config t label remoteId ↔ Refused config s label remoteId := by
    rw [Refused, Refused, h]
  simp only [offer, hrefused]

theorem handleAdds_refines (h : Ready config label c s) (adds : List (Json × Io))
    (hadds : ∀ add ∈ adds, Works add.2) :
    Handled (some label) c s (handleAdds config c s adds) ∧
      AllOk config (handleAdds config c s adds) ∧
      tables label c (handleAdds config c s adds) =
        (offeredIds adds).foldl (offer config.maxSessions (Refused config s label))
          (tables label c s) := by
  induction adds generalizing s with
  | nil => exact ⟨h.label ▸ Handled.refl h.inv, h.tables, rfl⟩
  | cons add adds ih =>
    rw [List.forall_mem_cons] at hadds
    have hadded := addSession_handled (c := c) h.inv config add.2 add.1
    have htables := h.tables.addSession (c := c) add.2 add.1
    have hrefines := addSession_refines h.inv (h.tables c) h.label hadds.1 add.1
    obtain ⟨hhandled, hok, hrest⟩ := ih (h.handled hadded htables) hadds.2
    rw [h.label] at hadded
    refine ⟨hadded.trans hhandled, hok, hrest.trans ?_⟩
    rw [offer_congr hadded.confined.dismissed]
    change _ = (((advertisedId add.1) :: adds.map fun add => advertisedId add.1).filter
      isValidRemoteId).foldl _ _
    by_cases hid : isValidRemoteId (advertisedId add.1) = true
    · rw [if_pos hid] at hrefines
      rw [List.filter_cons_of_pos hid, List.foldl_cons, ← hrefines]
      rfl
    · rw [if_neg hid] at hrefines
      rw [List.filter_cons_of_neg hid, ← hrefines]
      rfl

/-- A batch that advertises exactly the sessions it then lists. -/
structure Batch (config : Config) (ids : List String) where
  adds : List (Json × Io)
  value : Json
  io : Io
  works : ∀ add ∈ adds, Works add.2
  listWorks : Works io
  snapshot : IsSnapshot config ids value io
  full : ∀ id, id ∈ ids ↔ id ∈ adds.map fun add => advertisedId add.1

def handleBatch (c : ConnId) (s : IngestState) {ids : List String} (batch : Batch config ids) :
    IngestState :=
  (handleAdds config c s batch.adds).handleControl config batch.io c batch.value

theorem handleBatch_refines (h : Ready config label c s) {ids : List String}
    (batch : Batch config ids) :
    Handled (some label) c s (handleBatch c s batch) ∧ AllOk config (handleBatch c s batch) ∧
      tables label c (handleBatch c s batch) =
        receive config.maxSessions (Refused config s label) (tables label c s)
          (offeredIds batch.adds) := by
  obtain ⟨hadds, hok, htables⟩ := handleAdds_refines h batch.adds batch.works
  have hready : Ready config label c (handleAdds config c s batch.adds) :=
    ⟨hadds.inv, hok, hadds.label⟩
  have hlist := sessionList_handled (c := c) hready.inv config batch.io ids
  rw [hadds.label] at hlist
  rw [handleBatch, handle_snapshot batch.snapshot]
  refine ⟨hadds.trans hlist, hok.sessionList batch.io ids, ?_⟩
  rw [sessionList_refines hready batch.listWorks, htables, receive]
  have hlisted : (ids.filter isValidRemoteId).toFinset = (offeredIds batch.adds).toFinset := by
    ext id
    simp [offeredIds, batch.full id]
  have hrefused (id : String) : Refused config (handleAdds config c s batch.adds) label id ↔
      Refused config s label id := by
    rw [Refused, Refused, hadds.confined.dismissed]
  simp only [keepListed, hlisted, hrefused]

/-! ## What the batch leaves -/

/-- The listed sessions with a valid id that the user did not delete. -/
def wantedIds (config : Config) (s : IngestState) (label : String) (ids : List String) :
    Finset String :=
  wanted (Refused config s label) (ids.filter isValidRemoteId).toFinset

/-- The files are those of the registered sessions, which are wanted ones, as many as the bound
allows. -/
structure Converged (config : Config) (label : String) (c : ConnId) (ids : List String)
    (s t : IngestState) : Prop where
  files : ∀ id, Mirrored t.dir label id ↔ id ∈ keys t c
  wanted : ∀ id ∈ keys t c, id ∈ wantedIds config s label ids
  count : (keys t c).length = min (wantedIds config s label ids).card config.maxSessions
  table : TableOk config (t.conns c)

/-- Every wanted session that was registered has its file, and either the bound leaves room for
what was registered and what is wanted, or nothing registered has to go and no other wanted session
has a file. -/
def Fits (config : Config) (label : String) (c : ConnId) (ids : List String) (s : IngestState) :
    Prop :=
  (∀ id ∈ keys s c, id ∈ wantedIds config s label ids → Mirrored s.dir label id) ∧
    (((keys s c).toFinset ∪ wantedIds config s label ids).card ≤ config.maxSessions ∨
      (∀ id ∈ keys s c, id ∈ wantedIds config s label ids) ∧
        ∀ id ∈ wantedIds config s label ids, Mirrored s.dir label id → id ∈ keys s c)

structure Reconciled (config : Config) (label : String) (c : ConnId) (ids : List String)
    (s t : IngestState) : Prop where
  table : TableOk config (t.conns c)
  wanted : ∀ id ∈ keys t c, id ∈ wantedIds config s label ids
  kept : ∀ id ∈ keys s c, id ∈ wantedIds config s label ids → id ∈ keys t c
  files : ∀ id, Mirrored t.dir label id ↔ id ∈ wantedIds config s label ids ∧
    (Mirrored s.dir label id ∨ id ∈ keys t c ∧ id ∉ keys s c)
  converged : Fits config label c ids s → Converged config label c ids s t
  otherFiles : ∀ id, ¬ Owned (some label) id → SameAt s.dir t.dir id
  otherSessions : ∀ d ≠ c, (t.conns d).sessions = (s.conns d).sessions

theorem handleBatch_reconciled (h : Ready config label c s) {ids : List String}
    (batch : Batch config ids) :
    Reconciled config label c ids s (handleBatch c s batch) := by
  obtain ⟨hhandled, hok, htables⟩ := handleBatch_refines h batch
  generalize handleBatch c s batch = t at hhandled hok htables
  have hlisted : (offeredIds batch.adds).toFinset = (ids.filter isValidRemoteId).toFinset := by
    ext id
    simp [offeredIds, batch.full id]
  have hwanted : wanted (Refused config s label) (offeredIds batch.adds).toFinset =
      wantedIds config s label ids := congrArg _ hlisted
  have hbefore : (tables label c s).registered.card ≤ config.maxSessions :=
    (card_keys (h.tables c)).trans_le (h.tables c).bound
  have hafter (id : String) : id ∈ keys t c ↔ id ∈ (receive config.maxSessions
      (Refused config s label) (tables label c s) (offeredIds batch.adds)).registered := by
    rw [← htables]
    exact List.mem_toFinset.symm
  have hkeys (id : String) : id ∈ keys s c ↔ id ∈ (tables label c s).registered :=
    List.mem_toFinset.symm
  have hcount : (keys t c).length = (receive config.maxSessions (Refused config s label)
      (tables label c s) (offeredIds batch.adds)).registered.card := by
    rw [← htables, card_keys (hok c), keys, List.length_map]
  have hin : ∀ id ∈ keys t c, id ∈ wantedIds config s label ids := fun id hid =>
    hwanted ▸ receive_subset hbefore ((hafter id).mp hid)
  have hkept : ∀ id ∈ keys s c, id ∈ wantedIds config s label ids → id ∈ keys t c :=
    fun id hid hmem =>
      (hafter id).mpr (receive_keeps hbefore ((hkeys id).mp hid) (hwanted.symm ▸ hmem))
  have hfiles (id : String) : Mirrored t.dir label id ↔ id ∈ wantedIds config s label ids ∧
      (Mirrored s.dir label id ∨ id ∈ keys t c ∧ id ∉ keys s c) := by
    rw [hafter, hkeys, ← hwanted]
    refine Iff.trans ?_ (receive_stored hbefore)
    rw [← htables]
    exact Iff.rfl
  refine ⟨hok c, hin, hkept, hfiles, fun ⟨hfile, hroom⟩ => ⟨fun id => ?_, hin, ?_, hok c⟩,
    hhandled.confined.dir, hhandled.confined.others⟩
  · rw [hfiles]
    constructor
    · rintro ⟨hmem, hold | hnew⟩
      · rcases hroom with hall | ⟨-, hleft⟩
        · rw [hafter, receive_all (hwanted.symm ▸ hall), hwanted]
          exact hmem
        · exact hkept id (hleft id hmem hold) hmem
      · exact hnew.1
    · intro hid
      refine ⟨hin id hid, ?_⟩
      by_cases hold : id ∈ keys s c
      · exact .inl (hfile id hold (hin id hid))
      · exact .inr ⟨hid, hold⟩
  · rw [hcount]
    rcases hroom with hall | ⟨hstay, -⟩
    · rw [receive_all (hwanted.symm ▸ hall), hwanted]
      exact (Nat.min_eq_left ((Finset.card_le_card Finset.subset_union_right).trans hall)).symm
    · rw [receive_card hbefore fun id hid => hwanted.symm ▸ hstay id ((hkeys id).mpr hid), hwanted]

/-- After any run, a batch leaves the connection and the files of its label with wanted sessions
only, keeps what was wanted, and changes nothing of other labels. Within the bound the files are
exactly those of the wanted sessions. -/
theorem snapshot_reconciles (config : Config) (dir : Directory) (hdir : Tidy dir)
    (dismissed : String → Bool) (es : List Event) (s : IngestState)
    (run : Run (Guarded OthersTidy (Step config)) (initialState dir dismissed) es s) (c : ConnId)
    (label : String) (hlabel : (s.conns c).label = some label) (ids : List String)
    (batch : Batch config ids) : Reconciled config label c ids s (handleBatch c s batch) := by
  have hstart : AllOk config (initialState dir dismissed) := fun _ =>
    ⟨List.nodup_nil, Nat.zero_le _, fun _ hp => absurd hp List.not_mem_nil⟩
  have hboth := run.invariant (I := fun s => Inv s ∧ AllOk config s)
    (fun h hs => ⟨step_inv h.1 hs, allOk_step h.2 hs.2⟩) ⟨initial_inv hdir dismissed, hstart⟩
  exact handleBatch_reconciled ⟨hboth.1, hboth.2, hlabel⟩ batch

end

/-! ## A file left over -/

def sampleConfig : Config := ⟨1, true, none, false⟩

def sampleIo : Io := ⟨some 7, true, fun _ => true, fun _ => true, true, fun _ => 0, none⟩

def advertise (id : String) : Json := .object [("id", .string id)]

/-- An earlier connection left the file of one of the two listed sessions. -/
def leftover : Directory :=
  ⟨[("l~b", some (toLocalMeta (advertise "b") "l" "l~b" "tcp://127.0.0.1:6" ""))], fun _ => none⟩

def helloEvents : List Event :=
  [.connect 0,
    .control 0 (.object [("kind", .string "hello"), ("clientId", .string "l")]) sampleIo]

theorem sample_works : Works sampleIo := ⟨⟨7, rfl⟩, rfl, fun _ => rfl, rfl⟩

def twoSessions : Batch sampleConfig ["a", "b"] where
  adds := [(advertise "a", sampleIo), (advertise "b", sampleIo)]
  value := .object [("kind", .string "session-list"), ("ids", .array [.string "a", .string "b"])]
  io := sampleIo
  works := by simp [sample_works]
  listWorks := sample_works
  snapshot := rfl
  full _ := Iff.rfl

theorem leftover_tidy : Tidy leftover where
  named id sessionMeta hmem := by
    cases List.mem_singleton.mp hmem
    rfl
  mirrored id sessionMeta hmem _ := by
    cases List.mem_singleton.mp hmem
    exact ⟨"l", "b", by decide, by decide, rfl⟩

/-- The bound is taken by the other session, and the file stays without an entry. -/
theorem leftover_not_converged : ∃ s,
    Run (Guarded OthersTidy (Step sampleConfig)) (initialState leftover fun _ => false)
      helloEvents s ∧ (s.conns 0).label = some "l" ∧
    ¬ Converged sampleConfig "l" 0 ["a", "b"] s (handleBatch 0 s twoSessions) := by
  have run : Run (Guarded OthersTidy (Step sampleConfig))
      (initialState leftover fun _ => false) helloEvents _ :=
    .cons ⟨trivial, rfl⟩ (.cons ⟨trivial, rfl⟩ (.nil _))
  refine ⟨_, run, rfl, fun h => ?_⟩
  have hfile := (h.files "b").mp ⟨_, rfl, rfl⟩
  exact absurd hfile (by decide)

theorem leftover_reconciled : ∃ s,
    Run (Guarded OthersTidy (Step sampleConfig)) (initialState leftover fun _ => false)
      helloEvents s ∧
    Reconciled sampleConfig "l" 0 ["a", "b"] s (handleBatch 0 s twoSessions) := by
  have run : Run (Guarded OthersTidy (Step sampleConfig))
      (initialState leftover fun _ => false) helloEvents _ :=
    .cons ⟨trivial, rfl⟩ (.cons ⟨trivial, rfl⟩ (.nil _))
  exact ⟨_, run, snapshot_reconciles sampleConfig leftover leftover_tidy _ helloEvents _ run 0 "l"
    rfl ["a", "b"] twoSessions⟩

end Climon.Remote.Snapshot
