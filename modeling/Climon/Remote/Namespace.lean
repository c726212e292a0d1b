import Climon.Lib.Transition
import Climon.Remote.Ingest

namespace Climon.Remote.Namespace

open Climon.Lib.AssocList Climon.Lib.JsonValue Climon.Lib.Transition Climon.Proto.Meta
  Climon.Remote.Ingest
  Climon.Remote.Sanitize Climon.Store.Meta Climon.Store.SessionFiles
  Climon.Store.SessionFiles.Directory
open Climon.Store.Patch (overlay_id)

/-!
# Namespace isolation

Whatever a connection sends, ingest touches only files `label~id` with a valid id. The label is
set once, and every id is checked before it is used or was checked when its session was added.
-/

/-- `id` is what the label makes of some valid remote id. -/
def Owned (label : Option String) (id : String) : Prop :=
  ∃ l r, label = some l ∧ isValidRemoteId r = true ∧ id = namespacedId l r

/-- Files are named by their ids, and mirrored ones by a label and a remote id. -/
structure Tidy (d : Directory) : Prop where
  named : d.Named
  mirrored : ∀ id sessionMeta, (id, some sessionMeta) ∈ d.metas →
    sessionMeta.origin = some .remote →
    ∃ l r, isValidRemoteId l = true ∧ isValidRemoteId r = true ∧ id = namespacedId l r

/-- The label is valid, and every session of the connection is named by it. -/
structure ConnOk (conn : Conn) : Prop where
  label : ∀ l, conn.label = some l → isValidRemoteId l = true
  sessions : ∀ p ∈ conn.sessions, Owned conn.label p.2.localId

structure Inv (s : IngestState) : Prop where
  tidy : Tidy s.dir
  conns : ∀ c, ConnOk (s.conns c)

/-- Handling connection `c`, whose label is `label` in the end, touched nothing outside it. -/
structure Confined (label : Option String) (c : ConnId) (s t : IngestState) : Prop where
  dir : ∀ id, ¬ Owned label id → SameAt s.dir t.dir id
  dismissed : t.dismissed = s.dismissed
  opened : ∀ entry ∈ t.opened, entry ∈ s.opened ∨ Owned label entry.2
  others : ∀ d ≠ c, (t.conns d).sessions = (s.conns d).sessions

theorem Confined.refl (label : Option String) (c : ConnId) (s : IngestState) :
    Confined label c s s :=
  ⟨fun _ _ => ⟨rfl, rfl⟩, rfl, fun _ h => .inl h, fun _ _ => rfl⟩

theorem Confined.trans {label : Option String} {c : ConnId} {s t u : IngestState}
    (h : Confined label c s t) (k : Confined label c t u) : Confined label c s u where
  dir := fun id hid => sameAt_trans (h.dir id hid) (k.dir id hid)
  dismissed := k.dismissed.trans h.dismissed
  opened := fun entry he => (k.opened entry he).elim (h.opened entry) .inr
  others := fun d hd => (k.others d hd).trans (h.others d hd)

/-- The state after a handler that keeps the invariant and the label of `c`. -/
structure Handled (label : Option String) (c : ConnId) (s t : IngestState) : Prop where
  confined : Confined label c s t
  inv : Inv t
  label : (t.conns c).label = label

theorem Handled.trans {label : Option String} {c : ConnId} {s t u : IngestState}
    (h : Handled label c s t) (k : Handled label c t u) : Handled label c s u :=
  ⟨h.confined.trans k.confined, k.inv, k.label⟩

theorem Handled.refl {c : ConnId} {s : IngestState} (h : Inv s) :
    Handled (s.conns c).label c s s :=
  ⟨Confined.refl _ c s, h, rfl⟩

/-! ## The directory -/

theorem Tidy.write {d : Directory} (h : Tidy d) {sessionMeta : SessionMeta}
    (horigin : sessionMeta.origin = some .remote →
      ∃ l r, isValidRemoteId l = true ∧ isValidRemoteId r = true ∧
        sessionMeta.id = namespacedId l r) :
    Tidy (d.writeSessionMeta sessionMeta) where
  named := by
    intro id written hmem
    rcases mem_writeSessionMeta hmem with heq | hold
    · cases heq
      rfl
    · exact h.named id written hold
  mirrored := by
    intro id written hmem horig
    rcases mem_writeSessionMeta hmem with heq | hold
    · cases heq
      exact horigin horig
    · exact h.mirrored id written hold horig

theorem Tidy.remove {d : Directory} (h : Tidy d) (id : String) : Tidy (d.removeSessionMeta id) :=
  ⟨fun i m hmem => h.named i m (mem_removeSessionMeta hmem),
    fun i m hmem => h.mirrored i m (mem_removeSessionMeta hmem)⟩

/-- A patch changes neither the id nor the origin. -/
theorem patched_identity (sessionMeta : SessionMeta) (patch : SessionMetaPatch) (now : String) :
    let patched := { mergePatch (applyUserPausedOverlay sessionMeta) patch with updatedAt := now }
    patched.id = sessionMeta.id ∧ patched.origin = sessionMeta.origin := by
  refine ⟨overlay_id sessionMeta, ?_⟩
  change (applyUserPausedOverlay sessionMeta).origin = sessionMeta.origin
  unfold applyUserPausedOverlay
  split <;> rfl

theorem Tidy.patch {d : Directory} (h : Tidy d) (id : String) (patch : SessionMetaPatch)
    (now : String) : Tidy (d.patchSessionMeta id patch now) := by
  rcases patchSessionMeta_cases d id patch now with heq | ⟨sessionMeta, hmem, heq⟩
  · rw [heq]
    exact h
  · rw [heq]
    obtain ⟨hid, horigin⟩ := patched_identity sessionMeta patch now
    apply h.write
    intro horig
    rw [hid, h.named id sessionMeta hmem]
    exact h.mirrored id sessionMeta hmem (horigin.symm.trans horig)

/-! ## One connection's state -/

section Handlers

variable {label : Option String} {c : ConnId} {s : IngestState}

theorem updateConn_self (f : Conn → Conn) : (s.updateConn c f).conns c = f (s.conns c) :=
  Function.update_self _ _ _

theorem updateConn_other {d : ConnId} (hd : d ≠ c) (f : Conn → Conn) :
    (s.updateConn c f).conns d = s.conns d :=
  Function.update_of_ne hd _ _

theorem Inv.updateConn (h : Inv s) {f : Conn → Conn} (hf : ConnOk (f (s.conns c))) :
    Inv (s.updateConn c f) := by
  refine ⟨h.tidy, fun d => ?_⟩
  by_cases hd : d = c
  · rw [hd, updateConn_self]
    exact hf
  · rw [updateConn_other hd]
    exact h.conns d

theorem confined_updateConn (f : Conn → Conn) : Confined label c s (s.updateConn c f) :=
  ⟨fun _ _ => ⟨rfl, rfl⟩, rfl, fun _ h => .inl h, fun d hd => by rw [updateConn_other hd]⟩

theorem handled_updateConn (h : Inv s) {f : Conn → Conn} (hf : ConnOk (f (s.conns c)))
    (hlabel : (f (s.conns c)).label = label) : Handled label c s (s.updateConn c f) :=
  ⟨confined_updateConn f, h.updateConn hf, by rw [updateConn_self, hlabel]⟩

/-- Entries of the session table may go, and keep their local ids. -/
theorem ConnOk.sessions_subset {conn : Conn} (h : ConnOk conn)
    {sessions : List (String × RemoteSession)}
    (hsub : ∀ p ∈ sessions, ∃ q ∈ conn.sessions, q.2.localId = p.2.localId) :
    ConnOk { conn with sessions := sessions } where
  label := h.label
  sessions := by
    intro p hp
    obtain ⟨q, hq, heq⟩ := hsub p hp
    rw [← heq]
    exact h.sessions q hq

theorem dropSession_handled (h : Inv s) (remoteId : String) :
    Handled (s.conns c).label c s (s.dropSession c remoteId) := by
  refine handled_updateConn h ?_ rfl
  apply (h.conns c).sessions_subset
  intro p hp
  exact ⟨p, List.mem_of_mem_filter hp, rfl⟩

theorem patch_handled (h : Inv s) (hlabel : (s.conns c).label = label) {localId : String}
    (howned : Owned label localId) (io : Io) (patch : SessionMetaPatch) :
    Handled label c s (s.patch io localId patch) := by
  unfold IngestState.patch
  split
  · refine ⟨⟨fun id hid => ?_, rfl, fun _ he => .inl he, fun _ _ => rfl⟩,
      ⟨h.tidy.patch localId patch _, h.conns⟩, hlabel⟩
    apply patchSessionMeta_sameAt h.tidy.named
    rintro rfl
    exact hid howned
  · subst hlabel
    exact Handled.refl h

theorem remove_handled (h : Inv s) (hlabel : (s.conns c).label = label) {localId : String}
    (howned : Owned label localId) (io : Io) : Handled label c s (s.remove io localId) := by
  unfold IngestState.remove
  split
  · refine ⟨⟨fun id hid => ?_, rfl, fun _ he => .inl he, fun _ _ => rfl⟩,
      ⟨h.tidy.remove localId, h.conns⟩, hlabel⟩
    apply removeSessionMeta_sameAt
    rintro rfl
    exact hid howned
  · subst hlabel
    exact Handled.refl h

theorem removeSession_handled (h : Inv s) (io : Io) (remoteId : String) :
    Handled (s.conns c).label c s (s.removeSession io c remoteId) := by
  unfold IngestState.removeSession
  split
  · exact Handled.refl h
  next session hs =>
    have hdrop := dropSession_handled (c := c) h remoteId
    have howned := (h.conns c).sessions _ (mem_of_lookup hs)
    exact hdrop.trans (patch_handled hdrop.inv hdrop.label howned io _)

theorem removeSessionDeleting_handled (h : Inv s) (io : Io) (remoteId : String) :
    Handled (s.conns c).label c s (s.removeSessionDeleting io c remoteId) := by
  unfold IngestState.removeSessionDeleting
  split
  · exact Handled.refl h
  next session hs =>
    have hdrop := dropSession_handled (c := c) h remoteId
    have howned := (h.conns c).sessions _ (mem_of_lookup hs)
    exact hdrop.trans (remove_handled hdrop.inv hdrop.label howned io)

/-- A fold of handled steps is handled. -/
theorem foldl_handled {α : Type} {f : IngestState → α → IngestState} (items : List α)
    (hf : ∀ t a, a ∈ items → Inv t → (t.conns c).label = label → Handled label c t (f t a))
    (h : Inv s) (hlabel : (s.conns c).label = label) : Handled label c s (items.foldl f s) := by
  induction items generalizing s with
  | nil =>
    subst hlabel
    exact Handled.refl h
  | cons a items ih =>
    have hstep := hf s a List.mem_cons_self h hlabel
    have hrest := ih (fun t b hb => hf t b (List.mem_cons_of_mem _ hb)) hstep.inv hstep.label
    exact hstep.trans hrest

/-! ## The session list -/

theorem toList_of_stripPrefix {id front rest : String} (h : stripPrefix id front = some rest) :
    id.toList = front.toList ++ rest.toList := by
  unfold stripPrefix at h
  split at h
  next hprefix =>
    obtain ⟨back, hback⟩ := List.isPrefixOf_iff_prefix.mp hprefix
    cases h
    rw [String.toList_ofList, ← hback, ← String.length_toList, List.drop_left]
  next => cases h

/-- A mirrored file whose id starts with the label is one of the label's. -/
theorem owned_of_stripPrefix {d : Directory} (h : Tidy d) {l : String}
    (hl : isValidRemoteId l = true) {sessionMeta : SessionMeta}
    (hmem : sessionMeta ∈ d.listSessions) (horigin : sessionMeta.origin = some .remote)
    {rest : String} (hrest : stripPrefix sessionMeta.id (l ++ "~") = some rest) :
    Owned (some l) sessionMeta.id := by
  obtain ⟨id, stored, hfile, rfl⟩ := mem_listSessions hmem
  have hid : (applyUserPausedOverlay stored).id = id :=
    (overlay_id stored).trans (h.named id stored hfile)
  have horig : stored.origin = some .remote := by
    rw [← horigin]
    unfold applyUserPausedOverlay
    split <;> rfl
  obtain ⟨l', r', hl', hr', heq⟩ := h.mirrored id stored hfile horig
  have hnamed : namespacedId l' r' = namespacedId l rest := by
    apply String.toList_inj.mp
    rw [← heq, ← hid, toList_of_stripPrefix hrest, namespacedId_toList, String.toList_append,
      List.append_assoc]
    rfl
  obtain ⟨rfl, -⟩ := namespacedId_inj hl' hl hnamed
  exact ⟨l', r', rfl, hr', hid.trans heq⟩

theorem reconcileAgainstSnapshot_handled (h : Inv s) {l : String}
    (hlabel : (s.conns c).label = some l) (io : Io) (snapshotIds : List String)
    (dismissed : String → Bool) :
    Handled (some l) c s (s.reconcileAgainstSnapshot io l snapshotIds dismissed) := by
  have hl := (h.conns c).label l hlabel
  unfold IngestState.reconcileAgainstSnapshot
  split
  · refine foldl_handled _ (fun t sessionMeta hmem ht htl => ?_) h hlabel
    have hkeep : Handled (some l) c t t := htl ▸ Handled.refl ht
    unfold IngestState.reconcileFile
    split
    · exact hkeep
    next horigin =>
      split
      · exact hkeep
      next rest hrest =>
        split
        · exact remove_handled ht htl
            (owned_of_stripPrefix h.tidy hl hmem (not_not.mp horigin) hrest) io
        · exact hkeep
  · rw [← hlabel]
    exact Handled.refl h

theorem applySessionList_handled (h : Inv s) {l : String} (hlabel : (s.conns c).label = some l)
    (config : Config) (io : Io) (ids : List String) :
    Handled (some l) c s (s.applySessionList config io c l ids) := by
  unfold IngestState.applySessionList
  dsimp only
  have hdrops := foldl_handled
    (((s.conns c).sessions.map (·.1)).filter fun remoteId =>
      !(ids.filter isValidRemoteId).contains remoteId)
    (fun t remoteId _ ht htl => htl ▸ removeSessionDeleting_handled (c := c) ht io remoteId)
    h hlabel
  exact hdrops.trans (reconcileAgainstSnapshot_handled hdrops.inv hdrops.label io _ _)

theorem sessionList_handled (h : Inv s) (config : Config) (io : Io) (ids : List String) :
    Handled (s.conns c).label c s (s.sessionList config io c ids) := by
  unfold IngestState.sessionList
  split
  · exact Handled.refl h
  next l hl =>
    rw [hl]
    exact applySessionList_handled h hl config io ids

/-! ## Adding and updating -/

theorem open_handled (h : Inv s) {l : String} (hlabel : (s.conns c).label = some l)
    {localId : String} (howned : Owned (some l) localId) (port : UInt16) :
    Handled (some l) c s { s with opened := (port, localId) :: s.opened } := by
  refine ⟨⟨fun _ _ => ⟨rfl, rfl⟩, rfl, fun entry hentry => ?_, fun _ _ => rfl⟩,
    ⟨h.tidy, h.conns⟩, hlabel⟩
  rcases List.mem_cons.mp hentry with rfl | hold
  · exact .inr howned
  · exact .inl hold

/-- The file of a new session is written, and the session entered into the table. -/
theorem write_handled (h : Inv s) {l remoteId : String} (hlabel : (s.conns c).label = some l)
    (hvalid : isValidRemoteId remoteId = true) {sessionMeta : SessionMeta}
    (hid : sessionMeta.id = namespacedId l remoteId) (port : UInt16) :
    Handled (some l) c s
      (IngestState.updateConn { s with dir := s.dir.writeSessionMeta sessionMeta } c fun conn =>
        { conn with
          sessions := (remoteId, ⟨namespacedId l remoteId, port, []⟩) :: conn.sessions }) := by
  have howned : Owned (some l) (namespacedId l remoteId) := ⟨l, remoteId, rfl, hvalid, rfl⟩
  have hwrite : Handled (some l) c s { s with dir := s.dir.writeSessionMeta sessionMeta } := by
    refine ⟨⟨fun id hne => ?_, rfl, fun _ he => .inl he, fun _ _ => rfl⟩, ⟨?_, h.conns⟩, hlabel⟩
    · apply writeSessionMeta_sameAt
      rintro rfl
      exact hne (hid ▸ howned)
    · exact h.tidy.write fun _ => ⟨l, remoteId, (h.conns c).label l hlabel, hvalid, hid⟩
  refine hwrite.trans (handled_updateConn hwrite.inv ⟨(h.conns c).label, fun p hp => ?_⟩ hlabel)
  rcases List.mem_cons.mp hp with rfl | hold
  · exact hlabel ▸ howned
  · exact (h.conns c).sessions p hold

theorem addSession_handled (h : Inv s) (config : Config) (io : Io) (advertised : Json) :
    Handled (s.conns c).label c s (s.addSession config io c advertised) := by
  unfold IngestState.addSession
  split
  · exact Handled.refl h
  next l hl =>
    dsimp only
    split
    · exact Handled.refl h
    next hvalid =>
      have hr : isValidRemoteId (((advertised.get? "id").bind Json.asStr).getD "") = true :=
        not_not.mp hvalid
      have howned : Owned (some l) (namespacedId l
          (((advertised.get? "id").bind Json.asStr).getD "")) := ⟨l, _, rfl, hr, rfl⟩
      split
      · exact dropSession_handled h _
      · split
        next existing hexisting =>
          exact patch_handled h rfl
            ((h.conns c).sessions _ (mem_of_lookup hexisting)) io _
        next =>
          split
          · exact Handled.refl h
          · split
            · exact Handled.refl h
            next port _ =>
              rw [hl]
              have hopen := open_handled (c := c) h hl howned port
              split
              · exact hopen.trans (write_handled hopen.inv hopen.label hr rfl port)
              · exact hopen

theorem updateSession_handled (h : Inv s) (io : Io) (value : Json) :
    Handled (s.conns c).label c s (s.updateSession io c value) := by
  unfold IngestState.updateSession
  dsimp only
  split
  · exact Handled.refl h
  · split
    · exact Handled.refl h
    next session hs =>
      exact patch_handled h rfl ((h.conns c).sessions _ (mem_of_lookup hs)) io _

theorem sessionRemoved_handled (h : Inv s) (io : Io) (value : Json) :
    Handled (s.conns c).label c s (s.sessionRemoved io c value) := by
  unfold IngestState.sessionRemoved
  dsimp only
  split
  · exact removeSessionDeleting_handled h io _
  · exact Handled.refl h

/-! ## Hello, data and the teardown -/

/-- Bookkeeping of any connection that leaves its label and its sessions alone. -/
theorem touch_handled (h : Inv s) (d : ConnId) {f : Conn → Conn}
    (hsessions : ∀ conn, (f conn).sessions = conn.sessions)
    (hlabel : ∀ conn, (f conn).label = conn.label) :
    Handled (s.conns c).label c s (s.updateConn d f) := by
  refine ⟨⟨fun _ _ => ⟨rfl, rfl⟩, rfl, fun _ he => .inl he, fun e _ => ?_⟩, h.updateConn ?_, ?_⟩
  · by_cases he : e = d
    · rw [he, updateConn_self, hsessions]
    · rw [updateConn_other he]
  · refine ⟨?_, ?_⟩
    · rw [hlabel]
      exact (h.conns d).label
    · rw [hlabel, hsessions]
      exact (h.conns d).sessions
  · by_cases hc : c = d
    · rw [hc, updateConn_self, hlabel]
    · rw [updateConn_other hc]

theorem withActive_handled (h : Inv s) (active : List (String × ConnId)) :
    Handled (s.conns c).label c s { s with active := active } :=
  ⟨⟨fun _ _ => ⟨rfl, rfl⟩, rfl, fun _ he => .inl he, fun _ _ => rfl⟩, ⟨h.tidy, h.conns⟩, rfl⟩

theorem evictAndRegister_handled (h : Inv s) (clientId : String) :
    Handled (s.conns c).label c s (s.evictAndRegister c clientId) := by
  unfold IngestState.evictAndRegister
  split
  next old _ =>
    have hevict := touch_handled (c := c) h old (f := fun conn => { conn with shutdown := true })
      (fun _ => rfl) fun _ => rfl
    have hwait := touch_handled (c := c) hevict.inv c
      (f := fun conn => { conn with phase := .awaiting old }) (fun _ => rfl) fun _ => rfl
    rw [hevict.label] at hwait
    exact hevict.trans hwait
  next => exact withActive_handled h _

/-- A hello sets a label that was not set, to a valid one. -/
theorem hello_handled (h : Inv s) (config : Config) (value : Json) :
    ∃ label, Handled label c s (s.hello config c value) ∧
      ∀ l, (s.conns c).label = some l → label = some l := by
  have hkeep {t : IngestState} (ht : Handled (s.conns c).label c s t) :
      ∃ label, Handled label c s t ∧ ∀ l, (s.conns c).label = some l → label = some l :=
    ⟨_, ht, fun _ hl => hl⟩
  unfold IngestState.hello
  split
  · exact hkeep (Handled.refl h)
  next hnone =>
    dsimp only
    split
    · exact hkeep (touch_handled h c (fun _ => rfl) fun _ => rfl)
    · split
      · exact hkeep (Handled.refl h)
      next clientId _ =>
        split
        next hvalid =>
          have hset : Handled (some clientId) c s
              (s.updateConn c fun conn => { conn with label := some clientId }) := by
            refine handled_updateConn h ⟨?_, fun p hp => ?_⟩ rfl
            · rintro l ⟨⟩
              exact hvalid
            · obtain ⟨l, r, hl, -⟩ := (h.conns c).sessions p hp
              rw [hnone] at hl
              cases hl
          refine ⟨some clientId, ?_, fun l hl => by rw [hnone] at hl; cases hl⟩
          split
          · have hreg := evictAndRegister_handled (c := c) hset.inv clientId
            rw [hset.label] at hreg
            exact hset.trans hreg
          · exact hset
        next => exact hkeep (Handled.refl h)

theorem handleControl_handled (h : Inv s) (config : Config) (io : Io) (value : Json) :
    ∃ label, Handled label c s (s.handleControl config io c value) ∧
      ∀ l, (s.conns c).label = some l → label = some l := by
  have hkeep {t : IngestState} (ht : Handled (s.conns c).label c s t) :
      ∃ label, Handled label c s t ∧ ∀ l, (s.conns c).label = some l → label = some l :=
    ⟨_, ht, fun _ hl => hl⟩
  unfold IngestState.handleControl
  split
  · exact hello_handled h config value
  · split
    · exact hkeep (Handled.refl h)
    · exact hkeep (addSession_handled h config io _)
  · exact hkeep (updateSession_handled h io value)
  · exact hkeep (sessionRemoved_handled h io value)
  · split
    · exact hkeep (Handled.refl h)
    · exact hkeep (sessionList_handled h config io _)
  · split
    · exact hkeep (sessionList_handled h config io _)
    · exact hkeep (Handled.refl h)
  · exact hkeep (Handled.refl h)

/-- The viewers' sockets change; the local ids stay. -/
theorem mapSessions_handled (h : Inv s) (f : String × RemoteSession → String × RemoteSession)
    (hf : ∀ p, (f p).2.localId = p.2.localId) :
    Handled (s.conns c).label c s
      (s.updateConn c fun conn => { conn with sessions := conn.sessions.map f }) := by
  refine handled_updateConn h ((h.conns c).sessions_subset fun p hp => ?_) rfl
  obtain ⟨q, hq, rfl⟩ := List.mem_map.mp hp
  exact ⟨q, hq, (hf q).symm⟩

theorem handleData_handled (h : Inv s) (sessionId : String) (data : List UInt8) :
    Handled (s.conns c).label c s (s.handleData c sessionId data) := by
  apply mapSessions_handled h
  intro p
  split <;> rfl

theorem acceptViewer_handled (h : Inv s) (remoteId : String) :
    Handled (s.conns c).label c s (s.acceptViewer c remoteId) := by
  apply mapSessions_handled h
  intro p
  split <;> rfl

theorem register_handled (h : Inv s) (old : ConnId) (l : String) :
    Handled (s.conns c).label c s (s.register c old l) := by
  have hdone := touch_handled (c := c) h old (f := fun conn => { conn with teardownDone := false })
    (fun _ => rfl) fun _ => rfl
  have hread := touch_handled (c := c) hdone.inv c (f := fun conn => { conn with phase := .reading })
    (fun _ => rfl) fun _ => rfl
  rw [hdone.label] at hread
  have hactive := withActive_handled (c := c) hread.inv ((l, c) ::
    s.active.filter fun p => p.1 != l)
  rw [hread.label] at hactive
  exact (hdone.trans hread).trans hactive

theorem teardown_handled (h : Inv s) (config : Config) (io : Io) :
    Handled (s.conns c).label c s (s.teardown config io c) := by
  unfold IngestState.teardown
  dsimp only
  have hremoved := foldl_handled ((s.conns c).sessions.map (·.1))
    (fun t remoteId _ ht htl => htl ▸ removeSession_handled (c := c) ht io remoteId) h rfl
  generalize ((s.conns c).sessions.map (·.1)).foldl (IngestState.removeSession io c) s = t
    at hremoved ⊢
  have hclose {u : IngestState} (hu : Handled (s.conns c).label c s u) :
      Handled (s.conns c).label c s
        (u.updateConn c fun conn => { conn with phase := .closed }) := by
    have hphase := touch_handled (c := c) hu.inv c (f := fun conn => { conn with phase := .closed })
      (fun _ => rfl) fun _ => rfl
    rw [hu.label] at hphase
    exact hu.trans hphase
  apply hclose
  split
  next l _ =>
    split
    · unfold IngestState.markTornDown
      split
      · have hdone := touch_handled (c := c) hremoved.inv c
          (f := fun conn => { conn with teardownDone := true }) (fun _ => rfl) fun _ => rfl
        have hactive := withActive_handled (c := c) hdone.inv (t.active.filter fun p => p.1 != l)
        rw [hdone.label] at hactive
        rw [hremoved.label] at hdone hactive
        exact (hremoved.trans hdone).trans hactive
      · exact hremoved
    · exact hremoved
  next => exact hremoved

end Handlers

/-! ## Runs -/

/-- The connection an event is handled for. -/
def connOf : Event → Option ConnId
  | .control c _ _ | .data c _ _ | .registered c | .viewer c _ | .close c _ => some c
  | _ => none

/-- What other processes leave behind is tidy. -/
def OthersTidy (_ : IngestState) : Event → Prop
  | .others dir _ => Tidy dir
  | _ => True

theorem step_handled {config : Config} {s t : IngestState} {e : Event} {c : ConnId} (h : Inv s)
    (hc : connOf e = some c) (hstep : Step config s e t) :
    ∃ label, Handled label c s t ∧ ∀ l, (s.conns c).label = some l → label = some l := by
  have hkeep {u : IngestState} (hu : Handled (s.conns c).label c s u) :
      ∃ label, Handled label c s u ∧ ∀ l, (s.conns c).label = some l → label = some l :=
    ⟨_, hu, fun _ hl => hl⟩
  simp only [Step, next] at hstep
  cases e with
  | control d value io =>
    cases hc
    dsimp only at hstep
    split at hstep
    · cases hstep
      exact handleControl_handled h config io value
    · cases hstep
  | data d sessionId data =>
    cases hc
    dsimp only at hstep
    split at hstep
    · cases hstep
      exact hkeep (handleData_handled h sessionId data)
    · cases hstep
  | registered d =>
    cases hc
    dsimp only at hstep
    split at hstep
    · split at hstep
      · cases hstep
        exact hkeep (register_handled h _ _)
      · cases hstep
    · cases hstep
  | viewer d remoteId =>
    cases hc
    cases hstep
    exact hkeep (acceptViewer_handled h remoteId)
  | close d io =>
    cases hc
    dsimp only at hstep
    split at hstep
    · cases hstep
      exact hkeep (teardown_handled h config io)
    · cases hstep
  | start => cases hc
  | connect => cases hc
  | others => cases hc

theorem reconcileStale_inv {s : IngestState} (h : Inv s) (io : Io) :
    Inv (s.reconcileStaleRemoteSessions io) := by
  unfold IngestState.reconcileStaleRemoteSessions
  split
  · generalize s.dir.listSessions = files
    induction files generalizing s with
    | nil => exact h
    | cons sessionMeta files ih =>
      apply ih
      unfold IngestState.reconcileStaleFile IngestState.patch IngestState.remove
      repeat' split
      all_goals first
        | exact h
        | exact ⟨h.tidy.patch _ _ _, h.conns⟩
        | exact ⟨h.tidy.remove _, h.conns⟩
  · exact h

theorem step_inv {config : Config} {s t : IngestState} {e : Event} (h : Inv s)
    (hstep : Guarded OthersTidy (Step config) s e t) : Inv t := by
  obtain ⟨hok, hstep⟩ := hstep
  cases hc : connOf e with
  | some c =>
    obtain ⟨label, hhandled, -⟩ := step_handled h hc hstep
    exact hhandled.inv
  | none =>
    simp only [Step, next] at hstep
    cases e with
    | start io =>
      cases hstep
      exact reconcileStale_inv h io
    | connect c =>
      dsimp only at hstep
      split at hstep
      · cases hstep
        exact h.updateConn ⟨(h.conns c).label, (h.conns c).sessions⟩
      · cases hstep
    | others dir dismissed =>
      cases hstep
      exact ⟨hok, h.conns⟩
    | _ => cases hc

theorem initial_inv {dir : Directory} (hdir : Tidy dir) (dismissed : String → Bool) :
    Inv (initialState dir dismissed) :=
  ⟨hdir, fun _ => ⟨nofun, nofun⟩⟩

/-- Any run of any number of connections and other processes, and one more step for connection
`c`: only files, listeners and sessions named by its label and a valid id change, the dismissed
set stays, and its label is set at most once. Local sessions and those of other labels are not
touched. -/
theorem namespace_isolation (config : Config) (dir : Directory) (hdir : Tidy dir)
    (dismissed : String → Bool) (es : List Event) (s : IngestState)
    (run : Run (Guarded OthersTidy (Step config)) (initialState dir dismissed) es s)
    (e : Event) (c : ConnId) (hc : connOf e = some c) (t : IngestState)
    (step : Step config s e t) :
    (∀ id, ¬ Owned (t.conns c).label id → SameAt s.dir t.dir id) ∧
    (∀ id, '~' ∉ id.toList → SameAt s.dir t.dir id) ∧
    (∀ l r, isValidRemoteId l = true → (t.conns c).label ≠ some l →
      SameAt s.dir t.dir (namespacedId l r)) ∧
    t.dismissed = s.dismissed ∧
    (∀ entry ∈ t.opened, entry ∈ s.opened ∨ Owned (t.conns c).label entry.2) ∧
    (∀ p ∈ (t.conns c).sessions, Owned (t.conns c).label p.2.localId) ∧
    (∀ d ≠ c, (t.conns d).sessions = (s.conns d).sessions) ∧
    ∀ l, (s.conns c).label = some l → (t.conns c).label = some l := by
  have hs : Inv s := run.invariant (fun h hstep => step_inv h hstep) (initial_inv hdir dismissed)
  obtain ⟨label, hhandled, hlabel⟩ := step_handled hs hc step
  have hown := hhandled.label
  subst hown
  have hdirs := hhandled.confined.dir
  refine ⟨hdirs, fun id hid => hdirs id ?_, fun l r hl hne => hdirs _ ?_,
    hhandled.confined.dismissed, hhandled.confined.opened, (hhandled.inv.conns c).sessions,
    hhandled.confined.others, hlabel⟩
  · rintro ⟨l, r, -, -, rfl⟩
    rw [namespacedId_toList] at hid
    exact hid (List.mem_append_right _ List.mem_cons_self)
  · rintro ⟨l', r', hl', -, heq⟩
    obtain ⟨rfl, -⟩ := namespacedId_inj hl ((hhandled.inv.conns c).label l' hl') heq
    exact hne hl'

/-- A connection names itself "l" and advertises a session. -/
theorem namespace_isolation_session_added :
    let config : Config := ⟨16, false, none, false⟩
    let io : Io := ⟨some 7, true, fun _ => true, fun _ => true, true, fun _ => 0, none⟩
    let hello : Json := .object [("kind", .string "hello"), ("clientId", .string "l")]
    let added : Json :=
      .object [("kind", .string "session-added"), ("meta", .object [("id", .string "r")])]
    ∃ s t,
      Run (Guarded OthersTidy (Step config)) (initialState ⟨[], fun _ => none⟩ fun _ => false)
        [.connect 0, .control 0 hello io] s ∧
      Step config s (.control 0 added io) t ∧ (t.dir.lookup "l~r").isSome = true ∧
      ∀ id, '~' ∉ id.toList → SameAt s.dir t.dir id := by
  intro config io hello added
  have run : Run (Guarded OthersTidy (Step config))
      (initialState ⟨[], fun _ => none⟩ fun _ => false) [.connect 0, .control 0 hello io] _ :=
    .cons ⟨trivial, rfl⟩ (.cons ⟨trivial, rfl⟩ (.nil _))
  refine ⟨_, _, run, rfl, by decide, ?_⟩
  have hempty : Tidy ⟨[], fun _ => none⟩ :=
    ⟨fun _ _ h => absurd h List.not_mem_nil, fun _ _ h => absurd h List.not_mem_nil⟩
  exact (namespace_isolation config _ hempty _ _ _ run (.control 0 added io) 0 rfl _ rfl).2.1

end Climon.Remote.Namespace
