import Climon.Remote.Namespace
import Mathlib.Data.List.ReduceOption

namespace Climon.Remote.TrustBoundary

open Climon.Lib.JsonValue Climon.Lib.Transition Climon.Lib.Utf8 Climon.Proto.Meta
  Climon.Remote.Ingest Climon.Remote.Namespace Climon.Remote.Sanitize Climon.Store.Clock
  Climon.Store.Meta Climon.Store.SessionFiles Climon.Store.SessionFiles.Directory
open Climon.Store.Patch (overlay_id)

/-!
# The trust boundary of mirrored sessions

A peer's metadata enters through `toLocalMeta` and through `sanitizeRemotePatch`. Neither lets it
set a field the server controls, so none of its messages decides a pid or a socket.
-/

/-- The fields the server sets itself. -/
def serverControlled : List String :=
  ["socketPath", "daemonPid", "origin", "clientLabel", "userPaused"]

def strings (m : SessionMeta) : List String :=
  [m.id, m.displayCommand, m.cwd, m.socketPath, m.createdAt, m.updatedAt, m.lastActivityAt] ++
    m.command ++
    [m.clientVersion, m.attentionMatchedAt, m.attentionReason, m.completedAt, m.error,
      m.clientLabel, m.name, m.theme, m.terminalTitle, m.attentionSnippet].reduceOption

def patchStrings (patch : SessionMetaPatch) : List String :=
  [patch.lastActivityAt, patch.attentionMatchedAt.join, patch.attentionReason.join,
    patch.completedAt, patch.error, patch.socketPath, patch.name, patch.theme.join,
    patch.terminalTitle, patch.attentionSnippet.join].reduceOption

/-- What a file of the label may hold, given the listeners opened so far. -/
structure Trusted (label : String) (opened : List (UInt16 × String)) (id : String)
    (m : SessionMeta) : Prop where
  named : ∃ r, isValidRemoteId r = true ∧ id = namespacedId label r
  sameId : m.id = id
  origin : m.origin = some .remote
  clientLabel : m.clientLabel = some label
  daemonPid : m.daemonPid = none
  userPaused : m.userPaused = none
  socketPath : ∃ port, (port, id) ∈ opened ∧
    m.socketPath = formatSessionSocketRef "127.0.0.1" port
  bounded : ∀ s ∈ strings m, s.length ≤ maxStr

/-- A patch that leaves the server-controlled fields alone. -/
structure RemotePatch (patch : SessionMetaPatch) : Prop where
  daemonPid : patch.daemonPid = none
  socketPath : patch.socketPath = none
  userPaused : patch.userPaused = none
  bounded : ∀ s ∈ patchStrings patch, s.length ≤ maxStr

/-! ## Patches -/

theorem mem_strings_mergePatch {base : SessionMeta} {patch : SessionMetaPatch} {now s : String}
    (h : s ∈ strings { mergePatch base patch with updatedAt := now }) :
    s ∈ strings base ∨ s ∈ patchStrings patch ∨ s = now := by
  have hor {a b : Option String} (k : some s = a.or b) : some s = a ∨ some s = b := by
    cases a with
    | none => exact .inr k
    | some a => exact .inl k
  have hgetD {a : Option (Option String)} {b : Option String} (k : some s = a.getD b) :
      some s = a.join ∨ some s = b := by
    cases a with
    | none => exact .inr k
    | some a => exact .inl k
  have hreq {a : Option String} {b : String} (k : s = a.getD b) : some s = a ∨ s = b := by
    cases a with
    | none => exact .inr k
    | some a => exact .inl (congrArg some k)
  simp only [strings, mergePatch, List.mem_append, List.reduceOption_mem_iff, List.mem_cons,
    List.not_mem_nil, or_false, patchStrings] at h ⊢
  grind

theorem RemotePatch.stringField {input : Json} {key s : String}
    (h : some s = stringField input key) : s.length ≤ maxStr := by
  unfold Sanitize.stringField at h
  obtain ⟨v, -, rfl⟩ := Option.map_eq_some_iff.mp h.symm
  exact length_boundedString_le v

theorem sanitizeRemotePatch_remote (input : Json) : RemotePatch (sanitizeRemotePatch input) := by
  unfold sanitizeRemotePatch
  split
  · exact ⟨rfl, rfl, rfl, nofun⟩
  · refine ⟨rfl, rfl, rfl, fun s hs => ?_⟩
    have hjoin {key : String} (h : some s = ((stringField input key).map some).join) :
        some s = stringField input key := by
      cases hf : stringField input key with
      | none =>
        rw [hf] at h
        cases h
      | some t =>
        rw [hf] at h
        exact h
    simp only [patchStrings, List.reduceOption_mem_iff, List.mem_cons, List.not_mem_nil, or_false]
      at hs
    rcases hs with h | h | h | h | h | h | h | h | h | h
    · exact RemotePatch.stringField h
    · exact RemotePatch.stringField (hjoin h)
    · exact RemotePatch.stringField (hjoin h)
    · exact RemotePatch.stringField h
    · exact RemotePatch.stringField h
    · cases h
    · exact RemotePatch.stringField h
    · cases h
    · exact RemotePatch.stringField h
    · cases h

theorem RemotePatch.touch {patch : SessionMetaPatch} (h : RemotePatch patch) (now : Int64) :
    RemotePatch { patch with lastActivityAt := some (iso8601MillisUtc now) } where
  daemonPid := h.daemonPid
  socketPath := h.socketPath
  userPaused := h.userPaused
  bounded := by
    intro s hs
    have hnow := length_iso8601MillisUtc_le now
    have hmax : 64 ≤ maxStr := by decide
    simp only [patchStrings, List.reduceOption_mem_iff, List.mem_cons] at hs
    rcases hs with heq | hrest
    · rw [Option.some.inj heq]
      exact hnow.trans hmax
    · apply h.bounded s
      simp only [patchStrings, List.reduceOption_mem_iff, List.mem_cons]
      exact .inr hrest

theorem disconnectedPatch_remote : RemotePatch disconnectedPatch :=
  ⟨rfl, rfl, rfl, nofun⟩

theorem Trusted.merge {label id : String} {opened : List (UInt16 × String)} {m : SessionMeta}
    (h : Trusted label opened id m) {patch : SessionMetaPatch} (hpatch : RemotePatch patch)
    (now : Int64) :
    Trusted label opened id
      { mergePatch (applyUserPausedOverlay m) patch with updatedAt := iso8601MillisUtc now } := by
  have hoverlay : applyUserPausedOverlay m = m := by
    unfold applyUserPausedOverlay
    rw [if_pos (.inl (by rw [h.userPaused]; decide))]
  rw [hoverlay]
  refine ⟨h.named, h.sameId, h.origin, h.clientLabel, ?_, ?_, ?_, fun s hs => ?_⟩
  · simp only [mergePatch, hpatch.daemonPid, h.daemonPid, Option.or_none]
  · simp only [mergePatch, hpatch.userPaused, h.userPaused, Option.or_none]
  · obtain ⟨port, hport, hsocket⟩ := h.socketPath
    refine ⟨port, hport, ?_⟩
    simpa only [mergePatch, hpatch.socketPath, Option.getD_none] using hsocket
  · have hnow := length_iso8601MillisUtc_le now
    have hmax : 64 ≤ maxStr := by decide
    rcases mem_strings_mergePatch hs with hbase | hadded | rfl
    · exact h.bounded s hbase
    · exact hpatch.bounded s hadded
    · exact hnow.trans hmax

/-! ## Advertised metadata -/

theorem length_le_asBytes (s : String) : s.length ≤ (asBytes s).length := by
  unfold asBytes
  rw [← String.length_toList, List.length_flatMap]
  induction s.toList with
  | nil => exact Nat.le_refl 0
  | cons c cs ih =>
    have hc : 1 ≤ (String.utf8EncodeChar c).length := by
      rw [String.length_utf8EncodeChar]
      exact Char.utf8Size_pos c
    rw [List.map_cons, List.sum_cons, List.length_cons]
    omega

theorem length_le_of_valid {id : String} (h : isValidRemoteId id = true) : id.length ≤ 64 := by
  unfold isValidRemoteId at h
  simp only [Bool.and_eq_true, decide_eq_true_eq] at h
  exact (length_le_asBytes id).trans h.1.2

theorem length_namespacedId_le {label remoteId : String} (h : isValidRemoteId label = true)
    (h' : isValidRemoteId remoteId = true) : (namespacedId label remoteId).length ≤ maxStr := by
  have hlabel := length_le_of_valid h
  have hremote := length_le_of_valid h'
  have htilde : "~".length = 1 := rfl
  have hmax : maxStr = 4096 := rfl
  unfold namespacedId
  rw [String.length_append, String.length_append]
  omega

theorem length_socketRef_le (port : UInt16) :
    (formatSessionSocketRef "127.0.0.1" port).length ≤ maxStr := by
  have hport : port.toNat.repr.length ≤ 5 :=
    Nat.repr_length port.toNat 5 (by omega) (port.toNat_lt.trans (by decide))
  have hfront : ("tcp://" ++ "127.0.0.1" ++ ":").length = 16 := rfl
  have hmax : maxStr = 4096 := rfl
  have heq : formatSessionSocketRef "127.0.0.1" port =
      "tcp://" ++ "127.0.0.1" ++ ":" ++ port.toNat.repr := rfl
  rw [heq, String.length_append]
  omega

theorem length_stringOr_le (remote : Json) (key : String) {fallback : String}
    (h : fallback.length ≤ maxStr) : (stringOr remote key fallback).length ≤ maxStr := by
  unfold stringOr
  dsimp only
  split
  · exact h
  · exact length_boundedString_le _

theorem length_nonEmptyString_le {remote : Json} {key s : String}
    (h : some s = nonEmptyString remote key) : s.length ≤ maxStr := by
  unfold nonEmptyString at h
  split at h
  · split at h
    · rw [Option.some.inj h]
      exact length_boundStr_le _
    · cases h
  · cases h

theorem toLocalMeta_bounded (remote : Json) {label localId socketPath now : String}
    (hlabel : label.length ≤ maxStr) (hid : localId.length ≤ maxStr)
    (hsocket : socketPath.length ≤ maxStr) (hnow : now.length ≤ maxStr) :
    ∀ s ∈ strings (toLocalMeta remote label localId socketPath now), s.length ≤ maxStr := by
  intro s hs
  rcases List.mem_append.mp hs with hfront | hoptional
  · rcases List.mem_append.mp hfront with hrequired | hcommand
    · simp only [toLocalMeta, List.mem_cons, List.not_mem_nil, or_false] at hrequired
      rcases hrequired with rfl | rfl | rfl | rfl | rfl | rfl | rfl
      · exact hid
      · exact length_boundedString_le _
      · exact length_boundedString_le _
      · exact hsocket
      · exact length_stringOr_le remote _ hnow
      · exact hnow
      · exact length_stringOr_le remote _ hnow
    · obtain ⟨c, -, rfl⟩ := List.mem_map.mp hcommand
      exact length_boundedString_le c
  · simp only [toLocalMeta, List.reduceOption_mem_iff, List.mem_cons, List.not_mem_nil, or_false]
      at hoptional
    rcases hoptional with h | h | h | h | h | h | h | h | h | h
    · exact length_nonEmptyString_le h
    · cases h
    · cases h
    · obtain ⟨_, -, rfl⟩ := Option.map_eq_some_iff.mp h.symm
      exact length_boundedString_le _
    · cases h
    · rw [Option.some.inj h]
      exact hlabel
    · exact length_nonEmptyString_le h
    · exact length_nonEmptyString_le h
    · exact length_nonEmptyString_le h
    · cases h

theorem toLocalMeta_trusted (remote : Json) {label remoteId : String}
    (hlabel : isValidRemoteId label = true) (hremote : isValidRemoteId remoteId = true)
    {opened : List (UInt16 × String)} {port : UInt16}
    (hport : (port, namespacedId label remoteId) ∈ opened) (now : Int64) :
    Trusted label opened (namespacedId label remoteId)
      (toLocalMeta remote label (namespacedId label remoteId)
        (formatSessionSocketRef "127.0.0.1" port) (iso8601MillisUtc now)) where
  named := ⟨remoteId, hremote, rfl⟩
  sameId := rfl
  origin := rfl
  clientLabel := rfl
  daemonPid := rfl
  userPaused := rfl
  socketPath := ⟨port, hport, rfl⟩
  bounded := by
    have hmax : 64 ≤ maxStr := by decide
    exact toLocalMeta_bounded remote ((length_le_of_valid hlabel).trans hmax)
      (length_namespacedId_le hlabel hremote) (length_socketRef_le port)
      ((length_iso8601MillisUtc_le now).trans hmax)

/-! ## Handlers -/

/-- Every file of the label is trusted. -/
structure Trusts (label : String) (s : IngestState) : Prop where
  named : s.dir.Named
  files : ∀ id m rest, (id, some m) ∈ s.dir.metas → id = namespacedId label rest →
    Trusted label s.opened id m

section Handlers

variable {label : String} {s : IngestState}

theorem Trusts.of_eq (h : Trusts label s) {t : IngestState} (hdir : t.dir = s.dir)
    (hopened : t.opened = s.opened) : Trusts label t := by
  refine ⟨?_, ?_⟩
  · rw [hdir]
    exact h.named
  · rw [hdir, hopened]
    exact h.files

theorem Trusts.patch (h : Trusts label s) (io : Io) (localId : String) {patch : SessionMetaPatch}
    (hpatch : RemotePatch patch) : Trusts label (s.patch io localId patch) := by
  unfold IngestState.patch
  split
  · rcases patchSessionMeta_cases s.dir localId patch (io.now 1) with heq | ⟨m, hm, heq⟩
    · exact h.of_eq heq rfl
    · have hid : (applyUserPausedOverlay m).id = localId :=
        (overlay_id m).trans (h.named localId m hm)
      refine ⟨?_, fun id written rest hmem hrest => ?_⟩
      · rw [heq]
        intro id written hmem
        rcases mem_writeSessionMeta hmem with hnew | hold
        · cases hnew
          rfl
        · exact h.named id written hold
      · rw [heq] at hmem
        rcases mem_writeSessionMeta hmem with hnew | hold
        · obtain ⟨hname, hvalue⟩ := Prod.mk.inj hnew
          have hlocal : id = localId := hname.trans hid
          rw [Option.some.inj hvalue]
          rw [hlocal] at hrest ⊢
          exact (h.files localId m rest hm hrest).merge hpatch _
        · exact h.files id written rest hold hrest
  · exact h

theorem Trusts.remove (h : Trusts label s) (io : Io) (localId : String) :
    Trusts label (s.remove io localId) := by
  unfold IngestState.remove
  split
  · exact ⟨fun id m hmem => h.named id m (mem_removeSessionMeta hmem),
      fun id m rest hmem => h.files id m rest (mem_removeSessionMeta hmem)⟩
  · exact h

theorem Trusts.open (h : Trusts label s) (entry : UInt16 × String) :
    Trusts label { s with opened := entry :: s.opened } := by
  refine ⟨h.named, fun id m rest hmem hrest => ?_⟩
  have hfile := h.files id m rest hmem hrest
  obtain ⟨port, hport, hsocket⟩ := hfile.socketPath
  exact { hfile with socketPath := ⟨port, List.mem_cons_of_mem _ hport, hsocket⟩ }

theorem Trusts.write (h : Trusts label s) (hlabel : isValidRemoteId label = true)
    {own remoteId : String} (hown : isValidRemoteId own = true)
    (hremote : isValidRemoteId remoteId = true) {port : UInt16}
    (hport : (port, namespacedId own remoteId) ∈ s.opened) (remote : Json) (now : Int64) :
    Trusts label { s with
      dir := s.dir.writeSessionMeta (toLocalMeta remote own (namespacedId own remoteId)
        (formatSessionSocketRef "127.0.0.1" port) (iso8601MillisUtc now)) } := by
  refine ⟨fun id m hmem => ?_, fun id m rest hmem hrest => ?_⟩
  · rcases mem_writeSessionMeta hmem with hnew | hold
    · cases hnew
      rfl
    · exact h.named id m hold
  · rcases mem_writeSessionMeta hmem with hnew | hold
    · obtain ⟨hname, hvalue⟩ := Prod.mk.inj hnew
      have hid : id = namespacedId own remoteId := hname
      obtain ⟨rfl, -⟩ := namespacedId_inj hlabel hown (hrest.symm.trans hid)
      rw [Option.some.inj hvalue, hid]
      exact toLocalMeta_trusted remote hown hremote hport now
    · exact h.files id m rest hold hrest

theorem foldl_trusts {α : Type} {f : IngestState → α → IngestState} (items : List α)
    (hf : ∀ t a, Trusts label t → Trusts label (f t a)) (h : Trusts label s) :
    Trusts label (items.foldl f s) := by
  induction items generalizing s with
  | nil => exact h
  | cons a items ih => exact ih (hf s a h)

variable {c : ConnId}

theorem removeSession_trusts (h : Trusts label s) (io : Io) (remoteId : String) :
    Trusts label (s.removeSession io c remoteId) := by
  unfold IngestState.removeSession
  split
  · exact h
  · have hdrop : Trusts label (s.dropSession c remoteId) := h.of_eq rfl rfl
    exact hdrop.patch io _ disconnectedPatch_remote

theorem removeSessionDeleting_trusts (h : Trusts label s) (io : Io) (remoteId : String) :
    Trusts label (s.removeSessionDeleting io c remoteId) := by
  unfold IngestState.removeSessionDeleting
  split
  · exact h
  · have hdrop : Trusts label (s.dropSession c remoteId) := h.of_eq rfl rfl
    exact hdrop.remove io _

theorem reconcileAgainstSnapshot_trusts (h : Trusts label s) (io : Io) (own : String)
    (ids : List String) (dismissed : String → Bool) :
    Trusts label (s.reconcileAgainstSnapshot io own ids dismissed) := by
  unfold IngestState.reconcileAgainstSnapshot
  split
  · refine foldl_trusts _ (fun t m ht => ?_) h
    unfold IngestState.reconcileFile
    split
    · exact ht
    · split
      · exact ht
      · split
        · exact ht.remove io _
        · exact ht
  · exact h

theorem sessionList_trusts (h : Trusts label s) (config : Config) (io : Io) (ids : List String) :
    Trusts label (s.sessionList config io c ids) := by
  unfold IngestState.sessionList
  split
  · exact h
  · apply reconcileAgainstSnapshot_trusts
    exact foldl_trusts _ (fun t id ht => removeSessionDeleting_trusts ht io id) h

theorem addSession_trusts (h : Trusts label s) (hlabel : isValidRemoteId label = true)
    (hown : ∀ l, (s.conns c).label = some l → isValidRemoteId l = true) (config : Config) (io : Io)
    (advertised : Json) : Trusts label (s.addSession config io c advertised) := by
  unfold IngestState.addSession
  split
  · exact h
  next own heq =>
    dsimp only
    split
    · exact h
    next hvalid =>
      split
      · exact h.of_eq rfl rfl
      · split
        · exact h.patch io _ ((sanitizeRemotePatch_remote _).touch _)
        · split
          · exact h
          · split
            · exact h
            next port _ =>
              have hopen := h.open (port, namespacedId own
                (((advertised.get? "id").bind Json.asStr).getD ""))
              split
              · exact (hopen.write hlabel (hown own heq) (not_not.mp hvalid) List.mem_cons_self
                  advertised _).of_eq rfl rfl
              · exact hopen

theorem updateSession_trusts (h : Trusts label s) (io : Io) (value : Json) :
    Trusts label (s.updateSession io c value) := by
  unfold IngestState.updateSession
  dsimp only
  split
  · exact h
  · split
    · exact h
    · apply h.patch
      cases value.get? "patch" with
      | none => exact ⟨rfl, rfl, rfl, nofun⟩
      | some patch => exact sanitizeRemotePatch_remote patch

theorem sessionRemoved_trusts (h : Trusts label s) (io : Io) (value : Json) :
    Trusts label (s.sessionRemoved io c value) := by
  unfold IngestState.sessionRemoved
  dsimp only
  split
  · exact removeSessionDeleting_trusts h io _
  · exact h

theorem hello_trusts (h : Trusts label s) (config : Config) (value : Json) :
    Trusts label (s.hello config c value) := by
  apply h.of_eq
  all_goals
    unfold IngestState.hello IngestState.evictAndRegister
    dsimp only
    repeat' split
    all_goals rfl

theorem handleControl_trusts (h : Trusts label s) (hlabel : isValidRemoteId label = true)
    (hown : ∀ l, (s.conns c).label = some l → isValidRemoteId l = true) (config : Config) (io : Io)
    (value : Json) : Trusts label (s.handleControl config io c value) := by
  unfold IngestState.handleControl
  split
  · exact hello_trusts h config value
  · split
    · exact h
    · exact addSession_trusts h hlabel hown config io _
  · exact updateSession_trusts h io value
  · exact sessionRemoved_trusts h io value
  · split
    · exact h
    · exact sessionList_trusts h config io _
  · split
    · exact sessionList_trusts h config io _
    · exact h
  · exact h

theorem teardown_trusts (h : Trusts label s) (config : Config) (io : Io) :
    Trusts label (s.teardown config io c) := by
  have hremoved := foldl_trusts ((s.conns c).sessions.map (·.1))
    (fun t id ht => removeSession_trusts (c := c) ht io id) h
  apply hremoved.of_eq
  all_goals
    unfold IngestState.teardown IngestState.markTornDown
    dsimp only
    repeat' split
    all_goals rfl

theorem reconcileStale_trusts (h : Trusts label s) (io : Io) :
    Trusts label (s.reconcileStaleRemoteSessions io) := by
  unfold IngestState.reconcileStaleRemoteSessions
  split
  · refine foldl_trusts _ (fun t m ht => ?_) h
    unfold IngestState.reconcileStaleFile
    split
    · exact ht
    · split
      all_goals first
        | exact ht.patch io _ disconnectedPatch_remote
        | exact ht.remove io _
        | exact ht
  · exact h

end Handlers

/-! ## Runs -/

/-- Other processes leave tidy directories, and keep or delete the label's files. -/
def NoLocalEdits (label : String) (s : IngestState) : Event → Prop
  | .others dir _ =>
    Tidy dir ∧ ∀ id m rest, (id, some m) ∈ dir.metas → id = namespacedId label rest →
      (id, some m) ∈ s.dir.metas
  | _ => True

theorem step_trusts {label : String} (hlabel : isValidRemoteId label = true) {config : Config}
    {s t : IngestState} {e : Event} (hinv : Inv s) (h : Trusts label s)
    (hstep : Guarded (NoLocalEdits label) (Step config) s e t) : Trusts label t := by
  obtain ⟨hok, hstep⟩ := hstep
  simp only [Step, next] at hstep
  cases e with
  | start io =>
    cases hstep
    exact reconcileStale_trusts h io
  | connect c =>
    dsimp only at hstep
    split at hstep
    · cases hstep
      exact h.of_eq rfl rfl
    · cases hstep
  | control c value io =>
    dsimp only at hstep
    split at hstep
    · cases hstep
      exact handleControl_trusts h hlabel (hinv.conns c).label config io value
    · cases hstep
  | data c sessionId data =>
    dsimp only at hstep
    split at hstep
    · cases hstep
      exact h.of_eq rfl rfl
    · cases hstep
  | registered c =>
    dsimp only at hstep
    split at hstep
    · split at hstep
      · cases hstep
        exact h.of_eq rfl rfl
      · cases hstep
    · cases hstep
  | viewer c remoteId =>
    cases hstep
    exact h.of_eq rfl rfl
  | close c io =>
    dsimp only at hstep
    split at hstep
    · cases hstep
      exact teardown_trusts h config io
    · cases hstep
  | others dir dismissed =>
    cases hstep
    exact ⟨hok.1.named, fun id m rest hmem hrest =>
      h.files id m rest (hok.2 id m rest hmem hrest) hrest⟩

theorem run_trusts {label : String} (hlabel : isValidRemoteId label = true) {config : Config}
    {s t : IngestState} {es : List Event} (hinv : Inv s) (h : Trusts label s)
    (run : Run (Guarded (NoLocalEdits label) (Step config)) s es t) : Trusts label t := by
  have hboth : Inv t ∧ Trusts label t := by
    refine run.invariant (I := fun s => Inv s ∧ Trusts label s) (fun {s e t} h hstep => ?_) ⟨hinv, h⟩
    refine ⟨step_inv h.1 ⟨?_, hstep.2⟩, step_trusts hlabel h.1 h.2 hstep⟩
    cases e with
    | others => exact hstep.1.1
    | _ => trivial
  exact hboth.2

/-! ## Messages that differ in server-controlled fields -/

/-- The same message but for the server-controlled fields of its metadata and its patch. -/
structure SameMessage (v w : Json) : Prop where
  top : v.AgreeOff ["meta", "patch"] w
  metas : Option.Rel (Json.AgreeOff serverControlled) (v.get? "meta") (w.get? "meta")
  patches : Option.Rel (Json.AgreeOff serverControlled) (v.get? "patch") (w.get? "patch")

/-- Events with the same message; all else is equal. -/
inductive SameEvent : Event → Event → Prop where
  | refl (e : Event) : SameEvent e e
  | control (c : ConnId) {v w : Json} (io : Io) (h : SameMessage v w) :
      SameEvent (.control c v io) (.control c w io)

theorem sanitizeRemotePatch_agree {v w : Json} (h : v.AgreeOff serverControlled w) :
    sanitizeRemotePatch v = sanitizeRemotePatch w := by
  have hget : ∀ key, key ∉ serverControlled → v.get? key = w.get? key := fun _ => h.get
  unfold sanitizeRemotePatch stringField
  rw [h.isObject, hget "status" (by decide), hget "priorityReason" (by decide),
    hget "lastActivityAt" (by decide), hget "attentionMatchedAt" (by decide),
    hget "attentionReason" (by decide), hget "completedAt" (by decide),
    hget "exitCode" (by decide), hget "error" (by decide), hget "cols" (by decide),
    hget "rows" (by decide), hget "name" (by decide), hget "priority" (by decide),
    hget "color" (by decide), hget "terminalTitle" (by decide), hget "progress" (by decide)]

theorem toLocalMeta_agree {v w : Json} (h : v.AgreeOff serverControlled w)
    (label localId socketPath now : String) :
    toLocalMeta v label localId socketPath now = toLocalMeta w label localId socketPath now := by
  have hget : ∀ key, key ∉ serverControlled → v.get? key = w.get? key := fun _ => h.get
  unfold toLocalMeta nonEmptyString stringOr
  simp only [hget "command" (by decide), hget "displayCommand" (by decide),
    hget "cwd" (by decide), hget "status" (by decide), hget "priorityReason" (by decide),
    hget "cols" (by decide), hget "rows" (by decide), hget "headless" (by decide),
    hget "clientVersion" (by decide), hget "createdAt" (by decide),
    hget "lastActivityAt" (by decide), hget "completedAt" (by decide),
    hget "exitCode" (by decide), hget "name" (by decide), hget "priority" (by decide),
    hget "color" (by decide), hget "theme" (by decide), hget "terminalTitle" (by decide),
    hget "progress" (by decide)]

theorem addSession_agree (config : Config) (io : Io) (s : IngestState) (c : ConnId) {v w : Json}
    (h : v.AgreeOff serverControlled w) :
    s.addSession config io c v = s.addSession config io c w := by
  have hget : ∀ key, key ∉ serverControlled → v.get? key = w.get? key := fun _ => h.get
  unfold IngestState.addSession
  simp only [hget "id" (by decide), hget "status" (by decide), hget "priorityReason" (by decide),
    toLocalMeta_agree h]

theorem updateSession_agree (io : Io) (s : IngestState) (c : ConnId) {v w : Json}
    (h : SameMessage v w) : s.updateSession io c v = s.updateSession io c w := by
  have hpatch : (v.get? "patch").map sanitizeRemotePatch =
      (w.get? "patch").map sanitizeRemotePatch := by
    have hpatches := h.patches
    generalize v.get? "patch" = p at hpatches ⊢
    generalize w.get? "patch" = q at hpatches ⊢
    cases hpatches with
    | none => rfl
    | some hpq => exact congrArg some (sanitizeRemotePatch_agree hpq)
  unfold IngestState.updateSession
  rw [h.top.get (by decide : "id" ∉ ["meta", "patch"]), hpatch]

theorem handleControl_agree (config : Config) (io : Io) (s : IngestState) (c : ConnId) {v w : Json}
    (h : SameMessage v w) : s.handleControl config io c v = s.handleControl config io c w := by
  have hget : ∀ key, key ∉ ["meta", "patch"] → v.get? key = w.get? key := fun _ => h.top.get
  have hhello : s.hello config c v = s.hello config c w := by
    unfold IngestState.hello
    rw [hget "peer" (by decide), hget "clientId" (by decide)]
  have hremoved : s.sessionRemoved io c v = s.sessionRemoved io c w := by
    unfold IngestState.sessionRemoved
    rw [hget "id" (by decide)]
  have hids : IngestState.sessionListIds v = IngestState.sessionListIds w := by
    unfold IngestState.sessionListIds
    rw [hget "ids" (by decide)]
  unfold IngestState.handleControl
  rw [hget "kind" (by decide), hhello, updateSession_agree io s c h, hremoved, hids]
  have hmetas := h.metas
  generalize v.get? "meta" = m at hmetas ⊢
  generalize w.get? "meta" = n at hmetas ⊢
  cases hmetas with
  | none => rfl
  | some hmn =>
    dsimp only
    rw [addSession_agree config io s c hmn]

theorem next_agree (config : Config) (s : IngestState) {e f : Event} (h : SameEvent e f) :
    next config s e = next config s f := by
  cases h with
  | refl => rfl
  | control c io h => simp only [next, handleControl_agree config io s c h]

theorem noLocalEdits_agree {label : String} {s : IngestState} {e f : Event} (h : SameEvent e f) :
    NoLocalEdits label s e → NoLocalEdits label s f := by
  cases h with
  | refl => exact id
  | control => exact fun _ => trivial

/-- A run can be repeated with such messages, and can end only where it did. -/
theorem run_agree {label : String} {config : Config} {s t : IngestState} {es fs : List Event}
    (h : List.Forall₂ SameEvent es fs)
    (run : Run (Guarded (NoLocalEdits label) (Step config)) s es t) (u : IngestState) :
    Run (Guarded (NoLocalEdits label) (Step config)) s fs u ↔ u = t := by
  induction h generalizing s with
  | nil =>
    cases run
    constructor
    · intro other
      cases other
      rfl
    · rintro rfl
      exact .nil _
  | cons hhead _ ih =>
    cases run with
    | cons hstep hrest =>
      have hnext := next_agree config s hhead
      constructor
      · intro other
        cases other with
        | cons hother htail =>
          have heq := hother.2
          unfold Step at heq
          rw [← hnext, hstep.2] at heq
          cases heq
          exact (ih hrest).mp htail
      · intro hu
        exact .cons ⟨noLocalEdits_agree hhead hstep.1, hnext.symm.trans hstep.2⟩
          ((ih hrest).mpr hu)

/-- Starting without files of a label, and with no local edits of them, whatever the peers send:
every file of the label is what the sanitisers let through and what ingest itself set, and the
server-controlled fields of the messages change nothing. -/
theorem trust_boundary (label : String) (hlabel : isValidRemoteId label = true) (config : Config)
    (dir : Directory) (hdir : Tidy dir)
    (hempty : ∀ id m rest, (id, some m) ∈ dir.metas → id ≠ namespacedId label rest)
    (dismissed : String → Bool) (es : List Event) (t : IngestState)
    (run : Run (Guarded (NoLocalEdits label) (Step config)) (initialState dir dismissed) es t) :
    (∀ id m rest, (id, some m) ∈ t.dir.metas → id = namespacedId label rest →
      Trusted label t.opened id m) ∧
    ∀ fs, List.Forall₂ SameEvent es fs → ∀ u,
      Run (Guarded (NoLocalEdits label) (Step config)) (initialState dir dismissed) fs u ↔
        u = t := by
  have hstart : Trusts label (initialState dir dismissed) :=
    ⟨hdir.named, fun id m rest hmem hrest => absurd hrest (hempty id m rest hmem)⟩
  exact ⟨(run_trusts hlabel (initial_inv hdir dismissed) hstart run).files,
    fun fs hsame u => run_agree hsame run u⟩

/-- A peer advertises a session with a socket and a pid of its choosing. -/
theorem trust_boundary_chosen_socket :
    let config : Config := ⟨16, false, none, false⟩
    let io : Io := ⟨some 7, true, fun _ => true, fun _ => true, true, fun _ => 0, none⟩
    let hello : Json := .object [("kind", .string "hello"), ("clientId", .string "l")]
    let added (fields : List (String × Json)) : Json :=
      .object [("kind", .string "session-added"), ("meta", .object (("id", .string "r") :: fields))]
    let chosen := [("socketPath", Json.string "/tmp/x"), ("daemonPid", .number (.posInt 1))]
    let start := initialState ⟨[], fun _ => none⟩ fun _ => false
    ∃ t,
      Run (Guarded (NoLocalEdits "l") (Step config)) start
        [.connect 0, .control 0 hello io, .control 0 (added chosen) io] t ∧
      (t.dir.metas.map (·.1)) = ["l~r"] ∧
      Run (Guarded (NoLocalEdits "l") (Step config)) start
        [.connect 0, .control 0 hello io, .control 0 (added []) io] t := by
  intro config io hello added chosen start
  have run : Run (Guarded (NoLocalEdits "l") (Step config)) start
      [.connect 0, .control 0 hello io, .control 0 (added chosen) io] _ :=
    .cons ⟨trivial, rfl⟩ (.cons ⟨trivial, rfl⟩ (.cons ⟨trivial, rfl⟩ (.nil _)))
  have hempty : Tidy ⟨[], fun _ => none⟩ :=
    ⟨fun _ _ h => absurd h List.not_mem_nil, fun _ _ h => absurd h List.not_mem_nil⟩
  have hsame : SameMessage (added chosen) (added []) := by
    refine ⟨.inr ⟨rfl, rfl, fun key hkey => ?_⟩, .some (.inr ⟨rfl, rfl, fun key hkey => ?_⟩), .none⟩
    · rw [List.mem_cons, not_or] at hkey
      simp [added, Json.get?, List.lookup_cons, beq_eq_false_iff_ne.mpr hkey.1]
    · simp only [serverControlled, List.mem_cons, not_or] at hkey
      simp [chosen, Json.get?, List.lookup_cons, beq_eq_false_iff_ne.mpr hkey.1,
        beq_eq_false_iff_ne.mpr hkey.2.1]
  refine ⟨_, run, by decide, ?_⟩
  exact ((trust_boundary "l" (by decide) config _ hempty
    (fun _ _ _ h => absurd h List.not_mem_nil) _ _ _ run).2 _
    (.cons (.refl _) (.cons (.refl _) (.cons (.control 0 io hsame) .nil))) _).mpr rfl

end Climon.Remote.TrustBoundary
