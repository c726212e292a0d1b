import Climon.Lib.JsonNumbers
import Climon.Remote.Snapshot

namespace Climon.Remote.MirrorAgreement

open Climon.Lib.AssocList Climon.Lib.JsonValue Climon.Lib.Transition Climon.Proto.Meta
  Climon.Remote.Ingest Climon.Remote.Namespace Climon.Remote.Sanitize Climon.Remote.Snapshot
  Climon.Store.Meta Climon.Store.SessionFiles Climon.Store.SessionFiles.Directory

/-!
# Mirrors and their sources

An uplink reconciles: it advertises every session of its machine, names those that are gone, and
lists what there is. A first mirror is made of everything advertised; an existing one is patched.
-/

/-! ## The uplink's side -/

def natural (n : Nat) : Json := .number (.posInt (UInt64.ofNat n))

def integer (n : Int32) : Json :=
  if 0 ≤ n.toInt then natural n.toInt.toNat else .number (.negInt (Int64.ofInt n.toInt))

def progressValue (p : TerminalProgress) : Json :=
  .object (("state", .string p.state.name) ::
    (p.value.map fun value => ("value", natural value.toNat)).toList)

/-- The fields of the metadata in order. Absent ones are left out. -/
def members (m : SessionMeta) : List (String × Option Json) :=
  [ ("id", some (.string m.id)),
    ("command", some (.array (m.command.map .string))),
    ("displayCommand", some (.string m.displayCommand)),
    ("cwd", some (.string m.cwd)),
    ("status", some (.string m.status.name)),
    ("priorityReason", some (.string m.priorityReason.name)),
    ("daemonPid", m.daemonPid.map fun pid => natural pid.toNat),
    ("cols", some (natural m.cols.toNat)),
    ("rows", some (natural m.rows.toNat)),
    ("headless", m.headless.map .bool),
    ("socketPath", some (.string m.socketPath)),
    ("clientVersion", m.clientVersion.map .string),
    ("createdAt", some (.string m.createdAt)),
    ("updatedAt", some (.string m.updatedAt)),
    ("lastActivityAt", some (.string m.lastActivityAt)),
    ("attentionMatchedAt", m.attentionMatchedAt.map .string),
    ("attentionReason", m.attentionReason.map .string),
    ("completedAt", m.completedAt.map .string),
    ("exitCode", m.exitCode.map integer),
    ("error", m.error.map .string),
    ("origin", m.origin.map fun origin => .string origin.name),
    ("clientLabel", m.clientLabel.map .string),
    ("name", m.name.map .string),
    ("priority", m.priority.map fun priority => natural priority.toNat),
    ("color", m.color.map fun color =>
      match color with
      | none => .null
      | some color => .string color.name),
    ("theme", m.theme.map .string),
    ("userPaused", m.userPaused.map .bool),
    ("terminalTitle", m.terminalTitle.map .string),
    ("attentionSnippet", m.attentionSnippet.map .string),
    ("progress", m.progress.map progressValue) ]

def advertised (m : SessionMeta) : Json :=
  .object ((members m).filterMap fun member => member.2.map (member.1, ·))

def liveStatuses : List SessionStatus := [.running, .acknowledged, .needsAttention, .paused]

/-- A session whose daemon is gone is disconnected, here and in the uplink's own store. -/
def markDead (alive : UInt32 → Bool) (m : SessionMeta) : SessionMeta :=
  if liveStatuses.contains m.status ∧ m.daemonPid.any fun pid => !alive pid then
    { m with status := .disconnected, priorityReason := .disconnected }
  else m

/-- The sessions of the uplink's machine. Those mirrored from others are not passed on. -/
def current (alive : UInt32 → Bool) (remote : Directory) : List SessionMeta :=
  (remote.listSessions.filter fun m => m.origin ≠ some .remote).map (markDead alive)

def sessionRemoved (id : String) : Json :=
  .object [("kind", .string "session-removed"), ("id", .string id)]

/-- The messages of one reconcile, with what the outside answers while ingest handles each. The
list is a set, so its order is any. -/
structure Reconcile (config : Config) (alive : UInt32 → Bool) (remote : Directory) where
  addIo : String → Io
  removed : List (String × Io)
  gone : ∀ p ∈ removed, p.1 ∉ (current alive remote).map (·.id)
  ids : List String
  listed : ∀ id, id ∈ ids ↔ id ∈ (current alive remote).map (·.id)
  list : Json
  listIo : Io
  snapshot : IsSnapshot config ids list listIo

def handleAdded (config : Config) (c : ConnId) (addIo : String → Io) (s : IngestState)
    (m : SessionMeta) : IngestState :=
  s.handleControl config (addIo m.id) c (sessionAdded (advertised m))

def handleRemoved (config : Config) (c : ConnId) (s : IngestState) (p : String × Io) :
    IngestState :=
  s.handleControl config p.2 c (sessionRemoved p.1)

def deliver {config : Config} {alive : UInt32 → Bool} {remote : Directory} (c : ConnId)
    (s : IngestState) (r : Reconcile config alive remote) : IngestState :=
  let added := (current alive remote).foldl (handleAdded config c r.addIo) s
  (r.removed.foldl (handleRemoved config c) added).handleControl config r.listIo c r.list

/-! ## Agreement -/

/-- Text is bounded, and empty text is none. -/
def sanitiseText (text : Option String) : Option String := (text.filter (· ≠ "")).map boundStr

/-- Percentages exist in the normal state only. -/
def sanitiseProgress (p : TerminalProgress) : TerminalProgress :=
  match p.state with
  | .normal => ⟨.normal, some (UInt8.ofNat (min 100 (p.value.getD 0).toNat))⟩
  | state => ⟨state, none⟩

/-- The fields that the refresh of an existing mirror leaves alone. -/
structure RestAgrees (source mirror : SessionMeta) : Prop where
  terminalTitle : mirror.terminalTitle = sanitiseText source.terminalTitle
  progress : mirror.progress = source.progress.map sanitiseProgress
  exitCode : mirror.exitCode = source.exitCode
  completedAt : mirror.completedAt = source.completedAt.map boundStr
  name : mirror.name = sanitiseText source.name
  color : mirror.color = source.color
  cols : mirror.cols = source.cols
  rows : mirror.rows = source.rows

structure Agrees (source mirror : SessionMeta) : Prop extends RestAgrees source mirror where
  status : mirror.status = source.status
  priorityReason : mirror.priorityReason = source.priorityReason

/-- The mirror of the session, if there is one, agrees with it. -/
def MirrorAgrees (d : Directory) (label : String) (m : SessionMeta) : Prop :=
  ∀ mirror, d.lookup (namespacedId label m.id) = some (some mirror) →
    mirror.origin = some .remote → Agrees m mirror

/-! ## A first mirror -/

theorem get?_advertised {m : SessionMeta} {key : String} {value : Option Json}
    (h : (key, value) ∈ members m) : (advertised m).get? key = value := by
  have hkeys : ((members m).map (·.1)).Nodup := by
    simp only [members, List.map_cons, List.map_nil]
    decide
  exact lookup_filterMap_of_mem hkeys h

theorem asInteger_natural {n : Nat} (h : n < 2 ^ 52) : asInteger (natural n) = some (n : Int) := by
  have hsize : n < 2 ^ 64 := by omega
  have hnat : (UInt64.ofNat n).toNat = n := UInt64.toNat_ofNat_of_lt' hsize
  have hsaturate : saturateI64 n = n := by
    unfold saturateI64
    omega
  simp [asInteger, natural, Json.asF64, Number.asF64, hnat, roundToDouble_of_small h, hsaturate]

theorem wrapU16_toNat (n : UInt16) : wrapU16 n.toNat = n := by
  have hlt := n.toNat_lt
  have hmod : ((n.toNat : Int) % 65536).toNat = n.toNat := by omega
  rw [wrapU16, hmod, UInt16.ofNat_toNat]

theorem asInteger_uint16 (n : UInt16) : (asInteger (natural n.toNat)).map wrapU16 = some n := by
  have hlt := n.toNat_lt
  rw [asInteger_natural (by omega), Option.map_some, wrapU16_toNat]

theorem asI64_natural {n : Nat} (h : n < 2 ^ 63) : (natural n).asI64 = some (n : Int) := by
  have hnat : (UInt64.ofNat n).toNat = n := UInt64.toNat_ofNat_of_lt' (by simp only [UInt64.size]; omega)
  rw [natural, Json.asI64, Number.asI64, hnat, if_pos h]

theorem asI64_integer (n : Int32) : (integer n).asI64.map wrapI32 = some n := by
  have hlow := n.le_toInt
  have hhigh := n.toInt_lt
  unfold integer
  split
  next h =>
    rw [asI64_natural (by omega), Option.map_some, wrapI32, Int.toNat_of_nonneg h,
      Int32.ofInt_toInt]
  next h =>
    have hback : (Int64.ofInt n.toInt).toInt = n.toInt :=
      Int64.toInt_ofInt_of_le (by omega) (by omega)
    rw [Json.asI64, Number.asI64, hback, Option.map_some, wrapI32, Int32.ofInt_toInt]

theorem parse_progress (p : TerminalProgress) :
    parseProgress (progressValue p) = some (sanitiseProgress p) := by
  obtain ⟨state, value⟩ := p
  have hstate : ((progressValue ⟨state, value⟩).get? "state").bind Json.asStr = some state.name :=
    rfl
  have hname : ofName ProgressState.all ProgressState.name state.name = some state := by
    cases state <;> rfl
  unfold parseProgress
  rw [hstate, Option.bind_some, hname]
  cases state with
  | normal =>
    dsimp only
    cases value with
    | none => rfl
    | some value =>
      have hlt := value.toNat_lt
      have hvalue : (progressValue ⟨.normal, some value⟩).get? "value" =
          some (natural value.toNat) := rfl
      have hclamp : (max 0 (min 100 (value.toNat : Int))).toNat = min 100 value.toNat := by omega
      rw [hvalue, Option.bind_some, asInteger_natural (by omega), Option.map_some, Option.getD_some,
        hclamp]
      rfl
  | _ => rfl

theorem nonEmptyString_advertised {m : SessionMeta} {key : String} {text : Option String}
    (h : (key, text.map Json.string) ∈ members m) :
    nonEmptyString (advertised m) key = sanitiseText text := by
  rw [nonEmptyString, get?_advertised h]
  cases text with
  | none => rfl
  | some text =>
    by_cases hempty : text = "" <;> simp [Json.asStr, sanitiseText, hempty]

/-- A first mirror agrees in every field. -/
theorem toLocalMeta_agrees (m : SessionMeta) (label localId socketPath now : String) :
    Agrees m (toLocalMeta (advertised m) label localId socketPath now) := by
  have hstatus : ofName SessionStatus.all SessionStatus.name m.status.name = some m.status := by
    cases m.status <;> rfl
  have hreason : ofName PriorityReason.all PriorityReason.name m.priorityReason.name =
      some m.priorityReason := by
    cases m.priorityReason <;> rfl
  have hcolor (color : AnsiColor) : ofName AnsiColor.all AnsiColor.name color.name =
      some color := by
    cases color <;> rfl
  have hget (key : String) {value : Option Json} (h : (key, value) ∈ members m) :=
    get?_advertised h
  refine ⟨⟨?_, ?_, ?_, ?_, ?_, ?_, ?_, ?_⟩, ?_, ?_⟩
  · exact nonEmptyString_advertised (by simp [members])
  · have hprogress := hget "progress" (by simp [members]; rfl)
    simp only [toLocalMeta, hprogress]
    cases m.progress with
    | none => rfl
    | some p => exact parse_progress p
  · have hcode := hget "exitCode" (by simp [members]; rfl)
    simp only [toLocalMeta, hcode]
    cases m.exitCode with
    | none => rfl
    | some code => exact asI64_integer code
  · have hcompleted := hget "completedAt" (by simp [members]; rfl)
    simp only [toLocalMeta, hcompleted]
    cases m.completedAt <;> rfl
  · exact nonEmptyString_advertised (by simp [members])
  · have hshown := hget "color" (by simp [members]; rfl)
    simp only [toLocalMeta, hshown]
    rcases m.color with _ | _ | color
    · rfl
    · rfl
    · simp [Json.isNull, parseColor, Json.asStr, hcolor]
  · have hcols := hget "cols" (by simp [members]; rfl)
    simp only [toLocalMeta, hcols, Option.getD_some, asInteger_uint16]
  · have hrows := hget "rows" (by simp [members]; rfl)
    simp only [toLocalMeta, hrows, Option.getD_some, asInteger_uint16]
  · have hshown := hget "status" (by simp [members]; rfl)
    simp [toLocalMeta, hshown, parseStatus, Json.asStr, hstatus]
  · have hshown := hget "priorityReason" (by simp [members]; rfl)
    simp [toLocalMeta, hshown, parsePriorityReason, Json.asStr, hreason]

/-! ## A mirror that exists -/

/-- What is sent for a known session again: two of its fields. -/
def refresh (m : SessionMeta) : SessionMetaPatch where
  status := some m.status
  priorityReason := some m.priorityReason

theorem sanitise_refresh (m : SessionMeta) :
    sanitizeRemotePatch (.object [("status", ((advertised m).get? "status").getD .null),
      ("priorityReason", ((advertised m).get? "priorityReason").getD .null)]) = refresh m := by
  have hstatus : ofName SessionStatus.all SessionStatus.name m.status.name = some m.status := by
    cases m.status <;> rfl
  have hreason : ofName PriorityReason.all PriorityReason.name m.priorityReason.name =
      some m.priorityReason := by
    cases m.priorityReason <;> rfl
  have hshown : (advertised m).get? "status" = some (.string m.status.name) :=
    get?_advertised (by simp [members])
  have hcause : (advertised m).get? "priorityReason" = some (.string m.priorityReason.name) :=
    get?_advertised (by simp [members])
  rw [hshown, hcause]
  simp [sanitizeRemotePatch, Json.isObject, Json.get?, List.lookup_cons, refresh, parseStatus,
    parsePriorityReason, Json.asStr, hstatus, hreason, stringField]

/-- The fields of the file that a refresh does not name stay as they are. -/
theorem refreshed_agrees (m mirror : SessionMeta) (activity now : String) :
    Agrees m { mergePatch (applyUserPausedOverlay mirror)
        { refresh m with lastActivityAt := some activity } with updatedAt := now } ↔
      RestAgrees m mirror := by
  have hrest : RestAgrees m { mergePatch (applyUserPausedOverlay mirror)
      { refresh m with lastActivityAt := some activity } with updatedAt := now } ↔
        RestAgrees m mirror := by
    unfold applyUserPausedOverlay
    split
    all_goals
      constructor
      · rintro ⟨htitle, hprogress, hcode, hcompleted, hname, hcolor, hcols, hrows⟩
        exact ⟨htitle, hprogress, hcode, hcompleted, hname, hcolor, hcols, hrows⟩
      · rintro ⟨htitle, hprogress, hcode, hcompleted, hname, hcolor, hcols, hrows⟩
        exact ⟨htitle, hprogress, hcode, hcompleted, hname, hcolor, hcols, hrows⟩
  exact ⟨fun h => hrest.mp h.toRestAgrees, fun h => ⟨hrest.mpr h, rfl, rfl⟩⟩

/-- What must hold of the mirror's file when its session is advertised. A session that is not
registered gets a new file, if there is room and the file can be written. -/
def UpToDate (config : Config) (label : String) (c : ConnId) (io : Io) (s : IngestState)
    (m : SessionMeta) : Prop :=
  ∀ mirror, s.dir.lookup (namespacedId label m.id) = some (some mirror) →
    mirror.origin = some .remote →
      if m.id ∈ keys s c then
        if io.patchOk (namespacedId label m.id) then RestAgrees m mirror else Agrees m mirror
      else
        (s.conns c).sessions.length < config.maxSessions ∧ io.port.isSome = true ∧
          io.writeOk = true ∨ Agrees m mirror

section

variable {config : Config} {s : IngestState} {c : ConnId} {label : String}

theorem advertisedId_advertised (m : SessionMeta) : advertisedId (advertised m) = m.id := by
  have hid : (advertised m).get? "id" = some (.string m.id) := get?_advertised (by simp [members])
  rw [advertisedId, hid]
  rfl

/-- The patch of a registered session's file. -/
theorem patched_agrees (hnamed : s.dir.Named) (io : Io) (m : SessionMeta) :
    MirrorAgrees (s.patch io (namespacedId label m.id)
        { refresh m with lastActivityAt := some (io.now 0) }).dir label m ↔
      ∀ mirror, s.dir.lookup (namespacedId label m.id) = some (some mirror) →
        mirror.origin = some .remote →
          if io.patchOk (namespacedId label m.id) then RestAgrees m mirror
          else Agrees m mirror := by
  unfold IngestState.patch
  split
  next =>
    unfold MirrorAgrees Directory.patchSessionMeta Directory.readSessionMeta
    dsimp only
    cases hlookup : s.dir.lookup (namespacedId label m.id) with
    | none => simp [hlookup]
    | some content =>
      cases content with
      | none => simp [hlookup]
      | some mirror =>
        obtain ⟨hid, horigin⟩ := patched_identity mirror
          { refresh m with lastActivityAt := some (io.now 0) } (io.now 1)
        have hwritten := lookup_write s.dir { mergePatch (applyUserPausedOverlay mirror)
          { refresh m with lastActivityAt := some (io.now 0) } with updatedAt := io.now 1 }
        rw [hid, hnamed _ _ (mem_of_lookup hlookup)] at hwritten
        dsimp only
        rw [hwritten]
        simp only [Option.some.injEq, forall_eq', refreshed_agrees]
        rw [horigin]
  next => exact Iff.rfl

/-- An advertised session that the user did not delete: its mirror agrees afterwards exactly when
it was up to date. -/
theorem added_agrees (h : Ready config label c s) (io : Io) {m : SessionMeta}
    (hid : isValidRemoteId m.id = true) (hkept : ¬ Refused config s label m.id) :
    MirrorAgrees (s.handleControl config io c (sessionAdded (advertised m))).dir label m ↔
      UpToDate config label c io s m := by
  change MirrorAgrees (s.addSession config io c (advertised m)).dir label m ↔ _
  have hremote : (((advertised m).get? "id").bind Json.asStr).getD "" = m.id :=
    advertisedId_advertised m
  have hregistered : m.id ∈ keys s c ↔ ((s.conns c).sessions.lookup m.id).isSome := mem_keys
  unfold IngestState.addSession UpToDate
  rw [h.label]
  dsimp only
  have hdismissed : ¬ (config.registry = true ∧
      s.dismissed (namespacedId label m.id) = true) := hkept
  rw [hremote, if_neg (not_not.mpr hid), if_neg hdismissed]
  cases hlookup : (s.conns c).sessions.lookup m.id with
  | some existing =>
    obtain ⟨l, hl, -, hlocal⟩ := (h.tables c).named _ (mem_of_lookup hlookup)
    obtain rfl := Option.some.inj (hl.symm.trans h.label)
    dsimp only at hlocal ⊢
    simp only [hregistered, hlookup, Option.isSome_some, if_true]
    rw [hlocal, sanitise_refresh]
    exact patched_agrees h.inv.tidy.named io m
  | none =>
    simp only [hregistered, hlookup, Option.isSome_none, Bool.false_eq_true, if_false]
    have hstays : (MirrorAgrees s.dir label m ↔ ∀ mirror,
        s.dir.lookup (namespacedId label m.id) = some (some mirror) →
          mirror.origin = some .remote → False ∨ Agrees m mirror) := by
      simp [MirrorAgrees]
    split
    next hfull =>
      have hroom : ¬ (s.conns c).sessions.length < config.maxSessions := Nat.not_lt.mpr hfull
      simpa [hroom] using hstays
    next hroom =>
      cases hport : io.port with
      | none => simpa using hstays
      | some port =>
        dsimp only
        split
        next hwrite =>
          have hmade : MirrorAgrees (s.dir.writeSessionMeta (toLocalMeta (advertised m) label
              (namespacedId label m.id) (formatSessionSocketRef "127.0.0.1" port) (io.now 0)))
              label m := by
            intro mirror hmirror _
            have hwritten := lookup_write s.dir (toLocalMeta (advertised m) label
              (namespacedId label m.id) (formatSessionSocketRef "127.0.0.1" port) (io.now 0))
            cases hwritten.symm.trans hmirror
            exact toLocalMeta_agrees m _ _ _ _
          refine iff_of_true hmade fun mirror _ _ => .inl ⟨Nat.not_le.mp hroom, ?_, hwrite⟩
          rfl
        next hbad => simpa [hbad] using hstays

/-! ## Messages about other sessions -/

theorem patch_sameAt (hnamed : s.dir.Named) (io : Io) {id other : String} (h : other ≠ id)
    (patch : SessionMetaPatch) : SameAt s.dir (s.patch io id patch).dir other := by
  unfold IngestState.patch
  split
  · exact patchSessionMeta_sameAt hnamed h patch _
  · exact ⟨rfl, rfl⟩

theorem remove_sameAt (io : Io) {id other : String} (h : other ≠ id) :
    SameAt s.dir (s.remove io id).dir other := by
  unfold IngestState.remove
  split
  · exact removeSessionMeta_sameAt _ h
  · exact ⟨rfl, rfl⟩

theorem addSession_sameAt (h : Ready config label c s) (io : Io) (advertised : Json) {id : String}
    (hid : id ≠ namespacedId label (advertisedId advertised)) :
    SameAt s.dir (s.addSession config io c advertised).dir id := by
  unfold IngestState.addSession
  rw [h.label]
  dsimp only
  split
  · exact ⟨rfl, rfl⟩
  · split
    · exact ⟨rfl, rfl⟩
    · split
      next existing hlookup =>
        obtain ⟨l, hl, -, hlocal⟩ := (h.tables c).named _ (mem_of_lookup hlookup)
        obtain rfl := Option.some.inj (hl.symm.trans h.label)
        exact patch_sameAt h.inv.tidy.named io (fun heq => hid (heq.trans hlocal)) _
      · split
        · exact ⟨rfl, rfl⟩
        · split
          · exact ⟨rfl, rfl⟩
          · split
            · exact writeSessionMeta_sameAt _ hid
            · exact ⟨rfl, rfl⟩

theorem removeSessionDeleting_sameAt (h : Ready config label c s) (io : Io) (remoteId : String)
    {id : String} (hid : id ≠ namespacedId label remoteId) :
    SameAt s.dir (s.removeSessionDeleting io c remoteId).dir id := by
  unfold IngestState.removeSessionDeleting
  split
  · exact ⟨rfl, rfl⟩
  next session hlookup =>
    obtain ⟨l, hl, -, hlocal⟩ := (h.tables c).named _ (mem_of_lookup hlookup)
    obtain rfl := Option.some.inj (hl.symm.trans h.label)
    exact remove_sameAt (s := s.dropSession c remoteId) io fun heq => hid (heq.trans hlocal)

/-- One file of the reconciliation: a listed session that the user did not delete is spared. -/
theorem reconcileFile_sameAt (io : Io) {valid : List String} {dismissed : String → Bool}
    {remoteId : String} (hlisted : remoteId ∈ valid)
    (hkept : dismissed (namespacedId label remoteId) = false) (hlabel : isValidRemoteId label = true)
    (sessionMeta : SessionMeta) :
    SameAt s.dir (s.reconcileFile io label valid dismissed sessionMeta).dir
      (namespacedId label remoteId) := by
  unfold IngestState.reconcileFile
  split
  · exact ⟨rfl, rfl⟩
  · split
    · exact ⟨rfl, rfl⟩
    next found hfound =>
      have hid := stripPrefix_eq_some.mp hfound
      split
      next hgone =>
        refine remove_sameAt io fun heq => ?_
        rw [← heq] at hgone
        obtain rfl := (namespacedId_inj hlabel hlabel (heq.trans hid)).2
        rw [hkept] at hgone
        simp [hlisted] at hgone
      · exact ⟨rfl, rfl⟩

theorem reconcile_sameAt (io : Io) {valid : List String} {dismissed : String → Bool}
    {remoteId : String} (hlisted : remoteId ∈ valid)
    (hkept : dismissed (namespacedId label remoteId) = false)
    (hlabel : isValidRemoteId label = true) :
    SameAt s.dir (s.reconcileAgainstSnapshot io label valid dismissed).dir
      (namespacedId label remoteId) := by
  unfold IngestState.reconcileAgainstSnapshot
  split
  · exact List.foldlRecOn (motive := fun (t : IngestState) => SameAt s.dir t.dir _) _ _ ⟨rfl, rfl⟩
      fun _ ht sessionMeta _ =>
        sameAt_trans ht (reconcileFile_sameAt io hlisted hkept hlabel sessionMeta)
  · exact ⟨rfl, rfl⟩

theorem Ready.removeSessionDeleting (h : Ready config label c s) (io : Io) (remoteId : String) :
    Ready config label c (s.removeSessionDeleting io c remoteId) :=
  h.handled (removeSessionDeleting_handled h.inv io remoteId)
    (h.tables.removeSessionDeleting io remoteId)

theorem sessionList_sameAt (h : Ready config label c s) (io : Io) {ids : List String}
    {remoteId : String} (hid : isValidRemoteId remoteId = true) (hlisted : remoteId ∈ ids)
    (hkept : ¬ Refused config s label remoteId) :
    SameAt s.dir (s.sessionList config io c ids).dir (namespacedId label remoteId) := by
  rw [IngestState.sessionList, h.label]
  dsimp only
  unfold IngestState.applySessionList
  dsimp only
  have hvalid : remoteId ∈ ids.filter isValidRemoteId := List.mem_filter.mpr ⟨hlisted, hid⟩
  have hdrops := List.foldlRecOn
    (motive := fun t : IngestState => Ready config label c t ∧
      SameAt s.dir t.dir (namespacedId label remoteId))
    (((s.conns c).sessions.map (·.1)).filter fun other =>
      !(ids.filter isValidRemoteId).contains other)
    (IngestState.removeSessionDeleting io c) ⟨h, rfl, rfl⟩ fun t ht other hother => by
      refine ⟨Ready.removeSessionDeleting ht.1 io other,
        sameAt_trans ht.2 (removeSessionDeleting_sameAt ht.1 io other fun heq => ?_)⟩
      obtain rfl := (namespacedId_inj h.valid h.valid heq).2
      simpa [hvalid] using (List.mem_filter.mp hother).2
  refine sameAt_trans hdrops.2 (reconcile_sameAt io hvalid ?_ h.valid)
  unfold Refused at hkept
  cases hregistry : config.registry <;> simp_all

/-! ## A reconcile -/

/-- Every session is up to date when it is advertised. -/
def AllUpToDate (config : Config) (label : String) (c : ConnId) (addIo : String → Io) :
    IngestState → List SessionMeta → Prop
  | _, [] => True
  | s, m :: ms =>
    (isValidRemoteId m.id = true → ¬ Refused config s label m.id →
      UpToDate config label c (addIo m.id) s m) ∧
      AllUpToDate config label c addIo (handleAdded config c addIo s m) ms

/-- The mirrors of all sessions agree with them, but for those the user deleted. -/
def MirrorsAgree (config : Config) (label : String) (s : IngestState) (ms : List SessionMeta)
    (d : Directory) : Prop :=
  ∀ m ∈ ms, isValidRemoteId m.id = true → ¬ Refused config s label m.id → MirrorAgrees d label m

theorem Ready.added (h : Ready config label c s) (addIo : String → Io) (m : SessionMeta) :
    Ready config label c (handleAdded config c addIo s m) :=
  h.handled (addSession_handled h.inv config (addIo m.id) (advertised m))
    (h.tables.addSession (addIo m.id) (advertised m))

theorem added_dismissed (h : Ready config label c s) (addIo : String → Io) (m : SessionMeta) :
    (handleAdded config c addIo s m).dismissed = s.dismissed :=
  (addSession_handled h.inv config (addIo m.id) (advertised m)).confined.dismissed

theorem added_sameAt (h : Ready config label c s) (addIo : String → Io) {m : SessionMeta}
    {remoteId : String} (hne : remoteId ≠ m.id) :
    SameAt s.dir (handleAdded config c addIo s m).dir (namespacedId label remoteId) := by
  refine addSession_sameAt h (addIo m.id) (advertised m) fun heq => hne ?_
  rw [advertisedId_advertised] at heq
  exact (namespacedId_inj h.valid h.valid heq).2

theorem adds_frame (h : Ready config label c s) (addIo : String → Io) (ms : List SessionMeta) :
    Ready config label c (ms.foldl (handleAdded config c addIo) s) ∧
      (ms.foldl (handleAdded config c addIo) s).dismissed = s.dismissed ∧
      ∀ remoteId ∉ ms.map (·.id), SameAt s.dir (ms.foldl (handleAdded config c addIo) s).dir
        (namespacedId label remoteId) := by
  induction ms generalizing s with
  | nil => exact ⟨h, rfl, fun _ _ => ⟨rfl, rfl⟩⟩
  | cons m ms ih =>
    obtain ⟨hready, hdismissed, hsame⟩ := ih (Ready.added h addIo m)
    refine ⟨hready, hdismissed.trans (added_dismissed h addIo m), fun remoteId hnot => ?_⟩
    rw [List.map_cons, List.mem_cons, not_or] at hnot
    exact sameAt_trans (added_sameAt h addIo hnot.1) (hsame remoteId hnot.2)

theorem mirrorAgrees_congr {d e : Directory} {m : SessionMeta}
    (h : SameAt d e (namespacedId label m.id)) :
    MirrorAgrees e label m ↔ MirrorAgrees d label m := by
  unfold MirrorAgrees
  rw [h.1]

theorem refused_congr {t : IngestState} (h : t.dismissed = s.dismissed) (remoteId : String) :
    Refused config t label remoteId ↔ Refused config s label remoteId := by
  rw [Refused, Refused, h]

/-- With distinct ids every mirror is as its own message leaves it. -/
theorem adds_agree (h : Ready config label c s) (addIo : String → Io) (ms : List SessionMeta)
    (hids : (ms.map (·.id)).Nodup) :
    MirrorsAgree config label s ms (ms.foldl (handleAdded config c addIo) s).dir ↔
      AllUpToDate config label c addIo s ms := by
  induction ms generalizing s with
  | nil => simp [MirrorsAgree, AllUpToDate]
  | cons m ms ih =>
    rw [List.map_cons, List.nodup_cons] at hids
    have hready := Ready.added h addIo m
    have hframe := (adds_frame hready addIo ms).2.2 m.id hids.1
    have hrest := ih hready hids.2
    unfold MirrorsAgree at hrest ⊢
    simp only [refused_congr (added_dismissed h addIo m)] at hrest
    rw [List.forall_mem_cons, AllUpToDate, List.foldl_cons, hrest]
    refine and_congr_left fun _ => forall_congr' fun hid => forall_congr' fun hkept => ?_
    exact (mirrorAgrees_congr hframe).trans (added_agrees h (addIo m.id) hid hkept)

theorem removed_frame (h : Ready config label c s) (removed : List (String × Io)) :
    Ready config label c (removed.foldl (handleRemoved config c) s) ∧
      (removed.foldl (handleRemoved config c) s).dismissed = s.dismissed ∧
      ∀ remoteId ∉ removed.map (·.1), SameAt s.dir (removed.foldl (handleRemoved config c) s).dir
        (namespacedId label remoteId) := by
  induction removed generalizing s with
  | nil => exact ⟨h, rfl, fun _ _ => ⟨rfl, rfl⟩⟩
  | cons p removed ih =>
    have hhandled := sessionRemoved_handled (c := c) h.inv p.2 (sessionRemoved p.1)
    obtain ⟨hready, hdismissed, hsame⟩ := ih (s := handleRemoved config c s p)
      (h.handled hhandled (h.tables.sessionRemoved p.2 _))
    refine ⟨hready, hdismissed.trans hhandled.confined.dismissed, fun remoteId hnot => ?_⟩
    rw [List.map_cons, List.mem_cons, not_or] at hnot
    refine sameAt_trans ?_ (hsame remoteId hnot.2)
    change SameAt s.dir (IngestState.sessionRemoved p.2 s c (sessionRemoved p.1)).dir _
    unfold IngestState.sessionRemoved
    dsimp only
    split
    · exact removeSessionDeleting_sameAt h p.2 p.1 fun heq =>
        hnot.1 (namespacedId_inj h.valid h.valid heq).2
    · exact ⟨rfl, rfl⟩

theorem listed_ids {metas : List (String × Option SessionMeta)}
    (hnamed : ∀ id m, (id, some m) ∈ metas → m.id = id) :
    ((metas.filterMap (·.2)).map (·.id)).Sublist (metas.map (·.1)) := by
  induction metas with
  | nil => exact .slnil
  | cons file metas ih =>
    obtain ⟨name, content⟩ := file
    have hrest := ih fun id m hmem => hnamed id m (List.mem_cons_of_mem _ hmem)
    cases content with
    | none => exact hrest.cons _
    | some m =>
      obtain rfl := hnamed name m List.mem_cons_self
      exact hrest.cons_cons _

/-- The sessions of a machine have different ids. -/
theorem current_nodup {alive : UInt32 → Bool} {remote : Directory} (hnamed : remote.Named)
    (hfiles : (remote.metas.map (·.1)).Nodup) : ((current alive remote).map (·.id)).Nodup := by
  have hdead (m : SessionMeta) : (markDead alive m).id = m.id := by
    unfold markDead
    split <;> rfl
  have hlisted : (remote.listSessions.map (·.id)).Nodup := by
    have hids : remote.listSessions.map (·.id) = (remote.metas.filterMap (·.2)).map (·.id) := by
      rw [Directory.listSessions, List.map_map]
      exact List.map_congr_left fun m _ => Climon.Store.Patch.overlay_id m
    rw [hids]
    exact hfiles.sublist (listed_ids hnamed)
  rw [current, List.map_map]
  refine Eq.mpr (congrArg List.Nodup (List.map_congr_left fun m _ => hdead m)) ?_
  exact hlisted.sublist (List.filter_sublist.map _)

/-- After a reconcile the mirrors agree with what it was taken from exactly when those that it only
refreshes agreed already in what a refresh leaves out. -/
theorem mirrors_agree_iff (config : Config) (dir : Directory) (hdir : Tidy dir)
    (dismissed : String → Bool) (es : List Event) (s : IngestState)
    (run : Run (Guarded OthersTidy (Step config)) (initialState dir dismissed) es s) (c : ConnId)
    (label : String) (hlabel : (s.conns c).label = some label) (alive : UInt32 → Bool)
    (remote : Directory) (hnamed : remote.Named) (hfiles : (remote.metas.map (·.1)).Nodup)
    (r : Reconcile config alive remote) :
    MirrorsAgree config label s (current alive remote) (deliver c s r).dir ↔
      AllUpToDate config label c r.addIo s (current alive remote) := by
  have hstart : AllOk config (initialState dir dismissed) := fun _ =>
    ⟨List.nodup_nil, Nat.zero_le _, fun _ hp => absurd hp List.not_mem_nil⟩
  have hboth := run.invariant (I := fun s => Inv s ∧ AllOk config s)
    (fun h hs => ⟨step_inv h.1 hs, allOk_step h.2 hs.2⟩) ⟨initial_inv hdir dismissed, hstart⟩
  have hready : Ready config label c s := ⟨hboth.1, hboth.2, hlabel⟩
  obtain ⟨hadded, hkeptAdds, -⟩ := adds_frame hready r.addIo (current alive remote)
  obtain ⟨hgone, hkeptGone, hsameGone⟩ := removed_frame hadded r.removed
  rw [← adds_agree hready r.addIo _ (current_nodup hnamed hfiles)]
  refine forall_congr' fun m => forall_congr' fun hm => forall_congr' fun hid =>
    forall_congr' fun hkept => mirrorAgrees_congr (sameAt_trans (hsameGone m.id ?_) ?_)
  · intro hmem
    obtain ⟨p, hp, heq⟩ := List.mem_map.mp hmem
    exact r.gone p hp (heq ▸ List.mem_map_of_mem hm)
  · rw [deliver, handle_snapshot r.snapshot]
    refine sessionList_sameAt hgone r.listIo hid ((r.listed m.id).mpr (List.mem_map_of_mem hm)) ?_
    rwa [refused_congr (hkeptGone.trans hkeptAdds)]

end

/-! ## A session that ends -/

def sampleMeta : SessionMeta where
  id := "a"
  command := ["ls"]
  displayCommand := "ls"
  cwd := "/"
  status := .running
  priorityReason := .running
  daemonPid := none
  cols := 80
  rows := 24
  headless := none
  socketPath := "tcp://127.0.0.1:5"
  clientVersion := none
  createdAt := "t0"
  updatedAt := "t0"
  lastActivityAt := "t0"
  attentionMatchedAt := none
  attentionReason := none
  completedAt := none
  exitCode := none
  error := none
  origin := none
  clientLabel := none
  name := none
  priority := none
  color := none
  theme := none
  userPaused := none
  terminalTitle := none
  attentionSnippet := none
  progress := none

def endedMeta : SessionMeta :=
  { sampleMeta with
    status := .completed, priorityReason := .completed, exitCode := some 0
    completedAt := some "t1" }

def storeOf (m : SessionMeta) : Directory := ⟨[(m.id, some m)], fun _ => none⟩

def openIo : Io := ⟨some 7, true, fun _ => true, fun _ => true, true, fun _ => 0, none⟩

def openConfig : Config := ⟨8, true, none, false⟩

def helloMessage : Json := .object [("kind", .string "hello"), ("clientId", .string "l")]

def listMessage : Json := .object [("kind", .string "session-list"), ("ids", .array [.string "a"])]

def greeting : List Event := [.connect 0, .control 0 helloMessage openIo]

def firstSnapshot : List Event :=
  greeting ++ [.control 0 (sessionAdded (advertised sampleMeta)) openIo,
    .control 0 listMessage openIo]

def reconcileOf (m : SessionMeta)
    (hlisted : (current (fun _ => true) (storeOf m)).map (·.id) = ["a"]) :
    Reconcile openConfig (fun _ => true) (storeOf m) where
  addIo _ := openIo
  removed := []
  gone := by simp
  ids := ["a"]
  listed _ := by rw [hlisted]
  list := listMessage
  listIo := openIo
  snapshot := rfl

def noFiles : Directory := ⟨[], fun _ => none⟩

/-- The mirror of a session that has ended says so, but not how. -/
theorem exit_code_missing : ∃ s,
    Run (Guarded OthersTidy (Step openConfig)) (initialState noFiles fun _ => false)
      firstSnapshot s ∧ (s.conns 0).label = some "l" ∧
    ¬ MirrorsAgree openConfig "l" s (current (fun _ => true) (storeOf endedMeta))
      (deliver 0 s (reconcileOf endedMeta rfl)).dir := by
  have run : Run (Guarded OthersTidy (Step openConfig)) (initialState noFiles fun _ => false)
      firstSnapshot _ :=
    .cons ⟨trivial, rfl⟩ (.cons ⟨trivial, rfl⟩ (.cons ⟨trivial, rfl⟩ (.cons ⟨trivial, rfl⟩
      (.nil _))))
  refine ⟨_, run, rfl, fun h => ?_⟩
  have hagrees := h endedMeta List.mem_cons_self (by decide)
    (fun hrefused => Bool.false_ne_true hrefused.2) _ rfl rfl
  have hcode := hagrees.exitCode
  cases hcode

theorem first_mirror_agrees : ∃ s,
    Run (Guarded OthersTidy (Step openConfig)) (initialState noFiles fun _ => false) greeting s ∧
    MirrorsAgree openConfig "l" s (current (fun _ => true) (storeOf sampleMeta))
      (deliver 0 s (reconcileOf sampleMeta rfl)).dir := by
  have run : Run (Guarded OthersTidy (Step openConfig)) (initialState noFiles fun _ => false)
      greeting _ := .cons ⟨trivial, rfl⟩ (.cons ⟨trivial, rfl⟩ (.nil _))
  have htidy : Tidy noFiles := ⟨fun _ _ h => absurd h List.not_mem_nil,
    fun _ _ h => absurd h List.not_mem_nil⟩
  have hnamed : (storeOf sampleMeta).Named := fun id m hmem => by
    cases List.mem_singleton.mp hmem
    rfl
  refine ⟨_, run, (mirrors_agree_iff openConfig noFiles htidy _ greeting _ run 0 "l" rfl
    (fun _ => true) (storeOf sampleMeta) hnamed (List.nodup_singleton _)
    (reconcileOf sampleMeta rfl)).mpr ⟨fun _ _ mirror hmirror => ?_, trivial⟩⟩
  -- There is no file yet.
  cases hmirror

end Climon.Remote.MirrorAgreement
