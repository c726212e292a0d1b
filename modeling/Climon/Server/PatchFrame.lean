import Climon.Lib.JsonPath
import Climon.Lib.Transition
import Climon.Server.FormatAgreement
import Climon.Store.Patch

namespace Climon.Server.PatchFrame

open Climon.Lib.JavaScript Climon.Lib.JavaScript.JsValue Climon.Lib.JsonAgreement
  Climon.Lib.JsonDocument Climon.Lib.JsonPath Climon.Lib.JsonSchema Climon.Lib.Transition
  Climon.Lib.Utf16 Climon.Proto.Meta Climon.Server.FormatAgreement Climon.Server.SessionEdit
  Climon.Store.Format Climon.Store.Meta Climon.Store.Patch

/-!
# What a metadata patch leaves alone

Both stores patch the session as they read it, with the overlay, and write all of it back.
-/

/-! ## The patches -/

/-- `patch_queued` under the lock: the patch and the record that is written, `none` where the file
is left alone. -/
def patchQueued (file : Fields) (call : Call) :
    Except StoreError (Option (SessionMetaPatch × SessionMeta)) :=
  match decodeMeta file with
  | none => .error .json
  | some stored =>
    let current := Climon.Store.Meta.applyUserPausedOverlay stored
    match call.resolve current with
    | .error e => .error e
    | .ok none => .ok none
    | .ok (some patch) => .ok (some (patch, updatedBy call current patch))

/-- The fields a patch can carry, and whether it does. -/
def carried (patch : SessionMetaPatch) : List (String × Bool) :=
  [ ("status", patch.status.isSome),
    ("priorityReason", patch.priorityReason.isSome),
    ("daemonPid", patch.daemonPid.isSome),
    ("lastActivityAt", patch.lastActivityAt.isSome),
    ("attentionMatchedAt", patch.attentionMatchedAt.isSome),
    ("attentionReason", patch.attentionReason.isSome),
    ("completedAt", patch.completedAt.isSome),
    ("exitCode", patch.exitCode.isSome),
    ("error", patch.error.isSome),
    ("socketPath", patch.socketPath.isSome),
    ("cols", patch.cols.isSome),
    ("rows", patch.rows.isSome),
    ("name", patch.name.isSome),
    ("priority", patch.priority.isSome),
    ("color", patch.color.isSome),
    ("theme", patch.theme.isSome),
    ("userPaused", patch.userPaused.isSome),
    ("terminalTitle", patch.terminalTitle.isSome),
    ("attentionSnippet", patch.attentionSnippet.isSome),
    ("progress", patch.progress.isSome) ]

def namedBy (patch : SessionMetaPatch) : List String :=
  ((carried patch).filter (·.2)).map (·.1)

/-- The Rust client's store, and the TypeScript server's. -/
inductive Store where
  | client
  | server
  deriving DecidableEq, Repr

/-- A successful patch of a file, the fields it names, and the file it writes. -/
inductive Patched : Store → List String → Fields → Fields → Prop where
  | client {file : Fields} {call : Call} {patch : SessionMetaPatch} {updated : SessionMeta}
      (h : patchQueued file call = .ok (some (patch, updated))) :
      Patched .client (namedBy patch) file (writeMeta updated)
  | server {file : Fields} {changes : List Change}
      {validateCurrent : Props → Except EditError Unit} {now : String} {updated : Props}
      (h : patchSessionMeta file changes validateCurrent now = .ok updated) :
      Patched .server (changes.map (·.1)) file (toFields updated)

/-- Neither a field the patch names nor `updatedAt`. -/
def Unnamed (named : List String) (key : List UInt16) : Prop :=
  ∀ name ∈ "updatedAt" :: named, key ≠ encode name

/-- The files say the same but for the named fields and `updatedAt`. -/
def Framed (named : List String) (file written : Fields) : Prop :=
  ∀ key, Unnamed named key → Same (member file key) (member written key)

/-! ## When they do -/

/-- The overlay applies to the file. -/
def Overlaid (file : Fields) : Prop :=
  (Props.get? (ofFields file) "userPaused").any truthy = true ∧
    isOneOf userPausedOverlayStatuses (Props.get? (ofFields file) "status") = true

def overlay : List Change :=
  [("status", some (text "paused")), ("priorityReason", some (text "running")),
    ("attentionMatchedAt", none), ("attentionReason", none)]

/-- Where the overlay shows a field that the patch does not name, that is the stored value. -/
def OverlayKept (named : List String) (file : Fields) : Prop :=
  Overlaid file → ∀ change ∈ overlay, Unnamed named (encode change.1) →
    member file (encode change.1) = change.2.map toDoc

def TidyProgress (fields : Fields) : Prop :=
  (∀ entry ∈ fields, ∃ name ∈ progressSchema.keys, entry.1 = encode name) ∧
    member fields (encode "value") ≠ some .null

/-- A field that the client's types lose nothing of. -/
structure Typed (key : List UInt16) (value : Doc) : Prop where
  known : ∃ name ∈ metaSchema.keys, key = encode name
  null : value = .null → key = encode "color"
  progress : key = encode "progress" → ∀ fields, value = .object fields → TidyProgress fields

/-- What the store reads of a field is all it says. -/
def Lossless (store : Store) (file : Fields) (key : List UInt16) : Prop :=
  match store with
  | .client => ∀ value, member file key = some value → Typed key value
  | .server => Doubles (member file key)

/-- The patch touches nothing that it does not name. -/
def Harmless (store : Store) (named : List String) (file : Fields) : Prop :=
  OverlayKept named file ∧ ∀ key, Unnamed named key → Lossless store file key

/-! ## The overlay -/

theorem same_overlay_iff : ∀ change ∈ overlay, ∀ d : Option Doc,
    Same d (change.2.map toDoc) ↔ d = change.2.map toDoc := by
  intro change hchange d
  simp only [overlay, List.mem_cons, List.not_mem_nil, or_false] at hchange
  rcases hchange with rfl | rfl | rfl | rfl
  · exact same_string_iff
  · exact same_string_iff
  · exact same_none_iff
  · exact same_none_iff

theorem overlay_cases : ∀ change ∈ overlay, change.2.map toDoc = none ∨
    ∃ units, change.2.map toDoc = some (.string units) := by
  intro change hchange
  simp only [overlay, List.mem_cons, List.not_mem_nil, or_false] at hchange
  rcases hchange with rfl | rfl | rfl | rfl
  · exact .inr ⟨_, rfl⟩
  · exact .inr ⟨_, rfl⟩
  · exact .inl rfl
  · exact .inl rfl

theorem readSessionMeta_of_overlaid {file : Fields} (h : Overlaid file) :
    SessionEdit.readSessionMeta file = Props.spread (ofFields file) overlay := by
  unfold SessionEdit.readSessionMeta SessionEdit.applyUserPausedOverlay
  rw [h.1, h.2]
  rfl

theorem readSessionMeta_of_not {file : Fields} (h : ¬ Overlaid file) :
    SessionEdit.readSessionMeta file = ofFields file := by
  unfold SessionEdit.readSessionMeta SessionEdit.applyUserPausedOverlay
  refine if_pos ?_
  rw [Bool.or_eq_true, Bool.not_eq_true', Bool.not_eq_true']
  by_contra hboth
  rw [not_or, Bool.not_eq_false, Bool.not_eq_false] at hboth
  exact h hboth

/-- Both stores overlay the same files. -/
theorem overlaid_iff {file : Fields} {m : SessionMeta} (h : decodeMeta file = some m) :
    Overlaid file ↔ m.userPaused = some true ∧ isUserPausedOverlayStatus m.status = true := by
  have hshows := ((decodeMeta_eq_some_iff file m).mp h).shows
  have hpaused : Optional isBool (ofFields file) "userPaused" m.userPaused :=
    hshows (.optional "userPaused" .bool (·.userPaused)) (by simp [metaSchema])
  have hstatus : Required status.shows (ofFields file) "status" m.status :=
    hshows (.required "status" status (·.status)) (by simp [metaSchema])
  obtain ⟨v, hget, rfl⟩ := hstatus
  unfold Overlaid
  have hone : isOneOf userPausedOverlayStatuses (some (.string (encode m.status.name))) =
      isUserPausedOverlayStatus m.status := isOneOf_status m.status
  rw [any_truthy hpaused, hget, hone, decide_eq_true_iff]

/-- Where it applies the overlay's values are written in place of the stored ones, and elsewhere
only what the store reads of the file: the file is framed exactly when neither does harm. -/
theorem frame_iff {store : Store} {named : List String} {file written : Fields}
    (hoverlay : Overlaid file → ∀ change ∈ overlay, Unnamed named (encode change.1) →
      member written (encode change.1) = change.2.map toDoc)
    (hrest : ∀ key, Unnamed named key →
      (Overlaid file → ∀ change ∈ overlay, key ≠ encode change.1) →
      (Same (member file key) (member written key) ↔ Lossless store file key))
    (hshown : ∀ change ∈ overlay, member file (encode change.1) = change.2.map toDoc →
      Lossless store file (encode change.1)) :
    Framed named file written ↔ Harmless store named file := by
  have hkept (hover : Overlaid file) (change : Change) (hchange : change ∈ overlay)
      (hkey : Unnamed named (encode change.1)) :
      Same (member file (encode change.1)) (member written (encode change.1)) ↔
        member file (encode change.1) = change.2.map toDoc := by
    rw [hoverlay hover change hchange hkey]
    exact same_overlay_iff change hchange _
  constructor
  · intro h
    have hover : OverlayKept named file := fun hover change hchange hkey =>
      (hkept hover change hchange hkey).mp (h _ hkey)
    refine ⟨hover, fun key hkey => ?_⟩
    by_cases hshow : Overlaid file ∧ ∃ change ∈ overlay, key = encode change.1
    · obtain ⟨happlies, change, hchange, rfl⟩ := hshow
      exact hshown change hchange (hover happlies change hchange hkey)
    · refine (hrest key hkey fun happlies change hchange heq => ?_).mp (h key hkey)
      exact hshow ⟨happlies, change, hchange, heq⟩
  · rintro ⟨hover, hlossless⟩ key hkey
    by_cases hshow : Overlaid file ∧ ∃ change ∈ overlay, key = encode change.1
    · obtain ⟨happlies, change, hchange, rfl⟩ := hshow
      exact (hkept happlies change hchange hkey).mpr (hover happlies change hchange hkey)
    · refine (hrest key hkey fun happlies change hchange heq => ?_).mpr (hlossless key hkey)
      exact hshow ⟨happlies, change, hchange, heq⟩

/-! ## The server -/

theorem patchSessionMeta_ok {file : Fields} {changes : List Change}
    {validateCurrent : Props → Except EditError Unit} {now : String} {updated : Props}
    (h : patchSessionMeta file changes validateCurrent now = .ok updated) :
    updated = (SessionEdit.readSessionMeta file).spread
      (changes ++ [("updatedAt", some (text now))]) := by
  obtain ⟨-, -, h⟩ := exists_of_bind h
  exact (Except.ok.inj h).symm

theorem nodup_readSessionMeta (file : Fields) :
    ((SessionEdit.readSessionMeta file).map (·.1)).Nodup := by
  by_cases h : Overlaid file
  · rw [readSessionMeta_of_overlaid h]
    exact nodup_spread (nodup_ofFields file) _
  · rw [readSessionMeta_of_not h]
    exact nodup_ofFields file

theorem server_frame_iff {file : Fields} {changes : List Change}
    {validateCurrent : Props → Except EditError Unit} {now : String} {updated : Props}
    (h : patchSessionMeta file changes validateCurrent now = .ok updated) :
    Framed (changes.map (·.1)) file (toFields updated) ↔
      Harmless .server (changes.map (·.1)) file := by
  have hmember (key : List UInt16) (hkey : Unnamed (changes.map (·.1)) key) :
      member (toFields updated) key =
        ((SessionEdit.readSessionMeta file).lookup key).map toDoc := by
    have hnodup := nodup_spread (nodup_readSessionMeta file)
      (changes ++ [("updatedAt", some (text now))])
    rw [← patchSessionMeta_ok h, ← keys_toFields] at hnodup
    rw [member_of_nodup hnodup, lookup_toFields, patchSessionMeta_ok h, lookup_spread_of_notMem]
    intro change hchange
    rcases List.mem_append.mp hchange with hpatch | hstamp
    · exact hkey change.1 (List.mem_cons_of_mem _ (List.mem_map_of_mem hpatch))
    · rw [List.mem_singleton.mp hstamp]
      exact hkey "updatedAt" List.mem_cons_self
  refine frame_iff (fun hover change hchange hkey => ?_) (fun key hkey hrest => ?_)
    fun change hchange hget => ?_
  · rw [hmember _ hkey, readSessionMeta_of_overlaid hover]
    exact congrArg _ (get?_spread_of_mem _ (by decide) hchange)
  · have hlookup : (SessionEdit.readSessionMeta file).lookup key = (ofFields file).lookup key := by
      by_cases hover : Overlaid file
      · rw [readSessionMeta_of_overlaid hover]
        exact lookup_spread_of_notMem _ (hrest hover)
      · rw [readSessionMeta_of_not hover]
    rw [hmember key hkey, hlookup, lookup_ofFields_last, Option.map_map]
    exact same_rewrite_iff _
  · change Doubles (member file (encode change.1))
    rw [hget]
    rcases overlay_cases change hchange with hnone | ⟨units, hunits⟩
    · rw [hnone]
      exact doubles_none
    · rw [hunits]
      exact doubles_string units

/-! ## The client -/

theorem patchQueued_ok {file : Fields} {call : Call} {patch : SessionMetaPatch}
    {updated : SessionMeta} (h : patchQueued file call = .ok (some (patch, updated))) :
    ∃ stored, decodeMeta file = some stored ∧
      updated = updatedBy call (Climon.Store.Meta.applyUserPausedOverlay stored) patch := by
  unfold patchQueued at h
  split at h
  next => cases h
  next stored hstored =>
    refine ⟨stored, hstored, ?_⟩
    dsimp only at h
    split at h
    · cases h
    · cases h
    · cases h
      rfl

theorem not_carried {patch : SessionMetaPatch} : ∀ entry ∈ carried patch,
    entry.1 ∉ "updatedAt" :: namedBy patch → entry.2 = false := by
  intro entry hentry hkey
  rw [← Bool.not_eq_true]
  intro hgiven
  refine hkey (List.mem_cons_of_mem _ ?_)
  exact List.mem_map_of_mem (List.mem_filter.mpr ⟨hentry, hgiven⟩)

/-- A patch changes no field that it does not carry. -/
theorem written_updatedBy (call : Call) (current : SessionMeta) (patch : SessionMetaPatch) :
    ∀ field ∈ metaSchema, field.key ∉ "updatedAt" :: namedBy patch →
      field.written (updatedBy call current patch) = field.written current := by
  have hnone : ∀ entry ∈ carried patch, entry.1 ∉ "updatedAt" :: namedBy patch →
      entry.2 = false := not_carried
  simp only [carried, List.forall_mem_cons, Option.isSome_eq_false_iff, Option.isNone_iff_eq_none]
    at hnone
  obtain ⟨hstatus, hpriorityReason, hdaemonPid, hlastActivityAt, hattentionMatchedAt,
    hattentionReason, hcompletedAt, hexitCode, herror, hsocketPath, hcols, hrows, hname, hpriority,
    hcolor, htheme, huserPaused, hterminalTitle, hattentionSnippet, hprogress, -⟩ := hnone
  intro field hfield hkey
  simp only [metaSchema, List.mem_cons, List.not_mem_nil, or_false] at hfield
  rcases hfield with rfl | rfl | rfl | rfl | rfl | rfl | rfl | rfl | rfl | rfl |
    rfl | rfl | rfl | rfl | rfl | rfl | rfl | rfl | rfl | rfl | rfl | rfl | rfl | rfl | rfl |
    rfl | rfl | rfl | rfl | rfl
  · rfl
  · rfl
  · rfl
  · rfl
  · simp only [RecordField.required, updatedBy, mergePatch, hstatus hkey, Option.getD_none]
  · simp only [RecordField.required, updatedBy, mergePatch, hpriorityReason hkey, Option.getD_none]
  · simp only [RecordField.optional, updatedBy, mergePatch, hdaemonPid hkey, Option.none_or]
  · simp only [RecordField.required, updatedBy, mergePatch, hcols hkey, Option.getD_none]
  · simp only [RecordField.required, updatedBy, mergePatch, hrows hkey, Option.getD_none]
  · rfl
  · simp only [RecordField.required, updatedBy, mergePatch, hsocketPath hkey, Option.getD_none]
  · rfl
  · rfl
  · exact absurd List.mem_cons_self hkey
  · simp only [RecordField.required, updatedBy, mergePatch, hlastActivityAt hkey, Option.getD_none]
  · simp only [RecordField.optional, updatedBy, mergePatch, hattentionMatchedAt hkey,
      Option.getD_none]
  · simp only [RecordField.optional, updatedBy, mergePatch, hattentionReason hkey, Option.getD_none]
  · simp only [RecordField.optional, updatedBy, mergePatch, hcompletedAt hkey, Option.none_or]
  · simp only [RecordField.optional, updatedBy, mergePatch, hexitCode hkey, Option.none_or]
  · simp only [RecordField.optional, updatedBy, mergePatch, herror hkey, Option.none_or]
  · rfl
  · rfl
  · simp only [RecordField.optional, updatedBy, mergePatch, hname hkey, Option.none_or]
  · simp only [RecordField.optional, updatedBy, mergePatch, hpriority hkey, Option.none_or]
  · simp only [RecordField.doubleOption, updatedBy, mergePatch, hcolor hkey, Option.none_or]
  · simp only [RecordField.optional, updatedBy, mergePatch, htheme hkey, Option.getD_none]
  · simp only [RecordField.optional, updatedBy, mergePatch, huserPaused hkey, Option.none_or]
  · simp only [RecordField.optional, updatedBy, mergePatch, hterminalTitle hkey, Option.none_or]
  · simp only [RecordField.optional, updatedBy, mergePatch, hattentionSnippet hkey,
      Option.getD_none]
  · simp only [RecordField.optional, updatedBy, mergePatch, hprogress hkey, Option.getD_none]

/-- The overlay changes no other field. -/
theorem written_overlay (m : SessionMeta) : ∀ field ∈ metaSchema,
    field.key ∉ overlay.map (·.1) →
      field.written (Climon.Store.Meta.applyUserPausedOverlay m) = field.written m := by
  intro field hfield hkey
  unfold Climon.Store.Meta.applyUserPausedOverlay
  split
  next => rfl
  next =>
    simp only [metaSchema, List.mem_cons, List.not_mem_nil, or_false] at hfield
    rcases hfield with rfl | rfl | rfl | rfl | rfl | rfl | rfl | rfl | rfl | rfl |
      rfl | rfl | rfl | rfl | rfl | rfl | rfl | rfl | rfl | rfl | rfl | rfl | rfl | rfl | rfl |
      rfl | rfl | rfl | rfl | rfl
    all_goals first
      | rfl
      | exact absurd (by decide) hkey

theorem applyUserPausedOverlay_of_not {m : SessionMeta}
    (h : ¬ (m.userPaused = some true ∧ isUserPausedOverlayStatus m.status = true)) :
    Climon.Store.Meta.applyUserPausedOverlay m = m := by
  unfold Climon.Store.Meta.applyUserPausedOverlay
  refine if_pos ?_
  rwa [not_and_or] at h

theorem written_overlaid {m : SessionMeta} (hpaused : m.userPaused = some true)
    (hstatus : isUserPausedOverlayStatus m.status = true) : ∀ change ∈ overlay,
    ∃ field ∈ metaSchema, field.key = change.1 ∧
      field.written (Climon.Store.Meta.applyUserPausedOverlay m) = change.2.map toDoc := by
  have happlied : Climon.Store.Meta.applyUserPausedOverlay m =
      { m with
        status := .paused
        priorityReason := .running
        attentionMatchedAt := none
        attentionReason := none } := by
    unfold Climon.Store.Meta.applyUserPausedOverlay
    rw [if_neg (by simp [hpaused, hstatus])]
  intro change hchange
  rw [happlied]
  simp only [overlay, List.mem_cons, List.not_mem_nil, or_false] at hchange
  rcases hchange with rfl | rfl | rfl | rfl
  · exact ⟨.required "status" status (·.status), by simp [metaSchema], rfl, rfl⟩
  · exact ⟨.required "priorityReason" priorityReason (·.priorityReason), by simp [metaSchema], rfl,
      rfl⟩
  · exact ⟨.optional "attentionMatchedAt" .text (·.attentionMatchedAt), by simp [metaSchema], rfl,
      rfl⟩
  · exact ⟨.optional "attentionReason" .text (·.attentionReason), by simp [metaSchema], rfl, rfl⟩

theorem typed_plain {key : String} (hkey : key ∈ metaSchema.keys) (hcolor : key ≠ "color")
    (hprogress : key ≠ "progress") {d : Option Doc} :
    d ≠ some .null ↔ ∀ value, d = some value → Typed (encode key) value := by
  constructor
  · rintro hnull value rfl
    refine ⟨⟨key, hkey, rfl⟩, fun heq => absurd (congrArg some heq) hnull, fun heq => ?_⟩
    exact absurd (encode_injective heq) hprogress
  · intro h hnull
    exact hcolor (encode_injective ((h .null hnull).null rfl))

theorem restores_progress : Restores (.optional "progress" progress SessionMeta.progress)
    fun d => d ≠ some .null ∧ ∀ e, d = some e → ∀ fields, e = .object fields →
      TidyProgress fields := by
  refine restores_optional _ fun {d p} hdecodes => ?_
  cases d with
  | object fields =>
    have hfields := (decodeProgress_eq_some_iff fields p).mp hdecodes
    have hnamed : Exact progressState :=
      exact_named ProgressState.name rfl rfl fun h => (ofName_some h).2
    have hstate := same_required hnamed (hfields.fields _ List.mem_cons_self)
    have hexact : Exact Codec.uint8 := exact_integer
    have hvalue := restores_optional_exact hexact TerminalProgress.value
      (hfields.fields _ (List.mem_cons_of_mem _ List.mem_cons_self))
    have hwrite := same_write_iff (by decide) hfields
    have hmember : member fields (encode "value") = Fields.get? fields "value" :=
      member_eq_get? hfields.wellFormed (by decide : "value" ∈ progressSchema.keys)
    change Same _ (some (.object (progressSchema.write p))) ↔ _
    rw [hwrite]
    constructor
    · rintro ⟨hknown, hsame⟩ other heq
      cases heq
      refine ⟨hknown, hmember ▸ hvalue.mp ?_⟩
      exact hsame _ (List.mem_cons_of_mem _ List.mem_cons_self)
    · intro h
      obtain ⟨hknown, hnull⟩ := h fields rfl
      refine ⟨hknown, ?_⟩
      simp only [progressSchema, List.forall_mem_cons]
      exact ⟨hstate, hvalue.mpr (hmember ▸ hnull), List.forall_mem_nil _⟩
  | _ => cases hdecodes

/-- Of every field but two, what decodes is written back where it is not null. -/
theorem restores_plain : ∀ field ∈ metaSchema, field.key = "color" ∨ field.key = "progress" ∨
    Restores field (· ≠ some .null) := by
  have hstatus : Exact status := exact_named SessionStatus.name rfl rfl fun h => (ofName_some h).2
  have hreason : Exact priorityReason :=
    exact_named PriorityReason.name rfl rfl fun h => (ofName_some h).2
  have horigin : Exact origin := exact_named Origin.name rfl rfl fun h => (ofName_some h).2
  have plain {field : RecordField SessionMeta} (h : Restores field (· ≠ some .null)) :
      field.key = "color" ∨ field.key = "progress" ∨ Restores field (· ≠ some .null) :=
    .inr (.inr h)
  simp only [metaSchema, List.forall_mem_cons]
  exact
    ⟨plain (restores_required exact_text _), plain (restores_required exact_texts _),
      plain (restores_required exact_text _), plain (restores_required exact_text _),
      plain (restores_required hstatus _), plain (restores_required hreason _),
      plain (restores_optional_exact exact_integer _), plain (restores_required exact_integer _),
      plain (restores_required exact_integer _), plain (restores_optional_exact exact_bool _),
      plain (restores_required exact_text _), plain (restores_optional_exact exact_text _),
      plain (restores_required exact_text _), plain (restores_required exact_text _),
      plain (restores_required exact_text _), plain (restores_optional_exact exact_text _),
      plain (restores_optional_exact exact_text _), plain (restores_optional_exact exact_text _),
      plain (restores_optional_exact exact_integer _),
      plain (restores_optional_exact exact_text _), plain (restores_optional_exact horigin _),
      plain (restores_optional_exact exact_text _), plain (restores_optional_exact exact_text _),
      plain (restores_optional_exact exact_integer _), .inl rfl,
      plain (restores_optional_exact exact_text _), plain (restores_optional_exact exact_bool _),
      plain (restores_optional_exact exact_text _), plain (restores_optional_exact exact_text _),
      .inr (.inl rfl), List.forall_mem_nil _⟩

/-- The client writes back all that a field says exactly where its types lose nothing. -/
theorem restores_meta : ∀ field ∈ metaSchema,
    Restores field fun d => ∀ value, d = some value → Typed (encode field.key) value := by
  intro field hfield
  have hkey : field.key ∈ metaSchema.keys := List.mem_map_of_mem hfield
  intro fields m hdecodes
  by_cases hcolor : field.key = "color"
  · have heq : field = .doubleOption "color" color (·.color) :=
      List.inj_on_of_nodup_map nodup_metaKeys hfield (by simp [metaSchema]) hcolor
    subst heq
    have hexact : Exact color := exact_named AnsiColor.name rfl rfl fun h => (ofName_some h).2
    refine iff_of_true ((restores_doubleOption hexact _ hdecodes).mpr trivial) fun value _ => ?_
    refine ⟨⟨_, hkey, rfl⟩, fun _ => rfl, fun heq => ?_⟩
    exact absurd (encode_injective heq) (by decide : "color" ≠ "progress")
  · by_cases hprogress : field.key = "progress"
    · have heq : field = .optional "progress" progress (·.progress) :=
        List.inj_on_of_nodup_map nodup_metaKeys hfield (by simp [metaSchema]) hprogress
      subst heq
      refine (restores_progress hdecodes).trans ⟨fun h value hvalue => ?_, fun h => ⟨?_, ?_⟩⟩
      · exact ⟨⟨_, hkey, rfl⟩, fun heq => absurd (heq ▸ hvalue) h.1, fun _ => h.2 value hvalue⟩
      · exact fun hnull => hcolor (encode_injective ((h .null hnull).null rfl))
      · exact fun value hvalue => (h value hvalue).progress rfl
    · have hplain : Restores field (· ≠ some .null) :=
        ((restores_plain field hfield).resolve_left hcolor).resolve_left hprogress
      exact (hplain hdecodes).trans (typed_plain hkey hcolor hprogress)

theorem member_writeMeta (m : SessionMeta) (field : RecordField SessionMeta)
    (hfield : field ∈ metaSchema) : member (writeMeta m) (encode field.key) = field.written m :=
  member_write nodup_metaKeys field hfield

theorem member_writeMeta_of_unknown (m : SessionMeta) {key : List UInt16}
    (h : ¬ ∃ name ∈ metaSchema.keys, key = encode name) : member (writeMeta m) key = none :=
  member_write_of_notMem fun name hname heq => h ⟨name, hname, heq⟩

/-- What the overlay shows is typed. -/
theorem typed_overlay {file : Fields} {change : Change} (hchange : change ∈ overlay)
    (hget : member file (encode change.1) = change.2.map toDoc) :
    Lossless .client file (encode change.1) := by
  have hplain : ∀ key ∈ overlay.map (·.1),
      key ∈ metaSchema.keys ∧ key ≠ "color" ∧ key ≠ "progress" := by decide
  obtain ⟨hkey, hcolor, hprogress⟩ := hplain change.1 (List.mem_map_of_mem hchange)
  refine (typed_plain hkey hcolor hprogress).mp ?_
  rw [hget]
  rcases overlay_cases change hchange with hnone | ⟨units, hunits⟩
  · rw [hnone]
    exact nofun
  · rw [hunits]
    exact nofun

theorem client_frame_iff {file : Fields} {call : Call} {patch : SessionMetaPatch}
    {updated : SessionMeta} (h : patchQueued file call = .ok (some (patch, updated))) :
    Framed (namedBy patch) file (writeMeta updated) ↔ Harmless .client (namedBy patch) file := by
  obtain ⟨stored, hstored, hupdated⟩ := patchQueued_ok h
  have hdecodes := (decodeMeta_eq_some_iff file stored).mp hstored
  have hwritten (field : RecordField SessionMeta) (hfield : field ∈ metaSchema)
      (hkey : Unnamed (namedBy patch) (encode field.key)) :
      member (writeMeta updated) (encode field.key) =
        field.written (Climon.Store.Meta.applyUserPausedOverlay stored) := by
    rw [member_writeMeta updated field hfield, hupdated]
    exact written_updatedBy call _ patch field hfield fun hname => hkey _ hname rfl
  refine frame_iff (fun hover change hchange hkey => ?_) (fun key hkey hrest => ?_)
    fun change hchange hget => typed_overlay hchange hget
  · obtain ⟨hpaused, hstatus⟩ := (overlaid_iff hstored).mp hover
    obtain ⟨field, hfield, hname, hshown⟩ := written_overlaid hpaused hstatus change hchange
    rw [← hname] at hkey ⊢
    rw [hwritten field hfield hkey, hshown]
  · by_cases hknown : ∃ name ∈ metaSchema.keys, key = encode name
    · obtain ⟨name, hname, rfl⟩ := hknown
      obtain ⟨field, hfield, rfl⟩ := List.mem_map.mp hname
      have hsame : field.written (Climon.Store.Meta.applyUserPausedOverlay stored) =
          field.written stored := by
        by_cases hover : Overlaid file
        · refine written_overlay stored field hfield fun hmem => ?_
          obtain ⟨change, hchange, heq⟩ := List.mem_map.mp hmem
          exact hrest hover change hchange (congrArg encode heq.symm)
        · rw [applyUserPausedOverlay_of_not fun happlies =>
            hover ((overlaid_iff hstored).mpr happlies)]
      unfold Lossless
      rw [hwritten field hfield hkey, hsame, member_eq_get? hdecodes.wellFormed hname]
      exact restores_meta field hfield (hdecodes.fields field hfield)
    · rw [member_writeMeta_of_unknown updated hknown, same_none_iff]
      constructor
      · intro hfile value hvalue
        cases hfile.symm.trans hvalue
      · intro hlossless
        rw [Option.eq_none_iff_forall_ne_some]
        exact fun value hvalue => hknown (hlossless value hvalue).known

/-- The client loses nothing of what it wrote itself. -/
theorem lossless_writeMeta (m : SessionMeta) (key : List UInt16) :
    Lossless .client (writeMeta m) key := by
  intro value hvalue
  by_cases hknown : ∃ name ∈ metaSchema.keys, key = encode name
  · obtain ⟨name, hname, rfl⟩ := hknown
    obtain ⟨field, hfield, rfl⟩ := List.mem_map.mp hname
    have hdecodes : metaSchema.Decodes (writeMeta m) m := decodes_write nodup_metaKeys
    have hget : Fields.get? (writeMeta m) field.key = field.written m :=
      get?_write nodup_metaKeys hfield
    refine (restores_meta field hfield (hdecodes.fields field hfield)).mp ?_ value ?_
    · rw [hget]
      exact Same.refl _
    · rw [← member_eq_get? hdecodes.wellFormed hname]
      exact hvalue
  · cases (member_writeMeta_of_unknown m hknown).symm.trans hvalue

/-! ## Runs -/

structure Patch where
  store : Store
  named : List String

def Step (file : Fields) (patch : Patch) (written : Fields) : Prop :=
  Patched patch.store patch.named file written

def Spares (file : Fields) (patch : Patch) : Prop := Harmless patch.store patch.named file

theorem patched_frame_iff {store : Store} {named : List String} {file written : Fields}
    (h : Patched store named file written) :
    Framed named file written ↔ Harmless store named file := by
  cases h with
  | client h => exact client_frame_iff h
  | server h => exact server_frame_iff h

/-- Patches that do no harm keep a field that none of them names. -/
theorem kept_of_run {file last : Fields} {patches : List Patch}
    (run : Run (Guarded Spares Step) file patches last) {key : List UInt16}
    (hkey : ∀ patch ∈ patches, Unnamed patch.named key) :
    Same (member file key) (member last key) := by
  induction run with
  | nil => exact Same.refl _
  | cons hs _ ih =>
    rw [List.forall_mem_cons] at hkey
    exact ((patched_frame_iff hs.2).mpr hs.1 key hkey.1).trans (ih hkey.2)

/-- A successful patch changes only the fields it names and `updatedAt` exactly when the overlay
shows no other field in place of a different stored value and the store loses nothing of the
others as it reads them. In a run of such patches that name no status, clearing the overlay shows
the status that was stored. -/
theorem patch_frame_iff (file : Fields) :
    (∀ store named written, Patched store named file written →
      (Framed named file written ↔ Harmless store named file)) ∧
    ∀ patches last, Run (Guarded Spares Step) file patches last →
      (∀ patch ∈ patches, "status" ∉ patch.named) →
      ∀ units, member file (encode "status") = some (.string units) → ¬ Overlaid last →
        Props.get? (SessionEdit.readSessionMeta last) "status" = some (.string units) := by
  refine ⟨fun store named written => patched_frame_iff, ?_⟩
  intro patches last run hstatus units hstored hcleared
  have hunnamed (patch : Patch) (hpatch : patch ∈ patches) :
      Unnamed patch.named (encode "status") := by
    intro name hname heq
    rw [← encode_injective heq] at hname
    rcases List.mem_cons.mp hname with hstamp | hmem
    · exact absurd hstamp (by decide)
    · exact hstatus patch hpatch hmem
  have hsame := kept_of_run run hunnamed
  rw [hstored] at hsame
  rw [readSessionMeta_of_not hcleared, Props.get?, lookup_ofFields_last,
    same_string_iff.mp hsame.symm]
  rfl

def rename : Call where
  process := 0
  resolve := Climon.Store.Patch.patchSessionMeta { name := some "x" }
  now := "u"

theorem decode_written (m : SessionMeta) : decodeMeta (writeMeta m) = some m :=
  (decodeMeta_eq_some_iff _ _).mpr (decodes_write nodup_metaKeys)

theorem patchQueued_rename (m : SessionMeta) : patchQueued (writeMeta m) rename =
    .ok (some ({ name := some "x" },
      updatedBy rename (Climon.Store.Meta.applyUserPausedOverlay m) { name := some "x" })) := by
  unfold patchQueued
  rw [decode_written]
  rfl

/-- A plain session is renamed, and nothing else is touched. -/
theorem patch_frame_iff_rename :
    ∃ written, Patched .client ["name"] (writeMeta plainMeta) written ∧
      Framed ["name"] (writeMeta plainMeta) written := by
  have hpatched := Patched.client (patchQueued_rename plainMeta)
  have hplain : ¬ Overlaid (writeMeta plainMeta) := fun hover =>
    absurd ((overlaid_iff (decode_written plainMeta)).mp hover).1 (by decide)
  refine ⟨_, hpatched, ((patch_frame_iff (writeMeta plainMeta)).1 _ _ _ hpatched).mpr ?_⟩
  exact ⟨fun hover => absurd hover hplain, fun key _ => lossless_writeMeta plainMeta key⟩

def pausedMeta : SessionMeta := { plainMeta with userPaused := some true }

theorem stored_pausedMeta :
    member (writeMeta pausedMeta) (encode "status") = some (.string (encode "running")) :=
  member_writeMeta pausedMeta (.required "status" status (·.status)) (by simp [metaSchema])

theorem not_harmless (store : Store) {named : List String} (h : "status" ∉ "updatedAt" :: named) :
    ¬ Harmless store named (writeMeta pausedMeta) := by
  intro hharmless
  have hover : Overlaid (writeMeta pausedMeta) :=
    (overlaid_iff (decode_written pausedMeta)).mpr ⟨rfl, rfl⟩
  have hunnamed : Unnamed named (encode "status") := by
    intro name hname heq
    rw [← encode_injective heq] at hname
    exact h hname
  have hshown := hharmless.1 hover _ List.mem_cons_self hunnamed
  rw [stored_pausedMeta] at hshown
  have hunits : encode "running" = encode "paused" := Doc.string.inj (Option.some.inj hshown)
  exact absurd (encode_injective hunits) (by decide)

/-- A running session that its user paused is renamed: both stores write `paused` over the status
its host stored. -/
theorem paused_status_overwritten :
    member (writeMeta pausedMeta) (encode "status") = some (.string (encode "running")) ∧
    (∃ updated, patchQueued (writeMeta pausedMeta) rename =
        .ok (some ({ name := some "x" }, updated)) ∧
      member (writeMeta updated) (encode "status") = some (.string (encode "paused")) ∧
      ¬ Framed ["name"] (writeMeta pausedMeta) (writeMeta updated)) ∧
    ∃ updated, patchSessionMeta (writeMeta pausedMeta) [("name", some (text "x"))]
        (fun _ => .ok ()) "u" = .ok updated ∧
      ¬ Framed ["name"] (writeMeta pausedMeta) (toFields updated) := by
  have hserver : patchSessionMeta (writeMeta pausedMeta) [("name", some (text "x"))]
      (fun _ => .ok ()) "u" = .ok _ := rfl
  refine ⟨stored_pausedMeta, ⟨_, patchQueued_rename pausedMeta, ?_, ?_⟩, _, hserver, ?_⟩
  · exact member_writeMeta _ (.required "status" status (·.status)) (by simp [metaSchema])
  · exact fun h => not_harmless .client (by decide)
      ((client_frame_iff (patchQueued_rename pausedMeta)).mp h)
  · exact fun h => not_harmless .server (by decide)
      ((server_frame_iff hserver).mp h)

end Climon.Server.PatchFrame
