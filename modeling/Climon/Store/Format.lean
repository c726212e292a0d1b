import Climon.Lib.JsonSchema
import Climon.Proto.Meta

namespace Climon.Store.Format

open Climon.Lib.JavaScript Climon.Lib.JavaScript.JsValue Climon.Lib.JsonAgreement
  Climon.Lib.JsonDocument Climon.Lib.JsonSchema Climon.Proto.Meta

/-!
# The metadata file format

A metadata file holds one JSON object. `decodeMeta` is the derived decoder of `SessionMeta`,
`writeMeta` the derived serialiser, which leaves absent optional fields out.
-/

def status : Codec SessionStatus :=
  .named (ofName SessionStatus.all SessionStatus.name) SessionStatus.name
    (fun a => by cases a <;> rfl) fun h => (ofName_some h).2

def priorityReason : Codec PriorityReason :=
  .named (ofName PriorityReason.all PriorityReason.name) PriorityReason.name
    (fun a => by cases a <;> rfl) fun h => (ofName_some h).2

def color : Codec AnsiColor :=
  .named (ofName AnsiColor.all AnsiColor.name) AnsiColor.name
    (fun a => by cases a <;> rfl) fun h => (ofName_some h).2

def origin : Codec Origin :=
  .named (ofName Origin.all Origin.name) Origin.name
    (fun a => by cases a <;> rfl) fun h => (ofName_some h).2

def progressState : Codec ProgressState :=
  .named (ofName ProgressState.all ProgressState.name) ProgressState.name
    (fun a => by cases a <;> rfl) fun h => (ofName_some h).2

def progressSchema : Schema TerminalProgress :=
  [.required "state" progressState (·.state), .optional "value" .uint8 (·.value)]

def decodeProgress (fields : Fields) : Option TerminalProgress :=
  if fields.wellFormed progressSchema.keys then do
    let state ← fields.required progressState.asValue "state"
    let value ← fields.optional Codec.uint8.asValue "value"
    some ⟨state, value⟩
  else none

theorem decodeProgress_eq_some_iff (fields : Fields) (p : TerminalProgress) :
    decodeProgress fields = some p ↔ progressSchema.Decodes fields p := by
  unfold decodeProgress
  constructor
  · intro h
    split at h
    next hfields =>
      obtain ⟨state, hstate, h⟩ := Option.bind_eq_some_iff.mp h
      obtain ⟨value, hvalue, h⟩ := Option.bind_eq_some_iff.mp h
      cases h
      refine ⟨hfields, ?_⟩
      simp only [progressSchema, List.forall_mem_cons]
      exact ⟨hstate, hvalue, nofun⟩
    next => cases h
  · rintro ⟨hfields, h⟩
    simp only [progressSchema, List.forall_mem_cons] at h
    obtain ⟨hstate, hvalue, -⟩ := h
    have hstate : fields.required progressState.asValue "state" = some p.state := hstate
    have hvalue : fields.optional Codec.uint8.asValue "value" = some p.value := hvalue
    rw [if_pos hfields, hstate, hvalue]
    rfl

def progress : Codec TerminalProgress :=
  .record progressSchema (by decide) decodeProgress decodeProgress_eq_some_iff

/-- The fields of `SessionMeta` in order. -/
def metaSchema : Schema SessionMeta :=
  [ .required "id" .text (·.id),
    .required "command" .texts (·.command),
    .required "displayCommand" .text (·.displayCommand),
    .required "cwd" .text (·.cwd),
    .required "status" status (·.status),
    .required "priorityReason" priorityReason (·.priorityReason),
    .optional "daemonPid" .uint32 (·.daemonPid),
    .required "cols" .uint16 (·.cols),
    .required "rows" .uint16 (·.rows),
    .optional "headless" .bool (·.headless),
    .required "socketPath" .text (·.socketPath),
    .optional "clientVersion" .text (·.clientVersion),
    .required "createdAt" .text (·.createdAt),
    .required "updatedAt" .text (·.updatedAt),
    .required "lastActivityAt" .text (·.lastActivityAt),
    .optional "attentionMatchedAt" .text (·.attentionMatchedAt),
    .optional "attentionReason" .text (·.attentionReason),
    .optional "completedAt" .text (·.completedAt),
    .optional "exitCode" .int32 (·.exitCode),
    .optional "error" .text (·.error),
    .optional "origin" origin (·.origin),
    .optional "clientLabel" .text (·.clientLabel),
    .optional "name" .text (·.name),
    .optional "priority" .uint16 (·.priority),
    .doubleOption "color" color (·.color),
    .optional "theme" .text (·.theme),
    .optional "userPaused" .bool (·.userPaused),
    .optional "terminalTitle" .text (·.terminalTitle),
    .optional "attentionSnippet" .text (·.attentionSnippet),
    .optional "progress" progress (·.progress) ]

def decodeMeta (fields : Fields) : Option SessionMeta :=
  if fields.wellFormed metaSchema.keys then do
    let id ← fields.required Codec.text.asValue "id"
    let command ← fields.required Codec.texts.asValue "command"
    let displayCommand ← fields.required Codec.text.asValue "displayCommand"
    let cwd ← fields.required Codec.text.asValue "cwd"
    let status ← fields.required status.asValue "status"
    let priorityReason ← fields.required priorityReason.asValue "priorityReason"
    let daemonPid ← fields.optional Codec.uint32.asValue "daemonPid"
    let cols ← fields.required Codec.uint16.asValue "cols"
    let rows ← fields.required Codec.uint16.asValue "rows"
    let headless ← fields.optional Codec.bool.asValue "headless"
    let socketPath ← fields.required Codec.text.asValue "socketPath"
    let clientVersion ← fields.optional Codec.text.asValue "clientVersion"
    let createdAt ← fields.required Codec.text.asValue "createdAt"
    let updatedAt ← fields.required Codec.text.asValue "updatedAt"
    let lastActivityAt ← fields.required Codec.text.asValue "lastActivityAt"
    let attentionMatchedAt ← fields.optional Codec.text.asValue "attentionMatchedAt"
    let attentionReason ← fields.optional Codec.text.asValue "attentionReason"
    let completedAt ← fields.optional Codec.text.asValue "completedAt"
    let exitCode ← fields.optional Codec.int32.asValue "exitCode"
    let error ← fields.optional Codec.text.asValue "error"
    let origin ← fields.optional origin.asValue "origin"
    let clientLabel ← fields.optional Codec.text.asValue "clientLabel"
    let name ← fields.optional Codec.text.asValue "name"
    let priority ← fields.optional Codec.uint16.asValue "priority"
    let color ← fields.doubleOption color.asValue "color"
    let theme ← fields.optional Codec.text.asValue "theme"
    let userPaused ← fields.optional Codec.bool.asValue "userPaused"
    let terminalTitle ← fields.optional Codec.text.asValue "terminalTitle"
    let attentionSnippet ← fields.optional Codec.text.asValue "attentionSnippet"
    let progress ← fields.optional progress.asValue "progress"
    some ⟨id, command, displayCommand, cwd, status, priorityReason, daemonPid, cols, rows,
      headless, socketPath, clientVersion, createdAt, updatedAt, lastActivityAt,
      attentionMatchedAt, attentionReason, completedAt, exitCode, error, origin, clientLabel,
      name, priority, color, theme, userPaused, terminalTitle, attentionSnippet, progress⟩
  else none

def writeMeta (sessionMeta : SessionMeta) : Fields := metaSchema.write sessionMeta

theorem decodeMeta_eq_some_iff (fields : Fields) (sessionMeta : SessionMeta) :
    decodeMeta fields = some sessionMeta ↔ metaSchema.Decodes fields sessionMeta := by
  unfold decodeMeta
  constructor
  · intro h
    split at h
    next hfields =>
      obtain ⟨id, hid, h⟩ := Option.bind_eq_some_iff.mp h
      obtain ⟨command, hcommand, h⟩ := Option.bind_eq_some_iff.mp h
      obtain ⟨displayCommand, hdisplayCommand, h⟩ := Option.bind_eq_some_iff.mp h
      obtain ⟨cwd, hcwd, h⟩ := Option.bind_eq_some_iff.mp h
      obtain ⟨status, hstatus, h⟩ := Option.bind_eq_some_iff.mp h
      obtain ⟨priorityReason, hpriorityReason, h⟩ := Option.bind_eq_some_iff.mp h
      obtain ⟨daemonPid, hdaemonPid, h⟩ := Option.bind_eq_some_iff.mp h
      obtain ⟨cols, hcols, h⟩ := Option.bind_eq_some_iff.mp h
      obtain ⟨rows, hrows, h⟩ := Option.bind_eq_some_iff.mp h
      obtain ⟨headless, hheadless, h⟩ := Option.bind_eq_some_iff.mp h
      obtain ⟨socketPath, hsocketPath, h⟩ := Option.bind_eq_some_iff.mp h
      obtain ⟨clientVersion, hclientVersion, h⟩ := Option.bind_eq_some_iff.mp h
      obtain ⟨createdAt, hcreatedAt, h⟩ := Option.bind_eq_some_iff.mp h
      obtain ⟨updatedAt, hupdatedAt, h⟩ := Option.bind_eq_some_iff.mp h
      obtain ⟨lastActivityAt, hlastActivityAt, h⟩ := Option.bind_eq_some_iff.mp h
      obtain ⟨attentionMatchedAt, hattentionMatchedAt, h⟩ := Option.bind_eq_some_iff.mp h
      obtain ⟨attentionReason, hattentionReason, h⟩ := Option.bind_eq_some_iff.mp h
      obtain ⟨completedAt, hcompletedAt, h⟩ := Option.bind_eq_some_iff.mp h
      obtain ⟨exitCode, hexitCode, h⟩ := Option.bind_eq_some_iff.mp h
      obtain ⟨error, herror, h⟩ := Option.bind_eq_some_iff.mp h
      obtain ⟨origin, horigin, h⟩ := Option.bind_eq_some_iff.mp h
      obtain ⟨clientLabel, hclientLabel, h⟩ := Option.bind_eq_some_iff.mp h
      obtain ⟨name, hname, h⟩ := Option.bind_eq_some_iff.mp h
      obtain ⟨priority, hpriority, h⟩ := Option.bind_eq_some_iff.mp h
      obtain ⟨color, hcolor, h⟩ := Option.bind_eq_some_iff.mp h
      obtain ⟨theme, htheme, h⟩ := Option.bind_eq_some_iff.mp h
      obtain ⟨userPaused, huserPaused, h⟩ := Option.bind_eq_some_iff.mp h
      obtain ⟨terminalTitle, hterminalTitle, h⟩ := Option.bind_eq_some_iff.mp h
      obtain ⟨attentionSnippet, hattentionSnippet, h⟩ := Option.bind_eq_some_iff.mp h
      obtain ⟨progress, hprogress, h⟩ := Option.bind_eq_some_iff.mp h
      cases h
      refine ⟨hfields, ?_⟩
      simp only [metaSchema, List.forall_mem_cons]
      exact ⟨hid, hcommand, hdisplayCommand, hcwd, hstatus, hpriorityReason, hdaemonPid,
        hcols, hrows, hheadless, hsocketPath, hclientVersion, hcreatedAt, hupdatedAt,
        hlastActivityAt, hattentionMatchedAt, hattentionReason, hcompletedAt, hexitCode,
        herror, horigin, hclientLabel, hname, hpriority, hcolor, htheme, huserPaused,
        hterminalTitle, hattentionSnippet, hprogress, nofun⟩
    next => cases h
  · rintro ⟨hfields, h⟩
    simp only [metaSchema, List.forall_mem_cons, RecordField.required, RecordField.optional,
      RecordField.doubleOption] at h
    obtain ⟨hid, hcommand, hdisplayCommand, hcwd, hstatus, hpriorityReason, hdaemonPid,
      hcols, hrows, hheadless, hsocketPath, hclientVersion, hcreatedAt, hupdatedAt,
      hlastActivityAt, hattentionMatchedAt, hattentionReason, hcompletedAt, hexitCode,
      herror, horigin, hclientLabel, hname, hpriority, hcolor, htheme, huserPaused,
      hterminalTitle, hattentionSnippet, hprogress, -⟩ := h
    rw [if_pos hfields]
    simp only [hid, hcommand, hdisplayCommand, hcwd, hstatus, hpriorityReason, hdaemonPid,
      hcols, hrows, hheadless, hsocketPath, hclientVersion, hcreatedAt, hupdatedAt,
      hlastActivityAt, hattentionMatchedAt, hattentionReason, hcompletedAt, hexitCode,
      herror, horigin, hclientLabel, hname, hpriority, hcolor, htheme, huserPaused,
      hterminalTitle, hattentionSnippet, hprogress, Option.bind_eq_bind, Option.bind_some]

end Climon.Store.Format
