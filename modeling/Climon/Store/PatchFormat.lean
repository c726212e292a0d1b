import Climon.Store.Format
import Climon.Store.Meta

namespace Climon.Store.PatchFormat

open Climon.Lib.JsonDocument Climon.Lib.JsonSchema Climon.Proto.Meta Climon.Store.Format

/-! # Patches as JSON objects -/

/-- The fields of `SessionMetaPatch` in order. -/
def patchSchema : Schema SessionMetaPatch :=
  [ .optional "status" status (·.status),
    .optional "priorityReason" priorityReason (·.priorityReason),
    .optional "daemonPid" .uint32 (·.daemonPid),
    .optional "lastActivityAt" .text (·.lastActivityAt),
    .doubleOption "attentionMatchedAt" .text (·.attentionMatchedAt),
    .doubleOption "attentionReason" .text (·.attentionReason),
    .optional "completedAt" .text (·.completedAt),
    .optional "exitCode" .int32 (·.exitCode),
    .optional "error" .text (·.error),
    .optional "socketPath" .text (·.socketPath),
    .optional "cols" .uint16 (·.cols),
    .optional "rows" .uint16 (·.rows),
    .optional "name" .text (·.name),
    .optional "priority" .uint16 (·.priority),
    .doubleOption "color" color (·.color),
    .doubleOption "theme" .text (·.theme),
    .optional "userPaused" .bool (·.userPaused),
    .optional "terminalTitle" .text (·.terminalTitle),
    .doubleOption "attentionSnippet" .text (·.attentionSnippet),
    .doubleOption "progress" progress (·.progress) ]

def decodePatch (fields : Fields) : Option SessionMetaPatch :=
  if fields.wellFormed patchSchema.keys then do
    let status ← fields.optional status.asValue "status"
    let priorityReason ← fields.optional priorityReason.asValue "priorityReason"
    let daemonPid ← fields.optional Codec.uint32.asValue "daemonPid"
    let lastActivityAt ← fields.optional Codec.text.asValue "lastActivityAt"
    let attentionMatchedAt ← fields.doubleOption Codec.text.asValue "attentionMatchedAt"
    let attentionReason ← fields.doubleOption Codec.text.asValue "attentionReason"
    let completedAt ← fields.optional Codec.text.asValue "completedAt"
    let exitCode ← fields.optional Codec.int32.asValue "exitCode"
    let error ← fields.optional Codec.text.asValue "error"
    let socketPath ← fields.optional Codec.text.asValue "socketPath"
    let cols ← fields.optional Codec.uint16.asValue "cols"
    let rows ← fields.optional Codec.uint16.asValue "rows"
    let name ← fields.optional Codec.text.asValue "name"
    let priority ← fields.optional Codec.uint16.asValue "priority"
    let color ← fields.doubleOption color.asValue "color"
    let theme ← fields.doubleOption Codec.text.asValue "theme"
    let userPaused ← fields.optional Codec.bool.asValue "userPaused"
    let terminalTitle ← fields.optional Codec.text.asValue "terminalTitle"
    let attentionSnippet ← fields.doubleOption Codec.text.asValue "attentionSnippet"
    let progress ← fields.doubleOption progress.asValue "progress"
    some ⟨status, priorityReason, daemonPid, lastActivityAt, attentionMatchedAt, attentionReason,
      completedAt, exitCode, error, socketPath, cols, rows, name, priority, color, theme,
      userPaused, terminalTitle, attentionSnippet, progress⟩
  else none

def writePatch (patch : SessionMetaPatch) : Fields := patchSchema.write patch

theorem decodePatch_of_decodes {fields : Fields} {patch : SessionMetaPatch}
    (h : patchSchema.Decodes fields patch) : decodePatch fields = some patch := by
  have hfields := h.fields
  unfold decodePatch
  rw [if_pos h.wellFormed]
  simp only [patchSchema, List.forall_mem_cons, RecordField.optional,
    RecordField.doubleOption] at hfields
  obtain ⟨hstatus, hpriorityReason, hdaemonPid, hlastActivityAt, hattentionMatchedAt,
    hattentionReason, hcompletedAt, hexitCode, herror, hsocketPath, hcols, hrows, hname,
    hpriority, hcolor, htheme, huserPaused, hterminalTitle, hattentionSnippet, hprogress, -⟩ :=
      hfields
  simp only [hstatus, hpriorityReason, hdaemonPid, hlastActivityAt, hattentionMatchedAt,
    hattentionReason, hcompletedAt, hexitCode, herror, hsocketPath, hcols, hrows, hname,
    hpriority, hcolor, htheme, huserPaused, hterminalTitle, hattentionSnippet, hprogress,
    Option.bind_eq_bind, Option.bind_some]

/-- What is written of a patch reads as the patch, nulls and absent fields told apart. -/
@[simp] theorem decodePatch_writePatch (patch : SessionMetaPatch) :
    decodePatch (writePatch patch) = some patch :=
  decodePatch_of_decodes (decodes_write (by decide))

@[simp] theorem decodeMeta_writeMeta (sessionMeta : SessionMeta) :
    decodeMeta (writeMeta sessionMeta) = some sessionMeta :=
  (decodeMeta_eq_some_iff _ _).mpr (decodes_write (by decide))

end Climon.Store.PatchFormat
