import Climon.Proto.Meta

namespace Climon.Store.Meta

open Climon.Proto.Meta

/-- Statuses over which a user pause renders the session as paused. -/
def isUserPausedOverlayStatus : SessionStatus → Bool
  | .running | .acknowledged | .needsAttention | .paused => true
  | _ => false

/-- Every read goes through this overlay, so a stale attention write cannot override an
explicit user pause. It is inert over terminal outcomes. -/
def applyUserPausedOverlay (sessionMeta : SessionMeta) : SessionMeta :=
  if sessionMeta.userPaused ≠ some true ∨ ¬ isUserPausedOverlayStatus sessionMeta.status then
    sessionMeta
  else
    { sessionMeta with
      status := .paused
      priorityReason := .running
      attentionMatchedAt := none
      attentionReason := none }

/-- Overwrite the fields the patch carries. The stamp on `updatedAt` is the caller's. -/
def mergePatch (base : SessionMeta) (patch : SessionMetaPatch) : SessionMeta :=
  { base with
    status := patch.status.getD base.status
    priorityReason := patch.priorityReason.getD base.priorityReason
    daemonPid := patch.daemonPid.or base.daemonPid
    lastActivityAt := patch.lastActivityAt.getD base.lastActivityAt
    attentionMatchedAt := patch.attentionMatchedAt.getD base.attentionMatchedAt
    attentionReason := patch.attentionReason.getD base.attentionReason
    completedAt := patch.completedAt.or base.completedAt
    exitCode := patch.exitCode.or base.exitCode
    error := patch.error.or base.error
    socketPath := patch.socketPath.getD base.socketPath
    cols := patch.cols.getD base.cols
    rows := patch.rows.getD base.rows
    name := patch.name.or base.name
    priority := patch.priority.or base.priority
    color := patch.color.or base.color
    theme := patch.theme.getD base.theme
    userPaused := patch.userPaused.or base.userPaused
    terminalTitle := patch.terminalTitle.or base.terminalTitle
    attentionSnippet := patch.attentionSnippet.getD base.attentionSnippet
    progress := patch.progress.getD base.progress }

end Climon.Store.Meta
