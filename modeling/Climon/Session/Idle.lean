import Mathlib.Data.List.Basic

namespace Climon.Session.Idle

/-! # Attention: fingerprints and the screen idle detector -/

/-- The `{cols}x{rows}` line in front of a fingerprint and what follows it, if it is there. -/
def splitHeader (fp : String) : Option (List Char × List Char) :=
  let header := fp.toList.takeWhile (· != '\n')
  let rest := fp.toList.drop header.length
  if rest ≠ [] ∧ header.contains 'x' then some (header, rest.drop 1) else none

def fingerprintDimensions (fp : String) : Option String :=
  (splitHeader fp).map fun parts => String.ofList parts.1

def fingerprintBody (fp : String) : String :=
  match splitHeader fp with
  | some (_, body) => String.ofList body
  | none => fp

/-- An acknowledgement must name the outstanding token, and the screen must be the flagged one
unless a resize reflowed it. -/
def shouldApplyUserAttentionAcknowledgement (lastAttentionState : Option Bool)
    (currentAttentionMatchedAt acknowledgedAttentionMatchedAt attentionFingerprint : Option String)
    (currentFingerprint : String) : Bool :=
  if lastAttentionState ≠ some true ∨ currentAttentionMatchedAt = none ∨
      acknowledgedAttentionMatchedAt ≠ currentAttentionMatchedAt then false
  else
    match attentionFingerprint with
    | none => false
    | some attentionFp =>
      match fingerprintDimensions attentionFp, fingerprintDimensions currentFingerprint with
      | some a, some c => if a ≠ c then true else currentFingerprint == attentionFp
      | _, _ => currentFingerprint == attentionFp

structure IdleTransition where
  needsAttention : Bool
  reason : Option String
  deriving DecidableEq, Repr

def resizeSettleMs : Int := 2000

structure ScreenIdleDetector where
  idleMs : Int
  lastFingerprint : Option String
  lastChangeAt : Int
  flagged : Bool
  acknowledged : Bool
  settleUntil : Int
  deriving DecidableEq, Repr

namespace ScreenIdleDetector

def new (idleSeconds : Int) : ScreenIdleDetector :=
  ⟨idleSeconds * 1000, none, 0, false, false, 0⟩

def update (d : ScreenIdleDetector) (fingerprint : String) (now : Int) :
    Option IdleTransition × ScreenIdleDetector :=
  if d.idleMs ≤ 0 then (none, d)
  else
    match d.lastFingerprint with
    | none => (none, { d with lastFingerprint := some fingerprint, lastChangeAt := now })
    | some last =>
      let d := { d with lastFingerprint := some fingerprint }
      if fingerprintBody last ≠ fingerprintBody fingerprint then
        -- within the settle window a change is the child's redraw after a resize
        if now < d.settleUntil then (none, d)
        else
          let wasActive := d.flagged || d.acknowledged
          let d := { d with lastChangeAt := now, flagged := false, acknowledged := false }
          (if wasActive then some ⟨false, none⟩ else none, d)
      else if d.acknowledged then (none, d)
      else if ¬ d.flagged ∧ d.idleMs ≤ now - d.lastChangeAt then
        (some ⟨true, some s!"Screen idle for {d.idleMs / 1000}s"⟩, { d with flagged := true })
      else (none, d)

def acknowledge (d : ScreenIdleDetector) (fingerprint : String) (now : Int) :
    ScreenIdleDetector :=
  if d.idleMs ≤ 0 ∨ d.lastFingerprint = none then d
  else
    { d with
      flagged := false, acknowledged := true, lastFingerprint := some fingerprint,
      lastChangeAt := now }

def absorbResize (d : ScreenIdleDetector) (fingerprint : String) (now : Int) :
    ScreenIdleDetector :=
  if d.idleMs ≤ 0 ∨ d.lastFingerprint = none then d
  else { d with lastFingerprint := some fingerprint, settleUntil := now + resizeSettleMs }

end ScreenIdleDetector

end Climon.Session.Idle
