import Climon.Session.AttentionView

namespace Climon.Session.InputAcknowledgement

open Climon.Lib.Transition Climon.Proto.Frame Climon.Proto.Meta Climon.Session.Host
  Climon.Session.Idle Climon.Session.AttentionView

/-! # Acknowledging attention by input and by token -/

variable {G : Type} {env : HostEnv G} {s t : HostState G}

/-- All that attention is about: the flag with its token and screen, the detector, and what was
persisted. -/
structure AttentionPart where
  last : Option Bool
  matchedAt : Option String
  fingerprint : Option String
  detector : ScreenIdleDetector
  patches : List SessionMetaPatch

def attentionPart (s : HostState G) : AttentionPart :=
  ⟨s.lastAttentionState, s.currentAttentionMatchedAt, s.currentAttentionFingerprint,
    s.idleDetector, s.patches⟩

/-- The attention part after a user's acknowledgement of the screen `fp`. -/
def AttentionPart.acknowledged (p : AttentionPart) (fp : String) (nowMs : Int) (now : String)
    (stored : SessionStatus) : AttentionPart :=
  ⟨some false, none, none, p.detector.acknowledge fp nowMs,
    p.patches ++ [attentionClearedPatch stored true now]⟩

/-- The section acknowledges the attention: it is cleared, `acknowledged` is persisted unless the
session is paused, and the detector is told. -/
def Acknowledges (env : HostEnv G) (s t : HostState G) (stored : SessionStatus) : Prop :=
  attentionPart t =
    (attentionPart s).acknowledged (env.fingerprint s.grid) s.nowMs (env.nowIso s.nowMs) stored

@[simp] theorem attentionPart_broadcast (s : HostState G) (frame : HostFrame) :
    attentionPart (s.broadcast frame) = attentionPart s := rfl

@[simp] theorem attentionPart_sendToClient (s : HostState G) (n : ClientId) (frame : HostFrame) :
    attentionPart (s.sendToClient n frame) = attentionPart s := by
  unfold HostState.sendToClient
  split
  · rfl
  · split <;> rfl

@[simp] theorem attentionPart_broadcastControl (s : HostState G) :
    attentionPart s.broadcastControl = attentionPart s := by
  unfold HostState.broadcastControl
  split <;> rfl

@[simp] theorem attentionPart_updateLocalDisplaced (s : HostState G) :
    attentionPart s.updateLocalDisplaced = attentionPart s := by
  unfold HostState.updateLocalDisplaced
  dsimp only
  split_ifs <;> rfl

@[simp] theorem attentionPart_removeClient (s : HostState G) (n : ClientId) :
    attentionPart (s.removeClient n) = attentionPart s := rfl

@[simp] theorem attentionPart_modifyClient (s : HostState G) (n : ClientId) (f : Client → Client) :
    attentionPart (s.modifyClient n f) = attentionPart s := rfl

@[simp] theorem attentionPart_nextSeq (s : HostState G) (n : Nat) :
    attentionPart { s with nextSeq := n } = attentionPart s := rfl

@[simp] theorem attentionPart_writeReplay (s : HostState G) (n : ClientId) :
    attentionPart (s.writeReplay n) = attentionPart s := by
  simp [HostState.writeReplay]

@[simp] theorem attentionPart_writeInitialFrames (s : HostState G) (n : ClientId) :
    attentionPart (s.writeInitialFrames n) = attentionPart s := by
  unfold HostState.writeInitialFrames
  split
  · rfl
  · split_ifs
    · rfl
    · dsimp only
      split_ifs
      · split <;> simp
      · simp

/-! ## Input and acknowledgements -/

theorem attentionPart_input (env : HostEnv G) (s : HostState G) (n : ClientId) (payload : List UInt8)
    (stored : Option SessionStatus) :
    attentionPart (s.handleFrame env n stored (.input payload)) = attentionPart s := by
  simp only [HostState.handleFrame, input_ignored, ite_self]

theorem acknowledgement_other_token {last : Option Bool} {token other : String}
    {flaggedFp : Option String} {fp : String} (hother : other ≠ token) :
    shouldApplyUserAttentionAcknowledgement last (some token) (some other) flaggedFp fp =
      false := by
  simp [shouldApplyUserAttentionAcknowledgement, hother]

theorem acknowledgement_accepted {token fp : String} :
    shouldApplyUserAttentionAcknowledgement (some true) (some token) (some token) (some fp) fp =
      true := by
  cases hdims : fingerprintDimensions fp <;>
    simp [shouldApplyUserAttentionAcknowledgement, hdims]

theorem attentionPart_applyAttention_other {token other : String}
    (htoken : s.currentAttentionMatchedAt = some token) (hother : other ≠ token)
    (reason : Option String) (fp : String) (stored : Option SessionStatus) :
    attentionPart (s.applyAttention env ⟨false, reason, some other⟩ .user fp stored) =
      attentionPart s := by
  unfold HostState.applyAttention
  split
  · rfl
  · rw [if_pos (by simp), if_pos]
    exact ⟨rfl, by simp [htoken, acknowledgement_other_token hother]⟩

theorem attentionPart_applyAttention_token {token fp : String} (hrunning : s.exited = false)
    (hflagged : s.lastAttentionState = some true)
    (htoken : s.currentAttentionMatchedAt = some token)
    (hscreen : s.currentAttentionFingerprint = some fp) (reason : Option String)
    (stored : SessionStatus) :
    attentionPart (s.applyAttention env ⟨false, reason, some token⟩ .user fp (some stored)) =
      (attentionPart s).acknowledged fp s.nowMs (env.nowIso s.nowMs) stored := by
  unfold HostState.applyAttention
  rw [htoken, hflagged, hscreen]
  simp [hrunning, acknowledgement_accepted, attentionPart, AttentionPart.acknowledged]

/-- No input ever acknowledges a flagged session, whatever the client that controls it types;
an acknowledgement with the token of the episode does, and one with another token does nothing. -/
theorem input_never_acknowledges {token : String} (hflagged : s.lastAttentionState = some true)
    (htoken : s.currentAttentionMatchedAt = some token)
    (hscreen : s.currentAttentionFingerprint = some (env.fingerprint s.grid))
    (hrunning : s.exited = false) (n : ClientId) (stored : SessionStatus) :
    (∀ payload t, Step env s (.frame n (.input payload) (some stored)) t →
      ¬ Acknowledges env s t stored) ∧
    (∀ reason t, Step env s (.frame n (.attention ⟨false, reason, some token⟩) (some stored)) t →
      Acknowledges env s t stored) ∧
    ∀ reason other t, other ≠ token →
      Step env s (.frame n (.attention ⟨false, reason, some other⟩) (some stored)) t →
        attentionPart t = attentionPart s := by
  refine ⟨?_, ?_, ?_⟩
  · rintro payload t ⟨-, clients, -, rfl⟩ hacknowledges
    have hsame := attentionPart_input env { s with clients := clients } n payload stored
    have hlast := congrArg AttentionPart.last (hsame.symm.trans hacknowledges)
    simp [attentionPart, AttentionPart.acknowledged, hflagged] at hlast
  · rintro reason t ⟨-, clients, -, rfl⟩
    rw [Acknowledges, handle, HostState.handleFrame, attentionPart_writeInitialFrames]
    exact attentionPart_applyAttention_token (s := { s with clients := clients }) hrunning hflagged
      htoken hscreen reason stored
  · rintro reason other t hother ⟨-, clients, -, rfl⟩
    rw [handle, HostState.handleFrame, attentionPart_writeInitialFrames]
    exact attentionPart_applyAttention_other (s := { s with clients := clients }) htoken hother
      reason _ _

/-- A dashboard tab controls a session whose screen stays the same for ten seconds. -/
def flaggedWhileWatched : List Event :=
  [.connect, .frame 0 (.resize ⟨80, 24, some .dashboard, some "tab"⟩) none,
    .idleSample (some .running), .clock 10000, .idleSample (some .running)]

theorem input_never_acknowledges_watched : ∃ s,
    exec (next plainEnv) (initialState plainEnv .headless 80 24 10 false) flaggedWhileWatched =
      some s ∧
    s.lastAttentionState = some true ∧
    ∀ payload t, Step plainEnv s (.frame 0 (.input payload) (some .needsAttention)) t →
      ¬ Acknowledges plainEnv s t .needsAttention := by
  refine ⟨_, rfl, rfl, ?_⟩
  exact (input_never_acknowledges rfl rfl rfl rfl 0 .needsAttention).1

/-- The tab's input passes to the program, and the session stays flagged. -/
theorem accepted_input_ignored : ∃ s t,
    exec (next plainEnv) (initialState plainEnv .headless 80 24 10 false) flaggedWhileWatched =
      some s ∧
    s.lastAttentionState = some true ∧
    socketClientControlsInput s.controllerId ((s.getClient 0).map (·.viewerId)) = true ∧
    next plainEnv s (.frame 0 (.input [0x79]) (some .needsAttention)) = some t ∧
    ¬ Acknowledges plainEnv s t .needsAttention ∧ t.lastAttentionState = some true := by
  refine ⟨_, _, rfl, rfl, rfl, rfl, ?_, rfl⟩
  intro hacknowledges
  cases congrArg AttentionPart.last hacknowledges

end Climon.Session.InputAcknowledgement
