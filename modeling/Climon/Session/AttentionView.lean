import Climon.Session.Surfaces

namespace Climon.Session.AttentionView

open Climon.Proto.Frame Climon.Proto.Meta Climon.Session.Control Climon.Session.Host
  Climon.Session.Idle

/-! # What leaves the attention state alone -/

variable {G : Type}

/-- The detector has seen a screen and is switched on. -/
def Armed (d : ScreenIdleDetector) : Prop := 0 < d.idleMs ∧ d.lastFingerprint ≠ none

/-- The patch carries neither a status nor an exit code. -/
def Unmarked (patch : SessionMetaPatch) : Prop := patch.status = none ∧ patch.exitCode = none

/-- `t` has the attention state of `s`, and the patches made on the way are unmarked. -/
structure Quiet (s t : HostState G) : Prop where
  last : t.lastAttentionState = s.lastAttentionState
  flagged : t.idleDetector.flagged = s.idleDetector.flagged
  armed : Armed s.idleDetector → Armed t.idleDetector
  exited : t.exited = s.exited
  patches : ∃ new, t.patches = s.patches ++ new ∧ ∀ patch ∈ new, Unmarked patch

/-- Neither the detector nor the host's attention nor its patches are touched. -/
theorem Quiet.of_eq {s t : HostState G} (hlast : t.lastAttentionState = s.lastAttentionState)
    (hdetector : t.idleDetector = s.idleDetector) (hexited : t.exited = s.exited)
    (hpatches : t.patches = s.patches) : Quiet s t where
  last := hlast
  flagged := by rw [hdetector]
  armed := by
    rw [hdetector]
    exact id
  exited := hexited
  patches := ⟨[], by rw [hpatches, List.append_nil], fun _ h => absurd h List.not_mem_nil⟩

theorem Quiet.refl (s : HostState G) : Quiet s s := .of_eq rfl rfl rfl rfl

theorem Quiet.trans {s t u : HostState G} (h : Quiet s t) (k : Quiet t u) : Quiet s u where
  last := k.last.trans h.last
  flagged := k.flagged.trans h.flagged
  armed := k.armed ∘ h.armed
  exited := k.exited.trans h.exited
  patches := by
    obtain ⟨first, hfirst, hquiet⟩ := h.patches
    obtain ⟨second, hsecond, hlater⟩ := k.patches
    refine ⟨first ++ second, by rw [hsecond, hfirst, List.append_assoc], fun patch hpatch => ?_⟩
    exact (List.mem_append.mp hpatch).elim (hquiet patch) (hlater patch)

theorem sendToClient_quiet (s : HostState G) (n : ClientId) (frame : HostFrame) :
    Quiet s (s.sendToClient n frame) := by
  unfold HostState.sendToClient
  split
  · exact .refl s
  · split <;> exact .of_eq rfl rfl rfl rfl

theorem broadcast_quiet (s : HostState G) (frame : HostFrame) : Quiet s (s.broadcast frame) :=
  .of_eq rfl rfl rfl rfl

theorem broadcastControl_quiet (s : HostState G) : Quiet s s.broadcastControl := by
  unfold HostState.broadcastControl
  split
  · exact broadcast_quiet s _
  · exact .refl s

theorem writeReplay_quiet (s : HostState G) (n : ClientId) : Quiet s (s.writeReplay n) :=
  (sendToClient_quiet s n _).trans (sendToClient_quiet _ n _)

theorem updateLocalDisplaced_quiet (s : HostState G) : Quiet s s.updateLocalDisplaced := by
  unfold HostState.updateLocalDisplaced
  split
  · exact .refl s
  split
  · dsimp only
    split <;> exact .of_eq rfl rfl rfl rfl
  · split <;> exact .of_eq rfl rfl rfl rfl

theorem absorbResize_armed {d : ScreenIdleDetector} (fingerprint : String) (now : Int)
    (h : Armed d) : Armed (d.absorbResize fingerprint now) := by
  unfold ScreenIdleDetector.absorbResize
  split
  · exact h
  · exact ⟨h.1, nofun⟩

theorem absorbResize_flagged (d : ScreenIdleDetector) (fingerprint : String) (now : Int) :
    (d.absorbResize fingerprint now).flagged = d.flagged := by
  unfold ScreenIdleDetector.absorbResize
  split <;> rfl

/-- A resize is absorbed by the detector and patches the size only. -/
theorem setPtySize_quiet (env : HostEnv G) (s : HostState G) (cols rows : UInt16) :
    Quiet s (s.setPtySize env cols rows) := by
  unfold HostState.setPtySize
  dsimp only
  refine Quiet.trans ?_ (updateLocalDisplaced_quiet _)
  split
  · refine Quiet.trans ?_ (broadcast_quiet _ _)
    refine ⟨rfl, absorbResize_flagged _ _ _, absorbResize_armed _ _, rfl, [sizePatch cols rows],
      rfl, fun patch hpatch => ?_⟩
    rw [List.mem_singleton.mp hpatch]
    exact ⟨rfl, rfl⟩
  · exact .of_eq rfl rfl rfl rfl

theorem requestJiggle_quiet (s : HostState G) : Quiet s s.requestJiggle := by
  unfold HostState.requestJiggle
  split <;> exact .of_eq rfl rfl rfl rfl

theorem takeControl_quiet (env : HostEnv G) (s : HostState G) (viewerId : String) :
    Quiet s (s.takeControl env viewerId) := by
  unfold HostState.takeControl
  split
  · exact .refl s
  · next cols rows _ =>
    dsimp only
    refine Quiet.trans ?_ (broadcastControl_quiet _)
    have hset : Quiet s ({ s with controllerId := some viewerId }.setPtySize env cols rows) := by
      refine Quiet.trans ?_ (setPtySize_quiet env _ cols rows)
      exact .of_eq rfl rfl rfl rfl
    split
    · exact hset.trans (requestJiggle_quiet _)
    · exact hset

theorem applyResize_quiet (env : HostEnv G) (s : HostState G) (size : ResizePayload) :
    Quiet s (s.applyResize env size) := by
  have hclaim : Quiet s ((s.recordSize (size.viewerId.getD "local") (max1 size.cols)
      (max1 size.rows)).claimControl (size.viewerId.getD "local")) := by
    unfold HostState.recordSize HostState.claimControl
    split <;> split <;> exact .of_eq rfl rfl rfl rfl
  unfold HostState.applyResize
  dsimp only
  refine Quiet.trans (hclaim.trans ?_) (broadcastControl_quiet _)
  split
  · exact setPtySize_quiet env _ _ _
  · split
    · exact updateLocalDisplaced_quiet _
    · exact .refl _

theorem recomputeController_quiet (env : HostEnv G) (s : HostState G) :
    Quiet s (s.recomputeController env) := by
  unfold HostState.recomputeController
  split
  · exact .refl s
  · split
    · refine Quiet.trans (Quiet.trans ?_ (setPtySize_quiet env _ _ _)) (broadcastControl_quiet _)
      exact .of_eq rfl rfl rfl rfl
    · exact .of_eq rfl rfl rfl rfl

theorem writeInitialFrames_quiet (s : HostState G) (n : ClientId) :
    Quiet s (s.writeInitialFrames n) := by
  unfold HostState.writeInitialFrames
  split
  · exact .refl s
  split
  · exact .refl s
  dsimp only
  have hjoin : Quiet s ({ s with nextSeq := s.nextSeq + 1 }.modifyClient n fun c =>
      { c with inClients := true, seq := s.nextSeq }) := .of_eq rfl rfl rfl rfl
  have htold := ((hjoin.trans (writeReplay_quiet _ n)).trans
    (updateLocalDisplaced_quiet _)).trans (broadcastControl_quiet _)
  refine htold.trans ?_
  split
  · have hremove (t : HostState G) : Quiet t (t.removeClient n) := .of_eq rfl rfl rfl rfl
    refine Quiet.trans ?_ (hremove _)
    split
    · exact sendToClient_quiet _ n _
    · exact .refl _
  · exact .refl _

theorem restoreTick_quiet (s : HostState G) : Quiet s s.restoreTick := by
  have hrestore : Quiet s s.restoreLocal := by
    unfold HostState.restoreLocal
    split
    · exact .refl s
    · exact .of_eq rfl rfl rfl rfl
    · refine Quiet.trans ?_ (requestJiggle_quiet _)
      exact .of_eq rfl rfl rfl rfl
  unfold HostState.restoreTick
  split
  · exact .refl s
  · refine hrestore.trans ?_
    unfold HostState.jiggleTick
    split <;> exact .of_eq rfl rfl rfl rfl

/-- An acknowledgement that names no token is never accepted. -/
theorem acknowledgement_without_token (last : Option Bool) (matchedAt flaggedFp : Option String)
    (fp : String) :
    shouldApplyUserAttentionAcknowledgement last matchedAt none flaggedFp fp = false := by
  unfold shouldApplyUserAttentionAcknowledgement
  rw [if_pos]
  cases matchedAt with
  | none => exact .inr (.inl rfl)
  | some token => exact .inr (.inr nofun)

theorem input_ignored (env : HostEnv G) (s : HostState G) (reason : Option String) (fp : String)
    (stored : Option SessionStatus) :
    s.applyAttention env ⟨false, reason, none⟩ .user fp stored = s := by
  unfold HostState.applyAttention
  split
  · rfl
  · rw [if_pos (by simp), if_pos]
    exact ⟨rfl, by simp [acknowledgement_without_token]⟩

/-- The events that bear on attention; any other leaves it alone. -/
def attentive : Event → Bool
  | .frame _ (.attention _) _ => true
  | .idleSample _ => true
  | .exit _ => true
  | _ => false

theorem handleFrame_quiet (env : HostEnv G) (s : HostState G) (n : ClientId) {frame : ClientFrame}
    {stored : Option SessionStatus} (h : attentive (.frame n frame stored) = false) :
    Quiet s (s.handleFrame env n stored frame) := by
  cases frame with
  | input payload =>
    simp only [HostState.handleFrame, input_ignored, ite_self]
    exact .refl s
  | resize size =>
    have hstamp : Quiet s (s.stampResize n size).1 := by
      unfold HostState.stampResize
      split <;> exact .of_eq rfl rfl rfl rfl
    exact (hstamp.trans (applyResize_quiet env _ _)).trans (writeInitialFrames_quiet _ n)
  | takeControl =>
    simp only [HostState.handleFrame]
    split
    · exact .refl s
    · split
      · exact .refl s
      · exact takeControl_quiet env s _
  | attention payload => cases h
  | replay => exact writeReplay_quiet s n
  | other => exact .refl s

theorem handle_quiet (env : HostEnv G) (s : HostState G) {e : Event} (h : attentive e = false) :
    Quiet s (handle env s e) := by
  cases e with
  | connect => exact .of_eq rfl rfl rfl rfl
  | initialFramesTimer n => exact writeInitialFrames_quiet s n
  | frame n frame stored => exact handleFrame_quiet env s n h
  | disconnect n =>
    refine Quiet.trans ?_ (recomputeController_quiet env _)
    exact .of_eq rfl rfl rfl rfl
  | writerDies n => exact .of_eq rfl rfl rfl rfl
  | localResize cols rows => exact applyResize_quiet env s _
  | localStdin bytes =>
    simp only [handle, HostState.localStdin]
    split
    · exact takeControl_quiet env s "local"
    · exact .refl s
    · exact .refl s
  | output data =>
    simp only [handle, HostState.handleOutput]
    split <;> exact .of_eq rfl rfl rfl rfl
  | restoreTick => exact restoreTick_quiet s
  | idleSample stored => cases h
  | clock now => exact .of_eq rfl rfl rfl rfl
  | exit exitCode => cases h

private theorem idleSample_exited (env : HostEnv G) (s : HostState G) (stored : Option SessionStatus)
    (h : s.exited = true) : (s.idleSample env stored).exited = true := by
  unfold HostState.idleSample
  rwa [if_pos h]

theorem teardown_exited (env : HostEnv G) (s : HostState G) (exitCode : Int32) :
    (s.teardown env exitCode).exited = true := by
  unfold HostState.teardown
  dsimp only
  split <;> rfl

/-- The exit is final. -/
theorem handle_exited (env : HostEnv G) {s : HostState G} (h : s.exited = true) (e : Event) :
    (handle env s e).exited = true := by
  cases hattentive : attentive e with
  | false => exact (handle_quiet env s hattentive).exited.trans h
  | true =>
    cases e with
    | idleSample stored => exact idleSample_exited env s stored h
    | exit exitCode => exact teardown_exited env s exitCode
    | frame n frame stored =>
      cases frame with
      | attention payload =>
        simp only [handle, HostState.handleFrame]
        rw [(writeInitialFrames_quiet _ n).exited]
        unfold HostState.applyAttention
        rwa [if_pos h]
      | _ => cases hattentive
    | _ => cases hattentive

end Climon.Session.AttentionView
