import Mathlib.Data.List.Induction
import Climon.Session.AttachRuns

namespace Climon.Session.LastReplay

open Climon.Lib.Transition Climon.Proto.Frame Climon.Session.Host Climon.Session.Surfaces
  Climon.Session.AttachStream Climon.Session.AttachRuns

/-!
# The last replay

A client may ask for a replay at any time. What it shows from the last one on is the whole session:
all that was captured before, and then every chunk.
-/

def replayData : HostFrame → Option (List UInt8)
  | .replay payload => some payload
  | _ => none

def replays (frames : List HostFrame) : List (List UInt8) := frames.filterMap replayData

def onFrame (last : Option (List UInt8 × List (List UInt8))) :
    HostFrame → Option (List UInt8 × List (List UInt8))
  | .replay payload => some (payload, [])
  | .output data => last.map fun (payload, after) => (payload, after ++ [data])
  | _ => last

/-- The last replay of a queue and the output behind it. -/
def lastReplay (frames : List HostFrame) : Option (List UInt8 × List (List UInt8)) :=
  frames.foldl onFrame none

section

variable {last : Option (List UInt8 × List (List UInt8))} {payload : List UInt8}
  {after : List (List UInt8)} {frames ext : List HostFrame}

theorem lastReplay_concat (frame : HostFrame) :
    lastReplay (frames ++ [frame]) = onFrame (lastReplay frames) frame := by
  rw [lastReplay, List.foldl_append]
  rfl

/-- Without output, a queue goes on as it was, or anew from one of its replays. -/
theorem lastReplay_append_of_outputs (h : outputs ext = []) :
    lastReplay (frames ++ ext) = lastReplay frames ∧ replays ext = [] ∨
      ∃ payload ∈ replays ext, lastReplay (frames ++ ext) = some (payload, []) := by
  induction ext using List.reverseRecOn with
  | nil => exact .inl ⟨by rw [List.append_nil], rfl⟩
  | append_singleton ext frame ih =>
    unfold outputs at h ih
    rw [List.filterMap_append, List.append_eq_nil_iff] at h
    have hrest := ih h.1
    rw [← List.append_assoc, lastReplay_concat]
    unfold replays at hrest ⊢
    rw [List.filterMap_append]
    cases frame with
    | output data => cases h.2
    | replay payload =>
      exact .inr ⟨payload, List.mem_append_right _ (List.mem_singleton_self _), rfl⟩
    | _ => simpa [onFrame, replayData] using hrest

theorem lastReplay_eq_some (h : lastReplay frames = some (payload, after)) :
    ∃ pre post, frames = pre ++ .replay payload :: post ∧ outputs post = after ∧
      replays post = [] := by
  induction frames using List.reverseRecOn generalizing after with
  | nil => cases h
  | append_singleton frames frame ih =>
    rw [lastReplay_concat] at h
    have hgrow {later : List (List UInt8)} (hlast : lastReplay frames = some (payload, later))
        (hafter : after = later ++ (outputData frame).toList) (hnone : replayData frame = none) :
        ∃ pre post, frames ++ [frame] = pre ++ .replay payload :: post ∧
          outputs post = after ∧ replays post = [] := by
      obtain ⟨pre, post, rfl, hout, hreplays⟩ := ih hlast
      refine ⟨pre, post ++ [frame], by simp, ?_, ?_⟩
      · unfold outputs at hout ⊢
        rw [List.filterMap_append, hout, hafter]
        cases hdata : outputData frame <;> simp [hdata]
      · unfold replays at hreplays ⊢
        rw [List.filterMap_append, hreplays]
        simp [hnone]
    cases frame with
    | replay other =>
      cases h
      exact ⟨frames, [], rfl, rfl, rfl⟩
    | output data =>
      obtain ⟨⟨other, later⟩, hlast, heq⟩ := Option.map_eq_some_iff.mp h
      cases heq
      exact hgrow hlast rfl rfl
    | _ => exact hgrow h (by simp [outputData]) rfl

end

/-! ## Who sends replays -/

section

variable {G : Type} {s : HostState G} {env : HostEnv G} {n : ClientId}

/-- The replays of every queue. -/
def replayed (s : HostState G) (n : ClientId) : List (List UInt8) := replays (s.channels n).frames

theorem send_replays (ch : Channel) {frame : HostFrame} (h : replayData frame = none) :
    replays (ch.send frame).frames = replays ch.frames := by
  unfold Channel.send replays
  split
  · rfl
  · rw [List.filterMap_append, List.filterMap_cons_none h]
    exact List.append_nil _

theorem broadcast_replayed (s : HostState G) {frame : HostFrame} (h : replayData frame = none) :
    replayed (s.broadcast frame) = replayed s := by
  funext n
  unfold replayed
  rw [Handoff.broadcast_channels]
  split
  · exact send_replays _ h
  · rfl

theorem sendToClient_replayed (s : HostState G) (n : ClientId) {frame : HostFrame}
    (h : replayData frame = none) : replayed (s.sendToClient n frame) = replayed s := by
  funext m
  unfold replayed
  rw [Handoff.sendToClient_channels]
  split
  · exact send_replays _ h
  · rfl

@[simp] theorem broadcastControl_replayed : replayed s.broadcastControl = replayed s := by
  unfold HostState.broadcastControl
  split
  · exact broadcast_replayed s rfl
  · rfl

@[simp] theorem updateLocalDisplaced_replayed : replayed s.updateLocalDisplaced = replayed s := by
  unfold HostState.updateLocalDisplaced
  dsimp only
  repeat' split
  all_goals rfl

@[simp] theorem setPtySize_replayed {cols rows : UInt16} :
    replayed (s.setPtySize env cols rows) = replayed s := by
  unfold HostState.setPtySize
  rw [updateLocalDisplaced_replayed]
  dsimp only
  split
  · exact broadcast_replayed _ rfl
  · rfl

@[simp] theorem requestJiggle_replayed : replayed s.requestJiggle = replayed s := by
  unfold HostState.requestJiggle
  split <;> rfl

@[simp] theorem recordSize_replayed {viewerId : String} {cols rows : UInt16} :
    replayed (s.recordSize viewerId cols rows) = replayed s := by
  unfold HostState.recordSize
  split <;> rfl

@[simp] theorem claimControl_replayed {viewerId : String} :
    replayed (s.claimControl viewerId) = replayed s := by
  unfold HostState.claimControl
  split <;> rfl

@[simp] theorem applyResize_replayed {size : ResizePayload} :
    replayed (s.applyResize env size) = replayed s := by
  unfold HostState.applyResize
  rw [broadcastControl_replayed]
  repeat' split
  all_goals simp

@[simp] theorem takeControl_replayed {viewerId : String} :
    replayed (s.takeControl env viewerId) = replayed s := by
  unfold HostState.takeControl
  split
  · rfl
  next cols rows _ =>
    have hset : replayed ({ s with controllerId := some viewerId }.setPtySize env cols rows) =
        replayed s := setPtySize_replayed
    dsimp only
    rw [broadcastControl_replayed]
    split
    · rw [requestJiggle_replayed, hset]
    · exact hset

@[simp] theorem localStdin_replayed {bytes : List UInt8} :
    replayed (s.localStdin env bytes).2 = replayed s := by
  unfold HostState.localStdin
  split
  · exact takeControl_replayed
  · rfl
  · rfl

@[simp] theorem recomputeController_replayed :
    replayed (s.recomputeController env) = replayed s := by
  unfold HostState.recomputeController
  repeat' split
  · rfl
  · rw [broadcastControl_replayed, setPtySize_replayed]
    rfl
  · rfl

@[simp] theorem applyAttention_replayed {payload : AttentionPayload}
    {source : HostState.AttentionSource} {fp : String}
    {stored : Option Climon.Proto.Meta.SessionStatus} :
    replayed (s.applyAttention env payload source fp stored) = replayed s := by
  unfold HostState.applyAttention
  repeat' split
  all_goals rfl

@[simp] theorem idleSample_replayed {stored : Option Climon.Proto.Meta.SessionStatus} :
    replayed (s.idleSample env stored) = replayed s := by
  unfold HostState.idleSample
  split
  · rfl
  · dsimp only
    split
    · rfl
    · rw [applyAttention_replayed]
      rfl

@[simp] theorem restoreTick_replayed : replayed s.restoreTick = replayed s := by
  have hrestore : replayed s.restoreLocal = replayed s := by
    unfold HostState.restoreLocal
    split
    · rfl
    · rfl
    · rw [requestJiggle_replayed]
      rfl
  unfold HostState.restoreTick
  split
  · rfl
  · rw [← hrestore]
    unfold HostState.jiggleTick
    split <;> rfl

@[simp] theorem stampResize_replayed {size : ResizePayload} :
    replayed (s.stampResize n size).1 = replayed s := by
  unfold HostState.stampResize
  split <;> rfl

theorem teardown_replayed {exitCode : Int32} :
    replayed (s.teardown env exitCode) = replayed s := by
  unfold HostState.teardown
  dsimp only
  split <;> exact broadcast_replayed _ rfl

theorem writeInitialFrames_replayed {c : Client} (h : s.getClient n = some c)
    (hc : c.inClients = false) :
    replayed (s.writeInitialFrames n) = replayed ((markJoined s n).writeReplay n) := by
  unfold HostState.writeInitialFrames
  rw [h]
  simp only [hc, Bool.false_eq_true, if_false]
  have hbase : replayed ((markJoined s n).writeReplay n).updateLocalDisplaced.broadcastControl =
      replayed ((markJoined s n).writeReplay n) := by
    rw [broadcastControl_replayed, updateLocalDisplaced_replayed]
  change replayed (if ((markJoined s n).writeReplay n).updateLocalDisplaced.broadcastControl.exited
    then _ else ((markJoined s n).writeReplay n).updateLocalDisplaced.broadcastControl) = _
  split
  · rw [← hbase]
    split
    · exact sendToClient_replayed _ n rfl
    · rfl
  · exact hbase

/-- What a critical section does to the replays. -/
inductive Replaying (env : HostEnv G) (s : HostState G) : Event → HostState G → Prop
  | keeps {e : Event} {t : HostState G} (silent : chunkOf e = none) (quiet : Quiet s t)
      (kept : replayed t = replayed s) : Replaying env s e t
  | connect : Replaying env s .connect s.acceptClient
  | output {t : HostState G} (data : List UInt8) (copy : Patient (relay env s data) t)
      (channels : t.channels = (relay env s data).channels) : Replaying env s (.output data) t
  | writerDies (n : ClientId) : Replaying env s (.writerDies n) (killWriter s n)
  | initial {e : Event} {m : HostState G} (n : ClientId) (silent : chunkOf e = none)
      (before : Patient s m) (kept : replayed m = replayed s) :
      Replaying env s e (m.writeInitialFrames n)
  | asked (n : ClientId) (stored : Option Climon.Proto.Meta.SessionStatus) :
      Replaying env s (.frame n .replay stored) (s.writeReplay n)

theorem handleFrame_replaying (env : HostEnv G) (s : HostState G) (n : ClientId)
    (frame : ClientFrame) (stored : Option Climon.Proto.Meta.SessionStatus) :
    Replaying env s (.frame n frame stored) (handle env s (.frame n frame stored)) := by
  cases frame with
  | input bytes =>
    have hsplit : Patient s (handle env s (.frame n (.input bytes) stored)) ∧
        replayed (handle env s (.frame n (.input bytes) stored)) = replayed s := by
      simp only [handle, HostState.handleFrame]
      split
      · exact ⟨applyAttention_patient env s _ _ _ _, applyAttention_replayed⟩
      · exact ⟨Patient.refl s, rfl⟩
    exact .keeps rfl hsplit.1.toQuiet hsplit.2
  | resize size =>
    refine .initial n rfl ((stampResize_patient s n size).trans (applyResize_patient env _ _)) ?_
    exact applyResize_replayed.trans stampResize_replayed
  | takeControl =>
    have hsplit : Patient s (handle env s (.frame n .takeControl stored)) ∧
        replayed (handle env s (.frame n .takeControl stored)) = replayed s := by
      simp only [handle, HostState.handleFrame]
      split
      · exact ⟨Patient.refl s, rfl⟩
      · split
        · exact ⟨Patient.refl s, rfl⟩
        · exact ⟨takeControl_patient env s _, takeControl_replayed⟩
    exact .keeps rfl hsplit.1.toQuiet hsplit.2
  | attention payload =>
    exact .initial n rfl (applyAttention_patient env s payload .user _ stored)
      applyAttention_replayed
  | replay => exact .asked n stored
  | other => exact .keeps rfl (Patient.refl s).toQuiet rfl

theorem handle_replaying (env : HostEnv G) (s : HostState G) (e : Event) :
    Replaying env s e (handle env s e) := by
  cases e with
  | connect => exact .connect
  | initialFramesTimer n => exact .initial n rfl (Patient.refl s) rfl
  | frame n frame stored => exact handleFrame_replaying env s n frame stored
  | disconnect n =>
    refine .keeps rfl (Quiet.trans (Patient.toQuiet ?_) (handleDisconnect_quiet env _ n)) ?_
    · exact Patient.of_eq rfl rfl rfl rfl rfl rfl
    · exact recomputeController_replayed
  | writerDies n => exact .writerDies n
  | localResize cols rows =>
    exact .keeps rfl (applyResize_patient env s _).toQuiet applyResize_replayed
  | localStdin bytes =>
    exact .keeps rfl (localStdin_patient env s bytes).toQuiet localStdin_replayed
  | output data =>
    refine .output data (handleOutput_patient env s data _) ?_
    simp only [handle, HostState.handleOutput]
    split <;> rfl
  | restoreTick => exact .keeps rfl (restoreTick_patient s).toQuiet restoreTick_replayed
  | idleSample stored =>
    exact .keeps rfl (idleSample_patient env s stored).toQuiet idleSample_replayed
  | clock now =>
    refine .keeps rfl (Patient.toQuiet ?_) rfl
    exact Patient.of_eq rfl rfl rfl rfl rfl rfl
  | exit exitCode => exact .keeps rfl (teardown_quiet env s exitCode) teardown_replayed

/-! ## Live clients -/

/-- The last replay in the client's queue and the output behind it are the whole stream. -/
def Repainted (stream : List (List UInt8)) (s : HostState G) (n : ClientId) : Prop :=
  Live s n → ∃ before after, stream = before ++ after ∧
    lastReplay (s.channels n).frames = some (replayOf before, after)

variable {t : HostState G} {stream : List (List UInt8)} {m : ClientId}

theorem Repainted.quiet (h : Repainted stream s n) (k : Quiet s t)
    (hkept : replayed t = replayed s) : Repainted stream t n := by
  intro hlive
  obtain ⟨before, after, hstream, hlast⟩ := h (live_of_quiet k hlive)
  obtain ⟨ext, hext, hout⟩ := k.frames n
  have hnone : replays ext = [] := by
    have hsame := congrFun hkept n
    unfold replayed replays at hsame
    rw [hext, List.filterMap_append] at hsame
    exact List.append_cancel_left (hsame.trans (List.append_nil _).symm)
  refine ⟨before, after, hstream, ?_⟩
  rcases @lastReplay_append_of_outputs (s.channels n).frames ext hout with
    ⟨hlast', -⟩ | ⟨payload, hmem, -⟩
  · rw [hext, hlast', hlast]
  · rw [hnone] at hmem
    cases hmem

theorem writeReplay_channels_of_ne (h : m ≠ n) : (s.writeReplay n).channels m = s.channels m := by
  unfold HostState.writeReplay
  dsimp only
  rw [Handoff.sendToClient_channels, Handoff.sendToClient_channels, if_neg fun k => h k.1.symm,
    if_neg fun k => h k.1.symm]

theorem writeReplay_lastReplay (hc : Captured stream s) (hmem : n ∈ keys s)
    (halive : (s.channels n).dead = false) :
    lastReplay ((s.writeReplay n).channels n).frames = some (replayOf stream, []) := by
  rw [writeReplay_frames hmem halive, hc.replaySnapshot, List.append_cons, lastReplay_concat]
  rfl

theorem Repainted.writeReplay (hc : Captured stream s) (h : n ≠ m → Repainted stream s n) :
    Repainted stream (s.writeReplay m) n := by
  intro hlive
  have hold : Live s n := live_of_quiet (writeReplay_quiet s m) hlive
  by_cases hnm : n = m
  · subst hnm
    exact ⟨stream, [], (List.append_nil _).symm,
      writeReplay_lastReplay hc (mem_keys hold.1) hold.2⟩
  · rw [writeReplay_channels_of_ne hnm]
    exact h hnm hold

theorem Repainted.writeInitialFrames (hs : Streams stream s) (h : Repainted stream s n)
    (m : ClientId) : Repainted stream (s.writeInitialFrames m) n := by
  by_cases hw : Waiting s m
  · obtain ⟨c, hc, hin⟩ := getClient_of_waiting hs.keysNodup hw
    have hcap : Captured stream (markJoined s m) := ⟨hs.cap, hs.data, hs.modes⟩
    have hreplay : Repainted stream ((markJoined s m).writeReplay m) n :=
      Repainted.writeReplay hcap fun hne hlive =>
        h ⟨(shape_markJoined_of_ne hne).mp hlive.1, hlive.2⟩
    exact hreplay.quiet (writeInitialFrames_after_replay hc hin)
      (writeInitialFrames_replayed hc hin)
  · rw [writeInitialFrames_of_not_waiting hw]
    exact h

theorem Repainted.relay (h : Repainted stream s n) (data : List UInt8) :
    Repainted (stream ++ [data]) (relay env s data) n := by
  intro hlive
  have hold := live_of_relay hlive
  obtain ⟨before, after, rfl, hlast⟩ := h hold
  refine ⟨before, after ++ [data], List.append_assoc .., ?_⟩
  rw [relay_frames_live hold, lastReplay_concat, hlast]
  rfl

theorem Repainted.step {past : List Event} {e : Event} (hs : Streams (chunks past) s)
    (h : Repainted (chunks past) s n) (hstep : Step env s e t) :
    Repainted (chunks (past ++ [e])) t n := by
  obtain ⟨-, clients, hperm, rfl⟩ := hstep
  have hpatient := perm_patient hperm
  have hs' := hs.quiet hpatient.toQuiet
  have h' := h.quiet hpatient.toQuiet rfl
  have hreplaying := handle_replaying env { s with clients := clients } e
  generalize handle env { s with clients := clients } e = u at hreplaying
  generalize { s with clients := clients } = r at hs' h' hreplaying
  cases hreplaying with
  | keeps silent quiet kept =>
    rw [chunks_concat_of_none past silent]
    exact h'.quiet quiet kept
  | connect =>
    rw [chunks_concat_of_none past rfl]
    rintro ⟨hmem, hdead⟩
    have hold := (mem_shape_acceptClient.mp hmem).resolve_left fun hnew => by cases hnew.2
    have hne : n ≠ r.clientSeq := Nat.ne_of_lt (hs'.fresh n (mem_keys hold))
    rw [acceptClient_channels hne] at hdead ⊢
    exact h' ⟨hold, hdead⟩
  | output data copy channels =>
    rw [chunks_concat]
    intro hlive
    rw [channels]
    exact h'.relay data (live_of_quiet copy.toQuiet hlive)
  | writerDies k =>
    rw [chunks_concat_of_none past rfl]
    intro hlive
    rw [killWriter_frames]
    exact h' (live_of_killWriter hlive)
  | initial k silent before kept =>
    rw [chunks_concat_of_none past silent]
    exact (h'.quiet before.toQuiet kept).writeInitialFrames (hs'.quiet before.toQuiet) k
  | asked k stored =>
    rw [chunks_concat_of_none past rfl]
    exact Repainted.writeReplay hs'.toCaptured fun _ => h'

end

end Climon.Session.LastReplay
