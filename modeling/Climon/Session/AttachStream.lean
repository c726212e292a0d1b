import Mathlib.Data.List.Perm.Subperm
import Climon.Session.Handoff

namespace Climon.Session.AttachStream

open Climon.Lib.Transition Climon.Proto.Frame Climon.Session.Host Climon.Session.Replay
  Climon.Session.Surfaces

/-!
# Attach streams

A client joins with one replay of everything captured so far and then receives every later
chunk. Both happen under the state lock, so that no chunk falls between them.
-/

variable {G : Type}

/-! ## What was captured and what was sent -/

def chunkOf : Event → Option (List UInt8)
  | .output data => some data
  | _ => none

/-- The PTY output of a run, chunk by chunk. -/
def chunks (es : List Event) : List (List UInt8) := es.filterMap chunkOf

def outputData : HostFrame → Option (List UInt8)
  | .output data => some data
  | _ => none

def outputs (frames : List HostFrame) : List (List UInt8) := frames.filterMap outputData

/-- The mouse-mode tracker after a PTY stream that arrived in these chunks. -/
def tracked (stream : List (List UInt8)) : List UInt8 × ModeState :=
  stream.foldl (fun (remainder, modes) chunk =>
    trackMousePrivateModesFromOutput modes chunk remainder trackedMousePrivateModes) ([], [])

def replayOf (stream : List (List UInt8)) : List UInt8 :=
  lastBytes scrollbackCap stream.flatten ++
    buildMousePrivateModeReplaySuffix (tracked stream).2 trackedMousePrivateModes

/-- The queue of a client that joined after `before` and has received `received` since. Frames
other than `Output`, such as requested replays, may stand anywhere after the first replay. -/
def Attached (before received : List (List UInt8)) (frames : List HostFrame) : Prop :=
  ∃ pre cols rows post,
    frames = pre ++ .ptySize cols rows :: .replay (replayOf before) :: post ∧
    outputs pre = [] ∧ outputs post = received

/-! ## The map as a list of joined flags -/

def shape (s : HostState G) : List (ClientId × Bool) :=
  s.clients.map fun p => (p.1, p.2.inClients)

/-- A client whose initial frames are still to be written. -/
def Waiting (s : HostState G) (n : ClientId) : Prop := (n, false) ∈ shape s

/-- An initialized client that is still connected. -/
def Live (s : HostState G) (n : ClientId) : Prop :=
  (n, true) ∈ shape s ∧ (s.channels n).dead = false

theorem keys_eq_shape (s : HostState G) : keys s = (shape s).map (·.1) := by
  unfold keys shape
  rw [List.map_map]
  rfl

/-! ## Handlers that send no output -/

/-- `t` differs from `s` by dropped clients and by frames that carry no PTY output. -/
structure Quiet (s t : HostState G) : Prop where
  shape : (shape t).Subperm (shape s)
  clientSeq : t.clientSeq = s.clientSeq
  scrollback : t.scrollback = s.scrollback
  mouseModeState : t.mouseModeState = s.mouseModeState
  mouseModeRemainder : t.mouseModeRemainder = s.mouseModeRemainder
  dead : ∀ n, (t.channels n).dead = (s.channels n).dead
  frames : ∀ n, ∃ ext, (t.channels n).frames = (s.channels n).frames ++ ext ∧ outputs ext = []

/-- `Quiet`, and every waiting client goes on waiting. -/
structure Patient (s t : HostState G) : Prop extends Quiet s t where
  waiting : ∀ n, Waiting s n → Waiting t n

theorem Quiet.trans {s t u : HostState G} (h : Quiet s t) (k : Quiet t u) : Quiet s u where
  shape := k.shape.trans h.shape
  clientSeq := k.clientSeq.trans h.clientSeq
  scrollback := k.scrollback.trans h.scrollback
  mouseModeState := k.mouseModeState.trans h.mouseModeState
  mouseModeRemainder := k.mouseModeRemainder.trans h.mouseModeRemainder
  dead := fun n => (k.dead n).trans (h.dead n)
  frames := by
    intro n
    obtain ⟨ext, hext, hout⟩ := h.frames n
    obtain ⟨more, hmore, hmoreOut⟩ := k.frames n
    refine ⟨ext ++ more, ?_, ?_⟩
    · rw [hmore, hext, List.append_assoc]
    · unfold outputs at hout hmoreOut ⊢
      rw [List.filterMap_append, hout, hmoreOut, List.append_nil]

theorem Patient.trans {s t u : HostState G} (h : Patient s t) (k : Patient t u) : Patient s u :=
  ⟨h.toQuiet.trans k.toQuiet, fun n hn => k.waiting n (h.waiting n hn)⟩

/-- Neither the joined flags nor any queue or captured byte changed. -/
theorem Patient.of_eq {s t : HostState G} (hshape : AttachStream.shape t = AttachStream.shape s)
    (hseq : t.clientSeq = s.clientSeq) (hsb : t.scrollback = s.scrollback)
    (hmodes : t.mouseModeState = s.mouseModeState)
    (hrem : t.mouseModeRemainder = s.mouseModeRemainder) (hch : t.channels = s.channels) :
    Patient s t where
  shape := by
    rw [hshape]
  clientSeq := hseq
  scrollback := hsb
  mouseModeState := hmodes
  mouseModeRemainder := hrem
  dead := fun n => by rw [hch]
  frames := fun n => ⟨[], by rw [hch, List.append_nil], rfl⟩
  waiting := by
    intro n hn
    unfold Waiting
    rwa [hshape]

theorem Patient.refl (s : HostState G) : Patient s s := Patient.of_eq rfl rfl rfl rfl rfl rfl

theorem send_dead (ch : Channel) (frame : HostFrame) : (ch.send frame).dead = ch.dead := by
  unfold Channel.send
  split <;> rfl

theorem send_frames (ch : Channel) {frame : HostFrame} (hf : outputData frame = none) :
    ∃ ext, (ch.send frame).frames = ch.frames ++ ext ∧ outputs ext = [] := by
  unfold Channel.send
  split
  · exact ⟨[], (List.append_nil _).symm, rfl⟩
  · refine ⟨[frame], rfl, ?_⟩
    unfold outputs
    rw [List.filterMap_cons_none hf]
    rfl

theorem broadcast_shape (s : HostState G) (frame : HostFrame) :
    shape (s.broadcast frame) = (shape s).filter fun q => !(q.2 && (s.channels q.1).dead) := by
  unfold shape HostState.broadcast
  rw [List.filter_map]
  rfl

theorem broadcast_patient (s : HostState G) {frame : HostFrame} (hf : outputData frame = none) :
    Patient s (s.broadcast frame) where
  shape := by
    rw [broadcast_shape]
    exact List.filter_sublist.subperm
  clientSeq := rfl
  scrollback := rfl
  mouseModeState := rfl
  mouseModeRemainder := rfl
  dead := by
    intro n
    rw [Handoff.broadcast_channels]
    split
    · exact send_dead _ _
    · rfl
  frames := by
    intro n
    rw [Handoff.broadcast_channels]
    split
    · exact send_frames _ hf
    · exact ⟨[], (List.append_nil _).symm, rfl⟩
  waiting := by
    intro n hn
    unfold Waiting
    rw [broadcast_shape]
    exact List.mem_filter.mpr ⟨hn, rfl⟩

theorem removeClient_quiet (s : HostState G) (n : ClientId) : Quiet s (s.removeClient n) where
  shape := (List.filter_sublist.map _).subperm
  clientSeq := rfl
  scrollback := rfl
  mouseModeState := rfl
  mouseModeRemainder := rfl
  dead := fun _ => rfl
  frames := fun _ => ⟨[], (List.append_nil _).symm, rfl⟩

theorem sendToClient_quiet (s : HostState G) (n : ClientId) {frame : HostFrame}
    (hf : outputData frame = none) : Quiet s (s.sendToClient n frame) := by
  have hkeeps := (sendToClient_keeps s n frame).toKeeps
  have hsame : (s.sendToClient n frame).scrollback = s.scrollback ∧
      (s.sendToClient n frame).mouseModeState = s.mouseModeState ∧
      (s.sendToClient n frame).mouseModeRemainder = s.mouseModeRemainder := by
    unfold HostState.sendToClient
    split
    · exact ⟨rfl, rfl, rfl⟩
    · split <;> exact ⟨rfl, rfl, rfl⟩
  refine ⟨(hkeeps.clients.map _).subperm, hkeeps.clientSeq, hsame.1, hsame.2.1, hsame.2.2, ?_, ?_⟩
  · intro m
    rw [Handoff.sendToClient_channels]
    split
    · exact send_dead _ _
    · rfl
  · intro m
    rw [Handoff.sendToClient_channels]
    split
    · exact send_frames _ hf
    · exact ⟨[], (List.append_nil _).symm, rfl⟩

theorem updateLocalDisplaced_patient (s : HostState G) : Patient s s.updateLocalDisplaced := by
  unfold HostState.updateLocalDisplaced
  split
  · exact Patient.refl s
  · split
    · dsimp only
      split <;> exact Patient.of_eq rfl rfl rfl rfl rfl rfl
    · split <;> exact Patient.of_eq rfl rfl rfl rfl rfl rfl

theorem broadcastControl_patient (s : HostState G) : Patient s s.broadcastControl := by
  unfold HostState.broadcastControl
  split
  · exact broadcast_patient s rfl
  · exact Patient.refl s

theorem setPtySize_patient (env : HostEnv G) (s : HostState G) (cols rows : UInt16) :
    Patient s (s.setPtySize env cols rows) := by
  unfold HostState.setPtySize
  dsimp only
  split
  · refine Patient.trans ?_ (updateLocalDisplaced_patient _)
    refine Patient.trans ?_ (broadcast_patient _ rfl)
    exact Patient.of_eq rfl rfl rfl rfl rfl rfl
  · refine Patient.trans ?_ (updateLocalDisplaced_patient _)
    exact Patient.of_eq rfl rfl rfl rfl rfl rfl

theorem modifyFirst_shape (vid : String) {f : Client → Client}
    (hf : ∀ c, (f c).inClients = c.inClients) (clients : List (ClientId × Client)) :
    (HostState.modifyFirst vid f clients).map (fun p => (p.1, p.2.inClients)) =
      clients.map fun p => (p.1, p.2.inClients) := by
  induction clients with
  | nil => rfl
  | cons p ps ih =>
    unfold HostState.modifyFirst
    split
    · rw [List.map_cons, List.map_cons, hf]
    · rw [List.map_cons, List.map_cons, ih]

theorem recordSize_patient (s : HostState G) (vid : String) (cols rows : UInt16) :
    Patient s (s.recordSize vid cols rows) := by
  have hshape := modifyFirst_shape vid (f := fun c => { c with cols := cols, rows := rows })
    (fun _ => rfl) s.clients
  unfold HostState.recordSize
  split <;> exact Patient.of_eq hshape rfl rfl rfl rfl rfl

theorem applyResize_patient (env : HostEnv G) (s : HostState G) (size : ResizePayload) :
    Patient s (s.applyResize env size) := by
  unfold HostState.applyResize
  dsimp only
  refine Patient.trans ?_ (broadcastControl_patient _)
  refine (recordSize_patient s (size.viewerId.getD "local") (max1 size.cols)
    (max1 size.rows)).trans ?_
  generalize s.recordSize (size.viewerId.getD "local") (max1 size.cols) (max1 size.rows) = r
  have hclaim : Patient r (r.claimControl (size.viewerId.getD "local")) := by
    unfold HostState.claimControl
    split <;> exact Patient.of_eq rfl rfl rfl rfl rfl rfl
  refine hclaim.trans ?_
  split
  · exact setPtySize_patient env _ _ _
  · split
    · exact updateLocalDisplaced_patient _
    · exact Patient.refl _

theorem requestJiggle_patient (s : HostState G) : Patient s s.requestJiggle := by
  unfold HostState.requestJiggle
  split <;> exact Patient.of_eq rfl rfl rfl rfl rfl rfl

theorem takeControl_patient (env : HostEnv G) (s : HostState G) (vid : String) :
    Patient s (s.takeControl env vid) := by
  unfold HostState.takeControl
  split
  · exact Patient.refl s
  next cols rows _ =>
    dsimp only
    refine Patient.trans ?_ (broadcastControl_patient _)
    have hset : Patient s ({ s with controllerId := some vid }.setPtySize env cols rows) := by
      refine Patient.trans ?_ (setPtySize_patient env _ cols rows)
      exact Patient.of_eq rfl rfl rfl rfl rfl rfl
    split
    · exact hset.trans (requestJiggle_patient _)
    · exact hset

theorem localStdin_patient (env : HostEnv G) (s : HostState G) (bytes : List UInt8) :
    Patient s (s.localStdin env bytes).2 := by
  unfold HostState.localStdin
  split
  · exact takeControl_patient env s "local"
  · exact Patient.refl s
  · exact Patient.refl s

theorem recomputeController_patient (env : HostEnv G) (s : HostState G) :
    Patient s (s.recomputeController env) := by
  unfold HostState.recomputeController
  split
  · exact Patient.refl s
  · split
    · refine Patient.trans ?_ (broadcastControl_patient _)
      refine Patient.trans ?_ (setPtySize_patient env _ _ _)
      exact Patient.of_eq rfl rfl rfl rfl rfl rfl
    · exact Patient.of_eq rfl rfl rfl rfl rfl rfl

theorem applyAttention_patient (env : HostEnv G) (s : HostState G) (payload : AttentionPayload)
    (source : HostState.AttentionSource) (fp : String)
    (stored : Option Climon.Proto.Meta.SessionStatus) :
    Patient s (s.applyAttention env payload source fp stored) := by
  unfold HostState.applyAttention
  repeat' split
  all_goals exact Patient.of_eq rfl rfl rfl rfl rfl rfl

theorem idleSample_patient (env : HostEnv G) (s : HostState G)
    (stored : Option Climon.Proto.Meta.SessionStatus) :
    Patient s (s.idleSample env stored) := by
  unfold HostState.idleSample
  split
  · exact Patient.refl s
  · dsimp only
    split
    · exact Patient.of_eq rfl rfl rfl rfl rfl rfl
    · refine Patient.trans ?_ (applyAttention_patient env _ _ _ _ _)
      exact Patient.of_eq rfl rfl rfl rfl rfl rfl

theorem restoreTick_patient (s : HostState G) : Patient s s.restoreTick := by
  have hrestore : Patient s s.restoreLocal := by
    unfold HostState.restoreLocal
    split
    · exact Patient.refl s
    · exact Patient.of_eq rfl rfl rfl rfl rfl rfl
    · refine Patient.trans ?_ (requestJiggle_patient _)
      exact Patient.of_eq rfl rfl rfl rfl rfl rfl
  unfold HostState.restoreTick
  split
  · exact Patient.refl s
  · refine hrestore.trans ?_
    unfold HostState.jiggleTick
    split <;> exact Patient.of_eq rfl rfl rfl rfl rfl rfl

theorem modifyClient_shape (s : HostState G) (n : ClientId) {f : Client → Client}
    (hf : ∀ c, (f c).inClients = c.inClients) : shape (s.modifyClient n f) = shape s := by
  unfold shape HostState.modifyClient
  rw [List.map_map]
  apply List.map_congr_left
  intro p _
  dsimp only [Function.comp]
  split
  · rw [hf]
  · rfl

theorem stampResize_patient (s : HostState G) (n : ClientId) (size : ResizePayload) :
    Patient s (s.stampResize n size).1 := by
  unfold HostState.stampResize
  split
  · exact Patient.refl s
  · exact Patient.of_eq (modifyClient_shape s n fun _ => rfl) rfl rfl rfl rfl rfl

theorem writeReplay_quiet (s : HostState G) (n : ClientId) : Quiet s (s.writeReplay n) :=
  (sendToClient_quiet s n rfl).trans (sendToClient_quiet _ n rfl)

theorem handleDisconnect_quiet (env : HostEnv G) (s : HostState G) (n : ClientId) :
    Quiet s (s.handleDisconnect env n) :=
  (removeClient_quiet s n).trans (recomputeController_patient env _).toQuiet

theorem teardown_quiet (env : HostEnv G) (s : HostState G) (exitCode : Int32) :
    Quiet s (s.teardown env exitCode) := by
  have hclear {t : HostState G} (h : Quiet s t) : Quiet s { t with clients := [] } :=
    ⟨List.nil_subperm, h.clientSeq, h.scrollback, h.mouseModeState, h.mouseModeRemainder,
      h.dead, h.frames⟩
  unfold HostState.teardown
  dsimp only
  apply hclear
  have hexit : Quiet s (HostState.broadcast { s with
      exited := true
      exitCode := some exitCode
      patches := s.patches ++ [exitPatch exitCode (env.nowIso s.nowMs)] } (.exit exitCode)) := by
    refine Patient.toQuiet (Patient.trans ?_ (broadcast_patient _ rfl))
    exact Patient.of_eq rfl rfl rfl rfl rfl rfl
  split
  · refine hexit.trans (Patient.toQuiet ?_)
    exact Patient.of_eq rfl rfl rfl rfl rfl rfl
  · exact hexit

/-! ## Joining -/

/-- The client's entry after it joined the broadcasts, when nothing has been sent to it yet. -/
def markJoined (s : HostState G) (n : ClientId) : HostState G :=
  HostState.modifyClient { s with nextSeq := s.nextSeq + 1 } n
    fun c => { c with inClients := true, seq := s.nextSeq }

theorem mem_markJoined {s : HostState G} {n : ClientId} {q : ClientId × Bool} :
    q ∈ shape (markJoined s n) ↔
      q.1 = n ∧ q.2 = true ∧ n ∈ keys s ∨ q.1 ≠ n ∧ q ∈ shape s := by
  unfold shape markJoined HostState.modifyClient keys
  simp only [List.mem_map, List.map_map, Function.comp]
  constructor
  · rintro ⟨p, hp, rfl⟩
    by_cases hpn : p.1 = n
    · rw [if_pos hpn]
      exact .inl ⟨hpn, rfl, p, hp, hpn⟩
    · rw [if_neg hpn]
      exact .inr ⟨hpn, p, hp, rfl⟩
  · rintro (⟨hq, htrue, p, hp, hpn⟩ | ⟨hq, p, hp, rfl⟩)
    · refine ⟨p, hp, ?_⟩
      rw [if_pos hpn]
      exact Prod.ext (hpn.trans hq.symm) htrue.symm
    · exact ⟨p, hp, by rw [if_neg hq]⟩

theorem markJoined_keys (s : HostState G) (n : ClientId) : keys (markJoined s n) = keys s := by
  unfold keys markJoined HostState.modifyClient
  rw [List.map_map]
  apply List.map_congr_left
  intro p _
  dsimp only [Function.comp]
  split <;> rfl

theorem getClient_of_waiting {s : HostState G} (hkeys : (keys s).Nodup) {n : ClientId}
    (h : Waiting s n) : ∃ c, s.getClient n = some c ∧ c.inClients = false := by
  obtain ⟨p, hp, heq⟩ := List.mem_map.mp h
  obtain ⟨rfl, hfalse⟩ := Prod.mk.inj heq
  obtain ⟨c, hc⟩ := Option.isSome_iff_exists.mp (getClient_isSome hp)
  have hsame := List.inj_on_of_nodup_map hkeys hp (mem_of_getClient hc) rfl
  refine ⟨c, hc, ?_⟩
  rwa [hsame] at hfalse

theorem waiting_of_getClient {s : HostState G} {n : ClientId} {c : Client}
    (h : s.getClient n = some c) (hc : c.inClients = false) : Waiting s n := by
  unfold Waiting shape
  rw [← hc]
  exact List.mem_map_of_mem (mem_of_getClient h)

theorem writeReplay_frames {s : HostState G} {n : ClientId} (hmem : n ∈ keys s)
    (halive : (s.channels n).dead = false) :
    ((s.writeReplay n).channels n).frames = (s.channels n).frames ++
      [.ptySize s.appliedCols s.appliedRows, .replay s.replaySnapshot] := by
  obtain ⟨p, hp, rfl⟩ := List.mem_map.mp hmem
  obtain ⟨c, hc⟩ := Option.isSome_iff_exists.mp (getClient_isSome hp)
  have hfirst : s.sendToClient p.1 (.ptySize s.appliedCols s.appliedRows) =
      { s with
        channels := Function.update s.channels p.1
          ((s.channels p.1).send (.ptySize s.appliedCols s.appliedRows)) } := by
    unfold HostState.sendToClient
    rw [hc]
    dsimp only
    rw [halive]
    rfl
  unfold HostState.writeReplay
  dsimp only
  rw [Handoff.sendToClient_channels, hfirst, if_pos ⟨rfl, Option.isSome_iff_exists.mpr ⟨c, hc⟩⟩]
  simp only [Function.update_self, Channel.send, halive, Bool.false_eq_true, if_false,
    List.append_assoc]
  rfl

/-- After the replay, joining only broadcasts control and says goodbye. -/
theorem writeInitialFrames_after_replay {s : HostState G} {n : ClientId} {c : Client}
    (h : s.getClient n = some c) (hc : c.inClients = false) :
    Quiet ((markJoined s n).writeReplay n) (s.writeInitialFrames n) := by
  unfold HostState.writeInitialFrames
  rw [h]
  simp only [hc, Bool.false_eq_true, if_false]
  have hbase : Quiet ((markJoined s n).writeReplay n)
      (((markJoined s n).writeReplay n).updateLocalDisplaced.broadcastControl) :=
    ((updateLocalDisplaced_patient _).trans (broadcastControl_patient _)).toQuiet
  change Quiet _ (if ((markJoined s n).writeReplay n).updateLocalDisplaced.broadcastControl.exited
    then _ else ((markJoined s n).writeReplay n).updateLocalDisplaced.broadcastControl)
  split
  · refine Quiet.trans ?_ (removeClient_quiet _ n)
    split
    · exact hbase.trans (sendToClient_quiet _ n rfl)
    · exact hbase
  · exact hbase

theorem writeInitialFrames_of_not_waiting {s : HostState G} {n : ClientId} (h : ¬ Waiting s n) :
    s.writeInitialFrames n = s := by
  unfold HostState.writeInitialFrames
  cases hc : s.getClient n with
  | none => rfl
  | some c =>
    cases hin : c.inClients with
    | true => simp only [hin, if_true]
    | false => exact absurd (waiting_of_getClient hc hin) h

end Climon.Session.AttachStream
