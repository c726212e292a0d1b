import Climon.Lib.Transition
import Climon.Proto.Meta
import Climon.Session.Control
import Climon.Session.Idle
import Climon.Session.Replay

namespace Climon.Session.Host

open Climon.Lib.Transition Climon.Proto.Frame Climon.Proto.Meta Climon.Session.Control
  Climon.Session.Idle Climon.Session.Replay

/-!
# The session host

All mutable host state sits behind one lock, and every handler below runs under it. An
`Event` is one critical section: a frame read from a client, a timer, a chunk of PTY
output, a signal.
-/

abbrev ClientId := Nat

def scrollbackCap : Nat := 256 * 1024

def localRestoreDelay : Int := 250

/-- The space bar reclaims control while the local terminal is displaced. -/
def localTakeControlKey : UInt8 := 0x20

/-- A client's outbound queue, which outlives its entry in the client map. Sending fails once the
writer thread is gone. -/
structure Channel where
  frames : List HostFrame
  dead : Bool
  deriving DecidableEq, Repr

def Channel.send (ch : Channel) (frame : HostFrame) : Channel :=
  if ch.dead then ch else { ch with frames := ch.frames ++ [frame] }

structure Client where
  inClients : Bool
  kind : SurfaceKind
  viewerId : String
  cols : UInt16
  rows : UInt16
  seq : Nat
  deriving DecidableEq, Repr

/-- What is queued for the local terminal. -/
inductive LocalWrite where
  | output (data : List UInt8)
  | displacedNotice (cols rows : UInt16)
  | restore (modes replay : List UInt8) (cols rows : UInt16)
  deriving DecidableEq, Repr

inductive JiggleLeg where
  | away
  | back
  deriving DecidableEq, Repr

def JiggleLeg.next : JiggleLeg → Option JiggleLeg
  | .away => some .back
  | .back => none

/-- The parsed terminal grid and the clock's text form, which other crates provide. -/
structure HostEnv (G : Type) where
  newGrid : UInt16 → UInt16 → G
  resizeGrid : G → UInt16 → UInt16 → G
  writeGrid : G → List UInt8 → G
  fingerprint : G → String
  extractSnippet : G → Option String
  nowIso : Int → String

/-- The client map is an association list in its iteration order. `readers` are the
connections whose reader thread still runs; `resizes` and `patches` are the calls made on the
PTY and on the metadata store. -/
structure HostState (G : Type) where
  clients : List (ClientId × Client)
  channels : ClientId → Channel
  readers : List ClientId
  clientSeq : ClientId
  localRelay : Bool
  hostCols : UInt16
  hostRows : UInt16
  appliedCols : UInt16
  appliedRows : UInt16
  controllerId : Option String
  nextSeq : Nat
  lastAttentionState : Option Bool
  currentAttentionMatchedAt : Option String
  currentAttentionFingerprint : Option String
  localAttached : Bool
  localOutputSuppressed : Bool
  localRestoreAt : Option Int
  localNoticeSize : Option (UInt16 × UInt16)
  pendingJiggle : Option JiggleLeg
  exited : Bool
  exitCode : Option Int32
  scrollback : Scrollback
  grid : G
  idleDetector : ScreenIdleDetector
  nowMs : Int
  mouseModeState : ModeState
  mouseModeRemainder : List UInt8
  snippetEnabled : Bool
  localOut : List LocalWrite
  resizes : List (UInt16 × UInt16)
  patches : List SessionMetaPatch

/-! ## Pure decisions -/

def localDisplacedByController (controllerId : Option String) : Bool :=
  match controllerId with
  | some id => id != "local"
  | none => false

inductive LocalStdinAction where
  | takeControl
  | swallow
  | forward
  deriving DecidableEq, Repr

def localStdinAction (hasTakeControl suppressed : Bool) : LocalStdinAction :=
  if suppressed then if hasTakeControl then .takeControl else .swallow else .forward

def socketClientControlsInput (controllerId clientViewerId : Option String) : Bool :=
  match controllerId, clientViewerId with
  | some controller, some viewer => controller == viewer
  | _, _ => false

inductive LocalRestoreDecision where
  | notDue
  | skipOvergrown
  | repaint
  deriving DecidableEq, Repr

def localRestoreDecision (restoreAt : Option Int) (now : Int) (overgrown : Bool) :
    LocalRestoreDecision :=
  match restoreAt with
  | some due => if due ≤ now then if overgrown then .skipOvergrown else .repaint else .notDue
  | none => .notDue

def jiggleRows (rows : UInt16) : UInt16 := if 1 < rows then rows - 1 else rows + 1

def jiggleSize (cols rows : UInt16) : UInt16 × UInt16 :=
  (max1 (if cols = 0 then 0 else cols - 1), jiggleRows rows)

/-- A reported id of `""` or `"local"` is ignored. -/
def stampedId (c : Client) (size : ResizePayload) : String :=
  match size.viewerId with
  | some vid => if vid ≠ "" ∧ vid ≠ "local" then vid else c.viewerId
  | none => c.viewerId

/-! ## Metadata patches -/

def sizePatch (cols rows : UInt16) : SessionMetaPatch where
  cols := some cols
  rows := some rows

/-- A user's acknowledgement, or the detector's return to running; a paused session stays so. -/
def attentionClearedPatch (current : SessionStatus) (byUser : Bool) (now : String) :
    SessionMetaPatch where
  status := some (
    if current = .paused then .paused else if byUser then .acknowledged else .running)
  priorityReason := some .running
  attentionMatchedAt := some none
  attentionReason := some none
  attentionSnippet := some none
  lastActivityAt := some now

def attentionFlaggedPatch (reason snippet : Option String) (now : String) : SessionMetaPatch where
  status := some .needsAttention
  priorityReason := some .attention
  attentionMatchedAt := some (some now)
  attentionReason := some reason
  lastActivityAt := some now
  attentionSnippet := some snippet

def exitPatch (exitCode : Int32) (now : String) : SessionMetaPatch where
  status := some (if exitCode = 0 then .completed else .failed)
  priorityReason := some (if exitCode = 0 then .completed else .failed)
  completedAt := some now
  exitCode := some exitCode
  lastActivityAt := some now

namespace HostState

variable {G : Type}

/-! ## Clients and their queues -/

def getClient (s : HostState G) (n : ClientId) : Option Client := s.clients.lookup n

def modifyClient (s : HostState G) (n : ClientId) (f : Client → Client) : HostState G :=
  { s with clients := s.clients.map fun p => if p.1 = n then (p.1, f p.2) else p }

def removeClient (s : HostState G) (n : ClientId) : HostState G :=
  { s with clients := s.clients.filter fun p => p.1 != n }

def findViewer (s : HostState G) (viewerId : String) : Option Client :=
  (s.clients.find? fun p => p.2.viewerId == viewerId).map (·.2)

def modifyFirst (viewerId : String) (f : Client → Client) :
    List (ClientId × Client) → List (ClientId × Client)
  | [] => []
  | p :: ps => if p.2.viewerId = viewerId then (p.1, f p.2) :: ps else p :: modifyFirst viewerId f ps

def emitLocal (s : HostState G) (write : LocalWrite) : HostState G :=
  { s with localOut := s.localOut ++ [write] }

/-- Queue a frame to one client; drop the client if its writer has died. -/
def sendToClient (s : HostState G) (n : ClientId) (frame : HostFrame) : HostState G :=
  match s.getClient n with
  | none => s
  | some _ =>
    if (s.channels n).dead then s.removeClient n
    else { s with channels := Function.update s.channels n ((s.channels n).send frame) }

/-- Queue a frame to every initialized client; drop those whose writer has died. -/
def broadcast (s : HostState G) (frame : HostFrame) : HostState G :=
  { s with
    channels := fun n =>
      if s.clients.any fun p => p.1 == n && p.2.inClients then (s.channels n).send frame
      else s.channels n
    clients := s.clients.filter fun p => !(p.2.inClients && (s.channels p.1).dead) }

/-! ## Sizes and control -/

def replaySnapshot (s : HostState G) : List UInt8 :=
  s.scrollback.snapshot ++
    buildMousePrivateModeReplaySuffix s.mouseModeState trackedMousePrivateModes

def surfaces (s : HostState G) : List Surface :=
  ((s.clients.filter fun p => p.2.inClients).map fun p =>
    ⟨p.2.viewerId, p.2.kind, p.2.cols, p.2.rows, p.2.seq⟩) ++
  if s.localAttached then [⟨"local", .terminal, s.hostCols, s.hostRows, 0⟩] else []

def surfaceSize (s : HostState G) (viewerId : String) : Option (UInt16 × UInt16) :=
  if viewerId = "local" then some (max1 s.hostCols, max1 s.hostRows)
  else (s.findViewer viewerId).map fun c => (max1 c.cols, max1 c.rows)

/-- Size the controller currently dictates, if any. -/
def controllerSize (s : HostState G) : Option (UInt16 × UInt16) :=
  s.controllerId.bind s.surfaceSize

def broadcastControl (s : HostState G) : HostState G :=
  match s.controllerId, s.controllerSize with
  | some id, some (cols, rows) => s.broadcast (.control id cols rows)
  | _, _ => s

def localTerminalExceeded (s : HostState G) : Bool :=
  max1 s.hostCols < s.appliedCols || max1 s.hostRows < s.appliedRows

/-- Pause the local terminal while another surface controls the grid, and schedule its repaint
when control comes back. -/
def updateLocalDisplaced (s : HostState G) : HostState G :=
  if ¬ s.localAttached then s
  else if localDisplacedByController s.controllerId then
    let s := { s with localRestoreAt := none }
    let noticeSize := (max1 s.hostCols, max1 s.hostRows)
    if ¬ s.localOutputSuppressed ∨ s.localNoticeSize ≠ some noticeSize then
      { s.emitLocal (.displacedNotice noticeSize.1 noticeSize.2) with
        localOutputSuppressed := true, localNoticeSize := some noticeSize }
    else s
  else if s.localOutputSuppressed ∧ s.localRestoreAt = none then
    { s with localRestoreAt := some (s.nowMs + localRestoreDelay) }
  else s

/-- Drive the PTY, grid and metadata to a size and announce it if it changed. -/
def setPtySize (env : HostEnv G) (s : HostState G) (cols rows : UInt16) : HostState G :=
  let changed := cols ≠ s.appliedCols ∨ rows ≠ s.appliedRows
  let s := { s with appliedCols := cols, appliedRows := rows, resizes := s.resizes ++ [(cols, rows)] }
  let s :=
    if changed then
      let grid := env.resizeGrid s.grid cols rows
      let s :=
        { s with
          grid := grid
          idleDetector := s.idleDetector.absorbResize (env.fingerprint grid) s.nowMs
          patches := s.patches ++ [sizePatch cols rows] }
      s.broadcast (.ptySize cols rows)
    else s
  s.updateLocalDisplaced

def requestJiggle (s : HostState G) : HostState G :=
  if s.pendingJiggle = none then { s with pendingJiggle := some .away } else s

/-- Store a reported size with the local terminal or with the first client of that id. -/
def recordSize (s : HostState G) (vid : String) (cols rows : UInt16) : HostState G :=
  let s := if vid = "local" then { s with hostCols := cols, hostRows := rows } else s
  { s with clients := modifyFirst vid (fun c => { c with cols := cols, rows := rows }) s.clients }

def claimControl (s : HostState G) (vid : String) : HostState G :=
  if s.controllerId = none then { s with controllerId := some vid } else s

/-- The first surface to resize claims control; afterwards only the controller's resizes move the
grid. -/
def applyResize (env : HostEnv G) (s : HostState G) (size : ResizePayload) : HostState G :=
  let cols := max1 size.cols
  let rows := max1 size.rows
  let vid := size.viewerId.getD "local"
  let s := (s.recordSize vid cols rows).claimControl vid
  let s :=
    if s.controllerId = some vid then s.setPtySize env cols rows
    else if vid = "local" then s.updateLocalDisplaced
    else s
  s.broadcastControl

/-- Promote a surface to controller at its last reported size. -/
def takeControl (env : HostEnv G) (s : HostState G) (vid : String) : HostState G :=
  match s.surfaceSize vid with
  | none => s
  | some (cols, rows) =>
    let before := (s.appliedCols, s.appliedRows)
    let s := { s with controllerId := some vid }.setPtySize env cols rows
    let s :=
      if vid ≠ "local" ∧ (s.appliedCols, s.appliedRows) = before then s.requestJiggle else s
    s.broadcastControl

/-- The bytes of local stdin to forward to the PTY. -/
def localStdin (env : HostEnv G) (s : HostState G) (bytes : List UInt8) :
    List UInt8 × HostState G :=
  match localStdinAction (bytes.contains localTakeControlKey) s.localOutputSuppressed with
  | .takeControl => ([], s.takeControl env "local")
  | .swallow => ([], s)
  | .forward => (bytes, s)

def controllerPresent (s : HostState G) : Bool :=
  match s.controllerId with
  | none => false
  | some id =>
    (id == "local" && s.localAttached) ||
      s.clients.any fun p => p.2.inClients && p.2.viewerId == id

/-- Pick a new controller when the current one is gone. -/
def recomputeController (env : HostEnv G) (s : HostState G) : HostState G :=
  if s.controllerPresent then s
  else
    match chooseController s.surfaces with
    | some next =>
      ({ s with controllerId := some next.id }.setPtySize env (max1 next.cols)
        (max1 next.rows)).broadcastControl
    | none => { s with controllerId := none }

/-! ## Attention -/

inductive AttentionSource where
  | detector
  | user
  deriving DecidableEq, Repr

/-- `stored` is the status the store's locked read finds, or `none` when the patch fails before
its updater runs. Whether a computed patch is also written goes unnoticed here. -/
def applyAttention (env : HostEnv G) (s : HostState G) (payload : AttentionPayload)
    (source : AttentionSource) (currentFp : String) (stored : Option SessionStatus) :
    HostState G :=
  if s.exited then s
  else if ¬ payload.needsAttention then
    if source = .user ∧
        ¬ shouldApplyUserAttentionAcknowledgement s.lastAttentionState
          s.currentAttentionMatchedAt payload.attentionMatchedAt s.currentAttentionFingerprint
          currentFp then s
    else
      let s :=
        { s with
          lastAttentionState := some false
          currentAttentionMatchedAt := none
          currentAttentionFingerprint := none }
      let s :=
        if source = .user then
          { s with idleDetector := s.idleDetector.acknowledge currentFp s.nowMs }
        else s
      match stored with
      | none => s
      | some status =>
        { s with
          patches := s.patches ++
            [attentionClearedPatch status (source = .user) (env.nowIso s.nowMs)] }
  else if s.lastAttentionState = some true then s
  else
    match stored with
    | none | some .paused => s
    | some _ =>
      let now := env.nowIso s.nowMs
      let snippet := if s.snippetEnabled then env.extractSnippet s.grid else none
      { s with
        patches := s.patches ++ [attentionFlaggedPatch payload.reason snippet now]
        lastAttentionState := some true
        currentAttentionMatchedAt := some now
        currentAttentionFingerprint := some currentFp }

/-! ## Connections -/

def writeReplay (s : HostState G) (n : ClientId) : HostState G :=
  let s := s.sendToClient n (.ptySize s.appliedCols s.appliedRows)
  s.sendToClient n (.replay s.replaySnapshot)

/-- The initial frames of a client, which then joins the broadcasts. After the exit the client is
closed behind its `Exit` frame. -/
def writeInitialFrames (s : HostState G) (n : ClientId) : HostState G :=
  match s.getClient n with
  | none => s
  | some c =>
    if c.inClients then s
    else
      let seq := s.nextSeq
      let s := { s with nextSeq := s.nextSeq + 1 }
      let s := s.modifyClient n fun c => { c with inClients := true, seq := seq }
      let s := s.writeReplay n
      let s := s.updateLocalDisplaced
      let s := s.broadcastControl
      if s.exited then
        let s :=
          match s.exitCode with
          | some code => s.sendToClient n (.exit code)
          | none => s
        s.removeClient n
      else s

def handleDisconnect (env : HostEnv G) (s : HostState G) (n : ClientId) : HostState G :=
  (s.removeClient n).recomputeController env

/-- A new connection, whose viewer id is made from its number until it reports one. -/
def acceptClient (s : HostState G) : HostState G :=
  let n := s.clientSeq
  { s with
    clientSeq := n + 1
    readers := n :: s.readers
    channels := Function.update s.channels n ⟨[], false⟩
    clients := (n, {
      inClients := false, kind := .dashboard, viewerId := s!"client-{n}",
      cols := 0, rows := 0, seq := 0 }) :: s.clients }

/-- Stamp the surface's class and id from a resize frame, which is then routed through the
client's own id. -/
def stampResize (s : HostState G) (n : ClientId) (size : ResizePayload) :
    HostState G × ResizePayload :=
  match s.getClient n with
  | none => (s, size)
  | some c =>
    let kind := size.kind.getD c.kind
    let viewerId := stampedId c size
    (s.modifyClient n fun c => { c with kind := kind, viewerId := viewerId },
      { size with viewerId := some viewerId })

/-- One frame read by a connection's reader thread. `stored` is what a metadata read finds. -/
def handleFrame (env : HostEnv G) (s : HostState G) (n : ClientId)
    (stored : Option SessionStatus) : ClientFrame → HostState G
  | .input _ =>
    if socketClientControlsInput s.controllerId ((s.getClient n).map (·.viewerId)) then
      s.applyAttention env ⟨false, some "input", none⟩ .user (env.fingerprint s.grid) stored
    else s
  | .resize size =>
    let (s, size) := s.stampResize n size
    (s.applyResize env size).writeInitialFrames n
  | .takeControl =>
    match s.getClient n with
    | none => s
    | some c => if c.viewerId = "" then s else s.takeControl env c.viewerId
  | .attention payload =>
    (s.applyAttention env payload .user (env.fingerprint s.grid) stored).writeInitialFrames n
  | .replay => s.writeReplay n
  | .other => s

/-! ## PTY output, the restore watcher, the detector and the exit -/

/-- A chunk read by the PTY reader thread. Capturing titles and progress from it touches none of
the state here. -/
def handleOutput (env : HostEnv G) (s : HostState G) (data : List UInt8) (headless : Bool) :
    HostState G :=
  let (remainder, modes) :=
    trackMousePrivateModesFromOutput s.mouseModeState data s.mouseModeRemainder
      trackedMousePrivateModes
  let s :=
    { s with
      mouseModeState := modes
      mouseModeRemainder := remainder
      scrollback := s.scrollback.append data
      grid := env.writeGrid s.grid data }
  let s := s.broadcast (.output data)
  if ¬ headless ∧ ¬ s.localOutputSuppressed then s.emitLocal (.output data) else s

/-- Repaint the local terminal once its restore is due, unless the grid has outgrown it. -/
def restoreLocal (s : HostState G) : HostState G :=
  match localRestoreDecision s.localRestoreAt s.nowMs s.localTerminalExceeded with
  | .notDue => s
  | .skipOvergrown => { s with localRestoreAt := none }
  | .repaint =>
    let modes := buildMousePrivateModeRestoreSuffix s.mouseModeState trackedMousePrivateModes
    let s :=
      s.emitLocal (.restore modes s.scrollback.snapshot (max1 s.hostCols) (max1 s.hostRows))
    { s with
      localOutputSuppressed := false, localRestoreAt := none, localNoticeSize := none
      }.requestJiggle

/-- One leg of a pending jiggle, driven on the raw resizer. -/
def jiggleTick (s : HostState G) : HostState G :=
  match s.pendingJiggle with
  | none => s
  | some leg =>
    let size :=
      match leg with
      | .away => jiggleSize s.appliedCols s.appliedRows
      | .back => (s.appliedCols, s.appliedRows)
    { s with pendingJiggle := leg.next, resizes := s.resizes ++ [size] }

/-- One tick of the restore watcher. -/
def restoreTick (s : HostState G) : HostState G :=
  if s.exited then s else s.restoreLocal.jiggleTick

def idleSample (env : HostEnv G) (s : HostState G) (stored : Option SessionStatus) :
    HostState G :=
  if s.exited then s
  else
    let fp := env.fingerprint s.grid
    match s.idleDetector.update fp s.nowMs with
    | (none, detector) => { s with idleDetector := detector }
    | (some transition, detector) =>
      { s with idleDetector := detector }.applyAttention env
        ⟨transition.needsAttention, transition.reason, none⟩ .detector fp stored

/-- The teardown section after the child exited. -/
def teardown (env : HostEnv G) (s : HostState G) (exitCode : Int32) : HostState G :=
  let snapshot := s.scrollback.snapshot
  let now := env.nowIso s.nowMs
  let s :=
    { s with
      exited := true
      exitCode := some exitCode
      patches := s.patches ++ [exitPatch exitCode now] }
  let s := s.broadcast (.exit exitCode)
  let s :=
    if s.localAttached ∧ s.localOutputSuppressed then
      let modes := buildMousePrivateModeRestoreSuffix s.mouseModeState trackedMousePrivateModes
      { s.emitLocal (.restore modes snapshot (max1 s.hostCols) (max1 s.hostRows)) with
        controllerId := some "local", localOutputSuppressed := false, localNoticeSize := none,
        localRestoreAt := none }
    else s
  { s with clients := [] }

end HostState

/-! ## The transition system -/

/-- How the host was started: without a local terminal, with one on stdin only, or attached. -/
inductive Launch where
  | headless
  | relayOnly
  | attached
  deriving DecidableEq, Repr

inductive Event where
  | connect
  | initialFramesTimer (n : ClientId)
  | frame (n : ClientId) (frame : ClientFrame) (stored : Option SessionStatus)
  | disconnect (n : ClientId)
  | writerDies (n : ClientId)
  | localResize (cols rows : UInt16)
  | localStdin (bytes : List UInt8)
  | output (data : List UInt8)
  | restoreTick
  | idleSample (stored : Option SessionStatus)
  | clock (now : Int)
  | exit (exitCode : Int32)
  deriving DecidableEq, Repr

variable {G : Type}

def initialState (env : HostEnv G) (launch : Launch) (cols rows : UInt16) (idleSeconds : Int)
    (snippetEnabled : Bool) : HostState G where
  clients := []
  channels := fun _ => ⟨[], false⟩
  readers := []
  clientSeq := 0
  localRelay := launch != .headless
  hostCols := cols
  hostRows := rows
  appliedCols := cols
  appliedRows := rows
  controllerId := if launch = .attached then some "local" else none
  nextSeq := 0
  lastAttentionState := none
  currentAttentionMatchedAt := none
  currentAttentionFingerprint := none
  localAttached := launch == .attached
  localOutputSuppressed := false
  localRestoreAt := none
  localNoticeSize := none
  pendingJiggle := none
  exited := false
  exitCode := none
  scrollback := .new scrollbackCap
  grid := env.newGrid cols rows
  idleDetector := .new idleSeconds
  nowMs := 0
  mouseModeState := []
  mouseModeRemainder := []
  snippetEnabled := snippetEnabled
  localOut := []
  resizes := []
  patches := []

/-- What an event needs: frames and disconnects come from a running reader thread, local events
from the relay. -/
def enabled (s : HostState G) : Event → Bool
  | .frame n _ _ | .disconnect n => s.readers.contains n
  | .localResize _ _ | .localStdin _ => s.localRelay
  | .restoreTick => s.localAttached
  | .clock now => s.nowMs ≤ now
  | .exit _ => !s.exited
  | _ => true

def handle (env : HostEnv G) (s : HostState G) : Event → HostState G
  | .connect => s.acceptClient
  | .initialFramesTimer n => s.writeInitialFrames n
  | .frame n frame stored => s.handleFrame env n stored frame
  | .disconnect n =>
    HostState.handleDisconnect env { s with readers := s.readers.filter (· != n) } n
  | .writerDies n =>
    { s with channels := Function.update s.channels n ⟨(s.channels n).frames, true⟩ }
  | .localResize cols rows => s.applyResize env ⟨cols, rows, some .terminal, some "local"⟩
  | .localStdin bytes => (s.localStdin env bytes).2
  | .output data => s.handleOutput env data (!s.localRelay)
  | .restoreTick => s.restoreTick
  | .idleSample stored => s.idleSample env stored
  | .clock now => { s with nowMs := now }
  | .exit exitCode => s.teardown env exitCode

/-- A critical section. The iteration order of the client map is arbitrary, so it may have been
rearranged since the last one. -/
def Step (env : HostEnv G) (s : HostState G) (e : Event) (t : HostState G) : Prop :=
  enabled s e ∧ ∃ clients, clients.Perm s.clients ∧ t = handle env { s with clients := clients } e

/-- The schedule of a deterministic run, in which the map's order is never rearranged. -/
def next (env : HostEnv G) (s : HostState G) (e : Event) : Option (HostState G) :=
  if enabled s e then some (handle env s e) else none

theorem step_of_next {env : HostEnv G} {s t : HostState G} {e : Event}
    (h : next env s e = some t) : Step env s e t := by
  unfold next at h
  split at h
  next he =>
    cases h
    exact ⟨he, s.clients, List.Perm.refl _, rfl⟩
  next => cases h

/-- A host whose grid is not looked at. -/
def plainEnv : HostEnv Unit where
  newGrid := fun _ _ => ()
  resizeGrid := fun _ _ _ => ()
  writeGrid := fun _ _ => ()
  fingerprint := fun _ => ""
  extractSnippet := fun _ => none
  nowIso := fun _ => ""

end Climon.Session.Host
