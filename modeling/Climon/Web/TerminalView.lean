import Climon.Session.Host

namespace Climon.Web.TerminalView

open Climon.Proto.Frame

/-!
# The dashboard's terminal

One tab and one session. The refs of the component are the fields of `Tab`; callbacks of the
terminal and of the browser's timers are steps of their own.
-/

abbrev Size := UInt16 × UInt16

/-- A tab's identity. No generated id has the form of the host's own ones. -/
structure Viewer where
  id : String
  kind : SurfaceKind
  ne_empty : id ≠ ""
  ne_local : id ≠ "local"
  ne_client : ∀ n : Nat, id ≠ s!"client-{n}"

/-! ## Decisions -/

inductive ControlState where
  | controlling
  | displaced
  deriving DecidableEq, Repr

def deriveControlState (ownViewerId : String) : Option String → ControlState
  | some controllerId =>
    if controllerId ≠ "" ∧ controllerId = ownViewerId then .controlling else .displaced
  | none => .displaced

def shouldRefitOnControlFrame (state : ControlState) (wasDisplaced : Bool) : Bool :=
  state == .controlling && wasDisplaced

def shouldSendResize (last : Option Size) (next : Size) (requestReplay : Bool) : Bool :=
  requestReplay || last != some next

def shouldReclaimOnFocus (visible connected : Bool) (controllerId : Option String)
    (ownViewerId : String) : Bool :=
  visible && !(connected && controllerId == some ownViewerId)

/-! ## Messages to the server -/

inductive BrowserMessage where
  | input (data : List UInt8)
  | resize (size : Size) (kind : SurfaceKind) (viewerId : String)
  | takeControl
  | attention (attentionMatchedAt : String)
  | replay
  deriving DecidableEq, Repr

/-- A dimension of zero is falsy. -/
def browserResizePayload (size : Size) (kind : SurfaceKind) (viewerId : String) :
    Option ResizePayload :=
  if size.1 = 0 ∨ size.2 = 0 then none else some ⟨size.1, size.2, some kind, some viewerId⟩

/-- The frame that the server writes to the session's socket for a browser's message. -/
def forward : BrowserMessage → Option ClientFrame
  | .input data => some (.input data)
  | .resize size kind viewerId => (browserResizePayload size kind viewerId).map .resize
  | .takeControl => some .takeControl
  | .attention attentionMatchedAt =>
    some (.attention ⟨false, some "viewed", some attentionMatchedAt⟩)
  | .replay => some .replay

/-! ## The tab -/

/-- `displayed` is what the user sees. `replayWrites` counts the writes of this attachment after
which the replay is complete, and `refitDue` tells that a refit waits for its frame. -/
structure Tab where
  controllerId : Option String
  displaced : Bool
  displayed : ControlState
  displacedOverlayTimer : Bool
  lastSentSize : Option Size
  pendingTakeControl : Bool
  queuedAttentionAck : Option String
  replayAfterNextResize : Bool
  initialReplayComplete : Bool
  replayWrites : Nat
  refitDue : Bool
  reconnectTimer : Bool
  deriving DecidableEq, Repr

/-- A component that was just mounted. -/
def Tab.mounted : Tab where
  controllerId := none
  displaced := false
  displayed := .controlling
  displacedOverlayTimer := false
  lastSentSize := none
  pendingTakeControl := false
  queuedAttentionAck := none
  replayAfterNextResize := false
  initialReplayComplete := true
  replayWrites := 0
  refitDue := false
  reconnectTimer := false

namespace Tab

def resizeMessage (me : Viewer) (size : Size) : BrowserMessage := .resize size me.kind me.id

/-- `proposed` is what the container can hold. -/
def sendResize (me : Viewer) (tab : Tab) (isOpen : Bool) (proposed : Size) :
    Tab × List BrowserMessage :=
  if tab.displaced ∨ ¬ isOpen then (tab, [])
  else if ¬ shouldSendResize tab.lastSentSize proposed tab.replayAfterNextResize then (tab, [])
  else
    ({ tab with lastSentSize := some proposed, replayAfterNextResize := false },
      resizeMessage me proposed :: if tab.replayAfterNextResize then [.replay] else [])

/-- Fitting throws where nothing can be measured. -/
def fitNow (me : Viewer) (tab : Tab) (isOpen : Bool) (measured : Option Size) :
    Tab × List BrowserMessage :=
  if tab.displaced ∨ ¬ tab.initialReplayComplete then (tab, [])
  else
    match measured with
    | none => (tab, [])
    | some proposed => sendResize me tab isOpen proposed

def takeControl (me : Viewer) (tab : Tab) (isOpen : Bool) (proposed : Size) :
    Tab × List BrowserMessage :=
  if isOpen then
    ({ tab with lastSentSize := some proposed }, [resizeMessage me proposed, .takeControl])
  else (tab, [])

def flushPendingTakeControl (me : Viewer) (tab : Tab) (isOpen : Bool) (proposed : Size) :
    Tab × List BrowserMessage :=
  if tab.pendingTakeControl then
    takeControl me { tab with pendingTakeControl := false } isOpen proposed
  else (tab, [])

def armTakeControl (me : Viewer) (tab : Tab) (isOpen : Bool) (proposed : Size) :
    Tab × List BrowserMessage :=
  let tab := { tab with pendingTakeControl := true }
  if isOpen then flushPendingTakeControl me tab isOpen proposed else (tab, [])

def reclaimOnFocus (me : Viewer) (tab : Tab) (visible isOpen : Bool) (proposed : Size) :
    Tab × List BrowserMessage :=
  if shouldReclaimOnFocus visible isOpen tab.controllerId me.id then
    armTakeControl me tab isOpen proposed
  else (tab, [])

def sendAttentionAck (tab : Tab) (isOpen : Bool) (attentionMatchedAt : String) :
    Tab × List BrowserMessage :=
  if isOpen then (tab, [.attention attentionMatchedAt])
  else ({ tab with queuedAttentionAck := some attentionMatchedAt }, [])

def flushAttentionAck (tab : Tab) : Tab × List BrowserMessage :=
  match tab.queuedAttentionAck with
  | some attentionMatchedAt =>
    ({ tab with queuedAttentionAck := none }, [.attention attentionMatchedAt])
  | none => (tab, [])

def sendInput (tab : Tab) (isOpen : Bool) (data : List UInt8) : Tab × List BrowserMessage :=
  if ¬ tab.displaced ∧ isOpen then (tab, [.input data]) else (tab, [])

/-- The overlay waits for its timer; the gate closes at once. -/
def onControl (me : Viewer) (tab : Tab) (controllerId : String) : Tab :=
  match deriveControlState me.id (some controllerId) with
  | .displaced =>
    { tab with
      controllerId := some controllerId, displaced := true, displacedOverlayTimer := true }
  | .controlling =>
    let refits := shouldRefitOnControlFrame .controlling tab.displaced
    { tab with
      controllerId := some controllerId
      displaced := false
      displacedOverlayTimer := false
      displayed := .controlling
      replayAfterNextResize := refits || tab.replayAfterNextResize
      refitDue := refits || tab.refitDue }

/-- One frame of the host. Output that comes before the replay is complete is taken for it. -/
def readFrame (me : Viewer) (tab : Tab) : HostFrame → Tab
  | .control controllerId _ _ => onControl me tab controllerId
  | .replay _ => { tab with replayWrites := tab.replayWrites + 1 }
  | .output _ =>
    if tab.initialReplayComplete then tab else { tab with replayWrites := tab.replayWrites + 1 }
  | .exit _ | .ptySize _ _ => tab

/-- The terminal has written a replay. -/
def completeInitialReplay (tab : Tab) : Tab :=
  { tab with
    initialReplayComplete := true, replayWrites := tab.replayWrites - 1, refitDue := true }

/-- The frame that a refit waited for has come. -/
def refitted (tab : Tab) : Tab := { tab with refitDue := false }

def showDisplacedOverlay (tab : Tab) : Tab :=
  { tab with
    displacedOverlayTimer := false
    displayed := if tab.displaced then .displaced else tab.displayed }

/-- A new socket. What was last sent and who controlled are kept. -/
def attachLiveSession (tab : Tab) : Tab :=
  { tab with initialReplayComplete := false, replayWrites := 0, reconnectTimer := false }

def handleDisconnect (tab : Tab) (reconnects : Bool) : Tab :=
  { tab with initialReplayComplete := true, reconnectTimer := reconnects }

def closeWs (tab : Tab) : Tab :=
  { tab with
    initialReplayComplete := true, replayWrites := 0, replayAfterNextResize := false,
    reconnectTimer := false }

/-- The effect that runs when the session, its visibility or the server's state changes. -/
def selectSession (tab : Tab) (attaches : Bool) : Tab :=
  let tab :=
    { tab.closeWs with
      controllerId := none, lastSentSize := none, displaced := false,
      displacedOverlayTimer := false, displayed := .controlling }
  if attaches then tab.attachLiveSession else tab

end Tab

end Climon.Web.TerminalView
