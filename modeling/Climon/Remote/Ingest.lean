import Climon.Remote.Sanitize
import Climon.Store.Clock
import Climon.Store.SessionFiles

namespace Climon.Remote.Ingest

open Climon.Lib.JsonValue Climon.Proto.Meta Climon.Remote.Sanitize Climon.Store.Clock
  Climon.Store.SessionFiles

/-!
# Ingest connections

Uplinks connect, name themselves once with a hello, and mirror their sessions into local files
under that label. Every connection handles one message at a time; other connections and other
processes run between any two.
-/

abbrev ConnId := Nat

structure Config where
  maxSessions : Nat
  registry : Bool
  spawnSecret : Option String
  wslBridgeEnabled : Bool

/-- A mirrored session: its listener, and what was forwarded to each local viewer. -/
structure RemoteSession where
  localId : String
  port : UInt16
  sockets : List (Nat × List UInt8)
  deriving DecidableEq, Repr

/-- After a hello that evicts `old`, a connection reads nothing until `old` is torn down. -/
inductive Phase where
  | absent
  | reading
  | awaiting (old : ConnId)
  | closed
  deriving DecidableEq, Repr

structure Conn where
  phase : Phase
  label : Option String
  sessions : List (String × RemoteSession)
  shutdown : Bool
  teardownDone : Bool
  deriving DecidableEq, Repr

/-- `opened` is the log of the listeners ingest bound, each with the session it was bound for. -/
structure IngestState where
  dir : Directory
  conns : ConnId → Conn
  active : List (String × ConnId)
  dismissed : String → Bool
  opened : List (UInt16 × String)

/-- The payload of a signed control message that verified. -/
inductive Verified where
  | sessionList (ids : List String)
  | other

/-- What the outside answers while one message is handled: the listener's port, file system
results, successive clock readings, and the signature check. -/
structure Io where
  port : Option UInt16
  writeOk : Bool
  patchOk : String → Bool
  removeOk : String → Bool
  listOk : Bool
  clock : Nat → Int64
  verified : Option Verified

def Io.now (io : Io) (reading : Nat) : String := iso8601MillisUtc (io.clock reading)

def formatSessionSocketRef (host : String) (port : UInt16) : String :=
  let normalized := if host.toList.contains ':' then "[" ++ host ++ "]" else host
  "tcp://" ++ normalized ++ ":" ++ port.toNat.repr

def stripPrefix (s front : String) : Option String :=
  if front.toList.isPrefixOf s.toList then some (String.ofList (s.toList.drop front.length))
  else none

def disconnectedPatch : SessionMetaPatch where
  status := some .disconnected
  priorityReason := some .disconnected

def shouldRejectPeerHello (isPeer wslBridgeEnabled : Bool) : Bool := isPeer && !wslBridgeEnabled

namespace IngestState

def updateConn (s : IngestState) (c : ConnId) (f : Conn → Conn) : IngestState :=
  { s with conns := Function.update s.conns c (f (s.conns c)) }

def dropSession (s : IngestState) (c : ConnId) (remoteId : String) : IngestState :=
  s.updateConn c fun conn =>
    { conn with sessions := conn.sessions.filter fun p => p.1 != remoteId }

def patch (s : IngestState) (io : Io) (localId : String) (patch : SessionMetaPatch) :
    IngestState :=
  if io.patchOk localId then { s with dir := s.dir.patchSessionMeta localId patch (io.now 1) }
  else s

def remove (s : IngestState) (io : Io) (localId : String) : IngestState :=
  if io.removeOk localId then { s with dir := s.dir.removeSessionMeta localId } else s

/-! ## Hello and the registry -/

/-- The previous connection of the label stays registered until its teardown is done. -/
def evictAndRegister (s : IngestState) (c : ConnId) (clientId : String) : IngestState :=
  match s.active.lookup clientId with
  | some old =>
    (s.updateConn old fun conn => { conn with shutdown := true }).updateConn c fun conn =>
      { conn with phase := .awaiting old }
  | none => { s with active := (clientId, c) :: s.active }

def hello (config : Config) (s : IngestState) (c : ConnId) (value : Json) : IngestState :=
  match (s.conns c).label with
  | some _ => s
  | none =>
    let isPeer := ((value.get? "peer").bind Json.asBool).getD false
    if shouldRejectPeerHello isPeer config.wslBridgeEnabled then
      s.updateConn c fun conn => { conn with shutdown := true }
    else
      match (value.get? "clientId").bind Json.asStr with
      | none => s
      | some clientId =>
        if isValidRemoteId clientId then
          let s := s.updateConn c fun conn => { conn with label := some clientId }
          if config.registry then s.evictAndRegister c clientId else s
        else s

/-- The wait for the evicted connection is over. -/
def register (s : IngestState) (c old : ConnId) (label : String) : IngestState :=
  let s := s.updateConn old fun conn => { conn with teardownDone := false }
  let s := s.updateConn c fun conn => { conn with phase := .reading }
  { s with active := (label, c) :: s.active.filter fun p => p.1 != label }

/-! ## Sessions -/

def addSession (config : Config) (io : Io) (s : IngestState) (c : ConnId) (advertised : Json) :
    IngestState :=
  match (s.conns c).label with
  | none => s
  | some label =>
    let remoteId := ((advertised.get? "id").bind Json.asStr).getD ""
    if ¬ isValidRemoteId remoteId then s
    else
      let localId := namespacedId label remoteId
      -- A session the user deleted is not materialised again.
      if config.registry ∧ s.dismissed localId then s.dropSession c remoteId
      else
        match (s.conns c).sessions.lookup remoteId with
        | some existing =>
          let patch := sanitizeRemotePatch (.object [
            ("status", (advertised.get? "status").getD .null),
            ("priorityReason", (advertised.get? "priorityReason").getD .null)])
          s.patch io existing.localId { patch with lastActivityAt := some (io.now 0) }
        | none =>
          if config.maxSessions ≤ (s.conns c).sessions.length then s
          else
            match io.port with
            | none => s
            | some port =>
              let resolved := formatSessionSocketRef "127.0.0.1" port
              let metaLocal := toLocalMeta advertised label localId resolved (io.now 0)
              let s := { s with opened := (port, localId) :: s.opened }
              if io.writeOk then
                { s with dir := s.dir.writeSessionMeta metaLocal }.updateConn c fun conn =>
                  { conn with sessions := (remoteId, ⟨localId, port, []⟩) :: conn.sessions }
              else s

def updateSession (io : Io) (s : IngestState) (c : ConnId) (value : Json) : IngestState :=
  let id := ((value.get? "id").bind Json.asStr).getD ""
  if ¬ isValidRemoteId id then s
  else
    match (s.conns c).sessions.lookup id with
    | none => s
    | some session =>
      s.patch io session.localId (((value.get? "patch").map sanitizeRemotePatch).getD {})

/-- The connection is gone: keep the file, marked disconnected. -/
def removeSession (io : Io) (c : ConnId) (s : IngestState) (remoteId : String) : IngestState :=
  match (s.conns c).sessions.lookup remoteId with
  | none => s
  | some session => (s.dropSession c remoteId).patch io session.localId disconnectedPatch

/-- The source deleted the session: delete the file. -/
def removeSessionDeleting (io : Io) (c : ConnId) (s : IngestState) (remoteId : String) :
    IngestState :=
  match (s.conns c).sessions.lookup remoteId with
  | none => s
  | some session => (s.dropSession c remoteId).remove io session.localId

def sessionRemoved (io : Io) (s : IngestState) (c : ConnId) (value : Json) : IngestState :=
  let id := ((value.get? "id").bind Json.asStr).getD ""
  if isValidRemoteId id then s.removeSessionDeleting io c id else s

def sessionListIds (value : Json) : List String :=
  (((value.get? "ids").bind Json.asArray).getD []).filterMap Json.asStr

/-- One file of `reconcileAgainstSnapshot`. -/
def reconcileFile (io : Io) (label : String) (snapshotIds : List String) (dismissed : String → Bool)
    (s : IngestState) (sessionMeta : SessionMeta) : IngestState :=
  if sessionMeta.origin ≠ some .remote then s
  else
    match stripPrefix sessionMeta.id (label ++ "~") with
    | none => s
    | some remoteId =>
      if dismissed sessionMeta.id ∨ ¬ snapshotIds.contains remoteId then
        s.remove io sessionMeta.id
      else s

/-- Delete the files of `label` that the snapshot does not list, whichever connection left them. -/
def reconcileAgainstSnapshot (io : Io) (s : IngestState) (label : String)
    (snapshotIds : List String) (dismissed : String → Bool) : IngestState :=
  if io.listOk then
    s.dir.listSessions.foldl (reconcileFile io label snapshotIds dismissed) s
  else s

def applySessionList (config : Config) (io : Io) (s : IngestState) (c : ConnId) (label : String)
    (ids : List String) : IngestState :=
  let valid := ids.filter isValidRemoteId
  let dismissed := if config.registry then s.dismissed else fun _ => false
  let toDrop := ((s.conns c).sessions.map (·.1)).filter fun remoteId => !valid.contains remoteId
  (toDrop.foldl (removeSessionDeleting io c) s).reconcileAgainstSnapshot io label valid dismissed

def sessionList (config : Config) (io : Io) (s : IngestState) (c : ConnId) (ids : List String) :
    IngestState :=
  match (s.conns c).label with
  | none => s
  | some label => s.applySessionList config io c label ids

/-! ## Frames -/

/-- A control message. The kinds left out here touch no session: pings, and the results of spawn
requests, which only wake the request. With a spawn secret, only a signed list is honoured. -/
def handleControl (config : Config) (io : Io) (s : IngestState) (c : ConnId) (value : Json) :
    IngestState :=
  match ((value.get? "kind").bind Json.asStr).getD "" with
  | "hello" => s.hello config c value
  | "session-added" =>
    match value.get? "meta" with
    | none => s
    | some advertised => s.addSession config io c advertised
  | "session-updated" => s.updateSession io c value
  | "session-removed" => s.sessionRemoved io c value
  | "session-list" =>
    if config.spawnSecret.isSome then s else s.sessionList config io c (sessionListIds value)
  | "signed" =>
    match config.spawnSecret, io.verified with
    | some _, some (.sessionList ids) => s.sessionList config io c ids
    | _, _ => s
  | _ => s

/-- Channel data goes to every viewer of the session. -/
def handleData (s : IngestState) (c : ConnId) (sessionId : String) (data : List UInt8) :
    IngestState :=
  s.updateConn c fun conn =>
    { conn with
      sessions := conn.sessions.map fun p =>
        if p.1 = sessionId then
          (p.1, { p.2 with sockets := p.2.sockets.map fun socket => (socket.1, socket.2 ++ data) })
        else p }

/-- A local viewer connects to the session's listener. -/
def acceptViewer (s : IngestState) (c : ConnId) (remoteId : String) : IngestState :=
  s.updateConn c fun conn =>
    { conn with
      sessions := conn.sessions.map fun p =>
        if p.1 = remoteId then
          (p.1, { p.2 with sockets := (p.2.sockets.length, []) :: p.2.sockets })
        else p }

def markTornDown (s : IngestState) (c : ConnId) (label : String) : IngestState :=
  if s.active.lookup label = some c then
    { s.updateConn c fun conn => { conn with teardownDone := true } with
      active := s.active.filter fun p => p.1 != label }
  else s

def teardown (config : Config) (io : Io) (s : IngestState) (c : ConnId) : IngestState :=
  let remoteIds := (s.conns c).sessions.map (·.1)
  let s := remoteIds.foldl (removeSession io c) s
  let s :=
    match (s.conns c).label with
    | some label => if config.registry then s.markTornDown c label else s
    | none => s
  s.updateConn c fun conn => { conn with phase := .closed }

/-- One leftover file of `reconcileStaleRemoteSessions`. -/
def reconcileStaleFile (io : Io) (s : IngestState) (sessionMeta : SessionMeta) : IngestState :=
  if sessionMeta.origin ≠ some .remote then s
  else
    match sessionMeta.status with
    | .running | .acknowledged | .needsAttention | .paused =>
      s.patch io sessionMeta.id disconnectedPatch
    | .disconnected => s.remove io sessionMeta.id
    | _ => s

/-- At the start of the daemon: leftover sessions of a previous one are marked disconnected, or
removed if they already were. -/
def reconcileStaleRemoteSessions (io : Io) (s : IngestState) : IngestState :=
  if io.listOk then s.dir.listSessions.foldl (reconcileStaleFile io) s else s

end IngestState

/-! ## The transition system -/

inductive Event where
  | start (io : Io)
  | connect (c : ConnId)
  | control (c : ConnId) (value : Json) (io : Io)
  | data (c : ConnId) (sessionId : String) (data : List UInt8)
  | registered (c : ConnId)
  | viewer (c : ConnId) (remoteId : String)
  | close (c : ConnId) (io : Io)
  | others (dir : Directory) (dismissed : String → Bool)

def initialState (dir : Directory) (dismissed : String → Bool) : IngestState where
  dir := dir
  conns := fun _ => ⟨.absent, none, [], false, false⟩
  active := []
  dismissed := dismissed
  opened := []

/-- A connection reads frames and can end only while it is not waiting in a hello. -/
def next (config : Config) (s : IngestState) : Event → Option IngestState
  | .start io => some (s.reconcileStaleRemoteSessions io)
  | .connect c =>
    if (s.conns c).phase = .absent then
      some (s.updateConn c fun conn => { conn with phase := .reading })
    else none
  | .control c value io =>
    if (s.conns c).phase = .reading then some (s.handleControl config io c value) else none
  | .data c sessionId data =>
    if (s.conns c).phase = .reading then some (s.handleData c sessionId data) else none
  | .registered c =>
    match (s.conns c).phase, (s.conns c).label with
    | .awaiting old, some label =>
      if (s.conns old).teardownDone then some (s.register c old label) else none
    | _, _ => none
  | .viewer c remoteId => some (s.acceptViewer c remoteId)
  | .close c io =>
    if (s.conns c).phase = .reading then some (s.teardown config io c) else none
  | .others dir dismissed => some { s with dir := dir, dismissed := dismissed }

def Step (config : Config) (s : IngestState) (e : Event) (t : IngestState) : Prop :=
  next config s e = some t

end Climon.Remote.Ingest
