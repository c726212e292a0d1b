import Climon.Server.Routes
import Climon.Server.SessionEdit

namespace Climon.Server.Handlers

open Climon.Lib.JavaScript Climon.Lib.JsonDocument Climon.Lib.Utf16 Climon.Server.Hosts
  Climon.Server.Routes Climon.Server.SessionEdit

/-!
# What the dashboard server does for an admitted request

What stays behind `isAllowedSpawnRequest` alone (spawning, remotes, tunnels) is a parameter.
-/

/-- The preferences, and what else `config.jsonc` holds but the spawn secret. -/
structure Config (κ : Type) where
  dashboard : List (String × JsValue)
  rest : κ

structure ServerState (κ τ ρ : Type) where
  files : List (String × Fields)
  scrollback : List (String × List UInt8)
  config : Config κ
  configFile : Config κ
  spawnSecret : Option String
  subscriptions : List (List UInt16 × JsValue)
  foreground : List (List UInt16)
  tunnels : τ
  /-- The tunnel's expiry, cached by status reads. -/
  expiresAt : Option String
  processes : ρ
  shutdown : Option Bool
  sseClients : Nat
  attached : List String

inductive Response where
  | text (status : Nat) (body : String)
  | empty (status : Nat)
  | internalError
  | editError (error : EditError)
  | health (preferences : List (String × JsValue)) (features : Bool)
  | asset (contentType : String) (body : List UInt8)
  | dashboard
  | privileged (operation : Privileged) (body : JsValue)
  | remoteStatus (spawnSecret : Option String)
  | dashboardTunnelStatus (expiresAt : Option String)
  | vapidPublicKey (key : String)
  | preference (key : List UInt16) (value : Option JsValue)
  | preferenceError (error : EditError)
  | sessions (sessions : List Props)
  | session (sessionMeta : Props)
  | stillRunning
  | scrollback (data : List UInt8)
  | events (sessions : List Props)
  | upgraded (id : String)

structure Backend (κ τ ρ : Type) where
  getStaticAsset : String → Option (String × List UInt8)
  sessionSpawning : κ → Bool
  remoteSpawn : κ → Bool
  pushAvailable : Bool
  vapidPublicKey : String
  isThemeName : List UInt16 → Bool
  isAllowedPushEndpoint : List UInt16 → Bool
  refreshExpiry : τ → Option String → Option String
  freshSecret : String
  privileged : Privileged → Option JsValue → ServerState κ τ ρ → ServerState κ τ ρ × JsValue
  killProcess : ρ → JsValue → Bool → ρ × Bool
  afterGrace : ρ → ρ
  isProcessAlive : ρ → JsValue → Bool
  sanitizeBrowserTerminalReplay : List UInt8 → List UInt8
  now : String

variable {κ τ ρ : Type}

/-! ## The store -/

namespace ServerState

def readSessionMeta (server : ServerState κ τ ρ) (id : String) : Option Props :=
  (server.files.lookup id).map SessionEdit.readSessionMeta

def listSessions (server : ServerState κ τ ρ) : List Props :=
  server.files.map fun file => SessionEdit.readSessionMeta file.2

def writeSessionMeta (server : ServerState κ τ ρ) (id : String) (sessionMeta : Props) :
    ServerState κ τ ρ :=
  { server with
    files := (id, JsValue.toFields sessionMeta) :: server.files.filter fun file => file.1 != id }

def removeSessionMeta (server : ServerState κ τ ρ) (id : String) : ServerState κ τ ρ × Bool :=
  match server.files.lookup id with
  | none => (server, false)
  | some _ =>
    ({ server with
        files := server.files.filter fun file => file.1 != id
        scrollback := server.scrollback.filter fun file => file.1 != id }, true)

end ServerState

/-! ## Preferences -/

def dashboardWritable : List String :=
  ["dashboard.theme", "dashboard.keyBarPinned", "dashboard.touchWheelInverted",
    "dashboard.stateIconNoMotion"]

/-- `typeof value` against the declared type, then the setting's own check. -/
def checkPreference (backend : Backend κ τ ρ) (path : String) (value : JsValue) :
    Except EditError Unit :=
  match value with
  | .string units =>
    if path ≠ "dashboard.theme" then .error (.message (encode (path ++ " must be a boolean")))
    else if backend.isThemeName units then .ok ()
    else
      .error (.message (encode "dashboard.theme is not a recognised theme name: " ++ units))
  | .bool _ =>
    if path = "dashboard.theme" then .error (.message (encode (path ++ " must be a string")))
    else .ok ()
  | _ =>
    let declared := if path = "dashboard.theme" then "string" else "boolean"
    .error (.message (encode (path ++ " must be a " ++ declared)))

/-- An undefined value has no declared type, as null. -/
def applyDashboardPreference (backend : Backend κ τ ρ) (config : Config κ) (key : List UInt16)
    (value : Option JsValue) : Except EditError (Config κ) := do
  match dashboardWritable.find? fun path => encode path == key with
  | none => throw (.message (encode "Unknown or non-writable preference: " ++ key))
  | some path =>
    let value := value.getD .null
    checkPreference backend path value
    return { config with
      dashboard := (path, value) :: config.dashboard.filter fun entry => entry.1 != path }

def setPreference (backend : Backend κ τ ρ) (body : JsValue) (server : ServerState κ τ ρ) :
    ServerState κ τ ρ × Response :=
  match property body "key", property body "value" with
  | .ok (some (.string key)), .ok value =>
    match applyDashboardPreference backend server.configFile key value with
    | .ok latest => ({ server with configFile := latest, config := latest }, .preference key value)
    | .error error => (server, .preferenceError error)
  | .error _, _ => (server, .internalError)
  | _, _ => (server, .text 400 "Missing key")

/-! ## Push -/

def nonEmptyText : Except EditError (Option JsValue) → Option (List UInt16)
  | .ok (some (.string units)) => if units = [] then none else some units
  | _ => none

def isText : Except EditError (Option JsValue) → Bool
  | .ok (some (.string _)) => true
  | _ => false

/-- `isValidSubscription`: the endpoint of a valid one. -/
def validSubscription (backend : Backend κ τ ρ) (body : JsValue) : Option (List UInt16) :=
  match nonEmptyText (property body "endpoint"), property body "keys" with
  | some endpoint, .ok (some keys) =>
    if backend.isAllowedPushEndpoint endpoint ∧ keys.truthy ∧ isText (property keys "p256dh") ∧
        isText (property keys "auth") then
      some endpoint
    else none
  | _, _ => none

def performPush (backend : Backend κ τ ρ) (call : PushCall) (body : JsValue)
    (server : ServerState κ τ ρ) : ServerState κ τ ρ × Response :=
  match call with
  | .subscribe =>
    match validSubscription backend body with
    | none => (server, .text 400 "Invalid subscription")
    | some endpoint =>
      ({ server with
          subscriptions :=
            (server.subscriptions.filter fun entry => entry.1 != endpoint) ++
              [(endpoint, body)] }, .empty 204)
  | .unsubscribe =>
    match property body "endpoint" with
    | .error _ => (server, .internalError)
    | value =>
      match nonEmptyText value with
      | none => (server, .text 400 "Invalid endpoint")
      | some endpoint =>
        ({ server with
            subscriptions := server.subscriptions.filter fun entry => entry.1 != endpoint },
          .empty 204)
  | .presence =>
    match property body "endpoint" with
    | .error _ => (server, .internalError)
    | value =>
      match nonEmptyText value, property body "foreground" with
      | none, _ => (server, .text 400 "Invalid endpoint")
      | some endpoint, .ok (some (.bool foreground)) =>
        let others := server.foreground.filter (· != endpoint)
        ({ server with foreground := if foreground then endpoint :: others else others },
          .empty 204)
      | some _, _ => (server, .text 400 "Invalid foreground")

/-! ## Remotes and sessions -/

def getSpawnSecret (server : ServerState κ τ ρ) : Option String :=
  server.spawnSecret.filter (· ≠ "")

def ensureSpawnSecret (backend : Backend κ τ ρ) (server : ServerState κ τ ρ) :
    ServerState κ τ ρ × Option String :=
  if !backend.remoteSpawn server.configFile.rest then (server, none)
  else
    match getSpawnSecret server with
    | some existing => (server, some existing)
    | none => ({ server with spawnSecret := some backend.freshSecret }, some backend.freshSecret)

def remoteStatus (backend : Backend κ τ ρ) (server : ServerState κ τ ρ) :
    ServerState κ τ ρ × Response :=
  if backend.remoteSpawn server.config.rest then
    let (server, secret) := ensureSpawnSecret backend server
    (server, .remoteStatus secret)
  else (server, .remoteStatus none)

inductive KillMode where
  | none
  | graceful
  | force
  deriving DecidableEq, Repr

def parseKillMode (value : Option String) : Option KillMode :=
  if value = Option.none ∨ value = some "" ∨ value = some "none" then some .none
  else if value = some "graceful" then some .graceful
  else if value = some "force" then some .force
  else Option.none

/-- The processes afterwards, and whether the daemon is still running. -/
def applySessionKill (backend : Backend κ τ ρ) (processes : ρ) (pid : Option JsValue)
    (mode : KillMode) : ρ × Bool :=
  match mode, pid with
  | .none, _ => (processes, false)
  | _, none => (processes, false)
  | .force, some pid => ((backend.killProcess processes pid true).1, false)
  | .graceful, some pid =>
    let (processes, signalled) := backend.killProcess processes pid false
    if !signalled then (processes, false)
    else
      let processes := backend.afterGrace processes
      (processes, backend.isProcessAlive processes pid)

def deleteSession (backend : Backend κ τ ρ) (id : String) (kill : Option String)
    (server : ServerState κ τ ρ) : ServerState κ τ ρ × Response :=
  match parseKillMode kill with
  | none => (server, .text 400 "Invalid kill mode")
  | some mode =>
    let pid := (server.readSessionMeta id).bind fun sessionMeta => sessionMeta.get? "daemonPid"
    let (processes, stillRunning) := applySessionKill backend server.processes pid mode
    let server := { server with processes }
    if stillRunning then (server, .stillRunning)
    else
      let (server, removed) := server.removeSessionMeta id
      (server, if removed then .empty 204 else .text 404 "Not found")

/-- `PATCH /api/sessions/:id`: the body is checked before the session is looked up. -/
def patchSession (backend : Backend κ τ ρ) (id : String) (body : JsValue)
    (server : ServerState κ τ ρ) : ServerState κ τ ρ × Response :=
  match sessionPatch body, server.files.lookup id with
  | .error error, _ => (server, .editError error)
  | .ok _, none => (server, .text 404 "Not found")
  | .ok _, some file =>
    match editSession file body backend.now with
    | .error error => (server, .editError error)
    | .ok updated => (server.writeSessionMeta id updated, .session updated)

/-! ## Requests -/

def features (backend : Backend κ τ ρ) (server : ServerState κ τ ρ) : Features where
  sessionSpawning := backend.sessionSpawning server.config.rest
  pushAvailable := backend.pushAvailable
  getStaticAsset := backend.getStaticAsset

/-- `await request.json()` -/
def withJson (request : Request) (invalid : String) (server : ServerState κ τ ρ)
    (handle : JsValue → ServerState κ τ ρ × Response) : ServerState κ τ ρ × Response :=
  match request.body with
  | none => (server, .text 400 invalid)
  | some body => handle body

def performPrivileged (backend : Backend κ τ ρ) (operation : Privileged)
    (body : Option JsValue) (server : ServerState κ τ ρ) : ServerState κ τ ρ × Response :=
  let (server, answer) := backend.privileged operation body server
  (server, .privileged operation answer)

def perform (backend : Backend κ τ ρ) (request : Request) (server : ServerState κ τ ρ) :
    Action → ServerState κ τ ρ × Response
  | .reject status body => (server, .text status body)
  | .health isLocalRequest => (server, .health server.config.dashboard isLocalRequest)
  | .shutdown stopIngest => ({ server with shutdown := some stopIngest }, .text 200 "ok")
  | .asset contentType body => (server, .asset contentType body)
  | .dashboard => (server, .dashboard)
  | .privileged operation => performPrivileged backend operation request.body server
  | .remoteStatus => remoteStatus backend server
  | .dashboardTunnelStatus =>
    let expiresAt := backend.refreshExpiry server.tunnels server.expiresAt
    ({ server with expiresAt }, .dashboardTunnelStatus expiresAt)
  | .vapidPublicKey => (server, .vapidPublicKey backend.vapidPublicKey)
  | .push call =>
    withJson request "Invalid JSON body" server fun body => performPush backend call body server
  | .setPreference =>
    withJson request "Invalid JSON" server fun body => setPreference backend body server
  | .listSessions => (server, .sessions server.listSessions)
  | .patchSession id =>
    withJson request "Invalid JSON body" server fun body => patchSession backend id body server
  | .deleteSession id => deleteSession backend id request.kill server
  | .readScrollback id =>
    match server.scrollback.lookup id with
    | none => (server, .text 404 "Not found")
    | some data => (server, .scrollback (backend.sanitizeBrowserTerminalReplay data))
  | .events => ({ server with sseClients := server.sseClients + 1 }, .events server.listSessions)
  | .attach id =>
    match server.readSessionMeta id with
    | none => (server, .text 404 "Not found")
    | some _ =>
      if request.upgrade then ({ server with attached := id :: server.attached }, .upgraded id)
      else (server, .text 426 "Expected WebSocket upgrade")

def fetch (backend : Backend κ τ ρ) (request : Request) (server : ServerState κ τ ρ) :
    ServerState κ τ ρ × Response :=
  perform backend request server (route (features backend server) request)

end Climon.Server.Handlers
