import Climon.Server.Hosts

namespace Climon.Server.Routes

open Climon.Lib.JavaScript Climon.Lib.Utf16 Climon.Server.Hosts

/-!
# The routes of the dashboard server

`route` is the request handler up to the point where a request is admitted: every check of the
source address, the method and the headers, in the handler's order.
-/

structure Request where
  address : String
  method : String
  pathname : String
  source : Option String
  kill : Option String
  contentType : Option (List UInt16)
  origin : OriginHeader
  host : Option (List UInt16)
  /-- `none` when it is not JSON. -/
  body : Option JsValue
  upgrade : Bool

/-- The operations that spawn processes or manage remotes and tunnels. -/
inductive Privileged where
  | createSession
  | openDashboardTunnel
  | closeDashboardTunnel
  | setRemoteTunnel
  | deleteRemoteTunnel
  deriving DecidableEq, Repr

inductive PushCall where
  | subscribe
  | unsubscribe
  | presence
  deriving DecidableEq, Repr

inductive Action where
  | reject (status : Nat) (body : String)
  | health (isLocalRequest : Bool)
  | shutdown (stopIngest : Bool)
  | asset (contentType : String) (body : List UInt8)
  | dashboard
  | privileged (operation : Privileged)
  | remoteStatus
  | dashboardTunnelStatus
  | vapidPublicKey
  | push (call : PushCall)
  | setPreference
  | listSessions
  | patchSession (id : String)
  | deleteSession (id : String)
  | readScrollback (id : String)
  | events
  | attach (id : String)

def forbidden : Action := .reject 403 "Forbidden"

def notFound : Action := .reject 404 "Not found"

/-- What the handler asks of the server before it admits a request. -/
structure Features where
  sessionSpawning : Bool
  pushAvailable : Bool
  getStaticAsset : String → Option (String × List UInt8)

def isLocal (request : Request) : Bool :=
  request.address == "127.0.0.1" || request.address == "::1" ||
    request.address == "::ffff:127.0.0.1"

/-- `/^\/api\/sessions\/([^/]+)$/` for no leaf, and the paths with a leaf below the id. -/
def sessionPath (leaf : List String) (pathname : String) : Option String :=
  match pathname.toList.splitOn '/' with
  | [] :: api :: sessions :: id :: rest =>
    if api = "api".toList ∧ sessions = "sessions".toList ∧ id ≠ [] ∧ rest = leaf.map (·.toList) then
      some (String.ofList id)
    else none
  | _ => none

def ingestDemotionShutdownSource : String := "ingest-demotion"

def shouldStopIngestForShutdown (source : Option String) : Bool :=
  source != some ingestDemotionShutdownSource

namespace Request

def isCall (request : Request) (method pathname : String) : Bool :=
  request.pathname == pathname && request.method == method

def allowedSpawn (request : Request) : Bool :=
  isAllowedSpawnRequest request.contentType request.origin request.host

/-- A DELETE without a content type counts as JSON. -/
def allowedBodyless (request : Request) : Bool :=
  isAllowedSpawnRequest (request.contentType.or (some (encode "application/json")))
    request.origin request.host

def sameOrigin (request : Request) : Bool :=
  isSameOriginRequest request.contentType request.origin request.host

def allowedHost (request : Request) : Bool := isAllowedDashboardHost request.host

def allowedAttach (request : Request) : Bool := isAllowedAttachUpgrade request.origin request.host

end Request

def requireLocal (request : Request) (admitted : Action) : Action :=
  if !isLocal request then forbidden else admitted

/-- Admit a request that the guard allows. -/
def guarded (allowed : Bool) (admitted : Action) : Action :=
  if !allowed then forbidden else admitted

def routePush (features : Features) (request : Request) (call : PushCall) : Action :=
  if !features.pushAvailable then .reject 503 "Push unavailable"
  else guarded request.sameOrigin (.push call)

/-- The routes below a session's path. -/
def routeSession (request : Request) : Action :=
  match sessionPath [] request.pathname with
  | some id =>
    if request.method = "PATCH" then guarded request.allowedSpawn (.patchSession id)
    else if request.method = "DELETE" then guarded request.allowedHost (.deleteSession id)
    else notFound
  | none =>
    match sessionPath ["scrollback"] request.pathname with
    | some id => guarded request.allowedHost (.readScrollback id)
    | none =>
      if request.pathname = "/api/events" then guarded request.allowedHost .events
      else
        match sessionPath ["attach"] request.pathname with
        | some id => guarded request.allowedAttach (.attach id)
        | none => notFound

/-- The routes for which `authorize` is asked. -/
def routeAuthorized (features : Features) (request : Request) : Action :=
  if request.pathname = "/" then .dashboard
  else if request.isCall "POST" "/api/sessions" then
    if !features.sessionSpawning then .reject 403 "Session spawning is disabled"
    else requireLocal request (guarded request.allowedSpawn (.privileged .createSession))
  else if request.isCall "GET" "/api/remote/status" then requireLocal request .remoteStatus
  else if request.isCall "GET" "/api/dashboard-tunnel/status" then
    requireLocal request .dashboardTunnelStatus
  else if request.isCall "POST" "/api/dashboard-tunnel" then
    requireLocal request (guarded request.allowedSpawn (.privileged .openDashboardTunnel))
  else if request.isCall "DELETE" "/api/dashboard-tunnel" then
    requireLocal request (guarded request.allowedBodyless (.privileged .closeDashboardTunnel))
  else if request.isCall "POST" "/api/remote/tunnel" then
    requireLocal request (guarded request.allowedSpawn (.privileged .setRemoteTunnel))
  else if request.isCall "DELETE" "/api/remote/tunnel" then
    requireLocal request (guarded request.allowedBodyless (.privileged .deleteRemoteTunnel))
  else if request.pathname = "/api/push/vapid-public-key" then
    if !features.pushAvailable then .reject 503 "Push unavailable" else .vapidPublicKey
  else if request.isCall "POST" "/api/push/subscribe" then routePush features request .subscribe
  else if request.isCall "POST" "/api/push/unsubscribe" then
    routePush features request .unsubscribe
  else if request.isCall "POST" "/api/push/presence" then routePush features request .presence
  else if request.isCall "POST" "/api/dashboard/preferences" then
    guarded request.sameOrigin .setPreference
  else if request.pathname = "/api/sessions" then guarded request.allowedHost .listSessions
  else routeSession request

def route (features : Features) (request : Request) : Action :=
  if request.pathname = "/health" then
    .health (isLocal request && isLoopbackHostHeader request.host)
  else if request.isCall "POST" "/__internal/shutdown" then
    requireLocal request (.shutdown (shouldStopIngestForShutdown request.source))
  else
    match features.getStaticAsset request.pathname with
    | some (contentType, body) => .asset contentType body
    | none => requireLocal request (routeAuthorized features request)

end Climon.Server.Routes
