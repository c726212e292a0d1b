import Climon.Server.Handlers

namespace Climon.Server.Authorisation

open Climon.Lib.JavaScript Climon.Lib.JsonDocument Climon.Lib.Utf16 Climon.Server.Handlers
  Climon.Server.Hosts Climon.Server.Routes Climon.Server.SessionEdit

/-!
# Request authorisation

What a request with a foreign `Host` or a cross-site `Origin` can do, and what one relayed by the
dev tunnel can do.
-/

/-! ## Requests -/

/-- DNS rebinding: the `Host` is neither a loopback name nor under the dev-tunnel domain. -/
def ForeignHost (request : Request) : Prop :=
  request.host.isSome ∧ request.allowedHost = false

/-- The `Host` is not a loopback name, as for a request relayed by the dev tunnel. -/
def RelayedHost (request : Request) : Prop :=
  request.host.isSome ∧ isLoopbackHostHeader request.host = false

/-- The origin is the page that `Host` names, or both are loopback names. -/
def OwnOrigin (url : OriginUrl) (host : Option (List UInt16)) : Prop :=
  (∃ value, host = some value ∧ toLowerCase url.host = toLowerCase (trim value)) ∨
    isLoopbackName (toLowerCase (stripBrackets url.hostname)) ∧
      ∀ value, host = some value → isLoopbackName (hostHeaderHostname value)

/-- The `Origin` is there and not the server's own. One that is no URL is `null` or forged. -/
def CrossSite (request : Request) : Prop :=
  ∃ header, request.origin = some header ∧ ∀ url, header = some url → ¬OwnOrigin url request.host

/-- The two routes that look at the source address alone. -/
def HostUnchecked (request : Request) : Prop :=
  (request.pathname = "/__internal/shutdown" ∧ request.method = "POST") ∨
    (request.pathname = "/api/remote/status" ∧ request.method = "GET")

/-- The session routes that a `Host` admits without an `Origin`. -/
def OriginUnchecked (request : Request) : Prop :=
  request.pathname = "/api/sessions" ∨ request.pathname = "/api/events" ∨
    (sessionPath [] request.pathname).isSome ∧ request.method = "DELETE" ∨
    (sessionPath ["scrollback"] request.pathname).isSome

/-- The routes whose guard compares `Origin` with `Host` and looks at neither name. -/
def sameOriginPaths : List String :=
  ["/api/push/subscribe", "/api/push/unsubscribe", "/api/push/presence",
    "/api/dashboard/preferences"]

/-- A same-origin write of a viewer, or of a rebinding page. -/
def SameOriginWrite (request : Request) : Prop :=
  request.pathname ∈ sameOriginPaths ∧ request.method = "POST" ∧ request.sameOrigin

/-! ## Guards -/

theorem loopbackHost_of_allowedSpawn {contentType : Option (List UInt16)} {origin : OriginHeader}
    {host : Option (List UInt16)} (h : isAllowedSpawnRequest contentType origin host = true)
    {value : List UInt16} (hhost : host = some value) :
    isLoopbackName (hostHeaderHostname value) = true := by
  simp only [isAllowedSpawnRequest, hhost, Bool.and_eq_true] at h
  exact h.2

theorem loopbackOrigin_of_allowedSpawn {contentType : Option (List UInt16)}
    {origin : OriginHeader} {host : Option (List UInt16)}
    (h : isAllowedSpawnRequest contentType origin host = true) {header : Option OriginUrl}
    (horigin : origin = some header) :
    ∃ url, header = some url ∧ isLoopbackName (toLowerCase (stripBrackets url.hostname)) = true := by
  simp only [isAllowedSpawnRequest, horigin, Bool.and_eq_true] at h
  cases header with
  | none => exact absurd h.1.2 Bool.false_ne_true
  | some url => exact ⟨url, rfl, h.1.2⟩

theorem not_crossSite_of_allowedSpawn {request : Request} {contentType : Option (List UInt16)}
    (h : isAllowedSpawnRequest contentType request.origin request.host = true) :
    ¬CrossSite request := by
  rintro ⟨header, horigin, hforeign⟩
  obtain ⟨url, rfl, hloopback⟩ := loopbackOrigin_of_allowedSpawn h horigin
  exact hforeign url rfl (.inr ⟨hloopback, fun value => loopbackHost_of_allowedSpawn h⟩)

theorem not_relayedHost_of_allowedSpawn {request : Request} {contentType : Option (List UInt16)}
    (h : isAllowedSpawnRequest contentType request.origin request.host = true) :
    ¬RelayedHost request := by
  rintro ⟨hsome, hloopback⟩
  obtain ⟨value, hvalue⟩ := Option.isSome_iff_exists.mp hsome
  rw [isLoopbackHostHeader, hvalue, Option.any_some, loopbackHost_of_allowedSpawn h hvalue]
    at hloopback
  exact Bool.false_ne_true hloopback.symm

theorem relayedHost_of_foreignHost {request : Request} (h : ForeignHost request) :
    RelayedHost request := by
  obtain ⟨hsome, hallowed⟩ := h
  obtain ⟨value, hvalue⟩ := Option.isSome_iff_exists.mp hsome
  refine ⟨hsome, ?_⟩
  rw [Request.allowedHost, isAllowedDashboardHost, hvalue, Option.any_some, Bool.or_eq_false_iff]
    at hallowed
  rw [isLoopbackHostHeader, hvalue, Option.any_some, hallowed.1]

theorem not_crossSite_of_sameOrigin {request : Request} {contentType : Option (List UInt16)}
    (h : isSameOriginRequest contentType request.origin request.host = true) :
    ¬CrossSite request := by
  rintro ⟨header, horigin, hforeign⟩
  have heq := (Bool.and_eq_true_iff.mp h).2
  split at heq
  · next url value hheader hhost =>
    rw [horigin] at hheader
    exact hforeign url (Option.some.inj hheader) (.inl ⟨value, hhost, eq_of_beq heq⟩)
  · exact Bool.false_ne_true heq

/-! ## Admission -/

private theorem isCall_iff {request : Request} {method pathname : String} :
    request.isCall method pathname = true ↔
      request.pathname = pathname ∧ request.method = method := by
  rw [Request.isCall, Bool.and_eq_true, beq_iff_eq, beq_iff_eq]

/-- What a request has passed when it is admitted to an action. -/
def Admits (request : Request) : Action → Prop
  | .shutdown _ | .remoteStatus => HostUnchecked request
  | .privileged _ | .patchSession _ =>
    ∃ contentType, isAllowedSpawnRequest contentType request.origin request.host = true
  | .push _ | .setPreference => SameOriginWrite request
  | .listSessions | .deleteSession _ | .readScrollback _ | .events =>
    request.allowedHost = true ∧ OriginUnchecked request
  | .attach _ => request.allowedAttach = true
  | .reject _ _ | .health _ | .asset _ _ | .dashboard | .dashboardTunnelStatus
  | .vapidPublicKey => True

private theorem admits_ite {request : Request} {c : Prop} [Decidable c] {action other : Action}
    (hthen : c → Admits request action) (helse : ¬c → Admits request other) :
    Admits request (if c then action else other) := by
  by_cases h : c
  · rw [if_pos h]
    exact hthen h
  · rw [if_neg h]
    exact helse h

private theorem admits_guarded {request : Request} {allowed : Bool} {action : Action}
    (h : allowed = true → Admits request action) : Admits request (guarded allowed action) := by
  cases allowed with
  | false => exact trivial
  | true => exact h rfl

private theorem admits_requireLocal {request : Request} {action : Action}
    (h : Admits request action) : Admits request (requireLocal request action) := by
  rw [requireLocal]
  split
  · exact trivial
  · exact h

private theorem admits_routePush (features : Features) {request : Request} {pathname : String}
    (call : PushCall) (hpath : pathname ∈ sameOriginPaths)
    (hcall : request.isCall "POST" pathname = true) :
    Admits request (routePush features request call) := by
  obtain ⟨heq, hmethod⟩ := isCall_iff.mp hcall
  rw [routePush]
  split
  · exact trivial
  · exact admits_guarded fun hsame => ⟨heq ▸ hpath, hmethod, hsame⟩

private theorem admits_routeSession (request : Request) :
    Admits request (routeSession request) := by
  rw [routeSession]
  split
  · next id hid =>
    split
    · exact admits_guarded fun hallowed => ⟨_, hallowed⟩
    · split
      · next hmethod =>
        refine admits_guarded fun hallowed => ⟨hallowed, .inr (.inr (.inl ⟨?_, hmethod⟩))⟩
        rw [hid, Option.isSome_some]
      · exact trivial
  · split
    · next id hid =>
      refine admits_guarded fun hallowed => ⟨hallowed, .inr (.inr (.inr ?_))⟩
      rw [hid, Option.isSome_some]
    · split
      · next hpath => exact admits_guarded fun hallowed => ⟨hallowed, .inr (.inl hpath)⟩
      · split
        · exact admits_guarded id
        · exact trivial

private theorem admits_routeAuthorized (features : Features) (request : Request) :
    Admits request (routeAuthorized features request) := by
  have hspawn (operation : Privileged) :
      Admits request (guarded request.allowedSpawn (.privileged operation)) :=
    admits_guarded fun hallowed => ⟨_, hallowed⟩
  have hbodyless (operation : Privileged) :
      Admits request (guarded request.allowedBodyless (.privileged operation)) :=
    admits_guarded fun hallowed => ⟨_, hallowed⟩
  rw [routeAuthorized]
  refine admits_ite (fun _ => trivial) fun _ => ?_
  refine admits_ite (fun _ => ?_) fun _ => ?_
  · exact admits_ite (fun _ => trivial) fun _ => admits_requireLocal (hspawn _)
  refine admits_ite (fun hcall => ?_) fun _ => ?_
  · exact admits_requireLocal (.inr (isCall_iff.mp hcall))
  refine admits_ite (fun _ => admits_requireLocal trivial) fun _ => ?_
  refine admits_ite (fun _ => admits_requireLocal (hspawn _)) fun _ => ?_
  refine admits_ite (fun _ => admits_requireLocal (hbodyless _)) fun _ => ?_
  refine admits_ite (fun _ => admits_requireLocal (hspawn _)) fun _ => ?_
  refine admits_ite (fun _ => admits_requireLocal (hbodyless _)) fun _ => ?_
  refine admits_ite (fun _ => admits_ite (fun _ => trivial) fun _ => trivial) fun _ => ?_
  refine admits_ite (admits_routePush features _ (by simp [sameOriginPaths])) fun _ => ?_
  refine admits_ite (admits_routePush features _ (by simp [sameOriginPaths])) fun _ => ?_
  refine admits_ite (admits_routePush features _ (by simp [sameOriginPaths])) fun _ => ?_
  refine admits_ite (fun hcall => ?_) fun _ => ?_
  · obtain ⟨hpath, hmethod⟩ := isCall_iff.mp hcall
    exact admits_guarded fun hsame => ⟨by simp [sameOriginPaths, hpath], hmethod, hsame⟩
  refine admits_ite (fun hpath => ?_) fun _ => admits_routeSession request
  exact admits_guarded fun hallowed => ⟨hallowed, .inl hpath⟩

/-- Every action is behind its guard. -/
theorem admits_route (features : Features) (request : Request) :
    Admits request (route features request) := by
  rw [route]
  split
  · exact trivial
  split
  · next hcall => exact admits_requireLocal (.inl (isCall_iff.mp hcall))
  split
  · exact trivial
  · exact admits_requireLocal (admits_routeAuthorized features request)

/-! ## Effects -/

variable {κ τ ρ : Type}

/-- The response holds session data, scrollback or a secret. Errors of an edit may show the
session's status. -/
def Discloses : Response → Prop
  | .sessions _ | .session _ | .events _ | .scrollback _ | .upgraded _ | .stillRunning
  | .editError _ | .privileged _ _ => True
  | .remoteStatus secret => secret ≠ none
  | _ => False

def DisclosesSecret : Response → Prop
  | .remoteStatus secret => secret ≠ none
  | .privileged _ _ => True
  | _ => False

/-- Nothing changed, unless the cached expiry of the tunnel was read again. -/
def Unchanged (before after : ServerState κ τ ρ) : Prop :=
  { after with expiresAt := before.expiresAt } = before

/-- The secret, the remotes, the tunnels and the shutdown are as before; the configuration in
memory may have been read again from the file. -/
structure Confined (before after : ServerState κ τ ρ) : Prop where
  spawnSecret : after.spawnSecret = before.spawnSecret
  tunnels : after.tunnels = before.tunnels
  shutdown : after.shutdown = before.shutdown
  configFile : after.configFile.rest = before.configFile.rest
  config : after.config.rest = before.config.rest ∨ after.config.rest = before.configFile.rest

/-- The actions that change nothing and tell nothing. -/
def Harmless : Action → Prop
  | .reject _ _ | .health _ | .asset _ _ | .dashboard | .dashboardTunnelStatus
  | .vapidPublicKey => True
  | _ => False

/-- The actions that the privileged routes are made of. -/
def Powerful : Action → Prop
  | .privileged _ | .shutdown _ | .remoteStatus => True
  | _ => False

theorem confined_refl (server : ServerState κ τ ρ) : Confined server server :=
  ⟨rfl, rfl, rfl, rfl, .inl rfl⟩

theorem perform_harmless (backend : Backend κ τ ρ) (request : Request)
    (server : ServerState κ τ ρ) {action : Action} (h : Harmless action) :
    Unchanged server (perform backend request server action).1 ∧
      ¬Discloses (perform backend request server action).2 := by
  cases action with
  | reject | health | asset | dashboard | dashboardTunnelStatus | vapidPublicKey =>
    exact ⟨rfl, not_false⟩
  | _ => exact h.elim

private theorem withJson_confined {request : Request} {invalid : String}
    {server : ServerState κ τ ρ} {handle : JsValue → ServerState κ τ ρ × Response}
    (h : ∀ body, Confined server (handle body).1 ∧ ¬DisclosesSecret (handle body).2) :
    Confined server (withJson request invalid server handle).1 ∧
      ¬DisclosesSecret (withJson request invalid server handle).2 := by
  rw [withJson]
  split
  · exact ⟨confined_refl server, not_false⟩
  · exact h _

private theorem performPush_confined (backend : Backend κ τ ρ) (call : PushCall) (body : JsValue)
    (server : ServerState κ τ ρ) :
    Confined server (performPush backend call body server).1 ∧
      ¬DisclosesSecret (performPush backend call body server).2 := by
  cases call with
  | subscribe =>
    simp only [performPush]
    split <;> exact ⟨⟨rfl, rfl, rfl, rfl, .inl rfl⟩, not_false⟩
  | unsubscribe =>
    simp only [performPush]
    split
    · exact ⟨confined_refl server, not_false⟩
    · split <;> exact ⟨⟨rfl, rfl, rfl, rfl, .inl rfl⟩, not_false⟩
  | presence =>
    simp only [performPush]
    split
    · exact ⟨confined_refl server, not_false⟩
    · split <;> exact ⟨⟨rfl, rfl, rfl, rfl, .inl rfl⟩, not_false⟩

private theorem applyDashboardPreference_rest {backend : Backend κ τ ρ} {config latest : Config κ}
    {key : List UInt16} {value : Option JsValue}
    (h : applyDashboardPreference backend config key value = .ok latest) :
    latest.rest = config.rest := by
  rw [applyDashboardPreference] at h
  split at h
  · exact nomatch h
  · next path _ =>
    simp only at h
    cases hcheck : checkPreference backend path (value.getD .null) with
    | error error => rw [hcheck] at h; exact nomatch h
    | ok _ =>
      rw [hcheck] at h
      rw [← Except.ok.inj h]

private theorem setPreference_confined (backend : Backend κ τ ρ) (body : JsValue)
    (server : ServerState κ τ ρ) :
    Confined server (setPreference backend body server).1 ∧
      ¬DisclosesSecret (setPreference backend body server).2 := by
  rw [setPreference]
  split
  · split
    · next latest hlatest =>
      have hrest := applyDashboardPreference_rest hlatest
      exact ⟨⟨rfl, rfl, rfl, hrest, .inr hrest⟩, not_false⟩
    · exact ⟨confined_refl server, not_false⟩
  · exact ⟨confined_refl server, not_false⟩
  · exact ⟨confined_refl server, not_false⟩

private theorem patchSession_confined (backend : Backend κ τ ρ) (id : String) (body : JsValue)
    (server : ServerState κ τ ρ) :
    Confined server (patchSession backend id body server).1 ∧
      ¬DisclosesSecret (patchSession backend id body server).2 := by
  rw [patchSession]
  split
  · exact ⟨confined_refl server, not_false⟩
  · exact ⟨confined_refl server, not_false⟩
  · split
    · exact ⟨confined_refl server, not_false⟩
    · exact ⟨⟨rfl, rfl, rfl, rfl, .inl rfl⟩, not_false⟩

private theorem removeSessionMeta_confined (server : ServerState κ τ ρ) (id : String) :
    Confined server (server.removeSessionMeta id).1 := by
  rw [ServerState.removeSessionMeta]
  split
  · exact confined_refl server
  · exact ⟨rfl, rfl, rfl, rfl, .inl rfl⟩

private theorem deleteSession_confined (backend : Backend κ τ ρ) (id : String)
    (kill : Option String) (server : ServerState κ τ ρ) :
    Confined server (deleteSession backend id kill server).1 ∧
      ¬DisclosesSecret (deleteSession backend id kill server).2 := by
  rw [deleteSession]
  split
  · exact ⟨confined_refl server, not_false⟩
  · simp only
    split
    · exact ⟨⟨rfl, rfl, rfl, rfl, .inl rfl⟩, not_false⟩
    · refine ⟨?_, ?_⟩
      · obtain ⟨hsecret, htunnels, hshutdown, hfile, hconfig⟩ := removeSessionMeta_confined
          { server with processes := (applySessionKill backend server.processes _ _).1 } id
        exact ⟨hsecret, htunnels, hshutdown, hfile, hconfig⟩
      · split <;> exact not_false

theorem perform_confined (backend : Backend κ τ ρ) (request : Request)
    (server : ServerState κ τ ρ) {action : Action} (h : ¬Powerful action) :
    Confined server (perform backend request server action).1 ∧
      ¬DisclosesSecret (perform backend request server action).2 := by
  cases action with
  | reject | health | asset | dashboard | dashboardTunnelStatus | vapidPublicKey
  | listSessions | events => exact ⟨⟨rfl, rfl, rfl, rfl, .inl rfl⟩, not_false⟩
  | shutdown | privileged | remoteStatus => exact absurd trivial h
  | push call => exact withJson_confined fun body => performPush_confined backend call body server
  | setPreference => exact withJson_confined fun body => setPreference_confined backend body server
  | patchSession id =>
    exact withJson_confined fun body => patchSession_confined backend id body server
  | deleteSession id => exact deleteSession_confined backend id request.kill server
  | readScrollback id =>
    simp only [perform]
    split <;> exact ⟨confined_refl server, not_false⟩
  | attach id =>
    simp only [perform]
    split
    · exact ⟨confined_refl server, not_false⟩
    · split <;> exact ⟨⟨rfl, rfl, rfl, rfl, .inl rfl⟩, not_false⟩

/-! ## Authorisation -/

theorem harmless_of_foreignHost {request : Request} {action : Action}
    (hadmits : Admits request action) (hchecked : ¬HostUnchecked request)
    (hhost : ForeignHost request) (hwrite : ¬SameOriginWrite request) : Harmless action := by
  cases action with
  | reject | health | asset | dashboard | dashboardTunnelStatus | vapidPublicKey => exact trivial
  | shutdown | remoteStatus => exact hchecked hadmits
  | privileged | patchSession =>
    obtain ⟨_, hallowed⟩ := hadmits
    exact not_relayedHost_of_allowedSpawn hallowed (relayedHost_of_foreignHost hhost)
  | push | setPreference => exact hwrite hadmits
  | listSessions | deleteSession | readScrollback | events =>
    exact Bool.false_ne_true (hhost.2.symm.trans hadmits.1)
  | attach =>
    have hallowed : request.allowedHost = true := (Bool.and_eq_true_iff.mp hadmits).1
    exact Bool.false_ne_true (hhost.2.symm.trans hallowed)

theorem harmless_of_crossSite {request : Request} {action : Action}
    (hadmits : Admits request action) (hchecked : ¬HostUnchecked request)
    (horigin : CrossSite request) (hunchecked : ¬OriginUnchecked request) : Harmless action := by
  cases action with
  | reject | health | asset | dashboard | dashboardTunnelStatus | vapidPublicKey => exact trivial
  | shutdown | remoteStatus => exact hchecked hadmits
  | privileged | patchSession =>
    obtain ⟨_, hallowed⟩ := hadmits
    exact not_crossSite_of_allowedSpawn hallowed horigin
  | push | setPreference => exact not_crossSite_of_sameOrigin hadmits.2.2 horigin
  | listSessions | deleteSession | readScrollback | events => exact hunchecked hadmits.2
  | attach =>
    exact not_crossSite_of_sameOrigin (Bool.and_eq_true_iff.mp hadmits).2 horigin

theorem not_powerful_of_relayedHost {request : Request} {action : Action}
    (hadmits : Admits request action) (hchecked : ¬HostUnchecked request)
    (hhost : RelayedHost request) : ¬Powerful action := by
  cases action with
  | shutdown | remoteStatus => exact fun _ => hchecked hadmits
  | privileged =>
    obtain ⟨_, hallowed⟩ := hadmits
    exact fun _ => not_relayedHost_of_allowedSpawn hallowed hhost
  | _ => exact not_false

/-- Outside the routes that look at the source address alone: a request with a foreign `Host`, or a
cross-site one to a route that asks for its origin, changes and discloses nothing; a relayed one
spawns nothing and reaches no remote, tunnel, secret or shutdown. -/
theorem authorisation (backend : Backend κ τ ρ) (server : ServerState κ τ ρ) (request : Request)
    (hchecked : ¬HostUnchecked request) :
    ((ForeignHost request ∧ ¬SameOriginWrite request) ∨
        (CrossSite request ∧ ¬OriginUnchecked request) →
      Unchanged server (fetch backend request server).1 ∧
        ¬Discloses (fetch backend request server).2) ∧
    (RelayedHost request →
      (∀ operation, route (features backend server) request ≠ .privileged operation) ∧
        Confined server (fetch backend request server).1 ∧
        ¬DisclosesSecret (fetch backend request server).2) := by
  have hadmits := admits_route (features backend server) request
  refine ⟨?_, ?_⟩
  · rintro (⟨hhost, hwrite⟩ | ⟨horigin, hunchecked⟩)
    · exact perform_harmless backend request server
        (harmless_of_foreignHost hadmits hchecked hhost hwrite)
    · exact perform_harmless backend request server
        (harmless_of_crossSite hadmits hchecked horigin hunchecked)
  · intro hhost
    have hpower := not_powerful_of_relayedHost hadmits hchecked hhost
    refine ⟨fun operation hroute => hpower ?_, perform_confined backend request server hpower⟩
    rw [hroute]
    exact trivial

/-! ## Examples of requests -/

def sampleBackend : Backend Unit Unit Unit where
  getStaticAsset _ := none
  sessionSpawning _ := true
  remoteSpawn _ := true
  pushAvailable := true
  vapidPublicKey := "BP"
  isThemeName units := units == encode "Dracula"
  isAllowedPushEndpoint _ := true
  refreshExpiry _ cached := cached
  freshSecret := "5e"
  privileged _ _ server := (server, .null)
  killProcess processes _ _ := (processes, true)
  afterGrace := id
  isProcessAlive _ _ := false
  sanitizeBrowserTerminalReplay := id
  now := "2025-01-01T00:00:00.000Z"

def sampleServer : ServerState Unit Unit Unit where
  files := [("a", [(encode "id", .string (encode "a"))])]
  scrollback := []
  config := ⟨[], ()⟩
  configFile := ⟨[], ()⟩
  spawnSecret := none
  subscriptions := []
  foreground := []
  tunnels := ()
  expiresAt := none
  processes := ()
  shutdown := none
  sseClients := 0
  attached := []

def sampleRequest (method pathname host : String) (origin : OriginHeader) : Request where
  address := "127.0.0.1"
  method := method
  pathname := pathname
  source := none
  kill := none
  contentType := some (encode "application/json")
  origin := origin
  host := some (encode host)
  body := none
  upgrade := false

def evilOrigin : OriginHeader := some (some ⟨encode "evil.example", encode "evil.example"⟩)

private theorem evil_crossSite (method pathname : String) :
    CrossSite (sampleRequest method pathname "localhost:3131" evilOrigin) := by
  refine ⟨_, rfl, fun url hurl => ?_⟩
  rw [← Option.some.inj hurl]
  rintro (⟨value, hvalue, heq⟩ | ⟨hloopback, -⟩)
  · rw [← Option.some.inj hvalue] at heq
    exact absurd heq (by decide)
  · exact absurd hloopback (by decide)

/-- A cross-site origin lists the sessions and deletes one. -/
theorem cross_site_delete :
    CrossSite (sampleRequest "GET" "/api/sessions" "localhost:3131" evilOrigin) ∧
      Discloses (fetch sampleBackend
        (sampleRequest "GET" "/api/sessions" "localhost:3131" evilOrigin) sampleServer).2 ∧
    CrossSite (sampleRequest "DELETE" "/api/sessions/a" "localhost:3131" evilOrigin) ∧
      ¬Unchanged sampleServer (fetch sampleBackend
        (sampleRequest "DELETE" "/api/sessions/a" "localhost:3131" evilOrigin)
        sampleServer).1 := by
  refine ⟨evil_crossSite _ _, trivial, evil_crossSite _ _, fun hsame => ?_⟩
  have hfiles : ([] : List (String × Fields)) = sampleServer.files :=
    congrArg ServerState.files hsame
  exact List.cons_ne_nil _ _ hfiles.symm

/-- A rebinding page that lists the sessions, and a tunnel viewer that spawns one. -/
theorem authorisation_rebinding :
    (Unchanged sampleServer (fetch sampleBackend
        (sampleRequest "GET" "/api/sessions" "evil.example" none) sampleServer).1 ∧
      ¬Discloses (fetch sampleBackend
        (sampleRequest "GET" "/api/sessions" "evil.example" none) sampleServer).2) ∧
    ((∀ operation, route (features sampleBackend sampleServer)
        (sampleRequest "POST" "/api/sessions" "x-3131.eun1.devtunnels.ms" none) ≠
          .privileged operation) ∧
      Confined sampleServer (fetch sampleBackend
        (sampleRequest "POST" "/api/sessions" "x-3131.eun1.devtunnels.ms" none) sampleServer).1 ∧
      ¬DisclosesSecret (fetch sampleBackend
        (sampleRequest "POST" "/api/sessions" "x-3131.eun1.devtunnels.ms" none)
        sampleServer).2) := by
  have hlist : ¬HostUnchecked (sampleRequest "GET" "/api/sessions" "evil.example" none) := by
    simp [HostUnchecked, sampleRequest]
  have hspawn :
      ¬HostUnchecked (sampleRequest "POST" "/api/sessions" "x-3131.eun1.devtunnels.ms" none) := by
    simp [HostUnchecked, sampleRequest]
  have hwrite : ¬SameOriginWrite (sampleRequest "GET" "/api/sessions" "evil.example" none) := by
    simp [SameOriginWrite, sampleRequest]
  exact ⟨(authorisation sampleBackend sampleServer _ hlist).1 (.inl ⟨⟨rfl, by decide⟩, hwrite⟩),
    (authorisation sampleBackend sampleServer _ hspawn).2 ⟨rfl, by decide⟩⟩

end Climon.Server.Authorisation
