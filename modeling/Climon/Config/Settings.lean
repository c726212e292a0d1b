import Climon.Cli.Args
import Climon.Lib.JsonValue

namespace Climon.Config.Settings

open Climon.Cli.Args (isWhitespace parseF64 toAsciiLowercase trim)
open Climon.Lib.JavaScript (Double numeral toDouble)
open Climon.Lib.JsonValue Climon.Lib.Utf16

/-!
# The registry of config settings

Each setting has a dotted path, a type, a purpose that config files repeat as a comment, and a
check of the values it takes.
-/

inductive ConfigType where
  | number
  | string
  | boolean
  deriving DecidableEq, Repr

structure ConfigSetting where
  path : String
  kind : ConfigType
  purpose : String
  /-- Read from the global config only. -/
  globalOnly : Bool := false
  validate : Option (String → Json → Except String Unit) := none

/-! ## Checks -/

def isInt (n : Rat) : Bool := n.den = 1

/-- A number for which the condition holds. -/
def vNumber (holds : Rat → Bool) (message : String) (_path : String) (v : Json) :
    Except String Unit :=
  if v.asF64.any holds then .ok () else .error message

def vDetachPrefix : String → Json → Except String Unit :=
  vNumber (fun n => isInt n && 0 ≤ n && n ≤ 255)
    "terminal.detachPrefix must be an integer between 0 and 255"

def vRemotePort : String → Json → Except String Unit :=
  vNumber (fun n => isInt n && 0 < n && n ≤ 65535)
    "remote.port must be a positive integer between 1 and 65535"

def vIngestRetries : String → Json → Except String Unit :=
  vNumber (fun n => isInt n && 1 ≤ n)
    "remote.ingestPortRetryAttempts must be a positive integer (>= 1)"

def vRemoteKeepalive : String → Json → Except String Unit :=
  vNumber (fun n => isInt n && 0 ≤ n) "remote.keepAlive must be a non-negative integer (seconds)"

def vSessionPriority : String → Json → Except String Unit :=
  vNumber (fun n => isInt n && 0 ≤ n && n ≤ 1000)
    "session.priority must be an integer between 0 and 1000"

def vTunnelKeepalive : String → Json → Except String Unit :=
  vNumber (fun n => 0 ≤ n) "tunnelLink.keepAlive must be a non-negative number"

/-- The lowercased key of a shortcut, which has one token besides its modifiers. -/
def parseShortcutKey (input : String) : Option String :=
  let tokens := (((input.toList.splitOn '+').map fun t => trim (String.ofList t)).filter
    (· ≠ "")).map toAsciiLowercase
  match tokens.filter fun token =>
      !(["ctrl", "control", "alt", "option", "shift", "meta", "cmd", "command"].contains token) with
  | [key] => some key
  | _ => none

def vFocusTopSession (_path : String) (v : Json) : Except String Unit :=
  match v.asStr with
  | none => .error "hotKeys.focusTopSession must be a string"
  | some s =>
    if s = "" ∨ (parseShortcutKey s).any (fun key => !key.toList.any isWhitespace) then .ok ()
    else
      .error ("hotKeys.focusTopSession must be empty or a shortcut like \"Alt+T\" or " ++
        "\"Ctrl+Shift+J\"")

def vClientId (_path : String) (v : Json) : Except String Unit :=
  if v.asStr.any fun s => 1 ≤ s.length && s.length ≤ 64 &&
      s.toList.all fun c => c.isAlphanum || c == '.' || c == '_' || c == '-' then .ok ()
  else
    .error ("remote.clientId must be 1–64 characters using only letters, digits, dots, " ++
      "hyphens, or underscores.")

def oneOf (path : String) (valid : List String) : String :=
  path ++ " must be one of: " ++ ", ".intercalate valid

def vSessionColor (_path : String) (v : Json) : Except String Unit :=
  let valid :=
    ["black", "red", "green", "yellow", "blue", "magenta", "cyan", "white", "none", "auto"]
  match v.asStr with
  | none => .error "session.color must be a string"
  | some s => if valid.contains s then .ok () else .error (oneOf "session.color" valid)

def vLoggingLevel (_path : String) (v : Json) : Except String Unit :=
  let levels := ["trace", "debug", "info", "warn", "error", "fatal", "silent"]
  if v.asStr.any levels.contains then .ok () else .error (oneOf "logging.level" levels)

def vFeature (path : String) (v : Json) : Except String Unit :=
  if v.asStr.any ["enabled", "disabled"].contains then .ok ()
  else .error (path ++ " must be \"enabled\" or \"disabled\"")

/-! ## The settings -/

inductive FeatureStatus where
  | experimental
  | untested
  deriving DecidableEq, Repr

def FeatureStatus.name : FeatureStatus → String
  | .experimental => "experimental"
  | .untested => "untested"

structure FeatureFlag where
  name : String
  status : FeatureStatus
  description : String

def featureFlags : List FeatureFlag := [
  ⟨"sessionSpawning", .experimental, "Allow spawning new sessions from the dashboard."⟩,
  ⟨"remoteSpawn", .experimental,
    "Allow the dashboard to spawn sessions on remote devboxes over a signed, " ++
      "replay-protected mux command channel."⟩,
  ⟨"wslBridge", .untested,
    "Stream sessions between a same-machine WSL distro and Windows so they appear on one " ++
      "shared dashboard."⟩,
  ⟨"remotes", .experimental,
    "Connect sessions from a remote devbox to this dashboard over the ingest/uplink bridge."⟩,
  ⟨"smartNotifications", .experimental,
    "Include a fuzzy-extracted snippet of the last relevant terminal output as the body of " ++
      "attention notifications, instead of a generic message."⟩]

/-- No flag is overridden by the build. -/
def featureConfigSettings : List ConfigSetting :=
  featureFlags.map fun flag =>
    { path := "feature." ++ flag.name, kind := .string, validate := some vFeature
      purpose := flag.description ++ " Set to \"enabled\" or \"disabled\". [status: " ++
        flag.status.name ++ "]" }

def coreConfigSettings : List ConfigSetting := [
  { path := "version", kind := .number
    purpose := "Schema version for the persisted config file format. Always 1 for the " ++
      "current release." },
  { path := "server.host", kind := .string
    purpose := "IP address the dashboard server binds to. Defaults to loopback for " ++
      "local-only access." },
  { path := "server.port", kind := .number
    purpose := "TCP port the dashboard server listens on. Change if 3131 conflicts with " ++
      "another service." },
  { path := "terminal.detachPrefix", kind := .number, validate := some vDetachPrefix
    purpose := "Byte value of the detach key prefix (default 0x1c = Ctrl-\\). Press prefix " ++
      "then 'd' to detach without stopping the command. Must be an integer in [0, 255]." },
  { path := "hotKeys.focusTopSession", kind := .string, validate := some vFocusTopSession
    purpose := "Web dashboard shortcut that selects the top session in the list and focuses " ++
      "its terminal. Format is \"Mod+...+Key\" (e.g. \"Alt+T\", \"Ctrl+Shift+J\"). Set to " ++
      "an empty string to disable." },
  { path := "dashboard.theme", kind := .string
    purpose := "Default web dashboard terminal colour theme (by display name, e.g. " ++
      "\"Dracula\"). Sessions without their own theme inherit this. Choose from the " ++
      "dashboard \"Default theme\" picker; defaults to \"Default\"." },
  { path := "dashboard.keyBarPinned", kind := .boolean
    purpose := "Whether the web dashboard key bar is pinned open." },
  { path := "dashboard.touchWheelInverted", kind := .boolean
    purpose := "When true, reverses only the dashboard terminal's synthetic two-finger wheel " ++
      "gesture. Physical mouse and trackpad wheel direction is unchanged." },
  { path := "dashboard.stateIconNoMotion", kind := .boolean
    purpose := "When true, the web dashboard freezes the animated terminal-progress " ++
      "indicator (OSC 9;4 indeterminate spinner) into a static icon, honouring " ++
      "reduced-motion preferences. Defaults to false (animated)." },
  { path := "attention.idleSeconds", kind := .number
    purpose := "Number of seconds the rendered terminal grid must remain unchanged before " ++
      "the session is flagged as needing attention. Set to 0 or negative to disable " ++
      "static-screen detection." },
  { path := "remote.enabled", kind := .boolean, globalOnly := true
    purpose := "Enables remote uplink so the local devbox forwards session metadata and I/O " ++
      "to a remote dashboard over a dev tunnel or direct connection." },
  { path := "remote.host", kind := .string, globalOnly := true
    purpose := "Direct remote uplink host for same-machine or LAN setups. Takes precedence " ++
      "over dev tunnel forwarding when set." },
  { path := "remote.ingestHost", kind := .string, globalOnly := true
    purpose := "Host address where the dashboard-side ingest daemon should listen for " ++
      "incoming remote session connections." },
  { path := "remote.tunnelId", kind := .string, globalOnly := true
    purpose := "Dev tunnel id (e.g. \"happy-tree-abc123\") used by `devtunnel connect` to " ++
      "forward local climon traffic to a remote dashboard." },
  { path := "remote.discover", kind := .boolean, globalOnly := true
    purpose := "When true (default), an enabled devbox (remote.enabled) auto-discovers live " ++
      "climon dashboard hosts by scanning your dev tunnels for the climon-ingest label and " ++
      "uplinks to all of them, in addition to any explicit remote.tunnelId/remote.host. Set " ++
      "false to disable discovery and only use explicitly configured targets." },
  { path := "remote.dashboardTunnelId", kind := .string, globalOnly := true
    purpose := "Server-owned persisted dashboard tunnel id used to reuse tunnel identity for " ++
      "tunnel link sessions." },
  { path := "remote.dashboardTunnelCluster", kind := .string, globalOnly := true
    purpose := "Server-owned persisted dashboard tunnel cluster used to reuse tunnel " ++
      "identity for tunnel link sessions." },
  { path := "remote.dashboardTunnelEnabled", kind := .boolean, globalOnly := true
    purpose := "Server-owned flag recording whether the Tunnel Link is enabled, so the " ++
      "server re-establishes the dashboard tunnel automatically on startup." },
  { path := "remote.port", kind := .number, globalOnly := true, validate := some vRemotePort
    purpose := "Local port the devbox forwards and the ingest daemon listens on. Defaults to " ++
      "server.port if not explicitly set." },
  { path := "remote.ingestPortRetryAttempts", kind := .number, globalOnly := true
    validate := some vIngestRetries
    purpose := "How many consecutive ports the ingest daemon will try, starting at its " ++
      "preferred port, before giving up. Raise it if many ports near the default are " ++
      "already in use." },
  { path := "remote.clientId", kind := .string, globalOnly := true, validate := some vClientId
    purpose := "Stable, non-secret client namespace identifying this machine's sessions. " ++
      "Defaults to the machine hostname when unset; set it to a value that is unique per " ++
      "host to avoid session ID collisions across machines." },
  { path := "remote.spawnSecret", kind := .string, globalOnly := true
    purpose := "Shared HMAC secret authenticating dashboard→devbox spawn commands. Generated " ++
      "automatically on the dashboard host when feature.remoteSpawn is enabled, and planted " ++
      "on the devbox by the remotes-screen setup script. Keep it secret." },
  { path := "remote.keepAlive", kind := .number, globalOnly := true
    validate := some vRemoteKeepalive
    purpose := "Interval in seconds between mux keepalive pings sent over the remote " ++
      "uplink/ingest connection. Prevents dev tunnel idle timeouts from dropping the " ++
      "connection. Set to 0 to disable." },
  { path := "remote.peerHome", kind := .string, globalOnly := true
    purpose := "Path to the peer OS's CLIMON_HOME for same-machine WSL<->Windows discovery " ++
      "(e.g. /mnt/c/Users/<you>/.climon from WSL, or " ++
      "\\\\wsl.localhost\\<distro>\\home\\<you>\\.climon from Windows). When " ++
      "feature.wslBridge is enabled, climon reads the peer's beacons and wires sessions to " ++
      "it. Usually set automatically by `climon link`." },
  { path := "remote.peerHost", kind := .string, globalOnly := true
    purpose := "Optional host override used to reach the peer dashboard/ingest. Leave unset " ++
      "to auto-detect (localhost, or the WSL gateway IP under NAT networking)." },
  { path := "remote.autoLink", kind := .boolean, globalOnly := true
    purpose := "When true (default), the first `climon` run inside WSL attempts to auto-link " ++
      "to a Windows-side climon by detecting its CLIMON_HOME and setting remote.peerHome on " ++
      "both sides. Auto-link configures discovery only; it never enables feature.wslBridge. " ++
      "Set false to disable auto-linking." },
  { path := "session.color", kind := .string, validate := some vSessionColor
    purpose := "Specifies the default accent color for new sessions. Accepts ANSI color " ++
      "names (red, green, etc.), 'none', or 'auto' for automatic assignment." },
  { path := "session.priority", kind := .number, validate := some vSessionPriority
    purpose := "Default sort priority (0-1000) for new sessions. Lower numbers sort first " ++
      "within each status group." },
  { path := "session.terminalProgram", kind := .string, globalOnly := true
    purpose := "Command template used to open a terminal window for a non-headless (visible) " ++
      "session spawned from the dashboard. Use the \x7bcmd\x7d placeholder for the climon " ++
      "command to run. When unset, climon auto-detects a terminal per OS (Terminal.app, " ++
      "Windows Terminal, or x-terminal-emulator/gnome-terminal/konsole/xterm)." },
  { path := "tunnelLink.keepAlive", kind := .number, validate := some vTunnelKeepalive
    purpose := "Interval in seconds between keep-alive pings sent through the Tunnel Link " ++
      "dev tunnel relay to prevent idle disconnection. Set to 0 to disable keep-alive " ++
      "pings." },
  { path := "logging.level", kind := .string, validate := some vLoggingLevel
    purpose := "Minimum log level emitted by climon processes. One of: trace, debug, info, " ++
      "warn, error, fatal, silent. Defaults to trace (everything). Set to silent to disable " ++
      "logging. Overridden per-invocation by the CLIMON_LOG_LEVEL environment variable." }]

def installConfigSettings : List ConfigSetting := [
  { path := "telemetry.enabled", kind := .boolean
    purpose := "When true, climon sends anonymous, opt-in usage telemetry keyed only by a " ++
      "random install id (no PII, session output, commands, paths, or hostnames). Off by " ++
      "default." },
  { path := "update.auto", kind := .boolean, globalOnly := true
    purpose := "When true, climon downloads and applies signed updates automatically in the " ++
      "background. When false (default), it only prints a one-line banner suggesting " ++
      "`climon --update`." },
  { path := "update.lastCheck", kind := .string, globalOnly := true
    purpose := "ISO-8601 timestamp of the last background update check. Used to throttle " ++
      "checks." },
  { path := "update.availableVersion", kind := .string, globalOnly := true
    purpose := "Latest version discovered by the background update check, if newer than the " ++
      "installed version. Cleared after a successful update." },
  { path := "license.noticeShown", kind := .boolean, globalOnly := true
    purpose := "Whether the one-time MIT license-change notice has been shown. Set " ++
      "automatically the first time an install that upgraded from a pre-open-source " ++
      "(EULA-gated) build launches; never shown on fresh installs." },
  { path := "install.id", kind := .string
    purpose := "Anonymous, randomly generated install identifier used only when telemetry is " ++
      "enabled. Contains no personal information." }]

def configSettings : List ConfigSetting :=
  coreConfigSettings ++ featureConfigSettings ++ installConfigSettings

def findConfigSetting (path : String) : Option ConfigSetting :=
  configSettings.find? fun setting => setting.path == path

/-! ## Values from text -/

/-- `i64::from_str_radix` -/
def fromStrRadix (radix : Nat) (digits : List Char) : Option Int :=
  let unsigned := fun digits : List Char => numeral radix (encode (String.ofList digits))
  let value : Option Int :=
    match digits with
    | '-' :: digits => (unsigned digits).map fun n => -(n : Int)
    | '+' :: digits => (unsigned digits).map fun n => (n : Int)
    | digits => (unsigned digits).map fun n => (n : Int)
  value.filter fun n => -2 ^ 63 ≤ n ∧ n < 2 ^ 63

/-- The sign in front of a number, and what stands behind it. -/
def splitSign : List Char → Int × List Char
  | '-' :: rest => (-1, rest)
  | '+' :: rest => (1, rest)
  | text => (1, text)

/-- Like `Number()`; `some none` is the double that is not a number. -/
def jsNumber (s : String) : Option (Option Double) :=
  let t := trim s
  let (sign, body) := splitSign t.toList
  let radixOf : Option Nat :=
    [("0x", 16), ("0X", 16), ("0o", 8), ("0O", 8), ("0b", 2), ("0B", 2)].findSome? fun pair =>
      if pair.1.toList <+: body then some pair.2 else none
  if t = "" then some (some (.finite 0))
  else
    match radixOf with
    | some radix =>
      (fromStrRadix radix (body.drop 2)).map fun n => some (toDouble ((sign * n : Int) : Rat))
    | none =>
      if toAsciiLowercase (String.ofList body) = "nan" then some none
      else (parseF64 t).map some

def ofI64 (n : Int) : Number :=
  if n < 0 then .negInt (Int64.ofInt n) else .posInt (UInt64.ofNat n.toNat)

/-- A double that is not finite has no JSON number. -/
def numberValue : Option Double → Json
  | some (.finite q) =>
    if isInt q ∧ -2 ^ 63 ≤ q ∧ q ≤ 2 ^ 63 then .number (ofI64 (saturateI64 q.num))
    else .number (.float q)
  | _ => .null

def coerceConfigValueFromSettings (path value : String) : Except String Json :=
  match findConfigSetting path with
  | none => .error ("Unknown config key: " ++ path)
  | some setting => do
    let coerced ←
      match setting.kind with
      | .boolean =>
        if value = "true" then .ok (Json.bool true)
        else if value = "false" then .ok (.bool false)
        else .error ("Value for '" ++ path ++ "' must be 'true' or 'false'.")
      | .number =>
        match jsNumber value with
        | some n => .ok (numberValue n)
        | none => .error (path ++ " must be a valid number")
      | .string => .ok (.string value)
    match setting.validate with
    | some validate => validate path coerced
    | none => .ok ()
    return coerced

end Climon.Config.Settings
