import Climon.Lib.EffectLog
import Climon.Remote.StateFiles

namespace Climon.Remote.Teardown

open Climon.Lib.EffectLog Climon.Lib.JsonValue Climon.Remote.StateFiles

/-!
# Who is probed, signalled and contacted

Teardown, discovery and port lookup act on the numbers in the state files of this home, discovery
also on the ports in those of a peer.
-/

inductive BeaconFile where
  | serverJson
  | ingestJson
  | ingestPid
  | uplinkPid
  | shutdownRequest
  deriving DecidableEq, Repr

/-- A pid is what the system call is given: on Unix a signed number. -/
inductive Effect where
  | probe (pid : Int)
  | signal (pid : Int) (force : Bool)
  | contact (host : String) (port : UInt16)
  | remove (file : BeaconFile)
  deriving DecidableEq, Repr

/-- What the system answers, given all that was done so far. -/
structure World where
  alive : List Effect → UInt32 → Bool
  killed : List Effect → UInt32 → Bool → Bool
  connects : List Effect → String → UInt16 → Bool
  polls : List Effect → Nat → Nat

/-- A state directory; `none` for what cannot be read or is no JSON. -/
structure Home where
  serverJson : Option Json
  ingestJson : Option Json
  ingestPid : Option String
  uplinkPid : Option String
  present : BeaconFile → Bool

structure KillFailure where
  component : String
  pid : UInt32
  reason : String
  advice : Option String
  deriving DecidableEq, Repr

structure StaleFile where
  path : BeaconFile
  pid : UInt32
  deriving DecidableEq, Repr

structure TeardownReport where
  serverStopped : Bool
  ingestStopped : Bool
  uplinkStopped : Bool
  removed : List BeaconFile
  failures : List KillFailure
  staleFiles : List StaleFile
  deriving DecidableEq, Repr

/-- The pid that the operating system sees: `pid as pid_t`, or the decimal text of it. -/
def address (windows : Bool) (pid : UInt32) : Int :=
  if windows then pid.toNat else pid.toInt32.toInt

def killAdvice (windows : Bool) (pid : UInt32) : String :=
  if windows then "Stop-Process -Id " ++ pid.toNat.repr ++ " -Force"
  else "kill -9 " ++ pid.toNat.repr

section

variable (windows : Bool) (world : World)

def isProcessAlive (pid : UInt32) : Acting Effect Bool :=
  act (.probe (address windows pid)) fun log => world.alive log pid

def killProcess (pid : UInt32) (force : Bool) : Acting Effect Bool :=
  act (.signal (address windows pid) force) fun log => world.killed log pid force

def probeTcp (host : String) (port : UInt16) : Acting Effect Bool :=
  act (.contact host port) fun log => world.connects log host port

def requestShutdown (port : UInt16) : Acting Effect Bool := probeTcp world "127.0.0.1" port

def removeFile (file : BeaconFile) : Acting Effect Unit := act (.remove file) fun _ => ()

/-- One probe after each pause, and a last one at the deadline. -/
def pollDeath (pid : UInt32) : Nat → Acting Effect Bool
  | 0 => do return !(← isProcessAlive windows world pid)
  | polls + 1 => do
    if ← isProcessAlive windows world pid then pollDeath pid polls else return true

def waitForDeath (pid : UInt32) (timeoutMs : Nat) : Acting Effect Bool := do
  let log ← get
  pollDeath windows world pid (world.polls log timeoutMs)

def waitTimeoutMs : Nat := 3000

structure DaemonOutcome where
  stopped : Bool
  dead : Bool
  failures : List KillFailure
  deriving DecidableEq, Repr

def outlived (component : String) (pid : UInt32) : DaemonOutcome :=
  { stopped := false
    dead := false
    failures := [⟨component, pid, "process did not terminate after force kill",
      some (killAdvice windows pid)⟩] }

def unsignalled (component : String) (pid : UInt32) : DaemonOutcome :=
  { stopped := false
    dead := false
    failures := [⟨component, pid, "kill signal could not be sent", some (killAdvice windows pid)⟩] }

def gone : DaemonOutcome := ⟨true, true, []⟩

/-- On Windows the first signal is a hard one already. -/
def stopDaemon (component : String) (pid : UInt32) : Acting Effect DaemonOutcome := do
  if ← killProcess windows world pid windows then
    if ← waitForDeath windows world pid waitTimeoutMs then return gone
    if ¬ windows then
      let _ ← killProcess windows world pid true
    if ← waitForDeath windows world pid (min waitTimeoutMs 2000) then return gone
    return outlived windows component pid
  else return unsignalled windows component pid

def stopUplinkDaemon (home : Home) : Acting Effect Bool :=
  match readPid home.uplinkPid with
  | none => return false
  | some pid => do
    if ← isProcessAlive windows world pid then killProcess windows world pid false
    else return false

/-- The server is asked first, then signalled, and signalled hard in the end. -/
def stopServer : Option ServerState → Acting Effect DaemonOutcome
  | none => return ⟨false, true, []⟩
  | some state => do
    if ← isProcessAlive windows world state.pid then
      let _ ← requestShutdown world state.port
      if ← waitForDeath windows world state.pid waitTimeoutMs then return gone
      if ← killProcess windows world state.pid windows then
        if ← waitForDeath windows world state.pid waitTimeoutMs then return gone
        let _ ← killProcess windows world state.pid true
        if ← waitForDeath windows world state.pid (min waitTimeoutMs 2000) then return gone
        return outlived windows "dashboard server" state.pid
      else return unsignalled windows "dashboard server" state.pid
    else return ⟨false, true, []⟩

def stopByPid (component : String) : Option UInt32 → Acting Effect DaemonOutcome
  | none => return ⟨false, true, []⟩
  | some pid => do
    if ← isProcessAlive windows world pid then stopDaemon windows world component pid
    else return ⟨false, true, []⟩

/-- A beacon stays while its owner lives. -/
def sweep (home : Home) :
    List (BeaconFile × Option UInt32 × Bool) → Acting Effect (List BeaconFile × List StaleFile)
  | [] => return ([], [])
  | (file, pid, dead) :: rest => do
    if ¬ home.present file then sweep home rest
    else
      match dead, pid with
      | false, some pid =>
        let (removed, stale) ← sweep home rest
        return (removed, ⟨file, pid⟩ :: stale)
      | _, _ =>
        removeFile file
        let (removed, stale) ← sweep home rest
        return (file :: removed, stale)

def teardownLocalServerStack (home : Home) : Acting Effect TeardownReport := do
  let state := home.serverJson.bind parseServerState
  let server ← stopServer windows world state
  let ingestPid := readPid home.ingestPid
  let ingest ← stopByPid windows world "ingest daemon" ingestPid
  let uplinkPid := readPid home.uplinkPid
  let uplink ← stopByPid windows world "uplink daemon" uplinkPid
  let (removed, stale) ← sweep home
    [(.serverJson, state.map (·.pid), server.dead), (.ingestJson, ingestPid, ingest.dead),
      (.ingestPid, ingestPid, ingest.dead), (.uplinkPid, uplinkPid, uplink.dead),
      (.shutdownRequest, none, true)]
  return {
      serverStopped := server.stopped
      ingestStopped := ingest.stopped
      uplinkStopped := uplink.stopped
      removed := removed
      failures := server.failures ++ ingest.failures ++ uplink.failures
      staleFiles := stale
    }

def defaultIngestPort : UInt16 := 3132

/-- The live beacon's port, then that of the tunnel host's state, then the default. -/
def resolveIngestPort (home : Home) (hostPort : Option UInt16) : Acting Effect UInt16 :=
  let fallback := (hostPort.filter (0 < ·)).getD defaultIngestPort
  match home.ingestJson.bind parseIngestState with
  | none => return fallback
  | some beacon => do
    if ← isProcessAlive windows world beacon.pid then return beacon.port else return fallback

inductive DashboardLocation where
  | onThisOs
  | peer
  deriving DecidableEq, Repr

structure DashboardTarget where
  location : DashboardLocation
  host : String
  port : UInt16
  ingest : Option UInt16
  url : String
  deriving DecidableEq, Repr

def dashboardUrl (host : String) (port : UInt16) : String :=
  "http://" ++ host ++ ":" ++ port.toNat.repr ++ "/"

/-- The first host at which the peer's ingest answers. -/
def probeCandidates (peer : Home) (ingest : IngestState) :
    List String → Acting Effect (Option DashboardTarget)
  | [] => return none
  | host :: hosts => do
    if ← probeTcp world host ingest.port then
      let port := ((peer.serverJson.bind parseServerState).map (·.port)).getD ingest.port
      return some ⟨.peer, host, port, some ingest.port, dashboardUrl host port⟩
    else probeCandidates peer ingest hosts

def discoverPeer (peer : Option Home) (fallbacks : List String) :
    Acting Effect (Option DashboardTarget) :=
  match peer, peer.bind fun peer => peer.ingestJson.bind parseIngestState with
  | some peer, some ingest =>
    probeCandidates world peer ingest (ingest.host.toList ++ fallbacks).eraseDups
  | _, _ => return none

/-- The peer home and the hosts to try come from the configuration. -/
def discoverDashboard (home : Home) (hostPort : Option UInt16) (peer : Option Home)
    (fallbacks : List String) : Acting Effect (Option DashboardTarget) :=
  match home.serverJson.bind parseServerState with
  | none => discoverPeer world peer fallbacks
  | some state => do
    if ← isProcessAlive windows world state.pid then
      let ingest ← resolveIngestPort windows world home hostPort
      return some ⟨.onThisOs, "127.0.0.1", state.port, some ingest,
        dashboardUrl "127.0.0.1" state.port⟩
    else discoverPeer world peer fallbacks

end

/-! ## Only numbers that are written -/

/-- The pid is in one of the files. -/
def WritesPid (home : Home) (pid : Int) : Prop :=
  ∃ n : Nat, pid = n ∧ ((∃ value ∈ home.serverJson, Written value "pid" n) ∨
    (∃ value ∈ home.ingestJson, Written value "pid" n) ∨ WrittenPid home.ingestPid n ∨
      WrittenPid home.uplinkPid n)

def WritesPort (home : Home) (port : UInt16) : Prop :=
  (∃ value ∈ home.serverJson, Written value "port" port.toNat) ∨
    ∃ value ∈ home.ingestJson, Written value "port" port.toNat

def Addressed (home : Home) (peer : Option Home) : Effect → Prop
  | .probe pid => WritesPid home pid
  | .signal pid _ => WritesPid home pid
  | .contact _ port => WritesPort home port ∨ ∃ h ∈ peer, WritesPort h port
  | .remove _ => True

/-- Whatever the parsers accept has the numbers of the files. -/
structure Exact (home : Home) : Prop where
  server : ∀ value ∈ home.serverJson, ∀ state, parseServerState value = some state →
    ServerExact value state
  ingest : ∀ value ∈ home.ingestJson, ∀ state, parseIngestState value = some state →
    IngestExact value state
  ingestPid : ∀ pid, readPid home.ingestPid = some pid → WrittenPid home.ingestPid pid.toNat
  uplinkPid : ∀ pid, readPid home.uplinkPid = some pid → WrittenPid home.uplinkPid pid.toNat

/-- The parsers are exact, and only numbers of the files are probed, signalled, contacted or handed
on to be contacted, whatever the system answers. -/
structure Truthful (windows : Bool) (home : Home) (peer : Option Home) : Prop where
  exact : Exact home
  peerExact : ∀ h ∈ peer, Exact h
  teardown : ∀ world, Within (Addressed home peer) (teardownLocalServerStack windows world home)
  uplink : ∀ world, Within (Addressed home peer) (stopUplinkDaemon windows world home)
  ingestPort : ∀ world hostPort,
    Within (Addressed home peer) (resolveIngestPort windows world home hostPort)
  discovery : ∀ world hostPort fallbacks,
    Within (Addressed home peer) (discoverDashboard windows world home hostPort peer fallbacks)
  target : ∀ world hostPort fallbacks log target,
    (discoverDashboard windows world home hostPort peer fallbacks log).1 = some target →
      (WritesPort home target.port ∨ ∃ h ∈ peer, WritesPort h target.port) ∧
        ∀ port ∈ target.ingest, WritesPort home port ∨ (∃ h ∈ peer, WritesPort h port) ∨
          port ∈ hostPort ∨ port = defaultIngestPort

/-! ## Numbers in range -/

def pidBound (windows : Bool) : Nat := if windows then 2 ^ 32 else 2 ^ 31

structure HomeFits (pidBound : Nat) (home : Home) : Prop where
  server : ∀ value ∈ home.serverJson, ServerFits pidBound value
  ingest : ∀ value ∈ home.ingestJson, RecordFits pidBound value
  ingestPid : PidFits pidBound home.ingestPid
  uplinkPid : PidFits pidBound home.uplinkPid

/-- The pids of a peer are parsed, and never used here. -/
structure Fits (windows : Bool) (home : Home) (peer : Option Home) : Prop where
  own : HomeFits (pidBound windows) home
  peer : ∀ h ∈ peer, HomeFits (2 ^ 32) h

theorem exact_iff (home : Home) : Exact home ↔ HomeFits (2 ^ 32) home := by
  constructor
  · intro h
    exact ⟨fun value hvalue => (server_exact_iff value).mp (h.server value hvalue),
      fun value hvalue => (ingest_state_exact_iff value).mp (h.ingest value hvalue),
      (pid_exact_iff _).mp h.ingestPid, (pid_exact_iff _).mp h.uplinkPid⟩
  · intro h
    exact ⟨fun value hvalue => (server_exact_iff value).mpr (h.server value hvalue),
      fun value hvalue => (ingest_state_exact_iff value).mpr (h.ingest value hvalue),
      (pid_exact_iff _).mpr h.ingestPid, (pid_exact_iff _).mpr h.uplinkPid⟩

theorem address_of_lt {windows : Bool} {pid : UInt32} (h : pid.toNat < pidBound windows) :
    address windows pid = pid.toNat := by
  cases windows with
  | true => rfl
  | false =>
    change pid.toBitVec.toInt = pid.toBitVec.toNat
    exact BitVec.toInt_eq_toNat_of_lt (by change 2 * pid.toNat < 2 ^ 32; simp [pidBound] at h; omega)

/-- Beyond the signed range a process group is addressed, or every process. -/
theorem address_neg {pid : UInt32} (h : 2 ^ 31 ≤ pid.toNat) : address false pid < 0 := by
  have hlt := pid.toNat_lt
  change pid.toBitVec.toInt < 0
  have hnat : pid.toBitVec.toNat = pid.toNat := rfl
  rw [BitVec.toInt_eq_toNat_cond, hnat]
  split <;> omega

/-- The process may be probed and signalled. -/
structure Allows (P : Effect → Prop) (windows : Bool) (pid : UInt32) : Prop where
  probe : P (.probe (address windows pid))
  signal : ∀ force, P (.signal (address windows pid) force)

section

variable {P : Effect → Prop} {windows : Bool} {world : World} {home : Home} {pid : UInt32}

theorem within_alive (h : Allows P windows pid) :
    Within P (isProcessAlive windows world pid) :=
  .act h.probe _

theorem within_kill (h : Allows P windows pid) (force : Bool) :
    Within P (killProcess windows world pid force) :=
  .act (h.signal force) _

theorem within_pollDeath (h : Allows P windows pid) (polls : Nat) :
    Within P (pollDeath windows world pid polls) := by
  induction polls with
  | zero => exact (within_alive h).bind fun alive => .pure _
  | succ polls ih =>
    refine (within_alive h).bind fun alive => ?_
    split
    · exact ih
    · exact .pure _

theorem within_waitForDeath (h : Allows P windows pid) (timeoutMs : Nat) :
    Within P (waitForDeath windows world pid timeoutMs) :=
  .get_bind fun _ => within_pollDeath h _

/-- A last wait, and what is reported after it. -/
theorem within_lastWait (h : Allows P windows pid) (timeoutMs : Nat)
    (outcome : DaemonOutcome) :
    Within P (do
      if ← waitForDeath windows world pid timeoutMs then return gone
      return outcome) := by
  refine (within_waitForDeath h _).bind fun dead => ?_
  split
  · exact .pure _
  · exact .pure _

theorem within_stopDaemon (h : Allows P windows pid) (component : String) :
    Within P (stopDaemon windows world component pid) := by
  refine (within_kill h windows).bind fun killed => ?_
  split
  · refine (within_waitForDeath h _).bind fun dead => ?_
    split
    · exact .pure _
    · split
      · exact (within_kill h true).bind fun _ => within_lastWait h _ _
      · exact within_lastWait h _ _
  · exact .pure _

theorem within_stopServer {state : Option ServerState}
    (hserver : ∀ s, state = some s → Allows P windows s.pid ∧ P (.contact "127.0.0.1" s.port)) :
    Within P (stopServer windows world state) := by
  cases state with
  | none => exact .pure _
  | some state =>
    obtain ⟨h, hport⟩ := hserver state rfl
    refine (within_alive h).bind fun alive => ?_
    split
    · refine Within.bind (.act hport _) fun _ => ?_
      refine (within_waitForDeath h _).bind fun dead => ?_
      split
      · exact .pure _
      · refine (within_kill h windows).bind fun killed => ?_
        split
        · refine (within_waitForDeath h _).bind fun dead => ?_
          split
          · exact .pure _
          · exact (within_kill h true).bind fun _ => within_lastWait h _ _
        · exact .pure _
    · exact .pure _

theorem within_stopByPid {raw : Option UInt32}
    (h : ∀ pid, raw = some pid → Allows P windows pid) (component : String) :
    Within P (stopByPid windows world component raw) := by
  cases raw with
  | none => exact .pure _
  | some pid =>
    refine (within_alive (h pid rfl)).bind fun alive => ?_
    split
    · exact within_stopDaemon (h pid rfl) component
    · exact .pure _

theorem within_sweep (hremove : ∀ file, P (.remove file))
    (owners : List (BeaconFile × Option UInt32 × Bool)) :
    Within P (sweep home owners) := by
  induction owners with
  | nil => exact .pure _
  | cons owner rest ih =>
    obtain ⟨file, pid, dead⟩ := owner
    have hgone : Within P (do
        removeFile file
        let (removed, stale) ← sweep home rest
        return (file :: removed, stale)) :=
      Within.bind (.act (hremove file) _) fun _ => ih.bind fun _ => .pure _
    unfold sweep
    split
    · exact ih
    · cases dead with
      | true => exact hgone
      | false =>
        cases pid with
        | none => exact hgone
        | some pid => exact ih.bind fun _ => .pure _

theorem within_teardown
    (hserver : ∀ state, home.serverJson.bind parseServerState = some state →
      Allows P windows state.pid ∧ P (.contact "127.0.0.1" state.port))
    (hingest : ∀ pid, readPid home.ingestPid = some pid → Allows P windows pid)
    (huplink : ∀ pid, readPid home.uplinkPid = some pid → Allows P windows pid)
    (hremove : ∀ file, P (.remove file)) :
    Within P (teardownLocalServerStack windows world home) := by
  refine (within_stopServer hserver).bind fun server => ?_
  refine (within_stopByPid hingest _).bind fun ingest => ?_
  refine (within_stopByPid huplink _).bind fun uplink => ?_
  exact (within_sweep hremove _).bind fun _ => .pure _

theorem within_stopUplink
    (huplink : ∀ pid, readPid home.uplinkPid = some pid → Allows P windows pid) :
    Within P (stopUplinkDaemon windows world home) := by
  unfold stopUplinkDaemon
  split
  · exact .pure _
  next pid hpid =>
    refine (within_alive (huplink pid hpid)).bind fun alive => ?_
    split
    · exact within_kill (huplink pid hpid) false
    · exact .pure _

theorem within_resolveIngestPort {hostPort : Option UInt16}
    (hbeacon : ∀ beacon, home.ingestJson.bind parseIngestState = some beacon →
      Allows P windows beacon.pid) :
    Within P (resolveIngestPort windows world home hostPort) := by
  unfold resolveIngestPort
  split
  · exact .pure _
  next beacon h =>
    refine (within_alive (hbeacon beacon h)).bind fun alive => ?_
    split
    · exact .pure _
    · exact .pure _

theorem within_probeCandidates {peer : Home} {ingest : IngestState}
    (hport : ∀ host, P (.contact host ingest.port)) (hosts : List String) :
    Within P (probeCandidates world peer ingest hosts) := by
  induction hosts with
  | nil => exact .pure _
  | cons host hosts ih =>
    refine Within.bind (.act (hport host) _) fun connected => ?_
    split
    · exact .pure _
    · exact ih

theorem within_discoverPeer {peer : Option Home} {fallbacks : List String}
    (hport : ∀ h ∈ peer, ∀ ingest, h.ingestJson.bind parseIngestState = some ingest →
      ∀ host, P (.contact host ingest.port)) :
    Within P (discoverPeer world peer fallbacks) := by
  unfold discoverPeer
  split
  next h ingest hingest => exact within_probeCandidates (hport h rfl ingest hingest) _
  · exact .pure _

theorem within_discoverDashboard {hostPort : Option UInt16} {peer : Option Home}
    {fallbacks : List String}
    (hserver : ∀ state, home.serverJson.bind parseServerState = some state →
      Allows P windows state.pid)
    (hbeacon : ∀ beacon, home.ingestJson.bind parseIngestState = some beacon →
      Allows P windows beacon.pid)
    (hport : ∀ h ∈ peer, ∀ ingest, h.ingestJson.bind parseIngestState = some ingest →
      ∀ host, P (.contact host ingest.port)) :
    Within P (discoverDashboard windows world home hostPort peer fallbacks) := by
  unfold discoverDashboard
  split
  · exact within_discoverPeer hport
  next state hstate =>
    refine (within_alive (hserver state hstate)).bind fun alive => ?_
    split
    · exact (within_resolveIngestPort hbeacon).bind fun _ => .pure _
    · exact within_discoverPeer hport

end

/-! ## Numbers in range are addressed as they are written -/

theorem pidBound_le (windows : Bool) : pidBound windows ≤ 2 ^ 32 := by
  cases windows <;> simp [pidBound]

theorem HomeFits.mono {bound bound' : Nat} {home : Home} (h : HomeFits bound home)
    (hle : bound ≤ bound') : HomeFits bound' home where
  server := by
    intro value hvalue pid port haccepted
    obtain ⟨⟨hpid, hport⟩, hingest⟩ := h.server value hvalue pid port haccepted
    exact ⟨⟨hpid.trans_le hle, hport⟩, hingest⟩
  ingest := by
    intro value hvalue pid port haccepted
    obtain ⟨hpid, hport⟩ := h.ingest value hvalue pid port haccepted
    exact ⟨hpid.trans_le hle, hport⟩
  ingestPid := fun pid hpos hpid => (h.ingestPid pid hpos hpid).trans_le hle
  uplinkPid := fun pid hpos hpid => (h.uplinkPid pid hpos hpid).trans_le hle

section

variable {windows : Bool} {home : Home} {peer : Option Home}

theorem allows_of_lt {pid : UInt32} (hlt : pid.toNat < pidBound windows)
    (hwritten : WritesPid home pid.toNat) : Allows (Addressed home peer) windows pid := by
  have haddress := address_of_lt hlt
  rw [← haddress] at hwritten
  exact ⟨hwritten, fun force => hwritten⟩

theorem HomeFits.server_port (h : HomeFits (2 ^ 32) home) {state : ServerState}
    (hstate : home.serverJson.bind parseServerState = some state) : WritesPort home state.port := by
  obtain ⟨value, hvalue, hparse⟩ := Option.bind_eq_some_iff.mp hstate
  exact .inl ⟨value, hvalue, (((exact_iff home).mpr h).server value hvalue state hparse).port⟩

theorem HomeFits.ingest_port (h : HomeFits (2 ^ 32) home) {state : IngestState}
    (hstate : home.ingestJson.bind parseIngestState = some state) : WritesPort home state.port := by
  obtain ⟨value, hvalue, hparse⟩ := Option.bind_eq_some_iff.mp hstate
  exact .inr ⟨value, hvalue, (((exact_iff home).mpr h).ingest value hvalue state hparse).port⟩

theorem HomeFits.server_pid (h : HomeFits (pidBound windows) home) {state : ServerState}
    (hstate : home.serverJson.bind parseServerState = some state) :
    Allows (Addressed home peer) windows state.pid := by
  obtain ⟨value, hvalue, hparse⟩ := Option.bind_eq_some_iff.mp hstate
  have hexact := ((exact_iff home).mpr (h.mono (pidBound_le windows))).server value hvalue state hparse
  obtain ⟨pid, port, haccepted⟩ := (parseServerState_isSome_iff value).mp (by rw [hparse]; rfl)
  have hlt := (h.server value hvalue pid port haccepted).1.1
  rw [haccepted.pid_written.unique hexact.pid] at hlt
  exact allows_of_lt hlt ⟨_, rfl, .inl ⟨value, hvalue, hexact.pid⟩⟩

theorem HomeFits.beacon_pid (h : HomeFits (pidBound windows) home) {state : IngestState}
    (hstate : home.ingestJson.bind parseIngestState = some state) :
    Allows (Addressed home peer) windows state.pid := by
  obtain ⟨value, hvalue, hparse⟩ := Option.bind_eq_some_iff.mp hstate
  have hexact := ((exact_iff home).mpr (h.mono (pidBound_le windows))).ingest value hvalue state hparse
  obtain ⟨pid, port, haccepted⟩ := (parseIngestState_isSome_iff value).mp (by rw [hparse]; rfl)
  have hlt := (h.ingest value hvalue pid port haccepted).1
  rw [haccepted.pid_written.unique hexact.pid] at hlt
  exact allows_of_lt hlt ⟨_, rfl, .inr (.inl ⟨value, hvalue, hexact.pid⟩)⟩

theorem readPid_lt {raw : Option String} (h : PidFits (pidBound windows) raw) {pid : UInt32}
    (hpid : readPid raw = some pid) : pid.toNat < pidBound windows ∧ WrittenPid raw pid.toNat := by
  have hexact := (pid_exact_iff raw).mpr fun n hpos hn =>
    (h n hpos hn).trans_le (pidBound_le windows)
  have hwritten := hexact pid hpid
  rcases readPid_cases raw with ⟨hnone, -⟩ | ⟨n, hpos, hn, -⟩
  · rw [hnone] at hpid
    cases hpid
  · have hsame : n = pid.toNat := by exact_mod_cast hn.unique hwritten
    rw [← hsame]
    exact ⟨h n hpos hn, hn⟩

theorem HomeFits.ingest_pid (h : HomeFits (pidBound windows) home) {pid : UInt32}
    (hpid : readPid home.ingestPid = some pid) : Allows (Addressed home peer) windows pid := by
  obtain ⟨hlt, hwritten⟩ := readPid_lt h.ingestPid hpid
  exact allows_of_lt hlt ⟨_, rfl, .inr (.inr (.inl hwritten))⟩

theorem HomeFits.uplink_pid (h : HomeFits (pidBound windows) home) {pid : UInt32}
    (hpid : readPid home.uplinkPid = some pid) : Allows (Addressed home peer) windows pid := by
  obtain ⟨hlt, hwritten⟩ := readPid_lt h.uplinkPid hpid
  exact allows_of_lt hlt ⟨_, rfl, .inr (.inr (.inr hwritten))⟩

/-! ## What the callers are handed -/

theorem resolveIngestPort_result (world : World) (hostPort : Option UInt16) (log : List Effect) :
    let port := (resolveIngestPort windows world home hostPort log).1
    (∃ state, home.ingestJson.bind parseIngestState = some state ∧ port = state.port) ∨
      port ∈ hostPort ∨ port = defaultIngestPort := by
  have hfallback : (hostPort.filter (0 < ·)).getD defaultIngestPort ∈ hostPort ∨
      (hostPort.filter (0 < ·)).getD defaultIngestPort = defaultIngestPort := by
    cases hostPort with
    | none => exact .inr rfl
    | some port => by_cases h : 0 < port <;> simp [Option.filter, h]
  unfold resolveIngestPort
  cases hbeacon : home.ingestJson.bind parseIngestState with
  | none => exact .inr hfallback
  | some beacon =>
    simp only [act_bind_fst, isProcessAlive]
    cases world.alive log beacon.pid with
    | true => exact .inl ⟨beacon, rfl, rfl⟩
    | false => exact .inr hfallback

theorem probeCandidates_result {world : World} {peer : Home} {ingest : IngestState}
    {hosts : List String} {log : List Effect} {target : DashboardTarget}
    (h : (probeCandidates world peer ingest hosts log).1 = some target) :
    target.port = ((peer.serverJson.bind parseServerState).map (·.port)).getD ingest.port ∧
      target.ingest = some ingest.port := by
  induction hosts generalizing log with
  | nil => cases h
  | cons host hosts ih =>
    simp only [probeCandidates, probeTcp, act_bind_fst] at h
    cases hconnects : world.connects log host ingest.port with
    | true =>
      rw [hconnects] at h
      cases h
      exact ⟨rfl, rfl⟩
    | false =>
      rw [hconnects] at h
      exact ih h

/-- The ports of a peer that is found are written in its files. -/
theorem discoverPeer_result {world : World} {fallbacks : List String} {log : List Effect}
    {target : DashboardTarget} (hfits : ∀ h ∈ peer, HomeFits (2 ^ 32) h)
    (h : (discoverPeer world peer fallbacks log).1 = some target) :
    (∃ h ∈ peer, WritesPort h target.port) ∧
      ∀ port ∈ target.ingest, ∃ h ∈ peer, WritesPort h port := by
  cases peer with
  | none => cases h
  | some found =>
    simp only [discoverPeer, Option.bind_some] at h
    cases hingest : found.ingestJson.bind parseIngestState with
    | none =>
      rw [hingest] at h
      cases h
    | some ingest =>
      rw [hingest] at h
      obtain ⟨hport, hsame⟩ := probeCandidates_result h
      have hown := (hfits found rfl).ingest_port hingest
      rw [hport, hsame]
      constructor
      · cases hstate : found.serverJson.bind parseServerState with
        | none => exact ⟨found, rfl, hown⟩
        | some state => exact ⟨found, rfl, (hfits found rfl).server_port hstate⟩
      · intro port heq
        cases heq
        exact ⟨found, rfl, hown⟩

theorem discoverDashboard_result {world : World} {hostPort : Option UInt16}
    {fallbacks : List String} {log : List Effect} {target : DashboardTarget}
    (hfits : Fits windows home peer)
    (h : (discoverDashboard windows world home hostPort peer fallbacks log).1 = some target) :
    (WritesPort home target.port ∨ ∃ h ∈ peer, WritesPort h target.port) ∧
      ∀ port ∈ target.ingest, WritesPort home port ∨ (∃ h ∈ peer, WritesPort h port) ∨
        port ∈ hostPort ∨ port = defaultIngestPort := by
  have hown := hfits.own.mono (pidBound_le windows)
  have hfromPeer : ∀ log, (discoverPeer world peer fallbacks log).1 = some target →
      (WritesPort home target.port ∨ ∃ h ∈ peer, WritesPort h target.port) ∧
        ∀ port ∈ target.ingest, WritesPort home port ∨ (∃ h ∈ peer, WritesPort h port) ∨
          port ∈ hostPort ∨ port = defaultIngestPort := by
    intro log htarget
    obtain ⟨hport, hingest⟩ := discoverPeer_result hfits.peer htarget
    exact ⟨.inr hport, fun port hmem => .inr (.inl (hingest port hmem))⟩
  unfold discoverDashboard at h
  cases hstate : home.serverJson.bind parseServerState with
  | none =>
    rw [hstate] at h
    exact hfromPeer log h
  | some state =>
    rw [hstate] at h
    simp only [act_bind_fst, isProcessAlive] at h
    cases halive : world.alive log state.pid with
    | false =>
      rw [halive] at h
      exact hfromPeer _ h
    | true =>
      rw [halive] at h
      rw [← Option.some.inj h]
      refine ⟨.inl (hown.server_port hstate), fun port hmem => ?_⟩
      let later := log ++ [.probe (address windows state.pid)]
      have hresolved : (resolveIngestPort windows world home hostPort later).1 = port :=
        Option.some.inj hmem
      rw [← hresolved]
      rcases resolveIngestPort_result world hostPort later with
        ⟨beacon, hbeacon, hport⟩ | hfallback
      · rw [hport]
        exact .inl (hown.ingest_port hbeacon)
      · exact .inr (.inr hfallback)

theorem truthful_of_fits (h : Fits windows home peer) : Truthful windows home peer where
  exact := (exact_iff home).mpr (h.own.mono (pidBound_le windows))
  peerExact := fun found hfound => (exact_iff found).mpr (h.peer found hfound)
  teardown := by
    intro world
    refine within_teardown ?_ (fun pid hpid => h.own.ingest_pid hpid)
      (fun pid hpid => h.own.uplink_pid hpid) fun _ => trivial
    intro state hstate
    exact ⟨h.own.server_pid hstate,
      .inl ((h.own.mono (pidBound_le windows)).server_port hstate)⟩
  uplink := fun world => within_stopUplink fun pid hpid => h.own.uplink_pid hpid
  ingestPort := fun world hostPort =>
    within_resolveIngestPort fun beacon hbeacon => h.own.beacon_pid hbeacon
  discovery := by
    intro world hostPort fallbacks
    refine within_discoverDashboard (fun state hstate => h.own.server_pid hstate)
      (fun beacon hbeacon => h.own.beacon_pid hbeacon) ?_
    intro found hfound ingest hingest host
    exact .inr ⟨found, hfound, (h.peer found hfound).ingest_port hingest⟩
  target := fun world hostPort fallbacks log target htarget => discoverDashboard_result h htarget

/-! ## Numbers out of range are not -/

theorem allows_any (windows : Bool) (pid : UInt32) : Allows (fun _ => True) windows pid :=
  ⟨trivial, fun _ => trivial⟩

section

variable (world : World) (log : List Effect)

theorem discovery_probes {state : ServerState} (hostPort : Option UInt16) (fallbacks : List String)
    (h : home.serverJson.bind parseServerState = some state) :
    .probe (address windows state.pid) ∈
      (discoverDashboard windows world home hostPort peer fallbacks log).2 := by
  unfold discoverDashboard
  rw [h]
  refine mem_act_bind _ _ (fun alive => ?_) log
  split
  · refine (within_resolveIngestPort fun beacon _ => ?_).bind fun _ => .pure _
    exact allows_any windows beacon.pid
  · exact within_discoverPeer fun _ _ _ _ _ => trivial

theorem resolution_probes {state : IngestState} (hostPort : Option UInt16)
    (h : home.ingestJson.bind parseIngestState = some state) :
    .probe (address windows state.pid) ∈
      (resolveIngestPort windows world home hostPort log).2 := by
  unfold resolveIngestPort
  rw [h]
  refine mem_act_bind _ _ (fun alive => ?_) log
  split
  · exact .pure _
  · exact .pure _

theorem uplink_probes {pid : UInt32} (h : readPid home.uplinkPid = some pid) :
    .probe (address windows pid) ∈ (stopUplinkDaemon windows world home log).2 := by
  unfold stopUplinkDaemon
  rw [h]
  refine mem_act_bind _ _ (fun alive => ?_) log
  split
  · exact within_kill (allows_any windows pid) false
  · exact .pure _

theorem teardown_probes {pid : UInt32} (h : readPid home.ingestPid = some pid) :
    .probe (address windows pid) ∈ (teardownLocalServerStack windows world home log).2 := by
  -- The server is dealt with first; whatever that adds, the ingest daemon is probed next.
  refine mem_bind_next (mem_bind (fun ingest => ?_) ?_)
  · refine (within_stopByPid (fun pid _ => allows_any windows pid) _).bind fun uplink => ?_
    exact (within_sweep (fun _ => trivial) _).bind fun _ => .pure _
  · rw [h]
    refine mem_act_bind _ _ (fun alive => ?_) _
    split
    · exact within_stopDaemon (allows_any windows pid) _
    · exact .pure _

end

/-- A written pid is no negative number. -/
theorem not_addressed {pid : UInt32} (h : 2 ^ 31 ≤ pid.toNat) :
    ¬ Addressed home peer (.probe (address false pid)) := by
  rintro ⟨n, hn, -⟩
  have hneg := address_neg h
  omega

/-- Every effect that is logged from an empty log is one of the program's. -/
theorem addressed_of_mem {α : Type} {m : Acting Effect α} {e : Effect}
    (h : Within (Addressed home peer) m) (he : e ∈ (m []).2) : Addressed home peer e := by
  obtain ⟨added, hadded, hin⟩ := h []
  rw [hadded, List.nil_append] at he
  exact hin e he

def silent : World where
  alive _ _ := false
  killed _ _ _ := false
  connects _ _ _ := false
  polls _ _ := 0

/-- What is probed on Unix is no process group. -/
theorem lt_of_probed {α : Type} {m : Acting Effect α} {pid : UInt32}
    (h : Within (Addressed home peer) m) (hmem : .probe (address false pid) ∈ (m []).2) :
    pid.toNat < 2 ^ 31 := by
  by_contra hlarge
  exact not_addressed (Nat.not_lt.mp hlarge) (addressed_of_mem h hmem)

theorem pidFits_of_probed {raw : Option String} (hwide : PidFits (2 ^ 32) raw)
    (hprobed : ∀ pid, readPid raw = some pid → pid.toNat < 2 ^ 31) : PidFits (2 ^ 31) raw := by
  intro n hpos hn
  rcases readPid_cases raw with ⟨-, hzero⟩ | ⟨m, hm, hw, hread⟩
  · exact absurd hn (hzero n hpos)
  · have hsame : m = n := by exact_mod_cast hw.unique hn
    have hlt := hprobed _ hread
    rw [UInt32.toNat_ofNat_of_lt' (hwide m hm hw), hsame] at hlt
    exact hlt

theorem fits_of_truthful (h : Truthful windows home peer) : Fits windows home peer := by
  have hwide := (exact_iff home).mp h.exact
  have hpeer : ∀ found ∈ peer, HomeFits (2 ^ 32) found := fun found hfound =>
    (exact_iff found).mp (h.peerExact found hfound)
  cases windows with
  | true => exact ⟨hwide, hpeer⟩
  | false =>
    refine ⟨⟨?_, ?_, ?_, ?_⟩, hpeer⟩
    · intro value hvalue pid port haccepted
      obtain ⟨⟨-, hport⟩, hingest⟩ := hwide.server value hvalue pid port haccepted
      obtain ⟨state, hstate⟩ := Option.isSome_iff_exists.mp
        ((parseServerState_isSome_iff value).mpr ⟨pid, port, haccepted⟩)
      refine ⟨⟨?_, hport⟩, hingest⟩
      rw [haccepted.pid_written.unique (h.exact.server value hvalue state hstate).pid]
      exact lt_of_probed (h.discovery silent none []) (discovery_probes silent [] none []
        (Option.bind_eq_some_iff.mpr ⟨value, hvalue, hstate⟩))
    · intro value hvalue pid port haccepted
      obtain ⟨-, hport⟩ := hwide.ingest value hvalue pid port haccepted
      obtain ⟨state, hstate⟩ := Option.isSome_iff_exists.mp
        ((parseIngestState_isSome_iff value).mpr ⟨pid, port, haccepted⟩)
      refine ⟨?_, hport⟩
      rw [haccepted.pid_written.unique (h.exact.ingest value hvalue state hstate).pid]
      exact lt_of_probed (h.ingestPort silent none) (resolution_probes silent [] none
        (Option.bind_eq_some_iff.mpr ⟨value, hvalue, hstate⟩))
    · exact pidFits_of_probed hwide.ingestPid fun pid hpid =>
        lt_of_probed (h.teardown silent) (teardown_probes silent [] hpid)
    · exact pidFits_of_probed hwide.uplinkPid fun pid hpid =>
        lt_of_probed (h.uplink silent) (uplink_probes silent [] hpid)

/-- State files are truthful if and only if the numbers in them are in range: a pid in that of the
system call it is for, a port in 16 bits. -/
theorem state_files_truthful_iff (windows : Bool) (home : Home) (peer : Option Home) :
    Truthful windows home peer ↔ Fits windows home peer :=
  ⟨fits_of_truthful, truthful_of_fits⟩

end

/-- A server record with a pid of `2 ^ 32`. -/
def wrapped : Json :=
  .object [("pid", .number (.posInt 4294967296)), ("port", .number (.posInt 7421))]

def wrappedHome : Home where
  serverJson := some wrapped
  ingestJson := none
  ingestPid := none
  uplinkPid := none
  present _ := false

/-- Everything lives on, and every call succeeds. -/
def obliging : World where
  alive _ _ := true
  killed _ _ _ := true
  connects _ _ _ := true
  polls _ _ := 0

/-- The record is accepted as pid 0, and teardown signals the process group of its caller. -/
theorem pid_wrapped :
    (parseServerState wrapped).map (·.pid) = some 0 ∧
      .signal 0 false ∈ (teardownLocalServerStack false obliging wrappedHome []).2 ∧
      ¬ Truthful false wrappedHome none := by
  refine ⟨by decide, by decide, fun h => ?_⟩
  have hwritten : Accepted wrapped 4294967296 7421 :=
    ⟨by decide, by decide, ⟨.posInt 4294967296, rfl, by decide⟩, ⟨.posInt 7421, rfl, by decide⟩⟩
  have hlt := ((fits_of_truthful h).own.server wrapped rfl _ _ hwritten).1.1
  exact absurd hlt (by decide)

end Climon.Remote.Teardown
