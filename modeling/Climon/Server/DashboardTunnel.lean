import Climon.Lib.Transition
import Mathlib.Logic.Function.Basic

namespace Climon.Server.DashboardTunnel

open Climon.Lib.Transition

/-!
# The dashboard tunnel and its host process

`ensure`, the watchdog and `close` share the manager's fields, and whatever one of them awaits lets
the others go on in the meantime.
-/

/-- JavaScript's truth of a string that may be undefined. -/
def truthy (text : Option String) : Bool := text.any (· ≠ "")

def maxTunnelRecreations : Nat := 1

structure SplitId where
  base : String
  cluster : Option String
  deriving DecidableEq

/-- At the last dot. -/
def splitTunnelId (tunnelId : String) : SplitId :=
  let chars := tunnelId.toList
  if '.' ∈ chars then
    let cluster := (chars.reverse.takeWhile (· ≠ '.')).reverse
    { base := String.ofList (chars.take (chars.length - (cluster.length + 1)))
      cluster := if cluster = [] then none else some (String.ofList cluster) }
  else { base := tunnelId, cluster := none }

def buildDashboardTunnelUrl (tunnelId : String) (port : Nat) (cluster : String) : String :=
  "https://" ++ (splitTunnelId tunnelId).base ++ "-" ++ toString port ++ "." ++ cluster ++
    ".devtunnels.ms/"

/-! ## The host processes -/

/-- `failed` is a process that could not be spawned: it has an `error` event before its `close`
event. -/
structure HostProcess where
  running : Bool
  failed : Bool
  /-- Sent SIGTERM. -/
  stopped : Bool
  alive : Bool
  closed : Bool
  deriving DecidableEq

/-- `processes` are all those ever spawned, in that order. `cleared` has an entry for each
notification that found a host recorded: whose notification, and which host. `closedAt` is how
many there were at a `close` after which nobody called `ensure`. -/
structure Hosts where
  host : Option Nat
  closing : Bool
  processes : List HostProcess
  cleared : List (Nat × Nat)
  closedAt : Option Nat

namespace Hosts

def isAlive (h : Hosts) (p : Nat) : Bool := h.processes[p]?.any (·.alive)

def isRunning (h : Hosts) : Bool := h.host.any h.isAlive

/-- `host?.stop()`, and the record is given up. -/
def stop (h : Hosts) : Hosts :=
  match h.host with
  | none => h
  | some p =>
    { h with
      host := none
      processes := h.processes.modify p fun process =>
        { process with stopped := process.stopped || process.alive } }

def spawn (h : Hosts) (runs : Bool) : Hosts :=
  { h with
    host := some h.processes.length
    processes := h.processes ++
      [{ running := runs, failed := !runs, stopped := false, alive := true, closed := false }] }

def exit (h : Hosts) (p : Nat) : Hosts :=
  { h with processes := h.processes.modify p fun process => { process with running := false } }

/-- The `close` event is the last one. -/
def onExit (h : Hosts) (p : Nat) (last : Bool) : Hosts :=
  { h with
    host := none
    processes := h.processes.modify p fun process =>
      { process with alive := false, closed := last }
    cleared := h.cleared ++ h.host.toList.map fun q => (p, q) }

end Hosts

/-! ## The flows of `startHost` -/

/-- What a call of `startHost` waits for. `create` and `persist` are in `createTunnel`, which a call
either goes on after or, with `restart`, begins again after. `port` tells whether a request was made
at all. -/
inductive Phase where
  | create (recreations : Nat) (restart : Bool)
  | persist (recreations : Nat) (restart : Bool)
  | derive (recreations : Nat)
  | port (recreations : Nat) (asked : Bool)
  | forget (recreations : Nat)
  | prune (recreations : Nat) (tunnelId : Option String)
  | wait (recreations process : Nat) (tunnelId : Option String)
  | verify (recreations process : Nat) (tunnelId : Option String)
  | delete (recreations : Nat) (tunnelId : Option String)
  | clear (recreations : Nat)
  deriving DecidableEq

/-- `starting` is the call that `ensure` shares, and `detecting` counts the calls of `ensure` that
are in `detect`. -/
structure State where
  tunnelId : Option String
  cluster : Option String
  persistedTunnelId : Option String
  url : Option String
  hosts : Hosts
  starting : Option Nat
  watchdog : Bool
  detecting : Nat
  flows : Nat → Option Phase
  count : Nat

def init (tunnelId cluster : Option String) : State where
  tunnelId := tunnelId
  cluster := cluster
  persistedTunnelId := tunnelId
  url := none
  hosts := { host := none, closing := false, processes := [], cleared := [], closedAt := none }
  starting := none
  watchdog := false
  detecting := 0
  flows _ := none
  count := 0

/-- What the awaited thing comes to. A port that exists already is `ok`, and `missing` is the answer
that there is no such tunnel. -/
inductive Answer where
  | ok
  | failed
  | missing
  | created (tunnelId cluster : Option String)
  | throws

/-- `poll` is the end of a sleep of the loop that waits for a URL: whether the deadline has passed,
and whether the host's output says that there is no such tunnel. `settled` is the `finally` of the
call that `ensure` shares. -/
inductive Event where
  | ensure
  | detected (ready : Bool)
  | settled
  | tick
  | resume (f : Nat) (answer : Answer)
  | spawn (f : Nat) (runs : Bool)
  | poll (f : Nat) (late missing : Bool)
  | output (p : Nat) (url : Option String)
  | exit (p : Nat)
  | onExit (p : Nat) (last : Bool)
  | close

section Model

variable (port : Nat)

namespace State

def goOn (s : State) (f : Nat) (phase : Phase) : State :=
  { s with flows := Function.update s.flows f (some phase) }

/-- It returns or throws. -/
def finish (s : State) (f : Nat) : State := { s with flows := Function.update s.flows f none }

def ensurePort (s : State) (f recreations : Nat) : State :=
  s.goOn f (.port recreations (truthy s.tunnelId))

/-- `startHost` once there is a tunnel. -/
def withTunnel (s : State) (f recreations : Nat) : State :=
  if truthy s.tunnelId then
    if truthy s.cluster then s.ensurePort f recreations
    else
      match s.tunnelId.bind fun id => (splitTunnelId id).cluster with
      | none => s.ensurePort f recreations
      | some derived =>
        let t := { s with cluster := some derived }
        if t.persistedTunnelId = t.tunnelId then t.goOn f (.derive recreations)
        else t.ensurePort f recreations
  else s.finish f

def startHost (s : State) (f recreations : Nat) : State :=
  if truthy s.tunnelId then s.withTunnel f recreations else s.goOn f (.create recreations false)

/-- A new call of `startHost`. -/
def begin (s : State) : State := { s with count := s.count + 1 }.startHost s.count 0

/-- `discardTunnel` ends with the same. -/
def forgetTunnel (s : State) (tunnelId : Option String) : State :=
  { s with
    tunnelId := none
    cluster := none
    url := none
    persistedTunnelId := if s.persistedTunnelId = tunnelId then none else s.persistedTunnelId }

/-- The end of `startHost`, with the timers going. -/
def hosted (s : State) (f : Nat) : State := { s with watchdog := true }.finish f

def verifyTunnel (s : State) (f recreations process : Nat) (tunnelId : Option String) : State :=
  if s.hosts.isAlive process && recreations < maxTunnelRecreations then
    s.goOn f (.verify recreations process tunnelId)
  else s.hosted f

/-- One turn of the loop that waits for a URL, and what follows the loop. -/
def poll (s : State) (f recreations process : Nat) (tunnelId : Option String)
    (late missing : Bool) : State :=
  if truthy s.url then s.verifyTunnel f recreations process tunnelId
  else if s.hosts.isAlive process then
    if late then
      match tunnelId, s.cluster with
      | some id, some cluster =>
        if cluster = "" then s.finish f
        else
          { s with url := some (buildDashboardTunnelUrl id port cluster) }.verifyTunnel f recreations
            process tunnelId
      | _, _ => s.finish f
    else s
  else if missing then (s.forgetTunnel tunnelId).goOn f (.forget 0)
  else s.finish f

/-- What a call does with the answer to what it waits for; `none` where this is not an answer. -/
def resume (s : State) (f : Nat) : Phase → Answer → Option State
  | .wait .., _ => none
  | .port recreations false, _ => some (s.goOn f (.prune recreations s.tunnelId))
  | _, .throws => some (s.finish f)
  | .create .., .failed => some (s.finish f)
  | .create recreations restart, .created tunnelId cluster =>
    some (if truthy tunnelId then
      { s with
        tunnelId := tunnelId
        cluster := cluster.or (tunnelId.bind fun id => (splitTunnelId id).cluster) }.goOn f
          (.persist recreations restart)
    else s.finish f)
  | .persist recreations restart, .ok =>
    let t := { s with persistedTunnelId := s.tunnelId }
    some (if restart then t.startHost f recreations else t.withTunnel f recreations)
  | .derive recreations, .ok => some (s.ensurePort f recreations)
  | .port recreations true, .ok => some (s.goOn f (.prune recreations s.tunnelId))
  | .port _ true, .failed => some (s.finish f)
  | .port recreations true, .missing =>
    some ((s.forgetTunnel s.tunnelId).goOn f (.forget recreations))
  | .forget recreations, .ok => some (s.goOn f (.create recreations true))
  | .verify .., .ok => some (s.hosted f)
  | .verify recreations _ tunnelId, .failed =>
    some ({ s with hosts := s.hosts.stop }.goOn f (.delete recreations tunnelId))
  | .delete recreations tunnelId, .ok | .delete recreations tunnelId, .failed =>
    some ((s.forgetTunnel tunnelId).goOn f (.clear recreations))
  | .clear recreations, .ok => some (s.startHost f (recreations + 1))
  | _, _ => none

end State

/-- `closing` is set and unset in one go. -/
def close (s : State) : State :=
  let closing := { s with hosts := { s.hosts with closing := true } }
  let stopped := { closing with hosts := closing.hosts.stop, url := none, watchdog := false }
  { stopped with
    hosts := { stopped.hosts with
      closing := false, closedAt := some stopped.hosts.processes.length } }

def next (s : State) : Event → Option State
  | .ensure =>
    some { s with detecting := s.detecting + 1, hosts := { s.hosts with closedAt := none } }
  | .detected ready =>
    if s.detecting = 0 then none
    else
      let t := { s with detecting := s.detecting - 1 }
      some (if ready then
        if t.hosts.isRunning && truthy t.url then t
        else if t.starting.isSome then t
        else { t.begin with starting := some t.count }
      else t)
  | .settled =>
    match s.starting with
    | some f => if s.flows f = none then some { s with starting := none } else none
    | none => none
  | .tick =>
    if s.watchdog then
      some (if s.hosts.closing || !truthy s.tunnelId then s
        else if s.hosts.isRunning then s else s.begin)
    else none
  | .resume f answer => (s.flows f).bind fun phase => s.resume f phase answer
  | .spawn f runs =>
    match s.flows f with
    | some (.prune recreations tunnelId) =>
      some ({ s with url := none, hosts := s.hosts.spawn runs }.goOn f
        (.wait recreations s.hosts.processes.length tunnelId))
    | _ => none
  | .poll f late missing =>
    match s.flows f with
    | some (.wait recreations process tunnelId) =>
      some (s.poll port f recreations process tunnelId late missing)
    | _ => none
  | .output p url =>
    if s.hosts.processes[p]?.any (!·.closed) then some { s with url := url.or s.url } else none
  | .exit p =>
    if s.hosts.processes[p]?.any (·.running) then some { s with hosts := s.hosts.exit p } else none
  | .onExit p last =>
    if s.hosts.processes[p]?.any fun process =>
      !process.running && !process.closed && (last || process.failed) then
      some { s with hosts := s.hosts.onExit p last }
    else none
  | .close => some (close s)

def Step (s : State) (e : Event) (t : State) : Prop := next port s e = some t

end Model

/-! ## One host at most -/

def Running (h : Hosts) (p : Nat) : Prop := ∃ process, h.processes[p]? = some process ∧
  process.running = true

/-- A host is spawned only when all the earlier ones have had their last notification, and `close`
is called only while no call of `ensure` or `startHost` is at work. -/
def InTurn (s : State) : Event → Prop
  | .spawn _ _ => ∀ process ∈ s.hosts.processes, process.closed = true
  | .close => s.detecting = 0 ∧ ∀ f, s.flows f = none
  | _ => True

end Climon.Server.DashboardTunnel
