import Mathlib.Order.Lattice
import Climon.Lib.Transition

namespace Climon.Server.Promotion

open Climon.Lib.Transition

/-!
# Two dashboard servers, one host

A server on each of two operating systems, the homes that both can read and write, and the ingest
daemon beside each server. Times are of any linear order; what the network answers is up to it.
-/

variable {τ : Type}

inductive Side where
  | wsl
  | windows
  deriving DecidableEq, Repr

namespace Side

def peer : Side → Side
  | wsl => windows
  | windows => wsl

def isWsl : Side → Bool
  | wsl => true
  | windows => false

@[simp] theorem peer_peer (x : Side) : x.peer.peer = x := by cases x <;> rfl

@[simp] theorem peer_ne (x : Side) : x.peer ≠ x := by cases x <;> simp [peer]

@[simp] theorem isWsl_peer (x : Side) : x.peer.isWsl = !x.isWsl := by cases x <;> rfl

theorem eq_or_eq_peer (x y : Side) : y = x ∨ y = x.peer := by
  cases x <;> cases y <;> simp [peer]

end Side

/-! ## The tie-break -/

section

variable [LinearOrder τ]

inductive TieBreakOutcome where
  | stayHost
  | demoteSelf
  deriving DecidableEq, Repr

def tieBreakOutcome (localIsWsl peerServerPresent : Bool) : TieBreakOutcome :=
  if !peerServerPresent then .stayHost else if localIsWsl then .stayHost else .demoteSelf

inductive SettleDecision where
  | win
  | lose
  deriving DecidableEq, Repr

/-- The server that started last wins; WSL does where the times do not tell. -/
def dualPromoteSettleDecision (localIsWsl : Bool) (localStartedAt : τ) (peerStartedAt : Option τ) :
    SettleDecision :=
  let tie := if tieBreakOutcome localIsWsl true = .stayHost then .win else .lose
  match peerStartedAt with
  | some t =>
    if t ≠ localStartedAt then if t < localStartedAt then .win else .lose else tie
  | none => tie

/-- Two servers that know each other's start time agree on the winner. -/
theorem dualPromoteSettleDecision_antisymm (x : Side) (a b : τ) :
    dualPromoteSettleDecision x.isWsl a (some b) = .win ↔
      dualPromoteSettleDecision x.peer.isWsl b (some a) = .lose := by
  simp only [dualPromoteSettleDecision, Side.isWsl_peer]
  rcases lt_trichotomy a b with h | h | h
  · simp [h.ne, h.ne', h, h.not_gt]
  · subst h
    cases x.isWsl <;> simp [tieBreakOutcome]
  · simp [h.ne, h.ne', h, h.not_gt]

end

/-! ## The files and the processes -/

structure ServerState (τ : Type) where
  startedAt : Option τ
  deriving DecidableEq, Repr

/-- What `parseShutdownRequest` makes of the file. -/
inductive ShutdownRequest where
  | wellFormed
  | malformed
  deriving DecidableEq, Repr

inductive HomeFile where
  | ingestJson
  | serverJson
  | shutdownRequest
  deriving DecidableEq, Repr

/-- A `CLIMON_HOME` as its readers see it. -/
structure Home (τ : Type) where
  server : Option (ServerState τ)
  ingest : Bool
  request : Option ShutdownRequest
  deriving DecidableEq, Repr

def Home.remove (h : Home τ) : HomeFile → Home τ
  | .ingestJson => { h with ingest := false }
  | .serverJson => { h with server := none }
  | .shutdownRequest => { h with request := none }

def Home.write (h : Home τ) (r : ShutdownRequest) : Home τ := { h with request := some r }

/-- Where `startServer` is. -/
inductive Phase (τ : Type) where
  | off
  | promoting
  /-- `runPromote` has read the peer's beacons. -/
  | looked (peerServer peerIngest : Bool)
  /-- The request is in the peer's home. -/
  | confirming
  /-- The peer's HTTP endpoint was asked. -/
  | posted
  | clearing (left : List HomeFile)
  | starting
  | bound (startedAt : τ)
  /-- `server.json` is written, no shutdown handler is installed. -/
  | announced (startedAt : τ)
  | settling (startedAt : τ) (polled : Bool)
  | decided (d : SettleDecision)
  | settled
  | closing
  deriving DecidableEq, Repr

inductive Daemon where
  | down
  | up (announced asked : Bool)
  | removing (left : List HomeFile)
  deriving DecidableEq, Repr

structure Os (τ : Type) where
  home : Home τ
  server : Phase τ
  daemon : Daemon
  deriving DecidableEq, Repr

structure ClimonConfig where
  peerHome : Bool
  wslBridge : Bool
  remotes : Bool
  deriving DecidableEq, Repr

def computeRemotesActive (c : ClimonConfig) : Bool := c.wslBridge || c.remotes

def shouldWatchPeerShutdown (peerHome remotesActive : Bool) : Bool := peerHome && !remotesActive

namespace ClimonConfig

/-- `runPromote` before the port is bound, `settleDualPromote` after. -/
def promotes (c : ClimonConfig) : Bool := c.peerHome && c.wslBridge

def watches (c : ClimonConfig) : Bool := shouldWatchPeerShutdown c.peerHome (computeRemotesActive c)

theorem promotes_watches {c : ClimonConfig} (h : c.watches = true) : c.promotes = false := by
  rcases c with ⟨peerHome, wslBridge, remotes⟩
  cases peerHome <;> cases wslBridge <;> cases remotes <;> first | rfl | cases h

theorem remotesActive_watches {c : ClimonConfig} (h : c.watches = true) :
    computeRemotesActive c = false := by
  rw [watches, shouldWatchPeerShutdown, Bool.and_eq_true, Bool.not_eq_true'] at h
  exact h.2

end ClimonConfig

/-! ## The steps -/

inductive Action (τ : Type) where
  | start
  | readPeer
  | proceed
  | probeIngest (listening : Bool)
  | clear (removed : Bool)
  | confirm (demoted : Bool)
  /-- A server answers on the port of the peer's beacon; it may be the peer's. -/
  | post (reached : Bool)
  | stopped
  /-- `requestPeerShutdown` gave up; the port accepts a connection or not. -/
  | unreachable (alive : Bool)
  | bind (now : τ)
  | announce
  | serve
  | poll
  | request
  | giveUp
  | watch
  | exit
  | ingestStart
  | ingestAnnounce
  | ingestPoll
  | ingestDemote
  | ingestRemove (removed : Bool)
  /-- A signal; without the clean-up where it is a hard one. -/
  | ingestStop (clean : Bool)
  deriving DecidableEq, Repr

def beaconFiles : List HomeFile := [.ingestJson, .serverJson, .shutdownRequest]

def removeBeacons : List HomeFile := [.ingestJson, .shutdownRequest, .serverJson]

/-- `plainShutdown`; before the handlers are there, the endpoint does nothing. -/
def plainShutdown (o : Os τ) : Os τ :=
  match o.server with
  | .settling _ _ | .decided _ | .settled =>
    { o with home := o.home.remove .serverJson, server := .closing }
  | _ => o

/-- One poll of `settleDualPromote`: the first beacon that it reads decides. -/
def settleDualPromote [LinearOrder τ] (x : Side) (startedAt : τ) : Option (ServerState τ) → Phase τ
  | none => .settling startedAt true
  | some b => .decided (dualPromoteSettleDecision x.isWsl startedAt b.startedAt)

/-- A watcher drops what it finds, and tells whether it was a request. -/
def check : Option ShutdownRequest → Option Bool
  | none => none
  | some .malformed => some false
  | some .wellFormed => some true

def serverNext [LinearOrder τ] (x : Side) (c : ClimonConfig) (own peer : Os τ) :
    Phase τ → Action τ → Option (Os τ × Os τ)
  | .off, .start => some ({ own with server := if c.promotes then .promoting else .starting }, peer)
  | .promoting, .readPeer =>
    some ({ own with server := .looked peer.home.server.isSome peer.home.ingest }, peer)
  | .looked false false, .proceed => some ({ own with server := .starting }, peer)
  | .looked _ true, .probeIngest false => some ({ own with server := .clearing beaconFiles }, peer)
  | .looked _ true, .probeIngest true =>
    some ({ own with server := .confirming }, { peer with home := peer.home.write .wellFormed })
  | .confirming, .confirm true => some ({ own with server := .starting }, peer)
  | .confirming, .confirm false => some ({ own with server := .off }, peer)
  | .looked true false, .post true => some ({ own with server := .posted }, plainShutdown peer)
  | .looked true false, .post false => some ({ own with server := .posted }, peer)
  | .posted, .stopped => some ({ own with server := .clearing beaconFiles }, peer)
  | .looked true false, .unreachable true | .posted, .unreachable true =>
    some ({ own with server := .off }, peer)
  | .looked true false, .unreachable false | .posted, .unreachable false =>
    some ({ own with server := .starting }, peer)
  | .clearing (f :: left), .clear true =>
    some ({ own with server := .clearing left }, { peer with home := peer.home.remove f })
  | .clearing (_ :: left), .clear false => some ({ own with server := .clearing left }, peer)
  | .clearing [], .proceed => some ({ own with server := .starting }, peer)
  | .starting, .bind now => some ({ own with server := .bound now }, peer)
  | .bound t, .announce =>
    some ({ own with
      home := { own.home with server := some ⟨some t⟩ }
      server := .announced t }, peer)
  | .announced t, .serve =>
    some ({ own with
      home := if c.watches then own.home.remove .shutdownRequest else own.home
      server := if c.promotes then .settling t false else .settled }, peer)
  | .settling t _, .poll =>
    some ({ own with server := settleDualPromote x t peer.home.server }, peer)
  | .decided .win, .request =>
    some ({ own with server := .settled }, { peer with home := peer.home.write .wellFormed })
  | .decided .lose, .request =>
    some ({ own with home := own.home.write .wellFormed, server := .settled }, peer)
  | .settling _ true, .giveUp => some ({ own with server := .settled }, peer)
  | .settled, .watch =>
    if c.watches then
      (check own.home.request).map fun valid =>
        let own := { own with home := own.home.remove .shutdownRequest }
        (if valid then plainShutdown own else own, peer)
    else none
  | .closing, .exit => some ({ own with server := .off }, peer)
  | _, _ => none

/-- The ingest daemon. `stop_local_server` is given to it as a closure that does nothing. -/
def daemonNext (c : ClimonConfig) (own : Os τ) : Daemon → Action τ → Option (Os τ)
  | .down, .ingestStart =>
    if computeRemotesActive c then
      some { own with home := own.home.remove .shutdownRequest, daemon := .up false false }
    else none
  | .up false asked, .ingestAnnounce =>
    some { own with home := { own.home with ingest := true }, daemon := .up true asked }
  | .up announced false, .ingestPoll =>
    (check own.home.request).map fun valid =>
      { own with home := own.home.remove .shutdownRequest, daemon := .up announced valid }
  | .up true true, .ingestDemote => some { own with daemon := .removing removeBeacons }
  | .removing (f :: left), .ingestRemove removed =>
    some { own with
      home := if removed then own.home.remove f else own.home
      daemon := .removing left }
  | .removing [], .ingestRemove _ => some { own with daemon := .down }
  | .up true _, .ingestStop true => some { own with daemon := .removing removeBeacons }
  | .up _ _, .ingestStop false | .removing _, .ingestStop false =>
    some { own with daemon := .down }
  | _, _ => none

def place (x : Side) (own peer : Os τ) : Side → Os τ := fun y => if y = x then own else peer

@[simp] theorem place_self (x : Side) (own peer : Os τ) : place x own peer x = own := by
  simp [place]

@[simp] theorem place_peer (x : Side) (own peer : Os τ) : place x own peer x.peer = peer := by
  simp [place]

variable [LinearOrder τ]

def next (cfg : Side → ClimonConfig) (s : Side → Os τ) : Side × Action τ → Option (Side → Os τ)
  | (x, a) =>
    match serverNext x (cfg x) (s x) (s x.peer) (s x).server a with
    | some (own, peer) => some (place x own peer)
    | none => (daemonNext (cfg x) (s x) (s x).daemon a).map fun own => place x own (s x.peer)

def Step (cfg : Side → ClimonConfig) (s : Side → Os τ) (e : Side × Action τ) (t : Side → Os τ) :
    Prop :=
  next cfg s e = some t

/-- What a step leaves on the side that acts and on the other one. -/
theorem Step.sides {cfg : Side → ClimonConfig} {s t : Side → Os τ} {x : Side} {a : Action τ}
    (h : Step cfg s (x, a) t) :
    serverNext x (cfg x) (s x) (s x.peer) (s x).server a = some (t x, t x.peer) ∨
      (daemonNext (cfg x) (s x) (s x).daemon a = some (t x) ∧ t x.peer = s x.peer) := by
  simp only [Step, next] at h
  split at h
  · rename_i own peer hserver
    cases h
    rw [place_self, place_peer]
    exact .inl hserver
  · obtain ⟨own, hdaemon, rfl⟩ := Option.map_eq_some_iff.mp h
    rw [place_self, place_peer]
    exact .inr ⟨hdaemon, rfl⟩

end Climon.Server.Promotion
