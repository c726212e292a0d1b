import Climon.Lib.Transition
import Climon.Web.TerminalView

namespace Climon.Web.Attachment

open Climon.Lib.Transition Climon.Proto.Frame Climon.Proto.Meta Climon.Session.Host
  Climon.Web.TerminalView

/-!
# A tab and the session's host

The tab's socket goes through the dashboard server to a connection of the host, which is accepted
some time later and which outlives the socket: what was sent may still arrive, and the host sees
the end only after it.
-/

variable {G : Type}

/-- The way up to the host, whose connection has no number until it is accepted. -/
structure Pipe where
  client : Option ClientId
  up : List ClientFrame
  deriving DecidableEq, Repr

/-- The tab's current socket; `read` frames of the host's queue have arrived. -/
structure Link extends Pipe where
  opened : Bool
  exitReceived : Bool
  read : Nat
  deriving DecidableEq, Repr

def Link.fresh : Link where
  client := none
  up := []
  opened := false
  exitReceived := false
  read := 0

/-- `stale` are the sockets that are gone for the tab and not yet for the host. -/
structure Dashboard where
  tab : Tab
  link : Option Link
  stale : List Pipe
  deriving DecidableEq, Repr

structure Net (G : Type) where
  host : HostState G
  dashboard : Dashboard

inductive NetEvent where
  | host (e : Event)
  | select (attaches : Bool)
  | reconnect
  | opened
  | accept
  | drop (serverConnected : Bool)
  | read
  | deliver (stored : Option SessionStatus)
  | staleAccept (i : Nat)
  | staleDeliver (i : Nat) (stored : Option SessionStatus)
  | staleClose (i : Nat)
  | fit (measured : Option Size)
  | replayWritten
  | overlayTimer
  | takeControl (proposed : Size)
  | armTakeControl (proposed : Size)
  | flushTakeControl (proposed : Size)
  | focus (visible : Bool) (proposed : Size)
  | input (data : List UInt8)
  | acknowledge (attentionMatchedAt : String)
  deriving DecidableEq, Repr

namespace Dashboard

def linked (d : Dashboard) : List ClientId := (d.link.bind (·.client)).toList

def staleClients (d : Dashboard) : List ClientId := d.stale.filterMap (·.client)

/-- The host's connections that carry, or carried, a socket of this tab. -/
def owned (d : Dashboard) : List ClientId := d.linked ++ d.staleClients

def isOpen (d : Dashboard) : Bool :=
  match d.link with
  | some l => l.opened
  | none => false

/-- Send what the tab has to say. -/
def emit (d : Dashboard) (p : Tab × List BrowserMessage) : Dashboard :=
  { d with
    tab := p.1
    link := d.link.map fun l => { l with up := l.up ++ p.2.filterMap forward } }

def hangUp (d : Dashboard) : Dashboard :=
  { d with link := none, stale := d.link.toList.map Link.toPipe ++ d.stale }

def select (d : Dashboard) (attaches : Bool) : Dashboard :=
  { d.hangUp with
    tab := d.tab.selectSession attaches, link := if attaches then some .fresh else none }

def reconnect (d : Dashboard) : Dashboard :=
  { d with tab := d.tab.attachLiveSession, link := some .fresh }

def drop (d : Dashboard) (l : Link) (serverConnected : Bool) : Dashboard :=
  { d.hangUp with tab := d.tab.handleDisconnect (serverConnected && !l.exitReceived) }

def opened (d : Dashboard) (l : Link) : Dashboard :=
  { d with link := some { l with opened := true } }.emit d.tab.flushAttentionAck

def read (me : Viewer) (d : Dashboard) (l : Link) (frame : HostFrame) : Dashboard :=
  { d with
    tab := d.tab.readFrame me frame
    link := some { l with
      read := l.read + 1
      exitReceived := match frame with | .exit _ => true | _ => l.exitReceived } }

def fit (me : Viewer) (d : Dashboard) (measured : Option Size) : Dashboard :=
  d.emit (d.tab.refitted.fitNow me d.isOpen measured)

end Dashboard

/-- The id that a frame reports. -/
def reportedId : ClientFrame → Option String
  | .resize size => size.viewerId
  | _ => none

/-- What happens at the host without this tab. Other surfaces have ids of their own. -/
def foreign (me : Viewer) (d : Dashboard) : Event → Bool
  | .frame n frame _ => !d.owned.contains n && reportedId frame != some me.id
  | .disconnect n => !d.staleClients.contains n
  | _ => true

/-- A frame that arrives; nobody reads it once the connection has no reader. -/
def arrival (host : HostState G) (n : ClientId) (frame : ClientFrame)
    (stored : Option SessionStatus) : Option Event :=
  if host.readers.contains n then some (.frame n frame stored) else none

/-- The host's part of an event, if it has one, and what becomes of the tab and its sockets. -/
def plan (me : Viewer) (host : HostState G) (d : Dashboard) :
    NetEvent → Option (Option Event × Dashboard)
  | .host e => if foreign me d e then some (some e, d) else none
  | .select attaches => some (none, d.select attaches)
  | .reconnect => if d.tab.reconnectTimer ∧ d.link = none then some (none, d.reconnect) else none
  | .opened =>
    match d.link with
    | some l => if l.opened then none else some (none, d.opened l)
    | none => none
  | .accept =>
    match d.link with
    | some l =>
      if l.client = none then
        some (some .connect, { d with link := some { l with client := some host.clientSeq } })
      else none
    | none => none
  | .drop serverConnected =>
    match d.link with
    | some l => some (none, d.drop l serverConnected)
    | none => none
  | .read =>
    match d.link with
    | some l =>
      match l.client, l.opened with
      | some n, true =>
        match (host.channels n).frames[l.read]? with
        | some frame => some (none, d.read me l frame)
        | none => none
      | _, _ => none
    | none => none
  | .deliver stored =>
    match d.link with
    | some l =>
      match l.client, l.up with
      | some n, frame :: rest =>
        some (arrival host n frame stored, { d with link := some { l with up := rest } })
      | _, _ => none
    | none => none
  | .staleAccept i =>
    match d.stale[i]? with
    | some p =>
      if p.client = none then
        some (some .connect,
          { d with stale := d.stale.set i { p with client := some host.clientSeq } })
      else none
    | none => none
  | .staleDeliver i stored =>
    match d.stale[i]? with
    | some p =>
      match p.client, p.up with
      | some n, frame :: rest =>
        some (arrival host n frame stored, { d with stale := d.stale.set i { p with up := rest } })
      | _, _ => none
    | none => none
  | .staleClose i =>
    match d.stale[i]? with
    | some p =>
      let closed := { d with stale := d.stale.eraseIdx i }
      match p.client with
      | some n => some (if host.readers.contains n then some (.disconnect n) else none, closed)
      | none => some (none, closed)
    | none => none
  | .fit measured => some (none, d.fit me measured)
  | .replayWritten =>
    if 0 < d.tab.replayWrites then
      some (none, { d with tab := d.tab.completeInitialReplay })
    else none
  | .overlayTimer =>
    if d.tab.displacedOverlayTimer then
      some (none, { d with tab := d.tab.showDisplacedOverlay })
    else none
  | .takeControl proposed => some (none, d.emit (d.tab.takeControl me d.isOpen proposed))
  | .armTakeControl proposed => some (none, d.emit (d.tab.armTakeControl me d.isOpen proposed))
  | .flushTakeControl proposed =>
    some (none, d.emit (d.tab.flushPendingTakeControl me d.isOpen proposed))
  | .focus visible proposed =>
    some (none, d.emit (d.tab.reclaimOnFocus me visible d.isOpen proposed))
  | .input data => some (none, d.emit (d.tab.sendInput d.isOpen data))
  | .acknowledge attentionMatchedAt =>
    some (none, d.emit (d.tab.sendAttentionAck d.isOpen attentionMatchedAt))

/-- The host takes the step that an event has for it, or none. -/
def HostStep (env : HostEnv G) (s : HostState G) : Option Event → HostState G → Prop
  | some e, t => Session.Host.Step env s e t
  | none, t => t = s

def Step (env : HostEnv G) (me : Viewer) (s : Net G) (e : NetEvent) (t : Net G) : Prop :=
  ∃ host, plan me s.host s.dashboard e = some (host, t.dashboard) ∧ HostStep env s.host host t.host

/-- The schedule of a deterministic run. -/
def next (env : HostEnv G) (me : Viewer) (s : Net G) (e : NetEvent) : Option (Net G) :=
  (plan me s.host s.dashboard e).bind fun p =>
    match p.1 with
    | some host => (Session.Host.next env s.host host).map fun t => ⟨t, p.2⟩
    | none => some ⟨s.host, p.2⟩

theorem step_of_next {env : HostEnv G} {me : Viewer} {s t : Net G} {e : NetEvent}
    (h : next env me s e = some t) : Step env me s e t := by
  obtain ⟨⟨host, d⟩, hplan, hnext⟩ := Option.bind_eq_some_iff.mp h
  cases host with
  | none =>
    cases hnext
    exact ⟨none, hplan, rfl⟩
  | some e =>
    obtain ⟨u, hu, ht⟩ := Option.map_eq_some_iff.mp hnext
    cases ht
    exact ⟨some e, hplan, Session.Host.step_of_next hu⟩

/-- A host that was just started and a tab that shows nothing yet. -/
def initialNet (env : HostEnv G) (launch : Launch) (cols rows : UInt16) (idleSeconds : Int)
    (snippetEnabled : Bool) : Net G where
  host := initialState env launch cols rows idleSeconds snippetEnabled
  dashboard := ⟨.mounted, none, []⟩

end Climon.Web.Attachment
