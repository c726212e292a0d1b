import Climon.Lib.Transition
import Climon.Remote.SpawnResults

namespace Climon.Remote.Addressees

open Climon.Lib.Transition Climon.Remote.SpawnAuth Climon.Remote.ControlLoop
open Climon.Remote.Sanitize (isValidRemoteId)

/-!
# Who lets a signed envelope in

Ingest connections and uplinks share one secret. Ingest signs spawns, uplinks sign results and
session lists, and anyone may put what was signed on any connection, in either direction.
-/

inductive Side where
  | ingest
  | uplink
  deriving DecidableEq, Repr

/-- An uplink of a client, or the connection that ingest has to it. -/
structure Party where
  side : Side
  label : String
  deriving DecidableEq, Repr

/-- One end of a connection. -/
inductive Peer where
  | ingest (conn : SpawnResults.Conn)
  | uplink (clientId : String) (bridge : Bridge)
  deriving DecidableEq, Repr

/-- What an honest party signed, and for whom. -/
structure Envelope where
  addressee : Party
  message : ControlMessage
  nonce : String
  ts : Int
  deriving DecidableEq, Repr

/-- What a peer does with a message it has let in. -/
inductive Effect where
  | act (action : Action)
  | resolvePendingSpawn (outcome : SpawnOutcome)
  | applySessionList (label : String) (ids : List String)
  | ignored
  deriving DecidableEq, Repr

structure Acceptance where
  peer : Nat
  side : Side
  party : Option Party
  envelope : Envelope
  now : Int
  effect : Effect
  deriving DecidableEq, Repr

/-- `unanswered` has the spawns that an uplink ran and whose results it has not signed yet. -/
structure State where
  now : Int
  peers : Nat → Option Peer
  unanswered : List (Nat × String)
  produced : List Envelope
  accepted : List Acceptance

inductive Event where
  | advance (ms : Nat)
  | accept (i : Nat)
  | hello (i : Nat) (clientId : String)
  | dial (i : Nat) (clientId : String) (remoteSpawnEnabled : Bool)
  | spawn (i : Nat) (request : SpawnRequest) (nonce : String) (ts : Int)
  | list (i : Nat) (ids : List String) (nonce : String) (ts : Int)
  | answer (i : Nat) (outcome : SpawnOutcome) (nonce : String) (ts : Int)
  | deliver (i : Nat) (envelope : Envelope)
  deriving DecidableEq, Repr

def init (now : Int) : State := ⟨now, fun _ => none, [], [], []⟩

namespace Peer

def side : Peer → Side
  | .ingest _ => .ingest
  | .uplink .. => .uplink

def party : Peer → Option Party
  | .ingest conn => conn.label.map (⟨.ingest, ·⟩)
  | .uplink clientId _ => some ⟨.uplink, clientId⟩

def guard : Peer → ReplayGuard
  | .ingest conn => conn.replayGuard
  | .uplink _ bridge => bridge.replayGuard

def setGuard (guard : ReplayGuard) : Peer → Peer
  | .ingest conn => .ingest { conn with replayGuard := guard }
  | .uplink clientId bridge => .uplink clientId { bridge with replayGuard := guard }

end Peer

/-- What is inside an envelope, for an ingest connection. -/
def signedArm (label : Option String) : ControlMessage → Effect
  | .spawnResult outcome => .resolvePendingSpawn outcome
  | .sessionList ids =>
    match label with
    | some label => .applySessionList label ids
    | none => .ignored
  | _ => .ignored

section

variable (crates : Crates) (secret : String)

def Envelope.control (e : Envelope) : ControlMessage :=
  signControl crates secret e.message e.nonce e.ts

/-- `none` where the message is rejected. -/
def Peer.receive (peer : Peer) (message : ControlMessage) (now : Int) : Option Effect × Peer :=
  match peer with
  | .ingest conn =>
    let (inner, guard) := verifySignedControl crates secret message conn.replayGuard now
    (inner.toOption.map (signedArm conn.label), .ingest { conn with replayGuard := guard })
  | .uplink clientId bridge =>
    let (inner, _) := unwrapInbound crates bridge.spawnSecret bridge.replayGuard message now
    let (action, bridge) := bridge.control crates message now
    (inner.toOption.map fun _ => .act action, .uplink clientId bridge)

def State.put (s : State) (i : Nat) (peer : Peer) : State :=
  { s with peers := Function.update s.peers i (some peer) }

def State.produce (s : State) (addressee : Party) (message : ControlMessage) (nonce : String)
    (ts : Int) : State :=
  { s with produced := ⟨addressee, message, nonce, ts⟩ :: s.produced }

def State.deliver (s : State) (i : Nat) (peer : Peer) (envelope : Envelope) : State :=
  let (effect, peer') := peer.receive crates secret (envelope.control crates secret) s.now
  { s.put i peer' with
    unanswered :=
      match effect with
      | some (.act (.runSpawn request)) => (i, request.requestId) :: s.unanswered
      | _ => s.unanswered
    accepted :=
      (effect.map fun effect => ⟨i, peer.side, peer.party, envelope, s.now, effect⟩).toList ++
        s.accepted }

/-- Every signer stamps with a clock of its own. -/
def step (s : State) : Event → Option State
  | .advance ms => some { s with now := s.now + ms }
  | .accept i =>
    match s.peers i with
    | some _ => none
    | none => some (s.put i (.ingest ⟨none, ReplayGuard.new defaultFreshnessWindowMs⟩))
  | .hello i clientId =>
    match s.peers i with
    | some (.ingest conn) =>
      if conn.label = none ∧ isValidRemoteId clientId then
        some (s.put i (.ingest { conn with label := some clientId }))
      else none
    | _ => none
  | .dial i clientId remoteSpawnEnabled =>
    match s.peers i with
    | some _ => none
    | none => some (s.put i (.uplink clientId (Bridge.new (some secret) remoteSpawnEnabled)))
  | .spawn i request nonce ts =>
    match (s.peers i).bind Peer.party with
    | some ⟨.ingest, label⟩ => some (s.produce ⟨.uplink, label⟩ (.spawn request) nonce ts)
    | _ => none
  | .list i ids nonce ts =>
    match (s.peers i).bind Peer.party with
    | some ⟨.uplink, label⟩ => some (s.produce ⟨.ingest, label⟩ (.sessionList ids) nonce ts)
    | _ => none
  | .answer i outcome nonce ts =>
    match (s.peers i).bind Peer.party with
    | some ⟨.uplink, label⟩ =>
      if s.unanswered.contains (i, outcome.requestId) then
        some { s.produce ⟨.ingest, label⟩ (.spawnResult outcome) nonce ts with
          unanswered := s.unanswered.erase (i, outcome.requestId) }
      else none
    | _ => none
  | .deliver i envelope =>
    match s.peers i with
    | none => none
    | some peer => if envelope ∈ s.produced then some (s.deliver crates secret i peer envelope)
      else none

abbrev Step (s : State) (e : Event) (t : State) : Prop := step crates secret s e = some t

end

/-! ## What is bound, and what is not -/

def Envelope.signer (e : Envelope) : Side :=
  match e.addressee.side with
  | .uplink => .ingest
  | .ingest => .uplink

def Effect.Real : Effect → Prop
  | .act .none | .ignored => False
  | _ => True

/-- What is signed reads back as it was. -/
def Event.Reads (crates : Crates) : Event → Prop
  | .spawn _ request _ _ => crates.parse (crates.serialize (.spawn request)) = some (.spawn request)
  | .list _ ids _ _ =>
    crates.parse (crates.serialize (.sessionList ids)) = some (.sessionList ids)
  | .answer _ outcome _ _ =>
    crates.parse (crates.serialize (.spawnResult outcome)) = some (.spawnResult outcome)
  | _ => True

/-! ## One delivery -/

section

variable {crates : Crates} {secret : String}

def Peer.effect (peer : Peer) (message : ControlMessage) : Effect :=
  match peer with
  | .ingest conn => signedArm conn.label message
  | .uplink _ bridge => .act (bridge.dispatch message)

def Peer.Holds (secret : String) : Peer → Prop
  | .ingest _ => True
  | .uplink _ bridge => bridge.spawnSecret = some secret

theorem verify_control {e : Envelope}
    (hreads : crates.parse (crates.serialize e.message) = some e.message) (guard : ReplayGuard)
    (now : Int) :
    verifySignedControl crates secret (e.control crates secret) guard now =
      ((guard.check e.nonce e.ts now).1.map fun _ => e.message,
        (guard.check e.nonce e.ts now).2) := by
  unfold Envelope.control signControl verifySignedControl
  dsimp only
  rw [if_pos (verifyHmac_hmacHex crates _ _)]
  rcases guard.check e.nonce e.ts now with ⟨_ | ⟨⟨⟩⟩, guard'⟩
  · rfl
  · rw [hreads]
    rfl

/-- The guard decides, whoever the envelope is for. -/
theorem receive_control {peer : Peer} (hsecret : peer.Holds secret) {e : Envelope}
    (hreads : crates.parse (crates.serialize e.message) = some e.message) (now : Int) :
    peer.receive crates secret (e.control crates secret) now =
      ((peer.guard.check e.nonce e.ts now).1.toOption.map fun _ => peer.effect e.message,
        peer.setGuard (peer.guard.check e.nonce e.ts now).2) := by
  cases peer with
  | ingest conn =>
    simp only [Peer.receive, verify_control hreads, Peer.guard, Peer.setGuard, Peer.effect]
    cases (conn.replayGuard.check e.nonce e.ts now).1 <;> rfl
  | uplink clientId bridge =>
    have hheld : bridge.spawnSecret = some secret := hsecret
    simp only [Peer.receive, Bridge.control, unwrapInbound, hheld, verify_control hreads,
      Peer.guard, Peer.setGuard, Peer.effect]
    cases (bridge.replayGuard.check e.nonce e.ts now).1 <;> rfl

/-! ## Runs -/

/-- What an honest party signs, and for which side. -/
inductive Honest (crates : Crates) : Envelope → Prop where
  | spawn {label nonce : String} {request : SpawnRequest} {ts : Int}
      (hreads : crates.parse (crates.serialize (.spawn request)) = some (.spawn request)) :
      Honest crates ⟨⟨.uplink, label⟩, .spawn request, nonce, ts⟩
  | sessionList {label nonce : String} {ids : List String} {ts : Int}
      (hreads : crates.parse (crates.serialize (.sessionList ids)) = some (.sessionList ids)) :
      Honest crates ⟨⟨.ingest, label⟩, .sessionList ids, nonce, ts⟩
  | spawnResult {label nonce : String} {outcome : SpawnOutcome} {ts : Int}
      (hreads : crates.parse (crates.serialize (.spawnResult outcome)) =
        some (.spawnResult outcome)) :
      Honest crates ⟨⟨.ingest, label⟩, .spawnResult outcome, nonce, ts⟩

theorem Honest.reads {e : Envelope} (h : Honest crates e) :
    crates.parse (crates.serialize e.message) = some e.message := by
  cases h <;> assumption

/-- A side does nothing with what it signs itself. -/
theorem Honest.opposite {e : Envelope} (h : Honest crates e) {peer : Peer}
    (hreal : (peer.effect e.message).Real) : peer.side ≠ e.signer := by
  cases h <;> cases peer <;> simp_all [Peer.effect, Peer.side, Envelope.signer, signedArm,
    Bridge.dispatch, Effect.Real]

theorem effect_eq_runSpawn {peer : Peer} {message : ControlMessage} {request : SpawnRequest}
    (h : peer.effect message = .act (.runSpawn request)) :
    peer.side = .uplink ∧ message = .spawn request := by
  cases peer with
  | ingest conn =>
    change signedArm conn.label message = _ at h
    unfold signedArm at h
    repeat' split at h
    all_goals cases h
  | uplink clientId bridge => exact ⟨rfl, (dispatch_eq_runSpawn.mp (Effect.act.inj h)).1⟩

/-- The nonces and time stamps that `i` has let in. -/
def passedAt (i : Nat) (accepted : List Acceptance) : List (String × Int) :=
  (accepted.filter fun a => a.peer == i).map fun a => (a.envelope.nonce, a.envelope.ts)

theorem mem_passedAt {i : Nat} {accepted : List Acceptance} {entry : String × Int} :
    entry ∈ passedAt i accepted ↔
      ∃ a ∈ accepted, a.peer = i ∧ (a.envelope.nonce, a.envelope.ts) = entry := by
  simp [passedAt, and_assoc]

structure Inv (crates : Crates) (secret : String) (s : State) : Prop where
  honest : ∀ e ∈ s.produced, Honest crates e
  holds : ∀ i peer, s.peers i = some peer →
    peer.Holds secret ∧ ReplayGuard.Recalls s.now (passedAt i s.accepted) peer.guard
  known : ∀ a ∈ s.accepted, s.peers a.peer ≠ none
  genuine : ∀ a ∈ s.accepted, a.envelope ∈ s.produced ∧
    ReplayGuard.Fresh defaultFreshnessWindowMs a.now a.envelope.ts
  once : (s.accepted.map fun a => (a.peer, a.envelope.nonce, a.envelope.ts)).Nodup
  opposite : ∀ a ∈ s.accepted, a.effect.Real → a.side ≠ a.envelope.signer
  commands : ∀ a ∈ s.accepted, ∀ request, a.effect = .act (.runSpawn request) →
    a.side = .uplink ∧ a.envelope.message = .spawn request

theorem inv_init (now : Int) : Inv crates secret (init now) where
  honest _ h := absurd h List.not_mem_nil
  holds _ _ h := by cases h
  known _ h := absurd h List.not_mem_nil
  genuine _ h := absurd h List.not_mem_nil
  once := List.nodup_nil
  opposite _ h := absurd h List.not_mem_nil
  commands _ h := absurd h List.not_mem_nil

variable {s : State}

/-- A connection is new, or its guard stays as it is. -/
theorem Inv.put (h : Inv crates secret s) {i : Nat} {peer : Peer} (hsecret : peer.Holds secret)
    (hguard : ReplayGuard.Recalls s.now (passedAt i s.accepted) peer.guard) :
    Inv crates secret (s.put i peer) where
  honest := h.honest
  holds j other hother := by
    rcases some_of_update rfl hother with ⟨rfl, hput⟩ | ⟨-, hold⟩
    · cases hput
      exact ⟨hsecret, hguard⟩
    · exact h.holds j other hold
  known a ha := by
    by_cases hi : a.peer = i
    · simp [State.put, hi]
    · simpa [State.put, hi] using h.known a ha
  genuine := h.genuine
  once := h.once
  opposite := h.opposite
  commands := h.commands

theorem Inv.put_new (h : Inv crates secret s) {i : Nat} (hi : s.peers i = none) {peer : Peer}
    (hsecret : peer.Holds secret) (hguard : peer.guard = ReplayGuard.new defaultFreshnessWindowMs) :
    Inv crates secret (s.put i peer) := by
  have hpassed : passedAt i s.accepted = [] := by
    refine List.eq_nil_iff_forall_not_mem.mpr fun entry hentry => ?_
    obtain ⟨a, ha, rfl, -⟩ := mem_passedAt.mp hentry
    exact h.known a ha hi
  refine h.put hsecret ?_
  rw [hguard, hpassed]
  exact ReplayGuard.recalls_new s.now

theorem Inv.produce (h : Inv crates secret s) {e : Envelope} (he : Honest crates e) :
    Inv crates secret (s.produce e.addressee e.message e.nonce e.ts) where
  honest other hother := by
    rcases List.mem_cons.mp hother with rfl | hold
    · exact he
    · exact h.honest other hold
  holds := h.holds
  known := h.known
  genuine a ha := ⟨List.mem_cons_of_mem _ (h.genuine a ha).1, (h.genuine a ha).2⟩
  once := h.once
  opposite := h.opposite
  commands := h.commands

theorem Inv.unanswered (h : Inv crates secret s) (unanswered : List (Nat × String)) :
    Inv crates secret { s with unanswered := unanswered } := by
  obtain ⟨honest, holds, known, genuine, once, opposite, commands⟩ := h
  exact ⟨honest, holds, known, genuine, once, opposite, commands⟩

theorem setGuard_guard (peer : Peer) (guard : ReplayGuard) :
    (peer.setGuard guard).guard = guard := by
  cases peer <;> rfl

theorem setGuard_holds {peer : Peer} (h : peer.Holds secret) (guard : ReplayGuard) :
    (peer.setGuard guard).Holds secret := by
  cases peer <;> exact h

theorem deliver_rejected {i : Nat} {peer : Peer} {e : Envelope}
    (h : (peer.receive crates secret (e.control crates secret) s.now).1 = none) :
    s.deliver crates secret i peer e =
      s.put i (peer.receive crates secret (e.control crates secret) s.now).2 := by
  rcases hreceive : peer.receive crates secret (e.control crates secret) s.now with ⟨effect, peer'⟩
  rw [hreceive] at h
  obtain rfl : effect = none := h
  simp [State.deliver, hreceive, State.put]

/-- An envelope that is let in is logged, with what it does. -/
theorem deliver_accepted {i : Nat} {peer : Peer} {e : Envelope} {effect : Effect}
    (h : (peer.receive crates secret (e.control crates secret) s.now).1 = some effect) :
    ∃ unanswered, s.deliver crates secret i peer e =
      { s.put i (peer.receive crates secret (e.control crates secret) s.now).2 with
        unanswered := unanswered
        accepted := ⟨i, peer.side, peer.party, e, s.now, effect⟩ :: s.accepted } := by
  rcases hreceive : peer.receive crates secret (e.control crates secret) s.now with ⟨effect', peer'⟩
  rw [hreceive] at h
  obtain rfl : effect' = some effect := h
  exact ⟨_, by simp only [State.deliver, hreceive]; rfl⟩

theorem passedAt_cons_self {i : Nat} {a : Acceptance} (h : a.peer = i)
    (accepted : List Acceptance) :
    passedAt i (a :: accepted) = (a.envelope.nonce, a.envelope.ts) :: passedAt i accepted := by
  simp [passedAt, h]

theorem passedAt_cons_other {i : Nat} {a : Acceptance} (h : a.peer ≠ i)
    (accepted : List Acceptance) : passedAt i (a :: accepted) = passedAt i accepted := by
  simp [passedAt, h]

/-- What the log says of an envelope that the guard lets pass. -/
theorem Inv.accept (h : Inv crates secret s) {i : Nat} {peer : Peer} (hi : s.peers i = some peer)
    {e : Envelope} (he : e ∈ s.produced)
    (hok : (peer.guard.check e.nonce e.ts s.now).1 = .ok ()) :
    Inv crates secret
      { s.put i (peer.setGuard (peer.guard.check e.nonce e.ts s.now).2) with
        accepted := ⟨i, peer.side, peer.party, e, s.now, peer.effect e.message⟩ :: s.accepted } := by
  obtain ⟨hsecret, hguard⟩ := h.holds i peer hi
  obtain ⟨hfresh, hnew⟩ := hguard.check_ok_iff.mp hok
  have hnext := hguard.check e.nonce e.ts
  rw [if_pos hok] at hnext
  constructor
  · exact h.honest
  · intro j other hother
    rcases some_of_update rfl hother with ⟨rfl, hput⟩ | ⟨hj, hold⟩
    · cases hput
      refine ⟨setGuard_holds hsecret _, ?_⟩
      rw [setGuard_guard]
      have hpassed := passedAt_cons_self (i := j)
        (a := ⟨j, peer.side, peer.party, e, s.now, peer.effect e.message⟩) rfl s.accepted
      exact hpassed.symm ▸ hnext
    · dsimp only
      rw [passedAt_cons_other fun heq => hj heq.symm]
      exact h.holds j other hold
  · intro a ha
    rcases List.mem_cons.mp ha with rfl | hold
    · simp [State.put]
    · by_cases hp : a.peer = i
      · simp [State.put, hp]
      · simpa [State.put, hp] using h.known a hold
  · intro a ha
    rcases List.mem_cons.mp ha with rfl | hold
    · exact ⟨he, hfresh⟩
    · exact h.genuine a hold
  · refine List.nodup_cons.mpr ⟨fun hmem => hnew ?_, h.once⟩
    obtain ⟨a, ha, heq⟩ := List.mem_map.mp hmem
    exact ⟨(e.nonce, e.ts), mem_passedAt.mpr ⟨a, ha, congrArg Prod.fst heq, congrArg Prod.snd heq⟩,
      rfl, hfresh⟩
  · intro a ha
    rcases List.mem_cons.mp ha with rfl | hold
    · exact fun hreal => (h.honest e he).opposite hreal
    · exact h.opposite a hold
  · intro a ha request
    rcases List.mem_cons.mp ha with rfl | hold
    · exact fun heq => effect_eq_runSpawn heq
    · exact h.commands a hold request

theorem Inv.deliver (h : Inv crates secret s) {i : Nat} {peer : Peer}
    (hi : s.peers i = some peer) {e : Envelope} (he : e ∈ s.produced) :
    Inv crates secret (s.deliver crates secret i peer e) := by
  obtain ⟨hsecret, hguard⟩ := h.holds i peer hi
  have hreceive := receive_control hsecret (h.honest e he).reads s.now
  by_cases hok : (peer.guard.check e.nonce e.ts s.now).1 = .ok ()
  · have heffect : (peer.receive crates secret (e.control crates secret) s.now).1 =
        some (peer.effect e.message) := by
      rw [hreceive, hok]
      rfl
    obtain ⟨unanswered, hdeliver⟩ := deliver_accepted (i := i) heffect
    rw [hdeliver, hreceive]
    exact (h.accept hi he hok).unanswered unanswered
  · have hnext := hguard.check e.nonce e.ts
    rw [if_neg hok] at hnext
    have heffect : (peer.receive crates secret (e.control crates secret) s.now).1 = none := by
      rw [hreceive]
      rcases hcheck : (peer.guard.check e.nonce e.ts s.now).1 with reason | ⟨⟨⟩⟩
      · rfl
      · exact absurd hcheck hok
    rw [deliver_rejected heffect, hreceive]
    refine h.put (setGuard_holds hsecret _) ?_
    rw [setGuard_guard]
    exact hnext

theorem Inv.step (h : Inv crates secret s) {t : State} {e : Event} (hreads : e.Reads crates)
    (hs : Step crates secret s e t) : Inv crates secret t := by
  cases e with
  | advance ms =>
    cases hs
    exact { h with
      holds := fun i peer hi => ⟨(h.holds i peer hi).1, (h.holds i peer hi).2.advance ms⟩ }
  | accept i =>
    simp only [Step, Addressees.step] at hs
    split at hs
    · cases hs
    next hi =>
      cases hs
      exact h.put_new hi trivial rfl
  | hello i clientId =>
    simp only [Step, Addressees.step] at hs
    split at hs
    next conn hi =>
      obtain ⟨-, rfl⟩ : _ ∧ s.put i (.ingest { conn with label := some clientId }) = t := by
        simpa using hs
      exact h.put trivial (h.holds i _ hi).2
    · cases hs
  | dial i clientId remoteSpawnEnabled =>
    simp only [Step, Addressees.step] at hs
    split at hs
    · cases hs
    next hi =>
      cases hs
      exact h.put_new hi rfl rfl
  | spawn i request nonce ts =>
    simp only [Step, Addressees.step] at hs
    split at hs
    · cases hs
      exact h.produce (.spawn hreads)
    · cases hs
  | list i ids nonce ts =>
    simp only [Step, Addressees.step] at hs
    split at hs
    · cases hs
      exact h.produce (.sessionList hreads)
    · cases hs
  | answer i outcome nonce ts =>
    simp only [Step, Addressees.step] at hs
    split at hs
    · split at hs
      · cases hs
        exact (h.produce (.spawnResult hreads)).unanswered _
      · cases hs
    · cases hs
  | deliver i envelope =>
    simp only [Step, Addressees.step] at hs
    split at hs
    · cases hs
    next peer hi =>
      obtain ⟨he, rfl⟩ := Option.ite_none_right_eq_some.mp hs |>.imp_right Option.some.inj
      exact h.deliver hi he

end

/-! ## A spawn for one client that another one runs -/

def sampleEnvelope : Envelope := ⟨⟨.uplink, "a"⟩, .spawn sampleRequest, "n1", 1000⟩

end Climon.Remote.Addressees
