import Climon.Lib.Transition
import Climon.Remote.ControlLoop

namespace Climon.Remote.Hardening

open Climon.Lib.Transition Climon.Remote.SpawnAuth Climon.Remote.ControlLoop

/-!
# What ingest sends to a hardened uplink

Every place where ingest sends a control message puts it on the wire as it is, except for spawns,
which are signed.
-/

/-- A message on its way: what it says and the form it travels in. -/
structure Transit where
  content : ControlMessage
  form : ControlMessage
  sentAt : Int
  deriving DecidableEq, Repr

/-- The verdict of the uplink on a message that arrived. -/
structure Delivery where
  transit : Transit
  arrivedAt : Int
  verdict : Except RejectReason ControlMessage

/-- `sockets` has the local viewers with their sessions, `nonces` all nonces drawn so far. -/
structure State where
  now : Int
  sockets : List (String × Nat)
  wire : List Transit
  bridge : Bridge
  nonces : List String
  deliveries : List Delivery

def init (secret : String) (remoteSpawnEnabled : Bool) (now : Int) : State :=
  ⟨now, [], [], Bridge.new (some secret) remoteSpawnEnabled, [], []⟩

inductive Event where
  | advance (ms : Nat)
  | viewer (id : String) (socket : Nat)
  | viewerGone (id : String) (socket : Nat)
  | keepAlive
  | pinged
  | spawn (request : SpawnRequest) (nonce : String)
  | deliver
  deriving DecidableEq, Repr

namespace State

def put (s : State) (content form : ControlMessage) : State :=
  { s with wire := s.wire ++ [⟨content, form, s.now⟩] }

/-- An unsigned message. -/
def send (s : State) (message : ControlMessage) : State := s.put message message

def acceptViewer (s : State) (id : String) (socket : Nat) : State :=
  { s with sockets := (id, socket) :: s.sockets }.send (.attach id)

/-- Emit a detach when none remain. -/
def dropViewer (s : State) (id : String) (socket : Nat) : State :=
  let s := { s with sockets := s.sockets.filter fun entry => entry != (id, socket) }
  if s.sockets.any fun entry => entry.1 == id then s else s.send (.detach id)

def sendSpawn (crates : Crates) (secret : String) (s : State) (request : SpawnRequest)
    (nonce : String) : State :=
  { s with nonces := nonce :: s.nonces }.put (.spawn request)
    (signControl crates secret (.spawn request) nonce s.now)

def receive (crates : Crates) (s : State) (transit : Transit) (rest : List Transit) : State :=
  { s with
    wire := rest
    bridge := (s.bridge.control crates transit.form s.now).2
    deliveries := ⟨transit, s.now, (unwrapInbound crates s.bridge.spawnSecret s.bridge.replayGuard
      transit.form s.now).1⟩ :: s.deliveries }

end State

/-- The random nonces are never drawn twice. -/
def step (crates : Crates) (secret : String) (s : State) : Event → Option State
  | .advance ms => some { s with now := s.now + ms }
  | .viewer id socket => some (s.acceptViewer id socket)
  | .viewerGone id socket =>
    if (id, socket) ∈ s.sockets then some (s.dropViewer id socket) else none
  | .keepAlive => some (s.send .ping)
  | .pinged => some (s.send .pong)
  | .spawn request nonce =>
    if nonce ∈ s.nonces then none else some (s.sendSpawn crates secret request nonce)
  | .deliver =>
    match s.wire with
    | [] => none
    | transit :: rest => some (s.receive crates transit rest)

abbrev Step (crates : Crates) (secret : String) (s : State) (e : Event) (t : State) : Prop :=
  step crates secret s e = some t

/-- The message reached the uplink while its time stamp would still be fresh. -/
def Delivery.InTime (d : Delivery) : Prop :=
  d.arrivedAt ≤ d.transit.sentAt + defaultFreshnessWindowMs

instance (d : Delivery) : Decidable d.InTime :=
  inferInstanceAs (Decidable (d.arrivedAt ≤ d.transit.sentAt + defaultFreshnessWindowMs))

def Delivery.Accepted (d : Delivery) : Prop := d.verdict = .ok d.transit.content

/-! ## What is on the wire -/

def nonceOf : ControlMessage → Option String
  | .signed _ nonce _ _ => some nonce
  | _ => none

/-- The JSON of the request is read back as the request. -/
def Readable (crates : Crates) (request : SpawnRequest) : Prop :=
  crates.parse (crates.serialize (.spawn request)) = some (.spawn request)

/-- A message travels as it is, or is a spawn in an envelope. -/
inductive WellFormed (crates : Crates) (secret : String) : Transit → Prop where
  | plain {content : ControlMessage} {sentAt : Int} :
      content.isSigned = false → (∀ request, content ≠ .spawn request) →
      WellFormed crates secret ⟨content, content, sentAt⟩
  | spawn {request : SpawnRequest} {nonce : String} {sentAt : Int} :
      Readable crates request → WellFormed crates secret
        ⟨.spawn request, signControl crates secret (.spawn request) nonce sentAt, sentAt⟩

/-- Nonces on the wire are distinct, have been drawn, and are new to the uplink's guard. -/
structure Inv (crates : Crates) (secret : String) (s : State) : Prop where
  hardened : s.bridge.spawnSecret = some secret
  window : s.bridge.replayGuard.windowMs = defaultFreshnessWindowMs
  wellFormed : ∀ transit ∈ s.wire, WellFormed crates secret transit
  past : ∀ transit ∈ s.wire, transit.sentAt ≤ s.now
  distinct : (s.wire.filterMap fun transit => nonceOf transit.form).Nodup
  drawn : ∀ transit ∈ s.wire, ∀ nonce, nonceOf transit.form = some nonce → nonce ∈ s.nonces
  unseen : ∀ transit ∈ s.wire, ∀ nonce, nonceOf transit.form = some nonce →
    ∀ entry ∈ s.bridge.replayGuard.seen, entry.1 ≠ nonce
  seen : ∀ entry ∈ s.bridge.replayGuard.seen, entry.1 ∈ s.nonces
  verdicts : ∀ d ∈ s.deliveries, d.InTime →
    (d.Accepted ↔ ∃ request, d.transit.content = .spawn request)

variable {crates : Crates} {secret : String} {s t : State}

theorem nonceOf_plain {message : ControlMessage} (h : message.isSigned = false) :
    nonceOf message = none := by
  cases message with
  | signed => cases h
  | _ => rfl

theorem inv_init (remoteSpawnEnabled : Bool) (now : Int) :
    Inv crates secret (init secret remoteSpawnEnabled now) := by
  constructor <;> simp [init, Bridge.new, ReplayGuard.new]

/-- Time passes, nonces are drawn, viewers come and go: the wire and the uplink stay as they are. -/
theorem Inv.frame (h : Inv crates secret s) (hwire : t.wire = s.wire)
    (hbridge : t.bridge = s.bridge) (hdeliveries : t.deliveries = s.deliveries)
    (hnow : s.now ≤ t.now) (hnonces : ∀ nonce ∈ s.nonces, nonce ∈ t.nonces) :
    Inv crates secret t where
  hardened := hbridge ▸ h.hardened
  window := hbridge ▸ h.window
  wellFormed := hwire ▸ h.wellFormed
  past transit htransit := Int.le_trans (h.past transit (hwire ▸ htransit)) hnow
  distinct := hwire ▸ h.distinct
  drawn transit htransit nonce hnonce :=
    hnonces nonce (h.drawn transit (hwire ▸ htransit) nonce hnonce)
  unseen := by
    rw [hwire, hbridge]
    exact h.unseen
  seen entry hentry := hnonces _ (h.seen entry (hbridge ▸ hentry))
  verdicts := hdeliveries ▸ h.verdicts

/-- A nonce that is put on the wire has just been drawn. -/
theorem Inv.put (h : Inv crates secret s) {nonces : List String}
    {content form : ControlMessage}
    (hform : WellFormed crates secret ⟨content, form, s.now⟩)
    (hold : ∀ nonce ∈ s.nonces, nonce ∈ nonces)
    (hnew : ∀ nonce, nonceOf form = some nonce → nonce ∈ nonces ∧ nonce ∉ s.nonces) :
    Inv crates secret ({ s with nonces := nonces }.put content form) where
  hardened := h.hardened
  window := h.window
  wellFormed transit htransit := by
    rcases List.mem_append.mp htransit with hsent | hlast
    · exact h.wellFormed transit hsent
    · cases List.mem_singleton.mp hlast
      exact hform
  past transit htransit := by
    rcases List.mem_append.mp htransit with hsent | hlast
    · exact h.past transit hsent
    · cases List.mem_singleton.mp hlast
      exact Int.le_refl _
  distinct := by
    simp only [State.put, List.filterMap_append, List.nodup_append]
    refine ⟨h.distinct, ?_, fun nonce hnonce other hother => ?_⟩
    · cases hform : nonceOf form <;> simp [hform]
    · obtain ⟨transit, htransit, hnonce⟩ := List.mem_filterMap.mp hnonce
      have hlast : nonceOf form = some other := by simpa using hother
      rintro rfl
      exact (hnew nonce hlast).2 (h.drawn transit htransit nonce hnonce)
  drawn transit htransit nonce hnonce := by
    rcases List.mem_append.mp htransit with hsent | hlast
    · exact hold nonce (h.drawn transit hsent nonce hnonce)
    · cases List.mem_singleton.mp hlast
      exact (hnew nonce hnonce).1
  unseen transit htransit nonce hnonce entry hentry := by
    rcases List.mem_append.mp htransit with hsent | hlast
    · exact h.unseen transit hsent nonce hnonce entry hentry
    · cases List.mem_singleton.mp hlast
      rintro rfl
      exact (hnew _ hnonce).2 (h.seen entry hentry)
  seen entry hentry := hold _ (h.seen entry hentry)
  verdicts := h.verdicts

theorem Inv.send (h : Inv crates secret s) {message : ControlMessage}
    (hplain : message.isSigned = false) (hspawn : ∀ request, message ≠ .spawn request) :
    Inv crates secret (s.send message) :=
  h.put (.plain hplain hspawn) (fun _ hnonce => hnonce) fun nonce hnonce => by
    simp [nonceOf_plain hplain] at hnonce

theorem Inv.sendSpawn (h : Inv crates secret s) {request : SpawnRequest} {nonce : String}
    (hreadable : Readable crates request) (hnew : nonce ∉ s.nonces) :
    Inv crates secret (s.sendSpawn crates secret request nonce) :=
  h.put (.spawn hreadable) (fun _ hnonce => List.mem_cons_of_mem _ hnonce) fun other hother => by
    cases hother
    exact ⟨List.mem_cons_self, hnew⟩

/-- The uplink lets in what was signed, in time, and nothing else. -/
theorem Inv.verdict (h : Inv crates secret s)
    {transit : Transit} (htransit : transit ∈ s.wire)
    (hfresh : s.now ≤ transit.sentAt + defaultFreshnessWindowMs) :
    (unwrapInbound crates s.bridge.spawnSecret s.bridge.replayGuard transit.form s.now).1 =
      .ok transit.content ↔ ∃ request, transit.content = .spawn request := by
  rw [h.hardened]
  have hpast := h.past transit htransit
  have hunseen := h.unseen transit htransit
  cases h.wellFormed transit htransit with
  | plain hplain hspawn =>
    simp only [unwrapInbound, verifySignedControl_not_signed crates hplain]
    refine iff_of_false (by simp) ?_
    rintro ⟨request, heq⟩
    exact hspawn request heq
  | @spawn request nonce sentAt hreadable =>
    have hcheck : (s.bridge.replayGuard.check nonce sentAt s.now).1 = .ok () := by
      rw [ReplayGuard.check_ok_iff, h.window, ReplayGuard.fresh_iff]
      have hseen := hunseen nonce rfl
      exact ⟨⟨by dsimp only at hpast; omega, hfresh⟩,
        fun entry hentry => hseen entry (ReplayGuard.mem_prune.mp hentry).1⟩
    exact iff_of_true (verifySignedControl_signControl hreadable hcheck)
      ⟨request, rfl⟩

theorem Inv.receive (h : Inv crates secret s)
    {transit : Transit} {rest : List Transit} (hwire : s.wire = transit :: rest) :
    Inv crates secret (s.receive crates transit rest) := by
  have hhead : transit ∈ s.wire := hwire ▸ List.mem_cons_self
  have hrest {other : Transit} (hother : other ∈ rest) : other ∈ s.wire :=
    hwire ▸ List.mem_cons_of_mem _ hother
  -- Only the nonce that has just arrived is new to the guard.
  have hseen {entry : String × Int}
      (hentry : entry ∈ (s.receive crates transit rest).bridge.replayGuard.seen) :
      entry ∈ s.bridge.replayGuard.seen ∨ nonceOf transit.form = some entry.1 := by
    simp only [State.receive, control_replayGuard, unwrapInbound, h.hardened] at hentry
    rcases verifySignedControl_guard crates secret s.bridge.replayGuard s.now transit.form with
        heq | ⟨payload, nonce, ts, sig, hform, -, heq⟩
    · rw [heq] at hentry
      exact .inl hentry
    · rw [heq] at hentry
      rcases ReplayGuard.mem_check.2 hentry with hold | ⟨-, rfl⟩
      · exact .inl hold
      · exact .inr (by rw [hform]; rfl)
  have hdistinct := h.distinct
  rw [hwire] at hdistinct
  constructor
  · exact h.hardened
  · simp [State.receive, h.window]
  · exact fun other hother => h.wellFormed other (hrest hother)
  · exact fun other hother => h.past other (hrest hother)
  · exact hdistinct.sublist ((List.sublist_cons_self _ _).filterMap _)
  · exact fun other hother => h.drawn other (hrest hother)
  · intro other hother nonce hnonce entry hentry
    rcases hseen hentry with hold | hhere
    · exact h.unseen other (hrest hother) nonce hnonce entry hold
    · rintro rfl
      rw [List.filterMap_cons, hhere, List.nodup_cons] at hdistinct
      exact hdistinct.1 (List.mem_filterMap.mpr ⟨other, hother, hnonce⟩)
  · intro entry hentry
    rcases hseen hentry with hold | hhere
    · exact h.seen entry hold
    · exact h.drawn transit hhead _ hhere
  · intro d hd hin
    rcases List.mem_cons.mp hd with rfl | hold
    · exact h.verdict hhead hin
    · exact h.verdicts d hold hin

/-! ## Runs -/

/-- A spawn that is sent can be read back. -/
def SendsReadable (crates : Crates) (e : Event) : Prop :=
  ∀ request nonce, e = .spawn request nonce → Readable crates request

theorem inv_step {e : Event} (h : Inv crates secret s)
    (hs : Guarded (fun _ e => SendsReadable crates e) (Step crates secret) s e t) :
    Inv crates secret t := by
  obtain ⟨hreadable, hs⟩ := hs
  cases e with
  | advance ms =>
    cases hs
    exact h.frame rfl rfl rfl (by dsimp only; omega) fun _ hnonce => hnonce
  | viewer id socket =>
    cases hs
    have hjoined : Inv crates secret { s with sockets := (id, socket) :: s.sockets } :=
      h.frame rfl rfl rfl (Int.le_refl _) fun _ hnonce => hnonce
    exact hjoined.send rfl nofun
  | viewerGone id socket =>
    simp only [Step, step] at hs
    split at hs
    · cases hs
      have hleft : Inv crates secret
          { s with sockets := s.sockets.filter fun entry => entry != (id, socket) } :=
        h.frame rfl rfl rfl (Int.le_refl _) fun _ hnonce => hnonce
      unfold State.dropViewer
      dsimp only
      split
      · exact hleft
      · exact hleft.send rfl nofun
    · cases hs
  | keepAlive | pinged =>
    cases hs
    exact h.send rfl nofun
  | spawn request nonce =>
    simp only [Step, step] at hs
    split at hs
    · cases hs
    next hnew =>
      cases hs
      exact h.sendSpawn (hreadable request nonce rfl) hnew
  | deliver =>
    simp only [Step, step] at hs
    split at hs
    · cases hs
    next transit rest hwire =>
      cases hs
      exact h.receive hwire

/-- Of all that ingest sends to an uplink with the same secret, and that arrives in time, the
uplink lets in the spawns and rejects the rest. -/
theorem accepted_iff_spawn {remoteSpawnEnabled : Bool} {now : Int} {es : List Event} {t : State}
    (run : Run (Step crates secret) (init secret remoteSpawnEnabled now) es t)
    (hserde : ∀ e ∈ es, SendsReadable crates e) :
    ∀ d ∈ t.deliveries, d.InTime → (d.Accepted ↔ ∃ request, d.transit.content = .spawn request) :=
  ((run.guard hserde).invariant (I := Inv crates secret) inv_step
    (inv_init remoteSpawnEnabled now)).verdicts

/-- A viewer of a mirrored session and the keepalive are both turned away. -/
theorem attach_rejected :
    ∃ t, Run (Step sampleCrates "k") (init "k" true 1000) [.viewer "r" 0, .keepAlive, .deliver,
        .deliver] t ∧
      (t.deliveries.map fun d => d.transit.content) = [.ping, .attach "r"] ∧
      ∀ d ∈ t.deliveries, d.InTime ∧ ¬ d.Accepted := by
  have run : Run (Step sampleCrates "k") (init "k" true 1000)
      [.viewer "r" 0, .keepAlive, .deliver, .deliver] _ :=
    .cons rfl (.cons rfl (.cons rfl (.cons rfl (.nil _))))
  refine ⟨_, run, rfl, List.forall_mem_cons.mpr ⟨⟨?_, nofun⟩,
    List.forall_mem_singleton.mpr ⟨?_, nofun⟩⟩⟩
  · decide
  · decide

theorem spawn_accepted :
    ∃ t, Run (Step sampleCrates "k") (init "k" true 1000) [.spawn sampleRequest "n1", .deliver] t ∧
      ∀ d ∈ t.deliveries, d.InTime →
        (d.Accepted ↔ ∃ request, d.transit.content = .spawn request) := by
  have run : Run (Step sampleCrates "k") (init "k" true 1000)
      [.spawn sampleRequest "n1", .deliver] _ := .cons rfl (.cons rfl (.nil _))
  refine ⟨_, run, accepted_iff_spawn run fun e he request nonce heq => ?_⟩
  subst heq
  simp only [List.mem_cons, Event.spawn.injEq, reduceCtorEq, List.not_mem_nil, or_false] at he
  rw [he.1, Readable]
  decide +kernel

end Climon.Remote.Hardening
