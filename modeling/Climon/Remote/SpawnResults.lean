import Climon.Lib.AssocList
import Climon.Lib.Transition
import Climon.Remote.ControlLoop
import Climon.Remote.Ingest

namespace Climon.Remote.SpawnResults

open Climon.Lib.AssocList Climon.Lib.Transition Climon.Remote.SpawnAuth
open Climon.Remote.Ingest (shouldRejectPeerHello)
open Climon.Remote.Sanitize (isValidRemoteId)

/-!
# Pending spawns

Ingest signs a spawn, sends it to one client and keeps the request pending under its id until some
connection brings a result, or the wait times out.
-/

structure Config where
  spawnSecret : Option String
  wslBridgeEnabled : Bool

/-- Who waits for the result, and the client the spawn was sent to. -/
structure PendingSpawn where
  waiter : Nat
  clientId : String
  deriving DecidableEq, Repr

structure Conn where
  label : Option String
  replayGuard : ReplayGuard
  deriving DecidableEq, Repr

/-- A message that changed or removed the entry of a pending spawn. -/
structure Disturbance where
  requestId : String
  pending : PendingSpawn
  label : Option String
  message : ControlMessage
  now : Int
  deriving DecidableEq, Repr

/-- `waiting` has the requests whose callers still wait, `answers` what callers were told and
`sent` the spawns sent out. -/
structure State where
  now : Int
  conns : Nat → Option Conn
  active : List (String × Nat)
  pendingSpawns : List (String × PendingSpawn)
  waiting : List (Nat × String)
  answers : List (Nat × SpawnOutcome)
  sent : List (Nat × ControlMessage)
  disturbed : List Disturbance

def init (now : Int) : State := ⟨now, fun _ => none, [], [], [], [], [], []⟩

inductive Event where
  | advance (ms : Nat)
  | connect (c : Nat)
  | register (c : Nat)
  | close (c : Nat)
  | control (c : Nat) (message : ControlMessage)
  | request (waiter : Nat) (clientId : String) (spawn : SpawnRequest) (nonce : String)
      (sendOk : Bool)
  | timeout (waiter : Nat) (requestId : String)
  deriving DecidableEq, Repr

namespace State

def failure (requestId error : String) : SpawnOutcome := ⟨requestId, none, none, some error⟩

def setConn (s : State) (c : Nat) (conn : Option Conn) : State :=
  { s with conns := Function.update s.conns c conn }

def answer (s : State) (waiter : Nat) (outcome : SpawnOutcome) : State :=
  { s with
    waiting := s.waiting.filter fun entry => entry.1 != waiter
    answers := (waiter, outcome) :: s.answers }

/-- A request with an id that is pending already takes the place of the earlier one. -/
def registerPendingSpawn (s : State) (requestId : String) (waiter : Nat) (clientId : String) :
    State :=
  { s with
    pendingSpawns := (requestId, ⟨waiter, clientId⟩) ::
      s.pendingSpawns.filter fun entry => entry.1 != requestId
    waiting := (waiter, requestId) :: s.waiting }

def cancelPendingSpawn (s : State) (requestId : String) : State :=
  { s with pendingSpawns := s.pendingSpawns.filter fun entry => entry.1 != requestId }

def resolvePendingSpawn (s : State) (outcome : SpawnOutcome) : State :=
  match s.pendingSpawns.lookup outcome.requestId with
  | none => s
  | some pending => (s.cancelPendingSpawn outcome.requestId).answer pending.waiter outcome

def handleSpawnControlRequest (crates : Crates) (config : Config) (s : State) (waiter : Nat)
    (clientId : String) (spawn : SpawnRequest) (nonce : String) (sendOk : Bool) : State :=
  match config.spawnSecret with
  | none => s.answer waiter (failure spawn.requestId "remote spawn not configured")
  | some secret =>
    match s.active.lookup clientId with
    | none => s.answer waiter (failure spawn.requestId "client not connected")
    | some c =>
      let s := s.registerPendingSpawn spawn.requestId waiter clientId
      if sendOk then
        { s with sent := (c, signControl crates secret (.spawn spawn) nonce s.now) :: s.sent }
      else
        (s.cancelPendingSpawn spawn.requestId).answer waiter
          (failure spawn.requestId "client not connected")

/-- The arms for hellos and spawn results. Nothing else touches labels, guards or pending spawns. -/
def handleControl (crates : Crates) (config : Config) (s : State) (c : Nat) (conn : Conn)
    (message : ControlMessage) : State :=
  match message with
  | .hello clientId peer _ _ =>
    if conn.label = none ∧ shouldRejectPeerHello peer config.wslBridgeEnabled = false ∧
        isValidRemoteId clientId = true then s.setConn c (some { conn with label := some clientId })
    else s
  | .signed payload nonce ts sig =>
    match config.spawnSecret with
    | none => s
    | some secret =>
      let (inner, guard) :=
        verifySignedControl crates secret (.signed payload nonce ts sig) conn.replayGuard s.now
      let s := s.setConn c (some { conn with replayGuard := guard })
      match inner with
      | .ok (.spawnResult outcome) => s.resolvePendingSpawn outcome
      | _ => s
  | .spawnResult outcome => s.resolvePendingSpawn outcome
  | _ => s

def disturbances (s t : State) (label : Option String) (message : ControlMessage) :
    List Disturbance :=
  (s.pendingSpawns.filter fun entry => t.pendingSpawns.lookup entry.1 != some entry.2).map
    fun entry => ⟨entry.1, entry.2, label, message, s.now⟩

end State

/-- Connections and their entries in the registry come and go at any time, and so do time-outs. -/
def step (crates : Crates) (config : Config) (s : State) : Event → Option State
  | .advance ms => some { s with now := s.now + ms }
  | .connect c =>
    match s.conns c with
    | some _ => none
    | none => some (s.setConn c (some ⟨none, ReplayGuard.new defaultFreshnessWindowMs⟩))
  | .register c =>
    match (s.conns c).bind Conn.label with
    | none => none
    | some label =>
      some { s with active := (label, c) :: s.active.filter fun entry => entry.1 != label }
  | .close c =>
    let s := s.setConn c none
    some { s with active := s.active.filter fun entry => entry.2 != c }
  | .control c message =>
    match s.conns c with
    | none => none
    | some conn =>
      let t := s.handleControl crates config c conn message
      some { t with disturbed := s.disturbances t conn.label message ++ t.disturbed }
  | .request waiter clientId spawn nonce sendOk =>
    some (s.handleSpawnControlRequest crates config waiter clientId spawn nonce sendOk)
  | .timeout waiter requestId =>
    if (waiter, requestId) ∈ s.waiting then
      some ((s.cancelPendingSpawn requestId).answer waiter (State.failure requestId "timeout"))
    else none

abbrev Step (crates : Crates) (config : Config) (s : State) (e : Event) (t : State) : Prop :=
  step crates config s e = some t

/-! ## Results that reach the table -/

section

variable (crates : Crates) (secret : String)

/-- The message is an envelope that verifies, passes the guard and holds this result. -/
def SignedResult (conn : Conn) (message : ControlMessage) (now : Int) (outcome : SpawnOutcome) :
    Prop :=
  ∃ payload nonce ts sig, message = .signed payload nonce ts sig ∧
    verifyHmac crates secret (signingInput payload nonce ts) sig = true ∧
    (conn.replayGuard.check nonce ts now).1 = .ok () ∧
    crates.parse payload = some (.spawnResult outcome)

/-- It was a signed and fresh result for this request, from the client that was asked. -/
def Authentic (d : Disturbance) : Prop :=
  ∃ payload nonce ts sig outcome, d.message = .signed payload nonce ts sig ∧
    verifyHmac crates secret (signingInput payload nonce ts) sig = true ∧
    ReplayGuard.Fresh defaultFreshnessWindowMs d.now ts ∧
    crates.parse payload = some (.spawnResult outcome) ∧ outcome.requestId = d.requestId ∧
    d.label = some d.pending.clientId

def AllAuthentic (s : State) : Prop := ∀ d ∈ s.disturbed, Authentic crates secret d

/-- An unsigned result names no pending spawn, and a signed one comes from the client asked. -/
def Harmless (s : State) (conn : Conn) (message : ControlMessage) : Prop :=
  ∀ requestId pending, s.pendingSpawns.lookup requestId = some pending →
    (∀ outcome, message = .spawnResult outcome → outcome.requestId ≠ requestId) ∧
    ∀ outcome, SignedResult crates secret conn message s.now outcome →
      outcome.requestId = requestId → conn.label = some pending.clientId

def OnlyHarmless (s : State) : Event → Prop
  | .control c message => ∀ conn, s.conns c = some conn → Harmless crates secret s conn message
  | _ => True

end

variable {crates : Crates} {config : Config} {secret : String} {s t : State}

@[simp] theorem setConn_pendingSpawns (c : Nat) (conn : Option Conn) :
    (s.setConn c conn).pendingSpawns = s.pendingSpawns := rfl

@[simp] theorem cancelPendingSpawn_pendingSpawns (requestId : String) :
    (s.cancelPendingSpawn requestId).pendingSpawns =
      s.pendingSpawns.filter fun entry => entry.1 != requestId := rfl

@[simp] theorem answer_pendingSpawns (waiter : Nat) (outcome : SpawnOutcome) :
    (s.answer waiter outcome).pendingSpawns = s.pendingSpawns := rfl

theorem resolvePendingSpawn_pendingSpawns (outcome : SpawnOutcome) :
    (s.resolvePendingSpawn outcome).pendingSpawns =
      s.pendingSpawns.filter fun entry => entry.1 != outcome.requestId := by
  unfold State.resolvePendingSpawn
  split
  next hnone =>
    rw [List.lookup_eq_none_iff] at hnone
    refine (List.filter_eq_self.mpr fun entry hentry => ?_).symm
    exact bne_iff_ne.mpr fun heq => by simpa [heq] using hnone entry hentry
  · simp

variable (crates) in
/-- A message is a result for the table, or the table stays as it is. -/
theorem handleControl_pendingSpawns (hsecret : config.spawnSecret = some secret) (c : Nat)
    (conn : Conn) (message : ControlMessage) :
    (∃ outcome, (message = .spawnResult outcome ∨
        SignedResult crates secret conn message s.now outcome) ∧
      (s.handleControl crates config c conn message).pendingSpawns =
        s.pendingSpawns.filter fun entry => entry.1 != outcome.requestId) ∨
    (∀ outcome, message ≠ .spawnResult outcome ∧
        ¬ SignedResult crates secret conn message s.now outcome) ∧
      (s.handleControl crates config c conn message).pendingSpawns = s.pendingSpawns := by
  cases message with
  | signed payload nonce ts sig =>
    have hsigned {outcome : SpawnOutcome} : SignedResult crates secret conn
        (.signed payload nonce ts sig) s.now outcome ↔
          (verifySignedControl crates secret (.signed payload nonce ts sig) conn.replayGuard
            s.now).1 = .ok (.spawnResult outcome) := by
      rw [verifySignedControl_ok_iff]
      constructor
      · rintro ⟨_, _, _, _, heq, h⟩
        cases heq
        exact h
      · exact fun h => ⟨payload, nonce, ts, sig, rfl, h⟩
    simp only [State.handleControl, hsecret]
    split
    next outcome hok =>
      exact .inl ⟨outcome, .inr (hsigned.mpr hok), resolvePendingSpawn_pendingSpawns outcome⟩
    next hnot =>
      exact .inr ⟨fun outcome => ⟨nofun, fun h => hnot outcome (hsigned.mp h)⟩, rfl⟩
  | spawnResult outcome =>
    exact .inl ⟨outcome, .inl rfl, resolvePendingSpawn_pendingSpawns outcome⟩
  | hello clientId peer hostname os =>
    refine .inr ⟨fun outcome => ⟨nofun, ?_⟩, ?_⟩
    · rintro ⟨_, _, _, _, heq, -⟩
      cases heq
    · simp only [State.handleControl]
      split <;> rfl
  | _ =>
    refine .inr ⟨fun outcome => ⟨nofun, ?_⟩, rfl⟩
    rintro ⟨_, _, _, _, heq, -⟩
    cases heq

theorem SignedResult.unique {conn : Conn} {message : ControlMessage} {now : Int}
    {outcome other : SpawnOutcome} (h : SignedResult crates secret conn message now outcome)
    (k : SignedResult crates secret conn message now other) : outcome = other := by
  obtain ⟨payload, nonce, ts, sig, rfl, -, -, hparse⟩ := h
  obtain ⟨_, _, _, _, heq, -, -, hother⟩ := k
  cases heq
  cases hparse.symm.trans hother
  rfl

/-- With distinct ids, what was disturbed is what is gone. -/
theorem mem_disturbances {outcome : SpawnOutcome} {label : Option String}
    {message : ControlMessage} {d : Disturbance} (hkeys : (s.pendingSpawns.map (·.1)).Nodup)
    (ht : t.pendingSpawns = s.pendingSpawns.filter fun entry => entry.1 != outcome.requestId) :
    d ∈ s.disturbances t label message ↔ ∃ pending,
      s.pendingSpawns.lookup outcome.requestId = some pending ∧
        d = ⟨outcome.requestId, pending, label, message, s.now⟩ := by
  unfold State.disturbances
  rw [ht, List.mem_map]
  constructor
  · rintro ⟨⟨requestId, pending⟩, hentry, rfl⟩
    obtain ⟨hmem, hgone⟩ := List.mem_filter.mp hentry
    have hlookup := lookup_of_mem hkeys hmem
    by_cases hid : requestId = outcome.requestId
    · subst hid
      exact ⟨pending, hlookup, rfl⟩
    · simp [lookup_filter_ne hid, hlookup] at hgone
  · rintro ⟨pending, hlookup, rfl⟩
    refine ⟨(outcome.requestId, pending), ?_, rfl⟩
    simp [List.mem_filter, mem_of_lookup hlookup, lookup_filter_self]

/-! ## Runs -/

structure Inv (s : State) : Prop where
  keys : (s.pendingSpawns.map (·.1)).Nodup
  window : ∀ c conn, s.conns c = some conn →
    conn.replayGuard.windowMs = defaultFreshnessWindowMs

theorem inv_init (now : Int) : Inv (init now) := ⟨List.nodup_nil, nofun⟩

theorem Inv.filter (h : Inv s) (keep : String × PendingSpawn → Bool)
    (hpending : t.pendingSpawns = s.pendingSpawns.filter keep) (hconns : t.conns = s.conns) :
    Inv t where
  keys := by
    rw [hpending]
    exact h.keys.sublist (List.filter_sublist.map _)
  window := by
    rw [hconns]
    exact h.window

theorem Inv.answer (h : Inv s) (waiter : Nat) (outcome : SpawnOutcome) :
    Inv (s.answer waiter outcome) := ⟨h.keys, h.window⟩

theorem Inv.cancelPendingSpawn (h : Inv s) (requestId : String) :
    Inv (s.cancelPendingSpawn requestId) :=
  h.filter _ rfl rfl

theorem Inv.resolvePendingSpawn (h : Inv s) (outcome : SpawnOutcome) :
    Inv (s.resolvePendingSpawn outcome) := by
  unfold State.resolvePendingSpawn
  split
  · exact h
  · exact (h.cancelPendingSpawn _).answer _ _

theorem Inv.registerPendingSpawn (h : Inv s) (requestId : String) (waiter : Nat)
    (clientId : String) : Inv (s.registerPendingSpawn requestId waiter clientId) where
  keys := by
    have hkeys := (h.cancelPendingSpawn requestId).keys
    have hnew : requestId ∉ (s.cancelPendingSpawn requestId).pendingSpawns.map (·.1) := by
      simp
    exact List.nodup_cons.mpr ⟨hnew, hkeys⟩
  window := h.window

theorem Inv.setConn (h : Inv s) {c : Nat} {conn : Option Conn}
    (hnew : ∀ k, conn = some k → k.replayGuard.windowMs = defaultFreshnessWindowMs) :
    Inv (s.setConn c conn) where
  keys := h.keys
  window d k hk := by
    rcases some_of_update rfl hk with ⟨-, hconn⟩ | ⟨-, hold⟩
    · exact hnew k hconn
    · exact h.window d k hold

theorem Inv.handleSpawnControlRequest (h : Inv s) (waiter : Nat) (clientId : String)
    (spawn : SpawnRequest) (nonce : String) (sendOk : Bool) :
    Inv (s.handleSpawnControlRequest crates config waiter clientId spawn nonce sendOk) := by
  unfold State.handleSpawnControlRequest
  split
  · exact h.answer _ _
  · split
    · exact h.answer _ _
    · have hregistered := h.registerPendingSpawn spawn.requestId waiter clientId
      dsimp only
      split
      · exact ⟨hregistered.keys, hregistered.window⟩
      · exact (hregistered.cancelPendingSpawn _).answer _ _

theorem Inv.handleControl (h : Inv s) {c : Nat} {conn : Conn} (hconn : s.conns c = some conn)
    (message : ControlMessage) : Inv (s.handleControl crates config c conn message) := by
  have hwindow := h.window c conn hconn
  cases message with
  | hello clientId peer hostname os =>
    simp only [State.handleControl]
    split
    · exact h.setConn fun k hk => by
        cases hk
        exact hwindow
    · exact h
  | signed payload nonce ts sig =>
    simp only [State.handleControl]
    split
    · exact h
    next secret _ =>
      have hset : Inv (s.setConn c (some { conn with replayGuard := (verifySignedControl crates
          secret (.signed payload nonce ts sig) conn.replayGuard s.now).2 })) :=
        h.setConn fun k hk => by
          cases hk
          simpa using hwindow
      split
      · exact hset.resolvePendingSpawn _
      · exact hset
  | spawnResult outcome => exact h.resolvePendingSpawn outcome
  | _ => exact h

theorem inv_step {e : Event} (h : Inv s) (hs : Step crates config s e t) : Inv t := by
  cases e with
  | advance ms =>
    cases hs
    exact ⟨h.keys, h.window⟩
  | connect c =>
    simp only [Step, step] at hs
    split at hs
    · cases hs
    · cases hs
      exact h.setConn fun k hk => by
        cases hk
        rfl
  | register c =>
    simp only [Step, step] at hs
    split at hs
    · cases hs
    · cases hs
      exact ⟨h.keys, h.window⟩
  | close c =>
    cases hs
    have hset : Inv (s.setConn c none) := h.setConn nofun
    exact ⟨hset.keys, hset.window⟩
  | control c message =>
    simp only [Step, step] at hs
    split at hs
    · cases hs
    next conn hconn =>
      cases hs
      have hhandled : Inv (s.handleControl crates config c conn message) :=
        h.handleControl hconn message
      exact ⟨hhandled.keys, hhandled.window⟩
  | request waiter clientId spawn nonce sendOk =>
    cases hs
    exact h.handleSpawnControlRequest _ _ _ _ _
  | timeout waiter requestId =>
    simp only [Step, step] at hs
    split at hs
    · cases hs
      exact (h.cancelPendingSpawn _).answer _ _
    · cases hs

@[simp] theorem resolvePendingSpawn_disturbed (outcome : SpawnOutcome) :
    (s.resolvePendingSpawn outcome).disturbed = s.disturbed := by
  unfold State.resolvePendingSpawn
  split <;> rfl

@[simp] theorem handleControl_disturbed (c : Nat) (conn : Conn) (message : ControlMessage) :
    (s.handleControl crates config c conn message).disturbed = s.disturbed := by
  cases message with
  | hello clientId peer hostname os =>
    simp only [State.handleControl]
    split <;> rfl
  | signed payload nonce ts sig =>
    simp only [State.handleControl]
    split
    · rfl
    · split
      · rw [resolvePendingSpawn_disturbed]
        rfl
      · rfl
  | spawnResult outcome => exact resolvePendingSpawn_disturbed outcome
  | _ => rfl

theorem disturbed_control {c : Nat} {message : ControlMessage}
    (hs : Step crates config s (.control c message) t) :
    ∃ conn, s.conns c = some conn ∧ t.disturbed =
      s.disturbances (s.handleControl crates config c conn message) conn.label message ++
        s.disturbed := by
  simp only [Step, step] at hs
  split at hs
  · cases hs
  next conn hconn =>
    cases hs
    exact ⟨conn, hconn, by simp⟩

/-- Only messages disturb, and the log only grows. -/
theorem disturbed_step {e : Event} (hs : Step crates config s e t) :
    t.disturbed = s.disturbed ∨ ∃ c message, e = .control c message := by
  cases e with
  | control c message => exact .inr ⟨c, message, rfl⟩
  | advance | close =>
    cases hs
    exact .inl rfl
  | connect | register | timeout =>
    simp only [Step, step] at hs
    split at hs <;> cases hs
    exact .inl rfl
  | request waiter clientId spawn nonce sendOk =>
    cases hs
    unfold State.handleSpawnControlRequest
    split
    · exact .inl rfl
    · split
      · exact .inl rfl
      · dsimp only
        split <;> exact .inl rfl

theorem allAuthentic_back {e : Event} (hs : Step crates config s e t)
    (h : AllAuthentic crates secret t) : AllAuthentic crates secret s := by
  rcases disturbed_step hs with hsame | ⟨c, message, rfl⟩
  · intro d hd
    exact h d (hsame ▸ hd)
  · obtain ⟨conn, -, hlog⟩ := disturbed_control hs
    intro d hd
    exact h d (by simp [hlog, hd])

/-- What a signed result disturbs is authentic when it comes from the client that was asked. -/
theorem authentic_iff {conn : Conn} {message : ControlMessage} {now : Int}
    {outcome : SpawnOutcome} {pending : PendingSpawn}
    (hwindow : conn.replayGuard.windowMs = defaultFreshnessWindowMs)
    (h : SignedResult crates secret conn message now outcome) :
    Authentic crates secret ⟨outcome.requestId, pending, conn.label, message, now⟩ ↔
      conn.label = some pending.clientId := by
  obtain ⟨payload, nonce, ts, sig, rfl, hsig, hcheck, hparse⟩ := h
  have hfresh := (ReplayGuard.check_ok_iff.mp hcheck).1
  rw [hwindow] at hfresh
  constructor
  · rintro ⟨_, _, _, _, _, -, -, -, -, -, hlabel⟩
    exact hlabel
  · exact fun hlabel => ⟨payload, nonce, ts, sig, outcome, rfl, hsig, hfresh, hparse, rfl, hlabel⟩

theorem disturbances_authentic (hsecret : config.spawnSecret = some secret) (hI : Inv s) {c : Nat}
    {conn : Conn} (hconn : s.conns c = some conn) (message : ControlMessage) :
    (∀ d ∈ s.disturbances (s.handleControl crates config c conn message) conn.label message,
      Authentic crates secret d) ↔ Harmless crates secret s conn message := by
  rcases handleControl_pendingSpawns (s := s) crates hsecret c conn message with
    ⟨outcome, hbrings, hpending⟩ | ⟨hnone, hpending⟩
  · simp only [mem_disturbances hI.keys hpending, forall_exists_index, and_imp]
    rcases hbrings with rfl | hsigned
    · constructor
      · intro hall requestId pending hlookup
        refine ⟨fun other heq hid => ?_, fun other => ?_⟩
        · cases heq
          subst hid
          obtain ⟨_, _, _, _, _, heq, -⟩ := hall _ pending hlookup rfl
          cases heq
        · rintro ⟨_, _, _, _, heq, -⟩
          cases heq
      · intro hok d pending hlookup
        exact absurd rfl ((hok _ _ hlookup).1 outcome rfl)
    · constructor
      · intro hall requestId pending hlookup
        refine ⟨fun other heq => ?_, fun other hother hid => ?_⟩
        · obtain ⟨_, _, _, _, rfl, -⟩ := hsigned
          cases heq
        · cases hsigned.unique hother
          subst hid
          exact (authentic_iff (hI.window c conn hconn) hsigned).mp (hall _ pending hlookup rfl)
      · rintro hok d pending hlookup rfl
        exact (authentic_iff (hI.window c conn hconn) hsigned).mpr
          ((hok _ _ hlookup).2 outcome hsigned rfl)
  · have hnothing : s.disturbances (s.handleControl crates config c conn message) conn.label
        message = [] := by
      unfold State.disturbances
      rw [hpending, List.map_eq_nil_iff, List.filter_eq_nil_iff]
      rintro ⟨requestId, pending⟩ hmem
      simp [lookup_of_mem hI.keys hmem]
    rw [hnothing]
    refine iff_of_true (fun d hd => absurd hd List.not_mem_nil) fun requestId pending _ => ?_
    exact ⟨fun outcome heq => absurd heq (hnone outcome).1,
      fun outcome hsigned => absurd hsigned (hnone outcome).2⟩

theorem allAuthentic_step (hsecret : config.spawnSecret = some secret) {e : Event} (hI : Inv s)
    (hP : AllAuthentic crates secret s) (hs : Step crates config s e t) :
    AllAuthentic crates secret t ↔ OnlyHarmless crates secret s e := by
  cases e with
  | control c message =>
    obtain ⟨conn, hconn, hlog⟩ := disturbed_control hs
    have hnew : AllAuthentic crates secret t ↔ ∀ d ∈ s.disturbances
        (s.handleControl crates config c conn message) conn.label message,
          Authentic crates secret d := by
      unfold AllAuthentic
      simp only [hlog, List.mem_append, or_imp, forall_and]
      exact and_iff_left hP
    rw [hnew, disturbances_authentic hsecret hI hconn]
    simp [OnlyHarmless, hconn]
  | _ =>
    have hsame := (disturbed_step hs).resolve_right (by simp)
    unfold AllAuthentic
    rw [hsame]
    exact iff_of_true hP trivial

/-- Whatever the uplinks send, pending spawns are only touched by signed and fresh results of the
clients that were asked, exactly when all messages are harmless. -/
theorem results_authentic_iff (hsecret : config.spawnSecret = some secret) {now : Int} {t : State}
    {es : List Event} (run : Run (Step crates config) (init now) es t) :
    AllAuthentic crates secret t ↔
      Run (Guarded (OnlyHarmless crates secret) (Step crates config)) (init now) es t :=
  run.guarded_iff (I := Inv) (G := OnlyHarmless crates secret) (fun hI hs => inv_step hI hs)
    (fun hs => allAuthentic_back hs) (fun hI hP hs => allAuthentic_step hsecret hI hP hs)
    (inv_init now) fun _ hd => absurd hd List.not_mem_nil

/-! ## A forged result -/

/-- Two clients connect, and a spawn is sent to the first. -/
def spawnOnFirst : List Event :=
  [.connect 0, .control 0 (.hello "a" false none none), .register 0, .connect 1,
    .control 1 (.hello "b" false none none), .register 1, .request 7 "a" sampleRequest "n1" true]

def hardened : Config := ⟨some "k", false⟩

/-- The other client answers for the first, without a signature. -/
theorem unsigned_result_resolves :
    ∃ t, Run (Step sampleCrates hardened) (init 1000)
        (spawnOnFirst ++ [.control 1 (.spawnResult sampleOutcome)]) t ∧
      t.answers = [(7, sampleOutcome)] ∧ ¬ AllAuthentic sampleCrates "k" t := by
  have hanswers : ((exec (step sampleCrates hardened) (init 1000)
      (spawnOnFirst ++ [.control 1 (.spawnResult sampleOutcome)])).map
        fun t => (t.answers, t.disturbed)) = some ([(7, sampleOutcome)],
          [⟨"r1", ⟨7, "a"⟩, some "b", .spawnResult sampleOutcome, 1000⟩]) := by
    decide +kernel
  obtain ⟨t, hexec, heq⟩ := Option.map_eq_some_iff.mp hanswers
  rw [Prod.mk.injEq] at heq
  refine ⟨t, Run.of_exec (fun h => h) hexec, heq.1, fun hall => ?_⟩
  obtain ⟨_, _, _, _, _, hsigned, -⟩ := hall _ (heq.2 ▸ List.mem_cons_self)
  cases hsigned

theorem signed_result_resolves :
    ∃ t, Run (Step sampleCrates hardened) (init 1000)
        (spawnOnFirst ++ [.control 0 (signControl sampleCrates "k" (.spawnResult sampleOutcome)
          "n2" 1000)]) t ∧
      t.answers = [(7, sampleOutcome)] ∧
      (AllAuthentic sampleCrates "k" t ↔
        Run (Guarded (OnlyHarmless sampleCrates "k") (Step sampleCrates hardened)) (init 1000)
          (spawnOnFirst ++ [.control 0 (signControl sampleCrates "k" (.spawnResult sampleOutcome)
            "n2" 1000)]) t) := by
  have hanswers : ((exec (step sampleCrates hardened) (init 1000)
      (spawnOnFirst ++ [.control 0 (signControl sampleCrates "k" (.spawnResult sampleOutcome)
        "n2" 1000)])).map fun t => t.answers) = some [(7, sampleOutcome)] := by
    decide +kernel
  obtain ⟨t, hexec, heq⟩ := Option.map_eq_some_iff.mp hanswers
  have run : Run (Step sampleCrates hardened) (init 1000) _ t := Run.of_exec (fun h => h) hexec
  exact ⟨t, run, heq, results_authentic_iff rfl run⟩

end Climon.Remote.SpawnResults
