import Climon.Lib.Transition
import Climon.Remote.ControlLoop

namespace Climon.Remote.SpawnReplay

open Climon.Lib.Transition Climon.Remote.SpawnAuth Climon.Remote.ControlLoop

/-!
# Replays of signed spawns

An uplink process opens connections and loses them while anyone may put any message on any of them.
-/

/-- An open connection, with the nonces and time stamps its guard has let pass. -/
structure Connection where
  bridge : Bridge
  passed : List (String × Int)
  deriving DecidableEq, Repr

/-- `commands` logs what was run, each with the message that caused it. -/
structure Uplink where
  now : Int
  connections : Nat → Option Connection
  commands : List (ControlMessage × SpawnRequest)

inductive Event where
  | advance (ms : Nat)
  | connect (id : Nat) (spawnSecret : Option String) (remoteSpawnEnabled : Bool)
  | disconnect (id : Nat)
  | deliver (id : Nat) (message : ControlMessage)
  deriving DecidableEq, Repr

def init (now : Int) : Uplink := ⟨now, fun _ => none, []⟩

def Uplink.put (s : Uplink) (id : Nat) (connection : Option Connection) : Uplink :=
  { s with connections := Function.update s.connections id connection }

@[simp] theorem put_now (s : Uplink) (id : Nat) (connection : Option Connection) :
    (s.put id connection).now = s.now := rfl

@[simp] theorem put_commands (s : Uplink) (id : Nat) (connection : Option Connection) :
    (s.put id connection).commands = s.commands := rfl

section

variable (crates : Crates)

/-- The nonce and time stamp of an envelope that verifies and passes the guard. -/
def passes (bridge : Bridge) (message : ControlMessage) (now : Int) : Option (String × Int) :=
  match bridge.spawnSecret, message with
  | some secret, .signed payload nonce ts sig =>
    if verifyHmac crates secret (signingInput payload nonce ts) sig ∧
        (bridge.replayGuard.check nonce ts now).1 = .ok () then some (nonce, ts) else none
  | _, _ => none

def Connection.receive (connection : Connection) (message : ControlMessage) (now : Int) :
    Connection :=
  { bridge := (connection.bridge.control crates message now).2
    passed := (passes crates connection.bridge message now).toList ++ connection.passed }

def ranBy (bridge : Bridge) (message : ControlMessage) (now : Int) :
    List (ControlMessage × SpawnRequest) :=
  match (bridge.control crates message now).1 with
  | .runSpawn request => [(message, request)]
  | _ => []

def step (s : Uplink) : Event → Option Uplink
  | .advance ms => some { s with now := s.now + ms }
  | .connect id spawnSecret remoteSpawnEnabled =>
    match s.connections id with
    | some _ => none
    | none => some (s.put id (some ⟨Bridge.new spawnSecret remoteSpawnEnabled, []⟩))
  | .disconnect id => some (s.put id none)
  | .deliver id message =>
    match s.connections id with
    | none => none
    | some connection =>
      let t := s.put id (some (connection.receive crates message s.now))
      some { t with commands := ranBy crates connection.bridge message s.now ++ s.commands }

abbrev Step (s : Uplink) (e : Event) (t : Uplink) : Prop := step crates s e = some t

end

/-- The message is an envelope with this nonce and time stamp. -/
def carries (nonce : String) (ts : Int) : ControlMessage → Bool
  | .signed _ nonce' ts' _ => nonce' == nonce && ts' == ts
  | _ => false

def runs (s : Uplink) (nonce : String) (ts : Int) : Nat :=
  s.commands.countP fun command => carries nonce ts command.1

def AtMostOnce (s : Uplink) : Prop := ∀ nonce ts, runs s nonce ts ≤ 1

/-- While it is fresh, an authentic envelope that already ran a command only reaches connections
that have let its nonce pass, with a time stamp that is fresh too. -/
def NoReplay (crates : Crates) (s : Uplink) : Event → Prop
  | .deliver id message => ∀ connection, s.connections id = some connection →
    ∀ nonce ts, connection.bridge.Spawns crates message nonce ts →
      ReplayGuard.Fresh defaultFreshnessWindowMs s.now ts → runs s nonce ts = 0 ∨
        ∃ entry ∈ connection.passed, entry.1 = nonce ∧
          ReplayGuard.Fresh defaultFreshnessWindowMs s.now entry.2
  | _ => True

/-! ## What a guard remembers -/

/-- The guard has every nonce it let pass for as long as its time stamp is not too old. -/
structure Remembers (now : Int) (connection : Connection) : Prop where
  window : connection.bridge.replayGuard.windowMs = defaultFreshnessWindowMs
  seen : ∀ entry ∈ connection.bridge.replayGuard.seen, entry ∈ connection.passed
  past : ∀ entry ∈ connection.passed, entry.2 ≤ now + defaultFreshnessWindowMs
  kept : ∀ entry ∈ connection.passed, now ≤ entry.2 + defaultFreshnessWindowMs →
    entry ∈ connection.bridge.replayGuard.seen

theorem remembers_iff {now : Int} {connection : Connection} : Remembers now connection ↔
    ReplayGuard.Recalls now connection.passed connection.bridge.replayGuard :=
  ⟨fun h => ⟨h.window, h.seen, h.past, h.kept⟩, fun h => ⟨h.window, h.seen, h.past, h.kept⟩⟩

theorem Remembers.advance {now : Int} {connection : Connection} (h : Remembers now connection)
    (ms : Nat) : Remembers (now + ms) connection :=
  remembers_iff.mpr ((remembers_iff.mp h).advance ms)

theorem remembers_new (now : Int) (spawnSecret : Option String) (remoteSpawnEnabled : Bool) :
    Remembers now ⟨Bridge.new spawnSecret remoteSpawnEnabled, []⟩ :=
  remembers_iff.mpr (ReplayGuard.recalls_new now)

variable {crates : Crates}

/-- The guard checks an envelope that verifies, and no other message. -/
theorem passes_cases (bridge : Bridge) (message : ControlMessage) (now : Int) :
    (passes crates bridge message now = none ∧
      (bridge.control crates message now).2.replayGuard = bridge.replayGuard) ∨
    ∃ nonce ts, passes crates bridge message now =
        (if (bridge.replayGuard.check nonce ts now).1 = .ok () then some (nonce, ts) else none) ∧
      (bridge.control crates message now).2.replayGuard =
        (bridge.replayGuard.check nonce ts now).2 := by
  rw [control_replayGuard]
  unfold passes unwrapInbound
  cases hsecret : bridge.spawnSecret with
  | none => exact .inl ⟨rfl, rfl⟩
  | some secret =>
    dsimp only
    cases message with
    | signed payload nonce ts sig =>
      by_cases hsig : verifyHmac crates secret (signingInput payload nonce ts) sig
      · exact .inr ⟨nonce, ts, by simp [hsig], verifySignedControl_guard_of_hmac hsig⟩
      · refine .inl ⟨by simp [hsig], ?_⟩
        rcases verifySignedControl_guard crates secret bridge.replayGuard now
          (.signed payload nonce ts sig) with hsame | ⟨_, _, _, _, heq, hverified, -⟩
        · exact hsame
        · cases heq
          exact absurd hverified hsig
    | _ => exact .inl ⟨rfl, rfl⟩

theorem Remembers.receive {now : Int} {connection : Connection} (h : Remembers now connection)
    (message : ControlMessage) : Remembers now (connection.receive crates message now) := by
  have hrecalls := remembers_iff.mp h
  refine remembers_iff.mpr ?_
  simp only [Connection.receive]
  rcases passes_cases connection.bridge message now with
    ⟨hnone, hguard⟩ | ⟨nonce, ts, hpass, hguard⟩
  · rw [hnone, hguard]
    exact hrecalls
  · rw [hpass, hguard]
    have hnext := hrecalls.check nonce ts
    split <;> simpa [*] using hnext

/-- The guard lets a nonce pass when it is fresh and did not pass with a time stamp that still is. -/
theorem Remembers.check_ok_iff {now : Int} {connection : Connection}
    (h : Remembers now connection) {nonce : String} {ts : Int} :
    (connection.bridge.replayGuard.check nonce ts now).1 = .ok () ↔
      ReplayGuard.Fresh defaultFreshnessWindowMs now ts ∧
        ¬ ∃ entry ∈ connection.passed, entry.1 = nonce ∧
          ReplayGuard.Fresh defaultFreshnessWindowMs now entry.2 :=
  (remembers_iff.mp h).check_ok_iff

/-! ## Runs -/

def Inv (s : Uplink) : Prop :=
  ∀ id connection, s.connections id = some connection → Remembers s.now connection

theorem Inv.put {s : Uplink} (h : Inv s) {id : Nat} {connection : Option Connection}
    (hnew : ∀ c, connection = some c → Remembers s.now c) : Inv (s.put id connection) := by
  intro other c hc
  rcases some_of_update rfl hc with ⟨-, hput⟩ | ⟨-, hold⟩
  · exact hnew c hput
  · exact h other c hold

theorem inv_init (now : Int) : Inv (init now) := by
  intro id connection h
  cases h

theorem inv_step {s t : Uplink} {e : Event} (h : Inv s) (hs : Step crates s e t) : Inv t := by
  cases e with
  | advance ms =>
    cases hs
    exact fun id connection hconnection => (h id connection hconnection).advance ms
  | connect id spawnSecret remoteSpawnEnabled =>
    simp only [Step, step] at hs
    split at hs
    · cases hs
    · cases hs
      exact h.put fun c hc => by
        cases hc
        exact remembers_new _ _ _
  | disconnect id =>
    cases hs
    exact h.put fun c hc => by cases hc
  | deliver id message =>
    simp only [Step, step] at hs
    split at hs
    · cases hs
    next connection hconnection =>
      cases hs
      exact h.put (s := s) fun c hc => by
        cases hc
        exact (h id connection hconnection).receive message

/-- A message runs nothing, or one command when it is an envelope of a spawn that passes. -/
theorem ranBy_cases (bridge : Bridge) (message : ControlMessage) (now : Int) :
    (∃ request nonce ts, bridge.Spawns crates message nonce ts ∧
      (bridge.replayGuard.check nonce ts now).1 = .ok () ∧
      ranBy crates bridge message now = [(message, request)]) ∨
    (∀ nonce ts, bridge.Spawns crates message nonce ts →
      (bridge.replayGuard.check nonce ts now).1 ≠ .ok ()) ∧
      ranBy crates bridge message now = [] := by
  unfold ranBy
  split
  next request hrun =>
    obtain ⟨nonce, ts, hspawn, hcheck⟩ := control_runs_iff.mp ⟨request, hrun⟩
    exact .inl ⟨request, nonce, ts, hspawn, hcheck, rfl⟩
  next hrun =>
    refine .inr ⟨fun nonce ts hspawn hcheck => ?_, rfl⟩
    obtain ⟨request, h⟩ := control_runs_iff.mpr ⟨nonce, ts, hspawn, hcheck⟩
    exact hrun request h

theorem carries_of_spawns {bridge : Bridge} {message : ControlMessage} {nonce nonce' : String}
    {ts ts' : Int} (h : bridge.Spawns crates message nonce ts) :
    carries nonce' ts' message = true ↔ nonce' = nonce ∧ ts' = ts := by
  obtain ⟨-, secret, payload, sig, request, -, rfl, -⟩ := h
  simp [carries, eq_comm (a := nonce), eq_comm (a := ts)]

theorem commands_deliver {s t : Uplink} {id : Nat} {message : ControlMessage}
    (hs : Step crates s (.deliver id message) t) :
    ∃ connection, s.connections id = some connection ∧
      t.commands = ranBy crates connection.bridge message s.now ++ s.commands := by
  simp only [Step, step] at hs
  split at hs
  · cases hs
  next connection hconnection =>
    cases hs
    exact ⟨connection, hconnection, rfl⟩

/-- Only a delivery runs commands, and none are forgotten. -/
theorem commands_step {s t : Uplink} {e : Event} (hs : Step crates s e t) :
    t.commands = s.commands ∨ ∃ id message, e = .deliver id message := by
  cases e with
  | deliver id message => exact .inr ⟨id, message, rfl⟩
  | connect id spawnSecret remoteSpawnEnabled =>
    simp only [Step, step] at hs
    split at hs <;> cases hs
    exact .inl rfl
  | advance | disconnect =>
    cases hs
    exact .inl rfl

theorem atMostOnce_back {s t : Uplink} {e : Event} (hs : Step crates s e t) (h : AtMostOnce t) :
    AtMostOnce s := by
  intro nonce ts
  have ht := h nonce ts
  rcases commands_step hs with hsame | ⟨id, message, rfl⟩
  · rwa [runs, hsame] at ht
  · obtain ⟨connection, -, hcommands⟩ := commands_deliver hs
    rw [runs, hcommands, List.countP_append] at ht
    exact Nat.le_trans (Nat.le_add_left _ _) ht

theorem atMostOnce_step {s t : Uplink} {e : Event} (hI : Inv s) (hP : AtMostOnce s)
    (hs : Step crates s e t) : AtMostOnce t ↔ NoReplay crates s e := by
  cases e with
  | deliver id message =>
    obtain ⟨connection, hconnection, hcommands⟩ := commands_deliver hs
    have hguard := hI id connection hconnection
    have hruns (nonce : String) (ts : Int) : runs t nonce ts = (ranBy crates connection.bridge
        message s.now).countP (fun command => carries nonce ts command.1) + runs s nonce ts := by
      rw [runs, hcommands, List.countP_append, runs]
    constructor
    · intro ht other hother nonce ts hspawn hfresh
      cases hconnection.symm.trans hother
      by_contra hbad
      rw [not_or] at hbad
      have hcheck := hguard.check_ok_iff.mpr ⟨hfresh, hbad.2⟩
      have htwice := ht nonce ts
      rcases ranBy_cases connection.bridge message s.now with
        ⟨request, n, x, hother, -, hran⟩ | hnone
      · rw [hruns, hran] at htwice
        have hcarries : carries nonce ts message = true :=
          (carries_of_spawns hspawn).mpr ⟨rfl, rfl⟩
        simp only [List.countP_cons, List.countP_nil, hcarries, if_pos] at htwice
        omega
      · exact hnone.1 nonce ts hspawn hcheck
    · intro hok nonce ts
      rw [hruns]
      rcases ranBy_cases connection.bridge message s.now with
        ⟨request, n, x, hspawn, hcheck, hran⟩ | hnone
      · obtain ⟨hfresh, hnew⟩ := hguard.check_ok_iff.mp hcheck
        rw [hran]
        by_cases hsame : nonce = n ∧ ts = x
        · obtain ⟨rfl, rfl⟩ := hsame
          have hfirst := (hok connection hconnection nonce ts hspawn hfresh).resolve_right hnew
          simp [hfirst, (carries_of_spawns hspawn).mpr]
        · have hother := mt (carries_of_spawns hspawn).mp hsame
          simpa [hother] using hP nonce ts
      · rw [hnone.2]
        simpa using hP nonce ts
  | advance | connect | disconnect =>
    have hsame := (commands_step hs).resolve_right (by simp)
    simp [AtMostOnce, runs, NoReplay, hsame] at hP ⊢
    exact hP

/-- The commands of a run all have different envelopes exactly when no delivery replays one. -/
theorem spawned_at_most_once_iff {now : Int} {t : Uplink} {es : List Event}
    (run : Run (Step crates) (init now) es t) :
    AtMostOnce t ↔ Run (Guarded (NoReplay crates) (Step crates)) (init now) es t :=
  run.guarded_iff (I := Inv) (G := NoReplay crates) (fun hI hs => inv_step hI hs)
    (fun hs => atMostOnce_back hs) (fun hI hP hs => atMostOnce_step hI hP hs) (inv_init now)
    (fun nonce ts => by simp [runs, init])

/-! ## One envelope on two connections -/

def sampleEnvelope : ControlMessage :=
  signControl sampleCrates "k" (.spawn sampleRequest) "n1" 1000

def twoBridges : List Event :=
  [.connect 0 (some "k") true, .connect 1 (some "k") true, .deliver 0 sampleEnvelope,
    .deliver 1 sampleEnvelope]

def reconnection : List Event :=
  [.connect 0 (some "k") true, .deliver 0 sampleEnvelope, .deliver 0 sampleEnvelope,
    .disconnect 0, .advance 30001, .connect 0 (some "k") true, .deliver 0 sampleEnvelope]

/-- The two bridges each have a guard of their own, and the command runs twice. -/
theorem envelope_runs_twice :
    ∃ t, Run (Step sampleCrates) (init 1000) twoBridges t ∧ runs t "n1" 1000 = 2 ∧
      ¬ AtMostOnce t := by
  have hruns : ((exec (step sampleCrates) (init 1000) twoBridges).map
      fun t => runs t "n1" 1000) = some 2 := by
    decide +kernel
  obtain ⟨t, hexec, htwo⟩ := Option.map_eq_some_iff.mp hruns
  refine ⟨t, Run.of_exec (fun h => h) hexec, htwo, fun honce => ?_⟩
  have hone := honce "n1" 1000
  omega

theorem reconnection_at_most_once :
    ∃ t, Run (Step sampleCrates) (init 1000) reconnection t ∧ runs t "n1" 1000 = 1 ∧
      (AtMostOnce t ↔
        Run (Guarded (NoReplay sampleCrates) (Step sampleCrates)) (init 1000) reconnection t) := by
  have hruns : ((exec (step sampleCrates) (init 1000) reconnection).map
      fun t => runs t "n1" 1000) = some 1 := by
    decide +kernel
  obtain ⟨t, hexec, hone⟩ := Option.map_eq_some_iff.mp hruns
  have run : Run (Step sampleCrates) (init 1000) reconnection t := Run.of_exec (fun h => h) hexec
  exact ⟨t, run, hone, spawned_at_most_once_iff run⟩

end Climon.Remote.SpawnReplay
