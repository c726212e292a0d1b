import Climon.Remote.SpawnAuth

namespace Climon.Remote.ControlLoop

open Climon.Remote.SpawnAuth

/-!
# The uplink's control loop

One bridge serves one connection. Its replay guard lives as long as the bridge does.
-/

structure Bridge where
  spawnSecret : Option String
  remoteSpawnEnabled : Bool
  replayGuard : ReplayGuard
  deriving DecidableEq, Repr

def Bridge.new (spawnSecret : Option String) (remoteSpawnEnabled : Bool) : Bridge :=
  ⟨spawnSecret, remoteSpawnEnabled, ReplayGuard.new defaultFreshnessWindowMs⟩

/-- What the loop does with a message that was let in. -/
inductive Action where
  | attach (id : String)
  | detach (id : String)
  | pong
  | runSpawn (request : SpawnRequest)
  | none
  deriving DecidableEq, Repr

variable (crates : Crates)

/-- With a secret, only what verifies is let in. -/
def unwrapInbound (secret : Option String) (guard : ReplayGuard) (message : ControlMessage)
    (now : Int) : Except RejectReason ControlMessage × ReplayGuard :=
  match secret with
  | some secret => verifySignedControl crates secret message guard now
  | none => (.ok message, guard)

/-- A spawn needs both the secret and the user's consent. -/
def Bridge.dispatch (bridge : Bridge) : ControlMessage → Action
  | .attach id => .attach id
  | .detach id => .detach id
  | .ping => .pong
  | .spawn request =>
    if bridge.spawnSecret.isSome && bridge.remoteSpawnEnabled then .runSpawn request else .none
  | _ => .none

def Bridge.control (bridge : Bridge) (message : ControlMessage) (now : Int) : Action × Bridge :=
  let (inner, guard) := unwrapInbound crates bridge.spawnSecret bridge.replayGuard message now
  (match inner with
    | .ok inner => bridge.dispatch inner
    | .error _ => .none,
    { bridge with replayGuard := guard })

variable {crates} {bridge : Bridge} {message : ControlMessage} {now : Int}

@[simp] theorem control_spawnSecret :
    (bridge.control crates message now).2.spawnSecret = bridge.spawnSecret := rfl

@[simp] theorem control_remoteSpawnEnabled :
    (bridge.control crates message now).2.remoteSpawnEnabled = bridge.remoteSpawnEnabled := rfl

theorem control_replayGuard :
    (bridge.control crates message now).2.replayGuard =
      (unwrapInbound crates bridge.spawnSecret bridge.replayGuard message now).2 := rfl

@[simp] theorem control_windowMs :
    (bridge.control crates message now).2.replayGuard.windowMs = bridge.replayGuard.windowMs := by
  rw [control_replayGuard]
  unfold unwrapInbound
  split
  · exact verifySignedControl_windowMs message
  · rfl

/-- Without a secret every unsigned message is let in, and with one none is. -/
theorem control_unsigned (h : message.isSigned = false) :
    bridge.control crates message now =
      (if bridge.spawnSecret.isSome then .none else bridge.dispatch message, bridge) := by
  obtain ⟨_ | secret, enabled, guard⟩ := bridge
  · rfl
  · simp [Bridge.control, unwrapInbound, verifySignedControl_not_signed crates h]

theorem dispatch_eq_runSpawn {request : SpawnRequest} :
    bridge.dispatch message = .runSpawn request ↔
      message = .spawn request ∧ bridge.spawnSecret.isSome ∧ bridge.remoteSpawnEnabled := by
  cases message with
  | spawn other =>
    rw [Bridge.dispatch]
    split
    next h => simp_all
    next h => simp_all
  | _ => simp [Bridge.dispatch]

/-- The message is an authentic envelope of a spawn, and the bridge may spawn. -/
def Bridge.Spawns (crates : Crates) (bridge : Bridge) (message : ControlMessage) (nonce : String)
    (ts : Int) : Prop :=
  bridge.remoteSpawnEnabled ∧ ∃ secret payload sig request,
    bridge.spawnSecret = some secret ∧ message = .signed payload nonce ts sig ∧
    verifyHmac crates secret (signingInput payload nonce ts) sig ∧
    crates.parse payload = some (.spawn request)

/-- A command runs exactly for an authentic envelope of a spawn that passes the guard. -/
theorem control_runs_iff :
    (∃ request, (bridge.control crates message now).1 = .runSpawn request) ↔
      ∃ nonce ts, bridge.Spawns crates message nonce ts ∧
        (bridge.replayGuard.check nonce ts now).1 = .ok () := by
  constructor
  · rintro ⟨request, h⟩
    unfold Bridge.control unwrapInbound at h
    cases hsecret : bridge.spawnSecret with
    | none =>
      rw [hsecret] at h
      have hrun := (dispatch_eq_runSpawn.mp h).2.1
      simp [hsecret] at hrun
    | some secret =>
      simp only [hsecret] at h
      split at h
      next inner hok =>
        obtain ⟨rfl, -, henabled⟩ := dispatch_eq_runSpawn.mp h
        cases message with
        | signed payload nonce ts sig =>
          obtain ⟨hsig, hcheck, hparse⟩ := verifySignedControl_ok_iff.mp hok
          exact ⟨nonce, ts,
            ⟨henabled, secret, payload, sig, request, hsecret, rfl, hsig, hparse⟩, hcheck⟩
        | _ => cases hok
      · cases h
  · rintro ⟨nonce, ts, ⟨henabled, secret, payload, sig, request, hsecret, rfl, hsig, hparse⟩,
      hcheck⟩
    have hok := verifySignedControl_ok_iff.mpr ⟨hsig, hcheck, hparse⟩
    exact ⟨request, by
      simp [Bridge.control, unwrapInbound, hsecret, hok, Bridge.dispatch, henabled]⟩

end Climon.Remote.ControlLoop
