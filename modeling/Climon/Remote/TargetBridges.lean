import Climon.Lib.Transition
import Climon.Remote.UplinkTargets

namespace Climon.Remote.TargetBridges

open Climon.Lib.KeyedTasks Climon.Lib.Transition Climon.Remote.UplinkTargets

/-!
# The bridges of an uplink

A bridge to one target reaches it, through a `devtunnel connect` of its own where the target is a
tunnel, forwards until the link breaks, and waits before it tries again. The supervisor starts and
cancels bridges meanwhile.
-/

/-! ## Status -/

structure UplinkTarget where
  kind : String
  host : Option String
  port : Option UInt16
  tunnelId : Option String
  url : Option String
  deriving DecidableEq, Repr

def buildUplinkTarget (isPeer : Bool) (host : String) (port : UInt16) (tunnelId : Option String) :
    UplinkTarget where
  kind := if isPeer then "peer" else if tunnelId.isSome then "tunnel" else "direct"
  host := some host
  port := some port
  tunnelId := tunnelId
  url := none

/-- What is written of an uplink; who writes and when stand beside it. -/
structure Status where
  state : String
  target : Option UplinkTarget
  connectedAt : Option UInt64
  sessionCount : UInt32
  lastError : Option String
  deriving DecidableEq, Repr

def connecting (target : UplinkTarget) : Status := ⟨"connecting", some target, none, 0, none⟩

def reconnecting (target : Option UplinkTarget) : Status := ⟨"reconnecting", target, none, 0, none⟩

def disconnected (lastError : Option String) : Status := ⟨"disconnected", none, none, 0, lastError⟩

/-! ## One bridge -/

inductive End where
  | returned
  | refused
  /-- An aborted task is dropped where it waits. -/
  | dropped
  deriving DecidableEq, Repr

/-- What is left to do once the tunnel client has been killed. -/
inductive Rest where
  | leave
  | refuse
  | unreachable (target : UplinkTarget)
  | closed
  deriving DecidableEq, Repr

/-- Where a bridge waits. -/
inductive Phase where
  | head
  | discovering (tunnelId : String)
  | waiting (target : UplinkTarget)
  | opening (target : UplinkTarget)
  | bridging (target : UplinkTarget)
  | settling (rest : Rest)
  | sleeping
  | ended (how : End)
  deriving DecidableEq, Repr

/-- Only in these phases a tunnel client may run. -/
def Phase.connects : Phase → Bool
  | waiting _ | opening _ | bridging _ => true
  | _ => false

def Phase.isEnded : Phase → Bool
  | ended _ => true
  | _ => false

/-- Each wait, the latest first, and whether the attempt before it was long enough to start anew. -/
abbrev Waits := List (Bool × Nat)

structure Bridge where
  spec : UplinkTargetSpec
  cancelled : Bool
  phase : Phase
  backoffMs : Nat
  conn : Option Nat
  waits : Waits
  deriving DecidableEq, Repr

def Bridge.new (spec : UplinkTargetSpec) : Bridge := ⟨spec, false, .head, 1000, none, []⟩

/-- A `devtunnel connect`, with the flag that the scan of its output sets. -/
structure ConnectChild where
  owner : Nat
  tunnelId : String
  alive : Bool
  authRejected : Bool
  deriving DecidableEq, Repr

/-- What a bridge hears where it waits. -/
inductive Answer where
  | looks (isPeer : Bool) (configuredPort : Option UInt16) (spawned : Bool)
  | ports (port : Option UInt16) (spawned : Bool)
  | reached (reachable : Bool)
  | opened (link : Option (UInt64 × UInt32))
  | closes
  | settles (isLong : Bool)
  | wakes
  | cancels
  deriving DecidableEq, Repr

def killed (children : List ConnectChild) (conn : Option Nat) : List ConnectChild :=
  match conn with
  | none => children
  | some c => children.modify c fun child => { child with alive := false }

def authRejected (children : List ConnectChild) (conn : Option Nat) : Bool :=
  ((conn.bind (children[·]?)).map ConnectChild.authRejected).getD false

structure Outcome where
  bridge : Bridge
  children : List ConnectChild
  statuses : List Status

namespace Bridge

variable (b : Bridge) (children : List ConnectChild)

def goTo (phase : Phase) : Outcome := ⟨{ b with phase := phase }, children, []⟩

/-- `sleep_backoff_or_cancel`, after an attempt of more than thirty seconds from the first wait. -/
def sleep (isLong : Bool) (statuses : List Status) : Outcome :=
  let backoffMs := if isLong then 1000 else b.backoffMs
  ⟨{ b with phase := .sleeping, backoffMs := backoffMs, waits := (isLong, backoffMs) :: b.waits },
    children, statuses⟩

def spawnConnect (id : Nat) (tunnelId : String) (port : UInt16) (spawned : Bool) : Outcome :=
  if spawned then
    let target := buildUplinkTarget false "127.0.0.1" port (some tunnelId)
    ⟨{ b with phase := .waiting target, conn := some children.length },
      children ++ [⟨id, tunnelId, true, false⟩], [connecting target]⟩
  else b.sleep children false [reconnecting none]

/-- Kill the tunnel client, if there is one. -/
def settle (rest : Rest) (statuses : List Status) : Outcome :=
  ⟨{ b with phase := .settling rest, conn := none }, killed children b.conn, statuses⟩

/-- The link is gone or was never made. -/
def close (target : UplinkTarget) : Outcome :=
  b.settle children (if authRejected children b.conn then .refuse else .closed)
    [reconnecting (some target)]

/-- `run_target_bridge` up to where it waits next. -/
def advance (id : Nat) : Answer → Option Outcome
  | .looks isPeer configuredPort spawned =>
    if b.phase ≠ .head then none
    else if b.cancelled then some (b.goTo children (.ended .returned))
    else
      match b.spec with
      | .direct host port =>
        let target := buildUplinkTarget isPeer host port none
        some ⟨{ b with phase := .waiting target }, children, [connecting target]⟩
      | .tunnel tunnelId =>
        match configuredPort with
        | some port => some (b.spawnConnect children id tunnelId port spawned)
        | none => some (b.goTo children (.discovering tunnelId))
  | .ports port spawned =>
    match b.phase, port with
    | .discovering tunnelId, some port => some (b.spawnConnect children id tunnelId port spawned)
    | .discovering _, none => some (b.sleep children false [reconnecting none])
    | _, _ => none
  | .reached reachable =>
    match b.phase with
    | .waiting target =>
      if reachable then some (b.goTo children (.opening target))
      else if authRejected children b.conn then some (b.settle children .refuse [])
      else some (b.settle children (.unreachable target) [])
    | _ => none
  | .opened link =>
    match b.phase, link with
    | .opening target, some (connectedAt, sessionCount) =>
      some ⟨{ b with phase := .bridging target }, children,
        [⟨"connected", some target, some connectedAt, sessionCount, none⟩]⟩
    | .opening target, none => some (b.close children target)
    | _, _ => none
  | .closes =>
    match b.phase with
    | .bridging target => some (b.close children target)
    | _ => none
  | .settles isLong =>
    match b.phase with
    | .settling .leave => some (b.goTo children (.ended .returned))
    | .settling .refuse =>
      some ⟨{ b with phase := .ended .refused }, children,
        [disconnected (some "dev tunnel auth rejected")]⟩
    | .settling (.unreachable target) =>
      some (b.sleep children isLong [reconnecting (some target)])
    | .settling .closed =>
      if b.cancelled then some (b.goTo children (.ended .returned))
      else some (b.sleep children isLong [])
    | _ => none
  | .wakes =>
    if b.phase = .sleeping then
      some ⟨{ b with phase := .head, backoffMs := min (b.backoffMs * 2) 30000 }, children, []⟩
    else none
  | .cancels =>
    if b.cancelled then
      match b.phase with
      | .discovering _ | .sleeping => some (b.goTo children (.ended .returned))
      | .waiting _ => some (b.settle children .leave [])
      | .bridging target => some (b.close children target)
      | _ => none
    else none

end Bridge

/-! ## All of them -/

structure State where
  supervisor : TargetSupervisor
  bridges : List Bridge
  children : List ConnectChild
  statuses : List Status

def init : State := ⟨.empty, [], [], []⟩

inductive Event where
  | round (desired : List UplinkTargetSpec)
  | act (id : Nat) (answer : Answer)
  | drop (id : Nat)
  | exits (c : Nat)
  | refuses (c : Nat)
  deriving DecidableEq, Repr

/-- The bridge of a task that was started, its token cancelled with the task. -/
def refreshed (bridges : List Bridge) (supervisor : TargetSupervisor)
    (handle : Handle UplinkTargetSpec) : Bridge :=
  { (bridges[handle.id]?).getD (.new handle.spec) with
    cancelled := handle ∈ supervisor.cancelled }

def State.round (s : State) (desired : List UplinkTargetSpec) : State :=
  let supervisor := reconcileTargets s.supervisor desired
  { s with
    supervisor := supervisor
    bridges := supervisor.started.map (refreshed s.bridges supervisor)
    statuses := s.statuses ++ if supervisor.active = [] then [disconnected none] else [] }

def next (s : State) : Event → Option State
  | .round desired => some (s.round desired)
  | .act id answer =>
    (s.bridges[id]?).bind fun b =>
      (b.advance s.children id answer).map fun outcome =>
        { s with
          bridges := s.bridges.set id outcome.bridge
          children := outcome.children
          statuses := s.statuses ++ outcome.statuses }
  | .drop id =>
    (s.bridges[id]?).bind fun b =>
      if b.cancelled = true ∧ b.phase.isEnded = false then
        some { s with bridges := s.bridges.set id { b with phase := .ended .dropped, conn := none } }
      else none
  | .exits c =>
    some { s with children := s.children.modify c fun child => { child with alive := false } }
  | .refuses c =>
    some { s with children := s.children.modify c fun child => { child with authRejected := true } }

def Step (s : State) (e : Event) (t : State) : Prop := next s e = some t

/-! ## The waits of one bridge -/

/-- How many attempts there were since one that was long, before the wait at the head. -/
def streak : Waits → Nat
  | [] => 0
  | (true, _) :: _ => 0
  | [(false, _)] => 0
  | (false, _) :: earlier :: waits => streak (earlier :: waits) + 1

def capped (k : Nat) : Nat := min (1000 * 2 ^ k) 30000

/-- Every wait is twice the one before it, up to the cap. -/
def Doubling (waits : Waits) : Prop :=
  ∀ isLong wait earlier, (isLong, wait) :: earlier <:+ waits →
    wait = capped (streak ((isLong, wait) :: earlier))

/-- The wait that a bridge comes to next, unless its attempt is long. -/
def upcoming : Waits → Nat
  | [] => 1000
  | (_, wait) :: _ => min (wait * 2) 30000

theorem capped_succ (k : Nat) : capped (k + 1) = min (capped k * 2) 30000 := by
  unfold capped
  rw [Nat.pow_succ]
  omega

theorem upcoming_eq {waits : Waits} (h : Doubling waits) (wait : Nat) :
    upcoming waits = capped (streak ((false, wait) :: waits)) := by
  cases waits with
  | nil => rfl
  | cons last earlier =>
    obtain ⟨isLong, before⟩ := last
    have hbefore := h isLong before earlier (List.suffix_refl _)
    rw [upcoming, streak, capped_succ, ← hbefore]

theorem Doubling.cons {waits : Waits} (h : Doubling waits) (isLong : Bool) {wait : Nat}
    (hwait : wait = if isLong then 1000 else upcoming waits) : Doubling ((isLong, wait) :: waits) := by
  intro isLong' wait' earlier hsuffix
  rcases List.suffix_cons_iff.mp hsuffix with heq | hold
  · cases heq
    cases isLong with
    | true => exact hwait
    | false => exact hwait.trans (upcoming_eq h wait)
  · exact h isLong' wait' earlier hold

/-! ## What holds of one bridge -/

/-- The backoff is the wait that goes on, or else the one to come. -/
def Bridge.Due (b : Bridge) : Prop :=
  if b.phase = .sleeping then ∃ isLong earlier, b.waits = (isLong, b.backoffMs) :: earlier
  else b.backoffMs = upcoming b.waits

/-- When it runs a client, why it has ended and how long it waits. -/
structure BridgeInv (b : Bridge) : Prop where
  conn : b.phase.connects = false → b.conn = none
  discovering : ∀ tunnelId, b.phase = .discovering tunnelId → b.spec = .tunnel tunnelId
  cancelled : b.phase = .settling .leave ∨ b.phase = .ended .returned ∨
    b.phase = .ended .dropped → b.cancelled = true
  doubling : Doubling b.waits
  backoff : b.phase.isEnded = false → b.Due

theorem bridgeInv_new (spec : UplinkTargetSpec) : BridgeInv (.new spec) where
  conn _ := rfl
  discovering _ h := by cases h
  cancelled h := by rcases h with h | h | h <;> cases h
  doubling _ _ _ h := by cases List.eq_nil_of_suffix_nil h
  backoff _ := rfl

/-- What became of the tunnel clients: nothing, or that of the bridge was killed, or it has a new
one, and had none. -/
def Handled (id : Nat) (b : Bridge) (children : List ConnectChild) (outcome : Outcome) : Prop :=
  (outcome.children = children ∧ outcome.bridge.conn = b.conn) ∨
  (outcome.children = killed children b.conn ∧ outcome.bridge.conn = none) ∨
  ∃ tunnelId, b.spec = .tunnel tunnelId ∧ b.conn = none ∧
    outcome.children = children ++ [⟨id, tunnelId, true, false⟩] ∧
    outcome.bridge.conn = some children.length

structure Moved (id : Nat) (b : Bridge) (children : List ConnectChild) (outcome : Outcome) :
    Prop where
  spec : outcome.bridge.spec = b.spec
  cancelled : outcome.bridge.cancelled = b.cancelled
  notDropped : outcome.bridge.phase ≠ .ended .dropped
  inv : BridgeInv outcome.bridge
  handled : Handled id b children outcome

section

variable {id : Nat} {b : Bridge} {children : List ConnectChild} {outcome : Outcome}

/-- A move that keeps the client, the waits and the backoff. -/
theorem BridgeInv.goTo (h : BridgeInv b) {phase : Phase} (statuses : List Status)
    (hconn : phase.connects = false → b.phase.connects = false)
    (hdiscovering : ∀ tunnelId, phase = .discovering tunnelId → b.spec = .tunnel tunnelId)
    (hreturned : phase = .ended .returned → b.cancelled = true)
    (hleave : phase ≠ .settling .leave) (hdropped : phase ≠ .ended .dropped)
    (hawake : phase.isEnded = false → b.phase ≠ .sleeping ∧ b.phase.isEnded = false ∧
      phase ≠ .sleeping) :
    Moved id b children ⟨{ b with phase := phase }, children, statuses⟩ := by
  refine ⟨rfl, rfl, hdropped, ⟨fun hphase => h.conn (hconn hphase), hdiscovering, ?_, h.doubling, ?_⟩,
    .inl ⟨rfl, rfl⟩⟩
  · rintro (hphase | hphase | hphase)
    · exact absurd hphase hleave
    · exact hreturned hphase
    · exact absurd hphase hdropped
  · intro hended
    obtain ⟨hsleeping, hrunning, hnext⟩ := hawake hended
    have hbackoff := h.backoff hrunning
    unfold Bridge.Due at hbackoff ⊢
    rw [if_neg hsleeping] at hbackoff
    rw [if_neg hnext]
    exact hbackoff

theorem BridgeInv.sleep (h : BridgeInv b) (isLong : Bool) (statuses : List Status)
    (hconn : b.phase.connects = false) (hawake : b.phase ≠ .sleeping)
    (hrunning : b.phase.isEnded = false) : Moved id b children (b.sleep children isLong statuses) := by
  have hbackoff := h.backoff hrunning
  rw [Bridge.Due, if_neg hawake] at hbackoff
  refine ⟨rfl, rfl, Phase.noConfusion, ?inv, .inl ⟨rfl, rfl⟩⟩
  refine ⟨fun _ => h.conn hconn, ?_, ?_, h.doubling.cons isLong ?_, fun _ => ⟨isLong, b.waits, rfl⟩⟩
  · intro tunnelId hphase
    cases hphase
  · rintro (hphase | hphase | hphase) <;> cases hphase
  · rw [hbackoff]

theorem BridgeInv.spawnConnect (h : BridgeInv b) {tunnelId : String}
    (hspec : b.spec = .tunnel tunnelId) (port : UInt16) (spawned : Bool)
    (hconn : b.phase.connects = false) (hawake : b.phase ≠ .sleeping)
    (hrunning : b.phase.isEnded = false) :
    Moved id b children (b.spawnConnect children id tunnelId port spawned) := by
  unfold Bridge.spawnConnect
  split
  · refine ⟨rfl, rfl, Phase.noConfusion, ?inv, .inr (.inr ⟨tunnelId, hspec, h.conn hconn, rfl, rfl⟩)⟩
    refine ⟨Bool.noConfusion, ?_, ?_, h.doubling, ?_⟩
    · intro tunnelId hphase
      cases hphase
    · rintro (hphase | hphase | hphase) <;> cases hphase
    · intro _
      have hbackoff := h.backoff hrunning
      rw [Bridge.Due, if_neg hawake] at hbackoff
      exact hbackoff
  · exact h.sleep false _ hconn hawake hrunning

theorem BridgeInv.settle (h : BridgeInv b) {rest : Rest} (statuses : List Status)
    (hrest : rest = .leave → b.cancelled = true) (hawake : b.phase ≠ .sleeping)
    (hrunning : b.phase.isEnded = false) : Moved id b children (b.settle children rest statuses) := by
  refine ⟨rfl, rfl, Phase.noConfusion, ?inv, .inr (.inl ⟨rfl, rfl⟩)⟩
  refine ⟨fun _ => rfl, ?_, ?_, h.doubling, ?_⟩
  · intro tunnelId hphase
    cases hphase
  · rintro (hphase | hphase | hphase)
    · cases hphase
      exact hrest rfl
    · cases hphase
    · cases hphase
  · intro _
    have hbackoff := h.backoff hrunning
    rw [Bridge.Due, if_neg hawake] at hbackoff
    exact hbackoff

theorem BridgeInv.close (h : BridgeInv b) (target : UplinkTarget) (hawake : b.phase ≠ .sleeping)
    (hrunning : b.phase.isEnded = false) : Moved id b children (b.close children target) := by
  unfold Bridge.close
  refine h.settle _ ?_ hawake hrunning
  intro hrest
  split at hrest <;> cases hrest

/-- Who is at its head has not ended and does not sleep; the same for the other phases. -/
theorem awake_of_eq {phase : Phase} (h : b.phase = phase) (hphase : phase ≠ .sleeping)
    (hended : phase.isEnded = false) : b.phase ≠ .sleeping ∧ b.phase.isEnded = false := by
  rw [h]
  exact ⟨hphase, hended⟩

/-- A bridge returns from a phase without a client. -/
theorem BridgeInv.returns (h : BridgeInv b) (hconn : b.phase.connects = false)
    (hcancelled : b.cancelled = true) : Moved id b children (b.goTo children (.ended .returned)) := by
  refine h.goTo [] (fun _ => hconn) ?_ (fun _ => hcancelled) Phase.noConfusion ?_ Bool.noConfusion
  · intro tunnelId hphase
    cases hphase
  · intro hphase
    cases hphase

/-- A bridge goes on to another phase with a client, or to one that needs none. -/
theorem BridgeInv.goesOn (h : BridgeInv b) {phase : Phase} (statuses : List Status)
    (hconnects : phase.connects = true) (hawake : b.phase ≠ .sleeping ∧ b.phase.isEnded = false) :
    Moved id b children ⟨{ b with phase := phase }, children, statuses⟩ := by
  refine h.goTo statuses ?_ ?_ ?_ ?_ ?_ ?_
  · intro hnot
    rw [hnot] at hconnects
    cases hconnects
  · rintro tunnelId rfl
    cases hconnects
  · rintro rfl
    cases hconnects
  · rintro rfl
    cases hconnects
  · rintro rfl
    cases hconnects
  · intro _
    refine ⟨hawake.1, hawake.2, ?_⟩
    rintro rfl
    cases hconnects

theorem looks_moved (h : BridgeInv b) {isPeer spawned : Bool} {configuredPort : Option UInt16}
    (hstep : b.advance children id (.looks isPeer configuredPort spawned) = some outcome) :
    Moved id b children outcome := by
  dsimp only [Bridge.advance] at hstep
  split at hstep
  · cases hstep
  next hphase =>
    rw [not_not] at hphase
    have hawake := awake_of_eq hphase Phase.noConfusion rfl
    have hconn : b.phase.connects = false := by
      rw [hphase]
      rfl
    split at hstep
    next hcancelled =>
      cases hstep
      exact h.returns hconn hcancelled
    · split at hstep
      · cases hstep
        exact h.goesOn _ rfl hawake
      next tunnelId hspec =>
        split at hstep
        · cases hstep
          exact h.spawnConnect hspec _ spawned hconn hawake.1 hawake.2
        · cases hstep
          refine h.goTo [] (fun _ => hconn) ?_ Phase.noConfusion Phase.noConfusion Phase.noConfusion
            fun _ => ⟨hawake.1, hawake.2, Phase.noConfusion⟩
          intro other hother
          cases hother
          exact hspec

theorem settles_moved (h : BridgeInv b) {isLong : Bool}
    (hstep : b.advance children id (.settles isLong) = some outcome) :
    Moved id b children outcome := by
  dsimp only [Bridge.advance] at hstep
  split at hstep
  next hphase =>
    cases hstep
    exact h.returns (by rw [hphase]; rfl) (h.cancelled (.inl hphase))
  next hphase =>
    cases hstep
    refine h.goTo _ (fun _ => by rw [hphase]; rfl) ?_ ?_ Phase.noConfusion ?_ Bool.noConfusion
    · intro tunnelId heq
      cases heq
    · intro heq
      cases heq
    · intro heq
      cases heq
  next hphase =>
    cases hstep
    have hawake := awake_of_eq hphase Phase.noConfusion rfl
    exact h.sleep isLong _ (by rw [hphase]; rfl) hawake.1 hawake.2
  next hphase =>
    have hawake := awake_of_eq hphase Phase.noConfusion rfl
    split at hstep
    next hcancelled =>
      cases hstep
      exact h.returns (by rw [hphase]; rfl) hcancelled
    · cases hstep
      exact h.sleep isLong _ (by rw [hphase]; rfl) hawake.1 hawake.2
  · cases hstep

theorem wakes_moved (h : BridgeInv b)
    (hstep : b.advance children id .wakes = some outcome) : Moved id b children outcome := by
  dsimp only [Bridge.advance] at hstep
  split at hstep
  next hphase =>
    cases hstep
    have hbackoff := h.backoff (by rw [hphase]; rfl)
    rw [Bridge.Due, if_pos hphase] at hbackoff
    obtain ⟨isLong, earlier, hwaits⟩ := hbackoff
    refine ⟨rfl, rfl, Phase.noConfusion, ?inv, .inl ⟨rfl, rfl⟩⟩
    refine ⟨fun _ => h.conn (by rw [hphase]; rfl), ?_, ?_, h.doubling, ?_⟩
    · intro tunnelId heq
      cases heq
    · rintro (heq | heq | heq) <;> cases heq
    · intro _
      change min (b.backoffMs * 2) 30000 = upcoming b.waits
      rw [hwaits, upcoming]
  · cases hstep

theorem cancels_moved (h : BridgeInv b)
    (hstep : b.advance children id .cancels = some outcome) : Moved id b children outcome := by
  dsimp only [Bridge.advance] at hstep
  split at hstep
  next hcancelled =>
    split at hstep
    next hphase =>
      cases hstep
      exact h.returns (by rw [hphase]; rfl) hcancelled
    next hphase =>
      cases hstep
      exact h.returns (by rw [hphase]; rfl) hcancelled
    next hphase =>
      cases hstep
      have hawake := awake_of_eq hphase Phase.noConfusion rfl
      exact h.settle [] (fun _ => hcancelled) hawake.1 hawake.2
    next hphase =>
      cases hstep
      have hawake := awake_of_eq hphase Phase.noConfusion rfl
      exact h.close _ hawake.1 hawake.2
    · cases hstep
  · cases hstep

theorem advance_moved (h : BridgeInv b) {answer : Answer}
    (hstep : b.advance children id answer = some outcome) : Moved id b children outcome := by
  cases answer with
  | looks => exact looks_moved h hstep
  | ports port spawned =>
    dsimp only [Bridge.advance] at hstep
    split at hstep
    next hphase =>
      cases hstep
      have hawake := awake_of_eq hphase Phase.noConfusion rfl
      exact h.spawnConnect (h.discovering _ hphase) _ spawned (by rw [hphase]; rfl) hawake.1 hawake.2
    next hphase =>
      cases hstep
      have hawake := awake_of_eq hphase Phase.noConfusion rfl
      exact h.sleep false _ (by rw [hphase]; rfl) hawake.1 hawake.2
    · cases hstep
  | reached reachable =>
    dsimp only [Bridge.advance] at hstep
    split at hstep
    next hphase =>
      have hawake := awake_of_eq hphase Phase.noConfusion rfl
      split at hstep
      · cases hstep
        exact h.goesOn [] rfl hawake
      · split at hstep
        · cases hstep
          exact h.settle [] Rest.noConfusion hawake.1 hawake.2
        · cases hstep
          exact h.settle [] Rest.noConfusion hawake.1 hawake.2
    · cases hstep
  | opened link =>
    dsimp only [Bridge.advance] at hstep
    split at hstep
    next hphase =>
      cases hstep
      exact h.goesOn _ rfl (awake_of_eq hphase Phase.noConfusion rfl)
    next hphase =>
      cases hstep
      have hawake := awake_of_eq hphase Phase.noConfusion rfl
      exact h.close _ hawake.1 hawake.2
    · cases hstep
  | closes =>
    dsimp only [Bridge.advance] at hstep
    split at hstep
    next hphase =>
      cases hstep
      have hawake := awake_of_eq hphase Phase.noConfusion rfl
      exact h.close _ hawake.1 hawake.2
    · cases hstep
  | settles => exact settles_moved h hstep
  | wakes => exact wakes_moved h hstep
  | cancels => exact cancels_moved h hstep

end

/-! ## What holds of the clients -/

/-- Nobody new is alive, and who was there belongs to the same bridge. -/
structure Fewer (children children' : List ConnectChild) : Prop where
  kept : ∀ (c : Nat) (child : ConnectChild), children[c]? = some child → ∃ child' : ConnectChild,
    children'[c]? = some child' ∧ child'.owner = child.owner ∧ child'.tunnelId = child.tunnelId
  back : ∀ (c : Nat) (child' : ConnectChild), children'[c]? = some child' → ∃ child : ConnectChild,
    children[c]? = some child ∧ child'.owner = child.owner ∧ child'.tunnelId = child.tunnelId ∧
      (child'.alive = true → child.alive = true)

/-- A client that is alive belongs to the bridge that has it, or to one that was dropped; it is the
only one of that bridge. -/
structure Clients (bridges : List Bridge) (children : List ConnectChild) : Prop where
  conn : ∀ (i : Nat) (b : Bridge) (c : Nat), bridges[i]? = some b → b.conn = some c →
    ∃ child : ConnectChild, children[c]? = some child ∧ child.owner = i ∧
      b.spec = .tunnel child.tunnelId
  owned : ∀ (c : Nat) (child : ConnectChild), children[c]? = some child → child.alive = true →
    ∃ b : Bridge, bridges[child.owner]? = some b ∧ b.spec = .tunnel child.tunnelId ∧
      (b.conn = some c ∨ b.phase = .ended .dropped)
  one : ∀ (c c' : Nat) (child child' : ConnectChild), children[c]? = some child →
    children[c']? = some child' → child.alive = true → child'.alive = true →
    child.owner = child'.owner → c = c'

section

variable {bridges : List Bridge} {children children' : List ConnectChild} {id : Nat} {b b' : Bridge}

theorem fewer_modify (c : Nat) (f : ConnectChild → ConnectChild)
    (hf : ∀ child, (f child).owner = child.owner ∧ (f child).tunnelId = child.tunnelId ∧
      ((f child).alive = true → child.alive = true)) : Fewer children (children.modify c f) := by
  refine ⟨?_, ?_⟩
  · intro c' child hchild
    rw [List.getElem?_modify, hchild]
    by_cases hc : c = c'
    · exact ⟨f child, by simp [hc], (hf child).1, (hf child).2.1⟩
    · exact ⟨child, by simp [hc], rfl, rfl⟩
  · intro c' child' hchild'
    rw [List.getElem?_modify] at hchild'
    obtain ⟨child, hchild, heq⟩ := Option.map_eq_some_iff.mp hchild'
    refine ⟨child, hchild, ?_⟩
    by_cases hc : c = c'
    · rw [if_pos hc] at heq
      exact heq ▸ hf child
    · rw [if_neg hc] at heq
      exact heq ▸ ⟨rfl, rfl, id⟩

theorem fewer_killed (conn : Option Nat) : Fewer children (killed children conn) := by
  cases conn with
  | none => exact ⟨fun c child h => ⟨child, h, rfl, rfl⟩, fun c child h => ⟨child, h, rfl, rfl, id⟩⟩
  | some c => exact fewer_modify c _ fun child => ⟨rfl, rfl, Bool.noConfusion⟩

theorem not_alive_killed {c : Nat} {child : ConnectChild}
    (h : (killed children (some c))[c]? = some child) : child.alive = false := by
  rw [killed, List.getElem?_modify] at h
  obtain ⟨other, -, rfl⟩ := Option.map_eq_some_iff.mp h
  rw [if_pos rfl]

theorem Clients.fewer (h : Clients bridges children) (hfewer : Fewer children children') :
    Clients bridges children' := by
  refine ⟨?_, ?_, ?_⟩
  · intro i b c hb hconn
    obtain ⟨child, hchild, howner, hspec⟩ := h.conn i b c hb hconn
    obtain ⟨child', hchild', howner', htunnel⟩ := hfewer.kept c child hchild
    exact ⟨child', hchild', howner'.trans howner, by rw [htunnel, hspec]⟩
  · intro c child' hchild' halive
    obtain ⟨child, hchild, howner, htunnel, hback⟩ := hfewer.back c child' hchild'
    obtain ⟨b, hb, hspec, hheld⟩ := h.owned c child hchild (hback halive)
    exact ⟨b, by rw [howner, hb], by rw [htunnel, hspec], hheld⟩
  · intro c c' child child' hchild hchild' halive halive' howner
    obtain ⟨old, hold, howns, -, hback⟩ := hfewer.back c child hchild
    obtain ⟨old', hold', howns', -, hback'⟩ := hfewer.back c' child' hchild'
    refine h.one c c' old old' hold hold' (hback halive) (hback' halive') ?_
    rw [← howns, ← howns', howner]

/-- A bridge changes; the clients that are alive stay its own, or were left by it. -/
theorem Clients.set (h : Clients bridges children) (hid : bridges[id]? = some b)
    (hspec : b'.spec = b.spec) (hconn : ∀ c, b'.conn = some c → b.conn = some c)
    (hheld : ∀ (c : Nat) (child : ConnectChild), children[c]? = some child → child.alive = true →
      b.conn = some c ∨ b.phase = .ended .dropped → child.owner = id →
      b'.conn = some c ∨ b'.phase = .ended .dropped) :
    Clients (bridges.set id b') children := by
  have hlength := (List.getElem?_eq_some_iff.mp hid).1
  refine ⟨?_, ?_, h.one⟩
  · intro i other c hother hc
    rcases some_of_set hother with ⟨rfl, rfl⟩ | ⟨-, hother⟩
    · obtain ⟨child, hchild, howner, htunnel⟩ := h.conn i b c hid (hconn c hc)
      exact ⟨child, hchild, howner, by rw [hspec, htunnel]⟩
    · exact h.conn i other c hother hc
  · intro c child hchild halive
    obtain ⟨other, hother, htunnel, howns⟩ := h.owned c child hchild halive
    by_cases heq : child.owner = id
    · rw [heq, hid, Option.some.injEq] at hother
      subst hother
      exact ⟨b', by rw [heq, List.getElem?_set_self hlength], by rw [hspec, htunnel],
        hheld c child hchild halive howns heq⟩
    · exact ⟨other, by rw [List.getElem?_set_ne (Ne.symm heq), hother], htunnel, howns⟩

/-- A bridge that has no client, nor left one, gets a new one. -/
theorem Clients.spawn (h : Clients bridges children) (hid : bridges[id]? = some b)
    {tunnelId : String} (htunnel : b.spec = .tunnel tunnelId) (hspec : b'.spec = b.spec)
    (hfree : b.conn = none) (hrunning : b.phase ≠ .ended .dropped)
    (hconn : b'.conn = some children.length) :
    Clients (bridges.set id b') (children ++ [⟨id, tunnelId, true, false⟩]) := by
  have hlength := (List.getElem?_eq_some_iff.mp hid).1
  have hnobody : ∀ (c : Nat) (child : ConnectChild), children[c]? = some child →
      child.alive = true → child.owner ≠ id := by
    intro c child hchild halive heq
    obtain ⟨other, hother, -, hheld⟩ := h.owned c child hchild halive
    rw [heq, hid, Option.some.injEq] at hother
    subst hother
    rcases hheld with hheld | hdropped
    · rw [hfree] at hheld
      cases hheld
    · exact hrunning hdropped
  refine ⟨?_, ?_, ?_⟩
  · intro i other c hother hc
    rcases some_of_set hother with ⟨rfl, rfl⟩ | ⟨-, hother⟩
    · rw [hconn, Option.some.injEq] at hc
      exact ⟨_, by rw [← hc, List.getElem?_concat_length], rfl, hspec.trans htunnel⟩
    · obtain ⟨child, hchild, howner, hother'⟩ := h.conn i other c hother hc
      exact ⟨child, some_concat hchild, howner, hother'⟩
  · intro c child hchild halive
    rcases some_of_concat hchild with hold | ⟨rfl, rfl⟩
    · obtain ⟨other, hother, hspec', hheld⟩ := h.owned c child hold halive
      have hne := hnobody c child hold halive
      exact ⟨other, by rw [List.getElem?_set_ne (Ne.symm hne), hother], hspec', hheld⟩
    · exact ⟨b', List.getElem?_set_self hlength, hspec.trans htunnel, .inl hconn⟩
  · intro c c' child child' hchild hchild' halive halive' howner
    rcases some_of_concat hchild with hold | ⟨rfl, rfl⟩
    · rcases some_of_concat hchild' with hold' | ⟨rfl, rfl⟩
      · exact h.one c c' child child' hold hold' halive halive' howner
      · exact absurd howner (hnobody c child hold halive)
    · rcases some_of_concat hchild' with hold' | ⟨rfl, rfl⟩
      · exact absurd howner.symm (hnobody c' child' hold' halive')
      · rfl

end

/-! ## What holds of them all -/

/-- A bridge is that of the task with its number. -/
def BridgeOf (supervisor : TargetSupervisor) (i : Nat) (b : Bridge) : Prop :=
  ∃ handle, supervisor.started[i]? = some handle ∧ b.spec = handle.spec ∧
    (b.cancelled = true ↔ handle ∈ supervisor.cancelled)

structure Inv (s : State) : Prop where
  sound : Sound targetKey s.supervisor
  length : s.bridges.length = s.supervisor.started.length
  bridge : ∀ (i : Nat) (b : Bridge), s.bridges[i]? = some b → BridgeInv b
  task : ∀ (i : Nat) (b : Bridge), s.bridges[i]? = some b → BridgeOf s.supervisor i b
  clients : Clients s.bridges s.children

section

variable {s t : State} {e : Event} {id : Nat} {b : Bridge}

theorem inv_init : Inv init where
  sound := .empty
  length := rfl
  bridge i b h := by cases h
  task i b h := by cases h
  clients := by
    refine ⟨?_, ?_, ?_⟩
    · intro i b c h
      cases h
    · intro c child h
      cases h
    · intro c c' child child' h
      cases h

/-- A cancelled task changes nothing of its bridge but the token. -/
theorem BridgeInv.cancel (h : BridgeInv b) {cancelled : Bool}
    (hcancelled : b.cancelled = true → cancelled = true) :
    BridgeInv { b with cancelled := cancelled } where
  conn := h.conn
  discovering := h.discovering
  cancelled hphase := hcancelled (h.cancelled hphase)
  doubling := h.doubling
  backoff := h.backoff

/-- The bridges after a round: those there were, cancelled or not, and new ones behind them. -/
theorem Inv.refreshed (h : Inv s) (desired : List UplinkTargetSpec) :
    (∀ (i : Nat) (b : Bridge), s.bridges[i]? = some b → ∃ cancelled,
      (s.round desired).bridges[i]? = some { b with cancelled := cancelled }) ∧
    ∀ (i : Nat) (b' : Bridge), (s.round desired).bridges[i]? = some b' →
      BridgeOf (s.round desired).supervisor i b' ∧
      ((∃ b, s.bridges[i]? = some b ∧ b' = { b with cancelled := b'.cancelled } ∧
        (b.cancelled = true → b'.cancelled = true)) ∨
      ∃ spec, b' = { Bridge.new spec with cancelled := b'.cancelled }) := by
  have hround := h.sound.reconciled desired
  have hsound : Sound targetKey (s.round desired).supervisor := hround.sound
  have hold : ∀ (i : Nat) (b : Bridge), s.bridges[i]? = some b → ∃ handle,
      (s.round desired).supervisor.started[i]? = some handle ∧ b.spec = handle.spec ∧
      (b.cancelled = true → handle ∈ (s.round desired).supervisor.cancelled) := by
    intro i b hb
    obtain ⟨handle, hhandle, hspec, hcancelled⟩ := h.task i b hb
    have hmem := hround.grows (List.mem_of_getElem? hhandle)
    have hat := hsound.getElem?_of_mem hmem
    rw [h.sound.id_of_getElem? hhandle] at hat
    exact ⟨handle, hat, hspec, fun hb => (hround.cancelled handle).mpr (.inl (hcancelled.mp hb))⟩
  refine ⟨?_, ?_⟩
  · intro i b hb
    obtain ⟨handle, hhandle, -⟩ := hold i b hb
    refine ⟨handle ∈ (s.round desired).supervisor.cancelled, ?_⟩
    change ((s.round desired).supervisor.started.map _)[i]? = _
    rw [List.getElem?_map, hhandle, Option.map_some, TargetBridges.refreshed,
      hsound.id_of_getElem? hhandle, hb, Option.getD_some]
    rfl
  · intro i b' hb'
    change ((s.round desired).supervisor.started.map
      (TargetBridges.refreshed s.bridges (s.round desired).supervisor))[i]? = some b' at hb'
    rw [List.getElem?_map] at hb'
    obtain ⟨handle, hhandle, rfl⟩ := Option.map_eq_some_iff.mp hb'
    have hid := hsound.id_of_getElem? hhandle
    cases hb : s.bridges[i]? with
    | some b =>
      obtain ⟨handle', hhandle', hspec, hcancelled⟩ := hold i b hb
      cases hhandle.symm.trans hhandle'
      unfold TargetBridges.refreshed
      rw [hid, hb, Option.getD_some]
      refine ⟨⟨handle, hhandle, hspec, decide_eq_true_iff⟩, .inl ⟨b, rfl, rfl, ?_⟩⟩
      exact fun hb => decide_eq_true (hcancelled hb)
    | none =>
      unfold TargetBridges.refreshed
      rw [hid, hb, Option.getD_none]
      exact ⟨⟨handle, hhandle, rfl, decide_eq_true_iff⟩, .inr ⟨handle.spec, rfl⟩⟩

theorem Inv.round (h : Inv s) (desired : List UplinkTargetSpec) : Inv (s.round desired) := by
  obtain ⟨hkept, hback⟩ := h.refreshed desired
  refine ⟨(h.sound.reconciled desired).sound, List.length_map _, ?_, fun i b hb => (hback i b hb).1,
    ?_, ?_, h.clients.one⟩
  · intro i b' hb'
    rcases (hback i b' hb').2 with ⟨b, hb, heq, hcancelled⟩ | ⟨spec, heq⟩
    · rw [heq]
      exact (h.bridge i b hb).cancel hcancelled
    · rw [heq]
      exact (bridgeInv_new spec).cancel Bool.noConfusion
  · intro i b' c hb' hconn
    rcases (hback i b' hb').2 with ⟨b, hb, heq, -⟩ | ⟨spec, heq⟩
    · rw [heq] at hconn ⊢
      exact h.clients.conn i b c hb hconn
    · rw [heq] at hconn
      cases hconn
  · intro c child hchild halive
    obtain ⟨b, hb, hspec, hheld⟩ := h.clients.owned c child hchild halive
    obtain ⟨cancelled, hb'⟩ := hkept child.owner b hb
    exact ⟨_, hb', hspec, hheld⟩

/-- The bridges and the clients after a step of one bridge. -/
theorem Inv.set (h : Inv s) (hid : s.bridges[id]? = some b) {b' : Bridge}
    (hinv : BridgeInv b') (hspec : b'.spec = b.spec) (hcancelled : b'.cancelled = b.cancelled)
    (hsupervisor : t.supervisor = s.supervisor) (hbridges : t.bridges = s.bridges.set id b')
    (hclients : Clients t.bridges t.children) : Inv t := by
  refine ⟨hsupervisor ▸ h.sound, ?_, ?_, ?_, hclients⟩
  · rw [hbridges, hsupervisor, List.length_set, h.length]
  · intro i other hother
    rw [hbridges] at hother
    rcases some_of_set hother with ⟨-, rfl⟩ | ⟨-, hother⟩
    · exact hinv
    · exact h.bridge i other hother
  · intro i other hother
    rw [hbridges] at hother
    rw [hsupervisor]
    rcases some_of_set hother with ⟨rfl, rfl⟩ | ⟨-, hother⟩
    · unfold BridgeOf
      rw [hspec, hcancelled]
      exact h.task i b hid
    · exact h.task i other hother

/-- A bridge that can act has not been dropped. -/
theorem running_of_advance {children : List ConnectChild} {answer : Answer} {outcome : Outcome}
    (hstep : b.advance children id answer = some outcome) : b.phase ≠ .ended .dropped := by
  intro hphase
  cases answer <;> simp [Bridge.advance, hphase] at hstep

theorem Moved.clients {outcome : Outcome} (hclients : Clients s.bridges s.children)
    (hid : s.bridges[id]? = some b) (hrunning : b.phase ≠ .ended .dropped)
    (h : Moved id b s.children outcome) :
    Clients (s.bridges.set id outcome.bridge) outcome.children := by
  rcases h.handled with ⟨hchildren, hconn⟩ | ⟨hchildren, hconn⟩ |
    ⟨tunnelId, htunnel, hfree, hchildren, hconn⟩
  · rw [hchildren]
    refine hclients.set hid h.spec (fun c hc => by rwa [hconn] at hc) ?_
    intro c child hchild halive hheld howner
    rw [hconn]
    exact .inl (hheld.resolve_right hrunning)
  · rw [hchildren]
    refine (hclients.fewer (fewer_killed b.conn)).set hid h.spec ?_ ?_
    · intro c hc
      rw [hconn] at hc
      cases hc
    · intro c child hchild halive hheld howner
      have hc := hheld.resolve_right hrunning
      rw [hc] at hchild
      rw [not_alive_killed hchild] at halive
      cases halive
  · rw [hchildren]
    exact hclients.spawn hid htunnel h.spec hfree hrunning hconn

theorem inv_step (h : Inv s) (hstep : Step s e t) : Inv t := by
  unfold Step at hstep
  cases e with
  | round desired =>
    cases hstep
    exact h.round desired
  | act id answer =>
    obtain ⟨b, hid, hstep⟩ := Option.bind_eq_some_iff.mp hstep
    obtain ⟨outcome, hadvance, rfl⟩ := Option.map_eq_some_iff.mp hstep
    have hmoved := advance_moved (h.bridge id b hid) hadvance
    exact h.set hid hmoved.inv hmoved.spec hmoved.cancelled rfl rfl
      (hmoved.clients h.clients hid (running_of_advance hadvance))
  | drop id =>
    obtain ⟨b, hid, hstep⟩ := Option.bind_eq_some_iff.mp hstep
    split at hstep
    next hguard =>
      cases hstep
      have hb := h.bridge id b hid
      have hinv : BridgeInv { b with phase := .ended .dropped, conn := none } := by
        refine ⟨fun _ => rfl, ?_, fun _ => hguard.1, hb.doubling, Bool.noConfusion⟩
        intro tunnelId hphase
        cases hphase
      refine h.set hid hinv rfl rfl rfl rfl (h.clients.set hid rfl ?_ ?_)
      · intro c hc
        cases hc
      · intro c child hchild halive hheld howner
        exact .inr rfl
    · cases hstep
  | exits c =>
    cases hstep
    have hfewer : Fewer s.children _ := fewer_modify c
      (fun child => { child with alive := false }) fun child => ⟨rfl, rfl, Bool.noConfusion⟩
    exact ⟨h.sound, h.length, h.bridge, h.task, h.clients.fewer hfewer⟩
  | refuses c =>
    cases hstep
    have hfewer : Fewer s.children _ := fewer_modify c
      (fun child => { child with authRejected := true }) fun child => ⟨rfl, rfl, id⟩
    exact ⟨h.sound, h.length, h.bridge, h.task, h.clients.fewer hfewer⟩

end

/-! ## Runs -/

end Climon.Remote.TargetBridges
