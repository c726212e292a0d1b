import Climon.Server.DashboardTunnel

namespace Climon.Server.TunnelSetup

open Climon.Server.DashboardTunnel (truthy splitTunnelId buildDashboardTunnelUrl
  maxTunnelRecreations)

/-!
# One call of `ensure`

The answers of the CLI decide how often `startHost` calls itself.
-/

/-! ## What the CLI answers -/

/-- `devtunnel create`: what goes into the error message, or what its output is parsed as. -/
inductive Create where
  | failed (detail : String)
  | output (tunnelId cluster : Option String)

/-- `devtunnel port create`: the port is mapped by now, there is no such tunnel, or it failed. -/
inductive PortCreate where
  | mapped
  | missing
  | failed (detail : String)
  deriving DecidableEq

/-- `devtunnel host`, when the wait for a URL is over: the URL it printed, whether it still runs,
and whether its output says that there is no such tunnel. -/
structure HostStart where
  url : Option String
  alive : Bool
  missing : Bool

/-- The answers in one pass of `startHost`. `create` is for a pass without a tunnel, `recreate` for
one that finds its tunnel missing, `ports` is a list of ports that could be parsed. -/
structure Pass where
  create : Create
  portCreate : PortCreate
  ports : Option (List Nat)
  host : HostStart
  verified : Bool
  recreate : Create

structure Cli where
  version : Bool
  authenticated : Bool
  passes : Nat → Pass

/-! ## The manager -/

structure Manager where
  tunnelId : Option String
  cluster : Option String
  persistedTunnelId : Option String
  commands : Nat

inductive Outcome where
  | returned (url : String) (tunnelId : Option String)
  | threw (message : String)

/-- How a pass ends. -/
inductive Next where
  | ended (outcome : Outcome)
  | again (recreations : Nat)

namespace Manager

def issue (m : Manager) (n : Nat) : Manager := { m with commands := m.commands + n }

def createTunnel (m : Manager) (answer : Create) : Manager × Except String Unit :=
  let m := m.issue 1
  match answer with
  | .failed detail => (m, .error ("devtunnel create failed: " ++ detail))
  | .output tunnelId cluster =>
    if truthy tunnelId then
      ({ m with
          tunnelId := tunnelId
          cluster := cluster.or (tunnelId.bind fun id => (splitTunnelId id).cluster)
          persistedTunnelId := tunnelId },
        .ok ())
    else (m, .error "Could not parse tunnel id from `devtunnel create` output.")

/-- `discardTunnel` ends with the same. -/
def forgetTunnel (m : Manager) : Manager :=
  { m with
    tunnelId := none
    cluster := none
    persistedTunnelId := if m.persistedTunnelId = m.tunnelId then none else m.persistedTunnelId }

def deriveCluster (m : Manager) : Manager :=
  if truthy m.cluster then m
  else
    match m.tunnelId.bind fun id => (splitTunnelId id).cluster with
    | none => m
    | some derived => { m with cluster := some derived }

/-- A list of the ports, and a command for each other port on it. -/
def pruneStalePorts (port : Nat) (m : Manager) (ports : Option (List Nat)) : Manager :=
  m.issue (1 + ((ports.getD []).filter (· ≠ port)).length)

/-- Once the host has a URL. -/
def verifyTunnel (m : Manager) (recreations : Nat) (p : Pass) (url : String) : Manager × Next :=
  if p.host.alive && recreations < maxTunnelRecreations && !p.verified then
    ((m.issue 1).forgetTunnel, .again (recreations + 1))
  else (m, .ended (.returned url m.tunnelId))

/-- Once the wait for a URL is over. -/
def finishStart (port : Nat) (m : Manager) (recreations : Nat) (p : Pass) : Manager × Next :=
  match p.host.url with
  | some url => m.verifyTunnel recreations p url
  | none =>
    if !p.host.alive && p.host.missing then
      match m.forgetTunnel.createTunnel p.recreate with
      | (m, .error message) => (m, .ended (.threw message))
      | (m, .ok ()) => (m, .again 0)
    else
      match m.tunnelId, p.host.alive && truthy m.cluster with
      | some id, true =>
        m.verifyTunnel recreations p (buildDashboardTunnelUrl id port (m.cluster.getD ""))
      | _, _ => (m, .ended (.threw
          "Could not determine dashboard tunnel URL from devtunnel host output."))

/-- `startHost` once there is a tunnel. -/
def withTunnel (port : Nat) (m : Manager) (recreations : Nat) (p : Pass) : Manager × Next :=
  if truthy m.tunnelId then
    let m := m.deriveCluster.issue 1
    match p.portCreate with
    | .failed detail => (m, .ended (.threw ("devtunnel port create failed: " ++ detail)))
    | .missing =>
      match m.forgetTunnel.createTunnel p.recreate with
      | (m, .error message) => (m, .ended (.threw message))
      | (m, .ok ()) => (m, .again recreations)
    | .mapped => ((m.pruneStalePorts port p.ports).issue 1).finishStart port recreations p
  else (m, .ended (.threw "Tunnel id was not initialized."))

def startHost (port : Nat) (m : Manager) (recreations : Nat) (p : Pass) : Manager × Next :=
  if truthy m.tunnelId then m.withTunnel port recreations p
  else
    match m.createTunnel p.create with
    | (m, .error message) => (m, .ended (.threw message))
    | (m, .ok ()) => m.withTunnel port recreations p

/-- `startHost` with its calls of itself, as many as `fuel` allows. -/
def startHosts (port : Nat) (passes : Nat → Pass) :
    Nat → Nat → Nat → Manager → Option (Manager × Outcome)
  | 0, _, _, _ => none
  | fuel + 1, k, recreations, m =>
    match m.startHost port recreations (passes k) with
    | (m, .ended outcome) => some (m, outcome)
    | (m, .again recreations) => startHosts port passes fuel (k + 1) recreations m

/-- `hosted` is the URL of a host that runs already. -/
def ensure (port : Nat) (hosted : Option String) (cli : Cli) (fuel : Nat) (m : Manager) :
    Option (Manager × Outcome) :=
  let m := m.issue 1
  if cli.version then
    let m := m.issue 1
    if cli.authenticated then
      match hosted with
      | some url => some (m, .returned url m.tunnelId)
      | none => m.startHosts port cli.passes fuel 0 0
    else some (m, .threw "devtunnel is not authenticated. Run `devtunnel user login` and try again.")
  else some (m, .threw "devtunnel CLI is not available.")

end Manager

/-! ## Endless answers -/

def namesCluster (tunnelId cluster : Option String) : Bool :=
  truthy cluster || truthy (tunnelId.bind fun id => (splitTunnelId id).cluster)

namespace Create

/-- A tunnel comes of it. -/
def made : Create → Bool
  | .failed _ => false
  | .output tunnelId _ => truthy tunnelId

/-- The cluster of the tunnel is known. -/
def placed : Create → Bool
  | .failed _ => false
  | .output tunnelId cluster => namesCluster tunnelId cluster

end Create

namespace Pass

variable (p : Pass)

def lostAtPort : Bool := p.portCreate = .missing

/-- The host has ended, and says that there is no such tunnel. -/
def hostGone : Bool := p.host.url.isNone && !p.host.alive && p.host.missing

def lostAtHost : Bool := p.portCreate = .mapped && p.hostGone

/-- The host runs and cannot be reached. -/
def unverified : Bool := p.portCreate = .mapped && p.host.alive && !p.verified

end Pass

section

variable (m : Manager) (passes : Nat → Pass)

/-- What the tunnel of a pass comes of. -/
def source : Nat → Create
  | 0 => if truthy m.tunnelId then .output m.tunnelId m.cluster else (passes 0).create
  | k + 1 => if (passes k).unverified then (passes (k + 1)).create else (passes k).recreate

/-- In each pass the tunnel is reported missing, or its host cannot be reached; between two passes of
the latter kind, a host reports the tunnel missing. A new tunnel can always be created. -/
structure Endless : Prop where
  created : ∀ k, (source m passes k).made = true
  retried : ∀ k, (passes k).lostAtPort = true ∨ (passes k).lostAtHost = true ∨
    (passes k).unverified = true ∧
      ((passes k).host.url.isSome = true ∨ (source m passes k).placed = true)
  spaced : ∀ i j, i < j → (passes i).unverified = true → (passes j).unverified = true →
    ∃ l, i < l ∧ l < j ∧ (passes l).lostAtHost = true

end

/-! ## One pass -/

section

variable {m m' : Manager} {passes : Nat → Pass} {p : Pass} {port k r r' : Nat} {answer : Create}

/-- The tunnel that came of an answer. -/
structure Has (m : Manager) (answer : Create) : Prop where
  made : answer.made = true
  tunnel : truthy m.tunnelId = true
  cluster : namesCluster m.tunnelId m.cluster = answer.placed

theorem createTunnel_made (h : answer.made = true) :
    ∃ m', m.createTunnel answer = (m', .ok ()) ∧ Has m' answer := by
  cases answer with
  | failed detail => cases h
  | output tunnelId cluster =>
    refine ⟨_, if_pos h, h, h, ?_⟩
    change namesCluster tunnelId (cluster.or _) = namesCluster tunnelId cluster
    cases cluster with
    | none => simp [namesCluster, truthy]
    | some cluster => rfl

theorem createTunnel_not_made (h : answer.made = false) :
    ∃ m' message, m.createTunnel answer = (m', .error message) := by
  cases answer with
  | failed detail => exact ⟨_, _, rfl⟩
  | output tunnelId cluster => exact ⟨_, _, if_neg (by simpa [Create.made] using h)⟩

theorem deriveCluster_tunnelId : m.deriveCluster.tunnelId = m.tunnelId := by
  unfold Manager.deriveCluster
  repeat' split
  all_goals rfl

theorem truthy_deriveCluster :
    truthy m.deriveCluster.cluster = namesCluster m.tunnelId m.cluster := by
  unfold Manager.deriveCluster namesCluster
  split
  · next h => rw [h, Bool.true_or]
  · next h =>
    rw [Bool.not_eq_true] at h
    split
    · next hnone => simp [hnone, truthy]
    · next hsome => rw [h, hsome, Bool.false_or]

/-- The host has a URL, which does not answer. -/
def unreachable (p : Pass) (placed : Bool) : Bool :=
  p.host.alive && !p.verified && (p.host.url.isSome || placed)

/-- With a URL, a host that cannot be reached is given up once. -/
theorem verifyTunnel_cases (url : String) (hurl : p.host.url.isSome = true ∨ truthy m.cluster = true) :
    unreachable p (truthy m.cluster) = true ∧ r < maxTunnelRecreations ∧
        m.verifyTunnel r p url = ((m.issue 1).forgetTunnel, .again (r + 1)) ∨
      ¬ (unreachable p (truthy m.cluster) = true ∧ r < maxTunnelRecreations) ∧
        m.verifyTunnel r p url = (m, .ended (.returned url m.tunnelId)) := by
  have hknown : (p.host.url.isSome || truthy m.cluster) = true := by
    rwa [Bool.or_eq_true]
  by_cases hgiven : p.host.alive && r < maxTunnelRecreations && !p.verified
  · left
    have hparts := hgiven
    simp only [Bool.and_eq_true, decide_eq_true_eq] at hparts
    refine ⟨?_, hparts.1.2, if_pos hgiven⟩
    rw [unreachable, hparts.1.1, hparts.2, hknown]
    rfl
  · right
    refine ⟨?_, if_neg hgiven⟩
    rintro ⟨hunreachable, hr⟩
    simp only [unreachable, Bool.and_eq_true] at hunreachable
    simp [hunreachable.1.1, hunreachable.1.2, hr] at hgiven

theorem finishStart_cases (htunnel : truthy m.tunnelId = true) :
    p.hostGone = true ∧ p.recreate.made = true ∧
        (∃ m', m.finishStart port r p = (m', .again 0) ∧ Has m' p.recreate) ∨
      unreachable p (truthy m.cluster) = true ∧ r < maxTunnelRecreations ∧
        (∃ m', m.finishStart port r p = (m', .again (r + 1)) ∧ m'.tunnelId = none) ∨
      ¬ (p.hostGone = true ∧ p.recreate.made = true) ∧
        ¬ (unreachable p (truthy m.cluster) = true ∧ r < maxTunnelRecreations) ∧
        ∃ m' outcome, m.finishStart port r p = (m', .ended outcome) := by
  unfold Manager.finishStart
  cases hurl : p.host.url with
  | some url =>
    have hgone : ¬ (p.hostGone = true ∧ p.recreate.made = true) := by
      simp [Pass.hostGone, hurl]
    rcases @verifyTunnel_cases m p r url (.inl (by rw [hurl]; rfl)) with ⟨hp, hr, h⟩ | ⟨hp, h⟩
    · exact .inr (.inl ⟨hp, hr, _, h, rfl⟩)
    · exact .inr (.inr ⟨hgone, hp, _, _, h⟩)
  | none =>
    by_cases hgone : p.hostGone = true
    · have hlost : (!p.host.alive && p.host.missing) = true := by
        simpa [Pass.hostGone, hurl] using hgone
      have hreach : ¬ (unreachable p (truthy m.cluster) = true ∧ r < maxTunnelRecreations) := by
        rintro ⟨h, -⟩
        rw [Bool.and_eq_true, Bool.not_eq_true'] at hlost
        simp [unreachable, hlost.1] at h
      simp only [hlost, if_true]
      cases hmade : p.recreate.made with
      | true =>
        obtain ⟨m', hcreate, hhas⟩ := @createTunnel_made m.forgetTunnel p.recreate hmade
        exact .inl ⟨hgone, rfl, m', by rw [hcreate], hhas⟩
      | false =>
        obtain ⟨m', message, hcreate⟩ := @createTunnel_not_made m.forgetTunnel p.recreate hmade
        exact .inr (.inr ⟨by simp, hreach, m', .threw message, by rw [hcreate]⟩)
    · have hlost : (!p.host.alive && p.host.missing) = false := by
        simpa [Pass.hostGone, hurl] using hgone
      have hnot : ¬ (p.hostGone = true ∧ p.recreate.made = true) := fun h => hgone h.1
      simp only [hlost, Bool.false_eq_true, if_false]
      cases hid : m.tunnelId with
      | none =>
        rw [hid] at htunnel
        cases htunnel
      | some id =>
        cases hknown : p.host.alive && truthy m.cluster with
        | true =>
          have hcluster := (Bool.and_eq_true_iff.mp hknown).2
          rcases @verifyTunnel_cases m p r _ (.inr hcluster) with ⟨hp, hr, h⟩ | ⟨hp, h⟩
          · exact .inr (.inl ⟨hp, hr, _, h, rfl⟩)
          · exact .inr (.inr ⟨hnot, hp, _, _, h⟩)
        | false =>
          refine .inr (.inr ⟨hnot, ?_, _, _, rfl⟩)
          rintro ⟨h, -⟩
          simp only [unreachable, hurl, Option.isSome_none, Bool.false_or, Bool.and_eq_true] at h
          rw [h.1.1, h.2] at hknown
          cases hknown

/-- A pass is tried again, with a new count. -/
def Retry (p : Pass) (answer : Create) (r r' : Nat) : Prop :=
  p.lostAtPort = true ∧ p.recreate.made = true ∧ r' = r ∨
    p.lostAtHost = true ∧ p.recreate.made = true ∧ r' = 0 ∨
    p.unverified = true ∧ (p.host.url.isSome = true ∨ answer.placed = true) ∧
      r < maxTunnelRecreations ∧ r' = r + 1

/-- What the tunnel of the next pass comes of. -/
def Pass.leaves (p next : Pass) : Create := if p.unverified then next.create else p.recreate

/-- The tunnel of a pass: there already, or still to be created. -/
def Based (m : Manager) (p : Pass) (answer : Create) : Prop :=
  Has m answer ∨ truthy m.tunnelId = false ∧ answer = p.create

theorem withTunnel_spec (h : Has m answer) :
    (∃ r' m', m.withTunnel port r p = (m', .again r') ∧ Retry p answer r r' ∧
        ∀ next, Based m' next (p.leaves next)) ∨
      (∀ r', ¬ Retry p answer r r') ∧ ∃ m' outcome, m.withTunnel port r p = (m', .ended outcome) := by
  unfold Manager.withTunnel
  rw [if_pos h.tunnel]
  have htunnel : truthy (m.deriveCluster.issue 1).tunnelId = true :=
    (congrArg truthy deriveCluster_tunnelId).trans h.tunnel
  have hcluster : truthy (m.deriveCluster.issue 1).cluster = answer.placed :=
    truthy_deriveCluster.trans h.cluster
  cases hport : p.portCreate with
  | failed detail =>
    refine .inr ⟨?_, _, _, rfl⟩
    intro r'
    simp [Retry, Pass.lostAtPort, Pass.lostAtHost, Pass.unverified, hport]
  | missing =>
    have hunverified : p.unverified = false := by simp [Pass.unverified, hport]
    have hlost : p.lostAtPort = true := by simp [Pass.lostAtPort, hport]
    cases hmade : p.recreate.made with
    | true =>
      obtain ⟨m', hcreate, hhas⟩ :=
        @createTunnel_made (m.deriveCluster.issue 1).forgetTunnel p.recreate hmade
      refine .inl ⟨r, m', by simp only [hcreate], .inl ⟨hlost, hmade, rfl⟩, fun next => .inl ?_⟩
      rw [Pass.leaves, hunverified]
      exact hhas
    | false =>
      obtain ⟨m', message, hcreate⟩ :=
        @createTunnel_not_made (m.deriveCluster.issue 1).forgetTunnel p.recreate hmade
      refine .inr ⟨?_, m', .threw message, by simp only [hcreate]⟩
      intro r'
      simp [Retry, Pass.lostAtHost, hunverified, hport, hmade]
  | mapped =>
    have hport' : p.lostAtPort = false := by simp [Pass.lostAtPort, hport]
    have hhost : p.lostAtHost = p.hostGone := by simp [Pass.lostAtHost, hport]
    have hunverified : p.unverified = (p.host.alive && !p.verified) := by
      simp [Pass.unverified, hport]
    have hunreachable : unreachable p answer.placed = true ↔
        p.unverified = true ∧ (p.host.url.isSome = true ∨ answer.placed = true) := by
      rw [unreachable, hunverified, Bool.and_eq_true, Bool.or_eq_true]
    have hcases := @finishStart_cases
      (((m.deriveCluster.issue 1).pruneStalePorts port p.ports).issue 1) p port r htunnel
    rw [show truthy (((m.deriveCluster.issue 1).pruneStalePorts port p.ports).issue 1).cluster =
      answer.placed from hcluster] at hcases
    rcases hcases with ⟨hgone, hmade, m', h', hhas⟩ | ⟨hreach, hr, m', h', hnone⟩ |
      ⟨hgone, hreach, m', outcome, h'⟩
    · refine .inl ⟨0, m', h', .inr (.inl ⟨hhost.trans hgone, hmade, rfl⟩), fun next => .inl ?_⟩
      have halive : p.host.alive = false := by
        simp only [Pass.hostGone, Bool.and_eq_true, Bool.not_eq_true'] at hgone
        exact hgone.1.2
      rw [Pass.leaves, hunverified, halive]
      exact hhas
    · obtain ⟨hnot, hknown⟩ := hunreachable.mp hreach
      refine .inl ⟨r + 1, m', h', .inr (.inr ⟨hnot, hknown, hr, rfl⟩), fun next => .inr ?_⟩
      rw [Pass.leaves, hnot, hnone]
      exact ⟨rfl, rfl⟩
    · refine .inr ⟨?_, m', outcome, h'⟩
      rintro r' (⟨hlost, -⟩ | ⟨hlost, hmade, -⟩ | ⟨hnot, hknown, hr, -⟩)
      · rw [hport'] at hlost
        cases hlost
      · exact hgone ⟨hhost ▸ hlost, hmade⟩
      · exact hreach ⟨hunreachable.mpr ⟨hnot, hknown⟩, hr⟩

/-- A pass that ends, or is tried again with the tunnel it leaves. -/
theorem startHost_spec (h : Based m p answer) :
    (∃ r' m', m.startHost port r p = (m', .again r') ∧ answer.made = true ∧ Retry p answer r r' ∧
        ∀ next, Based m' next (p.leaves next)) ∨
      (∀ r', ¬ (answer.made = true ∧ Retry p answer r r')) ∧
        ∃ m' outcome, m.startHost port r p = (m', .ended outcome) := by
  unfold Manager.startHost
  rcases h with h | ⟨hnone, rfl⟩
  · rw [if_pos h.tunnel]
    rcases withTunnel_spec h with ⟨r', m', h', hretry, hbased⟩ | ⟨hnot, hended⟩
    · exact .inl ⟨r', m', h', h.made, hretry, hbased⟩
    · exact .inr ⟨fun r' hretry => hnot r' hretry.2, hended⟩
  · rw [if_neg (by rw [hnone]; decide)]
    cases hmade : p.create.made with
    | false =>
      obtain ⟨m', message, hcreate⟩ := @createTunnel_not_made m p.create hmade
      exact .inr ⟨fun r' hretry => absurd hretry.1 (by decide), m', .threw message,
        by simp only [hcreate]⟩
    | true =>
      obtain ⟨m', hcreate, hhas⟩ := @createTunnel_made m p.create hmade
      simp only [hcreate]
      rcases withTunnel_spec hhas with ⟨r', m'', h', hretry, hbased⟩ | ⟨hnot, hended⟩
      · exact .inl ⟨r', m'', h', trivial, hretry, hbased⟩
      · exact .inr ⟨fun r' hretry => hnot r' hretry.2, hended⟩

end

/-! ## All passes -/

section

variable {m : Manager} {passes : Nat → Pass} {port k r : Nat}

theorem based_source : Based m (passes 0) (source m passes 0) := by
  rw [source]
  split
  · next h => exact .inl ⟨h, h, rfl⟩
  · next h => exact .inr ⟨by simpa using h, rfl⟩

/-- Recreations behind a pass, if it is tried again. -/
def nextCount (p : Pass) (r : Nat) : Nat :=
  if p.lostAtPort then r else if p.lostAtHost then 0 else r + 1

def count (passes : Nat → Pass) : Nat → Nat
  | 0 => 0
  | k + 1 => nextCount (passes k) (count passes k)

theorem lost_once {p : Pass} (h : p.lostAtPort = true) : p.lostAtHost = false := by
  have hport : p.portCreate = .missing := by simpa [Pass.lostAtPort] using h
  simp [Pass.lostAtHost, hport]

theorem not_lost_of_unverified {p : Pass} (h : p.unverified = true) :
    p.lostAtPort = false ∧ p.lostAtHost = false := by
  simp only [Pass.unverified, Bool.and_eq_true, decide_eq_true_eq] at h
  constructor
  · simp [Pass.lostAtPort, h.1.1]
  · simp [Pass.lostAtHost, Pass.hostGone, h.1.2]

theorem retry_count {p : Pass} {answer : Create} {r' : Nat} (h : Retry p answer r r') :
    r' = nextCount p r := by
  rcases h with ⟨hlost, -, rfl⟩ | ⟨hlost, -, rfl⟩ | ⟨hnot, -, -, rfl⟩
  · simp [nextCount, hlost]
  · have hport : p.lostAtPort = false := by
      by_contra hport
      rw [lost_once (Bool.not_eq_false _ ▸ hport)] at hlost
      cases hlost
    simp [nextCount, hport, hlost]
  · simp [nextCount, not_lost_of_unverified hnot]

/-- A pass of an endless call. -/
def Retried (m : Manager) (passes : Nat → Pass) (k : Nat) : Prop :=
  (source m passes k).made = true ∧
    Retry (passes k) (source m passes k) (count passes k) (count passes (k + 1))

/-- No end within any number of passes. -/
def Forever (port : Nat) (passes : Nat → Pass) (k : Nat) (m : Manager) : Prop :=
  ∀ fuel, m.startHosts port passes fuel k (count passes k) = none

variable {m₀ : Manager}

theorem forever_step (hbased : Based m (passes k) (source m₀ passes k))
    (h : Forever port passes k m) : Retried m₀ passes k ∧
      ∃ m', Based m' (passes (k + 1)) (source m₀ passes (k + 1)) ∧ Forever port passes (k + 1) m' := by
  rcases @startHost_spec _ _ port (count passes k) _ hbased with
    ⟨r', m', h', hmade, hretry, hnext⟩ | ⟨-, m', outcome, h'⟩
  · obtain rfl : r' = count passes (k + 1) := retry_count hretry
    refine ⟨⟨hmade, hretry⟩, m', hnext (passes (k + 1)), fun fuel => ?_⟩
    have hfuel := h (fuel + 1)
    rw [Manager.startHosts] at hfuel
    simp only [h'] at hfuel
    exact hfuel
  · have hone := h 1
    rw [Manager.startHosts] at hone
    simp only [h'] at hone
    cases hone

theorem retried_of_forever (h : Forever port passes 0 m) (k : Nat) : Retried m passes k := by
  have hreach : ∃ m', Based m' (passes k) (source m passes k) ∧ Forever port passes k m' := by
    induction k with
    | zero => exact ⟨m, based_source, h⟩
    | succ k ih =>
      obtain ⟨m', hbased, hforever⟩ := ih
      exact (forever_step hbased hforever).2
  obtain ⟨m', hbased, hforever⟩ := hreach
  exact (forever_step hbased hforever).1

theorem forever_of_retried (h : ∀ k, Retried m₀ passes k) (fuel : Nat) :
    ∀ k m, Based m (passes k) (source m₀ passes k) →
      m.startHosts port passes fuel k (count passes k) = none := by
  induction fuel with
  | zero => exact fun k m _ => rfl
  | succ fuel ih =>
    intro k m hbased
    rcases @startHost_spec _ _ port (count passes k) _ hbased with
      ⟨r', m', h', -, hretry, hnext⟩ | ⟨hnot, -⟩
    · obtain rfl : r' = count passes (k + 1) := retry_count hretry
      rw [Manager.startHosts]
      simp only [h']
      exact ih (k + 1) m' (hnext (passes (k + 1)))
    · exact absurd (h k) (hnot _)

/-! ## Endless calls -/

/-- Behind a host that could not be reached, the count stays up until a host reports its tunnel
missing. -/
theorem count_pos {i j : Nat} (hi : (passes i).unverified = true)
    (hbetween : ∀ l, i < l → l < j → (passes l).lostAtHost = false) (hij : i < j) :
    0 < count passes j := by
  induction j with
  | zero => exact absurd hij (Nat.not_lt_zero i)
  | succ j ih =>
    rw [count, nextCount]
    by_cases heq : i = j
    · subst heq
      obtain ⟨hport, hhost⟩ := not_lost_of_unverified hi
      simp [hport, hhost]
    · have hlt : i < j := by omega
      have hpos := ih (fun l hil hlj => hbetween l hil (by omega)) hlt
      simp only [hbetween j hlt (Nat.lt_succ_self j), Bool.false_eq_true, if_false]
      split_ifs <;> omega

theorem unverified_of_count_pos (h : ∀ k, (passes k).lostAtPort = true ∨
    (passes k).lostAtHost = true ∨ (passes k).unverified = true) (hpos : 0 < count passes k) :
    ∃ i, i < k ∧ (passes i).unverified = true ∧
      ∀ l, i < l → l < k → (passes l).lostAtHost = false := by
  induction k with
  | zero => exact absurd hpos (Nat.lt_irrefl 0)
  | succ k ih =>
    rw [count, nextCount] at hpos
    split_ifs at hpos with hport hhost
    · obtain ⟨i, hik, hi, hbetween⟩ := ih hpos
      refine ⟨i, by omega, hi, fun l hil hlk => ?_⟩
      by_cases heq : l = k
      · subst heq
        exact lost_once hport
      · exact hbetween l hil (by omega)
    · exact absurd hpos (Nat.lt_irrefl 0)
    · refine ⟨k, Nat.lt_succ_self k, ?_, fun l hkl hlk => absurd hkl (by omega)⟩
      rcases h k with hk | hk | hk
      · exact absurd hk hport
      · exact absurd hk hhost
      · exact hk

theorem endless_iff : (∀ k, Retried m passes k) ↔ Endless m passes := by
  constructor
  · intro h
    refine ⟨fun k => (h k).1, fun k => ?_, fun i j hij hi hj => ?_⟩
    · rcases (h k).2 with ⟨hlost, -⟩ | ⟨hlost, -⟩ | ⟨hnot, hknown, -⟩
      · exact .inl hlost
      · exact .inr (.inl hlost)
      · exact .inr (.inr ⟨hnot, hknown⟩)
    · by_contra hnone
      have hbetween : ∀ l, i < l → l < j → (passes l).lostAtHost = false := by
        intro l hil hlj
        by_contra hl
        exact hnone ⟨l, hil, hlj, by simpa using hl⟩
      have hpos := count_pos hi hbetween hij
      obtain ⟨hport, hhost⟩ := not_lost_of_unverified hj
      rcases (h j).2 with ⟨hlost, -⟩ | ⟨hlost, -⟩ | ⟨-, -, hzero, -⟩
      · rw [hport] at hlost
        cases hlost
      · rw [hhost] at hlost
        cases hlost
      · rw [maxTunnelRecreations] at hzero
        omega
  · intro h k
    have hsource := h.created (k + 1)
    refine ⟨h.created k, ?_⟩
    rcases h.retried k with hport | hhost | ⟨hnot, hknown⟩
    · have hunverified : (passes k).unverified = false := by
        by_contra hk
        rw [(not_lost_of_unverified (Bool.not_eq_false _ ▸ hk)).1] at hport
        cases hport
      rw [source, hunverified] at hsource
      exact .inl ⟨hport, hsource, by simp [count, nextCount, hport]⟩
    · have hunverified : (passes k).unverified = false := by
        by_contra hk
        rw [(not_lost_of_unverified (Bool.not_eq_false _ ▸ hk)).2] at hhost
        cases hhost
      have hport : (passes k).lostAtPort = false := by
        by_contra hk
        rw [lost_once (Bool.not_eq_false _ ▸ hk)] at hhost
        cases hhost
      rw [source, hunverified] at hsource
      exact .inr (.inl ⟨hhost, hsource, by simp [count, nextCount, hport, hhost]⟩)
    · have hzero : count passes k < maxTunnelRecreations := by
        by_contra hcount
        have hkind (j : Nat) : (passes j).lostAtPort = true ∨ (passes j).lostAtHost = true ∨
            (passes j).unverified = true := (h.retried j).imp_right (Or.imp_right And.left)
        have hpos : 0 < count passes k := by
          rw [maxTunnelRecreations] at hcount
          omega
        obtain ⟨i, hik, hi, hbetween⟩ := unverified_of_count_pos hkind hpos
        obtain ⟨l, hil, hlk, hl⟩ := h.spaced i k hik hi hnot
        rw [hbetween l hil hlk] at hl
        cases hl
      obtain ⟨hport, hhost⟩ := not_lost_of_unverified hnot
      exact .inr (.inr ⟨hnot, hknown, hzero, by simp [count, nextCount, hport, hhost]⟩)

theorem forever_iff : Forever port passes 0 m ↔ Endless m passes := by
  rw [← endless_iff]
  exact ⟨retried_of_forever, fun h fuel => forever_of_retried h fuel 0 m based_source⟩

theorem endless_issue {n : Nat} : Endless (m.issue n) passes ↔ Endless m passes := by
  have hsource (k : Nat) : source (m.issue n) passes k = source m passes k := by
    cases k <;> rfl
  constructor
  · intro h
    exact ⟨fun k => hsource k ▸ h.created k, fun k => hsource k ▸ h.retried k, h.spaced⟩
  · intro h
    exact ⟨fun k => hsource k ▸ h.created k, fun k => (hsource k).symm ▸ h.retried k, h.spaced⟩

/-- The answers that keep a call going: the CLI is there and logged in, no host runs yet, and every
pass is tried again. -/
def KeptUp (hosted : Option String) (cli : Cli) (m : Manager) : Prop :=
  cli.version = true ∧ cli.authenticated = true ∧ hosted = none ∧ Endless m cli.passes

/-- A call that is not kept up ends, after as many commands as it counts. -/
def Ends (port : Nat) (hosted : Option String) (cli : Cli) (m : Manager) : Prop :=
  ∃ fuel m' outcome, m.ensure port hosted cli fuel = some (m', outcome)

theorem not_ends_iff {hosted : Option String} {cli : Cli} :
    ¬ Ends port hosted cli m ↔ KeptUp hosted cli m := by
  by_cases hready : cli.version = true ∧ cli.authenticated = true ∧ hosted = none
  · obtain ⟨hversion, hauth, rfl⟩ := hready
    have hensure (fuel : Nat) : m.ensure port none cli fuel =
        ((m.issue 1).issue 1).startHosts port cli.passes fuel 0 0 := by
      simp [Manager.ensure, hversion, hauth]
    have hforever : ¬ Ends port none cli m ↔ Forever port cli.passes 0 ((m.issue 1).issue 1) := by
      simp only [Ends, hensure, not_exists, Forever, Option.eq_none_iff_forall_ne_some, Prod.forall]
      rfl
    rw [hforever, forever_iff, endless_issue, endless_issue]
    exact ⟨fun h => ⟨hversion, hauth, rfl, h⟩, fun h => h.2.2.2⟩
  · have hends : Ends port hosted cli m := by
      unfold Ends Manager.ensure
      split_ifs with hversion hauth
      · cases hosted with
        | none => exact absurd ⟨hversion, hauth, rfl⟩ hready
        | some url => exact ⟨0, _, _, rfl⟩
      · exact ⟨0, _, _, rfl⟩
      · exact ⟨0, _, _, rfl⟩
    exact iff_of_false (not_not_intro hends) fun h => hready ⟨h.1, h.2.1, h.2.2.1⟩

end

/-- A call of `ensure` ends unless the CLI keeps it up. -/
theorem ensure_ends_iff (port : Nat) (hosted : Option String) (cli : Cli) (m : Manager) :
    Ends port hosted cli m ↔ ¬ KeptUp hosted cli m := by
  rw [← not_ends_iff, not_not]

/-- Tunnels can be created, and each is missing as soon as a port is to be mapped on it. -/
def missingTunnels : Cli where
  version := true
  authenticated := true
  passes _ := {
    create := .output (some "quiet-fox.euw") none
    portCreate := .missing
    ports := none
    host := ⟨none, false, false⟩
    verified := false
    recreate := .output (some "quiet-fox.euw") none }

theorem ensure_goes_on :
    ¬ ∀ (port : Nat) (hosted : Option String) (cli : Cli) (m : Manager), Ends port hosted cli m := by
  intro h
  have hcreate : truthy (some "quiet-fox.euw") = true := by decide
  refine not_ends_iff.mpr ⟨rfl, rfl, rfl, fun k => ?_, fun k => .inl rfl, fun i j _ hi => ?_⟩
    (h 3131 none missingTunnels ⟨none, none, none, 0⟩)
  · cases k with
    | zero => exact hcreate
    | succ k => exact hcreate
  · cases hi

end Climon.Server.TunnelSetup
