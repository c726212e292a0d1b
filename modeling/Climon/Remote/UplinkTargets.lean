import Climon.Lib.DecimalText
import Climon.Lib.KeyedTasks
import Climon.Remote.Sanitize
import Climon.Remote.SpawnAuth
import Mathlib.Data.List.Sort
import Mathlib.Data.String.Basic

namespace Climon.Remote.UplinkTargets

open Climon.Lib.DecimalText Climon.Lib.KeyedTasks Climon.Lib.Utf8
  Climon.Remote.Sanitize Climon.Remote.SpawnAuth

/-!
# The targets of an uplink

Explicit targets and the discovered tunnels of other machines; in each round of the supervisor the
bridges that run are reconciled with them.
-/

inductive UplinkTargetSpec where
  | direct (host : String) (port : UInt16)
  | tunnel (tunnelId : String)
  deriving DecidableEq, Repr

structure DiscoveredHost where
  tunnelId : String
  hostConnections : UInt64
  hostname : Option String
  clientId : Option String
  deriving DecidableEq, Repr

structure ComputeTargetsInput where
  discoverEnabled : Bool
  ownInstallId : Option String
  explicitHost : Option (String × UInt16)
  explicitTunnelId : Option String
  discovered : List DiscoveredHost
  deriving DecidableEq, Repr

def ingestTunnelLabel : String := "climon-ingest"

section

-- SHA-256 is what the crate `sha2` supplies; nothing depends on which function it is.
variable (sha256 : List UInt8 → List UInt8)

def deriveIngestTunnelId (installId : String) : String :=
  let digest := sha256 (asBytes ingestTunnelLabel ++ asBytes installId)
  ingestTunnelLabel ++ "-" ++ String.ofList ((hexEncode digest).toList.take 20)

/-- The id itself, or the id with a cluster suffix. -/
def isOwn (ownId : Option String) (tunnelId : String) : Bool :=
  match ownId with
  | none => false
  | some own => tunnelId == own || (own ++ ".").toList.isPrefixOf tunnelId.toList

def byTunnelId (a b : DiscoveredHost) : Bool := a.tunnelId ≤ b.tunnelId

def addDiscovered (ownId : Option String) : List String → List DiscoveredHost → List UplinkTargetSpec
  | _, [] => []
  | seen, host :: hosts =>
    if isOwn ownId host.tunnelId then addDiscovered ownId seen hosts
    else if host.tunnelId ∈ seen then addDiscovered ownId seen hosts
    else .tunnel host.tunnelId :: addDiscovered ownId (host.tunnelId :: seen) hosts

def computeTargets (input : ComputeTargetsInput) : List UplinkTargetSpec :=
  let explicit := (input.explicitHost.map fun (host, port) => .direct host port).toList ++
    (input.explicitTunnelId.map .tunnel).toList
  if input.discoverEnabled then
    explicit ++ addDiscovered (input.ownInstallId.map (deriveIngestTunnelId sha256))
      input.explicitTunnelId.toList (input.discovered.mergeSort byTunnelId)
  else explicit

/-- What a round of the supervisor looks up. -/
structure Round where
  peerTarget : Option (String × UInt16)
  input : ComputeTargetsInput
  deriving DecidableEq, Repr

def desired (round : Round) : List UplinkTargetSpec :=
  (round.peerTarget.map fun (host, port) => .direct host port).toList ++
    computeTargets sha256 round.input

def targetKey : UplinkTargetSpec → String
  | .tunnel tunnelId => "tunnel:" ++ tunnelId
  | .direct host port => "direct:" ++ host ++ ":" ++ port.toNat.repr

abbrev TargetSupervisor := Supervisor String UplinkTargetSpec

def reconcileTargets : TargetSupervisor → List UplinkTargetSpec → TargetSupervisor :=
  reconcile targetKey

def runRounds (rounds : List Round) : TargetSupervisor :=
  rounds.foldl (fun s round => reconcileTargets s (desired sha256 round)) .empty

theorem runRounds_eq (rounds : List Round) :
    runRounds sha256 rounds = after targetKey (rounds.map (desired sha256)) := by
  rw [after, List.foldl_map]
  rfl

end

/-! ## Keys -/

theorem colon_notMem_repr (n : Nat) : ':' ∉ n.repr.toList := by
  intro h
  exact absurd (digits_repr n ':' h) (by decide)

/-- The port is what follows the last colon. -/
theorem directKey_injective {host host' : String} {port port' : UInt16}
    (h : targetKey (.direct host port) = targetKey (.direct host' port')) :
    host = host' ∧ port = port' := by
  have hlist := congrArg String.toList h
  simp only [targetKey, String.toList_append, List.append_assoc, List.append_cancel_left_eq] at hlist
  have hback := congrArg List.reverse hlist
  have hcolon : ":".toList = [':'] := by simp
  simp only [hcolon, List.reverse_append, List.reverse_cons, List.append_assoc,
    List.singleton_append] at hback
  have hfree : ∀ n : Nat, ':' ∉ n.repr.toList.reverse := fun n hmem =>
    colon_notMem_repr n (List.mem_reverse.mp hmem)
  obtain ⟨hport, hhost⟩ := append_cons_inj (hfree port.toNat) (hfree port'.toNat) hback
  have hnat := repr_injective (String.toList_inj.mp (List.reverse_injective hport))
  exact ⟨String.toList_inj.mp (List.reverse_injective hhost), UInt16.toNat_inj.mp hnat⟩

/-- Distinct targets have distinct keys. -/
theorem targetKey_injective : Function.Injective targetKey := by
  intro a b h
  cases a with
  | direct host port =>
    cases b with
    | direct host' port' =>
      obtain ⟨hhost, hport⟩ := directKey_injective h
      rw [hhost, hport]
    | tunnel tunnelId =>
      have hlist := congrArg String.toList h
      simp [targetKey] at hlist
  | tunnel tunnelId =>
    cases b with
    | direct host port =>
      have hlist := congrArg String.toList h
      simp [targetKey] at hlist
    | tunnel tunnelId' =>
      have hlist := congrArg String.toList h
      simp only [targetKey, String.toList_append] at hlist
      rw [String.toList_inj.mp (List.append_cancel_left hlist)]

/-! ## One list of targets -/

section

variable {sha256 : List UInt8 → List UInt8} {ownId : Option String}

/-- A host brings a target unless the target is there already or the host is this machine. -/
theorem mem_addDiscovered {seen : List String} {hosts : List DiscoveredHost}
    {spec : UplinkTargetSpec} :
    spec ∈ addDiscovered ownId seen hosts ↔ ∃ host ∈ hosts, spec = .tunnel host.tunnelId ∧
      host.tunnelId ∉ seen ∧ isOwn ownId host.tunnelId = false := by
  induction hosts generalizing seen with
  | nil => simp [addDiscovered]
  | cons host hosts ih =>
    rw [addDiscovered, List.exists_mem_cons_iff]
    split
    next hown =>
      rw [ih, hown]
      simp
    next hown =>
      rw [Bool.not_eq_true] at hown
      split
      next hseen =>
        rw [ih]
        simp [hseen]
      next hnew =>
        rw [List.mem_cons, ih]
        constructor
        · rintro (rfl | ⟨other, hother, rfl, hfresh, hnot⟩)
          · exact .inl ⟨rfl, hnew, hown⟩
          · exact .inr ⟨other, hother, rfl, fun h => hfresh (List.mem_cons_of_mem _ h), hnot⟩
        · rintro (⟨rfl, -, -⟩ | ⟨other, hother, rfl, hfresh, hnot⟩)
          · exact .inl rfl
          · by_cases hsame : other.tunnelId = host.tunnelId
            · exact .inl (by rw [hsame])
            · refine .inr ⟨other, hother, rfl, ?_, hnot⟩
              rw [List.mem_cons, not_or]
              exact ⟨hsame, hfresh⟩

theorem nodup_addDiscovered (seen : List String) (hosts : List DiscoveredHost) :
    (addDiscovered ownId seen hosts).Nodup := by
  induction hosts generalizing seen with
  | nil => exact List.nodup_nil
  | cons host hosts ih =>
    rw [addDiscovered]
    split
    · exact ih seen
    · split
      · exact ih seen
      · refine List.nodup_cons.mpr ⟨fun hmem => ?_, ih _⟩
        obtain ⟨other, -, heq, hnew, -⟩ := mem_addDiscovered.mp hmem
        rw [UplinkTargetSpec.tunnel.inj heq] at hnew
        exact hnew List.mem_cons_self

/-- Only the ids of the hosts matter. -/
theorem addDiscovered_congr {seen : List String} {hosts hosts' : List DiscoveredHost}
    (h : hosts.map DiscoveredHost.tunnelId = hosts'.map DiscoveredHost.tunnelId) :
    addDiscovered ownId seen hosts = addDiscovered ownId seen hosts' := by
  induction hosts generalizing seen hosts' with
  | nil =>
    rw [List.map_nil, eq_comm, List.map_eq_nil_iff] at h
    rw [h]
  | cons host hosts ih =>
    cases hosts' with
    | nil => cases h
    | cons host' hosts' =>
      obtain ⟨hid, hrest⟩ := List.cons.inj h
      simp only [addDiscovered, hid, ih hrest]

theorem sorted_ids (hosts : List DiscoveredHost) :
    ((hosts.mergeSort byTunnelId).map DiscoveredHost.tunnelId).Pairwise (· ≤ ·) := by
  rw [List.pairwise_map]
  refine (List.pairwise_mergeSort ?_ ?_ hosts).imp fun h => of_decide_eq_true h
  · intro a b c hab hbc
    exact decide_eq_true ((of_decide_eq_true hab).trans (of_decide_eq_true hbc))
  · intro a b
    simp only [Bool.or_eq_true, decide_eq_true_eq]
    exact le_total a.tunnelId b.tunnelId

/-- Sorting makes the order in which hosts were discovered irrelevant. -/
theorem sorted_ids_eq {hosts hosts' : List DiscoveredHost} (h : hosts.Perm hosts') :
    (hosts.mergeSort byTunnelId).map DiscoveredHost.tunnelId =
      (hosts'.mergeSort byTunnelId).map DiscoveredHost.tunnelId := by
  refine List.Perm.eq_of_pairwise (fun a b _ _ hab hba => le_antisymm hab hba) (sorted_ids hosts)
    (sorted_ids hosts') ?_
  refine List.Perm.map _ ?_
  exact (List.mergeSort_perm hosts _).trans (h.trans (List.mergeSort_perm hosts' _).symm)

end

/-- What holds of the targets that one input gives. -/
structure TargetLaws (sha256 : List UInt8 → List UInt8) (input : ComputeTargetsInput) : Prop where
  nodup : (computeTargets sha256 input).Nodup
  explicitHost : ∀ host port, input.explicitHost = some (host, port) →
    .direct host port ∈ computeTargets sha256 input
  explicitTunnel : ∀ tunnelId, input.explicitTunnelId = some tunnelId →
    .tunnel tunnelId ∈ computeTargets sha256 input
  discovered : ∀ tunnelId, input.explicitTunnelId ≠ some tunnelId →
    (.tunnel tunnelId ∈ computeTargets sha256 input ↔ input.discoverEnabled = true ∧
      (∃ host ∈ input.discovered, host.tunnelId = tunnelId) ∧
        ∀ installId, input.ownInstallId = some installId →
          tunnelId ≠ deriveIngestTunnelId sha256 installId ∧
            ∀ cluster, tunnelId ≠ deriveIngestTunnelId sha256 installId ++ "." ++ cluster)
  unordered : ∀ discovered, discovered.Perm input.discovered →
    computeTargets sha256 { input with discovered := discovered } = computeTargets sha256 input

theorem isOwn_iff (ownId : Option String) (tunnelId : String) :
    isOwn ownId tunnelId = false ↔ ∀ own, ownId = some own →
      tunnelId ≠ own ∧ ∀ cluster, tunnelId ≠ own ++ "." ++ cluster := by
  cases ownId with
  | none => simp [isOwn]
  | some own =>
    have hcluster : (own ++ ".").toList <+: tunnelId.toList ↔
        ∃ cluster, tunnelId = own ++ "." ++ cluster := by
      constructor
      · rintro ⟨rest, hrest⟩
        refine ⟨String.ofList rest, ?_⟩
        rw [← String.toList_inj, ← hrest]
        simp only [String.toList_append, String.toList_ofList]
      · rintro ⟨cluster, rfl⟩
        have hlist : (own ++ "." ++ cluster).toList = (own ++ ".").toList ++ cluster.toList :=
          String.toList_append
        rw [hlist]
        exact List.prefix_append _ _
    simp only [isOwn, Bool.or_eq_false_iff, beq_eq_false_iff_ne, Option.some.injEq, forall_eq']
    refine and_congr_right fun _ => ?_
    rw [← Bool.not_eq_true, List.isPrefixOf_iff_prefix, hcluster, not_exists]

section

variable {sha256 : List UInt8 → List UInt8}

/-- A target is given explicitly, or discovered on another machine. -/
theorem mem_computeTargets {input : ComputeTargetsInput} {spec : UplinkTargetSpec} :
    spec ∈ computeTargets sha256 input ↔
      (∃ host port, input.explicitHost = some (host, port) ∧ spec = .direct host port) ∨
        (∃ tunnelId, input.explicitTunnelId = some tunnelId ∧ spec = .tunnel tunnelId) ∨
          input.discoverEnabled = true ∧ ∃ host ∈ input.discovered, spec = .tunnel host.tunnelId ∧
            input.explicitTunnelId ≠ some host.tunnelId ∧
              isOwn (input.ownInstallId.map (deriveIngestTunnelId sha256)) host.tunnelId = false := by
  have hexplicit : spec ∈ (input.explicitHost.map fun (host, port) =>
        UplinkTargetSpec.direct host port).toList ++ (input.explicitTunnelId.map .tunnel).toList ↔
      (∃ host port, input.explicitHost = some (host, port) ∧ spec = .direct host port) ∨
        ∃ tunnelId, input.explicitTunnelId = some tunnelId ∧ spec = .tunnel tunnelId := by
    simp [eq_comm]
  have hsorted : ∀ host, host ∈ input.discovered.mergeSort byTunnelId ↔ host ∈ input.discovered :=
    fun host => List.mem_mergeSort
  unfold computeTargets
  dsimp only
  split
  next henabled =>
    rw [List.mem_append, hexplicit, mem_addDiscovered, henabled, or_assoc]
    simp only [hsorted, Option.mem_toList, true_and]
  next henabled =>
    rw [hexplicit]
    simp [henabled]

theorem nodup_computeTargets (input : ComputeTargetsInput) :
    (computeTargets sha256 input).Nodup := by
  have hexplicit : ((input.explicitHost.map fun (host, port) =>
      UplinkTargetSpec.direct host port).toList ++
        (input.explicitTunnelId.map UplinkTargetSpec.tunnel).toList).Nodup := by
    cases input.explicitHost <;> cases input.explicitTunnelId <;> simp
  unfold computeTargets
  dsimp only
  split
  · refine List.nodup_append.mpr ⟨hexplicit, nodup_addDiscovered _ _, ?_⟩
    rintro spec hspec _ hdiscovered rfl
    obtain ⟨host, -, rfl, hnew, -⟩ := mem_addDiscovered.mp hdiscovered
    have hsame : input.explicitTunnelId = some host.tunnelId := by simpa using hspec
    rw [hsame] at hnew
    exact hnew (List.mem_singleton_self _)
  · exact hexplicit

theorem target_laws (input : ComputeTargetsInput) : TargetLaws sha256 input where
  nodup := nodup_computeTargets input
  explicitHost host port h := mem_computeTargets.mpr (.inl ⟨host, port, h, rfl⟩)
  explicitTunnel tunnelId h := mem_computeTargets.mpr (.inr (.inl ⟨tunnelId, h, rfl⟩))
  discovered tunnelId h := by
    have hown := isOwn_iff (input.ownInstallId.map (deriveIngestTunnelId sha256)) tunnelId
    simp only [Option.map_eq_some_iff, forall_exists_index, and_imp, forall_apply_eq_imp_iff₂]
      at hown
    rw [mem_computeTargets, ← hown]
    constructor
    · rintro (⟨host, port, -, heq⟩ | ⟨tunnelId', h', heq⟩ | ⟨henabled, host, hhost, heq, -, hforeign⟩)
      · cases heq
      · cases heq
        exact absurd h' h
      · cases heq
        exact ⟨henabled, ⟨host, hhost, rfl⟩, hforeign⟩
    · rintro ⟨henabled, ⟨host, hhost, rfl⟩, hforeign⟩
      exact .inr (.inr ⟨henabled, host, hhost, rfl, h, hforeign⟩)
  unordered discovered h := by
    have hsame : addDiscovered (input.ownInstallId.map (deriveIngestTunnelId sha256))
          input.explicitTunnelId.toList (discovered.mergeSort byTunnelId) =
        addDiscovered (input.ownInstallId.map (deriveIngestTunnelId sha256))
          input.explicitTunnelId.toList (input.discovered.mergeSort byTunnelId) :=
      addDiscovered_congr (sorted_ids_eq h)
    simp only [computeTargets, hsame]

/-! ## A run of rounds -/

/-- The round after the front ones started the bridge. -/
def StartedIn (sha256 : List UInt8 → List UInt8) (front : List Round) (round : Round)
    (handle : Handle UplinkTargetSpec) : Prop :=
  handle ∈ (runRounds sha256 (front ++ [round])).started ∧
    handle ∉ (runRounds sha256 front).started

/-- What holds after a run. A bridge runs while its target is desired in every round since it was
started, and is cancelled in the first round that does not desire it. -/
structure RunLaws (sha256 : List UInt8 → List UInt8) (rounds : List Round) : Prop where
  keys : ∀ front round, rounds = front ++ [round] →
    ∀ key, key ∈ (runRounds sha256 rounds).keys ↔ key ∈ (desired sha256 round).map targetKey
  single : (runRounds sha256 rounds).keys.Nodup
  numbered : ((runRounds sha256 rounds).started.map Handle.id).Nodup
  once : (runRounds sha256 rounds).cancelled.Nodup
  known : ∀ key handle, (key, handle) ∈ (runRounds sha256 rounds).active →
    key = targetKey handle.spec ∧ handle ∈ (runRounds sha256 rounds).started
  started : ∀ handle ∈ (runRounds sha256 rounds).started, ∃ front round later,
    rounds = front ++ round :: later ∧ StartedIn sha256 front round handle
  running : ∀ front round later handle, rounds = front ++ round :: later →
    StartedIn sha256 front round handle →
      (Running targetKey (runRounds sha256 rounds) handle ↔
        ∀ r ∈ later, handle.spec ∈ desired sha256 r)
  cancelled : ∀ front round later handle, rounds = front ++ round :: later →
    StartedIn sha256 front round handle →
      (handle ∈ (runRounds sha256 rounds).cancelled ↔
        ∃ r ∈ later, handle.spec ∉ desired sha256 r)

theorem mem_map_targetKey {spec : UplinkTargetSpec} {specs : List UplinkTargetSpec} :
    targetKey spec ∈ specs.map targetKey ↔ spec ∈ specs :=
  List.mem_map_of_injective targetKey_injective

theorem run_laws (rounds : List Round) : RunLaws sha256 rounds where
  keys := by
    rintro front round rfl key
    rw [runRounds_eq, List.map_append]
    exact (reconciled_after _ _).keys key
  single := by
    rw [runRounds_eq]
    exact (sound_after _).nodup
  numbered := by
    rw [runRounds_eq, (sound_after _).ids]
    exact List.nodup_range
  once := by
    rw [runRounds_eq]
    exact (sound_after _).once
  known key handle h := by
    rw [runRounds_eq] at h ⊢
    exact ⟨(sound_after _).keyed _ h, (sound_after _).live _ h⟩
  started handle h := by
    rw [runRounds_eq] at h
    obtain ⟨before, first, middle, heq, hstarted, hnew⟩ := exists_round _ h
    obtain ⟨front, rest, rfl, rfl, hrest⟩ := List.map_eq_append_iff.mp heq
    obtain ⟨round, later, rfl, rfl, rfl⟩ := List.map_eq_cons_iff.mp hrest
    refine ⟨front, round, later, rfl, ?_, ?_⟩
    · rw [runRounds_eq, List.map_append]
      exact hstarted
    · rw [runRounds_eq]
      exact hnew
  running front round later handle heq h := by
    subst heq
    simp only [StartedIn, runRounds_eq, List.map_append, List.map_cons, List.map_nil] at h ⊢
    rw [List.append_cons, running_iff _ _ _ h.1 h.2]
    simp only [List.forall_mem_map, mem_map_targetKey]
  cancelled front round later handle heq h := by
    subst heq
    simp only [StartedIn, runRounds_eq, List.map_append, List.map_cons, List.map_nil] at h ⊢
    rw [List.append_cons, cancelled_iff _ _ _ h.1 h.2]
    simp only [mem_map_targetKey]
    simp only [List.mem_map, exists_exists_and_eq_and]

/-- Distinct targets have distinct keys, every list of targets is sound, and every run of rounds
over such lists keeps exactly the bridges that are desired. -/
theorem uplink_targets_reconciled (sha256 : List UInt8 → List UInt8) :
    Function.Injective targetKey ∧ (∀ input, TargetLaws sha256 input) ∧
      ∀ rounds, RunLaws sha256 rounds :=
  ⟨targetKey_injective, target_laws, run_laws⟩

end

end Climon.Remote.UplinkTargets
