import Climon.Lib.Transition

namespace Climon.Store.PatchLock

/-!
# The patch lock of one session

The lock is a directory. Making it takes the lock, renaming it away gives it up, and a lock whose
owner died is taken away under a second directory, the recovery lock. Every step below is one call
to the file system and the computation up to the next call.
-/

inductive LockPath where
  | lock
  | recovery
  deriving DecidableEq, Repr

/-- Random bytes of which no two draws agree: they are named by their draw. -/
structure Token where
  process : Nat
  draw : Nat
  deriving DecidableEq, Repr

/-- The record in `owner.json` and in a claim file. The scope is the host, the platform and the
pid namespace. -/
structure PatchLockOwner where
  pid : Nat
  scope : Nat
  createdAt : Nat
  token : Token
  deriving DecidableEq, Repr

structure OwnerFile where
  identity : Nat
  owner : PatchLockOwner
  deriving DecidableEq, Repr

/-- The `mkdir` that made a directory. Only the identity is read by any step. -/
structure Birth where
  identity : Nat
  maker : Nat
  time : Nat
  deriving DecidableEq, Repr

structure LockDir where
  birth : Birth
  mtime : Nat
  owner : Option PatchLockOwner
  claim : Option OwnerFile
  deriving DecidableEq, Repr

structure PatchLockSnapshot where
  identity : Nat
  mtime : Nat
  owner : Option PatchLockOwner
  deriving DecidableEq, Repr

structure PatchLockInstance where
  identity : Nat
  owner : PatchLockOwner
  deriving DecidableEq, Repr

/-! ## Where a process is -/

inductive ReleasePc where
  | stat
  | read (identity : Nat)
  | rename
  -- the rename was denied
  | restat
  | reread (identity : Nat)
  | remove
  -- the directory has its release name
  | moved (dir : LockDir)
  deriving DecidableEq, Repr

inductive QuarantinePc where
  | stat
  | read (identity mtime : Nat)
  | restat (stale : PatchLockSnapshot)
  | reread (stale : PatchLockSnapshot) (identity mtime : Nat)
  -- `claim_for_reclaim`
  | claiming (pre : PatchLockSnapshot) (claim : PatchLockOwner)
  | claimTaken (pre : PatchLockSnapshot) (claim : PatchLockOwner)
  | claimStale (pre : PatchLockSnapshot) (claim : PatchLockOwner) (stale : OwnerFile)
  -- the moved file lies in the directory it was found in
  | claimMoved (pre : PatchLockSnapshot) (claim : PatchLockOwner) (stale moved : OwnerFile)
      (dir : Birth)
  | claimRestoring (moved : OwnerFile)
  -- the claim is written
  | claimedStat (pre : PatchLockSnapshot) (claim : PatchLockOwner)
  | claimedRead (pre : PatchLockSnapshot) (claim : PatchLockOwner) (identity : Nat)
  | confirming (pre : PatchLockSnapshot) (claim : PatchLockOwner)
  | displacing (pre : PatchLockSnapshot) (claim : PatchLockOwner)
  | moved (pre : PatchLockSnapshot) (dir : LockDir)
  -- `release_reclaim_claim`, after an error or not
  | abandoning (failed : Bool) (claim : PatchLockOwner)
  | unclaiming (failed : Bool) (claim : PatchLockOwner)
  deriving DecidableEq, Repr

/-- The calls of `quarantine_stale_lock`: `recovery_active`, `acquire_recovery_lock` on a path
that is taken, and `recover_stale_if_recovery_owner`. -/
inductive QuarantineFor where
  | active (made : Birth)
  | blocked
  | recover (made : Birth) (held : PatchLockInstance)
  deriving DecidableEq, Repr

def QuarantineFor.path : QuarantineFor → LockPath
  | .active _ | .blocked => .recovery
  | .recover _ _ => .lock

inductive Pc where
  | idle
  | making
  | made (b : Birth)
  | yielding (b : Birth)
  | writing (b : Birth)
  | unmaking (b : Birth)
  | identifying (b : Birth) (owner : PatchLockOwner)
  | critical (b : Birth) (held : PatchLockInstance)
  | recoveryMaking
  | recoveryWriting (b : Birth)
  | recoveryUnmaking (b : Birth)
  | recoveryIdentifying (b : Birth) (owner : PatchLockOwner)
  | quarantining (why : QuarantineFor) (pc : QuarantinePc)
  | releasing (path : LockPath) (b : Birth) (held : PatchLockInstance) (again : Bool)
      (pc : ReleasePc)
  deriving DecidableEq, Repr

structure Process where
  alive : Bool
  scope : Nat
  drawn : Nat
  pc : Pc

structure LockState where
  now : Nat
  dirs : LockPath → Option LockDir
  processes : Nat → Process
  -- every identity a directory was given so far
  identities : List Nat

/-! ## Reads -/

inductive Fault where
  | permissionDenied
  | other
  deriving DecidableEq, Repr

/-- What a step is told: the identity of what it makes, whether its call fails, and whether the
deadline has passed. -/
structure Answer where
  identity : Nat := 0
  fault : Option Fault := none
  late : Bool := false
  deriving DecidableEq, Repr

section

variable (staleMs : Nat) (s : LockState) (p : Nat) (a : Answer)

def currentOwner : PatchLockOwner :=
  { pid := p, scope := (s.processes p).scope, createdAt := s.now,
    token := ⟨p, (s.processes p).drawn⟩ }

def newBirth : Birth :=
  { identity := a.identity, maker := p, time := s.now }

def ownerAt (path : LockPath) : Option PatchLockOwner :=
  (s.dirs path).bind LockDir.owner

def claimAt (path : LockPath) : Option OwnerFile :=
  (s.dirs path).bind LockDir.claim

/-- `owner_stale`: within the scope of `p` a process is looked up, elsewhere the age decides. -/
def ownerStale : Option PatchLockOwner → Nat → Bool
  | some o, _ =>
    if o.scope = (s.processes p).scope then !(s.processes o.pid).alive
    else decide (o.createdAt + staleMs < s.now)
  | none, mtime => decide (mtime + staleMs < s.now)

def snapshotStale (snapshot : PatchLockSnapshot) : Bool :=
  ownerStale staleMs s p snapshot.owner snapshot.mtime

/-- A claim names its owner in full, so that its own age does not matter. -/
def reclaimClaimStale (file : OwnerFile) : Bool :=
  ownerStale staleMs s p (some file.owner) 0

def sameReclaimSnapshot (actual expected : PatchLockSnapshot) : Bool :=
  actual.identity = expected.identity && actual.owner = expected.owner

def sameReclaimClaim (path : LockPath) (claim : PatchLockOwner) : Bool :=
  (claimAt s path).any fun file => file.owner.token = claim.token

/-! ## Steps -/

/-- What a call does at the two paths. -/
inductive FsOp where
  -- a read, or a call that fails
  | read
  | mkdir (path : LockPath) (b : Birth)
  | writeOwner (path : LockPath) (owner : PatchLockOwner)
  -- renamed away, or removed with what is inside
  | displace (path : LockPath)
  -- removed under the name it was moved to
  | discard (dir : LockDir)
  | writeClaim (path : LockPath) (file : OwnerFile)
  | dropClaim (path : LockPath)
  deriving DecidableEq, Repr

def releasePatchLock (path : LockPath) (b : Birth) (held : PatchLockInstance) (again : Bool) :
    ReleasePc → FsOp × Pc
  | .stat =>
    match a.fault, s.dirs path with
    | none, some d => (.read, .releasing path b held again (.read d.birth.identity))
    | _, _ => (.read, if again then .making else .idle)
  | .read identity =>
    if a.fault = none ∧ identity = held.identity ∧ ownerAt s path = some held.owner then
      (.read, .releasing path b held again .rename)
    else (.read, if again then .making else .idle)
  | .rename =>
    match a.fault, s.dirs path with
    | none, some d => (.displace path, .releasing path b held again (.moved d))
    | some .permissionDenied, _ => (.read, .releasing path b held again .restat)
    | _, _ => (.read, if again then .making else .idle)
  | .restat =>
    match a.fault, s.dirs path with
    | none, some d => (.read, .releasing path b held again (.reread d.birth.identity))
    | _, _ => (.read, if again then .making else .idle)
  | .reread identity =>
    if a.fault = none ∧ identity = held.identity ∧ ownerAt s path = some held.owner then
      (.read, .releasing path b held again .remove)
    else (.read, if again then .making else .idle)
  | .remove =>
    (if a.fault = none then .displace path else .read, if again then .making else .idle)
  | .moved d =>
    (if a.fault = none ∧ d.birth.identity = held.identity ∧ d.owner = some held.owner then
      .discard d else .read, if again then .making else .idle)

/-- Where the caller of `quarantine_stale_lock` goes on; `none` is an error. -/
def QuarantineFor.resume : QuarantineFor → Option Bool → Pc
  | .active b, some true => .writing b
  | .active b, some false => .yielding b
  | .active _, none => .idle
  | .blocked, some _ => .making
  | .blocked, none => .idle
  | .recover b held, result => .releasing .recovery b held result.isSome .stat

def quarantineStaleLock (why : QuarantineFor) : QuarantinePc → FsOp × Pc
  | .stat =>
    match a.fault, s.dirs why.path with
    | none, some d => (.read, .quarantining why (.read d.birth.identity d.mtime))
    | none, none => (.read, why.resume (some false))
    | some _, _ => (.read, why.resume none)
  | .read identity mtime =>
    if a.fault ≠ none then (.read, why.resume none)
    else if snapshotStale staleMs s p ⟨identity, mtime, ownerAt s why.path⟩ then
      (.read, .quarantining why (.restat ⟨identity, mtime, ownerAt s why.path⟩))
    else (.read, why.resume (some false))
  | .restat stale =>
    match a.fault, s.dirs why.path with
    | none, some d => (.read, .quarantining why (.reread stale d.birth.identity d.mtime))
    | none, none => (.read, why.resume (some false))
    | some _, _ => (.read, why.resume none)
  | .reread stale identity mtime =>
    if a.fault ≠ none then (.read, why.resume none)
    else if sameReclaimSnapshot ⟨identity, mtime, ownerAt s why.path⟩ stale &&
        snapshotStale staleMs s p ⟨identity, mtime, ownerAt s why.path⟩ then
      (.read, .quarantining why
        (.claiming ⟨identity, mtime, ownerAt s why.path⟩ (currentOwner s p)))
    else (.read, why.resume (some false))
  | .claiming pre claim =>
    match a.fault, s.dirs why.path with
    | some _, _ => (.read, why.resume none)
    | none, none => (.read, why.resume (some false))
    | none, some d =>
      match d.claim with
      | none =>
        (.writeClaim why.path ⟨a.identity, claim⟩, .quarantining why (.claimedStat pre claim))
      | some _ => (.read, .quarantining why (.claimTaken pre claim))
  | .claimTaken pre claim =>
    match a.fault, claimAt s why.path with
    | some _, _ => (.read, why.resume none)
    | none, none => (.read, .quarantining why (.claiming pre claim))
    | none, some file =>
      if reclaimClaimStale staleMs s p file then
        (.read, .quarantining why (.claimStale pre claim file))
      else (.read, why.resume (some false))
  | .claimStale pre claim stale =>
    match a.fault, s.dirs why.path with
    | some _, _ => (.read, why.resume none)
    | none, none => (.read, .quarantining why (.claiming pre claim))
    | none, some d =>
      match d.claim with
      | none => (.read, .quarantining why (.claiming pre claim))
      | some file =>
        (.dropClaim why.path, .quarantining why (.claimMoved pre claim stale file d.birth))
  | .claimMoved pre claim stale file dir =>
    if a.fault ≠ none then (.read, why.resume none)
    else if (s.dirs why.path).map LockDir.birth ≠ some dir then (.read, why.resume (some false))
    else if file = stale ∧ reclaimClaimStale staleMs s p file then
      (.read, .quarantining why (.claiming pre claim))
    else (.read, .quarantining why (.claimRestoring file))
  | .claimRestoring file =>
    match a.fault, s.dirs why.path with
    | none, some d =>
      match d.claim with
      | none => (.writeClaim why.path ⟨a.identity, file.owner⟩, why.resume (some false))
      | some _ => (.read, why.resume (some false))
    | _, _ => (.read, why.resume none)
  | .claimedStat pre claim =>
    match a.fault, s.dirs why.path with
    | none, some d => (.read, .quarantining why (.claimedRead pre claim d.birth.identity))
    | none, none => (.read, .quarantining why (.abandoning false claim))
    | some _, _ => (.read, .quarantining why (.abandoning true claim))
  | .claimedRead pre claim identity =>
    if a.fault ≠ none then (.read, .quarantining why (.abandoning true claim))
    else if identity = pre.identity ∧ ownerAt s why.path = pre.owner ∧
        snapshotStale staleMs s p pre then
      (.read, .quarantining why (.confirming pre claim))
    else (.read, .quarantining why (.abandoning false claim))
  | .confirming pre claim =>
    if a.fault ≠ none then (.read, .quarantining why (.abandoning true claim))
    else if sameReclaimClaim s why.path claim then
      (.read, .quarantining why (.displacing pre claim))
    else (.read, .quarantining why (.abandoning false claim))
  | .displacing pre claim =>
    match a.fault, s.dirs why.path with
    | none, some d => (.displace why.path, .quarantining why (.moved pre d))
    | none, none => (.read, .quarantining why (.abandoning false claim))
    | some _, _ => (.read, .quarantining why (.abandoning true claim))
  | .moved pre d =>
    if a.fault ≠ none then (.read, why.resume none)
    else if sameReclaimSnapshot ⟨d.birth.identity, d.mtime, d.owner⟩ pre &&
        snapshotStale staleMs s p pre then
      (.discard d, why.resume (some true))
    else (.read, why.resume (some false))
  | .abandoning failed claim =>
    if a.fault ≠ none then (.read, why.resume none)
    else if sameReclaimClaim s why.path claim then
      (.read, .quarantining why (.unclaiming failed claim))
    else (.read, why.resume (if failed then none else some false))
  | .unclaiming failed _ =>
    (if a.fault = none then .dropClaim why.path else .read,
      why.resume (if failed then none else some false))

def acquirePatchLock : Pc → FsOp × Pc
  | .idle => (.read, .making)
  | .making =>
    match a.fault, s.dirs .lock with
    | some _, _ => (.read, .idle)
    | none, none => (.mkdir .lock (newBirth s p a), .made (newBirth s p a))
    | none, some _ => (.read, if a.late then .idle else .recoveryMaking)
  | .made b =>
    match a.fault, s.dirs .recovery with
    | some _, _ => (.read, .idle)
    | none, none => (.read, .writing b)
    | none, some _ => (.read, .quarantining (.active b) .stat)
  | .yielding _ =>
    (if a.fault = none then .displace .lock else .read, if a.late then .idle else .making)
  | .writing b =>
    match a.fault, s.dirs .lock with
    | none, some _ => (.writeOwner .lock (currentOwner s p), .identifying b (currentOwner s p))
    | _, _ => (.read, .unmaking b)
  | .unmaking _ => (if a.fault = none then .displace .lock else .read, .idle)
  | .identifying b owner =>
    match a.fault, s.dirs .lock with
    | none, some d => (.read, .critical b ⟨d.birth.identity, owner⟩)
    | _, _ => (.read, .idle)
  | .critical b held => (.read, .releasing .lock b held false .stat)
  | .recoveryMaking =>
    match a.fault, s.dirs .recovery with
    | some _, _ => (.read, .idle)
    | none, none => (.mkdir .recovery (newBirth s p a), .recoveryWriting (newBirth s p a))
    | none, some _ => (.read, .quarantining .blocked .stat)
  | .recoveryWriting b =>
    match a.fault, s.dirs .recovery with
    | none, some _ =>
      (.writeOwner .recovery (currentOwner s p), .recoveryIdentifying b (currentOwner s p))
    | _, _ => (.read, .recoveryUnmaking b)
  | .recoveryUnmaking _ => (if a.fault = none then .displace .recovery else .read, .idle)
  | .recoveryIdentifying b owner =>
    match a.fault, s.dirs .recovery with
    | none, some d => (.read, .quarantining (.recover b ⟨d.birth.identity, owner⟩) .stat)
    | _, _ => (.read, .idle)
  | .quarantining why pc => quarantineStaleLock staleMs s p a why pc
  | .releasing path b held again pc => releasePatchLock s a path b held again pc

/-- The call `p` makes next, and where it is afterwards. -/
def call : FsOp × Pc :=
  acquirePatchLock staleMs s p a (s.processes p).pc

end

def FsOp.apply (now : Nat) (dirs : LockPath → Option LockDir) : FsOp → LockPath → Option LockDir
  | .read | .discard _ => dirs
  | .mkdir path b =>
    Function.update dirs path (some { birth := b, mtime := now, owner := none, claim := none })
  | .writeOwner path o =>
    Function.update dirs path
      ((dirs path).map fun d => { d with owner := some o, mtime := now })
  | .displace path => Function.update dirs path none
  | .writeClaim path file =>
    Function.update dirs path
      ((dirs path).map fun d => { d with claim := some file, mtime := now })
  | .dropClaim path =>
    Function.update dirs path ((dirs path).map fun d => { d with claim := none, mtime := now })

def FsOp.given : FsOp → List Nat
  | .mkdir _ b => [b.identity]
  | _ => []

def perform (staleMs : Nat) (s : LockState) (p : Nat) (a : Answer) : LockState :=
  { now := s.now
    dirs := (call staleMs s p a).1.apply s.now s.dirs
    processes := Function.update s.processes p
      { s.processes p with pc := (call staleMs s p a).2, drawn := (s.processes p).drawn + 1 }
    identities := (call staleMs s p a).1.given ++ s.identities }

inductive LockEvent where
  | tick (ms : Nat)
  | crash (p : Nat)
  | act (p : Nat) (a : Answer)
  deriving DecidableEq, Repr

def lockNext (staleMs : Nat) (s : LockState) : LockEvent → Option LockState
  | .tick ms => some { s with now := s.now + ms }
  | .crash p =>
    some { s with
      processes := Function.update s.processes p { s.processes p with alive := false } }
  | .act p a => if (s.processes p).alive then some (perform staleMs s p a) else none

end Climon.Store.PatchLock
