import Climon.Store.PatchLock

namespace Climon.Store.LockHolding

open Climon.Lib.Transition Climon.Store.PatchLock

/-!
# Who holds the patch lock

A process holds the directory it made from its `mkdir` to the call that takes it away. Everything
the others do to that directory is bounded by what they may have read of it.
-/

variable {staleMs : Nat}

/-- The directory a process holds: where, which, and the owner it wrote, if it did. -/
def holding : Pc → Option (LockPath × Birth × Option PatchLockOwner)
  | .made b | .yielding b | .writing b | .unmaking b => some (.lock, b, none)
  | .identifying b o => some (.lock, b, some o)
  | .critical b held => some (.lock, b, some held.owner)
  | .recoveryWriting b | .recoveryUnmaking b => some (.recovery, b, none)
  | .recoveryIdentifying b o => some (.recovery, b, some o)
  | .quarantining (.active b) _ => some (.lock, b, none)
  | .quarantining (.recover b held) _ => some (.recovery, b, some held.owner)
  | .releasing _ _ _ _ (.moved _) => none
  | .releasing path b held _ _ => some (path, b, some held.owner)
  | .idle | .making | .recoveryMaking | .quarantining .blocked _ => none

structure Holds (s : LockState) (p : Nat) (path : LockPath) (b : Birth)
    (o : Option PatchLockOwner) : Prop where
  alive : (s.processes p).alive = true
  at_pc : holding (s.processes p).pc = some (path, b, o)

/-- `p` is in its critical section. -/
def Critical (s : LockState) (p : Nat) : Prop :=
  (s.processes p).alive = true ∧ ∃ b held, (s.processes p).pc = .critical b held

/-- The claim a process has written and not given up. -/
def claimed : Pc → Option PatchLockOwner
  | .quarantining _ (.claimedStat _ c) | .quarantining _ (.claimedRead _ c _)
  | .quarantining _ (.confirming _ c) | .quarantining _ (.displacing _ c) => some c
  | _ => none

def Foreign (s : LockState) (p : Nat) : Prop :=
  ∃ q, (s.processes q).alive = true ∧ (s.processes q).scope ≠ (s.processes p).scope

/-- No live process stalls for `staleMs` before it has written its owner, and none of a foreign
scope while it holds a lock or a claim. -/
structure Timely (staleMs : Nat) (s : LockState) : Prop where
  window : ∀ {p path b}, Holds s p path b none → s.now ≤ b.time + staleMs
  holder : ∀ {p path b o}, Holds s p path b (some o) → Foreign s p →
    s.now ≤ o.createdAt + staleMs
  claimant : ∀ {p c}, (s.processes p).alive = true → claimed (s.processes p).pc = some c →
    Foreign s p → s.now ≤ c.createdAt + staleMs

def LockStep (staleMs : Nat) (s : LockState) (e : LockEvent) (t : LockState) : Prop :=
  lockNext staleMs s e = some t ∧ Timely staleMs t

/-- A claim file that is about to be renamed or removed is the one that was read, or gone. -/
def claimIntact (s : LockState) : Pc → Bool
  | .quarantining why (.claimStale _ _ stale) => (claimAt s why.path).all fun file => file = stale
  | .quarantining why (.unclaiming _ claim) =>
    (claimAt s why.path).all fun file => file.owner.token = claim.token
  | _ => true

/-- A step that leaves alone the claims others wrote in the meantime, and gives no directory an
identity an earlier one had. -/
def undisturbed (staleMs : Nat) (s : LockState) : LockEvent → Bool
  | .act p a =>
    claimIntact s (s.processes p).pc &&
      (call staleMs s p a).1.given.all fun i => i ∉ s.identities
  | .tick _ | .crash _ => true

def Undisturbed (staleMs : Nat) (s : LockState) (e : LockEvent) : Prop :=
  undisturbed staleMs s e = true

theorem Undisturbed.intact {staleMs : Nat} {s : LockState} {p : Nat} {a : Answer}
    (h : Undisturbed staleMs s (.act p a)) : claimIntact s (s.processes p).pc = true :=
  (Bool.and_eq_true_iff.mp h).1

theorem Undisturbed.fresh {staleMs : Nat} {s : LockState} {p : Nat} {a : Answer}
    (h : Undisturbed staleMs s (.act p a)) :
    ∀ i ∈ (call staleMs s p a).1.given, i ∉ s.identities := fun i hi =>
  of_decide_eq_true (List.all_eq_true.mp (Bool.and_eq_true_iff.mp h).2 i hi)

theorem claimIntact_stale {s : LockState} {why : QuarantineFor} {pre : PatchLockSnapshot}
    {claim : PatchLockOwner} {stale file : OwnerFile}
    (h : claimIntact s (.quarantining why (.claimStale pre claim stale)) = true)
    (hfile : claimAt s why.path = some file) : file = stale := by
  rw [claimIntact, hfile] at h
  exact of_decide_eq_true h

theorem claimIntact_unclaiming {s : LockState} {why : QuarantineFor} {failed : Bool}
    {claim : PatchLockOwner} {file : OwnerFile}
    (h : claimIntact s (.quarantining why (.unclaiming failed claim)) = true)
    (hfile : claimAt s why.path = some file) : file.owner.token = claim.token := by
  rw [claimIntact, hfile] at h
  exact of_decide_eq_true h

structure Initial (s : LockState) : Prop where
  dirs : ∀ path, s.dirs path = none
  pcs : ∀ p, (s.processes p).pc = .idle

/-! ## One call -/

theorem apply_cases {now : Nat} {dirs : LockPath → Option LockDir} {op : FsOp} {path : LockPath}
    {d' : LockDir} (h : op.apply now dirs path = some d') :
    dirs path = some d' ∨
      (∃ b, op = .mkdir path b ∧ d' = { birth := b, mtime := now, owner := none, claim := none }) ∨
      ∃ d, dirs path = some d ∧
        ((∃ o, op = .writeOwner path o ∧ d' = { d with owner := some o, mtime := now }) ∨
          (∃ file, op = .writeClaim path file ∧ d' = { d with claim := some file, mtime := now }) ∨
          op = .dropClaim path ∧ d' = { d with claim := none, mtime := now }) := by
  cases op with
  | read => exact .inl h
  | discard d => exact .inl h
  | mkdir path' b =>
    simp only [FsOp.apply, Function.update_apply] at h
    split at h
    · next heq =>
      cases heq
      exact .inr (.inl ⟨b, rfl, (Option.some.inj h).symm⟩)
    · exact .inl h
  | displace path' =>
    simp only [FsOp.apply, Function.update_apply] at h
    split at h
    · cases h
    · exact .inl h
  | writeOwner path' o =>
    simp only [FsOp.apply, Function.update_apply] at h
    split at h
    · next heq =>
      cases heq
      obtain ⟨d, hd, rfl⟩ := Option.map_eq_some_iff.mp h
      exact .inr (.inr ⟨d, hd, .inl ⟨o, rfl, rfl⟩⟩)
    · exact .inl h
  | writeClaim path' file =>
    simp only [FsOp.apply, Function.update_apply] at h
    split at h
    · next heq =>
      cases heq
      obtain ⟨d, hd, rfl⟩ := Option.map_eq_some_iff.mp h
      exact .inr (.inr ⟨d, hd, .inr (.inl ⟨file, rfl, rfl⟩)⟩)
    · exact .inl h
  | dropClaim path' =>
    simp only [FsOp.apply, Function.update_apply] at h
    split at h
    · next heq =>
      cases heq
      obtain ⟨d, hd, rfl⟩ := Option.map_eq_some_iff.mp h
      exact .inr (.inr ⟨d, hd, .inr (.inr ⟨rfl, rfl⟩)⟩)
    · exact .inl h

theorem apply_origin {now : Nat} {dirs : LockPath → Option LockDir} {op : FsOp}
    {path : LockPath} {d' : LockDir} (h : op.apply now dirs path = some d') :
    (∃ d, dirs path = some d ∧ d.birth = d'.birth) ∨ op = .mkdir path d'.birth := by
  rcases apply_cases h with h | ⟨b, hop, rfl⟩ | ⟨d, hd, ⟨o, -, rfl⟩ | ⟨file, -, rfl⟩ | ⟨-, rfl⟩⟩
  · exact .inl ⟨d', h, rfl⟩
  · exact .inr hop
  · exact .inl ⟨d, hd, rfl⟩
  · exact .inl ⟨d, hd, rfl⟩
  · exact .inl ⟨d, hd, rfl⟩

/-- A directory that is neither displaced nor made anew stays, and only the owner or the claim
the call writes may differ. -/
theorem apply_kept {now : Nat} {dirs : LockPath → Option LockDir} {op : FsOp} {path : LockPath}
    {d : LockDir} (h : dirs path = some d) (hdisplace : op ≠ .displace path)
    (hmkdir : ∀ b, op ≠ .mkdir path b) :
    ∃ d', op.apply now dirs path = some d' ∧ d'.birth = d.birth ∧
      (d'.owner = d.owner ∨ ∃ o, op = .writeOwner path o) ∧
      (d'.claim = d.claim ∨ (∃ file, op = .writeClaim path file) ∨ op = .dropClaim path) := by
  cases op with
  | read => exact ⟨d, h, rfl, .inl rfl, .inl rfl⟩
  | discard e => exact ⟨d, h, rfl, .inl rfl, .inl rfl⟩
  | mkdir path' b =>
    have hne : path ≠ path' := fun heq => hmkdir b (by rw [heq])
    exact ⟨d, by rw [FsOp.apply, Function.update_of_ne hne, h], rfl, .inl rfl, .inl rfl⟩
  | displace path' =>
    have hne : path ≠ path' := fun heq => hdisplace (by rw [heq])
    exact ⟨d, by rw [FsOp.apply, Function.update_of_ne hne, h], rfl, .inl rfl, .inl rfl⟩
  | writeOwner path' o =>
    by_cases heq : path = path'
    · cases heq
      exact ⟨{ d with owner := some o, mtime := now },
        by rw [FsOp.apply, Function.update_self, h, Option.map_some], rfl,
        .inr ⟨o, rfl⟩, .inl rfl⟩
    · exact ⟨d, by rw [FsOp.apply, Function.update_of_ne heq, h], rfl, .inl rfl, .inl rfl⟩
  | writeClaim path' file =>
    by_cases heq : path = path'
    · cases heq
      exact ⟨{ d with claim := some file, mtime := now },
        by rw [FsOp.apply, Function.update_self, h, Option.map_some], rfl, .inl rfl,
        .inr (.inl ⟨file, rfl⟩)⟩
    · exact ⟨d, by rw [FsOp.apply, Function.update_of_ne heq, h], rfl, .inl rfl, .inl rfl⟩
  | dropClaim path' =>
    by_cases heq : path = path'
    · cases heq
      exact ⟨{ d with claim := none, mtime := now },
        by rw [FsOp.apply, Function.update_self, h, Option.map_some], rfl, .inl rfl,
        .inr (.inr rfl)⟩
    · exact ⟨d, by rw [FsOp.apply, Function.update_of_ne heq, h], rfl, .inl rfl, .inl rfl⟩

/-- Where a process must be to make a call. -/
def Permitted (staleMs : Nat) (s : LockState) (p : Nat) (pc : Pc) : FsOp → Prop
  | .read => True
  | .discard d =>
    (∃ why pre, pc = .quarantining why (.moved pre d)) ∨
      ∃ path b held again, pc = .releasing path b held again (.moved d)
  | .mkdir path b => s.dirs path = none ∧ b.maker = p ∧ b.time = s.now
  | .writeOwner path _ => ∃ b, holding pc = some (path, b, none)
  | .displace path =>
    (∃ b o, holding pc = some (path, b, o)) ∨
      ∃ why pre claim, pc = .quarantining why (.displacing pre claim) ∧ why.path = path
  | .writeClaim path file =>
    (∃ d, s.dirs path = some d ∧ d.claim = none) ∧
      ((∃ why pre, pc = .quarantining why (.claiming pre file.owner)) ∨
        ∃ why moved, pc = .quarantining why (.claimRestoring moved))
  | .dropClaim path =>
    (∃ why pre claim stale, pc = .quarantining why (.claimStale pre claim stale) ∧
      why.path = path) ∨
      ∃ why failed claim, pc = .quarantining why (.unclaiming failed claim) ∧ why.path = path

theorem release_permitted {s : LockState} {p : Nat} {a : Answer} {path : LockPath} {b : Birth}
    {held : PatchLockInstance} {again : Bool} {pc : ReleasePc} :
    Permitted staleMs s p (.releasing path b held again pc)
      (releasePatchLock s a path b held again pc).1 := by
  cases pc <;> simp only [releasePatchLock] <;> split <;>
    first
      | trivial
      | exact .inl ⟨b, some held.owner, rfl⟩
      | exact .inr ⟨path, b, held, again, rfl⟩

theorem quarantine_permitted {s : LockState} {p : Nat} {a : Answer} {why : QuarantineFor}
    {pc : QuarantinePc} :
    Permitted staleMs s p (.quarantining why pc) (quarantineStaleLock staleMs s p a why pc).1 := by
  cases pc with
  | claiming pre claim =>
    simp only [quarantineStaleLock]
    split
    · trivial
    · trivial
    · next d _ hd =>
      split
      · next hclaim => exact ⟨⟨d, hd, hclaim⟩, .inl ⟨why, pre, rfl⟩⟩
      · trivial
  | claimStale pre claim stale =>
    simp only [quarantineStaleLock]
    split
    · trivial
    · trivial
    split
    · trivial
    · exact .inl ⟨why, pre, claim, stale, rfl, rfl⟩
  | claimRestoring moved =>
    simp only [quarantineStaleLock]
    split
    · next d _ hd =>
      split
      · next hclaim => exact ⟨⟨d, hd, hclaim⟩, .inr ⟨why, moved, rfl⟩⟩
      · trivial
    · trivial
  | displacing pre claim =>
    simp only [quarantineStaleLock]
    split
    · exact .inr ⟨why, pre, claim, rfl, rfl⟩
    · trivial
    · trivial
  | moved pre d =>
    simp only [quarantineStaleLock]
    split
    · trivial
    split
    · exact .inl ⟨why, pre, rfl⟩
    · trivial
  | unclaiming failed claim =>
    simp only [quarantineStaleLock]
    split
    · exact .inr ⟨why, failed, claim, rfl, rfl⟩
    · trivial
  | stat | read | restat | reread | claimTaken | claimMoved | claimedStat | claimedRead
  | confirming | abandoning =>
    simp only [quarantineStaleLock]
    repeat' split
    all_goals trivial

theorem acquire_permitted {s : LockState} {p : Nat} {a : Answer} {pc : Pc} :
    Permitted staleMs s p pc (acquirePatchLock staleMs s p a pc).1 := by
  cases pc with
  | quarantining why pc => exact quarantine_permitted
  | releasing path b held again pc => exact release_permitted
  | making | recoveryMaking =>
    simp only [acquirePatchLock]
    split
    · trivial
    · next hnone => exact ⟨hnone, rfl, rfl⟩
    · trivial
  | writing b | recoveryWriting b =>
    simp only [acquirePatchLock]
    split
    · exact ⟨b, rfl⟩
    · trivial
  | yielding b | unmaking b | recoveryUnmaking b =>
    simp only [acquirePatchLock]
    split
    · exact .inl ⟨b, none, rfl⟩
    · trivial
  | idle | made | identifying | critical | recoveryIdentifying =>
    simp only [acquirePatchLock]
    repeat' split
    all_goals trivial

end Climon.Store.LockHolding
