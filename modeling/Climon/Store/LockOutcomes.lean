import Climon.Store.LockRuns

namespace Climon.Store.LockOutcomes

open Climon.Lib.Transition Climon.Store.PatchLock Climon.Store.LockHolding Climon.Store.LockCalls
  Climon.Store.LockInvariant Climon.Store.LockRuns

/-!
# What acquiring the lock returns, and what it leaves

The steps of the lock, watched: what each call returned, and the directories that it made. A
snapshot of a claim file is two calls, its metadata and its content, and the file may go in between.
-/

variable {staleMs : Nat}

inductive Returned where
  | locked
  | timedOut
  | failed
  deriving DecidableEq, Repr

structure Watched where
  lock : LockState
  /-- The metadata of the claim file are read, its content is not. -/
  peeked : Nat → Bool
  /-- What the last call made, or the one that runs. -/
  created : Nat → List Birth
  returned : Nat → Option Returned
  /-- A call to the file system has failed. -/
  faulty : Bool

/-- Whether the claim file that is read next is there, for a process that is about to. -/
def claimFile (s : LockState) : Pc → Option Bool
  | .quarantining why (.claimTaken _ _) => some (claimAt s why.path).isSome
  | .quarantining why (.claimMoved _ _ _ _ dir) =>
    some (decide ((s.dirs why.path).map LockDir.birth = some dir))
  | _ => none

/-- `read_to_string` after the metadata of a file that is gone since: its error is passed on. -/
def vanished (w : Watched) (p : Nat) (a : Answer) : Bool :=
  w.peeked p && a.fault.isNone && claimFile w.lock (w.lock.processes p).pc == some false

def peeks (w : Watched) (p : Nat) (a : Answer) : Bool :=
  !w.peeked p && a.fault.isNone && claimFile w.lock (w.lock.processes p).pc == some true

def answered (w : Watched) (p : Nat) (a : Answer) : Answer :=
  if vanished w p a then { a with fault := some .other } else a

/-- What a call that goes on to the second place returns. Giving the lock back returns nothing. -/
def outcome (a : Answer) : Pc → Pc → Option Returned
  | _, .critical _ _ => some .locked
  | .releasing .lock _ _ _ _, .idle => none
  | .making, .idle => some (if a.fault.isNone then .timedOut else .failed)
  | .yielding _, .idle => some .timedOut
  | _, .idle => some .failed
  | _, _ => none

def births : FsOp → List Birth
  | .mkdir _ b => [b]
  | _ => []

/-- One call to the file system; from `idle` a call of `acquire_patch_lock` starts. -/
def advance (staleMs : Nat) (w : Watched) (p : Nat) (a : Answer) : Watched :=
  let pc := (w.lock.processes p).pc
  let next := call staleMs w.lock p a
  { lock := perform staleMs w.lock p a
    peeked := Function.update w.peeked p false
    created := Function.update w.created p
      (if pc = .idle then [] else births next.1 ++ w.created p)
    returned := Function.update w.returned p
      (if pc = .idle then none else (outcome a pc next.2).or (w.returned p))
    faulty := w.faulty }

def watchedNext (staleMs : Nat) (w : Watched) : LockEvent → Option Watched
  | .act p a =>
    if (w.lock.processes p).alive then
      if peeks w p a then some { w with peeked := Function.update w.peeked p true }
      else some { advance staleMs w p (answered w p a) with faulty := w.faulty || a.fault.isSome }
    else none
  | e => (lockNext staleMs w.lock e).map fun lock => { w with lock }

/-- A new directory is not one that exists. -/
def distinct (staleMs : Nat) (w : Watched) : LockEvent → Bool
  | .act p a =>
    (births (call staleMs w.lock p (answered w p a)).1).all fun b =>
      [LockPath.lock, .recovery].all fun path =>
        (w.lock.dirs path).all fun d => decide (d.birth.identity ≠ b.identity)
  | _ => true

def WatchedStep (staleMs : Nat) (w : Watched) (e : LockEvent) (x : Watched) : Prop :=
  distinct staleMs w e = true ∧ watchedNext staleMs w e = some x

structure InitialWatched (w : Watched) : Prop extends Initial w.lock where
  created : ∀ p, w.created p = []
  returned : ∀ p, w.returned p = none
  faulty : w.faulty = false

/-- No error but the timeout without a failing call, and whatever the error, nothing is left. -/
structure Clean (w : Watched) (p : Nat) : Prop where
  timeout : w.faulty = false → w.returned p ≠ some .failed
  gone : ∀ r, w.returned p = some r → r ≠ .locked →
    ∀ path d, w.lock.dirs path = some d → d.birth ∉ w.created p

/-! ## The condition -/

/-- Between the first `mkdir` of a call and its return. -/
def acquiring : Pc → Bool
  | .idle | .critical _ _ | .releasing .lock _ _ _ _ => false
  | _ => true

/-- Where an error does not undo the `mkdir`: it is passed on with `?`, or the removal fails. -/
def exposed : Pc → Bool
  | .made _ | .yielding _ | .unmaking _ | .identifying _ _ | .recoveryUnmaking _
  | .recoveryIdentifying _ _ | .quarantining (.active _) _ | .releasing .recovery _ _ _ _ => true
  | _ => false

/-- The next call of `p` takes away no directory that another live process is still acquiring
with. -/
def Spares (staleMs : Nat) (s : LockState) (p : Nat) (a : Answer) : Prop :=
  ∀ path d, (call staleMs s p a).1 = .displace path → s.dirs path = some d →
    ∀ q o, q ≠ p → acquiring (s.processes q).pc = true → ¬ Holds s q path d.birth o

/-- A claim that was moved aside can be put back: its directory stands. -/
def restorable (s : LockState) : Pc → Bool
  | .quarantining why (.claimRestoring _) => (s.dirs why.path).isSome
  | _ => true

def Careful (staleMs : Nat) (w : Watched) : LockEvent → Prop
  | .act p a =>
    Spares staleMs w.lock p a ∧ vanished w p a = false ∧
      restorable w.lock (w.lock.processes p).pc = true ∧
        (a.fault.isSome = true → exposed (w.lock.processes p).pc = false)
  | _ => True

/-! ## One call -/

/-- An error of the quarantine is held back until the claim is released. -/
def failing : QuarantinePc → Bool
  | .abandoning failed _ | .unclaiming failed _ => failed
  | _ => false

/-- An error is on its way to the caller. -/
def doomed : Pc → Bool
  | .unmaking _ | .recoveryUnmaking _ | .releasing .recovery _ _ false _ => true
  | .quarantining _ pc => failing pc
  | _ => false

/-- What a process that has made a directory remembers of it. -/
def Remembers : Pc → Prop
  | .quarantining (.active _) pc => failing pc = false
  | .quarantining (.recover b held) _ => held.identity = b.identity
  | .releasing .recovery b held _ (.read i) | .releasing .recovery b held _ (.reread i) =>
    held.identity = b.identity ∧ i = b.identity
  | .releasing .recovery b held _ _ => held.identity = b.identity
  | _ => True

/-- The directory that a process holds by its place is its own, and stands. -/
def Standing (s : LockState) (p : Nat) (pc : Pc) : Prop :=
  ∀ path b o, holding pc = some (path, b, o) →
    b.maker = p ∧ ∃ d, s.dirs path = some d ∧ d.birth = b ∧ d.owner = o

/-- Without a failing call a quarantine ends without an error. -/
theorem quarantine_going (staleMs : Nat) {s : LockState} (p : Nat) {a : Answer}
    {why : QuarantineFor} {pc : QuarantinePc} (hfault : a.fault = none) (hok : failing pc = false)
    (hrestorable : restorable s (.quarantining why pc) = true) :
    (∃ pc', (quarantineStaleLock staleMs s p a why pc).2 = .quarantining why pc' ∧
        failing pc' = false) ∨
      ∃ r, (quarantineStaleLock staleMs s p a why pc).2 = why.resume (some r) := by
  cases pc with
  | claimRestoring moved =>
    simp only [restorable] at hrestorable
    obtain ⟨d, hd⟩ := Option.isSome_iff_exists.mp hrestorable
    simp only [quarantineStaleLock, hfault, hd]
    split <;> exact .inr ⟨_, rfl⟩
  | abandoning failed claim | unclaiming failed claim =>
    simp only [failing] at hok
    subst hok
    simp only [quarantineStaleLock, hfault]
    repeat' split
    all_goals first
      | exact .inl ⟨_, rfl, rfl⟩
      | exact .inr ⟨_, rfl⟩
      | contradiction
  | _ =>
    simp only [quarantineStaleLock, hfault]
    repeat' split
    all_goals first
      | exact .inl ⟨_, rfl, rfl⟩
      | exact .inr ⟨_, rfl⟩
      | contradiction

section

variable {s : LockState} {p : Nat} {a : Answer} {pc : Pc}

/-- No call fails where an error would leave the directory. -/
def Covered (a : Answer) (pc : Pc) : Prop := a.fault.isSome = true → exposed pc = false

theorem Covered.answer (h : Covered a pc) (hexposed : exposed pc = true) : a.fault = none := by
  cases hfault : a.fault with
  | none => rfl
  | some fault =>
    have hnot := h (by rw [hfault]; rfl)
    rw [hexposed] at hnot
    cases hnot

/-- A directory that is given up is taken away. -/
theorem acquire_leaves (hacquiring : acquiring pc = true) (hstanding : Standing s p pc)
    (hremembers : Remembers pc) (hrestorable : restorable s pc = true) (hcovered : Covered a pc)
    {path : LockPath} {b : Birth} {o : Option PatchLockOwner}
    (hat : holding pc = some (path, b, o))
    (hlost : holding (acquirePatchLock staleMs s p a pc).2 = none) :
    (acquirePatchLock staleMs s p a pc).1 = .displace path := by
  obtain ⟨-, d, hd, hb, ho⟩ := hstanding path b o hat
  cases pc with
  | idle | making | recoveryMaking => cases hat
  | critical => cases hacquiring
  | made b' =>
    have hfault := hcovered.answer rfl
    cases hrecovery : s.dirs .recovery <;>
      simp only [acquirePatchLock, hfault, hrecovery] at hlost <;> cases hlost
  | yielding b' | unmaking b' | recoveryUnmaking b' =>
    have hfault := hcovered.answer rfl
    cases hat
    simp only [acquirePatchLock, hfault, if_true]
  | writing b' | recoveryWriting b' =>
    simp only [acquirePatchLock] at hlost
    split at hlost <;> cases hlost
  | identifying b' owner | recoveryIdentifying b' owner =>
    have hfault := hcovered.answer rfl
    cases hat
    simp only [acquirePatchLock, hfault, hd] at hlost
    cases hlost
  | quarantining why qpc =>
    cases why with
    | blocked => cases hat
    | active b' =>
      simp only [acquirePatchLock] at hlost
      obtain ⟨pc', hnext, -⟩ | ⟨r, hnext⟩ := quarantine_going staleMs p
        (hcovered.answer rfl) hremembers hrestorable
      · rw [hnext] at hlost
        cases hlost
      · rw [hnext] at hlost
        cases r <;> cases hlost
    | recover b' held =>
      simp only [acquirePatchLock] at hlost
      obtain ⟨pc', hnext⟩ | ⟨r, hnext⟩ := quarantine_next staleMs s p a (.recover b' held) qpc
      · rw [hnext] at hlost
        cases hlost
      · rw [hnext] at hlost
        cases hlost
  | releasing path' b' held again rpc =>
    cases path' with
    | lock => cases hacquiring
    | recovery =>
      have hfault := hcovered.answer rfl
      cases rpc with
      | moved d' => cases hat
      | stat | restat =>
        cases hat
        simp only [acquirePatchLock, releasePatchLock, hfault, hd] at hlost
        cases hlost
      | read i | reread i =>
        cases hat
        obtain ⟨hheld, hi⟩ := hremembers
        have howner : ownerAt s .recovery = some held.owner := by rw [ownerAt, hd]; exact ho
        simp only [acquirePatchLock, releasePatchLock] at hlost
        rw [if_pos ⟨hfault, hi.trans hheld.symm, howner⟩] at hlost
        cases hlost
      | rename =>
        cases hat
        simp only [acquirePatchLock, releasePatchLock, hfault, hd]
      | remove =>
        cases hat
        simp only [acquirePatchLock, releasePatchLock, hfault, if_true]

theorem resume_remembers {why : QuarantineFor} {r : Option Bool}
    (h : ∀ b held, why = .recover b held → held.identity = b.identity) :
    Remembers (why.resume r) := by
  cases why with
  | active b =>
    match r with
    | none | some true | some false => trivial
  | blocked => cases r <;> trivial
  | recover b held => exact h b held rfl

theorem acquire_remembers (hacquiring : acquiring pc = true) (hstanding : Standing s p pc)
    (hremembers : Remembers pc) (hrestorable : restorable s pc = true) (hcovered : Covered a pc) :
    Remembers (acquirePatchLock staleMs s p a pc).2 := by
  cases pc with
  | idle | critical => cases hacquiring
  | making | recoveryMaking | made =>
    simp only [acquirePatchLock]
    repeat' split
    all_goals trivial
  | yielding b | unmaking b | recoveryUnmaking b =>
    simp only [acquirePatchLock]
    first
      | trivial
      | split <;> trivial
  | writing b | recoveryWriting b | identifying b owner =>
    simp only [acquirePatchLock]
    split <;> trivial
  | recoveryIdentifying b owner =>
    obtain ⟨-, d, hd, hb, -⟩ := hstanding .recovery b (some owner) rfl
    simp only [acquirePatchLock, hcovered.answer rfl, hd]
    change d.birth.identity = b.identity
    rw [hb]
  | quarantining why qpc =>
    simp only [acquirePatchLock]
    cases why with
    | active b =>
      obtain ⟨pc', hnext, hok⟩ | ⟨r, hnext⟩ := quarantine_going staleMs p
        (hcovered.answer rfl) hremembers hrestorable
      · rw [hnext]
        exact hok
      · rw [hnext]
        exact resume_remembers (by intro b' held h; cases h)
    | blocked =>
      obtain ⟨pc', hnext⟩ | ⟨r, hnext⟩ := quarantine_next staleMs s p a .blocked qpc
      · rw [hnext]
        trivial
      · rw [hnext]
        exact resume_remembers (by intro b' held h; cases h)
    | recover b held =>
      obtain ⟨pc', hnext⟩ | ⟨r, hnext⟩ := quarantine_next staleMs s p a (.recover b held) qpc
      · rw [hnext]
        exact hremembers
      · rw [hnext]
        exact resume_remembers (by rintro _ _ h; cases h; exact hremembers)
  | releasing path b held again rpc =>
    cases path with
    | lock => cases hacquiring
    | recovery =>
      have hfault := hcovered.answer rfl
      have hdone : Remembers (if again then .making else .idle) := by cases again <;> trivial
      simp only [acquirePatchLock]
      cases rpc with
      | moved | remove => exact hdone
      | stat | restat =>
        obtain ⟨-, d, hd, hb, -⟩ := hstanding .recovery b (some held.owner) rfl
        simp only [releasePatchLock, hfault, hd]
        exact ⟨hremembers, congrArg Birth.identity hb⟩
      | read i | reread i =>
        simp only [releasePatchLock]
        split
        · exact hremembers.1
        · exact hdone
      | rename =>
        simp only [releasePatchLock, hfault]
        split
        · exact hremembers
        · contradiction
        · exact hdone

theorem acquire_mkdir {path : LockPath} {b : Birth}
    (h : (acquirePatchLock staleMs s p a pc).1 = .mkdir path b) :
    holding pc = none ∧ holding (acquirePatchLock staleMs s p a pc).2 = some (path, b, none) := by
  cases pc with
  | making =>
    cases hfault : a.fault with
    | some fault =>
      simp only [acquirePatchLock, hfault] at h
      cases h
    | none =>
      cases hlock : s.dirs .lock <;> simp only [acquirePatchLock, hfault, hlock] at h ⊢ <;> cases h
      exact ⟨rfl, rfl⟩
  | recoveryMaking =>
    cases hfault : a.fault with
    | some fault =>
      simp only [acquirePatchLock, hfault] at h
      cases h
    | none =>
      cases hrecovery : s.dirs .recovery <;>
        simp only [acquirePatchLock, hfault, hrecovery] at h ⊢ <;> cases h
      exact ⟨rfl, rfl⟩
  | quarantining why qpc =>
    have hsteady := quarantine_steady staleMs s p a why qpc
    change (quarantineStaleLock staleMs s p a why qpc).1 = _ at h
    rw [h] at hsteady
    exact hsteady.elim
  | releasing path' b' held again rpc =>
    cases rpc <;> simp only [acquirePatchLock, releasePatchLock] at h <;> split at h <;> cases h
  | idle | critical =>
    simp only [acquirePatchLock] at h
    cases h
  | _ =>
    simp only [acquirePatchLock] at h
    split at h <;> cases h

/-- A call goes on, or it returns. -/
theorem acquire_stays (staleMs : Nat) (s : LockState) (p : Nat) (a : Answer)
    (hacquiring : acquiring pc = true) :
    acquiring (acquirePatchLock staleMs s p a pc).2 = true ∨
      (∃ b held, (acquirePatchLock staleMs s p a pc).2 = .critical b held) ∨
      (acquirePatchLock staleMs s p a pc).2 = .idle := by
  have hresume : ∀ (why : QuarantineFor) (r : Option Bool),
      acquiring (why.resume r) = true ∨ (∃ b held, why.resume r = .critical b held) ∨
        why.resume r = .idle := by
    intro why r
    cases why <;> match r with
      | none | some true | some false => first | exact .inl rfl | exact .inr (.inr rfl)
  cases pc with
  | idle | critical => cases hacquiring
  | quarantining why qpc =>
    simp only [acquirePatchLock]
    obtain ⟨pc', hnext⟩ | ⟨r, hnext⟩ := quarantine_next staleMs s p a why qpc
    · rw [hnext]
      exact .inl rfl
    · rw [hnext]
      exact hresume why r
  | releasing path b held again rpc =>
    cases path with
    | lock => cases hacquiring
    | recovery =>
      simp only [acquirePatchLock]
      cases rpc <;> simp only [releasePatchLock] <;> repeat' split
      all_goals first
        | exact .inl rfl
        | exact .inr (.inr rfl)
  | _ =>
    simp only [acquirePatchLock]
    repeat' split
    all_goals simp [acquiring]

/-- Without a failing call no error comes up but the timeout. -/
theorem acquire_undoomed (hacquiring : acquiring pc = true) (hstanding : Standing s p pc)
    (hdoomed : doomed pc = false) (hrestorable : restorable s pc = true) (hfault : a.fault = none) :
    doomed (acquirePatchLock staleMs s p a pc).2 = false ∧
      outcome a pc (acquirePatchLock staleMs s p a pc).2 ≠ some .failed := by
  have hresume : ∀ (why : QuarantineFor) (r : Bool), doomed (why.resume (some r)) = false ∧
      ∀ qpc, outcome a (.quarantining why qpc) (why.resume (some r)) ≠ some .failed := by
    intro why r
    cases why <;> cases r <;> exact ⟨rfl, fun qpc h => by cases h⟩
  cases pc with
  | idle | critical => cases hacquiring
  | unmaking | recoveryUnmaking => cases hdoomed
  | making =>
    cases hlock : s.dirs .lock with
    | none =>
      simp only [acquirePatchLock, hfault, hlock]
      exact ⟨rfl, by intro h; cases h⟩
    | some d =>
      simp only [acquirePatchLock, hfault, hlock]
      split
      · simp [outcome, hfault, doomed]
      · exact ⟨rfl, by intro h; cases h⟩
  | made b | recoveryMaking =>
    cases hrecovery : s.dirs .recovery <;> simp only [acquirePatchLock, hfault, hrecovery] <;>
      exact ⟨rfl, by intro h; cases h⟩
  | yielding b =>
    simp only [acquirePatchLock]
    split <;> exact ⟨rfl, by intro h; cases h⟩
  | writing b =>
    obtain ⟨-, d, hd, -⟩ := hstanding .lock b none rfl
    simp only [acquirePatchLock, hfault, hd]
    exact ⟨rfl, by intro h; cases h⟩
  | recoveryWriting b =>
    obtain ⟨-, d, hd, -⟩ := hstanding .recovery b none rfl
    simp only [acquirePatchLock, hfault, hd]
    exact ⟨rfl, by intro h; cases h⟩
  | identifying b owner =>
    obtain ⟨-, d, hd, -⟩ := hstanding .lock b (some owner) rfl
    simp only [acquirePatchLock, hfault, hd]
    exact ⟨rfl, by intro h; cases h⟩
  | recoveryIdentifying b owner =>
    obtain ⟨-, d, hd, -⟩ := hstanding .recovery b (some owner) rfl
    simp only [acquirePatchLock, hfault, hd]
    exact ⟨rfl, by intro h; cases h⟩
  | quarantining why qpc =>
    simp only [acquirePatchLock]
    obtain ⟨pc', hnext, hok⟩ | ⟨r, hnext⟩ := quarantine_going staleMs p hfault
      hdoomed hrestorable
    · rw [hnext]
      exact ⟨hok, by intro h; cases h⟩
    · rw [hnext]
      exact ⟨(hresume why r).1, (hresume why r).2 qpc⟩
  | releasing path b held again rpc =>
    cases path with
    | lock => cases hacquiring
    | recovery =>
      cases again with
      | false => cases hdoomed
      | true =>
        simp only [acquirePatchLock]
        cases rpc <;> simp only [releasePatchLock, if_true] <;> repeat' split
        all_goals exact ⟨rfl, by intro h; cases h⟩

end

/-! ## All participants -/

/-- What is known of a live process. -/
structure Tracks (w : Watched) (p : Nat) : Prop where
  running : acquiring (w.lock.processes p).pc = true → w.returned p = none
  holder : acquiring (w.lock.processes p).pc = false → (w.lock.processes p).pc ≠ .idle →
    w.returned p = some .locked
  released : ∀ b held again rpc,
    (w.lock.processes p).pc = .releasing .lock b held again rpc → again = false
  standing : acquiring (w.lock.processes p).pc = true → Standing w.lock p (w.lock.processes p).pc
  remembers : acquiring (w.lock.processes p).pc = true → Remembers (w.lock.processes p).pc
  sole : acquiring (w.lock.processes p).pc = true → ∀ path d, w.lock.dirs path = some d →
    d.birth ∈ w.created p → ∃ o, holding (w.lock.processes p).pc = some (path, d.birth, o)
  undoomed : w.faulty = false → acquiring (w.lock.processes p).pc = true →
    doomed (w.lock.processes p).pc = false

structure Watching (w : Watched) : Prop where
  tracks : ∀ p, (w.lock.processes p).alive = true → Tracks w p
  makers : ∀ p, ∀ b ∈ w.created p, b.maker = p
  clean : ∀ p, Clean w p

theorem initial_watching {w : Watched} (h : InitialWatched w) : Watching w := by
  have hpc := h.pcs
  constructor
  · intro p _
    constructor <;> simp [hpc p, acquiring]
  · intro p b hb
    rw [h.created p] at hb
    cases hb
  · intro p
    constructor
    · intro _ hreturned
      rw [h.returned p] at hreturned
      cases hreturned
    · intro r hr
      rw [h.returned p] at hr
      cases hr

section

variable {w : Watched} {p q : Nat} {a : Answer}

theorem births_mkdir {op : FsOp} {b : Birth} (h : b ∈ births op) : ∃ path, op = .mkdir path b := by
  cases op <;> simp only [births, List.mem_singleton, List.not_mem_nil] at h
  subst h
  exact ⟨_, rfl⟩

theorem mkdir_maker {path : LockPath} {b : Birth}
    (h : (call staleMs w.lock p a).1 = .mkdir path b) : b.maker = p := by
  have permitted : Permitted staleMs w.lock p (w.lock.processes p).pc (call staleMs w.lock p a).1 :=
    acquire_permitted
  rw [h] at permitted
  exact permitted.2.1

theorem acquiring_of_ownerless {pc : Pc} {path : LockPath} {b : Birth}
    (h : holding pc = some (path, b, none)) : acquiring pc = true := by
  cases pc with
  | idle | critical => cases h
  | releasing path' b' held again rpc => cases rpc <;> cases h
  | _ => rfl

/-- The steps of others leave a directory alone that a process still acquires with. -/
theorem standing_other (h : Watching w) (hspares : Spares staleMs w.lock p a)
    (hp : (w.lock.processes p).alive = true) (hq : (w.lock.processes q).alive = true) (hne : q ≠ p)
    (hacquiring : acquiring (w.lock.processes q).pc = true) :
    Standing (perform staleMs w.lock p a) q (w.lock.processes q).pc := by
  intro path b o hat
  obtain ⟨hmaker, d, hd, hb, ho⟩ := (h.tracks q hq).standing hacquiring path b o hat
  have permitted : Permitted staleMs w.lock p (w.lock.processes p).pc (call staleMs w.lock p a).1 :=
    acquire_permitted
  have hdisplace : (call staleMs w.lock p a).1 ≠ .displace path := by
    intro hop
    exact hspares path d hop hd q o hne hacquiring ⟨hq, by rw [hat, hb]⟩
  have hmkdir : ∀ b', (call staleMs w.lock p a).1 ≠ .mkdir path b' := by
    intro b' hop
    rw [hop] at permitted
    rw [permitted.1] at hd
    cases hd
  obtain ⟨d', hd', hb', ho', -⟩ := apply_kept hd hdisplace hmkdir
  refine ⟨hmaker, d', hd', hb'.trans hb, ?_⟩
  rcases ho' with ho' | ⟨r, hop⟩
  · exact ho'.trans ho
  · rw [hop] at permitted
    obtain ⟨b', hwriter⟩ := permitted
    have hwriting := acquiring_of_ownerless hwriter
    obtain ⟨hmaker', d'', hd'', hb'', -⟩ := (h.tracks p hp).standing hwriting path b' none hwriter
    rw [hd] at hd''
    cases hd''
    rw [hb] at hb''
    subst hb''
    exact absurd (hmaker.symm.trans hmaker') hne

/-- Where a process goes on holding its directory, the directory stands. -/
theorem standing_own (h : Tracks w p)
    (hacquiring : acquiring (w.lock.processes p).pc = true) :
    Standing (perform staleMs w.lock p a) p (call staleMs w.lock p a).2 := by
  intro path b o hat
  have hnext : HoldingNext w.lock p (w.lock.processes p).pc (call staleMs w.lock p a) :=
    acquire_holding staleMs w.lock p a _
  cases hnext with
  | lost hnone => cases hnone.symm.trans hat
  | same hsame steady =>
    have hheld := hsame.symm.trans hat
    obtain ⟨hmaker, d, hd, hb, ho⟩ := h.standing hacquiring path b o hheld
    have hdisplace : (call staleMs w.lock p a).1 ≠ .displace path := by
      intro hop
      rw [hop] at steady
      obtain ⟨why, pre, claim, hpc, rfl⟩ := steady
      rw [hpc] at hheld
      cases why <;> cases hheld
    have hmkdir : ∀ b', (call staleMs w.lock p a).1 ≠ .mkdir path b' := by
      intro b' hop
      rw [hop] at steady
      exact steady
    obtain ⟨d', hd', hb', ho', -⟩ := apply_kept hd hdisplace hmkdir
    refine ⟨hmaker, d', hd', hb'.trans hb, ?_⟩
    rcases ho' with ho' | ⟨r, hop⟩
    · exact ho'.trans ho
    · rw [hop] at steady
      exact steady.elim
  | made hmaker hop hmade =>
    cases hmade.symm.trans hat
    refine ⟨hmaker, { birth := b, mtime := w.lock.now, owner := none, claim := none }, ?_, rfl, rfl⟩
    rw [perform_dirs, hop, FsOp.apply, Function.update_self]
  | written hwas hop hwritten =>
    cases hwritten.symm.trans hat
    obtain ⟨hmaker, d, hd, hb, -⟩ := h.standing hacquiring path b none hwas
    refine ⟨hmaker, { d with owner := some (currentOwner w.lock p), mtime := w.lock.now }, ?_, hb, rfl⟩
    rw [perform_dirs, hop, FsOp.apply, Function.update_self, hd, Option.map_some]

/-- Of all that a call made, only what it holds is left. -/
theorem sole_own (h : Tracks w p)
    (hacquiring : acquiring (w.lock.processes p).pc = true)
    (hrestorable : restorable w.lock (w.lock.processes p).pc = true)
    (hcovered : Covered a (w.lock.processes p).pc)
    (hdistinct : ∀ b ∈ births (call staleMs w.lock p a).1, ∀ path d, w.lock.dirs path = some d →
      d.birth ≠ b)
    {path : LockPath} {d : LockDir} (hd : (perform staleMs w.lock p a).dirs path = some d)
    (hcreated : d.birth ∈ births (call staleMs w.lock p a).1 ++ w.created p) :
    ∃ o, holding (call staleMs w.lock p a).2 = some (path, d.birth, o) := by
  rw [perform_dirs] at hd
  rcases apply_origin hd with ⟨d', hd', hbirth⟩ | hop
  · have hold : d'.birth ∈ w.created p := by
      rw [← hbirth] at hcreated
      rcases List.mem_append.mp hcreated with hnew | hold
      · exact absurd rfl (hdistinct _ hnew path d' hd')
      · exact hold
    obtain ⟨o, hat⟩ := h.sole hacquiring path d' hd' hold
    rw [hbirth] at hat
    have hnext : HoldingNext w.lock p (w.lock.processes p).pc (call staleMs w.lock p a) :=
      acquire_holding staleMs w.lock p a _
    cases hnext with
    | lost hlost =>
      have hop : (call staleMs w.lock p a).1 = .displace path :=
        acquire_leaves hacquiring (h.standing hacquiring) (h.remembers hacquiring) hrestorable
          hcovered hat hlost
      rw [hop, FsOp.apply, Function.update_self] at hd
      cases hd
    | same hsame _ => exact ⟨o, hsame.trans hat⟩
    | made _ hop _ =>
      have hnone := (acquire_mkdir hop).1
      rw [hat] at hnone
      cases hnone
    | written hwas _ hwritten =>
      cases hwas.symm.trans hat
      exact ⟨_, hwritten⟩
  · exact ⟨none, (acquire_mkdir hop).2⟩

/-- The state after a call that is not the first half of a snapshot. -/
def after (staleMs : Nat) (w : Watched) (p : Nat) (a : Answer) : Watched :=
  { advance staleMs w p a with faulty := w.faulty || a.fault.isSome }

@[simp] theorem after_lock : (after staleMs w p a).lock = perform staleMs w.lock p a := rfl

theorem after_created_ne (hne : q ≠ p) : (after staleMs w p a).created q = w.created q := by
  simp [after, advance, hne]

theorem after_returned_ne (hne : q ≠ p) : (after staleMs w p a).returned q = w.returned q := by
  simp [after, advance, hne]

theorem after_faulty (h : (after staleMs w p a).faulty = false) :
    w.faulty = false ∧ a.fault = none := by
  simpa [after, advance] using h

/-- What the others know of their calls. -/
theorem after_other (h : Watching w) (hspares : Spares staleMs w.lock p a)
    (hp : (w.lock.processes p).alive = true) (hq : (w.lock.processes q).alive = true)
    (hne : q ≠ p) : Tracks (after staleMs w p a) q := by
  have hpc : ((after staleMs w p a).lock.processes q) = w.lock.processes q := by
    rw [after_lock, perform_ne w.lock a hne]
  have htracks := h.tracks q hq
  constructor
  · rw [hpc, after_returned_ne hne]
    exact htracks.running
  · rw [hpc, after_returned_ne hne]
    exact htracks.holder
  · rw [hpc]
    exact htracks.released
  · rw [hpc]
    intro hacquiring
    exact standing_other h hspares hp hq hne hacquiring
  · rw [hpc]
    exact htracks.remembers
  · rw [hpc, after_created_ne hne]
    intro hacquiring path d hd hcreated
    rw [after_lock, perform_dirs] at hd
    rcases apply_origin hd with ⟨d', hd', hbirth⟩ | hop
    · rw [← hbirth] at hcreated ⊢
      exact htracks.sole hacquiring path d' hd' hcreated
    · exact absurd ((h.makers q _ hcreated).symm.trans (mkdir_maker hop)) hne
  · rw [hpc]
    intro hfaulty
    exact htracks.undoomed (after_faulty hfaulty).1

theorem after_pc (staleMs : Nat) (w : Watched) (p : Nat) (a : Answer) : ((after staleMs w p a).lock.processes p).pc = (call staleMs w.lock p a).2 := by
  rw [after_lock, perform_self]

theorem after_created (hpc : (w.lock.processes p).pc ≠ .idle) :
    (after staleMs w p a).created p = births (call staleMs w.lock p a).1 ++ w.created p := by
  simp [after, advance, hpc]

theorem after_returned (staleMs : Nat) (a : Answer) (hpc : (w.lock.processes p).pc ≠ .idle) :
    (after staleMs w p a).returned p =
      (outcome a (w.lock.processes p).pc (call staleMs w.lock p a).2).or (w.returned p) := by
  simp [after, advance, hpc]

theorem outcome_acquiring {pc pc' : Pc} (h : acquiring pc' = true) : outcome a pc pc' = none := by
  cases pc' with
  | idle | critical => cases h
  | _ => cases pc <;> rfl

/-- A new call has made nothing yet. -/
theorem after_start (hpc : (w.lock.processes p).pc = .idle) :
    Tracks (after staleMs w p a) p ∧ Clean (after staleMs w p a) p := by
  have hnext : ((after staleMs w p a).lock.processes p).pc = .making := by
    rw [after_pc, call, hpc]
    rfl
  have hreturned : (after staleMs w p a).returned p = none := by
    simp [after, advance, hpc]
  have hcreated : (after staleMs w p a).created p = [] := by
    simp [after, advance, hpc]
  constructor
  · constructor <;> rw [hnext] <;>
      simp [hreturned, hcreated, acquiring, Standing, holding, Remembers, doomed]
  · constructor <;> simp [hreturned]

/-- The lock is given back, or it is not: the call that took it has long returned. -/
theorem after_release (h : Tracks w p) (hacquiring : acquiring (w.lock.processes p).pc = false)
    (hpc : (w.lock.processes p).pc ≠ .idle) :
    Tracks (after staleMs w p a) p ∧ Clean (after staleMs w p a) p := by
  have hnext : ((call staleMs w.lock p a).2 = .idle ∨ ∃ b held rpc,
      (call staleMs w.lock p a).2 = .releasing .lock b held false rpc) ∧
      outcome a (w.lock.processes p).pc (call staleMs w.lock p a).2 = none := by
    rw [call]
    cases hat : (w.lock.processes p).pc with
    | idle => exact absurd hat hpc
    | critical b held => exact ⟨.inr ⟨b, held, .stat, rfl⟩, rfl⟩
    | releasing path b held again rpc =>
      cases path with
      | recovery =>
        rw [hat] at hacquiring
        cases hacquiring
      | lock =>
        have hagain := h.released b held again rpc hat
        subst hagain
        simp only [acquirePatchLock]
        cases rpc <;> simp only [releasePatchLock] <;> repeat' split
        all_goals first
          | exact ⟨.inl rfl, rfl⟩
          | exact ⟨.inr ⟨_, _, _, rfl⟩, rfl⟩
          | contradiction
    | _ =>
      rw [hat] at hacquiring
      cases hacquiring
  have hreturned : (after staleMs w p a).returned p = some .locked := by
    rw [after_returned staleMs a hpc, hnext.2, Option.none_or, h.holder hacquiring hpc]
  constructor
  · constructor <;> rw [after_pc] <;> obtain ⟨hidle | ⟨b, held, rpc, hrelease⟩, -⟩ := hnext
    all_goals simp_all [acquiring]
  · constructor <;> simp [hreturned]

/-- A call of `acquire_patch_lock` makes its next step. -/
theorem after_acquire (h : Tracks w p)
    (hacquiring : acquiring (w.lock.processes p).pc = true)
    (hrestorable : restorable w.lock (w.lock.processes p).pc = true)
    (hcovered : Covered a (w.lock.processes p).pc)
    (hdistinct : ∀ b ∈ births (call staleMs w.lock p a).1, ∀ path d, w.lock.dirs path = some d →
      d.birth ≠ b) :
    Tracks (after staleMs w p a) p ∧ Clean (after staleMs w p a) p := by
  have hpc : (w.lock.processes p).pc ≠ .idle := by
    intro hidle
    rw [hidle] at hacquiring
    cases hacquiring
  have hrunning := h.running hacquiring
  have hsole : ∀ path d, (after staleMs w p a).lock.dirs path = some d →
      d.birth ∈ (after staleMs w p a).created p →
        ∃ o, holding (call staleMs w.lock p a).2 = some (path, d.birth, o) := by
    intro path d hd hcreated
    rw [after_created hpc] at hcreated
    exact sole_own h hacquiring hrestorable hcovered hdistinct hd hcreated
  have hreturned := after_returned staleMs a hpc
  rw [hrunning, Option.or_none] at hreturned
  have hundoomed : (after staleMs w p a).faulty = false →
      doomed (call staleMs w.lock p a).2 = false ∧
        outcome a (w.lock.processes p).pc (call staleMs w.lock p a).2 ≠ some .failed := by
    intro hfaulty
    obtain ⟨hbefore, hfault⟩ := after_faulty hfaulty
    exact acquire_undoomed hacquiring (h.standing hacquiring) (h.undoomed hbefore hacquiring)
      hrestorable hfault
  have hpc' := after_pc staleMs w p a
  rcases acquire_stays staleMs w.lock p a hacquiring with
    hgo | ⟨b, held, hcritical⟩ | hidle
  · change acquiring (call staleMs w.lock p a).2 = true at hgo
    rw [outcome_acquiring hgo] at hreturned
    refine ⟨⟨fun _ => hreturned, ?_, ?_, ?_, ?_, ?_, ?_⟩, ?_⟩ <;> try rw [hpc']
    · intro hnot
      rw [hgo] at hnot
      cases hnot
    · intro b held again rpc hrelease
      rw [hrelease] at hgo
      cases hgo
    · intro _
      exact standing_own h hacquiring
    · intro _
      exact acquire_remembers hacquiring (h.standing hacquiring) (h.remembers hacquiring)
        hrestorable hcovered
    · intro _
      exact hsole
    · intro hfaulty _
      exact (hundoomed hfaulty).1
    · constructor <;> simp [hreturned]
  · change (call staleMs w.lock p a).2 = _ at hcritical
    rw [hcritical, outcome] at hreturned
    constructor
    · constructor <;> rw [hpc', hcritical] <;> simp [acquiring, hreturned]
    · constructor <;> simp [hreturned]
  · change (call staleMs w.lock p a).2 = _ at hidle
    constructor
    · constructor <;> rw [hpc', hidle] <;> simp [acquiring]
    · constructor
      · intro hfaulty
        rw [hreturned]
        exact (hundoomed hfaulty).2
      · intro r _ _ path d hd hcreated
        obtain ⟨o, hat⟩ := hsole path d hd hcreated
        rw [hidle] at hat
        cases hat

theorem distinct_birth (hanswer : answered w p a = a)
    (h : distinct staleMs w (.act p a) = true) :
    ∀ b ∈ births (call staleMs w.lock p a).1, ∀ path d, w.lock.dirs path = some d →
      d.birth ≠ b := by
  intro b hb path d hd heq
  simp only [distinct, hanswer, List.all_eq_true] at h
  have hpath := h b hb path (by cases path <;> simp)
  rw [hd, Option.all_some, decide_eq_true_eq] at hpath
  exact hpath (congrArg Birth.identity heq)

theorem after_watching (h : Watching w) (hspares : Spares staleMs w.lock p a)
    (hrestorable : restorable w.lock (w.lock.processes p).pc = true)
    (hcovered : Covered a (w.lock.processes p).pc)
    (hdistinct : ∀ b ∈ births (call staleMs w.lock p a).1, ∀ path d, w.lock.dirs path = some d →
      d.birth ≠ b) (hp : (w.lock.processes p).alive = true) : Watching (after staleMs w p a) := by
  have hown : Tracks (after staleMs w p a) p ∧ Clean (after staleMs w p a) p := by
    by_cases hpc : (w.lock.processes p).pc = .idle
    · exact after_start hpc
    · cases hacquiring : acquiring (w.lock.processes p).pc with
      | true => exact after_acquire (h.tracks p hp) hacquiring hrestorable hcovered hdistinct
      | false => exact after_release (h.tracks p hp) hacquiring hpc
  have hmakers : ∀ q, ∀ b ∈ (after staleMs w p a).created q, b.maker = q := by
    intro q b hb
    by_cases hqp : q = p
    · subst hqp
      by_cases hpc : (w.lock.processes q).pc = .idle
      · simp [after, advance, hpc] at hb
      · rw [after_created hpc] at hb
        rcases List.mem_append.mp hb with hnew | hold
        · obtain ⟨path, hop⟩ := births_mkdir hnew
          exact mkdir_maker hop
        · exact h.makers q b hold
    · rw [after_created_ne hqp] at hb
      exact h.makers q b hb
  refine ⟨fun q hq => ?_, hmakers, fun q => ?_⟩
  · by_cases hqp : q = p
    · subst hqp
      exact hown.1
    · rw [after_lock, perform_ne w.lock a hqp] at hq
      exact after_other h hspares hp hq hqp
  · by_cases hqp : q = p
    · subst hqp
      exact hown.2
    · constructor
      · intro hfaulty
        rw [after_returned_ne hqp]
        exact (h.clean q).timeout (after_faulty hfaulty).1
      · intro r hr hlocked path d hd hcreated
        rw [after_returned_ne hqp] at hr
        have hmaker := hmakers q _ hcreated
        rw [after_created_ne hqp] at hcreated
        rw [after_lock, perform_dirs] at hd
        rcases apply_origin hd with ⟨d', hd', hbirth⟩ | hop
        · rw [← hbirth] at hcreated
          exact (h.clean q).gone r hr hlocked path d' hd' hcreated
        · exact hqp (hmaker.symm.trans (mkdir_maker hop))

/-- Every step, taken with care. -/
theorem step_watching {x : Watched} {e : LockEvent} (h : Watching w)
    (step : Guarded (Careful staleMs) (WatchedStep staleMs) w e x) : Watching x := by
  obtain ⟨hcareful, hdistinct, hnext⟩ := step
  cases e with
  | tick ms =>
    simp only [watchedNext, lockNext, Option.map_some, Option.some.injEq] at hnext
    subst hnext
    exact ⟨fun q hq => { h.tracks q hq with }, h.makers, fun q => { h.clean q with }⟩
  | crash p =>
    simp only [watchedNext, lockNext, Option.map_some, Option.some.injEq] at hnext
    subst hnext
    refine ⟨fun q hq => ?_, h.makers, fun q => { h.clean q with }⟩
    by_cases hqp : q = p
    · subst hqp
      simp at hq
    · simp only [Function.update_of_ne hqp] at hq
      obtain ⟨h1, h2, h3, h4, h5, h6, h7⟩ := h.tracks q hq
      constructor <;> simp only [Function.update_of_ne hqp] <;> assumption
  | act p a =>
    obtain ⟨hspares, hvanished, hrestorable, hcovered⟩ := hcareful
    have hanswer : answered w p a = a := by simp [answered, hvanished]
    simp only [watchedNext, hanswer] at hnext
    split at hnext
    · next hp =>
      split at hnext
      · cases hnext
        exact ⟨fun q hq => { h.tracks q hq with }, h.makers, fun q => { h.clean q with }⟩
      · cases hnext
        change Watching (after staleMs w p a)
        exact after_watching h hspares hrestorable hcovered (distinct_birth hanswer hdistinct) hp
    · cases hnext

/-- Acquiring fails by timeout only, unless a call fails; and no error leaves a directory. -/
theorem acquire_fails_clean {x : Watched} {es : List LockEvent} (h : InitialWatched w)
    (run : Run (Guarded (Careful staleMs) (WatchedStep staleMs)) w es x) : ∀ p, Clean x p := by
  have hwatching : Watching x :=
    run.invariant (I := Watching) step_watching (initial_watching h)
  exact hwatching.clean

/-- Where nobody's claim is disturbed and nobody stalls, every directory is spared. -/
theorem settled_spares {s : LockState} (h : Settled staleMs s)
    (hp : (s.processes p).alive = true) : Spares staleMs s p a := by
  intro path d hop _ q o hne _ hq
  exact hne (displace_spares h.inv h.timely hp hop hq)

end

/-! ## A claim that goes between its metadata and its content -/

def unwatched : Watched :=
  { lock := unlocked, peeked := fun _ => false, created := fun _ => [], returned := fun _ => none,
    faulty := false }

theorem unwatched_initial : InitialWatched unwatched :=
  { unlocked_initial with created := fun _ => rfl, returned := fun _ => rfl, faulty := rfl }

/-- Follows a schedule of steps that meet a check. -/
def watchedExec (ok : Watched → LockEvent → Bool) : Watched → List LockEvent → Option Watched :=
  exec fun w e =>
    if ok w e && distinct 60000 w e then watchedNext 60000 w e else none

theorem watchedExec_run {ok : Watched → LockEvent → Bool} {G : Watched → LockEvent → Prop}
    (hok : ∀ {w e}, ok w e = true → G w e) {w x : Watched} {es : List LockEvent}
    (h : watchedExec ok w es = some x) : Run (Guarded G (WatchedStep 60000)) w es x := by
  refine Run.of_exec (fun {s e t} hstep => ?_) h
  split at hstep
  · next hboth =>
    rw [Bool.and_eq_true] at hboth
    exact ⟨hok hboth.1, hboth.2, hstep⟩
  · cases hstep

/-- No directory is taken away, and no call fails. -/
def quiet (w : Watched) : LockEvent → Bool
  | .act p a =>
    (match (call 60000 w.lock p a).1 with
      | .displace _ => false
      | _ => true) && !vanished w p a && restorable w.lock (w.lock.processes p).pc && a.fault.isNone
  | _ => true

theorem quiet_careful {w : Watched} {e : LockEvent} (h : quiet w e = true) : Careful 60000 w e := by
  cases e with
  | act p a =>
    simp only [quiet, Bool.and_eq_true, Bool.not_eq_true'] at h
    obtain ⟨⟨⟨hop, hvanished⟩, hrestorable⟩, hfault⟩ := h
    refine ⟨?_, hvanished, hrestorable, ?_⟩
    · intro path d hdisplace
      rw [hdisplace] at hop
      cases hop
    · intro hsome
      rw [Option.isNone_iff_eq_none] at hfault
      rw [hfault] at hsome
      cases hsome
  | _ => trivial

/-- One process has the lock, and another gives up at its deadline. -/
theorem acquire_fails_clean_late :
    ∃ x, Run (Guarded (Careful 60000) (WatchedStep 60000)) unwatched
        (turns 0 5 1 ++ [.act 1 {}, .act 1 { late := true }]) x ∧
      x.returned 0 = some .locked ∧ x.returned 1 = some .timedOut ∧ ∀ p, Clean x p := by
  have hexec : (watchedExec quiet unwatched
      (turns 0 5 1 ++ [.act 1 {}, .act 1 { late := true }])).any (fun x =>
        x.returned 0 = some .locked ∧ x.returned 1 = some .timedOut) = true := by decide +kernel
  obtain ⟨x, hx, hreturned⟩ := (Option.any_eq_true _ _).mp hexec
  have run := watchedExec_run quiet_careful hx
  obtain ⟨hfirst, hsecond⟩ := of_decide_eq_true hreturned
  exact ⟨x, run, hfirst, hsecond, acquire_fails_clean unwatched_initial run⟩

/-- Process 0 dies with the recovery lock, while 3 has the lock. 1 claims the recovery lock and 3
gives its lock back. 2 makes the lock and finds the recovery lock, and the claim of 1 in it. -/
def meeting : List LockEvent :=
  turns 3 5 1 ++ turns 0 5 2 ++ [.crash 0] ++ turns 1 8 0 ++ turns 3 5 0 ++ turns 2 9 3

/-- 1 takes the recovery lock away before 2 has read the claim, and 2 returns. -/
theorem vanished_claim_fails :
    ∃ x d, Run (WatchedStep 60000) unwatched (meeting ++ turns 1 4 0 ++ turns 2 1 0) x ∧
      x.faulty = false ∧ x.returned 2 = some .failed ∧ x.lock.dirs .lock = some d ∧
      d.birth ∈ x.created 2 ∧ d.owner = none := by
  have hexec : (watchedExec (fun _ _ => true) unwatched
      (meeting ++ turns 1 4 0 ++ turns 2 1 0)).any (fun x =>
        x.faulty = false ∧ x.returned 2 = some .failed ∧ (x.lock.dirs .lock).any (fun d =>
          d.birth ∈ x.created 2 ∧ d.owner = none) = true) = true := by
    decide +kernel
  obtain ⟨x, hx, hend⟩ := (Option.any_eq_true _ _).mp hexec
  obtain ⟨hfaulty, hreturned, hleft⟩ := of_decide_eq_true hend
  obtain ⟨d, hd, hboth⟩ := (Option.any_eq_true _ _).mp hleft
  obtain ⟨hcreated, howner⟩ := of_decide_eq_true hboth
  have run := watchedExec_run (G := fun _ _ => True) (fun _ => trivial) hx
  exact ⟨x, d, run.mono fun h => h.2, hfaulty, hreturned, hd, hcreated, howner⟩

end Climon.Store.LockOutcomes
