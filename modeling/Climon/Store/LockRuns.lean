import Climon.Store.LockCalls

namespace Climon.Store.LockRuns

open Climon.Lib.Transition Climon.Store.PatchLock Climon.Store.LockHolding
  Climon.Store.LockInvariant Climon.Store.LockCalls

/-! # At most one process in its critical section -/

variable {staleMs : Nat}

/-! ## The invariant over every step -/

theorem acquire_quarantining {s : LockState} {p : Nat} {a : Answer} {pc : Pc}
    {why : QuarantineFor} {pc' : QuarantinePc}
    (h : (acquirePatchLock staleMs s p a pc).2 = .quarantining why pc') :
    pc' = .stat ∨ ∃ pc₀, pc = .quarantining why pc₀ := by
  cases pc with
  | quarantining why₀ pc₀ =>
    rcases quarantine_next staleMs s p a why₀ pc₀ with ⟨pc₁, hnext⟩ | ⟨result, hnext⟩
    · cases hnext.symm.trans h
      exact .inr ⟨pc₀, rfl⟩
    · exact absurd (hnext.symm.trans h) (resume_ne _ _ _ _)
  | releasing path b held again pc =>
    have hdone : (if again then Pc.making else .idle) ≠ .quarantining why pc' := by
      cases again <;> nofun
    cases pc <;> simp only [acquirePatchLock, releasePatchLock] at h
    case stat | read | rename | restat | reread =>
      split at h <;> first | cases h | exact absurd h hdone
    case remove | moved => exact absurd h hdone
  | idle | making | made | yielding | writing | unmaking | identifying | critical | recoveryMaking
  | recoveryWriting | recoveryUnmaking | recoveryIdentifying =>
    simp only [acquirePatchLock] at h
    repeat' split at h
    all_goals
      cases h
      try exact .inl rfl

theorem perform_own {s : LockState} {p : Nat} {a : Answer} (inv : LockInv staleMs s)
    (timely : Timely staleMs s) (hp : (s.processes p).alive = true)
    (undisturbed : Undisturbed staleMs s (.act p a)) :
    ProcessInv staleMs (perform staleMs s p a) p := by
  have hevolves := perform_evolves undisturbed.fresh
  refine ⟨fun h => (perform_held inv timely hp h).1, fun h => ?_, perform_gone inv hevolves,
    fun {why pc'} h => ?_⟩
  · rw [perform_self]
    exact (perform_held inv timely hp h).2 _ rfl
  · rw [perform_self] at h
    rcases acquire_quarantining h with rfl | ⟨pc, hpc⟩
    · trivial
    · exact perform_reclaiming inv hp hevolves hpc (hpc ▸ undisturbed.intact) h

theorem perform_inv {s : LockState} {p : Nat} {a : Answer} (inv : LockInv staleMs s)
    (timely : Timely staleMs s) (hp : (s.processes p).alive = true)
    (undisturbed : Undisturbed staleMs s (.act p a)) :
    LockInv staleMs (perform staleMs s p a) where
  known hd' := by
    rcases apply_origin hd' with ⟨d, hd, hbirth⟩ | hop
    · exact List.mem_append_right _ (hbirth ▸ inv.known hd)
    · exact List.mem_append_left _ (by rw [hop]; exact List.mem_singleton_self _)
  aged {path d'} hd' := by
    have permitted : Permitted staleMs s p (s.processes p).pc (call staleMs s p a).1 :=
      acquire_permitted
    rcases apply_cases hd' with h | ⟨b, hop, rfl⟩ | ⟨d, hd, ⟨o, -, rfl⟩ | ⟨file, -, rfl⟩ | ⟨-, rfl⟩⟩
    · exact inv.aged h
    · rw [hop] at permitted
      exact ⟨Nat.le_of_eq permitted.2.2, Nat.le_of_eq permitted.2.2⟩
    · exact ⟨(inv.aged hd).2, (inv.aged hd).2⟩
    · exact ⟨(inv.aged hd).2, (inv.aged hd).2⟩
    · exact ⟨(inv.aged hd).2, (inv.aged hd).2⟩
  apart hd hd' hidentity := by
    have hnew : ∀ {path b}, (call staleMs s p a).1 = .mkdir path b → b.identity ∉ s.identities :=
      fun hop => undisturbed.fresh _ (by rw [hop]; exact List.mem_singleton_self _)
    rcases apply_origin hd with ⟨e, he, hbirth⟩ | hop <;>
      rcases apply_origin hd' with ⟨e', he', hbirth'⟩ | hop'
    · exact inv.apart he he' (by rw [hbirth, hbirth', hidentity])
    · exact absurd (inv.known he) (by rw [hbirth, hidentity]; exact hnew hop')
    · exact absurd (inv.known he') (by rw [hbirth', ← hidentity]; exact hnew hop)
    · exact (FsOp.mkdir.inj (hop.symm.trans hop')).1
  drawn {path d' file} hd' hfile := by
    have hdraws := (perform_evolves undisturbed.fresh).draws
    have permitted : Permitted staleMs s p (s.processes p).pc (call staleMs s p a).1 :=
      acquire_permitted
    rcases apply_cases hd' with
      h | ⟨b, -, rfl⟩ | ⟨d, hd, ⟨o, -, rfl⟩ | ⟨file', hop, rfl⟩ | ⟨-, rfl⟩⟩
    · exact Nat.lt_of_lt_of_le (inv.drawn h hfile) (hdraws _)
    · cases hfile
    · exact Nat.lt_of_lt_of_le (inv.drawn hd hfile) (hdraws _)
    · cases hfile
      rw [hop] at permitted
      rcases permitted.2 with ⟨why, pre, hpc⟩ | ⟨why, moved, hpc⟩
      · have mine := ((inv.process hp).reclaiming hpc).2.mine
        refine Nat.lt_of_lt_of_le ?_ (hdraws _)
        rw [mine.process]
        exact mine.draw
      · exact ((inv.process hp).reclaiming hpc).elim
    · cases hfile
  process {q} hq := by
    by_cases hne : q = p
    · subst hne
      exact perform_own inv timely hp undisturbed
    · have hq' : (s.processes q).alive = true := by rwa [perform_ne s a hne] at hq
      exact (perform_rely inv timely hp undisturbed hq' hne).process inv timely hq

theorem tick_rely {s : LockState} {p ms : Nat} (inv : LockInv staleMs s)
    (hp : (s.processes p).alive = true) : Rely s { s with now := s.now + ms } p where
  later := Nat.le_add_right _ _
  dying h := h
  scopes _ := rfl
  draws _ := Nat.le_refl _
  known h := h
  origin {_ d'} h _ := ⟨d', h, rfl⟩
  self := rfl
  written hd hd' _ := by
    cases hd.symm.trans hd'
    exact .inl rfl
  claims {_ d' _} hd' hfile _ := ⟨d', hd', rfl, hfile⟩
  kept h := ((inv.process hp).held h).2
  confirmed hpc := ((inv.process hp).reclaiming hpc).2.2.2

theorem tick_inv {s : LockState} {ms : Nat} (inv : LockInv staleMs s)
    (timely : Timely staleMs s) : LockInv staleMs { s with now := s.now + ms } where
  known := inv.known
  aged hd := ⟨(inv.aged hd).1, Nat.le_trans (inv.aged hd).2 (Nat.le_add_right _ _)⟩
  apart := inv.apart
  drawn := inv.drawn
  process hp := (tick_rely inv hp).process inv timely hp

def crashed (s : LockState) (p : Nat) : LockState :=
  { s with processes := Function.update s.processes p { s.processes p with alive := false } }

theorem crashed_ne (s : LockState) {p q : Nat} (h : q ≠ p) :
    (crashed s p).processes q = s.processes q := by
  simp [crashed, h]

theorem crashed_self (s : LockState) (p : Nat) :
    (crashed s p).processes p = { s.processes p with alive := false } := by
  simp [crashed]

theorem crash_rely {s : LockState} {p q : Nat} (inv : LockInv staleMs s)
    (hq : (s.processes q).alive = true) (hne : q ≠ p) : Rely s (crashed s p) q where
  later := Nat.le_refl _
  dying {r} h := by
    by_cases hr : r = p
    · rw [hr, crashed_self] at h
      cases h
    · rwa [crashed_ne s hr] at h
  scopes r := by
    by_cases hr : r = p
    · rw [hr, crashed_self]
    · rw [crashed_ne s hr]
  draws r := by
    by_cases hr : r = p
    · exact Nat.le_of_eq (by rw [hr, crashed_self])
    · exact Nat.le_of_eq (by rw [crashed_ne s hr])
  known h := h
  origin {_ d'} h _ := ⟨d', h, rfl⟩
  self := crashed_ne s hne
  written hd hd' _ := by
    cases hd.symm.trans hd'
    exact .inl rfl
  claims {_ d' _} hd' hfile _ := ⟨d', hd', rfl, hfile⟩
  kept h := ((inv.process hq).held h).2
  confirmed hpc := ((inv.process hq).reclaiming hpc).2.2.2

theorem crash_inv {s : LockState} {p : Nat} (inv : LockInv staleMs s)
    (timely : Timely staleMs s) : LockInv staleMs (crashed s p) where
  known := inv.known
  aged := inv.aged
  apart := inv.apart
  drawn {_ _ file} hd hfile := by
    have hdrawn := inv.drawn hd hfile
    by_cases hr : file.owner.token.process = p
    · rwa [hr, crashed_self, ← hr]
    · rwa [crashed_ne s hr]
  process {q} hq := by
    by_cases hne : q = p
    · rw [hne, crashed_self] at hq
      cases hq
    · exact (crash_rely inv (by rwa [crashed_ne s hne] at hq) hne).process inv timely hq

/-- A state the claims have not been disturbed on the way to. -/
structure Settled (staleMs : Nat) (s : LockState) : Prop where
  inv : LockInv staleMs s
  timely : Timely staleMs s

theorem step_settled {s t : LockState} {e : LockEvent} (h : Settled staleMs s)
    (step : Guarded (Undisturbed staleMs) (LockStep staleMs) s e t) : Settled staleMs t := by
  obtain ⟨undisturbed, hnext, timely⟩ := step
  refine ⟨?_, timely⟩
  cases e with
  | tick ms =>
    cases hnext
    exact tick_inv h.inv h.timely
  | crash p =>
    cases hnext
    exact crash_inv h.inv h.timely
  | act p a =>
    simp only [lockNext] at hnext
    split at hnext
    · next hp =>
      cases hnext
      exact perform_inv h.inv h.timely hp undisturbed
    · cases hnext

theorem initial_settled {s : LockState} (h : Initial s) : Settled staleMs s where
  inv :=
    { known := fun {path _} hd => by rw [h.dirs path] at hd; cases hd
      aged := fun {path _} hd => by rw [h.dirs path] at hd; cases hd
      apart := fun {path _ _ _} hd => by rw [h.dirs path] at hd; cases hd
      drawn := fun {path _ _} hd => by rw [h.dirs path] at hd; cases hd
      process := fun {p} _ =>
        { held := fun holds => by have hat := holds.at_pc; rw [h.pcs p] at hat; cases hat
          owner := fun holds => by have hat := holds.at_pc; rw [h.pcs p] at hat; cases hat
          gone := fun haside => by rw [h.pcs p] at haside; cases haside
          reclaiming := fun hpc => by rw [h.pcs p] at hpc; cases hpc } }
  timely :=
    { window := fun {p _ _} holds => by have hat := holds.at_pc; rw [h.pcs p] at hat; cases hat
      holder := fun {p _ _ _} holds => by have hat := holds.at_pc; rw [h.pcs p] at hat; cases hat
      claimant := fun {p _} _ hclaimed => by rw [h.pcs p] at hclaimed; cases hclaimed }

/-! ## The lock -/

/-- The directory the next call of `p` renames away or removes. -/
def takes (staleMs : Nat) (s : LockState) (p : Nat) (a : Answer) : Option LockDir :=
  match (call staleMs s p a).1 with
  | .displace path => s.dirs path
  | .discard d => some d
  | _ => none

theorem takes_spares {s : LockState} {p q : Nat} {a : Answer} {d : LockDir} {path : LockPath}
    {o : Option PatchLockOwner} (h : Settled staleMs s) (hp : (s.processes p).alive = true)
    (htakes : takes staleMs s p a = some d) (hq : Holds s q path d.birth o) : q = p := by
  obtain ⟨-, d', hd', hbirth, -⟩ := (h.inv.process hq.alive).held hq
  have permitted : Permitted staleMs s p (s.processes p).pc (call staleMs s p a).1 :=
    acquire_permitted
  rw [takes] at htakes
  split at htakes
  · next path' hop =>
    have hpath := h.inv.apart hd' htakes (by rw [hbirth])
    exact displace_spares h.inv h.timely hp (hpath ▸ hop) hq
  · next e hop =>
    cases htakes
    rw [hop] at permitted
    have haside : aside (s.processes p).pc = some d := by
      rcases permitted with ⟨why, pre, hpc⟩ | ⟨path', b, held, again, hpc⟩ <;> rw [hpc] <;> rfl
    exact absurd (by rw [hbirth]) (((h.inv.process hp).gone haside).2 hd')
  · cases htakes

theorem critical_holds {s : LockState} {p : Nat} (h : Critical s p) :
    ∃ b o, Holds s p .lock b o := by
  obtain ⟨halive, b, held, hpc⟩ := h
  exact ⟨b, some held.owner, halive, by rw [hpc]; rfl⟩

/-- As long as every claim file that is renamed or removed is the one that was read before, at
most one live process is in its critical section, and nobody renames or removes the directory
of another live process. -/
theorem patch_lock_exclusive {s t : LockState} {es : List LockEvent} (h : Initial s)
    (run : Run (Guarded (Undisturbed staleMs) (LockStep staleMs)) s es t) :
    (∀ p q, Critical t p → Critical t q → p = q) ∧
      ∀ p a d, (t.processes p).alive = true → takes staleMs t p a = some d →
        ∀ q path o, Holds t q path d.birth o → q = p := by
  have hsettled : Settled staleMs t :=
    run.invariant (I := Settled staleMs) step_settled (initial_settled h)
  refine ⟨fun p q hp hq => ?_, fun p a d hp htakes q path o hq => ?_⟩
  · obtain ⟨b, o, hp⟩ := critical_holds hp
    obtain ⟨b', o', hq⟩ := critical_holds hq
    exact hsettled.inv.holder_unique hp hq
  · exact takes_spares hsettled hp htakes hq

/-! ## Runs on a standing clock -/

theorem timely_of_now {s : LockState} (h : s.now = 0) : Timely staleMs s where
  window _ := h ▸ Nat.zero_le _
  holder _ _ := h ▸ Nat.zero_le _
  claimant _ _ _ := h ▸ Nat.zero_le _

def ticks : LockEvent → Bool
  | .tick _ => true
  | .crash _ | .act _ _ => false

/-- No clock runs, so that every state is timely. -/
theorem exec_still (ok : LockState → LockEvent → Bool) {s t : LockState} {es : List LockEvent}
    (h : exec (fun s e => if ok s e then lockNext staleMs s e else none) s es = some t)
    (hnow : s.now = 0) (hes : es.any ticks = false) :
    Run (Guarded (fun s e => ok s e = true) (LockStep staleMs)) s es t := by
  induction es generalizing s with
  | nil =>
    cases h
    exact .nil _
  | cons e es ih =>
    obtain ⟨u, hu, hrest⟩ := Option.bind_eq_some_iff.mp h
    obtain ⟨he, hes⟩ := Bool.or_eq_false_iff.mp hes
    change (if ok s e = true then lockNext staleMs s e else none) = some u at hu
    split at hu
    · next hok =>
      have hnow' : u.now = 0 := by
        cases e with
        | tick ms => cases he
        | crash p =>
          cases hu
          exact hnow
        | act p a =>
          simp only [lockNext] at hu
          split at hu
          · cases hu
            exact hnow
          · cases hu
      exact .cons ⟨hok, hu, timely_of_now hnow'⟩ (ih hrest hnow' hes)
    · cases hu

instance (s : LockState) (p : Nat) : Decidable (Critical s p) :=
  decidable_of_iff ((s.processes p).alive = true ∧
      (match (s.processes p).pc with | .critical _ _ => true | _ => false) = true) <| by
    refine and_congr_right fun _ => ?_
    cases (s.processes p).pc <;> simp

def unlocked : LockState :=
  { now := 0, dirs := fun _ => none, identities := [],
    processes := fun _ => { alive := true, scope := 0, drawn := 0, pc := .idle } }

theorem unlocked_initial : Initial unlocked :=
  ⟨fun _ => rfl, fun _ => rfl⟩

/-- `p` makes its next `n` calls, and what it makes gets this identity. -/
def turns (p n identity : Nat) : List LockEvent :=
  List.replicate n (.act p { identity := identity })

/-- The lock of a dead process is taken away and taken anew. -/
theorem patch_lock_exclusive_reclaimed :
    ∃ t, Run (Guarded (Undisturbed 60000) (LockStep 60000)) unlocked
        (turns 0 5 1 ++ [.crash 0] ++ turns 1 9 2 ++ turns 1 10 3 ++ turns 1 4 4) t ∧
      Critical t 1 ∧ (∀ p q, Critical t p → Critical t q → p = q) ∧
      ∀ p a d, (t.processes p).alive = true → takes 60000 t p a = some d →
        ∀ q path o, Holds t q path d.birth o → q = p := by
  have hexec : (exec (fun s e => if undisturbed 60000 s e then lockNext 60000 s e else none)
      unlocked (turns 0 5 1 ++ [.crash 0] ++ turns 1 9 2 ++ turns 1 10 3 ++ turns 1 4 4)).any
        (fun t => Critical t 1) = true := by decide +kernel
  obtain ⟨t, ht, hcritical⟩ := (Option.any_eq_true _ _).mp hexec
  have run := exec_still (undisturbed 60000) ht rfl (by decide)
  exact ⟨t, run, of_decide_eq_true hcritical, patch_lock_exclusive unlocked_initial run⟩

/-! ## The claim of a live process is taken away -/

/-- Process 0 dies with the lock, 1 with the recovery lock and a claim on the lock, and 2 with a
claim on the recovery lock. The others come to find these claims. -/
def abandoned : List LockEvent :=
  turns 0 5 1 ++ [.crash 0] ++ turns 1 9 2 ++ turns 1 1 3 ++ [.crash 1] ++
    turns 2 8 4 ++ [.crash 2] ++ turns 3 9 0 ++ turns 4 7 0 ++ turns 5 7 0 ++ turns 6 9 0 ++
    turns 7 9 0

/-- 3 puts its claim in the place of the dead one. 6 still means to remove the dead claim, and
removes that of 3; then 7 that of 4. So 3, 4 and 5 are all about to take the recovery lock away. -/
def threeReclaimers : List LockEvent :=
  turns 3 6 5 ++ turns 6 1 0 ++ turns 4 4 6 ++ turns 7 1 0 ++ turns 5 4 7 ++ turns 6 2 0 ++
    turns 7 2 0

/-- 3 takes the dead recovery lock away, 4 and 5 take those that 3 and 6 have made since. Now 3, 6
and 7 reclaim the lock side by side, and 7 removes the claim of 3. -/
def sideBySide : List LockEvent :=
  turns 3 2 0 ++ turns 3 10 8 ++ turns 4 1 0 ++ turns 6 8 9 ++ turns 5 1 0 ++ turns 7 10 10 ++
    turns 3 6 11 ++ turns 7 1 0 ++ turns 6 4 12 ++ turns 7 6 0

/-- 3 takes the dead lock away and makes its own. -/
def reacquired : List LockEvent :=
  turns 3 3 0 ++ turns 3 4 13

/-- Whether the directory that `p` takes next is the lock `q` holds. -/
def robs (s : LockState) (p q : Nat) : Bool :=
  (takes 60000 s p {}).any fun d =>
    (holding (s.processes q).pc).any fun h => h.1 = .lock && h.2.1 = d.birth

theorem robs_holds {s : LockState} {p q : Nat} (h : robs s p q = true)
    (hq : (s.processes q).alive = true) :
    ∃ d o, takes 60000 s p {} = some d ∧ Holds s q .lock d.birth o := by
  obtain ⟨d, hd, h⟩ := (Option.any_eq_true _ _).mp h
  obtain ⟨⟨path, b, o⟩, hat, h⟩ := (Option.any_eq_true _ _).mp h
  obtain ⟨hpath, hbirth⟩ := Bool.and_eq_true_iff.mp h
  cases of_decide_eq_true hpath
  cases of_decide_eq_true hbirth
  exact ⟨d, o, hd, hq, hat⟩

/-- 6 takes away the lock of 3, which is in its critical section, and 7 joins it there. No
directory identity is used twice. -/
theorem two_in_critical_section :
    ∃ s t, Run (LockStep 60000) unlocked
        (abandoned ++ threeReclaimers ++ sideBySide ++ reacquired) s ∧
      Run (LockStep 60000) s (turns 6 1 0 ++ turns 7 4 14) t ∧
      (∃ d o, takes 60000 s 6 {} = some d ∧ Holds s 3 .lock d.birth o) ∧
      Critical t 3 ∧ Critical t 7 ∧ t.identities.Nodup := by
  let next := fun s e => if true then lockNext 60000 s e else none
  have hexec : (exec next unlocked
      (abandoned ++ threeReclaimers ++ sideBySide ++ reacquired)).any (fun s =>
        s.now = 0 ∧ (s.processes 3).alive = true ∧ robs s 6 3 = true ∧
          (exec next s (turns 6 1 0 ++ turns 7 4 14)).any (fun t =>
            Critical t 3 ∧ Critical t 7 ∧ t.identities.Nodup) = true) = true := by
    decide +kernel
  obtain ⟨s, hs, hexec⟩ := (Option.any_eq_true _ _).mp hexec
  obtain ⟨hnow, halive, hrobs, hexec⟩ := of_decide_eq_true hexec
  obtain ⟨t, ht, hexec⟩ := (Option.any_eq_true _ _).mp hexec
  obtain ⟨hthree, hseven, hnodup⟩ := of_decide_eq_true hexec
  have first := exec_still (fun _ _ => true) hs rfl (by decide)
  have second := exec_still (fun _ _ => true) ht hnow (by decide)
  exact ⟨s, t, first.mono fun h => h.2, second.mono fun h => h.2, robs_holds hrobs halive,
    hthree, hseven, hnodup⟩

end Climon.Store.LockRuns
