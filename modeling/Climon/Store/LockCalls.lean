import Climon.Store.LockInvariant

namespace Climon.Store.LockCalls

open Climon.Lib.Transition Climon.Store.PatchLock Climon.Store.LockHolding
  Climon.Store.LockInvariant

/-! # What a call does for its own process -/

variable {staleMs : Nat}

theorem resume_holding (why : QuarantineFor) (pc : QuarantinePc) (result : Option Bool) :
    holding (why.resume result) = none ∨
      holding (why.resume result) = holding (.quarantining why pc) := by
  cases why with
  | active b =>
    match result with
    | none => exact .inl rfl
    | some true => exact .inr rfl
    | some false => exact .inr rfl
  | blocked => cases result <;> exact .inl rfl
  | recover b held => exact .inr rfl

theorem resume_ne (why why' : QuarantineFor) (pc : QuarantinePc) (result : Option Bool) :
    why.resume result ≠ .quarantining why' pc := by
  cases why with
  | active b =>
    match result with
    | none => nofun
    | some true => nofun
    | some false => nofun
  | blocked => cases result <;> nofun
  | recover b held => nofun

theorem quarantine_next (staleMs : Nat) (s : LockState) (p : Nat) (a : Answer)
    (why : QuarantineFor) (pc : QuarantinePc) :
    (∃ pc', (quarantineStaleLock staleMs s p a why pc).2 = .quarantining why pc') ∨
      ∃ result, (quarantineStaleLock staleMs s p a why pc).2 = why.resume result := by
  cases pc <;> simp only [quarantineStaleLock] <;> repeat' split
  all_goals first
    | exact .inl ⟨_, rfl⟩
    | exact .inr ⟨_, rfl⟩

/-- A call that neither makes nor writes nor, outside a reclaim, takes anything away. -/
def Steady (pc : Pc) : FsOp → Prop
  | .mkdir _ _ | .writeOwner _ _ => False
  | .displace path =>
    ∃ why pre claim, pc = .quarantining why (.displacing pre claim) ∧ why.path = path
  | .read | .discard _ | .writeClaim _ _ | .dropClaim _ => True

/-- How what a process holds follows from one call to the next. -/
inductive HoldingNext (s : LockState) (p : Nat) (pc : Pc) : FsOp × Pc → Prop where
  | lost {r : FsOp × Pc} : holding r.2 = none → HoldingNext s p pc r
  | same {r : FsOp × Pc} : holding r.2 = holding pc → Steady pc r.1 → HoldingNext s p pc r
  | made {r : FsOp × Pc} {path : LockPath} {b : Birth} : b.maker = p → r.1 = .mkdir path b →
      holding r.2 = some (path, b, none) → HoldingNext s p pc r
  | written {r : FsOp × Pc} {path : LockPath} {b : Birth} : holding pc = some (path, b, none) →
      r.1 = .writeOwner path (currentOwner s p) →
      holding r.2 = some (path, b, some (currentOwner s p)) → HoldingNext s p pc r

theorem quarantine_steady (staleMs : Nat) (s : LockState) (p : Nat) (a : Answer)
    (why : QuarantineFor) (pc : QuarantinePc) :
    Steady (.quarantining why pc) (quarantineStaleLock staleMs s p a why pc).1 := by
  cases pc <;> simp only [quarantineStaleLock] <;> repeat' split
  all_goals first
    | trivial
    | exact ⟨why, _, _, rfl, rfl⟩

theorem quarantine_holding (staleMs : Nat) (s : LockState) (p : Nat) (a : Answer)
    (why : QuarantineFor) (pc : QuarantinePc) :
    HoldingNext s p (.quarantining why pc) (quarantineStaleLock staleMs s p a why pc) := by
  have hsteady := quarantine_steady staleMs s p a why pc
  rcases quarantine_next staleMs s p a why pc with ⟨pc', hnext⟩ | ⟨result, hnext⟩
  · refine .same ?_ hsteady
    rw [hnext]
    cases why <;> rfl
  · rcases resume_holding why pc result with hlost | hsame
    · exact .lost (by rw [hnext, hlost])
    · exact .same (by rw [hnext, hsame]) hsteady

theorem release_holding (s : LockState) (p : Nat) (a : Answer) (path : LockPath) (b : Birth)
    (held : PatchLockInstance) (again : Bool) (pc : ReleasePc) :
    HoldingNext s p (.releasing path b held again pc)
      (releasePatchLock s a path b held again pc) := by
  have hdone : holding (if again then .making else .idle) = none := by cases again <;> rfl
  cases pc with
  | stat | read | restat | reread =>
    simp only [releasePatchLock]
    split
    · exact .same rfl trivial
    · exact .lost hdone
  | rename =>
    simp only [releasePatchLock]
    split
    · exact .lost rfl
    · exact .same rfl trivial
    · exact .lost hdone
  | remove => exact .lost hdone
  | moved d => exact .lost hdone

theorem acquire_holding (staleMs : Nat) (s : LockState) (p : Nat) (a : Answer) (pc : Pc) :
    HoldingNext s p pc (acquirePatchLock staleMs s p a pc) := by
  cases pc with
  | quarantining why pc => exact quarantine_holding staleMs s p a why pc
  | releasing path b held again pc => exact release_holding s p a path b held again pc
  | idle => exact .lost rfl
  | critical b held => exact .same rfl trivial
  | unmaking b | recoveryUnmaking b => exact .lost rfl
  | yielding b =>
    refine .lost ?_
    simp only [acquirePatchLock]
    split <;> rfl
  | making =>
    simp only [acquirePatchLock]
    split
    · exact .lost rfl
    · exact .made rfl rfl rfl
    · split <;> exact .lost rfl
  | recoveryMaking =>
    simp only [acquirePatchLock]
    split
    · exact .lost rfl
    · exact .made rfl rfl rfl
    · exact .lost rfl
  | made b =>
    simp only [acquirePatchLock]
    split
    · exact .lost rfl
    · exact .same rfl trivial
    · exact .same rfl trivial
  | writing b | recoveryWriting b =>
    simp only [acquirePatchLock]
    split
    · exact .written rfl rfl rfl
    · exact .same rfl trivial
  | identifying b owner | recoveryIdentifying b owner =>
    simp only [acquirePatchLock]
    split
    · exact .same rfl trivial
    · exact .lost rfl

theorem perform_held {s : LockState} {p : Nat} {a : Answer} {path : LockPath} {b : Birth}
    {o : Option PatchLockOwner} (inv : LockInv staleMs s) (timely : Timely staleMs s)
    (hp : (s.processes p).alive = true) (h : Holds (perform staleMs s p a) p path b o) :
    (b.maker = p ∧ ∃ d, (perform staleMs s p a).dirs path = some d ∧ d.birth = b ∧ d.owner = o) ∧
      ∀ r, o = some r → r.pid = p ∧ r.scope = (s.processes p).scope := by
  have hat := h.at_pc
  rw [perform_self] at hat
  cases acquire_holding staleMs s p a (s.processes p).pc with
  | lost hnone => cases hnone.symm.trans hat
  | same hsame steady =>
    change Steady _ (call staleMs s p a).1 at steady
    have holds : Holds s p path b o := ⟨hp, hsame.symm.trans hat⟩
    obtain ⟨hmaker, d, hd, hb, ho⟩ := (inv.process hp).held holds
    have hdisplace : (call staleMs s p a).1 ≠ .displace path := by
      intro hop
      rw [hop] at steady
      obtain ⟨why, pre, claim, hpc, rfl⟩ := steady
      obtain ⟨judged, located, unwritten, file, hfile, rfl⟩ := (inv.process hp).reclaiming hpc
      obtain ⟨e, he, hclaim⟩ := Option.bind_eq_some_iff.mp hfile
      obtain ⟨-, -, hidentity⟩ := located.only he hclaim rfl
      exact judged.unheld inv timely hp he hidentity (unwritten he hidentity) holds
    have hmkdir : ∀ b, (call staleMs s p a).1 ≠ .mkdir path b := by
      intro b hop
      rw [hop] at steady
      exact steady
    obtain ⟨d', hd', hb', ho', -⟩ := apply_kept hd hdisplace hmkdir
    refine ⟨⟨hmaker, d', hd', hb'.trans hb, ?_⟩, ?_⟩
    · rcases ho' with ho' | ⟨r, hop⟩
      · exact ho'.trans ho
      · rw [hop] at steady
        exact steady.elim
    · rintro r rfl
      exact (inv.process hp).owner holds
  | made hmaker hop hnext =>
    change (call staleMs s p a).1 = _ at hop
    cases hnext.symm.trans hat
    refine ⟨⟨hmaker, { birth := b, mtime := s.now, owner := none, claim := none }, ?_, rfl, rfl⟩,
      nofun⟩
    rw [perform_dirs, hop, FsOp.apply, Function.update_self]
  | written hwas hop hnext =>
    change (call staleMs s p a).1 = _ at hop
    cases hnext.symm.trans hat
    obtain ⟨hmaker, d, hd, hb, -⟩ := (inv.process hp).held ⟨hp, hwas⟩
    refine ⟨⟨hmaker, { d with owner := some (currentOwner s p), mtime := s.now }, ?_, hb, rfl⟩, ?_⟩
    · rw [perform_dirs, hop, FsOp.apply, Function.update_self, hd, Option.map_some]
    · rintro r hr
      cases hr
      exact ⟨rfl, rfl⟩

theorem resume_aside (why : QuarantineFor) (result : Option Bool) :
    aside (why.resume result) = none := by
  cases why with
  | active b =>
    match result with
    | none => rfl
    | some true => rfl
    | some false => rfl
  | blocked => cases result <;> rfl
  | recover b held => rfl

/-- What a process has aside, it has just taken from its path. -/
theorem quarantine_aside {s : LockState} {p : Nat} {a : Answer} {why : QuarantineFor}
    {pc : QuarantinePc} {d : LockDir}
    (h : aside (quarantineStaleLock staleMs s p a why pc).2 = some d) :
    ∃ path, (quarantineStaleLock staleMs s p a why pc).1 = .displace path ∧
      s.dirs path = some d := by
  cases pc with
  | displacing pre claim =>
    simp only [quarantineStaleLock] at h ⊢
    split at h
    · next hd =>
      cases h
      exact ⟨why.path, rfl, hd⟩
    · cases h
    · cases h
  | stat | read | restat | reread | claiming | claimTaken | claimStale | claimMoved | claimRestoring
  | claimedStat | claimedRead | confirming | moved | abandoning | unclaiming =>
    simp only [quarantineStaleLock] at h
    repeat' split at h
    all_goals first
      | cases h
      | cases (resume_aside _ _).symm.trans h

theorem release_aside {s : LockState} {a : Answer} {path : LockPath} {b : Birth}
    {held : PatchLockInstance} {again : Bool} {pc : ReleasePc} {d : LockDir}
    (h : aside (releasePatchLock s a path b held again pc).2 = some d) :
    ∃ path', (releasePatchLock s a path b held again pc).1 = .displace path' ∧
      s.dirs path' = some d := by
  have hdone : aside (if again then .making else .idle) = none := by cases again <;> rfl
  cases pc with
  | rename =>
    simp only [releasePatchLock] at h ⊢
    split at h
    · next hd =>
      cases h
      exact ⟨path, rfl, hd⟩
    · cases h
    · cases hdone.symm.trans h
  | stat | read | restat | reread =>
    simp only [releasePatchLock] at h
    split at h
    · cases h
    · cases hdone.symm.trans h
  | remove | moved => cases hdone.symm.trans h

theorem acquire_aside {s : LockState} {p : Nat} {a : Answer} {pc : Pc} {d : LockDir}
    (h : aside (acquirePatchLock staleMs s p a pc).2 = some d) :
    ∃ path, (acquirePatchLock staleMs s p a pc).1 = .displace path ∧ s.dirs path = some d := by
  cases pc with
  | quarantining why pc => exact quarantine_aside h
  | releasing path b held again pc => exact release_aside h
  | idle | making | made | yielding | writing | unmaking | identifying | critical | recoveryMaking
  | recoveryWriting | recoveryUnmaking | recoveryIdentifying =>
    simp only [acquirePatchLock] at h
    repeat' split at h
    all_goals cases h

theorem perform_gone {s : LockState} {p : Nat} {a : Answer} {d : LockDir}
    (inv : LockInv staleMs s) (hevolves : Evolves s (perform staleMs s p a))
    (h : aside ((perform staleMs s p a).processes p).pc = some d) :
    d.birth.identity ∈ (perform staleMs s p a).identities ∧
      ∀ {path d'}, (perform staleMs s p a).dirs path = some d' →
        d'.birth.identity ≠ d.birth.identity := by
  rw [perform_self] at h
  obtain ⟨path, hop, hd⟩ := acquire_aside h
  change (call staleMs s p a).1 = _ at hop
  refine ⟨hevolves.known (inv.known hd), fun {path' d'} hd' hidentity => ?_⟩
  rw [perform_dirs, hop, FsOp.apply, Function.update_apply] at hd'
  split at hd'
  · cases hd'
  · next hne => exact hne (inv.apart hd' hd hidentity)

theorem perform_read {s : LockState} {p : Nat} {a : Answer} {pc : Pc}
    (hcall : call staleMs s p a = (.read, pc)) : (perform staleMs s p a).dirs = s.dirs := by
  rw [perform_dirs, hcall, FsOp.apply]

/-- A call that returns to the caller of the quarantine is not inside one. -/
theorem not_resumed {s : LockState} {p : Nat} {a : Answer} {op : FsOp} {why why' : QuarantineFor}
    {pc : QuarantinePc} {result : Option Bool}
    (hcall : call staleMs s p a = (op, why.resume result))
    (hnext : (call staleMs s p a).2 = .quarantining why' pc) : False := by
  rw [hcall] at hnext
  exact resume_ne _ _ _ _ hnext

/-- The claim is written where the directory of the snapshot was, or another one is there now. -/
theorem write_placed {s : LockState} {p : Nat} {a : Answer} {path : LockPath} {pc : Pc}
    {pre : PatchLockSnapshot} {claim : PatchLockOwner} {i : Nat} {d : LockDir}
    (hevolves : Evolves s (perform staleMs s p a))
    (hcall : call staleMs s p a = (.writeClaim path ⟨i, claim⟩, pc))
    (hd : s.dirs path = some d) (fresh : Fresh s p claim) :
    Placed (perform staleMs s p a) p path pre claim d.birth.identity := by
  have hdirs : (perform staleMs s p a).dirs =
      Function.update s.dirs path (some { d with claim := some ⟨i, claim⟩, mtime := s.now }) := by
    rw [perform_dirs, hcall, FsOp.apply, hd, Option.map_some]
  refine ⟨⟨hevolves.mine fresh.mine, fun {path' d' file} hd' hfile htoken => ?_⟩, ?_⟩
  · rw [hdirs, Function.update_apply] at hd'
    split at hd'
    · next heq =>
      cases hd'
      cases hfile
      exact ⟨rfl, heq, rfl⟩
    · exact absurd htoken (fresh.unused hd' hfile)
  · by_cases hidentity : d.birth.identity = pre.identity
    · exact .inl hidentity
    · refine .inr fun {d'} hd' => ?_
      rw [hdirs, Function.update_self] at hd'
      cases hd'
      exact hidentity

theorem restat_reclaiming {s : LockState} {p : Nat} {a : Answer} {why : QuarantineFor}
    {stale : PatchLockSnapshot} {pc' : QuarantinePc} (inv : LockInv staleMs s)
    (hevolves : Evolves s (perform staleMs s p a))
    (hcall : call staleMs s p a = quarantineStaleLock staleMs s p a why (.restat stale))
    (hnext : (call staleMs s p a).2 = .quarantining why pc') :
    Reclaiming staleMs (perform staleMs s p a) p why.path pc' := by
  simp only [quarantineStaleLock] at hcall
  split at hcall
  · next d _ hd =>
    rw [hcall] at hnext
    cases hnext
    refine hevolves.seen ⟨inv.known hd, fun hd' _ => ?_⟩
    cases hd.symm.trans hd'
    exact (inv.aged hd).1
  · exact (not_resumed hcall hnext).elim
  · exact (not_resumed hcall hnext).elim

theorem reread_reclaiming {s : LockState} {p : Nat} {a : Answer} {why : QuarantineFor}
    {stale : PatchLockSnapshot} {identity mtime : Nat} {pc' : QuarantinePc}
    (inv : LockInv staleMs s)
    (hs : Reclaiming staleMs s p why.path (.reread stale identity mtime))
    (hevolves : Evolves s (perform staleMs s p a))
    (hcall : call staleMs s p a =
      quarantineStaleLock staleMs s p a why (.reread stale identity mtime))
    (hnext : (call staleMs s p a).2 = .quarantining why pc') :
    Reclaiming staleMs (perform staleMs s p a) p why.path pc' := by
  simp only [quarantineStaleLock] at hcall
  split at hcall
  · exact (not_resumed hcall hnext).elim
  split at hcall
  · next hchecked =>
    have hdirs := perform_read hcall
    rw [hcall] at hnext
    cases hnext
    refine ⟨hevolves.judged ⟨hs, (Bool.and_eq_true _ _ ▸ hchecked).2⟩, ⟨?_, rfl, rfl, ?_⟩, ?_⟩
    · exact (hevolves.scopes p).symm
    · rw [perform_self]
      exact Nat.lt_succ_self _
    · intro path d file hd hfile htoken
      have hdraw := inv.drawn (hdirs ▸ hd) hfile
      rw [htoken] at hdraw
      exact absurd hdraw (Nat.lt_irrefl _)
  · exact (not_resumed hcall hnext).elim

theorem claiming_reclaiming {s : LockState} {p : Nat} {a : Answer} {why : QuarantineFor}
    {pre : PatchLockSnapshot} {claim : PatchLockOwner} {pc' : QuarantinePc}
    (hs : Reclaiming staleMs s p why.path (.claiming pre claim))
    (hevolves : Evolves s (perform staleMs s p a))
    (hcall : call staleMs s p a = quarantineStaleLock staleMs s p a why (.claiming pre claim))
    (hnext : (call staleMs s p a).2 = .quarantining why pc') :
    Reclaiming staleMs (perform staleMs s p a) p why.path pc' := by
  simp only [quarantineStaleLock] at hcall
  split at hcall
  · exact (not_resumed hcall hnext).elim
  · exact (not_resumed hcall hnext).elim
  next d _ hd =>
  split at hcall
  · have hplaced : Placed _ p why.path pre claim _ := write_placed hevolves hcall hd hs.2
    rw [hcall] at hnext
    cases hnext
    exact ⟨hevolves.judged hs.1, _, hplaced⟩
  · have hdirs := perform_read hcall
    rw [hcall] at hnext
    cases hnext
    exact ⟨hevolves.judged hs.1, hevolves.fresh_read hdirs hs.2⟩

theorem claimTaken_reclaiming {s : LockState} {p : Nat} {a : Answer} {why : QuarantineFor}
    {pre : PatchLockSnapshot} {claim : PatchLockOwner} {pc' : QuarantinePc}
    (hs : Reclaiming staleMs s p why.path (.claimTaken pre claim))
    (hevolves : Evolves s (perform staleMs s p a))
    (hcall : call staleMs s p a = quarantineStaleLock staleMs s p a why (.claimTaken pre claim))
    (hnext : (call staleMs s p a).2 = .quarantining why pc') :
    Reclaiming staleMs (perform staleMs s p a) p why.path pc' := by
  simp only [quarantineStaleLock] at hcall
  split at hcall
  · exact (not_resumed hcall hnext).elim
  · have hdirs := perform_read hcall
    rw [hcall] at hnext
    cases hnext
    exact ⟨hevolves.judged hs.1, hevolves.fresh_read hdirs hs.2⟩
  split at hcall
  · next hstale =>
    have hdirs := perform_read hcall
    rw [hcall] at hnext
    cases hnext
    exact ⟨hevolves.judged hs.1, hevolves.fresh_read hdirs hs.2, hevolves.stale hstale⟩
  · exact (not_resumed hcall hnext).elim

theorem claimStale_reclaiming {s : LockState} {p : Nat} {a : Answer} {why : QuarantineFor}
    {pre : PatchLockSnapshot} {claim : PatchLockOwner} {stale : OwnerFile} {pc' : QuarantinePc}
    (intact : claimIntact s (.quarantining why (.claimStale pre claim stale)) = true)
    (hs : Reclaiming staleMs s p why.path (.claimStale pre claim stale))
    (hevolves : Evolves s (perform staleMs s p a))
    (hcall : call staleMs s p a =
      quarantineStaleLock staleMs s p a why (.claimStale pre claim stale))
    (hnext : (call staleMs s p a).2 = .quarantining why pc') :
    Reclaiming staleMs (perform staleMs s p a) p why.path pc' := by
  simp only [quarantineStaleLock] at hcall
  split at hcall
  · exact (not_resumed hcall hnext).elim
  · have hdirs := perform_read hcall
    rw [hcall] at hnext
    cases hnext
    exact ⟨hevolves.judged hs.1, hevolves.fresh_read hdirs hs.2.1⟩
  next d _ hd =>
  split at hcall
  · have hdirs := perform_read hcall
    rw [hcall] at hnext
    cases hnext
    exact ⟨hevolves.judged hs.1, hevolves.fresh_read hdirs hs.2.1⟩
  · next file hfile =>
    have hdirs : (perform staleMs s p a).dirs = (FsOp.dropClaim why.path).apply s.now s.dirs := by
      rw [perform_dirs, hcall]
    rw [hcall] at hnext
    cases hnext
    refine ⟨hevolves.judged hs.1, hevolves.fresh (fun {path d' file'} hd' hclaim => ?_) hs.2.1,
      hevolves.stale hs.2.2, claimIntact_stale intact (Option.bind_eq_some_iff.mpr ⟨d, hd, hfile⟩)⟩
    rw [hdirs] at hd'
    rcases apply_cases hd' with hd | ⟨b, hop, -⟩ | ⟨d, hd, ⟨o, hop, -⟩ | ⟨f, hop, -⟩ | ⟨-, rfl⟩⟩
    · exact ⟨d', hd, hclaim⟩
    · cases hop
    · cases hop
    · cases hop
    · cases hclaim

theorem claimMoved_reclaiming {s : LockState} {p : Nat} {a : Answer} {why : QuarantineFor}
    {pre : PatchLockSnapshot} {claim : PatchLockOwner} {stale file : OwnerFile}
    {pc' : QuarantinePc}
    (hs : Reclaiming staleMs s p why.path (.claimMoved pre claim stale file dir))
    (hevolves : Evolves s (perform staleMs s p a))
    (hcall : call staleMs s p a =
      quarantineStaleLock staleMs s p a why (.claimMoved pre claim stale file dir))
    (hnext : (call staleMs s p a).2 = .quarantining why pc') :
    Reclaiming staleMs (perform staleMs s p a) p why.path pc' := by
  simp only [quarantineStaleLock] at hcall
  split at hcall
  · exact (not_resumed hcall hnext).elim
  split at hcall
  · exact (not_resumed hcall hnext).elim
  split at hcall
  · have hdirs := perform_read hcall
    rw [hcall] at hnext
    cases hnext
    exact ⟨hevolves.judged hs.1, hevolves.fresh_read hdirs hs.2.1⟩
  · next hnot => exact absurd ⟨hs.2.2.2, hs.2.2.2 ▸ hs.2.2.1⟩ hnot

theorem claimedStat_reclaiming {s : LockState} {p : Nat} {a : Answer} {why : QuarantineFor}
    {pre : PatchLockSnapshot} {claim : PatchLockOwner} {pc' : QuarantinePc}
    (hs : Reclaiming staleMs s p why.path (.claimedStat pre claim))
    (hevolves : Evolves s (perform staleMs s p a))
    (hcall : call staleMs s p a = quarantineStaleLock staleMs s p a why (.claimedStat pre claim))
    (hnext : (call staleMs s p a).2 = .quarantining why pc') :
    Reclaiming staleMs (perform staleMs s p a) p why.path pc' := by
  obtain ⟨judged, identity, placed⟩ := hs
  simp only [quarantineStaleLock] at hcall
  split at hcall
  · next d _ hd =>
    have hdirs := perform_read hcall
    rw [hcall] at hnext
    cases hnext
    refine ⟨hevolves.judged judged, hevolves.mine placed.located.mine, fun hidentity => ?_⟩
    rcases placed.passed with rfl | habsent
    · exact hevolves.located_read hdirs placed.located
    · exact absurd hidentity (habsent hd)
  · rw [hcall] at hnext
    cases hnext
    exact placed.located.mine.process
  · rw [hcall] at hnext
    cases hnext
    exact placed.located.mine.process

theorem claimedRead_reclaiming {s : LockState} {p : Nat} {a : Answer} {why : QuarantineFor}
    {pre : PatchLockSnapshot} {claim : PatchLockOwner} {identity : Nat} {pc' : QuarantinePc}
    (hs : Reclaiming staleMs s p why.path (.claimedRead pre claim identity))
    (hevolves : Evolves s (perform staleMs s p a))
    (hcall : call staleMs s p a =
      quarantineStaleLock staleMs s p a why (.claimedRead pre claim identity))
    (hnext : (call staleMs s p a).2 = .quarantining why pc') :
    Reclaiming staleMs (perform staleMs s p a) p why.path pc' := by
  obtain ⟨judged, mine, located⟩ := hs
  simp only [quarantineStaleLock] at hcall
  split at hcall
  · rw [hcall] at hnext
    cases hnext
    exact mine.process
  split at hcall
  · next hchecked =>
    have hdirs := perform_read hcall
    rw [hcall] at hnext
    cases hnext
    refine ⟨hevolves.judged judged, hevolves.located_read hdirs (located hchecked.1),
      Unwritten.read hdirs fun {d} hd _ => ?_⟩
    have howner := hchecked.2.1
    rwa [ownerAt, hd] at howner
  · rw [hcall] at hnext
    cases hnext
    exact mine.process

theorem confirming_reclaiming {s : LockState} {p : Nat} {a : Answer} {why : QuarantineFor}
    {pre : PatchLockSnapshot} {claim : PatchLockOwner} {pc' : QuarantinePc}
    (hs : Reclaiming staleMs s p why.path (.confirming pre claim))
    (hevolves : Evolves s (perform staleMs s p a))
    (hcall : call staleMs s p a = quarantineStaleLock staleMs s p a why (.confirming pre claim))
    (hnext : (call staleMs s p a).2 = .quarantining why pc') :
    Reclaiming staleMs (perform staleMs s p a) p why.path pc' := by
  obtain ⟨judged, located, unwritten⟩ := hs
  simp only [quarantineStaleLock] at hcall
  split at hcall
  · rw [hcall] at hnext
    cases hnext
    exact located.mine.process
  split at hcall
  · next hsame =>
    have hdirs := perform_read hcall
    rw [hcall] at hnext
    cases hnext
    obtain ⟨file, hfile, htoken⟩ := (Option.any_eq_true _ _).mp hsame
    obtain ⟨d, hd, hclaim⟩ := Option.bind_eq_some_iff.mp hfile
    obtain ⟨howner, -, -⟩ := located.only hd hclaim (of_decide_eq_true htoken)
    refine ⟨hevolves.judged judged, hevolves.located_read hdirs located,
      Unwritten.read hdirs unwritten, file, ?_, howner⟩
    rw [claimAt, hdirs]
    exact hfile
  · rw [hcall] at hnext
    cases hnext
    exact located.mine.process

theorem perform_reclaiming {s : LockState} {p : Nat} {a : Answer} {why : QuarantineFor}
    {pc pc' : QuarantinePc} (inv : LockInv staleMs s) (hp : (s.processes p).alive = true)
    (hevolves : Evolves s (perform staleMs s p a))
    (hpc : (s.processes p).pc = .quarantining why pc)
    (intact : claimIntact s (.quarantining why pc) = true)
    (hnext : (call staleMs s p a).2 = .quarantining why pc') :
    Reclaiming staleMs (perform staleMs s p a) p why.path pc' := by
  have hs := (inv.process hp).reclaiming hpc
  have hcall : call staleMs s p a = quarantineStaleLock staleMs s p a why pc := by
    rw [call, hpc, acquirePatchLock]
  cases pc with
  | stat =>
    simp only [quarantineStaleLock] at hcall
    split at hcall <;> rw [hcall] at hnext
    · cases hnext
      trivial
    · exact absurd hnext (resume_ne _ _ _ _)
    · exact absurd hnext (resume_ne _ _ _ _)
  | read identity mtime =>
    simp only [quarantineStaleLock] at hcall
    repeat' split at hcall
    all_goals rw [hcall] at hnext
    · exact absurd hnext (resume_ne _ _ _ _)
    · cases hnext
      trivial
    · exact absurd hnext (resume_ne _ _ _ _)
  | restat stale => exact restat_reclaiming inv hevolves hcall hnext
  | reread stale identity mtime => exact reread_reclaiming inv hs hevolves hcall hnext
  | claiming pre claim => exact claiming_reclaiming hs hevolves hcall hnext
  | claimTaken pre claim => exact claimTaken_reclaiming hs hevolves hcall hnext
  | claimStale pre claim stale => exact claimStale_reclaiming intact hs hevolves hcall hnext
  | claimMoved pre claim stale file dir => exact claimMoved_reclaiming hs hevolves hcall hnext
  | claimRestoring moved => exact hs.elim
  | claimedStat pre claim => exact claimedStat_reclaiming hs hevolves hcall hnext
  | claimedRead pre claim identity => exact claimedRead_reclaiming hs hevolves hcall hnext
  | confirming pre claim => exact confirming_reclaiming hs hevolves hcall hnext
  | displacing pre claim =>
    simp only [quarantineStaleLock] at hcall
    split at hcall
    · rw [hcall] at hnext
      cases hnext
      trivial
    · rw [hcall] at hnext
      cases hnext
      exact hs.2.1.mine.process
    · rw [hcall] at hnext
      cases hnext
      exact hs.2.1.mine.process
  | moved pre d =>
    simp only [quarantineStaleLock] at hcall
    repeat' split at hcall
    all_goals
      exact (not_resumed hcall hnext).elim
  | abandoning failed claim =>
    simp only [quarantineStaleLock] at hcall
    split at hcall
    · exact (not_resumed hcall hnext).elim
    split at hcall
    · rw [hcall] at hnext
      cases hnext
      exact hs
    · exact (not_resumed hcall hnext).elim
  | unclaiming failed claim =>
    exact (not_resumed hcall hnext).elim

end Climon.Store.LockCalls
