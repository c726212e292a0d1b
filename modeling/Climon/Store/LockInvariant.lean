import Climon.Store.LockHolding

namespace Climon.Store.LockInvariant

open Climon.Lib.Transition Climon.Store.PatchLock Climon.Store.LockHolding

/-! # What a reclaimer may rely on -/

variable {staleMs : Nat}

/-- The directory with this identity, while it is at the path, is no younger than `mtime`. -/
structure Seen (s : LockState) (path : LockPath) (identity mtime : Nat) : Prop where
  known : identity ∈ s.identities
  born : ∀ {d}, s.dirs path = some d → d.birth.identity = identity → d.birth.time ≤ mtime

structure Judged (staleMs : Nat) (s : LockState) (p : Nat) (path : LockPath)
    (pre : PatchLockSnapshot) : Prop where
  seen : Seen s path pre.identity pre.mtime
  stale : snapshotStale staleMs s p pre = true

/-- The snapshot still tells the owner. -/
def Unwritten (s : LockState) (path : LockPath) (pre : PatchLockSnapshot) : Prop :=
  ∀ {d}, s.dirs path = some d → d.birth.identity = pre.identity → d.owner = pre.owner

structure Mine (s : LockState) (p : Nat) (claim : PatchLockOwner) : Prop where
  scope : claim.scope = (s.processes p).scope
  pid : claim.pid = p
  process : claim.token.process = p
  draw : claim.token.draw < (s.processes p).drawn

/-- The claim is in no directory yet. -/
structure Fresh (s : LockState) (p : Nat) (claim : PatchLockOwner) : Prop where
  mine : Mine s p claim
  unused : ∀ {path d file}, s.dirs path = some d → d.claim = some file →
    file.owner.token ≠ claim.token

/-- The claim is at most in the directory with this identity. -/
structure Located (s : LockState) (p : Nat) (path : LockPath) (claim : PatchLockOwner)
    (identity : Nat) : Prop where
  mine : Mine s p claim
  only : ∀ {path' d file}, s.dirs path' = some d → d.claim = some file →
    file.owner.token = claim.token →
    file.owner = claim ∧ path' = path ∧ d.birth.identity = identity

/-- The claim was written into the directory of the snapshot, or that one is gone for good. -/
structure Placed (s : LockState) (p : Nat) (path : LockPath) (pre : PatchLockSnapshot)
    (claim : PatchLockOwner) (identity : Nat) : Prop where
  located : Located s p path claim identity
  passed : identity = pre.identity ∨
    ∀ {d}, s.dirs path = some d → d.birth.identity ≠ pre.identity

def Reclaiming (staleMs : Nat) (s : LockState) (p : Nat) (path : LockPath) :
    QuarantinePc → Prop
  | .stat | .read _ _ | .restat _ | .moved _ _ => True
  | .reread _ identity mtime => Seen s path identity mtime
  | .claiming pre claim | .claimTaken pre claim =>
    Judged staleMs s p path pre ∧ Fresh s p claim
  | .claimStale pre claim stale =>
    Judged staleMs s p path pre ∧ Fresh s p claim ∧ reclaimClaimStale staleMs s p stale = true
  | .claimMoved pre claim stale moved _ =>
    Judged staleMs s p path pre ∧ Fresh s p claim ∧
      reclaimClaimStale staleMs s p stale = true ∧ moved = stale
  | .claimRestoring _ => False
  | .claimedStat pre claim =>
    Judged staleMs s p path pre ∧ ∃ identity, Placed s p path pre claim identity
  | .claimedRead pre claim identity =>
    Judged staleMs s p path pre ∧ Mine s p claim ∧
      (identity = pre.identity → Located s p path claim pre.identity)
  | .confirming pre claim =>
    Judged staleMs s p path pre ∧ Located s p path claim pre.identity ∧ Unwritten s path pre
  | .displacing pre claim =>
    Judged staleMs s p path pre ∧ Located s p path claim pre.identity ∧ Unwritten s path pre ∧
      ∃ file, claimAt s path = some file ∧ file.owner = claim
  | .abandoning _ claim | .unclaiming _ claim => claim.token.process = p

def aside : Pc → Option LockDir
  | .quarantining _ (.moved _ d) | .releasing _ _ _ _ (.moved d) => some d
  | _ => none

structure ProcessInv (staleMs : Nat) (s : LockState) (p : Nat) : Prop where
  held : ∀ {path b o}, Holds s p path b o →
    b.maker = p ∧ ∃ d, s.dirs path = some d ∧ d.birth = b ∧ d.owner = o
  owner : ∀ {path b o}, Holds s p path b (some o) →
    o.pid = p ∧ o.scope = (s.processes p).scope
  gone : ∀ {d}, aside (s.processes p).pc = some d → d.birth.identity ∈ s.identities ∧
    ∀ {path d'}, s.dirs path = some d' → d'.birth.identity ≠ d.birth.identity
  reclaiming : ∀ {why pc}, (s.processes p).pc = .quarantining why pc →
    Reclaiming staleMs s p why.path pc

structure LockInv (staleMs : Nat) (s : LockState) : Prop where
  known : ∀ {path d}, s.dirs path = some d → d.birth.identity ∈ s.identities
  aged : ∀ {path d}, s.dirs path = some d → d.birth.time ≤ d.mtime ∧ d.birth.time ≤ s.now
  apart : ∀ {path path' d d'}, s.dirs path = some d → s.dirs path' = some d' →
    d.birth.identity = d'.birth.identity → path = path'
  drawn : ∀ {path d file}, s.dirs path = some d → d.claim = some file →
    file.owner.token.draw < (s.processes file.owner.token.process).drawn
  process : ∀ {p}, (s.processes p).alive = true → ProcessInv staleMs s p

/-! ## A stale snapshot is of a directory nobody holds -/

theorem Judged.unheld {s : LockState} {p q : Nat} {path : LockPath} {pre : PatchLockSnapshot}
    {d : LockDir} {b : Birth} {o : Option PatchLockOwner} (inv : LockInv staleMs s)
    (timely : Timely staleMs s) (hp : (s.processes p).alive = true)
    (judged : Judged staleMs s p path pre) (hd : s.dirs path = some d)
    (hidentity : d.birth.identity = pre.identity) (howner : d.owner = pre.owner) :
    ¬ Holds s q path b o := by
  intro holds
  obtain ⟨-, d', hd', hb, ho⟩ := (inv.process holds.alive).held holds
  cases hd.symm.trans hd'
  have hstale := judged.stale
  rw [snapshotStale, ← howner, ho] at hstale
  cases o with
  | none =>
    have hwindow := timely.window holds
    have hborn := judged.seen.born hd hidentity
    rw [hb] at hborn
    have hage : pre.mtime + staleMs < s.now := of_decide_eq_true hstale
    omega
  | some r =>
    obtain ⟨hpid, hscope⟩ := (inv.process holds.alive).owner holds
    rw [ownerStale, hpid, hscope, holds.alive] at hstale
    split at hstale
    · cases hstale
    · next hforeign =>
      have hholder := timely.holder holds ⟨p, hp, fun heq => hforeign heq.symm⟩
      have hage := of_decide_eq_true hstale
      omega

/-! ## Steps -/

/-- What no step undoes: time passes, the dead stay dead, and no directory comes back. -/
structure Evolves (s t : LockState) : Prop where
  later : s.now ≤ t.now
  dying : ∀ {q}, (t.processes q).alive = true → (s.processes q).alive = true
  scopes : ∀ q, (t.processes q).scope = (s.processes q).scope
  draws : ∀ q, (s.processes q).drawn ≤ (t.processes q).drawn
  known : ∀ {i}, i ∈ s.identities → i ∈ t.identities
  origin : ∀ {path d'}, t.dirs path = some d' → d'.birth.identity ∈ s.identities →
    ∃ d, s.dirs path = some d ∧ d.birth = d'.birth

theorem Evolves.stale {s t : LockState} (h : Evolves s t) {p : Nat}
    {o : Option PatchLockOwner} {mtime : Nat} (hstale : ownerStale staleMs s p o mtime = true) :
    ownerStale staleMs t p o mtime = true := by
  have hlater := h.later
  cases o with
  | none =>
    have hage := of_decide_eq_true hstale
    exact decide_eq_true (by omega)
  | some r =>
    rw [ownerStale, h.scopes p]
    rw [ownerStale] at hstale
    split
    · next heq =>
      rw [if_pos heq] at hstale
      cases halive : (t.processes r.pid).alive with
      | false => rfl
      | true =>
        rw [h.dying halive] at hstale
        cases hstale
    · next hne =>
      rw [if_neg hne] at hstale
      have hage := of_decide_eq_true hstale
      exact decide_eq_true (by omega)

theorem Evolves.seen {s t : LockState} (h : Evolves s t) {path : LockPath} {i m : Nat}
    (seen : Seen s path i m) : Seen t path i m where
  known := h.known seen.known
  born hd hidentity := by
    obtain ⟨d, hd, hbirth⟩ := h.origin hd (hidentity ▸ seen.known)
    rw [← hbirth] at hidentity ⊢
    exact seen.born hd hidentity

theorem Evolves.judged {s t : LockState} (h : Evolves s t) {p : Nat} {path : LockPath}
    {pre : PatchLockSnapshot} (judged : Judged staleMs s p path pre) :
    Judged staleMs t p path pre :=
  ⟨h.seen judged.seen, h.stale judged.stale⟩

theorem Evolves.mine {s t : LockState} (h : Evolves s t) {p : Nat} {claim : PatchLockOwner}
    (mine : Mine s p claim) : Mine t p claim :=
  ⟨mine.scope.trans (h.scopes p).symm, mine.pid, mine.process,
    Nat.lt_of_lt_of_le mine.draw (h.draws p)⟩

theorem Evolves.absent {s t : LockState} (h : Evolves s t) {path : LockPath} {i : Nat}
    (hknown : i ∈ s.identities)
    (habsent : ∀ {d}, s.dirs path = some d → d.birth.identity ≠ i) {d' : LockDir}
    (hd' : t.dirs path = some d') : d'.birth.identity ≠ i := by
  intro hidentity
  obtain ⟨d, hd, hbirth⟩ := h.origin hd' (hidentity ▸ hknown)
  exact habsent hd (by rw [hbirth, hidentity])

theorem Evolves.fresh {s t : LockState} (h : Evolves s t) {p : Nat} {claim : PatchLockOwner}
    (hclaims : ∀ {path d' file}, t.dirs path = some d' → d'.claim = some file →
      ∃ d, s.dirs path = some d ∧ d.claim = some file)
    (fresh : Fresh s p claim) : Fresh t p claim where
  mine := h.mine fresh.mine
  unused hd hfile := by
    obtain ⟨d, hd, hclaim⟩ := hclaims hd hfile
    exact fresh.unused hd hclaim

theorem Evolves.fresh_read {s t : LockState} (h : Evolves s t) (hdirs : t.dirs = s.dirs)
    {p : Nat} {claim : PatchLockOwner} (fresh : Fresh s p claim) : Fresh t p claim :=
  h.fresh (fun {_ d' _} hd hfile => ⟨d', hdirs ▸ hd, hfile⟩) fresh

theorem Evolves.located_read {s t : LockState} (h : Evolves s t) (hdirs : t.dirs = s.dirs)
    {p : Nat} {path : LockPath} {claim : PatchLockOwner} {i : Nat}
    (located : Located s p path claim i) : Located t p path claim i where
  mine := h.mine located.mine
  only hd := located.only (hdirs ▸ hd)

theorem Unwritten.read {s t : LockState} (hdirs : t.dirs = s.dirs) {path : LockPath}
    {pre : PatchLockSnapshot} (unwritten : Unwritten s path pre) : Unwritten t path pre :=
  fun hd => unwritten (hdirs ▸ hd)

/-- What the others leave of the things a process relies on. -/
structure Rely (s t : LockState) (p : Nat) : Prop extends Evolves s t where
  self : t.processes p = s.processes p
  written : ∀ {path d d'}, s.dirs path = some d → t.dirs path = some d' → d.birth = d'.birth →
    d'.owner = d.owner ∨ ∃ q, Holds s q path d.birth none
  claims : ∀ {path d' file}, t.dirs path = some d' → d'.claim = some file →
    file.owner.token.process = p →
    ∃ d, s.dirs path = some d ∧ d.birth = d'.birth ∧ d.claim = some file
  kept : ∀ {path b o}, Holds s p path b o →
    ∃ d, t.dirs path = some d ∧ d.birth = b ∧ d.owner = o
  confirmed : ∀ {why pre claim}, (s.processes p).pc = .quarantining why (.displacing pre claim) →
    ∃ file, claimAt t why.path = some file ∧ file.owner = claim

theorem Rely.fresh {s t : LockState} {p : Nat} (h : Rely s t p) {claim : PatchLockOwner}
    (fresh : Fresh s p claim) : Fresh t p claim where
  mine := h.mine fresh.mine
  unused hd hfile htoken := by
    obtain ⟨d, hd, -, hclaim⟩ := h.claims hd hfile (by rw [htoken, fresh.mine.process])
    exact fresh.unused hd hclaim htoken

theorem Rely.located {s t : LockState} {p : Nat} (h : Rely s t p) {path : LockPath}
    {claim : PatchLockOwner} {i : Nat} (located : Located s p path claim i) :
    Located t p path claim i where
  mine := h.mine located.mine
  only hd hfile htoken := by
    obtain ⟨d, hd, hbirth, hclaim⟩ := h.claims hd hfile (by rw [htoken, located.mine.process])
    rw [← hbirth]
    exact located.only hd hclaim htoken

theorem Rely.placed {s t : LockState} {p : Nat} (h : Rely s t p) {path : LockPath}
    {pre : PatchLockSnapshot} {claim : PatchLockOwner} {i : Nat}
    (hknown : pre.identity ∈ s.identities) (placed : Placed s p path pre claim i) :
    Placed t p path pre claim i where
  located := h.located placed.located
  passed := placed.passed.imp_right fun habsent => h.absent hknown habsent

/-- Only a holder writes an owner, and nobody holds the directory of a stale snapshot. -/
theorem Rely.unwritten {s t : LockState} {p : Nat} (h : Rely s t p) (inv : LockInv staleMs s)
    (timely : Timely staleMs s) (hp : (s.processes p).alive = true) {path : LockPath}
    {pre : PatchLockSnapshot} (judged : Judged staleMs s p path pre)
    (unwritten : Unwritten s path pre) : Unwritten t path pre := by
  intro d' hd' hidentity
  obtain ⟨d, hd, hbirth⟩ := h.origin hd' (hidentity ▸ judged.seen.known)
  rw [← hbirth] at hidentity
  have howner := unwritten hd hidentity
  rcases h.written hd hd' hbirth with heq | ⟨q, hq⟩
  · exact heq.trans howner
  · exact absurd hq (judged.unheld inv timely hp hd hidentity howner)

theorem Rely.reclaiming {s t : LockState} {p : Nat} (h : Rely s t p) (inv : LockInv staleMs s)
    (timely : Timely staleMs s) (hp : (s.processes p).alive = true) {why : QuarantineFor}
    {pc : QuarantinePc} (hpc : (s.processes p).pc = .quarantining why pc) :
    Reclaiming staleMs t p why.path pc := by
  have hs := (inv.process hp).reclaiming hpc
  cases pc with
  | stat | read | restat | moved => trivial
  | reread stale identity mtime => exact h.seen hs
  | claiming pre claim | claimTaken pre claim => exact ⟨h.judged hs.1, h.fresh hs.2⟩
  | claimStale pre claim stale => exact ⟨h.judged hs.1, h.fresh hs.2.1, h.stale hs.2.2⟩
  | claimMoved pre claim stale moved dir =>
    exact ⟨h.judged hs.1, h.fresh hs.2.1, h.stale hs.2.2.1, hs.2.2.2⟩
  | claimedStat pre claim =>
    obtain ⟨judged, identity, placed⟩ := hs
    exact ⟨h.judged judged, identity, h.placed judged.seen.known placed⟩
  | claimedRead pre claim identity =>
    exact ⟨h.judged hs.1, h.mine hs.2.1, fun heq => h.located (hs.2.2 heq)⟩
  | confirming pre claim =>
    exact ⟨h.judged hs.1, h.located hs.2.1, h.unwritten inv timely hp hs.1 hs.2.2⟩
  | displacing pre claim =>
    exact ⟨h.judged hs.1, h.located hs.2.1, h.unwritten inv timely hp hs.1 hs.2.2.1,
      h.confirmed hpc⟩
  | claimRestoring moved => exact hs.elim
  | abandoning failed claim | unclaiming failed claim => exact hs

theorem Rely.process {s t : LockState} {p : Nat} (h : Rely s t p) (inv : LockInv staleMs s)
    (timely : Timely staleMs s) (hp : (t.processes p).alive = true) :
    ProcessInv staleMs t p := by
  have hself := h.self
  have hp' : (s.processes p).alive = true := hself ▸ hp
  have hs := inv.process hp'
  have hholds : ∀ {path b o}, Holds t p path b o → Holds s p path b o :=
    fun holds => ⟨hp', hself ▸ holds.at_pc⟩
  refine ⟨fun holds => ⟨(hs.held (hholds holds)).1, h.kept (hholds holds)⟩, fun holds => ?_,
    fun haside => ?_, fun hpc => ?_⟩
  · rw [hself]
    exact hs.owner (hholds holds)
  · rw [hself] at haside
    obtain ⟨hknown, habsent⟩ := hs.gone haside
    exact ⟨h.known hknown, h.absent hknown habsent⟩
  · rw [hself] at hpc
    exact h.reclaiming inv timely hp' hpc

/-! ## What a call leaves to the others -/

theorem LockInv.holder_unique {s : LockState} (inv : LockInv staleMs s) {p q : Nat}
    {path : LockPath} {b b' : Birth} {o o' : Option PatchLockOwner} (hp : Holds s p path b o)
    (hq : Holds s q path b' o') : p = q := by
  obtain ⟨hmaker, d, hd, hb, -⟩ := (inv.process hp.alive).held hp
  obtain ⟨hmaker', d', hd', hb', -⟩ := (inv.process hq.alive).held hq
  cases hd.symm.trans hd'
  rw [← hmaker, ← hmaker', ← hb, ← hb']

/-- The claim of a live process is not stale. -/
theorem Mine.not_stale {s : LockState} {p q : Nat} {claim : PatchLockOwner} {file : OwnerFile}
    (timely : Timely staleMs s) (hp : (s.processes p).alive = true)
    (hq : (s.processes q).alive = true) (mine : Mine s q claim)
    (hclaimed : claimed (s.processes q).pc = some claim) (howner : file.owner = claim) :
    reclaimClaimStale staleMs s p file = false := by
  rw [reclaimClaimStale, howner, ownerStale, mine.pid, mine.scope, hq]
  split
  · rfl
  · next hforeign =>
    have hclaimant := timely.claimant hq hclaimed ⟨p, hp, fun heq => hforeign heq.symm⟩
    exact decide_eq_false (by omega)

@[simp] theorem perform_self (s : LockState) (p : Nat) (a : Answer) :
    (perform staleMs s p a).processes p =
      { s.processes p with pc := (call staleMs s p a).2, drawn := (s.processes p).drawn + 1 } := by
  simp [perform]

theorem perform_dirs (s : LockState) (p : Nat) (a : Answer) :
    (perform staleMs s p a).dirs = (call staleMs s p a).1.apply s.now s.dirs := rfl

theorem perform_ne (s : LockState) {p q : Nat} (a : Answer) (h : q ≠ p) :
    (perform staleMs s p a).processes q = s.processes q := by
  simp [perform, h]

theorem perform_evolves {s : LockState} {p : Nat} {a : Answer}
    (hfresh : ∀ i ∈ (call staleMs s p a).1.given, i ∉ s.identities) :
    Evolves s (perform staleMs s p a) where
  later := Nat.le_refl _
  dying {q} h := by
    by_cases hq : q = p
    · subst hq
      simpa using h
    · rwa [perform_ne s a hq] at h
  scopes q := by
    by_cases hq : q = p
    · subst hq
      simp
    · rw [perform_ne s a hq]
  draws q := by
    by_cases hq : q = p
    · subst hq
      simp
    · exact Nat.le_of_eq (by rw [perform_ne s a hq])
  known hi := List.mem_append_right _ hi
  origin h hknown := by
    rcases apply_origin h with hold | hop
    · exact hold
    · exact absurd hknown (hfresh _ (by rw [hop]; exact List.mem_singleton_self _))

/-- A call that takes the path away is made by its holder, or finds a directory nobody holds. -/
theorem displace_spares {s : LockState} {p q : Nat} {a : Answer} {path : LockPath} {b : Birth}
    {o : Option PatchLockOwner} (inv : LockInv staleMs s) (timely : Timely staleMs s)
    (hp : (s.processes p).alive = true) (hop : (call staleMs s p a).1 = .displace path)
    (hq : Holds s q path b o) : q = p := by
  have permitted : Permitted staleMs s p (s.processes p).pc (call staleMs s p a).1 :=
    acquire_permitted
  rw [hop] at permitted
  rcases permitted with ⟨b', o', hat⟩ | ⟨why, pre, claim, hpc, rfl⟩
  · exact inv.holder_unique hq ⟨hp, hat⟩
  · obtain ⟨judged, located, unwritten, file, hfile, rfl⟩ := (inv.process hp).reclaiming hpc
    obtain ⟨d, hd, hclaim⟩ := Option.bind_eq_some_iff.mp hfile
    obtain ⟨-, -, hidentity⟩ := located.only hd hclaim rfl
    exact absurd hq (judged.unheld inv timely hp hd hidentity (unwritten hd hidentity))

theorem call_kept {s : LockState} {p q : Nat} {a : Answer} {path : LockPath} {b : Birth}
    {o : Option PatchLockOwner} (inv : LockInv staleMs s) (timely : Timely staleMs s)
    (hp : (s.processes p).alive = true) (hne : q ≠ p) (hq : Holds s q path b o) :
    ∃ d, (perform staleMs s p a).dirs path = some d ∧ d.birth = b ∧ d.owner = o := by
  obtain ⟨-, d, hd, hb, ho⟩ := (inv.process hq.alive).held hq
  have permitted : Permitted staleMs s p (s.processes p).pc (call staleMs s p a).1 :=
    acquire_permitted
  have hdisplace : (call staleMs s p a).1 ≠ .displace path :=
    fun hop => hne (displace_spares inv timely hp hop hq)
  have hmkdir : ∀ b, (call staleMs s p a).1 ≠ .mkdir path b := by
    intro b hop
    rw [hop] at permitted
    rw [permitted.1] at hd
    cases hd
  obtain ⟨d', hd', hb', ho', -⟩ := apply_kept hd hdisplace hmkdir
  refine ⟨d', hd', hb'.trans hb, ?_⟩
  rcases ho' with ho' | ⟨r, hop⟩
  · exact ho'.trans ho
  · rw [hop] at permitted
    obtain ⟨b', hat⟩ := permitted
    exact absurd (inv.holder_unique hq ⟨hp, hat⟩) hne

/-- A claim that was confirmed stays where it is until its process renames the directory. -/
theorem call_confirmed {s : LockState} {p q : Nat} {a : Answer} {why : QuarantineFor}
    {pre : PatchLockSnapshot} {claim : PatchLockOwner} (inv : LockInv staleMs s)
    (timely : Timely staleMs s) (hp : (s.processes p).alive = true)
    (intact : claimIntact s (s.processes p).pc = true) (hq : (s.processes q).alive = true)
    (hne : q ≠ p) (hpc : (s.processes q).pc = .quarantining why (.displacing pre claim)) :
    ∃ file, claimAt (perform staleMs s p a) why.path = some file ∧ file.owner = claim := by
  obtain ⟨judged, located, unwritten, file, hfile, howner⟩ := (inv.process hq).reclaiming hpc
  obtain ⟨d, hd, hclaim⟩ := Option.bind_eq_some_iff.mp hfile
  obtain ⟨-, -, hidentity⟩ := located.only hd hclaim (by rw [howner])
  have permitted : Permitted staleMs s p (s.processes p).pc (call staleMs s p a).1 :=
    acquire_permitted
  have hdisplace : (call staleMs s p a).1 ≠ .displace why.path := by
    intro hop
    rw [hop] at permitted
    rcases permitted with ⟨b, o, hat⟩ | ⟨why', pre', claim', hpc', hpath⟩
    · exact judged.unheld inv timely hq hd hidentity (unwritten hd hidentity) ⟨hp, hat⟩
    · obtain ⟨-, located', -, file', hfile', howner'⟩ := (inv.process hp).reclaiming hpc'
      rw [hpath, hfile] at hfile'
      cases hfile'
      rw [← located.mine.pid, ← located'.mine.pid, ← howner, ← howner'] at hne
      exact hne rfl
  have hmkdir : ∀ b, (call staleMs s p a).1 ≠ .mkdir why.path b := by
    intro b hop
    rw [hop] at permitted
    rw [permitted.1] at hd
    cases hd
  obtain ⟨d', hd', -, -, hkept⟩ := apply_kept hd hdisplace hmkdir
  refine ⟨file, Option.bind_eq_some_iff.mpr ⟨d', hd', ?_⟩, howner⟩
  rcases hkept with hkept | ⟨file', hop⟩ | hop
  · exact hkept.trans hclaim
  · rw [hop] at permitted
    obtain ⟨⟨e, he, hnone⟩, -⟩ := permitted
    cases hd.symm.trans he
    rw [hclaim] at hnone
    cases hnone
  · rw [hop] at permitted
    rcases permitted with
      ⟨why', pre', claim', stale, hpc', hpath⟩ | ⟨why', failed, claim', hpc', hpath⟩
    · have hs := (inv.process hp).reclaiming hpc'
      rw [hpc'] at intact
      cases claimIntact_stale intact (hpath ▸ hfile)
      have hlive := located.mine.not_stale timely hp hq (by rw [hpc]; rfl) howner
      rw [hs.2.2] at hlive
      cases hlive
    · have hprocess : claim'.token.process = p := (inv.process hp).reclaiming hpc'
      rw [hpc'] at intact
      have htoken := claimIntact_unclaiming intact (hpath ▸ hfile)
      rw [howner] at htoken
      rw [← located.mine.process, htoken, hprocess] at hne
      exact absurd rfl hne

theorem perform_rely {s : LockState} {p q : Nat} {a : Answer} (inv : LockInv staleMs s)
    (timely : Timely staleMs s) (hp : (s.processes p).alive = true)
    (undisturbed : Undisturbed staleMs s (.act p a)) (hq : (s.processes q).alive = true)
    (hne : q ≠ p) : Rely s (perform staleMs s p a) q where
  toEvolves := perform_evolves undisturbed.fresh
  self := perform_ne s a hne
  kept := call_kept inv timely hp hne
  confirmed := call_confirmed inv timely hp undisturbed.intact hq hne
  written {path d d'} hd hd' _ := by
    have permitted : Permitted staleMs s p (s.processes p).pc (call staleMs s p a).1 :=
      acquire_permitted
    rcases apply_cases hd' with
      h | ⟨b, hop, rfl⟩ | ⟨e, he, ⟨o, hop, rfl⟩ | ⟨file, -, rfl⟩ | ⟨-, rfl⟩⟩
    · cases hd.symm.trans h
      exact .inl rfl
    · rw [hop] at permitted
      rw [permitted.1] at hd
      cases hd
    · rw [hop] at permitted
      obtain ⟨b, hat⟩ := permitted
      obtain ⟨-, e', he', hb, -⟩ := (inv.process hp).held ⟨hp, hat⟩
      cases hd.symm.trans he'
      exact .inr ⟨p, hp, hb ▸ hat⟩
    · cases hd.symm.trans he
      exact .inl rfl
    · cases hd.symm.trans he
      exact .inl rfl
  claims {path d' file} hd' hfile hprocess := by
    have permitted : Permitted staleMs s p (s.processes p).pc (call staleMs s p a).1 :=
      acquire_permitted
    rcases apply_cases hd' with
      h | ⟨b, hop, rfl⟩ | ⟨e, he, ⟨o, hop, rfl⟩ | ⟨file', hop, rfl⟩ | ⟨-, rfl⟩⟩
    · exact ⟨d', h, rfl, hfile⟩
    · cases hfile
    · exact ⟨e, he, rfl, hfile⟩
    · cases hfile
      rw [hop] at permitted
      rcases permitted.2 with ⟨why, pre, hpc⟩ | ⟨why, moved, hpc⟩
      · have hs := (inv.process hp).reclaiming hpc
        exact absurd (hprocess.symm.trans hs.2.mine.process) hne
      · exact ((inv.process hp).reclaiming hpc).elim
    · cases hfile

end Climon.Store.LockInvariant
