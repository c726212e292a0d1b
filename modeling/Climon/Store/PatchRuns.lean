import Mathlib.Data.List.Nodup
import Climon.Lib.Transition
import Climon.Lib.Utf8
import Climon.Store.Patch

namespace Climon.Store.PatchRuns

open Climon.Lib.Transition Climon.Lib.Utf8 Climon.Proto.Meta Climon.Store.Meta Climon.Store.Patch

/-!
# Runs of concurrent patches

The lock is held from before the read until after the rename, so the value a patch was
computed from is still the published one when the patch is published.
-/

/-! ## What a run did, in order -/

def acquiredBy : Event → Option CallId
  | .acquire c => some c
  | _ => none

def publishedBy : Event → Option CallId
  | .rename c .ok => some c
  | _ => none

/-- The calls in the order in which they got the lock. -/
def acquisitions (es : List Event) : List CallId := es.filterMap acquiredBy

/-- The calls whose rename succeeded, in that order. -/
def publications (es : List Event) : List CallId := es.filterMap publishedBy

theorem acquisitions_concat (past : List Event) (e : Event) :
    acquisitions (past ++ [e]) = acquisitions past ++ (acquiredBy e).toList := by
  unfold acquisitions
  rw [List.filterMap_append]
  cases he : acquiredBy e with
  | none => rw [List.filterMap_cons_none he]; rfl
  | some c => rw [List.filterMap_cons_some he]; rfl

theorem publications_concat (past : List Event) (e : Event) :
    publications (past ++ [e]) = publications past ++ (publishedBy e).toList := by
  unfold publications
  rw [List.filterMap_append]
  cases he : publishedBy e with
  | none => rw [List.filterMap_cons_none he]; rfl
  | some c => rw [List.filterMap_cons_some he]; rfl

/-! ## Invariants -/

section Invariants

variable (codec : MetaCodec) (calls : CallId → Call) (id : String) (file : Option Bytes)

/-- Between a lock acquisition and the release. -/
def inside : Pc → Bool
  | .idle | .queued | .done _ _ | .crashed => false
  | _ => true

def temp : Pc → Option Inode
  | .writing _ inode _ | .publishing _ inode _ => some inode
  | _ => none

/-- The caller is the last to have got the lock, and has not published. -/
def Turn (acqs pubs : List CallId) (c : CallId) : Prop :=
  ∃ front, acqs = front ++ [c] ∧ pubs.Sublist front

/-- `data` is what the call makes of the file as it is now. -/
def Prepared (s : StoreState) (c : CallId) (updated : SessionMeta) (data : Bytes) : Prop :=
  ∃ raw sessionMeta, s.content id = some raw ∧ codec.parse raw = some sessionMeta ∧
    computed codec (calls c) (applyUserPausedOverlay sessionMeta) = .creating updated data

def CallInv (acqs pubs : List CallId) (s : StoreState) (c : CallId) : Pc → Prop
  | .idle | .queued => c ∉ acqs
  | .locked => Turn acqs pubs c
  | .computing current => Turn acqs pubs c ∧ ∃ raw sessionMeta, s.content id = some raw ∧
      codec.parse raw = some sessionMeta ∧ applyUserPausedOverlay sessionMeta = current
  | .creating updated data => Turn acqs pubs c ∧ Prepared codec calls id s c updated data
  | .writing updated inode rest => Turn acqs pubs c ∧
      Prepared codec calls id s c updated (s.inodes inode ++ rest)
  | .publishing updated inode _ => Turn acqs pubs c ∧
      Prepared codec calls id s c updated (s.inodes inode)
  | .releasing result | .done result _ => c ∈ pubs ↔ result.isWritten = true
  | .crashed => True

/-- The file after the first `k` publications. -/
def version (pubs : List CallId) (k : Nat) : Option Bytes :=
  serial codec calls file (pubs.take k)

/-- An inode that no call writes to any more. -/
def Frozen (s : StoreState) (inode : Inode) : Prop :=
  inode < s.nextInode ∧ ∀ c, temp (s.pc c) ≠ some inode

def ReaderInv (pubs : List CallId) (s : StoreState) : Reader → Prop
  | .idle => True
  | .reading inode buffer => Frozen s inode ∧ (∃ rest, s.inodes inode = buffer ++ rest) ∧
      ∃ k ≤ pubs.length, version codec calls file pubs k = some (s.inodes inode)
  | .finished raw => ∃ k ≤ pubs.length, version codec calls file pubs k = raw

structure Inv (acqs pubs : List CallId) (s : StoreState) : Prop where
  holder : ∀ c, inside (s.pc c) = true → s.lock = some c
  acquiredOnce : acqs.Nodup
  order : pubs.Sublist acqs
  call : ∀ c, CallInv codec calls id acqs pubs s c (s.pc c)
  tempFresh : ∀ c inode, temp (s.pc c) = some inode → inode < s.nextInode
  frozen : ∀ p inode, s.files p = some inode → Frozen s inode
  content : s.content id = serial codec calls file pubs
  value : ∀ sessionMeta, file.bind codec.parse = some sessionMeta →
    (s.content id).bind codec.parse =
      some (pubs.foldl (fun m c => applied (calls c) m) sessionMeta)
  named : ∀ sessionMeta, (s.content id).bind codec.parse = some sessionMeta →
    sessionMeta.id = id
  reader : ∀ r, ReaderInv codec calls file pubs s (s.readers r)

end Invariants

variable {codec : MetaCodec} {calls : CallId → Call} {id : String} {file : Option Bytes}

theorem initial_inv (hnamed : ∀ sessionMeta, file.bind codec.parse = some sessionMeta →
    sessionMeta.id = id) : Inv codec calls id file [] [] (initialState id file) := by
  have hcontent : (initialState id file).content id = file := by
    unfold StoreState.content initialState
    dsimp only
    rw [if_pos rfl]
    cases file <;> rfl
  refine ⟨nofun, List.nodup_nil, List.Sublist.refl _, fun _ => List.not_mem_nil, nofun, ?_,
    hcontent, ?_, ?_, fun _ => trivial⟩
  · intro p inode h
    refine ⟨?_, nofun⟩
    unfold initialState at h ⊢
    dsimp only at h ⊢
    split at h
    · cases file with
      | none => cases h
      | some raw =>
        cases h
        exact Nat.zero_lt_one
    · cases h
  · intro sessionMeta h
    rw [hcontent]
    exact h
  · rw [hcontent]
    exact hnamed

/-! ## Steps that publish nothing -/

theorem inside_of_temp {q : Pc} {inode : Inode} (h : temp q = some inode) : inside q = true := by
  cases q with
  | writing => rfl
  | publishing => rfl
  | _ => cases h

theorem Inv.only_holder {acqs pubs : List CallId} {s : StoreState}
    (h : Inv codec calls id file acqs pubs s) {c d : CallId} (hc : inside (s.pc c) = true)
    (hd : inside (s.pc d) = true) : c = d :=
  Option.some.inj ((h.holder c hc).symm.trans (h.holder d hd))

/-- Call `c` moves to `q` and writes at most to its own temp file. -/
structure Moves (s t : StoreState) (c : CallId) (q : Pc) : Prop where
  pc : t.pc = Function.update s.pc c q
  files : t.files = s.files
  readers : t.readers = s.readers
  nextInode : s.nextInode ≤ t.nextInode
  inodes : ∀ inode < s.nextInode, temp (s.pc c) ≠ some inode → t.inodes inode = s.inodes inode
  tempOwn : ∀ inode, temp q = some inode →
    (temp (s.pc c) = some inode ∨ s.nextInode ≤ inode) ∧ inode < t.nextInode

section Moves

variable {acqs pubs : List CallId} {s t : StoreState} {c : CallId} {q : Pc}

theorem Moves.pc_self (m : Moves s t c q) : t.pc c = q := by
  rw [m.pc, Function.update_self]

theorem Moves.pc_other (m : Moves s t c q) {d : CallId} (hd : d ≠ c) : t.pc d = s.pc d := by
  rw [m.pc, Function.update_of_ne hd]

theorem Moves.frozen (m : Moves s t c q) {inode : Inode} (h : Frozen s inode) :
    Frozen t inode := by
  refine ⟨Nat.lt_of_lt_of_le h.1 m.nextInode, fun d hd => ?_⟩
  by_cases hdc : d = c
  · subst hdc
    rw [m.pc_self] at hd
    rcases (m.tempOwn inode hd).1 with hown | hfresh
    · exact h.2 d hown
    · exact absurd h.1 (Nat.not_lt.mpr hfresh)
  · rw [m.pc_other hdc] at hd
    exact h.2 d hd

theorem Moves.frozen_inode (m : Moves s t c q) {inode : Inode} (h : Frozen s inode) :
    t.inodes inode = s.inodes inode :=
  m.inodes inode h.1 (h.2 c)

theorem Moves.content (h : Inv codec calls id file acqs pubs s) (m : Moves s t c q)
    (p : String) : t.content p = s.content p := by
  unfold StoreState.content
  rw [m.files]
  cases hp : s.files p with
  | none => rfl
  | some inode =>
    rw [Option.map_some, Option.map_some, m.frozen_inode (h.frozen p inode hp)]

theorem callInv_congr {d : CallId} (hcontent : t.content id = s.content id)
    (htemp : ∀ inode, temp q = some inode → t.inodes inode = s.inodes inode)
    (h : CallInv codec calls id acqs pubs s d q) : CallInv codec calls id acqs pubs t d q := by
  cases q with
  | computing current =>
    refine ⟨h.1, ?_⟩
    rw [hcontent]
    exact h.2
  | creating updated data =>
    refine ⟨h.1, ?_⟩
    unfold Prepared
    rw [hcontent]
    exact h.2
  | writing updated inode rest =>
    refine ⟨h.1, ?_⟩
    unfold Prepared
    rw [hcontent, htemp inode rfl]
    exact h.2
  | publishing updated inode attempt =>
    refine ⟨h.1, ?_⟩
    unfold Prepared
    rw [hcontent, htemp inode rfl]
    exact h.2
  | _ => exact h

theorem readerInv_congr {r : Reader} (hfrozen : ∀ inode, Frozen s inode → Frozen t inode)
    (hinodes : ∀ inode, Frozen s inode → t.inodes inode = s.inodes inode)
    (h : ReaderInv codec calls file pubs s r) : ReaderInv codec calls file pubs t r := by
  cases r with
  | reading inode buffer =>
    refine ⟨hfrozen inode h.1, ?_⟩
    rw [hinodes inode h.1]
    exact h.2
  | idle => trivial
  | finished raw => exact h

theorem Inv.moves (h : Inv codec calls id file acqs pubs s) (m : Moves s t c q)
    (hholder : ∀ d, inside (t.pc d) = true → t.lock = some d)
    (hcall : CallInv codec calls id acqs pubs t c q) : Inv codec calls id file acqs pubs t where
  holder := hholder
  acquiredOnce := h.acquiredOnce
  order := h.order
  call := by
    intro d
    by_cases hdc : d = c
    · subst hdc
      rw [m.pc_self]
      exact hcall
    · rw [m.pc_other hdc]
      refine callInv_congr (m.content h id) (fun inode hd => ?_) (h.call d)
      refine m.inodes inode (h.tempFresh d inode hd) fun hc => hdc ?_
      exact h.only_holder (inside_of_temp hd) (inside_of_temp hc)
  tempFresh := by
    intro d inode hd
    by_cases hdc : d = c
    · subst hdc
      rw [m.pc_self] at hd
      exact (m.tempOwn inode hd).2
    · rw [m.pc_other hdc] at hd
      exact Nat.lt_of_lt_of_le (h.tempFresh d inode hd) m.nextInode
  frozen := by
    intro p inode hp
    rw [m.files] at hp
    exact m.frozen (h.frozen p inode hp)
  content := (m.content h id).trans h.content
  value := by
    rw [m.content h id]
    exact h.value
  named := by
    rw [m.content h id]
    exact h.named
  reader := by
    intro r
    rw [m.readers]
    exact readerInv_congr (fun _ hf => m.frozen hf) (fun _ hf => m.frozen_inode hf) (h.reader r)

/-- A call keeps the lock it has. -/
theorem Inv.moves_keeping (h : Inv codec calls id file acqs pubs s) (m : Moves s t c q)
    (hlock : t.lock = s.lock) (hinside : inside q = true → inside (s.pc c) = true)
    (hcall : CallInv codec calls id acqs pubs t c q) : Inv codec calls id file acqs pubs t := by
  refine h.moves m (fun d hd => ?_) hcall
  rw [hlock]
  by_cases hdc : d = c
  · subst hdc
    rw [m.pc_self] at hd
    exact h.holder d (hinside hd)
  · rw [m.pc_other hdc] at hd
    exact h.holder d hd

/-- A call leaves the locked section, or dies. -/
theorem Inv.moves_out (h : Inv codec calls id file acqs pubs s) (m : Moves s t c q)
    (hlock : ∀ d, d ≠ c → s.lock = some d → t.lock = some d) (hout : inside q = false)
    (hcall : CallInv codec calls id acqs pubs t c q) : Inv codec calls id file acqs pubs t := by
  refine h.moves m (fun d hd => ?_) hcall
  by_cases hdc : d = c
  · subst hdc
    rw [m.pc_self, hout] at hd
    cases hd
  · rw [m.pc_other hdc] at hd
    exact hlock d hdc (h.holder d hd)

/-- The call's own state and nothing else of the model. -/
theorem moves_goto (s : StoreState) (c : CallId) (hq : temp q = none ∨ temp q = temp (s.pc c))
    (hfresh : ∀ inode, temp (s.pc c) = some inode → inode < s.nextInode) :
    Moves s (s.goto c q) c q where
  pc := rfl
  files := rfl
  readers := rfl
  nextInode := Nat.le_refl _
  inodes := fun _ _ _ => rfl
  tempOwn := by
    intro inode h
    rcases hq with hnone | hsame
    · rw [hnone] at h
      cases h
    · rw [hsame] at h
      exact ⟨.inl h, hfresh inode h⟩

theorem Turn.not_published (h : Turn acqs pubs c) (hnodup : acqs.Nodup) : c ∉ pubs := by
  obtain ⟨front, rfl, hsub⟩ := h
  intro hc
  exact (List.nodup_append.mp hnodup).2.2 c (hsub.subset hc) c (List.mem_singleton.mpr rfl) rfl

theorem callInv_unwritten {result : Result} (h : Inv codec calls id file acqs pubs s)
    (hturn : Turn acqs pubs c) (hresult : result.isWritten = false) :
    CallInv codec calls id acqs pubs t c (.releasing result) := by
  refine ⟨fun hc => absurd hc (hturn.not_published h.acquiredOnce), fun hw => ?_⟩
  rw [hresult] at hw
  cases hw

/-- A local step inside the locked section. -/
theorem Inv.goto_inside (h : Inv codec calls id file acqs pubs s)
    (hq : temp q = none ∨ temp q = temp (s.pc c)) (hinside : inside (s.pc c) = true)
    (hcall : CallInv codec calls id acqs pubs (s.goto c q) c q) :
    Inv codec calls id file acqs pubs (s.goto c q) :=
  h.moves_keeping (moves_goto s c hq (h.tempFresh c)) rfl (fun _ => hinside) hcall

theorem Inv.fail (h : Inv codec calls id file acqs pubs s) (hinside : inside (s.pc c) = true)
    (hturn : Turn acqs pubs c) (e : StoreError) :
    Inv codec calls id file acqs pubs (s.fail c e) :=
  h.goto_inside (.inl rfl) hinside (callInv_unwritten h hturn rfl)

end Moves

section Steps

variable {acqs pubs : List CallId} {s t : StoreState}

theorem read_inv (h : Inv codec calls id file acqs pubs s) {c : CallId} {ok : Bool}
    (hstep : Step codec calls id s (.read c ok) t) : Inv codec calls id file acqs pubs t := by
  simp only [Step, next] at hstep
  split at hstep
  next hpc =>
    have hturn := h.call c
    rw [hpc] at hturn
    have hinside : inside (s.pc c) = true := by rw [hpc]; rfl
    cases hstep
    split
    · rcases afterRead_cases codec (s.content id) with
        ⟨raw, sessionMeta, hraw, hparse, heq⟩ | ⟨result, heq, hresult⟩
      · rw [heq]
        exact h.goto_inside (.inl rfl) hinside ⟨hturn, raw, sessionMeta, hraw, hparse, rfl⟩
      · rw [heq]
        exact h.goto_inside (.inl rfl) hinside (callInv_unwritten h hturn hresult)
    · exact h.fail hinside hturn _
  next => cases hstep

theorem compute_inv (h : Inv codec calls id file acqs pubs s) {c : CallId}
    (hstep : Step codec calls id s (.compute c) t) : Inv codec calls id file acqs pubs t := by
  simp only [Step, next] at hstep
  split at hstep
  next current hpc =>
    have hcall := h.call c
    rw [hpc] at hcall
    obtain ⟨hturn, raw, sessionMeta, hraw, hparse, rfl⟩ := hcall
    have hinside : inside (s.pc c) = true := by rw [hpc]; rfl
    cases hstep
    rcases computed_cases codec (calls c) (applyUserPausedOverlay sessionMeta) with
      ⟨updated, data, heq⟩ | ⟨result, heq, hresult⟩
    · rw [heq]
      exact h.goto_inside (.inl rfl) hinside ⟨hturn, raw, sessionMeta, hraw, hparse, heq⟩
    · rw [heq]
      exact h.goto_inside (.inl rfl) hinside (callInv_unwritten h hturn hresult)
  next => cases hstep

theorem createTemp_inv (h : Inv codec calls id file acqs pubs s) {c : CallId} {ok : Bool}
    (hstep : Step codec calls id s (.createTemp c ok) t) :
    Inv codec calls id file acqs pubs t := by
  simp only [Step, next] at hstep
  split at hstep
  next updated data hpc =>
    have hcall := h.call c
    rw [hpc] at hcall
    have hinside : inside (s.pc c) = true := by rw [hpc]; rfl
    cases hstep
    split
    · have hmoves : Moves s (StoreState.goto { s with
          inodes := Function.update s.inodes s.nextInode []
          nextInode := s.nextInode + 1 } c (.writing updated s.nextInode data)) c
          (.writing updated s.nextInode data) := by
        refine ⟨rfl, rfl, rfl, Nat.le_succ _, ?_, ?_⟩
        · intro inode hlt _
          exact Function.update_of_ne (Nat.ne_of_lt hlt) _ _
        · rintro inode ⟨⟩
          exact ⟨.inr (Nat.le_refl _), Nat.lt_succ_self _⟩
      refine h.moves_keeping hmoves rfl (fun _ => hinside) ⟨hcall.1, ?_⟩
      unfold Prepared
      rw [hmoves.content h]
      have hnew : Function.update s.inodes s.nextInode [] s.nextInode = [] :=
        Function.update_self _ _ _
      change ∃ raw sessionMeta, s.content id = some raw ∧ codec.parse raw = some sessionMeta ∧
        computed codec (calls c) (applyUserPausedOverlay sessionMeta) =
          .creating updated (Function.update s.inodes s.nextInode [] s.nextInode ++ data)
      rw [hnew]
      exact hcall.2
    · exact h.fail hinside hcall.1 _
  next => cases hstep

theorem writeChunk_inv (h : Inv codec calls id file acqs pubs s) {c : CallId} {n : Nat}
    (hstep : Step codec calls id s (.writeChunk c n) t) :
    Inv codec calls id file acqs pubs t := by
  simp only [Step, next] at hstep
  split at hstep
  next updated inode rest hpc =>
    have hcall := h.call c
    rw [hpc] at hcall
    have hinside : inside (s.pc c) = true := by rw [hpc]; rfl
    have htemp : temp (s.pc c) = some inode := by rw [hpc]; rfl
    have hmoves {q : Pc} (hq : temp q = some inode) : Moves s (StoreState.goto { s with
        inodes := Function.update s.inodes inode (s.inodes inode ++ rest.take n) } c q) c q := by
      refine ⟨rfl, rfl, rfl, Nat.le_refl _, ?_, ?_⟩
      · intro other _ hne
        refine Function.update_of_ne ?_ _ _
        rintro rfl
        exact hne htemp
      · intro other hother
        rw [hq] at hother
        cases hother
        exact ⟨.inl htemp, h.tempFresh c inode htemp⟩
    have hwritten : Function.update s.inodes inode (s.inodes inode ++ rest.take n) inode =
        s.inodes inode ++ rest.take n := Function.update_self _ _ _
    cases hstep
    split
    next hdrop =>
      refine h.moves_keeping (hmoves rfl) rfl (fun _ => hinside) ⟨hcall.1, ?_⟩
      unfold Prepared
      rw [(hmoves rfl).content h]
      change ∃ raw sessionMeta, s.content id = some raw ∧ codec.parse raw = some sessionMeta ∧
        computed codec (calls c) (applyUserPausedOverlay sessionMeta) = .creating updated
          (Function.update s.inodes inode (s.inodes inode ++ rest.take n) inode)
      have hall : rest.take n = rest := by
        have := List.take_append_drop n rest
        rwa [hdrop, List.append_nil] at this
      rw [hwritten, hall]
      exact hcall.2
    next =>
      refine h.moves_keeping (hmoves rfl) rfl (fun _ => hinside) ⟨hcall.1, ?_⟩
      unfold Prepared
      rw [(hmoves rfl).content h]
      change ∃ raw sessionMeta, s.content id = some raw ∧ codec.parse raw = some sessionMeta ∧
        computed codec (calls c) (applyUserPausedOverlay sessionMeta) = .creating updated
          (Function.update s.inodes inode (s.inodes inode ++ rest.take n) inode ++ rest.drop n)
      rw [hwritten, List.append_assoc, List.take_append_drop]
      exact hcall.2
  next => cases hstep

theorem writeFails_inv (h : Inv codec calls id file acqs pubs s) {c : CallId}
    (hstep : Step codec calls id s (.writeFails c) t) :
    Inv codec calls id file acqs pubs t := by
  simp only [Step, next] at hstep
  split at hstep
  next hpc =>
    have hcall := h.call c
    rw [hpc] at hcall
    cases hstep
    exact h.fail (by rw [hpc]; rfl) hcall.1 _
  next => cases hstep

theorem renameFails_inv (h : Inv codec calls id file acqs pubs s) {c : CallId}
    {outcome : RenameOutcome} (hne : outcome ≠ .ok)
    (hstep : Step codec calls id s (.rename c outcome) t) :
    Inv codec calls id file acqs pubs t := by
  simp only [Step, next] at hstep
  split at hstep
  next updated inode attempt hpc =>
    have hcall := h.call c
    rw [hpc] at hcall
    have hinside : inside (s.pc c) = true := by rw [hpc]; rfl
    cases outcome with
    | ok => exact absurd rfl hne
    | permanent =>
      cases hstep
      exact h.fail hinside hcall.1 _
    | transient =>
      dsimp only at hstep
      split at hstep
      · cases hstep
        exact h.fail hinside hcall.1 _
      · cases hstep
        exact h.goto_inside (.inr (by rw [hpc]; rfl)) hinside hcall
  next => cases hstep

theorem enter_inv (h : Inv codec calls id file acqs pubs s) {c : CallId}
    (hstep : Step codec calls id s (.enter c) t) : Inv codec calls id file acqs pubs t := by
  simp only [Step, next] at hstep
  split at hstep
  next hpc _ =>
    have hcall := h.call c
    rw [hpc] at hcall
    cases hstep
    refine h.moves_keeping (c := c) (q := .queued) ?_ rfl nofun hcall
    exact ⟨rfl, rfl, rfl, Nat.le_refl _, fun _ _ _ => rfl, nofun⟩
  next => cases hstep

theorem acquireFails_inv (h : Inv codec calls id file acqs pubs s) {c : CallId} {e : StoreError}
    (hstep : Step codec calls id s (.acquireFails c e) t) :
    Inv codec calls id file acqs pubs t := by
  simp only [Step, next] at hstep
  split at hstep
  next hpc =>
    have hcall := h.call c
    rw [hpc] at hcall
    cases hstep
    refine h.moves_keeping (c := c) (q := .done (.failed e) none) ?_ rfl nofun ?_
    · exact ⟨rfl, rfl, rfl, Nat.le_refl _, fun _ _ _ => rfl, nofun⟩
    · exact ⟨fun hc => absurd (h.order.subset hc) hcall, nofun⟩
  next => cases hstep

theorem release_inv (h : Inv codec calls id file acqs pubs s) {c : CallId}
    {failure : Option StoreError} (hstep : Step codec calls id s (.release c failure) t) :
    Inv codec calls id file acqs pubs t := by
  simp only [Step, next] at hstep
  split at hstep
  next result hpc =>
    have hcall := h.call c
    rw [hpc] at hcall
    have hlock := h.holder c (by rw [hpc]; rfl)
    cases hstep
    refine h.moves_out (c := c) (q := .done result failure) ?_ ?_ rfl hcall
    · exact ⟨rfl, rfl, rfl, Nat.le_refl _, fun _ _ _ => rfl, nofun⟩
    · intro d hdc hd
      exact absurd (Option.some.inj (hd.symm.trans hlock)) hdc
  next => cases hstep

theorem crash_inv (h : Inv codec calls id file acqs pubs s) {c : CallId}
    (hstep : Step codec calls id s (.crash c) t) : Inv codec calls id file acqs pubs t := by
  simp only [Step, next] at hstep
  cases hstep
  refine h.moves_out (c := c) (q := .crashed) ?_ ?_ rfl trivial
  · exact ⟨rfl, rfl, rfl, Nat.le_refl _, fun _ _ _ => rfl, nofun⟩
  · intro d hdc hd
    dsimp only [StoreState.goto]
    rw [if_neg, hd]
    rw [hd]
    exact fun heq => hdc (Option.some.inj heq)

/-! ## The lock, the rename and the readers -/

/-- The calls that are not in the locked section only know whether they published. -/
theorem callInv_outside {d : CallId} {q : Pc} (hout : inside q = false) {acqs' pubs' : List CallId}
    (hacqs : d ∈ acqs' → d ∈ acqs) (hpubs : d ∈ pubs' ↔ d ∈ pubs)
    (h : CallInv codec calls id acqs pubs s d q) : CallInv codec calls id acqs' pubs' t d q := by
  cases q with
  | idle => exact fun hd => h (hacqs hd)
  | queued => exact fun hd => h (hacqs hd)
  | done result release => exact hpubs.trans h
  | crashed => trivial
  | _ => cases hout

/-- Nobody is in the locked section when a call gets the lock. -/
theorem acquire_inv (h : Inv codec calls id file acqs pubs s) {c : CallId}
    (hstep : Step codec calls id s (.acquire c) t) :
    Inv codec calls id file (acqs ++ [c]) pubs t := by
  simp only [Step, next] at hstep
  split at hstep
  next hpc hfree =>
    have hcall := h.call c
    rw [hpc] at hcall
    have houtside (d : CallId) : inside (s.pc d) = false := by
      cases hd : inside (s.pc d) with
      | false => rfl
      | true =>
        have := h.holder d hd
        rw [hfree] at this
        cases this
    cases hstep
    have hmoves : Moves s (StoreState.goto { s with lock := some c } c .locked) c .locked :=
      ⟨rfl, rfl, rfl, Nat.le_refl _, fun _ _ _ => rfl, nofun⟩
    refine ⟨?_, ?_, h.order.trans (List.sublist_append_left _ _), ?_, ?_, ?_, h.content, h.value,
      h.named, ?_⟩
    · intro d hd
      by_cases hdc : d = c
      · rw [hdc]
        rfl
      · rw [hmoves.pc_other hdc, houtside d] at hd
        cases hd
    · rw [← List.concat_eq_append]
      exact List.Nodup.concat hcall h.acquiredOnce
    · intro d
      by_cases hdc : d = c
      · subst hdc
        rw [hmoves.pc_self]
        exact ⟨acqs, rfl, h.order⟩
      · rw [hmoves.pc_other hdc]
        refine callInv_outside (houtside d) (fun hmem => ?_) Iff.rfl (h.call d)
        exact (List.mem_append.mp hmem).resolve_right fun hl => hdc (List.mem_singleton.mp hl)
    · intro d inode hd
      by_cases hdc : d = c
      · subst hdc
        rw [hmoves.pc_self] at hd
        cases hd
      · rw [hmoves.pc_other hdc] at hd
        exact h.tempFresh d inode hd
    · intro p inode hp
      exact hmoves.frozen (h.frozen p inode hp)
    · intro r
      exact readerInv_congr (fun _ hf => hmoves.frozen hf) (fun _ _ => rfl) (h.reader r)
  next => cases hstep

theorem serial_concat (file : Option Bytes) (order : List CallId) (c : CallId) :
    serial codec calls file (order ++ [c]) =
      (serial codec calls file order).map (patchBytes codec (calls c)) := by
  unfold serial
  rw [List.foldl_append]
  rfl

theorem readerInv_concat {r : Reader} (c : CallId) (h : ReaderInv codec calls file pubs s r) :
    ReaderInv codec calls file (pubs ++ [c]) s r := by
  have hversion {k : Nat} (hk : k ≤ pubs.length) :
      version codec calls file (pubs ++ [c]) k = version codec calls file pubs k := by
    unfold version
    rw [List.take_append_of_le_length hk]
  have hlength {k : Nat} (hk : k ≤ pubs.length) : k ≤ (pubs ++ [c]).length := by
    rw [List.length_append]
    exact Nat.le_add_right_of_le hk
  cases r with
  | idle => trivial
  | reading inode buffer =>
    obtain ⟨hf, hrest, k, hk, heq⟩ := h
    exact ⟨hf, hrest, k, hlength hk, (hversion hk).trans heq⟩
  | finished raw =>
    obtain ⟨k, hk, heq⟩ := h
    exact ⟨k, hlength hk, (hversion hk).trans heq⟩

/-- The state after a rename onto the path of `id`. -/
def renamed (id : String) (s : StoreState) (c : CallId) (updated : SessionMeta)
    (inode : Inode) : StoreState :=
  { s with files := Function.update s.files id (some inode) }.goto c
    (.releasing (.written updated))

theorem renamed_content (c : CallId) (updated : SessionMeta) (inode : Inode) :
    (renamed id s c updated inode).content id = some (s.inodes inode) := by
  unfold StoreState.content renamed StoreState.goto
  dsimp only
  rw [Function.update_self]
  rfl

theorem renamed_pc_self (c : CallId) (updated : SessionMeta) (inode : Inode) :
    (renamed id s c updated inode).pc c = .releasing (.written updated) :=
  Function.update_self _ _ _

theorem renamed_pc_other {c d : CallId} (hd : d ≠ c) (updated : SessionMeta) (inode : Inode) :
    (renamed id s c updated inode).pc d = s.pc d :=
  Function.update_of_ne hd _ _

theorem Inv.others_outside (h : Inv codec calls id file acqs pubs s) {c d : CallId}
    (hc : inside (s.pc c) = true) (hd : d ≠ c) : inside (s.pc d) = false := by
  cases hin : inside (s.pc d) with
  | false => rfl
  | true => exact absurd (h.only_holder hin hc) hd

/-- Only the publishing call had a temp file, and now it is the published one. -/
theorem renamed_frozen (h : Inv codec calls id file acqs pubs s) {c : CallId}
    (hc : inside (s.pc c) = true) (updated : SessionMeta) (inode : Inode) {i : Inode}
    (hi : i < s.nextInode) : Frozen (renamed id s c updated inode) i := by
  refine ⟨hi, fun d hd => ?_⟩
  by_cases hdc : d = c
  · rw [hdc, renamed_pc_self] at hd
    cases hd
  · rw [renamed_pc_other hdc] at hd
    have hout := h.others_outside hc hdc
    rw [inside_of_temp hd] at hout
    cases hout

/-- The published bytes are what the call makes of the bytes they replace. -/
theorem rename_inv (h : Inv codec calls id file acqs pubs s) {c : CallId}
    (hstep : Step codec calls id s (.rename c .ok) t) :
    Inv codec calls id file acqs (pubs ++ [c]) t := by
  simp only [Step, next] at hstep
  split at hstep
  next updated inode attempt hpc =>
    have hcall := h.call c
    rw [hpc] at hcall
    obtain ⟨hturn, raw, sessionMeta, hraw, hparse, hcomputed⟩ := hcall
    have hinside : inside (s.pc c) = true := by rw [hpc]; rfl
    have htemp : temp (s.pc c) = some inode := by rw [hpc]; rfl
    obtain ⟨patch, hres, hupdated, hdata⟩ := (computed_eq_creating codec).mp hcomputed
    have hid : updated.id = id := by
      rw [← hupdated]
      refine (overlay_id sessionMeta).trans (h.named sessionMeta ?_)
      rw [hraw]
      exact hparse
    have hbytes : patchBytes codec (calls c) raw = s.inodes inode := by
      unfold patchBytes
      rw [hparse]
      dsimp only
      rw [hcomputed]
    have happlied : applied (calls c) sessionMeta = updated := by
      unfold applied
      rw [hres]
      exact hupdated
    cases hstep
    rw [hid]
    change Inv codec calls id file acqs (pubs ++ [c]) (renamed id s c updated inode)
    refine ⟨?_, h.acquiredOnce, ?_, ?_, ?_, ?_, ?_, ?_, ?_, ?_⟩
    · intro d hd
      by_cases hdc : d = c
      · rw [hdc]
        exact h.holder c hinside
      · rw [renamed_pc_other hdc, h.others_outside hinside hdc] at hd
        cases hd
    · obtain ⟨front, rfl, hsub⟩ := hturn
      exact hsub.append (List.Sublist.refl _)
    · intro d
      by_cases hdc : d = c
      · rw [hdc, renamed_pc_self]
        exact ⟨fun _ => rfl, fun _ => List.mem_append_right _ (List.mem_singleton.mpr rfl)⟩
      · rw [renamed_pc_other hdc]
        refine callInv_outside (h.others_outside hinside hdc) (fun hm => hm) ?_ (h.call d)
        rw [List.mem_append, List.mem_singleton]
        exact ⟨fun hm => hm.resolve_right hdc, .inl⟩
    · intro d i hd
      by_cases hdc : d = c
      · rw [hdc, renamed_pc_self] at hd
        cases hd
      · rw [renamed_pc_other hdc] at hd
        exact h.tempFresh d i hd
    · intro p i hp
      apply renamed_frozen h hinside
      unfold renamed StoreState.goto at hp
      dsimp only at hp
      by_cases hpid : p = id
      · rw [hpid, Function.update_self] at hp
        cases hp
        exact h.tempFresh c inode htemp
      · rw [Function.update_of_ne hpid] at hp
        exact (h.frozen p i hp).1
    · rw [renamed_content, serial_concat, ← h.content, hraw, Option.map_some, hbytes]
    · intro m0 hm0
      have hvalue := h.value m0 hm0
      rw [hraw, Option.bind_some, hparse] at hvalue
      rw [renamed_content, List.foldl_append, ← Option.some.inj hvalue]
      simp only [Option.bind_some, List.foldl_cons, List.foldl_nil, happlied]
      exact codec.parse_serialize hdata
    · intro m hm
      rw [renamed_content, Option.bind_some, codec.parse_serialize hdata] at hm
      cases hm
      exact hid
    · intro r
      exact readerInv_congr (fun _ hf => renamed_frozen h hinside updated inode hf.1)
        (fun _ _ => rfl) (readerInv_concat c (h.reader r))
  next => cases hstep

theorem Inv.withReader (h : Inv codec calls id file acqs pubs s) (r : Nat) {reader : Reader}
    (hr : ReaderInv codec calls file pubs s reader) :
    Inv codec calls id file acqs pubs
      { s with readers := Function.update s.readers r reader } := by
  refine ⟨h.holder, h.acquiredOnce, h.order, ?_, h.tempFresh, h.frozen, h.content, h.value,
    h.named, ?_⟩
  · intro c
    exact callInv_congr rfl (fun _ _ => rfl) (h.call c)
  · intro r'
    have hcongr {reader : Reader} (hs : ReaderInv codec calls file pubs s reader) :
        ReaderInv codec calls file pubs
          { s with readers := Function.update s.readers r reader } reader :=
      readerInv_congr (fun _ hf => hf) (fun _ _ => rfl) hs
    by_cases hr' : r' = r
    · subst hr'
      dsimp only
      rw [Function.update_self]
      exact hcongr hr
    · dsimp only
      rw [Function.update_of_ne hr']
      exact readerInv_congr (fun _ hf => hf) (fun _ _ => rfl) (h.reader r')

theorem openFile_inv (h : Inv codec calls id file acqs pubs s) {r : Nat}
    (hstep : Step codec calls id s (.openFile r) t) : Inv codec calls id file acqs pubs t := by
  have hlast : version codec calls file pubs pubs.length = s.content id := by
    unfold version
    rw [List.take_length]
    exact h.content.symm
  simp only [Step, next] at hstep
  split at hstep
  next hnone =>
    cases hstep
    refine h.withReader r ⟨pubs.length, Nat.le_refl _, hlast.trans ?_⟩
    unfold StoreState.content
    rw [hnone]
    rfl
  next inode hinode =>
    cases hstep
    refine h.withReader r ⟨h.frozen id inode hinode, ⟨_, rfl⟩, pubs.length, Nat.le_refl _,
      hlast.trans ?_⟩
    unfold StoreState.content
    rw [hinode]
    rfl

theorem readChunk_inv (h : Inv codec calls id file acqs pubs s) {r n : Nat}
    (hstep : Step codec calls id s (.readChunk r n) t) : Inv codec calls id file acqs pubs t := by
  simp only [Step, next] at hstep
  split at hstep
  next inode buffer hreader =>
    have hr := h.reader r
    rw [hreader] at hr
    obtain ⟨hf, ⟨rest, hrest⟩, k, hk, hversion⟩ := hr
    have hdrop : (s.inodes inode).drop buffer.length = rest := by
      rw [hrest, List.drop_left]
    cases hstep
    rw [hdrop]
    refine h.withReader r ?_
    split
    next hnil =>
      rw [hnil, List.append_nil] at hrest
      exact ⟨k, hk, hrest ▸ hversion⟩
    next =>
      refine ⟨hf, ⟨rest.drop n, ?_⟩, k, hk, hversion⟩
      rw [hrest, List.append_assoc, List.take_append_drop]
  next => cases hstep

theorem step_inv (h : Inv codec calls id file acqs pubs s) {e : Event}
    (hstep : Step codec calls id s e t) :
    Inv codec calls id file (acqs ++ (acquiredBy e).toList) (pubs ++ (publishedBy e).toList) t := by
  have silent (ha : acquiredBy e = none) (hp : publishedBy e = none)
      (ht : Inv codec calls id file acqs pubs t) :
      Inv codec calls id file (acqs ++ (acquiredBy e).toList)
        (pubs ++ (publishedBy e).toList) t := by
    rw [ha, hp, Option.toList_none, List.append_nil, List.append_nil]
    exact ht
  cases e with
  | enter => exact silent rfl rfl (enter_inv h hstep)
  | acquire c =>
    have ht := acquire_inv h hstep
    simpa [acquiredBy, publishedBy] using ht
  | acquireFails => exact silent rfl rfl (acquireFails_inv h hstep)
  | read => exact silent rfl rfl (read_inv h hstep)
  | compute => exact silent rfl rfl (compute_inv h hstep)
  | createTemp => exact silent rfl rfl (createTemp_inv h hstep)
  | writeChunk => exact silent rfl rfl (writeChunk_inv h hstep)
  | writeFails => exact silent rfl rfl (writeFails_inv h hstep)
  | rename c outcome =>
    cases outcome with
    | ok =>
      have ht := rename_inv h hstep
      simpa [acquiredBy, publishedBy] using ht
    | transient =>
      have hne : RenameOutcome.transient ≠ .ok := nofun
      exact silent rfl rfl (renameFails_inv h hne hstep)
    | permanent =>
      have hne : RenameOutcome.permanent ≠ .ok := nofun
      exact silent rfl rfl (renameFails_inv h hne hstep)
  | release => exact silent rfl rfl (release_inv h hstep)
  | crash => exact silent rfl rfl (crash_inv h hstep)
  | openFile => exact silent rfl rfl (openFile_inv h hstep)
  | readChunk => exact silent rfl rfl (readChunk_inv h hstep)

theorem run_inv {es : List Event}
    (run : Run (Step codec calls id) (initialState id file) es s)
    (hnamed : ∀ sessionMeta, file.bind codec.parse = some sessionMeta → sessionMeta.id = id) :
    Inv codec calls id file (acquisitions es) (publications es) s := by
  refine run.history (I := fun past s =>
    Inv codec calls id file (acquisitions past) (publications past) s) ?_ [] (initial_inv hnamed)
  intro past s e t h hstep
  rw [acquisitions_concat, publications_concat]
  exact step_inv h hstep

/-- Only a successful rename changes where a path leads, and no step writes to a frozen inode. -/
theorem frozen_of_unpublished {e : Event} (hstep : Step codec calls id s e t)
    (hp : publishedBy e = none) :
    t.files = s.files ∧ ∀ inode, Frozen s inode → t.inodes inode = s.inodes inode := by
  cases e with
  | createTemp c ok =>
    simp only [Step, next] at hstep
    split at hstep
    · cases hstep
      split
      · exact ⟨rfl, fun inode hf => Function.update_of_ne (Nat.ne_of_lt hf.1) _ _⟩
      · exact ⟨rfl, fun _ _ => rfl⟩
    · cases hstep
  | writeChunk c n =>
    simp only [Step, next] at hstep
    split at hstep
    next updated temp rest hpc =>
      cases hstep
      refine ⟨rfl, fun inode hf => Function.update_of_ne ?_ _ _⟩
      rintro rfl
      exact hf.2 c (by rw [hpc]; rfl)
    next => cases hstep
  | rename c outcome =>
    simp only [Step, next] at hstep
    split at hstep
    · cases outcome with
      | ok => cases hp
      | transient =>
        dsimp only at hstep
        split at hstep <;> cases hstep <;> exact ⟨rfl, fun _ _ => rfl⟩
      | permanent =>
        cases hstep
        exact ⟨rfl, fun _ _ => rfl⟩
    · cases hstep
  | read c ok =>
    simp only [Step, next] at hstep
    split at hstep
    · cases hstep
      split <;> exact ⟨rfl, fun _ _ => rfl⟩
    · cases hstep
  | openFile r =>
    simp only [Step, next] at hstep
    split at hstep <;> cases hstep <;> exact ⟨rfl, fun _ _ => rfl⟩
  | crash c =>
    simp only [Step, next] at hstep
    cases hstep
    exact ⟨rfl, fun _ _ => rfl⟩
  | _ =>
    simp only [Step, next] at hstep
    split at hstep
    · cases hstep
      exact ⟨rfl, fun _ _ => rfl⟩
    · cases hstep

theorem content_of_unpublished (h : Inv codec calls id file acqs pubs s) {e : Event}
    (hstep : Step codec calls id s e t) (hp : publishedBy e = none) (p : String) :
    t.content p = s.content p := by
  obtain ⟨hfiles, hinodes⟩ := frozen_of_unpublished hstep hp
  unfold StoreState.content
  rw [hfiles]
  cases hf : s.files p with
  | none => rfl
  | some inode => rw [Option.map_some, Option.map_some, hinodes inode (h.frozen p inode hf)]

end Steps

/-- Concurrent patches of one session serialise. After any run: the file is what the published
calls make of it one after another, as bytes and as values; they were published in the order of
their lock acquisitions, once each; a call published if and only if its section returned a
written patch; no other step changes any byte of the file; and a reader that finished has seen
the whole file as some number of publications left it. -/
theorem patch_runs_serialize (codec : MetaCodec) (calls : CallId → Call) (id : String)
    (file : Option Bytes)
    (hnamed : ∀ sessionMeta, file.bind codec.parse = some sessionMeta → sessionMeta.id = id)
    (es : List Event) (s : StoreState)
    (run : Run (Step codec calls id) (initialState id file) es s) :
    s.content id = serial codec calls file (publications es) ∧
    (∀ sessionMeta, file.bind codec.parse = some sessionMeta →
      (s.content id).bind codec.parse =
        some ((publications es).foldl (fun m c => applied (calls c) m) sessionMeta)) ∧
    (publications es).Sublist (acquisitions es) ∧ (acquisitions es).Nodup ∧
    (∀ c result release, s.pc c = .done result release →
      (c ∈ publications es ↔ result.isWritten = true)) ∧
    (∀ e t, Step codec calls id s e t → (∀ c, e ≠ .rename c .ok) →
      ∀ p, t.content p = s.content p) ∧
    ∀ r raw, s.readers r = .finished raw →
      ∃ k ≤ (publications es).length, raw = serial codec calls file ((publications es).take k) := by
  have h := run_inv run hnamed
  refine ⟨h.content, h.value, h.order, h.acquiredOnce, ?_, ?_, ?_⟩
  · intro c result release hpc
    have hcall := h.call c
    rw [hpc] at hcall
    exact hcall
  · intro e t hstep hne
    have hp : publishedBy e = none := by
      cases e with
      | rename c outcome =>
        cases outcome with
        | ok => exact absurd rfl (hne c)
        | transient => rfl
        | permanent => rfl
      | _ => rfl
    exact content_of_unpublished h hstep hp
  · intro r raw hr
    have hreader := h.reader r
    rw [hr] at hreader
    obtain ⟨k, hk, heq⟩ := hreader
    exact ⟨k, hk, heq.symm⟩

/-! A patch of one session's priority, on the texts the codec really writes. -/

def sampleMeta (updatedAt : String) (priority : Option UInt16) : SessionMeta where
  id := "s"
  command := ["sh"]
  displayCommand := "sh"
  cwd := "/"
  status := .running
  priorityReason := .running
  daemonPid := none
  cols := 80
  rows := 24
  headless := none
  socketPath := "/s"
  clientVersion := none
  createdAt := "t"
  updatedAt := updatedAt
  lastActivityAt := "t"
  attentionMatchedAt := none
  attentionReason := none
  completedAt := none
  exitCode := none
  error := none
  origin := none
  clientLabel := none
  name := none
  priority := priority
  color := none
  theme := none
  userPaused := none
  terminalTitle := none
  attentionSnippet := none
  progress := none

def sampleText (updatedAt priority : String) : Bytes :=
  asBytes ("\x7b\n  \"id\": \"s\",\n  \"command\": [\n    \"sh\"\n  ],\n  \"displayCommand\": \"sh\"," ++
    "\n  \"cwd\": \"/\",\n  \"status\": \"running\",\n  \"priorityReason\": \"running\"," ++
    "\n  \"cols\": 80,\n  \"rows\": 24,\n  \"socketPath\": \"/s\",\n  \"createdAt\": \"t\"," ++
    "\n  \"updatedAt\": \"") ++
  (asBytes updatedAt ++ (asBytes "\",\n  \"lastActivityAt\": \"t\"" ++
    (asBytes priority ++ asBytes "\n\x7d\n")))

theorem sampleText_ne (first second : String) : sampleText "u" first ≠ sampleText "t" second := by
  intro h
  have hrest := List.append_cancel_left h
  have hhead : asBytes "u" = asBytes "t" := (List.append_inj hrest rfl).1
  exact absurd hhead (by decide)

/-- A codec that knows two values and their texts. -/
def pairCodec (first second : SessionMeta × Bytes) (hne : second.2 ≠ first.2) : MetaCodec where
  serialize := fun sessionMeta =>
    if sessionMeta = first.1 then some first.2
    else if sessionMeta = second.1 then some second.2
    else none
  parse := fun data =>
    if data = first.2 then some first.1
    else if data = second.2 then some second.1
    else none
  parse_serialize := by
    intro sessionMeta data h
    split at h
    next heq =>
      cases h
      rw [if_pos rfl, heq]
    next =>
      split at h
      next heq =>
        cases h
        rw [if_neg hne, if_pos rfl, heq]
      next => cases h

theorem pairCodec_parse (first second : SessionMeta × Bytes) (hne : second.2 ≠ first.2) :
    (pairCodec first second hne).parse first.2 = some first.1 := if_pos rfl

theorem pairCodec_serialize (first second : SessionMeta × Bytes) (hne : second.2 ≠ first.2)
    (hmeta : second.1 ≠ first.1) :
    (pairCodec first second hne).serialize second.1 = some second.2 :=
  (if_neg hmeta).trans (if_pos rfl)

def sampleBefore : SessionMeta × Bytes := (sampleMeta "t" none, sampleText "t" "")

def sampleAfter : SessionMeta × Bytes :=
  (sampleMeta "u" (some 5), sampleText "u" ",\n  \"priority\": 5")

def sampleCodec : MetaCodec := pairCodec sampleBefore sampleAfter (sampleText_ne _ _)

def sampleCalls (_ : CallId) : Call :=
  ⟨0, patchSessionMeta { priority := some 5 }, "u"⟩

def sampleSchedule (size : Nat) : List Event :=
  [.enter 0, .acquire 0, .read 0 true, .compute 0, .createTemp 0 true, .openFile 0,
    .writeChunk 0 size, .rename 0 .ok, .release 0 none]

theorem sample_exec {codec : MetaCodec} {raw data : Bytes}
    (hparse : codec.parse raw = some sampleBefore.1)
    (hserialize : codec.serialize sampleAfter.1 = some data) :
    (exec (next codec sampleCalls "s") (initialState "s" (some raw))
      (sampleSchedule data.length)).isSome = true := by
  have hread : afterRead codec (some raw) = .computing sampleBefore.1 :=
    afterRead_parsed codec hparse
  have hcomputed : computed codec (sampleCalls 0) sampleBefore.1 = .creating sampleAfter.1 data :=
    (computed_eq_creating codec).mpr ⟨_, rfl, rfl, hserialize⟩
  simp [exec, sampleSchedule, next, initialState, StoreState.goto, StoreState.content, hread,
    hcomputed]

theorem patch_runs_serialize_priority : ∃ s,
    exec (next sampleCodec sampleCalls "s") (initialState "s" (some sampleBefore.2))
      (sampleSchedule sampleAfter.2.length) = some s ∧
    (s.content "s").bind sampleCodec.parse = some sampleAfter.1 := by
  have hparse : sampleCodec.parse sampleBefore.2 = some sampleBefore.1 := pairCodec_parse _ _ _
  have hserialize : sampleCodec.serialize sampleAfter.1 = some sampleAfter.2 :=
    pairCodec_serialize _ _ _ fun h => nomatch congrArg SessionMeta.priority h
  obtain ⟨s, hs⟩ := Option.isSome_iff_exists.mp (sample_exec hparse hserialize)
  have hbefore : (some sampleBefore.2).bind sampleCodec.parse = some sampleBefore.1 := by
    rw [Option.bind_some, hparse]
  have hnamed : ∀ sessionMeta, (some sampleBefore.2).bind sampleCodec.parse =
      some sessionMeta → sessionMeta.id = "s" := by
    intro sessionMeta h
    rw [hbefore] at h
    cases h
    rfl
  have hserial := patch_runs_serialize sampleCodec sampleCalls "s" (some sampleBefore.2)
    hnamed _ s (Run.of_exec (fun h => h) hs)
  refine ⟨s, hs, ?_⟩
  rw [hserial.2.1 sampleBefore.1 hbefore]
  rfl

end Climon.Store.PatchRuns
