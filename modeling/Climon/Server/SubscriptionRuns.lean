import Climon.Server.PushSubscriptions

namespace Climon.Server.SubscriptionRuns

open Climon.Lib.Transition Climon.Server.PushSubscriptions

/-! # Operations on the push subscriptions take effect one at a time -/

variable {isValidSubscription : StoredPushSubscription → Bool}
  {subs subs' initial : List StoredPushSubscription} {op : Operation}

/-! ## One operation -/

theorem next_eq (op : Operation) (subs : List StoredPushSubscription) :
    op.next subs = others op.endpoint subs ++
      match op with
      | .addSubscription subscription => [subscription]
      | .removeSubscription _ => [] := by
  cases op <;> simp [Operation.next, others]

/-- Only the other endpoints' subscriptions matter to what is written. -/
theorem next_congr (h : others op.endpoint subs = others op.endpoint subs') :
    op.next subs = op.next subs' := by
  rw [next_eq, next_eq, h]

theorem next_of_not_writes (h : op.writes subs = false) : op.next subs = subs := by
  cases op with
  | addSubscription subscription => cases h
  | removeSubscription endpoint =>
    simp only [Operation.writes, decide_eq_false_iff_not, not_not] at h
    exact List.filter_sublist.eq_of_length h

theorem perform_eq (h : ∀ subscription ∈ subs, isValidSubscription subscription = true) :
    perform isValidSubscription subs op = (op.next subs).filter isValidSubscription := by
  unfold perform
  split
  · rfl
  next hwrites =>
    rw [next_of_not_writes (Bool.eq_false_of_not_eq_true hwrites)]
    exact (List.filter_eq_self.mpr h).symm

theorem valid_of_mem_readAll (s : State) :
    ∀ subscription ∈ readAll isValidSubscription s, isValidSubscription subscription = true :=
  fun _ hmem => (List.mem_filter.mp hmem).2

theorem valid_perform (h : ∀ subscription ∈ subs, isValidSubscription subscription = true) :
    ∀ subscription ∈ perform isValidSubscription subs op, isValidSubscription subscription = true := by
  rw [perform_eq h]
  exact fun _ hmem => (List.mem_filter.mp hmem).2

theorem valid_foldl (ops : List Operation)
    (h : ∀ subscription ∈ subs, isValidSubscription subscription = true) :
    ∀ subscription ∈ ops.foldl (perform isValidSubscription) subs,
      isValidSubscription subscription = true := by
  induction ops generalizing subs with
  | nil => exact h
  | cons op ops ih => exact ih (valid_perform h)

/-- Operations on other endpoints leave a subscription where it is. -/
theorem mem_foldl_iff {subscription : StoredPushSubscription} {ops : List Operation}
    (h : ∀ subscription ∈ subs, isValidSubscription subscription = true)
    (hops : ∀ op ∈ ops, op.endpoint ≠ subscription.endpoint) :
    subscription ∈ ops.foldl (perform isValidSubscription) subs ↔ subscription ∈ subs := by
  induction ops generalizing subs with
  | nil => rfl
  | cons op ops ih =>
    rw [List.forall_mem_cons] at hops
    rw [List.foldl_cons, ih (valid_perform h) hops.2, perform_eq h, next_eq]
    have hne := hops.1
    cases op with
    | addSubscription added =>
      have hadded : subscription ≠ added := fun heq => hne (congrArg (·.endpoint) heq.symm)
      simp only [others, List.filter_append, List.mem_append, List.mem_filter]
      grind [Operation.endpoint]
    | removeSubscription endpoint =>
      simp only [others, List.append_nil, List.mem_filter]
      grind [Operation.endpoint]

/-! ## The files -/

variable {s t : State} {i : Nat} {phase phase' : Phase}

/-- What the temporary file of an operation has. -/
def Owns (s : State) (op : Operation) : Phase → Prop
  | .write _ tmp inode => s.tmps tmp = some inode
  | .rename subs tmp => ∃ inode, s.tmps tmp = some inode ∧ s.texts inode = some (op.next subs)
  | _ => True

structure Files (s : State) : Prop where
  names : ∀ {tmp tmp' inode}, s.tmps tmp = some inode → s.tmps tmp' = some inode → tmp = tmp'
  alloc : ∀ {tmp inode}, s.tmps tmp = some inode → inode < s.inodes
  unnamed : ∀ {tmp inode}, s.tmps tmp = some inode → s.file ≠ some inode
  file : ∀ {inode}, s.file = some inode → inode < s.inodes

structure Inv (isValidSubscription : StoredPushSubscription → Bool)
    (initial : List StoredPushSubscription) (s : State) : Prop where
  stored : readAll isValidSubscription s =
    (s.done.map (·.2)).foldl (perform isValidSubscription) initial
  known : ∀ entry ∈ s.started, entry.1 < s.count
  active : ∀ {i op phase}, s.ops i = some (op, phase) → (i, op) ∈ s.started ∧ i ∉ s.done.map (·.1)
  once : (s.done.map (·.1)).Nodup
  returned : ∀ entry ∈ s.done, entry ∈ s.started
  accounted : ∀ entry ∈ s.started,
    (∃ phase, s.ops entry.1 = some (entry.2, phase)) ∨ entry ∈ s.done ∨ entry.1 ∈ s.failed
  separate : SeparateFiles s
  files : Files s
  owns : ∀ {i op phase}, s.ops i = some (op, phase) → Owns s op phase

theorem inv_init (text : Option (Option (List StoredPushSubscription))) :
    Inv isValidSubscription (readAll isValidSubscription (init text)) (init text) where
  stored := rfl
  known _ h := by cases h
  active h := by cases h
  once := .nil
  returned _ h := by cases h
  accounted _ h := by cases h
  separate _ _ _ _ _ _ _ h := by cases h
  files :=
    { names := fun h => by cases h
      alloc := fun h => by cases h
      unnamed := fun h => by cases h
      file := fun h => by
        obtain ⟨_, -, rfl⟩ := Option.map_eq_some_iff.mp h
        exact Nat.zero_lt_one }
  owns h := by cases h

/-- What is at work after an operation was put somewhere. -/
theorem ops_cases {f g : Nat → Option (Operation × Phase)} {op' : Operation} {j : Nat}
    (hg : g = Function.update f i (some (op, phase))) (hj : g j = some (op', phase')) :
    (j = i ∧ op' = op ∧ phase' = phase) ∨ (j ≠ i ∧ f j = some (op', phase')) := by
  rcases some_of_update hg hj with ⟨hji, heq⟩ | hold
  · cases heq
    exact .inl ⟨hji, rfl, rfl⟩
  · exact .inr hold

theorem Files.same (h : Files s) (htmps : t.tmps = s.tmps) (hfile : t.file = s.file)
    (hinodes : t.inodes = s.inodes) : Files t := by
  constructor
  · rw [htmps]
    exact h.names
  · rw [htmps, hinodes]
    exact h.alloc
  · rw [htmps, hfile]
    exact h.unnamed
  · rw [hfile, hinodes]
    exact h.file

/-- An operation goes on, with what it has of the temporary files. -/
theorem inv_goOn (h : Inv isValidSubscription initial s) (hop : s.ops i = some (op, phase))
    (hstored : readAll isValidSubscription t = readAll isValidSubscription s)
    (hlog : t.count = s.count ∧ t.started = s.started ∧ t.done = s.done ∧ t.failed = s.failed)
    (hops : t.ops = Function.update s.ops i (some (op, phase')))
    (htmp : ∀ tmp, phase'.tmp? = some tmp → phase.tmp? = some tmp ∨
      ∀ j op phase, s.ops j = some (op, phase) → phase.tmp? ≠ some tmp)
    (hfiles : Files t) (howns : Owns t op phase')
    (hothers : ∀ {j op phase}, j ≠ i → s.ops j = some (op, phase) → Owns t op phase) :
    Inv isValidSubscription initial t := by
  obtain ⟨hcount, hstarted, hdone, hfailed⟩ := hlog
  have hcases {j : Nat} {op' : Operation} {q : Phase} (hj : t.ops j = some (op', q)) :
      (j = i ∧ op' = op ∧ q = phase') ∨ (j ≠ i ∧ s.ops j = some (op', q)) := ops_cases hops hj
  refine ⟨?_, ?_, ?_, ?_, ?_, ?_, ?_, hfiles, ?_⟩
  · rw [hstored, hdone]
    exact h.stored
  · rw [hstarted, hcount]
    exact h.known
  · intro j op' q hj
    rw [hstarted, hdone]
    rcases hcases hj with ⟨rfl, rfl, -⟩ | ⟨-, hold⟩
    · exact h.active hop
    · exact h.active hold
  · rw [hdone]
    exact h.once
  · rw [hdone, hstarted]
    exact h.returned
  · rw [hstarted, hdone, hfailed]
    intro entry hentry
    rcases h.accounted entry hentry with ⟨q, hq⟩ | hended
    · left
      rw [hops]
      by_cases hi : entry.1 = i
      · rw [hi, hop] at hq
        cases hq
        exact ⟨phase', by rw [hi, Function.update_self]⟩
      · exact ⟨q, by rw [Function.update_of_ne hi, hq]⟩
    · exact .inr hended
  · intro j k op₁ op₂ q r tmp hj hk hq hr
    rcases hcases hj with ⟨rfl, -, rfl⟩ | ⟨-, hold⟩
    · rcases hcases hk with ⟨rfl, -, -⟩ | ⟨-, hold'⟩
      · rfl
      · rcases htmp tmp hq with hsame | hnew
        · exact h.separate _ _ _ _ _ _ _ hop hold' hsame hr
        · exact absurd hr (hnew _ _ _ hold')
    · rcases hcases hk with ⟨rfl, -, rfl⟩ | ⟨-, hold'⟩
      · rcases htmp tmp hr with hsame | hnew
        · exact h.separate _ _ _ _ _ _ _ hold hop hq hsame
        · exact absurd hq (hnew _ _ _ hold)
      · exact h.separate _ _ _ _ _ _ _ hold hold' hq hr
  · intro j op' q hj
    rcases hcases hj with ⟨rfl, rfl, rfl⟩ | ⟨hji, hold⟩
    · exact howns
    · exact hothers hji hold

/-- An operation ends: it returns, or it is among those that failed. -/
theorem inv_end (h : Inv isValidSubscription initial s) (hop : s.ops i = some (op, phase))
    (hlog : t.count = s.count ∧ t.started = s.started)
    (hended : t.done = s.done ++ [(i, op)] ∧ t.failed = s.failed ∧
        readAll isValidSubscription t =
          perform isValidSubscription (readAll isValidSubscription s) op ∨
      t.done = s.done ∧ t.failed = s.failed ++ [i] ∧
        readAll isValidSubscription t = readAll isValidSubscription s)
    (hops : t.ops = Function.update s.ops i none) (hfiles : Files t)
    (howns : ∀ {j op phase}, j ≠ i → s.ops j = some (op, phase) → Owns t op phase) :
    Inv isValidSubscription initial t := by
  obtain ⟨hcount, hstarted⟩ := hlog
  have hcases {j : Nat} {op' : Operation} {q : Phase} (hj : t.ops j = some (op', q)) :
      j ≠ i ∧ s.ops j = some (op', q) := some_of_update_none hops hj
  have hactive := h.active hop
  have hsub : ∀ entry ∈ t.done, entry ∈ s.done ∨ entry = (i, op) := by
    intro entry hentry
    rcases hended with ⟨hdone, -⟩ | ⟨hdone, -⟩ <;> rw [hdone] at hentry
    · simpa using hentry
    · exact .inl hentry
  refine ⟨?_, ?_, ?_, ?_, ?_, ?_, ?_, hfiles, ?_⟩
  · rcases hended with ⟨hdone, -, hstored⟩ | ⟨hdone, -, hstored⟩
    · rw [hstored, hdone, List.map_append, List.foldl_append, h.stored]
      rfl
    · rw [hstored, hdone, h.stored]
  · rw [hstarted, hcount]
    exact h.known
  · intro j op' q hj
    obtain ⟨hji, hold⟩ := hcases hj
    obtain ⟨hin, hnot⟩ := h.active hold
    rw [hstarted]
    refine ⟨hin, fun hmem => ?_⟩
    obtain ⟨entry, hentry, rfl⟩ := List.mem_map.mp hmem
    rcases hsub entry hentry with hold' | rfl
    · exact hnot (List.mem_map_of_mem hold')
    · exact hji rfl
  · rcases hended with ⟨hdone, -⟩ | ⟨hdone, -⟩ <;> rw [hdone]
    · rw [List.map_append, List.nodup_append]
      refine ⟨h.once, List.nodup_singleton _, ?_⟩
      rintro j hj _ hi rfl
      rw [List.mem_singleton.mp hi] at hj
      exact hactive.2 hj
    · exact h.once
  · intro entry hentry
    rw [hstarted]
    rcases hsub entry hentry with hold | rfl
    · exact h.returned entry hold
    · exact hactive.1
  · rw [hstarted]
    intro entry hentry
    have hgrown : (entry ∈ s.done → entry ∈ t.done) ∧ (entry.1 ∈ s.failed → entry.1 ∈ t.failed) := by
      rcases hended with ⟨hdone, hfailed, -⟩ | ⟨hdone, hfailed, -⟩ <;> rw [hdone, hfailed] <;> simp +contextual
    rcases h.accounted entry hentry with ⟨q, hq⟩ | hdone | hfailed
    · by_cases hi : entry.1 = i
      · rw [hi, hop] at hq
        have hentry' : entry = (i, op) := by
          cases hq
          exact Prod.ext hi rfl
        rcases hended with ⟨hdone, -⟩ | ⟨-, hfailed, -⟩
        · refine .inr (.inl ?_)
          rw [hdone, hentry']
          simp
        · refine .inr (.inr ?_)
          rw [hfailed, hi]
          simp
      · refine .inl ⟨q, ?_⟩
        rw [hops, Function.update_of_ne hi, hq]
    · exact .inr (.inl (hgrown.1 hdone))
    · exact .inr (.inr (hgrown.2 hfailed))
  · intro j k op₁ op₂ q r tmp hj hk hq hr
    exact h.separate _ _ _ _ _ _ _ (hcases hj).2 (hcases hk).2 hq hr
  · intro j op' q hj
    exact howns (hcases hj).1 (hcases hj).2

/-! ## The steps -/

theorem owns_congr {op : Operation} {phase : Phase} (h : Owns s op phase)
    (htmps : t.tmps = s.tmps) (htexts : t.texts = s.texts) : Owns t op phase := by
  cases phase <;> simp_all [Owns]

/-- A step that leaves the files alone. -/
theorem inv_goOn_same (h : Inv isValidSubscription initial s) (hop : s.ops i = some (op, phase))
    (htmp : ∀ tmp, phase'.tmp? = some tmp → phase.tmp? = some tmp ∨
      ∀ j op phase, s.ops j = some (op, phase) → phase.tmp? ≠ some tmp)
    (howns : Owns s op phase') : Inv isValidSubscription initial (s.goOn i op phase') :=
  inv_goOn h hop rfl ⟨rfl, rfl, rfl, rfl⟩ rfl htmp
    (h.files.same rfl rfl rfl) (owns_congr howns rfl rfl)
    fun _ hold => owns_congr (h.owns hold) rfl rfl

theorem inv_start (h : Inv isValidSubscription initial s) (op : Operation) :
    Inv isValidSubscription initial
      (State.goOn { s with count := s.count + 1, started := s.started ++ [(s.count, op)] }
        s.count op .exists) := by
  have hfresh : ∀ entry ∈ s.started, entry.1 ≠ s.count := fun entry hentry =>
    (h.known entry hentry).ne
  have hcases {j : Nat} {op' : Operation} {q : Phase}
      (hj : Function.update s.ops s.count (some (op, .exists)) j = some (op', q)) :
      (j = s.count ∧ op' = op ∧ q = .exists) ∨ (j ≠ s.count ∧ s.ops j = some (op', q)) :=
    ops_cases rfl hj
  refine ⟨h.stored, ?_, ?_, h.once, ?_, ?_, ?_,
    h.files.same rfl rfl rfl, ?_⟩
  · intro entry hentry
    change entry.1 < s.count + 1
    rcases List.mem_append.mp hentry with hold | hnew
    · exact Nat.lt_succ_of_lt (h.known entry hold)
    · rw [List.mem_singleton.mp hnew]
      exact Nat.lt_succ_self _
  · intro j op' q hj
    rcases hcases hj with ⟨rfl, rfl, -⟩ | ⟨-, hold⟩
    · refine ⟨List.mem_append_right _ (List.mem_singleton_self _), fun hmem => ?_⟩
      obtain ⟨entry, hentry, heq⟩ := List.mem_map.mp hmem
      exact hfresh entry (h.returned entry hentry) heq
    · exact ⟨List.mem_append_left _ (h.active hold).1, (h.active hold).2⟩
  · exact fun entry hentry => List.mem_append_left _ (h.returned entry hentry)
  · intro entry hentry
    rcases List.mem_append.mp hentry with hold | hnew
    · rcases h.accounted entry hold with ⟨q, hq⟩ | hended
      · exact .inl ⟨q, (Function.update_of_ne (hfresh entry hold) _ _).trans hq⟩
      · exact .inr hended
    · rw [List.mem_singleton.mp hnew]
      exact .inl ⟨.exists, Function.update_self _ _ _⟩
  · intro j k op₁ op₂ q r tmp hj hk hq hr
    rcases hcases hj with ⟨-, -, rfl⟩ | ⟨-, hold⟩
    · cases hq
    · rcases hcases hk with ⟨-, -, rfl⟩ | ⟨-, hold'⟩
      · cases hr
      · exact h.separate _ _ _ _ _ _ _ hold hold' hq hr
  · intro j op' q hj
    rcases hcases hj with ⟨-, -, rfl⟩ | ⟨-, hold⟩
    · trivial
    · exact owns_congr (h.owns hold) rfl rfl

theorem inv_haveRead (h : Inv isValidSubscription initial s)
    (hop : s.ops i = some (op, phase)) :
    Inv isValidSubscription initial (s.haveRead i op (readAll isValidSubscription s)) := by
  unfold State.haveRead
  split
  · exact inv_goOn_same h hop (fun _ htmp => by cases htmp) trivial
  next hwrites =>
    refine inv_end h hop ⟨rfl, rfl⟩ (.inl ⟨rfl, rfl, ?_⟩) rfl
      (h.files.same rfl rfl rfl)
      fun _ hold => owns_congr (h.owns hold) rfl rfl
    rw [perform, if_neg hwrites]
    rfl

/-- Another operation's temporary file has another name. -/
theorem tmp_ne (h : Inv isValidSubscription initial s) (hop : s.ops i = some (op, phase))
    {tmp tmp' j : Nat} {op' : Operation} (htmp : phase.tmp? = some tmp) (hji : j ≠ i)
    (hold : s.ops j = some (op', phase')) (htmp' : phase'.tmp? = some tmp') : tmp' ≠ tmp := by
  rintro rfl
  exact hji (h.separate _ _ _ _ _ _ _ hold hop htmp' htmp)

/-- What another operation has survives a change of a file that is not its own. -/
theorem owns_other {op : Operation} {phase : Phase} (howns : Owns s op phase)
    (htmps : ∀ tmp', phase.tmp? = some tmp' → t.tmps tmp' = s.tmps tmp')
    (htexts : ∀ tmp' inode, phase.tmp? = some tmp' → s.tmps tmp' = some inode →
      t.texts inode = s.texts inode) : Owns t op phase := by
  cases phase with
  | write subs tmp inode => exact (htmps tmp rfl).trans howns
  | rename subs tmp =>
    obtain ⟨inode, hinode, htext⟩ := howns
    exact ⟨inode, (htmps tmp rfl).trans hinode, (htexts tmp inode rfl hinode).trans htext⟩
  | _ => trivial

theorem readAll_congr (hfile : t.file = s.file)
    (htexts : ∀ inode, s.file = some inode → t.texts inode = s.texts inode) :
    readAll isValidSubscription t = readAll isValidSubscription s := by
  unfold readAll
  rw [hfile]
  cases hinode : s.file with
  | none => rfl
  | some inode => rw [Option.bind_some, Option.bind_some, htexts inode hinode]

/-- A new file under a new name. -/
theorem files_open {tmp : Nat} (h : Files s) (hfile : t.file = s.file)
    (htmps : t.tmps = Function.update s.tmps tmp (some s.inodes))
    (hinodes : t.inodes = s.inodes + 1) : Files t := by
  have hcases {tmp' inode : Nat} (hinode : t.tmps tmp' = some inode) :
      (tmp' = tmp ∧ inode = s.inodes) ∨ s.tmps tmp' = some inode := by
    rcases some_of_update htmps hinode with ⟨heq, hsome⟩ | ⟨-, hold⟩
    · exact .inl ⟨heq, (Option.some.inj hsome).symm⟩
    · exact .inr hold
  constructor
  · intro tmp₁ tmp₂ inode h₁ h₂
    rcases hcases h₁ with ⟨heq₁, hnew₁⟩ | hold₁ <;> rcases hcases h₂ with ⟨heq₂, hnew₂⟩ | hold₂
    · rw [heq₁, heq₂]
    · exact absurd hnew₁ (h.alloc hold₂).ne
    · exact absurd hnew₂ (h.alloc hold₁).ne
    · exact h.names hold₁ hold₂
  · intro tmp' inode hinode
    rw [hinodes]
    rcases hcases hinode with ⟨-, hnew⟩ | hold
    · omega
    · exact Nat.lt_succ_of_lt (h.alloc hold)
  · intro tmp' inode hinode hstore
    rw [hfile] at hstore
    rcases hcases hinode with ⟨-, hnew⟩ | hold
    · exact absurd hnew (h.file hstore).ne
    · exact h.unnamed hold hstore
  · intro inode hstore
    rw [hfile] at hstore
    rw [hinodes]
    exact Nat.lt_succ_of_lt (h.file hstore)

/-- A temporary file becomes the store. -/
theorem files_rename {tmp inode : Nat} (h : Files s) (hinode : s.tmps tmp = some inode)
    (hfile : t.file = some inode) (htmps : t.tmps = Function.update s.tmps tmp none)
    (hinodes : t.inodes = s.inodes) : Files t := by
  have hcases {tmp' other : Nat} (hother : t.tmps tmp' = some other) :
      tmp' ≠ tmp ∧ s.tmps tmp' = some other := some_of_update_none htmps hother
  constructor
  · exact fun h₁ h₂ => h.names (hcases h₁).2 (hcases h₂).2
  · intro tmp' other hother
    rw [hinodes]
    exact h.alloc (hcases hother).2
  · intro tmp' other hother hstore
    rw [hfile] at hstore
    cases hstore
    exact (hcases hother).1 (h.names (hcases hother).2 hinode)
  · intro other hstore
    rw [hfile] at hstore
    cases hstore
    rw [hinodes]
    exact h.alloc hinode

/-- An operation goes on with another text in its temporary file. -/
theorem inv_overwrite (h : Inv isValidSubscription initial s) (hop : s.ops i = some (op, phase))
    {tmp inode : Nat} (htmp : phase.tmp? = some tmp) (htmp' : phase'.tmp? = some tmp)
    (hinode : s.tmps tmp = some inode) {text : Option (List StoredPushSubscription)}
    (howns : Owns { s with texts := Function.update s.texts inode text } op phase') :
    Inv isValidSubscription initial
      (State.goOn { s with texts := Function.update s.texts inode text } i op phase') := by
  refine inv_goOn h hop ?_ ⟨rfl, rfl, rfl, rfl⟩ rfl (fun other hother => .inl ?_)
    (h.files.same rfl rfl rfl) (owns_congr howns rfl rfl) ?_
  · refine readAll_congr rfl fun file hfile => Function.update_of_ne ?_ _ _
    rintro rfl
    exact h.files.unnamed hinode hfile
  · rw [htmp, ← htmp', hother]
  · intro j op' q hji hold
    refine owns_other (h.owns hold) (fun _ _ => rfl) fun tmp' file htmp'' hfile =>
      Function.update_of_ne ?_ _ _
    rintro rfl
    exact tmp_ne h hop htmp hji hold htmp'' (h.files.names hfile hinode)

theorem inv_openTmp (h : Inv isValidSubscription initial s) {tmp : Nat}
    (hop : s.ops i = some (op, .open subs tmp)) :
    Inv isValidSubscription initial (s.openTmp i op subs tmp) := by
  unfold State.openTmp
  split
  next inode hinode => exact inv_overwrite h hop rfl rfl hinode hinode
  next hnone =>
    refine inv_goOn h hop ?_ ⟨rfl, rfl, rfl, rfl⟩ rfl (fun _ htmp => .inl htmp) ?_
      (Function.update_self _ _ _) ?_
    · refine readAll_congr rfl fun file hfile => Function.update_of_ne ?_ _ _
      exact (h.files.file hfile).ne
    · exact files_open h.files rfl rfl rfl
    · intro j op' q hji hold
      refine owns_other (h.owns hold) (fun tmp' htmp' => Function.update_of_ne ?_ _ _)
        fun tmp' file htmp' hfile => Function.update_of_ne ?_ _ _
      · exact tmp_ne h hop rfl hji hold htmp'
      · exact (h.files.alloc hfile).ne

theorem inv_writeTmp (h : Inv isValidSubscription initial s) {tmp inode : Nat}
    (hop : s.ops i = some (op, .write subs tmp inode)) :
    Inv isValidSubscription initial (s.writeTmp i op subs tmp inode) := by
  have hinode : s.tmps tmp = some inode := h.owns hop
  exact inv_overwrite h hop rfl rfl hinode ⟨inode, hinode, Function.update_self _ _ _⟩

/-- The store gets what the operation makes of what is stored. -/
theorem inv_renameTmp (h : Inv isValidSubscription initial s) {tmp : Nat}
    (hop : s.ops i = some (op, .rename subs tmp))
    (hread : others op.endpoint (readAll isValidSubscription s) = others op.endpoint subs) :
    Inv isValidSubscription initial (s.renameTmp i op tmp) := by
  obtain ⟨inode, hinode, htext⟩ := h.owns hop
  unfold State.renameTmp
  rw [hinode]
  refine inv_end h hop ⟨rfl, rfl⟩ (.inl ⟨rfl, rfl, ?_⟩) rfl
    (files_rename h.files hinode rfl rfl rfl) ?_
  · rw [perform_eq (valid_of_mem_readAll s), next_congr hread]
    change ((s.texts inode).getD []).filter _ = _
    rw [htext]
    rfl
  · intro j op' q hji hold
    exact owns_other (h.owns hold)
      (fun tmp' htmp' => Function.update_of_ne (tmp_ne h hop rfl hji hold htmp') _ _)
      fun _ _ _ _ => rfl

theorem inv_giveUp (h : Inv isValidSubscription initial s) (hop : s.ops i = some (op, phase)) :
    Inv isValidSubscription initial (s.giveUp i) :=
  inv_end h hop ⟨rfl, rfl⟩ (.inr ⟨rfl, rfl, rfl⟩) rfl
    (h.files.same rfl rfl rfl)
    fun _ hold => owns_congr (h.owns hold) rfl rfl

theorem inv_step {e : Event} (h : Inv isValidSubscription initial s)
    (hs : Guarded (InTurn isValidSubscription) (Step isValidSubscription) s e t) :
    Inv isValidSubscription initial t := by
  obtain ⟨hturn, hs⟩ := hs
  cases e with
  | start op =>
    cases hs
    exact inv_start h op
  | fail i =>
    obtain ⟨hop, heq⟩ := Option.ite_none_right_eq_some.mp hs
    cases heq
    obtain ⟨⟨op, phase⟩, hop⟩ := Option.isSome_iff_exists.mp hop
    exact inv_giveUp h hop
  | step i now =>
    simp only [Step, next] at hs
    split at hs
    next => cases hs
    next op hop =>
      cases hs
      split
      · exact inv_goOn_same h hop (fun _ htmp => by cases htmp) trivial
      next hmissing =>
        have hread : readAll isValidSubscription s = [] := by
          rw [Option.not_isSome_iff_eq_none] at hmissing
          rw [readAll, hmissing]
          rfl
        rw [← hread]
        exact inv_haveRead h hop
    next op hop =>
      cases hs
      exact inv_haveRead h hop
    next op subs hop =>
      cases hs
      refine inv_goOn_same h hop (fun tmp htmp => .inr ?_) trivial
      cases htmp
      exact hturn.1 op subs hop
    next op subs tmp hop =>
      cases hs
      exact inv_openTmp h hop
    next op subs tmp inode hop =>
      cases hs
      exact inv_writeTmp h hop
    next op subs tmp hop =>
      cases hs
      exact inv_renameTmp h hop (hturn.2 op subs tmp hop)

theorem Inv.serialised (h : Inv isValidSubscription initial s)
    (hinitial : ∀ subscription ∈ initial, isValidSubscription subscription = true) :
    Serialised isValidSubscription initial s := by
  refine ⟨h.stored, ⟨h.once, h.returned⟩, h.accounted, ?_, ?_⟩
  · intro subscription before after hdone hvalid hafter
    have hbefore := valid_foldl before hinitial
    rw [h.stored, hdone, List.foldl_append, List.foldl_cons,
      mem_foldl_iff (valid_perform hbefore) hafter, perform_eq hbefore, next_eq]
    simp [hvalid]
  · intro endpoint before after hdone hafter subscription hmem heq
    have hbefore := valid_foldl before hinitial
    rw [h.stored, hdone, List.foldl_append, List.foldl_cons,
      mem_foldl_iff (valid_perform hbefore) (heq ▸ hafter), perform_eq hbefore, next_eq] at hmem
    simp [others, Operation.endpoint, heq] at hmem

/-- While every rename finds the other subscriptions as its operation read them and no two
temporary files in use have one name, the operations take effect one at a time in the order in
which they return. -/
theorem operations_serialised {text : Option (Option (List StoredPushSubscription))}
    {es : List Event}
    (run : Run (Guarded (InTurn isValidSubscription) (Step isValidSubscription)) (init text) es t) :
    Serialised isValidSubscription (readAll isValidSubscription (init text)) t ∧ SeparateFiles t := by
  have h := run.invariant (I := Inv isValidSubscription (readAll isValidSubscription (init text)))
    inv_step (inv_init text)
  exact ⟨h.serialised (valid_of_mem_readAll _), h.separate⟩

/-! ## Two operations at a time, and one -/

def phone : StoredPushSubscription := ⟨"https://push.example.com/phone", none, "k1", "a1"⟩

def laptop : StoredPushSubscription := ⟨"https://push.example.com/laptop", none, "k2", "a2"⟩

def allValid : StoredPushSubscription → Bool := fun _ => true

/-- Both read the store before either writes it, at times of their own. -/
def overlapping : List Event :=
  [.start (.addSubscription phone), .start (.addSubscription laptop), .step 0 0, .step 1 0,
    .step 0 1, .step 1 2, .step 0 3, .step 0 3, .step 0 3, .step 1 4, .step 1 4, .step 1 4]

/-- Both name their temporary file in one millisecond. -/
def sameMillisecond : List Event :=
  [.start (.addSubscription phone), .start (.addSubscription laptop), .step 0 0, .step 1 0,
    .step 0 1, .step 1 1, .step 0 2, .step 1 2, .step 0 2, .step 0 2, .step 1 2, .step 1 2]

/-- The second write loses the first subscription, whatever order the two are put in. With one
temporary file the second operation also writes into the store after the first has returned, and
then fails. -/
theorem subscription_lost :
    (∃ t, Run (Step allValid) (init none) overlapping t ∧ (∀ i, t.ops i = none) ∧
      t.done.map (·.2) = [.addSubscription phone, .addSubscription laptop] ∧
      readAll allValid t = [laptop] ∧
      ∀ order : List Operation, order.Perm (t.done.map (·.2)) →
        order.foldl (perform allValid) [] ≠ readAll allValid t) ∧
    (∃ s, Run (Step allValid) (init none) (sameMillisecond.take 6) s ∧ ¬ SeparateFiles s) ∧
    ∃ t, Run (Step allValid) (init none) sameMillisecond t ∧
      t.done = [(0, .addSubscription phone)] ∧ t.failed = [1] ∧
      readAll allValid t = [laptop] := by
  have hover : Run (Step allValid) (init none) overlapping _ := Run.of_exec (fun h => h) rfl
  have hshared : Run (Step allValid) (init none) (sameMillisecond.take 6) _ :=
    Run.of_exec (fun h => h) rfl
  have hsame : Run (Step allValid) (init none) sameMillisecond _ := Run.of_exec (fun h => h) rfl
  refine ⟨⟨_, hover, fun i => ?_, rfl, by decide, fun order horder => ?_⟩, ⟨_, hshared, fun hsep => ?_⟩,
    _, hsame, rfl, rfl, by decide⟩
  · match i with
    | 0 | 1 | i + 2 => rfl
  · rw [← List.mem_permutations'] at horder
    revert order
    decide
  · have heq := hsep 0 1 _ _ _ _ 1 rfl rfl rfl rfl
    cases heq

/-- With only the first operation at work. -/
theorem inTurn_alone {now : Nat} (hop : s.ops 0 = some (op, phase))
    (halone : ∀ j, s.ops (j + 1) = none)
    (hread : ∀ subs tmp, phase = .rename subs tmp →
      others op.endpoint (readAll isValidSubscription s) = others op.endpoint subs) :
    InTurn isValidSubscription s (.step 0 now) := by
  constructor
  · intro op' subs hmkdir j op'' phase' hj
    cases j with
    | zero =>
      rw [hmkdir] at hj
      cases hj
      simp [Phase.tmp?]
    | succ j =>
      rw [halone j] at hj
      cases hj
  · intro op' subs tmp hrename
    rw [hop] at hrename
    cases hrename
    exact hread subs tmp rfl

theorem one_serialised :
    ∃ t, Run (Guarded (InTurn allValid) (Step allValid)) (init none)
        [.start (.addSubscription phone), .step 0 0, .step 0 1, .step 0 2, .step 0 2, .step 0 2] t ∧
      Serialised allValid (readAll allValid (init none)) t ∧ SeparateFiles t := by
  have hread (phase : Phase) (hne : ∀ subs tmp, phase ≠ .rename subs tmp) (s : State) (e : String) :
      ∀ subs tmp, phase = .rename subs tmp → others e (readAll allValid s) = others e subs :=
    fun subs tmp heq => absurd heq (hne subs tmp)
  have run : Run (Guarded (InTurn allValid) (Step allValid)) (init none)
      [.start (.addSubscription phone), .step 0 0, .step 0 1, .step 0 2, .step 0 2, .step 0 2] _ :=
    .cons ⟨trivial, rfl⟩
      (.cons ⟨inTurn_alone rfl (fun _ => rfl) (hread _ (by simp) _ _), rfl⟩
      (.cons ⟨inTurn_alone rfl (fun _ => rfl) (hread _ (by simp) _ _), rfl⟩
      (.cons ⟨inTurn_alone rfl (fun _ => rfl) (hread _ (by simp) _ _), rfl⟩
      (.cons ⟨inTurn_alone rfl (fun _ => rfl) (hread _ (by simp) _ _), rfl⟩
      (.cons ⟨inTurn_alone rfl (fun _ => rfl) (by rintro _ _ ⟨⟩; rfl), rfl⟩ (.nil _))))))
  exact ⟨_, run, operations_serialised run⟩

end Climon.Server.SubscriptionRuns
