import Climon.Server.SessionStream

namespace Climon.Server.StreamOrder

open Climon.Lib.AssocList Climon.Lib.Timeline Climon.Lib.Transition Climon.Proto.Meta Climon.Server.SessionStream
  Climon.Store.Meta

/-! # Lists that arrive in order -/

variable {s t : State} {client : Nat} {parseDate : String → Option Int}

/-- The sessions are what the files had when they were read, those still to be read aside. -/
def Shows (s : State) (pending : List String) (sessions : List SessionMeta) (reads : Reads) : Prop :=
  ∀ session, session ∈ sessions ↔
    ∃ name ∉ pending, s.shownAt name (reads.of name) = some session

structure Sound (s : State) (r : Reading) : Prop where
  timely : Timely s r.reads
  progress : ∀ pending, r.pending = some pending →
    pending.Nodup ∧ Shows s pending r.sessions r.reads

/-- The subscriber has the newest list, or one that will be is on its way to it. -/
def Served (s : State) (client : Nat) : Prop :=
  (∃ message, (s.received.filter (·.1 = client)).getLast? = some (client, message) ∧
    Current s message.reads) ∨
  ∃ i r, s.readings i = some r ∧ (r.audience = none ∨ r.audience = some client) ∧
    (r.pending = none ∨ Current s r.reads)

structure Inv (s : State) : Prop where
  fresh : ∀ i r, s.readings i = some r → i < s.nextReading
  sound : ∀ i r, s.readings i = some r → Sound s r
  timely : ∀ entry ∈ s.received, Timely s entry.2.reads
  shows : ∀ entry ∈ s.received, Shows s [] entry.2.sessions entry.2.reads
  order : InOrder s
  served : s.watched = false → ∀ client ∈ s.clients, Served s client

theorem inv_init (store : Store) : Inv (init store) where
  fresh _ _ h := by cases h
  sound _ _ h := by cases h
  timely _ h := by cases h
  shows _ h := by cases h
  order := .nil
  served _ _ h := by cases h

/-- Only the stores matter to what a reading has so far. -/
theorem Sound.of_stores {r : Reading} (h : Sound s r) (hstore : t.store = s.store)
    (hpast : t.past = s.past) : Sound t r := by
  obtain ⟨store, past, _⟩ := t
  cases hstore
  cases hpast
  exact ⟨h.timely, h.progress⟩

theorem timely_change {reads : Reads} (h : Timely s reads) (hpast : t.past = s.past ++ [s.store]) :
    Timely t reads := by
  intro name
  have hle := h name
  unfold State.version at hle ⊢
  rw [hpast, List.length_append]
  omega

theorem shows_change {pending : List String} {sessions : List SessionMeta} {reads : Reads}
    (h : Shows s pending sessions reads) (htimely : Timely s reads)
    (hpast : t.past = s.past ++ [s.store]) : Shows t pending sessions reads := by
  intro session
  rw [h session]
  simp only [shownAt_change (htimely _) hpast]

theorem inv_change (h : Inv s) (store : Store) :
    Inv { s with store := store, past := s.past ++ [s.store], watched := true } where
  fresh := h.fresh
  sound i r hr := by
    have hsound := h.sound i r hr
    refine ⟨timely_change hsound.timely rfl, fun pending hpending => ?_⟩
    have hprogress := hsound.progress pending hpending
    exact ⟨hprogress.1, shows_change hprogress.2 hsound.timely rfl⟩
  timely entry hentry := timely_change (h.timely entry hentry) rfl
  shows entry hentry := shows_change (h.shows entry hentry) (h.timely entry hentry) rfl
  order := by
    apply List.Pairwise.imp_of_mem _ h.order
    intro earlier later hearlier hlater hnot hsame
    rw [older_change (h.timely later hlater) (h.timely earlier hearlier) rfl]
    exact hnot hsame
  served hwatched := by cases hwatched

/-- Another reading changes nothing for those under way. -/
theorem inv_start (h : Inv s) (watched : Bool) (clients : List Nat) (nextClient : Nat)
    (audience : Option Nat)
    (hserved : watched = false → ∀ client ∈ clients,
      (s.watched = false ∧ client ∈ s.clients) ∨ audience = none ∨ audience = some client) :
    Inv (State.start { s with watched := watched, clients := clients, nextClient := nextClient }
      audience) where
  fresh i r hr := by
    rcases some_of_update rfl hr with ⟨rfl, -⟩ | ⟨-, hold⟩
    · exact Nat.lt_succ_self _
    · exact Nat.lt_succ_of_lt (h.fresh i r hold)
  sound i r hr := by
    rcases some_of_update rfl hr with ⟨-, hnew⟩ | ⟨-, hold⟩
    · cases hnew
      exact ⟨fun _ => Nat.zero_le _, fun pending hpending => by cases hpending⟩
    · exact (h.sound i r hold).of_stores rfl rfl
  timely := h.timely
  shows := h.shows
  order := h.order
  served hwatched client hclient := by
    rcases hserved hwatched client hclient with ⟨hold, hin⟩ | hnew
    · rcases h.served hold client hin with hlast | ⟨i, r, hr, hreaches, hcurrent⟩
      · exact .inl hlast
      · refine .inr ⟨i, r, ?_, hreaches, hcurrent⟩
        have hne : i ≠ s.nextReading := (h.fresh i r hr).ne
        exact (Function.update_of_ne hne _ _).trans hr
    · exact .inr ⟨s.nextReading, _, Function.update_self _ _ _, hnew, .inl rfl⟩

/-- A reading goes on. -/
theorem inv_read (h : Inv s) {i : Nat} {r r' : Reading} (hr : s.readings i = some r)
    (hsound : Sound s r') (haudience : r'.audience = r.audience)
    (hcurrent : r.pending = none ∨ Current s r.reads → Current s r'.reads) :
    Inv { s with readings := Function.update s.readings i (some r') } where
  fresh j q hq := by
    rcases some_of_update rfl hq with ⟨rfl, -⟩ | ⟨-, hold⟩
    · exact h.fresh j r hr
    · exact h.fresh j q hold
  sound j q hq := by
    rcases some_of_update rfl hq with ⟨-, hnew⟩ | ⟨-, hold⟩
    · cases hnew
      exact hsound.of_stores rfl rfl
    · exact (h.sound j q hold).of_stores rfl rfl
  timely := h.timely
  shows := h.shows
  order := h.order
  served hwatched client hclient := by
    rcases h.served hwatched client hclient with hlast | ⟨j, q, hq, hreaches, hserves⟩
    · exact .inl hlast
    · by_cases hj : j = i
      · subst hj
        rw [hr] at hq
        cases hq
        refine .inr ⟨j, r', Function.update_self _ _ _, ?_, .inr (hcurrent hserves)⟩
        rwa [haudience]
      · exact .inr ⟨j, q, (Function.update_of_ne hj _ _).trans hq, hreaches, hserves⟩

theorem of_nil (listedAt : Nat) (name : String) : Reads.of ⟨listedAt, []⟩ name = listedAt := rfl

theorem current_now (s : State) : Current s ⟨s.version, []⟩ := fun _ => rfl

theorem shown_of_notMem {store : Store} {name : String} (h : name ∉ store.files.map (·.1)) :
    store.shown name = none := by
  have hnone : store.files.lookup name = none := by
    rw [← Option.not_isSome_iff_eq_none, isSome_lookup_iff]
    exact h
  rw [Store.shown, hnone]
  rfl

theorem sound_readDirectory (s : State) (audience : Option Nat) :
    Sound s ⟨audience, some (s.store.files.map (·.1)), [], ⟨s.version, []⟩⟩ where
  timely _ := Nat.le_refl _
  progress pending hpending := by
    cases hpending
    refine ⟨s.store.distinct, fun session => ?_⟩
    constructor
    · intro hin
      cases hin
    · rintro ⟨name, hname, hshown⟩
      rw [of_nil, shownAt_version, shown_of_notMem hname] at hshown
      cases hshown

theorem of_cons (reads : Reads) (name other : String) (v : Nat) :
    Reads.of { reads with filesAt := (name, v) :: reads.filesAt } other =
      if other = name then v else reads.of other := by
  unfold Reads.of
  by_cases h : other = name
  · simp [h]
  · simp [List.lookup_cons, beq_eq_false_iff_ne.mpr h, h]

theorem sound_readFile {audience : Option Nat} {name : String} {names : List String}
    {sessions : List SessionMeta} {reads : Reads}
    (h : Sound s ⟨audience, some (name :: names), sessions, reads⟩) :
    Sound s ⟨audience, some names, sessions ++ (s.store.shown name).toList,
      { reads with filesAt := (name, s.version) :: reads.filesAt }⟩ where
  timely other := by
    have hle := h.timely other
    dsimp only at hle ⊢
    rw [of_cons]
    split <;> omega
  progress pending hpending := by
    cases hpending
    obtain ⟨hnodup, hshows⟩ := h.progress _ rfl
    rw [List.nodup_cons] at hnodup
    refine ⟨hnodup.2, fun session => ?_⟩
    rw [List.mem_append, hshows session, Option.mem_toList]
    constructor
    · rintro (⟨other, hother, hshown⟩ | hshown)
      · rw [List.mem_cons, not_or] at hother
        refine ⟨other, hother.2, ?_⟩
        rwa [of_cons, if_neg hother.1]
      · refine ⟨name, hnodup.1, ?_⟩
        rwa [of_cons, if_pos rfl, shownAt_version]
    · rintro ⟨other, hother, hshown⟩
      rw [of_cons] at hshown
      split at hshown
      next heq =>
        rw [heq, shownAt_version] at hshown
        exact .inr hshown
      next hne =>
        refine .inl ⟨other, ?_, hshown⟩
        rw [List.mem_cons, not_or]
        exact ⟨hne, hother⟩

/-- A file read now is current. -/
theorem current_cons {reads : Reads} (h : Current s reads) (name : String) :
    Current s { reads with filesAt := (name, s.version) :: reads.filesAt } := by
  intro other
  rw [of_cons]
  split
  · rfl
  · exact h other

/-! ## Sending -/

theorem mem_recipients {r : Reading} : client ∈ s.recipients r ↔
    client ∈ s.clients ∧ (r.audience = none ∨ r.audience = some client) := by
  unfold State.recipients
  cases r.audience with
  | none => simp
  | some other =>
    simp only [List.mem_filter, decide_eq_true_eq]
    grind

theorem overtaken_iff {r : Reading} : Overtaken s r ↔
    ∃ client ∈ s.recipients r, ∃ other ∈ s.received, other.1 = client ∧
      s.Older r.reads other.2.reads := by
  unfold Overtaken
  simp only [older_iff]

theorem not_older_self (reads : Reads) : ¬ s.Older reads reads := by
  rintro ⟨name, hlt⟩
  exact absurd hlt (lt_irrefl _)

/-- What was sent to a subscriber that gets this list, it does not make older. -/
theorem order_deliver (h : Inv s) {r : Reading} (hnot : ¬ Overtaken s r)
    (sessions : List SessionMeta) :
    (s.received ++ (s.recipients r).map fun client => (client, (⟨sessions, r.reads⟩ : Message))).Pairwise
      fun earlier later => earlier.1 = later.1 → ¬ s.Older later.2.reads earlier.2.reads := by
  rw [List.pairwise_append]
  refine ⟨h.order, ?_, ?_⟩
  · rw [List.pairwise_map]
    exact List.pairwise_of_forall fun _ _ _ => not_older_self r.reads
  · intro earlier hearlier later hlater hsame holder
    obtain ⟨client, hclient, rfl⟩ := List.mem_map.mp hlater
    exact hnot (overtaken_iff.mpr ⟨client, hclient, earlier, hearlier, hsame, holder⟩)

/-- The last list of a subscriber that gets this one. -/
theorem last_deliver {r : Reading} {message : Message} (h : client ∈ s.recipients r) :
    ((s.received ++ (s.recipients r).map fun client => (client, message)).filter
      (·.1 = client)).getLast? = some (client, message) := by
  rw [List.filter_append, List.getLast?_append]
  cases hlast : (((s.recipients r).map fun client => (client, message)).filter
    (·.1 = client)).getLast? with
  | none =>
    rw [List.getLast?_eq_none_iff, List.filter_eq_nil_iff] at hlast
    exact absurd (decide_eq_true rfl) (hlast _ (List.mem_map_of_mem h))
  | some entry =>
    obtain ⟨hentry, hclient⟩ := List.mem_filter.mp (List.mem_of_getLast? hlast)
    obtain ⟨other, -, rfl⟩ := List.mem_map.mp hentry
    have hother : other = client := of_decide_eq_true hclient
    rw [Option.some_or, hother]

/-- The last list of one that does not. -/
theorem last_deliver_of_notMem {r : Reading} {message : Message} (h : client ∉ s.recipients r) :
    ((s.received ++ (s.recipients r).map fun client => (client, message)).filter
      (·.1 = client)).getLast? = (s.received.filter (·.1 = client)).getLast? := by
  have hnone : ((s.recipients r).map fun client => (client, message)).filter (·.1 = client) = [] := by
    rw [List.filter_eq_nil_iff]
    intro entry hentry hclient
    obtain ⟨other, hother, rfl⟩ := List.mem_map.mp hentry
    exact h (of_decide_eq_true hclient ▸ hother)
  rw [List.filter_append, hnone, List.append_nil]

theorem inv_send (h : Inv s) {i : Nat} {r : Reading} (hr : s.readings i = some r)
    (hpending : r.pending = some []) (hnot : ¬ Overtaken s r) :
    Inv (State.deliver { s with readings := Function.update s.readings i none } r
      (sortSessionsByPriority parseDate r.sessions)) where
  fresh j q hq := h.fresh j q (some_of_update_none rfl hq).2
  sound j q hq := (h.sound j q (some_of_update_none rfl hq).2).of_stores rfl rfl
  timely entry hentry := by
    rcases List.mem_append.mp hentry with hold | hnew
    · exact h.timely entry hold
    · obtain ⟨client, -, rfl⟩ := List.mem_map.mp hnew
      exact (h.sound i r hr).timely
  shows entry hentry := by
    rcases List.mem_append.mp hentry with hold | hnew
    · exact h.shows entry hold
    · obtain ⟨client, -, rfl⟩ := List.mem_map.mp hnew
      intro session
      rw [mem_sortSessionsByPriority]
      exact ((h.sound i r hr).progress [] hpending).2 session
  order := order_deliver h hnot _
  served hwatched client hclient := by
    have hreads := (h.sound i r hr).timely
    rcases h.served hwatched client hclient with ⟨message, hlast, hcurrent⟩ |
      ⟨j, q, hq, hreaches, hserves⟩
    · by_cases hgets : client ∈ s.recipients r
      · have hin := (List.mem_filter.mp (List.mem_of_getLast? hlast)).1
        have hnotOlder : ¬ s.Older r.reads message.reads := fun holder =>
          hnot (overtaken_iff.mpr ⟨client, hgets, _, hin, rfl, holder⟩)
        exact .inl ⟨_, last_deliver hgets, hcurrent.of_not_older hreads hnotOlder⟩
      · exact .inl ⟨message, (last_deliver_of_notMem hgets).trans hlast, hcurrent⟩
    · by_cases hj : j = i
      · subst hj
        rw [hr] at hq
        cases hq
        have hgets : client ∈ s.recipients r := mem_recipients.mpr ⟨hclient, hreaches⟩
        refine .inl ⟨_, last_deliver hgets, ?_⟩
        exact hserves.resolve_left (by simp [hpending])
      · exact .inr ⟨j, q, (Function.update_of_ne hj _ _).trans hq, hreaches, hserves⟩

theorem inv_step {e : Event} (h : Inv s) (hs : Guarded InTurn (Step parseDate) s e t) : Inv t := by
  obtain ⟨hturn, hs⟩ := hs
  cases e with
  | change store =>
    cases hs
    exact inv_change h store
  | watch =>
    obtain ⟨-, heq⟩ := Option.ite_none_right_eq_some.mp hs
    cases heq
    exact inv_start h false s.clients s.nextClient none fun _ _ _ => .inr (.inl rfl)
  | handler =>
    cases hs
    exact inv_start h s.watched s.clients s.nextClient none fun _ _ _ => .inr (.inl rfl)
  | connect =>
    cases hs
    apply inv_start h s.watched (s.clients ++ [s.nextClient]) (s.nextClient + 1)
    intro hwatched client hclient
    rcases List.mem_append.mp hclient with hold | hnew
    · exact .inl ⟨hwatched, hold⟩
    · rw [List.mem_singleton.mp hnew]
      exact .inr (.inr rfl)
  | disconnect client =>
    cases hs
    exact ⟨h.fresh, fun i r hr => (h.sound i r hr).of_stores rfl rfl, h.timely, h.shows, h.order,
      fun hwatched other hother => h.served hwatched other (List.mem_of_mem_filter hother)⟩
  | readDirectory i =>
    simp only [Step, next] at hs
    split at hs
    next audience _ _ hr =>
      cases hs
      exact inv_read h hr (sound_readDirectory s audience) rfl fun _ => current_now s
    next => cases hs
  | readFile i =>
    simp only [Step, next] at hs
    split at hs
    next audience name names sessions reads hr =>
      cases hs
      apply inv_read h hr (sound_readFile (h.sound i _ hr)) rfl
      rintro (hpending | hcurrent)
      · cases hpending
      · exact current_cons hcurrent name
    next => cases hs
  | send i =>
    simp only [Step, next] at hs
    split at hs
    next hr =>
      cases hs
      exact inv_send h hr rfl (hturn _ hr)
    next => cases hs

theorem Inv.upToDate (h : Inv s) (hquiet : Quiescent s) : UpToDate s := by
  intro client hclient
  rcases h.served hquiet.1 client hclient with ⟨message, hlast, hcurrent⟩ | ⟨i, r, hr, -⟩
  · have hin := (List.mem_filter.mp (List.mem_of_getLast? hlast)).1
    have htimely := h.timely _ hin
    refine ⟨message, hlast, fun other hother => ?_, fun session => ?_⟩
    · exact not_older_of_current hcurrent (h.timely other hother)
    · rw [h.shows _ hin session]
      simp [hcurrent.shown htimely]
  · rw [hquiet.2 i] at hr
    cases hr

/-- While no list is sent once it is overtaken, every subscriber gets lists in the order in which
the store had them, and all have the newest one when nothing is under way. -/
theorem lists_in_order {store : Store} {es : List Event}
    (run : Run (Guarded InTurn (Step parseDate)) (init store) es t) :
    InOrder t ∧ (Quiescent t → UpToDate t) := by
  have h := run.invariant (I := Inv) inv_step (inv_init store)
  exact ⟨h.order, h.upToDate⟩

/-! ## A list that comes late, and one that does not -/

def waiting : SessionMeta where
  id := "a"
  command := ["ls"]
  displayCommand := "ls"
  cwd := "/"
  status := .needsAttention
  priorityReason := .attention
  daemonPid := none
  cols := 80
  rows := 24
  headless := none
  socketPath := "tcp://127.0.0.1:5"
  clientVersion := none
  createdAt := "t0"
  updatedAt := "t1"
  lastActivityAt := "t1"
  attentionMatchedAt := some "t1"
  attentionReason := none
  completedAt := none
  exitCode := none
  error := none
  origin := none
  clientLabel := none
  name := none
  priority := none
  color := none
  theme := none
  userPaused := none
  terminalTitle := none
  attentionSnippet := none
  progress := none

def storeOf (session : SessionMeta) : Store := ⟨[("a.json", some session)], List.nodup_singleton _⟩

def acknowledged : SessionMeta :=
  { waiting with
    status := .acknowledged, priorityReason := .running, updatedAt := "t2",
    attentionMatchedAt := none }

/-- A subscriber gets the first list. Then a handler's publish reads the session before it is
acknowledged, and sends its list after that of the watcher's publish. -/
def late : List Event :=
  [.connect, .readDirectory 0, .readFile 0, .send 0, .handler, .readDirectory 1, .readFile 1,
    .change (storeOf acknowledged), .watch, .readDirectory 2, .readFile 2, .send 2, .send 1]

def noDates : String → Option Int := fun _ => none

theorem late_list_stays :
    ∃ t, Run (Step noDates) (init (storeOf waiting)) late t ∧ Quiescent t ∧ ¬ InOrder t ∧
      ¬ UpToDate t := by
  have hrun : Run (Step noDates) (init (storeOf waiting)) late _ :=
    Run.of_exec (fun h => h) rfl
  refine ⟨_, hrun, ⟨rfl, fun i => ?_⟩, fun horder => ?_, fun hdate => ?_⟩
  · match i with
    | 0 | 1 | 2 | i + 3 => rfl
  · have hlater := List.pairwise_iff_getElem.mp horder 1 2 (by decide) (by decide) (by decide) rfl
    exact hlater ⟨"a.json", by decide⟩
  · obtain ⟨message, hlast, hnewest, -⟩ := hdate 0 List.mem_cons_self
    cases hlast
    exact hnewest (0, ⟨[acknowledged], ⟨1, [("a.json", 1)]⟩⟩)
      (List.mem_cons_of_mem _ List.mem_cons_self) ⟨"a.json", by decide⟩

theorem first_list_in_order :
    ∃ t, Run (Guarded InTurn (Step noDates)) (init (storeOf waiting))
        [.connect, .readDirectory 0, .readFile 0, .send 0] t ∧
      InOrder t ∧ (Quiescent t → UpToDate t) := by
  have hnot {s : State} (h : s.received = []) (r : Reading) : ¬ Overtaken s r := by
    rintro ⟨_, _, other, hother, -⟩
    rw [h] at hother
    cases hother
  have run : Run (Guarded InTurn (Step noDates)) (init (storeOf waiting))
      [.connect, .readDirectory 0, .readFile 0, .send 0] _ :=
    .cons ⟨trivial, rfl⟩ (.cons ⟨trivial, rfl⟩ (.cons ⟨trivial, rfl⟩
      (.cons ⟨fun r _ => hnot rfl r, rfl⟩ (.nil _))))
  exact ⟨_, run, lists_in_order run⟩

end Climon.Server.StreamOrder
