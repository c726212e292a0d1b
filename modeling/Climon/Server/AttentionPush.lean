import Climon.Server.StreamOrder

namespace Climon.Server.AttentionPush

open Climon.Lib.Transition Climon.Proto.Meta Climon.Server.SessionStream Climon.Server.StreamOrder

/-!
# Push notifications for attention

The tracker is fed every list that is published. It keeps the keys of the sessions that need
attention in the last one, and the first list only primes it.
-/

/-- A session that needs attention since some time. -/
structure Episode where
  id : String
  matchedAt : Option String
  deriving DecidableEq, Repr

def episode (session : SessionMeta) : Episode := ⟨session.id, session.attentionMatchedAt⟩

def Episode.stateKey (e : Episode) : String := e.id ++ ":" ++ e.matchedAt.getD "attention"

def attentionStateKey (session : SessionMeta) : String := (episode session).stateKey

structure Tracker where
  seen : List String
  seeded : Bool
  deriving DecidableEq, Repr

def createAttentionTracker : Tracker := ⟨[], false⟩

def attentive (sessions : List SessionMeta) : List SessionMeta :=
  sessions.filter (·.status = .needsAttention)

def Tracker.update (tracker : Tracker) (sessions : List SessionMeta) :
    Tracker × List SessionMeta :=
  let newly := (attentive sessions).filter fun session => attentionStateKey session ∉ tracker.seen
  (⟨(attentive sessions).map attentionStateKey, true⟩, if tracker.seeded then newly else [])

/-- What each list is answered with: a push goes out for every session in it. -/
def Tracker.updates : Tracker → List (List SessionMeta) → List (List SessionMeta)
  | _, [] => []
  | tracker, sessions :: lists =>
    (tracker.update sessions).2 :: (tracker.update sessions).1.updates lists

def pushes (lists : List (List SessionMeta)) : List (List SessionMeta) :=
  createAttentionTracker.updates lists

/-! ## One push for each episode -/

/-- The attentive sessions of a list, and the pushes for it. -/
def attentiveAt (lists : List (List SessionMeta)) (i : Nat) : List SessionMeta :=
  attentive (lists.getD i [])

def pushedAt (lists : List (List SessionMeta)) (i : Nat) : List SessionMeta :=
  (pushes lists).getD i []

def Appears (lists : List (List SessionMeta)) (e : Episode) (i : Nat) : Prop :=
  ∃ session ∈ attentiveAt lists i, episode session = e

/-- In no list up to this one. -/
def NewAfter (lists : List (List SessionMeta)) (e : Episode) (i : Nat) : Prop :=
  ∀ j ≤ i, ¬ Appears lists e j

/-- The sessions of an episode. -/
def ofEpisode (e : Episode) (sessions : List SessionMeta) : Nat :=
  sessions.countP fun session => episode session = e

structure PushedOnce (lists : List (List SessionMeta)) : Prop where
  atMostOnce : ∀ e, ofEpisode e (pushes lists).flatten ≤ 1
  notPrimed : ∀ e, Appears lists e 0 → ofEpisode e (pushes lists).flatten = 0
  entered : ∀ i, ∀ session ∈ attentiveAt lists (i + 1), NewAfter lists (episode session) i →
    session ∈ pushedAt lists (i + 1)

/-- A session whose episode is in a list and not in the one before: no session of that one has its
key exactly when the episode is new, and a new episode is there once. -/
def InOneStretch (lists : List (List SessionMeta)) : Prop :=
  ∀ i, ∀ session ∈ attentiveAt lists (i + 1), ¬ Appears lists (episode session) i →
    (attentionStateKey session ∉ (attentiveAt lists i).map attentionStateKey ↔
      NewAfter lists (episode session) i) ∧
    (NewAfter lists (episode session) i →
      ofEpisode (episode session) (attentiveAt lists (i + 1)) ≤ 1)

section Counts

variable {α : Type} {p : α → Bool} {lists : List (List α)}

theorem countP_flatten_eq_zero_iff :
    lists.flatten.countP p = 0 ↔ ∀ i, (lists.getD i []).countP p = 0 := by
  induction lists with
  | nil => simp
  | cons list lists ih =>
    rw [List.flatten_cons, List.countP_append, Nat.add_eq_zero_iff, ih]
    constructor
    · rintro ⟨hlist, hlists⟩ i
      cases i with
      | zero => exact hlist
      | succ i => exact hlists i
    · intro h
      exact ⟨h 0, fun i => h (i + 1)⟩

/-- At most one in each, and only one with any. -/
theorem countP_flatten_le_one_iff :
    lists.flatten.countP p ≤ 1 ↔
      (∀ i, (lists.getD i []).countP p ≤ 1) ∧
        ∀ i j, i < j → (lists.getD i []).countP p = 0 ∨ (lists.getD j []).countP p = 0 := by
  induction lists with
  | nil => simp
  | cons list lists ih =>
    rw [List.flatten_cons, List.countP_append]
    constructor
    · intro h
      have hrest := ih.mp (by omega)
      constructor
      · intro i
        cases i with
        | zero =>
          change list.countP p ≤ 1
          omega
        | succ i => exact hrest.1 i
      · intro i j hlt
        cases j with
        | zero => omega
        | succ j =>
          cases i with
          | zero =>
            by_cases hlist : list.countP p = 0
            · exact .inl hlist
            · exact .inr (countP_flatten_eq_zero_iff.mp (by omega) j)
          | succ i => exact hrest.2 i j (by omega)
    · rintro ⟨hle, hpairs⟩
      have hrest := ih.mpr ⟨fun i => hle (i + 1), fun i j hlt => hpairs (i + 1) (j + 1) (by omega)⟩
      have hlist : list.countP p ≤ 1 := hle 0
      by_cases hzero : list.countP p = 0
      · omega
      · have hnone := countP_flatten_eq_zero_iff.mpr fun i =>
          (hpairs 0 (i + 1) (by omega)).resolve_left hzero
        omega

end Counts

section Pushes

variable {lists : List (List SessionMeta)} {e : Episode} {i j : Nat} {session : SessionMeta}

theorem updates_seeded (seen : List String) (lists : List (List SessionMeta)) (i : Nat) :
    (Tracker.updates ⟨seen, true⟩ lists).getD (i + 1) [] =
      (attentiveAt lists (i + 1)).filter fun session =>
        attentionStateKey session ∉ (attentiveAt lists i).map attentionStateKey := by
  induction lists generalizing seen i with
  | nil => rfl
  | cons sessions lists ih =>
    cases i with
    | zero =>
      cases lists with
      | nil => rfl
      | cons next lists => rfl
    | succ i => exact ih _ i

theorem pushedAt_zero (lists : List (List SessionMeta)) : pushedAt lists 0 = [] := by
  cases lists <;> rfl

theorem pushedAt_succ (lists : List (List SessionMeta)) (i : Nat) :
    pushedAt lists (i + 1) =
      (attentiveAt lists (i + 1)).filter fun session =>
        attentionStateKey session ∉ (attentiveAt lists i).map attentionStateKey := by
  cases lists with
  | nil => rfl
  | cons sessions lists =>
    cases i with
    | zero =>
      cases lists with
      | nil => rfl
      | cons next lists => rfl
    | succ i => exact updates_seeded _ lists i

theorem mem_pushedAt_succ : session ∈ pushedAt lists (i + 1) ↔
    session ∈ attentiveAt lists (i + 1) ∧
      attentionStateKey session ∉ (attentiveAt lists i).map attentionStateKey := by
  rw [pushedAt_succ, List.mem_filter, decide_eq_true_eq]

/-- All sessions of one episode have its key. -/
theorem key_mem_of_appears (h : Appears lists (episode session) i) :
    attentionStateKey session ∈ (attentiveAt lists i).map attentionStateKey := by
  obtain ⟨other, hother, heq⟩ := h
  refine List.mem_map.mpr ⟨other, hother, ?_⟩
  rw [attentionStateKey, heq]
  rfl

theorem ofEpisode_pos_iff {sessions : List SessionMeta} :
    0 < ofEpisode e sessions ↔ ∃ session ∈ sessions, episode session = e := by
  simp [ofEpisode, List.countP_pos_iff]

theorem ofEpisode_eq_zero_iff {sessions : List SessionMeta} :
    ofEpisode e sessions = 0 ↔ ∀ session ∈ sessions, episode session ≠ e := by
  simp [ofEpisode, List.countP_eq_zero]

/-- Where one session of an episode is pushed, all are. -/
theorem ofEpisode_pushedAt (h : session ∈ pushedAt lists (i + 1)) :
    ofEpisode (episode session) (pushedAt lists (i + 1)) =
      ofEpisode (episode session) (attentiveAt lists (i + 1)) := by
  have hkey := (mem_pushedAt_succ.mp h).2
  unfold ofEpisode
  rw [pushedAt_succ, List.countP_filter]
  apply List.countP_congr
  intro other _
  simp only [decide_eq_true_eq, Bool.and_eq_true]
  constructor
  · exact And.left
  · intro heq
    refine ⟨heq, ?_⟩
    rw [attentionStateKey, heq]
    exact hkey

/-- A push goes out for an episode that the list before lacked. -/
theorem not_appears_of_pushed (h : session ∈ pushedAt lists (i + 1)) :
    ¬ Appears lists (episode session) i := fun happears =>
  (mem_pushedAt_succ.mp h).2 (key_mem_of_appears happears)

theorem appears_of_pushed (h : session ∈ pushedAt lists (i + 1)) :
    Appears lists (episode session) (i + 1) := ⟨session, (mem_pushedAt_succ.mp h).1, rfl⟩

/-- Pushes for one episode at two lists are two. -/
theorem PushedOnce.unique (h : PushedOnce lists) {first second : SessionMeta}
    (hfirst : first ∈ pushedAt lists i) (hsecond : second ∈ pushedAt lists j)
    (heq : episode first = episode second) : ¬ i < j := by
  intro hlt
  have hcount := (countP_flatten_le_one_iff.mp (h.atMostOnce (episode second))).2 i j hlt
  rcases hcount with hzero | hzero
  · exact ofEpisode_eq_zero_iff.mp hzero first hfirst heq
  · exact ofEpisode_eq_zero_iff.mp hzero second hsecond rfl

/-- The first list of an episode that is in some list. -/
theorem exists_first (h : Appears lists e i) :
    ∃ j ≤ i, Appears lists e j ∧ ∀ k < j, ¬ Appears lists e k := by
  classical
  have hex : ∃ j, Appears lists e j := ⟨i, h⟩
  exact ⟨Nat.find hex, Nat.find_min' hex h, Nat.find_spec hex, fun k => Nat.find_min hex⟩

theorem PushedOnce.new (h : PushedOnce lists) (hpushed : session ∈ pushedAt lists (i + 1)) :
    NewAfter lists (episode session) i := by
  intro j hj happears
  obtain ⟨first, hle, hfirst, hbefore⟩ := exists_first happears
  cases first with
  | zero =>
    have hzero := countP_flatten_eq_zero_iff.mp (h.notPrimed _ hfirst) (i + 1)
    exact ofEpisode_eq_zero_iff.mp hzero session hpushed rfl
  | succ first =>
    obtain ⟨other, hother, heq⟩ := hfirst
    have hentered := h.entered first other hother (by
      rw [heq]
      exact fun k hk => hbefore k (by omega))
    exact h.unique hentered hpushed heq (by omega)

theorem InOneStretch.new (h : InOneStretch lists) (hpushed : session ∈ pushedAt lists (i + 1)) :
    NewAfter lists (episode session) i := by
  obtain ⟨hattentive, hkey⟩ := mem_pushedAt_succ.mp hpushed
  exact (h i session hattentive (not_appears_of_pushed hpushed)).1.mp hkey

/-- The list of a push comes after the first. -/
theorem exists_pushed (h : ofEpisode e (pushedAt lists i) ≠ 0) :
    ∃ k session, i = k + 1 ∧ session ∈ pushedAt lists (k + 1) ∧ episode session = e := by
  obtain ⟨session, hpushed, heq⟩ := ofEpisode_pos_iff.mp (Nat.pos_of_ne_zero h)
  cases i with
  | zero =>
    rw [pushedAt_zero] at hpushed
    cases hpushed
  | succ k => exact ⟨k, session, rfl, hpushed, heq⟩

theorem InOneStretch.pushedOnce (h : InOneStretch lists) : PushedOnce lists := by
  refine ⟨fun e => ?_, fun e hprimed => ?_, fun i session hsession hnew => ?_⟩
  · apply countP_flatten_le_one_iff.mpr
    constructor
    · intro i
      by_cases hzero : ofEpisode e (pushedAt lists i) = 0
      · exact hzero.trans_le (Nat.zero_le 1)
      · obtain ⟨k, session, rfl, hpushed, rfl⟩ := exists_pushed hzero
        have hattentive := (mem_pushedAt_succ.mp hpushed).1
        have hone := (h k session hattentive (not_appears_of_pushed hpushed)).2 (h.new hpushed)
        exact (ofEpisode_pushedAt hpushed).trans_le hone
    · intro i j hlt
      by_contra hboth
      rw [not_or] at hboth
      obtain ⟨k, first, rfl, hfirst, rfl⟩ := exists_pushed hboth.1
      obtain ⟨l, second, rfl, hsecond, heq⟩ := exists_pushed hboth.2
      have hnew := h.new hsecond (k + 1) (by omega)
      rw [heq] at hnew
      exact hnew (appears_of_pushed hfirst)
  · apply countP_flatten_eq_zero_iff.mpr
    intro i
    by_contra hne
    obtain ⟨k, session, rfl, hpushed, rfl⟩ := exists_pushed hne
    exact h.new hpushed 0 (Nat.zero_le k) hprimed
  · have hfresh : ¬ Appears lists (episode session) i := hnew i (Nat.le_refl i)
    exact mem_pushedAt_succ.mpr ⟨hsession, (h i session hsession hfresh).1.mpr hnew⟩

theorem PushedOnce.inOneStretch (h : PushedOnce lists) : InOneStretch lists := by
  intro i session hsession _
  refine ⟨⟨fun hkey => ?_, fun hnew => ?_⟩, fun hnew => ?_⟩
  · exact h.new (mem_pushedAt_succ.mpr ⟨hsession, hkey⟩)
  · exact (mem_pushedAt_succ.mp (h.entered i session hsession hnew)).2
  · rw [← ofEpisode_pushedAt (h.entered i session hsession hnew)]
    exact (countP_flatten_le_one_iff.mp (h.atMostOnce (episode session))).1 (i + 1)

end Pushes

/-- Whatever lists are fed, in whatever order: each episode is pushed once when it enters, and none
that the first list has, exactly when the lists have every episode in one stretch. -/
theorem pushed_once_iff (lists : List (List SessionMeta)) :
    PushedOnce lists ↔ InOneStretch lists :=
  ⟨PushedOnce.inOneStretch, InOneStretch.pushedOnce⟩

/-! ## A list that comes late -/

def running : SessionMeta :=
  { waiting with status := .running, priorityReason := .running, attentionMatchedAt := none }

/-- A handler's publish reads the session before it needs attention and sends its list after that
of the watcher's publish; another publish follows. -/
def lateFeed : List Event :=
  [.handler, .readDirectory 0, .readFile 0, .change (storeOf waiting), .watch, .readDirectory 1,
    .readFile 1, .send 1, .send 0, .handler, .readDirectory 2, .readFile 2, .send 2]

/-- The late list makes the tracker forget the session, so its episode is pushed twice. -/
theorem pushed_twice :
    ∃ t, Run (Step noDates) (init (storeOf running)) lateFeed t ∧
      t.fed = [[waiting], [running], [waiting]] ∧
      pushes ([running] :: t.fed) = [[], [waiting], [], [waiting]] ∧
      ¬ PushedOnce ([running] :: t.fed) := by
  have hrun : Run (Step noDates) (init (storeOf running)) lateFeed _ :=
    Run.of_exec (fun h => h) rfl
  refine ⟨_, hrun, rfl, by decide, fun honce => ?_⟩
  exact absurd (honce.atMostOnce (episode waiting)) (by decide)

end Climon.Server.AttentionPush
