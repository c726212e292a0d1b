import Climon.Lib.Transition

namespace Climon.Remote.Attachments

open Climon.Lib.Transition

/-!
# The table of attachments

The uplink attaches to the daemon of a session with two threads, one that reads its socket and one
that writes to it, and a table entry that holds the writer's channel and the reader's flag. The
reader takes the entry out when it ends, by the session's id.
-/

/-- One session. Attachments are numbered in order. `reading` and `writing` are the threads that
run, `ending` the readers that have left their loop, `stopped` the readers whose flag is down, and
`closed` the sockets that the daemon closed. `removals` logs which reader removed whose entry. -/
structure State where
  entry : Option Nat
  attaching : Option Nat
  count : Nat
  reading : List Nat
  ending : List Nat
  writing : List Nat
  stopped : List Nat
  closed : List Nat
  removals : List (Nat × Nat)
  deriving DecidableEq, Repr

def init : State := ⟨none, none, 0, [], [], [], [], [], []⟩

/-- `connectOk` is whether the daemon's socket answers, and `locked` whether the reader that ends
gets the lock of the table. -/
inductive Event where
  | attach (connectOk : Bool)
  | insert
  | detach
  | close (attachment : Nat)
  | leave (attachment : Nat)
  | cleanUp (attachment : Nat) (locked : Bool)
  | writerEnds (attachment : Nat)
  deriving DecidableEq, Repr

namespace State

/-- Both threads run before the entry is in the table. -/
def attach (s : State) (connectOk : Bool) : State :=
  if s.entry.isSome then s
  else if connectOk then
    { s with
      attaching := some s.count
      count := s.count + 1
      reading := s.count :: s.reading
      writing := s.count :: s.writing }
  else s

def detach (s : State) : State :=
  match s.entry with
  | none => s
  | some attachment => { s with entry := none, stopped := attachment :: s.stopped }

/-- Best-effort removal so a future attach can reconnect. -/
def cleanUp (s : State) (attachment : Nat) (locked : Bool) : State :=
  let s := { s with ending := s.ending.filter (· != attachment) }
  match s.entry with
  | none => s
  | some held =>
    if locked then { s with entry := none, removals := (attachment, held) :: s.removals } else s

/-- The channel's sender is in the entry, and with the attach until then. -/
def hasSender (s : State) (attachment : Nat) : Bool :=
  s.entry = some attachment ∨ s.attaching = some attachment

end State

/-- Messages are handled one after the other. The threads run in between. -/
def step (s : State) : Event → Option State
  | .attach connectOk => if s.attaching.isNone then some (s.attach connectOk) else none
  | .insert =>
    match s.attaching with
    | none => none
    | some attachment => some { s with entry := some attachment, attaching := none }
  | .detach => if s.attaching.isNone then some s.detach else none
  | .close attachment =>
    if attachment < s.count then some { s with closed := attachment :: s.closed } else none
  | .leave attachment =>
    if attachment ∈ s.reading ∧ (attachment ∈ s.stopped ∨ attachment ∈ s.closed) then
      some { s with
        reading := s.reading.filter (· != attachment)
        ending := attachment :: s.ending }
    else none
  | .cleanUp attachment locked =>
    if attachment ∈ s.ending then some (s.cleanUp attachment locked) else none
  | .writerEnds attachment =>
    if attachment ∈ s.writing ∧ (attachment ∈ s.closed ∨ s.hasSender attachment = false) then
      some { s with writing := s.writing.filter (· != attachment) }
    else none

def Step (s : State) (e : Event) (t : State) : Prop := step s e = some t

/-! ## Agreement -/

/-- No attach is under way, and every thread that has to end has ended. -/
structure Quiescent (s : State) : Prop where
  attaching : s.attaching = none
  ending : s.ending = []
  reading : ∀ attachment ∈ s.reading, attachment ∉ s.stopped ∧ attachment ∉ s.closed
  writing : ∀ attachment ∈ s.writing, s.hasSender attachment = true

/-- Its reader goes on, and its writer writes to the daemon. -/
structure Live (s : State) (attachment : Nat) : Prop where
  reading : attachment ∈ s.reading
  unstopped : attachment ∉ s.stopped
  writing : attachment ∈ s.writing
  unclosed : attachment ∉ s.closed

/-- The entry is that of the last attachment, and is there exactly while its threads are. -/
def Agrees (s : State) : Prop :=
  ∀ attachment, s.entry = some attachment ↔ attachment + 1 = s.count ∧ Live s attachment

/-- No reader removed the entry of another attachment. -/
def OwnRemovals (s : State) : Prop := ∀ p ∈ s.removals, p.1 = p.2

/-- A reader cleans up after its attach is done, gets the lock where its own entry is there, and
does not get it where another's is. -/
def InTurn (s : State) : Event → Prop
  | .cleanUp attachment locked => s.attaching ≠ some attachment ∧
      (s.entry = some attachment → locked = true) ∧
      (locked = true → s.entry = none ∨ s.entry = some attachment)
  | _ => True

instance (s : State) (e : Event) : Decidable (InTurn s e) := by
  cases e with
  | cleanUp attachment locked => exact inferInstanceAs (Decidable (_ ∧ _))
  | _ => exact isTrue trivial

/-- The threads of the attachment are there, or see that its socket is closed. -/
structure Attended (s : State) (attachment : Nat) : Prop where
  last : attachment + 1 = s.count
  reader : attachment ∈ s.reading ∨ attachment ∈ s.ending
  unstopped : attachment ∉ s.stopped
  writer : attachment ∈ s.writing ∨ attachment ∈ s.closed

structure Inv (s : State) : Prop where
  held : ∀ attachment, s.entry = some attachment → Attended s attachment
  attaching : ∀ attachment, s.attaching = some attachment → Attended s attachment
  known : ∀ attachment, attachment ∈ s.reading ∨ attachment ∈ s.ending ∨ attachment ∈ s.stopped ∨
    attachment ∈ s.closed → attachment < s.count
  removals : OwnRemovals s

theorem inv_init : Inv init := by
  constructor <;> simp [init, OwnRemovals]

theorem Inv.agrees {s : State} (h : Inv s) (hq : Quiescent s) : Agrees s := by
  intro attachment
  constructor
  · intro hentry
    obtain ⟨hlast, hreader, hunstopped, hwriter⟩ := h.held attachment hentry
    have hreading : attachment ∈ s.reading := by
      rcases hreader with hreading | hending
      · exact hreading
      · simp [hq.ending] at hending
    have hunclosed := (hq.reading attachment hreading).2
    exact ⟨hlast, hreading, hunstopped, hwriter.resolve_right hunclosed, hunclosed⟩
  · rintro ⟨-, hlive⟩
    have hsender := hq.writing attachment hlive.writing
    simpa [State.hasSender, hq.attaching] using hsender

/-! ## Steps -/

section

variable {s t : State} {attachment : Nat}

/-- Threads of other attachments start and end. -/
theorem Attended.of_subset (h : Attended s attachment) (hcount : t.count = s.count)
    (hreader : attachment ∈ s.reading ∨ attachment ∈ s.ending →
      attachment ∈ t.reading ∨ attachment ∈ t.ending)
    (hstopped : attachment ∈ t.stopped → attachment ∈ s.stopped)
    (hwriter : attachment ∈ s.writing ∨ attachment ∈ s.closed →
      attachment ∈ t.writing ∨ attachment ∈ t.closed) : Attended t attachment :=
  ⟨hcount ▸ h.last, hreader h.reader, fun hin => h.unstopped (hstopped hin), hwriter h.writer⟩

theorem Inv.attach (h : Inv s) (connectOk : Bool) : Inv (s.attach connectOk) := by
  unfold State.attach
  split
  · exact h
  next hentry =>
    split
    · have hnone : s.entry = none := by simpa using hentry
      have hfresh : s.count ∉ s.stopped := fun hin =>
        absurd (h.known s.count (.inr (.inr (.inl hin)))) (Nat.lt_irrefl _)
      refine ⟨?_, ?_, fun other hother => ?_, h.removals⟩
      · simp [hnone]
      · rintro other hother
        cases hother
        exact ⟨rfl, .inl List.mem_cons_self, hfresh, .inl List.mem_cons_self⟩
      · dsimp only at hother ⊢
        rw [List.mem_cons] at hother
        rcases hother with (rfl | hin) | hin
        · exact Nat.lt_succ_self _
        · exact Nat.lt_succ_of_lt (h.known other (.inl hin))
        · exact Nat.lt_succ_of_lt (h.known other (.inr hin))
    · exact h

theorem Inv.detach (h : Inv s) (hattaching : s.attaching = none) : Inv s.detach := by
  unfold State.detach
  split
  · exact h
  next held hheld =>
    refine ⟨?_, ?_, fun other hother => ?_, h.removals⟩
    · simp
    · simp [hattaching]
    · dsimp only at hother ⊢
      rw [List.mem_cons] at hother
      have hlast := (h.held held hheld).last
      rcases hother with hin | hin | (rfl | hin) | hin
      · exact h.known other (.inl hin)
      · exact h.known other (.inr (.inl hin))
      · omega
      · exact h.known other (.inr (.inr (.inl hin)))
      · exact h.known other (.inr (.inr (.inr hin)))

theorem Inv.cleanUp (h : Inv s) {locked : Bool} (hturn : InTurn s (.cleanUp attachment locked)) :
    Inv (s.cleanUp attachment locked) := by
  obtain ⟨hattaching, hown, hother⟩ := hturn
  have hknown (other : Nat) (hin : other ∈ s.reading ∨ other ∈ s.ending.filter (· != attachment) ∨
      other ∈ s.stopped ∨ other ∈ s.closed) : other < s.count :=
    h.known other (hin.imp_right fun hin => hin.imp_left fun hin => (List.mem_filter.mp hin).1)
  have hkeeps {held : Nat} (hne : held ≠ attachment) (hheld : Attended s held) :
      Attended { s with ending := s.ending.filter (· != attachment) } held := by
    refine hheld.of_subset rfl (fun hreader => hreader.imp_right fun hin => ?_) id id
    exact List.mem_filter.mpr ⟨hin, bne_iff_ne.mpr hne⟩
  have hattach (held : Nat) (hheld : s.attaching = some held) :
      Attended { s with ending := s.ending.filter (· != attachment) } held :=
    hkeeps (fun heq => hattaching (heq ▸ hheld)) (h.attaching held hheld)
  unfold State.cleanUp
  dsimp only
  split
  next hnone => exact ⟨by simp [hnone], hattach, hknown, h.removals⟩
  next held hheld =>
    split
    next hlocked =>
      have hsame : held = attachment := by
        rcases hother hlocked with hnone | hsome
        · cases hheld.symm.trans hnone
        · exact Option.some.inj (hheld.symm.trans hsome)
      refine ⟨by simp, ?_, hknown, fun p hp => ?_⟩
      · intro other hin
        have hattended := hattach other hin
        exact hattended.of_subset rfl id id id
      · rcases List.mem_cons.mp hp with rfl | hold
        · exact hsame.symm
        · exact h.removals p hold
    next hunlocked =>
      refine ⟨fun other hin => ?_, hattach, hknown, h.removals⟩
      refine hkeeps (fun heq => hunlocked (hown ?_)) (h.held other hin)
      exact heq ▸ hin

theorem inv_step {e : Event} (h : Inv s) (hs : Guarded InTurn Step s e t) : Inv t := by
  obtain ⟨hturn, hs⟩ := hs
  cases e with
  | attach connectOk =>
    simp only [Step, step, Option.ite_none_right_eq_some, Option.some.injEq] at hs
    obtain ⟨-, rfl⟩ := hs
    exact h.attach connectOk
  | insert =>
    simp only [Step, step] at hs
    split at hs
    · cases hs
    next attachment hattaching =>
      cases hs
      refine ⟨fun other hother => ?_, by simp, h.known, h.removals⟩
      have hattended := h.attaching other (hattaching.trans hother)
      exact hattended.of_subset rfl id id id
  | detach =>
    simp only [Step, step, Option.ite_none_right_eq_some, Option.some.injEq,
      Option.isNone_iff_eq_none] at hs
    obtain ⟨hattaching, rfl⟩ := hs
    exact h.detach hattaching
  | close attachment =>
    simp only [Step, step, Option.ite_none_right_eq_some, Option.some.injEq] at hs
    obtain ⟨hcount, rfl⟩ := hs
    have hkeeps {held : Nat} (hheld : Attended s held) :
        Attended { s with closed := attachment :: s.closed } held :=
      hheld.of_subset rfl id id fun hwriter => hwriter.imp_right (List.mem_cons_of_mem _)
    refine ⟨fun other hother => hkeeps (h.held other hother),
      fun other hother => hkeeps (h.attaching other hother), fun other hother => ?_, h.removals⟩
    dsimp only at hother ⊢
    rw [List.mem_cons] at hother
    rcases hother with hin | hin | hin | rfl | hin
    · exact h.known other (.inl hin)
    · exact h.known other (.inr (.inl hin))
    · exact h.known other (.inr (.inr (.inl hin)))
    · exact hcount
    · exact h.known other (.inr (.inr (.inr hin)))
  | leave attachment =>
    simp only [Step, step, Option.ite_none_right_eq_some, Option.some.injEq] at hs
    obtain ⟨⟨hreading, -⟩, rfl⟩ := hs
    have hkeeps {held : Nat} (hheld : Attended s held) : Attended { s with
        reading := s.reading.filter (· != attachment)
        ending := attachment :: s.ending } held := by
      refine hheld.of_subset rfl (fun hreader => ?_) id id
      by_cases hsame : held = attachment
      · exact .inr (hsame ▸ List.mem_cons_self)
      · exact hreader.imp (fun hin => List.mem_filter.mpr ⟨hin, bne_iff_ne.mpr hsame⟩)
          (List.mem_cons_of_mem _)
    refine ⟨fun other hother => hkeeps (h.held other hother),
      fun other hother => hkeeps (h.attaching other hother), fun other hother => ?_, h.removals⟩
    dsimp only at hother ⊢
    rw [List.mem_cons] at hother
    rcases hother with hin | (rfl | hin) | hin
    · exact h.known other (.inl (List.mem_filter.mp hin).1)
    · exact h.known other (.inl hreading)
    · exact h.known other (.inr (.inl hin))
    · exact h.known other (.inr (.inr hin))
  | cleanUp attachment locked =>
    simp only [Step, step, Option.ite_none_right_eq_some, Option.some.injEq] at hs
    obtain ⟨-, rfl⟩ := hs
    exact h.cleanUp hturn
  | writerEnds attachment =>
    simp only [Step, step, Option.ite_none_right_eq_some, Option.some.injEq] at hs
    obtain ⟨⟨-, hends⟩, rfl⟩ := hs
    have hkeeps {held : Nat} (hheld : Attended s held) (hsender : s.hasSender held = true) :
        Attended { s with writing := s.writing.filter (· != attachment) } held := by
      refine hheld.of_subset rfl id id fun hwriter => ?_
      by_cases hsame : held = attachment
      · subst hsame
        exact .inr (hends.resolve_right (by simp [hsender]))
      · exact hwriter.imp_left fun hin => List.mem_filter.mpr ⟨hin, bne_iff_ne.mpr hsame⟩
    exact ⟨fun other hother => hkeeps (h.held other hother) (decide_eq_true (.inl hother)),
      fun other hother => hkeeps (h.attaching other hother) (decide_eq_true (.inr hother)),
      h.known, h.removals⟩

/-- While readers end in turn, they remove no entry but their own, and the entry that is there when
all has settled is that of the last attachment with both its threads. -/
theorem attachments_agree {es : List Event} (run : Run (Guarded InTurn Step) init es t) :
    OwnRemovals t ∧ (Quiescent t → Agrees t) := by
  have h := run.invariant (I := Inv) inv_step inv_init
  exact ⟨h.removals, h.agrees⟩

end

/-! ## A reader that ends late, and one that ends early -/

def late : List Event :=
  [.attach true, .insert, .detach, .attach true, .insert, .leave 0, .cleanUp 0 true, .writerEnds 0,
    .writerEnds 1]

def early : List Event := [.attach true, .close 0, .leave 0, .cleanUp 0 true, .insert]

/-- The reader of the first attachment removes the entry of the second one, whose own reader goes
on. A reader that ends before its entry is in the table leaves it there. -/
theorem late_and_early_disagree :
    (∃ t, Run Step init late t ∧ Quiescent t ∧ t.removals = [(0, 1)] ∧ ¬ OwnRemovals t ∧
      t.entry = none ∧ t.reading = [1]) ∧
    ∃ t, Run Step init early t ∧ Quiescent t ∧ t.entry = some 0 ∧ t.reading = [] ∧
      ¬ Agrees t := by
  have hlate : Run Step init late ⟨none, none, 2, [1], [], [], [0], [], [(0, 1)]⟩ :=
    Run.of_exec (fun h => h) rfl
  have hearly : Run Step init early ⟨some 0, none, 1, [], [], [0], [], [0], []⟩ :=
    Run.of_exec (fun h => h) rfl
  refine ⟨⟨_, hlate, ⟨rfl, rfl, by simp, by simp⟩, rfl, by simp [OwnRemovals], rfl, rfl⟩,
    _, hearly, ⟨rfl, rfl, by simp, by simp [State.hasSender]⟩, rfl, rfl, fun hagrees => ?_⟩
  cases ((hagrees 0).mp rfl).2.reading

theorem reattached_agrees :
    ∃ t, Run (Guarded InTurn Step) init
        [.attach true, .insert, .detach, .leave 0, .cleanUp 0 true, .attach true, .insert,
          .writerEnds 0] t ∧
      OwnRemovals t ∧ (Quiescent t → Agrees t) := by
  have run : Run (Guarded InTurn Step) init
      [.attach true, .insert, .detach, .leave 0, .cleanUp 0 true, .attach true, .insert,
        .writerEnds 0] _ :=
    .cons ⟨trivial, rfl⟩ (.cons ⟨trivial, rfl⟩ (.cons ⟨trivial, rfl⟩ (.cons ⟨trivial, rfl⟩
      (.cons ⟨by decide, rfl⟩ (.cons ⟨trivial, rfl⟩ (.cons ⟨trivial, rfl⟩
        (.cons ⟨trivial, rfl⟩ (.nil _))))))))
  exact ⟨_, run, attachments_agree run⟩

end Climon.Remote.Attachments
