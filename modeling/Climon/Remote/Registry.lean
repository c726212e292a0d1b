import Mathlib.Logic.Function.Basic
import Climon.Lib.Transition

namespace Climon.Remote.Registry

open Climon.Lib.Transition

/-!
# The connection registry

A connection that says hello looks for the one registered under its client id, asks that one to
shut down and waits until it has torn down. Each access to the registry takes its lock anew, so
other connections run between the lookup, the wait and the insertion.
-/

/-- Where the handler of a connection is. `serving` and `leaving` are in and after its loop. -/
inductive Phase where
  | absent
  | reading
  | evicting (old : Nat)
  | awaiting (old : Nat)
  | registering
  | serving
  | leaving
  | ended
  deriving DecidableEq, Repr

/-- `shutdown` and `teardownDone` are the permits of the two notifications. -/
structure Conn where
  phase : Phase
  label : Option String
  shutdown : Bool
  teardownDone : Bool
  deriving DecidableEq, Repr

/-- `writes` logs who wrote or removed metadata, `last` who registered last for a client id. -/
structure State where
  conns : Nat → Conn
  active : String → Option Nat
  last : String → Option Nat
  writes : List Nat

def init : State := ⟨fun _ => ⟨.absent, none, false, false⟩, fun _ => none, fun _ => none, []⟩

inductive Event where
  | connect (c : Nat)
  | hello (c : Nat) (clientId : String)
  | notifyShutdown (c : Nat)
  | wake (c : Nat)
  | insert (c : Nat)
  | write (c : Nat)
  | eof (c : Nat)
  | shutDown (c : Nat)
  | markTornDown (c : Nat)
  deriving DecidableEq, Repr

namespace State

def setConn (s : State) (c : Nat) (f : Conn → Conn) : State :=
  { s with conns := Function.update s.conns c (f (s.conns c)) }

def setPhase (s : State) (c : Nat) (phase : Phase) : State :=
  s.setConn c fun conn => { conn with phase := phase }

/-- The first half of `evict_and_register`: the entry stays where it is. -/
def lookup (s : State) (c : Nat) (clientId : String) : State :=
  s.setConn c fun conn => { conn with
    label := some clientId
    phase := match s.active clientId with
      | some old => .evicting old
      | none => .registering }

def register (s : State) (c : Nat) (label : String) : State :=
  { s.setPhase c .serving with
    active := Function.update s.active label (some c)
    last := Function.update s.last label (some c) }

def markTornDown (s : State) (c : Nat) : State :=
  let t := s.setPhase c .ended
  match (s.conns c).label with
  | none => t
  | some label =>
    if s.active label = some c then
      { t.setConn c fun conn => { conn with teardownDone := true } with
        active := Function.update s.active label none }
    else t

end State

/-- A connection leaves its loop when the channel ends or its shutdown permit is there. -/
def step (s : State) : Event → Option State
  | .connect c => if (s.conns c).phase = .absent then some (s.setPhase c .reading) else none
  | .hello c clientId =>
    if (s.conns c).phase = .reading then some (s.lookup c clientId) else none
  | .notifyShutdown c =>
    match (s.conns c).phase with
    | .evicting old =>
      some ((s.setConn old fun conn => { conn with shutdown := true }).setPhase c (.awaiting old))
    | _ => none
  | .wake c =>
    match (s.conns c).phase with
    | .awaiting old =>
      if (s.conns old).teardownDone then
        some ((s.setConn old fun conn => { conn with teardownDone := false }).setPhase c
          .registering)
      else none
    | _ => none
  | .insert c =>
    match (s.conns c).phase, (s.conns c).label with
    | .registering, some label => some (s.register c label)
    | _, _ => none
  | .write c =>
    if (s.conns c).phase = .serving ∨ (s.conns c).phase = .leaving then
      some { s with writes := c :: s.writes }
    else none
  | .eof c =>
    if (s.conns c).phase = .reading ∨ (s.conns c).phase = .serving then
      some (s.setPhase c .leaving)
    else none
  | .shutDown c =>
    if (s.conns c).phase = .serving ∧ (s.conns c).shutdown = true then
      some (s.setPhase c .leaving)
    else none
  | .markTornDown c =>
    if (s.conns c).phase = .leaving then some (s.markTornDown c) else none

abbrev Step (s : State) (e : Event) (t : State) : Prop := step s e = some t

/-- What a step finds, and what it does. -/
inductive Effect (s : State) : Event → State → Prop where
  | connect {c : Nat} (hphase : (s.conns c).phase = .absent) :
      Effect s (.connect c) (s.setPhase c .reading)
  | hello {c : Nat} {clientId : String} (hphase : (s.conns c).phase = .reading) :
      Effect s (.hello c clientId) (s.lookup c clientId)
  | notifyShutdown {c old : Nat} (hphase : (s.conns c).phase = .evicting old) :
      Effect s (.notifyShutdown c)
        ((s.setConn old fun conn => { conn with shutdown := true }).setPhase c (.awaiting old))
  | wake {c old : Nat} (hphase : (s.conns c).phase = .awaiting old)
      (hdone : (s.conns old).teardownDone = true) :
      Effect s (.wake c)
        ((s.setConn old fun conn => { conn with teardownDone := false }).setPhase c .registering)
  | insert {c : Nat} {label : String} (hphase : (s.conns c).phase = .registering)
      (hlabel : (s.conns c).label = some label) : Effect s (.insert c) (s.register c label)
  | write {c : Nat} (hphase : (s.conns c).phase = .serving ∨ (s.conns c).phase = .leaving) :
      Effect s (.write c) { s with writes := c :: s.writes }
  | eof {c : Nat} (hphase : (s.conns c).phase = .reading ∨ (s.conns c).phase = .serving) :
      Effect s (.eof c) (s.setPhase c .leaving)
  | shutDown {c : Nat} (hphase : (s.conns c).phase = .serving)
      (hpermit : (s.conns c).shutdown = true) : Effect s (.shutDown c) (s.setPhase c .leaving)
  | markTornDown {c : Nat} (hphase : (s.conns c).phase = .leaving) :
      Effect s (.markTornDown c) (s.markTornDown c)

theorem effect_of_step {s t : State} {e : Event} (hs : Step s e t) : Effect s e t := by
  cases e with
  | notifyShutdown c =>
    simp only [Step, step] at hs
    split at hs
    next old hphase =>
      cases hs
      exact .notifyShutdown hphase
    · cases hs
  | wake c =>
    simp only [Step, step] at hs
    split at hs
    next old hphase =>
      obtain ⟨hdone, heq⟩ := Option.ite_none_right_eq_some.mp hs
      cases heq
      exact .wake hphase hdone
    · cases hs
  | insert c =>
    simp only [Step, step] at hs
    split at hs
    next label hphase hlabel =>
      cases hs
      exact .insert hphase hlabel
    · cases hs
  | shutDown c =>
    obtain ⟨hphase, heq⟩ := Option.ite_none_right_eq_some.mp hs
    cases heq
    exact .shutDown hphase.1 hphase.2
  | connect c =>
    obtain ⟨hphase, heq⟩ := Option.ite_none_right_eq_some.mp hs
    cases heq
    exact .connect hphase
  | hello c clientId =>
    obtain ⟨hphase, heq⟩ := Option.ite_none_right_eq_some.mp hs
    cases heq
    exact .hello hphase
  | write c =>
    obtain ⟨hphase, heq⟩ := Option.ite_none_right_eq_some.mp hs
    cases heq
    exact .write hphase
  | eof c =>
    obtain ⟨hphase, heq⟩ := Option.ite_none_right_eq_some.mp hs
    cases heq
    exact .eof hphase
  | markTornDown c =>
    obtain ⟨hphase, heq⟩ := Option.ite_none_right_eq_some.mp hs
    cases heq
    exact .markTornDown hphase

/-- `c` asked `old` to leave, or is about to, and has not been woken. -/
def Waits (s : State) (c old : Nat) : Prop :=
  (s.conns c).phase = .evicting old ∨ (s.conns c).phase = .awaiting old

/-! ## What always holds -/

variable {s t : State}

def Registered (phase : Phase) : Prop := phase = .serving ∨ phase = .leaving

structure Inv (s : State) : Prop where
  active : ∀ label c, s.active label = some c →
    (s.conns c).label = some label ∧ Registered (s.conns c).phase
  torn : ∀ c, (s.conns c).teardownDone = true → (s.conns c).phase = .ended
  waited : ∀ c old, Waits s c old → (s.conns c).label = (s.conns old).label ∧
    (Registered (s.conns old).phase ∨ (s.conns old).phase = .ended)
  named : ∀ c, (s.conns c).label = none → (s.conns c).phase = .absent ∨
    (s.conns c).phase = .reading ∨ (s.conns c).phase = .leaving ∨ (s.conns c).phase = .ended
  unnamed : ∀ c, (s.conns c).phase = .absent ∨ (s.conns c).phase = .reading →
    (s.conns c).label = none
  writers : ∀ c ∈ s.writes, Registered (s.conns c).phase ∨ (s.conns c).phase = .ended
  last : ∀ label c, s.last label = some c →
    (s.active label = some c ∧ Registered (s.conns c).phase) ∨ (s.conns c).phase = .ended

theorem inv_init : Inv init := by
  constructor <;> simp [init, Waits]

theorem setConn_conns (c d : Nat) (f : Conn → Conn) :
    (s.setConn c f).conns d = if d = c then f (s.conns c) else s.conns d := by
  simp [State.setConn, Function.update_apply]

theorem setPhase_conns (c d : Nat) (phase : Phase) :
    (s.setPhase c phase).conns d =
      if d = c then { s.conns c with phase := phase } else s.conns d :=
  setConn_conns c d _

/-- What `f` keeps of a connection is kept of all of them. -/
theorem setConn_keeps {α : Type} (get : Conn → α) {c : Nat} {f : Conn → Conn}
    (hf : ∀ conn, get (f conn) = get conn) (d : Nat) :
    get ((s.setConn c f).conns d) = get (s.conns d) := by
  rw [setConn_conns]
  split
  next heq => rw [heq, hf]
  next => rfl

theorem setConn_phase {c d : Nat} {f : Conn → Conn} (hf : ∀ conn, (f conn).phase = conn.phase) :
    ((s.setConn c f).conns d).phase = (s.conns d).phase := setConn_keeps Conn.phase hf d

theorem setConn_label {c d : Nat} {f : Conn → Conn} (hf : ∀ conn, (f conn).label = conn.label) :
    ((s.setConn c f).conns d).label = (s.conns d).label := setConn_keeps Conn.label hf d

theorem setConn_shutdown {c d : Nat} {f : Conn → Conn}
    (hf : ∀ conn, (f conn).shutdown = conn.shutdown) :
    ((s.setConn c f).conns d).shutdown = (s.conns d).shutdown := setConn_keeps Conn.shutdown hf d

theorem setConn_teardownDone {c d : Nat} {f : Conn → Conn}
    (hf : ∀ conn, (f conn).teardownDone = conn.teardownDone) :
    ((s.setConn c f).conns d).teardownDone = (s.conns d).teardownDone :=
  setConn_keeps Conn.teardownDone hf d

@[simp] theorem setPhase_label (c d : Nat) (phase : Phase) :
    ((s.setPhase c phase).conns d).label = (s.conns d).label := setConn_label fun _ => rfl

@[simp] theorem setPhase_teardownDone (c d : Nat) (phase : Phase) :
    ((s.setPhase c phase).conns d).teardownDone = (s.conns d).teardownDone :=
  setConn_teardownDone fun _ => rfl

@[simp] theorem setConn_active (c : Nat) (f : Conn → Conn) : (s.setConn c f).active = s.active :=
  rfl

@[simp] theorem setConn_last (c : Nat) (f : Conn → Conn) : (s.setConn c f).last = s.last := rfl

@[simp] theorem setConn_writes (c : Nat) (f : Conn → Conn) : (s.setConn c f).writes = s.writes :=
  rfl

@[simp] theorem setPhase_active (c : Nat) (phase : Phase) :
    (s.setPhase c phase).active = s.active := rfl

@[simp] theorem setPhase_last (c : Nat) (phase : Phase) : (s.setPhase c phase).last = s.last := rfl

@[simp] theorem setPhase_writes (c : Nat) (phase : Phase) :
    (s.setPhase c phase).writes = s.writes := rfl

/-- A connection starts reading, or leaves its loop. -/
theorem Inv.setPhase (h : Inv s) {c : Nat} {phase : Phase}
    (hmove : (s.conns c).phase = .absent ∧ phase = .reading ∨
      ((s.conns c).phase = .reading ∨ (s.conns c).phase = .serving) ∧ phase = .leaving) :
    Inv (s.setPhase c phase) := by
  obtain ⟨hactive, htorn, hwaited, hnamed, hunnamed, hwriters, hlast⟩ := h
  constructor <;> simp only [Waits, Registered, setPhase_conns, setPhase_active, setPhase_last,
    setPhase_writes] at * <;> grind

theorem Inv.lookup (h : Inv s) {c : Nat} (hphase : (s.conns c).phase = .reading)
    (clientId : String) : Inv (s.lookup c clientId) := by
  obtain ⟨hactive, htorn, hwaited, hnamed, hunnamed, hwriters, hlast⟩ := h
  unfold State.lookup
  constructor <;> simp only [Waits, Registered, setConn_conns, setConn_active, setConn_last,
    setConn_writes] at * <;> grind

/-- A waiter goes on, and the permits of the other one change. -/
theorem Inv.goOn (h : Inv s) {c old : Nat} (hwaits : Waits s c old) {f : Conn → Conn}
    {phase : Phase} (hphase : phase = .awaiting old ∨ phase = .registering)
    (hf : ∀ conn, (f conn).phase = conn.phase ∧ (f conn).label = conn.label ∧
      ((f conn).teardownDone = true → conn.teardownDone = true)) :
    Inv ((s.setConn old f).setPhase c phase) := by
  obtain ⟨hactive, htorn, hwaited, hnamed, hunnamed, hwriters, hlast⟩ := h
  constructor <;> simp only [Waits, Registered, setPhase_conns, setConn_conns, setConn_active,
    setConn_last, setConn_writes, setPhase_active, setPhase_last, setPhase_writes] at * <;> grind

theorem Inv.register (h : Inv s) {c : Nat} {label : String}
    (hphase : (s.conns c).phase = .registering) (hlabel : (s.conns c).label = some label) :
    Inv (s.register c label) := by
  have hself : (s.register c label).conns c = { s.conns c with phase := .serving } :=
    (setPhase_conns c c .serving).trans (if_pos rfl)
  have hother {d : Nat} (hd : d ≠ c) : (s.register c label).conns d = s.conns d :=
    (setPhase_conns c d .serving).trans (if_neg hd)
  -- `c` has no entry yet, has written nothing, and nobody waits for it.
  have hnew {d : Nat} (hd : Registered (s.conns d).phase ∨ (s.conns d).phase = .ended) :
      d ≠ c := by
    rintro rfl
    simp [hphase, Registered] at hd
  constructor
  · intro entry d hd
    by_cases heq : entry = label
    · subst heq
      obtain rfl : c = d := by simpa [State.register] using hd
      rw [hself]
      exact ⟨hlabel, .inl rfl⟩
    · have hold : s.active entry = some d := by simpa [State.register, heq] using hd
      have hregistered := (h.active entry d hold).2
      rw [hother (hnew (.inl hregistered))]
      exact h.active entry d hold
  · intro d hd
    by_cases hdc : d = c
    · subst hdc
      rw [hself] at hd
      cases (h.torn d hd).symm.trans hphase
    · rw [hother hdc] at hd ⊢
      exact h.torn d hd
  · intro d old hd
    have hdc : d ≠ c := by
      rintro rfl
      rw [Waits, hself] at hd
      rcases hd with heq | heq <;> cases heq
    rw [Waits, hother hdc] at hd
    obtain ⟨hsame, hold⟩ := h.waited d old hd
    rw [hother hdc, hother (hnew hold)]
    exact ⟨hsame, hold⟩
  · intro d hd
    by_cases hdc : d = c
    · subst hdc
      rw [hself] at hd
      cases hlabel.symm.trans hd
    · rw [hother hdc] at hd ⊢
      exact h.named d hd
  · intro d hd
    have hdc : d ≠ c := by
      rintro rfl
      rw [hself] at hd
      rcases hd with heq | heq <;> cases heq
    rw [hother hdc] at hd ⊢
    exact h.unnamed d hd
  · intro d hd
    have hold := h.writers d hd
    rw [hother (hnew hold)]
    exact hold
  · intro entry d hd
    by_cases heq : entry = label
    · subst heq
      obtain rfl : c = d := by simpa [State.register] using hd
      rw [hself]
      exact .inl ⟨by simp [State.register], .inl rfl⟩
    · have hold := h.last entry d (by simpa [State.register, heq] using hd)
      rw [hother (hnew (hold.imp_left And.right))]
      exact hold.imp_left fun hentry => ⟨by simpa [State.register, heq] using hentry.1, hentry.2⟩

/-- A connection ends that has no entry. -/
theorem Inv.ends (h : Inv s) {c : Nat} (hphase : (s.conns c).phase = .leaving)
    (hentry : ∀ label, s.active label ≠ some c) : Inv (s.setPhase c .ended) := by
  obtain ⟨hactive, htorn, hwaited, hnamed, hunnamed, hwriters, hlast⟩ := h
  constructor <;> simp only [Waits, Registered, setPhase_conns, setPhase_active, setPhase_last,
    setPhase_writes] at * <;> grind

theorem Inv.markTornDown (h : Inv s) {c : Nat} (hphase : (s.conns c).phase = .leaving) :
    Inv (s.markTornDown c) := by
  unfold State.markTornDown
  dsimp only
  split
  next hnone =>
    refine h.ends hphase fun label hactive => ?_
    cases hnone.symm.trans (h.active label c hactive).1
  next label hlabel =>
    split
    next hself =>
      obtain ⟨hactive, htorn, hwaited, hnamed, hunnamed, hwriters, hlast⟩ := h
      constructor <;> simp only [Waits, Registered, setPhase_conns, setConn_conns, setConn_last,
        setConn_writes, setPhase_last, setPhase_writes, Function.update_apply] at * <;> grind
    next hreplaced =>
      refine h.ends hphase fun other hactive => ?_
      cases hlabel.symm.trans (h.active other c hactive).1
      exact hreplaced hactive

theorem inv_step {e : Event} (h : Inv s) (hs : Step s e t) : Inv t := by
  cases effect_of_step hs with
  | connect hphase => exact h.setPhase (.inl ⟨hphase, rfl⟩)
  | hello hphase => exact h.lookup hphase _
  | notifyShutdown hphase => exact h.goOn (.inl hphase) (.inl rfl) fun conn => ⟨rfl, rfl, id⟩
  | wake hphase => exact h.goOn (.inr hphase) (.inr rfl) fun conn => ⟨rfl, rfl, nofun⟩
  | insert hphase hlabel => exact h.register hphase hlabel
  | @write c hphase =>
    refine { h with writers := fun d hd => ?_ }
    rcases List.mem_cons.mp hd with rfl | hold
    · exact .inl hphase
    · exact h.writers d hold
  | eof hphase => exact h.setPhase (.inr ⟨hphase, rfl⟩)
  | shutDown hphase => exact h.setPhase (.inr ⟨.inr hphase, rfl⟩)
  | markTornDown hphase => exact h.markTornDown hphase

/-- How a connection can go on. -/
def Moves (s : State) (c : Nat) (phase : Phase) : Prop :=
  match (s.conns c).phase with
  | .absent => phase = .reading
  | .reading => (∃ old, phase = .evicting old) ∨ phase = .registering ∨ phase = .leaving
  | .evicting old => phase = .awaiting old
  | .awaiting old => phase = .registering ∧ (s.conns old).teardownDone = true
  | .registering => phase = .serving
  | .serving => phase = .leaving
  | .leaving => phase = .ended
  | .ended => False

theorem markTornDown_phase (c d : Nat) : ((s.markTornDown c).conns d).phase =
    if d = c then .ended else (s.conns d).phase := by
  unfold State.markTornDown
  dsimp only
  split
  · simp only [setPhase_conns]
    split <;> rfl
  · split
    · simp only [setConn_conns, setPhase_conns]
      grind
    · simp only [setPhase_conns]
      split <;> rfl

theorem phase_step {e : Event} (hs : Step s e t) (c : Nat) :
    (t.conns c).phase = (s.conns c).phase ∨ Moves s c (t.conns c).phase := by
  unfold Moves
  cases effect_of_step hs with
  | connect hphase | eof hphase | shutDown hphase =>
    simp only [setPhase_conns]
    grind
  | hello hphase =>
    simp only [State.lookup, setConn_conns]
    grind
  | write => exact .inl rfl
  | notifyShutdown hphase | wake hphase hdone =>
    simp only [setPhase_conns, setConn_conns]
    grind
  | insert hphase =>
    simp only [State.register, setPhase_conns]
    grind
  | markTornDown hphase =>
    rw [markTornDown_phase]
    grind

theorem ended_step {e : Event} {c : Nat} (hs : Step s e t) (h : (s.conns c).phase = .ended) :
    (t.conns c).phase = .ended := by
  rcases phase_step hs c with hsame | hmoves
  · rw [hsame, h]
  · simp [Moves, h] at hmoves

/-- Waiting ends by the done signal alone. -/
theorem waits_step {e : Event} {c old : Nat} (hs : Step s e t) (h : Waits s c old) :
    Waits t c old ∨ (s.conns old).teardownDone = true := by
  rcases phase_step hs c with hsame | hmoves
  · unfold Waits at h ⊢
    exact .inl (hsame ▸ h)
  · rcases h with hevicting | hawaiting
    · simp only [Moves, hevicting] at hmoves
      exact .inl (.inr hmoves)
    · simp only [Moves, hawaiting] at hmoves
      exact .inr hmoves.2

/-! ## A waiter whose entry is still there is woken -/

/-- Steps that handlers take without anything arriving from outside. -/
def Event.Internal : Event → Prop
  | .notifyShutdown _ | .wake _ | .insert _ | .shutDown _ | .markTornDown _ => True
  | _ => False

/-- Handlers alone bring `c` to its insertion, and only `c` and `old` change. -/
def Wakes (s : State) (c old : Nat) : Prop :=
  ∃ es u, Run Step s es u ∧ (∀ e ∈ es, e.Internal) ∧ (u.conns c).phase = .registering ∧
    (u.conns c).label = (s.conns c).label ∧ u.writes = s.writes ∧
    ∀ d, d ≠ c → d ≠ old → u.conns d = s.conns d

theorem Wakes.of_step {c old : Nat} {e : Event} (hs : Step s e t) (he : e.Internal)
    (hlabel : (t.conns c).label = (s.conns c).label) (hwrites : t.writes = s.writes)
    (hothers : ∀ d, d ≠ c → d ≠ old → t.conns d = s.conns d) (h : Wakes t c old) :
    Wakes s c old := by
  obtain ⟨es, u, run, hes, hphase, hlabel', hwrites', hothers'⟩ := h
  refine ⟨e :: es, u, .cons hs run, List.forall_mem_cons.mpr ⟨he, hes⟩, hphase,
    hlabel'.trans hlabel, hwrites'.trans hwrites, fun d hc hold => ?_⟩
  rw [hothers' d hc hold, hothers d hc hold]

theorem wakes_of_torn {c old : Nat} (hphase : (s.conns c).phase = .awaiting old)
    (hdone : (s.conns old).teardownDone = true) : Wakes s c old := by
  refine ⟨[.wake c], (s.setConn old fun conn => { conn with teardownDone := false }).setPhase c
    .registering, .cons (by simp [Step, step, hphase, hdone]) (.nil _), ?_⟩
  simp only [setPhase_conns, setConn_conns, setPhase_writes, setConn_writes]
  grind [Event.Internal]

theorem wakes_of_leaving {c old : Nat} {label : String} (h : Inv s)
    (hphase : (s.conns c).phase = .awaiting old) (hactive : s.active label = some old)
    (hleaving : (s.conns old).phase = .leaving) : Wakes s c old := by
  have hlabel := (h.active label old hactive).1
  have hne : c ≠ old := by
    rintro rfl
    simp [hphase] at hleaving
  have hs : Step s (.markTornDown old) (s.markTornDown old) := by simp [Step, step, hleaving]
  have hmark : s.markTornDown old = { (s.setPhase old .ended).setConn old fun conn =>
      { conn with teardownDone := true } with active := Function.update s.active label none } := by
    simp [State.markTornDown, hlabel, hactive]
  rw [hmark] at hs
  apply Wakes.of_step hs trivial
  · simp [setConn_conns, setPhase_conns, hne]
  · rfl
  · intro d _ hold
    simp [setConn_conns, setPhase_conns, hold]
  · apply wakes_of_torn
    · simp [setConn_conns, setPhase_conns, hne, hphase]
    · simp [setConn_conns]

theorem wakes_of_awaiting {c old : Nat} {label : String} (h : Inv s)
    (hphase : (s.conns c).phase = .awaiting old) (hactive : s.active label = some old)
    (hshutdown : (s.conns old).phase = .serving → (s.conns old).shutdown = true) :
    Wakes s c old := by
  rcases (h.active label old hactive).2 with hserving | hleaving
  · have hne : c ≠ old := by
      rintro rfl
      simp [hphase] at hserving
    have hs : Step s (.shutDown old) (s.setPhase old .leaving) := by
      simp [Step, step, hserving, hshutdown hserving]
    apply Wakes.of_step hs trivial
    · simp [setPhase_conns, hne]
    · rfl
    · intro d _ hold
      simp [setPhase_conns, hold]
    · apply wakes_of_leaving (inv_step h hs) _ hactive
      · simp [setPhase_conns]
      · simp [setPhase_conns, hne, hphase]
  · exact wakes_of_leaving h hphase hactive hleaving

theorem wakes_of_evicting {c old : Nat} {label : String} (h : Inv s)
    (hphase : (s.conns c).phase = .evicting old) (hactive : s.active label = some old) :
    Wakes s c old := by
  have hne : c ≠ old := by
    rintro rfl
    have hregistered := (h.active label c hactive).2
    simp [Registered, hphase] at hregistered
  have hs : Step s (.notifyShutdown c)
      ((s.setConn old fun conn => { conn with shutdown := true }).setPhase c (.awaiting old)) := by
    simp [Step, step, hphase]
  apply Wakes.of_step hs trivial
  · simp [setConn_conns, setPhase_conns, hne]
  · rfl
  · intro d hc hold
    simp [setConn_conns, setPhase_conns, hc, hold]
  · apply wakes_of_awaiting (inv_step h hs) _ hactive
    · simp [setConn_conns, setPhase_conns, hne.symm]
    · simp [setPhase_conns]

/-! ## The writes of an old connection and of a new one -/

/-- In the log, newest first, nothing of `c` comes after something of `d`. -/
def Before (c d : Nat) (writes : List Nat) : Prop :=
  ∀ later earlier, writes = later ++ d :: earlier → c ∉ later

/-- `c` has torn down, or `d` waits for that and has written nothing. -/
def Follows (s : State) (c d : Nat) : Prop :=
  (s.conns c).phase = .ended ∨ Waits s d c ∧ d ∉ s.writes

theorem before_of_not_mem {c d : Nat} {writes : List Nat} (h : d ∉ writes) :
    Before c d writes := by
  rintro later earlier rfl
  simp at h

theorem Before.cons {c d x : Nat} {writes : List Nat} (h : Before c d writes) (hx : x ≠ c) :
    Before c d (x :: writes) := by
  intro later earlier heq
  cases later with
  | nil => simp
  | cons y later =>
    rw [List.cons_append, List.cons.injEq] at heq
    rw [← heq.1, List.mem_cons, not_or]
    exact ⟨hx.symm, h later earlier heq.2⟩

theorem markTornDown_writes (c : Nat) : (s.markTornDown c).writes = s.writes := by
  unfold State.markTornDown
  dsimp only
  split
  · rfl
  · split <;> rfl

theorem writes_step {e : Event} (hs : Step s e t) :
    t.writes = s.writes ∨ ∃ c, Registered (s.conns c).phase ∧ t.conns = s.conns ∧
      t.writes = c :: s.writes := by
  cases effect_of_step hs with
  | write hphase => exact .inr ⟨_, hphase, rfl, rfl⟩
  | markTornDown => exact .inl (markTornDown_writes _)
  | _ => exact .inl rfl

theorem follows_step {e : Event} {c d : Nat} (hI : Inv s) (hs : Step s e t)
    (h : Follows s c d) : Follows t c d := by
  rcases h with hended | ⟨hwaits, hnone⟩
  · exact .inl (ended_step hs hended)
  · rcases waits_step hs hwaits with hstill | hdone
    · refine .inr ⟨hstill, fun hmem => ?_⟩
      rcases (inv_step hI hs).writers d hmem with hregistered | hended
      · rcases hstill with h | h <;> simp [Registered, h] at hregistered
      · rcases hstill with h | h <;> simp [h] at hended
    · exact .inl (ended_step hs (hI.torn c hdone))

theorem before_step {e : Event} {c d : Nat} (hs : Step s e t)
    (h : Follows s c d) (hbefore : Before c d s.writes) : Before c d t.writes := by
  rcases writes_step hs with hsame | ⟨x, hregistered, -, hlog⟩
  · rwa [hsame]
  · rw [hlog]
    by_cases hx : x = c
    · subst hx
      rcases h with hended | ⟨hwaits, hnone⟩
      · simp [Registered, hended] at hregistered
      · apply before_of_not_mem
        rw [List.mem_cons, not_or]
        refine ⟨?_, hnone⟩
        rintro rfl
        rcases hwaits with h | h <;> simp [Registered, h] at hregistered
    · exact hbefore.cons hx

theorem before_run {c d : Nat} {es : List Event} (run : Run Step s es t) (hI : Inv s)
    (h : Follows s c d) (hbefore : Before c d s.writes) : Before c d t.writes := by
  have hall := run.invariant (I := fun s => Inv s ∧ Follows s c d ∧ Before c d s.writes)
    (fun h hs => ⟨inv_step h.1 hs, follows_step h.1 hs h.2.1, before_step hs h.2.1 h.2.2⟩)
    ⟨hI, h, hbefore⟩
  exact hall.2.2

theorem step_write {c : Nat} (h : Registered (s.conns c).phase) :
    Step s (.write c) { s with writes := c :: s.writes } := if_pos h

/-- Once `d` registers while `c` still serves, `d` and then `c` may write. -/
theorem overtaken {c d : Nat} (hI : Inv s) (hne : c ≠ d)
    (hd : (s.conns d).phase = .registering) (hc : Registered (s.conns c).phase) :
    ∃ es t, Run Step s es t ∧ ¬ Before c d t.writes := by
  obtain ⟨label, hlabel⟩ : ∃ label, (s.conns d).label = some label := by
    apply Option.ne_none_iff_exists'.mp
    intro hnone
    rcases hI.named d hnone with h | h | h | h <;> simp [hd] at h
  have hinsert : Step s (.insert d) (s.register d label) := by simp [Step, step, hd, hlabel]
  have hconns (e : Nat) : ((s.register d label).conns e).phase =
      if e = d then .serving else (s.conns e).phase := by
    simp only [State.register, setPhase_conns]
    split <;> rfl
  have hfirst : Registered ((s.register d label).conns d).phase := .inl (by simp [hconns])
  have hsecond : Registered ((s.register d label).conns c).phase := by
    simpa [hconns, hne] using hc
  refine ⟨_, _, .cons hinsert (.cons (step_write hfirst) (.cons (step_write hsecond) (.nil _))),
    fun hbefore => ?_⟩
  exact hbefore [c] s.writes rfl List.mem_cons_self

/-- When `d` says hello, all writes of an earlier registered connection `c` of the same client come
first, whatever follows, exactly when `c` is still the registered one or has torn down. -/
theorem old_writes_first_iff {es : List Event} {c d : Nat} {clientId : String}
    (run : Run Step init es s) (hello : Step s (.hello d clientId) t)
    (hlabel : (s.conns c).label = some clientId)
    (hregistered : Registered (s.conns c).phase ∨ (s.conns c).phase = .ended) :
    (∀ fs u, Run Step t fs u → Before c d u.writes) ↔
      (s.active clientId = some c ∨ (s.conns c).phase = .ended) := by
  have hI := run.invariant (I := Inv) inv_step inv_init
  have hnext := inv_step hI hello
  simp only [Step, step, Option.ite_none_right_eq_some, Option.some.injEq] at hello
  obtain ⟨hreading, rfl⟩ := hello
  have hnone : d ∉ (s.lookup d clientId).writes := by
    intro hmem
    rcases hI.writers d hmem with h | h <;> simp [Registered, hreading] at h
  have hne : c ≠ d := by
    rintro rfl
    simp [hI.unnamed c (.inr hreading)] at hlabel
  constructor
  · intro hall
    by_contra hnot
    rw [not_or] at hnot
    have hc := hregistered.resolve_right hnot.2
    suffices h : ∃ fs u, Run Step (s.lookup d clientId) fs u ∧ ¬ Before c d u.writes by
      obtain ⟨fs, u, after, hbad⟩ := h
      exact hbad (hall fs u after)
    cases hactive : s.active clientId with
    | none =>
      apply overtaken hnext hne
      · simp [State.lookup, setConn_conns, hactive]
      · simpa [State.lookup, setConn_conns, hne] using hc
    | some old =>
      have hold : c ≠ old := by
        rintro rfl
        exact hnot.1 hactive
      obtain ⟨es, u, waking, -, hphase, -, -, hothers⟩ :=
        wakes_of_evicting (c := d) hnext (by simp [State.lookup, setConn_conns, hactive]) hactive
      have hsame := hothers c hne hold
      obtain ⟨fs, v, after, hbad⟩ := overtaken (waking.invariant (I := Inv) inv_step hnext) hne hphase
        (by simpa [hsame, State.lookup, setConn_conns, hne] using hc)
      exact ⟨es ++ fs, v, waking.append after, hbad⟩
  · intro hforce fs u after
    apply before_run after hnext _ (before_of_not_mem hnone)
    rcases hforce with hactive | hended
    · refine .inr ⟨.inl ?_, hnone⟩
      simp [State.lookup, setConn_conns, hactive]
    · refine .inl ?_
      simp [State.lookup, setConn_conns, hne, hended]

/-- Two connections of one client register at once, and the second one takes the entry. -/
def twoRegistered : List Event :=
  [.connect 0, .connect 1, .hello 0 "a", .hello 1 "a", .insert 0, .insert 1, .connect 2]

def thirdTakesOver : List Event :=
  [.notifyShutdown 2, .shutDown 1, .markTornDown 1, .wake 2, .insert 2, .write 2, .write 0]

/-- The first one is not asked to leave, and writes after the third. -/
theorem overwritten_writes_later :
    ∃ s t u, Run Step init twoRegistered s ∧ Step s (.hello 2 "a") t ∧ Run Step t thirdTakesOver u ∧
      (s.conns 0).label = some "a" ∧ (s.conns 0).phase = .serving ∧ ¬ Before 0 2 u.writes := by
  have before : Run Step init twoRegistered _ := Run.of_exec (fun h => h) rfl
  refine ⟨_, _, _, before, rfl, Run.of_exec (fun h => h) rfl, rfl, rfl, fun hbefore => ?_⟩
  exact hbefore [0] [] rfl List.mem_cons_self

/-- The registered connection writes first. -/
theorem registered_writes_first :
    ∃ s t, Run Step init [.connect 0, .hello 0 "a", .insert 0, .connect 1] s ∧
      Step s (.hello 1 "a") t ∧ ∀ fs u, Run Step t fs u → Before 0 1 u.writes := by
  have run : Run Step init [.connect 0, .hello 0 "a", .insert 0, .connect 1] _ :=
    Run.of_exec (fun h => h) rfl
  exact ⟨_, _, run, rfl, (old_writes_first_iff run rfl rfl (.inl (.inl rfl))).mpr (.inl rfl)⟩

end Climon.Remote.Registry
