import Climon.Remote.Registry

namespace Climon.Remote.Reconnects

open Climon.Lib.Transition Climon.Remote.Registry

/-!
# Concurrent reconnects

A done signal wakes one waiter, and a registration that is overwritten gives none. Where no two
connections wait for the same one, and nobody loses an entry that still matters, all goes well.
-/

/-- Nobody else waits for the connection a hello finds, and an insertion takes the entry at most of
a connection that is on its way out and that nobody waits for. -/
def Lone (s : State) : Event → Prop
  | .hello _ clientId => ∀ old, s.active clientId = some old → ∀ c, ¬ Waits s c old
  | .insert c => ∀ label old, (s.conns c).label = some label → s.active label = some old →
    (s.conns old).phase = .leaving ∧ ∀ d, ¬ Waits s d old
  | _ => True

structure Orderly (s : State) : Prop where
  serving : ∀ c label, (s.conns c).phase = .serving → (s.conns c).label = some label →
    s.active label = some c
  entry : ∀ c old label, Waits s c old → (s.conns c).label = some label →
    s.active label = some old ∨ (s.conns old).teardownDone = true
  alone : ∀ c d old, Waits s c old → Waits s d old → c = d
  asked : ∀ c old, (s.conns c).phase = .awaiting old → (s.conns old).phase = .serving →
    (s.conns old).shutdown = true

variable {s t : State}

theorem orderly_init : Orderly init := by
  constructor <;> simp [init, Waits]

/-- A connection leaves its loop, or has no part in evictions yet. -/
theorem Orderly.setPhase (h : Orderly s) {c : Nat} {phase : Phase} (hserving : phase ≠ .serving)
    (hevicting : ∀ old, phase ≠ .evicting old) (hawaiting : ∀ old, phase ≠ .awaiting old) :
    Orderly (s.setPhase c phase) := by
  have hwaits {d old : Nat} (hd : Waits (s.setPhase c phase) d old) : d ≠ c ∧ Waits s d old := by
    by_cases hdc : d = c
    · subst hdc
      simp [Waits, setPhase_conns, hevicting, hawaiting] at hd
    · simp only [Waits, setPhase_conns, if_neg hdc] at hd
      exact ⟨hdc, hd⟩
  have hactive {d : Nat} (hd : ((s.setPhase c phase).conns d).phase = .serving) :
      (s.setPhase c phase).conns d = s.conns d := by
    rw [setPhase_conns]
    refine if_neg fun hdc => hserving ?_
    simpa [setPhase_conns, hdc] using hd
  constructor
  · intro d label hphase hlabel
    rw [hactive hphase] at hlabel
    exact h.serving d label (hactive hphase ▸ hphase) hlabel
  · intro d old label hd hlabel
    obtain ⟨hdc, hd⟩ := hwaits hd
    rw [setPhase_conns, if_neg hdc] at hlabel
    rw [setPhase_teardownDone]
    exact h.entry d old label hd hlabel
  · intro d e old hd he
    exact h.alone d e old (hwaits hd).2 (hwaits he).2
  · intro d old hphase hold
    have hdc : d ≠ c := (hwaits (.inr hphase)).1
    rw [setPhase_conns, if_neg hdc] at hphase
    rw [hactive hold]
    exact h.asked d old hphase (hactive hold ▸ hold)

theorem lookup_phase (c : Nat) (clientId : String) :
    ((s.lookup c clientId).conns c).phase = match s.active clientId with
      | some old => .evicting old
      | none => .registering := by
  cases hfound : s.active clientId <;> simp [State.lookup, setConn_conns, hfound]

theorem lookup_other {c d : Nat} (clientId : String) (hdc : d ≠ c) :
    (s.lookup c clientId).conns d = s.conns d := by
  rw [State.lookup, setConn_conns, if_neg hdc]

/-- The connection that says hello waits for the one it finds. -/
theorem lookup_teardownDone (c d : Nat) (clientId : String) :
    ((s.lookup c clientId).conns d).teardownDone = (s.conns d).teardownDone := by
  unfold State.lookup
  exact setConn_teardownDone fun _ => rfl

theorem lookup_waits {c d old : Nat} {clientId : String} (hd : Waits (s.lookup c clientId) d old) :
    d ≠ c ∧ Waits s d old ∨ d = c ∧ s.active clientId = some old := by
  by_cases hdc : d = c
  · subst hdc
    rw [Waits, lookup_phase] at hd
    refine .inr ⟨rfl, ?_⟩
    split at hd
    next found hfound =>
      rcases hd with heq | heq
      · rw [hfound, Phase.evicting.inj heq]
      · cases heq
    next => rcases hd with heq | heq <;> cases heq
  · rw [Waits, lookup_other clientId hdc] at hd
    exact .inl ⟨hdc, hd⟩

theorem Orderly.lookup (h : Orderly s) {c : Nat} {clientId : String}
    (hlone : ∀ old, s.active clientId = some old → ∀ d, ¬ Waits s d old) :
    Orderly (s.lookup c clientId) := by
  have hserving {d : Nat} (hd : ((s.lookup c clientId).conns d).phase = .serving) : d ≠ c := by
    rintro rfl
    rw [lookup_phase] at hd
    split at hd <;> cases hd
  constructor
  · intro d label hd hlabel
    have hdc := hserving hd
    rw [lookup_other clientId hdc] at hd hlabel
    exact h.serving d label hd hlabel
  · intro d old label hd hlabel
    rw [lookup_teardownDone]
    rcases lookup_waits hd with ⟨hdc, hwaiting⟩ | ⟨rfl, hfound⟩
    · rw [lookup_other clientId hdc] at hlabel
      exact h.entry d old label hwaiting hlabel
    · -- The entry is the one it has just found.
      have heq : clientId = label := by simpa [State.lookup, setConn_conns] using hlabel
      exact .inl (heq ▸ hfound)
  · intro d e old hd he
    rcases lookup_waits hd with ⟨-, hd'⟩ | ⟨hdc, hfound⟩ <;>
      rcases lookup_waits he with ⟨-, he'⟩ | ⟨hec, hfound'⟩
    · exact h.alone d e old hd' he'
    · exact absurd hd' (hlone old hfound' d)
    · exact absurd he' (hlone old hfound e)
    · rw [hdc, hec]
  · intro d old hd hold
    have hdc : d ≠ c := by
      rintro rfl
      rw [lookup_phase] at hd
      split at hd <;> cases hd
    have hoc := hserving hold
    rw [lookup_other clientId hdc] at hd
    rw [lookup_other clientId hoc] at hold ⊢
    exact h.asked d old hd hold

/-- A waiter goes on, and a permit of the other one changes. -/
theorem waits_goOn {c old d o : Nat} {f : Conn → Conn} {phase : Phase}
    (hf : ∀ conn, (f conn).phase = conn.phase)
    (hd : Waits ((s.setConn old f).setPhase c phase) d o) :
    d ≠ c ∧ Waits s d o ∨ d = c ∧ (phase = .evicting o ∨ phase = .awaiting o) := by
  by_cases hdc : d = c
  · subst hdc
    rw [Waits, setPhase_conns, if_pos rfl] at hd
    exact .inr ⟨rfl, hd⟩
  · rw [Waits, setPhase_conns, if_neg hdc, setConn_phase hf] at hd
    exact .inl ⟨hdc, hd⟩

theorem Orderly.notify (h : Orderly s) {c old : Nat} (hphase : (s.conns c).phase = .evicting old)
    {f : Conn → Conn} (hmoves : ∀ conn, (f conn).phase = conn.phase)
    (hnames : ∀ conn, (f conn).label = conn.label)
    (hsignals : ∀ conn, (f conn).teardownDone = conn.teardownDone)
    (hasks : ∀ conn, (f conn).shutdown = true) :
    Orderly ((s.setConn old f).setPhase c (.awaiting old)) := by
  have hwaits {d o : Nat} (hd : Waits ((s.setConn old f).setPhase c (.awaiting old)) d o) :
      Waits s d o := by
    rcases waits_goOn hmoves hd with ⟨-, hd⟩ | ⟨rfl, heq | heq⟩
    · exact hd
    · cases heq
    · cases heq
      exact .inl hphase
  constructor
  · intro d label hd hlabel
    have hdc : d ≠ c := by
      rintro rfl
      simp [setPhase_conns] at hd
    rw [setPhase_conns, if_neg hdc, setConn_phase hmoves] at hd
    rw [setPhase_label, setConn_label hnames] at hlabel
    exact h.serving d label hd hlabel
  · intro d o label hd hlabel
    rw [setPhase_label, setConn_label hnames] at hlabel
    rw [setPhase_teardownDone, setConn_teardownDone hsignals]
    exact h.entry d o label (hwaits hd) hlabel
  · intro d e o hd he
    exact h.alone d e o (hwaits hd) (hwaits he)
  · intro d o hd ho
    have hoc : o ≠ c := by
      rintro rfl
      simp [setPhase_conns] at ho
    rw [setPhase_conns, if_neg hoc, setConn_phase hmoves] at ho
    rw [setPhase_conns, if_neg hoc, setConn_conns]
    split
    next => exact hasks _
    next hne =>
      have hdc : d ≠ c := by
        rintro rfl
        rw [setPhase_conns, if_pos rfl] at hd
        exact hne (Phase.awaiting.inj hd).symm
      rw [setPhase_conns, if_neg hdc, setConn_phase hmoves] at hd
      exact h.asked d o hd ho

theorem Orderly.wake (h : Orderly s) {c old : Nat} (hphase : (s.conns c).phase = .awaiting old)
    {f : Conn → Conn} (hmoves : ∀ conn, (f conn).phase = conn.phase)
    (hnames : ∀ conn, (f conn).label = conn.label)
    (hasks : ∀ conn, (f conn).shutdown = conn.shutdown) :
    Orderly ((s.setConn old f).setPhase c .registering) := by
  have hwaits {d o : Nat} (hd : Waits ((s.setConn old f).setPhase c .registering) d o) :
      d ≠ c ∧ Waits s d o := by
    rcases waits_goOn hmoves hd with hd | ⟨-, heq | heq⟩
    · exact hd
    · cases heq
    · cases heq
  have hserving {d : Nat}
      (hd : (((s.setConn old f).setPhase c .registering).conns d).phase = .serving) :
      d ≠ c ∧ (s.conns d).phase = .serving := by
    have hdc : d ≠ c := by
      rintro rfl
      simp [setPhase_conns] at hd
    rw [setPhase_conns, if_neg hdc, setConn_phase hmoves] at hd
    exact ⟨hdc, hd⟩
  constructor
  · intro d label hd hlabel
    rw [setPhase_label, setConn_label hnames] at hlabel
    exact h.serving d label (hserving hd).2 hlabel
  · intro d o label hd hlabel
    obtain ⟨hdc, hwaiting⟩ := hwaits hd
    rw [setPhase_label, setConn_label hnames] at hlabel
    -- The signal that was taken was meant for no other waiter.
    have hold : o ≠ old := by
      rintro rfl
      exact hdc (h.alone d c o hwaiting (.inr hphase))
    rw [setPhase_teardownDone, setConn_conns, if_neg hold]
    exact h.entry d o label hwaiting hlabel
  · intro d e o hd he
    exact h.alone d e o (hwaits hd).2 (hwaits he).2
  · intro d o hd ho
    obtain ⟨hdc, -⟩ := hwaits (.inr hd)
    obtain ⟨hoc, ho⟩ := hserving ho
    rw [setPhase_conns, if_neg hdc, setConn_phase hmoves] at hd
    rw [setPhase_conns, if_neg hoc, setConn_shutdown hasks]
    exact h.asked d o hd ho

theorem Orderly.register (h : Orderly s) (hI : Inv s) {c : Nat} {label : String}
    (hphase : (s.conns c).phase = .registering) (hlabel : (s.conns c).label = some label)
    (hlone : ∀ old, s.active label = some old →
      (s.conns old).phase = .leaving ∧ ∀ d, ¬ Waits s d old) : Orderly (s.register c label) := by
  have hconns (d : Nat) : (s.register c label).conns d =
      if d = c then { s.conns c with phase := .serving } else s.conns d := setPhase_conns c d _
  have hactive (name : String) : (s.register c label).active name =
      if name = label then some c else s.active name := Function.update_apply ..
  have hwaits {d o : Nat} (hd : Waits (s.register c label) d o) : d ≠ c ∧ Waits s d o := by
    by_cases hdc : d = c
    · simp [Waits, hconns, hdc] at hd
    · rw [Waits, hconns, if_neg hdc] at hd
      exact ⟨hdc, hd⟩
  constructor
  · intro d name hd hname
    rw [hactive]
    by_cases hdc : d = c
    · subst hdc
      rw [hconns, if_pos rfl] at hname
      rw [if_pos (Option.some.inj (hname.symm.trans hlabel))]
    · rw [hconns, if_neg hdc] at hd hname
      have hentry := h.serving d name hd hname
      have hne : name ≠ label := by
        rintro rfl
        rw [(hlone d hentry).1] at hd
        cases hd
      rw [if_neg hne, hentry]
  · intro d o name hd hname
    obtain ⟨hdc, hwaiting⟩ := hwaits hd
    rw [hconns, if_neg hdc] at hname
    refine (h.entry d o name hwaiting hname).imp (fun hentry => ?_) fun hdone => ?_
    · have hne : name ≠ label := by
        rintro rfl
        exact (hlone o hentry).2 d hwaiting
      rw [hactive, if_neg hne, hentry]
    · rw [hconns]
      split
      next heq => rw [← heq, hdone]
      next => exact hdone
  · intro d e o hd he
    exact h.alone d e o (hwaits hd).2 (hwaits he).2
  · intro d o hd ho
    obtain ⟨hdc, hwaiting⟩ := hwaits (.inr hd)
    -- Nobody waits for a connection that has yet to register.
    have hoc : o ≠ c := by
      rintro rfl
      have hregistered := (hI.waited d o hwaiting).2
      simp [Registered, hphase] at hregistered
    rw [hconns, if_neg hdc] at hd
    rw [hconns, if_neg hoc] at ho ⊢
    exact h.asked d o hd ho

/-- The entry of the connection goes, and its done signal is there. -/
theorem Orderly.giveUp (h : Orderly s) {c : Nat} {label : String}
    (hphase : (s.conns c).phase = .leaving) (hactive : s.active label = some c) :
    Orderly { (s.setPhase c .ended).setConn c fun conn => { conn with teardownDone := true } with
      active := Function.update s.active label none } := by
  have hconns (d : Nat) : (State.conns { (s.setPhase c .ended).setConn c fun conn =>
      { conn with teardownDone := true } with active := Function.update s.active label none }) d =
      if d = c then { s.conns c with phase := .ended, teardownDone := true } else s.conns d := by
    simp only [setConn_conns, setPhase_conns, if_pos]
    split <;> rfl
  generalize hstate : ({ (s.setPhase c .ended).setConn c fun conn =>
      { conn with teardownDone := true } with active := Function.update s.active label none } :
        State) = t at hconns
  have hentries (name : String) : t.active name = if name = label then none else s.active name := by
    rw [← hstate]
    exact Function.update_apply ..
  have hwaits {d o : Nat} (hd : Waits t d o) : d ≠ c ∧ Waits s d o := by
    by_cases hdc : d = c
    · simp [Waits, hconns, hdc] at hd
    · rw [Waits, hconns, if_neg hdc] at hd
      exact ⟨hdc, hd⟩
  have hserving {d : Nat} (hd : (t.conns d).phase = .serving) : d ≠ c := by
    rintro rfl
    simp [hconns] at hd
  constructor
  · intro d name hd hname
    have hdc := hserving hd
    rw [hconns, if_neg hdc] at hd hname
    have hentry := h.serving d name hd hname
    have hne : name ≠ label := by
      rintro rfl
      exact hdc (Option.some.inj (hentry.symm.trans hactive))
    rw [hentries, if_neg hne, hentry]
  · intro d o name hd hname
    obtain ⟨hdc, hd⟩ := hwaits hd
    rw [hconns, if_neg hdc] at hname
    by_cases hoc : o = c
    · rw [hconns, if_pos hoc]
      exact .inr rfl
    · rw [hconns, if_neg hoc]
      refine (h.entry d o name hd hname).imp_left fun hentry => ?_
      have hne : name ≠ label := by
        rintro rfl
        exact hoc (Option.some.inj (hentry.symm.trans hactive))
      rw [hentries, if_neg hne, hentry]
  · intro d e o hd he
    exact h.alone d e o (hwaits hd).2 (hwaits he).2
  · intro d o hd ho
    obtain ⟨hdc, -⟩ := hwaits (.inr hd)
    have hoc := hserving ho
    rw [hconns, if_neg hdc] at hd
    rw [hconns, if_neg hoc] at ho ⊢
    exact h.asked d o hd ho

theorem Orderly.markTornDown (h : Orderly s) {c : Nat} (hphase : (s.conns c).phase = .leaving) :
    Orderly (s.markTornDown c) := by
  unfold State.markTornDown
  dsimp only
  split
  · exact h.setPhase nofun nofun nofun
  next label _ =>
    split
    next hactive => exact h.giveUp hphase hactive
    next => exact h.setPhase nofun nofun nofun

theorem orderly_step {e : Event} (hI : Inv s) (h : Orderly s) (hs : Guarded Lone Step s e t) :
    Orderly t := by
  obtain ⟨hlone, hs⟩ := hs
  cases effect_of_step hs with
  | connect | eof | shutDown => exact h.setPhase nofun nofun nofun
  | hello => exact h.lookup hlone
  | notifyShutdown hphase =>
    exact h.notify hphase (fun _ => rfl) (fun _ => rfl) (fun _ => rfl) fun _ => rfl
  | wake hphase => exact h.wake hphase (fun _ => rfl) (fun _ => rfl) fun _ => rfl
  | insert hphase hlabel => exact h.register hI hphase hlabel fun old => hlone _ old hlabel
  | write => exact ⟨h.serving, h.entry, h.alone, h.asked⟩
  | markTornDown hphase => exact h.markTornDown hphase

/-! ## No connection is stuck -/

/-- A done signal that is there already is found when the wait begins. -/
theorem wakes_of_done {c old : Nat} (hI : Inv s) (hwaits : Waits s c old)
    (hdone : (s.conns old).teardownDone = true) : Wakes s c old := by
  rcases hwaits with hevicting | hawaiting
  · have hended := hI.torn old hdone
    have hne : c ≠ old := by
      rintro rfl
      simp [hevicting] at hended
    have hs : Step s (.notifyShutdown c)
        ((s.setConn old fun conn => { conn with shutdown := true }).setPhase c
          (.awaiting old)) := by
      simp [Step, step, hevicting]
    apply Wakes.of_step hs trivial
    · simp [setConn_conns, setPhase_conns, hne]
    · rfl
    · intro d hc hold
      simp [setConn_conns, setPhase_conns, hc, hold]
    · apply wakes_of_torn
      · simp [setPhase_conns]
      · simp [setConn_conns, setPhase_conns, hne.symm, hdone]
  · exact wakes_of_torn hawaiting hdone

theorem Orderly.wakes (h : Orderly s) (hI : Inv s) {c old : Nat} (hwaits : Waits s c old) :
    Wakes s c old := by
  obtain ⟨label, hlabel⟩ : ∃ label, (s.conns c).label = some label := by
    apply Option.ne_none_iff_exists'.mp
    intro hnone
    rcases hwaits with hphase | hphase <;>
      rcases hI.named c hnone with h | h | h | h <;> simp [hphase] at h
  rcases h.entry c old label hwaits hlabel with hactive | hdone
  · rcases hwaits with hevicting | hawaiting
    · exact wakes_of_evicting hI hevicting hactive
    · exact wakes_of_awaiting hI hawaiting hactive (h.asked c old hawaiting)
  · exact wakes_of_done hI hwaits hdone

/-- Nobody waits in vain, one connection per client id serves, and the last one to register is the
registered one when the others have ended. -/
structure Healthy (s : State) : Prop where
  delivered : ∀ c old, Waits s c old → Wakes s c old
  single : ∀ c d label, (s.conns c).phase = .serving → (s.conns d).phase = .serving →
    (s.conns c).label = some label → (s.conns d).label = some label → c = d
  lastActive : ∀ label c, s.last label = some c →
    (∀ d ≠ c, (s.conns d).label = some label → (s.conns d).phase = .ended) →
    (s.conns c).phase ≠ .ended → s.active label = some c

theorem reconnects_healthy {es : List Event} (run : Run (Guarded Lone Step) init es t) :
    Healthy t := by
  obtain ⟨hI, h⟩ := run.invariant (I := fun s => Inv s ∧ Orderly s)
    (fun h hs => ⟨inv_step h.1 hs.2, orderly_step h.1 h.2 hs⟩) ⟨inv_init, orderly_init⟩
  refine ⟨fun c old hwaits => h.wakes hI hwaits, fun c d label hc hd hlabel hlabel' => ?_,
    fun label c hlast _ hended => ?_⟩
  · have hone := h.serving c label hc hlabel
    rw [h.serving d label hd hlabel'] at hone
    exact (Option.some.inj hone).symm
  · exact ((hI.last label c hlast).resolve_right hended).1

theorem reconnects_healthy_eviction :
    ∃ t, Run (Guarded Lone Step) init [.connect 0, .hello 0 "a", .insert 0, .connect 1,
        .hello 1 "a", .notifyShutdown 1, .shutDown 0, .markTornDown 0, .wake 1, .insert 1] t ∧
      Healthy t := by
  suffices h : ∃ t, Run (Guarded Lone Step) init [.connect 0, .hello 0 "a", .insert 0, .connect 1,
      .hello 1 "a", .notifyShutdown 1, .shutDown 0, .markTornDown 0, .wake 1, .insert 1] t by
    obtain ⟨t, run⟩ := h
    exact ⟨t, run, reconnects_healthy run⟩
  refine ⟨_, .cons ⟨trivial, rfl⟩ (.cons ⟨fun old hold => ?_, rfl⟩ (.cons ⟨?_, rfl⟩
    (.cons ⟨trivial, rfl⟩ (.cons ⟨fun old hold c => ?_, rfl⟩ (.cons ⟨trivial, rfl⟩
      (.cons ⟨trivial, rfl⟩ (.cons ⟨trivial, rfl⟩ (.cons ⟨trivial, rfl⟩
        (.cons ⟨fun label old hlabel => ?_, rfl⟩ (.nil _))))))))))⟩
  · cases hold
  · intro label old hlabel hold
    cases hold
  · simp only [Waits, setPhase_conns, State.register, State.lookup, setConn_conns, init]
    grind
  · cases hlabel
    intro hold
    cases hold

/-! ## Three connections -/

def threeHellos : List Event :=
  [.connect 0, .hello 0 "a", .insert 0, .connect 1, .connect 2, .hello 1 "a", .hello 2 "a",
    .notifyShutdown 1, .notifyShutdown 2, .shutDown 0, .markTornDown 0, .wake 1]

theorem teardownDone_step {e : Event} (hs : Step s e t) {c : Nat}
    (hdone : (t.conns c).teardownDone = true) :
    (s.conns c).teardownDone = true ∨ (s.conns c).phase = .leaving := by
  cases effect_of_step hs with
  | connect | eof | shutDown =>
    simp only [setPhase_conns] at hdone
    grind
  | hello =>
    simp only [State.lookup, setConn_conns] at hdone
    grind
  | write => exact .inl hdone
  | notifyShutdown | wake =>
    simp only [setPhase_conns, setConn_conns] at hdone
    grind
  | insert =>
    simp only [State.register, setPhase_conns] at hdone
    grind
  | markTornDown hphase =>
    unfold State.markTornDown at hdone
    dsimp only at hdone
    split at hdone
    · simp only [setPhase_conns] at hdone
      grind
    · split at hdone <;> simp only [setConn_conns, setPhase_conns] at hdone <;> grind

/-- Once the signal is spent, a connection that still waits for it waits for good. -/
theorem stuck_run {es : List Event} (run : Run Step s es t) {c old : Nat}
    (hphase : (s.conns c).phase = .awaiting old) (hended : (s.conns old).phase = .ended)
    (hdone : (s.conns old).teardownDone = false) : (t.conns c).phase = .awaiting old := by
  have hall := run.invariant (I := fun s => (s.conns c).phase = .awaiting old ∧
    (s.conns old).phase = .ended ∧ (s.conns old).teardownDone = false) ?_ ⟨hphase, hended, hdone⟩
  · exact hall.1
  · rintro s e t ⟨hphase, hended, hdone⟩ hs
    refine ⟨?_, ended_step hs hended, ?_⟩
    · rcases phase_step hs c with hsame | hmoves
      · rw [hsame, hphase]
      · simp [Moves, hphase, hdone] at hmoves
    · rw [← Bool.not_eq_true]
      intro hset
      rcases teardownDone_step hs hset with h | h
      · simp [hdone] at h
      · simp [hended] at h

/-- Two reconnects wait for the same connection; one is woken, the other never is. -/
theorem second_waiter_stuck :
    ∃ s, Run Step init threeHellos s ∧ ¬ Healthy s ∧
      ∀ es t, Run Step s es t → (t.conns 2).phase = .awaiting 0 := by
  obtain ⟨s, run, hphase, hended, hdone⟩ : ∃ s, Run Step init threeHellos s ∧
      (s.conns 2).phase = .awaiting 0 ∧ (s.conns 0).phase = .ended ∧
      (s.conns 0).teardownDone = false :=
    ⟨_, Run.of_exec (fun h => h) rfl, rfl, rfl, rfl⟩
  refine ⟨s, run, fun h => ?_, fun es t after => stuck_run after hphase hended hdone⟩
  obtain ⟨es, u, waking, -, hwoken, -⟩ := h.delivered 2 0 (.inr hphase)
  rw [stuck_run waking hphase hended hdone] at hwoken
  cases hwoken

end Climon.Remote.Reconnects
