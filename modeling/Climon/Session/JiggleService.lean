import Climon.Session.PtyAgreement

namespace Climon.Session.JiggleService

open Climon.Lib.Transition Climon.Proto.Frame Climon.Session.Host Climon.Session.ScreenView
  Climon.Session.ScreenMoves Climon.Session.PtyAgreement

/-! # Who carries a requested jiggle out -/

variable {G : Type} {env : HostEnv G}

/-- The size that a leg drives the PTY to. -/
def legSize (leg : JiggleLeg) (v : Screen) : Size :=
  match leg with
  | .away => jiggleSize v.appliedCols v.appliedRows
  | .back => v.applied

/-- The call of a leg is made while the size that it was taken from is still the applied one. -/
def InStep (s : PtyHost G) : PtyEvent → Prop
  | .land => ∀ size, s.flight = some size →
      size = legSize (if s.host.pendingJiggle = some .back then .away else .back) (view s.host)
  | _ => True

abbrev JiggleStep (env : HostEnv G) : PtyHost G → PtyEvent → PtyHost G → Prop :=
  Guarded InStep (PtyStep env)

/-- The next tick runs the leg: it asks for the size, and the PTY gets it before the tick after. -/
def Runs (env : HostEnv G) (leg : JiggleLeg) (s : PtyHost G) : Prop :=
  ∀ es u v, Run (JiggleStep env) s es u → .locked .restoreTick ∉ es → u.host.exited = false →
    JiggleStep env u (.locked .restoreTick) v →
      v.flight = some (legSize leg (view u.host)) ∧ v.host.pendingJiggle = leg.next ∧
        ∀ es' w x, Run (JiggleStep env) v es' w → .land ∉ es' → JiggleStep env w .land x →
          x.pty = resize w.pty (legSize leg (view w.host))

/-- The restore thread runs until the exit, and its next two ticks drive the PTY away from the live
size and back. -/
structure Serviced (env : HostEnv G) (s : PtyHost G) : Prop where
  running : ∀ es u, Run (JiggleStep env) s es u → enabled u.host .restoreTick = true
  leaves : ∀ es u, Run (JiggleStep env) s es u →
    legSize .away (view u.host) ≠ (view u.host).applied
  away : Runs env .away s
  back : ∀ es u v, Run (JiggleStep env) s es u → .locked .restoreTick ∉ es →
    u.host.exited = false → JiggleStep env u (.locked .restoreTick) v → Runs env .back v

/-- The first leg changes the number of rows. -/
theorem away_ne (v : Screen) : legSize .away v ≠ v.applied := by
  intro h
  have hrows : jiggleRows v.appliedRows = v.appliedRows := congrArg Prod.snd h
  unfold jiggleRows at hrows
  split at hrows
  · have := congrArg UInt16.toNat hrows
    grind
  · have := congrArg UInt16.toNat hrows
    grind

/-! ## What leaves a request pending -/

/-- Sections other than the restore thread's ticks only ever add a request. -/
structure Holds (v w : Screen) : Prop where
  pending : w.pendingJiggle = v.pendingJiggle ∨
    v.pendingJiggle = none ∧ w.pendingJiggle = some .away
  attached : w.localAttached = v.localAttached

theorem Holds.refl (v : Screen) : Holds v v := ⟨.inl rfl, rfl⟩

theorem Holds.displace {v w : Screen} (h : Holds v w) : Holds v w.displace := by
  obtain ⟨_, _, _, heq⟩ := w.displace_eq
  rw [heq]
  exact ⟨h.pending, h.attached⟩

theorem Holds.requestJiggle {v w : Screen} (h : Holds v w) : Holds v w.requestJiggle := by
  unfold Screen.requestJiggle
  split
  · next hnone =>
    refine ⟨.inr ⟨?_, rfl⟩, h.attached⟩
    rcases h.pending with hsame | ⟨hfirst, -⟩
    · rw [← hsame, hnone]
    · exact hfirst
  · exact h

theorem holds_handOver (v : Screen) (viewerId : String) (cols rows : UInt16) :
    Holds v (v.handOver viewerId cols rows) := by
  have hset : Holds v { v with
      controllerId := some viewerId, appliedCols := cols, appliedRows := rows,
      resizes := v.resizes ++ [(cols, rows)] } := ⟨.inl rfl, rfl⟩
  exact hset.displace

theorem holds_take (v : Screen) (viewerId : String) (cols rows : UInt16) :
    Holds v (v.take viewerId cols rows) := by
  unfold Screen.take
  split
  · exact (holds_handOver v viewerId cols rows).requestJiggle
  · exact holds_handOver v viewerId cols rows

theorem holds_resize (v : Screen) (viewerId : String) (cols rows : UInt16) :
    Holds v (v.resize viewerId cols rows) := by
  have hclaimed : Holds v ((v.recordLocal viewerId cols rows).claim viewerId) := by
    unfold Screen.recordLocal Screen.claim
    split <;> split <;> exact ⟨.inl rfl, rfl⟩
  unfold Screen.resize
  dsimp only
  split
  · have hset : Holds v { (v.recordLocal viewerId cols rows).claim viewerId with
        appliedCols := cols, appliedRows := rows,
        resizes := ((v.recordLocal viewerId cols rows).claim viewerId).resizes ++
          [(cols, rows)] } := ⟨hclaimed.pending, hclaimed.attached⟩
    exact hset.displace
  · split
    · exact hclaimed.displace
    · exact hclaimed

theorem handle_holds (s : HostState G) {e : Event} (h : e ≠ .restoreTick) :
    Holds (view s) (view (handle env s e)) := by
  refine (handle_moves env s e).relates (Holds.refl _) (fun m hm => ?_) fun _ hv => hv.displace
  cases m with
  | displace => exact (Holds.refl _).displace
  | resize viewerId cols rows => exact holds_resize _ _ _ _
  | take viewerId cols rows => exact holds_take _ _ _ _
  | handOver viewerId cols rows => exact holds_handOver _ _ _ _
  | abandon => exact ⟨.inl rfl, rfl⟩
  | clock now => exact ⟨.inl rfl, rfl⟩
  | tick =>
    cases hm
    exact absurd rfl h
  | exit =>
    simp only [Screen.apply, Screen.exit]
    split <;> exact ⟨.inl rfl, rfl⟩

theorem step_holds {s t : HostState G} {e : Event} (hstep : Step env s e t)
    (h : e ≠ .restoreTick) : Holds (view s) (view t) := by
  obtain ⟨-, clients, -, rfl⟩ := hstep
  exact handle_holds { s with clients := clients } h

/-! ## Ticks -/

theorem restore_keeps {v : Screen} {leg : JiggleLeg} (h : v.pendingJiggle = some leg) :
    v.restore.pendingJiggle = some leg ∧ v.restore.resizes = v.resizes := by
  unfold Screen.restore
  split
  · exact ⟨h, rfl⟩
  · exact ⟨h, rfl⟩
  · simp [Screen.requestJiggle, h]

theorem tick_runs {v : Screen} {leg : JiggleLeg} (h : v.pendingJiggle = some leg)
    (hrunning : v.exited = false) :
    v.tick.pendingJiggle = leg.next ∧ v.tick.resizes = v.resizes ++ [legSize leg v] := by
  obtain ⟨hpending, hresizes⟩ := restore_keeps h
  have happlied : v.restore.applied = v.applied := Screen.applied_restore v
  have hcols : v.restore.appliedCols = v.appliedCols := congrArg Prod.fst happlied
  have hrows : v.restore.appliedRows = v.appliedRows := congrArg Prod.snd happlied
  unfold Screen.tick Screen.jiggle
  rw [if_neg (by simp [hrunning]), hpending]
  refine ⟨rfl, ?_⟩
  dsimp only
  rw [hresizes, hcols, hrows]
  cases leg <;> rfl

theorem tick_attached (v : Screen) : v.tick.localAttached = v.localAttached := by
  unfold Screen.tick Screen.jiggle Screen.restore Screen.requestJiggle
  repeat' split
  all_goals rfl

/-! ## Runs -/

variable {s t u v w : PtyHost G} {e : PtyEvent} {es : List PtyEvent} {leg : JiggleLeg}

theorem step_attached (hstep : JiggleStep env s e t) :
    t.host.localAttached = s.host.localAttached := by
  cases hstep.2 with
  | land => rfl
  | release => rfl
  | @locked e t henabled hlocked =>
    by_cases htick : e = .restoreTick
    · subst htick
      obtain ⟨-, clients, -, rfl⟩ := hlocked
      have hscreen := (restoreTick_does { s.host with clients := clients }).screen
      exact (congrArg Screen.localAttached hscreen).trans (tick_attached _)
    · rw [after_of_ne s htick]
      exact (step_holds hlocked htick).attached

theorem run_attached (run : Run (JiggleStep env) s es t) :
    t.host.localAttached = s.host.localAttached :=
  run.invariant (I := fun u => u.host.localAttached = s.host.localAttached)
    (fun h hstep => (step_attached hstep).trans h) rfl

/-- A request is served by the restore thread or stays. -/
theorem step_pending (hstep : JiggleStep env s e t) (he : e ≠ .locked .restoreTick) :
    t.host.pendingJiggle = s.host.pendingJiggle ∨
      s.host.pendingJiggle = none ∧ t.host.pendingJiggle = some .away := by
  cases hstep.2 with
  | land => exact .inl rfl
  | release => exact .inl rfl
  | @locked e t henabled hlocked =>
    have htick : e ≠ .restoreTick := fun heq => he (by rw [heq])
    rw [after_of_ne s htick]
    exact (step_holds hlocked htick).pending

theorem pending_until_tick (run : Run (JiggleStep env) s es t)
    (hes : PtyEvent.locked .restoreTick ∉ es) (hpending : s.host.pendingJiggle = some leg) :
    t.host.pendingJiggle = some leg := by
  have hguarded := run.guard (p := fun e => e ≠ .locked .restoreTick) fun e he heq =>
    hes (heq ▸ he)
  refine hguarded.invariant (I := fun u => u.host.pendingJiggle = some leg) ?_ hpending
  intro u e v h hstep
  rcases step_pending hstep.2 hstep.1 with hsame | ⟨hnone, -⟩
  · rw [hsame, h]
  · rw [hnone] at h
    cases h

/-- The restore thread waits for its call. -/
theorem step_flight {size : Size} (hstep : JiggleStep env s e t) (he : e ≠ .land)
    (hflight : s.flight = some size) : t.flight = some size ∧ e ≠ .locked .restoreTick := by
  cases hstep.2 with
  | land => exact absurd rfl he
  | release => exact ⟨hflight, nofun⟩
  | @locked e t henabled hlocked =>
    have htick : e ≠ .restoreTick := by
      rintro rfl
      simp [ptyEnabled, hflight] at henabled
    rw [after_of_ne s htick]
    exact ⟨hflight, fun heq => htick (PtyEvent.locked.inj heq)⟩

/-- Until the call of a leg is made, the next leg stays what it is. -/
theorem flight_until_land {size : Size} (run : Run (JiggleStep env) s es t)
    (hes : PtyEvent.land ∉ es) (hflight : s.flight = some size) :
    t.flight = some size ∧
      (t.host.pendingJiggle = s.host.pendingJiggle ∨
        s.host.pendingJiggle = none ∧ t.host.pendingJiggle = some .away) := by
  have hguarded := run.guard (p := fun e => e ≠ .land) fun e he heq => hes (heq ▸ he)
  refine hguarded.invariant (I := fun u => u.flight = some size ∧
    (u.host.pendingJiggle = s.host.pendingJiggle ∨
      s.host.pendingJiggle = none ∧ u.host.pendingJiggle = some .away)) ?_ ⟨hflight, .inl rfl⟩
  intro u e v h hstep
  obtain ⟨hkept, hne⟩ := step_flight hstep.2 hstep.1 h.1
  refine ⟨hkept, ?_⟩
  rcases step_pending hstep.2 hne with hsame | ⟨hnone, haway⟩
  · rw [hsame]
    exact h.2
  · rcases h.2 with hfirst | ⟨-, hrequested⟩
    · exact .inr ⟨hfirst ▸ hnone, haway⟩
    · rw [hnone] at hrequested
      cases hrequested

theorem tick_step (hpending : s.host.pendingJiggle = some leg) (hrunning : s.host.exited = false)
    (hstep : JiggleStep env s (.locked .restoreTick) t) :
    t.flight = some (legSize leg (view s.host)) ∧ t.host.pendingJiggle = leg.next := by
  cases hstep.2 with
  | @locked _ t henabled hlocked =>
    obtain ⟨-, clients, -, rfl⟩ := hlocked
    have hscreen := (restoreTick_does { s.host with clients := clients }).screen
    have hruns := tick_runs (v := view s.host) hpending hrunning
    have hcalls := calls_append ((congrArg Screen.resizes hscreen).trans hruns.2)
    refine ⟨?_, (congrArg Screen.pendingJiggle hscreen).trans hruns.1⟩
    exact congrArg List.head? hcalls

theorem runs_of_pending (hpending : s.host.pendingJiggle = some leg) : Runs env leg s := by
  intro es u v run hes hrunning hstep
  obtain ⟨hflight, hnext⟩ := tick_step (pending_until_tick run hes hpending) hrunning hstep
  refine ⟨hflight, hnext, ?_⟩
  intro es' w x run' hes' hland
  obtain ⟨hwaiting, hstill⟩ := flight_until_land run' hes' hflight
  have hinstep := hland.1 _ hwaiting
  have hleg : (if w.host.pendingJiggle = some .back then JiggleLeg.away else .back) = leg := by
    cases leg with
    | away =>
      rcases hstill with hsame | ⟨hnone, -⟩
      · rw [hsame, hnext]
        rfl
      · rw [hnext] at hnone
        cases hnone
    | back =>
      rcases hstill with hsame | ⟨-, haway⟩
      · rw [hsame, hnext]
        rfl
      · rw [haway]
        rfl
  rw [hleg] at hinstep
  cases hland.2 with
  | land hsize =>
    rw [hwaiting, Option.some.injEq] at hsize
    rw [← hsize, ← hinstep]

theorem serviced_of_attached (hattached : s.host.localAttached = true)
    (hpending : s.host.pendingJiggle = some .away) : Serviced env s where
  running := by
    intro es u run
    exact (run_attached run).trans hattached
  leaves := fun _ u _ => away_ne (view u.host)
  away := runs_of_pending hpending
  back := by
    intro es u v run hes hrunning hstep
    exact runs_of_pending (tick_step (pending_until_tick run hes hpending) hrunning hstep).2

/-- Without the restore thread a request stays where it is, and swallows all others. -/
theorem pending_without_thread (hattached : s.host.localAttached = false)
    (hpending : s.host.pendingJiggle = some .away) (run : Run (JiggleStep env) s es t) :
    t.host.pendingJiggle = some .away := by
  have hstill := run.invariant (I := fun u => u.host.localAttached = false ∧
    u.host.pendingJiggle = some .away) ?_ ⟨hattached, hpending⟩
  · exact hstill.2
  · intro u e v h hstep
    refine ⟨(step_attached hstep).trans h.1, ?_⟩
    have hne : e ≠ .locked .restoreTick := by
      rintro rfl
      cases hstep.2 with
      | locked henabled hlocked => exact absurd (h.1.symm.trans hlocked.1) nofun
    rcases step_pending hstep hne with hsame | ⟨hnone, -⟩
    · rw [hsame, h.2]
    · rw [hnone] at h
      cases h.2

theorem initial_attached (env : HostEnv G) (launch : Launch) (cols rows : UInt16)
    (idleSeconds : Int) (snippetEnabled : Bool) :
    (ptyInitial env launch cols rows idleSeconds snippetEnabled).host.localAttached = true ↔
      launch = .attached :=
  beq_iff_eq

/-- A requested jiggle is carried out exactly where the session was started with a local terminal
attached; anywhere else it stays requested for good. -/
theorem jiggle_serviced_iff (env : HostEnv G) (launch : Launch) (cols rows : UInt16)
    (idleSeconds : Int) (snippetEnabled : Bool) (es : List PtyEvent) (s : PtyHost G)
    (run : Run (JiggleStep env) (ptyInitial env launch cols rows idleSeconds snippetEnabled) es s)
    (hpending : s.host.pendingJiggle = some .away) :
    (Serviced env s ↔ launch = .attached) ∧
      (launch ≠ .attached → ∀ es' t, Run (JiggleStep env) s es' t →
        t.host.pendingJiggle = some .away) := by
  have hattached : s.host.localAttached = true ↔ launch = .attached := by
    rw [run_attached run]
    exact initial_attached env launch cols rows idleSeconds snippetEnabled
  refine ⟨⟨fun h => hattached.mp (h.running [] s (.nil s)), fun h => ?_⟩, fun h es' t run' => ?_⟩
  · exact serviced_of_attached (hattached.mpr h) hpending
  · exact pending_without_thread (Bool.eq_false_iff.mpr (mt hattached.mp h)) hpending run'

/-- A dashboard takes control at the applied size. -/
def takenAtSize : List PtyEvent :=
  [.locked .connect, .locked (.frame 0 (.resize ⟨80, 24, none, none⟩) none),
    .locked (.frame 0 .takeControl none)]

theorem jiggle_serviced_attached : ∃ s,
    exec (ptyNext plainEnv) (ptyInitial plainEnv .attached 80 24 10 false) takenAtSize = some s ∧
      s.host.pendingJiggle = some .away ∧ Serviced plainEnv s := by
  refine ⟨_, rfl, rfl, ?_⟩
  exact (jiggle_serviced_iff plainEnv .attached 80 24 10 false takenAtSize _
    (.cons ⟨trivial, ptyStep_of_next rfl⟩ (.cons ⟨trivial, ptyStep_of_next rfl⟩
      (.cons ⟨trivial, ptyStep_of_next rfl⟩ (.nil _)))) rfl).1.mpr rfl

/-- In a headless session nothing ever ticks. -/
theorem headless_jiggle_stuck : ∃ s,
    exec (ptyNext plainEnv) (ptyInitial plainEnv .headless 80 24 10 false) takenAtSize = some s ∧
      s.host.exited = false ∧ s.host.pendingJiggle = some .away ∧ ¬ Serviced plainEnv s := by
  refine ⟨_, rfl, rfl, rfl, ?_⟩
  intro hserviced
  cases hserviced.running [] _ (.nil _)

end Climon.Session.JiggleService
