import Climon.Session.ScreenMoves

namespace Climon.Session.PtyAgreement

open Climon.Lib.Transition Climon.Proto.Frame Climon.Session.Control Climon.Session.Host
  Climon.Session.Surfaces Climon.Session.ScreenView Climon.Session.ScreenMoves

/-!
# The PTY and the applied size

Critical sections resize the PTY while they hold the lock, except for a leg of the repaint jiggle:
the restore thread reads its size under the lock and makes the call after giving it back.
-/

variable {G : Type}

/-! ## The resizer -/

/-- Clamp a requested size and tell whether it differs from the last applied one. -/
def nextSize (size last : Size) : Size × Bool := (floor size, floor size != last)

/-- `PtyResizer::resize`; nothing happens once the PTY has been released. -/
def resize (pty : Option Size) (size : Size) : Option Size :=
  pty.map fun last => if (nextSize size last).2 then (nextSize size last).1 else last

theorem resize_eq (pty : Option Size) (size : Size) :
    resize pty size = pty.map fun _ => floor size := by
  unfold resize nextSize
  congr 1
  funext last
  split
  · rfl
  · next hsame => simpa using (Eq.symm (by simpa using hsame) : last = floor size)

/-! ## The system -/

/-- The host, the size of its PTY until that is released, and the restore thread's resize call
that is still to come. -/
structure PtyHost (G : Type) where
  host : HostState G
  pty : Option Size
  flight : Option Size

inductive PtyEvent where
  | locked (e : Event)
  | land
  | release
  deriving DecidableEq, Repr

/-- The resizes a critical section asked for. -/
def calls (s t : HostState G) : List Size := t.resizes.drop s.resizes.length

/-- The restore thread's call is left for later, any other is made inside the section. -/
def PtyHost.after (s : PtyHost G) (e : Event) (t : HostState G) : PtyHost G :=
  match e with
  | .restoreTick => { s with host := t, flight := (calls s.host t).head? }
  | _ => { s with host := t, pty := (calls s.host t).foldl resize s.pty }

/-- The restore thread takes one tick after the other, and the teardown comes after the release. -/
def ptyEnabled (s : PtyHost G) : PtyEvent → Bool
  | .locked .restoreTick => s.flight.isNone
  | .locked (.exit _) => s.pty.isNone
  | .locked _ => true
  | .land => s.flight.isSome
  | .release => s.pty.isSome

inductive PtyStep (env : HostEnv G) : PtyHost G → PtyEvent → PtyHost G → Prop where
  | locked {s : PtyHost G} {e : Event} {t : HostState G} :
      ptyEnabled s (.locked e) → Step env s.host e t → PtyStep env s (.locked e) (s.after e t)
  | land {s : PtyHost G} {size : Size} :
      s.flight = some size →
      PtyStep env s .land { s with flight := none, pty := resize s.pty size }
  | release {s : PtyHost G} :
      ptyEnabled s .release → PtyStep env s .release { s with pty := none }

/-- The schedule of a deterministic run. -/
def ptyNext (env : HostEnv G) (s : PtyHost G) : PtyEvent → Option (PtyHost G)
  | .locked e =>
    if ptyEnabled s (.locked e) then (next env s.host e).map (s.after e) else none
  | .land => s.flight.map fun size => { s with flight := none, pty := resize s.pty size }
  | .release => if ptyEnabled s .release then some { s with pty := none } else none

theorem ptyStep_of_next {env : HostEnv G} {s t : PtyHost G} {e : PtyEvent}
    (h : ptyNext env s e = some t) : PtyStep env s e t := by
  cases e with
  | locked e =>
    simp only [ptyNext, Option.ite_none_right_eq_some] at h
    obtain ⟨henabled, hnext⟩ := h
    obtain ⟨t, ht, rfl⟩ := Option.map_eq_some_iff.mp hnext
    exact .locked henabled (step_of_next ht)
  | land =>
    obtain ⟨size, hsize, rfl⟩ := Option.map_eq_some_iff.mp h
    exact .land hsize
  | release =>
    simp only [ptyNext, Option.ite_none_right_eq_some] at h
    obtain ⟨henabled, heq⟩ := h
    cases heq
    exact .release henabled

/-- `Pty::spawn` clamps the launch size. -/
def ptyInitial (env : HostEnv G) (launch : Launch) (cols rows : UInt16) (idleSeconds : Int)
    (snippetEnabled : Bool) : PtyHost G where
  host := initialState env launch cols rows idleSeconds snippetEnabled
  pty := some (floor (cols, rows))
  flight := none

/-! ## What a section does to the applied size -/

/-- A section resizes to the new applied size or leaves it alone, and only the restore thread
ends a jiggle. -/
structure Drives (v w : Screen) : Prop where
  pending : w.pendingJiggle = none → v.pendingJiggle = none
  calls : w.resizes = v.resizes ∧ w.applied = v.applied ∨ w.resizes = v.resizes ++ [w.applied]
  floored : floor v.applied = v.applied → floor w.applied = w.applied

theorem Drives.refl (v : Screen) : Drives v v := ⟨id, .inl ⟨rfl, rfl⟩, id⟩

theorem Drives.displace {v w : Screen} (h : Drives v w) : Drives v w.displace := by
  obtain ⟨_, _, _, heq⟩ := w.displace_eq
  rw [heq]
  exact ⟨h.pending, h.calls, h.floored⟩

theorem drives_handOver (v : Screen) (viewerId : String) (size : Size) :
    Drives v (v.handOver viewerId (floor size).1 (floor size).2) := by
  have hset : Drives v { v with
      controllerId := some viewerId, appliedCols := (floor size).1, appliedRows := (floor size).2,
      resizes := v.resizes ++ [floor size] } :=
    ⟨id, .inr rfl, fun _ => floor_floor size⟩
  exact hset.displace

theorem Drives.requestJiggle {v w : Screen} (h : Drives v w) : Drives v w.requestJiggle := by
  unfold Screen.requestJiggle
  split
  · exact ⟨nofun, h.calls, h.floored⟩
  · exact h

theorem drives_take (v : Screen) (viewerId : String) (size : Size) :
    Drives v (v.take viewerId (floor size).1 (floor size).2) := by
  unfold Screen.take
  split
  · exact (drives_handOver v viewerId size).requestJiggle
  · exact drives_handOver v viewerId size

theorem drives_resize (v : Screen) (viewerId : String) (size : Size) :
    Drives v (v.resize viewerId (floor size).1 (floor size).2) := by
  have hclaimed : ∃ hostCols hostRows controllerId,
      (v.recordLocal viewerId (floor size).1 (floor size).2).claim viewerId =
        { v with hostCols := hostCols, hostRows := hostRows, controllerId := controllerId } := by
    unfold Screen.recordLocal Screen.claim
    split
    · split <;> exact ⟨_, _, _, rfl⟩
    · split <;> exact ⟨_, _, _, rfl⟩
  obtain ⟨hostCols, hostRows, controllerId, hclaimed⟩ := hclaimed
  have hrecorded : Drives v
      { v with hostCols := hostCols, hostRows := hostRows, controllerId := controllerId } :=
    ⟨id, .inl ⟨rfl, rfl⟩, id⟩
  unfold Screen.resize
  dsimp only
  rw [hclaimed]
  split
  · have hset : Drives v { v with
        hostCols := hostCols, hostRows := hostRows, controllerId := controllerId,
        appliedCols := (floor size).1, appliedRows := (floor size).2,
        resizes := v.resizes ++ [floor size] } :=
      ⟨id, .inr rfl, fun _ => floor_floor size⟩
    exact hset.displace
  · split
    · exact hrecorded.displace
    · exact hrecorded

theorem surfaceSize_floor {s : HostState G} {viewerId : String} {cols rows : UInt16}
    (h : s.surfaceSize viewerId = some (cols, rows)) : ∃ size, (cols, rows) = floor size := by
  unfold HostState.surfaceSize at h
  split at h
  · exact ⟨(s.hostCols, s.hostRows), (Option.some.inj h).symm⟩
  · obtain ⟨c, -, heq⟩ := Option.map_eq_some_iff.mp h
    exact ⟨(c.cols, c.rows), heq.symm⟩

theorem handle_drives (env : HostEnv G) (s : HostState G) {e : Event} (h : e ≠ .restoreTick) :
    Drives (view s) (view (handle env s e)) := by
  refine (handle_moves env s e).relates (Drives.refl _) (fun m hm => ?_) fun _ hv => hv.displace
  cases hm with
  | displace => exact (Drives.refl _).displace
  | localResize cols rows => exact drives_resize _ _ (cols, rows)
  | @resize _ _ size => exact drives_resize _ _ (size.cols, size.rows)
  | @resizeDropped _ size => exact drives_resize _ _ (size.cols, size.rows)
  | localTake => exact drives_take _ _ (s.hostCols, s.hostRows)
  | take _ hsize =>
    obtain ⟨size, hfloor⟩ := surfaceSize_floor hsize
    cases hfloor
    exact drives_take _ _ size
  | @handOver _ next => exact drives_handOver _ _ (next.cols, next.rows)
  | abandon => exact ⟨id, .inl ⟨rfl, rfl⟩, id⟩
  | tick => exact absurd rfl h
  | clock => exact ⟨id, .inl ⟨rfl, rfl⟩, id⟩
  | exit =>
    simp only [Screen.apply, Screen.exit]
    split <;> exact ⟨id, .inl ⟨rfl, rfl⟩, id⟩

/-- A tick makes no call and leaves no jiggle behind, or it makes one. -/
theorem tick_calls (v : Screen) :
    (∃ size, v.tick.resizes = v.resizes ++ [size]) ∨
      v.tick.resizes = v.resizes ∧ (v.tick.pendingJiggle = none → v.pendingJiggle = none) := by
  have hrestore : v.restore.resizes = v.resizes ∧
      (v.restore.pendingJiggle = none → v.pendingJiggle = none) := by
    unfold Screen.restore
    split
    · exact ⟨rfl, id⟩
    · exact ⟨rfl, id⟩
    · unfold Screen.requestJiggle
      split
      · exact ⟨rfl, nofun⟩
      · exact ⟨rfl, id⟩
  unfold Screen.tick
  split
  · exact .inr ⟨rfl, id⟩
  · unfold Screen.jiggle
    split
    · exact .inr hrestore
    · rw [← hrestore.1]
      exact .inl ⟨_, rfl⟩

/-! ## Runs -/

/-- A late call either carries the size that is still applied or is followed by another jiggle. -/
def Fresh (s : PtyHost G) : PtyEvent → Prop
  | .land => ∀ size, s.flight = some size → s.host.pendingJiggle = none →
      size = (s.host.appliedCols, s.host.appliedRows)
  | _ => True

structure Agree (s : PtyHost G) : Prop where
  floored : floor (view s.host).applied = (view s.host).applied
  settled : s.flight = none → s.host.pendingJiggle = none →
    ∀ size, s.pty = some size → size = (view s.host).applied

theorem Agree.land {s : PtyHost G} {size : Size} (h : Agree s) (hflight : s.flight = some size)
    (hfresh : Fresh s .land) : Agree { s with flight := none, pty := resize s.pty size } where
  floored := h.floored
  settled := by
    intro _ hpending new hnew
    have happlied := hfresh size hflight hpending
    rw [resize_eq] at hnew
    obtain ⟨_, -, rfl⟩ := Option.map_eq_some_iff.mp hnew
    rw [happlied]
    exact h.floored

theorem after_of_ne (s : PtyHost G) {e : Event} (h : e ≠ .restoreTick) (t : HostState G) :
    s.after e t = { s with host := t, pty := (calls s.host t).foldl resize s.pty } := by
  unfold PtyHost.after
  split
  · exact absurd rfl h
  · rfl

theorem calls_append {s t : HostState G} {sizes : List Size}
    (h : t.resizes = s.resizes ++ sizes) : calls s t = sizes := by
  unfold calls
  rw [h, List.drop_left]

theorem Agree.tick {s : PtyHost G} (h : Agree s) (hflight : s.flight = none)
    {t : HostState G} (ht : view t = (view s.host).tick) : Agree (s.after .restoreTick t) where
  floored := by
    change floor (view t).applied = (view t).applied
    rw [ht, Screen.applied_tick]
    exact h.floored
  settled := by
    intro hlanded hpending size hsize
    have hresizes : t.resizes = (view s.host).tick.resizes := congrArg Screen.resizes ht
    have hjiggle : t.pendingJiggle = (view s.host).tick.pendingJiggle :=
      congrArg Screen.pendingJiggle ht
    change size = (view t).applied
    rcases tick_calls (view s.host) with ⟨call, hcall⟩ | ⟨-, hidle⟩
    · have hcalls : calls s.host t = [call] := calls_append (hresizes.trans hcall)
      have hhead : (calls s.host t).head? = none := hlanded
      rw [hcalls] at hhead
      cases hhead
    · have hquiet : s.host.pendingJiggle = none := hidle (hjiggle.symm.trans hpending)
      rw [ht, Screen.applied_tick]
      exact h.settled hflight hquiet size hsize

theorem Agree.section {s : PtyHost G} (h : Agree s) {e : Event} (he : e ≠ .restoreTick)
    {t : HostState G} (ht : Drives (view s.host) (view t)) : Agree (s.after e t) := by
  rw [after_of_ne s he]
  refine ⟨ht.floored h.floored, fun hflight hpending size hsize => ?_⟩
  rcases ht.calls with ⟨hsame, happlied⟩ | hcall
  · have hnone : calls s.host t = [] := calls_append (by rw [List.append_nil]; exact hsame)
    rw [hnone] at hsize
    rw [happlied]
    exact h.settled hflight (ht.pending hpending) size hsize
  · rw [calls_append hcall] at hsize
    have hnew : resize s.pty (view t).applied = some size := hsize
    rw [resize_eq] at hnew
    obtain ⟨_, -, rfl⟩ := Option.map_eq_some_iff.mp hnew
    exact ht.floored h.floored

theorem Agree.step {env : HostEnv G} {s t : PtyHost G} {e : PtyEvent} (h : Agree s)
    (hstep : Guarded Fresh (PtyStep env) s e t) : Agree t := by
  obtain ⟨hfresh, hstep⟩ := hstep
  cases hstep with
  | @locked e t henabled hlocked =>
    obtain ⟨-, clients, -, rfl⟩ := hlocked
    have hpermuted : Agree { s with host := { s.host with clients := clients } } :=
      ⟨h.floored, h.settled⟩
    by_cases htick : e = .restoreTick
    · subst htick
      exact hpermuted.tick (Option.isNone_iff_eq_none.mp henabled) (restoreTick_does _).screen
    · have hsection := hpermuted.section htick (handle_drives env _ htick)
      rw [after_of_ne _ htick] at hsection ⊢
      exact hsection
  | land hflight => exact h.land hflight hfresh
  | release => exact ⟨h.floored, fun _ _ => nofun⟩

/-- While every late call of a jiggle carries the size that is still applied, or another jiggle
follows it, the PTY has the applied size whenever no jiggle is under way. -/
theorem pty_agrees (env : HostEnv G) (launch : Launch) (cols rows : UInt16) (idleSeconds : Int)
    (snippetEnabled : Bool) (es : List PtyEvent) (s : PtyHost G) (hcols : cols ≠ 0)
    (hrows : rows ≠ 0)
    (run : Run (Guarded Fresh (PtyStep env))
      (ptyInitial env launch cols rows idleSeconds snippetEnabled) es s)
    (hflight : s.flight = none) (hpending : s.host.pendingJiggle = none) (size : Size)
    (hpty : s.pty = some size) : size = (s.host.appliedCols, s.host.appliedRows) := by
  have hpositive : floor (cols, rows) = (cols, rows) :=
    Prod.ext (max1_of_ne hcols) (max1_of_ne hrows)
  have hinitial : Agree (ptyInitial env launch cols rows idleSeconds snippetEnabled) :=
    ⟨hpositive, fun _ _ size hsize => (Option.some.inj hsize).symm.trans hpositive⟩
  exact (run.invariant (I := Agree) (fun h hstep => h.step hstep) hinitial).settled hflight hpending
    size hpty

/-- A dashboard takes control at the applied size, and the jiggle it asks for runs undisturbed. -/
def jiggled : List PtyEvent :=
  [.locked .connect, .locked (.frame 0 (.resize ⟨80, 24, none, none⟩) none),
    .locked (.frame 0 .takeControl none), .locked .restoreTick, .land, .locked .restoreTick, .land]

theorem pty_agrees_jiggled : ∃ s,
    exec (ptyNext plainEnv) (ptyInitial plainEnv .attached 80 24 10 false) jiggled = some s ∧
      s.pty = some (80, 24) ∧ (s.host.appliedCols, s.host.appliedRows) = (80, 24) := by
  refine ⟨_, rfl, rfl, Eq.symm ?_⟩
  refine pty_agrees plainEnv .attached 80 24 10 false jiggled _ (by decide) (by decide)
    (.cons ⟨trivial, ptyStep_of_next rfl⟩ (.cons ⟨trivial, ptyStep_of_next rfl⟩
      (.cons ⟨trivial, ptyStep_of_next rfl⟩ (.cons ⟨trivial, ptyStep_of_next rfl⟩
        (.cons ⟨?away, ptyStep_of_next rfl⟩ (.cons ⟨trivial, ptyStep_of_next rfl⟩
          (.cons ⟨?back, ptyStep_of_next rfl⟩ (.nil _)))))))) rfl rfl _ rfl
  case away => exact fun _ _ => nofun
  case back => exact fun _ hsize _ => (Option.some.inj hsize).symm

/-- The controller resizes after the second leg has read the size and before it makes its call. -/
def overtaken : List PtyEvent :=
  [.locked .connect, .locked (.frame 0 (.resize ⟨80, 24, none, none⟩) none),
    .locked (.frame 0 .takeControl none), .locked .restoreTick, .land, .locked .restoreTick,
    .locked (.frame 0 (.resize ⟨100, 50, none, none⟩) none), .land]

theorem stale_leg_lands : ∃ s,
    exec (ptyNext plainEnv) (ptyInitial plainEnv .attached 80 24 10 false) overtaken = some s ∧
      s.flight = none ∧ s.host.pendingJiggle = none ∧ s.pty = some (80, 24) ∧
      (s.host.appliedCols, s.host.appliedRows) = (100, 50) :=
  ⟨_, rfl, rfl, rfl, rfl, rfl⟩

end Climon.Session.PtyAgreement
