import Climon.Session.LocalSurface

namespace Climon.Session.LocalRestore

open Climon.Lib.Transition Climon.Proto.Frame Climon.Session.Control Climon.Session.Host
  Climon.Session.Surfaces Climon.Session.AttachStream Climon.Session.AttachRuns
  Climon.Session.HandoffRuns Climon.Session.ScreenView Climon.Session.ScreenMoves
  Climon.Session.LocalSurface

/-! # The local terminal is never stranded -/

variable {G : Type}

/-! ## The screen -/

/-- A running host with an attached local terminal. -/
def Live (v : Screen) : Prop := v.localAttached = true ∧ v.exited = false

/-- Somebody drives the grid. Another surface keeps the local output suppressed; the local terminal
fits its grid and waits for a repaint while it is suppressed. -/
structure Tended (v : Screen) : Prop where
  controlled : v.controllerId ≠ none
  away : v.controllerId ≠ some "local" → v.suppressed = true ∧ v.restoreAt = none
  fits : v.controllerId = some "local" → v.exceeded = false
  pending : v.controllerId = some "local" → v.suppressed = true → v.restoreAt ≠ none

def Watched (v : Screen) : Prop := Live v → Tended v

theorem exceeded_floor {v : Screen} (hcols : v.appliedCols = max1 v.hostCols)
    (hrows : v.appliedRows = max1 v.hostRows) : v.exceeded = false := by
  simp [Screen.exceeded, hcols, hrows]

theorem live_displace {v : Screen} (h : Live v.displace) : Live v := by
  obtain ⟨_, _, _, heq⟩ := v.displace_eq
  rw [heq] at h
  exact h

/-- Looking at the displacement settles the suppression, whatever it was. -/
theorem tended_displace {v : Screen} (hlive : Live v) (hcontrolled : v.controllerId ≠ none)
    (hfits : v.controllerId = some "local" → v.exceeded = false) : Tended v.displace := by
  obtain ⟨id, hid⟩ := Option.ne_none_iff_exists'.mp hcontrolled
  unfold Screen.displace
  rw [if_neg (not_not_intro hlive.1)]
  by_cases hlocal : id = "local"
  · have hhome : v.controllerId = some "local" := hid.trans (congrArg some hlocal)
    rw [if_neg (by simp [hhome, localDisplacedByController])]
    split
    · exact ⟨hcontrolled, fun hne => absurd hhome hne, hfits, fun _ _ => nofun⟩
    · next hidle =>
      exact ⟨hcontrolled, fun hne => absurd hhome hne, hfits,
        fun _ hsuppressed hnone => hidle ⟨hsuppressed, hnone⟩⟩
  · have haway : v.controllerId ≠ some "local" := fun h => hlocal (Option.some.inj (hid ▸ h))
    rw [if_pos (by simpa [hid, localDisplacedByController] using hlocal)]
    dsimp only
    split
    · exact ⟨hcontrolled, fun _ => ⟨rfl, rfl⟩, fun h => absurd h haway, fun h => absurd h haway⟩
    · next hquiet =>
      have hsuppressed : v.suppressed = true := by
        by_contra hloud
        exact hquiet (.inl hloud)
      exact ⟨hcontrolled, fun _ => ⟨hsuppressed, rfl⟩, fun h => absurd h haway,
        fun h => absurd h haway⟩

theorem Watched.displace {v : Screen} (h : Watched v) : Watched v.displace := by
  intro hlive
  have hv := live_displace hlive
  exact tended_displace hv (h hv).controlled (h hv).fits

theorem watched_handOver (v : Screen) {viewerId : String} {cols rows : UInt16}
    (hfits : viewerId = "local" → cols = max1 v.hostCols ∧ rows = max1 v.hostRows) :
    Watched (v.handOver viewerId cols rows) := by
  intro hlive
  refine tended_displace (live_displace hlive) nofun fun hlocal => ?_
  obtain ⟨hcols, hrows⟩ := hfits (Option.some.inj hlocal)
  exact exceeded_floor hcols hrows

theorem live_requestJiggle {v : Screen} : Live v.requestJiggle ↔ Live v := by
  unfold Screen.requestJiggle
  split <;> rfl

theorem Watched.requestJiggle {v : Screen} (h : Watched v) : Watched v.requestJiggle := by
  unfold Screen.requestJiggle
  split
  · intro hlive
    have hv := h hlive
    exact ⟨hv.controlled, hv.away, hv.fits, hv.pending⟩
  · exact h

theorem watched_take (v : Screen) {viewerId : String} {cols rows : UInt16}
    (hfits : viewerId = "local" → cols = max1 v.hostCols ∧ rows = max1 v.hostRows) :
    Watched (v.take viewerId cols rows) := by
  unfold Screen.take
  split
  · exact (watched_handOver v hfits).requestJiggle
  · exact watched_handOver v hfits

theorem live_recordLocal {v : Screen} (viewerId : String) (cols rows : UInt16) :
    Live (v.recordLocal viewerId cols rows) ↔ Live v := by
  unfold Screen.recordLocal
  split <;> rfl

theorem live_claim {v : Screen} (viewerId : String) : Live (v.claim viewerId) ↔ Live v := by
  unfold Screen.claim
  split <;> rfl

theorem live_resize {v : Screen} {viewerId : String} {cols rows : UInt16}
    (h : Live (v.resize viewerId cols rows)) : Live v := by
  have hrecorded : Live ((v.recordLocal viewerId cols rows).claim viewerId) := by
    unfold Screen.resize at h
    dsimp only at h
    split at h
    · have hset := live_displace h
      exact hset
    · split at h
      · exact live_displace h
      · exact h
  exact (live_recordLocal _ _ _).mp ((live_claim _).mp hrecorded)

/-- A running host's attached terminal leaves no controller to claim. -/
theorem claim_of_controlled {v : Screen} (h : v.controllerId ≠ none) (viewerId : String) :
    v.claim viewerId = v := if_neg h

/-- A size the local terminal reports is its console's and, while it drives the grid, the
grid's. -/
theorem Watched.resize {v : Screen} (h : Watched v) (viewerId : String) (cols rows : UInt16) :
    Watched (v.resize viewerId (max1 cols) (max1 rows)) := by
  intro hresized
  have hv := live_resize hresized
  have htended := h hv
  have hlive := (live_recordLocal viewerId (max1 cols) (max1 rows)).mpr hv
  have hcontroller : (v.recordLocal viewerId (max1 cols) (max1 rows)).controllerId =
      v.controllerId := by
    unfold Screen.recordLocal
    split <;> rfl
  have hcontrolled := hcontroller ▸ htended.controlled
  unfold Screen.resize
  dsimp only
  rw [claim_of_controlled hcontrolled, hcontroller]
  split
  · next hdrives =>
    refine tended_displace hlive hcontrolled fun hlocal => ?_
    have hid : viewerId = "local" := by
      rw [hcontroller, hdrives] at hlocal
      exact Option.some.inj hlocal
    subst hid
    exact exceeded_floor (max1_max1 cols).symm (max1_max1 rows).symm
  · next hidle =>
    split
    · next hid =>
      refine tended_displace hlive hcontrolled fun hlocal => ?_
      exact absurd (hcontroller ▸ hlocal) (hid ▸ hidle)
    · next hid =>
      rw [Screen.recordLocal, if_neg hid]
      exact htended

/-- A due restore means that the local terminal drives the grid, so it fits. -/
theorem Tended.home_of_due {v : Screen} (h : Tended v) {due : Int} (hdue : v.restoreAt = some due) :
    v.controllerId = some "local" := by
  by_contra haway
  have hnone := (h.away haway).2
  rw [hdue] at hnone
  cases hnone

/-- A due restore repaints. -/
theorem restore_due {v : Screen} (h : Tended v) {due : Int} (hdue : v.restoreAt = some due)
    (hnow : due ≤ v.nowMs) : v.restore =
      { v with suppressed := false, restoreAt := none, noticeSize := none }.requestJiggle := by
  have hfits := h.fits (h.home_of_due hdue)
  have hdecision : localRestoreDecision v.restoreAt v.nowMs v.exceeded = .repaint := by
    simp [hdue, localRestoreDecision, hnow, hfits]
  unfold Screen.restore
  rw [hdecision]

theorem restore_idle {v : Screen} (h : ∀ due, v.restoreAt = some due → ¬ due ≤ v.nowMs) :
    v.restore = v := by
  have hdecision : localRestoreDecision v.restoreAt v.nowMs v.exceeded = .notDue := by
    cases hrestore : v.restoreAt with
    | none => rfl
    | some due => exact if_neg (h due hrestore)
  unfold Screen.restore
  rw [hdecision]

theorem live_restore {v : Screen} (h : Live v.restore) : Live v := by
  unfold Screen.restore at h
  split at h
  · exact h
  · exact h
  · have hrepainted := live_requestJiggle.mp h
    exact hrepainted

theorem Watched.restore {v : Screen} (h : Watched v) : Watched v.restore := by
  intro hlive
  have hv := h (live_restore hlive)
  by_cases hdue : ∃ due, v.restoreAt = some due ∧ due ≤ v.nowMs
  · obtain ⟨due, hrestore, hnow⟩ := hdue
    have hhome := hv.home_of_due hrestore
    rw [restore_due hv hrestore hnow] at hlive ⊢
    refine Watched.requestJiggle (fun _ => ?_) hlive
    exact ⟨hv.controlled, fun haway => absurd hhome haway, hv.fits, fun _ => nofun⟩
  · rw [restore_idle fun due hrestore hnow => hdue ⟨due, hrestore, hnow⟩]
    exact hv

theorem Watched.jiggle {v : Screen} (h : Watched v) : Watched v.jiggle := by
  unfold Screen.jiggle
  split
  · exact h
  · intro hlive
    have hv := h hlive
    exact ⟨hv.controlled, hv.away, hv.fits, hv.pending⟩

theorem Watched.tick {v : Screen} (h : Watched v) : Watched v.tick := by
  unfold Screen.tick
  split
  · exact h
  · exact h.restore.jiggle

theorem Watched.clock {v : Screen} (h : Watched v) (now : Int) :
    Watched { v with nowMs := now } := by
  intro hlive
  have hv := h hlive
  exact ⟨hv.controlled, hv.away, hv.fits, hv.pending⟩

theorem watched_exit (v : Screen) : Watched v.exit := by
  intro hlive
  have hexited : v.exit.exited = true := by
    unfold Screen.exit
    split <;> rfl
  rw [hlive.2] at hexited
  cases hexited

/-! ## Runs -/

theorem Watched.handle {env : HostEnv G} {s : HostState G} (h : Watched (view s))
    (hids : RemoteIds s) (e : Event) : Watched (view (handle env s e)) := by
  refine (handle_moves env s e).relates (R := fun _ w => Watched w) h (fun m hm => ?_)
    fun _ hv => hv.displace
  cases hm with
  | displace => exact h.displace
  | localResize cols rows => exact h.resize _ cols rows
  | resize => exact h.resize _ _ _
  | resizeDropped => exact h.resize _ _ _
  | localTake => exact watched_take _ fun _ => ⟨rfl, rfl⟩
  | take hclient hsize =>
    exact watched_take _ fun hlocal => absurd hlocal (hids _ (mem_of_getClient hclient))
  | handOver hgone hchoose =>
    refine watched_handOver _ fun hlocal => ?_
    rcases mem_surfaces (chooseController_mem hchoose) with ⟨p, hp, -, rfl⟩ | ⟨-, rfl⟩
    · exact absurd hlocal (hids p (List.filter_subset_self _ hp))
    · exact ⟨rfl, rfl⟩
  | abandon hdetached =>
    intro hlive
    have hattached : s.localAttached = true := hlive.1
    rw [hdetached] at hattached
    cases hattached
  | tick => exact h.tick
  | clock now => exact h.clock now
  | exit => exact watched_exit _

structure Attended (past : List Event) (s : HostState G) : Prop where
  streams : Streams (chunks past) s
  remoteIds : RemoteIds s
  watched : Watched (view s)

theorem Attended.step {env : HostEnv G} {past : List Event} {s t : HostState G} {e : Event}
    (h : Attended past s) (hstep : Step env s e t) : Attended (past ++ [e]) t where
  streams := h.streams.step hstep
  remoteIds := h.remoteIds.step h.streams hstep
  watched := by
    obtain ⟨-, clients, hperm, rfl⟩ := hstep
    have hwatched : Watched (view { s with clients := clients }) := h.watched
    exact hwatched.handle (h.remoteIds.perm hperm) e

theorem not_max1_lt (n : UInt16) : ¬ max1 n < n := by
  unfold max1
  split
  · next hzero =>
    subst hzero
    decide
  · exact UInt16.lt_irrefl n

theorem initial_watched (env : HostEnv G) (launch : Launch) (cols rows : UInt16)
    (idleSeconds : Int) (snippetEnabled : Bool) :
    Watched (view (initialState env launch cols rows idleSeconds snippetEnabled)) := by
  intro hlive
  obtain rfl : launch = .attached := by simpa [view, initialState] using hlive.1
  refine ⟨?_, fun haway => absurd rfl haway, fun _ => ?_, fun _ hsuppressed => ?_⟩
  · exact Option.some_ne_none _
  · simp [Screen.exceeded, view, initialState, not_max1_lt]
  · cases hsuppressed

theorem attended_of_run {env : HostEnv G} {launch : Launch} {cols rows : UInt16}
    {idleSeconds : Int} {snippetEnabled : Bool} {es : List Event} {s : HostState G}
    (run : Run (Step env) (initialState env launch cols rows idleSeconds snippetEnabled) es s) :
    Attended es s :=
  run.history (I := Attended) (fun h hstep => h.step hstep) []
    ⟨initial_streams env launch cols rows idleSeconds snippetEnabled, nofun,
      initial_watched env launch cols rows idleSeconds snippetEnabled⟩

theorem requestJiggle_local (s : HostState G) :
    s.requestJiggle.localOutputSuppressed = s.localOutputSuppressed ∧
      s.requestJiggle.localOut = s.localOut := by
  unfold HostState.requestJiggle
  split <;> exact ⟨rfl, rfl⟩

theorem jiggleTick_local (s : HostState G) :
    s.jiggleTick.localOutputSuppressed = s.localOutputSuppressed ∧
      s.jiggleTick.localOut = s.localOut := by
  unfold HostState.jiggleTick
  split <;> exact ⟨rfl, rfl⟩

/-- The tick of a due restore repaints the local terminal and lets its output through again. -/
theorem restoreTick_repaints {s : HostState G} (h : Tended (view s)) (hrunning : s.exited = false)
    {due : Int} (hdue : s.localRestoreAt = some due) (hnow : due ≤ s.nowMs) :
    s.restoreTick.localOutputSuppressed = false ∧
      ∃ modes replay, s.restoreTick.localOut =
        s.localOut ++ [.restore modes replay (max1 s.hostCols) (max1 s.hostRows)] := by
  have hfits : s.localTerminalExceeded = false := h.fits (h.home_of_due hdue)
  have hdecision :
      localRestoreDecision s.localRestoreAt s.nowMs s.localTerminalExceeded = .repaint := by
    simp [hdue, localRestoreDecision, hnow, hfits]
  unfold HostState.restoreTick HostState.restoreLocal
  rw [if_neg (by simp [hrunning]), hdecision]
  dsimp only
  rw [(jiggleTick_local _).1, (jiggleTick_local _).2, (requestJiggle_local _).1,
    (requestJiggle_local _).2]
  exact ⟨rfl, _, _, rfl⟩

/-- Another controller suppresses the local terminal; otherwise a suppressed one has its repaint
scheduled, and the first tick after it is due repaints it. -/
theorem local_terminal_restored (env : HostEnv G) (launch : Launch) (cols rows : UInt16)
    (idleSeconds : Int) (snippetEnabled : Bool) (es : List Event) (s : HostState G)
    (run : Run (Step env) (initialState env launch cols rows idleSeconds snippetEnabled) es s)
    (hattached : s.localAttached = true) (hrunning : s.exited = false) :
    (∀ id, s.controllerId = some id → id ≠ "local" → s.localOutputSuppressed = true) ∧
    (s.localOutputSuppressed = true → s.controllerId = some "local" ∨ s.controllerId = none →
      ∃ due, s.localRestoreAt = some due ∧
        ∀ t u now, Step env s (.clock now) t → due ≤ now → Step env t .restoreTick u →
          u.localOutputSuppressed = false ∧
            ∃ modes replay, u.localOut =
              s.localOut ++ [.restore modes replay (max1 s.hostCols) (max1 s.hostRows)]) := by
  have htended := (attended_of_run run).watched ⟨hattached, hrunning⟩
  refine ⟨fun id hid hother => ?_, fun hsuppressed hhome => ?_⟩
  · refine (htended.away fun hlocal => ?_).1
    have hsame := hlocal.symm.trans hid
    exact hother (Option.some.inj hsame).symm
  · have hlocal : s.controllerId = some "local" :=
      hhome.resolve_right htended.controlled
    obtain ⟨due, hdue⟩ := Option.ne_none_iff_exists'.mp (htended.pending hlocal hsuppressed)
    refine ⟨due, hdue, fun t u now hclock hnow htick => ?_⟩
    obtain ⟨-, _, -, rfl⟩ := hclock
    obtain ⟨-, _, -, rfl⟩ := htick
    have hlater : Tended { view s with nowMs := now } :=
      Watched.clock (fun _ => htended) now ⟨hattached, hrunning⟩
    exact restoreTick_repaints hlater hrunning hdue hnow

/-- Taken by a dashboard and reclaimed by a key, the local terminal is repainted. -/
theorem local_terminal_restored_reclaim : ∃ s,
    exec (next plainEnv) (initialState plainEnv .attached 80 24 10 false)
        [.connect, .frame 0 (.resize ⟨100, 50, none, none⟩) none, .frame 0 .takeControl none,
          .localStdin [localTakeControlKey]] = some s ∧
      s.localOutputSuppressed = true ∧ s.controllerId = some "local" ∧
      ∃ due, s.localRestoreAt = some due := by
  refine ⟨_, rfl, rfl, rfl, ?_⟩
  have hrestored := local_terminal_restored plainEnv .attached 80 24 10 false
    [.connect, .frame 0 (.resize ⟨100, 50, none, none⟩) none, .frame 0 .takeControl none,
      .localStdin [localTakeControlKey]] _
    (.cons (step_of_next rfl) (.cons (step_of_next rfl) (.cons (step_of_next rfl)
      (.cons (step_of_next rfl) (.nil _))))) rfl rfl
  obtain ⟨due, hdue, -⟩ := hrestored.2 rfl (.inl rfl)
  exact ⟨due, hdue⟩

end Climon.Session.LocalRestore
