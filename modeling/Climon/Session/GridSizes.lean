import Climon.Session.LocalSurface

namespace Climon.Session.GridSizes

open Climon.Lib.Transition Climon.Proto.Frame Climon.Proto.Meta Climon.Session.Control
  Climon.Session.Host Climon.Session.Surfaces Climon.Session.AttachStream
  Climon.Session.AttachRuns Climon.Session.HandoffRuns Climon.Session.ScreenView
  Climon.Session.ScreenMoves Climon.Session.LocalSurface

/-! # Where the sizes of the grid come from -/

variable {G : Type}

/-! ## Sizes somebody asked for -/

/-- A resize of this size has been read, or reported by the local terminal. -/
def Reported (past : List Event) (size : Size) : Prop :=
  ∃ e ∈ past, Reports e size.1 size.2

/-- The size at launch or a reported one. -/
def Asked (start : Size) (past : List Event) (size : Size) : Prop :=
  size = start ∨ Reported past size

theorem Reported.floor {past : List Event} {size : Size} (h : Reported past size) :
    floor size = size := by
  obtain ⟨e, -, he⟩ := h
  have hsizes : ∃ cols rows, size = (max1 cols, max1 rows) := by
    unfold Reports at he
    split at he
    · exact ⟨_, _, Prod.ext he.1 he.2⟩
    · exact ⟨_, _, Prod.ext he.1 he.2⟩
    · exact he.elim
  obtain ⟨cols, rows, rfl⟩ := hsizes
  exact Prod.ext (max1_max1 cols) (max1_max1 rows)

theorem Reported.later {past : List Event} {size : Size} (h : Reported past size) (e : Event) :
    Reported (past ++ [e]) size := by
  obtain ⟨old, hold, hreports⟩ := h
  exact ⟨old, List.mem_append_left _ hold, hreports⟩

theorem Reported.last {past : List Event} {e : Event} {size : Size}
    (h : Reports e size.1 size.2) : Reported (past ++ [e]) size :=
  ⟨e, List.mem_append_right _ (List.mem_singleton_self e), h⟩

theorem Asked.later {start : Size} {past : List Event} {size : Size} (h : Asked start past size)
    (e : Event) : Asked start (past ++ [e]) size :=
  h.imp id fun h => h.later e

/-! ## The screen -/

/-- The grid and the local terminal have sizes somebody asked for. -/
structure Sound (start : Size) (past : List Event) (v : Screen) : Prop where
  applied : Asked start past v.applied
  hostSize : Asked start past v.hostSize

theorem Sound.later {start : Size} {past : List Event} {v : Screen} (h : Sound start past v)
    (e : Event) : Sound start (past ++ [e]) v :=
  ⟨h.applied.later e, h.hostSize.later e⟩

theorem Sound.local {start : Size} {past : List Event} {v : Screen} (h : Sound start past v)
    (hstart : floor start = start) : Asked start past (floor v.hostSize) := by
  rcases h.hostSize with hlaunch | hreported
  · exact .inl ((congrArg floor hlaunch).trans hstart)
  · rw [hreported.floor]
    exact .inr hreported

theorem Sound.resize {start : Size} {past : List Event} {v : Screen} (h : Sound start past v)
    (viewerId : String) {cols rows : UInt16} (hsize : Reported past (cols, rows)) :
    Sound start past (v.resize viewerId cols rows) where
  applied := by
    rcases v.applied_resize viewerId cols rows with hnew | hold
    · rw [hnew]
      exact .inr hsize
    · rw [hold]
      exact h.applied
  hostSize := by
    rw [Screen.hostSize_resize]
    split
    · exact .inr hsize
    · exact h.hostSize

theorem Sound.take {start : Size} {past : List Event} {v : Screen} (h : Sound start past v)
    (viewerId : String) {cols rows : UInt16} (hsize : Asked start past (cols, rows)) :
    Sound start past (v.take viewerId cols rows) :=
  ⟨by simpa using hsize, by simpa using h.hostSize⟩

theorem Sound.handOver {start : Size} {past : List Event} {v : Screen} (h : Sound start past v)
    (viewerId : String) {cols rows : UInt16} (hsize : Asked start past (cols, rows)) :
    Sound start past (v.handOver viewerId cols rows) :=
  ⟨by simpa using hsize, by simpa using h.hostSize⟩

theorem Sound.tick {start : Size} {past : List Event} {v : Screen} (h : Sound start past v) :
    Sound start past v.tick :=
  ⟨by simpa using h.applied, by simpa using h.hostSize⟩

theorem Sound.exit {start : Size} {past : List Event} {v : Screen} (h : Sound start past v) :
    Sound start past v.exit :=
  ⟨by simpa using h.applied, by simpa using h.hostSize⟩

theorem Sound.displace {start : Size} {past : List Event} {v : Screen} (h : Sound start past v) :
    Sound start past v.displace :=
  ⟨by simpa using h.applied, by simpa using h.hostSize⟩

/-! ## Runs -/

/-- A client that has not reported a size yet. -/
def Placeholder (p : ClientId × Client) : Prop := p.2.cols = 0 ∧ p.2.rows = 0

/-- The surface a disconnect would hand control to, in some order of the client map. -/
def Fallback (s : HostState G) (n : ClientId) (next : Surface) : Prop :=
  ∃ clients, clients.Perm s.clients ∧
    (departed { s with clients := clients } n).controllerPresent = false ∧
    chooseController (departed { s with clients := clients } n).surfaces = some next

/-- Nobody becomes the controller before reporting a size. -/
def Sized (s : HostState G) : Event → Prop
  | .frame n .takeControl _ =>
    ∀ p ∈ s.clients, p.1 = n → ∀ q ∈ s.clients, q.2.viewerId = p.2.viewerId → ¬ Placeholder q
  | .disconnect n => ∀ p ∈ s.clients, Fallback s n (surfaceOf p) → ¬ Placeholder p
  | _ => True

structure Provenance (start : Size) (past : List Event) (s : HostState G) : Prop where
  positive : floor start = start
  streams : Streams (chunks past) s
  remoteIds : RemoteIds s
  screen : Sound start past (view s)
  clients : ∀ p ∈ s.clients, Placeholder p ∨ Reported past (p.2.cols, p.2.rows)

theorem Provenance.clients_step {env : HostEnv G} {start : Size} {past : List Event}
    {s t : HostState G} {e : Event} (h : Provenance start past s) (hstep : Step env s e t) :
    ∀ p ∈ t.clients, Placeholder p ∨ Reported (past ++ [e]) (p.2.cols, p.2.rows) := by
  obtain ⟨-, clients, hperm, rfl⟩ := hstep
  have hkeys : (keys { s with clients := clients }).Nodup :=
    ((hperm.map _).nodup_iff).mpr h.streams.keysNodup
  intro p hp
  rcases handle_origin env hkeys e p hp with ⟨-, -, hzero⟩ | ⟨q, hq, -, -, hsize⟩
  · exact .inl hzero
  rcases hsize with ⟨hcols, hrows⟩ | hreports
  · have hold := h.clients q (hperm.subset hq)
    unfold Placeholder
    rw [hcols, hrows]
    exact hold.imp id fun hreported => hreported.later e
  · exact .inr (.last hreports)

/-- The size a client takes control with was reported, unless it is the placeholder. -/
theorem Provenance.asked_client {start : Size} {past : List Event} {s : HostState G}
    (h : Provenance start past s) {p : ClientId × Client} (hp : p ∈ s.clients)
    (hsized : ¬ Placeholder p) : Asked start past (max1 p.2.cols, max1 p.2.rows) := by
  have hreported := (h.clients p hp).resolve_left hsized
  have hfloor := hreported.floor
  rw [← hfloor] at hreported
  exact .inr hreported

theorem Provenance.screen_step {env : HostEnv G} {start : Size} {past : List Event}
    {s t : HostState G} {e : Event} (h : Provenance start past s) (hsized : Sized s e)
    (hstep : Step env s e t) : Sound start (past ++ [e]) (view t) := by
  obtain ⟨-, clients, hperm, rfl⟩ := hstep
  have hsound : Sound start (past ++ [e]) (view s) := h.screen.later e
  refine (handle_moves env { s with clients := clients } e).relates
    (R := fun _ w => Sound start (past ++ [e]) w) hsound (fun m hm => ?_) fun _ hv => hv.displace
  cases hm with
  | displace => exact hsound.displace
  | localResize cols rows => exact hsound.resize _ (.last ⟨rfl, rfl⟩)
  | resize => exact hsound.resize _ (.last ⟨rfl, rfl⟩)
  | resizeDropped => exact hsound.resize _ (.last ⟨rfl, rfl⟩)
  | localTake => exact hsound.take _ (hsound.local h.positive)
  | take hclient hsize =>
    have hsender := mem_of_getClient hclient
    unfold HostState.surfaceSize at hsize
    rw [if_neg (h.remoteIds _ (hperm.subset hsender))] at hsize
    obtain ⟨c, hfound, heq⟩ := Option.map_eq_some_iff.mp hsize
    obtain ⟨k, hk, hid⟩ := mem_of_findViewer hfound
    cases heq
    exact hsound.take _ ((h.asked_client (hperm.subset hk)
      (hsized _ (hperm.subset hsender) rfl _ (hperm.subset hk) hid)).later _)
  | handOver hgone hchoose =>
    rcases mem_surfaces (chooseController_mem hchoose) with ⟨p, hp, -, rfl⟩ | ⟨-, rfl⟩
    · have hmem : p ∈ s.clients := hperm.subset (List.filter_subset_self _ hp)
      exact hsound.handOver _ ((h.asked_client hmem
        (hsized p hmem ⟨clients, hperm, hgone, hchoose⟩)).later _)
    · exact hsound.handOver _ (hsound.local h.positive)
  | abandon => exact ⟨hsound.applied, hsound.hostSize⟩
  | tick => exact hsound.tick
  | clock => exact ⟨hsound.applied, hsound.hostSize⟩
  | exit => exact hsound.exit

theorem Provenance.step {env : HostEnv G} {start : Size} {past : List Event} {s t : HostState G}
    {e : Event} (h : Provenance start past s) (hstep : Guarded Sized (Step env) s e t) :
    Provenance start (past ++ [e]) t where
  positive := h.positive
  streams := h.streams.step hstep.2
  remoteIds := h.remoteIds.step h.streams hstep.2
  screen := h.screen_step hstep.1 hstep.2
  clients := h.clients_step hstep.2

/-- While nobody becomes the controller before reporting a size, the grid only ever has the launch
size, which the launcher makes positive, or a reported one. -/
theorem applied_size_asked (env : HostEnv G) (launch : Launch) (cols rows : UInt16)
    (idleSeconds : Int) (snippetEnabled : Bool) (es : List Event) (s : HostState G)
    (hcols : cols ≠ 0) (hrows : rows ≠ 0)
    (run : Run (Guarded Sized (Step env))
      (initialState env launch cols rows idleSeconds snippetEnabled) es s) :
    Asked (cols, rows) es (s.appliedCols, s.appliedRows) := by
  have hinitial : Provenance (cols, rows) []
      (initialState env launch cols rows idleSeconds snippetEnabled) :=
    ⟨Prod.ext (max1_of_ne hcols) (max1_of_ne hrows),
      initial_streams env launch cols rows idleSeconds snippetEnabled, nofun,
      ⟨.inl rfl, .inl rfl⟩, nofun⟩
  have hend : Provenance (cols, rows) es s :=
    run.history (I := Provenance (cols, rows)) (fun h hstep => h.step hstep) [] hinitial
  exact hend.screen.applied

/-- A dashboard that reports its size may take control. -/
def sizedTakeover : List Event :=
  [.connect, .frame 0 (.resize ⟨100, 50, none, none⟩) none, .frame 0 .takeControl none]

theorem applied_size_asked_dashboard : ∃ s,
    exec (next plainEnv) (initialState plainEnv .attached 80 24 10 false) sizedTakeover = some s ∧
      Asked (80, 24) sizedTakeover (s.appliedCols, s.appliedRows) := by
  refine ⟨_, rfl, ?_⟩
  refine applied_size_asked plainEnv .attached 80 24 10 false sizedTakeover _
    (by decide) (by decide)
    (.cons ⟨trivial, step_of_next rfl⟩ (.cons ⟨trivial, step_of_next rfl⟩
      (.cons ⟨?_, step_of_next rfl⟩ (.nil _))))
  intro p hp _ q hq _ hplaceholder
  obtain rfl := List.mem_singleton.mp hq
  exact absurd hplaceholder.1 (by decide)

def eagerTakeover : List Event :=
  [.connect, .initialFramesTimer 0, .frame 0 .takeControl none]

/-- A client that only waits for the timer drives the grid to 1x1 by taking control. -/
theorem placeholder_drives_grid : ∃ s,
    exec (next plainEnv) (initialState plainEnv .attached 80 24 10 false)
        eagerTakeover = some s ∧
      ¬ Asked (80, 24) eagerTakeover
        (s.appliedCols, s.appliedRows) := by
  refine ⟨_, rfl, ?_⟩
  rintro (hstart | ⟨e, he, hreports⟩)
  · exact absurd hstart (by decide)
  · simp only [eagerTakeover, List.mem_cons, List.not_mem_nil, or_false] at he
    rcases he with rfl | rfl | rfl <;> exact hreports

end Climon.Session.GridSizes
