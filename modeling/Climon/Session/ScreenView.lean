import Climon.Session.Surfaces

namespace Climon.Session.ScreenView

open Climon.Proto.Frame Climon.Proto.Meta Climon.Session.Control Climon.Session.Host
  Climon.Session.Surfaces

/-!
# Who drives the grid

The host as its local terminal sees it: sizes, the controller, the suppression of local output and
the repaint jiggle. Clients and their queues are abstracted into the moves they cause.
-/

abbrev Size := UInt16 × UInt16

/-- Both dimensions clamped to at least one. -/
def floor (size : Size) : Size := (max1 size.1, max1 size.2)

@[simp] theorem floor_floor (size : Size) : floor (floor size) = floor size :=
  Prod.ext (max1_max1 size.1) (max1_max1 size.2)

structure Screen where
  hostCols : UInt16
  hostRows : UInt16
  appliedCols : UInt16
  appliedRows : UInt16
  controllerId : Option String
  localAttached : Bool
  suppressed : Bool
  restoreAt : Option Int
  noticeSize : Option (UInt16 × UInt16)
  pendingJiggle : Option JiggleLeg
  resizes : List (UInt16 × UInt16)
  nowMs : Int
  exited : Bool

inductive Move where
  | displace
  | resize (viewerId : String) (cols rows : UInt16)
  | take (viewerId : String) (cols rows : UInt16)
  | handOver (viewerId : String) (cols rows : UInt16)
  | abandon
  | tick
  | clock (now : Int)
  | exit

namespace Screen

def exceeded (v : Screen) : Bool :=
  max1 v.hostCols < v.appliedCols || max1 v.hostRows < v.appliedRows

/-- `update_local_displaced` -/
def displace (v : Screen) : Screen :=
  if ¬ v.localAttached then v
  else if localDisplacedByController v.controllerId then
    let noticeSize := (max1 v.hostCols, max1 v.hostRows)
    if ¬ v.suppressed ∨ v.noticeSize ≠ some noticeSize then
      { v with restoreAt := none, suppressed := true, noticeSize := some noticeSize }
    else { v with restoreAt := none }
  else if v.suppressed ∧ v.restoreAt = none then
    { v with restoreAt := some (v.nowMs + localRestoreDelay) }
  else v

def setSize (v : Screen) (cols rows : UInt16) : Screen :=
  { v with
    appliedCols := cols, appliedRows := rows, resizes := v.resizes ++ [(cols, rows)] }.displace

def recordLocal (v : Screen) (viewerId : String) (cols rows : UInt16) : Screen :=
  if viewerId = "local" then { v with hostCols := cols, hostRows := rows } else v

def claim (v : Screen) (viewerId : String) : Screen :=
  if v.controllerId = none then { v with controllerId := some viewerId } else v

def resize (v : Screen) (viewerId : String) (cols rows : UInt16) : Screen :=
  let v := (v.recordLocal viewerId cols rows).claim viewerId
  if v.controllerId = some viewerId then v.setSize cols rows
  else if viewerId = "local" then v.displace
  else v

def requestJiggle (v : Screen) : Screen :=
  if v.pendingJiggle = none then { v with pendingJiggle := some .away } else v

def handOver (v : Screen) (viewerId : String) (cols rows : UInt16) : Screen :=
  { v with controllerId := some viewerId }.setSize cols rows

def take (v : Screen) (viewerId : String) (cols rows : UInt16) : Screen :=
  if viewerId ≠ "local" ∧ (cols, rows) = (v.appliedCols, v.appliedRows) then
    (v.handOver viewerId cols rows).requestJiggle
  else v.handOver viewerId cols rows

def restore (v : Screen) : Screen :=
  match localRestoreDecision v.restoreAt v.nowMs v.exceeded with
  | .notDue => v
  | .skipOvergrown => { v with restoreAt := none }
  | .repaint => { v with suppressed := false, restoreAt := none, noticeSize := none }.requestJiggle

def jiggle (v : Screen) : Screen :=
  match v.pendingJiggle with
  | none => v
  | some leg =>
    let size :=
      match leg with
      | .away => jiggleSize v.appliedCols v.appliedRows
      | .back => (v.appliedCols, v.appliedRows)
    { v with pendingJiggle := leg.next, resizes := v.resizes ++ [size] }

def tick (v : Screen) : Screen := if v.exited then v else v.restore.jiggle

def exit (v : Screen) : Screen :=
  if v.localAttached ∧ v.suppressed then
    { v with
      controllerId := some "local", suppressed := false, noticeSize := none, restoreAt := none,
      exited := true }
  else { v with exited := true }

def apply (v : Screen) : Move → Screen
  | .displace => v.displace
  | .resize viewerId cols rows => v.resize viewerId cols rows
  | .take viewerId cols rows => v.take viewerId cols rows
  | .handOver viewerId cols rows => v.handOver viewerId cols rows
  | .abandon => { v with controllerId := none }
  | .tick => v.tick
  | .clock now => { v with nowMs := now }
  | .exit => v.exit

def applyAll (v : Screen) (moves : List Move) : Screen := moves.foldl apply v

/-! ## Sizes -/

def hostSize (v : Screen) : Size := (v.hostCols, v.hostRows)

def applied (v : Screen) : Size := (v.appliedCols, v.appliedRows)

/-- Looking at the displacement moves nothing but the suppression. -/
theorem displace_eq (v : Screen) : ∃ restoreAt suppressed noticeSize,
    v.displace =
      { v with restoreAt := restoreAt, suppressed := suppressed, noticeSize := noticeSize } := by
  unfold displace
  split
  · exact ⟨_, _, _, rfl⟩
  split
  · dsimp only
    split <;> exact ⟨_, _, _, rfl⟩
  · split <;> exact ⟨_, _, _, rfl⟩

@[simp] theorem hostSize_displace (v : Screen) : v.displace.hostSize = v.hostSize := by
  obtain ⟨_, _, _, heq⟩ := displace_eq v
  rw [heq]
  rfl

@[simp] theorem applied_displace (v : Screen) : v.displace.applied = v.applied := by
  obtain ⟨_, _, _, heq⟩ := displace_eq v
  rw [heq]
  rfl

@[simp] theorem hostSize_setSize (v : Screen) (cols rows : UInt16) :
    (v.setSize cols rows).hostSize = v.hostSize := hostSize_displace _

@[simp] theorem applied_setSize (v : Screen) (cols rows : UInt16) :
    (v.setSize cols rows).applied = (cols, rows) := applied_displace _

@[simp] theorem hostSize_claim (v : Screen) (viewerId : String) :
    (v.claim viewerId).hostSize = v.hostSize := by
  unfold claim
  split <;> rfl

@[simp] theorem applied_claim (v : Screen) (viewerId : String) :
    (v.claim viewerId).applied = v.applied := by
  unfold claim
  split <;> rfl

@[simp] theorem hostSize_requestJiggle (v : Screen) :
    v.requestJiggle.hostSize = v.hostSize := by
  unfold requestJiggle
  split <;> rfl

@[simp] theorem applied_requestJiggle (v : Screen) : v.requestJiggle.applied = v.applied := by
  unfold requestJiggle
  split <;> rfl

@[simp] theorem hostSize_handOver (v : Screen) (viewerId : String) (cols rows : UInt16) :
    (v.handOver viewerId cols rows).hostSize = v.hostSize := hostSize_setSize _ cols rows

@[simp] theorem applied_handOver (v : Screen) (viewerId : String) (cols rows : UInt16) :
    (v.handOver viewerId cols rows).applied = (cols, rows) := applied_setSize _ cols rows

@[simp] theorem hostSize_take (v : Screen) (viewerId : String) (cols rows : UInt16) :
    (v.take viewerId cols rows).hostSize = v.hostSize := by
  unfold take
  split <;> simp

@[simp] theorem applied_take (v : Screen) (viewerId : String) (cols rows : UInt16) :
    (v.take viewerId cols rows).applied = (cols, rows) := by
  unfold take
  split <;> simp

@[simp] theorem hostSize_restore (v : Screen) : v.restore.hostSize = v.hostSize := by
  unfold restore
  split
  · rfl
  · rfl
  · exact hostSize_requestJiggle _

@[simp] theorem applied_restore (v : Screen) : v.restore.applied = v.applied := by
  unfold restore
  split
  · rfl
  · rfl
  · exact applied_requestJiggle _

@[simp] theorem hostSize_jiggle (v : Screen) : v.jiggle.hostSize = v.hostSize := by
  unfold jiggle
  split <;> rfl

@[simp] theorem applied_jiggle (v : Screen) : v.jiggle.applied = v.applied := by
  unfold jiggle
  split <;> rfl

@[simp] theorem hostSize_tick (v : Screen) : v.tick.hostSize = v.hostSize := by
  unfold tick
  split <;> simp

@[simp] theorem applied_tick (v : Screen) : v.tick.applied = v.applied := by
  unfold tick
  split <;> simp

@[simp] theorem hostSize_exit (v : Screen) : v.exit.hostSize = v.hostSize := by
  unfold exit
  split <;> rfl

@[simp] theorem applied_exit (v : Screen) : v.exit.applied = v.applied := by
  unfold exit
  split <;> rfl

/-- Only the local terminal's own report is the new local size. -/
theorem hostSize_resize (v : Screen) (viewerId : String) (cols rows : UInt16) :
    (v.resize viewerId cols rows).hostSize =
      if viewerId = "local" then (cols, rows) else v.hostSize := by
  have hrecord : (v.recordLocal viewerId cols rows).hostSize =
      if viewerId = "local" then (cols, rows) else v.hostSize := by
    unfold recordLocal
    split <;> rfl
  rw [← hrecord]
  unfold resize
  dsimp only
  split
  · simp
  · split <;> simp

/-- The grid takes the reported size or stays. -/
theorem applied_resize (v : Screen) (viewerId : String) (cols rows : UInt16) :
    (v.resize viewerId cols rows).applied = (cols, rows) ∨
      (v.resize viewerId cols rows).applied = v.applied := by
  have hrecord : (v.recordLocal viewerId cols rows).applied = v.applied := by
    unfold recordLocal
    split <;> rfl
  unfold resize
  dsimp only
  split
  · exact .inl (applied_setSize _ cols rows)
  · right
    split <;> simpa using hrecord

end Screen

variable {G : Type}

def view (s : HostState G) : Screen where
  hostCols := s.hostCols
  hostRows := s.hostRows
  appliedCols := s.appliedCols
  appliedRows := s.appliedRows
  controllerId := s.controllerId
  localAttached := s.localAttached
  suppressed := s.localOutputSuppressed
  restoreAt := s.localRestoreAt
  noticeSize := s.localNoticeSize
  pendingJiggle := s.pendingJiggle
  resizes := s.resizes
  nowMs := s.nowMs
  exited := s.exited

/-! ## What the handlers do to the screen -/

/-- Every client comes from one with the same key, id and size. -/
def Carries (s t : HostState G) : Prop :=
  ∀ p ∈ t.clients, ∃ q ∈ s.clients,
    p.1 = q.1 ∧ p.2.viewerId = q.2.viewerId ∧ p.2.cols = q.2.cols ∧ p.2.rows = q.2.rows

theorem Carries.of_subset {s t : HostState G} (h : t.clients ⊆ s.clients) : Carries s t :=
  fun p hp => ⟨p, h hp, rfl, rfl, rfl, rfl⟩

theorem Carries.refl (s : HostState G) : Carries s s := Carries.of_subset fun _ hp => hp

theorem Carries.trans {s t u : HostState G} (h : Carries s t) (k : Carries t u) : Carries s u := by
  intro p hp
  obtain ⟨q, hq, hkey, hid, hcols, hrows⟩ := k p hp
  obtain ⟨r, hr, hkey', hid', hcols', hrows'⟩ := h q hq
  exact ⟨r, hr, hkey.trans hkey', hid.trans hid', hcols.trans hcols', hrows.trans hrows'⟩

/-- The handler runs its moves on the screen and keeps the clients' ids and sizes. -/
structure Does (moves : List Move) (s t : HostState G) : Prop where
  screen : view t = (view s).applyAll moves
  carries : Carries s t

theorem Does.refl (s : HostState G) : Does [] s s := ⟨rfl, Carries.refl s⟩

theorem Does.trans {moves later : List Move} {s t u : HostState G} (h : Does moves s t)
    (k : Does later t u) : Does (moves ++ later) s u := by
  refine ⟨?_, h.carries.trans k.carries⟩
  rw [k.screen, h.screen, Screen.applyAll, Screen.applyAll, Screen.applyAll, List.foldl_append]

theorem Does.then_quiet {moves : List Move} {s t u : HostState G} (h : Does moves s t)
    (k : Does [] t u) : Does moves s u := by
  have hboth := h.trans k
  rwa [List.append_nil] at hboth

theorem removeClient_does (s : HostState G) (n : ClientId) : Does [] s (s.removeClient n) :=
  ⟨rfl, .of_subset (List.filter_subset_self _)⟩

theorem sendToClient_does (s : HostState G) (n : ClientId) (frame : HostFrame) :
    Does [] s (s.sendToClient n frame) := by
  unfold HostState.sendToClient
  split
  · exact Does.refl s
  · split
    · exact removeClient_does s n
    · exact ⟨rfl, Carries.refl s⟩

theorem broadcast_does (s : HostState G) (frame : HostFrame) : Does [] s (s.broadcast frame) :=
  ⟨rfl, .of_subset (List.filter_subset_self _)⟩

theorem broadcastControl_does (s : HostState G) : Does [] s s.broadcastControl := by
  unfold HostState.broadcastControl
  split
  · exact broadcast_does s _
  · exact Does.refl s

theorem writeReplay_does (s : HostState G) (n : ClientId) : Does [] s (s.writeReplay n) :=
  (sendToClient_does s n _).trans (sendToClient_does _ n _)

theorem updateLocalDisplaced_does (s : HostState G) :
    Does [.displace] s s.updateLocalDisplaced := by
  refine ⟨?_, .of_subset ?_⟩
  · change view s.updateLocalDisplaced = (view s).displace
    unfold HostState.updateLocalDisplaced Screen.displace
    simp only [apply_ite view]
    rfl
  · rw [show s.updateLocalDisplaced.clients = s.clients by
      unfold HostState.updateLocalDisplaced
      split
      · rfl
      split
      · dsimp only
        split <;> rfl
      · split <;> rfl]
    exact fun _ hp => hp

theorem setPtySize_screen (env : HostEnv G) (s : HostState G) (cols rows : UInt16) :
    view (s.setPtySize env cols rows) = (view s).setSize cols rows ∧
      Carries s (s.setPtySize env cols rows) := by
  unfold HostState.setPtySize
  dsimp only
  split
  · next _ =>
    have hsend := broadcast_does
      { s with
        appliedCols := cols, appliedRows := rows, resizes := s.resizes ++ [(cols, rows)]
        grid := env.resizeGrid s.grid cols rows
        idleDetector := s.idleDetector.absorbResize
          (env.fingerprint (env.resizeGrid s.grid cols rows)) s.nowMs
        patches := s.patches ++ [sizePatch cols rows] } (.ptySize cols rows)
    have hboth := hsend.trans (updateLocalDisplaced_does _)
    exact ⟨hboth.screen, hboth.carries⟩
  · have hdisplace := updateLocalDisplaced_does
      { s with
        appliedCols := cols, appliedRows := rows, resizes := s.resizes ++ [(cols, rows)] }
    exact ⟨hdisplace.screen, hdisplace.carries⟩

theorem requestJiggle_screen (s : HostState G) :
    view s.requestJiggle = (view s).requestJiggle ∧ Carries s s.requestJiggle := by
  unfold HostState.requestJiggle Screen.requestJiggle
  rw [apply_ite view]
  refine ⟨rfl, ?_⟩
  split <;> exact Carries.refl s

theorem handOver_does (env : HostEnv G) (s : HostState G) (viewerId : String)
    (cols rows : UInt16) :
    Does [.handOver viewerId cols rows] s
      ({ s with controllerId := some viewerId }.setPtySize env cols rows) := by
  obtain ⟨hscreen, hcarries⟩ :=
    setPtySize_screen env { s with controllerId := some viewerId } cols rows
  exact ⟨hscreen, hcarries⟩

theorem takeControl_does (env : HostEnv G) {s : HostState G} {viewerId : String}
    {cols rows : UInt16} (h : s.surfaceSize viewerId = some (cols, rows)) :
    Does [.take viewerId cols rows] s (s.takeControl env viewerId) := by
  have hover := handOver_does env s viewerId cols rows
  have happlied :
      ({ s with controllerId := some viewerId }.setPtySize env cols rows).appliedCols = cols ∧
        ({ s with controllerId := some viewerId }.setPtySize env cols rows).appliedRows = rows :=
    ⟨(setPtySize_keeps env _ cols rows).2.1, (setPtySize_keeps env _ cols rows).2.2⟩
  simp only [HostState.takeControl, h, happlied.1, happlied.2]
  refine Does.then_quiet ?_ (broadcastControl_does _)
  by_cases hsame : viewerId ≠ "local" ∧ (cols, rows) = (s.appliedCols, s.appliedRows)
  · rw [if_pos hsame]
    obtain ⟨hscreen, hcarries⟩ := requestJiggle_screen
      ({ s with controllerId := some viewerId }.setPtySize env cols rows)
    refine ⟨?_, hover.carries.trans hcarries⟩
    rw [hscreen, hover.screen]
    exact (if_pos (α := Screen) hsame).symm
  · rw [if_neg hsame]
    refine ⟨?_, hover.carries⟩
    rw [hover.screen]
    exact (if_neg (α := Screen) hsame).symm

theorem applyAttention_does (env : HostEnv G) (s : HostState G) (payload : AttentionPayload)
    (source : HostState.AttentionSource) (fp : String) (stored : Option SessionStatus) :
    Does [] s (s.applyAttention env payload source fp stored) := by
  unfold HostState.applyAttention
  (repeat' split) <;> exact ⟨rfl, Carries.refl s⟩

theorem idleSample_does (env : HostEnv G) (s : HostState G) (stored : Option SessionStatus) :
    Does [] s (s.idleSample env stored) := by
  unfold HostState.idleSample
  split
  · exact Does.refl s
  · dsimp only
    split
    · exact ⟨rfl, Carries.refl s⟩
    · next transition detector _ =>
      obtain ⟨hscreen, hcarries⟩ := applyAttention_does env { s with idleDetector := detector }
        ⟨transition.needsAttention, transition.reason, none⟩ .detector (env.fingerprint s.grid)
        stored
      exact ⟨hscreen, hcarries⟩

theorem handleOutput_does (env : HostEnv G) (s : HostState G) (data : List UInt8)
    (headless : Bool) : Does [] s (s.handleOutput env data headless) := by
  unfold HostState.handleOutput
  dsimp only
  split <;> exact ⟨rfl, .of_subset (List.filter_subset_self _)⟩

theorem restoreLocal_screen (s : HostState G) : view s.restoreLocal = (view s).restore := by
  have hdecision : localRestoreDecision (view s).restoreAt (view s).nowMs (view s).exceeded =
      localRestoreDecision s.localRestoreAt s.nowMs s.localTerminalExceeded := rfl
  unfold HostState.restoreLocal Screen.restore
  rw [hdecision]
  cases localRestoreDecision s.localRestoreAt s.nowMs s.localTerminalExceeded with
  | notDue => rfl
  | skipOvergrown => rfl
  | repaint => exact (requestJiggle_screen _).1

theorem jiggleTick_screen (s : HostState G) : view s.jiggleTick = (view s).jiggle := by
  have hpending : (view s).pendingJiggle = s.pendingJiggle := rfl
  unfold HostState.jiggleTick Screen.jiggle
  rw [hpending]
  cases s.pendingJiggle with
  | none => rfl
  | some leg => rfl

theorem restoreTick_does (s : HostState G) : Does [.tick] s s.restoreTick := by
  refine ⟨?_, .of_subset (restoreTick_keeps s).1.toKeeps.clients.subset⟩
  change view s.restoreTick = (view s).tick
  unfold HostState.restoreTick
  rw [apply_ite view, jiggleTick_screen, restoreLocal_screen]
  rfl

/-- A client that joins is told the controller and makes the local terminal look again. -/
theorem writeInitialFrames_does (s : HostState G) (n : ClientId) :
    Does [] s (s.writeInitialFrames n) ∨ Does [.displace] s (s.writeInitialFrames n) := by
  unfold HostState.writeInitialFrames
  split
  · exact .inl (Does.refl s)
  · split
    · exact .inl (Does.refl s)
    · right
      dsimp only
      have hjoin : Does [] s ({ s with nextSeq := s.nextSeq + 1 }.modifyClient n fun c =>
          { c with inClients := true, seq := s.nextSeq }) := by
        refine ⟨rfl, fun p hp => ?_⟩
        obtain ⟨q, hq, rfl⟩ := List.mem_map.mp hp
        refine ⟨q, hq, ?_⟩
        split <;> exact ⟨rfl, rfl, rfl, rfl⟩
      have htold := ((hjoin.trans (writeReplay_does _ n)).trans
        (updateLocalDisplaced_does _)).then_quiet (broadcastControl_does _)
      split
      · refine Does.then_quiet ?_ (removeClient_does _ n)
        split
        · exact htold.then_quiet (sendToClient_does _ n _)
        · exact htold
      · exact htold

/-! ## Resizes and lost controllers -/

/-- The frame or local event that reports a size, floored at one. -/
def Reports : Event → UInt16 → UInt16 → Prop
  | .frame _ (.resize size) _, cols, rows => cols = max1 size.cols ∧ rows = max1 size.rows
  | .localResize c r, cols, rows => cols = max1 c ∧ rows = max1 r
  | _, _, _ => False

theorem recordSize_screen (s : HostState G) (viewerId : String) (cols rows : UInt16) :
    view (s.recordSize viewerId cols rows) = (view s).recordLocal viewerId cols rows := by
  by_cases h : viewerId = "local"
  · simp only [HostState.recordSize, Screen.recordLocal, if_pos h]
    rfl
  · simp only [HostState.recordSize, Screen.recordLocal, if_neg h]
    rfl

theorem applyResize_screen (env : HostEnv G) (s : HostState G) (size : ResizePayload) :
    view (s.applyResize env size) =
      (view s).resize (size.viewerId.getD "local") (max1 size.cols) (max1 size.rows) := by
  unfold HostState.applyResize Screen.resize
  dsimp only
  rw [(broadcastControl_does _).screen]
  change view (ite _ _ (ite _ _ _)) = _
  have hclaim : view ((s.recordSize (size.viewerId.getD "local") (max1 size.cols)
      (max1 size.rows)).claimControl (size.viewerId.getD "local")) =
        ((view s).recordLocal (size.viewerId.getD "local") (max1 size.cols)
          (max1 size.rows)).claim (size.viewerId.getD "local") := by
    rw [← recordSize_screen]
    unfold HostState.claimControl Screen.claim
    rw [apply_ite view]
    rfl
  rw [← hclaim]
  rw [apply_ite view, apply_ite view, (setPtySize_screen env _ _ _).1,
    (updateLocalDisplaced_does _).screen]
  rfl

theorem mem_modifyFirst {viewerId : String} {f : Client → Client}
    {clients : List (ClientId × Client)} {p : ClientId × Client}
    (h : p ∈ HostState.modifyFirst viewerId f clients) :
    p ∈ clients ∨ ∃ q ∈ clients, q.2.viewerId = viewerId ∧ p = (q.1, f q.2) := by
  induction clients with
  | nil => exact absurd h List.not_mem_nil
  | cons q clients ih =>
    rw [HostState.modifyFirst] at h
    split at h
    · next hid =>
      rcases List.mem_cons.mp h with rfl | hrest
      · exact .inr ⟨q, List.mem_cons_self, hid, rfl⟩
      · exact .inl (List.mem_cons_of_mem _ hrest)
    · rcases List.mem_cons.mp h with rfl | hrest
      · exact .inl List.mem_cons_self
      · rcases ih hrest with hold | ⟨r, hr, hid, heq⟩
        · exact .inl (List.mem_cons_of_mem _ hold)
        · exact .inr ⟨r, List.mem_cons_of_mem _ hr, hid, heq⟩

/-- Clients keep their ids, and a size is kept or the reported one. -/
def Resized (cols rows : UInt16) (s t : HostState G) : Prop :=
  ∀ p ∈ t.clients, ∃ q ∈ s.clients, p.1 = q.1 ∧ p.2.viewerId = q.2.viewerId ∧
    (p.2.cols = q.2.cols ∧ p.2.rows = q.2.rows ∨ p.2.cols = cols ∧ p.2.rows = rows)

theorem Resized.carries {cols rows : UInt16} {s t u : HostState G} (h : Resized cols rows s t)
    (k : Carries t u) : Resized cols rows s u := by
  intro p hp
  obtain ⟨q, hq, hkey, hid, hcols, hrows⟩ := k p hp
  obtain ⟨r, hr, hkey', hid', hsize⟩ := h q hq
  refine ⟨r, hr, hkey.trans hkey', hid.trans hid', ?_⟩
  rw [hcols, hrows]
  exact hsize

theorem applyResize_resized (env : HostEnv G) (s : HostState G) (size : ResizePayload) :
    Resized (max1 size.cols) (max1 size.rows) s (s.applyResize env size) := by
  have hrecord : Resized (max1 size.cols) (max1 size.rows) s
      ((s.recordSize (size.viewerId.getD "local") (max1 size.cols) (max1 size.rows)).claimControl
        (size.viewerId.getD "local")) := by
    intro p hp
    have hmem : p ∈ HostState.modifyFirst (size.viewerId.getD "local")
        (fun c => { c with cols := max1 size.cols, rows := max1 size.rows }) s.clients := by
      unfold HostState.claimControl HostState.recordSize at hp
      (repeat' split at hp) <;> exact hp
    rcases mem_modifyFirst hmem with hold | ⟨q, hq, -, rfl⟩
    · exact ⟨p, hold, rfl, rfl, .inl ⟨rfl, rfl⟩⟩
    · exact ⟨q, hq, rfl, rfl, .inr ⟨rfl, rfl⟩⟩
  unfold HostState.applyResize
  dsimp only
  refine Resized.carries ?_ (broadcastControl_does _).carries
  split
  · exact hrecord.carries (setPtySize_screen env _ _ _).2
  · split
    · exact hrecord.carries (updateLocalDisplaced_does _).carries
    · exact hrecord

/-- The surface of a socket client. -/
def surfaceOf (p : ClientId × Client) : Surface :=
  ⟨p.2.viewerId, p.2.kind, p.2.cols, p.2.rows, p.2.seq⟩

theorem mem_surfaces {s : HostState G} {next : Surface} (h : next ∈ s.surfaces) :
    (∃ p ∈ s.clients, p.2.inClients = true ∧ next = surfaceOf p) ∨
      s.localAttached = true ∧ next = ⟨"local", .terminal, s.hostCols, s.hostRows, 0⟩ := by
  rcases List.mem_append.mp h with hclient | hlocal
  · obtain ⟨p, hp, rfl⟩ := List.mem_map.mp hclient
    obtain ⟨hmem, hin⟩ := List.mem_filter.mp hp
    exact .inl ⟨p, hmem, hin, rfl⟩
  · split at hlocal
    · next hattached => exact .inr ⟨hattached, List.mem_singleton.mp hlocal⟩
    · exact absurd hlocal List.not_mem_nil

theorem surfaces_ne_nil {s : HostState G} (h : s.localAttached = true) : s.surfaces ≠ [] := by
  unfold HostState.surfaces
  rw [if_pos h]
  exact List.append_ne_nil_of_right_ne_nil _ (List.cons_ne_nil _ _)

/-- Nobody is left, or the chosen surface takes over at its size. -/
theorem recomputeController_does (env : HostEnv G) (s : HostState G) :
    Does [] s (s.recomputeController env) ∨
      s.controllerPresent = false ∧
        (s.localAttached = false ∧ Does [.abandon] s (s.recomputeController env) ∨
          ∃ next, chooseController s.surfaces = some next ∧
            Does [.handOver next.id (max1 next.cols) (max1 next.rows)] s
              (s.recomputeController env)) := by
  unfold HostState.recomputeController
  by_cases hpresent : s.controllerPresent
  · rw [if_pos hpresent]
    exact .inl (Does.refl s)
  · rw [if_neg hpresent]
    refine .inr ⟨Bool.not_eq_true _ ▸ hpresent, ?_⟩
    cases hchoose : chooseController s.surfaces with
    | none =>
      refine .inl ⟨?_, ⟨rfl, Carries.refl s⟩⟩
      rw [chooseController_eq_none] at hchoose
      cases hattached : s.localAttached with
      | false => rfl
      | true => exact absurd hchoose (surfaces_ne_nil hattached)
    | some next =>
      exact .inr ⟨next, rfl, (handOver_does env s next.id _ _).then_quiet
        (broadcastControl_does _)⟩

end Climon.Session.ScreenView
