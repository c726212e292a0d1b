import Climon.Session.Handoff
import Climon.Session.ScreenView

namespace Climon.Session.ScreenMoves

open Climon.Lib.Transition Climon.Proto.Frame Climon.Proto.Meta Climon.Session.Control
  Climon.Session.Host Climon.Session.Surfaces Climon.Session.ScreenView

/-! # What an event does to the screen and to the clients -/

variable {G : Type}

/-- The state a disconnect leaves before a new controller is looked for. -/
def departed (s : HostState G) (n : ClientId) : HostState G :=
  { s with readers := s.readers.filter (· != n) }.removeClient n

/-- Why an event makes a move. -/
inductive Cause (s : HostState G) : Event → Move → Prop where
  | displace (e : Event) : Cause s e .displace
  | localResize (cols rows : UInt16) :
      Cause s (.localResize cols rows) (.resize "local" (max1 cols) (max1 rows))
  | resize {n : ClientId} {c : Client} {size : ResizePayload} {stored : Option SessionStatus} :
      s.getClient n = some c →
      Cause s (.frame n (.resize size) stored)
        (.resize (stampedId c size) (max1 size.cols) (max1 size.rows))
  | resizeDropped {n : ClientId} {size : ResizePayload} {stored : Option SessionStatus} :
      s.getClient n = none →
      Cause s (.frame n (.resize size) stored)
        (.resize (size.viewerId.getD "local") (max1 size.cols) (max1 size.rows))
  | localTake (bytes : List UInt8) :
      s.localOutputSuppressed = true →
      Cause s (.localStdin bytes) (.take "local" (max1 s.hostCols) (max1 s.hostRows))
  | take {n : ClientId} {c : Client} {cols rows : UInt16} {stored : Option SessionStatus} :
      s.getClient n = some c → s.surfaceSize c.viewerId = some (cols, rows) →
      Cause s (.frame n .takeControl stored) (.take c.viewerId cols rows)
  | handOver {n : ClientId} {next : Surface} :
      (departed s n).controllerPresent = false →
      chooseController (departed s n).surfaces = some next →
      Cause s (.disconnect n) (.handOver next.id (max1 next.cols) (max1 next.rows))
  | abandon {n : ClientId} : s.localAttached = false → Cause s (.disconnect n) .abandon
  | tick : Cause s .restoreTick .tick
  | clock (now : Int) : Cause s (.clock now) (.clock now)
  | exit (exitCode : Int32) : Cause s (.exit exitCode) .exit

/-- At most one move, and a look at the displacement when a client joins after it. -/
inductive Moves (s : HostState G) (e : Event) (t : HostState G) : Prop where
  | stay : view t = view s → Moves s e t
  | move (m : Move) : Cause s e m → view t = (view s).apply m → Moves s e t
  | joined (m : Move) : Cause s e m → view t = ((view s).apply m).displace → Moves s e t

theorem Moves.quiet {s t : HostState G} {e : Event} (h : Does [] s t) : Moves s e t :=
  .stay h.screen

theorem Moves.single {s t : HostState G} {e : Event} {m : Move} (h : Does [m] s t)
    (hcause : Cause s e m) : Moves s e t := .move m hcause h.screen

theorem writeInitialFrames_screen (s : HostState G) (n : ClientId) :
    view (s.writeInitialFrames n) = view s ∨
      view (s.writeInitialFrames n) = (view s).displace := by
  rcases writeInitialFrames_does s n with h | h
  · exact .inl h.screen
  · exact .inr h.screen

theorem stampResize_screen (s : HostState G) (n : ClientId) (size : ResizePayload) :
    view (s.stampResize n size).1 = view s := by
  unfold HostState.stampResize
  split <;> rfl

theorem resizeFrame_moves (env : HostEnv G) (s : HostState G) (n : ClientId)
    (size : ResizePayload) (stored : Option SessionStatus) :
    Moves s (.frame n (.resize size) stored) (s.handleFrame env n stored (.resize size)) := by
  have hscreen := applyResize_screen env (s.stampResize n size).1 (s.stampResize n size).2
  rw [stampResize_screen] at hscreen
  have hcause : Cause s (.frame n (.resize size) stored)
      (.resize ((s.stampResize n size).2.viewerId.getD "local")
        (max1 (s.stampResize n size).2.cols) (max1 (s.stampResize n size).2.rows)) := by
    unfold HostState.stampResize
    cases hclient : s.getClient n with
    | none => exact .resizeDropped hclient
    | some c => exact .resize hclient
  rcases writeInitialFrames_screen ((s.stampResize n size).1.applyResize env
      (s.stampResize n size).2) n with hsame | hdisplace
  · exact .move _ hcause (hsame.trans hscreen)
  · refine .joined _ hcause (hdisplace.trans ?_)
    rw [hscreen]
    rfl

theorem handleFrame_moves (env : HostEnv G) (s : HostState G) (n : ClientId) (frame : ClientFrame)
    (stored : Option SessionStatus) :
    Moves s (.frame n frame stored) (s.handleFrame env n stored frame) := by
  cases frame with
  | input payload =>
    simp only [HostState.handleFrame]
    split
    · exact .quiet (applyAttention_does env s _ _ _ _)
    · exact .quiet (Does.refl s)
  | resize size => exact resizeFrame_moves env s n size stored
  | takeControl =>
    simp only [HostState.handleFrame]
    split
    · exact .quiet (Does.refl s)
    · next c hclient =>
      split
      · exact .quiet (Does.refl s)
      · cases hsize : s.surfaceSize c.viewerId with
        | none =>
          simp only [HostState.takeControl, hsize]
          exact .quiet (Does.refl s)
        | some size => exact .single (takeControl_does env hsize) (.take hclient hsize)
  | attention payload =>
    have hquiet := applyAttention_does env s payload .user (env.fingerprint s.grid) stored
    rcases writeInitialFrames_screen
        (s.applyAttention env payload .user (env.fingerprint s.grid) stored) n with
      hsame | hdisplace
    · exact .stay (hsame.trans hquiet.screen)
    · refine .move .displace (.displace _) (hdisplace.trans ?_)
      rw [hquiet.screen]
      rfl
  | replay => exact .quiet (writeReplay_does s n)
  | other => exact .quiet (Does.refl s)

theorem teardown_screen (env : HostEnv G) (s : HostState G) (exitCode : Int32) :
    view (s.teardown env exitCode) = (view s).exit := by
  unfold HostState.teardown Screen.exit
  change view (ite _ _ _) = _
  rw [apply_ite view]
  rfl

theorem handle_moves (env : HostEnv G) (s : HostState G) (e : Event) :
    Moves s e (handle env s e) := by
  cases e with
  | connect => exact .stay rfl
  | initialFramesTimer n =>
    rcases writeInitialFrames_screen s n with hsame | hdisplace
    · exact .stay hsame
    · exact .move .displace (.displace _) hdisplace
  | frame n frame stored => exact handleFrame_moves env s n frame stored
  | disconnect n =>
    rcases recomputeController_does env (departed s n) with
      hquiet | ⟨habsent, ⟨hattached, habandon⟩ | ⟨next, hchoose, hover⟩⟩
    · exact .stay hquiet.screen
    · exact .move .abandon (.abandon hattached) habandon.screen
    · exact .move _ (.handOver habsent hchoose) hover.screen
  | writerDies n => exact .stay rfl
  | localResize cols rows => exact .move _ (.localResize cols rows) (applyResize_screen env s _)
  | localStdin bytes =>
    simp only [handle, HostState.localStdin]
    split
    · next haction =>
      have hsuppressed : s.localOutputSuppressed = true := by
        unfold localStdinAction at haction
        split at haction
        · assumption
        · cases haction
      exact .single (takeControl_does env rfl) (.localTake bytes hsuppressed)
    · exact .stay rfl
    · exact .stay rfl
  | output data => exact .quiet (handleOutput_does env s data _)
  | restoreTick => exact .single (restoreTick_does s) .tick
  | idleSample stored => exact .quiet (idleSample_does env s stored)
  | clock now => exact .move _ (.clock now) rfl
  | exit exitCode => exact .move _ (.exit exitCode) (teardown_screen env s exitCode)

/-- A relation that every caused move and every look at the displacement keeps. -/
theorem Moves.relates {R : Screen → Screen → Prop} {s t : HostState G} {e : Event}
    (h : Moves s e t) (hrefl : R (view s) (view s))
    (hmove : ∀ m, Cause s e m → R (view s) ((view s).apply m))
    (hjoin : ∀ v, R (view s) v → R (view s) v.displace) : R (view s) (view t) := by
  cases h with
  | stay heq =>
    rw [heq]
    exact hrefl
  | move m hcause heq =>
    rw [heq]
    exact hmove m hcause
  | joined m hcause heq =>
    rw [heq]
    exact hjoin _ (hmove m hcause)

/-! ## Clients -/

def Renames (e : Event) (q p : ClientId × Client) : Prop :=
  p.2.viewerId = q.2.viewerId ∨
    ∃ size stored, e = .frame q.1 (.resize size) stored ∧ p.2.viewerId = stampedId q.2 size

/-- Where a client of the next state comes from. -/
def Origin (s : HostState G) (e : Event) (p : ClientId × Client) : Prop :=
  (e = .connect ∧ p.2.viewerId = s!"client-{s.clientSeq}" ∧ p.2.cols = 0 ∧ p.2.rows = 0) ∨
    ∃ q ∈ s.clients, p.1 = q.1 ∧ Renames e q p ∧
      (p.2.cols = q.2.cols ∧ p.2.rows = q.2.rows ∨ Reports e p.2.cols p.2.rows)

theorem Origin.of_carries {s t : HostState G} {e : Event} (h : Carries s t) :
    ∀ p ∈ t.clients, Origin s e p := by
  intro p hp
  obtain ⟨q, hq, hkey, hid, hcols, hrows⟩ := h p hp
  exact .inr ⟨q, hq, hkey, .inl hid, .inl ⟨hcols, hrows⟩⟩

theorem writeInitialFrames_carries (s : HostState G) (n : ClientId) :
    Carries s (s.writeInitialFrames n) := by
  rcases writeInitialFrames_does s n with h | h
  · exact h.carries
  · exact h.carries

theorem mem_stampResize {s : HostState G} {n : ClientId} {size : ResizePayload}
    {p : ClientId × Client} (hkeys : (keys s).Nodup) (h : p ∈ (s.stampResize n size).1.clients) :
    ∃ q ∈ s.clients, p.1 = q.1 ∧ p.2.cols = q.2.cols ∧ p.2.rows = q.2.rows ∧
      (p.2.viewerId = q.2.viewerId ∨ q.1 = n ∧ p.2.viewerId = stampedId q.2 size) := by
  unfold HostState.stampResize at h
  split at h
  · exact ⟨p, h, rfl, rfl, rfl, .inl rfl⟩
  · next c hclient =>
    obtain ⟨q, hq, rfl⟩ := List.mem_map.mp h
    refine ⟨q, hq, ?_⟩
    split
    · next hkey =>
      have heq : q = (n, c) :=
        List.inj_on_of_nodup_map hkeys hq (mem_of_getClient hclient) hkey
      refine ⟨rfl, rfl, rfl, .inr ⟨hkey, ?_⟩⟩
      rw [heq]
    · exact ⟨rfl, rfl, rfl, .inl rfl⟩

theorem resizeFrame_origin (env : HostEnv G) {s : HostState G} (hkeys : (keys s).Nodup)
    (n : ClientId) (size : ResizePayload) (stored : Option SessionStatus) :
    ∀ p ∈ (s.handleFrame env n stored (.resize size)).clients,
      Origin s (.frame n (.resize size) stored) p := by
  intro p hp
  have hresized := (applyResize_resized env (s.stampResize n size).1
    (s.stampResize n size).2).carries (writeInitialFrames_carries _ n)
  obtain ⟨r, hr, hkey, hid, hsize⟩ := hresized p hp
  obtain ⟨q, hq, hkey', hcols, hrows, hstamp⟩ := mem_stampResize hkeys hr
  refine .inr ⟨q, hq, hkey.trans hkey', ?_, ?_⟩
  · rcases hstamp with hsame | ⟨rfl, hstamped⟩
    · exact .inl (hid.trans hsame)
    · exact .inr ⟨size, stored, rfl, hid.trans hstamped⟩
  · rcases hsize with ⟨hsameCols, hsameRows⟩ | ⟨hnewCols, hnewRows⟩
    · exact .inl ⟨hsameCols.trans hcols, hsameRows.trans hrows⟩
    · refine .inr ⟨hnewCols.trans ?_, hnewRows.trans ?_⟩ <;>
        (unfold HostState.stampResize; split <;> rfl)

theorem handleFrame_origin (env : HostEnv G) {s : HostState G} (hkeys : (keys s).Nodup)
    (n : ClientId) (frame : ClientFrame) (stored : Option SessionStatus) :
    ∀ p ∈ (s.handleFrame env n stored frame).clients, Origin s (.frame n frame stored) p := by
  cases frame with
  | input payload =>
    apply Origin.of_carries
    simp only [HostState.handleFrame]
    split
    · exact (applyAttention_does env s _ _ _ _).carries
    · exact Carries.refl s
  | resize size => exact resizeFrame_origin env hkeys n size stored
  | takeControl =>
    apply Origin.of_carries
    simp only [HostState.handleFrame]
    split
    · exact Carries.refl s
    · next c hclient =>
      split
      · exact Carries.refl s
      · cases hsize : s.surfaceSize c.viewerId with
        | none =>
          simp only [HostState.takeControl, hsize]
          exact Carries.refl s
        | some size => exact (takeControl_does env hsize).carries
  | attention payload =>
    exact Origin.of_carries
      ((applyAttention_does env s _ _ _ _).carries.trans (writeInitialFrames_carries _ n))
  | replay => exact Origin.of_carries (writeReplay_does s n).carries
  | other => exact Origin.of_carries (Carries.refl s)

theorem handle_origin (env : HostEnv G) {s : HostState G} (hkeys : (keys s).Nodup) (e : Event) :
    ∀ p ∈ (handle env s e).clients, Origin s e p := by
  cases e with
  | connect =>
    intro p hp
    rcases List.mem_cons.mp hp with rfl | hold
    · exact .inl ⟨rfl, rfl, rfl, rfl⟩
    · exact .inr ⟨p, hold, rfl, .inl rfl, .inl ⟨rfl, rfl⟩⟩
  | initialFramesTimer n => exact Origin.of_carries (writeInitialFrames_carries s n)
  | frame n frame stored => exact handleFrame_origin env hkeys n frame stored
  | disconnect n =>
    have hdeparted : Carries s (departed s n) := .of_subset (List.filter_subset_self _)
    apply Origin.of_carries
    rcases recomputeController_does env (departed s n) with
      hquiet | ⟨-, ⟨-, habandon⟩ | ⟨next, -, hover⟩⟩
    · exact hdeparted.trans hquiet.carries
    · exact hdeparted.trans habandon.carries
    · exact hdeparted.trans hover.carries
  | writerDies n => exact Origin.of_carries (.of_subset fun _ hp => hp)
  | localResize cols rows =>
    intro p hp
    obtain ⟨q, hq, hkey, hid, hsize⟩ := applyResize_resized env s _ p hp
    exact .inr ⟨q, hq, hkey, .inl hid, hsize⟩
  | localStdin bytes =>
    apply Origin.of_carries
    simp only [handle, HostState.localStdin]
    split
    · exact (takeControl_does env rfl).carries
    · exact Carries.refl s
    · exact Carries.refl s
  | output data => exact Origin.of_carries (handleOutput_does env s data _).carries
  | restoreTick => exact Origin.of_carries (restoreTick_does s).carries
  | idleSample stored => exact Origin.of_carries (idleSample_does env s stored).carries
  | clock now => exact Origin.of_carries (.of_subset fun _ hp => hp)
  | exit exitCode => exact fun p hp => absurd hp List.not_mem_nil

end Climon.Session.ScreenMoves
