import Climon.Session.AttachRuns
import Climon.Session.HandoffRuns
import Climon.Session.ScreenMoves

namespace Climon.Session.LocalSurface

open Climon.Lib.Transition Climon.Proto.Frame Climon.Proto.Meta Climon.Session.Host
  Climon.Session.Surfaces Climon.Session.AttachStream Climon.Session.AttachRuns
  Climon.Session.HandoffRuns Climon.Session.ScreenView Climon.Session.ScreenMoves

/-! # No socket client speaks for the local terminal -/

variable {G : Type}

/-! ## Moves in the name of a socket client -/

/-- The local size stays, the local terminal is not made the controller, and the PTY is resized
for another controller only. -/
structure Spares (v w : Screen) : Prop where
  hostCols : w.hostCols = v.hostCols
  hostRows : w.hostRows = v.hostRows
  controller : w.controllerId = some "local" → v.controllerId = some "local"
  resizes : w.resizes ≠ v.resizes → w.controllerId ≠ some "local"

theorem Spares.refl (v : Screen) : Spares v v := ⟨rfl, rfl, id, fun h => absurd rfl h⟩

theorem Spares.trans {v w x : Screen} (h : Spares v w) (k : Spares w x) : Spares v x where
  hostCols := k.hostCols.trans h.hostCols
  hostRows := k.hostRows.trans h.hostRows
  controller := fun hx => h.controller (k.controller hx)
  resizes := by
    intro hne hx
    by_cases hsame : x.resizes = w.resizes
    · exact h.resizes (hsame ▸ hne) (k.controller hx)
    · exact k.resizes hsame hx

theorem spares_displace (v : Screen) : Spares v v.displace := by
  obtain ⟨_, _, _, heq⟩ := v.displace_eq
  rw [heq]
  exact ⟨rfl, rfl, id, fun h => absurd rfl h⟩

theorem spares_setSize (v : Screen) (cols rows : UInt16) (h : v.controllerId ≠ some "local") :
    Spares v (v.setSize cols rows) := by
  refine Spares.trans ?_ (spares_displace _)
  exact ⟨rfl, rfl, id, fun _ => h⟩

theorem spares_handOver (v : Screen) {viewerId : String} (cols rows : UInt16)
    (h : viewerId ≠ "local") : Spares v (v.handOver viewerId cols rows) := by
  have hother : some viewerId ≠ some "local" := fun heq => h (Option.some.inj heq)
  refine Spares.trans ?_ (spares_setSize _ cols rows hother)
  exact ⟨rfl, rfl, fun heq => absurd heq hother, fun hne => absurd rfl hne⟩

theorem spares_take (v : Screen) {viewerId : String} (cols rows : UInt16)
    (h : viewerId ≠ "local") : Spares v (v.take viewerId cols rows) := by
  unfold Screen.take
  split
  · refine (spares_handOver v cols rows h).trans ?_
    unfold Screen.requestJiggle
    split
    · exact ⟨rfl, rfl, id, fun hne => absurd rfl hne⟩
    · exact Spares.refl _
  · exact spares_handOver v cols rows h

theorem spares_resize (v : Screen) {viewerId : String} (cols rows : UInt16)
    (h : viewerId ≠ "local") : Spares v (v.resize viewerId cols rows) := by
  have hother : some viewerId ≠ some "local" := fun heq => h (Option.some.inj heq)
  unfold Screen.resize
  dsimp only
  rw [Screen.recordLocal, if_neg h, if_neg h]
  have hclaim : Spares v (v.claim viewerId) := by
    unfold Screen.claim
    split
    · exact ⟨rfl, rfl, fun heq => absurd heq hother, fun hne => absurd rfl hne⟩
    · exact Spares.refl v
  split
  · next hcontroller =>
    exact hclaim.trans (spares_setSize _ cols rows (hcontroller ▸ hother))
  · exact hclaim

/-! ## Frames -/

/-- A resize comes from a client in the map, or names a surface that is not the local one. -/
def Stamped (s : HostState G) : Event → Prop
  | .frame n (.resize size) _ =>
    n ∈ keys s ∨ ∃ viewerId, size.viewerId = some viewerId ∧ viewerId ≠ "local"
  | _ => True

/-- No client goes by the id of the local terminal. -/
def RemoteIds (s : HostState G) : Prop := ∀ p ∈ s.clients, p.2.viewerId ≠ "local"

theorem RemoteIds.perm {s : HostState G} (h : RemoteIds s) {clients : List (ClientId × Client)}
    (hp : clients.Perm s.clients) : RemoteIds { s with clients := clients } :=
  fun p hmem => h p (hp.subset hmem)

theorem RemoteIds.handle {env : HostEnv G} {s : HostState G} (h : RemoteIds s)
    (hkeys : (keys s).Nodup) (e : Event) : RemoteIds (handle env s e) := by
  intro p hp
  rcases handle_origin env hkeys e p hp with ⟨-, hid, -⟩ | ⟨q, hq, -, hsame | ⟨size, -, -, hid⟩, -⟩
  · rw [hid]
    exact client_ne_local s.clientSeq
  · rw [hsame]
    exact h q hq
  · rw [hid]
    exact stampedId_ne_local _ (h q hq)

theorem RemoteIds.step {env : HostEnv G} {past : List (List UInt8)} {s t : HostState G} {e : Event}
    (h : RemoteIds s) (hstreams : Streams past s) (hstep : Step env s e t) : RemoteIds t := by
  obtain ⟨-, clients, hperm, rfl⟩ := hstep
  exact (h.perm hperm).handle (((hperm.map _).nodup_iff).mpr hstreams.keysNodup) e

theorem frame_spares (env : HostEnv G) {s : HostState G} (hids : RemoteIds s) {n : ClientId}
    {frame : ClientFrame} {stored : Option SessionStatus}
    (hstamped : Stamped s (.frame n frame stored)) :
    Spares (view s) (view (handle env s (.frame n frame stored))) := by
  refine (handle_moves env s (.frame n frame stored)).relates (Spares.refl _) (fun m hm => ?_)
    fun v hv => hv.trans (spares_displace v)
  cases hm with
  | displace => exact spares_displace _
  | resize hclient =>
    exact spares_resize _ _ _ (stampedId_ne_local _ (hids _ (mem_of_getClient hclient)))
  | resizeDropped hclient =>
    rcases hstamped with hkey | ⟨viewerId, hviewer, hremote⟩
    · obtain ⟨p, hp, rfl⟩ := List.mem_map.mp hkey
      have hsome := getClient_isSome hp
      rw [hclient] at hsome
      exact absurd hsome Bool.false_ne_true
    · rw [hviewer]
      exact spares_resize _ _ _ hremote
  | take hclient => exact spares_take _ _ _ (hids _ (mem_of_getClient hclient))

/-! ## Runs -/

def localResize : Event → Option (UInt16 × UInt16)
  | .localResize cols rows => some (max1 cols, max1 rows)
  | _ => none

/-- The size the local terminal reported last. -/
def localSize (start : UInt16 × UInt16) (es : List Event) : UInt16 × UInt16 :=
  ((es.filterMap localResize).getLast?).getD start

def hostSize (s : HostState G) : UInt16 × UInt16 := (s.hostCols, s.hostRows)

theorem localSize_concat (start : UInt16 × UInt16) (past : List Event) (e : Event) :
    localSize start (past ++ [e]) = (localResize e).getD (localSize start past) := by
  unfold localSize
  rw [List.filterMap_append]
  cases h : localResize e with
  | none => rw [List.filterMap_cons_none h, List.filterMap_nil, List.append_nil]; rfl
  | some size => rw [List.filterMap_cons_some h, List.filterMap_nil, List.getLast?_concat]; rfl

/-- An event that is not a socket frame sets the local size to what the local terminal reports. -/
theorem hostSize_handle (env : HostEnv G) (s : HostState G) {e : Event}
    (h : ∀ n frame stored, e ≠ .frame n frame stored) :
    hostSize (handle env s e) = (localResize e).getD (hostSize s) := by
  cases hlocal : localResize e with
  | some size =>
    cases e with
    | localResize cols rows =>
      cases hlocal
      have hscreen := applyResize_screen env s ⟨cols, rows, some .terminal, some "local"⟩
      exact (congrArg Screen.hostSize hscreen).trans (Screen.hostSize_resize _ _ _ _)
    | _ => cases hlocal
  | none =>
    refine (handle_moves env s e).relates (R := fun v w => w.hostSize = v.hostSize) rfl
      (fun m hm => ?_) fun v hv => (Screen.hostSize_displace v).trans hv
    cases hm with
    | localResize => cases hlocal
    | resize => exact absurd rfl (h _ _ _)
    | resizeDropped => exact absurd rfl (h _ _ _)
    | abandon => rfl
    | clock => rfl
    | _ => simp [Screen.apply]

/-! ## Integrity over runs -/

structure Guarding (start : UInt16 × UInt16) (past : List Event) (s : HostState G) : Prop where
  streams : Streams (chunks past) s
  remoteIds : RemoteIds s
  hostSize : hostSize s = localSize start past

theorem Stamped.perm {s : HostState G} {e : Event} (h : Stamped s e)
    {clients : List (ClientId × Client)} (hp : clients.Perm s.clients) :
    Stamped { s with clients := clients } e := by
  cases e with
  | frame n frame stored =>
    cases frame with
    | resize size => exact h.imp (fun hkey => (hp.map _).symm.subset hkey) id
    | _ => exact trivial
  | _ => exact trivial

theorem step_spares {env : HostEnv G} {s t : HostState G} {n : ClientId} {frame : ClientFrame}
    {stored : Option SessionStatus} (hids : RemoteIds s)
    (hstamped : Stamped s (.frame n frame stored)) (h : Step env s (.frame n frame stored) t) :
    Spares (view s) (view t) := by
  obtain ⟨-, clients, hperm, rfl⟩ := h
  exact frame_spares env (hids.perm hperm) (hstamped.perm hperm)

theorem Guarding.step {env : HostEnv G} {start : UInt16 × UInt16} {past : List Event}
    {s t : HostState G} {e : Event} (h : Guarding start past s)
    (hstep : Guarded Stamped (Step env) s e t) : Guarding start (past ++ [e]) t := by
  obtain ⟨hstamped, hstep⟩ := hstep
  refine ⟨h.streams.step hstep, h.remoteIds.step h.streams hstep, ?_⟩
  rw [localSize_concat, ← h.hostSize]
  cases hframe : e with
  | frame n frame stored =>
    rw [hframe] at hstamped hstep
    have hspares := step_spares h.remoteIds hstamped hstep
    exact Prod.ext hspares.hostCols hspares.hostRows
  | _ =>
    obtain ⟨-, clients, hperm, rfl⟩ := hstep
    rw [← hframe]
    exact hostSize_handle env { s with clients := clients } (by rw [hframe]; nofun)

theorem guarding_of_run {env : HostEnv G} {launch : Launch} {cols rows : UInt16}
    {idleSeconds : Int} {snippetEnabled : Bool} {es : List Event} {s : HostState G}
    (run : Run (Guarded Stamped (Step env))
      (initialState env launch cols rows idleSeconds snippetEnabled) es s) :
    Guarding (cols, rows) es s :=
  run.history (I := Guarding (cols, rows)) (fun h hstep => h.step hstep) []
    ⟨initial_streams env launch cols rows idleSeconds snippetEnabled, nofun, rfl⟩

/-- While every resize comes from a client in the map or names another surface, no frame changes
the local size, makes the local terminal the controller or resizes the PTY for it; and the local
size is a function of the local terminal's own events, whatever the clients send. -/
theorem local_surface_integrity (env : HostEnv G) (launch : Launch) (cols rows : UInt16)
    (idleSeconds : Int) (snippetEnabled : Bool) (es : List Event) (s : HostState G)
    (run : Run (Guarded Stamped (Step env))
      (initialState env launch cols rows idleSeconds snippetEnabled) es s) :
    (∀ n frame stored t, Stamped s (.frame n frame stored) → Step env s (.frame n frame stored) t →
      t.hostCols = s.hostCols ∧ t.hostRows = s.hostRows ∧
        (t.controllerId = some "local" → s.controllerId = some "local") ∧
        (t.resizes ≠ s.resizes → t.controllerId ≠ some "local")) ∧
    ∀ es' s', Run (Guarded Stamped (Step env))
        (initialState env launch cols rows idleSeconds snippetEnabled) es' s' →
      es'.filterMap localResize = es.filterMap localResize →
      s'.hostCols = s.hostCols ∧ s'.hostRows = s.hostRows := by
  have hguarding := guarding_of_run run
  refine ⟨fun n frame stored t hstamped hstep => ?_, fun es' s' run' hlocal => ?_⟩
  · have hspares := step_spares hguarding.remoteIds hstamped hstep
    exact ⟨hspares.hostCols, hspares.hostRows, hspares.controller, hspares.resizes⟩
  · have hsame : hostSize s' = hostSize s := by
      rw [(guarding_of_run run').hostSize, hguarding.hostSize, localSize, localSize, hlocal]
    exact Prod.mk.inj hsame

/-- A dashboard that omits its viewer id resizes without touching the local size. -/
theorem local_surface_integrity_dashboard : ∃ s t,
    exec (next plainEnv) (initialState plainEnv .attached 80 24 10 false)
      [.connect, .initialFramesTimer 0] = some s ∧
    next plainEnv s (.frame 0 (.resize ⟨100, 50, none, none⟩) none) = some t ∧
    t.hostCols = s.hostCols ∧ t.hostRows = s.hostRows ∧
      (t.controllerId = some "local" → s.controllerId = some "local") ∧
      (t.resizes ≠ s.resizes → t.controllerId ≠ some "local") := by
  refine ⟨_, _, rfl, rfl, ?_⟩
  have hintegrity := local_surface_integrity plainEnv .attached 80 24 10 false
    [.connect, .initialFramesTimer 0] _
    (.cons ⟨trivial, step_of_next rfl⟩ (.cons ⟨trivial, step_of_next rfl⟩ (.nil _)))
  refine hintegrity.1 0 (.resize ⟨100, 50, none, none⟩) none _ ?_ (step_of_next rfl)
  exact Or.inl List.mem_cons_self

/-- Client 0 joins, its writer dies, and output drops it from the map. -/
def droppedClient : List Event :=
  [.connect, .initialFramesTimer 0, .writerDies 0, .output [0x61]]

/-- A dropped client's resize without a viewer id is taken for the local terminal's: it moves the
local size and the PTY. -/
theorem dropped_client_resizes_local : ∃ s t,
    exec (next plainEnv) (initialState plainEnv .attached 80 24 10 false) droppedClient = some s ∧
    next plainEnv s (.frame 0 (.resize ⟨100, 50, none, none⟩) none) = some t ∧
    t.hostCols ≠ s.hostCols ∧ t.hostRows ≠ s.hostRows ∧
    t.resizes ≠ s.resizes ∧ t.controllerId = some "local" :=
  ⟨_, _, rfl, rfl, by decide, by decide, by decide, rfl⟩

end Climon.Session.LocalSurface
