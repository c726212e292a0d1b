import Climon.Session.Handoff

namespace Climon.Session.HandoffRuns

open Climon.Lib.Transition Climon.Proto.Frame Climon.Proto.Meta Climon.Session.Control
  Climon.Session.Host Climon.Session.Surfaces Climon.Session.Handoff

variable {G : Type}

/-- The controller is connected and dictates the applied grid whenever no disconnect is
pending, and every control frame repeats the last announced size. -/
def HandoffOk (s : HostState G) : Prop :=
  (¬ Pending s → s.controllerId = none ∨
    ∃ v, s.controllerId = some v ∧ Connected s v ∧ ReportsApplied s v) ∧
  ∀ n, ControlSized (s.channels n).frames

/-- Control is handed over by everything but the exit of the child. -/
def BeforeExit : Event → Prop
  | .exit _ => False
  | _ => True

/-- A new connection's default id, or an id a client renames itself to, is nobody else's; the
controller keeps its id; and a local terminal that is not attached does not claim a free grid.
While a disconnect is pending its end repairs the latter two. -/
def Orderly (s : HostState G) : Event → Prop
  | .connect => s.controllerId ≠ some s!"client-{s.clientSeq}" ∧
      ∀ p ∈ s.clients, p.2.viewerId ≠ s!"client-{s.clientSeq}"
  | .frame n (.resize size) _ => ∀ c, (n, c) ∈ s.clients → stampedId c size ≠ c.viewerId →
      (∀ p ∈ s.clients, p.2.viewerId ≠ stampedId c size) ∧
        (s.controllerId = some c.viewerId → Pending s)
  | .localResize _ _ => s.controllerId = none → s.localAttached = true ∨ Pending s
  | _ => True

section Steps

variable (env : HostEnv G)

theorem Orderly.perm {s : HostState G} {e : Event} (h : Orderly s e)
    {clients : List (ClientId × Client)} (hp : clients.Perm s.clients) :
    Orderly { s with clients := clients } e := by
  have hpending : Pending s → Pending { s with clients := clients } :=
    fun ⟨n, hn, hkey⟩ => ⟨n, hn, fun hk => hkey ((hp.map _).subset hk)⟩
  cases e with
  | connect => exact ⟨h.1, fun p hmem => h.2 p (hp.subset hmem)⟩
  | frame n frame stored =>
    cases frame with
    | resize size =>
      intro c hc hne
      have ⟨hfree, hctl⟩ := h c (hp.subset hc) hne
      exact ⟨fun p hmem => hfree p (hp.subset hmem), fun hv => hpending (hctl hv)⟩
    | _ => trivial
  | localResize cols rows => exact fun hnone => (h hnone).imp id hpending
  | _ => trivial

theorem client_ne_local (n : Nat) : s!"client-{n}" ≠ "local" := by
  intro h
  have hchars := congrArg String.toList h
  rw [String.toList_append] at hchars
  have hhead := congrArg List.head? hchars
  have hclient : (toString "client-").toList = ['c', 'l', 'i', 'e', 'n', 't', '-'] := by decide
  rw [hclient] at hhead
  simp at hhead

theorem acceptClient_good {s : HostState G} (h : Good s) (ho : Orderly s .connect) :
    Good s.acceptClient := by
  have ⟨hctl, hfree⟩ := ho
  refine ⟨⟨h.wf.running, ?_, ?_, ?_, ?_, ?_, h.wf.suppressed⟩, ?_, ?_, ?_⟩
  · apply List.nodup_cons.mpr ⟨?_, h.wf.keysNodup⟩
    intro hmem
    obtain ⟨p, hp, hpk⟩ := List.mem_map.mp hmem
    exact Nat.ne_of_lt (h.wf.key_lt hp) hpk
  · intro n hn
    change n < s.clientSeq + 1
    rcases List.mem_cons.mp hn with rfl | hn
    · exact Nat.lt_succ_self _
    · exact Nat.lt_succ_of_lt (h.wf.readersFresh n hn)
  · intro p hp
    rcases List.mem_cons.mp hp with rfl | hp
    · exact List.mem_cons_self
    · exact List.mem_cons_of_mem _ (h.wf.reader p hp)
  · apply List.nodup_cons.mpr ⟨?_, h.wf.idsNodup⟩
    intro hmem
    obtain ⟨p, hp, hpv⟩ := List.mem_map.mp hmem
    exact hfree p hp hpv
  · intro p hp
    rcases List.mem_cons.mp hp with rfl | hp
    · exact client_ne_local s.clientSeq
    · exact h.wf.idsRemote p hp
  · intro v hv
    refine ⟨(h.sized v hv).1, ?_⟩
    intro p hp hpv
    rcases List.mem_cons.mp hp with rfl | hp
    · cases hpv
      exact absurd hv hctl
    · exact (h.sized v hv).2 p hp hpv
  · rcases h.settled with ⟨n, hn, hkey⟩ | hnone | ⟨v, hv, hlocal | ⟨p, hp, hpv⟩⟩
    · refine .inl ⟨n, List.mem_cons_of_mem _ hn, ?_⟩
      intro hk
      rcases List.mem_cons.mp hk with heq | hk
      · exact Nat.ne_of_lt (h.wf.readersFresh n hn) heq
      · exact hkey hk
    · exact .inr (.inl hnone)
    · exact .inr (.inr ⟨v, hv, .inl hlocal⟩)
    · exact .inr (.inr ⟨v, hv, .inr ⟨p, List.mem_cons_of_mem _ hp, hpv⟩⟩)
  · intro n
    by_cases hn : n = s.clientSeq
    · subst hn
      have hch : s.acceptClient.channels s.clientSeq = ⟨[], false⟩ :=
        Function.update_self _ _ _
      refine ⟨hch ▸ ControlSized.nil, ?_⟩
      intro p hp hpn hin
      rcases List.mem_cons.mp hp with rfl | hp
      · cases hin
      · exact absurd hpn (Nat.ne_of_lt (h.wf.key_lt hp))
    · apply (h.queues n).of_subset (Function.update_of_ne hn _ _)
      intro p hp hpn hin
      rcases List.mem_cons.mp hp with rfl | hp
      · exact absurd hpn.symm hn
      · exact ⟨p, hp, hpn, hin⟩

theorem handleDisconnect_good {s : HostState G} (h : Good s) (n : ClientId) :
    Good (handle env s (.disconnect n)) := by
  have hmem {p : ClientId × Client} (hp : p ∈ s.clients.filter fun p => p.1 != n) :
      p ∈ s.clients ∧ p.1 ≠ n := by
    simpa using List.mem_filter.mp hp
  have hsub : (s.clients.filter fun p => p.1 != n).Sublist s.clients := List.filter_sublist
  apply recomputeController_good
  · exact
      { running := h.wf.running
        keysNodup := h.wf.keysNodup.sublist (hsub.map _)
        readersFresh := fun m hm => h.wf.readersFresh m (List.mem_filter.mp hm).1
        reader := fun p hp => List.mem_filter.mpr
          ⟨h.wf.reader p (hmem hp).1, by simpa using (hmem hp).2⟩
        idsNodup := h.wf.idsNodup.sublist (hsub.map _)
        idsRemote := fun p hp => h.wf.idsRemote p (hmem hp).1
        suppressed := h.wf.suppressed }
  · exact fun v hv => ⟨(h.sized v hv).1, fun p hp => (h.sized v hv).2 p (hmem hp).1⟩
  · intro m
    exact ⟨(h.queues m).sized, fun p hp => (h.queues m).announced p (hmem hp).1⟩

theorem writerDies_good {s : HostState G} (h : Good s) (n : ClientId) :
    Good (handle env s (.writerDies n)) := by
  refine ⟨⟨h.wf.running, h.wf.keysNodup, h.wf.readersFresh, h.wf.reader, h.wf.idsNodup,
    h.wf.idsRemote, h.wf.suppressed⟩, h.sized, h.settled, ?_⟩
  intro m
  change Queue { s with channels := _ } s.appliedCols s.appliedRows m
  by_cases hm : m = n
  · subst hm
    constructor
    · dsimp only
      rw [Function.update_self]
      exact (h.queues m).sized
    · intro p _ _ _
      dsimp only
      rw [Function.update_self]
      exact .inl rfl
  · exact (h.queues m).of_subset (Function.update_of_ne hm _ _)
      fun p hp hpm hin => ⟨p, hp, hpm, hin⟩

theorem handleOutput_good {s : HostState G} (h : Good s) (data : List UInt8) (headless : Bool) :
    Good (s.handleOutput env data headless) := by
  unfold HostState.handleOutput
  split
  next remainder modes _ =>
    have hread : Good { s with
        mouseModeState := modes
        mouseModeRemainder := remainder
        scrollback := s.scrollback.append data
        grid := env.writeGrid s.grid data } :=
      h.same ⟨⟨List.Sublist.refl _, rfl, rfl, rfl, rfl, rfl, rfl, rfl, .inl⟩, rfl, rfl⟩ rfl
    have hsent := hread.keeps (broadcast_keeps _ (.output data)) fun n =>
      broadcast_queue (hread.queues n) (by rintro c r ⟨⟩) (by rintro id c r ⟨⟩)
    dsimp only
    split
    · exact hsent.same (emitLocal_keeps _ _) rfl
    · exact hsent

/-- The entry of a client with the class and id from its resize frame. -/
def stampEntry (n : ClientId) (kind : SurfaceKind) (viewerId : String)
    (p : ClientId × Client) : ClientId × Client :=
  if p.1 = n then (p.1, { p.2 with kind := kind, viewerId := viewerId }) else p

theorem stampedId_ne_local {c : Client} (size : ResizePayload) (h : c.viewerId ≠ "local") :
    stampedId c size ≠ "local" := by
  unfold stampedId
  split
  · split
    next hv => exact hv.2
    next => exact h
  · exact h

section

variable {s t : HostState G} {n : ClientId} {kind : SurfaceKind} {vid : String}

theorem stampEntry_self {p : ClientId × Client} (hp : p.1 = n) :
    (stampEntry n kind vid p).2.viewerId = vid := by
  rw [stampEntry, if_pos hp]

theorem stampEntry_other {p : ClientId × Client} (hp : p.1 ≠ n) :
    stampEntry n kind vid p = p := if_neg hp

theorem stampEntry_inClients (p : ClientId × Client) :
    (stampEntry n kind vid p).2.inClients = p.2.inClients := by
  unfold stampEntry
  split <;> rfl

theorem stamped_mem (hr : Rewrites (stampEntry n kind vid) s t) {c : Client}
    (hmem : (n, c) ∈ s.clients) : (n, { c with kind := kind, viewerId := vid }) ∈ t.clients := by
  rw [hr.clients]
  refine List.mem_map.mpr ⟨(n, c), hmem, ?_⟩
  rw [stampEntry, if_pos rfl]

/-- An id that is nobody else's keeps the surfaces apart. -/
theorem stamped_wf (h : Wf s) (hr : Rewrites (stampEntry n kind vid) s t)
    (hclash : ∀ p ∈ s.clients, p.1 ≠ n → p.2.viewerId ≠ vid) (hlocal : vid ≠ "local") : Wf t := by
  apply h.rewrites hr
  · rw [hr.clients, List.map_map]
    apply List.Nodup.map_on _ (List.Nodup.of_map _ h.keysNodup)
    intro p hp q hq heq
    simp only [Function.comp_apply] at heq
    by_cases hpn : p.1 = n <;> by_cases hqn : q.1 = n
    · exact h.eq_of_key hp hq (hpn.trans hqn.symm)
    · rw [stampEntry_self hpn, stampEntry_other hqn] at heq
      exact absurd heq.symm (hclash q hq hqn)
    · rw [stampEntry_other hpn, stampEntry_self hqn] at heq
      exact absurd heq (hclash p hp hpn)
    · rw [stampEntry_other hpn, stampEntry_other hqn] at heq
      exact h.eq_of_id hp hq heq
  · intro p hp
    obtain ⟨q, hq, rfl⟩ := hr.mem hp
    by_cases hqn : q.1 = n
    · rwa [stampEntry_self hqn]
    · rw [stampEntry_other hqn]
      exact h.idsRemote q hq

theorem stamped_reports (h : Sized s) (hr : Rewrites (stampEntry n kind vid) s t)
    (hhost : t.hostCols = s.hostCols ∧ t.hostRows = s.hostRows) {v : String} (hne : v ≠ vid)
    (hv : s.controllerId = some v) : ReportsApplied t v := by
  unfold ReportsApplied
  rw [hr.appliedCols, hr.appliedRows, hhost.1, hhost.2]
  refine ⟨(h v hv).1, ?_⟩
  intro p hp hpv
  obtain ⟨q, hq, rfl⟩ := hr.mem hp
  by_cases hqn : q.1 = n
  · rw [stampEntry_self hqn] at hpv
    exact absurd hpv.symm hne
  · rw [stampEntry_other hqn] at hpv ⊢
    exact (h v hv).2 q hq hpv

/-- Whoever controlled still does, or a reader is left to take control. -/
theorem stamped_settled (hwf : Wf s) (h : Settled s) (hr : Rewrites (stampEntry n kind vid) s t)
    (hcontroller : t.controllerId = s.controllerId) {c : Client} (hmem : (n, c) ∈ s.clients)
    (hrenamed : vid ≠ c.viewerId → s.controllerId = some c.viewerId → Pending s) :
    Settled t := by
  have hown := stamped_mem hr hmem
  rcases h with hp | hnone | ⟨v, hv, ⟨hvl, ha⟩ | ⟨p, hp, hpv⟩⟩
  · exact .inl (hr.pending.mpr hp)
  · exact .inr (.inl (hcontroller.trans hnone))
  · exact .inr (.inr ⟨v, hcontroller.trans hv, .inl ⟨hvl, hr.localAttached.trans ha⟩⟩)
  · by_cases hpn : p.1 = n
    · have heq := hwf.eq_of_key hp hmem hpn
      subst heq
      by_cases hsame : vid = c.viewerId
      · exact .inr (.inr ⟨v, hcontroller.trans hv, .inr ⟨_, hown, hsame.trans hpv⟩⟩)
      · have hpending := hrenamed hsame (hv.trans (congrArg some hpv.symm))
        exact .inl (hr.pending.mpr hpending)
    · refine .inr (.inr ⟨v, hcontroller.trans hv, .inr ⟨p, ?_, hpv⟩⟩)
      rw [hr.clients]
      exact List.mem_map.mpr ⟨p, hp, stampEntry_other hpn⟩

end

/-- Stamping an id that is nobody else's, and then applying the resize under it. -/
theorem resize_good {s : HostState G} (h : Good s) {n : ClientId} {size : ResizePayload}
    {stored : Option SessionStatus} (hreader : n ∈ s.readers)
    (ho : Orderly s (.frame n (.resize size) stored)) :
    Good ((s.stampResize n size).1.applyResize env (s.stampResize n size).2) := by
  unfold HostState.stampResize
  cases hc : s.getClient n with
  | none =>
    -- the client was dropped, and its reader still delivers frames
    have hpending : Pending s := by
      refine ⟨n, hreader, fun hk => ?_⟩
      obtain ⟨p, hp, rfl⟩ := List.mem_map.mp hk
      have hsome := getClient_isSome hp
      rw [hc] at hsome
      cases hsome
    exact applyResize_good env rfl h.wf (fun v _ hv => h.sized v hv) h.settled
      (fun _ => .inl hpending) h.queues
  | some c =>
    have hmem := mem_of_getClient hc
    have hclash : ∀ p ∈ s.clients, p.1 ≠ n → p.2.viewerId ≠ stampedId c size := by
      intro p hp hpn heq
      by_cases hsame : stampedId c size = c.viewerId
      · exact hpn (congrArg Prod.fst (h.wf.eq_of_id hp hmem (heq.trans hsame)))
      · exact (ho c hmem hsame).1 p hp heq
    have hlocal := stampedId_ne_local size (h.wf.idsRemote _ hmem)
    dsimp only
    generalize hstamped : s.modifyClient n (fun c' =>
      { c' with kind := size.kind.getD c.kind, viewerId := stampedId c size }) = t
    have hr : Rewrites (stampEntry n (size.kind.getD c.kind) (stampedId c size)) s t := by
      rw [← hstamped]
      refine ⟨rfl, ?_, rfl, rfl, rfl, rfl, rfl, rfl, rfl, rfl⟩
      intro p
      unfold stampEntry
      split <;> rfl
    have hcontroller : t.controllerId = s.controllerId := hstamped ▸ rfl
    have hhost : t.hostCols = s.hostCols ∧ t.hostRows = s.hostRows := hstamped ▸ ⟨rfl, rfl⟩
    have hsettled := stamped_settled h.wf h.settled hr hcontroller hmem fun hne hv =>
      (ho c hmem hne).2 hv
    have hown := stamped_mem hr hmem
    refine applyResize_good env rfl (stamped_wf h.wf hr hclash hlocal) ?_ hsettled
      (fun _ => .inr (.inr ⟨_, hown, rfl⟩)) ?_
    · intro v hne hv
      exact stamped_reports h.sized hr hhost hne (hcontroller.symm.trans hv)
    · intro m
      rw [hr.appliedCols, hr.appliedRows]
      exact (h.queues m).rewrites hr stampEntry_inClients

theorem handle_good {s : HostState G} {e : Event} (h : Good s) (he : BeforeExit e)
    (ho : Orderly s e) (hen : enabled s e = true) : Good (handle env s e) := by
  cases e with
  | connect => exact acceptClient_good h ho
  | initialFramesTimer n => exact writeInitialFrames_good h n
  | frame n frame stored =>
    have hreader : n ∈ s.readers := List.contains_iff_mem.mp hen
    have attention (payload : AttentionPayload) (fp : String) :
        Good (s.applyAttention env payload .user fp stored) := by
      obtain ⟨k, hch⟩ := applyAttention_keeps env s payload .user fp stored
      exact h.same k hch
    cases frame with
    | input payload =>
      change Good (if _ then _ else _)
      split
      · exact attention _ _
      · exact h
    | resize size => exact writeInitialFrames_good (resize_good env h hreader ho) n
    | takeControl =>
      change Good (s.handleFrame env n stored .takeControl)
      simp only [HostState.handleFrame]
      split
      · exact h
      next c hc =>
        split
        · exact h
        · exact takeControl_good env h (.inr ⟨(n, c), mem_of_getClient hc, rfl⟩)
    | attention payload => exact writeInitialFrames_good (attention payload _) n
    | replay => exact writeReplay_good h n
    | other => exact h
  | disconnect n => exact handleDisconnect_good env h n
  | writerDies n => exact writerDies_good env h n
  | localResize cols rows =>
    exact applyResize_good env rfl h.wf (fun v _ hv => h.sized v hv) h.settled
      (fun hnone => (ho hnone).symm.imp id fun ha => .inl ⟨rfl, ha⟩) h.queues
  | localStdin bytes =>
    change Good (s.localStdin env bytes).2
    unfold HostState.localStdin
    split
    next haction =>
      have hsuppressed : s.localOutputSuppressed = true := by
        cases hs : s.localOutputSuppressed with
        | true => rfl
        | false => simp [localStdinAction, hs] at haction
      exact takeControl_good env h (.inl ⟨rfl, h.wf.suppressed hsuppressed⟩)
    · exact h
    · exact h
  | output data => exact handleOutput_good env h data _
  | restoreTick =>
    obtain ⟨k, hch⟩ := restoreTick_keeps s
    exact h.same k hch
  | idleSample stored =>
    obtain ⟨k, hch⟩ := idleSample_keeps env s stored
    exact h.same k hch
  | clock now =>
    exact h.same
      ⟨⟨List.Sublist.refl _, rfl, rfl, rfl, rfl, rfl, rfl, rfl, .inl⟩, rfl, rfl⟩ rfl
  | exit exitCode => exact he.elim

theorem initialState_good (launch : Launch) {cols rows : UInt16} (idleSeconds : Int)
    (snippetEnabled : Bool) (hsize : launch = .attached → cols ≠ 0 ∧ rows ≠ 0) :
    Good (initialState env launch cols rows idleSeconds snippetEnabled) := by
  refine ⟨⟨rfl, List.nodup_nil, nofun, nofun, List.nodup_nil, nofun, nofun⟩, ?_, ?_, ?_⟩
  · intro v hv
    by_cases hl : launch = .attached
    · have ⟨hc, hr⟩ := hsize hl
      exact ⟨fun _ => ⟨(max1_of_ne hc).symm, (max1_of_ne hr).symm⟩, nofun⟩
    · simp [initialState, hl] at hv
  · by_cases hl : launch = .attached
    · subst hl
      exact .inr (.inr ⟨"local", rfl, .inl ⟨rfl, rfl⟩⟩)
    · exact .inr (.inl (by simp [initialState, hl]))
  · exact fun n => ⟨ControlSized.nil, nofun⟩

theorem handoffOk_of_good {s : HostState G} (h : Good s) : HandoffOk s := by
  refine ⟨fun hp => ?_, fun n => (h.queues n).sized⟩
  rcases h.settled with hpending | hnone | ⟨v, hv, hc⟩
  · exact absurd hpending hp
  · exact .inl hnone
  · exact .inr ⟨v, hv, hc, h.sized v hv⟩

end Steps

/-- In every run whose steps are orderly the controller stays well formed. -/
theorem handoffOk_of_orderly (env : HostEnv G) (launch : Launch) (cols rows : UInt16)
    (idleSeconds : Int) (snippetEnabled : Bool)
    (hsize : launch = .attached → cols ≠ 0 ∧ rows ≠ 0) (es : List Event) (s : HostState G)
    (run : Run (Guarded (fun s e => BeforeExit e ∧ Orderly s e) (Step env))
      (initialState env launch cols rows idleSeconds snippetEnabled) es s) : HandoffOk s := by
  have hgood : Good s := by
    refine run.invariant ?_ (initialState_good env launch idleSeconds snippetEnabled hsize)
    rintro s e t h ⟨⟨he, ho⟩, hen, clients, hp, rfl⟩
    apply handle_good env (h.perm hp) he (ho.perm hp)
    cases e <;> exact hen
  exact handoffOk_of_good hgood

/-! ## A controller that renames itself -/

/-- The first dashboard to resize becomes controller under the id it reports, and then reports
another id. -/
def renameSchedule : List Event :=
  [.connect, .frame 0 (.resize ⟨100, 50, none, some "a"⟩) none,
    .frame 0 (.resize ⟨80, 24, none, some "b"⟩) none]

theorem controller_renamed_away :
    ¬ ∀ (launch : Launch) (cols rows : UInt16) (es : List Event) (s : HostState Unit),
      (∀ e ∈ es, BeforeExit e) →
      Run (Step plainEnv) (initialState plainEnv launch cols rows 10 false) es s →
      HandoffOk s := by
  intro h
  obtain ⟨s, hs, hreaders, hclients, hctl⟩ : ∃ s,
      exec (next plainEnv) (initialState plainEnv .headless 80 24 10 false) renameSchedule =
        some s ∧ s.readers = [0] ∧ s.clients.map (fun p => (p.1, p.2.viewerId)) = [(0, "b")] ∧
        s.controllerId = some "a" :=
    ⟨_, rfl, rfl, rfl, rfl⟩
  have hok := h .headless 80 24 renameSchedule s
    (by simp [renameSchedule, BeforeExit]) (Run.of_exec step_of_next hs)
  have hkeys : keys s = [0] := by
    have := congrArg (List.map Prod.fst) hclients
    rwa [List.map_map] at this
  have hpending : ¬ Pending s := by
    rintro ⟨n, hn, hkey⟩
    rw [hreaders] at hn
    exact hkey (hkeys ▸ hn)
  rcases hok.1 hpending with hnone | ⟨v, hv, ⟨hvl, -⟩ | ⟨p, hp, hpv⟩, -⟩
  · rw [hctl] at hnone
    cases hnone
  · rw [hctl] at hv
    subst hvl
    simp at hv
  · rw [hctl] at hv
    cases hv
    have hmem := List.mem_map_of_mem (f := fun p => (p.1, p.2.viewerId)) hp
    rw [hclients, hpv] at hmem
    simp at hmem

/-- A dashboard that connects, reports its id and size, and takes control meets the condition. -/
theorem handoffOk_plain_session : ∃ s,
    exec (next plainEnv) (initialState plainEnv .headless 80 24 10 false)
      [.connect, .frame 0 (.resize ⟨100, 50, none, some "a"⟩) none, .frame 0 .takeControl none] =
        some s ∧ HandoffOk s := by
  refine ⟨_, rfl, ?_⟩
  refine handoffOk_of_orderly plainEnv .headless 80 24 10 false nofun
    [.connect, .frame 0 (.resize ⟨100, 50, none, some "a"⟩) none, .frame 0 .takeControl none] _ ?_
  refine .cons ⟨⟨trivial, ?_⟩, step_of_next rfl⟩ (.cons ⟨⟨trivial, ?_⟩, step_of_next rfl⟩
    (.cons ⟨⟨trivial, trivial⟩, step_of_next rfl⟩ (.nil _)))
  · exact ⟨nofun, nofun⟩
  · intro c hc _
    have hfresh : s!"client-{(0 : Nat)}" ≠ "a" := by decide
    change (0, c) ∈ [(0, Client.mk false .dashboard s!"client-{(0 : Nat)}" 0 0 0)] at hc
    cases List.mem_singleton.mp hc
    refine ⟨?_, nofun⟩
    intro p hp
    cases List.mem_singleton.mp hp
    exact hfresh

end Climon.Session.HandoffRuns
