import Climon.Session.Surfaces

namespace Climon.Session.Handoff

open Climon.Lib.Transition Climon.Proto.Frame Climon.Session.Control Climon.Session.Host
  Climon.Session.Surfaces

/-!
# Control handoff

Five operations move the controller or a surface's size. The applied grid, the stored
sizes and the controller id stay in step as long as viewer ids stay distinct and the
controller keeps its id.
-/

variable {G : Type}

/-- The surface's last reported size, floored at 1, is the applied grid. -/
def ReportsApplied (s : HostState G) (viewerId : String) : Prop :=
  (viewerId = "local" → s.appliedCols = max1 s.hostCols ∧ s.appliedRows = max1 s.hostRows) ∧
    ∀ p ∈ s.clients, p.2.viewerId = viewerId →
      s.appliedCols = max1 p.2.cols ∧ s.appliedRows = max1 p.2.rows

def Sized (s : HostState G) : Prop := ∀ v, s.controllerId = some v → ReportsApplied s v

/-! ## Sizes announced on a queue -/

def lastPtySize (frames : List HostFrame) : Option (UInt16 × UInt16) :=
  frames.foldl (fun last frame =>
    match frame with
    | .ptySize cols rows => some (cols, rows)
    | _ => last) none

/-- Every control frame repeats the size of the last size frame before it. -/
def ControlSized (frames : List HostFrame) : Prop :=
  ∀ before id cols rows after, frames = before ++ .control id cols rows :: after →
    lastPtySize before = some (cols, rows)

theorem lastPtySize_concat (frames : List HostFrame) (frame : HostFrame) :
    lastPtySize (frames ++ [frame]) =
      match frame with
      | .ptySize cols rows => some (cols, rows)
      | _ => lastPtySize frames := by
  unfold lastPtySize
  rw [List.foldl_append]
  rfl

theorem ControlSized.concat {frames : List HostFrame} {frame : HostFrame}
    (h : ControlSized frames)
    (hf : ∀ id cols rows, frame = .control id cols rows → lastPtySize frames = some (cols, rows)) :
    ControlSized (frames ++ [frame]) := by
  intro before id cols rows after heq
  rcases List.eq_nil_or_concat after with rfl | ⟨init, last, rfl⟩
  · obtain ⟨rfl, hlast⟩ := List.append_inj' heq rfl
    exact hf id cols rows (List.singleton_inj.mp hlast)
  · rw [List.concat_eq_append, ← List.cons_append, ← List.append_assoc] at heq
    exact h before id cols rows init (List.append_inj_left' heq rfl)

theorem ControlSized.nil : ControlSized [] := by
  intro before id cols rows after heq
  simp at heq

theorem ControlSized.send {ch : Channel} {frame : HostFrame} (h : ControlSized ch.frames)
    (hf : ∀ id cols rows, frame = .control id cols rows →
      ch.dead = true ∨ lastPtySize ch.frames = some (cols, rows)) :
    ControlSized (ch.send frame).frames := by
  unfold Channel.send
  split
  · exact h
  next hdead =>
    apply h.concat
    intro id cols rows heq
    exact (hf id cols rows heq).resolve_left hdead

/-- A queue on which the size `cols`x`rows` was announced, unless its client has not joined the
broadcasts or its writer is gone. -/
structure Queue (s : HostState G) (cols rows : UInt16) (n : ClientId) : Prop where
  sized : ControlSized (s.channels n).frames
  announced : ∀ p ∈ s.clients, p.1 = n → p.2.inClients = true →
    (s.channels n).dead = true ∨ lastPtySize (s.channels n).frames = some (cols, rows)

theorem Queue.of_subset {s t : HostState G} {cols rows : UInt16} {n : ClientId}
    (h : Queue s cols rows n) (hch : t.channels n = s.channels n)
    (hc : ∀ p ∈ t.clients, p.1 = n → p.2.inClients = true →
      ∃ q ∈ s.clients, q.1 = n ∧ q.2.inClients = true) : Queue t cols rows n where
  sized := hch ▸ h.sized
  announced := by
    intro p hp hn hin
    obtain ⟨q, hq, hqn, hqin⟩ := hc p hp hn hin
    rw [hch]
    exact h.announced q hq hqn hqin

theorem Queue.keeps {s t : HostState G} {cols rows : UInt16} {n : ClientId}
    (h : Queue s cols rows n) (k : Keeps s t) (hch : t.channels = s.channels) :
    Queue t cols rows n :=
  h.of_subset (congrFun hch n) fun p hp hn hin => ⟨p, k.clients.subset hp, hn, hin⟩

private theorem send_announced (ch : Channel) (cols rows : UInt16) :
    (ch.send (.ptySize cols rows)).dead = true ∨
      lastPtySize (ch.send (.ptySize cols rows)).frames = some (cols, rows) := by
  unfold Channel.send
  split
  next hdead => exact .inl hdead
  next =>
    right
    dsimp only
    rw [lastPtySize_concat]

private theorem send_keeps_announced {ch : Channel} {frame : HostFrame} {cols rows : UInt16}
    (hf : ∀ c r, frame ≠ .ptySize c r)
    (h : ch.dead = true ∨ lastPtySize ch.frames = some (cols, rows)) :
    (ch.send frame).dead = true ∨ lastPtySize (ch.send frame).frames = some (cols, rows) := by
  unfold Channel.send
  split
  next hdead => exact .inl hdead
  next hdead =>
    right
    dsimp only
    rw [lastPtySize_concat]
    cases frame with
    | ptySize c r => exact absurd rfl (hf c r)
    | _ => exact h.resolve_left hdead

theorem broadcast_channels (s : HostState G) (frame : HostFrame) (n : ClientId) :
    (s.broadcast frame).channels n =
      if s.clients.any fun p => p.1 == n && p.2.inClients then (s.channels n).send frame
      else s.channels n := rfl

private theorem any_joined {s : HostState G} {n : ClientId} :
    (s.clients.any fun p => p.1 == n && p.2.inClients) = true ↔
      ∃ p ∈ s.clients, p.1 = n ∧ p.2.inClients = true := by
  simp

/-- A broadcast size is announced to everyone who joined. -/
theorem broadcast_ptySize {s : HostState G} {n : ClientId}
    (h : ControlSized (s.channels n).frames) (cols rows : UInt16) :
    Queue (s.broadcast (.ptySize cols rows)) cols rows n := by
  constructor
  · rw [broadcast_channels]
    split
    · exact h.send (by rintro id c r ⟨⟩)
    · exact h
  · intro p hp hn hin
    have hmem := (broadcast_keeps s (.ptySize cols rows)).clients.subset hp
    rw [broadcast_channels, if_pos (any_joined.mpr ⟨p, hmem, hn, hin⟩)]
    exact send_announced _ _ _

/-- A broadcast of anything but a size keeps the announced size, which a control frame must
repeat. -/
theorem broadcast_queue {s : HostState G} {cols rows : UInt16} {n : ClientId} {frame : HostFrame}
    (h : Queue s cols rows n) (hsize : ∀ c r, frame ≠ .ptySize c r)
    (hcontrol : ∀ id c r, frame = .control id c r → c = cols ∧ r = rows) :
    Queue (s.broadcast frame) cols rows n := by
  constructor
  · rw [broadcast_channels]
    split
    next hany =>
      obtain ⟨p, hp, hn, hin⟩ := any_joined.mp hany
      apply h.sized.send
      intro id c r heq
      obtain ⟨rfl, rfl⟩ := hcontrol id c r heq
      exact h.announced p hp hn hin
    next => exact h.sized
  · intro p hp hn hin
    have hmem := (broadcast_keeps s frame).clients.subset hp
    rw [broadcast_channels, if_pos (any_joined.mpr ⟨p, hmem, hn, hin⟩)]
    exact send_keeps_announced hsize (h.announced p hmem hn hin)

theorem sendToClient_channels (s : HostState G) (m n : ClientId) (frame : HostFrame) :
    (s.sendToClient m frame).channels n =
      if m = n ∧ (s.getClient m).isSome then (s.channels n).send frame else s.channels n := by
  unfold HostState.sendToClient
  cases s.getClient m with
  | none => simp
  | some c =>
    by_cases hmn : m = n
    · subst hmn
      cases hd : (s.channels m).dead with
      | true => simp [HostState.removeClient, Channel.send, hd]
      | false => simp
    · cases hd : (s.channels m).dead with
      | true => simp [HostState.removeClient, hmn]
      | false => simp [hmn, Function.update_of_ne (Ne.symm hmn)]

theorem sendToClient_ptySize {s : HostState G} {m n : ClientId} {cols rows : UInt16}
    (h : ControlSized (s.channels n).frames) (hq : m ≠ n → Queue s cols rows n) :
    Queue (s.sendToClient m (.ptySize cols rows)) cols rows n := by
  by_cases hmn : m = n
  · subst hmn
    constructor
    · rw [sendToClient_channels]
      split
      · exact h.send (by rintro id c r ⟨⟩)
      · exact h
    · intro p hp hn hin
      have hmem := (sendToClient_keeps s m (.ptySize cols rows)).clients.subset hp
      rw [sendToClient_channels, if_pos ⟨rfl, hn ▸ getClient_isSome hmem⟩]
      exact send_announced _ _ _
  · apply (hq hmn).of_subset
    · rw [sendToClient_channels, if_neg fun h => hmn h.1]
    · intro p hp hn hin
      exact ⟨p, (sendToClient_keeps s m _).clients.subset hp, hn, hin⟩

theorem sendToClient_queue {s : HostState G} {m n : ClientId} {cols rows : UInt16}
    {frame : HostFrame} (h : Queue s cols rows n) (hsize : ∀ c r, frame ≠ .ptySize c r)
    (hcontrol : ∀ id c r, frame ≠ .control id c r) :
    Queue (s.sendToClient m frame) cols rows n := by
  constructor
  · rw [sendToClient_channels]
    split
    · exact h.sized.send fun id c r heq => absurd heq (hcontrol id c r)
    · exact h.sized
  · intro p hp hn hin
    have hmem := (sendToClient_keeps s m frame).clients.subset hp
    rw [sendToClient_channels]
    split
    · exact send_keeps_announced hsize (h.announced p hmem hn hin)
    · exact h.announced p hmem hn hin

/-! ## The invariant -/

structure Good (s : HostState G) : Prop where
  wf : Wf s
  sized : Sized s
  settled : Settled s
  queues : ∀ n, Queue s s.appliedCols s.appliedRows n

theorem ReportsApplied.keeps {s t : HostState G} {v : String} (h : ReportsApplied s v)
    (k : KeepsGrid s t) : ReportsApplied t v := by
  unfold ReportsApplied
  rw [k.appliedCols, k.appliedRows, k.hostCols, k.hostRows]
  exact ⟨h.1, fun p hp => h.2 p (k.clients.subset hp)⟩

theorem Sized.keeps {s t : HostState G} (h : Sized s) (k : KeepsGrid s t) : Sized t :=
  fun v hv => (h v (k.controllerId ▸ hv)).keeps k

theorem Good.keeps {s t : HostState G} (h : Good s) (k : KeepsGrid s t)
    (hq : ∀ n, Queue t s.appliedCols s.appliedRows n) : Good t where
  wf := h.wf.keeps k.toKeeps
  sized := h.sized.keeps k
  settled := h.settled.keeps h.wf k.toKeeps
  queues := by
    rw [k.appliedCols, k.appliedRows]
    exact hq

theorem Good.same {s t : HostState G} (h : Good s) (k : KeepsGrid s t)
    (hch : t.channels = s.channels) : Good t :=
  h.keeps k fun n => (h.queues n).keeps k.toKeeps hch

/-- The map's iteration order does not matter. -/
theorem Good.perm {s : HostState G} (h : Good s) {clients : List (ClientId × Client)}
    (hp : clients.Perm s.clients) : Good { s with clients := clients } where
  wf :=
    { running := h.wf.running
      keysNodup := (hp.map _).nodup_iff.mpr h.wf.keysNodup
      readersFresh := h.wf.readersFresh
      reader := fun p hmem => h.wf.reader p (hp.subset hmem)
      idsNodup := (hp.map _).nodup_iff.mpr h.wf.idsNodup
      idsRemote := fun p hmem => h.wf.idsRemote p (hp.subset hmem)
      suppressed := h.wf.suppressed }
  sized := fun v hv => ⟨(h.sized v hv).1, fun p hmem => (h.sized v hv).2 p (hp.subset hmem)⟩
  settled := by
    rcases h.settled with ⟨n, hn, hkey⟩ | hnone | ⟨v, hv, hlocal | ⟨p, hmem, hpv⟩⟩
    · exact .inl ⟨n, hn, fun hk => hkey ((hp.map _).subset hk)⟩
    · exact .inr (.inl hnone)
    · exact .inr (.inr ⟨v, hv, .inl hlocal⟩)
    · exact .inr (.inr ⟨v, hv, .inr ⟨p, hp.symm.subset hmem, hpv⟩⟩)
  queues := fun n =>
    ⟨(h.queues n).sized, fun p hmem => (h.queues n).announced p (hp.subset hmem)⟩

/-- `surface_size` of a surface that reports the applied grid. -/
theorem surfaceSize_eq {s : HostState G} {v : String} {cols rows : UInt16}
    (h : ReportsApplied s v) (hs : s.surfaceSize v = some (cols, rows)) :
    cols = s.appliedCols ∧ rows = s.appliedRows := by
  unfold HostState.surfaceSize at hs
  split at hs
  next hlocal =>
    cases hs
    have ⟨hc, hr⟩ := h.1 hlocal
    exact ⟨hc.symm, hr.symm⟩
  next =>
    obtain ⟨c, hc, hsize⟩ := Option.map_eq_some_iff.mp hs
    obtain ⟨n, hmem, hv⟩ := mem_of_findViewer hc
    have ⟨hcols, hrows⟩ := h.2 (n, c) hmem hv
    cases hsize
    exact ⟨hcols.symm, hrows.symm⟩

theorem broadcastControl_queue {s : HostState G} {n : ClientId} (hs : Sized s)
    (hq : Queue s s.appliedCols s.appliedRows n) :
    Queue s.broadcastControl s.appliedCols s.appliedRows n := by
  unfold HostState.broadcastControl
  split
  next id cols rows hid hsize =>
    apply broadcast_queue hq
    · rintro c r ⟨⟩
    · rintro _ c r ⟨⟩
      rw [HostState.controllerSize, hid, Option.bind_some] at hsize
      exact surfaceSize_eq (hs id hid) hsize
  next => exact hq

theorem Good.broadcastControl {s : HostState G} (h : Good s) : Good s.broadcastControl :=
  h.keeps (broadcastControl_keeps s) fun n => broadcastControl_queue h.sized (h.queues n)

theorem Good.updateLocalDisplaced {s : HostState G} (h : Good s) : Good s.updateLocalDisplaced :=
  h.same (updateLocalDisplaced_keeps s) (updateLocalDisplaced_channels s)

/-- Whatever size was announced before, `set_pty_size` leaves the new one announced. -/
theorem setPtySize_queue (env : HostEnv G) {s : HostState G} (cols rows : UInt16) {n : ClientId}
    (h : Queue s s.appliedCols s.appliedRows n) :
    Queue (s.setPtySize env cols rows) cols rows n := by
  unfold HostState.setPtySize
  dsimp only
  split
  · refine Queue.keeps ?_ (updateLocalDisplaced_keeps _).toKeeps (updateLocalDisplaced_channels _)
    apply broadcast_ptySize
    exact h.sized
  next hsame =>
    obtain ⟨rfl, rfl⟩ : cols = s.appliedCols ∧ rows = s.appliedRows := by
      simpa only [not_or, ne_eq, not_not] using hsame
    refine Queue.keeps ?_ (updateLocalDisplaced_keeps _).toKeeps (updateLocalDisplaced_channels _)
    exact ⟨h.sized, h.announced⟩

/-- A surface that reports `cols`x`rows` becomes, or stays, the controller of that grid. -/
theorem setPtySize_good (env : HostEnv G) {s : HostState G} {v : String} {cols rows : UInt16}
    (hwf : Wf s) (hv : s.controllerId = some v) (hsettled : Settled s)
    (hlocal : v = "local" → cols = max1 s.hostCols ∧ rows = max1 s.hostRows)
    (hclients : ∀ p ∈ s.clients, p.2.viewerId = v → cols = max1 p.2.cols ∧ rows = max1 p.2.rows)
    (hq : ∀ n, Queue s s.appliedCols s.appliedRows n) : Good (s.setPtySize env cols rows) := by
  have ⟨k, hcols, hrows⟩ := setPtySize_keeps env s cols rows
  refine ⟨hwf.keeps k, ?_, hsettled.keeps hwf k, ?_⟩
  · intro w hw
    rw [k.controllerId, hv] at hw
    cases hw
    unfold ReportsApplied
    rw [hcols, hrows, k.hostCols, k.hostRows]
    exact ⟨hlocal, fun p hp => hclients p (k.clients.subset hp)⟩
  · intro n
    rw [hcols, hrows]
    exact setPtySize_queue env cols rows (hq n)

/-! ## The handlers -/

section Handlers

variable (env : HostEnv G)

/-- The entry of the reporting surface, with its new size. -/
def resizeEntry (vid : String) (cols rows : UInt16) (p : ClientId × Client) :
    ClientId × Client :=
  if p.2.viewerId = vid then (p.1, { p.2 with cols := cols, rows := rows }) else p

@[simp] theorem resizeEntry_key (vid : String) (cols rows : UInt16) (p : ClientId × Client) :
    (resizeEntry vid cols rows p).1 = p.1 := by
  unfold resizeEntry
  split <;> rfl

@[simp] theorem resizeEntry_viewerId (vid : String) (cols rows : UInt16)
    (p : ClientId × Client) : (resizeEntry vid cols rows p).2.viewerId = p.2.viewerId := by
  unfold resizeEntry
  split <;> rfl

@[simp] theorem resizeEntry_inClients (vid : String) (cols rows : UInt16)
    (p : ClientId × Client) : (resizeEntry vid cols rows p).2.inClients = p.2.inClients := by
  unfold resizeEntry
  split <;> rfl

theorem recordSize_rewrites {s : HostState G} (h : Wf s) (vid : String) (cols rows : UInt16) :
    Rewrites (resizeEntry vid cols rows) s (s.recordSize vid cols rows) := by
  unfold HostState.recordSize
  dsimp only
  split
  all_goals exact ⟨modifyFirst_eq_map h.idsNodup _, resizeEntry_key vid cols rows,
    rfl, rfl, rfl, rfl, rfl, rfl, rfl, rfl⟩

theorem recordSize_controllerId (s : HostState G) (vid : String) (cols rows : UInt16) :
    (s.recordSize vid cols rows).controllerId = s.controllerId := by
  unfold HostState.recordSize
  dsimp only
  split <;> rfl

theorem recordSize_host (s : HostState G) (vid : String) (cols rows : UInt16) :
    (s.recordSize vid cols rows).hostCols = (if vid = "local" then cols else s.hostCols) ∧
      (s.recordSize vid cols rows).hostRows = (if vid = "local" then rows else s.hostRows) := by
  unfold HostState.recordSize
  by_cases h : vid = "local"
  · simp only [h, if_true, and_self]
  · simp only [h, if_false, and_self]

theorem claimControl_eq (s : HostState G) (vid : String) :
    s.claimControl vid = { s with controllerId := some (s.controllerId.getD vid) } := by
  unfold HostState.claimControl
  cases h : s.controllerId with
  | none => rfl
  | some w => rw [if_neg (by simp), Option.getD_some, ← h]

theorem Queue.withController {s : HostState G} {cols rows : UInt16} {n : ClientId}
    (h : Queue s cols rows n) (controllerId : Option String) :
    Queue { s with controllerId := controllerId } cols rows n :=
  ⟨h.sized, h.announced⟩

theorem Queue.rewrites {f : ClientId × Client → ClientId × Client} {s t : HostState G}
    {cols rows : UInt16} {n : ClientId} (hq : Queue s cols rows n) (h : Rewrites f s t)
    (hin : ∀ p, (f p).2.inClients = p.2.inClients) : Queue t cols rows n := by
  apply hq.of_subset (congrFun h.channels n)
  intro p hp hn hjoined
  obtain ⟨q, hq', rfl⟩ := h.mem hp
  rw [h.key] at hn
  rw [hin] at hjoined
  exact ⟨q, hq', hn, hjoined⟩

/-- A report by a surface that is not the controller leaves the controller's size alone. -/
theorem recordSize_reportsApplied {s : HostState G} (h : Wf s) {vid v : String}
    {cols rows : UInt16} (hne : v ≠ vid) (hv : ReportsApplied s v) :
    ReportsApplied (s.recordSize vid cols rows) v := by
  have hr := recordSize_rewrites h vid cols rows
  have ⟨hc, hrows⟩ := recordSize_host s vid cols rows
  constructor
  · intro hlocal
    rw [hr.appliedCols, hr.appliedRows, hc, hrows, if_neg (hlocal ▸ hne.symm),
      if_neg (hlocal ▸ hne.symm)]
    exact hv.1 hlocal
  · intro p hp hpv
    obtain ⟨q, hq, rfl⟩ := hr.mem hp
    rw [resizeEntry_viewerId] at hpv
    have hsame : resizeEntry vid cols rows q = q := if_neg (hpv ▸ hne)
    rw [hr.appliedCols, hr.appliedRows, hsame]
    exact hv.2 q hq hpv

/-- A reported size keeps everything in step, if the surface that reports it is known (or a
disconnect is pending) when it claims control. -/
theorem applyResize_good {s : HostState G} {size : ResizePayload} {vid : String}
    (hvid : size.viewerId.getD "local" = vid) (hwf : Wf s)
    (hsized : ∀ v, v ≠ vid → s.controllerId = some v → ReportsApplied s v)
    (hsettled : Settled s) (hclaim : s.controllerId = none → Pending s ∨ Connected s vid)
    (hq : ∀ n, Queue s s.appliedCols s.appliedRows n) : Good (s.applyResize env size) := by
  unfold HostState.applyResize
  dsimp only
  rw [hvid, claimControl_eq, recordSize_controllerId]
  generalize hcols : max1 size.cols = cols
  generalize hrows : max1 size.rows = rows
  have hr := recordSize_rewrites hwf vid cols rows
  have hrwf := hwf.rewrites_ids hr (resizeEntry_viewerId vid cols rows)
  have hrq (n : ClientId) : Queue (s.recordSize vid cols rows)
      (s.recordSize vid cols rows).appliedCols (s.recordSize vid cols rows).appliedRows n := by
    rw [hr.appliedCols, hr.appliedRows]
    exact (hq n).rewrites hr (resizeEntry_inClients vid cols rows)
  have htsettled : Settled { s.recordSize vid cols rows with
      controllerId := some (s.controllerId.getD vid) } := by
    cases hc : s.controllerId with
    | none =>
      rcases hclaim hc with hp | hconn
      · exact .inl (hr.pending.mpr hp)
      · exact .inr (.inr ⟨vid, rfl, hr.connected (resizeEntry_viewerId vid cols rows) hconn⟩)
    | some v =>
      have := hsettled.rewrites hr (resizeEntry_viewerId vid cols rows)
        (recordSize_controllerId s vid cols rows)
      rcases this with hp | hnone | hconn
      · exact .inl hp
      · rw [recordSize_controllerId, hc] at hnone
        cases hnone
      · rw [recordSize_controllerId, hc] at hconn
        exact .inr (.inr hconn)
  apply Good.broadcastControl
  by_cases hctl : s.controllerId.getD vid = vid
  · rw [if_pos (by rw [hctl])]
    have ⟨hhc, hhr⟩ := recordSize_host s vid cols rows
    refine setPtySize_good env (hrwf.withController _) (congrArg some hctl) htsettled ?_ ?_
      fun n => (hrq n).withController _
    · intro hlocal
      change cols = max1 (s.recordSize vid cols rows).hostCols ∧
        rows = max1 (s.recordSize vid cols rows).hostRows
      rw [hhc, hhr, if_pos hlocal, if_pos hlocal, ← hcols, ← hrows, max1_max1, max1_max1]
      exact ⟨rfl, rfl⟩
    · intro p hp hpv
      obtain ⟨q, -, rfl⟩ := hr.mem hp
      rw [resizeEntry_viewerId] at hpv
      unfold resizeEntry
      rw [if_pos hpv]
      dsimp only
      rw [← hcols, ← hrows, max1_max1, max1_max1]
      exact ⟨rfl, rfl⟩
  · rw [if_neg fun h => hctl (Option.some.inj h)]
    obtain ⟨v, hv⟩ : ∃ v, s.controllerId = some v := by
      cases hc : s.controllerId with
      | none => exact absurd (by rw [hc]; rfl) hctl
      | some v => exact ⟨v, rfl⟩
    rw [hv, Option.getD_some] at hctl
    have hgood : Good { s.recordSize vid cols rows with
        controllerId := some (s.controllerId.getD vid) } := by
      refine ⟨hrwf.withController _, ?_, htsettled, fun n => (hrq n).withController _⟩
      intro w hw
      rw [hv] at hw
      cases hw
      exact recordSize_reportsApplied hwf hctl (hsized v hctl hv)
    split
    · exact hgood.updateLocalDisplaced
    · exact hgood

theorem Good.requestJiggle {s : HostState G} (h : Good s) : Good s.requestJiggle :=
  h.same (requestJiggle_keeps s) (requestJiggle_channels s)

/-- A surface that takes control was asked for at its own size. -/
theorem takeControl_good {s : HostState G} (h : Good s) {vid : String}
    (hconn : Connected s vid) : Good (s.takeControl env vid) := by
  unfold HostState.takeControl
  split
  · exact h
  next cols rows hsize =>
    have hlocal : vid = "local" → cols = max1 s.hostCols ∧ rows = max1 s.hostRows := by
      intro hv
      rw [HostState.surfaceSize, if_pos hv] at hsize
      cases hsize
      exact ⟨rfl, rfl⟩
    have hclients : ∀ p ∈ s.clients, p.2.viewerId = vid →
        cols = max1 p.2.cols ∧ rows = max1 p.2.rows := by
      intro p hp hpv
      rw [HostState.surfaceSize, if_neg (hpv ▸ h.wf.idsRemote p hp)] at hsize
      obtain ⟨c, hc, hcsize⟩ := Option.map_eq_some_iff.mp hsize
      obtain ⟨n, hmem, hcv⟩ := mem_of_findViewer hc
      have heq := h.wf.eq_of_id hp hmem (hpv.trans hcv.symm)
      cases heq
      cases hcsize
      exact ⟨rfl, rfl⟩
    have hset := setPtySize_good env (h.wf.withController (some vid)) rfl
      (.inr (.inr ⟨vid, rfl, hconn⟩)) hlocal hclients fun n => (h.queues n).withController _
    dsimp only
    apply Good.broadcastControl
    split
    · exact hset.requestJiggle
    · exact hset

theorem mem_surfaces {s : HostState G} {surface : Surface} (h : surface ∈ s.surfaces) :
    (∃ p ∈ s.clients, surface = ⟨p.2.viewerId, p.2.kind, p.2.cols, p.2.rows, p.2.seq⟩) ∨
      s.localAttached = true ∧ surface = ⟨"local", .terminal, s.hostCols, s.hostRows, 0⟩ := by
  unfold HostState.surfaces at h
  rcases List.mem_append.mp h with hc | hl
  · obtain ⟨p, hp, rfl⟩ := List.mem_map.mp hc
    exact .inl ⟨p, (List.mem_filter.mp hp).1, rfl⟩
  · split at hl
    next ha =>
      rw [List.mem_singleton] at hl
      exact .inr ⟨ha, hl⟩
    next => cases hl

theorem controllerPresent_connected {s : HostState G} (h : s.controllerPresent = true) :
    ∃ v, s.controllerId = some v ∧ Connected s v := by
  unfold HostState.controllerPresent at h
  split at h
  · cases h
  next id hid =>
    refine ⟨id, hid, ?_⟩
    rw [Bool.or_eq_true, Bool.and_eq_true, beq_iff_eq, List.any_eq_true] at h
    rcases h with hlocal | ⟨p, hp, hpid⟩
    · exact .inl hlocal
    · rw [Bool.and_eq_true, beq_iff_eq] at hpid
      exact .inr ⟨p, hp, hpid.2⟩

/-- Whatever became of the controller before, it is connected or gone afterwards. -/
theorem recomputeController_good {s : HostState G} (hwf : Wf s) (hsized : Sized s)
    (hq : ∀ n, Queue s s.appliedCols s.appliedRows n) : Good (s.recomputeController env) := by
  unfold HostState.recomputeController
  split
  next hpresent =>
    exact ⟨hwf, hsized, .inr (.inr (controllerPresent_connected hpresent)), hq⟩
  next =>
    split
    next surface hchoice =>
      have hsurface := mem_surfaces (chooseController_mem hchoice)
      apply Good.broadcastControl
      refine setPtySize_good env (hwf.withController _) rfl ?_ ?_ ?_
        fun n => (hq n).withController _
      · refine .inr (.inr ⟨surface.id, rfl, ?_⟩)
        rcases hsurface with ⟨p, hp, rfl⟩ | ⟨ha, rfl⟩
        · exact .inr ⟨p, hp, rfl⟩
        · exact .inl ⟨rfl, ha⟩
      · intro hlocal
        rcases hsurface with ⟨p, hp, rfl⟩ | ⟨-, rfl⟩
        · exact absurd hlocal (hwf.idsRemote p hp)
        · exact ⟨rfl, rfl⟩
      · intro q hqmem hqid
        rcases hsurface with ⟨p, hp, rfl⟩ | ⟨-, rfl⟩
        · rw [hwf.eq_of_id hqmem hp hqid]
          exact ⟨rfl, rfl⟩
        · exact absurd hqid (hwf.idsRemote q hqmem)
    next =>
      refine ⟨hwf.withController _, ?_, .inr (.inl rfl), fun n => (hq n).withController _⟩
      rintro v ⟨⟩

/-- The entry of a client that joins the broadcasts. -/
def joinEntry (n : ClientId) (seq : Nat) (p : ClientId × Client) : ClientId × Client :=
  if p.1 = n then (p.1, { p.2 with inClients := true, seq := seq }) else p

theorem joinEntry_viewerId (n : ClientId) (seq : Nat) (p : ClientId × Client) :
    (joinEntry n seq p).2.viewerId = p.2.viewerId := by
  unfold joinEntry
  split <;> rfl

theorem join_rewrites (s : HostState G) (n : ClientId) (seq nextSeq : Nat) :
    Rewrites (joinEntry n seq) s
      ({ s with nextSeq := nextSeq }.modifyClient n fun c =>
        { c with inClients := true, seq := seq }) := by
  refine ⟨rfl, ?_, rfl, rfl, rfl, rfl, rfl, rfl, rfl, rfl⟩
  intro p
  unfold joinEntry
  split <;> rfl

/-- The client joins with the applied size as the last one announced to it. -/
theorem writeInitialFrames_good {s : HostState G} (h : Good s) (n : ClientId) :
    Good (s.writeInitialFrames n) := by
  unfold HostState.writeInitialFrames
  split
  · exact h
  next c _ =>
    split
    · exact h
    · dsimp only
      generalize hjoined : HostState.modifyClient { s with nextSeq := s.nextSeq + 1 } n
        (fun c => { c with inClients := true, seq := s.nextSeq }) = joined
      have hr : Rewrites (joinEntry n s.nextSeq) s joined := hjoined ▸ join_rewrites s n _ _
      have hcontroller : joined.controllerId = s.controllerId := hjoined ▸ rfl
      have hhost : joined.hostCols = s.hostCols ∧ joined.hostRows = s.hostRows :=
        hjoined ▸ ⟨rfl, rfl⟩
      have hid := joinEntry_viewerId n s.nextSeq
      have hwf := h.wf.rewrites_ids hr hid
      have hsized : Sized joined := by
        intro v hv
        rw [hcontroller] at hv
        unfold ReportsApplied
        rw [hr.appliedCols, hr.appliedRows, hhost.1, hhost.2]
        refine ⟨(h.sized v hv).1, ?_⟩
        intro p hp hpv
        obtain ⟨q, hq, rfl⟩ := hr.mem hp
        rw [hid] at hpv
        have := (h.sized v hv).2 q hq hpv
        unfold joinEntry
        split <;> exact this
      have hsettled := h.settled.rewrites hr hid hcontroller
      have hqueue (m : ClientId) :
          Queue (joined.writeReplay n) joined.appliedCols joined.appliedRows m := by
        unfold HostState.writeReplay
        dsimp only
        refine sendToClient_queue (sendToClient_ptySize ?_ ?_) (by rintro c r ⟨⟩)
          (by rintro id c r ⟨⟩)
        · rw [hr.channels]
          exact (h.queues m).sized
        · intro hne
          rw [hr.appliedCols, hr.appliedRows]
          apply (h.queues m).of_subset (congrFun hr.channels m)
          intro p hp hpm hin
          obtain ⟨q, hq, rfl⟩ := hr.mem hp
          rw [hr.key] at hpm
          have hsame : joinEntry n s.nextSeq q = q := if_neg (hpm ▸ hne.symm)
          exact ⟨q, hq, hpm, hsame ▸ hin⟩
      have hreplayed : Good (joined.writeReplay n) := by
        have k := writeReplay_keeps joined n
        refine ⟨hwf.keeps k.toKeeps, hsized.keeps k, hsettled.keeps hwf k.toKeeps, ?_⟩
        rw [k.appliedCols, k.appliedRows]
        exact hqueue
      have hdone := hreplayed.updateLocalDisplaced.broadcastControl
      rw [if_neg (by rw [hdone.wf.running]; decide)]
      exact hdone

theorem writeReplay_good {s : HostState G} (h : Good s) (n : ClientId) :
    Good (s.writeReplay n) := by
  apply h.keeps (writeReplay_keeps s n)
  intro m
  unfold HostState.writeReplay
  dsimp only
  refine sendToClient_queue (sendToClient_ptySize (h.queues m).sized fun _ => h.queues m)
    (by rintro c r ⟨⟩) (by rintro id c r ⟨⟩)

end Handlers

end Climon.Session.Handoff
