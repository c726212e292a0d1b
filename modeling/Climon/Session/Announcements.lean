import Climon.Session.AttachRuns

namespace Climon.Session.Announcements

open Climon.Lib.Transition Climon.Proto.Frame Climon.Session.Control Climon.Session.Host
  Climon.Session.Surfaces Climon.Session.AttachStream Climon.Session.AttachRuns

/-!
# Who is told who controls

The `Control` frames on a client's queue against the host's controller. Viewer ids may be shared:
a tab that reconnects has two entries until the host sees the old connection close.
-/

variable {G : Type}

def controlId : HostFrame → Option String
  | .control id _ _ => some id
  | _ => none

/-- The controllers that a queue names, in order. -/
def controls (frames : List HostFrame) : List String := frames.filterMap controlId

@[simp] theorem controls_nil : controls [] = [] := rfl

@[simp] theorem controls_append (xs ys : List HostFrame) :
    controls (xs ++ ys) = controls xs ++ controls ys := by simp [controls]

structure Seat where
  client : ClientId
  joined : Bool
  viewerId : String

def seat (p : ClientId × Client) : Seat := ⟨p.1, p.2.inClients, p.2.viewerId⟩

/-- The client map without the sizes. -/
def seats (s : HostState G) : List Seat := s.clients.map seat

/-- There is a surface of this id, connected as far as the host knows. -/
def Heard (s : HostState G) (X : String) : Prop := X = "local" ∨ ∃ q ∈ seats s, q.viewerId = X

theorem keys_eq_seats (s : HostState G) : keys s = (seats s).map Seat.client := by
  simp [keys, seats, seat, Function.comp_def]

theorem shape_eq_seats (s : HostState G) :
    shape s = (seats s).map fun q => (q.client, q.joined) := by
  simp [shape, seats, seat, Function.comp_def]

theorem waiting_iff {s : HostState G} {n : ClientId} :
    Waiting s n ↔ ∃ q ∈ seats s, q.client = n ∧ q.joined = false := by
  simp [Waiting, shape_eq_seats]

theorem surfaceSize_ne_none {s : HostState G} {X : String} :
    s.surfaceSize X ≠ none ↔ Heard s X := by
  unfold HostState.surfaceSize Heard
  by_cases hlocal : X = "local"
  · simp [hlocal]
  · simp only [hlocal, if_false, false_or, ne_eq, Option.map_eq_none_iff, HostState.findViewer,
      List.find?_eq_none, seats, List.mem_map, seat]
    simp

/-! ## What the host keeps -/

structure Listed (s : HostState G) : Prop where
  keys : (keys s).Nodup
  reader : ∀ q ∈ seats s, q.client ∈ s.readers
  fresh : ∀ n ∈ s.readers, n < s.clientSeq
  running : s.exited = false
  /-- Who has not joined was told nothing, and nobody was where there is no controller. -/
  silent : ∀ q ∈ seats s, s.controllerId = none ∨ q.joined = false →
    controls (s.channels q.client).frames = []

/-- Everyone who has joined was told last who controls, if the controller is there. -/
def Told (s : HostState G) : Prop :=
  ∀ X, s.controllerId = some X → Heard s X → ∀ q ∈ seats s, q.joined = true →
    (s.channels q.client).dead = true ∨
      (controls (s.channels q.client).frames).getLast? = some X

/-- The surface is there, or a disconnect that will replace it is on its way. -/
def Awaited (s : HostState G) (X : String) : Prop := Heard s X ∨ Pending s

def Present (s : HostState G) : Prop := ∀ X, s.controllerId = some X → Awaited s X

structure Announced (s : HostState G) : Prop extends Listed s where
  told : Told s
  present : Present s

theorem Listed.eq_of_client {s : HostState G} (h : Listed s) {q r : Seat} (hq : q ∈ seats s)
    (hr : r ∈ seats s) (heq : q.client = r.client) : q = r := by
  have hkeys := h.keys
  rw [keys_eq_seats] at hkeys
  exact List.inj_on_of_nodup_map hkeys hq hr heq

theorem Listed.lt {s : HostState G} (h : Listed s) {q : Seat} (hq : q ∈ seats s) :
    q.client < s.clientSeq := h.fresh _ (h.reader q hq)

/-! ## Handlers that name nobody -/

/-- `t` differs from `s` by dropped clients and by frames that name no controller. -/
structure Nameless (s t : HostState G) : Prop where
  seats : (seats t).Subperm (seats s)
  controllerId : t.controllerId = s.controllerId
  readers : t.readers = s.readers
  clientSeq : t.clientSeq = s.clientSeq
  exited : t.exited = s.exited
  dead : ∀ n, (t.channels n).dead = (s.channels n).dead
  frames : ∀ n, ∃ ext, (t.channels n).frames = (s.channels n).frames ++ ext ∧ controls ext = []

/-- `Nameless`, and nothing is sent to those who have not joined. -/
structure Mute (s t : HostState G) : Prop extends Nameless s t where
  joined : ∀ n, (t.channels n).frames ≠ (s.channels n).frames →
    ∃ q ∈ Announcements.seats s, q.client = n ∧ q.joined = true

theorem Nameless.trans {s t u : HostState G} (h : Nameless s t) (k : Nameless t u) :
    Nameless s u where
  seats := k.seats.trans h.seats
  controllerId := k.controllerId.trans h.controllerId
  readers := k.readers.trans h.readers
  clientSeq := k.clientSeq.trans h.clientSeq
  exited := k.exited.trans h.exited
  dead := fun n => (k.dead n).trans (h.dead n)
  frames := by
    intro n
    obtain ⟨ext, hext, hnone⟩ := h.frames n
    obtain ⟨more, hmore, hmoreNone⟩ := k.frames n
    refine ⟨ext ++ more, ?_, ?_⟩
    · rw [hmore, hext, List.append_assoc]
    · simp [hnone, hmoreNone]

theorem Mute.trans {s t u : HostState G} (h : Mute s t) (k : Mute t u) : Mute s u where
  toNameless := h.toNameless.trans k.toNameless
  joined := by
    intro n hne
    by_cases hsame : (t.channels n).frames = (s.channels n).frames
    · obtain ⟨q, hq, hqn⟩ := k.joined n (hsame ▸ hne)
      exact ⟨q, h.seats.subset hq, hqn⟩
    · exact h.joined n hsame

/-- Neither the seats nor a queue changed. -/
theorem Mute.of_eq {s t : HostState G} (hseats : Announcements.seats t = Announcements.seats s)
    (hcontroller : t.controllerId = s.controllerId) (hreaders : t.readers = s.readers)
    (hseq : t.clientSeq = s.clientSeq) (hexited : t.exited = s.exited)
    (hch : t.channels = s.channels) : Mute s t where
  seats := by rw [hseats]
  controllerId := hcontroller
  readers := hreaders
  clientSeq := hseq
  exited := hexited
  dead := by simp [hch]
  frames := fun n => ⟨[], by simp [hch], rfl⟩
  joined := by simp [hch]

theorem Mute.refl (s : HostState G) : Mute s s := Mute.of_eq rfl rfl rfl rfl rfl rfl

theorem mem_seats_of_any {s : HostState G} {n : ClientId}
    (h : (s.clients.any fun p => p.1 == n && p.2.inClients) = true) :
    ∃ q ∈ seats s, q.client = n ∧ q.joined = true := by
  simp only [List.any_eq_true, Bool.and_eq_true, beq_iff_eq] at h
  obtain ⟨p, hp, hpn, hjoined⟩ := h
  exact ⟨seat p, List.mem_map_of_mem hp, hpn, hjoined⟩

theorem send_controls (ch : Channel) {frame : HostFrame} (hf : controlId frame = none) :
    ∃ ext, (ch.send frame).frames = ch.frames ++ ext ∧ controls ext = [] := by
  unfold Channel.send
  split
  · exact ⟨[], by simp, rfl⟩
  · exact ⟨[frame], rfl, by simp [controls, hf]⟩

theorem broadcast_seats (s : HostState G) (frame : HostFrame) :
    (seats (s.broadcast frame)).Sublist (seats s) :=
  (broadcast_keeps s frame).clients.map seat

theorem broadcast_mute (s : HostState G) {frame : HostFrame} (hf : controlId frame = none) :
    Mute s (s.broadcast frame) where
  seats := (broadcast_seats s frame).subperm
  controllerId := rfl
  readers := rfl
  clientSeq := rfl
  exited := rfl
  dead := by
    intro n
    rw [Handoff.broadcast_channels]
    split
    · exact send_dead _ _
    · rfl
  frames := by
    intro n
    rw [Handoff.broadcast_channels]
    split
    · exact send_controls _ hf
    · exact ⟨[], by simp, rfl⟩
  joined := by
    intro n hne
    rw [Handoff.broadcast_channels] at hne
    split at hne
    next hany => exact mem_seats_of_any hany
    next => exact absurd rfl hne

theorem updateLocalDisplaced_mute (s : HostState G) : Mute s s.updateLocalDisplaced := by
  unfold HostState.updateLocalDisplaced
  split
  · exact Mute.refl s
  · split
    · dsimp only
      split <;> exact Mute.of_eq rfl rfl rfl rfl rfl rfl
    · split <;> exact Mute.of_eq rfl rfl rfl rfl rfl rfl

theorem setPtySize_mute (env : HostEnv G) (s : HostState G) (cols rows : UInt16) :
    Mute s (s.setPtySize env cols rows) := by
  unfold HostState.setPtySize
  dsimp only
  split
  · refine Mute.trans ?_ (updateLocalDisplaced_mute _)
    refine Mute.trans ?_ (broadcast_mute _ rfl)
    exact Mute.of_eq rfl rfl rfl rfl rfl rfl
  · refine Mute.trans ?_ (updateLocalDisplaced_mute _)
    exact Mute.of_eq rfl rfl rfl rfl rfl rfl

theorem requestJiggle_mute (s : HostState G) : Mute s s.requestJiggle := by
  unfold HostState.requestJiggle
  split
  · exact Mute.of_eq rfl rfl rfl rfl rfl rfl
  · exact Mute.refl s

theorem modifyFirst_seats (vid : String) {f : Client → Client}
    (hf : ∀ c, (f c).inClients = c.inClients ∧ (f c).viewerId = c.viewerId)
    (clients : List (ClientId × Client)) :
    (HostState.modifyFirst vid f clients).map seat = clients.map seat := by
  induction clients with
  | nil => rfl
  | cons p ps ih =>
    unfold HostState.modifyFirst
    split
    · simp [seat, hf]
    · simp [ih]

theorem recordSize_mute (s : HostState G) (vid : String) (cols rows : UInt16) :
    Mute s (s.recordSize vid cols rows) := by
  have hseats := modifyFirst_seats vid (f := fun c => { c with cols := cols, rows := rows })
    (fun _ => ⟨rfl, rfl⟩) s.clients
  unfold HostState.recordSize
  split <;> exact Mute.of_eq hseats rfl rfl rfl rfl rfl

theorem applyAttention_mute (env : HostEnv G) (s : HostState G) (payload : AttentionPayload)
    (source : HostState.AttentionSource) (fp : String)
    (stored : Option Climon.Proto.Meta.SessionStatus) :
    Mute s (s.applyAttention env payload source fp stored) := by
  unfold HostState.applyAttention
  repeat' split
  all_goals exact Mute.of_eq rfl rfl rfl rfl rfl rfl

theorem idleSample_mute (env : HostEnv G) (s : HostState G)
    (stored : Option Climon.Proto.Meta.SessionStatus) : Mute s (s.idleSample env stored) := by
  unfold HostState.idleSample
  split
  · exact Mute.refl s
  · dsimp only
    split
    · exact Mute.of_eq rfl rfl rfl rfl rfl rfl
    · refine Mute.trans ?_ (applyAttention_mute env _ _ _ _ _)
      exact Mute.of_eq rfl rfl rfl rfl rfl rfl

theorem restoreTick_mute (s : HostState G) : Mute s s.restoreTick := by
  have hrestore : Mute s s.restoreLocal := by
    unfold HostState.restoreLocal
    split
    · exact Mute.refl s
    · exact Mute.of_eq rfl rfl rfl rfl rfl rfl
    · refine Mute.trans ?_ (requestJiggle_mute _)
      exact Mute.of_eq rfl rfl rfl rfl rfl rfl
  unfold HostState.restoreTick
  split
  · exact Mute.refl s
  · refine hrestore.trans ?_
    unfold HostState.jiggleTick
    split
    · exact Mute.refl _
    · exact Mute.of_eq rfl rfl rfl rfl rfl rfl

theorem emitLocal_mute (s : HostState G) (write : LocalWrite) : Mute s (s.emitLocal write) :=
  Mute.of_eq rfl rfl rfl rfl rfl rfl

theorem handleOutput_mute (env : HostEnv G) (s : HostState G) (data : List UInt8)
    (headless : Bool) : Mute s (s.handleOutput env data headless) := by
  unfold HostState.handleOutput
  split
  dsimp only
  split
  · refine Mute.trans ?_ (emitLocal_mute _ _)
    refine Mute.trans ?_ (broadcast_mute _ rfl)
    exact Mute.of_eq rfl rfl rfl rfl rfl rfl
  · refine Mute.trans ?_ (broadcast_mute _ rfl)
    exact Mute.of_eq rfl rfl rfl rfl rfl rfl

theorem perm_mute {s : HostState G} {clients : List (ClientId × Client)}
    (h : clients.Perm s.clients) : Mute s { s with clients := clients } where
  seats := (h.map seat).subperm
  controllerId := rfl
  readers := rfl
  clientSeq := rfl
  exited := rfl
  dead := fun _ => rfl
  frames := fun n => ⟨[], by simp, rfl⟩
  joined := fun n hne => absurd rfl hne

theorem Nameless.nodup {s t : HostState G} (k : Nameless s t) (h : (keys s).Nodup) :
    (keys t).Nodup := by
  rw [keys_eq_seats] at h ⊢
  obtain ⟨l, hl, hsub⟩ := k.seats
  exact ((hl.map Seat.client).nodup_iff).mp (h.sublist (hsub.map _))

theorem Listed.nameless {s t : HostState G} (h : Listed s) (k : Nameless s t) : Listed t where
  keys := k.nodup h.keys
  reader := by
    intro q hq
    rw [k.readers]
    exact h.reader q (k.seats.subset hq)
  fresh := by
    rw [k.readers, k.clientSeq]
    exact h.fresh
  running := k.exited.trans h.running
  silent := by
    intro q hq hwhy
    rw [k.controllerId] at hwhy
    obtain ⟨ext, hext, hnone⟩ := k.frames q.client
    rw [hext, controls_append, hnone, h.silent q (k.seats.subset hq) hwhy]
    rfl

theorem Heard.of_subset {s t : HostState G} {X : String}
    (hsub : ∀ q ∈ seats t, q ∈ seats s) (h : Heard t X) : Heard s X := by
  rcases h with hlocal | ⟨q, hq, hqX⟩
  · exact .inl hlocal
  · exact .inr ⟨q, hsub q hq, hqX⟩

theorem Told.nameless {s t : HostState G} (h : Told s) (k : Nameless s t) : Told t := by
  intro X hX hheard q hq hjoined
  rw [k.controllerId] at hX
  obtain ⟨ext, hext, hnone⟩ := k.frames q.client
  rw [k.dead, hext, controls_append, hnone, List.append_nil]
  exact h X hX (hheard.of_subset fun q hq => k.seats.subset hq) q (k.seats.subset hq) hjoined

/-- A client is dropped while its reader still runs. -/
theorem Awaited.drop {s t : HostState G} {X : String} (hl : Listed s) (h : Awaited s X)
    (hseats : (seats t).Subperm (seats s)) (hreaders : t.readers = s.readers) : Awaited t X := by
  have hgone : ∀ n ∉ keys s, n ∉ keys t := by
    intro n hn hmem
    rw [keys_eq_seats] at hn hmem
    exact hn (List.map_subset _ hseats.subset hmem)
  rcases h with (hlocal | ⟨q, hq, hqX⟩) | ⟨n, hn, hkey⟩
  · exact .inl (.inl hlocal)
  · by_cases hmem : q ∈ seats t
    · exact .inl (.inr ⟨q, hmem, hqX⟩)
    · refine .inr ⟨q.client, hreaders ▸ hl.reader q hq, fun hkey => hmem ?_⟩
      rw [keys_eq_seats] at hkey
      obtain ⟨r, hr, hrq⟩ := List.mem_map.mp hkey
      rwa [← hl.eq_of_client (hseats.subset hr) hq hrq]
  · exact .inr ⟨n, hreaders ▸ hn, hgone n hkey⟩

theorem Present.drop {s t : HostState G} (hl : Listed s) (h : Present s)
    (hseats : (seats t).Subperm (seats s)) (hreaders : t.readers = s.readers)
    (hcontroller : t.controllerId = s.controllerId) : Present t := by
  intro X hX
  exact (h X (hcontroller ▸ hX)).drop hl hseats hreaders

theorem Present.nameless {s t : HostState G} (hl : Listed s) (h : Present s)
    (k : Nameless s t) :
    Present t := h.drop hl k.seats k.readers k.controllerId

theorem Announced.nameless {s t : HostState G} (h : Announced s) (k : Nameless s t) :
    Announced t where
  toListed := h.toListed.nameless k
  told := h.told.nameless k
  present := h.present.nameless h.toListed k

theorem Listed.mute {s t : HostState G} (h : Listed s) (k : Mute s t) : Listed t :=
  h.nameless k.toNameless

theorem Present.mute {s t : HostState G} (hl : Listed s) (h : Present s) (k : Mute s t) :
    Present t := h.nameless hl k.toNameless

theorem Announced.mute {s t : HostState G} (h : Announced s) (k : Mute s t) : Announced t :=
  h.nameless k.toNameless

/-! ## Handlers that name the controller -/

theorem broadcast_controls (s : HostState G) (X : String) (cols rows : UInt16) {q : Seat}
    (hq : q ∈ seats s) (hjoined : q.joined = true) :
    ((s.broadcast (.control X cols rows)).channels q.client).dead = true ∨
      (controls ((s.broadcast (.control X cols rows)).channels q.client).frames).getLast? =
        some X := by
  obtain ⟨p, hp, rfl⟩ := List.mem_map.mp hq
  have hany : (s.clients.any fun r => r.1 == (seat p).client && r.2.inClients) = true :=
    List.any_eq_true.mpr ⟨p, hp, by simpa [seat] using hjoined⟩
  rw [Handoff.broadcast_channels, if_pos hany]
  unfold Channel.send
  split
  next hdead => exact .inl hdead
  next => exact .inr (by simp [controls, controlId])

/-- Whatever was told before, everyone hears of the controller now. -/
theorem broadcastControl_announced {s : HostState G} (h : Listed s) (hpresent : Present s) :
    Announced s.broadcastControl := by
  unfold HostState.broadcastControl
  split
  next id cols rows hid hsize =>
    have hsub := broadcast_seats s (.control id cols rows)
    have hlisted : Listed (s.broadcast (.control id cols rows)) := by
      refine ⟨?_, fun q hq => h.reader q (hsub.subset hq), h.fresh, h.running, ?_⟩
      · have hkeys := h.keys
        rw [keys_eq_seats] at hkeys ⊢
        exact hkeys.sublist (hsub.map _)
      · intro q hq hwhy
        rcases hwhy with hnone | hwaiting
        · rw [show (s.broadcast (.control id cols rows)).controllerId = s.controllerId from rfl,
            hid] at hnone
          cases hnone
        · rw [Handoff.broadcast_channels]
          split
          next hany =>
            obtain ⟨r, hr, hrq, hjoined⟩ := mem_seats_of_any hany
            rw [h.eq_of_client hr (hsub.subset hq) hrq, hwaiting] at hjoined
            cases hjoined
          next => exact h.silent q (hsub.subset hq) (.inr hwaiting)
    refine ⟨hlisted, ?_, hpresent.drop h hsub.subperm rfl rfl⟩
    intro X hX _ q hq hjoined
    rw [show (s.broadcast (.control id cols rows)).controllerId = s.controllerId from rfl,
      hid] at hX
    cases hX
    exact broadcast_controls s id cols rows (hsub.subset hq) hjoined
  next hnone =>
    refine ⟨h, ?_, hpresent⟩
    intro X hX hheard
    have hsize := surfaceSize_ne_none.mpr hheard
    obtain ⟨size, hsize⟩ := Option.ne_none_iff_exists'.mp hsize
    exact absurd (by rw [HostState.controllerSize, hX]; exact hsize) (hnone X size.1 size.2 hX)

/-- Somebody else is put in control. -/
theorem Listed.control {s : HostState G} (h : Listed s) (X : String) :
    Listed { s with controllerId := some X } where
  keys := h.keys
  reader := h.reader
  fresh := h.fresh
  running := h.running
  silent := by
    intro q hq hwhy
    rcases hwhy with hnone | hwaiting
    · cases hnone
    · exact h.silent q hq (.inr hwaiting)

theorem present_control {s : HostState G} {X : String} (h : Awaited s X) :
    Present { s with controllerId := some X } := by
  intro Y hY
  cases hY
  exact h

theorem claimControl_listed {s : HostState G} {vid : String} (h : Listed s)
    (hpresent : Present s) (hvid : Awaited s vid) :
    Listed (s.claimControl vid) ∧ Present (s.claimControl vid) := by
  unfold HostState.claimControl
  split
  · exact ⟨h.control vid, present_control hvid⟩
  · exact ⟨h, hpresent⟩

theorem applyResize_announced (env : HostEnv G) {s : HostState G} {size : ResizePayload}
    (h : Listed s) (hpresent : Present s) (hvid : Awaited s (size.viewerId.getD "local")) :
    Announced (s.applyResize env size) := by
  unfold HostState.applyResize
  dsimp only
  generalize size.viewerId.getD "local" = vid at hvid ⊢
  have hrecord := recordSize_mute s vid (max1 size.cols) (max1 size.rows)
  obtain ⟨hc, hpc⟩ := claimControl_listed (h.mute hrecord) (hpresent.mute h hrecord)
    (hvid.drop h hrecord.seats hrecord.readers)
  have hbranch {t : HostState G} (k : Mute _ t) : Announced t.broadcastControl :=
    broadcastControl_announced (hc.mute k) (hpc.mute hc k)
  split
  · exact hbranch (setPtySize_mute env _ _ _)
  · split
    · exact hbranch (updateLocalDisplaced_mute _)
    · exact hbranch (Mute.refl _)

theorem takeControl_announced (env : HostEnv G) {s : HostState G} (h : Announced s)
    (vid : String) : Announced (s.takeControl env vid) := by
  unfold HostState.takeControl
  split
  · exact h
  next cols rows hsize =>
    have hheard : Heard s vid := surfaceSize_ne_none.mp (by rw [hsize]; simp)
    have hc := h.toListed.control vid
    have hpc : Present { s with controllerId := some vid } := present_control (.inl hheard)
    dsimp only
    have hbranch {t : HostState G} (k : Mute { s with controllerId := some vid } t) :
        Announced t.broadcastControl := broadcastControl_announced (hc.mute k) (hpc.mute hc k)
    split
    · exact hbranch ((setPtySize_mute env _ cols rows).trans (requestJiggle_mute _))
    · exact hbranch (setPtySize_mute env _ cols rows)

theorem heard_of_connected {s : HostState G} {X : String} (h : Connected s X) : Heard s X := by
  rcases h with ⟨hlocal, -⟩ | ⟨p, hp, hpX⟩
  · exact .inl hlocal
  · exact .inr ⟨seat p, List.mem_map_of_mem hp, hpX⟩

theorem broadcastControl_controllerId (s : HostState G) :
    s.broadcastControl.controllerId = s.controllerId :=
  (broadcastControl_keeps s).controllerId

theorem unjoined_of_nobody {s : HostState G} (h : chooseController s.surfaces = none) :
    ∀ q ∈ seats s, q.joined = false := by
  intro q hq
  obtain ⟨p, hp, rfl⟩ := List.mem_map.mp hq
  rw [chooseController_eq_none, HostState.surfaces, List.append_eq_nil_iff] at h
  have hfilter := List.filter_eq_nil_iff.mp (List.map_eq_nil_iff.mp h.1) p hp
  simpa [seat] using hfilter

/-- No controller is left only where nobody is left who has joined. -/
theorem recomputeController_none (env : HostEnv G) {s : HostState G}
    (h : (s.recomputeController env).controllerId = none) :
    ∀ q ∈ seats (s.recomputeController env), q.joined = false := by
  unfold HostState.recomputeController at h ⊢
  split at h
  next hthere =>
    obtain ⟨v, hv, -⟩ := Handoff.controllerPresent_connected hthere
    rw [hv] at h
    cases h
  next hthere =>
    rw [if_neg hthere]
    split at h
    next surface hchoice =>
      rw [broadcastControl_controllerId, (setPtySize_mute env _ _ _).controllerId] at h
      cases h
    next hnobody => exact unjoined_of_nobody hnobody

theorem recomputeController_announced (env : HostEnv G) {s : HostState G} (h : Listed s)
    (htold : Told s) : Announced (s.recomputeController env) := by
  unfold HostState.recomputeController
  split
  next hthere =>
    obtain ⟨v, hv, hconnected⟩ := Handoff.controllerPresent_connected hthere
    refine ⟨h, htold, ?_⟩
    intro X hX
    rw [hv] at hX
    cases hX
    exact .inl (heard_of_connected hconnected)
  next =>
    split
    next surface hchoice =>
      have hheard : Heard s surface.id := by
        rcases Handoff.mem_surfaces (chooseController_mem hchoice) with ⟨p, hp, rfl⟩ | ⟨-, rfl⟩
        · exact .inr ⟨seat p, List.mem_map_of_mem hp, rfl⟩
        · exact .inl rfl
      have hc := h.control surface.id
      have hpc : Present { s with controllerId := some surface.id } := present_control (.inl hheard)
      have hset := setPtySize_mute env { s with controllerId := some surface.id }
        (max1 surface.cols) (max1 surface.rows)
      exact broadcastControl_announced (hc.mute hset) (hpc.mute hc hset)
    next hnobody =>
      have hwaiting := unjoined_of_nobody hnobody
      refine ⟨⟨h.keys, h.reader, h.fresh, h.running, ?_⟩, ?_, ?_⟩
      · intro q hq _
        exact h.silent q hq (.inr (hwaiting q hq))
      · intro X hX
        cases hX
      · intro X hX
        cases hX

/-! ## Connections -/

theorem sendToClient_nameless (s : HostState G) (n : ClientId) {frame : HostFrame}
    (hf : controlId frame = none) : Nameless s (s.sendToClient n frame) := by
  have hkeeps := (sendToClient_keeps s n frame).toKeeps
  refine ⟨(hkeeps.clients.map seat).subperm, hkeeps.controllerId, hkeeps.readers, hkeeps.clientSeq,
    hkeeps.exited, ?_, ?_⟩
  · intro m
    rw [Handoff.sendToClient_channels]
    split
    · exact send_dead _ _
    · rfl
  · intro m
    rw [Handoff.sendToClient_channels]
    split
    · exact send_controls _ hf
    · exact ⟨[], by simp, rfl⟩

theorem writeReplay_nameless (s : HostState G) (n : ClientId) : Nameless s (s.writeReplay n) :=
  (sendToClient_nameless s n rfl).trans (sendToClient_nameless _ n rfl)

theorem sendToClient_mute {s : HostState G} {n : ClientId} {frame : HostFrame}
    (hjoined : ∀ q ∈ seats s, q.client = n → q.joined = true) (hf : controlId frame = none) :
    Mute s (s.sendToClient n frame) where
  toNameless := sendToClient_nameless s n hf
  joined := by
    intro m hne
    rw [Handoff.sendToClient_channels] at hne
    split at hne
    next hm =>
      obtain ⟨hnm, hsome⟩ := hm
      obtain ⟨c, hc⟩ := Option.isSome_iff_exists.mp hsome
      have hseat : seat (n, c) ∈ seats s := List.mem_map_of_mem (mem_of_getClient hc)
      exact ⟨_, hseat, hnm, hjoined _ hseat rfl⟩
    next => exact absurd rfl hne

theorem writeReplay_mute {s : HostState G} {n : ClientId}
    (hjoined : ∀ q ∈ seats s, q.client = n → q.joined = true) : Mute s (s.writeReplay n) := by
  unfold HostState.writeReplay
  dsimp only
  have hfirst : Mute s (s.sendToClient n (.ptySize s.appliedCols s.appliedRows)) :=
    sendToClient_mute hjoined rfl
  refine hfirst.trans (sendToClient_mute ?_ rfl)
  intro q hq
  exact hjoined q (hfirst.seats.subset hq)

theorem markJoined_seats (s : HostState G) (n : ClientId) :
    seats (markJoined s n) =
      (seats s).map fun q => if q.client = n then { q with joined := true } else q := by
  unfold seats markJoined HostState.modifyClient
  rw [List.map_map, List.map_map]
  apply List.map_congr_left
  intro p _
  by_cases hp : p.1 = n <;> simp [seat, hp]

theorem mem_markJoined_seats {s : HostState G} {n : ClientId} {q : Seat}
    (h : q ∈ seats (markJoined s n)) :
    ∃ r ∈ seats s, q.client = r.client ∧ q.viewerId = r.viewerId ∧
      (q.client = n ∧ q.joined = true ∨ q.client ≠ n ∧ q = r) := by
  rw [markJoined_seats] at h
  obtain ⟨r, hr, rfl⟩ := List.mem_map.mp h
  refine ⟨r, hr, ?_⟩
  by_cases hn : r.client = n <;> simp [hn]

theorem markJoined_listed {s : HostState G} (h : Listed s) (n : ClientId) :
    Listed (markJoined s n) where
  keys := by
    rw [markJoined_keys]
    exact h.keys
  reader := by
    intro q hq
    obtain ⟨r, hr, hclient, -⟩ := mem_markJoined_seats hq
    rw [hclient]
    exact h.reader r hr
  fresh := h.fresh
  running := h.running
  silent := by
    intro q hq hwhy
    obtain ⟨r, hr, hclient, -, ⟨-, hjoined⟩ | ⟨-, rfl⟩⟩ := mem_markJoined_seats hq
    · rw [hjoined] at hwhy
      rw [hclient]
      exact h.silent r hr (.inl (hwhy.resolve_right (by simp)))
    · exact h.silent q hr hwhy

theorem markJoined_present {s : HostState G} (h : Present s) (n : ClientId) :
    Present (markJoined s n) := by
  intro X hX
  rcases h X hX with (hlocal | ⟨q, hq, hqX⟩) | ⟨m, hm, hkey⟩
  · exact .inl (.inl hlocal)
  · refine .inl (.inr ⟨if q.client = n then { q with joined := true } else q, ?_, ?_⟩)
    · rw [markJoined_seats]
      exact List.mem_map_of_mem hq
    · split <;> exact hqX
  · exact .inr ⟨m, hm, by rwa [markJoined_keys]⟩

theorem markJoined_joined {s : HostState G} {n : ClientId} {q : Seat}
    (hq : q ∈ seats (markJoined s n)) (hn : q.client = n) : q.joined = true := by
  obtain ⟨-, -, -, -, ⟨-, hjoined⟩ | ⟨hne, -⟩⟩ := mem_markJoined_seats hq
  · exact hjoined
  · exact absurd hn hne

/-- Joining, step by step: the replay, then the news of who controls. -/
theorem writeInitialFrames_eq {s : HostState G} (h : Listed s) (n : ClientId) :
    s.writeInitialFrames n = s ∧ ¬ Waiting s n ∨ Waiting s n ∧
      s.writeInitialFrames n =
        ((markJoined s n).writeReplay n).updateLocalDisplaced.broadcastControl := by
  by_cases hwaiting : Waiting s n
  · right
    refine ⟨hwaiting, ?_⟩
    obtain ⟨c, hc, hin⟩ := getClient_of_waiting h.keys hwaiting
    have hrunning :
        ((markJoined s n).writeReplay n).updateLocalDisplaced.broadcastControl.exited = false := by
      rw [(broadcastControl_keeps _).exited, (updateLocalDisplaced_keeps _).exited,
        (writeReplay_keeps _ n).exited]
      exact h.running
    unfold HostState.writeInitialFrames
    rw [hc]
    simp only [hin, Bool.false_eq_true, if_false]
    change (if ((markJoined s n).writeReplay n).updateLocalDisplaced.broadcastControl.exited then _
      else ((markJoined s n).writeReplay n).updateLocalDisplaced.broadcastControl) = _
    rw [hrunning]
    rfl
  · exact .inl ⟨writeInitialFrames_of_not_waiting hwaiting, hwaiting⟩

theorem writeInitialFrames_announced {s : HostState G} (h : Announced s) (n : ClientId) :
    Announced (s.writeInitialFrames n) := by
  rcases writeInitialFrames_eq h.toListed n with ⟨hsame, -⟩ | ⟨-, hjoin⟩
  · rw [hsame]
    exact h
  · rw [hjoin]
    have hm := markJoined_listed h.toListed n
    have hmute : Mute (markJoined s n) ((markJoined s n).writeReplay n).updateLocalDisplaced :=
      (writeReplay_mute fun q hq hn => markJoined_joined hq hn).trans (updateLocalDisplaced_mute _)
    exact broadcastControl_announced (hm.mute hmute) ((markJoined_present h.present n).mute hm hmute)

theorem acceptClient_announced {s : HostState G} (h : Announced s)
    (hnew : s.controllerId ≠ some s!"client-{s.clientSeq}") : Announced s.acceptClient := by
  have hseats : seats s.acceptClient =
      ⟨s.clientSeq, false, s!"client-{s.clientSeq}"⟩ :: seats s := rfl
  have hother {q : Seat} (hq : q ∈ seats s) : s.acceptClient.channels q.client =
      s.channels q.client := acceptClient_channels (Nat.ne_of_lt (h.lt hq))
  have hown : s.acceptClient.channels s.clientSeq = ⟨[], false⟩ := by
    simp [HostState.acceptClient]
  refine ⟨⟨?_, ?_, ?_, h.running, ?_⟩, ?_, ?_⟩
  · have hkeys := h.keys
    rw [keys_eq_seats] at hkeys ⊢
    rw [hseats, List.map_cons, List.nodup_cons]
    refine ⟨fun hmem => ?_, hkeys⟩
    obtain ⟨q, hq, hqs⟩ := List.mem_map.mp hmem
    exact Nat.ne_of_lt (h.lt hq) hqs
  · intro q hq
    rw [hseats] at hq
    rcases List.mem_cons.mp hq with rfl | hq
    · exact List.mem_cons_self
    · exact List.mem_cons_of_mem _ (h.reader q hq)
  · intro n hn
    rcases List.mem_cons.mp hn with rfl | hn
    · exact Nat.lt_succ_self _
    · exact Nat.lt_succ_of_lt (h.fresh n hn)
  · intro q hq hwhy
    rw [hseats] at hq
    rcases List.mem_cons.mp hq with rfl | hq
    · rw [hown]
      rfl
    · rw [hother hq]
      exact h.silent q hq hwhy
  · intro X hX hheard q hq hjoined
    rw [hseats] at hq
    rcases List.mem_cons.mp hq with rfl | hq
    · cases hjoined
    · rw [hother hq]
      refine h.told X hX ?_ q hq hjoined
      rcases hheard with hlocal | ⟨r, hr, hrX⟩
      · exact .inl hlocal
      · rw [hseats] at hr
        rcases List.mem_cons.mp hr with rfl | hr
        · subst hrX
          exact absurd hX hnew
        · exact .inr ⟨r, hr, hrX⟩
  · intro X hX
    rcases h.present X hX with (hlocal | ⟨q, hq, hqX⟩) | ⟨n, hn, hkey⟩
    · exact .inl (.inl hlocal)
    · exact .inl (.inr ⟨q, by rw [hseats]; exact List.mem_cons_of_mem _ hq, hqX⟩)
    · refine .inr ⟨n, List.mem_cons_of_mem _ hn, ?_⟩
      rw [keys_eq_seats, hseats, List.map_cons, List.mem_cons, ← keys_eq_seats]
      exact fun hmem => hmem.elim (Nat.ne_of_lt (h.fresh n hn)) hkey

theorem killWriter_announced {s : HostState G} (h : Announced s) (n : ClientId) :
    Announced (killWriter s n) where
  keys := h.keys
  reader := h.reader
  fresh := h.fresh
  running := h.running
  silent := by
    intro q hq hwhy
    rw [killWriter_frames]
    exact h.silent q hq hwhy
  told := by
    intro X hX hheard q hq hjoined
    rw [killWriter_frames]
    refine (h.told X hX hheard q hq hjoined).imp_left fun hdead => ?_
    by_cases hn : q.client = n
    · simp [killWriter, hn]
    · simpa [killWriter, Function.update_of_ne hn] using hdead
  present := h.present

/-- The state in which a lost connection's controller is looked after. -/
def departed (s : HostState G) (n : ClientId) : HostState G :=
  HostState.removeClient { s with readers := s.readers.filter (· != n) } n

theorem departed_seats (s : HostState G) (n : ClientId) :
    (seats (departed s n)).Sublist (seats s) :=
  List.filter_sublist.map seat

theorem departed_listed {s : HostState G} (h : Listed s) (n : ClientId) :
    Listed (departed s n) := by
  have hsub := departed_seats s n
  refine ⟨?_, ?_, ?_, h.running, fun q hq hwhy => h.silent q (hsub.subset hq) hwhy⟩
  · have hkeys := h.keys
    rw [keys_eq_seats] at hkeys ⊢
    exact hkeys.sublist (hsub.map _)
  · intro q hq
    obtain ⟨p, hp, rfl⟩ := List.mem_map.mp hq
    have hmem := List.mem_filter.mp hp
    exact List.mem_filter.mpr ⟨h.reader _ (List.mem_map_of_mem hmem.1), hmem.2⟩
  · intro m hm
    exact h.fresh m (List.mem_filter.mp hm).1

theorem departed_gone (s : HostState G) (n : ClientId) :
    ∀ q ∈ seats (departed s n), q.client ≠ n := by
  intro q hq
  obtain ⟨p, hp, rfl⟩ := List.mem_map.mp hq
  simpa [seat] using (List.mem_filter.mp hp).2

theorem handleDisconnect_announced (env : HostEnv G) {s : HostState G} (h : Announced s)
    (n : ClientId) : Announced (handle env s (.disconnect n)) := by
  refine recomputeController_announced env (departed_listed h.toListed n) ?_
  have hsub := departed_seats s n
  intro X hX hheard q hq hjoined
  exact h.told X hX (hheard.of_subset fun q hq => hsub.subset hq) q (hsub.subset hq) hjoined

/-! ## Resize frames -/

theorem stampResize_fields (s : HostState G) (n : ClientId) (size : ResizePayload) :
    (s.stampResize n size).1.controllerId = s.controllerId ∧
      (s.stampResize n size).1.readers = s.readers ∧
      (s.stampResize n size).1.clientSeq = s.clientSeq ∧
      (s.stampResize n size).1.exited = s.exited ∧
      (s.stampResize n size).1.channels = s.channels := by
  unfold HostState.stampResize
  split <;> exact ⟨rfl, rfl, rfl, rfl, rfl⟩

theorem stampResize_none {s : HostState G} {n : ClientId} (size : ResizePayload)
    (hc : s.getClient n = none) : s.stampResize n size = (s, size) := by
  simp [HostState.stampResize, hc]

theorem stampResize_viewerId {s : HostState G} {n : ClientId} {c : Client} (size : ResizePayload)
    (hc : s.getClient n = some c) :
    (s.stampResize n size).2.viewerId = some (stampedId c size) := by
  simp [HostState.stampResize, hc]

theorem stampResize_seats {s : HostState G} {n : ClientId} {c : Client} (size : ResizePayload)
    (hc : s.getClient n = some c) :
    seats (s.stampResize n size).1 = (seats s).map fun q =>
        if q.client = n then { q with viewerId := stampedId c size } else q := by
  unfold HostState.stampResize
  rw [hc]
  dsimp only [HostState.modifyClient, seats]
  rw [List.map_map, List.map_map]
  apply List.map_congr_left
  intro p _
  by_cases hp : p.1 = n <;> simp [seat, hp]

/-- A stamped seat is the old one, but for the viewer id of the client that sent the frame. -/
theorem mem_stampResize_seats {s : HostState G} {n : ClientId} {size : ResizePayload} {q : Seat}
    (h : q ∈ seats (s.stampResize n size).1) :
    ∃ r ∈ seats s, q.client = r.client ∧ q.joined = r.joined ∧
      (q.client ≠ n → q.viewerId = r.viewerId) := by
  cases hc : s.getClient n with
  | none =>
    rw [stampResize_none size hc] at h
    exact ⟨q, h, rfl, rfl, fun _ => rfl⟩
  | some c =>
    rw [stampResize_seats size hc] at h
    obtain ⟨r, hr, rfl⟩ := List.mem_map.mp h
    refine ⟨r, hr, ?_⟩
    by_cases hn : r.client = n <;> simp [hn]

theorem stampResize_keys (s : HostState G) (n : ClientId) (size : ResizePayload) :
    keys (s.stampResize n size).1 = keys s := by
  cases hc : s.getClient n with
  | none => rw [stampResize_none size hc]
  | some c =>
    rw [keys_eq_seats, keys_eq_seats, stampResize_seats size hc, List.map_map]
    apply List.map_congr_left
    intro q _
    dsimp only [Function.comp_apply]
    split <;> rfl

/-- A resize frame renames nobody who is in control. -/
def KeepsName (s : HostState G) (n : ClientId) (size : ResizePayload) : Prop :=
  ∀ c, (n, c) ∈ s.clients → s.controllerId = some c.viewerId → stampedId c size = c.viewerId

theorem stampResize_listed {s : HostState G} (h : Listed s) (n : ClientId) (size : ResizePayload) :
    Listed (s.stampResize n size).1 := by
  obtain ⟨hcontroller, hreaders, hseq, hexited, hch⟩ := stampResize_fields s n size
  refine ⟨?_, ?_, ?_, hexited.trans h.running, ?_⟩
  · rw [stampResize_keys]
    exact h.keys
  · intro q hq
    obtain ⟨r, hr, hclient, -⟩ := mem_stampResize_seats hq
    rw [hclient, hreaders]
    exact h.reader r hr
  · rw [hreaders, hseq]
    exact h.fresh
  · intro q hq hwhy
    obtain ⟨r, hr, hclient, hjoined, -⟩ := mem_stampResize_seats hq
    rw [hcontroller, hjoined] at hwhy
    rw [hch, hclient]
    exact h.silent r hr hwhy

theorem stampResize_present {s : HostState G} (h : Listed s) (hpresent : Present s) {n : ClientId}
    {size : ResizePayload} (hname : KeepsName s n size) :
    Present (s.stampResize n size).1 := by
  obtain ⟨hcontroller, hreaders, -, -, -⟩ := stampResize_fields s n size
  intro X hX
  rw [hcontroller] at hX
  rcases hpresent X hX with (hlocal | ⟨q, hq, hqX⟩) | ⟨m, hm, hkey⟩
  · exact .inl (.inl hlocal)
  · left
    right
    cases hc : s.getClient n with
    | none =>
      rw [stampResize_none size hc]
      exact ⟨q, hq, hqX⟩
    | some c =>
      rw [stampResize_seats size hc]
      refine ⟨_, List.mem_map_of_mem hq, ?_⟩
      by_cases hn : q.client = n
      · -- the controller itself reports a size
        have hown : q = seat (n, c) :=
          h.eq_of_client hq (List.mem_map_of_mem (mem_of_getClient hc)) hn
        have hc' : c.viewerId = X := by
          rw [← hqX, hown]
          rfl
        rw [if_pos hn]
        exact (hname c (mem_of_getClient hc) (hc' ▸ hX)).trans hc'
      · rw [if_neg hn]
        exact hqX
  · exact .inr ⟨m, hreaders ▸ hm, by rwa [stampResize_keys]⟩

/-- The id that the frame is routed by is a connected client's, or its client was dropped. -/
theorem stampResize_awaited {s : HostState G} {n : ClientId} (size : ResizePayload)
    (hreader : n ∈ s.readers) :
    Awaited (s.stampResize n size).1 ((s.stampResize n size).2.viewerId.getD "local") := by
  cases hc : s.getClient n with
  | none =>
    refine .inr ⟨n, ?_, ?_⟩
    · rw [stampResize_none size hc]
      exact hreader
    · rw [stampResize_keys]
      intro hkey
      obtain ⟨p, hp, hpn⟩ := List.mem_map.mp hkey
      have hsome := getClient_isSome hp
      rw [hpn, hc] at hsome
      cases hsome
  | some c =>
    rw [stampResize_viewerId size hc, Awaited, Heard, stampResize_seats size hc]
    refine .inl (.inr ⟨_, List.mem_map_of_mem (List.mem_map_of_mem (mem_of_getClient hc)), ?_⟩)
    simp [seat]

theorem resize_announced (env : HostEnv G) {s : HostState G} (h : Announced s) {n : ClientId}
    {size : ResizePayload} (hname : KeepsName s n size) (hreader : n ∈ s.readers) :
    Announced ((s.stampResize n size).1.applyResize env (s.stampResize n size).2) := by
  exact applyResize_announced env (stampResize_listed h.toListed n size)
    (stampResize_present h.toListed h.present hname) (stampResize_awaited size hreader)

/-! ## Every step -/

/-- A new connection's default id is not the controller's, and the controller is not renamed. -/
def Orderly (s : HostState G) : Event → Prop
  | .connect => s.controllerId ≠ some s!"client-{s.clientSeq}"
  | .frame n (.resize size) _ => KeepsName s n size
  | .exit _ => False
  | _ => True

theorem handle_announced (env : HostEnv G) {s : HostState G} {e : Event} (h : Announced s)
    (ho : Orderly s e) (hen : enabled s e = true) : Announced (handle env s e) := by
  cases e with
  | connect => exact acceptClient_announced h ho
  | initialFramesTimer n => exact writeInitialFrames_announced h n
  | frame n frame stored =>
    have hreader : n ∈ s.readers := List.contains_iff_mem.mp hen
    cases frame with
    | input payload =>
      simp only [handle, HostState.handleFrame]
      split
      · exact h.mute (applyAttention_mute env s _ _ _ _)
      · exact h
    | resize size => exact writeInitialFrames_announced (resize_announced env h ho hreader) n
    | takeControl =>
      simp only [handle, HostState.handleFrame]
      split
      · exact h
      · split
        · exact h
        · exact takeControl_announced env h _
    | attention payload =>
      exact writeInitialFrames_announced (h.mute (applyAttention_mute env s _ _ _ _)) n
    | replay => exact h.nameless (writeReplay_nameless s n)
    | other => exact h
  | disconnect n => exact handleDisconnect_announced env h n
  | writerDies n => exact killWriter_announced h n
  | localResize cols rows =>
    exact applyResize_announced env h.toListed h.present (.inl (.inl rfl))
  | localStdin bytes =>
    simp only [handle, HostState.localStdin]
    split
    · exact takeControl_announced env h "local"
    · exact h
    · exact h
  | output data => exact h.mute (handleOutput_mute env s data _)
  | restoreTick => exact h.mute (restoreTick_mute s)
  | idleSample stored => exact h.mute (idleSample_mute env s stored)
  | clock now => exact h.mute (Mute.of_eq rfl rfl rfl rfl rfl rfl)
  | exit exitCode => exact ho.elim

/-! ## What a step leaves of a connection -/

/-- No connection is new; `m` tells who may have reported which id, `r` who may have asked for a
replay. -/
structure Evolves (m : Option (ClientId × String)) (r : Option ClientId) (s t : HostState G) :
    Prop where
  clientSeq : t.clientSeq = s.clientSeq
  seats : ∀ q ∈ seats t, ∃ q' ∈ Announcements.seats s, q'.client = q.client ∧
    (q'.joined = true → q.joined = true) ∧
      (q'.viewerId = q.viewerId ∨ m = some (q.client, q.viewerId))
  frames : ∀ n, ∃ ext, (t.channels n).frames = (s.channels n).frames ++ ext
  held : ∀ n, some n ≠ r → (t.channels n).frames ≠ (s.channels n).frames →
    ∀ q ∈ Announcements.seats t, q.client = n → q.joined = true
  dead : ∀ n, (s.channels n).dead = true → (t.channels n).dead = true

section

variable {m : Option (ClientId × String)} {r : Option ClientId} {s t u : HostState G}

theorem Evolves.trans (h : Evolves m r s t) (k : Evolves m r t u) : Evolves m r s u where
  clientSeq := k.clientSeq.trans h.clientSeq
  seats := by
    intro q hq
    obtain ⟨q', hq', hclient, hjoined, hid⟩ := k.seats q hq
    obtain ⟨q'', hq'', hclient', hjoined', hid'⟩ := h.seats q' hq'
    refine ⟨q'', hq'', hclient'.trans hclient, fun hq => hjoined (hjoined' hq), ?_⟩
    rcases hid with hid | hid
    · rw [hclient, hid] at hid'
      exact hid'
    · exact .inr hid
  frames := by
    intro n
    obtain ⟨ext, hext⟩ := h.frames n
    obtain ⟨more, hmore⟩ := k.frames n
    exact ⟨ext ++ more, by rw [hmore, hext, List.append_assoc]⟩
  held := by
    intro n hr hne q hq hn
    by_cases hsame : (t.channels n).frames = (s.channels n).frames
    · exact k.held n hr (hsame ▸ hne) q hq hn
    · obtain ⟨q', hq', hclient, hjoined, -⟩ := k.seats q hq
      exact hjoined (h.held n hr hsame q' hq' (hclient.trans hn))
  dead := fun n hdead => k.dead n (h.dead n hdead)

theorem Evolves.of_seats (hsub : ∀ q ∈ Announcements.seats t, q ∈ Announcements.seats s)
    (hseq : t.clientSeq = s.clientSeq) (hch : t.channels = s.channels) : Evolves m r s t where
  clientSeq := hseq
  seats := fun q hq => ⟨q, hsub q hq, rfl, id, .inl rfl⟩
  frames := fun n => ⟨[], by simp [hch]⟩
  held := by simp [hch]
  dead := by simp [hch]

theorem Evolves.refl (s : HostState G) : Evolves m r s s :=
  Evolves.of_seats (fun _ hq => hq) rfl rfl

theorem Mute.evolves (hl : Listed s) (k : Mute s t) : Evolves m r s t where
  clientSeq := k.clientSeq
  seats := fun q hq => ⟨q, k.seats.subset hq, rfl, id, .inl rfl⟩
  frames := fun n => (k.frames n).imp fun _ h => h.1
  held := by
    intro n _ hne q hq hn
    obtain ⟨q', hq', hn', hjoined⟩ := k.joined n hne
    rwa [hl.eq_of_client (k.seats.subset hq) hq' (hn.trans hn'.symm)]
  dead := fun n hdead => (k.dead n).trans hdead

theorem broadcastControl_evolves (hl : Listed s) : Evolves m r s s.broadcastControl := by
  unfold HostState.broadcastControl
  split
  next id cols rows _ _ =>
    have hsub := broadcast_seats s (.control id cols rows)
    refine ⟨rfl, fun q hq => ⟨q, hsub.subset hq, rfl, fun h => h, .inl rfl⟩, ?_, ?_, ?_⟩
    · intro n
      rw [Handoff.broadcast_channels]
      split
      · unfold Channel.send
        split
        · exact ⟨[], by simp⟩
        · exact ⟨_, rfl⟩
      · exact ⟨[], by simp⟩
    · intro n _ hne q hq hn
      rw [Handoff.broadcast_channels] at hne
      split at hne
      next hany =>
        obtain ⟨q', hq', hn', hjoined⟩ := mem_seats_of_any hany
        rwa [hl.eq_of_client (hsub.subset hq) hq' (hn.trans hn'.symm)]
      next => exact absurd rfl hne
    · intro n hdead
      rw [Handoff.broadcast_channels]
      split
      · rwa [send_dead]
      · exact hdead
  next => exact Evolves.refl s

theorem Mute.broadcastControl_evolves (hl : Listed s) (k : Mute s t) :
    Evolves m r s t.broadcastControl :=
  (k.evolves hl).trans (Announcements.broadcastControl_evolves (hl.mute k))

theorem control_evolves (controllerId : Option String) :
    Evolves m r s { s with controllerId := controllerId } :=
  Evolves.of_seats (fun _ hq => hq) rfl rfl

theorem claimControl_evolves (vid : String) : Evolves m r s (s.claimControl vid) := by
  unfold HostState.claimControl
  split
  · exact control_evolves _
  · exact Evolves.refl s

theorem claimControl_listed' (hl : Listed s) (vid : String) : Listed (s.claimControl vid) := by
  unfold HostState.claimControl
  split
  · exact hl.control vid
  · exact hl

theorem applyResize_evolves (env : HostEnv G) (hl : Listed s) (size : ResizePayload) :
    Evolves m r s (s.applyResize env size) := by
  unfold HostState.applyResize
  dsimp only
  generalize size.viewerId.getD "local" = vid
  have hrecord := recordSize_mute s vid (max1 size.cols) (max1 size.rows)
  have hclaim := claimControl_listed' (hl.mute hrecord) vid
  refine ((hrecord.evolves hl).trans (claimControl_evolves vid)).trans ?_
  split
  · exact (setPtySize_mute env _ _ _).broadcastControl_evolves hclaim
  · split
    · exact (updateLocalDisplaced_mute _).broadcastControl_evolves hclaim
    · exact (Mute.refl _).broadcastControl_evolves hclaim

theorem takeControl_evolves (env : HostEnv G) (hl : Listed s) (vid : String) :
    Evolves m r s (s.takeControl env vid) := by
  unfold HostState.takeControl
  split
  · exact Evolves.refl s
  next cols rows _ =>
    have hset := setPtySize_mute env { s with controllerId := some vid } cols rows
    refine (control_evolves (some vid)).trans ?_
    dsimp only
    split
    · exact (hset.trans (requestJiggle_mute _)).broadcastControl_evolves (hl.control vid)
    · exact hset.broadcastControl_evolves (hl.control vid)

theorem recomputeController_evolves (env : HostEnv G) (hl : Listed s) :
    Evolves m r s (s.recomputeController env) := by
  unfold HostState.recomputeController
  split
  · exact Evolves.refl s
  · split
    next surface _ =>
      exact (control_evolves (some surface.id)).trans
        ((setPtySize_mute env _ _ _).broadcastControl_evolves (hl.control surface.id))
    · exact control_evolves none

theorem writeInitialFrames_evolves (hl : Listed s) (n : ClientId) :
    Evolves m r s (s.writeInitialFrames n) := by
  rcases writeInitialFrames_eq hl n with ⟨hsame, -⟩ | ⟨-, hjoin⟩
  · rw [hsame]
    exact Evolves.refl s
  · rw [hjoin]
    have hmark : Evolves m r s (markJoined s n) := by
      refine ⟨rfl, ?_, fun k => ⟨[], by rw [List.append_nil]; rfl⟩, fun k _ hne => absurd rfl hne,
        fun k hdead => hdead⟩
      intro q hq
      obtain ⟨q', hq', hclient, hid, hwhich⟩ := mem_markJoined_seats hq
      refine ⟨q', hq', hclient.symm, ?_, .inl hid.symm⟩
      rcases hwhich with ⟨-, hjoined⟩ | ⟨-, rfl⟩
      · exact fun _ => hjoined
      · exact id
    have hmute : Mute (markJoined s n) ((markJoined s n).writeReplay n).updateLocalDisplaced :=
      (writeReplay_mute fun q hq hn => markJoined_joined hq hn).trans (updateLocalDisplaced_mute _)
    exact hmark.trans (hmute.broadcastControl_evolves (markJoined_listed hl n))

theorem stampResize_evolves (hl : Listed s) (n : ClientId) (size : ResizePayload) :
    Evolves (size.viewerId.map fun vid => (n, vid)) r s (s.stampResize n size).1 := by
  obtain ⟨-, -, hseq, -, hch⟩ := stampResize_fields s n size
  refine ⟨hseq, ?_, fun k => ⟨[], by simp [hch]⟩, by simp [hch], by simp [hch]⟩
  intro q hq
  cases hc : s.getClient n with
  | none =>
    rw [stampResize_none size hc] at hq
    exact ⟨q, hq, rfl, id, .inl rfl⟩
  | some c =>
    rw [stampResize_seats size hc] at hq
    obtain ⟨q', hq', rfl⟩ := List.mem_map.mp hq
    refine ⟨q', hq', ?_⟩
    by_cases hn : q'.client = n
    · have hown : q' = seat (n, c) :=
        hl.eq_of_client hq' (List.mem_map_of_mem (mem_of_getClient hc)) hn
      rw [if_pos hn]
      refine ⟨rfl, id, ?_⟩
      unfold stampedId
      split
      next vid hvid =>
        split
        · exact .inr (by rw [hvid, hn]; rfl)
        · exact .inl (by rw [hown]; rfl)
      · exact .inl (by rw [hown]; rfl)
    · rw [if_neg hn]
      exact ⟨rfl, id, .inl rfl⟩

end

def renamer : Event → Option (ClientId × String)
  | .frame n (.resize size) _ => size.viewerId.map fun vid => (n, vid)
  | _ => none

def replayer : Event → Option ClientId
  | .frame n .replay _ => some n
  | _ => none

theorem handle_evolves (env : HostEnv G) {s : HostState G} {e : Event} (h : Announced s)
    (ho : Orderly s e) (hen : enabled s e = true) (hnew : e ≠ .connect) :
    Evolves (renamer e) (replayer e) s (handle env s e) := by
  have hl := h.toListed
  cases e with
  | connect => exact absurd rfl hnew
  | initialFramesTimer n => exact writeInitialFrames_evolves hl n
  | frame n frame stored =>
    cases frame with
    | input payload =>
      simp only [handle, HostState.handleFrame]
      split
      · exact (applyAttention_mute env s _ _ _ _).evolves hl
      · exact Evolves.refl s
    | resize size =>
      have hstamp := stampResize_listed hl n size
      have hresize := resize_announced env h ho (List.contains_iff_mem.mp hen)
      have hgrid : Evolves (size.viewerId.map fun vid => (n, vid)) none s
          ((s.stampResize n size).1.applyResize env (s.stampResize n size).2) :=
        (stampResize_evolves hl n size).trans (applyResize_evolves env hstamp _)
      exact hgrid.trans (writeInitialFrames_evolves hresize.toListed n)
    | takeControl =>
      simp only [handle, HostState.handleFrame]
      split
      · exact Evolves.refl s
      · split
        · exact Evolves.refl s
        · exact takeControl_evolves env hl _
    | attention payload =>
      have hmute := applyAttention_mute env s payload .user (env.fingerprint s.grid) stored
      exact (hmute.evolves hl).trans (writeInitialFrames_evolves (hl.mute hmute) n)
    | replay =>
      have k := writeReplay_nameless s n
      refine ⟨k.clientSeq, fun q hq => ⟨q, k.seats.subset hq, rfl, id, .inl rfl⟩,
        fun m => (k.frames m).imp fun _ h => h.1, ?_, fun m hdead => (k.dead m).trans hdead⟩
      intro m hm hne
      have hmn : ¬ n = m := fun hnm => hm (congrArg some hnm.symm)
      refine absurd ?_ hne
      simp [handle, HostState.handleFrame, HostState.writeReplay, Handoff.sendToClient_channels, hmn]
    | other => exact Evolves.refl s
  | disconnect n =>
    have hdeparted : Evolves none none s (departed s n) :=
      Evolves.of_seats (fun q hq => (departed_seats s n).subset hq) rfl rfl
    exact hdeparted.trans (recomputeController_evolves env (departed_listed hl n))
  | writerDies n =>
    refine ⟨rfl, fun q hq => ⟨q, hq, rfl, id, .inl rfl⟩, ?_, ?_, ?_⟩
    · intro m
      exact ⟨[], by rw [List.append_nil]; exact killWriter_frames s n m⟩
    · intro m _ hne
      exact absurd (killWriter_frames s n m) hne
    · intro m hdead
      by_cases hm : m = n
      · simp [handle, hm]
      · simpa [handle, Function.update_of_ne hm] using hdead
  | localResize cols rows => exact applyResize_evolves env hl _
  | localStdin bytes =>
    simp only [handle, HostState.localStdin]
    split
    · exact takeControl_evolves env hl "local"
    · exact Evolves.refl s
    · exact Evolves.refl s
  | output data => exact (handleOutput_mute env s data _).evolves hl
  | restoreTick => exact (restoreTick_mute s).evolves hl
  | idleSample stored => exact (idleSample_mute env s stored).evolves hl
  | clock now => exact Evolves.of_seats (fun _ hq => hq) rfl rfl
  | exit exitCode => exact ho.elim

theorem applyResize_controller (env : HostEnv G) (s : HostState G) (size : ResizePayload) :
    (s.applyResize env size).controllerId ≠ none := by
  unfold HostState.applyResize
  dsimp only
  generalize size.viewerId.getD "local" = vid
  have hclaim : ((s.recordSize vid (max1 size.cols) (max1 size.rows)).claimControl vid).controllerId ≠
      none := by
    unfold HostState.claimControl
    split
    · simp
    next h => exact h
  rw [broadcastControl_controllerId]
  split
  · rwa [(setPtySize_mute env _ _ _).controllerId]
  · split
    · rwa [(updateLocalDisplaced_mute _).controllerId]
    · exact hclaim

theorem takeControl_controller (env : HostEnv G) {s : HostState G} {vid : String}
    (h : (s.takeControl env vid).controllerId = none) : s.controllerId = none := by
  unfold HostState.takeControl at h
  split at h
  · exact h
  next cols rows _ =>
    have hset := (setPtySize_mute env { s with controllerId := some vid } cols rows).controllerId
    dsimp only at h
    rw [broadcastControl_controllerId] at h
    split at h
    · rw [(requestJiggle_mute _).controllerId, hset] at h
      cases h
    · rw [hset] at h
      cases h

theorem writeInitialFrames_controller {s : HostState G} (h : Listed s) (n : ClientId) :
    (s.writeInitialFrames n).controllerId = s.controllerId := by
  rcases writeInitialFrames_eq h n with ⟨hsame, -⟩ | ⟨-, hjoin⟩
  · rw [hsame]
  · rw [hjoin, broadcastControl_controllerId, (updateLocalDisplaced_mute _).controllerId,
      (writeReplay_nameless _ n).controllerId]
    rfl

theorem writeInitialFrames_joined {s : HostState G} (h : Listed s) (n : ClientId) :
    ∀ q ∈ seats (s.writeInitialFrames n), q.client = n → q.joined = true := by
  intro q hq hn
  rcases writeInitialFrames_eq h n with ⟨hsame, hwaiting⟩ | ⟨-, hjoin⟩
  · rw [hsame] at hq
    by_contra hjoined
    exact hwaiting (waiting_iff.mpr ⟨q, hq, hn, by simpa using hjoined⟩)
  · rw [hjoin] at hq
    have hsub := (broadcastControl_keeps
      ((markJoined s n).writeReplay n).updateLocalDisplaced).clients.map seat
    have hmute : Mute (markJoined s n) ((markJoined s n).writeReplay n).updateLocalDisplaced :=
      (writeReplay_mute fun q hq hn => markJoined_joined hq hn).trans (updateLocalDisplaced_mute _)
    exact markJoined_joined (hmute.seats.subset (hsub.subset hq)) hn

/-- A size report is answered by a controller, and its sender has joined. -/
theorem handle_resize (env : HostEnv G) {s : HostState G} {n : ClientId} {size : ResizePayload}
    {stored : Option Climon.Proto.Meta.SessionStatus} (h : Announced s)
    (ho : Orderly s (.frame n (.resize size) stored)) (hreader : n ∈ s.readers) :
    (handle env s (.frame n (.resize size) stored)).controllerId ≠ none ∧
      ∀ q ∈ seats (handle env s (.frame n (.resize size) stored)), q.client = n →
        q.joined = true := by
  have hresize := (resize_announced env h ho hreader).toListed
  refine ⟨?_, writeInitialFrames_joined hresize n⟩
  have hcontroller := applyResize_controller env (s.stampResize n size).1 (s.stampResize n size).2
  exact fun hnone => hcontroller ((writeInitialFrames_controller hresize n).symm.trans hnone)

/-- Once there is a controller, there is one while anybody is left who has joined. -/
theorem handle_controller (env : HostEnv G) {s : HostState G} {e : Event} (ha : Announced s)
    (ho : Orderly s e) (hen : enabled s e = true)
    (h : (handle env s e).controllerId = none) :
    s.controllerId = none ∨ ∀ q ∈ seats (handle env s e), q.joined = false := by
  have hl := ha.toListed
  cases e with
  | connect => exact .inl h
  | initialFramesTimer n => exact .inl ((writeInitialFrames_controller hl n).symm.trans h)
  | frame n frame stored =>
    left
    cases frame with
    | input payload =>
      simp only [handle, HostState.handleFrame] at h
      split at h
      · rwa [(applyAttention_mute env s _ _ _ _).controllerId] at h
      · exact h
    | resize size => exact absurd h (handle_resize env ha ho (List.contains_iff_mem.mp hen)).1
    | takeControl =>
      simp only [handle, HostState.handleFrame] at h
      split at h
      · exact h
      · split at h
        · exact h
        · exact takeControl_controller env h
    | attention payload =>
      have hmute := applyAttention_mute env s payload .user (env.fingerprint s.grid) stored
      simp only [handle, HostState.handleFrame] at h
      rwa [writeInitialFrames_controller (hl.mute hmute), hmute.controllerId] at h
    | replay => exact (writeReplay_nameless s n).controllerId.symm.trans h
    | other => exact h
  | disconnect n => exact .inr (recomputeController_none env h)
  | writerDies n => exact .inl h
  | localResize cols rows => exact absurd h (applyResize_controller env s _)
  | localStdin bytes =>
    left
    simp only [handle, HostState.localStdin] at h
    split at h
    · exact takeControl_controller env h
    · exact h
    · exact h
  | output data => exact .inl ((handleOutput_mute env s data _).controllerId.symm.trans h)
  | restoreTick => exact .inl ((restoreTick_mute s).controllerId.symm.trans h)
  | idleSample stored => exact .inl ((idleSample_mute env s stored).controllerId.symm.trans h)
  | clock now => exact .inl h
  | exit exitCode => exact ho.elim

/-! ## Steps -/

theorem Orderly.perm {s : HostState G} {e : Event} (h : Orderly s e)
    {clients : List (ClientId × Client)} (hp : clients.Perm s.clients) :
    Orderly { s with clients := clients } e := by
  cases e with
  | frame n frame stored =>
    cases frame with
    | resize size => exact fun c hc => h c (hp.subset hc)
    | _ => trivial
  | exit => exact h.elim
  | connect => exact h
  | _ => trivial

section

variable {env : HostEnv G} {s t : HostState G} {e : Event}

/-- A step is a handler's, from a state that differs in the order of the map alone. -/
theorem step_handle (h : Announced s) (ho : Orderly s e) (hstep : Step env s e t) :
    ∃ u, Mute s u ∧ Announced u ∧ Orderly u e ∧ enabled u e = true ∧ t = handle env u e := by
  obtain ⟨hen, clients, hperm, rfl⟩ := hstep
  have hmute := perm_mute hperm
  refine ⟨_, hmute, h.mute hmute, ho.perm hperm, ?_, rfl⟩
  cases e <;> exact hen

theorem step_announced (h : Announced s) (ho : Orderly s e) (hstep : Step env s e t) :
    Announced t := by
  obtain ⟨u, -, hu, hou, hen, rfl⟩ := step_handle h ho hstep
  exact handle_announced env hu hou hen

theorem step_evolves (h : Announced s) (ho : Orderly s e) (hstep : Step env s e t)
    (hnew : e ≠ .connect) : Evolves (renamer e) (replayer e) s t := by
  obtain ⟨u, hmute, hu, hou, hen, rfl⟩ := step_handle h ho hstep
  exact (hmute.evolves h.toListed).trans (handle_evolves env hu hou hen hnew)

theorem step_controller (h : Announced s) (ho : Orderly s e) (hstep : Step env s e t)
    (hnone : t.controllerId = none) :
    s.controllerId = none ∨ ∀ q ∈ seats t, q.joined = false := by
  obtain ⟨u, hmute, hu, hou, hen, rfl⟩ := step_handle h ho hstep
  have hcontroller := handle_controller env hu hou hen hnone
  rwa [hmute.controllerId] at hcontroller

theorem step_resize {n : ClientId} {size : ResizePayload}
    {stored : Option Climon.Proto.Meta.SessionStatus} (h : Announced s)
    (ho : Orderly s (.frame n (.resize size) stored))
    (hstep : Step env s (.frame n (.resize size) stored) t) :
    t.controllerId ≠ none ∧ ∀ q ∈ seats t, q.client = n → q.joined = true := by
  obtain ⟨u, -, hu, hou, hen, rfl⟩ := step_handle h ho hstep
  exact handle_resize env hu hou (List.contains_iff_mem.mp hen)

/-- A connection that the host has seen close has no entry. -/
theorem step_disconnect {n : ClientId} (h : Announced s) (hstep : Step env s (.disconnect n) t) :
    ∀ q ∈ seats t, q.client ≠ n := by
  have ho : Orderly s (.disconnect n) := trivial
  obtain ⟨u, -, hu, -, -, rfl⟩ := step_handle h ho hstep
  intro q hq
  have hrecompute : Evolves none none (departed u n) (handle env u (.disconnect n)) :=
    recomputeController_evolves env (departed_listed hu.toListed n)
  obtain ⟨q', hq', hclient, -⟩ := hrecompute.seats q hq
  rw [← hclient]
  exact departed_gone u n q' hq'

/-- A new connection waits, under a number and an id of its own, and has been sent nothing. -/
theorem step_connect (hstep : Step env s .connect t) :
    t.clientSeq = s.clientSeq + 1 ∧ t.controllerId = s.controllerId ∧
      (∀ q, q ∈ seats t ↔ q = ⟨s.clientSeq, false, s!"client-{s.clientSeq}"⟩ ∨ q ∈ seats s) ∧
      t.channels = Function.update s.channels s.clientSeq ⟨[], false⟩ := by
  obtain ⟨-, clients, hperm, rfl⟩ := hstep
  refine ⟨rfl, rfl, fun q => ?_, rfl⟩
  have hseats : seats (handle env { s with clients := clients } .connect) =
      ⟨s.clientSeq, false, s!"client-{s.clientSeq}"⟩ :: clients.map seat := rfl
  rw [hseats, List.mem_cons, (hperm.map seat).mem_iff]
  rfl

theorem initialState_announced (env : HostEnv G) (launch : Launch) (cols rows : UInt16)
    (idleSeconds : Int) (snippetEnabled : Bool) :
    Announced (initialState env launch cols rows idleSeconds snippetEnabled) where
  keys := List.nodup_nil
  reader := by intro q hq; cases hq
  fresh := by intro n hn; cases hn
  running := rfl
  silent := by intro q hq; cases hq
  told := by intro X _ _ q hq; cases hq
  present := by
    intro X hX
    simp only [initialState] at hX
    split at hX
    · cases hX
      exact .inl (.inl rfl)
    · cases hX

end

end Climon.Session.Announcements
