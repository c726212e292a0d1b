import Climon.Session.AttachStream

namespace Climon.Session.AttachRuns

open Climon.Lib.Transition Climon.Proto.Frame Climon.Session.Host Climon.Session.Replay
  Climon.Session.Surfaces Climon.Session.AttachStream

/-! # Attach streams over whole runs -/

variable {G : Type}

/-! ## Invariants -/

structure Registered (s : HostState G) : Prop where
  keysNodup : (keys s).Nodup
  fresh : ∀ n ∈ keys s, n < s.clientSeq

/-- The scrollback and the mouse modes are those of the whole PTY stream so far. -/
structure Captured (stream : List (List UInt8)) (s : HostState G) : Prop where
  cap : s.scrollback.cap = scrollbackCap
  data : s.scrollback.data = lastBytes scrollbackCap stream.flatten
  modes : (s.mouseModeRemainder, s.mouseModeState) = tracked stream

/-- Client `n` joined after `before`. It misses later chunks only once it is no longer live. -/
structure Joined (before stream : List (List UInt8)) (s : HostState G) (n : ClientId) : Prop where
  known : n < s.clientSeq
  initialized : ¬ Waiting s n
  attached : ∃ received rest, stream = before ++ received ++ rest ∧
    Attached before received (s.channels n).frames ∧ (Live s n → rest = [])

structure Streams (stream : List (List UInt8)) (s : HostState G) : Prop
    extends Registered s, Captured stream s where
  waiting : ∀ n, Waiting s n → outputs (s.channels n).frames = []
  live : ∀ n, Live s n → ∃ before, Joined before stream s n

theorem mem_keys {s : HostState G} {n : ClientId} {b : Bool} (h : (n, b) ∈ shape s) :
    n ∈ keys s := by
  rw [keys_eq_shape]
  exact List.mem_map_of_mem h

theorem Captured.replaySnapshot {stream : List (List UInt8)} {s : HostState G}
    (h : Captured stream s) : s.replaySnapshot = replayOf stream := by
  unfold HostState.replaySnapshot replayOf Scrollback.snapshot
  rw [h.data, ← h.modes]

theorem attached_append {before received : List (List UInt8)} {frames : List HostFrame}
    (h : Attached before received frames) (ext : List HostFrame) :
    Attached before (received ++ outputs ext) (frames ++ ext) := by
  obtain ⟨pre, cols, rows, post, rfl, hpre, hpost⟩ := h
  refine ⟨pre, cols, rows, post ++ ext, ?_, hpre, ?_⟩
  · rw [List.append_assoc]
    rfl
  · unfold outputs at hpost ⊢
    rw [List.filterMap_append, hpost]

/-! ## Handlers that send no output -/

theorem Registered.quiet {s t : HostState G} (h : Registered s) (k : Quiet s t) :
    Registered t := by
  obtain ⟨l, hl, hsub⟩ := k.shape
  have hperm : (l.map (·.1)).Perm (keys t) := keys_eq_shape t ▸ hl.map _
  have hkeys : (l.map (·.1)).Sublist (keys s) := keys_eq_shape s ▸ hsub.map _
  constructor
  · exact hperm.nodup_iff.mp (h.keysNodup.sublist hkeys)
  · intro n hn
    rw [k.clientSeq]
    exact h.fresh n (hkeys.subset (hperm.mem_iff.mpr hn))

theorem Captured.quiet {stream : List (List UInt8)} {s t : HostState G}
    (h : Captured stream s) (k : Quiet s t) : Captured stream t where
  cap := k.scrollback ▸ h.cap
  data := k.scrollback ▸ h.data
  modes := by
    rw [k.mouseModeRemainder, k.mouseModeState]
    exact h.modes

theorem live_of_quiet {s t : HostState G} (k : Quiet s t) {n : ClientId} (h : Live t n) :
    Live s n :=
  ⟨k.shape.subset h.1, k.dead n ▸ h.2⟩

theorem Joined.quiet {before stream : List (List UInt8)} {s t : HostState G} {n : ClientId}
    (h : Joined before stream s n) (k : Quiet s t) : Joined before stream t n where
  known := k.clientSeq ▸ h.known
  initialized := fun hw => h.initialized (k.shape.subset hw)
  attached := by
    obtain ⟨received, rest, hstream, hatt, hlive⟩ := h.attached
    obtain ⟨ext, hext, hout⟩ := k.frames n
    refine ⟨received, rest, hstream, ?_, fun ht => hlive (live_of_quiet k ht)⟩
    have := attached_append hatt ext
    rwa [hout, List.append_nil, ← hext] at this

theorem silent_of_quiet {s t : HostState G} (k : Quiet s t) {n : ClientId}
    (h : outputs (s.channels n).frames = []) : outputs (t.channels n).frames = [] := by
  obtain ⟨ext, hext, hout⟩ := k.frames n
  unfold outputs at h hout ⊢
  rw [hext, List.filterMap_append, h, hout, List.append_nil]

theorem Streams.quiet {stream : List (List UInt8)} {s t : HostState G}
    (h : Streams stream s) (k : Quiet s t) : Streams stream t where
  toRegistered := h.toRegistered.quiet k
  toCaptured := h.toCaptured.quiet k
  waiting := fun n hn => silent_of_quiet k (h.waiting n (k.shape.subset hn))
  live := by
    intro n hn
    obtain ⟨before, hj⟩ := h.live n (live_of_quiet k hn)
    exact ⟨before, hj.quiet k⟩

/-! ## Writing the initial frames -/

theorem markJoined_registered {s : HostState G} (h : Registered s) (n : ClientId) :
    Registered (markJoined s n) := by
  constructor
  · rw [markJoined_keys]
    exact h.keysNodup
  · rw [markJoined_keys]
    exact h.fresh

theorem writeInitialFrames_quiet {s : HostState G} (hs : Registered s) {n : ClientId}
    (h : Waiting s n) : Quiet (markJoined s n) (s.writeInitialFrames n) := by
  obtain ⟨c, hc, hin⟩ := getClient_of_waiting hs.keysNodup h
  exact (writeReplay_quiet _ n).trans (writeInitialFrames_after_replay hc hin)

theorem not_waiting_markJoined (s : HostState G) (n : ClientId) :
    ¬ Waiting (markJoined s n) n := by
  intro h
  rcases mem_markJoined.mp h with ⟨_, hfalse, _⟩ | ⟨hne, _⟩
  · cases hfalse
  · exact hne rfl

theorem shape_markJoined_of_ne {s : HostState G} {n m : ClientId} {b : Bool} (hne : m ≠ n) :
    (m, b) ∈ shape (markJoined s n) ↔ (m, b) ∈ shape s := by
  rw [mem_markJoined]
  constructor
  · rintro (⟨heq, _⟩ | ⟨_, hmem⟩)
    · exact absurd heq hne
    · exact hmem
  · exact fun hmem => .inr ⟨hne, hmem⟩

/-- The queue of a client that joins: what was captured is replayed, and nothing of it was sent
before. -/
theorem joined_of_writeInitialFrames {stream : List (List UInt8)} {s : HostState G}
    (hs : Registered s) (hcap : Captured stream s) {n : ClientId} (h : Waiting s n)
    (halive : (s.channels n).dead = false) (hsilent : outputs (s.channels n).frames = []) :
    Joined stream stream (s.writeInitialFrames n) n := by
  have hquiet := writeInitialFrames_quiet hs h
  obtain ⟨c, hc, hin⟩ := getClient_of_waiting hs.keysNodup h
  have hkey : n ∈ keys (markJoined s n) := by
    rw [markJoined_keys]
    exact mem_keys h
  refine ⟨?_, ?_, [], [], ?_, ?_, fun _ => rfl⟩
  · rw [hquiet.clientSeq]
    exact hs.fresh n (mem_keys h)
  · exact fun hw => not_waiting_markJoined s n (hquiet.shape.subset hw)
  · rw [List.append_nil, List.append_nil]
  · obtain ⟨ext, hext, hout⟩ := (writeInitialFrames_after_replay hc hin).frames n
    have hreplay := writeReplay_frames (s := markJoined s n) hkey halive
    have hsnapshot : (markJoined s n).replaySnapshot = replayOf stream := hcap.replaySnapshot
    rw [hreplay, hsnapshot, List.append_assoc] at hext
    exact ⟨(s.channels n).frames, _, _, ext, hext, hsilent, hout⟩

theorem Joined.writeInitialFrames {before stream : List (List UInt8)} {s : HostState G}
    {n : ClientId} (hs : Registered s) (h : Joined before stream s n) (m : ClientId) :
    Joined before stream (s.writeInitialFrames m) n := by
  by_cases hw : Waiting s m
  · have hne : n ≠ m := by
      rintro rfl
      exact h.initialized hw
    have hmark : Joined before stream (markJoined s m) n := by
      obtain ⟨received, rest, hstream, hatt, hlive⟩ := h.attached
      refine ⟨h.known, ?_, received, rest, hstream, hatt, ?_⟩
      · exact fun hn => h.initialized ((shape_markJoined_of_ne hne).mp hn)
      · exact fun hn => hlive ⟨(shape_markJoined_of_ne hne).mp hn.1, hn.2⟩
    exact hmark.quiet (writeInitialFrames_quiet hs hw)
  · rw [writeInitialFrames_of_not_waiting hw]
    exact h

theorem Streams.writeInitialFrames {stream : List (List UInt8)} {s : HostState G}
    (h : Streams stream s) (n : ClientId) : Streams stream (s.writeInitialFrames n) := by
  by_cases hw : Waiting s n
  · have hquiet := writeInitialFrames_quiet h.toRegistered hw
    have hcap : Captured stream (markJoined s n) := ⟨h.cap, h.data, h.modes⟩
    refine ⟨(markJoined_registered h.toRegistered n).quiet hquiet, hcap.quiet hquiet, ?_, ?_⟩
    · intro m hm
      have hmark : Waiting (markJoined s n) m := hquiet.shape.subset hm
      have hne : m ≠ n := by
        rintro rfl
        exact not_waiting_markJoined s m hmark
      have hold : Waiting s m := (shape_markJoined_of_ne hne).mp hmark
      exact silent_of_quiet hquiet (h.waiting m hold)
    · intro m hm
      have hmark := live_of_quiet hquiet hm
      by_cases hne : m = n
      · subst hne
        exact ⟨stream, joined_of_writeInitialFrames h.toRegistered h.toCaptured hw hmark.2
          (h.waiting m hw)⟩
      · have hold : Live s m := ⟨(shape_markJoined_of_ne hne).mp hmark.1, hmark.2⟩
        obtain ⟨before, hj⟩ := h.live m hold
        exact ⟨before, hj.writeInitialFrames h.toRegistered n⟩
  · rw [writeInitialFrames_of_not_waiting hw]
    exact h

/-! ## Connecting -/

theorem Registered.acceptClient {s : HostState G} (h : Registered s) :
    Registered s.acceptClient := by
  constructor
  · refine List.nodup_cons.mpr ⟨fun hmem => ?_, h.keysNodup⟩
    exact Nat.lt_irrefl _ (h.fresh _ hmem)
  · intro n hn
    rcases List.mem_cons.mp hn with rfl | hn
    · exact Nat.lt_succ_self _
    · exact Nat.lt_succ_of_lt (h.fresh n hn)

theorem mem_shape_acceptClient {s : HostState G} {n : ClientId} {b : Bool} :
    (n, b) ∈ shape s.acceptClient ↔ (n = s.clientSeq ∧ b = false) ∨ (n, b) ∈ shape s := by
  unfold shape HostState.acceptClient
  dsimp only
  rw [List.map_cons, List.mem_cons, Prod.mk.injEq]

theorem acceptClient_channels {s : HostState G} {n : ClientId} (hn : n ≠ s.clientSeq) :
    s.acceptClient.channels n = s.channels n :=
  Function.update_of_ne hn _ _

theorem Joined.acceptClient {before stream : List (List UInt8)} {s : HostState G}
    {n : ClientId} (h : Joined before stream s n) : Joined before stream s.acceptClient n := by
  have hne : n ≠ s.clientSeq := Nat.ne_of_lt h.known
  obtain ⟨received, rest, hstream, hatt, hlive⟩ := h.attached
  refine ⟨Nat.lt_succ_of_lt h.known, ?_, received, rest, hstream, ?_, ?_⟩
  · intro hw
    exact (mem_shape_acceptClient.mp hw).elim (fun hnew => hne hnew.1) h.initialized
  · rw [acceptClient_channels hne]
    exact hatt
  · rintro ⟨hmem, hdead⟩
    rw [acceptClient_channels hne] at hdead
    exact hlive ⟨(mem_shape_acceptClient.mp hmem).resolve_left fun hnew => hne hnew.1, hdead⟩

theorem Streams.acceptClient {stream : List (List UInt8)} {s : HostState G}
    (h : Streams stream s) : Streams stream s.acceptClient := by
  refine ⟨h.toRegistered.acceptClient, ⟨h.cap, h.data, h.modes⟩, ?_, ?_⟩
  · intro n hn
    by_cases hne : n = s.clientSeq
    · subst hne
      have hnew : s.acceptClient.channels s.clientSeq = ⟨[], false⟩ := Function.update_self _ _ _
      rw [hnew]
      rfl
    · rw [acceptClient_channels hne]
      exact h.waiting n ((mem_shape_acceptClient.mp hn).resolve_left fun hnew => hne hnew.1)
  · rintro n ⟨hmem, hdead⟩
    have hold := (mem_shape_acceptClient.mp hmem).resolve_left fun hnew => by cases hnew.2
    have hne : n ≠ s.clientSeq := Nat.ne_of_lt (h.fresh n (mem_keys hold))
    rw [acceptClient_channels hne] at hdead
    obtain ⟨before, hj⟩ := h.live n ⟨hold, hdead⟩
    exact ⟨before, hj.acceptClient⟩

/-! ## A chunk of PTY output -/

theorem tracked_concat (stream : List (List UInt8)) (data : List UInt8) :
    tracked (stream ++ [data]) =
      trackMousePrivateModesFromOutput (tracked stream).2 data (tracked stream).1
        trackedMousePrivateModes := by
  unfold tracked
  rw [List.foldl_append]
  rfl

/-- Appended, tracked and broadcast, before the local terminal's copy. -/
def relay (env : HostEnv G) (s : HostState G) (data : List UInt8) : HostState G :=
  let modes := trackMousePrivateModesFromOutput s.mouseModeState data s.mouseModeRemainder
    trackedMousePrivateModes
  HostState.broadcast { s with
    mouseModeState := modes.2
    mouseModeRemainder := modes.1
    scrollback := s.scrollback.append data
    grid := env.writeGrid s.grid data } (.output data)

theorem handleOutput_patient (env : HostEnv G) (s : HostState G) (data : List UInt8)
    (headless : Bool) : Patient (relay env s data) (s.handleOutput env data headless) := by
  unfold HostState.handleOutput
  dsimp only
  split <;> exact Patient.of_eq rfl rfl rfl rfl rfl rfl

theorem Captured.relay {env : HostEnv G} {stream : List (List UInt8)} {s : HostState G}
    (h : Captured stream s) (data : List UInt8) :
    Captured (stream ++ [data]) (relay env s data) where
  cap := h.cap
  data := by
    have := Scrollback.append_data (h.cap ▸ h.data) data
    rw [h.cap] at this
    rw [List.flatten_concat]
    exact this
  modes := by
    rw [tracked_concat, ← h.modes]
    rfl

theorem relay_shape (env : HostEnv G) (s : HostState G) (data : List UInt8) :
    (shape (relay env s data)).Sublist (shape s) := by
  unfold relay
  dsimp only
  rw [broadcast_shape]
  exact List.filter_sublist

theorem relay_dead (env : HostEnv G) (s : HostState G) (data : List UInt8) (n : ClientId) :
    ((relay env s data).channels n).dead = (s.channels n).dead := by
  unfold relay
  dsimp only
  rw [Handoff.broadcast_channels]
  split
  · exact send_dead _ _
  · rfl

theorem joined_any {s : HostState G} {n : ClientId} :
    (s.clients.any fun p => p.1 == n && p.2.inClients) = true ↔ (n, true) ∈ shape s := by
  unfold shape
  simp [List.mem_map]

/-- The chunk reaches the queue of exactly the live clients. -/
theorem relay_frames_live {env : HostEnv G} {s : HostState G} {data : List UInt8} {n : ClientId}
    (h : Live s n) :
    ((relay env s data).channels n).frames = (s.channels n).frames ++ [.output data] := by
  unfold relay
  dsimp only
  rw [Handoff.broadcast_channels, if_pos (joined_any.mpr h.1)]
  simp only [Channel.send, h.2, Bool.false_eq_true, if_false]

theorem relay_frames_other {env : HostEnv G} {s : HostState G} {data : List UInt8}
    {n : ClientId} (h : ¬ Live s n) :
    ((relay env s data).channels n).frames = (s.channels n).frames := by
  unfold relay
  dsimp only
  rw [Handoff.broadcast_channels]
  split
  next hany =>
    have hdead : (s.channels n).dead = true := by
      by_contra hd
      exact h ⟨joined_any.mp hany, by simpa using hd⟩
    simp only [Channel.send, hdead, if_true]
  next => rfl

theorem live_of_relay {env : HostEnv G} {s : HostState G} {data : List UInt8} {n : ClientId}
    (h : Live (relay env s data) n) : Live s n :=
  ⟨(relay_shape env s data).subset h.1, relay_dead env s data n ▸ h.2⟩

theorem Registered.relay {env : HostEnv G} {s : HostState G} (h : Registered s)
    (data : List UInt8) : Registered (relay env s data) where
  keysNodup := h.keysNodup.sublist (keys_eq_shape s ▸ keys_eq_shape (AttachRuns.relay env s data) ▸
    (relay_shape env s data).map _)
  fresh := by
    intro n hn
    rw [keys_eq_shape] at hn
    apply h.fresh
    rw [keys_eq_shape]
    exact ((relay_shape env s data).map _).subset hn

theorem Joined.relay {env : HostEnv G} {before stream : List (List UInt8)} {s : HostState G}
    {n : ClientId} (h : Joined before stream s n) (data : List UInt8) :
    Joined before (stream ++ [data]) (relay env s data) n := by
  obtain ⟨received, rest, hstream, hatt, hlive⟩ := h.attached
  refine ⟨h.known, fun hw => h.initialized ((relay_shape env s data).subset hw), ?_⟩
  by_cases hl : Live s n
  · refine ⟨received ++ [data], [], ?_, ?_, fun _ => rfl⟩
    · rw [hstream, hlive hl, List.append_nil, List.append_nil, List.append_assoc]
    · rw [relay_frames_live hl]
      exact attached_append hatt [.output data]
  · refine ⟨received, rest ++ [data], ?_, ?_, fun ht => absurd (live_of_relay ht) hl⟩
    · rw [hstream, List.append_assoc]
    · rw [relay_frames_other hl]
      exact hatt

theorem Streams.relay {env : HostEnv G} {stream : List (List UInt8)} {s : HostState G}
    (h : Streams stream s) (data : List UInt8) :
    Streams (stream ++ [data]) (relay env s data) where
  toRegistered := h.toRegistered.relay data
  toCaptured := h.toCaptured.relay data
  waiting := by
    intro n hn
    have hold : Waiting s n := (relay_shape env s data).subset hn
    have hnot : ¬ Live s n := by
      intro hl
      obtain ⟨before, hj⟩ := h.live n hl
      exact hj.initialized hold
    rw [relay_frames_other hnot]
    exact h.waiting n hold
  live := by
    intro n hn
    obtain ⟨before, hj⟩ := h.live n (live_of_relay hn)
    exact ⟨before, hj.relay data⟩

/-! ## A writer that dies -/

def killWriter (s : HostState G) (n : ClientId) : HostState G :=
  { s with channels := Function.update s.channels n ⟨(s.channels n).frames, true⟩ }

theorem killWriter_frames (s : HostState G) (n m : ClientId) :
    ((killWriter s n).channels m).frames = (s.channels m).frames := by
  unfold killWriter
  by_cases h : m = n
  · subst h
    dsimp only
    rw [Function.update_self]
  · dsimp only
    rw [Function.update_of_ne h]

theorem live_of_killWriter {s : HostState G} {n m : ClientId} (h : Live (killWriter s n) m) :
    Live s m := by
  refine ⟨h.1, ?_⟩
  have hdead := h.2
  unfold killWriter at hdead
  by_cases hm : m = n
  · subst hm
    dsimp only at hdead
    rw [Function.update_self] at hdead
    cases hdead
  · dsimp only at hdead
    rwa [Function.update_of_ne hm] at hdead

theorem Joined.killWriter {before stream : List (List UInt8)} {s : HostState G} {n : ClientId}
    (h : Joined before stream s n) (m : ClientId) : Joined before stream (killWriter s m) n := by
  obtain ⟨received, rest, hstream, hatt, hlive⟩ := h.attached
  refine ⟨h.known, h.initialized, received, rest, hstream, ?_, fun ht => hlive ?_⟩
  · rw [killWriter_frames]
    exact hatt
  · exact live_of_killWriter ht

theorem Streams.killWriter {stream : List (List UInt8)} {s : HostState G}
    (h : Streams stream s) (m : ClientId) : Streams stream (killWriter s m) where
  toRegistered := ⟨h.keysNodup, h.fresh⟩
  toCaptured := ⟨h.cap, h.data, h.modes⟩
  waiting := by
    intro n hn
    rw [killWriter_frames]
    exact h.waiting n hn
  live := by
    intro n hn
    obtain ⟨before, hj⟩ := h.live n (live_of_killWriter hn)
    exact ⟨before, hj.killWriter m⟩

/-! ## Steps and runs -/

/-- The sections that write the initial frames of `n`: its timer, or its first resize or
attention frame. -/
def Initializes (n : ClientId) : Event → Prop
  | .initialFramesTimer m => m = n
  | .frame m (.resize _) _ => m = n
  | .frame m (.attention _) _ => m = n
  | _ => False

theorem chunkOf_of_initializes {n : ClientId} {e : Event} (h : Initializes n e) :
    chunkOf e = none := by
  cases e with
  | output => exact h.elim
  | _ => rfl

theorem handle_initializes (env : HostEnv G) (s : HostState G) {n : ClientId} {e : Event}
    (h : Initializes n e) :
    ∃ m, Patient s m ∧ handle env s e = m.writeInitialFrames n := by
  cases e with
  | initialFramesTimer m =>
    cases h
    exact ⟨s, Patient.refl s, rfl⟩
  | frame m frame stored =>
    cases frame with
    | resize size =>
      obtain rfl : m = n := h
      exact ⟨(s.stampResize m size).1.applyResize env (s.stampResize m size).2,
        (stampResize_patient s m size).trans (applyResize_patient env _ _), rfl⟩
    | attention payload =>
      obtain rfl : m = n := h
      exact ⟨s.applyAttention env payload .user (env.fingerprint s.grid) stored,
        applyAttention_patient env s payload .user _ stored, rfl⟩
    | _ => exact h.elim
  | _ => exact h.elim

/-- What a critical section does to the map, the queues and the captured output. -/
inductive Effect (env : HostEnv G) (s : HostState G) : Event → HostState G → Prop
  | quiet {e : Event} {t : HostState G} (silent : chunkOf e = none) (quiet : Quiet s t) :
      Effect env s e t
  | connect : Effect env s .connect s.acceptClient
  | output {t : HostState G} (data : List UInt8) (copy : Patient (relay env s data) t) :
      Effect env s (.output data) t
  | writerDies (n : ClientId) : Effect env s (.writerDies n) (killWriter s n)
  | initial {e : Event} {m : HostState G} (n : ClientId) (silent : chunkOf e = none)
      (before : Patient s m) : Effect env s e (m.writeInitialFrames n)

theorem handleFrame_effect (env : HostEnv G) (s : HostState G) (n : ClientId)
    (frame : ClientFrame) (stored : Option Climon.Proto.Meta.SessionStatus) :
    Effect env s (.frame n frame stored) (handle env s (.frame n frame stored)) := by
  have hinitial (h : Initializes n (.frame n frame stored)) :
      Effect env s (.frame n frame stored) (handle env s (.frame n frame stored)) := by
    obtain ⟨m, hm, heq⟩ := handle_initializes env s h
    rw [heq]
    exact .initial n rfl hm
  cases frame with
  | resize => exact hinitial rfl
  | attention => exact hinitial rfl
  | input bytes =>
    refine .quiet rfl (Patient.toQuiet ?_)
    change Patient s (ite _ _ _)
    split
    · exact applyAttention_patient env s _ _ _ _
    · exact Patient.refl s
  | takeControl =>
    refine .quiet rfl (Patient.toQuiet ?_)
    simp only [handle, HostState.handleFrame]
    split
    · exact Patient.refl s
    · split
      · exact Patient.refl s
      · exact takeControl_patient env s _
  | replay => exact .quiet rfl (writeReplay_quiet s n)
  | other => exact .quiet rfl (Patient.refl s).toQuiet

theorem handle_effect (env : HostEnv G) (s : HostState G) (e : Event) :
    Effect env s e (handle env s e) := by
  cases e with
  | connect => exact .connect
  | initialFramesTimer n => exact .initial n rfl (Patient.refl s)
  | frame n frame stored => exact handleFrame_effect env s n frame stored
  | disconnect n =>
    refine .quiet rfl (Quiet.trans (Patient.toQuiet ?_) (handleDisconnect_quiet env _ n))
    exact Patient.of_eq rfl rfl rfl rfl rfl rfl
  | writerDies n => exact .writerDies n
  | localResize cols rows => exact .quiet rfl (applyResize_patient env s _).toQuiet
  | localStdin bytes => exact .quiet rfl (localStdin_patient env s bytes).toQuiet
  | output data => exact .output data (handleOutput_patient env s data _)
  | restoreTick => exact .quiet rfl (restoreTick_patient s).toQuiet
  | idleSample stored => exact .quiet rfl (idleSample_patient env s stored).toQuiet
  | clock now =>
    refine .quiet rfl (Patient.toQuiet ?_)
    exact Patient.of_eq rfl rfl rfl rfl rfl rfl
  | exit exitCode => exact .quiet rfl (teardown_quiet env s exitCode)

/-- The map's iteration order is nothing a client can see. -/
theorem perm_patient {s : HostState G} {clients : List (ClientId × Client)}
    (h : clients.Perm s.clients) : Patient s { s with clients := clients } where
  shape := (h.map _).subperm
  clientSeq := rfl
  scrollback := rfl
  mouseModeState := rfl
  mouseModeRemainder := rfl
  dead := fun _ => rfl
  frames := fun _ => ⟨[], (List.append_nil _).symm, rfl⟩
  waiting := fun _ hn => (h.map _).mem_iff.mpr hn

theorem step_effect {env : HostEnv G} {s t : HostState G} {e : Event} (h : Step env s e t) :
    ∃ m, Patient s m ∧ Effect env m e t := by
  obtain ⟨-, clients, hperm, rfl⟩ := h
  exact ⟨_, perm_patient hperm, handle_effect env _ e⟩

theorem chunks_concat (past : List Event) (e : Event) :
    chunks (past ++ [e]) = chunks past ++ (chunkOf e).toList := by
  unfold chunks
  rw [List.filterMap_append]
  cases he : chunkOf e with
  | none => rw [List.filterMap_cons_none he]; rfl
  | some data => rw [List.filterMap_cons_some he]; rfl

theorem chunks_concat_of_none (past : List Event) {e : Event} (h : chunkOf e = none) :
    chunks (past ++ [e]) = chunks past := by
  rw [chunks_concat, h]
  exact List.append_nil _

theorem Streams.step {env : HostEnv G} {past : List Event} {s t : HostState G} {e : Event}
    (h : Streams (chunks past) s) (hstep : Step env s e t) :
    Streams (chunks (past ++ [e])) t := by
  obtain ⟨m, hm, effect⟩ := step_effect hstep
  have hs := h.quiet hm.toQuiet
  cases effect with
  | quiet silent quiet =>
    rw [chunks_concat_of_none past silent]
    exact hs.quiet quiet
  | connect =>
    rw [chunks_concat_of_none past rfl]
    exact hs.acceptClient
  | output data copy =>
    rw [chunks_concat]
    exact (hs.relay data).quiet copy.toQuiet
  | writerDies n =>
    rw [chunks_concat_of_none past rfl]
    exact hs.killWriter n
  | initial n silent before =>
    rw [chunks_concat_of_none past silent]
    exact (hs.quiet before.toQuiet).writeInitialFrames n

theorem Joined.step {env : HostEnv G} {before : List (List UInt8)} {past : List Event}
    {s t : HostState G} {e : Event} {n : ClientId} (hr : Registered s)
    (h : Joined before (chunks past) s n) (hstep : Step env s e t) :
    Joined before (chunks (past ++ [e])) t n := by
  obtain ⟨m, hm, effect⟩ := step_effect hstep
  have hj := h.quiet hm.toQuiet
  have hrm := hr.quiet hm.toQuiet
  cases effect with
  | quiet silent quiet =>
    rw [chunks_concat_of_none past silent]
    exact hj.quiet quiet
  | connect =>
    rw [chunks_concat_of_none past rfl]
    exact hj.acceptClient
  | output data copy =>
    rw [chunks_concat]
    exact (hj.relay data).quiet copy.toQuiet
  | writerDies k =>
    rw [chunks_concat_of_none past rfl]
    exact hj.killWriter k
  | initial k silent before =>
    rw [chunks_concat_of_none past silent]
    exact (hj.quiet before.toQuiet).writeInitialFrames (hrm.quiet before.toQuiet) k

theorem initial_streams (env : HostEnv G) (launch : Launch) (cols rows : UInt16)
    (idleSeconds : Int) (snippetEnabled : Bool) :
    Streams [] (initialState env launch cols rows idleSeconds snippetEnabled) where
  keysNodup := List.nodup_nil
  fresh := nofun
  cap := rfl
  data := rfl
  modes := rfl
  waiting := nofun
  live := fun _ h => nomatch h.1

/-- A section that initializes a waiting client whose writer lives replays everything captured
so far to it. -/
theorem joined_of_initializes {env : HostEnv G} {stream : List (List UInt8)}
    {s t : HostState G} {e : Event} {n : ClientId} (h : Streams stream s)
    (hstep : Step env s e t) (hinit : Initializes n e) (hwait : Waiting s n)
    (halive : (s.channels n).dead = false) : Joined stream stream t n := by
  obtain ⟨-, clients, hperm, rfl⟩ := hstep
  obtain ⟨m, hm, heq⟩ := handle_initializes env { s with clients := clients } hinit
  have hpatient := (perm_patient hperm).trans hm
  have hs := h.quiet hpatient.toQuiet
  rw [heq]
  apply joined_of_writeInitialFrames hs.toRegistered hs.toCaptured (hpatient.waiting n hwait)
  · rw [hpatient.dead]
    exact halive
  · exact hs.waiting n (hpatient.waiting n hwait)

/-- In every run of the host: a client waiting for its initial frames was sent no output; a live
client's queue is one replay of everything captured before it joined, then exactly the chunks
after; and a client that is initialized gets the replay of that moment and every chunk from
then on, until it is gone. -/
theorem attach_stream_exact (env : HostEnv G) (launch : Launch) (cols rows : UInt16)
    (idleSeconds : Int) (snippetEnabled : Bool) (es : List Event) (s : HostState G)
    (run : Run (Step env) (initialState env launch cols rows idleSeconds snippetEnabled) es s) :
    (∀ n, Waiting s n → outputs (s.channels n).frames = []) ∧
    (∀ n, Live s n → ∃ before received, chunks es = before ++ received ∧
      Attached before received (s.channels n).frames) ∧
    ∀ n e t later u, Waiting s n → (s.channels n).dead = false → Initializes n e →
      Step env s e t → Run (Step env) t later u →
      ∃ received rest, chunks later = received ++ rest ∧
        Attached (chunks es) received (u.channels n).frames ∧ (Live u n → rest = []) := by
  have hstreams : Streams (chunks es) s :=
    run.history (I := fun past s => Streams (chunks past) s) (fun h hs => h.step hs) []
      (initial_streams env launch cols rows idleSeconds snippetEnabled)
  refine ⟨hstreams.waiting, ?_, ?_⟩
  · intro n hn
    obtain ⟨before, hj⟩ := hstreams.live n hn
    obtain ⟨received, rest, heq, hatt, hlive⟩ := hj.attached
    refine ⟨before, received, ?_, hatt⟩
    rw [heq, hlive hn, List.append_nil]
  · intro n e t later u hwait halive hinit hstep hrun
    have hjoined := joined_of_initializes hstreams hstep hinit hwait halive
    have hsilent := chunks_concat_of_none es (chunkOf_of_initializes hinit)
    have hlater := hrun.history
      (I := fun past s => Streams (chunks past) s ∧ Joined (chunks es) (chunks past) s n)
      (fun h hs => ⟨h.1.step hs, h.2.step h.1.toRegistered hs⟩) (es ++ [e])
      ⟨hstreams.step hstep, by rw [hsilent]; exact hjoined⟩
    obtain ⟨received, rest, heq, hatt, hlive⟩ := hlater.2.attached
    refine ⟨received, rest, ?_, hatt, hlive⟩
    have hchunks : chunks (es ++ [e] ++ later) = chunks es ++ chunks later := by
      unfold chunks at hsilent ⊢
      rw [List.filterMap_append, hsilent]
    rw [hchunks, List.append_assoc] at heq
    exact List.append_cancel_left heq

/-- A client whose timer fires between two chunks replays the first and is sent the second. -/
theorem attach_stream_between_chunks : ∃ s u,
    exec (next plainEnv) (initialState plainEnv .headless 80 24 10 false)
      [.connect, .output [0x61]] = some s ∧
    exec (next plainEnv) s [.initialFramesTimer 0, .output [0x62]] = some u ∧
    Attached [[0x61]] [[0x62]] (u.channels 0).frames := by
  refine ⟨_, _, rfl, rfl, ?_⟩
  have exact_stream := attach_stream_exact plainEnv .headless 80 24 10 false
    [.connect, .output [0x61]] _ (Run.of_exec step_of_next rfl)
  obtain ⟨received, rest, heq, hatt, hlive⟩ := exact_stream.2.2 0 (.initialFramesTimer 0) _
    [.output [0x62]] _ (List.mem_singleton.mpr rfl) rfl rfl (step_of_next rfl)
    (Run.of_exec step_of_next rfl)
  rw [hlive ⟨List.mem_singleton.mpr rfl, rfl⟩, List.append_nil] at heq
  subst heq
  exact hatt

end Climon.Session.AttachRuns
