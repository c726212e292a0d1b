import Mathlib.Data.List.Nodup
import Climon.Session.Host

namespace Climon.Session.Surfaces

open Climon.Proto.Frame Climon.Session.Control Climon.Session.Host

/-! # The client map: well-formedness and what the handlers leave alone -/

variable {G : Type}

def keys (s : HostState G) : List ClientId := s.clients.map (·.1)

/-- A connection whose reader still runs although a failed send dropped its client. -/
def Pending (s : HostState G) : Prop := ∃ n ∈ s.readers, n ∉ keys s

def Connected (s : HostState G) (viewerId : String) : Prop :=
  viewerId = "local" ∧ s.localAttached = true ∨ ∃ p ∈ s.clients, p.2.viewerId = viewerId

/-- The controller is connected, or a disconnect that will replace it is on its way. -/
def Settled (s : HostState G) : Prop :=
  Pending s ∨ s.controllerId = none ∨ ∃ v, s.controllerId = some v ∧ Connected s v

structure Wf (s : HostState G) : Prop where
  running : s.exited = false
  keysNodup : (keys s).Nodup
  readersFresh : ∀ n ∈ s.readers, n < s.clientSeq
  reader : ∀ p ∈ s.clients, p.1 ∈ s.readers
  idsNodup : (s.clients.map (·.2.viewerId)).Nodup
  idsRemote : ∀ p ∈ s.clients, p.2.viewerId ≠ "local"
  suppressed : s.localOutputSuppressed = true → s.localAttached = true

theorem Wf.eq_of_key {s : HostState G} (h : Wf s) {p q : ClientId × Client}
    (hp : p ∈ s.clients) (hq : q ∈ s.clients) (heq : p.1 = q.1) : p = q :=
  List.inj_on_of_nodup_map h.keysNodup hp hq heq

theorem Wf.eq_of_id {s : HostState G} (h : Wf s) {p q : ClientId × Client}
    (hp : p ∈ s.clients) (hq : q ∈ s.clients) (heq : p.2.viewerId = q.2.viewerId) : p = q :=
  List.inj_on_of_nodup_map h.idsNodup hp hq heq

/-- Choosing a controller touches no client. -/
theorem Wf.withController {s : HostState G} (h : Wf s) (controllerId : Option String) :
    Wf { s with controllerId := controllerId } :=
  ⟨h.running, h.keysNodup, h.readersFresh, h.reader, h.idsNodup, h.idsRemote, h.suppressed⟩

theorem Wf.key_lt {s : HostState G} (h : Wf s) {p : ClientId × Client} (hp : p ∈ s.clients) :
    p.1 < s.clientSeq := h.readersFresh p.1 (h.reader p hp)

theorem mem_of_getClient {s : HostState G} {n : ClientId} {c : Client}
    (h : s.getClient n = some c) : (n, c) ∈ s.clients := by
  obtain ⟨front, back, hl, -⟩ := List.lookup_eq_some_iff.mp h
  rw [hl]
  exact List.mem_append_right _ List.mem_cons_self

theorem getClient_isSome {s : HostState G} {p : ClientId × Client} (h : p ∈ s.clients) :
    (s.getClient p.1).isSome := by
  unfold HostState.getClient
  rw [List.lookup_isSome_iff]
  exact ⟨p, h, beq_self_eq_true _⟩

theorem mem_of_findViewer {s : HostState G} {v : String} {c : Client}
    (h : s.findViewer v = some c) : ∃ n, (n, c) ∈ s.clients ∧ c.viewerId = v := by
  unfold HostState.findViewer at h
  obtain ⟨p, hp, rfl⟩ := Option.map_eq_some_iff.mp h
  refine ⟨p.1, List.mem_of_find?_eq_some hp, ?_⟩
  simpa using List.find?_some hp

/-! ## Rewriting clients in place -/

/-- With distinct ids there is no other client for `find` to pass over. -/
theorem modifyFirst_eq_map {vid : String} {clients : List (ClientId × Client)}
    (h : (clients.map (·.2.viewerId)).Nodup) (f : Client → Client) :
    HostState.modifyFirst vid f clients =
      clients.map fun p => if p.2.viewerId = vid then (p.1, f p.2) else p := by
  induction clients with
  | nil => rfl
  | cons p ps ih =>
    rw [List.map_cons, List.nodup_cons] at h
    rw [HostState.modifyFirst, List.map_cons]
    split
    next hp =>
      have hrest : (ps.map fun q => if q.2.viewerId = vid then (q.1, f q.2) else q) = ps := by
        conv_rhs => rw [← List.map_id ps]
        apply List.map_congr_left
        intro q hq
        have hne : q.2.viewerId ≠ vid := by
          rintro rfl
          exact h.1 (hp ▸ List.mem_map_of_mem hq)
        rw [if_neg hne]
        rfl
      rw [hrest]
    next => rw [ih h.2]

/-- `t` has the connections of `s`, with their entries rewritten by `f`. -/
structure Rewrites (f : ClientId × Client → ClientId × Client) (s t : HostState G) : Prop where
  clients : t.clients = s.clients.map f
  key : ∀ p, (f p).1 = p.1
  readers : t.readers = s.readers
  clientSeq : t.clientSeq = s.clientSeq
  localAttached : t.localAttached = s.localAttached
  exited : t.exited = s.exited
  suppressed : t.localOutputSuppressed = s.localOutputSuppressed
  channels : t.channels = s.channels
  appliedCols : t.appliedCols = s.appliedCols
  appliedRows : t.appliedRows = s.appliedRows

theorem Rewrites.keys_eq {f : ClientId × Client → ClientId × Client} {s t : HostState G}
    (h : Rewrites f s t) : keys t = keys s := by
  unfold keys
  rw [h.clients, List.map_map]
  exact List.map_congr_left fun p _ => h.key p

theorem Rewrites.mem {f : ClientId × Client → ClientId × Client} {s t : HostState G}
    (h : Rewrites f s t) {p : ClientId × Client} (hp : p ∈ t.clients) :
    ∃ q ∈ s.clients, f q = p := by
  rw [h.clients] at hp
  exact List.mem_map.mp hp

theorem Rewrites.pending {f : ClientId × Client → ClientId × Client} {s t : HostState G}
    (h : Rewrites f s t) : Pending t ↔ Pending s := by
  unfold Pending
  rw [h.keys_eq, h.readers]

theorem Wf.rewrites {f : ClientId × Client → ClientId × Client} {s t : HostState G} (hs : Wf s)
    (h : Rewrites f s t) (hids : (t.clients.map (·.2.viewerId)).Nodup)
    (hremote : ∀ p ∈ t.clients, p.2.viewerId ≠ "local") : Wf t where
  running := h.exited.trans hs.running
  keysNodup := h.keys_eq ▸ hs.keysNodup
  readersFresh := by
    rw [h.readers, h.clientSeq]
    exact hs.readersFresh
  reader := by
    intro p hp
    obtain ⟨q, hq, rfl⟩ := h.mem hp
    rw [h.key, h.readers]
    exact hs.reader q hq
  idsNodup := hids
  idsRemote := hremote
  suppressed := by
    rw [h.suppressed, h.localAttached]
    exact hs.suppressed

/-- Entries rewritten without touching viewer ids. -/
theorem Wf.rewrites_ids {f : ClientId × Client → ClientId × Client} {s t : HostState G}
    (hs : Wf s) (h : Rewrites f s t) (hid : ∀ p, (f p).2.viewerId = p.2.viewerId) : Wf t := by
  apply hs.rewrites h
  · rw [h.clients, List.map_map]
    have : ((fun p : ClientId × Client => p.2.viewerId) ∘ f) = fun p => p.2.viewerId := by
      funext p
      exact hid p
    rw [this]
    exact hs.idsNodup
  · intro p hp
    obtain ⟨q, hq, rfl⟩ := h.mem hp
    rw [hid]
    exact hs.idsRemote q hq

theorem Rewrites.connected {f : ClientId × Client → ClientId × Client} {s t : HostState G}
    (h : Rewrites f s t) (hid : ∀ p, (f p).2.viewerId = p.2.viewerId) {v : String}
    (hc : Connected s v) : Connected t v := by
  rcases hc with ⟨hv, ha⟩ | ⟨p, hp, hpv⟩
  · exact .inl ⟨hv, h.localAttached.trans ha⟩
  · refine .inr ⟨f p, ?_, (hid p).trans hpv⟩
    rw [h.clients]
    exact List.mem_map_of_mem hp

theorem Settled.rewrites {f : ClientId × Client → ClientId × Client} {s t : HostState G}
    (hs : Settled s) (h : Rewrites f s t) (hid : ∀ p, (f p).2.viewerId = p.2.viewerId)
    (hcontroller : t.controllerId = s.controllerId) : Settled t := by
  rcases hs with hp | hnone | ⟨v, hv, hc⟩
  · exact .inl (h.pending.mpr hp)
  · exact .inr (.inl (hcontroller.trans hnone))
  · exact .inr (.inr ⟨v, hcontroller.trans hv, h.connected hid hc⟩)

/-! ## What a handler keeps -/

/-- `t` differs from `s` at most by dropped clients, in its queues and in its outputs. -/
structure Keeps (s t : HostState G) : Prop where
  clients : t.clients.Sublist s.clients
  readers : t.readers = s.readers
  clientSeq : t.clientSeq = s.clientSeq
  hostCols : t.hostCols = s.hostCols
  hostRows : t.hostRows = s.hostRows
  controllerId : t.controllerId = s.controllerId
  localAttached : t.localAttached = s.localAttached
  exited : t.exited = s.exited
  suppressed : t.localOutputSuppressed = true →
    s.localOutputSuppressed = true ∨ s.localAttached = true

/-- `Keeps`, and the applied grid as well. -/
structure KeepsGrid (s t : HostState G) : Prop extends Keeps s t where
  appliedCols : t.appliedCols = s.appliedCols
  appliedRows : t.appliedRows = s.appliedRows

theorem Keeps.refl (s : HostState G) : Keeps s s :=
  ⟨List.Sublist.refl _, rfl, rfl, rfl, rfl, rfl, rfl, rfl, .inl⟩

theorem Keeps.trans {s t u : HostState G} (h : Keeps s t) (k : Keeps t u) : Keeps s u where
  clients := k.clients.trans h.clients
  readers := k.readers.trans h.readers
  clientSeq := k.clientSeq.trans h.clientSeq
  hostCols := k.hostCols.trans h.hostCols
  hostRows := k.hostRows.trans h.hostRows
  controllerId := k.controllerId.trans h.controllerId
  localAttached := k.localAttached.trans h.localAttached
  exited := k.exited.trans h.exited
  suppressed := fun hu => (k.suppressed hu).elim h.suppressed fun ha => .inr (h.localAttached ▸ ha)

theorem KeepsGrid.refl (s : HostState G) : KeepsGrid s s := ⟨Keeps.refl s, rfl, rfl⟩

theorem KeepsGrid.trans {s t u : HostState G} (h : KeepsGrid s t) (k : KeepsGrid t u) :
    KeepsGrid s u :=
  ⟨h.toKeeps.trans k.toKeeps, k.appliedCols.trans h.appliedCols,
    k.appliedRows.trans h.appliedRows⟩

theorem Keeps.keys_subset {s t : HostState G} (h : Keeps s t) : ∀ n ∈ keys t, n ∈ keys s :=
  fun _ hn => (h.clients.map _).subset hn

theorem Wf.keeps {s t : HostState G} (h : Wf s) (k : Keeps s t) : Wf t where
  running := k.exited ▸ h.running
  keysNodup := h.keysNodup.sublist (k.clients.map _)
  readersFresh := fun n hn => k.clientSeq ▸ h.readersFresh n (k.readers ▸ hn)
  reader := fun p hp => k.readers ▸ h.reader p (k.clients.subset hp)
  idsNodup := h.idsNodup.sublist (k.clients.map _)
  idsRemote := fun p hp => h.idsRemote p (k.clients.subset hp)
  suppressed := fun ht =>
    k.localAttached ▸ (k.suppressed ht).elim h.suppressed id

/-- Dropping a client leaves its disconnect pending. -/
theorem Settled.keeps {s t : HostState G} (hs : Settled s) (h : Wf s) (k : Keeps s t) :
    Settled t := by
  rcases hs with ⟨n, hn, hkey⟩ | hnone | ⟨v, hv, hlocal | ⟨p, hp, hpv⟩⟩
  · exact .inl ⟨n, k.readers ▸ hn, fun ht => hkey (k.keys_subset n ht)⟩
  · exact .inr (.inl (k.controllerId.trans hnone))
  · exact .inr (.inr ⟨v, k.controllerId.trans hv, .inl ⟨hlocal.1, k.localAttached.trans hlocal.2⟩⟩)
  · by_cases hmem : p ∈ t.clients
    · exact .inr (.inr ⟨v, k.controllerId.trans hv, .inr ⟨p, hmem, hpv⟩⟩)
    · refine .inl ⟨p.1, k.readers ▸ h.reader p hp, fun ht => hmem ?_⟩
      obtain ⟨q, hq, hqp⟩ := List.mem_map.mp ht
      rwa [← h.eq_of_key (k.clients.subset hq) hp hqp]

theorem removeClient_keeps (s : HostState G) (n : ClientId) : KeepsGrid s (s.removeClient n) :=
  ⟨⟨List.filter_sublist, rfl, rfl, rfl, rfl, rfl, rfl, rfl, .inl⟩, rfl, rfl⟩

theorem sendToClient_keeps (s : HostState G) (n : ClientId) (frame : HostFrame) :
    KeepsGrid s (s.sendToClient n frame) := by
  unfold HostState.sendToClient
  split
  · exact KeepsGrid.refl s
  · split
    · exact removeClient_keeps s n
    · exact ⟨⟨List.Sublist.refl _, rfl, rfl, rfl, rfl, rfl, rfl, rfl, .inl⟩, rfl, rfl⟩

theorem broadcast_keeps (s : HostState G) (frame : HostFrame) :
    KeepsGrid s (s.broadcast frame) :=
  ⟨⟨List.filter_sublist, rfl, rfl, rfl, rfl, rfl, rfl, rfl, .inl⟩, rfl, rfl⟩

theorem broadcastControl_keeps (s : HostState G) : KeepsGrid s s.broadcastControl := by
  unfold HostState.broadcastControl
  split
  · exact broadcast_keeps s _
  · exact KeepsGrid.refl s

theorem writeReplay_keeps (s : HostState G) (n : ClientId) : KeepsGrid s (s.writeReplay n) :=
  (sendToClient_keeps s n _).trans (sendToClient_keeps _ n _)

theorem emitLocal_keeps (s : HostState G) (write : LocalWrite) :
    KeepsGrid s (s.emitLocal write) :=
  ⟨⟨List.Sublist.refl _, rfl, rfl, rfl, rfl, rfl, rfl, rfl, .inl⟩, rfl, rfl⟩

theorem updateLocalDisplaced_keeps (s : HostState G) : KeepsGrid s s.updateLocalDisplaced := by
  unfold HostState.updateLocalDisplaced
  split
  · exact KeepsGrid.refl s
  next hattached =>
    have ha : s.localAttached = true := by simpa using hattached
    split
    · dsimp only
      split <;>
        exact ⟨⟨List.Sublist.refl _, rfl, rfl, rfl, rfl, rfl, rfl, rfl, fun _ => .inr ha⟩, rfl, rfl⟩
    · split
      · exact ⟨⟨List.Sublist.refl _, rfl, rfl, rfl, rfl, rfl, rfl, rfl, .inl⟩, rfl, rfl⟩
      · exact KeepsGrid.refl s

theorem updateLocalDisplaced_channels (s : HostState G) :
    s.updateLocalDisplaced.channels = s.channels := by
  unfold HostState.updateLocalDisplaced
  split
  · rfl
  · split
    · dsimp only
      split <;> rfl
    · split <;> rfl

theorem requestJiggle_keeps (s : HostState G) : KeepsGrid s s.requestJiggle := by
  unfold HostState.requestJiggle
  split
  · exact ⟨⟨List.Sublist.refl _, rfl, rfl, rfl, rfl, rfl, rfl, rfl, .inl⟩, rfl, rfl⟩
  · exact KeepsGrid.refl s

theorem requestJiggle_channels (s : HostState G) : s.requestJiggle.channels = s.channels := by
  unfold HostState.requestJiggle
  split <;> rfl

theorem restoreLocal_keeps (s : HostState G) :
    KeepsGrid s s.restoreLocal ∧ s.restoreLocal.channels = s.channels := by
  unfold HostState.restoreLocal
  split
  · exact ⟨KeepsGrid.refl s, rfl⟩
  · exact ⟨⟨⟨List.Sublist.refl _, rfl, rfl, rfl, rfl, rfl, rfl, rfl, .inl⟩, rfl, rfl⟩, rfl⟩
  · refine ⟨?_, requestJiggle_channels _⟩
    refine KeepsGrid.trans ?_ (requestJiggle_keeps _)
    exact ⟨⟨List.Sublist.refl _, rfl, rfl, rfl, rfl, rfl, rfl, rfl, nofun⟩, rfl, rfl⟩

theorem restoreTick_keeps (s : HostState G) :
    KeepsGrid s s.restoreTick ∧ s.restoreTick.channels = s.channels := by
  unfold HostState.restoreTick
  split
  · exact ⟨KeepsGrid.refl s, rfl⟩
  · have ⟨hk, hch⟩ := restoreLocal_keeps s
    unfold HostState.jiggleTick
    split
    · exact ⟨hk, hch⟩
    · refine ⟨hk.trans ?_, hch⟩
      exact ⟨⟨List.Sublist.refl _, rfl, rfl, rfl, rfl, rfl, rfl, rfl, .inl⟩, rfl, rfl⟩

theorem setPtySize_keeps (env : HostEnv G) (s : HostState G) (cols rows : UInt16) :
    Keeps s (s.setPtySize env cols rows) ∧
      (s.setPtySize env cols rows).appliedCols = cols ∧
      (s.setPtySize env cols rows).appliedRows = rows := by
  unfold HostState.setPtySize
  dsimp only
  split
  · refine ⟨?_, ?_, ?_⟩
    · refine Keeps.trans ?_ (updateLocalDisplaced_keeps _).toKeeps
      refine Keeps.trans ?_ (broadcast_keeps _ _).toKeeps
      exact ⟨List.Sublist.refl _, rfl, rfl, rfl, rfl, rfl, rfl, rfl, .inl⟩
    · rw [(updateLocalDisplaced_keeps _).appliedCols, (broadcast_keeps _ _).appliedCols]
    · rw [(updateLocalDisplaced_keeps _).appliedRows, (broadcast_keeps _ _).appliedRows]
  · refine ⟨?_, ?_, ?_⟩
    · refine Keeps.trans ?_ (updateLocalDisplaced_keeps _).toKeeps
      exact ⟨List.Sublist.refl _, rfl, rfl, rfl, rfl, rfl, rfl, rfl, .inl⟩
    · rw [(updateLocalDisplaced_keeps _).appliedCols]
    · rw [(updateLocalDisplaced_keeps _).appliedRows]

theorem applyAttention_keeps (env : HostEnv G) (s : HostState G) (payload : AttentionPayload)
    (source : HostState.AttentionSource) (fp : String)
    (stored : Option Climon.Proto.Meta.SessionStatus) :
    KeepsGrid s (s.applyAttention env payload source fp stored) ∧
      (s.applyAttention env payload source fp stored).channels = s.channels := by
  have same {t : HostState G} (hc : t.clients = s.clients) (hr : t.readers = s.readers)
      (hq : t.clientSeq = s.clientSeq) (hw : t.hostCols = s.hostCols)
      (hh : t.hostRows = s.hostRows) (hi : t.controllerId = s.controllerId)
      (ha : t.localAttached = s.localAttached) (he : t.exited = s.exited)
      (ho : t.localOutputSuppressed = s.localOutputSuppressed)
      (hac : t.appliedCols = s.appliedCols) (har : t.appliedRows = s.appliedRows) :
      KeepsGrid s t :=
    ⟨⟨hc ▸ List.Sublist.refl _, hr, hq, hw, hh, hi, ha, he, fun h => .inl (ho ▸ h)⟩, hac, har⟩
  unfold HostState.applyAttention
  refine ⟨?_, ?_⟩ <;> (repeat' split) <;> first | rfl | (apply same <;> rfl)

theorem idleSample_keeps (env : HostEnv G) (s : HostState G)
    (stored : Option Climon.Proto.Meta.SessionStatus) :
    KeepsGrid s (s.idleSample env stored) ∧
      (s.idleSample env stored).channels = s.channels := by
  unfold HostState.idleSample
  split
  · exact ⟨KeepsGrid.refl s, rfl⟩
  · dsimp only
    split
    · exact ⟨⟨⟨List.Sublist.refl _, rfl, rfl, rfl, rfl, rfl, rfl, rfl, .inl⟩, rfl, rfl⟩, rfl⟩
    next transition detector _ =>
      have ⟨hk, hch⟩ := applyAttention_keeps env { s with idleDetector := detector }
        ⟨transition.needsAttention, transition.reason, none⟩ .detector
        (env.fingerprint s.grid) stored
      have hd : KeepsGrid s { s with idleDetector := detector } :=
        ⟨⟨List.Sublist.refl _, rfl, rfl, rfl, rfl, rfl, rfl, rfl, .inl⟩, rfl, rfl⟩
      exact ⟨hd.trans hk, hch⟩

end Climon.Session.Surfaces
