import Climon.Lib.Transition

namespace Climon.Server.PushPresence

open Climon.Lib.Transition

/-!
# Who is pushed to

A page that is open on a device reports whether it is visible, when that changes and at every
heartbeat. The server pushes to the subscriptions whose device is not known to be in the foreground.
Times are milliseconds.
-/

/-! ## The registry -/

abbrev Endpoint := String

def defaultTtlMs : Nat := 30000

def defaultHeartbeatMs : Nat := 15000

/-- When each foreground report expires. -/
abbrev Expiries := Endpoint → Option Nat

def markForeground (expiries : Expiries) (now : Nat) (endpoint : Endpoint) : Expiries :=
  Function.update expiries endpoint (some (now + defaultTtlMs))

def markBackground (expiries : Expiries) (endpoint : Endpoint) : Expiries :=
  Function.update expiries endpoint none

/-- An entry that has expired is deleted. -/
def isForeground (expiries : Expiries) (now : Nat) (endpoint : Endpoint) : Bool × Expiries :=
  match expiries endpoint with
  | none => (false, expiries)
  | some expiry =>
    if expiry ≤ now then (false, Function.update expiries endpoint none) else (true, expiries)

def recordPresence (expiries : Expiries) (now : Nat) (endpoint : Endpoint) (foreground : Bool) :
    Expiries :=
  if foreground then markForeground expiries now endpoint else markBackground expiries endpoint

/-- The targets of a push: the subscriptions that are not skipped. -/
def selectTargets (now : Nat) : Expiries → List Endpoint → List Endpoint × Expiries
  | expiries, [] => ([], expiries)
  | expiries, endpoint :: endpoints =>
    let asked := isForeground expiries now endpoint
    let rest := selectTargets now asked.2 endpoints
    (if asked.1 then rest.1 else endpoint :: rest.1, rest.2)

/-! ## The reporters -/

structure Post where
  posted : Nat
  foreground : Bool
  deriving DecidableEq, Repr

/-- The page of a device. For the history: `changed` is when it last came to be reporting and
visible, or ceased to be; `heard` is the post that arrived last, and when; `lost` is when the last
post that never arrives was made. -/
structure Device where
  visible : Bool
  started : Bool
  nextBeat : Nat
  inFlight : List Post
  changed : Nat
  heard : Option (Post × Nat)
  lost : Option Nat
  deriving DecidableEq, Repr

def Device.present (d : Device) : Bool := d.started && d.visible

def Device.report (d : Device) (now : Nat) : Device :=
  { d with inFlight := d.inFlight ++ [⟨now, d.visible⟩] }

def Device.start (d : Device) (now : Nat) : Device :=
  if d.started then d
  else
    { d with
      started := true
      nextBeat := now + defaultHeartbeatMs
      changed := if d.visible then now else d.changed }.report now

def Device.beat (d : Device) (now : Nat) : Device :=
  { d with nextBeat := d.nextBeat + defaultHeartbeatMs }.report now

def Device.setVisible (d : Device) (now : Nat) (visible : Bool) : Device :=
  let after : Device :=
    { d with
      visible := visible
      changed := if d.started && d.visible != visible then now else d.changed }
  if d.started then after.report now else after

def Device.dispose (d : Device) (now : Nat) : Device :=
  if d.started then
    { d with
      started := false
      inFlight := d.inFlight ++ [⟨now, false⟩]
      changed := if d.visible then now else d.changed }
  else d

/-- The page goes away without a word. -/
def Device.vanish (d : Device) (now : Nat) : Device :=
  if d.started then
    { d with started := false, changed := if d.visible then now else d.changed }
  else d

def Device.arrive (d : Device) (now i : Nat) (post : Post) : Device :=
  { d with inFlight := d.inFlight.eraseIdx i, heard := some (post, now) }

def Device.lose (d : Device) (i : Nat) (post : Post) : Device :=
  { d with
    inFlight := d.inFlight.eraseIdx i
    lost := some (max post.posted (d.lost.getD 0)) }

/-! ## All of them -/

/-- A push that was sent: to whom, and who was skipped. -/
structure Sent where
  time : Nat
  subscriptions : List Endpoint
  targets : List Endpoint
  deriving DecidableEq, Repr

structure State where
  now : Nat
  expiries : Expiries
  devices : Endpoint → Device
  sent : List Sent

def init (visible : Endpoint → Bool) : State where
  now := 0
  expiries := fun _ => none
  devices := fun endpoint => ⟨visible endpoint, false, 0, [], 0, none, none⟩
  sent := []

inductive Event where
  | tick
  | start (endpoint : Endpoint)
  | beat (endpoint : Endpoint)
  | setVisible (endpoint : Endpoint) (visible : Bool)
  | dispose (endpoint : Endpoint)
  | vanish (endpoint : Endpoint)
  | arrive (endpoint : Endpoint) (i : Nat)
  | lose (endpoint : Endpoint) (i : Nat)
  | send (subscriptions : List Endpoint)
  deriving DecidableEq, Repr

def State.put (s : State) (endpoint : Endpoint) (d : Device) : State :=
  { s with devices := Function.update s.devices endpoint d }

def next (s : State) : Event → Option State
  | .tick => some { s with now := s.now + 1 }
  | .start endpoint => some (s.put endpoint ((s.devices endpoint).start s.now))
  | .beat endpoint =>
    let d := s.devices endpoint
    if d.started = true ∧ d.nextBeat ≤ s.now then some (s.put endpoint (d.beat s.now)) else none
  | .setVisible endpoint visible =>
    some (s.put endpoint ((s.devices endpoint).setVisible s.now visible))
  | .dispose endpoint => some (s.put endpoint ((s.devices endpoint).dispose s.now))
  | .vanish endpoint => some (s.put endpoint ((s.devices endpoint).vanish s.now))
  | .arrive endpoint i =>
    ((s.devices endpoint).inFlight[i]?).map fun post =>
      { s.put endpoint ((s.devices endpoint).arrive s.now i post) with
        expiries := recordPresence s.expiries s.now endpoint post.foreground }
  | .lose endpoint i =>
    ((s.devices endpoint).inFlight[i]?).map fun post =>
      s.put endpoint ((s.devices endpoint).lose i post)
  | .send subscriptions =>
    let selected := selectTargets s.now s.expiries subscriptions
    some { s with
      expiries := selected.2
      sent := s.sent ++ [⟨s.now, subscriptions, selected.1⟩] }

def Step (s : State) (e : Event) (t : State) : Prop := next s e = some t

/-- No heartbeat is late and no post takes longer than the delay. -/
def Timely (delay : Nat) (s : State) : Event → Prop
  | .tick => ∀ endpoint,
      ((s.devices endpoint).started = true → s.now < (s.devices endpoint).nextBeat) ∧
        ∀ post ∈ (s.devices endpoint).inFlight, s.now < post.posted + delay
  | _ => True

/-! ## What the registry knows -/

/-- Foreground at this time: the last report that arrived said so, and not too long ago. -/
def Device.known (d : Device) (now : Nat) : Bool :=
  d.heard.any fun (post, time) => post.foreground && decide (now < time + defaultTtlMs)

/-- An entry is that of the last report; one that is missing has expired. -/
structure Registered (now : Nat) (expiry : Option Nat) (d : Device) : Prop where
  entry : ∀ time, expiry = some time → ∃ post heard, d.heard = some (post, heard) ∧
    post.foreground = true ∧ time = heard + defaultTtlMs
  missing : expiry = none → d.known now = false

theorem Device.known_iff {d : Device} {now : Nat} : d.known now = true ↔
    ∃ post time, d.heard = some (post, time) ∧ post.foreground = true ∧
      now < time + defaultTtlMs := by
  unfold Device.known
  cases d.heard with
  | none => simp
  | some heard =>
    obtain ⟨post, time⟩ := heard
    simp only [Option.any_some, Bool.and_eq_true, decide_eq_true_eq]
    constructor
    · intro h
      exact ⟨post, time, rfl, h.1, h.2⟩
    · rintro ⟨_, _, heq, hpost, hlt⟩
      cases heq
      exact ⟨hpost, hlt⟩

theorem Device.known_mono {d : Device} {now later : Nat} (hle : now ≤ later)
    (h : d.known now = false) : d.known later = false := by
  rw [Bool.eq_false_iff] at h ⊢
  intro hlater
  obtain ⟨post, time, hheard, hpost, hlt⟩ := Device.known_iff.mp hlater
  exact h (Device.known_iff.mpr ⟨post, time, hheard, hpost, by omega⟩)

/-- The registry is read only through the last report. -/
theorem Registered.of_heard {now : Nat} {expiry : Option Nat} {d d' : Device}
    (h : Registered now expiry d) (hheard : d'.heard = d.heard) : Registered now expiry d' := by
  have hknown : d'.known now = d.known now := by
    unfold Device.known
    rw [hheard]
  exact ⟨fun time htime => hheard ▸ h.entry time htime, fun hnone => hknown ▸ h.missing hnone⟩

theorem Registered.later {now later : Nat} {expiry : Option Nat} {d : Device}
    (h : Registered now expiry d) (hle : now ≤ later) : Registered later expiry d :=
  ⟨h.entry, fun hnone => Device.known_mono hle (h.missing hnone)⟩

/-- A report of this time or of a later one arrived, was lost or is on its way. -/
def Device.Reported (d : Device) (time : Nat) : Prop :=
  (∃ post ∈ d.inFlight, post.posted = time) ∨
    (∃ post heard, d.heard = some (post, heard) ∧ time ≤ heard) ∨
    ∃ latest, d.lost = some latest ∧ time ≤ latest

/-- A report that is on its way, or was the last to arrive. -/
def Device.Told (d : Device) (post : Post) : Prop :=
  post ∈ d.inFlight ∨ ∃ heard, d.heard = some (post, heard)

/-- What holds of a page whose heartbeats and reports are timely. -/
structure Kept (delay now : Nat) (d : Device) : Prop where
  posted : ∀ post ∈ d.inFlight, post.posted ≤ now ∧ now ≤ post.posted + delay
  heard : ∀ (post : Post) (time : Nat), d.heard = some (post, time) →
    post.posted ≤ time ∧ time ≤ now ∧ time ≤ post.posted + delay
  changed : d.changed ≤ now
  beats : d.started = true → now ≤ d.nextBeat ∧ d.nextBeat ≤ now + defaultHeartbeatMs
  told : ∀ post, d.Told post → d.changed < post.posted → post.foreground = d.present
  covered : d.present = true → ∀ time, d.changed ≤ time → time < d.nextBeat →
    ∃ earlier, earlier ≤ time ∧ time < earlier + defaultHeartbeatMs ∧ d.Reported earlier

variable {delay now : Nat} {d : Device}

theorem Kept.told_le (h : Kept delay now d) {post : Post} (htold : d.Told post) :
    post.posted ≤ now := by
  rcases htold with hflight | ⟨time, hheard⟩
  · exact (h.posted post hflight).1
  · have htimes := h.heard post time hheard
    omega

/-- A page that is no longer reporting and visible owes nothing. -/
theorem Kept.absent {d' : Device} (h : Kept delay now d)
    (hflight : ∀ post ∈ d'.inFlight, post ∈ d.inFlight ∨ post = ⟨now, false⟩)
    (hheard : d'.heard = d.heard) (hchanged : d'.changed = now ∨
      d'.changed = d.changed ∧ d.present = false)
    (hbeats : d'.started = true → now ≤ d'.nextBeat ∧ d'.nextBeat ≤ now + defaultHeartbeatMs)
    (habsent : d'.present = false) : Kept delay now d' where
  posted post hpost := by
    rcases hflight post hpost with hold | rfl
    · exact h.posted post hold
    · exact ⟨Nat.le_refl _, Nat.le_add_right _ _⟩
  heard post time hpost := h.heard post time (hheard ▸ hpost)
  changed := by
    have hle := h.changed
    rcases hchanged with heq | ⟨heq, -⟩
    · omega
    · omega
  beats := hbeats
  told post htold hlt := by
    have hcases : d.Told post ∨ post = ⟨now, false⟩ := by
      rcases htold with hpost | ⟨time, hpost⟩
      · exact (hflight post hpost).imp_left .inl
      · exact .inl (.inr ⟨time, hheard ▸ hpost⟩)
    rcases hcases with hold | rfl
    · have hle := h.told_le hold
      rcases hchanged with heq | ⟨heq, hpresent⟩
      · omega
      · rw [habsent, h.told post hold (heq ▸ hlt), hpresent]
    · exact habsent.symm
  covered hpresent := by
    rw [habsent] at hpresent
    cases hpresent

/-- A report of a page that was already reporting and visible. -/
theorem Kept.report (h : Kept delay now d) (hstarted : d.started = true) :
    Kept delay now (d.report now) where
  posted post hpost := by
    rcases List.mem_append.mp hpost with hold | hnew
    · exact h.posted post hold
    · rw [List.mem_singleton.mp hnew]
      exact ⟨Nat.le_refl _, Nat.le_add_right _ _⟩
  heard := h.heard
  changed := h.changed
  beats := h.beats
  told post htold hlt := by
    have hcases : d.Told post ∨ post = ⟨now, d.visible⟩ := by
      rcases htold with hpost | hheard
      · exact (List.mem_append.mp hpost).imp .inl List.mem_singleton.mp
      · exact .inl (.inr hheard)
    rcases hcases with hold | rfl
    · exact h.told post hold hlt
    · unfold Device.present Device.report
      rw [hstarted, Bool.true_and]
  covered hpresent time hle hlt := by
    obtain ⟨earlier, hearlier, hwindow, hreported⟩ := h.covered hpresent time hle hlt
    refine ⟨earlier, hearlier, hwindow, hreported.imp_left fun hpost => ?_⟩
    obtain ⟨post, hmem, hposted⟩ := hpost
    exact ⟨post, List.mem_append_left _ hmem, hposted⟩

/-- A page that has just come to be reporting and visible, and says so. -/
theorem Kept.appear {d' : Device} (h : Kept delay now d)
    (hflight : d'.inFlight = d.inFlight ++ [⟨now, true⟩]) (hheard : d'.heard = d.heard)
    (hchanged : d'.changed = now)
    (hbeats : now ≤ d'.nextBeat ∧ d'.nextBeat ≤ now + defaultHeartbeatMs) :
    Kept delay now d' where
  posted post hpost := by
    rw [hflight] at hpost
    rcases List.mem_append.mp hpost with hold | hnew
    · exact h.posted post hold
    · rw [List.mem_singleton.mp hnew]
      exact ⟨Nat.le_refl _, Nat.le_add_right _ _⟩
  heard post time hpost := h.heard post time (hheard ▸ hpost)
  changed := Nat.le_of_eq hchanged
  beats _ := hbeats
  told post htold hlt := by
    have hle : post.posted ≤ now := by
      rcases htold with hpost | ⟨time, hpost⟩
      · rw [hflight] at hpost
        rcases List.mem_append.mp hpost with hold | hnew
        · exact h.told_le (.inl hold)
        · exact Nat.le_of_eq (congrArg Post.posted (List.mem_singleton.mp hnew))
      · exact h.told_le (.inr ⟨time, hheard ▸ hpost⟩)
    omega
  covered _ time hle hlt := by
    refine ⟨now, by omega, by omega, .inl ⟨⟨now, true⟩, ?_, rfl⟩⟩
    rw [hflight]
    exact List.mem_append_right _ (List.mem_singleton.mpr rfl)

theorem Kept.start (h : Kept delay now d) : Kept delay now (d.start now) := by
  unfold Device.start
  by_cases hstarted : d.started = true
  · rw [if_pos hstarted]
    exact h
  · rw [if_neg hstarted]
    have habsent : d.present = false := by
      unfold Device.present
      rw [Bool.eq_false_iff.mpr hstarted, Bool.false_and]
    cases hvisible : d.visible with
    | true =>
      exact h.appear rfl rfl rfl ⟨Nat.le_add_right _ _, Nat.le_refl _⟩
    | false =>
      refine h.absent (fun post hpost => ?_) rfl (.inr ⟨rfl, habsent⟩)
        (fun _ => ⟨Nat.le_add_right _ _, Nat.le_refl _⟩) ?_
      · simp only [Device.report] at hpost
        exact (List.mem_append.mp hpost).imp_right List.mem_singleton.mp
      · simp only [Device.present, Device.report, Bool.and_false]

theorem Kept.beat (h : Kept delay now d) (hstarted : d.started = true) (hdue : d.nextBeat ≤ now) :
    Kept delay now (d.beat now) := by
  have hreported := h.report hstarted
  have hbeats := h.beats hstarted
  have hnext : d.nextBeat = now := by omega
  refine ⟨hreported.posted, hreported.heard, hreported.changed, fun _ => ?_, hreported.told,
    fun hpresent time hle hlt => ?_⟩
  · simp only [Device.beat, Device.report]
    omega
  · by_cases hbefore : time < d.nextBeat
    · exact hreported.covered hpresent time hle hbefore
    · simp only [Device.beat, Device.report] at hlt
      refine ⟨now, by omega, by omega, .inl ⟨⟨now, d.visible⟩, ?_, rfl⟩⟩
      exact List.mem_append_right _ (List.mem_singleton.mpr rfl)

theorem Device.present_of_not_started (h : ¬ d.started = true) : d.present = false := by
  unfold Device.present
  rw [Bool.eq_false_iff.mpr h, Bool.false_and]

theorem Kept.setVisible (h : Kept delay now d) (visible : Bool) :
    Kept delay now (d.setVisible now visible) := by
  unfold Device.setVisible
  by_cases hstarted : d.started = true
  · simp only [hstarted, if_true, Bool.true_and]
    by_cases hsame : d.visible = visible
    · subst hsame
      have hafter : (if (d.visible != d.visible) = true then now else d.changed) = d.changed := by
        rw [bne_self_eq_false, if_neg Bool.false_ne_true]
      rw [hafter]
      have hreport := h.report hstarted
      unfold Device.report at hreport ⊢
      rwa [hstarted] at hreport
    · have hchanged : (if (d.visible != visible) = true then now else d.changed) = now :=
        if_pos (bne_iff_ne.mpr hsame)
      rw [hchanged]
      cases visible with
      | true => exact h.appear rfl rfl rfl (h.beats hstarted)
      | false =>
        refine h.absent (fun post hpost => ?_) rfl (.inl rfl) (fun _ => h.beats hstarted) rfl
        exact (List.mem_append.mp hpost).imp_right List.mem_singleton.mp
  · have habsent := Device.present_of_not_started hstarted
    simp only [Bool.eq_false_iff.mpr hstarted, Bool.false_eq_true, if_false, Bool.false_and]
    exact h.absent (fun post hpost => .inl hpost) rfl (.inr ⟨rfl, habsent⟩)
      (fun hnot => by cases hnot) rfl

/-- What `changed` becomes when the page stops reporting. -/
theorem stopped_changed :
    (if d.visible = true then now else d.changed) = now ∨
      (if d.visible = true then now else d.changed) = d.changed ∧ d.present = false := by
  cases hvisible : d.visible with
  | true => exact .inl rfl
  | false =>
    refine .inr ⟨rfl, ?_⟩
    unfold Device.present
    rw [hvisible, Bool.and_false]

theorem Kept.dispose (h : Kept delay now d) : Kept delay now (d.dispose now) := by
  unfold Device.dispose
  by_cases hstarted : d.started = true
  · rw [if_pos hstarted]
    refine h.absent (fun post hpost => ?_) rfl stopped_changed (fun hnot => ?_) rfl
    · exact (List.mem_append.mp hpost).imp_right List.mem_singleton.mp
    · cases hnot
  · rw [if_neg hstarted]
    exact h

theorem Kept.vanish (h : Kept delay now d) : Kept delay now (d.vanish now) := by
  unfold Device.vanish
  by_cases hstarted : d.started = true
  · rw [if_pos hstarted]
    refine h.absent (fun post hpost => .inl hpost) rfl stopped_changed
      (fun hnot => ?_) rfl
    cases hnot
  · rw [if_neg hstarted]
    exact h

theorem mem_of_eraseIdx {posts : List Post} {i : Nat} {post other : Post}
    (hpost : posts[i]? = some post) (hother : other ∈ posts) :
    other ∈ posts.eraseIdx i ∨ other = post := by
  obtain ⟨j, hj⟩ := List.mem_iff_getElem?.mp hother
  by_cases heq : j = i
  · rw [heq, hpost] at hj
    exact .inr (Option.some.inj hj).symm
  · left
    rw [List.mem_eraseIdx_iff_getElem?]
    exact ⟨j, heq, hj⟩

theorem Kept.arrive {i : Nat} {post : Post} (h : Kept delay now d)
    (hpost : d.inFlight[i]? = some post) : Kept delay now (d.arrive now i post) := by
  have hmem := List.mem_of_getElem? hpost
  have htimes := h.posted post hmem
  refine ⟨fun other hother => h.posted other (List.mem_of_mem_eraseIdx hother),
    fun other time hheard => ?_, h.changed, h.beats, fun other htold hlt => ?_,
    fun hpresent time hle hlt => ?_⟩
  · cases hheard
    exact ⟨htimes.1, Nat.le_refl _, htimes.2⟩
  · have hbefore : d.Told other := by
      rcases htold with hflight | ⟨time, hheard⟩
      · exact .inl (List.mem_of_mem_eraseIdx hflight)
      · cases hheard
        exact .inl hmem
    exact h.told other hbefore hlt
  · obtain ⟨earlier, hearlier, hwindow, hreported⟩ := h.covered hpresent time hle hlt
    refine ⟨earlier, hearlier, hwindow, ?_⟩
    rcases hreported with ⟨other, hother, hposted⟩ | ⟨other, heard, hheard, hle⟩ | hlost
    · rcases mem_of_eraseIdx hpost hother with hstill | rfl
      · exact .inl ⟨other, hstill, hposted⟩
      · exact .inr (.inl ⟨other, now, rfl, hposted ▸ htimes.1⟩)
    · exact .inr (.inl ⟨post, now, rfl, Nat.le_trans hle (h.heard other heard hheard).2.1⟩)
    · exact .inr (.inr hlost)

theorem Kept.lose {i : Nat} {post : Post} (h : Kept delay now d)
    (hpost : d.inFlight[i]? = some post) : Kept delay now (d.lose i post) := by
  refine ⟨fun other hother => h.posted other (List.mem_of_mem_eraseIdx hother), h.heard,
    h.changed, h.beats, fun other htold => ?_, fun hpresent time hle hlt => ?_⟩
  · exact h.told other (htold.imp_left List.mem_of_mem_eraseIdx)
  · obtain ⟨earlier, hearlier, hwindow, hreported⟩ := h.covered hpresent time hle hlt
    refine ⟨earlier, hearlier, hwindow, ?_⟩
    rcases hreported with ⟨other, hother, hposted⟩ | hheard | ⟨latest, hlost, hle⟩
    · rcases mem_of_eraseIdx hpost hother with hstill | rfl
      · exact .inl ⟨other, hstill, hposted⟩
      · exact .inr (.inr ⟨_, rfl, hposted ▸ Nat.le_max_left _ _⟩)
    · exact .inr (.inl hheard)
    · refine .inr (.inr ⟨_, rfl, ?_⟩)
      rw [hlost, Option.getD_some]
      exact Nat.le_trans hle (Nat.le_max_right _ _)

theorem Kept.tick (h : Kept delay now d)
    (htimely : (d.started = true → now < d.nextBeat) ∧
      ∀ post ∈ d.inFlight, now < post.posted + delay) : Kept delay (now + 1) d where
  posted post hpost := by
    have hold := h.posted post hpost
    have hlt := htimely.2 post hpost
    omega
  heard post time hheard := by
    have hold := h.heard post time hheard
    omega
  changed := Nat.le_succ_of_le h.changed
  beats hstarted := by
    have hold := h.beats hstarted
    have hlt := htimely.1 hstarted
    omega
  told := h.told
  covered := h.covered

/-! ## Runs -/

/-- Every page is kept, and the registry knows of it what arrived last. -/
def Agrees (delay : Nat) (s : State) : Prop :=
  ∀ endpoint, Kept delay s.now (s.devices endpoint) ∧
    Registered s.now (s.expiries endpoint) (s.devices endpoint)

/-- A step of one page, in which nothing arrives. -/
theorem Agrees.put {s : State} (h : Agrees delay s) {endpoint : Endpoint} {d' : Device}
    (hkept : Kept delay s.now d') (hheard : d'.heard = (s.devices endpoint).heard) :
    Agrees delay (s.put endpoint d') := by
  intro other
  by_cases hother : other = endpoint
  · subst hother
    simp only [State.put, Function.update_self]
    exact ⟨hkept, (h other).2.of_heard hheard⟩
  · simp only [State.put, Function.update_of_ne hother]
    exact h other

/-- How a push treats the devices: it goes to the subscriptions not known to be in the foreground,
in order; one that is skipped is in use or was a moment ago; one in use for long enough, none of
whose last reports was lost, is skipped. -/
structure Judged (delay : Nat) (s : State) (push : Sent) : Prop where
  time : push.time = s.now
  targets : push.targets =
    push.subscriptions.filter fun endpoint => !(s.devices endpoint).known s.now
  skipped : ∀ endpoint ∈ push.subscriptions, endpoint ∉ push.targets →
    (s.devices endpoint).present = true ∨
      s.now < (s.devices endpoint).changed + delay + defaultTtlMs
  spared : ∀ endpoint, delay < defaultHeartbeatMs → (s.devices endpoint).present = true →
    (s.devices endpoint).changed + 2 * delay + defaultHeartbeatMs < s.now →
    (∀ lost, (s.devices endpoint).lost = some lost → lost + delay + defaultHeartbeatMs < s.now) →
    endpoint ∉ push.targets

end Climon.Server.PushPresence
