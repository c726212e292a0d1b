import Climon.Server.AttentionPush

namespace Climon.Web.AttentionAlerts

open Climon.Lib.Transition Climon.Proto.Meta Climon.Server.AttentionPush

/-!
# Alerts in the page

After a render the page looks at its sessions: it acknowledges the one that is viewed, counts those
that need attention in its title, and alerts for those that have come to.
-/

/-! ## The viewed session -/

structure Inputs where
  sessions : List SessionMeta
  activeId : Option String
  pageVisible : Bool
  isMobile : Bool
  maximized : Bool
  deriving DecidableEq, Repr

def computeViewedSessionId (inputs : Inputs) : Option String :=
  inputs.activeId.bind fun activeId =>
    if inputs.sessions.any fun session => session.id = activeId then
      if !inputs.pageVisible then none
      else if inputs.isMobile && !inputs.maximized then none
      else some activeId
    else none

structure ViewedSessionAck where
  sessionId : String
  attentionMatchedAt : String
  deriving DecidableEq, Repr

def ViewedSessionAck.key (ack : ViewedSessionAck) : String :=
  ack.sessionId ++ ":" ++ ack.attentionMatchedAt

/-- The acknowledgement that is due for the viewed session; empty texts count as none. -/
def dueAck (viewedSessionId : Option String) (sessions : List SessionMeta) :
    Option ViewedSessionAck :=
  (viewedSessionId.filter (· ≠ "")).bind fun id =>
    (sessions.find? fun session => session.id = id).bind fun viewed =>
      if viewed.status = .needsAttention then
        (viewed.attentionMatchedAt.filter (· ≠ "")).map fun stamp => ⟨viewed.id, stamp⟩
      else none

def viewedSessionAttentionAck (viewedSessionId : Option String) (sessions : List SessionMeta)
    (lastAckedKey : Option String) : Option ViewedSessionAck :=
  (dueAck viewedSessionId sessions).filter fun ack => some ack.key ≠ lastAckedKey

/-! ## The manager -/

def formatAttentionTitle (baseTitle : String) (attentionCount : Nat) : String :=
  if 0 < attentionCount then baseTitle ++ " (!" ++ toString attentionCount ++ ")" else baseTitle

/-- Those that need attention and are not viewed. -/
def visibleAttentive (sessions : List SessionMeta) (viewedSessionId : Option String) :
    List SessionMeta :=
  (attentive sessions).filter fun session => some session.id ≠ viewedSessionId

def attentionKeys (sessions : List SessionMeta) : List String :=
  (attentive sessions).map attentionStateKey

structure Manager where
  seenAttentionKeys : List String
  seeded : Bool
  title : String
  deriving DecidableEq, Repr

def createAttentionAlertManager (baseTitle : String) : Manager := ⟨[], false, baseTitle⟩

/-- The sessions that an alert goes out for: a sound, a vibration and a toast each. -/
def Manager.update (baseTitle : String) (manager : Manager) (sessions : List SessionMeta)
    (viewedSessionId : Option String) (alertsVisible : Bool) : Manager × List SessionMeta :=
  let newlyAttentive := (visibleAttentive sessions viewedSessionId).filter fun session =>
    attentionStateKey session ∉ manager.seenAttentionKeys
  (⟨attentionKeys sessions, true,
      formatAttentionTitle baseTitle (visibleAttentive sessions viewedSessionId).length⟩,
    if manager.seeded && alertsVisible then newlyAttentive else [])

/-! ## The page -/

/-- What a render has shown and done. -/
structure Rendered where
  sessions : List SessionMeta
  viewedSessionId : Option String
  alertsVisible : Bool
  title : String
  alerted : List SessionMeta
  acked : Option ViewedSessionAck
  deriving DecidableEq, Repr

/-- `replaced` tells that the list is another one than at the last render. -/
structure Page where
  inputs : Inputs
  replaced : Bool
  manager : Manager
  lastAutoAckKey : Option String
  log : List Rendered
  deriving DecidableEq, Repr

inductive Event where
  | setSessions (sessions : List SessionMeta)
  | setActive (activeId : Option String)
  | setPageVisible (visible : Bool)
  | setMobile (isMobile : Bool)
  | setMaximized (maximized : Bool)
  | render
  deriving DecidableEq, Repr

/-- Something that an effect depends on has changed since the last render. -/
def Page.viewChanged (p : Page) : Bool :=
  p.replaced ||
    (p.log.getLast?.map Rendered.viewedSessionId) ≠ some (computeViewedSessionId p.inputs)

def Page.alertsChanged (p : Page) : Bool :=
  p.viewChanged || (p.log.getLast?.map Rendered.alertsVisible) ≠ some p.inputs.pageVisible

/-- Each effect of a render runs where what it depends on has changed. -/
def Page.acknowledge (p : Page) : Option ViewedSessionAck :=
  if p.viewChanged then
    viewedSessionAttentionAck (computeViewedSessionId p.inputs) p.inputs.sessions p.lastAutoAckKey
  else none

def Page.alert (baseTitle : String) (p : Page) : Manager × List SessionMeta :=
  if p.alertsChanged then
    p.manager.update baseTitle p.inputs.sessions (computeViewedSessionId p.inputs)
      p.inputs.pageVisible
  else (p.manager, [])

def Page.rendered (baseTitle : String) (p : Page) : Rendered where
  sessions := p.inputs.sessions
  viewedSessionId := computeViewedSessionId p.inputs
  alertsVisible := p.inputs.pageVisible
  title := (p.alert baseTitle).1.title
  alerted := (p.alert baseTitle).2
  acked := p.acknowledge

def Page.render (baseTitle : String) (p : Page) : Page :=
  { p with
    replaced := false
    manager := (p.alert baseTitle).1
    lastAutoAckKey := (p.acknowledge.map ViewedSessionAck.key).or p.lastAutoAckKey
    log := p.log ++ [p.rendered baseTitle] }

def step (baseTitle : String) (p : Page) : Event → Page
  | .setSessions sessions =>
    { p with inputs := { p.inputs with sessions := sessions }, replaced := true }
  | .setActive activeId => { p with inputs := { p.inputs with activeId := activeId } }
  | .setPageVisible visible => { p with inputs := { p.inputs with pageVisible := visible } }
  | .setMobile isMobile => { p with inputs := { p.inputs with isMobile := isMobile } }
  | .setMaximized maximized => { p with inputs := { p.inputs with maximized := maximized } }
  | .render => p.render baseTitle

def Page.run (baseTitle : String) (p : Page) (events : List Event) : Page :=
  events.foldl (step baseTitle) p

/-! ## What a log may hold -/

/-- What a render alerts for, after the one before it. -/
def dueAlerts (before sessions : List SessionMeta) (viewedSessionId : Option String)
    (alertsVisible : Bool) : List SessionMeta :=
  if alertsVisible then
    (visibleAttentive sessions viewedSessionId).filter fun session =>
      attentionStateKey session ∉ attentionKeys before
  else []

def Rendered.due (before : Rendered) (r : Rendered) : List SessionMeta :=
  dueAlerts before.sessions r.sessions r.viewedSessionId r.alertsVisible

/-- The last acknowledgement of a log. -/
def lastAck (log : List Rendered) : Option ViewedSessionAck :=
  (log.filterMap Rendered.acked).getLast?

/-- What one more render may add to a log. -/
structure Fits (baseTitle : String) (log : List Rendered) (r : Rendered) : Prop where
  title : r.title = formatAttentionTitle baseTitle
    (visibleAttentive r.sessions r.viewedSessionId).length
  alerted : r.alerted = (log.getLast?.map fun before => before.due r).getD []
  due : ∀ ack, r.acked = some ack → dueAck r.viewedSessionId r.sessions = some ack ∧
    (lastAck log).map ViewedSessionAck.key ≠ some ack.key
  acked : ∀ ack, dueAck r.viewedSessionId r.sessions = some ack →
    (lastAck (log ++ [r])).map ViewedSessionAck.key = some ack.key

inductive Logged (baseTitle : String) : List Rendered → Prop where
  | nil : Logged baseTitle []
  | snoc {log : List Rendered} {r : Rendered} (hlog : Logged baseTitle log)
    (hr : Fits baseTitle log r) : Logged baseTitle (log ++ [r])

/-- How what a page remembers stands to its log. -/
structure Inv (baseTitle : String) (p : Page) : Prop where
  logged : Logged baseTitle p.log
  fresh : p.log = [] → p.replaced = true ∧ p.manager = createAttentionAlertManager baseTitle
  kept : ∀ last, p.log.getLast? = some last →
    (p.replaced = false → p.inputs.sessions = last.sessions) ∧
    p.manager = ⟨attentionKeys last.sessions, true, last.title⟩
  lastKey : p.lastAutoAckKey = (lastAck p.log).map ViewedSessionAck.key
  settled : ∀ last, p.log.getLast? = some last →
    ∀ ack, dueAck last.viewedSessionId last.sessions = some ack → p.lastAutoAckKey = some ack.key

section

variable {baseTitle : String} {p : Page} {log : List Rendered} {r r' : Rendered}

theorem lastAck_concat : lastAck (log ++ [r]) = r.acked.or (lastAck log) := by
  unfold lastAck
  rw [List.filterMap_append]
  cases hacked : r.acked with
  | none => simp [hacked]
  | some ack => simp [hacked]

theorem Logged.last (h : Logged baseTitle log) (hlast : log.getLast? = some r) :
    r.title = formatAttentionTitle baseTitle
      (visibleAttentive r.sessions r.viewedSessionId).length := by
  cases h with
  | nil => cases hlast
  | snoc _ hr =>
    rw [List.getLast?_concat, Option.some.injEq] at hlast
    exact hlast ▸ hr.title

/-- Nobody is new to the list that was there before. -/
theorem dueAlerts_same (sessions : List SessionMeta) (viewedSessionId : Option String)
    (alertsVisible : Bool) : dueAlerts sessions sessions viewedSessionId alertsVisible = [] := by
  unfold dueAlerts
  split
  · rw [List.filter_eq_nil_iff]
    intro session hsession hnew
    have hattentive := (List.mem_filter.mp hsession).1
    exact of_decide_eq_true hnew (List.mem_map_of_mem hattentive)
  · rfl

theorem not_viewChanged (h : p.viewChanged = false) (hlast : p.log.getLast? = some r) :
    p.replaced = false ∧ r.viewedSessionId = computeViewedSessionId p.inputs := by
  unfold Page.viewChanged at h
  rw [Bool.or_eq_false_iff, hlast, Option.map_some, decide_eq_false_iff_not, not_not,
    Option.some.injEq] at h
  exact h

theorem not_alertsChanged (h : p.alertsChanged = false) (hlast : p.log.getLast? = some r) :
    p.viewChanged = false ∧ r.alertsVisible = p.inputs.pageVisible := by
  unfold Page.alertsChanged at h
  rw [Bool.or_eq_false_iff, hlast, Option.map_some, decide_eq_false_iff_not, not_not,
    Option.some.injEq] at h
  exact h

theorem changed_of_nil (h : p.log = []) : p.viewChanged = true ∧ p.alertsChanged = true := by
  simp [Page.viewChanged, Page.alertsChanged, h]

/-! ## One render -/

theorem alert_eq (h : Inv baseTitle p) :
    p.alert baseTitle =
      (⟨attentionKeys p.inputs.sessions, true, formatAttentionTitle baseTitle
          (visibleAttentive p.inputs.sessions (computeViewedSessionId p.inputs)).length⟩,
        (p.log.getLast?.map fun before => before.due (p.rendered baseTitle)).getD []) := by
  unfold Page.alert
  cases hlast : p.log.getLast? with
  | none =>
    have hnil := List.getLast?_eq_none_iff.mp hlast
    rw [if_pos (changed_of_nil hnil).2, (h.fresh hnil).2]
    rfl
  | some last =>
    obtain ⟨hsessions, hmanager⟩ := h.kept last hlast
    rw [Option.map_some, Option.getD_some, hmanager]
    split
    next hchanged => rfl
    next hsame =>
      rw [Bool.not_eq_true] at hsame
      obtain ⟨hview, hvisible⟩ := not_alertsChanged hsame hlast
      obtain ⟨hreplaced, hviewed⟩ := not_viewChanged hview hlast
      have hdue : last.due (p.rendered baseTitle) = [] := by
        unfold Rendered.due Page.rendered
        rw [hsessions hreplaced]
        exact dueAlerts_same _ _ _
      rw [hdue, hsessions hreplaced, ← hviewed, ← h.logged.last hlast]

theorem acknowledge_due (h : Inv baseTitle p) {ack : ViewedSessionAck}
    (hack : p.acknowledge = some ack) :
    dueAck (computeViewedSessionId p.inputs) p.inputs.sessions = some ack ∧
      (lastAck p.log).map ViewedSessionAck.key ≠ some ack.key := by
  unfold Page.acknowledge at hack
  split at hack
  · obtain ⟨hdue, hkey⟩ := Option.filter_eq_some_iff.mp hack
    rw [decide_eq_true_eq, h.lastKey] at hkey
    exact ⟨hdue, Ne.symm hkey⟩
  · cases hack

/-- What is due has been sent, now or before. -/
theorem acknowledge_sends (h : Inv baseTitle p) {ack : ViewedSessionAck}
    (hdue : dueAck (computeViewedSessionId p.inputs) p.inputs.sessions = some ack) :
    (p.acknowledge.map ViewedSessionAck.key).or p.lastAutoAckKey = some ack.key := by
  unfold Page.acknowledge
  split
  next hchanged =>
    unfold viewedSessionAttentionAck
    rw [hdue]
    by_cases hkey : some ack.key = p.lastAutoAckKey
    · rw [Option.filter_some_neg (by simpa using hkey), hkey]
      rfl
    · rw [Option.filter_some_pos (by simpa using hkey)]
      rfl
  next hsame =>
    rw [Bool.not_eq_true] at hsame
    cases hlast : p.log.getLast? with
    | none =>
      rw [(changed_of_nil (List.getLast?_eq_none_iff.mp hlast)).1] at hsame
      cases hsame
    | some last =>
      obtain ⟨hreplaced, hviewed⟩ := not_viewChanged hsame hlast
      rw [(h.kept last hlast).1 hreplaced, ← hviewed] at hdue
      exact h.settled last hlast ack hdue

theorem lastKey_render (h : Inv baseTitle p) :
    (p.acknowledge.map ViewedSessionAck.key).or p.lastAutoAckKey =
      (lastAck (p.log ++ [p.rendered baseTitle])).map ViewedSessionAck.key := by
  rw [lastAck_concat, h.lastKey]
  change _ = (p.acknowledge.or (lastAck p.log)).map ViewedSessionAck.key
  cases p.acknowledge <;> rfl

theorem render_fits (h : Inv baseTitle p) : Fits baseTitle p.log (p.rendered baseTitle) := by
  have halert := alert_eq h
  refine ⟨?title, ?alerted, fun ack => acknowledge_due h, ?acked⟩
  case title =>
    change (p.alert baseTitle).1.title = _
    rw [halert]
    rfl
  case alerted => exact congrArg Prod.snd halert
  case acked =>
    intro ack hdue
    rw [← lastKey_render h]
    exact acknowledge_sends h hdue

theorem Inv.render (h : Inv baseTitle p) : Inv baseTitle (p.render baseTitle) := by
  have hlast : (p.render baseTitle).log.getLast? = some (p.rendered baseTitle) :=
    List.getLast?_concat
  refine ⟨.snoc h.logged (render_fits h), ?_, ?_, lastKey_render h, ?_⟩
  · intro hnil
    exact absurd hnil (by simp [Page.render])
  · intro last hsome
    cases hlast.symm.trans hsome
    refine ⟨fun _ => rfl, ?_⟩
    change (p.alert baseTitle).1 =
      ⟨attentionKeys p.inputs.sessions, true, (p.alert baseTitle).1.title⟩
    rw [alert_eq h]
  · intro last hsome ack hdue
    cases hlast.symm.trans hsome
    exact acknowledge_sends h hdue

/-- An input that changes tells nothing of the log. -/
theorem Inv.change (h : Inv baseTitle p) {inputs : Inputs} {replaced : Bool}
    (hreplaced : replaced = false → p.replaced = false ∧ inputs.sessions = p.inputs.sessions)
    (hfresh : p.replaced = true → replaced = true) :
    Inv baseTitle { p with inputs := inputs, replaced := replaced } := by
  refine ⟨h.logged, fun hnil => ⟨hfresh (h.fresh hnil).1, (h.fresh hnil).2⟩, ?_, h.lastKey, h.settled⟩
  intro last hlast
  obtain ⟨hsessions, hmanager⟩ := h.kept last hlast
  refine ⟨fun hold => ?_, hmanager⟩
  obtain ⟨hbefore, hsame⟩ := hreplaced hold
  exact hsame.trans (hsessions hbefore)

theorem inv_step (h : Inv baseTitle p) (e : Event) : Inv baseTitle (step baseTitle p e) := by
  cases e with
  | setSessions sessions => exact h.change Bool.noConfusion fun _ => rfl
  | render => exact h.render
  | _ => exact h.change (fun hold => ⟨hold, rfl⟩) id

theorem Logged.fits (h : Logged baseTitle log) {i : Nat} (hi : log[i]? = some r) :
    Fits baseTitle (log.take i) r := by
  induction h with
  | nil => cases hi
  | @snoc log last hlog hr ih =>
    rcases some_of_concat hi with hold | ⟨rfl, rfl⟩
    · have hlt := (List.getElem?_eq_some_iff.mp hold).1
      rw [List.take_append_of_le_length (Nat.le_of_lt hlt)]
      exact ih hold
    · rw [List.take_left]
      exact hr

/-- Every render but the first alerts for what is new since the one before it. -/
theorem Logged.alerted (h : Logged baseTitle log) {i : Nat} (hi : log[i]? = some r)
    (hnext : log[i + 1]? = some r') : r'.alerted = r.due r' := by
  have halerted := (h.fits hnext).alerted
  rw [List.getLast?_take, if_neg (Nat.succ_ne_zero i), Nat.add_sub_cancel, hi] at halerted
  exact halerted

theorem mem_due {session : SessionMeta} : session ∈ r.due r' ↔ r'.alertsVisible = true ∧
    session ∈ visibleAttentive r'.sessions r'.viewedSessionId ∧
      attentionStateKey session ∉ attentionKeys r.sessions := by
  unfold Rendered.due dueAlerts
  split
  next hvisible =>
    rw [List.mem_filter, decide_eq_true_eq]
    exact ⟨fun h => ⟨hvisible, h⟩, And.right⟩
  next hhidden =>
    constructor
    · intro h
      cases h
    · intro h
      exact absurd h.1 hhidden

theorem key_of_visible {sessions : List SessionMeta} {viewedSessionId : Option String}
    {session : SessionMeta} (h : session ∈ visibleAttentive sessions viewedSessionId) :
    attentionStateKey session ∈ attentionKeys sessions :=
  List.mem_map_of_mem (List.mem_filter.mp h).1

/-- The title counts, the viewed session is acknowledged and never alerted for, and every alert is
for an episode that the last render lacked: one that the server has pushed since. -/
structure Attended (baseTitle : String) (log : List Rendered) : Prop where
  title : ∀ r ∈ log, r.title = formatAttentionTitle baseTitle
    (visibleAttentive r.sessions r.viewedSessionId).length
  seed : ∀ r : Rendered, log[0]? = some r → r.alerted = []
  alerted : ∀ (i : Nat) (r r' : Rendered), log[i]? = some r → log[i + 1]? = some r' →
    r'.alerted = r.due r'
  once : ∀ (i j : Nat) (r r' : Rendered) (session session' : SessionMeta), i < j →
    log[i]? = some r → log[j]? = some r' → session ∈ r.alerted → session' ∈ r'.alerted →
    attentionStateKey session = attentionStateKey session' →
    ∃ (k : Nat) (between : Rendered), i < k ∧ k < j ∧ log[k]? = some between ∧
      attentionStateKey session ∉ attentionKeys between.sessions
  acked : ∀ (i : Nat) (r : Rendered) (ack : ViewedSessionAck), log[i]? = some r →
    dueAck r.viewedSessionId r.sessions = some ack →
    (lastAck (log.take (i + 1))).map ViewedSessionAck.key = some ack.key
  unrepeated : ∀ (i : Nat) (r : Rendered) (ack : ViewedSessionAck), log[i]? = some r →
    r.acked = some ack → dueAck r.viewedSessionId r.sessions = some ack ∧
      (lastAck (log.take i)).map ViewedSessionAck.key ≠ some ack.key
  pushed : ∀ (lists : List (List SessionMeta)) (i k k' : Nat) (r r' : Rendered)
    (session : SessionMeta), log[i]? = some r →
    log[i + 1]? = some r' → r.sessions = lists.getD k [] → r'.sessions = lists.getD k' [] →
    k ≤ k' → session ∈ r'.alerted → ∃ n, k < n ∧ n ≤ k' ∧
      ∃ session' ∈ pushedAt lists n, attentionStateKey session' = attentionStateKey session
  matched : ∀ (lists : List (List SessionMeta)) (i k : Nat) (r r' : Rendered), log[i]? = some r →
    log[i + 1]? = some r' → r.sessions = lists.getD k [] → r'.sessions = lists.getD (k + 1) [] →
    r'.alertsVisible = true →
    r'.alerted = (pushedAt lists (k + 1)).filter fun session =>
      some session.id ≠ r'.viewedSessionId

theorem Logged.once (h : Logged baseTitle log) {i j : Nat} {session session' : SessionMeta}
    (hij : i < j) (hi : log[i]? = some r) (hj : log[j]? = some r') (hr : session ∈ r.alerted)
    (hr' : session' ∈ r'.alerted) (hkey : attentionStateKey session = attentionStateKey session') :
    ∃ (k : Nat) (between : Rendered), i < k ∧ k < j ∧ log[k]? = some between ∧
      attentionStateKey session ∉ attentionKeys between.sessions := by
  obtain ⟨j, rfl⟩ : ∃ n, j = n + 1 := ⟨j - 1, by omega⟩
  have hlt : j < log.length := by
    have hlength := (List.getElem?_eq_some_iff.mp hj).1
    omega
  have hbefore := List.getElem?_eq_getElem hlt
  rw [h.alerted hbefore hj, mem_due, ← hkey] at hr'
  refine ⟨j, log[j], ?_, Nat.lt_succ_self j, hbefore, hr'.2.2⟩
  rcases Nat.lt_or_eq_of_le (Nat.le_of_lt_succ hij) with hlt | rfl
  · exact hlt
  -- the alert of a render is for a session of its own
  · cases hi.symm.trans hbefore
    cases i with
    | zero =>
      have hseed := (h.fits hbefore).alerted
      rw [List.take_zero] at hseed
      rw [hseed] at hr
      cases hr
    | succ i =>
      have hprev := List.getElem?_eq_getElem (Nat.lt_of_succ_lt hlt)
      rw [h.alerted hprev hbefore, mem_due] at hr
      exact absurd (key_of_visible hr.2.1) hr'.2.2

end

end Climon.Web.AttentionAlerts
