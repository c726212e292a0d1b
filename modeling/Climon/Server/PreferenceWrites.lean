import Climon.Config.ThreeWayMerge
import Climon.Lib.Transition
import Climon.Server.DashboardPreferences

namespace Climon.Server.PreferenceWrites

open Climon.Config.ConfigMerge Climon.Config.ThreeWayMerge Climon.Lib.Transition
  Climon.Lib.ValueTree Climon.Server.DashboardPreferences

/-!
# Preference writes take turns

Every write of a preference loads the config, changes one setting and saves it. The calls form a
chain of promises: each starts when the one before it has settled, however that ended.
-/

/-! ## Calls -/

inductive Outcome where
  | saved
  | rejected (failure : Failure)
  | threw

/-- `released` is a call whose end the next one has been told of. -/
inductive Stage where
  | waiting
  | loading
  | saving (golden caller : ClimonConfig)
  | writing (record : ClimonConfig)
  | settled (outcome : Outcome)
  | released (outcome : Outcome)

structure Call where
  request : Request
  stage : Stage

/-- A call goes on, or what it waits for fails. A write that fails may have written. -/
inductive Action where
  | proceeds
  | fails (written : Bool)
  deriving DecidableEq

/-- What has reached the disk. -/
inductive Change where
  | saved (call : Nat) (request : Request)
  | edited (config : ClimonConfig)

structure State where
  disk : ClimonConfig
  calls : List Call
  history : List Change

def init (disk : ClimonConfig) : State := ⟨disk, [], []⟩

inductive Event where
  | call (request : Request)
  | act (i : Nat) (action : Action)
  /-- Another program writes the config. -/
  | edit (config : ClimonConfig)

def Stage.ofLoad : Except Failure ClimonConfig → ClimonConfig → Stage
  | .ok caller, golden => .saving golden caller
  | .error failure, _ => .settled (.rejected failure)

def Stage.ofReread : Except String ClimonConfig → Stage
  | .ok record => .writing record
  | .error _ => .settled .threw

section Step

variable (isThemeName : List UInt16 → Bool)

/-- What a call goes on to, and what it puts on the disk. -/
def Call.advance (call : Call) (disk : ClimonConfig) (turn : Bool) :
    Action → Option (Stage × Option ClimonConfig)
  | .proceeds =>
    match call.stage with
    | .waiting => if turn then some (.loading, none) else none
    | .loading =>
      some (Stage.ofLoad (applyDashboardPreference isThemeName call.request disk) disk, none)
    | .saving golden caller => some (Stage.ofReread (toWrite golden caller disk), none)
    | .writing record => some (.settled .saved, some record)
    | .settled outcome => some (.released outcome, none)
    | .released _ => none
  | .fails written =>
    match call.stage with
    | .loading | .saving _ _ => some (.settled .threw, none)
    | .writing record => some (.settled .threw, if written then some record else none)
    | .waiting | .settled _ | .released _ => none

def Stage.isReleased : Stage → Bool
  | .released _ => true
  | _ => false

/-- The call before has been released. -/
def turn (s : State) (i : Nat) : Bool := i = 0 || s.calls[i - 1]?.any (·.stage.isReleased)

def next (s : State) : Event → Option State
  | .call request => some { s with calls := s.calls ++ [⟨request, .waiting⟩] }
  | .edit config => some { s with disk := config, history := s.history ++ [.edited config] }
  | .act i action =>
    s.calls[i]?.bind fun call =>
      (call.advance isThemeName s.disk (turn s i) action).map fun (stage, written) =>
        { disk := written.getD s.disk
          calls := s.calls.set i ⟨call.request, stage⟩
          history := s.history ++ (written.map fun _ => .saved i call.request).toList }

def Step (s : State) (e : Event) (t : State) : Prop := next isThemeName s e = some t

end Step

/-- From its load to its write a call relies on the disk. -/
def Stage.relies : Stage → Bool
  | .saving _ _ | .writing _ => true
  | _ => false

/-- Nobody else writes the config between a call's load and its write. -/
def Quiet (s : State) : Event → Prop
  | .edit _ => ∀ call ∈ s.calls, call.stage.relies = false
  | _ => True

/-! ## One step -/

section

variable {isThemeName : List UInt16 → Bool} {s t : State} {i j : Nat} {call other : Call}
  {action : Action} {stage : Stage} {written : Option ClimonConfig} {disk : ClimonConfig}

def Stage.isWaiting : Stage → Bool
  | .waiting => true
  | _ => false

def Stage.outcome? : Stage → Option Outcome
  | .settled outcome | .released outcome => some outcome
  | _ => none

/-- Under way, and not known to have ended. -/
def Call.isActive (call : Call) : Bool := !call.stage.isWaiting && !call.stage.isReleased

inductive Moves (isThemeName : List UInt16 → Bool) (disk : ClimonConfig) (ready : Bool)
    (request : Request) : Stage → Stage → Option ClimonConfig → Prop where
  | start (h : ready = true) : Moves isThemeName disk ready request .waiting .loading none
  | load : Moves isThemeName disk ready request .loading
      (.ofLoad (applyDashboardPreference isThemeName request disk) disk) none
  | reread {golden caller : ClimonConfig} : Moves isThemeName disk ready request
      (.saving golden caller) (.ofReread (toWrite golden caller disk)) none
  | write {record : ClimonConfig} :
      Moves isThemeName disk ready request (.writing record) (.settled .saved) (some record)
  | fail {stage : Stage} (h : stage = .loading ∨ stage.relies = true) :
      Moves isThemeName disk ready request stage (.settled .threw) none
  | failWritten {record : ClimonConfig} :
      Moves isThemeName disk ready request (.writing record) (.settled .threw) (some record)
  | release {outcome : Outcome} :
      Moves isThemeName disk ready request (.settled outcome) (.released outcome) none

theorem moves_of_advance {ready : Bool}
    (h : call.advance isThemeName disk ready action = some (stage, written)) :
    Moves isThemeName disk ready call.request call.stage stage written := by
  obtain ⟨request, before⟩ := call
  cases action with
  | proceeds =>
    cases before <;> simp only [Call.advance, Option.some.injEq, Prod.mk.injEq, reduceCtorEq] at h
    case waiting =>
      split at h
      next hready =>
        cases h
        exact .start hready
      next => cases h
    all_goals
      obtain ⟨rfl, rfl⟩ := h
      constructor
  | fails wrote =>
    cases before <;> simp only [Call.advance, Option.some.injEq, Prod.mk.injEq, reduceCtorEq] at h
    case writing record =>
      obtain ⟨rfl, rfl⟩ := h
      cases wrote with
      | false => exact .fail (.inr rfl)
      | true => exact .failWritten
    case loading =>
      obtain ⟨rfl, rfl⟩ := h
      exact .fail (.inl rfl)
    case saving =>
      obtain ⟨rfl, rfl⟩ := h
      exact .fail (.inr rfl)

/-- What a call's step does. -/
structure Acted (isThemeName : List UInt16 → Bool) (s t : State) (i : Nat) (call : Call)
    (stage : Stage) (written : Option ClimonConfig) : Prop where
  at' : s.calls[i]? = some call
  moves : Moves isThemeName s.disk (turn s i) call.request call.stage stage written
  disk : t.disk = written.getD s.disk
  calls : t.calls = s.calls.set i ⟨call.request, stage⟩
  history : t.history = s.history ++ (written.map fun _ => .saved i call.request).toList

theorem acted_of_step (h : Step isThemeName s (.act i action) t) :
    ∃ call stage written, Acted isThemeName s t i call stage written := by
  obtain ⟨call, hcall, h⟩ := Option.bind_eq_some_iff.mp h
  obtain ⟨⟨stage, written⟩, hadvance, rfl⟩ := Option.map_eq_some_iff.mp h
  exact ⟨call, stage, written, hcall, moves_of_advance hadvance, rfl, rfl, rfl⟩

theorem Moves.not_released {ready : Bool} {request : Request} {before : Stage}
    (h : Moves isThemeName disk ready request before stage written) :
    before.isReleased = false := by
  cases h with
  | fail h => cases before <;> simp_all [Stage.relies, Stage.isReleased]
  | _ => rfl

theorem Moves.ready {ready : Bool} {request : Request} {before : Stage}
    (h : Moves isThemeName disk ready request before stage written)
    (hwaiting : before.isWaiting = true) : ready = true := by
  cases h with
  | start h => exact h
  | fail h => cases before <;> simp_all [Stage.relies, Stage.isWaiting]
  | _ => cases hwaiting

/-- The calls after a step of one of them. -/
theorem Acted.calls_cases (h : Acted isThemeName s t i call stage written)
    (hj : t.calls[j]? = some other) :
    (j = i ∧ other = ⟨call.request, stage⟩) ∨ (j ≠ i ∧ s.calls[j]? = some other) := by
  rw [h.calls] at hj
  by_cases hji : j = i
  · subst hji
    rw [List.getElem?_set_self (List.getElem?_eq_some_iff.mp h.at').1] at hj
    exact .inl ⟨rfl, (Option.some.inj hj).symm⟩
  · rw [List.getElem?_set_ne (Ne.symm hji)] at hj
    exact .inr ⟨hji, hj⟩

/-- A call that is released stays so. -/
theorem Acted.released (h : Acted isThemeName s t i call stage written)
    (hj : s.calls[j]? = some other) (hreleased : other.stage.isReleased = true) :
    t.calls[j]? = some other := by
  rw [h.calls, List.getElem?_set_ne]
  · exact hj
  · rintro rfl
    have heq := Option.some.inj (h.at'.symm.trans hj)
    rw [← heq, h.moves.not_released] at hreleased
    cases hreleased

end

/-! ## The invariant -/

section

variable (isThemeName : List UInt16 → Bool)

/-- The config after a change, were it the only one under way. -/
def replayed (config : ClimonConfig) : Change → ClimonConfig
  | .saved _ request => (applyDashboardPreference isThemeName request config).toOption.getD config
  | .edited config => config

def Change.call? : Change → Option Nat
  | .saved i _ => some i
  | .edited _ => none

/-- A rejection is that of the request's check. -/
def Reported (request : Request) : Outcome → Prop
  | .rejected failure => checked isThemeName request = .error failure
  | .saved | .threw => True

/-- What a call knows at a stage. -/
def Holds (disk : ClimonConfig) (request : Request) : Stage → Prop
  | .saving golden caller =>
    golden = disk ∧ applyDashboardPreference isThemeName request golden = .ok caller
  | .writing record =>
    ∃ after, applyDashboardPreference isThemeName request disk = .ok after ∧
      Same record.root after.root
  | .settled outcome | .released outcome => Reported isThemeName request outcome
  | .waiting | .loading => True

structure Inv (initial : ClimonConfig) (s : State) : Prop where
  order : ∀ {i : Nat} {call : Call}, s.calls[i]? = some call → call.stage.isWaiting = false →
    ∀ {j : Nat} {other : Call}, j < i → s.calls[j]? = some other → other.stage.isReleased = true
  disk : Same s.disk.root (s.history.foldl (replayed isThemeName) initial).root
  holds : ∀ {i : Nat} {call : Call}, s.calls[i]? = some call →
    Holds isThemeName s.disk call.request call.stage
  ended : ∀ {i request}, .saved i request ∈ s.history → ∃ call : Call, ∃ outcome,
    s.calls[i]? = some call ∧ call.request = request ∧ call.stage.outcome? = some outcome ∧
    ∀ failure, outcome ≠ .rejected failure
  logged : ∀ {i : Nat} {call : Call}, s.calls[i]? = some call →
    call.stage.outcome? = some .saved → .saved i call.request ∈ s.history
  turns : (s.history.filterMap Change.call?).Pairwise (· < ·)

end

section

variable {isThemeName : List UInt16 → Bool} {initial : ClimonConfig} {s t : State} {i j : Nat}
  {call other : Call} {stage : Stage} {written : Option ClimonConfig}

theorem inv_init : Inv isThemeName initial (init initial) where
  order h := by cases h
  disk := Same.refl _
  holds h := by cases h
  ended h := by cases h
  logged h := by cases h
  turns := .nil

/-- At most one call is under way. -/
theorem Inv.alone (h : Inv isThemeName initial s) (hi : s.calls[i]? = some call)
    (hj : s.calls[j]? = some other) (hcall : call.isActive = true)
    (hother : other.isActive = true) : i = j := by
  simp only [Call.isActive, Bool.and_eq_true, Bool.not_eq_true'] at hcall hother
  rcases Nat.lt_trichotomy i j with hlt | heq | hgt
  · rw [h.order hj hother.1 hlt hi] at hcall
    cases hcall.2
  · exact heq
  · rw [h.order hi hcall.1 hgt hj] at hother
    cases hother.2

/-- Only a stage that relies on the disk knows something of it. -/
theorem holds_of_not_relies {disk disk' : ClimonConfig} {request : Request}
    (h : Holds isThemeName disk request stage) (hrelies : stage.relies = false) :
    Holds isThemeName disk' request stage := by
  cases stage with
  | saving => cases hrelies
  | writing => cases hrelies
  | _ => exact h

/-- A rejection does not depend on the config. -/
theorem apply_error_iff {request : Request} {config : ClimonConfig} {failure : Failure} :
    applyDashboardPreference isThemeName request config = .error failure ↔
      checked isThemeName request = .error failure := by
  unfold applyDashboardPreference
  cases checked isThemeName request with
  | error failure' => simp [Except.map]
  | ok written => simp [Except.map]

theorem replayed_saved (config : ClimonConfig) (i : Nat) (request : Request) :
    replayed isThemeName config (.saved i request) =
      match checked isThemeName request with
      | .error _ => config
      | .ok (path, value) => writeDotted config path value := by
  rw [replayed, applyDashboardPreference]
  cases checked isThemeName request <;> rfl

/-- Configs that say the same are changed to ones that do. -/
theorem same_replayed {config config' : ClimonConfig} (h : Same config.root config'.root)
    (change : Change) :
    Same (replayed isThemeName config change).root (replayed isThemeName config' change).root := by
  cases change with
  | edited => rfl
  | saved i request =>
    rw [replayed_saved, replayed_saved]
    cases checked isThemeName request with
    | error failure => exact h
    | ok written => exact same_writeDotted h written.1 written.2

theorem Inv.called (h : Inv isThemeName initial s) (request : Request) :
    Inv isThemeName initial { s with calls := s.calls ++ [⟨request, .waiting⟩] } := by
  have hcases {j : Nat} {other : Call}
      (hj : (s.calls ++ [(⟨request, .waiting⟩ : Call)])[j]? = some other) :
      s.calls[j]? = some other ∨ other = ⟨request, .waiting⟩ := by
    rcases Nat.lt_or_ge j s.calls.length with hlt | hge
    · rw [List.getElem?_append_left hlt] at hj
      exact .inl hj
    · rw [List.getElem?_append_right hge] at hj
      exact .inr (List.mem_singleton.mp (List.mem_of_getElem? hj))
  refine ⟨fun hi hstage j other hlt hj => ?_, h.disk, fun hi => ?_, fun hmem => ?_,
    fun hi hsaved => ?_, h.turns⟩
  · rcases hcases hi with hold | rfl
    · have hlt' := Nat.lt_trans hlt (List.getElem?_eq_some_iff.mp hold).1
      rw [List.getElem?_append_left hlt'] at hj
      exact h.order hold hstage hlt hj
    · cases hstage
  · rcases hcases hi with hold | rfl
    · exact h.holds hold
    · trivial
  · obtain ⟨call, outcome, hcall, hrest⟩ := h.ended hmem
    refine ⟨call, outcome, ?_, hrest⟩
    rw [List.getElem?_append_left (List.getElem?_eq_some_iff.mp hcall).1]
    exact hcall
  · rcases hcases hi with hold | rfl
    · exact h.logged hold hsaved
    · cases hsaved

theorem Inv.edited (h : Inv isThemeName initial s) (config : ClimonConfig)
    (hquiet : ∀ call ∈ s.calls, call.stage.relies = false) :
    Inv isThemeName initial
      { s with disk := config, history := s.history ++ [.edited config] } := by
  refine ⟨h.order, ?_, fun hi => ?_, fun hmem => ?_, fun hi hsaved => ?_, ?_⟩
  · rw [List.foldl_append]
    rfl
  · exact holds_of_not_relies (h.holds hi) (hquiet _ (List.mem_of_getElem? hi))
  · rcases List.mem_append.mp hmem with hold | hnew
    · exact h.ended hold
    · cases List.mem_singleton.mp hnew
  · exact List.mem_append_left _ (h.logged hi hsaved)
  · rw [List.filterMap_append, show [Change.edited config].filterMap Change.call? = [] from rfl,
      List.append_nil]
    exact h.turns

/-- Whoever takes a step, the calls before are released. -/
theorem Acted.before_released (hact : Acted isThemeName s t i call stage written)
    (h : Inv isThemeName initial s) (hlt : j < i) (hj : s.calls[j]? = some other) :
    other.stage.isReleased = true := by
  cases hwaiting : call.stage.isWaiting with
  | false => exact h.order hact.at' hwaiting hlt hj
  | true =>
    have hready := hact.moves.ready hwaiting
    simp only [turn, Bool.or_eq_true, decide_eq_true_eq, Option.any_eq_true] at hready
    rcases hready with hzero | ⟨before, hbefore, hreleased⟩
    · omega
    by_cases hj' : j = i - 1
    · rw [hj', hbefore] at hj
      rwa [← Option.some.inj hj]
    · have hstage : before.stage.isWaiting = false := by
        cases hbefore' : before.stage <;> rw [hbefore'] at hreleased <;>
          first | rfl | cases hreleased
      exact h.order hbefore hstage (by omega) hj

/-- A call that ends by writing has written what its request makes of the disk. -/
theorem Moves.same_of_written {disk : ClimonConfig} {ready : Bool} {request : Request} {before : Stage}
    (h : Moves isThemeName disk ready request before stage written)
    (hholds : Holds isThemeName disk request before) {record : ClimonConfig}
    (hwritten : written = some record) :
    Same record.root (replayed isThemeName disk (.saved i request)).root ∧
      before = .writing record ∧ (stage = .settled .saved ∨ stage = .settled .threw) := by
  have hsame {record : ClimonConfig} (hholds : Holds isThemeName disk request (.writing record)) :
      Same record.root (replayed isThemeName disk (.saved i request)).root := by
    obtain ⟨after, hafter, hsame⟩ := hholds
    rw [replayed, hafter]
    exact hsame
  cases h with
  | write =>
    cases hwritten
    exact ⟨hsame hholds, rfl, .inl rfl⟩
  | failWritten =>
    cases hwritten
    exact ⟨hsame hholds, rfl, .inr rfl⟩
  | _ => cases hwritten

theorem Moves.holds {disk : ClimonConfig} {ready : Bool} {request : Request} {before : Stage}
    (h : Moves isThemeName disk ready request before stage written)
    (hholds : Holds isThemeName disk request before) :
    Holds isThemeName (written.getD disk) request stage := by
  cases h with
  | load =>
    cases happly : applyDashboardPreference isThemeName request disk with
    | error failure => exact apply_error_iff.mp happly
    | ok caller => exact ⟨rfl, happly⟩
  | @reread golden caller =>
    obtain ⟨rfl, happly⟩ := hholds
    obtain ⟨record, hrecord, hroot⟩ := toWrite_eq golden caller golden
    rw [hrecord]
    refine ⟨caller, happly, ?_⟩
    rw [hroot]
    exact same_mergeAt_golden (formed_root golden) (formed_root caller)
  | release => exact hholds
  | _ => trivial

/-- What a call has reported it keeps reporting. -/
theorem Moves.outcome {disk : ClimonConfig} {ready : Bool} {request : Request} {before : Stage}
    (h : Moves isThemeName disk ready request before stage written) {outcome : Outcome}
    (hbefore : before.outcome? = some outcome) : stage.outcome? = some outcome := by
  cases h with
  | release => exact hbefore
  | fail hstage => cases before <;> simp_all [Stage.relies, Stage.outcome?]
  | _ => cases hbefore

/-- Only a write makes a call one that has saved. -/
theorem Moves.saved {disk : ClimonConfig} {ready : Bool} {request : Request} {before : Stage}
    (h : Moves isThemeName disk ready request before stage written)
    (hsaved : stage.outcome? = some .saved) :
    before.outcome? = some .saved ∨ ∃ record, written = some record := by
  cases h with
  | load =>
    cases happly : applyDashboardPreference isThemeName request disk <;> rw [happly] at hsaved <;>
      cases hsaved
  | @reread golden caller =>
    cases hwrite : toWrite golden caller disk <;> rw [hwrite] at hsaved <;> cases hsaved
  | write => exact .inr ⟨_, rfl⟩
  | release => exact .inl hsaved
  | _ => cases hsaved

theorem isWaiting_of_outcome {stage : Stage} {outcome : Outcome}
    (h : stage.outcome? = some outcome) : stage.isWaiting = false := by
  cases stage with
  | waiting => cases h
  | _ => rfl

theorem Acted.self (h : Acted isThemeName s t i call stage written) :
    t.calls[i]? = some ⟨call.request, stage⟩ := by
  rw [h.calls, List.getElem?_set_self (List.getElem?_eq_some_iff.mp h.at').1]

theorem Acted.beside (h : Acted isThemeName s t i call stage written) (hj : j ≠ i) :
    t.calls[j]? = s.calls[j]? := by
  rw [h.calls, List.getElem?_set_ne (Ne.symm hj)]

/-- Who has saved came before whoever still takes steps. -/
theorem Inv.lt_of_saved (h : Inv isThemeName initial s)
    (hact : Acted isThemeName s t i call stage written) (hstage : call.stage.outcome? = none)
    {request : Request} (hj : .saved j request ∈ s.history) : j < i := by
  obtain ⟨other, outcome, hother, -, houtcome, -⟩ := h.ended hj
  rcases Nat.lt_trichotomy j i with hlt | rfl | hgt
  · exact hlt
  · rw [Option.some.inj (hact.at'.symm.trans hother), houtcome] at hstage
    cases hstage
  · have hreleased := h.order hother (isWaiting_of_outcome houtcome) hgt hact.at'
    rw [hact.moves.not_released] at hreleased
    cases hreleased

theorem Inv.acted (h : Inv isThemeName initial s)
    (hact : Acted isThemeName s t i call stage written) : Inv isThemeName initial t := by
  have hmoves := hact.moves
  have hholds := h.holds hact.at'
  constructor
  case order =>
    intro k caller hk hstage j other hlt hj
    rcases hact.calls_cases hk with ⟨rfl, rfl⟩ | ⟨hki, hk⟩
    · rw [hact.beside (Nat.ne_of_lt hlt)] at hj
      exact hact.before_released h hlt hj
    · have hall {m : Nat} {before : Call} := @Inv.order _ _ _ h k caller hk hstage m before
      rcases hact.calls_cases hj with ⟨rfl, rfl⟩ | ⟨-, hj⟩
      · -- A released call takes no step.
        have hreleased := hall hlt hact.at'
        rw [hmoves.not_released] at hreleased
        cases hreleased
      · exact hall hlt hj
  case disk =>
    rw [hact.disk, hact.history]
    cases hwritten : written with
    | none =>
      rw [Option.map_none, Option.toList_none, List.append_nil]
      exact h.disk
    | some record =>
      rw [Option.map_some, Option.toList_some, List.foldl_append]
      obtain ⟨hsame, -, -⟩ := hmoves.same_of_written hholds hwritten (i := i)
      exact hsame.trans (same_replayed h.disk _)
  case holds =>
    intro k caller hk
    rw [hact.disk]
    rcases hact.calls_cases hk with ⟨rfl, rfl⟩ | ⟨hki, hk⟩
    · exact hmoves.holds hholds
    · cases hwritten : written with
      | none => exact h.holds hk
      | some record =>
        obtain ⟨-, hwriting, -⟩ := hmoves.same_of_written hholds hwritten (i := i)
        apply holds_of_not_relies (h.holds hk)
        by_contra hrelies
        apply hki
        apply h.alone hk hact.at' <;> unfold Call.isActive
        · cases hcaller : caller.stage <;> simp_all [Stage.relies, Stage.isWaiting, Stage.isReleased]
        · rw [hwriting]
          rfl
  case ended =>
    intro j request hmem
    rw [hact.history] at hmem
    rcases List.mem_append.mp hmem with hold | hnew
    · obtain ⟨other, outcome, hother, hrequest, houtcome, hne⟩ := h.ended hold
      by_cases hji : j = i
      · subst hji
        cases hact.at'.symm.trans hother
        exact ⟨_, outcome, hact.self, hrequest, hmoves.outcome houtcome, hne⟩
      · exact ⟨other, outcome, (hact.beside hji).trans hother, hrequest, houtcome, hne⟩
    · cases hwritten : written with
      | none =>
        rw [hwritten] at hnew
        cases hnew
      | some record =>
        rw [hwritten] at hnew
        cases List.mem_singleton.mp hnew
        obtain ⟨-, -, rfl | rfl⟩ := hmoves.same_of_written hholds hwritten (i := i)
        · exact ⟨_, .saved, hact.self, rfl, rfl, fun failure hne => by cases hne⟩
        · exact ⟨_, .threw, hact.self, rfl, rfl, fun failure hne => by cases hne⟩
  case logged =>
    intro k caller hk hsaved
    rw [hact.history]
    rcases hact.calls_cases hk with ⟨rfl, rfl⟩ | ⟨-, hk⟩
    · rcases hmoves.saved hsaved with hold | ⟨record, rfl⟩
      · have hlogged := h.logged hact.at' hold
        exact List.mem_append_left _ hlogged
      · exact List.mem_append_right _ (List.mem_singleton_self _)
    · exact List.mem_append_left _ (h.logged hk hsaved)
  case turns =>
    rw [hact.history]
    cases hwritten : written with
    | none =>
      rw [Option.map_none, Option.toList_none, List.append_nil]
      exact h.turns
    | some record =>
      obtain ⟨-, hwriting, -⟩ := hmoves.same_of_written hholds hwritten (i := i)
      rw [Option.map_some, Option.toList_some, List.filterMap_append]
      refine List.pairwise_append.mpr ⟨h.turns, List.pairwise_singleton _ _, ?_⟩
      intro j hj k hk
      obtain ⟨change, hchange, hcall⟩ := List.mem_filterMap.mp hj
      cases List.mem_singleton.mp hk
      cases change with
      | saved j' request =>
        cases hcall
        exact h.lt_of_saved hact (by rw [hwriting]; rfl) hchange
      | edited => cases hcall

theorem inv_step {e : Event} (h : Inv isThemeName initial s)
    (hstep : Guarded Quiet (Step isThemeName) s e t) : Inv isThemeName initial t := by
  obtain ⟨hquiet, hstep⟩ := hstep
  cases e with
  | call request =>
    cases hstep
    exact h.called request
  | edit config =>
    cases hstep
    exact h.edited config hquiet
  | act i action =>
    obtain ⟨call, stage, written, hact⟩ := acted_of_step hstep
    exact h.acted hact

end

/-! ## Runs -/

/-- As if the calls that saved had been made one after the other, in the order in which they came
and with the edits of others between them. -/
structure InTurn (isThemeName : List UInt16 → Bool) (initial : ClimonConfig) (s : State) : Prop where
  disk : Same s.disk.root (s.history.foldl (replayed isThemeName) initial).root
  turns : (s.history.filterMap Change.call?).Pairwise (· < ·)
  alone : ∀ (i j : Nat) (call other : Call), s.calls[i]? = some call → s.calls[j]? = some other →
    call.isActive = true → other.isActive = true → i = j
  saved : ∀ (i : Nat) (call : Call), s.calls[i]? = some call →
    call.stage.outcome? = some .saved → .saved i call.request ∈ s.history
  rejected : ∀ (i : Nat) (call : Call) (failure : Failure), s.calls[i]? = some call →
    call.stage.outcome? = some (.rejected failure) →
    (∀ config, applyDashboardPreference isThemeName call.request config = .error failure) ∧
      ∀ request, .saved i request ∉ s.history
  progress : (∃ call ∈ s.calls, call.stage.isReleased = false) →
    ∃ i t, Step isThemeName s (.act i .proceeds) t

section

variable {isThemeName : List UInt16 → Bool} {initial : ClimonConfig} {s : State}

end

def pin : Request := ⟨Climon.Lib.Utf16.encode "dashboard.keyBarPinned", some (bool false)⟩

def unknownTheme : Request := ⟨Climon.Lib.Utf16.encode "dashboard.theme", some (text [])⟩

/-- The first call fails to load; the second was made meanwhile and saves, the third is rejected. -/
def overlapping : List Event := [
  .edit empty, .call pin, .act 0 .proceeds, .call pin, .call unknownTheme, .act 0 (.fails false),
  .act 0 .proceeds, .act 1 .proceeds, .act 1 .proceeds, .act 1 .proceeds, .act 1 .proceeds,
  .act 1 .proceeds, .act 2 .proceeds, .act 2 .proceeds]

end Climon.Server.PreferenceWrites
