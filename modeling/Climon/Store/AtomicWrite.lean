import Climon.Lib.DecimalText
import Climon.Lib.Directory
import Climon.Lib.SeparatedFields
import Climon.Lib.Transition

namespace Climon.Store.AtomicWrite

open Climon.Lib.DecimalText Climon.Lib.Directory Climon.Lib.SeparatedFields Climon.Lib.Transition

/-!
# Atomic writes

A file is written under a temporary name first and then renamed over its target. The temporary name
tells the process, the time and the number of the call apart, so that writers never share one.
-/

abbrev Path := List Char

abbrev Bytes := List UInt8

def renameMaxAttempts : Nat := 10

/-- `<path>.<pid>.<ms>.<n>.tmp` -/
def tempName (path : Path) (pid nowMs counter : Nat) : Path :=
  path ++ '.' :: (pid.repr.toList ++ '.' :: (nowMs.repr.toList ++
    '.' :: (counter.repr.toList ++ ".tmp".toList)))

def isTemp (path : Path) : Bool := ".tmp".toList.isSuffixOf path

/-! ## Calls -/

structure Stamp where
  nowMs : Nat
  counter : Nat

/-- `lost` is a call whose process has ended. -/
inductive Stage where
  | preparing
  | opening
  | writing (rest : Bytes)
  | moving (attempt : Nat)
  | removing
  | returned (ok : Bool)
  | lost

/-- `invoked` is how many changes there had been when the call was made. -/
structure Call where
  pid : Nat
  path : Path
  data : Bytes
  invoked : Nat
  stamp : Option Stamp
  stage : Stage

def Call.temp (call : Call) : Option Path :=
  call.stamp.map fun stamp => tempName call.path call.pid stamp.nowMs stamp.counter

inductive Action where
  /-- The parent directories are there, and the call takes its number. -/
  | prepares (nowMs : Nat)
  | opens
  /-- The next `n` bytes reach the file. -/
  | puts (n : Nat)
  | closes
  | renames
  | removes
  | fails (transient : Bool)
  deriving DecidableEq

/-- What has happened to the files that are not temporary. -/
inductive Change where
  | renamed (id : Nat) (path : Path) (data : Bytes)
  | edited (path : Path) (content : Option Bytes)

/-- `counters` has the processes that run, each with its `TEMP_COUNTER`. -/
structure State where
  files : Directory Path Bytes
  counters : Nat → Option Nat
  calls : Nat → Option Call
  history : List Change

def init (files : Directory Path Bytes) : State := ⟨files, fun _ => none, fun _ => none, []⟩

inductive Event where
  | spawn (pid : Nat)
  /-- The process ends, be it in the middle of a write. -/
  | crash (pid : Nat)
  | call (id pid : Nat) (path : Path) (data : Bytes)
  | act (id : Nat) (action : Action)
  /-- Another program writes or removes a file. -/
  | edit (path : Path) (content : Option Bytes)

def Stage.isLive : Stage → Bool
  | .returned _ | .lost => false
  | _ => true

def Call.lose (pid : Nat) (call : Call) : Call :=
  if call.pid = pid ∧ call.stage.isLive = true then { call with stage := .lost } else call

def State.put (s : State) (id : Nat) (call : Call) : State :=
  { s with calls := Function.update s.calls id (some call) }

def State.goTo (s : State) (id : Nat) (call : Call) (stage : Stage) : State :=
  s.put id { call with stage := stage }

/-- After a rename that failed. -/
def afterFailure (attempt : Nat) (transient : Bool) : Stage :=
  if !transient || attempt ≥ renameMaxAttempts - 1 then .removing else .moving (attempt + 1)

def act (s : State) (id : Nat) (call : Call) : Stage → Action → Option State
  | .preparing, .prepares nowMs =>
    (s.counters call.pid).map fun counter =>
      { s with counters := Function.update s.counters call.pid (some (counter + 1)) }.put id
        { call with stamp := some ⟨nowMs, counter⟩, stage := .opening }
  | .opening, .opens =>
    call.temp.map fun temp =>
      { s with files := s.files.write temp [] }.goTo id call (.writing call.data)
  | .writing rest, .puts n =>
    call.temp.map fun temp =>
      { s with files := s.files.write temp ((s.files temp).getD [] ++ rest.take n) }.goTo id call
        (.writing (rest.drop n))
  | .writing [], .closes => some (s.goTo id call (.moving 0))
  | .moving _, .renames =>
    call.temp.map fun temp =>
      { s with
        files := s.files.rename temp call.path
        history := s.history ++ [Change.renamed id call.path call.data] }.goTo id call (.returned true)
  | .moving attempt, .fails transient =>
    some (s.goTo id call (afterFailure attempt transient))
  | .removing, .removes =>
    call.temp.map fun temp =>
      { s with files := s.files.remove temp }.goTo id call (.returned false)
  | .preparing, .fails _ | .opening, .fails _ | .writing _, .fails _ | .removing, .fails _ =>
    some (s.goTo id call (.returned false))
  | _, _ => none

def next (s : State) : Event → Option State
  | .spawn pid =>
    match s.counters pid with
    | some _ => none
    | none => some { s with counters := Function.update s.counters pid (some 0) }
  | .crash pid =>
    (s.counters pid).map fun _ =>
      { s with
        counters := Function.update s.counters pid none
        calls := fun id => (s.calls id).map (Call.lose pid) }
  | .call id pid path data =>
    match s.calls id, s.counters pid with
    | none, some _ =>
      some (s.put id ⟨pid, path, data, s.history.length, none, .preparing⟩)
    | _, _ => none
  | .act id action => (s.calls id).bind fun call => act s id call call.stage action
  | .edit path content =>
    some { s with
      files := Function.update s.files path content
      history := s.history ++ [.edited path content] }

def Step (s : State) (e : Event) (t : State) : Prop := next s e = some t

/-- Nobody asks for a file with a temporary name or touches one. -/
def Proper : Event → Prop
  | .call _ _ path _ | .edit path _ => isTemp path = false
  | _ => True

/-! ## Temporary names -/

section

variable {path path' : Path} {pid pid' nowMs nowMs' counter counter' : Nat}

theorem dot_notMem_repr (n : Nat) : '.' ∉ n.repr.toList := fun h =>
  absurd (digits_repr n '.' h) (by decide)

theorem isTemp_tempName : isTemp (tempName path pid nowMs counter) = true := by
  rw [isTemp, List.isSuffixOf_iff_suffix]
  exact ⟨path ++ '.' :: (pid.repr.toList ++ '.' :: (nowMs.repr.toList ++
    '.' :: counter.repr.toList)), by simp [tempName]⟩

/-- A temporary name says whose it is. -/
theorem tempName_injective
    (h : tempName path pid nowMs counter = tempName path' pid' nowMs' counter') :
    path = path' ∧ pid = pid' ∧ counter = counter' := by
  have hfields (path : Path) (pid nowMs counter : Nat) :
      tempName path pid nowMs counter = (((path ++ '.' :: pid.repr.toList) ++
        '.' :: nowMs.repr.toList) ++ '.' :: counter.repr.toList) ++ '.' :: "tmp".toList := by
    simp [tempName]
  rw [hfields, hfields] at h
  obtain ⟨h, -⟩ := append_cons_injective (by decide) (by decide) h
  obtain ⟨h, hcounter⟩ := append_cons_injective (dot_notMem_repr _) (dot_notMem_repr _) h
  obtain ⟨h, -⟩ := append_cons_injective (dot_notMem_repr _) (dot_notMem_repr _) h
  obtain ⟨hpath, hpid⟩ := append_cons_injective (dot_notMem_repr _) (dot_notMem_repr _) h
  exact ⟨hpath, repr_injective (String.toList_injective hpid),
    repr_injective (String.toList_injective hcounter)⟩

end

/-! ## One step -/

section

variable {s t : State} {files after : Directory Path Bytes} {call other : Call}
  {stage before : Stage} {path temp : Path} {id : Nat} {action : Action} {renamed : Bool}

/-- A call's step once it has a temporary name. -/
inductive Moves (files : Directory Path Bytes) (call : Call) :
    Stage → Stage → Directory Path Bytes → Bool → Prop where
  | opens {temp : Path} (h : call.temp = some temp) :
      Moves files call .opening (.writing call.data) (files.write temp []) false
  | puts {temp : Path} {rest : Bytes} {n : Nat} (h : call.temp = some temp) :
      Moves files call (.writing rest) (.writing (rest.drop n))
        (files.write temp ((files temp).getD [] ++ rest.take n)) false
  | closes : Moves files call (.writing []) (.moving 0) files false
  | renames {temp : Path} {attempt : Nat} (h : call.temp = some temp) :
      Moves files call (.moving attempt) (.returned true) (files.rename temp call.path) true
  | failed {attempt : Nat} {transient : Bool} :
      Moves files call (.moving attempt) (afterFailure attempt transient) files false
  | removes {temp : Path} (h : call.temp = some temp) :
      Moves files call .removing (.returned false) (files.remove temp) false
  | fails {stage : Stage} (h : stage.isLive = true) :
      Moves files call stage (.returned false) files false

structure Acted (s t : State) (id : Nat) (call : Call) (stage : Stage) (renamed : Bool) :
    Prop where
  at' : s.calls id = some call
  moves : Moves s.files call call.stage stage t.files renamed
  counters : t.counters = s.counters
  calls : t.calls = Function.update s.calls id (some { call with stage := stage })
  history : t.history =
    s.history ++ if renamed = true then [.renamed id call.path call.data] else []

/-- A call that takes its number. -/
structure Prepared (s t : State) (id : Nat) (call : Call) (nowMs counter : Nat) : Prop where
  at' : s.calls id = some call
  stage : call.stage = .preparing
  running : s.counters call.pid = some counter
  files : t.files = s.files
  counters : t.counters = Function.update s.counters call.pid (some (counter + 1))
  calls : t.calls = Function.update s.calls id
    (some { call with stamp := some ⟨nowMs, counter⟩, stage := .opening })
  history : t.history = s.history

theorem acted_of_act (hcall : s.calls id = some call)
    (h : act s id call call.stage action = some t) :
    (∃ nowMs counter, Prepared s t id call nowMs counter) ∨
      ∃ stage renamed, Acted s t id call stage renamed := by
  have hnone (history : List Change) : history = history ++ [] := (List.append_nil _).symm
  obtain ⟨pid, path, data, invoked, stamp, stage⟩ := call
  cases stage <;> cases action
  case preparing.prepares nowMs =>
    obtain ⟨counter, hcounter, rfl⟩ := Option.map_eq_some_iff.mp h
    exact .inl ⟨nowMs, counter, hcall, rfl, hcounter, rfl, rfl, rfl, rfl⟩
  case opening.opens =>
    obtain ⟨temp, htemp, rfl⟩ := Option.map_eq_some_iff.mp h
    exact .inr ⟨_, _, hcall, .opens htemp, rfl, rfl, hnone _⟩
  case writing.puts rest n =>
    obtain ⟨temp, htemp, rfl⟩ := Option.map_eq_some_iff.mp h
    exact .inr ⟨_, _, hcall, .puts htemp, rfl, rfl, hnone _⟩
  case writing.closes rest =>
    cases rest with
    | nil =>
      cases h
      exact .inr ⟨_, _, hcall, .closes, rfl, rfl, hnone _⟩
    | cons => cases h
  case moving.renames attempt =>
    obtain ⟨temp, htemp, rfl⟩ := Option.map_eq_some_iff.mp h
    exact .inr ⟨_, true, hcall, .renames htemp, rfl, rfl, rfl⟩
  case moving.fails attempt transient =>
    cases h
    exact .inr ⟨_, _, hcall, .failed, rfl, rfl, hnone _⟩
  case removing.removes =>
    obtain ⟨temp, htemp, rfl⟩ := Option.map_eq_some_iff.mp h
    exact .inr ⟨_, _, hcall, .removes htemp, rfl, rfl, hnone _⟩
  case preparing.fails | opening.fails | writing.fails | removing.fails =>
    cases h
    exact .inr ⟨_, _, hcall, .fails rfl, rfl, rfl, hnone _⟩
  all_goals cases h

theorem Moves.live (h : Moves files call before stage after renamed) : before.isLive = true := by
  cases h with
  | fails h => exact h
  | _ => rfl

/-- No other temporary file is touched. -/
theorem Moves.beside (h : Moves files call before stage after renamed)
    (htarget : isTemp call.path = false) (htemp : isTemp path = true)
    (hne : call.temp ≠ some path) : after path = files path := by
  have hpath : path ≠ call.path := by
    rintro rfl
    rw [htarget] at htemp
    cases htemp
  cases h with
  | opens h =>
    rw [h, ne_eq, Option.some.injEq] at hne
    exact Directory.write_other (Ne.symm hne)
  | puts h =>
    rw [h, ne_eq, Option.some.injEq] at hne
    exact Directory.write_other (Ne.symm hne)
  | renames h =>
    rw [h, ne_eq, Option.some.injEq] at hne
    exact Directory.rename_other (Ne.symm hne) hpath
  | removes h =>
    rw [h, ne_eq, Option.some.injEq] at hne
    exact Directory.remove_other (Ne.symm hne)
  | _ => rfl

theorem isTemp_temp (h : call.temp = some temp) : isTemp temp = true := by
  obtain ⟨stamp, -, rfl⟩ := Option.map_eq_some_iff.mp h
  exact isTemp_tempName

theorem ne_temp (h : call.temp = some temp) (hpath : isTemp path = false) : path ≠ temp := by
  rintro rfl
  rw [isTemp_temp h] at hpath
  cases hpath

/-- What a call knows at a stage. -/
def Holds (files : Directory Path Bytes) (call : Call) : Stage → Prop
  | .preparing => call.stamp = none
  | .writing rest => ∃ temp written, call.temp = some temp ∧ files temp = some written ∧
      written ++ rest = call.data
  | .moving attempt => attempt < renameMaxAttempts ∧
      ∃ temp, call.temp = some temp ∧ files temp = some call.data
  | .opening | .removing | .returned _ | .lost => True

theorem Moves.holds (h : Moves files call before stage after renamed)
    (hholds : Holds files call before) : Holds after call stage := by
  cases h with
  | opens h => exact ⟨_, [], h, Directory.write_same, List.nil_append _⟩
  | puts h =>
    obtain ⟨temp, written, htemp, hwritten, hdata⟩ := hholds
    cases h.symm.trans htemp
    refine ⟨_, _, h, Directory.write_same, ?_⟩
    rw [hwritten, Option.getD_some, List.append_assoc, List.take_append_drop]
    exact hdata
  | closes =>
    obtain ⟨temp, written, htemp, hwritten, hdata⟩ := hholds
    rw [List.append_nil] at hdata
    rw [hdata] at hwritten
    exact ⟨by decide, temp, htemp, hwritten⟩
  | failed =>
    unfold afterFailure
    split
    · trivial
    next h =>
      simp only [Bool.or_eq_true, decide_eq_true_eq, not_or, not_le] at h
      refine ⟨?_, hholds.2⟩
      have hlt := h.2
      unfold renameMaxAttempts at hlt ⊢
      omega
  | _ => trivial

/-- The other files change with the rename only, and then all at once. -/
theorem Moves.target (h : Moves files call before stage after renamed)
    (hholds : Holds files call before) (hpath : isTemp path = false) :
    after path = if renamed = true ∧ path = call.path then some call.data else files path := by
  cases h with
  | opens h =>
    rw [if_neg (by simp)]
    exact Directory.write_other (ne_temp h hpath)
  | puts h =>
    rw [if_neg (by simp)]
    exact Directory.write_other (ne_temp h hpath)
  | renames h =>
    obtain ⟨-, temp, htemp, hfile⟩ := hholds
    cases h.symm.trans htemp
    by_cases heq : path = call.path
    · subst heq
      rw [if_pos ⟨rfl, rfl⟩, ← hfile]
      exact Directory.rename_dst (by rw [hfile]; simp) (ne_temp htemp hpath)
    · rw [if_neg (by simp [heq])]
      exact Directory.rename_other (ne_temp htemp hpath) heq
  | removes h =>
    rw [if_neg (by simp)]
    exact Directory.remove_other (ne_temp h hpath)
  | _ => exact (if_neg (by simp)).symm

/-- A temporary file goes away with the rename. -/
theorem Moves.own (h : Moves files call before stage after renamed) (htemp : call.temp = some temp)
    (hrenamed : renamed = true) (htarget : isTemp call.path = false) : after temp = none := by
  cases h with
  | renames h =>
    cases h.symm.trans htemp
    exact Directory.rename_src (ne_temp htemp htarget)
  | _ => cases hrenamed

theorem Moves.returned (h : Moves files call before stage after renamed) :
    stage = .returned true ↔ renamed = true := by
  cases h with
  | failed =>
    unfold afterFailure
    split <;> simp
  | _ => simp

/-! ## The invariant -/

/-- The files after a change. -/
def replayed (files : Directory Path Bytes) : Change → Directory Path Bytes
  | .renamed _ path data => files.write path data
  | .edited path content => Function.update files path content

def Change.call? : Change → Option Nat
  | .renamed id _ _ => some id
  | .edited _ _ => none

structure Inv (initial : Directory Path Bytes) (s : State) : Prop where
  files : ∀ {path}, isTemp path = false → s.files path = s.history.foldl replayed initial path
  targets : ∀ {id : Nat} {call : Call}, s.calls id = some call → isTemp call.path = false
  holds : ∀ {id : Nat} {call : Call}, s.calls id = some call → Holds s.files call call.stage
  running : ∀ {id : Nat} {call : Call}, s.calls id = some call → call.stage.isLive = true →
    ∃ counter, s.counters call.pid = some counter ∧
      ∀ stamp, call.stamp = some stamp → stamp.counter < counter
  apart : ∀ {id id' : Nat} {call other : Call}, s.calls id = some call → s.calls id' = some other →
    call.stage.isLive = true → other.stage.isLive = true → call.pid = other.pid →
    ∀ {stamp stamp' : Stamp}, call.stamp = some stamp → other.stamp = some stamp' →
    stamp.counter = stamp'.counter → id = id'
  renamed : ∀ {k id : Nat} {path : Path} {data : Bytes},
    s.history[k]? = some (.renamed id path data) → ∃ call : Call, s.calls id = some call ∧
      call.path = path ∧ call.data = data ∧ call.stage = .returned true ∧ call.invoked ≤ k
  returned : ∀ {id : Nat} {call : Call}, s.calls id = some call → call.stage = .returned true →
    .renamed id call.path call.data ∈ s.history
  once : (s.history.filterMap Change.call?).Nodup
  invoked : ∀ {id : Nat} {call : Call}, s.calls id = some call → call.invoked ≤ s.history.length
  litter : ∀ {path}, isTemp path = true → s.files path ≠ none → initial path ≠ none ∨
    ∃ id call, s.calls id = some call ∧ call.temp = some path ∧ call.stage ≠ .returned true

theorem inv_init (initial : Directory Path Bytes) : Inv initial (init initial) where
  files _ := rfl
  targets h := by cases h
  holds h := by cases h
  running h := by cases h
  apart h := by cases h
  renamed h := by cases h
  returned h := by cases h
  once := .nil
  invoked h := by cases h
  litter _ h := .inl h

/-- Two calls under way have different temporary files. -/
theorem Inv.temp_ne {initial : Directory Path Bytes} (h : Inv initial s) {id' : Nat}
    (hcall : s.calls id = some call) (hother : s.calls id' = some other) (hne : id' ≠ id)
    (hlive : call.stage.isLive = true) (hlive' : other.stage.isLive = true)
    (htemp : other.temp = some temp) : call.temp ≠ some temp := by
  intro htemp'
  obtain ⟨stamp, hstamp, rfl⟩ := Option.map_eq_some_iff.mp htemp
  obtain ⟨stamp', hstamp', heq⟩ := Option.map_eq_some_iff.mp htemp'
  obtain ⟨-, hpid, hcounter⟩ := tempName_injective heq
  exact hne (h.apart hcall hother hlive hlive' hpid hstamp' hstamp hcounter).symm

/-- A call only knows about its own file. -/
theorem holds_of_agree (h : Holds files call stage)
    (hagree : stage.isLive = true → ∀ temp, call.temp = some temp → after temp = files temp) :
    Holds after call stage := by
  cases stage with
  | writing rest =>
    obtain ⟨temp, written, htemp, hwritten, hdata⟩ := h
    exact ⟨temp, written, htemp, (hagree rfl temp htemp).trans hwritten, hdata⟩
  | moving attempt =>
    obtain ⟨hattempt, temp, htemp, hfile⟩ := h
    exact ⟨hattempt, temp, htemp, (hagree rfl temp htemp).trans hfile⟩
  | _ => exact h

theorem getElem?_append_cases {changes new : List Change} {k : Nat} {change : Change}
    (h : (changes ++ new)[k]? = some change) :
    changes[k]? = some change ∨ (changes.length ≤ k ∧ change ∈ new) := by
  rcases Nat.lt_or_ge k changes.length with hlt | hge
  · rw [List.getElem?_append_left hlt] at h
    exact .inl h
  · rw [List.getElem?_append_right hge] at h
    exact .inr ⟨hge, List.mem_of_getElem? h⟩

/-- Nothing is remembered of the stage itself. -/
theorem holds_goTo (h : Holds files call stage) : Holds files { call with stage := stage } stage := by
  cases stage <;> exact h

variable {initial : Directory Path Bytes}

theorem Inv.acted (h : Inv initial s) (hact : Acted s t id call stage renamed) :
    Inv initial t := by
  have htarget := h.targets hact.at'
  have hholds := h.holds hact.at'
  have hlive := hact.moves.live
  have hcases {id' : Nat} {other : Call} (hother : t.calls id' = some other) :=
    some_of_update hact.calls hother
  refine ⟨?files, ?targets, ?holds, ?running, ?apart, ?renamed, ?returned, ?once, ?invoked,
    ?litter⟩
  case files =>
    intro path hpath
    rw [hact.moves.target hholds hpath, hact.history, List.foldl_append, h.files hpath]
    cases renamed with
    | false => rfl
    | true =>
      by_cases heq : path = call.path
      · subst heq
        exact (if_pos ⟨rfl, rfl⟩).trans Directory.write_same.symm
      · rw [if_neg (by simp [heq])]
        exact (Directory.write_other heq).symm
  case targets =>
    intro id' other hother
    rcases hcases hother with ⟨-, heq⟩ | ⟨-, hold⟩
    · cases heq
      exact htarget
    · exact h.targets hold
  case holds =>
    intro id' other hother
    rcases hcases hother with ⟨-, heq⟩ | ⟨hne, hold⟩
    · cases heq
      exact holds_goTo (hact.moves.holds hholds)
    · refine holds_of_agree (h.holds hold) fun hlive' temp htemp => ?_
      exact hact.moves.beside htarget (isTemp_temp htemp)
        (h.temp_ne hact.at' hold hne hlive hlive' htemp)
  case running =>
    intro id' other hother hlive'
    rw [hact.counters]
    rcases hcases hother with ⟨-, heq⟩ | ⟨-, hold⟩
    · cases heq
      obtain ⟨counter, hcounter, hbelow⟩ := h.running hact.at' hlive
      exact ⟨counter, hcounter, hbelow⟩
    · exact h.running hold hlive'
  case apart =>
    intro i j first second hfirst hsecond hlive₁ hlive₂ hpid stamp stamp' hstamp hstamp' heq
    rcases hcases hfirst with ⟨rfl, hfirst⟩ | ⟨-, hfirst⟩ <;>
      rcases hcases hsecond with ⟨rfl, hsecond⟩ | ⟨-, hsecond⟩
    · rfl
    · cases hfirst
      exact h.apart hact.at' hsecond hlive hlive₂ hpid hstamp hstamp' heq
    · cases hsecond
      exact h.apart hfirst hact.at' hlive₁ hlive hpid hstamp hstamp' heq
    · exact h.apart hfirst hsecond hlive₁ hlive₂ hpid hstamp hstamp' heq
  case renamed =>
    intro k id' path data hmem
    rw [hact.history] at hmem
    rcases getElem?_append_cases hmem with hold | ⟨hk, hnew⟩
    · obtain ⟨other, hother, hpath, hdata, hstage, hinvoked⟩ := h.renamed hold
      have hne : id' ≠ id := by
        rintro rfl
        cases hact.at'.symm.trans hother
        rw [hstage] at hlive
        cases hlive
      refine ⟨other, ?_, hpath, hdata, hstage, hinvoked⟩
      rw [hact.calls, Function.update_of_ne hne]
      exact hother
    · cases renamed with
      | false => cases hnew
      | true =>
        cases List.mem_singleton.mp hnew
        refine ⟨{ call with stage := stage }, ?_, rfl, rfl, hact.moves.returned.mpr rfl,
          (h.invoked hact.at').trans hk⟩
        rw [hact.calls, Function.update_self]
  case returned =>
    intro id' other hother hstage
    rw [hact.history]
    rcases hcases hother with ⟨rfl, heq⟩ | ⟨-, hold⟩
    · cases heq
      rw [if_pos (hact.moves.returned.mp hstage)]
      exact List.mem_append_right _ List.mem_cons_self
    · exact List.mem_append_left _ (h.returned hold hstage)
  case once =>
    rw [hact.history, List.filterMap_append]
    cases renamed with
    | false =>
      rw [if_neg (by simp), List.filterMap_nil, List.append_nil]
      exact h.once
    | true =>
      refine List.nodup_append.mpr ⟨h.once, List.nodup_singleton _, ?_⟩
      intro id' hid' id'' hid'' heq
      cases List.mem_singleton.mp hid''
      obtain ⟨change, hchange, hcall⟩ := List.mem_filterMap.mp hid'
      obtain ⟨k, hk⟩ := List.mem_iff_getElem?.mp hchange
      cases change with
      | edited => cases hcall
      | renamed id' path data =>
        cases hcall
        subst heq
        obtain ⟨other, hother, -, -, hstage, -⟩ := h.renamed hk
        cases hact.at'.symm.trans hother
        rw [hstage] at hlive
        cases hlive
  case invoked =>
    intro id' other hother
    rw [hact.history, List.length_append]
    rcases hcases hother with ⟨-, heq⟩ | ⟨-, hold⟩
    · cases heq
      exact (h.invoked hact.at').trans (Nat.le_add_right _ _)
    · exact (h.invoked hold).trans (Nat.le_add_right _ _)
  case litter =>
    intro path hpath hfile
    by_cases htemp : call.temp = some path
    · refine .inr ⟨id, { call with stage := stage }, ?_, htemp, fun hstage => ?_⟩
      · rw [hact.calls, Function.update_self]
      · exact hfile (hact.moves.own htemp (hact.moves.returned.mp hstage) htarget)
    · rw [hact.moves.beside htarget hpath htemp] at hfile
      rcases h.litter hpath hfile with hinitial | ⟨id', other, hother, htemp', hstage⟩
      · exact .inl hinitial
      · refine .inr ⟨id', other, ?_, htemp', hstage⟩
        rw [hact.calls, Function.update_of_ne]
        · exact hother
        · rintro rfl
          cases hact.at'.symm.trans hother
          exact htemp htemp'

/-- A call with a number that nobody has had. -/
theorem Inv.prepared (h : Inv initial s) {nowMs counter : Nat}
    (hprep : Prepared s t id call nowMs counter) : Inv initial t := by
  have hlive : call.stage.isLive = true := by rw [hprep.stage]; rfl
  have hcases {id' : Nat} {other : Call} (hother : t.calls id' = some other) :=
    some_of_update hprep.calls hother
  have hfresh {id' : Nat} {other : Call} {stamp : Stamp} (hother : s.calls id' = some other)
      (hlive' : other.stage.isLive = true) (hpid : other.pid = call.pid)
      (hstamp : other.stamp = some stamp) : stamp.counter < counter := by
    obtain ⟨counter', hcounter, hbelow⟩ := h.running hother hlive'
    rw [hpid, hprep.running] at hcounter
    cases hcounter
    exact hbelow stamp hstamp
  refine ⟨?files, ?targets, ?holds, ?running, ?apart, ?renamed, ?returned, ?once, ?invoked,
    ?litter⟩
  case files =>
    intro path hpath
    rw [hprep.files, hprep.history]
    exact h.files hpath
  case targets =>
    intro id' other hother
    rcases hcases hother with ⟨-, heq⟩ | ⟨-, hold⟩
    · cases heq
      have htarget := h.targets hprep.at'
      exact htarget
    · exact h.targets hold
  case holds =>
    intro id' other hother
    rw [hprep.files]
    rcases hcases hother with ⟨-, heq⟩ | ⟨-, hold⟩
    · cases heq
      trivial
    · exact h.holds hold
  case running =>
    intro id' other hother hlive'
    rw [hprep.counters]
    rcases hcases hother with ⟨-, heq⟩ | ⟨-, hold⟩
    · cases heq
      refine ⟨counter + 1, Function.update_self .., fun stamp hstamp => ?_⟩
      cases hstamp
      exact Nat.lt_succ_self counter
    · by_cases hpid : other.pid = call.pid
      · rw [hpid, Function.update_self]
        exact ⟨counter + 1, rfl, fun stamp hstamp =>
          Nat.lt_succ_of_lt (hfresh hold hlive' hpid hstamp)⟩
      · rw [Function.update_of_ne hpid]
        exact h.running hold hlive'
  case apart =>
    intro i j first second hfirst hsecond hlive₁ hlive₂ hpid stamp stamp' hstamp hstamp' heq
    rcases hcases hfirst with ⟨rfl, hfirst⟩ | ⟨-, hfirst⟩ <;>
      rcases hcases hsecond with ⟨rfl, hsecond⟩ | ⟨-, hsecond⟩
    · rfl
    · cases hfirst
      cases hstamp
      exact absurd heq (hfresh hsecond hlive₂ hpid.symm hstamp').ne'
    · cases hsecond
      cases hstamp'
      exact absurd heq (hfresh hfirst hlive₁ hpid hstamp).ne
    · exact h.apart hfirst hsecond hlive₁ hlive₂ hpid hstamp hstamp' heq
  case renamed =>
    intro k id' path data hmem
    rw [hprep.history] at hmem
    obtain ⟨other, hother, hpath, hdata, hstage, hinvoked⟩ := h.renamed hmem
    refine ⟨other, ?_, hpath, hdata, hstage, hinvoked⟩
    rw [hprep.calls, Function.update_of_ne]
    · exact hother
    · rintro rfl
      cases hprep.at'.symm.trans hother
      rw [hstage] at hlive
      cases hlive
  case returned =>
    intro id' other hother hstage
    rw [hprep.history]
    rcases hcases hother with ⟨-, heq⟩ | ⟨-, hold⟩
    · cases heq
      cases hstage
    · exact h.returned hold hstage
  case once =>
    rw [hprep.history]
    exact h.once
  case invoked =>
    intro id' other hother
    rw [hprep.history]
    rcases hcases hother with ⟨-, heq⟩ | ⟨-, hold⟩
    · cases heq
      have hinvoked := h.invoked hprep.at'
      exact hinvoked
    · exact h.invoked hold
  case litter =>
    intro path hpath hfile
    rw [hprep.files] at hfile
    rcases h.litter hpath hfile with hinitial | ⟨id', other, hother, htemp, hstage⟩
    · exact .inl hinitial
    · refine .inr ⟨id', other, ?_, htemp, hstage⟩
      rw [hprep.calls, Function.update_of_ne]
      · exact hother
      · rintro rfl
        cases hprep.at'.symm.trans hother
        have hnone := h.holds hprep.at'
        rw [hprep.stage] at hnone
        rw [Call.temp, hnone] at htemp
        cases htemp

theorem Inv.called (h : Inv initial s) {pid counter : Nat} {data : Bytes}
    (hfree : s.calls id = none) (hpid : s.counters pid = some counter)
    (htarget : isTemp path = false) :
    Inv initial (s.put id ⟨pid, path, data, s.history.length, none, .preparing⟩) := by
  have hcases {id' : Nat} {other : Call} (hother : (s.put id
      ⟨pid, path, data, s.history.length, none, .preparing⟩).calls id' = some other) :=
    some_of_update rfl hother
  have hkeep {id' : Nat} {other : Call} (hother : s.calls id' = some other) :
      (s.put id ⟨pid, path, data, s.history.length, none, .preparing⟩).calls id' = some other := by
    refine (Function.update_of_ne ?_ ..).trans hother
    rintro rfl
    cases hfree.symm.trans hother
  refine ⟨h.files, ?targets, ?holds, ?running, ?apart, ?renamed, ?returned, h.once, ?invoked,
    ?litter⟩
  case targets =>
    intro id' other hother
    rcases hcases hother with ⟨-, heq⟩ | ⟨-, hold⟩
    · cases heq
      exact htarget
    · exact h.targets hold
  case holds =>
    intro id' other hother
    rcases hcases hother with ⟨-, heq⟩ | ⟨-, hold⟩
    · cases heq
      rfl
    · exact h.holds hold
  case running =>
    intro id' other hother hlive
    rcases hcases hother with ⟨-, heq⟩ | ⟨-, hold⟩
    · cases heq
      exact ⟨counter, hpid, fun stamp hstamp => by cases hstamp⟩
    · exact h.running hold hlive
  case apart =>
    intro i j first second hfirst hsecond hlive₁ hlive₂ hpid stamp stamp' hstamp hstamp' heq
    rcases hcases hfirst with ⟨-, hfirst⟩ | ⟨-, hfirst⟩
    · cases hfirst
      cases hstamp
    · rcases hcases hsecond with ⟨-, hsecond⟩ | ⟨-, hsecond⟩
      · cases hsecond
        cases hstamp'
      · exact h.apart hfirst hsecond hlive₁ hlive₂ hpid hstamp hstamp' heq
  case renamed =>
    intro k id' path' data' hmem
    obtain ⟨other, hother, hrest⟩ := h.renamed hmem
    exact ⟨other, hkeep hother, hrest⟩
  case returned =>
    intro id' other hother hstage
    rcases hcases hother with ⟨-, heq⟩ | ⟨-, hold⟩
    · cases heq
      cases hstage
    · exact h.returned hold hstage
  case invoked =>
    intro id' other hother
    rcases hcases hother with ⟨-, heq⟩ | ⟨-, hold⟩
    · cases heq
      exact Nat.le_refl _
    · exact h.invoked hold
  case litter =>
    intro path' hpath hfile
    rcases h.litter hpath hfile with hinitial | ⟨id', other, hother, hrest⟩
    · exact .inl hinitial
    · exact .inr ⟨id', other, hkeep hother, hrest⟩

theorem Inv.spawned (h : Inv initial s) {pid : Nat} (hfree : s.counters pid = none) :
    Inv initial { s with counters := Function.update s.counters pid (some 0) } := by
  refine { h with running := ?_ }
  intro id call hcall hlive
  obtain ⟨counter, hcounter, hbelow⟩ := h.running hcall hlive
  refine ⟨counter, ?_, hbelow⟩
  refine (Function.update_of_ne ?_ ..).trans hcounter
  intro heq
  rw [heq, hfree] at hcounter
  cases hcounter

@[simp] theorem Call.lose_pid (pid : Nat) : (call.lose pid).pid = call.pid := by
  unfold Call.lose
  split <;> rfl

@[simp] theorem Call.lose_stamp (pid : Nat) : (call.lose pid).stamp = call.stamp := by
  unfold Call.lose
  split <;> rfl

@[simp] theorem Call.lose_path (pid : Nat) : (call.lose pid).path = call.path := by
  unfold Call.lose
  split <;> rfl

@[simp] theorem Call.lose_data (pid : Nat) : (call.lose pid).data = call.data := by
  unfold Call.lose
  split <;> rfl

@[simp] theorem Call.lose_invoked (pid : Nat) : (call.lose pid).invoked = call.invoked := by
  unfold Call.lose
  split <;> rfl

@[simp] theorem Call.lose_temp (pid : Nat) : (call.lose pid).temp = call.temp := by
  simp [Call.temp]

theorem Call.lose_of_live {pid : Nat} (h : (call.lose pid).stage.isLive = true) :
    call.pid ≠ pid ∧ call.lose pid = call := by
  unfold Call.lose at h ⊢
  split at h
  · cases h
  next hnot =>
    rw [if_neg hnot]
    exact ⟨fun hpid => hnot ⟨hpid, h⟩, rfl⟩

/-- A call that has ended is not lost. -/
theorem Call.lose_of_returned {pid : Nat} :
    (call.lose pid).stage = .returned true ↔ call.stage = .returned true := by
  unfold Call.lose
  split
  next h =>
    constructor
    · intro heq
      cases heq
    · intro heq
      rw [heq] at h
      cases h.2
  next => rfl

theorem Inv.crashed (h : Inv initial s) (pid : Nat) :
    Inv initial { s with
      counters := Function.update s.counters pid none
      calls := fun id => (s.calls id).map (Call.lose pid) } := by
  refine ⟨h.files, ?targets, ?holds, ?running, ?apart, ?renamed, ?returned, h.once, ?invoked,
    ?litter⟩
  case targets =>
    intro id other hother
    obtain ⟨call, hcall, rfl⟩ := Option.map_eq_some_iff.mp hother
    rw [Call.lose_path]
    exact h.targets hcall
  case holds =>
    intro id other hother
    obtain ⟨call, hcall, rfl⟩ := Option.map_eq_some_iff.mp hother
    unfold Call.lose
    split
    · trivial
    · exact h.holds hcall
  case running =>
    intro id other hother hlive
    obtain ⟨call, hcall, rfl⟩ := Option.map_eq_some_iff.mp hother
    obtain ⟨hpid, heq⟩ := Call.lose_of_live hlive
    rw [heq] at hlive ⊢
    obtain ⟨counter, hcounter, hbelow⟩ := h.running hcall hlive
    exact ⟨counter, (Function.update_of_ne hpid ..).trans hcounter, hbelow⟩
  case apart =>
    intro i j other other' hother hother' hlive hlive'
    obtain ⟨call, hcall, rfl⟩ := Option.map_eq_some_iff.mp hother
    obtain ⟨call', hcall', rfl⟩ := Option.map_eq_some_iff.mp hother'
    have heq := (Call.lose_of_live hlive).2
    have heq' := (Call.lose_of_live hlive').2
    rw [heq] at hlive ⊢
    rw [heq'] at hlive' ⊢
    exact h.apart hcall hcall' hlive hlive'
  case renamed =>
    intro k id path data hmem
    obtain ⟨call, hcall, hpath, hdata, hstage, hinvoked⟩ := h.renamed hmem
    refine ⟨call.lose pid, ?_, ?_, ?_, Call.lose_of_returned.mpr hstage, ?_⟩
    · simp [hcall]
    · simpa using hpath
    · simpa using hdata
    · simpa using hinvoked
  case returned =>
    intro id other hother hstage
    obtain ⟨call, hcall, rfl⟩ := Option.map_eq_some_iff.mp hother
    rw [Call.lose_path, Call.lose_data]
    exact h.returned hcall (Call.lose_of_returned.mp hstage)
  case invoked =>
    intro id other hother
    obtain ⟨call, hcall, rfl⟩ := Option.map_eq_some_iff.mp hother
    rw [Call.lose_invoked]
    exact h.invoked hcall
  case litter =>
    intro path hpath hfile
    rcases h.litter hpath hfile with hinitial | ⟨id, call, hcall, htemp, hstage⟩
    · exact .inl hinitial
    · refine .inr ⟨id, call.lose pid, by simp [hcall], by simpa using htemp, ?_⟩
      rwa [ne_eq, Call.lose_of_returned]

/-- A change of a file that is not temporary. -/
theorem Inv.edited (h : Inv initial s) {content : Option Bytes} (hpath : isTemp path = false) :
    Inv initial { s with
      files := Function.update s.files path content
      history := s.history ++ [.edited path content] } := by
  have hbeside {temp : Path} (htemp : isTemp temp = true) :
      Function.update s.files path content temp = s.files temp := by
    rw [Function.update_of_ne]
    rintro rfl
    rw [hpath] at htemp
    cases htemp
  refine ⟨?files, h.targets, ?holds, h.running, h.apart, ?renamed, ?returned, ?once, ?invoked,
    ?litter⟩
  case files =>
    intro path' hpath'
    rw [List.foldl_append]
    change Function.update s.files path content path' =
      Function.update (s.history.foldl replayed initial) path content path'
    by_cases heq : path' = path
    · rw [heq, Function.update_self, Function.update_self]
    · rw [Function.update_of_ne heq, Function.update_of_ne heq]
      exact h.files hpath'
  case holds =>
    intro id call hcall
    exact holds_of_agree (h.holds hcall) fun _ temp htemp => hbeside (isTemp_temp htemp)
  case renamed =>
    intro k id path' data hmem
    rcases getElem?_append_cases hmem with hold | ⟨-, hnew⟩
    · exact h.renamed hold
    · cases List.mem_singleton.mp hnew
  case returned =>
    intro id call hcall hstage
    exact List.mem_append_left _ (h.returned hcall hstage)
  case once =>
    rw [List.filterMap_append]
    exact (List.append_nil _).symm ▸ h.once
  case invoked =>
    intro id call hcall
    rw [List.length_append]
    exact (h.invoked hcall).trans (Nat.le_add_right _ _)
  case litter =>
    intro temp htemp hfile
    exact h.litter htemp fun hnone => hfile ((hbeside htemp).trans hnone)

theorem inv_step {e : Event} (h : Inv initial s) (hstep : Guarded (fun _ => Proper) Step s e t) :
    Inv initial t := by
  obtain ⟨hproper, hstep⟩ := hstep
  unfold Step at hstep
  cases e with
  | spawn pid =>
    rw [next] at hstep
    split at hstep
    · cases hstep
    next hfree =>
      cases hstep
      exact h.spawned hfree
  | crash pid =>
    obtain ⟨counter, -, rfl⟩ := Option.map_eq_some_iff.mp hstep
    exact h.crashed pid
  | call id pid path data =>
    rw [next] at hstep
    split at hstep
    next hfree hpid =>
      cases hstep
      exact h.called hfree hpid hproper
    · cases hstep
  | act id action =>
    obtain ⟨call, hcall, hstep⟩ := Option.bind_eq_some_iff.mp hstep
    rcases acted_of_act hcall hstep with ⟨nowMs, counter, hprep⟩ | ⟨stage, renamed, hact⟩
    · exact h.prepared hprep
    · exact h.acted hact
  | edit path content =>
    cases hstep
    exact h.edited hproper

end

/-! ## Runs -/

/-- A reader finds what was there at first or the whole data of a call, every call that returned well
has had its turn once and since it was made, and the other calls none. -/
structure Atomic (initial : Directory Path Bytes) (s : State) : Prop where
  files : ∀ path, isTemp path = false → s.files path = s.history.foldl replayed initial path
  turns : ∀ (k id : Nat) (path : Path) (data : Bytes),
    s.history[k]? = some (.renamed id path data) → ∃ call : Call, s.calls id = some call ∧
      call.path = path ∧ call.data = data ∧ call.stage = .returned true ∧ call.invoked ≤ k
  returned : ∀ (id : Nat) (call : Call), s.calls id = some call → call.stage = .returned true →
    .renamed id call.path call.data ∈ s.history
  once : (s.history.filterMap Change.call?).Nodup
  apart : ∀ (id id' : Nat) (call other : Call) (temp : Path), s.calls id = some call →
    s.calls id' = some other → call.stage.isLive = true → other.stage.isLive = true →
    call.temp = some temp → other.temp = some temp → id = id'
  attempts : ∀ (id : Nat) (call : Call) (attempt : Nat), s.calls id = some call →
    call.stage = .moving attempt → attempt < renameMaxAttempts
  litter : ∀ path, isTemp path = true → s.files path ≠ none → initial path ≠ none ∨
    ∃ id call, s.calls id = some call ∧ call.temp = some path ∧ call.stage ≠ .returned true

section

variable {initial : Directory Path Bytes} {s : State} {es : List Event}

end

def target : Path := "a.json".toList

/-- The second writer crashes half-way, and a rename of the first is tried again. -/
def overlapping : List Event := [
  .spawn 1, .spawn 2, .call 0 1 target [1, 2], .call 1 2 target [3], .act 1 (.prepares 7),
  .act 0 (.prepares 7), .act 0 .opens, .act 1 .opens, .act 0 (.puts 1), .crash 2, .act 0 (.puts 1),
  .act 0 .closes, .act 0 (.fails true), .edit target (some [9]), .act 0 .renames]

end Climon.Store.AtomicWrite
