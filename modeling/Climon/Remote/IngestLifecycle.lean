import Climon.Cli.Args
import Climon.Lib.DecimalText
import Climon.Lib.JsonValue
import Climon.Lib.Transition
import Climon.Lib.Words

namespace Climon.Remote.IngestLifecycle

open Climon.Cli.Args (digit_not_whitespace isWhitespace)
open Climon.Lib.DecimalText Climon.Lib.JsonValue Climon.Lib.Transition Climon.Lib.Words

/-!
# The life of an ingest daemon

A lock of the operating system says which process is the ingest; the files beside it only tell
others. A running ingest steps down when it finds a request to in its home.
-/

/-! ## Shutdown requests -/

structure ShutdownRequest where
  requestedBy : String
  ts : Int
  deriving DecidableEq

def pidText (pid : UInt32) : List Char := pid.toNat.repr.toList ++ ['\n']

def readPid (content : List Char) : Option UInt32 := parseU32 (trim isWhitespace content)

/-- Only told to whoever is refused. -/
def readHolderPid (pidFile : Option (List Char)) : Option UInt32 :=
  (pidFile.bind readPid).filter (0 < ·)

inductive File where
  | state
  | pid
  | request
  deriving DecidableEq

/-- The files that `remove_beacons` removes, the status and the server's apart. -/
def beacons : List File := [.state, .pid, .request]

inductive Exit where
  | stopped
  | demoted
  deriving DecidableEq

/-- From `locked` to `releasing` a daemon holds the lock; the last three steps before it lets go are
those of the guard's `drop`. -/
inductive Phase where
  | refused (holder : Option UInt32)
  | locked
  | setup
  | watching
  | running
  | removing (left : List File)
  | checking
  | unlinking
  | releasing
  | gone
  deriving DecidableEq

def Phase.holds : Phase → Bool
  | .refused _ | .gone => false
  | _ => true

/-- `pending` is a request that has been read and not been consumed yet. -/
structure Watcher where
  done : Bool
  pending : Option (Nat × String)

/-- `named` says that the pidfile was written; `since` is how many requests had been made when the
watcher was started. -/
structure Ingest where
  pid : UInt32
  phase : Phase
  named : Bool
  watcher : Option Watcher
  notified : Bool
  exit : Option Exit
  since : Nat

/-- Whose beacon it is. -/
inductive Beacon where
  | leftover
  | of (id : Nat)
  deriving DecidableEq

/-- `puts` numbers the requests, `unlinked` are the files that others have removed since they were
written, and `acted` tells which daemon was notified of which request. -/
structure State where
  lock : Option Nat
  pidFile : Option (List Char)
  stateFile : Option Beacon
  request : Option (Nat × String)
  ingests : Nat → Option Ingest
  puts : Nat
  unlinked : List File
  acted : List (Nat × Nat)

/-- Whatever an earlier run has left behind. -/
def init (pidFile : Option (List Char)) (stateFile : Option Beacon) (request : Option String) :
    State :=
  ⟨none, pidFile, stateFile, request.map fun raw => (0, raw), fun _ => none, 1, [], []⟩

inductive WriteOutcome where
  | written
  /-- The file has been truncated. -/
  | torn
  | failed
  deriving DecidableEq

inductive Event where
  /-- A process asks for the lock; `opens` says whether it can open the lock file. -/
  | launch (id : Nat) (pid : UInt32) (opens : Bool)
  | writePid (id : Nat) (outcome : WriteOutcome)
  /-- A step of the setup fails, and the daemon returns an error. -/
  | fail (id : Nat)
  /-- The watcher starts and removes what it finds. -/
  | watch (id : Nat) (cleared : Bool)
  | announce (id : Nat) (ok : Bool)
  | poll (id : Nat)
  | consume (id : Nat) (removed : Bool)
  | stop (id : Nat)
  | demote (id : Nat)
  | remove (id : Nat) (ok : Bool)
  | close (id : Nat)
  | check (id : Nat) (readable : Bool)
  | unlink (id : Nat) (ok : Bool)
  | release (id : Nat)
  | crash (id : Nat)
  /-- Somebody asks the ingest of this home to step down. -/
  | put (raw : String)
  /-- Another program removes a file. -/
  | lose (file : File)
  deriving DecidableEq

def State.put (s : State) (id : Nat) (ingest : Ingest) : State :=
  { s with ingests := Function.update s.ingests id (some ingest) }

def State.goTo (s : State) (id : Nat) (ingest : Ingest) (phase : Phase) : State :=
  s.put id { ingest with phase := phase }

/-- A file is gone. -/
def State.without (s : State) : File → State
  | .state => { s with stateFile := none }
  | .pid => { s with pidFile := none }
  | .request => { s with request := none }

/-- What the others do with the lock. -/
def afterCrash (id : Nat) (lock : Option Nat) : Option Nat := if lock = some id then none else lock

section Step

variable (parse : String → Option ShutdownRequest)

def next (s : State) : Event → Option State
  | .launch id pid opens =>
    match s.ingests id with
    | some _ => none
    | none =>
      if opens = true ∧ s.lock = none then
        some ({ s with lock := some id }.put id ⟨pid, .locked, false, none, false, none, 0⟩)
      else
        some (s.put id ⟨pid, .refused (readHolderPid s.pidFile), false, none, false, none, 0⟩)
  | .put raw => some { s with request := some (s.puts, raw), puts := s.puts + 1 }
  | .lose file => some { s.without file with unlinked := file :: s.unlinked }
  | .writePid id outcome =>
    (s.ingests id).bind fun ingest =>
      if ingest.phase ≠ .locked then none
      else
        match outcome with
        | .written =>
          some ({ s with
            pidFile := some (pidText ingest.pid)
            unlinked := s.unlinked.filter (· ≠ File.pid) }.put id
            { ingest with phase := .setup, named := true })
        | .torn => some ({ s with pidFile := some [] }.goTo id ingest .setup)
        | .failed => some (s.goTo id ingest .setup)
  | .fail id =>
    (s.ingests id).bind fun ingest =>
      if ingest.phase ≠ .setup then none else some (s.goTo id ingest .checking)
  | .watch id cleared =>
    (s.ingests id).bind fun ingest =>
      if ingest.phase ≠ .setup then none
      else
        some ({ s with request := if cleared then none else s.request }.put id
          { ingest with phase := .watching, watcher := some ⟨false, none⟩, since := s.puts })
  | .announce id ok =>
    (s.ingests id).bind fun ingest =>
      if ingest.phase ≠ .watching then none
      else if ok then
        some ({ s with
          stateFile := some (.of id)
          unlinked := s.unlinked.filter (· ≠ File.state) }.goTo id ingest .running)
      else some (s.put id { ingest with phase := .checking, watcher := none })
  | .poll id =>
    (s.ingests id).bind fun ingest =>
      match ingest.watcher, s.request with
      | some ⟨false, none⟩, some request =>
        some (s.put id { ingest with watcher := some ⟨false, some request⟩ })
      | _, _ => none
  | .consume id removed =>
    (s.ingests id).bind fun ingest =>
      match ingest.watcher with
      | some ⟨done, some (n, raw)⟩ =>
        let s := { s with request := if removed then none else s.request }
        match parse raw with
        | none => some (s.put id { ingest with watcher := some ⟨done, none⟩ })
        | some _ =>
          some ({ s with acted := s.acted ++ [(id, n)] }.put id
            { ingest with watcher := some ⟨true, none⟩, notified := true })
      | _ => none
  | .stop id =>
    (s.ingests id).bind fun ingest =>
      if ingest.phase ≠ .running then none
      else some (s.put id { ingest with phase := .removing beacons, exit := some .stopped })
  | .demote id =>
    (s.ingests id).bind fun ingest =>
      if ingest.phase ≠ .running ∨ ingest.notified = false then none
      else some (s.put id { ingest with phase := .removing beacons, exit := some .demoted })
  | .remove id ok =>
    (s.ingests id).bind fun ingest =>
      match ingest.phase with
      | .removing (file :: left) =>
        some ((if ok then s.without file else s).goTo id ingest (.removing left))
      | _ => none
  | .close id =>
    (s.ingests id).bind fun ingest =>
      match ingest.phase with
      | .removing [] => some (s.put id { ingest with phase := .checking, watcher := none })
      | _ => none
  | .check id readable =>
    (s.ingests id).bind fun ingest =>
      if ingest.phase ≠ .checking then none
      else if readable = true ∧ s.pidFile.bind readPid = some ingest.pid then
        some (s.goTo id ingest .unlinking)
      else some (s.goTo id ingest .releasing)
  | .unlink id ok =>
    (s.ingests id).bind fun ingest =>
      if ingest.phase ≠ .unlinking then none
      else some ((if ok then s.without .pid else s).goTo id ingest .releasing)
  | .release id =>
    (s.ingests id).bind fun ingest =>
      if ingest.phase ≠ .releasing then none
      else some ({ s with lock := none }.goTo id ingest .gone)
  | .crash id =>
    (s.ingests id).bind fun ingest =>
      if ingest.phase.holds = false then none
      else
        some ({ s with lock := afterCrash id s.lock }.put id
          { ingest with phase := .gone, watcher := none })

def Step (s : State) (e : Event) (t : State) : Prop := next parse s e = some t

end Step

/-- A watcher that starts can remove what it finds. -/
def Clears (s : State) : Event → Prop
  | .watch _ cleared => cleared = true ∨ s.request = none
  | _ => True

/-! ## The pidfile -/

/-- A daemon that has its pid on record, if it could write it. -/
def Phase.serves : Phase → Bool
  | .setup | .watching | .running => true
  | _ => false

def Phase.early : Phase → Bool
  | .locked | .setup => true
  | _ => false

def Phase.watches : Phase → Bool
  | .watching | .running | .removing _ => true
  | _ => false

/-- What is so of the daemon that holds the lock. -/
structure Held (s : State) (id : Nat) (ingest : Ingest) : Prop where
  pid : ingest.named = true → ingest.phase.serves = true →
    s.pidFile = some (pidText ingest.pid) ∨ .pid ∈ s.unlinked
  state : ingest.phase = .running → s.stateFile = some (.of id) ∨ .state ∈ s.unlinked
  unnamed : ingest.phase = .locked → ingest.named = false
  fresh : ingest.phase.early = true → id ∉ s.acted.map (·.1)
  quiet : ingest.phase.watches = false → ingest.watcher = none
  since : ∀ {watcher}, ingest.watcher = some watcher → ingest.since ≤ s.puts
  pending : ∀ {done n raw}, ingest.watcher = some ⟨done, some (n, raw)⟩ →
    done = false ∧ ingest.since ≤ n ∧ n < s.puts
  request : ∀ {watcher n raw}, ingest.watcher = some watcher → s.request = some (n, raw) →
    ingest.since ≤ n
  before : ∀ {pending}, ingest.watcher = some ⟨false, pending⟩ →
    ∀ entry ∈ s.acted, entry.2 < ingest.since

structure Inv (s : State) : Prop where
  holder : ∀ {id}, s.lock = some id →
    ∃ ingest, s.ingests id = some ingest ∧ ingest.phase.holds = true
  alone : ∀ {id : Nat} {ingest : Ingest}, s.ingests id = some ingest →
    ingest.phase.holds = true → s.lock = some id
  idle : ∀ {id : Nat} {ingest : Ingest}, s.ingests id = some ingest →
    ingest.phase.holds = false → ingest.watcher = none
  held : ∀ {id : Nat} {ingest : Ingest}, s.ingests id = some ingest →
    ingest.phase.holds = true → Held s id ingest
  request : ∀ {n raw}, s.request = some (n, raw) → n < s.puts
  acted : ∀ {id n}, (id, n) ∈ s.acted →
    n < s.puts ∧ ∃ ingest, s.ingests id = some ingest ∧ ingest.since ≤ n
  once : (s.acted.map (·.1)).Nodup
  order : (s.acted.map (·.2)).Pairwise (· < ·)
  notified : ∀ {id : Nat} {ingest : Ingest}, s.ingests id = some ingest →
    ingest.notified = true ∨ ingest.exit = some .demoted → id ∈ s.acted.map (·.1)

section

variable {s t : State} {id : Nat} {ingest ingest' other : Ingest}

theorem inv_init (pidFile : Option (List Char)) (stateFile : Option Beacon)
    (request : Option String) : Inv (init pidFile stateFile request) where
  holder h := by cases h
  alone h := by cases h
  idle h := by cases h
  held h := by cases h
  request h := by
    obtain ⟨raw, -, heq⟩ := Option.map_eq_some_iff.mp h
    cases heq
    exact Nat.one_pos
  acted h := by cases h
  once := .nil
  order := .nil
  notified h := by cases h

/-- A daemon goes on, and keeps the lock if it has it. -/
structure Kept (s t : State) (id : Nat) (ingest' : Ingest) : Prop where
  lock : t.lock = s.lock
  ingests : t.ingests = Function.update s.ingests id (some ingest')
  puts : t.puts = s.puts
  acted : t.acted = s.acted
  request : ∀ {n raw}, t.request = some (n, raw) → s.request = some (n, raw)

theorem Inv.eq_of_holds (h : Inv s) {id' : Nat} (hid : s.ingests id = some ingest)
    (hother : s.ingests id' = some other) (hholds : ingest.phase.holds = true)
    (hholds' : other.phase.holds = true) : id = id' :=
  Option.some.inj ((h.alone hid hholds).symm.trans (h.alone hother hholds'))

theorem Inv.kept (h : Inv s) (hid : s.ingests id = some ingest)
    (hholds : ingest.phase.holds = true) (hkept : Kept s t id ingest')
    (hholds' : ingest'.phase.holds = true)
    (hsince : ingest'.since = ingest.since ∨ id ∉ s.acted.map (·.1))
    (hnotified : ingest'.notified = true ∨ ingest'.exit = some .demoted → id ∈ s.acted.map (·.1))
    (hheld : Held t id ingest') : Inv t := by
  have hcases {id' : Nat} {other : Ingest} (hother : t.ingests id' = some other) :=
    some_of_update hkept.ingests hother
  have hlock := h.alone hid hholds
  refine ⟨?holder, ?alone, ?idle, ?held, ?request, ?acted, ?once, ?order, ?notified⟩
  case holder =>
    intro id' hid'
    rw [hkept.lock, hlock] at hid'
    cases hid'
    exact ⟨ingest', by rw [hkept.ingests, Function.update_self], hholds'⟩
  case alone =>
    intro id' other hother hholds''
    rw [hkept.lock]
    rcases hcases hother with ⟨rfl, -⟩ | ⟨-, hold⟩
    · exact hlock
    · exact h.alone hold hholds''
  case idle =>
    intro id' other hother hidle
    rcases hcases hother with ⟨-, heq⟩ | ⟨-, hold⟩
    · cases heq
      rw [hholds'] at hidle
      cases hidle
    · exact h.idle hold hidle
  case held =>
    intro id' other hother hholds''
    rcases hcases hother with ⟨rfl, heq⟩ | ⟨hne, hold⟩
    · cases heq
      exact hheld
    · exact absurd (h.eq_of_holds hold hid hholds'' hholds) hne
  case request =>
    intro n raw hrequest
    rw [hkept.puts]
    exact h.request (hkept.request hrequest)
  case acted =>
    intro id' n hmem
    rw [hkept.acted] at hmem
    obtain ⟨hn, other, hother, hle⟩ := h.acted hmem
    rw [hkept.puts, hkept.ingests]
    refine ⟨hn, ?_⟩
    by_cases hne : id' = id
    · subst hne
      cases hid.symm.trans hother
      refine ⟨ingest', Function.update_self .., ?_⟩
      rcases hsince with heq | hfresh
      · rwa [heq]
      · exact absurd (List.mem_map_of_mem hmem) hfresh
    · exact ⟨other, by rwa [Function.update_of_ne hne], hle⟩
  case once =>
    rw [hkept.acted]
    exact h.once
  case order =>
    rw [hkept.acted]
    exact h.order
  case notified =>
    intro id' other hother hdone
    rw [hkept.acted]
    rcases hcases hother with ⟨rfl, heq⟩ | ⟨-, hold⟩
    · cases heq
      exact hnotified hdone
    · exact h.notified hold hdone

/-- What a watcher knows does not change while it waits. -/
theorem Held.kept (h : Held s id ingest) (hkept : Kept s t id ingest')
    (hwatcher : ∀ watcher, ingest'.watcher = some watcher → ingest.watcher = some watcher)
    (hsince : ingest'.since = ingest.since)
    (hpid : ingest'.named = true → ingest'.phase.serves = true →
      t.pidFile = some (pidText ingest'.pid) ∨ .pid ∈ t.unlinked)
    (hstate : ingest'.phase = .running → t.stateFile = some (.of id) ∨ .state ∈ t.unlinked)
    (hlocked : ingest'.phase ≠ .locked)
    (hearly : ingest'.phase.early = true → ingest.phase.early = true)
    (hquiet : ingest'.phase.watches = false → ingest'.watcher = none) : Held t id ingest' where
  pid := hpid
  state := hstate
  unnamed hphase := absurd hphase hlocked
  fresh hphase := by
    rw [hkept.acted]
    exact h.fresh (hearly hphase)
  quiet := hquiet
  since hw := by
    rw [hsince, hkept.puts]
    exact h.since (hwatcher _ hw)
  pending hw := by
    rw [hsince, hkept.puts]
    exact h.pending (hwatcher _ hw)
  request hw hrequest := by
    rw [hsince]
    exact h.request (hwatcher _ hw) (hkept.request hrequest)
  before hw := by
    rw [hsince, hkept.acted]
    exact h.before (hwatcher _ hw)

/-- From one step of the guard's `drop`, or of the error path, to the next. -/
theorem Inv.moved (h : Inv s) (hid : s.ingests id = some ingest)
    (hholds : ingest.phase.holds = true) (hkept : Kept s t id ingest')
    (hholds' : ingest'.phase.holds = true)
    (hwatcher : ∀ watcher, ingest'.watcher = some watcher → ingest.watcher = some watcher)
    (hsince : ingest'.since = ingest.since)
    (hnotified : ingest'.notified = true ∨ ingest'.exit = some .demoted → id ∈ s.acted.map (·.1))
    (hserves : ingest'.phase.serves = false) (hlocked : ingest'.phase ≠ .locked)
    (hquiet : ingest'.phase.watches = false → ingest'.watcher = none) : Inv t := by
  refine h.kept hid hholds hkept hholds' (.inl hsince) hnotified ?_
  refine (h.held hid hholds).kept hkept hwatcher hsince ?_ ?_ hlocked ?_ hquiet
  · intro _ hphase
    rw [hserves] at hphase
    cases hphase
  · intro hphase
    rw [hphase] at hserves
    cases hserves
  · intro hphase
    cases hp : ingest'.phase <;> rw [hp] at hphase hserves hlocked <;>
      simp_all [Phase.early, Phase.serves]

theorem without_same (file : File) : (s.without file).lock = s.lock ∧
    (s.without file).ingests = s.ingests ∧ (s.without file).puts = s.puts ∧
    (s.without file).acted = s.acted := by
  cases file <;> exact ⟨rfl, rfl, rfl, rfl⟩

theorem without_request {n : Nat} {raw : String} (file : File)
    (h : (s.without file).request = some (n, raw)) : s.request = some (n, raw) := by
  cases file with
  | request => cases h
  | _ => exact h

theorem Inv.wrotePid (h : Inv s) (hid : s.ingests id = some ingest)
    (hphase : ingest.phase = .locked) {pidFile : Option (List Char)} {unlinked : List File}
    {named : Bool} (hnamed : named = true → pidFile = some (pidText ingest.pid)) :
    Inv ({ s with pidFile := pidFile, unlinked := unlinked }.put id
      { ingest with phase := .setup, named := named }) := by
  have hholds : ingest.phase.holds = true := by rw [hphase]; rfl
  have hheld := h.held hid hholds
  have hnone : ingest.watcher = none := hheld.quiet (by rw [hphase]; rfl)
  have hnotified := h.notified hid
  have hkept : Kept s ({ s with pidFile := pidFile, unlinked := unlinked }.put id
      { ingest with phase := .setup, named := named }) id
      { ingest with phase := .setup, named := named } := ⟨rfl, rfl, rfl, rfl, fun h => h⟩
  refine h.kept hid hholds hkept rfl (.inl rfl) hnotified ?_
  refine hheld.kept hkept (fun _ hw => hw) rfl ?_ ?_ ?_ ?_ ?_
  · intro hwritten _
    exact .inl (hnamed hwritten)
  · intro hrunning
    cases hrunning
  · intro hlocked
    cases hlocked
  · intro _
    rw [hphase]
    rfl
  · intro _
    exact hnone

theorem Inv.watched (h : Inv s) (hid : s.ingests id = some ingest) (hphase : ingest.phase = .setup)
    {request : Option (Nat × String)} (hrequest : request = none) :
    Inv ({ s with request := request }.put id
      { ingest with phase := .watching, watcher := some ⟨false, none⟩, since := s.puts }) := by
  subst hrequest
  have hholds : ingest.phase.holds = true := by rw [hphase]; rfl
  have hheld := h.held hid hholds
  have hfresh := hheld.fresh (by rw [hphase]; rfl)
  have hnotified := h.notified hid
  have hkept : Kept s ({ s with request := none }.put id
      { ingest with phase := .watching, watcher := some ⟨false, none⟩, since := s.puts }) id
      { ingest with phase := .watching, watcher := some ⟨false, none⟩, since := s.puts } :=
    ⟨rfl, rfl, rfl, rfl, fun h => by cases h⟩
  refine h.kept hid hholds hkept rfl (.inr hfresh) hnotified ?_
  refine ⟨?_, ?_, ?_, ?_, ?_, ?_, ?_, ?_, ?_⟩
  · intro hnamed _
    exact hheld.pid hnamed (by rw [hphase]; rfl)
  · intro hrunning
    cases hrunning
  · intro hlocked
    cases hlocked
  · intro hearly
    cases hearly
  · intro hquiet
    cases hquiet
  · intro watcher _
    exact Nat.le_refl _
  · intro done n raw hw
    cases hw
  · intro watcher n raw _ hnone
    cases hnone
  · intro pending _ entry hentry
    exact (h.acted hentry).1

theorem Inv.announced (h : Inv s) (hid : s.ingests id = some ingest)
    (hphase : ingest.phase = .watching) :
    Inv ({ s with
      stateFile := some (.of id)
      unlinked := s.unlinked.filter (· ≠ File.state) }.goTo id ingest .running) := by
  have hholds : ingest.phase.holds = true := by rw [hphase]; rfl
  have hheld := h.held hid hholds
  have hnotified := h.notified hid
  have hkept : Kept s ({ s with
      stateFile := some (.of id)
      unlinked := s.unlinked.filter (· ≠ File.state) }.goTo id ingest .running) id
      { ingest with phase := .running } := ⟨rfl, rfl, rfl, rfl, fun h => h⟩
  refine h.kept hid hholds hkept rfl (.inl rfl) hnotified ?_
  refine hheld.kept hkept (fun _ hw => hw) rfl ?_ ?_ ?_ ?_ ?_
  · intro hnamed _
    rcases hheld.pid hnamed (by rw [hphase]; rfl) with hfile | hlost
    · exact .inl hfile
    · exact .inr (List.mem_filter.mpr ⟨hlost, by decide⟩)
  · intro _
    exact .inl rfl
  · intro hlocked
    cases hlocked
  · intro hearly
    cases hearly
  · intro hquiet
    cases hquiet

theorem holds_of_watcher (h : Inv s) (hid : s.ingests id = some ingest) {watcher : Watcher}
    (hwatcher : ingest.watcher = some watcher) :
    ingest.phase.holds = true ∧ ingest.phase.watches = true := by
  have hholds : ingest.phase.holds = true := by
    cases hphase : ingest.phase.holds with
    | true => rfl
    | false =>
      rw [h.idle hid hphase] at hwatcher
      cases hwatcher
  refine ⟨hholds, ?_⟩
  cases hwatches : ingest.phase.watches with
  | true => rfl
  | false =>
    rw [(h.held hid hholds).quiet hwatches] at hwatcher
    cases hwatcher

theorem early_of_watches (h : ingest.phase.watches = true) :
    ingest.phase.early = false ∧ ingest.phase ≠ .locked := by
  cases hphase : ingest.phase <;> rw [hphase] at h <;> simp_all [Phase.early, Phase.watches]

theorem Inv.polled (h : Inv s) (hid : s.ingests id = some ingest)
    (hwatcher : ingest.watcher = some ⟨false, none⟩) {request : Nat × String}
    (hrequest : s.request = some request) :
    Inv (s.put id { ingest with watcher := some ⟨false, some request⟩ }) := by
  obtain ⟨hholds, hwatches⟩ := holds_of_watcher h hid hwatcher
  obtain ⟨hearly, hlocked⟩ := early_of_watches hwatches
  have hheld := h.held hid hholds
  have hnotified := h.notified hid
  have hkept : Kept s (s.put id { ingest with watcher := some ⟨false, some request⟩ }) id
      { ingest with watcher := some ⟨false, some request⟩ } := ⟨rfl, rfl, rfl, rfl, fun h => h⟩
  refine h.kept hid hholds hkept hholds (.inl rfl) hnotified ?_
  refine ⟨hheld.pid, hheld.state, hheld.unnamed, hheld.fresh, ?_, ?_, ?_, ?_, ?_⟩
  · intro hquiet
    cases hwatches.symm.trans hquiet
  · intro watcher _
    exact hheld.since hwatcher
  · intro done n raw hw
    cases hw
    exact ⟨rfl, hheld.request hwatcher hrequest, h.request hrequest⟩
  · intro watcher n raw _ hrequest'
    exact hheld.request hwatcher hrequest'
  · intro pending _
    exact hheld.before hwatcher

/-- A request that is not one is dropped. -/
theorem Inv.dropped (h : Inv s) (hid : s.ingests id = some ingest) {done : Bool} {n : Nat}
    {raw : String} (hwatcher : ingest.watcher = some ⟨done, some (n, raw)⟩) (removed : Bool) :
    Inv ({ s with request := if removed then none else s.request }.put id
      { ingest with watcher := some ⟨done, none⟩ }) := by
  obtain ⟨hholds, hwatches⟩ := holds_of_watcher h hid hwatcher
  have hheld := h.held hid hholds
  have hsub {n : Nat} {raw : String}
      (hrequest : (if removed then none else s.request) = some (n, raw)) :
      s.request = some (n, raw) := by
    cases removed with
    | true => cases hrequest
    | false => exact hrequest
  have hnotified := h.notified hid
  have hkept : Kept s ({ s with request := if removed then none else s.request }.put id
      { ingest with watcher := some ⟨done, none⟩ }) id
      { ingest with watcher := some ⟨done, none⟩ } := ⟨rfl, rfl, rfl, rfl, hsub⟩
  refine h.kept hid hholds hkept hholds (.inl rfl) hnotified ?_
  refine ⟨hheld.pid, hheld.state, hheld.unnamed, hheld.fresh, ?_, ?_, ?_, ?_, ?_⟩
  · intro hquiet
    cases hwatches.symm.trans hquiet
  · intro watcher _
    exact hheld.since hwatcher
  · intro done' n' raw' hw
    cases hw
  · intro watcher n' raw' _ hrequest
    exact hheld.request hwatcher (hsub hrequest)
  · intro pending hw
    cases hw
    exact hheld.before hwatcher

/-- A request is consumed before it is acted on. -/
theorem Inv.consumed (h : Inv s) (hid : s.ingests id = some ingest) {done : Bool} {n : Nat}
    {raw : String} (hwatcher : ingest.watcher = some ⟨done, some (n, raw)⟩) (removed : Bool) :
    Inv ({ s with
      request := if removed then none else s.request
      acted := s.acted ++ [(id, n)] }.put id
      { ingest with watcher := some ⟨true, none⟩, notified := true }) := by
  obtain ⟨hholds, hwatches⟩ := holds_of_watcher h hid hwatcher
  obtain ⟨hearly, hlocked⟩ := early_of_watches hwatches
  have hheld := h.held hid hholds
  obtain ⟨rfl, hsince, hputs⟩ := hheld.pending hwatcher
  have hbefore := hheld.before hwatcher
  have hlock := h.alone hid hholds
  have hfresh : id ∉ s.acted.map (·.1) := by
    intro hmem
    obtain ⟨⟨id', m⟩, hentry, heq⟩ := List.mem_map.mp hmem
    cases heq
    obtain ⟨-, other, hother, hle⟩ := h.acted hentry
    cases hid.symm.trans hother
    exact absurd hle (Nat.not_le_of_lt (hbefore _ hentry))
  have hsub {n : Nat} {raw : String}
      (hrequest : (if removed then none else s.request) = some (n, raw)) :
      s.request = some (n, raw) := by
    cases removed with
    | true => cases hrequest
    | false => exact hrequest
  have hcases {id' : Nat} {other : Ingest} (hother : Function.update s.ingests id (some
      { ingest with watcher := some ⟨true, none⟩, notified := true }) id' = some other) :=
    some_of_update rfl hother
  refine ⟨?holder, ?alone, ?idle, ?held, ?request, ?acted, ?once, ?order, ?notified⟩
  case holder =>
    intro id' hid'
    cases hlock.symm.trans hid'
    exact ⟨_, Function.update_self .., hholds⟩
  case alone =>
    intro id' other hother hholds'
    rcases hcases hother with ⟨rfl, -⟩ | ⟨-, hold⟩
    · exact hlock
    · exact h.alone hold hholds'
  case idle =>
    intro id' other hother hidle
    rcases hcases hother with ⟨-, heq⟩ | ⟨-, hold⟩
    · cases heq
      cases hholds.symm.trans hidle
    · exact h.idle hold hidle
  case held =>
    intro id' other hother hholds'
    rcases hcases hother with ⟨rfl, heq⟩ | ⟨hne, hold⟩
    · cases heq
      refine ⟨hheld.pid, hheld.state, hheld.unnamed, ?_, ?_, ?_, ?_, ?_, ?_⟩
      · intro hphase
        cases hearly.symm.trans hphase
      · intro hquiet
        cases hwatches.symm.trans hquiet
      · intro watcher _
        exact hheld.since hwatcher
      · intro done' n' raw' hw
        cases hw
      · intro watcher n' raw' _ hrequest
        exact hheld.request hwatcher (hsub hrequest)
      · intro pending hw
        cases hw
    · exact absurd (h.eq_of_holds hold hid hholds' hholds) hne
  case request =>
    intro n' raw' hrequest
    exact h.request (hsub hrequest)
  case acted =>
    intro id' n' hmem
    rcases List.mem_append.mp hmem with hold | hnew
    · obtain ⟨hn, other, hother, hle⟩ := h.acted hold
      refine ⟨hn, ?_⟩
      by_cases hne : id' = id
      · subst hne
        exact absurd (List.mem_map_of_mem hold) hfresh
      · exact ⟨other, (Function.update_of_ne hne ..).trans hother, hle⟩
    · cases List.mem_singleton.mp hnew
      exact ⟨hputs, _, Function.update_self .., hsince⟩
  case once =>
    change ((s.acted ++ [(id, n)]).map (·.1)).Nodup
    rw [List.map_append]
    refine List.nodup_append.mpr ⟨h.once, List.nodup_singleton _, ?_⟩
    rintro id' hid' id'' hid'' rfl
    cases List.mem_singleton.mp hid''
    exact hfresh hid'
  case order =>
    change ((s.acted ++ [(id, n)]).map (·.2)).Pairwise (· < ·)
    rw [List.map_append]
    refine List.pairwise_append.mpr ⟨h.order, List.pairwise_singleton _ _, ?_⟩
    intro m hm m' hm'
    cases List.mem_singleton.mp hm'
    obtain ⟨entry, hentry, rfl⟩ := List.mem_map.mp hm
    exact (hbefore entry hentry).trans_le hsince
  case notified =>
    intro id' other hother hdone
    change id' ∈ (s.acted ++ [(id, n)]).map (·.1)
    rw [List.map_append]
    rcases hcases hother with ⟨rfl, -⟩ | ⟨-, hold⟩
    · exact List.mem_append_right _ List.mem_cons_self
    · exact List.mem_append_left _ (h.notified hold hdone)

/-- What has been acted on stays so when a daemon that has acted on nothing is added. -/
theorem Inv.acted_of_free (h : Inv s) (hfree : s.ingests id = none) {id' n : Nat}
    (hmem : (id', n) ∈ s.acted) : n < s.puts ∧
      ∃ other, Function.update s.ingests id (some ingest) id' = some other ∧ other.since ≤ n := by
  obtain ⟨hn, other, hother, hle⟩ := h.acted hmem
  refine ⟨hn, other, ?_, hle⟩
  rw [Function.update_of_ne]
  · exact hother
  · rintro rfl
    cases hfree.symm.trans hother

theorem Inv.refused (h : Inv s) (hfree : s.ingests id = none) (pid : UInt32)
    (holder : Option UInt32) :
    Inv (s.put id ⟨pid, .refused holder, false, none, false, none, 0⟩) := by
  have hcases {id' : Nat} {other : Ingest} (hother : Function.update s.ingests id (some
      ⟨pid, .refused holder, false, none, false, none, 0⟩) id' = some other) :=
    some_of_update rfl hother
  refine ⟨?holder, ?alone, ?idle, ?held, h.request, h.acted_of_free hfree, h.once, h.order,
    ?notified⟩
  case holder =>
    intro id' hid'
    obtain ⟨other, hother, hholds⟩ := h.holder hid'
    refine ⟨other, ?_, hholds⟩
    refine (Function.update_of_ne ?_ ..).trans hother
    rintro rfl
    cases hfree.symm.trans hother
  case alone =>
    intro id' other hother hholds
    rcases hcases hother with ⟨-, heq⟩ | ⟨-, hold⟩
    · cases heq
      cases hholds
    · exact h.alone hold hholds
  case idle =>
    intro id' other hother hidle
    rcases hcases hother with ⟨-, heq⟩ | ⟨-, hold⟩
    · cases heq
      rfl
    · exact h.idle hold hidle
  case held =>
    intro id' other hother hholds
    rcases hcases hother with ⟨-, heq⟩ | ⟨-, hold⟩
    · cases heq
      cases hholds
    · obtain ⟨hpid, hstate, hunnamed, hfresh, hquiet, hsince, hpending, hrequest, hbefore⟩ :=
        h.held hold hholds
      exact ⟨hpid, hstate, hunnamed, hfresh, hquiet, hsince, hpending, hrequest, hbefore⟩
  case notified =>
    intro id' other hother hdone
    rcases hcases hother with ⟨-, heq⟩ | ⟨-, hold⟩
    · cases heq
      rcases hdone with hdone | hdone <;> cases hdone
    · exact h.notified hold hdone

theorem Inv.locked (h : Inv s) (hfree : s.ingests id = none) (hlock : s.lock = none)
    (pid : UInt32) :
    Inv ({ s with lock := some id }.put id ⟨pid, .locked, false, none, false, none, 0⟩) := by
  have hcases {id' : Nat} {other : Ingest} (hother : Function.update s.ingests id (some
      ⟨pid, .locked, false, none, false, none, 0⟩) id' = some other) :=
    some_of_update rfl hother
  have hnobody {id' : Nat} {other : Ingest} (hother : s.ingests id' = some other) :
      other.phase.holds = false := by
    cases hholds : other.phase.holds with
    | false => rfl
    | true => cases hlock.symm.trans (h.alone hother hholds)
  refine ⟨?holder, ?alone, ?idle, ?held, h.request, h.acted_of_free hfree, h.once, h.order,
    ?notified⟩
  case holder =>
    intro id' hid'
    cases hid'
    exact ⟨_, Function.update_self .., rfl⟩
  case alone =>
    intro id' other hother hholds
    rcases hcases hother with ⟨rfl, -⟩ | ⟨-, hold⟩
    · rfl
    · cases (hnobody hold).symm.trans hholds
  case idle =>
    intro id' other hother hidle
    rcases hcases hother with ⟨-, heq⟩ | ⟨-, hold⟩
    · cases heq
      rfl
    · exact h.idle hold hidle
  case held =>
    intro id' other hother hholds
    rcases hcases hother with ⟨rfl, heq⟩ | ⟨-, hold⟩
    · cases heq
      refine ⟨?_, ?_, ?_, ?_, ?_, ?_, ?_, ?_, ?_⟩
      case refine_4 =>
        intro _ hmem
        obtain ⟨⟨id'', n⟩, hentry, heq⟩ := List.mem_map.mp hmem
        cases heq
        obtain ⟨-, other, hother, -⟩ := h.acted hentry
        cases hfree.symm.trans hother
      all_goals
        intros
        first
        | rfl
        | contradiction
    · cases (hnobody hold).symm.trans hholds
  case notified =>
    intro id' other hother hdone
    rcases hcases hother with ⟨-, heq⟩ | ⟨-, hold⟩
    · cases heq
      rcases hdone with hdone | hdone <;> cases hdone
    · exact h.notified hold hdone

/-- A daemon lets go of the lock, of its own accord or since its process has ended. -/
theorem Inv.left (h : Inv s) (hid : s.ingests id = some ingest)
    (hholds : ingest.phase.holds = true) (hphase : ingest'.phase = .gone)
    (hwatcher : ingest'.watcher = none) (hsince : ingest'.since = ingest.since)
    (hnotified : ingest'.notified = ingest.notified) (hexit : ingest'.exit = ingest.exit) :
    Inv ({ s with lock := none }.put id ingest') := by
  have hcases {id' : Nat} {other : Ingest}
      (hother : Function.update s.ingests id (some ingest') id' = some other) :=
    some_of_update rfl hother
  have hnobody {id' : Nat} {other : Ingest}
      (hother : Function.update s.ingests id (some ingest') id' = some other) :
      other.phase.holds = false := by
    rcases hcases hother with ⟨-, heq⟩ | ⟨hne, hold⟩
    · cases heq
      rw [hphase]
      rfl
    · cases hholds' : other.phase.holds with
      | false => rfl
      | true => exact absurd (h.eq_of_holds hold hid hholds' hholds) hne
  refine ⟨?holder, ?alone, ?idle, ?held, h.request, ?acted, h.once, h.order, ?notified⟩
  case holder =>
    intro id' hid'
    cases hid'
  case alone =>
    intro id' other hother hholds'
    cases (hnobody hother).symm.trans hholds'
  case idle =>
    intro id' other hother hidle
    rcases hcases hother with ⟨-, heq⟩ | ⟨-, hold⟩
    · cases heq
      exact hwatcher
    · exact h.idle hold hidle
  case held =>
    intro id' other hother hholds'
    cases (hnobody hother).symm.trans hholds'
  case acted =>
    intro id' n hmem
    obtain ⟨hn, other, hother, hle⟩ := h.acted hmem
    refine ⟨hn, ?_⟩
    by_cases hne : id' = id
    · subst hne
      cases hid.symm.trans hother
      exact ⟨ingest', Function.update_self .., by rwa [hsince]⟩
    · exact ⟨other, (Function.update_of_ne hne ..).trans hother, hle⟩
  case notified =>
    intro id' other hother hdone
    rcases hcases hother with ⟨rfl, heq⟩ | ⟨-, hold⟩
    · cases heq
      rw [hnotified, hexit] at hdone
      exact h.notified hid hdone
    · exact h.notified hold hdone

theorem Inv.asked (h : Inv s) (raw : String) :
    Inv { s with request := some (s.puts, raw), puts := s.puts + 1 } := by
  refine ⟨h.holder, h.alone, h.idle, ?held, ?request, ?acted, h.once, h.order, h.notified⟩
  case held =>
    intro id ingest hid hholds
    have hheld := h.held hid hholds
    refine ⟨hheld.pid, hheld.state, hheld.unnamed, hheld.fresh, hheld.quiet, ?_, ?_, ?_,
      hheld.before⟩
    · intro watcher hw
      exact (hheld.since hw).trans (Nat.le_succ _)
    · intro done n raw hw
      obtain ⟨hdone, hle, hlt⟩ := hheld.pending hw
      exact ⟨hdone, hle, Nat.lt_succ_of_lt hlt⟩
    · intro watcher n raw' hw hrequest
      cases hrequest
      exact hheld.since hw
  case request =>
    intro n raw' hrequest
    cases hrequest
    exact Nat.lt_succ_self _
  case acted =>
    intro id n hmem
    obtain ⟨hn, hrest⟩ := h.acted hmem
    exact ⟨Nat.lt_succ_of_lt hn, hrest⟩

theorem Inv.lost (h : Inv s) (file : File) :
    Inv { s.without file with unlinked := file :: s.unlinked } := by
  obtain ⟨hlock, hingests, hputs, hacted⟩ := without_same (s := s) file
  refine ⟨?holder, ?alone, ?idle, ?held, ?request, ?acted, ?once, ?order, ?notified⟩
  case held =>
    intro id ingest hid hholds
    have hheld := h.held ((congrFun hingests id).symm.trans hid) hholds
    refine ⟨?pid, ?state, hheld.unnamed, ?fresh, hheld.quiet, ?since, ?pending, ?waiting, ?before⟩
    case pid =>
      intro hnamed hserves
      rcases hheld.pid hnamed hserves with hfile | hmissing
      · cases file with
        | pid => exact .inr List.mem_cons_self
        | _ => exact .inl hfile
      · exact .inr (List.mem_cons_of_mem file hmissing)
    case state =>
      intro hrunning
      rcases hheld.state hrunning with hfile | hmissing
      · cases file with
        | state => exact .inr List.mem_cons_self
        | _ => exact .inl hfile
      · exact .inr (List.mem_cons_of_mem file hmissing)
    case fresh =>
      intro hearly
      change id ∉ (s.without file).acted.map (·.1)
      rw [hacted]
      exact hheld.fresh hearly
    case since =>
      intro watcher hw
      exact (hheld.since hw).trans_eq hputs.symm
    case pending =>
      intro done n raw hw
      obtain ⟨hdone, hle, hlt⟩ := hheld.pending hw
      exact ⟨hdone, hle, hlt.trans_eq hputs.symm⟩
    case waiting =>
      intro watcher n raw hw hrequest
      exact hheld.request hw (without_request file hrequest)
    case before =>
      intro pending hw entry hentry
      exact hheld.before hw entry (hacted ▸ hentry)
  case request =>
    intro n raw hrequest
    exact (h.request (without_request file hrequest)).trans_eq hputs.symm
  all_goals
    simp only [hlock, hingests, hputs, hacted]
  case holder => exact h.holder
  case alone => exact h.alone
  case idle => exact h.idle
  case acted => exact h.acted
  case once => exact h.once
  case order => exact h.order
  case notified => exact h.notified

theorem inv_step {parse : String → Option ShutdownRequest} {e : Event} (h : Inv s)
    (hstep : Guarded Clears (Step parse) s e t) : Inv t := by
  obtain ⟨hclears, hstep⟩ := hstep
  unfold Step at hstep
  cases e with
  | launch id pid opens =>
    rw [next] at hstep
    split at hstep
    · cases hstep
    next hfree =>
      split at hstep
      next hlock =>
        cases hstep
        exact h.locked hfree hlock.2 pid
      next =>
        cases hstep
        exact h.refused hfree pid _
  | put raw =>
    cases hstep
    exact h.asked raw
  | lose file =>
    cases hstep
    exact h.lost file
  | writePid id outcome =>
    obtain ⟨ingest, hid, hstep⟩ := Option.bind_eq_some_iff.mp hstep
    split at hstep
    · cases hstep
    next hphase =>
      rw [not_not] at hphase
      have hunnamed := (h.held hid (by rw [hphase]; rfl)).unnamed hphase
      split at hstep
      · cases hstep
        exact h.wrotePid hid hphase fun _ => rfl
      · cases hstep
        exact h.wrotePid hid hphase fun hnamed => by cases hunnamed.symm.trans hnamed
      · cases hstep
        exact h.wrotePid hid hphase fun hnamed => by cases hunnamed.symm.trans hnamed
  | fail id =>
    obtain ⟨ingest, hid, hstep⟩ := Option.bind_eq_some_iff.mp hstep
    split at hstep
    · cases hstep
    next hphase =>
      rw [not_not] at hphase
      cases hstep
      have hholds : ingest.phase.holds = true := by rw [hphase]; rfl
      have hnotified := h.notified hid
      have hquiet := (h.held hid hholds).quiet (by rw [hphase]; rfl)
      exact h.moved hid hholds ⟨rfl, rfl, rfl, rfl, fun h => h⟩ rfl (fun _ hw => hw) rfl hnotified
        rfl (fun hlocked => by cases hlocked) fun _ => hquiet
  | watch id cleared =>
    obtain ⟨ingest, hid, hstep⟩ := Option.bind_eq_some_iff.mp hstep
    split at hstep
    · cases hstep
    next hphase =>
      rw [not_not] at hphase
      cases hstep
      refine h.watched hid hphase ?_
      rcases hclears with hcleared | hnone
      · rw [hcleared]
        rfl
      · rw [hnone]
        exact ite_self none
  | announce id ok =>
    obtain ⟨ingest, hid, hstep⟩ := Option.bind_eq_some_iff.mp hstep
    split at hstep
    · cases hstep
    next hphase =>
      rw [not_not] at hphase
      split at hstep
      · cases hstep
        exact h.announced hid hphase
      · cases hstep
        have hnotified := h.notified hid
        exact h.moved hid (by rw [hphase]; rfl) ⟨rfl, rfl, rfl, rfl, fun h => h⟩ rfl
          (fun _ hw => by cases hw) rfl hnotified rfl (fun hlocked => by cases hlocked) fun _ => rfl
  | poll id =>
    obtain ⟨ingest, hid, hstep⟩ := Option.bind_eq_some_iff.mp hstep
    split at hstep
    next hwatcher hrequest =>
      cases hstep
      exact h.polled hid hwatcher hrequest
    · cases hstep
  | consume id removed =>
    obtain ⟨ingest, hid, hstep⟩ := Option.bind_eq_some_iff.mp hstep
    split at hstep
    next raw hwatcher =>
      cases hparse : parse raw with
      | none =>
        rw [hparse] at hstep
        cases hstep
        exact h.dropped hid hwatcher removed
      | some request =>
        rw [hparse] at hstep
        cases hstep
        exact h.consumed hid hwatcher removed
    · cases hstep
  | stop id =>
    obtain ⟨ingest, hid, hstep⟩ := Option.bind_eq_some_iff.mp hstep
    split at hstep
    · cases hstep
    next hphase =>
      rw [not_not] at hphase
      cases hstep
      refine h.moved hid (by rw [hphase]; rfl) ⟨rfl, rfl, rfl, rfl, fun h => h⟩ rfl
        (fun _ hw => hw) rfl ?_ rfl (fun hlocked => by cases hlocked) fun hquiet => by cases hquiet
      rintro (hnotified | hexit)
      · exact h.notified hid (.inl hnotified)
      · cases hexit
  | demote id =>
    obtain ⟨ingest, hid, hstep⟩ := Option.bind_eq_some_iff.mp hstep
    split at hstep
    · cases hstep
    next hphase =>
      rw [not_or, not_not, Bool.not_eq_false] at hphase
      cases hstep
      have hnotified := h.notified hid (.inl hphase.2)
      exact h.moved hid (by rw [hphase.1]; rfl) ⟨rfl, rfl, rfl, rfl, fun h => h⟩ rfl
        (fun _ hw => hw) rfl (fun _ => hnotified) rfl (fun hlocked => by cases hlocked)
        fun hquiet => by cases hquiet
  | remove id ok =>
    obtain ⟨ingest, hid, hstep⟩ := Option.bind_eq_some_iff.mp hstep
    split at hstep
    next file left hphase =>
      cases hstep
      have hnotified := h.notified hid
      obtain ⟨hlock, hingests, hputs, hacted⟩ := without_same (s := s) file
      have hkept : Kept s ((if ok then s.without file else s).goTo id ingest (.removing left)) id
          { ingest with phase := .removing left } := by
        cases ok with
        | true =>
          refine ⟨hlock, ?_, hputs, hacted, without_request file⟩
          exact congrArg (Function.update · id _) hingests
        | false => exact ⟨rfl, rfl, rfl, rfl, fun h => h⟩
      exact h.moved hid (by rw [hphase]; rfl) hkept rfl (fun _ hw => hw) rfl hnotified rfl
        (fun hlocked => by cases hlocked) fun hquiet => by cases hquiet
    · cases hstep
  | close id =>
    obtain ⟨ingest, hid, hstep⟩ := Option.bind_eq_some_iff.mp hstep
    split at hstep
    next hphase =>
      cases hstep
      have hnotified := h.notified hid
      exact h.moved hid (by rw [hphase]; rfl) ⟨rfl, rfl, rfl, rfl, fun h => h⟩ rfl
        (fun _ hw => by cases hw) rfl hnotified rfl (fun hlocked => by cases hlocked) fun _ => rfl
    · cases hstep
  | check id readable =>
    obtain ⟨ingest, hid, hstep⟩ := Option.bind_eq_some_iff.mp hstep
    split at hstep
    · cases hstep
    next hphase =>
      rw [not_not] at hphase
      have hholds : ingest.phase.holds = true := by rw [hphase]; rfl
      have hnotified := h.notified hid
      have hquiet := (h.held hid hholds).quiet (by rw [hphase]; rfl)
      split at hstep
      · cases hstep
        exact h.moved hid hholds ⟨rfl, rfl, rfl, rfl, fun h => h⟩ rfl (fun _ hw => hw) rfl hnotified
          rfl (fun hlocked => by cases hlocked) fun _ => hquiet
      · cases hstep
        exact h.moved hid hholds ⟨rfl, rfl, rfl, rfl, fun h => h⟩ rfl (fun _ hw => hw) rfl hnotified
          rfl (fun hlocked => by cases hlocked) fun _ => hquiet
  | unlink id ok =>
    obtain ⟨ingest, hid, hstep⟩ := Option.bind_eq_some_iff.mp hstep
    split at hstep
    · cases hstep
    next hphase =>
      rw [not_not] at hphase
      cases hstep
      have hholds : ingest.phase.holds = true := by rw [hphase]; rfl
      have hnotified := h.notified hid
      have hquiet := (h.held hid hholds).quiet (by rw [hphase]; rfl)
      have hkept : Kept s ((if ok then s.without .pid else s).goTo id ingest .releasing) id
          { ingest with phase := .releasing } := by
        cases ok <;> exact ⟨rfl, rfl, rfl, rfl, fun h => h⟩
      exact h.moved hid hholds hkept rfl (fun _ hw => hw) rfl hnotified rfl
        (fun hlocked => by cases hlocked) fun _ => hquiet
  | release id =>
    obtain ⟨ingest, hid, hstep⟩ := Option.bind_eq_some_iff.mp hstep
    split at hstep
    · cases hstep
    next hphase =>
      rw [not_not] at hphase
      cases hstep
      have hholds : ingest.phase.holds = true := by rw [hphase]; rfl
      have hquiet := (h.held hid hholds).quiet (by rw [hphase]; rfl)
      exact h.left hid hholds rfl hquiet rfl rfl rfl
  | crash id =>
    obtain ⟨ingest, hid, hstep⟩ := Option.bind_eq_some_iff.mp hstep
    split at hstep
    · cases hstep
    next hphase =>
      rw [Bool.not_eq_false] at hphase
      cases hstep
      have hlock : afterCrash id s.lock = none := if_pos (h.alone hid hphase)
      rw [hlock]
      exact h.left hid hphase rfl rfl rfl rfl rfl

end

/-! ## Runs -/

/-- One daemon at a time, whatever pidfiles say; its files are its own while it runs; and no request
makes two daemons step down, or one that came later. -/
structure Orderly (s : State) : Prop where
  alone : ∀ (id id' : Nat) (ingest other : Ingest), s.ingests id = some ingest →
    s.ingests id' = some other → ingest.phase.holds = true → other.phase.holds = true → id = id'
  lock : ∀ id, s.lock = some id →
    ∃ ingest, s.ingests id = some ingest ∧ ingest.phase.holds = true
  named : ∀ (id : Nat) (ingest : Ingest), s.ingests id = some ingest → ingest.phase = .running →
    ingest.named = true → s.pidFile.bind readPid = some ingest.pid ∨ .pid ∈ s.unlinked
  announced : ∀ (id : Nat) (ingest : Ingest), s.ingests id = some ingest →
    ingest.phase = .running → s.stateFile = some (.of id) ∨ .state ∈ s.unlinked
  later : ∀ id n, (id, n) ∈ s.acted →
    n < s.puts ∧ ∃ ingest, s.ingests id = some ingest ∧ ingest.since ≤ n
  once : (s.acted.map (·.1)).Nodup
  order : (s.acted.map (·.2)).Pairwise (· < ·)
  demoted : ∀ (id : Nat) (ingest : Ingest), s.ingests id = some ingest →
    ingest.exit = some .demoted → id ∈ s.acted.map (·.1)

section

variable {parse : String → Option ShutdownRequest} {s : State} {es : List Event}
  {pidFile : Option (List Char)} {stateFile : Option Beacon} {request : Option String}

end

def sampleRequest : String := "\x7b\"requestedBy\":\"WSL\",\"ts\":7\x7d\n"

end Climon.Remote.IngestLifecycle
