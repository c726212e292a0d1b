import Climon.Lib.AssocList
import Climon.Lib.Timeline
import Climon.Lib.Transition
import Climon.Store.Meta
import Mathlib.Data.List.Sort
import Mathlib.Logic.Function.Basic

namespace Climon.Server.SessionStream

open Climon.Lib.AssocList Climon.Lib.Timeline Climon.Lib.Transition Climon.Proto.Meta Climon.Store.Meta

/-!
# The stream of session lists

Every publish and every new subscriber reads the directory and then one file after the other. The
list goes to all subscribers, or to the new one, when its last file has been read.
-/

/-! ## The order of a list -/

def rank : SessionStatus → Int
  | .needsAttention => 0
  | .acknowledged => 1
  | .running => 2
  | .completed => 3
  | .paused => 4
  | .failed => 5
  | .disconnected => 6

section Sorting

variable (parseDate : String → Option Int)

def timestamp (value : String) : Int :=
  if value.isEmpty then 0 else (parseDate value).getD 0

def priorityOf (session : SessionMeta) : Int := (session.priority.map fun n => (n.toNat : Int)).getD 500

/-- Negative where `left` goes first. -/
def compareSessions (left right : SessionMeta) : Int :=
  let rankDiff := rank left.status - rank right.status
  let priorityDiff := priorityOf left - priorityOf right
  if rankDiff ≠ 0 then rankDiff
  else if priorityDiff ≠ 0 then priorityDiff
  else timestamp parseDate right.updatedAt - timestamp parseDate left.updatedAt

/-- The sort is stable. -/
def sortSessionsByPriority (sessions : List SessionMeta) : List SessionMeta :=
  sessions.insertionSort fun left right => compareSessions parseDate left right ≤ 0

theorem mem_sortSessionsByPriority {sessions : List SessionMeta} {session : SessionMeta} :
    session ∈ sortSessionsByPriority parseDate sessions ↔ session ∈ sessions :=
  List.mem_insertionSort _

end Sorting

/-! ## State -/

/-- The session files by name; `none` is a file that cannot be parsed. -/
structure Store where
  files : List (String × Option SessionMeta)
  distinct : (files.map (·.1)).Nodup

/-- What a list shows of the file. -/
def Store.shown (store : Store) (name : String) : Option SessionMeta :=
  ((store.files.lookup name).join).map applyUserPausedOverlay

/-- When the parts of a list were read, counted in changes of the store. A file that the directory
lacked was seen missing then. -/
structure Reads where
  listedAt : Nat
  filesAt : List (String × Nat)

def Reads.of (reads : Reads) (name : String) : Nat := (reads.filesAt.lookup name).getD reads.listedAt

/-- A `listSessions` under way. `audience` is the subscriber that waits for it, `none` for all,
and `pending` the files still to be read, `none` until the directory is. -/
structure Reading where
  audience : Option Nat
  pending : Option (List String)
  sessions : List SessionMeta
  reads : Reads

structure Message where
  sessions : List SessionMeta
  reads : Reads

/-- `past` are the earlier stores, oldest first, and `received` what was sent to whom. `watched` is
whether the watcher's timer runs, and `fed` are the lists given to the attention tracker. -/
structure State where
  store : Store
  past : List Store
  watched : Bool
  readings : Nat → Option Reading
  nextReading : Nat
  clients : List Nat
  nextClient : Nat
  received : List (Nat × Message)
  fed : List (List SessionMeta)

def init (store : Store) : State := ⟨store, [], false, fun _ => none, 0, [], 0, [], []⟩

/-- `change` is any other store, whoever writes it. -/
inductive Event where
  | change (store : Store)
  | watch
  | handler
  | connect
  | disconnect (client : Nat)
  | readDirectory (reading : Nat)
  | readFile (reading : Nat)
  | send (reading : Nat)

namespace State

def start (s : State) (audience : Option Nat) : State :=
  { s with
    readings := Function.update s.readings s.nextReading (some ⟨audience, none, [], ⟨0, []⟩⟩)
    nextReading := s.nextReading + 1 }

/-- Those that get the list of a reading. A subscriber that is gone gets nothing. -/
def recipients (s : State) (r : Reading) : List Nat :=
  match r.audience with
  | none => s.clients
  | some client => s.clients.filter (· = client)

def deliver (s : State) (r : Reading) (sessions : List SessionMeta) : State :=
  { s with
    received := s.received ++ (s.recipients r).map fun client => (client, ⟨sessions, r.reads⟩)
    fed := if r.audience.isNone then s.fed ++ [sessions] else s.fed }

end State

section Steps

variable (parseDate : String → Option Int)

def next (s : State) : Event → Option State
  | .change store => some { s with store, past := s.past ++ [s.store], watched := true }
  | .watch => if s.watched then some ({ s with watched := false }.start none) else none
  | .handler => some (s.start none)
  | .connect =>
    some ({ s with clients := s.clients ++ [s.nextClient], nextClient := s.nextClient + 1 }.start
      (some s.nextClient))
  | .disconnect client => some { s with clients := s.clients.filter (· ≠ client) }
  | .readDirectory i =>
    match s.readings i with
    | some ⟨audience, none, _, _⟩ =>
      some { s with
        readings := Function.update s.readings i
          (some ⟨audience, some (s.store.files.map (·.1)), [], ⟨s.past.length, []⟩⟩) }
    | _ => none
  | .readFile i =>
    match s.readings i with
    | some ⟨audience, some (name :: names), sessions, reads⟩ =>
      some { s with
        readings := Function.update s.readings i
          (some ⟨audience, some names, sessions ++ (s.store.shown name).toList,
            { reads with filesAt := (name, s.past.length) :: reads.filesAt }⟩) }
    | _ => none
  | .send i =>
    match s.readings i with
    | some ⟨audience, some [], sessions, reads⟩ =>
      some ({ s with readings := Function.update s.readings i none }.deliver
        ⟨audience, some [], sessions, reads⟩ (sortSessionsByPriority parseDate sessions))
    | _ => none

def Step (s : State) (e : Event) (t : State) : Prop := next parseDate s e = some t

end Steps

/-! ## What a list says against what another one says -/

namespace State

def version (s : State) : Nat := s.past.length

def storeAt (s : State) (v : Nat) : Option Store := (s.past ++ [s.store])[v]?

def shownAt (s : State) (name : String) (v : Nat) : Option SessionMeta :=
  (s.storeAt v).bind fun store => store.shown name

/-- Some session is shown as it was before a change that the other list shows. -/
def Older (s : State) (reads other : Reads) : Prop :=
  ∃ name, revision (s.shownAt name) (reads.of name) < revision (s.shownAt name) (other.of name)

end State

/-- No subscriber got a list after one that it makes older. -/
def InOrder (s : State) : Prop :=
  s.received.Pairwise fun earlier later =>
    earlier.1 = later.1 → ¬ s.Older later.2.reads earlier.2.reads

/-- No list is being read, and the watcher has none to read. -/
def Quiescent (s : State) : Prop := s.watched = false ∧ ∀ i, s.readings i = none

/-- The last list of every subscriber is the newest one read, and what the store holds. -/
def UpToDate (s : State) : Prop :=
  ∀ client ∈ s.clients, ∃ message,
    (s.received.filter (·.1 = client)).getLast? = some (client, message) ∧
    (∀ other ∈ s.received, ¬ s.Older message.reads other.2.reads) ∧
    ∀ session, session ∈ message.sessions ↔ ∃ name, s.store.shown name = some session

/-- The other list, read after a change of a session that this one was read before, has gone to
one of the same subscribers. -/
def Overtaken (s : State) (r : Reading) : Prop :=
  ∃ client ∈ s.recipients r, ∃ other ∈ s.received, other.1 = client ∧
    ∃ name v, r.reads.of name ≤ v ∧ v < other.2.reads.of name ∧
      s.shownAt name v ≠ s.shownAt name (v + 1)

/-- No list is sent once it is overtaken. -/
def InTurn (s : State) : Event → Prop
  | .send i => ∀ r, s.readings i = some r → ¬ Overtaken s r
  | _ => True

/-! ## Stores that do not change any more -/

section Timeline

variable {s t : State}

theorem shownAt_version (s : State) (name : String) :
    s.shownAt name s.version = s.store.shown name := by
  unfold State.shownAt State.storeAt State.version
  simp

/-- A change leaves the versions so far as they were. -/
theorem shownAt_change {name : String} {v : Nat} (hv : v ≤ s.version)
    (hpast : t.past = s.past ++ [s.store]) : t.shownAt name v = s.shownAt name v := by
  unfold State.shownAt State.storeAt
  rw [hpast, List.getElem?_append_left]
  rw [List.length_append, List.length_singleton]
  exact Nat.lt_succ_of_le hv

theorem revision_change {name : String} {v : Nat} (hv : v ≤ s.version)
    (hpast : t.past = s.past ++ [s.store]) :
    revision (t.shownAt name) v = revision (s.shownAt name) v :=
  revision_congr fun _ hw => shownAt_change (hw.trans hv) hpast

/-- All parts were read by now. -/
def Timely (s : State) (reads : Reads) : Prop := ∀ name, reads.of name ≤ s.version

/-- Nothing that the list shows has changed since. -/
def Current (s : State) (reads : Reads) : Prop :=
  ∀ name, revision (s.shownAt name) (reads.of name) = revision (s.shownAt name) s.version

theorem older_change {reads other : Reads} (hreads : Timely s reads) (hother : Timely s other)
    (hpast : t.past = s.past ++ [s.store]) : t.Older reads other ↔ s.Older reads other := by
  unfold State.Older
  apply exists_congr
  intro name
  rw [revision_change (hreads name) hpast, revision_change (hother name) hpast]

theorem older_iff {reads other : Reads} : s.Older reads other ↔
    ∃ name v, reads.of name ≤ v ∧ v < other.of name ∧ s.shownAt name v ≠ s.shownAt name (v + 1) :=
  exists_congr fun _ => revision_lt_iff

theorem not_older_of_current {reads other : Reads} (h : Current s reads) (hother : Timely s other) :
    ¬ s.Older reads other := by
  rintro ⟨name, hlt⟩
  have hle := revision_mono (s.shownAt name) (hother name)
  rw [← h name] at hle
  omega

/-- What is not older than a current list is current. -/
theorem Current.of_not_older {reads other : Reads} (h : Current s other) (hreads : Timely s reads)
    (hnot : ¬ s.Older reads other) : Current s reads := by
  intro name
  have hle := revision_mono (s.shownAt name) (hreads name)
  have hge : ¬ revision (s.shownAt name) (reads.of name) <
      revision (s.shownAt name) (other.of name) := fun hlt => hnot ⟨name, hlt⟩
  rw [h name] at hge
  omega

theorem Current.shown {reads : Reads} (h : Current s reads) (hreads : Timely s reads)
    (name : String) : s.shownAt name (reads.of name) = s.store.shown name := by
  rw [eq_of_revision_eq (hreads name) (h name), shownAt_version]

end Timeline

end Climon.Server.SessionStream
