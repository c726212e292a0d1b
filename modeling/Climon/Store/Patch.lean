import Mathlib.Logic.Function.Basic
import Climon.Store.Meta

namespace Climon.Store.Patch

open Climon.Proto.Meta Climon.Store.Meta

/-!
# Metadata patches

Any number of calls patch one session's metadata at once. Every step below is one that other
calls and readers can get between. The cross-process lock enters only through its mutual
exclusion.
-/

abbrev Bytes := List UInt8

abbrev CallId := Nat

abbrev Inode := Nat

inductive StoreError where
  | io
  | json
  | lockTimeout (id : String)
  | validation (msg : String)
  deriving DecidableEq, Repr

/-- The JSON codec of another crate. What it serialises, it reads back. -/
structure MetaCodec where
  serialize : SessionMeta → Option Bytes
  parse : Bytes → Option SessionMeta
  parse_serialize : ∀ {sessionMeta data}, serialize sessionMeta = some data →
    parse data = some sessionMeta

/-! ## The three patch functions -/

/-- What a call decides under the lock: reject, leave the file alone, or patch it. -/
abbrev Resolve := SessionMeta → Except StoreError (Option SessionMetaPatch)

def patchSessionMeta (patch : SessionMetaPatch) : Resolve := fun _ => .ok (some patch)

def patchSessionMetaWithCurrent (patch : SessionMetaPatch)
    (validate : SessionMeta → Except StoreError Unit) : Resolve :=
  fun current => do
    validate current
    return some patch

def patchSessionMetaFromCurrent (update : SessionMeta → Option SessionMetaPatch) : Resolve :=
  fun current => .ok (update current)

/-- A call of `patchQueued`; `now` is what the clock gives it. -/
structure Call where
  process : Nat
  resolve : Resolve
  now : String

/-- The three ways the locked section returns without an error, and the error. -/
inductive Result where
  | missing
  | unchanged (current : SessionMeta)
  | written (updated : SessionMeta)
  | failed (e : StoreError)
  deriving DecidableEq, Repr

/-- What the caller gets. A lock that cannot be released is reported only where the section itself
succeeded, by then with its write published. -/
def Result.returned (result : Result) (release : Option StoreError) :
    Except StoreError (Option SessionMeta) :=
  match result, release with
  | .failed e, _ => .error e
  | _, some e => .error e
  | .missing, none => .ok none
  | .unchanged current, none => .ok (some current)
  | .written updated, none => .ok (some updated)

def Result.isWritten : Result → Bool
  | .written _ => true
  | _ => false

/-! ## The state -/

inductive Pc where
  | idle
  | queued
  | locked
  | computing (current : SessionMeta)
  | creating (updated : SessionMeta) (data : Bytes)
  | writing (updated : SessionMeta) (temp : Inode) (rest : Bytes)
  | publishing (updated : SessionMeta) (temp : Inode) (attempt : Nat)
  | releasing (result : Result)
  | done (result : Result) (release : Option StoreError)
  | crashed
  deriving DecidableEq, Repr

/-- A concurrent reader of the file, which keeps reading the inode it opened. -/
inductive Reader where
  | idle
  | reading (inode : Inode) (buffer : Bytes)
  | finished (raw : Option Bytes)
  deriving DecidableEq, Repr

structure StoreState where
  files : String → Option Inode
  inodes : Inode → Bytes
  nextInode : Inode
  queue : Nat → Option CallId
  lock : Option CallId
  pc : CallId → Pc
  readers : Nat → Reader

/-- The bytes at the metadata path of a session. -/
def StoreState.content (s : StoreState) (id : String) : Option Bytes := (s.files id).map s.inodes

inductive RenameOutcome where
  | ok
  | transient
  | permanent
  deriving DecidableEq, Repr

def renameMaxAttempts : Nat := 10

inductive Event where
  | enter (c : CallId)
  | acquire (c : CallId)
  | acquireFails (c : CallId) (e : StoreError)
  | read (c : CallId) (ok : Bool)
  | compute (c : CallId)
  | createTemp (c : CallId) (ok : Bool)
  | writeChunk (c : CallId) (n : Nat)
  | writeFails (c : CallId)
  | rename (c : CallId) (outcome : RenameOutcome)
  | release (c : CallId) (failure : Option StoreError)
  | crash (c : CallId)
  | openFile (r : Nat)
  | readChunk (r : Nat) (n : Nat)
  deriving DecidableEq, Repr

/-! ## The steps -/

/-- The overlaid metadata, `none` for a missing file. -/
def readSessionMeta (codec : MetaCodec) (file : Option Bytes) :
    Except StoreError (Option SessionMeta) :=
  match file with
  | none => .ok none
  | some raw =>
    match codec.parse raw with
    | none => .error .json
    | some sessionMeta => .ok (some (applyUserPausedOverlay sessionMeta))

def updatedBy (call : Call) (current : SessionMeta) (patch : SessionMetaPatch) : SessionMeta :=
  { mergePatch current patch with updatedAt := call.now }

def StoreState.goto (s : StoreState) (c : CallId) (pc : Pc) : StoreState :=
  { s with pc := Function.update s.pc c pc }

def StoreState.fail (s : StoreState) (c : CallId) (e : StoreError) : StoreState :=
  s.goto c (.releasing (.failed e))

/-- The locked section between the read and the temp file. -/
def computed (codec : MetaCodec) (call : Call) (current : SessionMeta) : Pc :=
  match call.resolve current with
  | .error e => .releasing (.failed e)
  | .ok none => .releasing (.unchanged current)
  | .ok (some patch) =>
    let updated := updatedBy call current patch
    match codec.serialize updated with
    | none => .releasing (.failed .json)
    | some data => .creating updated data

def afterRead (codec : MetaCodec) (file : Option Bytes) : Pc :=
  match readSessionMeta codec file with
  | .error e => .releasing (.failed e)
  | .ok none => .releasing .missing
  | .ok (some current) => .computing current

variable (codec : MetaCodec) (calls : CallId → Call) (id : String)

/-- The step of one participant. The write goes to the path of the id inside the metadata, the read
to the path of the id the call was made for. -/
def next (s : StoreState) : Event → Option StoreState
  | .enter c =>
    match s.pc c, s.queue (calls c).process with
    | .idle, none =>
      some ({ s with queue := Function.update s.queue (calls c).process (some c) }.goto c .queued)
    | _, _ => none
  | .acquire c =>
    match s.pc c, s.lock with
    | .queued, none => some ({ s with lock := some c }.goto c .locked)
    | _, _ => none
  | .acquireFails c e =>
    match s.pc c with
    | .queued =>
      some ({ s with queue := Function.update s.queue (calls c).process none }.goto c
        (.done (.failed e) none))
    | _ => none
  | .read c ok =>
    match s.pc c with
    | .locked => some (if ok then s.goto c (afterRead codec (s.content id)) else s.fail c .io)
    | _ => none
  | .compute c =>
    match s.pc c with
    | .computing current => some (s.goto c (computed codec (calls c) current))
    | _ => none
  | .createTemp c ok =>
    match s.pc c with
    | .creating updated data =>
      some (if ok then
        { s with
          inodes := Function.update s.inodes s.nextInode []
          nextInode := s.nextInode + 1 }.goto c (.writing updated s.nextInode data)
      else s.fail c .io)
    | _ => none
  | .writeChunk c n =>
    match s.pc c with
    | .writing updated temp rest =>
      let s := { s with inodes := Function.update s.inodes temp (s.inodes temp ++ rest.take n) }
      some (s.goto c
        (if rest.drop n = [] then .publishing updated temp 0 else .writing updated temp (rest.drop n)))
    | _ => none
  | .writeFails c =>
    match s.pc c with
    | .writing _ _ _ => some (s.fail c .io)
    | _ => none
  | .rename c outcome =>
    match s.pc c with
    | .publishing updated temp attempt =>
      match outcome with
      | .ok =>
        some ({ s with files := Function.update s.files updated.id (some temp) }.goto c
          (.releasing (.written updated)))
      | .transient =>
        if renameMaxAttempts - 1 ≤ attempt then some (s.fail c .io)
        else some (s.goto c (.publishing updated temp (attempt + 1)))
      | .permanent => some (s.fail c .io)
    | _ => none
  | .release c failure =>
    match s.pc c with
    | .releasing result =>
      some ({ s with
        lock := none
        queue := Function.update s.queue (calls c).process none }.goto c (.done result failure))
    | _ => none
  | .crash c =>
    -- A dead holder's lock is recovered, and its process leaves no mutex behind.
    some ({ s with
      lock := if s.lock = some c then none else s.lock
      queue := fun p => if s.queue p = some c then none else s.queue p }.goto c .crashed)
  | .openFile r =>
    match s.files id with
    | none => some { s with readers := Function.update s.readers r (.finished none) }
    | some inode => some { s with readers := Function.update s.readers r (.reading inode []) }
  | .readChunk r n =>
    match s.readers r with
    | .reading inode buffer =>
      let rest := (s.inodes inode).drop buffer.length
      some { s with
        readers := Function.update s.readers r
          (if rest = [] then .finished (some buffer) else .reading inode (buffer ++ rest.take n)) }
    | _ => none

def Step (s : StoreState) (e : Event) (t : StoreState) : Prop := next codec calls id s e = some t

/-- No call has started. -/
def initialState (file : Option Bytes) : StoreState where
  files := fun p => if p = id then file.map fun _ => 0 else none
  inodes := fun _ => file.getD []
  nextInode := 1
  queue := fun _ => none
  lock := none
  pc := fun _ => .idle
  readers := fun _ => .idle

/-! ## The serial meaning -/

/-- What a call makes of the file when nothing else runs. -/
def patchBytes (call : Call) (raw : Bytes) : Bytes :=
  match codec.parse raw with
  | none => raw
  | some sessionMeta =>
    match computed codec call (applyUserPausedOverlay sessionMeta) with
    | .creating _ data => data
    | _ => raw

def serial (file : Option Bytes) (order : List CallId) : Option Bytes :=
  order.foldl (fun file c => file.map (patchBytes codec (calls c))) file

/-- The same on values: each patch is applied to the overlaid last value. -/
def applied (call : Call) (sessionMeta : SessionMeta) : SessionMeta :=
  match call.resolve (applyUserPausedOverlay sessionMeta) with
  | .ok (some patch) => updatedBy call (applyUserPausedOverlay sessionMeta) patch
  | _ => sessionMeta

theorem overlay_id (sessionMeta : SessionMeta) :
    (applyUserPausedOverlay sessionMeta).id = sessionMeta.id := by
  unfold applyUserPausedOverlay
  split <;> rfl

theorem computed_eq_creating {call : Call} {current updated : SessionMeta} {data : Bytes} :
    computed codec call current = .creating updated data ↔
      ∃ patch, call.resolve current = .ok (some patch) ∧ updatedBy call current patch = updated ∧
        codec.serialize updated = some data := by
  unfold computed
  constructor
  · intro h
    split at h
    · cases h
    · cases h
    next patch hres =>
      dsimp only at h
      split at h
      · cases h
      next data' hdata =>
        cases h
        exact ⟨patch, hres, rfl, hdata⟩
  · rintro ⟨patch, hres, rfl, hdata⟩
    rw [hres]
    dsimp only
    rw [hdata]

/-- A call's own section ends, or goes on to a temp file. -/
theorem computed_cases (call : Call) (current : SessionMeta) :
    (∃ updated data, computed codec call current = .creating updated data) ∨
      ∃ result, computed codec call current = .releasing result ∧ result.isWritten = false := by
  unfold computed
  split
  · exact .inr ⟨_, rfl, rfl⟩
  · exact .inr ⟨_, rfl, rfl⟩
  · dsimp only
    split
    · exact .inr ⟨_, rfl, rfl⟩
    · exact .inl ⟨_, _, rfl⟩

theorem afterRead_parsed {raw : Bytes} {sessionMeta : SessionMeta}
    (h : codec.parse raw = some sessionMeta) :
    afterRead codec (some raw) = .computing (applyUserPausedOverlay sessionMeta) := by
  simp only [afterRead, readSessionMeta, h]

theorem afterRead_cases (file : Option Bytes) :
    (∃ raw sessionMeta, file = some raw ∧ codec.parse raw = some sessionMeta ∧
      afterRead codec file = .computing (applyUserPausedOverlay sessionMeta)) ∨
      ∃ result, afterRead codec file = .releasing result ∧ result.isWritten = false := by
  cases file with
  | none => exact .inr ⟨_, rfl, rfl⟩
  | some raw =>
    cases h : codec.parse raw with
    | none => exact .inr ⟨.failed .json, by simp only [afterRead, readSessionMeta, h], rfl⟩
    | some sessionMeta => exact .inl ⟨raw, sessionMeta, rfl, h, afterRead_parsed codec h⟩

end Climon.Store.Patch
