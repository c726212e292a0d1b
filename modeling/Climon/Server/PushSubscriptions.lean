import Climon.Lib.Transition
import Mathlib.Algebra.Order.Field.Rat
import Mathlib.Data.List.Permutation
import Mathlib.Logic.Function.Basic

namespace Climon.Server.PushSubscriptions

open Climon.Lib.Transition

/-!
# The store of push subscriptions

Every operation reads the whole list, writes a new one to a temporary file and renames that file
over the store, with other operations between its steps.
-/

structure StoredPushSubscription where
  endpoint : String
  expirationTime : Option (Option Rat)
  p256dh : String
  auth : String
  deriving DecidableEq

/-- `removeSubscription` serves unsubscribe requests and the endpoints that a push service says
are gone. -/
inductive Operation where
  | addSubscription (subscription : StoredPushSubscription)
  | removeSubscription (endpoint : String)
  deriving DecidableEq

namespace Operation

def endpoint : Operation → String
  | addSubscription subscription => subscription.endpoint
  | removeSubscription endpoint => endpoint

def next (op : Operation) (subs : List StoredPushSubscription) : List StoredPushSubscription :=
  let rest := subs.filter fun s => s.endpoint ≠ op.endpoint
  match op with
  | addSubscription subscription => rest ++ [subscription]
  | removeSubscription _ => rest

/-- A removal that removes nothing does not write. -/
def writes (op : Operation) (subs : List StoredPushSubscription) : Bool :=
  match op with
  | addSubscription _ => true
  | removeSubscription _ => (op.next subs).length ≠ subs.length

end Operation

/-- Where an operation is: what it waits for, with the list it has read. A temporary file is named
by the time, and `inode` is the open file. -/
inductive Phase where
  | exists
  | json
  | mkdir (subs : List StoredPushSubscription)
  | open (subs : List StoredPushSubscription) (tmp : Nat)
  | write (subs : List StoredPushSubscription) (tmp inode : Nat)
  | rename (subs : List StoredPushSubscription) (tmp : Nat)
  deriving DecidableEq

/-- The text of a file is `none` where it is no JSON array, and else the items that have the shape
of a subscription. `done` are the operations that have returned, in that order. -/
structure State where
  file : Option Nat
  tmps : Nat → Option Nat
  texts : Nat → Option (List StoredPushSubscription)
  inodes : Nat
  ops : Nat → Option (Operation × Phase)
  count : Nat
  started : List (Nat × Operation)
  done : List (Nat × Operation)
  failed : List Nat

/-- `text` is what is at the path of the store, if anything is. -/
def init (text : Option (Option (List StoredPushSubscription))) : State where
  file := text.map fun _ => 0
  tmps _ := none
  texts _ := text.join
  inodes := 1
  ops _ := none
  count := 0
  started := []
  done := []
  failed := []

/-- `step` ends the wait of an operation, at a time, and `fail` ends it with an error. -/
inductive Event where
  | start (op : Operation)
  | step (i : Nat) (now : Nat)
  | fail (i : Nat)

section Model

variable (isValidSubscription : StoredPushSubscription → Bool)

/-- A missing file, and one that is no JSON array, has no subscriptions. -/
def readAll (s : State) : List StoredPushSubscription :=
  ((s.file.bind s.texts).getD []).filter isValidSubscription

namespace State

def goOn (s : State) (i : Nat) (op : Operation) (phase : Phase) : State :=
  { s with ops := Function.update s.ops i (some (op, phase)) }

def finish (s : State) (i : Nat) (op : Operation) : State :=
  { s with ops := Function.update s.ops i none, done := s.done ++ [(i, op)] }

def giveUp (s : State) (i : Nat) : State :=
  { s with ops := Function.update s.ops i none, failed := s.failed ++ [i] }

/-- With the list read. -/
def haveRead (s : State) (i : Nat) (op : Operation) (subs : List StoredPushSubscription) : State :=
  if op.writes subs then s.goOn i op (.mkdir subs) else s.finish i op

/-- An existing file is emptied. -/
def openTmp (s : State) (i : Nat) (op : Operation) (subs : List StoredPushSubscription)
    (tmp : Nat) : State :=
  match s.tmps tmp with
  | some inode =>
    { s with texts := Function.update s.texts inode none }.goOn i op (.write subs tmp inode)
  | none =>
    { s with
      tmps := Function.update s.tmps tmp (some s.inodes)
      texts := Function.update s.texts s.inodes none
      inodes := s.inodes + 1 }.goOn i op (.write subs tmp s.inodes)

/-- Of two writers of one file the last counts. -/
def writeTmp (s : State) (i : Nat) (op : Operation) (subs : List StoredPushSubscription)
    (tmp inode : Nat) : State :=
  { s with texts := Function.update s.texts inode (some (op.next subs)) }.goOn i op
    (.rename subs tmp)

def renameTmp (s : State) (i : Nat) (op : Operation) (tmp : Nat) : State :=
  match s.tmps tmp with
  | some inode =>
    { s with file := some inode, tmps := Function.update s.tmps tmp none }.finish i op
  | none => s.giveUp i

end State

def next (s : State) : Event → Option State
  | .start op =>
    some ({ s with count := s.count + 1, started := s.started ++ [(s.count, op)] }.goOn s.count op
      .exists)
  | .step i now =>
    match s.ops i with
    | none => none
    | some (op, .exists) =>
      some (if s.file.isSome then s.goOn i op .json else s.haveRead i op [])
    | some (op, .json) => some (s.haveRead i op (readAll isValidSubscription s))
    | some (op, .mkdir subs) => some (s.goOn i op (.open subs now))
    | some (op, .open subs tmp) => some (s.openTmp i op subs tmp)
    | some (op, .write subs tmp inode) => some (s.writeTmp i op subs tmp inode)
    | some (op, .rename _ tmp) => some (s.renameTmp i op tmp)
  | .fail i => if (s.ops i).isSome then some (s.giveUp i) else none

def Step (s : State) (e : Event) (t : State) : Prop := next isValidSubscription s e = some t

/-! ## One operation at a time -/

/-- What an operation makes of the subscriptions when nothing comes between its steps. -/
def perform (subs : List StoredPushSubscription) (op : Operation) : List StoredPushSubscription :=
  if op.writes subs then (op.next subs).filter isValidSubscription else subs

end Model

def Phase.tmp? : Phase → Option Nat
  | .open _ tmp | .write _ tmp _ | .rename _ tmp => some tmp
  | _ => none

/-- The operations that returned, one at a time in that order, make of the subscriptions at the
start what is stored. -/
structure Serialised (isValidSubscription : StoredPushSubscription → Bool)
    (initial : List StoredPushSubscription) (s : State) : Prop where
  stored : readAll isValidSubscription s =
    (s.done.map (·.2)).foldl (perform isValidSubscription) initial
  once : (s.done.map (·.1)).Nodup ∧ ∀ entry ∈ s.done, entry ∈ s.started
  accounted : ∀ entry ∈ s.started,
    (∃ phase, s.ops entry.1 = some (entry.2, phase)) ∨ entry ∈ s.done ∨ entry.1 ∈ s.failed
  kept : ∀ subscription before after,
    s.done.map (·.2) = before ++ .addSubscription subscription :: after →
    isValidSubscription subscription = true →
    (∀ op ∈ after, op.endpoint ≠ subscription.endpoint) →
    subscription ∈ readAll isValidSubscription s
  gone : ∀ endpoint before after,
    s.done.map (·.2) = before ++ .removeSubscription endpoint :: after →
    (∀ op ∈ after, op.endpoint ≠ endpoint) →
    ∀ subscription ∈ readAll isValidSubscription s, subscription.endpoint ≠ endpoint

/-- No two operations at work have one temporary file. -/
def SeparateFiles (s : State) : Prop :=
  ∀ i j op op' phase phase' tmp, s.ops i = some (op, phase) → s.ops j = some (op', phase') →
    phase.tmp? = some tmp → phase'.tmp? = some tmp → i = j

/-- The other endpoints' subscriptions. -/
def others (endpoint : String) (subs : List StoredPushSubscription) :
    List StoredPushSubscription := subs.filter fun s => s.endpoint ≠ endpoint

/-- A temporary file is named at a time that names no other one in use, and a file is renamed only
while the other endpoints' subscriptions are those that its operation read. -/
def InTurn (isValidSubscription : StoredPushSubscription → Bool) (s : State) : Event → Prop
  | .step i now =>
    (∀ op subs, s.ops i = some (op, .mkdir subs) →
      ∀ j op' phase, s.ops j = some (op', phase) → phase.tmp? ≠ some now) ∧
    ∀ op subs tmp, s.ops i = some (op, .rename subs tmp) →
      others op.endpoint (readAll isValidSubscription s) = others op.endpoint subs
  | _ => True

end Climon.Server.PushSubscriptions
