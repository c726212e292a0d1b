import Climon.Lib.JsonValue
import Climon.Lib.Utf8
import Climon.Proto.Meta

namespace Climon.Remote.Sanitize

open Climon.Lib.JsonValue Climon.Lib.Utf8 Climon.Proto.Meta

/-!
# Remote ids and metadata

All remote input is untrusted: advertised metadata is parsed leniently, every server-controlled
field is set locally, ids are checked, and patches are allow-listed.
-/

def maxStr : Nat := 4096

def isIdByte (b : UInt8) : Bool :=
  (0x30 ≤ b && b ≤ 0x39) || (0x41 ≤ b && b ≤ 0x5A) || (0x61 ≤ b && b ≤ 0x7A) ||
    b == 0x2E || b == 0x5F || b == 0x2D

/-- Only `[A-Za-z0-9._-]`, between 1 and 64 bytes. -/
def isValidRemoteId (id : String) : Bool :=
  let bytes := asBytes id
  1 ≤ bytes.length && bytes.length ≤ 64 && bytes.all isIdByte

def namespacedId (label remoteId : String) : String := label ++ "~" ++ remoteId

def boundStr (s : String) : String :=
  if maxStr < s.length then String.ofList (s.toList.take maxStr) else s

def boundedString (value : Json) (fallback : String) : String :=
  match value.asStr with
  | none => fallback
  | some s => boundStr s

def parseStatus (value : Json) : Option SessionStatus :=
  value.asStr.bind (ofName SessionStatus.all SessionStatus.name)

def parsePriorityReason (value : Json) : Option PriorityReason :=
  value.asStr.bind (ofName PriorityReason.all PriorityReason.name)

def parseColor (value : Json) : Option AnsiColor :=
  value.asStr.bind (ofName AnsiColor.all AnsiColor.name)

def asInteger (value : Json) : Option Int :=
  value.asF64.bind fun n => if n.den = 1 then some (saturateI64 n.num) else none

/-- Percentages are clamped, default to 0, and exist only in the normal state. -/
def parseProgress (value : Json) : Option TerminalProgress :=
  match ((value.get? "state").bind Json.asStr).bind (ofName ProgressState.all ProgressState.name) with
  | none => none
  | some .normal =>
    let percent := (((value.get? "value").bind asInteger).map fun v => max 0 (min 100 v)).getD 0
    some ⟨.normal, some (UInt8.ofNat percent.toNat)⟩
  | some state => some ⟨state, none⟩

/-! ## Patches -/

/-- A string field of an object, bounded. -/
def stringField (input : Json) (key : String) : Option String :=
  ((input.get? key).filter Json.isString).map fun v => boundedString v ""

/-- Fields outside the allow-list are dropped. -/
def sanitizeRemotePatch (input : Json) : SessionMetaPatch :=
  if ¬ input.isObject then {}
  else
    { status := (input.get? "status").bind parseStatus
      priorityReason := (input.get? "priorityReason").bind parsePriorityReason
      lastActivityAt := stringField input "lastActivityAt"
      attentionMatchedAt := (stringField input "attentionMatchedAt").map some
      attentionReason := (stringField input "attentionReason").map some
      completedAt := stringField input "completedAt"
      exitCode := ((input.get? "exitCode").bind Json.asI64).map wrapI32
      error := stringField input "error"
      cols := ((input.get? "cols").bind asInteger).map wrapU16
      rows := ((input.get? "rows").bind asInteger).map wrapU16
      name := stringField input "name"
      priority := ((input.get? "priority").bind Json.asF64).map saturateU16
      color := (input.get? "color").bind fun color =>
        if color.isNull then some none else (parseColor color).map some
      terminalTitle := stringField input "terminalTitle"
      progress := (input.get? "progress").bind fun progress =>
        if progress.isNull then some none else (parseProgress progress).map some }

/-! ## Full metadata -/

/-- A bounded string, absent when the advertised one is empty or no string. -/
def nonEmptyString (remote : Json) (key : String) : Option String :=
  match ((remote.get? key).getD .null).asStr with
  | some s => if s ≠ "" then some (boundStr s) else none
  | none => none

def stringOr (remote : Json) (key fallback : String) : String :=
  let s := boundedString ((remote.get? key).getD .null) ""
  if s = "" then fallback else s

def toLocalMeta (remote : Json) (label localId socketPath now : String) : SessionMeta :=
  let get (key : String) : Json := (remote.get? key).getD .null
  { id := localId
    command := ((get "command").asArray.getD []).map fun c => boundedString c ""
    displayCommand := boundedString (get "displayCommand") ""
    cwd := boundedString (get "cwd") ""
    status := (parseStatus (get "status")).getD .running
    priorityReason := (parsePriorityReason (get "priorityReason")).getD .running
    daemonPid := none
    cols := ((asInteger (get "cols")).map wrapU16).getD 80
    rows := ((asInteger (get "rows")).map wrapU16).getD 24
    headless := (get "headless").asBool
    socketPath := socketPath
    clientVersion := nonEmptyString remote "clientVersion"
    createdAt := stringOr remote "createdAt" now
    updatedAt := now
    lastActivityAt := stringOr remote "lastActivityAt" now
    attentionMatchedAt := none
    attentionReason := none
    completedAt := (get "completedAt").asStr.map fun _ => boundedString (get "completedAt") ""
    exitCode := (get "exitCode").asI64.map wrapI32
    error := none
    origin := some .remote
    clientLabel := some label
    name := nonEmptyString remote "name"
    priority := (get "priority").asF64.map saturateU16
    color :=
      if (get "color").isNull ∧ (remote.get? "color").isSome then some none
      else (parseColor (get "color")).map some
    theme := nonEmptyString remote "theme"
    userPaused := none
    terminalTitle := nonEmptyString remote "terminalTitle"
    attentionSnippet := none
    progress := if (get "progress").isNull then none else parseProgress (get "progress") }

/-! ## Ids -/

theorem tilde_notMem_of_valid {id : String} (h : isValidRemoteId id = true) :
    '~' ∉ id.toList := by
  intro hmem
  have hbyte : (0x7E : UInt8) ∈ asBytes id :=
    List.mem_flatMap.mpr ⟨'~', hmem, by decide⟩
  unfold isValidRemoteId at h
  dsimp only at h
  rw [Bool.and_eq_true, List.all_eq_true] at h
  exact absurd (h.2 _ hbyte) (by decide)

theorem namespacedId_toList (label remoteId : String) :
    (namespacedId label remoteId).toList = label.toList ++ '~' :: remoteId.toList := by
  unfold namespacedId
  rw [String.toList_append, String.toList_append, List.append_assoc]
  rfl

/-- What is in front of the first separator, and what is behind it. -/
theorem append_cons_inj {α : Type} {a : α} {front front' back back' : List α}
    (h : a ∉ front) (h' : a ∉ front') (heq : front ++ a :: back = front' ++ a :: back') :
    front = front' ∧ back = back' := by
  induction front generalizing front' with
  | nil =>
    cases front' with
    | nil => exact ⟨rfl, (List.cons.inj heq).2⟩
    | cons b front' =>
      rw [List.mem_cons, not_or] at h'
      exact absurd (List.cons.inj heq).1 h'.1
  | cons b front ih =>
    rw [List.mem_cons, not_or] at h
    cases front' with
    | nil => exact absurd (List.cons.inj heq).1.symm h.1
    | cons b' front' =>
      rw [List.mem_cons, not_or] at h'
      obtain ⟨hb, hrest⟩ := List.cons.inj heq
      obtain ⟨hfront, hback⟩ := ih h.2 h'.2 hrest
      exact ⟨by rw [hb, hfront], hback⟩

/-- A namespaced id names its label and its remote id. -/
theorem namespacedId_inj {label label' remoteId remoteId' : String}
    (h : isValidRemoteId label = true) (h' : isValidRemoteId label' = true)
    (heq : namespacedId label remoteId = namespacedId label' remoteId') :
    label = label' ∧ remoteId = remoteId' := by
  have hlist := congrArg String.toList heq
  rw [namespacedId_toList, namespacedId_toList] at hlist
  obtain ⟨hlabel, hid⟩ := append_cons_inj (tilde_notMem_of_valid h) (tilde_notMem_of_valid h') hlist
  exact ⟨String.toList_inj.mp hlabel, String.toList_inj.mp hid⟩

/-! ## Bounds -/

theorem length_boundStr_le (s : String) : (boundStr s).length ≤ maxStr := by
  unfold boundStr
  split
  · rw [String.length_ofList, List.length_take]
    exact Nat.min_le_left _ _
  next h => exact Nat.not_lt.mp h

theorem length_boundedString_le (value : Json) : (boundedString value "").length ≤ maxStr := by
  unfold boundedString
  split
  · exact Nat.zero_le _
  · exact length_boundStr_le _

end Climon.Remote.Sanitize
