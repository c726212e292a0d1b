import Climon.Store.Format
import Climon.Store.Meta

namespace Climon.Server.SessionEdit

open Climon.Lib.JavaScript Climon.Lib.JavaScript.JsValue Climon.Lib.JsonAgreement
  Climon.Lib.JsonDocument Climon.Lib.JsonSchema Climon.Lib.Utf16 Climon.Proto.Meta
  Climon.Store.Format

/-!
# Dashboard edits of a session

`PATCH /api/sessions/:id` and the server's side of the store: untyped objects, read with the
overlay, spread and written back.
-/

/-- The body of a 400 response. The texts of type errors are the engine's. -/
inductive EditError where
  | message (text : List UInt16)
  | typeError

abbrev Change := String × Option JsValue

def text (s : String) : JsValue := .string (encode s)

/-! ## The store -/

def userPausedOverlayStatuses : List String :=
  ["running", "acknowledged", "needs-attention", "paused"]

def isOneOf (names : List String) : Option JsValue → Bool
  | some (.string units) => names.any fun name => units == encode name
  | _ => false

def applyUserPausedOverlay (current : Props) : Props :=
  if !(current.get? "userPaused").any truthy ||
      !isOneOf userPausedOverlayStatuses (current.get? "status") then
    current
  else
    current.spread [("status", some (text "paused")), ("priorityReason", some (text "running")),
      ("attentionMatchedAt", none), ("attentionReason", none)]

def readSessionMeta (file : Fields) : Props := applyUserPausedOverlay (ofFields file)

/-- `patchSessionMetaQueued` under the lock: what is written, and reported. -/
def patchSessionMeta (file : Fields) (changes : List Change)
    (validateCurrent : Props → Except EditError Unit) (now : String) : Except EditError Props := do
  let current := readSessionMeta file
  validateCurrent current
  return current.spread (changes ++ [("updatedAt", some (text now))])

/-- What `cleanupStaleSessions` writes. -/
def disconnectSession (file : Fields) (now : String) : Except EditError Props :=
  patchSessionMeta file
    [("status", some (text "disconnected")), ("priorityReason", some (text "disconnected"))]
    (fun _ => .ok ()) now

/-! ## The request body -/

def property (body : JsValue) (key : String) : Except EditError (Option JsValue) :=
  match body with
  | .null => .error .typeError
  | .object props => .ok (Props.get? props key)
  | _ => .ok none

/-- `String(value)` -/
def coerce (value : JsValue) : Except EditError (List UInt16) :=
  match value.toText with
  | some units => .ok units
  | none => .error .typeError

def priorityError (front : String) (value : List UInt16) : EditError :=
  .message (encode front ++ encode " (got \"" ++ value ++ encode "\").")

/-- `typeof value === "number" ? value : Number(value.trim())` -/
def priorityNumber : JsValue → Except EditError (Option Double)
  | .number n => .ok (some n)
  | .string units => .ok (stringToNumber (trim units))
  | _ => .error .typeError

def parsePriority (value : JsValue) : Except EditError Double := do
  let n ← priorityNumber value
  let shown ← coerce value
  match n with
  | some (.finite q) =>
    if q.den ≠ 1 then
      throw (priorityError "Priority must be an integer between 0 and 1000" shown)
    else if q < 0 ∨ 1000 < q then
      throw (priorityError "Priority must be between 0 and 1000" shown)
    else return .finite q
  | _ => throw (priorityError "Priority must be an integer between 0 and 1000" shown)

def ansiColors : List String :=
  ["black", "red", "green", "yellow", "blue", "magenta", "cyan", "white"]

def parseColor (value : List UInt16) : Except EditError JsValue :=
  let normalized := toLowerCase (trim value)
  if normalized = [] ∨ normalized = encode "none" then .ok .null
  else if ansiColors.any fun name => normalized == encode name then .ok (.string normalized)
  else
    .error (.message (encode ("Color must be one of: none, " ++ ", ".intercalate ansiColors ++
      " (got \"") ++ value ++ encode "\")."))

def parseBrowserStatusPatch (value : JsValue) : Except EditError String :=
  if isOneOf ["paused"] value then .ok "paused"
  else if isOneOf ["running"] value then .ok "running"
  else .error (.message (encode "Invalid status; expected paused or running"))

def validateBrowserStatusTransition (current : Option JsValue) (next : String) :
    Except EditError Unit :=
  if next = "paused" ∧ isOneOf userPausedOverlayStatuses current then .ok ()
  else if next ≠ "paused" ∧ isOneOf ["paused"] current then .ok ()
  else
    let shown := ((current.map toText).getD (some (encode "undefined"))).getD []
    .error (.message (encode "Invalid status transition from " ++ shown ++ encode (" to " ++ next)))

def givenName (body : JsValue) : Except EditError (Option (List UInt16)) := do
  match ← property body "name" with
  | none => return none
  | some value => return some (← coerce value)

/-- A null theme is given as the empty text. -/
def givenTheme (body : JsValue) : Except EditError (Option (List UInt16)) := do
  match ← property body "theme" with
  | none => return none
  | some .null => return some []
  | some value => return some (← coerce value)

def nameChange (body : JsValue) : Except EditError (List Change) := do
  match ← givenName body with
  | none => return []
  | some name => return [("name", some (.string name))]

def priorityChange (body : JsValue) : Except EditError (List Change) := do
  match ← property body "priority" with
  | none => return []
  | some value => return [("priority", some (.number (← parsePriority value)))]

def colorChange (body : JsValue) : Except EditError (List Change) := do
  match ← property body "color" with
  | none => return []
  | some .null => return [("color", some .null)]
  | some value => return [("color", some (← parseColor (← coerce value)))]

/-- A blank theme clears the field. -/
def themeChange (body : JsValue) : Except EditError (List Change) := do
  match ← givenTheme body with
  | none => return []
  | some theme => return [("theme", if trim theme = [] then none else some (.string theme))]

def requestedStatus (body : JsValue) : Except EditError (Option String) := do
  match ← property body "status" with
  | none => return none
  | some value => return some (← parseBrowserStatusPatch value)

def statusChanges : Option String → List Change
  | none => []
  | some requested =>
    [("status", some (text requested)), ("priorityReason", some (text "running")),
      ("userPaused", some (.bool (requested = "paused")))] ++
    if requested = "running" then [("attentionMatchedAt", none), ("attentionReason", none)] else []

/-- What the body asks for: the changes, and the status among them. -/
def sessionPatch (body : JsValue) : Except EditError (List Change × Option String) := do
  let name ← nameChange body
  let priority ← priorityChange body
  let color ← colorChange body
  let theme ← themeChange body
  let requested ← requestedStatus body
  return (name ++ priority ++ color ++ theme ++ statusChanges requested, requested)

/-- The handler of `PATCH /api/sessions/:id` for a session that exists: the updated metadata, which
is the response and the new file, or the 400 response. -/
def editSession (file : Fields) (body : JsValue) (now : String) : Except EditError Props := do
  let (changes, requested) ← sessionPatch body
  let validateCurrent (current : Props) : Except EditError Unit :=
    match requested with
    | none => .ok ()
    | some next => validateBrowserStatusTransition (current.get? "status") next
  patchSessionMeta file changes validateCurrent now

end Climon.Server.SessionEdit
