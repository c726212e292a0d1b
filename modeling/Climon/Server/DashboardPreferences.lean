import Climon.Config.ConfigMerge
import Climon.Lib.Utf16

namespace Climon.Server.DashboardPreferences

open Climon.Config.ConfigMerge Climon.Lib.AssocList Climon.Lib.Utf16 Climon.Lib.ValueTree

/-!
# The settings that the dashboard may write

A browser sends a key and a value. Of all settings only those marked as writable are taken, each
with values of its own type that pass its own check.
-/

/-! ## The settings -/

inductive SettingType where
  | boolean
  | string
  deriving DecidableEq, Repr

def SettingType.name : SettingType → Key
  | .boolean => encode "boolean"
  | .string => encode "string"

/-- A path of two segments, neither of them empty. -/
def splitDottedPath (path : String) : Option (Key × Key) :=
  match path.toList.splitOn '.' with
  | [section', field] =>
    if section' = [] ∨ field = [] then none
    else some (encode (String.ofList section'), encode (String.ofList field))
  | _ => none

/-- The code throws at a path that is not of two segments. -/
structure Setting where
  path : String
  dotted : (splitDottedPath path).isSome
  type : SettingType
  defaultValue : Value
  validate : Value → Except (List UInt16) Unit

def Setting.segments (setting : Setting) : Key × Key :=
  (splitDottedPath setting.path).get setting.dotted

def bool (b : Bool) : Value := .atom (.bool b)

def text (units : List UInt16) : Value := .atom (.string units)

/-- A check that only a boolean passes. -/
def mustBeBoolean (path : String) : Value → Except (List UInt16) Unit
  | .atom (.bool _) => .ok ()
  | _ => .error (encode (path ++ " must be a boolean"))

section Settings

variable (isThemeName : List UInt16 → Bool)

def validateTheme : Value → Except (List UInt16) Unit
  | .atom (.string name) =>
    if isThemeName name then .ok ()
    else .error (encode "dashboard.theme is not a recognised theme name: " ++ name)
  | _ => .error (encode "dashboard.theme is not a recognised theme name: ")

def theme : Setting where
  path := "dashboard.theme"
  dotted := by decide
  type := .string
  defaultValue := text (encode "Default")
  validate := validateTheme isThemeName

def keyBarPinned : Setting where
  path := "dashboard.keyBarPinned"
  dotted := by decide
  type := .boolean
  defaultValue := bool true
  validate := mustBeBoolean "dashboard.keyBarPinned"

def touchWheelInverted : Setting where
  path := "dashboard.touchWheelInverted"
  dotted := by decide
  type := .boolean
  defaultValue := bool false
  validate := mustBeBoolean "dashboard.touchWheelInverted"

def stateIconNoMotion : Setting where
  path := "dashboard.stateIconNoMotion"
  dotted := by decide
  type := .boolean
  defaultValue := bool false
  validate := mustBeBoolean "dashboard.stateIconNoMotion"

def dashboardWritableSettings : List Setting :=
  [theme isThemeName, keyBarPinned, touchWheelInverted, stateIconNoMotion]

end Settings

/-! ## Reading and writing a dotted path -/

def readDotted (config : ClimonConfig) (path : Key × Key) : Option Value :=
  member (config.props.lookup path.1) path.2

/-- An array is an object too, but a field set on it is in no file. -/
def withField (existing : Option Value) (field : Key) (value : Scalar) : Value :=
  match existing with
  | some (.list items) => .list items
  | existing => .record (setOwnDataProperty (baseOf existing) field (.atom value))

theorem wellFormed_withField {existing : Option Value} (h : Formed existing) (field : Key)
    (value : Scalar) : (withField existing field value).WellFormed := by
  have hrecord := wellFormed_setOwnDataProperty (wellFormed_baseOf h) (.atom value) field
  match existing with
  | some (.list items) => exact h _ rfl
  | none | some (.atom _) | some (.record _) => exact hrecord

def writeDotted (config : ClimonConfig) (path : Key × Key) (value : Scalar) : ClimonConfig where
  props := setOwnDataProperty config.props path.1
    (withField (config.props.lookup path.1) path.2 value)
  wellFormed := wellFormed_setOwnDataProperty config.wellFormed
    (wellFormed_withField (formed_lookup config.wellFormed path.1) path.2 value) path.1

/-! ## Requests -/

/-- The body of a request. -/
structure Request where
  key : Key
  value : Option Value

structure Failure where
  status : Nat
  error : List UInt16
  deriving DecidableEq

/-- The value, where it has the type. -/
def ofType : SettingType → Option Value → Option Scalar
  | .boolean, some (.atom (.bool b)) => some (.bool b)
  | .string, some (.atom (.string units)) => some (.string units)
  | _, _ => none

section Apply

variable (isThemeName : List UInt16 → Bool) (request : Request)

/-- The path and the value to be written. -/
def checked : Except Failure ((Key × Key) × Scalar) :=
  let setting? := (dashboardWritableSettings isThemeName).find? fun setting =>
    encode setting.path == request.key
  match setting? with
  | none => .error ⟨400, encode "Unknown or non-writable preference: " ++ request.key⟩
  | some setting =>
    match ofType setting.type request.value with
    | none => .error ⟨400, request.key ++ encode " must be a " ++ setting.type.name⟩
    | some value =>
      match setting.validate (.atom value) with
      | .error message => .error ⟨400, message⟩
      | .ok () => .ok (setting.segments, value)

def applyDashboardPreference (config : ClimonConfig) : Except Failure ClimonConfig :=
  (checked isThemeName request).map fun (path, value) => writeDotted config path value

end Apply

/-- The value of every setting, or its default. -/
def collectDashboardPreferences (isThemeName : List UInt16 → Bool) (config : ClimonConfig) :
    List (String × Value) :=
  (dashboardWritableSettings isThemeName).map fun setting =>
    (setting.path, (readDotted config setting.segments).getD setting.defaultValue)

/-! ## What a request changes -/

section Changes

variable {config other : ClimonConfig} {path : Key × Key} {value : Scalar}

theorem member_setOwnDataProperty (target : Properties) (key name : Key) (value : Value) :
    (setOwnDataProperty target key value).lookup name =
      if name = key then some value else target.lookup name := by
  unfold setOwnDataProperty
  split
  next h => rw [h, List.lookup_cons_self]
  next h =>
    rw [List.lookup_cons, beq_eq_false_iff_ne.mpr h]
    exact lookup_deleteProperty_of_ne target h

theorem member_writeDotted (config : ClimonConfig) (path : Key × Key) (value : Scalar) (key : Key) :
    member (writeDotted config path value).root key =
      if key = path.1 then some (withField (member config.root path.1) path.2 value)
      else member config.root key :=
  member_setOwnDataProperty config.props path.1 key _

theorem isRecord_root (config : ClimonConfig) : isRecord config.root = true := rfl

theorem same_withField {existing others : Option Value} (h : Same existing others) (field : Key)
    (value : Scalar) :
    Same (some (withField existing field value)) (some (withField others field value)) := by
  have hrecord : Same
      (some (.record (setOwnDataProperty (baseOf existing) field (.atom value))))
      (some (.record (setOwnDataProperty (baseOf others) field (.atom value)))) := by
    rw [same_record_iff]
    intro key
    rw [member_setOwnDataProperty, member_setOwnDataProperty]
    split
    · rfl
    · rw [lookup_baseOf, lookup_baseOf]
      exact h.member key
  have hsome := h.isSome
  cases existing with
  | none =>
    rw [same_none_iff.mp h.symm]
  | some t =>
    cases others with
    | none => cases hsome
    | some u =>
      have hnode := (same_some_iff.mp h).1
      cases t <;> cases u <;> first | exact hrecord | exact h | cases hnode

/-- Configs that say the same still do after the same write. -/
theorem same_writeDotted (h : Same config.root other.root) (path : Key × Key) (value : Scalar) :
    Same (writeDotted config path value).root (writeDotted other path value).root := by
  rw [same_iff_of_isRecord (isRecord_root _) (isRecord_root _)]
  intro key
  rw [member_writeDotted, member_writeDotted]
  split
  · exact same_withField (h.member path.1) path.2 value
  · exact h.member key

/-- Every default passes its own check. -/
theorem validate_default {isThemeName : List UInt16 → Bool}
    (htheme : isThemeName (encode "Default") = true) :
    ∀ setting ∈ dashboardWritableSettings isThemeName,
      setting.validate setting.defaultValue = .ok () := by
  intro setting hsetting
  simp only [dashboardWritableSettings, List.mem_cons, List.not_mem_nil, or_false] at hsetting
  rcases hsetting with rfl | rfl | rfl | rfl
  · exact if_pos htheme
  all_goals rfl

end Changes

end Climon.Server.DashboardPreferences
