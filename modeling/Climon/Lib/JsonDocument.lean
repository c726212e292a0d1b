import Climon.Lib.Utf16

namespace Climon.Lib.JsonDocument

open Climon.Lib.Utf16

/-!
# JSON documents

What every parser agrees on: strings are code units, escapes resolved, and a number literal with
a fraction, an exponent or a negative zero stands for the double it denotes.
-/

/-- `huge` is a fraction or an exponent past the largest double. -/
inductive Literal where
  | integer (n : Int)
  | decimal (q : Rat)
  | huge (negative : Bool)
  deriving DecidableEq, Repr

inductive Doc where
  | null
  | bool (b : Bool)
  | number (literal : Literal)
  | string (units : List UInt16)
  | array (items : List Doc)
  | object (fields : List (List UInt16 × Doc))

/-- The fields of an object as written, so a key can occur twice. -/
abbrev Fields := List (List UInt16 × Doc)

def Fields.get? (fields : Fields) (key : String) : Option Doc := fields.lookup (encode key)

/-! ## Typed decoding -/

namespace Doc

/-- A lone surrogate is an error. -/
def asString : Doc → Option String
  | .string units => decode units
  | _ => none

def asBool : Doc → Option Bool
  | .bool b => some b
  | _ => none

/-- Integer literals only, and only in the range of the type. -/
def asInteger (low high : Int) : Doc → Option Int
  | .number (.integer n) => if low ≤ n ∧ n ≤ high then some n else none
  | _ => none

def asArray {α : Type} (asItem : Doc → Option α) : Doc → Option (List α)
  | .array items => items.mapM asItem
  | _ => none

end Doc

/-- Every key decodes, and no known one is repeated. Unknown fields are skipped unread. -/
def Fields.wellFormed (known : List String) (fields : Fields) : Bool :=
  (fields.all fun field => (decode field.1).isSome) &&
    known.all fun key => (fields.map (·.1)).count (encode key) ≤ 1

section Decoders

variable {α : Type} (asValue : Doc → Option α) (fields : Fields) (key : String)

def Fields.required : Option α := (fields.get? key).bind asValue

/-- A field with a default: absent and null are both `none`. -/
def Fields.optional : Option (Option α) :=
  match fields.get? key with
  | none | some .null => some none
  | some value => (asValue value).map some

/-- Tells an absent field from an explicit null. -/
def Fields.doubleOption : Option (Option (Option α)) :=
  match fields.get? key with
  | none => some none
  | some .null => some (some none)
  | some value => (asValue value).map fun a => some (some a)

end Decoders

theorem decode_encode_isSome (key : String) : (decode (encode key)).isSome = true := by
  rw [decode_encode]
  rfl

end Climon.Lib.JsonDocument
