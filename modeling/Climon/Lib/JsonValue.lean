import Mathlib.Algebra.Group.Int.Defs
import Mathlib.Algebra.Group.Nat.Defs
import Mathlib.Data.List.Basic

namespace Climon.Lib.JsonValue

/-! # JSON values and their numbers -/

/-- A parsed number: an integer literal that fits, or a finite double as the rational it is. -/
inductive Number where
  | posInt (n : UInt64)
  | negInt (n : Int64)
  | float (q : Rat)
  deriving DecidableEq, Repr

/-- The nearest multiple of the last of 53 significant bits, ties to even. -/
def roundToDouble (n : Nat) : Nat :=
  let unit := 2 ^ (n.log2 + 1 - 53)
  let quotient := n / unit
  let rest := n % unit
  if unit < 2 * rest ∨ 2 * rest = unit ∧ quotient % 2 = 1 then (quotient + 1) * unit
  else quotient * unit

def Number.asF64 : Number → Rat
  | .posInt n => (roundToDouble n.toNat : Nat)
  | .negInt n => (n.toInt.sign * roundToDouble n.toInt.natAbs : Int)
  | .float q => q

def Number.asI64 : Number → Option Int
  | .posInt n => if n.toNat < 2 ^ 63 then some n.toNat else none
  | .negInt n => some n.toInt
  | .float _ => none

/-- A cast from a double to a 64-bit integer, which saturates. -/
def saturateI64 (n : Int) : Int := max (-2 ^ 63) (min (2 ^ 63 - 1) n)

/-- A cast from a double to a 16-bit integer, which truncates and saturates. -/
def saturateU16 (q : Rat) : UInt16 := UInt16.ofNat (min 65535 q.floor.toNat)

/-- A narrowing cast between integers, which wraps. -/
def wrapU16 (n : Int) : UInt16 := UInt16.ofNat (n % 65536).toNat

def wrapI32 (n : Int) : Int32 := Int32.ofInt n

/-- Objects are maps: the fields have distinct keys. -/
inductive Json where
  | null
  | bool (b : Bool)
  | number (n : Number)
  | string (s : String)
  | array (items : List Json)
  | object (fields : List (String × Json))

namespace Json

/-- The value at a key, `none` for anything but an object that has it. -/
def get? : Json → String → Option Json
  | .object fields, key => fields.lookup key
  | _, _ => none

def isObject : Json → Bool
  | .object _ => true
  | _ => false

def isNull : Json → Bool
  | .null => true
  | _ => false

def asStr : Json → Option String
  | .string s => some s
  | _ => none

def isString (value : Json) : Bool := value.asStr.isSome

def asBool : Json → Option Bool
  | .bool b => some b
  | _ => none

def asArray : Json → Option (List Json)
  | .array items => some items
  | _ => none

def asF64 : Json → Option Rat
  | .number n => some n.asF64
  | _ => none

def asI64 : Json → Option Int
  | .number n => n.asI64
  | _ => none

@[elab_as_elim]
theorem induction {P : Json → Prop} (null : P .null) (bool : ∀ b, P (.bool b))
    (number : ∀ n, P (.number n)) (string : ∀ s, P (.string s))
    (array : ∀ items, (∀ item ∈ items, P item) → P (.array items))
    (object : ∀ fields, (∀ field ∈ fields, P field.2) → P (.object fields)) (value : Json) :
    P value :=
  @Json.rec P (fun items => ∀ item ∈ items, P item) (fun fields => ∀ field ∈ fields, P field.2)
    (fun field => P field.2) null bool number string array object nofun
    (fun _ _ hitem hitems => List.forall_mem_cons.mpr ⟨hitem, hitems⟩) nofun
    (fun _ _ hfield hfields => List.forall_mem_cons.mpr ⟨hfield, hfields⟩) (fun _ _ hvalue => hvalue)
    value

mutual

/-- How many containers stand around the innermost value, counting the outermost. -/
def nesting : Json → Nat
  | .array items => nestingItems items + 1
  | .object fields => nestingFields fields + 1
  | _ => 0

def nestingItems : List Json → Nat
  | [] => 0
  | item :: items => max (nesting item) (nestingItems items)

def nestingFields : List (String × Json) → Nat
  | [] => 0
  | (_, value) :: fields => max (nesting value) (nestingFields fields)

end

theorem nestingItems_le_iff {items : List Json} {n : Nat} :
    nestingItems items ≤ n ↔ ∀ item ∈ items, item.nesting ≤ n := by
  induction items with
  | nil => exact iff_of_true (Nat.zero_le n) nofun
  | cons item items ih => rw [nestingItems, Nat.max_le, ih, List.forall_mem_cons]

theorem nestingFields_le_iff {fields : List (String × Json)} {n : Nat} :
    nestingFields fields ≤ n ↔ ∀ field ∈ fields, field.2.nesting ≤ n := by
  induction fields with
  | nil => exact iff_of_true (Nat.zero_le n) nofun
  | cons field fields ih => rw [nestingFields, Nat.max_le, ih, List.forall_mem_cons]

mutual

/-- Another number in the place of each. -/
def mapNumbers (f : Number → Number) : Json → Json
  | .number n => .number (f n)
  | .array items => .array (mapItems f items)
  | .object fields => .object (mapFields f fields)
  | other => other

def mapItems (f : Number → Number) : List Json → List Json
  | [] => []
  | item :: items => mapNumbers f item :: mapItems f items

def mapFields (f : Number → Number) : List (String × Json) → List (String × Json)
  | [] => []
  | (key, value) :: fields => (key, mapNumbers f value) :: mapFields f fields

end

theorem mapItems_eq {f : Number → Number} {items : List Json} :
    mapItems f items = items.map (mapNumbers f) := by
  induction items with
  | nil => rfl
  | cons item items ih => rw [mapItems, ih, List.map_cons]

theorem mapFields_eq {f : Number → Number} {fields : List (String × Json)} :
    mapFields f fields = fields.map fun field => (field.1, mapNumbers f field.2) := by
  induction fields with
  | nil => rfl
  | cons field fields ih => rw [mapFields, ih, List.map_cons]

theorem nestingItems_map {f : Json → Json} {items : List Json}
    (h : ∀ item ∈ items, (f item).nesting = item.nesting) :
    nestingItems (items.map f) = nestingItems items := by
  induction items with
  | nil => rfl
  | cons item items ih =>
    rw [List.forall_mem_cons] at h
    rw [List.map_cons, nestingItems, nestingItems, h.1, ih h.2]

theorem nestingFields_map {f : Json → Json} {fields : List (String × Json)}
    (h : ∀ field ∈ fields, (f field.2).nesting = field.2.nesting) :
    nestingFields (fields.map fun field => (field.1, f field.2)) = nestingFields fields := by
  induction fields with
  | nil => rfl
  | cons field fields ih =>
    rw [List.forall_mem_cons] at h
    rw [List.map_cons, nestingFields, nestingFields, h.1, ih h.2]

@[simp] theorem nesting_mapNumbers {f : Number → Number} {value : Json} :
    (mapNumbers f value).nesting = value.nesting := by
  induction value using Json.induction with
  | array items ih => rw [mapNumbers, mapItems_eq, nesting, nesting, nestingItems_map ih]
  | object fields ih => rw [mapNumbers, mapFields_eq, nesting, nesting, nestingFields_map ih]
  | _ => rfl

theorem get?_of_not_object {value : Json} {key : String} (h : value.isObject = false) :
    value.get? key = none := by
  cases value with
  | object fields => cases h
  | _ => rfl

/-- Equal but for the values at some keys, where both may have anything or nothing. -/
def AgreeOff (keys : List String) (v w : Json) : Prop :=
  v = w ∨ v.isObject = true ∧ w.isObject = true ∧ ∀ key ∉ keys, v.get? key = w.get? key

theorem AgreeOff.get {keys : List String} {v w : Json} (h : AgreeOff keys v w) {key : String}
    (hkey : key ∉ keys) : v.get? key = w.get? key := by
  rcases h with rfl | ⟨-, -, h⟩
  · rfl
  · exact h key hkey

theorem AgreeOff.isObject {keys : List String} {v w : Json} (h : AgreeOff keys v w) :
    v.isObject = w.isObject := by
  rcases h with rfl | ⟨hv, hw, -⟩
  · rfl
  · rw [hv, hw]

end Json

end Climon.Lib.JsonValue
