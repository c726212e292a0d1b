import Climon.Lib.JsonDocument
import Mathlib.Algebra.Order.Field.Rat
import Mathlib.Data.Nat.Log
import Mathlib.Data.Rat.Floor

namespace Climon.Lib.JavaScript

open Climon.Lib.JsonDocument Climon.Lib.Utf16

/-! # JavaScript values that come from JSON -/

/-! ## Numbers -/

/-- A double that JSON can produce. Zero has no sign here: nothing below tells the two apart. -/
inductive Double where
  | finite (q : Rat)
  | infinite (negative : Bool)
  deriving DecidableEq, Repr

def power (base : Nat) (n : Int) : Rat :=
  if 0 ≤ n then (base : Rat) ^ n.toNat else 1 / (base : Rat) ^ (-n).toNat

/-- The nearest multiple of a unit, ties to the even one. -/
def roundTo (unit q : Rat) : Rat :=
  let quotient := (q / unit).floor
  let rest := q / unit - quotient
  if 1 / 2 < rest ∨ rest = 1 / 2 ∧ quotient % 2 = 1 then (quotient + 1) * unit
  else quotient * unit

/-- The nearest double: 53 significant bits, the last one not below `2 ^ (-1074)`. -/
def toDouble (q : Rat) : Double :=
  if q = 0 then .finite 0
  else
    let estimate : Int := q.num.natAbs.log2 - q.den.log2
    let exponent := if power 2 estimate ≤ |q| then estimate else estimate - 1
    let rounded := roundTo (power 2 (max (exponent - 52) (-1074))) |q|
    if power 2 1024 ≤ rounded then .infinite (q < 0)
    else .finite (if q < 0 then -rounded else rounded)

namespace Double

def isInteger : Double → Bool
  | .finite q => q.den = 1
  | .infinite _ => false

/-- The fewest digits that read back as the double, and where the point stands: `0.digits`
times ten to the `point`. -/
def shortest (q : Rat) : List Char × Int :=
  let estimate : Int := Nat.log 10 q.num.natAbs - Nat.log 10 q.den
  let point := if power 10 estimate ≤ q then estimate + 1 else estimate
  let candidates : List (Int × Nat) := (List.range 17).flatMap fun k : Nat =>
    let unit := power 10 (point - (k + 1 : Nat))
    let low : Int := (q / unit).floor
    let near : List Int := if q / unit - low ≤ 1 / 2 then [low, low + 1] else [low + 1, low]
    (near.filter fun s : Int => toDouble ((s : Rat) * unit) = .finite q).map fun s => (s, k + 1)
  match candidates with
  | [] => ([], point)
  | (s, k) :: _ =>
    if s = (10 : Int) ^ k then (['1'], point + 1) else (s.natAbs.repr.toList, point)

/-- `Number.prototype.toString` -/
def toText : Double → String
  | .infinite negative => if negative then "-Infinity" else "Infinity"
  | .finite q =>
    if q.den = 1 ∧ q.num.natAbs ≤ 2 ^ 53 then toString q.num
    else
      let (digits, point) := shortest |q|
      let count : Int := digits.length
      let sign := if q < 0 then "-" else ""
      let zeros (n : Int) := List.replicate n.toNat '0'
      let exponent := point - 1
      sign ++ String.ofList (
        if count ≤ point ∧ point ≤ 21 then digits ++ zeros (point - count)
        else if 0 < point ∧ point ≤ 21 then
          digits.take point.toNat ++ '.' :: digits.drop point.toNat
        else if -6 < point ∧ point ≤ 0 then '0' :: '.' :: zeros (-point) ++ digits
        else
          digits.take 1 ++ (if count = 1 then [] else '.' :: digits.drop 1) ++
            'e' :: (if exponent < 0 then '-' else '+') :: exponent.natAbs.repr.toList)

end Double

/-! ## Values -/

inductive JsValue where
  | null
  | bool (b : Bool)
  | number (n : Double)
  | string (units : List UInt16)
  | array (items : List JsValue)
  | object (props : List (List UInt16 × JsValue))

/-- The properties of an object, in no particular order. -/
abbrev Props := List (List UInt16 × JsValue)

namespace Props

/-- `none` is undefined. -/
def get? (props : Props) (key : String) : Option JsValue := props.lookup (encode key)

/-- A property set to undefined reads as absent and is not written. -/
def assign (props : Props) (key : String) (value : Option JsValue) : Props :=
  let others := props.filter fun prop => prop.1 != encode key
  match value with
  | none => others
  | some v => (encode key, v) :: others

/-- `{ ...props, ...changes }` -/
def spread (props : Props) (changes : List (String × Option JsValue)) : Props :=
  changes.foldl (fun props change => props.assign change.1 change.2) props

end Props

namespace JsValue

def ofLiteral : Literal → Double
  | .integer n => toDouble n
  | .decimal q => .finite q
  | .huge negative => .infinite negative

mutual

/-- `JSON.parse` -/
def ofDoc : Doc → JsValue
  | .null => .null
  | .bool b => .bool b
  | .number literal => .number (ofLiteral literal)
  | .string units => .string units
  | .array items => .array (ofItems items)
  | .object fields => .object (ofFields fields)

def ofItems : List Doc → List JsValue
  | [] => []
  | item :: items => ofDoc item :: ofItems items

/-- Of a repeated key the last one counts. -/
def ofFields : List (List UInt16 × Doc) → List (List UInt16 × JsValue)
  | [] => []
  | (key, value) :: fields =>
    let rest := ofFields fields
    if rest.any fun prop => prop.1 == key then rest else (key, ofDoc value) :: rest

end

def toLiteral (q : Rat) : Literal :=
  if q.den = 1 ∧ q.num.natAbs < 10 ^ 21 then .integer q.num else .decimal q

mutual

/-- `JSON.stringify`, which writes lone surrogates as escapes. -/
def toDoc : JsValue → Doc
  | .null => .null
  | .bool b => .bool b
  | .number (.finite q) => .number (toLiteral q)
  | .number (.infinite _) => .null
  | .string units => .string units
  | .array items => .array (toItems items)
  | .object props => .object (toFields props)

def toItems : List JsValue → List Doc
  | [] => []
  | item :: items => toDoc item :: toItems items

def toFields : List (List UInt16 × JsValue) → List (List UInt16 × Doc)
  | [] => []
  | (key, value) :: props => (key, toDoc value) :: toFields props

end

def isNull : JsValue → Bool
  | .null => true
  | _ => false

mutual

/-- `String(value)`, `none` where it throws: an own `toString` shadows the inherited one, and
JSON values cannot be called. -/
def toText : JsValue → Option (List UInt16)
  | .null => some (encode "null")
  | .bool b => some (encode (if b then "true" else "false"))
  | .number n => some (encode n.toText)
  | .string units => some units
  | .array items => joinItems items
  | .object props =>
    if (Props.get? props "toString").isSome then none else some (encode "[object Object]")

/-- The texts of the items, nulls left empty, with commas between them. -/
def joinItems : List JsValue → Option (List UInt16)
  | [] => some []
  | item :: items =>
    let front := if item.isNull then some [] else item.toText
    if items.isEmpty then front
    else
      front.bind fun front =>
        (joinItems items).map fun back => front ++ encode "," ++ back

end

def truthy : JsValue → Bool
  | .null => false
  | .bool b => b
  | .number n => n ≠ .finite 0
  | .string units => units ≠ []
  | .array _ | .object _ => true

end JsValue

/-! ## Texts -/

def isSpace (u : UInt16) : Bool :=
  (0x09 ≤ u && u ≤ 0x0D) || u == 0x20 || u == 0xA0 || u == 0x1680 || (0x2000 ≤ u && u ≤ 0x200A) ||
    u == 0x2028 || u == 0x2029 || u == 0x202F || u == 0x205F || u == 0x3000 || u == 0xFEFF

/-- `String.prototype.trim` -/
def trim (units : List UInt16) : List UInt16 :=
  ((units.dropWhile isSpace).reverse.dropWhile isSpace).reverse

/-- `String.prototype.toLowerCase`, for comparisons with ASCII texts: besides the letters, only
the Kelvin sign has an ASCII lower case. -/
def toLowerCase (units : List UInt16) : List UInt16 :=
  units.map fun u =>
    if 0x41 ≤ u ∧ u ≤ 0x5A then u + 0x20 else if u = 0x212A then 0x6B else u

def digitValue (u : UInt16) : Option Nat :=
  if 0x30 ≤ u ∧ u ≤ 0x39 then some (u - 0x30).toNat
  else if 0x41 ≤ u ∧ u ≤ 0x5A then some (u - 0x37).toNat
  else if 0x61 ≤ u ∧ u ≤ 0x7A then some (u - 0x57).toNat
  else none

/-- A numeral of at least one digit. -/
def numeral (base : Nat) : List UInt16 → Option Nat
  | [] => none
  | units => units.foldlM (fun n u =>
      (digitValue u).bind fun d => if d < base then some (n * base + d) else none) 0

/-- Digits with an optional point and an optional exponent. -/
def unsignedDecimal (units : List UInt16) : Option Rat :=
  let isDigit := fun u : UInt16 => 0x30 ≤ u && u ≤ 0x39
  let whole := units.takeWhile isDigit
  let rest := units.dropWhile isDigit
  let (fraction, rest) :=
    if rest.head? = some 0x2E then (rest.tail.takeWhile isDigit, rest.tail.dropWhile isDigit)
    else ([], rest)
  let exponent : Option Int :=
    match rest with
    | [] => some 0
    | e :: rest =>
      if e = 0x45 ∨ e = 0x65 then
        if rest.head? = some 0x2D then (numeral 10 rest.tail).map fun n => -(n : Int)
        else if rest.head? = some 0x2B then (numeral 10 rest.tail).map fun n => (n : Int)
        else (numeral 10 rest).map fun n => (n : Int)
      else none
  (numeral 10 (whole ++ fraction)).bind fun mantissa =>
    exponent.map fun exponent => mantissa * power 10 (exponent - fraction.length)

/-- `Number(text)`, `none` for NaN. -/
def stringToNumber (text : List UInt16) : Option Double :=
  let units := trim text
  let unsigned (negative : Bool) (units : List UInt16) : Option Double :=
    if units = encode "Infinity" then some (.infinite negative)
    else (unsignedDecimal units).map fun q => toDouble (if negative then -q else q)
  let radix (base : Nat) := (numeral base (units.drop 2)).map fun n => toDouble n
  let front := toLowerCase (units.take 2)
  if units = [] then some (.finite 0)
  else if front = encode "0x" then radix 16
  else if front = encode "0o" then radix 8
  else if front = encode "0b" then radix 2
  else if units.head? = some 0x2D then unsigned true units.tail
  else if units.head? = some 0x2B then unsigned false units.tail
  else unsigned false units

end Climon.Lib.JavaScript
