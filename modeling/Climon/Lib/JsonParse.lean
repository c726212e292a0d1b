import Climon.Lib.JavaScript
import Climon.Lib.JsonText

namespace Climon.Lib.JsonParse

open Climon.Lib.JavaScript Climon.Lib.Utf16
open Climon.Lib.JsonText (Token isNumber lex readUnits)

/-!
# `JSON.parse`

The tokens of a text put together to the value a script sees: strings are any code units, numbers
are doubles, and a text nests as deep as it likes.
-/

/-- What surrounds the value that is read. -/
inductive Frame where
  | array (items : List JsValue)
  | object (props : Props) (key : List UInt16)

inductive Parser where
  | value (stack : List Frame)
  | firstItem (stack : List Frame)
  | firstKey (stack : List Frame)
  | key (props : Props) (stack : List Frame)
  | colon (props : Props) (key : List UInt16) (stack : List Frame)
  | after (value : JsValue) (stack : List Frame)

def Parser.finish : Parser → Option JsValue
  | .after result [] => some result
  | _ => none

/-- A repeated key keeps its place and takes the later value. -/
def define (props : Props) (key : List UInt16) (value : JsValue) : Props :=
  if props.any fun prop => prop.1 == key then
    props.map fun prop => if prop.1 = key then (key, value) else prop
  else props ++ [(key, value)]

def readWord (text : List Char) : Option JsValue :=
  if text = "null".toList then some .null
  else if text = "true".toList then some (.bool true)
  else if text = "false".toList then some (.bool false)
  else if isNumber text then (stringToNumber (encode (String.ofList text))).map .number
  else none

def startValue (stack : List Frame) : Token → Option Parser
  | .word text => (readWord text).map (.after · stack)
  | .string raw => (readUnits raw).map fun units => .after (.string units) stack
  | .mark .openArray => some (.firstItem stack)
  | .mark .openObject => some (.firstKey stack)
  | .mark _ => none

def step : Parser → Token → Option Parser
  | .value stack, token => startValue stack token
  | .firstItem stack, .mark .closeArray => some (.after (.array []) stack)
  | .firstItem stack, token => startValue (.array [] :: stack) token
  | .firstKey stack, .mark .closeObject => some (.after (.object []) stack)
  | .firstKey stack, .string raw => (readUnits raw).map (.colon [] · stack)
  | .key props stack, .string raw => (readUnits raw).map (.colon props · stack)
  | .colon props key stack, .mark .colon => some (.value (.object props key :: stack))
  | .after value (.array items :: stack), .mark .comma =>
    some (.value (.array (items ++ [value]) :: stack))
  | .after value (.array items :: stack), .mark .closeArray =>
    some (.after (.array (items ++ [value])) stack)
  | .after value (.object props key :: stack), .mark .comma =>
    some (.key (define props key value) stack)
  | .after value (.object props key :: stack), .mark .closeObject =>
    some (.after (.object (define props key value)) stack)
  | _, _ => none

/-- `none` is a syntax error. -/
def parse (text : List Char) : Option JsValue :=
  (lex .refused text).bind fun tokens => (tokens.foldlM step (.value [])).bind Parser.finish

end Climon.Lib.JsonParse
