import Quartr.Data.JsonResult
import Quartr.Model.Mapping

/-! # Documents as texts

`json.loads`, `json.dumps` and their counterparts on files, over the values the service works with. A file is
read and written as UTF-8. How floats are written and read is a parameter.
-/

namespace Quartr.Model.Mapping

open Quartr.Data.Json (Value FloatText Layout)
open Quartr.Numeric

namespace Json

mutual

def toValue : Json → Value Binary64
  | null => .null
  | bool value => .bool value
  | int value => .int value
  | float value => .float value
  | str text => .str text
  | arr items => .arr (toValues items)
  | obj fields => .obj (toFields fields)

def toValues : List Json → List (Value Binary64)
  | [] => []
  | item :: items => toValue item :: toValues items

def toFields : List (String × Json) → List (String × Value Binary64)
  | [] => []
  | (key, value) :: fields => (key, toValue value) :: toFields fields

end

mutual

def ofValue : Value Binary64 → Json
  | .null => null
  | .bool value => bool value
  | .int value => int value
  | .float value => float value
  | .str text => str text
  | .arr items => arr (ofValues items)
  | .obj fields => obj (ofFields fields)

def ofValues : List (Value Binary64) → List Json
  | [] => []
  | item :: items => ofValue item :: ofValues items

def ofFields : List (String × Value Binary64) → List (String × Json)
  | [] => []
  | (key, value) :: fields => (key, ofValue value) :: ofFields fields

end

end Json

/-- The exception that the reader raises. A text with half a surrogate pair is outside of the model. -/
def Exc.ofError : Data.Json.Error → Exc
  | .malformed => .jsonDecode
  | .digits => .value "Exceeds the limit (4300 digits) for integer string conversion"
  | .surrogate => .other
  | .exhausted => .other

variable (float : FloatText Binary64)

/-- `json.loads(text)`. -/
def loads (text : String) : Except Exc Json :=
  match Data.Json.read float text.toList with
  | .error error => .error (.ofError error)
  | .ok value => .ok (.ofValue value)

/-- `json.dumps(value)` on one line, or `json.dumps(value, indent=2)`. -/
def dumps (layout : Layout) (value : Json) : String := String.ofList (Data.Json.write float layout 0 value.toValue)

/-- `text.encode()`. -/
def encode (text : String) : Bytes := text.toUTF8.data.toList

/-- The text of a file, if it is one. -/
def decode? (content : Bytes) : Option String := String.fromUTF8? ⟨content.toArray⟩

/-- Python with its own reader and writer of files; line ends are blanks to the reader, however a file has them. -/
def Python.withJson (python : Python) : Python :=
  { python with
    loads := fun content =>
      match decode? content with
      | none => .error .unicodeDecode
      | some text => Mapping.loads float text
    dumps := fun value => .ok (encode (Mapping.dumps float (.indented 2) value)) }

/-- The value can be written and is read again as it is. -/
def Json.Sound (value : Json) : Prop := Data.Json.Sound float value.toValue

end Quartr.Model.Mapping
