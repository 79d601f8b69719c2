import Quartr.Data.Dict
import Mathlib.Data.Int.Notation

/-! # JSON texts

The values of a document, their writer and their reader, as the `json` module of Python has them: `NaN` and
the infinities are values, what is no ASCII is written by escapes, of a key that is repeated the last value
counts, and an integer has at most 4300 digits. A text is its list of characters. How floats are written and
read is a parameter.
-/

namespace Quartr.Data.Json

inductive Value (φ : Type) where
  | null
  | bool (value : Bool)
  | int (value : ℤ)
  | float (value : φ)
  | str (text : String)
  | arr (items : List (Value φ))
  | obj (fields : List (String × Value φ))

/-- What the reader refuses: a text that is no JSON, an integer that is too long, and half a surrogate pair,
which no `String` holds. `exhausted` is the reader running out of fuel. -/
inductive Error where
  | malformed
  | digits
  | surrogate
  | exhausted
deriving DecidableEq

/-! ### Numbers -/

/-- The parts of a number as they stand in the text. -/
structure Literal where
  whole : List Char
  fraction : List Char
  exponent : List Char

def Literal.IsFloat (literal : Literal) : Prop := literal.fraction ≠ [] ∨ literal.exponent ≠ []

instance (literal : Literal) : Decidable literal.IsFloat := inferInstanceAs (Decidable (_ ∨ _))

/-- The digits a text begins with, and the rest. -/
def scanDigits (text : List Char) : List Char × List Char :=
  (text.takeWhile Char.isDigit, text.dropWhile Char.isDigit)

/-- `0|[1-9][0-9]*` -/
def scanNatural : List Char → Option (List Char × List Char)
  | [] => none
  | c :: rest =>
    if c = '0' then some (['0'], rest)
    else if c.isDigit then some (c :: (scanDigits rest).1, (scanDigits rest).2) else none

/-- `-?(0|[1-9][0-9]*)` -/
def scanWhole : List Char → Option (List Char × List Char)
  | [] => none
  | c :: rest =>
    if c = '-' then (scanNatural rest).map fun read => (c :: read.1, read.2) else scanNatural (c :: rest)

/-- `(\.[0-9]+)?` -/
def scanFraction : List Char → List Char × List Char
  | [] => ([], [])
  | c :: rest =>
    if c = '.' ∧ (scanDigits rest).1 ≠ [] then (c :: (scanDigits rest).1, (scanDigits rest).2)
    else ([], c :: rest)

/-- `[-+]?` -/
def scanSign : List Char → List Char × List Char
  | [] => ([], [])
  | c :: rest => if c = '-' ∨ c = '+' then ([c], rest) else ([], c :: rest)

/-- `([eE][-+]?[0-9]+)?` -/
def scanExponent : List Char → List Char × List Char
  | [] => ([], [])
  | c :: rest =>
    let sign := scanSign rest
    let digits := scanDigits sign.2
    if (c = 'e' ∨ c = 'E') ∧ digits.1 ≠ [] then (c :: sign.1 ++ digits.1, digits.2) else ([], c :: rest)

def scanNumber (text : List Char) : Option (Literal × List Char) :=
  (scanWhole text).map fun whole =>
    let fraction := scanFraction whole.2
    let exponent := scanExponent fraction.2
    (⟨whole.1, fraction.1, exponent.1⟩, exponent.2)

/-- The integer with these digits, possibly with a sign in front. -/
def wholeValue : List Char → ℤ
  | [] => 0
  | c :: rest => if c = '-' then -(Nat.ofDigitChars 10 rest 0 : ℤ) else Nat.ofDigitChars 10 (c :: rest) 0

/-- The most digits of an integer that Python converts. -/
def digitLimit : ℕ := 4300

/-- How floats are written and read, and which of them there are. -/
structure FloatText (φ : Type) where
  nan : φ
  infinity : Bool → φ
  write : φ → List Char
  read : Literal → φ
  representable : φ → Prop
  representable_nan : representable nan
  representable_infinity : ∀ negative, representable (infinity negative)
  representable_read : ∀ literal, representable (read literal)
  written : ∀ value, representable value →
    (value = nan ∧ write value = ['N', 'a', 'N']) ∨
    (value = infinity false ∧ write value = ['I', 'n', 'f', 'i', 'n', 'i', 't', 'y']) ∨
    (value = infinity true ∧ write value = ['-', 'I', 'n', 'f', 'i', 'n', 'i', 't', 'y']) ∨
    ∃ literal, scanNumber (write value) = some (literal, []) ∧ literal.IsFloat ∧ read literal = value

/-! ### Strings -/

def hexDigit (n : ℕ) : Char := if n < 10 then Char.ofNat (48 + n) else Char.ofNat (87 + n)

def unicodeEscape (n : ℕ) : List Char :=
  ['\\', 'u', hexDigit (n / 4096 % 16), hexDigit (n / 256 % 16), hexDigit (n / 16 % 16), hexDigit (n % 16)]

/-- One character as the writer writes it, in ASCII. -/
def escape (c : Char) : List Char :=
  let n := c.toNat
  if c = '"' then ['\\', '"']
  else if c = '\\' then ['\\', '\\']
  else if n = 8 then ['\\', 'b']
  else if n = 9 then ['\\', 't']
  else if n = 10 then ['\\', 'n']
  else if n = 12 then ['\\', 'f']
  else if n = 13 then ['\\', 'r']
  else if 0x20 ≤ n ∧ n < 0x7F then [c]
  else if n < 0x10000 then unicodeEscape n
  else unicodeEscape (0xD800 + (n - 0x10000) / 0x400) ++ unicodeEscape (0xDC00 + (n - 0x10000) % 0x400)

def writeString (text : String) : List Char := '"' :: text.toList.flatMap escape ++ ['"']

def hexValue? (c : Char) : Option ℕ :=
  if '0' ≤ c ∧ c ≤ '9' then some (c.toNat - 48)
  else if 'a' ≤ c ∧ c ≤ 'f' then some (c.toNat - 87)
  else if 'A' ≤ c ∧ c ≤ 'F' then some (c.toNat - 55)
  else none

/-- The number that four hexadecimal digits give. -/
def hexValues? (first second third fourth : Char) : Option ℕ :=
  match hexValue? first, hexValue? second, hexValue? third, hexValue? fourth with
  | some first, some second, some third, some fourth => some (((first * 16 + second) * 16 + third) * 16 + fourth)
  | _, _, _, _ => none

/-- What a backslash and one more character stand for. -/
def escaped? (c : Char) : Option ℕ :=
  if c = '"' ∨ c = '\\' ∨ c = '/' then some c.toNat
  else if c = 'b' then some 8
  else if c = 't' then some 9
  else if c = 'n' then some 10
  else if c = 'f' then some 12
  else if c = 'r' then some 13
  else none

/-- The code units up to the closing quote: of a character its code, of a `\u` the number it names. -/
def scanUnits : List Char → Except Error (List ℕ × List Char)
  | [] => .error .malformed
  | c :: rest =>
    if c = '"' then .ok ([], rest)
    else if c = '\\' then
      match rest with
      | [] => .error .malformed
      | mark :: rest =>
        if mark = 'u' then
          match rest with
          | first :: second :: third :: fourth :: rest =>
            match hexValues? first second third fourth with
            | some unit => (scanUnits rest).map fun read => (unit :: read.1, read.2)
            | none => .error .malformed
          | _ => .error .malformed
        else
          match escaped? mark with
          | some unit => (scanUnits rest).map fun read => (unit :: read.1, read.2)
          | none => .error .malformed
    else if c.toNat < 0x20 then .error .malformed
    else (scanUnits rest).map fun read => (c.toNat :: read.1, read.2)

def isHigh (unit : ℕ) : Bool := 0xD800 ≤ unit ∧ unit < 0xDC00

def isLow (unit : ℕ) : Bool := 0xDC00 ≤ unit ∧ unit < 0xE000

/-- Surrogate pairs are joined. -/
def joinUnits : List ℕ → Except Error (List Char)
  | [] => .ok []
  | unit :: rest =>
    if isHigh unit then
      match rest with
      | [] => .error .surrogate
      | low :: rest =>
        if isLow low then
          (joinUnits rest).map (Char.ofNat (0x10000 + (unit - 0xD800) * 0x400 + (low - 0xDC00)) :: ·)
        else .error .surrogate
    else if isLow unit then .error .surrogate
    else (joinUnits rest).map (Char.ofNat unit :: ·)

/-- The string behind an opening quote. -/
def readString (text : List Char) : Except Error (String × List Char) :=
  match scanUnits text with
  | .error error => .error error
  | .ok (units, rest) => (joinUnits units).map fun text => (String.ofList text, rest)

/-! ### The writer -/

/-- Everything on one line, or each item on a line of its own. -/
inductive Layout where
  | compact
  | indented (width : ℕ)

/-- What stands behind an opening bracket and before a closing one. -/
def Layout.edge (depth : ℕ) : Layout → List Char
  | compact => []
  | indented width => '\n' :: List.replicate (width * depth) ' '

/-- What stands behind a comma. -/
def Layout.gap (depth : ℕ) : Layout → List Char
  | compact => [' ']
  | indented width => '\n' :: List.replicate (width * depth) ' '

variable {φ : Type}

section Write

variable (float : FloatText φ) (layout : Layout)

mutual

/-- The text of a value inside this many containers. -/
def write (depth : ℕ) : Value φ → List Char
  | .null => ['n', 'u', 'l', 'l']
  | .bool value => if value then ['t', 'r', 'u', 'e'] else ['f', 'a', 'l', 's', 'e']
  | .int value => (toString value).toList
  | .float value => float.write value
  | .str text => writeString text
  | .arr items =>
    if items.isEmpty then ['[', ']']
    else '[' :: layout.edge (depth + 1) ++ writeItems (depth + 1) items ++ layout.edge depth ++ [']']
  | .obj fields =>
    if fields.isEmpty then ['\x7b', '\x7d']
    else '\x7b' :: layout.edge (depth + 1) ++ writeFields (depth + 1) fields ++ layout.edge depth ++ ['\x7d']

def writeItems (depth : ℕ) : List (Value φ) → List Char
  | [] => []
  | item :: items =>
    write depth item ++ if items.isEmpty then [] else ',' :: layout.gap depth ++ writeItems depth items

def writeFields (depth : ℕ) : List (String × Value φ) → List Char
  | [] => []
  | (key, value) :: fields =>
    writeString key ++ [':', ' '] ++ write depth value ++
      if fields.isEmpty then [] else ',' :: layout.gap depth ++ writeFields depth fields

end

mutual

/-- The value can be written: its integers are short enough and its floats are floats. -/
def Writable : Value φ → Prop
  | .int value => (Nat.toDigits 10 value.natAbs).length ≤ digitLimit
  | .float value => float.representable value
  | .arr items => WritableItems items
  | .obj fields => WritableFields fields
  | _ => True

def WritableItems : List (Value φ) → Prop
  | [] => True
  | item :: items => Writable item ∧ WritableItems items

def WritableFields : List (String × Value φ) → Prop
  | [] => True
  | (_, value) :: fields => Writable value ∧ WritableFields fields

end

end Write

mutual

/-- No key of an object stands twice, as in every dictionary. -/
def Distinct : Value φ → Prop
  | .arr items => DistinctItems items
  | .obj fields => (fields.map Prod.fst).Nodup ∧ DistinctFields fields
  | _ => True

def DistinctItems : List (Value φ) → Prop
  | [] => True
  | item :: items => Distinct item ∧ DistinctItems items

def DistinctFields : List (String × Value φ) → Prop
  | [] => True
  | (_, value) :: fields => Distinct value ∧ DistinctFields fields

end

/-! ### The reader -/

def isBlank (c : Char) : Bool := c = ' ' ∨ c = '\t' ∨ c = '\n' ∨ c = '\r'

/-- The text behind its leading blanks. -/
def skip (text : List Char) : List Char := text.dropWhile isBlank

section Read

variable (float : FloatText φ)

/-- The values that are words. -/
def words : List (List Char × Value φ) :=
  [(['n', 'u', 'l', 'l'], .null), (['t', 'r', 'u', 'e'], .bool true), (['f', 'a', 'l', 's', 'e'], .bool false),
    (['N', 'a', 'N'], .float float.nan),
    (['I', 'n', 'f', 'i', 'n', 'i', 't', 'y'], .float (float.infinity false)),
    (['-', 'I', 'n', 'f', 'i', 'n', 'i', 't', 'y'], .float (float.infinity true))]

def readWord? (text : List Char) : Option (Value φ × List Char) :=
  ((words float).find? fun word => word.1.isPrefixOf text).map fun word => (word.2, text.drop word.1.length)

def literalValue (literal : Literal) : Except Error (Value φ) :=
  if literal.IsFloat then .ok (.float (float.read literal))
  else if digitLimit < (literal.whole.filter Char.isDigit).length then .error .digits
  else .ok (.int (wholeValue literal.whole))

def readNumber (text : List Char) : Except Error (Value φ × List Char) :=
  match scanNumber text with
  | none => .error .malformed
  | some (literal, rest) => (literalValue float literal).map fun value => (value, rest)

/-- A value that is no container. -/
def readScalar (text : List Char) : Except Error (Value φ × List Char) :=
  match readWord? float text with
  | some read => .ok read
  | none => readNumber float text

mutual

/-- The value that a text begins with, and the rest. -/
def readValue : ℕ → List Char → Except Error (Value φ × List Char)
  | 0, _ => .error .exhausted
  | _ + 1, [] => .error .malformed
  | fuel + 1, c :: rest =>
    if c = '"' then (readString rest).map fun read => (.str read.1, read.2)
    else if c = '[' then
      if (skip rest).head? = some ']' then .ok (.arr [], (skip rest).tail)
      else (readItems fuel (skip rest)).map fun read => (.arr read.1, read.2)
    else if c = '\x7b' then
      if (skip rest).head? = some '\x7d' then .ok (.obj [], (skip rest).tail)
      else (readFields fuel (skip rest)).map fun read => (.obj (Dict.ofEntries read.1).entries, read.2)
    else readScalar float (c :: rest)

/-- The items up to the closing bracket. -/
def readItems : ℕ → List Char → Except Error (List (Value φ) × List Char)
  | 0, _ => .error .exhausted
  | fuel + 1, text =>
    match readValue fuel text with
    | .error error => .error error
    | .ok (item, rest) =>
      match skip rest with
      | ',' :: rest => (readItems fuel (skip rest)).map fun read => (item :: read.1, read.2)
      | ']' :: rest => .ok ([item], rest)
      | _ => .error .malformed

/-- The fields up to the closing brace. -/
def readFields : ℕ → List Char → Except Error (List (String × Value φ) × List Char)
  | 0, _ => .error .exhausted
  | fuel + 1, text =>
    match text with
    | '"' :: rest =>
      match readString rest with
      | .error error => .error error
      | .ok (key, rest) =>
        match skip rest with
        | ':' :: rest =>
          match readValue fuel (skip rest) with
          | .error error => .error error
          | .ok (value, rest) =>
            match skip rest with
            | ',' :: rest => (readFields fuel (skip rest)).map fun read => ((key, value) :: read.1, read.2)
            | '\x7d' :: rest => .ok ([(key, value)], rest)
            | _ => .error .malformed
        | _ => .error .malformed
    | _ => .error .malformed

end

/-- The fuel that a text of this length needs at most. -/
def fuelFor (length : ℕ) : ℕ := 2 * length + 1

/-- The value of a text; blanks may stand around it. -/
def read (text : List Char) : Except Error (Value φ) :=
  match readValue float (fuelFor text.length) (skip text) with
  | .error error => .error error
  | .ok (value, rest) => if skip rest = [] then .ok value else .error .malformed

end Read

end Quartr.Data.Json
