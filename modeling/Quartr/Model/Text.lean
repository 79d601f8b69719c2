import Mathlib.Data.Int.Notation
import Mathlib.Data.Nat.Notation

/-! # The text operations the service relies on

Python's `str.upper`, `int`, `os.path.join`, `os.path.splitext` and `json.dumps`, as far as the
service can observe them. Paths, keys and references are strings, as in the source; lemmas about
them go through `String.toList`.
-/

namespace Quartr.Model

abbrev Bytes := List UInt8

namespace Text

/-- `str.upper` on one character. Characters whose upper-case form is not ASCII stay as they are:
neither they nor their form match anything the service accepts. -/
def upperChar (c : Char) : List Char :=
  if 'a' ≤ c ∧ c ≤ 'z' then [Char.ofNat (c.toNat - 32)]
  else match c.toNat with
    | 0x131 => ['I']
    | 0x17F => ['S']
    | 0xDF => ['S', 'S']
    | 0xFB00 => ['F', 'F']
    | 0xFB01 => ['F', 'I']
    | 0xFB02 => ['F', 'L']
    | 0xFB03 => ['F', 'F', 'I']
    | 0xFB04 => ['F', 'F', 'L']
    | 0xFB05 => ['S', 'T']
    | 0xFB06 => ['S', 'T']
    | _ => [c]

def upper (s : String) : String := String.ofList (s.toList.flatMap upperChar)

/-- The first digit of every run of ten decimal digits in Unicode, which `int` and `\d` accept. -/
def decimalZeros : List ℕ :=
  [0x30, 0x660, 0x6F0, 0x7C0, 0x966, 0x9E6, 0xA66, 0xAE6, 0xB66, 0xBE6, 0xC66, 0xCE6, 0xD66,
    0xDE6, 0xE50, 0xED0, 0xF20, 0x1040, 0x1090, 0x17E0, 0x1810, 0x1946, 0x19D0, 0x1A80, 0x1A90,
    0x1B50, 0x1BB0, 0x1C40, 0x1C50, 0xA620, 0xA8D0, 0xA900, 0xA9D0, 0xA9F0, 0xAA50, 0xABF0,
    0xFF10, 0x104A0, 0x10D30, 0x10D40, 0x11066, 0x110F0, 0x11136, 0x111D0, 0x112F0, 0x11450,
    0x114D0, 0x11650, 0x116C0, 0x116D0, 0x116DA, 0x11730, 0x118E0, 0x11950, 0x11BF0, 0x11C50,
    0x11D50, 0x11DA0, 0x11F50, 0x16130, 0x16A60, 0x16AC0, 0x16B50, 0x16D70, 0x1CCF0, 0x1D7CE,
    0x1D7D8, 0x1D7E2, 0x1D7EC, 0x1D7F6, 0x1E140, 0x1E2F0, 0x1E4F0, 0x1E5F1, 0x1E950, 0x1FBF0]

def digitValue? (c : Char) : Option ℕ :=
  (decimalZeros.find? fun first => first ≤ c.toNat ∧ c.toNat < first + 10).map fun first =>
    c.toNat - first

/-- The characters that `str.strip` removes. -/
def isSpace (c : Char) : Bool :=
  let n := c.toNat
  (9 ≤ n ∧ n ≤ 13) || (0x1C ≤ n ∧ n ≤ 0x20) || (0x2000 ≤ n ∧ n ≤ 0x200A) ||
    [0x85, 0xA0, 0x1680, 0x2028, 0x2029, 0x202F, 0x205F, 0x3000].contains n

/-- The characters that `int` and `float` pass over around a number: the separators U+001C to U+001F
are not among them. -/
def isNumberSpace (c : Char) : Bool := isSpace c && !(0x1C ≤ c.toNat && c.toNat ≤ 0x1F)

def stripOf (space : Char → Bool) (s : List Char) : List Char :=
  ((s.dropWhile space).reverse.dropWhile space).reverse

def strip (s : List Char) : List Char := stripOf isSpace s

/-- The digits of an `int` literal; single underscores may stand between two digits. -/
def intDigits? (value : ℕ) (afterDigit : Bool) : List Char → Option ℕ
  | [] => if afterDigit then some value else none
  | c :: rest =>
    if c = '_' then if afterDigit then intDigits? value false rest else none
    else (digitValue? c).bind fun digit => intDigits? (value * 10 + digit) true rest

/-- `int(s)`; `none` is the `ValueError`. Python refuses more than 4300 digits. -/
def int? (s : String) : Option ℤ :=
  let body := stripOf isNumberSpace s.toList
  let digits := match body with
    | '-' :: rest => rest
    | '+' :: rest => rest
    | rest => rest
  if 4300 < (digits.filter (· ≠ '_')).length then none
  else (intDigits? 0 false digits).map fun value => if body.head? = some '-' then -value else value

/-- `[p for p in s.split("/") if p]`: the non-empty segments of a path. -/
def segments (s : String) : List String :=
  ((s.toList.splitOn '/').filter (· ≠ [])).map String.ofList

/-- `s.zfill(width)`; a leading sign stays in front of the zeros. -/
def zfill (width : ℕ) (s : String) : String :=
  let zeros := List.replicate (width - s.toList.length) '0'
  String.ofList (match s.toList with
    | '-' :: rest => '-' :: (zeros ++ rest)
    | '+' :: rest => '+' :: (zeros ++ rest)
    | text => zeros ++ text)

/-- `os.path.join(a, b)`. -/
def joinPath (a b : String) : String :=
  if b.toList.head? = some '/' then b
  else if a.toList = [] ∨ a.toList.getLast? = some '/' then a ++ b
  else a ++ "/" ++ b

/-- The extension that `os.path.splitext` splits off; leading dots belong to the name. -/
def extension (path : String) : String :=
  let name := path.toList.reverse.takeWhile (· ≠ '/')
  match name.dropWhile (· ≠ '.') with
  | [] => ""
  | _ :: stem =>
    if stem.any (· ≠ '.') then String.ofList ('.' :: (name.takeWhile (· ≠ '.')).reverse) else ""

def hexDigit (n : ℕ) : Char := if n < 10 then Char.ofNat (48 + n) else Char.ofNat (87 + n)

def unicodeEscape (n : ℕ) : List Char :=
  ['\\', 'u', hexDigit (n / 4096 % 16), hexDigit (n / 256 % 16), hexDigit (n / 16 % 16),
    hexDigit (n % 16)]

/-- One character of a JSON string as `json.dumps` writes it, in ASCII. -/
def jsonChar (c : Char) : List Char :=
  let n := c.toNat
  if c = '"' then ['\\', '"']
  else if c = '\\' then ['\\', '\\']
  else if n = 8 then ['\\', 'b']
  else if n = 9 then ['\\', 't']
  else if n = 10 then ['\\', 'n']
  else if n = 12 then ['\\', 'f']
  else if n = 13 then ['\\', 'r']
  else if 0x20 ≤ n ∧ n < 0x7F then [c]
  else if n < 0x10000 then unicodeEscape n
  else unicodeEscape (0xD800 + (n - 0x10000) / 0x400) ++ unicodeEscape (0xDC00 + (n - 0x10000) % 0x400)

def jsonString (s : String) : String := String.ofList ('"' :: s.toList.flatMap jsonChar ++ ['"'])

/-- `json.dumps(fields, indent=2).encode()` for a non-empty dict of strings. -/
def jsonObject (fields : List (String × String)) : Bytes :=
  let lines := fields.map fun (key, value) => "  " ++ jsonString key ++ ": " ++ jsonString value
  ("\x7b\n" ++ ",\n".intercalate lines ++ "\n\x7d").toList.map fun c => c.toNat.toUInt8

/-- The text of a string of printable characters under `!r`; a final newline is escaped. -/
def quoted (s : String) : String :=
  "'" ++ String.ofList (s.toList.flatMap fun c => if c = '\n' then ['\\', 'n'] else [c]) ++ "'"

end Text

end Quartr.Model
