import Quartr.Data.Dict
import Quartr.Machine.Program
import Quartr.Model.CikMapping
import Quartr.Numeric.Binary64

/-! # The ticker mapping and its file

`CikMapping` over what it reads from SEC and from its file: documents of any shape, which the code takes
apart without checking them first. The texts Python gives to values and its reader and writer of JSON are
parameters. An integer of a document has few enough digits to be written again.
-/

namespace Quartr.Model.Mapping

open Quartr.Data Quartr.Machine Quartr.Numeric

/-- A JSON value as the reader builds it. -/
inductive Json where
  | null
  | bool (value : Bool)
  | int (value : ℤ)
  | float (value : Binary64)
  | str (text : String)
  | arr (items : List Json)
  | obj (fields : List (String × Json))

/-- The exceptions as far as they are told apart. -/
inductive Exc where
  | jsonDecode
  | key (name : String)
  | os
  | attribute
  | type
  | value (text : String)
  | unicodeDecode
  | overflow
  | other
deriving DecidableEq

/-- What is taken from Python: `str.upper`, the representations of strings and floats, `json.load` on what
a file holds and `json.dump`. -/
structure Python where
  upper : String → String
  quoted : String → String
  float : Binary64 → String
  /-- A float is written with a point, an exponent, or as one of `inf` and `nan`. -/
  float_mark : ∀ value, ∃ c ∈ (float value).toList, c ∈ ['.', 'e', 'n']
  loads : Bytes → Except Exc Json
  dumps : Json → Except Exc Bytes

variable (python : Python)

/-! ### Values of any shape -/

namespace Json

mutual

/-- `repr(value)`. -/
def repr : Json → String
  | null => "None"
  | bool value => if value then "True" else "False"
  | int value => toString value
  | float value => python.float value
  | str text => python.quoted text
  | arr items => "[" ++ ", ".intercalate (reprItems items) ++ "]"
  | obj fields => "\x7b" ++ ", ".intercalate (reprFields fields) ++ "\x7d"

def reprItems : List Json → List String
  | [] => []
  | item :: items => repr item :: reprItems items

def reprFields : List (String × Json) → List String
  | [] => []
  | (key, value) :: fields => (python.quoted key ++ ": " ++ repr value) :: reprFields fields

end

/-- `str(value)`. -/
def text : Json → String
  | str text => text
  | value => repr python value

/-- `value[name]`. -/
def subscript (name : String) : Json → Except Exc Json
  | obj fields =>
    match fields.lookup name with
    | some value => .ok value
    | none => .error (.key name)
  | _ => .error .type

/-- `value.get(name, default)`. -/
def get (value : Json) (name : String) (default : Json) : Except Exc Json :=
  match value with
  | obj fields => .ok ((fields.lookup name).getD default)
  | _ => .error .attribute

/-- `value.values()`. -/
def values : Json → Except Exc (List Json)
  | obj fields => .ok (fields.map Prod.snd)
  | _ => .error .attribute

/-- What a loop over the value runs through. -/
def iterate : Json → Except Exc (List Json)
  | arr items => .ok items
  | str text => .ok (text.toList.map fun c => str (String.ofList [c]))
  | obj fields => .ok (fields.map fun field => str field.1)
  | _ => .error .type

end Json

/-- The hashable values, up to the equality of dictionary keys: numbers compare across their types. -/
inductive Key where
  | null
  | number (value : ℚ)
  | special (value : Binary64)
  | str (text : String)
deriving DecidableEq

/-- The key a value is; lists and dictionaries are unhashable. -/
def Json.key? : Json → Option Key
  | null => some .null
  | bool value => some (.number (if value then 1 else 0))
  | int value => some (.number value)
  | float (.finite value _) => some (.number value)
  | float value => some (.special value)
  | str text => some (.str text)
  | arr _ => none
  | obj _ => none

/-! ### CIKs -/

/-- The digits that are no decimal ones: first character, number of characters, value of the first. -/
def digitRanges : List (ℕ × ℕ × ℕ) :=
  [(0xB2, 2, 2), (0xB9, 1, 1), (0x1369, 9, 1), (0x19DA, 1, 1), (0x2070, 1, 0), (0x2074, 6, 4), (0x2080, 10, 0),
    (0x2460, 9, 1), (0x2474, 9, 1), (0x2488, 9, 1), (0x24EA, 1, 0), (0x24F5, 9, 1), (0x24FF, 1, 0),
    (0x2776, 9, 1), (0x2780, 9, 1), (0x278A, 9, 1), (0x10A40, 4, 1), (0x10E60, 9, 1), (0x11052, 9, 1),
    (0x1F100, 1, 0), (0x1F101, 10, 0)]

/-- The value of a digit; `str.isdigit` is that every character has one. -/
def digit? (c : Char) : Option ℕ :=
  (Text.digitValue? c).or
    ((digitRanges.find? fun range => range.1 ≤ c.toNat ∧ c.toNat < range.1 + range.2.1).map fun range =>
      range.2.2 + (c.toNat - range.1))

/-- `normalize_cik`. -/
def normalizeCik (cik : Json) : Except Exc String :=
  let stripped := (Text.strip (cik.text python).toList).dropWhile (· = '0')
  let digits := if stripped = [] then ['0'] else stripped
  if digits.all fun c => (digit? c).isSome then .ok (Text.zfill 10 (String.ofList digits))
  else .error (.value ("Invalid CIK: " ++ cik.repr python))

structure CompanyRecord where
  ticker : Json
  cik : String
  name : Json

/-- A company of the seed, with the CIK that `normalize_cik` gives the number. -/
def seedCompany (ticker : String) (cik : ℕ) (name : String) : Key × CompanyRecord :=
  (.str ticker, ⟨.str ticker, Text.zfill 10 (toString cik), .str name⟩)

/-- `_SEED_COMPANIES`, by ticker. -/
def seedCompanies : List (Key × CompanyRecord) :=
  [seedCompany "AAPL" 320193 "Apple Inc.",
    seedCompany "META" 1326801 "Meta Platforms, Inc.",
    seedCompany "GOOGL" 1652044 "Alphabet Inc.",
    seedCompany "GOOG" 1652044 "Alphabet Inc.",
    seedCompany "AMZN" 1018724 "Amazon.com, Inc.",
    seedCompany "NFLX" 1065280 "Netflix, Inc.",
    seedCompany "GS" 886982 "The Goldman Sachs Group, Inc."]

/-! ### The calls and the object -/

/-- A reading of `time.time()`. -/
abbrev Reading : Type := { seconds : ℚ // |seconds| < overflow }

def Reading.float (reading : Reading) : Binary64 := .finite reading.1 reading.2

/-- The calls; `getTickers` is the request to SEC with the check of its status and the reading of its body. -/
inductive MappingCall where
  | pathExists (path : String)
  | read (path : String)
  | makedirs (path : String)
  | openTruncate (path : String)
  | write (path : String) (content : Bytes)
  | replace (source target : String)
  | getTickers
  | time
deriving DecidableEq

@[reducible] def MappingCall.Answer : MappingCall → Type
  | .pathExists _ => Bool
  | .read _ => Bytes
  | .getTickers => Json
  | .time => Reading
  | _ => Unit

abbrev mappingCalls : Signature := ⟨MappingCall, MappingCall.Answer, Exc⟩

/-- The fields of the class. Nothing checks what a file gives as the time of the last refresh. -/
structure CikMapping where
  path : String
  refreshSeconds : ℤ
  byTicker : Dict Key CompanyRecord
  lastRefresh : Json

abbrev Method (α : Type) : Type := Coroutine mappingCalls Exc CikMapping α

def call {σ : Type} (c : MappingCall) : Coroutine mappingCalls Exc σ c.Answer :=
  @Coroutine.await mappingCalls Exc σ id c

namespace CikMapping

/-- The object before its file is read. -/
def seeded (path : String) (refreshSeconds : ℤ) : CikMapping :=
  ⟨path, refreshSeconds, Dict.ofEntries seedCompanies, .float .zero⟩

/-- The entry that the comprehension of `_load_from_disk` makes of an item. -/
def loadedEntry (item : Json) : Except Exc (Key × CompanyRecord) := do
  let key ← item.subscript "ticker"
  let ticker ← item.subscript "ticker"
  let cik ← normalizeCik python (← item.subscript "cik")
  let name ← item.subscript "name"
  match key.key? with
  | some key => return (key, ⟨ticker, cik, name⟩)
  | none => throw .type

/-- The exceptions that `_load_from_disk` catches. -/
def caughtOnLoad : Exc → Bool
  | .jsonDecode => true
  | .key _ => true
  | .os => true
  | _ => false

def loadFromDisk : Method Unit := do
  let mapping ← get
  if ← call (.pathExists mapping.path) then
    tryCatch
      (do
        let content ← call (.read mapping.path)
        let raw ← Coroutine.lift (python.loads content)
        let companies ← Coroutine.lift (raw.get "companies" (.arr []))
        let items ← Coroutine.lift companies.iterate
        let records ← Coroutine.lift (Dict.comprehend (loadedEntry python) items)
        if 0 < records.size then
          modify fun mapping => { mapping with byTicker := records }
          let refreshedAt ← Coroutine.lift (raw.get "refreshed_at" (.float .zero))
          modify fun mapping => { mapping with lastRefresh := refreshedAt })
      (fun exc => if caughtOnLoad exc then pure () else throw exc)

/-- The constructor. -/
def init (path : String) (refreshSeconds : ℤ) : Coroutine mappingCalls Exc Unit CikMapping := do
  let (_, mapping) ← Coroutine.own (seeded path refreshSeconds) (loadFromDisk python)
  return mapping

/-- The payload of `_save_to_disk`. -/
def document (mapping : CikMapping) : Json :=
  .obj [("refreshed_at", mapping.lastRefresh),
    ("companies", .arr (mapping.byTicker.values.map fun c =>
      .obj [("ticker", c.ticker), ("cik", .str c.cik), ("name", c.name)]))]

def directory (mapping : CikMapping) : String :=
  if Text.dirname mapping.path = "" then "." else Text.dirname mapping.path

def tmpPath (mapping : CikMapping) : String := mapping.path ++ ".tmp"

def saveToDisk : Method Unit := do
  let mapping ← get
  call (.makedirs mapping.directory)
  call (.openTruncate mapping.tmpPath)
  let content ← Coroutine.lift (python.dumps mapping.document)
  call (.write mapping.tmpPath content)
  call (.replace mapping.tmpPath mapping.path)

/-- `now - last_refresh`; an integer is converted first. -/
def elapsed (now : Reading) : Json → Except Exc Binary64
  | .float last => .ok (.sub now.float last)
  | .int last => elapsedSince last
  | .bool last => elapsedSince (if last then 1 else 0)
  | _ => .error .type
where
  elapsedSince (last : ℤ) : Except Exc Binary64 :=
    match Binary64.ofInt? last with
    | some last => .ok (.sub now.float last)
    | none => .error .overflow

/-- `seconds > limit`, which is exact. -/
def exceeds (limit : ℤ) : Binary64 → Bool
  | .nan => false
  | .infinite negative => !negative
  | .finite seconds _ => (limit : ℚ) < seconds

def needsRefreshAt (mapping : CikMapping) (now : Reading) : Except Exc Bool :=
  (elapsed now mapping.lastRefresh).map (exceeds mapping.refreshSeconds)

def needsRefresh : Method Bool := do
  let now ← call .time
  let mapping ← get
  Coroutine.lift (mapping.needsRefreshAt now)

/-- The record that `refresh` makes of an entry, under its ticker. -/
def refreshedEntry (entry : Json) : Except Exc (Key × CompanyRecord) := do
  let ticker := python.upper ((← entry.subscript "ticker").text python)
  let cik ← normalizeCik python (← entry.subscript "cik_str")
  let name ← entry.subscript "title"
  return (.str ticker, ⟨.str ticker, cik, name⟩)

/-- `refresh`, given the client. -/
def refresh : Method Unit := do
  let data ← call .getTickers
  let entries ← Coroutine.lift data.values
  let records ← Coroutine.lift (Dict.comprehend (refreshedEntry python) entries)
  if 0 < records.size then
    modify fun mapping => { mapping with byTicker := records }
    let now ← call .time
    modify fun mapping => { mapping with lastRefresh := .float now.float }
    saveToDisk python

def ensureFresh : Method Unit := do
  if ← needsRefresh then
    tryCatch (refresh python) fun _ => pure ()

/-- `TickerNotFoundError`, with its message. -/
structure TickerNotFoundError where
  message : String
deriving DecidableEq

def resolve (mapping : CikMapping) (ticker : String) : Except TickerNotFoundError CompanyRecord :=
  match mapping.byTicker.get? (.str (python.upper ticker)) with
  | some record => .ok record
  | none => .error ⟨"Unknown ticker: " ++ ticker⟩

end CikMapping

/-! ### What it runs against -/

structure Disk where
  files : String → Option Bytes
  readings : ℕ

/-- The outcomes of the calls: what SEC answers, the readings of the clock, the file operations that fail
and what a failed write leaves in its file. -/
structure Env where
  tickers : Except Exc Json
  clock : ℕ → Reading
  fault : MappingCall → Option Exc
  torn : Bytes

def Disk.put (disk : Disk) (path : String) (content : Option Bytes) : Disk :=
  { disk with files := Function.update disk.files path content }

/-- A file operation that may fail, and its effects. -/
def attempt {α : Type} (fault : Option Exc) (failed done : α) : Except Exc Unit × α :=
  match fault with
  | some exc => (.error exc, failed)
  | none => (.ok (), done)

/-- A replacement is atomic; the other operations on files may fail half way. -/
def answer (env : Env) : (call : MappingCall) → Disk → mappingCalls.Reply call × Disk
  | .pathExists path, disk => (.ok (disk.files path).isSome, disk)
  | .read path, disk =>
    match env.fault (.read path), disk.files path with
    | some exc, _ => (.error exc, disk)
    | none, some content => (.ok content, disk)
    | none, none => (.error .os, disk)
  | .makedirs path, disk => attempt (env.fault (.makedirs path)) disk disk
  | .openTruncate path, disk => attempt (env.fault (.openTruncate path)) disk (disk.put path (some []))
  | .write path content, disk =>
    attempt (env.fault (.write path content)) (disk.put path (some env.torn)) (disk.put path (some content))
  | .replace source target, disk =>
    match env.fault (.replace source target), disk.files source with
    | some exc, _ => (.error exc, disk)
    | none, some content => (.ok (), (disk.put target (some content)).put source none)
    | none, none => (.error .os, disk)
  | .getTickers, disk => (env.tickers, disk)
  | .time, disk => (.ok (env.clock disk.readings), { disk with readings := disk.readings + 1 })

/-- A Python for documents of ASCII texts and integral floats, which reads and writes one document. -/
def Python.sample (content : Bytes) (document : Json) : Python where
  upper := Text.upper
  quoted := Text.quoted
  float
    | .nan => "nan"
    | .infinite negative => if negative then "-inf" else "inf"
    | .finite value _ => toString value.num ++ ".0"
  float_mark := by
    intro value
    cases value with
    | nan => exact ⟨'n', by decide, by decide⟩
    | infinite negative => exact ⟨'n', by cases negative <;> decide, by decide⟩
    | finite value _ =>
      have point : '.' ∈ ".0".toList := by decide
      refine ⟨'.', ?_, by decide⟩
      rw [String.toList_append]
      exact List.mem_append_right _ point
  loads _ := .ok document
  dumps _ := .ok content

def Reading.sample : Reading := ⟨1754500000, by decide +kernel⟩

/-- An environment at a fixed time. -/
def Env.sample (tickers : Except Exc Json) (fault : MappingCall → Option Exc) : Env :=
  ⟨tickers, fun _ => .sample, fault, []⟩

end Quartr.Model.Mapping
