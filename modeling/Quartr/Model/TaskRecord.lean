import Quartr.Model.Codec
import Quartr.Model.Repository

/-! # Tasks as they are stored

`ReportTask.to_json` and `ReportTask.from_json`. Loading checks the identity and the state and takes every other
field as the document has it, so a task that was loaded is a `TaskRecord`, with fields of any shape; the ones
that the service saves are those of a `ReportTask` with its two timestamps.
-/

namespace Quartr.Model

open Quartr.Data.Json (FloatText)
open Quartr.Model.Mapping (Json Exc Python)
open Quartr.Numeric

/-- The identity of a loaded task. Nothing checks the year and the quarter. -/
structure IdentityRecord where
  ticker : String
  form : String
  year : Json
  quarter : Json
  ticker_matches : tickerMatches ticker = true
  form_matches : formMatches form = true

/-- The filing of a loaded task, which nothing checks. -/
structure FilingFields where
  cik : Json
  accessionNumber : Json
  primaryDocument : Json
  filingDate : Json
  sourceUrl : Json

/-- `bool(value)`. -/
def truthy : Json → Bool
  | .null => false
  | .bool value => value
  | .int value => value ≠ 0
  | .float value => value ≠ .zero
  | .str text => text ≠ ""
  | .arr items => !items.isEmpty
  | .obj fields => !fields.isEmpty

/-- A value that counts as false is kept in place of a filing. -/
inductive FilingSlot where
  | absent (value : Json) (falsy : truthy value = false)
  | filing (filing : FilingFields)

structure TaskRecord where
  taskId : Json
  identity : IdentityRecord
  state : ReportState
  includeAmended : Json
  filing : FilingSlot
  artifactPath : Json
  error : Json
  attempts : Json
  createdAt : Json
  updatedAt : Json

/-! ### Saving -/

def IdentityRecord.asdict (identity : IdentityRecord) : Json :=
  .obj [("ticker", .str identity.ticker), ("form", .str identity.form), ("year", identity.year),
    ("quarter", identity.quarter)]

def FilingFields.asdict (filing : FilingFields) : Json :=
  .obj [("cik", filing.cik), ("accession_number", filing.accessionNumber),
    ("primary_document", filing.primaryDocument), ("filing_date", filing.filingDate),
    ("source_url", filing.sourceUrl)]

def FilingSlot.asdict : FilingSlot → Json
  | .absent value _ => value
  | .filing filed => filed.asdict

namespace TaskRecord

/-- `asdict(task)`; a state is written as its value. -/
def asdict (task : TaskRecord) : Json :=
  .obj [("task_id", task.taskId), ("identity", task.identity.asdict), ("state", .str task.state.value),
    ("include_amended", task.includeAmended), ("filing", task.filing.asdict),
    ("artifact_path", task.artifactPath), ("error", task.error), ("attempts", task.attempts),
    ("created_at", task.createdAt), ("updated_at", task.updatedAt)]

def toJson (float : FloatText Binary64) (task : TaskRecord) : String := Mapping.dumps float .compact task.asdict

end TaskRecord

/-! ### Loading -/

/-- `cls(**fields)`: every keyword is a parameter, and the parameters without a default are given. -/
def checkKeywords (parameters required : List String) (fields : List (String × Json)) : Except Exc Unit :=
  if (∀ field ∈ fields, field.1 ∈ parameters) ∧ ∀ name ∈ required, (fields.lookup name).isSome then .ok ()
  else .error .type

/-- The argument of a parameter without a default. -/
def argument (fields : List (String × Json)) (name : String) : Json := (fields.lookup name).getD .null

/-- `value.upper()` is an attribute of texts only. -/
def expectText : Json → Except Exc String
  | .str text => .ok text
  | _ => .error .attribute

/-- `ReportIdentity(**value)`. -/
def IdentityRecord.make : Json → Except Exc IdentityRecord
  | .obj fields => do
    checkKeywords ["ticker", "form", "year", "quarter"] ["ticker", "form", "year"] fields
    let ticker ← expectText (argument fields "ticker")
    let form ← expectText (argument fields "form")
    let checked ← (ReportIdentity.make ticker form latestYearSentinel none).mapError .value
    return ⟨checked.ticker, checked.form, argument fields "year", (fields.lookup "quarter").getD .null,
      checked.ticker_matches, checked.form_matches⟩
  | _ => .error .type

/-- `FilingIdentity(**value)`. -/
def FilingFields.make : Json → Except Exc FilingFields
  | .obj fields => do
    let parameters := ["cik", "accession_number", "primary_document", "filing_date", "source_url"]
    checkKeywords parameters parameters fields
    return ⟨argument fields "cik", argument fields "accession_number", argument fields "primary_document",
      argument fields "filing_date", argument fields "source_url"⟩
  | _ => .error .type

def FilingSlot.make (value : Json) : Except Exc FilingSlot :=
  if filled : truthy value = true then (FilingFields.make value).map .filing
  else .ok (.absent value (Bool.eq_false_iff.mpr filled))

/-- The members of `ReportState`. -/
def reportStates : List ReportState := [.accepted, .queued, .processing, .completed, .failed, .retrying, .cancelled]

/-- `ReportState(value)`. -/
def ReportState.make (python : Python) (value : Json) : Except Exc ReportState :=
  let member : Option ReportState :=
    match value with
    | .str text => reportStates.find? fun state => state.value = text
    | _ => none
  match member with
  | some state => .ok state
  | none => .error (.value (value.repr python ++ " is not a valid ReportState"))

namespace TaskRecord

/-- `cls(**fields)` with what was made of the identity, the filing and the state. -/
def make (now : String) (fields : List (String × Json)) (identity : IdentityRecord) (filing : FilingSlot)
    (state : ReportState) : Except Exc TaskRecord := do
  checkKeywords ["task_id", "identity", "state", "include_amended", "filing", "artifact_path", "error", "attempts",
    "created_at", "updated_at"] ["task_id", "identity"] fields
  return {
    taskId := argument fields "task_id"
    identity := identity
    state := state
    includeAmended := (fields.lookup "include_amended").getD (.bool false)
    filing := filing
    artifactPath := (fields.lookup "artifact_path").getD .null
    error := (fields.lookup "error").getD .null
    attempts := (fields.lookup "attempts").getD (.int 0)
    createdAt := (fields.lookup "created_at").getD (.str now)
    updatedAt := (fields.lookup "updated_at").getD (.str now) }

/-- What `from_json` makes of the payload; its subscripts and `get` are answered by dictionaries only. -/
def ofPayload (python : Python) (now : String) (payload : Json) : Except Exc TaskRecord := do
  let identity ← IdentityRecord.make (← payload.subscript "identity")
  let filing ← FilingSlot.make (← payload.get "filing" .null)
  let state ← ReportState.make python (← payload.subscript "state")
  match payload with
  | .obj fields => make now fields identity filing state
  | _ => throw .type

/-- `from_json`; `now` is the default of both timestamps. -/
def fromJson (python : Python) (float : FloatText Binary64) (now : String) (raw : String) : Except Exc TaskRecord :=
  (Mapping.loads float raw).bind (ofPayload python now)

end TaskRecord

/-! ### The tasks of the service -/

/-- A text or `None`. -/
def optionalText : Option String → Json
  | none => .null
  | some text => .str text

def ReportIdentity.record (identity : ReportIdentity) : IdentityRecord :=
  ⟨identity.ticker, identity.form, .int identity.year, optionalText identity.quarter, identity.ticker_matches,
    identity.form_matches⟩

def FilingIdentity.record (filing : FilingIdentity) : FilingFields :=
  ⟨.str filing.cik, .str filing.accessionNumber, .str filing.primaryDocument, .str filing.filingDate,
    .str filing.sourceUrl⟩

/-- The task with the timestamps it was saved with. -/
def ReportTask.record (task : ReportTask) (createdAt updatedAt : String) : TaskRecord where
  taskId := .str task.taskId
  identity := task.identity.record
  state := task.state
  includeAmended := .bool task.includeAmended
  filing :=
    match task.filing with
    | none => .absent .null rfl
    | some filing => .filing filing.record
  artifactPath := optionalText task.artifactPath
  error := optionalText task.error
  attempts := .int task.attempts
  createdAt := .str createdAt
  updatedAt := .str updatedAt

end Quartr.Model
