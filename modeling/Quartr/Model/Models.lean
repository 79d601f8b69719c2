import Quartr.Model.State
import Quartr.Model.Identity

/-! # Tasks, settings and what the code raises -/

namespace Quartr.Model

abbrev TaskId := String

/-- The task as it is persisted; the timestamps, which nothing reads, are left out. -/
structure ReportTask where
  taskId : TaskId
  identity : ReportIdentity
  state : ReportState
  includeAmended : Bool
  filing : Option FilingIdentity
  artifactPath : Option String
  error : Option String
  attempts : ℕ
deriving DecidableEq

/-- A new task with the defaults of the dataclass. -/
def ReportTask.fresh (taskId : TaskId) (identity : ReportIdentity) (includeAmended : Bool) :
    ReportTask :=
  ⟨taskId, identity, .accepted, includeAmended, none, none, none, 0⟩

/-- The current artifact of a logical path, as `publish_artifact` records it. -/
structure CurrentArtifact where
  accessionNumber : String
  artifactPath : String
  cik : String
deriving DecidableEq, Repr

structure CompanyRecord where
  ticker : String
  cik : String
  name : String
deriving DecidableEq, Repr

structure PdfMetadata where
  ticker : String
  companyName : String
  cik : String
  form : String
  filingDate : String
  accessionNumber : String
  primaryDocument : String
  sourceUrl : String
  generationTimestamp : String
deriving DecidableEq, Repr

/-- The part of `Settings` the modelled code reads. -/
structure Settings where
  retryMaxAttempts : ℕ
  maxQueueDepth : ℕ
  storageRoot : String
  secArchivesBaseUrl : String
deriving Inhabited

/-- What an awaited call may raise, by the class the code distinguishes. -/
inductive CallError where
  | response (message : String)
  | transientSec (message : String)
  | permanentSec (message : String)
  | pdfConversion (message : String)
  | other (message : String)
deriving DecidableEq, Repr

/-- What the code raises, by exception class. -/
inductive Err where
  | call (error : CallError)
  | tickerNotFound (ticker : String)
  | permanentSec (message : String)
  | pdfConversion (message : String)
  | invalidStateTransition (current target : ReportState)
  | queueFull (depth maxDepth : ℕ)
  | value (message : String)
  | http (status : ℕ) (detail : String)
deriving DecidableEq, Repr

def CallError.message : CallError → String
  | response message => message
  | transientSec message => message
  | permanentSec message => message
  | pdfConversion message => message
  | other message => message

/-- `str(exc)`. -/
def Err.message : Err → String
  | call error => error.message
  | tickerNotFound ticker => "Unknown ticker: " ++ ticker
  | permanentSec message => message
  | pdfConversion message => message
  | invalidStateTransition current target =>
    "Cannot transition " ++ current.toText ++ " -> " ++ target.toText
  | queueFull depth maxDepth =>
    "Queue depth " ++ toString depth ++ " >= MAX_QUEUE_DEPTH " ++ toString maxDepth
  | value message => message
  | http _ detail => detail

/-- `assert_transition`. -/
def assertTransition (current target : ReportState) : Except Err Unit :=
  if canTransition current target then .ok () else .error (.invalidStateTransition current target)

/-- A company listing: upper-cased ticker to record. -/
structure CikMapping where
  byTicker : List (String × CompanyRecord)
deriving DecidableEq

/-- `CikMapping.resolve`. -/
def CikMapping.resolve (mapping : CikMapping) (ticker : String) : Except Err CompanyRecord :=
  match mapping.byTicker.lookup (Text.upper ticker) with
  | some company => .ok company
  | none => .error (.tickerNotFound ticker)

end Quartr.Model
