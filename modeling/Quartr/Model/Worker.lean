import Quartr.Model.ArtifactStore

/-! # The worker

`handleMessage` is one delivery of a stream entry: load the task, run the pipeline, record the
outcome, acknowledge. The task object is the local object of `processTask`, so the failure
handlers see it as the failing step left it. `processTask` is split at its own seams:
`resolveFiling` is the part between the submissions answer and the paths, `obtainArtifact` the
branch on `artifact_exists`, `producePdf` the whole pipeline up to the stored file.
-/

namespace Quartr.Model

open Quartr.Machine

/-- What a handling takes from its process: the settings, the ticker mapping as it stands, and
the clock reading stamped into the metadata. -/
structure Worker where
  settings : Settings
  cikMapping : CikMapping
  now : String

/-- What the pipeline knows once a filing is selected. -/
structure Selection where
  company : CompanyRecord
  identity : ReportIdentity
  filing : FilingIdentity
  paths : ArtifactPaths
deriving DecidableEq

theorem bind_eq_ok {ε α β : Type} {first : Except ε α} {rest : α → Except ε β} {value : β} :
    (first >>= rest) = .ok value ↔ ∃ middle, first = .ok middle ∧ rest middle = .ok value := by
  cases first with
  | error error => exact ⟨by rintro ⟨⟩, by rintro ⟨_, ⟨⟩, _⟩⟩
  | ok middle => exact ⟨fun continued => ⟨middle, rfl, continued⟩, by rintro ⟨_, ⟨⟩, continued⟩; exact continued⟩

namespace Worker

variable (worker : Worker)

/-- Parse, select, resolve the year, and build the filing and its paths. -/
def resolveFiling (company : CompanyRecord) (task : ReportTask) (payload : SubmissionsPayload) :
    Except Err Selection := do
  let filings ← parseSubmissions payload
  let selector : FilingSelector := ⟨task.identity.form, task.includeAmended⟩
  let requestedYear :=
    if task.identity.year = latestYearSentinel then none else some task.identity.year
  let filingRecord ← selectLatest filings selector requestedYear
  let resolvedIdentity :=
    if task.identity.year = latestYearSentinel then
      { task.identity with year := filingRecord.filingDate.year }
    else task.identity
  let sourceUrl ← filingRecord.filingIndexUrl worker.settings
  let filing : FilingIdentity :=
    ⟨company.cik, filingRecord.accessionNumber, filingRecord.primaryDocument,
      filingRecord.filingDate.isoformat, sourceUrl⟩
  let ext := Text.extension filingRecord.primaryDocument
  let paths := ArtifactStore.pathsFor worker.settings resolvedIdentity filing.accessionNumber
    (if ext = "" then ".html" else ext)
  return ⟨company, resolvedIdentity, filing, paths⟩

/-- A selection is made of the filing that `select_latest` answers, under the task's identity with
the year resolved. -/
theorem resolveFiling_ok {company : CompanyRecord} {task : ReportTask} {payload : SubmissionsPayload}
    {selection : Selection} (resolved : worker.resolveFiling company task payload = .ok selection) :
    ∃ filings record url,
      selectLatest filings ⟨task.identity.form, task.includeAmended⟩
        (if task.identity.year = latestYearSentinel then none else some task.identity.year) = .ok record ∧
      selection.identity = (if task.identity.year = latestYearSentinel then
        { task.identity with year := record.filingDate.year } else task.identity) ∧
      selection.filing = ⟨company.cik, record.accessionNumber, record.primaryDocument,
        record.filingDate.isoformat, url⟩ ∧
      selection.paths = ArtifactStore.pathsFor worker.settings selection.identity record.accessionNumber
        (if Text.extension record.primaryDocument = "" then ".html"
          else Text.extension record.primaryDocument) := by
  unfold resolveFiling at resolved
  obtain ⟨filings, _, resolved⟩ := bind_eq_ok.mp resolved
  obtain ⟨record, selected, resolved⟩ := bind_eq_ok.mp resolved
  obtain ⟨url, _, resolved⟩ := bind_eq_ok.mp resolved
  cases resolved
  exact ⟨filings, record, url, selected, rfl, rfl, rfl⟩

/-- `PdfMetadata.build`. -/
def pdfMetadata (selection : Selection) : PdfMetadata :=
  { ticker := selection.identity.ticker
    companyName := selection.company.name
    cik := selection.filing.cik
    form := selection.identity.form
    filingDate := selection.filing.filingDate
    accessionNumber := selection.filing.accessionNumber
    primaryDocument := selection.filing.primaryDocument
    sourceUrl := selection.filing.sourceUrl
    generationTimestamp := worker.now }

/-- `_validate_pdf`: the header `%PDF-`. -/
def validatePdf (pdfBytes : Bytes) : Except Err Unit :=
  if [37, 80, 68, 70, 45].isPrefixOf pdfBytes then .ok ()
  else .error (.pdfConversion "Generated artifact is not a valid PDF")

/-- Skip when the PDF is already stored, otherwise download, convert and write. -/
def obtainArtifact {σ : Type} (selection : Selection) : Async σ Unit := do
  if ← ArtifactStore.artifactExists selection.paths then
    return
  let document ← call (.downloadDocument selection.filing.sourceUrl)
  let pdfMetadata := worker.pdfMetadata selection
  let pdfBytes ← call (.convertToPdf document.content (document.contentType.getD "text/html")
    pdfMetadata)
  Coroutine.lift (validatePdf pdfBytes)
  ArtifactStore.write selection.paths document.content pdfBytes pdfMetadata

/-- The pipeline up to the stored PDF. -/
def producePdf : Async ReportTask Selection := do
  let company ← Coroutine.lift (worker.cikMapping.resolve (← get).identity.ticker)
  match ← call (.getSubmissions company.cik) with
  | none => throw (.value "submissions are no JSON object")
  | some payload =>
    let selection ← Coroutine.lift (worker.resolveFiling company (← get) payload)
    worker.obtainArtifact selection
    return selection

def failPermanently (exc : Err) : Async ReportTask Unit :=
  Repository.transition .failed fun task => { task with error := some exc.message }

def failTransiently (exc : Err) : Async ReportTask Unit := do
  modify fun task => { task with attempts := task.attempts + 1 }
  if worker.settings.retryMaxAttempts ≤ (← get).attempts then
    Repository.transition .failed fun task => { task with error := some exc.message }
  else
    Repository.transition .retrying fun task => { task with error := some exc.message }
    -- QUEUED is persisted before the message becomes visible.
    Repository.transition .queued id
    Queue.enqueue worker.settings (← get).taskId

/-- Publish, and release the sentinel's pointer when the path was resolved on the way. -/
def bookkeeping (originalLogicalPath : String) : Async ReportTask Unit := do
  Repository.publishArtifact
  if (← get).identity.logicalPath ≠ originalLogicalPath then
    Repository.clearPending originalLogicalPath (← get).includeAmended

/-- The `try` block of `processTask`. -/
def attempt (originalLogicalPath : String) : Async ReportTask Unit := do
  let selection ← worker.producePdf
  modify fun task => { task with identity := selection.identity }
  Repository.transition .completed fun task =>
    { task with filing := some selection.filing, artifactPath := some selection.paths.pdfPath }
  tryCatch (bookkeeping originalLogicalPath) fun _ => pure ()

def processTask : Async ReportTask Unit := do
  let originalLogicalPath := (← get).identity.logicalPath
  tryCatch (Repository.transition .processing id) fun
    | .invalidStateTransition _ _ => pure ()
    | exc => throw exc
  tryCatch (worker.attempt originalLogicalPath) fun
    | .tickerNotFound ticker => failPermanently (.tickerNotFound ticker)
    | .permanentSec message => failPermanently (.permanentSec message)
    | .call (.permanentSec message) => failPermanently (.call (.permanentSec message))
    | .pdfConversion message => failPermanently (.pdfConversion message)
    | .call (.pdfConversion message) => failPermanently (.call (.pdfConversion message))
    | exc => worker.failTransiently exc

/-- The record is read again: the object in hand may already carry an increment. -/
def recoverFromUnhandled {σ : Type} (taskId : TaskId) (task : ReportTask) (entry : ℕ)
    (exc : Err) : Async σ Unit := do
  let read := (← Repository.getTask taskId).getD task
  let current := { read with attempts := read.attempts + 1 }
  if current.state = .completed then
    Queue.ackAndRemove entry
  else if worker.settings.retryMaxAttempts ≤ current.attempts then
    let _ ← Coroutine.own current (Repository.forceFail ("Unhandled error: " ++ exc.message))
    Queue.ackAndRemove entry
  else
    let _ ← Coroutine.own current Repository.saveAttempts

/-- The body of `handleMessage` once the task is loaded: the object is `task`. -/
def handleTask (taskId : TaskId) (entry : ℕ) : Async ReportTask Unit := do
  let handled ← tryCatch (do worker.processTask; return true) fun exc => do
    -- A failing recovery leaves the message for reclaim.
    tryCatch (worker.recoverFromUnhandled taskId (← get) entry exc) fun _ => pure ()
    return false
  if handled then
    Queue.ackAndRemove entry

/-- `_handle_message`. -/
def handleMessage (entry : ℕ) (fields : List (String × String)) : Async Unit Unit := do
  match fieldsTaskId fields with
  | none => Queue.ackAndRemove entry
  | some taskId =>
    if taskId = "" then
      Queue.ackAndRemove entry
    else
      match ← Repository.getTask taskId with
      | none => Queue.ackAndRemove entry
      | some task =>
        let _ ← Coroutine.own task (worker.handleTask taskId entry)

end Worker

end Quartr.Model
