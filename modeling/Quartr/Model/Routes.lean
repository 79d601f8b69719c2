import Quartr.Model.ArtifactStore

/-! # The HTTP API

`createReport`, `getReport` and `getTask`. The local object of a handler is the `Response` it was given, so a
status code or a header that was set stays set when the handler raises.
-/

namespace Quartr.Model

open Quartr.Machine

structure CreateReportRequest where
  ticker : String
  form : String
  year : Option ℤ
  quarter : Option String
  includeAmended : Bool
deriving DecidableEq

structure ArtifactRef where
  ref : String
  mediaType : String
  url : String
deriving DecidableEq, Repr

structure ReportTaskResponse where
  taskId : TaskId
  logicalPath : String
  state : String
  accessionNumber : Option String
  artifact : Option ArtifactRef
  error : Option String
deriving DecidableEq, Repr

/-- The response object FastAPI hands to a handler. -/
structure HttpResponse where
  statusCode : ℕ
  headers : List (String × String)
deriving DecidableEq, Repr

def HttpResponse.fresh : HttpResponse := ⟨200, []⟩

namespace Routes

variable {σ : Type}

/-- `_artifact_ref`. -/
def artifactRef (identity : ReportIdentity) (accessionNumber : String) : Option ArtifactRef :=
  if accessionNumber = "" then none
  else
    let ref := ArtifactStore.refFor identity accessionNumber
    some ⟨ref, "application/pdf", "/artifacts/" ++ ref⟩

/-- The answer from the cache, which names no task. -/
def cached (identity : ReportIdentity) (artifact : CurrentArtifact) : ReportTaskResponse :=
  { taskId := ""
    logicalPath := identity.logicalPath
    state := ReportState.completed.value
    accessionNumber := some artifact.accessionNumber
    artifact := artifactRef identity artifact.accessionNumber
    error := none }

/-- The answer that points at a task in flight. -/
def inFlight (identity : ReportIdentity) (task : ReportTask) : ReportTaskResponse :=
  ⟨task.taskId, identity.logicalPath, task.state.value, none, none, none⟩

/-- The checks before the first await: the ticker is listed, the identity can be constructed. -/
def requestedIdentity (cikMapping : CikMapping) (payload : CreateReportRequest) :
    Except Err ReportIdentity :=
  match cikMapping.resolve payload.ticker with
  | .error exc => .error (.http 404 exc.message)
  | .ok _ =>
    match ReportIdentity.make payload.ticker payload.form
      (payload.year.getD latestYearSentinel) payload.quarter with
    | .error message => .error (.http 400 message)
    | .ok identity => .ok identity

/-- Both 429 exits: release the pointer, ask for a later retry. -/
def refuse {α : Type} (identity : ReportIdentity) (includeAmended : Bool) (detail : String) :
    Async HttpResponse α := do
  Repository.clearPending identity.logicalPath includeAmended
  modify fun response => { response with headers := response.headers ++ [("Retry-After", "30")] }
  throw (.http 429 detail)

/-- Admission of a task this request created: capacity, QUEUED, stream entry. -/
def admitTask (settings : Settings) (identity : ReportIdentity) (includeAmended : Bool)
    (task : ReportTask) : Async HttpResponse ReportTask := do
  if ← Queue.hasCapacity settings then
    -- QUEUED is persisted before the entry is visible to a worker.
    let (_, task) ← Coroutine.own task (Repository.transition .queued id)
    tryCatch (Queue.enqueue settings task.taskId) fun
      | .queueFull depth maxDepth =>
        refuse identity includeAmended (Err.queueFull depth maxDepth).message
      | exc => throw exc
    return task
  else
    refuse identity includeAmended "System reached maximum capacity, please retry later"

/-- `POST /reports`; `taskId` is the `uuid4` this request draws if it needs one. -/
def createReport (settings : Settings) (cikMapping : CikMapping) (taskId : TaskId)
    (payload : CreateReportRequest) : Async HttpResponse ReportTaskResponse := do
  let identity ← Coroutine.lift (requestedIdentity cikMapping payload)
  match ← Repository.getCurrentArtifact identity.logicalPath payload.includeAmended with
  | some artifact =>
    modify fun response => { response with statusCode := 200 }
    return cached identity artifact
  | none =>
    let (task, created) ← Repository.getOrCreateTask taskId identity payload.includeAmended
    let task ← if created then admitTask settings identity payload.includeAmended task else pure task
    modify fun response => { response with statusCode := 202 }
    return inFlight identity task

/-- The task in flight for a report that has no artifact yet. -/
def pendingTask (identity : ReportIdentity) (includeAmended : Bool) : Async σ (Option ReportTask) := do
  match ← Repository.getPendingTaskId identity.logicalPath includeAmended with
  | none => return none
  | some pendingTaskId => if pendingTaskId = "" then return none else Repository.getTask pendingTaskId

/-- `GET /reports/{ticker}/{form}/{year}`. -/
def getReport (ticker form : String) (year : ℤ) (includeAmended : Bool) :
    Async σ ReportTaskResponse := do
  match ReportIdentity.make ticker (decodeForm form) year none with
  | .error message => throw (.http 400 message)
  | .ok identity =>
    match ← Repository.getCurrentArtifact identity.logicalPath includeAmended with
    | some artifact => return cached identity artifact
    | none =>
      match ← pendingTask identity includeAmended with
      | some task => return inFlight identity task
      | none => throw (.http 404
          "Report has not been scheduled for retrieval, submit a fetch query first")

/-- `GET /tasks/{task_id}`. -/
def getTask (taskId : TaskId) : Async σ ReportTaskResponse := do
  match ← Repository.getTask taskId with
  | none => throw (.http 404 "Unknown task id")
  | some task =>
    let accession := task.filing.map FilingIdentity.accessionNumber
    return {
      taskId := task.taskId
      logicalPath := task.identity.logicalPath
      state := task.state.value
      accessionNumber := accession
      -- A failed task may still carry the accession of a partial attempt.
      artifact := if task.state = .completed then accession.bind (artifactRef task.identity) else none
      error := task.error }

end Routes

end Quartr.Model
