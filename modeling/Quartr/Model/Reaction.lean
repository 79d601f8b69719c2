import Quartr.Model.Service

/-! # The service with another reaction to a forbidden transition

`transition` raises `InvalidStateTransition` when the table forbids the edge. Here the raise is a
parameter: everything from `transition` up to the service is repeated with an arbitrary reaction in
its place, and with the raise itself it is the service again, `serviceReacting_raise`. A run in which
no transition raises is a run of the service with every reaction.
-/

namespace Quartr.Model

open Quartr.Machine

/-- What happens in place of raising `InvalidStateTransition`. -/
abbrev Reaction : Type := ReportState → ReportState → Async ReportTask Unit

/-- The reaction of the code. -/
def Reaction.raise : Reaction := fun current target => throw (.invalidStateTransition current target)

variable (reaction : Reaction)

namespace Repository

def checkReacting (current target : ReportState) : Async ReportTask Unit :=
  if canTransition current target then pure () else reaction current target

def transitionReacting (target : ReportState) (updates : ReportTask → ReportTask) :
    Async ReportTask Unit := do
  checkReacting reaction (← get).state target
  modify fun task => updates { task with state := target }
  save
  if target.Terminal then
    clearPending (← get).identity.logicalPath (← get).includeAmended

end Repository

namespace Worker

variable (worker : Worker)

def failPermanentlyReacting (exc : Err) : Async ReportTask Unit :=
  Repository.transitionReacting reaction .failed fun task => { task with error := some exc.message }

def failTransientlyReacting (exc : Err) : Async ReportTask Unit := do
  modify fun task => { task with attempts := task.attempts + 1 }
  if worker.settings.retryMaxAttempts ≤ (← get).attempts then
    Repository.transitionReacting reaction .failed fun task => { task with error := some exc.message }
  else
    Repository.transitionReacting reaction .retrying fun task => { task with error := some exc.message }
    Repository.transitionReacting reaction .queued id
    Queue.enqueue worker.settings (← get).taskId

def attemptReacting (originalLogicalPath : String) : Async ReportTask Unit := do
  let selection ← worker.producePdf
  modify fun task => { task with identity := selection.identity }
  Repository.transitionReacting reaction .completed fun task =>
    { task with filing := some selection.filing, artifactPath := some selection.paths.pdfPath }
  tryCatch (bookkeeping originalLogicalPath) fun _ => pure ()

def processTaskReacting : Async ReportTask Unit := do
  let originalLogicalPath := (← get).identity.logicalPath
  tryCatch (Repository.transitionReacting reaction .processing id) fun
    | .invalidStateTransition _ _ => pure ()
    | exc => throw exc
  tryCatch (worker.attemptReacting reaction originalLogicalPath) fun
    | .tickerNotFound ticker => failPermanentlyReacting reaction (.tickerNotFound ticker)
    | .permanentSec message => failPermanentlyReacting reaction (.permanentSec message)
    | .call (.permanentSec message) => failPermanentlyReacting reaction (.call (.permanentSec message))
    | .pdfConversion message => failPermanentlyReacting reaction (.pdfConversion message)
    | .call (.pdfConversion message) => failPermanentlyReacting reaction (.call (.pdfConversion message))
    | exc => worker.failTransientlyReacting reaction exc

def handleTaskReacting (taskId : TaskId) (entry : ℕ) : Async ReportTask Unit := do
  let handled ← tryCatch (do worker.processTaskReacting reaction; return true) fun exc => do
    tryCatch (worker.recoverFromUnhandled taskId (← get) entry exc) fun _ => pure ()
    return false
  if handled then
    Queue.ackAndRemove entry

def handleMessageReacting (entry : ℕ) (fields : List (String × String)) : Async Unit Unit := do
  match fieldsTaskId fields with
  | none => Queue.ackAndRemove entry
  | some taskId =>
    if taskId = "" then
      Queue.ackAndRemove entry
    else
      match ← Repository.getTask taskId with
      | none => Queue.ackAndRemove entry
      | some task =>
        let _ ← Coroutine.own task (worker.handleTaskReacting reaction taskId entry)

end Worker

namespace Routes

def admitTaskReacting (settings : Settings) (identity : ReportIdentity) (includeAmended : Bool)
    (task : ReportTask) : Async HttpResponse ReportTask := do
  if ← Queue.hasCapacity settings then
    let (_, task) ← Coroutine.own task (Repository.transitionReacting reaction .queued id)
    tryCatch (Queue.enqueue settings task.taskId) fun
      | .queueFull depth maxDepth =>
        refuse identity includeAmended (Err.queueFull depth maxDepth).message
      | exc => throw exc
    return task
  else
    refuse identity includeAmended "System reached maximum capacity, please retry later"

def createReportReacting (settings : Settings) (cikMapping : CikMapping) (taskId : TaskId)
    (payload : CreateReportRequest) : Async HttpResponse ReportTaskResponse := do
  let identity ← Coroutine.lift (requestedIdentity cikMapping payload)
  match ← Repository.getCurrentArtifact identity.logicalPath payload.includeAmended with
  | some artifact =>
    modify fun response => { response with statusCode := 200 }
    return cached identity artifact
  | none =>
    let (task, created) ← Repository.getOrCreateTask taskId identity payload.includeAmended
    let task ← if created then admitTaskReacting reaction settings identity payload.includeAmended task
      else pure task
    modify fun response => { response with statusCode := 202 }
    return inFlight identity task

end Routes

namespace Service

def bodyReacting (settings : Settings) (uuid : ℕ → TaskId) (id : ℕ) : Activity → Program calls Outcome
  | .request cikMapping payload =>
    (Routes.createReportReacting reaction settings cikMapping (uuid id) payload .fresh).bind fun result =>
      .done (.answered result.1 result.2)
  | .handling cikMapping now entry fields =>
    (Worker.handleMessageReacting reaction ⟨settings, cikMapping, now⟩ entry fields ()).bind fun result =>
      .done (.handled result.1)

end Service

/-- The service with this reaction to forbidden transitions. -/
def serviceReacting (settings : Settings) (uuid : ℕ → TaskId)
    (serve : (call : Call) → World → calls.Reply call → World → Prop) :
    System calls World Activity (Program calls Outcome) :=
  System.ofBodies (Service.bodyReacting reaction settings uuid) Service.start serve

section Raise

theorem Repository.checkReacting_raise (current target : ReportState) :
    checkReacting .raise current target = Coroutine.lift (assertTransition current target) := by
  unfold checkReacting assertTransition
  split <;> rfl

theorem Repository.transitionReacting_raise : transitionReacting .raise = transition := by
  funext target updates
  unfold transitionReacting transition
  simp only [checkReacting_raise]

theorem Worker.failTransientlyReacting_raise : failTransientlyReacting .raise = failTransiently := by
  funext worker exc
  unfold failTransientlyReacting failTransiently
  rw [Repository.transitionReacting_raise]

theorem Worker.processTaskReacting_raise : processTaskReacting .raise = processTask := by
  funext worker
  unfold processTaskReacting processTask attemptReacting failPermanentlyReacting
  rw [Repository.transitionReacting_raise, failTransientlyReacting_raise]
  rfl

theorem Worker.handleMessageReacting_raise : handleMessageReacting .raise = handleMessage := by
  funext worker entry fields
  unfold handleMessageReacting handleTaskReacting
  rw [processTaskReacting_raise]
  rfl

theorem Routes.createReportReacting_raise : createReportReacting .raise = createReport := by
  funext settings cikMapping taskId payload
  unfold createReportReacting admitTaskReacting
  rw [Repository.transitionReacting_raise]
  rfl

/-- With the raise of the code the service is the service. -/
theorem serviceReacting_raise (settings : Settings) (uuid : ℕ → TaskId)
    (serve : (call : Call) → World → calls.Reply call → World → Prop) :
    serviceReacting .raise settings uuid serve = service settings uuid serve := by
  unfold serviceReacting service
  congr 1
  funext id activity
  cases activity with
  | request cikMapping payload =>
    unfold Service.bodyReacting
    rw [Routes.createReportReacting_raise]
    rfl
  | handling cikMapping now entry fields =>
    unfold Service.bodyReacting
    rw [Worker.handleMessageReacting_raise]
    rfl

end Raise

end Quartr.Model
