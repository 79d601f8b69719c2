import Quartr.Model.World

/-! # The report repository and the work queue

The methods that act on a task mutate the object they are given before they persist it, so they
are coroutines whose local object is that task: an exception leaves the object as mutated.
-/

namespace Quartr.Model

open Quartr.Machine

/-- An `async` function of the service with a local object. -/
abbrev Async (σ α : Type) : Type := Coroutine calls Err σ α

variable {σ : Type}

/-- Await one call of the service; its error keeps its class. -/
def call (c : Call) : Async σ c.Answer := @Coroutine.await calls Err σ Err.call c

/-- `_policy_suffix`. -/
def policySuffix (includeAmended : Bool) : String := if includeAmended then "+amended" else ""

/-- `_logical_key`. -/
def logicalKey (logicalPath : String) (includeAmended : Bool) : String :=
  "report:logical:" ++ logicalPath ++ policySuffix includeAmended

/-- `_pending_task_key`. -/
def pendingTaskKey (logicalPath : String) (includeAmended : Bool) : String :=
  "report:pending:" ++ logicalPath ++ policySuffix includeAmended

/-- The dedup key of the path a task names now. -/
def ReportTask.pendingKey (task : ReportTask) : String :=
  pendingTaskKey task.identity.logicalPath task.includeAmended

namespace Repository

def getCurrentArtifact (logicalPath : String) (includeAmended : Bool) :
    Async σ (Option CurrentArtifact) :=
  call (.hgetallLogical (logicalKey logicalPath includeAmended))

def getTask (taskId : TaskId) : Async σ (Option ReportTask) := call (.getTask taskId)

def getPendingTaskId (logicalPath : String) (includeAmended : Bool) : Async σ (Option TaskId) :=
  call (.getPending (pendingTaskKey logicalPath includeAmended))

def clearPending (logicalPath : String) (includeAmended : Bool) : Async σ Unit :=
  call (.deletePending (pendingTaskKey logicalPath includeAmended))

/-- `_save`. -/
def save : Async ReportTask Unit := do call (.setTask (← get))

/-- The tail of `get_or_create_task`: a fresh record for the pointer just written. -/
def createTask (taskId : TaskId) (identity : ReportIdentity) (includeAmended : Bool) :
    Async σ (ReportTask × Bool) := do
  let (_, task) ← Coroutine.own (ReportTask.fresh taskId identity includeAmended) save
  return (task, true)

/-- The task an existing pointer names, if pointer and record are both there. -/
def existingTask (pendingKey : String) : Async σ (Option ReportTask) := do
  match ← call (.getPending pendingKey) with
  | none => return none
  | some existingId => if existingId = "" then return none else getTask existingId

/-- `taskId` is the `uuid4` drawn at the start. -/
def getOrCreateTask (taskId : TaskId) (identity : ReportIdentity) (includeAmended : Bool) :
    Async σ (ReportTask × Bool) := do
  let pendingKey := pendingTaskKey identity.logicalPath includeAmended
  if ← call (.setPendingNx pendingKey taskId) then
    createTask taskId identity includeAmended
  else
    match ← existingTask pendingKey with
    | some existing => return (existing, false)
    | none =>
      -- The pointer is there but its task is missing: reclaim the pointer.
      call (.setPending pendingKey taskId)
      createTask taskId identity includeAmended

/-- The object carries the new state before the record does. -/
def transition (target : ReportState) (updates : ReportTask → ReportTask) :
    Async ReportTask Unit := do
  Coroutine.lift (assertTransition (← get).state target)
  modify fun task => updates { task with state := target }
  save
  if target.Terminal then
    clearPending (← get).identity.logicalPath (← get).includeAmended

def saveAttempts : Async ReportTask Unit := save

/-- Terminal failure that bypasses the state machine. -/
def forceFail (error : String) : Async ReportTask Unit := do
  if (← get).state = .completed then
    return
  modify fun task => { task with state := .failed, error := some error }
  save
  clearPending (← get).identity.logicalPath (← get).includeAmended

def publishArtifact : Async ReportTask Unit := do
  let task ← get
  match task.filing, task.artifactPath with
  | some filing, some artifactPath =>
    call (.hsetLogical (logicalKey task.identity.logicalPath task.includeAmended)
      ⟨filing.accessionNumber, artifactPath, filing.cik⟩)
  | _, _ => throw (.value "")

end Repository

namespace Queue

variable (settings : Settings)

/-- A response error, such as a missing stream, counts as an empty queue. -/
def depth : Async σ ℕ :=
  tryCatch (call .xlen) fun
    | .call (.response _) => pure 0
    | exc => throw exc

def hasCapacity : Async σ Bool := do return (← depth) < settings.maxQueueDepth

def enqueue (taskId : TaskId) : Async σ Unit := do
  let depth ← depth
  if settings.maxQueueDepth ≤ depth then
    throw (.queueFull depth settings.maxQueueDepth)
  call (.xadd taskId)

/-- XACK, then XDEL, as two commands. -/
def ackAndRemove (entry : ℕ) : Async σ Unit := do
  call (.xack entry)
  call (.xdel entry)

end Queue

end Quartr.Model
