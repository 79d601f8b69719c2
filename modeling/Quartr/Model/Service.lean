import Quartr.Machine.Replay
import Quartr.Model.Routes
import Quartr.Model.Worker

/-! # The service as a system of processes

Any number of `POST /reports` handlers and message handlings run over one world. A handling begins
when the stream hands an entry to a worker, for the first time or again: the entry has not been
acknowledged. Each activity owns the `uuid4` it may draw.
-/

namespace Quartr.Model

open Quartr.Machine

/-- What a process of the service was begun for. -/
inductive Activity where
  | request (cikMapping : CikMapping) (payload : CreateReportRequest)
  | handling (cikMapping : CikMapping) (now : String) (entry : ℕ) (fields : List (String × String))
deriving DecidableEq

/-- What a process of the service comes to. -/
inductive Outcome where
  | answered (result : Except Err ReportTaskResponse) (response : HttpResponse)
  | handled (result : Except Err Unit)

namespace Service

variable (settings : Settings) (uuid : ℕ → TaskId)

/-- The code each activity runs. -/
def body (id : ℕ) : Activity → Program calls Outcome
  | .request cikMapping payload =>
    (Routes.createReport settings cikMapping (uuid id) payload .fresh).bind fun result =>
      .done (.answered result.1 result.2)
  | .handling cikMapping now entry fields =>
    (Worker.handleMessage ⟨settings, cikMapping, now⟩ entry fields ()).bind fun result =>
      .done (.handled result.1)

/-- A request may arrive at any time, a message only while it is unacknowledged. -/
def start (world : World) : Activity → World → Prop
  | .request _ _, world' => world' = world
  | .handling _ _ entry fields, world' =>
    (∃ e, world.stream[entry]? = some e ∧ e.fields = fields ∧ e.status ≠ .acked ∧
      e.deleted = false) ∧
    world' = { world with stream := world.stream.modify entry Entry.deliver }

end Service

/-- The service over calls that take effect as `serve` says. -/
def service (settings : Settings) (uuid : ℕ → TaskId)
    (serve : (call : Call) → World → calls.Reply call → World → Prop) :
    System calls World Activity (Program calls Outcome) :=
  System.ofBodies (Service.body settings uuid) Service.start serve

abbrev ServiceConfig := Config calls World Activity (Program calls Outcome)
abbrev ServiceEvent := Event calls Activity
abbrev ServiceProcess := Process calls Activity (Program calls Outcome)

namespace Service

/-- The world once an activity has begun, if it may. -/
def begin? (world : World) : Activity → Option World
  | .request _ _ => some world
  | .handling _ _ entry fields =>
    match world.stream[entry]? with
    | none => none
    | some e =>
      if e.fields = fields ∧ e.status ≠ .acked ∧ e.deleted = false then
        some { world with stream := world.stream.modify entry Entry.deliver }
      else none

theorem begin?_start (world : World) (activity : Activity) (world' : World)
    (begins : begin? world activity = some world') : start world activity world' := by
  cases activity with
  | request cikMapping payload =>
    cases begins
    rfl
  | handling cikMapping now entry fields =>
    simp only [begin?] at begins
    split at begins
    · cases begins
    · rename_i e present
      split at begins
      · rename_i deliverable
        cases begins
        exact ⟨⟨e, present, deliverable⟩, rfl⟩
      · cases begins

/-- How a replayed call is answered: it takes effect, or it raises. -/
inductive Choice where
  | succeeds (outside : Outside)
  | raises (message : String) (effective : Bool)

/-- Schedules in which every command takes effect. -/
def reliablePlayer (settings : Settings) (uuid : ℕ → TaskId) :
    Player (service settings uuid Reliable) Outside where
  begin? := begin?
  answer outside call world := (world.reply outside call, world.after call)
  resumes := rfl
  begins := begin?_start
  serves := World.reliable

/-- Schedules in which commands may raise. -/
def faultyPlayer (settings : Settings) (uuid : ℕ → TaskId) :
    Player (service settings uuid Faulty) Choice where
  begin? := begin?
  answer
    | .succeeds outside, call, world => (world.reply outside call, world.after call)
    | .raises message effective, call, world =>
      (.error (.other message), if effective then world.after call else world)
  resumes := rfl
  begins := begin?_start
  serves
    | .succeeds outside, _, _ => .inl ⟨⟨outside, rfl⟩, rfl⟩
    | .raises message true, _, _ => .inr ⟨.other message, trivial, rfl, .inr rfl⟩
    | .raises message false, _, _ => .inr ⟨.other message, trivial, rfl, .inl rfl⟩

/-- Schedules in which Redis does not fail. -/
def steadyPlayer (settings : Settings) (uuid : ℕ → TaskId) :
    Player (service settings uuid Steady) Outside where
  begin? := begin?
  answer outside call world := (world.reply outside call, world.after call)
  resumes := rfl
  begins := begin?_start
  serves outside call world := .effective (World.reliable outside call world)

end Service

/-- The task a handling was begun for. -/
def Activity.taskId? : Activity → Option TaskId
  | .request _ _ => none
  | .handling _ _ _ fields => fieldsTaskId fields

/-- The entry a handling was begun for. -/
def Activity.entry? : Activity → Option ℕ
  | .request _ _ => none
  | .handling _ _ entry _ => some entry

/-- The id a request was answered 202 with. -/
def acceptedId? (result : Except Err ReportTaskResponse) (response : HttpResponse) : Option TaskId :=
  match result with
  | .ok report => if response.statusCode = 202 then some report.taskId else none
  | .error _ => none

def Outcome.acceptedId? : Outcome → Option TaskId
  | .answered result response => Model.acceptedId? result response
  | .handled _ => none

/-- The process is a request that has been answered 202 with this task id. -/
def Accepted (process : ServiceProcess) (taskId : TaskId) : Prop :=
  process.result?.bind Outcome.acceptedId? = some taskId

instance (process : ServiceProcess) (taskId : TaskId) : Decidable (Accepted process taskId) :=
  inferInstanceAs (Decidable (_ = _))

/-- The stream has an entry for the task. -/
def World.HasEntry (world : World) (taskId : TaskId) : Prop :=
  ∃ entry ∈ world.stream, fieldsTaskId entry.fields = some taskId

instance (world : World) (taskId : TaskId) : Decidable (world.HasEntry taskId) :=
  inferInstanceAs (Decidable (∃ entry ∈ world.stream, _))

/-- `uuid4` never repeats itself, never answers an empty id and never hits an id in use. -/
structure FreshIds (uuid : ℕ → TaskId) (world : World) : Prop where
  injective : ∀ id id', uuid id = uuid id' → id = id'
  nonempty : ∀ id, uuid id ≠ ""
  unused : ∀ id, world.tasks (uuid id) = none

/-- Every record is stored under its own id. -/
def World.Keyed (world : World) : Prop :=
  ∀ taskId task, world.tasks taskId = some task → task.taskId = taskId

theorem World.Keyed.after {world : World} (keyed : world.Keyed) (call : Call) :
    (world.after call).Keyed := by
  cases call with
  | setTask task =>
    intro taskId found present
    by_cases same : taskId = task.taskId
    · subst same
      simp only [World.after_tasks, Function.update_self, Option.some.injEq] at present
      rw [present]
    · simp only [World.after_tasks, Function.update_of_ne same] at present
      exact keyed taskId found present
  | _ => exact keyed

end Quartr.Model
