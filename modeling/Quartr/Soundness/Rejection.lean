import Quartr.Machine.Endings
import Quartr.Model.Sample
import Quartr.Soundness.Delivery

/-! # What a rejected request leaves behind

Both 429 exits of `create_report` delete the pending pointer and nothing else, so the record of the task
that was not admitted stays. Nobody else is at work here, but XLEN may answer any depth at each of its two
calls, so that both exits can be reached.
-/

namespace Quartr.Soundness

open Quartr.Machine Quartr.Model
open Quartr.Machine.Coroutine (Ends ends_pure ends_throw ends_lift ends_get ends_modify ends_call ends_seq
  ends_tryCatch ends_own Runs Runs.ends)

/-- Pointers, stream and records are exactly as they were. -/
structure Traceless (world world' : World) : Prop where
  pending : world'.pending = world.pending
  logical : world'.logical = world.logical
  stream : world'.stream = world.stream
  tasks : world'.tasks = world.tasks

section Ends

variable {σ : Type} {object object' : σ} {world world' : World}

/-- A Redis command is answered and takes effect, and nothing else happens. -/
theorem command_ends {c : Call} {result : Except Err c.Answer}
    (ends : Ends Steady (call c) object world result object' world') (redis : c.Redis) :
    ∃ answer, Steady c world (.ok answer) world' ∧ result = .ok answer ∧ object' = object ∧
      world' = world.after c := by
  obtain ⟨reply, served, rfl, rfl⟩ := ends_call.mp ends
  obtain ⟨⟨answer, rfl⟩, effect⟩ := steady_redis served redis
  exact ⟨answer, served, rfl, rfl, effect⟩

theorem depth_ends {result : Except Err ℕ} (ends : Ends Steady Queue.depth object world result object' world') :
    ∃ depth, result = .ok depth ∧ object' = object ∧ world' = world := by
  rcases ends_tryCatch.mp ends with ⟨depth, measured, rfl⟩ | ⟨error, middle, world'', measured, _⟩
  · obtain ⟨_, _, _, rfl, rfl⟩ := command_ends measured trivial
    exact ⟨depth, rfl, rfl, rfl⟩
  · obtain ⟨_, _, ⟨⟩, _⟩ := command_ends measured trivial

theorem setPendingNx_reply {key : String} {taskId : TaskId} {answer : Bool}
    (served : Steady (.setPendingNx key taskId) world (.ok answer) world') :
    answer = (world.pending key).isNone := by
  cases served with
  | effective served => exact Except.ok.inj served.1.choose_spec

theorem save_ends {task task' : ReportTask} {result : Except Err Unit}
    (ends : Ends Steady Repository.save task world result task' world') :
    result = .ok () ∧ task' = task ∧ world' = world.after (.setTask task) := by
  rcases ends_seq.mp ends with ⟨found, middle, world'', got, saved⟩ | ⟨error, got, rfl⟩
  · obtain ⟨⟨⟩, rfl, rfl⟩ := ends_get.mp got
    obtain ⟨_, _, rfl, rfl, rfl⟩ := command_ends saved trivial
    exact ⟨rfl, rfl, rfl⟩
  · cases (ends_get.mp got).1

theorem clearPending_ends {logicalPath : String} {includeAmended : Bool} {result : Except Err Unit}
    (ends : Ends Steady (Repository.clearPending logicalPath includeAmended) object world result object' world') :
    result = .ok () ∧ object' = object ∧
      world' = world.after (.deletePending (pendingTaskKey logicalPath includeAmended)) := by
  obtain ⟨_, _, rfl, rfl, rfl⟩ := command_ends ends trivial
  exact ⟨rfl, rfl, rfl⟩

/-- The record of a new task is saved under its own id. -/
theorem createTask_ends {taskId : TaskId} {identity : ReportIdentity} {includeAmended : Bool}
    {result : Except Err (ReportTask × Bool)}
    (ends : Ends Steady (Repository.createTask taskId identity includeAmended) object world result object' world') :
    result = .ok (.fresh taskId identity includeAmended, true) ∧ object' = object ∧
      world' = world.after (.setTask (.fresh taskId identity includeAmended)) := by
  rcases ends_seq.mp ends with ⟨⟨_, task⟩, middle, world'', own, returned⟩ | ⟨error, own, rfl⟩
  · obtain ⟨ended, task', saved, same, rfl⟩ := ends_own.mp own
    obtain ⟨rfl, rfl, rfl⟩ := save_ends saved
    cases same
    exact ends_pure.mp returned
  · obtain ⟨ended, task', saved, same, rfl⟩ := ends_own.mp own
    obtain ⟨rfl, _, _⟩ := save_ends saved
    cases same

/-- Looking the pointer up changes nothing. -/
theorem existingTask_ends {pendingKey : String} {result : Except Err (Option ReportTask)}
    (ends : Ends Steady (Repository.existingTask pendingKey) object world result object' world') :
    (∃ existing, result = .ok existing) ∧ object' = object ∧ world' = world := by
  rcases ends_seq.mp ends with ⟨pointer, middle, world'', looked, later⟩ | ⟨error, looked, _⟩
  · obtain ⟨_, _, _, rfl, rfl⟩ := command_ends looked trivial
    cases pointer with
    | none =>
      obtain ⟨rfl, rfl, rfl⟩ := ends_pure.mp later
      exact ⟨⟨none, rfl⟩, rfl, rfl⟩
    | some existingId =>
      dsimp only at later
      split_ifs at later
      · obtain ⟨rfl, rfl, rfl⟩ := ends_pure.mp later
        exact ⟨⟨none, rfl⟩, rfl, rfl⟩
      · obtain ⟨task, _, rfl, rfl, rfl⟩ := command_ends later trivial
        exact ⟨⟨task, rfl⟩, rfl, rfl⟩
  · obtain ⟨_, _, ⟨⟩, _⟩ := command_ends looked trivial

/-- Without an artifact or a task of its own, a new task comes with its pointer and its record. -/
theorem getOrCreateTask_ends {taskId : TaskId} {identity : ReportIdentity} {includeAmended : Bool}
    {result : Except Err (ReportTask × Bool)}
    (ends : Ends Steady (Repository.getOrCreateTask taskId identity includeAmended) object world result object'
      world') :
    (∃ existing, result = .ok (existing, false)) ∨
      result = .ok (.fresh taskId identity includeAmended, true) ∧ object' = object ∧
        world' = { world with
          pending := Function.update world.pending (pendingTaskKey identity.logicalPath includeAmended) (some taskId)
          tasks := Function.update world.tasks taskId (some (.fresh taskId identity includeAmended)) } := by
  rcases ends_seq.mp ends with ⟨created, middle, world'', registered, ends'⟩ | ⟨error, registered, _⟩
  · obtain ⟨_, served, ⟨⟩, rfl, rfl⟩ := command_ends registered trivial
    have free := setPendingNx_reply served
    cases created with
    | true =>
      obtain ⟨rfl, rfl, rfl⟩ := createTask_ends ends'
      refine .inr ⟨rfl, rfl, ?_⟩
      simp only [World.after, ← free, ↓reduceIte]
      rfl
    | false =>
      have pointed : world.after (.setPendingNx (pendingTaskKey identity.logicalPath includeAmended) taskId) =
          world := by
        simp only [World.after, ← free, Bool.false_eq_true, ↓reduceIte]
      rw [pointed] at ends'
      rcases ends_seq.mp ends' with ⟨existing, middle, world'', looked, later⟩ | ⟨error, looked, _⟩
      · obtain ⟨_, rfl, rfl⟩ := existingTask_ends looked
        cases existing with
        | some existing => exact .inl ⟨existing, (ends_pure.mp later).1⟩
        | none =>
          rcases ends_seq.mp later with ⟨_, middle, world'', reclaimed, created⟩ | ⟨error, reclaimed, _⟩
          · obtain ⟨_, _, _, rfl, rfl⟩ := command_ends reclaimed trivial
            exact .inr (createTask_ends created)
          · obtain ⟨_, _, ⟨⟩, _⟩ := command_ends reclaimed trivial
      · obtain ⟨⟨_, ⟨⟩⟩, _⟩ := existingTask_ends looked
  · obtain ⟨_, _, ⟨⟩, _⟩ := command_ends registered trivial

theorem queue_ends {task task' : ReportTask} {result : Except Err Unit}
    (accepted : task.state = .accepted)
    (ends : Ends Steady (Repository.transition .queued id) task world result task' world') :
    result = .ok () ∧ task' = { task with state := .queued } ∧
      world' = world.after (.setTask { task with state := .queued }) := by
  have legal : assertTransition task.state .queued = .ok () := by
    rw [accepted]
    rfl
  rcases ends_seq.mp ends with ⟨found, middle, world'', got, checked⟩ | ⟨error, got, _⟩
  · obtain ⟨⟨⟩, rfl, rfl⟩ := ends_get.mp got
    rcases ends_seq.mp checked with ⟨_, middle, world'', passed, changed⟩ | ⟨error, passed, _⟩
    · obtain ⟨_, rfl, rfl⟩ := ends_lift.mp passed
      rcases ends_seq.mp changed with ⟨_, middle, world'', modified, stored⟩ | ⟨error, modified, _⟩
      · obtain ⟨_, rfl, rfl⟩ := ends_modify.mp modified
        rcases ends_seq.mp stored with ⟨_, middle, world'', saved, left⟩ | ⟨error, saved, rfl⟩
        · obtain ⟨_, rfl, rfl⟩ := save_ends saved
          exact ends_pure.mp left
        · obtain ⟨⟨⟩, _⟩ := save_ends saved
      · obtain ⟨⟨⟩, _⟩ := ends_modify.mp modified
    · obtain ⟨same, _⟩ := ends_lift.mp passed
      rw [legal] at same
      cases same
  · obtain ⟨⟨⟩, _⟩ := ends_get.mp got

/-- An entry is added, or the queue is full. -/
theorem enqueue_ends {settings : Settings} {taskId : TaskId} {result : Except Err Unit}
    (ends : Ends Steady (Queue.enqueue settings taskId) object world result object' world') :
    object' = object ∧ (result = .ok () ∨
      ∃ depth, result = .error (.queueFull depth settings.maxQueueDepth) ∧ world' = world) := by
  rcases ends_seq.mp ends with ⟨depth, middle, world'', measured, checked⟩ | ⟨error, measured, _⟩
  · obtain ⟨_, _, rfl, rfl⟩ := depth_ends measured
    dsimp only at checked
    split_ifs at checked
    · rcases ends_seq.mp checked with ⟨_, middle, world'', thrown, _⟩ | ⟨error, thrown, rfl⟩
      · obtain ⟨⟨⟩, _⟩ := ends_throw.mp thrown
      · obtain ⟨⟨⟩, rfl, rfl⟩ := ends_throw.mp thrown
        exact ⟨rfl, .inr ⟨depth, rfl, rfl⟩⟩
    · obtain ⟨_, _, rfl, rfl, _⟩ := command_ends checked trivial
      exact ⟨rfl, .inl rfl⟩
  · obtain ⟨_, ⟨⟩, _⟩ := depth_ends measured

/-- A refusal deletes the pointer. -/
theorem refuse_ends {α : Type} {identity : ReportIdentity} {includeAmended : Bool} {detail : String}
    {response response' : HttpResponse} {result : Except Err α}
    (ends : Ends Steady (Routes.refuse identity includeAmended detail) response world result response' world') :
    result = .error (.http 429 detail) ∧
      world' = world.after (.deletePending (pendingTaskKey identity.logicalPath includeAmended)) := by
  rcases ends_seq.mp ends with ⟨_, middle, world'', cleared, later⟩ | ⟨error, cleared, _⟩
  · obtain ⟨_, rfl, rfl⟩ := clearPending_ends cleared
    rcases ends_seq.mp later with ⟨_, middle, world'', modified, thrown⟩ | ⟨error, modified, _⟩
    · obtain ⟨_, _, rfl⟩ := ends_modify.mp modified
      obtain ⟨rfl, _, rfl⟩ := ends_throw.mp thrown
      exact ⟨rfl, rfl⟩
    · obtain ⟨⟨⟩, _⟩ := ends_modify.mp modified
  · obtain ⟨⟨⟩, _⟩ := clearPending_ends cleared

theorem hasCapacity_ends {settings : Settings} {result : Except Err Bool}
    (ends : Ends Steady (Queue.hasCapacity settings) object world result object' world') :
    ∃ room, result = .ok room ∧ object' = object ∧ world' = world := by
  rcases ends_seq.mp ends with ⟨depth, middle, world'', measured, answered⟩ | ⟨error, measured, _⟩
  · obtain ⟨_, _, rfl, rfl⟩ := depth_ends measured
    obtain ⟨rfl, rfl, rfl⟩ := ends_pure.mp answered
    exact ⟨_, rfl, rfl, rfl⟩
  · obtain ⟨_, ⟨⟩, _⟩ := depth_ends measured

/-- A task that is not admitted keeps its record, ACCEPTED at the first exit and QUEUED at the second. -/
theorem admitTask_ends {settings : Settings} {identity : ReportIdentity} {includeAmended : Bool}
    {task : ReportTask} {detail : String} {response response' : HttpResponse}
    (accepted : task.state = .accepted)
    (ends : Ends Steady (Routes.admitTask settings identity includeAmended task) response world
      (.error (.http 429 detail)) response' world') :
    world' = world.after (.deletePending (pendingTaskKey identity.logicalPath includeAmended)) ∨
      world' = (world.after (.setTask { task with state := .queued })).after
        (.deletePending (pendingTaskKey identity.logicalPath includeAmended)) := by
  rcases ends_seq.mp ends with ⟨room, middle, world'', measured, later⟩ | ⟨error, measured, _⟩
  · obtain ⟨_, _, rfl, rfl⟩ := hasCapacity_ends measured
    cases room with
    | false => exact .inl (refuse_ends later).2
    | true =>
      rcases ends_seq.mp later with ⟨⟨_, task'⟩, middle, world'', own, offered⟩ | ⟨error, own, _⟩
      · obtain ⟨ended, task'', queued, same, rfl⟩ := ends_own.mp own
        obtain ⟨rfl, rfl, rfl⟩ := queue_ends accepted queued
        cases same
        rcases ends_seq.mp offered with ⟨_, middle, world'', _, returned⟩ | ⟨error, caught, same⟩
        · obtain ⟨⟨⟩, _⟩ := ends_pure.mp returned
        · rcases ends_tryCatch.mp caught with ⟨_, _, ⟨⟩⟩ | ⟨error, middle, world'', enqueued, handled⟩
          obtain ⟨rfl, ⟨⟨⟩⟩ | ⟨depth, ⟨⟩, rfl⟩⟩ := enqueue_ends enqueued
          exact .inr (refuse_ends handled).2
      · obtain ⟨ended, task'', queued, same, _⟩ := ends_own.mp own
        obtain ⟨rfl, _⟩ := queue_ends accepted queued
        cases same
  · obtain ⟨_, ⟨⟩, _⟩ := hasCapacity_ends measured

theorem getCurrentArtifact_ends {logicalPath : String} {includeAmended : Bool}
    {result : Except Err (Option CurrentArtifact)}
    (ends : Ends Steady (Repository.getCurrentArtifact logicalPath includeAmended) object world result object'
      world') : ∃ artifact, result = .ok artifact ∧ object' = object ∧ world' = world := by
  obtain ⟨artifact, _, rfl, rfl, rfl⟩ := command_ends ends trivial
  exact ⟨artifact, rfl, rfl, rfl⟩

end Ends

/-- What a rejected request leaves: its pointer is gone, even if there was one before, its record is not. -/
structure Leftover (taskId : TaskId) (identity : ReportIdentity) (includeAmended : Bool)
    (world world' : World) : Prop where
  pending : world'.pending = Function.update world.pending (pendingTaskKey identity.logicalPath includeAmended) none
  logical : world'.logical = world.logical
  stream : world'.stream = world.stream
  tasks : ∃ state, (state = .accepted ∨ state = .queued) ∧
    world'.tasks = Function.update world.tasks taskId
      (some { ReportTask.fresh taskId identity includeAmended with state := state })

theorem Leftover.not_traceless {taskId : TaskId} {identity : ReportIdentity} {includeAmended : Bool}
    {world world' : World} (left : Leftover taskId identity includeAmended world world')
    (unused : world.tasks taskId = none) : ¬ Traceless world world' := by
  intro traceless
  obtain ⟨state, _, tasks⟩ := left.tasks
  have found := congrFun (tasks.symm.trans traceless.tasks) taskId
  rw [Function.update_self, unused] at found
  cases found

/-- The checks before the first await answer 404 and 400. -/
theorem requestedIdentity_not_429 {cikMapping : CikMapping} {payload : CreateReportRequest} {detail : String}
    (refused : Routes.requestedIdentity cikMapping payload = .error (.http 429 detail)) : False := by
  unfold Routes.requestedIdentity at refused
  split at refused
  · cases refused
  · split at refused <;> cases refused

theorem createReport_leftover {settings : Settings} {cikMapping : CikMapping} {taskId : TaskId}
    {payload : CreateReportRequest} {response response' : HttpResponse} {world world' : World} {detail : String}
    (ends : Ends Steady (Routes.createReport settings cikMapping taskId payload) response world
      (.error (.http 429 detail)) response' world') :
    ∃ identity, Routes.requestedIdentity cikMapping payload = .ok identity ∧
      Leftover taskId identity payload.includeAmended world world' := by
  rcases ends_seq.mp ends with ⟨identity, middle, world'', checked, later⟩ | ⟨error, checked, same⟩
  · obtain ⟨requested, rfl, rfl⟩ := ends_lift.mp checked
    refine ⟨identity, requested.symm, ?_⟩
    rcases ends_seq.mp later with ⟨artifact, middle, world'', looked, missed⟩ | ⟨error, looked, _⟩
    · obtain ⟨_, _, rfl, rfl⟩ := getCurrentArtifact_ends looked
      cases artifact with
      | some artifact =>
        rcases ends_seq.mp missed with ⟨_, _, _, _, returned⟩ | ⟨_, modified, _⟩
        · obtain ⟨⟨⟩, _⟩ := ends_pure.mp returned
        · obtain ⟨⟨⟩, _⟩ := ends_modify.mp modified
      | none =>
        rcases ends_seq.mp missed with ⟨⟨task, created⟩, middle, world'', registered, admitted⟩ | ⟨error, registered, _⟩
        · rcases getOrCreateTask_ends registered with ⟨existing, ⟨⟩⟩ | ⟨⟨⟩, rfl, rfl⟩
          · rcases ends_seq.mp admitted with ⟨_, middle, world'', attached, answered⟩ | ⟨error, attached, _⟩
            · rcases ends_seq.mp answered with ⟨_, _, _, _, returned⟩ | ⟨_, modified, _⟩
              · obtain ⟨⟨⟩, _⟩ := ends_pure.mp returned
              · obtain ⟨⟨⟩, _⟩ := ends_modify.mp modified
            · obtain ⟨⟨⟩, _⟩ := ends_pure.mp attached
          · rcases ends_seq.mp admitted with ⟨_, middle, world'', _, answered⟩ | ⟨error, refused, same⟩
            · rcases ends_seq.mp answered with ⟨_, _, _, _, returned⟩ | ⟨_, modified, _⟩
              · obtain ⟨⟨⟩, _⟩ := ends_pure.mp returned
              · obtain ⟨⟨⟩, _⟩ := ends_modify.mp modified
            · cases same
              rcases admitTask_ends rfl refused with rfl | rfl
              · exact
                  { pending := Function.update_idem ..
                    logical := rfl
                    stream := rfl
                    tasks := ⟨.accepted, .inl rfl, rfl⟩ }
              · exact
                  { pending := Function.update_idem ..
                    logical := rfl
                    stream := rfl
                    tasks := ⟨.queued, .inr rfl, Function.update_idem ..⟩ }
        · obtain ⟨_, ⟨⟩⟩ | ⟨⟨⟩, _⟩ := getOrCreateTask_ends registered
    · obtain ⟨_, ⟨⟩, _⟩ := getCurrentArtifact_ends looked
  · cases same
    obtain ⟨refused, _⟩ := ends_lift.mp checked
    exact (requestedIdentity_not_429 refused.symm).elim

/-! ### Every rejected request leaves its record -/

/-- A queue with room for one entry, and another task's entry in it. -/
def fullQueue : World := { Sample.world with stream := [Entry.new "task-0"] }

theorem fullQueue_rejects : ∃ response world',
    Ends Steady (Routes.createReport (Sample.settings 1) Sample.cikMapping "task-1" (Sample.payload (some 2024)))
      .fresh fullQueue (.error (.http 429 "System reached maximum capacity, please retry later")) response
      world' := by
  have serves : ∀ call world, Steady call world (World.answer Sample.outside call world).1
      (World.answer Sample.outside call world).2 := fun call world => .effective (World.reliable Sample.outside call world)
  exact ⟨_, _, Runs.ends serves (Runs.bind (Runs.lift Sample.requested) rfl)⟩

/-- A request that is answered 429 leaves a record behind. -/
theorem full_queue_leaves_record :
    ¬ ∀ (settings : Settings) (cikMapping : CikMapping) (taskId : TaskId) (payload : CreateReportRequest)
      (response response' : HttpResponse) (world world' : World) (detail : String),
      world.tasks taskId = none →
      Ends Steady (Routes.createReport settings cikMapping taskId payload) response world
        (.error (.http 429 detail)) response' world' →
      Traceless world world' := by
  intro claimed
  obtain ⟨response, world', rejected⟩ := fullQueue_rejects
  obtain ⟨_, _, left⟩ := createReport_leftover rejected
  exact left.not_traceless rfl (claimed _ _ _ _ _ _ _ _ _ rfl rejected)

/-- Whatever the state of the store, a request that is answered 429 leaves a trace: the record of the task it
created stays, and a pointer it found is gone. -/
theorem rejection_leaves_record (settings : Settings) (cikMapping : CikMapping) (taskId : TaskId)
    (payload : CreateReportRequest) (response response' : HttpResponse) (world world' : World) (detail : String)
    (unused : world.tasks taskId = none)
    (rejected : Ends Steady (Routes.createReport settings cikMapping taskId payload) response world
      (.error (.http 429 detail)) response' world') :
    ¬ Traceless world world' ∧
      ∃ identity, Routes.requestedIdentity cikMapping payload = .ok identity ∧
        Leftover taskId identity payload.includeAmended world world' := by
  obtain ⟨identity, requested, left⟩ := createReport_leftover rejected
  exact ⟨left.not_traceless unused, identity, requested, left⟩

theorem rejection_leaves_record_full : ∃ world', ¬ Traceless fullQueue world' := by
  obtain ⟨response, world', rejected⟩ := fullQueue_rejects
  exact ⟨world', (rejection_leaves_record _ _ _ _ _ _ _ _ _ rfl rejected).1⟩

end Quartr.Soundness
