import Quartr.Soundness.Turns

/-! # The course of an activity while Redis does not fail

What holds of the task a request or a handling works on, phase by phase, as long as nobody else
works on it: `RequestCourse` and `HandlingCourse`. A handling ends its work by retiring the task, or
by leaving it QUEUED to an entry, its own or a new one.
-/

namespace Quartr.Soundness

open Quartr.Machine Quartr.Model

/-! ### A step concerns one task -/

/-- Everything about other tasks is as it was, except that they may have lost pointers. -/
structure Confined (actor : TaskId) (world world' : World) : Prop where
  tasks : ∀ taskId, taskId ≠ actor → world'.tasks taskId = world.tasks taskId
  entries : ∀ (index : ℕ) (entry : Entry), fieldsTaskId entry.fields ≠ some actor →
    (world'.stream[index]? = some entry ↔ world.stream[index]? = some entry)
  pointers : ∀ taskId key, taskId ≠ actor → world'.pending key = some taskId →
    world.pending key = some taskId

/-- The record of the task is as it was, and the task has at most lost pointers. -/
structure Spares (taskId : TaskId) (world world' : World) : Prop where
  tasks : world'.tasks taskId = world.tasks taskId
  pointers : ∀ key, world'.pending key = some taskId → world.pending key = some taskId

/-- Every pointer that holds the task has this key. -/
def PointedUnder (world : World) (taskId : TaskId) (key : String) : Prop :=
  ∀ key', world.pending key' = some taskId → key' = key

/-- The record of the task and the place of its pointer. -/
structure Recorded (world : World) (taskId : TaskId) (task : ReportTask) : Prop where
  own : task.taskId = taskId
  stored : world.tasks taskId = some task
  pointer : PointedUnder world taskId task.pendingKey

/-- The record is QUEUED, each of the handlings begun so far has cost an attempt, and there are
attempts left. -/
def Queueing (limit begun : ℕ) (world : World) (taskId : TaskId) : Prop :=
  ∃ task, Recorded world taskId task ∧ task.state = .queued ∧ begun ≤ task.attempts ∧
    (task.attempts = 0 ∨ task.attempts < limit)

/-- The task is COMPLETED or FAILED and no pointer holds it. -/
def Retired (world : World) (taskId : TaskId) : Prop :=
  Done world taskId ∧ ∀ key, world.pending key ≠ some taskId

section Confined

variable {actor taskId : TaskId} {world world' : World} {index limit begun : ℕ} {task saved : ReportTask}

theorem Confined.refl (actor : TaskId) (world : World) : Confined actor world world :=
  ⟨fun _ _ => rfl, fun _ _ _ => Iff.rfl, fun _ _ _ held => held⟩

theorem Confined.hasEntry (confined : Confined actor world world') (other : taskId ≠ actor) :
    world'.HasEntry taskId ↔ world.HasEntry taskId := by
  rw [hasEntry_iff, hasEntry_iff]
  apply exists_congr
  intro index
  apply exists_congr
  intro entry
  apply and_congr_left
  intro named
  apply confined.entries
  rw [named, ne_eq, Option.some.injEq]
  exact other

theorem Confined.unacked (confined : Confined actor world world') (other : taskId ≠ actor) :
    UnackedAt world' taskId index ↔ UnackedAt world taskId index := by
  apply exists_congr
  intro entry
  apply and_congr_left
  intro unacked
  apply confined.entries
  rw [unacked.1, ne_eq, Option.some.injEq]
  exact other

theorem Confined.spares (confined : Confined actor world world') (other : taskId ≠ actor) :
    Spares taskId world world' :=
  ⟨confined.tasks taskId other, fun key held => confined.pointers taskId key other held⟩

theorem spares_same (tasks : world'.tasks = world.tasks) (pending : world'.pending = world.pending) :
    Spares taskId world world' := by
  constructor
  · rw [tasks]
  · intro key held
    rw [pending] at held
    exact held

theorem PointedUnder.spared {key : String} (pointed : PointedUnder world taskId key)
    (spares : Spares taskId world world') : PointedUnder world' taskId key :=
  fun key' held => pointed key' (spares.pointers key' held)

theorem Recorded.spared (recorded : Recorded world taskId task) (spares : Spares taskId world world') :
    Recorded world' taskId task :=
  ⟨recorded.own, spares.tasks.trans recorded.stored, recorded.pointer.spared spares⟩

theorem Queueing.spared (queueing : Queueing limit begun world taskId)
    (spares : Spares taskId world world') : Queueing limit begun world' taskId := by
  obtain ⟨task, recorded, rest⟩ := queueing
  exact ⟨task, recorded.spared spares, rest⟩

theorem Retired.spared (retired : Retired world taskId) (spares : Spares taskId world world') :
    Retired world' taskId := by
  obtain ⟨⟨task, stored, terminal⟩, unpointed⟩ := retired
  constructor
  · exact ⟨task, spares.tasks.trans stored, terminal⟩
  · intro key held
    exact unpointed key (spares.pointers key held)

theorem Untouched.confined (untouched : Untouched world taskId) (confined : Confined actor world world')
    (other : taskId ≠ actor) : Untouched world' taskId := by
  constructor
  · exact (confined.tasks taskId other).trans untouched.tasks
  · intro key held
    exact untouched.pending key (confined.pointers taskId key other held)
  · rw [confined.hasEntry other]
    exact untouched.entries

/-- A save of the task under the key its pointer has. -/
theorem Recorded.save (recorded : Recorded world taskId task) (own : saved.taskId = taskId)
    (key : saved.pendingKey = task.pendingKey) :
    Recorded (world.after (.setTask saved)) taskId saved := by
  constructor
  · exact own
  · rw [World.after_tasks, ← own]
    exact Function.update_self ..
  · rw [key]
    exact recorded.pointer

/-- Deleting the one pointer of a finished task retires it. -/
theorem Recorded.retired (recorded : Recorded world taskId task) (terminal : task.state.Terminal) :
    Retired (world.after (.deletePending task.pendingKey)) taskId := by
  constructor
  · exact ⟨task, recorded.stored, terminal⟩
  · intro key held
    by_cases same : key = task.pendingKey
    · simp only [World.after_pending, same, Function.update_self, reduceCtorEq] at held
    · simp only [World.after_pending, Function.update_of_ne same] at held
      exact same (recorded.pointer key held)

/-- Delivery of an entry concerns its task only. -/
theorem confined_deliver {entry : Entry} (present : world.stream[index]? = some entry)
    (named : fieldsTaskId entry.fields = some actor) :
    Confined actor world { world with stream := world.stream.modify index Entry.deliver } := by
  constructor
  · exact fun _ _ => rfl
  · intro other entry' foreign
    simp only [List.getElem?_modify]
    by_cases same : index = other
    · subst same
      simp only [present, ↓reduceIte, Option.map_eq_map, Option.map_some, Option.some.injEq]
      constructor
      · rintro rfl
        rw [deliver_fields] at foreign
        exact absurd named foreign
      · rintro rfl
        exact absurd named foreign
    · simp only [same, ↓reduceIte, id_map']
  · exact fun _ _ _ held => held

/-- A call that saves, adds and registers for one task and touches an entry of that task only. -/
theorem confined_after {call : Call} (saves : ∀ saved, call = .setTask saved → saved.taskId = actor)
    (adds : ∀ added, call = .xadd added → added = actor)
    (touches : ∀ index entry, call = .xack index ∨ call = .xdel index →
      world.stream[index]? = some entry → fieldsTaskId entry.fields = some actor)
    (registers : ∀ key named, call = .setPending key named ∨ call = .setPendingNx key named →
      named = actor) : Confined actor world (world.after call) := by
  constructor
  · intro taskId other
    rw [World.after_tasks]
    cases call with
    | setTask saved =>
      apply Function.update_of_ne
      intro same
      exact other (same.trans (saves saved rfl))
    | _ => rfl
  · have untouched : ∀ (index : ℕ) (entry : Entry), world.stream[index]? = some entry →
        fieldsTaskId entry.fields ≠ some actor → touch call index entry = entry := by
      intro index entry present foreign
      cases call with
      | xack position =>
        by_cases same : position = index
        · subst same
          exact absurd (touches position entry (.inl rfl) present) foreign
        · simp only [touch, same, ↓reduceIte]
      | xdel position =>
        by_cases same : position = index
        · subst same
          exact absurd (touches position entry (.inr rfl) present) foreign
        · simp only [touch, same, ↓reduceIte]
      | _ => rfl
    intro index entry foreign
    constructor
    · intro present
      rcases entry_of_after present with ⟨before, there, rfl⟩ | ⟨added, rfl, _, rfl⟩
      · rw [touch_fields] at foreign
        rw [untouched index before there foreign]
        exact there
      · exact absurd (congrArg some (adds added rfl)) foreign
    · intro present
      rw [after_entry present, untouched index entry present foreign]
  · intro taskId key other held
    rw [World.after_pending] at held
    cases call with
    | setPending key' named =>
      by_cases same : key = key'
      · subst same
        simp only [Function.update_self, Option.some.injEq] at held
        exact absurd (held.symm.trans (registers _ _ (.inl rfl))) other
      · simp only [Function.update_of_ne same] at held
        exact held
    | setPendingNx key' named =>
      dsimp only at held
      split_ifs at held
      · by_cases same : key = key'
        · subst same
          rw [Function.update_self, Option.some.injEq] at held
          exact absurd (held.symm.trans (registers _ _ (.inr rfl))) other
        · rwa [Function.update_of_ne same] at held
      · exact held
    | deletePending key' =>
      by_cases same : key = key'
      · subst same
        simp only [Function.update_self, reduceCtorEq] at held
      · simp only [Function.update_of_ne same] at held
        exact held
    | _ => exact held

end Confined

/-! ### Redis does not fail -/

section Steady

variable {world world' : World} {call : Call} {reply : calls.Reply call}

theorem steady_world (served : Steady call world reply world') :
    world' = world ∨ world' = world.after call := by
  cases served with
  | effective served => exact .inr served.2
  | depth => exact .inl rfl
  | raised outside error effect => exact effect

/-- A Redis command is answered and takes effect. -/
theorem steady_redis (served : Steady call world reply world') (redis : call.Redis) :
    (∃ answer, reply = .ok answer) ∧ world' = world.after call := by
  cases served with
  | effective served =>
    obtain ⟨⟨outside, rfl⟩, rfl⟩ := served
    refine ⟨?_, rfl⟩
    cases call <;> first | exact ⟨_, rfl⟩ | exact redis.elim
  | depth _ depth => exact ⟨⟨depth, rfl⟩, rfl⟩
  | raised outside => exact absurd redis outside

/-- What GET of a record answers. -/
theorem steady_getTask {taskId : TaskId} {reply : calls.Reply (.getTask taskId)}
    (served : Steady (.getTask taskId) world reply world') :
    reply = .ok (world.tasks taskId) ∧ world' = world := by
  cases served with
  | effective served =>
    obtain ⟨⟨outside, same⟩, effect⟩ := served
    exact ⟨same, effect⟩
  | raised outside => exact absurd trivial outside

end Steady

/-! ### The course of a request -/

/-- What holds of the task a request may create while the request is at work. -/
def RequestCourse (ticket : Ticket) (world : World) : RequestPhase → Prop
  | .ended _ => True
  | .creating => ¬ world.HasEntry ticket.taskId ∧
      PointedUnder world ticket.taskId ticket.pendingKey
  | .admitting => ¬ world.HasEntry ticket.taskId ∧
      PointedUnder world ticket.taskId ticket.pendingKey
  | .rejecting => ¬ world.HasEntry ticket.taskId ∧
      PointedUnder world ticket.taskId ticket.pendingKey
  | .queueing => ¬ world.HasEntry ticket.taskId ∧
      PointedUnder world ticket.taskId ticket.pendingKey
  | .measuring => ¬ world.HasEntry ticket.taskId ∧
      Recorded world ticket.taskId ticket.queuedRecord
  | .publishing => ¬ world.HasEntry ticket.taskId ∧
      Recorded world ticket.taskId ticket.queuedRecord
  | _ => Untouched world ticket.taskId

section RequestCourse

variable {ticket : Ticket} {world world' : World} {phase phase' : RequestPhase} {call : Call}
  {reply : calls.Reply call} {actor : TaskId}

/-- Until a request has come to its end its task has no entry. -/
theorem RequestCourse.entryless (course : RequestCourse ticket world phase) :
    (∃ answer, phase = .ended answer) ∨ ¬ world.HasEntry ticket.taskId := by
  cases phase with
  | ended answer => exact .inl ⟨answer, rfl⟩
  | checking => exact .inr course.entries
  | registering => exact .inr course.entries
  | following => exact .inr course.entries
  | attaching existing => exact .inr course.entries
  | reclaiming => exact .inr course.entries
  | _ => exact .inr course.1

theorem RequestCourse.confined (course : RequestCourse ticket world phase)
    (confined : Confined actor world world') (other : ticket.taskId ≠ actor) :
    RequestCourse ticket world' phase := by
  have without : ¬ world.HasEntry ticket.taskId → ¬ world'.HasEntry ticket.taskId :=
    mt (confined.hasEntry other).mp
  have spares := confined.spares other
  cases phase with
  | ended answer => trivial
  | creating => exact ⟨without course.1, course.2.spared spares⟩
  | admitting => exact ⟨without course.1, course.2.spared spares⟩
  | rejecting => exact ⟨without course.1, course.2.spared spares⟩
  | queueing => exact ⟨without course.1, course.2.spared spares⟩
  | measuring => exact ⟨without course.1, course.2.spared spares⟩
  | publishing => exact ⟨without course.1, course.2.spared spares⟩
  | checking => exact Untouched.confined course confined other
  | registering => exact Untouched.confined course confined other
  | following => exact Untouched.confined course confined other
  | attaching existing => exact Untouched.confined course confined other
  | reclaiming => exact Untouched.confined course confined other

theorem RequestPhase.redis (next : phase.call? ticket = some call) : call.Redis := by
  cases phase <;> cases next <;> trivial

theorem RequestStep.confined (step : RequestStep ticket phase call reply phase')
    (served : Steady call world reply world') : Confined ticket.taskId world world' := by
  have mine := step.mine world
  have next := step.call?_eq
  rcases steady_world served with rfl | rfl
  · exact .refl _ _
  · apply confined_after mine.saves mine.adds
    · intro index entry touched present
      rcases touched with rfl | rfl
      · exact mine.acks index entry rfl present
      · cases phase <;> cases next
    · intro key named registered
      rcases registered with rfl | rfl <;> cases phase <;> cases next <;> rfl

/-- A pointer registered for a task nobody has heard of is its only one. -/
theorem Untouched.pointed {taskId : TaskId} (untouched : Untouched world taskId) {key : String}
    (registers : call = .setPending key taskId ∨ call = .setPendingNx key taskId) :
    ¬ (world.after call).HasEntry taskId ∧ PointedUnder (world.after call) taskId key := by
  constructor
  · rcases registers with rfl | rfl <;> exact untouched.entries
  · intro key' held
    by_contra apart
    rw [World.after_pending] at held
    rcases registers with rfl | rfl
    · exact untouched.pending key' ((Function.update_of_ne apart ..).symm.trans held)
    · dsimp only at held
      split_ifs at held
      · exact untouched.pending key' ((Function.update_of_ne apart ..).symm.trans held)
      · exact untouched.pending key' held

theorem RequestCourse.step (course : RequestCourse ticket world phase)
    (step : RequestStep ticket phase call reply phase') (served : Steady call world reply world') :
    RequestCourse ticket world' phase' := by
  obtain ⟨⟨answer, replied⟩, rfl⟩ := steady_redis served (RequestPhase.redis step.call?_eq)
  cases step with
  | cached => trivial
  | uncached => exact course
  | registered => exact Untouched.pointed course (.inr rfl)
  | contended =>
    have taken : (world.pending ticket.pendingKey).isNone = false := by
      cases served with
      | effective served => exact (Except.ok.inj served.1.choose_spec).symm
    have same : world.after (.setPendingNx ticket.pendingKey ticket.taskId) = world := by
      simp only [World.after, taken, Bool.false_eq_true, ↓reduceIte]
    rw [same]
    exact course
  | followed => exact course
  | unfollowed => exact course
  | attached => trivial
  | missing => exact course
  | reclaimed => exact Untouched.pointed course (.inl rfl)
  | created => exact course
  | admitted => exact course
  | refused phase early reply depth read full =>
    rcases early with rfl | rfl
    · exact course
    · exact ⟨course.1, course.2.pointer⟩
  | queued =>
    refine ⟨course.1, rfl, ?_, course.2⟩
    rw [World.after_tasks]
    exact Function.update_self ..
  | measured => exact course
  | published => trivial
  | rejected => trivial
  | raised => cases replied

end RequestCourse

/-! ### The course of a handling -/

/-- A completed record is stored, and a pointer that holds the task has the key of the path it was
registered under. -/
structure Achieved (world : World) (taskId : TaskId) (original : ReportIdentity) (saved : ReportTask) :
    Prop where
  own : saved.taskId = taskId
  stored : world.tasks taskId = some saved
  completed : saved.state = .completed
  pointer : PointedUnder world taskId (pendingTaskKey original.logicalPath saved.includeAmended)

/-- What holds of the task while a handling works on it; `begun` handlings of it have begun. -/
def HandlingCourse (limit begun : ℕ) (taskId : TaskId) (world : World) : HandlingPhase → Prop
  | .fresh => ∃ task, Recorded world taskId task ∧ task.state = .queued ∧ begun ≤ task.attempts + 1
  | .loaded task => Recorded world taskId task ∧ task.state = .queued ∧ begun ≤ task.attempts + 1
  | .running task _ => Recorded world taskId task ∧ task.state = .processing ∧ begun ≤ task.attempts + 1
  | .completed original saved => Achieved world taskId original saved
  | .released original saved => Achieved world taskId original saved ∧
      ∀ key, world.pending key = some taskId → saved.identity.logicalPath ≠ original.logicalPath
  | .published original saved => Achieved world taskId original saved
  | .failed saved => Recorded world taskId saved ∧ saved.state = .failed
  | .retrying saved => Recorded world taskId saved ∧ begun ≤ saved.attempts ∧ saved.attempts < limit
  | .queued saved => Recorded world taskId saved ∧ saved.state = .queued ∧ begun ≤ saved.attempts ∧
      saved.attempts < limit
  | .measured saved => Recorded world taskId saved ∧ saved.state = .queued ∧ begun ≤ saved.attempts ∧
      saved.attempts < limit
  | .broken saved => Recorded world taskId saved ∧ saved.state = .queued ∧ begun ≤ saved.attempts ∧
      saved.attempts < limit
  | .dying current => ∃ task, Recorded world taskId task ∧
      current = { task with attempts := task.attempts + 1 }
  | .counting current => ∃ task, Recorded world taskId task ∧ task.state = .queued ∧
      begun ≤ task.attempts ∧ current = { task with attempts := task.attempts + 1 } ∧
      current.attempts < limit
  | .buried saved => Recorded world taskId saved ∧ saved.state = .failed
  | .finished => True
  | .acked => True
  | .stopped => True

/-- Where a step takes a handling that works on the task: further, to the end of the task, or to an
entry that waits. -/
inductive Advance (limit begun : ℕ) (taskId : TaskId) (world world' : World) (call : Call) :
    HandlingPhase → Prop
  | onward {phase : HandlingPhase} (owes : Owes phase)
      (course : HandlingCourse limit begun taskId world' phase) (stream : world'.stream = world.stream) :
      Advance limit begun taskId world world' call phase
  | retired (retired : Retired world' taskId) (stream : world'.stream = world.stream) :
      Advance limit begun taskId world world' call .finished
  | left (queueing : Queueing limit begun world' taskId) (stream : world'.stream = world.stream) :
      Advance limit begun taskId world world' call .stopped
  | requeued (queueing : Queueing limit begun world' taskId) (added : call = .xadd taskId)
      (effect : world' = world.after call) : Advance limit begun taskId world world' call .finished

section HandlingCourse

variable {worker : Worker} {entry limit begun : ℕ} {taskId actor : TaskId} {world world' : World}
  {phase phase' : HandlingPhase} {call : Call} {reply : calls.Reply call} {task saved : ReportTask}
  {original : ReportIdentity}

theorem Achieved.spared (achieved : Achieved world taskId original saved)
    (spares : Spares taskId world world') : Achieved world' taskId original saved :=
  ⟨achieved.own, spares.tasks.trans achieved.stored, achieved.completed, achieved.pointer.spared spares⟩

theorem HandlingCourse.spared (course : HandlingCourse limit begun taskId world phase)
    (spares : Spares taskId world world') : HandlingCourse limit begun taskId world' phase := by
  cases phase with
  | fresh =>
    obtain ⟨task, recorded, rest⟩ := course
    exact ⟨task, recorded.spared spares, rest⟩
  | dying current =>
    obtain ⟨task, recorded, rest⟩ := course
    exact ⟨task, recorded.spared spares, rest⟩
  | counting current =>
    obtain ⟨task, recorded, rest⟩ := course
    exact ⟨task, recorded.spared spares, rest⟩
  | completed original saved => exact Achieved.spared course spares
  | published original saved => exact Achieved.spared course spares
  | released original saved =>
    exact ⟨course.1.spared spares, fun key held => course.2 key (spares.pointers key held)⟩
  | finished => trivial
  | acked => trivial
  | stopped => trivial
  | _ => exact ⟨course.1.spared spares, course.2⟩

/-- Every copy a handling holds is one of its own task. -/
theorem HandlingCourse.holds (course : HandlingCourse limit begun taskId world phase) :
    phase.Holds fun task => task.taskId = taskId := by
  cases phase with
  | fresh => exact holds_of_none rfl
  | finished => exact holds_of_none rfl
  | acked => exact holds_of_none rfl
  | stopped => exact holds_of_none rfl
  | dying current =>
    obtain ⟨task, recorded, rfl⟩ := course
    rintro _ ⟨⟩
    exact recorded.own
  | counting current =>
    obtain ⟨task, recorded, _, _, rfl, _⟩ := course
    rintro _ ⟨⟩
    exact recorded.own
  | completed original saved => exact holds_of_task course.own rfl
  | published original saved => exact holds_of_task course.own rfl
  | _ => exact holds_of_task course.1.own rfl

theorem HandlingStep.confined (step : HandlingStep worker entry taskId phase call reply phase')
    (held : phase.Holds fun task => task.taskId = taskId) {own : Entry}
    (present : world.stream[entry]? = some own) (named : fieldsTaskId own.fields = some taskId)
    (served : Steady call world reply world') : Confined taskId world world' := by
  have mine := step.mine held present named
  rcases steady_world served with rfl | rfl
  · exact .refl _ _
  · apply confined_after mine.saves mine.adds
    · intro index entry' touched there
      rcases touched with rfl | rfl
      · exact mine.acks index entry' rfl there
      · cases step with
        | pipeline _ _ _ _ outside => exact outside.elim
        | remove =>
          cases present.symm.trans there
          exact named
    · intro key other registers
      rcases registers with rfl | rfl <;> cases step <;> rename_i outside <;> exact outside.elim

/-- A completed record whose one pointer is deleted is retired. -/
theorem Achieved.retired (achieved : Achieved world taskId original saved) :
    Retired (world.after (.deletePending (pendingTaskKey original.logicalPath saved.includeAmended)))
      taskId := by
  constructor
  · exact ⟨saved, achieved.stored, .inl achieved.completed⟩
  · intro key held
    by_cases same : key = pendingTaskKey original.logicalPath saved.includeAmended
    · simp only [World.after_pending, same, Function.update_self, reduceCtorEq] at held
    · simp only [World.after_pending, Function.update_of_ne same] at held
      exact same (achieved.pointer key held)

theorem HandlingCourse.step
    (course : HandlingCourse worker.settings.retryMaxAttempts begun taskId world phase)
    (owes : Owes phase) (step : HandlingStep worker entry taskId phase call reply phase')
    (served : Steady call world reply world') :
    Advance worker.settings.retryMaxAttempts begun taskId world world' call phase' := by
  cases step with
  | missed =>
    obtain ⟨task, recorded, _⟩ := course
    cases recorded.stored.symm.trans (Except.ok.inj (steady_getTask served).1).symm
  | load task =>
    obtain ⟨task', recorded, queued, count⟩ := course
    obtain ⟨read, rfl⟩ := steady_getTask served
    cases recorded.stored.symm.trans (Except.ok.inj read).symm
    simp only [HandlingPhase.entering, queued]
    exact .onward (owes_of_working trivial) ⟨recorded, queued, count⟩ rfl
  | unread => cases (steady_getTask served).1
  | start task saved reply legal result =>
    obtain ⟨recorded, _, count⟩ := course
    obtain ⟨⟨answer, rfl⟩, rfl⟩ := steady_redis served trivial
    subst result
    exact .onward (owes_of_working trivial) ⟨recorded.save recorded.own rfl, rfl, count⟩ rfl
  | pipeline task stored _ _ outside =>
    obtain ⟨recorded, rest⟩ := course
    obtain ⟨tasks, pending, _, stream⟩ := outside.after world
    rcases steady_world served with rfl | rfl
    · exact .onward (owes_of_working trivial) ⟨recorded, rest⟩ rfl
    · exact .onward (owes_of_working trivial) ⟨recorded.spared (spares_same tasks pending), rest⟩ stream
  | complete task saved stored selection reply legal selects present result =>
    obtain ⟨recorded, _, _⟩ := course
    obtain ⟨⟨answer, rfl⟩, rfl⟩ := steady_redis served trivial
    subst result
    refine .onward (owes_of_working trivial) ⟨recorded.own, ?_, rfl, recorded.pointer⟩ rfl
    rw [World.after_tasks, ← recorded.own]
    exact Function.update_self ..
  | release original saved =>
    obtain ⟨⟨answer, rfl⟩, rfl⟩ := steady_redis served trivial
    have fewer (key : String) (held : (world.after (.deletePending saved.pendingKey)).pending key =
        some taskId) : world.pending key = some taskId ∧ key ≠ saved.pendingKey := by
      by_cases same : key = saved.pendingKey
      · simp only [World.after_pending, same, Function.update_self, reduceCtorEq] at held
      · simp only [World.after_pending, Function.update_of_ne same] at held
        exact ⟨held, same⟩
    refine .onward (owes_of_working trivial) ⟨⟨course.own, course.stored, course.completed, ?_⟩, ?_⟩ rfl
    · exact fun key held => course.pointer key (fewer key held).1
    · intro key held same
      apply (fewer key held).2
      rw [course.pointer key (fewer key held).1, ReportTask.pendingKey, same]
  | publish original saved filing path filed stored =>
    obtain ⟨achieved, moved⟩ := course
    obtain ⟨⟨answer, rfl⟩, rfl⟩ := steady_redis served trivial
    simp only [HandlingPhase.bookkept]
    split_ifs with differs
    · exact .onward (owes_of_working trivial)
        ⟨achieved.own, achieved.stored, achieved.completed, achieved.pointer⟩ rfl
    · refine .retired ⟨⟨saved, achieved.stored, .inl achieved.completed⟩, ?_⟩ rfl
      intro key held
      exact differs (moved key held)
  | unpin original saved =>
    obtain ⟨_, rfl⟩ := steady_redis served trivial
    exact .retired (Achieved.retired course) rfl
  | fail task object saved stored message spent reply legal attempted budget result =>
    obtain ⟨recorded, processing, _⟩ := course
    obtain ⟨⟨answer, rfl⟩, rfl⟩ := steady_redis served trivial
    obtain rfl := attempted.eq_of_processing processing
    subst result
    exact .onward (owes_of_working trivial) ⟨recorded.save recorded.own rfl, rfl⟩ rfl
  | clear saved =>
    obtain ⟨recorded, failed⟩ := course
    obtain ⟨⟨answer, rfl⟩, rfl⟩ := steady_redis served trivial
    exact .retired (recorded.retired (.inr failed)) rfl
  | retry task object saved stored message reply legal attempted budget result =>
    obtain ⟨recorded, processing, count⟩ := course
    obtain ⟨⟨answer, rfl⟩, rfl⟩ := steady_redis served trivial
    obtain rfl := attempted.eq_of_processing processing
    subst result
    exact .onward (owes_of_working trivial) ⟨recorded.save recorded.own rfl, count, budget⟩ rfl
  | requeue saved =>
    obtain ⟨recorded, rest⟩ := course
    obtain ⟨⟨answer, rfl⟩, rfl⟩ := steady_redis served trivial
    exact .onward (owes_of_working trivial) ⟨recorded.save recorded.own rfl, rfl, rest⟩ rfl
  | measure =>
    obtain ⟨_, rfl⟩ := steady_redis served trivial
    exact .onward (owes_of_working trivial) course rfl
  | overfull =>
    obtain ⟨_, rfl⟩ := steady_redis served trivial
    exact .onward (owes_of_working trivial) course rfl
  | enqueue saved =>
    obtain ⟨recorded, queued, count, rest⟩ := course
    obtain ⟨⟨answer, rfl⟩, rfl⟩ := steady_redis served trivial
    exact .requeued ⟨saved, ⟨recorded.own, recorded.stored, recorded.pointer⟩, queued, count, .inr rest⟩
      (congrArg Call.xadd recorded.own) rfl
  | reread _ object read interrupted =>
    obtain ⟨same, rfl⟩ := steady_getTask served
    cases interrupted with
    | running task object stored spent attempted irregular => exact absurd course.2.1 irregular
    | broken saved spent =>
      obtain ⟨recorded, queued, count, _⟩ := course
      obtain rfl : read = some saved := (Except.ok.inj same).trans recorded.stored
      have alive : saved.state ≠ .completed := by
        simp only [queued, ne_eq, reduceCtorEq, not_false_eq_true]
      simp only [Option.getD_some, HandlingPhase.recovering, alive, ↓reduceIte]
      split_ifs with spent
      · exact .onward (owes_of_working trivial) ⟨saved, recorded, rfl⟩ rfl
      · exact .onward (owes_of_working trivial)
          ⟨saved, recorded, queued, count, rfl, Nat.lt_of_not_le spent⟩ rfl
  | unrecovered => cases (steady_getTask served).1
  | bury current saved message reply alive result =>
    obtain ⟨task, recorded, rfl⟩ := course
    obtain ⟨⟨answer, rfl⟩, rfl⟩ := steady_redis served trivial
    subst result
    exact .onward (owes_of_working trivial) ⟨recorded.save recorded.own rfl, rfl⟩ rfl
  | forget saved =>
    obtain ⟨recorded, failed⟩ := course
    obtain ⟨⟨answer, rfl⟩, rfl⟩ := steady_redis served trivial
    exact .retired (recorded.retired (.inr failed)) rfl
  | count current =>
    obtain ⟨task, recorded, queued, count, rfl, left⟩ := course
    obtain ⟨_, rfl⟩ := steady_redis served trivial
    refine .left ⟨_, recorded.save recorded.own rfl, queued, ?_, .inr left⟩ rfl
    exact Nat.le_succ_of_le count
  | ack => exact absurd rfl owes.1
  | remove => exact absurd rfl owes.2.1

end HandlingCourse

end Quartr.Soundness
