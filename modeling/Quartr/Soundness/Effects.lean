import Mathlib.Tactic.SplitIfs
import Quartr.Soundness.ServicePhases
import Quartr.Soundness.Stream

/-! # What the processes write

Facts about single steps that every result about runs starts from: what a reply says about the
world, whose record a step saves, whose entry it adds or acknowledges.
-/

namespace Quartr.Soundness

open Quartr.Machine Quartr.Model

section Served

variable {world world' : World} {call : Call}

theorem served_world {reply : calls.Reply call} (served : Faulty call world reply world') :
    world' = world ∨ world' = world.after call := by
  rcases served with ⟨_, same⟩ | ⟨_, _, _, same⟩
  · exact .inr same
  · exact same

/-- An answered call took effect, and the answer is the world's. -/
theorem served_answer {answer : calls.Answer call} (served : Faulty call world (.ok answer) world') :
    (∃ outside, .ok answer = world.reply outside call) ∧ world' = world.after call := by
  rcases served with reliable | ⟨_, _, same, _⟩
  · exact reliable
  · cases same

theorem served_keyed {reply : calls.Reply call} (served : Faulty call world reply world')
    (keyed : world.Keyed) : world'.Keyed := by
  rcases served_world served with rfl | rfl
  · exact keyed
  · exact keyed.after call

/-- What GET of a record answers. -/
theorem served_getTask {taskId : TaskId} {read : Option ReportTask}
    (served : Faulty (.getTask taskId) world (.ok read) world') :
    read = world.tasks taskId ∧ world' = world := by
  obtain ⟨⟨outside, same⟩, rfl⟩ := served_answer served
  exact ⟨Except.ok.inj same, rfl⟩

end Served

/-- The copy of the task a handling holds. -/
def HandlingPhase.task? : HandlingPhase → Option ReportTask
  | .loaded task => some task
  | .running task _ => some task
  | .completed _ saved => some saved
  | .released _ saved => some saved
  | .published _ saved => some saved
  | .failed saved => some saved
  | .retrying saved => some saved
  | .queued saved => some saved
  | .measured saved => some saved
  | .broken task => some task
  | .dying current => some current
  | .buried saved => some saved
  | .counting current => some current
  | .fresh => none
  | .finished => none
  | .acked => none
  | .stopped => none

section Copies

variable {worker : Worker} {entry : ℕ} {taskId : TaskId} {holds : ReportTask → Prop}

/-- A property of the task's identity that the resolution of its year keeps. -/
structure Stable (worker : Worker) (holds : ReportTask → Prop) : Prop where
  same : ∀ task task', holds task → task'.taskId = task.taskId → task'.identity = task.identity →
    task'.includeAmended = task.includeAmended → holds task'
  resolved : ∀ task selection, holds task → Selects worker task selection →
    holds { task with identity := selection.identity }

theorem stable_taskId : Stable worker fun task => task.taskId = taskId :=
  ⟨fun _ _ held same _ _ => same.trans held, fun _ _ held _ => held⟩

theorem Stable.attempted (stable : Stable worker holds) {task object : ReportTask}
    (held : holds task) (attempted : Attempted worker task object) : holds object := by
  rcases attempted with rfl | ⟨_, selection, selects, rfl⟩
  · exact held
  · exact stable.resolved task selection held selects

/-- The property holds of the copy in hand, if there is one. -/
def HandlingPhase.Holds (phase : HandlingPhase) (holds : ReportTask → Prop) : Prop :=
  ∀ task ∈ phase.task?, holds task

theorem Stable.interrupted (stable : Stable worker holds) {phase : HandlingPhase}
    {object : ReportTask} (held : phase.Holds holds) (interrupted : Interrupted worker phase object) :
    holds object := by
  cases interrupted with
  | broken task spent => exact stable.same task _ (held task rfl) rfl rfl rfl
  | running task object stored spent attempted =>
    exact stable.same object _ (stable.attempted (held task rfl) attempted) rfl rfl rfl

theorem holds_of_task {phase : HandlingPhase} {task : ReportTask} (held : holds task)
    (only : phase.task? = some task) : phase.Holds holds := by
  intro task' present
  rw [only, Option.mem_def, Option.some.injEq] at present
  exact present ▸ held

theorem holds_of_none {phase : HandlingPhase} (none : phase.task? = none) : phase.Holds holds := by
  intro task' present
  rw [none] at present
  cases present

theorem orBroken_holds {call : Call} (reply : calls.Reply call) {saved : ReportTask}
    {phase : HandlingPhase} (held : holds saved) (rest : phase.Holds holds) :
    (orBroken reply saved phase).Holds holds := by
  cases reply with
  | error error => exact holds_of_task held rfl
  | ok answer => exact rest

theorem orStopped_holds {call : Call} (reply : calls.Reply call) {phase : HandlingPhase}
    (rest : phase.Holds holds) : (orStopped reply phase).Holds holds := by
  cases reply with
  | error error => exact holds_of_none rfl
  | ok answer => exact rest

theorem entering_task (task : ReportTask) : (HandlingPhase.entering task).task? = some task := by
  unfold HandlingPhase.entering
  split <;> rfl

theorem Stable.recovering (stable : Stable worker holds) {settings : Settings} {task : ReportTask}
    (held : holds task) : (HandlingPhase.recovering settings task).Holds holds := by
  have current : holds { task with attempts := task.attempts + 1 } :=
    stable.same task _ held rfl rfl rfl
  simp only [HandlingPhase.recovering]
  split_ifs
  · exact holds_of_none rfl
  · exact holds_of_task current rfl
  · exact holds_of_task current rfl

theorem bookkept_holds {original : ReportIdentity} {saved : ReportTask} (held : holds saved) :
    (HandlingPhase.bookkept original saved).Holds holds := by
  unfold HandlingPhase.bookkept
  split_ifs
  · exact holds_of_task held rfl
  · exact holds_of_none rfl

/-- What holds of the copies read holds of every copy held and of every record saved. -/
theorem HandlingStep.keeps {phase phase' : HandlingPhase} {call : Call} {reply : calls.Reply call}
    (step : HandlingStep worker entry taskId phase call reply phase') (stable : Stable worker holds)
    (held : phase.Holds holds)
    (read : ∀ task, (⟨call, reply⟩ : Σ call, calls.Reply call) = ⟨.getTask taskId, .ok (some task)⟩ →
      holds task) :
    phase'.Holds holds ∧ ∀ saved, call = .setTask saved → holds saved := by
  cases step with
  | missed => exact ⟨holds_of_none rfl, by rintro _ ⟨⟩⟩
  | load task => exact ⟨holds_of_task (read task rfl) (entering_task task), by rintro _ ⟨⟩⟩
  | unread => exact ⟨holds_of_none rfl, by rintro _ ⟨⟩⟩
  | start task saved reply legal result =>
    subst result
    have saved := stable.same task { task with state := .processing } (held task rfl) rfl rfl rfl
    refine ⟨orBroken_holds reply saved (holds_of_task saved rfl), ?_⟩
    rintro _ ⟨⟩
    exact saved
  | pipeline task stored _ _ outside =>
    refine ⟨holds_of_task (held task rfl) rfl, ?_⟩
    rintro saved rfl
    exact outside.elim
  | complete task saved stored selection reply legal selects present result =>
    subst result
    have saved : holds (completedRecord task selection) :=
      stable.same _ _ (stable.resolved task selection (held task rfl) selects) rfl rfl rfl
    refine ⟨orBroken_holds reply saved (holds_of_task saved rfl), ?_⟩
    rintro _ ⟨⟩
    exact saved
  | release original saved reply =>
    exact ⟨orBroken_holds reply (held saved rfl) (holds_of_task (held saved rfl) rfl), by rintro _ ⟨⟩⟩
  | publish original saved filing path filed stored reply =>
    refine ⟨?_, by rintro _ ⟨⟩⟩
    cases reply with
    | error error => exact holds_of_none rfl
    | ok answer => exact bookkept_holds (held saved rfl)
  | unpin => exact ⟨holds_of_none rfl, by rintro _ ⟨⟩⟩
  | fail task object saved stored message spent reply legal attempted budget result =>
    subst result
    have saved := stable.same object { object with
      state := .failed, error := some message, attempts := object.attempts + spent }
      (stable.attempted (held task rfl) attempted) rfl rfl rfl
    refine ⟨orBroken_holds reply saved (holds_of_task saved rfl), ?_⟩
    rintro _ ⟨⟩
    exact saved
  | clear saved reply => exact ⟨orBroken_holds reply (held saved rfl) (holds_of_none rfl), by rintro _ ⟨⟩⟩
  | retry task object saved stored message reply legal attempted budget result =>
    subst result
    have saved := stable.same object { object with
      state := .retrying, error := some message, attempts := object.attempts + 1 }
      (stable.attempted (held task rfl) attempted) rfl rfl rfl
    refine ⟨orBroken_holds reply saved (holds_of_task saved rfl), ?_⟩
    rintro _ ⟨⟩
    exact saved
  | requeue saved reply =>
    have saved := stable.same saved { saved with state := .queued } (held saved rfl) rfl rfl rfl
    refine ⟨orBroken_holds reply saved (holds_of_task saved rfl), ?_⟩
    rintro _ ⟨⟩
    exact saved
  | measure saved => exact ⟨holds_of_task (held saved rfl) rfl, by rintro _ ⟨⟩⟩
  | overfull saved => exact ⟨holds_of_task (held saved rfl) rfl, by rintro _ ⟨⟩⟩
  | enqueue saved reply => exact ⟨orBroken_holds reply (held saved rfl) (holds_of_none rfl), by rintro _ ⟨⟩⟩
  | reread _ object found interrupted =>
    refine ⟨stable.recovering ?_, by rintro _ ⟨⟩⟩
    cases found with
    | none => exact stable.interrupted held interrupted
    | some task => exact read task rfl
  | unrecovered => exact ⟨holds_of_none rfl, by rintro _ ⟨⟩⟩
  | bury current saved message reply alive result =>
    subst result
    have saved := stable.same current { current with state := .failed, error := some message }
      (held current rfl) rfl rfl rfl
    refine ⟨orStopped_holds reply (holds_of_task saved rfl), ?_⟩
    rintro _ ⟨⟩
    exact saved
  | forget saved reply => exact ⟨orStopped_holds reply (holds_of_none rfl), by rintro _ ⟨⟩⟩
  | count current =>
    refine ⟨holds_of_none rfl, ?_⟩
    rintro _ ⟨⟩
    exact held current rfl
  | ack reply => exact ⟨orStopped_holds reply (holds_of_none rfl), by rintro _ ⟨⟩⟩
  | remove => exact ⟨holds_of_none rfl, by rintro _ ⟨⟩⟩

end Copies

/-! ### A step touches one task -/

/-- Records and entries of other tasks are as they were. -/
structure Touches (actor : TaskId) (world world' : World) : Prop where
  tasks : ∀ taskId, taskId ≠ actor → world'.tasks taskId = world.tasks taskId
  saved : ∀ taskId, world.tasks taskId ≠ none → world'.tasks taskId ≠ none
  kept : ∀ (index : ℕ) (entry : Entry), world.stream[index]? = some entry →
    ∃ entry', world'.stream[index]? = some entry' ∧ entry'.fields = entry.fields ∧
      (fieldsTaskId entry.fields ≠ some actor → entry'.status = .acked → entry.status = .acked)
  added : ∀ (index : ℕ) (entry' : Entry), world'.stream[index]? = some entry' →
    (∃ entry, world.stream[index]? = some entry ∧ entry'.fields = entry.fields) ∨
      fieldsTaskId entry'.fields = some actor

/-- The call saves, acknowledges and adds for this task only. -/
structure Mine (actor : TaskId) (world : World) (call : Call) : Prop where
  saves : ∀ saved, call = .setTask saved → saved.taskId = actor
  acks : ∀ index entry, call = .xack index → world.stream[index]? = some entry →
    fieldsTaskId entry.fields = some actor
  adds : ∀ taskId, call = .xadd taskId → taskId = actor

theorem Touches.refl (actor : TaskId) (world : World) : Touches actor world world :=
  ⟨fun _ _ => rfl, fun _ saved => saved, fun _ entry present => ⟨entry, present, rfl, fun _ acked => acked⟩,
    fun _ entry present => .inl ⟨entry, present, rfl⟩⟩

theorem Mine.touches {actor : TaskId} {world : World} {call : Call} (mine : Mine actor world call) :
    Touches actor world (world.after call) := by
  refine ⟨fun taskId other => ?_, fun taskId saved => ?_, fun index entry present => ?_,
    fun index entry' present => ?_⟩
  · rw [World.after_tasks]
    cases call with
    | setTask task => exact Function.update_of_ne (fun same => other (same.trans (mine.saves task rfl))) ..
    | _ => rfl
  · rw [World.after_tasks]
    cases call with
    | setTask task =>
      by_cases same : taskId = task.taskId
      · subst same
        simp only [Function.update_self, ne_eq, reduceCtorEq, not_false_eq_true]
      · simp only [Function.update_of_ne same]
        exact saved
    | _ => exact saved
  · refine ⟨_, after_entry present, touch_fields .., fun other acked => ?_⟩
    rwa [touch_status] at acked
    rintro rfl
    exact other (mine.acks index entry rfl present)
  · rcases entry_of_after present with ⟨entry, before, rfl⟩ | ⟨taskId, rfl, _, rfl⟩
    · exact .inl ⟨entry, before, touch_fields ..⟩
    · exact .inr (congrArg some (mine.adds taskId rfl))

theorem Mine.served {actor : TaskId} {world world' : World} {call : Call}
    {reply : calls.Reply call} (mine : Mine actor world call)
    (served : Faulty call world reply world') : Touches actor world world' := by
  rcases served_world served with rfl | rfl
  · exact .refl actor _
  · exact mine.touches

/-- Delivery changes no record and acknowledges nothing. -/
theorem touches_deliver (actor : TaskId) (world : World) (position : ℕ) :
    Touches actor world { world with stream := world.stream.modify position Entry.deliver } := by
  have shape : ∀ (index : ℕ), (world.stream.modify position Entry.deliver)[index]? =
      world.stream[index]?.map fun entry => if position = index then entry.deliver else entry :=
    fun index => List.getElem?_modify ..
  refine ⟨fun _ _ => rfl, fun _ saved => saved, fun index entry present => ?_,
    fun index entry' present => ?_⟩
  · refine ⟨if position = index then entry.deliver else entry, ?_, ?_, fun _ => ?_⟩
    · rw [shape, present, Option.map_some]
    · split_ifs
      · exact deliver_fields entry
      · rfl
    · split_ifs
      · exact (deliver_status entry).mp
      · exact id
  · rw [shape, Option.map_eq_some_iff] at present
    obtain ⟨entry, before, rfl⟩ := present
    refine .inl ⟨entry, before, ?_⟩
    split_ifs
    · exact deliver_fields entry
    · rfl

theorem RequestStep.mine {ticket : Ticket} {phase phase' : RequestPhase} {call : Call}
    {reply : calls.Reply call} (step : RequestStep ticket phase call reply phase') (world : World) :
    Mine ticket.taskId world call := by
  have next := step.call?_eq
  refine ⟨?_, ?_, ?_⟩
  · rintro saved rfl
    cases phase <;> cases next <;> rfl
  · rintro index entry rfl
    cases phase <;> cases next
  · rintro taskId rfl
    cases phase <;> cases next
    rfl

/-- A handling whose copy is of its own task saves that task. -/
theorem HandlingStep.saves {worker : Worker} {position : ℕ} {taskId : TaskId}
    {phase phase' : HandlingPhase} {saved : ReportTask} {reply : calls.Reply (.setTask saved)}
    (step : HandlingStep worker position taskId phase (.setTask saved) reply phase')
    (held : phase.Holds fun task => task.taskId = taskId) : saved.taskId = taskId := by
  refine (step.keeps stable_taskId held ?_).2 saved rfl
  rintro task ⟨⟩

/-- A handling whose copies are all of its own task touches that task only. -/
theorem HandlingStep.mine {worker : Worker} {position : ℕ} {taskId : TaskId}
    {phase phase' : HandlingPhase} {call : Call} {reply : calls.Reply call}
    (step : HandlingStep worker position taskId phase call reply phase')
    (held : phase.Holds fun task => task.taskId = taskId) {world : World} {entry : Entry}
    (present : world.stream[position]? = some entry)
    (named : fieldsTaskId entry.fields = some taskId) : Mine taskId world call := by
  refine ⟨?_, ?_, ?_⟩
  · rintro saved rfl
    exact step.saves held
  · rintro index entry' rfl there
    cases step with
    | pipeline _ _ _ _ outside => exact outside.elim
    | ack =>
      rw [present, Option.some.injEq] at there
      exact there ▸ named
  · rintro added rfl
    cases step with
    | pipeline _ _ _ _ outside => exact outside.elim
    | enqueue saved => exact held saved rfl

end Quartr.Soundness
