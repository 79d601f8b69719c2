import Quartr.Soundness.Acknowledgement
import Quartr.Soundness.Replaying

/-! # A failed task stays failed

A message may be delivered again after its task was saved as FAILED. `process_task` goes on when the
table forbids PROCESSING, so what becomes of the task depends on how the pipeline ends this time: a
permanent error, or one attempt too many, saves FAILED again; anything else leads by the edge from
FAILED to RETRYING back into the queue.
-/

namespace Quartr.Soundness

open Quartr.Machine Quartr.Model

/-! ### How a redelivered failure is processed -/

/-- The errors that go to `_fail_permanently`. -/
def Permanent : Err → Prop
  | .tickerNotFound _ => True
  | .permanentSec _ => True
  | .call (.permanentSec _) => True
  | .pdfConversion _ => True
  | .call (.pdfConversion _) => True
  | _ => False

/-- The pipeline has ended for good, or no attempt is left. -/
def Conclusive (settings : Settings) (task : ReportTask) (result : Except Err Selection) : Prop :=
  settings.retryMaxAttempts ≤ task.attempts + 1 ∨ ∃ error, result = .error error ∧ Permanent error

/-- The program runs the pipeline on the FAILED task and then saves its verdict. -/
def Retries {α : Type} (worker : Worker) (task : ReportTask) (program : Program calls α) : Prop :=
  ∃ rest, program = (worker.producePdf task).bind rest ∧ ∀ result, ∃ saved,
    Opens (rest (result, task)) saved ∧ (saved.state = .failed ↔ Conclusive worker.settings task result)

theorem Retries.bind {α β : Type} {worker : Worker} {task : ReportTask} {program : Program calls α}
    (retries : Retries worker task program) (rest : α → Program calls β) :
    Retries worker task (program.bind rest) := by
  obtain ⟨conclude, rfl, verdict⟩ := retries
  refine ⟨_, Program.bind_assoc .., ?_⟩
  intro result
  obtain ⟨saved, opens, state⟩ := verdict result
  exact ⟨saved, opens.bind rest, state⟩

section Program

variable {worker : Worker} {task object saved : ReportTask}

/-- After a transient error the first save tells whether an attempt is left. -/
theorem failTransiently_opens {error : Err} (failed : object.state = .failed) : ∃ saved,
    Opens (worker.failTransiently error object) saved ∧
      (saved.state = .failed ↔ worker.settings.retryMaxAttempts ≤ object.attempts + 1) := by
  show ∃ saved, Opens ((if worker.settings.retryMaxAttempts ≤ object.attempts + 1 then _ else _ :
    Async ReportTask Unit) { object with attempts := object.attempts + 1 }) saved ∧ _
  by_cases spent : worker.settings.retryMaxAttempts ≤ object.attempts + 1
  · simp only [spent, ↓reduceIte, iff_true]
    exact ⟨_, transition_opens (by rw [failed]; rfl), rfl⟩
  · simp only [spent, ↓reduceIte, iff_false]
    refine ⟨_, (transition_opens (by rw [failed]; rfl)).bind _, ?_⟩
    simp only [reduceCtorEq, not_false_eq_true]

theorem failPermanently_opens {error : Err} (failed : object.state = .failed) : ∃ saved,
    Opens (Worker.failPermanently error object) saved ∧ saved.state = .failed :=
  ⟨_, transition_opens (by rw [failed]; rfl), rfl⟩

/-- The task loaded as FAILED is processed anyway. -/
theorem processTask_retries (failed : task.state = .failed) :
    Retries worker task (worker.processTask task) := by
  have entered : Repository.transition .processing id task =
      .done (.error (.invalidStateTransition task.state .processing), task) :=
    transition_illegal (by rw [failed]; rfl)
  show Retries worker task (((Repository.transition .processing id task).bind _).bind _)
  rw [entered]
  show Retries worker task ((((worker.producePdf task).bind _).bind _))
  refine ⟨_, Program.bind_assoc .., ?_⟩
  rintro (error | selection)
  · have permanent (permanent : Permanent error) : ∃ saved,
        Opens (Worker.failPermanently error task) saved ∧
          (saved.state = .failed ↔ Conclusive worker.settings task (.error error)) := by
      obtain ⟨saved, opens, state⟩ := @failPermanently_opens _ error failed
      exact ⟨saved, opens, iff_of_true state (.inr ⟨error, rfl, permanent⟩)⟩
    have transient (transient : ¬ Permanent error) : ∃ saved,
        Opens (worker.failTransiently error task) saved ∧
          (saved.state = .failed ↔ Conclusive worker.settings task (.error error)) := by
      obtain ⟨saved, opens, state⟩ := @failTransiently_opens worker _ error failed
      refine ⟨saved, opens, state.trans ?_⟩
      rw [Conclusive, or_iff_left]
      rintro ⟨_, ⟨⟩, permanent⟩
      exact transient permanent
    rcases error with (_ | _ | _ | _ | _) | _ | _ | _ | _ | _ | _ | _ <;>
      first | exact permanent trivial | exact transient id
  · have illegal : canTransition task.state .completed = false := by
      rw [failed]
      rfl
    show ∃ saved, Opens (((Repository.transition .completed _
      { task with identity := selection.identity }).bind _).bind _) saved ∧ _
    rw [@transition_illegal { task with identity := selection.identity } _ _ illegal]
    obtain ⟨saved, opens, state⟩ := @failTransiently_opens worker { task with identity := selection.identity }
      (.invalidStateTransition task.state .completed) failed
    refine ⟨saved, opens, state.trans ?_⟩
    rw [Conclusive, or_iff_left]
    rintro ⟨_, ⟨⟩, _⟩

/-- A redelivery that reads FAILED retries. -/
theorem handleMessage_retries {taskId : TaskId} {entry : ℕ} {fields : List (String × String)}
    {replies : List (Σ call, calls.Reply call)} {final : Program calls (Except Err Unit × Unit)}
    (named : fieldsTaskId fields = some taskId) (failed : task.state = .failed)
    (reaches : (worker.handleMessage entry fields ()).Reaches (⟨.getTask taskId, .ok (some task)⟩ :: replies)
      final) :
    ∃ program : Program calls (Except Err Unit × Unit), Retries worker task program ∧
      program.Reaches replies final := by
  unfold Worker.handleMessage at reaches
  simp only [named] at reaches
  by_cases empty : taskId = ""
  · -- Such a message is only acknowledged.
    simp only [empty, ↓reduceIte] at reaches
    cases reaches
  simp only [empty, ↓reduceIte] at reaches
  cases reaches with
  | reply rest =>
    refine ⟨_, ?_, rest⟩
    show Retries worker task ((((((worker.processTask task).bind _).bind _).bind _).bind _).bind _)
    exact ((((processTask_retries failed).bind _).bind _).bind _).bind _ |>.bind _

/-- The save that ends a retry: the pipeline has come to an end on the replies so far. -/
theorem Retries.verdict {α : Type} {program : Program calls α}
    {replies : List (Σ call, calls.Reply call)} {next : calls.Reply (.setTask saved) → Program calls α}
    (retries : Retries worker task program) (outside : ∀ served ∈ replies, PipelineCall served.1)
    (reaches : program.Reaches replies (.await (.setTask saved) next)) :
    ∃ result, (worker.producePdf task).Reaches replies (.done (result, task)) ∧
      (saved.state = .failed ↔ Conclusive worker.settings task result) := by
  obtain ⟨rest, rfl, verdict⟩ := retries
  rcases reaches.bind_cases with ⟨middle, inside, same⟩ | ⟨⟨result, object⟩, first, second, rfl, done, after⟩
  · cases middle with
    | done value =>
      obtain ⟨result, object⟩ := value
      obtain rfl : object = task := producePdf_object inside
      obtain ⟨saved', ⟨_, opens⟩, state⟩ := verdict result
      cases same.trans opens
      exact ⟨result, inside, state⟩
    | await call next' =>
      -- The pipeline saves nothing.
      cases same
      obtain ⟨stored, follows⟩ := inside.follows producePdf_follows
      obtain ⟨_, step, _⟩ := follows (.error (.other ""))
      cases step with
      | call _ _ _ pipeline => exact pipeline.elim
  · obtain rfl : object = task := producePdf_object done
    obtain ⟨saved', ⟨_, opens⟩, state⟩ := verdict result
    rw [opens] at after
    cases after with
    | refl =>
      rw [List.append_nil]
      exact ⟨result, done, state⟩
    | reply => exact (outside _ (List.mem_append_right _ (List.mem_cons_self ..))).elim

end Program

/-! ### What the other processes leave alone -/

/-- The persisted record is FAILED. -/
def Failed (world : World) (taskId : TaskId) : Prop :=
  (world.tasks taskId).map ReportTask.state = some .failed

instance (world : World) (taskId : TaskId) : Decidable (Failed world taskId) :=
  inferInstanceAs (Decidable (_ = _))

/-- Every entry of the task was there before. -/
def NoNewEntry (taskId : TaskId) (world world' : World) : Prop :=
  ∀ (index : ℕ) (entry : Entry), world'.stream[index]? = some entry →
    fieldsTaskId entry.fields = some taskId →
      ∃ before, world.stream[index]? = some before ∧ before.fields = entry.fields

/-- The record, if there is one, is in this state. -/
def Shows (world : World) (taskId : TaskId) (state : ReportState) : Prop :=
  ∀ task ∈ world.tasks taskId, task.state = state

/-- The record of the task is as it was, and the task has no new entry. -/
structure Leaves (taskId : TaskId) (world world' : World) : Prop where
  tasks : world'.tasks taskId = world.tasks taskId
  entries : NoNewEntry taskId world world'

section Worlds

variable {taskId : TaskId} {world world' world'' : World} {call : Call} {reply : calls.Reply call}
  {state : ReportState}

theorem Failed.shows (failed : Failed world taskId) (shows : Shows world taskId state) : state = .failed := by
  obtain ⟨task, present, same⟩ := Option.map_eq_some_iff.mp failed
  rw [← same]
  exact (shows task present).symm

theorem NoNewEntry.refl (taskId : TaskId) (world : World) : NoNewEntry taskId world world :=
  fun _ entry present _ => ⟨entry, present, rfl⟩

theorem NoNewEntry.trans (first : NoNewEntry taskId world world') (second : NoNewEntry taskId world' world'') :
    NoNewEntry taskId world world'' := by
  intro index entry present named
  obtain ⟨middle, there, fields⟩ := second index entry present named
  obtain ⟨before, found, fields'⟩ := first index middle there (by rw [fields, named])
  exact ⟨before, found, fields'.trans fields⟩

theorem NoNewEntry.hasEntry (same : NoNewEntry taskId world world') (has : world'.HasEntry taskId) :
    world.HasEntry taskId := by
  obtain ⟨index, entry, present, named⟩ := hasEntry_iff.mp has
  obtain ⟨before, there, fields⟩ := same index entry present named
  exact hasEntry_iff.mpr ⟨index, before, there, by rw [fields, named]⟩

theorem noNewEntry_after (adds : call ≠ .xadd taskId) : NoNewEntry taskId world (world.after call) := by
  intro index entry present named
  rcases entry_of_after present with ⟨before, there, rfl⟩ | ⟨added, rfl, _, rfl⟩
  · exact ⟨before, there, (touch_fields ..).symm⟩
  · cases named
    exact absurd rfl adds

theorem Leaves.refl (taskId : TaskId) (world : World) : Leaves taskId world world :=
  ⟨rfl, .refl taskId world⟩

theorem Leaves.deliver (taskId : TaskId) (world : World) (position : ℕ) :
    Leaves taskId world { world with stream := world.stream.modify position Entry.deliver } := by
  refine ⟨rfl, fun index entry present named => ?_⟩
  simp only [List.getElem?_modify, Option.map_eq_map, Option.map_eq_some_iff] at present
  obtain ⟨before, there, rfl⟩ := present
  refine ⟨before, there, ?_⟩
  split_ifs
  · exact (deliver_fields before).symm
  · rfl

/-- A call that saves and adds for other tasks. -/
theorem leaves_served (served : Faulty call world reply world')
    (saves : ∀ saved, call = .setTask saved → saved.taskId ≠ taskId) (adds : call ≠ .xadd taskId) :
    Leaves taskId world world' := by
  rcases served_world served with rfl | rfl
  · exact .refl taskId _
  · refine ⟨?_, noNewEntry_after adds⟩
    rw [World.after_tasks]
    cases call with
    | setTask saved => exact Function.update_of_ne (Ne.symm (saves saved rfl)) ..
    | _ => rfl

/-- A call that saves FAILED or nothing. -/
theorem Failed.served (failed : Failed world taskId) (served : Faulty call world reply world')
    (saves : ∀ saved, call = .setTask saved → saved.state = .failed) : Failed world' taskId := by
  rcases served_world served with rfl | rfl
  · exact failed
  · rw [Failed, World.after_tasks]
    cases call with
    | setTask saved =>
      by_cases own : taskId = saved.taskId
      · subst own
        simp only [Function.update_self, Option.map_some, saves saved rfl]
      · simp only [Function.update_of_ne own]
        exact failed
    | _ => exact failed

theorem Shows.same (shows : Shows world taskId state) (same : world'.tasks taskId = world.tasks taskId) :
    Shows world' taskId state := by
  rw [Shows, same]
  exact shows

/-- An answered save shows what it saved. -/
theorem shows_saved {saved : ReportTask} {answer : calls.Answer (.setTask saved)}
    (served : Faulty (.setTask saved) world (.ok answer) world') (own : saved.taskId = taskId) :
    Shows world' taskId saved.state := by
  intro task present
  rw [(served_answer served).2, World.after_tasks] at present
  simp only [own, Function.update_self, Option.mem_def, Option.some.injEq] at present
  rw [present]

end Worlds

/-! ### A handling and the record of its task -/

/-- What the handling of a task knows about the record; a FAILED one was read first, and only the
pipeline has been called since. -/
def InStep (taskId : TaskId) (world : World) (log : List (Σ call, calls.Reply call)) : HandlingPhase → Prop
  | .fresh => log = []
  | .loaded task => Shows world taskId task.state
  | .running task _ => Shows world taskId task.state ∧ (task.state = .failed → ∃ replies,
      log.reverse = ⟨.getTask taskId, .ok (some task)⟩ :: replies ∧
        ∀ served ∈ replies, PipelineCall served.1)
  | .retrying _ => Shows world taskId .retrying
  | .queued _ => Shows world taskId .queued
  | .measured _ => Shows world taskId .queued
  | .counting current => Shows world taskId current.state
  | _ => True

section InStep

variable {worker : Worker} {entry : ℕ} {taskId : TaskId} {world world' : World}
  {phase phase' : HandlingPhase} {log : List (Σ call, calls.Reply call)} {call : Call}
  {reply : calls.Reply call}

theorem InStep.same (inStep : InStep taskId world log phase)
    (same : world'.tasks taskId = world.tasks taskId) : InStep taskId world' log phase := by
  cases phase with
  | loaded task => exact Shows.same inStep same
  | running task stored => exact ⟨Shows.same inStep.1 same, inStep.2⟩
  | retrying saved => exact Shows.same inStep same
  | queued saved => exact Shows.same inStep same
  | measured saved => exact Shows.same inStep same
  | counting current => exact Shows.same inStep same
  | _ => exact inStep

/-- The handling stays in step with the record of its task. -/
theorem InStep.step (inStep : InStep taskId world log phase)
    (step : HandlingStep worker entry taskId phase call reply phase')
    (served : Faulty call world reply world') (held : phase.Holds fun task => task.taskId = taskId) :
    InStep taskId world' (⟨call, reply⟩ :: log) phase' := by
  cases step with
  | load task =>
    obtain ⟨read, rfl⟩ := served_getTask served
    have shows : Shows world' taskId task.state := by
      intro task' present
      cases read.trans present
      rfl
    obtain rfl : log = [] := inStep
    unfold HandlingPhase.entering
    split_ifs
    · exact shows
    · exact ⟨shows, fun _ => ⟨[], rfl, List.forall_mem_nil _⟩⟩
  | start task saved reply legal result =>
    cases reply with
    | error error => trivial
    | ok answer =>
      subst result
      refine ⟨shows_saved served (held task rfl), ?_⟩
      rintro ⟨⟩
  | pipeline task stored call reply outside =>
    obtain ⟨shows, received⟩ := inStep
    have quiet : ∀ saved, call ≠ .setTask saved := by
      rintro saved rfl
      exact outside
    have same : world'.tasks taskId = world.tasks taskId := by
      rcases served_world served with rfl | rfl
      · rfl
      · rw [World.after_tasks]
        cases call with
        | setTask saved => exact absurd rfl (quiet saved)
        | _ => rfl
    refine ⟨shows.same same, fun failed => ?_⟩
    obtain ⟨replies, first, rest⟩ := received failed
    refine ⟨replies ++ [⟨call, reply⟩], ?_, ?_⟩
    · rw [List.reverse_cons, first, List.cons_append]
    · intro served member
      rcases List.mem_append.mp member with earlier | last
      · exact rest served earlier
      · rw [List.mem_singleton.mp last]
        exact outside
  | complete _ _ _ _ reply => cases reply <;> trivial
  | release _ _ reply => cases reply <;> trivial
  | publish original saved _ _ _ _ reply =>
    cases reply with
    | error error => trivial
    | ok answer =>
      dsimp only [HandlingPhase.bookkept]
      split_ifs <;> trivial
  | fail _ _ _ _ _ _ reply => cases reply <;> trivial
  | clear _ reply => cases reply <;> trivial
  | retry task object saved stored message reply legal attempted budget result =>
    cases reply with
    | error error => trivial
    | ok answer =>
      subst result
      exact shows_saved served (attempted.taskId_eq.trans (held task rfl))
  | requeue saved reply =>
    cases reply with
    | error error => trivial
    | ok answer => exact shows_saved served (held saved rfl)
  | measure saved reply =>
    have same : world'.tasks = world.tasks := by
      rcases served_world served with rfl | rfl <;> rfl
    exact Shows.same inStep (congrFun same taskId)
  | enqueue _ reply => cases reply <;> trivial
  | reread _ object read interrupted =>
    obtain ⟨rfl, rfl⟩ := served_getTask served
    simp only [HandlingPhase.recovering]
    split_ifs
    · trivial
    · trivial
    · intro task present
      simp only [Option.mem_def] at present
      simp only [present, Option.getD_some]
  | bury _ _ _ reply => cases reply <;> trivial
  | forget _ reply => cases reply <;> trivial
  | ack reply => cases reply <;> trivial
  | _ => trivial

/-- Only a FAILED record is saved over a FAILED one, if the pipeline has come to a conclusive end. -/
theorem InStep.failed (inStep : InStep taskId world log phase) (failed : Failed world taskId)
    (step : HandlingStep worker entry taskId phase call reply phase')
    (verdict : ∀ task replies saved, call = .setTask saved → task.state = .failed →
      log.reverse = ⟨.getTask taskId, .ok (some task)⟩ :: replies →
      (∀ served ∈ replies, PipelineCall served.1) → saved.state = .failed) :
    (∀ saved, call = .setTask saved → saved.state = .failed) ∧ ∀ added, call ≠ .xadd added := by
  cases step with
  | start task saved reply legal =>
    rw [failed.shows inStep] at legal
    cases legal
  | pipeline task stored call reply outside =>
    constructor
    · rintro saved rfl
      exact outside.elim
    · rintro added rfl
      exact outside
  | complete task saved stored selection reply legal =>
    rw [failed.shows inStep.1] at legal
    cases legal
  | fail task object saved stored message spent reply legal attempted budget result =>
    subst result
    refine ⟨?_, by rintro _ ⟨⟩⟩
    rintro _ ⟨⟩
    rfl
  | retry task object saved stored message reply legal attempted budget result =>
    have loaded := failed.shows inStep.1
    obtain ⟨replies, first, rest⟩ := inStep.2 loaded
    refine ⟨?_, by rintro _ ⟨⟩⟩
    rintro _ ⟨⟩
    exact verdict task replies saved rfl loaded first rest
  | requeue saved => cases failed.shows inStep
  | enqueue saved => cases failed.shows inStep
  | bury current saved message reply alive result =>
    subst result
    refine ⟨?_, by rintro _ ⟨⟩⟩
    rintro _ ⟨⟩
    rfl
  | count current =>
    refine ⟨?_, by rintro _ ⟨⟩⟩
    rintro _ ⟨⟩
    exact failed.shows inStep
  | _ => exact ⟨by rintro _ ⟨⟩, by rintro _ ⟨⟩⟩

end InStep

/-! ### The invariant -/

/-- What is known of one process with regard to the task. -/
def AgentFate (uuid : ℕ → TaskId) (taskId : TaskId) (world : World) (id : ℕ) (agent : Agent) : Prop :=
  match agent.label with
  | .request _ _ => ∃ phase, agent.control = .request phase ∧ (uuid id = taskId →
      (∀ answer, phase ≠ .ended answer) → ¬ world.HasEntry taskId ∧ ¬ Failed world taskId)
  | .handling _ _ _ fields => ∃ phase, agent.control = .handling phase ∧
      phase.Holds (fun task => task.taskId = handledId fields) ∧
      (Owes phase → fieldsTaskId fields = some (handledId fields)) ∧
      (fieldsTaskId fields = some taskId → world.HasEntry taskId ∧
        (agent.killed = false → InStep taskId world agent.log phase))

structure FateInvariant (uuid : ℕ → TaskId) (taskId : TaskId) (view : ServiceView) : Prop where
  keyed : view.world.Keyed
  unused : ∀ id, view.process id = none → uuid id = taskId →
    ¬ view.world.HasEntry taskId ∧ view.world.tasks taskId = none
  agents : ∀ id agent, view.process id = some agent → AgentFate uuid taskId view.world id agent
  apart : ∀ id id' agent agent', view.process id = some agent → view.process id' = some agent' →
    Busy agent taskId → Busy agent' taskId → id = id'

/-- Handlings of the task do not overlap. -/
def NoOverlapOf (taskId : TaskId) (config : ServiceConfig) : ServiceEvent → Prop
  | .start _ (.handling _ _ _ fields) => fieldsTaskId fields = some taskId →
      ∀ id process, config.process id = some process → process.Active →
        process.label.taskId? ≠ some taskId
  | _ => True

section Invariant

variable {settings : Settings} {uuid : ℕ → TaskId} {taskId : TaskId} {config : ServiceConfig}
  {view view' : ServiceView} {event : ServiceEvent} {world world' : World}

theorem FateInvariant.busy_entry (invariant : FateInvariant uuid taskId view) {id : ℕ} {agent : Agent}
    (present : view.process id = some agent) (busy : Busy agent taskId) : view.world.HasEntry taskId := by
  have state := invariant.agents id agent present
  obtain ⟨label, control, log, killed⟩ := agent
  cases label with
  | request => cases busy.1
  | handling cikMapping now entry fields =>
    obtain ⟨_, _, _, _, known⟩ := state
    exact (known busy.1).1

/-- What the step of one process has to re-establish: it leaves the task alone, or it is the only one
that may work on it. -/
theorem FateInvariant.put (invariant : FateInvariant uuid taskId view) {id : ℕ} {agent' : Agent}
    (keyed : world'.Keyed) (grows : view.world.HasEntry taskId → world'.HasEntry taskId)
    (state : AgentFate uuid taskId world' id agent')
    (effect : Leaves taskId view.world world' ∨
      (∀ other agent, other ≠ id → view.process other = some agent → ¬ Busy agent taskId) ∧
        ∀ other, other ≠ id → uuid other = taskId → view.world.HasEntry taskId)
    (apart : Busy agent' taskId → ∀ other agent, other ≠ id → view.process other = some agent →
      ¬ Busy agent taskId) : FateInvariant uuid taskId (view.put id agent' world') := by
  -- Of a task without entries others know nothing that a step could change.
  have untold {other : ℕ} (differs : other ≠ id) (drawn : uuid other = taskId)
      (without : ¬ view.world.HasEntry taskId) : Leaves taskId view.world world' := by
    rcases effect with leaves | ⟨_, owner⟩
    · exact leaves
    · exact absurd (owner other differs drawn) without
  constructor
  · exact keyed
  · intro other gone drawn
    obtain ⟨same, gone⟩ := Config.put_none gone
    obtain ⟨without, missing⟩ := invariant.unused other gone drawn
    have leaves := untold same drawn without
    exact ⟨fun has => without (leaves.entries.hasEntry has), leaves.tasks.trans missing⟩
  · intro other agent present
    rcases Config.put_cases present with ⟨rfl, rfl⟩ | ⟨same, before⟩
    · exact state
    have known := invariant.agents other agent before
    obtain ⟨label, control, log, killed⟩ := agent
    cases label with
    | request cikMapping payload =>
      obtain ⟨phase, standing, early⟩ := known
      refine ⟨phase, standing, fun drawn unfinished => ?_⟩
      obtain ⟨without, unfailed⟩ := early drawn unfinished
      have leaves := untold same drawn without
      refine ⟨fun has => without (leaves.entries.hasEntry has), fun failed => unfailed ?_⟩
      rw [Failed, ← leaves.tasks]
      exact failed
    | handling cikMapping now entry fields =>
      obtain ⟨phase, standing, held, owes, own⟩ := known
      refine ⟨phase, standing, held, owes, fun named => ?_⟩
      obtain ⟨has, inStep⟩ := own named
      refine ⟨grows has, fun alive => ?_⟩
      rcases effect with leaves | ⟨sole, _⟩
      · exact (inStep alive).same leaves.tasks
      · -- A handling of the same task has come to its end.
        have final : Phase.Final control := by
          by_contra unfinished
          exact sole other _ same before ⟨named, alive, unfinished⟩
        change control = .handling phase at standing
        subst standing
        rcases final with ⟨answer, same⟩ | same
        · cases same
        · cases same
          trivial
  · intro first second agent agent'' present present' busy busy'
    rcases Config.put_cases present with ⟨rfl, rfl⟩ | ⟨differs, before⟩
    · rcases Config.put_cases present' with ⟨rfl, rfl⟩ | ⟨differs', before'⟩
      · rfl
      · exact absurd busy' (apart busy second agent'' differs' before')
    · rcases Config.put_cases present' with ⟨rfl, rfl⟩ | ⟨differs', before'⟩
      · exact absurd busy (apart busy' first agent differs before)
      · exact invariant.apart first second agent agent'' before before' busy busy'

theorem FateInvariant.start (invariant : FateInvariant uuid taskId view)
    (views : Views settings uuid Faulty config view) {id : ℕ} {label : Activity}
    (absent : view.process id = none) (begins : Service.start view.world label world)
    (alone : NoOverlapOf taskId config (.start id label)) :
    FateInvariant uuid taskId (view.put id ⟨label, Phase.initial label, [], false⟩ world) := by
  cases label with
  | request cikMapping payload =>
    obtain rfl : world = view.world := begins
    apply invariant.put
    · exact invariant.keyed
    · exact fun has => has
    · refine ⟨_, rfl, fun drawn _ => ?_⟩
      obtain ⟨without, missing⟩ := invariant.unused id absent drawn
      refine ⟨without, fun failed => ?_⟩
      rw [Failed, missing] at failed
      cases failed
    · exact .inl (.refl taskId _)
    · rintro ⟨⟨⟩, _⟩
  | handling cikMapping now entry fields =>
    obtain ⟨⟨own, present, rfl, _⟩, rfl⟩ := begins
    have has (named : fieldsTaskId own.fields = some taskId) : view.world.HasEntry taskId :=
      hasEntry_iff.mpr ⟨entry, own, present, named⟩
    have grows (has : view.world.HasEntry taskId) :
        World.HasEntry { view.world with stream := view.world.stream.modify entry Entry.deliver } taskId := by
      obtain ⟨index, before, there, named⟩ := hasEntry_iff.mp has
      obtain ⟨after, there', fields, _⟩ := (touches_deliver taskId view.world entry).kept index before there
      exact hasEntry_iff.mpr ⟨index, after, there', by rw [fields, named]⟩
    apply invariant.put
    · exact invariant.keyed
    · exact grows
    · refine ⟨_, rfl, ?_, ?_, fun named => ⟨grows (has named), fun _ => ?_⟩⟩
      · rcases HandlingPhase.initial_cases own.fields with same | same <;>
          exact holds_of_none (by rw [same]; rfl)
      · intro owes
        rw [handledId]
        cases named : fieldsTaskId own.fields with
        | none =>
          rw [HandlingPhase.initial, named] at owes
          exact absurd rfl owes.1
        | some name => rfl
      · rcases HandlingPhase.initial_cases own.fields with same | same <;> rw [same]
        · trivial
        · rfl
    · exact .inl (.deliver taskId _ entry)
    · rintro ⟨named, _⟩ other agent _ found ⟨label, alive, unfinished⟩
      obtain ⟨process, there, follows⟩ := Refinement.behind views found
      refine alone named other process there ((active_iff follows).mpr ⟨alive, unfinished⟩) ?_
      rw [follows.1, label]

theorem FateInvariant.kill (invariant : FateInvariant uuid taskId view) {id : ℕ} {agent : Agent}
    (present : view.process id = some agent) :
    FateInvariant uuid taskId (view.put id { agent with killed := true } view.world) := by
  have state := invariant.agents id agent present
  apply invariant.put
  · exact invariant.keyed
  · exact fun has => has
  · obtain ⟨label, control, log, killed⟩ := agent
    cases label with
    | request cikMapping payload => exact state
    | handling cikMapping now entry fields =>
      obtain ⟨phase, standing, held, owes, own⟩ := state
      exact ⟨phase, standing, held, owes, fun named => ⟨(own named).1, by rintro ⟨⟩⟩⟩
  · exact .inl (.refl taskId _)
  · rintro ⟨_, ⟨⟩, _⟩

/-- A handling of another task saves and adds for others. -/
theorem HandlingStep.leaves {worker : Worker} {entry : ℕ} {fields : List (String × String)}
    {phase phase' : HandlingPhase} {call : Call} {reply : calls.Reply call}
    (step : HandlingStep worker entry (handledId fields) phase call reply phase')
    (held : phase.Holds fun task => task.taskId = handledId fields)
    (owes : Owes phase → fieldsTaskId fields = some (handledId fields))
    (other : fieldsTaskId fields ≠ some taskId) (served : Faulty call world reply world') :
    Leaves taskId world world' := by
  apply leaves_served served
  · rintro saved rfl same
    rw [← step.saves held, same] at owes
    exact other (owes step.setTask_owes)
  · rintro rfl
    cases step with
    | pipeline _ _ _ _ outside => exact outside.elim
    | enqueue saved =>
      rw [← held saved rfl] at owes
      exact other (owes (owes_of_working trivial))

/-- A request that is still on its way has not let its task fail. -/
theorem RequestStep.unfailed {ticket : Ticket} {phase phase' : RequestPhase} {call : Call}
    {reply : calls.Reply call} (step : RequestStep ticket phase call reply phase')
    (served : Faulty call world reply world') (unfailed : ¬ Failed world ticket.taskId) :
    ¬ Failed world' ticket.taskId := by
  rcases served_world served with rfl | rfl
  · exact unfailed
  · rw [Failed, World.after_tasks]
    have next := step.call?_eq
    cases phase <;> cases next <;> first
      | exact unfailed
      | (simp only [Ticket.record, Ticket.queuedRecord, ReportTask.fresh, Function.update_self,
          Option.map_some, Option.some.injEq, reduceCtorEq, not_false_eq_true])

theorem FateInvariant.reply (invariant : FateInvariant uuid taskId view)
    (injective : ∀ id id', uuid id = uuid id' → id = id') {id : ℕ} {agent : Agent} {call : Call}
    {reply : calls.Reply call} {phase' : Phase} (present : view.process id = some agent)
    (alive : agent.killed = false)
    (moves : ServiceStep settings uuid id agent.label agent.control call reply phase')
    (served : Faulty call view.world reply world) :
    FateInvariant uuid taskId (view.put id (agent.resume call reply phase') world) := by
  have state := invariant.agents id agent present
  have unfinished := moves.not_final
  have grows (has : view.world.HasEntry taskId) : world.HasEntry taskId := by
    rcases served_world served with rfl | rfl
    · exact has
    · exact hasEntry_after has call
  obtain ⟨label, control, log, killed⟩ := agent
  cases moves with
  | @request cikMapping payload identity phase phase' _ _ identified step =>
    obtain ⟨_, ⟨⟩, early⟩ := state
    have early (drawn : uuid id = taskId) := early drawn (by rintro answer rfl; cases step.call?_eq)
    apply invariant.put
    · exact served_keyed served invariant.keyed
    · exact grows
    · refine ⟨phase', rfl, fun drawn unfinished => ?_⟩
      obtain ⟨without, unfailed⟩ := early drawn
      subst drawn
      refine ⟨fun has => ?_, step.unfailed served unfailed⟩
      obtain ⟨_, _, answer, ended⟩ := step.attended served without has
      exact unfinished answer ended
    · by_cases drawn : uuid id = taskId
      · obtain ⟨without, _⟩ := early drawn
        refine .inr ⟨fun other agent _ found busy => without (invariant.busy_entry found busy), ?_⟩
        exact fun other differs same => absurd (injective _ _ (same.trans drawn.symm)) differs
      · refine .inl (leaves_served served ?_ ?_)
        · rintro saved rfl same
          exact drawn (((step.mine view.world).saves saved rfl).symm.trans same)
        · rintro rfl
          exact drawn ((step.mine view.world).adds taskId rfl).symm
    · rintro ⟨⟨⟩, _⟩
  | @handling cikMapping now entry fields phase phase' _ _ step =>
    obtain ⟨_, ⟨⟩, held, owes, own⟩ := state
    have apart (named : fieldsTaskId fields = some taskId) (other : ℕ) (agent : Agent) (differs : other ≠ id)
        (found : view.process other = some agent) : ¬ Busy agent taskId :=
      fun busy => differs (invariant.apart other id agent _ found present busy ⟨named, alive, unfinished⟩)
    apply invariant.put
    · exact served_keyed served invariant.keyed
    · exact grows
    · refine ⟨phase', rfl, ?_, fun later => owes (step.owes later), fun named => ?_⟩
      · refine (step.keeps stable_taskId held ?_).1
        rintro task ⟨⟩
        exact invariant.keyed _ _ (served_getTask served).1.symm
      · obtain ⟨has, inStep⟩ := own named
        have identified : handledId fields = taskId := by
          simp only [handledId, named, Option.getD_some]
        rw [identified] at step held
        exact ⟨grows has, fun alive => (inStep alive).step step served held⟩
    · by_cases named : fieldsTaskId fields = some taskId
      · exact .inr ⟨apart named, fun _ _ _ => (own named).1⟩
      · exact .inl (step.leaves held owes named served)
    · exact fun busy => apart busy.1

/-- A handling that read FAILED saves nothing else after its pipeline. -/
def SavesFailed (taskId : TaskId) (config : ServiceConfig) : ServiceEvent → Prop
  | .reply id (.setTask saved) _ => ∀ process ∈ config.process id, ∀ task replies,
      process.label.taskId? = some taskId → process.log.reverse = ⟨.getTask taskId, .ok (some task)⟩ :: replies →
        task.state = .failed → (∀ served ∈ replies, PipelineCall served.1) → saved.state = .failed
  | _ => True

theorem FateInvariant.failed (invariant : FateInvariant uuid taskId view)
    (views : Views settings uuid Faulty config view) (saves : SavesFailed taskId config event)
    (step : (outline settings uuid Faulty).Step view event view') (failed : Failed view.world taskId) :
    Failed view'.world taskId ∧ NoNewEntry taskId view.world view'.world := by
  have spared (leaves : Leaves taskId view.world view'.world) :
      Failed view'.world taskId ∧ NoNewEntry taskId view.world view'.world := by
    rw [Failed, leaves.tasks]
    exact ⟨failed, leaves.entries⟩
  cases step with
  | @start id label world absent begins =>
    apply spared
    cases label with
    | request cikMapping payload =>
      obtain rfl : world = view.world := begins
      exact .refl taskId _
    | handling cikMapping now entry fields =>
      obtain ⟨_, rfl⟩ := begins
      exact .deliver taskId _ entry
  | kill present alive => exact spared (.refl taskId _)
  | @reply id agent call reply phase' world present alive moves served =>
    have state := invariant.agents id agent present
    obtain ⟨process, there, follows⟩ := Refinement.behind views present
    obtain ⟨label, control, log, killed⟩ := agent
    cases moves with
    | @request cikMapping payload identity phase phase' _ _ identified step =>
      obtain ⟨_, ⟨⟩, early⟩ := state
      have other : uuid id ≠ taskId := by
        intro drawn
        exact (early drawn (by rintro answer rfl; cases step.call?_eq)).2 failed
      apply spared
      apply leaves_served served
      · rintro saved rfl same
        exact other (((step.mine view.world).saves saved rfl).symm.trans same)
      · rintro rfl
        exact other ((step.mine view.world).adds taskId rfl).symm
    | @handling cikMapping now entry fields phase phase' _ _ step =>
      obtain ⟨_, ⟨⟩, held, owes, own⟩ := state
      by_cases named : fieldsTaskId fields = some taskId
      · have identified : handledId fields = taskId := by
          simp only [handledId, named, Option.getD_some]
        rw [identified] at step
        obtain ⟨fails, adds⟩ := InStep.failed ((own named).2 alive) failed step (by
          rintro task replies saved rfl loaded first rest
          refine saves process there task replies ?_ ?_ loaded rest
          · rw [follows.1]
            exact named
          · rw [follows.2.1]
            exact first)
        refine ⟨failed.served served fails, ?_⟩
        rcases served_world served with same | same
        · rw [Config.put_world, same]
          exact .refl taskId _
        · rw [Config.put_world, same]
          exact noNewEntry_after (adds taskId)
      · exact spared (step.leaves held owes named served)

theorem FateInvariant.idle {world : World} (fresh : FreshIds uuid world) (keyed : world.Keyed)
    (unentered : ∀ id, ¬ world.HasEntry (uuid id)) : FateInvariant uuid taskId (.idle world) := by
  refine ⟨keyed, ?_, fun _ _ present => Config.idle_absent present,
    fun _ _ _ _ present => Config.idle_absent present⟩
  rintro id _ rfl
  exact ⟨unentered id, fresh.unused id⟩

theorem FateInvariant.preserved (injective : ∀ id id', uuid id = uuid id' → id = id')
    (views : Views settings uuid Faulty config view) (alone : NoOverlapOf taskId config event)
    (step : (outline settings uuid Faulty).Step view event view')
    (invariant : FateInvariant uuid taskId view) : FateInvariant uuid taskId view' := by
  cases step with
  | start absent begins => exact invariant.start views absent begins alone
  | reply present alive moves served => exact invariant.reply injective present alive moves served
  | kill present alive => exact invariant.kill present

/-- What holds from a world on in which the task had failed. -/
def StaysFailed (uuid : ℕ → TaskId) (taskId : TaskId) (since : World) (view : ServiceView) : Prop :=
  FateInvariant uuid taskId view ∧ Failed view.world taskId ∧ NoNewEntry taskId since view.world

theorem StaysFailed.preserved {since : World} (injective : ∀ id id', uuid id = uuid id' → id = id')
    (views : Views settings uuid Faulty config view) (alone : NoOverlapOf taskId config event)
    (saves : SavesFailed taskId config event) (step : (outline settings uuid Faulty).Step view event view')
    (stays : StaysFailed uuid taskId since view) : StaysFailed uuid taskId since view' := by
  obtain ⟨invariant, failed, same⟩ := stays
  obtain ⟨failed', none⟩ := invariant.failed views saves step failed
  exact ⟨invariant.preserved injective views alone step, failed', same.trans none⟩

end Invariant

/-- A redelivery that reads the task as FAILED saves its verdict only once the pipeline has ended with
a permanent error, or while no attempt is left. -/
def FailsAgain (settings : Settings) (taskId : TaskId) (config : ServiceConfig) : ServiceEvent → Prop
  | .reply id (.setTask _) _ => ∀ process ∈ config.process id,
      ∀ cikMapping now entry fields task replies result object,
        process.label = .handling cikMapping now entry fields → fieldsTaskId fields = some taskId →
        process.log.reverse = ⟨.getTask taskId, .ok (some task)⟩ :: replies → task.state = .failed →
        (Worker.producePdf ⟨settings, cikMapping, now⟩ task).Reaches replies (.done (result, object)) →
          Conclusive settings task result
  | _ => True

section Run

variable {settings : Settings} {uuid : ℕ → TaskId} {taskId : TaskId} {config config' : ServiceConfig}
  {event : ServiceEvent}

/-- What is saved is what the pipeline came to. -/
theorem FailsAgain.saves (again : FailsAgain settings taskId config event)
    (step : (service settings uuid Faulty).Step config event config')
    (replayed : config.Replayed (service settings uuid Faulty)) : SavesFailed taskId config event := by
  cases step with
  | start => trivial
  | kill => trivial
  | @reply id process call reply control world present alive moves served =>
    cases call with
    | setTask saved =>
      rintro _ there task replies label first failed outside
      cases present.symm.trans there
      have reaches := replayed id process present
      obtain ⟨activity, control, log, killed⟩ := process
      cases moves with
      | @reply _ next _ =>
        cases activity with
        | request => cases label
        | handling cikMapping now entry fields =>
          have named : fieldsTaskId fields = some taskId := label
          rw [first] at reaches
          rcases reaches.bind_cases with ⟨middle, inside, same⟩ | ⟨_, _, _, _, _, after⟩
          · cases middle with
            | done value => cases same
            | await call next =>
              cases same
              obtain ⟨program, retries, onward⟩ := handleMessage_retries named failed inside
              obtain ⟨result, ended, verdict⟩ := retries.verdict outside onward
              exact verdict.mpr (again _ there cikMapping now entry fields task replies result task rfl named
                first failed ended)
          · cases after
    | _ => trivial

end Run

/-- A failed task stays failed as long as its redeliveries come to fail for good again. -/
theorem failed_stays {settings : Settings} {uuid : ℕ → TaskId} {taskId : TaskId} {world : World}
    {events events' : List ServiceEvent} {config config' : ServiceConfig} (fresh : FreshIds uuid world)
    (keyed : world.Keyed) (unentered : ∀ id, ¬ world.HasEntry (uuid id))
    (path : Path (Guarded (service settings uuid Faulty).Step (NoOverlapOf taskId)) (.idle world) events
      config)
    (failed : Failed config.world taskId)
    (later : Path (Guarded (service settings uuid Faulty).Step fun config event =>
      NoOverlapOf taskId config event ∧ FailsAgain settings taskId config event) config events' config') :
    Failed config'.world taskId ∧ NoNewEntry taskId config.world config'.world := by
  have replayed := replayed_run (path.mono fun _ _ _ step => step.2)
  obtain ⟨view, views, invariant⟩ := service_refines.invariant
    (fun _ _ _ _ views alone step invariant => invariant.preserved fresh.injective views alone step) path
    (FateInvariant.idle fresh keyed unentered)
  have saving : Path (Guarded (service settings uuid Faulty).Step fun config event =>
      NoOverlapOf taskId config event ∧ SavesFailed taskId config event) config events' config' := by
    refine @Path.strengthen _ _ _ _ _ (fun config => config.Replayed (service settings uuid Faulty)) _ _ _
      later ?_ replayed ?_
    · exact fun _ _ _ step replayed => step.2.replayed rfl replayed
    · exact fun _ _ _ step replayed => ⟨step.1.1, step.1.2.saves step.2 replayed⟩
  have since : StaysFailed uuid taskId config.world view := by
    rw [views.world] at failed ⊢
    exact ⟨invariant, failed, .refl taskId _⟩
  obtain ⟨view', views', _, failed', same⟩ := service_refines.invariant_from
    (fun _ _ _ _ views allowed step since =>
      StaysFailed.preserved fresh.injective views allowed.1 allowed.2 step since) saving ⟨view, views, since⟩
  rw [views'.world]
  exact ⟨failed', same⟩

theorem NoOverlap.restrict {taskId : TaskId} {config : ServiceConfig} {event : ServiceEvent}
    (alone : NoOverlap config event) : NoOverlapOf taskId config event := by
  cases event with
  | start id activity =>
    cases activity with
    | request => trivial
    | handling => exact alone taskId
  | _ => trivial

/-- With a single attempt every redelivery ends in failure. -/
theorem failsAgain_single {settings : Settings} {taskId : TaskId} {config : ServiceConfig}
    {event : ServiceEvent} (single : settings.retryMaxAttempts = 1) :
    FailsAgain settings taskId config event := by
  unfold FailsAgain
  split
  · intros
    exact .inl (by omega)
  · trivial

/-- SEC does not know the company. -/
def unknownCompany : Outside :=
  { Sample.outside with submissions := fun _ => .error (.permanentSec "SEC 404") }

/-- A request, and a handling that is killed when it has saved FAILED. -/
def failedThenKilled : List (Move Activity Service.Choice) :=
  [.start 0 (Sample.request (some 2024))] ++ List.replicate 7 (.serve 0 (.succeeds default)) ++
    [.start 1 (Sample.handling 0 0), .serve 1 (.succeeds default), .serve 1 (.succeeds default),
      .serve 1 (.succeeds unknownCompany), .serve 1 (.succeeds default), .kill 1]

/-- The message comes again, and SEC does not answer in time. -/
def redeliveredTimeout : List (Move Activity Service.Choice) :=
  [.start 2 (Sample.handling 0 0), .serve 2 (.succeeds default), .serve 2 (.raises "timeout" false)] ++
    List.replicate 4 (.serve 2 (.succeeds default))

theorem redelivered_run {settings : Settings} {redelivery : List (Move Activity Service.Choice)}
    {checked : ServiceConfig → ServiceEvent → Bool} {allowed : ServiceConfig → ServiceEvent → Prop}
    {goal : ServiceConfig → Prop} (sound : ∀ config event, checked config event = true → allowed config event)
    (plays : (Service.faultyPlayer settings Sample.uuid).Plays
      (fun config event => event.id < 3 ∧ NoOverlapBelow 3 config event = true)
      (fun config => (Failed config.world "task-0" ∧ config.world.stream[1]? = none) ∧
        (Service.faultyPlayer settings Sample.uuid).Plays
          (fun config event => event.id < 3 ∧ NoOverlapBelow 3 config event = true ∧ checked config event = true)
          goal config redelivery) (.idle Sample.world) failedThenKilled) :
    ∃ events config events' config',
      Path (Guarded (service settings Sample.uuid Faulty).Step (NoOverlapOf "task-0")) (.idle Sample.world)
        events config ∧
      (Failed config.world "task-0" ∧ config.world.stream[1]? = none) ∧
      Path (Guarded (service settings Sample.uuid Faulty).Step fun config event =>
        NoOverlapOf "task-0" config event ∧ allowed config event) config events' config' ∧
      goal config' := by
  obtain ⟨events, config, path, ⟨failed, plays'⟩, _⟩ := plays.path
  obtain ⟨events', config', path', reached, _⟩ := plays'.path
  obtain ⟨path, above⟩ := System.bounded_run_from (fun _ _ above below =>
    (NoOverlapBelow.noOverlap above below).restrict) path fun _ _ => rfl
  obtain ⟨path', _⟩ := System.bounded_run_from (fun config event above below =>
    And.intro (NoOverlapBelow.noOverlap above below.1).restrict (sound config event below.2)) path' above
  exact ⟨events, config, events', config', path, failed, path', reached⟩

/-- SEC does not know the company the second time either. -/
def redeliveredUnknown : List (Move Activity Service.Choice) :=
  [.start 2 (Sample.handling 0 0), .serve 2 (.succeeds default), .serve 2 (.succeeds unknownCompany)] ++
    List.replicate 4 (.serve 2 (.succeeds default))

/-- The second reply of the handling is a permanent error of SEC. -/
def refusedBySec (process : ServiceProcess) : Bool :=
  match process.log.reverse with
  | _ :: ⟨.getSubmissions _, .error (.permanentSec _)⟩ :: _ => true
  | _ => false

/-- A pipeline that SEC has refused ends in that error. -/
theorem producePdf_refused {worker : Worker} {task : ReportTask} {cik message : String}
    {replies : List (Σ call, calls.Reply call)} {value : Except Err Selection × ReportTask}
    (ended : (worker.producePdf task).Reaches (⟨.getSubmissions cik, .error (.permanentSec message)⟩ :: replies)
      (.done value)) : value.1 = .error (.call (.permanentSec message)) := by
  change Program.Reaches ((Coroutine.lift (worker.cikMapping.resolve task.identity.ticker) >>= _) task) _ _ at ended
  cases known : worker.cikMapping.resolve task.identity.ticker with
  | error error =>
    rw [known] at ended
    cases ended
  | ok company =>
    rw [known] at ended
    cases ended with
    | reply rest =>
      cases rest
      rfl

/-- `FailsAgain` as a test on handlings that SEC refuses. -/
def refusedSave (config : ServiceConfig) : ServiceEvent → Bool
  | .reply id (.setTask _) _ => (config.process id).all refusedBySec
  | _ => true

theorem refusedSave_sound {settings : Settings} {taskId : TaskId} (config : ServiceConfig)
    (event : ServiceEvent) (checked : refusedSave config event = true) :
    FailsAgain settings taskId config event := by
  unfold FailsAgain
  split
  · rename_i id saved answer
    intro process present cikMapping now entry fields task replies result object _ _ log _ ended
    have second : refusedBySec process = true := (Option.all_eq_true _ _).mp checked process present
    unfold refusedBySec at second
    rw [log] at second
    split at second
    · next same =>
      obtain ⟨_, rfl⟩ := List.cons.inj same
      exact .inr ⟨_, producePdf_refused ended, trivial⟩
    · cases second
  · trivial

/-- A redelivery that times out when a single attempt is allowed, and one that SEC refuses again. -/
theorem failed_stays_redelivered :
    (∃ events config events' config',
      Path (Guarded (service { Sample.settings 2 with retryMaxAttempts := 1 } Sample.uuid Faulty).Step
        (NoOverlapOf "task-0")) (.idle Sample.world) events config ∧
      Path (Guarded (service { Sample.settings 2 with retryMaxAttempts := 1 } Sample.uuid Faulty).Step
        (NoOverlapOf "task-0")) config events' config' ∧
      (config'.world.tasks "task-0").map ReportTask.attempts = some 1 ∧
      Failed config'.world "task-0" ∧ NoNewEntry "task-0" config.world config'.world) ∧
    ∃ events config events' config',
      Path (Guarded (service (Sample.settings 2) Sample.uuid Faulty).Step (NoOverlapOf "task-0"))
        (.idle Sample.world) events config ∧
      Path (Guarded (service (Sample.settings 2) Sample.uuid Faulty).Step (NoOverlapOf "task-0"))
        config events' config' ∧
      config'.world.stream[0]?.map Entry.deleted = some true ∧
      Failed config'.world "task-0" ∧ NoNewEntry "task-0" config.world config'.world := by
  have unentered : ∀ id, ¬ Sample.world.HasEntry (Sample.uuid id) := by
    rintro id ⟨entry, ⟨⟩, _⟩
  constructor
  · obtain ⟨events, config, events', config', path, ⟨failed, _⟩, path', counted⟩ :=
      @redelivered_run { Sample.settings 2 with retryMaxAttempts := 1 } redeliveredTimeout (fun _ _ => true)
        (fun _ _ => True) (fun config => (config.world.tasks "task-0").map ReportTask.attempts = some 1)
        (fun _ _ _ => trivial) (by decide +kernel)
    refine ⟨events, config, events', config', path, path'.weaken fun _ _ allowed => allowed.1, counted, ?_⟩
    apply failed_stays Sample.uuid_fresh Sample.world_keyed unentered path failed
    exact path'.weaken fun _ _ allowed => ⟨allowed.1, failsAgain_single rfl⟩
  · obtain ⟨events, config, events', config', path, ⟨failed, _⟩, path', deleted⟩ :=
      @redelivered_run (Sample.settings 2) redeliveredUnknown refusedSave _
        (fun config => config.world.stream[0]?.map Entry.deleted = some true)
        (@refusedSave_sound (Sample.settings 2) "task-0") (by decide +kernel)
    refine ⟨events, config, events', config', path, path'.weaken fun _ _ allowed => allowed.1, deleted, ?_⟩
    exact failed_stays Sample.uuid_fresh Sample.world_keyed unentered path failed path'

/-- With the configured attempts the failed task is put back into the queue. -/
theorem failed_revived : ∃ events config events' config',
    Path (Guarded (service (Sample.settings 2) Sample.uuid Faulty).Step (NoOverlapOf "task-0"))
      (.idle Sample.world) events config ∧ Failed config.world "task-0" ∧
    Path (Guarded (service (Sample.settings 2) Sample.uuid Faulty).Step (NoOverlapOf "task-0"))
      config events' config' ∧
    ¬ Failed config'.world "task-0" ∧ ¬ NoNewEntry "task-0" config.world config'.world := by
  obtain ⟨events, config, events', config', path, ⟨failed, alone⟩, path', revived, added⟩ :=
    @redelivered_run (Sample.settings 2) redeliveredTimeout (fun _ _ => true) (fun _ _ => True)
      (fun config => ¬ Failed config.world "task-0" ∧ config.world.stream[1]? = some (Entry.new "task-0"))
      (fun _ _ _ => trivial) (by decide +kernel)
  refine ⟨events, config, events', config', path, failed, path'.weaken fun _ _ allowed => allowed.1, revived,
    fun same => ?_⟩
  obtain ⟨before, there, _⟩ := same 1 (Entry.new "task-0") added rfl
  cases alone.symm.trans there

end Quartr.Soundness
