import Quartr.Model.Sample
import Quartr.Soundness.Effects
import Quartr.Soundness.Replaying
import Quartr.Soundness.ServicePhases

/-! # Completed tasks stay completed

A handling decides by the copy it read what it saves. One that read COMPLETED saves nothing else; one that
was overtaken, because another handling saved COMPLETED after its last read, may. It does no harm if it is
already past its save of PROCESSING and its pipeline succeeds too.
-/

namespace Quartr.Soundness

open Quartr.Machine Quartr.Model

/-- The stored record of the task is COMPLETED. -/
def CompletedIn (world : World) (taskId : TaskId) : Prop :=
  (world.tasks taskId).map ReportTask.state = some .completed

instance (world : World) (taskId : TaskId) : Decidable (CompletedIn world taskId) :=
  inferInstanceAs (Decidable (_ = _))

/-- Only handlings begin. -/
def HandlingsOnly : ServiceEvent → Prop
  | .start _ (.request _ _) => False
  | _ => True

instance : DecidablePred HandlingsOnly
  | .start _ (.request _ _) => isFalse fun begun => begun
  | .start _ (.handling _ _ _ _) => isTrue trivial
  | .reply _ _ _ => isTrue trivial
  | .kill _ => isTrue trivial

/-- The copy a process read last. -/
def lastRead : List (Σ call, calls.Reply call) → Option ReportTask
  | [] => none
  | ⟨.getTask _, .ok found⟩ :: _ => found
  | _ :: log => lastRead log

/-- The copy a process read last is COMPLETED. -/
def ReadCompleted (log : List (Σ call, calls.Reply call)) : Prop :=
  (lastRead log).map ReportTask.state = some .completed

instance (log : List (Σ call, calls.Reply call)) : Decidable (ReadCompleted log) :=
  inferInstanceAs (Decidable (_ = _))

/-- The task was saved as COMPLETED after the process last read it. -/
def Overtaken (config : ServiceConfig) (id : ℕ) (taskId : TaskId) : Prop :=
  CompletedIn config.world taskId ∧ ∀ process ∈ config.process id, ¬ ReadCompleted process.log

instance (config : ServiceConfig) (id : ℕ) (taskId : TaskId) : Decidable (Overtaken config id taskId) :=
  inferInstanceAs (Decidable (_ ∧ ∀ process ∈ config.process id, _))

/-- Since it read the task the process has saved it as PROCESSING, and on the replies since then the pipeline
has come to a stored report. -/
def PipelineSucceeded (settings : Settings) (process : ServiceProcess) : Prop :=
  ∃ cikMapping now entry fields taskId task replies selection object,
    process.label = .handling cikMapping now entry fields ∧ canTransition task.state .processing = true ∧
    process.log.reverse = ⟨.getTask taskId, .ok (some task)⟩ ::
      ⟨.setTask { task with state := .processing }, .ok ()⟩ :: replies ∧
    (Worker.producePdf ⟨settings, cikMapping, now⟩ { task with state := .processing }).Reaches replies
      (.done (.ok selection, object))

/-- A handling that was overtaken reaches a save of the task only at the end of a pipeline that succeeded. -/
def SparesCompleted (settings : Settings) (config : ServiceConfig) : ServiceEvent → Prop
  | .reply id (.setTask saved) _ => Overtaken config id saved.taskId →
      ∀ process ∈ config.process id, PipelineSucceeded settings process
  | _ => True

/-- What an overtaken handling saves is COMPLETED. -/
def SavesCompleted (config : ServiceConfig) : ServiceEvent → Prop
  | .reply id (.setTask saved) _ => Overtaken config id saved.taskId → saved.state = .completed
  | _ => True

/-- From here a handling that read COMPLETED saves nothing else. -/
def Harmless : HandlingPhase → Prop
  | .running task _ => task.state = .completed
  | .completed _ _ => True
  | .released _ _ => True
  | .published _ _ => True
  | .broken _ => True
  | .finished => True
  | .acked => True
  | .stopped => True
  | _ => False

section Steps

variable {worker : Worker} {entry : ℕ} {taskId : TaskId} {phase phase' : HandlingPhase}
  {call : Call} {reply : calls.Reply call} {log : List (Σ call, calls.Reply call)}

theorem lastRead_cons
    (other : ∀ taskId found, (⟨call, reply⟩ : Σ call, calls.Reply call) ≠ ⟨.getTask taskId, .ok found⟩) :
    lastRead (⟨call, reply⟩ :: log) = lastRead log := by
  rw [lastRead]
  exact other

theorem orBroken_harmless (reply : calls.Reply call) {saved : ReportTask}
    (harmless : Harmless phase) : Harmless (orBroken reply saved phase) := by
  cases reply with
  | error error => trivial
  | ok answer => exact harmless

theorem orStopped_harmless (reply : calls.Reply call) (harmless : Harmless phase) :
    Harmless (orStopped reply phase) := by
  cases reply with
  | error error => trivial
  | ok answer => exact harmless

/-- A COMPLETED copy is never saved as PROCESSING, so it is worked on as it is. -/
theorem entering_harmless {task : ReportTask} (completed : task.state = .completed) :
    Harmless (.entering task) := by
  unfold HandlingPhase.entering
  rw [completed]
  exact completed

theorem recovering_finished {settings : Settings} {task : ReportTask}
    (completed : task.state = .completed) : HandlingPhase.recovering settings task = .finished := by
  simp only [HandlingPhase.recovering, completed, ↓reduceIte]

/-- From a harmless phase only a fresh read leads anywhere else. -/
theorem HandlingStep.harmless (step : HandlingStep worker entry taskId phase call reply phase')
    (harmless : Harmless phase)
    (other : ∀ taskId found, (⟨call, reply⟩ : Σ call, calls.Reply call) ≠ ⟨.getTask taskId, .ok found⟩) :
    Harmless phase' := by
  cases step with
  | pipeline => exact harmless
  | complete _ _ _ _ reply => exact orBroken_harmless reply trivial
  | release _ _ reply => exact orBroken_harmless reply trivial
  | publish original saved filing path filed stored reply =>
    cases reply with
    | error error => trivial
    | ok answer =>
      unfold HandlingPhase.bookkept
      split_ifs <;> trivial
  | unpin => trivial
  | fail task object saved stored message spent reply legal =>
    rw [show task.state = .completed from harmless] at legal
    cases legal
  | retry task object saved stored message reply legal =>
    rw [show task.state = .completed from harmless] at legal
    cases legal
  | reread => exact absurd rfl (other _ _)
  | unrecovered => trivial
  | ack reply => exact orStopped_harmless reply trivial
  | remove => trivial
  | _ => exact harmless.elim

/-- A handling whose last read was COMPLETED is harmless. -/
theorem HandlingStep.read_harmless (step : HandlingStep worker entry taskId phase call reply phase')
    (before : ReadCompleted log → Harmless phase) (read : ReadCompleted (⟨call, reply⟩ :: log)) :
    Harmless phase' := by
  by_cases other : ∀ taskId found,
      (⟨call, reply⟩ : Σ call, calls.Reply call) ≠ ⟨.getTask taskId, .ok found⟩
  · refine step.harmless (before ?_) other
    rwa [ReadCompleted, lastRead_cons other] at read
  · simp only [ne_eq, not_forall, not_not] at other
    obtain ⟨read', found, same⟩ := other
    cases same
    cases step with
    | pipeline _ _ _ _ outside => exact outside.elim
    | missed => trivial
    | load task => exact entering_harmless (Option.some.inj read)
    | reread _ object _ interrupted =>
      obtain ⟨task, rfl, completed⟩ := Option.map_eq_some_iff.mp read
      rw [Option.getD_some, recovering_finished completed]
      trivial

/-- A harmless handling saves COMPLETED only. -/
theorem HandlingStep.saves_completed {saved : ReportTask} {reply : calls.Reply (.setTask saved)}
    (step : HandlingStep worker entry taskId phase (.setTask saved) reply phase')
    (harmless : Harmless phase) : saved.state = .completed := by
  cases step with
  | pipeline _ _ _ _ outside => exact outside.elim
  | complete task _ _ selection _ _ _ _ result => rw [result]; rfl
  | fail task object _ _ _ _ _ legal =>
    rw [show task.state = .completed from harmless] at legal
    cases legal
  | retry task object _ _ _ _ legal =>
    rw [show task.state = .completed from harmless] at legal
    cases legal
  | _ => exact harmless.elim

end Steps

/-! ### The save at the end of a pipeline -/

section Program

variable {worker : Worker} {task : ReportTask}

/-- The program runs the pipeline on the task, and saves COMPLETED once that has succeeded. -/
def Delivers {α : Type} (worker : Worker) (task : ReportTask) (program : Program calls α) : Prop :=
  ∃ rest, program = (worker.producePdf task).bind rest ∧ ∀ selection, ∃ saved,
    Opens (rest (.ok selection, task)) saved ∧ saved.state = .completed

theorem Delivers.bind {α β : Type} {program : Program calls α} (delivers : Delivers worker task program)
    (rest : α → Program calls β) : Delivers worker task (program.bind rest) := by
  obtain ⟨conclude, rfl, completes⟩ := delivers
  refine ⟨_, Program.bind_assoc .., ?_⟩
  intro selection
  obtain ⟨saved, opens, state⟩ := completes selection
  exact ⟨saved, opens.bind rest, state⟩

theorem attempt_delivers (originalLogicalPath : String) (processing : task.state = .processing) :
    Delivers worker task (worker.attempt originalLogicalPath task) := by
  refine ⟨_, rfl, fun selection => ?_⟩
  have legal : canTransition ({ task with identity := selection.identity } : ReportTask).state .completed = true := by
    simp only [processing]
    rfl
  exact ⟨_, (transition_opens legal).bind _, rfl⟩

/-- The program saves the task as PROCESSING, and delivers it after that. -/
def Starts {α : Type} (worker : Worker) (task : ReportTask) (program : Program calls α) : Prop :=
  ∃ next, program = .await (.setTask { task with state := .processing }) next ∧
    Delivers worker { task with state := .processing } (next (.ok ()))

theorem Starts.bind {α β : Type} {program : Program calls α} (starts : Starts worker task program)
    (rest : α → Program calls β) : Starts worker task (program.bind rest) := by
  obtain ⟨next, rfl, delivers⟩ := starts
  exact ⟨_, rfl, delivers.bind rest⟩

theorem Starts.reaches {α : Type} {program final : Program calls α} {replies : List (Σ call, calls.Reply call)}
    (starts : Starts worker task program)
    (reaches : program.Reaches (⟨.setTask { task with state := .processing }, .ok ()⟩ :: replies) final) :
    ∃ program', Delivers worker { task with state := .processing } program' ∧ program'.Reaches replies final := by
  obtain ⟨next, rfl, delivers⟩ := starts
  cases reaches with
  | reply rest => exact ⟨_, delivers, rest⟩

/-- What such a program makes next when its pipeline has succeeded is the save of COMPLETED. -/
theorem Delivers.saves {α : Type} {program : Program calls α} {replies : List (Σ call, calls.Reply call)}
    {selection : Selection} {object saved : ReportTask} {next : calls.Reply (.setTask saved) → Program calls α}
    (delivers : Delivers worker task program) (reaches : program.Reaches replies (.await (.setTask saved) next))
    (succeeds : (worker.producePdf task).Reaches replies (.done (.ok selection, object))) :
    saved.state = .completed := by
  obtain ⟨rest, rfl, completes⟩ := delivers
  obtain rfl : object = task := producePdf_object succeeds
  obtain ⟨saved', ⟨_, opens⟩, state⟩ := completes selection
  have same := reaches.unique (succeeds.bind rest)
  rw [Program.bind, opens] at same
  cases same
  exact state

theorem transition_processing (legal : canTransition task.state .processing = true) :
    Repository.transition .processing id task = .await (.setTask { task with state := .processing })
      fun reply => .done (reply.mapError Err.call, { task with state := .processing }) := by
  show (Coroutine.lift (assertTransition task.state .processing) >>= _) task = _
  simp only [assertTransition, legal, ↓reduceIte]
  refine congrArg (Program.await _) (funext fun reply => ?_)
  cases reply <;> rfl

theorem processTask_starts (legal : canTransition task.state .processing = true) :
    Starts worker task (worker.processTask task) := by
  show Starts worker task (((Repository.transition .processing id task).bind _).bind _)
  rw [transition_processing legal]
  refine ⟨_, rfl, ?_⟩
  show Delivers worker { task with state := .processing }
    ((worker.attempt _ { task with state := .processing }).bind _)
  exact (attempt_delivers _ rfl).bind _

/-- A task that has been saved as PROCESSING is delivered. -/
theorem handleMessage_delivers {taskId : TaskId} {entry : ℕ} {fields : List (String × String)}
    {replies : List (Σ call, calls.Reply call)} {final : Program calls (Except Err Unit × Unit)}
    (legal : canTransition task.state .processing = true)
    (reaches : (worker.handleMessage entry fields ()).Reaches (⟨.getTask taskId, .ok (some task)⟩ ::
      ⟨.setTask { task with state := .processing }, .ok ()⟩ :: replies) final) :
    ∃ program : Program calls (Except Err Unit × Unit),
      Delivers worker { task with state := .processing } program ∧ program.Reaches replies final := by
  unfold Worker.handleMessage at reaches
  cases named : fieldsTaskId fields with
  | none =>
    simp only [named] at reaches
    cases reaches
  | some taskId' =>
    by_cases empty : taskId' = ""
    · simp only [named, empty, ↓reduceIte] at reaches
      cases reaches
    simp only [named, empty, ↓reduceIte] at reaches
    cases reaches with
    | reply rest =>
      refine Starts.reaches ?_ rest
      show Starts worker task ((((((worker.processTask task).bind _).bind _).bind _).bind _).bind _)
      exact ((((processTask_starts legal).bind _).bind _).bind _).bind _ |>.bind _

end Program

/-- The process is a handling, and harmless once it has read COMPLETED. -/
def ReaderHarmless (agent : Agent) : Prop :=
  ∃ phase, agent.control = .handling phase ∧ (ReadCompleted agent.log → Harmless phase)

def ReadersHarmless (view : ServiceView) : Prop :=
  ∀ id agent, view.process id = some agent → ReaderHarmless agent

section Run

variable {settings : Settings} {uuid : ℕ → TaskId} {config : ServiceConfig}
  {view view' : ServiceView} {event : ServiceEvent}

theorem ReadersHarmless.step (readers : ReadersHarmless view) (handlings : HandlingsOnly event)
    (step : (outline settings uuid Faulty).Step view event view') : ReadersHarmless view' := by
  refine @System.Step.forall_process _ _ _ _ _ (fun _ _ agent => ReaderHarmless agent) _ _ _ step
    readers ?_ fun _ _ _ _ known => known
  intro agent present
  cases step with
  | @start id label world absent begins =>
    obtain rfl := Option.some.inj (Config.put_self.symm.trans present)
    cases label with
    | request => exact handlings.elim
    | handling => exact ⟨_, rfl, by rintro ⟨⟩⟩
  | @reply id agent' call reply phase' world found alive moves served =>
    obtain rfl := Option.some.inj (Config.put_self.symm.trans present)
    obtain ⟨phase, control, harmless⟩ := readers _ agent' found
    obtain ⟨label, control', log, killed⟩ := agent'
    obtain rfl : control' = .handling phase := control
    cases moves with
    | handling step => exact ⟨_, rfl, step.read_harmless harmless⟩
  | @kill id agent' found alive =>
    obtain rfl := Option.some.inj (Config.put_self.symm.trans present)
    exact readers id agent' found

/-- A task that is completed stays so, unless an overtaken handling saves it in another state. -/
theorem ReadersHarmless.completed {taskId : TaskId} (readers : ReadersHarmless view)
    (views : Views settings uuid Faulty config view) (saves : SavesCompleted config event)
    (step : (outline settings uuid Faulty).Step view event view')
    (completed : CompletedIn view.world taskId) : CompletedIn view'.world taskId := by
  cases step with
  | @start id label world absent begins =>
    cases label with
    | request =>
      obtain rfl : world = view.world := begins
      exact completed
    | handling =>
      obtain ⟨_, rfl⟩ := begins
      exact completed
  | kill => exact completed
  | @reply id agent call reply phase' world present alive moves served =>
    rcases served_world served with rfl | rfl
    · exact completed
    · rw [Config.put_world, CompletedIn, World.after_tasks]
      cases call with
      | setTask saved =>
        by_cases same : taskId = saved.taskId
        · subst same
          simp only [Function.update_self, Option.map_some, Option.some.injEq]
          obtain ⟨phase, control, harmless⟩ := readers id agent present
          obtain ⟨label, control', log, killed⟩ := agent
          obtain rfl : control' = .handling phase := control
          by_cases read : ReadCompleted log
          · cases moves with
            | handling step => exact step.saves_completed (harmless read)
          · refine saves ⟨views.world ▸ completed, fun process found => ?_⟩
            obtain ⟨agent', present', follows⟩ := Refinement.seen views found
            cases present.symm.trans present'
            rw [follows.2.1]
            exact read
        · simp only [Function.update_of_ne same]
          exact completed
      | _ => exact completed

end Run

/-- A pipeline that succeeded is followed by the save of COMPLETED. -/
theorem SparesCompleted.saves {config' : ServiceConfig} (spares : SparesCompleted settings config event)
    (step : (service settings uuid Faulty).Step config event config')
    (replayed : config.Replayed (service settings uuid Faulty)) : SavesCompleted config event := by
  cases step with
  | start => trivial
  | kill => trivial
  | @reply id process call reply control world present alive moves served =>
    cases call with
    | setTask saved =>
      intro overtaken
      obtain ⟨cikMapping, now, entry, fields, taskId, task, replies, selection, object, label, legal, log, succeeds⟩ :=
        spares overtaken process present
      have reaches := replayed id process present
      rw [label, log] at reaches
      obtain ⟨activity, control, log', killed⟩ := process
      cases moves with
      | @reply _ next _ =>
        rcases reaches.bind_cases with ⟨middle, inside, same⟩ | ⟨_, _, _, _, _, after⟩
        · cases middle with
          | done value => cases same
          | await call next =>
            cases same
            obtain ⟨program, delivers, onward⟩ := handleMessage_delivers legal inside
            exact delivers.saves onward succeeds
        · cases after
    | _ => trivial

/-- A run of handlings of any tasks, every step of which spares completed tasks. -/
abbrev SparingRun (settings : Settings) (uuid : ℕ → TaskId) (start : ServiceConfig)
    (events : List ServiceEvent) (config : ServiceConfig) : Prop :=
  Path (Guarded (service settings uuid Faulty).Step fun config event =>
    HandlingsOnly event ∧ SparesCompleted settings config event) start events config

/-- Once a task has been saved as COMPLETED no handling stores it in another state. -/
theorem completed_stays {settings : Settings} {uuid : ℕ → TaskId} {world : World}
    {events events' : List ServiceEvent} {mid config : ServiceConfig} {taskId : TaskId}
    (before : SparingRun settings uuid (.idle world) events mid)
    (after : SparingRun settings uuid mid events' config) (completed : CompletedIn mid.world taskId) :
    CompletedIn config.world taskId := by
  obtain ⟨view, views, readers⟩ := service_refines.invariant
    (fun _ _ _ _ _ guard step readers => ReadersHarmless.step readers guard.1 step) before
    (fun _ _ present => Config.idle_absent present)
  have replayed := replayed_run (before.mono fun _ _ _ step => step.2)
  have saving : Path (Guarded (service settings uuid Faulty).Step fun config event =>
      HandlingsOnly event ∧ SavesCompleted config event) mid events' config := by
    refine @Path.strengthen _ _ _ _ _ (fun config => config.Replayed (service settings uuid Faulty)) _ _ _
      after ?_ replayed ?_
    · exact fun _ _ _ step replayed => step.2.replayed rfl replayed
    · exact fun _ _ _ step replayed => ⟨step.1.1, step.1.2.saves step.2 replayed⟩
  have preserved : ∀ config view event view', Views settings uuid Faulty config view →
      HandlingsOnly event ∧ SavesCompleted config event →
      (outline settings uuid Faulty).Step view event view' →
      ReadersHarmless view ∧ CompletedIn view.world taskId →
      ReadersHarmless view' ∧ CompletedIn view'.world taskId := by
    rintro config view event view' views ⟨handlings, saves⟩ step ⟨readers, completed⟩
    exact ⟨readers.step handlings step, readers.completed views saves step completed⟩
  obtain ⟨view', views', _, completed'⟩ := service_refines.invariant_from preserved saving
    ⟨view, views, readers, views.world ▸ completed⟩
  rw [views'.world]
  exact completed'

/-- Two deliveries of one entry have read QUEUED; the first one completes the task. -/
def overtaking : List (Move Activity Service.Choice) :=
  [.start 1 (Sample.handling 0 0), .start 2 (Sample.handling 0 0), .serve 1 (.succeeds default),
    .serve 2 (.succeeds default), .serve 1 (.succeeds default), .serve 2 (.succeeds default)] ++
    List.replicate 15 (.serve 1 (.succeeds Sample.outside))

/-- The second one gets no answer from SEC and counts a failed attempt. -/
def timedOut : List (Move Activity Service.Choice) :=
  [.serve 2 (.succeeds { Sample.outside with submissions := fun _ => .error (.transientSec "timeout") }),
    .serve 2 (.succeeds default)]

/-- A handling that was overtaken can demote a completed task. -/
theorem completed_demoted : ¬ ∀ events mid events' config,
    Path (Guarded (service (Sample.settings 2) Sample.uuid Faulty).Step fun _ event =>
      HandlingsOnly event) (.idle (Sample.queued 2024)) events mid →
    Path (Guarded (service (Sample.settings 2) Sample.uuid Faulty).Step fun _ event =>
      HandlingsOnly event) mid events' config →
    CompletedIn mid.world "task-0" → CompletedIn config.world "task-0" := by
  intro claimed
  have plays : (Service.faultyPlayer (Sample.settings 2) Sample.uuid).Plays
      (fun _ event => HandlingsOnly event)
      (fun mid => CompletedIn mid.world "task-0" ∧
        (Service.faultyPlayer (Sample.settings 2) Sample.uuid).Plays
          (fun _ event => HandlingsOnly event)
          (fun config => (config.world.tasks "task-0").map ReportTask.state = some .retrying) mid timedOut)
      (.idle (Sample.queued 2024)) overtaking := by
    decide +kernel
  obtain ⟨events, mid, before, ⟨completed, later⟩, _⟩ := plays.path
  obtain ⟨events', config, after, retrying, _⟩ := later.path
  have still := claimed events mid events' config before after completed
  rw [CompletedIn, retrying] at still
  cases still

/-- No handling that was overtaken reaches a save at all. -/
def sparesCompleted (config : ServiceConfig) : ServiceEvent → Bool
  | .reply id (.setTask saved) _ => decide (¬ Overtaken config id saved.taskId)
  | _ => true

theorem sparesCompleted_sound {settings : Settings} {config : ServiceConfig} {event : ServiceEvent}
    (spares : sparesCompleted config event = true) : SparesCompleted settings config event := by
  unfold SparesCompleted
  split
  · intro overtaken
    exact absurd overtaken (of_decide_eq_true spares)
  · trivial

/-- The first handling is killed once it has saved COMPLETED; the second one repeats the work. -/
def repeated : List (Move Activity Service.Choice) :=
  [.kill 1, .start 2 (Sample.handling 0 0)] ++
    List.replicate 8 (.serve 2 (.succeeds Sample.outside))

theorem completed_stays_repeated : ∃ events mid events' config,
    SparingRun (Sample.settings 2) Sample.uuid (.idle (Sample.queued 2024)) events mid ∧
    SparingRun (Sample.settings 2) Sample.uuid mid events' config ∧
    CompletedIn mid.world "task-0" ∧ (∃ entry ∈ config.world.stream, entry.deleted = true) ∧
    CompletedIn config.world "task-0" := by
  have plays : (Service.faultyPlayer (Sample.settings 2) Sample.uuid).Plays
      (fun config event => HandlingsOnly event ∧ sparesCompleted config event = true)
      (fun mid => CompletedIn mid.world "task-0" ∧
        (Service.faultyPlayer (Sample.settings 2) Sample.uuid).Plays
          (fun config event => HandlingsOnly event ∧ sparesCompleted config event = true)
          (fun config => ∃ entry ∈ config.world.stream, entry.deleted = true) mid repeated)
      (.idle (Sample.queued 2024))
      (.start 1 (Sample.handling 0 0) :: List.replicate 17 (.serve 1 (.succeeds Sample.outside))) := by
    decide +kernel
  obtain ⟨events, mid, before, ⟨completed, later⟩, _⟩ := plays.path
  obtain ⟨events', config, after, acked, _⟩ := later.path
  have sparing : SparingRun (Sample.settings 2) Sample.uuid (.idle (Sample.queued 2024)) events mid :=
    before.weaken fun _ _ guard => ⟨guard.1, sparesCompleted_sound guard.2⟩
  have sparing' : SparingRun (Sample.settings 2) Sample.uuid mid events' config :=
    after.weaken fun _ _ guard => ⟨guard.1, sparesCompleted_sound guard.2⟩
  exact ⟨events, mid, events', config, sparing, sparing', completed, acked,
    completed_stays sparing sparing' completed⟩

end Quartr.Soundness
