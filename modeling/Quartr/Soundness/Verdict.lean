import Quartr.Machine.Endings
import Quartr.Soundness.Failure

/-! # What a record says of its outcome

Every transition saves the whole record, and only some of them set `error`. A task that completes
therefore keeps the error of an attempt before. `Reflects` says that a handling which does not overlap
with another one of its task holds the record as it is stored, so that a completed record carries
an error only if the record it replaces did.
-/

namespace Quartr.Soundness

open Quartr.Machine Quartr.Model
open Quartr.Machine.Coroutine (Ends ends_pure ends_throw ends_call ends_seq)

/-- A completed task has no error, a failed one has. -/
structure TellsTruth (task : ReportTask) : Prop where
  completed : task.state = .completed → task.error = none
  failed : task.state = .failed → task.error ≠ none

/-- What is stored of the task tells the truth. -/
def ToldTruth (taskId : TaskId) (world : World) : Prop :=
  ∀ task, world.tasks taskId = some task → TellsTruth task

/-- No record of the task that has an error is replaced by a completed one. -/
def CompletesUnblamed (taskId : TaskId) (config : ServiceConfig) : ServiceEvent → Prop
  | .reply _ (.setTask saved) _ => saved.taskId = taskId → saved.state = .completed →
      ∀ stored, config.world.tasks taskId = some stored → stored.error = none
  | _ => True

/-- What a handling of the task knows of the stored record. -/
def Reflects (taskId : TaskId) (world : World) : HandlingPhase → Prop
  | .fresh => True
  | .loaded task => world.tasks taskId = some task
  | .running task _ => world.tasks taskId = some task
  | .counting current => TellsTruth current
  | .finished => True
  | .acked => True
  | .stopped => True
  | _ => world.tasks taskId ≠ none

section Steps

variable {worker : Worker} {entry : ℕ} {taskId : TaskId} {phase phase' : HandlingPhase} {call : Call}
  {reply : calls.Reply call} {world world' : World}

/-- A state in between says nothing of an outcome. -/
theorem tellsTruth_of_open {task : ReportTask} (unfinished : ¬ task.state.Terminal) : TellsTruth task :=
  ⟨fun completed => absurd (.inl completed) unfinished, fun failed => absurd (.inr failed) unfinished⟩

theorem Reflects.same (reflects : Reflects taskId world phase) (same : world'.tasks taskId = world.tasks taskId) :
    Reflects taskId world' phase := by
  cases phase <;> first
    | exact reflects
    | exact same.trans reflects
    | exact fun gone => reflects (same.symm.trans gone)

theorem stored_served (served : Faulty call world reply world') (stored : world.tasks taskId ≠ none) :
    world'.tasks taskId ≠ none := by
  rcases served_world served with rfl | rfl
  · exact stored
  · rw [World.after_tasks]
    cases call with
    | setTask saved =>
      by_cases own : taskId = saved.taskId
      · simp only [own, Function.update_self]
        exact Option.some_ne_none _
      · simpa only [Function.update_of_ne own] using stored
    | _ => exact stored

/-- After a save the record is what was saved or what it was. -/
theorem ToldTruth.served (told : ToldTruth taskId world) (served : Faulty call world reply world')
    (saves : ∀ saved, call = .setTask saved → saved.taskId = taskId → TellsTruth saved) :
    ToldTruth taskId world' := by
  rcases served_world served with rfl | rfl
  · exact told
  · intro task present
    rw [World.after_tasks] at present
    cases call with
    | setTask saved =>
      by_cases own : taskId = saved.taskId
      · simp only [own, Function.update_self, Option.some.injEq] at present
        exact present ▸ saves saved rfl own.symm
      · simp only [Function.update_of_ne own] at present
        exact told task present
    | _ => exact told task present

/-- A request saves a record without an outcome. -/
theorem RequestStep.tellsTruth {ticket : Ticket} {phase phase' : RequestPhase} {saved : ReportTask}
    (step : RequestStep ticket phase call reply phase') (saving : call = .setTask saved) : TellsTruth saved := by
  have next := step.call?_eq
  subst saving
  cases phase <;> cases next <;> exact tellsTruth_of_open (by rintro (same | same) <;> cases same)

/-- What a handling saves tells the truth, if the record it completes has no error. -/
theorem Reflects.saves (reflects : Reflects taskId world phase)
    (step : HandlingStep worker entry taskId phase call reply phase')
    (unblamed : ∀ saved, call = .setTask saved → saved.state = .completed →
      ∀ stored, world.tasks taskId = some stored → stored.error = none) {saved : ReportTask}
    (saving : call = .setTask saved) : TellsTruth saved := by
  cases step with
  | start task saved reply legal result =>
    cases saving
    subst result
    exact tellsTruth_of_open (by rintro (same | same) <;> cases same)
  | pipeline _ _ _ _ outside =>
    subst saving
    exact outside.elim
  | complete task saved stored selection reply legal selects present result =>
    cases saving
    subst result
    exact ⟨fun _ => unblamed _ rfl rfl task reflects, nofun⟩
  | fail task object saved stored message spent reply legal attempted budget result =>
    cases saving
    subst result
    exact ⟨nofun, fun _ => Option.some_ne_none message⟩
  | retry task object saved stored message reply legal attempted budget result =>
    cases saving
    subst result
    exact tellsTruth_of_open (by rintro (same | same) <;> cases same)
  | requeue saved =>
    cases saving
    exact tellsTruth_of_open (by rintro (same | same) <;> cases same)
  | bury current saved message reply alive result =>
    cases saving
    subst result
    exact ⟨nofun, fun _ => Option.some_ne_none message⟩
  | count current =>
    cases saving
    exact reflects
  | _ => cases saving

theorem Reflects.running {task : ReportTask} {stored : List String}
    (reflects : Reflects taskId world (.running task stored)) : world.tasks taskId ≠ none := by
  rw [show world.tasks taskId = some task from reflects]
  exact Option.some_ne_none task

/-- The handling holds the record as it is stored, step after step. -/
theorem Reflects.step (reflects : Reflects taskId world phase) (told : ToldTruth taskId world)
    (step : HandlingStep worker entry taskId phase call reply phase')
    (served : Faulty call world reply world') (held : phase.Holds fun task => task.taskId = taskId) :
    Reflects taskId world' phase' := by
  have orBroken_reflects {saved : ReportTask} {rest : HandlingPhase} (stored : world.tasks taskId ≠ none)
      (answered : ∀ answer, reply = .ok answer → Reflects taskId world' rest) :
      Reflects taskId world' (orBroken reply saved rest) := by
    cases reply with
    | error error => exact stored_served served stored
    | ok answer => exact answered answer rfl
  cases step with
  | load task =>
    obtain ⟨read, rfl⟩ := served_getTask served
    unfold HandlingPhase.entering
    split_ifs <;> exact read.symm
  | start task saved reply legal result =>
    have reading : world.tasks taskId = some task := reflects
    apply orBroken_reflects
    · rw [reading]
      exact Option.some_ne_none task
    · rintro answer rfl
      subst result
      have own : task.taskId = taskId := held task rfl
      show world'.tasks taskId = _
      rw [(served_answer served).2, World.after_tasks, ← own]
      exact Function.update_self ..
  | pipeline task stored call reply outside =>
    have same : world'.tasks taskId = world.tasks taskId := by
      refine (leaves_served served ?_ ?_).tasks
      · rintro saved rfl
        exact outside.elim
      · rintro rfl
        exact outside
    exact same.trans reflects
  | complete => exact orBroken_reflects reflects.running fun _ _ => stored_served served reflects.running
  | fail => exact orBroken_reflects reflects.running fun _ _ => stored_served served reflects.running
  | retry => exact orBroken_reflects reflects.running fun _ _ => stored_served served reflects.running
  | release => exact orBroken_reflects reflects fun _ _ => stored_served served reflects
  | requeue => exact orBroken_reflects reflects fun _ _ => stored_served served reflects
  | clear => exact orBroken_reflects reflects fun _ _ => trivial
  | enqueue => exact orBroken_reflects reflects fun _ _ => trivial
  | publish original saved filing path filed stored reply =>
    cases reply with
    | error error => trivial
    | ok answer =>
      dsimp only [HandlingPhase.bookkept]
      split_ifs
      · exact stored_served served reflects
      · trivial
  | measure => exact stored_served served reflects
  | overfull => exact stored_served served reflects
  | reread phase object read interrupted =>
    have stored : world.tasks taskId ≠ none := by
      cases interrupted with
      | broken => exact reflects
      | running => exact reflects.running
    obtain ⟨rfl, rfl⟩ := served_getTask served
    obtain ⟨current, present⟩ := Option.ne_none_iff_exists'.mp stored
    simp only [present, Option.getD_some, HandlingPhase.recovering]
    split_ifs
    · trivial
    · exact stored
    · exact ⟨(told current present).completed, (told current present).failed⟩
  | bury current saved message reply =>
    cases reply with
    | error error => trivial
    | ok answer => exact stored_served served reflects
  | forget saved reply => cases reply <;> trivial
  | ack reply => cases reply <;> trivial
  | _ => trivial

end Steps

/-! ### The invariant -/

structure VerdictInvariant (uuid : ℕ → TaskId) (taskId : TaskId) (view : ServiceView) : Prop where
  fate : FateInvariant uuid taskId view
  told : ToldTruth taskId view.world
  reflects : ∀ id agent phase, view.process id = some agent → agent.label.taskId? = some taskId →
    agent.killed = false → agent.control = .handling phase → Reflects taskId view.world phase

section Invariant

variable {settings : Settings} {uuid : ℕ → TaskId} {taskId : TaskId} {config : ServiceConfig}
  {view view' : ServiceView} {event : ServiceEvent} {world' : World}

/-- What the step of one process has to re-establish: it saves nothing of the task, or nobody else works on it. -/
theorem VerdictInvariant.put (invariant : VerdictInvariant uuid taskId view) {id : ℕ} {agent' : Agent}
    (fate : FateInvariant uuid taskId (view.put id agent' world')) (told : ToldTruth taskId world')
    (own : agent'.label.taskId? = some taskId → agent'.killed = false →
      ∀ phase, agent'.control = .handling phase → Reflects taskId world' phase)
    (effect : world'.tasks taskId = view.world.tasks taskId ∨
      ∀ other agent, other ≠ id → view.process other = some agent → ¬ Busy agent taskId) :
    VerdictInvariant uuid taskId (view.put id agent' world') := by
  refine ⟨fate, told, ?_⟩
  intro other agent phase present named alive control
  rcases Config.put_cases present with ⟨rfl, rfl⟩ | ⟨differs, before⟩
  · exact own named alive phase control
  · have reflects := invariant.reflects other agent phase before named alive control
    rcases effect with same | sole
    · exact reflects.same same
    · have final : Phase.Final agent.control := by
        by_contra unfinished
        exact sole other agent differs before ⟨named, alive, unfinished⟩
      rw [control] at final
      rcases final with ⟨answer, same⟩ | same
      · cases same
      · cases same
        trivial

theorem VerdictInvariant.start (invariant : VerdictInvariant uuid taskId view) {id : ℕ} {label : Activity}
    (begins : Service.start view.world label world')
    (fate : FateInvariant uuid taskId (view.put id ⟨label, Phase.initial label, [], false⟩ world')) :
    VerdictInvariant uuid taskId (view.put id ⟨label, Phase.initial label, [], false⟩ world') := by
  have same : world'.tasks = view.world.tasks := by
    cases label with
    | request =>
      obtain rfl : world' = view.world := begins
      rfl
    | handling =>
      obtain ⟨_, rfl⟩ := begins
      rfl
  apply invariant.put fate
  · rw [ToldTruth, same]
    exact invariant.told
  · intro named _ phase control
    cases label with
    | request => cases named
    | handling cikMapping now entry fields =>
      cases control
      rcases HandlingPhase.initial_cases fields with same | same <;> rw [same] <;> trivial
  · exact .inl (congrFun same taskId)

theorem VerdictInvariant.reply (invariant : VerdictInvariant uuid taskId view) {id : ℕ} {agent : Agent}
    {call : Call} {reply : calls.Reply call} {phase' : Phase} (present : view.process id = some agent)
    (alive : agent.killed = false)
    (moves : ServiceStep settings uuid id agent.label agent.control call reply phase')
    (served : Faulty call view.world reply world')
    (unblamed : ∀ saved, call = .setTask saved → saved.taskId = taskId → saved.state = .completed →
      ∀ stored, view.world.tasks taskId = some stored → stored.error = none)
    (fate : FateInvariant uuid taskId (view.put id (agent.resume call reply phase') world')) :
    VerdictInvariant uuid taskId (view.put id (agent.resume call reply phase') world') := by
  have state := invariant.fate.agents id agent present
  have unfinished := moves.not_final
  obtain ⟨label, control, log, killed⟩ := agent
  cases moves with
  | @request cikMapping payload identity phase phase' _ _ identified step =>
    obtain ⟨_, ⟨⟩, early⟩ := state
    apply invariant.put fate
    · exact invariant.told.served served fun saved saving _ => step.tellsTruth saving
    · rintro ⟨⟩
    · by_cases drawn : uuid id = taskId
      · have without := (early drawn (by rintro answer rfl; cases step.call?_eq)).1
        exact .inr fun other agent _ found busy => without (invariant.fate.busy_entry found busy)
      · refine .inl (leaves_served served ?_ ?_).tasks
        · rintro saved rfl same
          exact drawn (((step.mine view.world).saves saved rfl).symm.trans same)
        · rintro rfl
          exact drawn ((step.mine view.world).adds taskId rfl).symm
  | @handling cikMapping now entry fields phase phase' _ _ step =>
    obtain ⟨_, ⟨⟩, held, owes, own⟩ := state
    by_cases named : fieldsTaskId fields = some taskId
    · have identified : handledId fields = taskId := by
        simp only [handledId, named, Option.getD_some]
      rw [identified] at step held
      have reflects := invariant.reflects id _ phase present named alive rfl
      apply invariant.put fate
      · refine invariant.told.served served fun saved saving _ => ?_
        refine reflects.saves step (fun saved saving => ?_) saving
        subst saving
        exact unblamed saved rfl (step.saves held)
      · rintro _ _ _ ⟨⟩
        exact reflects.step invariant.told step served held
      · refine .inr fun other agent differs found busy => ?_
        exact differs (invariant.fate.apart other id agent _ found present busy ⟨named, alive, unfinished⟩)
    · have same := (step.leaves held owes named served).tasks
      apply invariant.put fate
      · rw [ToldTruth, same]
        exact invariant.told
      · exact fun mine => absurd mine named
      · exact .inl same

theorem VerdictInvariant.preserved (injective : ∀ id id', uuid id = uuid id' → id = id')
    (views : Views settings uuid Faulty config view) (alone : NoOverlapOf taskId config event)
    (unblamed : CompletesUnblamed taskId config event)
    (step : (outline settings uuid Faulty).Step view event view') (invariant : VerdictInvariant uuid taskId view) :
    VerdictInvariant uuid taskId view' := by
  have fate := invariant.fate.preserved injective views alone step
  cases step with
  | start absent begins => exact invariant.start begins fate
  | @reply id agent call reply phase' world present alive moves served =>
    refine invariant.reply present alive moves served ?_ fate
    rintro saved rfl own completed stored present
    rw [← views.world] at present
    exact unblamed own completed stored present
  | kill present alive =>
    apply invariant.put fate
    · exact invariant.told
    · rintro _ ⟨⟩
    · exact .inl rfl

theorem VerdictInvariant.idle {world : World} (fresh : FreshIds uuid world) (keyed : world.Keyed)
    (unentered : ∀ id, ¬ world.HasEntry (uuid id)) (told : ToldTruth taskId world) :
    VerdictInvariant uuid taskId (.idle world) :=
  ⟨.idle fresh keyed unentered, told, fun _ _ _ present => Config.idle_absent present⟩

end Invariant

/-! ### What the API answers -/

/-- `GET /tasks/{task_id}` answers no completed report with an error, and no failed one without. -/
def AnswersTruth (taskId : TaskId) (world : World) : Prop :=
  ∀ report world', Ends Faulty (Routes.getTask taskId) () world (.ok report) () world' →
    (report.state = "completed" → report.error = none) ∧ (report.state = "failed" → report.error ≠ none)

theorem value_injective {state state' : ReportState} (same : state.value = state'.value) : state = state' := by
  revert same
  cases state <;> cases state' <;> decide

theorem ToldTruth.answers {taskId : TaskId} {world : World} (told : ToldTruth taskId world) :
    AnswersTruth taskId world := by
  intro report world' ends
  rcases ends_seq.mp ends with ⟨read, middle, world'', looked, answered⟩ | ⟨error, _, ⟨⟩⟩
  obtain ⟨reply, served, same, rfl⟩ := ends_call.mp looked
  cases reply with
  | error error => cases same
  | ok found =>
    cases same
    obtain ⟨present, rfl⟩ := served_getTask served
    cases read with
    | none => cases (ends_throw.mp answered).1
    | some task =>
      cases (ends_pure.mp answered).1
      have truth := told task present.symm
      constructor
      · intro completed
        exact truth.completed (@value_injective _ .completed completed)
      · intro failed
        exact truth.failed (@value_injective _ .failed failed)

/-- A completed task shows no error and a failed one does, as long as no attempt succeeds after one that
left an error in the record. -/
theorem verdict_truthful {settings : Settings} {uuid : ℕ → TaskId} {taskId : TaskId} {world : World}
    {events : List ServiceEvent} {config : ServiceConfig} (fresh : FreshIds uuid world) (keyed : world.Keyed)
    (unentered : ∀ id, ¬ world.HasEntry (uuid id)) (told : ToldTruth taskId world)
    (path : Path (Guarded (service settings uuid Faulty).Step fun config event =>
      NoOverlapOf taskId config event ∧ CompletesUnblamed taskId config event) (.idle world) events config) :
    ToldTruth taskId config.world ∧ AnswersTruth taskId config.world := by
  obtain ⟨view, views, invariant⟩ := service_refines.invariant
    (fun _ _ _ _ views guard step invariant =>
      invariant.preserved fresh.injective views guard.1 guard.2 step) path
    (VerdictInvariant.idle fresh keyed unentered told)
  rw [views.world]
  exact ⟨invariant.told, invariant.told.answers⟩

/-- `CompletesUnblamed` as a test. -/
def completesUnblamed (taskId : TaskId) (world : World) : ServiceEvent → Bool
  | .reply _ (.setTask saved) _ => saved.taskId ≠ taskId || saved.state ≠ .completed ||
      (world.tasks taskId).all (·.error = none)
  | _ => true

theorem completesUnblamed_sound {taskId : TaskId} {config : ServiceConfig} {event : ServiceEvent}
    (unblamed : completesUnblamed taskId config.world event = true) : CompletesUnblamed taskId config event := by
  unfold CompletesUnblamed
  split
  · intro own completed stored present
    simp only [completesUnblamed, own, completed, present, ne_eq, not_true_eq_false, decide_false, Bool.or_self,
      Bool.false_or, Option.all_some, decide_eq_true_eq] at unblamed
    exact unblamed
  · trivial

/-- A request, and a handling that comes to the end. -/
def handledAtOnce : List (Move Activity Service.Choice) :=
  [.start 0 (Sample.request (some 2024))] ++ List.replicate 7 (.serve 0 (.succeeds default)) ++
    [.start 1 (Sample.handling 0 0)] ++ List.replicate 17 (.serve 1 (.succeeds Sample.outside))

theorem verdict_truthful_completed : ∃ events config,
    Path (Guarded (service (Sample.settings 2) Sample.uuid Faulty).Step fun config event =>
      NoOverlapOf "task-0" config event ∧ CompletesUnblamed "task-0" config event)
      (.idle Sample.world) events config ∧
    (config.world.tasks "task-0").map ReportTask.state = some .completed ∧
    ToldTruth "task-0" config.world ∧ AnswersTruth "task-0" config.world := by
  have plays : (Service.faultyPlayer (Sample.settings 2) Sample.uuid).Plays
      (fun config event => event.id < 2 ∧
        (NoOverlapBelow 2 config event && completesUnblamed "task-0" config.world event) = true)
      (fun config => (config.world.tasks "task-0").map ReportTask.state = some .completed)
      (.idle Sample.world) handledAtOnce := by
    decide +kernel
  obtain ⟨events, config, path, completed, _⟩ := plays.path
  have path : Path (Guarded (service (Sample.settings 2) Sample.uuid Faulty).Step fun config event =>
      NoOverlapOf "task-0" config event ∧ CompletesUnblamed "task-0" config event)
      (.idle Sample.world) events config := by
    refine System.bounded_run (fun config event above below => ?_) path
    obtain ⟨alone, unblamed⟩ := Bool.and_eq_true_iff.mp below
    exact ⟨(NoOverlapBelow.noOverlap above alone).restrict, completesUnblamed_sound unblamed⟩
  refine ⟨events, config, path, completed, ?_⟩
  apply verdict_truthful Sample.uuid_fresh Sample.world_keyed _ _ path
  · rintro id ⟨entry, ⟨⟩, _⟩
  · rintro task ⟨⟩

/-- A request, a handling that SEC does not answer in time, and the handling of the message it put back. -/
def handledAgain : List (Move Activity Service.Choice) :=
  [.start 0 (Sample.request (some 2024))] ++ List.replicate 7 (.serve 0 (.succeeds default)) ++
    [.start 1 (Sample.handling 0 0), .serve 1 (.succeeds default), .serve 1 (.succeeds default),
      .serve 1 (.succeeds { Sample.outside with submissions := fun _ => .error (.transientSec "timeout") })] ++
    List.replicate 6 (.serve 1 (.succeeds default)) ++
    [.start 2 (Sample.handling 1 0)] ++ List.replicate 17 (.serve 2 (.succeeds Sample.outside))

/-- The second attempt succeeds, and the error of the first stays in the record. -/
theorem completed_with_error : ∃ events config,
    Path (Guarded (service (Sample.settings 2) Sample.uuid Faulty).Step (NoOverlapOf "task-0")) (.idle Sample.world)
      events config ∧ ¬ ToldTruth "task-0" config.world := by
  have plays : (Service.faultyPlayer (Sample.settings 2) Sample.uuid).Plays
      (fun config event => event.id < 3 ∧ NoOverlapBelow 3 config event = true)
      (fun config => (config.world.tasks "task-0").map (fun task => (task.state, task.error)) =
        some (.completed, some "timeout")) (.idle Sample.world) handledAgain := by
    decide +kernel
  obtain ⟨events, config, path, reached, _⟩ := plays.path
  refine ⟨events, config, ?_, ?_⟩
  · exact System.bounded_run (fun _ _ above below => (NoOverlapBelow.noOverlap above below).restrict) path
  · intro told
    obtain ⟨task, present, same⟩ := Option.map_eq_some_iff.mp reached
    obtain ⟨completed, blamed⟩ := Prod.mk.inj same
    cases blamed.symm.trans ((told task present).completed completed)

end Quartr.Soundness
