import Quartr.Machine.Endings
import Quartr.Model.Sample
import Quartr.Soundness.Verdict

/-! # Tasks stay what they were asked for

However handlings overlap, fail and overwrite each other's records, a task that was accepted is known from then
on, and its record is about the report that was asked for.
-/

namespace Quartr.Soundness

open Quartr.Machine Quartr.Model
open Quartr.Machine.Coroutine (Ends ends_pure ends_call ends_seq)

/-- The task is for the report; the latest one may have been resolved to a year of the calendar. -/
structure AskedFor (identity : ReportIdentity) (includeAmended : Bool) (task : ReportTask) : Prop where
  ticker : task.identity.ticker = identity.ticker
  form : task.identity.form = identity.form
  quarter : task.identity.quarter = identity.quarter
  flag : task.includeAmended = includeAmended
  year : task.identity.year = identity.year ∨
    identity.year = latestYearSentinel ∧ 1 ≤ task.identity.year ∧ task.identity.year ≤ 9999

/-- Every request that drew the id of the task asked for its report. -/
def Asked {Control : Type} (uuid : ℕ → TaskId) (config : Config calls World Activity Control) (task : ReportTask) :
    Prop :=
  ∀ id process, uuid id = task.taskId → config.process id = some process →
    ∀ cikMapping payload identity, process.label = .request cikMapping payload →
      Routes.requestedIdentity cikMapping payload = .ok identity → AskedFor identity payload.includeAmended task

section Tasks

variable {worker : Worker} {identity : ReportIdentity} {includeAmended : Bool} {task : ReportTask}

/-- The resolution of the year keeps everything else. -/
theorem AskedFor.resolved {selection : Selection} (wanted : AskedFor identity includeAmended task)
    (selects : Selects worker task selection) :
    AskedFor identity includeAmended { task with identity := selection.identity } := by
  obtain ⟨company, payload, resolved⟩ := selects
  obtain ⟨_, record, _, _, named, _⟩ := worker.resolveFiling_ok resolved
  have bounds := record.filingDate.year_bounds
  split_ifs at named with latest
  · have sentinel : identity.year = latestYearSentinel := by
      rcases wanted.year with same | ⟨sentinel, _⟩
      · exact same.symm.trans latest
      · exact sentinel
    rw [named]
    exact ⟨wanted.ticker, wanted.form, wanted.quarter, wanted.flag, .inr ⟨sentinel, by dsimp only; omega⟩⟩
  · rw [named]
    exact wanted

/-- The task has its own id, there is a record of it, and it is for the report that was asked for. -/
structure TrueTo {Control : Type} (uuid : ℕ → TaskId) (config : Config calls World Activity Control)
    (taskId : TaskId) (task : ReportTask) : Prop where
  id : task.taskId = taskId
  stored : config.world.tasks taskId ≠ none
  asked : Asked uuid config task

theorem stable_trueTo {Control : Type} (uuid : ℕ → TaskId) (config : Config calls World Activity Control)
    (taskId : TaskId) : Stable worker (TrueTo uuid config taskId) where
  same task task' := by
    rintro ⟨named, stored, asked⟩ ids identities flags
    refine ⟨ids.trans named, stored, fun id process drawn present cikMapping payload identity label requested => ?_⟩
    have wanted := asked id process (drawn.trans ids) present cikMapping payload identity label requested
    refine ⟨?_, ?_, ?_, flags.trans wanted.flag, ?_⟩
    all_goals rw [identities]
    · exact wanted.ticker
    · exact wanted.form
    · exact wanted.quarter
    · exact wanted.year
  resolved task selection := by
    rintro ⟨named, stored, asked⟩ selects
    refine ⟨named, stored, fun id process drawn present cikMapping payload identity label requested => ?_⟩
    exact (asked id process drawn present cikMapping payload identity label requested).resolved selects

end Tasks

/-! ### The invariant -/

structure OrderInvariant (uuid : ℕ → TaskId) (view : ServiceView) : Prop where
  records : ∀ taskId task, view.world.tasks taskId = some task → TrueTo uuid view taskId task
  copies : ∀ id agent cikMapping now entry fields phase, view.process id = some agent →
    agent.label = .handling cikMapping now entry fields → agent.control = .handling phase →
      phase.Holds (TrueTo uuid view (handledId fields))
  undrawn : ∀ id, view.process id = none → view.world.tasks (uuid id) = none
  created : ∀ id agent phase, view.process id = some agent → agent.control = .request phase →
    phase ∈ [.admitting, .queueing, .measuring, .publishing] → view.world.tasks (uuid id) ≠ none
  accepted : ∀ id agent taskId, view.process id = some agent → agent.control = .request (.ended (some taskId)) →
    view.world.tasks taskId ≠ none

section Invariant

variable {settings : Settings} {uuid : ℕ → TaskId} {view view' : ServiceView} {event : ServiceEvent}
  {world world' : World}

theorem OrderInvariant.idle (unused : ∀ id, world.tasks (uuid id) = none) (keyed : world.Keyed) :
    OrderInvariant uuid (.idle world) where
  records taskId task present := by
    refine ⟨keyed taskId task present, ?_, fun id process drawn present' => Config.idle_absent present'⟩
    exact Option.ne_none_iff_exists'.mpr ⟨task, present⟩
  copies _ _ _ _ _ _ _ present := Config.idle_absent present
  undrawn id _ := unused id
  created _ _ _ present := Config.idle_absent present
  accepted _ _ _ present := Config.idle_absent present

/-- A process that takes a step under its label, or begins to draw an id that is in no record, changes nothing
that was asked. -/
theorem TrueTo.put {taskId : TaskId} {task : ReportTask} {id : ℕ} {agent : Agent}
    (true_ : TrueTo uuid view taskId task)
    (keeps : ∀ taskId, view.world.tasks taskId ≠ none → world.tasks taskId ≠ none)
    (known : (∃ before, view.process id = some before ∧ before.label = agent.label) ∨
      view.world.tasks (uuid id) = none) : TrueTo uuid (view.put id agent world) taskId task := by
  refine ⟨true_.id, keeps taskId true_.stored, fun other found drawn present => ?_⟩
  rcases Config.put_cases present with ⟨rfl, rfl⟩ | ⟨_, before⟩
  · rcases known with ⟨before, present', label⟩ | undrawn
    · rw [← label]
      exact true_.asked other before drawn present'
    · exact absurd (drawn.trans true_.id ▸ undrawn) true_.stored
  · exact true_.asked other found drawn before

/-- What the step of one process has to re-establish. -/
theorem OrderInvariant.put (invariant : OrderInvariant uuid view) {id : ℕ} {agent : Agent}
    (keeps : ∀ taskId, view.world.tasks taskId ≠ none → world.tasks taskId ≠ none)
    (known : (∃ before, view.process id = some before ∧ before.label = agent.label) ∨
      view.world.tasks (uuid id) = none)
    (records : ∀ taskId task, world.tasks taskId = some task → view.world.tasks taskId = some task ∨
      TrueTo uuid (view.put id agent world) taskId task)
    (copies : ∀ cikMapping now entry fields phase, agent.label = .handling cikMapping now entry fields →
      agent.control = .handling phase → phase.Holds (TrueTo uuid (view.put id agent world) (handledId fields)))
    (undrawn : ∀ other, other ≠ id → view.process other = none → world.tasks (uuid other) = none)
    (created : ∀ phase, agent.control = .request phase → phase ∈ [.admitting, .queueing, .measuring, .publishing] →
      world.tasks (uuid id) ≠ none)
    (accepted : ∀ taskId, agent.control = .request (.ended (some taskId)) → world.tasks taskId ≠ none) :
    OrderInvariant uuid (view.put id agent world) where
  records taskId task present := by
    rcases records taskId task present with before | own
    · exact (invariant.records taskId task before).put keeps known
    · exact own
  copies other found cikMapping now entry fields phase present label control := by
    rcases Config.put_cases present with ⟨rfl, rfl⟩ | ⟨_, before⟩
    · exact copies cikMapping now entry fields phase label control
    · exact fun task held =>
        (invariant.copies other found cikMapping now entry fields phase before label control task held).put keeps known
  undrawn other absent := by
    by_cases same : other = id
    · subst same
      rw [Config.put_self] at absent
      cases absent
    · rw [Config.put_of_ne same] at absent
      exact undrawn other same absent
  created other found phase present control early := by
    rcases Config.put_cases present with ⟨rfl, rfl⟩ | ⟨_, before⟩
    · exact created phase control early
    · exact keeps _ (invariant.created other found phase before control early)
  accepted other found taskId present control := by
    rcases Config.put_cases present with ⟨rfl, rfl⟩ | ⟨_, before⟩
    · exact accepted taskId control
    · exact keeps _ (invariant.accepted other found taskId before control)

/-- After a call a record is as it was, or it is the one that was saved. -/
theorem record_served {call : Call} {reply : calls.Reply call} (served : Faulty call view.world reply world)
    {taskId : TaskId} {task : ReportTask} (present : world.tasks taskId = some task) :
    view.world.tasks taskId = some task ∨ call = .setTask task ∧ taskId = task.taskId := by
  rcases served_world served with rfl | rfl
  · exact .inl present
  · rw [World.after_tasks] at present
    cases call with
    | setTask saved =>
      by_cases own : taskId = saved.taskId
      · simp only [own, Function.update_self, Option.some.injEq] at present
        exact .inr ⟨congrArg Call.setTask present, present ▸ own⟩
      · simp only [Function.update_of_ne own] at present
        exact .inl present
    | _ => exact .inl present

/-- What a request saves is what it asks for. -/
theorem RequestStep.askedFor {ticket : Ticket} {phase phase' : RequestPhase} {call : Call} {reply : calls.Reply call}
    (step : RequestStep ticket phase call reply phase') {task : ReportTask} (saving : call = .setTask task) :
    AskedFor ticket.identity ticket.includeAmended task := by
  have next := step.call?_eq
  subst saving
  cases phase <;> cases next <;> exact ⟨rfl, rfl, rfl, rfl, .inl rfl⟩

/-- A request goes on past its first save only with a record. -/
theorem RequestStep.recorded {ticket : Ticket} {phase phase' : RequestPhase} {call : Call} {reply : calls.Reply call}
    (step : RequestStep ticket phase call reply phase') (served : Faulty call view.world reply world)
    (early : phase' ∈ [.admitting, .queueing, .measuring, .publishing])
    (before : phase ∈ [.admitting, .queueing, .measuring, .publishing] → view.world.tasks ticket.taskId ≠ none) :
    world.tasks ticket.taskId ≠ none := by
  cases step with
  | created =>
    obtain ⟨_, rfl⟩ := served_answer served
    rw [World.after_tasks]
    simp [Ticket.record, ReportTask.fresh]
  | admitted => exact stored_served served (before (by simp))
  | queued => exact stored_served served (before (by simp))
  | measured => exact stored_served served (before (by simp))
  | _ => simp at early

theorem RequestStep.answered {ticket : Ticket} {phase : RequestPhase} {taskId : TaskId} {call : Call}
    {reply : calls.Reply call} (step : RequestStep ticket phase call reply (.ended (some taskId)))
    (served : Faulty call view.world reply world)
    (keyed : ∀ existing task, view.world.tasks existing = some task → task.taskId = existing)
    (before : phase ∈ [.admitting, .queueing, .measuring, .publishing] → view.world.tasks ticket.taskId ≠ none) :
    world.tasks taskId ≠ none := by
  cases step with
  | attached existing task =>
    obtain ⟨found, rfl⟩ := served_getTask served
    rw [keyed existing task found.symm, ← found]
    exact Option.some_ne_none task
  | published => exact stored_served served (before (by simp))

theorem OrderInvariant.step (injective : ∀ id id', uuid id = uuid id' → id = id') (invariant : OrderInvariant uuid view)
    (step : (outline settings uuid Faulty).Step view event view') : OrderInvariant uuid view' := by
  cases step with
  | @start id label world' absent begins =>
    have same : world'.tasks = view.world.tasks := by
      cases label with
      | request =>
        obtain rfl : world' = view.world := begins
        rfl
      | handling =>
        obtain ⟨_, rfl⟩ := begins
        rfl
    refine invariant.put (fun _ stored => same ▸ stored) (.inr (invariant.undrawn id absent))
      (fun _ _ present => .inl (same ▸ present)) ?_ (fun other _ absent' => same ▸ invariant.undrawn other absent') ?_ ?_
    · rintro cikMapping now entry fields phase rfl control
      cases control
      rcases HandlingPhase.initial_cases fields with initial | initial <;> rw [initial] <;> exact holds_of_none rfl
    · rintro phase control early
      cases label with
      | handling => cases control
      | request cikMapping payload =>
        cases control
        rcases RequestPhase.initial_cases (Routes.requestedIdentity cikMapping payload) with initial | initial <;>
          simp [initial] at early
    · rintro taskId control
      cases label with
      | handling => cases control
      | request cikMapping payload =>
        have same := Phase.request.inj control
        rcases RequestPhase.initial_cases (Routes.requestedIdentity cikMapping payload) with initial | initial <;>
          cases initial.symm.trans same
  | @kill id agent present alive =>
    refine invariant.put (fun _ stored => stored) (.inl ⟨agent, present, rfl⟩) (fun _ _ present => .inl present) ?_
      (fun other _ absent => invariant.undrawn other absent) ?_ ?_
    · intro cikMapping now entry fields phase label control task held
      exact (invariant.copies id agent cikMapping now entry fields phase present label control task held).put
        (fun _ stored => stored) (.inl ⟨agent, present, rfl⟩)
    · exact fun phase control early => invariant.created id agent phase present control early
    · exact fun taskId control => invariant.accepted id agent taskId present control
  | @reply id agent call reply phase' world' present alive moves served =>
    have keeps (taskId : TaskId) := @stored_served taskId _ _ _ _ served
    obtain ⟨label, control, log, killed⟩ := agent
    cases moves with
    | @request cikMapping payload identity phase phase' _ _ identified step =>
      have own (task : ReportTask) (saving : call = .setTask task) : task.taskId = uuid id :=
        (step.mine view.world).saves task saving
      refine invariant.put keeps (.inl ⟨_, present, rfl⟩) ?_ (by rintro _ _ _ _ _ ⟨⟩) ?_ ?_ ?_
      · intro taskId task found
        rcases record_served served found with before | ⟨saving, named⟩
        · exact .inl before
        refine .inr ⟨named.symm, ?_, ?_⟩
        · show world'.tasks taskId ≠ none
          rw [found]
          exact Option.some_ne_none task
        · intro other process drawn present' cikMapping' payload' identity' label requested
          obtain rfl := injective _ _ (drawn.trans (own task saving))
          obtain rfl := Option.some.inj (Config.put_self.symm.trans present')
          cases label
          obtain rfl := Except.ok.inj (identified.symm.trans requested)
          exact step.askedFor saving
      · intro other differs absent
        by_contra stored
        obtain ⟨task, found⟩ := Option.ne_none_iff_exists'.mp stored
        rcases record_served served found with before | ⟨saving, named⟩
        · rw [invariant.undrawn other absent] at before
          cases before
        · exact differs (injective _ _ (named.trans (own task saving)))
      · rintro _ ⟨⟩ early
        exact step.recorded served early fun early => invariant.created id _ phase present rfl early
      · rintro taskId ⟨⟩
        exact step.answered served (fun existing task found => (invariant.records existing task found).id)
          fun early => invariant.created id _ phase present rfl early
    | @handling cikMapping now entry fields phase phase' _ _ step =>
      have held := invariant.copies id _ cikMapping now entry fields phase present rfl rfl
      obtain ⟨copies, saves⟩ := step.keeps (stable_trueTo uuid view (handledId fields)) held (by
        rintro task ⟨⟩
        exact invariant.records _ task (served_getTask served).1.symm)
      have moved {taskId : TaskId} {task : ReportTask} (true_ : TrueTo uuid view taskId task) :
          TrueTo uuid (view.put id (Process.resume ⟨_, .handling phase, log, killed⟩ call reply (.handling phase')) world')
            taskId task := true_.put keeps (.inl ⟨_, present, rfl⟩)
      refine invariant.put keeps (.inl ⟨_, present, rfl⟩) ?_ ?_ ?_ (by rintro _ ⟨⟩) (by rintro _ ⟨⟩)
      · intro taskId task found
        rcases record_served served found with before | ⟨saving, named⟩
        · exact .inl before
        · have true_ := saves task saving
          exact .inr (moved (named.trans true_.id ▸ true_))
      · rintro _ _ _ _ _ ⟨⟩ ⟨⟩
        exact fun task held => moved (copies task held)
      · intro other differs absent
        by_contra stored
        obtain ⟨task, found⟩ := Option.ne_none_iff_exists'.mp stored
        rcases record_served served found with before | ⟨saving, named⟩
        · rw [invariant.undrawn other absent] at before
          cases before
        · have true_ := saves task saving
          exact true_.stored ((named.trans true_.id) ▸ invariant.undrawn other absent)

end Invariant

/-- `GET /tasks/{task_id}` answers with the record of the task. -/
theorem task_answered {world : World} {taskId : TaskId} {task : ReportTask} (present : world.tasks taskId = some task)
    {result : Except Err ReportTaskResponse} {world' : World}
    (ends : Ends Reliable (Routes.getTask taskId) () world result () world') :
    ∃ report, result = .ok report ∧ report.taskId = task.taskId ∧
      report.logicalPath = task.identity.logicalPath ∧ report.state = task.state.value := by
  have read {reply : calls.Reply (.getTask taskId)} {world' : World} (served : Reliable _ world reply world') :
      reply = .ok (some task) := by
    obtain ⟨⟨_, answered⟩, _⟩ := served
    rw [answered]
    exact congrArg Except.ok present
  rcases ends_seq.mp ends with ⟨found, _, _, asked, answered⟩ | ⟨error, asked, _⟩
  · obtain ⟨reply, served, same, _⟩ := ends_call.mp asked
    rw [read served] at same
    cases same
    exact ⟨_, (ends_pure.mp answered).1, rfl, rfl, rfl⟩
  · obtain ⟨reply, served, same, _⟩ := ends_call.mp asked
    rw [read served] at same
    cases same

/-- A task that some request was answered 202 with is known, by its own id, and is for the report that the request
which drew the id asked for. -/
theorem accepted_tracked {settings : Settings} {uuid : ℕ → TaskId} {world : World} {events : List ServiceEvent}
    {config : ServiceConfig} (fresh : FreshIds uuid world) (keyed : world.Keyed)
    (run : Path (service settings uuid Faulty).Step (.idle world) events config) {id : ℕ} {process : ServiceProcess}
    {taskId : TaskId} (present : config.process id = some process) (accepted : Accepted process taskId) :
    ∃ task, config.world.tasks taskId = some task ∧ Asked uuid config task ∧
      ∀ result world', Ends Reliable (Routes.getTask taskId) () config.world result () world' →
        ∃ report, result = .ok report ∧ report.taskId = taskId ∧ report.logicalPath = task.identity.logicalPath ∧
          report.state = task.state.value := by
  obtain ⟨view, views, invariant⟩ := service_refines.invariant
    (fun _ _ _ _ _ _ step invariant => OrderInvariant.step fresh.injective invariant step)
    (run.mono fun _ _ _ step => (⟨trivial, step⟩ : Guarded _ (fun _ _ => True) _ _ _))
    (OrderInvariant.idle fresh.unused keyed)
  obtain ⟨agent, seen, follows⟩ := Refinement.seen views present
  have stored := invariant.accepted id agent taskId seen ((accepted_iff follows taskId).mp accepted)
  obtain ⟨task, found⟩ := Option.ne_none_iff_exists'.mp stored
  obtain ⟨named, _, asked⟩ := invariant.records taskId task found
  rw [views.world]
  refine ⟨task, found, ?_, fun result world' ends => named ▸ task_answered found ends⟩
  intro other process' drawn present' cikMapping payload identity label requested
  obtain ⟨agent', seen', follows'⟩ := Refinement.seen views present'
  exact asked other agent' drawn seen' cikMapping payload identity (follows'.1 ▸ label) requested

/-- A request for the latest report whose entry is handled. -/
theorem accepted_tracked_latest : ∃ events config process task,
    (Path (service (Sample.settings 2) Sample.uuid Faulty).Step (.idle Sample.world) events config ∧
      config.process 0 = some process ∧ Accepted process "task-0") ∧
    config.world.tasks "task-0" = some task ∧ Asked Sample.uuid config task ∧
    ∀ result world', Ends Reliable (Routes.getTask "task-0") () config.world result () world' →
      ∃ report, result = .ok report ∧ report.taskId = "task-0" ∧ report.logicalPath = task.identity.logicalPath ∧
        report.state = task.state.value := by
  have plays : (Service.faultyPlayer (Sample.settings 2) Sample.uuid).Plays (fun _ _ => True)
      (fun config => (config.process 0).bind (fun process => process.result?.bind Outcome.acceptedId?) = some "task-0")
      (.idle Sample.world)
      ([.start 0 (Sample.request none)] ++ List.replicate 7 (.serve 0 (.succeeds default)) ++
        [.start 1 (Sample.handling 0 0)] ++ List.replicate 12 (.serve 1 (.succeeds Sample.outside))) := by
    decide +kernel
  obtain ⟨events, config, path, accepted, _⟩ := plays.path
  obtain ⟨process, present, accepted⟩ := Option.bind_eq_some_iff.mp accepted
  have run : Path (service (Sample.settings 2) Sample.uuid Faulty).Step (.idle Sample.world) events config :=
    path.mono fun _ _ _ step => step.2
  obtain ⟨task, tracked⟩ := accepted_tracked Sample.uuid_fresh Sample.world_keyed run present accepted
  exact ⟨events, config, process, task, ⟨run, present, accepted⟩, tracked⟩

end Quartr.Soundness
