import Quartr.Machine.Agreement
import Quartr.Model.Reaction
import Quartr.Model.Sample
import Quartr.Soundness.Custody

/-! # Requests and workers never meet in an illegal state

While Redis does not fail, nobody is killed and an entry is handed out again only after its previous
handling has ended, every message finds its task QUEUED and no transition is forbidden. The second
says that every run is a run of the service whatever its reaction to a forbidden transition: no run
comes to one.
-/

namespace Quartr.Soundness

open Quartr.Machine Quartr.Model
open Quartr.Machine.Coroutine (agrees_bind agrees_tryCatch agrees_own agrees_get agrees_lift agrees_modify
  agrees_pure agrees_refl agrees_of_follows)

/-- The replies a handling gets in such a run: its task is QUEUED and Redis does not fail. -/
def Expects : (call : Call) → calls.Reply call → Prop
  | .getTask _, .ok (some task) => task.state = .queued
  | .getTask _, _ => False
  | call, reply => call.Redis → ∃ answer, reply = .ok answer

/-! ### Code with any reaction agrees -/

section Agreement

variable {reaction : Reaction} {worker : Worker} {task : ReportTask} {target : ReportState}
  {updates : ReportTask → ReportTask} {σ : Type} {object : σ}

theorem checkReacting_legal {current : ReportState} (legal : canTransition current target = true) :
    Repository.checkReacting reaction current target = Coroutine.lift (assertTransition current target) := by
  simp only [Repository.checkReacting, assertTransition, legal, ↓reduceIte]
  rfl

/-- A transition that the table allows does not depend on the reaction. -/
theorem transitionReacting_legal (legal : canTransition task.state target = true) :
    Repository.transitionReacting reaction target updates task = Repository.transition target updates task := by
  show (Repository.checkReacting reaction task.state target >>= _) task = _
  rw [checkReacting_legal legal]
  rfl

/-- A Redis command that does not read a task is answered. -/
theorem agrees_answered {c : Call} (redis : c.Redis) (reads : ∀ taskId, c ≠ .getTask taskId) :
    Coroutine.Agrees Expects (call c) (call c) object fun result object' =>
      (∃ answer, result = .ok answer) ∧ object' = object := by
  apply Coroutine.agrees_await
  intro reply expected
  refine ⟨?_, rfl⟩
  have answered : ∃ answer, reply = .ok answer := by
    cases c with
    | getTask taskId => exact absurd rfl (reads taskId)
    | _ => exact expected redis
  obtain ⟨answer, rfl⟩ := answered
  exact ⟨answer, rfl⟩

theorem agrees_save : Coroutine.Agrees Expects Repository.save Repository.save task fun result object =>
    (∃ answer, result = .ok answer) ∧ object = task :=
  agrees_get (@agrees_answered _ task (.setTask task) trivial nofun)

theorem agrees_clearPending (logicalPath : String) (includeAmended : Bool) :
    Coroutine.Agrees Expects (Repository.clearPending logicalPath includeAmended)
      (Repository.clearPending logicalPath includeAmended) object fun result object' =>
        (∃ answer, result = .ok answer) ∧ object' = object :=
  @agrees_answered _ object (.deletePending (pendingTaskKey logicalPath includeAmended)) trivial nofun

/-- A legal transition goes through. -/
theorem agrees_transition (legal : canTransition task.state target = true) :
    Coroutine.Agrees Expects (Repository.transition target updates)
      (Repository.transitionReacting reaction target updates) task fun result object =>
        result = .ok () ∧ object = updates { task with state := target } := by
  have alike : Coroutine.Agrees Expects (Repository.transition target updates)
      (Repository.transition target updates) task fun result object =>
        result = .ok () ∧ object = updates { task with state := target } := by
    apply agrees_get
    simp only [assertTransition, legal, ↓reduceIte]
    apply agrees_lift
    apply agrees_modify
    apply agrees_bind agrees_save
    · rintro value object ⟨_, rfl⟩
      by_cases terminal : target.Terminal
      · simp only [terminal, ↓reduceIte]
        apply agrees_get
        apply agrees_get
        apply (agrees_clearPending _ _).mono
        rintro result object ⟨⟨answer, rfl⟩, rfl⟩
        exact ⟨rfl, rfl⟩
      · simp only [terminal, ↓reduceIte]
        exact agrees_pure ⟨rfl, rfl⟩
    · rintro error object ⟨⟨answer, same⟩, _⟩
      cases same
  unfold Coroutine.Agrees at alike ⊢
  rw [transitionReacting_legal legal]
  exact alike

variable {exc : Err}

theorem agrees_failPermanently (processing : task.state = .processing) :
    Coroutine.Agrees Expects (Worker.failPermanently exc) (Worker.failPermanentlyReacting reaction exc) task
      fun _ _ => True := by
  apply (agrees_transition _).mono fun _ _ _ => trivial
  rw [processing]
  rfl

theorem agrees_failTransiently (processing : task.state = .processing) :
    Coroutine.Agrees Expects (worker.failTransiently exc) (worker.failTransientlyReacting reaction exc) task
      fun _ _ => True := by
  apply agrees_modify
  apply agrees_get
  by_cases spent : worker.settings.retryMaxAttempts ≤ task.attempts + 1
  · simp only [spent, ↓reduceIte]
    apply (agrees_transition _).mono fun _ _ _ => trivial
    exact processing ▸ rfl
  · simp only [spent, ↓reduceIte]
    apply agrees_bind (agrees_transition (processing ▸ rfl))
    · rintro _ object ⟨_, rfl⟩
      apply agrees_bind (agrees_transition rfl)
      · intro _ object _
        exact agrees_refl _ object
      · exact fun _ _ _ => trivial
    · exact fun _ _ _ => trivial

/-- The `try` block raises only while the object is PROCESSING. -/
theorem agrees_attempt (processing : task.state = .processing) (originalLogicalPath : String) :
    Coroutine.Agrees Expects (worker.attempt originalLogicalPath)
      (worker.attemptReacting reaction originalLogicalPath) task fun result object =>
        ∀ error, result = .error error → object.state = .processing := by
  have produced : Coroutine.Agrees Expects worker.producePdf worker.producePdf task
      fun _ object => object = task :=
    agrees_of_follows (@producePdf_follows worker task) fun _ _ _ holds => holds.1
  apply agrees_bind produced
  · rintro selection object rfl
    apply agrees_modify
    apply agrees_bind (agrees_transition (processing ▸ rfl))
    · intro _ object _
      apply agrees_tryCatch (agrees_refl _ object)
      · intro error object _
        exact agrees_pure nofun
      · exact fun _ _ _ => nofun
    · rintro error object ⟨same, _⟩
      cases same
  · rintro error object rfl _ _
    exact processing

/-- Nothing is raised on the way to PROCESSING, so no handler is asked. -/
theorem agrees_enter {handler handler' : Err → Coroutine calls Err ReportTask Unit}
    (queued : task.state = .queued) :
    Coroutine.Agrees Expects (tryCatch (Repository.transition .processing id) handler)
      (tryCatch (Repository.transitionReacting reaction .processing id) handler') task
      fun _ object => object.state = .processing := by
  apply agrees_tryCatch (agrees_transition (queued ▸ rfl))
  · rintro error object ⟨same, _⟩
    cases same
  · rintro value object ⟨_, rfl⟩
    rfl

theorem agrees_processTask (queued : task.state = .queued) :
    Coroutine.Agrees Expects worker.processTask (worker.processTaskReacting reaction) task
      fun _ _ => True := by
  apply agrees_get
  apply agrees_bind (agrees_enter queued)
  · intro _ object processing
    apply agrees_tryCatch (agrees_attempt processing _)
    · intro error object raised
      have processing := raised error rfl
      rcases error with (_ | _ | _ | _ | _) | _ | _ | _ | _ | _ | _ | _ <;>
        first | exact agrees_failPermanently processing | exact agrees_failTransiently processing
    · exact fun _ _ _ => trivial
  · exact fun _ _ _ => trivial

theorem agrees_handleTask (queued : task.state = .queued) (taskId : TaskId) (entry : ℕ) :
    Coroutine.Agrees Expects (worker.handleTask taskId entry)
      (worker.handleTaskReacting reaction taskId entry) task fun _ _ => True := by
  apply agrees_bind
  · apply agrees_tryCatch
    · apply agrees_bind (agrees_processTask queued)
      · intro _ object _
        exact agrees_refl _ object
      · exact fun _ _ _ => trivial
    · intro error object _
      exact agrees_refl _ object
    · exact fun _ _ _ => trivial
  · intro handled object _
    exact agrees_refl _ object
  · exact fun _ _ _ => trivial

theorem agrees_handleMessage (entry : ℕ) (fields : List (String × String)) :
    Coroutine.Agrees Expects (worker.handleMessage entry fields)
      (worker.handleMessageReacting reaction entry fields) () fun _ _ => True := by
  unfold Worker.handleMessage Worker.handleMessageReacting
  cases fieldsTaskId fields with
  | none => exact agrees_refl _ ()
  | some taskId =>
    by_cases empty : taskId = ""
    · simp only [empty, ↓reduceIte]
      exact agrees_refl _ ()
    simp only [empty, ↓reduceIte]
    have read : Coroutine.Agrees Expects (Repository.getTask taskId) (Repository.getTask taskId) ()
        fun result _ => ∀ task, result = .ok (some task) → task.state = .queued := by
      apply Coroutine.agrees_await
      intro reply expected task same
      cases reply with
      | error error => cases same
      | ok found =>
        cases same
        exact expected
    apply agrees_bind read
    · intro found object queued
      cases found with
      | none => exact agrees_refl _ object
      | some task =>
        have handled : Coroutine.Agrees Expects (Coroutine.own task (worker.handleTask taskId entry))
            (Coroutine.own task (worker.handleTaskReacting reaction taskId entry)) object
            fun _ _ => True :=
          agrees_own (agrees_handleTask (queued task rfl) taskId entry) fun _ _ _ => trivial
        apply agrees_bind handled
        · intro _ object _
          exact agrees_refl _ object
        · exact fun _ _ _ => trivial
    · exact fun _ _ _ => trivial

theorem agrees_admitTask {settings : Settings} {identity : ReportIdentity} {includeAmended : Bool}
    {response : HttpResponse} (accepted : task.state = .accepted) :
    Coroutine.Agrees (fun _ _ => True) (Routes.admitTask settings identity includeAmended task)
      (Routes.admitTaskReacting reaction settings identity includeAmended task) response
      fun _ _ => True := by
  have same : Repository.transitionReacting reaction .queued id task = Repository.transition .queued id task :=
    transitionReacting_legal (accepted ▸ rfl)
  have queued : Coroutine.Agrees (fun _ _ => True) (Repository.transition .queued id)
      (Repository.transitionReacting reaction .queued id) task fun _ _ => True := by
    unfold Coroutine.Agrees
    rw [same]
    exact Program.Agrees.refl _
  have owned (response : HttpResponse) : Coroutine.Agrees (fun _ _ => True)
      (Coroutine.own task (Repository.transition .queued id))
      (Coroutine.own task (Repository.transitionReacting reaction .queued id)) response fun _ _ => True :=
    agrees_own queued fun _ _ _ => trivial
  apply agrees_bind (agrees_refl _ response)
  · intro free object _
    cases free with
    | false => exact agrees_refl _ object
    | true =>
      apply agrees_bind (owned object)
      · intro _ object _
        exact agrees_refl _ object
      · exact fun _ _ _ => trivial
  · exact fun _ _ _ => trivial

/-- The request that admits the task it created finds it ACCEPTED. -/
theorem agrees_createReport {settings : Settings} {cikMapping : CikMapping} {taskId : TaskId}
    {payload : CreateReportRequest} {response : HttpResponse} :
    Coroutine.Agrees (fun _ _ => True) (Routes.createReport settings cikMapping taskId payload)
      (Routes.createReportReacting reaction settings cikMapping taskId payload) response
      fun _ _ => True := by
  apply agrees_bind (agrees_refl _ response)
  · intro identity object _
    apply agrees_bind (agrees_refl _ object)
    · intro cached object _
      cases cached with
      | some artifact => exact agrees_refl _ object
      | none =>
        have created : Coroutine.Agrees (fun _ _ => True)
            (Repository.getOrCreateTask taskId identity payload.includeAmended)
            (Repository.getOrCreateTask taskId identity payload.includeAmended) object
            fun result _ => ∀ task, result = .ok (task, true) → task.state = .accepted := by
          apply agrees_of_follows (@getOrCreateTask_follows ⟨settings, identity, payload.includeAmended, taskId⟩
            _ object (fun _ _ _ _ => True)
            (fun result _ _ => ∀ task, result = .ok (task, true) → task.state = .accepted)
            (fun _ _ => trivial) ?_ ?_ ?_)
          · exact fun _ _ _ holds => holds
          · rintro task ⟨⟩
            rfl
          · rintro task _ ⟨⟩
          · rintro error _ ⟨⟩
        apply agrees_bind created
        · rintro ⟨task, fresh⟩ object accepted
          cases fresh with
          | false => exact agrees_refl _ object
          | true =>
            apply agrees_bind (agrees_admitTask (accepted task rfl))
            · intro _ object _
              exact agrees_refl _ object
            · exact fun _ _ _ => trivial
        · exact fun _ _ _ => trivial
    · exact fun _ _ _ => trivial
  · exact fun _ _ _ => trivial

/-- What an activity expects: a request takes any reply. -/
def ExpectedBy : Activity → (call : Call) → calls.Reply call → Prop
  | .request _ _ => fun _ _ => True
  | .handling _ _ _ _ => Expects

theorem agrees_body {settings : Settings} {uuid : ℕ → TaskId} (id : ℕ) (label : Activity) :
    (Service.body settings uuid id label).Agrees (ExpectedBy label) (fun _ => True)
      (Service.bodyReacting reaction settings uuid id label) := by
  cases label with
  | request => exact Program.Agrees.bind agrees_createReport fun _ _ => .done _ trivial
  | handling => exact Program.Agrees.bind (agrees_handleMessage _ _) fun _ _ => .done _ trivial

end Agreement

/-! ### Every run meets the expectations -/

section Runs

variable {settings : Settings} {uuid : ℕ → TaskId} {begun : TaskId → ℕ} {config config' : ServiceConfig}
  {view : ServiceView} {event : ServiceEvent}

theorem HandlingCourse.expects {worker : Worker} {entry limit begun : ℕ} {taskId : TaskId}
    {world world' : World} {phase phase' : HandlingPhase} {call : Call} {reply : calls.Reply call}
    (course : HandlingCourse limit begun taskId world phase)
    (step : HandlingStep worker entry taskId phase call reply phase')
    (served : Steady call world reply world') : Expects call reply := by
  cases call with
  | getTask taskId' =>
    cases step with
    | missed =>
      obtain ⟨task, recorded, _⟩ := course
      cases recorded.stored.symm.trans (Except.ok.inj (steady_getTask served).1).symm
    | load task =>
      obtain ⟨task', recorded, queued, _⟩ := course
      cases recorded.stored.symm.trans (Except.ok.inj (steady_getTask served).1).symm
      exact queued
    | unread => cases (steady_getTask served).1
    | pipeline _ _ _ _ outside => exact outside.elim
    | reread _ object read interrupted =>
      cases interrupted with
      | broken saved =>
        obtain rfl : read = some saved :=
          (Except.ok.inj (steady_getTask served).1).trans course.1.stored
        exact course.2.1
      | running task object stored spent attempted irregular => exact absurd course.2.1 irregular
    | unrecovered => cases (steady_getTask served).1
  | _ => exact fun redis => (steady_redis served redis).1

/-- Every reply is one its activity expects. -/
def AsExpected (config : ServiceConfig) : ServiceEvent → Prop
  | .reply id call reply => ∀ process, config.process id = some process →
      ExpectedBy process.label call reply
  | _ => True

theorem DeliveryInvariant.expected (invariant : DeliveryInvariant settings uuid begun view)
    (views : Views settings uuid Steady config view)
    (step : (service settings uuid Steady).Step config event config') : AsExpected config event := by
  obtain ⟨view', step', _⟩ := service_refines.simulate views step
  cases step' with
  | start => trivial
  | kill => trivial
  | @reply id agent call reply phase' world present alive moves served =>
    intro process found
    obtain ⟨agent', seen, follows⟩ := Refinement.seen views found
    cases present.symm.trans seen
    obtain ⟨taskId, acts, _⟩ := invariant.labels id agent present
    have acting := (invariant.courses taskId).agents id agent present acts
    rw [follows.1]
    obtain ⟨label, control, log, killed⟩ := agent
    cases moves with
    | request => trivial
    | @handling cikMapping now index fields phase phase' _ _ step =>
      obtain ⟨_, ⟨⟩, _, _, course⟩ := acting
      have named : fieldsTaskId fields = some taskId := acts
      have identified : handledId fields = taskId := by
        simp only [handledId, named, Option.getD_some]
      rw [identified] at step
      exact course.expects step served

/-- A handling finds its task QUEUED: until it has read it the record is QUEUED, and the first thing
it reads is a QUEUED record. -/
def FindsQueued (world : World) (process : ServiceProcess) : Prop :=
  ∀ cikMapping now entry fields, process.label = .handling cikMapping now entry fields →
    ∃ taskId, fieldsTaskId fields = some taskId ∧
      (process.log = [] → ∃ task, world.tasks taskId = some task ∧ task.state = .queued) ∧
      ∀ answered, process.log.getLast? = some answered →
        ∃ task : ReportTask, answered = ⟨.getTask taskId, .ok (some task)⟩ ∧ task.state = .queued

theorem DeliveryInvariant.findsQueued (invariant : DeliveryInvariant settings uuid begun view)
    (views : Views settings uuid Steady config view) {id : ℕ} {process : ServiceProcess}
    (present : config.process id = some process) : FindsQueued config.world process := by
  intro cikMapping now entry fields label
  obtain ⟨agent, found, follows⟩ := Refinement.seen views present
  obtain ⟨taskId, acts, _⟩ := invariant.labels id agent found
  have acting := (invariant.courses taskId).agents id agent found acts
  have label' := follows.1
  rw [follows.2.1, views.world]
  obtain ⟨agent_label, control, log, killed⟩ := agent
  dsimp only at label' acts
  obtain rfl : agent_label = .handling cikMapping now entry fields := label'.symm.trans label
  obtain ⟨phase, ⟨⟩, _, opening, course⟩ := acting
  refine ⟨taskId, acts, ?_, ?_⟩
  · intro silent
    rcases opening with ⟨_, rfl⟩ | ⟨task, first, _⟩
    · obtain ⟨task, recorded, queued, _⟩ := course
      exact ⟨task, recorded.stored, queued⟩
    · rw [silent] at first
      cases first
  · intro answered last
    rcases opening with ⟨silent, _⟩ | ⟨task, first, queued⟩
    · rw [silent] at last
      cases last
    · exact ⟨task, Option.some.inj (last.symm.trans first), queued⟩

end Runs

/-- Every message finds its task QUEUED, and no transition is forbidden: every run is a run of the
service with any other reaction to a forbidden transition. -/
theorem transitions_lawful {settings : Settings} {uuid : ℕ → TaskId} {world : World}
    {events : List ServiceEvent} {config : ServiceConfig} (fresh : FreshIds uuid world)
    (unpointed : ∀ id key, world.pending key ≠ some (uuid id)) (empty : world.stream = [])
    (run : Path (Guarded (service settings uuid Steady).Step Supervised) (.idle world) events config) :
    (∀ id process, config.process id = some process → FindsQueued config.world process) ∧
    ∀ reaction, ∃ config', Path (serviceReacting reaction settings uuid Steady).Step (.idle world) events
      config' ∧ config'.world = config.world ∧
        ∀ id, (config'.process id).map Process.observed = (config.process id).map Process.observed := by
  constructor
  · obtain ⟨view, views, invariant⟩ := delivery_courses fresh unpointed empty run
    exact fun id process present => invariant.findsQueued views present
  · intro reaction
    have expected : Path (Guarded (service settings uuid Steady).Step AsExpected) (.idle world) events
        config := by
      apply run.strengthen
      · exact fun _ _ _ step order => InCustody.step order fresh step.1 step.2
      · exact InCustody.idle fresh unpointed empty
      · rintro config event config' ⟨_, step⟩ ⟨begun, view, views, invariant⟩
        exact invariant.expected views step
    obtain ⟨config', path, alike⟩ := System.agreeing_run (fun id label => @agrees_body reaction settings
      uuid id label) (fun config event holds id call reply process same present => by
        subst same
        exact holds process present) expected
    exact ⟨config', path, alike.world, alike.observed⟩

/-- The condition on the processes below a bound. -/
def supervisedBelow (bound : ℕ) (config : ServiceConfig) : ServiceEvent → Bool
  | .start _ label => (List.range bound).all fun id =>
      match config.process id with
      | none => true
      | some process => !decide process.Active || label.entry?.isNone ||
          process.label.entry? != label.entry?
  | .reply _ _ _ => true
  | .kill _ => false

theorem supervisedBelow_sound {bound : ℕ} {config : ServiceConfig} {event : ServiceEvent}
    (above : ∀ id, bound ≤ id → config.process id = none)
    (below : supervisedBelow bound config event = true) : Supervised config event := by
  cases event with
  | reply => trivial
  | kill => cases below
  | start _ label =>
    intro entry hands id process present same active
    have inside : id < bound := by
      by_contra beyond
      cases (above id (by omega)).symm.trans present
    have checked := List.all_eq_true.mp below id (List.mem_range.mpr inside)
    simp only [present, hands, same, active, decide_true, Bool.not_true, Option.isNone_some, Bool.or_self,
      bne_self_eq_false, Bool.false_eq_true] at checked

/-- SEC answers the first handling with an error; before that handling has acknowledged its entry a
second worker takes the entry of the retry and goes through. -/
def overtaken : List (Move Activity Outside) :=
  [.start 0 (Sample.request (some 2024))] ++ List.replicate 7 (.serve 0 default) ++
    [.start 1 (Sample.handling 0 0)] ++ List.replicate 7 (.serve 1 default) ++
    [.start 2 (Sample.handling 1 0)] ++ List.replicate 17 (.serve 2 Sample.outside) ++
    List.replicate 2 (.serve 1 default) ++ List.replicate 4 (.serve 2 Sample.outside)

theorem transitions_lawful_overtaken : ∃ events config,
    Path (Guarded (service (Sample.settings 2) Sample.uuid Steady).Step Supervised) (.idle Sample.world)
      events config ∧
    (config.world.tasks "task-0").map ReportTask.state = some .completed ∧
    (∀ id process, config.process id = some process → FindsQueued config.world process) ∧
    ∀ reaction, ∃ config', Path (serviceReacting reaction (Sample.settings 2) Sample.uuid Steady).Step
      (.idle Sample.world) events config' ∧ config'.world = config.world ∧
        ∀ id, (config'.process id).map Process.observed = (config.process id).map Process.observed := by
  have plays : (Service.steadyPlayer (Sample.settings 2) Sample.uuid).Plays
      (fun config event => event.id < 3 ∧ supervisedBelow 3 config event = true)
      (fun config => (config.world.tasks "task-0").map ReportTask.state = some .completed)
      (.idle Sample.world) overtaken := by
    decide +kernel
  obtain ⟨events, config, path, completed, _⟩ := plays.path
  have run := System.bounded_run (fun _ _ above below => supervisedBelow_sound above below) path
  exact ⟨events, config, run, completed, transitions_lawful Sample.uuid_fresh nofun rfl run⟩

end Quartr.Soundness
