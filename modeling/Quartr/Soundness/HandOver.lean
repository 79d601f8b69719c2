import Quartr.Model.Sample
import Quartr.Soundness.Completion
import Quartr.Soundness.Pointers

/-! # From in flight to published

While a task is in flight its pointer stands, and once it is published the artifact key is set. In
between the completing handling deletes the pointer before it publishes, so the report is covered
throughout exactly as long as no handling does that before an earlier one has published. Pointers do not
expire in this model of the service.
-/

namespace Quartr.Soundness

open Quartr.Machine Quartr.Model
open Quartr.Machine.Coroutine (Runs)

/-- The request that registers the task of an explicit year. -/
structure Registration (uuid : ℕ → TaskId) where
  creator : ℕ
  cikMapping : CikMapping
  payload : CreateReportRequest
  identity : ReportIdentity
  identified : Routes.requestedIdentity cikMapping payload = .ok identity
  explicit : identity.year ≠ latestYearSentinel

namespace Registration

variable {uuid : ℕ → TaskId} (registration : Registration uuid)

def taskId : TaskId := uuid registration.creator

def key : String :=
  pendingTaskKey registration.identity.logicalPath registration.payload.includeAmended

def artifactKey : String :=
  logicalKey registration.identity.logicalPath registration.payload.includeAmended

/-- The SET NX that registers the task. -/
def set : Σ call, calls.Reply call :=
  ⟨.setPendingNx registration.key registration.taskId, .ok true⟩

/-- The SET NX has been answered. -/
def Registered (config : ServiceConfig) : Prop :=
  ∃ process ∈ config.process registration.creator, registration.set ∈ process.log

/-- The pointer holds the task, or an artifact is published. -/
def Covered (world : World) : Prop :=
  world.pending registration.key = some registration.taskId ∨
    world.logical registration.artifactKey ≠ none

/-- No other task is registered or stored for the path and the flag. -/
def Sole : ServiceEvent → Prop
  | .start id label => id = registration.creator →
      label = .request registration.cikMapping registration.payload
  | .reply id (.setPendingNx key _) (.ok true) => key = registration.key → id = registration.creator
  | .reply id (.setPending key _) _ => key = registration.key → id = registration.creator
  | .reply _ (.setTask saved) _ => saved.pendingKey = registration.key →
      saved.taskId = registration.taskId
  | _ => True

/-- The task is not saved as FAILED. -/
def Unfailed : ServiceEvent → Prop
  | .reply _ (.setTask saved) _ => saved.taskId = registration.taskId → saved.state ≠ .failed
  | _ => True

end Registration

/-- The process has just saved a task as COMPLETED. -/
def justCompleted : List (Σ call, calls.Reply call) → Bool
  | ⟨.setTask saved, .ok _⟩ :: _ => saved.state = .completed
  | _ => false

/-- The creator is not refused, and a handling that has saved COMPLETED deletes the pointer only
when an artifact is published already. -/
def Registration.HandsOver {uuid : ℕ → TaskId} (registration : Registration uuid) (settings : Settings)
    (config : ServiceConfig) : ServiceEvent → Prop
  | .reply id .xlen reply => id = registration.creator →
      ∀ depth, depthOf reply = .ok depth → depth < settings.maxQueueDepth
  | .reply id (.deletePending key) _ => key = registration.key →
      (∃ process ∈ config.process id, justCompleted process.log = true) →
        config.world.logical registration.artifactKey ≠ none
  | _ => True

/-- The request has a task of its own that it has not been answered for. -/
def OwnsTask : RequestPhase → Prop
  | .creating => True
  | .admitting => True
  | .rejecting => True
  | .queueing => True
  | .measuring => True
  | .publishing => True
  | _ => False

/-- A handling of another task is nowhere near the pointer. -/
def Foreign (key : String) : HandlingPhase → Prop
  | .loaded task => task.pendingKey ≠ key
  | .running task _ => task.pendingKey ≠ key
  | .completed original saved =>
    saved.pendingKey ≠ key ∧ pendingTaskKey original.logicalPath saved.includeAmended ≠ key
  | .released original saved => pendingTaskKey original.logicalPath saved.includeAmended ≠ key
  | .published original saved => pendingTaskKey original.logicalPath saved.includeAmended ≠ key
  | .failed saved => saved.pendingKey ≠ key
  | .buried saved => saved.pendingKey ≠ key
  | _ => True

namespace Registration

variable {uuid : ℕ → TaskId} (registration : Registration uuid)

/-- The task carries the registered identity and flag. -/
def Carries (task : ReportTask) : Prop :=
  task.identity = registration.identity ∧ task.includeAmended = registration.payload.includeAmended

/-- A handling of the task itself deletes the pointer only after saving COMPLETED. -/
def Own (log : List (Σ call, calls.Reply call)) (phase : HandlingPhase) : Prop :=
  phase.Holds registration.Carries ∧
    match phase with
    | .completed original _ => original = registration.identity ∧ justCompleted log = true
    | .released original _ => original = registration.identity
    | .published _ _ => False
    | .failed _ => False
    | .buried _ => False
    | _ => True

/-- What is known of one process. -/
def AgentState (id : ℕ) (agent : Agent) : Prop :=
  match agent.label with
  | .request cikMapping payload => ∃ phase, agent.control = .request phase ∧
      (id = registration.creator → (cikMapping = registration.cikMapping ∧ payload = registration.payload) ∧
        phase ≠ .rejecting ∧
        (registration.set ∈ agent.log → OwnsTask phase ∨ ∃ answer, phase = .ended answer)) ∧
      (id ≠ registration.creator → ∀ identity,
        Routes.requestedIdentity cikMapping payload = .ok identity →
        pendingTaskKey identity.logicalPath payload.includeAmended = registration.key →
          ¬ OwnsTask phase)
  | .handling _ _ _ fields => id ≠ registration.creator ∧ ∃ phase, agent.control = .handling phase ∧
      phase.Holds (fun task => task.taskId = handledId fields) ∧
      (handledId fields = registration.taskId → registration.Own agent.log phase) ∧
      (handledId fields ≠ registration.taskId → Foreign registration.key phase)

structure Invariant (view : ServiceView) : Prop where
  keyed : view.world.Keyed
  sole : ∀ taskId task, view.world.tasks taskId = some task → task.pendingKey = registration.key →
    taskId = registration.taskId
  own : ∀ task, view.world.tasks registration.taskId = some task → registration.Carries task
  agents : ∀ id agent, view.process id = some agent → registration.AgentState id agent
  covered : ∀ agent, view.process registration.creator = some agent →
    registration.set ∈ agent.log → registration.Covered view.world

end Registration

section Steps

variable {worker : Worker} {entry : ℕ} {taskId : TaskId} {phase phase' : HandlingPhase} {call : Call}
  {reply : calls.Reply call} {uuid : ℕ → TaskId} {registration : Registration uuid} {log : List (Σ call, calls.Reply call)}

theorem orBroken_foreign {key : String} (reply : calls.Reply call) {saved : ReportTask}
    (foreign : Foreign key phase) : Foreign key (orBroken reply saved phase) := by
  cases reply with
  | error error => trivial
  | ok answer => exact foreign

theorem orStopped_foreign {key : String} (reply : calls.Reply call) (foreign : Foreign key phase) :
    Foreign key (orStopped reply phase) := by
  cases reply with
  | error error => trivial
  | ok answer => exact foreign

/-- A handling of another task stays away from the pointer if what it reads and saves does. -/
theorem HandlingStep.foreign {key : String}
    (step : HandlingStep worker entry taskId phase call reply phase') (foreign : Foreign key phase)
    (saves : ∀ saved, call = .setTask saved → saved.pendingKey ≠ key)
    (read : ∀ task, (⟨call, reply⟩ : Σ call, calls.Reply call) = ⟨.getTask taskId, .ok (some task)⟩ →
      task.pendingKey ≠ key) : Foreign key phase' := by
  cases step with
  | load task =>
    unfold HandlingPhase.entering
    split_ifs
    · exact read task rfl
    · exact read task rfl
  | start task saved reply => exact orBroken_foreign reply (saves saved rfl)
  | pipeline => exact foreign
  | complete task saved stored selection reply legal selects present result =>
    refine orBroken_foreign reply ⟨saves saved rfl, ?_⟩
    subst result
    exact foreign
  | release original saved reply => exact orBroken_foreign reply foreign.2
  | publish original saved filing path filed stored reply =>
    cases reply with
    | error error => trivial
    | ok answer =>
      unfold HandlingPhase.bookkept
      split_ifs
      · exact foreign
      · trivial
  | fail task object saved stored message spent reply => exact orBroken_foreign reply (saves saved rfl)
  | clear saved reply => exact orBroken_foreign reply trivial
  | retry task object saved stored message reply => exact orBroken_foreign reply trivial
  | requeue saved reply => exact orBroken_foreign reply trivial
  | enqueue saved reply => exact orBroken_foreign reply trivial
  | reread _ object found interrupted =>
    simp only [HandlingPhase.recovering]
    split_ifs <;> trivial
  | bury current saved message reply => exact orStopped_foreign reply (saves saved rfl)
  | forget saved reply => exact orStopped_foreign reply trivial
  | ack reply => exact orStopped_foreign reply trivial
  | _ => trivial

theorem Foreign.pointer {key : String} (foreign : Foreign key phase) : phase.pointer? ≠ some key := by
  cases phase with
  | completed original saved => exact fun same => foreign.1 (Option.some.inj same)
  | published original saved => exact fun same => foreign (Option.some.inj same)
  | failed saved => exact fun same => foreign (Option.some.inj same)
  | buried saved => exact fun same => foreign (Option.some.inj same)
  | _ => rintro ⟨⟩

/-- The identity of an explicit year is kept by every handling. -/
theorem Registration.stable : Stable worker registration.Carries where
  same task task' carries _ identity flag := ⟨identity.trans carries.1, flag.trans carries.2⟩
  resolved task selection carries selects := by
    have kept := selects.identity_eq (carries.1 ▸ registration.explicit)
    exact ⟨kept.trans carries.1, carries.2⟩

/-- A handling of the task comes to the pointer only through COMPLETED, as long as FAILED is not
saved. -/
theorem Registration.Own.step (own : registration.Own log phase)
    (step : HandlingStep worker entry taskId phase call reply phase')
    (unfailed : ∀ saved, call = .setTask saved → saved.state ≠ .failed)
    (read : ∀ task, (⟨call, reply⟩ : Σ call, calls.Reply call) = ⟨.getTask taskId, .ok (some task)⟩ →
      registration.Carries task) : registration.Own (⟨call, reply⟩ :: log) phase' := by
  have keeps := (step.keeps Registration.stable own.1 read).1
  refine ⟨keeps, ?_⟩
  cases step with
  | load task =>
    unfold HandlingPhase.entering
    split_ifs <;> trivial
  | start _ _ reply => cases reply <;> trivial
  | complete task saved stored selection reply legal selects present result =>
    subst result
    cases reply with
    | error error => trivial
    | ok answer => exact ⟨(own.1 task rfl).1, rfl⟩
  | release original saved reply =>
    cases reply with
    | error error => trivial
    | ok answer => exact own.2.1
  | publish original saved filing path filed stored reply =>
    cases reply with
    | error error => trivial
    | ok answer =>
      have same : saved.identity = original := (own.1 saved rfl).1.trans own.2.symm
      simp only [HandlingPhase.bookkept, same, ne_eq, not_true_eq_false, ↓reduceIte]
  | fail task object saved stored message spent reply legal attempted budget result =>
    subst result
    exact absurd rfl (unfailed _ rfl)
  | bury current saved message reply alive result =>
    subst result
    exact absurd rfl (unfailed _ rfl)
  | retry _ _ _ _ _ reply => cases reply <;> trivial
  | requeue _ reply => cases reply <;> trivial
  | clear _ reply => exact own.2.elim
  | enqueue _ reply => cases reply <;> trivial
  | reread _ object found interrupted =>
    simp only [HandlingPhase.recovering]
    split_ifs <;> trivial
  | forget _ reply => exact own.2.elim
  | ack reply => cases reply <;> trivial
  | _ => trivial

/-- A request comes to own a task by writing the pointer. -/
theorem RequestStep.owns {ticket : Ticket} {phase phase' : RequestPhase}
    (step : RequestStep ticket phase call reply phase') (owns : OwnsTask phase') :
    OwnsTask phase ∨
      (⟨call, reply⟩ : Σ call, calls.Reply call) =
        ⟨.setPendingNx ticket.pendingKey ticket.taskId, .ok true⟩ ∨
      ∃ reply', (⟨call, reply⟩ : Σ call, calls.Reply call) =
        ⟨.setPending ticket.pendingKey ticket.taskId, reply'⟩ := by
  cases step with
  | registered => exact .inr (.inl rfl)
  | reclaimed => exact .inr (.inr ⟨_, rfl⟩)
  | created => exact .inl trivial
  | admitted => exact .inl trivial
  | refused phase early => rcases early with rfl | rfl <;> exact .inl trivial
  | queued => exact .inl trivial
  | measured => exact .inl trivial
  | _ => exact owns.elim

/-- A request that owns a task goes on to do so until it ends. -/
theorem OwnsTask.step {ticket : Ticket} {phase phase' : RequestPhase} (owns : OwnsTask phase)
    (step : RequestStep ticket phase call reply phase') :
    OwnsTask phase' ∨ ∃ answer, phase' = .ended answer := by
  cases step with
  | created => exact .inl trivial
  | admitted => exact .inl trivial
  | refused => exact .inl trivial
  | queued => exact .inl trivial
  | measured => exact .inl trivial
  | published => exact .inr ⟨_, rfl⟩
  | rejected => exact .inr ⟨_, rfl⟩
  | raised => exact .inr ⟨_, rfl⟩
  | _ => exact owns.elim

/-- What a request saves is a record of its own identity. -/
theorem RequestStep.saves {ticket : Ticket} {phase phase' : RequestPhase} {saved : ReportTask}
    {reply : calls.Reply (.setTask saved)}
    (step : RequestStep ticket phase (.setTask saved) reply phase') :
    saved.taskId = ticket.taskId ∧ saved.identity = ticket.identity ∧
      saved.includeAmended = ticket.includeAmended := by
  have next := step.call?_eq
  cases phase <;> cases next <;> exact ⟨rfl, rfl, rfl⟩

theorem RequestStep.reclaims {ticket : Ticket} {phase phase' : RequestPhase} {key : String}
    {reply : calls.Reply (.setPending key taskId)}
    (step : RequestStep ticket phase (.setPending key taskId) reply phase') : phase = .reclaiming := by
  have next := step.call?_eq
  cases phase <;> cases next
  rfl

end Steps

section Run

variable {settings : Settings} {uuid : ℕ → TaskId} {registration : Registration uuid}
  {config : ServiceConfig} {view view' : ServiceView} {event : ServiceEvent}

/-- The conditions on a step. -/
structure Registration.Allows (registration : Registration uuid) (settings : Settings)
    (config : ServiceConfig) (event : ServiceEvent) : Prop where
  sole : registration.Sole event
  unfailed : registration.Unfailed event
  handsOver : registration.HandsOver settings config event

/-- A request keeps what is known of it. -/
theorem Registration.AgentState.request {id : ℕ} {cikMapping : CikMapping}
    {payload : CreateReportRequest} {log : List (Σ call, calls.Reply call)} {killed : Bool}
    {identity : ReportIdentity} {phase phase' : RequestPhase} {call : Call} {reply : calls.Reply call}
    (state : registration.AgentState id ⟨.request cikMapping payload, .request phase, log, killed⟩)
    (identified : Routes.requestedIdentity cikMapping payload = .ok identity)
    (step : RequestStep ⟨settings, identity, payload.includeAmended, uuid id⟩ phase call reply phase')
    (allows : registration.Allows settings config (.reply id call reply)) :
    registration.AgentState id
      ⟨.request cikMapping payload, .request phase', ⟨call, reply⟩ :: log, killed⟩ := by
  obtain ⟨_, ⟨⟩, creator, other⟩ := state
  refine ⟨phase', rfl, fun own => ?_, fun apart identity' identified' same owns => ?_⟩
  · obtain ⟨request, admitted, registered⟩ := creator own
    refine ⟨request, ?_, fun member => ?_⟩
    · rintro rfl
      cases step with
      | refused phase early reply depth read full =>
        exact absurd (allows.handsOver own depth read) (Nat.not_lt_of_le full)
    · rcases List.mem_cons.mp member with head | tail
      · obtain ⟨key, named, same⟩ : ∃ key named, (⟨call, reply⟩ : Σ call, calls.Reply call) =
            ⟨.setPendingNx key named, .ok true⟩ := ⟨_, _, head.symm⟩
        cases same
        cases step with
        | registered => exact .inl trivial
      · rcases registered tail with owns | ⟨answer, rfl⟩
        · exact owns.step step
        · cases step.call?_eq
  · cases identified.symm.trans identified'
    rcases step.owns owns with before | written | ⟨reply', written⟩
    · exact other apart identity identified same before
    · cases written
      exact apart (allows.sole same)
    · cases written
      exact apart (allows.sole same)

/-- A handling keeps what is known of it. -/
theorem Registration.AgentState.handling {id : ℕ} {cikMapping : CikMapping} {now : String}
    {entry : ℕ} {fields : List (String × String)} {log : List (Σ call, calls.Reply call)}
    {killed : Bool} {phase phase' : HandlingPhase} {call : Call} {reply : calls.Reply call}
    {world : World} (invariant : registration.Invariant view)
    (state : registration.AgentState id ⟨.handling cikMapping now entry fields, .handling phase, log, killed⟩)
    (step : HandlingStep ⟨settings, cikMapping, now⟩ entry (handledId fields) phase call reply phase')
    (served : Faulty call view.world reply world)
    (allows : registration.Allows settings config (.reply id call reply)) :
    registration.AgentState id
      ⟨.handling cikMapping now entry fields, .handling phase', ⟨call, reply⟩ :: log, killed⟩ := by
  obtain ⟨apart, _, ⟨⟩, held, own, foreign⟩ := state
  have read : ∀ task, (⟨call, reply⟩ : Σ call, calls.Reply call) =
      ⟨.getTask (handledId fields), .ok (some task)⟩ → view.world.tasks (handledId fields) = some task := by
    rintro task ⟨⟩
    exact (served_getTask served).1.symm
  have keeps := step.keeps stable_taskId held fun task same => invariant.keyed _ _ (read task same)
  refine ⟨apart, phase', rfl, keeps.1, fun same => ?_, fun differs => ?_⟩
  · refine (own same).step step ?_ fun task found => invariant.own task (same ▸ read task found)
    rintro saved rfl
    exact allows.unfailed ((keeps.2 saved rfl).trans same)
  · refine step.foreign (foreign differs) ?_ fun task found same =>
      differs (invariant.sole _ task (read task found) same)
    rintro saved rfl same
    exact differs ((keeps.2 saved rfl).symm.trans (allows.sole same))

theorem Registration.AgentState.step (invariant : registration.Invariant view)
    (allows : registration.Allows settings config event)
    (step : (outline settings uuid Faulty).Step view event view') :
    ∀ id agent, view'.process id = some agent → registration.AgentState id agent := by
  refine @System.Step.forall_process _ _ _ _ _ (fun _ id agent => registration.AgentState id agent) _ _ _
    step invariant.agents ?_ fun _ _ _ _ known => known
  intro agent present
  cases step with
  | @start id label world absent begins =>
    obtain rfl := Option.some.inj (Config.put_self.symm.trans present)
    cases label with
    | request cikMapping payload =>
      have begun := RequestPhase.initial_cases (Routes.requestedIdentity cikMapping payload)
      refine ⟨_, rfl, fun own => ?_, fun _ _ _ _ owns => ?_⟩
      · cases allows.sole own
        refine ⟨⟨rfl, rfl⟩, ?_, by rintro ⟨⟩⟩
        rcases begun with same | same <;> rw [same] <;> rintro ⟨⟩
      · rcases begun with same | same <;> rw [same] at owns <;> exact owns
    | handling cikMapping now entry fields =>
      have begun := HandlingPhase.initial_cases fields
      refine ⟨fun own => ?_, _, rfl, ?_, fun _ => ?_, fun _ => ?_⟩
      · cases allows.sole own
      · rcases begun with same | same <;> rw [same] <;> exact holds_of_none rfl
      · rcases begun with same | same <;> rw [same] <;> exact ⟨holds_of_none rfl, trivial⟩
      · rcases begun with same | same <;> rw [same] <;> trivial
  | @reply id agent' call reply phase' world found alive moves served =>
    obtain rfl := Option.some.inj (Config.put_self.symm.trans present)
    have state := invariant.agents _ agent' found
    obtain ⟨label, control, log, killed⟩ := agent'
    cases moves with
    | request identified step => exact state.request identified step allows
    | handling step => exact state.handling invariant step served allows
  | @kill id agent' found alive =>
    obtain rfl := Option.some.inj (Config.put_self.symm.trans present)
    exact invariant.agents _ agent' found

/-- A record that a process saves under the id of the task carries its identity. -/
theorem Registration.Invariant.carries (invariant : registration.Invariant view)
    (injective : ∀ id id', uuid id = uuid id' → id = id') {id : ℕ} {agent : Agent} {phase' : Phase}
    {saved : ReportTask} {reply : calls.Reply (.setTask saved)}
    (present : view.process id = some agent)
    (moves : ServiceStep settings uuid id agent.label agent.control (.setTask saved) reply phase')
    (own : saved.taskId = registration.taskId) : registration.Carries saved := by
  have state := invariant.agents id agent present
  obtain ⟨label, control, log, killed⟩ := agent
  cases moves with
  | @request cikMapping payload identity _ _ _ _ identified step =>
    obtain ⟨_, ⟨⟩, creator, _⟩ := state
    obtain ⟨named, same, flag⟩ := step.saves
    obtain ⟨rfl, rfl⟩ := (creator (injective _ _ (named.symm.trans own))).1
    cases registration.identified.symm.trans identified
    exact ⟨same, flag⟩
  | handling step =>
    obtain ⟨_, _, ⟨⟩, held, carries, _⟩ := state
    have named := (step.keeps stable_taskId held (by rintro task ⟨⟩)).2 saved rfl
    have mine := (carries (named.symm.trans own)).1
    exact (step.keeps Registration.stable mine (by rintro task ⟨⟩)).2 saved rfl

/-- The pointer of the task is deleted only when an artifact is published. -/
theorem Registration.Invariant.deleted (invariant : registration.Invariant view)
    (views : Views settings uuid Faulty config view) {id : ℕ} {agent : Agent} {phase' : Phase}
    {reply : calls.Reply (.deletePending registration.key)} (present : view.process id = some agent)
    (moves : ServiceStep settings uuid id agent.label agent.control (.deletePending registration.key)
      reply phase')
    (handsOver : registration.HandsOver settings config (.reply id (.deletePending registration.key) reply)) :
    view.world.logical registration.artifactKey ≠ none := by
  have state := invariant.agents id agent present
  obtain ⟨process, found, follows⟩ := Refinement.behind views present
  obtain ⟨label, control, log, killed⟩ := agent
  cases moves with
  | @request cikMapping payload identity phase _ _ _ identified step =>
    obtain ⟨_, ⟨⟩, creator, other⟩ := state
    have rejecting : phase = .rejecting ∧ pendingTaskKey identity.logicalPath payload.includeAmended =
        registration.key := by
      have next := step.call?_eq
      cases phase <;> simp only [RequestPhase.call?, Option.some.injEq, reduceCtorEq,
        Call.deletePending.injEq] at next
      exact ⟨rfl, next⟩
    by_cases own : id = registration.creator
    · exact absurd rejecting.1 (creator own).2.1
    · exact absurd (rejecting.1 ▸ trivial) (other own identity identified rejecting.2)
  | @handling cikMapping now entry fields phase _ _ _ step =>
    obtain ⟨_, _, ⟨⟩, _, own, foreign⟩ := state
    have pointer := step.deletes
    by_cases same : handledId fields = registration.taskId
    · -- Of the phases that delete, only the one after COMPLETED is left.
      obtain ⟨_, standing⟩ := own same
      cases phase with
      | completed original saved =>
        rw [← views.world]
        refine handsOver rfl ⟨process, found, ?_⟩
        rw [follows.2.1]
        exact standing.2
      | published => exact standing.elim
      | failed => exact standing.elim
      | buried => exact standing.elim
      | _ => cases pointer
    · exact absurd pointer (foreign same).pointer

/-- Once registered the task stays covered. -/
theorem Registration.Covered.step (invariant : registration.Invariant view)
    (views : Views settings uuid Faulty config view) (allows : registration.Allows settings config event)
    (step : (outline settings uuid Faulty).Step view event view') :
    ∀ agent, view'.process registration.creator = some agent → registration.set ∈ agent.log →
      registration.Covered view'.world := by
  intro agent' present' member
  cases step with
  | @start id label world absent begins =>
    have unchanged : world.pending = view.world.pending ∧ world.logical = view.world.logical := by
      cases label with
      | request =>
        obtain rfl : world = view.world := begins
        exact ⟨rfl, rfl⟩
      | handling =>
        obtain ⟨_, rfl⟩ := begins
        exact ⟨rfl, rfl⟩
    rcases Config.put_cases present' with ⟨rfl, rfl⟩ | ⟨_, known⟩
    · cases member
    · have before := invariant.covered agent' known member
      rwa [Covered, Config.put_world, unchanged.1, unchanged.2]
  | @kill id agent present alive =>
    rcases Config.put_cases present' with ⟨rfl, rfl⟩ | ⟨_, known⟩
    · exact invariant.covered agent present member
    · exact invariant.covered agent' known member
  | @reply id agent call reply phase' world present alive moves served =>
    -- Either the task was registered before, or this is the SET NX.
    have before : (∃ agent, view.process registration.creator = some agent ∧ registration.set ∈ agent.log) ∨
        registration.set = ⟨call, reply⟩ := by
      rcases Config.put_cases present' with ⟨rfl, rfl⟩ | ⟨_, known⟩
      · rcases List.mem_cons.mp member with head | tail
        · exact .inr head
        · exact .inl ⟨agent, present, tail⟩
      · exact .inl ⟨agent', known, member⟩
    rcases before with ⟨source, there, registered⟩ | same
    · have covered := invariant.covered source there registered
      rcases served_world served with rfl | rfl
      · exact covered
      · rcases covered with pointer | published
        · by_cases deleted : call = .deletePending registration.key
          · subst deleted
            have published := invariant.deleted views present moves allows.handsOver
            exact .inr (@logical_after (.deletePending registration.key) view.world _ published)
          · refine .inl (pending_after pointer deleted ?_)
            rintro other rfl
            -- Only the creator may set the pointer, and it no longer does.
            obtain rfl := allows.sole rfl
            cases present.symm.trans there
            have state := invariant.agents _ agent present
            obtain ⟨label, control, log, killed⟩ := agent
            cases moves with
            | request identified step =>
              obtain ⟨_, ⟨⟩, creator, _⟩ := state
              obtain rfl := step.reclaims
              rcases (creator rfl).2.2 registered with owns | ⟨_, ⟨⟩⟩
              exact owns
            | handling step =>
              cases step with
              | pipeline _ _ _ _ outside => exact outside.elim
        · exact .inr (logical_after published)
    · cases same
      obtain ⟨⟨outside, replied⟩, rfl⟩ := served_answer served
      refine .inl ?_
      have free : (view.world.pending registration.key).isNone = true := (Except.ok.inj replied).symm
      rw [Config.put_world, World.after_pending]
      simp only [free, ↓reduceIte, Function.update_self]

theorem Registration.Invariant.step (injective : ∀ id id', uuid id = uuid id' → id = id')
    (invariant : registration.Invariant view) (views : Views settings uuid Faulty config view)
    (allows : registration.Allows settings config event)
    (step : (outline settings uuid Faulty).Step view event view') : registration.Invariant view' := by
  have agents := Registration.AgentState.step invariant allows step
  have covered := Registration.Covered.step invariant views allows step
  cases step with
  | @start id label world absent begins =>
    have tasks : world.tasks = view.world.tasks := by
      cases label with
      | request =>
        obtain rfl : world = view.world := begins
        rfl
      | handling =>
        obtain ⟨_, rfl⟩ := begins
        rfl
    refine ⟨?_, ?_, ?_, agents, covered⟩
    · intro taskId task found
      exact invariant.keyed taskId task (tasks ▸ found)
    · intro taskId task found
      exact invariant.sole taskId task (tasks ▸ found)
    · intro task found
      exact invariant.own task (tasks ▸ found)
  | kill => exact ⟨invariant.keyed, invariant.sole, invariant.own, agents, covered⟩
  | @reply id agent call reply phase' world present alive moves served =>
    have saved : ∀ taskId task, world.tasks taskId = some task → view.world.tasks taskId = some task ∨
        call = .setTask task ∧ taskId = task.taskId := by
      intro taskId task found
      rcases served_world served with rfl | rfl
      · exact .inl found
      · rw [World.after_tasks] at found
        cases call with
        | setTask saved =>
          by_cases same : taskId = saved.taskId
          · subst same
            simp only [Function.update_self, Option.some.injEq] at found
            subst found
            exact .inr ⟨rfl, rfl⟩
          · simp only [Function.update_of_ne same] at found
            exact .inl found
        | _ => exact .inl found
    refine ⟨served_keyed served invariant.keyed, ?_, ?_, agents, covered⟩
    · intro taskId task found same
      rcases saved taskId task found with before | ⟨rfl, rfl⟩
      · exact invariant.sole taskId task before same
      · exact allows.sole same
    · intro task found
      rcases saved _ task found with before | ⟨rfl, own⟩
      · exact invariant.own task before
      · exact invariant.carries injective present moves own.symm

end Run

/-! ### Who asks in between -/

/-- A POST or a GET for the report that nobody disturbs is answered from the cache or with the task,
and leaves the store as it is. -/
structure Registration.Answered {uuid : ℕ → TaskId} (registration : Registration uuid)
    (settings : Settings) (world : World) : Prop where
  post : ∀ cikMapping payload taskId outside,
    Routes.requestedIdentity cikMapping payload = .ok registration.identity →
    payload.includeAmended = registration.payload.includeAmended → ∃ report response,
      Runs (World.answer outside) (Routes.createReport settings cikMapping taskId payload) .fresh world
        (.ok report) response world ∧
      (response.statusCode = 200 ∨ response.statusCode = 202 ∧ report.taskId = registration.taskId)
  get : ∀ ticker form year outside,
    ReportIdentity.make ticker (decodeForm form) year none = .ok registration.identity → ∃ report,
      Runs (World.answer outside)
        (Routes.getReport ticker form year registration.payload.includeAmended : Async Unit _) () world
        (.ok report) () world

section Asking

variable {settings : Settings} {uuid : ℕ → TaskId} {registration : Registration uuid} {world : World}
  {outside : Outside} {σ : Type} {object : σ}

theorem after_contended {key : String} {holder taskId : TaskId}
    (held : world.pending key = some holder) : world.after (.setPendingNx key taskId) = world := by
  simp only [World.after, held, Option.isNone_some, Bool.false_eq_true, ↓reduceIte]

/-- The pointer leads to the record. -/
theorem runs_existingTask {key : String} {holder : TaskId} {task : ReportTask} (named : holder ≠ "")
    (held : world.pending key = some holder) (stored : world.tasks holder = some task) :
    Runs (World.answer outside) (Repository.existingTask key) object world (.ok (some task)) object
      world := by
  refine .bind (runs_call (congrArg Except.ok held)) ?_
  simp only [named, ↓reduceIte]
  exact runs_call (congrArg Except.ok stored)

theorem runs_attach {identity : ReportIdentity} {includeAmended : Bool} {holder taskId : TaskId}
    {task : ReportTask} (named : holder ≠ "")
    (held : world.pending (pendingTaskKey identity.logicalPath includeAmended) = some holder)
    (stored : world.tasks holder = some task) :
    Runs (World.answer outside) (Repository.getOrCreateTask taskId identity includeAmended) object world
      (.ok (task, false)) object world := by
  have refused : world.reply outside (.setPendingNx (pendingTaskKey identity.logicalPath includeAmended)
      taskId) = .ok false := by
    simp only [World.reply, held, Option.isNone_some]
  have contended : Runs (World.answer outside)
      (call (.setPendingNx (pendingTaskKey identity.logicalPath includeAmended) taskId)) object world
      (.ok false) object _ :=
    runs_call refused
  rw [after_contended held] at contended
  exact .bind contended (.bind (runs_existingTask named held stored) .pure)

/-- A covered report whose record is stored is found by everybody. -/
theorem Registration.answered (named : registration.taskId ≠ "") (keyed : world.Keyed)
    (covered : registration.Covered world) (stored : world.tasks registration.taskId ≠ none) :
    registration.Answered settings world := by
  obtain ⟨task, found⟩ := Option.ne_none_iff_exists'.mp stored
  constructor
  · intro cikMapping payload taskId outside identified flag
    cases published : world.logical registration.artifactKey with
    | some artifact =>
      have hit : world.reply outside (.hgetallLogical registration.artifactKey) = .ok (some artifact) :=
        congrArg Except.ok published
      refine ⟨Routes.cached registration.identity artifact, ⟨200, []⟩, .bind (.lift identified) ?_, .inl rfl⟩
      rw [flag]
      exact .bind (runs_call hit) (.bind .modify .pure)
    | none =>
      have miss : world.reply outside (.hgetallLogical registration.artifactKey) = .ok none :=
        congrArg Except.ok published
      have held : world.pending registration.key = some registration.taskId :=
        covered.resolve_right fun present => present published
      refine ⟨Routes.inFlight registration.identity task, ⟨202, []⟩, .bind (.lift identified) ?_,
        .inr ⟨rfl, keyed _ _ found⟩⟩
      rw [flag]
      exact .bind (runs_call miss) (.bind (runs_attach named held found) (.bind .pure (.bind .modify .pure)))
  · intro ticker form year outside constructed
    unfold Routes.getReport
    rw [constructed]
    cases published : world.logical registration.artifactKey with
    | some artifact =>
      have hit : world.reply outside (.hgetallLogical registration.artifactKey) = .ok (some artifact) :=
        congrArg Except.ok published
      exact ⟨_, .bind (runs_call hit) .pure⟩
    | none =>
      have miss : world.reply outside (.hgetallLogical registration.artifactKey) = .ok none :=
        congrArg Except.ok published
      have held : world.pending registration.key = some registration.taskId :=
        covered.resolve_right fun present => present published
      have shown : Runs (World.answer outside)
          (Routes.pendingTask registration.identity registration.payload.includeAmended) () world
          (.ok (some task)) () world := by
        refine .bind (runs_call (congrArg Except.ok held)) ?_
        simp only [named, ↓reduceIte]
        exact runs_call (congrArg Except.ok found)
      exact ⟨_, .bind (runs_call miss) (.bind shown .pure)⟩

end Asking

/-- A run with one task for the report, not saved as FAILED, in which the hand-over goes well. -/
abbrev HandOverRun {uuid : ℕ → TaskId} (registration : Registration uuid) (settings : Settings)
    (world : World) (events : List ServiceEvent) (config : ServiceConfig) : Prop :=
  Path (Guarded (service settings uuid Faulty).Step (registration.Allows settings)) (.idle world) events
    config

/-- From its registration on the task is covered, and once its record is stored whoever asks for the
report finds it. The pointer's lifetime of six hours is left aside here: it is the runs within that time that
are runs of this service, by `keySpace_refines_within`. -/
theorem handed_over {settings : Settings} {uuid : ℕ → TaskId} {registration : Registration uuid}
    {world : World} {events : List ServiceEvent} {config : ServiceConfig} (fresh : FreshIds uuid world)
    (keyed : world.Keyed)
    (unshared : ∀ taskId task, world.tasks taskId = some task → task.pendingKey ≠ registration.key)
    (run : HandOverRun registration settings world events config)
    (registered : registration.Registered config) :
    registration.Covered config.world ∧
      (config.world.tasks registration.taskId ≠ none → registration.Answered settings config.world) := by
  have initial : registration.Invariant (.idle world) := by
    refine ⟨keyed, ?_, ?_, ?_, ?_⟩
    · exact fun taskId task found same => absurd same (unshared taskId task found)
    · intro task found
      cases (fresh.unused registration.creator).symm.trans found
    · exact fun _ _ present => Config.idle_absent present
    · exact fun _ present => Config.idle_absent present
  obtain ⟨view, views, invariant⟩ := service_refines.invariant
    (fun config view event view' views allows step invariant =>
      Registration.Invariant.step fresh.injective invariant views allows step) run initial
  obtain ⟨process, present, member⟩ := registered
  obtain ⟨agent, found, follows⟩ := Refinement.seen views present
  have covered := invariant.covered agent found (follows.2.1 ▸ member)
  rw [views.world]
  exact ⟨covered, registration.answered (fresh.nonempty _) invariant.keyed covered⟩

/-- The answered SET NX of a registration, as a test. -/
def Registration.isSet {uuid : ℕ → TaskId} (registration : Registration uuid) :
    (Σ call, calls.Reply call) → Bool
  | ⟨.setPendingNx key taskId, .ok true⟩ => key = registration.key && taskId = registration.taskId
  | _ => false

theorem Registration.registered_of {uuid : ℕ → TaskId} {registration : Registration uuid}
    {config : ServiceConfig} (found : ∃ process ∈ config.process registration.creator,
      process.log.any registration.isSet = true) : registration.Registered config := by
  obtain ⟨process, present, found⟩ := found
  obtain ⟨⟨call, reply⟩, member, same⟩ := List.any_eq_true.mp found
  refine ⟨process, present, ?_⟩
  unfold isSet at same
  split at same
  · rename_i key taskId shape
    simp only [Bool.and_eq_true, decide_eq_true_eq] at same
    obtain ⟨rfl, rfl⟩ := same
    rwa [shape] at member
  · cases same

/-- `Sole` and `Unfailed` as a test. -/
def Registration.isSole {uuid : ℕ → TaskId} (registration : Registration uuid) : ServiceEvent → Bool
  | .start id label =>
    id ≠ registration.creator || label = .request registration.cikMapping registration.payload
  | .reply id (.setPendingNx key _) _ => key ≠ registration.key || id = registration.creator
  | .reply id (.setPending key _) _ => key ≠ registration.key || id = registration.creator
  | .reply _ (.setTask saved) _ =>
    (saved.pendingKey ≠ registration.key || saved.taskId = registration.taskId) && saved.state ≠ .failed
  | _ => true

theorem Registration.isSole_sound {uuid : ℕ → TaskId} {registration : Registration uuid}
    {event : ServiceEvent} (sole : registration.isSole event = true) :
    registration.Sole event ∧ registration.Unfailed event := by
  constructor
  · unfold Sole
    split <;> simp only [isSole, Bool.and_eq_true, Bool.or_eq_true, decide_eq_true_eq] at sole
    · exact fun same => sole.resolve_left fun apart => apart same
    · exact fun same => sole.resolve_left fun apart => apart same
    · exact fun same => sole.resolve_left fun apart => apart same
    · exact fun same => sole.1.resolve_left fun apart => apart same
    · trivial
  · unfold Unfailed
    split <;> simp only [isSole, Bool.and_eq_true, decide_eq_true_eq] at sole
    · exact fun _ => sole.2
    · trivial

/-- `HandsOver` as a test that asks more: room in the queue, and an artifact before any deletion. -/
def Registration.handsOver {uuid : ℕ → TaskId} (registration : Registration uuid)
    (settings : Settings) (world : World) : ServiceEvent → Bool
  | .reply _ .xlen (.ok depth) => depth < settings.maxQueueDepth
  | .reply _ .xlen (.error _) => false
  | .reply _ (.deletePending key) _ =>
    key ≠ registration.key || (world.logical registration.artifactKey).isSome
  | _ => true

theorem Registration.handsOver_sound {uuid : ℕ → TaskId} {registration : Registration uuid}
    {settings : Settings} {config : ServiceConfig} {event : ServiceEvent}
    (allowed : registration.handsOver settings config.world event = true) :
    registration.HandsOver settings config event := by
  unfold HandsOver
  split
  · rename_i id reply
    rintro _ depth read
    cases reply with
    | error error => cases allowed
    | ok found =>
      cases read
      exact of_decide_eq_true allowed
  · rintro same _
    simp only [handsOver, Bool.or_eq_true, decide_eq_true_eq] at allowed
    exact Option.isSome_iff_ne_none.mp (allowed.resolve_left fun apart => apart same)
  · trivial

/-- Apple's annual report of 2024, registered by the first request. -/
def sampleRegistration : Registration Sample.uuid :=
  ⟨0, Sample.cikMapping, Sample.payload (some 2024), Sample.identity 2024, Sample.requested, by decide⟩

/-- The request, then a handling up to the point where it has deleted the pointer. -/
def handingOver : List (Move Activity Outside) :=
  [.start 0 (Sample.request (some 2024))] ++ List.replicate 7 (.serve 0 default) ++
    [.start 1 (Sample.handling 0 0)] ++ List.replicate 18 (.serve 1 Sample.outside)

/-- Between the deleted pointer and the published artifact nothing covers the report. -/
theorem hand_over_gap : ¬ ∀ events config,
    Path (Guarded (service (Sample.settings 2) Sample.uuid Reliable).Step fun _ event =>
      sampleRegistration.Sole event ∧ sampleRegistration.Unfailed event) (.idle Sample.world) events config →
    sampleRegistration.Registered config → sampleRegistration.Covered config.world := by
  intro claimed
  have plays : (Service.reliablePlayer (Sample.settings 2) Sample.uuid).Plays
      (fun _ event => sampleRegistration.isSole event = true)
      (fun config => (∃ process ∈ config.process sampleRegistration.creator,
          process.log.any sampleRegistration.isSet = true) ∧
        config.world.pending sampleRegistration.key = none ∧
        config.world.logical sampleRegistration.artifactKey = none) (.idle Sample.world) handingOver := by
    decide +kernel
  obtain ⟨events, config, path, ⟨found, released, unpublished⟩, _⟩ := plays.path
  have run := path.weaken fun _ _ sole => Registration.isSole_sound sole
  rcases claimed events config run (Registration.registered_of found) with pointer | published
  · cases released.symm.trans pointer
  · exact published unpublished

/-- The request, a handling that SEC leaves without an answer and that puts the task back into the
queue, and a second one killed in the pipeline. -/
def retried : List (Move Activity Service.Choice) :=
  [.start 0 (Sample.request (some 2024))] ++ List.replicate 7 (.serve 0 (.succeeds default)) ++
    [.start 1 (Sample.handling 0 0), .serve 1 (.succeeds default), .serve 1 (.succeeds default),
      .serve 1 (.raises "timeout" false)] ++ List.replicate 6 (.serve 1 (.succeeds default)) ++
    [.start 2 (Sample.handling 1 0)] ++ List.replicate 5 (.serve 2 (.succeeds Sample.outside)) ++ [.kill 2]

theorem handed_over_retried : ∃ events config,
    HandOverRun sampleRegistration (Sample.settings 2) Sample.world events config ∧
    sampleRegistration.Registered config ∧ sampleRegistration.Covered config.world ∧
      sampleRegistration.Answered (Sample.settings 2) config.world := by
  have plays : (Service.faultyPlayer (Sample.settings 2) Sample.uuid).Plays
      (fun config event => sampleRegistration.isSole event = true ∧
        sampleRegistration.handsOver (Sample.settings 2) config.world event = true)
      (fun config => (∃ process ∈ config.process sampleRegistration.creator,
          process.log.any sampleRegistration.isSet = true) ∧
        (config.world.tasks "task-0").isSome = true) (.idle Sample.world) retried := by
    decide +kernel
  obtain ⟨events, config, path, ⟨found, stored⟩, _⟩ := plays.path
  have run : HandOverRun sampleRegistration (Sample.settings 2) Sample.world events config :=
    path.weaken fun _ _ ⟨sole, handsOver⟩ =>
      ⟨(Registration.isSole_sound sole).1, (Registration.isSole_sound sole).2,
        Registration.handsOver_sound handsOver⟩
  have registered := Registration.registered_of found
  obtain ⟨covered, answered⟩ := handed_over Sample.uuid_fresh Sample.world_keyed
    (by rintro taskId task ⟨⟩) run registered
  exact ⟨events, config, run, registered, covered, answered (Option.isSome_iff_ne_none.mp stored)⟩

end Quartr.Soundness
