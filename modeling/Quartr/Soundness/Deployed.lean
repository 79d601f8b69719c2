import Quartr.Soundness.Deployment
import Quartr.Soundness.Removal
import Quartr.Soundness.Success

/-! # What holds of the deployed service

The results about `service` in terms of a deployment: what its keys and files hold, and what is left on its stream.
-/

namespace Quartr.Soundness

open Quartr.Machine Quartr.Model

/-! ### A schedule -/

/-- A move of a schedule; every call takes effect, and `index` picks a handling of a batch. -/
inductive DeploymentMove where
  | tick (delay : ℕ)
  | request (id : ℕ) (year : Option ℤ)
  | answer (id : ℕ)
  | start (workerId : String)
  | serve (workerId : String) (index : ℕ)
  | kill (workerId : String)

section Schedules

variable (settings : Settings) (timeout : ℕ) (concurrency : String → ℕ) (uuid : ℕ → TaskId)

/-- The worker a move concerns. -/
def DeploymentMove.worker? : DeploymentMove → Option String
  | .start workerId => some workerId
  | .serve workerId _ => some workerId
  | .kill workerId => some workerId
  | _ => none

/-- Where a worker stands once its call has been answered, and what the call did. -/
def attend? (deployment : Deployment) (workerId : String) (index : ℕ) : Stage → Option (Deployment × Stage)
  | .sweeping (.await command next) =>
    some ({ deployment with fleet := deployment.fleet.execute command },
      (Deployment.loop settings timeout concurrency workerId).swept ⟨settings, Sample.cikMapping, ""⟩
        deployment.fleet.broker.now (next (deployment.fleet.broker.reply command)))
  | .reading (.await command next) =>
    some ({ deployment with fleet := deployment.fleet.execute command },
      (Deployment.loop settings timeout concurrency workerId).received ⟨settings, Sample.cikMapping, ""⟩
        deployment.fleet.broker.now (next (deployment.fleet.broker.reply command)))
  | .reclaiming ⟨entry, started, .await call next⟩ waiting =>
    some (deployment.after call,
      (Deployment.loop settings timeout concurrency workerId).reclaimed ⟨settings, Sample.cikMapping, ""⟩
        deployment.fleet.broker.now ⟨entry, started, next (deployment.reply Sample.outside call)⟩ waiting)
  | .batch running waiting =>
    match running.drop index with
    | ⟨entry, started, .await call next⟩ :: after =>
      some (deployment.after call,
        (Deployment.loop settings timeout concurrency workerId).handled ⟨settings, Sample.cikMapping, ""⟩
          deployment.fleet.broker.now (running.take index)
          ⟨entry, started, next (deployment.reply Sample.outside call)⟩ after waiting)
    | _ => none
  | _ => none

def DeploymentMove.make? (deployment : Deployment) : DeploymentMove → Option (DeploymentEvent × Deployment)
  | .tick delay => some (.tick (deployment.fleet.broker.now + delay),
      { deployment with fleet := { deployment.fleet with
          broker := { deployment.fleet.broker with now := deployment.fleet.broker.now + delay } } })
  | .request id year =>
    match deployment.requests id with
    | none => if id % 2 = 0 then some (.request id, deployment.putRequest id ⟨Sample.request year,
        Service.body settings uuid id (Sample.request year), [], false⟩) else none
    | some _ => none
  | .answer id =>
    match deployment.requests id with
    | some ⟨label, .await call next, log, false⟩ =>
      some (.answer id, (deployment.after call).putRequest id
        ((⟨label, .await call next, log, false⟩ : ServiceProcess).resume call (deployment.reply Sample.outside call)
          (next (deployment.reply Sample.outside call))))
    | _ => none
  | .start workerId =>
    match deployment.fleet.stage workerId with
    | none => some (.start workerId, deployment.putStage workerId
        (some (Deployment.loop settings timeout concurrency workerId).sweep))
    | some _ => none
  | .serve workerId index =>
    (deployment.fleet.stage workerId).bind fun stage =>
      (attend? settings timeout concurrency deployment workerId index stage).map fun outcome =>
        (.reply workerId, outcome.1.putStage workerId (some outcome.2))
  | .kill workerId => some (.kill workerId, deployment.putStage workerId none)

variable {settings timeout concurrency uuid} {deployment deployment' : Deployment} {event : DeploymentEvent}
  {move : DeploymentMove}

theorem attend?_step {workerId : String} {index : ℕ} {stage : Stage} {outcome : Deployment × Stage}
    (at_ : deployment.fleet.stage workerId = some stage)
    (attended : attend? settings timeout concurrency deployment workerId index stage = some outcome) :
    Deployment.Step settings timeout concurrency uuid deployment (.reply workerId)
      (outcome.1.putStage workerId (some outcome.2)) := by
  have takes (call : Call) : deployment.Serves call (deployment.reply Sample.outside call) (deployment.after call) :=
    .inl ⟨⟨Sample.outside, rfl⟩, rfl⟩
  cases stage with
  | sweeping rest =>
    cases rest with
    | done result => cases attended
    | await command next =>
      cases attended
      exact .sweep Sample.cikMapping "" at_ .done
  | reclaiming current waiting =>
    obtain ⟨entry, started, rest⟩ := current
    cases rest with
    | done result => cases attended
    | await call next =>
      cases attended
      exact .reclaim Sample.cikMapping "" at_ (takes call)
  | reading rest =>
    cases rest with
    | done result => cases attended
    | await command next =>
      cases attended
      exact .read Sample.cikMapping "" at_ .done
  | batch running waiting =>
    simp only [attend?] at attended
    split at attended
    · rename_i entry started call next after split
      rw [← List.take_append_drop index running, split] at at_
      cases attended
      exact .handle Sample.cikMapping "" at_ (takes call)
    · cases attended
  | stopped => cases attended

theorem DeploymentMove.step
    (made : move.make? settings timeout concurrency uuid deployment = some (event, deployment')) :
    Deployment.Step settings timeout concurrency uuid deployment event deployment' := by
  cases move with
  | tick delay =>
    cases made
    exact .tick _ (Nat.le_add_right ..)
  | request id year =>
    simp only [DeploymentMove.make?] at made
    split at made
    · rename_i absent
      split_ifs at made with even
      cases made
      exact .request Sample.cikMapping (Sample.payload year) even absent
    · cases made
  | answer id =>
    simp only [DeploymentMove.make?] at made
    split at made
    · rename_i label call next log present
      cases made
      exact .answer present rfl rfl (.inl ⟨⟨Sample.outside, rfl⟩, rfl⟩)
    · cases made
  | start workerId =>
    simp only [DeploymentMove.make?] at made
    split at made
    · rename_i absent
      cases made
      exact .start absent
    · cases made
  | serve workerId index =>
    obtain ⟨stage, at_, attended⟩ := Option.bind_eq_some_iff.mp made
    obtain ⟨outcome, replied, made⟩ := Option.map_eq_some_iff.mp attended
    cases made
    exact attend?_step at_ replied
  | kill workerId =>
    cases made
    exact .kill

/-- The worker an event concerns. -/
def workerOf? : DeploymentEvent → Option String
  | .start workerId => some workerId
  | .reply workerId => some workerId
  | .kill workerId => some workerId
  | _ => none

/-- A step leaves every worker but the one it concerns where it is. -/
theorem deployment_frame (step : Deployment.Step settings timeout concurrency uuid deployment event deployment')
    {other : String} (differs : workerOf? event ≠ some other) :
    deployment'.fleet.stage other = deployment.fleet.stage other := by
  have apart {workerId : String} (here : workerOf? event = some workerId) : other ≠ workerId := by
    rintro rfl
    exact differs here
  cases step with
  | tick | request | abort => rfl
  | answer at_ alive suspended served => exact congrFun (serves_frame served).2.1 other
  | start | kill => exact Fleet.put_of_ne (apart rfl)
  | sweep cikMapping now at_ served | read cikMapping now at_ served =>
    refine (Fleet.put_of_ne (apart rfl)).trans ?_
    cases served <;> rfl
  | reclaim cikMapping now at_ served | handle cikMapping now at_ served =>
    exact (Fleet.put_of_ne (apart rfl)).trans (congrFun (serves_frame served).2.1 other)

theorem DeploymentMove.event_worker
    (made : move.make? settings timeout concurrency uuid deployment = some (event, deployment')) :
    workerOf? event = move.worker? := by
  cases move with
  | request id year =>
    simp only [DeploymentMove.make?] at made
    split at made
    · split_ifs at made
      cases made
      rfl
    · cases made
  | answer | start =>
    simp only [DeploymentMove.make?] at made
    split at made <;> cases made
    rfl
  | serve workerId index =>
    obtain ⟨stage, _, attended⟩ := Option.bind_eq_some_iff.mp made
    obtain ⟨outcome, _, made⟩ := Option.map_eq_some_iff.mp attended
    cases made
    rfl
  | _ =>
    cases made
    rfl

theorem DeploymentMove.within {names : List String}
    (made : move.make? settings timeout concurrency uuid deployment = some (event, deployment'))
    (within : Within names deployment.fleet) (named : move.worker?.all (· ∈ names) = true) :
    Within names deployment'.fleet := by
  intro other absent
  rw [deployment_frame (DeploymentMove.step made)]
  · exact within other absent
  · intro same
    rw [← DeploymentMove.event_worker made, same] at named
    exact absent (of_decide_eq_true named)

/-- The deployment after a schedule whose every state is in time, if all its moves can be made. -/
def DeploymentMove.play? (settings : Settings) (timeout : ℕ) (concurrency : String → ℕ) (uuid : ℕ → TaskId)
    (names : List String) : List DeploymentMove → Deployment → Option Deployment
  | [], deployment => if timelyBelow timeout names deployment.fleet then some deployment else none
  | move :: rest, deployment =>
    if timelyBelow timeout names deployment.fleet && move.worker?.all (· ∈ names) then
      (move.make? settings timeout concurrency uuid deployment).bind fun outcome =>
        play? settings timeout concurrency uuid names rest outcome.2
    else none

theorem DeploymentMove.play?_path {names : List String} {moves : List DeploymentMove}
    (within : Within names deployment.fleet)
    (played : play? settings timeout concurrency uuid names moves deployment = some deployment') :
    ∃ events, Path (Guarded (Deployment.Step settings timeout concurrency uuid) fun deployment _ =>
      Timely timeout deployment.fleet) deployment events deployment' ∧ Timely timeout deployment'.fleet ∧
        Within names deployment'.fleet := by
  induction moves generalizing deployment with
  | nil =>
    simp only [play?] at played
    split_ifs at played with checked
    cases played
    exact ⟨[], .nil _, timelyBelow_timely _ within checked, within⟩
  | cons move rest ih =>
    simp only [play?] at played
    split_ifs at played with checked
    obtain ⟨timely, named⟩ := Bool.and_eq_true_iff.mp checked
    obtain ⟨⟨event, next⟩, made, played⟩ := Option.bind_eq_some_iff.mp played
    obtain ⟨events, path, rest⟩ := ih (DeploymentMove.within made within named) played
    exact ⟨event :: events, .cons ⟨timelyBelow_timely _ within timely, DeploymentMove.step made⟩ path, rest⟩

end Schedules

/-- A request. -/
def requested : List DeploymentMove := .request 0 (some 2024) :: List.replicate 7 (.answer 0)

/-- A worker reads the entry and crashes once it has saved PROCESSING. -/
def interrupted : List DeploymentMove :=
  .start "worker-0" :: List.replicate 4 (.serve "worker-0" 0) ++ [.kill "worker-0"]

/-- Another worker sweeps the entry when the time is up, and publishes the report. -/
def recovered : List DeploymentMove := [.tick 3, .start "worker-1"] ++ List.replicate 23 (.serve "worker-1" 0)

/-- A small deployment with two workers and a claim timeout of 3. -/
abbrev samplePlay (moves : List DeploymentMove) (deployment : Deployment) : Option Deployment :=
  DeploymentMove.play? (Sample.settings 3) 3 (fun _ => 1) Sample.uuid ["worker-0", "worker-1"] moves deployment

abbrev SampleRun (deployment : Deployment) (events : List DeploymentEvent) (deployment' : Deployment) : Prop :=
  Path (Guarded (Deployment.Step (Sample.settings 3) 3 (fun _ => 1) Sample.uuid) fun deployment _ =>
    Timely 3 deployment.fleet) deployment events deployment'

/-! ### What the refinement comes to -/

/-- What a run of a deployment does, a run of the service does: its world holds the same records, pointers,
artifacts and files, and its stream is the history of the deployment's. -/
theorem deployment_refines {settings : Settings} {timeout : ℕ} {concurrency : String → ℕ} {uuid : ℕ → TaskId}
    {shared : World} {events : List DeploymentEvent} {deployment : Deployment} (empty : shared.stream = [])
    (run : Path (Guarded (Deployment.Step settings timeout concurrency uuid) fun deployment _ =>
      Timely timeout deployment.fleet) (.idle shared) events deployment) (last : Timely timeout deployment.fleet) :
    ∃ events' config history number, Path (Guarded (service settings uuid Faulty).Step NoSharing) (.idle shared) events'
      config ∧ Enacted (scene deployment) history number config := by
  obtain ⟨events', config, history, number, path, simulates⟩ := (simulates_idle shared empty).run run last
  exact ⟨events', config, history, number, path, simulates.enacted⟩

theorem deployment_refines_recovered : ∃ events deployment,
    (SampleRun (.idle Sample.world) events deployment ∧
      (deployment.shared.tasks "task-0").map ReportTask.state = some .completed ∧
      deployment.fleet.broker.stream.entries = []) ∧
    ∃ events' config history number,
      Path (Guarded (service (Sample.settings 3) Sample.uuid Faulty).Step NoSharing) (.idle Sample.world) events'
        config ∧ Enacted (scene deployment) history number config := by
  have played : (samplePlay (requested ++ interrupted ++ recovered) (.idle Sample.world)).any (fun deployment =>
      (deployment.shared.tasks "task-0").map ReportTask.state = some .completed ∧
        deployment.fleet.broker.stream.entries = []) = true := by
    decide +kernel
  obtain ⟨deployment, played, reached⟩ := (Option.any_eq_true _ _).mp played
  obtain ⟨events, path, timely, _⟩ := DeploymentMove.play?_path (fun _ _ => rfl) played
  exact ⟨events, deployment, ⟨path, of_decide_eq_true reached⟩, deployment_refines rfl path timely⟩

/-- An entry of the task is still to be handed out, or it has been handed out and not acknowledged. -/
def Outstanding (stream : RedisStream) (taskId : TaskId) : Prop :=
  ∃ entry ∈ stream.entries, fieldsTaskId entry.fields = some taskId ∧
    (stream.lastDelivered < entry.id ∨ entry.id ∈ stream.pendingIds)

section Outlasts

variable {settings : Settings} {uuid : ℕ → TaskId} {taskId : TaskId}

/-- A task that has an entry keeps it, if only in the history. -/
theorem hasEntry_step {config config' : ServiceConfig} {event : ServiceEvent}
    (step : (service settings uuid Faulty).Step config event config') (has : config.world.HasEntry taskId) :
    config'.world.HasEntry taskId := by
  cases step with
  | @start id label world absent begins =>
    cases label with
    | request =>
      obtain rfl : world = config.world := begins
      exact has
    | handling cikMapping now entry fields =>
      obtain ⟨_, rfl⟩ := begins
      obtain ⟨index, own, present, named⟩ := hasEntry_iff.mp has
      obtain ⟨own', present', same, _⟩ := (touches_deliver "" config.world entry).kept index own present
      exact hasEntry_iff.mpr ⟨index, own', present', same ▸ named⟩
  | @reply id process call reply control world present alive moves served =>
    rcases served_world served with rfl | rfl
    · exact has
    · exact hasEntry_after has call
  | kill => exact has

/-- What the two invariants say of a world whose stream is the history of another. -/
theorem work_outstanding {view : ServiceView} {stream : RedisStream} {history : List Entry}
    (work : WorkInvariant uuid view) (removal : RemovalInvariant view) (recorded : HistoryOf history stream)
    (same : view.world.stream = history) (has : view.world.HasEntry taskId) :
    ∃ task, view.world.tasks taskId = some task ∧ (task.state.Terminal ∨ Outstanding stream taskId) := by
  obtain ⟨_, saved, ⟨task, found, terminal⟩ | ⟨index, ⟨own, present, named, unacked⟩, _⟩⟩ := work.covered has
  · exact ⟨task, found, .inl terminal⟩
  · obtain ⟨task, found⟩ := Option.ne_none_iff_exists'.mp saved
    have here : own.deleted = false := by
      by_contra gone
      exact unacked (removal.removed index own present (Bool.not_eq_false _ ▸ gone))
    rw [same] at present
    obtain ⟨entry, member, numbered, fields⟩ := recorded.shows present here
    refine ⟨task, found, .inr ⟨entry, member, fields ▸ named, ?_⟩⟩
    rw [numbered]
    by_cases handed : index + 1 ≤ stream.lastDelivered
    · exact .inr (recorded.unacked index own present unacked here handed)
    · exact .inl (by omega)

end Outlasts

/-- Once an entry of a task is on the stream, then ever after the task is finished or one of its entries is there to
be handed out or claimed, whatever crashes and whatever commands raise. -/
theorem work_outlasts {settings : Settings} {timeout : ℕ} {concurrency : String → ℕ} {uuid : ℕ → TaskId}
    {shared : World} {events events' : List DeploymentEvent} {deployment deployment' : Deployment}
    {entry : StreamEntry} {taskId : TaskId}
    (fresh : FreshIds uuid shared) (keyed : shared.Keyed) (empty : shared.stream = [])
    (run : Path (Guarded (Deployment.Step settings timeout concurrency uuid) fun deployment _ =>
      Timely timeout deployment.fleet) (.idle shared) events deployment)
    (member : entry ∈ deployment.fleet.broker.stream.entries) (named : fieldsTaskId entry.fields = some taskId)
    (later : Path (Guarded (Deployment.Step settings timeout concurrency uuid) fun deployment _ =>
      Timely timeout deployment.fleet) deployment events' deployment') (last : Timely timeout deployment'.fleet) :
    ∃ task, deployment'.shared.tasks taskId = some task ∧
      (task.state.Terminal ∨ Outstanding deployment'.fleet.broker.stream taskId) := by
  obtain ⟨now, _⟩ := later.both_ends last
  obtain ⟨_, config, history, number, path, simulates⟩ := (simulates_idle shared empty).run run now
  obtain ⟨_, config', history', number', path', simulates'⟩ := simulates.run later last
  have has : config.world.HasEntry taskId := by
    obtain ⟨index, own, _, present, fields, _⟩ := simulates.enacted.recorded.found member
    rw [simulates.enacted.world]
    exact hasEntry_iff.mpr ⟨index, own, present, fields ▸ named⟩
  have kept (first : ServiceConfig) (event : ServiceEvent) (second : ServiceConfig)
      (step : Guarded (service settings uuid Faulty).Step NoSharing first event second)
      (has : first.world.HasEntry taskId) : second.world.HasEntry taskId := hasEntry_step step.2 has
  have has' : config'.world.HasEntry taskId := path'.invariant kept has
  have preserved (config : ServiceConfig) (view : ServiceView) (event : ServiceEvent) (view' : ServiceView)
      (views : Views settings uuid Faulty config view) (unshared : NoSharing config event)
      (step : (outline settings uuid Faulty).Step view event view')
      (invariants : WorkInvariant uuid view ∧ RemovalInvariant view) :
      WorkInvariant uuid view' ∧ RemovalInvariant view' :=
    ⟨invariants.1.step fresh views unshared step, invariants.2.step step⟩
  obtain ⟨view, views, work, removal⟩ := service_refines.invariant preserved (path.append path')
    ⟨WorkInvariant.idle keyed empty, removalInvariant_idle shared empty⟩
  have worlds : (scene deployment').world history' = view.world := simulates'.enacted.world.symm.trans views.world
  rw [views.world] at has'
  have recorded := simulates'.enacted.recorded
  obtain ⟨task, found, left⟩ := work_outstanding work removal recorded (congrArg World.stream worlds.symm) has'
  refine ⟨task, ?_, left⟩
  rw [← worlds] at found
  exact found

theorem work_outlasts_crashed : ∃ events events' deployment deployment' task,
    (SampleRun (.idle Sample.world) events deployment ∧ SampleRun deployment events' deployment' ∧
      (deployment'.shared.tasks "task-0").map ReportTask.state = some .processing) ∧
    deployment'.shared.tasks "task-0" = some task ∧
      (task.state.Terminal ∨ Outstanding deployment'.fleet.broker.stream "task-0") := by
  have played : (samplePlay requested (.idle Sample.world)).any (fun deployment =>
      deployment.fleet.broker.stream.entries = [⟨1, [("task_id", "task-0")]⟩] ∧
        (samplePlay interrupted deployment).any (fun deployment' =>
          (deployment'.shared.tasks "task-0").map ReportTask.state = some .processing)) = true := by
    decide +kernel
  obtain ⟨deployment, played, reached⟩ := (Option.any_eq_true _ _).mp played
  obtain ⟨entries, reached⟩ := of_decide_eq_true reached
  obtain ⟨deployment', played', processing⟩ := (Option.any_eq_true _ _).mp reached
  obtain ⟨events, path, _, within⟩ := DeploymentMove.play?_path (fun _ _ => rfl) played
  obtain ⟨events', path', timely, _⟩ := DeploymentMove.play?_path within played'
  have member : ⟨1, [("task_id", "task-0")]⟩ ∈ deployment.fleet.broker.stream.entries := by
    rw [entries]
    exact List.mem_singleton_self _
  obtain ⟨task, outlasts⟩ := work_outlasts Sample.uuid_fresh Sample.world_keyed rfl path member rfl path' timely
  exact ⟨events, events', deployment, deployment', task, ⟨path, path', of_decide_eq_true processing⟩, outlasts⟩

end Quartr.Soundness
