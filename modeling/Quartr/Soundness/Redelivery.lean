import Quartr.Model.Sample
import Quartr.Soundness.Custody

/-! # Redelivery is bounded

Every handling of a task costs the record an attempt, whether the task goes on through a new entry
or through the old one, so the messages of a task are handled at most `retry_max_attempts` times.
The last handling leaves a terminal record, no entry and no pointer.
-/

namespace Quartr.Soundness

open Quartr.Machine Quartr.Model

/-- The stream has an entry of the task that a worker may be handed. -/
def Deliverable (world : World) (taskId : TaskId) : Prop :=
  ∃ (index : ℕ) (entry : Entry), world.stream[index]? = some entry ∧
    fieldsTaskId entry.fields = some taskId ∧ entry.status ≠ .acked ∧ entry.deleted = false

/-- The record is COMPLETED or FAILED, the stream holds no entry of the task and no pointer its id. -/
structure CleanedUp (world : World) (taskId : TaskId) : Prop where
  done : Done world taskId
  entries : ∀ entry ∈ world.stream, fieldsTaskId entry.fields = some taskId → entry.deleted = true
  pointers : ∀ key, world.pending key ≠ some taskId

/-- A message of the task has been handled. -/
def Handled (config : ServiceConfig) (taskId : TaskId) : Prop :=
  ∃ id process, config.process id = some process ∧ process.label.taskId? = some taskId

/-- No handling of the task is under way. -/
def Rested (config : ServiceConfig) (taskId : TaskId) : Prop :=
  ∀ id process, config.process id = some process → process.label.taskId? = some taskId →
    ¬ process.Active

/-- Nobody is killed. -/
def NoKill : ServiceEvent → Prop
  | .kill _ => False
  | _ => True

instance : (event : ServiceEvent) → Decidable (NoKill event)
  | .kill _ => .isFalse id
  | .start _ _ => .isTrue trivial
  | .reply _ _ _ => .isTrue trivial

section Bounded

variable {settings : Settings} {uuid : ℕ → TaskId} {begun : TaskId → ℕ} {config config' : ServiceConfig}
  {view : ServiceView} {event : ServiceEvent} {taskId : TaskId}

/-- While handlings of one task do not overlap, those of one entry do not either. -/
theorem DeliveryInvariant.supervised (invariant : DeliveryInvariant settings uuid begun view)
    (views : Views settings uuid Steady config view)
    (step : (service settings uuid Steady).Step config event config') (alone : NoOverlap config event)
    (unkilled : NoKill event) : Supervised config event := by
  cases step with
  | @start id label world absent starts =>
    intro index hands other process present same active
    cases label with
    | request => cases hands
    | handling cikMapping now index fields =>
      cases hands
      obtain ⟨⟨own, there, rfl, _⟩, _⟩ := starts
      rw [views.world] at there
      obtain ⟨taskId, named, _⟩ := invariant.named own (List.mem_of_getElem? there)
      obtain ⟨agent, found, follows⟩ := Refinement.seen views present
      obtain ⟨taskId', acts, _⟩ := invariant.labels other agent found
      rw [follows.1] at same
      have handles : agent.label.taskId? = some taskId' := by
        obtain ⟨label, control, log, killed⟩ := agent
        cases label with
        | request => cases same
        | handling => exact acts
      obtain ⟨_, _, hands', _, ⟨own', there', named', _⟩, _⟩ :=
        (invariant.courses taskId').handled found handles
      cases same.symm.trans hands'
      cases there.symm.trans there'
      apply alone taskId named other process present active
      rw [follows.1, handles]
      exact named'.symm.trans named
  | reply => trivial
  | kill => exact unkilled

/-- Nobody is at work on a task none of whose handlings is under way. -/
theorem DeliveryInvariant.rested (invariant : DeliveryInvariant settings uuid begun view)
    (views : Views settings uuid Steady config view) (rested : Rested config taskId) {id : ℕ}
    {agent : Agent} (present : view.process id = some agent)
    (handles : agent.label.taskId? = some taskId) : agent.control.Final := by
  obtain ⟨process, found, follows⟩ := Refinement.behind views present
  by_contra live
  apply rested id process found
  · rw [follows.1]
    exact handles
  · exact (active_iff follows).mpr ⟨invariant.alive id agent present, live⟩

/-- What a task that rests waits for, and what it leaves behind. -/
theorem DeliveryInvariant.conclude (invariant : DeliveryInvariant settings uuid begun view)
    (views : Views settings uuid Steady config view) (handled : Handled config taskId)
    (rested : Rested config taskId) (retries : 1 ≤ settings.retryMaxAttempts) :
    (Deliverable config.world taskId → begun taskId < settings.retryMaxAttempts) ∧
      (¬ Deliverable config.world taskId → CleanedUp config.world taskId) := by
  have course := invariant.courses taskId
  have resting {id : ℕ} {agent : Agent} (present : view.process id = some agent)
      (handles : agent.label.taskId? = some taskId) : agent.control.Final :=
    invariant.rested views rested present handles
  have has : view.world.HasEntry taskId := by
    obtain ⟨id, process, present, handles⟩ := handled
    obtain ⟨agent, found, follows⟩ := Refinement.seen views present
    rw [follows.1] at handles
    obtain ⟨_, _, _, _, entry, _⟩ := course.handled found handles
    exact entry.hasEntry
  have free (index : ℕ) (unacked : UnackedAt view.world taskId index) :
      Charged view taskId (.entry index) := by
    refine ⟨unacked, ?_⟩
    intro id agent present occupies
    exact occupies.2.2 (resting present occupies.1)
  rw [views.world]
  constructor
  · rintro ⟨index, entry, present, named, unacked, _⟩
    obtain ⟨_, queues⟩ := course.holder has (free index ⟨entry, present, named, unacked⟩)
    obtain ⟨task, _, _, count, left⟩ := queues index rfl
    omega
  · intro nothing
    have acked (index : ℕ) (entry : Entry) (present : view.world.stream[index]? = some entry)
        (named : fieldsTaskId entry.fields = some taskId) : entry.status = .acked := by
      by_contra unacked
      have undeleted : entry.deleted = false :=
        Bool.eq_false_iff.mpr fun deleted => unacked (course.kept index entry present named deleted)
      exact nothing ⟨index, entry, present, named, unacked, undeleted⟩
    rcases course.custody has with ⟨holder, charged, _, _⟩ | ⟨_, done, unpointed⟩
    · cases holder with
      | agent id =>
        obtain ⟨agent, phase, present, handles, control, owes⟩ := charged
        rcases resting present handles with ⟨_, same⟩ | same
        · cases control.symm.trans same
        · cases control.symm.trans same
          exact absurd rfl owes.2.2
      | entry index =>
        obtain ⟨⟨entry, present, named, unacked⟩, _⟩ := charged
        exact absurd (acked index entry present named) unacked
    · refine ⟨done, ?_, unpointed⟩
      intro entry member named
      obtain ⟨index, present⟩ := List.mem_iff_getElem?.mp member
      by_contra kept
      obtain ⟨id, agent, found, handles, _, control⟩ := course.removed index entry present named
        (acked index entry present named) (Bool.eq_false_iff.mpr kept)
      rcases resting found handles with ⟨_, same⟩ | same <;> cases control.symm.trans same

end Bounded

/-- A task is handled at most `retry_max_attempts` times, and after the last time, when there is
nothing left to hand out, it is cleaned up. -/
theorem redelivery_bounded {settings : Settings} {uuid : ℕ → TaskId} {world : World}
    {events : List ServiceEvent} {config : ServiceConfig} (fresh : FreshIds uuid world)
    (unpointed : ∀ id key, world.pending key ≠ some (uuid id)) (empty : world.stream = [])
    (retries : 1 ≤ settings.retryMaxAttempts)
    (run : Path (Guarded (service settings uuid Steady).Step fun config event =>
      NoOverlap config event ∧ NoKill event) (.idle world) events config) (taskId : TaskId) :
    handlings taskId events ≤ settings.retryMaxAttempts ∧
      (Handled config taskId → Rested config taskId →
        (Deliverable config.world taskId → handlings taskId events < settings.retryMaxAttempts) ∧
        (¬ Deliverable config.world taskId → CleanedUp config.world taskId)) := by
  have supervised {config config' : ServiceConfig} {event : ServiceEvent}
      (step : Guarded (service settings uuid Steady).Step (fun config event =>
        NoOverlap config event ∧ NoKill event) config event config')
      (order : InCustody settings uuid config) : Supervised config event := by
    obtain ⟨begun, view, views, invariant⟩ := order
    exact invariant.supervised views step.2 step.1.1 step.1.2
  have run : Path (Guarded (service settings uuid Steady).Step Supervised) (.idle world) events config := by
    apply run.strengthen
    · exact fun _ _ _ step order => InCustody.step order fresh (supervised step order) step.2
    · exact InCustody.idle fresh unpointed empty
    · exact fun _ _ _ step order => supervised step order
  obtain ⟨view, views, invariant⟩ := delivery_courses fresh unpointed empty run
  constructor
  · have bounded := (invariant.courses taskId).bounded
    omega
  · intro handled rested
    exact invariant.conclude views handled rested retries

/-- SEC is down, and the queue is full for every retry. -/
def spent : List (Move Activity Outside) :=
  [.start 0 (Sample.request (some 2024))] ++ List.replicate 7 (.serve 0 default) ++
    [.start 1 (Sample.handling 0 0)] ++ List.replicate 8 (.serve 1 default) ++
    [.start 2 (Sample.handling 0 0)] ++ List.replicate 8 (.serve 2 default) ++
    [.start 3 (Sample.handling 0 0)] ++ List.replicate 7 (.serve 3 default)

theorem redelivery_bounded_spent : ∃ events config,
    Path (Guarded (service (Sample.settings 1) Sample.uuid Steady).Step fun config event =>
      NoOverlap config event ∧ NoKill event) (.idle Sample.world) events config ∧
    handlings "task-0" events ≤ 5 ∧ CleanedUp config.world "task-0" := by
  have plays : (Service.steadyPlayer (Sample.settings 1) Sample.uuid).Plays
      (fun config event => event.id < 4 ∧ NoOverlapBelow 4 config event = true ∧ NoKill event)
      (fun config => (∀ move ∈ spent, config.InactiveAt move.id) ∧
        (config.process 3).any (fun process => process.label.taskId? = some "task-0") = true ∧
        config.world.stream.all (fun entry => entry.status = .acked) = true)
      (.idle Sample.world) spent := by
    decide +kernel
  obtain ⟨events, config, path, quiescent, handled, acked⟩ := plays.quiescent
  have run := System.bounded_run (fun _ _ above below =>
    And.intro (NoOverlapBelow.noOverlap above below.1) below.2) path
  obtain ⟨bounded, concluded⟩ :=
    redelivery_bounded Sample.uuid_fresh nofun rfl (by decide) run "task-0"
  obtain ⟨process, present, handles⟩ := (Option.any_eq_true _ _).mp handled
  refine ⟨events, config, run, bounded, (concluded ⟨3, process, present, ?_⟩ ?_).2 ?_⟩
  · exact of_decide_eq_true handles
  · exact fun id process present _ => quiescent id process present
  · rintro ⟨index, entry, present, _, unacked, _⟩
    exact unacked (of_decide_eq_true (List.all_eq_true.mp acked entry (List.mem_of_getElem? present)))

end Quartr.Soundness
