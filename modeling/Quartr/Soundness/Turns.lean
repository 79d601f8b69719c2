import Quartr.Soundness.Acknowledgement
import Quartr.Soundness.Pointers

/-! # Activities that take turns

Requests and handlings run one after the other and nothing fails. Between two of them every task
waits for the one entry it has left, or for none, and its pointer holds it while it waits. The
module says what holds of the task an activity acts for while the activity has its turn.
-/

namespace Quartr.Soundness

open Quartr.Machine Quartr.Model

/-- The record of the task is missing or terminal. -/
def Finished (world : World) (taskId : TaskId) : Prop :=
  world.tasks taskId = none ∨ Done world taskId

/-! ### What is in order between activities -/

/-- The task waits for its one unacknowledged entry, and its pointer holds it. -/
structure Waiting (world : World) (taskId : TaskId) (index : ℕ) : Prop where
  alone : ∀ other, UnackedAt world taskId other → other = index
  queued : ∃ task, world.tasks taskId = some task ∧ task.state = .queued ∧
    world.pending task.pendingKey = some taskId

structure Orderly (world : World) (taskId : TaskId) : Prop where
  stored : ∀ key, world.pending key = some taskId → world.tasks taskId ≠ none
  waiting : ∀ index, UnackedAt world taskId index → Waiting world taskId index

/-- Nothing in the store mentions the task. -/
structure Untouched (world : World) (taskId : TaskId) : Prop where
  tasks : world.tasks taskId = none
  pending : ∀ key, world.pending key ≠ some taskId
  entries : ¬ world.HasEntry taskId

/-- What a step of one task leaves alone. -/
structure Respects (actor : TaskId) (world world' : World) : Prop where
  touches : Touches actor world world'
  unacked : ∀ taskId index, taskId ≠ actor → UnackedAt world' taskId index →
    UnackedAt world taskId index
  fewer : ∀ taskId key, taskId ≠ actor → world'.pending key = some taskId →
    world.pending key = some taskId
  kept : ∀ taskId key, taskId ≠ actor → ¬ Finished world taskId →
    world.pending key = some taskId → world'.pending key = some taskId

section Respects

variable {actor taskId : TaskId} {world world' : World} {call : Call}

theorem Waiting.unfinished {index : ℕ} (waiting : Waiting world taskId index) :
    ¬ Finished world taskId := by
  obtain ⟨task, stored, queued, _⟩ := waiting.queued
  rintro (missing | ⟨task', found, terminal⟩)
  · cases missing.symm.trans stored
  · cases found.symm.trans stored
    rw [queued] at terminal
    rcases terminal with same | same <;> cases same

/-- Other tasks stay in order. -/
theorem Orderly.respected (orderly : Orderly world taskId) (respects : Respects actor world world')
    (other : taskId ≠ actor) : Orderly world' taskId := by
  constructor
  · intro key pointer
    rw [respects.touches.tasks taskId other]
    exact orderly.stored key (respects.fewer taskId key other pointer)
  · intro index unacked
    have waiting := orderly.waiting index (respects.unacked taskId index other unacked)
    obtain ⟨task, stored, queued, pointer⟩ := waiting.queued
    refine ⟨fun index' unacked' => ?_, task, ?_, queued, ?_⟩
    · exact waiting.alone index' (respects.unacked taskId index' other unacked')
    · rw [respects.touches.tasks taskId other]
      exact stored
    · exact respects.kept taskId _ other waiting.unfinished pointer

theorem Untouched.respected (untouched : Untouched world taskId)
    (respects : Respects actor world world') (other : taskId ≠ actor) : Untouched world' taskId := by
  refine ⟨?_, fun key pointer => ?_, fun has => ?_⟩
  · rw [respects.touches.tasks taskId other]
    exact untouched.tasks
  · exact untouched.pending key (respects.fewer taskId key other pointer)
  · exact untouched.entries (respects.touches.hasEntry other has)

theorem Untouched.orderly (untouched : Untouched world taskId) : Orderly world taskId := by
  constructor
  · intro key pointer
    exact absurd pointer (untouched.pending key)
  · rintro index ⟨entry, present, named, _⟩
    exact absurd (hasEntry_iff.mpr ⟨index, entry, present, named⟩) untouched.entries

theorem UnackedAt.of_after {index : ℕ} (unacked : UnackedAt (world.after call) taskId index) :
    UnackedAt world taskId index ∨ call = .xadd taskId ∧ index = world.stream.length := by
  obtain ⟨entry, present, named, status⟩ := unacked
  rcases entry_of_after present with ⟨before, there, rfl⟩ | ⟨added, rfl, rfl, rfl⟩
  · rw [touch_fields] at named
    exact .inl ⟨before, there, named, fun acked => status (touch_acked acked)⟩
  · cases named
    exact .inr ⟨rfl, rfl⟩

theorem UnackedAt.of_deliver {position index : ℕ} (unacked : UnackedAt
      { world with stream := world.stream.modify position Entry.deliver } taskId index) :
    UnackedAt world taskId index := by
  obtain ⟨entry, present, named, status⟩ := unacked
  simp only [List.getElem?_modify, Option.map_eq_map, Option.map_eq_some_iff] at present
  obtain ⟨before, there, rfl⟩ := present
  refine ⟨before, there, ?_, fun acked => status ?_⟩
  · split_ifs at named
    · rwa [deliver_fields] at named
    · exact named
  · split_ifs
    · exact (deliver_status before).mpr acked
    · exact acked

/-- A command of one task respects the others when it deletes no pointer they need. -/
theorem Mine.respects (mine : Mine actor world call)
    (deletes : ∀ key, call = .deletePending key → ∀ holder, world.pending key = some holder →
      holder = actor ∨ Finished world holder)
    (claims : ∀ key named, call = .setPendingNx key named → named = actor)
    (sets : ∀ key named, call ≠ .setPending key named) : Respects actor world (world.after call) := by
  refine ⟨mine.touches, ?_, ?_, ?_⟩
  · intro taskId index other unacked
    rcases unacked.of_after with before | ⟨rfl, _⟩
    · exact before
    · exact absurd (mine.adds taskId rfl) other
  · intro taskId key other pointer
    rw [World.after_pending] at pointer
    cases call with
    | setPending => exact absurd rfl (sets _ _)
    | setPendingNx key' named =>
      dsimp only at pointer
      split_ifs at pointer
      · by_cases same : key = key'
        · subst same
          rw [Function.update_self, Option.some.injEq] at pointer
          exact absurd (pointer.symm.trans (claims _ _ rfl)) other
        · rwa [Function.update_of_ne same] at pointer
      · exact pointer
    | deletePending key' =>
      by_cases same : key = key'
      · subst same
        simp only [Function.update_self, reduceCtorEq] at pointer
      · simp only [Function.update_of_ne same] at pointer
        exact pointer
    | _ => exact pointer
  · intro taskId key other unfinished pointer
    refine pending_after pointer ?_ fun named => sets key named
    rintro rfl
    rcases deletes key rfl taskId pointer with same | finished
    · exact other same
    · exact unfinished finished

end Respects

/-! ### The turn of a request -/

/-- What holds while a request has its turn, of the task it may create. -/
def RequestTurn (ticket : Ticket) (world : World) : RequestPhase → Prop
  | .checking => Untouched world ticket.taskId
  | .registering => Untouched world ticket.taskId
  | .following => Untouched world ticket.taskId ∧ world.pending ticket.pendingKey ≠ none
  | .attaching existing => Untouched world ticket.taskId ∧ world.tasks existing ≠ none
  | .reclaiming => False
  | .creating => ¬ world.HasEntry ticket.taskId ∧
      world.pending ticket.pendingKey = some ticket.taskId
  | .ended _ => Orderly world ticket.taskId
  | phase => ¬ world.HasEntry ticket.taskId ∧
      world.pending ticket.pendingKey = some ticket.taskId ∧
      (if phase = .measuring ∨ phase = .publishing then
        world.tasks ticket.taskId = some ticket.queuedRecord
      else world.tasks ticket.taskId ≠ none)

section RequestTurn

variable {ticket : Ticket} {world world' : World} {phase phase' : RequestPhase} {call : Call}
  {reply : calls.Reply call}

theorem orderly_of_noEntry {taskId : TaskId} (without : ¬ world.HasEntry taskId)
    (stored : world.tasks taskId ≠ none) : Orderly world taskId := by
  constructor
  · exact fun _ _ => stored
  · rintro index ⟨entry, present, named, _⟩
    exact absurd (hasEntry_iff.mpr ⟨index, entry, present, named⟩) without

/-- The one entry a request adds is the one its task waits for. -/
theorem orderly_published {task : ReportTask} (without : ¬ world.HasEntry task.taskId)
    (stored : world.tasks task.taskId = some task) (queued : task.state = .queued)
    (pointer : world.pending task.pendingKey = some task.taskId) :
    Orderly (world.after (.xadd task.taskId)) task.taskId := by
  have only : ∀ index, UnackedAt (world.after (.xadd task.taskId)) task.taskId index →
      index = world.stream.length := by
    intro index unacked
    rcases unacked.of_after with ⟨entry, present, named, _⟩ | ⟨_, same⟩
    · exact absurd (hasEntry_iff.mpr ⟨index, entry, present, named⟩) without
    · exact same
  constructor
  · intro key _ missing
    cases missing.symm.trans stored
  · intro index unacked
    refine ⟨fun other unacked' => ?_, task, stored, queued, pointer⟩
    rw [only other unacked', only index unacked]

/-- A request that has its turn moves on in order; it never has to reclaim a pointer. -/
theorem RequestTurn.step (turn : RequestTurn ticket world phase)
    (step : RequestStep ticket phase call reply phase') (served : Reliable call world reply world')
    (nameless : ∀ key, world.pending key ≠ some "") (others : ∀ taskId, taskId ≠ ticket.taskId → Orderly world taskId) :
    RequestTurn ticket world' phase' := by
  have served' := served
  obtain ⟨⟨outside, replied⟩, rfl⟩ := served
  cases step with
  | cached => exact turn.orderly
  | uncached => exact turn
  | registered =>
    have free : (world.pending ticket.pendingKey).isNone = true := (Except.ok.inj replied).symm
    refine ⟨turn.entries, ?_⟩
    simp only [World.after_pending, free, ↓reduceIte, Function.update_self]
  | contended =>
    have taken : (world.pending ticket.pendingKey).isNone = false := (Except.ok.inj replied).symm
    have same : world.after (.setPendingNx ticket.pendingKey ticket.taskId) = world := by
      simp only [World.after, taken, Bool.false_eq_true, ↓reduceIte]
    rw [same]
    refine ⟨turn, fun none => ?_⟩
    rw [none] at taken
    cases taken
  | followed existing named =>
    have pointer : world.pending ticket.pendingKey = some existing := (Except.ok.inj replied).symm
    have other : existing ≠ ticket.taskId := by
      rintro rfl
      exact turn.1.pending _ pointer
    exact ⟨turn.1, (others existing other).stored _ pointer⟩
  | unfollowed pointer unnamed =>
    rcases unnamed with rfl | rfl
    · exact turn.2 (Except.ok.inj replied).symm
    · exact nameless _ (Except.ok.inj replied).symm
  | attached existing task => exact turn.1.orderly
  | missing existing => exact turn.2 (Except.ok.inj replied).symm
  | reclaimed => exact turn.elim
  | created =>
    refine ⟨turn.1, turn.2, ?_⟩
    simp only [reduceCtorEq, or_self, ↓reduceIte, World.after_tasks]
    exact fun missing => by cases (Function.update_self ..).symm.trans missing
  | admitted => exact turn
  | refused phase early reply depth read full =>
    rcases early with rfl | rfl
    · exact turn
    · refine ⟨turn.1, turn.2.1, fun missing => ?_⟩
      cases missing.symm.trans turn.2.2
  | queued =>
    refine ⟨turn.1, turn.2.1, ?_⟩
    simp only [true_or, ↓reduceIte, World.after_tasks]
    exact Function.update_self ..
  | measured => exact turn
  | published => exact @orderly_published world ticket.queuedRecord turn.1 turn.2.2 rfl turn.2.1
  | rejected => exact @orderly_of_noEntry (world.after (.deletePending ticket.pendingKey)) _ turn.1 turn.2.2
  | raised error next => exact (not_error next served').elim

/-- The pointer a request deletes holds its own task, and it overwrites none. -/
theorem RequestTurn.releases (turn : RequestTurn ticket world phase)
    (step : RequestStep ticket phase call reply phase') :
    (∀ key, call = .deletePending key → world.pending key = some ticket.taskId) ∧
      (∀ key named, call = .setPendingNx key named → named = ticket.taskId) ∧
      ∀ key named, call ≠ .setPending key named := by
  have next := step.call?_eq
  refine ⟨?_, ?_, ?_⟩
  · rintro key rfl
    cases phase <;> cases next
    exact turn.2.1
  · rintro key named rfl
    cases phase <;> cases next
    rfl
  · rintro key named rfl
    cases phase <;> cases next
    exact turn

end RequestTurn

/-! ### The turn of a handling -/

/-- The entry has been handed out and is the only one of its task that is not acknowledged. -/
structure InHand (world : World) (taskId : TaskId) (entry : ℕ) : Prop where
  handed : ∃ e, world.stream[entry]? = some e ∧ fieldsTaskId e.fields = some taskId ∧ e.status = .pending
  alone : ∀ other, UnackedAt world taskId other → other = entry

/-- The store holds this record of the task, and its pointer holds the task. -/
structure Holding (world : World) (taskId : TaskId) (entry : ℕ) (task : ReportTask) : Prop where
  hand : InHand world taskId entry
  stored : world.tasks taskId = some task
  pointer : world.pending task.pendingKey = some taskId

/-- A completed record is stored; which pointer may still hold the task is said apart. -/
structure Succeeded (world : World) (taskId : TaskId) (entry : ℕ) (saved : ReportTask) : Prop where
  hand : InHand world taskId entry
  stored : world.tasks taskId = some saved
  completed : saved.state = .completed

/-- The handling may acknowledge: the task is done, or waits for another entry. -/
structure Dismissed (world : World) (taskId : TaskId) (entry : ℕ) : Prop where
  handed : ∃ e, world.stream[entry]? = some e ∧ fieldsTaskId e.fields = some taskId ∧ e.status = .pending
  rest : Done world taskId ∧ (∀ other, UnackedAt world taskId other → other = entry) ∨
    ∃ next task, next ≠ entry ∧ world.tasks taskId = some task ∧ task.state = .queued ∧
      world.pending task.pendingKey = some taskId ∧
      ∀ other, UnackedAt world taskId other → other = entry ∨ other = next

/-- What holds while a handling has its turn, of the task it handles. -/
def HandlingTurn (taskId : TaskId) (entry : ℕ) (world : World) : HandlingPhase → Prop
  | .fresh => ∃ task, Holding world taskId entry task ∧ task.state = .queued
  | .loaded task => Holding world taskId entry task ∧ task.state = .queued
  | .running task _ => Holding world taskId entry task ∧ task.state = .processing
  | .completed original saved => Succeeded world taskId entry saved ∧
      world.pending (pendingTaskKey original.logicalPath saved.includeAmended) = some taskId ∧
      ∀ holder, world.pending saved.pendingKey = some holder →
        holder = taskId ∨ Finished world holder
  | .released original saved => Succeeded world taskId entry saved ∧
      ∀ holder, world.pending (pendingTaskKey original.logicalPath saved.includeAmended) = some holder →
        holder = taskId
  | .published original saved => Succeeded world taskId entry saved ∧
      ∀ holder, world.pending (pendingTaskKey original.logicalPath saved.includeAmended) = some holder →
        holder = taskId
  | .failed saved => Holding world taskId entry saved ∧ saved.state = .failed
  | .retrying saved => Holding world taskId entry saved
  | .queued saved => Holding world taskId entry saved ∧ saved.state = .queued
  | .measured saved => Holding world taskId entry saved ∧ saved.state = .queued
  | .broken saved => Holding world taskId entry saved ∧ saved.state = .queued
  | .dying current => ∃ task, Holding world taskId entry task ∧
      current = { task with attempts := task.attempts + 1 }
  | .counting current => ∃ task, Holding world taskId entry task ∧ task.state = .queued ∧
      current = { task with attempts := task.attempts + 1 }
  | .buried saved => Holding world taskId entry saved ∧ saved.state = .failed
  | .finished => Dismissed world taskId entry
  | .acked => Orderly world taskId
  | .stopped => Orderly world taskId

section HandlingTurn

variable {worker : Worker} {entry : ℕ} {taskId : TaskId} {world world' : World}
  {phase phase' : HandlingPhase} {call : Call} {reply : calls.Reply call} {task saved : ReportTask}

theorem UnackedAt.same {index : ℕ} (unacked : UnackedAt world' taskId index)
    (stream : world'.stream = world.stream) : UnackedAt world taskId index := by
  unfold UnackedAt at unacked
  rwa [stream] at unacked

theorem InHand.same (hand : InHand world taskId entry) (stream : world'.stream = world.stream) :
    InHand world' taskId entry := by
  refine ⟨?_, fun other unacked => hand.alone other (unacked.same stream)⟩
  rw [stream]
  exact hand.handed

theorem Holding.same (holding : Holding world taskId entry task) (tasks : world'.tasks = world.tasks)
    (pending : world'.pending = world.pending) (stream : world'.stream = world.stream) :
    Holding world' taskId entry task :=
  ⟨holding.hand.same stream, by rw [tasks]; exact holding.stored, by rw [pending]; exact holding.pointer⟩

/-- Saving a record under the same key. -/
theorem Holding.save (holding : Holding world taskId entry task) (own : saved.taskId = taskId)
    (key : saved.pendingKey = task.pendingKey) :
    Holding (world.after (.setTask saved)) taskId entry saved := by
  refine ⟨holding.hand.same rfl, ?_, ?_⟩
  · rw [World.after_tasks, ← own]
    exact Function.update_self ..
  · rw [key]
    exact holding.pointer

/-- A failed task has lost its pointer and may be acknowledged. -/
theorem Holding.dismissed (holding : Holding world taskId entry saved) (failed : saved.state = .failed) :
    Dismissed (world.after (.deletePending saved.pendingKey)) taskId entry := by
  have hand : InHand (world.after (.deletePending saved.pendingKey)) taskId entry :=
    holding.hand.same rfl
  exact ⟨hand.handed, .inl ⟨⟨saved, holding.stored, .inr failed⟩, hand.alone⟩⟩

theorem Finished.setTask {holder : TaskId} (finished : Finished world holder) :
    holder = saved.taskId ∨ Finished (world.after (.setTask saved)) holder := by
  by_cases same : holder = saved.taskId
  · exact .inl same
  · have kept : (world.after (.setTask saved)).tasks holder = world.tasks holder := by
      rw [World.after_tasks]
      exact Function.update_of_ne same ..
    refine .inr ?_
    unfold Finished Done at finished ⊢
    rwa [kept]

/-- After the acknowledgement the task is in order. -/
theorem Dismissed.orderly (dismissed : Dismissed world taskId entry) :
    Orderly (world.after (.xack entry)) taskId := by
  obtain ⟨e, present, named, pending⟩ := dismissed.handed
  have apart : ∀ other, UnackedAt (world.after (.xack entry)) taskId other →
      UnackedAt world taskId other ∧ other ≠ entry := by
    intro other unacked
    rcases unacked.of_after with before | ⟨⟨⟩, _⟩
    refine ⟨before, ?_⟩
    rintro rfl
    obtain ⟨e', present', _, status⟩ := unacked
    rw [after_entry present, Option.some.injEq] at present'
    subst present'
    simp only [touch, Entry.ack, pending, ↓reduceIte, ne_eq, not_true_eq_false] at status
  rcases dismissed.rest with ⟨done, alone⟩ | ⟨next, task, differs, stored, queued, pointer, only⟩
  · constructor
    · intro key _ missing
      obtain ⟨task, stored, _⟩ := done
      cases missing.symm.trans stored
    · intro index unacked
      obtain ⟨before, other⟩ := apart index unacked
      exact absurd (alone index before) other
  · have last : ∀ index, UnackedAt (world.after (.xack entry)) taskId index → index = next := by
      intro index unacked
      obtain ⟨before, other⟩ := apart index unacked
      exact (only index before).resolve_left other
    constructor
    · intro key _ missing
      cases missing.symm.trans stored
    · intro index unacked
      refine ⟨fun other unacked' => ?_, task, stored, queued, pointer⟩
      rw [last other unacked', last index unacked]

/-- The entry of a retry is the one the task waits for. -/
theorem Holding.enqueued (holding : Holding world taskId entry task) (queued : task.state = .queued) :
    Dismissed (world.after (.xadd taskId)) taskId entry := by
  obtain ⟨e, present, named, pending⟩ := holding.hand.handed
  have inside := (List.getElem?_eq_some_iff.mp present).1
  refine ⟨⟨e, after_entry present, named, pending⟩, .inr ⟨world.stream.length, task, by omega,
    holding.stored, queued, holding.pointer, fun other unacked => ?_⟩⟩
  rcases unacked.of_after with before | ⟨_, same⟩
  · exact .inl (holding.hand.alone other before)
  · exact .inr same

/-- A save that leaves the entry as it is keeps the task waiting. -/
theorem Holding.orderly (holding : Holding world taskId entry task) (queued : task.state = .queued) :
    Orderly world taskId := by
  constructor
  · intro key _ missing
    cases missing.symm.trans holding.stored
  · intro index unacked
    refine ⟨fun other unacked' => ?_, task, holding.stored, queued, holding.pointer⟩
    rw [holding.hand.alone other unacked', holding.hand.alone index unacked]

/-- What the save of COMPLETED finds under the resolved key. -/
def HoldersSpared (world : World) (saved : ReportTask) : Prop :=
  ∀ stored, world.tasks saved.taskId = some stored → stored.identity.year = latestYearSentinel →
    ∀ holder, world.pending saved.pendingKey = some holder →
      holder = saved.taskId ∨ Finished world holder

/-- Who holds the key under which the task completes is the task itself, or is finished. -/
theorem Holding.holders {selection : Selection} {holder : TaskId}
    (holding : Holding world task.taskId entry task) (selects : Selects worker task selection)
    (spared : HoldersSpared world (completedRecord task selection))
    (pointer : world.pending (completedRecord task selection).pendingKey = some holder) :
    holder = task.taskId ∨ Finished world holder := by
  by_cases latest : task.identity.year = latestYearSentinel
  · exact spared task holding.stored latest holder pointer
  · -- An explicit year is kept, so the key is the task's own.
    have key : (completedRecord task selection).pendingKey = task.pendingKey := by
      rw [ReportTask.pendingKey, ReportTask.pendingKey, completedRecord, selects.identity_eq latest]
    rw [key, holding.pointer, Option.some.injEq] at pointer
    exact .inl pointer.symm

theorem Holding.completed {selection : Selection} (holding : Holding world task.taskId entry task)
    (holders : ∀ holder, world.pending (completedRecord task selection).pendingKey = some holder →
      holder = task.taskId ∨ Finished world holder) :
    HandlingTurn task.taskId entry (world.after (.setTask (completedRecord task selection)))
      (.completed task.identity (completedRecord task selection)) := by
  refine ⟨⟨holding.hand.same rfl, ?_, rfl⟩, holding.pointer, fun holder pointer => ?_⟩
  · rw [World.after_tasks]
    exact Function.update_self ..
  · rcases holders holder pointer with same | finished
    · exact .inl same
    · show holder = (completedRecord task selection).taskId ∨ _
      exact finished.setTask

/-- A handling that has its turn moves on in order. -/
theorem HandlingTurn.step (turn : HandlingTurn taskId entry world phase) (keyed : world.Keyed)
    (step : HandlingStep worker entry taskId phase call reply phase')
    (served : Reliable call world reply world')
    (spared : ∀ saved, call = .setTask saved → saved.state = .completed → HoldersSpared world saved) :
    HandlingTurn taskId entry world' phase' := by
  obtain ⟨⟨outside, replied⟩, rfl⟩ := served
  cases step with
  | missed =>
    obtain ⟨task, holding, _⟩ := turn
    cases holding.stored.symm.trans (Except.ok.inj replied).symm
  | load task =>
    obtain ⟨task', holding, queued⟩ := turn
    cases holding.stored.symm.trans (Except.ok.inj replied).symm
    simp only [HandlingPhase.entering, queued]
    exact ⟨holding, queued⟩
  | unread => cases replied
  | start task saved reply legal result =>
    cases replied
    have own : task.taskId = taskId := keyed taskId task turn.1.stored
    subst result
    exact ⟨turn.1.save own rfl, rfl⟩
  | pipeline task stored _ _ outside =>
    obtain ⟨tasks, pending, _, stream⟩ := outside.after world
    exact ⟨turn.1.same tasks pending stream, turn.2⟩
  | complete task saved stored selection reply legal selects present result =>
    cases replied
    have own : task.taskId = taskId := keyed taskId task turn.1.stored
    subst own result
    exact turn.1.completed fun holder => turn.1.holders selects (spared _ rfl rfl)
  | release original saved =>
    cases replied
    refine ⟨⟨turn.1.hand.same rfl, turn.1.stored, turn.1.completed⟩, fun holder pointer => ?_⟩
    rw [World.after_pending] at pointer
    by_cases same : pendingTaskKey original.logicalPath saved.includeAmended = saved.pendingKey
    · simp only [same, Function.update_self, reduceCtorEq] at pointer
    · simp only [Function.update_of_ne same] at pointer
      exact Option.some.inj (pointer.symm.trans turn.2.1)
  | publish original saved filing path filed stored =>
    cases replied
    have succeeded : Succeeded (world.after (.hsetLogical
        (logicalKey saved.identity.logicalPath saved.includeAmended)
        ⟨filing.accessionNumber, path, filing.cik⟩)) taskId entry saved :=
      ⟨turn.1.hand.same rfl, turn.1.stored, turn.1.completed⟩
    unfold HandlingPhase.bookkept
    split_ifs
    · exact ⟨succeeded, turn.2⟩
    · exact ⟨succeeded.hand.handed,
        .inl ⟨⟨saved, succeeded.stored, .inl succeeded.completed⟩, succeeded.hand.alone⟩⟩
  | unpin original saved =>
    have hand : InHand (world.after
        (.deletePending (pendingTaskKey original.logicalPath saved.includeAmended))) taskId entry :=
      turn.1.hand.same rfl
    exact ⟨hand.handed, .inl ⟨⟨saved, turn.1.stored, .inl turn.1.completed⟩, hand.alone⟩⟩
  | fail task object saved stored message spent reply legal attempted budget result =>
    cases replied
    have own : task.taskId = taskId := keyed taskId task turn.1.stored
    obtain rfl := attempted.eq_of_processing turn.2
    subst result
    exact ⟨turn.1.save own rfl, rfl⟩
  | clear saved =>
    cases replied
    exact turn.1.dismissed turn.2
  | retry task object saved stored message reply legal attempted budget result =>
    cases replied
    have own : task.taskId = taskId := keyed taskId task turn.1.stored
    obtain rfl := attempted.eq_of_processing turn.2
    subst result
    exact turn.1.save own rfl
  | requeue saved =>
    cases replied
    have own : saved.taskId = taskId := keyed taskId saved turn.stored
    exact ⟨turn.save own rfl, rfl⟩
  | measure => exact turn
  | overfull => exact turn
  | enqueue saved =>
    cases replied
    have own : saved.taskId = taskId := keyed taskId saved turn.1.stored
    subst own
    exact turn.1.enqueued turn.2
  | reread _ object read interrupted =>
    cases interrupted with
    | running task object stored spent attempted irregular => exact absurd turn.2 irregular
    | broken saved spent =>
      obtain rfl : read = some saved := (Except.ok.inj replied).trans turn.1.stored
      have alive : saved.state ≠ .completed := by
        rw [turn.2]
        rintro ⟨⟩
      simp only [Option.getD_some, HandlingPhase.recovering, alive, ↓reduceIte]
      split_ifs
      · exact ⟨saved, turn.1, rfl⟩
      · exact ⟨saved, turn.1, turn.2, rfl⟩
  | unrecovered => cases replied
  | bury current saved message reply alive result =>
    cases replied
    obtain ⟨task, holding, rfl⟩ := turn
    have own : task.taskId = taskId := keyed taskId task holding.stored
    subst result
    exact ⟨holding.save own rfl, rfl⟩
  | forget saved =>
    cases replied
    exact turn.1.dismissed turn.2
  | count current =>
    obtain ⟨task, holding, queued, rfl⟩ := turn
    have own : task.taskId = taskId := keyed taskId task holding.stored
    have counted : Holding (world.after (.setTask { task with attempts := task.attempts + 1 })) taskId
        entry { task with attempts := task.attempts + 1 } :=
      holding.save own rfl
    exact counted.orderly queued
  | ack =>
    cases replied
    exact turn.orderly
  | remove =>
    refine ⟨turn.stored, fun index unacked => ?_⟩
    rcases unacked.of_after with before | ⟨⟨⟩, _⟩
    have waiting := turn.waiting index before
    refine ⟨fun other unacked' => ?_, waiting.queued⟩
    rcases unacked'.of_after with before' | ⟨⟨⟩, _⟩
    exact waiting.alone other before'

/-- The pointer a handling deletes holds its own task or a finished one. -/
theorem HandlingTurn.releases (turn : HandlingTurn taskId entry world phase) {key : String}
    (pointer : phase.pointer? = some key) {holder : TaskId} (held : world.pending key = some holder) :
    holder = taskId ∨ Finished world holder := by
  cases phase with
  | completed original saved =>
    cases pointer
    exact turn.2.2 holder held
  | published original saved =>
    cases pointer
    exact .inl (turn.2 holder held)
  | failed saved =>
    cases pointer
    exact .inl (Option.some.inj (held.symm.trans turn.1.pointer))
  | buried saved =>
    cases pointer
    exact .inl (Option.some.inj (held.symm.trans turn.1.pointer))
  | _ => cases pointer

end HandlingTurn

end Quartr.Soundness
