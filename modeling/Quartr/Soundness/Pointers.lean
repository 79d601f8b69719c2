import Quartr.Soundness.Acceptance
import Quartr.Soundness.Effects
import Quartr.Soundness.ServicePhases

/-! # Who writes the dedup pointers

Requests set pointers and withdraw them when they are refused; handlings only delete. The lemmas
say which pointer a step writes, by the phase it is taken in.
-/

namespace Quartr.Soundness

open Quartr.Machine Quartr.Model

/-- The pointer a handling deletes next. -/
def HandlingPhase.pointer? : HandlingPhase → Option String
  | .completed _ saved => some saved.pendingKey
  | .published original saved => some (pendingTaskKey original.logicalPath saved.includeAmended)
  | .failed saved => some saved.pendingKey
  | .buried saved => some saved.pendingKey
  | _ => none

section Steps

variable {worker : Worker} {entry : ℕ} {taskId : TaskId} {phase phase' : HandlingPhase} {call : Call}
  {reply : calls.Reply call} {world : World}

theorem HandlingStep.deletes {key : String} {reply : calls.Reply (.deletePending key)}
    (step : HandlingStep worker entry taskId phase (.deletePending key) reply phase') :
    phase.pointer? = some key := by
  cases step with
  | pipeline _ _ _ _ outside => exact outside.elim
  | _ => rfl

/-- A handling sets no pointer. -/
theorem HandlingStep.pending (step : HandlingStep worker entry taskId phase call reply phase')
    (kept : ∀ key, call ≠ .deletePending key) : (world.after call).pending = world.pending := by
  rw [World.after_pending]
  cases call with
  | deletePending key => exact absurd rfl (kept key)
  | setPending =>
    cases step with
    | pipeline _ _ _ _ outside => exact outside.elim
  | setPendingNx =>
    cases step with
    | pipeline _ _ _ _ outside => exact outside.elim
  | _ => rfl

/-- Whatever is replied, a pointer that is there after a step of a handling was there before. -/
theorem HandlingStep.fewer (step : HandlingStep worker entry taskId phase call reply phase')
    {world' : World} (served : Faulty call world reply world') {key : String} {holder : TaskId}
    (held : world'.pending key = some holder) : world.pending key = some holder := by
  rcases served_world served with rfl | rfl
  · exact held
  · by_cases deletes : ∃ other, call = .deletePending other
    · obtain ⟨other, rfl⟩ := deletes
      rw [World.after_pending] at held
      by_cases same : key = other
      · subst same
        simp only [Function.update_self, reduceCtorEq] at held
      · simp only [Function.update_of_ne same] at held
        exact held
    · rwa [step.pending fun other same => deletes ⟨other, same⟩] at held

/-- A request gives a pointer to its own task only, before it has saved a record. -/
theorem RequestStep.fewer {ticket : Ticket} {before after : RequestPhase}
    (step : RequestStep ticket before call reply after) {world' : World}
    (served : Faulty call world reply world') {key : String} {holder : TaskId}
    (held : world'.pending key = some holder) :
    world.pending key = some holder ∨ holder = ticket.taskId ∧ Recordless before ∧
      world'.tasks = world.tasks ∧ world'.stream = world.stream := by
  have next := step.call?_eq
  rcases served_world served with rfl | rfl
  · exact .inl held
  · rw [World.after_pending] at held
    cases before with
    | registering =>
      cases next
      dsimp only at held
      split_ifs at held
      · by_cases same : key = ticket.pendingKey
        · subst same
          rw [Function.update_self, Option.some.injEq] at held
          exact .inr ⟨held.symm, .inl (by decide), rfl, rfl⟩
        · exact .inl ((Function.update_of_ne same ..).symm.trans held)
      · exact .inl held
    | reclaiming =>
      cases next
      by_cases same : key = ticket.pendingKey
      · subst same
        simp only [Function.update_self, Option.some.injEq] at held
        exact .inr ⟨held.symm, .inl (by decide), rfl, rfl⟩
      · exact .inl ((Function.update_of_ne same ..).symm.trans held)
    | rejecting =>
      cases next
      by_cases same : key = ticket.pendingKey
      · subst same
        simp only [Function.update_self, reduceCtorEq] at held
      · exact .inl ((Function.update_of_ne same ..).symm.trans held)
    | ended answer => cases next
    | _ =>
      cases next
      exact .inl held

/-- The pipeline reaches neither Redis nor the stream. -/
theorem PipelineCall.after (outside : PipelineCall call) (world : World) :
    (world.after call).tasks = world.tasks ∧ (world.after call).pending = world.pending ∧
      (world.after call).logical = world.logical ∧ (world.after call).stream = world.stream := by
  cases call <;> first | exact outside.elim | exact ⟨rfl, rfl, rfl, rfl⟩

/-- A pointer that exists survives a command unless it is deleted or overwritten. -/
theorem pending_after {key : String} {taskId : TaskId} (held : world.pending key = some taskId)
    (kept : call ≠ .deletePending key) (unset : ∀ other, call ≠ .setPending key other) :
    (world.after call).pending key = some taskId := by
  rw [World.after_pending]
  cases call with
  | deletePending other =>
    have apart : key ≠ other := fun same => kept (congrArg _ same.symm)
    exact (Function.update_of_ne apart ..).trans held
  | setPending other named =>
    have apart : key ≠ other := fun same => unset named (same ▸ rfl)
    exact (Function.update_of_ne apart ..).trans held
  | setPendingNx other named =>
    by_cases same : key = other
    · subst same
      simp only [held, Option.isNone_some, Bool.false_eq_true, ↓reduceIte]
    · dsimp only
      split_ifs
      · exact (Function.update_of_ne same ..).trans held
      · exact held
  | _ => exact held

/-- A published artifact is never withdrawn. -/
theorem logical_after {key : String} (published : world.logical key ≠ none) :
    (world.after call).logical key ≠ none := by
  rw [World.after_logical]
  cases call with
  | hsetLogical other artifact =>
    by_cases same : key = other
    · subst same
      simp only [Function.update_self, ne_eq, reduceCtorEq, not_false_eq_true]
    · simp only [Function.update_of_ne same]
      exact published
  | _ => exact published

/-- A task with an explicit year keeps its identity through the pipeline. -/
theorem Selects.identity_eq {task : ReportTask} {selection : Selection}
    (selects : Selects worker task selection) (explicit : task.identity.year ≠ latestYearSentinel) :
    selection.identity = task.identity := by
  obtain ⟨company, payload, resolved⟩ := selects
  obtain ⟨_, _, _, _, identity, _⟩ := worker.resolveFiling_ok resolved
  rw [identity, if_neg explicit]

end Steps

end Quartr.Soundness
