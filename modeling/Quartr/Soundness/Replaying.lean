import Quartr.Machine.Reaching
import Quartr.Model.Service
import Quartr.Soundness.HandlingPhases

/-! # A handling replayed on its replies

The replies a process has received lead from its body to what is left of it. So the call it makes next can be
read off the code: `Opens` says which record a piece of it saves first.
-/

namespace Quartr.Soundness

open Quartr.Machine Quartr.Model

/-- The first call of the program saves this record. -/
def Opens {α : Type} (program : Program calls α) (saved : ReportTask) : Prop :=
  ∃ next, program = .await (.setTask saved) next

theorem Opens.bind {α β : Type} {program : Program calls α} {saved : ReportTask}
    (opens : Opens program saved) (rest : α → Program calls β) : Opens (program.bind rest) saved := by
  obtain ⟨next, rfl⟩ := opens
  exact ⟨_, rfl⟩

section Transition

variable {task : ReportTask} {target : ReportState} {updates : ReportTask → ReportTask}

theorem transition_illegal (illegal : canTransition task.state target = false) :
    Repository.transition target updates task =
      .done (.error (.invalidStateTransition task.state target), task) := by
  show (Coroutine.lift (assertTransition task.state target) >>= _) task = _
  simp only [assertTransition, illegal, Bool.false_eq_true, ↓reduceIte]
  rfl

theorem transition_opens (legal : canTransition task.state target = true) :
    Opens (Repository.transition target updates task) (updates { task with state := target }) := by
  show Opens ((Coroutine.lift (assertTransition task.state target) >>= _) task) _
  simp only [assertTransition, legal, ↓reduceIte]
  exact ⟨_, rfl⟩

end Transition

/-- The pipeline leaves the task in hand as it is. -/
theorem producePdf_object {worker : Worker} {task : ReportTask} {value : Except Err Selection × ReportTask}
    {log : List (Σ call, calls.Reply call)} (ended : (worker.producePdf task).Reaches log (.done value)) :
    value.2 = task := by
  obtain ⟨_, holds⟩ := ended.follows producePdf_follows
  exact holds.1

/-- In every run of the service each process is where its replies have led it. -/
theorem replayed_run {settings : Settings} {uuid : ℕ → TaskId} {world : World} {config : ServiceConfig}
    {events : List ServiceEvent}
    (path : Path (service settings uuid Faulty).Step (.idle world) events config) :
    config.Replayed (service settings uuid Faulty) := by
  apply path.invariant
  · exact fun _ _ _ step replayed => step.replayed rfl replayed
  · exact fun _ _ present => Config.idle_absent present

end Quartr.Soundness
