import Quartr.Machine.Worlds
import Quartr.Soundness.ServicePhases

/-! # Entries under another number

A handling uses the number of its entry for XACK and XDEL and for nothing else. `Renumbers` relates two
programs that make the same calls but for that number; with it a handling on a stream whose entries are counted
from one can be followed by a handling on a stream whose entries are counted from zero.
-/

namespace Quartr.Model

/-- The entry a call acknowledges or removes. -/
def Call.removed? : Call → Option ℕ
  | .xack entry => some entry
  | .xdel entry => some entry
  | _ => none

end Quartr.Model

namespace Quartr.Soundness

open Quartr.Machine Quartr.Model
open Quartr.Machine.Coroutine (Follows follows_bind)

variable {α β : Type} {number index : ℕ}

/-- The program acknowledges and removes nothing. -/
abbrev LeavesEntries (program : Program calls α) : Prop := program.Only fun call : Call => call.removed? = none

/-- The programs make the same calls, but the first has one number for its entry and the second another. -/
inductive Renumbers (number index : ℕ) : Program calls α → Program calls α → Prop
  | done (value : α) : Renumbers number index (.done value) (.done value)
  | call {call : Call} {next next' : calls.Reply call → Program calls α} (free : call.removed? = none)
      (rest : ∀ reply, Renumbers number index (next reply) (next' reply)) :
      Renumbers number index (.await call next) (.await call next')
  | ack {next next' : calls.Reply (.xack number) → Program calls α}
      (rest : ∀ reply, Renumbers number index (next reply) (next' reply)) :
      Renumbers number index (.await (.xack number) next) (.await (.xack index) next')
  | remove {next next' : calls.Reply (.xdel number) → Program calls α}
      (rest : ∀ reply, Renumbers number index (next reply) (next' reply)) :
      Renumbers number index (.await (.xdel number) next) (.await (.xdel index) next')

section Rules

theorem Renumbers.bind {program program' : Program calls α} {rest rest' : α → Program calls β}
    (renumbers : Renumbers number index program program')
    (continues : ∀ value, Renumbers number index (rest value) (rest' value)) :
    Renumbers number index (program.bind rest) (program'.bind rest') := by
  induction renumbers with
  | done value => exact continues value
  | call free _ ih => exact .call free ih
  | ack _ ih => exact .ack ih
  | remove _ ih => exact .remove ih

/-- A program that concerns no entry may have any number for it. -/
theorem LeavesEntries.renumbers {program : Program calls α} (leaves : LeavesEntries program) :
    Renumbers number index program program := by
  induction program with
  | done value => exact .done value
  | await call next ih => exact .call (leaves (.error (.other ""))).1 fun reply => ih reply (leaves reply).2

variable {ε σ τ : Type} {object : σ}

theorem renumbers_call {c : Call} (free : c.removed? = none) :
    Renumbers number index ((call c : Async σ c.Answer) object) ((call c : Async σ c.Answer) object) := by
  refine .call free fun reply => ?_
  cases reply <;> exact .done _

theorem renumbers_bind {first first' : Coroutine calls ε σ α} {rest rest' : α → Coroutine calls ε σ β}
    (renumbers : Renumbers number index (first object) (first' object))
    (continues : ∀ value object, Renumbers number index (rest value object) (rest' value object)) :
    Renumbers number index ((first >>= rest) object) ((first' >>= rest') object) := by
  apply renumbers.bind
  rintro ⟨error | value, object'⟩
  · exact .done _
  · exact continues value object'

theorem renumbers_tryCatch {body body' : Coroutine calls ε σ α} {handler handler' : ε → Coroutine calls ε σ α}
    (renumbers : Renumbers number index (body object) (body' object))
    (handles : ∀ error object, Renumbers number index (handler error object) (handler' error object)) :
    Renumbers number index ((tryCatch body handler : Coroutine calls ε σ α) object)
      ((tryCatch body' handler' : Coroutine calls ε σ α) object) := by
  apply renumbers.bind
  rintro ⟨error | value, object'⟩
  · exact handles error object'
  · exact .done _

theorem renumbers_own {inner : τ} {body body' : Coroutine calls ε τ α}
    (renumbers : Renumbers number index (body inner) (body' inner)) :
    Renumbers number index ((Coroutine.own inner body : Coroutine calls ε σ (α × τ)) object)
      ((Coroutine.own inner body' : Coroutine calls ε σ (α × τ)) object) := by
  apply renumbers.bind
  rintro ⟨error | value, object'⟩ <;> exact .done _

end Rules

/-! ### The code -/

section Handling

variable {worker : Worker} {taskId : TaskId} {phase phase' : HandlingPhase} {call : Call}
  {reply : calls.Reply call}

/-- A handling acknowledges and removes its own entry only. -/
theorem HandlingStep.removed (step : HandlingStep worker number taskId phase call reply phase') :
    call.removed? = none ∨ call.removed? = some number := by
  cases step with
  | pipeline task stored call reply outside => cases call <;> first | exact .inl rfl | exact outside.elim
  | ack => exact .inr rfl
  | remove => exact .inr rfl
  | _ => exact .inl rfl

/-- What goes through the phases of handlings of two different entries concerns neither of them. -/
theorem leavesEntries_of_follows {program : Program calls α} {post post' : α → HandlingPhase → Prop}
    (differ : number ≠ index) (follows : program.Follows (HandlingStep worker number taskId) post phase)
    (follows' : program.Follows (HandlingStep worker index taskId) post' phase') : LeavesEntries program := by
  induction program generalizing phase phase' with
  | done value => trivial
  | await call next ih =>
    intro reply
    obtain ⟨mid, step, rest⟩ := follows reply
    obtain ⟨mid', step', rest'⟩ := follows' reply
    refine ⟨?_, ih reply rest rest'⟩
    rcases step.removed with free | own
    · exact free
    · rcases step'.removed with free | own'
      · exact free
      · exact absurd (Option.some.inj (own.symm.trans own')) differ

theorem processTask_renumbers (worker : Worker) (task : ReportTask) :
    Renumbers number index (worker.processTask task) (worker.processTask task) := by
  have first : Follows (HandlingStep worker 0 "") worker.processTask task (.entering task) (Processed worker) :=
    processTask_follows
  have second : Follows (HandlingStep worker 1 "") worker.processTask task (.entering task) (Processed worker) :=
    processTask_follows
  exact (leavesEntries_of_follows Nat.zero_ne_one first second).renumbers

theorem ackAndRemove_renumbers {σ : Type} (object : σ) :
    Renumbers number index (Queue.ackAndRemove number object) (Queue.ackAndRemove index object) := by
  apply renumbers_bind
  · refine .ack fun reply => ?_
    cases reply <;> exact .done _
  · intro _ object
    refine .remove fun reply => ?_
    cases reply <;> exact .done _

theorem save_renumbers (task : ReportTask) :
    Renumbers number index (Repository.save task) (Repository.save task) := by
  apply renumbers_bind
  · exact .done _
  · exact fun _ object => renumbers_call rfl

theorem forceFail_renumbers (message : String) (task : ReportTask) :
    Renumbers number index (Repository.forceFail message task) (Repository.forceFail message task) := by
  unfold Repository.forceFail
  apply renumbers_bind
  · exact .done _
  · intro current object
    by_cases completed : current.state = .completed
    · simp only [completed, ↓reduceIte]
      exact .done _
    · simp only [completed, ↓reduceIte]
      apply renumbers_bind
      · exact .done _
      · intro _ object
        apply renumbers_bind
        · exact save_renumbers object
        · intro _ object
          apply renumbers_bind
          · exact .done _
          · intro _ object
            apply renumbers_bind
            · exact .done _
            · exact fun _ object => renumbers_call rfl

theorem recoverFromUnhandled_renumbers {σ : Type} (object : σ) (task : ReportTask) (exc : Err) :
    Renumbers number index (worker.recoverFromUnhandled taskId task number exc object)
      (worker.recoverFromUnhandled taskId task index exc object) := by
  unfold Worker.recoverFromUnhandled
  apply renumbers_bind
  · exact renumbers_call rfl
  · intro read object
    by_cases completed : (read.getD task).state = .completed
    · simp only [completed, ↓reduceIte]
      exact ackAndRemove_renumbers object
    · simp only [completed, ↓reduceIte]
      by_cases spent : worker.settings.retryMaxAttempts ≤ (read.getD task).attempts + 1
      · simp only [spent, ↓reduceIte]
        apply renumbers_bind
        · exact renumbers_own (forceFail_renumbers _ _)
        · exact fun _ object => ackAndRemove_renumbers object
      · simp only [spent, ↓reduceIte]
        apply renumbers_bind
        · exact renumbers_own (save_renumbers _)
        · exact fun _ _ => .done _

theorem handleTask_renumbers (task : ReportTask) :
    Renumbers number index (worker.handleTask taskId number task) (worker.handleTask taskId index task) := by
  unfold Worker.handleTask
  apply renumbers_bind
  · apply renumbers_tryCatch
    · apply renumbers_bind
      · exact processTask_renumbers worker task
      · exact fun _ _ => .done _
    · intro exc object
      apply renumbers_bind
      · exact .done _
      · intro current object
        apply renumbers_bind
        · apply renumbers_tryCatch
          · exact recoverFromUnhandled_renumbers object current exc
          · exact fun _ _ => .done _
        · exact fun _ _ => .done _
  · intro handled object
    cases handled with
    | false => exact .done _
    | true => exact ackAndRemove_renumbers object

/-- `_handle_message` of one entry and of another with the same fields. -/
theorem handleMessage_renumbers (worker : Worker) (fields : List (String × String)) :
    Renumbers number index (worker.handleMessage number fields ()) (worker.handleMessage index fields ()) := by
  unfold Worker.handleMessage
  cases fieldsTaskId fields with
  | none => exact ackAndRemove_renumbers ()
  | some taskId =>
    by_cases unnamed : taskId = ""
    · simp only [unnamed, ↓reduceIte]
      exact ackAndRemove_renumbers ()
    · simp only [unnamed, ↓reduceIte]
      apply renumbers_bind
      · exact renumbers_call rfl
      · intro read object
        cases read with
        | none => exact ackAndRemove_renumbers object
        | some task =>
          apply renumbers_bind
          · exact renumbers_own (handleTask_renumbers task)
          · exact fun _ _ => .done _

end Handling

/-- A request acknowledges and removes nothing. -/
theorem request_leavesEntries (settings : Settings) (uuid : ℕ → TaskId) (id : ℕ) (cikMapping : CikMapping)
    (payload : CreateReportRequest) :
    LeavesEntries (Service.body settings uuid id (.request cikMapping payload)) := by
  have follows := (@service_refines settings uuid Faulty).follows id (.request cikMapping payload)
  apply follows.only
  intro phase call reply phase' step
  cases step with
  | request identified step =>
    rename_i phase _
    have next := step.call?_eq
    cases phase <;> cases next <;> rfl

end Quartr.Soundness
