import Quartr.Machine.Parties
import Quartr.Model.Worker

/-! # Several tasks in hand at once

`_handle_batch` gathers the handlings of its messages, and several workers share one store: a `Course` is
one call of `process_task` with all it depends on besides the store, and a run interleaves the single
calls of several of them.
-/

namespace Quartr.Model

open Quartr.Machine

/-- How a call comes out: it takes effect and is answered, or it raises, with or without effect. -/
inductive CallOutcome where
  | answered
  | raised (error : CallError) (effect : Bool)

/-- Whether the call takes effect. -/
def CallOutcome.effect : CallOutcome → Bool
  | .answered => true
  | .raised _ effect => effect

def World.answerAs (outside : Outside) (outcome : CallOutcome) (call : Call) (world : World) :
    calls.Reply call × World :=
  match outcome with
  | .answered => world.answer outside call
  | .raised error effect => (.error error, if effect then world.after call else world)

theorem World.answerAs_world (world : World) (outside : Outside) (outcome : CallOutcome) (call : Call) :
    (world.answerAs outside outcome call).2 = if outcome.effect then world.after call else world := by
  cases outcome <;> rfl

/-- One call of `process_task`: what SEC and the renderer answer, which does not depend on when they are
asked, and how each of its calls comes out, by the number of calls before it. -/
structure Course where
  worker : Worker
  task : ReportTask
  outside : Outside
  outcome : ℕ → CallOutcome

/-- The world, and how many calls each of the courses has made. -/
structure Tally (Party : Type) where
  world : World
  made : Party → ℕ

namespace Course

variable {Party : Type} [DecidableEq Party] (course : Party → Course)

abbrev Company (Party : Type) : Type :=
  Parties calls (Tally Party) Party (Except Err Unit × ReportTask)

def answer : Parties.Answer calls (Tally Party) Party := fun party call tally =>
  let served := tally.world.answerAs (course party).outside ((course party).outcome (tally.made party)) call
  (served.1, ⟨served.2, Function.update tally.made party (tally.made party + 1)⟩)

def start (world : World) : Company Party :=
  ⟨⟨world, fun _ => 0⟩, fun party => (course party).worker.processTask (course party).task⟩

/-- One Redis command, request or file operation of one of the courses. -/
abbrev Step : Company Party → Party → Company Party → Prop := Parties.Step (answer course)

end Course

def Call.asksDepth : Call → Bool
  | .xlen => true
  | _ => false

/-- The queue is not at capacity when its depth is asked for. -/
def Course.Roomy {Party : Type} (settings : Settings) (company : Course.Company Party) (party : Party) : Prop :=
  (company.control party).call?.any Call.asksDepth = true →
    company.world.world.depth < settings.maxQueueDepth

instance {Party : Type} (settings : Settings) (company : Course.Company Party) (party : Party) :
    Decidable (Course.Roomy settings company party) :=
  inferInstanceAs (Decidable (_ → _))

end Quartr.Model
