import Quartr.Model.Companies
import Quartr.Model.WorkerLoop

/-! # One batch, message by message

`Batch` watches one worker through one `_handle_batch`: the stage of its loop, the store and the files that
its handlings share, and what each message's handling has been replied so far. A step is one call of one of
the handlings under way.
-/

namespace Quartr.Model

open Quartr.Machine

/-- What a handling depends on besides the store and the files: what SEC and the renderer answer, which does
not depend on when they are asked, and how each of its calls comes out, by the number of calls before it. -/
structure Circumstance where
  outside : Outside
  outcome : ℕ → CallOutcome

namespace Circumstance

/-- The call number `made` comes out as it does here. -/
def serve (circumstance : Circumstance) (made : ℕ) (call : Call) (world : World) : calls.Reply call × World :=
  world.answerAs circumstance.outside (circumstance.outcome made) call

/-- The same, but one call raises, with or without having taken effect. -/
def raiseAt (circumstance : Circumstance) (position : ℕ) (error : CallError) (effect : Bool) : Circumstance :=
  { circumstance with outcome := Function.update circumstance.outcome position (.raised error effect) }

/-- Every Redis command and every file operation takes effect and is answered. -/
def Calm (circumstance : Circumstance) : Prop := ∀ made, circumstance.outcome made = .answered

end Circumstance

/-- Where the worker stands, what the handlings share, and the calls made so far for each entry. -/
structure Batch where
  stage : Stage
  world : World
  log : ℕ → List (Σ call, calls.Reply call)

namespace Batch

variable (loop : Loop) (worker : Worker)

def start (now : ℕ) (messages : List StreamEntry) (world : World) : Batch :=
  ⟨loop.handleBatch worker now messages, world, fun _ => []⟩

/-- A call of one of the handlings under way. -/
inductive Step (circumstances : ℕ → Circumstance) : Batch → ℕ → Batch → Prop
  | reply {batch : Batch} {before after : List Handling} {entry : StreamEntry} {started : ℕ} {call : Call}
      {next : calls.Reply call → Program calls (Except Err Unit × Unit)} {waiting : List StreamEntry}
      {reply : calls.Reply call} {world : World} (now : ℕ)
      (at_ : batch.stage = .batch (before ++ ⟨entry, started, .await call next⟩ :: after) waiting)
      (serves : (circumstances entry.id).serve (batch.log entry.id).length call batch.world = (reply, world)) :
      Step circumstances batch entry.id
        ⟨loop.handled worker now before ⟨entry, started, next reply⟩ after waiting, world,
          Function.update batch.log entry.id (batch.log entry.id ++ [⟨call, reply⟩])⟩

end Batch

end Quartr.Model
