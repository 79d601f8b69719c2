import Mathlib.Data.Nat.Notation
import Mathlib.Logic.Function.Basic

/-! # Programs that await calls

`Program sig α` is the proof-free tree of an asynchronous function: it either returns or awaits
one call and continues with the reply, which is an answer or an error. `Coroutine` adds what an
imperative function body has besides its awaits: a local object it mutates and exceptions that
leave the mutations made so far in place. Nothing here fixes which calls exist or what they do.
-/

namespace Quartr.Machine

/-- The calls a program may await, what each one answers, and what a call may raise. -/
structure Signature where
  Call : Type
  Answer : Call → Type
  Error : Type

/-- The reply to a call is its answer or the error it raised. -/
abbrev Signature.Reply (sig : Signature) (call : sig.Call) : Type :=
  Except sig.Error (sig.Answer call)

/-- A function suspended at its next await, with a continuation for every reply. -/
inductive Program (sig : Signature) (α : Type) : Type where
  | done (value : α)
  | await (call : sig.Call) (next : sig.Reply call → Program sig α)

namespace Program

variable {sig : Signature} {World α β γ : Type}

/-- Continue a program with what it returns. -/
def bind : Program sig α → (α → Program sig β) → Program sig β
  | .done value, rest => rest value
  | .await call next, rest => .await call fun reply => (next reply).bind rest

/-- The call a program is suspended at. -/
def call? : Program sig α → Option sig.Call
  | .done _ => none
  | .await call _ => some call

/-- Execution by one party alone, against a function that answers every call. -/
def run (answer : (call : sig.Call) → World → sig.Reply call × World) :
    Program sig α → World → α × World
  | .done value, world => (value, world)
  | .await call next, world =>
    (next (answer call world).1).run answer (answer call world).2

theorem bind_assoc (program : Program sig α) (rest : α → Program sig β) (last : β → Program sig γ) :
    (program.bind rest).bind last = program.bind fun value => (rest value).bind last := by
  induction program with
  | done value => rfl
  | await call next ih => exact congrArg (Program.await call) (funext ih)

/-- Undisturbed execution composes at the value returned in between. -/
theorem run_bind (answer : (call : sig.Call) → World → sig.Reply call × World)
    (program : Program sig α) (rest : α → Program sig β) (world : World) :
    (program.bind rest).run answer world =
      (rest (program.run answer world).1).run answer (program.run answer world).2 := by
  induction program generalizing world with
  | done value => rfl
  | await call next ih => exact ih _ _

end Program

/-- A function body with a local object: every exit, by value or by exception, keeps the
mutations made before it. -/
def Coroutine (sig : Signature) (ε σ α : Type) : Type := σ → Program sig (Except ε α × σ)

namespace Coroutine

variable {sig : Signature} {ε σ τ α β : Type}

protected def pure (value : α) : Coroutine sig ε σ α := fun object => .done (.ok value, object)

protected def bind (first : Coroutine sig ε σ α) (rest : α → Coroutine sig ε σ β) :
    Coroutine sig ε σ β := fun object =>
  (first object).bind fun
    | (.ok value, object') => rest value object'
    | (.error error, object') => .done (.error error, object')

/-- An exception handler sees the object as the raising code left it. -/
protected def tryCatch (body : Coroutine sig ε σ α) (handler : ε → Coroutine sig ε σ α) :
    Coroutine sig ε σ α := fun object =>
  (body object).bind fun
    | (.ok value, object') => .done (.ok value, object')
    | (.error error, object') => handler error object'

instance : Monad (Coroutine sig ε σ) where
  pure := Coroutine.pure
  bind := Coroutine.bind

instance : MonadExceptOf ε (Coroutine sig ε σ) where
  throw error := fun object => .done (.error error, object)
  tryCatch := Coroutine.tryCatch

instance : MonadStateOf σ (Coroutine sig ε σ) where
  get := fun object => .done (.ok object, object)
  set object := fun _ => .done (.ok ⟨⟩, object)
  modifyGet update := fun object => .done (.ok (update object).1, (update object).2)

/-- Await one call; its error is raised as an exception. -/
def await (raised : sig.Error → ε) (call : sig.Call) : Coroutine sig ε σ (sig.Answer call) :=
  fun object => .await call fun
    | .ok answer => .done (.ok answer, object)
    | .error error => .done (.error (raised error), object)

/-- Raise the error of a computation that awaits nothing. -/
def lift (result : Except ε α) : Coroutine sig ε σ α := fun object => .done (result, object)

/-- Run a body on an object of its own and return it with the body's value. -/
def own (object : τ) (body : Coroutine sig ε τ α) : Coroutine sig ε σ (α × τ) := fun outer =>
  (body object).bind fun
    | (.ok value, object') => .done (.ok (value, object'), outer)
    | (.error error, _) => .done (.error error, outer)

end Coroutine

end Quartr.Machine
