import Quartr.Machine.Execution
import Quartr.Machine.Solo

/-! # How function bodies can end

`Program.Executes` without its trace, one equivalence per construct: what a body can end with, where a
service may answer a call in several ways, is read off its text from left to right.
-/

namespace Quartr.Machine

variable {sig : Signature} {World α β : Type}
  {serve : (call : sig.Call) → World → sig.Reply call → World → Prop}

/-- A program that nobody disturbs may end with this value, in this world. -/
def Program.Ends (serve : (call : sig.Call) → World → sig.Reply call → World → Prop)
    (program : Program sig α) (world : World) (value : α) (world' : World) : Prop :=
  ∃ trace, program.Executes serve world trace value world'

namespace Program

variable {program : Program sig α} {rest : α → Program sig β} {value : α} {world world' : World}

theorem ends_done {value' : α} : Ends serve (.done value) world value' world' ↔ value' = value ∧ world' = world := by
  constructor
  · rintro ⟨trace, execution⟩
    cases execution
    exact ⟨rfl, rfl⟩
  · rintro ⟨rfl, rfl⟩
    exact ⟨[], .done value' world'⟩

theorem ends_await {call : sig.Call} {next : sig.Reply call → Program sig α} :
    Ends serve (.await call next) world value world' ↔
      ∃ reply middle, serve call world reply middle ∧ Ends serve (next reply) middle value world' := by
  constructor
  · rintro ⟨trace, execution⟩
    cases execution with
    | await served rest => exact ⟨_, _, served, _, rest⟩
  · rintro ⟨reply, middle, served, trace, rest⟩
    exact ⟨_, .await served rest⟩

/-- A sequence ends where its second part does, begun with what the first one ends with. -/
theorem ends_bind {value : β} : Ends serve (program.bind rest) world value world' ↔
    ∃ middle world'', Ends serve program world middle world'' ∧ Ends serve (rest middle) world'' value world' := by
  induction program generalizing world with
  | done first =>
    constructor
    · intro ends
      exact ⟨first, world, ends_done.mpr ⟨rfl, rfl⟩, ends⟩
    · rintro ⟨middle, world'', ends, later⟩
      obtain ⟨rfl, rfl⟩ := ends_done.mp ends
      exact later
  | await call next ih =>
    constructor
    · intro ends
      obtain ⟨reply, after, served, ends⟩ := ends_await.mp ends
      obtain ⟨middle, world'', first, later⟩ := (ih reply).mp ends
      exact ⟨middle, world'', ends_await.mpr ⟨reply, after, served, first⟩, later⟩
    · rintro ⟨middle, world'', ends, later⟩
      obtain ⟨reply, after, served, first⟩ := ends_await.mp ends
      exact ends_await.mpr ⟨reply, after, served, (ih reply).mpr ⟨middle, world'', first, later⟩⟩

end Program

namespace Coroutine

variable {ε σ τ : Type}

/-- The body, begun on this object, may end with this result and this object. -/
def Ends (serve : (call : sig.Call) → World → sig.Reply call → World → Prop) (body : Coroutine sig ε σ α)
    (object : σ) (world : World) (result : Except ε α) (object' : σ) (world' : World) : Prop :=
  (body object).Ends serve world (result, object') world'

variable {object object' : σ} {world world' : World} {result : Except ε α}

theorem ends_pure {value : α} :
    Ends serve (pure value : Coroutine sig ε σ α) object world result object' world' ↔
      result = .ok value ∧ object' = object ∧ world' = world := by
  refine Program.ends_done.trans ?_
  rw [Prod.mk.injEq, and_assoc]

theorem ends_throw {error : ε} :
    Ends serve (throw error : Coroutine sig ε σ α) object world result object' world' ↔
      result = .error error ∧ object' = object ∧ world' = world := by
  refine Program.ends_done.trans ?_
  rw [Prod.mk.injEq, and_assoc]

theorem ends_lift {computed : Except ε α} :
    Ends serve (lift computed : Coroutine sig ε σ α) object world result object' world' ↔
      result = computed ∧ object' = object ∧ world' = world := by
  refine Program.ends_done.trans ?_
  rw [Prod.mk.injEq, and_assoc]

theorem ends_get {result : Except ε σ} :
    Ends serve (get : Coroutine sig ε σ σ) object world result object' world' ↔
      result = .ok object ∧ object' = object ∧ world' = world := by
  refine Program.ends_done.trans ?_
  rw [Prod.mk.injEq, and_assoc]

theorem ends_modify {update : σ → σ} {result : Except ε PUnit} :
    Ends serve (modify update : Coroutine sig ε σ PUnit) object world result object' world' ↔
      result = .ok ⟨⟩ ∧ object' = update object ∧ world' = world := by
  refine Program.ends_done.trans ?_
  rw [Prod.mk.injEq, and_assoc]

/-- A call ends with its reply, in the world it is served in. -/
theorem ends_call {raised : sig.Error → ε} {call : sig.Call} {result : Except ε (sig.Answer call)} :
    Ends serve (await raised call : Coroutine sig ε σ _) object world result object' world' ↔
      ∃ reply, serve call world reply world' ∧ result = reply.mapError raised ∧ object' = object := by
  refine Program.ends_await.trans ?_
  constructor
  · rintro ⟨error | answer, middle, served, ends⟩
    · obtain ⟨⟨⟩, rfl⟩ := Program.ends_done.mp ends
      exact ⟨.error error, served, rfl, rfl⟩
    · obtain ⟨⟨⟩, rfl⟩ := Program.ends_done.mp ends
      exact ⟨.ok answer, served, rfl, rfl⟩
  · rintro ⟨error | answer, served, rfl, rfl⟩
    · exact ⟨.error error, world', served, Program.ends_done.mpr ⟨rfl, rfl⟩⟩
    · exact ⟨.ok answer, world', served, Program.ends_done.mpr ⟨rfl, rfl⟩⟩

/-- A sequence goes on after a value, and ends with an exception. -/
theorem ends_seq {first : Coroutine sig ε σ β} {rest : β → Coroutine sig ε σ α} :
    Ends serve (first >>= rest) object world result object' world' ↔
      (∃ value middle world'', Ends serve first object world (.ok value) middle world'' ∧
        Ends serve (rest value) middle world'' result object' world') ∨
      ∃ error, Ends serve first object world (.error error) object' world' ∧ result = .error error := by
  refine Program.ends_bind.trans ?_
  constructor
  · rintro ⟨⟨error | value, middle⟩, world'', before, after⟩
    · obtain ⟨⟨⟩, rfl⟩ := Program.ends_done.mp after
      exact .inr ⟨error, before, rfl⟩
    · exact .inl ⟨value, middle, world'', before, after⟩
  · rintro (⟨value, middle, world'', before, after⟩ | ⟨error, before, rfl⟩)
    · exact ⟨(.ok value, middle), world'', before, after⟩
    · exact ⟨(.error error, object'), world', before, Program.ends_done.mpr ⟨rfl, rfl⟩⟩

theorem ends_tryCatch {body : Coroutine sig ε σ α} {handler : ε → Coroutine sig ε σ α} :
    Ends serve (tryCatch body handler) object world result object' world' ↔
      (∃ value, Ends serve body object world (.ok value) object' world' ∧ result = .ok value) ∨
      ∃ error middle world'', Ends serve body object world (.error error) middle world'' ∧
        Ends serve (handler error) middle world'' result object' world' := by
  refine Program.ends_bind.trans ?_
  constructor
  · rintro ⟨⟨error | value, middle⟩, world'', before, after⟩
    · exact .inr ⟨error, middle, world'', before, after⟩
    · obtain ⟨⟨⟩, rfl⟩ := Program.ends_done.mp after
      exact .inl ⟨value, before, rfl⟩
  · rintro (⟨value, before, rfl⟩ | ⟨error, middle, world'', before, after⟩)
    · exact ⟨(.ok value, object'), world', before, Program.ends_done.mpr ⟨rfl, rfl⟩⟩
    · exact ⟨(.error error, middle), world'', before, after⟩

theorem ends_own {inner : τ} {body : Coroutine sig ε τ α} {result : Except ε (α × τ)} :
    Ends serve (own inner body : Coroutine sig ε σ _) object world result object' world' ↔
      ∃ ended inner', Ends serve body inner world ended inner' world' ∧
        result = ended.map (fun value => (value, inner')) ∧ object' = object := by
  refine Program.ends_bind.trans ?_
  constructor
  · rintro ⟨⟨error | value, inner'⟩, world'', before, after⟩
    · obtain ⟨⟨⟩, rfl⟩ := Program.ends_done.mp after
      exact ⟨.error error, inner', before, rfl, rfl⟩
    · obtain ⟨⟨⟩, rfl⟩ := Program.ends_done.mp after
      exact ⟨.ok value, inner', before, rfl, rfl⟩
  · rintro ⟨error | value, inner', before, rfl, rfl⟩
    · exact ⟨(.error error, inner'), world', before, Program.ends_done.mpr ⟨rfl, rfl⟩⟩
    · exact ⟨(.ok value, inner'), world', before, Program.ends_done.mpr ⟨rfl, rfl⟩⟩

/-- A body running alone against one of the possible answers ends as it may end. -/
theorem Runs.ends {answer : (call : sig.Call) → World → sig.Reply call × World} {body : Coroutine sig ε σ α}
    (serves : ∀ call world, serve call world (answer call world).1 (answer call world).2)
    (runs : Runs answer body object world result object' world') :
    Ends serve body object world result object' world' := by
  obtain ⟨trace, execution⟩ := Program.Executes.of_run serves (body object) world
  rw [runs] at execution
  exact ⟨trace, execution⟩

end Coroutine

end Quartr.Machine
