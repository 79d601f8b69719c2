import Quartr.Machine.Program

/-! # Function bodies running alone

`Coroutine.Runs` is the big-step semantics of a function body that nobody disturbs: from this object
and world it ends with this result, object and world. There is one rule per construct.
-/

namespace Quartr.Machine

section Except

variable {ε α β : Type} {first : Except ε α} {rest : α → Except ε β}

theorem ok_of_bind {value : β} (ends : first >>= rest = .ok value) :
    ∃ middle, first = .ok middle ∧ rest middle = .ok value := by
  cases first with
  | error error => cases ends
  | ok middle => exact ⟨middle, rfl, ends⟩

theorem error_of_bind {error : ε} (ends : first >>= rest = .error error) :
    first = .error error ∨ ∃ middle, first = .ok middle ∧ rest middle = .error error := by
  cases first with
  | error raised => exact .inl (congrArg Except.error (Except.error.inj ends))
  | ok middle => exact .inr ⟨middle, rfl, ends⟩

end Except

namespace Coroutine

variable {sig : Signature} {World ε σ τ α β : Type}

def Runs (answer : (call : sig.Call) → World → sig.Reply call × World) (body : Coroutine sig ε σ α)
    (object : σ) (world : World) (result : Except ε α) (object' : σ) (world' : World) : Prop :=
  (body object).run answer world = ((result, object'), world')

namespace Runs

variable {answer : (call : sig.Call) → World → sig.Reply call × World} {object object' object'' : σ}
  {world world' world'' : World}

theorem pure {value : α} :
    Runs answer (pure value : Coroutine sig ε σ α) object world (.ok value) object world := rfl

theorem get : Runs answer (get : Coroutine sig ε σ σ) object world (.ok object) object world :=
  rfl

theorem modify {update : σ → σ} :
    Runs answer (modify update : Coroutine sig ε σ PUnit) object world (.ok ⟨⟩) (update object)
      world := rfl

theorem lift {result : Except ε α} {value : α} (succeeds : result = .ok value) :
    Runs answer (Coroutine.lift result : Coroutine sig ε σ α) object world (.ok value) object world := by
  rw [succeeds]
  rfl

theorem lift_error {result : Except ε α} {error : ε} (fails : result = .error error) :
    Runs answer (Coroutine.lift result : Coroutine sig ε σ α) object world (.error error) object world := by
  rw [fails]
  rfl

theorem await {raised : sig.Error → ε} {call : sig.Call} {value : sig.Answer call}
    (answered : (answer call world).1 = .ok value) :
    Runs answer (Coroutine.await raised call : Coroutine sig ε σ _) object world (.ok value) object
      (answer call world).2 := by
  unfold Runs Coroutine.await
  rw [Program.run, answered]
  rfl

theorem bind {first : Coroutine sig ε σ α} {rest : α → Coroutine sig ε σ β} {value : α}
    {result : Except ε β} (left : Runs answer first object world (.ok value) object' world')
    (right : Runs answer (rest value) object' world' result object'' world'') :
    Runs answer (first >>= rest) object world result object'' world'' := by
  refine (Program.run_bind answer (first object) _ world).trans ?_
  rw [left]
  exact right

/-- An exception of the body is handed to the handler, with the object as the body left it. -/
theorem caught {body : Coroutine sig ε σ α} {handler : ε → Coroutine sig ε σ α} {error : ε}
    {result : Except ε α} (raises : Runs answer body object world (.error error) object' world')
    (handled : Runs answer (handler error) object' world' result object'' world'') :
    Runs answer (tryCatch body handler) object world result object'' world'' := by
  refine (Program.run_bind answer (body object) _ world).trans ?_
  rw [raises]
  exact handled

theorem tryCatch {body : Coroutine sig ε σ α} {handler : ε → Coroutine sig ε σ α} {value : α}
    (runs : Runs answer body object world (.ok value) object' world') :
    Runs answer (tryCatch body handler) object world (.ok value) object' world' := by
  refine (Program.run_bind answer (body object) _ world).trans ?_
  rw [runs]
  rfl

theorem own {inner inner' : τ} {body : Coroutine sig ε τ α} {value : α}
    (runs : Runs answer body inner world (.ok value) inner' world') :
    Runs answer (Coroutine.own inner body : Coroutine sig ε σ _) object world (.ok (value, inner')) object
      world' := by
  refine (Program.run_bind answer (body inner) _ world).trans ?_
  rw [runs]
  rfl

/-- An exception ends a sequence. -/
theorem bind_error {first : Coroutine sig ε σ α} {rest : α → Coroutine sig ε σ β} {error : ε}
    (raises : Runs answer first object world (.error error) object' world') :
    Runs answer (first >>= rest) object world (.error error) object' world' := by
  refine (Program.run_bind answer (first object) _ world).trans ?_
  rw [raises]
  rfl

theorem await_error {raised : sig.Error → ε} {call : sig.Call} {error : sig.Error}
    (refused : (answer call world).1 = .error error) :
    Runs answer (Coroutine.await raised call : Coroutine sig ε σ _) object world (.error (raised error)) object
      (answer call world).2 := by
  unfold Runs Coroutine.await
  rw [Program.run, refused]
  rfl

theorem own_error {inner inner' : τ} {body : Coroutine sig ε τ α} {error : ε}
    (raises : Runs answer body inner world (.error error) inner' world') :
    Runs answer (Coroutine.own inner body : Coroutine sig ε σ _) object world (.error error) object
      world' := by
  refine (Program.run_bind answer (body inner) _ world).trans ?_
  rw [raises]
  rfl

/-- A call that is answered so. -/
theorem answered {raised : sig.Error → ε} {call : sig.Call} {value : sig.Answer call}
    (answers : answer call world = (.ok value, world')) :
    Runs answer (Coroutine.await raised call : Coroutine sig ε σ _) object world (.ok value) object world' := by
  unfold Runs Coroutine.await
  rw [Program.run, answers]
  rfl

/-- A call that fails so. -/
theorem refused {raised : sig.Error → ε} {call : sig.Call} {error : sig.Error}
    (fails : answer call world = (.error error, world')) :
    Runs answer (Coroutine.await raised call : Coroutine sig ε σ _) object world (.error (raised error)) object
      world' := by
  unfold Runs Coroutine.await
  rw [Program.run, fails]
  rfl

/-- Alone, a body comes to an end. -/
theorem total (answer : (call : sig.Call) → World → sig.Reply call × World) (body : Coroutine sig ε σ α)
    (object : σ) (world : World) : ∃ result object' world', Runs answer body object world result object' world' :=
  ⟨_, _, _, rfl⟩

end Runs

end Coroutine

end Quartr.Machine
