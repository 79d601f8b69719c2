import Quartr.Machine.Solo

/-! # Scripted calls

A `Script` fixes what becomes of each call of a program by the call's position, and a program running alone
against it leaves a log. A program cannot tell scripts apart that agree on the positions it reaches.
-/

namespace Quartr.Machine

variable {sig : Signature} {World α : Type}

/-- The calls made so far with their replies, in order. -/
abbrev Log (sig : Signature) : Type := List (Σ call, sig.Reply call)

/-- What becomes of the call at each position. -/
abbrev Script (sig : Signature) (World : Type) : Type := ℕ → (call : sig.Call) → World → sig.Reply call × World

namespace Script

variable (script : Script sig World)

/-- The next call is served by its position, and logged. -/
def answer (call : sig.Call) (state : World × Log sig) : sig.Reply call × World × Log sig :=
  let served := script state.2.length call state.1
  (served.1, served.2, state.2 ++ [⟨call, served.1⟩])

variable {script} {script' : Script sig World} {position : ℕ}

theorem answer_length (call : sig.Call) (state : World × Log sig) :
    (script.answer call state).2.2.length = state.2.length + 1 := by
  rw [answer, List.length_append, List.length_singleton]

/-- A run only adds to the log. -/
theorem length_le_run (program : Program sig α) (state : World × Log sig) :
    state.2.length ≤ (program.run script.answer state).2.2.length := by
  induction program generalizing state with
  | done value => exact Nat.le_refl _
  | await call next ih =>
    have later := ih (script.answer call state).1 (script.answer call state).2
    rw [answer_length] at later
    exact Nat.le_of_succ_le later

/-- A program cannot tell scripts apart that agree on the positions it reaches. -/
theorem run_congr {program : Program sig α} {state : World × Log sig}
    (agree : ∀ k, state.2.length ≤ k → k < (program.run script.answer state).2.2.length → script' k = script k) :
    program.run script'.answer state = program.run script.answer state := by
  induction program generalizing state with
  | done value => rfl
  | await call next ih =>
    have grown := @length_le_run _ _ _ script (next (script.answer call state).1) (script.answer call state).2
    rw [answer_length] at grown
    have same : script'.answer call state = script.answer call state := by
      rw [answer, answer, agree state.2.length (Nat.le_refl _) (Nat.lt_of_succ_le grown)]
    rw [Program.run, Program.run, same]
    apply ih
    intro k above below
    rw [answer_length] at above
    exact agree k (Nat.le_of_succ_le above) below

/-- A call that has been made is made under a script that differs there: what precedes it is as before. -/
theorem run_reaches {program : Program sig α} {state : World × Log sig}
    (agree : ∀ k, k ≠ position → script' k = script k)
    (reached : position < (program.run script.answer state).2.2.length) :
    position < (program.run script'.answer state).2.2.length := by
  induction program generalizing state with
  | done value => exact reached
  | await call next ih =>
    by_cases earlier : position ≤ state.2.length
    · have grown := @length_le_run _ _ _ script' (next (script'.answer call state).1) (script'.answer call state).2
      rw [answer_length] at grown
      exact Nat.lt_of_le_of_lt earlier (Nat.lt_of_succ_le grown)
    · have same : script'.answer call state = script.answer call state := by
        rw [answer, answer, agree state.2.length (by omega)]
      rw [Program.run, same]
      exact ih _ reached

end Script

end Quartr.Machine
