import Quartr.Machine.Path
import Quartr.Machine.Program

/-! # Parties that leave each other alone

`Parties` are programs that share a world and call it one at a time, in any order. `Independent` says when
the order does not matter: up to `Like`, a party's own calls do to its part of the world what they would
do if the party were alone, and the calls of the others do nothing to it.
-/

namespace Quartr.Machine

variable {sig : Signature} {World Party α : Type}

/-- The shared world, and what every party has still to do. -/
structure Parties (sig : Signature) (World Party α : Type) where
  world : World
  control : Party → Program sig α

namespace Parties

/-- Nobody has a call left to make. -/
def Complete (parties : Parties sig World Party α) : Prop :=
  ∀ party, (parties.control party).call? = none

/-- A world that answers each party in its own way. -/
abbrev Answer (sig : Signature) (World Party : Type) : Type :=
  Party → (call : sig.Call) → World → sig.Reply call × World

variable [DecidableEq Party] (answer : Answer sig World Party)

def step? (parties : Parties sig World Party α) (party : Party) : Option (Parties sig World Party α) :=
  match parties.control party with
  | .done _ => none
  | .await call next =>
    some ⟨(answer party call parties.world).2,
      Function.update parties.control party (next (answer party call parties.world).1)⟩

/-- One call of one party. -/
def Step (parties : Parties sig World Party α) (party : Party) (parties' : Parties sig World Party α) : Prop :=
  parties.step? answer party = some parties'

/-- Run a schedule whose every step meets a condition. -/
def play (check : Parties sig World Party α → Party → Bool) (parties : Parties sig World Party α) :
    List Party → Option (Parties sig World Party α)
  | [] => some parties
  | party :: schedule =>
    if check parties party then (parties.step? answer party).bind fun next => play check next schedule else none

variable {answer} {parties parties' : Parties sig World Party α} {party : Party}

theorem step_cases (step : Step answer parties party parties') :
    ∃ call next, parties.control party = .await call next ∧
      parties' = ⟨(answer party call parties.world).2,
        Function.update parties.control party (next (answer party call parties.world).1)⟩ := by
  unfold Step step? at step
  split at step
  · cases step
  · rename_i call next suspended
    exact ⟨call, next, suspended, (Option.some.inj step).symm⟩

theorem play_path {check : Parties sig World Party α → Party → Bool} {guard : Parties sig World Party α → Party → Prop}
    (checks : ∀ parties party, check parties party = true → guard parties party) {schedule : List Party}
    (played : parties.play answer check schedule = some parties') :
    Path (Guarded (Step answer) guard) parties schedule parties' := by
  induction schedule generalizing parties with
  | nil =>
    obtain rfl := Option.some.inj played
    exact .nil parties
  | cons party schedule ih =>
    rw [play] at played
    split at played
    · rename_i checked
      obtain ⟨next, step, rest⟩ := Option.bind_eq_some_iff.mp played
      exact .cons ⟨checks parties party checked, step⟩ (ih rest)
    · cases played

/-! ### Independence -/

/-- How a party and its world compare with the party and a world it is alone with. -/
abbrev Likeness (sig : Signature) (World Party α : Type) : Type :=
  Party → Program sig α → World → Program sig α → World → Prop

/-- The calls of a party are answered as they are `alone`, and do nothing to what is another party's. -/
structure Independent (answer alone : Answer sig World Party)
    (guard : Parties sig World Party α → Party → Prop) (Like : Likeness sig World Party α) : Prop where
  own : ∀ {party program world parties call next}, Like party program world (parties.control party) parties.world →
    parties.control party = .await call next → guard parties party →
    ∃ call' next', program = .await call' next' ∧
      Like party (next' (alone party call' world).1) (alone party call' world).2
        (next (answer party call parties.world).1) (answer party call parties.world).2
  other : ∀ {party mover program world program' world' moving there call next}, party ≠ mover →
    Like party program world program' world' → Like mover moving there (.await call next) world' →
    Like party program world program' (answer mover call world').2
  ended : ∀ {party program world value world'}, Like party program world (.done value) world' →
    ∃ value', program = .done value'

/-- Every party is where it would be alone: what is left of it there comes to the given end. -/
def Shadowed (alone : Answer sig World Party) (Like : Likeness sig World Party α) (ends : Party → α × World)
    (parties : Parties sig World Party α) : Prop :=
  ∀ party, ∃ program world, Like party program world (parties.control party) parties.world ∧
    program.run (alone party) world = ends party

namespace Independent

variable {alone : Answer sig World Party} {guard : Parties sig World Party α → Party → Prop}
  {Like : Likeness sig World Party α} {ends : Party → α × World} {schedule : List Party}

theorem shadowed_step (independent : Independent answer alone guard Like)
    (shadowed : parties.Shadowed alone Like ends) (step : Guarded (Step answer) guard parties party parties') :
    parties'.Shadowed alone Like ends := by
  obtain ⟨call, next, suspended, rfl⟩ := step_cases step.2
  have moving := shadowed party
  intro other
  by_cases same : other = party
  · subst same
    obtain ⟨program, world, like, run⟩ := moving
    obtain ⟨call', next', rfl, later⟩ := independent.own like suspended step.1
    refine ⟨next' (alone other call' world).1, (alone other call' world).2, ?_, run⟩
    dsimp only
    rw [Function.update_self]
    exact later
  · obtain ⟨program, world, like, run⟩ := shadowed other
    obtain ⟨moving, there, like', _⟩ := moving
    rw [suspended] at like'
    refine ⟨program, world, ?_, run⟩
    dsimp only
    rw [Function.update_of_ne same]
    exact independent.other same like like'

theorem shadowed_run (independent : Independent answer alone guard Like)
    (path : Path (Guarded (Step answer) guard) parties schedule parties')
    (shadowed : parties.Shadowed alone Like ends) : parties'.Shadowed alone Like ends :=
  path.invariant (fun _ _ _ step shadowed => independent.shadowed_step shadowed step) shadowed

/-- What the calls of a shadowed party keep holds at the end of every run. -/
theorem kept_run {Kept : World → Prop} (independent : Independent answer alone guard Like)
    (keeps : ∀ {party program world call next world'}, Like party program world (.await call next) world' →
      Kept world' → Kept (answer party call world').2)
    (path : Path (Guarded (Step answer) guard) parties schedule parties')
    (shadowed : parties.Shadowed alone Like ends) (kept : Kept parties.world) : Kept parties'.world := by
  have preserved : ∀ parties party parties', Guarded (Step answer) guard parties party parties' →
      parties.Shadowed alone Like ends ∧ Kept parties.world →
      parties'.Shadowed alone Like ends ∧ Kept parties'.world := by
    intro parties party parties' step holds
    refine ⟨independent.shadowed_step holds.1 step, ?_⟩
    obtain ⟨call, next, suspended, rfl⟩ := step_cases step.2
    obtain ⟨program, world, like, _⟩ := holds.1 party
    rw [suspended] at like
    exact keeps like holds.2
  exact (path.invariant preserved ⟨shadowed, kept⟩).2

/-- A complete run leaves each party's part of the world as the party alone leaves it. -/
theorem settled (independent : Independent answer alone guard Like)
    (path : Path (Guarded (Step answer) guard) parties schedule parties')
    (shadowed : parties.Shadowed alone Like ends) (complete : parties'.Complete) (party : Party) :
    ∃ value, Like party (.done (ends party).1) (ends party).2 (.done value) parties'.world := by
  obtain ⟨program, world, like, run⟩ := independent.shadowed_run path shadowed party
  have finished := complete party
  cases left : parties'.control party with
  | await call next =>
    rw [left] at finished
    cases finished
  | done value =>
    rw [left] at like
    obtain ⟨value', rfl⟩ := independent.ended like
    rw [← run]
    exact ⟨value, like⟩

end Independent

end Parties

end Quartr.Machine
