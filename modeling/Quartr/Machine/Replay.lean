import Quartr.Machine.Pool

/-! # Replaying a schedule

A schedule is a list of moves: begin an activity, serve the call a process waits for, kill a
process. A `Player` computes what the moves do, where a choice settles whatever the system leaves
open. `Plays.path` turns a replayed schedule into a run of the system, so that a concrete run is a
computation.
-/

namespace Quartr.Machine

variable {sig : Signature} {World Label Choice α : Type}

inductive Move (Label Choice : Type) where
  | start (id : ℕ) (label : Label)
  | serve (id : ℕ) (choice : Choice)
  | kill (id : ℕ)

/-- The process a move concerns. -/
def Move.id : Move Label Choice → ℕ
  | .start id _ => id
  | .serve id _ => id
  | .kill id => id

/-- A computable resolution of what a system leaves open. -/
structure Player (system : System sig World Label (Program sig α)) (Choice : Type) where
  begin? : World → Label → Option World
  answer : Choice → (call : sig.Call) → World → sig.Reply call × World
  resumes : system.protocol = fun _ _ => Program.Resumes
  begins : ∀ world label world', begin? world label = some world' → system.start world label world'
  serves : ∀ choice call world,
    system.serve call world (answer choice call world).1 (answer choice call world).2

namespace Player

variable {system : System sig World Label (Program sig α)} (player : Player system Choice)

/-- The event of a move and the configuration after it, if the move is possible. -/
def move? (config : Config sig World Label (Program sig α)) :
    Move Label Choice → Option (Event sig Label × Config sig World Label (Program sig α))
  | .start id label =>
    match config.process id, player.begin? config.world label with
    | none, some world => some (.start id label, config.put id ⟨label, system.body id label, [], false⟩ world)
    | _, _ => none
  | .serve id choice =>
    match config.process id with
    | some ⟨label, .await call next, log, false⟩ =>
      let reply := (player.answer choice call config.world).1
      some (.reply id call reply, config.put id ⟨label, next reply, ⟨call, reply⟩ :: log, false⟩
        (player.answer choice call config.world).2)
    | _ => none
  | .kill id =>
    match config.process id with
    | some ⟨label, program, log, false⟩ =>
      some (.kill id, config.put id ⟨label, program, log, true⟩ config.world)
    | _ => none

theorem move?_step {config config' : Config sig World Label (Program sig α)}
    {move : Move Label Choice} {event : Event sig Label}
    (moved : player.move? config move = some (event, config')) :
    system.Step config event config' := by
  cases move with
  | start id label =>
    simp only [move?] at moved
    split at moved
    · rename_i world absent begins
      cases moved
      exact .start absent (player.begins _ _ _ begins)
    · cases moved
  | serve id choice =>
    simp only [move?] at moved
    split at moved
    · rename_i label call next log present
      cases moved
      refine .reply present rfl ?_ (player.serves _ _ _)
      rw [player.resumes]
      exact .reply ..
    · cases moved
  | kill id =>
    simp only [move?] at moved
    split at moved
    · rename_i label program log present
      cases moved
      exact .kill present rfl
    · cases moved

/-- Every move is possible, meets the guard where it is made, and the last one reaches the goal. -/
def Plays (guard : Config sig World Label (Program sig α) → Event sig Label → Prop)
    (goal : Config sig World Label (Program sig α) → Prop) :
    Config sig World Label (Program sig α) → List (Move Label Choice) → Prop
  | config, [] => goal config
  | config, move :: rest =>
    match player.move? config move with
    | none => False
    | some (event, config') => guard config event ∧ Plays guard goal config' rest

variable {player} {guard : Config sig World Label (Program sig α) → Event sig Label → Prop}
  {goal : Config sig World Label (Program sig α) → Prop}

instance Plays.decidable [DecidablePred goal] [∀ config event, Decidable (guard config event)] :
    (config : Config sig World Label (Program sig α)) → (moves : List (Move Label Choice)) →
      Decidable (player.Plays guard goal config moves)
  | config, [] => inferInstanceAs (Decidable (goal config))
  | config, move :: rest =>
    match moved : player.move? config move with
    | none => isFalse (by simp only [Plays, moved, not_false_eq_true])
    | some (event, config') =>
      have : Decidable (player.Plays guard goal config' rest) := Plays.decidable config' rest
      decidable_of_iff (guard config event ∧ player.Plays guard goal config' rest)
        (by simp only [Plays, moved])

theorem move?_id {config config' : Config sig World Label (Program sig α)}
    {move : Move Label Choice} {event : Event sig Label}
    (moved : player.move? config move = some (event, config')) : event.id = move.id := by
  cases move with
  | start id label =>
    simp only [move?] at moved
    split at moved <;> cases moved
    rfl
  | serve id choice =>
    simp only [move?] at moved
    split at moved <;> cases moved
    rfl
  | kill id =>
    simp only [move?] at moved
    split at moved <;> cases moved
    rfl

/-- A schedule that plays is a run of the system under the guard, and concerns no process that it
has no move for. -/
theorem Plays.path {config : Config sig World Label (Program sig α)}
    {moves : List (Move Label Choice)} (plays : player.Plays guard goal config moves) :
    ∃ events config', Path (Guarded system.Step guard) config events config' ∧ goal config' ∧
      ∀ id, (∀ move ∈ moves, move.id ≠ id) → config'.process id = config.process id := by
  induction moves generalizing config with
  | nil => exact ⟨[], config, .nil config, plays, fun _ _ => rfl⟩
  | cons move rest ih =>
    rw [Plays] at plays
    cases moved : player.move? config move with
    | none => simp only [moved] at plays
    | some outcome =>
      simp only [moved] at plays
      obtain ⟨events, config', path, reached, frame⟩ := ih plays.2
      have step := player.move?_step moved
      refine ⟨_, config', .cons ⟨plays.1, step⟩ path, reached, fun id others => ?_⟩
      obtain ⟨differs, others⟩ := List.forall_mem_cons.mp others
      rw [frame id others]
      exact step.frame fun same => differs (same.trans (move?_id moved)).symm

/-- A schedule of one move is a step of the process it concerns. -/
theorem Plays.step {config : Config sig World Label (Program sig α)} {move : Move Label Choice}
    (plays : player.Plays guard goal config [move]) :
    ∃ event config', Guarded system.Step guard config event config' ∧ goal config' ∧ event.id = move.id := by
  rw [Plays] at plays
  cases moved : player.move? config move with
  | none => simp only [moved] at plays
  | some outcome =>
    simp only [moved] at plays
    exact ⟨_, _, ⟨plays.1, player.move?_step moved⟩, plays.2, move?_id moved⟩

/-- A schedule from the beginning that leaves none of its processes active comes to rest. -/
theorem Plays.quiescent {world : World} {moves : List (Move Label Choice)}
    (plays : player.Plays guard
      (fun config => (∀ move ∈ moves, config.InactiveAt move.id) ∧ goal config) (.idle world) moves) :
    ∃ events config', Path (Guarded system.Step guard) (.idle world) events config' ∧
      config'.Quiescent ∧ goal config' := by
  obtain ⟨events, config', path, ⟨inactive, reached⟩, frame⟩ := plays.path
  refine ⟨events, config', path, fun id => ?_, reached⟩
  by_cases moved : ∃ move ∈ moves, move.id = id
  · obtain ⟨move, member, rfl⟩ := moved
    exact inactive move member
  · intro process present
    rw [frame id fun move member same => moved ⟨move, member, same⟩] at present
    cases present

end Player

end Quartr.Machine
