import Quartr.Machine.Protocol

/-! # One program executed to its end

`Program.Executes` is the execution of one program that nobody disturbs, against a service that may
answer a call in several ways; the trace holds every call as it was served. `Followed` speaks about
the order of events in a trace.
-/

namespace Quartr.Machine

variable {sig : Signature} {World Phase α : Type}

/-- One call as it was served. -/
structure Served (sig : Signature) (World : Type) where
  call : sig.Call
  reply : sig.Reply call
  before : World
  after : World

inductive Program.Executes (serve : (call : sig.Call) → World → sig.Reply call → World → Prop) :
    Program sig α → World → List (Served sig World) → α → World → Prop
  | done (value : α) (world : World) : Program.Executes serve (.done value) world [] value world
  | await {call : sig.Call} {next : sig.Reply call → Program sig α} {reply : sig.Reply call}
      {world world' world'' : World} {trace : List (Served sig World)} {value : α}
      (served : serve call world reply world')
      (rest : Program.Executes serve (next reply) world' trace value world'') :
      Program.Executes serve (.await call next) world (⟨call, reply, world, world'⟩ :: trace) value world''

namespace Program.Executes

variable {serve : (call : sig.Call) → World → sig.Reply call → World → Prop}
  {protocol : Protocol sig Phase} {post : α → Phase → Prop}

/-- What every step keeps, of the trace so far, the phase and the world, holds at the end. -/
theorem invariant {Inv : List (Served sig World) → Phase → World → Prop}
    (preserved : ∀ past phase call reply phase' world world', protocol phase call reply phase' →
      serve call world reply world' → Inv past phase world →
      Inv (past ++ [⟨call, reply, world, world'⟩]) phase' world')
    {program : Program sig α} {world world' : World} {trace : List (Served sig World)} {value : α}
    (execution : program.Executes serve world trace value world') {phase : Phase}
    (follows : program.Follows protocol post phase) (initial : Inv [] phase world) :
    ∃ phase', post value phase' ∧ Inv trace phase' world' := by
  have later : ∀ past phase, program.Follows protocol post phase → Inv past phase world →
      ∃ phase', post value phase' ∧ Inv (past ++ trace) phase' world' := by
    clear initial follows
    induction execution with
    | done value world =>
      intro past phase follows holds
      rw [List.append_nil]
      exact ⟨phase, follows, holds⟩
    | @await call next reply world mid world' trace value served rest ih =>
      intro past phase follows holds
      obtain ⟨phase', allowed, follows'⟩ := follows reply
      obtain ⟨last, ends, kept⟩ := ih _ phase' follows' (preserved past phase call reply phase' world mid
        allowed served holds)
      rw [List.append_assoc] at kept
      exact ⟨last, ends, kept⟩
  exact later [] phase follows initial

/-- A program running alone against one of the possible answers is an execution. -/
theorem of_run {answer : (call : sig.Call) → World → sig.Reply call × World}
    (serves : ∀ call world, serve call world (answer call world).1 (answer call world).2)
    (program : Program sig α) (world : World) :
    ∃ trace, program.Executes serve world trace (program.run answer world).1 (program.run answer world).2 := by
  induction program generalizing world with
  | done value => exact ⟨[], .done value world⟩
  | await call next ih =>
    obtain ⟨trace, rest⟩ := ih (answer call world).1 (answer call world).2
    exact ⟨_, .await (serves call world) rest⟩

end Program.Executes

section Followed

variable {β : Type} {earlier : List β → Prop} {test : β → Prop} {past : List β} {last : β}

/-- An event that passes the test, with a past before it that satisfies `earlier`. -/
def Followed (earlier : List β → Prop) (test : β → Prop) (trace : List β) : Prop :=
  ∃ before event after, trace = before ++ event :: after ∧ earlier before ∧ test event

theorem followed_nil : ¬ Followed earlier test [] := by
  rintro ⟨before, event, after, same, _⟩
  cases before <;> cases same

/-- One more event is the one looked for, or the search stays in the past. -/
theorem followed_snoc : Followed earlier test (past ++ [last]) ↔
    Followed earlier test past ∨ earlier past ∧ test last := by
  constructor
  · rintro ⟨before, event, after, same, holds, passes⟩
    rcases List.eq_nil_or_concat after with rfl | ⟨after', final, rfl⟩
    · obtain ⟨rfl, ends⟩ := List.append_inj' same rfl
      obtain rfl := List.head_eq_of_cons_eq ends
      exact .inr ⟨holds, passes⟩
    · have same : past ++ [last] = (before ++ event :: after') ++ [final] := by
        rw [same]
        simp
      obtain ⟨rfl, _⟩ := List.append_inj' same rfl
      exact .inl ⟨before, event, after', rfl, holds, passes⟩
  · rintro (⟨before, event, after, rfl, holds, passes⟩ | ⟨holds, passes⟩)
    · exact ⟨before, event, after ++ [last], by simp, holds, passes⟩
    · exact ⟨past, last, [], rfl, holds, passes⟩

end Followed

end Quartr.Machine
