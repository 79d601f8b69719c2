import Quartr.Machine.Pool

/-! # Programs and the replies they have received

`Program.Reaches log` leads from a program to what is left of it once it has received the replies of
the log. A sequence of two programs has come as far as its log says, in the first or in the second,
and every process of a system has come as far as its own log says.
-/

namespace Quartr.Machine

variable {sig : Signature} {World Label Phase α β : Type}

/-- What is left of a program after these calls and replies, in their order. -/
inductive Program.Reaches : Program sig α → List (Σ call, sig.Reply call) → Program sig α → Prop
  | refl (program : Program sig α) : Program.Reaches program [] program
  | reply {call : sig.Call} {next : sig.Reply call → Program sig α} {reply : sig.Reply call}
      {log : List (Σ call, sig.Reply call)} {final : Program sig α}
      (rest : Program.Reaches (next reply) log final) :
      Program.Reaches (.await call next) (⟨call, reply⟩ :: log) final

namespace Program.Reaches

variable {program final final' : Program sig α} {log : List (Σ call, sig.Reply call)}

/-- One more reply. -/
theorem resume (reaches : program.Reaches log final) {call : sig.Call} {reply : sig.Reply call}
    (resumes : Program.Resumes final call reply final') :
    program.Reaches (log ++ [⟨call, reply⟩]) final' := by
  induction reaches with
  | refl program =>
    cases resumes with
    | reply => exact .reply (.refl _)
  | reply rest ih => exact .reply (ih resumes)

/-- The replies determine what is left. -/
theorem unique (reaches : program.Reaches log final) (reaches' : program.Reaches log final') : final = final' := by
  induction reaches with
  | refl =>
    cases reaches'
    rfl
  | reply rest ih =>
    cases reaches' with
    | reply rest' => exact ih rest'

/-- The first part of a sequence takes its replies as it does alone. -/
theorem bind {middle : Program sig α} (reaches : program.Reaches log middle) (rest : α → Program sig β) :
    (program.bind rest).Reaches log (middle.bind rest) := by
  induction reaches with
  | refl => exact .refl _
  | reply onward ih => exact .reply ih

/-- A sequence is still in its first part, or has gone on with what the first part returned. -/
theorem bind_cases {rest : α → Program sig β} {final : Program sig β}
    (reaches : (program.bind rest).Reaches log final) :
    (∃ middle, program.Reaches log middle ∧ final = middle.bind rest) ∨
      ∃ value first second, log = first ++ second ∧ program.Reaches first (.done value) ∧
        (rest value).Reaches second final := by
  induction program generalizing log with
  | done value => exact .inr ⟨value, [], log, rfl, .refl _, reaches⟩
  | await call next ih =>
    cases reaches with
    | refl => exact .inl ⟨_, .refl _, rfl⟩
    | @reply _ _ answer log _ onward =>
      rcases ih answer onward with ⟨middle, inside, same⟩ | ⟨value, first, second, split, ended, after⟩
      · exact .inl ⟨middle, .reply inside, same⟩
      · exact .inr ⟨value, _ :: first, second, congrArg _ split, .reply ended, after⟩

/-- What has been received leads from phase to phase. -/
theorem follows {protocol : Protocol sig Phase} {post : α → Phase → Prop}
    (reaches : program.Reaches log final) {phase : Phase}
    (follows : program.Follows protocol post phase) : ∃ phase', final.Follows protocol post phase' := by
  induction reaches generalizing phase with
  | refl => exact ⟨phase, follows⟩
  | @reply _ _ reply _ _ _ ih =>
    obtain ⟨phase', _, onward⟩ := follows reply
    exact ih onward

end Program.Reaches

/-- Every process is where its log has led it. -/
def Config.Replayed (system : System sig World Label (Program sig α))
    (config : Config sig World Label (Program sig α)) : Prop :=
  ∀ id process, config.process id = some process →
    (system.body id process.label).Reaches process.log.reverse process.control

variable {system : System sig World Label (Program sig α)}
  {config config' : Config sig World Label (Program sig α)} {event : Event sig Label}

theorem System.Step.replayed (resumes : system.protocol = fun _ _ => Program.Resumes)
    (step : system.Step config event config') (replayed : config.Replayed system) :
    config'.Replayed system := by
  refine @System.Step.forall_process _ _ _ _ _ (fun _ id process =>
    (system.body id process.label).Reaches process.log.reverse process.control) _ _ _ step replayed ?_ ?_
  · intro process present
    cases step with
    | start absent begins =>
      cases Config.put_self.symm.trans present
      exact .refl _
    | @reply id process call reply control world there alive moves served =>
      cases Config.put_self.symm.trans present
      rw [resumes] at moves
      show Program.Reaches _ (List.reverse (⟨call, reply⟩ :: process.log)) control
      rw [List.reverse_cons]
      exact (replayed id process there).resume moves
    | @kill id process there alive =>
      cases Config.put_self.symm.trans present
      exact replayed id process there
  · exact fun _ _ _ _ holds => holds

end Quartr.Machine
