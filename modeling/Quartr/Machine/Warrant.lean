import Quartr.Machine.Pool
import Quartr.Machine.Script

/-! # Calls and what warrants them

A program's next call may depend on what it has been replied so far. `Warranted permits` is the protocol
whose phase is the log itself, latest first: a call is made only where the log permits it. A body is
discreet when the log does not matter, because every call it makes is permitted in every log.
-/

namespace Quartr.Machine

variable {sig : Signature} {World Label Phase ε σ τ α β : Type} {permits : Log sig → sig.Call → Prop}

/-- Every call is permitted by the log of the replies before it. -/
inductive Warranted (permits : Log sig → sig.Call → Prop) : Protocol sig (Log sig)
  | call (log : Log sig) (call : sig.Call) (reply : sig.Reply call) (permitted : permits log call) :
      Warranted permits log call reply (⟨call, reply⟩ :: log)

/-- What a protocol allows may be permitted whatever the log. -/
theorem Program.Follows.warranted {protocol : Protocol sig Phase} {post : α → Phase → Prop}
    {program : Program sig α} {phase : Phase} (follows : program.Follows protocol post phase)
    (permitted : ∀ phase call reply phase', protocol phase call reply phase' → ∀ log, permits log call)
    (log : Log sig) : program.Follows (Warranted permits) (fun _ _ => True) log := by
  induction program generalizing phase log with
  | done value => trivial
  | await call next ih =>
    intro reply
    obtain ⟨phase', allowed, rest⟩ := follows reply
    exact ⟨_, .call log call reply (permitted phase call reply phase' allowed log), ih reply rest _⟩

/-- The log has grown by calls that are permitted in every log. -/
def Grown (permits : Log sig → sig.Call → Prop) (log log' : Log sig) : Prop :=
  ∃ more, log' = more ++ log ∧ ∀ served ∈ more, ∀ log, permits log served.1

namespace Grown

variable {log log' log'' : Log sig}

theorem refl (log : Log sig) : Grown permits log log := ⟨[], rfl, by simp⟩

theorem trans (grown : Grown permits log log') (grown' : Grown permits log' log'') : Grown permits log log'' := by
  obtain ⟨more, rfl, permitted⟩ := grown
  obtain ⟨more', rfl, permitted'⟩ := grown'
  refine ⟨more' ++ more, (List.append_assoc ..).symm, ?_⟩
  intro served member
  rcases List.mem_append.mp member with member | member
  · exact permitted' served member
  · exact permitted served member

theorem mem (grown : Grown permits log log') {served : Σ call, sig.Reply call} (member : served ∈ log) :
    served ∈ log' := by
  obtain ⟨more, rfl, _⟩ := grown
  exact List.mem_append_right more member

/-- What the log does not have from before is a call that is permitted in every log. -/
theorem new (grown : Grown permits log log') {served : Σ call, sig.Reply call} (member : served ∈ log') :
    served ∈ log ∨ ∀ log, permits log served.1 := by
  obtain ⟨more, rfl, permitted⟩ := grown
  rcases List.mem_append.mp member with member | member
  · exact .inr (permitted served member)
  · exact .inl member

theorem call {call : sig.Call} {reply : sig.Reply call} (permitted : ∀ log, permits log call) :
    Grown permits log (⟨call, reply⟩ :: log) :=
  ⟨[⟨call, reply⟩], rfl, by simpa using permitted⟩

end Grown

namespace Coroutine

/-- Whatever the log, every call of the body is permitted; the object keeps to `holds`. -/
def Discreet (permits : Log sig → sig.Call → Prop) (holds : σ → Prop) (body : Coroutine sig ε σ α) : Prop :=
  ∀ object log, holds object →
    Follows (Warranted permits) body object log fun _ object' log' => holds object' ∧ Grown permits log log'

namespace Discreet

variable {holds : σ → Prop} {holds' : τ → Prop}

theorem pure {value : α} : Discreet permits holds (pure value : Coroutine sig ε σ α) :=
  fun _ log held => ⟨held, .refl log⟩

theorem lift {result : Except ε α} : Discreet permits holds (lift result : Coroutine sig ε σ α) :=
  fun _ log held => ⟨held, .refl log⟩

theorem get : Discreet permits holds (get : Coroutine sig ε σ σ) :=
  fun _ log held => ⟨held, .refl log⟩

theorem modify {update : σ → σ} (kept : ∀ object, holds object → holds (update object)) :
    Discreet permits holds (modify update : Coroutine sig ε σ PUnit) :=
  fun object log held => ⟨kept object held, .refl log⟩

theorem await {raised : sig.Error → ε} {call : sig.Call} (permitted : ∀ log, permits log call) :
    Discreet permits holds (await raised call : Coroutine sig ε σ _) := by
  intro object log held
  apply follows_await.mpr
  intro reply
  exact ⟨_, .call log call reply (permitted log), held, .call permitted⟩

theorem bind {first : Coroutine sig ε σ β} {rest : β → Coroutine sig ε σ α}
    (discreet : Discreet permits holds first) (later : ∀ value, Discreet permits holds (rest value)) :
    Discreet permits holds (first >>= rest) := by
  intro object log held
  apply follows_bind.mpr
  apply (discreet object log held).mono
  intro result object' log' kept
  cases result with
  | error error => exact kept
  | ok value =>
    exact (later value object' log' kept.1).mono fun _ _ _ kept' => ⟨kept'.1, kept.2.trans kept'.2⟩

theorem tryCatch {body : Coroutine sig ε σ α} {handler : ε → Coroutine sig ε σ α}
    (discreet : Discreet permits holds body) (handled : ∀ error, Discreet permits holds (handler error)) :
    Discreet permits holds (tryCatch body handler) := by
  intro object log held
  apply follows_tryCatch.mpr
  apply (discreet object log held).mono
  intro result object' log' kept
  cases result with
  | ok value => exact kept
  | error error =>
    exact (handled error object' log' kept.1).mono fun _ _ _ kept' => ⟨kept'.1, kept.2.trans kept'.2⟩

theorem own {inner : τ} {body : Coroutine sig ε τ α} (discreet : Discreet permits holds' body)
    (held : holds' inner) : Discreet permits holds (own inner body : Coroutine sig ε σ _) := by
  intro object log held'
  apply follows_own.mpr
  exact (discreet inner log held).mono fun _ _ _ kept => ⟨held', kept.2⟩

theorem ite {condition : Prop} [Decidable condition] {body body' : Coroutine sig ε σ α}
    (discreet : Discreet permits holds body) (discreet' : Discreet permits holds body') :
    Discreet permits holds (if condition then body else body') := by
  split
  · exact discreet
  · exact discreet'

end Discreet

end Coroutine

/-! ### Systems -/

variable {permitsOf : Label → Log sig → sig.Call → Prop} {body : ℕ → Label → Program sig α}
  {start : World → Label → World → Prop} {serve : (call : sig.Call) → World → sig.Reply call → World → Prop}

/-- What is left of every process makes only calls that its log permits. -/
def Config.Warranted (permitsOf : Label → Log sig → sig.Call → Prop)
    (config : Config sig World Label (Program sig α)) : Prop :=
  ∀ id process, config.process id = some process →
    process.control.Follows (Machine.Warranted (permitsOf process.label)) (fun _ _ => True) process.log

theorem Config.Warranted.step
    (bodies : ∀ id label, (body id label).Follows (Machine.Warranted (permitsOf label)) (fun _ _ => True) [])
    {config config' : Config sig World Label (Program sig α)} {event : Event sig Label}
    (warranted : config.Warranted permitsOf) (step : (System.ofBodies body start serve).Step config event config') :
    config'.Warranted permitsOf := by
  unfold Config.Warranted at warranted ⊢
  refine @System.Step.forall_process _ _ _ _ _ (fun _ _ process => process.control.Follows
    (Machine.Warranted (permitsOf process.label)) (fun _ _ => True) process.log) _ _ _ step warranted ?_ ?_
  · intro process present
    cases step with
    | @start id label world absent begins =>
      cases Config.put_self.symm.trans present
      exact bodies id label
    | @reply id process call reply control world there alive moves served =>
      cases Config.put_self.symm.trans present
      obtain ⟨log, allowed, rest⟩ := (warranted id process there).resume moves
      cases allowed
      exact rest
    | @kill id process there alive =>
      cases Config.put_self.symm.trans present
      exact warranted id process there
  · exact fun _ _ _ _ holds => holds

/-- A call that is replied to is one that the log of its process permits. -/
theorem Config.Warranted.permitted {config config' : Config sig World Label (Program sig α)} {id : ℕ}
    {call : sig.Call} {reply : sig.Reply call} (warranted : config.Warranted permitsOf)
    (step : (System.ofBodies body start serve).Step config (.reply id call reply) config') :
    ∃ process, config.process id = some process ∧ permitsOf process.label process.log call := by
  cases step with
  | @reply id process call reply control world there alive moves served =>
    obtain ⟨log, allowed, _⟩ := (warranted id process there).resume moves
    cases allowed with
    | call _ _ _ permitted => exact ⟨process, there, permitted⟩

end Quartr.Machine
