import Quartr.Machine.Program

/-! # Programs that follow a protocol

A protocol is a labelled transition system over phases: in a phase it allows certain calls, and
each reply moves it on. `Program.Follows` says that whatever the calls reply, the program only
makes calls its phase allows and ends in a phase satisfying a postcondition. A phase is chosen
after each reply, so it may record anything the program has learned from the replies alone.
The rules below follow the constructs of `Coroutine`; a spec lemma for a function states its
postcondition for both exits, value and exception.
-/

namespace Quartr.Machine

/-- Which call each phase allows, and which phases each reply may lead to. -/
abbrev Protocol (sig : Signature) (Phase : Type) : Type :=
  Phase → (call : sig.Call) → sig.Reply call → Phase → Prop

variable {sig : Signature} {Phase α β : Type}

/-- Every execution stays inside the protocol and satisfies `post` when it returns. -/
def Program.Follows (protocol : Protocol sig Phase) (post : α → Phase → Prop) :
    Program sig α → Phase → Prop
  | .done value, phase => post value phase
  | .await call next, phase =>
    ∀ reply, ∃ phase', protocol phase call reply phase' ∧ (next reply).Follows protocol post phase'

/-- A suspended program moves on with the reply; this is the protocol the code itself runs by. -/
inductive Program.Resumes : Protocol sig (Program sig α)
  | reply (call : sig.Call) (next : sig.Reply call → Program sig α) (reply : sig.Reply call) :
      Program.Resumes (.await call next) call reply (next reply)

namespace Program.Follows

variable {protocol : Protocol sig Phase} {post : α → Phase → Prop}

/-- What a program does next is a step of its phase. -/
theorem resume {program program' : Program sig α} {phase : Phase} {call : sig.Call}
    {reply : sig.Reply call} (follows : program.Follows protocol post phase)
    (resumes : Program.Resumes program call reply program') :
    ∃ phase', protocol phase call reply phase' ∧ program'.Follows protocol post phase' := by
  cases resumes with
  | reply => exact follows reply

theorem mono {post' : α → Phase → Prop} {program : Program sig α} {phase : Phase}
    (follows : program.Follows protocol post phase)
    (implies : ∀ value phase', post value phase' → post' value phase') :
    program.Follows protocol post' phase := by
  induction program generalizing phase with
  | done value => exact implies _ _ follows
  | await call next ih =>
    intro reply
    obtain ⟨phase', allowed, rest⟩ := follows reply
    exact ⟨phase', allowed, ih reply rest⟩

theorem congr {post' : α → Phase → Prop} {program : Program sig α} {phase : Phase}
    (same : ∀ value phase', post value phase' ↔ post' value phase') :
    program.Follows protocol post phase ↔ program.Follows protocol post' phase :=
  ⟨fun follows => follows.mono fun value phase' => (same value phase').mp,
    fun follows => follows.mono fun value phase' => (same value phase').mpr⟩

/-- A protocol may be embedded in one with more phases. -/
theorem embed {Phase' : Type} {protocol' : Protocol sig Phase'} {post' : α → Phase' → Prop}
    {program : Program sig α} {phase : Phase} (follows : program.Follows protocol post phase)
    (embedding : Phase → Phase')
    (steps : ∀ phase call reply phase', protocol phase call reply phase' →
      protocol' (embedding phase) call reply (embedding phase'))
    (ends : ∀ value phase, post value phase → post' value (embedding phase)) :
    program.Follows protocol' post' (embedding phase) := by
  induction program generalizing phase with
  | done value => exact ends _ _ follows
  | await call next ih =>
    intro reply
    obtain ⟨phase', allowed, rest⟩ := follows reply
    exact ⟨embedding phase', steps _ _ _ _ allowed, ih reply rest⟩

/-- A relation between phase and world that every step of the protocol keeps holds at the end of a
run alone. -/
theorem run {World : Type} {answer : (call : sig.Call) → World → sig.Reply call × World}
    {Inv : Phase → World → Prop}
    (preserved : ∀ phase call phase' world, protocol phase call (answer call world).1 phase' →
      Inv phase world → Inv phase' (answer call world).2)
    {program : Program sig α} {phase : Phase} {world : World}
    (follows : program.Follows protocol post phase) (initial : Inv phase world) :
    ∃ phase', post (program.run answer world).1 phase' ∧ Inv phase' (program.run answer world).2 := by
  induction program generalizing phase world with
  | done value => exact ⟨phase, follows, initial⟩
  | await call next ih =>
    obtain ⟨phase', allowed, rest⟩ := follows (answer call world).1
    exact ih _ rest (preserved phase call phase' world allowed initial)

/-- Sequencing: the first program's postcondition is the second one's starting point. -/
theorem bind_iff {program : Program sig α} {rest : α → Program sig β}
    {post : β → Phase → Prop} {phase : Phase} :
    (program.bind rest).Follows protocol post phase ↔
      program.Follows protocol (fun value phase' => (rest value).Follows protocol post phase')
        phase := by
  induction program generalizing phase with
  | done value => exact Iff.rfl
  | await call next ih =>
    exact forall_congr' fun reply => exists_congr fun phase' => and_congr_right fun _ => ih reply

end Program.Follows

namespace Coroutine

variable {ε σ τ : Type} {protocol : Protocol sig Phase}

/-- A function body follows the protocol from a given object; `post` sees both exits. -/
def Follows (protocol : Protocol sig Phase) (body : Coroutine sig ε σ α) (object : σ)
    (phase : Phase) (post : Except ε α → σ → Phase → Prop) : Prop :=
  (body object).Follows protocol (fun result phase' => post result.1 result.2 phase') phase

theorem Follows.mono {body : Coroutine sig ε σ α} {object : σ} {phase : Phase}
    {post post' : Except ε α → σ → Phase → Prop} (follows : Follows protocol body object phase post)
    (implies : ∀ result object' phase', post result object' phase' → post' result object' phase') :
    Follows protocol body object phase post' :=
  Program.Follows.mono follows fun result phase' => implies result.1 result.2 phase'

variable {object : σ} {phase : Phase}

section Rules

variable {post : Except ε α → σ → Phase → Prop}

@[simp] theorem follows_lift {result : Except ε α} :
    Follows protocol (lift result : Coroutine sig ε σ α) object phase post ↔
      post result object phase := Iff.rfl

@[simp] theorem follows_get {post : Except ε σ → σ → Phase → Prop} :
    Follows protocol (get : Coroutine sig ε σ σ) object phase post ↔
      post (.ok object) object phase := Iff.rfl

@[simp] theorem follows_modify {update : σ → σ} {post : Except ε PUnit → σ → Phase → Prop} :
    Follows protocol (modify update : Coroutine sig ε σ PUnit) object phase post ↔
      post (.ok ⟨⟩) (update object) phase := Iff.rfl

theorem mapError_ok {ε' : Type} {raised : ε → ε'} {value : α} :
    (Except.ok value).mapError raised = .ok value := rfl

/-- An awaited call needs the protocol's consent for every reply. -/
theorem follows_await {raised : sig.Error → ε} {call : sig.Call}
    {post : Except ε (sig.Answer call) → σ → Phase → Prop} :
    Follows protocol (await raised call) object phase post ↔
      ∀ reply, ∃ phase', protocol phase call reply phase' ∧
        post (reply.mapError raised) object phase' := by
  refine forall_congr' fun reply => exists_congr fun phase' => and_congr_right fun _ => ?_
  cases reply <;> exact Iff.rfl

theorem follows_bind {first : Coroutine sig ε σ β} {rest : β → Coroutine sig ε σ α} :
    Follows protocol (first >>= rest) object phase post ↔
      Follows protocol first object phase fun result object' phase' =>
        match result with
        | .ok value => Follows protocol (rest value) object' phase' post
        | .error error => post (.error error) object' phase' := by
  refine Program.Follows.bind_iff.trans (Program.Follows.congr ?_)
  rintro ⟨error | value, object'⟩ phase' <;> exact Iff.rfl

theorem follows_tryCatch {body : Coroutine sig ε σ α} {handler : ε → Coroutine sig ε σ α} :
    Follows protocol (tryCatch body handler) object phase post ↔
      Follows protocol body object phase fun result object' phase' =>
        match result with
        | .ok value => post (.ok value) object' phase'
        | .error error => Follows protocol (handler error) object' phase' post := by
  refine Program.Follows.bind_iff.trans (Program.Follows.congr ?_)
  rintro ⟨error | value, object'⟩ phase' <;> exact Iff.rfl

theorem follows_own {inner : τ} {body : Coroutine sig ε τ α}
    {post : Except ε (α × τ) → σ → Phase → Prop} :
    Follows protocol (own inner body) object phase post ↔
      Follows protocol body inner phase fun result inner' phase' =>
        post (result.map fun value => (value, inner')) object phase' := by
  refine Program.Follows.bind_iff.trans (Program.Follows.congr ?_)
  rintro ⟨error | value, object'⟩ phase' <;> exact Iff.rfl

end Rules

end Coroutine

end Quartr.Machine
