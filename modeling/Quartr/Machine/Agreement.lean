import Quartr.Machine.Pool

/-! # Programs that agree on expected replies

Two programs agree when they make the same calls and return the same value as long as every reply
they get is one that is admitted. A system may replace the programs of its activities by programs
that agree with them in every run in which all replies are admitted.
-/

namespace Quartr.Machine

variable {sig : Signature} {World Label Phase α β : Type} {admits : (call : sig.Call) → sig.Reply call → Prop}

/-- The same calls and the same value, which satisfies `post`, for all admitted replies. -/
inductive Program.Agrees (admits : (call : sig.Call) → sig.Reply call → Prop) (post : α → Prop) :
    Program sig α → Program sig α → Prop
  | done (value : α) (holds : post value) : Program.Agrees admits post (.done value) (.done value)
  | await (call : sig.Call) (next next' : sig.Reply call → Program sig α)
      (later : ∀ reply, admits call reply → Program.Agrees admits post (next reply) (next' reply)) :
      Program.Agrees admits post (.await call next) (.await call next')

namespace Program.Agrees

variable {post post' : α → Prop} {program program' : Program sig α}

theorem mono (agrees : program.Agrees admits post program') (implies : ∀ value, post value → post' value) :
    program.Agrees admits post' program' := by
  induction agrees with
  | done value holds => exact .done value (implies value holds)
  | await call next next' _ ih => exact .await call next next' ih

/-- A program agrees with itself, and returns what a protocol says of it. -/
theorem of_follows {protocol : Protocol sig Phase} {ends : α → Phase → Prop} {phase : Phase}
    (follows : program.Follows protocol ends phase) (implies : ∀ value phase, ends value phase → post value) :
    program.Agrees admits post program := by
  induction program generalizing phase with
  | done value => exact .done value (implies value phase follows)
  | await call next ih =>
    apply Program.Agrees.await
    intro reply _
    obtain ⟨phase', _, rest⟩ := follows reply
    exact ih reply rest

theorem refl (program : Program sig α) : program.Agrees admits (fun _ => True) program := by
  induction program with
  | done value => exact .done value trivial
  | await call next ih => exact .await call next next fun reply _ => ih reply

/-- Sequencing: both continue with the value they agree on. -/
theorem bind {first first' : Program sig β} {mid : β → Prop} {rest rest' : β → Program sig α}
    (agrees : first.Agrees admits mid first')
    (later : ∀ value, mid value → (rest value).Agrees admits post (rest' value)) :
    (first.bind rest).Agrees admits post (first'.bind rest') := by
  induction agrees with
  | done value holds => exact later value holds
  | await call next next' _ ih => exact .await call _ _ ih

theorem call?_eq (agrees : program.Agrees admits post program') : program'.call? = program.call? := by
  cases agrees <;> rfl

/-- Agreeing programs move on together while replies are admitted. -/
theorem resume {call : sig.Call} {reply : sig.Reply call} {next : Program sig α}
    (agrees : program.Agrees admits post program') (resumes : Program.Resumes program call reply next)
    (admitted : admits call reply) :
    ∃ next', Program.Resumes program' call reply next' ∧ next.Agrees admits post next' := by
  cases resumes with
  | reply =>
    cases agrees with
    | await _ _ next' later => exact ⟨next' reply, .reply call next' reply, later reply admitted⟩

end Program.Agrees

/-! ### Function bodies -/

namespace Coroutine

variable {ε σ τ : Type} {object : σ}

def Agrees (admits : (call : sig.Call) → sig.Reply call → Prop) (body body' : Coroutine sig ε σ α)
    (object : σ) (post : Except ε α → σ → Prop) : Prop :=
  (body object).Agrees admits (fun result => post result.1 result.2) (body' object)

theorem Agrees.mono {body body' : Coroutine sig ε σ α} {post post' : Except ε α → σ → Prop}
    (agrees : Agrees admits body body' object post)
    (implies : ∀ result object', post result object' → post' result object') :
    Agrees admits body body' object post' :=
  Program.Agrees.mono agrees fun result => implies result.1 result.2

theorem agrees_refl (body : Coroutine sig ε σ α) (object : σ) :
    Agrees admits body body object fun _ _ => True :=
  Program.Agrees.refl _

theorem agrees_of_follows {protocol : Protocol sig Phase} {phase : Phase} {body : Coroutine sig ε σ α}
    {ends : Except ε α → σ → Phase → Prop} {post : Except ε α → σ → Prop}
    (follows : Follows protocol body object phase ends)
    (implies : ∀ result object' phase', ends result object' phase' → post result object') :
    Agrees admits body body object post :=
  Program.Agrees.of_follows follows fun result => implies result.1 result.2

section Rules

variable {post : Except ε α → σ → Prop}

theorem agrees_await {raised : sig.Error → ε} {call : sig.Call}
    {post : Except ε (sig.Answer call) → σ → Prop}
    (later : ∀ reply, admits call reply → post (reply.mapError raised) object) :
    Agrees admits (await raised call) (await raised call) object post := by
  apply Program.Agrees.await
  intro reply admitted
  cases reply with
  | ok answer => exact .done _ (later (.ok answer) admitted)
  | error error => exact .done _ (later (.error error) admitted)

theorem agrees_bind {first first' : Coroutine sig ε σ β} {rest rest' : β → Coroutine sig ε σ α}
    {mid : Except ε β → σ → Prop} (agrees : Agrees admits first first' object mid)
    (later : ∀ value object', mid (.ok value) object' →
      Agrees admits (rest value) (rest' value) object' post)
    (raised : ∀ error object', mid (.error error) object' → post (.error error) object') :
    Agrees admits (first >>= rest) (first' >>= rest') object post := by
  apply Program.Agrees.bind agrees
  rintro ⟨error | value, object'⟩ holds
  · exact .done _ (raised error object' holds)
  · exact later value object' holds

/-- What awaits nothing is passed through. -/
theorem agrees_get {rest rest' : σ → Coroutine sig ε σ α}
    (later : Agrees admits (rest object) (rest' object) object post) :
    Agrees admits (get >>= rest) (get >>= rest') object post := later

theorem agrees_lift {value : β} {rest rest' : β → Coroutine sig ε σ α}
    (later : Agrees admits (rest value) (rest' value) object post) :
    Agrees admits (lift (.ok value) >>= rest) (lift (.ok value) >>= rest') object post := later

theorem agrees_modify {update : σ → σ} {rest rest' : PUnit → Coroutine sig ε σ α}
    (later : Agrees admits (rest ⟨⟩) (rest' ⟨⟩) (update object) post) :
    Agrees admits (modify update >>= rest) (modify update >>= rest') object post := later

theorem agrees_pure {value : α} (holds : post (.ok value) object) :
    Agrees admits (pure value) (pure value) object post :=
  .done _ holds

theorem agrees_tryCatch {body body' : Coroutine sig ε σ α} {handler handler' : ε → Coroutine sig ε σ α}
    {mid : Except ε α → σ → Prop} (agrees : Agrees admits body body' object mid)
    (later : ∀ error object', mid (.error error) object' →
      Agrees admits (handler error) (handler' error) object' post)
    (returned : ∀ value object', mid (.ok value) object' → post (.ok value) object') :
    Agrees admits (tryCatch body handler) (tryCatch body' handler') object post := by
  apply Program.Agrees.bind agrees
  rintro ⟨error | value, object'⟩ holds
  · exact later error object' holds
  · exact .done _ (returned value object' holds)

theorem agrees_own {inner : τ} {body body' : Coroutine sig ε τ α} {mid : Except ε α → τ → Prop}
    {post : Except ε (α × τ) → σ → Prop} (agrees : Agrees admits body body' inner mid)
    (later : ∀ result inner', mid result inner' →
      post (result.map fun value => (value, inner')) object) :
    Agrees admits (own inner body) (own inner body') object post := by
  apply Program.Agrees.bind agrees
  rintro ⟨error | value, inner'⟩ holds
  · exact .done _ (later (.error error) inner' holds)
  · exact .done _ (later (.ok value) inner' holds)

end Rules

end Coroutine

/-! ### Systems -/

/-- What can be seen of a process: everything but the code it has not come to yet. -/
def Process.observed (process : Process sig Label (Program sig α)) :
    Label × List (Σ call, sig.Reply call) × Bool × Option sig.Call × Option α :=
  (process.label, process.log, process.killed, process.control.call?, process.result?)

namespace System

variable {admits : Label → (call : sig.Call) → sig.Reply call → Prop}
  {body body' : ℕ → Label → Program sig α} {start : World → Label → World → Prop}
  {serve : (call : sig.Call) → World → sig.Reply call → World → Prop}
  {config config' : Config sig World Label (Program sig α)} {event : Event sig Label}

/-- The same processes at corresponding places of agreeing programs. -/
structure Alike (admits : Label → (call : sig.Call) → sig.Reply call → Prop)
    (config config' : Config sig World Label (Program sig α)) : Prop where
  world : config'.world = config.world
  process : ∀ id, Option.Rel (fun process process' : Process sig Label (Program sig α) =>
    process'.label = process.label ∧ process'.log = process.log ∧ process'.killed = process.killed ∧
      process.control.Agrees (admits process.label) (fun _ => True) process'.control)
    (config.process id) (config'.process id)

theorem Alike.put (alike : Alike admits config config') {id : ℕ}
    {process process' : Process sig Label (Program sig α)} {world : World}
    (label : process'.label = process.label) (log : process'.log = process.log)
    (killed : process'.killed = process.killed)
    (agrees : process.control.Agrees (admits process.label) (fun _ => True) process'.control) :
    Alike admits (config.put id process world) (config'.put id process' world) := by
  refine ⟨rfl, fun other => ?_⟩
  by_cases same : other = id
  · subst same
    rw [Config.put_self, Config.put_self]
    exact .some ⟨label, log, killed, agrees⟩
  · rw [Config.put_of_ne same, Config.put_of_ne same]
    exact alike.process other

theorem Alike.behind (alike : Alike admits config config') {id : ℕ}
    {process : Process sig Label (Program sig α)} (present : config.process id = some process) :
    ∃ process', config'.process id = some process' ∧ process'.label = process.label ∧
      process'.log = process.log ∧ process'.killed = process.killed ∧
      process.control.Agrees (admits process.label) (fun _ => True) process'.control := by
  have related := alike.process id
  rw [present] at related
  cases found : config'.process id with
  | none =>
    rw [found] at related
    cases related
  | some process' =>
    rw [found] at related
    cases related with
    | some rest => exact ⟨process', rfl, rest⟩

theorem Alike.observed (alike : Alike admits config config') (id : ℕ) :
    (config'.process id).map Process.observed = (config.process id).map Process.observed := by
  have related := alike.process id
  cases present : config.process id with
  | none =>
    rw [present] at related
    cases found : config'.process id with
    | none => rfl
    | some process' =>
      rw [found] at related
      cases related
  | some process =>
    obtain ⟨process', found, label, log, killed, agrees⟩ := alike.behind present
    rw [found, Option.map_some, Option.map_some, Option.some.injEq, Process.observed, Process.observed,
      label, log, killed, agrees.call?_eq]
    unfold Process.result?
    generalize process.control = control at agrees ⊢
    generalize process'.control = control' at agrees ⊢
    cases agrees <;> rfl

/-- One step with admitted replies is a step of the other system. -/
theorem Alike.step (agree : ∀ id label, (body id label).Agrees (admits label) (fun _ => True) (body' id label))
    (alike : Alike admits config config') {after : Config sig World Label (Program sig α)}
    (step : (System.ofBodies body start serve).Step config event after)
    (admitted : ∀ id call reply process, event = .reply id call reply →
      config.process id = some process → admits process.label call reply) :
    ∃ after', (System.ofBodies body' start serve).Step config' event after' ∧ Alike admits after after' := by
  cases step with
  | @start id label world absent begins =>
    have gone : config'.process id = none := by
      have related := alike.process id
      rw [absent] at related
      cases found : config'.process id with
      | none => rfl
      | some process' =>
        rw [found] at related
        cases related
    rw [← alike.world] at begins
    exact ⟨_, .start gone begins, alike.put rfl rfl rfl (agree id label)⟩
  | @reply id process call reply control world present alive moves served =>
    obtain ⟨process', found, label, log, killed, agrees⟩ := alike.behind present
    obtain ⟨next', resumes, later⟩ := agrees.resume moves (admitted id call reply process rfl present)
    rw [← alike.world] at served
    refine ⟨_, .reply found (killed.trans alive) resumes served, alike.put label ?_ killed later⟩
    exact congrArg (List.cons _) log
  | @kill id process present alive =>
    obtain ⟨process', found, label, log, killed, agrees⟩ := alike.behind present
    refine ⟨_, .kill found (killed.trans alive), ?_⟩
    rw [alike.world]
    exact alike.put label log rfl agrees

/-- A run all of whose replies are admitted is a run of the other system. -/
theorem agreeing_run {guard : Config sig World Label (Program sig α) → Event sig Label → Prop}
    (agree : ∀ id label, (body id label).Agrees (admits label) (fun _ => True) (body' id label))
    (admitted : ∀ config event, guard config event → ∀ id call reply process, event = .reply id call reply →
      config.process id = some process → admits process.label call reply)
    {world : World} {events : List (Event sig Label)} {config : Config sig World Label (Program sig α)}
    (path : Path (Guarded (System.ofBodies body start serve).Step guard) (.idle world) events config) :
    ∃ config', Path (System.ofBodies body' start serve).Step (.idle world) events config' ∧
      Alike admits config config' := by
  have simulates : ∀ {before : Config sig World Label (Program sig α)} {events : List (Event sig Label)}
      {after : Config sig World Label (Program sig α)},
      Path (Guarded (System.ofBodies body start serve).Step guard) before events after →
      ∀ before', Alike admits before before' →
        ∃ after', Path (System.ofBodies body' start serve).Step before' events after' ∧
          Alike admits after after' := by
    intro before events after path
    induction path with
    | nil => exact fun before' alike => ⟨before', .nil before', alike⟩
    | @cons before mid after event events step _ ih =>
      intro before' alike
      obtain ⟨mid', step', alike'⟩ := alike.step agree step.2 (admitted before event step.1)
      obtain ⟨after', rest, alike''⟩ := ih mid' alike'
      exact ⟨after', .cons step' rest, alike''⟩
  exact simulates path (.idle world) ⟨rfl, fun _ => .none⟩

end System

end Quartr.Machine
