import Quartr.Machine.Pool

/-! # The same processes over another world

The shared world of a system may be replaced by one that keeps the same data in another way. If every
start and every served call of the concrete system is matched by one of the abstract system that the
processes cannot tell from it, then every run of the concrete system is a run of the abstract one, with the
same events and the same processes.

A world may also change by itself. `System.disturbed` lets it drift before every step, and an invariant of a
system that no drift breaks is an invariant of the disturbed system.
-/

namespace Quartr.Machine

variable {sig : Signature} {World World' Label Control Phase α : Type}

/-! ### Replacing the world -/

/-- The program makes no other calls, whatever they reply. -/
def Program.Only (allowed : sig.Call → Prop) : Program sig α → Prop
  | .done _ => True
  | .await call next => ∀ reply, allowed call ∧ (next reply).Only allowed

theorem Program.Only.resume {allowed : sig.Call → Prop} {program program' : Program sig α} {call : sig.Call}
    {reply : sig.Reply call} (only : program.Only allowed) (resumes : Program.Resumes program call reply program') :
    allowed call ∧ program'.Only allowed := by
  cases resumes with
  | reply => exact only reply

/-- The calls of a protocol are the calls of every program that follows it. -/
theorem Program.Follows.only {protocol : Protocol sig Phase} {post : α → Phase → Prop} {allowed : sig.Call → Prop}
    (steps : ∀ phase call reply phase', protocol phase call reply phase' → allowed call)
    {program : Program sig α} {phase : Phase} (follows : program.Follows protocol post phase) :
    program.Only allowed := by
  induction program generalizing phase with
  | done value => trivial
  | await call next ih =>
    intro reply
    obtain ⟨phase', step, rest⟩ := follows reply
    exact ⟨steps _ _ _ _ step, ih reply rest⟩

/-- Every process has only such calls left to make. -/
def Config.Only (allowed : sig.Call → Prop) (config : Config sig World Label (Program sig α)) : Prop :=
  ∀ id process, config.process id = some process → process.control.Only allowed

/-- The same processes over two worlds that are related. -/
structure Config.Mirrors (Same : World → World' → Prop) (config : Config sig World Label Control)
    (mirror : Config sig World' Label Control) : Prop where
  world : Same config.world mirror.world
  process : mirror.process = config.process

/-- The abstract system matches every step of the concrete one whose world stays in scope. -/
structure Replacement (concrete : System sig World Label (Program sig α))
    (abstract : System sig World' Label (Program sig α)) (Same : World → World' → Prop) (scope : World → Prop)
    (allowed : sig.Call → Prop) : Prop where
  body : abstract.body = concrete.body
  protocol : abstract.protocol = concrete.protocol
  resumes : concrete.protocol = fun _ _ => Program.Resumes
  only : ∀ id label, (concrete.body id label).Only allowed
  start : ∀ {world next : World} {world' : World'} {label : Label}, Same world world' → scope next →
    concrete.start world label next → ∃ next', abstract.start world' label next' ∧ Same next next'
  serve : ∀ {call : sig.Call} {reply : sig.Reply call} {world next : World} {world' : World'}, allowed call →
    Same world world' → scope next → concrete.serve call world reply next →
      ∃ next', abstract.serve call world' reply next' ∧ Same next next'

/-- The step leads to a world in scope. -/
def InScope (Step : Config sig World Label Control → Event sig Label → Config sig World Label Control → Prop)
    (scope : World → Prop) :
    Config sig World Label Control → Event sig Label → Config sig World Label Control → Prop :=
  fun config event config' => Step config event config' ∧ scope config'.world

namespace Replacement

variable {concrete : System sig World Label (Program sig α)} {abstract : System sig World' Label (Program sig α)}
  {Same : World → World' → Prop} {scope : World → Prop} {allowed : sig.Call → Prop}
  {config config' : Config sig World Label (Program sig α)} {mirror : Config sig World' Label (Program sig α)}
  {event : Event sig Label}

theorem mirrors_put (mirrors : config.Mirrors Same mirror) {world : World} {world' : World'}
    (same : Same world world') (id : ℕ) (process : Process sig Label (Program sig α)) :
    (config.put id process world).Mirrors Same (mirror.put id process world') := by
  refine ⟨same, ?_⟩
  unfold Config.put
  rw [mirrors.process]

/-- One step of the concrete system is one step of the abstract one, with the same event. -/
theorem simulate (replacement : Replacement concrete abstract Same scope allowed)
    (mirrors : config.Mirrors Same mirror) (only : config.Only allowed) (step : concrete.Step config event config')
    (inside : scope config'.world) :
    ∃ mirror', abstract.Step mirror event mirror' ∧ config'.Mirrors Same mirror' ∧ config'.Only allowed := by
  have kept {id : ℕ} {process : Process sig Label (Program sig α)} {world : World}
      (makes : process.control.Only allowed) : (config.put id process world).Only allowed := by
    intro other found present
    rcases Config.put_cases present with ⟨_, rfl⟩ | ⟨_, before⟩
    · exact makes
    · exact only other found before
  cases step with
  | @start id label world absent begins =>
    obtain ⟨world', begins', same⟩ := replacement.start mirrors.world inside begins
    rw [← mirrors.process] at absent
    refine ⟨_, .start absent begins', ?_, kept (replacement.only id label)⟩
    rw [replacement.body]
    exact mirrors_put mirrors same id _
  | @reply id process call reply control world present alive moves served =>
    have makes := only id process present
    rw [replacement.resumes] at moves
    obtain ⟨fits, rest⟩ := makes.resume moves
    obtain ⟨world', served', same⟩ := replacement.serve fits mirrors.world inside served
    rw [← mirrors.process] at present
    refine ⟨_, .reply present alive ?_ served', mirrors_put mirrors same id _, kept rest⟩
    rw [replacement.protocol, replacement.resumes]
    exact moves
  | @kill id process present alive =>
    have makes := only id process present
    rw [← mirrors.process] at present
    exact ⟨_, .kill present alive, mirrors_put mirrors mirrors.world id _, kept makes⟩

/-- A run of the concrete system that stays in scope is a run of the abstract one. A condition on the steps
carries over if the processes alone decide it. -/
theorem run (replacement : Replacement concrete abstract Same scope allowed)
    {guard : Config sig World Label (Program sig α) → Event sig Label → Prop}
    {guard' : Config sig World' Label (Program sig α) → Event sig Label → Prop}
    (carries : ∀ config mirror event, config.Mirrors Same mirror → guard config event → guard' mirror event)
    {start : Config sig World Label (Program sig α)} {events : List (Event sig Label)}
    (path : Path (InScope (Guarded concrete.Step guard) scope) start events config)
    {begun : Config sig World' Label (Program sig α)} (mirrors : start.Mirrors Same begun)
    (only : start.Only allowed) :
    ∃ mirror, Path (Guarded abstract.Step guard') begun events mirror ∧ config.Mirrors Same mirror := by
  induction path generalizing begun with
  | nil => exact ⟨begun, .nil begun, mirrors⟩
  | cons step rest ih =>
    obtain ⟨⟨met, step⟩, inside⟩ := step
    obtain ⟨mirror', step', mirrors', only'⟩ := replacement.simulate mirrors only step inside
    obtain ⟨mirror, path, final⟩ := ih mirrors' only'
    exact ⟨mirror, .cons ⟨carries _ _ _ mirrors met, step'⟩ path, final⟩

theorem only_idle (world : World) :
    (Config.idle world : Config sig World Label (Program sig α)).Only allowed :=
  fun _ _ present => Config.idle_absent present

end Replacement

/-- In a run along which a measure of the world never falls, the world is within a bound throughout if it is
so at the end. -/
theorem Path.in_scope {Step : Config sig World Label Control → Event sig Label → Config sig World Label Control → Prop}
    {measure : World → ℕ} (grows : ∀ config event config', Step config event config' →
      measure config.world ≤ measure config'.world)
    {start config : Config sig World Label Control} {events : List (Event sig Label)}
    (path : Path Step start events config) {bound : ℕ} (within : measure config.world < bound) :
    Path (InScope Step fun world => measure world < bound) start events config ∧ measure start.world < bound := by
  induction path with
  | nil => exact ⟨.nil _, within⟩
  | cons step _ ih =>
    obtain ⟨path, later⟩ := ih within
    exact ⟨.cons ⟨step, later⟩ path, Nat.lt_of_le_of_lt (grows _ _ _ step) later⟩

theorem Path.in_any_scope
    {Step : Config sig World Label Control → Event sig Label → Config sig World Label Control → Prop}
    {start config : Config sig World Label Control} {events : List (Event sig Label)}
    (path : Path Step start events config) : Path (InScope Step fun _ => True) start events config :=
  path.mono fun _ _ _ step => ⟨step, trivial⟩

/-! ### A world that changes by itself -/

/-- The world may drift before a process begins and before a call is served. -/
def System.disturbed (system : System sig World Label Control) (drift : World → World → Prop) :
    System sig World Label Control where
  body := system.body
  protocol := system.protocol
  start world label world' := ∃ drifted, drift world drifted ∧ system.start drifted label world'
  serve call world reply world' := ∃ drifted, drift world drifted ∧ system.serve call drifted reply world'

section Disturbed

variable {system : System sig World Label (Program sig α)} {outline : System sig World Label Phase}
  {post : ℕ → Label → α → Phase → Prop} {drift : World → World → Prop}

/-- A step of the disturbed system is a drift and a step. -/
theorem System.Step.drifted {system : System sig World Label Control} (reflexive : ∀ world, drift world world)
    {config config' : Config sig World Label Control} {event : Event sig Label}
    (step : (system.disturbed drift).Step config event config') :
    ∃ drifted, drift config.world drifted ∧ system.Step ⟨drifted, config.process⟩ event config' := by
  cases step with
  | start absent begins =>
    obtain ⟨drifted, drifts, begins⟩ := begins
    exact ⟨drifted, drifts, .start absent begins⟩
  | reply present alive moves served =>
    obtain ⟨drifted, drifts, served⟩ := served
    exact ⟨drifted, drifts, .reply present alive moves served⟩
  | kill present alive => exact ⟨_, reflexive _, .kill present alive⟩

theorem Refinement.disturbed (refinement : Refinement system outline post) (drift : World → World → Prop) :
    Refinement (system.disturbed drift) (outline.disturbed drift) post where
  resumes := refinement.resumes
  start := by simp only [System.disturbed, refinement.start]
  serve := by simp only [System.disturbed, refinement.serve]
  follows := refinement.follows

/-- An invariant of the undisturbed phases that no drift breaks holds along every disturbed run. -/
theorem Refinement.disturbed_invariant (refinement : Refinement system outline post)
    (reflexive : ∀ world, drift world world)
    {guard : Config sig World Label (Program sig α) → Event sig Label → Prop}
    {Inv : Config sig World Label Phase → Prop}
    (unguarded : ∀ world drifted process event, drift world drifted → guard ⟨world, process⟩ event →
      guard ⟨drifted, process⟩ event)
    (calm : ∀ world drifted process, drift world drifted → Inv ⟨world, process⟩ → Inv ⟨drifted, process⟩)
    (preserved : ∀ config view event view', config.Views outline post view → guard config event →
      outline.Step view event view' → Inv view → Inv view')
    {world : World} {events : List (Event sig Label)} {config : Config sig World Label (Program sig α)}
    (path : Path (Guarded (system.disturbed drift).Step guard) (.idle world) events config)
    (initial : Inv (.idle world)) : ∃ view, config.Views outline post view ∧ Inv view := by
  obtain ⟨view, views, holds⟩ := (refinement.disturbed drift).invariant
    (fun config view event view' views met step holds => by
      obtain ⟨drifted, drifts, step⟩ := step.drifted reflexive
      have views' : Config.Views outline post ⟨drifted, config.process⟩ ⟨drifted, view.process⟩ :=
        ⟨rfl, views.process⟩
      have same := views.world
      refine preserved ⟨drifted, config.process⟩ ⟨drifted, view.process⟩ event view' views' ?_ step
        (calm view.world drifted view.process drifts holds)
      exact unguarded config.world drifted config.process event (same ▸ drifts) met) path initial
  exact ⟨view, ⟨views.world, views.process⟩, holds⟩

end Disturbed

end Quartr.Machine
