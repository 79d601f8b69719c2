import Quartr.Machine.Protocol
import Quartr.Machine.Path

/-! # Processes sharing a world

A `System` fixes where the control of an activity starts (`body`), how a reply moves it on
(`protocol`), when an activity may begin (`start`) and what a call does to the shared world
(`serve`). Its configurations are a world and a pool of processes; one step begins a process,
serves one call of one process, or kills a process. Every interleaving of single calls is
therefore a path, a killed process stays where it was cut off, and a finished one keeps its result.

Control is a parameter: the code runs with programs, `System.ofBodies`, and proofs with the phases
of a protocol. `Refinement.invariant` transfers an invariant of the second to the runs of the first.
-/

namespace Quartr.Machine

variable {sig : Signature} {World Label Control Phase α : Type}

/-- One activity: what it was begun for, where its control stands, and the replies it has
received, latest first. -/
structure Process (sig : Signature) (Label Control : Type) where
  label : Label
  control : Control
  log : List (Σ call, sig.Reply call)
  killed : Bool

/-- The process after one of its calls has been answered. -/
def Process.resume (process : Process sig Label Control) (call : sig.Call)
    (reply : sig.Reply call) (control : Control) : Process sig Label Control :=
  { process with control := control, log := ⟨call, reply⟩ :: process.log }

/-- The activity still has a call to make. -/
def Process.Active (process : Process sig Label (Program sig α)) : Prop :=
  process.killed = false ∧ process.control.call? ≠ none

/-- What a process that has come to its end returned. -/
def Process.result? (process : Process sig Label (Program sig α)) : Option α :=
  match process.control with
  | .done value => some value
  | .await _ _ => none

instance (process : Process sig Label (Program sig α)) : Decidable process.Active :=
  decidable_of_iff (process.killed = false ∧ process.control.call?.isSome = true)
    (and_congr_right fun _ => Option.isSome_iff_ne_none)

/-- An open system of activities over a shared world. -/
structure System (sig : Signature) (World Label Control : Type) where
  body : ℕ → Label → Control
  protocol : ℕ → Label → Protocol sig Control
  start : World → Label → World → Prop
  serve : (call : sig.Call) → World → sig.Reply call → World → Prop

/-- The system whose activities run programs. -/
def System.ofBodies (body : ℕ → Label → Program sig α) (start : World → Label → World → Prop)
    (serve : (call : sig.Call) → World → sig.Reply call → World → Prop) :
    System sig World Label (Program sig α) :=
  ⟨body, fun _ _ => Program.Resumes, start, serve⟩

structure Config (sig : Signature) (World Label Control : Type) where
  world : World
  process : ℕ → Option (Process sig Label Control)

inductive Event (sig : Signature) (Label : Type) where
  | start (id : ℕ) (label : Label)
  | reply (id : ℕ) (call : sig.Call) (reply : sig.Reply call)
  | kill (id : ℕ)

/-- The process an event concerns. -/
def Event.id : Event sig Label → ℕ
  | .start id _ => id
  | .reply id _ _ => id
  | .kill id => id

namespace Config

/-- Replace one process together with the world. -/
def put (config : Config sig World Label Control) (id : ℕ) (process : Process sig Label Control)
    (world : World) : Config sig World Label Control :=
  ⟨world, Function.update config.process id (some process)⟩

/-- The configuration before anything has begun. -/
def idle (world : World) : Config sig World Label Control := ⟨world, fun _ => none⟩

variable {config : Config sig World Label Control} {id other : ℕ}
  {process : Process sig Label Control} {world : World}

@[simp] theorem put_world : (config.put id process world).world = world := rfl

@[simp] theorem put_self : (config.put id process world).process id = some process :=
  Function.update_self ..

theorem put_of_ne (differs : other ≠ id) :
    (config.put id process world).process other = config.process other :=
  Function.update_of_ne differs ..

/-- A process is the one just put there, or was there before. -/
theorem put_cases {found : Process sig Label Control}
    (present : (config.put id process world).process other = some found) :
    (other = id ∧ found = process) ∨ (other ≠ id ∧ config.process other = some found) := by
  by_cases same : other = id
  · subst same
    exact .inl ⟨rfl, Option.some.inj (present.symm.trans put_self)⟩
  · exact .inr ⟨same, (put_of_ne same).symm.trans present⟩

theorem put_none (absent : (config.put id process world).process other = none) :
    other ≠ id ∧ config.process other = none := by
  by_cases same : other = id
  · subst same
    cases put_self.symm.trans absent
  · exact ⟨same, (put_of_ne same).symm.trans absent⟩

@[simp] theorem idle_process : (idle world : Config sig World Label Control).process id = none := rfl

theorem idle_absent {goal : Prop}
    (present : (idle world : Config sig World Label Control).process id = some process) : goal := by
  cases present

@[simp] theorem idle_world : (idle world : Config sig World Label Control).world = world := rfl

/-- The process of that number, if there is one, has no call left to make. -/
def InactiveAt (config : Config sig World Label (Program sig α)) (id : ℕ) : Prop :=
  ∀ process ∈ config.process id, ¬ process.Active

instance (config : Config sig World Label (Program sig α)) (id : ℕ) :
    Decidable (config.InactiveAt id) :=
  match present : config.process id with
  | none => isTrue fun process found => by simp only [present, Option.mem_def, reduceCtorEq] at found
  | some process => decidable_of_iff (¬ process.Active)
      ⟨fun inactive other found => by
        rw [present, Option.mem_def, Option.some.injEq] at found
        exact found ▸ inactive, fun inactive => inactive process present⟩

/-- Every process has come to its end or was killed. -/
def Quiescent (config : Config sig World Label (Program sig α)) : Prop :=
  ∀ id, config.InactiveAt id

end Config

namespace System

variable (system : System sig World Label Control)

inductive Step :
    Config sig World Label Control → Event sig Label → Config sig World Label Control → Prop
  | start {config : Config sig World Label Control} {id : ℕ} {label : Label} {world : World}
      (absent : config.process id = none) (begins : system.start config.world label world) :
      Step config (.start id label) (config.put id ⟨label, system.body id label, [], false⟩ world)
  | reply {config : Config sig World Label Control} {id : ℕ} {process : Process sig Label Control}
      {call : sig.Call} {reply : sig.Reply call} {control : Control} {world : World}
      (present : config.process id = some process) (alive : process.killed = false)
      (moves : system.protocol id process.label process.control call reply control)
      (served : system.serve call config.world reply world) :
      Step config (.reply id call reply) (config.put id (process.resume call reply control) world)
  | kill {config : Config sig World Label Control} {id : ℕ} {process : Process sig Label Control}
      (present : config.process id = some process) (alive : process.killed = false) :
      Step config (.kill id) (config.put id { process with killed := true } config.world)

variable {system}

/-- What a step leaves alone: every process other than the one it concerns. -/
theorem Step.frame {config config' : Config sig World Label Control} {event : Event sig Label}
    (step : system.Step config event config') {other : ℕ} (differs : other ≠ event.id) :
    config'.process other = config.process other := by
  cases step <;> exact Config.put_of_ne differs

end System

namespace System

variable {system : System sig World Label Control}

/-- A property of each process and the world survives a step when the process concerned
re-establishes it and every other one tolerates the change. -/
theorem Step.forall_process {Local : World → ℕ → Process sig Label Control → Prop}
    {config config' : Config sig World Label Control} {event : Event sig Label}
    (step : system.Step config event config')
    (before : ∀ id process, config.process id = some process → Local config.world id process)
    (acting : ∀ process, config'.process event.id = some process →
      Local config'.world event.id process)
    (stable : ∀ id process, id ≠ event.id → config.process id = some process →
      Local config.world id process → Local config'.world id process) :
    ∀ id process, config'.process id = some process → Local config'.world id process := by
  intro id process present
  by_cases same : id = event.id
  · subst same
    exact acting process present
  · rw [step.frame same] at present
    exact stable id process same present (before id process present)

end System

/-- In a run that only starts processes below a bound there are none above it, so a condition on
every process may be checked below the bound. -/
theorem System.bounded_run_from {system : System sig World Label Control} {bound : ℕ}
    {guard guard' : Config sig World Label Control → Event sig Label → Prop}
    (implies : ∀ config event, (∀ id, bound ≤ id → config.process id = none) →
      guard config event → guard' config event)
    {start config : Config sig World Label Control} {events : List (Event sig Label)}
    (path : Path (Guarded system.Step fun config event => event.id < bound ∧ guard config event)
      start events config) (initial : ∀ id, bound ≤ id → start.process id = none) :
    Path (Guarded system.Step guard') start events config ∧ ∀ id, bound ≤ id → config.process id = none := by
  have preserved : ∀ config event config', Guarded system.Step
      (fun config event => event.id < bound ∧ guard config event) config event config' →
      (∀ id, bound ≤ id → config.process id = none) → ∀ id, bound ≤ id → config'.process id = none := by
    rintro config event config' ⟨⟨below, _⟩, step⟩ above id beyond
    rw [step.frame (by omega)]
    exact above id beyond
  constructor
  · exact path.strengthen preserved initial fun config event _ step above =>
      implies config event above step.1.2
  · exact path.invariant preserved initial

theorem System.bounded_run {system : System sig World Label Control} {bound : ℕ}
    {guard guard' : Config sig World Label Control → Event sig Label → Prop}
    (implies : ∀ config event, (∀ id, bound ≤ id → config.process id = none) →
      guard config event → guard' config event)
    {world : World} {events : List (Event sig Label)} {config : Config sig World Label Control}
    (path : Path (Guarded system.Step fun config event => event.id < bound ∧ guard config event)
      (.idle world) events config) :
    Path (Guarded system.Step guard') (.idle world) events config :=
  (System.bounded_run_from implies path fun _ _ => rfl).1

/-! ### Refinement by phases -/

/-- A program agrees with a process of the outline in everything but its control, which follows
the outline's protocol from the phase. -/
def Process.Follows (protocol : Protocol sig Phase) (post : α → Phase → Prop)
    (process : Process sig Label (Program sig α)) (outline : Process sig Label Phase) : Prop :=
  process.label = outline.label ∧ process.log = outline.log ∧ process.killed = outline.killed ∧
    process.control.Follows protocol post outline.control

/-- The activities of `system` follow the protocols of `outline`, in the same surroundings. -/
structure Refinement (system : System sig World Label (Program sig α))
    (outline : System sig World Label Phase) (post : ℕ → Label → α → Phase → Prop) : Prop where
  resumes : system.protocol = fun _ _ => Program.Resumes
  start : system.start = outline.start
  serve : system.serve = outline.serve
  follows : ∀ id label,
    (system.body id label).Follows (outline.protocol id label) (post id label) (outline.body id label)

/-- A configuration of programs seen through the phases they are in. -/
structure Config.Views (outline : System sig World Label Phase)
    (post : ℕ → Label → α → Phase → Prop) (config : Config sig World Label (Program sig α))
    (view : Config sig World Label Phase) : Prop where
  world : config.world = view.world
  process : ∀ id, Option.Rel
    (fun process seen => Process.Follows (outline.protocol id seen.label) (post id seen.label)
      process seen) (config.process id) (view.process id)

namespace Refinement

variable {system : System sig World Label (Program sig α)}
  {outline : System sig World Label Phase} {post : ℕ → Label → α → Phase → Prop}
  {config config' : Config sig World Label (Program sig α)} {view : Config sig World Label Phase}
  {event : Event sig Label}

theorem views_put (views : config.Views outline post view) {id : ℕ}
    {process : Process sig Label (Program sig α)} {seen : Process sig Label Phase} {world : World}
    (follows : process.Follows (outline.protocol id seen.label) (post id seen.label) seen) :
    (config.put id process world).Views outline post (view.put id seen world) := by
  refine ⟨rfl, fun other => ?_⟩
  by_cases same : other = id
  · subst same
    rw [Config.put_self, Config.put_self]
    exact .some follows
  · rw [Config.put_of_ne same, Config.put_of_ne same]
    exact views.process other

/-- A process of the configuration is seen as a process of the view. -/
theorem seen (views : config.Views outline post view) {id : ℕ}
    {process : Process sig Label (Program sig α)} (present : config.process id = some process) :
    ∃ seen, view.process id = some seen ∧
      process.Follows (outline.protocol id seen.label) (post id seen.label) seen := by
  have related := views.process id
  rw [present] at related
  cases found : view.process id with
  | none => rw [found] at related; cases related
  | some seen =>
    rw [found] at related
    cases related with
    | some follows => exact ⟨seen, rfl, follows⟩

/-- Conversely, a process of the view is there in the configuration. -/
theorem behind (views : config.Views outline post view) {id : ℕ} {seen : Process sig Label Phase}
    (present : view.process id = some seen) :
    ∃ process, config.process id = some process ∧
      process.Follows (outline.protocol id seen.label) (post id seen.label) seen := by
  have related := views.process id
  rw [present] at related
  cases found : config.process id with
  | none => rw [found] at related; cases related
  | some process =>
    rw [found] at related
    cases related with
    | some follows => exact ⟨process, rfl, follows⟩

/-- One step of the programs is one step of the phases, with the same event. -/
theorem simulate (refinement : Refinement system outline post)
    (views : config.Views outline post view) (step : system.Step config event config') :
    ∃ view', outline.Step view event view' ∧ config'.Views outline post view' := by
  cases step with
  | @start id label world absent begins =>
    have gone : view.process id = none := by
      cases found : view.process id with
      | none => rfl
      | some seen =>
        obtain ⟨process, present, _⟩ := behind views found
        rw [absent] at present
        cases present
    rw [refinement.start, views.world] at begins
    exact ⟨_, .start gone begins, views_put views ⟨rfl, rfl, rfl, refinement.follows id label⟩⟩
  | @reply id process call reply control world present alive moves served =>
    obtain ⟨seen, found, label, log, killed, follows⟩ := seen views present
    rw [refinement.resumes] at moves
    rw [refinement.serve, views.world] at served
    obtain ⟨phase, allowed, rest⟩ := follows.resume moves
    refine ⟨_, .reply found (killed ▸ alive) allowed served, views_put views ⟨label, ?_, killed, rest⟩⟩
    exact congrArg (List.cons _) log
  | @kill id process present alive =>
    obtain ⟨seen, found, label, log, killed, follows⟩ := seen views present
    rw [views.world]
    exact ⟨_, .kill found (killed ▸ alive), views_put views ⟨label, log, rfl, follows⟩⟩

/-- A step of the programs keeps an invariant of the phases. The guard is stated on the programs, so
it may be used while the step is looked at through the phases. -/
theorem preserves (refinement : Refinement system outline post)
    {guard : Config sig World Label (Program sig α) → Event sig Label → Prop}
    {Inv : Config sig World Label Phase → Prop}
    (preserved : ∀ config view event view', config.Views outline post view → guard config event →
      outline.Step view event view' → Inv view → Inv view') :
    ∀ config event config', Guarded system.Step guard config event config' →
      (∃ view, config.Views outline post view ∧ Inv view) →
      ∃ view, config'.Views outline post view ∧ Inv view := by
  rintro config event config' ⟨allowed, step⟩ ⟨view, views, holds⟩
  obtain ⟨view', step', views'⟩ := refinement.simulate views step
  exact ⟨view', views', preserved config view event view' views allowed step' holds⟩

/-- An invariant of the phases holds along every run of the programs. -/
theorem invariant_from (refinement : Refinement system outline post)
    {guard : Config sig World Label (Program sig α) → Event sig Label → Prop}
    {Inv : Config sig World Label Phase → Prop}
    (preserved : ∀ config view event view', config.Views outline post view → guard config event →
      outline.Step view event view' → Inv view → Inv view')
    {start config : Config sig World Label (Program sig α)} {events : List (Event sig Label)}
    (path : Path (Guarded system.Step guard) start events config)
    (initial : ∃ view, start.Views outline post view ∧ Inv view) :
    ∃ view, config.Views outline post view ∧ Inv view :=
  path.invariant (refinement.preserves preserved) initial

theorem views_idle (world : World) : (Config.idle world).Views outline post (.idle world) :=
  ⟨rfl, fun _ => .none⟩

theorem invariant (refinement : Refinement system outline post)
    {guard : Config sig World Label (Program sig α) → Event sig Label → Prop}
    {Inv : Config sig World Label Phase → Prop}
    (preserved : ∀ config view event view', config.Views outline post view → guard config event →
      outline.Step view event view' → Inv view → Inv view')
    {world : World} {events : List (Event sig Label)} {config : Config sig World Label (Program sig α)}
    (path : Path (Guarded system.Step guard) (.idle world) events config)
    (initial : Inv (.idle world)) :
    ∃ view, config.Views outline post view ∧ Inv view :=
  refinement.invariant_from preserved path ⟨.idle world, views_idle world, initial⟩

end Refinement

end Quartr.Machine
