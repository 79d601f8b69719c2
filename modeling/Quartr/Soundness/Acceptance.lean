import Quartr.Model.Sample
import Quartr.Soundness.ServicePhases
import Quartr.Soundness.Stream

/-! # Accepted tasks are enqueued

A request answered 202 for a task points at a stream entry, or at another request that still has
to add one. `KeepsPromises` excludes the steps that break this: attaching to a task whose creator
is gone without an entry, and refusing or killing a creator somebody has already attached to.
-/

namespace Quartr.Soundness

open Quartr.Machine Quartr.Model

/-- No worker is running. -/
def RequestsOnly : ServiceEvent → Prop
  | .start _ (.handling _ _ _ _) => False
  | _ => True

instance : DecidablePred RequestsOnly
  | .start _ (.handling _ _ _ _) => isFalse nofun
  | .start _ (.request _ _) => isTrue trivial
  | .reply _ _ _ => isTrue trivial
  | .kill _ => isTrue trivial

/-- The request has read a depth at which the queue is full. -/
def FoundFull (settings : Settings) (log : List (Σ call, calls.Reply call)) : Prop :=
  ∃ depth, ⟨.xlen, .ok depth⟩ ∈ log ∧ settings.maxQueueDepth ≤ depth

/-- Nobody has been answered 202 for this task. -/
def Unpromised (config : ServiceConfig) (taskId : TaskId) : Prop :=
  ∀ id process, config.process id = some process → ¬ Accepted process taskId

/-- A request attaches only to a task that has its entry or whose creator is still under way to
it, and a creator that somebody attached to is neither refused nor killed before its entry. -/
def KeepsPromises (settings : Settings) (uuid : ℕ → TaskId) (config : ServiceConfig) :
    ServiceEvent → Prop
  | .reply _ (.getTask taskId) (.ok (some _)) =>
    config.world.HasEntry taskId ∨ ∃ creator process, uuid creator = taskId ∧
      config.process creator = some process ∧ process.Active ∧ ¬ FoundFull settings process.log
  | .reply id .xlen (.ok depth) =>
    depth < settings.maxQueueDepth ∨ Unpromised config (uuid id)
  | .kill id => config.world.HasEntry (uuid id) ∨ Unpromised config (uuid id)
  | _ => True

/-- The creator has saved its record and is on its way to the stream entry. -/
def Promising (phase : RequestPhase) : Prop :=
  phase = .admitting ∨ phase = .queueing ∨ phase = .measuring ∨ phase = .publishing

/-- The request has not saved a record. -/
def Recordless (phase : RequestPhase) : Prop :=
  phase ∈ [.checking, .registering, .following, .reclaiming, .creating] ∨
    ∃ existing, phase = .attaching existing

/-- What is known of one request: until it saves its record there is none, and it rejects only
after finding the queue full. -/
def RequestState (settings : Settings) (uuid : ℕ → TaskId) (world : World) (id : ℕ)
    (agent : Agent) : Prop :=
  ∃ phase, agent.control = .request phase ∧
    (Recordless phase → world.tasks (uuid id) = none) ∧
    (phase = .rejecting → FoundFull settings agent.log)

/-- A task that was promised has its entry, or a live creator that will add it. -/
def Kept (uuid : ℕ → TaskId) (view : ServiceView) (taskId : TaskId) : Prop :=
  view.world.HasEntry taskId ∨ ∃ creator agent phase, uuid creator = taskId ∧
    view.process creator = some agent ∧ agent.killed = false ∧
    agent.control = .request phase ∧ Promising phase

structure PromiseInvariant (settings : Settings) (uuid : ℕ → TaskId) (view : ServiceView) : Prop where
  keyed : view.world.Keyed
  unused : ∀ id, view.process id = none → view.world.tasks (uuid id) = none
  requests : ∀ id agent, view.process id = some agent →
    RequestState settings uuid view.world id agent
  kept : ∀ id agent taskId, view.process id = some agent →
    agent.control = .request (.ended (some taskId)) → Kept uuid view taskId

section Preserved

variable {settings : Settings} {uuid : ℕ → TaskId} {config : ServiceConfig}
  {view view' : ServiceView} {event : ServiceEvent}

/-- Nothing is saved on the way to a phase without a record. -/
theorem Recordless.step {ticket : Ticket} {phase phase' : RequestPhase} {call : Call}
    {reply : calls.Reply call} (recordless : Recordless phase')
    (step : RequestStep ticket phase call reply phase') :
    Recordless phase ∧ ∀ world : World, (world.after call).tasks = world.tasks := by
  cases step with
  | uncached => exact ⟨.inl (by decide), fun _ => rfl⟩
  | registered => exact ⟨.inl (by decide), fun _ => rfl⟩
  | contended => exact ⟨.inl (by decide), fun _ => rfl⟩
  | followed => exact ⟨.inl (by decide), fun _ => rfl⟩
  | unfollowed => exact ⟨.inl (by decide), fun _ => rfl⟩
  | missing existing => exact ⟨.inr ⟨existing, rfl⟩, fun _ => rfl⟩
  | reclaimed => exact ⟨.inl (by decide), fun _ => rfl⟩
  | _ => simp [Recordless] at recordless

/-- A creator that promised an entry goes on towards it unless it finds the queue full. -/
theorem Promising.step {ticket : Ticket} {phase phase' : RequestPhase} {call : Call}
    {reply : calls.Reply call} {world world' : World} (promising : Promising phase)
    (step : RequestStep ticket phase call reply phase') (served : Reliable call world reply world')
    (free : ∀ depth, (⟨call, reply⟩ : Σ call, calls.Reply call) = ⟨.xlen, .ok depth⟩ →
      depth < ticket.settings.maxQueueDepth) :
    Promising phase' ∨ world'.HasEntry ticket.taskId := by
  obtain ⟨⟨outside, replied⟩, rfl⟩ := served
  cases step with
  | admitted => exact .inl (.inr (.inl rfl))
  | queued => exact .inl (.inr (.inr (.inl rfl)))
  | measured => exact .inl (.inr (.inr (.inr rfl)))
  | published => exact .inr (hasEntry_xadd world ticket.taskId)
  | refused phase early reply depth read full =>
    subst replied
    cases read
    exact absurd (free _ rfl) (Nat.not_lt_of_le full)
  | raised error next => exact (not_error next ⟨⟨outside, replied⟩, rfl⟩).elim
  | _ => rcases promising with same | same | same | same <;> cases same

/-- What a request's own step and the others' steps do to what is known of it. -/
theorem RequestState.reply {id : ℕ} {agent : Agent} {world world' : World} {phase' : Phase}
    {call : Call} {reply : calls.Reply call} (state : RequestState settings uuid world id agent)
    (step : ServiceStep settings uuid id agent.label agent.control call reply phase')
    (served : Reliable call world reply world') :
    RequestState settings uuid world' id (agent.resume call reply phase') := by
  obtain ⟨phase, control, recordless, rejecting⟩ := state
  obtain ⟨label, control', log, killed⟩ := agent
  subst control
  cases step with
  | @request cikMapping payload identity _ phase' _ _ identified step =>
    obtain ⟨⟨outside, replied⟩, rfl⟩ := served
    refine ⟨phase', rfl, ?_, ?_⟩
    · intro later
      obtain ⟨earlier, unchanged⟩ := later.step step
      rw [unchanged]
      exact recordless earlier
    · rintro rfl
      cases step with
      | refused phase early reply depth read full =>
        subst replied
        cases read
        exact ⟨_, List.mem_cons_self .., full⟩

theorem promising_of_not {phase : RequestPhase} (saved : ¬ Recordless phase)
    (admitted : phase ≠ .rejecting) (open_ : ∀ answer, phase ≠ .ended answer) : Promising phase := by
  cases phase with
  | admitting => exact .inl rfl
  | queueing => exact .inr (.inl rfl)
  | measuring => exact .inr (.inr (.inl rfl))
  | publishing => exact .inr (.inr (.inr rfl))
  | rejecting => exact absurd rfl admitted
  | ended answer => exact absurd rfl (open_ answer)
  | attaching existing => exact absurd (.inr ⟨existing, rfl⟩) saved
  | _ => exact absurd (.inl (by decide)) saved

/-- A live creator that has not found the queue full, of a record that exists, is on its way. -/
theorem PromiseInvariant.creator (invariant : PromiseInvariant settings uuid view)
    (views : Views settings uuid Reliable config view) {creator : ℕ} {process : ServiceProcess}
    (present : config.process creator = some process) (active : process.Active)
    (unrefused : ¬ FoundFull settings process.log) (saved : view.world.tasks (uuid creator) ≠ none) :
    ∃ agent phase, view.process creator = some agent ∧ agent.killed = false ∧
      agent.control = .request phase ∧ Promising phase := by
  obtain ⟨agent, found, follows⟩ := Refinement.seen views present
  obtain ⟨alive, unfinished⟩ := (active_iff follows).mp active
  obtain ⟨phase, control, recordless, rejecting⟩ := invariant.requests creator agent found
  refine ⟨agent, phase, found, alive, control, promising_of_not ?_ ?_ ?_⟩
  · exact fun early => saved (recordless early)
  · intro same
    refine unrefused ?_
    rw [follows.2.1]
    exact rejecting same
  · rintro answer rfl
    exact unfinished (.inl ⟨answer, control⟩)

/-- Nobody who was promised a task is left behind by an event of its creator. -/
theorem PromiseInvariant.unpromised (views : Views settings uuid Reliable config view)
    {taskId : TaskId} (free : Unpromised config taskId) {id : ℕ} {agent : Agent}
    (present : view.process id = some agent) :
    agent.control ≠ .request (.ended (some taskId)) := by
  intro control
  obtain ⟨process, found, follows⟩ := Refinement.behind views present
  exact free id process found ((accepted_iff follows taskId).mpr control)

/-- What the step of one process has to re-establish; the others keep what is known of them. -/
theorem PromiseInvariant.put {id : ℕ} {agent' : Agent} {world' : World}
    (invariant : PromiseInvariant settings uuid view)
    (injective : ∀ id id', uuid id = uuid id' → id = id') (keyed : world'.Keyed)
    (tasks : ∀ taskId, taskId ≠ uuid id → world'.tasks taskId = view.world.tasks taskId)
    (entries : ∀ taskId, view.world.HasEntry taskId → world'.HasEntry taskId)
    (state : RequestState settings uuid world' id agent')
    (promised : ∀ taskId, agent'.control = .request (.ended (some taskId)) →
      Kept uuid (view.put id agent' world') taskId)
    (creator : ∀ agent phase, view.process id = some agent → agent.killed = false →
      agent.control = .request phase → Promising phase →
      (∃ id' agent', view.process id' = some agent' ∧
        agent'.control = .request (.ended (some (uuid id)))) →
      Kept uuid (view.put id agent' world') (uuid id)) :
    PromiseInvariant settings uuid (view.put id agent' world') := by
  refine ⟨keyed, ?_, ?_, ?_⟩
  · intro other gone
    by_cases same : other = id
    · subst same
      rw [Config.put_self] at gone
      cases gone
    · rw [Config.put_of_ne same] at gone
      rw [Config.put_world, tasks _ fun named => same (injective _ _ named)]
      exact invariant.unused other gone
  · intro other agent present
    by_cases same : other = id
    · subst same
      rw [Config.put_self, Option.some.injEq] at present
      exact present ▸ state
    · rw [Config.put_of_ne same] at present
      obtain ⟨phase, control, recordless, rejecting⟩ := invariant.requests other agent present
      refine ⟨phase, control, fun early => ?_, rejecting⟩
      rw [Config.put_world, tasks _ fun named => same (injective _ _ named)]
      exact recordless early
  · intro other agent taskId present control
    by_cases same : other = id
    · subst same
      rw [Config.put_self, Option.some.injEq] at present
      exact promised taskId (present ▸ control)
    · rw [Config.put_of_ne same] at present
      rcases invariant.kept other agent taskId present control with
        has | ⟨source, agent'', phase, named, found, alive, standing, promising⟩
      · exact .inl (entries taskId has)
      · by_cases own : source = id
        · subst own named
          exact creator agent'' phase found alive standing promising ⟨other, agent, present, control⟩
        · refine .inr ⟨source, agent'', phase, named, ?_, alive, standing, promising⟩
          rw [Config.put_of_ne own, found]

/-- The promises survive every step that keeps them. -/
theorem PromiseInvariant.step (injective : ∀ id id', uuid id = uuid id' → id = id')
    (views : Views settings uuid Reliable config view)
    (requests : RequestsOnly event) (keeps : KeepsPromises settings uuid config event)
    (step : (outline settings uuid Reliable).Step view event view')
    (invariant : PromiseInvariant settings uuid view) : PromiseInvariant settings uuid view' := by
  cases step with
  | @start id label world absent begins =>
    cases label with
    | handling => exact requests.elim
    | request cikMapping payload =>
      obtain rfl : world = view.world := begins
      refine invariant.put injective invariant.keyed (fun _ _ => rfl) (fun _ has => has)
        ⟨_, rfl, fun _ => invariant.unused id absent, ?_⟩ ?_ ?_
      · rcases RequestPhase.initial_cases (Routes.requestedIdentity cikMapping payload) with
          same | same <;> rw [same] <;> nofun
      · rintro taskId control
        rcases RequestPhase.initial_cases (Routes.requestedIdentity cikMapping payload) with
          same | same <;> simp [outline, Phase.initial, same] at control
      · intro agent phase found
        rw [absent] at found
        cases found
  | @reply id agent call reply phase' world present alive moves served =>
    have state := (invariant.requests id agent present).reply moves served
    obtain ⟨label, control, log, killed⟩ := agent
    cases moves with
    | handling step =>
      obtain ⟨phase, control, _⟩ := invariant.requests id _ present
      cases control
    | @request cikMapping payload identity phase phase' _ _ identified step =>
      have effect : world = view.world.after call := served.2
      subst effect
      refine invariant.put injective (invariant.keyed.after call) (fun _ other => step.tasks_other _ other)
        (fun _ has => hasEntry_after has call) state ?_ ?_
      · rintro taskId ⟨⟩
        cases step with
        | published => exact .inl (hasEntry_xadd _ _)
        | attached existing task =>
          -- The record read is stored under its own id, so the guard speaks about it.
          obtain ⟨⟨outside, replied⟩, _⟩ := served
          have saved : view.world.tasks existing = some task := (Except.ok.inj replied).symm
          rw [invariant.keyed existing task saved]
          rcases keeps with has | ⟨creator, process, rfl, found, active, unrefused⟩
          · rw [views.world] at has
            exact .inl (hasEntry_after has _)
          · obtain ⟨agent', phase, there, living, standing, promising⟩ :=
              invariant.creator views found active unrefused (by rw [saved]; nofun)
            refine .inr ⟨creator, agent', phase, rfl, ?_, living, standing, promising⟩
            rw [Config.put_of_ne, there]
            rintro rfl
            rw [present, Option.some.injEq] at there
            subst there
            cases standing
            rcases promising with same | same | same | same <;> cases same
      · rintro agent' phase found _ control promising ⟨requester, agent'', there, answered⟩
        rw [present, Option.some.injEq] at found
        subst found
        cases control
        have free : ∀ depth, (⟨call, reply⟩ : Σ call, calls.Reply call) = ⟨.xlen, .ok depth⟩ →
            depth < settings.maxQueueDepth := by
          rintro depth ⟨⟩
          rcases keeps with free | free
          · exact free
          · exact absurd answered (PromiseInvariant.unpromised views free there)
        rcases promising.step step served free with later | has
        · exact .inr ⟨id, _, phase', rfl, Config.put_self, alive, rfl, later⟩
        · exact .inl has
  | @kill id agent present alive =>
    refine invariant.put injective invariant.keyed (fun _ _ => rfl) (fun _ has => has)
      (invariant.requests id agent present) ?_ ?_
    · intro taskId control
      rcases invariant.kept id agent taskId present control with
        has | ⟨creator, agent', phase, named, found, living, standing, promising⟩
      · exact .inl has
      · refine .inr ⟨creator, agent', phase, named, ?_, living, standing, promising⟩
        rw [Config.put_of_ne, found]
        rintro rfl
        rw [present, Option.some.injEq] at found
        subst found
        rw [show agent.control = _ from control] at standing
        cases standing
        rcases promising with same | same | same | same <;> cases same
    · rintro agent' phase found _ _ _ ⟨requester, agent'', there, control⟩
      rcases keeps with has | free
      · exact .inl (views.world ▸ has)
      · exact absurd control (PromiseInvariant.unpromised views free there)

/-- Once every request has ended the promises have been kept. -/
theorem PromiseInvariant.accepted (invariant : PromiseInvariant settings uuid view)
    (views : Views settings uuid Reliable config view) (rest : config.Quiescent) :
    ∀ id process taskId, config.process id = some process → Accepted process taskId →
      config.world.HasEntry taskId := by
  intro id process taskId present accepted
  obtain ⟨agent, found, follows⟩ := Refinement.seen views present
  rw [views.world]
  rcases invariant.kept id agent taskId found ((accepted_iff follows taskId).mp accepted) with
    has | ⟨creator, agent', phase, _, there, alive, control, promising⟩
  · exact has
  · -- A creator still on its way would be active.
    obtain ⟨process', source, follows'⟩ := Refinement.behind views there
    refine absurd ((active_iff follows').mpr ⟨alive, ?_⟩) (rest creator process' source)
    rw [control]
    rintro (⟨answer, same⟩ | same)
    · cases same
      rcases promising with same | same | same | same <;> cases same
    · cases same

end Preserved

/-! ### Entries stay where they are -/

/-- No entry has been acknowledged or removed. -/
def NoneRemoved (world : World) : Prop :=
  ∀ entry ∈ world.stream, entry.status ≠ .acked ∧ entry.deleted = false

/-- A request acknowledges nothing, and removes nothing. -/
theorem RequestStep.noneRemoved {ticket : Ticket} {phase phase' : RequestPhase} {call : Call}
    {reply : calls.Reply call} (step : RequestStep ticket phase call reply phase') {world : World}
    (none : NoneRemoved world) : NoneRemoved (world.after call) := by
  have next := step.call?_eq
  cases phase <;> cases next
  case publishing =>
    intro entry member
    rcases List.mem_append.mp member with member | member
    · exact none entry member
    · obtain rfl := List.mem_singleton.mp member
      exact ⟨by rintro ⟨⟩, rfl⟩
  all_goals exact none

/-- All processes are requests, and no entry has been removed. -/
structure RequestsAlone (view : ServiceView) : Prop where
  requests : ∀ id agent, view.process id = some agent → ∃ phase, agent.control = .request phase
  stream : NoneRemoved view.world

theorem RequestsAlone.step {settings : Settings} {uuid : ℕ → TaskId} {view view' : ServiceView} {event : ServiceEvent}
    (requests : RequestsOnly event) (step : (outline settings uuid Reliable).Step view event view')
    (alone : RequestsAlone view) : RequestsAlone view' := by
  constructor
  · refine @System.Step.forall_process _ _ _ _ _ (fun _ _ agent => ∃ phase : RequestPhase,
      agent.control = Phase.request phase) _ _ _ step alone.requests ?_ fun _ _ _ _ known => known
    intro agent present
    cases step with
    | @start id label world absent begins =>
      obtain rfl := Option.some.inj (Config.put_self.symm.trans present)
      cases label with
      | request => exact ⟨_, rfl⟩
      | handling => exact requests.elim
    | @reply id agent' call reply phase' world found alive moves served =>
      obtain rfl := Option.some.inj (Config.put_self.symm.trans present)
      obtain ⟨label, control, log, killed⟩ := agent'
      cases moves with
      | request => exact ⟨_, rfl⟩
      | handling =>
        obtain ⟨phase, control⟩ := alone.requests _ _ found
        cases control
    | @kill id agent' found alive =>
      obtain rfl := Option.some.inj (Config.put_self.symm.trans present)
      exact alone.requests id agent' found
  · cases step with
    | @start id label world absent begins =>
      cases label with
      | request =>
        obtain rfl : world = view.world := begins
        exact alone.stream
      | handling => exact requests.elim
    | kill => exact alone.stream
    | @reply id agent call reply phase' world present alive moves served =>
      obtain ⟨label, control, log, killed⟩ := agent
      obtain rfl : world = view.world.after call := served.2
      cases moves with
      | request identified step => exact step.noneRemoved alone.stream
      | handling =>
        obtain ⟨phase, control⟩ := alone.requests _ _ present
        cases control

/-- A run of requests alone, every step of which keeps its promises. -/
def PromiseRun (settings : Settings) (uuid : ℕ → TaskId) (world : World)
    (events : List ServiceEvent) (config : ServiceConfig) : Prop :=
  Path (Guarded (service settings uuid Reliable).Step fun config event =>
    RequestsOnly event ∧ KeepsPromises settings uuid config event) (.idle world) events config

/-- Once every request has ended, each task answered 202 has an entry. Unless some entry was acknowledged or
removed before the requests came, none is by then. -/
def AcceptedHaveEntries (world : World) (config : ServiceConfig) : Prop :=
  config.Quiescent → (∀ id process taskId, config.process id = some process →
    Accepted process taskId → config.world.HasEntry taskId) ∧ (NoneRemoved world → NoneRemoved config.world)

/-- In every run of requests that keeps its promises no accepted task is lost. -/
theorem accepted_has_entry {settings : Settings} {uuid : ℕ → TaskId} {world : World}
    {events : List ServiceEvent} {config : ServiceConfig} (fresh : FreshIds uuid world)
    (keyed : world.Keyed) (run : PromiseRun settings uuid world events config) :
    AcceptedHaveEntries world config := by
  have initial : PromiseInvariant settings uuid (.idle world) :=
    ⟨keyed, fun id _ => fresh.unused id, fun _ _ present => Config.idle_absent present,
      fun _ _ _ present => Config.idle_absent present⟩
  obtain ⟨view, views, invariant⟩ := service_refines.invariant
    (fun config view event view' views guard step invariant =>
      invariant.step fresh.injective views guard.1 guard.2 step) run initial
  intro rest
  refine ⟨?_, fun none => ?_⟩
  · exact invariant.accepted views rest
  · obtain ⟨view', views', alone⟩ := service_refines.invariant
      (fun _ _ _ _ _ guard step alone => RequestsAlone.step guard.1 step alone) run
      ⟨fun _ _ present => Config.idle_absent present, none⟩
    rw [views'.world]
    exact alone.stream

/-- A second request for the same report attaches while the first one is under way, and a third one asks for
another year. -/
def twoYears : List (Move Activity Outside) :=
  [.start 0 (Sample.request (some 2024)), .serve 0 default, .serve 0 default, .serve 0 default,
    .start 1 (Sample.request (some 2024)), .start 2 (Sample.request none)] ++
    (List.replicate 4 [.serve 1 default, .serve 2 default]).flatten ++
    (List.replicate 3 [.serve 0 default, .serve 2 default]).flatten ++ [.serve 0 default]

def Measures : Call → Prop
  | .xlen => True
  | _ => False

instance : DecidablePred Measures
  | .xlen => isTrue trivial
  | .hgetallLogical _ | .hsetLogical _ _ | .getPending _ | .setPending _ _ | .setPendingNx _ _ | .deletePending _
  | .getTask _ | .setTask _ | .xadd _ | .xack _ | .xdel _ | .getSubmissions _ | .downloadDocument _
  | .convertToPdf _ _ _ | .pathExists _ | .makedirs _ | .openTruncate _ | .writeFile _ _ | .replace _ _ => isFalse id

/-- The request is under way and has not asked for the depth yet. -/
def Unmeasured (process : ServiceProcess) : Prop :=
  process.Active ∧ ∀ served ∈ process.log, ¬ Measures served.1

instance (process : ServiceProcess) : Decidable (Unmeasured process) :=
  inferInstanceAs (Decidable (_ ∧ ∀ served ∈ process.log, _))

/-- A request attaches to a task that the first one is creating, and none is refused or killed. -/
def Undisturbed (config : ServiceConfig) : ServiceEvent → Bool
  | .reply _ (.getTask taskId) (.ok (some _)) =>
    decide (taskId = Sample.uuid 0 ∧ ∃ process ∈ config.process 0, Unmeasured process)
  | .reply _ .xlen (.ok depth) => depth < 2
  | .kill _ => false
  | _ => true

theorem Undisturbed.keeps {config : ServiceConfig} {event : ServiceEvent}
    (undisturbed : Undisturbed config event = true) :
    KeepsPromises (Sample.settings 2) Sample.uuid config event := by
  unfold KeepsPromises
  split
  · obtain ⟨rfl, process, present, active, unmeasured⟩ := of_decide_eq_true undisturbed
    refine .inr ⟨0, process, rfl, present, active, ?_⟩
    rintro ⟨depth, asked, _⟩
    exact unmeasured _ asked trivial
  · exact .inl (of_decide_eq_true undisturbed)
  · cases undisturbed
  · trivial

theorem accepted_has_entry_two_years : ∃ events config,
    PromiseRun (Sample.settings 2) Sample.uuid Sample.world events config ∧ config.Quiescent ∧
    (∃ process ∈ config.process 1, Accepted process "task-0") ∧
    (∃ process ∈ config.process 2, Accepted process "task-2") ∧ AcceptedHaveEntries Sample.world config := by
  have plays : (Service.reliablePlayer (Sample.settings 2) Sample.uuid).Plays
      (fun config event => RequestsOnly event ∧ Undisturbed config event = true)
      (fun config => (∀ move ∈ twoYears, config.InactiveAt move.id) ∧
        (∃ process ∈ config.process 1, Accepted process "task-0") ∧
          ∃ process ∈ config.process 2, Accepted process "task-2") (.idle Sample.world) twoYears := by
    decide +kernel
  obtain ⟨events, config, path, rest, attached, accepted⟩ := plays.quiescent
  have run : PromiseRun (Sample.settings 2) Sample.uuid Sample.world events config :=
    path.weaken fun _ _ guard => ⟨guard.1, Undisturbed.keeps guard.2⟩
  exact ⟨events, config, run, rest, attached, accepted,
    accepted_has_entry Sample.uuid_fresh Sample.world_keyed run⟩

/-- A schedule in which the second request attaches to the first one's task, which is then
refused: the queue holds at most one entry, and a third request for another year fills it. -/
def attachThenRefuse : List (Move Activity Outside) :=
  [.start 0 (Sample.request (some 2024)), .serve 0 default, .serve 0 default, .serve 0 default,
    .start 1 (Sample.request (some 2024)), .serve 1 default, .serve 1 default, .serve 1 default,
    .serve 1 default,
    .start 2 (Sample.request (some 2023)), .serve 2 default, .serve 2 default, .serve 2 default,
    .serve 2 default, .serve 2 default, .serve 2 default, .serve 2 default,
    .serve 0 default, .serve 0 default]

/-- Requests alone can lose an accepted task. -/
theorem accepted_task_lost : ¬ ∀ events config,
    Path (Guarded (service (Sample.settings 1) Sample.uuid Reliable).Step fun _ event =>
      RequestsOnly event) (.idle Sample.world) events config → AcceptedHaveEntries Sample.world config := by
  intro claimed
  have plays : (Service.reliablePlayer (Sample.settings 1) Sample.uuid).Plays
      (fun _ event => RequestsOnly event)
      (fun config => (∀ move ∈ attachThenRefuse, config.InactiveAt move.id) ∧
        (∃ process ∈ config.process 1, Accepted process "task-0") ∧ ¬ config.world.HasEntry "task-0")
      (.idle Sample.world) attachThenRefuse := by
    decide +kernel
  obtain ⟨events, config, path, rest, ⟨process, present, accepted⟩, lost⟩ := plays.quiescent
  exact lost ((claimed events config path rest).1 1 process "task-0" present accepted)

end Quartr.Soundness
