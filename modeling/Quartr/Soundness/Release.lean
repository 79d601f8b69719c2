import Quartr.Model.Sample
import Quartr.Soundness.Acknowledgement
import Quartr.Soundness.Pointers

/-! # Finished tasks hold no pointer

Commands may raise and handlings may be killed and repeated. A task that is terminal and has no
message left to handle then holds a pointer only if a handling lost track of the path the task was
registered under, or acknowledged although the pointer was not released. `KeepsTrack` excludes
just these steps.
-/

namespace Quartr.Soundness

open Quartr.Machine Quartr.Model
open Quartr.Machine.Coroutine (Runs)

/-- The record is terminal and every message of the task has been acknowledged. -/
def Concluded (world : World) (taskId : TaskId) : Prop :=
  Done world taskId ∧ ∀ index, ¬ UnackedAt world taskId index

/-- No pointer holds a concluded task. -/
def Released (world : World) : Prop :=
  ∀ taskId, Concluded world taskId → ∀ key, world.pending key ≠ some taskId

/-- The last call of the process raised. -/
def Stumbled (log : List (Σ call, calls.Reply call)) : Prop :=
  ∃ call error rest, log = ⟨call, .error error⟩ :: rest

/-- While a pointer holds the task, a handling of it finds its record under the path of the pointer,
and finds it COMPLETED only when it begins or when another message is left; it acknowledges only
when its last command did not raise, and saves FAILED under the path of the pointer. -/
def KeepsTrack (config : ServiceConfig) : ServiceEvent → Prop
  | .reply id (.getTask taskId) (.ok (some task)) =>
    ∀ process ∈ config.process id, ∀ cikMapping now entry fields,
      process.label = .handling cikMapping now entry fields →
        ∀ key, config.world.pending key = some taskId → task.pendingKey = key ∧
          (task.state = .completed → process.log = [] ∨
            ∃ other, other ≠ entry ∧ UnackedAt config.world taskId other)
  | .reply id (.xack _) _ =>
    ∀ process ∈ config.process id, ∀ taskId, process.label.taskId? = some taskId →
      Stumbled process.log → ∀ key, config.world.pending key ≠ some taskId
  | .reply _ (.setTask saved) (.ok _) => saved.state = .failed →
      ∀ key, config.world.pending key = some saved.taskId → saved.pendingKey = key
  | _ => True

/-- What a live handling knows of the pointer that holds its task. -/
def Tracks (world : World) (taskId : TaskId) (entry : ℕ) (log : List (Σ call, calls.Reply call))
    (phase : HandlingPhase) : Prop :=
  ∀ key, world.pending key = some taskId →
    match phase with
    | .loaded task => task.pendingKey = key
    | .running task _ => task.pendingKey = key
    | .completed original saved => pendingTaskKey original.logicalPath saved.includeAmended = key
    | .released original saved => saved.pendingKey ≠ key ∧
        pendingTaskKey original.logicalPath saved.includeAmended = key
    | .published original saved => pendingTaskKey original.logicalPath saved.includeAmended = key
    | .failed saved => saved.pendingKey = key
    | .buried saved => saved.pendingKey = key
    | .finished => Stumbled log ∨ ∃ other, other ≠ entry ∧ UnackedAt world taskId other
    | _ => True

section Steps

variable {worker : Worker} {entry : ℕ} {taskId : TaskId} {phase phase' : HandlingPhase} {call : Call}
  {reply : calls.Reply call} {world world' : World} {log : List (Σ call, calls.Reply call)}

theorem Tracks.stopped : Tracks world taskId entry log .stopped := fun _ _ => trivial

theorem Tracks.orBroken (reply : calls.Reply call) {saved : ReportTask}
    (tracks : ∀ answer, reply = .ok answer → Tracks world taskId entry log phase) :
    Tracks world taskId entry log (orBroken reply saved phase) := by
  cases reply with
  | error error => exact fun _ _ => trivial
  | ok answer => exact tracks answer rfl

theorem Tracks.orStopped (reply : calls.Reply call)
    (tracks : ∀ answer, reply = .ok answer → Tracks world taskId entry log phase) :
    Tracks world taskId entry log (orStopped reply phase) := by
  cases reply with
  | error error => exact fun _ _ => trivial
  | ok answer => exact tracks answer rfl

/-- Another process leaves what a handling knows as it is. -/
theorem Tracks.touched (tracks : Tracks world taskId entry log phase)
    (fewer : ∀ key, world'.pending key = some taskId → world.pending key = some taskId)
    (unacked : ∀ index, UnackedAt world taskId index → UnackedAt world' taskId index) :
    Tracks world' taskId entry log phase := by
  intro key held
  have before := tracks key (fewer key held)
  cases phase with
  | finished =>
    rcases before with stumbled | ⟨other, apart, left⟩
    · exact .inl stumbled
    · exact .inr ⟨other, apart, unacked other left⟩
  | _ => exact before

/-- An answered DEL leaves no holder. -/
theorem served_deletePending {key : String} {answer : Unit} {holder : TaskId}
    (served : Faulty (.deletePending key) world (.ok answer) world') :
    world'.pending key ≠ some holder := by
  rw [(served_answer served).2, World.after_pending]
  simp only [Function.update_self, ne_eq, reduceCtorEq, not_false_eq_true]

/-- What a handling knows of its pointer after a step that keeps track of it. -/
theorem Tracks.step (tracks : Tracks world taskId entry log phase)
    (step : HandlingStep worker entry taskId phase call reply phase')
    (served : Faulty call world reply world') (held : phase.Holds fun task => task.taskId = taskId)
    (saved : world.tasks taskId ≠ none) (inside : entry < world.stream.length)
    (begun : phase = .fresh ∨ log ≠ [])
    (reads : ∀ task, (⟨call, reply⟩ : Σ call, calls.Reply call) = ⟨.getTask taskId, .ok (some task)⟩ →
      ∀ key, world.pending key = some taskId → task.pendingKey = key ∧
        (task.state = .completed → log = [] ∨ ∃ other, other ≠ entry ∧ UnackedAt world taskId other))
    (fails : ∀ record answer,
      (⟨call, reply⟩ : Σ call, calls.Reply call) = ⟨.setTask record, .ok answer⟩ →
        record.state = .failed → ∀ key, world.pending key = some taskId → record.pendingKey = key) :
    Tracks world' taskId entry (⟨call, reply⟩ :: log) phase' := by
  have fewer (key : String) (pointer : world'.pending key = some taskId) :
      world.pending key = some taskId :=
    step.fewer served pointer
  cases step with
  | missed => exact absurd (served_getTask served).1.symm saved
  | load task =>
    intro key pointer
    have found := (reads task rfl key (fewer key pointer)).1
    unfold HandlingPhase.entering
    split_ifs
    · exact found
    · exact found
  | start task record reply legal result =>
    refine .orBroken reply fun answer _ key pointer => ?_
    subst result
    exact tracks key (fewer key pointer)
  | pipeline => exact fun key pointer => tracks key (fewer key pointer)
  | complete task record stored selection reply legal selects present result =>
    refine .orBroken reply fun answer _ key pointer => ?_
    subst result
    exact tracks key (fewer key pointer)
  | release original record reply =>
    refine .orBroken reply fun answer same key pointer => ?_
    subst same
    refine ⟨?_, tracks key (fewer key pointer)⟩
    rintro rfl
    exact served_deletePending served pointer
  | publish original record filing path filed stored reply =>
    intro key pointer
    obtain ⟨apart, registered⟩ := tracks key (fewer key pointer)
    cases reply with
    | error error => exact .inl ⟨_, error, log, rfl⟩
    | ok answer =>
      unfold HandlingPhase.bookkept
      split_ifs with moved
      · exact registered
      · rw [ne_eq, Decidable.not_not] at moved
        rw [ReportTask.pendingKey, moved] at apart
        exact absurd registered apart
  | unpin original record reply =>
    intro key pointer
    have registered := tracks key (fewer key pointer)
    cases reply with
    | error error => exact .inl ⟨_, error, log, rfl⟩
    | ok answer =>
      subst registered
      exact absurd pointer (served_deletePending served)
  | fail task object record stored message spent reply legal attempted budget result =>
    refine .orBroken reply fun answer same key pointer => ?_
    subst same
    exact fails record answer rfl (by rw [result]) key (fewer key pointer)
  | clear record reply =>
    refine .orBroken reply fun answer same key pointer => ?_
    subst same
    have registered : record.pendingKey = key := tracks key (fewer key pointer)
    subst registered
    exact absurd pointer (served_deletePending served)
  | retry => exact .orBroken _ fun _ _ _ _ => trivial
  | requeue => exact .orBroken _ fun _ _ _ _ => trivial
  | enqueue record reply =>
    refine .orBroken reply fun answer same key pointer => .inr ⟨world.stream.length, by omega, ?_⟩
    subst same
    have own : record.taskId = taskId := held record rfl
    refine ⟨Entry.new record.taskId, ?_, congrArg some own, by rintro ⟨⟩⟩
    rw [(served_answer served).2, World.after_stream]
    exact List.getElem?_concat_length
  | reread _ object read interrupted =>
    obtain ⟨rfl, rfl⟩ := served_getTask served
    have repeated : log ≠ [] := by
      refine begun.resolve_left ?_
      rintro rfl
      cases interrupted
    cases found : world'.tasks taskId with
    | none => exact absurd found saved
    | some task =>
      intro key pointer
      have known := (reads task (by rw [found]) key pointer).2
      simp only [Option.getD_some, HandlingPhase.recovering]
      split_ifs with completed
      · exact .inr ((known completed).resolve_left repeated)
      · trivial
      · trivial
  | bury current record message reply alive result =>
    refine .orStopped reply fun answer same key pointer => ?_
    subst same
    exact fails record answer rfl (by rw [result]) key (fewer key pointer)
  | forget record reply =>
    refine .orStopped reply fun answer same key pointer => ?_
    subst same
    have registered : record.pendingKey = key := tracks key (fewer key pointer)
    subst registered
    exact absurd pointer (served_deletePending served)
  | ack reply => exact .orStopped reply fun _ _ _ _ => trivial
  | _ => exact fun _ _ => trivial

/-- A request never makes its task terminal. -/
theorem RequestStep.done {ticket : Ticket} {before after : RequestPhase}
    (step : RequestStep ticket before call reply after) (served : Faulty call world reply world')
    (done : Done world' ticket.taskId) : Done world ticket.taskId := by
  have next := step.call?_eq
  have unfinished (task : ReportTask) (own : task.taskId = ticket.taskId) (live : ¬ task.state.Terminal)
      (saved : Done (world.after (.setTask task)) ticket.taskId) : False := by
    obtain ⟨found, stored, terminal⟩ := saved
    rw [World.after_tasks, ← own] at stored
    cases (Function.update_self ..).symm.trans stored
    exact live terminal
  rcases served_world served with rfl | rfl
  · exact done
  · cases before with
    | creating =>
      cases next
      exact (unfinished _ rfl (by rintro (same | same) <;> cases same) done).elim
    | queueing =>
      cases next
      exact (unfinished _ rfl (by rintro (same | same) <;> cases same) done).elim
    | ended answer => cases next
    | _ =>
      cases next
      exact done

end Steps

/-! ### Runs -/

/-- What is known of one process beyond `AgentState`. -/
def ReleaseState (uuid : ℕ → TaskId) (world : World) (id : ℕ) (agent : Agent) : Prop :=
  match agent.label with
  | .request _ _ => ∀ phase, agent.control = .request phase → Recordless phase →
      world.tasks (uuid id) = none
  | .handling _ _ entry fields => ∀ phase taskId, agent.control = .handling phase →
      fieldsTaskId fields = some taskId → agent.killed = false →
        Tracks world taskId entry agent.log phase ∧ (phase = .fresh ∨ agent.log ≠ [])

structure ReleaseInvariant (uuid : ℕ → TaskId) (view : ServiceView) : Prop where
  ack : AckInvariant uuid view
  attended : ∀ taskId key, view.world.pending key = some taskId → view.world.HasEntry taskId →
    ∃ index, UnackedAt view.world taskId index
  enqueued : ∀ taskId key, view.world.pending key = some taskId → Done view.world taskId →
    view.world.HasEntry taskId
  unused : ∀ id, view.process id = none → view.world.tasks (uuid id) = none
  agents : ∀ id agent, view.process id = some agent → ReleaseState uuid view.world id agent

section Run

variable {settings : Settings} {uuid : ℕ → TaskId} {config : ServiceConfig} {view view' : ServiceView}
  {event : ServiceEvent} {world world₀ : World} {id : ℕ} {actor : TaskId}

/-- Concluded tasks have no pointer. -/
theorem ReleaseInvariant.released (invariant : ReleaseInvariant uuid view) : Released view.world := by
  intro taskId concluded key held
  have has := invariant.enqueued taskId key held concluded.1
  obtain ⟨index, unacked⟩ := invariant.attended taskId key held has
  exact concluded.2 index unacked

/-- The state of a process whose task another one does not touch. -/
theorem ReleaseState.touched {agent : Agent} (state : ReleaseState uuid view.world id agent)
    (touches : Touches actor view.world world)
    (fewer : ∀ taskId key, taskId ≠ actor → world.pending key = some taskId →
      view.world.pending key = some taskId)
    (owner : uuid id = actor → view.world.tasks actor = none → world.tasks actor = none)
    (foreign : ∀ taskId, agent.label.taskId? = some taskId → agent.killed = false →
      ¬ agent.control.Final → taskId ≠ actor) : ReleaseState uuid world id agent := by
  obtain ⟨label, control, log, killed⟩ := agent
  cases label with
  | request cikMapping payload =>
    intro phase at_ recordless
    have missing := state phase at_ recordless
    by_cases own : uuid id = actor
    · rw [own] at missing ⊢
      exact owner own missing
    · rw [touches.tasks _ own]
      exact missing
  | handling cikMapping now entry fields =>
    intro phase taskId at_ named alive
    obtain ⟨tracks, begun⟩ := state phase taskId at_ named alive
    refine ⟨?_, begun⟩
    by_cases ended : phase = .stopped
    · subst ended
      exact .stopped
    · have other : taskId ≠ actor := by
        refine foreign taskId named alive ?_
        rintro (⟨answer, same⟩ | same)
        · cases (show control = _ from at_).symm.trans same
        · cases (show control = _ from at_).symm.trans same
          exact ended rfl
      exact tracks.touched (fun key => fewer taskId key other)
        fun index unacked => unacked.touched touches other

/-- What the step of one process has to re-establish; `actor` is the task it touches. -/
theorem ReleaseInvariant.put {agent : Agent} (invariant : ReleaseInvariant uuid view)
    (ack : AckInvariant uuid (view.put id agent world)) (touches : Touches actor view.world world)
    (fewer : ∀ taskId key, taskId ≠ actor → world.pending key = some taskId →
      view.world.pending key = some taskId)
    (attended : ∀ key, world.pending key = some actor → world.HasEntry actor →
      ∃ index, UnackedAt world actor index)
    (enqueued : ∀ key, world.pending key = some actor → Done world actor → world.HasEntry actor)
    (owner : ∀ other, other ≠ id → uuid other = actor → view.world.tasks actor = none →
      world.tasks actor = none)
    (state : ReleaseState uuid world id agent)
    (foreign : ∀ other agent taskId, other ≠ id → view.process other = some agent →
      agent.label.taskId? = some taskId → agent.killed = false → ¬ agent.control.Final →
        taskId ≠ actor) : ReleaseInvariant uuid (view.put id agent world) := by
  refine ⟨ack, ?_, ?_, ?_, ?_⟩
  · intro taskId key held has
    by_cases own : taskId = actor
    · subst own
      exact attended key held has
    · obtain ⟨index, unacked⟩ := invariant.attended taskId key (fewer taskId key own held)
        (touches.hasEntry own has)
      exact ⟨index, unacked.touched touches own⟩
  · intro taskId key held done
    by_cases own : taskId = actor
    · subst own
      exact enqueued key held done
    · obtain ⟨task, stored, terminal⟩ := done
      have before : Done view.world taskId := ⟨task, (touches.tasks taskId own).symm.trans stored, terminal⟩
      obtain ⟨index, entry, present, named⟩ := hasEntry_iff.mp
        (invariant.enqueued taskId key (fewer taskId key own held) before)
      obtain ⟨entry', present', fields, _⟩ := touches.kept index entry present
      exact hasEntry_iff.mpr ⟨index, entry', present', by rw [fields, named]⟩
  · intro other absent
    obtain ⟨same, absent⟩ := Config.put_none absent
    have missing := invariant.unused other absent
    by_cases own : uuid other = actor
    · rw [own] at missing ⊢
      exact owner other same own missing
    · rw [Config.put_world, touches.tasks _ own]
      exact missing
  · intro other found present
    rcases Config.put_cases present with ⟨rfl, rfl⟩ | ⟨same, present⟩
    · exact state
    · exact (invariant.agents other found present).touched touches fewer (owner other same)
        fun taskId => foreign other found taskId same present

/-- Beginning an activity changes neither records nor pointers and leaves every entry unacknowledged
that is. -/
theorem ReleaseInvariant.start (fresh : FreshIds uuid world₀) (invariant : ReleaseInvariant uuid view)
    (views : Views settings uuid Faulty config view) {label : Activity}
    (absent : view.process id = none) (begins : Service.start view.world label world)
    (alone : NoOverlap config (.start id label)) :
    ReleaseInvariant uuid (view.put id ⟨label, Phase.initial label, [], false⟩ world) := by
  have ack := invariant.ack.start fresh.injective views absent begins alone
  have nobody (other : ℕ) (agent : Agent) (taskId : TaskId) (_ : other ≠ id)
      (present : view.process other = some agent) (named : agent.label.taskId? = some taskId)
      (alive : agent.killed = false) (unfinished : ¬ agent.control.Final) : taskId ≠ "" :=
    (invariant.ack.attended (invariant.ack.busy_entry present ⟨named, alive, unfinished⟩)).1
  cases label with
  | request cikMapping payload =>
    obtain rfl : world = view.world := begins
    refine invariant.put ack (.refl "" _) (fun _ _ _ held => held) (invariant.attended "")
      (invariant.enqueued "") (fun _ _ _ missing => missing) ?_ nobody
    exact fun _ _ _ => invariant.unused id absent
  | handling cikMapping now entry fields =>
    obtain ⟨⟨own, present, rfl, status, _⟩, rfl⟩ := begins
    have delivery := touches_deliver "" view.world entry
    obtain ⟨taskId, named, nonempty, _⟩ := invariant.ack.entries own (List.mem_of_getElem? present)
    refine invariant.put ack delivery (fun _ _ _ held => held) ?_ ?_ (fun _ _ _ missing => missing) ?_ nobody
    · intro key _ has
      exact absurd rfl (ack.attended has).1
    · intro key held done
      exact absurd rfl (invariant.ack.attended (invariant.enqueued "" key held done)).1
    · intro phase taskId' at_ named' _
      cases named.symm.trans named'
      have initial : HandlingPhase.initial own.fields = .fresh := by
        simp only [HandlingPhase.initial, named, nonempty, ↓reduceIte]
      simp only [Phase.initial, initial, Phase.handling.injEq] at at_
      subst at_
      exact ⟨fun _ _ => trivial, .inl rfl⟩

theorem ReleaseInvariant.kill (fresh : FreshIds uuid world₀) (invariant : ReleaseInvariant uuid view)
    {agent : Agent} (present : view.process id = some agent) :
    ReleaseInvariant uuid (view.put id { agent with killed := true } view.world) := by
  have ack := invariant.ack.kill fresh.nonempty present
  refine invariant.put ack (.refl "" _) (fun _ _ _ held => held) (invariant.attended "")
    (invariant.enqueued "") (fun _ _ _ missing => missing) ?_ ?_
  · have state := invariant.agents id agent present
    obtain ⟨label, control, log, killed⟩ := agent
    cases label with
    | request cikMapping payload => exact state
    | handling cikMapping now entry fields =>
      intro phase taskId _ _ dead
      cases dead
  · intro other agent taskId _ found named alive unfinished
    exact (invariant.ack.attended (invariant.ack.busy_entry found ⟨named, alive, unfinished⟩)).1

theorem ReleaseInvariant.reply (fresh : FreshIds uuid world₀) (invariant : ReleaseInvariant uuid view)
    (views : Views settings uuid Faulty config view) {agent : Agent} {call : Call}
    {reply : calls.Reply call} {phase' : Phase} (present : view.process id = some agent)
    (alive : agent.killed = false)
    (moves : ServiceStep settings uuid id agent.label agent.control call reply phase')
    (served : Faulty call view.world reply world) (tracked : KeepsTrack config (.reply id call reply)) :
    ReleaseInvariant uuid (view.put id (agent.resume call reply phase') world) := by
  have ack := invariant.ack.reply fresh.injective fresh.nonempty present alive moves served
  have unfinished := moves.not_final
  have state := invariant.agents id agent present
  have known := invariant.ack.agents id agent present
  obtain ⟨process, found, label_eq, log_eq, _⟩ := Refinement.behind views present
  obtain ⟨label, control, log, killed⟩ := agent
  cases moves with
  | @request cikMapping payload identity before after _ _ identified step =>
    obtain ⟨_, ⟨⟩, without, _⟩ := known
    have without : ¬ view.world.HasEntry (uuid id) := without (by rintro answer rfl; cases step.call?_eq)
    have touches := (step.mine view.world).served served
    refine invariant.put ack touches ?_ ?_ ?_ ?_ ?_ ?_
    · intro taskId key other held
      rcases step.fewer served held with before | ⟨own, _⟩
      · exact before
      · exact absurd own other
    · intro key held has
      exact (step.attended served without has).1
    · intro key held done
      have before := step.done served done
      rcases step.fewer served held with earlier | ⟨_, recordless, _⟩
      · exact absurd (invariant.enqueued _ key earlier before) without
      · obtain ⟨task, stored, _⟩ := before
        cases (state before rfl recordless).symm.trans stored
    · exact fun other differs same => absurd (fresh.injective _ _ same) differs
    · intro phase at_ recordless
      obtain rfl := Phase.request.inj at_
      obtain ⟨earlier, unsaved⟩ := recordless.step step
      have missing := state before rfl earlier
      rcases served_world served with rfl | rfl
      · exact missing
      · rw [unsaved]
        exact missing
    · rintro other agent taskId differs there named alive' unfinished' rfl
      exact without (invariant.ack.busy_entry there ⟨named, alive', unfinished'⟩)
  | @handling cikMapping now entry fields before after _ _ step =>
    obtain ⟨_, taskId, own, ⟨⟩, named, there, rfl, held, duty⟩ := known
    have identified : handledId own.fields = taskId := by
      simp only [handledId, named, Option.getD_some]
    rw [identified] at step
    have has : view.world.HasEntry taskId := hasEntry_iff.mpr ⟨entry, own, there, named⟩
    obtain ⟨nonempty, saved, _⟩ := invariant.ack.attended has
    have touches := (step.mine held there named).served served
    obtain ⟨tracks, begun⟩ := state before taskId rfl named alive
    have fewer (key : String) (holder : TaskId) (pointer : world.pending key = some holder) :
        view.world.pending key = some holder :=
      step.fewer served pointer
    refine invariant.put ack touches (fun holder key _ => fewer key holder) ?_ ?_ ?_ ?_ ?_
    · intro key pointer _
      obtain ⟨index, unacked⟩ := invariant.attended taskId key (fewer key _ pointer) has
      by_cases acks : call = .xack index
      · subst acks
        obtain ⟨rfl, rfl⟩ := step.xack_phase
        rcases tracks key (fewer key _ pointer) with stumbled | ⟨other, apart, left⟩
        · have lost := tracked process found taskId (by rw [label_eq]; exact named) (by rwa [log_eq]) key
          rw [views.world] at lost
          exact absurd (fewer key _ pointer) lost
        · refine ⟨other, left.served served ?_⟩
          rintro ⟨⟩
          exact apart rfl
      · exact ⟨index, unacked.served served acks⟩
    · intro key _ _
      rcases served_world served with rfl | rfl
      · exact has
      · exact hasEntry_after has call
    · intro other _ _ missing
      exact absurd missing saved
    · intro phase taskId' at_ named' _
      cases named.symm.trans named'
      obtain rfl := Phase.handling.inj at_
      refine ⟨tracks.step step served held saved ?_ begun ?_ ?_, .inr (List.cons_ne_nil _ _)⟩
      · exact (List.getElem?_eq_some_iff.mp there).1
      · rintro task ⟨⟩ key pointer
        have found_at := tracked process found cikMapping now entry own.fields label_eq key
        rw [views.world, log_eq] at found_at
        exact found_at pointer
      · rintro record answer ⟨⟩ failed key pointer
        have mine : record.taskId = taskId :=
          (step.keeps stable_taskId held (by rintro task ⟨⟩)).2 record rfl
        refine tracked failed key ?_
        rw [views.world, mine]
        exact pointer
    · rintro other agent taskId' differs there' named' alive' unfinished' rfl
      refine differs (invariant.ack.apart other id agent _ taskId' there' present
        ⟨named', alive', unfinished'⟩ ⟨named, alive, unfinished⟩)

end Run

/-! ### A later request -/

/-- A POST that nobody disturbs is never answered 202 with a concluded task. -/
def NeverAnswersConcluded (settings : Settings) (world : World) : Prop :=
  ∀ cikMapping taskId payload outside report response world', world.tasks taskId = none →
    Runs (World.answer outside) (Routes.createReport settings cikMapping taskId payload) .fresh world
      (.ok report) response world' →
    response.statusCode = 202 → ¬ Concluded world report.taskId

section Asking

variable {ticket : Ticket} {phase phase' : RequestPhase} {call : Call} {reply : calls.Reply call}
  {world now : World} {outside : Outside}

/-- What a request alone has found when it comes to answer. -/
def Asks (ticket : Ticket) (world now : World) : RequestPhase → Prop
  | .checking => now = world
  | .registering => now = world
  | .following => now = world
  | .attaching existing => now = world ∧ ∃ key, world.pending key = some existing
  | .ended answer => ∀ taskId, answer = some taskId → ¬ Concluded world taskId
  | _ => True

theorem Asks.step (keyed : world.Keyed) (released : Released world)
    (unused : world.tasks ticket.taskId = none) (asks : Asks ticket world now phase)
    (step : RequestStep ticket phase call reply phase') (replied : reply = now.reply outside call) :
    Asks ticket world (now.after call) phase' := by
  cases step with
  | cached => rintro taskId ⟨⟩
  | uncached => exact asks
  | contended =>
    obtain rfl : now = world := asks
    have taken : (now.pending ticket.pendingKey).isNone = false := (Except.ok.inj replied).symm
    simp only [Asks, World.after, taken, Bool.false_eq_true, ↓reduceIte]
  | followed existing named =>
    obtain rfl : now = world := asks
    exact ⟨rfl, ticket.pendingKey, (Except.ok.inj replied).symm⟩
  | attached existing task =>
    obtain ⟨rfl, key, held⟩ := asks
    have stored : now.tasks existing = some task := (Except.ok.inj replied).symm
    rintro taskId ⟨⟩ concluded
    rw [keyed existing task stored] at concluded
    exact released existing concluded key held
  | published =>
    rintro taskId ⟨⟩ ⟨⟨task, stored, _⟩, _⟩
    cases unused.symm.trans stored
  | rejected => rintro taskId ⟨⟩
  | raised => rintro taskId ⟨⟩
  | _ => trivial

end Asking

theorem Released.neverAnswersConcluded {settings : Settings} {world : World} (released : Released world)
    (keyed : world.Keyed) : NeverAnswersConcluded settings world := by
  intro cikMapping taskId payload outside report response world' unused runs accepted
  cases identified : Routes.requestedIdentity cikMapping payload with
  | error error =>
    unfold Routes.createReport Runs at runs
    rw [identified] at runs
    cases runs
  | ok identity =>
    let ticket : Ticket := ⟨settings, identity, payload.includeAmended, taskId⟩
    have follows : Coroutine.Follows (RequestStep ticket)
        (Routes.createReport settings cikMapping taskId payload) .fresh .checking
        (fun result response phase => phase = .ended (acceptedId? result response)) :=
      @createReport_follows ticket _ _ _ identified rfl
    have preserved (phase : RequestPhase) (call : Call) (phase' : RequestPhase) (now : World)
        (step : RequestStep ticket phase call (World.answer outside call now).1 phase')
        (asks : Asks ticket world now phase) :
        Asks ticket world (World.answer outside call now).2 phase' :=
      asks.step keyed released unused step rfl
    obtain ⟨phase, ended, asks⟩ := @Program.Follows.run _ _ _ _ _ World (World.answer outside)
      (fun phase now => Asks ticket world now phase) preserved _ _ _ follows
      (show Asks ticket world world .checking from rfl)
    rw [show (Routes.createReport settings cikMapping taskId payload .fresh).run (World.answer outside)
      world = _ from runs] at ended
    subst ended
    refine asks report.taskId ?_
    simp only [acceptedId?, accepted, ↓reduceIte]

/-- A run in which handlings of one task do not overlap and keep track of their pointers. -/
abbrev TrackedRun (settings : Settings) (uuid : ℕ → TaskId) (world : World)
    (events : List ServiceEvent) (config : ServiceConfig) : Prop :=
  Path (Guarded (service settings uuid Faulty).Step fun config event =>
    NoOverlap config event ∧ KeepsTrack config event) (.idle world) events config

/-- Concluded tasks hold no pointer, so nobody is sent to one. -/
theorem concluded_released {settings : Settings} {uuid : ℕ → TaskId} {world : World}
    {events : List ServiceEvent} {config : ServiceConfig} (fresh : FreshIds uuid world)
    (keyed : world.Keyed) (unpointed : ∀ key, world.pending key = none) (empty : world.stream = [])
    (run : TrackedRun settings uuid world events config) :
    Released config.world ∧ NeverAnswersConcluded settings config.world := by
  have pointers (key : String) (taskId : TaskId) : world.pending key ≠ some taskId := by
    rw [unpointed key]
    rintro ⟨⟩
  have ack : AckInvariant uuid (.idle world) := .idle keyed empty
  have initial : ReleaseInvariant uuid (.idle world) :=
    ⟨ack, fun taskId key held => absurd held (pointers key taskId),
      fun taskId key held => absurd held (pointers key taskId), fun id _ => fresh.unused id,
      fun _ _ present => Config.idle_absent present⟩
  obtain ⟨view, views, invariant⟩ := service_refines.invariant
    (fun config view event view' views allowed step invariant => by
      cases step with
      | start absent begins => exact invariant.start fresh views absent begins allowed.1
      | reply present alive moves served =>
        exact invariant.reply fresh views present alive moves served allowed.2
      | kill present alive => exact invariant.kill fresh present) run initial
  rw [views.world]
  exact ⟨invariant.released, invariant.released.neverAnswersConcluded invariant.ack.keyed⟩

/-- At most one command raises, and nobody is killed. -/
def RaisesOnce (config : ServiceConfig) : ServiceEvent → Prop
  | .reply _ _ (.error _) => ∀ id process, config.process id = some process →
      process.log.all fun answered => answered.2.isOk
  | .kill _ => False
  | _ => True

/-- `RaisesOnce` on the processes below a bound. -/
def raisesOnceBelow (bound : ℕ) (config : ServiceConfig) : ServiceEvent → Bool
  | .reply _ _ (.error _) => (List.range bound).all fun id =>
      (config.process id).all fun process => process.log.all fun answered => answered.2.isOk
  | .kill _ => false
  | _ => true

theorem raisesOnceBelow_sound {bound : ℕ} {config : ServiceConfig} {event : ServiceEvent}
    (above : ∀ id, bound ≤ id → config.process id = none)
    (below : raisesOnceBelow bound config event = true) : RaisesOnce config event := by
  unfold RaisesOnce
  split
  · intro id process present
    by_cases inside : id < bound
    · have checked := List.all_eq_true.mp below id (List.mem_range.mpr inside)
      rwa [present, Option.all_some] at checked
    · rw [above id (by omega)] at present
      cases present
  · cases below
  · trivial

/-- A request, and a handling whose DEL after the save of COMPLETED raises. -/
def raisedAtRelease : List (Move Activity Service.Choice) :=
  [.start 0 (Sample.request (some 2024))] ++ List.replicate 7 (.serve 0 (.succeeds default)) ++
    [.start 1 (Sample.handling 0 0)] ++ List.replicate 17 (.serve 1 (.succeeds Sample.outside)) ++
    [.serve 1 (.raises "connection reset" false)] ++ List.replicate 3 (.serve 1 (.succeeds default))

/-- The recovery acknowledges the completed task with its pointer in place. -/
theorem concluded_pinned : ¬ ∀ events config,
    Path (Guarded (service (Sample.settings 2) Sample.uuid Faulty).Step fun config event =>
      NoOverlap config event ∧ RaisesOnce config event) (.idle Sample.world) events config →
    Released config.world := by
  intro claimed
  have plays : (Service.faultyPlayer (Sample.settings 2) Sample.uuid).Plays
      (fun config event => event.id < 2 ∧ NoOverlapBelow 2 config event = true ∧
        raisesOnceBelow 2 config event = true)
      (fun config => (config.world.tasks "task-0").map ReportTask.state = some .completed ∧
        config.world.stream.all (fun entry => entry.status = .acked) = true ∧
        config.world.pending (pendingTaskKey (Sample.identity 2024).logicalPath false) = some "task-0")
      (.idle Sample.world) raisedAtRelease := by
    decide +kernel
  obtain ⟨events, config, path, ⟨completed, acked, held⟩, _⟩ := plays.path
  have run := System.bounded_run (fun _ _ above below =>
    And.intro (NoOverlapBelow.noOverlap above below.1) (raisesOnceBelow_sound above below.2)) path
  obtain ⟨task, stored, state⟩ := Option.map_eq_some_iff.mp completed
  refine claimed events config run "task-0" ⟨⟨task, stored, .inl state⟩, ?_⟩ _ held
  rintro index ⟨entry, present, _, status⟩
  exact status (of_decide_eq_true (List.all_eq_true.mp acked entry (List.mem_of_getElem? present)))

/-- `KeepsTrack` as a test, for runs that use one pointer only. -/
def keepsTrack (key : String) (config : ServiceConfig) : ServiceEvent → Bool
  | .reply _ (.setPendingNx other _) _ => other = key
  | .reply _ (.setPending other _) _ => other = key
  | .reply id (.getTask _) (.ok (some task)) => task.pendingKey = key &&
      (task.state ≠ .completed || (config.process id).all fun process => process.log.isEmpty)
  | .reply id (.xack _) _ => (config.process id).all fun process =>
      process.log.head?.all fun answered => answered.2.isOk
  | .reply _ (.setTask saved) _ => saved.state ≠ .failed
  | _ => true

theorem keepsTrack_sound {key : String} {config : ServiceConfig} {event : ServiceEvent}
    (only : ∀ other, other ≠ key → config.world.pending other = none)
    (checked : keepsTrack key config event = true) : KeepsTrack config event := by
  unfold KeepsTrack
  split
  · rename_i id taskId task
    intro process present cikMapping now entry fields _ other held
    simp only [keepsTrack, Bool.and_eq_true, Bool.or_eq_true, decide_eq_true_eq] at checked
    have same : other = key := by
      by_contra differs
      cases (only other differs).symm.trans held
    refine ⟨checked.1.trans same.symm, fun completed => .inl ?_⟩
    have unbegun := checked.2.resolve_left fun live => live completed
    rw [Option.mem_def] at present
    rw [present, Option.all_some] at unbegun
    exact List.isEmpty_iff.mp unbegun
  · rename_i id entry reply
    rintro process present taskId _ ⟨call, error, rest, log⟩
    rw [Option.mem_def] at present
    simp only [keepsTrack, present, log, Option.all_some, List.head?_cons] at checked
    cases checked
  · intro failed
    simp only [keepsTrack, failed, ne_eq, not_true_eq_false, decide_false, Bool.false_eq_true] at checked
  · trivial

/-- A run that passes the test uses no other pointer. -/
theorem keepsTrack_only {settings : Settings} {uuid : ℕ → TaskId} {key : String}
    {config config' : ServiceConfig} {event : ServiceEvent}
    (checked : keepsTrack key config event = true)
    (step : (service settings uuid Faulty).Step config event config')
    (only : ∀ other, other ≠ key → config.world.pending other = none) :
    ∀ other, other ≠ key → config'.world.pending other = none := by
  intro other differs
  have before := only other differs
  cases step with
  | @start id label world absent begins =>
    cases label with
    | request cikMapping payload =>
      obtain rfl : world = config.world := begins
      exact before
    | handling cikMapping now entry fields =>
      obtain ⟨_, rfl⟩ := begins
      exact before
  | kill => exact before
  | @reply id process call reply control world present alive moves served =>
    rcases served_world served with rfl | rfl
    · exact before
    · rw [Config.put_world, World.after_pending]
      cases call with
      | setPending named taskId =>
        obtain rfl : named = key := of_decide_eq_true checked
        exact (Function.update_of_ne differs ..).trans before
      | setPendingNx named taskId =>
        obtain rfl : named = key := of_decide_eq_true checked
        dsimp only
        split_ifs
        · exact (Function.update_of_ne differs ..).trans before
        · exact before
      | deletePending named =>
        by_cases same : other = named
        · subst same
          exact Function.update_self ..
        · exact (Function.update_of_ne same ..).trans before
      | _ => exact before

/-- A request, a handling killed between its save of COMPLETED and its DEL, and a redelivery. -/
def killedAtRelease : List (Move Activity Service.Choice) :=
  [.start 0 (Sample.request (some 2024))] ++ List.replicate 7 (.serve 0 (.succeeds default)) ++
    [.start 1 (Sample.handling 0 0)] ++ List.replicate 17 (.serve 1 (.succeeds Sample.outside)) ++
    [.kill 1, .start 2 (Sample.handling 0 0)] ++ List.replicate 8 (.serve 2 (.succeeds Sample.outside))

theorem concluded_released_redelivered : ∃ events config,
    TrackedRun (Sample.settings 2) Sample.uuid Sample.world events config ∧
    Concluded config.world "task-0" ∧
    Released config.world ∧ NeverAnswersConcluded (Sample.settings 2) config.world := by
  have plays : (Service.faultyPlayer (Sample.settings 2) Sample.uuid).Plays
      (fun config event => event.id < 3 ∧ NoOverlapBelow 3 config event = true ∧
        keepsTrack (pendingTaskKey (Sample.identity 2024).logicalPath false) config event = true)
      (fun config => (config.world.tasks "task-0").map ReportTask.state = some .completed ∧
        config.world.stream.all (fun entry => entry.status = .acked) = true)
      (.idle Sample.world) killedAtRelease := by
    decide +kernel
  obtain ⟨events, config, path, ⟨completed, acked⟩, _⟩ := plays.path
  have path := System.bounded_run (fun _ _ above below =>
    And.intro (NoOverlapBelow.noOverlap above below.1) below.2) path
  have run : TrackedRun (Sample.settings 2) Sample.uuid Sample.world events config := by
    refine path.strengthen (fun _ _ _ step => keepsTrack_only step.1.2 step.2) (fun _ _ => rfl) ?_
    exact fun config event _ step only => ⟨step.1.1, keepsTrack_sound only step.1.2⟩
  obtain ⟨task, stored, state⟩ := Option.map_eq_some_iff.mp completed
  refine ⟨events, config, run, ⟨⟨task, stored, .inl state⟩, ?_⟩,
    concluded_released Sample.uuid_fresh Sample.world_keyed (fun _ => rfl) rfl run⟩
  rintro index ⟨entry, present, _, status⟩
  exact status (of_decide_eq_true (List.all_eq_true.mp acked entry (List.mem_of_getElem? present)))

end Quartr.Soundness
