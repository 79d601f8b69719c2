import Quartr.Model.Sample
import Quartr.Soundness.Turns

/-! # Pointers are released by their owners

When activities take turns, a task that waits in the queue keeps its pointer, except that a task for
the latest year deletes, when it completes, the pointer of the year it was resolved to, whoever
holds it.
-/

namespace Quartr.Soundness

open Quartr.Machine Quartr.Model

/-- An activity begins when every other one has ended, and none is killed. -/
def Sequential (config : ServiceConfig) : ServiceEvent → Prop
  | .start _ _ => config.Quiescent
  | .kill _ => False
  | _ => True

/-- The task an activity finishes or rejects. -/
def ActsFor (uuid : ℕ → TaskId) (id : ℕ) (label : Activity) (taskId : TaskId) : Prop :=
  match label with
  | .request _ _ => uuid id = taskId
  | .handling _ _ _ fields => fieldsTaskId fields = some taskId

/-- The pointer holds only the task that the process acts for, or a finished one. -/
def MayRelease (uuid : ℕ → TaskId) (config : ServiceConfig) (id : ℕ) (key : String) : Prop :=
  ∀ holder, config.world.pending key = some holder →
    (∃ process ∈ config.process id, ActsFor uuid id process.label holder) ∨ Finished config.world holder

/-- A pointer that is deleted or overwritten is released by its own task. -/
def ReleasesOwn (uuid : ℕ → TaskId) (config : ServiceConfig) : ServiceEvent → Prop
  | .reply id (.deletePending key) _ => MayRelease uuid config id key
  | .reply id (.setPending key _) _ => MayRelease uuid config id key
  | _ => True

/-- When a task stored for the latest year is saved as COMPLETED, no other unfinished task holds the
pointer of the year it was resolved to. -/
def SparesHolders (config : ServiceConfig) : ServiceEvent → Prop
  | .reply _ (.setTask saved) _ => saved.state = .completed →
      ∀ stored, config.world.tasks saved.taskId = some stored →
        stored.identity.year = latestYearSentinel →
          ∀ holder, config.world.pending saved.pendingKey = some holder →
            holder = saved.taskId ∨ Finished config.world holder
  | _ => True

/-! ### Whose turn it is -/

/-- What holds of the activity that has its turn, about the task it acts for. -/
inductive AgentTurn (settings : Settings) (uuid : ℕ → TaskId) (world : World) (id : ℕ) :
    Activity → Phase → TaskId → Prop
  | request {cikMapping : CikMapping} {payload : CreateReportRequest} {identity : ReportIdentity}
      {phase : RequestPhase} (identified : Routes.requestedIdentity cikMapping payload = .ok identity)
      (turn : RequestTurn ⟨settings, identity, payload.includeAmended, uuid id⟩ world phase) :
      AgentTurn settings uuid world id (.request cikMapping payload) (.request phase) (uuid id)
  | rejected {cikMapping : CikMapping} {payload : CreateReportRequest}
      (orderly : Orderly world (uuid id)) :
      AgentTurn settings uuid world id (.request cikMapping payload) (.request (.ended none)) (uuid id)
  | handling {cikMapping : CikMapping} {now : String} {entry : ℕ} {fields : List (String × String)}
      {phase : HandlingPhase} {taskId : TaskId} (named : fieldsTaskId fields = some taskId)
      (there : ∃ e, world.stream[entry]? = some e ∧ fieldsTaskId e.fields = some taskId)
      (held : phase.Holds fun task => task.taskId = taskId)
      (turn : HandlingTurn taskId entry world phase) :
      AgentTurn settings uuid world id (.handling cikMapping now entry fields) (.handling phase) taskId

/-- At most one activity has not ended, and every task but its own is in order. -/
structure TurnInvariant (settings : Settings) (uuid : ℕ → TaskId) (view : ServiceView) : Prop where
  keyed : view.world.Keyed
  entries : ∀ (index : ℕ) (entry : Entry), view.world.stream[index]? = some entry →
    ∃ taskId, taskId ≠ "" ∧ fieldsTaskId entry.fields = some taskId
  pointers : ∀ key, view.world.pending key ≠ some ""
  alive : ∀ id agent, view.process id = some agent → agent.killed = false
  unused : ∀ id, view.process id = none → Untouched view.world (uuid id)
  turn : ∃ id taskId,
    (∀ other agent, other ≠ id → view.process other = some agent → agent.control.Final) ∧
    (∀ other, other ≠ taskId → Orderly view.world other) ∧
    (∀ agent, view.process id = some agent →
      AgentTurn settings uuid view.world id agent.label agent.control taskId) ∧
    (view.process id = none → Orderly view.world taskId)

section Run

variable {settings : Settings} {uuid : ℕ → TaskId} {config : ServiceConfig} {view view' : ServiceView}
  {event : ServiceEvent} {world world₀ : World} {id : ℕ}

theorem AgentTurn.orderly {label : Activity} {phase : Phase} {taskId : TaskId}
    (turn : AgentTurn settings uuid world id label phase taskId) (final : phase.Final) :
    Orderly world taskId := by
  cases turn with
  | request identified turn =>
    rcases final with ⟨answer, same⟩ | same
    · cases same
      exact turn
    · cases same
  | rejected orderly => exact orderly
  | handling named there held turn =>
    rcases final with ⟨answer, same⟩ | same
    · cases same
    · cases same
      exact turn

/-- Between two activities every task is in order. -/
theorem TurnInvariant.rest (invariant : TurnInvariant settings uuid view)
    (ended : ∀ id agent, view.process id = some agent → agent.control.Final) (taskId : TaskId) :
    Orderly view.world taskId := by
  obtain ⟨id, acting, _, others, turn, absent⟩ := invariant.turn
  by_cases same : taskId = acting
  · subst same
    cases present : view.process id with
    | none => exact absent present
    | some agent => exact (turn agent present).orderly (ended id agent present)
  · exact others taskId same

/-- Delivery disturbs nothing that is in order. -/
theorem respects_deliver (actor : TaskId) (world : World) (position : ℕ) :
    Respects actor world { world with stream := world.stream.modify position Entry.deliver } := by
  exact ⟨touches_deliver actor world position, fun _ _ _ unacked => unacked.of_deliver,
    fun _ _ _ pointer => pointer, fun _ _ _ _ pointer => pointer⟩

/-- What a step of one task leaves as it was, for every task and every process that acts later. -/
theorem TurnInvariant.put {agent : Agent} {actor : TaskId} (invariant : TurnInvariant settings uuid view)
    (respects : Respects actor view.world world) (keyed : world.Keyed) (nonempty : actor ≠ "")
    (alive : agent.killed = false)
    (later : ∀ other, other ≠ id → view.process other = none → uuid other ≠ actor)
    (ended : ∀ other agent, other ≠ id → view.process other = some agent → agent.control.Final)
    (others : ∀ other, other ≠ actor → Orderly view.world other)
    (turn : AgentTurn settings uuid world id agent.label agent.control actor) :
    TurnInvariant settings uuid (view.put id agent world) := by
  refine ⟨keyed, ?_, ?_, ?_, ?_, id, actor, ?_, ?_, ?_, ?_⟩
  · intro index entry present
    rcases respects.touches.added index entry present with ⟨before, there, fields⟩ | named
    · rw [fields]
      exact invariant.entries index before there
    · exact ⟨actor, nonempty, named⟩
  · intro key pointer
    exact invariant.pointers key (respects.fewer "" key (Ne.symm nonempty) pointer)
  · intro other found present
    rcases Config.put_cases present with ⟨rfl, rfl⟩ | ⟨same, present⟩
    · exact alive
    · exact invariant.alive other found present
  · intro other absent
    obtain ⟨same, absent⟩ := Config.put_none absent
    exact (invariant.unused other absent).respected respects (later other same absent)
  · intro other found differs present
    rw [Config.put_of_ne differs] at present
    exact ended other found differs present
  · exact fun other differs => (others other differs).respected respects differs
  · intro found present
    cases Config.put_self.symm.trans present
    exact turn
  · intro absent
    cases Config.put_self.symm.trans absent

/-- An activity that begins when the others have ended has its turn in order. -/
theorem TurnInvariant.start (fresh : FreshIds uuid world₀)
    (invariant : TurnInvariant settings uuid view) {label : Activity} (absent : view.process id = none)
    (begins : Service.start view.world label world)
    (ended : ∀ id agent, view.process id = some agent → agent.control.Final) :
    TurnInvariant settings uuid (view.put id ⟨label, Phase.initial label, [], false⟩ world) := by
  have orderly := invariant.rest ended
  cases label with
  | request cikMapping payload =>
    obtain rfl : world = view.world := begins
    have untouched := invariant.unused id absent
    have idle : Respects (uuid id) view.world view.world :=
      ⟨.refl _ _, fun _ _ _ unacked => unacked, fun _ _ _ pointer => pointer, fun _ _ _ _ pointer => pointer⟩
    have turn : AgentTurn settings uuid view.world id (.request cikMapping payload)
        (Phase.initial (.request cikMapping payload)) (uuid id) := by
      cases identified : Routes.requestedIdentity cikMapping payload with
      | error error =>
        simp only [Phase.initial, identified, RequestPhase.initial]
        exact .rejected untouched.orderly
      | ok identity =>
        simp only [Phase.initial, identified, RequestPhase.initial]
        exact .request identified untouched
    exact invariant.put idle invariant.keyed (fresh.nonempty id) rfl
      (fun other differs _ same => differs (fresh.injective _ _ same))
      (fun other agent _ => ended other agent) (fun other _ => orderly other) turn
  | handling cikMapping now entry fields =>
    obtain ⟨⟨own, present, rfl, status, _⟩, rfl⟩ := begins
    obtain ⟨taskId, nonempty, named⟩ := invariant.entries entry own present
    have respects := respects_deliver taskId view.world entry
    have waiting : Waiting view.world taskId entry :=
      (orderly taskId).waiting entry ⟨own, present, named, status⟩
    have there : (view.world.stream.modify entry Entry.deliver)[entry]? = some own.deliver := by
      rw [List.getElem?_modify_eq, present]
      rfl
    have pending : own.deliver.status = .pending := by
      unfold Entry.deliver
      split
      · rfl
      · rename_i waited
        cases found : own.status with
        | waiting => exact absurd found waited
        | pending => rfl
        | acked => exact absurd found status
    have delivered : fieldsTaskId own.deliver.fields = some taskId := by rw [deliver_fields, named]
    have turn : HandlingTurn taskId entry
        { view.world with stream := view.world.stream.modify entry Entry.deliver } .fresh := by
      obtain ⟨task, stored, queued, pointer⟩ := waiting.queued
      exact ⟨task, ⟨⟨⟨own.deliver, there, delivered, pending⟩,
        fun other unacked => waiting.alone other unacked.of_deliver⟩, stored, pointer⟩, queued⟩
    have initial : HandlingPhase.initial own.fields = .fresh := by
      simp only [HandlingPhase.initial, named, nonempty, ↓reduceIte]
    refine invariant.put respects invariant.keyed nonempty rfl ?_
      (fun other agent _ => ended other agent) (fun other _ => orderly other) ?_
    · rintro other _ unbegun rfl
      exact (invariant.unused other unbegun).entries (hasEntry_iff.mpr ⟨entry, own, present, named⟩)
    · simp only [Phase.initial, initial]
      exact .handling named ⟨own.deliver, there, delivered⟩ (holds_of_none rfl) turn

/-- Only the activity whose turn it is moves. -/
theorem TurnInvariant.reply (fresh : FreshIds uuid world₀)
    (invariant : TurnInvariant settings uuid view) {agent : Agent} {call : Call}
    {reply : calls.Reply call} {phase' : Phase} (present : view.process id = some agent)
    (moves : ServiceStep settings uuid id agent.label agent.control call reply phase')
    (served : Reliable call view.world reply world)
    (spared : SparesHolders config (.reply id call reply)) (same : config.world = view.world) :
    TurnInvariant settings uuid (view.put id (agent.resume call reply phase') world) := by
  have unfinished := moves.not_final
  obtain ⟨acting, actor, ended, others, turns, _⟩ := invariant.turn
  obtain rfl : id = acting := by
    by_contra differs
    exact unfinished (ended id agent differs present)
  have turn := turns agent present
  have alive := invariant.alive id agent present
  obtain ⟨label, control, log, killed⟩ := agent
  have keyed : world.Keyed := served_keyed (.inl served) invariant.keyed
  have after : world = view.world.after call := served.2
  cases turn with
  | rejected => exact absurd (.inl ⟨_, rfl⟩) unfinished
  | @request cikMapping payload identity phase identified turn =>
    cases moves with
    | @request _ _ identity' _ phase' _ _ identified' step =>
      cases identified.symm.trans identified'
      obtain ⟨deletes, claims, sets⟩ := turn.releases step
      have respects : Respects (uuid id) view.world world := by
        rw [after]
        refine (step.mine view.world).respects ?_ claims sets
        intro key deletion holder held
        exact .inl (Option.some.inj (held.symm.trans (deletes key deletion)))
      refine invariant.put respects keyed (fresh.nonempty id) alive
        (fun other differs _ same => differs (fresh.injective _ _ same)) ended others ?_
      exact .request identified (turn.step step served invariant.pointers others)
  | @handling cikMapping now entry fields phase _ named there held turn =>
    cases moves with
    | @handling _ _ _ _ _ phase' _ _ step =>
      have identified : handledId fields = actor := by
        simp only [handledId, named, Option.getD_some]
      rw [identified] at step
      obtain ⟨own, position, named'⟩ := there
      have has : view.world.HasEntry actor := hasEntry_iff.mpr ⟨entry, own, position, named'⟩
      have nonempty : actor ≠ "" := by
        obtain ⟨taskId, nonempty, known⟩ := invariant.entries entry own position
        exact Option.some.inj (named'.symm.trans known) ▸ nonempty
      have respects : Respects actor view.world world := by
        rw [after]
        refine (step.mine held position named').respects ?_ ?_ ?_
        · rintro key rfl holder pointer
          exact turn.releases step.deletes pointer
        · rintro key taskId rfl
          cases step with
          | pipeline _ _ _ _ outside => exact outside.elim
        · rintro key taskId rfl
          cases step with
          | pipeline _ _ _ _ outside => exact outside.elim
      refine invariant.put respects keyed nonempty alive ?_ ended others ?_
      · rintro other _ absent rfl
        exact (invariant.unused other absent).entries has
      · refine .handling named ⟨touch call entry own, ?_, by rw [touch_fields, named']⟩ ?_ ?_
        · rw [after]
          exact after_entry position
        · refine (step.keeps stable_taskId held ?_).1
          rintro task ⟨⟩
          exact invariant.keyed _ _ (served_getTask (.inl served)).1.symm
        · refine turn.step invariant.keyed step served ?_
          rintro saved rfl completed
          unfold HoldersSpared
          rw [← same]
          exact spared completed

theorem TurnInvariant.step (fresh : FreshIds uuid world₀)
    (views : Views settings uuid Reliable config view)
    (allowed : Sequential config event ∧ SparesHolders config event)
    (step : (outline settings uuid Reliable).Step view event view')
    (invariant : TurnInvariant settings uuid view) : TurnInvariant settings uuid view' := by
  cases step with
  | start absent begins =>
    refine invariant.start fresh absent begins fun id agent present => ?_
    obtain ⟨process, found, follows⟩ := Refinement.behind views present
    by_contra unfinished
    exact allowed.1 id process found
      ((active_iff follows).mpr ⟨invariant.alive id agent present, unfinished⟩)
  | reply present alive moves served =>
    exact invariant.reply fresh present moves served allowed.2 views.world
  | kill => exact allowed.1.elim

/-- The step of the activity that has its turn releases no pointer of another unfinished task. -/
theorem TurnInvariant.releases (views : Views settings uuid Reliable config view)
    (step : (outline settings uuid Reliable).Step view event view')
    (invariant : TurnInvariant settings uuid view) : ReleasesOwn uuid config event := by
  cases step with
  | start => trivial
  | kill => trivial
  | @reply id agent call reply phase' world present alive moves served =>
    have unfinished := moves.not_final
    obtain ⟨acting, actor, ended, others, turns, _⟩ := invariant.turn
    obtain rfl : id = acting := by
      by_contra differs
      exact unfinished (ended id agent differs present)
    have turn := turns agent present
    obtain ⟨activity, control, log, killed⟩ := agent
    obtain ⟨process, found, label, _⟩ := Refinement.behind views present
    have released (key : String) (writes : ∀ holder, view.world.pending key = some holder →
        ActsFor uuid id activity holder ∨ Finished view.world holder) :
        MayRelease uuid config id key := by
      intro holder held
      rw [views.world] at held ⊢
      rcases writes holder held with acts | finished
      · exact .inl ⟨process, found, label ▸ acts⟩
      · exact .inr finished
    cases turn with
    | rejected => exact absurd (.inl ⟨_, rfl⟩) unfinished
    | request identified turn =>
      cases moves with
      | request identified' step =>
        cases identified.symm.trans identified'
        obtain ⟨deletes, _, sets⟩ := turn.releases step
        cases call with
        | deletePending key =>
          exact released key fun holder held => .inl (Option.some.inj ((deletes key rfl).symm.trans held))
        | setPending key named => exact absurd rfl (sets key named)
        | _ => trivial
    | @handling cikMapping now entry fields phase _ named there held turn =>
      cases moves with
      | handling step =>
        have identified : handledId fields = actor := by
          simp only [handledId, named, Option.getD_some]
        rw [identified] at step
        cases call with
        | deletePending key =>
          refine released key fun holder pointer => ?_
          rcases turn.releases step.deletes pointer with rfl | finished
          · exact .inl named
          · exact .inr finished
        | setPending key taskId =>
          cases step with
          | pipeline _ _ _ _ outside => exact outside.elim
        | _ => trivial

end Run

/-- An unfinished task that the acting process does not act for keeps its pointers. -/
def KeepsOthers (uuid : ℕ → TaskId) (config : ServiceConfig) (event : ServiceEvent)
    (config' : ServiceConfig) : Prop :=
  ∀ key holder, config.world.pending key = some holder → ¬ Finished config.world holder →
    (∀ process ∈ config.process event.id, ¬ ActsFor uuid event.id process.label holder) →
      config'.world.pending key = some holder

theorem ReleasesOwn.keepsOthers {settings : Settings} {uuid : ℕ → TaskId}
    {config config' : ServiceConfig} {event : ServiceEvent} (releases : ReleasesOwn uuid config event)
    (step : (service settings uuid Reliable).Step config event config') :
    KeepsOthers uuid config event config' := by
  intro key holder held unfinished foreign
  have spared (may : MayRelease uuid config event.id key) : False := by
    rcases may holder held with ⟨process, present, acts⟩ | finished
    · exact foreign process present acts
    · exact unfinished finished
  cases step with
  | @start id label world absent begins =>
    cases label with
    | request cikMapping payload =>
      obtain rfl : world = config.world := begins
      exact held
    | handling cikMapping now entry fields =>
      obtain ⟨_, rfl⟩ := begins
      exact held
  | kill => exact held
  | @reply id process call reply control world present alive moves served =>
    obtain ⟨_, rfl⟩ := served
    refine pending_after held ?_ ?_
    · rintro rfl
      exact spared releases
    · rintro taskId rfl
      exact spared releases

/-- A run of activities one after the other in which completing tasks for the latest year find the
resolved pointer free, finished or their own. -/
abbrev SparingSequence (settings : Settings) (uuid : ℕ → TaskId) (world : World)
    (events : List ServiceEvent) (config : ServiceConfig) : Prop :=
  Path (Guarded (service settings uuid Reliable).Step fun config event =>
    Sequential config event ∧ SparesHolders config event) (.idle world) events config

/-- No step releases the pointer of an unfinished task other than the one it acts for. -/
theorem released_by_own {settings : Settings} {uuid : ℕ → TaskId} {world : World}
    {events : List ServiceEvent} {config config' : ServiceConfig} {event : ServiceEvent}
    (fresh : FreshIds uuid world) (keyed : world.Keyed) (unpointed : ∀ key, world.pending key = none)
    (empty : world.stream = []) (run : SparingSequence settings uuid world events config)
    (step : (service settings uuid Reliable).Step config event config') :
    ReleasesOwn uuid config event ∧ KeepsOthers uuid config event config' := by
  have pointers (key : String) (taskId : TaskId) : world.pending key ≠ some taskId := by
    rw [unpointed key]
    rintro ⟨⟩
  have entries (index : ℕ) (entry : Entry) : world.stream[index]? ≠ some entry := by
    rw [empty]
    rintro ⟨⟩
  have orderly (taskId : TaskId) : Orderly world taskId := by
    refine ⟨fun key pointer => absurd pointer (pointers key taskId), ?_⟩
    rintro index ⟨entry, present, _⟩
    exact absurd present (entries index entry)
  have untouched (id : ℕ) : Untouched world (uuid id) := by
    refine ⟨fresh.unused id, fun key => pointers key _, fun has => ?_⟩
    obtain ⟨index, entry, present, _⟩ := hasEntry_iff.mp has
    exact entries index entry present
  have initial : TurnInvariant settings uuid (.idle world) := by
    refine ⟨keyed, ?_, fun key => pointers key "", fun _ _ present => Config.idle_absent present,
      fun id _ => untouched id, 0, "", fun _ _ _ present => Config.idle_absent present,
      fun taskId _ => orderly taskId, fun _ present => Config.idle_absent present, fun _ => orderly ""⟩
    exact fun index entry present => absurd present (entries index entry)
  obtain ⟨view, views, invariant⟩ := service_refines.invariant
    (fun config view event view' views allowed step invariant =>
      TurnInvariant.step fresh views allowed step invariant) run initial
  obtain ⟨view', step', _⟩ := service_refines.simulate views step
  have releases := invariant.releases views step'
  exact ⟨releases, releases.keepsOthers step⟩

/-- `Sequential` on the processes below a bound. -/
def sequentialBelow (bound : ℕ) (config : ServiceConfig) : ServiceEvent → Bool
  | .start _ _ => (List.range bound).all fun id => decide (config.InactiveAt id)
  | .kill _ => false
  | _ => true

theorem sequentialBelow_sound {bound : ℕ} {config : ServiceConfig} {event : ServiceEvent}
    (above : ∀ id, bound ≤ id → config.process id = none)
    (below : sequentialBelow bound config event = true) : Sequential config event := by
  unfold Sequential
  split
  · intro id
    by_cases inside : id < bound
    · exact of_decide_eq_true (List.all_eq_true.mp below id (List.mem_range.mpr inside))
    · intro process present
      rw [above id (by omega)] at present
      cases present
  · cases below
  · trivial

/-- `SparesHolders` as a test that asks it of every save of COMPLETED. -/
def sparesHolders (world : World) : ServiceEvent → Bool
  | .reply _ (.setTask saved) _ => saved.state ≠ .completed ||
      (world.pending saved.pendingKey).all fun holder => holder = saved.taskId
  | _ => true

theorem sparesHolders_sound {config : ServiceConfig} {event : ServiceEvent}
    (spares : sparesHolders config.world event = true) : SparesHolders config event := by
  unfold SparesHolders
  split
  · rintro completed stored _ _ holder held
    simp only [sparesHolders, completed, ne_eq, not_true_eq_false, decide_false, Bool.false_or, held,
      Option.all_some, decide_eq_true_eq] at spares
    exact .inl spares
  · trivial

/-- The process is about to delete this pointer. -/
def aboutToDelete (config : ServiceConfig) (id : ℕ) (key : String) : Bool :=
  match config.process id with
  | some ⟨_, .await (.deletePending next) _, _, false⟩ => next = key
  | _ => false

theorem deletes_of_aboutToDelete {settings : Settings} {uuid : ℕ → TaskId} {config : ServiceConfig}
    {id : ℕ} {key : String} (about : aboutToDelete config id key = true) : ∃ config',
    (service settings uuid Reliable).Step config (.reply id (.deletePending key) (.ok ())) config' := by
  unfold aboutToDelete at about
  split at about
  · rename_i label next rest log present
    obtain rfl := of_decide_eq_true about
    exact ⟨_, .reply present rfl (.reply ..) ⟨⟨default, rfl⟩, rfl⟩⟩
  · cases about

/-- A request for the latest report, one for 2024, and a handling of the first up to where it has
saved COMPLETED. -/
def latestOvertakes : List (Move Activity Outside) :=
  [.start 0 (Sample.request none)] ++ List.replicate 7 (.serve 0 default) ++
    [.start 1 (Sample.request (some 2024))] ++ List.replicate 7 (.serve 1 default) ++
    [.start 2 (Sample.handling 0 0)] ++ List.replicate 17 (.serve 2 Sample.outside)

/-- The task for the latest year deletes the pointer of the queued task for 2024. -/
theorem released_by_other : ¬ ∀ events config event config',
    Path (Guarded (service (Sample.settings 3) Sample.uuid Reliable).Step Sequential)
      (.idle Sample.world) events config →
    (service (Sample.settings 3) Sample.uuid Reliable).Step config event config' →
      ReleasesOwn Sample.uuid config event := by
  intro claimed
  have plays : (Service.reliablePlayer (Sample.settings 3) Sample.uuid).Plays
      (fun config event => event.id < 3 ∧ sequentialBelow 3 config event = true)
      (fun config => aboutToDelete config 2 (pendingTaskKey (Sample.identity 2024).logicalPath false) = true ∧
        (config.process 2).map Process.label = some (Sample.handling 0 0) ∧
        config.world.pending (pendingTaskKey (Sample.identity 2024).logicalPath false) = some "task-1" ∧
        (config.world.tasks "task-1").map ReportTask.state = some .queued)
      (.idle Sample.world) latestOvertakes := by
    decide +kernel
  obtain ⟨events, config, path, ⟨about, label, held, queued⟩, _⟩ := plays.path
  have run := System.bounded_run (fun _ _ above below => sequentialBelow_sound above below) path
  obtain ⟨config', step⟩ := deletes_of_aboutToDelete about
  obtain ⟨task, stored, state⟩ := Option.map_eq_some_iff.mp queued
  rcases claimed events config _ config' run step "task-1" held with ⟨process, present, acts⟩ | finished
  · rw [Option.mem_def] at present
    rw [present, Option.map_some, Option.some.injEq] at label
    rw [label] at acts
    have same : fieldsTaskId [("task_id", Sample.uuid 0)] = some "task-1" := acts
    exact absurd same (by decide +kernel)
  · rcases finished with missing | ⟨found, there, terminal⟩
    · cases missing.symm.trans stored
    · cases there.symm.trans stored
      rw [state] at terminal
      rcases terminal with same | same <;> cases same

/-- The report of 2024 from request to acknowledgement, then the latest one up to where the handling
has published it. -/
def latestFollows : List (Move Activity Outside) :=
  [.start 0 (Sample.request (some 2024))] ++ List.replicate 7 (.serve 0 default) ++
    [.start 1 (Sample.handling 0 0)] ++ List.replicate 21 (.serve 1 Sample.outside) ++
    [.start 2 (Sample.request none)] ++ List.replicate 7 (.serve 2 default) ++
    [.start 3 (Sample.handling 1 2)] ++ List.replicate 7 (.serve 3 Sample.outside)

theorem released_by_own_latest : ∃ events config config',
    SparingSequence (Sample.settings 3) Sample.uuid Sample.world events config ∧
    (service (Sample.settings 3) Sample.uuid Reliable).Step config
      (.reply 3 (.deletePending (pendingTaskKey (Sample.identity 0).logicalPath false)) (.ok ())) config' ∧
    MayRelease Sample.uuid config 3 (pendingTaskKey (Sample.identity 0).logicalPath false) := by
  have plays : (Service.reliablePlayer (Sample.settings 3) Sample.uuid).Plays
      (fun config event => event.id < 4 ∧ sequentialBelow 4 config event = true ∧
        sparesHolders config.world event = true)
      (fun config => aboutToDelete config 3 (pendingTaskKey (Sample.identity 0).logicalPath false) = true)
      (.idle Sample.world) latestFollows := by
    decide +kernel
  obtain ⟨events, config, path, about, _⟩ := plays.path
  have run : SparingSequence (Sample.settings 3) Sample.uuid Sample.world events config :=
    System.bounded_run (fun _ _ above allowed =>
      ⟨sequentialBelow_sound above allowed.1, sparesHolders_sound allowed.2⟩) path
  obtain ⟨config', step⟩ := deletes_of_aboutToDelete about
  exact ⟨events, config, config', run, step,
    (released_by_own Sample.uuid_fresh Sample.world_keyed (fun _ => rfl) rfl run step).1⟩

end Quartr.Soundness
