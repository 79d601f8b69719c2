import Quartr.Model.Sample
import Quartr.Soundness.Acceptance
import Quartr.Soundness.Effects
import Quartr.Soundness.Removal

/-! # Unfinished work is never acknowledged

A handling acknowledges its entry only once the record is terminal or the task has another entry.
`AckInvariant` carries this through every interleaving of requests and handlings in which commands
may raise and processes may be killed, as long as handlings of one task do not overlap.
-/

namespace Quartr.Soundness

open Quartr.Machine Quartr.Model

/-- The record of the task is COMPLETED or FAILED. -/
def Done (world : World) (taskId : TaskId) : Prop :=
  ∃ task, world.tasks taskId = some task ∧ task.state.Terminal

/-- This entry of the task has not been acknowledged. -/
def UnackedAt (world : World) (taskId : TaskId) (index : ℕ) : Prop :=
  ∃ entry, world.stream[index]? = some entry ∧ fieldsTaskId entry.fields = some taskId ∧
    entry.status ≠ .acked

/-- The own entry is not to be acknowledged yet. -/
def Owes (phase : HandlingPhase) : Prop :=
  phase ≠ .finished ∧ phase ≠ .acked ∧ phase ≠ .stopped

/-- The phases of a handling before its end. -/
def Working : HandlingPhase → Prop
  | .finished => False
  | .acked => False
  | .stopped => False
  | _ => True

theorem owes_of_working {phase : HandlingPhase} (working : Working phase) : Owes phase := by
  constructor
  · rintro rfl
    exact working
  · constructor <;> (rintro rfl; exact working)

/-- A terminal state has been saved and answered. -/
def Settled : HandlingPhase → Prop
  | .completed _ _ => True
  | .released _ _ => True
  | .published _ _ => True
  | .failed _ => True
  | .buried _ => True
  | _ => False

/-- What a live handling of the task owes to its entry. -/
structure Duty (world : World) (taskId : TaskId) (entry : ℕ) (phase : HandlingPhase) : Prop where
  owes : Owes phase → UnackedAt world taskId entry
  settled : Settled phase → Done world taskId
  finished : phase = .finished → Done world taskId ∨
    ∃ index, index ≠ entry ∧ UnackedAt world taskId index

section Steps

variable {worker : Worker} {entry : ℕ} {taskId : TaskId} {phase phase' : HandlingPhase}
  {call : Call} {reply : calls.Reply call} {world world' : World}

theorem HandlingStep.xack_phase {index : ℕ} {reply : calls.Reply (.xack index)}
    (step : HandlingStep worker entry taskId phase (.xack index) reply phase') :
    phase = .finished ∧ index = entry := by
  cases step with
  | pipeline _ _ _ _ outside => exact outside.elim
  | ack => exact ⟨rfl, rfl⟩

/-- Once the entry may be acknowledged it stays so. -/
theorem HandlingStep.owes (step : HandlingStep worker entry taskId phase call reply phase')
    (later : Owes phase') : Owes phase := by
  cases step with
  | ack reply => cases reply with
    | error error => exact absurd rfl later.2.2
    | ok answer => exact absurd rfl later.2.1
  | remove => exact absurd rfl later.2.2
  | reread _ object read interrupted => cases interrupted <;> exact owes_of_working trivial
  | unrecovered => exact absurd rfl later.2.2
  | _ => exact owes_of_working trivial

/-- A record is saved only while the entry is owed. -/
theorem HandlingStep.setTask_owes {saved : ReportTask} {reply : calls.Reply (.setTask saved)}
    (step : HandlingStep worker entry taskId phase (.setTask saved) reply phase') : Owes phase := by
  cases step <;> exact owes_of_working trivial

/-- How a handling comes to a settled phase. -/
theorem HandlingStep.settled (step : HandlingStep worker entry taskId phase call reply phase')
    (later : Settled phase') :
    (Settled phase ∧ ∀ saved, call ≠ .setTask saved) ∨
      ∃ saved answer, (⟨call, reply⟩ : Σ call, calls.Reply call) = ⟨.setTask saved, .ok answer⟩ ∧
        saved.state.Terminal := by
  cases step with
  | complete task saved stored selection reply legal selects present result =>
    subst result
    cases reply with
    | error error => exact later.elim
    | ok answer => exact .inr ⟨_, answer, rfl, .inl rfl⟩
  | release original saved reply =>
    cases reply with
    | error error => exact later.elim
    | ok answer => exact .inl ⟨trivial, by rintro _ ⟨⟩⟩
  | publish original saved filing path filed stored reply => exact .inl ⟨trivial, by rintro _ ⟨⟩⟩
  | fail task object saved stored message spent reply legal attempted budget result =>
    subst result
    cases reply with
    | error error => exact later.elim
    | ok answer => exact .inr ⟨_, answer, rfl, .inr rfl⟩
  | bury current saved message reply alive result =>
    subst result
    cases reply with
    | error error => exact later.elim
    | ok answer => exact .inr ⟨_, answer, rfl, .inr rfl⟩
  | load task =>
    unfold HandlingPhase.entering at later
    split_ifs at later <;> exact later.elim
  | reread _ object read interrupted =>
    simp only [HandlingPhase.recovering] at later
    split_ifs at later <;> exact later.elim
  | start _ _ reply => cases reply <;> exact later.elim
  | retry _ _ _ _ _ reply => cases reply <;> exact later.elim
  | requeue _ reply => cases reply <;> exact later.elim
  | clear _ reply => cases reply <;> exact later.elim
  | enqueue _ reply => cases reply <;> exact later.elim
  | forget _ reply => cases reply <;> exact later.elim
  | ack reply => cases reply <;> exact later.elim
  | _ => exact later.elim

/-- How a handling comes to the point where it acknowledges. -/
theorem HandlingStep.finished (step : HandlingStep worker entry taskId phase call reply .finished) :
    (Settled phase ∧ ∀ saved, call ≠ .setTask saved) ∨
      (∃ saved answer, phase = .measured saved ∧
        (⟨call, reply⟩ : Σ call, calls.Reply call) = ⟨.xadd saved.taskId, .ok answer⟩) ∨
      ∃ read, (⟨call, reply⟩ : Σ call, calls.Reply call) = ⟨.getTask taskId, .ok read⟩ ∧
        ∀ task, read = some task → task.state = .completed := by
  generalize later : HandlingPhase.finished = phase' at step
  cases step with
  | missed => exact .inr (.inr ⟨none, rfl, by rintro task ⟨⟩⟩)
  | load task =>
    unfold HandlingPhase.entering at later
    split_ifs at later
  | reread _ object read interrupted =>
    refine .inr (.inr ⟨read, rfl, ?_⟩)
    rintro task rfl
    simp only [HandlingPhase.recovering, Option.getD_some] at later
    split_ifs at later with done
    exact done
  | publish => exact .inl ⟨trivial, by rintro _ ⟨⟩⟩
  | unpin => exact .inl ⟨trivial, by rintro _ ⟨⟩⟩
  | clear => exact .inl ⟨trivial, by rintro _ ⟨⟩⟩
  | forget => exact .inl ⟨trivial, by rintro _ ⟨⟩⟩
  | enqueue saved reply =>
    cases reply with
    | error error => cases later
    | ok answer => exact .inr (.inl ⟨saved, answer, rfl, rfl⟩)
  | start _ _ reply => cases reply <;> cases later
  | complete _ _ _ _ reply => cases reply <;> cases later
  | release _ _ reply => cases reply <;> cases later
  | fail _ _ _ _ _ _ reply => cases reply <;> cases later
  | retry _ _ _ _ _ reply => cases reply <;> cases later
  | requeue _ reply => cases reply <;> cases later
  | bury _ _ _ reply => cases reply <;> cases later
  | ack reply => cases reply <;> cases later
  | _ => cases later

theorem UnackedAt.served {index : ℕ} (unacked : UnackedAt world taskId index)
    (served : Faulty call world reply world') (other : call ≠ .xack index) :
    UnackedAt world' taskId index := by
  obtain ⟨entry, present, named, status⟩ := unacked
  rcases served_world served with rfl | rfl
  · exact ⟨entry, present, named, status⟩
  · refine ⟨_, after_entry present, by rw [touch_fields, named], ?_⟩
    rwa [touch_status entry other]

theorem UnackedAt.touched {actor : TaskId} {index : ℕ} (unacked : UnackedAt world taskId index)
    (touches : Touches actor world world') (other : taskId ≠ actor) :
    UnackedAt world' taskId index := by
  obtain ⟨entry, present, named, status⟩ := unacked
  obtain ⟨entry', present', fields, acked⟩ := touches.kept index entry present
  refine ⟨entry', present', by rw [fields, named], fun acknowledged => status (acked ?_ acknowledged)⟩
  rw [named, ne_eq, Option.some.injEq]
  exact other

theorem Done.touched {actor : TaskId} (done : Done world taskId) (touches : Touches actor world world')
    (other : taskId ≠ actor) : Done world' taskId := by
  obtain ⟨task, present, terminal⟩ := done
  exact ⟨task, (touches.tasks taskId other).trans present, terminal⟩

/-- Another process leaves the duty of a handling as it is. -/
theorem Duty.touched {actor : TaskId} (duty : Duty world taskId entry phase)
    (touches : Touches actor world world') (other : taskId ≠ actor) : Duty world' taskId entry phase := by
  refine ⟨fun owes => (duty.owes owes).touched touches other,
    fun settled => (duty.settled settled).touched touches other, fun finished => ?_⟩
  rcases duty.finished finished with done | ⟨index, apart, unacked⟩
  · exact .inl (done.touched touches other)
  · exact .inr ⟨index, apart, unacked.touched touches other⟩

/-- A step of the handling itself keeps its duty. -/
theorem Duty.step (duty : Duty world taskId entry phase)
    (step : HandlingStep worker entry taskId phase call reply phase')
    (served : Faulty call world reply world') (held : phase.Holds fun task => task.taskId = taskId)
    (saved : world.tasks taskId ≠ none) {own : Entry} (present : world.stream[entry]? = some own) :
    Duty world' taskId entry phase' := by
  have settled_done : Settled phase → (∀ saved, call ≠ .setTask saved) → Done world' taskId := by
    intro settled unsaved
    obtain ⟨task, found, terminal⟩ := duty.settled settled
    refine ⟨task, ?_, terminal⟩
    rcases served_world served with rfl | rfl
    · exact found
    · rw [World.after_tasks]
      cases call with
      | setTask task => exact absurd rfl (unsaved task)
      | _ => exact found
  refine ⟨fun owes => ?_, fun settled => ?_, fun finished => ?_⟩
  · refine (duty.owes (step.owes owes)).served served ?_
    rintro rfl
    exact (step.owes owes).1 step.xack_phase.1
  · rcases step.settled settled with ⟨earlier, unsaved⟩ | ⟨record, answer, same, terminal⟩
    · exact settled_done earlier unsaved
    · cases same
      have own : record.taskId = taskId := (step.keeps stable_taskId held (by rintro task ⟨⟩)).2 record rfl
      refine ⟨record, ?_, terminal⟩
      rw [(served_answer served).2, World.after_tasks, ← own]
      exact Function.update_self ..
  · subst finished
    rcases step.finished with ⟨earlier, unsaved⟩ | ⟨record, answer, rfl, same⟩ | ⟨read, same, completed⟩
    · exact .inl (settled_done earlier unsaved)
    · cases same
      have own : record.taskId = taskId := held record rfl
      refine .inr ⟨world.stream.length, ?_, Entry.new record.taskId, ?_, ?_, nofun⟩
      · have inside := (List.getElem?_eq_some_iff.mp present).1
        omega
      · rw [(served_answer served).2, World.after_stream]
        exact List.getElem?_concat_length
      · exact congrArg some own
    · cases same
      obtain ⟨rfl, rfl⟩ := served_getTask served
      cases found : world'.tasks taskId with
      | none => exact absurd found saved
      | some task => exact .inl ⟨task, found, .inl (completed task found)⟩

end Steps

/-! ### The invariant -/

/-- The task is finished or has an entry that is still to be handled. -/
def Attended (world : World) (taskId : TaskId) : Prop :=
  Done world taskId ∨ ∃ index, UnackedAt world taskId index

/-- What is known of one process, be it alive or killed. -/
def AgentState (uuid : ℕ → TaskId) (world : World) (id : ℕ) (agent : Agent) : Prop :=
  match agent.label with
  | .request _ _ => ∃ phase, agent.control = .request phase ∧
      ((∀ answer, phase ≠ .ended answer) → ¬ world.HasEntry (uuid id)) ∧
      (Promising phase → world.tasks (uuid id) ≠ none)
  | .handling _ _ entry fields => ∃ phase taskId own, agent.control = .handling phase ∧
      fieldsTaskId fields = some taskId ∧ world.stream[entry]? = some own ∧ own.fields = fields ∧
      phase.Holds (fun task => task.taskId = taskId) ∧
      (agent.killed = false → Duty world taskId entry phase)

/-- The process is a handling of this task that may still make a call. -/
def Busy (agent : Agent) (taskId : TaskId) : Prop :=
  agent.label.taskId? = some taskId ∧ agent.killed = false ∧ ¬ agent.control.Final

structure AckInvariant (uuid : ℕ → TaskId) (view : ServiceView) : Prop where
  keyed : view.world.Keyed
  entries : ∀ entry ∈ view.world.stream, ∃ taskId, fieldsTaskId entry.fields = some taskId ∧
    taskId ≠ "" ∧ view.world.tasks taskId ≠ none ∧ Attended view.world taskId
  unused : ∀ id, view.process id = none → ¬ view.world.HasEntry (uuid id)
  agents : ∀ id agent, view.process id = some agent → AgentState uuid view.world id agent
  apart : ∀ id id' agent agent' taskId, view.process id = some agent →
    view.process id' = some agent' → Busy agent taskId → Busy agent' taskId → id = id'

section Preserved

variable {settings : Settings} {uuid : ℕ → TaskId} {config : ServiceConfig}
  {view view' : ServiceView} {event : ServiceEvent} {world world' : World} {actor taskId : TaskId}

theorem Attended.touched (attended : Attended world taskId) (touches : Touches actor world world')
    (other : taskId ≠ actor) : Attended world' taskId := by
  rcases attended with done | ⟨index, unacked⟩
  · exact .inl (done.touched touches other)
  · exact .inr ⟨index, unacked.touched touches other⟩

theorem Touches.hasEntry (touches : Touches actor world world') (other : taskId ≠ actor)
    (has : world'.HasEntry taskId) : world.HasEntry taskId := by
  obtain ⟨index, entry', present, named⟩ := hasEntry_iff.mp has
  rcases touches.added index entry' present with ⟨entry, before, fields⟩ | own
  · exact hasEntry_iff.mpr ⟨index, entry, before, by rw [← fields, named]⟩
  · exact absurd (Option.some.inj (named.symm.trans own)) other

/-- A handling that has stopped owes nothing. -/
theorem Duty.stopped {entry : ℕ} : Duty world taskId entry .stopped :=
  ⟨fun owes => absurd rfl owes.2.2, fun settled => settled.elim, nofun⟩

theorem AckInvariant.attended (invariant : AckInvariant uuid view)
    (has : view.world.HasEntry taskId) :
    taskId ≠ "" ∧ view.world.tasks taskId ≠ none ∧ Attended view.world taskId := by
  obtain ⟨entry, member, named⟩ := has
  obtain ⟨taskId', named', rest⟩ := invariant.entries entry member
  cases Option.some.inj (named.symm.trans named')
  exact rest

/-- A busy handling works on a task that has an entry. -/
theorem AckInvariant.busy_entry (invariant : AckInvariant uuid view) {id : ℕ} {agent : Agent}
    (present : view.process id = some agent) (busy : Busy agent taskId) :
    view.world.HasEntry taskId := by
  have state := invariant.agents id agent present
  obtain ⟨label, control, log, killed⟩ := agent
  cases label with
  | request => cases busy.1
  | handling cikMapping now entry fields =>
    obtain ⟨phase, taskId', own, _, named, there, fields', _⟩ := state
    have same : fieldsTaskId fields = some taskId := busy.1
    exact hasEntry_iff.mpr ⟨entry, own, there, by rw [fields', same]⟩

/-- What the step of one process has to re-establish; `actor` is the task it touches. -/
theorem AckInvariant.put {id : ℕ} {agent' : Agent} (invariant : AckInvariant uuid view)
    (touches : Touches actor view.world world') (keyed : world'.Keyed)
    (attended : world'.HasEntry actor →
      actor ≠ "" ∧ world'.tasks actor ≠ none ∧ Attended world' actor)
    (state : AgentState uuid world' id agent')
    (sole : ∀ other agent, other ≠ id → view.process other = some agent → ¬ Busy agent actor)
    (owner : ∀ other, other ≠ id → uuid other = actor → view.world.HasEntry actor)
    (apart : ∀ other agent taskId, other ≠ id → view.process other = some agent →
      Busy agent' taskId → ¬ Busy agent taskId) :
    AckInvariant uuid (view.put id agent' world') := by
  have others : ∀ {other agent}, other ≠ id →
      (view.put id agent' world').process other = some agent → view.process other = some agent :=
    fun differs present => by rwa [Config.put_of_ne differs] at present
  have unentered : ∀ other, other ≠ id → ¬ view.world.HasEntry (uuid other) →
      ¬ world'.HasEntry (uuid other) := by
    intro other differs without has
    by_cases own : uuid other = actor
    · exact without (own ▸ owner other differs own)
    · exact without (touches.hasEntry own has)
  refine ⟨keyed, ?_, ?_, ?_, ?_⟩
  · intro entry' member
    obtain ⟨index, present⟩ := List.mem_iff_getElem?.mp member
    by_cases own : fieldsTaskId entry'.fields = some actor
    · exact ⟨actor, own, attended ⟨entry', member, own⟩⟩
    · rcases touches.added index entry' present with ⟨entry, before, fields⟩ | named
      · obtain ⟨taskId, named, nonempty, saved, attended⟩ :=
          invariant.entries entry (List.mem_of_getElem? before)
        rw [← fields] at named
        have other : taskId ≠ actor := fun same => own (same ▸ named)
        exact ⟨taskId, named, nonempty, touches.saved taskId saved, attended.touched touches other⟩
      · exact absurd named own
  · intro other gone
    by_cases same : other = id
    · subst same
      rw [Config.put_self] at gone
      cases gone
    · rw [Config.put_of_ne same] at gone
      exact unentered other same (invariant.unused other gone)
  · intro other agent present
    by_cases same : other = id
    · subst same
      rw [Config.put_self, Option.some.injEq] at present
      exact present ▸ state
    · have before := others same present
      have known := invariant.agents other agent before
      obtain ⟨label, control, log, killed⟩ := agent
      cases label with
      | request cikMapping payload =>
        obtain ⟨phase, standing, without, saved⟩ := known
        exact ⟨phase, standing, fun unfinished => unentered other same (without unfinished),
          fun promising => touches.saved _ (saved promising)⟩
      | handling cikMapping now entry fields =>
        obtain ⟨phase, taskId, own, standing, named, there, fields', held, duty⟩ := known
        obtain ⟨own', there', fields'', _⟩ := touches.kept entry own there
        refine ⟨phase, taskId, own', standing, named, there', fields''.trans fields', held, ?_⟩
        intro alive
        by_cases mine : taskId = actor
        · -- A handling of the same task has come to its end.
          subst mine
          have final : Phase.Final control := by
            by_contra unfinished
            exact sole other _ same before ⟨named, alive, unfinished⟩
          change control = .handling phase at standing
          subst standing
          rcases final with ⟨answer, same⟩ | same
          · cases same
          · cases same
            exact .stopped
        · exact (duty alive).touched touches mine
  · intro first second agent agent'' taskId present present' busy busy'
    by_cases mine : first = id
    · by_cases mine' : second = id
      · exact mine.trans mine'.symm
      · subst mine
        rw [Config.put_self, Option.some.injEq] at present
        exact absurd busy' (apart second agent'' taskId mine' (others mine' present') (present ▸ busy))
    · by_cases mine' : second = id
      · subst mine'
        rw [Config.put_self, Option.some.injEq] at present'
        exact absurd busy (apart first agent taskId mine (others mine present) (present' ▸ busy'))
      · exact invariant.apart first second agent agent'' taskId (others mine present)
          (others mine' present') busy busy'

/-- Before its XADD a request has no entry; the XADD gives it one that is unacknowledged. -/
theorem RequestStep.attended {ticket : Ticket} {phase phase' : RequestPhase} {call : Call}
    {reply : calls.Reply call} (step : RequestStep ticket phase call reply phase')
    (served : Faulty call world reply world') (without : ¬ world.HasEntry ticket.taskId)
    (has : world'.HasEntry ticket.taskId) :
    (∃ index, UnackedAt world' ticket.taskId index) ∧ phase = .publishing ∧
      ∃ answer, phase' = .ended answer := by
  obtain ⟨index, entry, present, named⟩ := hasEntry_iff.mp has
  rcases served_world served with rfl | rfl
  · exact absurd has without
  · rcases entry_of_after present with ⟨before, there, rfl⟩ | ⟨taskId, rfl, rfl, rfl⟩
    · exact absurd (hasEntry_iff.mpr ⟨index, before, there, by rwa [touch_fields] at named⟩) without
    · refine ⟨⟨_, _, present, named, by rintro ⟨⟩⟩, ?_⟩
      cases step with
      | published => exact ⟨rfl, _, rfl⟩
      | raised error next => cases phase <;> cases next; exact ⟨rfl, _, rfl⟩

/-- A request on its way to the entry has its record. -/
theorem RequestStep.saved {ticket : Ticket} {phase phase' : RequestPhase} {call : Call}
    {reply : calls.Reply call} (step : RequestStep ticket phase call reply phase')
    (served : Faulty call world reply world') (promising : Promising phase')
    (saved : Promising phase → world.tasks ticket.taskId ≠ none) :
    world'.tasks ticket.taskId ≠ none := by
  have kept (earlier : Promising phase) : world'.tasks ticket.taskId ≠ none :=
    ((step.mine world).served served).saved _ (saved earlier)
  cases step with
  | created =>
    have found : world'.tasks ticket.taskId = some ticket.record := by
      rw [(served_answer served).2, World.after_tasks]
      exact Function.update_self ..
    rw [found]
    exact Option.some_ne_none _
  | admitted => exact kept (.inl rfl)
  | queued => exact kept (.inr (.inl rfl))
  | measured => exact kept (.inr (.inr (.inl rfl)))
  | _ => rcases promising with same | same | same | same <;> cases same

/-- The task of a live handling stays attended over the handling's own steps. -/
theorem Attended.step {worker : Worker} {entry : ℕ} {phase phase' : HandlingPhase} {call : Call}
    {reply : calls.Reply call} (attended : Attended world taskId)
    (duty : Duty world taskId entry phase)
    (step : HandlingStep worker entry taskId phase call reply phase')
    (served : Faulty call world reply world') : Attended world' taskId := by
  by_cases owes : Owes phase
  · refine .inr ⟨entry, (duty.owes owes).served served ?_⟩
    rintro rfl
    exact owes.1 step.xack_phase.1
  · -- Nothing is saved any more, and the acknowledged entry is not the one that counts.
    have unsaved : ∀ taskId, world'.tasks taskId = world.tasks taskId := by
      intro other
      rcases served_world served with rfl | rfl
      · rfl
      · rw [World.after_tasks]
        cases call with
        | setTask saved => exact absurd step.setTask_owes owes
        | _ => rfl
    have done : Done world taskId → Done world' taskId :=
      fun ⟨task, present, terminal⟩ => ⟨task, (unsaved taskId).trans present, terminal⟩
    by_cases finished : phase = .finished
    · rcases duty.finished finished with settled | ⟨index, apart, unacked⟩
      · exact .inl (done settled)
      · refine .inr ⟨index, unacked.served served ?_⟩
        rintro rfl
        exact apart step.xack_phase.2
    · rcases attended with settled | ⟨index, unacked⟩
      · exact .inl (done settled)
      · refine .inr ⟨index, unacked.served served ?_⟩
        rintro rfl
        exact finished step.xack_phase.1

end Preserved

/-- Handlings of one task do not overlap. A handling counts from the moment its entry is handed out, by XREADGROUP
or by XCLAIM; an entry that a sweep has claimed and not reached yet is being handled already. -/
def NoOverlap (config : ServiceConfig) : ServiceEvent → Prop
  | .start _ (.handling _ _ _ fields) => ∀ taskId, fieldsTaskId fields = some taskId →
      ∀ id process, config.process id = some process → process.Active →
        process.label.taskId? ≠ some taskId
  | _ => True

section Run

variable {settings : Settings} {uuid : ℕ → TaskId} {config : ServiceConfig}
  {view view' : ServiceView} {event : ServiceEvent}

theorem AckInvariant.start (invariant : AckInvariant uuid view)
    (injective : ∀ id id', uuid id = uuid id' → id = id')
    (views : Views settings uuid Faulty config view) {id : ℕ} {label : Activity} {world : World}
    (absent : view.process id = none) (begins : Service.start view.world label world)
    (alone : NoOverlap config (.start id label)) :
    AckInvariant uuid (view.put id ⟨label, Phase.initial label, [], false⟩ world) := by
  cases label with
  | request cikMapping payload =>
    obtain rfl : world = view.world := begins
    have without := invariant.unused id absent
    refine invariant.put (.refl (uuid id) _) invariant.keyed (fun has => absurd has without)
      ⟨_, rfl, fun _ => without, ?_⟩ ?_ ?_ ?_
    · intro promising
      rcases RequestPhase.initial_cases (Routes.requestedIdentity cikMapping payload) with same | same <;>
        rw [same] at promising <;> rcases promising with same | same | same | same <;> cases same
    · exact fun other agent _ present busy => without (invariant.busy_entry present busy)
    · exact fun other differs same => absurd (injective _ _ same) differs
    · rintro other agent taskId _ _ ⟨named, _⟩
      cases named
  | handling cikMapping now entry fields =>
    obtain ⟨⟨own, present, rfl, status, _⟩, rfl⟩ := begins
    obtain ⟨taskId, named, nonempty, saved, attended⟩ :=
      invariant.entries own (List.mem_of_getElem? present)
    have has : view.world.HasEntry taskId := hasEntry_iff.mpr ⟨entry, own, present, named⟩
    have idle : ∀ other agent, view.process other = some agent → ¬ Busy agent taskId := by
      rintro other agent there ⟨label, alive, unfinished⟩
      obtain ⟨process, found, follows⟩ := Refinement.behind views there
      refine alone taskId named other process found ((active_iff follows).mpr ⟨alive, unfinished⟩) ?_
      rw [follows.1, label]
    have unacked : UnackedAt view.world taskId entry := ⟨own, present, named, status⟩
    have delivery := touches_deliver "" view.world entry
    have fresh : HandlingPhase.initial own.fields = .fresh := by
      simp only [HandlingPhase.initial, named, nonempty, ↓reduceIte]
    obtain ⟨own', there, fields, _⟩ := delivery.kept entry own present
    refine invariant.put (touches_deliver taskId view.world entry) invariant.keyed
      (fun _ => ⟨nonempty, saved, attended.touched delivery nonempty⟩)
      ⟨.fresh, taskId, own', congrArg Phase.handling fresh, named, there, fields, holds_of_none rfl,
        fun _ => ⟨fun _ => unacked.touched delivery nonempty, False.elim, nofun⟩⟩ ?_ ?_ ?_
    · exact fun other agent _ found => idle other agent found
    · exact fun _ _ _ => has
    · rintro other agent taskId' _ found ⟨named', _⟩
      cases Option.some.inj (named.symm.trans named')
      exact idle other agent found

theorem AckInvariant.kill (invariant : AckInvariant uuid view) (nonempty : ∀ id, uuid id ≠ "")
    {id : ℕ} {agent : Agent} (present : view.process id = some agent) :
    AckInvariant uuid (view.put id { agent with killed := true } view.world) := by
  have state := invariant.agents id agent present
  refine invariant.put (.refl "" _) invariant.keyed invariant.attended ?_ ?_ ?_ ?_
  · obtain ⟨label, control, log, killed⟩ := agent
    cases label with
    | request cikMapping payload => exact state
    | handling cikMapping now entry fields =>
      obtain ⟨phase, taskId, own, control, named, there, fields', held, _⟩ := state
      exact ⟨phase, taskId, own, control, named, there, fields', held, by rintro ⟨⟩⟩
  · exact fun other agent' _ found busy => (invariant.attended (invariant.busy_entry found busy)).1 rfl
  · exact fun other _ same => absurd same (nonempty other)
  · rintro other agent' taskId _ _ ⟨_, alive, _⟩
    cases alive

theorem AckInvariant.reply (invariant : AckInvariant uuid view)
    (injective : ∀ id id', uuid id = uuid id' → id = id') (nonempty : ∀ id, uuid id ≠ "")
    {id : ℕ} {agent : Agent} {call : Call} {reply : calls.Reply call} {phase' : Phase} {world : World}
    (present : view.process id = some agent) (alive : agent.killed = false)
    (moves : ServiceStep settings uuid id agent.label agent.control call reply phase')
    (served : Faulty call view.world reply world) :
    AckInvariant uuid (view.put id (agent.resume call reply phase') world) := by
  have state := invariant.agents id agent present
  have unfinished := moves.not_final
  obtain ⟨label, control, log, killed⟩ := agent
  cases moves with
  | @request cikMapping payload identity phase phase' _ _ identified step =>
    obtain ⟨_, ⟨⟩, without, saved⟩ := state
    have without : ¬ view.world.HasEntry (uuid id) := without (by rintro answer rfl; cases step.call?_eq)
    refine invariant.put ((step.mine view.world).served served) (served_keyed served invariant.keyed)
      (fun has => ?_) ⟨phase', rfl, fun unfinished has => ?_, fun promising => step.saved served promising saved⟩
      ?_ ?_ ?_
    · obtain ⟨attended, rfl, _⟩ := step.attended served without has
      exact ⟨nonempty id, ((step.mine view.world).served served).saved _
        (saved (.inr (.inr (.inr rfl)))), .inr attended⟩
    · obtain ⟨_, _, answer, ended⟩ := step.attended served without has
      exact unfinished answer ended
    · exact fun other agent _ found busy => without (invariant.busy_entry found busy)
    · exact fun other differs same => absurd (injective _ _ same) differs
    · rintro other agent taskId _ _ ⟨named, _⟩
      cases named
  | @handling cikMapping now entry fields phase phase' _ _ step =>
    obtain ⟨_, taskId, own, ⟨⟩, named, there, rfl, held, duty⟩ := state
    have identified : handledId own.fields = taskId := by
      simp only [handledId, named, Option.getD_some]
    rw [identified] at step
    have has : view.world.HasEntry taskId := hasEntry_iff.mpr ⟨entry, own, there, named⟩
    obtain ⟨nonempty, saved, attended⟩ := invariant.attended has
    have touches := (step.mine held there named).served served
    obtain ⟨own', there', fields, _⟩ := touches.kept entry own there
    have held' := (step.keeps stable_taskId held (by
      rintro task ⟨⟩
      exact invariant.keyed _ _ (served_getTask served).1.symm)).1
    have busy : Busy ⟨.handling cikMapping now entry own.fields, .handling phase, log, killed⟩ taskId :=
      ⟨named, alive, unfinished⟩
    refine invariant.put touches (served_keyed served invariant.keyed)
      (fun _ => ⟨nonempty, touches.saved _ saved, attended.step (duty alive) step served⟩)
      ⟨phase', taskId, own', rfl, named, there', fields, held',
        fun _ => (duty alive).step step served held saved there⟩ ?_ ?_ ?_
    · exact fun other agent differs found other_busy =>
        differs (invariant.apart other id agent _ taskId found present other_busy busy)
    · exact fun _ _ _ => has
    · rintro other agent taskId' differs found ⟨named', _⟩ other_busy
      cases Option.some.inj (named.symm.trans named')
      exact differs (invariant.apart other id agent _ taskId found present other_busy busy)

theorem AckInvariant.step (invariant : AckInvariant uuid view)
    (injective : ∀ id id', uuid id = uuid id' → id = id') (nonempty : ∀ id, uuid id ≠ "")
    (views : Views settings uuid Faulty config view) (alone : NoOverlap config event)
    (step : (outline settings uuid Faulty).Step view event view') : AckInvariant uuid view' := by
  cases step with
  | start absent begins => exact invariant.start injective views absent begins alone
  | reply present alive moves served => exact invariant.reply injective nonempty present alive moves served
  | kill present alive => exact invariant.kill nonempty present

end Run

/-- A task that was enqueued and is not finished has an entry on the stream that is not acknowledged. -/
def UnfinishedUnacked (world : World) : Prop :=
  ∀ entry ∈ world.stream, ∀ taskId task, fieldsTaskId entry.fields = some taskId →
    world.tasks taskId = some task → ¬ task.state.Terminal →
      ∃ entry' ∈ world.stream, fieldsTaskId entry'.fields = some taskId ∧ entry'.status ≠ .acked ∧
        entry'.deleted = false

/-- What is not acknowledged has not been removed either. -/
theorem AckInvariant.unfinished {uuid : ℕ → TaskId} {view : ServiceView} (invariant : AckInvariant uuid view)
    (removal : RemovalInvariant view) : UnfinishedUnacked view.world := by
  intro entry member taskId task named present unfinished
  obtain ⟨_, _, ⟨task', found, terminal⟩ | ⟨index, entry', there, named', status⟩⟩ :=
    invariant.attended ⟨entry, member, named⟩
  · rw [present, Option.some.injEq] at found
    exact absurd (found ▸ terminal) unfinished
  · refine ⟨entry', List.mem_of_getElem? there, named', status, ?_⟩
    cases gone : entry'.deleted with
    | false => rfl
    | true => exact absurd (removal.removed index entry' there gone) status

theorem AckInvariant.idle {uuid : ℕ → TaskId} {world : World} (keyed : world.Keyed)
    (empty : world.stream = []) : AckInvariant uuid (.idle world) := by
  refine ⟨keyed, ?_, ?_, fun _ _ present => Config.idle_absent present,
    fun _ _ _ _ _ present => Config.idle_absent present⟩
  · intro entry member
    rw [Config.idle_world, empty] at member
    cases member
  · rintro id _ ⟨entry, member, _⟩
    rw [Config.idle_world, empty] at member
    cases member

/-- The worker never acknowledges unfinished work. -/
theorem unfinished_unacked {settings : Settings} {uuid : ℕ → TaskId} {world : World}
    {events : List ServiceEvent} {config : ServiceConfig} (fresh : FreshIds uuid world)
    (keyed : world.Keyed) (empty : world.stream = [])
    (path : Path (Guarded (service settings uuid Faulty).Step NoOverlap) (.idle world) events config) :
    UnfinishedUnacked config.world := by
  have preserved : ∀ config view event view', Views settings uuid Faulty config view → NoOverlap config event →
      (outline settings uuid Faulty).Step view event view' → AckInvariant uuid view ∧ RemovalInvariant view →
      AckInvariant uuid view' ∧ RemovalInvariant view' := by
    rintro config view event view' views alone step ⟨invariant, removal⟩
    exact ⟨invariant.step fresh.injective fresh.nonempty views alone step, removal.step step⟩
  obtain ⟨view, views, invariant, removal⟩ := service_refines.invariant preserved path
    ⟨.idle keyed empty, removalInvariant_idle world empty⟩
  rw [views.world]
  exact invariant.unfinished removal

/-- The condition on the processes below a bound. -/
def NoOverlapBelow (bound : ℕ) (config : ServiceConfig) : ServiceEvent → Bool
  | .start _ (.handling _ _ _ fields) => (List.range bound).all fun id =>
      match config.process id with
      | none => true
      | some process => !decide process.Active || process.label.taskId? != fieldsTaskId fields
  | _ => true

theorem NoOverlapBelow.noOverlap {bound : ℕ} {config : ServiceConfig} {event : ServiceEvent}
    (above : ∀ id, bound ≤ id → config.process id = none)
    (below : NoOverlapBelow bound config event = true) : NoOverlap config event := by
  unfold NoOverlap
  split
  · rename_i id' mapping now entry fields
    intro taskId named id process present active
    have inside : id < bound := by
      by_contra beyond
      rw [above id (by omega)] at present
      cases present
    have checked := List.all_eq_true.mp below id (List.mem_range.mpr inside)
    simp only [present, Bool.or_eq_true, Bool.not_eq_true', decide_eq_false_iff_not, active,
      not_true_eq_false, false_or, bne_iff_ne, named] at checked
    exact checked
  · trivial

/-- A request, a handling killed after it saved PROCESSING, and a redelivery whose SEC request
fails and whose save of RETRYING raises after it took effect. -/
def crashThenFault : List (Move Activity Service.Choice) :=
  [.start 0 (Sample.request (some 2024))] ++ List.replicate 7 (.serve 0 (.succeeds default)) ++
    [.start 1 (Sample.handling 0 0), .serve 1 (.succeeds default), .serve 1 (.succeeds default), .kill 1,
      .start 2 (Sample.handling 0 0), .serve 2 (.succeeds default), .serve 2 (.succeeds default),
      .serve 2 (.raises "timeout" false), .serve 2 (.raises "connection reset" true)]

theorem unfinished_unacked_crash : ∃ events config,
    Path (Guarded (service (Sample.settings 2) Sample.uuid Faulty).Step NoOverlap)
      (.idle Sample.world) events config ∧
    ((config.world.tasks "task-0").map ReportTask.state = some .retrying ∧
      config.world.HasEntry "task-0") ∧ UnfinishedUnacked config.world := by
  have plays : (Service.faultyPlayer (Sample.settings 2) Sample.uuid).Plays
      (fun config event => event.id < 3 ∧ NoOverlapBelow 3 config event = true)
      (fun config => (config.world.tasks "task-0").map ReportTask.state = some .retrying ∧
        config.world.HasEntry "task-0") (.idle Sample.world) crashThenFault := by
    decide +kernel
  obtain ⟨events, config, path, reached, _⟩ := plays.path
  have path := System.bounded_run (fun _ _ above below => NoOverlapBelow.noOverlap above below) path
  exact ⟨events, config, path, reached,
    unfinished_unacked Sample.uuid_fresh Sample.world_keyed rfl path⟩

end Quartr.Soundness
