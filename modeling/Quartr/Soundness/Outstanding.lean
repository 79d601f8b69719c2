import Quartr.Soundness.Acknowledgement
import Quartr.Soundness.Backlog

/-! # Unfinished work stays on the stream

Two handlings of one task overlap whenever the task has been enqueued again and the first entry is still to be
acknowledged. What the leases of the stream keep apart are handlings of one entry. Under that condition alone a
task that is not finished has an open entry: nobody has acknowledged it, and nobody is about to.
-/

namespace Quartr.Soundness

open Quartr.Machine Quartr.Model

/-- Handlings of one entry do not overlap. -/
def NoSharing (config : ServiceConfig) : ServiceEvent → Prop
  | .start _ (.handling _ _ entry _) => ∀ id process, config.process id = some process → process.Active →
      process.label.entry? ≠ some entry
  | _ => True

/-- The handling acknowledges its entry without saving anything before, unless it raises. -/
def Closing (phase : HandlingPhase) : Prop := Settled phase ∨ phase = .finished

def ClosingAt (agent : Agent) (index : ℕ) : Prop :=
  agent.killed = false ∧ agent.label.entry? = some index ∧ ∃ phase, agent.control = .handling phase ∧ Closing phase

/-- An entry of the task that nobody has acknowledged and nobody is about to. -/
def OpenAt (view : ServiceView) (taskId : TaskId) (index : ℕ) : Prop :=
  UnackedAt view.world taskId index ∧ ∀ id agent, view.process id = some agent → ¬ ClosingAt agent index

/-- The task is finished or has an open entry. -/
def Covered (view : ServiceView) (taskId : TaskId) : Prop :=
  Done view.world taskId ∨ ∃ index, OpenAt view taskId index

/-- The process is a handling of this entry that may still make a call. -/
def Engaged (agent : Agent) (index : ℕ) : Prop :=
  agent.label.entry? = some index ∧ agent.killed = false ∧ ¬ agent.control.Final

/-- What is known of one process, be it alive or killed. -/
def WorkState (uuid : ℕ → TaskId) (world : World) (id : ℕ) (agent : Agent) : Prop :=
  match agent.label with
  | .request _ _ => ∃ phase, agent.control = .request phase ∧
      ((∀ answer, phase ≠ .ended answer) → ¬ world.HasEntry (uuid id)) ∧
      (Promising phase → world.tasks (uuid id) ≠ none)
  | .handling _ _ entry fields => ∃ phase taskId own, agent.control = .handling phase ∧
      fieldsTaskId fields = some taskId ∧ world.stream[entry]? = some own ∧ own.fields = fields ∧
      phase.Holds (fun task => task.taskId = taskId) ∧
      (agent.killed = false → Owes phase → UnackedAt world taskId entry)

structure WorkInvariant (uuid : ℕ → TaskId) (view : ServiceView) : Prop where
  keyed : view.world.Keyed
  entries : ∀ entry ∈ view.world.stream, ∃ taskId, fieldsTaskId entry.fields = some taskId ∧
    taskId ≠ "" ∧ view.world.tasks taskId ≠ none ∧ Covered view taskId
  unused : ∀ id, view.process id = none → ¬ view.world.HasEntry (uuid id)
  agents : ∀ id agent, view.process id = some agent → WorkState uuid view.world id agent
  apart : ∀ id id' agent agent' index, view.process id = some agent → view.process id' = some agent' →
    Engaged agent index → Engaged agent' index → id = id'

section Work

variable {settings : Settings} {uuid : ℕ → TaskId} {config : ServiceConfig} {view view' : ServiceView}
  {event : ServiceEvent} {world world' : World} {actor taskId : TaskId} {index : ℕ}

theorem closing_working {phase : HandlingPhase} (closing : Closing phase) : ¬ (Phase.handling phase).Final := by
  rintro (⟨_, same⟩ | same)
  · cases same
  · cases same
    rcases closing with settled | same
    · exact settled
    · cases same

theorem ClosingAt.engaged {agent : Agent} (closing : ClosingAt agent index) : Engaged agent index := by
  obtain ⟨alive, label, phase, control, closing⟩ := closing
  exact ⟨label, alive, control ▸ closing_working closing⟩

/-- A handling that closes saves nothing. -/
theorem HandlingStep.closing_saves {worker : Worker} {entry : ℕ} {phase phase' : HandlingPhase} {call : Call}
    {reply : calls.Reply call} (step : HandlingStep worker entry taskId phase call reply phase')
    (closing : Closing phase) (saved : ReportTask) : call ≠ .setTask saved := by
  rintro rfl
  cases step with
  | pipeline _ _ _ _ outside => exact outside
  | _ =>
    rcases closing with settled | same
    · exact settled
    · cases same

/-- A handling that owes nothing any more acknowledges its entry and removes it. -/
theorem HandlingStep.unowed {worker : Worker} {entry : ℕ} {phase phase' : HandlingPhase} {call : Call}
    {reply : calls.Reply call} (step : HandlingStep worker entry taskId phase call reply phase') :
    Owes phase ∨ phase = .finished ∨ phase = .acked ∧ phase' = .stopped := by
  cases step with
  | remove => exact .inr (.inr ⟨rfl, rfl⟩)
  | ack => exact .inr (.inl rfl)
  | reread _ _ _ interrupted =>
    left
    cases interrupted <;> exact owes_of_working trivial
  | unrecovered _ _ _ interrupted =>
    left
    cases interrupted <;> exact owes_of_working trivial
  | _ => exact .inl (owes_of_working trivial)

theorem OpenAt.put {id : ℕ} {agent' : Agent} (opened : OpenAt view taskId index)
    (unacked : UnackedAt world' taskId index) (mine : ¬ ClosingAt agent' index) :
    OpenAt (view.put id agent' world') taskId index := by
  refine ⟨unacked, fun other agent present => ?_⟩
  rcases Config.put_cases present with ⟨_, rfl⟩ | ⟨_, before⟩
  · exact mine
  · exact opened.2 other agent before

theorem WorkInvariant.covered (invariant : WorkInvariant uuid view) (has : view.world.HasEntry taskId) :
    taskId ≠ "" ∧ view.world.tasks taskId ≠ none ∧ Covered view taskId := by
  obtain ⟨entry, member, named⟩ := has
  obtain ⟨taskId', named', rest⟩ := invariant.entries entry member
  cases Option.some.inj (named.symm.trans named')
  exact rest

/-- A handling is of an entry that is there. -/
theorem WorkInvariant.handled (invariant : WorkInvariant uuid view) {id : ℕ} {agent : Agent}
    (present : view.process id = some agent) (label : agent.label.entry? = some index) :
    ∃ own, view.world.stream[index]? = some own := by
  have state := invariant.agents id agent present
  obtain ⟨activity, control, log, killed⟩ := agent
  cases activity with
  | request => cases label
  | handling cikMapping now entry fields =>
    cases label
    obtain ⟨_, _, own, _, _, there, _⟩ := state
    exact ⟨own, there⟩

/-- What the step of one process has to re-establish; `actor` is the task it touches. -/
theorem WorkInvariant.put {id : ℕ} {agent' : Agent} (invariant : WorkInvariant uuid view)
    (touches : Touches actor view.world world') (keyed : world'.Keyed)
    (covered : world'.HasEntry actor →
      actor ≠ "" ∧ world'.tasks actor ≠ none ∧ Covered (view.put id agent' world') actor)
    (state : WorkState uuid world' id agent')
    (closes : ∀ index taskId, ClosingAt agent' index → UnackedAt world' taskId index → taskId = actor)
    (kept : ∀ other agent index, other ≠ id → view.process other = some agent → Engaged agent index →
      UnackedAt view.world actor index → UnackedAt world' actor index)
    (owner : ∀ other, other ≠ id → uuid other = actor → view.world.HasEntry actor)
    (apart : ∀ other agent index, other ≠ id → view.process other = some agent →
      Engaged agent' index → ¬ Engaged agent index) :
    WorkInvariant uuid (view.put id agent' world') := by
  have unentered : ∀ other, other ≠ id → ¬ view.world.HasEntry (uuid other) →
      ¬ world'.HasEntry (uuid other) := by
    intro other differs without has
    by_cases own : uuid other = actor
    · exact without (own ▸ owner other differs own)
    · exact without (touches.hasEntry own has)
  refine ⟨keyed, ?_, ?_, ?_, ?_⟩
  · intro entry' member
    obtain ⟨index, present⟩ := List.mem_iff_getElem?.mp member
    by_cases own : fieldsTaskId entry'.fields = some actor
    · exact ⟨actor, own, covered ⟨entry', member, own⟩⟩
    · rcases touches.added index entry' present with ⟨entry, before, fields⟩ | named
      · obtain ⟨taskId, named, nonempty, saved, before⟩ :=
          invariant.entries entry (List.mem_of_getElem? before)
        rw [← fields] at named
        have other : taskId ≠ actor := fun same => own (same ▸ named)
        refine ⟨taskId, named, nonempty, touches.saved taskId saved, ?_⟩
        rcases before with done | ⟨position, opened⟩
        · exact .inl (done.touched touches other)
        · have unacked := opened.1.touched touches other
          exact .inr ⟨position, opened.put unacked fun closing => other (closes position taskId closing unacked)⟩
      · exact absurd named own
  · intro other gone
    by_cases same : other = id
    · subst same
      rw [Config.put_self] at gone
      cases gone
    · rw [Config.put_of_ne same] at gone
      exact unentered other same (invariant.unused other gone)
  · intro other agent present
    rcases Config.put_cases present with ⟨rfl, rfl⟩ | ⟨differs, before⟩
    · exact state
    · have known := invariant.agents other agent before
      obtain ⟨label, control, log, killed⟩ := agent
      cases label with
      | request cikMapping payload =>
        obtain ⟨phase, standing, without, saved⟩ := known
        exact ⟨phase, standing, fun unfinished => unentered other differs (without unfinished),
          fun promising => touches.saved _ (saved promising)⟩
      | handling cikMapping now entry fields =>
        obtain ⟨phase, taskId, own, standing, named, there, fields', held, owed⟩ := known
        obtain ⟨own', there', fields'', _⟩ := touches.kept entry own there
        refine ⟨phase, taskId, own', standing, named, there', fields''.trans fields', held, fun alive owes => ?_⟩
        by_cases mine : taskId = actor
        · subst mine
          refine kept other _ entry differs before ⟨rfl, alive, ?_⟩ (owed alive owes)
          rintro (⟨_, same⟩ | same)
          · cases standing.symm.trans same
          · cases standing.symm.trans same
            exact owes.2.2 rfl
        · exact (owed alive owes).touched touches mine
  · intro first second agent agent'' index present present' engaged engaged'
    rcases Config.put_cases present with ⟨rfl, rfl⟩ | ⟨differs, before⟩
    · rcases Config.put_cases present' with ⟨rfl, _⟩ | ⟨differs', before'⟩
      · rfl
      · exact absurd engaged' (apart second agent'' index differs' before' engaged)
    · rcases Config.put_cases present' with ⟨rfl, rfl⟩ | ⟨differs', before'⟩
      · exact absurd engaged (apart first agent index differs before engaged')
      · exact invariant.apart first second agent agent'' index before before' engaged engaged'

/-- The task of a handling stays covered over the handling's own steps. -/
theorem Covered.step {id : ℕ} {agent : Agent} {worker : Worker} {entry : ℕ} {phase phase' : HandlingPhase}
    {call : Call} {reply : calls.Reply call} (covered : Covered view taskId)
    (invariant : WorkInvariant uuid view) (present : view.process id = some agent) (alive : agent.killed = false)
    (label : agent.label.entry? = some entry) (control : agent.control = .handling phase)
    (step : HandlingStep worker entry taskId phase call reply phase')
    (served : Faulty call view.world reply world') (held : phase.Holds fun task => task.taskId = taskId)
    (saved : view.world.tasks taskId ≠ none) (owed : Owes phase → UnackedAt view.world taskId entry) :
    Covered (view.put id (agent.resume call reply (.handling phase')) world') taskId := by
  have done (unsaved : ∀ saved, call ≠ .setTask saved) (before : Done view.world taskId) : Done world' taskId := by
    obtain ⟨task, found, terminal⟩ := before
    refine ⟨task, ?_, terminal⟩
    rcases served_world served with rfl | rfl
    · exact found
    · rw [World.after_tasks]
      cases call with
      | setTask task => exact absurd rfl (unsaved task)
      | _ => exact found
  have still (unsaved : ∀ saved, call ≠ .setTask saved)
      (other : ∀ index, OpenAt view taskId index → call ≠ .xack index ∧
        ¬ ClosingAt (agent.resume call reply (.handling phase')) index) :
      Covered (view.put id (agent.resume call reply (.handling phase')) world') taskId := by
    rcases covered with before | ⟨index, opened⟩
    · exact .inl (done unsaved before)
    · obtain ⟨unacking, mine⟩ := other index opened
      exact .inr ⟨index, opened.put (opened.1.served served unacking) mine⟩
  by_cases closing : Closing phase
  · -- The open entry is not the one this handling is closing.
    refine still (step.closing_saves closing) fun index opened => ?_
    have differs : index ≠ entry := by
      rintro rfl
      exact opened.2 id agent present ⟨alive, label, phase, control, closing⟩
    refine ⟨?_, fun mine => ?_⟩
    · rintro rfl
      exact differs step.xack_phase.2
    · exact differs (Option.some.inj (mine.2.1.symm.trans label))
  · by_cases owes : Owes phase
    · have unacked : UnackedAt world' taskId entry := by
        refine (owed owes).served served ?_
        rintro rfl
        exact owes.1 step.xack_phase.1
      by_cases closed : Closing phase'
      · rcases closed with settled | rfl
        · rcases step.settled settled with ⟨earlier, _⟩ | ⟨record, answer, same, terminal⟩
          · exact absurd (.inl earlier) closing
          · cases same
            have own : record.taskId = taskId := step.saves held
            refine .inl ⟨record, ?_, terminal⟩
            rw [Config.put_world, (served_answer served).2, World.after_tasks, ← own]
            exact Function.update_self ..
        · rcases step.finished with ⟨earlier, _⟩ | ⟨record, answer, rfl, same⟩ | ⟨read, same, completed⟩
          · exact absurd (.inl earlier) closing
          · cases same
            have own : record.taskId = taskId := held record rfl
            have fresh : world'.stream[view.world.stream.length]? = some (Entry.new record.taskId) := by
              rw [(served_answer served).2, World.after_stream]
              exact List.getElem?_concat_length
            refine .inr ⟨view.world.stream.length, ⟨Entry.new record.taskId, fresh, congrArg some own, nofun⟩, ?_⟩
            rintro other found there closing
            have old : ∃ own, view.world.stream[view.world.stream.length]? = some own := by
              rcases Config.put_cases there with ⟨_, rfl⟩ | ⟨_, before⟩
              · exact invariant.handled present closing.2.1
              · exact invariant.handled before closing.2.1
            obtain ⟨own, there⟩ := old
            have inside := (List.getElem?_eq_some_iff.mp there).1
            omega
          · cases same
            obtain ⟨rfl, rfl⟩ := served_getTask served
            cases found : view.world.tasks taskId with
            | none => exact absurd found saved
            | some task => exact .inl ⟨task, found, .inl (completed task found)⟩
      · refine .inr ⟨entry, unacked, fun other found there theirs => ?_⟩
        rcases Config.put_cases there with ⟨_, rfl⟩ | ⟨differs, before⟩
        · obtain ⟨_, _, last, same, closing'⟩ := theirs
          cases same
          exact closed closing'
        · refine differs (invariant.apart other id found agent entry before present theirs.engaged ⟨label, alive, ?_⟩)
          rw [control]
          rintro (⟨_, same⟩ | same)
          · cases same
          · cases same
            exact owes.2.2 rfl
    · -- The entry has been acknowledged; what is left is to remove it.
      obtain ⟨rfl, rfl⟩ := (step.unowed.resolve_left owes).resolve_left fun same => closing (.inr same)
      refine still (fun saved => ?_) fun index _ => ⟨?_, fun mine => ?_⟩
      · rintro rfl
        exact owes step.setTask_owes
      · rintro rfl
        cases step.xack_phase.1
      · obtain ⟨_, _, last, same, settled | finished⟩ := mine
        · cases same
          exact settled
        · cases same
          cases finished

end Work

/-! ### The steps -/

section Run

variable {settings : Settings} {uuid : ℕ → TaskId} {config : ServiceConfig} {view view' : ServiceView}
  {event : ServiceEvent}

theorem UnackedAt.deliver {world : World} {taskId : TaskId} {index : ℕ} (unacked : UnackedAt world taskId index)
    (position : ℕ) (nonempty : taskId ≠ "") :
    UnackedAt { world with stream := world.stream.modify position Entry.deliver } taskId index :=
  unacked.touched (touches_deliver "" world position) nonempty

theorem WorkInvariant.start (invariant : WorkInvariant uuid view) (injective : ∀ id id', uuid id = uuid id' → id = id')
    (views : Views settings uuid Faulty config view) {id : ℕ} {label : Activity} {world : World}
    (absent : view.process id = none) (begins : Service.start view.world label world)
    (unshared : NoSharing config (.start id label)) :
    WorkInvariant uuid (view.put id ⟨label, Phase.initial label, [], false⟩ world) := by
  cases label with
  | request cikMapping payload =>
    obtain rfl : world = view.world := begins
    have without := invariant.unused id absent
    refine invariant.put (.refl (uuid id) _) invariant.keyed (fun has => absurd has without)
      ⟨_, rfl, fun _ => without, ?_⟩ ?_ ?_ ?_ ?_
    · intro promising
      rcases RequestPhase.initial_cases (Routes.requestedIdentity cikMapping payload) with same | same <;>
        rw [same] at promising <;> rcases promising with same | same | same | same <;> cases same
    · rintro index taskId ⟨_, label, _⟩
      cases label
    · exact fun _ _ _ _ _ _ unacked => unacked
    · exact fun other differs same => absurd (injective _ _ same) differs
    · rintro other agent index _ _ ⟨label, _⟩
      cases label
  | handling cikMapping now entry fields =>
    obtain ⟨⟨own, present, rfl, status, _⟩, rfl⟩ := begins
    obtain ⟨taskId, named, nonempty, saved, covered⟩ := invariant.entries own (List.mem_of_getElem? present)
    have has : view.world.HasEntry taskId := hasEntry_iff.mpr ⟨entry, own, present, named⟩
    have idle : ∀ other agent, view.process other = some agent → ¬ Engaged agent entry := by
      rintro other agent there ⟨label, alive, unfinished⟩
      obtain ⟨process, found, follows⟩ := Refinement.behind views there
      refine unshared other process found ((active_iff follows).mpr ⟨alive, unfinished⟩) ?_
      rw [follows.1, label]
    have unacked : UnackedAt view.world taskId entry := ⟨own, present, named, status⟩
    have fresh : HandlingPhase.initial own.fields = .fresh := by
      simp only [HandlingPhase.initial, named, nonempty, ↓reduceIte]
    have opening : ∀ index, ¬ ClosingAt (⟨.handling cikMapping now entry own.fields,
        .handling (.initial own.fields), [], false⟩ : Agent) index := by
      rintro index ⟨_, _, phase, same, closing⟩
      cases fresh.symm.trans (Phase.handling.inj same)
      rcases closing with settled | same
      · exact settled
      · cases same
    obtain ⟨own', there, fields, _⟩ := (touches_deliver "" view.world entry).kept entry own present
    refine invariant.put (touches_deliver taskId view.world entry) invariant.keyed ?_
      ⟨.fresh, taskId, own', congrArg Phase.handling fresh, named, there, fields, holds_of_none rfl,
        fun _ _ => unacked.deliver entry nonempty⟩ ?_ ?_ ?_ ?_
    · refine fun _ => ⟨nonempty, saved, ?_⟩
      rcases covered with done | ⟨index, opened⟩
      · exact .inl done
      · exact .inr ⟨index, opened.put (opened.1.deliver entry nonempty) (opening index)⟩
    · exact fun index _ closing => absurd closing (opening index)
    · exact fun _ _ _ _ _ _ unacked => unacked.deliver entry nonempty
    · exact fun _ _ _ => has
    · rintro other agent index _ found ⟨label, _⟩
      cases label
      exact idle other agent found

theorem WorkInvariant.kill (invariant : WorkInvariant uuid view) (nonempty : ∀ id, uuid id ≠ "") {id : ℕ}
    {agent : Agent} (present : view.process id = some agent) :
    WorkInvariant uuid (view.put id { agent with killed := true } view.world) := by
  have state := invariant.agents id agent present
  have ended : ∀ index, ¬ Engaged { agent with killed := true } index := by
    rintro index ⟨_, alive, _⟩
    cases alive
  refine invariant.put (.refl "" _) invariant.keyed (fun has => absurd rfl (invariant.covered has).1) ?_ ?_ ?_ ?_ ?_
  · obtain ⟨label, control, log, killed⟩ := agent
    cases label with
    | request cikMapping payload => exact state
    | handling cikMapping now entry fields =>
      obtain ⟨phase, taskId, own, control, named, there, fields', held, _⟩ := state
      exact ⟨phase, taskId, own, control, named, there, fields', held, by rintro ⟨⟩⟩
  · exact fun index _ closing => absurd closing.engaged (ended index)
  · exact fun _ _ _ _ _ _ unacked => unacked
  · exact fun other _ same => absurd same (nonempty other)
  · exact fun _ _ index _ _ engaged => absurd engaged (ended index)

theorem WorkInvariant.reply (invariant : WorkInvariant uuid view)
    (injective : ∀ id id', uuid id = uuid id' → id = id') (nonempty : ∀ id, uuid id ≠ "")
    {id : ℕ} {agent : Agent} {call : Call} {reply : calls.Reply call} {phase' : Phase} {world : World}
    (present : view.process id = some agent) (alive : agent.killed = false)
    (moves : ServiceStep settings uuid id agent.label agent.control call reply phase')
    (served : Faulty call view.world reply world) :
    WorkInvariant uuid (view.put id (agent.resume call reply phase') world) := by
  have state := invariant.agents id agent present
  have unfinished := moves.not_final
  obtain ⟨label, control, log, killed⟩ := agent
  cases moves with
  | @request cikMapping payload identity phase phase' _ _ identified step =>
    obtain ⟨_, ⟨⟩, before, saved⟩ := state
    have without : ¬ view.world.HasEntry (uuid id) := before (by rintro answer rfl; cases step.call?_eq)
    have touches : Touches (uuid id) view.world world := (step.mine view.world).served served
    refine invariant.put touches (served_keyed served invariant.keyed) (fun has => ?_)
      ⟨phase', rfl, fun unfinished has => ?_, fun promising => step.saved served promising saved⟩ ?_ ?_ ?_ ?_
    · obtain ⟨⟨index, unacked⟩, rfl, _⟩ := step.attended served without has
      refine ⟨nonempty id, touches.saved _ (saved (.inr (.inr (.inr rfl)))), .inr ⟨index, unacked, ?_⟩⟩
      -- A handling of the new entry would have found it there before.
      rintro other found there closing
      rcases Config.put_cases there with ⟨_, rfl⟩ | ⟨_, before⟩
      · cases closing.2.1
      · obtain ⟨own, old⟩ := invariant.handled before closing.2.1
        obtain ⟨own', new, fields, _⟩ := touches.kept index own old
        obtain ⟨own'', new', named, _⟩ := unacked
        cases new.symm.trans new'
        exact without (hasEntry_iff.mpr ⟨index, own, old, fields ▸ named⟩)
    · obtain ⟨_, _, answer, ended⟩ := step.attended served without has
      exact unfinished answer ended
    · rintro index taskId ⟨_, label, _⟩
      cases label
    · rintro other agent index _ _ _ ⟨own, there, named, _⟩
      exact absurd (hasEntry_iff.mpr ⟨index, own, there, named⟩) without
    · exact fun other differs same => absurd (injective _ _ same) differs
    · rintro other agent index _ _ ⟨label, _⟩
      cases label
  | @handling cikMapping now entry fields phase phase' _ _ step =>
    obtain ⟨_, taskId, own, ⟨⟩, named, there, rfl, held, owed⟩ := state
    have identified : handledId own.fields = taskId := by
      simp only [handledId, named, Option.getD_some]
    rw [identified] at step
    have has : view.world.HasEntry taskId := hasEntry_iff.mpr ⟨entry, own, there, named⟩
    obtain ⟨nonempty, saved, covered⟩ := invariant.covered has
    have touches := (step.mine held there named).served served
    obtain ⟨own', there', fields, _⟩ := touches.kept entry own there
    have held' := (step.keeps stable_taskId held (by
      rintro task ⟨⟩
      exact invariant.keyed _ _ (served_getTask served).1.symm)).1
    have engaged : Engaged ⟨.handling cikMapping now entry own.fields, .handling phase, log, killed⟩ entry :=
      ⟨rfl, alive, unfinished⟩
    refine invariant.put touches (served_keyed served invariant.keyed)
      (fun _ => ⟨nonempty, touches.saved _ saved,
        covered.step invariant present alive rfl rfl step served held saved (owed alive)⟩)
      ⟨phase', taskId, own', rfl, named, there', fields, held', fun _ owes => ?_⟩ ?_ ?_ ?_ ?_
    · refine (owed alive (step.owes owes)).served served ?_
      rintro rfl
      exact (step.owes owes).1 step.xack_phase.1
    · rintro index taskId' closing ⟨entry', new, named', _⟩
      cases closing.2.1
      cases there'.symm.trans new
      rw [fields, named] at named'
      exact (Option.some.inj named').symm
    · intro other agent index differs found theirs unacked
      refine unacked.served served ?_
      rintro rfl
      obtain rfl := step.xack_phase.2
      exact differs (invariant.apart other id agent _ _ found present theirs engaged)
    · exact fun _ _ _ => has
    · rintro other agent index differs found ⟨label, _⟩ theirs
      cases label
      exact differs (invariant.apart other id agent _ entry found present theirs engaged)

theorem WorkInvariant.idle {world : World} (keyed : world.Keyed) (empty : world.stream = []) :
    WorkInvariant uuid (.idle world) := by
  refine ⟨keyed, ?_, ?_, fun _ _ present => Config.idle_absent present,
    fun _ _ _ _ _ present => Config.idle_absent present⟩
  · intro entry member
    rw [Config.idle_world, empty] at member
    cases member
  · rintro id _ ⟨entry, member, _⟩
    rw [Config.idle_world, empty] at member
    cases member

theorem WorkInvariant.step {world : World} (fresh : FreshIds uuid world) (invariant : WorkInvariant uuid view)
    (views : Views settings uuid Faulty config view) (unshared : NoSharing config event)
    (step : (outline settings uuid Faulty).Step view event view') : WorkInvariant uuid view' := by
  cases step with
  | start absent begins => exact invariant.start fresh.injective views absent begins unshared
  | reply present alive moves served => exact invariant.reply fresh.injective fresh.nonempty present alive moves served
  | kill present alive => exact invariant.kill fresh.nonempty present

end Run

end Quartr.Soundness
