import Quartr.Soundness.Delivery

/-! # One party at a time works on a task

While Redis does not fail, nobody is killed and an entry is handed out again only after its previous
handling has ended, the work on a task lies with one holder: a handling, or an entry that nobody
handles and that finds its task QUEUED. `TaskCourse` carries this through every interleaving and
counts the handlings against the attempts of the record.
-/

namespace Quartr.Soundness

open Quartr.Machine Quartr.Model

/-- The task a process acts for. -/
def Acts (uuid : ℕ → TaskId) (id : ℕ) (label : Activity) (taskId : TaskId) : Prop :=
  match label with
  | .request _ _ => uuid id = taskId
  | .handling _ _ _ fields => fieldsTaskId fields = some taskId

/-- A handling of this entry of the task that still has a call to make. -/
def Occupies (agent : Agent) (taskId : TaskId) (index : ℕ) : Prop :=
  agent.label.taskId? = some taskId ∧ agent.label.entry? = some index ∧ ¬ agent.control.Final

/-- Where the work on a task may lie. -/
inductive Holder where
  | agent (id : ℕ)
  | entry (index : ℕ)

/-- The holder has the work on the task: a handling that owes its entry, or an unacknowledged entry
that nobody handles. -/
def Charged (view : ServiceView) (taskId : TaskId) : Holder → Prop
  | .agent id => ∃ agent phase, view.process id = some agent ∧ agent.label.taskId? = some taskId ∧
      agent.control = .handling phase ∧ Owes phase
  | .entry index => UnackedAt view.world taskId index ∧
      ∀ id agent, view.process id = some agent → ¬ Occupies agent taskId index

/-- The work on the task has exactly one holder, which finds the task QUEUED if it is an entry; or the
task is retired. -/
def Custody (limit begun : ℕ) (view : ServiceView) (taskId : TaskId) : Prop :=
  (∃ holder, Charged view taskId holder ∧ (∀ other, Charged view taskId other → other = holder) ∧
    ∀ index, holder = .entry index → Queueing limit begun view.world taskId) ∨
  (∀ holder, ¬ Charged view taskId holder) ∧ Retired view.world taskId

/-- The entry of a handling and its delivery status. -/
def EntryCourse (world : World) (taskId : TaskId) (index : ℕ) (phase : HandlingPhase) : Prop :=
  ∃ own, world.stream[index]? = some own ∧ fieldsTaskId own.fields = some taskId ∧
    (Owes phase ∨ phase = .finished → own.status = .pending) ∧ (phase = .acked → own.status = .acked)

/-- The first reply a handling gets is its task, QUEUED. -/
def Opening (taskId : TaskId) (log : List (Σ call, calls.Reply call)) (phase : HandlingPhase) : Prop :=
  (log = [] ∧ phase = .fresh) ∨
    ∃ task : ReportTask, log.getLast? = some ⟨.getTask taskId, .ok (some task)⟩ ∧ task.state = .queued

/-- What holds of a process that acts for the task. -/
def AgentCourse (settings : Settings) (begun : ℕ) (world : World) (taskId : TaskId) (agent : Agent) :
    Prop :=
  match agent.label with
  | .request cikMapping payload => ∃ phase, agent.control = .request phase ∧
      ∀ identity, Routes.requestedIdentity cikMapping payload = .ok identity →
        RequestCourse ⟨settings, identity, payload.includeAmended, taskId⟩ world phase
  | .handling _ _ index _ => ∃ phase, agent.control = .handling phase ∧
      EntryCourse world taskId index phase ∧ Opening taskId agent.log phase ∧
      HandlingCourse settings.retryMaxAttempts begun taskId world phase

/-- What holds of a task of which `begun` handlings have begun. -/
structure TaskCourse (settings : Settings) (uuid : ℕ → TaskId) (begun : ℕ) (view : ServiceView)
    (taskId : TaskId) : Prop where
  fresh : ∀ id, uuid id = taskId → view.process id = none → Untouched view.world taskId
  unbegun : ¬ view.world.HasEntry taskId → begun = 0
  bounded : begun ≤ max 1 settings.retryMaxAttempts
  agents : ∀ id agent, view.process id = some agent → Acts uuid id agent.label taskId →
    AgentCourse settings begun view.world taskId agent
  sole : ∀ id id' agent agent' index, view.process id = some agent → view.process id' = some agent' →
    Occupies agent taskId index → Occupies agent' taskId index → id = id'
  custody : view.world.HasEntry taskId → Custody settings.retryMaxAttempts begun view taskId
  removed : ∀ (index : ℕ) (entry : Entry), view.world.stream[index]? = some entry →
    fieldsTaskId entry.fields = some taskId → entry.status = .acked → entry.deleted = false →
    ∃ id agent, view.process id = some agent ∧ agent.label.taskId? = some taskId ∧
      agent.label.entry? = some index ∧ agent.control = .handling .acked
  kept : ∀ (index : ℕ) (entry : Entry), view.world.stream[index]? = some entry →
    fieldsTaskId entry.fields = some taskId → entry.deleted = true → entry.status = .acked

section Courses

variable {settings : Settings} {uuid : ℕ → TaskId} {begun id index : ℕ} {view : ServiceView}
  {taskId actor : TaskId} {world world' : World} {phase : HandlingPhase} {agent agent' : Agent} {call : Call}

theorem Acts.unique {label : Activity} {other : TaskId} (acts : Acts uuid id label taskId)
    (acts' : Acts uuid id label other) : taskId = other := by
  cases label with
  | request => exact acts.symm.trans acts'
  | handling => exact Option.some.inj (acts.symm.trans acts')

theorem acts_of_taskId {label : Activity} (handles : label.taskId? = some taskId) :
    Acts uuid id label taskId := by
  cases label with
  | request => cases handles
  | handling => exact handles

theorem EntryCourse.confined (course : EntryCourse world taskId index phase)
    (confined : Confined actor world world') (other : taskId ≠ actor) :
    EntryCourse world' taskId index phase := by
  obtain ⟨own, present, named, rest⟩ := course
  refine ⟨own, ?_, named, rest⟩
  rw [confined.entries index own]
  · exact present
  · rw [named, ne_eq, Option.some.injEq]
    exact other

/-- An entry keeps its status unless it is acknowledged. -/
theorem EntryCourse.after (course : EntryCourse world taskId index phase)
    (spared : phase = .stopped ∨ call ≠ .xack index) : EntryCourse (world.after call) taskId index phase := by
  obtain ⟨own, present, named, pending, acked⟩ := course
  refine ⟨_, after_entry present, by rw [touch_fields, named], ?_, ?_⟩
  · intro holds
    rcases spared with rfl | spared
    · rcases holds with owes | same
      · exact absurd rfl owes.2.2
      · cases same
    · rw [touch_status own spared]
      exact pending holds
  · intro same
    exact touch_acked (acked same)

theorem AgentCourse.confined (course : AgentCourse settings begun world taskId agent)
    (confined : Confined actor world world') (other : taskId ≠ actor) :
    AgentCourse settings begun world' taskId agent := by
  obtain ⟨label, control, log, killed⟩ := agent
  cases label with
  | request =>
    obtain ⟨phase, same, course⟩ := course
    exact ⟨phase, same, fun identity identified => (course identity identified).confined confined other⟩
  | handling =>
    obtain ⟨phase, same, entry, opening, course⟩ := course
    exact ⟨phase, same, entry.confined confined other, opening, course.spared (confined.spares other)⟩

theorem Custody.congr {view' : ServiceView} {limit : ℕ} (custody : Custody limit begun view taskId)
    (same : ∀ holder, Charged view' taskId holder ↔ Charged view taskId holder)
    (queueing : Queueing limit begun view.world taskId → Queueing limit begun view'.world taskId)
    (retired : Retired view.world taskId → Retired view'.world taskId) :
    Custody limit begun view' taskId := by
  rcases custody with ⟨holder, charged, only, queues⟩ | ⟨nobody, done⟩
  · refine .inl ⟨holder, (same holder).mpr charged, ?_, fun index entry => queueing (queues index entry)⟩
    intro other charged
    exact only other ((same other).mp charged)
  · refine .inr ⟨?_, retired done⟩
    intro holder charged
    exact nobody holder ((same holder).mp charged)

/-- A process that acts for another task changes nothing for this one. -/
theorem TaskCourse.confined (course : TaskCourse settings uuid begun view taskId)
    (confined : Confined actor view.world world') (other : taskId ≠ actor)
    (acts : Acts uuid id agent'.label actor)
    (before : ∀ agent, view.process id = some agent → agent.label = agent'.label) :
    TaskCourse settings uuid begun (view.put id agent' world') taskId := by
  -- Neither the old nor the new process of this number acts for the task.
  have foreign {id' : ℕ} {agent : Agent} (present : (view.put id agent' world').process id' = some agent)
      (own : Acts uuid id' agent.label taskId) : id' ≠ id ∧ view.process id' = some agent := by
    by_cases same : id' = id
    · subst same
      cases Config.put_self.symm.trans present
      exact absurd (own.unique acts) other
    · rw [Config.put_of_ne same] at present
      exact ⟨same, present⟩
  have back {id' : ℕ} {agent : Agent} (present : view.process id' = some agent)
      (own : Acts uuid id' agent.label taskId) : (view.put id agent' world').process id' = some agent := by
    rw [Config.put_of_ne]
    · exact present
    · rintro rfl
      rw [before agent present] at own
      exact other (own.unique acts)
  have entries (index : ℕ) (entry : Entry) (named : fieldsTaskId entry.fields = some taskId) :
      world'.stream[index]? = some entry ↔ view.world.stream[index]? = some entry := by
    apply confined.entries
    rw [named, ne_eq, Option.some.injEq]
    exact other
  have charged (holder : Holder) :
      Charged (view.put id agent' world') taskId holder ↔ Charged view taskId holder := by
    cases holder with
    | agent id' =>
      constructor
      · rintro ⟨agent, phase, present, handles, rest⟩
        exact ⟨agent, phase, (foreign present (acts_of_taskId handles)).2, handles, rest⟩
      · rintro ⟨agent, phase, present, handles, rest⟩
        exact ⟨agent, phase, back present (acts_of_taskId handles), handles, rest⟩
    | entry index =>
      apply and_congr (confined.unacked other)
      constructor
      · intro free id' agent present occupies
        exact free id' agent (back present (acts_of_taskId occupies.1)) occupies
      · intro free id' agent present occupies
        exact free id' agent (foreign present (acts_of_taskId occupies.1)).2 occupies
  constructor
  · intro id' own absent
    by_cases same : id' = id
    · subst same
      cases Config.put_self.symm.trans absent
    · rw [Config.put_of_ne same] at absent
      exact (course.fresh id' own absent).confined confined other
  · rw [Config.put_world, confined.hasEntry other]
    exact course.unbegun
  · exact course.bounded
  · intro id' agent present own
    exact (course.agents id' agent (foreign present own).2 own).confined confined other
  · intro id' id'' agent agent'' index present present' occupies occupies'
    exact course.sole id' id'' agent agent'' index (foreign present (acts_of_taskId occupies.1)).2
      (foreign present' (acts_of_taskId occupies'.1)).2 occupies occupies'
  · intro has
    exact (course.custody ((confined.hasEntry other).mp has)).congr charged
      (fun queueing => queueing.spared (confined.spares other))
      (fun retired => retired.spared (confined.spares other))
  · intro index entry present named acked undeleted
    obtain ⟨id', agent, there, handles, rest⟩ :=
      course.removed index entry ((entries index entry named).mp present) named acked undeleted
    exact ⟨id', agent, back there (acts_of_taskId handles), handles, rest⟩
  · intro index entry present named
    exact course.kept index entry ((entries index entry named).mp present) named

/-- A handling of the task has its entry in the stream. -/
theorem TaskCourse.handled (course : TaskCourse settings uuid begun view taskId)
    (present : view.process id = some agent) (handles : agent.label.taskId? = some taskId) :
    ∃ phase index, agent.label.entry? = some index ∧ agent.control = .handling phase ∧
      EntryCourse view.world taskId index phase ∧ Opening taskId agent.log phase ∧
      HandlingCourse settings.retryMaxAttempts begun taskId view.world phase := by
  have local_course := course.agents id agent present (acts_of_taskId handles)
  obtain ⟨label, control, log, killed⟩ := agent
  cases label with
  | request => cases handles
  | handling cikMapping now index fields =>
    obtain ⟨phase, same, rest⟩ := local_course
    exact ⟨phase, index, rfl, same, rest⟩

theorem EntryCourse.hasEntry (course : EntryCourse world taskId index phase) : world.HasEntry taskId := by
  obtain ⟨own, present, named, _⟩ := course
  exact hasEntry_iff.mpr ⟨index, own, present, named⟩

/-- Nothing of a task without an entry is in anybody's hands. -/
theorem TaskCourse.of_entryless (fresh : ∀ id, uuid id = taskId → view.process id = none →
      Untouched view.world taskId) (unbegun : begun = 0)
    (agents : ∀ id agent, view.process id = some agent → Acts uuid id agent.label taskId →
      AgentCourse settings begun view.world taskId agent)
    (without : ¬ view.world.HasEntry taskId) : TaskCourse settings uuid begun view taskId := by
  have unnamed {index : ℕ} {entry : Entry} (present : view.world.stream[index]? = some entry)
      (named : fieldsTaskId entry.fields = some taskId) : False :=
    without (hasEntry_iff.mpr ⟨index, entry, present, named⟩)
  have unhandled {id : ℕ} {agent : Agent} (present : view.process id = some agent)
      (handles : agent.label.taskId? = some taskId) : False := by
    have local_course := agents id agent present (acts_of_taskId handles)
    obtain ⟨label, control, log, killed⟩ := agent
    cases label with
    | request => cases handles
    | handling cikMapping now index fields =>
      obtain ⟨_, _, entry, _⟩ := local_course
      exact without entry.hasEntry
  refine ⟨fresh, fun _ => unbegun, by omega, agents, ?_, fun has => absurd has without, ?_, ?_⟩
  · intro id id' agent agent' index present _ occupies
    exact (unhandled present occupies.1).elim
  · intro index entry present named
    exact (unnamed present named).elim
  · intro index entry present named
    exact (unnamed present named).elim

/-- What holds of the acting process and of every other one holds of all of them. -/
theorem agents_put (acting : Acts uuid id agent'.label taskId →
      AgentCourse settings begun world' taskId agent')
    (others : ∀ other agent, other ≠ id → view.process other = some agent →
      Acts uuid other agent.label taskId → AgentCourse settings begun world' taskId agent) :
    ∀ other agent, (view.put id agent' world').process other = some agent →
      Acts uuid other agent.label taskId → AgentCourse settings begun world' taskId agent := by
  intro other agent present acts
  rcases Config.put_cases present with ⟨rfl, rfl⟩ | ⟨same, present⟩
  · exact acting acts
  · exact others other agent same present acts

section Request

variable {ticket : Ticket} {phase phase' : RequestPhase} {reply : calls.Reply call}

/-- Until a request has published its task, every process that acts for the task is this request. -/
theorem TaskCourse.alone (course : TaskCourse settings uuid begun view (uuid id))
    (injective : ∀ id id', uuid id = uuid id' → id = id') (without : ¬ view.world.HasEntry (uuid id))
    {other : ℕ} (present : view.process other = some agent)
    (acts : Acts uuid other agent.label (uuid id)) : other = id := by
  have local_course := course.agents other agent present acts
  obtain ⟨label, control, log, killed⟩ := agent
  cases label with
  | request => exact injective _ _ acts
  | handling =>
    obtain ⟨_, _, entry, _⟩ := local_course
    exact absurd entry.hasEntry without

/-- A request that has begun, or has made a call that adds no entry. -/
theorem TaskCourse.request (course : TaskCourse settings uuid begun view (uuid id))
    (injective : ∀ id id', uuid id = uuid id' → id = id') (without : ¬ view.world.HasEntry (uuid id))
    (without' : ¬ world'.HasEntry (uuid id))
    (acting : AgentCourse settings begun world' (uuid id) agent') :
    TaskCourse settings uuid begun (view.put id agent' world') (uuid id) := by
  apply TaskCourse.of_entryless
  · intro other own absent
    exact absurd (injective _ _ own) (Config.put_none absent).1
  · exact course.unbegun without
  · apply agents_put
    · exact fun _ => acting
    · intro other agent differs present acts
      exact absurd (course.alone injective without present acts) differs
  · exact without'

/-- The entry a request adds has the work on its task. -/
theorem TaskCourse.published (course : TaskCourse settings uuid begun view (uuid id))
    (injective : ∀ id id', uuid id = uuid id' → id = id') (without : ¬ view.world.HasEntry (uuid id))
    (unhandling : agent'.label.taskId? = none) {task : ReportTask} (queued : task.state = .queued)
    (unspent : task.attempts = 0) (recorded : Recorded view.world (uuid id) task)
    (acting : AgentCourse settings begun (view.world.after (.xadd (uuid id))) (uuid id) agent') :
    TaskCourse settings uuid begun (view.put id agent' (view.world.after (.xadd (uuid id)))) (uuid id) := by
  have unhandled {other : ℕ} {agent : Agent} (present : (view.put id agent'
      (view.world.after (.xadd (uuid id)))).process other = some agent)
      (handles : agent.label.taskId? = some (uuid id)) : False := by
    rcases Config.put_cases present with ⟨rfl, rfl⟩ | ⟨same, present⟩
    · cases unhandling.symm.trans handles
    · exact same (course.alone injective without present (acts_of_taskId handles))
  have added {index : ℕ} {entry : Entry}
      (present : (view.world.after (.xadd (uuid id))).stream[index]? = some entry)
      (named : fieldsTaskId entry.fields = some (uuid id)) :
      index = view.world.stream.length ∧ entry = Entry.new (uuid id) := by
    rcases entry_of_after present with ⟨before, there, rfl⟩ | ⟨taskId, ⟨⟩, same, new⟩
    · exact absurd (hasEntry_iff.mpr ⟨index, _, there, named⟩) without
    · exact ⟨same, new⟩
  have only : ∀ holder, Charged (view.put id agent' (view.world.after (.xadd (uuid id)))) (uuid id)
      holder → holder = .entry view.world.stream.length := by
    intro holder charged
    cases holder with
    | agent other =>
      obtain ⟨agent, _, present, handles, _⟩ := charged
      exact (unhandled present handles).elim
    | entry index =>
      obtain ⟨⟨entry, present, named, _⟩, _⟩ := charged
      rw [(added present named).1]
  have begun_zero := course.unbegun without
  refine ⟨?_, ?_, course.bounded, ?_, ?_, ?_, ?_, ?_⟩
  · intro other own absent
    exact absurd (injective _ _ own) (Config.put_none absent).1
  · exact fun _ => begun_zero
  · apply agents_put
    · exact fun _ => acting
    · intro other agent differs present acts
      exact absurd (course.alone injective without present acts) differs
  · intro other other' agent agent'' index present _ occupies
    exact (unhandled present occupies.1).elim
  · intro _
    refine .inl ⟨.entry view.world.stream.length, ⟨⟨Entry.new (uuid id), ?_, rfl, nofun⟩, ?_⟩, only, ?_⟩
    · rw [Config.put_world, World.after_stream]
      exact List.getElem?_concat_length
    · intro other agent present occupies
      exact unhandled present occupies.1
    · intro index _
      refine ⟨task, ⟨recorded.own, recorded.stored, recorded.pointer⟩, queued, ?_⟩
      omega
  · intro index entry present named acked
    rw [(added present named).2] at acked
    cases acked
  · intro index entry present named deleted
    rw [(added present named).2] at deleted
    cases deleted

end Request

/-! ### The steps of a handling -/

/-- The entries of the task are the old ones, with the same marks, and perhaps a new one. -/
def Grown (taskId : TaskId) (world world' : World) : Prop :=
  ∀ (index : ℕ) (entry' : Entry), world'.stream[index]? = some entry' →
    fieldsTaskId entry'.fields = some taskId → entry' = Entry.new taskId ∨
      ∃ entry : Entry, world.stream[index]? = some entry ∧ fieldsTaskId entry.fields = some taskId ∧
        (entry'.status = .acked ↔ entry.status = .acked) ∧ entry'.deleted = entry.deleted

theorem grown_same (same : world'.stream = world.stream) : Grown taskId world world' := by
  intro index entry present named
  rw [same] at present
  exact .inr ⟨entry, present, named, Iff.rfl, rfl⟩

theorem grown_xadd : Grown taskId world (world.after (.xadd taskId)) := by
  intro index entry present named
  rcases entry_of_after present with ⟨before, there, same⟩ | ⟨_, ⟨⟩, _, new⟩
  · subst same
    exact .inr ⟨_, there, named, Iff.rfl, rfl⟩
  · exact .inl new

theorem delivered_entry {position : ℕ} {entry' : Entry}
    (present : (world.stream.modify position Entry.deliver)[index]? = some entry') :
    ∃ entry, world.stream[index]? = some entry ∧
      entry' = if position = index then entry.deliver else entry := by
  rw [List.getElem?_modify, Option.map_eq_map, Option.map_eq_some_iff] at present
  obtain ⟨entry, there, same⟩ := present
  exact ⟨entry, there, same.symm⟩

theorem grown_deliver {position : ℕ} : Grown taskId world
    { world with stream := world.stream.modify position Entry.deliver } := by
  intro index entry' present named
  obtain ⟨entry, there, rfl⟩ := delivered_entry present
  split_ifs at named ⊢
  · rw [deliver_fields] at named
    refine .inr ⟨entry, there, named, deliver_status entry, ?_⟩
    unfold Entry.deliver
    split <;> rfl
  · exact .inr ⟨entry, there, named, Iff.rfl, rfl⟩

theorem EntryCourse.deliver {position : ℕ} (course : EntryCourse world taskId index phase) :
    EntryCourse { world with stream := world.stream.modify position Entry.deliver } taskId index phase := by
  obtain ⟨own, present, named, pending, acked⟩ := course
  have there : (world.stream.modify position Entry.deliver)[index]? =
      some (if position = index then own.deliver else own) := by
    simp only [List.getElem?_modify, present, Option.map_eq_map, Option.map_some]
  refine ⟨_, there, ?_, ?_, ?_⟩
  · split_ifs
    · rw [deliver_fields]
      exact named
    · exact named
  · intro holds
    split_ifs
    · simp only [Entry.deliver, pending holds, reduceCtorEq, ↓reduceIte]
    · exact pending holds
  · intro same
    split_ifs
    · exact (deliver_status own).mpr (acked same)
    · exact acked same

/-- A handling whose entry may be acknowledged says nothing about its task. -/
theorem HandlingCourse.idle {limit : ℕ} (idle : ¬ Owes phase) :
    HandlingCourse limit begun taskId world phase := by
  cases phase with
  | finished => trivial
  | acked => trivial
  | stopped => trivial
  | _ => simp [Owes] at idle

/-- A process keeps its course when its entry and the task stay as its phase needs them. -/
theorem AgentCourse.transport {begun' : ℕ} (course : AgentCourse settings begun world taskId agent)
    (has : world.HasEntry taskId)
    (entries : ∀ index phase, agent.label.entry? = some index → agent.control = .handling phase →
      EntryCourse world taskId index phase → EntryCourse world' taskId index phase)
    (handlings : ∀ phase, agent.control = .handling phase →
      HandlingCourse settings.retryMaxAttempts begun taskId world phase →
      HandlingCourse settings.retryMaxAttempts begun' taskId world' phase) :
    AgentCourse settings begun' world' taskId agent := by
  obtain ⟨label, control, log, killed⟩ := agent
  cases label with
  | request =>
    obtain ⟨phase, same, course⟩ := course
    refine ⟨phase, same, ?_⟩
    intro identity identified
    rcases (course identity identified).entryless with ⟨answer, rfl⟩ | without
    · trivial
    · exact absurd has without
  | handling =>
    obtain ⟨phase, same, entry, opening, course⟩ := course
    exact ⟨phase, same, entries _ phase rfl same entry, opening, handlings phase same course⟩

/-- Whoever has the work on a task is the only one. -/
theorem TaskCourse.holder {holder : Holder} (course : TaskCourse settings uuid begun view taskId)
    (has : view.world.HasEntry taskId) (charged : Charged view taskId holder) :
    (∀ other, Charged view taskId other → other = holder) ∧
      ∀ index, holder = .entry index → Queueing settings.retryMaxAttempts begun view.world taskId := by
  rcases course.custody has with ⟨holder', _, only, queueing⟩ | ⟨nobody, _⟩
  · obtain rfl := only holder charged
    exact ⟨only, queueing⟩
  · exact absurd charged (nobody holder)

/-- What the step of one handling has to re-establish for its task. -/
theorem TaskCourse.put {begun' : ℕ} (course : TaskCourse settings uuid begun view taskId)
    (has : view.world.HasEntry taskId) (has' : world'.HasEntry taskId)
    (bounded : begun' ≤ max 1 settings.retryMaxAttempts)
    (acting : AgentCourse settings begun' world' taskId agent')
    (others : ∀ other agent, other ≠ id → view.process other = some agent →
      Acts uuid other agent.label taskId → AgentCourse settings begun' world' taskId agent)
    (apart : ∀ other agent index, other ≠ id → view.process other = some agent →
      Occupies agent taskId index → ¬ Occupies agent' taskId index)
    (custody : Custody settings.retryMaxAttempts begun' (view.put id agent' world') taskId)
    (removed : ∀ (index : ℕ) (entry : Entry), world'.stream[index]? = some entry →
      fieldsTaskId entry.fields = some taskId → entry.status = .acked → entry.deleted = false →
      ∃ other agent, (view.put id agent' world').process other = some agent ∧
        agent.label.taskId? = some taskId ∧ agent.label.entry? = some index ∧
        agent.control = .handling .acked)
    (kept : ∀ (index : ℕ) (entry : Entry), world'.stream[index]? = some entry →
      fieldsTaskId entry.fields = some taskId → entry.deleted = true → entry.status = .acked) :
    TaskCourse settings uuid begun' (view.put id agent' world') taskId := by
  refine ⟨?_, fun without => absurd has' without, bounded, agents_put (fun _ => acting) others, ?_,
    fun _ => custody, removed, kept⟩
  · intro other own absent
    exact absurd has (course.fresh other own (Config.put_none absent).2).entries
  · intro other other' agent agent'' index present present' occupies occupies'
    rcases Config.put_cases present with ⟨rfl, rfl⟩ | ⟨same, known⟩
    · by_contra differs
      rw [Config.put_of_ne (Ne.symm differs)] at present'
      exact apart other' agent'' index (Ne.symm differs) present' occupies' occupies
    · rcases Config.put_cases present' with ⟨rfl, rfl⟩ | ⟨_, known'⟩
      · exact absurd occupies' (apart other agent index same known occupies)
      · exact course.sole other other' agent agent'' index known known' occupies occupies'

/-- While no entry is acknowledged and no acknowledging handling moves, deletions stay due. -/
theorem TaskCourse.removed_grown (course : TaskCourse settings uuid begun view taskId)
    (grown : Grown taskId view.world world')
    (moves : ∀ agent, view.process id = some agent → agent.control ≠ .handling .acked) :
    ∀ (index : ℕ) (entry : Entry), world'.stream[index]? = some entry →
      fieldsTaskId entry.fields = some taskId → entry.status = .acked → entry.deleted = false →
      ∃ other agent, (view.put id agent' world').process other = some agent ∧
        agent.label.taskId? = some taskId ∧ agent.label.entry? = some index ∧
        agent.control = .handling .acked := by
  intro index entry present named acked undeleted
  rcases grown index entry present named with rfl | ⟨before, there, named', same, mark⟩
  · cases acked
  · rw [mark] at undeleted
    obtain ⟨other, agent, found, rest⟩ :=
      course.removed index before there named' (same.mp acked) undeleted
    refine ⟨other, agent, ?_, rest⟩
    rw [Config.put_of_ne]
    · exact found
    · rintro rfl
      exact moves agent found rest.2.2

theorem TaskCourse.kept_grown (course : TaskCourse settings uuid begun view taskId)
    (grown : Grown taskId view.world world') :
    ∀ (index : ℕ) (entry : Entry), world'.stream[index]? = some entry →
      fieldsTaskId entry.fields = some taskId → entry.deleted = true → entry.status = .acked := by
  intro index entry present named deleted
  rcases grown index entry present named with rfl | ⟨before, there, named', same, mark⟩
  · cases deleted
  · rw [mark] at deleted
    exact same.mpr (course.kept index before there named' deleted)

section Handling

variable {own : Entry} {phase' : HandlingPhase}

/-- Who is at work on a task handles it. -/
theorem AgentCourse.handles (course : AgentCourse settings begun world taskId agent)
    (acts : Acts uuid id agent.label taskId) (control : agent.control = .handling phase) :
    agent.label.taskId? = some taskId := by
  obtain ⟨label, agent_control, log, killed⟩ := agent
  cases label with
  | request =>
    obtain ⟨_, same, _⟩ := course
    cases control.symm.trans same
  | handling => exact acts

/-- While one holder has the work, no other handling owes anything. -/
theorem idle_of_single {holder : Holder} (single : ∀ other, Charged view taskId other → other = holder)
    {other : ℕ} (differs : .agent other ≠ holder) (found : view.process other = some agent)
    (handles : agent.label.taskId? = some taskId) (control : agent.control = .handling phase) : ¬ Owes phase :=
  fun owes => differs (single (.agent other) ⟨agent, phase, found, handles, control, owes⟩)

theorem not_final_of_live (control : agent.control = .handling phase) (live : phase ≠ .stopped) :
    ¬ agent.control.Final := by
  rw [control]
  rintro (⟨_, ⟨⟩⟩ | ⟨⟨⟩⟩)
  exact live rfl

/-- A handling that begins takes the work over from its entry. -/
theorem TaskCourse.take {cikMapping : CikMapping} {now : String}
    (course : TaskCourse settings uuid begun view taskId) (absent : view.process id = none)
    (present : view.world.stream[index]? = some own) (named : fieldsTaskId own.fields = some taskId)
    (status : own.status ≠ .acked)
    (free : ∀ other agent, view.process other = some agent → ¬ Occupies agent taskId index) :
    TaskCourse settings uuid (begun + 1)
      (view.put id ⟨.handling cikMapping now index own.fields, .handling .fresh, [], false⟩
        { view.world with stream := view.world.stream.modify index Entry.deliver }) taskId := by
  have waits : Charged view taskId (.entry index) := ⟨⟨own, present, named, status⟩, free⟩
  have has : view.world.HasEntry taskId := hasEntry_iff.mpr ⟨index, own, present, named⟩
  obtain ⟨single, queues⟩ := course.holder has waits
  obtain ⟨task, recorded, queued, count, left⟩ := queues index rfl
  have grown : Grown taskId view.world
      { view.world with stream := view.world.stream.modify index Entry.deliver } := grown_deliver
  have older {other : ℕ} {agent : Agent} (found : view.process other = some agent) : other ≠ id := by
    rintro rfl
    cases absent.symm.trans found
  have delivered : (view.world.stream.modify index Entry.deliver)[index]? = some own.deliver := by
    simp only [List.getElem?_modify, present, ↓reduceIte, Option.map_eq_map, Option.map_some]
  have pending : own.deliver.status = .pending := by
    unfold Entry.deliver
    cases same : own.status with
    | acked => exact absurd same status
    | waiting => rfl
    | pending => exact same
  have only : ∀ holder, Charged (view.put id
      ⟨.handling cikMapping now index own.fields, .handling .fresh, [], false⟩
      { view.world with stream := view.world.stream.modify index Entry.deliver }) taskId holder →
      holder = .agent id := by
    intro holder charged
    cases holder with
    | agent other =>
      obtain ⟨agent, phase, found, handles, same, owes⟩ := charged
      by_cases acting : other = id
      · rw [acting]
      · rw [Config.put_of_ne acting] at found
        exact absurd owes (idle_of_single single nofun found handles same)
    | entry position =>
      obtain ⟨unacked, unoccupied⟩ := charged
      have before : Charged view taskId (.entry position) := by
        refine ⟨unacked.of_deliver, ?_⟩
        intro other agent found
        apply unoccupied other agent
        rw [Config.put_of_ne (older found)]
        exact found
      cases single _ before
      refine absurd ⟨named, rfl, ?_⟩ (unoccupied id _ Config.put_self)
      rintro (⟨_, ⟨⟩⟩ | ⟨⟨⟩⟩)
  apply course.put has
  · exact hasEntry_iff.mpr ⟨index, own.deliver, delivered, by rw [deliver_fields, named]⟩
  · omega
  · refine ⟨.fresh, rfl, ⟨own.deliver, delivered, ?_, fun _ => pending, nofun⟩, .inl ⟨rfl, rfl⟩, ?_⟩
    · rw [deliver_fields]
      exact named
    · exact ⟨task, ⟨recorded.own, recorded.stored, recorded.pointer⟩, queued, by omega⟩
  · intro other agent differs found acts
    apply (course.agents other agent found acts).transport has
    · intro position phase _ _ entry
      exact entry.deliver
    · intro phase same _
      have handles := (course.agents other agent found acts).handles acts same
      exact HandlingCourse.idle (idle_of_single single nofun found handles same)
  · intro other agent position _ found occupies occupies'
    cases occupies'.2.1
    exact free other agent found occupies
  · exact .inl ⟨.agent id, ⟨_, .fresh, Config.put_self, named, rfl, nofun, nofun, nofun⟩, only, nofun⟩
  · apply course.removed_grown grown
    intro agent found
    exact absurd rfl (older found)
  · exact course.kept_grown grown

theorem AgentCourse.of_handling (handles : agent.label.taskId? = some taskId)
    (hands : agent.label.entry? = some index) (control : agent.control = .handling phase)
    (entry : EntryCourse world taskId index phase) (opening : Opening taskId agent.log phase)
    (course : HandlingCourse settings.retryMaxAttempts begun taskId world phase) :
    AgentCourse settings begun world taskId agent := by
  obtain ⟨label, agent_control, log, killed⟩ := agent
  cases label with
  | request => cases handles
  | handling =>
    cases hands
    exact ⟨phase, control, entry, opening, course⟩

/-- A step of a handling at work changes no entry and adds at most one. -/
theorem Advance.grows {limit : ℕ} (advance : Advance limit begun taskId world world' call phase) :
    world'.stream = world.stream ∨ world' = world.after (.xadd taskId) := by
  cases advance with
  | onward owes course stream => exact .inl stream
  | retired retired stream => exact .inl stream
  | left queueing stream => exact .inl stream
  | requeued queueing added effect =>
    rw [added] at effect
    exact .inr effect

theorem EntryCourse.grown (course : EntryCourse world taskId index phase)
    (grows : world'.stream = world.stream ∨ world' = world.after (.xadd taskId)) :
    EntryCourse world' taskId index phase := by
  rcases grows with same | rfl
  · unfold EntryCourse
    rw [same]
    exact course
  · apply course.after
    exact .inr nofun

/-! ### The steps of a handling under way -/

section UnderWay

variable (course : TaskCourse settings uuid begun view taskId) (present : view.process id = some agent)
  (handles : agent.label.taskId? = some taskId) (hands : agent.label.entry? = some index)

include course present handles hands

theorem TaskCourse.entry_in_hand (control : agent.control = .handling phase) :
    EntryCourse view.world taskId index phase := by
  obtain ⟨_, _, hands', same, entry, _⟩ := course.handled present handles
  cases hands.symm.trans hands'
  cases control.symm.trans same
  exact entry

/-- Nobody else occupies what a handling under way occupies, before its step and after it. -/
theorem TaskCourse.unshared (live : ¬ agent.control.Final) (label : agent'.label = agent.label) {other position : ℕ}
    {agent'' : Agent} (differs : other ≠ id) (found : view.process other = some agent'')
    (held : Occupies agent'' taskId position) : ¬ Occupies agent' taskId position := by
  intro held'
  rw [Occupies, label] at held'
  cases hands.symm.trans held'.2.1
  exact differs (course.sole other id agent'' agent index found present held ⟨handles, hands, live⟩)

section Work

variable (control : agent.control = .handling phase) (owes : Owes phase) (label : agent'.label = agent.label)
  (control' : agent'.control = .handling phase')

include control owes label control'

/-- What may have the work once a handling that has it made a step: the handling itself, its entry, or a
new one. -/
theorem TaskCourse.next_holder : ∀ holder, Charged (view.put id agent' world') taskId holder →
    (holder = .agent id ∧ Owes phase') ∨ ∃ position, holder = .entry position ∧
      UnackedAt world' taskId position ∧
      ((position = index ∧ phase' = .stopped) ∨ ¬ UnackedAt view.world taskId position) := by
  have has := (course.entry_in_hand present handles hands control).hasEntry
  have works : Charged view taskId (.agent id) := ⟨agent, phase, present, handles, control, owes⟩
  obtain ⟨single, _⟩ := course.holder has works
  intro holder charged
  cases holder with
  | agent other =>
    obtain ⟨agent'', phase'', found, handles'', same, owes''⟩ := charged
    rcases Config.put_cases found with ⟨rfl, rfl⟩ | ⟨acting, found⟩
    · cases control'.symm.trans same
      exact .inl ⟨rfl, owes''⟩
    · refine absurd owes'' (idle_of_single single ?_ found handles'' same)
      rintro ⟨⟩
      exact acting rfl
  | entry position =>
    obtain ⟨unacked, unoccupied⟩ := charged
    refine .inr ⟨position, rfl, unacked, ?_⟩
    by_cases older : UnackedAt view.world taskId position
    · left
      -- The entry was in somebody's hands, and only the actor can have let it go.
      have occupied : ∃ other agent, view.process other = some agent ∧ Occupies agent taskId position := by
        by_contra none
        cases single (.entry position)
          ⟨older, fun other agent found held => none ⟨other, agent, found, held⟩⟩
      obtain ⟨other, agent'', found, held⟩ := occupied
      by_cases acting : other = id
      · subst acting
        cases present.symm.trans found
        cases hands.symm.trans held.2.1
        refine ⟨rfl, ?_⟩
        by_contra live
        exact unoccupied other agent' Config.put_self
          ⟨label ▸ handles, label ▸ hands, not_final_of_live control' live⟩
      · refine absurd held (unoccupied other agent'' ?_)
        rw [Config.put_of_ne acting]
        exact found
    · exact .inr older

/-- The work stays with the handling, is done, or goes to an entry. -/
theorem TaskCourse.handed_on (advance : Advance settings.retryMaxAttempts begun taskId view.world world' call phase') :
    phase' ≠ .acked ∧ HandlingCourse settings.retryMaxAttempts begun taskId world' phase' ∧
      Custody settings.retryMaxAttempts begun (view.put id agent' world') taskId := by
  have entry := course.entry_in_hand present handles hands control
  have entry' := entry.grown advance.grows
  have live : ¬ agent.control.Final := not_final_of_live control owes.2.2
  have holders (holder : Holder) (charged : Charged (view.put id agent' world') taskId holder) :=
    course.next_holder present handles hands control owes label control' holder charged
  have unadded (stream : world'.stream = view.world.stream) {position : ℕ}
      (unacked : UnackedAt world' taskId position) : UnackedAt view.world taskId position :=
    unacked.same stream
  cases advance with
  | onward owes' course' stream =>
    refine ⟨owes'.2.1, course', .inl ⟨.agent id, ?_, ?_, nofun⟩⟩
    · exact ⟨agent', phase', Config.put_self, label ▸ handles, control', owes'⟩
    · intro holder charged
      rcases holders holder charged with ⟨same, _⟩ | ⟨position, _, unacked, ⟨_, rfl⟩ | new⟩
      · exact same
      · exact absurd rfl owes'.2.2
      · exact absurd (unadded stream unacked) new
  | retired retired stream =>
    refine ⟨nofun, trivial, .inr ⟨?_, retired⟩⟩
    intro holder charged
    rcases holders holder charged with ⟨_, owes'⟩ | ⟨position, _, unacked, ⟨_, ⟨⟩⟩ | new⟩
    · exact owes'.1 rfl
    · exact new (unadded stream unacked)
  | left queueing stream =>
    refine ⟨nofun, trivial, .inl ⟨.entry index, ⟨?_, ?_⟩, ?_, fun _ _ => queueing⟩⟩
    · obtain ⟨own, there, named, pending, _⟩ := entry'
      refine ⟨own, there, named, ?_⟩
      rw [pending (.inl owes)]
      exact nofun
    · intro other agent'' found held
      rcases Config.put_cases found with ⟨rfl, rfl⟩ | ⟨acting, found⟩
      · exact held.2.2 (.inr control')
      · exact course.unshared present handles hands live rfl acting found held ⟨handles, hands, live⟩
    · intro holder charged
      rcases holders holder charged with ⟨_, owes'⟩ | ⟨position, same, unacked, ⟨rfl, _⟩ | new⟩
      · exact absurd rfl owes'.2.2
      · exact same
      · exact absurd (unadded stream unacked) new
  | requeued queueing added effect =>
    rw [added] at effect
    have newest : ∀ position, UnackedAt world' taskId position →
        ¬ UnackedAt view.world taskId position → position = view.world.stream.length := by
      intro position unacked new
      rw [effect] at unacked
      rcases unacked.of_after with before | ⟨_, last⟩
      · exact absurd before new
      · exact last
    refine ⟨nofun, trivial, .inl ⟨.entry view.world.stream.length, ⟨?_, ?_⟩, ?_, fun _ _ => queueing⟩⟩
    · refine ⟨Entry.new taskId, ?_, rfl, nofun⟩
      rw [Config.put_world, effect, World.after_stream]
      exact List.getElem?_concat_length
    · intro other agent'' found held
      -- Whoever occupies an entry found it in the stream before.
      have inside : ∃ other agent, view.process other = some agent ∧ agent.label.taskId? = some taskId ∧
          agent.label.entry? = some view.world.stream.length := by
        rcases Config.put_cases found with ⟨rfl, rfl⟩ | ⟨acting, found⟩
        · exact ⟨other, agent, present, handles, label ▸ held.2.1⟩
        · exact ⟨other, agent'', found, held.1, held.2.1⟩
      obtain ⟨other, agent'', found, handles'', hands''⟩ := inside
      obtain ⟨_, _, same, _, ⟨own, there, _⟩, _⟩ := course.handled found handles''
      cases hands''.symm.trans same
      have below := (List.getElem?_eq_some_iff.mp there).1
      omega
    · intro holder charged
      rcases holders holder charged with ⟨_, owes'⟩ | ⟨position, same, unacked, ⟨_, ⟨⟩⟩ | new⟩
      · exact absurd rfl owes'.1
      · rw [same, newest position unacked new]

/-- The step of a handling that has the work on its task: it keeps it, ends it, or leaves it to an
entry. -/
theorem TaskCourse.work (opening : Opening taskId agent'.log phase')
    (advance : Advance settings.retryMaxAttempts begun taskId view.world world' call phase') :
    TaskCourse settings uuid begun (view.put id agent' world') taskId := by
  have entry := course.entry_in_hand present handles hands control
  have has := entry.hasEntry
  have live : ¬ agent.control.Final := not_final_of_live control owes.2.2
  have works : Charged view taskId (.agent id) := ⟨agent, phase, present, handles, control, owes⟩
  obtain ⟨single, _⟩ := course.holder has works
  have grows := advance.grows
  have entry' := entry.grown grows
  have grown : Grown taskId view.world world' := by
    rcases grows with same | rfl
    · exact grown_same same
    · exact grown_xadd
  have moves : ∀ agent, view.process id = some agent → agent.control ≠ .handling .acked := by
    intro agent found same
    cases present.symm.trans found
    cases control.symm.trans same
    exact owes.2.1 rfl
  obtain ⟨unacked, course', custody⟩ :=
    course.handed_on present handles hands control owes label control' advance
  apply course.put has entry'.hasEntry course.bounded
  · apply AgentCourse.of_handling (label ▸ handles) (label ▸ hands) control' _ opening course'
    obtain ⟨own, there, named, pending, _⟩ := entry'
    exact ⟨own, there, named, fun _ => pending (.inl owes), fun same => absurd same unacked⟩
  · intro other agent'' differs found acts
    apply (course.agents other agent'' found acts).transport has
    · intro position phase _ _ entry
      exact entry.grown grows
    · intro phase same _
      have handles'' := (course.agents other agent'' found acts).handles acts same
      refine HandlingCourse.idle (idle_of_single single ?_ found handles'' same)
      rintro ⟨⟩
      exact differs rfl
  · intro other agent'' position differs found held
    exact course.unshared present handles hands live label differs found held
  · exact custody
  · exact course.removed_grown grown moves
  · exact course.kept_grown grown

end Work

end UnderWay

theorem UnackedAt.after_other {position : ℕ} (unacked : UnackedAt world taskId index)
    (other : position ≠ index) (touches : call = .xack position ∨ call = .xdel position) :
    UnackedAt (world.after call) taskId index := by
  obtain ⟨entry, present, named, status⟩ := unacked
  refine ⟨touch call index entry, after_entry present, by rw [touch_fields, named], ?_⟩
  rcases touches with rfl | rfl <;> simp only [touch, other, ↓reduceIte] <;> exact status

section Dismissal

variable (course : TaskCourse settings uuid begun view taskId) (present : view.process id = some agent)
  (handles : agent.label.taskId? = some taskId) (hands : agent.label.entry? = some index)
  (control : agent.control = .handling phase) (label : agent'.label = agent.label)
  (control' : agent'.control = .handling phase')
  (step : phase = .finished ∧ call = .xack index ∧ phase' = .acked ∨
    phase = .acked ∧ call = .xdel index ∧ phase' = .stopped)

include step

theorem touches_of_dismissal : call = .xack index ∨ call = .xdel index := by
  rcases step with ⟨_, same, _⟩ | ⟨_, same, _⟩
  · exact .inl same
  · exact .inr same

theorem idle_of_dismissal : ¬ Owes phase ∧ ¬ Owes phase' := by
  rcases step with ⟨rfl, _, rfl⟩ | ⟨rfl, _, rfl⟩
  · exact ⟨fun owes => owes.1 rfl, fun owes => owes.2.1 rfl⟩
  · exact ⟨fun owes => owes.2.1 rfl, fun owes => owes.2.2 rfl⟩

include course present handles hands control label control'

/-- The work stays where it is: the handling has none, and its entry is in hand before, and acknowledged or
in hand after. -/
theorem TaskCourse.same_holder (holder : Holder) :
    Charged (view.put id agent' (view.world.after call)) taskId holder ↔ Charged view taskId holder := by
  obtain ⟨own, there, named, pending, acked⟩ := course.entry_in_hand present handles hands control
  have idle := idle_of_dismissal step
  have touches := touches_of_dismissal step
  have live : phase ≠ .stopped := by
    rcases step with ⟨rfl, _⟩ | ⟨rfl, _⟩ <;> nofun
  have spent : UnackedAt (view.world.after call) taskId index → Occupies agent' taskId index := by
    rintro ⟨entry', found, _, status⟩
    rw [after_entry there, Option.some.injEq] at found
    rcases step with ⟨rfl, rfl, rfl⟩ | ⟨rfl, rfl, rfl⟩
    · exact ⟨label ▸ handles, label ▸ hands, not_final_of_live control' nofun⟩
    · rw [← found] at status
      exact absurd (touch_acked (acked rfl)) status
  have elsewhere {other : ℕ} (differs : other ≠ id) :
      (view.put id agent' (view.world.after call)).process other = view.process other :=
    Config.put_of_ne differs
  cases holder with
  | agent other =>
    by_cases acting : other = id
    · subst acting
      constructor
      · rintro ⟨agent'', phase'', found, _, same, owes⟩
        cases Config.put_self.symm.trans found
        cases control'.symm.trans same
        exact absurd owes idle.2
      · rintro ⟨agent'', phase'', found, _, same, owes⟩
        cases present.symm.trans found
        cases control.symm.trans same
        exact absurd owes idle.1
    · simp only [Charged, elsewhere acting]
  | entry position =>
    constructor
    · rintro ⟨unacked, unoccupied⟩
      have apart : index ≠ position := by
        rintro rfl
        exact unoccupied id agent' Config.put_self (spent unacked)
      constructor
      · rcases unacked.of_after with before | ⟨rfl, _⟩
        · exact before
        · rcases touches with same | same <;> cases same
      · intro other agent'' found held
        by_cases acting : other = id
        · subst acting
          cases present.symm.trans found
          exact apart (Option.some.inj (hands.symm.trans held.2.1))
        · refine unoccupied other agent'' ?_ held
          rw [elsewhere acting]
          exact found
    · rintro ⟨unacked, unoccupied⟩
      have apart : index ≠ position := by
        rintro rfl
        exact unoccupied id agent present ⟨handles, hands, not_final_of_live control live⟩
      refine ⟨unacked.after_other apart touches, ?_⟩
      intro other agent'' found held
      by_cases acting : other = id
      · subst acting
        cases Config.put_self.symm.trans found
        rw [Occupies, label] at held
        exact apart (Option.some.inj (hands.symm.trans held.2.1))
      · rw [elsewhere acting] at found
        exact unoccupied other agent'' found held

/-- A handling acknowledges its entry or removes it: nobody's work changes hands. -/
theorem TaskCourse.dismiss (opening : Opening taskId agent'.log phase') :
    TaskCourse settings uuid begun (view.put id agent' (view.world.after call)) taskId := by
  have entry := course.entry_in_hand present handles hands control
  have has := entry.hasEntry
  obtain ⟨own, there, named, pending, acked⟩ := entry
  have idle := idle_of_dismissal step
  have touches := touches_of_dismissal step
  have live : phase ≠ .stopped := by
    rcases step with ⟨rfl, _⟩ | ⟨rfl, _⟩ <;> nofun
  have spares : Spares taskId view.world (view.world.after call) := by
    rcases touches with rfl | rfl <;> exact spares_same rfl rfl
  have charged := course.same_holder present handles hands control label control' step
  apply course.put has
  · exact hasEntry_after has call
  · exact course.bounded
  · apply AgentCourse.of_handling (label ▸ handles) (label ▸ hands) control' _ opening (HandlingCourse.idle idle.2)
    refine ⟨touch call index own, after_entry there, by rw [touch_fields, named], ?_, ?_⟩
    · rcases step with ⟨_, _, rfl⟩ | ⟨_, _, rfl⟩
      · rintro (owes | ⟨⟨⟩⟩)
        exact absurd owes idle.2
      · rintro (owes | ⟨⟨⟩⟩)
        exact absurd owes idle.2
    · rcases step with ⟨rfl, rfl, _⟩ | ⟨_, _, rfl⟩
      · intro _
        simp only [touch, ↓reduceIte, Entry.ack, pending (.inr rfl)]
      · rintro ⟨⟩
  · intro other agent'' differs found acts
    apply (course.agents other agent'' found acts).transport has
    · intro position phase'' hands'' same entry
      apply entry.after
      by_cases own_entry : position = index
      · left
        by_contra moving
        subst own_entry
        have handles'' := (course.agents other agent'' found acts).handles acts same
        exact differs (course.sole other id agent'' agent position found present
          ⟨handles'', hands'', not_final_of_live same moving⟩ ⟨handles, hands, not_final_of_live control live⟩)
      · right
        rintro rfl
        rcases touches with same | same
        · exact own_entry (Call.xack.inj same)
        · cases same
    · intro phase'' _ course'
      exact course'.spared spares
  · intro other agent'' position differs found held
    exact course.unshared present handles hands (not_final_of_live control live) label differs found held
  · exact (course.custody has).congr charged (fun queueing => queueing.spared spares)
      (fun retired => retired.spared spares)
  · intro position entry' found named' status undeleted
    rcases entry_of_after found with ⟨before, old, rfl⟩ | ⟨_, rfl, _⟩
    · by_cases own_entry : position = index
      · subst own_entry
        rcases step with ⟨_, _, rfl⟩ | ⟨_, rfl, _⟩
        · exact ⟨id, agent', Config.put_self, label ▸ handles, label ▸ hands, control'⟩
        · simp only [touch, ↓reduceIte, Entry.delete, reduceCtorEq] at undeleted
      · have same : touch call position before = before := by
          rcases touches with rfl | rfl <;> simp only [touch, Ne.symm own_entry, ↓reduceIte]
        rw [same] at named' status undeleted
        obtain ⟨other, agent'', found', handles'', hands'', rest⟩ :=
          course.removed position before old named' status undeleted
        refine ⟨other, agent'', ?_, handles'', hands'', rest⟩
        rw [Config.put_of_ne]
        · exact found'
        · rintro rfl
          cases present.symm.trans found'
          exact own_entry (Option.some.inj (hands''.symm.trans hands))
    · rcases touches with same | same <;> cases same
  · intro position entry' found named' deleted
    rcases entry_of_after found with ⟨before, old, rfl⟩ | ⟨_, rfl, _⟩
    · rw [touch_fields] at named'
      apply touch_acked
      by_cases removed : before.deleted = true
      · exact course.kept position before old named' removed
      · rcases step with ⟨_, rfl, _⟩ | ⟨rfl, rfl, _⟩
        · refine absurd ?_ removed
          simp only [touch, Entry.ack] at deleted
          split_ifs at deleted <;> exact deleted
        · by_cases own_entry : index = position
          · subst own_entry
            cases there.symm.trans old
            exact acked rfl
          · simp only [touch, own_entry, ↓reduceIte] at deleted
            exact absurd deleted removed
    · rcases touches with same | same <;> cases same

end Dismissal

end Handling

end Courses

/-! ### Runs -/

/-- The event hands a message of the task to a worker. -/
def begins (taskId : TaskId) : ServiceEvent → Bool
  | .start _ activity => activity.taskId? = some taskId
  | _ => false

/-- How often a message of the task has been handed to a worker. -/
def handlings (taskId : TaskId) (events : List ServiceEvent) : ℕ := events.countP (begins taskId)

structure DeliveryInvariant (settings : Settings) (uuid : ℕ → TaskId) (begun : TaskId → ℕ)
    (view : ServiceView) : Prop where
  alive : ∀ id agent, view.process id = some agent → agent.killed = false
  named : ∀ entry ∈ view.world.stream, ∃ taskId, fieldsTaskId entry.fields = some taskId ∧ taskId ≠ ""
  labels : ∀ id agent, view.process id = some agent →
    ∃ taskId, Acts uuid id agent.label taskId ∧ taskId ≠ ""
  courses : ∀ taskId, TaskCourse settings uuid (begun taskId) view taskId

section Run

variable {settings : Settings} {uuid : ℕ → TaskId} {begun : TaskId → ℕ} {view : ServiceView} {id : ℕ}
  {agent agent' : Agent} {call : Call} {reply : calls.Reply call} {world' : World} {taskId : TaskId}

/-- What one process changes: its own task and, if its messages are named, nothing else. -/
theorem DeliveryInvariant.put {begun' : TaskId → ℕ} (invariant : DeliveryInvariant settings uuid begun view)
    (acts : Acts uuid id agent'.label taskId) (nonempty : taskId ≠ "") (alive : agent'.killed = false)
    (before : ∀ agent, view.process id = some agent → agent.label = agent'.label)
    (confined : Confined taskId view.world world')
    (fields : ∀ (index : ℕ) (entry : Entry), world'.stream[index]? = some entry →
      (∃ old : Entry, view.world.stream[index]? = some old ∧ entry.fields = old.fields) ∨
        fieldsTaskId entry.fields = some taskId)
    (own : TaskCourse settings uuid (begun' taskId) (view.put id agent' world') taskId)
    (others : ∀ other, other ≠ taskId → begun' other = begun other) :
    DeliveryInvariant settings uuid begun' (view.put id agent' world') := by
  constructor
  · intro other agent present
    rcases Config.put_cases present with ⟨rfl, rfl⟩ | ⟨same, present⟩
    · exact alive
    · exact invariant.alive other agent present
  · intro entry member
    obtain ⟨index, present⟩ := List.mem_iff_getElem?.mp member
    rcases fields index entry present with ⟨old, there, same⟩ | named
    · rw [same]
      exact invariant.named old (List.mem_of_getElem? there)
    · exact ⟨taskId, named, nonempty⟩
  · intro other agent present
    rcases Config.put_cases present with ⟨rfl, rfl⟩ | ⟨same, present⟩
    · exact ⟨taskId, acts, nonempty⟩
    · exact invariant.labels other agent present
  · intro other
    by_cases same : other = taskId
    · subst same
      exact own
    · rw [others other same]
      exact (invariant.courses other).confined confined same acts before

theorem DeliveryInvariant.start (invariant : DeliveryInvariant settings uuid begun view)
    (injective : ∀ id id', uuid id = uuid id' → id = id') (nonempty : ∀ id, uuid id ≠ "")
    {label : Activity} (absent : view.process id = none) (starts : Service.start view.world label world')
    (free : ∀ index, label.entry? = some index → ∀ other agent taskId,
      view.process other = some agent → ¬ Occupies agent taskId index) :
    DeliveryInvariant settings uuid
      (fun taskId => begun taskId + if label.taskId? = some taskId then 1 else 0)
      (view.put id ⟨label, Phase.initial label, [], false⟩ world') := by
  have before {label : Activity} : ∀ agent, view.process id = some agent → agent.label = label := by
    intro agent present
    cases absent.symm.trans present
  cases label with
  | request cikMapping payload =>
    obtain rfl : world' = view.world := starts
    have untouched := (invariant.courses (uuid id)).fresh id rfl absent
    apply invariant.put
    · exact (rfl : uuid id = uuid id)
    · exact nonempty id
    · rfl
    · exact before
    · exact .refl _ _
    · intro index entry present
      exact .inl ⟨entry, present, rfl⟩
    · apply (invariant.courses (uuid id)).request injective untouched.entries untouched.entries
      refine ⟨_, rfl, ?_⟩
      intro identity identified
      rw [identified]
      exact untouched
    · exact fun _ _ => rfl
  | handling cikMapping now index fields =>
    obtain ⟨⟨own, present, rfl, status, _⟩, rfl⟩ := starts
    obtain ⟨taskId, named, nonempty⟩ := invariant.named own (List.mem_of_getElem? present)
    have fresh : Phase.initial (.handling cikMapping now index own.fields) = .handling .fresh := by
      simp only [Phase.initial, HandlingPhase.initial, named, nonempty, ↓reduceIte]
    have handles : (Activity.handling cikMapping now index own.fields).taskId? = some taskId := named
    rw [fresh]
    apply invariant.put
    · exact handles
    · exact nonempty
    · rfl
    · exact before
    · exact confined_deliver present named
    · intro position entry there
      obtain ⟨old, found, rfl⟩ := delivered_entry there
      refine .inl ⟨old, found, ?_⟩
      split_ifs
      · exact deliver_fields old
      · rfl
    · simp only [handles, ↓reduceIte]
      exact (invariant.courses taskId).take absent present named status
        fun other agent found => free index rfl other agent taskId found
    · intro other differs
      have apart : ¬ (Activity.handling cikMapping now index own.fields).taskId? = some other := by
        intro same
        exact differs (Option.some.inj (same.symm.trans handles))
      simp only [apart, ↓reduceIte, Nat.add_zero]

/-- A request adds an entry in its last step only. -/
theorem RequestStep.entries {ticket : Ticket} {phase phase' : RequestPhase}
    (step : RequestStep ticket phase call reply phase') (world : World) :
    (phase = .publishing ∧ call = .xadd ticket.taskId) ∨ (world.after call).stream = world.stream := by
  have next := step.call?_eq
  cases phase <;> cases next <;> first | exact .inr rfl | exact .inl ⟨rfl, rfl⟩

theorem Opening.step {worker : Worker} {entry limit begun : ℕ} {phase phase' : HandlingPhase}
    {log : List (Σ call, calls.Reply call)} {world : World} (opening : Opening taskId log phase)
    (course : HandlingCourse limit begun taskId world phase)
    (step : HandlingStep worker entry taskId phase call reply phase')
    (served : Steady call world reply world') : Opening taskId (⟨call, reply⟩ :: log) phase' := by
  right
  rcases opening with ⟨rfl, rfl⟩ | ⟨task, first, queued⟩
  · obtain ⟨task, recorded, queued, _⟩ := course
    refine ⟨task, ?_, queued⟩
    cases step with
    | missed => cases recorded.stored.symm.trans (Except.ok.inj (steady_getTask served).1).symm
    | load read =>
      cases recorded.stored.symm.trans (Except.ok.inj (steady_getTask served).1).symm
      rfl
    | unread => cases (steady_getTask served).1
    | reread _ _ _ interrupted => cases interrupted
    | unrecovered _ _ _ interrupted => cases interrupted
  · refine ⟨task, ?_, queued⟩
    rw [List.getLast?_cons, first]
    rfl

theorem DeliveryInvariant.answered (invariant : DeliveryInvariant settings uuid begun view)
    (injective : ∀ id id', uuid id = uuid id' → id = id') {phase' : Phase}
    (present : view.process id = some agent)
    (moves : ServiceStep settings uuid id agent.label agent.control call reply phase')
    (served : Steady call view.world reply world') :
    DeliveryInvariant settings uuid begun (view.put id (agent.resume call reply phase') world') := by
  obtain ⟨taskId, acts, nonempty⟩ := invariant.labels id agent present
  have alive := invariant.alive id agent present
  have course := invariant.courses taskId
  have acting := course.agents id agent present acts
  have before : ∀ found, view.process id = some found → found.label = agent.label := by
    intro found there
    cases present.symm.trans there
    rfl
  have named_after (index : ℕ) (entry : Entry) (adds : ∀ added, call = .xadd added → added = taskId)
      (there : world'.stream[index]? = some entry) :
      (∃ old : Entry, view.world.stream[index]? = some old ∧ entry.fields = old.fields) ∨
        fieldsTaskId entry.fields = some taskId := by
    rcases steady_world served with rfl | rfl
    · exact .inl ⟨entry, there, rfl⟩
    · rcases entry_of_after there with ⟨old, found, rfl⟩ | ⟨added, same, _, rfl⟩
      · exact .inl ⟨old, found, touch_fields ..⟩
      · exact .inr (congrArg some (adds added same))
  obtain ⟨label, control, log, killed⟩ := agent
  cases moves with
  | @request cikMapping payload identity phase phase' _ _ identified step =>
    obtain ⟨_, ⟨⟩, requests⟩ := acting
    obtain rfl : uuid id = taskId := acts
    have requests := requests identity identified
    have unpublished : ¬ view.world.HasEntry (uuid id) := by
      rcases requests.entryless with ⟨answer, rfl⟩ | without
      · cases step.call?_eq
      · exact without
    have later : AgentCourse settings (begun (uuid id)) world' (uuid id)
        ⟨.request cikMapping payload, .request phase', ⟨call, reply⟩ :: log, killed⟩ := by
      refine ⟨phase', rfl, ?_⟩
      intro identity' identified'
      cases identified.symm.trans identified'
      exact requests.step step served
    apply invariant.put
    · exact (rfl : uuid id = uuid id)
    · exact nonempty
    · exact alive
    · exact before
    · exact step.confined served
    · intro index entry
      exact named_after index entry (step.mine view.world).adds
    · obtain ⟨_, effect⟩ := steady_redis served (RequestPhase.redis step.call?_eq)
      rcases step.entries view.world with ⟨rfl, rfl⟩ | same
      · subst effect
        exact course.published injective unpublished rfl rfl rfl requests.2 later
      · apply course.request injective unpublished _ later
        rw [effect, World.HasEntry, same]
        exact unpublished
    · exact fun _ _ => rfl
  | @handling cikMapping now index fields phase phase' _ _ step =>
    have named : fieldsTaskId fields = some taskId := acts
    obtain ⟨_, ⟨⟩, entry, opening, handling⟩ := acting
    have identified : handledId fields = taskId := by
      simp only [handledId, named, Option.getD_some]
    rw [identified] at step
    obtain ⟨own, there, named', _⟩ := entry
    apply invariant.put
    · exact acts
    · exact nonempty
    · exact alive
    · exact before
    · exact step.confined handling.holds there named' served
    · intro position entry
      exact named_after position entry (step.mine handling.holds there named').adds
    · by_cases owes : Owes phase
      · exact course.work present named rfl rfl owes rfl rfl (opening.step handling step served)
          (handling.step owes step served)
      · have resting : phase = .finished ∧ call = .xack index ∧ phase' = .acked ∨
            phase = .acked ∧ call = .xdel index ∧ phase' = .stopped := by
          cases step with
          | ack reply =>
            obtain ⟨⟨answer, rfl⟩, _⟩ := steady_redis served trivial
            exact .inl ⟨rfl, rfl, rfl⟩
          | remove => exact .inr ⟨rfl, rfl, rfl⟩
          | reread _ _ _ interrupted => cases interrupted <;> simp [Owes] at owes
          | unrecovered _ _ _ interrupted => cases interrupted <;> simp [Owes] at owes
          | _ => simp [Owes] at owes
        have effect : world' = view.world.after call := by
          rcases resting with ⟨_, rfl, _⟩ | ⟨_, rfl, _⟩ <;> exact (steady_redis served trivial).2
        rw [effect]
        exact course.dismiss present named rfl rfl rfl rfl resting (opening.step handling step served)
    · exact fun _ _ => rfl

theorem DeliveryInvariant.idle {world : World} (fresh : FreshIds uuid world)
    (unpointed : ∀ id key, world.pending key ≠ some (uuid id)) (empty : world.stream = []) :
    DeliveryInvariant settings uuid (fun _ => 0) (.idle world) := by
  have without (taskId : TaskId) : ¬ world.HasEntry taskId := by
    rintro ⟨entry, member, _⟩
    rw [empty] at member
    cases member
  constructor
  · exact fun _ _ present => Config.idle_absent present
  · intro entry member
    rw [Config.idle_world, empty] at member
    cases member
  · exact fun _ _ present => Config.idle_absent present
  · intro taskId
    apply TaskCourse.of_entryless
    · rintro id rfl _
      exact ⟨fresh.unused id, unpointed id, without _⟩
    · rfl
    · exact fun _ _ present => Config.idle_absent present
    · exact without taskId

/-- Nobody is killed, and an entry is handed out again only after its previous handling has ended. A handling
counts from the moment its entry is handed out, by XREADGROUP or by XCLAIM; an entry that waits in the list of a
sweep is being handled already. -/
def Supervised (config : ServiceConfig) : ServiceEvent → Prop
  | .start _ label => ∀ entry, label.entry? = some entry → ∀ id process,
      config.process id = some process → process.label.entry? = some entry → ¬ process.Active
  | .reply _ _ _ => True
  | .kill _ => False

theorem DeliveryInvariant.step {config : ServiceConfig} {view' : ServiceView} {event : ServiceEvent}
    (invariant : DeliveryInvariant settings uuid begun view)
    (injective : ∀ id id', uuid id = uuid id' → id = id') (nonempty : ∀ id, uuid id ≠ "")
    (views : Views settings uuid Steady config view) (supervised : Supervised config event)
    (step : (outline settings uuid Steady).Step view event view') :
    DeliveryInvariant settings uuid
      (fun taskId => begun taskId + if begins taskId event then 1 else 0) view' := by
  cases step with
  | @start id label world absent starts =>
    simp only [begins, decide_eq_true_eq]
    apply invariant.start injective nonempty absent starts
    rintro index hands other agent taskId present ⟨_, same, active⟩
    obtain ⟨process, found, follows⟩ := Refinement.behind views present
    refine supervised index hands other process found ?_ ((active_iff follows).mpr ⟨?_, active⟩)
    · rw [follows.1]
      exact same
    · exact invariant.alive other agent present
  | reply present alive moves served =>
    simp only [begins, Bool.false_eq_true, ↓reduceIte, Nat.add_zero]
    exact invariant.answered injective present moves served
  | kill => exact supervised.elim

/-- Every task is in order, however many handlings there have been. -/
def InCustody (settings : Settings) (uuid : ℕ → TaskId) (config : ServiceConfig) : Prop :=
  ∃ begun view, Views settings uuid Steady config view ∧ DeliveryInvariant settings uuid begun view

theorem InCustody.step {config config' : ServiceConfig} {event : ServiceEvent}
    (order : InCustody settings uuid config) (fresh : FreshIds uuid world')
    (supervised : Supervised config event)
    (step : (service settings uuid Steady).Step config event config') : InCustody settings uuid config' := by
  obtain ⟨begun, view, views, invariant⟩ := order
  obtain ⟨view', step', views'⟩ := service_refines.simulate views step
  exact ⟨_, view', views', invariant.step fresh.injective fresh.nonempty views supervised step'⟩

theorem InCustody.idle {world : World} (fresh : FreshIds uuid world)
    (unpointed : ∀ id key, world.pending key ≠ some (uuid id)) (empty : world.stream = []) :
    InCustody settings uuid (.idle world) :=
  ⟨_, .idle world, Refinement.views_idle world, .idle fresh unpointed empty⟩

/-- The state of every task at the end of every run. -/
theorem delivery_courses {world : World} {events : List ServiceEvent} {config : ServiceConfig}
    (fresh : FreshIds uuid world) (unpointed : ∀ id key, world.pending key ≠ some (uuid id))
    (empty : world.stream = [])
    (run : Path (Guarded (service settings uuid Steady).Step Supervised) (.idle world) events config) :
    ∃ view, Views settings uuid Steady config view ∧
      DeliveryInvariant settings uuid (fun taskId => handlings taskId events) view := by
  refine @Path.history_invariant _ _ _ (fun past config => ∃ view, Views settings uuid Steady config view ∧
    DeliveryInvariant settings uuid (fun taskId => handlings taskId past) view) ?_ _ _ _ run ?_
  · rintro past config event config' ⟨supervised, step⟩ ⟨view, views, invariant⟩
    obtain ⟨view', step', views'⟩ := service_refines.simulate views step
    refine ⟨view', views', ?_⟩
    simp only [handlings, List.countP_append, List.countP_singleton]
    exact invariant.step fresh.injective fresh.nonempty views supervised step'
  · exact ⟨.idle world, Refinement.views_idle world, .idle fresh unpointed empty⟩

end Run

end Quartr.Soundness
