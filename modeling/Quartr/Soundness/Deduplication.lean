import Quartr.Machine.Replay
import Quartr.Model.Sample
import Quartr.Soundness.RequestPhases

/-! # Concurrent calls of `get_or_create_task`

Any number of calls for one identity and flag run over one store, with their own ids. They agree on
one task exactly when no call looks for the record of the pointer before it has been saved: such a
call reclaims the pointer, and then two calls have created a task.
-/

namespace Quartr.Soundness

open Quartr.Machine Quartr.Model

abbrev DedupProgram := Program calls (Except Err (ReportTask × Bool) × Unit)
abbrev DedupConfig := Config calls World Unit DedupProgram
abbrev DedupView := Config calls World Unit RequestPhase
abbrev DedupEvent := Event calls Unit

section Systems

variable (identity : ReportIdentity) (includeAmended : Bool) (uuid : ℕ → TaskId)

/-- The calls, each of which takes effect as a whole or not at all at every Redis command. -/
def dedup : System calls World Unit DedupProgram :=
  System.ofBodies
    (fun id _ => (Repository.getOrCreateTask (uuid id) identity includeAmended : Async Unit _) ())
    (fun world _ world' => world' = world) Reliable

def dedupTicket (id : ℕ) : Ticket := ⟨default, identity, includeAmended, uuid id⟩

def dedupOutline : System calls World Unit RequestPhase where
  body _ _ := .registering
  protocol id _ phase call reply phase' :=
    phase.Deduplicating ∧ RequestStep (dedupTicket identity includeAmended uuid id) phase call reply phase'
  start world _ world' := world' = world
  serve := Reliable

/-- What a call returned, by the phase it ends in. -/
def Returned (id : ℕ) (_ : Unit) (result : Except Err (ReportTask × Bool) × Unit)
    (phase : RequestPhase) : Prop :=
  match result.1 with
  | .ok (task, true) => task.taskId = uuid id ∧ phase = .admitting
  | .ok (task, false) => phase = .ended (some task.taskId)
  | .error _ => phase = .ended none

theorem dedup_refines : Refinement (dedup identity includeAmended uuid)
    (dedupOutline identity includeAmended uuid) (Returned uuid) := by
  refine ⟨rfl, rfl, rfl, fun id _ => ?_⟩
  have follows : Coroutine.Follows ((dedupOutline identity includeAmended uuid).protocol id ())
      (Repository.getOrCreateTask (uuid id) identity includeAmended : Async Unit _) () .registering
      (fun result object phase => Returned uuid id () (result, object) phase) := by
    refine @getOrCreateTask_follows (dedupTicket identity includeAmended uuid id) Unit () _ _
      (fun inside step => ⟨inside, step⟩) ⟨rfl, rfl⟩ ?_ ?_
    · exact fun task => rfl
    · exact fun error => rfl
  exact follows

/-- The calls seen through their phases, none of them killed. -/
def Seen (config : DedupConfig) (view : DedupView) : Prop :=
  config.Views (dedupOutline identity includeAmended uuid) (Returned uuid) view ∧
    ∀ id process, config.process id = some process → process.killed = false

end Systems

/-- No call is aborted. -/
def Unkilled : DedupEvent → Prop
  | .kill _ => False
  | _ => True

instance : DecidablePred Unkilled
  | .kill _ => isFalse fun killed => killed
  | .start _ _ => isTrue trivial
  | .reply _ _ _ => isTrue trivial

/-- A call reads the record its pointer names only after it has been saved. -/
def RecordSaved (world : World) : DedupEvent → Prop
  | .reply _ (.getTask taskId) _ => world.tasks taskId ≠ none
  | _ => True

/-- The call is creating a task of its own, or has created it. -/
def CreatesOwn : RequestPhase → Prop
  | .reclaiming => True
  | .creating => True
  | .admitting => True
  | _ => False

/-- The call is on its way to this task, which another call created. -/
def AttachesTo (taskId : TaskId) : RequestPhase → Prop
  | .registering => True
  | .following => True
  | .attaching existing => existing = taskId
  | .ended answer => answer = some taskId
  | _ => False

/-- Nobody has the pointer yet. -/
def NoWinner (key : String) (view : DedupView) : Prop :=
  view.world.pending key = none ∧ ∀ id agent, view.process id = some agent →
    agent.control = .registering

/-- One call has the pointer and creates the task; the others attach to it. -/
def OneWinner (key : String) (uuid : ℕ → TaskId) (view : DedupView) : Prop :=
  ∃ winner agent, view.process winner = some agent ∧
    (agent.control = .creating ∨ agent.control = .admitting) ∧
    view.world.pending key = some (uuid winner) ∧
    ∀ id agent, id ≠ winner → view.process id = some agent → AttachesTo (uuid winner) agent.control

structure DedupInvariant (key : String) (uuid : ℕ → TaskId) (view : DedupView) : Prop where
  keyed : view.world.Keyed
  winner : NoWinner key view ∨ OneWinner key uuid view

/-- Two calls create a task each. -/
def TwoCreators (view : DedupView) : Prop :=
  ∃ first second agent agent', first ≠ second ∧ view.process first = some agent ∧
    view.process second = some agent' ∧ CreatesOwn agent.control ∧ CreatesOwn agent'.control

section Steps

variable {identity : ReportIdentity} {includeAmended : Bool} {uuid : ℕ → TaskId}
  {view view' : DedupView} {event : DedupEvent}

/-- A call that creates its own task goes on to do so. -/
theorem CreatesOwn.step {ticket : Ticket} {phase phase' : RequestPhase} {call : Call}
    {reply : calls.Reply call} {world world' : World} (creates : CreatesOwn phase)
    (inside : phase.Deduplicating) (step : RequestStep ticket phase call reply phase')
    (served : Reliable call world reply world') : CreatesOwn phase' := by
  cases step with
  | reclaimed => trivial
  | created => trivial
  | raised error next => exact (not_error next served).elim
  | refused phase early => rcases early with rfl | rfl <;> exact inside.elim
  | _ => first | exact creates.elim | exact inside.elim

/-- Two creators stay two creators. -/
theorem TwoCreators.step (two : TwoCreators view)
    (step : (dedupOutline identity includeAmended uuid).Step view event view') : TwoCreators view' := by
  obtain ⟨first, second, agent, agent', apart, there, there', creates, creates'⟩ := two
  have still : ∀ id agent, view.process id = some agent → CreatesOwn agent.control →
      ∃ agent', view'.process id = some agent' ∧ CreatesOwn agent'.control := by
    intro id agent there creates
    by_cases same : id = event.id
    · subst same
      cases step with
      | start absent begins =>
        cases absent.symm.trans there
      | reply present alive moves served =>
        cases present.symm.trans there
        exact ⟨_, Config.put_self, creates.step moves.1 moves.2 served⟩
      | kill present alive =>
        cases present.symm.trans there
        exact ⟨_, Config.put_self, creates⟩
    · exact ⟨agent, (step.frame same).trans there, creates⟩
  obtain ⟨left, found, creates⟩ := still first agent there creates
  obtain ⟨right, found', creates'⟩ := still second agent' there' creates'
  exact ⟨first, second, left, right, apart, found, found', creates, creates'⟩

/-- The first SET NX wins; without a pointer there is nothing else to do. -/
theorem NoWinner.reply {id : ℕ} {agent : Process calls Unit RequestPhase} {call : Call}
    {reply : calls.Reply call} {phase' : RequestPhase} {world : World}
    (none : NoWinner (dedupTicket identity includeAmended uuid id).pendingKey view)
    (present : view.process id = some agent)
    (step : RequestStep (dedupTicket identity includeAmended uuid id) agent.control call reply phase')
    (served : Reliable call view.world reply world) :
    RecordSaved view.world (.reply id call reply) ∧
      OneWinner (dedupTicket identity includeAmended uuid id).pendingKey uuid
        (view.put id (agent.resume call reply phase') world) := by
  obtain ⟨free, registering⟩ := none
  rw [registering id agent present] at step
  have served' := served
  obtain ⟨⟨outside, replied⟩, rfl⟩ := served
  cases step with
  | registered =>
    refine ⟨trivial, id, _, Config.put_self, .inl rfl, ?_, fun other agent' apart there => ?_⟩
    · simp only [Config.put_world, World.after_pending, free, Option.isNone_none, ↓reduceIte]
      exact Function.update_self ..
    · rw [Config.put_of_ne apart] at there
      rw [registering other agent' there]
      trivial
  | contended =>
    simp only [World.reply, free, Option.isNone_none, Except.ok.injEq, Bool.false_eq_true] at replied
  | refused _ early => rcases early with same | same <;> cases same
  | raised error next => exact (not_error next served').elim

/-- With one winner the others find its pointer and attach, unless its record is not there yet. -/
theorem OneWinner.reply {id : ℕ} {agent : Process calls Unit RequestPhase} {call : Call}
    {reply : calls.Reply call} {phase' : RequestPhase} {world : World}
    (nonempty : ∀ id, uuid id ≠ "") (keyed : view.world.Keyed)
    (one : OneWinner (dedupTicket identity includeAmended uuid id).pendingKey uuid view)
    (present : view.process id = some agent) (inside : agent.control.Deduplicating)
    (step : RequestStep (dedupTicket identity includeAmended uuid id) agent.control call reply phase')
    (served : Reliable call view.world reply world) :
    RecordSaved view.world (.reply id call reply) ∧
        OneWinner (dedupTicket identity includeAmended uuid id).pendingKey uuid
          (view.put id (agent.resume call reply phase') world) ∨
      ¬ RecordSaved view.world (.reply id call reply) ∧
        TwoCreators (view.put id (agent.resume call reply phase') world) := by
  obtain ⟨winner, leader, there, leads, pointer, attach⟩ := one
  have served' := served
  obtain ⟨⟨outside, replied⟩, rfl⟩ := served
  by_cases own : id = winner
  · -- The winner saves its record.
    subst own
    cases there.symm.trans present
    rcases leads with creating | admitting
    · rw [creating] at step
      cases step with
      | created =>
        refine .inl ⟨trivial, id, _, Config.put_self, .inr rfl, ?_, fun other agent' apart found => ?_⟩
        · exact pointer
        · rw [Config.put_of_ne apart] at found
          exact attach other agent' apart found
      | refused _ early => rcases early with same | same <;> cases same
      | raised error next => exact (not_error next served').elim
    · rw [admitting] at inside
      exact inside.elim
  · have follows := attach id agent own present
    -- As long as the pointer stays and the actor still attaches, the winner is the same.
    have attached (same : (view.world.after call).pending
          (dedupTicket identity includeAmended uuid id).pendingKey = some (uuid winner))
        (goes : AttachesTo (uuid winner) phase') :
        OneWinner (dedupTicket identity includeAmended uuid id).pendingKey uuid
          (view.put id (agent.resume call reply phase') (view.world.after call)) := by
      refine ⟨winner, leader, (Config.put_of_ne (Ne.symm own)).trans there, leads, same, ?_⟩
      intro other agent' apart found
      by_cases actor : other = id
      · subst actor
        rw [Config.put_self, Option.some.injEq] at found
        exact found ▸ goes
      · rw [Config.put_of_ne actor] at found
        exact attach other agent' apart found
    obtain ⟨label, control, log, killed⟩ := agent
    cases step with
    | registered =>
      simp only [World.reply, pointer, Option.isNone_some, Except.ok.injEq, Bool.true_eq_false] at replied
    | contended =>
      refine .inl ⟨trivial, attached ?_ trivial⟩
      simp only [World.after_pending, pointer, Option.isNone_some, Bool.false_eq_true, ↓reduceIte]
    | followed existing named =>
      cases Except.ok.inj replied.symm ▸ pointer
      exact .inl ⟨trivial, attached pointer rfl⟩
    | unfollowed found unnamed =>
      rw [show found = some (uuid winner) from (Except.ok.inj replied).trans pointer] at unnamed
      rcases unnamed with none | empty
      · cases none
      · exact absurd (Option.some.inj empty) (nonempty winner)
    | attached existing task =>
      have saved : view.world.tasks existing = some task := (Except.ok.inj replied).symm
      refine .inl ⟨fun none => ?_, attached pointer ?_⟩
      · cases saved.symm.trans none
      · exact congrArg some ((keyed existing task saved).trans follows)
    | missing existing =>
      refine .inr ⟨fun saved => saved (Except.ok.inj replied).symm, winner, id, leader, _, Ne.symm own,
        (Config.put_of_ne (Ne.symm own)).trans there, Config.put_self, ?_, trivial⟩
      rcases leads with same | same <;> rw [same] <;> trivial
    | refused _ early => rcases early with rfl | rfl <;> exact inside.elim
    | raised error next => exact (not_error next served').elim
    | _ => exact follows.elim

/-- A step keeps the invariant, unless a call looks for a record that is not saved yet. -/
theorem DedupInvariant.step (nonempty : ∀ id, uuid id ≠ "")
    (invariant : DedupInvariant (pendingTaskKey identity.logicalPath includeAmended) uuid view)
    (unkilled : Unkilled event)
    (step : (dedupOutline identity includeAmended uuid).Step view event view') :
    RecordSaved view.world event ∧
        DedupInvariant (pendingTaskKey identity.logicalPath includeAmended) uuid view' ∨
      ¬ RecordSaved view.world event ∧ TwoCreators view' := by
  cases step with
  | @start id label world absent begins =>
    obtain rfl : world = view.world := begins
    refine .inl ⟨trivial, invariant.keyed, ?_⟩
    rcases invariant.winner with ⟨free, registering⟩ | ⟨winner, leader, there, leads, pointer, attach⟩
    · refine .inl ⟨free, fun other agent found => ?_⟩
      by_cases same : other = id
      · subst same
        rw [Config.put_self, Option.some.injEq] at found
        exact found ▸ rfl
      · rw [Config.put_of_ne same] at found
        exact registering other agent found
    · have apart : winner ≠ id := by
        rintro rfl
        cases absent.symm.trans there
      refine .inr ⟨winner, leader, (Config.put_of_ne apart).trans there, leads, pointer, ?_⟩
      intro other agent differs found
      by_cases same : other = id
      · subst same
        rw [Config.put_self, Option.some.injEq] at found
        exact found ▸ trivial
      · rw [Config.put_of_ne same] at found
        exact attach other agent differs found
  | @reply id agent call reply phase' world present alive moves served =>
    have keyed : world.Keyed := served.2 ▸ invariant.keyed.after call
    rcases invariant.winner with none | one
    · obtain ⟨saved, one⟩ := NoWinner.reply none present moves.2 served
      exact .inl ⟨saved, keyed, .inr one⟩
    · rcases OneWinner.reply nonempty invariant.keyed one present moves.1 moves.2 served with
        ⟨saved, one⟩ | spoiled
      · exact .inl ⟨saved, keyed, .inr one⟩
      · exact .inr spoiled
  | kill => exact unkilled.elim

end Steps

/-! ### The calls together -/

/-- All calls return one task, exactly one of them created it, and the pointer names it. -/
def Deduplicated (key : String) (config : DedupConfig) : Prop :=
  ∃ taskId, config.world.pending key = some taskId ∧
    (∀ id process, config.process id = some process →
      ∃ task created, process.result? = some (.ok (task, created), ()) ∧ task.taskId = taskId) ∧
    ∃ creator process, config.process creator = some process ∧
      ∀ id process, config.process id = some process →
        ((∃ task, process.result? = some (.ok (task, true), ())) ↔ id = creator)

/-- At least one call was made and all have returned. -/
def Complete (config : DedupConfig) : Prop :=
  (∃ id process, config.process id = some process) ∧ config.Quiescent

section Runs

variable {identity : ReportIdentity} {includeAmended : Bool} {uuid : ℕ → TaskId}
  {config : DedupConfig} {view : DedupView}

/-- Nobody was killed, so whoever is inactive has returned. -/
theorem Seen.returned (seen : Seen identity includeAmended uuid config view)
    (rest : config.Quiescent) {id : ℕ} {agent : Process calls Unit RequestPhase}
    (present : view.process id = some agent) :
    ∃ process value, config.process id = some process ∧ process.result? = some value ∧
      Returned uuid id () value agent.control := by
  obtain ⟨views, unkilled⟩ := seen
  obtain ⟨process, found, _, _, _, follows⟩ := Refinement.behind views present
  have inactive := rest id process found
  cases control : process.control with
  | await call next =>
    refine absurd ⟨unkilled id process found, ?_⟩ inactive
    rw [control]
    exact Option.some_ne_none _
  | done value =>
    rw [control] at follows
    refine ⟨process, value, found, ?_, follows⟩
    unfold Process.result?
    rw [control]

/-- Two creators return `created=True` twice. -/
theorem TwoCreators.not_deduplicated {key : String} (two : TwoCreators view)
    (seen : Seen identity includeAmended uuid config view) (rest : config.Quiescent) :
    ¬ Deduplicated key config := by
  rintro ⟨taskId, _, _, creator, _, _, unique⟩
  obtain ⟨first, second, agent, agent', apart, there, there', creates, creates'⟩ := two
  have creators : ∀ id agent, view.process id = some agent → CreatesOwn agent.control →
      id = creator := by
    intro id agent there creates
    obtain ⟨process, ⟨result, _⟩, found, result_eq, ends⟩ := seen.returned rest there
    refine (unique id process found).mp ?_
    rcases result with error | ⟨task, created⟩
    · rw [show agent.control = .ended none from ends] at creates
      exact creates.elim
    · cases created with
      | false =>
        rw [show agent.control = .ended (some task.taskId) from ends] at creates
        exact creates.elim
      | true => exact ⟨task, result_eq⟩
  exact apart ((creators first agent there creates).trans (creators second agent' there' creates').symm)

/-- One winner and no second creator: the calls are deduplicated. -/
theorem DedupInvariant.deduplicated {key : String} (invariant : DedupInvariant key uuid view)
    (seen : Seen identity includeAmended uuid config view) (complete : Complete config) :
    Deduplicated key config := by
  obtain ⟨⟨first, _, present⟩, rest⟩ := complete
  rcases invariant.winner with ⟨_, registering⟩ | ⟨winner, leader, there, leads, pointer, attach⟩
  · obtain ⟨agent, found, _⟩ := Refinement.seen seen.1 present
    obtain ⟨_, ⟨result, _⟩, _, _, ends⟩ := seen.returned rest found
    rw [registering first agent found] at ends
    rcases result with error | ⟨task, _ | _⟩
    · cases ends
    · cases ends
    · cases ends.2
  · -- What each of the calls returned, by whether it is the winner.
    have winner_result : ∀ process, config.process winner = some process →
        ∃ task, process.result? = some (.ok (task, true), ()) ∧ task.taskId = uuid winner := by
      intro process found
      obtain ⟨_, ⟨result, _⟩, found', result_eq, ends⟩ := seen.returned rest there
      cases found'.symm.trans found
      rcases result with error | ⟨task, _ | _⟩
      · rcases leads with same | same <;> cases same.symm.trans ends
      · rcases leads with same | same <;> cases same.symm.trans ends
      · exact ⟨task, result_eq, ends.1⟩
    have other_result : ∀ id process, id ≠ winner → config.process id = some process →
        ∃ task, process.result? = some (.ok (task, false), ()) ∧ task.taskId = uuid winner := by
      intro id process apart found
      obtain ⟨agent, there', _⟩ := Refinement.seen seen.1 found
      obtain ⟨_, ⟨result, _⟩, found', result_eq, ends⟩ := seen.returned rest there'
      cases found'.symm.trans found
      have attaches := attach id agent apart there'
      rcases result with error | ⟨task, _ | _⟩
      · rw [show agent.control = .ended none from ends] at attaches
        cases attaches
      · rw [show agent.control = .ended (some task.taskId) from ends] at attaches
        exact ⟨task, result_eq, Option.some.inj attaches⟩
      · rw [ends.2] at attaches
        exact attaches.elim
    obtain ⟨leader', led, _⟩ := Refinement.behind seen.1 there
    refine ⟨uuid winner, seen.1.world ▸ pointer, ?_, winner, leader', led, ?_⟩
    · intro id process found
      by_cases own : id = winner
      · subst own
        obtain ⟨task, result, same⟩ := winner_result process found
        exact ⟨task, true, result, same⟩
      · obtain ⟨task, result, same⟩ := other_result id process own found
        exact ⟨task, false, result, same⟩
    · intro id process found
      constructor
      · rintro ⟨task, result⟩
        by_contra own
        obtain ⟨task', result', _⟩ := other_result id process own found
        cases result.symm.trans result'
      · rintro rfl
        obtain ⟨task, result, _⟩ := winner_result process found
        exact ⟨task, result⟩

/-- Every step is a step of the phases, and nobody is killed. -/
theorem Seen.simulate {config' : DedupConfig} {event : DedupEvent}
    (seen : Seen identity includeAmended uuid config view) (unkilled : Unkilled event)
    (step : (dedup identity includeAmended uuid).Step config event config') :
    ∃ view', (dedupOutline identity includeAmended uuid).Step view event view' ∧
      Seen identity includeAmended uuid config' view' := by
  obtain ⟨views, alive⟩ := seen
  obtain ⟨view', step', views'⟩ := (dedup_refines identity includeAmended uuid).simulate views step
  refine ⟨view', step', views', fun id process present => ?_⟩
  by_cases same : id = event.id
  · subst same
    cases step with
    | start => exact (Option.some.inj (Config.put_self.symm.trans present)) ▸ rfl
    | reply _ living => exact (Option.some.inj (Config.put_self.symm.trans present)) ▸ living
    | kill => exact unkilled.elim
  · exact alive id process ((step.frame same).symm.trans present)

end Runs

/-- A run of calls none of which is aborted, under a condition on its steps. -/
def DedupRun (identity : ReportIdentity) (includeAmended : Bool) (uuid : ℕ → TaskId)
    (condition : World → DedupEvent → Prop) (world : World) (events : List DedupEvent)
    (config : DedupConfig) : Prop :=
  Path (Guarded (dedup identity includeAmended uuid).Step fun config event =>
    Unkilled event ∧ condition config.world event) (.idle world) events config

section Runs

variable {identity : ReportIdentity} {includeAmended : Bool} {uuid : ℕ → TaskId} {world : World}
  {events : List DedupEvent} {config : DedupConfig}

/-- The invariant together with the view it is about. -/
def DedupState (identity : ReportIdentity) (includeAmended : Bool) (uuid : ℕ → TaskId)
    (config : DedupConfig) : Prop :=
  ∃ view, Seen identity includeAmended uuid config view ∧
    DedupInvariant (pendingTaskKey identity.logicalPath includeAmended) uuid view

theorem DedupState.idle (keyed : world.Keyed)
    (unclaimed : world.pending (pendingTaskKey identity.logicalPath includeAmended) = none) :
    DedupState identity includeAmended uuid (.idle world) :=
  ⟨.idle world, ⟨⟨rfl, fun _ => .none⟩, fun _ _ present => Config.idle_absent present⟩, keyed,
    .inl ⟨unclaimed, fun _ _ present => Config.idle_absent present⟩⟩

theorem DedupState.step (nonempty : ∀ id, uuid id ≠ "") {config' : DedupConfig} {event : DedupEvent}
    (state : DedupState identity includeAmended uuid config) (unkilled : Unkilled event)
    (step : (dedup identity includeAmended uuid).Step config event config') :
    RecordSaved config.world event ∧ DedupState identity includeAmended uuid config' ∨
      ¬ RecordSaved config.world event ∧
        ∃ view, Seen identity includeAmended uuid config' view ∧ TwoCreators view := by
  obtain ⟨view, seen, invariant⟩ := state
  obtain ⟨view', step', seen'⟩ := seen.simulate unkilled step
  rw [seen.1.world]
  rcases invariant.step nonempty unkilled step' with ⟨saved, invariant'⟩ | ⟨unsaved, two⟩
  · exact .inl ⟨saved, view', seen', invariant'⟩
  · exact .inr ⟨unsaved, view', seen', two⟩

/-- Concurrent calls are deduplicated exactly in the runs in which every record is saved before
another call looks for it. -/
theorem deduplicated_iff (nonempty : ∀ id, uuid id ≠ "") (keyed : world.Keyed)
    (unclaimed : world.pending (pendingTaskKey identity.logicalPath includeAmended) = none)
    (run : DedupRun identity includeAmended uuid (fun _ _ => True) world events config)
    (complete : Complete config) :
    Deduplicated (pendingTaskKey identity.logicalPath includeAmended) config ↔
      DedupRun identity includeAmended uuid RecordSaved world events config := by
  constructor
  · intro deduplicated
    let Step := Guarded (dedup identity includeAmended uuid).Step fun _ event => Unkilled event ∧ True
    let Spoiled := fun config => ∃ view, Seen identity includeAmended uuid config view ∧ TwoCreators view
    have preserved : ∀ config event config', RecordSaved config.world event → Step config event config' →
        DedupState identity includeAmended uuid config → DedupState identity includeAmended uuid config' := by
      rintro config event config' saved ⟨⟨unkilled, _⟩, step⟩ state
      rcases state.step nonempty unkilled step with ⟨_, state'⟩ | ⟨unsaved, _⟩
      · exact state'
      · exact absurd saved unsaved
    have spoils : ∀ config event config', ¬ RecordSaved config.world event → Step config event config' →
        DedupState identity includeAmended uuid config → Spoiled config' := by
      rintro config event config' unsaved ⟨⟨unkilled, _⟩, step⟩ state
      rcases state.step nonempty unkilled step with ⟨saved, _⟩ | ⟨_, two⟩
      · exact absurd saved unsaved
      · exact two
    have stays : ∀ config event config', Step config event config' → Spoiled config → Spoiled config' := by
      rintro config event config' ⟨⟨unkilled, _⟩, step⟩ ⟨view, seen, two⟩
      obtain ⟨view', step', seen'⟩ := seen.simulate unkilled step
      exact ⟨view', seen', two.step step'⟩
    have outcome := run.guarded_or preserved spoils stays (DedupState.idle keyed unclaimed)
    rcases outcome with ⟨path, _⟩ | ⟨view, seen, two⟩
    · exact path.mono fun _ _ _ ⟨saved, ⟨unkilled, _⟩, step⟩ => ⟨⟨unkilled, saved⟩, step⟩
    · exact absurd deduplicated (two.not_deduplicated seen complete.2)
  · intro saved
    have state : DedupState identity includeAmended uuid config := by
      refine saved.invariant ?_ (DedupState.idle keyed unclaimed)
      rintro config event config' ⟨⟨unkilled, saved⟩, step⟩ state
      rcases state.step nonempty unkilled step with ⟨_, state'⟩ | ⟨unsaved, _⟩
      · exact state'
      · exact absurd saved unsaved
    obtain ⟨view, seen, invariant⟩ := state
    exact invariant.deduplicated seen complete

end Runs

/-- Schedules of calls that take effect. -/
def dedupPlayer (identity : ReportIdentity) (includeAmended : Bool) (uuid : ℕ → TaskId) :
    Player (dedup identity includeAmended uuid) Outside where
  begin? world _ := .some world
  answer outside call world := (world.reply outside call, world.after call)
  resumes := rfl
  begins _ _ _ begins := (Option.some.inj begins).symm
  serves := World.reliable

/-- The task a call has created. -/
def created? (result : Except Err (ReportTask × Bool) × Unit) : Option ReportTask :=
  match result.1 with
  | .ok (task, true) => some task
  | _ => none

theorem created?_eq {config : DedupConfig} {id : ℕ} {task : ReportTask}
    (created : ((config.process id).bind Process.result?).bind created? = some task) :
    ∃ process, config.process id = some process ∧ process.result? = some (.ok (task, true), ()) := by
  obtain ⟨result, returned, created⟩ := Option.bind_eq_some_iff.mp created
  obtain ⟨process, present, returned⟩ := Option.bind_eq_some_iff.mp returned
  refine ⟨process, present, ?_⟩
  rcases result with ⟨error | ⟨task', _ | _⟩, _⟩
  · cases created
  · cases created
  · cases created
    exact returned

/-- A schedule in which the second call finds the pointer of the first before its record, and takes
it over. -/
def reclaimed : List (Move Unit Outside) :=
  [.start 0 (), .serve 0 default, .start 1 (), .serve 1 default, .serve 1 default, .serve 1 default,
    .serve 1 default, .serve 1 default, .serve 0 default]

/-- Concurrent calls can create two tasks for one report. -/
theorem two_calls_create : ¬ ∀ events config,
    DedupRun (Sample.identity 2024) false Sample.uuid (fun _ _ => True) Sample.world events config →
      Complete config →
        Deduplicated (pendingTaskKey (Sample.identity 2024).logicalPath false) config := by
  intro claimed
  have plays : (dedupPlayer (Sample.identity 2024) false Sample.uuid).Plays
      (fun _ event => Unkilled event ∧ True)
      (fun config => (∀ move ∈ reclaimed, config.InactiveAt move.id) ∧
        ((config.process 0).bind Process.result?).bind created? =
          some (.fresh "task-0" (Sample.identity 2024) false) ∧
        ((config.process 1).bind Process.result?).bind created? =
          some (.fresh "task-1" (Sample.identity 2024) false))
      (.idle Sample.world) reclaimed := by
    decide +kernel
  obtain ⟨events, config, path, rest, first, second⟩ := plays.quiescent
  obtain ⟨process, present, result⟩ := created?_eq first
  obtain ⟨process', present', result'⟩ := created?_eq second
  obtain ⟨_, _, _, creator, _, _, unique⟩ := claimed events config path ⟨⟨0, process, present⟩, rest⟩
  have same : 0 = creator := (unique 0 process present).mp ⟨_, result⟩
  have same' : 1 = creator := (unique 1 process' present').mp ⟨_, result'⟩
  omega

/-- `RecordSaved` as a test. -/
def recordSaved (world : World) : DedupEvent → Bool
  | .reply _ (.getTask taskId) _ => (world.tasks taskId).isSome
  | _ => true

theorem recordSaved_sound {world : World} {event : DedupEvent}
    (saved : recordSaved world event = true) : RecordSaved world event := by
  unfold RecordSaved
  split
  · exact Option.isSome_iff_ne_none.mp saved
  · trivial

/-- A schedule in which the second call finds the pointer after the record was saved. -/
def attached : List (Move Unit Outside) :=
  [.start 0 (), .start 1 (), .serve 0 default, .serve 1 default, .serve 0 default, .serve 1 default,
    .serve 1 default]

theorem deduplicated_iff_attached : ∃ events config,
    DedupRun (Sample.identity 2024) false Sample.uuid (fun _ _ => True) Sample.world events config ∧
      Complete config ∧ DedupRun (Sample.identity 2024) false Sample.uuid RecordSaved Sample.world
        events config ∧
      Deduplicated (pendingTaskKey (Sample.identity 2024).logicalPath false) config := by
  have plays : (dedupPlayer (Sample.identity 2024) false Sample.uuid).Plays
      (fun config event => Unkilled event ∧ recordSaved config.world event = true)
      (fun config => (∀ move ∈ attached, config.InactiveAt move.id) ∧ (config.process 0).isSome)
      (.idle Sample.world) attached := by
    decide +kernel
  obtain ⟨events, config, path, rest, started⟩ := plays.quiescent
  have saved : DedupRun (Sample.identity 2024) false Sample.uuid RecordSaved Sample.world events config :=
    path.weaken fun _ _ guard => ⟨guard.1, recordSaved_sound guard.2⟩
  have run : DedupRun (Sample.identity 2024) false Sample.uuid (fun _ _ => True) Sample.world events
      config :=
    path.weaken fun _ _ guard => ⟨guard.1, trivial⟩
  obtain ⟨process, present⟩ := Option.isSome_iff_exists.mp started
  have complete : Complete config := ⟨⟨0, process, present⟩, rest⟩
  refine ⟨events, config, run, complete, saved, ?_⟩
  exact (deduplicated_iff Sample.uuid_fresh.nonempty Sample.world_keyed rfl run complete).mpr saved

end Quartr.Soundness
