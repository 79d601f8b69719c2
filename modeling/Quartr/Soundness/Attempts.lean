import Quartr.Machine.Execution
import Quartr.Model.Sample
import Quartr.Soundness.Effects

/-! # What one delivery costs

A handling counts an attempt in `_fail_transiently` or in the recovery path, which reads the record
again so as not to count twice. It counts twice all the same when the first increment was persisted
before the error that led to the recovery.
-/

namespace Quartr.Soundness

open Quartr.Machine Quartr.Model

abbrev Trace := List (Served calls World)

/-- The persisted counter of a task. -/
def attemptsOf (world : World) (taskId : TaskId) : ℕ := (world.tasks taskId).elim 0 ReportTask.attempts

/-- A save that took effect. -/
def Saves (step : Served calls World) : Prop :=
  ∃ saved, step.call = .setTask saved ∧ step.after = step.before.after step.call

/-- A save with that counter that took effect. -/
def SavesCount (count : ℕ) (step : Served calls World) : Prop :=
  ∃ saved, step.call = .setTask saved ∧ saved.attempts = count ∧ step.after = step.before.after step.call

/-- The record was read. -/
def Reads (step : Served calls World) : Prop :=
  ∃ taskId task before after, step = ⟨.getTask taskId, .ok (some task), before, after⟩

/-- The counter was persisted. Before the recovery path reads the record, only `_fail_transiently` saves one
that is higher than the stored one. -/
def Persisted (count : ℕ) : Trace → Prop := Followed (fun _ => True) (SavesCount count)

/-- The counter was persisted and then read back. -/
def ReadBack (count : ℕ) : Trace → Prop := Followed (Persisted count) Reads

/-- The counter was persisted, read back by the recovery path, and the recovery's own save took
effect. -/
def CountedTwice (count : ℕ) : Trace → Prop := Followed (ReadBack count) Saves

theorem ReadBack.persisted {count : ℕ} {past : Trace} (readBack : ReadBack count past) :
    Persisted count past := by
  obtain ⟨before, event, after, rfl, ⟨before', event', after', rfl, _, saves⟩, _⟩ := readBack
  exact ⟨before', event', after' ++ event :: after, by simp, trivial, saves⟩

theorem CountedTwice.readBack {count : ℕ} {past : Trace} (twice : CountedTwice count past) :
    ReadBack count past := by
  obtain ⟨before, event, after, rfl, ⟨before', event', after', rfl, persisted, reads⟩, _⟩ := twice
  exact ⟨before', event', after' ++ event :: after, by simp, persisted, reads⟩

/-- The account before the recovery path reads the record: `counted` attempts of this delivery are
persisted. -/
structure Once (taskId : TaskId) (before : ℕ) (counted : ℕ) (past : Trace) (world : World) : Prop where
  bound : counted ≤ 1
  persisted : Persisted (before + 1) past ↔ counted = 1
  unread : ¬ ReadBack (before + 1) past
  record : ∃ record, world.tasks taskId = some record ∧ record.attempts = before + counted

/-- The account when the recovery path holds its copy. -/
structure Again (taskId : TaskId) (before : ℕ) (current : ReportTask) (past : Trace) (world : World) :
    Prop where
  once : ¬ CountedTwice (before + 1) past
  counted : ∃ counted ≤ 1, (ReadBack (before + 1) past ↔ counted = 1) ∧
    attemptsOf world taskId = before + counted ∧ current.attempts = before + counted + 1

/-- The account once nothing more is counted. -/
structure Tallied (taskId : TaskId) (before : ℕ) (past : Trace) (world : World) : Prop where
  bound : attemptsOf world taskId ≤ before + 2
  twice : CountedTwice (before + 1) past ↔ attemptsOf world taskId = before + 2

/-- What a handling has counted so far, phase by phase. -/
def Account (taskId : TaskId) (before : ℕ) (past : Trace) (world : World) : HandlingPhase → Prop
  | .fresh => past = [] ∧ attemptsOf world taskId = before
  | .loaded task => Once taskId before 0 past world ∧ task.attempts = before
  | .running task _ => Once taskId before 0 past world ∧ task.attempts = before
  | .completed _ _ => Once taskId before 0 past world
  | .released _ _ => Once taskId before 0 past world
  | .published _ _ => Once taskId before 0 past world
  | .retrying saved => Once taskId before 1 past world ∧ saved.attempts = before + 1
  | .queued saved => Once taskId before 1 past world ∧ saved.attempts = before + 1
  | .measured saved => Once taskId before 1 past world ∧ saved.attempts = before + 1
  | .failed _ => ∃ counted, Once taskId before counted past world
  | .broken _ => ∃ counted, Once taskId before counted past world
  | .dying current => Again taskId before current past world
  | .counting current => Again taskId before current past world
  | .buried _ => Tallied taskId before past world
  | .finished => Tallied taskId before past world
  | .acked => Tallied taskId before past world
  | .stopped => Tallied taskId before past world

section Steps

variable {taskId : TaskId} {before counted : ℕ} {past : Trace} {world world' : World} {call : Call}
  {reply : calls.Reply call}

theorem Once.tallied (once : Once taskId before counted past world) : Tallied taskId before past world := by
  obtain ⟨record, present, count⟩ := once.record
  have bound := once.bound
  have attempts : attemptsOf world taskId = before + counted := by
    rw [attemptsOf, present]
    exact count
  constructor
  · omega
  · constructor
    · intro twice
      exact absurd twice.readBack once.unread
    · intro same
      omega

def savesRecord : Call → Bool
  | .setTask _ => true
  | _ => false

def readsRecord : Call → Bool
  | .getTask _ => true
  | _ => false

/-- Calls that save no record leave every record as it is. -/
theorem tasks_same (served : Faulty call world reply world') (quiet : savesRecord call = false) :
    world'.tasks = world.tasks := by
  rcases served_world served with rfl | rfl
  · rfl
  · rw [World.after_tasks]
    cases call with
    | setTask saved => cases quiet
    | _ => rfl

theorem attemptsOf_same (same : world'.tasks = world.tasks) (taskId : TaskId) :
    attemptsOf world' taskId = attemptsOf world taskId := by
  rw [attemptsOf, same, attemptsOf]

theorem not_saves (quiet : savesRecord call = false) (saved : ReportTask) : call ≠ .setTask saved := by
  rintro rfl
  cases quiet

theorem not_reads (unread : readsRecord call = false) : ¬ Reads ⟨call, reply, world, world'⟩ := by
  rintro ⟨taskId, task, before, after, same⟩
  obtain rfl : call = .getTask taskId := congrArg Served.call same
  cases unread

theorem Tallied.quiet (tallied : Tallied taskId before past world) (served : Faulty call world reply world')
    (quiet : savesRecord call = false) :
    Tallied taskId before (past ++ [⟨call, reply, world, world'⟩]) world' := by
  have same := attemptsOf_same (tasks_same served quiet) taskId
  have nothing : ¬ Saves ⟨call, reply, world, world'⟩ := by
    rintro ⟨saved, same, _⟩
    exact not_saves quiet saved same
  constructor
  · rw [same]
    exact tallied.bound
  · rw [CountedTwice, followed_snoc, same]
    simp only [nothing, and_false, or_false]
    exact tallied.twice

theorem Once.quiet (once : Once taskId before counted past world) (served : Faulty call world reply world')
    (quiet : savesRecord call = false) (unread : readsRecord call = false) :
    Once taskId before counted (past ++ [⟨call, reply, world, world'⟩]) world' := by
  have nothing : ¬ SavesCount (before + 1) ⟨call, reply, world, world'⟩ := by
    rintro ⟨saved, same, _⟩
    exact not_saves quiet saved same
  refine ⟨once.bound, ?_, ?_, ?_⟩
  · rw [Persisted, followed_snoc]
    simp only [nothing, and_false, or_false]
    exact once.persisted
  · rw [ReadBack, followed_snoc]
    simp only [not_reads unread, and_false, or_false]
    exact once.unread
  · rw [tasks_same served quiet]
    exact once.record

/-- A save before the recovery: what it saves is counted if it took effect, which an answer tells. -/
theorem Once.save {saved : ReportTask} {now : ℕ} {reply : calls.Reply (.setTask saved)}
    (once : Once taskId before counted past world) (served : Faulty (.setTask saved) world reply world')
    (own : saved.taskId = taskId) (count : saved.attempts = before + now) (more : counted ≤ now)
    (bound : now ≤ 1) :
    ∃ result, Once taskId before result (past ++ [⟨.setTask saved, reply, world, world'⟩]) world' ∧
      ∀ answer, reply = .ok answer → result = now := by
  have unread : ¬ ReadBack (before + 1) (past ++ [⟨.setTask saved, reply, world, world'⟩]) := by
    rw [ReadBack, followed_snoc]
    simp only [@not_reads _ _ (.setTask saved) reply rfl, and_false, or_false]
    exact once.unread
  by_cases effective : world' = world.after (.setTask saved)
  · refine ⟨now, ⟨bound, ?_, unread, saved, ?_, count⟩, fun _ _ => rfl⟩
    · have persisted := once.persisted
      have saves : SavesCount (before + 1) ⟨.setTask saved, reply, world, world'⟩ ↔ now = 1 := by
        constructor
        · rintro ⟨saved', ⟨⟩, count', _⟩
          omega
        · intro one
          exact ⟨saved, rfl, by omega, effective⟩
      rw [Persisted, followed_snoc, ← Persisted, persisted, saves]
      simp only [true_and]
      omega
    · rw [effective, World.after_tasks]
      simp only [own, Function.update_self]
  · have lost : world' = world := (served_world served).resolve_right effective
    refine ⟨counted, ⟨once.bound, ?_, unread, ?_⟩, ?_⟩
    · have nothing : ¬ SavesCount (before + 1) ⟨.setTask saved, reply, world, world'⟩ := by
        rintro ⟨saved', ⟨⟩, _, took⟩
        exact effective took
      rw [Persisted, followed_snoc]
      simp only [nothing, and_false, or_false]
      exact once.persisted
    · rw [lost]
      exact once.record
    · rintro answer rfl
      exact absurd (served_answer served).2 effective

/-- The recovery path reads the record: from here it carries one attempt more. -/
theorem Once.read {settings : Settings} {object : ReportTask} {read : Option ReportTask}
    (once : Once taskId before counted past world) (served : Faulty (.getTask taskId) world (.ok read) world') :
    Account taskId before (past ++ [⟨.getTask taskId, .ok read, world, world'⟩]) world'
      (.recovering settings (read.getD object)) := by
  obtain ⟨same, rfl⟩ := served_getTask served
  obtain ⟨record, present, count⟩ := once.record
  rw [present] at same
  subst same
  have attempts : attemptsOf world' taskId = before + counted := by
    rw [attemptsOf, present]
    exact count
  have unsaved : ¬ Saves ⟨.getTask taskId, .ok (some record), world', world'⟩ := by
    rintro ⟨saved, ⟨⟩, _⟩
  have once' : ¬ CountedTwice (before + 1) (past ++ [⟨.getTask taskId, .ok (some record), world', world'⟩]) := by
    rw [CountedTwice, followed_snoc]
    rintro (twice | ⟨_, saves⟩)
    · exact once.unread (CountedTwice.readBack twice)
    · exact unsaved saves
  have again : Again taskId before { record with attempts := record.attempts + 1 }
      (past ++ [⟨.getTask taskId, .ok (some record), world', world'⟩]) world' := by
    refine ⟨once', counted, once.bound, ?_, attempts, ?_⟩
    · have reads : Reads ⟨.getTask taskId, .ok (some record), world', world'⟩ := ⟨taskId, record, _, _, rfl⟩
      rw [ReadBack, followed_snoc, once.persisted]
      constructor
      · rintro (readBack | ⟨one, _⟩)
        · exact absurd readBack once.unread
        · exact one
      · intro one
        exact .inr ⟨one, reads⟩
    · show record.attempts + 1 = before + counted + 1
      omega
  simp only [HandlingPhase.recovering, Option.getD_some]
  split_ifs
  · have bound := once.bound
    refine ⟨?_, ?_⟩
    · omega
    · constructor
      · intro twice
        exact absurd twice once'
      · intro same
        omega
  · exact again
  · exact again

/-- The save of the recovery path settles the account. -/
theorem Again.save {current saved : ReportTask} {reply : calls.Reply (.setTask saved)}
    (again : Again taskId before current past world) (served : Faulty (.setTask saved) world reply world')
    (own : saved.taskId = taskId) (count : saved.attempts = current.attempts) :
    Tallied taskId before (past ++ [⟨.setTask saved, reply, world, world'⟩]) world' := by
  obtain ⟨counted, bound, readBack, attempts, currents⟩ := again.counted
  by_cases effective : world' = world.after (.setTask saved)
  · have saves : Saves ⟨.setTask saved, reply, world, world'⟩ := ⟨saved, rfl, effective⟩
    have attempts' : attemptsOf world' taskId = before + counted + 1 := by
      rw [attemptsOf, effective, World.after_tasks]
      simp only [own, Function.update_self, Option.elim_some]
      omega
    constructor
    · omega
    · rw [CountedTwice, followed_snoc, readBack, attempts']
      constructor
      · rintro (twice | ⟨one, _⟩)
        · exact absurd twice again.once
        · omega
      · intro two
        exact .inr ⟨by omega, saves⟩
  · have lost : world' = world := (served_world served).resolve_right effective
    subst lost
    constructor
    · omega
    · rw [CountedTwice, followed_snoc]
      constructor
      · rintro (twice | ⟨_, _, _, took⟩)
        · exact absurd twice again.once
        · exact absurd took effective
      · intro two
        omega

/-- What every step of a handling keeps. -/
structure Accounts (taskId : TaskId) (before : ℕ) (past : Trace) (phase : HandlingPhase) (world : World) :
    Prop where
  keyed : world.Keyed
  own : phase.Holds fun task => task.taskId = taskId
  account : Account taskId before past world phase

variable {worker : Worker} {entry : ℕ} {phase phase' : HandlingPhase}

theorem Attempted.attempts_eq {task object : ReportTask} (attempted : Attempted worker task object) :
    object.attempts = task.attempts := by
  rcases attempted with rfl | ⟨_, selection, _, rfl⟩ <;> rfl

theorem account_orBroken {saved : ReportTask} (once : ∃ counted, Once taskId before counted past world)
    (rest : ∀ answer, reply = .ok answer → Account taskId before past world phase) :
    Account taskId before past world (orBroken reply saved phase) := by
  cases reply with
  | error error => exact once
  | ok answer => exact rest answer rfl

theorem account_orStopped (tallied : Tallied taskId before past world)
    (rest : Account taskId before past world phase) :
    Account taskId before past world (orStopped reply phase) := by
  cases reply with
  | error error => exact tallied
  | ok answer => exact rest

theorem tallied_nil (attempts : attemptsOf world taskId = before) : Tallied taskId before [] world := by
  constructor
  · omega
  · constructor
    · intro twice
      exact absurd twice followed_nil
    · intro same
      omega

theorem once_loaded {task : ReportTask} (served : Faulty (.getTask taskId) world (.ok (some task)) world')
    (attempts : attemptsOf world taskId = before) :
    Once taskId before 0 [⟨.getTask taskId, .ok (some task), world, world'⟩] world' ∧
      task.attempts = before := by
  obtain ⟨present, rfl⟩ := served_getTask served
  have count : task.attempts = before := by
    rw [attemptsOf, ← present] at attempts
    exact attempts
  have nothing : ¬ Persisted (before + 1) [⟨.getTask taskId, .ok (some task), world', world'⟩] := by
    rintro ⟨first, event, after, same, _, saved, call, _⟩
    cases first with
    | nil =>
      cases same
      cases call
    | cons step first =>
      cases first <;> cases same
  refine ⟨⟨by omega, ?_, ?_, task, present.symm, count⟩, count⟩
  · simp only [nothing, Nat.zero_ne_one]
  · intro readBack
    exact nothing readBack.persisted

/-- The recovery path takes over where the account is open. -/
theorem Interrupted.once {object : ReportTask} (interrupted : Interrupted worker phase object)
    (account : Account taskId before past world phase) : ∃ counted, Once taskId before counted past world := by
  cases interrupted with
  | broken => exact account
  | running => exact ⟨0, account.1⟩

/-- The step lemma, one case per call of a handling. -/
theorem Accounts.step (accounts : Accounts taskId before past phase world)
    (step : HandlingStep worker entry taskId phase call reply phase')
    (served : Faulty call world reply world') :
    Accounts taskId before (past ++ [⟨call, reply, world, world'⟩]) phase' world' := by
  have keyed' := served_keyed served accounts.keyed
  have own' := (step.keeps stable_taskId accounts.own (by
    intro task same
    cases same
    have read := (served_getTask served).1
    exact accounts.keyed taskId task read.symm)).1
  refine ⟨keyed', own', ?_⟩
  have account := accounts.account
  have own := accounts.own
  cases step with
  | missed =>
    obtain ⟨rfl, attempts⟩ := account
    exact (tallied_nil attempts).quiet served rfl
  | load task =>
    obtain ⟨rfl, attempts⟩ := account
    have loaded := once_loaded served attempts
    unfold HandlingPhase.entering
    split_ifs
    · exact loaded
    · exact loaded
  | unread error =>
    obtain ⟨rfl, attempts⟩ := account
    exact (tallied_nil attempts).quiet served rfl
  | start task saved reply legal result =>
    subst result
    have count : task.attempts = before + 0 := account.2
    obtain ⟨result, once, kept⟩ := account.1.save served (own task rfl) count (Nat.le_refl 0) (Nat.zero_le 1)
    refine account_orBroken ⟨result, once⟩ ?_
    intro answer answered
    exact ⟨kept answer answered ▸ once, account.2⟩
  | pipeline task stored call reply outside =>
    refine ⟨account.1.quiet served ?_ ?_, account.2⟩
    · cases call with
      | setTask => exact outside.elim
      | _ => rfl
    · cases call with
      | getTask => exact outside.elim
      | _ => rfl
  | complete task saved stored selection reply legal selects present result =>
    subst result
    have count : task.attempts = before + 0 := account.2
    obtain ⟨result, once, kept⟩ := account.1.save served (own task rfl) count (Nat.le_refl 0) (Nat.zero_le 1)
    refine account_orBroken ⟨result, once⟩ ?_
    intro answer answered
    obtain rfl := kept answer answered
    exact once
  | release original saved reply =>
    have once : Once taskId before 0 _ world' :=
      Once.quiet account served rfl rfl
    exact account_orBroken ⟨0, once⟩ fun _ _ => once
  | publish original saved filing path filed stored reply =>
    have once : Once taskId before 0 _ world' :=
      Once.quiet account served rfl rfl
    cases reply with
    | error error => exact once.tallied
    | ok answer =>
      simp only [HandlingPhase.bookkept]
      split_ifs
      · exact once
      · exact once.tallied
  | unpin original saved reply =>
    have once : Once taskId before 0 _ world' :=
      Once.quiet account served rfl rfl
    exact once.tallied
  | fail task object saved stored message spent reply legal attempted budget result =>
    subst result
    have bound : spent ≤ 1 := by omega
    have count : object.attempts + spent = before + spent := by rw [attempted.attempts_eq, account.2]
    obtain ⟨result, once, _⟩ := account.1.save served (attempted.taskId_eq.trans (own task rfl)) count
      (Nat.zero_le spent) bound
    exact account_orBroken ⟨result, once⟩ fun _ _ => ⟨result, once⟩
  | clear saved reply =>
    obtain ⟨counted, once⟩ := account
    have once := once.quiet served rfl rfl
    exact account_orBroken ⟨counted, once⟩ fun _ _ => once.tallied
  | retry task object saved stored message reply legal attempted budget result =>
    subst result
    have count : object.attempts + 1 = before + 1 := by rw [attempted.attempts_eq, account.2]
    obtain ⟨result, once, kept⟩ := account.1.save served (attempted.taskId_eq.trans (own task rfl)) count
      (Nat.zero_le 1) (Nat.le_refl 1)
    refine account_orBroken ⟨result, once⟩ ?_
    intro answer answered
    exact ⟨kept answer answered ▸ once, count⟩
  | requeue saved reply =>
    obtain ⟨result, once, kept⟩ := account.1.save served (own saved rfl) account.2 (Nat.le_refl 1) (Nat.le_refl 1)
    refine account_orBroken ⟨result, once⟩ ?_
    intro answer answered
    exact ⟨kept answer answered ▸ once, account.2⟩
  | measure saved reply depth read free =>
    exact ⟨account.1.quiet served rfl rfl, account.2⟩
  | overfull saved reply full =>
    exact ⟨1, account.1.quiet served rfl rfl⟩
  | enqueue saved reply =>
    have once := account.1.quiet served rfl rfl
    exact account_orBroken ⟨1, once⟩ fun _ _ => once.tallied
  | reread _ object read interrupted =>
    obtain ⟨counted, once⟩ := interrupted.once account
    exact once.read served
  | unrecovered _ object error interrupted =>
    obtain ⟨counted, once⟩ := interrupted.once account
    exact once.tallied.quiet served rfl
  | bury current saved message reply alive result =>
    subst result
    have tallied := Again.save account served (own current rfl) rfl
    exact account_orStopped tallied tallied
  | forget saved reply =>
    have tallied := Tallied.quiet account served rfl
    exact account_orStopped tallied tallied
  | count current reply => exact Again.save account served (own current rfl) rfl
  | ack reply =>
    have tallied := Tallied.quiet account served rfl
    exact account_orStopped tallied tallied
  | remove reply => exact Tallied.quiet account served rfl

end Steps

/-- One delivery raises the persisted counter by at most one, unless the recovery path counts on top of
an increment that `_fail_transiently` had persisted. -/
theorem attempt_counted_once (worker : Worker) (entry : ℕ) (fields : List (String × String))
    (world world' : World) (keyed : world.Keyed) (trace : Trace) (result : Except Err Unit × Unit)
    (execution : (worker.handleMessage entry fields ()).Executes Faulty world trace result world') :
    attemptsOf world' (handledId fields) ≤ attemptsOf world (handledId fields) + 1 ↔
      ¬ CountedTwice (attemptsOf world (handledId fields) + 1) trace := by
  have named : ∀ name, fieldsTaskId fields = some name → name = handledId fields := by
    intro name found
    simp only [handledId, found, Option.getD_some]
  have follows : Coroutine.Follows (HandlingStep worker entry (handledId fields))
      (worker.handleMessage entry fields) () (.initial fields) fun _ _ phase => phase = .stopped :=
    handleMessage_follows named
  have accounted : ∃ phase, phase = .stopped ∧
      Accounts (handledId fields) (attemptsOf world (handledId fields)) trace phase world' := by
    refine execution.invariant ?_ follows ⟨keyed, ?_, ?_⟩
    · intro past phase call reply phase' world world' step served accounts
      exact accounts.step step served
    · rcases HandlingPhase.initial_cases fields with initial | initial
      · exact holds_of_none (by rw [initial]; rfl)
      · exact holds_of_none (by rw [initial]; rfl)
    · rcases HandlingPhase.initial_cases fields with initial | initial
      · rw [initial]
        exact tallied_nil rfl
      · rw [initial]
        exact ⟨rfl, rfl⟩
  obtain ⟨phase, rfl, accounts⟩ := accounted
  have tallied : Tallied (handledId fields) (attemptsOf world (handledId fields)) trace world' := accounts.account
  have bound := tallied.bound
  rw [tallied.twice]
  omega

/-- SEC is overloaded. -/
def overloaded : Outside := { Sample.outside with submissions := fun _ => .error (.transientSec "SEC 503") }

theorem queued_keyed (year : ℤ) : (Sample.queued year).Keyed := by
  intro taskId task present
  by_cases same : taskId = "task-0"
  · subst same
    obtain rfl := Option.some.inj present
    rfl
  · have absent : (Sample.queued year).tasks taskId = none := Function.update_of_ne same _ _
    rw [absent] at present
    cases present

theorem answer_faulty (outside : Outside) (call : Call) (world : World) :
    Faulty call world (World.answer outside call world).1 (World.answer outside call world).2 :=
  .inl (World.reliable outside call world)

/-- With room in the queue a transient error costs one attempt. -/
theorem attempt_counted_once_retried : ∃ trace result world',
    ((Sample.worker 2).handleMessage 0 [("task_id", "task-0")] ()).Executes Faulty (Sample.queued 2024)
        trace result world' ∧
      attemptsOf world' "task-0" = 1 ∧
      (attemptsOf world' "task-0" ≤ attemptsOf (Sample.queued 2024) "task-0" + 1 ↔
        ¬ CountedTwice (attemptsOf (Sample.queued 2024) "task-0" + 1) trace) := by
  obtain ⟨trace, execution⟩ := Program.Executes.of_run (answer_faulty overloaded)
    ((Sample.worker 2).handleMessage 0 [("task_id", "task-0")] ()) (Sample.queued 2024)
  exact ⟨trace, _, _, execution, by decide +kernel,
    attempt_counted_once (Sample.worker 2) 0 [("task_id", "task-0")] (Sample.queued 2024) _
      (queued_keyed 2024) trace _ execution⟩

/-- With the queue full the retry is refused, and the delivery costs two. -/
theorem attempt_counted_twice : ∃ trace result world',
    ((Sample.worker 1).handleMessage 0 [("task_id", "task-0")] ()).Executes Faulty (Sample.queued 2024)
        trace result world' ∧
      ¬ attemptsOf world' "task-0" ≤ attemptsOf (Sample.queued 2024) "task-0" + 1 := by
  obtain ⟨trace, execution⟩ := Program.Executes.of_run (answer_faulty overloaded)
    ((Sample.worker 1).handleMessage 0 [("task_id", "task-0")] ()) (Sample.queued 2024)
  exact ⟨trace, _, _, execution, by decide +kernel⟩

end Quartr.Soundness
