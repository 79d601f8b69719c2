import Quartr.Machine.Script
import Quartr.Model.Batch
import Quartr.Soundness.Twins

/-! # One handling on its own

`_handle_message` guards `process_task` and the recovery after it, but not the load of the record and not
the acknowledgement of the entry. A handling one call of which raises returns normally exactly when that
call is made inside the `try` block.
-/

namespace Quartr.Soundness

open Quartr.Machine Quartr.Model

/-- The calls of a handling that is on its own, by their positions; the queue looks empty to it. -/
def scriptOf (circumstance : Circumstance) : Script calls World := fun made call world =>
  (unqueued call (circumstance.serve made call world).1, (circumstance.serve made call world).2)

/-- The handling of an entry on its own: how it ends, where it leaves the world, and the calls it has made. -/
def alone (worker : Worker) (circumstance : Circumstance) (world : World) (entry : StreamEntry) :
    (Except Err Unit × Unit) × World × Log calls :=
  (worker.handleMessage entry.id entry.fields ()).run (scriptOf circumstance).answer (world, [])

/-- The `try` block of `_handle_message` with its handler: whether the entry may be acknowledged. -/
def tryBlock (worker : Worker) (taskId : TaskId) (entry : ℕ) : Async ReportTask Bool :=
  tryCatch (do worker.processTask; return true) fun exc => do
    tryCatch (worker.recoverFromUnhandled taskId (← get) entry exc) fun _ => pure ()
    return false

theorem handleTask_eq (worker : Worker) (taskId : TaskId) (entry : ℕ) : worker.handleTask taskId entry =
    (tryBlock worker taskId entry >>= fun handled => if handled then Queue.ackAndRemove entry else pure ()) :=
  rfl

/-- The calls that a handling has made when the record is loaded. -/
def afterLoad (taskId : TaskId) (task : ReportTask) : Log calls := [⟨.getTask taskId, .ok (some task)⟩]

/-- The entry's fields name a task whose record is there, and the call is made after the record has been
loaded and before the entry is acknowledged: by `process_task`, or by the recovery. -/
def Sheltered (worker : Worker) (circumstance : Circumstance) (world : World) (entry : StreamEntry) (n : ℕ) : Prop :=
  ∃ taskId task, fieldsTaskId entry.fields = some taskId ∧ taskId ≠ "" ∧ world.tasks taskId = some task ∧ 1 ≤ n ∧
    n < ((tryBlock worker taskId entry.id task).run (scriptOf circumstance).answer
      (world, afterLoad taskId task)).2.2.length

section Handling

variable {σ : Type} {object : σ} {worker : Worker} {circumstance : Circumstance} {world : World} {log : Log calls}
  {state state' : World × Log calls} {entry : StreamEntry} {taskId : TaskId} {task : ReportTask} {n : ℕ}
  {error : CallError} {effect : Bool}

/-! ### Single calls -/

/-- A call that comes out well gets the world's answer. -/
theorem answered_at {call : Call} (well : circumstance.outcome log.length = .answered) :
    (scriptOf circumstance).answer call (world, log) =
      (unqueued call (world.reply circumstance.outside call), world.after call,
        log ++ [⟨call, unqueued call (world.reply circumstance.outside call)⟩]) := by
  simp only [Script.answer, scriptOf, Circumstance.serve, World.answerAs, well, World.answer]

/-- A call that does not raises, whether or not it took effect. -/
theorem raised_at {call : Call} (badly : circumstance.outcome log.length = .raised error effect) :
    ((scriptOf circumstance).answer call (world, log)).1 = .error error := by
  simp only [Script.answer, scriptOf, Circumstance.serve, World.answerAs, badly]
  exact unqueued_error call error

theorem raiseAt_self : (circumstance.raiseAt n error effect).outcome n = .raised error effect :=
  Function.update_self ..

theorem raiseAt_of_ne {made : ℕ} (differs : made ≠ n) :
    (circumstance.raiseAt n error effect).outcome made = circumstance.outcome made :=
  Function.update_of_ne differs ..

theorem scriptOf_raiseAt {made : ℕ} (differs : made ≠ n) :
    scriptOf (circumstance.raiseAt n error effect) made = scriptOf circumstance made := by
  unfold scriptOf Circumstance.serve
  rw [raiseAt_of_ne differs]
  rfl

/-- A call of the handling on its own. -/
theorem run_await {α : Type} {call : Call} {next : calls.Reply call → Program calls α} :
    (Program.await call next).run (scriptOf circumstance).answer (world, log) =
      (next (unqueued call (world.answerAs circumstance.outside (circumstance.outcome log.length) call).1)).run
        (scriptOf circumstance).answer
        ((world.answerAs circumstance.outside (circumstance.outcome log.length) call).2, log ++
          [⟨call, unqueued call (world.answerAs circumstance.outside (circumstance.outcome log.length) call).1⟩]) :=
  rfl

/-! ### The acknowledgement -/

theorem length_snoc (served : Σ call, calls.Reply call) : (log ++ [served]).length = log.length + 1 := by
  rw [List.length_append, List.length_singleton]

theorem ack_answered (entry : ℕ) (well : circumstance.outcome log.length = .answered)
    (well' : circumstance.outcome (log.length + 1) = .answered) : ∃ state : World × Log calls,
    Coroutine.Runs (scriptOf circumstance).answer (Queue.ackAndRemove entry) object (world, log) (.ok ()) object state ∧
      state.2.length = log.length + 2 := by
  rw [← length_snoc ⟨.xack entry, .ok ()⟩] at well'
  refine ⟨_, .bind (.answered (answered_at well)) (.answered (answered_at well')), ?_⟩
  rw [length_snoc, length_snoc]

/-- Nothing guards the acknowledgement. -/
theorem ack_raises (entry : ℕ) (calm : circumstance.Calm) (reached : log.length ≤ n) (made : n < log.length + 2) :
    ∃ state, Coroutine.Runs (scriptOf (circumstance.raiseAt n error effect)).answer (Queue.ackAndRemove entry) object
      (world, log) (.error (.call error)) object state := by
  by_cases first : n = log.length
  · subst first
    exact ⟨_, .bind_error (.await_error (raised_at raiseAt_self))⟩
  · have second := @length_snoc log ⟨.xack entry, .ok ()⟩
    obtain rfl : n = (log ++ [(⟨.xack entry, .ok ()⟩ : Σ call, calls.Reply call)]).length := by omega
    have well := @raiseAt_of_ne circumstance _ error effect log.length (Ne.symm first)
    rw [calm log.length] at well
    exact ⟨_, .bind (.answered (answered_at well)) (.await_error (raised_at raiseAt_self))⟩

/-! ### The whole handling -/

/-- Whatever is raised, the `try` block is left normally. -/
theorem tryBlock_returns (script : Script calls World) (taskId : TaskId) (entry : ℕ) (task : ReportTask)
    (state : World × Log calls) : ∃ handled task' state',
      Coroutine.Runs script.answer (tryBlock worker taskId entry) task state (.ok handled) task' state' := by
  obtain ⟨result, task', state', processed⟩ := Coroutine.Runs.total script.answer worker.processTask task state
  cases result with
  | ok done => exact ⟨true, task', state', .tryCatch (.bind processed .pure)⟩
  | error exc =>
    obtain ⟨recovery, task'', state'', recovered⟩ := Coroutine.Runs.total script.answer
      (worker.recoverFromUnhandled taskId task' entry exc) task' state'
    refine ⟨false, task'', state'', .caught (.bind_error processed) (.bind .get ?_)⟩
    cases recovery with
    | ok done => exact .bind (.tryCatch recovered) .pure
    | error failure => exact .bind (.caught recovered .pure) .pure

/-- The handling of an entry whose record is loaded, up to the end of the `try` block. -/
theorem handling_loaded (named : fieldsTaskId entry.fields = some taskId) (nonempty : taskId ≠ "")
    (present : world.tasks taskId = some task) (well : circumstance.outcome 0 = .answered) {handled : Bool}
    {task' : ReportTask} {state'' : World × Log calls} {result : Except Err Unit}
    (block : Coroutine.Runs (scriptOf circumstance).answer (tryBlock worker taskId entry.id) task
      (world, afterLoad taskId task) (.ok handled) task' state')
    (rest : Coroutine.Runs (scriptOf circumstance).answer (if handled then Queue.ackAndRemove entry.id else pure ())
      task' state' result task' state'') :
    Coroutine.Runs (scriptOf circumstance).answer (worker.handleMessage entry.id entry.fields) () (world, [])
      result () state'' := by
  have loads : (scriptOf circumstance).answer (.getTask taskId) (world, []) =
      (.ok (some task), world, afterLoad taskId task) := by
    rw [answered_at well, ← present]
    simp only [unqueued, World.reply, present]
    rfl
  have whole : Coroutine.Runs (scriptOf circumstance).answer (worker.handleTask taskId entry.id) task
      (world, afterLoad taskId task) result task' state'' := by
    rw [handleTask_eq]
    exact .bind block rest
  unfold Worker.handleMessage
  simp only [named, nonempty, ↓reduceIte]
  apply Coroutine.Runs.bind (.answered loads)
  cases result with
  | ok done => exact .bind (.own whole) .pure
  | error exc => exact .bind_error (.own_error whole)

/-- A call that raises inside the `try` block leaves the handling as a whole intact. -/
theorem sheltered_returns (calm : circumstance.Calm) (sheltered : Sheltered worker circumstance world entry n) :
    (alone worker (circumstance.raiseAt n error effect) world entry).1.1 = .ok () := by
  obtain ⟨taskId, task, named, nonempty, present, later, within⟩ := sheltered
  have well {made : ℕ} (differs : made ≠ n) : (circumstance.raiseAt n error effect).outcome made = .answered :=
    (raiseAt_of_ne differs).trans (calm made)
  obtain ⟨handled, task', ⟨world', log'⟩, block⟩ := @tryBlock_returns worker
    (scriptOf (circumstance.raiseAt n error effect)) taskId entry.id task (world, afterLoad taskId task)
  have reached : n < log'.length := by
    have reached := Script.run_reaches (fun k => @scriptOf_raiseAt circumstance n error effect k) within
    rw [block] at reached
    exact reached
  have rest : ∃ state, Coroutine.Runs (scriptOf (circumstance.raiseAt n error effect)).answer
      (if handled then Queue.ackAndRemove entry.id else pure ()) task' (world', log') (.ok ()) task' state := by
    cases handled with
    | false => exact ⟨_, .pure⟩
    | true =>
      obtain ⟨state, acked, _⟩ := @ack_answered _ task' _ world' log' entry.id (well (by omega)) (well (by omega))
      exact ⟨state, acked⟩
  obtain ⟨state, rest⟩ := rest
  have whole := handling_loaded named nonempty present (well (by omega)) block rest
  rw [alone, whole]

/-- An entry that names no task is only acknowledged. -/
theorem handling_nameless (nameless : ∀ taskId, fieldsTaskId entry.fields = some taskId → taskId = "") :
    worker.handleMessage entry.id entry.fields = Queue.ackAndRemove entry.id := by
  unfold Worker.handleMessage
  cases named : fieldsTaskId entry.fields with
  | none => rfl
  | some taskId => simp only [nameless taskId named, ↓reduceIte]

/-- So is one whose record is not there. -/
theorem handling_missing (named : fieldsTaskId entry.fields = some taskId) (nonempty : taskId ≠ "")
    (missing : world.tasks taskId = none) (well : circumstance.outcome 0 = .answered) {result : Except Err Unit}
    (rest : Coroutine.Runs (scriptOf circumstance).answer (Queue.ackAndRemove entry.id) ()
      (world, [⟨.getTask taskId, .ok none⟩]) result () state) :
    Coroutine.Runs (scriptOf circumstance).answer (worker.handleMessage entry.id entry.fields) () (world, [])
      result () state := by
  have loads : (scriptOf circumstance).answer (.getTask taskId) (world, []) =
      (.ok none, world, [⟨.getTask taskId, .ok none⟩]) := by
    rw [answered_at well]
    simp only [unqueued, World.reply, missing]
    rfl
  unfold Worker.handleMessage
  simp only [named, nonempty, ↓reduceIte]
  exact .bind (.answered loads) rest

/-- One that raises outside of it leaves the handling. -/
theorem unsheltered_escapes (calm : circumstance.Calm)
    (made : n < (alone worker circumstance world entry).2.2.length)
    (unsheltered : ¬ Sheltered worker circumstance world entry n) :
    (alone worker (circumstance.raiseAt n error effect) world entry).1.1 = .error (.call error) := by
  have base {result : Except Err Unit} {state : World × Log calls} (runs : Coroutine.Runs (scriptOf circumstance).answer
      (worker.handleMessage entry.id entry.fields) () (world, []) result () state) : n < state.2.length := by
    rw [alone, runs] at made
    exact made
  suffices escapes : ∃ state, Coroutine.Runs (scriptOf (circumstance.raiseAt n error effect)).answer
      (worker.handleMessage entry.id entry.fields) () (world, []) (.error (.call error)) () state by
    obtain ⟨state, escapes⟩ := escapes
    rw [alone, escapes]
  by_cases nameless : ∀ taskId, fieldsTaskId entry.fields = some taskId → taskId = ""
  · rw [handling_nameless nameless] at base ⊢
    obtain ⟨state, acked, length⟩ := @ack_answered _ () circumstance world [] entry.id (calm _) (calm _)
    exact ack_raises entry.id calm (Nat.zero_le n) (length ▸ base acked)
  simp only [not_forall] at nameless
  obtain ⟨taskId, named, nonempty⟩ := nameless
  by_cases first : n = 0
  · subst first
    unfold Worker.handleMessage
    simp only [named, nonempty, ↓reduceIte]
    exact ⟨_, .bind_error (.await_error (raised_at raiseAt_self))⟩
  have well : (circumstance.raiseAt n error effect).outcome 0 = .answered :=
    (raiseAt_of_ne (Ne.symm first)).trans (calm 0)
  cases present : world.tasks taskId with
  | none =>
    obtain ⟨state, acked, length⟩ := @ack_answered _ () circumstance world [⟨.getTask taskId, .ok none⟩] entry.id
      (calm _) (calm _)
    have below := base (handling_missing named nonempty present (calm 0) acked)
    obtain ⟨state', escapes⟩ := @ack_raises _ () circumstance world [⟨.getTask taskId, .ok none⟩] n error effect
      entry.id calm (Nat.one_le_iff_ne_zero.mpr first) (length ▸ below)
    exact ⟨state', handling_missing named nonempty present well escapes⟩
  | some task =>
    obtain ⟨handled, task', ⟨world', log'⟩, block⟩ := @tryBlock_returns worker (scriptOf circumstance) taskId entry.id
      task (world, afterLoad taskId task)
    have beyond : log'.length ≤ n := by
      by_contra within
      apply unsheltered
      refine ⟨taskId, task, named, nonempty, present, by omega, ?_⟩
      rw [block]
      exact Nat.lt_of_not_le within
    -- The block does not reach the call that raises, and so goes on as before.
    have block' : Coroutine.Runs (scriptOf (circumstance.raiseAt n error effect)).answer
        (tryBlock worker taskId entry.id) task (world, afterLoad taskId task) (.ok handled) task' (world', log') := by
      refine (Script.run_congr ?_).trans block
      intro k _ below
      rw [block] at below
      exact scriptOf_raiseAt (Nat.ne_of_lt (Nat.lt_of_lt_of_le below beyond))
    cases handled with
    | false => exact absurd (base (handling_loaded named nonempty present (calm 0) block .pure)) (Nat.not_lt.mpr beyond)
    | true =>
      obtain ⟨state, acked, length⟩ := @ack_answered _ task' circumstance world' log' entry.id (calm _) (calm _)
      have below := base (handling_loaded named nonempty present (calm 0) block acked)
      obtain ⟨state', escapes⟩ := @ack_raises _ task' circumstance world' log' n error effect entry.id calm beyond
        (length ▸ below)
      exact ⟨state', handling_loaded named nonempty present well block' escapes⟩

end Handling

/-! ### Handlings that nothing escapes from -/

/-- The load of a record or an acknowledgement is answered; of other calls nothing is said. -/
def Heard : (call : Call) → calls.Reply call → Prop
  | .getTask _, reply => ∃ answer, reply = .ok answer
  | .xack _, reply => ∃ answer, reply = .ok answer
  | .xdel _, reply => ∃ answer, reply = .ok answer
  | _, _ => True

/-- As long as loads and acknowledgements are answered, the program ends so. -/
def Settles {α : Type} (post : α → Prop) : Program calls α → Prop
  | .done value => post value
  | .await call next => ∀ reply, Heard call reply → Settles post (next reply)

/-- As long as they are, the body returns normally. -/
def Returns {α σ : Type} (program : Program calls (Except Err α × σ)) : Prop :=
  Settles (fun result => ∃ value, result.1 = .ok value) program

section Returns

variable {α β σ τ : Type} {object : σ} {worker : Worker} {taskId : TaskId} {entry : ℕ} {task : ReportTask}

theorem settles_any (program : Program calls α) : Settles (fun _ => True) program := by
  induction program with
  | done value => trivial
  | await call next ih => exact fun reply _ => ih reply

theorem settles_bind {mid : β → Prop} {post : α → Prop} {first : Program calls β} {rest : β → Program calls α}
    (settles : Settles mid first) (later : ∀ value, mid value → Settles post (rest value)) :
    Settles post (first.bind rest) := by
  induction first with
  | done value => exact later value settles
  | await call next ih => exact fun reply heard => ih reply (settles reply heard)

theorem returns_bind {first : Async σ β} {rest : β → Async σ α} (returns : Returns (first object))
    (later : ∀ value object', Returns (rest value object')) : Returns ((first >>= rest) object) := by
  apply settles_bind returns
  rintro ⟨_, object'⟩ ⟨value, ⟨⟩⟩
  exact later value object'

/-- A body may raise anything for which there is a handler. -/
theorem returns_tryCatch {body : Async σ α} {handler : Err → Async σ α}
    (later : ∀ error object', Returns (handler error object')) : Returns (tryCatch body handler object) := by
  apply settles_bind (settles_any (body object))
  rintro ⟨error | value, object'⟩ _
  · exact later error object'
  · exact ⟨value, rfl⟩

theorem returns_get {rest : σ → Async σ α} (returns : Returns (rest object object)) :
    Returns ((get >>= rest) object) := returns

theorem returns_own {inner : τ} {body : Async τ α} (returns : Returns (body inner)) :
    Returns ((Coroutine.own inner body : Async σ (α × τ)) object) := by
  apply settles_bind returns
  rintro ⟨_, inner'⟩ ⟨value, ⟨⟩⟩
  exact ⟨_, rfl⟩

theorem returns_pure {value : α} : Returns ((pure value : Async σ α) object) := ⟨value, rfl⟩

theorem returns_tryBlock : Returns (tryBlock worker taskId entry task) := by
  apply returns_tryCatch
  intro error object'
  apply returns_get
  exact returns_bind (returns_tryCatch fun _ _ => returns_pure) fun _ _ => returns_pure

theorem returns_ack : Returns (Queue.ackAndRemove entry object) := by
  rintro reply ⟨answer, rfl⟩ reply' ⟨answer', rfl⟩
  exact ⟨_, rfl⟩

/-- A handling whose load and acknowledgement are answered returns normally. -/
theorem returns_handleMessage (worker : Worker) (entry : ℕ) (fields : List (String × String)) :
    Returns (worker.handleMessage entry fields ()) := by
  unfold Worker.handleMessage
  cases fieldsTaskId fields with
  | none => exact returns_ack
  | some taskId =>
    by_cases nameless : taskId = ""
    · simp only [nameless, ↓reduceIte]
      exact returns_ack
    simp only [nameless, ↓reduceIte]
    rintro reply ⟨found, rfl⟩
    cases found with
    | none => exact returns_ack
    | some task =>
      have handles : Returns (worker.handleTask taskId entry task) := by
        rw [handleTask_eq]
        apply returns_bind returns_tryBlock
        intro handled task'
        cases handled with
        | false => exact returns_pure
        | true => exact returns_ack
      exact returns_bind (returns_own handles) fun _ _ => returns_pure

/-- The world answers loads and acknowledgements. -/
theorem heard_reply (world : World) (outside : Outside) (call : Call) : Heard call (world.reply outside call) := by
  cases call with
  | getTask taskId => exact ⟨_, rfl⟩
  | xack entry => exact ⟨_, rfl⟩
  | xdel entry => exact ⟨_, rfl⟩
  | _ => trivial

end Returns

end Quartr.Soundness
