import Mathlib.Tactic.SplitIfs
import Quartr.Model.Worker
import Quartr.Soundness.Rules

/-! # The phases of a handling

`HandlingStep` lists every call `_handle_message` can make, with the records it saves and where
each reply leads. A phase says what the handling holds in memory: the copy it read, the record it
saved, the paths it has seen to exist. `handleMessage_follows` shows that the code never does
anything else, whatever is replied.
-/

namespace Quartr.Soundness

open Quartr.Machine Quartr.Model
open Quartr.Machine.Coroutine (Follows follows_bind follows_tryCatch follows_own)

/-- Where a handling stands. -/
inductive HandlingPhase where
  | fresh
  | loaded (task : ReportTask)
  | running (task : ReportTask) (stored : List String)
  | completed (original : ReportIdentity) (saved : ReportTask)
  | released (original : ReportIdentity) (saved : ReportTask)
  | published (original : ReportIdentity) (saved : ReportTask)
  | failed (saved : ReportTask)
  | retrying (saved : ReportTask)
  | queued (saved : ReportTask)
  | measured (saved : ReportTask)
  | broken (task : ReportTask)
  | dying (current : ReportTask)
  | buried (saved : ReportTask)
  | counting (current : ReportTask)
  | finished
  | acked
  | stopped

/-- Before the task is read; an entry that names no task is only acknowledged. -/
def HandlingPhase.initial (fields : List (String × String)) : HandlingPhase :=
  match fieldsTaskId fields with
  | none => .finished
  | some taskId => if taskId = "" then .finished else .fresh

theorem HandlingPhase.initial_cases (fields : List (String × String)) :
    HandlingPhase.initial fields = .finished ∨ HandlingPhase.initial fields = .fresh := by
  unfold HandlingPhase.initial
  split
  · exact .inl rfl
  · split_ifs
    · exact .inl rfl
    · exact .inr rfl

/-- A loaded task is saved as PROCESSING where the table allows it, and processed anyway. -/
def HandlingPhase.entering (task : ReportTask) : HandlingPhase :=
  if canTransition task.state .processing then .loaded task else .running task []

/-- The recovery path on the copy it works with. -/
def HandlingPhase.recovering (settings : Settings) (task : ReportTask) : HandlingPhase :=
  let current := { task with attempts := task.attempts + 1 }
  if current.state = .completed then .finished
  else if settings.retryMaxAttempts ≤ current.attempts then .dying current
  else .counting current

/-- After publication the sentinel's pointer is released if the path was resolved on the way. -/
def HandlingPhase.bookkept (original : ReportIdentity) (saved : ReportTask) : HandlingPhase :=
  if saved.identity.logicalPath ≠ original.logicalPath then .published original saved
  else .finished

/-- The calls of the pipeline, none of which reaches Redis. -/
def PipelineCall : Call → Prop
  | .getSubmissions _ => True
  | .downloadDocument _ => True
  | .convertToPdf _ _ _ => True
  | .pathExists _ => True
  | .makedirs _ => True
  | .openTruncate path => ∃ target, path = ArtifactStore.tmpPath target
  | .writeFile _ _ => True
  | .replace source target => source = ArtifactStore.tmpPath target
  | _ => False

/-- The paths a reply shows to exist. -/
def shown : (call : Call) → calls.Reply call → List String
  | .pathExists path, .ok true => [path]
  | .replace _ target, .ok () => [target]
  | _, _ => []

/-- The pipeline on its own, with the paths seen to exist. -/
inductive PipelineStep : Protocol calls (List String)
  | call (stored : List String) (call : Call) (reply : calls.Reply call) (outside : PipelineCall call) :
      PipelineStep stored call reply (shown call reply ++ stored)

/-- The record of a success. -/
def completedRecord (task : ReportTask) (selection : Selection) : ReportTask :=
  { task with
    identity := selection.identity
    state := .completed
    filing := some selection.filing
    artifactPath := some selection.paths.pdfPath }

/-- The pipeline of this worker can select this for the task. -/
def Selects (worker : Worker) (task : ReportTask) (selection : Selection) : Prop :=
  ∃ company payload, worker.resolveFiling company task payload = .ok selection

/-- The object when the pipeline has raised: as loaded, or with the resolved identity if it was
COMPLETED that the table did not allow. -/
def Attempted (worker : Worker) (task object : ReportTask) : Prop :=
  object = task ∨ canTransition task.state .completed = false ∧
    ∃ selection, Selects worker task selection ∧ object = { task with identity := selection.identity }

/-- Where the recovery path takes over, and with which object. -/
inductive Interrupted (worker : Worker) : HandlingPhase → ReportTask → Prop
  | broken (task : ReportTask) (spent : ℕ) (once : spent ≤ 1) :
      Interrupted worker (.broken task) { task with attempts := task.attempts + spent }
  | running (task object : ReportTask) (stored : List String) (spent : ℕ)
      (attempted : Attempted worker task object) (irregular : task.state ≠ .processing)
      (once : spent ≤ 1) :
      Interrupted worker (.running task stored) { object with attempts := object.attempts + spent }

/-- What the phase after a save is, by the save's reply. -/
def orBroken {call : Call} (reply : calls.Reply call) (saved : ReportTask) (phase : HandlingPhase) :
    HandlingPhase :=
  match reply with
  | .ok _ => phase
  | .error _ => .broken saved

/-- What the phase after a step of the recovery or of the acknowledgement is. -/
def orStopped {call : Call} (reply : calls.Reply call) (phase : HandlingPhase) : HandlingPhase :=
  match reply with
  | .ok _ => phase
  | .error _ => .stopped

inductive HandlingStep (worker : Worker) (entry : ℕ) (taskId : TaskId) : Protocol calls HandlingPhase
  | missed : HandlingStep worker entry taskId .fresh (.getTask taskId) (.ok none) .finished
  | load (task : ReportTask) :
      HandlingStep worker entry taskId .fresh (.getTask taskId) (.ok (some task)) (.entering task)
  | unread (error : CallError) :
      HandlingStep worker entry taskId .fresh (.getTask taskId) (.error error) .stopped
  | start (task saved : ReportTask) (reply : calls.Reply (.setTask saved))
      (legal : canTransition task.state .processing = true)
      (result : saved = { task with state := .processing }) :
      HandlingStep worker entry taskId (.loaded task) (.setTask saved) reply
        (orBroken reply saved (.running saved []))
  | pipeline (task : ReportTask) (stored : List String) (call : Call) (reply : calls.Reply call)
      (outside : PipelineCall call) :
      HandlingStep worker entry taskId (.running task stored) call reply
        (.running task (shown call reply ++ stored))
  | complete (task saved : ReportTask) (stored : List String) (selection : Selection)
      (reply : calls.Reply (.setTask saved)) (legal : canTransition task.state .completed = true)
      (selects : Selects worker task selection) (present : selection.paths.pdfPath ∈ stored)
      (result : saved = completedRecord task selection) :
      HandlingStep worker entry taskId (.running task stored) (.setTask saved) reply
        (orBroken reply saved (.completed task.identity saved))
  | release (original : ReportIdentity) (saved : ReportTask)
      (reply : calls.Reply (.deletePending saved.pendingKey)) :
      HandlingStep worker entry taskId (.completed original saved) (.deletePending saved.pendingKey)
        reply (orBroken reply saved (.released original saved))
  | publish (original : ReportIdentity) (saved : ReportTask) (filing : FilingIdentity) (path : String)
      (filed : saved.filing = some filing) (stored : saved.artifactPath = some path)
      (reply : calls.Reply (.hsetLogical (logicalKey saved.identity.logicalPath saved.includeAmended)
        ⟨filing.accessionNumber, path, filing.cik⟩)) :
      HandlingStep worker entry taskId (.released original saved)
        (.hsetLogical (logicalKey saved.identity.logicalPath saved.includeAmended)
          ⟨filing.accessionNumber, path, filing.cik⟩) reply
        (match reply with
          | .ok _ => .bookkept original saved
          | .error _ => .finished)
  | unpin (original : ReportIdentity) (saved : ReportTask)
      (reply : calls.Reply (.deletePending (pendingTaskKey original.logicalPath saved.includeAmended))) :
      HandlingStep worker entry taskId (.published original saved)
        (.deletePending (pendingTaskKey original.logicalPath saved.includeAmended)) reply .finished
  | fail (task object saved : ReportTask) (stored : List String) (message : String) (spent : ℕ)
      (reply : calls.Reply (.setTask saved)) (legal : canTransition task.state .failed = true)
      (attempted : Attempted worker task object)
      (budget : spent = 0 ∨
        spent = 1 ∧ worker.settings.retryMaxAttempts ≤ object.attempts + 1)
      (result : saved = { object with
        state := .failed, error := some message, attempts := object.attempts + spent }) :
      HandlingStep worker entry taskId (.running task stored) (.setTask saved) reply
        (orBroken reply saved (.failed saved))
  | clear (saved : ReportTask) (reply : calls.Reply (.deletePending saved.pendingKey)) :
      HandlingStep worker entry taskId (.failed saved) (.deletePending saved.pendingKey) reply
        (orBroken reply saved .finished)
  | retry (task object saved : ReportTask) (stored : List String) (message : String)
      (reply : calls.Reply (.setTask saved)) (legal : canTransition task.state .retrying = true)
      (attempted : Attempted worker task object)
      (budget : object.attempts + 1 < worker.settings.retryMaxAttempts)
      (result : saved = { object with
        state := .retrying, error := some message, attempts := object.attempts + 1 }) :
      HandlingStep worker entry taskId (.running task stored) (.setTask saved) reply
        (orBroken reply saved (.retrying saved))
  | requeue (saved : ReportTask) (reply : calls.Reply (.setTask { saved with state := .queued })) :
      HandlingStep worker entry taskId (.retrying saved) (.setTask { saved with state := .queued })
        reply (orBroken reply { saved with state := .queued } (.queued { saved with state := .queued }))
  | measure (saved : ReportTask) (reply : calls.Reply .xlen) (depth : ℕ)
      (read : depthOf reply = .ok depth) (free : depth < worker.settings.maxQueueDepth) :
      HandlingStep worker entry taskId (.queued saved) .xlen reply (.measured saved)
  | overfull (saved : ReportTask) (reply : calls.Reply .xlen)
      (full : ∀ depth, depthOf reply = .ok depth → worker.settings.maxQueueDepth ≤ depth) :
      HandlingStep worker entry taskId (.queued saved) .xlen reply (.broken saved)
  | enqueue (saved : ReportTask) (reply : calls.Reply (.xadd saved.taskId)) :
      HandlingStep worker entry taskId (.measured saved) (.xadd saved.taskId) reply
        (orBroken reply saved .finished)
  | reread (phase : HandlingPhase) (object : ReportTask) (read : Option ReportTask)
      (interrupted : Interrupted worker phase object) :
      HandlingStep worker entry taskId phase (.getTask taskId) (.ok read)
        (.recovering worker.settings (read.getD object))
  | unrecovered (phase : HandlingPhase) (object : ReportTask) (error : CallError)
      (interrupted : Interrupted worker phase object) :
      HandlingStep worker entry taskId phase (.getTask taskId) (.error error) .stopped
  | bury (current saved : ReportTask) (message : String) (reply : calls.Reply (.setTask saved))
      (alive : current.state ≠ .completed)
      (result : saved = { current with state := .failed, error := some message }) :
      HandlingStep worker entry taskId (.dying current) (.setTask saved) reply
        (orStopped reply (.buried saved))
  | forget (saved : ReportTask) (reply : calls.Reply (.deletePending saved.pendingKey)) :
      HandlingStep worker entry taskId (.buried saved) (.deletePending saved.pendingKey) reply
        (orStopped reply .finished)
  | count (current : ReportTask) (reply : calls.Reply (.setTask current)) :
      HandlingStep worker entry taskId (.counting current) (.setTask current) reply .stopped
  | ack (reply : calls.Reply (.xack entry)) :
      HandlingStep worker entry taskId .finished (.xack entry) reply (orStopped reply .acked)
  | remove (reply : calls.Reply (.xdel entry)) :
      HandlingStep worker entry taskId .acked (.xdel entry) reply .stopped

section Follows

variable {worker : Worker} {entry : ℕ} {taskId : TaskId}

theorem Attempted.state_eq {task object : ReportTask} (attempted : Attempted worker task object) :
    object.state = task.state := by
  rcases attempted with rfl | ⟨_, selection, _, rfl⟩ <;> rfl

theorem Attempted.taskId_eq {task object : ReportTask} (attempted : Attempted worker task object) :
    object.taskId = task.taskId := by
  rcases attempted with rfl | ⟨_, selection, _, rfl⟩ <;> rfl

/-- From PROCESSING a transition to COMPLETED is legal, so a pipeline that raised has left the object
as it was. -/
theorem Attempted.eq_of_processing {task object : ReportTask} (attempted : Attempted worker task object)
    (processing : task.state = .processing) : object = task := by
  apply attempted.resolve_right
  rintro ⟨illegal, _⟩
  rw [processing] at illegal
  cases illegal

/-- How `process_task` ends: with the outcome persisted, or raising towards the recovery path. -/
def Processed (worker : Worker) (result : Except Err Unit) (object : ReportTask)
    (phase : HandlingPhase) : Prop :=
  match result with
  | .ok _ => phase = .finished
  | .error _ => Interrupted worker phase object

/-- How the `try` block of `process_task` raises: before anything was saved as COMPLETED, or after
the object became COMPLETED. -/
inductive Raised (worker : Worker) : HandlingPhase → ReportTask → Prop
  | running (task object : ReportTask) (stored : List String)
      (attempted : Attempted worker task object) : Raised worker (.running task stored) object
  | broken (object : ReportTask) (done : object.state = .completed) :
      Raised worker (.broken object) object

theorem follows_write {σ : Type} {object : σ} {stored : List String} {path : String} {data : Bytes}
    {post : Except Err Unit → σ → List String → Prop} (written : post (.ok ()) object (path :: stored))
    (raised : ∀ error, post (.error error) object stored) :
    Follows PipelineStep (ArtifactStore.atomicWrite path data) object stored post := by
  refine follows_bind.mpr (follows_call.mpr ?_)
  rintro (error | descriptor)
  · exact ⟨_, .call stored _ _ ⟨path, rfl⟩, raised _⟩
  · refine ⟨_, .call stored _ _ ⟨path, rfl⟩, follows_bind.mpr (follows_call.mpr ?_)⟩
    rintro (error | _)
    · exact ⟨_, .call stored _ _ trivial, raised _⟩
    · refine ⟨_, .call stored _ _ trivial, follows_call.mpr ?_⟩
      rintro (error | _)
      · exact ⟨_, .call stored _ _ rfl, raised _⟩
      · exact ⟨_, .call stored _ _ rfl, written⟩

/-- After `obtainArtifact` the PDF of the selection has been seen to exist. -/
theorem obtainArtifact_follows {σ : Type} {object : σ} {selection : Selection} :
    Follows PipelineStep (worker.obtainArtifact selection) object []
      (fun result object' stored => object' = object ∧
        (result.isOk = true → selection.paths.pdfPath ∈ stored)) := by
  refine follows_bind.mpr (follows_call.mpr ?_)
  rintro (error | _ | _)
  · exact ⟨_, .call [] _ _ trivial, rfl, nofun⟩
  · refine ⟨_, .call [] _ _ trivial, follows_bind.mpr (follows_call.mpr ?_)⟩
    rintro (error | document)
    · exact ⟨_, .call [] _ _ trivial, rfl, nofun⟩
    refine ⟨_, .call [] _ _ trivial, follows_bind.mpr (follows_call.mpr ?_)⟩
    rintro (error | pdfBytes)
    · exact ⟨_, .call [] _ _ trivial, rfl, nofun⟩
    refine ⟨_, .call [] _ _ trivial, follows_bind.mpr (Coroutine.follows_lift.mpr ?_)⟩
    cases Worker.validatePdf pdfBytes with
    | error error => exact ⟨rfl, nofun⟩
    | ok valid =>
      refine follows_bind.mpr (follows_call.mpr ?_)
      rintro (error | _)
      · exact ⟨_, .call [] _ _ trivial, rfl, nofun⟩
      -- The three files in turn; the second is the PDF.
      refine ⟨_, .call [] _ _ trivial, follows_bind.mpr (follows_write ?_ ?_)⟩
      · refine follows_bind.mpr (follows_write ?_ ?_)
        · refine follows_write ?_ ?_
          · exact ⟨rfl, fun _ => List.mem_cons_of_mem _ (List.mem_cons_self ..)⟩
          · exact fun error => ⟨rfl, nofun⟩
        · exact fun error => ⟨rfl, nofun⟩
      · exact fun error => ⟨rfl, nofun⟩
  · exact ⟨_, .call [] _ _ trivial, rfl, fun _ => List.mem_cons_self ..⟩

/-- The pipeline leaves the task alone; a selection it returns has its PDF stored. -/
theorem producePdf_follows {task : ReportTask} :
    Follows PipelineStep worker.producePdf task []
      (fun result object stored => object = task ∧ ∀ selection, result = .ok selection →
        Selects worker task selection ∧ selection.paths.pdfPath ∈ stored) := by
  refine follows_bind.mpr (Coroutine.follows_get.mpr (follows_bind.mpr (Coroutine.follows_lift.mpr ?_)))
  cases worker.cikMapping.resolve task.identity.ticker with
  | error error => exact ⟨rfl, nofun⟩
  | ok company =>
    refine follows_bind.mpr (follows_call.mpr ?_)
    rintro (error | _ | payload)
    · exact ⟨_, .call [] _ _ trivial, rfl, nofun⟩
    · exact ⟨_, .call [] _ _ trivial, rfl, nofun⟩
    refine ⟨_, .call [] _ _ trivial, follows_bind.mpr (Coroutine.follows_get.mpr
      (follows_bind.mpr (Coroutine.follows_lift.mpr ?_)))⟩
    cases resolved : worker.resolveFiling company task payload with
    | error error => exact ⟨rfl, nofun⟩
    | ok selection =>
      refine follows_bind.mpr (Follows.mono obtainArtifact_follows ?_)
      rintro (error | _) object stored ⟨rfl, present⟩
      · exact ⟨rfl, nofun⟩
      · refine ⟨rfl, ?_⟩
        rintro _ ⟨⟩
        exact ⟨⟨company, payload, resolved⟩, present rfl⟩

/-- The pipeline as a part of the handling. -/
theorem producePdf_running {task : ReportTask} :
    Follows (HandlingStep worker entry taskId) worker.producePdf task (.running task [])
      (fun result object phase => object = task ∧ ∃ stored, phase = .running task stored ∧
        ∀ selection, result = .ok selection →
          Selects worker task selection ∧ selection.paths.pdfPath ∈ stored) := by
  apply Program.Follows.embed producePdf_follows (HandlingPhase.running task)
  · intro stored call reply stored' step
    cases step with
    | call _ _ _ outside => exact .pipeline task stored call reply outside
  · rintro result stored ⟨same, produced⟩
    exact ⟨same, stored, rfl, produced⟩

/-- From `running` a failure is saved if the table allows it; after COMPLETED it never is. -/
theorem transition_failed_follows {exc : Err} {phase : HandlingPhase} {object : ReportTask}
    (spent : ℕ) (raised : Raised worker phase object)
    (budget : spent = 0 ∨ spent = 1 ∧ worker.settings.retryMaxAttempts ≤ object.attempts + 1) :
    Follows (HandlingStep worker entry taskId)
      (Repository.transition .failed fun task => { task with error := some exc.message })
      { object with attempts := object.attempts + spent } phase (Processed worker) := by
  have once : spent ≤ 1 := by
    rcases budget with rfl | ⟨rfl, _⟩
    · exact Nat.zero_le 1
    · exact Nat.le_refl 1
  cases raised with
  | running task object stored attempted =>
    have state := attempted.state_eq
    cases legal : canTransition task.state .failed with
    | false =>
      refine follows_transition_illegal (state ▸ legal) ?_
      refine .running task object stored spent attempted ?_ once
      intro processing
      rw [processing] at legal
      cases legal
    | true =>
      refine follows_transition_terminal (state ▸ legal) (by decide) rfl ?_
      intro reply
      refine ⟨_, .fail task object _ stored exc.message spent reply legal attempted budget rfl, ?_⟩
      rcases reply with error | _
      · exact .broken _ 0 (Nat.zero_le 1)
      · intro reply
        refine ⟨_, .clear _ reply, ?_⟩
        rcases reply with error | _
        · exact .broken _ 0 (Nat.zero_le 1)
        · rfl
  | broken object done =>
    refine follows_transition_illegal (show canTransition object.state .failed = false by rw [done]; rfl) ?_
    exact .broken object spent once

theorem failPermanently_follows {exc : Err} {phase : HandlingPhase} {object : ReportTask}
    (raised : Raised worker phase object) :
    Follows (HandlingStep worker entry taskId) (Worker.failPermanently exc) object phase
      (Processed worker) :=
  transition_failed_follows 0 raised (.inl rfl)

/-- The way back into the queue: RETRYING, QUEUED, capacity, entry. -/
theorem requeue_follows {exc : Err} {phase : HandlingPhase} {object : ReportTask}
    (raised : Raised worker phase object)
    (budget : object.attempts + 1 < worker.settings.retryMaxAttempts) :
    Follows (HandlingStep worker entry taskId)
      (do
        Repository.transition .retrying fun task => { task with error := some exc.message }
        Repository.transition .queued id
        Queue.enqueue worker.settings (← get).taskId)
      { object with attempts := object.attempts + 1 } phase (Processed worker) := by
  cases raised with
  | running task object stored attempted =>
    have state := attempted.state_eq
    cases legal : canTransition task.state .retrying with
    | false =>
      refine follows_bind.mpr (follows_transition_illegal (state ▸ legal) ?_)
      refine .running task object stored 1 attempted ?_ (Nat.le_refl 1)
      intro processing
      rw [processing] at legal
      cases legal
    | true =>
      refine follows_bind.mpr (follows_transition_live (state ▸ legal) (by decide) rfl ?_)
      intro reply
      refine ⟨_, .retry task object _ stored exc.message reply legal attempted budget rfl, ?_⟩
      rcases reply with error | _
      · exact .broken _ 0 (Nat.zero_le 1)
      refine follows_bind.mpr (follows_transition_live rfl (by decide) rfl ?_)
      intro reply
      refine ⟨_, .requeue _ reply, ?_⟩
      rcases reply with error | _
      · exact .broken _ 0 (Nat.zero_le 1)
      refine follows_bind.mpr (Coroutine.follows_get.mpr (follows_enqueue.mpr fun reply => ?_))
      by_cases free : ∃ depth, depthOf reply = .ok depth ∧ depth < worker.settings.maxQueueDepth
      · obtain ⟨depth, read, free⟩ := free
        refine ⟨_, .measure _ reply depth read free, ?_⟩
        simp only [read, Nat.not_le_of_lt free, ↓reduceIte]
        intro reply
        refine ⟨_, .enqueue _ reply, ?_⟩
        rcases reply with error | _
        · exact .broken _ 0 (Nat.zero_le 1)
        · rfl
      · have full : ∀ depth, depthOf reply = .ok depth → worker.settings.maxQueueDepth ≤ depth :=
          fun depth read => Nat.le_of_not_lt fun lt => free ⟨depth, read, lt⟩
        refine ⟨_, .overfull _ reply full, ?_⟩
        cases read : depthOf reply with
        | error error => exact .broken _ 0 (Nat.zero_le 1)
        | ok depth =>
          simp only [full depth read, ↓reduceIte]
          exact .broken _ 0 (Nat.zero_le 1)
  | broken object done =>
    refine follows_bind.mpr (follows_transition_illegal
      (show canTransition object.state .retrying = false by rw [done]; rfl) ?_)
    exact .broken object 1 (Nat.le_refl 1)

/-- One more attempt is counted; then the task fails for good or goes back into the queue. -/
theorem failTransiently_follows {exc : Err} {phase : HandlingPhase} {object : ReportTask}
    (raised : Raised worker phase object) :
    Follows (HandlingStep worker entry taskId) (worker.failTransiently exc) object phase
      (Processed worker) := by
  refine follows_bind.mpr (Coroutine.follows_modify.mpr (follows_bind.mpr
    (Coroutine.follows_get.mpr ?_)))
  by_cases spent : worker.settings.retryMaxAttempts ≤ object.attempts + 1
  · simp only [spent, ↓reduceIte]
    exact transition_failed_follows 1 raised (.inr ⟨rfl, spent⟩)
  · simp only [spent, ↓reduceIte]
    exact requeue_follows raised (Nat.lt_of_not_le spent)

/-- What follows the saved success never raises. -/
theorem bookkeeping_follows {original : ReportIdentity} {saved : ReportTask}
    {filing : FilingIdentity} {path : String} (filed : saved.filing = some filing)
    (stored : saved.artifactPath = some path) :
    Follows (HandlingStep worker entry taskId)
      (tryCatch (Worker.bookkeeping original.logicalPath) fun _ => pure ()) saved
      (.released original saved) (fun result _ phase => result = .ok () ∧ phase = .finished) := by
  refine follows_swallow (follows_bind.mpr (follows_bind.mpr (Coroutine.follows_get.mpr ?_)))
  simp only [filed, stored]
  refine follows_call.mpr ?_
  rintro (error | _)
  · exact ⟨_, .publish original saved filing path filed stored _, rfl⟩
  · refine ⟨_, .publish original saved filing path filed stored _, ?_⟩
    refine follows_bind.mpr (Coroutine.follows_get.mpr ?_)
    by_cases moved : saved.identity.logicalPath ≠ original.logicalPath
    · simp only [HandlingPhase.bookkept, moved, ↓reduceIte, ne_eq, not_false_eq_true]
      refine follows_bind.mpr (Coroutine.follows_get.mpr (follows_call.mpr fun reply => ?_))
      exact ⟨_, .unpin original saved reply, rfl⟩
    · simp only [HandlingPhase.bookkept, moved, ↓reduceIte]
      rfl

/-- The `try` block of `process_task`. -/
theorem attempt_follows {task : ReportTask} :
    Follows (HandlingStep worker entry taskId) (worker.attempt task.identity.logicalPath) task
      (.running task [])
      (fun result object phase => match result with
        | .ok _ => phase = .finished
        | .error _ => Raised worker phase object) := by
  refine follows_bind.mpr (Follows.mono producePdf_running ?_)
  rintro (error | selection) object phase ⟨rfl, stored, rfl, produced⟩
  · exact .running object object stored (.inl rfl)
  · obtain ⟨selects, present⟩ := produced selection rfl
    refine follows_bind.mpr (Coroutine.follows_modify.mpr (follows_bind.mpr ?_))
    cases legal : canTransition object.state .completed with
    | false =>
      refine follows_transition_illegal legal ?_
      exact .running object _ stored (.inr ⟨legal, selection, selects, rfl⟩)
    | true =>
      refine follows_transition_terminal legal (by decide) rfl ?_
      intro reply
      refine ⟨_, .complete object _ stored selection reply legal selects present rfl, ?_⟩
      rcases reply with error | _
      · exact .broken _ rfl
      · intro reply
        refine ⟨_, .release object.identity _ reply, ?_⟩
        rcases reply with error | _
        · exact .broken _ rfl
        · refine Follows.mono (bookkeeping_follows rfl rfl) ?_
          rintro result object' phase ⟨rfl, rfl⟩
          rfl

/-- Where the first transition of `process_task` leads. -/
def Entered (worker : Worker) (task : ReportTask) (result : Except Err Unit) (object : ReportTask)
    (phase : HandlingPhase) : Prop :=
  match result with
  | .ok _ => phase = .running object [] ∧ object.identity = task.identity
  | .error _ => Processed worker result object phase

/-- `process_task` from the loaded task on. -/
theorem processTask_follows {task : ReportTask} :
    Follows (HandlingStep worker entry taskId) worker.processTask task (.entering task)
      (Processed worker) := by
  refine follows_bind.mpr (Coroutine.follows_get.mpr (follows_bind.mpr (Follows.mono
    (show Follows _ _ _ _ (Entered worker task) from ?_) ?_)))
  · refine follows_tryCatch.mpr ?_
    cases legal : canTransition task.state .processing with
    | false =>
      refine follows_transition_illegal legal ?_
      simp only [HandlingPhase.entering, legal, Bool.false_eq_true, ↓reduceIte]
      exact ⟨rfl, rfl⟩
    | true =>
      simp only [HandlingPhase.entering, legal, ↓reduceIte]
      refine follows_transition_live legal (by decide) rfl ?_
      intro reply
      refine ⟨_, .start task _ reply legal rfl, ?_⟩
      rcases reply with error | _
      · exact .broken _ 0 (Nat.zero_le 1)
      · exact ⟨rfl, rfl⟩
  · rintro (exc | _) current phase entered
    · exact entered
    obtain ⟨rfl, same⟩ := entered
    -- The handlers see the object and the phase as the `try` block left them.
    dsimp only
    rw [← same]
    refine follows_tryCatch.mpr (Follows.mono attempt_follows ?_)
    rintro (exc | _) object phase raised
    · dsimp only
      split
      · exact failPermanently_follows raised
      · exact failPermanently_follows raised
      · exact failPermanently_follows raised
      · exact failPermanently_follows raised
      · exact failPermanently_follows raised
      · exact failTransiently_follows raised
    · exact raised

theorem ackAndRemove_follows {σ : Type} {object : σ} :
    Follows (HandlingStep worker entry taskId) (Queue.ackAndRemove entry) object .finished
      (fun _ _ phase => phase = .stopped) := by
  refine follows_ackAndRemove.mpr ?_
  rintro (error | _)
  · exact ⟨_, .ack _, rfl⟩
  · exact ⟨_, .ack _, fun reply => ⟨_, .remove reply, rfl⟩⟩

/-- The recovery path, from wherever `process_task` raised, makes its own calls and stops. -/
theorem recoverFromUnhandled_follows {σ : Type} {outer : σ} {exc : Err} {phase : HandlingPhase}
    {object : ReportTask} (interrupted : Interrupted worker phase object) :
    Follows (HandlingStep worker entry taskId)
      (worker.recoverFromUnhandled taskId object entry exc) outer phase
      (fun _ _ phase' => phase' = .stopped) := by
  refine follows_bind.mpr (follows_call.mpr ?_)
  rintro (error | read)
  · exact ⟨_, .unrecovered phase object error interrupted, rfl⟩
  refine ⟨_, .reread phase object read interrupted, ?_⟩
  simp only [Coroutine.mapError_ok, HandlingPhase.recovering]
  by_cases done : (read.getD object).state = .completed
  · simp only [done, ↓reduceIte]
    exact ackAndRemove_follows
  simp only [done, ↓reduceIte]
  by_cases spent : worker.settings.retryMaxAttempts ≤ (read.getD object).attempts + 1
  · simp only [spent, ↓reduceIte]
    refine follows_bind.mpr (follows_own.mpr (follows_bind.mpr (Coroutine.follows_get.mpr ?_)))
    simp only [done, ↓reduceIte]
    refine follows_bind.mpr (Coroutine.follows_modify.mpr (follows_bind.mpr (follows_save.mpr ?_)))
    intro reply
    refine ⟨_, .bury _ _ _ reply done rfl, ?_⟩
    rcases reply with error | _
    · rfl
    refine follows_bind.mpr (Coroutine.follows_get.mpr (follows_bind.mpr
      (Coroutine.follows_get.mpr (follows_call.mpr fun reply => ?_))))
    refine ⟨_, .forget _ reply, ?_⟩
    rcases reply with error | _
    · rfl
    · exact ackAndRemove_follows
  · simp only [spent, ↓reduceIte]
    refine follows_bind.mpr (follows_own.mpr (follows_save.mpr fun reply => ?_))
    refine ⟨_, .count _ reply, ?_⟩
    rcases reply with error | _ <;> rfl

theorem handleTask_follows {task : ReportTask} :
    Follows (HandlingStep worker entry taskId) (worker.handleTask taskId entry) task
      (.entering task) (fun _ _ phase => phase = .stopped) := by
  refine follows_bind.mpr (follows_tryCatch.mpr (follows_bind.mpr (processTask_follows.mono ?_)))
  rintro (exc | _) object phase processed
  · refine follows_bind.mpr (Coroutine.follows_get.mpr (follows_bind.mpr
      ((follows_swallow (recoverFromUnhandled_follows processed)).mono ?_)))
    rintro result object' phase' ⟨rfl, rfl⟩
    rfl
  · rw [show phase = .finished from processed]
    exact ackAndRemove_follows

/-- `_handle_message` follows the handling protocol to its end. -/
theorem handleMessage_follows {fields : List (String × String)} {object : Unit}
    (named : ∀ name, fieldsTaskId fields = some name → name = taskId) :
    Follows (HandlingStep worker entry taskId) (worker.handleMessage entry fields) object
      (.initial fields) (fun _ _ phase => phase = .stopped) := by
  unfold Worker.handleMessage HandlingPhase.initial
  cases found : fieldsTaskId fields with
  | none => exact ackAndRemove_follows
  | some name =>
    obtain rfl := named name found
    by_cases empty : name = ""
    · simp only [empty, ↓reduceIte]
      exact ackAndRemove_follows
    simp only [empty, ↓reduceIte]
    refine follows_bind.mpr (follows_call.mpr ?_)
    rintro (error | _ | task)
    · exact ⟨_, .unread error, rfl⟩
    · exact ⟨_, .missed, ackAndRemove_follows⟩
    · refine ⟨_, .load task, follows_bind.mpr (follows_own.mpr (handleTask_follows.mono ?_))⟩
      rintro (error | _) object' phase rfl
      · rfl
      · rfl

end Follows

end Quartr.Soundness
