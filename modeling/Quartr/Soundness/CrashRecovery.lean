import Quartr.Model.Sample
import Quartr.Soundness.Completion

/-! # Redelivery after a crash

A handling that is killed leaves the task QUEUED, PROCESSING or RETRYING. When its message is
delivered again and nothing fails, the task is completed, published and acknowledged in that one
handling, unless the record was left as RETRYING: that state has no edge to COMPLETED.
-/

namespace Quartr.Soundness

open Quartr.Machine Quartr.Model
open Quartr.Machine.Coroutine (Runs)

/-- An entry delivered again after a crash that left its task unfinished, with attempts to spare. -/
structure Redelivery (worker : Worker) (entry : ℕ) (fields : List (String × String))
    (taskId : TaskId) (task : ReportTask) (world : World) : Prop where
  named : fieldsTaskId fields = some taskId
  nonempty : taskId ≠ ""
  delivered : ∃ e, world.stream[entry]? = some e ∧ e.fields = fields ∧ e.status = .pending
  stored : world.tasks taskId = some task
  own : task.taskId = taskId
  unfinished : task.state = .queued ∨ task.state = .processing ∨ task.state = .retrying
  attempts : task.attempts < worker.settings.retryMaxAttempts

/-- What the pipeline is answered when SEC lists a filing for the task, every request succeeds and
the renderer returns a PDF. -/
structure Succeeds (worker : Worker) (outside : Outside) (task : ReportTask) (company : CompanyRecord)
    (payload : SubmissionsPayload) (selection : Selection) (document : Document) (pdfBytes : Bytes) :
    Prop where
  listed : worker.cikMapping.resolve task.identity.ticker = .ok company
  answered : outside.submissions company.cik = .ok (some payload)
  selected : worker.resolveFiling company task payload = .ok selection
  downloaded : outside.document selection.filing.sourceUrl = .ok document
  converted : outside.pdf document.content (document.contentType.getD "text/html")
    (worker.pdfMetadata selection) = .ok pdfBytes
  valid : Worker.validatePdf pdfBytes = .ok ()

/-- The task is stored as COMPLETED, published under its logical path and acknowledged. -/
def Recovered (taskId : TaskId) (entry : ℕ) (world : World) : Prop :=
  CompletedIn world taskId ∧
    (∃ task filing path, world.tasks taskId = some task ∧ task.filing = some filing ∧
      task.artifactPath = some path ∧
      world.logical (logicalKey task.identity.logicalPath task.includeAmended) =
        some ⟨filing.accessionNumber, path, filing.cik⟩) ∧
    ∃ e, world.stream[entry]? = some e ∧ e.status = .acked

/-- The world after one undisturbed handling of the message. -/
def handledAlone (worker : Worker) (outside : Outside) (entry : ℕ) (fields : List (String × String))
    (world : World) : World :=
  ((worker.handleMessage entry fields ()).run (World.answer outside) world).2

section Success

variable {worker : Worker} {outside : Outside} {σ : Type} {object : σ} {world : World}

theorem openTruncate_present (files : FileSystem) (path : String) :
    ((files.openTruncate path).file path).isSome = true := by
  unfold FileSystem.openTruncate
  split
  · rename_i file present
    exact Option.isSome_of_eq_some present
  · simp only [Function.update_self, Option.isSome_some]

/-- A write to a file goes through: the temporary file is there when it is renamed. -/
theorem runs_atomicWrite (path : String) (data : Bytes) : ∃ files,
    Runs (World.answer outside) (ArtifactStore.atomicWrite path data) object world (.ok ()) object
      { world with files := files } := by
  refine ⟨_, .bind (runs_call rfl) (.bind (runs_call rfl) (runs_call ?_))⟩
  have present := openTruncate_present world.files (ArtifactStore.tmpPath path)
  simp only [World.reply, World.after, FileSystem.write, present, ↓reduceIte]

/-- Whether the PDF is there already or not, it is there afterwards, and only files change. -/
theorem runs_obtainArtifact {task : ReportTask} {company : CompanyRecord} {payload : SubmissionsPayload}
    {selection : Selection} {document : Document} {pdfBytes : Bytes}
    (succeeds : Succeeds worker outside task company payload selection document pdfBytes) : ∃ files,
    Runs (World.answer outside) (worker.obtainArtifact selection) object world (.ok ()) object
      { world with files := files } := by
  cases stored : (world.files.file selection.paths.pdfPath).isSome with
  | true =>
    have exists_ : world.reply outside (.pathExists selection.paths.pdfPath) = .ok true :=
      congrArg Except.ok stored
    exact ⟨_, .bind (runs_call exists_) .pure⟩
  | false =>
    have absent : world.reply outside (.pathExists selection.paths.pdfPath) = .ok false :=
      congrArg Except.ok stored
    obtain ⟨files, source⟩ := @runs_atomicWrite outside σ object world selection.paths.sourcePath
      document.content
    obtain ⟨files', pdf⟩ := @runs_atomicWrite outside σ object { world with files := files }
      selection.paths.pdfPath pdfBytes
    obtain ⟨files'', metadata⟩ := @runs_atomicWrite outside σ object { world with files := files' }
      selection.paths.metadataPath (ArtifactStore.metadataBytes (worker.pdfMetadata selection))
    refine ⟨files'', .bind (runs_call absent) (.bind (runs_call succeeds.downloaded)
      (.bind (runs_call succeeds.converted) (.bind (.lift succeeds.valid)
        (.bind (runs_call rfl) (.bind source (.bind pdf metadata))))))⟩

theorem runs_producePdf {task : ReportTask} {company : CompanyRecord} {payload : SubmissionsPayload}
    {selection : Selection} {document : Document} {pdfBytes : Bytes}
    (succeeds : Succeeds worker outside task company payload selection document pdfBytes) : ∃ files,
    Runs (World.answer outside) worker.producePdf task world (.ok selection) task
      { world with files := files } := by
  obtain ⟨files, obtained⟩ := @runs_obtainArtifact worker outside ReportTask task world _ _ _ _ _ _ succeeds
  exact ⟨files, .bind .get (.bind (.lift succeeds.listed) (.bind (runs_call succeeds.answered)
    (.bind .get (.bind (.lift succeeds.selected) (.bind obtained .pure)))))⟩

/-- A legal transition to a state that is not terminal saves the updated object. -/
theorem runs_transition_live {task : ReportTask} {target : ReportState} {updates : ReportTask → ReportTask}
    (legal : canTransition task.state target = true) (live : ¬ target.Terminal) :
    Runs (World.answer outside) (Repository.transition target updates) task world (.ok ())
      (updates { task with state := target })
      (world.after (.setTask (updates { task with state := target }))) := by
  have allowed : assertTransition task.state target = .ok () := by
    simp only [assertTransition, legal, ↓reduceIte]
  refine .bind .get (.bind (.lift allowed) (.bind .modify (.bind (.bind .get (runs_call rfl)) ?_)))
  simp only [live, ↓reduceIte]
  exact .pure

/-- A legal transition to a terminal state in addition releases the pointer. -/
theorem runs_transition_terminal {task : ReportTask} {target : ReportState}
    {updates : ReportTask → ReportTask} (legal : canTransition task.state target = true)
    (terminal : target.Terminal) :
    Runs (World.answer outside) (Repository.transition target updates) task world (.ok ())
      (updates { task with state := target })
      ((world.after (.setTask (updates { task with state := target }))).after
        (.deletePending (updates { task with state := target }).pendingKey)) := by
  have allowed : assertTransition task.state target = .ok () := by
    simp only [assertTransition, legal, ↓reduceIte]
  refine .bind .get (.bind (.lift allowed) (.bind .modify (.bind (.bind .get (runs_call rfl)) ?_)))
  simp only [terminal, ↓reduceIte]
  exact .bind .get (.bind .get (runs_call rfl))

/-- What a successful handling leaves behind, apart from files and pointers. -/
structure Completes (task : ReportTask) (selection : Selection) (world world' : World) : Prop where
  tasks : world'.tasks = Function.update world.tasks task.taskId (some (completedRecord task selection))
  logical : world'.logical = Function.update world.logical
    (logicalKey selection.identity.logicalPath task.includeAmended)
    (some ⟨selection.filing.accessionNumber, selection.paths.pdfPath, selection.filing.cik⟩)
  stream : world'.stream = world.stream

theorem runs_bookkeeping {original : String} {saved : ReportTask} {filing : FilingIdentity}
    {path : String} (filed : saved.filing = some filing) (stored : saved.artifactPath = some path) :
    ∃ pending, Runs (World.answer outside) (Worker.bookkeeping original) saved world (.ok ()) saved
      { world.after (.hsetLogical (logicalKey saved.identity.logicalPath saved.includeAmended)
          ⟨filing.accessionNumber, path, filing.cik⟩) with pending := pending } := by
  have published : Runs (World.answer outside) Repository.publishArtifact saved world (.ok ()) saved
      (world.after (.hsetLogical (logicalKey saved.identity.logicalPath saved.includeAmended)
        ⟨filing.accessionNumber, path, filing.cik⟩)) := by
    refine .bind .get ?_
    simp only [filed, stored]
    exact runs_call rfl
  by_cases moved : saved.identity.logicalPath ≠ original
  · refine ⟨Function.update world.pending (pendingTaskKey original saved.includeAmended) none,
      .bind published (.bind .get ?_)⟩
    simp only [moved, ne_eq, not_false_eq_true, ↓reduceIte]
    exact .bind .get (runs_call rfl)
  · refine ⟨world.pending, .bind published (.bind .get ?_)⟩
    simp only [moved, ↓reduceIte]
    exact .pure

/-- From PROCESSING the pipeline, COMPLETED and the bookkeeping go through. -/
theorem runs_attempt {task : ReportTask} {company : CompanyRecord} {payload : SubmissionsPayload}
    {selection : Selection} {document : Document} {pdfBytes : Bytes} {original : String}
    (succeeds : Succeeds worker outside task company payload selection document pdfBytes)
    (processing : task.state = .processing) : ∃ world',
    Runs (World.answer outside) (worker.attempt original) task world (.ok ())
      (completedRecord task selection) world' ∧ Completes task selection world world' := by
  obtain ⟨files, produced⟩ := @runs_producePdf worker outside world _ _ _ _ _ _ succeeds
  have legal : canTransition task.state .completed = true := by
    rw [processing]
    rfl
  have saved := @runs_transition_terminal outside { world with files := files }
    { task with identity := selection.identity } .completed
    (fun task => { task with filing := some selection.filing, artifactPath := some selection.paths.pdfPath })
    legal (.inl rfl)
  obtain ⟨pending, bookkept⟩ := @runs_bookkeeping outside (({ world with files := files }.after
    (.setTask (completedRecord task selection))).after
      (.deletePending (completedRecord task selection).pendingKey)) original
    (completedRecord task selection) selection.filing selection.paths.pdfPath rfl rfl
  exact ⟨_, .bind produced (.bind .modify (.bind saved (.tryCatch bookkept))), rfl, rfl, rfl⟩

theorem runs_processTask {task : ReportTask} {company : CompanyRecord} {payload : SubmissionsPayload}
    {selection : Selection} {document : Document} {pdfBytes : Bytes}
    (succeeds : Succeeds worker outside task company payload selection document pdfBytes)
    (live : task.state = .queued ∨ task.state = .processing) : ∃ world',
    Runs (World.answer outside) worker.processTask task world (.ok ())
      (completedRecord task selection) world' ∧ Completes task selection world world' := by
  have legal : canTransition task.state .processing = true := by
    rcases live with same | same <;> rw [same] <;> rfl
  have started := @runs_transition_live outside world task .processing id legal (by decide)
  -- The pipeline does not look at the state, so it answers the same for the saved copy.
  have succeeds' : Succeeds worker outside { task with state := .processing } company payload selection
      document pdfBytes :=
    ⟨succeeds.listed, succeeds.answered, succeeds.selected, succeeds.downloaded, succeeds.converted,
      succeeds.valid⟩
  obtain ⟨world', attempted, tasks, logical, stream⟩ := @runs_attempt worker outside
    (world.after (.setTask { task with state := .processing })) _ _ _ _ _ _ task.identity.logicalPath
    succeeds' rfl
  refine ⟨world', .bind .get (.bind (.tryCatch started) (.tryCatch attempted)), ?_, logical, stream⟩
  rw [tasks]
  exact Function.update_idem ..

theorem runs_ackAndRemove (entry : ℕ) :
    Runs (World.answer outside) (Queue.ackAndRemove entry) object world (.ok ()) object
      ((world.after (.xack entry)).after (.xdel entry)) :=
  .bind (runs_call rfl) (runs_call rfl)

/-- A redelivery that finds the task QUEUED or PROCESSING completes it. -/
theorem recovers {entry : ℕ} {fields : List (String × String)} {taskId : TaskId} {task : ReportTask}
    {company : CompanyRecord} {payload : SubmissionsPayload} {selection : Selection}
    {document : Document} {pdfBytes : Bytes}
    (redelivery : Redelivery worker entry fields taskId task world)
    (succeeds : Succeeds worker outside task company payload selection document pdfBytes)
    (live : task.state = .queued ∨ task.state = .processing) :
    Recovered taskId entry (handledAlone worker outside entry fields world) := by
  obtain ⟨world', processed, completes⟩ := @runs_processTask worker outside world _ _ _ _ _ _ succeeds live
  have handled : Runs (World.answer outside) (worker.handleTask taskId entry) task world (.ok ())
      (completedRecord task selection) ((world'.after (.xack entry)).after (.xdel entry)) :=
    .bind (.tryCatch (.bind processed .pure)) (runs_ackAndRemove entry)
  have whole : Runs (World.answer outside) (worker.handleMessage entry fields) () world (.ok ()) ()
      ((world'.after (.xack entry)).after (.xdel entry)) := by
    unfold Worker.handleMessage
    simp only [redelivery.named, redelivery.nonempty, ↓reduceIte]
    refine .bind (runs_call (congrArg Except.ok redelivery.stored)) (.bind (.own handled) .pure)
  obtain ⟨e, present, _, pending⟩ := redelivery.delivered
  have same : handledAlone worker outside entry fields world =
      (world'.after (.xack entry)).after (.xdel entry) := congrArg Prod.snd whole
  have saved : ((world'.after (.xack entry)).after (.xdel entry)).tasks taskId =
      some (completedRecord task selection) := by
    simp only [World.after_tasks, completes.tasks, redelivery.own, Function.update_self]
  rw [same]
  refine ⟨?_, ⟨_, _, _, saved, rfl, rfl, ?_⟩, (e.ack).delete, ?_, ?_⟩
  · rw [CompletedIn, saved]
    rfl
  · simp only [World.after_logical, completes.logical]
    exact Function.update_self ..
  · rw [← completes.stream] at present
    simp only [World.after_stream, List.getElem?_modify, present, ↓reduceIte]
    rfl
  · simp only [Entry.delete, Entry.ack, pending, ↓reduceIte]

end Success

/-! ### RETRYING is a dead end -/

/-- The phases a handling that has read RETRYING goes through. -/
def Stuck (taskId : TaskId) (phase : HandlingPhase) (world : World) : Prop :=
  ¬ CompletedIn world taskId ∧
    match phase with
    | .fresh => (world.tasks taskId).map ReportTask.state = some .retrying
    | .loaded _ => False
    | .running task _ => task.state = .retrying
    | .completed _ _ => False
    | .released _ _ => False
    | .published _ _ => False
    | .counting current => current.state ≠ .completed
    | _ => True

section Stuck

variable {worker : Worker} {entry : ℕ} {taskId : TaskId} {phase phase' : HandlingPhase} {world : World}
  {outside : Outside} {call : Call}

theorem CompletedIn.of_after {saved : ReportTask} (unfinished : saved.state ≠ .completed)
    (completed : CompletedIn (world.after (.setTask saved)) taskId) : CompletedIn world taskId := by
  rw [CompletedIn, World.after_tasks] at completed
  by_cases same : taskId = saved.taskId
  · subst same
    simp only [Function.update_self, Option.map_some, Option.some.injEq] at completed
    exact absurd completed unfinished
  · simp only [Function.update_of_ne same] at completed
    exact completed

/-- It saves no COMPLETED, and what it reads again is not COMPLETED either. -/
theorem Stuck.step (stuck : Stuck taskId phase world)
    (step : HandlingStep worker entry taskId phase call (World.answer outside call world).1 phase') :
    Stuck taskId phase' (World.answer outside call world).2 := by
  obtain ⟨incomplete, standing⟩ := stuck
  generalize answered : (World.answer outside call world).1 = reply at step
  have same : (World.answer outside call world).2 = world.after call := rfl
  rw [same]
  cases step with
  | missed => exact ⟨incomplete, trivial⟩
  | load task =>
    have found : world.tasks taskId = some task := Except.ok.inj answered
    rw [found] at standing
    have retrying : task.state = .retrying := Option.some.inj standing
    refine ⟨incomplete, ?_⟩
    simp only [HandlingPhase.entering, retrying]
    exact retrying
  | unread => cases answered
  | start => exact standing.elim
  | pipeline task stored _ _ outside =>
    refine ⟨?_, standing⟩
    rw [CompletedIn, World.after_tasks]
    cases call with
    | setTask => exact outside.elim
    | _ => exact incomplete
  | complete task saved stored selection reply legal =>
    rw [show task.state = .retrying from standing] at legal
    cases legal
  | release => exact standing.elim
  | publish => exact standing.elim
  | unpin => exact standing.elim
  | fail task object saved stored message spent reply legal attempted budget result =>
    cases answered
    subst result
    exact ⟨fun completed => incomplete (completed.of_after (by rintro ⟨⟩)), trivial⟩
  | clear => cases answered; exact ⟨incomplete, trivial⟩
  | retry task object saved stored message reply legal attempted budget result =>
    cases answered
    subst result
    exact ⟨fun completed => incomplete (completed.of_after (by rintro ⟨⟩)), trivial⟩
  | requeue saved =>
    cases answered
    exact ⟨fun completed => incomplete (completed.of_after (by rintro ⟨⟩)), trivial⟩
  | measure => exact ⟨incomplete, trivial⟩
  | overfull => exact ⟨incomplete, trivial⟩
  | enqueue => cases answered; exact ⟨incomplete, trivial⟩
  | reread _ object read interrupted =>
    refine ⟨incomplete, ?_⟩
    simp only [HandlingPhase.recovering]
    split_ifs with done spent
    · trivial
    · trivial
    · exact done
  | unrecovered => exact ⟨incomplete, trivial⟩
  | bury current saved message reply alive result =>
    cases answered
    subst result
    exact ⟨fun completed => incomplete (completed.of_after (by rintro ⟨⟩)), trivial⟩
  | forget => cases answered; exact ⟨incomplete, trivial⟩
  | count current => exact ⟨fun completed => incomplete (completed.of_after standing), trivial⟩
  | ack => cases answered; exact ⟨incomplete, trivial⟩
  | remove => exact ⟨incomplete, trivial⟩

/-- A redelivery that finds the task RETRYING does not complete it. -/
theorem retrying_not_recovered {fields : List (String × String)} {task : ReportTask}
    (redelivery : Redelivery worker entry fields taskId task world) (retrying : task.state = .retrying) :
    ¬ Recovered taskId entry (handledAlone worker outside entry fields world) := by
  have named : ∀ name, fieldsTaskId fields = some name → name = taskId := by
    intro name found
    exact Option.some.inj (found.symm.trans redelivery.named)
  have follows : Program.Follows (HandlingStep worker entry taskId)
      (fun (_ : Except Err Unit × Unit) phase => phase = .stopped)
      (worker.handleMessage entry fields ()) (HandlingPhase.initial fields) :=
    handleMessage_follows named
  have fresh : HandlingPhase.initial fields = .fresh := by
    simp only [HandlingPhase.initial, redelivery.named, redelivery.nonempty, ↓reduceIte]
  have state : (world.tasks taskId).map ReportTask.state = some .retrying := by
    rw [redelivery.stored]
    exact congrArg some retrying
  have initial : Stuck taskId (.initial fields) world := by
    rw [fresh]
    refine ⟨fun completed => ?_, state⟩
    rw [CompletedIn, state] at completed
    cases completed
  obtain ⟨_, _, incomplete, _⟩ := follows.run
    (fun _ _ _ world step (stuck : Stuck taskId _ world) => stuck.step step) initial
  exact fun recovered => incomplete recovered.1

end Stuck

/-- After a crash the redelivery completes the task exactly if it was not left as RETRYING. -/
theorem recovers_iff {worker : Worker} {outside : Outside} {world : World} {entry : ℕ}
    {fields : List (String × String)} {taskId : TaskId} {task : ReportTask} {company : CompanyRecord}
    {payload : SubmissionsPayload} {selection : Selection} {document : Document} {pdfBytes : Bytes}
    (redelivery : Redelivery worker entry fields taskId task world)
    (succeeds : Succeeds worker outside task company payload selection document pdfBytes) :
    Recovered taskId entry (handledAlone worker outside entry fields world) ↔ task.state ≠ .retrying := by
  constructor
  · intro recovered retrying
    exact retrying_not_recovered redelivery retrying recovered
  · intro live
    refine recovers redelivery succeeds ?_
    rcases redelivery.unfinished with same | same | same
    · exact .inl same
    · exact .inr same
    · exact absurd same live

/-- In the small deployment SEC lists the filing of 2024. -/
theorem sample_succeeds {task : ReportTask} (identity : task.identity = Sample.identity 2024)
    (flag : task.includeAmended = false) : ∃ company selection,
    Succeeds (Sample.worker 2) Sample.outside task company Sample.submissions selection Sample.document
      Sample.pdf := by
  obtain ⟨taskId, _, state, _, filing, path, error, attempts⟩ := task
  subst identity flag
  have listing : Sample.cikMapping.byTicker.lookup (Text.upper "AAPL") =
      some ⟨"AAPL", "0000320193", "Apple Inc."⟩ := by
    decide +kernel
  have listed : Sample.cikMapping.resolve "AAPL" = .ok ⟨"AAPL", "0000320193", "Apple Inc."⟩ := by
    rw [CikMapping.resolve, listing]
  have resolves : ((Sample.worker 2).resolveFiling ⟨"AAPL", "0000320193", "Apple Inc."⟩
      (.fresh "task-0" (Sample.identity 2024) false) Sample.submissions).isOk = true := by
    decide +kernel
  cases selected : (Sample.worker 2).resolveFiling ⟨"AAPL", "0000320193", "Apple Inc."⟩
      (.fresh "task-0" (Sample.identity 2024) false) Sample.submissions with
  | error error =>
    rw [selected] at resolves
    cases resolves
  | ok selection => exact ⟨_, selection, listed, rfl, selected, rfl, rfl, rfl⟩

/-- A handling that gets no answer from SEC and is killed once it has saved RETRYING. -/
def killedRetrying : List (Move Activity Service.Choice) :=
  [.start 1 (Sample.handling 0 0), .serve 1 (.succeeds default), .serve 1 (.succeeds default),
    .serve 1 (.succeeds { Sample.outside with submissions := fun _ => .error (.transientSec "timeout") }),
    .serve 1 (.succeeds default), .kill 1]

/-- What the killed handling leaves. -/
def retryingTask : ReportTask :=
  { ReportTask.fresh "task-0" (Sample.identity 2024) false with
    state := .retrying
    error := some "timeout"
    attempts := 1 }

/-- A crash between RETRYING and QUEUED is not recovered from in one handling. -/
theorem crash_unrecovered : ¬ ∀ events config,
    Path (Guarded (service (Sample.settings 2) Sample.uuid Faulty).Step fun _ event =>
      HandlingsOnly event) (.idle (Sample.queued 2024)) events config → config.Quiescent →
    ∀ entry fields taskId task company payload selection document pdfBytes,
      Redelivery (Sample.worker 2) entry fields taskId task config.world →
      Succeeds (Sample.worker 2) Sample.outside task company payload selection document pdfBytes →
      Recovered taskId entry (handledAlone (Sample.worker 2) Sample.outside entry fields config.world) := by
  intro claimed
  have plays : (Service.faultyPlayer (Sample.settings 2) Sample.uuid).Plays
      (fun _ event => HandlingsOnly event)
      (fun config => (∀ move ∈ killedRetrying, config.InactiveAt move.id) ∧
        config.world.tasks "task-0" = some retryingTask ∧
        config.world.stream = [⟨[("task_id", "task-0")], .pending, false⟩])
      (.idle (Sample.queued 2024)) killedRetrying := by
    decide +kernel
  obtain ⟨events, config, path, rest, record, stream⟩ := plays.quiescent
  have redelivery : Redelivery (Sample.worker 2) 0 [("task_id", "task-0")] "task-0" retryingTask
      config.world :=
    ⟨rfl, by decide, ⟨⟨[("task_id", "task-0")], .pending, false⟩, by rw [stream]; rfl, rfl, rfl⟩, record,
      rfl, .inr (.inr rfl), by decide⟩
  obtain ⟨company, selection, succeeds⟩ := @sample_succeeds retryingTask rfl rfl
  exact retrying_not_recovered redelivery rfl (claimed events config path rest 0 _ _ _ _ _ _ _ _
    redelivery succeeds)

/-- What a handling killed after its first save leaves. -/
def processingTask : ReportTask :=
  { ReportTask.fresh "task-0" (Sample.identity 2024) false with state := .processing }

def processingWorld : World :=
  { Sample.queued 2024 with
    tasks := Function.update Sample.world.tasks "task-0" (some processingTask)
    stream := [⟨[("task_id", "task-0")], .pending, false⟩] }

theorem recovers_iff_processing :
    Recovered "task-0" 0 (handledAlone (Sample.worker 2) Sample.outside 0 [("task_id", "task-0")]
      processingWorld) := by
  have redelivery : Redelivery (Sample.worker 2) 0 [("task_id", "task-0")] "task-0" processingTask
      processingWorld :=
    ⟨rfl, by decide, ⟨⟨[("task_id", "task-0")], .pending, false⟩, rfl, rfl, rfl⟩, rfl, rfl, .inr (.inl rfl),
      by decide⟩
  obtain ⟨company, selection, succeeds⟩ := @sample_succeeds processingTask rfl rfl
  exact (recovers_iff redelivery succeeds).mpr (by decide)

end Quartr.Soundness
