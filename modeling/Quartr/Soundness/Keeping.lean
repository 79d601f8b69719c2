import Quartr.Soundness.Territory

/-! # Code that keeps to its part of the world

A handling calls nothing outside the region that hosts its task, whatever it is replied. Two things outside
of the region are seen: the depth of the queue, which makes no difference below the maximum, and the
descriptor of a file just opened, which is used for the next write only.
-/

namespace Quartr.Soundness

open Quartr.Machine Quartr.Model

/-! ### Code that keeps to a region -/

variable {α β σ : Type} {region : Region} {capacity : ℕ}

/-- Every call of the program is within the region. Below the capacity any depth has the same
consequences, and an opened file is written at once. -/
inductive KeepsTo (region : Region) (capacity : ℕ) (post : α → Prop) : Program calls α → Prop
  | done (value : α) (holds : post value) : KeepsTo region capacity post (.done value)
  | call (call : Call) (next : calls.Reply call → Program calls α) (within : region.Within call)
      (later : ∀ reply, region.Trusts call reply → KeepsTo region capacity post (next reply)) :
      KeepsTo region capacity post (.await call next)
  | depth (next : calls.Reply .xlen → Program calls α) (rest : Program calls α)
      (roomy : ∀ depth : ℕ, depth < capacity → next (.ok depth) = rest) (later : KeepsTo region capacity post rest)
      (raised : ∀ error, KeepsTo region capacity post (next (.error error))) :
      KeepsTo region capacity post (.await .xlen next)
  | store (path : String) (data : Bytes) (next : calls.Reply (.openTruncate path) → Program calls α)
      (rest : Except CallError Unit → Program calls α) (inside : region.file path)
      (opened : ∀ descriptor : ℕ, next (.ok descriptor) = .await (.writeFile descriptor data) rest)
      (later : ∀ reply, KeepsTo region capacity post (rest reply))
      (raised : ∀ error, KeepsTo region capacity post (next (.error error))) :
      KeepsTo region capacity post (.await (.openTruncate path) next)

theorem KeepsTo.bind {mid : β → Prop} {post : α → Prop} {first : Program calls β}
    {rest : β → Program calls α} (keeps : KeepsTo region capacity mid first)
    (later : ∀ value, mid value → KeepsTo region capacity post (rest value)) :
    KeepsTo region capacity post (first.bind rest) := by
  induction keeps with
  | done value holds => exact later value holds
  | call call next within _ ih => exact .call call _ within ih
  | depth next after roomy _ _ ih ih' =>
    exact .depth _ (after.bind rest) (fun depth below => congrArg (·.bind rest) (roomy depth below)) ih ih'
  | store path data next after inside opened _ _ ih ih' =>
    exact .store path data _ (fun reply => (after reply).bind rest) inside
      (fun descriptor => congrArg (·.bind rest) (opened descriptor)) ih ih'

theorem KeepsTo.mono {post post' : α → Prop} {program : Program calls α}
    (keeps : KeepsTo region capacity post program) (implies : ∀ value, post value → post' value) :
    KeepsTo region capacity post' program := by
  induction keeps with
  | done value holds => exact .done value (implies value holds)
  | call call next within _ ih => exact .call call next within ih
  | depth next after roomy _ _ ih ih' => exact .depth next after roomy ih ih'
  | store path data next after inside opened _ _ ih ih' => exact .store path data next after inside opened ih ih'

/-- The same of a function body that starts on the object. -/
def BodyKeeps (region : Region) (capacity : ℕ) (body : Async σ α) (object : σ)
    (post : Except Err α → σ → Prop) : Prop :=
  KeepsTo region capacity (fun result => post result.1 result.2) (body object)

section Rules

variable {object : σ} {post post' : Except Err α → σ → Prop}

theorem BodyKeeps.mono {body : Async σ α} (keeps : BodyKeeps region capacity body object post)
    (implies : ∀ result object', post result object' → post' result object') :
    BodyKeeps region capacity body object post' :=
  KeepsTo.mono keeps fun result => implies result.1 result.2

theorem keeps_call (c : Call) (within : region.Within c) :
    BodyKeeps region capacity (call c) object fun _ object' => object' = object := by
  apply KeepsTo.call c _ within
  intro reply _
  cases reply with
  | ok answer => exact .done _ rfl
  | error error => exact .done _ rfl

theorem keeps_bind {first : Async σ β} {rest : β → Async σ α} {mid : Except Err β → σ → Prop}
    (keeps : BodyKeeps region capacity first object mid)
    (later : ∀ value object', mid (.ok value) object' → BodyKeeps region capacity (rest value) object' post)
    (raised : ∀ error object', mid (.error error) object' → post (.error error) object') :
    BodyKeeps region capacity (first >>= rest) object post := by
  apply KeepsTo.bind keeps
  rintro ⟨error | value, object'⟩ holds
  · exact .done _ (raised error object' holds)
  · exact later value object' holds

/-- A first part that leaves the object as it is. -/
theorem keeps_bind_still {first : Async σ β} {rest : β → Async σ α}
    (keeps : BodyKeeps region capacity first object fun _ object' => object' = object)
    (later : ∀ value, BodyKeeps region capacity (rest value) object post)
    (raised : ∀ error, post (.error error) object) : BodyKeeps region capacity (first >>= rest) object post := by
  apply keeps_bind keeps
  · rintro value object' rfl
    exact later value
  · rintro error object' rfl
    exact raised error

theorem keeps_bind_lift {result : Except Err β} {rest : β → Async σ α}
    (later : ∀ value, result = .ok value → BodyKeeps region capacity (rest value) object post)
    (raised : ∀ error, post (.error error) object) :
    BodyKeeps region capacity (Coroutine.lift result >>= rest) object post := by
  cases result with
  | error error => exact .done _ (raised error)
  | ok value => exact later value rfl

theorem keeps_tryCatch {body : Async σ α} {handler : Err → Async σ α} {mid : Except Err α → σ → Prop}
    (keeps : BodyKeeps region capacity body object mid)
    (later : ∀ error object', mid (.error error) object' → BodyKeeps region capacity (handler error) object' post)
    (returned : ∀ value object', mid (.ok value) object' → post (.ok value) object') :
    BodyKeeps region capacity (tryCatch body handler) object post := by
  apply KeepsTo.bind keeps
  rintro ⟨error | value, object'⟩ holds
  · exact later error object' holds
  · exact .done _ (returned value object' holds)

/-- What awaits nothing is passed through. -/
theorem keeps_pure {value : α} (holds : post (.ok value) object) :
    BodyKeeps region capacity (pure value) object post :=
  .done _ holds

theorem keeps_throw {error : Err} (holds : post (.error error) object) :
    BodyKeeps region capacity (throw error) object post :=
  .done _ holds

theorem keeps_get {rest : σ → Async σ α} (later : BodyKeeps region capacity (rest object) object post) :
    BodyKeeps region capacity (get >>= rest) object post := later

theorem keeps_modify {update : σ → σ} {rest : PUnit → Async σ α}
    (later : BodyKeeps region capacity (rest ⟨⟩) (update object) post) :
    BodyKeeps region capacity (modify update >>= rest) object post := later

end Rules

/-- A record that is read is the task's. -/
theorem keeps_getTask {taskId : TaskId} {object : σ} (inside : region.record taskId) :
    BodyKeeps region capacity (Repository.getTask taskId) object fun result object' =>
      object' = object ∧ ∀ task, result = .ok (some task) → region.about taskId task := by
  apply KeepsTo.call (.getTask taskId) _ inside
  intro reply trusted
  cases reply with
  | error error => exact .done _ ⟨rfl, by simp⟩
  | ok read =>
    refine .done _ ⟨rfl, ?_⟩
    rintro task ⟨⟩
    exact trusted

/-! ### `_handle_message` keeps to the region of its task -/

/-- The region has room for the reports of a task: their keys and files, and the record and the entries of
the task itself. -/
structure Region.Hosts (region : Region) (settings : Settings) (taskId : TaskId)
    (reports : ReportIdentity → Prop) : Prop where
  record : region.record taskId
  pending : ∀ identity includeAmended, reports identity →
    region.pending (pendingTaskKey identity.logicalPath includeAmended)
  logical : ∀ identity includeAmended, reports identity →
    region.logical (logicalKey identity.logicalPath includeAmended)
  file : ∀ identity accessionNumber ext, reports identity →
    ∀ path ∈ storedPaths (ArtifactStore.pathsFor settings identity accessionNumber ext),
      region.file path ∧ region.file (ArtifactStore.tmpPath path)
  entry : region.entry (Entry.new taskId)
  about : ∀ task, task.taskId = taskId → reports task.identity → region.about taskId task
  resolved : ∀ identity year, reports identity → identity.year = latestYearSentinel →
    reports { identity with year := year }

/-- The object is a record of the task, of one of these reports. -/
structure Ours (taskId : TaskId) (reports : ReportIdentity → Prop) (object : ReportTask) : Prop where
  same : object.taskId = taskId
  report : reports object.identity

section Handling

variable {worker : Worker} {taskId : TaskId} {reports : ReportIdentity → Prop} {object : ReportTask}

theorem keeps_save (hosts : region.Hosts worker.settings taskId reports) (ours : Ours taskId reports object) :
    BodyKeeps region capacity Repository.save object fun _ object' => object' = object := by
  apply keeps_get
  refine keeps_call (.setTask object) ⟨?_, ?_⟩
  · rw [ours.same]
    exact hosts.record
  · rw [ours.same]
    exact hosts.about object ours.same ours.report

theorem keeps_clearPending (hosts : region.Hosts worker.settings taskId reports) {identity : ReportIdentity}
    (report : reports identity) (includeAmended : Bool) {object : σ} :
    BodyKeeps region capacity (Repository.clearPending identity.logicalPath includeAmended) object
      fun _ object' => object' = object :=
  keeps_call (.deletePending _) (hosts.pending identity includeAmended report)

theorem keeps_transition (hosts : region.Hosts worker.settings taskId reports) {target : ReportState}
    {updates : ReportTask → ReportTask}
    (kept : ∀ object, Ours taskId reports object → Ours taskId reports (updates object))
    (ours : Ours taskId reports object) :
    BodyKeeps region capacity (Repository.transition target updates) object fun _ object' =>
      Ours taskId reports object' := by
  apply keeps_get
  apply keeps_bind_lift
  · intro value legal
    apply keeps_modify
    have ours' := kept { object with state := target } ⟨ours.same, ours.report⟩
    apply keeps_bind_still (keeps_save hosts ours')
    · intro saved
      split
      · apply keeps_get
        apply keeps_get
        apply (keeps_clearPending hosts ours'.report _).mono
        rintro result left rfl
        exact ours'
      · exact keeps_pure ours'
    · exact fun error => ours'
  · exact fun error => ours

/-- The part of `enqueue` after the depth is known. -/
def enqueueAt (settings : Settings) (taskId : TaskId) (depth : ℕ) : Async σ Unit := do
  if settings.maxQueueDepth ≤ depth then
    throw (.queueFull depth settings.maxQueueDepth)
  call (.xadd taskId)

theorem enqueueAt_below {settings : Settings} {depth : ℕ} (below : depth < settings.maxQueueDepth)
    (taskId : TaskId) : (enqueueAt settings taskId depth : Async σ Unit) = call (.xadd taskId) := by
  simp only [enqueueAt, Nat.not_le.mpr below, ↓reduceIte]

theorem keeps_enqueueAt (hosts : region.Hosts worker.settings taskId reports) (ours : Ours taskId reports object)
    (depth : ℕ) :
    BodyKeeps region capacity (enqueueAt worker.settings object.taskId depth) object
      fun _ object' => object' = object := by
  unfold enqueueAt
  split
  · exact keeps_throw rfl
  · apply keeps_call (.xadd object.taskId)
    rw [Region.Within, ours.same]
    exact hosts.entry

theorem keeps_enqueue (hosts : region.Hosts worker.settings taskId reports) (ours : Ours taskId reports object) :
    BodyKeeps region worker.settings.maxQueueDepth (Queue.enqueue worker.settings object.taskId) object
      fun _ object' => object' = object := by
  refine KeepsTo.depth _ (enqueueAt worker.settings object.taskId 0 object) ?_ (keeps_enqueueAt hosts ours 0) ?_
  · intro depth below
    have admitted : enqueueAt worker.settings object.taskId depth object =
        enqueueAt worker.settings object.taskId 0 object := by
      rw [enqueueAt_below below, enqueueAt_below (Nat.zero_lt_of_lt below)]
    exact admitted
  · intro error
    cases error with
    | response message => exact keeps_enqueueAt hosts ours 0
    | _ => exact .done _ rfl

theorem keeps_failPermanently (hosts : region.Hosts worker.settings taskId reports) (exc : Err)
    (ours : Ours taskId reports object) :
    BodyKeeps region capacity (Worker.failPermanently exc) object fun _ object' => Ours taskId reports object' :=
  keeps_transition hosts (fun _ ours => ⟨ours.same, ours.report⟩) ours

theorem keeps_failTransiently (hosts : region.Hosts worker.settings taskId reports) (exc : Err)
    (ours : Ours taskId reports object) :
    BodyKeeps region worker.settings.maxQueueDepth (worker.failTransiently exc) object
      fun _ object' => Ours taskId reports object' := by
  have kept : ∀ object, Ours taskId reports object → Ours taskId reports { object with error := some exc.message } :=
    fun _ ours => ⟨ours.same, ours.report⟩
  apply keeps_modify
  apply keeps_get
  have ours' : Ours taskId reports { object with attempts := object.attempts + 1 } := ⟨ours.same, ours.report⟩
  split
  · exact keeps_transition hosts kept ours'
  · apply keeps_bind (keeps_transition hosts kept ours')
    · intro value retrying ours
      apply keeps_bind (keeps_transition hosts (fun _ ours => ours) ours)
      · intro value' queued ours
        apply keeps_get
        apply (keeps_enqueue hosts ours).mono
        rintro result object' rfl
        exact ours
      · exact fun error queued ours => ours
    · exact fun error retrying ours => ours

section Files

variable {object : σ}

theorem keeps_atomicWrite {path : String} (data : Bytes)
    (inside : region.file path ∧ region.file (ArtifactStore.tmpPath path)) :
    BodyKeeps region capacity (ArtifactStore.atomicWrite path data) object fun _ object' => object' = object := by
  have temporary : ArtifactStore.tmpPath path ≠ path := by
    intro same
    have lengths := congrArg (fun text => text.toList.length) same
    simp [ArtifactStore.tmpPath] at lengths
  have moves : BodyKeeps region capacity (call (.replace (ArtifactStore.tmpPath path) path)) object
      fun _ object' => object' = object :=
    keeps_call _ ⟨inside.2, inside.1, temporary⟩
  have written (reply : Except CallError Unit) : BodyKeeps region capacity
      (Coroutine.lift (reply.mapError Err.call) >>= fun _ => call (.replace (ArtifactStore.tmpPath path) path))
      object fun _ object' => object' = object :=
    keeps_bind_lift (fun _ _ => moves) fun _ => rfl
  refine KeepsTo.store _ data _ _ inside.2 ?_ written ?_
  · intro descriptor
    refine congrArg (Program.await _) (funext fun reply => ?_)
    cases reply <;> rfl
  · exact fun error => .done _ rfl

theorem keeps_write {paths : ArtifactPaths}
    (inside : ∀ path ∈ storedPaths paths, region.file path ∧ region.file (ArtifactStore.tmpPath path))
    (sourceBytes pdfBytes : Bytes) (metadata : PdfMetadata) :
    BodyKeeps region capacity (ArtifactStore.write paths sourceBytes pdfBytes metadata) object
      fun _ object' => object' = object := by
  apply keeps_bind_still (keeps_call (.makedirs _) trivial)
  · intro made
    apply keeps_bind_still (keeps_atomicWrite sourceBytes (inside _ (by simp [storedPaths])))
    · intro stored
      apply keeps_bind_still (keeps_atomicWrite pdfBytes (inside _ (by simp [storedPaths])))
      · exact fun stored => keeps_atomicWrite _ (inside _ (by simp [storedPaths]))
      · exact fun error => rfl
    · exact fun error => rfl
  · exact fun error => rfl

theorem keeps_obtainArtifact {selection : Selection}
    (inside : ∀ path ∈ storedPaths selection.paths, region.file path ∧ region.file (ArtifactStore.tmpPath path)) :
    BodyKeeps region capacity (worker.obtainArtifact selection) object fun _ object' => object' = object := by
  have looks : BodyKeeps region capacity (ArtifactStore.artifactExists selection.paths) object
      fun _ object' => object' = object :=
    keeps_call (.pathExists selection.paths.pdfPath) (inside _ (by simp [storedPaths])).1
  apply keeps_bind_still looks
  · intro stored
    split
    · exact keeps_pure rfl
    · apply keeps_bind_still (keeps_call (.downloadDocument _) trivial)
      · intro document
        apply keeps_bind_still (keeps_call (.convertToPdf _ _ _) trivial)
        · intro pdfBytes
          apply keeps_bind_lift
          · exact fun value valid => keeps_write inside _ _ _
          · exact fun error => rfl
        · exact fun error => rfl
      · exact fun error => rfl
  · exact fun error => rfl

end Files

/-- What the pipeline selects is one of the reports. -/
theorem keeps_producePdf (hosts : region.Hosts worker.settings taskId reports) (ours : Ours taskId reports object) :
    BodyKeeps region capacity worker.producePdf object fun result object' =>
      object' = object ∧ ∀ selection, result = .ok selection → reports selection.identity := by
  apply keeps_get
  apply keeps_bind_lift
  · intro company resolved
    apply keeps_bind_still (keeps_call (.getSubmissions _) trivial)
    · intro payload
      cases payload with
      | none => exact keeps_throw ⟨rfl, by simp⟩
      | some payload =>
        apply keeps_get
        apply keeps_bind_lift
        · intro selection selected
          obtain ⟨filings, record, url, _, identity, _, paths⟩ := worker.resolveFiling_ok selected
          have report : reports selection.identity := by
            rw [identity]
            split_ifs with latest
            · exact hosts.resolved object.identity _ ours.report latest
            · exact ours.report
          have inside := hosts.file selection.identity record.accessionNumber
            (if Text.extension record.primaryDocument = "" then ".html"
              else Text.extension record.primaryDocument) report
          rw [← paths] at inside
          apply keeps_bind_still (keeps_obtainArtifact inside)
          · intro obtained
            refine keeps_pure ⟨rfl, ?_⟩
            rintro chosen ⟨⟩
            exact report
          · exact fun error => ⟨rfl, by simp⟩
        · exact fun error => ⟨rfl, by simp⟩
    · exact fun error => ⟨rfl, by simp⟩
  · exact fun error => ⟨rfl, by simp⟩

theorem keeps_bookkeeping (hosts : region.Hosts worker.settings taskId reports) {original : ReportIdentity}
    (report : reports original) (ours : Ours taskId reports object) :
    BodyKeeps region capacity (Worker.bookkeeping original.logicalPath) object fun _ object' => object' = object := by
  have publishes : BodyKeeps region capacity Repository.publishArtifact object fun _ object' => object' = object := by
    apply keeps_get
    split
    · exact keeps_call (.hsetLogical _ _) (hosts.logical object.identity object.includeAmended ours.report)
    · exact keeps_throw rfl
  apply keeps_bind_still publishes
  · intro published
    apply keeps_get
    split
    · apply keeps_get
      exact keeps_clearPending hosts report _
    · exact keeps_pure rfl
  · exact fun error => rfl

theorem keeps_attempt (hosts : region.Hosts worker.settings taskId reports) {original : ReportIdentity}
    (report : reports original) (ours : Ours taskId reports object) :
    BodyKeeps region capacity (worker.attempt original.logicalPath) object
      fun _ object' => Ours taskId reports object' := by
  apply keeps_bind (keeps_producePdf hosts ours)
  · rintro selection produced ⟨rfl, selected⟩
    apply keeps_modify
    have ours' : Ours taskId reports { produced with identity := selection.identity } :=
      ⟨ours.same, selected selection rfl⟩
    refine keeps_bind (keeps_transition hosts ?_ ours') ?_ ?_
    · exact fun object ours => ⟨ours.same, ours.report⟩
    · intro value completed ours
      apply keeps_tryCatch (keeps_bookkeeping hosts report ours)
      · rintro error left rfl
        exact keeps_pure ours
      · rintro value' left rfl
        exact ours
    · exact fun error completed ours => ours
  · rintro error produced ⟨rfl, _⟩
    exact ours

/-- Whatever comes of it, `process_task` keeps to a region that hosts its task. -/
theorem processTask_keeps (hosts : region.Hosts worker.settings taskId reports) (ours : Ours taskId reports object) :
    BodyKeeps region worker.settings.maxQueueDepth worker.processTask object
      fun _ object' => Ours taskId reports object' := by
  have enters : BodyKeeps region worker.settings.maxQueueDepth (Repository.transition .processing id) object
      fun _ object' => Ours taskId reports object' :=
    keeps_transition hosts (fun _ ours => ours) ours
  apply keeps_get
  refine @keeps_bind _ _ _ _ _ _ _ _ _ (fun _ object' => Ours taskId reports object') ?_ ?_ ?_
  · refine keeps_tryCatch enters ?_ fun value object' ours => ours
    intro exc object' ours
    split
    · exact keeps_pure ours
    · exact keeps_throw ours
  · intro value object' ours'
    apply keeps_tryCatch (keeps_attempt hosts ours.report ours')
    · intro exc object'' ours
      split
      all_goals first
        | exact keeps_failPermanently hosts _ ours
        | exact keeps_failTransiently hosts _ ours
    · exact fun value' object'' ours => ours
  · exact fun error object' ours => ours

section Message

variable {entry : ℕ} {object : σ}

theorem keeps_ackAndRemove (own : entry < region.found ∧ region.slot entry) :
    BodyKeeps region capacity (Queue.ackAndRemove entry) object fun _ object' => object' = object := by
  apply keeps_bind_still (keeps_call (.xack entry) own)
  · exact fun acked => keeps_call (.xdel entry) own
  · exact fun error => rfl

/-- A body on an object of its own. -/
theorem keeps_own {τ : Type} {inner : τ} {body : Async τ α} {mid : Except Err α → τ → Prop}
    (keeps : BodyKeeps region capacity body inner mid) :
    BodyKeeps region capacity (Coroutine.own inner body) object fun _ object' => object' = object := by
  apply KeepsTo.bind keeps
  rintro ⟨error | value, inner'⟩ _
  · exact .done _ rfl
  · exact .done _ rfl

/-- What the region has in the place of the task's record is a record of it, of one of its reports. -/
def Tells (region : Region) (taskId : TaskId) (reports : ReportIdentity → Prop) : Prop :=
  ∀ task, region.about taskId task → Ours taskId reports task

theorem keeps_recoverFromUnhandled (hosts : region.Hosts worker.settings taskId reports)
    (tells : Tells region taskId reports) (own : entry < region.found ∧ region.slot entry) {task : ReportTask}
    (ours : Ours taskId reports task) (exc : Err) :
    BodyKeeps region capacity (worker.recoverFromUnhandled taskId task entry exc) object
      fun _ object' => object' = object := by
  apply keeps_bind (keeps_getTask hosts.record)
  · rintro read object' ⟨rfl, about⟩
    have current : Ours taskId reports { read.getD task with attempts := (read.getD task).attempts + 1 } := by
      cases read with
      | none => exact ⟨ours.same, ours.report⟩
      | some found =>
        have ours := tells found (about found rfl)
        exact ⟨ours.same, ours.report⟩
    dsimp only
    split_ifs
    · exact keeps_ackAndRemove own
    · have buries : BodyKeeps region capacity (Repository.forceFail ("Unhandled error: " ++ exc.message))
          { read.getD task with attempts := (read.getD task).attempts + 1 } fun _ _ => True := by
        apply keeps_get
        split
        · exact keeps_pure trivial
        · apply keeps_modify
          have ours' : Ours taskId reports { { read.getD task with attempts := (read.getD task).attempts + 1 } with
              state := .failed, error := some ("Unhandled error: " ++ exc.message) } := ⟨current.same, current.report⟩
          apply keeps_bind_still (keeps_save hosts ours')
          · intro saved
            apply keeps_get
            apply keeps_get
            exact (keeps_clearPending hosts ours'.report _).mono fun _ _ _ => trivial
          · exact fun error => trivial
      apply keeps_bind_still (keeps_own buries)
      · exact fun done => keeps_ackAndRemove own
      · exact fun error => rfl
    · apply keeps_bind_still (keeps_own (keeps_save hosts current))
      · exact fun done => keeps_pure rfl
      · exact fun error => rfl
  · rintro error object' ⟨rfl, _⟩
    rfl

theorem keeps_handleTask (hosts : region.Hosts worker.settings taskId reports) (tells : Tells region taskId reports)
    (own : entry < region.found ∧ region.slot entry) {task : ReportTask} (ours : Ours taskId reports task) :
    BodyKeeps region worker.settings.maxQueueDepth (worker.handleTask taskId entry) task fun _ _ => True := by
  refine @keeps_bind _ _ _ _ _ _ _ _ _ (fun _ object' => Ours taskId reports object') ?_ ?_ fun _ _ _ => trivial
  · refine @keeps_tryCatch _ _ _ _ _ _ _ _ (fun _ object' => Ours taskId reports object') ?_ ?_
      fun _ _ ours => ours
    · refine keeps_bind (processTask_keeps hosts ours) ?_ fun _ _ ours => ours
      exact fun done object' ours => keeps_pure ours
    · intro exc object' ours
      apply keeps_get
      refine @keeps_bind _ _ _ _ _ _ _ _ _ (fun _ object'' => object'' = object') ?_ ?_ ?_
      · refine keeps_tryCatch (keeps_recoverFromUnhandled hosts tells own ours exc) ?_ fun _ _ same => same
        rintro error object'' rfl
        exact keeps_pure rfl
      · rintro done object'' rfl
        exact keeps_pure ours
      · rintro error object'' rfl
        exact ours
  · intro handled object' _
    split
    · exact (keeps_ackAndRemove own).mono fun _ _ _ => trivial
    · exact keeps_pure trivial

/-- The handling of an entry keeps to a region that has the entry and hosts the task it names. -/
theorem handleMessage_keeps {fields : List (String × String)} (own : entry < region.found ∧ region.slot entry)
    (tells : ∀ taskId, fieldsTaskId fields = some taskId → taskId ≠ "" → ∃ reports,
      region.Hosts worker.settings taskId reports ∧ Tells region taskId reports) :
    KeepsTo region worker.settings.maxQueueDepth (fun _ => True) (worker.handleMessage entry fields ()) := by
  have acknowledges : BodyKeeps region worker.settings.maxQueueDepth (Queue.ackAndRemove entry) () fun _ _ => True :=
    (keeps_ackAndRemove own).mono fun _ _ _ => trivial
  suffices body : BodyKeeps region worker.settings.maxQueueDepth (worker.handleMessage entry fields) () fun _ _ => True
    from body
  unfold Worker.handleMessage
  cases named : fieldsTaskId fields with
  | none => exact acknowledges
  | some taskId =>
    by_cases nameless : taskId = ""
    · simp only [nameless, ↓reduceIte]
      exact acknowledges
    · simp only [nameless, ↓reduceIte]
      obtain ⟨reports, hosts, tells⟩ := tells taskId named nameless
      apply keeps_bind (keeps_getTask hosts.record)
      · rintro read object' ⟨rfl, about⟩
        cases read with
        | none => exact acknowledges
        | some task =>
          apply keeps_bind_still (keeps_own (keeps_handleTask hosts tells own (tells task (about task rfl))))
          · exact fun done => keeps_pure trivial
          · exact fun error => trivial
      · exact fun error object' _ => trivial

end Message

end Handling

end Quartr.Soundness
