import Quartr.Model.Edgar
import Quartr.Machine.Warrant
import Quartr.Soundness.Effects
import Quartr.Soundness.Keys
import Quartr.Soundness.Selection
import Quartr.Soundness.ServicePhases

/-! # Whether the current artifact can go backwards

`publish_artifact` overwrites the pointer of a logical path with what its handling selected from the list
it was given, however long ago that was. The pointer goes back exactly where the filing it names had not
been listed yet when the publishing handling read the list.
-/

namespace Quartr.Soundness

open Quartr.Machine Quartr.Model Quartr.Order
open Quartr.Machine.Coroutine (Follows Discreet follows_bind follows_tryCatch follows_own)

/-! ### What a handling publishes -/

/-- The task in hand is one that the log has a record of. -/
def Loaded (log : Log calls) (object : ReportTask) : Prop :=
  ∃ taskId task, (⟨.getTask taskId, .ok (some task)⟩ : Σ call, calls.Reply call) ∈ log ∧
    object.identity = task.identity ∧ object.includeAmended = task.includeAmended

/-- The selection is made for such a task, from a list that the log has the answer with. -/
structure Sourced (worker : Worker) (log : Log calls) (object : ReportTask) (selection : Selection) : Prop where
  loaded : Loaded log object
  selected : ∃ company payload, (⟨.getSubmissions company.cik, .ok (some payload)⟩ : Σ call, calls.Reply call) ∈ log ∧
    worker.resolveFiling company object payload = .ok selection

/-- SEC has not been asked for a list yet. -/
def Unasked (log : Log calls) : Prop := ∀ served ∈ log, ∀ company, served.1 ≠ .getSubmissions company

/-- What a call publishes is what was selected, and SEC is asked for a list once. -/
structure Selective (worker : Worker) (log : Log calls) (c : Call) : Prop where
  publishes : ∀ key artifact, c = .hsetLogical key artifact → ∃ object selection,
    Sourced worker log object selection ∧
      key = logicalKey selection.identity.logicalPath object.includeAmended ∧
      artifact.accessionNumber = selection.filing.accessionNumber
  once : ∀ company, c = .getSubmissions company → Unasked log

/-- Neither a publication nor a question for a list. -/
def Plain (c : Call) : Prop :=
  (∀ key artifact, c ≠ .hsetLogical key artifact) ∧ ∀ company, c ≠ .getSubmissions company

section Handling

variable {worker : Worker} {σ : Type} {holds : σ → Prop} {object task : ReportTask} {log log' : Log calls}

theorem Plain.selective {c : Call} (plain : Plain c) (log : Log calls) : Selective worker log c :=
  ⟨fun key artifact same => absurd same (plain.1 key artifact), fun company same => absurd same (plain.2 company)⟩

theorem discreet_call {c : Call} (plain : Plain c) : Discreet (Selective worker) holds (call c) :=
  .await plain.selective

/-- A call that is permitted even where a list has been asked for asks for none. -/
theorem Unasked.grown (unasked : Unasked log) (grown : Grown (Selective worker) log log') : Unasked log' := by
  intro served member company same
  rcases grown.new member with old | permitted
  · exact unasked served old company same
  · exact (permitted [⟨.getSubmissions company, .ok none⟩]).once company same _ (List.mem_singleton_self _) company rfl

theorem discreet_save {holds : ReportTask → Prop} : Discreet (Selective worker) holds Repository.save :=
  .bind .get fun _ => discreet_call (by simp [Plain])

theorem discreet_clearPending (path : String) (includeAmended : Bool) :
    Discreet (Selective worker) holds (Repository.clearPending path includeAmended) :=
  discreet_call (by simp [Plain])

/-- A transition publishes nothing. -/
theorem discreet_transition {holds : ReportTask → Prop} {target : ReportState} {updates : ReportTask → ReportTask}
    (kept : ∀ task, holds task → holds (updates { task with state := target })) :
    Discreet (Selective worker) holds (Repository.transition target updates) := by
  unfold Repository.transition
  refine .bind .get fun _ => .bind .lift fun _ => .bind (.modify kept) fun _ => .bind discreet_save fun _ => ?_
  exact .ite (.bind .get fun _ => .bind .get fun _ => discreet_clearPending _ _) .pure

theorem discreet_ackAndRemove (entry : ℕ) : Discreet (Selective worker) holds (Queue.ackAndRemove entry) :=
  .bind (discreet_call (by simp [Plain])) fun _ => discreet_call (by simp [Plain])

theorem discreet_depth : Discreet (Selective worker) holds Queue.depth := by
  refine .tryCatch (discreet_call (by simp [Plain])) fun error => ?_
  split
  · exact .pure
  · exact fun _ log held => ⟨held, .refl log⟩

theorem discreet_enqueue (settings : Settings) (taskId : TaskId) :
    Discreet (Selective worker) holds (Queue.enqueue settings taskId) := by
  unfold Queue.enqueue
  refine .bind discreet_depth fun depth => ?_
  refine .ite (.bind (fun _ log held => ⟨held, .refl log⟩) fun _ => discreet_call (by simp [Plain]))
    (discreet_call (by simp [Plain]))

theorem discreet_failPermanently (exc : Err) :
    Discreet (Selective worker) (fun _ => True) (Worker.failPermanently exc) :=
  discreet_transition fun _ _ => trivial

theorem discreet_failTransiently (exc : Err) :
    Discreet (Selective worker) (fun _ => True) (worker.failTransiently exc) := by
  unfold Worker.failTransiently
  refine .bind (.modify fun _ _ => trivial) fun _ => .bind .get fun _ => .ite ?_ ?_
  · exact discreet_transition fun _ _ => trivial
  · refine .bind (discreet_transition fun _ _ => trivial) fun _ => .bind (discreet_transition fun _ _ => trivial) fun _ => ?_
    exact .bind .get fun _ => discreet_enqueue _ _

theorem discreet_forceFail (message : String) :
    Discreet (Selective worker) (fun _ => True) (Repository.forceFail message) := by
  unfold Repository.forceFail
  refine .bind .get fun _ => .ite .pure ?_
  refine .bind (.modify fun _ _ => trivial) fun _ => .bind discreet_save fun _ => ?_
  exact .bind .get fun _ => .bind .get fun _ => discreet_clearPending _ _

theorem discreet_recover (taskId : TaskId) (task : ReportTask) (entry : ℕ) (exc : Err) :
    Discreet (Selective worker) holds (worker.recoverFromUnhandled taskId task entry exc) := by
  unfold Worker.recoverFromUnhandled
  refine .bind (discreet_call (by simp [Plain])) fun read => .ite (discreet_ackAndRemove entry) (.ite ?_ ?_)
  · exact .bind (.own (discreet_forceFail _) trivial) fun _ => discreet_ackAndRemove entry
  · exact .bind (.own (@discreet_save worker fun _ => True) trivial) fun _ => .pure

theorem discreet_atomicWrite (path : String) (data : Bytes) :
    Discreet (Selective worker) holds (ArtifactStore.atomicWrite path data) :=
  .bind (discreet_call (by simp [Plain])) fun _ => .bind (discreet_call (by simp [Plain])) fun _ => discreet_call (by simp [Plain])

theorem discreet_obtainArtifact (selection : Selection) :
    Discreet (Selective worker) holds (worker.obtainArtifact selection) := by
  unfold Worker.obtainArtifact
  refine .bind (discreet_call (by simp [Plain])) fun stored => .ite .pure ?_
  refine .bind (discreet_call (by simp [Plain])) fun _ => .bind (discreet_call (by simp [Plain])) fun _ => .bind .lift fun _ => ?_
  refine .bind (discreet_call (by simp [Plain])) fun _ => .bind (discreet_atomicWrite _ _) fun _ => ?_
  exact .bind (discreet_atomicWrite _ _) fun _ => discreet_atomicWrite _ _

theorem Loaded.mono (loaded : Loaded log object) (grown : ∀ served ∈ log, served ∈ log') : Loaded log' object := by
  obtain ⟨taskId, task, member, same⟩ := loaded
  exact ⟨taskId, task, grown _ member, same⟩

theorem Sourced.mono {selection : Selection} (sourced : Sourced worker log object selection)
    (grown : ∀ served ∈ log, served ∈ log') : Sourced worker log' object selection := by
  obtain ⟨company, payload, member, resolved⟩ := sourced.selected
  exact ⟨sourced.loaded.mono grown, company, payload, grown _ member, resolved⟩

/-- The pipeline selects from the list it has been answered. -/
theorem producePdf_sources (loaded : Loaded log object) (unasked : Unasked log) :
    Follows (Warranted (Selective worker)) worker.producePdf object log
      (fun result object' log' => object' = object ∧ ∀ selection, result = .ok selection →
        Sourced worker log' object selection) := by
  refine follows_bind.mpr (Coroutine.follows_get.mpr (follows_bind.mpr (Coroutine.follows_lift.mpr ?_)))
  cases worker.cikMapping.resolve object.identity.ticker with
  | error error => exact ⟨rfl, by simp⟩
  | ok company =>
    have first : Selective worker log (.getSubmissions company.cik) := ⟨by simp, fun _ _ => unasked⟩
    apply follows_bind.mpr
    apply follows_call.mpr
    intro reply
    refine ⟨_, .call log _ reply first, ?_⟩
    rcases reply with error | _ | payload
    · exact ⟨rfl, by simp⟩
    · exact ⟨rfl, by simp⟩
    refine follows_bind.mpr (Coroutine.follows_get.mpr (follows_bind.mpr (Coroutine.follows_lift.mpr ?_)))
    cases resolved : worker.resolveFiling company object payload with
    | error error => exact ⟨rfl, by simp⟩
    | ok selection =>
      apply follows_bind.mpr
      apply (@discreet_obtainArtifact worker _ (· = object) selection object _ rfl).mono
      rintro (error | _) object' log' ⟨rfl, grown⟩
      · exact ⟨rfl, by simp⟩
      · refine ⟨rfl, ?_⟩
        intro other same
        obtain rfl := Except.ok.inj same
        refine ⟨loaded.mono fun served member => grown.mem (List.mem_cons_of_mem _ member), company, payload, ?_,
          resolved⟩
        exact grown.mem (List.mem_cons_self ..)

/-- What is published is the selection of the record that was saved. -/
theorem bookkeeping_sources {selection : Selection} {saved : ReportTask} {original : String}
    (sourced : Sourced worker log object selection) (identity : saved.identity = selection.identity)
    (amended : saved.includeAmended = object.includeAmended) (filed : saved.filing = some selection.filing)
    (stored : saved.artifactPath = some selection.paths.pdfPath) :
    Follows (Warranted (Selective worker)) (tryCatch (Worker.bookkeeping original) fun _ => pure ()) saved log
      (fun _ _ _ => True) := by
  have published : Selective worker log (.hsetLogical (logicalKey saved.identity.logicalPath saved.includeAmended)
      ⟨selection.filing.accessionNumber, selection.paths.pdfPath, selection.filing.cik⟩) := by
    constructor
    · intro key artifact same
      cases same
      exact ⟨object, selection, sourced, by rw [identity, amended], rfl⟩
    · intro company same
      cases same
  apply follows_tryCatch.mpr
  refine follows_bind.mpr (follows_bind.mpr (Coroutine.follows_get.mpr ?_))
  simp only [filed, stored]
  apply follows_call.mpr
  intro reply
  refine ⟨_, .call log _ reply published, ?_⟩
  cases reply with
  | error error => trivial
  | ok answer =>
    have rest : Discreet (Selective worker) (fun _ : ReportTask => True) (do
        if (← get).identity.logicalPath ≠ original then
          Repository.clearPending original (← get).includeAmended) :=
      .bind .get fun _ => .ite (.bind .get fun _ => discreet_clearPending _ _) .pure
    apply (rest saved _ trivial).mono
    rintro (error | _) object' log' _ <;> trivial

theorem attempt_sources {original : String} (loaded : Loaded log object) (unasked : Unasked log) :
    Follows (Warranted (Selective worker)) (worker.attempt original) object log (fun _ _ _ => True) := by
  apply follows_bind.mpr
  apply (producePdf_sources loaded unasked).mono
  rintro (error | selection) object' log' ⟨rfl, sources⟩
  · trivial
  have sourced := sources selection rfl
  refine follows_bind.mpr (Coroutine.follows_modify.mpr (follows_bind.mpr ?_))
  cases legal : canTransition object'.state .completed with
  | false => exact follows_transition_illegal legal trivial
  | true =>
    refine follows_transition_terminal legal (by decide) rfl ?_
    intro reply
    refine ⟨_, .call log' _ reply (Plain.selective (by simp [Plain]) log'), ?_⟩
    cases reply with
    | error error => trivial
    | ok answer =>
      intro reply
      refine ⟨_, .call _ _ reply (Plain.selective (by simp [Plain]) _), ?_⟩
      cases reply with
      | error error => trivial
      | ok answer =>
        refine bookkeeping_sources (sourced.mono fun served member => ?_) rfl rfl rfl rfl
        exact List.mem_cons_of_mem _ (List.mem_cons_of_mem _ member)

theorem processTask_sources (loaded : Loaded log task) (unasked : Unasked log) :
    Follows (Warranted (Selective worker)) worker.processTask task log (fun _ _ _ => True) := by
  have entering {handler : Err → Async ReportTask Unit}
      (handled : ∀ error, Discreet (Selective worker) (fun object => object.identity = task.identity ∧
        object.includeAmended = task.includeAmended) (handler error)) :
      Discreet (Selective worker) (fun object => object.identity = task.identity ∧
        object.includeAmended = task.includeAmended) (tryCatch (Repository.transition .processing id) handler) :=
    .tryCatch (discreet_transition fun _ kept => kept) handled
  refine follows_bind.mpr (Coroutine.follows_get.mpr (follows_bind.mpr ?_))
  refine (entering (fun error => ?_) task log ⟨rfl, rfl⟩).mono ?_
  · split
    · exact .pure
    · exact fun _ log held => ⟨held, .refl log⟩
  rintro (error | _) object log' ⟨⟨identity, amended⟩, grown⟩
  · trivial
  obtain ⟨taskId, record, member, same, same'⟩ := loaded
  have loaded' : Loaded log' object := ⟨taskId, record, grown.mem member, identity.trans same, amended.trans same'⟩
  apply follows_tryCatch.mpr
  apply (attempt_sources loaded' (unasked.grown grown)).mono
  rintro (exc | _) object' log'' _
  · dsimp only
    split
    all_goals first
      | exact (discreet_failPermanently _ _ _ trivial).mono fun _ _ _ _ => trivial
      | exact (discreet_failTransiently _ _ _ trivial).mono fun _ _ _ _ => trivial
  · trivial

theorem handleTask_sources {taskId : TaskId} {entry : ℕ} (loaded : Loaded log task) (unasked : Unasked log) :
    Follows (Warranted (Selective worker)) (worker.handleTask taskId entry) task log (fun _ _ _ => True) := by
  refine follows_bind.mpr (follows_tryCatch.mpr (follows_bind.mpr ((processTask_sources loaded unasked).mono ?_)))
  rintro (exc | _) object log' _
  · have recovering : Discreet (Selective worker) (fun _ : ReportTask => True) (do
        tryCatch (worker.recoverFromUnhandled taskId (← get) entry exc) fun _ => pure ()
        return false) :=
      .bind .get fun _ => .bind (.tryCatch (discreet_recover _ _ _ _) fun _ => .pure) fun _ => .pure
    apply (recovering object log' trivial).mono
    rintro (error | _ | _) object' log'' _
    · trivial
    · trivial
    · exact (@discreet_ackAndRemove worker _ (fun _ => True) entry object' log'' trivial).mono fun _ _ _ _ => trivial
  · exact (@discreet_ackAndRemove worker _ (fun _ => True) entry object log' trivial).mono fun _ _ _ _ => trivial

/-- A handling publishes only what it has selected for the task it loaded from the list it was answered. -/
theorem handleMessage_sources (entry : ℕ) (fields : List (String × String)) :
    Follows (Warranted (Selective worker)) (worker.handleMessage entry fields) () [] (fun _ _ _ => True) := by
  have dropped (log : Log calls) :
      Follows (Warranted (Selective worker)) (Queue.ackAndRemove entry) () log (fun _ _ _ => True) :=
    (@discreet_ackAndRemove worker _ (fun _ => True) entry () log trivial).mono fun _ _ _ _ => trivial
  unfold Worker.handleMessage
  cases fieldsTaskId fields with
  | none => exact dropped []
  | some taskId =>
    by_cases empty : taskId = ""
    · simp only [empty, ↓reduceIte]
      exact dropped []
    simp only [empty, ↓reduceIte]
    apply follows_bind.mpr
    apply follows_call.mpr
    intro reply
    refine ⟨_, .call [] _ reply (Plain.selective (by simp [Plain]) []), ?_⟩
    rcases reply with error | _ | task
    · trivial
    · exact dropped _
    · have loaded : Loaded [⟨.getTask taskId, .ok (some task)⟩] task :=
        ⟨taskId, task, List.mem_singleton_self _, rfl, rfl⟩
      have unasked : Unasked [⟨.getTask taskId, .ok (some task)⟩] := by simp [Unasked]
      apply follows_bind.mpr
      apply follows_own.mpr
      apply (handleTask_sources loaded unasked).mono
      rintro (error | _) object log' _ <;> trivial

end Handling

/-! ### SEC's list -/

section Listing

variable {payload payload' payload'' : SubmissionsPayload} {filing filing' : FilingRecord}
  {selector : FilingSelector} {year : Option ℤ}

theorem extends_refl (payload : SubmissionsPayload) : Extends payload payload :=
  ⟨fun filing member => ⟨filing, member, rfl⟩, fun filing member => .inl ⟨filing, member, rfl⟩⟩

/-- Filings with the same row have the same date. -/
theorem ordinal_of_row (same : filing.row = filing'.row) : filing.filingDate.ordinal = filing'.filingDate.ordinal := by
  rw [FilingRecord.row, FilingRecord.row, Prod.mk.injEq, Prod.mk.injEq] at same
  rw [same.2.1]

theorem extends_trans (first : Extends payload payload') (second : Extends payload' payload'') :
    Extends payload payload'' := by
  constructor
  · intro filing member
    obtain ⟨filing', member', same⟩ := first.1 filing member
    obtain ⟨filing'', member'', same'⟩ := second.1 filing' member'
    exact ⟨filing'', member'', same'.trans same⟩
  · intro filing'' member''
    rcases second.2 filing'' member'' with ⟨filing', member', same⟩ | later
    · rcases first.2 filing' member' with ⟨filing, member, same'⟩ | later
      · exact .inl ⟨filing, member, same'.trans same⟩
      · exact .inr fun filing member => ordinal_of_row same ▸ later filing member
    · refine .inr fun filing member => ?_
      obtain ⟨filing', member', same⟩ := first.1 filing member
      exact ordinal_of_row same ▸ later filing' member'

/-- The filters look at nothing but the row. -/
theorem wanted_of_row (same : filing.row = filing'.row) : wanted selector year filing = wanted selector year filing' := by
  simp only [FilingRecord.row, Prod.mk.injEq] at same
  unfold wanted
  rw [same.1, same.2.1, same.2.2.2]

theorem accession_of_row (same : filing.row = filing'.row) : filing.accessionNumber = filing'.accessionNumber := by
  simp only [FilingRecord.row, Prod.mk.injEq] at same
  exact same.2.2.1

/-- A selection is made from the filings of the payload. -/
theorem resolveFiling_selects {worker : Worker} {company : CompanyRecord} {task : ReportTask} {selection : Selection}
    (resolved : worker.resolveFiling company task payload = .ok selection) : ∃ record,
      selectLatest payload.filings ⟨task.identity.form, task.includeAmended⟩
        (if task.identity.year = latestYearSentinel then none else some task.identity.year) = .ok record ∧
      selection.identity = (if task.identity.year = latestYearSentinel then
        { task.identity with year := record.filingDate.year } else task.identity) ∧
      selection.filing.accessionNumber = record.accessionNumber := by
  unfold Worker.resolveFiling at resolved
  obtain ⟨filings, parsed, resolved⟩ := bind_eq_ok.mp resolved
  obtain ⟨record, selected, resolved⟩ := bind_eq_ok.mp resolved
  obtain ⟨url, _, resolved⟩ := bind_eq_ok.mp resolved
  have listed : payload.filings = filings := by
    rw [SubmissionsPayload.filings, parsed]
    rfl
  cases resolved
  rw [listed]
  exact ⟨record, selected, rfl, rfl⟩

end Listing

/-! ### Publications under one path -/

/-- What the handlings are about: a company at SEC, and a logical path with its flag. -/
structure Target where
  cik : String
  identity : ReportIdentity
  includeAmended : Bool

namespace Target

variable (target : Target)

def key : String := logicalKey target.identity.logicalPath target.includeAmended

def selector : FilingSelector := ⟨target.identity.form, target.includeAmended⟩

/-- A reply a handling may have had that publishes under the path: its task is under the path once the year
is the path's, and has the flag, and it has asked SEC for the company. -/
def Concerns : (Σ call, calls.Reply call) → Prop
  | ⟨.getTask _, .ok (some task)⟩ =>
    { task.identity with year := target.identity.year }.logicalPath = target.identity.logicalPath ∧
      task.includeAmended = target.includeAmended
  | ⟨.getSubmissions company, _⟩ => company = target.cik
  | _ => True

/-- The reply is SEC's list of the company, and the accession number is in it. -/
def Lists (accession : String) : (Σ call, calls.Reply call) → Prop
  | ⟨.getSubmissions company, .ok (some payload)⟩ =>
    company = target.cik ∧ ∃ filing ∈ payload.filings, filing.accessionNumber = accession
  | _ => False

variable {target} in
theorem lists_cases {accession : String} {served : Σ call, calls.Reply call} (lists : target.Lists accession served) :
    ∃ payload, served = ⟨.getSubmissions target.cik, .ok (some payload)⟩ ∧
      ∃ filing ∈ payload.filings, filing.accessionNumber = accession := by
  unfold Lists at lists
  split at lists
  · obtain ⟨rfl, filing⟩ := lists
    exact ⟨_, rfl, filing⟩
  · exact lists.elim

/-- Whoever publishes under the key handles a task of the path and the flag, for the company. -/
def Publishers (config : EdgarConfig) : EdgarEvent → Prop
  | .reply id (.hsetLogical key _) _ =>
    key = target.key → ∀ process ∈ config.process id, ∀ served ∈ process.log, target.Concerns served
  | _ => True

/-- The process has been answered a list with the accession number. -/
def HadRead (config : EdgarConfig) (id : ℕ) (accession : String) : Prop :=
  ∃ process ∈ config.process id, ∃ served ∈ process.log, target.Lists accession served

end Target

/-- By what SEC lists, the second accession number was filed no earlier than the first. -/
def FiledNoLater (listed : SubmissionsPayload) (accession accession' : String) : Prop :=
  ∃ filing ∈ listed.filings, ∃ filing' ∈ listed.filings, filing.accessionNumber = accession ∧
    filing'.accessionNumber = accession' ∧ filing.filingDate.ordinal ≤ filing'.filingDate.ordinal

section Publication

variable {target : Target} {worker : Worker} {log : Log calls} {object : ReportTask} {selection : Selection}
  {settings : Settings} {uuid : ℕ → TaskId} {config config' : EdgarConfig} {event : EdgarEvent}

/-- What is published under the path is the latest candidate for it in the list that was read. -/
theorem Sourced.latest (sourced : Sourced worker log object selection)
    (concerns : ∀ served ∈ log, target.Concerns served)
    (same : logicalKey selection.identity.logicalPath object.includeAmended = target.key) :
    ∃ payload record, (⟨.getSubmissions target.cik, .ok (some payload)⟩ : Σ call, calls.Reply call) ∈ log ∧
      FirstMax filed (candidates payload.filings target.selector (some target.identity.year)) record ∧
      selection.filing.accessionNumber = record.accessionNumber := by
  obtain ⟨taskId, task, loaded, identity, amended⟩ := sourced.loaded
  obtain ⟨company, payload, answered, resolved⟩ := sourced.selected
  obtain ⟨path, flag⟩ := concerns _ loaded
  have asked : company.cik = target.cik := concerns _ answered
  have forms : object.identity.form = target.identity.form := by
    have parts := @key_parts { task.identity with year := target.identity.year } target.identity false false ""
      (by rw [path])
    rw [identity]
    exact parts.2.1
  have flags : object.includeAmended = target.includeAmended := amended.trans flag
  obtain ⟨record, selected, resolvedIdentity, accession⟩ := resolveFiling_selects resolved
  have years : selection.identity.year = target.identity.year := by
    unfold logicalKey Target.key logicalKey at same
    exact (key_parts same).2.2.1
  refine ⟨payload, record, asked ▸ answered, ?_, accession⟩
  rw [forms, flags] at selected
  by_cases latest : object.identity.year = latestYearSentinel
  · simp only [latest, ↓reduceIte] at selected resolvedIdentity
    rw [resolvedIdentity] at years
    rw [← years]
    exact selectLatest_firstMax (selectLatest_year selected)
  · simp only [latest, ↓reduceIte] at selected resolvedIdentity
    rw [← years, resolvedIdentity]
    exact selectLatest_firstMax selected

theorem RequestStep.plain {ticket : Ticket} {phase phase' : RequestPhase} {c : Call} {reply : calls.Reply c}
    (step : RequestStep ticket phase c reply phase') : Plain c := by
  have next := step.call?_eq
  cases phase <;> cases next <;> simp [Plain]

/-- What the log of a process permits it to call. -/
def permitted (settings : Settings) : EdgarActivity → Log calls → Call → Prop
  | .service (.handling cikMapping now _ _) => Selective ⟨settings, cikMapping, now⟩
  | _ => fun _ c => Plain c

theorem permitted_once {activity : EdgarActivity} {c : Call} (allowed : permitted settings activity log c)
    (company : String) (asks : c = .getSubmissions company) : Unasked log := by
  rcases activity with (⟨cikMapping, payload⟩ | ⟨cikMapping, now, entry, fields⟩) | payload
  · exact absurd asks (allowed.2 company)
  · exact allowed.once company asks
  · exact absurd asks (allowed.2 company)

theorem body_warranted (id : ℕ) (activity : EdgarActivity) :
    (Edgar.body settings uuid id activity).Follows (Warranted (permitted settings activity)) (fun _ _ => True) [] := by
  cases activity with
  | listing payload => trivial
  | service activity =>
    apply Program.Follows.bind_iff.mpr
    cases activity with
    | request cikMapping payload =>
      have follows := (@service_refines settings uuid Faulty).follows id (.request cikMapping payload)
      refine (follows.warranted ?_ []).mono fun _ _ _ => trivial
      intro phase c reply phase' step log
      cases step with
      | request identified step => exact step.plain
    | handling cikMapping now entry fields =>
      apply Program.Follows.bind_iff.mpr
      have sources := @handleMessage_sources ⟨settings, cikMapping, now⟩ entry fields
      exact Program.Follows.mono sources fun _ _ _ => trivial

/-- SEC's list never shrinks. -/
theorem listed_extends (step : (edgarSystem settings uuid target.cik).Step config event config') :
    Extends config.world.listed config'.world.listed := by
  cases step with
  | @start id activity edgar absent begins =>
    cases activity with
    | service activity => exact begins.2 ▸ extends_refl _
    | listing payload => exact begins.2.1 ▸ begins.2.2
  | reply present alive moves served => exact served.2.1 ▸ extends_refl _
  | kill present alive => exact extends_refl _

/-- A step leaves the pointer alone or is a publication under its key. -/
theorem pointer_cases (step : (edgarSystem settings uuid target.cik).Step config event config') (key : String) :
    config'.world.world.logical key = config.world.world.logical key ∨ ∃ id artifact reply,
      event = .reply id (.hsetLogical key artifact) reply ∧ config'.world.world.logical key = some artifact := by
  cases step with
  | @start id activity edgar absent begins =>
    apply Or.inl
    rw [Config.put_world]
    cases activity with
    | service activity =>
      cases activity with
      | request cikMapping payload => rw [begins.1]
      | handling cikMapping now entry fields => rw [begins.1.2]
    | listing payload => rw [begins.1]
  | @reply id process c reply control edgar present alive moves served =>
    rw [Config.put_world]
    rcases served_world served.1 with same | same
    · exact .inl (by rw [same])
    · rw [same, World.after_logical]
      cases c with
      | hsetLogical key' artifact =>
        by_cases keys : key = key'
        · subst keys
          exact .inr ⟨id, artifact, reply, rfl, Function.update_self ..⟩
        · exact .inl (Function.update_of_ne keys ..)
      | _ => exact .inl rfl
  | kill present alive => exact .inl rfl

/-- A handling asks SEC for a list at most once. -/
def AskedOnce (log : Log calls) : Prop :=
  ∀ served ∈ log, ∀ served' ∈ log, ∀ company company', served.1 = .getSubmissions company →
    served'.1 = .getSubmissions company' → served = served'

theorem AskedOnce.cons (once : AskedOnce log) {c : Call} {reply : calls.Reply c}
    (unasked : ∀ company, c = .getSubmissions company → Unasked log) : AskedOnce (⟨c, reply⟩ :: log) := by
  intro served member served' member' company company' asks asks'
  rcases List.mem_cons.mp member with rfl | member
  · rcases List.mem_cons.mp member' with rfl | member'
    · rfl
    · exact absurd asks' (unasked company asks served' member' company')
  · rcases List.mem_cons.mp member' with rfl | member'
    · exact absurd asks (unasked company' asks' served member company)
    · exact once served member served' member' company company' asks asks'

/-- Every list that was read is a part of the list there is now, and the pointer names a candidate of it. -/
structure CurrencyInvariant (settings : Settings) (target : Target) (config : EdgarConfig) : Prop where
  warranted : config.Warranted (permitted settings)
  once : ∀ id process, config.process id = some process → AskedOnce process.log
  read : ∀ id process, config.process id = some process → ∀ payload,
    (⟨.getSubmissions target.cik, .ok (some payload)⟩ : Σ call, calls.Reply call) ∈ process.log →
      Extends payload config.world.listed
  pointer : ∀ artifact, config.world.world.logical target.key = some artifact →
    ∃ filing ∈ config.world.listed.filings, filing.accessionNumber = artifact.accessionNumber ∧
      wanted target.selector (some target.identity.year) filing = true

/-- A publication is the latest candidate of a list that its process has read. -/
theorem CurrencyInvariant.publication (invariant : CurrencyInvariant settings target config)
    {id : ℕ} {artifact : CurrentArtifact} {reply : calls.Reply (.hsetLogical target.key artifact)}
    (step : (edgarSystem settings uuid target.cik).Step config (.reply id (.hsetLogical target.key artifact) reply) config')
    (publishers : target.Publishers config (.reply id (.hsetLogical target.key artifact) reply)) :
    ∃ process payload record, config.process id = some process ∧
      (⟨.getSubmissions target.cik, .ok (some payload)⟩ : Σ call, calls.Reply call) ∈ process.log ∧
      (∀ served ∈ process.log, target.Concerns served) ∧
      FirstMax filed (candidates payload.filings target.selector (some target.identity.year)) record ∧
      artifact.accessionNumber = record.accessionNumber := by
  obtain ⟨process, present, allowed⟩ := invariant.warranted.permitted step
  have concerns := publishers rfl process present
  obtain ⟨activity, control, log, killed⟩ := process
  rcases activity with (⟨cikMapping, payload⟩ | ⟨cikMapping, now, entry, fields⟩) | payload
  · exact absurd rfl (allowed.1 target.key artifact)
  · obtain ⟨object, selection, sourced, key, accession⟩ := allowed.publishes target.key artifact rfl
    obtain ⟨payload, record, answered, greatest, same⟩ := sourced.latest concerns key.symm
    exact ⟨_, payload, record, present, answered, concerns, greatest, accession.trans same⟩
  · exact absurd rfl (allowed.1 target.key artifact)

/-- A candidate of a list is one of every list that extends it. -/
theorem candidate_kept {payload payload' : SubmissionsPayload} {filing : FilingRecord}
    (extended : Extends payload payload') (member : filing ∈ payload.filings) : ∃ filing' ∈ payload'.filings,
      filing'.accessionNumber = filing.accessionNumber ∧
        wanted target.selector (some target.identity.year) filing' =
          wanted target.selector (some target.identity.year) filing ∧
        filing'.filingDate.ordinal = filing.filingDate.ordinal := by
  obtain ⟨filing', member', same⟩ := extended.1 filing member
  exact ⟨filing', member', accession_of_row same, wanted_of_row same, ordinal_of_row same⟩

theorem CurrencyInvariant.step (invariant : CurrencyInvariant settings target config)
    (publishers : target.Publishers config event)
    (step : (edgarSystem settings uuid target.cik).Step config event config') :
    CurrencyInvariant settings target config' := by
  have extended := listed_extends step
  refine ⟨invariant.warranted.step body_warranted step, ?_, ?_, ?_⟩
  · refine @System.Step.forall_process _ _ _ _ _ (fun _ _ process => AskedOnce process.log) config config' event
      step invariant.once ?_ (fun _ _ _ _ holds => holds)
    intro process present
    cases step with
    | start absent begins =>
      cases Config.put_self.symm.trans present
      exact fun _ none => by cases none
    | @reply id before c reply control edgar there alive moves served =>
      cases Config.put_self.symm.trans present
      obtain ⟨_, there', allowed⟩ := invariant.warranted.permitted (.reply there alive moves served)
      obtain rfl := Option.some.inj (there.symm.trans there')
      exact (invariant.once id before there).cons fun company asks => permitted_once allowed company asks
    | @kill id before there alive =>
      cases Config.put_self.symm.trans present
      exact invariant.once id before there
  · refine @System.Step.forall_process _ _ _ _ _ (fun (edgar : Edgar) _ process => ∀ payload,
      (⟨.getSubmissions target.cik, .ok (some payload)⟩ : Σ call, calls.Reply call) ∈ process.log →
        Extends payload edgar.listed) config config' event step invariant.read ?_ ?_
    · intro process present payload answered
      cases step with
      | start absent begins =>
        cases Config.put_self.symm.trans present
        cases answered
      | @reply id before c reply control edgar there alive moves served =>
        cases Config.put_self.symm.trans present
        rcases List.mem_cons.mp answered with same | answered
        · cases same
          have honest := served.2.2 rfl payload rfl
          exact honest ▸ extended
        · exact extends_trans (invariant.read id before there payload answered) extended
      | @kill id before there alive =>
        cases Config.put_self.symm.trans present
        exact invariant.read id before there payload answered
    · exact fun id process _ present holds payload answered => extends_trans (holds payload answered) extended
  · intro artifact current
    rcases pointer_cases step target.key with same | ⟨id, published, reply, rfl, same⟩
    · obtain ⟨filing, member, accession, candidate⟩ := invariant.pointer artifact (same ▸ current)
      obtain ⟨filing', member', accession', candidate', _⟩ := candidate_kept extended member
      exact ⟨filing', member', accession'.trans accession, candidate'.trans candidate⟩
    · obtain rfl := Option.some.inj (same.symm.trans current)
      obtain ⟨process, payload, record, present, answered, _, greatest, accession⟩ :=
        invariant.publication step publishers
      have candidate := greatest.mem
      rw [candidates_eq, List.mem_filter] at candidate
      obtain ⟨filing', member', accession', candidate', _⟩ := candidate_kept
        (extends_trans (invariant.read id process present payload answered) extended) candidate.1
      exact ⟨filing', member', accession'.trans accession.symm, candidate'.trans candidate.2⟩

/-- A publication under the path that replaces the filing the pointer names: it was filed no later than the
new one if the process had read of it, and no earlier if it had not. -/
theorem CurrencyInvariant.replaced (invariant : CurrencyInvariant settings target config)
    (publishers : target.Publishers config event)
    (step : (edgarSystem settings uuid target.cik).Step config event config') {old new : CurrentArtifact}
    (before : config.world.world.logical target.key = some old)
    (after : config'.world.world.logical target.key = some new) :
    (target.HadRead config event.id old.accessionNumber →
      FiledNoLater config.world.listed old.accessionNumber new.accessionNumber) ∧
    (¬ target.HadRead config event.id old.accessionNumber →
      FiledNoLater config.world.listed new.accessionNumber old.accessionNumber) := by
  obtain ⟨filing, member, accession, candidate⟩ := invariant.pointer old before
  rcases pointer_cases step target.key with same | ⟨id, published, reply, rfl, same⟩
  · obtain rfl := Option.some.inj (before.symm.trans (same.symm.trans after))
    have unchanged : FiledNoLater config.world.listed old.accessionNumber old.accessionNumber :=
      ⟨filing, member, filing, member, accession, accession, Nat.le_refl _⟩
    exact ⟨fun _ => unchanged, fun _ => unchanged⟩
  obtain rfl := Option.some.inj (same.symm.trans after)
  obtain ⟨process, payload, record, present, answered, concerns, greatest, published⟩ :=
    invariant.publication step publishers
  have extended := invariant.read id process present payload answered
  have chosen := greatest.mem
  rw [candidates_eq, List.mem_filter] at chosen
  obtain ⟨record', member', accession', _, dated⟩ := @candidate_kept target _ _ _ extended chosen.1
  constructor
  · rintro ⟨reader, there, served, read, lists⟩
    obtain rfl := Option.some.inj (present.symm.trans there)
    obtain ⟨payload', rfl, listed, inside, numbered⟩ := Target.lists_cases lists
    have one := invariant.once id process present _ answered _ read target.cik target.cik rfl rfl
    obtain rfl : payload = payload' := by
      cases one
      rfl
    obtain ⟨filing', member'', accession'', candidate'', dated'⟩ := @candidate_kept target _ _ _ extended inside
    -- The number names one filing, so the one that was read is a candidate as well.
    have rows := config.world.unambiguous filing member filing' member''
      (accession.trans (accession''.trans numbered).symm)
    have offered : listed ∈ candidates payload.filings target.selector (some target.identity.year) := by
      rw [candidates_eq, List.mem_filter]
      exact ⟨inside, candidate''.symm.trans ((wanted_of_row rows).symm.trans candidate)⟩
    refine ⟨filing, member, record', member', accession, accession'.trans published.symm, ?_⟩
    rw [ordinal_of_row rows, dated', dated]
    exact greatest.le offered
  · intro unread
    refine ⟨record', member', filing, member, accession'.trans published.symm, accession, ?_⟩
    rcases extended.2 filing member with ⟨listed, there, rows⟩ | later
    · refine absurd ⟨process, present, _, answered, rfl, listed, there, ?_⟩ unread
      exact (accession_of_row rows).trans accession
    · exact dated ▸ later record chosen.1

/-- Along every run: where a publication under the path replaces what the pointer names, the filing that is
named before was filed no later than the one named after, if it was listed already when the publishing
handling read SEC's list; if not, then it was filed no earlier. -/
theorem pointer_advances {edgar : Edgar} (unpublished : edgar.world.logical target.key = none)
    {events : List EdgarEvent}
    (path : Path (Guarded (edgarSystem settings uuid target.cik).Step target.Publishers) (.idle edgar) events config)
    (step : Guarded (edgarSystem settings uuid target.cik).Step target.Publishers config event config')
    {old new : CurrentArtifact} (before : config.world.world.logical target.key = some old)
    (after : config'.world.world.logical target.key = some new) :
    (target.HadRead config event.id old.accessionNumber →
      FiledNoLater config.world.listed old.accessionNumber new.accessionNumber) ∧
    (¬ target.HadRead config event.id old.accessionNumber →
      FiledNoLater config.world.listed new.accessionNumber old.accessionNumber) := by
  have initial : CurrencyInvariant settings target (.idle edgar) := by
    refine ⟨fun id process present => Config.idle_absent present, fun id process present => Config.idle_absent present,
      fun id process present => Config.idle_absent present, fun artifact current => ?_⟩
    cases unpublished.symm.trans current
  have preserved : ∀ config event config',
      Guarded (edgarSystem settings uuid target.cik).Step target.Publishers config event config' →
        CurrencyInvariant settings target config → CurrencyInvariant settings target config' :=
    fun _ _ _ step invariant => invariant.step step.1 step.2
  have invariant := path.invariant preserved initial
  exact invariant.replaced step.1 step.2 before after

end Publication

/-! ### Two filings of one year -/

instance (target : Target) : (served : Σ call, calls.Reply call) → Decidable (target.Concerns served)
  | ⟨call, reply⟩ => by
    unfold Target.Concerns
    cases call <;> first | infer_instance | (rcases reply with _ | _ | _ <;> infer_instance)

instance (target : Target) (accession : String) :
    (served : Σ call, calls.Reply call) → Decidable (target.Lists accession served)
  | ⟨call, reply⟩ => by
    unfold Target.Lists
    cases call <;> first | infer_instance | (rcases reply with _ | _ | _ <;> infer_instance)

instance (target : Target) (config : EdgarConfig) (event : EdgarEvent) : Decidable (target.Publishers config event) := by
  unfold Target.Publishers
  cases event with
  | reply id call reply => cases call <;> infer_instance
  | _ => infer_instance

instance (target : Target) (config : EdgarConfig) (id : ℕ) (accession : String) :
    Decidable (target.HadRead config id accession) :=
  inferInstanceAs (Decidable (∃ process ∈ config.process id, _))

instance (listed : SubmissionsPayload) (accession accession' : String) :
    Decidable (FiledNoLater listed accession accession') :=
  inferInstanceAs (Decidable (∃ filing ∈ listed.filings, _))

/-- Apple's annual reports of 2024, without amendments. -/
def annual : Target := ⟨"0000320193", Sample.identity 2024, false⟩

/-- SEC lists one report of the year at first, and a later one too in the end. -/
def oneReport : SubmissionsPayload :=
  { Sample.submissions with filingDate := ["2024-02-02"], accessionNumber := ["0000320193-24-000010"] }

def twoReports : SubmissionsPayload :=
  { Sample.submissions with
    form := ["10-K", "10-K"], filingDate := ["2024-11-01", "2024-02-02"]
    accessionNumber := ["0000320193-24-000123", "0000320193-24-000010"]
    primaryDocument := ["aapl-20240928.htm", "aapl-20240928.htm"] }

/-- A task for the year and one for the latest report, both queued. -/
def twoQueued : Edgar :=
  { world := { Sample.world with
      tasks := Function.update (Function.update Sample.world.tasks "task-0"
        (some { ReportTask.fresh "task-0" (Sample.identity 2024) false with state := .queued })) "task-1"
        (some { ReportTask.fresh "task-1" (Sample.identity 0) false with state := .queued })
      stream := [Entry.new "task-0", Entry.new "task-1"] }
    listed := oneReport
    unambiguous := by decide +kernel }

/-- The first handling reads the list; then the list grows, and the second handling publishes. -/
def readEarlier : List (Move EdgarActivity Outside) :=
  [.start 0 (.service (Sample.handling 0 0))] ++ List.replicate 3 (.serve 0 Sample.outside) ++
    [.start 1 (.listing twoReports), .start 2 (.service (Sample.handling 1 1))] ++
    List.replicate 19 (.serve 2 Sample.outside) ++ List.replicate 15 (.serve 0 Sample.outside)

/-- The first handling publishes before the list grows. -/
def readLater : List (Move EdgarActivity Outside) :=
  [.start 0 (.service (Sample.handling 0 0))] ++ List.replicate 19 (.serve 0 Sample.outside) ++
    [.start 1 (.listing twoReports), .start 2 (.service (Sample.handling 1 1))] ++
    List.replicate 18 (.serve 2 Sample.outside)

def named (config : EdgarConfig) : Option String :=
  (config.world.world.logical annual.key).map CurrentArtifact.accessionNumber

theorem replacing_run {moves : List (Move EdgarActivity Outside)} {id : ℕ} {old new : String}
    {premise : EdgarConfig → Prop}
    (plays : (edgarPlayer (Sample.settings 2) Sample.uuid annual.cik).Plays annual.Publishers
      (fun config => (named config = some old ∧ premise config) ∧
        (edgarPlayer (Sample.settings 2) Sample.uuid annual.cik).Plays annual.Publishers
          (fun config' => named config' = some new) config [.serve id Sample.outside]) (.idle twoQueued) moves) :
    ∃ events config event config' before after,
      Path (Guarded (edgarSystem (Sample.settings 2) Sample.uuid annual.cik).Step annual.Publishers)
        (.idle twoQueued) events config ∧
      Guarded (edgarSystem (Sample.settings 2) Sample.uuid annual.cik).Step annual.Publishers config event config' ∧
      config.world.world.logical annual.key = some before ∧ config'.world.world.logical annual.key = some after ∧
      before.accessionNumber = old ∧ after.accessionNumber = new ∧ premise config ∧ event.id = id := by
  obtain ⟨events, config, path, ⟨⟨named, holds⟩, plays'⟩, _⟩ := plays.path
  obtain ⟨event, config', step, named', same⟩ := plays'.step
  obtain ⟨before, current, rfl⟩ := Option.map_eq_some_iff.mp named
  obtain ⟨after, current', rfl⟩ := Option.map_eq_some_iff.mp named'
  exact ⟨events, config, event, config', before, after, path, step, current, current', rfl, rfl, holds, same⟩

/-- The handling of the latest report has read of the one that is current. -/
theorem pointer_advances_annual : ∃ events config event config' before after,
    Path (Guarded (edgarSystem (Sample.settings 2) Sample.uuid annual.cik).Step annual.Publishers)
      (.idle twoQueued) events config ∧
    Guarded (edgarSystem (Sample.settings 2) Sample.uuid annual.cik).Step annual.Publishers config event config' ∧
    config.world.world.logical annual.key = some before ∧ config'.world.world.logical annual.key = some after ∧
    before.accessionNumber ≠ after.accessionNumber ∧
    FiledNoLater config.world.listed before.accessionNumber after.accessionNumber := by
  obtain ⟨events, config, event, config', before, after, path, step, current, current', old, new, read, same⟩ :=
    @replacing_run readLater 2 "0000320193-24-000010" "0000320193-24-000123"
      (fun config => annual.HadRead config 2 "0000320193-24-000010") (by decide +kernel)
  refine ⟨events, config, event, config', before, after, path, step, current, current', ?_, ?_⟩
  · rw [old, new]
    decide
  · rw [← same, ← old] at read
    exact (@pointer_advances annual _ _ _ _ _ twoQueued rfl _ path step _ _ current current').1 read

/-- The overtaken handling makes the earlier report the current one again. -/
theorem pointer_goes_back : ∃ events config event config' before after,
    Path (Guarded (edgarSystem (Sample.settings 2) Sample.uuid annual.cik).Step annual.Publishers)
      (.idle twoQueued) events config ∧
    Guarded (edgarSystem (Sample.settings 2) Sample.uuid annual.cik).Step annual.Publishers config event config' ∧
    config.world.world.logical annual.key = some before ∧ config'.world.world.logical annual.key = some after ∧
    before.accessionNumber = "0000320193-24-000123" ∧ after.accessionNumber = "0000320193-24-000010" ∧
    ¬ FiledNoLater config.world.listed before.accessionNumber after.accessionNumber := by
  obtain ⟨events, config, event, config', before, after, path, step, current, current', old, new, later, _⟩ :=
    @replacing_run readEarlier 0 "0000320193-24-000123" "0000320193-24-000010"
      (fun config => ¬ FiledNoLater config.world.listed "0000320193-24-000123" "0000320193-24-000010")
      (by decide +kernel)
  exact ⟨events, config, event, config', before, after, path, step, current, current', old, new,
    by rw [old, new]; exact later⟩

end Quartr.Soundness
