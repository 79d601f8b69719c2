import Quartr.Model.WorkerLoop
import Quartr.Soundness.Keeping

/-! # The part of the world that is one message's

The handling of a message works on the entry, on the record of the task it names, and on the keys and the
directory of the task's report, or of the reports that it may turn out to be if it asks for the latest year.
The handlings of messages that name other tasks, for other reports, keep out of that part.
-/

namespace Quartr.Soundness

open Quartr.Machine Quartr.Model

/-- What the task of the one report may be of in the end: the year of the latest report is found out on the way. -/
structure Covers (identity identity' : ReportIdentity) : Prop where
  ticker : identity'.ticker = identity.ticker
  form : identity'.form = identity.form
  year : identity.year ≠ latestYearSentinel → identity'.year = identity.year

/-- The reports belong into different directories, whatever the year of a latest one turns out to be. -/
def OtherReport (identity identity' : ReportIdentity) : Prop :=
  identity.ticker ≠ identity'.ticker ∨ identity.form ≠ identity'.form ∨
    identity.year ≠ latestYearSentinel ∧ identity'.year ≠ latestYearSentinel ∧ identity.year ≠ identity'.year

/-- The task that an entry names. -/
def taskNamed (entry : StreamEntry) : Option TaskId :=
  (fieldsTaskId entry.fields).filter fun taskId => taskId ≠ ""

/-- The messages name different tasks, for different reports. -/
def Strangers (world : World) (entry entry' : StreamEntry) : Prop :=
  ∀ taskId taskId', taskNamed entry = some taskId → taskNamed entry' = some taskId' → taskId ≠ taskId' ∧
    ∀ task task', world.tasks taskId = some task → world.tasks taskId' = some task' →
      OtherReport task.identity task'.identity

/-- The task may come to be one of that report. -/
def Becomes (world : World) (taskId : TaskId) (identity : ReportIdentity) : Prop :=
  ∃ task, world.tasks taskId = some task ∧ Covers task.identity identity

/-- What the handling of the entry has to do with. -/
def Region.ofMessage (settings : Settings) (world : World) (entry : StreamEntry) : Region where
  record taskId := taskNamed entry = some taskId
  pending key := ∃ taskId identity includeAmended, taskNamed entry = some taskId ∧ Becomes world taskId identity ∧
    key = pendingTaskKey identity.logicalPath includeAmended
  logical key := ∃ taskId identity includeAmended, taskNamed entry = some taskId ∧ Becomes world taskId identity ∧
    key = logicalKey identity.logicalPath includeAmended
  slot position := position = entry.id
  entry added := ∃ taskId, taskNamed entry = some taskId ∧ added = Entry.new taskId
  file path := ∃ taskId identity, taskNamed entry = some taskId ∧ Becomes world taskId identity ∧
    Names (joinLead settings.storageRoot) (directoryOf identity) path
  found := world.stream.length
  about taskId task := task.taskId = taskId ∧ Becomes world taskId task.identity

section Hosts

variable {settings : Settings} {world : World} {entry other : StreamEntry} {taskId taskId' : TaskId}
  {identity identity' : ReportIdentity}

theorem Covers.refl (identity : ReportIdentity) : Covers identity identity := ⟨rfl, rfl, fun _ => rfl⟩

/-- The latest report is of any year. -/
theorem Becomes.resolved (becomes : Becomes world taskId identity) (latest : identity.year = latestYearSentinel)
    (year : ℤ) : Becomes world taskId { identity with year := year } := by
  obtain ⟨task, present, covers⟩ := becomes
  refine ⟨task, present, covers.ticker, covers.form, fun explicit => ?_⟩
  exact absurd ((covers.year explicit).symm.trans latest) explicit

/-- What the tasks of different reports come to be differs in what a directory is named after. -/
theorem OtherReport.apart {task task' : ReportTask} (other : OtherReport task.identity task'.identity)
    (covers : Covers task.identity identity) (covers' : Covers task'.identity identity') :
    ¬ (identity.ticker = identity'.ticker ∧ identity.form = identity'.form ∧ identity.year = identity'.year) := by
  rintro ⟨tickers, forms, years⟩
  rcases other with differs | differs | ⟨explicit, explicit', differs⟩
  · exact differs (covers.ticker.symm.trans (tickers.trans covers'.ticker))
  · exact differs (covers.form.symm.trans (forms.trans covers'.form))
  · exact differs ((covers.year explicit).symm.trans (years.trans (covers'.year explicit')))

theorem taskNamed_of_fields (named : fieldsTaskId entry.fields = some taskId) (nonempty : taskId ≠ "") :
    taskNamed entry = some taskId := by
  rw [taskNamed, named, Option.filter_some, if_pos (decide_eq_true nonempty)]

theorem tmpPath_named {path : String} {lead : List Char} {text : String} (named : Names lead text path) :
    Names lead text (ArtifactStore.tmpPath path) :=
  named.append ".tmp"

/-- The region of a message hosts its task. -/
theorem ofMessage_hosts (settings : Settings) (world : World) (named : taskNamed entry = some taskId) :
    (Region.ofMessage settings world entry).Hosts settings taskId (Becomes world taskId) := by
  constructor
  · exact named
  · exact fun identity includeAmended becomes => ⟨taskId, identity, includeAmended, named, becomes, rfl⟩
  · exact fun identity includeAmended becomes => ⟨taskId, identity, includeAmended, named, becomes, rfl⟩
  · intro identity accessionNumber ext becomes path member
    have below := names_paths settings identity accessionNumber ext path member
    exact ⟨⟨taskId, identity, named, becomes, below⟩, taskId, identity, named, becomes, tmpPath_named below⟩
  · exact ⟨taskId, named, rfl⟩
  · exact fun task same becomes => ⟨same, becomes⟩
  · exact fun identity year becomes latest => becomes.resolved latest year

theorem ofMessage_tells (settings : Settings) (world : World) (entry : StreamEntry) (taskId : TaskId) :
    Tells (.ofMessage settings world entry) taskId (Becomes world taskId) :=
  fun _ about => ⟨about.1, about.2⟩

theorem Strangers.reports (strangers : Strangers world entry other) (named : taskNamed entry = some taskId)
    (named' : taskNamed other = some taskId') (becomes : Becomes world taskId identity)
    (becomes' : Becomes world taskId' identity') :
    ¬ (identity.ticker = identity'.ticker ∧ identity.form = identity'.form ∧ identity.year = identity'.year) := by
  obtain ⟨task, present, covers⟩ := becomes
  obtain ⟨task', present', covers'⟩ := becomes'
  exact ((strangers taskId taskId' named named').2 task task' present present').apart covers covers'

/-- The tasks of other messages are hosted by the rest of the world. -/
theorem Strangers.hosts (strangers : Strangers world entry other) (settings : Settings)
    (named' : taskNamed other = some taskId') :
    (Region.ofMessage settings world entry).compl.Hosts settings taskId' (Becomes world taskId') := by
  have keys {lead : String} {identity identity' : ReportIdentity} {taskId : TaskId}
      {includeAmended includeAmended' : Bool} (named : taskNamed entry = some taskId)
      (becomes : Becomes world taskId identity) (becomes' : Becomes world taskId' identity')
      (same : lead ++ identity'.logicalPath ++ policySuffix includeAmended' =
        lead ++ identity.logicalPath ++ policySuffix includeAmended) : False := by
    obtain ⟨tickers, forms, years, _⟩ := key_parts same.symm
    exact strangers.reports named named' becomes becomes' ⟨tickers, forms, years⟩
  have outside {identity : ReportIdentity} {path : String} (becomes' : Becomes world taskId' identity)
      (below : Names (joinLead settings.storageRoot) (directoryOf identity) path) :
      ¬ (Region.ofMessage settings world entry).file path := by
    rintro ⟨taskId, identity', named, becomes, within⟩
    exact strangers.reports named named' becomes becomes' (within.directory_eq below)
  constructor
  · exact fun named => (strangers taskId' taskId' named named').1 rfl
  · rintro identity includeAmended becomes' ⟨taskId, identity', includeAmended', named, becomes, same⟩
    exact keys named becomes becomes' same
  · rintro identity includeAmended becomes' ⟨taskId, identity', includeAmended', named, becomes, same⟩
    exact keys named becomes becomes' same
  · intro identity accessionNumber ext becomes' path member
    have below := names_paths settings identity accessionNumber ext path member
    exact ⟨outside becomes' below, outside becomes' (tmpPath_named below)⟩
  · rintro ⟨taskId, named, same⟩
    simp only [Entry.new, Entry.mk.injEq, List.cons.injEq, Prod.mk.injEq, true_and, and_true] at same
    exact (strangers taskId taskId' named named').1 same.symm
  · exact fun task same becomes => ⟨same, becomes⟩
  · exact fun identity year becomes latest => becomes.resolved latest year

/-! ### Handlings in their regions -/

variable {worker : Worker}

/-- The handling of a message that is on the stream keeps to its region. -/
theorem ofMessage_keeps (queued : entry.id < world.stream.length) :
    KeepsTo (.ofMessage worker.settings world entry) worker.settings.maxQueueDepth (fun _ => True)
      (worker.handleMessage entry.id entry.fields ()) := by
  apply handleMessage_keeps ⟨queued, rfl⟩
  intro taskId named nonempty
  exact ⟨_, ofMessage_hosts worker.settings world (taskNamed_of_fields named nonempty),
    ofMessage_tells worker.settings world entry taskId⟩

/-- The handling of another message keeps out of it. -/
theorem Strangers.keeps (strangers : Strangers world entry other) (differs : other.id ≠ entry.id)
    (queued : other.id < world.stream.length) :
    KeepsTo (Region.ofMessage worker.settings world entry).compl worker.settings.maxQueueDepth (fun _ => True)
      (worker.handleMessage other.id other.fields ()) := by
  apply handleMessage_keeps ⟨queued, differs⟩
  intro taskId named nonempty
  exact ⟨_, strangers.hosts worker.settings (taskNamed_of_fields named nonempty),
    ofMessage_tells worker.settings world entry taskId⟩

theorem ofMessage_sane (sound : world.files.Sound) : (Region.ofMessage settings world entry).Sane world :=
  ⟨sound, Nat.le_refl _⟩

/-- Every record is in its place. -/
theorem ofMessage_about (keyed : world.Keyed) (taskId : TaskId) (task : ReportTask)
    (present : world.tasks taskId = some task) : (Region.ofMessage settings world entry).about taskId task :=
  ⟨keyed taskId task present, task, present, .refl task.identity⟩

end Hosts

end Quartr.Soundness
