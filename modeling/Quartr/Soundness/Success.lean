import Quartr.Model.Sample
import Quartr.Soundness.Paths
import Quartr.Soundness.Pointers

/-! # Success stands for a stored artifact

Whatever the interleaving, the failures and the crash points: a COMPLETED record and a published
artifact name a PDF that is there, under the year the filing was made in. So nothing is ever
published for the latest year, and a request for it is never served from the cache.
-/

namespace Quartr.Soundness

open Quartr.Machine Quartr.Model

def Stored (world : World) (path : String) : Prop := world.files.file path ≠ none

/-- The path is where the PDF of the accession belongs, whatever its source is called, and a file is
there. -/
structure Backed (settings : Settings) (world : World) (identity : ReportIdentity)
    (accessionNumber artifactPath : String) : Prop where
  path : ∀ ext, artifactPath = (ArtifactStore.pathsFor settings identity accessionNumber ext).pdfPath
  stored : Stored world artifactPath

/-- The record names a filing and its stored PDF, under the year of the filing date. -/
def RecordBacked (settings : Settings) (world : World) (task : ReportTask) : Prop :=
  ∃ filing artifactPath, task.filing = some filing ∧ task.artifactPath = some artifactPath ∧
    Backed settings world task.identity filing.accessionNumber artifactPath ∧
    ∃ date : Date, filing.filingDate = date.isoformat ∧ task.identity.year = date.year

/-- The key is one of a path with a year, and the artifact is the stored PDF of its accession. -/
def ArtifactBacked (settings : Settings) (world : World) (key : String) (artifact : CurrentArtifact) :
    Prop :=
  ∃ identity includeAmended, key = logicalKey identity.logicalPath includeAmended ∧
    0 < identity.year ∧ Backed settings world identity artifact.accessionNumber artifact.artifactPath

structure SuccessBacked (settings : Settings) (world : World) : Prop where
  records : ∀ taskId task, world.tasks taskId = some task → task.state = .completed →
    RecordBacked settings world task
  published : ∀ key artifact, world.logical key = some artifact →
    ArtifactBacked settings world key artifact

/-- No request has been served an artifact for the latest year. -/
def LatestUnserved (config : ServiceConfig) : Prop :=
  ∀ id process, config.process id = some process → ∀ (identity : ReportIdentity) includeAmended artifact,
    identity.year = latestYearSentinel →
      ⟨.hgetallLogical (logicalKey identity.logicalPath includeAmended), .ok (some artifact)⟩ ∉ process.log

/-- What a handling has seen. -/
def Proven (settings : Settings) (world : World) : HandlingPhase → Prop
  | .running _ stored => ∀ path ∈ stored, (∀ target, path ≠ ArtifactStore.tmpPath target) →
      Stored world path
  | .completed _ saved => RecordBacked settings world saved
  | .released _ saved => RecordBacked settings world saved
  | .counting current => current.state ≠ .completed
  | _ => True

section Steps

variable {settings : Settings} {worker : Worker} {entry : ℕ} {taskId : TaskId}
  {phase phase' : HandlingPhase} {call : Call} {reply : calls.Reply call} {world world' : World}

/-- Calls that rename nothing but their own temporary file. -/
def Preserving (call : Call) : Prop :=
  ∀ source target, call = .replace source target → source = ArtifactStore.tmpPath target

/-- Only temporary files are renamed away. -/
theorem Stored.after {path : String} (stored : Stored world path)
    (plain : ∀ target, path ≠ ArtifactStore.tmpPath target) (preserving : Preserving call) :
    Stored (world.after call) path := by
  unfold Stored
  rw [World.after_files]
  cases call with
  | openTruncate opened =>
    simp only [FileSystem.openTruncate]
    split
    · exact stored
    · by_cases same : path = opened
      · subst same
        simp only [Function.update_self, ne_eq, reduceCtorEq, not_false_eq_true]
      · simp only [Function.update_of_ne same]
        exact stored
  | replace source target =>
    simp only [FileSystem.replace]
    split
    · exact stored
    · by_cases same : path = target
      · subst same
        simp only [Function.update_self, ne_eq, reduceCtorEq, not_false_eq_true]
      · have other : path ≠ source := fun same => plain target (same.trans (preserving source target rfl))
        simp only [Function.update_of_ne same, Function.update_of_ne other]
        exact stored
  | _ => exact stored

/-- No file under a final name is lost. -/
def Keeps (world world' : World) : Prop :=
  ∀ path, (∀ target, path ≠ ArtifactStore.tmpPath target) → Stored world path → Stored world' path

theorem keeps_served (preserving : Preserving call) (served : Faulty call world reply world') :
    Keeps world world' := by
  intro path plain stored
  rcases served_world served with rfl | rfl
  · exact stored
  · exact stored.after plain preserving

theorem Backed.kept {identity : ReportIdentity} {accessionNumber artifactPath : String}
    (backed : Backed settings world identity accessionNumber artifactPath)
    (keeps : Keeps world world') : Backed settings world' identity accessionNumber artifactPath := by
  refine ⟨backed.path, keeps artifactPath (fun target => ?_) backed.stored⟩
  rw [backed.path ""]
  exact ArtifactStore.pdfPath_ne_tmpPath settings identity accessionNumber "" target

theorem RecordBacked.kept {task : ReportTask} (backed : RecordBacked settings world task)
    (keeps : Keeps world world') : RecordBacked settings world' task := by
  obtain ⟨filing, artifactPath, filed, located, stored, date⟩ := backed
  exact ⟨filing, artifactPath, filed, located, stored.kept keeps, date⟩

theorem ArtifactBacked.kept {key : String} {artifact : CurrentArtifact}
    (backed : ArtifactBacked settings world key artifact) (keeps : Keeps world world') :
    ArtifactBacked settings world' key artifact := by
  obtain ⟨identity, includeAmended, named, year, stored⟩ := backed
  exact ⟨identity, includeAmended, named, year, stored.kept keeps⟩

/-- What a handling has seen stays so. -/
theorem Proven.kept (proven : Proven settings world phase) (keeps : Keeps world world') :
    Proven settings world' phase := by
  cases phase with
  | running task stored => exact fun path member plain => keeps path plain (proven path member plain)
  | completed original saved => exact RecordBacked.kept proven keeps
  | released original saved => exact RecordBacked.kept proven keeps
  | counting current => exact proven
  | _ => trivial

theorem HandlingStep.preserving (step : HandlingStep worker entry taskId phase call reply phase') :
    Preserving call := by
  rintro source target rfl
  cases step with
  | pipeline _ _ _ _ outside => exact outside

theorem RequestStep.preserving {ticket : Ticket} {before after : RequestPhase}
    (step : RequestStep ticket before call reply after) : Preserving call := by
  rintro source target rfl
  have next := step.call?_eq
  cases before <;> cases next

/-- The record of a success is backed by the PDF the pipeline has seen. -/
theorem Selects.recordBacked {task : ReportTask} {selection : Selection}
    (selects : Selects worker task selection) (stored : Stored world selection.paths.pdfPath) :
    RecordBacked worker.settings world (completedRecord task selection) := by
  obtain ⟨company, payload, resolved⟩ := selects
  obtain ⟨filings, record, url, selected, identity, filing, paths⟩ := worker.resolveFiling_ok resolved
  obtain ⟨_, _, _, wanted⟩ := selectLatest_ok selected
  refine ⟨selection.filing, selection.paths.pdfPath, rfl, rfl, ⟨fun ext => ?_, stored⟩,
    record.filingDate, ?_, ?_⟩
  · rw [paths, filing]
    rfl
  · rw [filing]
  · show selection.identity.year = _
    rw [identity]
    split_ifs with latest
    · rfl
    · exact (wanted task.identity.year (by rw [if_neg latest])).symm

theorem Proven.orBroken (reply : calls.Reply call) {saved : ReportTask}
    (proven : Proven settings world phase) : Proven settings world (orBroken reply saved phase) := by
  cases reply with
  | error error => trivial
  | ok answer => exact proven

theorem Proven.orStopped (reply : calls.Reply call) (proven : Proven settings world phase) :
    Proven settings world (orStopped reply phase) := by
  cases reply with
  | error error => trivial
  | ok answer => exact proven

/-- What a reply shows to exist exists. -/
theorem stored_shown {path : String} (served : Faulty call world reply world')
    (member : path ∈ shown call reply) : Stored world' path := by
  unfold shown at member
  split at member
  · rename_i found
    obtain ⟨⟨outside, answered⟩, rfl⟩ := served_answer served
    obtain rfl := List.mem_singleton.mp member
    exact Option.isSome_iff_ne_none.mp (Except.ok.inj answered).symm
  · rename_i source target
    obtain ⟨⟨outside, answered⟩, rfl⟩ := served_answer served
    obtain rfl := List.mem_singleton.mp member
    simp only [World.reply] at answered
    split_ifs at answered with present
    obtain ⟨file, found⟩ := Option.isSome_iff_exists.mp present
    simp only [Stored, World.after, FileSystem.replace, found, Function.update_self, ne_eq, reduceCtorEq,
      not_false_eq_true]
  · cases member

/-- A handling saves COMPLETED only for a stored artifact, and keeps what it has seen. -/
theorem HandlingStep.proven (step : HandlingStep worker entry taskId phase call reply phase')
    (same : worker.settings = settings) (proven : Proven settings world phase)
    (served : Faulty call world reply world') :
    Proven settings world' phase' ∧
      (∀ saved, call = .setTask saved → saved.state = .completed → RecordBacked settings world' saved) ∧
      ∀ key artifact, call = .hsetLogical key artifact → ArtifactBacked settings world' key artifact := by
  have kept := proven.kept (keeps_served step.preserving served)
  cases step with
  | load task =>
    refine ⟨?_, by rintro _ ⟨⟩, by rintro _ _ ⟨⟩⟩
    unfold HandlingPhase.entering
    split_ifs
    · trivial
    · exact fun path member => absurd member List.not_mem_nil
  | start task saved reply legal result =>
    refine ⟨.orBroken reply fun path member => absurd member List.not_mem_nil, ?_, by rintro _ _ ⟨⟩⟩
    rintro _ ⟨⟩ completed
    rw [result] at completed
    cases completed
  | pipeline task stored call reply outside =>
    refine ⟨fun path member plain => ?_, ?_, ?_⟩
    · rcases List.mem_append.mp member with now | earlier
      · exact stored_shown served now
      · exact kept path earlier plain
    · rintro saved rfl
      exact outside.elim
    · rintro key artifact rfl
      exact outside.elim
  | complete task saved stored selection reply legal selects present result =>
    have plain (target : String) : selection.paths.pdfPath ≠ ArtifactStore.tmpPath target := by
      obtain ⟨company, payload, resolved⟩ := selects
      obtain ⟨_, _, _, _, _, _, paths⟩ := worker.resolveFiling_ok resolved
      rw [paths]
      exact ArtifactStore.pdfPath_ne_tmpPath _ _ _ _ _
    have backed : RecordBacked settings world' saved := by
      rw [result, ← same]
      exact selects.recordBacked (kept _ present plain)
    refine ⟨.orBroken reply backed, ?_, by rintro _ _ ⟨⟩⟩
    rintro _ ⟨⟩ _
    exact backed
  | release original saved reply => exact ⟨.orBroken reply kept, by rintro _ ⟨⟩, by rintro _ _ ⟨⟩⟩
  | publish original saved filing path filed stored reply =>
    refine ⟨?_, by rintro _ ⟨⟩, ?_⟩
    · cases reply with
      | error error => trivial
      | ok answer =>
        unfold HandlingPhase.bookkept
        split_ifs <;> trivial
    · rintro _ _ ⟨⟩
      obtain ⟨filing', path', filed', stored', backed, date, _, year⟩ := kept
      cases filed.symm.trans filed'
      cases stored.symm.trans stored'
      refine ⟨saved.identity, saved.includeAmended, rfl, ?_, backed⟩
      have positive := date.year_bounds.1
      omega
  | fail task object saved stored message spent reply legal attempted budget result =>
    refine ⟨.orBroken reply trivial, ?_, by rintro _ _ ⟨⟩⟩
    rintro _ ⟨⟩ completed
    rw [result] at completed
    cases completed
  | clear saved reply => exact ⟨.orBroken reply trivial, by rintro _ ⟨⟩, by rintro _ _ ⟨⟩⟩
  | retry task object saved stored message reply legal attempted budget result =>
    refine ⟨.orBroken reply trivial, ?_, by rintro _ _ ⟨⟩⟩
    rintro _ ⟨⟩ completed
    rw [result] at completed
    cases completed
  | requeue saved reply =>
    refine ⟨.orBroken reply trivial, ?_, by rintro _ _ ⟨⟩⟩
    rintro _ ⟨⟩ completed
    cases completed
  | enqueue saved reply => exact ⟨.orBroken reply trivial, by rintro _ ⟨⟩, by rintro _ _ ⟨⟩⟩
  | reread _ object read interrupted =>
    refine ⟨?_, by rintro _ ⟨⟩, by rintro _ _ ⟨⟩⟩
    simp only [HandlingPhase.recovering]
    split_ifs with completed
    · trivial
    · trivial
    · exact completed
  | bury current saved message reply alive result =>
    refine ⟨.orStopped reply trivial, ?_, by rintro _ _ ⟨⟩⟩
    rintro _ ⟨⟩ completed
    rw [result] at completed
    cases completed
  | forget saved reply => exact ⟨.orStopped reply trivial, by rintro _ ⟨⟩, by rintro _ _ ⟨⟩⟩
  | count current =>
    refine ⟨trivial, ?_, by rintro _ _ ⟨⟩⟩
    rintro _ ⟨⟩ completed
    exact absurd completed kept
  | ack reply => exact ⟨.orStopped reply trivial, by rintro _ ⟨⟩, by rintro _ _ ⟨⟩⟩
  | _ => exact ⟨trivial, by rintro _ ⟨⟩, by rintro _ _ ⟨⟩⟩

end Steps

/-! ### Runs -/

structure SuccessInvariant (settings : Settings) (view : ServiceView) : Prop where
  backed : SuccessBacked settings view.world
  handlings : ∀ id agent, view.process id = some agent → ∀ phase, agent.control = .handling phase →
    Proven settings view.world phase
  unserved : ∀ id agent, view.process id = some agent → ∀ (identity : ReportIdentity) includeAmended artifact,
    identity.year = latestYearSentinel →
      ⟨.hgetallLogical (logicalKey identity.logicalPath includeAmended), .ok (some artifact)⟩ ∉ agent.log

section Run

variable {settings : Settings} {uuid : ℕ → TaskId} {view view' : ServiceView} {event : ServiceEvent}
  {world world' : World}

theorem SuccessBacked.kept (backed : SuccessBacked settings world) (keeps : Keeps world world')
    (tasks : world'.tasks = world.tasks) (logical : world'.logical = world.logical) :
    SuccessBacked settings world' := by
  constructor
  · intro taskId task present completed
    rw [tasks] at present
    exact (backed.records taskId task present completed).kept keeps
  · intro key artifact present
    rw [logical] at present
    exact (backed.published key artifact present).kept keeps

/-- Nothing is published for the latest year. -/
theorem SuccessBacked.latest_unpublished (backed : SuccessBacked settings world)
    {identity : ReportIdentity} {includeAmended : Bool} (latest : identity.year = latestYearSentinel) :
    world.logical (logicalKey identity.logicalPath includeAmended) = none := by
  cases found : world.logical (logicalKey identity.logicalPath includeAmended) with
  | none => rfl
  | some artifact =>
    obtain ⟨identity', includeAmended', named, positive, _⟩ := backed.published _ artifact found
    have sentinel : identity.year = ((0 : ℕ) : ℤ) := latest
    have year : identity'.year = (identity'.year.toNat : ℤ) := by omega
    have same := logicalKey_year sentinel year named
    omega

/-- The world after one call of a process. -/
theorem SuccessBacked.served {call : Call} {reply : calls.Reply call}
    (backed : SuccessBacked settings world) (preserving : Preserving call)
    (served : Faulty call world reply world')
    (saves : ∀ saved, call = .setTask saved → saved.state = .completed →
      RecordBacked settings world' saved)
    (publishes : ∀ key artifact, call = .hsetLogical key artifact →
      ArtifactBacked settings world' key artifact) : SuccessBacked settings world' := by
  have keeps := keeps_served preserving served
  rcases served_world served with rfl | rfl
  · exact backed
  constructor
  · intro taskId task present completed
    rw [World.after_tasks] at present
    cases call with
    | setTask saved =>
      by_cases same : taskId = saved.taskId
      · subst same
        simp only [Function.update_self, Option.some.injEq] at present
        subst present
        exact saves saved rfl completed
      · simp only [Function.update_of_ne same] at present
        exact (backed.records taskId task present completed).kept keeps
    | _ => exact (backed.records taskId task present completed).kept keeps
  · intro key artifact present
    rw [World.after_logical] at present
    cases call with
    | hsetLogical key' artifact' =>
      by_cases same : key = key'
      · subst same
        simp only [Function.update_self, Option.some.injEq] at present
        subst present
        exact publishes key artifact' rfl
      · simp only [Function.update_of_ne same] at present
        exact (backed.published key artifact present).kept keeps
    | _ => exact (backed.published key artifact present).kept keeps

/-- A request saves no success. -/
theorem RequestStep.saves_live {ticket : Ticket} {before after : RequestPhase} {call : Call}
    {reply : calls.Reply call} (step : RequestStep ticket before call reply after) {saved : ReportTask}
    (save : call = .setTask saved) : saved.state ≠ .completed := by
  subst save
  have next := step.call?_eq
  cases before <;> cases next <;> rintro ⟨⟩

/-- Every process keeps its phase and its log; the acting one is looked at apart. -/
theorem SuccessInvariant.put {id : ℕ} {agent : Agent} (invariant : SuccessInvariant settings view)
    (backed : SuccessBacked settings world) (keeps : Keeps view.world world)
    (handling : ∀ phase, agent.control = .handling phase → Proven settings world phase)
    (unserved : ∀ (identity : ReportIdentity) includeAmended artifact,
      identity.year = latestYearSentinel →
        ⟨.hgetallLogical (logicalKey identity.logicalPath includeAmended), .ok (some artifact)⟩ ∉ agent.log) :
    SuccessInvariant settings (view.put id agent world) := by
  refine ⟨backed, ?_, ?_⟩
  · intro other found present phase control
    by_cases same : other = id
    · subst same
      obtain rfl := Option.some.inj (Config.put_self.symm.trans present)
      exact handling phase control
    · rw [Config.put_of_ne same] at present
      exact (invariant.handlings other found present phase control).kept keeps
  · intro other found present
    by_cases same : other = id
    · subst same
      obtain rfl := Option.some.inj (Config.put_self.symm.trans present)
      exact unserved
    · rw [Config.put_of_ne same] at present
      exact invariant.unserved other found present

theorem SuccessInvariant.step (invariant : SuccessInvariant settings view)
    (step : (outline settings uuid Faulty).Step view event view') : SuccessInvariant settings view' := by
  cases step with
  | @start id label world absent begins =>
    have fresh (phase : HandlingPhase) (control : Phase.initial label = .handling phase) :
        Proven settings world phase := by
      cases label with
      | request => cases control
      | handling cikMapping now entry fields =>
        obtain rfl := Phase.handling.inj control
        rcases HandlingPhase.initial_cases fields with same | same <;> rw [same] <;> trivial
    have keeps : Keeps view.world world ∧ world.tasks = view.world.tasks ∧
        world.logical = view.world.logical := by
      cases label with
      | request =>
        obtain rfl : world = view.world := begins
        exact ⟨fun _ _ stored => stored, rfl, rfl⟩
      | handling =>
        obtain ⟨_, rfl⟩ := begins
        exact ⟨fun _ _ stored => stored, rfl, rfl⟩
    exact invariant.put (invariant.backed.kept keeps.1 keeps.2.1 keeps.2.2) keeps.1 fresh
      fun _ _ _ _ => List.not_mem_nil
  | @kill id agent present alive =>
    exact invariant.put invariant.backed (fun _ _ stored => stored)
      (invariant.handlings id agent present) (invariant.unserved id agent present)
  | @reply id agent call reply phase' world present alive moves served =>
    have unserved (identity : ReportIdentity) (includeAmended : Bool) (artifact : CurrentArtifact)
        (latest : identity.year = latestYearSentinel) :
        ⟨.hgetallLogical (logicalKey identity.logicalPath includeAmended), .ok (some artifact)⟩ ∉
          (agent.resume call reply phase').log := by
      intro member
      rcases List.mem_cons.mp member with now | before
      · cases now
        obtain ⟨⟨outside, answered⟩, _⟩ := served_answer served
        have hit : some artifact = view.world.logical _ := Except.ok.inj answered
        rw [invariant.backed.latest_unpublished latest] at hit
        cases hit
      · exact invariant.unserved id agent present identity includeAmended artifact latest before
    obtain ⟨label, control, log, killed⟩ := agent
    cases moves with
    | request identified step =>
      have keeps := keeps_served step.preserving served
      have backed : SuccessBacked settings world := by
        refine invariant.backed.served step.preserving served ?_ ?_
        · exact fun saved save completed => absurd completed (step.saves_live save)
        · rintro key artifact rfl
          have next := step.call?_eq
          rename_i before _
          cases before <;> cases next
      exact invariant.put backed keeps (by rintro phase ⟨⟩) unserved
    | @handling cikMapping now entry fields before after _ _ step =>
      obtain ⟨proven, saves, publishes⟩ :=
        step.proven rfl (invariant.handlings id _ present before rfl) served
      refine invariant.put (invariant.backed.served step.preserving served saves publishes)
        (keeps_served step.preserving served) ?_ unserved
      rintro phase ⟨⟩
      exact proven

end Run

/-- In every run success is recorded for stored artifacts only, and no request for the latest year is
served one. -/
theorem success_backed {settings : Settings} {uuid : ℕ → TaskId} {world : World}
    {events : List ServiceEvent} {config : ServiceConfig} (initial : SuccessBacked settings world)
    (run : Path (service settings uuid Faulty).Step (.idle world) events config) :
    SuccessBacked settings config.world ∧ LatestUnserved config := by
  have guarded : Path (Guarded (service settings uuid Faulty).Step fun _ _ => True) (.idle world)
      events config :=
    run.mono fun _ _ _ step => ⟨trivial, step⟩
  have invariant : SuccessInvariant settings (.idle world) :=
    ⟨initial, fun _ _ present => Config.idle_absent present, fun _ _ present => Config.idle_absent present⟩
  obtain ⟨view, views, invariant⟩ := service_refines.invariant
    (fun _ _ _ _ _ _ step invariant => SuccessInvariant.step invariant step) guarded invariant
  refine ⟨views.world ▸ invariant.backed, fun id process present => ?_⟩
  obtain ⟨agent, found, _, log, _⟩ := Refinement.seen views present
  rw [log]
  exact invariant.unserved id agent found

/-- A request for the latest report and two handlings of its entry that overlap: the first is killed
after it has saved COMPLETED, the second saves over it and publishes. -/
def overlapping : List (Move Activity Service.Choice) :=
  [.start 0 (Sample.request none)] ++ List.replicate 7 (.serve 0 (.succeeds default)) ++
    [.start 1 (Sample.handling 0 0), .start 2 (Sample.handling 0 0), .serve 2 (.succeeds Sample.outside)] ++
    List.replicate 17 (.serve 1 (.succeeds Sample.outside)) ++ [.kill 1] ++
    List.replicate 6 (.serve 2 (.succeeds Sample.outside))

theorem success_backed_overlapping : ∃ events config,
    Path (service (Sample.settings 2) Sample.uuid Faulty).Step (.idle Sample.world) events config ∧
    (config.world.tasks "task-0").map ReportTask.state = some .completed ∧
    (config.world.logical (logicalKey (Sample.identity 2024).logicalPath false)).isSome = true ∧
    SuccessBacked (Sample.settings 2) config.world ∧ LatestUnserved config := by
  have plays : (Service.faultyPlayer (Sample.settings 2) Sample.uuid).Plays (fun _ _ => True)
      (fun config => (config.world.tasks "task-0").map ReportTask.state = some .completed ∧
        (config.world.logical (logicalKey (Sample.identity 2024).logicalPath false)).isSome = true)
      (.idle Sample.world) overlapping := by
    decide +kernel
  obtain ⟨events, config, path, ⟨completed, published⟩, _⟩ := plays.path
  have run : Path (service (Sample.settings 2) Sample.uuid Faulty).Step (.idle Sample.world) events config :=
    path.mono fun _ _ _ step => step.2
  have initial : SuccessBacked (Sample.settings 2) Sample.world :=
    ⟨by rintro taskId task ⟨⟩, by rintro key artifact ⟨⟩⟩
  exact ⟨events, config, run, completed, published, success_backed initial run⟩

end Quartr.Soundness
