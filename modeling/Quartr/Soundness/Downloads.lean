import Quartr.Machine.Endings
import Quartr.Model.Downloads
import Quartr.Soundness.Refs
import Quartr.Soundness.Success

/-! # Links lead to artifacts

Whatever route an artifact was shown by, its link is served, then and at any later time.
-/

namespace Quartr.Soundness

open Quartr.Machine Quartr.Model
open Quartr.Machine.Coroutine (Ends ends_pure ends_throw ends_lift ends_modify ends_call ends_seq)

/-! ### References -/

section References

variable {identity : ReportIdentity} {accession : String}

/-- The reference of an identity that it can be read back from leads to the PDF, under the name of the filing. -/
theorem located_refFor (settings : Settings) (referable : Referable identity)
    (wellFormed : ArtifactStore.accessionMatches accession = true) : ∃ quarter,
    Routes.located settings (ArtifactStore.refFor identity accession) =
      .ok ((ArtifactStore.pathsFor settings identity accession "").pdfPath, { identity with quarter }, accession) := by
  have parsed : ∃ quarter, ArtifactStore.parseRef (ArtifactStore.refFor identity accession) =
      .ok ({ identity with quarter }, accession) := by
    have short := referable.quarter
    unfold ArtifactStore.parseRef
    rw [refFor_segments identity wellFormed]
    cases parts : Text.segments (identity.quarter.getD "") with
    | nil =>
      simp only [List.nil_append, wellFormed, ↓reduceIte, parseLogical_eq, referable.year]
      exact ⟨none, rfl⟩
    | cons quarter more =>
      rw [parts, List.length_cons] at short
      have alone : more = [] := List.eq_nil_of_length_eq_zero (by omega)
      simp only [alone, List.cons_append, List.nil_append, wellFormed, ↓reduceIte, parseLogical_eq, referable.year]
      exact ⟨some quarter, rfl⟩
  obtain ⟨quarter, parsed⟩ := parsed
  refine ⟨quarter, ?_⟩
  rw [Routes.located, ArtifactStore.resolvePdfPath, parsed]
  rfl

end References

/-! ### Links -/

/-- A handler that reads the world as it is answers so, about the report that it names; Redis may fail. -/
inductive Shown (world : World) : ReportIdentity → ReportTaskResponse → Prop
  | created {settings : Settings} {cikMapping : CikMapping} {taskId : TaskId} {payload : CreateReportRequest}
      {identity : ReportIdentity} {response : ReportTaskResponse} {sent : HttpResponse} {world' : World}
      (requested : Routes.requestedIdentity cikMapping payload = .ok identity)
      (ends : Ends Faulty (Routes.createReport settings cikMapping taskId payload) .fresh world (.ok response) sent
        world') : Shown world identity response
  | report {ticker form : String} {year : ℤ} {includeAmended : Bool} {identity : ReportIdentity}
      {response : ReportTaskResponse} {world' : World}
      (requested : ReportIdentity.make ticker (decodeForm form) year none = .ok identity)
      (ends : Ends Faulty (Routes.getReport ticker form year includeAmended) () world (.ok response) () world') :
      Shown world identity response
  | task {taskId : TaskId} {task : ReportTask} {response : ReportTaskResponse} {world' : World}
      (present : world.tasks taskId = some task)
      (ends : Ends Faulty (Routes.getTask taskId) () world (.ok response) () world') :
      Shown world task.identity response

section Links

variable {settings : Settings} {world : World} {identity : ReportIdentity} {response : ReportTaskResponse}
  {accession : String} {link : ArtifactRef}

/-- The answer names the accession number and the reference of a stored PDF. -/
structure Linked (settings : Settings) (world : World) (identity : ReportIdentity) (accession : String)
    (link : ArtifactRef) : Prop where
  ref : link.ref = ArtifactStore.refFor identity accession
  stored : Stored world (ArtifactStore.pathsFor settings identity accession "").pdfPath

theorem artifactRef_ref (shown : Routes.artifactRef identity accession = some link) :
    link.ref = ArtifactStore.refFor identity accession := by
  rw [Routes.artifactRef] at shown
  split_ifs at shown
  exact Option.some.inj shown ▸ rfl

/-- The answer from the cache names the artifact of the key, which another spelling of the request may have
published. -/
theorem cached_linked (backed : SuccessBacked settings world) {includeAmended : Bool} {artifact : CurrentArtifact}
    (published : world.logical (logicalKey identity.logicalPath includeAmended) = some artifact)
    (named : (Routes.cached identity artifact).accessionNumber = some accession)
    (linked : (Routes.cached identity artifact).artifact = some link) :
    Linked settings world identity accession link := by
  obtain rfl := Option.some.inj named
  obtain ⟨identity', includeAmended', key, _, located, stored⟩ := backed.published _ artifact published
  obtain ⟨tickers, forms, years, _⟩ := key_parts key
  refine ⟨artifactRef_ref linked, ?_⟩
  have same : ArtifactStore.pathsFor settings identity artifact.accessionNumber "" =
      ArtifactStore.pathsFor settings identity' artifact.accessionNumber "" := by
    simp only [ArtifactStore.pathsFor, ArtifactStore.accessionDir, tickers, forms, years]
  rw [same, ← located ""]
  exact stored

/-- The first read of a handler decides whether it answers from the cache. -/
theorem current_read {σ : Type} {object object' : σ} {world' : World} {logicalPath : String} {includeAmended : Bool}
    {artifact : Option CurrentArtifact}
    (ends : Ends Faulty (Repository.getCurrentArtifact logicalPath includeAmended) object world (.ok artifact) object'
      world') : artifact = world.logical (logicalKey logicalPath includeAmended) := by
  obtain ⟨reply, served, same, _⟩ := ends_call.mp ends
  cases reply with
  | error error => cases same
  | ok answer =>
    cases same
    exact Except.ok.inj (served_answer served).1.choose_spec

theorem Shown.linked (shown : Shown world identity response) (backed : SuccessBacked settings world)
    (named : response.accessionNumber = some accession) (linked : response.artifact = some link) :
    Linked settings world identity accession link := by
  cases shown with
  | created requested answered =>
    rcases ends_seq.mp answered with ⟨identity', _, _, computed, ends⟩ | ⟨_, _, ⟨⟩⟩
    obtain ⟨same, _, rfl⟩ := ends_lift.mp computed
    obtain rfl := Except.ok.inj (same.trans requested)
    clear answered
    rcases ends_seq.mp ends with ⟨artifact, _, _, read, ends⟩ | ⟨_, _, ⟨⟩⟩
    have published := (current_read read).symm
    cases artifact with
    | some artifact =>
      rcases ends_seq.mp ends with ⟨_, _, _, _, ends⟩ | ⟨_, _, ⟨⟩⟩
      cases (ends_pure.mp ends).1
      exact cached_linked backed published named linked
    | none =>
      -- The answer about a task in flight names no artifact.
      rcases ends_seq.mp ends with ⟨⟨task, created⟩, _, _, _, ends⟩ | ⟨_, _, ⟨⟩⟩
      cases created
      all_goals
        rcases ends_seq.mp ends with ⟨task', _, _, _, ends⟩ | ⟨_, _, ⟨⟩⟩
        rcases ends_seq.mp ends with ⟨_, _, _, _, ends⟩ | ⟨_, _, ⟨⟩⟩
        cases (ends_pure.mp ends).1
        cases linked
  | report requested ends =>
    rw [Routes.getReport, requested] at ends
    rcases ends_seq.mp ends with ⟨artifact, _, _, read, ends⟩ | ⟨_, _, ⟨⟩⟩
    have published := (current_read read).symm
    cases artifact with
    | some artifact =>
      cases (ends_pure.mp ends).1
      exact cached_linked backed published named linked
    | none =>
      rcases ends_seq.mp ends with ⟨task, _, _, _, ends⟩ | ⟨_, _, ⟨⟩⟩
      cases task with
      | some task =>
        cases (ends_pure.mp ends).1
        cases linked
      | none => cases (ends_throw.mp ends).1
  | @task taskId task _ _ present ends =>
    rcases ends_seq.mp ends with ⟨read, _, _, found, ends⟩ | ⟨_, _, ⟨⟩⟩
    obtain ⟨reply, served, same, _⟩ := ends_call.mp found
    cases reply with
    | error error => cases same
    | ok answer =>
      cases same
      obtain ⟨rfl, _⟩ := served_getTask served
      rw [present] at ends
      cases (ends_pure.mp ends).1
      obtain ⟨filing, filed, rfl⟩ := Option.map_eq_some_iff.mp named
      have completed : task.state = .completed := by
        by_contra unfinished
        exact absurd ((if_neg unfinished).symm.trans linked) (Option.some_ne_none _).symm
      obtain ⟨filing', artifactPath, filed', _, ⟨located, stored⟩, _⟩ :=
        backed.records taskId task present completed
      obtain rfl := Option.some.inj (filed.symm.trans filed')
      refine ⟨artifactRef_ref ?_, located "" ▸ stored⟩
      have shown := (if_pos completed).symm.trans linked
      rw [filed] at shown
      exact shown

/-- A published report is shown. -/
theorem shown_published {ticker form : String} {year : ℤ} {includeAmended : Bool} {artifact : CurrentArtifact}
    (requested : ReportIdentity.make ticker (decodeForm form) year none = .ok identity)
    (published : world.logical (logicalKey identity.logicalPath includeAmended) = some artifact) :
    Shown world identity (Routes.cached identity artifact) := by
  have served : Faulty (.hgetallLogical (logicalKey identity.logicalPath includeAmended)) world (.ok (some artifact))
      world := .inl ⟨⟨default, congrArg Except.ok published.symm⟩, rfl⟩
  have ends : Ends Faulty (Routes.getReport ticker form year includeAmended) () world
      (.ok (Routes.cached identity artifact)) () world := by
    rw [Routes.getReport, requested]
    exact ends_seq.mpr (.inl ⟨some artifact, (), world, ends_call.mpr ⟨.ok (some artifact), served, rfl, rfl⟩,
      ends_pure.mpr ⟨rfl, rfl, rfl⟩⟩)
  exact .report requested ends

end Links

/-! ### Runs -/

section Run

variable {settings : Settings} {uuid : ℕ → TaskId} {world : World} {config config' : ServiceConfig}
  {events events' : List ServiceEvent}

theorem Keeps.trans {world' world'' : World} (first : Keeps world world') (second : Keeps world' world'') :
    Keeps world world'' := fun path plain stored => second path plain (first path plain stored)

/-- No step takes a file away. -/
theorem keeps_step {view view' : ServiceView} {event : ServiceEvent}
    (step : (outline settings uuid Faulty).Step view event view') : Keeps view.world view'.world := by
  cases step with
  | @start id label world' absent begins =>
    cases label with
    | request =>
      obtain rfl : world' = view.world := begins
      exact fun _ _ stored => stored
    | handling =>
      obtain ⟨_, rfl⟩ := begins
      exact fun _ _ stored => stored
  | kill => exact fun _ _ stored => stored
  | @reply id agent call reply phase' world' present alive moves served =>
    obtain ⟨label, control, log, killed⟩ := agent
    cases moves with
    | request _ step => exact keeps_served step.preserving served
    | handling step => exact keeps_served step.preserving served

/-- Whatever is stored at some time of a run is stored at every later time. -/
theorem keeps_later (initial : SuccessBacked settings world)
    (run : Path (service settings uuid Faulty).Step (.idle world) events config)
    (later : Path (service settings uuid Faulty).Step config events' config') :
    SuccessBacked settings config.world ∧ Keeps config.world config'.world := by
  have begun : SuccessInvariant settings (.idle world) :=
    ⟨initial, fun _ _ present => Config.idle_absent present, fun _ _ present => Config.idle_absent present⟩
  obtain ⟨view, views, invariant⟩ := service_refines.invariant
    (fun _ _ _ _ _ _ step invariant => SuccessInvariant.step invariant step)
    (run.mono fun _ _ _ step => (⟨trivial, step⟩ : Guarded _ (fun _ _ => True) _ _ _)) begun
  have world' : config.world = view.world := views.world
  obtain ⟨view', views', keeps⟩ := service_refines.invariant_from
    (fun _ _ _ _ _ _ step keeps => Keeps.trans keeps (keeps_step step))
    (later.mono fun _ _ _ step => (⟨trivial, step⟩ : Guarded _ (fun _ _ => True) _ _ _))
    ⟨view, views, fun _ _ stored => world' ▸ stored⟩
  exact ⟨world' ▸ invariant.backed, views'.world ▸ keeps⟩

end Run

/-- The link of an artifact that any route shows at any time leads to the PDF of its accession at any later
time. -/
theorem links_served {settings : Settings} {uuid : ℕ → TaskId} {world : World} {config config' : ServiceConfig}
    {events events' : List ServiceEvent} (represent : String → String) (initial : SuccessBacked settings world)
    (run : Path (service settings uuid Faulty).Step (.idle world) events config)
    (later : Path (service settings uuid Faulty).Step config events' config') {identity : ReportIdentity}
    {response : ReportTaskResponse} {accession : String} {link : ArtifactRef}
    (shown : Shown config.world identity response) (linked : response.artifact = some link)
    (named : response.accessionNumber = some accession)
    (wellFormed : ArtifactStore.accessionMatches accession = true) (referable : Referable identity) :
    Stored config'.world (ArtifactStore.pathsFor settings identity accession "").pdfPath ∧
      ∀ result world'', Ends Reliable (Routes.getArtifact settings represent link.ref) () config'.world result ()
        world'' → result = .ok ⟨(ArtifactStore.pathsFor settings identity accession "").pdfPath, "application/pdf",
          Routes.downloadName identity accession⟩ := by
  obtain ⟨backed, keeps⟩ := keeps_later initial run later
  obtain ⟨ref, stored⟩ := shown.linked backed named linked
  have stays := keeps _ (ArtifactStore.pdfPath_ne_tmpPath settings identity accession "") stored
  refine ⟨stays, fun result world'' ends => ?_⟩
  obtain ⟨quarter, located⟩ := located_refFor settings referable wellFormed
  rw [Routes.getArtifact, ref, located] at ends
  have there (reply : calls.Reply (.pathExists (ArtifactStore.pathsFor settings identity accession "").pdfPath))
      (world' : World) (served : Reliable _ config'.world reply world') : reply = .ok true := by
    obtain ⟨⟨_, answered⟩, _⟩ := served
    rw [answered]
    exact congrArg Except.ok (Option.isSome_iff_ne_none.mpr stays)
  rcases ends_seq.mp ends with ⟨found, _, _, asked, ends⟩ | ⟨error, asked, _⟩
  · obtain ⟨reply, served, same, _⟩ := ends_call.mp asked
    rw [there reply _ served] at same
    cases same
    exact (ends_pure.mp ends).1
  · obtain ⟨reply, served, same, _⟩ := ends_call.mp asked
    rw [there reply _ served] at same
    cases same

/-- A report that was shown, and a request for it that is answered later. -/
theorem links_served_later : ∃ events config events' config',
    Path (service (Sample.settings 2) Sample.uuid Faulty).Step (.idle Sample.world) events config ∧
    (Path (service (Sample.settings 2) Sample.uuid Faulty).Step config events' config' ∧
      (config'.process 2).isSome = true) ∧
    Stored config'.world (ArtifactStore.pathsFor (Sample.settings 2) (Sample.identity 2024) "0000320193-24-000123"
      "").pdfPath ∧
    ∀ result world'', Ends Reliable (Routes.getArtifact (Sample.settings 2) id
      (ArtifactStore.refFor (Sample.identity 2024) "0000320193-24-000123")) () config'.world result () world'' →
        result = .ok ⟨"/data/AAPL/10-K/2024/accession-0000320193-24-000123/report.pdf", "application/pdf",
          "AAPL-10-K-2024-0000320193-24-000123.pdf"⟩ := by
  have plays : (Service.faultyPlayer (Sample.settings 2) Sample.uuid).Plays (fun _ _ => True)
      (fun config => (config.world.logical (logicalKey (Sample.identity 2024).logicalPath false)).map
          CurrentArtifact.accessionNumber = some "0000320193-24-000123" ∧
        (Service.faultyPlayer (Sample.settings 2) Sample.uuid).Plays (fun _ _ => True)
          (fun config => (config.process 2).isSome = true) config
          [.start 2 (Sample.request (some 2024)), .serve 2 (.succeeds default)])
      (.idle Sample.world)
      ([.start 0 (Sample.request (some 2024))] ++ List.replicate 7 (.serve 0 (.succeeds default)) ++
        [.start 1 (Sample.handling 0 0)] ++ List.replicate 21 (.serve 1 (.succeeds Sample.outside))) := by
    decide +kernel
  obtain ⟨events, config, path, ⟨published, plays'⟩, _⟩ := plays.path
  obtain ⟨events', config', path', answered, _⟩ := plays'.path
  have run : Path (service (Sample.settings 2) Sample.uuid Faulty).Step (.idle Sample.world) events config :=
    path.mono fun _ _ _ step => step.2
  have later : Path (service (Sample.settings 2) Sample.uuid Faulty).Step config events' config' :=
    path'.mono fun _ _ _ step => step.2
  have initial : SuccessBacked (Sample.settings 2) Sample.world :=
    ⟨by rintro taskId task ⟨⟩, by rintro key artifact ⟨⟩⟩
  obtain ⟨artifact, found, accession⟩ := Option.map_eq_some_iff.mp published
  have requested : ReportIdentity.make "AAPL" (decodeForm "10-K") 2024 none = .ok (Sample.identity 2024) :=
    Sample.ok_of_toOption (by decide +kernel)
  have shown := shown_published requested found
  have linked : (Routes.cached (Sample.identity 2024) artifact).artifact =
      some ⟨ArtifactStore.refFor (Sample.identity 2024) "0000320193-24-000123", "application/pdf",
        "/artifacts/" ++ ArtifactStore.refFor (Sample.identity 2024) "0000320193-24-000123"⟩ := by
    rw [Routes.cached, accession]
    rfl
  exact ⟨events, config, events', config', run, ⟨later, answered⟩,
    links_served id initial run later shown linked (congrArg some accession) (by decide +kernel)
      ⟨by decide +kernel, by decide +kernel⟩⟩

end Quartr.Soundness
