import Quartr.Model.Sample
import Quartr.Soundness.Files
import Quartr.Soundness.Paths
import Quartr.Soundness.Rules

/-! # An accession directory is complete

Handlings come to one accession directory one after the other, and each may be killed between two
file operations. `artifact_exists` looks at the PDF alone, and the metadata is published after it:
what is found is the whole set of one `write` exactly when no `write` was cut off in between.
-/

namespace Quartr.Soundness

open Quartr.Machine Quartr.Model
open Quartr.Machine.Coroutine (Follows follows_bind)

/-- A handling that has selected a filing and turns to its directory. -/
structure Obtaining where
  worker : Worker
  selection : Selection
  resolved : ∃ company task payload, worker.resolveFiling company task payload = .ok selection

/-- The bytes given to a `write`, apart from the metadata. -/
structure Bundle where
  source : Bytes
  pdf : Bytes

namespace Obtaining

variable (obtaining : Obtaining)

def metadata : PdfMetadata := obtaining.worker.pdfMetadata obtaining.selection

/-- The files of a `write` in their order. -/
def files (bundle : Bundle) : List (String × Bytes) :=
  [(obtaining.selection.paths.sourcePath, bundle.source),
    (obtaining.selection.paths.pdfPath, bundle.pdf),
    (obtaining.selection.paths.metadataPath, ArtifactStore.metadataBytes obtaining.metadata)]

/-- The bytes the handling has downloaded and converted, and so writes. -/
def Given (log : List (Σ call, calls.Reply call)) (bundle : Bundle) : Prop :=
  ∃ document : Document, bundle.source = document.content ∧
    ⟨.downloadDocument obtaining.selection.filing.sourceUrl, .ok document⟩ ∈ log ∧
    ⟨.convertToPdf document.content (document.contentType.getD "text/html") obtaining.metadata,
      .ok bundle.pdf⟩ ∈ log

end Obtaining

abbrev StorageConfig := Config calls World Obtaining (Program calls (Except Err Unit))
abbrev StorageEvent := Event calls Obtaining
abbrev StorageProcess := Process calls Obtaining (Program calls (Except Err Unit))

/-- The branch of `process_task` that touches files, by any number of handlings. -/
def storage : System calls World Obtaining (Program calls (Except Err Unit)) :=
  System.ofBodies
    (fun _ obtaining => (obtaining.worker.obtainArtifact obtaining.selection ()).bind fun result =>
      .done result.1)
    (fun world _ world' => world' = world) Reliable

def pdfIn (root : String) : String := Text.joinPath root "report.pdf"

def metadataIn (root : String) : String := Text.joinPath root "metadata.json"

/-- A handling comes to the directory when the one before has ended or was killed. -/
def OneAtATime (root : String) (config : StorageConfig) : StorageEvent → Prop
  | .start _ obtaining => config.Quiescent ∧ obtaining.selection.paths.root = root
  | _ => True

/-- The three files hold the bytes given to one `write`. -/
def WholeSet (config : StorageConfig) : Prop :=
  ∃ id process bundle, config.process id = some process ∧ process.label.Given process.log bundle ∧
    ∀ file ∈ process.label.files bundle, config.world.files.read file.1 = some file.2

/-- The process has published the file. -/
def Renamed (log : List (Σ call, calls.Reply call)) (path : String) : Prop :=
  ⟨.replace (ArtifactStore.tmpPath path) path, .ok ()⟩ ∈ log

/-- A process has found the PDF, so that it does not download. -/
def Skips (root : String) (log : List (Σ call, calls.Reply call)) : Prop :=
  ⟨.pathExists (pdfIn root), .ok true⟩ ∈ log

/-- A process has published the PDF and not the metadata. -/
def CutShort (root : String) (process : StorageProcess) : Prop :=
  Renamed process.log (pdfIn root) ∧ ¬ Renamed process.log (metadataIn root)

/-! ### The names in a directory -/

section Names

variable (obtaining : Obtaining) {bundle bundle' : Bundle} {stage stage' : ℕ} {path path' : String}
  {data data' : Bytes}

theorem Obtaining.paths_eq : ∃ ext : String, ext.toList.count '.' = 1 ∧ obtaining.selection.paths =
    ⟨obtaining.selection.paths.root, Text.joinPath obtaining.selection.paths.root ("filing" ++ ext),
      pdfIn obtaining.selection.paths.root, metadataIn obtaining.selection.paths.root⟩ := by
  obtain ⟨company, task, payload, resolved⟩ := obtaining.resolved
  obtain ⟨_, record, _, _, _, _, paths⟩ := obtaining.worker.resolveFiling_ok resolved
  refine ⟨if Text.extension record.primaryDocument = "" then ".html"
    else Text.extension record.primaryDocument, ?_, ?_⟩
  · split_ifs with empty
    · decide
    · exact (Text.extension_dots record.primaryDocument).resolve_left empty
  · rw [paths]
    rfl

theorem Obtaining.pdf_listed : (obtaining.files bundle)[1]? =
    some (pdfIn obtaining.selection.paths.root, bundle.pdf) := by
  obtain ⟨_, _, paths⟩ := obtaining.paths_eq
  exact congrArg (fun paths : ArtifactPaths => some (paths.pdfPath, bundle.pdf)) paths

theorem Obtaining.metadata_listed : (obtaining.files bundle)[2]? =
    some (metadataIn obtaining.selection.paths.root, ArtifactStore.metadataBytes obtaining.metadata) := by
  obtain ⟨_, _, paths⟩ := obtaining.paths_eq
  exact congrArg (fun paths : ArtifactPaths =>
    some (paths.metadataPath, ArtifactStore.metadataBytes obtaining.metadata)) paths

/-- The characters of the three names after the directory. -/
theorem Obtaining.names : ∃ ext : List Char, ext.count '.' = 1 ∧ ∀ bundle stage path data,
    (obtaining.files bundle)[stage]? = some (path, data) →
      ∃ name, path.toList = joinLead obtaining.selection.paths.root ++ name ∧
        (stage = 0 ∧ name = "filing".toList ++ ext ∨ stage = 1 ∧ name = "report.pdf".toList ∨
          stage = 2 ∧ name = "metadata.json".toList) := by
  obtain ⟨ext, dots, paths⟩ := obtaining.paths_eq
  refine ⟨ext.toList, dots, fun bundle stage path data listed => ?_⟩
  rw [Obtaining.files, paths] at listed
  rcases stage with _ | _ | _ | stage
  · cases listed
    refine ⟨_, ?_, .inl ⟨rfl, rfl⟩⟩
    rw [joinPath_toList _ (by simp), String.toList_append]
  · cases listed
    exact ⟨_, joinPath_toList _ (by decide), .inr (.inl ⟨rfl, rfl⟩)⟩
  · cases listed
    exact ⟨_, joinPath_toList _ (by decide), .inr (.inr ⟨rfl, rfl⟩)⟩
  · cases listed

variable {obtaining}

/-- Every `write` publishes under the same names. -/
theorem Obtaining.path_eq (listed : (obtaining.files bundle)[stage]? = some (path, data))
    (listed' : (obtaining.files bundle')[stage]? = some (path', data')) : path = path' := by
  have names : (obtaining.files bundle).map Prod.fst = (obtaining.files bundle').map Prod.fst := rfl
  have same := congrArg (fun names => names[stage]?) names
  simp only [List.getElem?_map, listed, listed', Option.map_some, Option.some.injEq] at same
  exact same

/-- The files of a `write` have different names. -/
theorem Obtaining.stage_eq (listed : (obtaining.files bundle)[stage]? = some (path, data))
    (listed' : (obtaining.files bundle')[stage']? = some (path, data')) : stage = stage' := by
  obtain ⟨ext, _, named⟩ := obtaining.names
  obtain ⟨name, chars, kind⟩ := named bundle stage path data listed
  obtain ⟨name', chars', kind'⟩ := named bundle' stage' path data' listed'
  rw [chars, List.append_cancel_left_eq] at chars'
  rcases kind with ⟨rfl, rfl⟩ | ⟨rfl, rfl⟩ | ⟨rfl, rfl⟩
  · rcases kind' with ⟨rfl, rfl⟩ | ⟨rfl, rfl⟩ | ⟨rfl, rfl⟩
    · rfl
    · simp at chars'
    · simp at chars'
  · rcases kind' with ⟨rfl, rfl⟩ | ⟨rfl, rfl⟩ | ⟨rfl, rfl⟩
    · simp at chars'
    · rfl
    · simp at chars'
  · rcases kind' with ⟨rfl, rfl⟩ | ⟨rfl, rfl⟩ | ⟨rfl, rfl⟩
    · simp at chars'
    · simp at chars'
    · rfl

/-- No temporary file has the name of a final one. -/
theorem Obtaining.tmp_apart (listed : (obtaining.files bundle)[stage]? = some (path, data))
    (listed' : (obtaining.files bundle')[stage']? = some (path', data')) :
    path' ≠ ArtifactStore.tmpPath path := by
  intro same
  obtain ⟨ext, _, named⟩ := obtaining.names
  obtain ⟨name, chars, kind⟩ := named bundle stage path data listed
  obtain ⟨name', chars', kind'⟩ := named bundle' stage' path' data' listed'
  rw [same, ArtifactStore.tmpPath, String.toList_append, chars, List.append_assoc,
    List.append_cancel_left_eq] at chars'
  rcases kind with ⟨-, rfl⟩ | ⟨-, rfl⟩ | ⟨-, rfl⟩
  · rcases kind' with ⟨-, rfl⟩ | ⟨-, rfl⟩ | ⟨-, rfl⟩ <;> simp at chars'
  · rcases kind' with ⟨-, rfl⟩ | ⟨-, rfl⟩ | ⟨-, rfl⟩ <;> simp at chars'
  · rcases kind' with ⟨-, rfl⟩ | ⟨-, rfl⟩ | ⟨-, rfl⟩ <;> simp at chars'

end Names

/-! ### The phases of a handling at the directory -/

inductive StoragePhase where
  | checking
  | downloading
  | converting (document : Document)
  | preparing (bundle : Bundle)
  | opening (bundle : Bundle) (stage : ℕ)
  | writing (bundle : Bundle) (stage : ℕ) (descriptor : ℕ)
  | replacing (bundle : Bundle) (stage : ℕ)
  | ended

def StoragePhase.afterCheck : Except CallError Bool → StoragePhase
  | .ok false => .downloading
  | _ => .ended

def StoragePhase.afterDownload : Except CallError Document → StoragePhase
  | .ok document => .converting document
  | .error _ => .ended

def StoragePhase.afterConversion (document : Document) : Except CallError Bytes → StoragePhase
  | .ok pdf => if (Worker.validatePdf pdf).isOk then .preparing ⟨document.content, pdf⟩ else .ended
  | .error _ => .ended

/-- The phase after an answered file operation. -/
def StoragePhase.unlessRaised {α : Type} (next : α → StoragePhase) : Except CallError α → StoragePhase
  | .ok answer => next answer
  | .error _ => .ended

inductive StorageStep (obtaining : Obtaining) : Protocol calls StoragePhase
  | checked (reply : calls.Reply (.pathExists obtaining.selection.paths.pdfPath)) :
      StorageStep obtaining .checking (.pathExists obtaining.selection.paths.pdfPath) reply
        (.afterCheck reply)
  | downloaded (reply : calls.Reply (.downloadDocument obtaining.selection.filing.sourceUrl)) :
      StorageStep obtaining .downloading (.downloadDocument obtaining.selection.filing.sourceUrl) reply
        (.afterDownload reply)
  | converted (document : Document)
      (reply : calls.Reply (.convertToPdf document.content (document.contentType.getD "text/html")
        obtaining.metadata)) :
      StorageStep obtaining (.converting document) (.convertToPdf document.content
        (document.contentType.getD "text/html") obtaining.metadata) reply
        (.afterConversion document reply)
  | prepared (bundle : Bundle) (reply : calls.Reply (.makedirs obtaining.selection.paths.root)) :
      StorageStep obtaining (.preparing bundle) (.makedirs obtaining.selection.paths.root) reply
        (.unlessRaised (fun _ => .opening bundle 0) reply)
  | opened (bundle : Bundle) (stage : ℕ) (path : String) (data : Bytes)
      (listed : (obtaining.files bundle)[stage]? = some (path, data))
      (reply : calls.Reply (.openTruncate (ArtifactStore.tmpPath path))) :
      StorageStep obtaining (.opening bundle stage) (.openTruncate (ArtifactStore.tmpPath path)) reply
        (.unlessRaised (.writing bundle stage) reply)
  | written (bundle : Bundle) (stage descriptor : ℕ) (path : String) (data : Bytes)
      (listed : (obtaining.files bundle)[stage]? = some (path, data))
      (reply : calls.Reply (.writeFile descriptor data)) :
      StorageStep obtaining (.writing bundle stage descriptor) (.writeFile descriptor data) reply
        (.unlessRaised (fun _ => .replacing bundle stage) reply)
  | renamed (bundle : Bundle) (stage : ℕ) (path : String) (data : Bytes)
      (listed : (obtaining.files bundle)[stage]? = some (path, data))
      (reply : calls.Reply (.replace (ArtifactStore.tmpPath path) path)) :
      StorageStep obtaining (.replacing bundle stage) (.replace (ArtifactStore.tmpPath path) path) reply
        (.unlessRaised (fun _ => .opening bundle (stage + 1)) reply)

/-- No call is left to make. -/
def StoragePhase.Final (phase : StoragePhase) : Prop :=
  phase = .ended ∨ ∃ bundle, phase = .opening bundle 3

section Follows

variable {obtaining : Obtaining} {σ : Type} {object : σ} {bundle : Bundle} {stage : ℕ}
  {path : String} {data : Bytes}

theorem atomicWrite_follows {post : Except Err Unit → σ → StoragePhase → Prop}
    (listed : (obtaining.files bundle)[stage]? = some (path, data))
    (written : post (.ok ()) object (.opening bundle (stage + 1)))
    (raised : ∀ error, post (.error error) object .ended) :
    Follows (StorageStep obtaining) (ArtifactStore.atomicWrite path data) object (.opening bundle stage)
      post := by
  refine follows_bind.mpr (follows_call.mpr fun reply => ⟨_, .opened bundle stage path data listed reply, ?_⟩)
  rcases reply with error | descriptor
  · exact raised _
  refine follows_bind.mpr (follows_call.mpr fun reply =>
    ⟨_, .written bundle stage descriptor path data listed reply, ?_⟩)
  rcases reply with error | _
  · exact raised _
  refine follows_call.mpr fun reply => ⟨_, .renamed bundle stage path data listed reply, ?_⟩
  rcases reply with error | _
  · exact raised _
  · exact written

theorem obtainArtifact_stores : Follows (StorageStep obtaining)
    (obtaining.worker.obtainArtifact obtaining.selection) object .checking
    (fun _ _ phase => phase.Final) := by
  have ended : StoragePhase.ended.Final := .inl rfl
  refine follows_bind.mpr (follows_call.mpr fun reply => ⟨_, .checked reply, ?_⟩)
  rcases reply with error | _ | _
  · exact ended
  · refine follows_bind.mpr (follows_call.mpr fun reply => ⟨_, .downloaded reply, ?_⟩)
    rcases reply with error | document
    · exact ended
    refine follows_bind.mpr (follows_call.mpr fun reply => ⟨_, .converted document reply, ?_⟩)
    rcases reply with error | pdf
    · exact ended
    refine follows_bind.mpr (Coroutine.follows_lift.mpr ?_)
    simp only [StoragePhase.afterConversion]
    cases Worker.validatePdf pdf with
    | error error => exact ended
    | ok valid =>
      refine follows_bind.mpr (follows_call.mpr fun reply => ⟨_, .prepared _ reply, ?_⟩)
      rcases reply with error | _
      · exact ended
      refine follows_bind.mpr (atomicWrite_follows rfl ?_ fun error => ended)
      refine follows_bind.mpr (atomicWrite_follows rfl ?_ fun error => ended)
      exact atomicWrite_follows rfl (.inr ⟨_, rfl⟩) fun error => ended
  · exact ended

end Follows

/-! ### What holds while a handling is at the directory -/

/-- How many files a handling has published. -/
def StoragePhase.reached : StoragePhase → ℕ
  | .opening _ stage => stage
  | .writing _ stage _ => stage
  | .replacing _ stage => stage
  | _ => 0

/-- The first files of the bundle are in the directory as they were given. -/
def Obtaining.Stored (obtaining : Obtaining) (files : FileSystem) (bundle : Bundle) (stage : ℕ) : Prop :=
  ∀ stage' < stage, ∀ path data, (obtaining.files bundle)[stage']? = some (path, data) →
    files.read path = some data

structure Obtaining.Progress (obtaining : Obtaining) (files : FileSystem)
    (log : List (Σ call, calls.Reply call)) (bundle : Bundle) (stage : ℕ) : Prop where
  given : obtaining.Given log bundle
  stored : obtaining.Stored files bundle stage
  missing : stage ≤ 1 → files.file obtaining.selection.paths.pdfPath = none

def Obtaining.Turn (obtaining : Obtaining) (files : FileSystem)
    (log : List (Σ call, calls.Reply call)) : StoragePhase → Prop
  | .checking => True
  | .downloading => files.file obtaining.selection.paths.pdfPath = none
  | .converting document => files.file obtaining.selection.paths.pdfPath = none ∧
      ⟨.downloadDocument obtaining.selection.filing.sourceUrl, .ok document⟩ ∈ log
  | .preparing bundle => obtaining.Progress files log bundle 0
  | .opening bundle stage => obtaining.Progress files log bundle stage
  | .writing bundle stage descriptor => obtaining.Progress files log bundle stage ∧
      ∀ path data, (obtaining.files bundle)[stage]? = some (path, data) →
        files.file (ArtifactStore.tmpPath path) = some descriptor ∧ files.content descriptor = []
  | .replacing bundle stage => obtaining.Progress files log bundle stage ∧
      ∀ path data, (obtaining.files bundle)[stage]? = some (path, data) →
        files.read (ArtifactStore.tmpPath path) = some data
  | .ended => True

section Turn

variable {obtaining : Obtaining} {files files' : FileSystem} {log : List (Σ call, calls.Reply call)}
  {answered : Σ call, calls.Reply call} {bundle bundle' : Bundle} {stage stage' : ℕ}
  {path path' : String} {data data' : Bytes}

theorem Obtaining.Given.cons (given : obtaining.Given log bundle) :
    obtaining.Given (answered :: log) bundle := by
  obtain ⟨document, source, downloaded, converted⟩ := given
  exact ⟨document, source, List.mem_cons_of_mem _ downloaded, List.mem_cons_of_mem _ converted⟩

/-- Progress survives what happens under temporary names. -/
theorem Obtaining.Progress.kept (progress : obtaining.Progress files log bundle stage)
    (reads : ∀ (stage' : ℕ) (path' : String) (data' : Bytes),
      (obtaining.files bundle)[stage']? = some (path', data') → files'.read path' = files.read path') :
    obtaining.Progress files' (answered :: log) bundle stage := by
  refine ⟨progress.given.cons, ?_, ?_⟩
  · intro stage' before path' data' listed
    rw [reads stage' path' data' listed]
    exact progress.stored stage' before path' data' listed
  · intro early
    have missing := progress.missing early
    rw [← FileSystem.read_none] at missing ⊢
    rwa [reads 1 _ bundle.pdf rfl]

/-- The rename publishes one file more. -/
theorem Obtaining.Progress.renamed (progress : obtaining.Progress files log bundle stage)
    (listed : (obtaining.files bundle)[stage]? = some (path, data))
    (written : files.read (ArtifactStore.tmpPath path) = some data) :
    obtaining.Progress (files.replace (ArtifactStore.tmpPath path) path) (answered :: log) bundle
      (stage + 1) := by
  have there : files.file (ArtifactStore.tmpPath path) ≠ none := by
    intro missing
    rw [FileSystem.read_none.mpr missing] at written
    cases written
  refine ⟨progress.given.cons, ?_, ?_⟩
  · intro stage' before path' data' listed'
    by_cases same : stage' = stage
    · subst same
      obtain ⟨rfl, rfl⟩ := Prod.mk.inj (Option.some.inj (listed.symm.trans listed'))
      rw [FileSystem.read_replaced there]
      exact written
    · have other : path' ≠ path := by
        rintro rfl
        exact same (Obtaining.stage_eq listed' listed)
      rw [FileSystem.read_replace (Obtaining.tmp_apart listed listed') other]
      exact progress.stored stage' (by omega) path' data' listed'
  · intro early
    have first : stage = 0 := by omega
    have missing := progress.missing (by omega)
    have pdf : (obtaining.files bundle)[1]? = some (obtaining.selection.paths.pdfPath, bundle.pdf) := rfl
    have other : obtaining.selection.paths.pdfPath ≠ path := by
      rintro rfl
      have second := Obtaining.stage_eq listed pdf
      omega
    rw [← FileSystem.read_none] at missing ⊢
    rwa [FileSystem.read_replace (Obtaining.tmp_apart listed pdf) other]

/-- What a step that takes effect does to the directory. -/
inductive DirectoryStep (obtaining : Obtaining) (files : FileSystem) :
    StoragePhase → (call : Call) → calls.Reply call → StoragePhase → FileSystem → Prop
  | quiet (phase phase' : StoragePhase) (call : Call) (reply : calls.Reply call)
      (before : phase.reached = 0) (after : phase'.reached = 0)
      (keeps : ∀ source target, call ≠ .replace source target)
      (turn : ∀ log, obtaining.Turn files log phase → obtaining.Turn files (⟨call, reply⟩ :: log) phase') :
      DirectoryStep obtaining files phase call reply phase' files
  | opened (bundle : Bundle) (stage : ℕ) (path : String) (data : Bytes)
      (listed : (obtaining.files bundle)[stage]? = some (path, data)) :
      DirectoryStep obtaining files (.opening bundle stage) (.openTruncate (ArtifactStore.tmpPath path))
        (.ok (files.descriptor (ArtifactStore.tmpPath path)))
        (.writing bundle stage (files.descriptor (ArtifactStore.tmpPath path)))
        (files.openTruncate (ArtifactStore.tmpPath path))
  | written (bundle : Bundle) (stage descriptor : ℕ) (path : String) (data : Bytes)
      (listed : (obtaining.files bundle)[stage]? = some (path, data))
      (named : files.file (ArtifactStore.tmpPath path) = some descriptor)
      (emptied : files.content descriptor = []) :
      DirectoryStep obtaining files (.writing bundle stage descriptor) (.writeFile descriptor data)
        (.ok ()) (.replacing bundle stage) (files.write descriptor data)
  | renamed (bundle : Bundle) (stage : ℕ) (path : String) (data : Bytes)
      (listed : (obtaining.files bundle)[stage]? = some (path, data))
      (written : files.read (ArtifactStore.tmpPath path) = some data) :
      DirectoryStep obtaining files (.replacing bundle stage) (.replace (ArtifactStore.tmpPath path) path)
        (.ok ()) (.opening bundle (stage + 1)) (files.replace (ArtifactStore.tmpPath path) path)

theorem StorageStep.effect {phase phase' : StoragePhase} {call : Call} {reply : calls.Reply call}
    {world world' : World} (step : StorageStep obtaining phase call reply phase')
    (served : Reliable call world reply world') (turn : obtaining.Turn world.files log phase) :
    DirectoryStep obtaining world.files phase call reply phase' world'.files := by
  obtain ⟨⟨outside, replied⟩, rfl⟩ := served
  subst replied
  cases step with
  | checked =>
    cases found : world.files.file obtaining.selection.paths.pdfPath with
    | none =>
      simp only [World.reply, found, Option.isSome_none, StoragePhase.afterCheck]
      exact .quiet _ _ _ _ rfl rfl (fun _ _ same => by cases same) fun _ _ => found
    | some file =>
      simp only [World.reply, found, Option.isSome_some, StoragePhase.afterCheck]
      exact .quiet _ _ _ _ rfl rfl (fun _ _ same => by cases same) fun _ _ => trivial
  | downloaded =>
    rcases answer : world.reply outside (.downloadDocument obtaining.selection.filing.sourceUrl) with
      error | document
    · exact .quiet _ _ _ _ rfl rfl (fun _ _ same => by cases same) fun _ _ => trivial
    · exact .quiet _ _ _ _ rfl rfl (fun _ _ same => by cases same) fun _ missing =>
        ⟨missing, List.mem_cons_self⟩
  | converted document =>
    rcases answer : world.reply outside (.convertToPdf document.content
      (document.contentType.getD "text/html") obtaining.metadata) with error | pdf
    · exact .quiet _ _ _ _ rfl rfl (fun _ _ same => by cases same) fun _ _ => trivial
    · simp only [StoragePhase.afterConversion]
      split_ifs
      · refine .quiet _ _ _ _ rfl rfl (fun _ _ same => by cases same) fun log converting => ⟨?_, ?_, ?_⟩
        · exact ⟨document, rfl, List.mem_cons_of_mem _ converting.2, List.mem_cons_self⟩
        · intro stage' before
          omega
        · exact fun _ => converting.1
      · exact .quiet _ _ _ _ rfl rfl (fun _ _ same => by cases same) fun _ _ => trivial
  | prepared bundle =>
    exact .quiet _ _ _ _ rfl rfl (fun _ _ same => by cases same) fun log progress =>
      progress.kept fun _ _ _ _ => rfl
  | opened bundle stage path data listed => exact .opened bundle stage path data listed
  | written bundle stage descriptor path data listed =>
    exact .written bundle stage descriptor path data listed (turn.2 path data listed).1
      (turn.2 path data listed).2
  | renamed bundle stage path data listed =>
    have written := turn.2 path data listed
    cases found : world.files.file (ArtifactStore.tmpPath path) with
    | none =>
      rw [FileSystem.read_none.mpr found] at written
      cases written
    | some file =>
      simp only [World.reply, found, Option.isSome_some, ↓reduceIte, StoragePhase.unlessRaised]
      exact .renamed bundle stage path data listed written

namespace DirectoryStep

variable {phase phase' : StoragePhase} {call : Call} {reply : calls.Reply call}

theorem sound (step : DirectoryStep obtaining files phase call reply phase' files')
    (sound : files.Sound) : files'.Sound := by
  cases step with
  | quiet => exact sound
  | opened => exact sound.openTruncate
  | written => exact sound.write
  | renamed bundle stage path data listed => exact sound.replace (Obtaining.tmp_apart listed listed).symm

theorem turn (step : DirectoryStep obtaining files phase call reply phase' files')
    (sound : files.Sound) (turn : obtaining.Turn files log phase) :
    obtaining.Turn files' (⟨call, reply⟩ :: log) phase' := by
  cases step with
  | quiet _ _ _ _ _ _ _ next => exact next log turn
  | opened bundle stage path data listed =>
    refine ⟨turn.kept fun stage' path' data' listed' => ?_, fun path' data' listed' => ?_⟩
    · exact sound.read_openTruncate (Obtaining.tmp_apart listed listed')
    · obtain ⟨rfl, rfl⟩ := Prod.mk.inj (Option.some.inj (listed.symm.trans listed'))
      exact ⟨FileSystem.openTruncate_opened, FileSystem.openTruncate_emptied⟩
  | written bundle stage descriptor path data listed named emptied =>
    refine ⟨turn.1.kept fun stage' path' data' listed' => ?_, fun path' data' listed' => ?_⟩
    · exact sound.read_write named (Obtaining.tmp_apart listed listed')
    · obtain ⟨rfl, rfl⟩ := Prod.mk.inj (Option.some.inj (listed.symm.trans listed'))
      exact FileSystem.read_written named emptied
  | renamed bundle stage path data listed written => exact turn.1.renamed listed written

/-- The final names published are those of the files before the stage reached. -/
theorem published (step : DirectoryStep obtaining files phase call reply phase' files')
    (listed' : (obtaining.files bundle')[stage']? = some (path', data'))
    (published : Renamed log path' ↔ stage' < phase.reached) :
    Renamed (⟨call, reply⟩ :: log) path' ↔ stage' < phase'.reached := by
  have others (keeps : call ≠ .replace (ArtifactStore.tmpPath path') path') :
      Renamed (⟨call, reply⟩ :: log) path' ↔ Renamed log path' := by
    refine List.mem_cons.trans (or_iff_right ?_)
    intro same
    exact keeps (congrArg Sigma.fst same).symm
  cases step with
  | quiet _ _ _ _ before after keeps =>
    rw [others (keeps _ _), published, before, after]
  | opened => exact (others (by simp)).trans published
  | written => exact (others (by simp)).trans published
  | renamed bundle stage path data listed =>
    by_cases same : stage' = stage
    · subst same
      obtain rfl := Obtaining.path_eq listed listed'
      exact iff_of_true List.mem_cons_self (Nat.lt_succ_self _)
    · have differs : path ≠ path' := by
        rintro rfl
        exact same (Obtaining.stage_eq listed' listed)
      rw [others fun call => differs (Call.replace.inj call).2, published, StoragePhase.reached,
        StoragePhase.reached]
      omega

/-- A final name that is new is the one the stage has just passed. -/
theorem creates (step : DirectoryStep obtaining files phase call reply phase' files')
    (listed' : (obtaining.files bundle')[stage']? = some (path', data'))
    (present : files'.file path' ≠ none) : files.file path' ≠ none ∨ stage' < phase'.reached := by
  cases step with
  | quiet => exact .inl present
  | opened bundle stage path data listed =>
    rw [FileSystem.openTruncate_other (Obtaining.tmp_apart listed listed')] at present
    exact .inl present
  | written => exact .inl present
  | renamed bundle stage path data listed =>
    by_cases same : path' = path
    · subst same
      have passed := Obtaining.stage_eq listed' listed
      exact .inr (by rw [StoragePhase.reached]; omega)
    · refine .inl fun missing => present ?_
      rw [← FileSystem.read_none] at missing ⊢
      rwa [FileSystem.read_replace (Obtaining.tmp_apart listed listed') same]

/-- A final name is never taken away. -/
theorem stays (step : DirectoryStep obtaining files phase call reply phase' files')
    (listed' : (obtaining.files bundle')[stage']? = some (path', data'))
    (present : files.file path' ≠ none) : files'.file path' ≠ none := by
  cases step with
  | quiet => exact present
  | opened bundle stage path data listed =>
    rwa [FileSystem.openTruncate_other (Obtaining.tmp_apart listed listed')]
  | written => exact present
  | renamed bundle stage path data listed written =>
    intro missing
    rw [← FileSystem.read_none] at missing
    by_cases same : path' = path
    · subst same
      have there : files.file (ArtifactStore.tmpPath path') ≠ none := by
        intro gone
        rw [FileSystem.read_none.mpr gone] at written
        cases written
      rw [FileSystem.read_replaced there, written] at missing
      cases missing
    · rw [FileSystem.read_replace (Obtaining.tmp_apart listed listed') same] at missing
      exact present (FileSystem.read_none.mp missing)

theorem grows (step : DirectoryStep obtaining files phase call reply phase' files') :
    phase.reached ≤ phase'.reached := by
  cases step with
  | quiet _ _ _ _ before => rw [before]; exact Nat.zero_le _
  | opened => exact Nat.le_refl _
  | written => exact Nat.le_refl _
  | renamed => exact Nat.le_succ _

/-- The directory is changed by a handling that found no PDF, or has published one itself. -/
theorem changes (step : DirectoryStep obtaining files phase call reply phase' files')
    (turn : obtaining.Turn files log phase) : (files' = files ∧ phase'.reached = 0) ∨
      2 ≤ phase.reached ∨ files.file obtaining.selection.paths.pdfPath = none := by
  have within (bundle : Bundle) (stage : ℕ) (progress : obtaining.Progress files log bundle stage) :
      2 ≤ stage ∨ files.file obtaining.selection.paths.pdfPath = none := by
    rcases Nat.lt_or_ge stage 2 with early | late
    · exact .inr (progress.missing (by omega))
    · exact .inl late
  cases step with
  | quiet _ _ _ _ before after => exact .inl ⟨rfl, after⟩
  | opened bundle stage => exact .inr (within bundle stage turn)
  | written bundle stage => exact .inr (within bundle stage turn.1)
  | renamed bundle stage => exact .inr (within bundle stage turn.1)

end DirectoryStep

/-- The bundle of a handling that has published the PDF. -/
theorem Obtaining.Turn.published {phase : StoragePhase} (turn : obtaining.Turn files log phase)
    (published : 2 ≤ phase.reached) :
    ∃ bundle, obtaining.Given log bundle ∧ obtaining.Stored files bundle phase.reached := by
  cases phase with
  | opening bundle stage =>
    have progress : obtaining.Progress files log bundle stage := turn
    exact ⟨bundle, progress.given, progress.stored⟩
  | writing bundle stage descriptor => exact ⟨bundle, turn.1.given, turn.1.stored⟩
  | replacing bundle stage => exact ⟨bundle, turn.1.given, turn.1.stored⟩
  | _ => cases published

/-- No call is made at the end. -/
theorem StorageStep.not_final {phase phase' : StoragePhase} {call : Call} {reply : calls.Reply call}
    (step : StorageStep obtaining phase call reply phase') : ¬ phase.Final := by
  rintro (rfl | ⟨bundle, rfl⟩)
  · cases step
  · cases step with
    | opened _ _ path data listed => cases listed

end Turn

/-! ### Every run -/

abbrev StorageAgent := Process calls Obtaining StoragePhase
abbrev StorageView := Config calls World Obtaining StoragePhase

def storageOutline : System calls World Obtaining StoragePhase :=
  ⟨fun _ _ => .checking, fun _ obtaining => StorageStep obtaining, fun world _ world' => world' = world,
    Reliable⟩

theorem storage_refines : Refinement storage storageOutline (fun _ _ _ phase => phase.Final) where
  resumes := rfl
  start := rfl
  serve := rfl
  follows _ _ := Program.Follows.bind_iff.mpr obtainArtifact_stores

/-- The handling has calls to make. -/
def Live (agent : StorageAgent) : Prop := agent.killed = false ∧ ¬ agent.control.Final

/-- What holds of a handling for good. -/
structure Lasting (root : String) (files : FileSystem) (agent : StorageAgent) : Prop where
  rooted : agent.label.selection.paths.root = root
  published : ∀ (bundle : Bundle) (stage : ℕ) (path : String) (data : Bytes),
    (agent.label.files bundle)[stage]? = some (path, data) →
      (Renamed agent.log path ↔ stage < agent.control.reached)
  stored : 2 ≤ agent.control.reached → ∃ bundle, agent.label.Given agent.log bundle ∧
    agent.label.Stored files bundle agent.control.reached
  skipped : Skips root agent.log → files.file (pdfIn root) ≠ none

structure StorageInvariant (root : String) (view : StorageView) : Prop where
  sound : view.world.files.Sound
  lasting : ∀ id agent, view.process id = some agent → Lasting root view.world.files agent
  turn : ∀ id agent, view.process id = some agent → Live agent →
    agent.label.Turn view.world.files agent.log agent.control
  alone : ∀ id id' agent agent', view.process id = some agent → view.process id' = some agent' →
    Live agent → Live agent' → id = id'
  pdf : view.world.files.file (pdfIn root) ≠ none →
    ∃ id agent, view.process id = some agent ∧ 2 ≤ agent.control.reached
  metadata : view.world.files.file (metadataIn root) ≠ none →
    ∃ id agent, view.process id = some agent ∧ 3 ≤ agent.control.reached
  single : ∀ id id' agent agent', view.process id = some agent → view.process id' = some agent' →
    2 ≤ agent.control.reached → 2 ≤ agent'.control.reached → id = id'

section Run

variable {root : String} {view view' : StorageView} {world : World} {id : ℕ} {agent : StorageAgent}

/-- A handling that has published the PDF has it in the directory. -/
theorem Lasting.present {files : FileSystem} (lasting : Lasting root files agent)
    (published : 2 ≤ agent.control.reached) : files.file (pdfIn root) ≠ none := by
  intro missing
  obtain ⟨bundle, _, stored⟩ := lasting.stored published
  have read := stored 1 (by omega) _ _ agent.label.pdf_listed
  rw [lasting.rooted, FileSystem.read_none.mpr missing] at read
  cases read

theorem Lasting.kept {files files' : FileSystem} (lasting : Lasting root files agent)
    (same : 2 ≤ agent.control.reached → files' = files)
    (stays : files.file (pdfIn root) ≠ none → files'.file (pdfIn root) ≠ none) :
    Lasting root files' agent :=
  ⟨lasting.rooted, lasting.published, fun published => same published ▸ lasting.stored published,
    fun skips => stays (lasting.skipped skips)⟩

/-- One handling moves on; the others have ended or see the same directory. -/
theorem StorageInvariant.put (invariant : StorageInvariant root view) (sound : world.files.Sound)
    (lasting : Lasting root world.files agent)
    (turn : Live agent → agent.label.Turn world.files agent.log agent.control)
    (alone : ∀ other found, other ≠ id → view.process other = some found → Live found →
      ¬ Live agent ∧ world.files = view.world.files)
    (single : ∀ other found, other ≠ id → view.process other = some found →
      2 ≤ found.control.reached → agent.control.reached < 2 ∧ world.files = view.world.files)
    (grows : ∀ before, view.process id = some before → before.control.reached ≤ agent.control.reached)
    (stays : view.world.files.file (pdfIn root) ≠ none → world.files.file (pdfIn root) ≠ none)
    (pdf : world.files.file (pdfIn root) ≠ none →
      view.world.files.file (pdfIn root) ≠ none ∨ 2 ≤ agent.control.reached)
    (metadata : world.files.file (metadataIn root) ≠ none →
      view.world.files.file (metadataIn root) ≠ none ∨ 3 ≤ agent.control.reached) :
    StorageInvariant root (view.put id agent world) := by
  have reaches : ∀ bound, (∃ other found, view.process other = some found ∧
      bound ≤ found.control.reached) ∨ bound ≤ agent.control.reached →
      ∃ other found, (view.put id agent world).process other = some found ∧
        bound ≤ found.control.reached := by
    intro bound reached
    by_cases here : bound ≤ agent.control.reached
    · exact ⟨id, agent, Config.put_self, here⟩
    · obtain ⟨other, found, present, reached⟩ := reached.resolve_right here
      refine ⟨other, found, (Config.put_of_ne ?_).trans present, reached⟩
      rintro rfl
      exact here (Nat.le_trans reached (grows found present))
  constructor
  · exact sound
  · intro other found present
    rcases Config.put_cases present with ⟨rfl, rfl⟩ | ⟨differs, before⟩
    · exact lasting
    · have lasting := invariant.lasting other found before
      exact lasting.kept (fun reached => (single other found differs before reached).2) stays
  · intro other found present live
    rcases Config.put_cases present with ⟨rfl, rfl⟩ | ⟨differs, before⟩
    · exact turn live
    · rw [Config.put_world, (alone other found differs before live).2]
      exact invariant.turn other found before live
  · intro other other' found found' present present' live live'
    rcases Config.put_cases present with ⟨rfl, rfl⟩ | ⟨differs, before⟩
    · rcases Config.put_cases present' with ⟨rfl, rfl⟩ | ⟨differs', before'⟩
      · rfl
      · exact absurd live (alone other' found' differs' before' live').1
    · rcases Config.put_cases present' with ⟨rfl, rfl⟩ | ⟨differs', before'⟩
      · exact absurd live' (alone other found differs before live).1
      · exact invariant.alone other other' found found' before before' live live'
  · intro present
    exact reaches 2 ((pdf present).imp_left invariant.pdf)
  · intro present
    exact reaches 3 ((metadata present).imp_left invariant.metadata)
  · intro other other' found found' present present' reached reached'
    rcases Config.put_cases present with ⟨rfl, rfl⟩ | ⟨differs, before⟩
    · rcases Config.put_cases present' with ⟨rfl, rfl⟩ | ⟨differs', before'⟩
      · rfl
      · have below := (single other' found' differs' before' reached').1
        omega
    · rcases Config.put_cases present' with ⟨rfl, rfl⟩ | ⟨differs', before'⟩
      · have below := (single other found differs before reached).1
        omega
      · exact invariant.single other other' found found' before before' reached reached'

/-- A handling at rest has ended or was killed. -/
theorem not_live_of_quiescent {config : StorageConfig}
    (views : config.Views storageOutline (fun _ _ _ phase => phase.Final) view)
    (quiescent : config.Quiescent) (present : view.process id = some agent) : ¬ Live agent := by
  rintro ⟨alive, unfinished⟩
  obtain ⟨⟨label, control, log, killed⟩, found, _, _, killed_eq, follows⟩ := Refinement.behind views present
  cases control with
  | done result => exact unfinished follows
  | await call next =>
    refine quiescent id _ found ⟨killed_eq.trans alive, ?_⟩
    simp only [Program.call?, ne_eq, reduceCtorEq, not_false_eq_true]

theorem StorageInvariant.step {config : StorageConfig} {event : StorageEvent}
    (invariant : StorageInvariant root view)
    (views : config.Views storageOutline (fun _ _ _ phase => phase.Final) view)
    (allowed : OneAtATime root config event) (step : storageOutline.Step view event view') :
    StorageInvariant root view' := by
  cases step with
  | @start id obtaining world absent begins =>
    obtain rfl : world = view.world := begins
    refine invariant.put invariant.sound ⟨allowed.2, ?_, ?_, ?_⟩ (fun _ => trivial) ?_ ?_ ?_
      (fun there => there) .inl .inl
    · intro bundle stage path data _
      exact iff_of_false List.not_mem_nil (Nat.not_lt_zero _)
    · intro published
      cases published
    · intro skips
      cases skips
    · intro other found _ present live
      exact absurd live (not_live_of_quiescent views allowed.1 present)
    · exact fun _ _ _ _ _ => ⟨Nat.zero_lt_two, rfl⟩
    · intro before present
      cases absent.symm.trans present
  | @kill id agent present alive =>
    have lasting := invariant.lasting id agent present
    refine invariant.put invariant.sound ⟨lasting.rooted, lasting.published, lasting.stored, lasting.skipped⟩
      ?_ ?_ ?_ ?_ (fun there => there) .inl .inl
    · rintro ⟨⟨⟩, _⟩
    · intro other found _ _ _
      exact ⟨by rintro ⟨⟨⟩, _⟩, rfl⟩
    · intro other found differs present' published
      refine ⟨?_, rfl⟩
      by_contra late
      exact differs (invariant.single other id found agent present' present published (Nat.le_of_not_lt late))
    · intro before present'
      cases present.symm.trans present'
      exact Nat.le_refl _
  | @reply id agent call reply phase' world present alive moves served =>
    have live : Live agent := ⟨alive, StorageStep.not_final moves⟩
    have turn := invariant.turn id agent present live
    have lasting := invariant.lasting id agent present
    have effect := StorageStep.effect moves served turn
    have turn' := effect.turn invariant.sound turn
    have pdf : (agent.label.files ⟨[], []⟩)[1]? = some (pdfIn root, []) :=
      lasting.rooted ▸ agent.label.pdf_listed
    have metadata : (agent.label.files ⟨[], []⟩)[2]? =
        some (metadataIn root, ArtifactStore.metadataBytes agent.label.metadata) :=
      lasting.rooted ▸ agent.label.metadata_listed
    refine invariant.put (effect.sound invariant.sound) ⟨lasting.rooted, ?_, turn'.published, ?_⟩
      (fun _ => turn') ?_ ?_ ?_ (effect.stays pdf) ?_ ?_
    · intro bundle stage path data listed
      exact effect.published listed (lasting.published bundle stage path data listed)
    · intro skips
      rcases List.mem_cons.mp skips with now | before
      · cases now
        obtain ⟨⟨outside, replied⟩, rfl⟩ := served
        have found : true = (view.world.files.file (pdfIn root)).isSome := Except.ok.inj replied
        exact Option.isSome_iff_ne_none.mp found.symm
      · exact effect.stays pdf (lasting.skipped before)
    · intro other found differs present' live'
      exact absurd (invariant.alone other id found agent present' present live' live) differs
    · intro other found differs present' published
      rcases effect.changes turn with ⟨same, none⟩ | late | missing
      · have below : phase'.reached < 2 := by omega
        exact ⟨below, same⟩
      · exact absurd (invariant.single other id found agent present' present published late) differs
      · have there := (invariant.lasting other found present').present published
        have path : agent.label.selection.paths.pdfPath = pdfIn root := by
          have listed : (agent.label.files ⟨[], []⟩)[1]? = some (agent.label.selection.paths.pdfPath, []) := rfl
          exact Obtaining.path_eq listed pdf
        exact absurd (path ▸ missing) there
    · intro before present'
      cases present.symm.trans present'
      exact effect.grows
    · exact fun found => effect.creates pdf found
    · exact fun found => effect.creates metadata found

/-- The PDF and the metadata are names of every `write`. -/
theorem Lasting.renamed_pdf {files : FileSystem} (lasting : Lasting root files agent) :
    Renamed agent.log (pdfIn root) ↔ 1 < agent.control.reached := by
  refine lasting.published ⟨[], []⟩ 1 _ [] ?_
  rw [← lasting.rooted]
  exact agent.label.pdf_listed

theorem Lasting.renamed_metadata {files : FileSystem} (lasting : Lasting root files agent) :
    Renamed agent.log (metadataIn root) ↔ 2 < agent.control.reached := by
  refine lasting.published ⟨[], []⟩ 2 _ (ArtifactStore.metadataBytes agent.label.metadata) ?_
  rw [← lasting.rooted]
  exact agent.label.metadata_listed

theorem StorageInvariant.idle (sound : world.files.Sound)
    (empty : world.files.file (pdfIn root) = none ∧ world.files.file (metadataIn root) = none) :
    StorageInvariant root (.idle world) := by
  constructor
  · exact sound
  · exact fun _ _ present => Config.idle_absent present
  · exact fun _ _ present => Config.idle_absent present
  · exact fun _ _ _ _ present => Config.idle_absent present
  · exact fun present => absurd empty.1 present
  · exact fun present => absurd empty.2 present
  · exact fun _ _ _ _ present => Config.idle_absent present

/-- The whole set is there when every handling that published the PDF published the metadata. -/
theorem StorageInvariant.complete {config : StorageConfig} (invariant : StorageInvariant root view)
    (views : config.Views storageOutline (fun _ _ _ phase => phase.Final) view)
    (uncut : ∀ id process, config.process id = some process → ¬ CutShort root process)
    (stored : config.world.files.file (pdfIn root) ≠ none) : WholeSet config := by
  rw [views.world] at stored
  obtain ⟨id, agent, present, published⟩ := invariant.pdf stored
  obtain ⟨process, found, label, log, _⟩ := Refinement.behind views present
  have lasting := invariant.lasting id agent present
  obtain ⟨bundle, given, kept⟩ := lasting.stored published
  have renamed : Renamed process.log (metadataIn root) := by
    by_contra cut
    exact uncut id process found ⟨log ▸ lasting.renamed_pdf.mpr published, cut⟩
  have finished : 2 < agent.control.reached := lasting.renamed_metadata.mp (log ▸ renamed)
  refine ⟨id, process, bundle, found, ?_, ?_⟩
  · rw [label, log]
    exact given
  · rintro ⟨path, data⟩ member
    rw [views.world]
    rw [label] at member
    obtain ⟨stage, inside, listed⟩ := List.getElem?_of_mem member |>.imp fun stage listed =>
      And.intro (List.getElem?_eq_some_iff.mp listed).1 listed
    have three : (agent.label.files bundle).length = 3 := rfl
    exact kept stage (by omega) path data listed

theorem StorageInvariant.whole_metadata {config : StorageConfig} (invariant : StorageInvariant root view)
    (views : config.Views storageOutline (fun _ _ _ phase => phase.Final) view)
    (whole : WholeSet config) : view.world.files.file (metadataIn root) ≠ none := by
  obtain ⟨id, process, bundle, present, _, reads⟩ := whole
  obtain ⟨agent, seen, label, _⟩ := Refinement.seen views present
  have read := reads _ (List.mem_of_getElem? process.label.metadata_listed)
  rw [label, (invariant.lasting id agent seen).rooted, views.world] at read
  intro missing
  rw [FileSystem.read_none.mpr missing] at read
  cases read

/-- A handling cut short has left a PDF without its metadata. -/
theorem StorageInvariant.incomplete {config : StorageConfig} (invariant : StorageInvariant root view)
    (views : config.Views storageOutline (fun _ _ _ phase => phase.Final) view)
    {process : StorageProcess} (present : config.process id = some process)
    (cut : CutShort root process) :
    config.world.files.file (pdfIn root) ≠ none ∧ ¬ WholeSet config := by
  obtain ⟨agent, seen, _, log, _⟩ := Refinement.seen views present
  have lasting := invariant.lasting id agent seen
  have published : 1 < agent.control.reached := lasting.renamed_pdf.mp (log ▸ cut.1)
  rw [views.world]
  refine ⟨lasting.present published, ?_⟩
  intro whole
  obtain ⟨other, found, seen', finished⟩ := invariant.metadata (invariant.whole_metadata views whole)
  obtain rfl := invariant.single other id found agent seen' seen (by omega) published
  cases seen.symm.trans seen'
  exact cut.2 (log ▸ lasting.renamed_metadata.mpr finished)

/-- At rest, what is cut short was killed. -/
theorem StorageInvariant.killed {config : StorageConfig} (invariant : StorageInvariant root view)
    (views : config.Views storageOutline (fun _ _ _ phase => phase.Final) view)
    (quiescent : config.Quiescent) {process : StorageProcess}
    (present : config.process id = some process) (cut : CutShort root process) :
    process.killed = true := by
  obtain ⟨agent, seen, _, log, killed, _⟩ := Refinement.seen views present
  have lasting := invariant.lasting id agent seen
  have published : 1 < agent.control.reached := lasting.renamed_pdf.mp (log ▸ cut.1)
  have unfinished : ¬ 2 < agent.control.reached := fun finished =>
    cut.2 (log ▸ lasting.renamed_metadata.mpr finished)
  by_contra alive
  refine not_live_of_quiescent views quiescent seen ⟨?_, ?_⟩
  · rw [← killed]
    exact (Bool.not_eq_true _).mp alive
  · rintro (final | ⟨bundle, final⟩)
    · rw [final] at published
      cases published
    · rw [final] at unfinished
      exact unfinished (Nat.lt_succ_self 2)

theorem storage_invariant {events : List StorageEvent} {config : StorageConfig}
    (sound : world.files.Sound)
    (empty : world.files.file (pdfIn root) = none ∧ world.files.file (metadataIn root) = none)
    (run : Path (Guarded storage.Step (OneAtATime root)) (.idle world) events config) :
    ∃ view, config.Views storageOutline (fun _ _ _ phase => phase.Final) view ∧
      StorageInvariant root view :=
  storage_refines.invariant
    (fun _ _ _ _ views allowed step invariant => StorageInvariant.step invariant views allowed step)
    run (StorageInvariant.idle sound empty)

end Run

/-- In every run of handlings that come to an empty directory one after the other, a stored PDF stands
for a whole set exactly when no handling has published the PDF without the metadata. Once all is at
rest such a handling was killed, and where a handling skipped the download the PDF is stored. -/
theorem stored_complete {root : String} {world : World} {events : List StorageEvent}
    {config : StorageConfig} (sound : world.files.Sound)
    (empty : world.files.file (pdfIn root) = none ∧ world.files.file (metadataIn root) = none)
    (run : Path (Guarded storage.Step (OneAtATime root)) (.idle world) events config) :
    ((config.world.files.file (pdfIn root) ≠ none → WholeSet config) ↔
      ∀ id process, config.process id = some process → ¬ CutShort root process) ∧
    (config.Quiescent → ∀ id process, config.process id = some process → CutShort root process →
      process.killed = true) ∧
    ∀ id process, config.process id = some process → Skips root process.log →
      config.world.files.file (pdfIn root) ≠ none := by
  obtain ⟨view, views, invariant⟩ := storage_invariant sound empty run
  refine ⟨⟨?_, invariant.complete views⟩, ?_, ?_⟩
  · intro complete id process present cut
    obtain ⟨stored, incomplete⟩ := invariant.incomplete views present cut
    exact incomplete (complete stored)
  · intro quiescent id process present cut
    exact invariant.killed views quiescent present cut
  · intro id process present skips
    obtain ⟨agent, seen, _, log, _⟩ := Refinement.seen views present
    rw [views.world]
    exact (invariant.lasting id agent seen).skipped (log ▸ skips)

/-! ### A handling killed before the metadata -/

/-- File operations take effect; the choice answers for SEC and the renderer. -/
def storagePlayer : Player storage Outside where
  begin? world _ := some world
  answer outside call world := world.answer outside call
  resumes := rfl
  begins _ _ _ begun := (Option.some.inj begun).symm
  serves := World.reliable

/-- `OneAtATime` on the processes below a bound. -/
def oneAtATimeBelow (bound : ℕ) (root : String) (config : StorageConfig) : StorageEvent → Bool
  | .start _ obtaining => ((List.range bound).all fun id => decide (config.InactiveAt id)) &&
      obtaining.selection.paths.root = root
  | _ => true

theorem oneAtATimeBelow_sound {bound : ℕ} {root : String} {config : StorageConfig} {event : StorageEvent}
    (above : ∀ id, bound ≤ id → config.process id = none)
    (below : oneAtATimeBelow bound root config event = true) : OneAtATime root config event := by
  unfold OneAtATime
  split
  · simp only [oneAtATimeBelow, Bool.and_eq_true, decide_eq_true_eq] at below
    refine ⟨fun id => ?_, below.2⟩
    by_cases inside : id < bound
    · exact of_decide_eq_true (List.all_eq_true.mp below.1 id (List.mem_range.mpr inside))
    · intro process present
      rw [above id (by omega)] at present
      cases present
  · trivial

/-- A handling that has selected the filing of the small deployment. -/
def sampleObtaining : Obtaining := ⟨Sample.worker 2, Sample.selection, _, _, _, Sample.resolved⟩

/-- A first handling is killed after so many calls, and a second one follows. -/
def killedAfter (first second : ℕ) : List (Move Obtaining Outside) :=
  [.start 0 sampleObtaining] ++ List.replicate first (.serve 0 Sample.outside) ++
    [.kill 0, .start 1 sampleObtaining] ++ List.replicate second (.serve 1 Sample.outside)

theorem killedAfter_run {first second : ℕ} {goal : StorageConfig → Prop}
    (plays : storagePlayer.Plays
      (fun config event => event.id < 2 ∧
        oneAtATimeBelow 2 sampleObtaining.selection.paths.root config event = true)
      (fun config => config.InactiveAt 0 ∧ config.InactiveAt 1 ∧ goal config)
      (.idle Sample.world) (killedAfter first second)) :
    ∃ events config, Path (Guarded storage.Step (OneAtATime sampleObtaining.selection.paths.root))
      (.idle Sample.world) events config ∧ config.Quiescent ∧ goal config ∧
      ∀ id, 2 ≤ id → config.process id = none := by
  obtain ⟨events, config, path, ⟨inactive, inactive', reached⟩, frame⟩ := plays.path
  have above : ∀ id, 2 ≤ id → config.process id = none := by
    intro id beyond
    refine (frame id fun move member => ?_).trans Config.idle_process
    simp only [killedAfter, List.mem_append, List.mem_cons, List.mem_replicate, List.not_mem_nil,
      or_false] at member
    rcases member with ((rfl | ⟨_, rfl⟩) | rfl | rfl) | ⟨_, rfl⟩ <;> simp only [Move.id] <;> omega
  refine ⟨events, config,
    System.bounded_run (fun _ _ above below => oneAtATimeBelow_sound above below) path, ?_, reached, above⟩
  intro id
  match id with
  | 0 => exact inactive
  | 1 => exact inactive'
  | id + 2 =>
    intro process present
    rw [above (id + 2) (by omega)] at present
    cases present

theorem sample_sound : Sample.world.files.Sound :=
  ⟨by rintro path file ⟨⟩, by rintro path path' file ⟨⟩⟩

/-- `¬ Renamed` as a test. -/
def neverRenamed (path : String) (process : StorageProcess) : Bool :=
  process.log.all fun answered =>
    match answered with
    | ⟨.replace _ target, _⟩ => target ≠ path
    | _ => true

theorem neverRenamed_sound {path : String} {process : StorageProcess}
    (never : neverRenamed path process = true) : ¬ Renamed process.log path := by
  intro renamed
  have differs := List.all_eq_true.mp never _ renamed
  exact of_decide_eq_true differs rfl

/-- `Skips` as a test, of a handling that has looked and done nothing else. -/
def skippedOnly (root : String) (process : StorageProcess) : Bool :=
  match process.log with
  | [⟨.pathExists path, .ok true⟩] => path = pdfIn root
  | _ => false

theorem skippedOnly_sound {root : String} {process : StorageProcess}
    (skipped : skippedOnly root process = true) : Skips root process.log := by
  unfold skippedOnly at skipped
  split at skipped
  · rename_i path log
    rw [Skips, log, of_decide_eq_true skipped]
    exact List.mem_cons_self
  · cases skipped

/-- The redelivery writes the whole set after a kill that left no PDF. -/
theorem stored_complete_redelivered : ∃ events config,
    Path (Guarded storage.Step (OneAtATime sampleObtaining.selection.paths.root)) (.idle Sample.world)
      events config ∧
    config.Quiescent ∧ config.world.files.file (pdfIn sampleObtaining.selection.paths.root) ≠ none ∧
    WholeSet config := by
  have plays : storagePlayer.Plays
      (fun config event => event.id < 2 ∧
        oneAtATimeBelow 2 sampleObtaining.selection.paths.root config event = true)
      (fun config => config.InactiveAt 0 ∧ config.InactiveAt 1 ∧
        config.world.files.file (pdfIn sampleObtaining.selection.paths.root) ≠ none ∧
        (config.process 0).all (neverRenamed (pdfIn sampleObtaining.selection.paths.root)) = true ∧
        (config.process 1).all (fun process => !process.killed) = true)
      (.idle Sample.world) (killedAfter 9 13) := by
    decide +kernel
  obtain ⟨events, config, run, quiescent, ⟨stored, unpublished, alive⟩, above⟩ := killedAfter_run plays
  obtain ⟨complete_iff, killed, _⟩ := stored_complete sample_sound ⟨rfl, rfl⟩ run
  refine ⟨events, config, run, quiescent, stored, complete_iff.mpr (fun id process present cut => ?_) stored⟩
  match id with
  | 0 =>
    rw [present, Option.all_some] at unpublished
    exact neverRenamed_sound unpublished cut.1
  | 1 =>
    rw [present, Option.all_some, killed quiescent 1 process present cut] at alive
    cases alive
  | id + 2 =>
    rw [above (id + 2) (by omega)] at present
    cases present

/-- Killed between the last two renames, a handling leaves a PDF without metadata, and the redelivery
takes it for the whole set. -/
theorem stored_incomplete : ¬ ∀ events config,
    Path (Guarded storage.Step (OneAtATime sampleObtaining.selection.paths.root)) (.idle Sample.world)
      events config → config.Quiescent →
    (∃ id process, config.process id = some process ∧
      Skips sampleObtaining.selection.paths.root process.log) →
    config.world.files.file (pdfIn sampleObtaining.selection.paths.root) ≠ none → WholeSet config := by
  intro claimed
  have plays : storagePlayer.Plays
      (fun config event => event.id < 2 ∧
        oneAtATimeBelow 2 sampleObtaining.selection.paths.root config event = true)
      (fun config => config.InactiveAt 0 ∧ config.InactiveAt 1 ∧
        config.world.files.file (pdfIn sampleObtaining.selection.paths.root) ≠ none ∧
        config.world.files.file (metadataIn sampleObtaining.selection.paths.root) = none ∧
        (config.process 1).any (skippedOnly sampleObtaining.selection.paths.root) = true)
      (.idle Sample.world) (killedAfter 10 1) := by
    decide +kernel
  obtain ⟨events, config, run, quiescent, ⟨stored, missing, skipped⟩, _⟩ := killedAfter_run plays
  obtain ⟨process, present, skips⟩ := (Option.any_eq_true _ _).mp skipped
  obtain ⟨view, views, invariant⟩ := storage_invariant sample_sound ⟨rfl, rfl⟩ run
  have whole := claimed events config run quiescent ⟨1, process, present, skippedOnly_sound skips⟩ stored
  rw [views.world] at missing
  exact invariant.whole_metadata views whole missing

end Quartr.Soundness
