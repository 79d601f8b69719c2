import Quartr.Model.CikMapping
import Quartr.Soundness.ArtifactSet
import Quartr.Soundness.Effects

/-! # Writers of one path

Several calls write a temporary file and rename it, all under the same temporary name: handlings that
found no PDF in an accession directory, or processes that save the ticker mapping. What the path then
holds depends on whether a writer finds the temporary file as it left it.
-/

namespace Quartr.Soundness

open Quartr.Machine Quartr.Model
open Quartr.Machine.Coroutine (Follows follows_bind)

/-- A call that publishes files through temporary names. -/
inductive Saving where
  | artifact (obtaining : Obtaining)
  | mapping (path : String) (payload : Bytes)

/-- What the calls write to together. -/
inductive Shared where
  | directory (root : String)
  | mapping (path : String)

/-- The PDF of an accession directory. -/
def Shared.pdf? : Shared → Option String
  | .directory root => some (pdfIn root)
  | .mapping _ => none

namespace Saving

def Concerns : Saving → Shared → Prop
  | .artifact obtaining, .directory root => obtaining.selection.paths.root = root
  | .mapping path _, .mapping path' => path = path'
  | _, _ => False

instance : (saving : Saving) → (shared : Shared) → Decidable (saving.Concerns shared)
  | .artifact _, .directory _ => inferInstanceAs (Decidable (_ = _))
  | .mapping _ _, .mapping _ => inferInstanceAs (Decidable (_ = _))
  | .artifact _, .mapping _ => .isFalse id
  | .mapping _ _, .directory _ => .isFalse id

/-- The files of the call in their order. -/
def files : Saving → Bundle → List (String × Bytes)
  | .artifact obtaining, bundle => obtaining.files bundle
  | .mapping path payload, _ => [(path, payload)]

/-- The call has been given these bytes. -/
def Given : Saving → List (Σ call, calls.Reply call) → Bundle → Prop
  | .artifact obtaining, log, bundle => obtaining.Given log bundle
  | .mapping _ _, _, _ => True

def body : Saving → Program calls (Except Err Unit)
  | .artifact obtaining => (obtaining.worker.obtainArtifact obtaining.selection ()).bind fun result =>
      .done result.1
  | .mapping path payload => (CikMapping.saveToDisk path payload ()).bind fun result => .done result.1

/-- The mapping is given with the call. -/
def initial : Saving → StoragePhase
  | .artifact _ => .checking
  | .mapping _ _ => .preparing ⟨[], []⟩

end Saving

abbrev SavingConfig := Config calls World Saving (Program calls (Except Err Unit))
abbrev SavingEvent := Event calls Saving
abbrev SavingAgent := Process calls Saving StoragePhase
abbrev SavingView := Config calls World Saving StoragePhase

/-- Any number of calls over one file system; any file operation may raise. -/
def savers : System calls World Saving (Program calls (Except Err Unit)) :=
  System.ofBodies (fun _ => Saving.body) (fun world _ world' => world' = world) Faulty

/-- A path that calls on these files publish. -/
def Shared.Target (shared : Shared) (path : String) : Prop :=
  ∃ (saving : Saving) (bundle : Bundle) (data : Bytes), saving.Concerns shared ∧
    (path, data) ∈ saving.files bundle

/-- Some call has been given these bytes for the path. -/
def Offers {Control : Type} (config : Config calls World Saving Control) (path : String) (bytes : Bytes) :
    Prop :=
  ∃ id process bundle, config.process id = some process ∧ process.label.Given process.log bundle ∧
    (path, bytes) ∈ process.label.files bundle

/-! ### The names of the files -/

section Names

variable {shared : Shared} {path path' : String}

theorem tmpPath_injective (same : ArtifactStore.tmpPath path = ArtifactStore.tmpPath path') : path = path' := by
  rw [ArtifactStore.tmpPath, ArtifactStore.tmpPath, ← String.toList_inj, String.toList_append,
    String.toList_append, List.append_cancel_right_eq] at same
  exact String.toList_inj.mp same

theorem tmpPath_ne (path : String) : path ≠ ArtifactStore.tmpPath path := by
  intro same
  have lengths := congrArg (fun text : String => text.toList.length) same
  rw [ArtifactStore.tmpPath, String.toList_append, List.length_append] at lengths
  simp at lengths

/-- The temporary files of one directory are none of its files, whatever the extensions. -/
theorem directory_apart {obtaining obtaining' : Obtaining} {bundle bundle' : Bundle} {data data' : Bytes}
    (same : obtaining.selection.paths.root = obtaining'.selection.paths.root)
    (member : (path, data) ∈ obtaining.files bundle) (member' : (path', data') ∈ obtaining'.files bundle') :
    path' ≠ ArtifactStore.tmpPath path := by
  intro clash
  obtain ⟨ext, dots, named⟩ := obtaining.names
  obtain ⟨ext', dots', named'⟩ := obtaining'.names
  obtain ⟨stage, listed⟩ := List.mem_iff_getElem?.mp member
  obtain ⟨stage', listed'⟩ := List.mem_iff_getElem?.mp member'
  obtain ⟨name, chars, kind⟩ := named bundle stage path data listed
  obtain ⟨name', chars', kind'⟩ := named' bundle' stage' path' data' listed'
  rw [clash, ArtifactStore.tmpPath, String.toList_append, chars, same, List.append_assoc,
    List.append_cancel_left_eq] at chars'
  rcases kind with ⟨-, rfl⟩ | ⟨-, rfl⟩ | ⟨-, rfl⟩
  · rcases kind' with ⟨-, rfl⟩ | ⟨-, rfl⟩ | ⟨-, rfl⟩
    · -- An extension has one dot, so `.tmp` cannot follow another one.
      have counts := congrArg (List.count '.') chars'
      simp only [List.count_append, dots, dots'] at counts
      revert counts
      decide
    · simp at chars'
    · simp at chars'
  · rcases kind' with ⟨-, rfl⟩ | ⟨-, rfl⟩ | ⟨-, rfl⟩ <;> simp at chars'
  · rcases kind' with ⟨-, rfl⟩ | ⟨-, rfl⟩ | ⟨-, rfl⟩ <;> simp at chars'

/-- No temporary file has the name of a final one. -/
theorem Shared.Target.apart (target : shared.Target path) (target' : shared.Target path') :
    path' ≠ ArtifactStore.tmpPath path := by
  obtain ⟨saving, bundle, data, concerns, member⟩ := target
  obtain ⟨saving', bundle', data', concerns', member'⟩ := target'
  cases shared with
  | directory root =>
    cases saving with
    | mapping => exact concerns.elim
    | artifact obtaining =>
      cases saving' with
      | mapping => exact concerns'.elim
      | artifact obtaining' =>
        exact directory_apart (Eq.trans concerns (Eq.symm concerns')) member member'
  | mapping shared =>
    cases saving with
    | artifact => exact concerns.elim
    | mapping _ payload =>
      cases saving' with
      | artifact => exact concerns'.elim
      | mapping _ payload' =>
        cases List.mem_singleton.mp member
        cases List.mem_singleton.mp member'
        rw [show path' = path from Eq.trans concerns' (Eq.symm concerns)]
        exact tmpPath_ne path

/-- Where calls publish at all, they publish the PDF. -/
theorem Shared.Target.pdf (target : shared.Target path) {pdf : String} (named : pdf ∈ shared.pdf?) :
    shared.Target pdf := by
  obtain ⟨saving, bundle, data, concerns, member⟩ := target
  cases shared with
  | mapping => cases named
  | directory root =>
    cases saving with
    | mapping => exact concerns.elim
    | artifact obtaining =>
      cases named
      refine ⟨.artifact obtaining, bundle, bundle.pdf, concerns, ?_⟩
      rw [← show obtaining.selection.paths.root = root from concerns]
      exact List.mem_of_getElem? obtaining.pdf_listed

end Names

/-! ### The phases of a call -/

/-- The phases in which no file is open. -/
def StoragePhase.Early : StoragePhase → Prop
  | .checking => True
  | .downloading => True
  | .converting _ => True
  | .preparing _ => True
  | _ => False

inductive SavingStep (saving : Saving) : Protocol calls StoragePhase
  | early (obtaining : Obtaining) (same : saving = .artifact obtaining) (phase phase' : StoragePhase)
      (call : Call) (reply : calls.Reply call) (early : phase.Early)
      (step : StorageStep obtaining phase call reply phase') : SavingStep saving phase call reply phase'
  | prepared (bundle : Bundle) (directory : String) (reply : calls.Reply (.makedirs directory)) :
      SavingStep saving (.preparing bundle) (.makedirs directory) reply
        (.unlessRaised (fun _ => .opening bundle 0) reply)
  | opened (bundle : Bundle) (stage : ℕ) (path : String) (data : Bytes)
      (listed : (saving.files bundle)[stage]? = some (path, data))
      (reply : calls.Reply (.openTruncate (ArtifactStore.tmpPath path))) :
      SavingStep saving (.opening bundle stage) (.openTruncate (ArtifactStore.tmpPath path)) reply
        (.unlessRaised (.writing bundle stage) reply)
  | written (bundle : Bundle) (stage descriptor : ℕ) (path : String) (data : Bytes)
      (listed : (saving.files bundle)[stage]? = some (path, data))
      (reply : calls.Reply (.writeFile descriptor data)) :
      SavingStep saving (.writing bundle stage descriptor) (.writeFile descriptor data) reply
        (.unlessRaised (fun _ => .replacing bundle stage) reply)
  | renamed (bundle : Bundle) (stage : ℕ) (path : String) (data : Bytes)
      (listed : (saving.files bundle)[stage]? = some (path, data))
      (reply : calls.Reply (.replace (ArtifactStore.tmpPath path) path)) :
      SavingStep saving (.replacing bundle stage) (.replace (ArtifactStore.tmpPath path) path) reply
        (.unlessRaised (fun _ => .opening bundle (stage + 1)) reply)

theorem StorageStep.saving {obtaining : Obtaining} {phase phase' : StoragePhase} {call : Call}
    {reply : calls.Reply call} (step : StorageStep obtaining phase call reply phase') :
    SavingStep (.artifact obtaining) phase call reply phase' := by
  cases step with
  | checked reply => exact .early obtaining rfl _ _ _ _ trivial (.checked reply)
  | downloaded reply => exact .early obtaining rfl _ _ _ _ trivial (.downloaded reply)
  | converted document reply => exact .early obtaining rfl _ _ _ _ trivial (.converted document reply)
  | prepared bundle reply => exact .prepared bundle _ reply
  | opened bundle stage path data listed reply =>
    exact @SavingStep.opened (.artifact obtaining) bundle stage path data listed reply
  | written bundle stage descriptor path data listed reply =>
    exact @SavingStep.written (.artifact obtaining) bundle stage descriptor path data listed reply
  | renamed bundle stage path data listed reply =>
    exact @SavingStep.renamed (.artifact obtaining) bundle stage path data listed reply

theorem saveToDisk_follows {path : String} {payload : Bytes} {σ : Type} {object : σ} :
    Follows (SavingStep (.mapping path payload)) (CikMapping.saveToDisk path payload) object
      (.preparing ⟨[], []⟩) (fun _ _ _ => True) := by
  refine follows_bind.mpr (follows_call.mpr fun reply => ⟨_, .prepared _ _ reply, ?_⟩)
  rcases reply with error | _
  · trivial
  refine follows_bind.mpr (follows_call.mpr fun reply => ⟨_, .opened _ 0 path payload rfl reply, ?_⟩)
  rcases reply with error | descriptor
  · trivial
  refine follows_bind.mpr (follows_call.mpr fun reply =>
    ⟨_, .written _ 0 descriptor path payload rfl reply, ?_⟩)
  rcases reply with error | _
  · trivial
  exact follows_call.mpr fun reply => ⟨_, .renamed _ 0 path payload rfl reply, trivial⟩

def saversOutline : System calls World Saving StoragePhase :=
  ⟨fun _ => Saving.initial, fun _ => SavingStep, fun world _ world' => world' = world, Faulty⟩

theorem savers_refine : Refinement savers saversOutline (fun _ _ _ _ => True) where
  resumes := rfl
  start := rfl
  serve := rfl
  follows _ saving := by
    cases saving with
    | artifact obtaining =>
      apply Program.Follows.bind_iff.mpr
      apply Program.Follows.embed obtainArtifact_stores id
      · exact fun _ _ _ _ step => step.saving
      · exact fun _ _ _ => trivial
    | mapping path payload => exact Program.Follows.bind_iff.mpr saveToDisk_follows

/-- What the log says about the bytes a call works with. -/
def Furnished (saving : Saving) (log : List (Σ call, calls.Reply call)) : StoragePhase → Prop
  | .converting document => ∀ obtaining, saving = .artifact obtaining →
      ⟨.downloadDocument obtaining.selection.filing.sourceUrl, .ok document⟩ ∈ log
  | .preparing bundle => saving.Given log bundle
  | .opening bundle _ => saving.Given log bundle
  | .writing bundle _ _ => saving.Given log bundle
  | .replacing bundle stage => saving.Given log bundle ∧ ∀ path data,
      (saving.files bundle)[stage]? = some (path, data) →
        ∃ descriptor rest, log = ⟨.writeFile descriptor data, .ok ()⟩ :: rest
  | _ => True

section Furnished

variable {saving : Saving} {log : List (Σ call, calls.Reply call)} {phase phase' : StoragePhase} {call : Call}
  {reply : calls.Reply call}

theorem Saving.Given.cons {bundle : Bundle} {answered : Σ call, calls.Reply call}
    (given : saving.Given log bundle) : saving.Given (answered :: log) bundle := by
  cases saving with
  | artifact obtaining => exact Obtaining.Given.cons given
  | mapping => trivial

theorem Furnished.step (furnished : Furnished saving log phase)
    (step : SavingStep saving phase call reply phase') : Furnished saving (⟨call, reply⟩ :: log) phase' := by
  cases step with
  | early obtaining same _ _ _ _ early step =>
    subst same
    cases step with
    | checked reply => rcases reply with error | _ | _ <;> trivial
    | downloaded reply =>
      rcases reply with error | document
      · trivial
      · rintro _ ⟨⟩
        exact List.mem_cons_self
    | converted document reply =>
      rcases reply with error | pdf
      · trivial
      · simp only [StoragePhase.afterConversion]
        split_ifs
        · exact ⟨document, rfl, List.mem_cons_of_mem _ (furnished obtaining rfl), List.mem_cons_self⟩
        · trivial
    | prepared bundle reply =>
      rcases reply with error | _
      · trivial
      · have given : (Saving.artifact obtaining).Given log bundle := furnished
        exact given.cons
    | _ => exact early.elim
  | prepared bundle directory reply =>
    rcases reply with error | _
    · trivial
    · exact Saving.Given.cons furnished
  | opened bundle stage path data listed reply =>
    rcases reply with error | descriptor
    · trivial
    · exact Saving.Given.cons furnished
  | written bundle stage descriptor path data listed reply =>
    rcases reply with error | _
    · trivial
    · refine ⟨Saving.Given.cons furnished, fun path' data' listed' => ?_⟩
      cases listed.symm.trans listed'
      exact ⟨descriptor, log, rfl⟩
  | renamed bundle stage path data listed reply =>
    rcases reply with error | _
    · trivial
    · exact Saving.Given.cons furnished.1

theorem furnished_initial (saving : Saving) : Furnished saving [] saving.initial := by
  cases saving <;> trivial

end Furnished

/-! ### File operations that keep the paths whole -/

/-- A write or a rename that another writer has not got in the way of; `last` is what the call has just
written. -/
def Unspoiled (files : FileSystem) (last : Option Bytes) : Call → Prop
  | .writeFile descriptor data => (files.content descriptor).length ≤ data.length
  | .replace source _ => files.read source = some [] → last = some []
  | _ => True

/-- The call writes into a PDF that is there, or renames a file onto it. -/
def Disturbs (shared : Shared) (files : FileSystem) : Call → Prop
  | .writeFile descriptor _ => ∃ pdf ∈ shared.pdf?, files.file pdf = some descriptor
  | .replace source target => target ∈ shared.pdf? ∧ files.file target ≠ none ∧ files.file source ≠ none
  | _ => False

/-- The calls that have been given a PDF were given the same bytes. -/
def Agreed {Control : Type} (shared : Shared) (config : Config calls World Saving Control) : Prop :=
  ∀ pdf ∈ shared.pdf?, ∀ bytes bytes', Offers config pdf bytes → Offers config pdf bytes' → bytes = bytes'

/-- The temporary file is empty or holds what some call was given for the path. -/
def Clean (offered : String → Bytes → Prop) (files : FileSystem) (path : String) : Prop :=
  ∀ bytes, files.read (ArtifactStore.tmpPath path) = some bytes → bytes = [] ∨ offered path bytes

/-- What every file operation of an unhindered call keeps. -/
structure Tidy (shared : Shared) (offered : String → Bytes → Prop) (files files' : FileSystem) : Prop where
  sound : files'.Sound
  homed : ∀ path file, shared.Target path → files.Homed (ArtifactStore.tmpPath path) path file →
    files'.Homed (ArtifactStore.tmpPath path) path file
  clean : ∀ path, shared.Target path → Clean offered files path → Clean offered files' path
  target : ∀ path, shared.Target path → files'.read path = files.read path ∨
    ∃ bytes, files'.read path = some bytes ∧ offered path bytes

section Tidy

variable {shared : Shared} {offered offered' : String → Bytes → Prop} {files files' : FileSystem}
  {path : String} {data : Bytes} {descriptor : ℕ}

theorem Clean.mono (clean : Clean offered files path)
    (implies : ∀ path bytes, offered path bytes → offered' path bytes) : Clean offered' files path := by
  intro bytes found
  exact (clean bytes found).imp_right (implies path bytes)

theorem Clean.opened : Clean offered (files.openTruncate (ArtifactStore.tmpPath path)) path := by
  intro bytes found
  cases FileSystem.read_opened.symm.trans found
  exact .inl rfl

theorem Tidy.refl (sound : files.Sound) : Tidy shared offered files files :=
  ⟨sound, fun _ _ _ homed => homed, fun _ _ clean => clean, fun _ _ => .inl rfl⟩

theorem Tidy.truncate (sound : files.Sound) (target : shared.Target path) :
    Tidy shared offered files (files.openTruncate (ArtifactStore.tmpPath path)) := by
  constructor
  · exact sound.openTruncate
  · exact fun _ _ _ homed => homed.openTruncate
  · intro path' _ clean
    by_cases same : ArtifactStore.tmpPath path' = ArtifactStore.tmpPath path
    · cases tmpPath_injective same
      exact .opened
    · intro bytes found
      rw [sound.read_openTruncate same] at found
      exact clean bytes found
  · intro path' target'
    exact .inl (sound.read_openTruncate (target.apart target'))

/-- A write that covers what the file holds leaves the bytes of the call. -/
theorem Tidy.write (sound : files.Sound) (target : shared.Target path)
    (homed : files.Homed (ArtifactStore.tmpPath path) path descriptor)
    (covers : (files.content descriptor).length ≤ data.length) (given : offered path data) :
    Tidy shared offered files (files.write descriptor data) := by
  constructor
  · exact sound.write
  · exact fun _ _ _ homed => homed.write
  · intro path' target' clean bytes found
    by_cases named : files.file (ArtifactStore.tmpPath path') = some descriptor
    · rw [FileSystem.read_covered named covers, Option.some.injEq] at found
      rcases homed.names _ named with same | same
      · rw [tmpPath_injective same, ← found]
        exact .inr given
      · exact absurd same.symm (target'.apart target)
    · rw [FileSystem.read_write_other named] at found
      exact clean bytes found
  · intro path' target'
    by_cases named : files.file path' = some descriptor
    · rcases homed.names _ named with same | same
      · exact absurd same (target.apart target')
      · subst same
        exact .inr ⟨data, FileSystem.read_covered named covers, given⟩
    · exact .inl (FileSystem.read_write_other named)

/-- A rename publishes the bytes of one call, where the temporary file has been written. -/
theorem Tidy.replace (sound : files.Sound) (target : shared.Target path) (clean : Clean offered files path)
    (written : files.read (ArtifactStore.tmpPath path) = some [] → offered path []) :
    Tidy shared offered files (files.replace (ArtifactStore.tmpPath path) path) := by
  have differs : ArtifactStore.tmpPath path ≠ path := (tmpPath_ne path).symm
  constructor
  · exact sound.replace differs
  · intro path' file target' homed
    exact homed.replace (fun same => tmpPath_injective same) (target.apart target').symm
  · intro path' target' clean' bytes found
    by_cases same : ArtifactStore.tmpPath path' = ArtifactStore.tmpPath path
    · rw [same, FileSystem.read_moved differs] at found
      cases found
    · rw [FileSystem.read_replace same (target'.apart target).symm] at found
      exact clean' bytes found
  · intro path' target'
    by_cases same : path' = path
    · subst same
      cases there : files.file (ArtifactStore.tmpPath path') with
      | none =>
        rw [FileSystem.replace_missing there]
        exact .inl rfl
      | some file =>
        have present : files.file (ArtifactStore.tmpPath path') ≠ none := by
          rw [there]
          exact Option.some_ne_none file
        have moved : files.read (ArtifactStore.tmpPath path') = some (files.content file) :=
          congrArg (Option.map files.content) there
        refine .inr ⟨files.content file, ?_, ?_⟩
        · rw [FileSystem.read_replaced present, moved]
        · rcases clean _ moved with empty | given
          · rw [empty] at moved ⊢
            exact written moved
          · exact given
    · exact .inl (FileSystem.read_replace (target.apart target') same)

end Tidy

/-- What a call knows about the temporary file it has opened. -/
def Opened (offered : String → Bytes → Prop) (files : FileSystem) (saving : Saving) : StoragePhase → Prop
  | .writing bundle stage descriptor => ∀ path data, (saving.files bundle)[stage]? = some (path, data) →
      files.Homed (ArtifactStore.tmpPath path) path descriptor ∧ Clean offered files path
  | .replacing bundle stage => ∀ path data, (saving.files bundle)[stage]? = some (path, data) →
      Clean offered files path
  | _ => True

/-- What the log ends in, if that is an answered write. -/
def lastWritten : List (Σ call, calls.Reply call) → Option Bytes
  | ⟨.writeFile _ data, .ok _⟩ :: _ => some data
  | _ => none

section Step

variable {shared : Shared} {offered offered' : String → Bytes → Prop} {saving : Saving}
  {files files' : FileSystem} {log : List (Σ call, calls.Reply call)} {phase phase' : StoragePhase}
  {call : Call} {reply : calls.Reply call} {world world' : World} {path : String} {data : Bytes}

/-- A file that a call saves is a target of what the calls share. -/
theorem Saving.Concerns.target (concerns : saving.Concerns shared) {bundle : Bundle} {stage : ℕ}
    (listed : (saving.files bundle)[stage]? = some (path, data)) : shared.Target path :=
  ⟨saving, bundle, data, concerns, List.mem_of_getElem? listed⟩

theorem Opened.tidy (opened : Opened offered files saving phase) (concerns : saving.Concerns shared)
    (tidy : Tidy shared offered files files') : Opened offered files' saving phase := by
  cases phase with
  | writing bundle stage descriptor =>
    intro path data listed
    obtain ⟨homed, clean⟩ := opened path data listed
    exact ⟨tidy.homed path descriptor (concerns.target listed) homed, tidy.clean path (concerns.target listed) clean⟩
  | replacing bundle stage =>
    intro path data listed
    exact tidy.clean path (concerns.target listed) (opened path data listed)
  | _ => trivial

theorem Opened.mono (opened : Opened offered files saving phase)
    (implies : ∀ path bytes, offered path bytes → offered' path bytes) :
    Opened offered' files saving phase := by
  cases phase with
  | writing bundle stage descriptor =>
    intro path data listed
    obtain ⟨homed, clean⟩ := opened path data listed
    exact ⟨homed, clean.mono implies⟩
  | replacing bundle stage =>
    intro path data listed
    exact (opened path data listed).mono implies
  | _ => trivial

/-- What the early calls do to files: nothing. -/
theorem SavingStep.quiet (step : SavingStep saving phase call reply phase') (early : phase.Early) :
    (world.after call).files = world.files ∧ ∀ files, Opened offered files saving phase' := by
  cases step with
  | early obtaining same _ _ _ _ early step =>
    cases step with
    | checked reply => exact ⟨rfl, fun _ => by rcases reply with error | _ | _ <;> trivial⟩
    | downloaded reply => exact ⟨rfl, fun _ => by rcases reply with error | _ <;> trivial⟩
    | converted document reply =>
      refine ⟨rfl, fun _ => ?_⟩
      rcases reply with error | pdf
      · trivial
      · simp only [StoragePhase.afterConversion]
        split_ifs <;> trivial
    | prepared bundle reply => exact ⟨rfl, fun _ => by rcases reply with error | _ <;> trivial⟩
    | _ => exact early.elim
  | prepared bundle directory reply => exact ⟨rfl, fun _ => by rcases reply with error | _ <;> trivial⟩
  | _ => exact early.elim

/-- An unhindered step keeps the paths whole. -/
theorem SavingStep.tidy (step : SavingStep saving phase call reply phase')
    (served : Faulty call world reply world') (sound : world.files.Sound)
    (concerns : saving.Concerns shared) (furnished : Furnished saving log phase)
    (opened : Opened offered world.files saving phase)
    (unspoiled : Unspoiled world.files (lastWritten log) call)
    (offers : ∀ bundle path data, saving.Given log bundle → (path, data) ∈ saving.files bundle →
      offered path data) :
    Tidy shared offered world.files world'.files ∧ Opened offered world'.files saving phase' := by
  have effect (tidy : Tidy shared offered world.files (world.after call).files) :
      Tidy shared offered world.files world'.files := by
    rcases served_world served with rfl | rfl
    · exact .refl sound
    · exact tidy
  have quietly (early : phase.Early) : Tidy shared offered world.files world'.files ∧
      Opened offered world'.files saving phase' := by
    obtain ⟨same, opened'⟩ := step.quiet early
    refine ⟨effect ?_, opened' _⟩
    rw [same]
    exact .refl sound
  cases step with
  | early _ _ _ _ _ _ early => exact quietly early
  | prepared => exact quietly trivial
  | opened bundle stage path data listed reply =>
    refine ⟨effect (.truncate sound (concerns.target listed)), ?_⟩
    rcases reply with error | descriptor
    · trivial
    · intro path' data' listed'
      cases listed.symm.trans listed'
      obtain ⟨⟨outside, replied⟩, rfl⟩ := served_answer served
      cases replied
      exact ⟨sound.homed, .opened⟩
  | written bundle stage descriptor path data listed reply =>
    obtain ⟨homed, clean⟩ := opened path data listed
    have tidy := effect (.write sound (concerns.target listed) homed unspoiled
      (offers bundle path data furnished (List.mem_of_getElem? listed)))
    refine ⟨tidy, ?_⟩
    rcases reply with error | _
    · trivial
    · intro path' data' listed'
      cases listed.symm.trans listed'
      exact tidy.clean path (concerns.target listed) clean
  | renamed bundle stage path data listed reply =>
    refine ⟨effect (.replace sound (concerns.target listed) (opened path data listed) fun empty => ?_), ?_⟩
    · -- The empty bytes are the call's own.
      obtain ⟨descriptor, rest, last⟩ := furnished.2 path data listed
      have own := unspoiled empty
      rw [last] at own
      cases own
      exact offers bundle path [] furnished.1 (List.mem_of_getElem? listed)
    · rcases reply with error | _ <;> trivial

/-- A PDF that is there and was given to a call keeps its bytes, if all calls were given the same. -/
theorem SavingStep.keeps_pdf (step : SavingStep saving phase call reply phase')
    (served : Faulty call world reply world') (sound : world.files.Sound) (concerns : saving.Concerns shared)
    (furnished : Furnished saving log phase) (opened : Opened offered world.files saving phase)
    (unspoiled : Unspoiled world.files (lastWritten log) call)
    (offers : ∀ bundle path data, saving.Given log bundle → (path, data) ∈ saving.files bundle →
      offered path data) {pdf : String} (named : pdf ∈ shared.pdf?) {bytes : Bytes}
    (there : world.files.read pdf = some bytes)
    (agreed : ¬ phase.Early → Disturbs shared world.files call → ∀ data, offered pdf data → data = bytes) :
    world'.files.read pdf = some bytes := by
  have effect (kept : (world.after call).files.read pdf = some bytes) : world'.files.read pdf = some bytes := by
    rcases served_world served with rfl | rfl
    · exact there
    · exact kept
  have quietly (early : phase.Early) : world'.files.read pdf = some bytes := by
    apply effect
    rw [(@SavingStep.quiet (fun _ _ => True) _ _ _ _ _ world step early).1]
    exact there
  cases step with
  | early _ _ _ _ _ _ early => exact quietly early
  | prepared => exact quietly trivial
  | opened bundle stage path data listed reply =>
    exact effect ((sound.read_openTruncate
      ((concerns.target listed).apart ((concerns.target listed).pdf named))).trans there)
  | written bundle stage descriptor path data listed reply =>
    apply effect
    by_cases own : world.files.file pdf = some descriptor
    · -- The file is the one the call has opened, so what it writes is its PDF.
      have target := concerns.target listed
      rcases (opened path data listed).1.names _ own with temporary | same
      · exact absurd temporary (target.apart (target.pdf named))
      · obtain rfl : pdf = path := same
        have given := offers bundle pdf data furnished (List.mem_of_getElem? listed)
        obtain rfl := agreed id ⟨pdf, named, own⟩ data given
        exact FileSystem.read_covered own unspoiled
    · exact (FileSystem.read_write_other own).trans there
  | renamed bundle stage path data listed reply =>
    apply effect
    by_cases same : path = pdf
    · subst same
      cases missing : world.files.file (ArtifactStore.tmpPath path) with
      | none => exact (congrArg (FileSystem.read · path) (FileSystem.replace_missing missing)).trans there
      | some file =>
        have present : world.files.file (ArtifactStore.tmpPath path) ≠ none := by
          rw [missing]
          exact Option.some_ne_none file
        have moved : world.files.read (ArtifactStore.tmpPath path) = some (world.files.content file) :=
          congrArg (Option.map world.files.content) missing
        have stored : world.files.file path ≠ none := by
          intro gone
          cases (FileSystem.read_none.mpr gone).symm.trans there
        have given : offered path (world.files.content file) := by
          rcases opened path data listed _ moved with empty | given
          · obtain ⟨descriptor, rest, last⟩ := furnished.2 path data listed
            rw [empty] at moved ⊢
            have own := unspoiled moved
            rw [last] at own
            cases own
            exact offers bundle path [] furnished.1 (List.mem_of_getElem? listed)
          · exact given
        rw [agreed id ⟨named, stored, present⟩ _ given] at moved
        exact (FileSystem.read_replaced present).trans moved
    · exact (FileSystem.read_replace ((concerns.target listed).apart ((concerns.target listed).pdf named))
        (Ne.symm same)).trans there

end Step

/-! ### Every run -/

/-- The path is as it was before, or holds the complete bytes of one call. -/
def Whole {Control : Type} (before : FileSystem) (config : Config calls World Saving Control)
    (path : String) : Prop :=
  config.world.files.read path = before.read path ∨
    ∃ bytes, config.world.files.read path = some bytes ∧ Offers config path bytes

structure SavingInvariant (shared : Shared) (before : FileSystem) (view : SavingView) : Prop where
  sound : view.world.files.Sound
  concerns : ∀ id agent, view.process id = some agent → agent.label.Concerns shared
  furnished : ∀ id agent, view.process id = some agent → Furnished agent.label agent.log agent.control
  opened : ∀ id agent, view.process id = some agent →
    Opened (Offers view) view.world.files agent.label agent.control
  whole : ∀ path, shared.Target path → Whole before view path
  checked : ∀ pdf ∈ shared.pdf?, before.read pdf ≠ none → ∀ id agent, view.process id = some agent →
    agent.control = .checking ∨ agent.control = .ended

/-- The call takes part in writing the shared files. -/
def Joins (shared : Shared) : SavingEvent → Prop
  | .start _ saving => saving.Concerns shared
  | _ => True

/-- The next operation of a call is one that no other call has got in the way of; it reaches a PDF that is
there only if the calls agree on the bytes. -/
def Unhindered (shared : Shared) (config : SavingConfig) : SavingEvent → Prop
  | .reply id call _ => Unspoiled config.world.files
      ((config.process id).bind fun process => lastWritten process.log) call ∧
        (Disturbs shared config.world.files call → Agreed shared config)
  | _ => True

section Run

variable {shared : Shared} {before : FileSystem} {config : SavingConfig} {view view' : SavingView}
  {event : SavingEvent} {world' : World}

/-- One call moves on, and what it does to the files is tidy. -/
theorem SavingInvariant.put (invariant : SavingInvariant shared before view) {id : ℕ} {agent' : SavingAgent}
    (tidy : Tidy shared (Offers view) view.world.files world'.files)
    (concerns : agent'.label.Concerns shared) (furnished : Furnished agent'.label agent'.log agent'.control)
    (opened : Opened (Offers view) world'.files agent'.label agent'.control)
    (grows : ∀ agent, view.process id = some agent → agent'.label = agent.label ∧
      ∀ bundle, agent.label.Given agent.log bundle → agent'.label.Given agent'.log bundle)
    (checked : ∀ pdf ∈ shared.pdf?, before.read pdf ≠ none → agent'.control = .checking ∨ agent'.control = .ended) :
    SavingInvariant shared before (view.put id agent' world') := by
  have offers : ∀ path bytes, Offers view path bytes → Offers (view.put id agent' world') path bytes := by
    rintro path bytes ⟨other, agent, bundle, present, given, member⟩
    by_cases same : other = id
    · subst same
      obtain ⟨label, log⟩ := grows agent present
      exact ⟨other, agent', bundle, Config.put_self, log bundle given, label ▸ member⟩
    · exact ⟨other, agent, bundle, (Config.put_of_ne same).trans present, given, member⟩
  constructor
  · exact tidy.sound
  · intro other agent present
    rcases Config.put_cases present with ⟨rfl, rfl⟩ | ⟨same, present⟩
    · exact concerns
    · exact invariant.concerns other agent present
  · intro other agent present
    rcases Config.put_cases present with ⟨rfl, rfl⟩ | ⟨same, present⟩
    · exact furnished
    · exact invariant.furnished other agent present
  · intro other agent present
    rcases Config.put_cases present with ⟨rfl, rfl⟩ | ⟨same, present⟩
    · exact opened.mono offers
    · exact ((invariant.opened other agent present).tidy (invariant.concerns other agent present) tidy).mono
        offers
  · intro path target
    rcases tidy.target path target with same | ⟨bytes, found, offered⟩
    · rcases invariant.whole path target with unchanged | ⟨bytes, found, offered⟩
      · exact .inl (same.trans unchanged)
      · exact .inr ⟨bytes, same.trans found, offers path bytes offered⟩
    · exact .inr ⟨bytes, found, offers path bytes offered⟩
  · intro pdf named stored other agent present
    rcases Config.put_cases present with ⟨rfl, rfl⟩ | ⟨same, present⟩
    · exact checked pdf named stored
    · exact invariant.checked pdf named stored other agent present

theorem Offers.behind {path : String} {bytes : Bytes}
    (views : config.Views saversOutline (fun _ _ _ _ => True) view) (offers : Offers view path bytes) :
    Offers config path bytes := by
  obtain ⟨id, agent, bundle, present, given, member⟩ := offers
  obtain ⟨process, found, label, log, _⟩ := Refinement.behind views present
  refine ⟨id, process, bundle, found, ?_, ?_⟩
  · rw [label, log]
    exact given
  · rw [label]
    exact member

theorem Unhindered.unspoiled {id : ℕ} {agent : SavingAgent} {call : Call} {reply : calls.Reply call}
    (views : config.Views saversOutline (fun _ _ _ _ => True) view)
    (unhindered : Unhindered shared config (.reply id call reply)) (present : view.process id = some agent) :
    Unspoiled view.world.files (lastWritten agent.log) call ∧
      (Disturbs shared view.world.files call → Agreed shared view) := by
  obtain ⟨process, found, _, log, _⟩ := Refinement.behind views present
  rw [Unhindered, found, views.world, Option.bind_some, log] at unhindered
  refine ⟨unhindered.1, fun disturbs pdf named bytes bytes' offers offers' => ?_⟩
  exact unhindered.2 disturbs pdf named bytes bytes' (offers.behind views) (offers'.behind views)

/-- Where there was a PDF before, every call finds it and goes no further. -/
theorem SavingInvariant.check (invariant : SavingInvariant shared before view) {id : ℕ} {agent : SavingAgent}
    {call : Call} {reply : calls.Reply call} {phase' : StoragePhase} (present : view.process id = some agent)
    (step : SavingStep agent.label agent.control call reply phase')
    (served : Faulty call view.world reply world') {pdf : String} (named : pdf ∈ shared.pdf?)
    (stored : before.read pdf ≠ none) : phase' = .ended := by
  have concerns := invariant.concerns id agent present
  obtain ⟨label, control, log, killed⟩ := agent
  rcases invariant.checked pdf named stored id _ present with same | same
  · obtain rfl : control = .checking := same
    cases step with
    | early obtaining same _ _ _ _ _ step =>
      obtain rfl : label = .artifact obtaining := same
      cases step with
      | checked reply =>
        cases shared with
        | mapping => cases named
        | directory root =>
          cases named
          obtain rfl : obtaining.selection.paths.root = root := concerns
          have target : (Shared.directory obtaining.selection.paths.root).Target
              (pdfIn obtaining.selection.paths.root) :=
            ⟨.artifact obtaining, ⟨[], []⟩, [], rfl, List.mem_of_getElem? obtaining.pdf_listed⟩
          have there : view.world.files.file (pdfIn obtaining.selection.paths.root) ≠ none := by
            intro gone
            have missing := FileSystem.read_none.mpr gone
            rcases invariant.whole _ target with unchanged | ⟨bytes, found, _⟩
            · exact stored (unchanged.symm.trans missing)
            · cases missing.symm.trans found
          obtain ⟨_, _, paths⟩ := obtaining.paths_eq
          have path : obtaining.selection.paths.pdfPath = pdfIn obtaining.selection.paths.root :=
            congrArg ArtifactPaths.pdfPath paths
          cases reply with
          | error error => rfl
          | ok found =>
            obtain ⟨⟨outside, replied⟩, _⟩ := served_answer served
            obtain rfl : found = (view.world.files.file obtaining.selection.paths.pdfPath).isSome :=
              Except.ok.inj replied
            rw [path, Option.isSome_iff_ne_none.mpr there]
            rfl
  · obtain rfl : control = .ended := same
    cases step with
    | early _ _ _ _ _ _ early => exact early.elim

theorem SavingInvariant.step (invariant : SavingInvariant shared before view)
    (views : config.Views saversOutline (fun _ _ _ _ => True) view) (joins : Joins shared event)
    (unhindered : Unhindered shared config event) (step : saversOutline.Step view event view') :
    SavingInvariant shared before view' := by
  cases step with
  | @start id saving world absent begins =>
    obtain rfl : world = view.world := begins
    apply invariant.put
    · exact .refl invariant.sound
    · exact joins
    · exact furnished_initial saving
    · cases saving <;> trivial
    · intro agent present
      cases absent.symm.trans present
    · intro pdf named stored
      cases saving with
      | artifact => exact .inl rfl
      | mapping =>
        cases shared with
        | directory => exact joins.elim
        | mapping => cases named
  | @kill id agent present alive =>
    apply invariant.put
    · exact .refl invariant.sound
    · exact invariant.concerns id agent present
    · exact invariant.furnished id agent present
    · exact invariant.opened id agent present
    · intro found present'
      cases present.symm.trans present'
      exact ⟨rfl, fun _ given => given⟩
    · exact fun pdf named stored => invariant.checked pdf named stored id agent present
  | @reply id agent call reply phase' world present alive moves served =>
    have furnished := invariant.furnished id agent present
    have concerns := invariant.concerns id agent present
    obtain ⟨tidy, opened⟩ := SavingStep.tidy moves served invariant.sound concerns furnished
      (invariant.opened id agent present) (unhindered.unspoiled views present).1
      fun bundle path data given member => ⟨id, agent, bundle, present, given, member⟩
    apply invariant.put
    · exact tidy
    · exact concerns
    · exact furnished.step moves
    · exact opened
    · intro found present'
      cases present.symm.trans present'
      exact ⟨rfl, fun _ given => given.cons⟩
    · exact fun pdf named stored => .inr (invariant.check present moves served named stored)

/-- A step leaves a PDF that is there as it is. -/
theorem SavingInvariant.keeps_pdf (invariant : SavingInvariant shared before view)
    (views : config.Views saversOutline (fun _ _ _ _ => True) view)
    (unhindered : Unhindered shared config event) (step : saversOutline.Step view event view')
    {pdf : String} (named : pdf ∈ shared.pdf?) {bytes : Bytes}
    (there : view.world.files.read pdf = some bytes) : view'.world.files.read pdf = some bytes := by
  cases step with
  | @start id label world absent begins =>
    obtain rfl : world = view.world := begins
    exact there
  | kill => exact there
  | @reply id agent call reply phase' world present alive moves served =>
    have concerns := invariant.concerns id agent present
    obtain ⟨unspoiled, agreed⟩ := unhindered.unspoiled views present
    refine SavingStep.keeps_pdf moves served invariant.sound concerns (invariant.furnished id agent present)
      (invariant.opened id agent present) unspoiled
      (fun bundle path data given member => ⟨id, agent, bundle, present, given, member⟩) named there ?_
    intro late disturbs data offers
    have unstored : before.read pdf = none := by
      by_contra stored
      rcases invariant.checked pdf named stored id agent present with same | same
      · exact late (same ▸ trivial)
      · rw [same] at moves
        cases moves with
        | early _ _ _ _ _ _ early => exact early
    have target : shared.Target pdf := by
      obtain ⟨id', process', bundle', present', _, member⟩ := offers
      exact ⟨process'.label, bundle', data, invariant.concerns id' process' present', member⟩
    rcases invariant.whole pdf target with unchanged | ⟨bytes', found, offers'⟩
    · cases there.symm.trans (unchanged.trans unstored)
    · obtain rfl := Option.some.inj (found.symm.trans there)
      exact agreed disturbs pdf named data bytes' offers offers'

theorem SavingInvariant.idle {world : World} (sound : world.files.Sound) :
    SavingInvariant shared world.files (.idle world) := by
  constructor
  · exact sound
  · exact fun _ _ present => Config.idle_absent present
  · exact fun _ _ present => Config.idle_absent present
  · exact fun _ _ present => Config.idle_absent present
  · exact fun _ _ => .inl rfl
  · exact fun _ _ _ _ _ present => Config.idle_absent present

/-- What holds from a moment on: the paths are whole, and a PDF that was there has kept its bytes. -/
def SavedSince (shared : Shared) (before since : FileSystem) (view : SavingView) : Prop :=
  SavingInvariant shared before view ∧ ∀ pdf ∈ shared.pdf?, ∀ bytes, since.read pdf = some bytes →
    view.world.files.read pdf = some bytes

theorem SavedSince.step {since : FileSystem} (saved : SavedSince shared before since view)
    (views : config.Views saversOutline (fun _ _ _ _ => True) view) (joins : Joins shared event)
    (unhindered : Unhindered shared config event) (step : saversOutline.Step view event view') :
    SavedSince shared before since view' := by
  obtain ⟨invariant, kept⟩ := saved
  refine ⟨invariant.step views joins unhindered step, fun pdf named bytes there => ?_⟩
  exact invariant.keeps_pdf views unhindered step named (kept pdf named bytes there)

end Run

/-- In every run of calls on the same files in which no call gets in another's way, every path is at
every moment as it was before or holds the complete bytes of one call, and a PDF never changes. -/
theorem targets_whole {shared : Shared} {world : World} {events events' : List SavingEvent}
    {config config' : SavingConfig} (sound : world.files.Sound)
    (run : Path (Guarded savers.Step fun config event => Joins shared event ∧ Unhindered shared config event)
      (.idle world) events config)
    (later : Path (Guarded savers.Step fun config event => Joins shared event ∧ Unhindered shared config event)
      config events' config') :
    (∀ path, shared.Target path → Whole world.files config' path) ∧
      ∀ pdf ∈ shared.pdf?, ∀ bytes, config.world.files.read pdf = some bytes →
        config'.world.files.read pdf = some bytes := by
  obtain ⟨view, views, invariant⟩ := savers_refine.invariant
    (fun _ _ _ _ views allowed step invariant =>
      SavingInvariant.step invariant views allowed.1 allowed.2 step) run (.idle sound)
  have saved : SavedSince shared world.files config.world.files view := by
    rw [views.world]
    exact ⟨invariant, fun _ _ _ there => there⟩
  obtain ⟨view', views', invariant', kept⟩ := savers_refine.invariant_from
    (fun _ _ _ _ views allowed step saved => SavedSince.step saved views allowed.1 allowed.2 step)
    later ⟨view, views, saved⟩
  rw [views'.world]
  refine ⟨fun path target => ?_, kept⟩
  rw [Whole, views'.world]
  rcases invariant'.whole path target with unchanged | ⟨bytes, found, offers⟩
  · exact .inl unchanged
  · exact .inr ⟨bytes, found, offers.behind views'⟩

/-! ### Two handlings at one directory -/

/-- File operations take effect; the choice answers for SEC and the renderer. -/
def saversPlayer : Player savers Outside where
  begin? world _ := some world
  answer outside call world := world.answer outside call
  resumes := rfl
  begins _ _ _ begun := (Option.some.inj begun).symm
  serves outside call world := .inl (World.reliable outside call world)

instance (files : FileSystem) (last : Option Bytes) : (call : Call) → Decidable (Unspoiled files last call) := by
  intro call
  cases call with
  | writeFile => exact inferInstanceAs (Decidable (_ ≤ _))
  | replace => exact inferInstanceAs (Decidable (_ → _))
  | _ => exact .isTrue trivial

instance (shared : Shared) : (event : SavingEvent) → Decidable (Joins shared event)
  | .start _ saving => inferInstanceAs (Decidable (saving.Concerns shared))
  | .reply _ _ _ => .isTrue trivial
  | .kill _ => .isTrue trivial

/-- The call takes part, and the renderer has answered it only such PDFs. -/
def convertsTo (root : String) (test : Bytes → Bool)
    (process : Process calls Saving (Program calls (Except Err Unit))) : Bool :=
  decide (process.label.Concerns (.directory root)) && process.log.all fun answered =>
    match answered with
    | ⟨.convertToPdf _ _ _, .ok pdf⟩ => test pdf
    | _ => true

theorem convertsTo_sound {root : String} {test : Bytes → Bool}
    {process : Process calls Saving (Program calls (Except Err Unit))} (converts : convertsTo root test process = true)
    {bundle : Bundle} (given : process.label.Given process.log bundle) {bytes : Bytes}
    (member : (pdfIn root, bytes) ∈ process.label.files bundle) : test bytes = true := by
  obtain ⟨label, control, log, killed⟩ := process
  obtain ⟨source, pdf⟩ := bundle
  rw [convertsTo, Bool.and_eq_true, decide_eq_true_eq] at converts
  obtain ⟨concerns, answers⟩ := converts
  cases label with
  | mapping => exact concerns.elim
  | artifact obtaining =>
    obtain ⟨stage, listed⟩ := List.mem_iff_getElem?.mp member
    have second : (obtaining.files ⟨source, pdf⟩)[1]? = some (pdfIn root, pdf) := by
      rw [← show obtaining.selection.paths.root = root from concerns]
      exact obtaining.pdf_listed
    obtain rfl := Obtaining.stage_eq listed second
    cases listed.symm.trans second
    obtain ⟨document, _, _, converted⟩ := given
    exact List.all_eq_true.mp answers _ converted

/-- `Unhindered` as a test on the calls below a bound, which were all given the same PDF. -/
def unhinderedBelow (bound : ℕ) (root : String) (pdf : Bytes) (config : SavingConfig) : SavingEvent → Bool
  | .reply id call _ => decide (Unspoiled config.world.files
      ((config.process id).bind fun process => lastWritten process.log) call) &&
        (List.range bound).all fun other => (config.process other).all (convertsTo root (· = pdf))
  | _ => true

theorem unhinderedBelow_sound {bound : ℕ} {root : String} {pdf : Bytes} {config : SavingConfig}
    {event : SavingEvent} (above : ∀ id, bound ≤ id → config.process id = none)
    (unhindered : unhinderedBelow bound root pdf config event = true) :
    Unhindered (.directory root) config event := by
  have same (all : (List.range bound).all (fun other => (config.process other).all (convertsTo root (· = pdf))) =
      true) {bytes : Bytes} (offers : Offers config (pdfIn root) bytes) : bytes = pdf := by
    obtain ⟨id, process, bundle, present, given, member⟩ := offers
    have below : id < bound := by
      by_contra beyond
      cases (above id (Nat.le_of_not_lt beyond)).symm.trans present
    have converts := List.all_eq_true.mp all id (List.mem_range.mpr below)
    rw [present, Option.all_some] at converts
    exact of_decide_eq_true (convertsTo_sound converts given member)
  unfold Unhindered
  split
  · rw [unhinderedBelow, Bool.and_eq_true, decide_eq_true_eq] at unhindered
    refine ⟨unhindered.1, ?_⟩
    rintro _ _ ⟨⟩ bytes bytes' offers offers'
    exact (same unhindered.2 offers).trans (same unhindered.2 offers').symm
  · trivial

/-- The accession directory of the small deployment. -/
def sampleRoot : String := sampleObtaining.selection.paths.root

/-- Both handlings found no PDF, and both have written the temporary PDF in full when the first
publishes it. -/
def overlappingWrites : List (Move Saving Outside) :=
  [.start 0 (.artifact sampleObtaining), .start 1 (.artifact sampleObtaining)] ++
    List.replicate 9 (.serve 0 Sample.outside) ++ List.replicate 9 (.serve 1 Sample.outside) ++
      [.serve 0 Sample.outside]

/-- The second finds nothing left to publish, the first turns to the metadata. -/
def overlappingRenames : List (Move Saving Outside) :=
  [.serve 1 Sample.outside, .serve 0 Sample.outside]

theorem targets_whole_overlapping : ∃ events config events' config',
    Path (Guarded savers.Step fun config event =>
      Joins (.directory sampleRoot) event ∧ Unhindered (.directory sampleRoot) config event)
      (.idle Sample.world) events config ∧
    Path (Guarded savers.Step fun config event =>
      Joins (.directory sampleRoot) event ∧ Unhindered (.directory sampleRoot) config event)
      config events' config' ∧
    config.world.files.read (pdfIn sampleRoot) = some Sample.pdf ∧
    (∀ path, (Shared.directory sampleRoot).Target path → Whole Sample.world.files config' path) ∧
    config'.world.files.read (pdfIn sampleRoot) = some Sample.pdf := by
  have plays : saversPlayer.Plays
      (fun config event => event.id < 2 ∧ Joins (.directory sampleRoot) event ∧
        unhinderedBelow 2 sampleRoot Sample.pdf config event = true)
      (fun config => config.world.files.read (pdfIn sampleRoot) = some Sample.pdf ∧
        saversPlayer.Plays (fun config event => event.id < 2 ∧ Joins (.directory sampleRoot) event ∧
          unhinderedBelow 2 sampleRoot Sample.pdf config event = true)
          (fun _ => True) config overlappingRenames) (.idle Sample.world) overlappingWrites := by
    decide +kernel
  obtain ⟨events, config, run, ⟨stored, plays'⟩, _⟩ := plays.path
  obtain ⟨events', config', later, _, _⟩ := plays'.path
  obtain ⟨run, above⟩ := System.bounded_run_from
    (fun _ _ above guard => And.imp_right (unhinderedBelow_sound above) guard) run fun _ _ => rfl
  obtain ⟨later, _⟩ := System.bounded_run_from
    (fun _ _ above guard => And.imp_right (unhinderedBelow_sound above) guard) later above
  obtain ⟨whole, kept⟩ := targets_whole sample_sound run later
  exact ⟨events, config, events', config', run, later, stored, whole, kept _ rfl _ stored⟩

/-- The first handling publishes what the second has just truncated. -/
def truncatedBeforeRename : List (Move Saving Outside) :=
  [.start 0 (.artifact sampleObtaining), .start 1 (.artifact sampleObtaining)] ++
    List.replicate 9 (.serve 0 Sample.outside) ++ List.replicate 8 (.serve 1 Sample.outside) ++
      [.serve 0 Sample.outside]

/-- Two handlings that both found no PDF publish an empty one. -/
theorem targets_torn : ¬ ∀ events config,
    Path (Guarded savers.Step fun _ event => Joins (.directory sampleRoot) event) (.idle Sample.world)
      events config →
    ∀ path, (Shared.directory sampleRoot).Target path → Whole Sample.world.files config path := by
  intro claimed
  have plays : saversPlayer.Plays (fun config event => Joins (.directory sampleRoot) event)
      (fun config => config.world.files.read (pdfIn sampleRoot) = some [] ∧
        (config.process 0).all (convertsTo sampleRoot (· ≠ [])) = true ∧
        (config.process 1).all (convertsTo sampleRoot (· ≠ [])) = true) (.idle Sample.world)
      truncatedBeforeRename := by
    decide +kernel
  obtain ⟨events, config, run, ⟨torn, first, second⟩, frame⟩ := plays.path
  have target : (Shared.directory sampleRoot).Target (pdfIn sampleRoot) :=
    ⟨.artifact sampleObtaining, ⟨[], []⟩, [], rfl, List.mem_of_getElem? sampleObtaining.pdf_listed⟩
  rcases claimed events config run _ target with unchanged | ⟨bytes, found, id, process, bundle, present, given, member⟩
  · cases torn.symm.trans unchanged
  · cases torn.symm.trans found
    match id with
    | 0 =>
      rw [present, Option.all_some] at first
      exact absurd rfl (of_decide_eq_true (convertsTo_sound first given member))
    | 1 =>
      rw [present, Option.all_some] at second
      exact absurd rfl (of_decide_eq_true (convertsTo_sound second given member))
    | id + 2 =>
      have gone := frame (id + 2) fun move member => by
        simp only [truncatedBeforeRename, List.mem_append, List.mem_cons, List.mem_replicate,
          List.not_mem_nil, or_false] at member
        rcases member with (((rfl | rfl) | ⟨_, rfl⟩) | ⟨_, rfl⟩) | rfl <;> simp only [Move.id] <;> omega
      rw [present] at gone
      cases gone

end Quartr.Soundness
