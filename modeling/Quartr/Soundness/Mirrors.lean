import Quartr.Soundness.Twins

/-! # Two worlds with different files behind the same names

Two worlds may agree on a region although other files were opened in between in the one than in the
other. `FileSystem.Paired` says which file of the one is which of the other: it goes with the names of the
region and with the descriptors that are open there, and neither the calls in the region nor those outside
of it disturb it.
-/

namespace Quartr.Model.FileSystem

/-- Names inside lead to files that belong together and hold the same; these have no names outside. -/
structure Paired (inside : String → Prop) (pairs : ℕ → ℕ → Prop) (files files' : FileSystem) : Prop where
  missing : ∀ path, inside path → (files.file path = none ↔ files'.file path = none)
  named : ∀ path file file', inside path → files.file path = some file → files'.file path = some file' →
    pairs file file'
  content : ∀ file file', pairs file file' → files.content file = files'.content file'
  left : ∀ file file' other, pairs file file' → pairs file other → file' = other
  right : ∀ file file' other, pairs file file' → pairs other file' → file = other
  known : ∀ file file', pairs file file' → file < files.nextFile ∧ file' < files'.nextFile
  private_ : ∀ file file', pairs file file' → ∀ path,
    files.file path = some file ∨ files'.file path = some file' → inside path

variable {inside : String → Prop} {pairs : ℕ → ℕ → Prop} {files files' : FileSystem} {path source target : String}
  {file file' : ℕ} {data : Bytes}

/-- In the beginning every file inside is paired with itself. -/
theorem Sound.paired (sound : files.Sound) (inside : String → Prop) :
    files.Paired inside (fun file file' => file = file' ∧ ∃ path, inside path ∧ files.file path = some file) files := by
  constructor
  · exact fun _ _ => Iff.rfl
  · intro path file file' there found found'
    exact ⟨Option.some.inj (found.symm.trans found'), path, there, found⟩
  · rintro file _ ⟨rfl, _⟩
    rfl
  · rintro file _ _ ⟨rfl, _⟩ ⟨rfl, _⟩
    rfl
  · rintro file _ _ ⟨rfl, _⟩ ⟨rfl, _⟩
    rfl
  · rintro file _ ⟨rfl, path, _, found⟩
    exact ⟨sound.bounded path file found, sound.bounded path file found⟩
  · rintro file _ ⟨rfl, path, there, found⟩ other (found' | found') <;>
      exact sound.apart path other file found found' ▸ there

theorem Paired.symm (paired : files.Paired inside pairs files') : files'.Paired inside (flip pairs) files := by
  constructor
  · exact fun path there => (paired.missing path there).symm
  · exact fun path file file' there found found' => paired.named path file' file there found' found
  · exact fun file file' both => (paired.content file' file both).symm
  · exact fun file file' other both both' => paired.right file' file other both both'
  · exact fun file file' other both both' => paired.left file' file other both both'
  · exact fun file file' both => (paired.known file' file both).symm
  · exact fun file file' both path found => paired.private_ file' file both path found.symm

theorem Paired.read (paired : files.Paired inside pairs files') (there : inside path) :
    files.read path = files'.read path := by
  unfold FileSystem.read
  cases found : files.file path with
  | none => rw [(paired.missing path there).mp found, Option.map_none, Option.map_none]
  | some file =>
    cases found' : files'.file path with
    | none => cases found.symm.trans ((paired.missing path there).mpr found')
    | some file' =>
      rw [Option.map_some, Option.map_some, paired.content file file' (paired.named path file file' there found found')]

/-- Two files that belong together change together. -/
theorem Paired.update (paired : files.Paired inside pairs files') (both : pairs file file') (bytes : Bytes) :
    { files with content := Function.update files.content file bytes }.Paired inside pairs
      { files' with content := Function.update files'.content file' bytes } := by
  refine ⟨paired.missing, paired.named, ?_, paired.left, paired.right, paired.known, paired.private_⟩
  intro other other' also
  by_cases same : other = file
  · subst same
    obtain rfl := paired.left _ _ _ both also
    simp only [Function.update_self]
  · have apart : other' ≠ file' := by
      rintro rfl
      exact same (paired.right _ _ _ both also).symm
    simp only [Function.update_of_ne same, Function.update_of_ne apart]
    exact paired.content other other' also

theorem Paired.write (paired : files.Paired inside pairs files') (both : pairs file file') :
    (files.write file data).Paired inside pairs (files'.write file' data) := by
  unfold FileSystem.write
  rw [paired.content file file' both]
  exact paired.update both _

/-- A new name inside leads to two new files. -/
theorem Paired.create (paired : files.Paired inside pairs files') (sound : files.Sound) (sound' : files'.Sound)
    (there : inside path) (missing : files.file path = none) :
    (files.openTruncate path).Paired inside
      (fun file file' => pairs file file' ∨ file = files.nextFile ∧ file' = files'.nextFile)
      (files'.openTruncate path) := by
  have missing' := (paired.missing path there).mp missing
  unfold FileSystem.openTruncate
  rw [missing, missing']
  constructor
  · intro other inner
    dsimp only
    by_cases same : other = path
    · rw [same, Function.update_self, Function.update_self]
      simp only [reduceCtorEq]
    · rw [Function.update_of_ne same, Function.update_of_ne same]
      exact paired.missing other inner
  · intro other file file' inner found found'
    dsimp only at found found'
    by_cases same : other = path
    · rw [same, Function.update_self, Option.some.injEq] at found found'
      exact .inr ⟨found.symm, found'.symm⟩
    · rw [Function.update_of_ne same] at found found'
      exact .inl (paired.named other file file' inner found found')
  · rintro file file' (both | ⟨rfl, rfl⟩)
    · have known := paired.known file file' both
      dsimp only
      rw [Function.update_of_ne (by omega), Function.update_of_ne (by omega)]
      exact paired.content file file' both
    · simp only [Function.update_self]
  · rintro file file' other (both | ⟨rfl, rfl⟩) (both' | ⟨same, rfl⟩)
    · exact paired.left file file' other both both'
    · have known := paired.known file file' both
      omega
    · have known := paired.known _ other both'
      omega
    · rfl
  · rintro file file' other (both | ⟨rfl, rfl⟩) (both' | ⟨rfl, same⟩)
    · exact paired.right file file' other both both'
    · have known := paired.known file file' both
      omega
    · have known := paired.known other _ both'
      omega
    · rfl
  · rintro file file' (both | ⟨rfl, rfl⟩)
    · have known := paired.known file file' both
      exact ⟨Nat.lt_succ_of_lt known.1, Nat.lt_succ_of_lt known.2⟩
    · exact ⟨Nat.lt_succ_self _, Nat.lt_succ_self _⟩
  · intro file file' both other found
    dsimp only at found
    by_cases same : other = path
    · exact same ▸ there
    rw [Function.update_of_ne same, Function.update_of_ne same] at found
    rcases both with both | ⟨rfl, rfl⟩
    · exact paired.private_ file file' both other found
    · rcases found with found | found
      · exact absurd (sound.bounded other _ found) (Nat.lt_irrefl _)
      · exact absurd (sound'.bounded other _ found) (Nat.lt_irrefl _)

/-- Opening a name inside keeps the pairs, and the two descriptors are one. -/
theorem Paired.openTruncate (paired : files.Paired inside pairs files') (sound : files.Sound)
    (sound' : files'.Sound) (there : inside path) :
    ∃ pairs' : ℕ → ℕ → Prop, (∀ file file', pairs file file' → pairs' file file') ∧
      (files.openTruncate path).Paired inside pairs' (files'.openTruncate path) ∧
      pairs' (files.descriptor path) (files'.descriptor path) := by
  cases found : files.file path with
  | none =>
    have missing' := (paired.missing path there).mp found
    refine ⟨_, fun file file' both => .inl both, paired.create sound sound' there found, .inr ⟨?_, ?_⟩⟩
    · rw [FileSystem.descriptor, found, Option.getD_none]
    · rw [FileSystem.descriptor, missing', Option.getD_none]
  | some file =>
    obtain ⟨file', found'⟩ := Option.ne_none_iff_exists'.mp fun missing =>
      Option.some_ne_none file (found.symm.trans ((paired.missing path there).mpr missing))
    have both := paired.named path file file' there found found'
    refine ⟨pairs, fun _ _ both => both, ?_, ?_⟩
    · unfold FileSystem.openTruncate
      rw [found, found']
      exact paired.update both []
    · rw [FileSystem.descriptor, FileSystem.descriptor, found, found']
      exact both

theorem Paired.replace (paired : files.Paired inside pairs files') (there : inside source) (goal : inside target) :
    (files.replace source target).Paired inside pairs (files'.replace source target) := by
  unfold FileSystem.replace
  cases found : files.file source with
  | none =>
    rw [(paired.missing source there).mp found]
    exact paired
  | some file =>
    obtain ⟨file', found'⟩ := Option.ne_none_iff_exists'.mp fun missing =>
      Option.some_ne_none file (found.symm.trans ((paired.missing source there).mpr missing))
    have both := paired.named source file file' there found found'
    rw [found']
    refine ⟨?_, ?_, paired.content, paired.left, paired.right, paired.known, ?_⟩
    · intro path inner
      dsimp only
      by_cases final : path = target
      · rw [final, Function.update_self, Function.update_self]
        simp only [reduceCtorEq]
      rw [Function.update_of_ne final, Function.update_of_ne final]
      by_cases gone : path = source
      · rw [gone, Function.update_self, Function.update_self]
      · rw [Function.update_of_ne gone, Function.update_of_ne gone]
        exact paired.missing path inner
    · intro path other other' inner present present'
      dsimp only at present present'
      by_cases final : path = target
      · rw [final, Function.update_self, Option.some.injEq] at present present'
        exact present ▸ present' ▸ both
      rw [Function.update_of_ne final] at present present'
      by_cases gone : path = source
      · rw [gone, Function.update_self] at present
        cases present
      · rw [Function.update_of_ne gone] at present present'
        exact paired.named path other other' inner present present'
    · intro other other' also path present
      dsimp only at present
      by_cases final : path = target
      · exact final ▸ goal
      rw [Function.update_of_ne final, Function.update_of_ne final] at present
      by_cases gone : path = source
      · exact gone ▸ there
      · rw [Function.update_of_ne gone, Function.update_of_ne gone] at present
        exact paired.private_ other other' also path present

/-! ### Files outside -/

/-- A file that has a name outside may change. -/
theorem Paired.update_outside (paired : files.Paired inside pairs files') (elsewhere : ¬ inside path)
    (found : files'.file path = some file') (bytes : Bytes) :
    files.Paired inside pairs { files' with content := Function.update files'.content file' bytes } := by
  refine ⟨paired.missing, paired.named, ?_, paired.left, paired.right, paired.known, paired.private_⟩
  intro other other' both
  have apart : other' ≠ file' := by
    rintro rfl
    exact elsewhere (paired.private_ other _ both path (.inr found))
  dsimp only
  rw [Function.update_of_ne apart]
  exact paired.content other other' both

theorem Paired.openTruncate_outside (paired : files.Paired inside pairs files') (elsewhere : ¬ inside path) :
    files.Paired inside pairs (files'.openTruncate path) := by
  cases found : files'.file path with
  | some file' =>
    unfold FileSystem.openTruncate
    rw [found]
    exact paired.update_outside elsewhere found []
  | none =>
    have apart : ∀ name, inside name → name ≠ path := by
      rintro name inner rfl
      exact elsewhere inner
    unfold FileSystem.openTruncate
    rw [found]
    refine ⟨?_, ?_, ?_, paired.left, paired.right, ?_, ?_⟩
    · intro name inner
      dsimp only
      rw [Function.update_of_ne (apart name inner)]
      exact paired.missing name inner
    · intro name file file' inner present present'
      dsimp only at present'
      rw [Function.update_of_ne (apart name inner)] at present'
      exact paired.named name file file' inner present present'
    · intro file file' both
      have known := paired.known file file' both
      dsimp only
      rw [Function.update_of_ne (by omega)]
      exact paired.content file file' both
    · intro file file' both
      have known := paired.known file file' both
      exact ⟨known.1, Nat.lt_succ_of_lt known.2⟩
    · rintro file file' both name (present | present)
      · exact paired.private_ file file' both name (.inl present)
      · dsimp only at present
        by_cases same : name = path
        · rw [same, Function.update_self, Option.some.injEq] at present
          have known := paired.known file file' both
          omega
        · rw [Function.update_of_ne same] at present
          exact paired.private_ file file' both name (.inr present)

theorem Paired.replace_outside (paired : files.Paired inside pairs files') (elsewhere : ¬ inside source)
    (elsewhere' : ¬ inside target) : files.Paired inside pairs (files'.replace source target) := by
  have apart : ∀ name, inside name → name ≠ source ∧ name ≠ target := by
    intro name inner
    constructor
    · rintro rfl
      exact elsewhere inner
    · rintro rfl
      exact elsewhere' inner
  unfold FileSystem.replace
  cases found : files'.file source with
  | none => exact paired
  | some moved =>
    refine ⟨?_, ?_, paired.content, paired.left, paired.right, paired.known, ?_⟩
    · intro name inner
      dsimp only
      rw [Function.update_of_ne (apart name inner).2, Function.update_of_ne (apart name inner).1]
      exact paired.missing name inner
    · intro name file file' inner present present'
      dsimp only at present'
      rw [Function.update_of_ne (apart name inner).2, Function.update_of_ne (apart name inner).1] at present'
      exact paired.named name file file' inner present present'
    · rintro file file' both name (present | present)
      · exact paired.private_ file file' both name (.inl present)
      · dsimp only at present
        by_cases final : name = target
        · rw [final, Function.update_self, Option.some.injEq] at present
          subst present
          exact absurd (paired.private_ file moved both source (.inr found)) elsewhere
        rw [Function.update_of_ne final] at present
        by_cases gone : name = source
        · rw [gone, Function.update_self] at present
          cases present
        · rw [Function.update_of_ne gone] at present
          exact paired.private_ file file' both name (.inr present)

end Quartr.Model.FileSystem

namespace Quartr.Soundness

open Quartr.Machine Quartr.Model

variable {α : Type} {region mine : Region} {capacity : ℕ} {pairs : ℕ → ℕ → Prop}

/-- The worlds are equal on the region, with these pairs of files. -/
structure Region.Mirrors (region : Region) (pairs : ℕ → ℕ → Prop) (world world' : World) : Prop where
  same : region.SameOn world world'
  files : world.files.Paired region.file pairs world'.files
  sane : region.Sane world
  sane' : region.Sane world'
  owns : region.Owns world'

namespace Region.Mirrors

variable {world world' : World} {call call' : Call}

theorem symm (mirrors : region.Mirrors pairs world world') : region.Mirrors (flip pairs) world' world :=
  ⟨mirrors.same.symm, mirrors.files.symm, mirrors.sane', mirrors.sane, mirrors.owns.same mirrors.same.symm⟩

/-- A write to a file of a pair reaches no name outside. -/
theorem write_elsewhere {file file' : ℕ} (mirrors : region.Mirrors pairs world world') (both : pairs file file')
    (data : Bytes) : region.Elsewhere world' (world'.after (.writeFile file' data)) :=
  Region.elsewhere_write (fun path found => mirrors.files.private_ file file' both path (.inr found)) mirrors.sane' data

/-- A matching pair of calls keeps the worlds equal on the region, and changes nothing outside. -/
theorem effect (mirrors : region.Mirrors pairs world world') (matching : Matching region pairs call call') :
    ∃ pairs' : ℕ → ℕ → Prop, (∀ file file', pairs file file' → pairs' file file') ∧
      region.Mirrors pairs' (world.after call) (world'.after call') ∧
      (region.Elsewhere world (world.after call) ∧ region.Elsewhere world' (world'.after call')) ∧
      ∀ path, call = .openTruncate path → pairs' (world.files.descriptor path) (world'.files.descriptor path) := by
  obtain ⟨same, files, sane, sane', owns⟩ := mirrors
  cases matching with
  | @within call inside =>
    have paired : (world.after call).files.Paired region.file pairs (world'.after call).files := by
      rw [World.after_files, World.after_files]
      cases call with
      | replace source target => exact files.replace inside.1 inside.2.1
      | openTruncate => exact inside.elim
      | writeFile => exact inside.elim
      | _ => exact files
    have here := inside.elsewhere sane
    have there := inside.elsewhere sane'
    refine ⟨pairs, fun _ _ both => both,
      ⟨same.after sane sane' inside, paired, here.sane, there.sane, owns.after inside⟩, ⟨here, there⟩, ?_⟩
    rintro path rfl
    exact inside.elim
  | depth => exact ⟨pairs, fun _ _ both => both, ⟨same, files, sane, sane', owns⟩, ⟨.refl sane, .refl sane'⟩, nofun⟩
  | @store path inside =>
    obtain ⟨pairs', more, paired, opened⟩ := files.openTruncate sane.sound sane'.sound inside
    have here := Region.elsewhere_openTruncate inside sane
    have there := Region.elsewhere_openTruncate inside sane'
    refine ⟨pairs', more, ⟨same.openTruncate sane.sound sane'.sound path, paired, here.sane, there.sane, owns⟩,
      ⟨here, there⟩, ?_⟩
    rintro _ ⟨⟩
    exact opened
  | @write file file' both data =>
    have paired := @FileSystem.Paired.write _ _ _ _ file file' data files both
    have mirrors : region.Mirrors pairs world world' := ⟨same, files, sane, sane', owns⟩
    have here := mirrors.symm.write_elsewhere both data
    have there := mirrors.write_elsewhere both data
    refine ⟨pairs, fun _ _ both => both, ⟨⟨same.tasks, same.pending, same.logical, same.slots, same.stream, ?_⟩, paired,
      here.sane, there.sane, owns⟩, ⟨here, there⟩, nofun⟩
    exact fun path inside => paired.read inside

/-- A matching pair of calls is replied to alike. -/
theorem served (mirrors : region.Mirrors pairs world world') (matching : Matching region pairs call call')
    (outside : Outside) (outcome : CallOutcome) (roomy : call.asksDepth = true → world.depth < capacity)
    (roomy' : call'.asksDepth = true → world'.depth < capacity) :
    ∃ pairs' : ℕ → ℕ → Prop, (∀ file file', pairs file file' → pairs' file file') ∧
      region.Mirrors pairs' (world.answerAs outside outcome call).2 (world'.answerAs outside outcome call').2 ∧
      (region.Elsewhere world (world.answerAs outside outcome call).2 ∧
        region.Elsewhere world' (world'.answerAs outside outcome call').2) ∧
      Replied region capacity pairs' call call' (world.answerAs outside outcome call).1
        (world'.answerAs outside outcome call').1 := by
  obtain ⟨pairs', more, after, elsewhere, opened⟩ := mirrors.effect matching
  cases outcome with
  | answered =>
    refine ⟨pairs', more, after, elsewhere, ?_⟩
    show Replied _ _ _ _ _ (world.reply outside call) (world'.reply outside call')
    cases matching with
    | within inside =>
      rw [mirrors.same.reply inside]
      exact .within inside (mirrors.owns.reply inside outside)
    | depth => exact .depth (roomy rfl) (roomy' rfl)
    | store inside => exact .store (opened _ rfl)
    | write both data => exact .write ..
  | raised error effective =>
    cases effective with
    | false =>
      exact ⟨pairs, fun _ _ both => both, mirrors, ⟨.refl mirrors.sane, .refl mirrors.sane'⟩, .raised ..⟩
    | true => exact ⟨pairs', more, after, elsewhere, .raised ..⟩

/-- What is done in one of the worlds outside the region does not matter. -/
theorem aside {program : Program calls α} {world'' : World} {next' : calls.Reply call' → Program calls α}
    (mirrors : mine.compl.Mirrors pairs world world')
    (alongside : Alongside mine capacity program world'' (.await call' next') world') (outside : Outside)
    (outcome : CallOutcome) :
    mine.compl.Mirrors pairs world (world'.answerAs outside outcome call').2 := by
  have elsewhere := alongside.elsewhere outside outcome
  refine ⟨mirrors.same.trans elsewhere.same, ?_, mirrors.sane, ⟨elsewhere.sane.sound, elsewhere.sane.grown⟩,
    mirrors.owns.same elsewhere.same⟩
  have paired : world.files.Paired mine.compl.file pairs (world'.after call').files := by
    obtain ⟨call, next, _, matching, _⟩ := alongside.twins.step
    cases matching with
    | within inside =>
      rw [World.after_files]
      cases call' with
      | replace source target =>
        exact mirrors.files.replace_outside (not_not_intro inside.1) (not_not_intro inside.2.1)
      | openTruncate => exact inside.elim
      | writeFile => exact inside.elim
      | _ => exact mirrors.files
    | depth => exact mirrors.files
    | store inside => exact mirrors.files.openTruncate_outside (not_not_intro inside)
    | write both data =>
      obtain ⟨path, inside, _, found⟩ := both
      exact mirrors.files.update_outside (not_not_intro inside) found _
  rw [World.answerAs_world]
  split
  · exact paired
  · exact mirrors.files

end Region.Mirrors

/-- In the beginning a world mirrors itself. -/
theorem Region.Sane.mirrors {world : World} (sane : region.Sane world) (owns : region.Owns world) :
    region.Mirrors (fun file file' => file = file' ∧ ∃ path, region.file path ∧ world.files.file path = some file)
      world world :=
  ⟨.refl _ world, sane.sound.paired region.file, sane, sane, owns⟩

end Quartr.Soundness
