import Mathlib.Logic.Function.Basic
import Mathlib.Tactic.SplitIfs
import Quartr.Model.World

/-! # Names and bytes

Every name has a file of its own, so opening, writing and renaming one name leaves the bytes under
every other name as they are.
-/

namespace Quartr.Model.FileSystem

/-- Names refer to files that exist, each to its own. -/
structure Sound (files : FileSystem) : Prop where
  bounded : ∀ path file, files.file path = some file → file < files.nextFile
  apart : ∀ path path' file, files.file path = some file → files.file path' = some file → path = path'

variable {files : FileSystem} {path opened source target : String} {file : ℕ} {data : Bytes}

theorem read_none : files.read path = none ↔ files.file path = none := Option.map_eq_none_iff

/-! ### Opening for writing -/

theorem openTruncate_opened : (files.openTruncate opened).file opened = some (files.descriptor opened) := by
  unfold openTruncate descriptor
  split
  · rename_i file found
    rw [found]
    rfl
  · rename_i missing
    rw [missing]
    exact Function.update_self ..

theorem openTruncate_emptied : (files.openTruncate opened).content (files.descriptor opened) = [] := by
  unfold openTruncate descriptor
  split
  · rename_i file found
    rw [found]
    exact Function.update_self ..
  · rename_i missing
    rw [missing]
    exact Function.update_self ..

theorem read_opened : (files.openTruncate opened).read opened = some [] := by
  unfold read
  rw [openTruncate_opened, Option.map_some, openTruncate_emptied]

theorem openTruncate_other (other : path ≠ opened) :
    (files.openTruncate opened).file path = files.file path := by
  unfold openTruncate
  split
  · rfl
  · exact Function.update_of_ne other ..

theorem Sound.openTruncate (sound : files.Sound) : (files.openTruncate opened).Sound := by
  unfold FileSystem.openTruncate
  split
  · exact ⟨sound.bounded, sound.apart⟩
  · -- The new file is beyond those that other names lead to.
    have known : ∀ path file, path ≠ opened →
        Function.update files.file opened (some files.nextFile) path = some file →
        files.file path = some file ∧ file < files.nextFile := by
      intro path file other found
      rw [Function.update_of_ne other] at found
      exact ⟨found, sound.bounded path file found⟩
    have new : ∀ file, Function.update files.file opened (some files.nextFile) opened = some file →
        file = files.nextFile := by
      intro file found
      rw [Function.update_self] at found
      exact (Option.some.inj found).symm
    constructor
    · intro path file found
      by_cases same : path = opened
      · subst same
        have last := new file found
        show file < files.nextFile + 1
        omega
      · have inside := (known path file same found).2
        show file < files.nextFile + 1
        omega
    · intro path path' file found found'
      by_cases same : path = opened
      · subst same
        by_cases same' : path' = path
        · exact same'.symm
        · have inside := (known path' file same' found').2
          have last := new file found
          omega
      · by_cases same' : path' = opened
        · subst same'
          have inside := (known path file same found).2
          have last := new file found'
          omega
        · exact sound.apart path path' file (known path file same found).1 (known path' file same' found').1

/-- The bytes under another name. -/
theorem Sound.read_openTruncate (sound : files.Sound) (other : path ≠ opened) :
    (files.openTruncate opened).read path = files.read path := by
  unfold read
  rw [openTruncate_other other]
  cases found : files.file path with
  | none => rfl
  | some file =>
    refine congrArg some ?_
    unfold FileSystem.openTruncate
    split
    · rename_i file' found'
      refine Function.update_of_ne ?_ ..
      rintro rfl
      exact other (sound.apart path opened file found found')
    · refine Function.update_of_ne ?_ ..
      have inside := sound.bounded path file found
      omega

/-! ### Writing -/

theorem Sound.write (sound : files.Sound) : (files.write file data).Sound :=
  ⟨sound.bounded, sound.apart⟩

theorem read_write_other (unnamed : files.file path ≠ some file) :
    (files.write file data).read path = files.read path := by
  unfold read
  change (files.file path).map _ = _
  cases found : files.file path with
  | none => rfl
  | some file' =>
    refine congrArg some (Function.update_of_ne ?_ ..)
    rintro rfl
    exact unnamed found

theorem Sound.read_write (sound : files.Sound) (named : files.file opened = some file)
    (other : path ≠ opened) : (files.write file data).read path = files.read path := by
  apply read_write_other
  intro found
  exact other (sound.apart path opened file found named)

/-- Bytes that are no shorter than what they replace are what the file then holds. -/
theorem read_covered (named : files.file opened = some file)
    (covers : (files.content file).length ≤ data.length) : (files.write file data).read opened = some data := by
  unfold read
  change (files.file opened).map _ = _
  rw [named, Option.map_some]
  refine congrArg some ((Function.update_self ..).trans ?_)
  rw [List.drop_eq_nil_of_le covers, List.append_nil]

/-- What is written to an empty file is what the file holds. -/
theorem read_written (named : files.file opened = some file) (emptied : files.content file = []) :
    (files.write file data).read opened = some data := by
  apply read_covered named
  rw [emptied]
  exact Nat.zero_le _

/-! ### Renaming -/

theorem Sound.replace (sound : files.Sound) (differs : source ≠ target) :
    (files.replace source target).Sound := by
  unfold FileSystem.replace
  split
  · exact sound
  · rename_i moved found
    -- Where a name leads afterwards, it led before, from its old name in the case of the target.
    have before : ∀ path file,
        Function.update (Function.update files.file source none) target (some moved) path = some file →
        files.file (if path = target then source else path) = some file ∧ path ≠ source := by
      intro path file present
      by_cases same : path = target
      · subst same
        rw [Function.update_self, Option.some.injEq] at present
        rw [if_pos rfl, found, present]
        exact ⟨rfl, Ne.symm differs⟩
      · rw [Function.update_of_ne same] at present
        by_cases gone : path = source
        · subst gone
          rw [Function.update_self] at present
          cases present
        · rw [Function.update_of_ne gone] at present
          rw [if_neg same]
          exact ⟨present, gone⟩
    constructor
    · intro path file present
      exact sound.bounded _ file (before path file present).1
    · intro path path' file present present'
      obtain ⟨there, kept⟩ := before path file present
      obtain ⟨there', kept'⟩ := before path' file present'
      have same := sound.apart _ _ file there there'
      split_ifs at same with final final'
      · rw [final, final']
      · exact absurd same.symm kept'
      · exact absurd same kept
      · exact same

theorem read_replaced (present : files.file source ≠ none) :
    (files.replace source target).read target = files.read source := by
  obtain ⟨moved, found⟩ := Option.ne_none_iff_exists'.mp present
  unfold read replace
  rw [found]
  dsimp only
  rw [Function.update_self]

theorem replace_missing (missing : files.file source = none) : files.replace source target = files := by
  unfold replace
  rw [missing]

/-- The old name leads nowhere. -/
theorem read_moved (differs : source ≠ target) : (files.replace source target).read source = none := by
  cases found : files.file source with
  | none => rw [replace_missing found, read_none, found]
  | some moved =>
    unfold read replace
    rw [found]
    dsimp only
    rw [Function.update_of_ne differs, Function.update_self]
    rfl

theorem read_replace (other : path ≠ source) (kept : path ≠ target) :
    (files.replace source target).read path = files.read path := by
  unfold read replace
  split
  · rfl
  · dsimp only
    rw [Function.update_of_ne kept, Function.update_of_ne other]

theorem replace_other (other : path ≠ source) (kept : path ≠ target) :
    (files.replace source target).file path = files.file path := by
  unfold replace
  split
  · rfl
  · dsimp only
    rw [Function.update_of_ne kept, Function.update_of_ne other]

/-! ### What there is to read afterwards -/

theorem Sound.read_openTruncate_eq (sound : files.Sound) :
    (files.openTruncate opened).read path = if path = opened then some [] else files.read path := by
  split_ifs with same
  · rw [same, read_opened]
  · exact sound.read_openTruncate same

theorem Sound.read_write_eq (sound : files.Sound) (named : files.file opened = some file) :
    (files.write file data).read path =
      if path = opened then (files.read opened).map fun old => data ++ old.drop data.length
      else files.read path := by
  split_ifs with same
  · subst same
    unfold read
    change (files.file path).map _ = _
    rw [named, Option.map_some, Option.map_some, Option.map_some]
    exact congrArg some (Function.update_self ..)
  · exact sound.read_write named same

theorem read_replace_eq (differs : source ≠ target) :
    (files.replace source target).read path =
      if files.read source = none then files.read path
      else if path = target then files.read source
      else if path = source then none
      else files.read path := by
  split_ifs with missing final gone
  · rw [replace_missing (read_none.mp missing)]
  · rw [final, read_replaced fun absent => missing (read_none.mpr absent)]
  · rw [gone, read_moved differs]
  · exact read_replace gone final

/-! ### The names of a file -/

/-- Every name the file has is the path or its temporary name. -/
structure Homed (files : FileSystem) (tmp path : String) (file : ℕ) : Prop where
  bounded : file < files.nextFile
  names : ∀ name, files.file name = some file → name = tmp ∨ name = path

section Homed

variable {tmp : String}

theorem Sound.homed (sound : files.Sound) :
    (files.openTruncate tmp).Homed tmp path (files.descriptor tmp) := by
  constructor
  · exact sound.openTruncate.bounded tmp _ openTruncate_opened
  · intro name found
    exact .inl (sound.openTruncate.apart name tmp _ found openTruncate_opened)

theorem Homed.openTruncate (homed : files.Homed tmp path file) :
    (files.openTruncate opened).Homed tmp path file := by
  have bounded := homed.bounded
  unfold FileSystem.openTruncate
  split
  · exact ⟨bounded, homed.names⟩
  · constructor
    · show file < files.nextFile + 1
      omega
    · intro name found
      dsimp only at found
      by_cases new : name = opened
      · subst new
        rw [Function.update_self, Option.some.injEq] at found
        omega
      · rw [Function.update_of_ne new] at found
        exact homed.names name found

theorem Homed.write (homed : files.Homed tmp path file) {file' : ℕ} :
    (files.write file' data).Homed tmp path file :=
  ⟨homed.bounded, homed.names⟩

/-- A rename from the temporary name goes to the path, and no rename starts at the path. -/
theorem Homed.replace (homed : files.Homed tmp path file) (moves : source = tmp → target = path)
    (other : source ≠ path) : (files.replace source target).Homed tmp path file := by
  unfold FileSystem.replace
  split
  · exact homed
  · rename_i moved found
    refine ⟨homed.bounded, fun name present => ?_⟩
    dsimp only at present
    by_cases new : name = target
    · subst new
      rw [Function.update_self, Option.some.injEq] at present
      rcases homed.names source (present ▸ found) with same | same
      · exact .inr (moves same)
      · exact absurd same other
    · rw [Function.update_of_ne new] at present
      by_cases gone : name = source
      · subst gone
        rw [Function.update_self] at present
        cases present
      · rw [Function.update_of_ne gone] at present
        exact homed.names name present

end Homed

end Quartr.Model.FileSystem
