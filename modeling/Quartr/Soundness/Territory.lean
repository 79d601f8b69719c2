import Quartr.Soundness.Confinement
import Quartr.Soundness.Files

/-! # The part of the world that is one task's

A handling reads and writes the record of its task, the store keys of its ticker, the entries it enqueues
and the files below its ticker's directory. What happens within a region depends on the region alone, and
leaves everything outside of it as it was; the regions of two tickers have nothing in common.
-/

namespace Quartr.Soundness

open Quartr.Model

/-- A part of the world: records, store keys, stream entries and files. Of the entries that were found on
the stream it has some by their positions, of those added since the ones that look so. `about` says which
records are in their places. -/
structure Region where
  record : TaskId → Prop
  pending : String → Prop
  logical : String → Prop
  slot : ℕ → Prop
  entry : Entry → Prop
  file : String → Prop
  found : ℕ
  about : TaskId → ReportTask → Prop

namespace Region

/-- Everything but the region. -/
def compl (region : Region) : Region where
  record taskId := ¬ region.record taskId
  pending key := ¬ region.pending key
  logical key := ¬ region.logical key
  slot position := ¬ region.slot position
  entry entry := ¬ region.entry entry
  file path := ¬ region.file path
  found := region.found
  about := region.about

/-- Everything but these regions. -/
def rest {Party : Type} (found : ℕ) (regions : Party → Region) : Region where
  record taskId := ∀ party, ¬ (regions party).record taskId
  pending key := ∀ party, ¬ (regions party).pending key
  logical key := ∀ party, ¬ (regions party).logical key
  slot position := ∀ party, ¬ (regions party).slot position
  entry entry := ∀ party, ¬ (regions party).entry entry
  file path := ∀ party, ¬ (regions party).file path
  found := found
  about _ _ := True

/-- One region lies in another. -/
structure Inside (region region' : Region) : Prop where
  record : ∀ taskId, region.record taskId → region'.record taskId
  pending : ∀ key, region.pending key → region'.pending key
  logical : ∀ key, region.logical key → region'.logical key
  slot : ∀ position, region.slot position → region'.slot position
  entry : ∀ entry, region.entry entry → region'.entry entry
  file : ∀ path, region.file path → region'.file path
  found : region.found = region'.found

theorem rest_inside {Party : Type} {found : ℕ} (regions : Party → Region) (party : Party)
    (start : found = (regions party).found) : (rest found regions).Inside (regions party).compl :=
  ⟨fun _ outside => outside party, fun _ outside => outside party, fun _ outside => outside party,
    fun _ outside => outside party, fun _ outside => outside party, fun _ outside => outside party, start⟩

/-- Every file has one name, and no entry has got lost. -/
structure Sane (region : Region) (world : World) : Prop where
  sound : world.files.Sound
  grown : region.found ≤ world.stream.length

/-- The records of the region are in their places. -/
def Owns (region : Region) (world : World) : Prop :=
  ∀ taskId, region.record taskId → ∀ task, world.tasks taskId = some task → region.about taskId task

/-- Two worlds do not differ in a region: the entries that were found are the same, as many have been added,
in whatever order, and every file has the same bytes. -/
structure SameOn (region : Region) (world world' : World) : Prop where
  tasks : ∀ taskId, region.record taskId → world.tasks taskId = world'.tasks taskId
  pending : ∀ key, region.pending key → world.pending key = world'.pending key
  logical : ∀ key, region.logical key → world.logical key = world'.logical key
  slots : ∀ position < region.found, region.slot position → world.stream[position]? = world'.stream[position]?
  stream : ∀ entry, region.entry entry →
    (world.stream.drop region.found).count entry = (world'.stream.drop region.found).count entry
  files : ∀ path, region.file path → world.files.read path = world'.files.read path

/-- A call that reads and writes in the region only. Asking for the depth, opening and writing are
considered on their own. -/
def Within (region : Region) : Call → Prop
  | .getPending key => region.pending key
  | .deletePending key => region.pending key
  | .hgetallLogical key => region.logical key
  | .hsetLogical key _ => region.logical key
  | .getTask taskId => region.record taskId
  | .setTask task => region.record task.taskId ∧ region.about task.taskId task
  | .xadd taskId => region.entry (Entry.new taskId)
  | .xack entry => entry < region.found ∧ region.slot entry
  | .xdel entry => entry < region.found ∧ region.slot entry
  | .pathExists path => region.file path
  | .replace source target => region.file source ∧ region.file target ∧ source ≠ target
  | .makedirs _ => True
  | .getSubmissions _ => True
  | .downloadDocument _ => True
  | .convertToPdf _ _ _ => True
  | _ => False

/-- A record that is read is in its place. -/
def Trusts (region : Region) : (call : Call) → calls.Reply call → Prop
  | .getTask taskId, .ok (some task) => region.about taskId task
  | _, _ => True

variable {region region' : Region} {world world' world'' : World} {call : Call}

theorem SameOn.refl (region : Region) (world : World) : region.SameOn world world :=
  ⟨fun _ _ => rfl, fun _ _ => rfl, fun _ _ => rfl, fun _ _ _ => rfl, fun _ _ => rfl, fun _ _ => rfl⟩

theorem SameOn.symm (same : region.SameOn world world') : region.SameOn world' world :=
  ⟨fun taskId inside => (same.tasks taskId inside).symm, fun key inside => (same.pending key inside).symm,
    fun key inside => (same.logical key inside).symm, fun position old inside => (same.slots position old inside).symm,
    fun entry inside => (same.stream entry inside).symm, fun path inside => (same.files path inside).symm⟩

theorem SameOn.trans (same : region.SameOn world world') (same' : region.SameOn world' world'') :
    region.SameOn world world'' :=
  ⟨fun taskId inside => (same.tasks taskId inside).trans (same'.tasks taskId inside),
    fun key inside => (same.pending key inside).trans (same'.pending key inside),
    fun key inside => (same.logical key inside).trans (same'.logical key inside),
    fun position old inside => (same.slots position old inside).trans (same'.slots position old inside),
    fun entry inside => (same.stream entry inside).trans (same'.stream entry inside),
    fun path inside => (same.files path inside).trans (same'.files path inside)⟩

theorem SameOn.mono (same : region'.SameOn world world') (inside : region.Inside region') :
    region.SameOn world world' :=
  ⟨fun taskId within => same.tasks taskId (inside.record taskId within),
    fun key within => same.pending key (inside.pending key within),
    fun key within => same.logical key (inside.logical key within),
    fun position old within => same.slots position (inside.found ▸ old) (inside.slot position within),
    fun entry within => by rw [inside.found]; exact same.stream entry (inside.entry entry within),
    fun path within => same.files path (inside.file path within)⟩

theorem Owns.same (owns : region.Owns world) (same : region.SameOn world world') : region.Owns world' :=
  fun taskId inside task present => owns taskId inside task ((same.tasks taskId inside).trans present)

/-! ### Within the region -/

/-- An acknowledgement or a removal of an entry that was found. -/
theorem drop_modify {α : Type} {position found : ℕ} (old : position < found) (change : α → α) (entries : List α) :
    (entries.modify position change).drop found = entries.drop found := by
  apply List.ext_getElem?
  intro index
  rw [List.getElem?_drop, List.getElem?_drop, List.getElem?_modify_ne _ _ (by omega)]

theorem Sane.modify {position : ℕ} {change : Entry → Entry} (sane : region.Sane world) :
    region.Sane { world with stream := world.stream.modify position change } :=
  ⟨sane.sound, by rw [List.length_modify]; exact sane.grown⟩

/-- The reply to a call within the region is to be trusted. -/
theorem Owns.reply (owns : region.Owns world) (within : region.Within call) (outside : Outside) :
    region.Trusts call (world.reply outside call) := by
  cases call with
  | getTask taskId =>
    cases found : world.tasks taskId with
    | none => simp only [World.reply, found, Trusts]
    | some task =>
      simp only [World.reply, found, Trusts]
      exact owns taskId within task found
  | _ => trivial

theorem Owns.after (owns : region.Owns world) (within : region.Within call) : region.Owns (world.after call) := by
  intro taskId inside task present
  rw [World.after_tasks] at present
  cases call with
  | setTask saved =>
    by_cases own : taskId = saved.taskId
    · subst own
      simp only [Function.update_self, Option.some.injEq] at present
      subst present
      exact within.2
    · simp only [Function.update_of_ne own] at present
      exact owns taskId inside task present
  | _ => exact owns taskId inside task present

/-- Functions that are equal where a test holds still are after one update. -/
theorem update_congr {α β : Type} [DecidableEq α] {test : α → Prop} {f g : α → β}
    (same : ∀ a, test a → f a = g a) (at_ : α) (value : β) :
    ∀ a, test a → Function.update f at_ value a = Function.update g at_ value a := by
  intro a inside
  by_cases here : a = at_
  · rw [here, Function.update_self, Function.update_self]
  · rw [Function.update_of_ne here, Function.update_of_ne here]
    exact same a inside

/-- A call within the region is answered by the region. -/
theorem SameOn.reply (same : region.SameOn world world') (within : region.Within call) (outside : Outside) :
    world.reply outside call = world'.reply outside call := by
  have named : ∀ path, region.file path →
      (world.files.file path).isSome = (world'.files.file path).isSome := by
    intro path inside
    have read := congrArg Option.isSome (same.files path inside)
    simpa only [FileSystem.read, Option.isSome_map] using read
  cases call with
  | getPending key => exact congrArg Except.ok (same.pending key within)
  | hgetallLogical key => exact congrArg Except.ok (same.logical key within)
  | getTask taskId => exact congrArg Except.ok (same.tasks taskId within)
  | pathExists path => exact congrArg Except.ok (named path within)
  | replace source target =>
    show (if _ then _ else _) = if _ then _ else _
    rw [named source within.1]
  | setPending => exact within.elim
  | setPendingNx => exact within.elim
  | xlen => exact within.elim
  | openTruncate => exact within.elim
  | writeFile => exact within.elim
  | _ => rfl

theorem SameOn.modify (same : region.SameOn world world') {position : ℕ} (old : position < region.found)
    (change : Entry → Entry) :
    region.SameOn { world with stream := world.stream.modify position change }
      { world' with stream := world'.stream.modify position change } := by
  refine ⟨same.tasks, same.pending, same.logical, ?_, ?_, same.files⟩
  · intro other known inside
    rw [List.getElem?_modify, List.getElem?_modify, same.slots other known inside]
  · intro entry inside
    rw [drop_modify old, drop_modify old]
    exact same.stream entry inside

/-- What a call within the region does there depends on the region alone. -/
theorem SameOn.after (same : region.SameOn world world') (sane : region.Sane world) (sane' : region.Sane world')
    (within : region.Within call) : region.SameOn (world.after call) (world'.after call) := by
  cases call with
  | setTask task =>
    exact ⟨update_congr same.tasks _ _, same.pending, same.logical, same.slots, same.stream, same.files⟩
  | deletePending key =>
    exact ⟨same.tasks, update_congr same.pending _ _, same.logical, same.slots, same.stream, same.files⟩
  | hsetLogical key artifact =>
    exact ⟨same.tasks, same.pending, update_congr same.logical _ _, same.slots, same.stream, same.files⟩
  | xadd taskId =>
    refine ⟨same.tasks, same.pending, same.logical, ?_, ?_, same.files⟩
    · intro position old inside
      show (world.stream ++ _)[position]? = (world'.stream ++ _)[position]?
      rw [List.getElem?_append_left (Nat.lt_of_lt_of_le old sane.grown),
        List.getElem?_append_left (Nat.lt_of_lt_of_le old sane'.grown)]
      exact same.slots position old inside
    · intro entry inside
      show ((world.stream ++ _).drop _).count entry = ((world'.stream ++ _).drop _).count entry
      rw [List.drop_append_of_le_length sane.grown, List.drop_append_of_le_length sane'.grown, List.count_append,
        List.count_append, same.stream entry inside]
  | xack position => exact same.modify within.1 Entry.ack
  | xdel position => exact same.modify within.1 Entry.delete
  | replace source target =>
    obtain ⟨inside, inside', differs⟩ := within
    refine ⟨same.tasks, same.pending, same.logical, same.slots, same.stream, ?_⟩
    intro path there
    show (world.files.replace source target).read path = (world'.files.replace source target).read path
    rw [FileSystem.read_replace_eq differs, FileSystem.read_replace_eq differs, same.files path there,
      same.files source inside]
  | setPending => exact within.elim
  | setPendingNx => exact within.elim
  | openTruncate => exact within.elim
  | writeFile => exact within.elim
  | _ => exact same

/-- Opening a file of the region empties it. -/
theorem SameOn.openTruncate (same : region.SameOn world world') (sound : world.files.Sound)
    (sound' : world'.files.Sound) (path : String) :
    region.SameOn (world.after (.openTruncate path)) (world'.after (.openTruncate path)) := by
  refine ⟨same.tasks, same.pending, same.logical, same.slots, same.stream, ?_⟩
  intro other there
  show (world.files.openTruncate path).read other = (world'.files.openTruncate path).read other
  rw [sound.read_openTruncate_eq, sound'.read_openTruncate_eq, same.files other there]

/-- A write goes to the file that the name leads to in each of the worlds. -/
theorem SameOn.write (same : region.SameOn world world') (sound : world.files.Sound)
    (sound' : world'.files.Sound) {path : String} {file file' : ℕ} (inside : region.file path)
    (named : world.files.file path = some file) (named' : world'.files.file path = some file') (data : Bytes) :
    region.SameOn (world.after (.writeFile file data)) (world'.after (.writeFile file' data)) := by
  refine ⟨same.tasks, same.pending, same.logical, same.slots, same.stream, ?_⟩
  intro other there
  show (world.files.write file data).read other = (world'.files.write file' data).read other
  rw [sound.read_write_eq named, sound'.read_write_eq named', same.files other there, same.files path inside]

/-! ### Outside of it -/

/-- Nothing outside the region has changed, not even which file a name leads to. -/
structure Elsewhere (region : Region) (world world' : World) : Prop where
  same : region.compl.SameOn world world'
  names : ∀ path, ¬ region.file path → world'.files.file path = world.files.file path
  sane : region.Sane world'

theorem update_elsewhere {α β : Type} [DecidableEq α] {test : α → Prop} {f : α → β} {at_ : α} {value : β}
    (inside : test at_) : ∀ a, ¬ test a → f a = Function.update f at_ value a := by
  intro a outside
  refine (Function.update_of_ne ?_ ..).symm
  rintro rfl
  exact outside inside

theorem Elsewhere.refl (sane : region.Sane world) : region.Elsewhere world world :=
  ⟨.refl _ world, fun _ _ => rfl, sane⟩

theorem Elsewhere.modify (sane : region.Sane world) {position : ℕ} (old : position < region.found)
    (inside : region.slot position) (change : Entry → Entry) :
    region.Elsewhere world { world with stream := world.stream.modify position change } := by
  refine ⟨⟨fun _ _ => rfl, fun _ _ => rfl, fun _ _ => rfl, ?_, ?_, fun _ _ => rfl⟩, fun _ _ => rfl, sane.modify⟩
  · intro other _ outside
    have apart : position ≠ other := by
      rintro rfl
      exact outside inside
    exact (List.getElem?_modify_ne _ _ apart).symm
  · intro entry _
    exact congrArg (List.count entry) (drop_modify old change world.stream).symm

theorem Within.elsewhere (within : region.Within call) (sane : region.Sane world) :
    region.Elsewhere world (world.after call) := by
  have still := SameOn.refl region.compl world
  cases call with
  | setTask task =>
    exact ⟨⟨update_elsewhere within.1, still.pending, still.logical, still.slots, still.stream, still.files⟩,
      fun _ _ => rfl, sane.sound, sane.grown⟩
  | deletePending key =>
    exact ⟨⟨still.tasks, update_elsewhere within, still.logical, still.slots, still.stream, still.files⟩,
      fun _ _ => rfl, sane.sound, sane.grown⟩
  | hsetLogical key artifact =>
    exact ⟨⟨still.tasks, still.pending, update_elsewhere within, still.slots, still.stream, still.files⟩,
      fun _ _ => rfl, sane.sound, sane.grown⟩
  | xadd taskId =>
    refine ⟨⟨still.tasks, still.pending, still.logical, ?_, ?_, still.files⟩, fun _ _ => rfl, sane.sound, ?_⟩
    · intro position old outside
      exact (List.getElem?_append_left (Nat.lt_of_lt_of_le old sane.grown)).symm
    · intro entry outside
      have other : Entry.new taskId ≠ entry := by
        rintro rfl
        exact outside within
      show _ = ((world.stream ++ [Entry.new taskId]).drop region.found).count entry
      rw [List.drop_append_of_le_length sane.grown, List.count_append, List.count_singleton,
        beq_eq_false_iff_ne.mpr other]
      rfl
    · show region.found ≤ (world.stream ++ _).length
      rw [List.length_append]
      exact Nat.le_add_right_of_le sane.grown
  | xack position => exact .modify sane within.1 within.2 Entry.ack
  | xdel position => exact .modify sane within.1 within.2 Entry.delete
  | replace source target =>
    obtain ⟨inside, inside', differs⟩ := within
    have apart : ∀ path, ¬ region.file path → path ≠ source ∧ path ≠ target := by
      intro path outside
      constructor
      · rintro rfl
        exact outside inside
      · rintro rfl
        exact outside inside'
    refine ⟨⟨still.tasks, still.pending, still.logical, still.slots, still.stream, ?_⟩, ?_,
      sane.sound.replace differs, sane.grown⟩
    · intro path outside
      exact (FileSystem.read_replace (apart path outside).1 (apart path outside).2).symm
    · intro path outside
      exact FileSystem.replace_other (apart path outside).1 (apart path outside).2
  | setPending => exact within.elim
  | setPendingNx => exact within.elim
  | openTruncate => exact within.elim
  | writeFile => exact within.elim
  | _ => exact .refl sane

theorem elsewhere_openTruncate {path : String} (inside : region.file path) (sane : region.Sane world) :
    region.Elsewhere world (world.after (.openTruncate path)) := by
  have still := SameOn.refl region.compl world
  have other : ∀ name, ¬ region.file name → name ≠ path := by
    intro name outside
    rintro rfl
    exact outside inside
  refine ⟨⟨still.tasks, still.pending, still.logical, still.slots, still.stream, ?_⟩, ?_,
    sane.sound.openTruncate, sane.grown⟩
  · intro name outside
    exact (sane.sound.read_openTruncate (other name outside)).symm
  · intro name outside
    exact FileSystem.openTruncate_other (other name outside)

/-- A write to a file that has no name outside the region. -/
theorem elsewhere_write {file : ℕ} (private_ : ∀ path, world.files.file path = some file → region.file path)
    (sane : region.Sane world) (data : Bytes) : region.Elsewhere world (world.after (.writeFile file data)) := by
  have still := SameOn.refl region.compl world
  refine ⟨⟨still.tasks, still.pending, still.logical, still.slots, still.stream, ?_⟩, fun _ _ => rfl,
    sane.sound.write, sane.grown⟩
  intro name outside
  exact (FileSystem.read_write_other fun named => outside (private_ name named)).symm

end Region

/-! ### The region of a task -/

/-- The name starts with the lead and goes on with a text, such as a ticker, and a slash. -/
def Names (lead : List Char) (text name : String) : Prop :=
  ∃ more, name.toList = lead ++ text.toList ++ '/' :: more

/-- What a handling of the task has to do with. -/
def Region.ofTask (settings : Settings) (task : ReportTask) : Region where
  record taskId := taskId = task.taskId
  pending := Names "report:pending:/".toList task.identity.ticker
  logical := Names "report:logical:/".toList task.identity.ticker
  slot _ := False
  entry entry := entry = Entry.new task.taskId
  file := Names (joinLead settings.storageRoot) task.identity.ticker
  found := 0
  about _ _ := True

section Names

variable {lead : List Char} {name : String} {identity identity' : ReportIdentity}

/-- The name tells the ticker. -/
theorem Names.ticker_eq (named : Names lead identity.ticker name) (named' : Names lead identity'.ticker name) :
    identity.ticker = identity'.ticker := by
  obtain ⟨more, chars⟩ := named
  obtain ⟨more', chars'⟩ := named'
  rw [chars, List.append_assoc, List.append_assoc, List.append_cancel_left_eq] at chars'
  exact String.toList_inj.mp (segment_eq identity.ticker_slash identity'.ticker_slash chars').1

theorem Names.append {text : String} (named : Names lead text name) (suffix : String) :
    Names lead text (name ++ suffix) := by
  obtain ⟨more, chars⟩ := named
  refine ⟨more ++ suffix.toList, ?_⟩
  rw [String.toList_append, chars, List.append_assoc, List.cons_append]

theorem Names.joinPath {text : String} (named : Names lead text name) {relative : String}
    (below : relative.toList.head? ≠ some '/') : Names lead text (Text.joinPath name relative) := by
  obtain ⟨more, chars⟩ := named
  have leads : ∃ more', joinLead name = lead ++ text.toList ++ '/' :: more' := by
    unfold joinLead
    split_ifs
    · exact ⟨more, chars⟩
    · refine ⟨more ++ ['/'], ?_⟩
      rw [chars, List.append_assoc, List.cons_append]
  obtain ⟨more', leads⟩ := leads
  refine ⟨more' ++ relative.toList, ?_⟩
  rw [joinPath_toList name below, leads, List.append_assoc, List.cons_append]

/-- The keys of an identity name its ticker. -/
theorem names_key (prefix_ : String) (identity : ReportIdentity) (includeAmended : Bool) :
    Names (prefix_.toList ++ ['/']) identity.ticker
      (prefix_ ++ identity.logicalPath ++ policySuffix includeAmended) := by
  refine ⟨(encodeForm identity.form).toList ++ '/' :: ((toString identity.year).toList ++
    (identity.quarterTail ++ (policySuffix includeAmended).toList)), ?_⟩
  simp only [String.toList_append, ReportIdentity.logicalPath_toList, List.append_assoc, List.cons_append,
    List.nil_append]

/-- The directory of the filings of a report, below the root. -/
def directoryOf (identity : ReportIdentity) : String :=
  identity.ticker ++ "/" ++ encodeForm identity.form ++ "/" ++ toString identity.year

theorem directoryOf_toList (identity : ReportIdentity) : (directoryOf identity).toList =
    identity.ticker.toList ++ '/' :: ((encodeForm identity.form).toList ++ '/' :: (toString identity.year).toList) := by
  have slash : "/".toList = ['/'] := rfl
  simp only [directoryOf, String.toList_append, slash, List.append_assoc, List.cons_append, List.nil_append]

/-- The name below tells the parts of the identity that the directory is made of. -/
theorem Names.directory_eq (named : Names lead (directoryOf identity) name)
    (named' : Names lead (directoryOf identity') name) :
    identity.ticker = identity'.ticker ∧ identity.form = identity'.form ∧ identity.year = identity'.year := by
  obtain ⟨more, chars⟩ := named
  obtain ⟨more', chars'⟩ := named'
  rw [chars, directoryOf_toList, directoryOf_toList] at chars'
  simp only [List.append_assoc, List.cons_append, List.append_cancel_left_eq] at chars'
  obtain ⟨tickers, below⟩ := segment_eq identity.ticker_slash identity'.ticker_slash chars'
  obtain ⟨forms, below⟩ := segment_eq (encodeForm_slash _) (encodeForm_slash _) below
  obtain ⟨years, _⟩ := segment_eq (year_plain _).slash (year_plain _).slash below
  refine ⟨String.toList_inj.mp tickers, ?_, int_toList_injective years⟩
  rw [← identity.form_decoded, String.toList_inj.mp forms, identity'.form_decoded]

/-- What is below the directory is below the ticker's. -/
theorem Names.ticker (named : Names lead (directoryOf identity) name) : Names lead identity.ticker name := by
  obtain ⟨more, chars⟩ := named
  refine ⟨(encodeForm identity.form).toList ++ '/' :: ((toString identity.year).toList ++ '/' :: more), ?_⟩
  rw [chars, directoryOf_toList]
  simp only [List.append_assoc, List.cons_append]

/-- A directory is named with a slash at its end. -/
theorem joinLead_joinPath (root : String) {name : String} (plain : PlainName name) :
    joinLead (Text.joinPath root name) = joinLead root ++ name.toList ++ ['/'] := by
  have directory := @joinPath_toList root name fun absolute => plain.slash (List.mem_of_mem_head? absolute)
  have nonempty := plain.toList_ne_nil
  unfold joinLead
  rw [if_neg, directory]
  · rfl
  · rw [directory]
    rintro (empty | slashed)
    · exact nonempty (List.append_eq_nil_iff.mp empty).2
    · rw [List.getLast?_append_of_ne_nil _ nonempty] at slashed
      exact plain.slash (List.mem_of_getLast? slashed)

end Names

variable {settings : Settings} {task task' : ReportTask}

/-- The files that are written for a filing. -/
def storedPaths (paths : ArtifactPaths) : List String := [paths.sourcePath, paths.pdfPath, paths.metadataPath]

/-- The files of an accession lie below the report's directory, whatever the accession number. -/
theorem names_paths (settings : Settings) (identity : ReportIdentity) (accessionNumber ext : String) :
    ∀ path ∈ storedPaths (ArtifactStore.pathsFor settings identity accessionNumber ext),
      Names (joinLead settings.storageRoot) (directoryOf identity) path := by
  have lettered {name more : String} {c : Char} {rest : List Char} (letters : name.toList = c :: rest)
      (other : c ≠ '/') : (name ++ more).toList.head? ≠ some '/' := by
    rw [String.toList_append, letters]
    exact fun absolute => other (Option.some.inj absolute)
  have accession : ("accession-" ++ accessionNumber).toList.head? ≠ some '/' := lettered rfl (by decide)
  have filing : ("filing" ++ ext).toList.head? ≠ some '/' := lettered rfl (by decide)
  have directory : Names (joinLead settings.storageRoot) (directoryOf identity)
      (ArtifactStore.accessionDir settings identity accessionNumber) := by
    refine ⟨("accession-" ++ accessionNumber).toList, ?_⟩
    simp only [ArtifactStore.accessionDir, List.foldl_cons, List.foldl_nil]
    rw [joinPath_toList _ accession, joinLead_joinPath _ (year_plain _), joinLead_joinPath _ (form_plain _),
      joinLead_joinPath _ (ticker_plain _), directoryOf_toList]
    simp only [List.append_assoc, List.cons_append, List.nil_append]
  simp only [storedPaths, List.forall_mem_cons]
  exact ⟨directory.joinPath filing, directory.joinPath (by decide), directory.joinPath (by decide),
    List.forall_mem_nil _⟩

/-- Two tasks with different tickers have nothing in common. -/
theorem ofTask_apart (ids : task.taskId ≠ task'.taskId)
    (tickers : task.identity.ticker ≠ task'.identity.ticker) :
    (Region.ofTask settings task).Inside (Region.ofTask settings task').compl := by
  constructor
  · rintro taskId rfl same
    exact ids same
  · exact fun key named named' => tickers (named.ticker_eq named')
  · exact fun key named named' => tickers (named.ticker_eq named')
  · exact fun position none => none.elim
  · rintro entry rfl same
    simp only [Region.ofTask, Entry.new, Entry.mk.injEq, List.cons.injEq, Prod.mk.injEq, true_and, and_true] at same
    exact ids same
  · exact fun path named named' => tickers (named.ticker_eq named')
  · rfl

end Quartr.Soundness
