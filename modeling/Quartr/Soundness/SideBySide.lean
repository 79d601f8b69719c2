import Mathlib.Data.List.Forall2
import Quartr.Soundness.Batches
import Quartr.Soundness.MessageTerritory
import Quartr.Soundness.Mirrors
import Quartr.Soundness.Sheltering

/-! # Two runs of a batch side by side

In the second run the calls of one message's handling come out otherwise than in the first. Where the message
is of a task and a report of its own and the queue has room, the other handlings take the same course in both:
for every second run there is a first one, which handles that message as a whole when the second one is done
with it.
-/

namespace Quartr.Soundness

open Quartr.Machine Quartr.Model

/-! ### The same effects -/

/-- Two calls with their replies that differ in the depth of a queue with room or in a descriptor at most. -/
inductive SeenAlike (capacity : ℕ) : (Σ call, calls.Reply call) → (Σ call, calls.Reply call) → Prop
  | same (served : Σ call, calls.Reply call) : SeenAlike capacity served served
  | depth {depth depth' : ℕ} (below : depth < capacity) (below' : depth' < capacity) :
      SeenAlike capacity ⟨.xlen, .ok depth⟩ ⟨.xlen, .ok depth'⟩
  | opened (path : String) (file file' : ℕ) :
      SeenAlike capacity ⟨.openTruncate path, .ok file⟩ ⟨.openTruncate path, .ok file'⟩
  | written (file file' : ℕ) (data : Bytes) (reply : Except CallError Unit) :
      SeenAlike capacity ⟨.writeFile file data, reply⟩ ⟨.writeFile file' data, reply⟩

theorem Matching.seenAlike {region : Region} {capacity : ℕ} {opened opened' : ℕ → ℕ → Prop} {call call' : Call}
    {reply : calls.Reply call} {reply' : calls.Reply call'} (matching : Matching region opened call call')
    (replied : Replied region capacity opened' call call' reply reply') :
    SeenAlike capacity ⟨call, reply⟩ ⟨call', reply'⟩ := by
  cases replied with
  | within => exact .same _
  | raised =>
    cases matching with
    | write => exact .written ..
    | _ => exact .same _
  | depth below below' => exact .depth below below'
  | store => exact .opened ..
  | write => exact .written ..

/-! ### A batch around one message -/

/-- The messages of the batch are different entries of the stream, the store is as it is kept, the others are
of other tasks and reports than `mine`, and the queue has room for an entry from each message. -/
structure Surroundings (worker : Worker) (world : World) (messages : List StreamEntry) (mine : StreamEntry) : Prop where
  distinct : (messages.map StreamEntry.id).Nodup
  member : mine ∈ messages
  queued : ∀ entry ∈ messages, entry.id < world.stream.length
  sound : world.files.Sound
  keyed : world.Keyed
  strangers : ∀ entry ∈ messages, entry ≠ mine → Strangers world mine entry
  room : world.depth + messages.length ≤ worker.settings.maxQueueDepth

section Isolation

variable {loop : Loop} {worker : Worker} {world : World} {messages : List StreamEntry} {mine : StreamEntry}
  {circumstances circumstances' : ℕ → Circumstance}

/-! ### Two runs side by side -/

/-- Two handlings of one message: those of the others have come equally far, and that of `mine` has not begun
in the first run. -/
inductive Abreast (worker : Worker) (world : World) (mine : StreamEntry) (pairs : ℕ → ℕ → Prop) :
    Handling → Handling → Prop
  | other {entry : StreamEntry} {started started' : ℕ} {rest rest' : Program calls (Except Err Unit × Unit)}
      (differs : entry.id ≠ mine.id)
      (twins : Twins (Region.ofMessage worker.settings world mine).compl worker.settings.maxQueueDepth pairs rest
        rest') :
      Abreast worker world mine pairs ⟨entry, started, rest⟩ ⟨entry, started', rest'⟩
  | mine (started started' : ℕ) (rest' : Program calls (Except Err Unit × Unit)) :
      Abreast worker world mine pairs ⟨mine, started, worker.handleMessage mine.id mine.fields ()⟩
        ⟨mine, started', rest'⟩

/-- The handlings under way and the entries that wait, where `left` is what is left of the handling of `mine`
in the second run. -/
structure Aligned (worker : Worker) (world : World) (mine : StreamEntry) (pairs : ℕ → ℕ → Prop)
    (left : Option (Program calls (Except Err Unit × Unit))) (running running' : List Handling)
    (waiting : List StreamEntry) : Prop where
  abreast : List.Forall₂ (Abreast worker world mine pairs) running running'
  inHand : ∀ handling ∈ running', handling.entry.id = mine.id → left = some handling.rest
  waits : ∀ entry ∈ waiting, entry.id = mine.id → left = some (worker.handleMessage mine.id mine.fields ())
  pending : left ≠ none → mine ∈ running'.map Handling.entry ++ waiting

/-- Both loops are at the same batch, or both have handled it. -/
inductive Level (loop : Loop) (worker : Worker) (world : World) (mine : StreamEntry) (pairs : ℕ → ℕ → Prop)
    (left : Option (Program calls (Except Err Unit × Unit))) : Stage → Stage → Prop
  | batch {running running' : List Handling} {waiting : List StreamEntry}
      (aligned : Aligned worker world mine pairs left running running' waiting) :
      Level loop worker world mine pairs left (.batch running waiting) (.batch running' waiting)
  | swept (finished : left = none) : Level loop worker world mine pairs left loop.sweep loop.sweep

/-- What has become of `mine`: the first run has not touched it, and the second is where it gets on its own;
or both have handled it, and on its own it returns normally. -/
inductive Fate (worker : Worker) (world : World) (mine : StreamEntry) (circumstance : Circumstance)
    (batch batch' : Batch) : Option (Program calls (Except Err Unit × Unit)) → Prop
  | left {program rest : Program calls (Except Err Unit × Unit)} {world' : World} {log : Log calls}
      (untouched : (Region.ofMessage worker.settings world mine).SameOn world batch.world)
      (alongside : Alongside (.ofMessage worker.settings world mine) worker.settings.maxQueueDepth program world' rest
        batch'.world)
      (made : log.length = (batch'.log mine.id).length)
      (course : program.run (scriptOf circumstance).answer (world', log) = alone worker circumstance world mine) :
      Fate worker world mine circumstance batch batch' (some rest)
  | handled (returns : (alone worker circumstance world mine).1.1 = .ok ()) :
      Fate worker world mine circumstance batch batch' none

/-- The two runs have come equally far, but for `mine`. -/
structure SideBySide (loop : Loop) (worker : Worker) (world : World) (mine : StreamEntry) (circumstance : Circumstance)
    (pairs : ℕ → ℕ → Prop) (left : Option (Program calls (Except Err Unit × Unit))) (batch batch' : Batch) : Prop where
  level : Level loop worker world mine pairs left batch.stage batch'.stage
  mirrors : (Region.ofMessage worker.settings world mine).compl.Mirrors pairs batch.world batch'.world
  fate : Fate worker world mine circumstance batch batch' left
  logs : ∀ id, id ≠ mine.id →
    List.Forall₂ (SeenAlike worker.settings.maxQueueDepth) (batch.log id) (batch'.log id)

/-! ### Stages -/

section Stages

variable {pairs pairs' : ℕ → ℕ → Prop} {left left' : Option (Program calls (Except Err Unit × Unit))}
  {running running' : List Handling} {waiting : List StreamEntry}

theorem Surroundings.eq_mine (surroundings : Surroundings worker world messages mine) {entry : StreamEntry}
    (member : entry ∈ messages) (same : entry.id = mine.id) : entry = mine :=
  List.inj_on_of_nodup_map surroundings.distinct member surroundings.member same

/-- A handling begins in both runs. -/
theorem abreast_begin (surroundings : Surroundings worker world messages mine) (now : ℕ) {entries : List StreamEntry}
    (among : ∀ entry ∈ entries, entry ∈ messages) :
    List.Forall₂ (Abreast worker world mine pairs) (entries.map (.begin worker now))
      (entries.map (.begin worker now)) := by
  rw [List.forall₂_map_left_iff, List.forall₂_map_right_iff, List.forall₂_same]
  intro entry present
  by_cases same : entry.id = mine.id
  · rw [surroundings.eq_mine (among entry present) same]
    exact .mine now now _
  · refine .other same (.same ?_)
    have differs : entry ≠ mine := fun equal => same (congrArg StreamEntry.id equal)
    exact (surroundings.strangers entry (among entry present) differs).keeps same
      (surroundings.queued entry (among entry present))

theorem level_handleBatch (surroundings : Surroundings worker world messages mine) (now : ℕ)
    (among : ∀ entry ∈ waiting, entry ∈ messages)
    (waits : ∀ entry ∈ waiting, entry.id = mine.id → left = some (worker.handleMessage mine.id mine.fields ()))
    (pending : left ≠ none → mine ∈ waiting) :
    Level loop worker world mine pairs left (loop.handleBatch worker now waiting)
      (loop.handleBatch worker now waiting) := by
  have inHand : ∀ entries : List StreamEntry, (∀ entry ∈ entries, entry ∈ waiting) →
      ∀ handling ∈ entries.map (Handling.begin worker now), handling.entry.id = mine.id →
        left = some handling.rest := by
    intro entries within handling present same
    obtain ⟨entry, member, rfl⟩ := List.mem_map.mp present
    have equal : entry = mine := surroundings.eq_mine (among entry (within entry member)) same
    rw [waits entry (within entry member) same, equal]
    rfl
  cases waiting with
  | nil =>
    apply Level.swept
    by_contra unfinished
    cases pending unfinished
  | cons first later =>
    by_cases sequential : loop.concurrency = 1
    · simp only [Loop.handleBatch, sequential, ↓reduceIte]
      have one : ∀ entry ∈ [first], entry ∈ first :: later := by
        intro entry member
        rw [List.mem_singleton.mp member]
        exact List.mem_cons_self ..
      refine .batch ⟨abreast_begin surroundings now fun entry member => among entry (one entry member),
        inHand [first] one, fun entry member => waits entry (List.mem_cons_of_mem _ member), pending⟩
    · simp only [Loop.handleBatch, sequential, ↓reduceIte]
      have entries : ((first :: later).map (Handling.begin worker now)).map Handling.entry ++ [] = first :: later := by
        rw [List.map_map, List.append_nil]
        exact List.map_id _
      refine .batch ⟨abreast_begin surroundings now among, inHand _ fun _ member => member,
        List.forall_mem_nil _, ?_⟩
      rw [entries]
      exact pending

/-- When a handling has returned normally in both runs, the loops go on alike. -/
theorem Aligned.level (surroundings : Surroundings worker world messages mine) (now : ℕ)
    (aligned : Aligned worker world mine pairs left running running' waiting)
    (among : ∀ entry ∈ waiting, entry ∈ messages) :
    Level loop worker world mine pairs left
      (if running.isEmpty then loop.handleBatch worker now waiting else .batch running waiting)
      (if running'.isEmpty then loop.handleBatch worker now waiting else .batch running' waiting) := by
  cases running with
  | nil =>
    obtain rfl := List.forall₂_nil_left_iff.mp aligned.abreast
    exact level_handleBatch surroundings now among aligned.waits aligned.pending
  | cons first later =>
    obtain ⟨first', later', _, _, rfl⟩ := List.forall₂_cons_left_iff.mp aligned.abreast
    exact .batch aligned

theorem Abreast.mono {handling handling' : Handling} (abreast : Abreast worker world mine pairs handling handling')
    (implies : ∀ file file', pairs file file' → pairs' file file') :
    Abreast worker world mine pairs' handling handling' := by
  cases abreast with
  | other differs twins => exact .other differs (twins.mono implies)
  | mine => exact .mine ..

theorem Aligned.mono (aligned : Aligned worker world mine pairs left running running' waiting)
    (implies : ∀ file file', pairs file file' → pairs' file file') :
    Aligned worker world mine pairs' left running running' waiting :=
  ⟨aligned.abreast.imp fun _ _ abreast => abreast.mono implies, aligned.inHand, aligned.waits, aligned.pending⟩

/-- The handling of the first run that belongs to one of the second. -/
theorem forall₂_split {α β : Type} {relation : α → β → Prop} {before : List β} {current : β} {after : List β}
    {all : List α} (related : List.Forall₂ relation all (before ++ current :: after)) :
    ∃ first this last, all = first ++ this :: last ∧ List.Forall₂ relation first before ∧ relation this current ∧
      List.Forall₂ relation last after := by
  induction before generalizing all with
  | nil =>
    obtain ⟨this, last, here, later, rfl⟩ := List.forall₂_cons_right_iff.mp related
    exact ⟨[], this, last, rfl, .nil, here, later⟩
  | cons head before ih =>
    obtain ⟨other, rest, here, later, rfl⟩ := List.forall₂_cons_right_iff.mp related
    obtain ⟨first, this, last, rfl, left, middle, right⟩ := ih later
    exact ⟨other :: first, this, last, rfl, .cons here left, middle, right⟩

section Reply

variable {first last before after : List Handling} {entry : StreamEntry} {started started' : ℕ}
  {current current' : Program calls (Except Err Unit × Unit)} {value : Except Err Unit × Unit}

/-- The handlings besides one. -/
theorem Aligned.besides (aligned : Aligned worker world mine pairs left running
      (before ++ ⟨entry, started', current'⟩ :: after) waiting) (differs : entry.id ≠ mine.id)
    (firsts : List.Forall₂ (Abreast worker world mine pairs) first before)
    (lasts : List.Forall₂ (Abreast worker world mine pairs) last after) :
    Aligned worker world mine pairs left (first ++ last) (before ++ after) waiting := by
  refine ⟨List.rel_append firsts lasts, ?_, aligned.waits, fun unfinished => ?_⟩
  · intro handling member
    apply aligned.inHand
    rcases List.mem_append.mp member with member | member
    · exact List.mem_append_left _ member
    · exact List.mem_append_right _ (List.mem_cons_of_mem _ member)
  · have present := aligned.pending unfinished
    have other : mine ≠ entry := fun same => differs (congrArg StreamEntry.id same.symm)
    simp only [List.map_append, List.map_cons, List.mem_append, List.mem_cons, other, false_or] at present ⊢
    exact present

/-- A handling of another message that has got its reply in both runs. -/
theorem Aligned.other_handled (surroundings : Surroundings worker world messages mine) (loop : Loop) (now : ℕ)
    (started : ℕ) (aligned : Aligned worker world mine pairs left running (before ++ ⟨entry, started', current'⟩ :: after) waiting)
    (differs : entry.id ≠ mine.id) (firsts : List.Forall₂ (Abreast worker world mine pairs) first before)
    (lasts : List.Forall₂ (Abreast worker world mine pairs) last after) (among : ∀ entry ∈ waiting, entry ∈ messages)
    {rest rest' : Program calls (Except Err Unit × Unit)}
    (twins : Twins (Region.ofMessage worker.settings world mine).compl worker.settings.maxQueueDepth pairs rest rest') :
    loop.handled worker now first ⟨entry, started, rest⟩ last waiting = .stopped ∨
      Level loop worker world mine pairs left (loop.handled worker now first ⟨entry, started, rest⟩ last waiting)
        (loop.handled worker now before ⟨entry, started', rest'⟩ after waiting) := by
  have besides := aligned.besides differs firsts lasts
  cases rest' with
  | done value =>
    rw [twins.done]
    obtain ⟨error | done, ⟨⟩⟩ := value
    · exact .inl rfl
    · exact .inr (besides.level surroundings now among)
  | await call next =>
    obtain ⟨call₀, next₀, rfl, _⟩ := twins.step
    refine .inr (.batch ⟨List.rel_append firsts (.cons (.other differs twins) lasts), ?_, aligned.waits, ?_⟩)
    · intro handling member same
      rcases List.mem_append.mp member with member | member
      · exact besides.inHand handling (List.mem_append_left _ member) same
      rcases List.mem_cons.mp member with rfl | member
      · exact absurd same differs
      · exact besides.inHand handling (List.mem_append_right _ member) same
    · intro unfinished
      have present := besides.pending unfinished
      simp only [List.map_append, List.map_cons, List.mem_append, List.mem_cons] at present ⊢
      rcases present with (present | present) | present <;> simp [present]

/-- The handling of `mine` goes on in the second run. -/
theorem aligned_with_mine {started started' : ℕ}
    (apart : ∀ entry ∈ (before ++ after).map Handling.entry ++ waiting, entry.id ≠ mine.id)
    (firsts : List.Forall₂ (Abreast worker world mine pairs) first before)
    (lasts : List.Forall₂ (Abreast worker world mine pairs) last after)
    (rest' : Program calls (Except Err Unit × Unit)) :
    Aligned worker world mine pairs (some rest')
      (first ++ ⟨mine, started, worker.handleMessage mine.id mine.fields ()⟩ :: last)
      (before ++ ⟨mine, started', rest'⟩ :: after) waiting := by
  refine ⟨List.rel_append firsts (.cons (.mine ..) lasts), ?_, ?_, fun _ => by simp⟩
  · intro handling member same
    rcases List.mem_append.mp member with member | member
    · have present := List.mem_map_of_mem (f := Handling.entry) (List.mem_append_left after member)
      exact absurd same (apart _ (List.mem_append_left _ present))
    rcases List.mem_cons.mp member with rfl | member
    · rfl
    · have present := List.mem_map_of_mem (f := Handling.entry) (List.mem_append_right before member)
      exact absurd same (apart _ (List.mem_append_left _ present))
  · exact fun entry member same => absurd same (apart entry (List.mem_append_right _ member))

/-- The handling of `mine` has come to its end in both runs. -/
theorem aligned_without_mine (apart : ∀ entry ∈ (before ++ after).map Handling.entry ++ waiting, entry.id ≠ mine.id)
    (firsts : List.Forall₂ (Abreast worker world mine pairs) first before)
    (lasts : List.Forall₂ (Abreast worker world mine pairs) last after) :
    Aligned worker world mine pairs none (first ++ last) (before ++ after) waiting := by
  refine ⟨List.rel_append firsts lasts, ?_, ?_, fun unfinished => absurd rfl unfinished⟩
  · exact fun handling member same => absurd same (apart _ (List.mem_append_left _ (List.mem_map_of_mem member)))
  · exact fun entry member same => absurd same (apart entry (List.mem_append_right _ member))

end Reply

theorem Level.atBatch {stage : Stage}
    (level : Level loop worker world mine pairs left stage (.batch running' waiting)) :
    ∃ running, stage = .batch running waiting ∧ Aligned worker world mine pairs left running running' waiting := by
  generalize there : Stage.batch running' waiting = stage' at level
  cases level with
  | batch aligned =>
    cases there
    exact ⟨_, rfl, aligned⟩
  | swept finished =>
    unfold Loop.sweep at there
    cases there

theorem Level.atSweep {stage : Stage} (level : Level loop worker world mine pairs left stage loop.sweep) :
    stage = loop.sweep ∧ left = none := by
  generalize there : loop.sweep = stage' at level
  cases level with
  | batch aligned =>
    unfold Loop.sweep at there
    cases there
  | swept finished => exact ⟨rfl, finished⟩

theorem Level.not_stopped {stage : Stage} (level : Level loop worker world mine pairs left stage .stopped) : False := by
  generalize there : Stage.stopped = stage' at level
  cases level with
  | batch aligned => cases there
  | swept finished =>
    unfold Loop.sweep at there
    cases there

end Stages

/-! ### The whole handling in one go -/

section Runs

variable {now : ℕ} {batch batch' : Batch} {schedule : List ℕ} {pairs : ℕ → ℕ → Prop}

/-- The region and what is outside of the rest. -/
theorem Region.inside_compl_compl (region : Region) : region.Inside region.compl.compl :=
  ⟨fun _ => not_not_intro, fun _ => not_not_intro, fun _ => not_not_intro, fun _ => not_not_intro,
    fun _ => not_not_intro, fun _ => not_not_intro, rfl⟩

/-- The handling of `mine` begins in a world like the first one. -/
theorem Surroundings.begins (surroundings : Surroundings worker world messages mine) {world' : World}
    (untouched : (Region.ofMessage worker.settings world mine).SameOn world world')
    (sane : (Region.ofMessage worker.settings world mine).Sane world') :
    Alongside (.ofMessage worker.settings world mine) worker.settings.maxQueueDepth
      (worker.handleMessage mine.id mine.fields ()) world (worker.handleMessage mine.id mine.fields ()) world' := by
  have keeps := @ofMessage_keeps world mine worker (surroundings.queued mine surroundings.member)
  have owns : (Region.ofMessage worker.settings world mine).Owns world :=
    fun taskId _ => ofMessage_about surroundings.keyed taskId
  exact ⟨.same keeps, untouched, ofMessage_sane surroundings.sound, sane, owns.same untouched⟩

/-- What the other handlings do is nothing to `mine`. -/
theorem Fate.other {circumstance : Circumstance} {left : Option (Program calls (Except Err Unit × Unit))}
    {batch₁ batch₁' : Batch} (fate : Fate worker world mine circumstance batch batch' left)
    (elsewhere : (Region.ofMessage worker.settings world mine).compl.Elsewhere batch.world batch₁.world)
    (elsewhere' : (Region.ofMessage worker.settings world mine).compl.Elsewhere batch'.world batch₁'.world)
    (quiet : batch₁'.log mine.id = batch'.log mine.id) : Fate worker world mine circumstance batch₁ batch₁' left := by
  have apart := Region.inside_compl_compl (.ofMessage worker.settings world mine)
  cases fate with
  | handled returns => exact .handled returns
  | left untouched alongside made course =>
    rw [← quiet] at made
    exact .left (untouched.trans (elsewhere.same.mono apart)) (alongside.other elsewhere' apart) made course

/-- Once `mine` is under way, its handling can be run to its end, which changes nothing outside its region. -/
theorem mine_runs (surroundings : Surroundings worker world messages mine) (now' : ℕ) {first last : List Handling}
    {started : ℕ} {waiting : List StreamEntry} {rest program : Program calls (Except Err Unit × Unit)}
    {other world' : World}
    (path : Path (Batch.Step loop worker circumstances) (.start loop worker now messages world) schedule batch)
    (at_ : batch.stage = .batch (first ++ ⟨mine, started, rest⟩ :: last) waiting)
    (mirrors : (Region.ofMessage worker.settings world mine).compl.Mirrors pairs other batch.world)
    (alongside : Alongside (.ofMessage worker.settings world mine) worker.settings.maxQueueDepth program world' rest
      batch.world) : ∃ n batch' value,
      Path (Batch.Step loop worker circumstances) batch (List.replicate n mine.id) batch' ∧
        batch'.stage = loop.handled worker now' first ⟨mine, started, .done value⟩ last waiting ∧
        (Region.ofMessage worker.settings world mine).compl.Mirrors pairs other batch'.world ∧
        ∀ id, id ≠ mine.id → batch'.log id = batch.log id := by
  induction rest generalizing batch schedule program world' with
  | done value =>
    have inBatch := (standing_run surroundings.distinct surroundings.room path).inBatch at_
    exact absurd rfl (inBatch.unfinished _ (List.mem_append_right _ (List.mem_cons_self ..)))
  | await call next ih =>
    have inBatch := (standing_run surroundings.distinct surroundings.room path).inBatch at_
    have step : Batch.Step loop worker circumstances batch mine.id _ := .reply now' at_ (Prod.mk.eta).symm
    have mirrors' := mirrors.aside alongside (circumstances mine.id).outside
      ((circumstances mine.id).outcome (batch.log mine.id).length)
    obtain ⟨call₀, next₀, _, alongside', _⟩ := alongside.own (circumstances mine.id).outside
      ((circumstances mine.id).outcome (batch.log mine.id).length) inBatch.roomy
    have others : ∀ log id, id ≠ mine.id → Function.update batch.log mine.id log id = batch.log id :=
      fun log id differs => Function.update_of_ne differs ..
    generalize handled : next ((circumstances mine.id).serve (batch.log mine.id).length call batch.world).1 = rest
      at step
    cases rest with
    | done value => exact ⟨1, _, value, .cons step (.nil _), rfl, mirrors', others _⟩
    | await call' next' =>
      have continues := congrArg (fun rest => Stage.batch (first ++ ⟨mine, started, rest⟩ :: last) waiting) handled.symm
      have later := ih _ (path.append (.cons step (.nil _))) continues mirrors' alongside'
      obtain ⟨n, batch', value, rest, ended, mirrors'', same⟩ := later
      exact ⟨n + 1, batch', value, .cons step rest, ended, mirrors'', fun id differs =>
        (same id differs).trans (others _ id differs)⟩

/-- No run of the batch ends in an exception that has left the read loop. -/
def Unstopped (loop : Loop) (worker : Worker) (now : ℕ) (messages : List StreamEntry) (world : World)
    (circumstances : ℕ → Circumstance) : Prop :=
  ∀ schedule batch, Path (Batch.Step loop worker circumstances) (.start loop worker now messages world) schedule batch →
    batch.stage ≠ .stopped

/-- The calls of the other messages, in their order. -/
def besides (mine : StreamEntry) (schedule : List ℕ) : List ℕ := schedule.filter fun id => id ≠ mine.id

section Step

variable {left : Option (Program calls (Except Err Unit × Unit))} {before after : List Handling} {entry : StreamEntry}
  {started : ℕ} {call : Call} {next : calls.Reply call → Program calls (Except Err Unit × Unit)}
  {waiting : List StreamEntry}

/-- A call of another message's handling is made in both runs. -/
theorem SideBySide.other_step (surroundings : Surroundings worker world messages mine) (now' : ℕ)
    (unstopped : Unstopped loop worker now messages world circumstances)
    (path : Path (Batch.Step loop worker circumstances) (.start loop worker now messages world) schedule batch)
    (standing : Standing loop messages worker.settings.maxQueueDepth batch')
    (side : SideBySide loop worker world mine (circumstances' mine.id) pairs left batch batch')
    (at_ : batch'.stage = .batch (before ++ ⟨entry, started, .await call next⟩ :: after) waiting)
    (differs : entry.id ≠ mine.id) {reply : calls.Reply call} {world' : World}
    (serves : (circumstances entry.id).serve (batch'.log entry.id).length call batch'.world = (reply, world')) :
    ∃ batch₁ pairs₁, Batch.Step loop worker circumstances batch entry.id batch₁ ∧
      SideBySide loop worker world mine (circumstances' mine.id) pairs₁ left batch₁
        ⟨loop.handled worker now' before ⟨entry, started, next reply⟩ after waiting, world',
          Function.update batch'.log entry.id (batch'.log entry.id ++ [⟨call, reply⟩])⟩ := by
  have inBatch' := standing.inBatch at_
  have level := side.level
  rw [at_] at level
  obtain ⟨running, at₀, aligned⟩ := level.atBatch
  obtain ⟨first, this, last, rfl, firsts, here, lasts⟩ := forall₂_split aligned.abreast
  cases here with
  | mine => exact absurd rfl differs
  | @other _ started₀ _ rest _ _ twins =>
    obtain ⟨call₀, next₀, rfl, matching, later⟩ := twins.step
    have inBatch := (standing_run surroundings.distinct surroundings.room path).inBatch at₀
    have lengths : (batch.log entry.id).length = (batch'.log entry.id).length := (side.logs entry.id differs).length_eq
    obtain ⟨pairs₁, more, mirrors, ⟨elsewhere, elsewhere'⟩, replied⟩ := side.mirrors.served matching
      (circumstances entry.id).outside ((circumstances entry.id).outcome (batch.log entry.id).length) inBatch.roomy
      inBatch'.roomy
    rw [← lengths] at serves
    obtain ⟨rfl, rfl⟩ := Prod.mk.inj (Prod.mk.eta.trans serves)
    have step : Batch.Step loop worker circumstances batch entry.id _ := .reply now' at₀ (Prod.mk.eta).symm
    have among : ∀ entry ∈ waiting, entry ∈ messages :=
      fun entry member => inBatch'.among entry (List.mem_append_right _ member)
    rcases (aligned.mono more).other_handled surroundings loop now' started₀ differs
      (firsts.imp fun _ _ abreast => abreast.mono more) (lasts.imp fun _ _ abreast => abreast.mono more) among
      (later pairs₁ _ _ replied) with stopped | level
    · exact absurd stopped (unstopped _ _ (path.append (.cons step (.nil _))))
    refine ⟨_, pairs₁, step, level, mirrors, side.fate.other elsewhere elsewhere' ?_, ?_⟩
    · exact Function.update_of_ne differs.symm ..
    · intro id other
      dsimp only
      by_cases own : id = entry.id
      · subst own
        rw [Function.update_self, Function.update_self]
        exact List.rel_append (side.logs entry.id differs) (.cons (matching.seenAlike replied) .nil)
      · rw [Function.update_of_ne own, Function.update_of_ne own]
        exact side.logs id other

/-- A call of `mine` is made in the second run. If it is the last one, the first run handles `mine` as a whole. -/
theorem SideBySide.mine_step (surroundings : Surroundings worker world messages mine) (now' : ℕ)
    (unstopped : Unstopped loop worker now messages world circumstances)
    (path : Path (Batch.Step loop worker circumstances) (.start loop worker now messages world) schedule batch)
    (standing : Standing loop messages worker.settings.maxQueueDepth batch')
    (side : SideBySide loop worker world mine (circumstances' mine.id) pairs left batch batch')
    (at_ : batch'.stage = .batch (before ++ ⟨mine, started, .await call next⟩ :: after) waiting)
    {reply : calls.Reply call} {world' : World}
    (serves : (circumstances' mine.id).serve (batch'.log mine.id).length call batch'.world = (reply, world')) :
    (loop.handled worker now' before ⟨mine, started, next reply⟩ after waiting = .stopped ∧
      ∃ error, (alone worker (circumstances' mine.id) world mine).1.1 = .error error) ∨
    ∃ n batch₁ left₁, Path (Batch.Step loop worker circumstances) batch (List.replicate n mine.id) batch₁ ∧
      SideBySide loop worker world mine (circumstances' mine.id) pairs left₁ batch₁
        ⟨loop.handled worker now' before ⟨mine, started, next reply⟩ after waiting, world',
          Function.update batch'.log mine.id (batch'.log mine.id ++ [⟨call, reply⟩])⟩ := by
  have inBatch' := standing.inBatch at_
  have apart : ∀ entry ∈ (before ++ after).map Handling.entry ++ waiting, entry.id ≠ mine.id :=
    fun entry member => inBatch'.apart member
  have among : ∀ entry ∈ waiting, entry ∈ messages :=
    fun entry member => inBatch'.among entry (List.mem_append_right _ member)
  have level := side.level
  rw [at_] at level
  obtain ⟨running, at₀, aligned⟩ := level.atBatch
  obtain ⟨first, this, last, rfl, firsts, here, lasts⟩ := forall₂_split aligned.abreast
  have current := aligned.inHand _ (List.mem_append_right before (List.mem_cons_self ..)) rfl
  subst current
  cases here with
  | other differs => exact absurd rfl differs
  | mine started₀ =>
    cases side.fate with
    | @left program _ worldAlone log untouched alongside made course =>
      obtain ⟨call₀, next₀, rfl, alongside', _⟩ := alongside.own (circumstances' mine.id).outside
        ((circumstances' mine.id).outcome (batch'.log mine.id).length) inBatch'.roomy
      have mirrors := side.mirrors.aside alongside (circumstances' mine.id).outside
        ((circumstances' mine.id).outcome (batch'.log mine.id).length)
      rw [run_await, made] at course
      unfold Circumstance.serve at serves
      obtain ⟨rfl, rfl⟩ := Prod.mk.inj (Prod.mk.eta.trans serves)
      generalize next (batch'.world.answerAs (circumstances' mine.id).outside
        ((circumstances' mine.id).outcome (batch'.log mine.id).length) call).1 = rest at alongside'
      cases rest with
      | await call' next' =>
        have aligned' := @aligned_with_mine worker world mine _ waiting first last before after started₀ started apart
          firsts lasts (.await call' next')
        refine .inr ⟨0, batch, some (.await call' next'), .nil _, ?_, mirrors, ?_, ?_⟩
        · rw [at₀]
          exact .batch aligned'
        · refine .left untouched alongside' ?_ course
          rw [length_snoc, made]
          dsimp only
          rw [Function.update_self, length_snoc]
        · intro id differs
          dsimp only
          rw [Function.update_of_ne differs]
          exact side.logs id differs
      | done value =>
        rw [alongside'.twins.done] at course
        obtain ⟨error | done, ⟨⟩⟩ := value
        · exact .inl ⟨rfl, error, by rw [← course]; rfl⟩
        have begins := surroundings.begins untouched ⟨side.mirrors.sane.sound, side.mirrors.sane.grown⟩
        obtain ⟨n, batch₁, value, rest, ended, mirrors', same⟩ :=
          mine_runs surroundings now' path at₀ mirrors.symm begins
        obtain ⟨error | done, ⟨⟩⟩ := value
        · exact absurd ended (unstopped _ _ (path.append rest))
        refine .inr ⟨n, batch₁, none, rest, ?_, mirrors'.symm, .handled (by rw [← course]; rfl), ?_⟩
        · rw [ended]
          exact (aligned_without_mine apart firsts lasts).level surroundings now' among
        · intro id differs
          dsimp only
          rw [Function.update_of_ne differs, same id differs]
          exact side.logs id differs

end Step

/-- At the start of the batch nothing distinguishes the runs. -/
theorem sideBySide_start (loop : Loop) (surroundings : Surroundings worker world messages mine) (now : ℕ)
    (circumstance : Circumstance) : ∃ pairs left, SideBySide loop worker world mine circumstance pairs left
      (.start loop worker now messages world) (.start loop worker now messages world) := by
  have sane : (Region.ofMessage worker.settings world mine).Sane world := ofMessage_sane surroundings.sound
  have about := @ofMessage_about worker.settings world mine surroundings.keyed
  refine ⟨_, some (worker.handleMessage mine.id mine.fields ()), ?_, Region.Sane.mirrors ⟨sane.sound, sane.grown⟩ ?_,
    ?_, fun _ _ => .nil⟩
  · exact level_handleBatch surroundings now (fun _ member => member) (fun _ _ _ => rfl) fun _ => surroundings.member
  · exact fun taskId _ => about taskId
  · exact .left (.refl _ world) (surroundings.begins (.refl _ world) sane) rfl rfl

/-- Either `mine` has ended the batch, as it fails on its own, or another run under the first circumstances has
come equally far. -/
def HasCounterpart (loop : Loop) (worker : Worker) (now : ℕ) (messages : List StreamEntry) (world : World)
    (mine : StreamEntry) (circumstances : ℕ → Circumstance) (circumstance : Circumstance) (schedule' : List ℕ)
    (batch' : Batch) : Prop :=
  (batch'.stage = .stopped ∧ ∃ error, (alone worker circumstance world mine).1.1 = .error error) ∨
    ∃ schedule batch pairs left,
      Path (Batch.Step loop worker circumstances) (.start loop worker now messages world) schedule batch ∧
        besides mine schedule = besides mine schedule' ∧
        SideBySide loop worker world mine circumstance pairs left batch batch'

/-- Every run in which calls of `mine` come out otherwise is matched. -/
theorem hasCounterpart_run (surroundings : Surroundings worker world messages mine)
    (same : ∀ id, id ≠ mine.id → circumstances' id = circumstances id)
    (unstopped : Unstopped loop worker now messages world circumstances) {schedule' : List ℕ}
    (path' : Path (Batch.Step loop worker circumstances') (.start loop worker now messages world) schedule' batch') :
    Standing loop messages worker.settings.maxQueueDepth batch' ∧
      HasCounterpart loop worker now messages world mine circumstances (circumstances' mine.id) schedule' batch' := by
  have preserved : ∀ past batch' id batch'', Batch.Step loop worker circumstances' batch' id batch'' →
      (Standing loop messages worker.settings.maxQueueDepth batch' ∧
        HasCounterpart loop worker now messages world mine circumstances (circumstances' mine.id) past batch') →
      Standing loop messages worker.settings.maxQueueDepth batch'' ∧
        HasCounterpart loop worker now messages world mine circumstances (circumstances' mine.id) (past ++ [id])
          batch'' := by
    rintro past batch' id batch'' step ⟨standing, matched⟩
    refine ⟨standing.step step, ?_⟩
    cases step with
    | @reply before after entry started call next waiting reply world' now' at_ serves =>
      rcases matched with ⟨stopped, _⟩ | ⟨schedule, batch, pairs, left, path, order, side⟩
      · cases stopped.symm.trans at_
      by_cases own : entry.id = mine.id
      · obtain rfl := surroundings.eq_mine (standing.inBatch at_).member own
        rcases side.mine_step surroundings now' unstopped path standing at_ serves with
          failed | ⟨n, batch₁, left₁, more, side₁⟩
        · exact .inl failed
        refine .inr ⟨_, batch₁, pairs, left₁, path.append more, ?_, side₁⟩
        unfold besides at order ⊢
        rw [List.filter_append, List.filter_append, order]
        simp
      · rw [same entry.id own] at serves
        obtain ⟨batch₁, pairs₁, step₁, side₁⟩ :=
          side.other_step surroundings now' unstopped path standing at_ own serves
        refine .inr ⟨_, batch₁, pairs₁, left, path.append (.cons step₁ (.nil _)), ?_, side₁⟩
        unfold besides at order ⊢
        rw [List.filter_append, List.filter_append, order]
  apply path'.history_invariant preserved
  obtain ⟨pairs, left, side⟩ := sideBySide_start loop surroundings now (circumstances' mine.id)
  exact ⟨standing_handleBatch _ surroundings.distinct (fun _ member => member) surroundings.room,
    .inr ⟨[], _, pairs, left, .nil _, rfl, side⟩⟩

end Runs

end Isolation

end Quartr.Soundness
