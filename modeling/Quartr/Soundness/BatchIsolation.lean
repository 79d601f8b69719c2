import Quartr.Model.Sample
import Quartr.Soundness.SideBySide

/-! # One failing message and its batch

Two runs of a batch are compared, one in which a call of one message's handling raises and one in which it
does not. Whether the others take the same course to its end depends on where the call is made: one that raises
outside the `try` block of `_handle_message` ends the batch for all.
-/

namespace Quartr.Soundness

open Quartr.Machine Quartr.Model

section Isolation

variable {loop : Loop} {worker : Worker} {world : World} {messages : List StreamEntry} {mine : StreamEntry}
  {circumstances circumstances' : ℕ → Circumstance} {now : ℕ} {batch' : Batch}

/-- The other handlings have made the same calls in the same order in both runs and seen no difference, and
there is none in the world outside the region of `mine`. -/
structure SameForOthers (worker : Worker) (world : World) (mine : StreamEntry) (schedule : List ℕ) (batch : Batch)
    (schedule' : List ℕ) (batch' : Batch) : Prop where
  order : besides mine schedule = besides mine schedule'
  logs : ∀ id, id ≠ mine.id →
    List.Forall₂ (SeenAlike worker.settings.maxQueueDepth) (batch.log id) (batch'.log id)
  world : (Region.ofMessage worker.settings world mine).compl.SameOn batch.world batch'.world

/-- Whatever the order of the calls under the second circumstances, the batch comes to its end, the read loop goes
on, and for the other messages the run is the same as one under the first circumstances, to its end as well. -/
def Isolated (loop : Loop) (worker : Worker) (now : ℕ) (messages : List StreamEntry) (world : World)
    (circumstances circumstances' : ℕ → Circumstance) (mine : StreamEntry) : Prop :=
  Acc (fun later earlier => ∃ id, Batch.Step loop worker circumstances' earlier id later)
    (.start loop worker now messages world) ∧
  ∀ schedule' batch',
    Path (Batch.Step loop worker circumstances') (.start loop worker now messages world) schedule' batch' →
    (∀ id batch'', ¬ Batch.Step loop worker circumstances' batch' id batch'') →
    batch'.stage = loop.sweep ∧ ∃ schedule batch,
      Path (Batch.Step loop worker circumstances) (.start loop worker now messages world) schedule batch ∧
        batch.stage = loop.sweep ∧ SameForOthers worker world mine schedule batch schedule' batch'

/-- A batch that a run leaves by an exception has isolated nothing. -/
theorem not_isolated {schedule' : List ℕ}
    (path' : Path (Batch.Step loop worker circumstances') (.start loop worker now messages world) schedule' batch')
    (stopped : batch'.stage = .stopped) :
    ¬ Isolated loop worker now messages world circumstances circumstances' mine := by
  rintro ⟨_, isolated⟩
  have stuck : ∀ id batch'', ¬ Batch.Step loop worker circumstances' batch' id batch'' := by
    rintro id batch'' step
    cases step with
    | reply now at_ => cases stopped.symm.trans at_
  have sweeps := (isolated schedule' batch' path' stuck).1
  rw [stopped] at sweeps
  unfold Loop.sweep at sweeps
  cases sweeps

/-- Let one call of one message's handling raise, when no other call of it does and no run without that failure is
stopped, and let the message be of a task and a report of its own and the queue have room. The rest of the batch
does not notice exactly when the call is made inside the `try` block. -/
theorem failing_message_isolated (loop : Loop) (worker : Worker) (now : ℕ) (messages : List StreamEntry) (world : World)
    (failing : StreamEntry) (surroundings : Surroundings worker world messages failing)
    (circumstances : ℕ → Circumstance) (unstopped : Unstopped loop worker now messages world circumstances)
    (calm : (circumstances failing.id).Calm) (n : ℕ)
    (made : n < (alone worker (circumstances failing.id) world failing).2.2.length) (error : CallError)
    (effect : Bool) :
    Isolated loop worker now messages world circumstances
        (Function.update circumstances failing.id ((circumstances failing.id).raiseAt n error effect)) failing ↔
      Sheltered worker (circumstances failing.id) world failing n := by
  have same : ∀ id, id ≠ failing.id → Function.update circumstances failing.id
      ((circumstances failing.id).raiseAt n error effect) id = circumstances id :=
    fun id differs => Function.update_of_ne differs ..
  have counterpart {schedule' : List ℕ} {batch' : Batch} (path' : Path (Batch.Step loop worker _) _ schedule' batch') :=
    hasCounterpart_run surroundings same unstopped path'
  rw [Function.update_self] at counterpart
  constructor
  · rintro ⟨ends, isolated⟩
    by_contra unsheltered
    have fails := @unsheltered_escapes worker _ world failing n error effect calm made unsheltered
    obtain ⟨schedule', batch', path', stuck⟩ := Path.exists_end ends
    have sweeps := (isolated schedule' batch' path' stuck).1
    rcases (counterpart path').2 with ⟨stopped, _⟩ | ⟨schedule, batch, pairs, left, _, _, side⟩
    · rw [sweeps] at stopped
      unfold Loop.sweep at stopped
      cases stopped
    · have level := side.level
      rw [sweeps] at level
      obtain ⟨_, rfl⟩ := level.atSweep
      cases side.fate with
      | handled returns => cases fails.symm.trans returns
  · intro sheltered
    refine ⟨batch_ends .., fun schedule' batch' path' stuck => ?_⟩
    obtain ⟨standing, same⟩ := counterpart path'
    rcases same with ⟨_, exc, fails⟩ | ⟨schedule, batch, pairs, left, path, order, side⟩
    · cases fails.symm.trans (sheltered_returns calm sheltered)
    have level := side.level
    rcases standing.ended stuck with sweeps | stopped
    · rw [sweeps] at level
      exact ⟨sweeps, schedule, batch, path, level.atSweep.1, order, side.logs, side.mirrors.same⟩
    · rw [stopped] at level
      exact level.not_stopped.elim

/-- Every handling of the batch returns normally if its load and its acknowledgement are answered. -/
def Returning (messages : List StreamEntry) : Stage → Prop
  | .batch running waiting =>
    (∀ handling ∈ running, handling.entry ∈ messages ∧ Returns handling.rest) ∧ ∀ entry ∈ waiting, entry ∈ messages
  | .stopped => False
  | _ => True

theorem returning_handleBatch (now : ℕ) {waiting : List StreamEntry} (among : ∀ entry ∈ waiting, entry ∈ messages) :
    Returning messages (loop.handleBatch worker now waiting) := by
  have begun : ∀ entries : List StreamEntry, (∀ entry ∈ entries, entry ∈ messages) →
      ∀ handling ∈ entries.map (Handling.begin worker now), handling.entry ∈ messages ∧ Returns handling.rest := by
    intro entries among handling member
    obtain ⟨entry, present, rfl⟩ := List.mem_map.mp member
    exact ⟨among entry present, returns_handleMessage worker entry.id entry.fields⟩
  cases waiting with
  | nil => trivial
  | cons first later =>
    rw [List.forall_mem_cons] at among
    by_cases sequential : loop.concurrency = 1
    · simp only [Loop.handleBatch, sequential, ↓reduceIte]
      exact ⟨begun [first] (by simpa using among.1), among.2⟩
    · simp only [Loop.handleBatch, sequential, ↓reduceIte]
      exact ⟨begun (first :: later) (List.forall_mem_cons.mpr among), List.forall_mem_nil _⟩

/-- Nothing leaves the read loop while loads and acknowledgements are answered. -/
theorem unstopped_of_heard (heard : ∀ entry ∈ messages, ∀ made call world,
    Heard call ((circumstances entry.id).serve made call world).1) :
    Unstopped loop worker now messages world circumstances := by
  intro schedule batch path
  have preserved : ∀ batch id batch', Batch.Step loop worker circumstances batch id batch' →
      Returning messages batch.stage → Returning messages batch'.stage := by
    intro batch id batch' step returning
    cases step with
    | @reply before after entry started call next waiting reply world' now' at_ serves =>
      rw [at_] at returning
      obtain ⟨running, among⟩ := returning
      obtain ⟨befores, current, afters⟩ := List.forall_mem_append.mp running |>.imp_right List.forall_mem_cons.mp
      have answers := heard entry current.1 (batch.log entry.id).length call batch.world
      rw [serves] at answers
      have returns : Returns (next reply) := current.2 reply answers
      show Returning messages (loop.handled worker now' before ⟨entry, started, next reply⟩ after waiting)
      unfold Loop.handled
      cases replied : next reply with
      | await call' next' =>
        rw [replied] at returns
        exact ⟨List.forall_mem_append.mpr ⟨befores, List.forall_mem_cons.mpr ⟨⟨current.1, returns⟩, afters⟩⟩, among⟩
      | done result =>
        rw [replied] at returns
        obtain ⟨_, ⟨⟩⟩ := result
        obtain ⟨value, ⟨⟩⟩ := returns
        by_cases last : (before ++ after).isEmpty
        · simp only [last, ↓reduceIte]
          exact returning_handleBatch now' among
        · simp only [last, Bool.false_eq_true, ↓reduceIte]
          exact ⟨List.forall_mem_append.mpr ⟨befores, afters⟩, among⟩
  have returning := path.invariant preserved (returning_handleBatch now fun _ member => member)
  intro stopped
  rw [stopped] at returning
  exact returning

end Isolation

/-! ### Two messages -/

def queuedEntry : StreamEntry := ⟨0, [("task_id", "task-0")]⟩

def otherEntry : StreamEntry := ⟨1, [("task_id", "task-1")]⟩

def loopOf (concurrency : ℕ) : Loop := ⟨⟨10, 30000⟩, "worker-0", concurrency⟩

/-- A task for each of two years is queued. -/
def bothYears : World :=
  { Sample.queued 2024 with
    tasks := Function.update (Sample.queued 2024).tasks "task-1"
      (some { ReportTask.fresh "task-1" (Sample.identity 2023) false with state := .queued })
    stream := [Entry.new "task-0", Entry.new "task-1"] }

def allAnswered : ℕ → Circumstance := fun _ => ⟨Sample.outside, fun _ => .answered⟩

/-- One call of the first message's handling raises. -/
def oneRaised (n : ℕ) : ℕ → Circumstance :=
  Function.update allAnswered queuedEntry.id ((allAnswered queuedEntry.id).raiseAt n (.other "ConnectionError") false)

theorem bothYears_keyed : bothYears.Keyed := by
  intro taskId task present
  by_cases second : taskId = "task-1"
  · subst second
    cases present
    rfl
  by_cases first : taskId = "task-0"
  · subst first
    cases present
    rfl
  · have none : bothYears.tasks taskId = none := by
      simp only [bothYears, Sample.queued, Function.update_of_ne second, Function.update_of_ne first]
      rfl
    cases none.symm.trans present

theorem bothYears_surroundings : Surroundings (Sample.worker 4) bothYears [queuedEntry, otherEntry] queuedEntry := by
  constructor
  · decide
  · exact List.mem_cons_self ..
  · decide
  · constructor
    · intro path file found
      cases found
    · intro path path' file found
      cases found
  · exact bothYears_keyed
  · intro entry member differs
    rcases List.mem_cons.mp member with rfl | member
    · exact absurd rfl differs
    obtain rfl := List.mem_singleton.mp member
    rintro _ _ ⟨⟩ ⟨⟩
    refine ⟨by decide, ?_⟩
    rintro _ _ ⟨⟩ ⟨⟩
    exact .inr (.inr (by decide))
  · decide

theorem allAnswered_unstopped (concurrency : ℕ) :
    Unstopped (loopOf concurrency) (Sample.worker 4) 0 [queuedEntry, otherEntry] bothYears allAnswered :=
  unstopped_of_heard fun _ _ _ call world => heard_reply world Sample.outside call

/-- The first write of `process_task` raises. -/
theorem failing_message_isolated_write : Isolated (loopOf 2) (Sample.worker 4) 0 [queuedEntry, otherEntry] bothYears
    allAnswered (oneRaised 1) queuedEntry := by
  have made : 1 < (alone (Sample.worker 4) (allAnswered 0) bothYears queuedEntry).2.2.length := by decide +kernel
  have sheltered : Sheltered (Sample.worker 4) (allAnswered 0) bothYears queuedEntry 1 := by
    refine ⟨"task-0", { ReportTask.fresh "task-0" (Sample.identity 2024) false with state := .queued }, rfl,
      by decide, rfl, Nat.le_refl 1, ?_⟩
    decide +kernel
  exact (failing_message_isolated (loopOf 2) (Sample.worker 4) 0 [queuedEntry, otherEntry] bothYears queuedEntry
    bothYears_surroundings allAnswered (allAnswered_unstopped 2) (fun _ => rfl) 1 made (.other "ConnectionError")
    false).mpr sheltered

/-- The load of the first record raises, and that one reply stops the loop before the other message has got any. -/
theorem failedLoad_stops (concurrency : ℕ) : ∃ batch,
    Path (Batch.Step (loopOf concurrency) (Sample.worker 4) (oneRaised 0))
      (.start (loopOf concurrency) (Sample.worker 4) 0 [queuedEntry, otherEntry] bothYears) [0] batch ∧
      batch.stage = .stopped ∧ batch.log 1 = [] := by
  by_cases sequential : concurrency = 1
  · subst sequential
    have at_ : (Batch.start (loopOf 1) (Sample.worker 4) 0 [queuedEntry, otherEntry] bothYears).stage =
        .batch ([] ++ .begin (Sample.worker 4) 0 queuedEntry :: []) [otherEntry] := rfl
    exact ⟨_, .cons (.reply 0 at_ (Prod.mk.eta).symm) (.nil _), rfl, rfl⟩
  · have at_ : (Batch.start (loopOf concurrency) (Sample.worker 4) 0 [queuedEntry, otherEntry] bothYears).stage =
        .batch ([] ++ .begin (Sample.worker 4) 0 queuedEntry :: [.begin (Sample.worker 4) 0 otherEntry]) [] := by
      simp only [Batch.start, Loop.handleBatch, loopOf, sequential, ↓reduceIte]
      rfl
    exact ⟨_, .cons (.reply 0 at_ (Prod.mk.eta).symm) (.nil _), rfl, rfl⟩

/-- One load that raises is enough, one message after another as well as all at once, though the messages have
nothing in common, no other call raises, and the batch is handled to its end if that one does not either. -/
theorem batch_lost :
    Surroundings (Sample.worker 4) bothYears [queuedEntry, otherEntry] queuedEntry ∧
    (∀ id, (allAnswered id).Calm) ∧ 0 < (alone (Sample.worker 4) (allAnswered 0) bothYears queuedEntry).2.2.length ∧
    ∀ concurrency,
      Unstopped (loopOf concurrency) (Sample.worker 4) 0 [queuedEntry, otherEntry] bothYears allAnswered ∧
      ¬ Isolated (loopOf concurrency) (Sample.worker 4) 0 [queuedEntry, otherEntry] bothYears allAnswered (oneRaised 0)
        queuedEntry ∧
      ∃ batch, Path (Batch.Step (loopOf concurrency) (Sample.worker 4) (oneRaised 0))
        (.start (loopOf concurrency) (Sample.worker 4) 0 [queuedEntry, otherEntry] bothYears) [0] batch ∧
        batch.stage = .stopped ∧ batch.log 1 = [] := by
  refine ⟨bothYears_surroundings, fun _ _ => rfl, by decide +kernel, fun concurrency => ?_⟩
  obtain ⟨batch, path, stopped, untouched⟩ := failedLoad_stops concurrency
  exact ⟨allAnswered_unstopped concurrency, not_isolated path stopped, batch, path, stopped, untouched⟩

/-! ### A queue without room -/

/-- The depth that a call has been told. -/
def depthSeen : (Σ call, calls.Reply call) → Option ℕ
  | ⟨.xlen, .ok depth⟩ => some depth
  | _ => none

/-- Who sees the queue at capacity sees a difference. -/
theorem full_seen {capacity : ℕ} {log log' : Log calls} (alike : List.Forall₂ (SeenAlike capacity) log log')
    (full : capacity ∈ log'.filterMap depthSeen) : capacity ∈ log.filterMap depthSeen := by
  induction alike with
  | nil => exact full
  | @cons served served' log log' seen _ ih =>
    rw [List.mem_filterMap] at full ⊢
    simp only [List.mem_cons, exists_eq_or_imp] at full ⊢
    rcases full with here | later
    · left
      cases seen with
      | same => exact here
      | depth below below' => exact absurd (Option.some.inj here) (Nat.ne_of_lt below')
      | opened => cases here
      | written => cases here
    · right
      exact List.mem_filterMap.mp (ih (List.mem_filterMap.mpr later))

/-- SEC is overloaded when the second message is handled. -/
def secondRetried : ℕ → Circumstance :=
  Function.update allAnswered otherEntry.id
    ⟨{ Sample.outside with submissions := fun _ => .error (.transientSec "SEC 503") }, fun _ => .answered⟩

def secondRetriedRaised : ℕ → Circumstance :=
  Function.update secondRetried queuedEntry.id
    ((secondRetried queuedEntry.id).raiseAt 1 (.other "ConnectionError") false)

/-- The messages are handled in turn, in a queue that they fill. -/
def inTurn (circumstances : ℕ → Circumstance) (n : ℕ) : Batch :=
  (nextCall (loopOf 1) (Sample.worker 2) circumstances)^[n]
    (.start (loopOf 1) (Sample.worker 2) 0 [queuedEntry, otherEntry] bothYears)

def isOver (batch : Batch) : Bool :=
  match batch.stage with
  | .batch _ _ => false
  | _ => true

theorem over_of_isOver {batch : Batch} (finished : isOver batch = true) :
    ∀ running waiting, batch.stage ≠ .batch running waiting := by
  intro running waiting at_
  rw [isOver, at_] at finished
  cases finished

/-- The room is needed: with a queue of two, the first message's entry stays when the first write of its handling
raises, and the retry of the second is refused. -/
theorem crowded_batch_noticed :
    (∀ id, (secondRetried id).Calm) ∧ Sheltered (Sample.worker 2) (secondRetried 0) bothYears queuedEntry 1 ∧
      ¬ Isolated (loopOf 1) (Sample.worker 2) 0 [queuedEntry, otherEntry] bothYears secondRetried secondRetriedRaised
        queuedEntry := by
  refine ⟨?_, ?_, ?_⟩
  · intro id
    by_cases second : id = otherEntry.id
    · subst second
      exact fun _ => rfl
    · rw [secondRetried, Function.update_of_ne second]
      exact fun _ => rfl
  · refine ⟨"task-0", { ReportTask.fresh "task-0" (Sample.identity 2024) false with state := .queued }, rfl,
      by decide, rfl, Nat.le_refl 1, ?_⟩
    decide +kernel
  · rintro ⟨_, isolated⟩
    have finished : isOver (inTurn secondRetried 30) = true := by decide +kernel
    have finished' : isOver (inTurn secondRetriedRaised 12) = true := by decide +kernel
    have full : 2 ∈ ((inTurn secondRetriedRaised 12).log 1).filterMap depthSeen := by decide +kernel
    have free : 2 ∉ ((inTurn secondRetried 30).log 1).filterMap depthSeen := by decide +kernel
    obtain ⟨schedule', path'⟩ := nextCall_path (loopOf 1) (Sample.worker 2) secondRetriedRaised
      (.start (loopOf 1) (Sample.worker 2) 0 [queuedEntry, otherEntry] bothYears) 12
    have stuck : ∀ id batch'', ¬ Batch.Step (loopOf 1) (Sample.worker 2) secondRetriedRaised
        (inTurn secondRetriedRaised 12) id batch'' := by
      rintro id batch'' step
      cases step with
      | reply now at_ => exact over_of_isOver finished' _ _ at_
    obtain ⟨_, schedule, batch, path, sweeps, same⟩ := isolated schedule' _ path' stuck
    have only := nextCall_run rfl path
    have swept : ∀ running waiting, batch.stage ≠ .batch running waiting := by
      rw [sweeps]
      unfold Loop.sweep
      exact fun _ _ same => by cases same
    have ended : inTurn secondRetried schedule.length = inTurn secondRetried 30 := by
      refine nextCall_end ?_ (over_of_isOver finished)
      rw [only.stage.after swept]
      exact swept
    have seen := full_seen (same.logs 1 (by decide)) full
    rw [only.log] at seen
    exact free (ended ▸ seen)

end Quartr.Soundness
