import Mathlib.Algebra.BigOperators.Group.List.Basic
import Mathlib.Algebra.Order.BigOperators.Group.List
import Mathlib.Algebra.Order.Group.Nat
import Mathlib.Data.List.Nodup
import Mathlib.Logic.Hydra
import Mathlib.Tactic.Abel
import Quartr.Model.Batch
import Quartr.Soundness.Backlog

/-! # What holds in every run of a batch

Every message of a batch waits its turn, is being handled or has been handled, and each of them takes one
more place in the queue at most. No batch goes on for ever, and one that is handled message by message has one
run only.
-/

namespace Quartr.Soundness

open Quartr.Machine Quartr.Model

/-! ### One more entry at most -/

/-- The entries that a handling may still add. -/
def HandlingPhase.spare : HandlingPhase → ℕ
  | .fresh => 1
  | .loaded _ => 1
  | .running _ _ => 1
  | .retrying _ => 1
  | .queued _ => 1
  | .measured _ => 1
  | _ => 0

section Spare

variable {phase phase' : HandlingPhase} {call : Call} {reply : calls.Reply call}

theorem spare_orBroken (reply : calls.Reply call) (saved : ReportTask) (phase : HandlingPhase) :
    (orBroken reply saved phase).spare ≤ phase.spare := by
  cases reply with
  | ok answer => exact le_rfl
  | error error => exact Nat.zero_le _

theorem spare_orStopped (reply : calls.Reply call) (phase : HandlingPhase) :
    (orStopped reply phase).spare ≤ phase.spare := by
  cases reply with
  | ok answer => exact le_rfl
  | error error => exact Nat.zero_le _

theorem spare_entering (task : ReportTask) : (HandlingPhase.entering task).spare = 1 := by
  unfold HandlingPhase.entering
  split_ifs <;> rfl

theorem spare_recovering (settings : Settings) (task : ReportTask) :
    (HandlingPhase.recovering settings task).spare = 0 := by
  simp only [HandlingPhase.recovering]
  split_ifs <;> rfl

theorem spare_bookkept (original : ReportIdentity) (saved : ReportTask) :
    (HandlingPhase.bookkept original saved).spare = 0 := by
  simp only [HandlingPhase.bookkept]
  split_ifs <;> rfl

/-- The depth is asked for while an entry may still be added, and adding it leaves none to add. -/
theorem HandlingStep.spares {worker : Worker} {entry : ℕ} {taskId : TaskId}
    (step : HandlingStep worker entry taskId phase call reply phase') :
    phase'.spare ≤ phase.spare ∧ (call.asksDepth = true → phase.spare = 1) ∧
      ∀ added, call = .xadd added → phase'.spare < phase.spare := by
  cases step with
  | load task =>
    rw [spare_entering]
    exact ⟨le_rfl, nofun, nofun⟩
  | start | complete | release | fail | clear | retry | requeue =>
    exact ⟨(spare_orBroken ..).trans (by simp [HandlingPhase.spare]), nofun, nofun⟩
  | bury | forget | ack => exact ⟨(spare_orStopped ..).trans (by simp [HandlingPhase.spare]), nofun, nofun⟩
  | pipeline task stored call reply outside =>
    refine ⟨le_rfl, fun _ => rfl, ?_⟩
    rintro added rfl
    exact outside.elim
  | publish original saved filing path filed stored reply =>
    refine ⟨?_, nofun, nofun⟩
    cases reply with
    | ok answer => exact (spare_bookkept ..).le
    | error error => exact le_rfl
  | measure => exact ⟨le_rfl, fun _ => rfl, nofun⟩
  | overfull => exact ⟨Nat.zero_le _, fun _ => rfl, nofun⟩
  | enqueue saved reply =>
    have spent : (orBroken reply saved .finished).spare ≤ 0 := spare_orBroken ..
    exact ⟨spent.trans (Nat.zero_le _), nofun, fun _ _ => Nat.lt_of_le_of_lt spent Nat.one_pos⟩
  | reread =>
    rw [spare_recovering]
    exact ⟨Nat.zero_le _, nofun, nofun⟩
  | _ => exact ⟨Nat.zero_le _, nofun, nofun⟩

end Spare

/-- The rest of a handling may still add that many entries. -/
def Frugal (spare : ℕ) (program : Program calls (Except Err Unit × Unit)) : Prop :=
  ∃ worker entry taskId phase, program.Follows (HandlingStep worker entry taskId) (fun _ _ => True) phase ∧
    phase.spare = spare

section Frugal

variable {spare : ℕ} {call : Call} {next : calls.Reply call → Program calls (Except Err Unit × Unit)}

/-- A call takes a place in the queue only from what its handling may still add. -/
theorem Frugal.step (frugal : Frugal spare (.await call next)) (reply : calls.Reply call) (world : World) :
    (call.asksDepth = true → spare = 1) ∧
      ∃ spare', Frugal spare' (next reply) ∧ (world.after call).depth + spare' ≤ world.depth + spare ∧
        spare' ≤ spare := by
  obtain ⟨worker, entry, taskId, phase, follows, rfl⟩ := frugal
  obtain ⟨phase', step, rest⟩ := follows reply
  obtain ⟨less, asks, adds⟩ := step.spares
  refine ⟨asks, phase'.spare, ⟨worker, entry, taskId, phase', rest, rfl⟩, ?_, less⟩
  rcases depth_after world call with fewer | ⟨⟨added, same⟩, more⟩
  · omega
  · have spent := adds added same
    omega

/-- A handling that has not begun may add one. -/
theorem frugal_handleMessage (worker : Worker) (entry : ℕ) (fields : List (String × String)) :
    ∃ spare ≤ 1, Frugal spare (worker.handleMessage entry fields ()) := by
  have follows := @handleMessage_follows worker entry ((fieldsTaskId fields).getD "") fields () (by
    intro name named
    rw [named, Option.getD_some])
  refine ⟨_, ?_, worker, entry, _, _, Program.Follows.mono follows fun _ _ _ => trivial, rfl⟩
  rcases HandlingPhase.initial_cases fields with same | same <;> rw [same] <;> decide

end Frugal

/-! ### All the handlings of a batch -/

/-- Together the handlings may still add that many entries. -/
inductive Affords : List Handling → ℕ → Prop
  | nil : Affords [] 0
  | cons {handling : Handling} {later : List Handling} {spare more : ℕ} (frugal : Frugal spare handling.rest)
      (rest : Affords later more) : Affords (handling :: later) (spare + more)

theorem affords_append {before after : List Handling} {spare : ℕ} : Affords (before ++ after) spare ↔
    ∃ first second, Affords before first ∧ Affords after second ∧ spare = first + second := by
  induction before generalizing spare with
  | nil =>
    constructor
    · exact fun affords => ⟨0, spare, .nil, affords, (Nat.zero_add spare).symm⟩
    · rintro ⟨_, second, ⟨⟩, affords, rfl⟩
      rw [Nat.zero_add]
      exact affords
  | cons handling before ih =>
    constructor
    · rintro (_ | ⟨frugal, rest⟩)
      obtain ⟨first, second, left, right, rfl⟩ := ih.mp rest
      exact ⟨_, second, .cons frugal left, right, (Nat.add_assoc ..).symm⟩
    · rintro ⟨_, second, (_ | ⟨frugal, left⟩), right, rfl⟩
      rw [Nat.add_assoc]
      exact .cons frugal (ih.mpr ⟨_, second, left, right, rfl⟩)

section Standing

variable {loop : Loop} {worker : Worker} {messages : List StreamEntry} {capacity now : ℕ}
  {circumstances : ℕ → Circumstance}

/-- No message is being handled twice, and there is room in the queue for what the handlings may add. -/
structure InBatch (messages : List StreamEntry) (capacity : ℕ) (world : World) (running : List Handling)
    (waiting : List StreamEntry) : Prop where
  nonempty : running ≠ []
  distinct : ((running.map Handling.entry ++ waiting).map StreamEntry.id).Nodup
  among : ∀ entry ∈ running.map Handling.entry ++ waiting, entry ∈ messages
  unfinished : ∀ handling ∈ running, handling.rest.call? ≠ none
  room : ∃ spare, Affords running spare ∧ world.depth + spare + waiting.length ≤ capacity

/-- What holds at each stage of the loop while the batch is handled. -/
def Standing (loop : Loop) (messages : List StreamEntry) (capacity : ℕ) (batch : Batch) : Prop :=
  match batch.stage with
  | .batch running waiting => InBatch messages capacity batch.world running waiting
  | .sweeping rest => .sweeping rest = loop.sweep
  | .stopped => True
  | _ => False

/-- Every handling starts with a call. -/
theorem begin_unfinished (worker : Worker) (now : ℕ) (entry : StreamEntry) :
    (Handling.begin worker now entry).rest.call? ≠ none := by
  simp only [Handling.begin]
  unfold Worker.handleMessage
  cases fieldsTaskId entry.fields with
  | none => exact Option.some_ne_none _
  | some taskId =>
    by_cases nameless : taskId = ""
    · simp only [nameless, ↓reduceIte]
      exact Option.some_ne_none _
    · simp only [nameless, ↓reduceIte]
      exact Option.some_ne_none _

theorem affords_begin (worker : Worker) (now : ℕ) (entries : List StreamEntry) :
    ∃ spare ≤ entries.length, Affords (entries.map (Handling.begin worker now)) spare := by
  induction entries with
  | nil => exact ⟨0, Nat.le_refl 0, .nil⟩
  | cons entry rest ih =>
    obtain ⟨more, bounded, affords⟩ := ih
    obtain ⟨spare, one, frugal⟩ := frugal_handleMessage worker entry.id entry.fields
    refine ⟨spare + more, ?_, .cons frugal affords⟩
    rw [List.length_cons]
    omega

/-- The entries that wait are begun, one or all of them, or there is nothing left to handle. -/
theorem standing_handleBatch {world : World} {waiting : List StreamEntry} (log : ℕ → List (Σ call, calls.Reply call))
    (distinct : (waiting.map StreamEntry.id).Nodup) (among : ∀ entry ∈ waiting, entry ∈ messages)
    (room : world.depth + waiting.length ≤ capacity) :
    Standing loop messages capacity ⟨loop.handleBatch worker now waiting, world, log⟩ := by
  cases waiting with
  | nil => exact rfl
  | cons first later =>
    have begun : ∀ entries : List StreamEntry,
        ∀ handling ∈ entries.map (Handling.begin worker now), handling.rest.call? ≠ none := by
      intro entries handling member
      obtain ⟨entry, _, rfl⟩ := List.mem_map.mp member
      exact begin_unfinished worker now entry
    by_cases sequential : loop.concurrency = 1
    · simp only [Loop.handleBatch, sequential, ↓reduceIte]
      obtain ⟨spare, bounded, affords⟩ := affords_begin worker now [first]
      refine ⟨List.cons_ne_nil _ _, distinct, among, begun [first], spare, affords, ?_⟩
      rw [List.length_cons] at room
      rw [List.length_singleton] at bounded
      show world.depth + spare + later.length ≤ capacity
      omega
    · have entries : ((first :: later).map (Handling.begin worker now)).map Handling.entry ++ [] =
          first :: later := by
        rw [List.map_map, List.append_nil]
        exact List.map_id _
      simp only [Loop.handleBatch, sequential, ↓reduceIte]
      obtain ⟨spare, bounded, affords⟩ := affords_begin worker now (first :: later)
      refine ⟨List.cons_ne_nil _ _, by rw [entries]; exact distinct, by rw [entries]; exact among,
        begun (first :: later), spare, affords, ?_⟩
      show world.depth + spare + 0 ≤ capacity
      omega

theorem Standing.inBatch {batch : Batch} {running : List Handling} {waiting : List StreamEntry}
    (standing : Standing loop messages capacity batch) (at_ : batch.stage = .batch running waiting) :
    InBatch messages capacity batch.world running waiting := by
  unfold Standing at standing
  rw [at_] at standing
  exact standing

section Step

variable {world : World} {before after : List Handling} {current : Handling} {waiting : List StreamEntry}

/-- Apart from the handling that gets a reply the entries are as they were, and none of them is its own. -/
theorem InBatch.others (inBatch : InBatch messages capacity world (before ++ current :: after) waiting) :
    (current.entry.id :: ((before ++ after).map Handling.entry ++ waiting).map StreamEntry.id).Nodup := by
  have distinct := inBatch.distinct
  simp only [List.map_append, List.map_cons, List.append_assoc, List.cons_append] at distinct ⊢
  exact List.nodup_middle.mp distinct

theorem InBatch.member (inBatch : InBatch messages capacity world (before ++ current :: after) waiting) :
    current.entry ∈ messages :=
  inBatch.among current.entry (by simp)

/-- None of the others has its entry. -/
theorem InBatch.apart (inBatch : InBatch messages capacity world (before ++ current :: after) waiting)
    {other : StreamEntry} (member : other ∈ (before ++ after).map Handling.entry ++ waiting) :
    other.id ≠ current.entry.id :=
  fun same => (List.nodup_cons.mp inBatch.others).1 (same ▸ List.mem_map_of_mem member)

/-- When the depth is asked for, the queue is not at capacity. -/
theorem InBatch.roomy {entry : StreamEntry} {started : ℕ} {call : Call}
    {next : calls.Reply call → Program calls (Except Err Unit × Unit)}
    (inBatch : InBatch messages capacity world (before ++ ⟨entry, started, .await call next⟩ :: after) waiting)
    (asks : call.asksDepth = true) : world.depth < capacity := by
  obtain ⟨spare, affords, room⟩ := inBatch.room
  obtain ⟨first, second, _, (_ | ⟨frugal, _⟩), rfl⟩ := affords_append.mp affords
  have one := (frugal.step (.error (.other "")) world).1 asks
  omega

/-- One reply keeps the standing: the handling that got it goes on, or has come to its end, or has failed. -/
theorem Standing.step {batch batch' : Batch} {id : ℕ} (standing : Standing loop messages capacity batch)
    (step : Batch.Step loop worker circumstances batch id batch') : Standing loop messages capacity batch' := by
  cases step with
  | @reply before after entry started call next waiting reply world now at_ serves =>
    have inBatch := standing.inBatch at_
    -- What the handling may still add, with what the call has added.
    have room : ∃ first spare second, Affords before first ∧ Frugal spare (next reply) ∧ Affords after second ∧
        world.depth + (first + (spare + second)) + waiting.length ≤ capacity := by
      obtain ⟨spares, affords, room⟩ := inBatch.room
      obtain ⟨first, _, left, (_ | @⟨_, _, spare, second, frugal, right⟩), rfl⟩ := affords_append.mp affords
      obtain ⟨_, spare', frugal', spent, fewer⟩ := frugal.step reply batch.world
      refine ⟨first, spare', second, left, frugal', right, ?_⟩
      have served : world = ((circumstances entry.id).serve (batch.log entry.id).length call batch.world).2 := by
        rw [serves]
      rw [Circumstance.serve, World.answerAs_world] at served
      split at served
      · subst served
        omega
      · subst served
        omega
    obtain ⟨first, spare, second, left, frugal, right, room⟩ := room
    unfold Loop.handled
    cases replied : next reply with
    | await call' next' =>
      have distinct := inBatch.distinct
      have among := inBatch.among
      simp only [List.map_append, List.map_cons] at distinct among
      rw [replied] at frugal
      refine ⟨by simp, by simpa using distinct, by simpa using among, ?_, _,
        affords_append.mpr ⟨first, _, left, .cons frugal right, rfl⟩, room⟩
      intro handling member
      rcases List.mem_append.mp member with member | member
      · exact inBatch.unfinished handling (List.mem_append_left _ member)
      rcases List.mem_cons.mp member with rfl | member
      · exact Option.some_ne_none _
      · exact inBatch.unfinished handling (List.mem_append_right _ (List.mem_cons_of_mem _ member))
    | done value =>
      obtain ⟨error | done, ⟨⟩⟩ := value
      · trivial
      have distinct := (List.nodup_cons.mp inBatch.others).2
      have among : ∀ other ∈ (before ++ after).map Handling.entry ++ waiting, other ∈ messages := by
        intro other member
        apply inBatch.among
        simp only [List.map_append, List.map_cons, List.mem_append, List.mem_cons] at member ⊢
        rcases member with (member | member) | member <;> simp [member]
      by_cases last : (before ++ after).isEmpty
      · have empty := List.isEmpty_iff.mp last
        rw [empty] at distinct among
        simp only [last, ↓reduceIte]
        exact standing_handleBatch _ distinct among (by omega)
      · simp only [last, Bool.false_eq_true, ↓reduceIte]
        refine ⟨fun empty => last (List.isEmpty_iff.mpr empty), distinct, among, ?_, first + second,
          affords_append.mpr ⟨first, second, left, right, rfl⟩, ?_⟩
        swap
        · show world.depth + (first + second) + waiting.length ≤ capacity
          omega
        intro handling member
        rcases List.mem_append.mp member with member | member
        · exact inBatch.unfinished handling (List.mem_append_left _ member)
        · exact inBatch.unfinished handling (List.mem_append_right _ (List.mem_cons_of_mem _ member))

end Step

/-- With room for an entry from each message the queue does not fill up. -/
theorem standing_run (distinct : (messages.map StreamEntry.id).Nodup) {world : World}
    (room : world.depth + messages.length ≤ capacity) {schedule : List ℕ} {batch : Batch}
    (path : Path (Batch.Step loop worker circumstances) (.start loop worker now messages world) schedule batch) :
    Standing loop messages capacity batch := by
  have preserved : ∀ batch id batch', Batch.Step loop worker circumstances batch id batch' →
      Standing loop messages capacity batch → Standing loop messages capacity batch' :=
    fun batch id batch' step standing => standing.step step
  exact path.invariant preserved (standing_handleBatch _ distinct (fun _ member => member) room)

/-- Where nothing more can happen the loop goes on, or it has been left. -/
theorem Standing.ended {batch : Batch} (standing : Standing loop messages capacity batch)
    (stuck : ∀ id batch', ¬ Batch.Step loop worker circumstances batch id batch') :
    batch.stage = loop.sweep ∨ batch.stage = .stopped := by
  unfold Standing at standing
  cases at_ : batch.stage with
  | sweeping rest =>
    rw [at_] at standing
    exact .inl standing
  | stopped => exact .inr rfl
  | batch running waiting =>
    rw [at_] at standing
    cases running with
    | nil => exact absurd rfl standing.nonempty
    | cons first later =>
      obtain ⟨entry, started, rest⟩ := first
      have unfinished := standing.unfinished _ (List.mem_cons_self ..)
      cases rest with
      | done value => exact absurd rfl unfinished
      | await call next =>
        have first : batch.stage = .batch ([] ++ ⟨entry, started, .await call next⟩ :: later) waiting := at_
        exact absurd (Batch.Step.reply 0 first rfl) (stuck _ _)
  | reclaiming current waiting =>
    rw [at_] at standing
    exact standing.elim
  | reading rest =>
    rw [at_] at standing
    exact standing.elim

end Standing

/-! ### No batch goes on for ever -/

section Ends

variable {loop : Loop} {worker : Worker} {circumstances : ℕ → Circumstance}

/-- One program is what is left of the other after a reply. -/
def Shorter (rest program : Program calls (Except Err Unit × Unit)) : Prop :=
  ∃ call next reply, program = .await call next ∧ rest = next reply

theorem shorter_wellFounded : WellFounded Shorter := by
  constructor
  intro program
  induction program with
  | done value =>
    constructor
    rintro rest ⟨call, next, reply, ⟨⟩, _⟩
  | await call next ih =>
    constructor
    rintro rest ⟨_, _, reply, ⟨⟩, rfl⟩
    exact ih reply

/-- What is left to do at a stage of the batch. -/
def leftover (worker : Worker) : Stage → Multiset (Program calls (Except Err Unit × Unit))
  | .batch running waiting =>
    (running.map Handling.rest ++ waiting.map fun entry => worker.handleMessage entry.id entry.fields ())
  | _ => 0

theorem leftover_handleBatch (now : ℕ) (waiting : List StreamEntry) :
    leftover worker (loop.handleBatch worker now waiting) =
      (waiting.map fun entry => worker.handleMessage entry.id entry.fields () : List _) := by
  cases waiting with
  | nil => rfl
  | cons first later =>
    by_cases sequential : loop.concurrency = 1
    · simp only [Loop.handleBatch, sequential, ↓reduceIte]
      rfl
    · simp only [Loop.handleBatch, sequential, ↓reduceIte, leftover, List.map_map, List.map_nil, List.append_nil]
      rfl

/-- A step leaves less to do, or ends the batch. -/
theorem step_shortens {batch batch' : Batch} {id : ℕ}
    (step : Batch.Step loop worker circumstances batch id batch') : batch'.stage = .stopped ∨
      Relation.CutExpand Shorter (leftover worker batch'.stage) (leftover worker batch.stage) := by
  cases step with
  | @reply before after entry started call next waiting reply world now at_ serves =>
    rw [at_]
    have shorter : Shorter (next reply) (.await call next) := ⟨call, next, reply, rfl, rfl⟩
    unfold Loop.handled
    cases replied : next reply with
    | await call' next' =>
      rw [replied] at shorter
      refine .inr ⟨{.await call' next'}, .await call next, ?_, ?_⟩
      · intro rest member
        rw [Multiset.mem_singleton.mp member]
        exact shorter
      · simp only [leftover, List.map_append, List.map_cons, ← Multiset.coe_add, ← Multiset.cons_coe,
          ← Multiset.singleton_add]
        abel
    | done value =>
      obtain ⟨error | done, ⟨⟩⟩ := value
      · exact .inl rfl
      refine .inr ⟨0, .await call next, fun rest none => absurd none (Multiset.notMem_zero rest), ?_⟩
      by_cases last : (before ++ after).isEmpty
      · obtain ⟨rfl, rfl⟩ := List.append_eq_nil_iff.mp (List.isEmpty_iff.mp last)
        simp only [last, ↓reduceIte, leftover_handleBatch]
        simp only [leftover, List.map_nil, List.map_cons, List.nil_append, List.cons_append, ← Multiset.cons_coe,
          ← Multiset.singleton_add]
        abel
      · simp only [last, Bool.false_eq_true, ↓reduceIte]
        simp only [leftover, List.map_append, List.map_cons, ← Multiset.coe_add, ← Multiset.cons_coe,
          ← Multiset.singleton_add]
        abel

/-- The batch comes to an end, whatever the order of the replies. -/
theorem batch_ends (loop : Loop) (worker : Worker) (circumstances : ℕ → Circumstance) (batch : Batch) :
    Acc (fun later earlier => ∃ id, Batch.Step loop worker circumstances earlier id later) batch := by
  have less := shorter_wellFounded.cutExpand.apply (leftover worker batch.stage)
  generalize rest : leftover worker batch.stage = left at less
  induction less generalizing batch with
  | intro left _ ih =>
    subst rest
    constructor
    rintro batch' ⟨id, step⟩
    rcases step_shortens step with stopped | shorter
    · constructor
      rintro batch'' ⟨id', next⟩
      cases next with
      | reply now at_ => cases stopped.symm.trans at_
    · exact ih _ shorter batch' rfl

end Ends

/-! ### One message after another -/

section Turns

variable {loop : Loop} {worker : Worker} {circumstances : ℕ → Circumstance}

/-- The next call of a batch that handles one message after another. -/
def nextCall (loop : Loop) (worker : Worker) (circumstances : ℕ → Circumstance) (batch : Batch) : Batch :=
  match batch.stage with
  | .batch [⟨entry, started, .await call next⟩] waiting =>
    let served := (circumstances entry.id).serve (batch.log entry.id).length call batch.world
    ⟨loop.handled worker 0 [] ⟨entry, started, next served.1⟩ [] waiting, served.2,
      Function.update batch.log entry.id (batch.log entry.id ++ [⟨call, served.1⟩])⟩
  | _ => batch

/-- The stages differ in when the one handling began, at most. -/
inductive SameStage : Stage → Stage → Prop
  | batch (entry : StreamEntry) (started started' : ℕ) (rest : Program calls (Except Err Unit × Unit))
      (waiting : List StreamEntry) :
      SameStage (.batch [⟨entry, started, rest⟩] waiting) (.batch [⟨entry, started', rest⟩] waiting)
  | passed {stage : Stage} (left : ∀ running waiting, stage ≠ .batch running waiting) : SameStage stage stage

structure SameBatch (batch batch' : Batch) : Prop where
  stage : SameStage batch.stage batch'.stage
  world : batch.world = batch'.world
  log : batch.log = batch'.log

theorem sameStage_handleBatch (one : loop.concurrency = 1) (now now' : ℕ) (waiting : List StreamEntry) :
    SameStage (loop.handleBatch worker now waiting) (loop.handleBatch worker now' waiting) := by
  cases waiting with
  | nil =>
    apply SameStage.passed
    unfold Loop.handleBatch Loop.sweep
    exact fun _ _ same => by cases same
  | cons first later =>
    simp only [Loop.handleBatch, one, ↓reduceIte]
    exact .batch ..

theorem sameStage_handled (one : loop.concurrency = 1) (now now' : ℕ) {entry : StreamEntry} {started started' : ℕ}
    {rest : Program calls (Except Err Unit × Unit)} {waiting : List StreamEntry} :
    SameStage (loop.handled worker now [] ⟨entry, started, rest⟩ [] waiting)
      (loop.handled worker now' [] ⟨entry, started', rest⟩ [] waiting) := by
  cases rest with
  | await call next => exact .batch ..
  | done value =>
    obtain ⟨error | done, ⟨⟩⟩ := value
    · exact .passed fun _ _ same => by cases same
    · exact sameStage_handleBatch one now now' waiting

theorem SameStage.atBatch {running : List Handling} {waiting : List StreamEntry} {stage : Stage}
    (same : SameStage (.batch running waiting) stage) : ∃ entry started started' rest,
      running = [⟨entry, started, rest⟩] ∧ stage = .batch [⟨entry, started', rest⟩] waiting := by
  generalize there : Stage.batch running waiting = stage' at same
  cases same with
  | batch entry started started' rest waiting =>
    cases there
    exact ⟨entry, started, started', rest, rfl, rfl⟩
  | passed left => exact absurd there.symm (left _ _)

theorem SameStage.after {stage stage' : Stage} (same : SameStage stage stage')
    (finished : ∀ running waiting, stage ≠ .batch running waiting) : stage' = stage := by
  cases same with
  | batch => exact absurd rfl (finished _ _)
  | passed => rfl

/-- There is one call to make, whatever the clock says. -/
theorem SameBatch.step (one : loop.concurrency = 1) {batch batch' batch₀ : Batch} {id : ℕ}
    (same : SameBatch batch batch₀) (step : Batch.Step loop worker circumstances batch id batch') :
    SameBatch batch' (nextCall loop worker circumstances batch₀) := by
  cases step with
  | @reply before after entry started call next waiting reply world now at_ serves =>
    have stages := same.stage
    rw [at_] at stages
    obtain ⟨_, _, started', rest, only, there⟩ := stages.atBatch
    cases before with
    | cons first before =>
      have lengths := congrArg List.length only
      simp at lengths
    | nil =>
      obtain ⟨⟨rfl, rfl, rfl⟩, rfl⟩ : (⟨entry, started, .await call next⟩ : Handling) = ⟨_, _, rest⟩ ∧ after = [] := by
        simpa using only
      obtain ⟨stage₀, world₀, log₀⟩ := batch₀
      obtain rfl := same.world
      obtain rfl := same.log
      dsimp only at there
      subst there
      simp only [nextCall, serves]
      exact ⟨sameStage_handled one now 0, rfl, rfl⟩

/-- So there is one run. -/
theorem nextCall_run (one : loop.concurrency = 1) {now : ℕ} {messages : List StreamEntry} {world : World}
    {schedule : List ℕ} {batch : Batch}
    (path : Path (Batch.Step loop worker circumstances) (.start loop worker now messages world) schedule batch) :
    SameBatch batch ((nextCall loop worker circumstances)^[schedule.length] (.start loop worker 0 messages world)) := by
  have preserved : ∀ past batch id batch', Batch.Step loop worker circumstances batch id batch' →
      SameBatch batch ((nextCall loop worker circumstances)^[past.length] (.start loop worker 0 messages world)) →
      SameBatch batch' ((nextCall loop worker circumstances)^[(past ++ [id]).length]
        (.start loop worker 0 messages world)) := by
    intro past batch id batch' step same
    rw [List.length_append, List.length_singleton, Function.iterate_succ_apply']
    exact same.step one step
  exact path.history_invariant preserved ⟨sameStage_handleBatch one now 0 messages, rfl, rfl⟩

theorem nextCall_over {batch : Batch} (finished : ∀ running waiting, batch.stage ≠ .batch running waiting) :
    nextCall loop worker circumstances batch = batch := by
  unfold nextCall
  split
  · rename_i at_
    exact absurd at_ (finished _ _)
  · rfl

/-- That run comes to its end once. -/
theorem nextCall_end {batch : Batch} {n m : ℕ}
    (finished : ∀ running waiting, ((nextCall loop worker circumstances)^[n] batch).stage ≠ .batch running waiting)
    (finished' : ∀ running waiting, ((nextCall loop worker circumstances)^[m] batch).stage ≠ .batch running waiting) :
    (nextCall loop worker circumstances)^[n] batch = (nextCall loop worker circumstances)^[m] batch := by
  have stays {n : ℕ} (finished : ∀ running waiting, ((nextCall loop worker circumstances)^[n] batch).stage ≠
      .batch running waiting) (more : ℕ) :
      (nextCall loop worker circumstances)^[more + n] batch = (nextCall loop worker circumstances)^[n] batch := by
    rw [Function.iterate_add_apply]
    exact Function.iterate_fixed (nextCall_over finished) more
  rcases Nat.le_total n m with earlier | later
  · rw [← Nat.sub_add_cancel earlier, stays finished]
  · rw [← Nat.sub_add_cancel later, stays finished']

/-- The calls of that run can be made. -/
theorem nextCall_path (loop : Loop) (worker : Worker) (circumstances : ℕ → Circumstance) (batch : Batch) (n : ℕ) :
    ∃ schedule, Path (Batch.Step loop worker circumstances) batch schedule
      ((nextCall loop worker circumstances)^[n] batch) := by
  induction n generalizing batch with
  | zero => exact ⟨[], .nil batch⟩
  | succ n ih =>
    obtain ⟨schedule, path⟩ := ih (nextCall loop worker circumstances batch)
    rw [Function.iterate_succ_apply]
    have moves : nextCall loop worker circumstances batch = batch ∨
        ∃ id, Batch.Step loop worker circumstances batch id (nextCall loop worker circumstances batch) := by
      unfold nextCall
      split
      · rename_i entry started call next waiting at_
        have one : batch.stage = .batch ([] ++ ⟨entry, started, .await call next⟩ :: []) waiting := at_
        exact .inr ⟨entry.id, .reply 0 one (Prod.mk.eta).symm⟩
      · exact .inl rfl
    rcases moves with rests | ⟨id, step⟩
    · rw [rests] at path ⊢
      exact ⟨schedule, path⟩
    · exact ⟨id :: schedule, .cons step path⟩

end Turns

end Quartr.Soundness
