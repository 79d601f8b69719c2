import Mathlib.Data.List.Perm.Basic
import Quartr.Machine.Replay
import Quartr.Soundness.StreamCommands

/-! # Queue depth and outstanding work

`depth` counts the entries of the stream. That is the number of outstanding entries as long as every
entry handed to the group is either pending or about to be deleted by a caller that has acknowledged
it: `Reconciled`. A caller killed between its XACK and its XDEL is the one that leaves an entry neither.
-/

namespace Quartr.Model.RedisStream

variable (stream : RedisStream)

/-- The entries not yet delivered, and those delivered and not yet acknowledged. -/
def outstanding : ℕ := stream.undelivered.length + stream.pending.length

end Quartr.Model.RedisStream

namespace Quartr.Soundness

open Quartr.Machine Quartr.Model
open Quartr.Machine.Coroutine (Follows follows_bind follows_tryCatch)

/-- Every entry that was handed out is pending, or being removed by somebody who acknowledged it. -/
structure Reconciled (stream : RedisStream) (removing : ℕ → Prop) : Prop extends Ordered stream where
  listed : stream.pendingIds.Pairwise (· < ·)
  held : ∀ id ∈ stream.pendingIds, id ≤ stream.lastDelivered ∧ id ∈ stream.ids
  kept : ∀ id ∈ stream.ids, id ≤ stream.lastDelivered → id ∈ stream.pendingIds ∨ removing id
  cleared : ∀ id, removing id → id ≤ stream.lastDelivered ∧ id ∉ stream.pendingIds

section Commands

variable {stream : RedisStream} {removing removing' : ℕ → Prop}

theorem reconciled_empty : Reconciled .empty fun _ => False where
  toOrdered := ordered_empty
  listed := .nil
  held _ member := absurd member List.not_mem_nil
  kept _ member := absurd member List.not_mem_nil
  cleared _ := False.elim

theorem undelivered_length (stream : RedisStream) :
    stream.undelivered.length = (stream.ids.filter (stream.lastDelivered < ·)).length := by
  unfold RedisStream.undelivered RedisStream.ids
  rw [List.filter_map, List.length_map]
  rfl

/-- While nobody is removing an entry, the stream holds the outstanding entries and no others. -/
theorem Reconciled.exact (reconciled : Reconciled stream removing) (quiet : ∀ id, ¬ removing id) :
    stream.entries.length = stream.outstanding := by
  have handed : (stream.ids.filter fun id => !decide (stream.lastDelivered < id)).Perm
      stream.pendingIds := by
    apply (List.perm_ext_iff_of_nodup ((reconciled.sorted.imp ne_of_lt).filter _)
      (reconciled.listed.imp ne_of_lt)).mpr
    intro id
    simp only [List.mem_filter, Bool.not_eq_true', decide_eq_false_iff_not, not_lt]
    constructor
    · rintro ⟨member, delivered⟩
      exact (reconciled.kept id member delivered).resolve_right (quiet id)
    · intro pending
      exact ⟨(reconciled.held id pending).2, (reconciled.held id pending).1⟩
  have total := stream.ids.length_eq_length_filter_add fun id => decide (stream.lastDelivered < id)
  have pending := handed.length_eq
  unfold RedisStream.outstanding
  rw [undelivered_length]
  simp only [RedisStream.ids, RedisStream.pendingIds, List.length_map] at total pending ⊢
  omega

/-! ### What each command does to the account -/

theorem Reconciled.add (reconciled : Reconciled stream removing) (fields : List (String × String)) :
    Reconciled (stream.add fields) removing := by
  refine ⟨reconciled.toOrdered.add fields, reconciled.listed, ?_, ?_, reconciled.cleared⟩
  · intro id pending
    rw [add_ids]
    exact ⟨(reconciled.held id pending).1, List.mem_append_left _ (reconciled.held id pending).2⟩
  · intro id member handed
    rw [add_ids, List.mem_append] at member
    rcases member with old | new
    · exact reconciled.kept id old handed
    · cases List.mem_singleton.mp new
      exact absurd (handed.trans reconciled.delivered) (Nat.not_succ_le_self _)

theorem Reconciled.readGroup (reconciled : Reconciled stream removing) (now : ℕ) (consumer : String)
    (count : ℕ) : Reconciled (stream.readGroup now consumer count) removing := by
  obtain ⟨_, handed, split⟩ := reconciled.toOrdered.handed count
  have later := le_last stream count
  have pendingIds := readGroup_pendingIds stream now consumer count
  rw [← readGroup_lastDelivered stream now consumer] at later handed split
  refine ⟨reconciled.toOrdered.readGroup now consumer count, ?_, ?_, ?_, ?_⟩
  · rw [pendingIds]
    apply List.pairwise_append.mpr
    refine ⟨reconciled.listed, (reconciled.sorted.filter _).sublist (List.take_sublist ..), ?_⟩
    intro id pending next fresh
    exact (reconciled.held id pending).1.trans_lt (mem_freshIds fresh).2
  · intro id member
    rw [pendingIds, List.mem_append] at member
    rcases member with pending | fresh
    · exact ⟨(reconciled.held id pending).1.trans later, (reconciled.held id pending).2⟩
    · exact ⟨handed id fresh, (mem_freshIds fresh).1⟩
  · intro id member delivered
    rw [pendingIds, List.mem_append]
    rcases split id member delivered with old | fresh
    · exact (reconciled.kept id member old).imp_left .inl
    · exact .inl (.inr fresh)
  · intro id being
    rw [pendingIds, List.mem_append]
    refine ⟨(reconciled.cleared id being).1.trans later, ?_⟩
    rintro (pending | fresh)
    · exact (reconciled.cleared id being).2 pending
    · exact absurd (reconciled.cleared id being).1 (not_le_of_gt (mem_freshIds fresh).2)

/-- XCLAIM changes hands only: a pending item is never without its entry. -/
theorem claim_pendingIds (reconciled : Reconciled stream removing) (now : ℕ) (consumer : String)
    (minIdle id : ℕ) : (stream.claim now consumer minIdle id).pendingIds = stream.pendingIds := by
  unfold RedisStream.claim
  split_ifs with missing claimable
  · have absent : id ∉ stream.ids := by
      intro member
      obtain ⟨entry, present, rfl⟩ := mem_ids.mp member
      exact List.find?_eq_none.mp missing entry present (decide_eq_true rfl)
    have unlisted (item : PendingEntry) (member : item ∈ stream.pending) : item.id ≠ id := by
      rintro rfl
      exact absent (reconciled.held item.id (mem_pendingIds.mpr ⟨item, member, rfl⟩)).2
    have whole : stream.pending.filter (fun item => item.id ≠ id) = stream.pending :=
      List.filter_eq_self.mpr fun item member => decide_eq_true (unlisted item member)
    simp only [RedisStream.pendingIds, whole]
  · exact handOver_id now consumer id stream.pending
  · rfl

theorem Reconciled.claim (reconciled : Reconciled stream removing) (now : ℕ) (consumer : String)
    (minIdle id : ℕ) : Reconciled (stream.claim now consumer minIdle id) removing := by
  obtain ⟨ids, _, lastDelivered⟩ := claim_rest stream now consumer minIdle id
  have pendingIds := claim_pendingIds reconciled now consumer minIdle id
  refine ⟨reconciled.toOrdered.claim now consumer minIdle id, ?_, ?_, ?_, ?_⟩
  · exact pendingIds ▸ reconciled.listed
  · rw [pendingIds, lastDelivered, ids]
    exact reconciled.held
  · rw [pendingIds, lastDelivered, ids]
    exact reconciled.kept
  · rw [pendingIds, lastDelivered]
    exact reconciled.cleared

/-- Who has acknowledged an entry is about to remove it. -/
theorem Reconciled.ack (reconciled : Reconciled stream removing) {id : ℕ} (handed : id ≤ stream.lastDelivered)
    (more : ∀ other, removing' other ↔ removing other ∨ other = id) :
    Reconciled (stream.ack id) removing' := by
  have pendingIds : (stream.ack id).pendingIds = stream.pendingIds.filter (· ≠ id) := by
    simp only [RedisStream.pendingIds, RedisStream.ack, List.filter_map]
    rfl
  have listed (other : ℕ) : other ∈ (stream.ack id).pendingIds ↔ other ∈ stream.pendingIds ∧ other ≠ id := by
    rw [pendingIds, List.mem_filter, decide_eq_true_iff]
  refine ⟨⟨reconciled.sorted, reconciled.given, reconciled.delivered⟩, ?_, ?_, ?_, ?_⟩
  · rw [pendingIds]
    exact reconciled.listed.filter _
  · intro other pending
    exact reconciled.held other ((listed other).mp pending).1
  · intro other member delivered
    rw [listed, more]
    rcases reconciled.kept other member delivered with pending | being
    · by_cases same : other = id
      · exact .inr (.inr same)
      · exact .inl ⟨pending, same⟩
    · exact .inr (.inl being)
  · intro other being
    rw [listed]
    rcases (more other).mp being with before | rfl
    · exact ⟨(reconciled.cleared other before).1,
        fun pending => (reconciled.cleared other before).2 pending.1⟩
    · exact ⟨handed, fun pending => pending.2 rfl⟩

theorem Reconciled.delete (reconciled : Reconciled stream removing) {id : ℕ} (being : removing id)
    (fewer : ∀ other, removing' other → removing other)
    (others : ∀ other, removing other → other ≠ id → removing' other) :
    Reconciled (stream.delete id) removing' := by
  have left (other : ℕ) : other ∈ (stream.delete id).ids ↔ other ∈ stream.ids ∧ other ≠ id := by
    rw [delete_ids, List.mem_filter, decide_eq_true_iff]
  refine ⟨reconciled.toOrdered.delete id, reconciled.listed, ?_, ?_, ?_⟩
  · intro other pending
    refine ⟨(reconciled.held other pending).1, (left other).mpr ⟨(reconciled.held other pending).2, ?_⟩⟩
    rintro rfl
    exact (reconciled.cleared other being).2 pending
  · intro other member delivered
    obtain ⟨member, differs⟩ := (left other).mp member
    exact (reconciled.kept other member delivered).imp_right fun being => others other being differs
  · exact fun other being => reconciled.cleared other (fewer other being)

end Commands

/-! ### The phases of a caller -/

/-- What an activity may still do to the account: everything that keeps it, or the two commands of
`ack_and_remove`. -/
inductive QueuePhase where
  | free
  | acking (id : ℕ)
  | removing (id : ℕ)
  | ended

/-- The commands that take nothing out of the stream. -/
def KeepsEntries : StreamCall → Prop
  | .xack _ => False
  | .xdel _ => False
  | _ => True

inductive QueueStep : QueueActivity → Protocol streamCalls QueuePhase
  | free (activity : QueueActivity) (call : StreamCall) (reply : streamCalls.Reply call)
      (keeps : KeepsEntries call) : QueueStep activity .free call reply .free
  | acked (id : ℕ) : QueueStep (.ackAndRemove id) (.acking id) (.xack id) (.ok ()) (.removing id)
  | unacked (id : ℕ) (error : CallError) :
      QueueStep (.ackAndRemove id) (.acking id) (.xack id) (.error error) .ended
  | removed (id : ℕ) (reply : streamCalls.Reply (.xdel id)) :
      QueueStep (.ackAndRemove id) (.removing id) (.xdel id) reply .ended

def QueuePhase.initial : QueueActivity → QueuePhase
  | .ackAndRemove entryId => .acking entryId
  | _ => .free

/-- Where an activity ends. -/
def QueuePhase.Over (phase : QueuePhase) : Prop := phase = .free ∨ phase = .ended

section Follows

variable {σ α : Type} {object : σ} {settings : QueueSettings}

/-- A method that makes no call of the two. -/
def Frees (method : ReportQueue.Method σ α) : Prop :=
  ∀ activity object, Follows (QueueStep activity) method object .free fun _ _ phase => phase = .free

theorem frees_call (c : StreamCall) (keeps : KeepsEntries c) :
    Frees (ReportQueue.call c : ReportQueue.Method σ _) :=
  fun activity _ => Coroutine.follows_await.mpr fun reply => ⟨.free, .free activity c reply keeps, rfl⟩

theorem Frees.bind {β : Type} {first : ReportQueue.Method σ β} {rest : β → ReportQueue.Method σ α}
    (frees : Frees first) (continued : ∀ value, Frees (rest value)) : Frees (first >>= rest) := by
  intro activity object
  apply follows_bind.mpr
  apply Follows.mono (frees activity object)
  rintro (error | value) object' phase rfl
  · rfl
  · exact continued value activity object'

theorem frees_pure (value : α) : Frees (pure value : ReportQueue.Method σ α) := fun _ _ => rfl

theorem frees_throw (error : Err) : Frees (throw error : ReportQueue.Method σ α) := fun _ _ => rfl

theorem frees_depth : Frees (ReportQueue.depth : ReportQueue.Method σ ℕ) := by
  intro activity object
  apply follows_tryCatch.mpr
  apply Follows.mono (frees_call .xlen trivial activity object)
  rintro (error | value) object' phase rfl
  · cases error with
    | call error => cases error <;> rfl
    | _ => rfl
  · rfl

theorem frees_enqueue (taskId : TaskId) :
    Frees (ReportQueue.enqueue settings taskId : ReportQueue.Method σ ℕ) := by
  apply frees_depth.bind
  intro depth
  split_ifs
  · exact (frees_throw _).bind fun _ => frees_call (.xadd _) trivial
  · exact frees_call (.xadd _) trivial

theorem frees_claimEach (consumerName : String) (minIdleMs : ℕ) (pending : List PendingRow)
    (reclaimed : List StreamEntry) :
    Frees (ReportQueue.claimEach consumerName minIdleMs pending reclaimed : ReportQueue.Method σ _) := by
  induction pending generalizing reclaimed with
  | nil => exact frees_pure reclaimed
  | cons entry rest ih =>
    unfold ReportQueue.claimEach
    split_ifs
    · exact ih reclaimed
    · exact (frees_call (.xclaim _ _ _) trivial).bind fun claimed => ih _

theorem removal_follows (id : ℕ) :
    Follows (QueueStep (.ackAndRemove id)) (ReportQueue.ackAndRemove id) object (.acking id)
      fun _ _ phase => phase = .ended := by
  apply follows_bind.mpr
  apply Coroutine.follows_await.mpr
  rintro (error | _)
  · exact ⟨_, .unacked id error, rfl⟩
  · refine ⟨_, .acked id, Coroutine.follows_await.mpr fun reply => ?_⟩
    exact ⟨_, .removed id reply, rfl⟩

/-- Every activity follows the protocol from its initial phase. -/
theorem body_follows (activity : QueueActivity) :
    (activity.body settings).Follows (QueueStep activity) (fun _ phase => phase.Over)
      (.initial activity) := by
  have free {α : Type} {method : ReportQueue.Method Unit α} (frees : Frees method)
      (outcome : Except Err α → QueueOutcome) :
      ((method ()).bind fun result => .done (outcome result.1)).Follows (QueueStep activity)
        (fun _ phase => phase.Over) .free := by
    apply Program.Follows.bind_iff.mpr
    apply Program.Follows.mono (frees activity ())
    rintro result phase rfl
    exact .inl rfl
  cases activity with
  | depth => exact free frees_depth .number
  | enqueue taskId => exact free (frees_enqueue taskId) .number
  | read consumerName count => exact free (frees_call (.xreadgroup consumerName count) trivial) .messages
  | claimAbandoned consumerName minIdleMs =>
    exact free ((frees_call (.xpendingRange 100) trivial).bind fun pending =>
      frees_claimEach consumerName _ pending []) .messages
  | ackAndRemove entryId =>
    apply Program.Follows.bind_iff.mpr
    apply Program.Follows.mono (removal_follows entryId)
    rintro result phase rfl
    exact .inr rfl

end Follows

abbrev QueueView := Config streamCalls Broker QueueActivity QueuePhase
abbrev QueueAgent := Process streamCalls QueueActivity QueuePhase

/-- The queue with phases for control. -/
def queueOutline : System streamCalls Broker QueueActivity QueuePhase :=
  ⟨fun _ => QueuePhase.initial, fun _ => QueueStep,
    fun broker activity broker' => activity.Handed broker.stream ∧ broker' = broker, Broker.serve⟩

theorem queue_refines {settings : QueueSettings} :
    Refinement (queueSystem settings) queueOutline (fun _ _ _ phase => phase.Over) :=
  ⟨rfl, rfl, rfl, fun _ activity => body_follows activity⟩

/-! ### Runs -/

/-- Somebody has acknowledged the entry and is about to delete it. -/
def Removing (view : QueueView) (id : ℕ) : Prop :=
  ∃ caller agent, view.process caller = some agent ∧ agent.killed = false ∧ agent.control = .removing id

/-- The account is right, and what callers mean to acknowledge has been handed out. -/
structure QueueInvariant (view : QueueView) : Prop where
  reconciled : Reconciled view.world.stream (Removing view)
  handed : ∀ caller agent id, view.process caller = some agent → agent.control = .acking id →
    id ≤ view.world.stream.lastDelivered

section Run

variable {settings : QueueSettings} {view view' : QueueView} {config : QueueConfig} {event : QueueEvent}
  {caller id : ℕ} {agent : QueueAgent} {broker : Broker}

theorem Reconciled.congr {stream : RedisStream} {removing removing' : ℕ → Prop}
    (reconciled : Reconciled stream removing) (same : ∀ id, removing' id ↔ removing id) :
    Reconciled stream removing' :=
  (funext fun id => propext (same id) : removing' = removing) ▸ reconciled

theorem removing_put : Removing (view.put caller agent broker) id ↔
    (agent.killed = false ∧ agent.control = .removing id) ∨
      ∃ other found, other ≠ caller ∧ view.process other = some found ∧ found.killed = false ∧
        found.control = .removing id := by
  constructor
  · rintro ⟨other, found, present, alive, control⟩
    rcases Config.put_cases present with ⟨rfl, rfl⟩ | ⟨same, present⟩
    · exact .inl ⟨alive, control⟩
    · exact .inr ⟨other, found, same, present, alive, control⟩
  · rintro (⟨alive, control⟩ | ⟨other, found, differs, present, alive, control⟩)
    · exact ⟨caller, agent, Config.put_self, alive, control⟩
    · exact ⟨other, found, (Config.put_of_ne differs).trans present, alive, control⟩

/-- Who removes an entry besides one caller, when that caller does not. -/
theorem removing_apart
    (apart : ∀ found, view.process caller = some found → found.killed = false → found.control ≠ .removing id) :
    (∃ other found, other ≠ caller ∧ view.process other = some found ∧ found.killed = false ∧
      found.control = .removing id) ↔ Removing view id := by
  constructor
  · rintro ⟨other, found, _, removing⟩
    exact ⟨other, found, removing⟩
  · rintro ⟨other, found, present, alive, control⟩
    refine ⟨other, found, ?_, present, alive, control⟩
    rintro rfl
    exact apart found present alive control

/-- A caller that removes nothing before and nothing after a step has no part in the account. -/
theorem removing_unchanged
    (before : ∀ found, view.process caller = some found → found.killed = false → found.control ≠ .removing id)
    (after : agent.killed = false → agent.control ≠ .removing id) :
    Removing (view.put caller agent broker) id ↔ Removing view id := by
  rw [removing_put, removing_apart before]
  exact or_iff_right fun removes => after removes.1 removes.2

theorem QueueInvariant.put (invariant : QueueInvariant view)
    (reconciled : Reconciled broker.stream (Removing (view.put caller agent broker)))
    (later : view.world.stream.lastDelivered ≤ broker.stream.lastDelivered)
    (handed : ∀ id, agent.control = .acking id → id ≤ broker.stream.lastDelivered) :
    QueueInvariant (view.put caller agent broker) := by
  refine ⟨reconciled, ?_⟩
  intro other found id present control
  rcases Config.put_cases present with ⟨rfl, rfl⟩ | ⟨same, present⟩
  · exact handed id control
  · exact (invariant.handed other found id present control).trans later

/-- A command that takes nothing out keeps the account, whoever is removing what. -/
theorem Reconciled.after {removing : ℕ → Prop} (reconciled : Reconciled broker.stream removing)
    {call : StreamCall} (keeps : KeepsEntries call) : Reconciled (broker.after call) removing := by
  cases call with
  | xlen => exact reconciled
  | xadd fields => exact reconciled.add fields
  | xreadgroup consumer count => exact reconciled.readGroup broker.now consumer count
  | xpendingRange count => exact reconciled
  | xclaim consumer minIdle id => exact reconciled.claim broker.now consumer minIdle id
  | xack id => exact keeps.elim
  | xdel id => exact keeps.elim

/-- The process is between its XACK and its XDEL. -/
def AboutToDelete (process : Process streamCalls QueueActivity (Program streamCalls QueueOutcome)) :
    Prop :=
  match process.control.call? with
  | some (.xdel _) => True
  | _ => False

/-- No `ack_and_remove` is killed between its XACK and its XDEL. -/
def Unsevered (config : QueueConfig) : QueueEvent → Prop
  | .kill caller => ∀ process ∈ config.process caller, ¬ AboutToDelete process
  | _ => True

instance (process : Process streamCalls QueueActivity (Program streamCalls QueueOutcome)) :
    Decidable (AboutToDelete process) := by
  unfold AboutToDelete
  split <;> infer_instance

instance (config : QueueConfig) : (event : QueueEvent) → Decidable (Unsevered config event)
  | .kill caller => inferInstanceAs (Decidable (∀ process ∈ config.process caller, _))
  | .start _ _ => .isTrue trivial
  | .reply _ _ _ => .isTrue trivial

/-- A caller in the outline that is about to delete is one in the code. -/
theorem at_xdel {process : Process streamCalls QueueActivity (Program streamCalls QueueOutcome)}
    (follows : process.Follows (QueueStep agent.label) (fun _ phase => phase.Over) agent)
    (control : agent.control = .removing id) :
    process.label = .ackAndRemove id ∧ process.control.call? = some (.xdel id) := by
  obtain ⟨label, _, _, follows⟩ := follows
  rw [control] at follows
  cases suspended : process.control with
  | done outcome =>
    rw [suspended] at follows
    rcases follows with same | same <;> cases same
  | await call next =>
    rw [suspended] at follows
    obtain ⟨phase, step, _⟩ := follows (.error (.other ""))
    rw [label]
    generalize agent.label = activity at step
    cases step
    exact ⟨rfl, rfl⟩

theorem QueueInvariant.start (invariant : QueueInvariant view) {activity : QueueActivity}
    (absent : view.process caller = none) (handed : activity.Handed view.world.stream) :
    QueueInvariant (view.put caller ⟨activity, .initial activity, [], false⟩ view.world) := by
  apply invariant.put
  · apply invariant.reconciled.congr
    intro id
    apply removing_unchanged
    · intro found present
      cases absent.symm.trans present
    · intro _ removing
      cases activity <;> cases removing
  · exact le_rfl
  · intro id acking
    cases activity <;> cases acking
    exact handed

theorem QueueInvariant.kill (invariant : QueueInvariant view)
    (views : config.Views queueOutline (fun _ _ _ phase => phase.Over) view)
    (unsevered : Unsevered config (.kill caller)) (present : view.process caller = some agent) :
    QueueInvariant (view.put caller { agent with killed := true } view.world) := by
  apply invariant.put
  · apply invariant.reconciled.congr
    intro id
    apply removing_unchanged
    · intro found there _ removing
      obtain ⟨process, running, follows⟩ := Refinement.behind views there
      apply unsevered process running
      unfold AboutToDelete
      rw [(at_xdel follows removing).2]
      trivial
    · rintro ⟨⟩
  · exact le_rfl
  · intro id acking
    exact invariant.handed caller agent id present acking

theorem QueueInvariant.reply (invariant : QueueInvariant view) {call : StreamCall}
    {reply : streamCalls.Reply call} {phase : QueuePhase} (present : view.process caller = some agent)
    (alive : agent.killed = false) (moves : QueueStep agent.label agent.control call reply phase)
    (served : Broker.serve call view.world reply broker) :
    QueueInvariant (view.put caller (agent.resume call reply phase) broker) := by
  obtain ⟨now, _, answered⟩ := served
  obtain ⟨rfl, rfl⟩ := Prod.mk.inj answered
  have reconciled : Reconciled (Broker.mk now view.world.stream).stream (Removing view) :=
    invariant.reconciled
  have later : view.world.stream.lastDelivered ≤
      ((Broker.mk now view.world.stream).after call).lastDelivered :=
    lastDelivered_after ⟨now, view.world.stream⟩ call
  -- The caller's own part in the account is what its phase says.
  have own {id : ℕ} (other : agent.control ≠ .removing id) (found : QueueAgent)
      (there : view.process caller = some found) (_ : found.killed = false) :
      found.control ≠ .removing id := by
    cases present.symm.trans there
    exact other
  obtain ⟨label, control, log, killed⟩ := agent
  cases moves with
  | free activity _ _ keeps =>
    refine invariant.put ?_ later (by rintro id ⟨⟩)
    apply (reconciled.after keeps).congr
    intro id
    exact removing_unchanged (own (by rintro ⟨⟩)) (by rintro _ ⟨⟩)
  | acked id =>
    refine invariant.put ?_ later (by rintro id ⟨⟩)
    apply reconciled.ack (invariant.handed caller _ id present rfl)
    intro other
    rw [removing_put, removing_apart (own (by rintro ⟨⟩))]
    constructor
    · rintro (⟨_, same⟩ | removing)
      · exact .inr (QueuePhase.removing.inj same).symm
      · exact .inl removing
    · rintro (removing | rfl)
      · exact .inr removing
      · exact .inl ⟨alive, rfl⟩
  | removed id =>
    refine invariant.put ?_ later (by rintro id ⟨⟩)
    apply reconciled.delete ⟨caller, _, present, alive, rfl⟩
    · intro other removes
      rcases removing_put.mp removes with ⟨_, same⟩ | ⟨other', found, _, removes⟩
      · cases same
      · exact ⟨other', found, removes⟩
    · rintro other ⟨caller', found, there, alive', removes⟩ differs
      apply removing_put.mpr
      refine .inr ⟨caller', found, ?_, there, alive', removes⟩
      rintro rfl
      cases present.symm.trans there
      exact differs (QueuePhase.removing.inj removes).symm

theorem QueueInvariant.step (invariant : QueueInvariant view)
    (views : config.Views queueOutline (fun _ _ _ phase => phase.Over) view)
    (unsevered : Unsevered config event) (step : queueOutline.Step view event view') :
    QueueInvariant view' := by
  cases step with
  | start absent begins =>
    obtain ⟨handed, rfl⟩ := begins
    exact invariant.start absent handed
  | kill present alive => exact invariant.kill views unsevered present
  | reply present alive moves served => exact invariant.reply present alive moves served

end Run

/-- An `ack_and_remove` is executing. -/
def Acknowledging (config : QueueConfig) : Prop :=
  ∃ caller process id, config.process caller = some process ∧ process.label = .ackAndRemove id ∧
    process.Active

/-- While no `ack_and_remove` is cut off between its two commands, `depth` reads the number of
outstanding entries whenever none is executing. -/
theorem depth_exact {settings : QueueSettings} {now : ℕ} {events : List QueueEvent} {config : QueueConfig}
    (run : Path (Guarded (queueSystem settings).Step Unsevered) (.idle ⟨now, .empty⟩) events config)
    (quiet : ¬ Acknowledging config) :
    ((ReportQueue.depth ()).run Broker.answer config.world).1.1 = .ok config.world.stream.outstanding := by
  have idle : QueueInvariant (.idle ⟨now, .empty⟩) := by
    refine ⟨reconciled_empty.congr fun id => iff_false_intro ?_, ?_⟩
    · rintro ⟨caller, agent, present, _⟩
      exact Config.idle_absent present
    · intro caller agent id present
      exact Config.idle_absent present
  obtain ⟨view, views, invariant⟩ := queue_refines.invariant
    (fun _ _ _ _ views unsevered step inv => QueueInvariant.step inv views unsevered step) run idle
  rw [views.world]
  apply congrArg Except.ok
  apply invariant.reconciled.exact
  rintro id ⟨caller, agent, present, alive, removing⟩
  obtain ⟨process, running, follows⟩ := Refinement.behind views present
  obtain ⟨label, suspended⟩ := at_xdel follows removing
  apply quiet
  refine ⟨caller, process, id, running, label, follows.2.2.1.trans alive, ?_⟩
  rw [suspended]
  exact Option.some_ne_none _

/-! ### An entry that is left behind -/

/-- The entry was acknowledged and is still there: it is neither pending nor to be delivered. -/
structure Stranded (stream : RedisStream) (id : ℕ) : Prop where
  present : id ∈ stream.ids
  delivered : id ≤ stream.lastDelivered
  acknowledged : id ∉ stream.pendingIds

section Stranded

variable {broker : Broker} {id : ℕ}

/-- Nobody is handed a stranded entry again. -/
theorem Stranded.withheld (stranded : Stranded broker.stream id) (count minIdle : ℕ) :
    id ∉ freshIds broker.stream count ∧ broker.stream.claimed broker.now minIdle id = [] := by
  constructor
  · intro fresh
    exact absurd stranded.delivered (not_le_of_gt (mem_freshIds fresh).2)
  · apply if_neg
    rintro ⟨item, member, same, _⟩
    exact stranded.acknowledged (mem_pendingIds.mpr ⟨item, member, same⟩)

/-- Only its own XDEL removes a stranded entry. -/
theorem Stranded.after (stranded : Stranded broker.stream id) {call : StreamCall}
    (other : call ≠ .xdel id) : Stranded (broker.after call) id := by
  refine ⟨?_, stranded.delivered.trans (lastDelivered_after broker call), ?_⟩
  · cases call with
    | xadd fields =>
      show id ∈ List.map _ (_ ++ _)
      rw [List.map_append]
      exact List.mem_append_left _ stranded.present
    | xclaim consumer minIdle claimed =>
      show id ∈ (broker.stream.claim broker.now consumer minIdle claimed).ids
      rw [(claim_rest ..).1]
      exact stranded.present
    | xdel deleted =>
      obtain ⟨entry, member, same⟩ := mem_ids.mp stranded.present
      refine mem_ids.mpr ⟨entry, List.mem_filter.mpr ⟨member, decide_eq_true ?_⟩, same⟩
      rw [same]
      exact fun gone => other (congrArg StreamCall.xdel gone.symm)
    | _ => exact stranded.present
  · cases call with
    | xreadgroup consumer count =>
      show id ∉ (broker.stream.readGroup broker.now consumer count).pendingIds
      rw [readGroup_pendingIds, List.mem_append]
      rintro (pending | fresh)
      · exact stranded.acknowledged pending
      · exact (stranded.withheld count 0).1 fresh
    | xclaim consumer minIdle claimed =>
      exact fun pending => stranded.acknowledged (mem_of_claim pending)
    | xack acked =>
      intro pending
      obtain ⟨item, member, same⟩ := mem_pendingIds.mp pending
      exact stranded.acknowledged (mem_pendingIds.mpr ⟨item, (List.mem_filter.mp member).1, same⟩)
    | _ => exact stranded.acknowledged

/-- Whatever producers and workers do, short of deleting it, a stranded entry is there for good. -/
theorem stranded_stays {settings : QueueSettings} {events : List QueueEvent} {config config' : QueueConfig}
    (run : Path (Guarded (queueSystem settings).Step fun _ event =>
      ∀ caller reply, event ≠ .reply caller (.xdel id) reply) config events config')
    (stranded : Stranded config.world.stream id) : Stranded config'.world.stream id := by
  have preserved (config : QueueConfig) (event : QueueEvent) (config' : QueueConfig)
      (step : Guarded (queueSystem settings).Step (fun _ event =>
        ∀ caller reply, event ≠ .reply caller (.xdel id) reply) config event config')
      (stranded : Stranded config.world.stream id) : Stranded config'.world.stream id := by
    obtain ⟨others, step⟩ := step
    cases step with
    | start absent begins =>
      obtain ⟨_, rfl⟩ := begins
      exact stranded
    | kill present alive => exact stranded
    | @reply caller process call reply control broker present alive moves served =>
      obtain ⟨now, _, answered⟩ := served
      obtain ⟨rfl, rfl⟩ := Prod.mk.inj answered
      apply (show Stranded (Broker.mk now config.world.stream).stream id from stranded).after
      rintro rfl
      exact others caller _ rfl
  exact run.invariant preserved stranded

end Stranded

/-- Schedules of the queue; a choice is the time that passes before the command. -/
def queuePlayer (settings : QueueSettings) : Player (queueSystem settings) ℕ where
  begin? broker activity := if activity.Handed broker.stream then some broker else none
  answer delay call broker := Broker.answer call { broker with now := broker.now + delay }
  resumes := rfl
  begins broker activity broker' begins := by
    split_ifs at begins with handed
    cases begins
    exact ⟨handed, rfl⟩
  serves delay call broker := ⟨broker.now + delay, Nat.le_add_right .., rfl⟩

/-- Two entries; one is acknowledged, and a worker is killed before it acknowledges the other. -/
def oneAcknowledged : List (Move QueueActivity ℕ) :=
  [.start 0 (.enqueue "task-0"), .serve 0 0, .serve 0 0, .start 1 (.enqueue "task-1"), .serve 1 0,
    .serve 1 0, .start 2 (.read "worker-1" 2), .serve 2 5, .start 3 (.ackAndRemove 1), .serve 3 1,
    .serve 3 1, .start 4 (.ackAndRemove 2), .kill 4]

theorem depth_exact_acknowledged : ∃ events config,
    Path (Guarded (queueSystem ⟨1000, 300000⟩).Step Unsevered) (.idle ⟨0, .empty⟩) events config ∧
    ((ReportQueue.depth ()).run Broker.answer config.world).1.1 = .ok config.world.stream.outstanding ∧
    config.world.stream.outstanding = 1 := by
  have plays : (queuePlayer ⟨1000, 300000⟩).Plays Unsevered
      (fun config => (∀ move ∈ oneAcknowledged, config.InactiveAt move.id) ∧
        config.world.stream.outstanding = 1) (.idle ⟨0, .empty⟩) oneAcknowledged := by
    decide +kernel
  obtain ⟨events, config, path, quiescent, one⟩ := plays.quiescent
  refine ⟨events, config, path, depth_exact path ?_, one⟩
  rintro ⟨caller, process, id, present, _, active⟩
  exact quiescent caller process present active

/-- A worker is killed between its XACK and its XDEL. -/
def severed : List (Move QueueActivity ℕ) :=
  [.start 0 (.enqueue "task-0"), .serve 0 0, .serve 0 0, .start 1 (.read "worker-1" 1), .serve 1 5,
    .start 2 (.ackAndRemove 1), .serve 2 1, .kill 2]

/-- Nothing is outstanding, and yet the queue is full for every producer. -/
theorem depth_inflated : ∃ events config,
    Path (queueSystem ⟨1, 300000⟩).Step (.idle ⟨0, .empty⟩) events config ∧ ¬ Acknowledging config ∧
    config.world.stream.outstanding = 0 ∧
    ((ReportQueue.depth ()).run Broker.answer config.world).1.1 = .ok 1 ∧
    ((ReportQueue.hasCapacity ⟨1, 300000⟩ ()).run Broker.answer config.world).1.1 = .ok false := by
  have plays : (queuePlayer ⟨1, 300000⟩).Plays (fun _ _ => True)
      (fun config => (∀ move ∈ severed, config.InactiveAt move.id) ∧
        config.world.stream.outstanding = 0 ∧ config.world.stream.entries.length = 1) (.idle ⟨0, .empty⟩)
      severed := by
    decide +kernel
  obtain ⟨events, config, path, quiescent, none, one⟩ := plays.quiescent
  refine ⟨events, config, path.mono fun _ _ _ step => step.2, ?_, none, congrArg Except.ok one, ?_⟩
  · rintro ⟨caller, process, id, present, _, active⟩
    exact quiescent caller process present active
  · show Except.ok (decide (config.world.stream.entries.length < 1)) = _
    rw [one]
    rfl

end Quartr.Soundness
