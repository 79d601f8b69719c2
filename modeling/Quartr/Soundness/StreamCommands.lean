import Mathlib.Data.List.Basic
import Mathlib.Order.Lattice
import Mathlib.Tactic.SplitIfs
import Quartr.Model.RedisStream

/-! # What the commands do to a stream

Ids only grow and delivery only moves forward, so what XREADGROUP hands out was never handed out
before. The other commands do not disturb that order.
-/

namespace Quartr.Model.RedisStream

variable (stream : RedisStream)

def ids : List ℕ := stream.entries.map StreamEntry.id

def pendingIds : List ℕ := stream.pending.map PendingEntry.id

end Quartr.Model.RedisStream

namespace Quartr.Soundness

open Quartr.Machine Quartr.Model

/-- Entries stand in the order of their ids, and no id is ahead of those given out. -/
structure Ordered (stream : RedisStream) : Prop where
  sorted : stream.ids.Pairwise (· < ·)
  given : ∀ id ∈ stream.ids, id ≤ stream.lastId
  delivered : stream.lastDelivered ≤ stream.lastId

section Commands

variable {stream : RedisStream} {broker : Broker}

theorem mem_ids {id : ℕ} : id ∈ stream.ids ↔ ∃ entry ∈ stream.entries, entry.id = id :=
  List.mem_map

theorem mem_pendingIds {id : ℕ} : id ∈ stream.pendingIds ↔ ∃ item ∈ stream.pending, item.id = id :=
  List.mem_map

theorem find_id {id : ℕ} {entry : StreamEntry} (found : stream.find id = some entry) : entry.id = id := by
  unfold RedisStream.find at found
  have matching := List.find?_some found
  exact of_decide_eq_true matching

theorem ordered_empty : Ordered .empty :=
  ⟨.nil, fun _ member => absurd member List.not_mem_nil, le_rfl⟩

theorem add_ids (stream : RedisStream) (fields : List (String × String)) :
    (stream.add fields).ids = stream.ids ++ [stream.lastId + 1] := List.map_append ..

theorem Ordered.add (ordered : Ordered stream) (fields : List (String × String)) :
    Ordered (stream.add fields) := by
  refine ⟨?_, ?_, Nat.le_succ_of_le ordered.delivered⟩
  · rw [add_ids]
    apply List.pairwise_append.mpr
    refine ⟨ordered.sorted, List.pairwise_singleton .., ?_⟩
    intro id member latest same
    cases List.mem_singleton.mp same
    exact Nat.lt_succ_of_le (ordered.given id member)
  · intro id member
    rw [add_ids, List.mem_append] at member
    show id ≤ stream.lastId + 1
    rcases member with old | new
    · exact Nat.le_succ_of_le (ordered.given id old)
    · exact (List.mem_singleton.mp new).le

/-- Of entries in order, those up to one of the first are among the first. -/
theorem mem_take_of_le {ids : List ℕ} (sorted : ids.Pairwise (· < ·)) {count id last : ℕ}
    (member : id ∈ ids) (first : last ∈ ids.take count) (before : id ≤ last) : id ∈ ids.take count := by
  rw [← List.take_append_drop count ids] at member sorted
  rcases List.mem_append.mp member with early | late
  · exact early
  · exact absurd ((List.pairwise_append.mp sorted).2.2 last first id late) (not_lt_of_ge before)

theorem undelivered_ids (stream : RedisStream) :
    stream.undelivered.map StreamEntry.id = stream.ids.filter (stream.lastDelivered < ·) := by
  unfold RedisStream.undelivered RedisStream.ids
  rw [List.filter_map]
  rfl

/-- The ids XREADGROUP hands out. -/
def freshIds (stream : RedisStream) (count : ℕ) : List ℕ :=
  (stream.ids.filter (stream.lastDelivered < ·)).take count

theorem fresh_ids (stream : RedisStream) (count : ℕ) :
    (stream.fresh count).map StreamEntry.id = freshIds stream count := by
  unfold RedisStream.fresh freshIds
  rw [List.map_take, undelivered_ids]

theorem readGroup_pendingIds (stream : RedisStream) (now : ℕ) (consumer : String) (count : ℕ) :
    (stream.readGroup now consumer count).pendingIds = stream.pendingIds ++ freshIds stream count := by
  unfold RedisStream.pendingIds RedisStream.readGroup
  rw [List.map_append, List.map_map, ← fresh_ids]
  rfl

theorem readGroup_lastDelivered (stream : RedisStream) (now : ℕ) (consumer : String) (count : ℕ) :
    (stream.readGroup now consumer count).lastDelivered =
      (freshIds stream count).getLast?.getD stream.lastDelivered := by
  unfold RedisStream.readGroup
  rw [← fresh_ids, List.getLast?_map]

theorem mem_freshIds {id count : ℕ} (fresh : id ∈ freshIds stream count) :
    id ∈ stream.ids ∧ stream.lastDelivered < id := by
  have member := List.mem_filter.mp (List.mem_of_mem_take fresh)
  exact ⟨member.1, of_decide_eq_true member.2⟩

/-- Delivery only moves forward. -/
theorem le_last (stream : RedisStream) (count : ℕ) :
    stream.lastDelivered ≤ (freshIds stream count).getLast?.getD stream.lastDelivered := by
  cases found : (freshIds stream count).getLast? with
  | none => exact le_rfl
  | some final => exact (mem_freshIds (List.mem_of_getLast? found)).2.le

/-- After XREADGROUP exactly the entries up to the last one handed out have been delivered. -/
theorem Ordered.handed (ordered : Ordered stream) (count : ℕ) :
    let last := (freshIds stream count).getLast?.getD stream.lastDelivered
    last ≤ stream.lastId ∧ (∀ id ∈ freshIds stream count, id ≤ last) ∧
      ∀ id ∈ stream.ids, id ≤ last → id ≤ stream.lastDelivered ∨ id ∈ freshIds stream count := by
  intro last
  cases found : (freshIds stream count).getLast? with
  | none =>
    have nothing := List.getLast?_eq_none_iff.mp found
    have same : last = stream.lastDelivered := by
      simp only [last, found, Option.getD_none]
    rw [same, nothing]
    refine ⟨ordered.delivered, ?_, fun id _ before => .inl before⟩
    intro id member
    exact absurd member List.not_mem_nil
  | some final =>
    have same : last = final := by
      simp only [last, found, Option.getD_some]
    have member := List.mem_of_getLast? found
    have inOrder : (stream.ids.filter (stream.lastDelivered < ·)).Pairwise (· < ·) :=
      ordered.sorted.filter _
    rw [same]
    refine ⟨ordered.given final (mem_freshIds member).1, ?_, ?_⟩
    · intro id fresh
      obtain ⟨before, shape⟩ := List.getLast?_eq_some_iff.mp found
      have taken : (freshIds stream count).Pairwise (· < ·) := inOrder.sublist (List.take_sublist ..)
      rw [shape] at taken fresh
      rcases List.mem_append.mp fresh with early | final
      · exact ((List.pairwise_append.mp taken).2.2 id early _ (List.mem_singleton_self _)).le
      · exact (List.mem_singleton.mp final).le
    · intro id present before
      by_cases old : id ≤ stream.lastDelivered
      · exact .inl old
      · apply Or.inr
        apply mem_take_of_le inOrder _ member before
        exact List.mem_filter.mpr ⟨present, decide_eq_true (Nat.lt_of_not_le old)⟩

theorem Ordered.readGroup (ordered : Ordered stream) (now : ℕ) (consumer : String) (count : ℕ) :
    Ordered (stream.readGroup now consumer count) := by
  refine ⟨ordered.sorted, ordered.given, ?_⟩
  rw [readGroup_lastDelivered]
  exact (ordered.handed count).1

/-- An item that changes hands keeps its id. -/
theorem handOver_id (now : ℕ) (consumer : String) (id : ℕ) (pending : List PendingEntry) :
    (pending.map fun item : PendingEntry =>
      if item.id = id then ⟨id, consumer, now, item.timesDelivered + 1⟩ else item).map PendingEntry.id =
      pending.map PendingEntry.id := by
  rw [List.map_map]
  apply List.map_congr_left
  intro item _
  show (if item.id = id then _ else item : PendingEntry).id = item.id
  split_ifs with same
  · exact same.symm
  · rfl

/-- XCLAIM lists nothing that was not listed. -/
theorem mem_of_claim {now : ℕ} {consumer : String} {minIdle id other : ℕ}
    (pending : other ∈ (stream.claim now consumer minIdle id).pendingIds) : other ∈ stream.pendingIds := by
  unfold RedisStream.claim at pending
  split_ifs at pending
  · exact (List.filter_sublist.map PendingEntry.id).mem pending
  · rwa [RedisStream.pendingIds, handOver_id] at pending
  · exact pending

theorem claim_rest (stream : RedisStream) (now : ℕ) (consumer : String) (minIdle id : ℕ) :
    (stream.claim now consumer minIdle id).ids = stream.ids ∧
      (stream.claim now consumer minIdle id).lastId = stream.lastId ∧
      (stream.claim now consumer minIdle id).lastDelivered = stream.lastDelivered := by
  unfold RedisStream.claim
  split_ifs <;> exact ⟨rfl, rfl, rfl⟩

theorem Ordered.claim (ordered : Ordered stream) (now : ℕ) (consumer : String) (minIdle id : ℕ) :
    Ordered (stream.claim now consumer minIdle id) := by
  obtain ⟨ids, lastId, lastDelivered⟩ := claim_rest stream now consumer minIdle id
  constructor
  · exact ids ▸ ordered.sorted
  · rw [ids, lastId]
    exact ordered.given
  · rw [lastId, lastDelivered]
    exact ordered.delivered

theorem delete_ids (stream : RedisStream) (id : ℕ) :
    (stream.delete id).ids = stream.ids.filter (· ≠ id) := by
  simp only [RedisStream.ids, RedisStream.delete, List.filter_map]
  rfl

theorem Ordered.delete (ordered : Ordered stream) (id : ℕ) : Ordered (stream.delete id) := by
  refine ⟨?_, ?_, ordered.delivered⟩
  · rw [delete_ids]
    exact ordered.sorted.filter _
  · intro other member
    rw [delete_ids] at member
    exact ordered.given other (List.mem_filter.mp member).1

/-- Every command keeps the order. -/
theorem Ordered.after (ordered : Ordered broker.stream) (call : StreamCall) :
    Ordered (broker.after call) := by
  cases call with
  | xadd fields => exact ordered.add fields
  | xreadgroup consumer count => exact ordered.readGroup broker.now consumer count
  | xclaim consumer minIdle id => exact ordered.claim broker.now consumer minIdle id
  | xack id => exact ⟨ordered.sorted, ordered.given, ordered.delivered⟩
  | xdel id => exact ordered.delete id
  | _ => exact ordered

theorem lastDelivered_after (broker : Broker) (call : StreamCall) :
    broker.stream.lastDelivered ≤ (broker.after call).lastDelivered := by
  cases call with
  | xreadgroup consumer count =>
    show _ ≤ (broker.stream.readGroup broker.now consumer count).lastDelivered
    rw [readGroup_lastDelivered]
    exact le_last broker.stream count
  | xclaim consumer minIdle id => exact (claim_rest ..).2.2.ge
  | _ => exact le_rfl

end Commands

end Quartr.Soundness
