import Mathlib.Data.List.Nodup
import Quartr.Machine.Solo
import Quartr.Soundness.StreamCommands

/-! # What one sweep of the pending list reclaims

`claim_abandoned` asks for one page of the pending list and filters it afterwards. Alone with a server
whose clock stands still it therefore reclaims the abandoned entries of that page, and those only.
-/

namespace Quartr.Soundness

open Quartr.Machine Quartr.Model
open Quartr.Machine.Coroutine (Runs)

/-- An item nobody has touched for long enough. -/
def Abandoned (now minIdle : ℕ) (item : PendingEntry) : Prop := minIdle ≤ now - item.deliveredAt

instance (now minIdle : ℕ) : DecidablePred (Abandoned now minIdle) :=
  fun item => inferInstanceAs (Decidable (minIdle ≤ now - item.deliveredAt))

/-- An item that has changed hands. -/
def takenOver (now : ℕ) (consumer : String) (item : PendingEntry) : PendingEntry :=
  ⟨item.id, consumer, now, item.timesDelivered + 1⟩

section Claim

variable {stream : RedisStream} {now minIdle : ℕ} {consumer : String} {item : PendingEntry}

/-- An id is pending once. -/
theorem same_item (distinct : stream.pendingIds.Nodup) {item' : PendingEntry} (member : item ∈ stream.pending)
    (member' : item' ∈ stream.pending) (same : item.id = item'.id) : item = item' :=
  List.inj_on_of_nodup_map distinct member member' same

theorem claim_entries (stream : RedisStream) (now : ℕ) (consumer : String) (minIdle id : ℕ) :
    (stream.claim now consumer minIdle id).entries = stream.entries := by
  unfold RedisStream.claim
  split_ifs <;> rfl

theorem claim_distinct (distinct : stream.pendingIds.Nodup) (now : ℕ) (consumer : String) (minIdle id : ℕ) :
    (stream.claim now consumer minIdle id).pendingIds.Nodup := by
  unfold RedisStream.claim
  split_ifs
  · exact distinct.sublist (List.filter_sublist.map PendingEntry.id)
  · rwa [RedisStream.pendingIds, handOver_id]
  · exact distinct

/-- XCLAIM hands out the entry of an abandoned item. -/
theorem claimed_abandoned (member : item ∈ stream.pending) (abandoned : Abandoned now minIdle item) :
    stream.claimed now minIdle item.id = (stream.find item.id).toList := by
  unfold RedisStream.claimed
  exact if_pos ⟨item, member, rfl, abandoned⟩

/-- XCLAIM of an abandoned item leaves the other items, and the item in new hands if its entry is there. -/
theorem mem_claim (distinct : stream.pendingIds.Nodup) (member : item ∈ stream.pending)
    (abandoned : Abandoned now minIdle item) {other : PendingEntry} :
    other ∈ (stream.claim now consumer minIdle item.id).pending ↔
      other ∈ stream.pending ∧ other.id ≠ item.id ∨
        stream.find item.id ≠ none ∧ other = takenOver now consumer item := by
  have claimable : stream.Claimable now minIdle item.id := ⟨item, member, rfl, abandoned⟩
  unfold RedisStream.claim
  split_ifs with gone
  · rw [List.mem_filter, decide_eq_true_iff]
    exact ⟨.inl, fun left => left.resolve_right fun taken => taken.1 gone⟩
  · rw [List.mem_map]
    constructor
    · rintro ⟨item', member', rfl⟩
      split_ifs with same
      · obtain rfl := same_item distinct member' member same
        exact .inr ⟨gone, rfl⟩
      · exact .inl ⟨member', same⟩
    · rintro (⟨member', other⟩ | ⟨_, rfl⟩)
      · exact ⟨_, member', if_neg other⟩
      · exact ⟨item, member, if_pos rfl⟩

end Claim

/-! ### The loop over a page -/

/-- What XPENDING reports of an item. -/
def reported (now : ℕ) (item : PendingEntry) : PendingRow :=
  ⟨item.id, item.consumer, now - item.deliveredAt, item.timesDelivered⟩

/-- The entries of the abandoned ones among some items. -/
def handedOut (stream : RedisStream) (now minIdle : ℕ) (items : List PendingEntry) : List StreamEntry :=
  (items.filter (Abandoned now minIdle ·)).filterMap fun item => stream.find item.id

/-- The abandoned ones among some items have changed hands, if their entries are there, or are gone. -/
structure Swept (now minIdle : ℕ) (consumer : String) (items : List PendingEntry) (stream stream' : RedisStream) :
    Prop where
  entries : stream'.entries = stream.entries
  distinct : stream'.pendingIds.Nodup
  pending : ∀ other, other ∈ stream'.pending ↔
    other ∈ stream.pending ∧ (∀ item ∈ items, Abandoned now minIdle item → other.id ≠ item.id) ∨
      ∃ item ∈ items, Abandoned now minIdle item ∧ stream.find item.id ≠ none ∧
        other = takenOver now consumer item

section Loop

variable {σ : Type} {object : σ} {stream : RedisStream} {now minIdle : ℕ} {consumer : String}

theorem Swept.nil (distinct : stream.pendingIds.Nodup) : Swept now minIdle consumer [] stream stream :=
  ⟨rfl, distinct, fun other => by simp⟩

/-- An item that is not abandoned is passed over. -/
theorem Swept.skip {item : PendingEntry} {items : List PendingEntry} {stream' : RedisStream}
    (swept : Swept now minIdle consumer items stream stream') (young : ¬ Abandoned now minIdle item) :
    Swept now minIdle consumer (item :: items) stream stream' := by
  refine ⟨swept.entries, swept.distinct, fun other => (swept.pending other).trans ?_⟩
  simp only [List.forall_mem_cons, List.exists_mem_cons_iff, young, false_implies, true_and, false_and, false_or]

theorem find_of_entries {stream stream' : RedisStream} (same : stream'.entries = stream.entries) :
    stream'.find = stream.find := by
  unfold RedisStream.find
  rw [same]

/-- An abandoned item is claimed before the rest. -/
theorem Swept.claim {item : PendingEntry} {items : List PendingEntry} {stream' : RedisStream}
    (distinct : stream.pendingIds.Nodup) (member : item ∈ stream.pending) (abandoned : Abandoned now minIdle item)
    (listed : ∀ later ∈ items, later.id ≠ item.id)
    (swept : Swept now minIdle consumer items (stream.claim now consumer minIdle item.id) stream') :
    Swept now minIdle consumer (item :: items) stream stream' := by
  have entries := claim_entries stream now consumer minIdle item.id
  refine ⟨swept.entries.trans entries, swept.distinct, fun other => (swept.pending other).trans ?_⟩
  rw [mem_claim distinct member abandoned, find_of_entries entries]
  simp only [List.forall_mem_cons, List.exists_mem_cons_iff, abandoned, true_implies, true_and]
  constructor
  · rintro (⟨⟨present, other⟩ | ⟨found, rfl⟩, kept⟩ | later)
    · exact .inl ⟨present, other, kept⟩
    · exact .inr (.inl ⟨found, rfl⟩)
    · exact .inr (.inr later)
  · rintro (⟨present, other, kept⟩ | ⟨found, rfl⟩ | later)
    · exact .inl ⟨.inl ⟨present, other⟩, kept⟩
    · exact .inl ⟨.inr ⟨found, rfl⟩, fun later member _ same => listed later member same.symm⟩
    · exact .inr later

theorem handedOut_cons {item : PendingEntry} (abandoned : Abandoned now minIdle item) (items : List PendingEntry) :
    handedOut stream now minIdle (item :: items) =
      (stream.find item.id).toList ++ handedOut stream now minIdle items := by
  unfold handedOut
  rw [List.filter_cons_of_pos (by rwa [decide_eq_true_iff])]
  cases found : stream.find item.id with
  | none => exact List.filterMap_cons_none found
  | some entry => exact List.filterMap_cons_some found

theorem handedOut_claim (id : ℕ) (items : List PendingEntry) :
    handedOut (stream.claim now consumer minIdle id) now minIdle items = handedOut stream now minIdle items := by
  unfold handedOut
  rw [find_of_entries (claim_entries ..)]

/-- The loop claims the abandoned items of the page one by one; the clock stands still. -/
theorem claimEach_runs {items : List PendingEntry} (listed : (items.map PendingEntry.id).Nodup)
    (distinct : stream.pendingIds.Nodup) (present : ∀ item ∈ items, item ∈ stream.pending)
    (reclaimed : List StreamEntry) :
    ∃ stream', Runs Broker.answer
        (ReportQueue.claimEach consumer minIdle (items.map (reported now)) reclaimed) object ⟨now, stream⟩
        (.ok (reclaimed ++ handedOut stream now minIdle items)) object ⟨now, stream'⟩ ∧
      Swept now minIdle consumer items stream stream' := by
  induction items generalizing stream reclaimed with
  | nil =>
    refine ⟨stream, ?_, .nil distinct⟩
    rw [handedOut, List.filter_nil, List.filterMap_nil, List.append_nil]
    exact Runs.pure
  | cons item items ih =>
    obtain ⟨new, listed⟩ := List.nodup_cons.mp listed
    obtain ⟨member, present⟩ := List.forall_mem_cons.mp present
    rw [List.map_cons, ReportQueue.claimEach]
    by_cases abandoned : Abandoned now minIdle item
    · have others : ∀ later ∈ items, later.id ≠ item.id := by
        intro later member same
        exact new (List.mem_map.mpr ⟨later, member, same⟩)
      have present' : ∀ later ∈ items, later ∈ (stream.claim now consumer minIdle item.id).pending :=
        fun later member' => (mem_claim distinct member abandoned).mpr (.inl ⟨present later member', others later member'⟩)
      obtain ⟨stream', runs, swept⟩ := ih listed (claim_distinct distinct ..) present'
        (reclaimed ++ stream.claimed now minIdle item.id)
      refine ⟨stream', ?_, swept.claim distinct member abandoned others⟩
      have old : ¬ (reported now item).timeSinceDelivered < minIdle := Nat.not_lt_of_le abandoned
      rw [if_neg old, handedOut_cons abandoned, ← List.append_assoc, ← claimed_abandoned member abandoned]
      rw [handedOut_claim] at runs
      exact Runs.bind (Runs.await rfl) runs
    · obtain ⟨stream', runs, swept⟩ := ih listed distinct present reclaimed
      refine ⟨stream', ?_, swept.skip abandoned⟩
      have young : (reported now item).timeSinceDelivered < minIdle := Nat.lt_of_not_le abandoned
      rw [if_pos young]
      rwa [handedOut, List.filter_cons_of_neg (by rwa [decide_eq_true_iff])]

/-- The whole call: one page of a hundred items, and the loop over it. -/
theorem claimAbandoned_runs (settings : QueueSettings) (consumer : String) (minIdle : ℕ)
    (distinct : stream.pendingIds.Nodup) :
    ∃ stream', Runs Broker.answer (ReportQueue.claimAbandoned settings consumer (some minIdle)) object ⟨now, stream⟩
        (.ok (handedOut stream now minIdle (stream.pending.take 100))) object ⟨now, stream'⟩ ∧
      Swept now minIdle consumer (stream.pending.take 100) stream stream' := by
  have listed : ((stream.pending.take 100).map PendingEntry.id).Nodup :=
    distinct.sublist ((List.take_sublist ..).map PendingEntry.id)
  obtain ⟨stream', runs, swept⟩ := @claimEach_runs σ object stream now minIdle consumer _ listed distinct
    (fun _ => List.mem_of_mem_take) []
  exact ⟨stream', Runs.bind (Runs.await rfl) runs, swept⟩

/-- What is handed out comes from an abandoned item of the list. -/
theorem mem_handedOut {items : List PendingEntry} {id : ℕ} :
    id ∈ (handedOut stream now minIdle items).map StreamEntry.id ↔
      ∃ item ∈ items, Abandoned now minIdle item ∧ stream.find item.id ≠ none ∧ item.id = id := by
  simp only [handedOut, List.mem_map, List.mem_filterMap, List.mem_filter, decide_eq_true_iff]
  constructor
  · rintro ⟨entry, ⟨item, ⟨member, abandoned⟩, found⟩, rfl⟩
    refine ⟨item, member, abandoned, ?_, (find_id found).symm⟩
    rw [found]
    exact Option.some_ne_none entry
  · rintro ⟨item, member, abandoned, present, rfl⟩
    obtain ⟨entry, found⟩ := Option.ne_none_iff_exists'.mp present
    exact ⟨entry, ⟨item, ⟨member, abandoned⟩, found⟩, find_id found⟩

theorem of_mem_handedOut {items : List PendingEntry} {entry : StreamEntry}
    (handed : entry ∈ handedOut stream now minIdle items) :
    entry ∈ stream.entries ∧ ∃ item ∈ items, Abandoned now minIdle item ∧ item.id = entry.id := by
  simp only [handedOut, List.mem_filterMap, List.mem_filter, decide_eq_true_iff] at handed
  obtain ⟨item, ⟨member, abandoned⟩, found⟩ := handed
  exact ⟨List.mem_of_find?_eq_some found, item, member, abandoned, (find_id found).symm⟩

theorem handedOut_nodup {items : List PendingEntry} (listed : (items.map PendingEntry.id).Nodup) :
    ((handedOut stream now minIdle items).map StreamEntry.id).Nodup := by
  induction items with
  | nil => exact .nil
  | cons item items ih =>
    obtain ⟨new, listed⟩ := List.nodup_cons.mp listed
    by_cases abandoned : Abandoned now minIdle item
    · rw [handedOut_cons abandoned]
      cases found : stream.find item.id with
      | none => exact ih listed
      | some entry =>
        refine List.nodup_cons.mpr ⟨?_, ih listed⟩
        intro again
        obtain ⟨later, member, _, _, same⟩ := mem_handedOut.mp again
        exact new (List.mem_map.mpr ⟨later, member, same.trans (find_id found)⟩)
    · rw [handedOut, List.filter_cons_of_neg (by rwa [decide_eq_true_iff])]
      exact ih listed

end Loop

/-! ### A sweep reclaims what it should -/

/-- Every abandoned entry is reclaimed exactly once and has changed hands; no other one is touched. -/
structure Reclaims (minIdle : ℕ) (consumer : String) (broker : Broker) (reclaimed : List StreamEntry)
    (broker' : Broker) : Prop where
  once : ∀ item ∈ broker.stream.pending, Abandoned broker.now minIdle item →
    (reclaimed.map StreamEntry.id).count item.id = 1 ∧
      takenOver broker.now consumer item ∈ broker'.stream.pending
  only : ∀ entry ∈ reclaimed, entry ∈ broker.stream.entries ∧
    ∃ item ∈ broker.stream.pending, Abandoned broker.now minIdle item ∧ item.id = entry.id
  others : ∀ item ∈ broker.stream.pending, ¬ Abandoned broker.now minIdle item → item ∈ broker'.stream.pending
  distinct : broker'.stream.pendingIds.Nodup
  now : broker'.now = broker.now

/-- The sweep finds every abandoned entry. -/
def WithinReach (minIdle : ℕ) (broker : Broker) : Prop :=
  ∀ item ∈ broker.stream.pending, Abandoned broker.now minIdle item →
    item ∈ broker.stream.pending.take 100 ∧ broker.stream.find item.id ≠ none

section Reclaims

variable {σ : Type} {object : σ} {settings : QueueSettings} {minIdle : ℕ} {consumer : String} {broker : Broker}

theorem reclaims_of_withinReach (distinct : broker.stream.pendingIds.Nodup) (reach : WithinReach minIdle broker) :
    ∃ reclaimed broker', Runs Broker.answer (ReportQueue.claimAbandoned settings consumer (some minIdle)) object
      broker (.ok reclaimed) object broker' ∧ Reclaims minIdle consumer broker reclaimed broker' := by
  obtain ⟨stream', runs, swept⟩ := @claimAbandoned_runs σ object broker.stream broker.now settings consumer minIdle
    distinct
  refine ⟨_, _, runs, ?_⟩
  constructor
  · intro item member abandoned
    obtain ⟨first, present⟩ := reach item member abandoned
    constructor
    · have listed : ((broker.stream.pending.take 100).map PendingEntry.id).Nodup :=
        distinct.sublist ((List.take_sublist ..).map PendingEntry.id)
      exact List.count_eq_one_of_mem (handedOut_nodup listed) (mem_handedOut.mpr ⟨item, first, abandoned, present, rfl⟩)
    · exact (swept.pending _).mpr (.inr ⟨item, first, abandoned, present, rfl⟩)
  · intro entry member
    obtain ⟨present, item, first, abandoned, same⟩ := of_mem_handedOut member
    exact ⟨present, item, List.mem_of_mem_take first, abandoned, same⟩
  · intro item member young
    refine (swept.pending item).mpr (.inl ⟨member, ?_⟩)
    intro other first abandoned same
    obtain rfl := same_item distinct member (List.mem_of_mem_take first) same
    exact young abandoned
  · exact swept.distinct
  · rfl

theorem withinReach_of_reclaims (distinct : broker.stream.pendingIds.Nodup) {reclaimed : List StreamEntry}
    {broker' : Broker} (runs : Runs Broker.answer (ReportQueue.claimAbandoned settings consumer (some minIdle)) object
      broker (.ok reclaimed) object broker') (reclaims : Reclaims minIdle consumer broker reclaimed broker') :
    WithinReach minIdle broker := by
  intro item member abandoned
  obtain ⟨stream', alone, _⟩ := @claimAbandoned_runs σ object broker.stream broker.now settings consumer minIdle
    distinct
  cases alone.symm.trans runs
  have once := (reclaims.once item member abandoned).1
  have handed := List.count_pos_iff.mp (once ▸ Nat.one_pos)
  obtain ⟨other, first, _, present, same⟩ := mem_handedOut.mp handed
  obtain rfl := same_item distinct (List.mem_of_mem_take first) member same
  exact ⟨first, present⟩

end Reclaims

/-- A sweep reclaims every abandoned entry exactly when each of them is on the first page of the pending list
and is still in the stream. -/
theorem sweep_exact (settings : QueueSettings) (consumer : String) (minIdle : ℕ) (broker : Broker)
    (distinct : broker.stream.pendingIds.Nodup) :
    (∃ reclaimed broker', Runs Broker.answer (ReportQueue.claimAbandoned settings consumer (some minIdle)) ()
      broker (.ok reclaimed) () broker' ∧ Reclaims minIdle consumer broker reclaimed broker') ↔
      WithinReach minIdle broker := by
  constructor
  · rintro ⟨reclaimed, broker', runs, reclaims⟩
    exact withinReach_of_reclaims distinct runs reclaims
  · exact reclaims_of_withinReach distinct

/-- Two entries, one of a crashed worker. -/
def crashed : Broker :=
  ⟨60000, ⟨[⟨1, [("task_id", "task-1")]⟩, ⟨2, [("task_id", "task-2")]⟩], 2, 2,
    [⟨1, "worker-a", 59000, 1⟩, ⟨2, "worker-b", 0, 1⟩]⟩⟩

theorem sweep_exact_crashed : ∃ reclaimed broker',
    Runs Broker.answer (ReportQueue.claimAbandoned ⟨1000, 60000⟩ "worker-a" (some 60000)) () crashed (.ok reclaimed) ()
      broker' ∧ Reclaims 60000 "worker-a" crashed reclaimed broker' := by
  refine (sweep_exact ⟨1000, 60000⟩ "worker-a" 60000 crashed (by decide)).mpr ?_
  unfold WithinReach
  decide

/-- A hundred entries that are at work, and behind them one of a crashed worker. -/
def crowded : Broker :=
  ⟨60000, ⟨(List.range' 1 101).map fun id => ⟨id, []⟩, 101, 101,
    ((List.range' 1 100).map fun id => ⟨id, "worker-a", 59000, 1⟩) ++ [⟨101, "worker-b", 0, 1⟩]⟩⟩

theorem crowded_distinct : crowded.stream.pendingIds.Nodup := by
  have ids : crowded.stream.pendingIds = List.range' 1 101 := by decide +kernel
  rw [ids]
  exact List.nodup_range'

/-- The abandoned entry on the second page is not reclaimed. -/
theorem second_page_missed :
    ¬ ∀ (settings : QueueSettings) (consumer : String) (minIdle : ℕ) (broker : Broker), 0 < minIdle →
      broker.stream.pendingIds.Nodup →
      ∃ reclaimed broker', Runs Broker.answer (ReportQueue.claimAbandoned settings consumer (some minIdle)) ()
        broker (.ok reclaimed) () broker' ∧ Reclaims minIdle consumer broker reclaimed broker' := by
  intro claimed
  obtain ⟨reclaimed, broker', runs, reclaims⟩ := claimed ⟨1000, 60000⟩ "worker-a" 60000 crowded (by decide)
    crowded_distinct
  have reach := withinReach_of_reclaims crowded_distinct runs reclaims
  have member : (⟨101, "worker-b", 0, 1⟩ : PendingEntry) ∈ crowded.stream.pending :=
    List.mem_append_right _ (List.mem_singleton_self _)
  obtain ⟨first, _⟩ := reach _ member (by decide)
  have page : crowded.stream.pending.take 100 = (List.range' 1 100).map fun id => ⟨id, "worker-a", 59000, 1⟩ :=
    List.take_left' (by rw [List.length_map, List.length_range'])
  rw [page] at first
  obtain ⟨id, _, same⟩ := List.mem_map.mp first
  have owner : "worker-a" = "worker-b" := congrArg PendingEntry.consumer same
  exact absurd owner (by decide)

end Quartr.Soundness
