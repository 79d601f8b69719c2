import Quartr.Soundness.Stream
import Quartr.Soundness.StreamCommands

/-! # The stream and its history

Redis forgets an entry that is removed and an item that is acknowledged; the world of `service` keeps both.
`HistoryOf` says that a stream as Redis keeps it is what is left of such a history, whose entries are counted
from zero where Redis counts from one. Each command on the stream has its counterpart on the history.
-/

namespace Quartr.Soundness

open Quartr.Machine Quartr.Model

/-- The entries of a history that have not been removed, counted from a number on. -/
def surviving (first : ℕ) : List Entry → List StreamEntry
  | [] => []
  | entry :: rest =>
    if entry.deleted then surviving (first + 1) rest else ⟨first, entry.fields⟩ :: surviving (first + 1) rest

section Surviving

variable {first index : ℕ} {history rest : List Entry} {entry : StreamEntry}

@[simp] theorem surviving_nil : surviving first [] = [] := rfl

theorem surviving_append : surviving first (history ++ rest) =
    surviving first history ++ surviving (first + history.length) rest := by
  induction history generalizing first with
  | nil => simp
  | cons own history ih =>
    have next : first + 1 + history.length = first + (own :: history).length := by simp only [List.length_cons]; omega
    simp only [List.cons_append, surviving, ih, next]
    split_ifs <;> simp

theorem mem_surviving : entry ∈ surviving first history ↔
    ∃ index own, history[index]? = some own ∧ own.deleted = false ∧ entry = ⟨first + index, own.fields⟩ := by
  induction history generalizing first with
  | nil => simp
  | cons own history ih =>
    have later : entry ∈ surviving (first + 1) history ↔ ∃ index own', (own :: history)[index + 1]? = some own' ∧
        own'.deleted = false ∧ entry = ⟨first + (index + 1), own'.fields⟩ := by
      simp only [ih, List.getElem?_cons_succ]
      constructor <;>
      · rintro ⟨index, own', present, here, rfl⟩
        exact ⟨index, own', present, here, by congr 1; omega⟩
    constructor
    · intro member
      simp only [surviving] at member
      split_ifs at member with gone
      · obtain ⟨index, rest⟩ := later.mp member
        exact ⟨index + 1, rest⟩
      · rcases List.mem_cons.mp member with rfl | member
        · exact ⟨0, own, rfl, by simpa using gone, rfl⟩
        · obtain ⟨index, rest⟩ := later.mp member
          exact ⟨index + 1, rest⟩
    · rintro ⟨index, own', present, here, same⟩
      simp only [surviving]
      cases index with
      | zero =>
        cases present
        rw [if_neg (by simp [here]), same]
        exact List.mem_cons_self ..
      | succ index =>
        have member := later.mpr ⟨index, own', present, here, same⟩
        split_ifs
        · exact member
        · exact List.mem_cons_of_mem _ member

theorem surviving_length : (surviving first history).length =
    (history.filter fun entry => !entry.deleted).length := by
  induction history generalizing first with
  | nil => rfl
  | cons own history ih =>
    cases gone : own.deleted <;> simp [surviving, gone, ih]

/-- A change that removes nothing. -/
theorem surviving_modify {change : Entry → Entry} (fields : ∀ own, (change own).fields = own.fields)
    (deleted : ∀ own, (change own).deleted = own.deleted) :
    surviving first (history.modify index change) = surviving first history := by
  induction history generalizing first index with
  | nil => simp
  | cons own history ih =>
    cases index with
    | zero => simp [surviving, fields, deleted]
    | succ index => simp [surviving, ih]

theorem le_surviving (member : entry ∈ surviving first history) : first ≤ entry.id := by
  obtain ⟨index, own, _, _, rfl⟩ := mem_surviving.mp member
  exact Nat.le_add_right ..

theorem surviving_delete : surviving first (history.modify index Entry.delete) =
    (surviving first history).filter fun entry => entry.id ≠ first + index := by
  induction history generalizing first index with
  | nil => simp
  | cons own history ih =>
    cases index with
    | zero =>
      have others : (surviving (first + 1) history).filter (fun entry => !decide (entry.id = first)) =
          surviving (first + 1) history := by
        apply List.filter_eq_self.mpr
        intro entry member
        have above := le_surviving member
        simp only [Bool.not_eq_true', decide_eq_false_iff_not]
        omega
      cases gone : own.deleted <;> simp only [List.modify_zero_cons, surviving, Entry.delete, gone, ↓reduceIte,
        Bool.false_eq_true, ne_eq, decide_not, Nat.add_zero, List.filter_cons, decide_true, Bool.not_true, others]
    | succ index =>
      have next : first + 1 + index = first + (index + 1) := by omega
      cases gone : own.deleted <;> simp [surviving, gone, ih, next]

end Surviving

/-- The stream is what Redis keeps of the history. -/
structure HistoryOf (history : List Entry) (stream : RedisStream) : Prop where
  length : history.length = stream.lastId
  entries : stream.entries = surviving 1 history
  distinct : stream.pendingIds.Nodup
  acked : ∀ index own, history[index]? = some own → own.status = .acked → index + 1 ∉ stream.pendingIds
  begun : ∀ index own, history[index]? = some own → own.status ≠ .waiting → index + 1 ≤ stream.lastDelivered
  unacked : ∀ index own, history[index]? = some own → own.status ≠ .acked → own.deleted = false →
    index + 1 ≤ stream.lastDelivered → index + 1 ∈ stream.pendingIds

section Commands

variable {history : List Entry} {stream : RedisStream} {index : ℕ} {own : Entry}

theorem historyOf_empty : HistoryOf [] .empty := by
  refine ⟨rfl, rfl, List.nodup_nil, ?_, ?_, ?_⟩ <;> · rintro index own ⟨⟩

/-- An entry that is left is on the stream. -/
theorem HistoryOf.shows (recorded : HistoryOf history stream) (found : history[index]? = some own)
    (here : own.deleted = false) : ∃ entry ∈ stream.entries, entry.id = index + 1 ∧ entry.fields = own.fields := by
  refine ⟨⟨1 + index, own.fields⟩, ?_, Nat.add_comm .., rfl⟩
  rw [recorded.entries]
  exact mem_surviving.mpr ⟨index, own, found, here, rfl⟩

theorem HistoryOf.present (recorded : HistoryOf history stream) (found : history[index]? = some own)
    (here : own.deleted = false) : index + 1 ∈ stream.ids := by
  obtain ⟨entry, member, numbered, _⟩ := recorded.shows found here
  exact mem_ids.mpr ⟨entry, member, numbered⟩

/-- An entry on the stream is left of the history. -/
theorem HistoryOf.found (recorded : HistoryOf history stream) {entry : StreamEntry}
    (member : entry ∈ stream.entries) : ∃ index own, entry.id = index + 1 ∧ history[index]? = some own ∧
      own.fields = entry.fields ∧ own.deleted = false := by
  rw [recorded.entries] at member
  obtain ⟨index, own, found, here, rfl⟩ := mem_surviving.mp member
  exact ⟨index, own, Nat.add_comm .., found, rfl, here⟩

theorem HistoryOf.depth (recorded : HistoryOf history stream) :
    (history.filter fun entry => !entry.deleted).length = stream.entries.length := by
  rw [recorded.entries, surviving_length]

theorem HistoryOf.add (recorded : HistoryOf history stream) (ordered : Ordered stream)
    (fields : List (String × String)) : HistoryOf (history ++ [⟨fields, .waiting, false⟩]) (stream.add fields) := by
  have cases_of {index : ℕ} {own : Entry} (found : (history ++ [⟨fields, .waiting, false⟩])[index]? = some own) :
      history[index]? = some own ∨ (index = stream.lastId ∧ own = ⟨fields, .waiting, false⟩) := by
    by_cases old : index < history.length
    · rw [List.getElem?_append_left old] at found
      exact .inl found
    · rw [List.getElem?_append_right (by omega)] at found
      obtain ⟨inside, same⟩ := List.getElem?_eq_some_iff.mp found
      have first : index - history.length = 0 := by simp only [List.length_singleton] at inside; omega
      have whole := recorded.length
      refine .inr ⟨by omega, ?_⟩
      simp only [first, List.getElem_cons_zero] at same
      exact same.symm
  refine ⟨?_, ?_, recorded.distinct, ?_, ?_, ?_⟩
  · rw [List.length_append, recorded.length]
    rfl
  · show stream.entries ++ _ = _
    rw [surviving_append, recorded.entries, recorded.length, Nat.add_comm 1]
    rfl
  · intro index own found acked
    rcases cases_of found with old | ⟨_, rfl⟩
    · exact recorded.acked index own old acked
    · cases acked
  · intro index own found begun
    rcases cases_of found with old | ⟨_, rfl⟩
    · exact recorded.begun index own old begun
    · exact absurd rfl begun
  · intro index own found unacked here delivered
    rcases cases_of found with old | ⟨rfl, rfl⟩
    · exact recorded.unacked index own old unacked here delivered
    · have bound : stream.lastDelivered ≤ stream.lastId := ordered.delivered
      have reached : stream.lastId + 1 ≤ stream.lastDelivered := delivered
      omega

/-- XREADGROUP leaves the history alone. -/
theorem HistoryOf.readGroup (recorded : HistoryOf history stream) (ordered : Ordered stream)
    (begun : ∀ id ∈ stream.pendingIds, id ≤ stream.lastDelivered) (now : ℕ) (consumer : String) (count : ℕ) :
    HistoryOf history (stream.readGroup now consumer count) := by
  obtain ⟨_, _, exactly⟩ := ordered.handed count
  have later := le_last stream count
  have fresh : (freshIds stream count).Nodup := by
    have sorted : (stream.ids.filter (stream.lastDelivered < ·)).Pairwise (· < ·) := ordered.sorted.filter _
    exact (sorted.sublist (List.take_sublist ..)).imp fun less => Nat.ne_of_lt less
  refine ⟨recorded.length, recorded.entries, ?_, ?_, ?_, ?_⟩
  · rw [readGroup_pendingIds]
    apply List.nodup_append.mpr
    refine ⟨recorded.distinct, fresh, ?_⟩
    rintro id old id' new rfl
    have above := (mem_freshIds new).2
    have below := begun id old
    omega
  · intro index own found acked
    rw [readGroup_pendingIds, List.mem_append]
    rintro (old | new)
    · exact recorded.acked index own found acked old
    · have above := (mem_freshIds new).2
      have below := recorded.begun index own found (by rw [acked]; decide)
      omega
  · intro index own found status
    rw [readGroup_lastDelivered]
    exact (recorded.begun index own found status).trans later
  · intro index own found unacked here delivered
    rw [readGroup_lastDelivered] at delivered
    rw [readGroup_pendingIds, List.mem_append]
    rcases exactly _ (recorded.present found here) delivered with old | new
    · exact .inl (recorded.unacked index own found unacked here old)
    · exact .inr new

theorem HistoryOf.claim (recorded : HistoryOf history stream) (now : ℕ) (consumer : String) (minIdle id : ℕ) :
    HistoryOf history (stream.claim now consumer minIdle id) := by
  obtain ⟨_, lastId, lastDelivered⟩ := claim_rest stream now consumer minIdle id
  have entries : (stream.claim now consumer minIdle id).entries = stream.entries := by
    unfold RedisStream.claim
    split_ifs <;> rfl
  have ids : (stream.find id = none ∧ (stream.claim now consumer minIdle id).pendingIds =
      stream.pendingIds.filter (· ≠ id)) ∨ (stream.claim now consumer minIdle id).pendingIds = stream.pendingIds := by
    unfold RedisStream.claim
    split_ifs with missing claimable
    · refine .inl ⟨missing, ?_⟩
      simp only [RedisStream.pendingIds, List.filter_map]
      rfl
    · exact .inr (handOver_id ..)
    · exact .inr rfl
  refine ⟨recorded.length.trans lastId.symm, entries.trans recorded.entries, ?_, ?_, ?_, ?_⟩
  · rcases ids with ⟨_, same⟩ | same
    · exact same ▸ recorded.distinct.filter _
    · exact same ▸ recorded.distinct
  · intro index own found acked pending
    exact recorded.acked index own found acked (mem_of_claim pending)
  · intro index own found status
    rw [lastDelivered]
    exact recorded.begun index own found status
  · intro index own found unacked here delivered
    rw [lastDelivered] at delivered
    have pending := recorded.unacked index own found unacked here delivered
    rcases ids with ⟨missing, same⟩ | same
    · rw [same, List.mem_filter]
      refine ⟨pending, decide_eq_true ?_⟩
      rintro rfl
      obtain ⟨entry, member, own⟩ := mem_ids.mp (recorded.present found here)
      exact List.find?_eq_none.mp missing entry member (decide_eq_true own)
    · exact same ▸ pending

/-- XACK of an entry whose handling has begun. -/
theorem HistoryOf.ack (recorded : HistoryOf history stream) (found : history[index]? = some own)
    (begun : own.status ≠ .waiting) : HistoryOf (history.modify index Entry.ack) (stream.ack (index + 1)) := by
  have ids : (stream.ack (index + 1)).pendingIds = stream.pendingIds.filter (· ≠ index + 1) := by
    simp only [RedisStream.pendingIds, RedisStream.ack, List.filter_map]
    rfl
  have acked : own.ack.status = .acked := by
    cases status : own.status with
    | waiting => exact absurd status begun
    | pending | acked => simp [Entry.ack, status]
  refine ⟨?_, ?_, ids ▸ recorded.distinct.filter _, ?_, ?_, ?_⟩
  · rw [List.length_modify]
    exact recorded.length
  · rw [surviving_modify ack_fields fun own => by unfold Entry.ack; split_ifs <;> rfl]
    exact recorded.entries
  · intro other after present status
    obtain ⟨before, old, rfl⟩ := before_modify present
    rw [ids, List.mem_filter]
    rintro ⟨pending, differs⟩
    have differs := of_decide_eq_true differs
    rw [if_neg (by omega)] at status
    exact recorded.acked other before old status pending
  · intro other after present status
    obtain ⟨before, old, rfl⟩ := before_modify present
    split_ifs at status with same
    · subst same
      cases found.symm.trans old
      exact recorded.begun index own found begun
    · exact recorded.begun other before old status
  · intro other after present unacked here delivered
    obtain ⟨before, old, rfl⟩ := before_modify present
    split_ifs at unacked here with same
    · subst same
      cases found.symm.trans old
      exact absurd acked unacked
    · rw [ids, List.mem_filter]
      exact ⟨recorded.unacked other before old unacked here delivered, decide_eq_true (by omega)⟩

/-- XDEL. -/
theorem HistoryOf.delete (recorded : HistoryOf history stream) (index : ℕ) :
    HistoryOf (history.modify index Entry.delete) (stream.delete (index + 1)) := by
  have status_of {other : ℕ} {before : Entry} :
      (if index = other then before.delete else before).status = before.status := by
    split_ifs <;> rfl
  refine ⟨?_, ?_, recorded.distinct, ?_, ?_, ?_⟩
  · rw [List.length_modify]
    exact recorded.length
  · rw [surviving_delete, ← recorded.entries, Nat.add_comm 1]
    rfl
  · intro other after present status
    obtain ⟨before, old, rfl⟩ := before_modify present
    exact recorded.acked other before old (status_of ▸ status)
  · intro other after present status
    obtain ⟨before, old, rfl⟩ := before_modify present
    exact recorded.begun other before old (status_of ▸ status)
  · intro other after present unacked here delivered
    obtain ⟨before, old, rfl⟩ := before_modify present
    split_ifs at here with same
    · cases here
    · exact recorded.unacked other before old (status_of ▸ unacked) here delivered

/-- The beginning of a handling shows in the history only. -/
theorem HistoryOf.deliver (recorded : HistoryOf history stream) (delivered : index + 1 ≤ stream.lastDelivered) :
    HistoryOf (history.modify index Entry.deliver) stream := by
  have deleted_of (own : Entry) : own.deliver.deleted = own.deleted := by
    unfold Entry.deliver
    split_ifs <;> rfl
  refine ⟨?_, ?_, recorded.distinct, ?_, ?_, ?_⟩
  · rw [List.length_modify]
    exact recorded.length
  · rw [surviving_modify deliver_fields deleted_of]
    exact recorded.entries
  · intro other after present status
    obtain ⟨before, old, rfl⟩ := before_modify present
    split_ifs at status with same
    · exact recorded.acked other before old ((deliver_status before).mp status)
    · exact recorded.acked other before old status
  · intro other after present status
    obtain ⟨before, old, rfl⟩ := before_modify present
    split_ifs at status with same
    · exact same ▸ delivered
    · exact recorded.begun other before old status
  · intro other after present unacked here reached
    obtain ⟨before, old, rfl⟩ := before_modify present
    split_ifs at unacked here with same
    · rw [deleted_of] at here
      exact recorded.unacked other before old (fun acked => unacked ((deliver_status before).mpr acked)) here reached
    · exact recorded.unacked other before old unacked here reached

end Commands

end Quartr.Soundness
