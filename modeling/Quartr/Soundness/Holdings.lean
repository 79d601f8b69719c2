import Quartr.Soundness.History
import Quartr.Soundness.Leases

/-! # What a worker has in hand

Between being handed an entry and handling it a worker holds it, and meanwhile others are at work on the stream.
An entry whose time has not run out is still on the stream and unacknowledged when its turn comes, because
nobody but a worker that was handed it can acknowledge it.
-/

namespace Quartr.Model

/-- The handlings under way in a stage. -/
def Stage.running : Stage → List Handling
  | .reclaiming current _ => [current]
  | .batch running _ => running
  | _ => []

variable {fleet : Fleet} {workerId : String} {stage : Stage}

theorem Fleet.running_some (at_ : fleet.stage workerId = some stage) : fleet.running workerId = stage.running := by
  unfold Fleet.running
  rw [at_]
  cases stage <;> rfl

theorem Fleet.running_none (absent : fleet.stage workerId = none) : fleet.running workerId = [] := by
  unfold Fleet.running
  rw [absent]

end Quartr.Model

namespace Quartr.Soundness

open Quartr.Machine Quartr.Model
open Quartr.Machine.Coroutine (Follows follows_bind)

/-! ### Sweeps and reads -/

/-- What a sweep or a read has come to: the ids it may still claim, and the entries it was brought. -/
structure Haul where
  listed : List ℕ
  brought : List StreamEntry

/-- The ids a reply lists, and the entries it brings. -/
def listedIn : streamCalls.Reply (.xpendingRange 100) → List ℕ
  | .ok rows => rows.map PendingRow.messageId
  | .error _ => []

def broughtBy : Except CallError (List StreamEntry) → List StreamEntry
  | .ok entries => entries
  | .error _ => []

/-- The commands of a sweep and of a read. -/
inductive HaulStep (timeout : ℕ) (workerId : String) : Protocol streamCalls Haul
  | look (reply : streamCalls.Reply (.xpendingRange 100)) :
      HaulStep timeout workerId ⟨[], []⟩ (.xpendingRange 100) reply ⟨listedIn reply, []⟩
  | claim (skipped : List ℕ) (id : ℕ) (listed : List ℕ) (brought : List StreamEntry)
      (reply : streamCalls.Reply (.xclaim workerId timeout id)) :
      HaulStep timeout workerId ⟨skipped ++ id :: listed, brought⟩ (.xclaim workerId timeout id) reply
        ⟨listed, brought ++ broughtBy reply⟩
  | read (count : ℕ) (reply : streamCalls.Reply (.xreadgroup workerId count)) :
      HaulStep timeout workerId ⟨[], []⟩ (.xreadgroup workerId count) reply ⟨[], broughtBy reply⟩

/-- They return what they were brought. -/
def Hauled (result : Except Err (List StreamEntry)) (haul : Haul) : Prop :=
  ∀ entries, result = .ok entries → entries = haul.brought

section Hauls

variable {timeout : ℕ} {workerId : String}

theorem claimEach_hauls (skipped : List ℕ) (pending : List PendingRow) (reclaimed : List StreamEntry) :
    Follows (HaulStep timeout workerId) (ReportQueue.claimEach workerId timeout pending reclaimed) ()
      ⟨skipped ++ pending.map PendingRow.messageId, reclaimed⟩ fun result _ => Hauled result := by
  induction pending generalizing skipped reclaimed with
  | nil =>
    rintro entries ⟨⟩
    rfl
  | cons row rest ih =>
    unfold ReportQueue.claimEach
    split_ifs
    · have later := ih (skipped ++ [row.messageId]) reclaimed
      rw [List.append_assoc] at later
      exact later
    · apply follows_bind.mpr
      apply Coroutine.follows_await.mpr
      intro reply
      refine ⟨_, .claim skipped row.messageId _ reclaimed reply, ?_⟩
      cases reply with
      | error error => rintro entries ⟨⟩
      | ok claimed => exact ih [] (reclaimed ++ claimed)

theorem claimAbandoned_hauls (settings : QueueSettings) :
    Follows (HaulStep settings.pendingClaimTimeoutMs workerId) (ReportQueue.claimAbandoned settings workerId none)
      () ⟨[], []⟩ fun result _ => Hauled result := by
  apply follows_bind.mpr
  apply Coroutine.follows_await.mpr
  intro reply
  refine ⟨_, .look reply, ?_⟩
  cases reply with
  | error error => rintro entries ⟨⟩
  | ok pending => exact claimEach_hauls [] pending []

theorem read_hauls (count : ℕ) :
    Follows (HaulStep timeout workerId) (ReportQueue.read workerId count) () ⟨[], []⟩ fun result _ =>
      Hauled result := by
  apply Coroutine.follows_await.mpr
  intro reply
  refine ⟨_, .read count reply, ?_⟩
  rintro entries returned
  cases reply <;> cases returned
  rfl

end Hauls

/-! ### The stages -/

/-- What the worker in a stage has in hand besides the handlings under way. -/
def Hauling (timeout : ℕ) (workerId : String) (haul : Haul) : Stage → Prop
  | .sweeping rest => rest.Follows (HaulStep timeout workerId) (fun result => Hauled result.1) haul
  | .reclaiming _ waiting => haul = ⟨[], waiting⟩
  | .reading rest => rest.Follows (HaulStep timeout workerId) (fun result => Hauled result.1) haul
  | .batch _ waiting => haul = ⟨[], waiting⟩
  | .stopped => haul = ⟨[], []⟩

/-- The stage goes on with some of the handlings, begins some of the entries in hand and keeps others. -/
def Continues (timeout : ℕ) (workerId : String) (worker : Worker) (now : ℕ) (current : List Handling) (haul : Haul)
    (stage : Stage) : Prop :=
  ∃ kept begun waiting listed, kept.Sublist current ∧ (begun ++ waiting).Sublist haul.brought ∧
    listed.Sublist haul.listed ∧ stage.running = kept ++ begun.map (.begin worker now) ∧
      Hauling timeout workerId ⟨listed, waiting⟩ stage

section Stages

variable {loop : Loop} {worker : Worker} {now : ℕ} {current : List Handling} {haul : Haul}
  {entries : List StreamEntry}

theorem continues_stopped {timeout : ℕ} {workerId : String} :
    Continues timeout workerId worker now current haul .stopped :=
  ⟨[], [], [], [], List.nil_sublist _, List.nil_sublist _, List.nil_sublist _, rfl, rfl⟩

theorem continues_sweep (loop : Loop) :
    Continues loop.settings.pendingClaimTimeoutMs loop.workerId worker now current haul loop.sweep :=
  ⟨[], [], [], [], List.nil_sublist _, List.nil_sublist _, List.nil_sublist _, rfl, claimAbandoned_hauls loop.settings⟩

theorem continues_reclaim (loop : Loop) (entries : List StreamEntry) :
    Continues loop.settings.pendingClaimTimeoutMs loop.workerId worker now current ⟨haul.listed, entries⟩
      (loop.reclaim worker now entries) := by
  cases entries with
  | nil => exact ⟨[], [], [], [], List.nil_sublist _, List.nil_sublist _, List.nil_sublist _, rfl, read_hauls _⟩
  | cons entry rest =>
    exact ⟨[], [entry], rest, [], List.nil_sublist _, List.Sublist.refl _, List.nil_sublist _, rfl, rfl⟩

theorem continues_handleBatch (loop : Loop) (entries : List StreamEntry) :
    Continues loop.settings.pendingClaimTimeoutMs loop.workerId worker now current ⟨haul.listed, entries⟩
      (loop.handleBatch worker now entries) := by
  cases entries with
  | nil => exact continues_sweep loop
  | cons entry rest =>
    unfold Loop.handleBatch
    split_ifs
    · exact ⟨[], [entry], rest, [], List.nil_sublist _, List.Sublist.refl _, List.nil_sublist _, rfl, rfl⟩
    · refine ⟨[], entry :: rest, [], [], List.nil_sublist _, ?_, List.nil_sublist _, rfl, rfl⟩
      rw [List.append_nil]

theorem continues_swept {rest : Program streamCalls (Except Err (List StreamEntry) × Unit)}
    (follows : rest.Follows (HaulStep loop.settings.pendingClaimTimeoutMs loop.workerId)
      (fun result => Hauled result.1) haul) :
    Continues loop.settings.pendingClaimTimeoutMs loop.workerId worker now current haul
      (loop.swept worker now rest) := by
  cases rest with
  | done result =>
    obtain ⟨error | reclaimed, _⟩ := result
    · exact continues_stopped
    · have same : reclaimed = haul.brought := follows reclaimed rfl
      rw [Loop.swept, same]
      exact continues_reclaim loop haul.brought
  | await command next =>
    exact ⟨[], [], haul.brought, haul.listed, List.nil_sublist _, List.Sublist.refl _, List.Sublist.refl _, rfl,
      follows⟩

theorem continues_received {rest : Program streamCalls (Except Err (List StreamEntry) × Unit)}
    (follows : rest.Follows (HaulStep loop.settings.pendingClaimTimeoutMs loop.workerId)
      (fun result => Hauled result.1) haul) :
    Continues loop.settings.pendingClaimTimeoutMs loop.workerId worker now current haul
      (loop.received worker now rest) := by
  cases rest with
  | done result =>
    obtain ⟨error | messages, _⟩ := result
    · exact continues_stopped
    · have same : messages = haul.brought := follows messages rfl
      rw [Loop.received, same]
      exact continues_handleBatch loop haul.brought
  | await command next =>
    exact ⟨[], [], haul.brought, haul.listed, List.nil_sublist _, List.Sublist.refl _, List.Sublist.refl _, rfl,
      follows⟩

theorem continues_reclaimed (loop : Loop) (handling : Handling) (waiting : List StreamEntry) :
    Continues loop.settings.pendingClaimTimeoutMs loop.workerId worker now [handling] ⟨[], waiting⟩
      (loop.reclaimed worker now handling waiting) := by
  unfold Loop.reclaimed
  split
  · exact @continues_reclaim worker now _ ⟨[], []⟩ loop waiting
  · exact continues_stopped
  · refine ⟨[handling], [], waiting, [], List.Sublist.refl _, List.Sublist.refl _, List.nil_sublist _, rfl, rfl⟩

theorem continues_handled (loop : Loop) (before : List Handling) (handling : Handling) (after : List Handling)
    (waiting : List StreamEntry) :
    Continues loop.settings.pendingClaimTimeoutMs loop.workerId worker now (before ++ handling :: after)
      ⟨[], waiting⟩ (loop.handled worker now before handling after waiting) := by
  have others : (before ++ after).Sublist (before ++ handling :: after) :=
    (List.Sublist.refl before).append (List.sublist_cons_self handling after)
  unfold Loop.handled
  split
  · split_ifs
    · exact @continues_handleBatch worker now _ ⟨[], []⟩ loop waiting
    · refine ⟨before ++ after, [], waiting, [], others, List.Sublist.refl _, List.nil_sublist _, ?_, rfl⟩
      exact (List.append_nil _).symm
  · exact continues_stopped
  · refine ⟨_, [], waiting, [], List.Sublist.refl _, List.Sublist.refl _, List.nil_sublist _, ?_, rfl⟩
    exact (List.append_nil _).symm

end Stages

/-! ### The entries in hand -/

/-- The history goes on; entries are acknowledged and removed among the touched ones only. -/
def Advances (touched : ℕ → Prop) (history history' : List Entry) : Prop :=
  ∀ index own, history[index]? = some own → ∃ own', history'[index]? = some own' ∧ own'.fields = own.fields ∧
    (own.status ≠ .waiting → own'.status ≠ .waiting) ∧
      (¬ touched index → (own'.status = .acked → own.status = .acked) ∧ own'.deleted = own.deleted)

section Advances

variable {touched : ℕ → Prop} {history history' : List Entry}

theorem advances_refl : Advances touched history history :=
  fun _ own present => ⟨own, present, rfl, id, fun _ => ⟨id, rfl⟩⟩

theorem Advances.trans {history'' : List Entry} (first : Advances touched history history')
    (second : Advances touched history' history'') : Advances touched history history'' := by
  intro index own present
  obtain ⟨own', present', fields, begun, quiet⟩ := first index own present
  obtain ⟨own'', present'', fields', begun', quiet'⟩ := second index own' present'
  exact ⟨own'', present'', fields'.trans fields, fun waiting => begun' (begun waiting), fun untouched =>
    ⟨fun acked => (quiet untouched).1 ((quiet' untouched).1 acked), (quiet' untouched).2.trans (quiet untouched).2⟩⟩

theorem Advances.mono {touched' : ℕ → Prop} (advances : Advances touched history history')
    (more : ∀ index, touched index → touched' index) : Advances touched' history history' := by
  intro index own present
  obtain ⟨own', present', fields, begun, quiet⟩ := advances index own present
  exact ⟨own', present', fields, begun, fun untouched => quiet fun touching => untouched (more index touching)⟩

theorem advances_append (entries : List Entry) : Advances touched history (history ++ entries) := by
  intro index own present
  have inside := (List.getElem?_eq_some_iff.mp present).1
  exact ⟨own, (List.getElem?_append_left inside).trans present, rfl, id, fun _ => ⟨id, rfl⟩⟩

theorem advances_modify {changed : ℕ} {change : Entry → Entry}
    (fields : ∀ own, (change own).fields = own.fields)
    (begun : ∀ own : Entry, own.status ≠ .waiting → (change own).status ≠ .waiting)
    (quiet : ¬ touched changed → ∀ own : Entry,
      ((change own).status = .acked → own.status = .acked) ∧ (change own).deleted = own.deleted) :
    Advances touched history (history.modify changed change) := by
  intro index own present
  refine ⟨if changed = index then change own else own, ?_, ?_, ?_, ?_⟩
  · rw [List.getElem?_modify, present]
    rfl
  · split_ifs
    · exact fields own
    · rfl
  · split_ifs
    · exact begun own
    · exact id
  · split_ifs with same
    · exact fun untouched => quiet (same ▸ untouched) own
    · exact fun _ => ⟨id, rfl⟩

theorem advances_ack (index : ℕ) : Advances (· = index) history (history.modify index Entry.ack) := by
  apply advances_modify ack_fields
  · intro own waiting
    unfold Entry.ack
    split_ifs
    · exact nofun
    · exact waiting
  · exact fun untouched => absurd rfl untouched

theorem advances_delete (index : ℕ) : Advances (· = index) history (history.modify index Entry.delete) :=
  advances_modify (fun _ => rfl) (fun _ waiting => waiting) fun untouched => absurd rfl untouched

theorem advances_deliver (index : ℕ) : Advances touched history (history.modify index Entry.deliver) := by
  apply advances_modify deliver_fields
  · intro own waiting
    rw [Entry.deliver, if_neg waiting]
    exact waiting
  · refine fun _ own => ⟨(deliver_status own).mp, ?_⟩
    unfold Entry.deliver
    split_ifs <;> rfl

end Advances

/-- The worker was handed the entry, and while its time is not up nobody has dealt with the entry. -/
def Entrusted (timeout : ℕ) (fleet : Fleet) (history : List Entry) (workerId : String) (entry : StreamEntry) :
    Prop :=
  fleet.Handed workerId entry.id ∧ ∃ index own, entry.id = index + 1 ∧ history[index]? = some own ∧
    own.fields = entry.fields ∧ ∀ time, fleet.handed workerId entry.id = some time →
      fleet.broker.now < time + timeout → own.status ≠ .acked ∧ own.deleted = false

/-- What a worker has in hand, besides the handlings it has under way, are other entries, entrusted to it. -/
structure Hand (timeout : ℕ) (fleet : Fleet) (history : List Entry) (workerId : String) (current : List Handling)
    (haul : Haul) : Prop where
  distinct : (current.map (fun handling => handling.entry.id) ++
    (haul.brought.map StreamEntry.id ++ haul.listed)).Nodup
  entrusted : ∀ entry ∈ haul.brought, Entrusted timeout fleet history workerId entry

section Hands

variable {timeout : ℕ} {fleet fleet' : Fleet} {history history' : List Entry} {workerId : String}
  {current : List Handling} {haul haul' : Haul} {entry : StreamEntry} {touched : ℕ → Prop}

/-- An entry stays entrusted while the worker is not handed it again and nobody else deals with it in time. -/
theorem Entrusted.later (entrusted : Entrusted timeout fleet history workerId entry)
    (advances : Advances touched history history')
    (same : fleet'.handed workerId entry.id = fleet.handed workerId entry.id)
    (later : fleet.broker.now ≤ fleet'.broker.now) (safe : ∀ index, entry.id = index + 1 → touched index →
      ∀ time, fleet.handed workerId entry.id = some time → ¬ fleet.broker.now < time + timeout) :
    Entrusted timeout fleet' history' workerId entry := by
  obtain ⟨handed, index, own, numbered, present, fields, kept⟩ := entrusted
  obtain ⟨own', present', fields', _, quiet⟩ := advances index own present
  refine ⟨?_, index, own', numbered, present', fields'.trans fields, ?_⟩
  · rw [Fleet.Handed, same]
    exact handed
  · intro time found early
    rw [same] at found
    have early : fleet.broker.now < time + timeout := by omega
    have untouched : ¬ touched index := fun touching => safe index numbered touching time found early
    obtain ⟨unacked, here⟩ := kept time found early
    exact ⟨fun acked => unacked ((quiet untouched).1 acked), (quiet untouched).2.trans here⟩

theorem Hand.later (hand : Hand timeout fleet history workerId current haul)
    (advances : Advances touched history history')
    (same : ∀ entry ∈ haul.brought, fleet'.handed workerId entry.id = fleet.handed workerId entry.id)
    (later : fleet.broker.now ≤ fleet'.broker.now) (safe : ∀ entry ∈ haul.brought, ∀ index, entry.id = index + 1 →
      touched index → ∀ time, fleet.handed workerId entry.id = some time → ¬ fleet.broker.now < time + timeout) :
    Hand timeout fleet' history' workerId current haul :=
  ⟨hand.distinct, fun entry member => (hand.entrusted entry member).later advances (same entry member) later
    (safe entry member)⟩

/-- The loop goes on with less in hand. -/
theorem Hand.continues (hand : Hand timeout fleet history workerId current haul) {worker : Worker} {now : ℕ}
    {kept : List Handling} {begun waiting : List StreamEntry} {listed : List ℕ} (fewer : kept.Sublist current)
    (part : (begun ++ waiting).Sublist haul.brought) (left : listed.Sublist haul.listed) :
    Hand timeout fleet history workerId (kept ++ begun.map (.begin worker now)) ⟨listed, waiting⟩ := by
  constructor
  · refine List.Nodup.sublist ?_ hand.distinct
    have begins : (begun.map (Handling.begin worker now)).map (fun handling => handling.entry.id) =
        begun.map StreamEntry.id := by
      rw [List.map_map]
      rfl
    have ids := part.map StreamEntry.id
    rw [List.map_append] at ids
    rw [List.map_append, begins, List.append_assoc, ← List.append_assoc (begun.map StreamEntry.id)]
    exact (fewer.map _).append (ids.append left)
  · intro entry member
    exact hand.entrusted entry (part.mem (List.mem_append_right _ member))

/-- A command that does not hand the worker the entry again. -/
theorem Entrusted.execute (entrusted : Entrusted timeout fleet history workerId entry) {command : StreamCall}
    (other : entry.id ∉ fleet.broker.handsOut command workerId) :
    Entrusted timeout (fleet.execute command) history workerId entry := by
  have same : (fleet.execute command).handed workerId entry.id = fleet.handed workerId entry.id := if_neg other
  have advances : Advances (fun _ => False) history history := advances_refl
  exact entrusted.later advances same le_rfl fun _ _ touching => touching.elim

/-- What a command hands to the worker is entrusted to it. -/
theorem entrusted_of_handsOut (recorded : HistoryOf history fleet.broker.stream) {command : StreamCall}
    (out : entry.id ∈ fleet.broker.handsOut command workerId) (member : entry ∈ fleet.broker.stream.entries)
    (owed : ∀ index own, entry.id = index + 1 → history[index]? = some own → own.status ≠ .acked) :
    Entrusted timeout (fleet.execute command) history workerId entry := by
  obtain ⟨index, own, numbered, present, fields, here⟩ := recorded.found member
  exact ⟨handed_of_handsOut out, index, own, numbered, present, fields, fun _ _ _ =>
    ⟨owed index own numbered present, here⟩⟩

theorem claimed_cases {stream : RedisStream} {now minIdle id : ℕ} (member : entry ∈ stream.claimed now minIdle id) :
    entry ∈ stream.entries ∧ entry.id = id ∧ id ∈ stream.pendingIds := by
  unfold RedisStream.claimed at member
  split_ifs at member with claimable
  · obtain ⟨item, pending, own, _⟩ := claimable
    have found : stream.find id = some entry := Option.mem_toList.mp member
    exact ⟨List.mem_of_find?_eq_some found, find_id found, mem_pendingIds.mpr ⟨item, pending, own⟩⟩
  · exact absurd member List.not_mem_nil

theorem claimed_ids (stream : RedisStream) (now minIdle id : ℕ) :
    ((stream.claimed now minIdle id).map StreamEntry.id).Sublist [id] := by
  unfold RedisStream.claimed
  split_ifs
  · cases found : stream.find id with
    | none => exact List.nil_sublist _
    | some entry =>
      rw [Option.toList_some, List.map_singleton, find_id found]
  · exact List.nil_sublist _

theorem Hand.look (recorded : HistoryOf history fleet.broker.stream)
    {reply : streamCalls.Reply (.xpendingRange 100)} (served : fleet.Serves (.xpendingRange 100) reply fleet') :
    Hand timeout fleet' history workerId [] ⟨listedIn reply, []⟩ := by
  refine ⟨?_, fun entry member => absurd member List.not_mem_nil⟩
  cases served with
  | done =>
    have listed : listedIn (fleet.broker.reply (.xpendingRange 100)) =
        (fleet.broker.stream.pending.take 100).map PendingEntry.id := by
      show ((fleet.broker.stream.pending.take 100).map _).map PendingRow.messageId = _
      rw [List.map_map]
      rfl
    rw [listed]
    exact List.Nodup.sublist ((List.take_sublist ..).map _) recorded.distinct
  | lost | raised => exact List.nodup_nil

theorem Hand.claim {skipped listed : List ℕ} {id : ℕ} {brought : List StreamEntry}
    (hand : Hand timeout fleet history workerId [] ⟨skipped ++ id :: listed, brought⟩)
    (recorded : HistoryOf history fleet.broker.stream) {reply : streamCalls.Reply (.xclaim workerId timeout id)}
    (served : fleet.Serves (.xclaim workerId timeout id) reply fleet') :
    Hand timeout fleet' history workerId [] ⟨listed, brought ++ broughtBy reply⟩ := by
  have others : ∀ entry ∈ brought, entry.id ≠ id := by
    intro entry member same
    have apart := (List.nodup_append.mp hand.distinct).2.1
    have disjoint := (List.nodup_append.mp apart).2.2
    exact disjoint entry.id (List.mem_map_of_mem member) id (by simp) same
  have distinct {claimed : List StreamEntry} (one : (claimed.map StreamEntry.id).Sublist [id]) :
      (([] : List ℕ) ++ ((brought ++ claimed).map StreamEntry.id ++ listed)).Nodup := by
    refine List.Nodup.sublist ?_ hand.distinct
    rw [List.map_append, List.append_assoc]
    apply List.Sublist.append (List.Sublist.refl _)
    apply List.Sublist.append (List.Sublist.refl _)
    exact (one.append (List.Sublist.refl listed)).trans (List.sublist_append_right skipped _)
  have executed (entry : StreamEntry) (member : entry ∈ brought) :
      Entrusted timeout (fleet.execute (.xclaim workerId timeout id)) history workerId entry := by
    apply (hand.entrusted entry member).execute
    intro out
    exact others entry member (handsOut_claim out).2.1
  cases served with
  | done =>
    refine ⟨distinct (claimed_ids ..), ?_⟩
    intro entry member
    rcases List.mem_append.mp member with old | new
    · exact executed entry old
    · obtain ⟨there, rfl, pending⟩ := claimed_cases new
      apply entrusted_of_handsOut recorded _ there
      · rintro index own numbered present acked
        exact recorded.acked index own present acked (numbered ▸ pending)
      · rw [Broker.handsOut, if_pos rfl]
        exact List.mem_map_of_mem new
  | lost error =>
    refine ⟨distinct (List.nil_sublist _), ?_⟩
    intro entry member
    exact executed entry ((List.append_nil brought) ▸ member)
  | raised error =>
    refine ⟨distinct (List.nil_sublist _), ?_⟩
    intro entry member
    exact hand.entrusted entry ((List.append_nil brought) ▸ member)

theorem Hand.read (recorded : HistoryOf history fleet.broker.stream) (ordered : Ordered fleet.broker.stream)
    {count : ℕ} {reply : streamCalls.Reply (.xreadgroup workerId count)}
    (served : fleet.Serves (.xreadgroup workerId count) reply fleet') :
    Hand timeout fleet' history workerId [] ⟨[], broughtBy reply⟩ := by
  cases served with
  | done =>
    constructor
    · show (((fleet.broker.stream.fresh count).map StreamEntry.id) ++ []).Nodup
      rw [List.append_nil, fresh_ids]
      have sorted : (fleet.broker.stream.ids.filter (fleet.broker.stream.lastDelivered < ·)).Pairwise (· < ·) :=
        ordered.sorted.filter _
      exact (sorted.sublist (List.take_sublist ..)).imp fun less => Nat.ne_of_lt less
    · intro entry member
      have there : entry ∈ fleet.broker.stream.fresh count := member
      obtain ⟨present, above⟩ := List.mem_filter.mp (List.mem_of_mem_take there)
      apply entrusted_of_handsOut recorded _ present
      · intro index own numbered found acked
        have begun := recorded.begun index own found (by rw [acked]; decide)
        have above := of_decide_eq_true above
        omega
      · rw [Broker.handsOut, if_pos rfl]
        exact List.mem_map_of_mem there
  | lost | raised => exact ⟨List.nodup_nil, fun entry member => absurd member List.not_mem_nil⟩

/-- A command of the worker's own sweep or read. -/
theorem Hand.step (hand : Hand timeout fleet history workerId [] haul)
    (recorded : HistoryOf history fleet.broker.stream) (ordered : Ordered fleet.broker.stream) {command : StreamCall}
    {reply : streamCalls.Reply command} (step : HaulStep timeout workerId haul command reply haul')
    (served : fleet.Serves command reply fleet') : Hand timeout fleet' history workerId [] haul' := by
  cases step with
  | look => exact Hand.look recorded served
  | claim skipped id listed brought => exact hand.claim recorded served
  | read count => exact Hand.read recorded ordered served

/-- Of two workers that were handed an entry only one has time left. -/
theorem lease_over (leased : Leased timeout fleet) {other : String} {id time time' : ℕ} (differ : workerId ≠ other)
    (handed : fleet.handed workerId id = some time) (handed' : fleet.handed other id = some time')
    (early : fleet.broker.now < time' + timeout) : ¬ fleet.broker.now < time + timeout := by
  have past := (leased.past workerId id time handed).1
  have past' := (leased.past other id time' handed').1
  rcases leased.apart workerId other id time time' differ handed handed' with apart | apart
  · omega
  · omega

/-- What the leases come to while everybody is in time. -/
theorem LeaseInvariant.exclusive {settings : QueueSettings} (invariant : LeaseInvariant settings fleet)
    (timely : Timely settings.pendingClaimTimeoutMs fleet) : Exclusive fleet := by
  intro first second differ handling member handling' member' same
  obtain ⟨time, handed⟩ := Option.ne_none_iff_exists'.mp (invariant.running member)
  obtain ⟨time', handed'⟩ := Option.ne_none_iff_exists'.mp (invariant.running member')
  refine lease_over invariant.leased differ handed (same ▸ handed') ?_ (timely first handling member time handed)
  exact timely second handling' member' time' handed'

end Hands

end Quartr.Soundness
