import Quartr.Machine.Path
import Quartr.Model.Sample
import Quartr.Model.WorkerLoop
import Quartr.Soundness.StreamCommands

/-! # Whose entry it is

XCLAIM takes an entry only when it has been idle for the claim timeout, so an entry is handed to
different workers at times that far apart. A worker that is done with an entry within the timeout of
having been handed it is therefore never joined by another one. The clock starts when the entry is
handed over and not when its handling begins, and a sweep may be handed many entries at once.
-/

namespace Quartr.Soundness

open Quartr.Machine Quartr.Model
open Quartr.Machine.Coroutine (Follows follows_bind)

/-- Every handling has been under way for less than the timeout. -/
def Brief (timeout : ℕ) (fleet : Fleet) : Prop :=
  ∀ workerId, ∀ handling ∈ fleet.running workerId, fleet.broker.now < handling.started + timeout

/-- For every handling under way, less than the timeout has passed since its worker was last handed
its entry. -/
def Timely (timeout : ℕ) (fleet : Fleet) : Prop :=
  ∀ workerId, ∀ handling ∈ fleet.running workerId, ∀ time,
    fleet.handed workerId handling.entry.id = some time → fleet.broker.now < time + timeout

/-- No two workers handle the same entry. -/
def Exclusive (fleet : Fleet) : Prop :=
  ∀ workerId workerId', workerId ≠ workerId' → ∀ handling ∈ fleet.running workerId,
    ∀ handling' ∈ fleet.running workerId', handling.entry.id ≠ handling'.entry.id

/-- Different workers were handed an entry at times that lie the timeout apart. -/
structure Leased (timeout : ℕ) (fleet : Fleet) : Prop where
  ordered : Ordered fleet.broker.stream
  past : ∀ workerId id time, fleet.handed workerId id = some time →
    time ≤ fleet.broker.now ∧ id ≤ fleet.broker.stream.lastDelivered
  begun : ∀ item ∈ fleet.broker.stream.pending, item.id ≤ fleet.broker.stream.lastDelivered
  recent : ∀ item ∈ fleet.broker.stream.pending, ∀ workerId time,
    fleet.handed workerId item.id = some time → time ≤ item.deliveredAt
  apart : ∀ workerId workerId' id time time', workerId ≠ workerId' →
    fleet.handed workerId id = some time → fleet.handed workerId' id = some time' →
      time + timeout ≤ time' ∨ time' + timeout ≤ time

section Commands

variable {timeout : ℕ} {fleet : Fleet} {command : StreamCall}

/-- Entries are claimed after the timeout only. -/
def Patient (timeout : ℕ) : StreamCall → Prop
  | .xclaim _ minIdle _ => minIdle = timeout
  | _ => True

theorem leased_idle (timeout : ℕ) : Leased timeout .idle where
  ordered := ordered_empty
  past _ _ _ handed := by cases handed
  begun _ member := absurd member List.not_mem_nil
  recent _ member := absurd member List.not_mem_nil
  apart _ _ _ _ _ _ handed := by cases handed

theorem Leased.tick (leased : Leased timeout fleet) {now : ℕ} (later : fleet.broker.now ≤ now) :
    Leased timeout { fleet with broker := { fleet.broker with now := now } } where
  ordered := leased.ordered
  past workerId id time handed :=
    ⟨(leased.past workerId id time handed).1.trans later, (leased.past workerId id time handed).2⟩
  begun := leased.begun
  recent := leased.recent
  apart := leased.apart

/-- What a command that hands nothing out does. -/
theorem Leased.quiet (leased : Leased timeout fleet) (nothing : ∀ workerId, fleet.broker.handsOut command workerId = [])
    (fewer : ∀ item ∈ (fleet.broker.after command).pending, item ∈ fleet.broker.stream.pending) :
    Leased timeout (fleet.execute command) := by
  have same : (fleet.execute command).handed = fleet.handed := by
    funext workerId id
    show (if id ∈ fleet.broker.handsOut command workerId then _ else _) = _
    rw [nothing workerId]
    exact if_neg List.not_mem_nil
  have later := lastDelivered_after fleet.broker command
  constructor
  · exact leased.ordered.after command
  · intro workerId id time handed
    rw [same] at handed
    exact ⟨(leased.past workerId id time handed).1, (leased.past workerId id time handed).2.trans later⟩
  · exact fun item member => (leased.begun item (fewer item member)).trans later
  · intro item member
    rw [same]
    exact leased.recent item (fewer item member)
  · rw [same]
    exact leased.apart

/-- When each worker was last handed an entry, after a command. -/
theorem handed_execute {workerId : String} {id time : ℕ}
    (handed : (fleet.execute command).handed workerId id = some time) :
    (id ∈ fleet.broker.handsOut command workerId ∧ time = fleet.broker.now) ∨
      (id ∉ fleet.broker.handsOut command workerId ∧ fleet.handed workerId id = some time) := by
  have shape : (if id ∈ fleet.broker.handsOut command workerId then some fleet.broker.now
      else fleet.handed workerId id) = some time := handed
  split_ifs at shape with out
  · exact .inl ⟨out, (Option.some.inj shape).symm⟩
  · exact .inr ⟨out, shape⟩

/-- XREADGROUP hands out entries that nobody was handed before. -/
theorem Leased.read (leased : Leased timeout fleet) (consumer : String) (count : ℕ) :
    Leased timeout (fleet.execute (.xreadgroup consumer count)) := by
  obtain ⟨_, within, _⟩ := leased.ordered.handed count
  have later := le_last fleet.broker.stream count
  rw [← readGroup_lastDelivered fleet.broker.stream fleet.broker.now consumer] at later within
  have out {workerId : String} {id : ℕ}
      (member : id ∈ fleet.broker.handsOut (.xreadgroup consumer count) workerId) :
      workerId = consumer ∧ id ∈ freshIds fleet.broker.stream count := by
    simp only [Broker.handsOut] at member
    split_ifs at member with own
    · exact ⟨own, (fresh_ids ..) ▸ member⟩
    · exact absurd member List.not_mem_nil
  have new {workerId : String} {id time : ℕ} (fresh : id ∈ freshIds fleet.broker.stream count)
      (handed : fleet.handed workerId id = some time) : False :=
    absurd (leased.past workerId id time handed).2 (not_le_of_gt (mem_freshIds fresh).2)
  constructor
  · exact leased.ordered.after (.xreadgroup consumer count)
  · intro workerId id time handed
    rcases handed_execute handed with ⟨member, rfl⟩ | ⟨_, before⟩
    · exact ⟨le_rfl, within id (out member).2⟩
    · exact ⟨(leased.past workerId id time before).1, (leased.past workerId id time before).2.trans later⟩
  · intro item member
    rcases List.mem_append.mp member with old | fresh
    · exact (leased.begun item old).trans later
    · obtain ⟨entry, taken, rfl⟩ := List.mem_map.mp fresh
      apply within
      rw [← fresh_ids]
      exact List.mem_map_of_mem taken
  · intro item member workerId time handed
    rcases List.mem_append.mp member with old | fresh
    · rcases handed_execute handed with ⟨member, rfl⟩ | ⟨_, before⟩
      · exact absurd (leased.begun item old) (not_le_of_gt (mem_freshIds (out member).2).2)
      · exact leased.recent item old workerId time before
    · obtain ⟨entry, _, rfl⟩ := List.mem_map.mp fresh
      rcases handed_execute handed with ⟨_, rfl⟩ | ⟨_, before⟩
      · exact le_rfl
      · exact (leased.past workerId _ time before).1
  · intro workerId workerId' id time time' differ handed handed'
    rcases handed_execute handed with ⟨member, rfl⟩ | ⟨_, before⟩
    · rcases handed_execute handed' with ⟨member', rfl⟩ | ⟨_, before'⟩
      · exact absurd ((out member).1.trans (out member').1.symm) differ
      · exact (new (out member).2 before').elim
    · rcases handed_execute handed' with ⟨member', rfl⟩ | ⟨_, before'⟩
      · exact (new (out member').2 before).elim
      · exact leased.apart workerId workerId' id time time' differ before before'

/-- What XCLAIM hands out was pending and has been idle for the timeout. -/
theorem handsOut_claim {consumer workerId : String} {minIdle id other : ℕ}
    (member : other ∈ fleet.broker.handsOut (.xclaim consumer minIdle id) workerId) :
    workerId = consumer ∧ other = id ∧ fleet.broker.stream.find id ≠ none ∧
      fleet.broker.stream.Claimable fleet.broker.now minIdle id := by
  simp only [Broker.handsOut] at member
  split_ifs at member with own
  · obtain ⟨entry, taken, rfl⟩ := List.mem_map.mp member
    simp only [RedisStream.claimed] at taken
    split_ifs at taken with claimable
    · have found : fleet.broker.stream.find id = some entry := Option.mem_toList.mp taken
      refine ⟨own, find_id found, ?_, claimable⟩
      rw [found]
      exact Option.some_ne_none entry
    · exact absurd taken List.not_mem_nil
  · exact absurd member List.not_mem_nil

/-- XCLAIM hands an entry over the timeout after everybody else was handed it. -/
theorem Leased.claim (leased : Leased timeout fleet) (consumer : String) (id : ℕ) :
    Leased timeout (fleet.execute (.xclaim consumer timeout id)) := by
  obtain ⟨_, _, lastDelivered⟩ := claim_rest fleet.broker.stream fleet.broker.now consumer timeout id
  have idle {workerId : String} {other time : ℕ}
      (member : other ∈ fleet.broker.handsOut (.xclaim consumer timeout id) consumer)
      (handed : fleet.handed workerId other = some time) :
      time + timeout ≤ fleet.broker.now ∧ other ≤ fleet.broker.stream.lastDelivered := by
    obtain ⟨_, rfl, _, item, pending, rfl, long⟩ := handsOut_claim member
    have before := (leased.past workerId item.id time handed).1
    have since := leased.recent item pending workerId time handed
    exact ⟨by omega, leased.begun item pending⟩
  -- An item is as it was, or it has just changed hands.
  have item_of {item : PendingEntry}
      (member : item ∈ (fleet.broker.stream.claim fleet.broker.now consumer timeout id).pending) :
      (item ∈ fleet.broker.stream.pending ∧
          (item.id ≠ id ∨ id ∉ fleet.broker.handsOut (.xclaim consumer timeout id) consumer)) ∨
        (∃ before ∈ fleet.broker.stream.pending, before.id = item.id) ∧
          item.deliveredAt = fleet.broker.now := by
    unfold RedisStream.claim at member
    split_ifs at member with missing claimable
    · refine .inl ⟨(List.mem_filter.mp member).1, .inr fun out => ?_⟩
      exact (handsOut_claim out).2.2.1 missing
    · obtain ⟨before, pending, rfl⟩ := List.mem_map.mp member
      split_ifs with same
      · exact .inr ⟨⟨before, pending, same⟩, rfl⟩
      · exact .inl ⟨pending, .inl same⟩
    · refine .inl ⟨member, .inr fun out => ?_⟩
      exact claimable (handsOut_claim out).2.2.2
  constructor
  · exact leased.ordered.after (.xclaim consumer timeout id)
  · intro workerId other time handed
    show time ≤ fleet.broker.now ∧ other ≤ (fleet.broker.stream.claim _ _ _ _).lastDelivered
    rw [lastDelivered]
    rcases handed_execute handed with ⟨member, rfl⟩ | ⟨_, before⟩
    · obtain ⟨_, rfl, _, item, pending, rfl, _⟩ := handsOut_claim member
      exact ⟨le_rfl, leased.begun item pending⟩
    · exact leased.past workerId other time before
  · intro item member
    show item.id ≤ (fleet.broker.stream.claim _ _ _ _).lastDelivered
    rw [lastDelivered]
    rcases item_of member with ⟨pending, _⟩ | ⟨⟨before, pending, same⟩, _⟩
    · exact leased.begun item pending
    · exact same ▸ leased.begun before pending
  · intro item member workerId time handed
    have past : time ≤ fleet.broker.now := by
      rcases handed_execute handed with ⟨_, rfl⟩ | ⟨_, before⟩
      · exact le_rfl
      · exact (leased.past workerId item.id time before).1
    rcases item_of member with ⟨pending, other⟩ | ⟨_, now⟩
    · rcases handed_execute handed with ⟨out, _⟩ | ⟨_, before⟩
      · obtain ⟨rfl, same, _⟩ := handsOut_claim out
        rw [same] at out
        exact (other.elim (fun differs => differs same) fun kept => kept out).elim
      · exact leased.recent item pending workerId time before
    · exact now ▸ past
  · intro workerId workerId' other time time' differ handed handed'
    rcases handed_execute handed with ⟨member, rfl⟩ | ⟨_, before⟩
    · obtain rfl := (handsOut_claim member).1
      rcases handed_execute handed' with ⟨member', _⟩ | ⟨_, before'⟩
      · exact absurd (handsOut_claim member').1.symm differ
      · exact .inr (idle member before').1
    · rcases handed_execute handed' with ⟨member', rfl⟩ | ⟨_, before'⟩
      · obtain rfl := (handsOut_claim member').1
        exact .inl (idle member' before).1
      · exact leased.apart workerId workerId' other time time' differ before before'

theorem Leased.execute (leased : Leased timeout fleet) (patient : Patient timeout command) :
    Leased timeout (fleet.execute command) := by
  cases command with
  | xreadgroup consumer count => exact leased.read consumer count
  | xclaim consumer minIdle id =>
    obtain rfl : minIdle = timeout := patient
    exact leased.claim consumer id
  | xack id => exact leased.quiet (fun _ => rfl) fun item member => (List.mem_filter.mp member).1
  | xlen => exact leased.quiet (fun _ => rfl) fun item member => member
  | xadd => exact leased.quiet (fun _ => rfl) fun item member => member
  | xpendingRange => exact leased.quiet (fun _ => rfl) fun item member => member
  | xdel => exact leased.quiet (fun _ => rfl) fun item member => member

end Commands

/-! ### What a worker holds -/

/-- The entries a reply brings. -/
def brings : (command : StreamCall) → streamCalls.Reply command → List ℕ
  | .xreadgroup _ _, .ok entries => entries.map StreamEntry.id
  | .xclaim _ _ _, .ok entries => entries.map StreamEntry.id
  | _, _ => []

/-- The commands of a worker's loop, all in its own name; the phase is what they have brought it. -/
inductive LoopStep (timeout : ℕ) (workerId : String) : Protocol streamCalls (List ℕ)
  | look (brought : List ℕ) (count : ℕ) (reply : streamCalls.Reply (.xpendingRange count)) :
      LoopStep timeout workerId brought (.xpendingRange count) reply brought
  | claim (brought : List ℕ) (id : ℕ) (reply : streamCalls.Reply (.xclaim workerId timeout id)) :
      LoopStep timeout workerId brought (.xclaim workerId timeout id) reply
        (brought ++ brings (.xclaim workerId timeout id) reply)
  | read (brought : List ℕ) (count : ℕ) (reply : streamCalls.Reply (.xreadgroup workerId count)) :
      LoopStep timeout workerId brought (.xreadgroup workerId count) reply
        (brought ++ brings (.xreadgroup workerId count) reply)

/-- A worker returns from its commands with no more than they brought it. -/
def Brought (result : Except Err (List StreamEntry)) (brought : List ℕ) : Prop :=
  ∀ entries, result = .ok entries → ∀ entry ∈ entries, entry.id ∈ brought

/-- The rest of a sweep or of a read makes the commands of the loop only. -/
def Gathers (timeout : ℕ) (workerId : String)
    (program : Program streamCalls (Except Err (List StreamEntry) × Unit)) (brought : List ℕ) : Prop :=
  program.Follows (LoopStep timeout workerId) (fun result => Brought result.1) brought

section Gathers

variable {timeout : ℕ} {workerId : String}

theorem claimEach_gathers (pending : List PendingRow) (reclaimed : List StreamEntry) (brought : List ℕ)
    (known : ∀ entry ∈ reclaimed, entry.id ∈ brought) :
    Follows (LoopStep timeout workerId) (ReportQueue.claimEach workerId timeout pending reclaimed) ()
      brought fun result _ => Brought result := by
  induction pending generalizing reclaimed brought with
  | nil =>
    intro entries returned
    cases returned
    exact known
  | cons row rest ih =>
    unfold ReportQueue.claimEach
    split_ifs
    · exact ih reclaimed brought known
    · apply follows_bind.mpr
      apply Coroutine.follows_await.mpr
      intro reply
      refine ⟨_, .claim brought row.messageId reply, ?_⟩
      cases reply with
      | error error =>
        intro entries returned
        cases returned
      | ok claimed =>
        apply ih
        intro entry member
        rcases List.mem_append.mp member with old | new
        · exact List.mem_append_left _ (known entry old)
        · exact List.mem_append_right _ (List.mem_map_of_mem new)

theorem sweep_gathers (settings : QueueSettings) :
    Follows (LoopStep settings.pendingClaimTimeoutMs workerId)
      (ReportQueue.claimAbandoned settings workerId none) () [] fun result _ => Brought result := by
  apply follows_bind.mpr
  apply Coroutine.follows_await.mpr
  intro reply
  refine ⟨_, .look [] 100 reply, ?_⟩
  cases reply with
  | error error =>
    intro entries returned
    cases returned
  | ok pending =>
    apply claimEach_gathers
    intro entry member
    exact absurd member List.not_mem_nil

theorem read_gathers (count : ℕ) :
    Follows (LoopStep timeout workerId) (ReportQueue.read workerId count) () [] fun result _ =>
      Brought result := by
  apply Coroutine.follows_await.mpr
  intro reply
  refine ⟨_, .read [] count reply, ?_⟩
  intro entries returned entry member
  cases reply with
  | error error => cases returned
  | ok messages =>
    cases returned
    exact List.mem_map_of_mem member

end Gathers

end Quartr.Soundness

namespace Quartr.Model

open Quartr.Machine Quartr.Soundness

variable {settings : QueueSettings} {timeout : ℕ} {workerId : String} {fleet fleet' : Fleet}
  {command : StreamCall}

/-- Everything a worker holds was handed to it. -/
def Stage.Holds (timeout : ℕ) (workerId : String) (handed : ℕ → Prop) : Stage → Prop
  | .sweeping rest => ∃ brought, Gathers timeout workerId rest brought ∧ ∀ id ∈ brought, handed id
  | .reclaiming current waiting => handed current.entry.id ∧ ∀ entry ∈ waiting, handed entry.id
  | .reading rest => ∃ brought, Gathers timeout workerId rest brought ∧ ∀ id ∈ brought, handed id
  | .batch running waiting =>
    (∀ handling ∈ running, handed handling.entry.id) ∧ ∀ entry ∈ waiting, handed entry.id
  | .stopped => True

theorem Stage.Holds.mono {stage : Stage} {handed handed' : ℕ → Prop} (holds : stage.Holds timeout workerId handed)
    (more : ∀ id, handed id → handed' id) : stage.Holds timeout workerId handed' := by
  cases stage with
  | sweeping rest =>
    obtain ⟨brought, gathers, known⟩ := holds
    exact ⟨brought, gathers, fun id member => more id (known id member)⟩
  | reclaiming current waiting =>
    exact ⟨more _ holds.1, fun entry member => more _ (holds.2 entry member)⟩
  | reading rest =>
    obtain ⟨brought, gathers, known⟩ := holds
    exact ⟨brought, gathers, fun id member => more id (known id member)⟩
  | batch running waiting =>
    exact ⟨fun handling member => more _ (holds.1 handling member),
      fun entry member => more _ (holds.2 entry member)⟩
  | stopped => trivial

/-- The worker was handed the entry at some time. -/
def Fleet.Handed (fleet : Fleet) (workerId : String) (id : ℕ) : Prop := fleet.handed workerId id ≠ none

@[simp] theorem Fleet.put_self {stage : Option Stage} : (fleet.put workerId stage).stage workerId = stage :=
  Function.update_self ..

theorem Fleet.put_of_ne {other : String} {stage : Option Stage} (differs : other ≠ workerId) :
    (fleet.put workerId stage).stage other = fleet.stage other :=
  Function.update_of_ne differs ..

theorem Fleet.Handed.execute {id : ℕ} (handed : fleet.Handed workerId id) (command : StreamCall) :
    (fleet.execute command).Handed workerId id := by
  show (if id ∈ fleet.broker.handsOut command workerId then _ else _) ≠ none
  split_ifs
  · exact Option.some_ne_none _
  · exact handed

theorem handed_of_handsOut {id : ℕ} (out : id ∈ fleet.broker.handsOut command workerId) :
    (fleet.execute command).Handed workerId id := by
  show (if id ∈ fleet.broker.handsOut command workerId then _ else _) ≠ none
  rw [if_pos out]
  exact Option.some_ne_none _

/-- What a command of the loop does to everybody else. -/
theorem Fleet.Serves.keeps {reply : streamCalls.Reply command} (served : fleet.Serves command reply fleet')
    (leased : Leased settings.pendingClaimTimeoutMs fleet)
    (patient : Patient settings.pendingClaimTimeoutMs command) :
    Leased settings.pendingClaimTimeoutMs fleet' ∧ fleet'.stage = fleet.stage ∧
      ∀ workerId id, fleet.Handed workerId id → fleet'.Handed workerId id := by
  cases served with
  | raised => exact ⟨leased, rfl, fun _ _ handed => handed⟩
  | _ => exact ⟨leased.execute patient, rfl, fun _ _ handed => handed.execute command⟩

theorem Fleet.Undergoes.keeps {call : Call} (undergone : fleet.Undergoes call fleet')
    (leased : Leased settings.pendingClaimTimeoutMs fleet) :
    Leased settings.pendingClaimTimeoutMs fleet' ∧ fleet'.stage = fleet.stage ∧
      ∀ workerId id, fleet.Handed workerId id → fleet'.Handed workerId id := by
  cases undergone with
  | @command command sent =>
    have patient : Patient settings.pendingClaimTimeoutMs command := by
      cases call <;> cases sent <;> trivial
    exact ⟨leased.execute patient, rfl, fun _ _ handed => handed.execute command⟩
  | nothing => exact ⟨leased, rfl, fun _ _ handed => handed⟩

end Quartr.Model

namespace Quartr.Soundness

open Quartr.Machine Quartr.Model

section Stages

variable {loop : Loop} {worker : Worker} {now : ℕ} {handed : ℕ → Prop} {timeout : ℕ}
  {entries : List StreamEntry}

theorem holds_sweep (loop : Loop) (handed : ℕ → Prop) :
    loop.sweep.Holds loop.settings.pendingClaimTimeoutMs loop.workerId handed :=
  ⟨[], sweep_gathers loop.settings, fun _ member => absurd member List.not_mem_nil⟩

theorem holds_reclaim (known : ∀ entry ∈ entries, handed entry.id) :
    (loop.reclaim worker now entries).Holds timeout loop.workerId handed := by
  cases entries with
  | nil => exact ⟨[], read_gathers loop.concurrency, fun _ member => absurd member List.not_mem_nil⟩
  | cons entry rest => exact List.forall_mem_cons.mp known

theorem holds_handleBatch (known : ∀ entry ∈ entries, handed entry.id) :
    (loop.handleBatch worker now entries).Holds loop.settings.pendingClaimTimeoutMs loop.workerId
      handed := by
  cases entries with
  | nil => exact holds_sweep loop handed
  | cons entry rest =>
    unfold Loop.handleBatch
    split_ifs
    · obtain ⟨first, others⟩ := List.forall_mem_cons.mp known
      refine ⟨fun handling member => ?_, others⟩
      cases List.mem_singleton.mp member
      exact first
    · refine ⟨fun handling member => ?_, fun entry member => absurd member List.not_mem_nil⟩
      obtain ⟨entry, present, rfl⟩ := List.mem_map.mp member
      exact known entry present

theorem holds_swept {rest : Program streamCalls (Except Err (List StreamEntry) × Unit)} {brought : List ℕ}
    (gathers : Gathers timeout loop.workerId rest brought) (known : ∀ id ∈ brought, handed id) :
    (loop.swept worker now rest).Holds timeout loop.workerId handed := by
  cases rest with
  | done result =>
    obtain ⟨error | reclaimed, _⟩ := result
    · trivial
    · exact holds_reclaim fun entry member => known _ (gathers reclaimed rfl entry member)
  | await command next => exact ⟨brought, gathers, known⟩

theorem holds_received {rest : Program streamCalls (Except Err (List StreamEntry) × Unit)}
    {brought : List ℕ}
    (gathers : Gathers loop.settings.pendingClaimTimeoutMs loop.workerId rest brought)
    (known : ∀ id ∈ brought, handed id) :
    (loop.received worker now rest).Holds loop.settings.pendingClaimTimeoutMs loop.workerId handed := by
  cases rest with
  | done result =>
    obtain ⟨error | messages, _⟩ := result
    · trivial
    · exact holds_handleBatch fun entry member => known _ (gathers messages rfl entry member)
  | await command next => exact ⟨brought, gathers, known⟩

theorem holds_reclaimed {current : Handling} (own : handed current.entry.id)
    (known : ∀ entry ∈ entries, handed entry.id) :
    (loop.reclaimed worker now current entries).Holds timeout loop.workerId handed := by
  unfold Loop.reclaimed
  split
  · exact holds_reclaim known
  · trivial
  · exact ⟨own, known⟩

theorem holds_handled {before after : List Handling} {current : Handling}
    (own : handed current.entry.id) (others : ∀ handling ∈ before ++ after, handed handling.entry.id)
    (known : ∀ entry ∈ entries, handed entry.id) :
    (loop.handled worker now before current after entries).Holds loop.settings.pendingClaimTimeoutMs
      loop.workerId handed := by
  unfold Loop.handled
  split
  · split_ifs
    · exact holds_handleBatch known
    · exact ⟨others, known⟩
  · trivial
  · refine ⟨fun handling member => ?_, known⟩
    rcases List.mem_append.mp member with early | late
    · exact others handling (List.mem_append_left _ early)
    · rcases List.mem_cons.mp late with rfl | late
      · exact own
      · exact others handling (List.mem_append_right _ late)

end Stages

/-! ### Runs -/

structure LeaseInvariant (settings : QueueSettings) (fleet : Fleet) : Prop where
  leased : Leased settings.pendingClaimTimeoutMs fleet
  holds : ∀ workerId stage, fleet.stage workerId = some stage →
    stage.Holds settings.pendingClaimTimeoutMs workerId (fleet.Handed workerId)

section Run

variable {settings : QueueSettings} {concurrency : String → ℕ} {fleet fleet' : Fleet} {event : FleetEvent}
  {workerId : String} {command : StreamCall}

theorem LoopStep.patient {timeout : ℕ} {brought brought' : List ℕ} {reply : streamCalls.Reply command}
    (step : LoopStep timeout workerId brought command reply brought') : Patient timeout command := by
  cases step with
  | claim => rfl
  | look => trivial
  | read => trivial

/-- What a worker has been brought was handed to it. -/
theorem LoopStep.handed {timeout : ℕ} {brought brought' : List ℕ} {reply : streamCalls.Reply command}
    (step : LoopStep timeout workerId brought command reply brought')
    (served : fleet.Serves command reply fleet') (known : ∀ id ∈ brought, fleet.Handed workerId id) :
    ∀ id ∈ brought', fleet'.Handed workerId id := by
  have old (id : ℕ) (member : id ∈ brought) : fleet'.Handed workerId id := by
    cases served with
    | raised => exact known id member
    | _ => exact (known id member).execute command
  intro id member
  cases step with
  | look => exact old id member
  | claim claimed =>
    rcases List.mem_append.mp member with before | new
    · exact old id before
    · cases served with
      | done =>
        apply handed_of_handsOut
        rw [Broker.handsOut, if_pos rfl]
        exact new
      | _ => exact absurd new List.not_mem_nil
  | read count =>
    rcases List.mem_append.mp member with before | new
    · exact old id before
    · cases served with
      | done =>
        apply handed_of_handsOut
        rw [Broker.handsOut, if_pos rfl]
        exact new
      | _ => exact absurd new List.not_mem_nil

theorem LeaseInvariant.put (invariant : LeaseInvariant settings fleet)
    (kept : Leased settings.pendingClaimTimeoutMs fleet' ∧ fleet'.stage = fleet.stage ∧
      ∀ workerId id, fleet.Handed workerId id → fleet'.Handed workerId id) {stage : Option Stage}
    (holds : ∀ stage', stage = some stage' →
      stage'.Holds settings.pendingClaimTimeoutMs workerId (fleet'.Handed workerId)) :
    LeaseInvariant settings (fleet'.put workerId stage) := by
  obtain ⟨leased, stages, more⟩ := kept
  refine ⟨⟨leased.ordered, leased.past, leased.begun, leased.recent, leased.apart⟩, ?_⟩
  intro other found present
  by_cases same : other = workerId
  · subst same
    rw [Fleet.put_self] at present
    exact holds found present
  · rw [Fleet.put_of_ne same, stages] at present
    exact (invariant.holds other found present).mono fun id => more other id

theorem LeaseInvariant.step (invariant : LeaseInvariant settings fleet)
    (step : Fleet.Step settings concurrency fleet event fleet') : LeaseInvariant settings fleet' := by
  have leased := invariant.leased
  have same : Leased settings.pendingClaimTimeoutMs fleet ∧ fleet.stage = fleet.stage ∧
      ∀ workerId id, fleet.Handed workerId id → fleet.Handed workerId id :=
    ⟨leased, rfl, fun _ _ handed => handed⟩
  cases step with
  | tick now later => exact ⟨leased.tick later, invariant.holds⟩
  | produce fields =>
    refine ⟨leased.execute trivial, fun workerId stage present => ?_⟩
    exact (invariant.holds workerId stage present).mono fun id handed => handed.execute (.xadd fields)
  | start absent =>
    apply invariant.put same
    rintro _ ⟨⟩
    exact holds_sweep (Loop.mk settings _ _) _
  | sweep worker at_ served =>
    obtain ⟨brought, gathers, known⟩ := invariant.holds _ _ at_
    obtain ⟨brought', moved, rest⟩ := gathers _
    apply invariant.put (served.keeps leased moved.patient)
    rintro _ ⟨⟩
    exact holds_swept rest (moved.handed served known)
  | read worker at_ served =>
    obtain ⟨brought, gathers, known⟩ := invariant.holds _ _ at_
    obtain ⟨brought', moved, rest⟩ := gathers _
    apply invariant.put (served.keeps leased moved.patient)
    rintro _ ⟨⟩
    exact holds_received rest (moved.handed served known)
  | reclaim worker at_ undergone =>
    have kept := undergone.keeps leased
    obtain ⟨own, known⟩ := invariant.holds _ _ at_
    apply invariant.put kept
    rintro _ ⟨⟩
    exact holds_reclaimed (kept.2.2 _ _ own) fun entry member => kept.2.2 _ _ (known entry member)
  | @handle _ workerId before after entry started call next reply waiting worker at_ undergone =>
    have kept := undergone.keeps leased
    obtain ⟨running, known⟩ := invariant.holds _ _ at_
    apply invariant.put kept
    rintro _ ⟨⟩
    apply holds_handled
    · exact kept.2.2 _ _ (running ⟨entry, started, .await call next⟩
        (List.mem_append_right _ (List.mem_cons_self ..)))
    · intro handling member
      apply kept.2.2
      apply running
      rcases List.mem_append.mp member with early | late
      · exact List.mem_append_left _ early
      · exact List.mem_append_right _ (List.mem_cons_of_mem _ late)
    · exact fun entry member => kept.2.2 _ _ (known entry member)
  | kill =>
    apply invariant.put same
    rintro _ ⟨⟩

/-- What a worker is handling was handed to it. -/
theorem LeaseInvariant.running (invariant : LeaseInvariant settings fleet) {handling : Handling}
    (member : handling ∈ fleet.running workerId) : fleet.Handed workerId handling.entry.id := by
  unfold Fleet.running at member
  cases found : fleet.stage workerId with
  | none =>
    rw [found] at member
    exact absurd member List.not_mem_nil
  | some stage =>
    rw [found] at member
    have holds := invariant.holds workerId stage found
    cases stage with
    | reclaiming current waiting =>
      cases List.mem_singleton.mp member
      exact holds.1
    | batch running waiting => exact holds.1 handling member
    | _ => exact absurd member List.not_mem_nil

end Run

/-- No two workers handle an entry at the same time as long as every handling is over within the claim
timeout of the moment the entry was handed to its worker. -/
theorem leases_exclusive {settings : QueueSettings} {concurrency : String → ℕ} {events : List FleetEvent}
    {fleet : Fleet} (run : Path (Guarded (Fleet.Step settings concurrency) fun fleet _ =>
      Timely settings.pendingClaimTimeoutMs fleet) .idle events fleet)
    (timely : Timely settings.pendingClaimTimeoutMs fleet) : Exclusive fleet := by
  have idle : LeaseInvariant settings .idle := ⟨leased_idle _, fun _ _ present => by cases present⟩
  have preserved (fleet : Fleet) (event : FleetEvent) (fleet' : Fleet)
      (step : Guarded (Fleet.Step settings concurrency)
        (fun fleet _ => Timely settings.pendingClaimTimeoutMs fleet) fleet event fleet')
      (invariant : LeaseInvariant settings fleet) : LeaseInvariant settings fleet' :=
    invariant.step step.2
  have invariant := run.invariant preserved idle
  intro workerId workerId' differ handling member handling' member' same
  obtain ⟨time, handed⟩ := Option.ne_none_iff_exists'.mp (invariant.running member)
  obtain ⟨time', handed'⟩ := Option.ne_none_iff_exists'.mp (invariant.running member')
  have early := timely workerId handling member time handed
  have early' := timely workerId' handling' member' time' handed'
  rw [← same] at handed'
  have past := (invariant.leased.past workerId _ time handed).1
  have past' := (invariant.leased.past workerId' _ time' handed').1
  rcases invariant.leased.apart workerId workerId' _ time time' differ handed handed' with apart | apart
  · omega
  · omega

/-! ### Concrete schedules -/

/-- A move of a schedule; handlings find an empty world, and `index` picks one of a batch. -/
inductive FleetMove where
  | tick (delay : ℕ)
  | produce (taskId : TaskId)
  | start (workerId : String)
  | serve (workerId : String) (index : ℕ)
  | kill (workerId : String)

section Schedules

variable (settings : QueueSettings) (concurrency : String → ℕ)

/-- The worker a move concerns. -/
def FleetMove.worker? : FleetMove → Option String
  | .tick _ => none
  | .produce _ => none
  | .start workerId => some workerId
  | .serve workerId _ => some workerId
  | .kill workerId => some workerId

/-- What a call of a handling does when its command takes effect. -/
def undergo (fleet : Fleet) (call : Call) : Fleet := (call.command?.map fleet.execute).getD fleet

theorem undergoes (fleet : Fleet) (call : Call) : fleet.Undergoes call (undergo fleet call) := by
  unfold undergo
  cases sent : call.command? with
  | none => exact .nothing
  | some command => exact .command sent

/-- The stage a worker is in once the call it waits for has been answered, and what the call did. -/
def serve? (fleet : Fleet) (loop : Loop) (index : ℕ) : Stage → Option (Fleet × Stage)
  | .sweeping (.await command next) =>
    some (fleet.execute command,
      loop.swept (Sample.worker 1) fleet.broker.now (next (fleet.broker.reply command)))
  | .reading (.await command next) =>
    some (fleet.execute command,
      loop.received (Sample.worker 1) fleet.broker.now (next (fleet.broker.reply command)))
  | .reclaiming ⟨entry, started, .await call next⟩ waiting =>
    some (undergo fleet call, loop.reclaimed (Sample.worker 1) fleet.broker.now
      ⟨entry, started, next (Sample.world.reply default call)⟩ waiting)
  | .batch running waiting =>
    match running.drop index with
    | ⟨entry, started, .await call next⟩ :: after =>
      some (undergo fleet call, loop.handled (Sample.worker 1) fleet.broker.now (running.take index)
        ⟨entry, started, next (Sample.world.reply default call)⟩ after waiting)
    | _ => none
  | _ => none

def FleetMove.make? (fleet : Fleet) : FleetMove → Option (FleetEvent × Fleet)
  | .tick delay => some (.tick (fleet.broker.now + delay),
      { fleet with broker := { fleet.broker with now := fleet.broker.now + delay } })
  | .produce taskId => some (.produce [("task_id", taskId)], fleet.execute (.xadd [("task_id", taskId)]))
  | .start workerId =>
    match fleet.stage workerId with
    | none => some (.start workerId,
        fleet.put workerId (some (Loop.mk settings workerId (concurrency workerId)).sweep))
    | some _ => none
  | .serve workerId index =>
    (fleet.stage workerId).bind fun stage =>
      (serve? fleet ⟨settings, workerId, concurrency workerId⟩ index stage).map fun outcome =>
        (.reply workerId, outcome.1.put workerId (some outcome.2))
  | .kill workerId => some (.kill workerId, fleet.put workerId none)

variable {settings concurrency} {fleet fleet' : Fleet} {event : FleetEvent} {move : FleetMove}

theorem serve?_step {workerId : String} {index : ℕ} {stage : Stage} {outcome : Fleet × Stage}
    (at_ : fleet.stage workerId = some stage)
    (served : serve? fleet ⟨settings, workerId, concurrency workerId⟩ index stage = some outcome) :
    Fleet.Step settings concurrency fleet (.reply workerId)
      (outcome.1.put workerId (some outcome.2)) := by
  cases stage with
  | sweeping rest =>
    cases rest with
    | done result => cases served
    | await command next =>
      cases served
      exact .sweep (Sample.worker 1) at_ .done
  | reclaiming current waiting =>
    obtain ⟨entry, started, rest⟩ := current
    cases rest with
    | done result => cases served
    | await call next =>
      cases served
      exact .reclaim (Sample.worker 1) at_ (undergoes fleet call)
  | reading rest =>
    cases rest with
    | done result => cases served
    | await command next =>
      cases served
      exact .read (Sample.worker 1) at_ .done
  | batch running waiting =>
    simp only [serve?] at served
    split at served
    · rename_i entry started call next after split
      rw [← List.take_append_drop index running, split] at at_
      cases served
      exact .handle (Sample.worker 1) at_ (undergoes fleet call)
    · cases served
  | stopped => cases served

theorem FleetMove.step (made : move.make? settings concurrency fleet = some (event, fleet')) :
    Fleet.Step settings concurrency fleet event fleet' := by
  cases move with
  | tick delay =>
    cases made
    exact .tick _ (Nat.le_add_right ..)
  | produce taskId =>
    cases made
    exact .produce _
  | start workerId =>
    simp only [FleetMove.make?] at made
    split at made
    · rename_i absent
      cases made
      exact .start absent
    · cases made
  | serve workerId index =>
    obtain ⟨stage, at_, served⟩ := Option.bind_eq_some_iff.mp made
    obtain ⟨outcome, replied, made⟩ := Option.map_eq_some_iff.mp served
    cases made
    exact serve?_step at_ replied
  | kill workerId =>
    cases made
    exact .kill

/-- Nobody but the workers of that name is at work. -/
def Within (names : List String) (fleet : Fleet) : Prop :=
  ∀ workerId, workerId ∉ names → fleet.stage workerId = none

/-- The worker an event concerns. -/
def eventWorker? : FleetEvent → Option String
  | .start workerId => some workerId
  | .reply workerId => some workerId
  | .kill workerId => some workerId
  | _ => none

/-- A step leaves every worker but the one it concerns where it is. -/
theorem stage_frame (step : Fleet.Step settings concurrency fleet event fleet') {other : String}
    (differs : eventWorker? event ≠ some other) : fleet'.stage other = fleet.stage other := by
  have apart {workerId : String} (here : eventWorker? event = some workerId) : other ≠ workerId := by
    rintro rfl
    exact differs here
  cases step with
  | tick | produce => rfl
  | start | kill => exact Fleet.put_of_ne (apart rfl)
  | sweep worker at_ served | read worker at_ served =>
    rw [Fleet.put_of_ne (apart rfl)]
    cases served <;> rfl
  | reclaim worker at_ undergone | handle worker at_ undergone =>
    rw [Fleet.put_of_ne (apart rfl)]
    cases undergone <;> rfl

theorem FleetMove.event_worker (made : move.make? settings concurrency fleet = some (event, fleet')) :
    eventWorker? event = move.worker? := by
  cases move with
  | start workerId =>
    simp only [FleetMove.make?] at made
    split at made <;> cases made
    rfl
  | serve workerId index =>
    obtain ⟨stage, _, served⟩ := Option.bind_eq_some_iff.mp made
    obtain ⟨outcome, _, made⟩ := Option.map_eq_some_iff.mp served
    cases made
    rfl
  | _ =>
    cases made
    rfl

theorem FleetMove.within {names : List String}
    (made : move.make? settings concurrency fleet = some (event, fleet')) (within : Within names fleet)
    (named : move.worker?.all (· ∈ names) = true) : Within names fleet' := by
  intro workerId absent
  rw [stage_frame (FleetMove.step made)]
  · exact within workerId absent
  · intro same
    rw [← FleetMove.event_worker made, same] at named
    exact absent (of_decide_eq_true named)

/-- The fleet after a schedule whose every state passes a check, if all its moves can be made. -/
def play? (settings : QueueSettings) (concurrency : String → ℕ) (names : List String)
    (check : Fleet → Bool) : List FleetMove → Fleet → Option Fleet
  | [], fleet => if check fleet then some fleet else none
  | move :: rest, fleet =>
    if check fleet && move.worker?.all (· ∈ names) then
      (move.make? settings concurrency fleet).bind fun outcome =>
        play? settings concurrency names check rest outcome.2
    else none

theorem play?_path {names : List String} {check : Fleet → Bool} {guard : Fleet → Prop}
    (sound : ∀ fleet, Within names fleet → check fleet = true → guard fleet) {moves : List FleetMove}
    (within : Within names fleet)
    (played : play? settings concurrency names check moves fleet = some fleet') :
    ∃ events, Path (Guarded (Fleet.Step settings concurrency) fun fleet _ => guard fleet) fleet events
      fleet' ∧ guard fleet' := by
  induction moves generalizing fleet with
  | nil =>
    simp only [play?] at played
    split_ifs at played with checked
    cases played
    exact ⟨[], .nil _, sound _ within checked⟩
  | cons move rest ih =>
    simp only [play?] at played
    split_ifs at played with checked
    obtain ⟨passes, named⟩ := Bool.and_eq_true_iff.mp checked
    obtain ⟨⟨event, next⟩, made, played⟩ := Option.bind_eq_some_iff.mp played
    obtain ⟨events, path, reached⟩ := ih (FleetMove.within made within named) played
    exact ⟨event :: events, .cons ⟨sound _ within passes, FleetMove.step made⟩ path, reached⟩

/-- The conditions on the handlings of the workers of that name. -/
def briefBelow (timeout : ℕ) (names : List String) (fleet : Fleet) : Bool :=
  names.all fun workerId => (fleet.running workerId).all fun handling =>
    fleet.broker.now < handling.started + timeout

def timelyBelow (timeout : ℕ) (names : List String) (fleet : Fleet) : Bool :=
  names.all fun workerId => (fleet.running workerId).all fun handling =>
    (fleet.handed workerId handling.entry.id).all fun time => fleet.broker.now < time + timeout

theorem running_of_within {names : List String} (within : Within names fleet) {workerId : String}
    {handling : Handling} (member : handling ∈ fleet.running workerId) : workerId ∈ names := by
  by_contra absent
  rw [Fleet.running, within workerId absent] at member
  exact absurd member List.not_mem_nil

theorem briefBelow_brief {timeout : ℕ} {names : List String} (fleet : Fleet) (within : Within names fleet)
    (brief : briefBelow timeout names fleet = true) : Brief timeout fleet := by
  intro workerId handling member
  have all := List.all_eq_true.mp brief workerId (running_of_within within member)
  exact of_decide_eq_true (List.all_eq_true.mp all handling member)

theorem timelyBelow_timely {timeout : ℕ} {names : List String} (fleet : Fleet)
    (within : Within names fleet) (timely : timelyBelow timeout names fleet = true) :
    Timely timeout fleet := by
  intro workerId handling member time handed
  have all := List.all_eq_true.mp timely workerId (running_of_within within member)
  have each := List.all_eq_true.mp all handling member
  rw [handed] at each
  exact of_decide_eq_true each

end Schedules

/-- One worker reads two entries and crashes. -/
def abandoned : List FleetMove :=
  [.produce "task-0", .produce "task-1", .start "worker-0", .serve "worker-0" 0, .serve "worker-0" 0,
    .kill "worker-0"]

/-- A worker that sweeps one of the entries, and one that reads another. -/
def shared : List FleetMove :=
  [.produce "task-0", .start "worker-1", .serve "worker-1" 0, .serve "worker-1" 0, .kill "worker-1",
    .tick 3, .produce "task-1", .start "worker-2", .serve "worker-2" 0, .serve "worker-2" 0,
    .start "worker-3", .serve "worker-3" 0, .serve "worker-3" 0, .tick 2]

theorem leases_exclusive_shared : ∃ events fleet,
    Path (Guarded (Fleet.Step ⟨1000, 3⟩ fun _ => 1) fun fleet _ => Timely 3 fleet) .idle events fleet ∧
    Exclusive fleet ∧ (fleet.running "worker-2").length = 1 ∧ (fleet.running "worker-3").length = 1 := by
  have played : (play? ⟨1000, 3⟩ (fun _ => 1) ["worker-1", "worker-2", "worker-3"]
      (timelyBelow 3 ["worker-1", "worker-2", "worker-3"]) shared .idle).any (fun fleet =>
        (fleet.running "worker-2").length = 1 ∧ (fleet.running "worker-3").length = 1) = true := by
    decide +kernel
  obtain ⟨fleet, played, both⟩ := (Option.any_eq_true _ _).mp played
  obtain ⟨events, path, timely⟩ := play?_path timelyBelow_timely (fun _ _ => rfl) played
  exact ⟨events, fleet, path, leases_exclusive path timely, of_decide_eq_true both⟩

/-- The sweep of one worker is handed both entries; while it handles the first, the second one's time
runs out. -/
def queuedUp : List FleetMove :=
  abandoned ++ [.tick 3, .start "worker-1", .serve "worker-1" 0, .serve "worker-1" 0, .serve "worker-1" 0,
    .tick 2, .serve "worker-1" 0, .serve "worker-1" 0, .serve "worker-1" 0, .tick 1, .start "worker-2",
    .serve "worker-2" 0, .serve "worker-2" 0]

/-- Every handling is brief, and yet two workers handle one entry. -/
theorem lease_stolen : ∃ events fleet,
    Path (Guarded (Fleet.Step ⟨1000, 3⟩ fun workerId => if workerId = "worker-0" then 2 else 1)
      fun fleet _ => Brief 3 fleet) .idle events fleet ∧ Brief 3 fleet ∧ ¬ Exclusive fleet := by
  have played : (play? ⟨1000, 3⟩ (fun workerId => if workerId = "worker-0" then 2 else 1)
      ["worker-0", "worker-1", "worker-2"] (briefBelow 3 ["worker-0", "worker-1", "worker-2"]) queuedUp
      .idle).any (fun fleet => (fleet.running "worker-1").any fun handling =>
        (fleet.running "worker-2").any fun handling' => handling.entry.id = handling'.entry.id) = true := by
    decide +kernel
  obtain ⟨fleet, played, shares⟩ := (Option.any_eq_true _ _).mp played
  obtain ⟨events, path, brief⟩ := play?_path briefBelow_brief (fun _ _ => rfl) played
  obtain ⟨handling, member, shares⟩ := List.any_eq_true.mp shares
  obtain ⟨handling', member', same⟩ := List.any_eq_true.mp shares
  refine ⟨events, fleet, path, brief, fun exclusive => ?_⟩
  exact exclusive "worker-1" "worker-2" (by decide) handling member handling' member'
    (of_decide_eq_true same)

end Quartr.Soundness
