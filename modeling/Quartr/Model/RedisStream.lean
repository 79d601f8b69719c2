import Quartr.Machine.Pool
import Quartr.Model.Models

/-! # The work queue over its Redis stream

`RedisStream` is the stream with its one consumer group as Redis keeps it: the entries, the latest
id given out, the latest id handed to the group and the group's pending list. Each constructor of
`StreamCall` is one command on it. The methods of `ReportQueue` are programs over these commands, and
`queueSystem` runs any number of them at once, each by a process of its own. The group is there from
the start: both the API and the workers create it before anything else.
-/

namespace Quartr.Model

open Quartr.Machine

/-- An entry with the id XADD gave it. -/
structure StreamEntry where
  id : ℕ
  fields : List (String × String)
deriving DecidableEq, Repr

/-- An item of the group's pending list: who was handed the entry last, when, and how often it was. -/
structure PendingEntry where
  id : ℕ
  consumer : String
  deliveredAt : ℕ
  timesDelivered : ℕ
deriving DecidableEq, Repr

/-- What XPENDING reports of an item. -/
structure PendingRow where
  messageId : ℕ
  consumer : String
  timeSinceDelivered : ℕ
  timesDelivered : ℕ
deriving DecidableEq, Repr

/-- Entries and pending items stand in the order of their ids; times are in milliseconds. -/
structure RedisStream where
  entries : List StreamEntry
  lastId : ℕ
  lastDelivered : ℕ
  pending : List PendingEntry
deriving DecidableEq, Repr

namespace RedisStream

def empty : RedisStream := ⟨[], 0, 0, []⟩

variable (stream : RedisStream)

/-- The entries the group has not been handed. -/
def undelivered : List StreamEntry := stream.entries.filter fun entry => stream.lastDelivered < entry.id

/-- XADD. -/
def add (fields : List (String × String)) : RedisStream :=
  { stream with entries := stream.entries ++ [⟨stream.lastId + 1, fields⟩], lastId := stream.lastId + 1 }

/-- What XREADGROUP `>` hands out: the oldest undelivered entries. -/
def fresh (count : ℕ) : List StreamEntry := stream.undelivered.take count

def readGroup (now : ℕ) (consumer : String) (count : ℕ) : RedisStream :=
  { stream with
    lastDelivered := ((stream.fresh count).getLast?.map StreamEntry.id).getD stream.lastDelivered
    pending := stream.pending ++ (stream.fresh count).map fun entry => ⟨entry.id, consumer, now, 1⟩ }

/-- XPENDING with the full range of ids. -/
def pendingRange (now count : ℕ) : List PendingRow :=
  (stream.pending.take count).map fun item =>
    ⟨item.id, item.consumer, now - item.deliveredAt, item.timesDelivered⟩

def find (id : ℕ) : Option StreamEntry := stream.entries.find? fun entry => entry.id = id

/-- XCLAIM applies to a pending entry that has been idle for long enough. -/
def Claimable (now minIdle id : ℕ) : Prop :=
  ∃ item ∈ stream.pending, item.id = id ∧ minIdle ≤ now - item.deliveredAt

instance (now minIdle id : ℕ) : Decidable (stream.Claimable now minIdle id) :=
  inferInstanceAs (Decidable (∃ item ∈ stream.pending, _))

/-- What XCLAIM hands out. -/
def claimed (now minIdle id : ℕ) : List StreamEntry :=
  if stream.Claimable now minIdle id then (stream.find id).toList else []

/-- XCLAIM drops a pending item whose entry is gone; otherwise the item changes hands. -/
def claim (now : ℕ) (consumer : String) (minIdle id : ℕ) : RedisStream :=
  if stream.find id = none then
    { stream with pending := stream.pending.filter fun item => item.id ≠ id }
  else if stream.Claimable now minIdle id then
    { stream with
      pending := stream.pending.map fun item =>
        if item.id = id then ⟨id, consumer, now, item.timesDelivered + 1⟩ else item }
  else stream

/-- XACK. -/
def ack (id : ℕ) : RedisStream :=
  { stream with pending := stream.pending.filter fun item => item.id ≠ id }

/-- XDEL. -/
def delete (id : ℕ) : RedisStream :=
  { stream with entries := stream.entries.filter fun entry => entry.id ≠ id }

end RedisStream

inductive StreamCall where
  | xlen
  | xadd (fields : List (String × String))
  | xreadgroup (consumer : String) (count : ℕ)
  | xpendingRange (count : ℕ)
  | xclaim (consumer : String) (minIdle id : ℕ)
  | xack (id : ℕ)
  | xdel (id : ℕ)

@[reducible] def StreamCall.Answer : StreamCall → Type
  | .xlen => ℕ
  | .xadd _ => ℕ
  | .xreadgroup _ _ => List StreamEntry
  | .xpendingRange _ => List PendingRow
  | .xclaim _ _ _ => List StreamEntry
  | _ => Unit

abbrev streamCalls : Signature := ⟨StreamCall, StreamCall.Answer, CallError⟩

/-- The server: its clock and the stream. -/
structure Broker where
  now : ℕ
  stream : RedisStream
deriving DecidableEq, Repr

namespace Broker

variable (broker : Broker)

def reply : (call : StreamCall) → streamCalls.Reply call
  | .xlen => .ok broker.stream.entries.length
  | .xadd _ => .ok (broker.stream.lastId + 1)
  | .xreadgroup _ count => .ok (broker.stream.fresh count)
  | .xpendingRange count => .ok (broker.stream.pendingRange broker.now count)
  | .xclaim _ minIdle id => .ok (broker.stream.claimed broker.now minIdle id)
  | .xack _ => .ok ()
  | .xdel _ => .ok ()

/-- The stream once a command has taken effect. -/
def after : StreamCall → RedisStream
  | .xlen => broker.stream
  | .xadd fields => broker.stream.add fields
  | .xreadgroup consumer count => broker.stream.readGroup broker.now consumer count
  | .xpendingRange _ => broker.stream
  | .xclaim consumer minIdle id => broker.stream.claim broker.now consumer minIdle id
  | .xack id => broker.stream.ack id
  | .xdel id => broker.stream.delete id

/-- A command of a party that is alone with the server. -/
def answer (call : StreamCall) (broker : Broker) : streamCalls.Reply call × Broker :=
  (broker.reply call, { broker with stream := broker.after call })

/-- A command takes effect at once, any time after the one before it. -/
def serve (call : StreamCall) (broker : Broker) (reply : streamCalls.Reply call) (broker' : Broker) :
    Prop :=
  ∃ now, broker.now ≤ now ∧ (reply, broker') = answer call { broker with now := now }

end Broker

/-- The part of `Settings` the queue reads. -/
structure QueueSettings where
  maxQueueDepth : ℕ
  pendingClaimTimeoutMs : ℕ

namespace ReportQueue

variable {σ : Type}

abbrev Method (σ α : Type) : Type := Coroutine streamCalls Err σ α

def call (c : StreamCall) : Method σ c.Answer := @Coroutine.await streamCalls Err σ Err.call c

variable (settings : QueueSettings)

def depth : Method σ ℕ :=
  tryCatch (call .xlen) fun
    | .call (.response _) => pure 0
    | exc => throw exc

def hasCapacity : Method σ Bool := do return (← depth) < settings.maxQueueDepth

def enqueue (taskId : TaskId) : Method σ ℕ := do
  let depth ← depth
  if settings.maxQueueDepth ≤ depth then
    throw (.queueFull depth settings.maxQueueDepth)
  call (.xadd [("task_id", taskId)])

def read (consumerName : String) (count : ℕ) : Method σ (List StreamEntry) :=
  call (.xreadgroup consumerName count)

/-- XACK, then XDEL, as two commands. -/
def ackAndRemove (entryId : ℕ) : Method σ Unit := do
  call (.xack entryId)
  call (.xdel entryId)

/-- The loop of `claim_abandoned` over what XPENDING reported. -/
def claimEach (consumerName : String) (minIdleMs : ℕ) :
    List PendingRow → List StreamEntry → Method σ (List StreamEntry)
  | [], reclaimed => return reclaimed
  | entry :: rest, reclaimed =>
    if entry.timeSinceDelivered < minIdleMs then
      claimEach consumerName minIdleMs rest reclaimed
    else do
      let claimed ← call (.xclaim consumerName minIdleMs entry.messageId)
      claimEach consumerName minIdleMs rest (reclaimed ++ claimed)

def claimAbandoned (consumerName : String) (minIdleMs : Option ℕ) : Method σ (List StreamEntry) := do
  let minIdleMs := minIdleMs.getD settings.pendingClaimTimeoutMs
  let pending ← call (.xpendingRange 100)
  claimEach consumerName minIdleMs pending []

end ReportQueue

/-! ### Producers and workers -/

/-- One call of a method of the queue. -/
inductive QueueActivity where
  | depth
  | enqueue (taskId : TaskId)
  | read (consumerName : String) (count : ℕ)
  | claimAbandoned (consumerName : String) (minIdleMs : Option ℕ)
  | ackAndRemove (entryId : ℕ)
deriving DecidableEq

inductive QueueOutcome where
  | number (result : Except Err ℕ)
  | messages (result : Except Err (List StreamEntry))
  | removed (result : Except Err Unit)

namespace QueueActivity

/-- The code each activity runs. -/
def body (settings : QueueSettings) : QueueActivity → Program streamCalls QueueOutcome
  | .depth => (ReportQueue.depth ()).bind fun result => .done (.number result.1)
  | .enqueue taskId => (ReportQueue.enqueue settings taskId ()).bind fun result => .done (.number result.1)
  | .read consumerName count =>
    (ReportQueue.read consumerName count ()).bind fun result => .done (.messages result.1)
  | .claimAbandoned consumerName minIdleMs =>
    (ReportQueue.claimAbandoned settings consumerName minIdleMs ()).bind fun result =>
      .done (.messages result.1)
  | .ackAndRemove entryId =>
    (ReportQueue.ackAndRemove entryId ()).bind fun result => .done (.removed result.1)

/-- A worker acknowledges entries only that the group has been handed. -/
def Handed (stream : RedisStream) : QueueActivity → Prop
  | .ackAndRemove entryId => entryId ≤ stream.lastDelivered
  | _ => True

instance (stream : RedisStream) : (activity : QueueActivity) → Decidable (activity.Handed stream)
  | .ackAndRemove entryId => inferInstanceAs (Decidable (entryId ≤ stream.lastDelivered))
  | .depth => .isTrue trivial
  | .enqueue _ => .isTrue trivial
  | .read _ _ => .isTrue trivial
  | .claimAbandoned _ _ => .isTrue trivial

end QueueActivity

/-- Any number of producers and workers on one stream. -/
def queueSystem (settings : QueueSettings) :
    System streamCalls Broker QueueActivity (Program streamCalls QueueOutcome) :=
  System.ofBodies (fun _ => QueueActivity.body settings)
    (fun broker activity broker' => activity.Handed broker.stream ∧ broker' = broker) Broker.serve

abbrev QueueConfig := Config streamCalls Broker QueueActivity (Program streamCalls QueueOutcome)
abbrev QueueEvent := Event streamCalls QueueActivity

end Quartr.Model
