import Quartr.Model.RedisStream
import Quartr.Model.Worker

/-! # The read loop of the workers

`run_forever` sweeps for abandoned entries and handles them one after another, then reads new ones
and handles these as `_handle_batch` does: one after another if the worker's concurrency is 1, and
otherwise all at once in a task group. `Stage` says where a worker stands in its loop. A `Fleet` is
any number of workers on one stream; a step of it is one call of one worker, an entry from a producer,
the passing of time, or a crash. What SEC, the disk and Redis reply to a handling is left open; on the
stream it has the effect of its commands. The refresh of the ticker mapping at the head of the loop is
left out: a handling may find any mapping.
-/

namespace Quartr.Model

open Quartr.Machine

/-- One `_handle_message` under way. -/
structure Handling where
  entry : StreamEntry
  started : ℕ
  rest : Program calls (Except Err Unit × Unit)

def Handling.begin (worker : Worker) (now : ℕ) (entry : StreamEntry) : Handling :=
  ⟨entry, now, worker.handleMessage entry.id entry.fields ()⟩

/-- Where `run_forever` stands: in `claim_abandoned`, at the entries that returned, in `read`, in
`_handle_batch`, or at an exception that has left the loop. -/
inductive Stage where
  | sweeping (rest : Program streamCalls (Except Err (List StreamEntry) × Unit))
  | reclaiming (current : Handling) (waiting : List StreamEntry)
  | reading (rest : Program streamCalls (Except Err (List StreamEntry) × Unit))
  | batch (running : List Handling) (waiting : List StreamEntry)
  | stopped

/-- What the loop of one worker is run with. -/
structure Loop where
  settings : QueueSettings
  workerId : String
  concurrency : ℕ

namespace Loop

variable (loop : Loop) (worker : Worker) (now : ℕ)

def sweep : Stage := .sweeping (ReportQueue.claimAbandoned loop.settings loop.workerId none ())

def read : Stage := .reading (ReportQueue.read loop.workerId loop.concurrency ())

/-- The loop of `_reclaim_abandoned`. -/
def reclaim : List StreamEntry → Stage
  | [] => loop.read
  | entry :: rest => .reclaiming (.begin worker now entry) rest

/-- `_handle_batch`; with nothing to handle the read loop starts over. -/
def handleBatch : List StreamEntry → Stage
  | [] => loop.sweep
  | entry :: rest =>
    if loop.concurrency = 1 then .batch [.begin worker now entry] rest
    else .batch ((entry :: rest).map (.begin worker now)) []

/-- Where a sweep leads once it has been replied to. -/
def swept : Program streamCalls (Except Err (List StreamEntry) × Unit) → Stage
  | .done (.ok reclaimed, _) => loop.reclaim worker now reclaimed
  | .done (.error _, _) => .stopped
  | rest => .sweeping rest

def received : Program streamCalls (Except Err (List StreamEntry) × Unit) → Stage
  | .done (.ok messages, _) => loop.handleBatch worker now messages
  | .done (.error _, _) => .stopped
  | rest => .reading rest

/-- An exception that escapes `_handle_message` leaves the loop. -/
def reclaimed (current : Handling) (waiting : List StreamEntry) : Stage :=
  match current.rest with
  | .done (.ok _, _) => loop.reclaim worker now waiting
  | .done (.error _, _) => .stopped
  | .await _ _ => .reclaiming current waiting

/-- In a task group it cancels the siblings first. -/
def handled (before : List Handling) (current : Handling) (after : List Handling)
    (waiting : List StreamEntry) : Stage :=
  match current.rest with
  | .done (.ok _, _) =>
    if (before ++ after).isEmpty then loop.handleBatch worker now waiting
    else .batch (before ++ after) waiting
  | .done (.error _, _) => .stopped
  | .await _ _ => .batch (before ++ current :: after) waiting

end Loop

/-- The command on the stream a call of a handling is. -/
def Call.command? : Call → Option StreamCall
  | .xlen => some .xlen
  | .xadd taskId => some (.xadd [("task_id", taskId)])
  | .xack entry => some (.xack entry)
  | .xdel entry => some (.xdel entry)
  | _ => none

/-- The entries a command hands to a worker. -/
def Broker.handsOut (broker : Broker) : StreamCall → String → List ℕ
  | .xreadgroup consumer count, workerId =>
    if workerId = consumer then (broker.stream.fresh count).map StreamEntry.id else []
  | .xclaim consumer minIdle id, workerId =>
    if workerId = consumer then (broker.stream.claimed broker.now minIdle id).map StreamEntry.id else []
  | _, _ => []

/-- The server, the workers, and when each worker was last handed each entry, which nobody keeps. -/
structure Fleet where
  broker : Broker
  handed : String → ℕ → Option ℕ
  stage : String → Option Stage

inductive FleetEvent where
  | tick (now : ℕ)
  | produce (fields : List (String × String))
  | start (workerId : String)
  | reply (workerId : String)
  | kill (workerId : String)

namespace Fleet

/-- An empty stream and no worker yet. -/
def idle : Fleet := ⟨⟨0, .empty⟩, fun _ _ => none, fun _ => none⟩

variable (fleet : Fleet)

/-- A command takes effect. -/
def execute (command : StreamCall) : Fleet :=
  { fleet with
    broker := { fleet.broker with stream := fleet.broker.after command }
    handed := fun workerId id =>
      if id ∈ fleet.broker.handsOut command workerId then some fleet.broker.now
      else fleet.handed workerId id }

def put (workerId : String) (stage : Option Stage) : Fleet :=
  { fleet with stage := Function.update fleet.stage workerId stage }

/-- A command of the loop takes effect, or it raises, with or without effect. -/
inductive Serves (fleet : Fleet) (command : StreamCall) : streamCalls.Reply command → Fleet → Prop
  | done : Serves fleet command (fleet.broker.reply command) (fleet.execute command)
  | lost (error : CallError) : Serves fleet command (.error error) (fleet.execute command)
  | raised (error : CallError) : Serves fleet command (.error error) fleet

/-- What a call of a handling does to the stream: its command, or nothing. -/
inductive Undergoes (fleet : Fleet) (call : Call) : Fleet → Prop
  | command {command : StreamCall} (sent : call.command? = some command) :
      Undergoes fleet call (fleet.execute command)
  | nothing : Undergoes fleet call fleet

/-- One step of the fleet; the workers share the settings, and each has its concurrency. -/
inductive Step (settings : QueueSettings) (concurrency : String → ℕ) : Fleet → FleetEvent → Fleet → Prop
  | tick {fleet : Fleet} (now : ℕ) (later : fleet.broker.now ≤ now) :
      Step settings concurrency fleet (.tick now) { fleet with broker := { fleet.broker with now := now } }
  | produce {fleet : Fleet} (fields : List (String × String)) :
      Step settings concurrency fleet (.produce fields) (fleet.execute (.xadd fields))
  | start {fleet : Fleet} {workerId : String} (absent : fleet.stage workerId = none) :
      Step settings concurrency fleet (.start workerId)
        (fleet.put workerId (some (Loop.mk settings workerId (concurrency workerId)).sweep))
  | sweep {fleet fleet' : Fleet} {workerId : String} {command : StreamCall}
      {next : streamCalls.Reply command → Program streamCalls (Except Err (List StreamEntry) × Unit)}
      {reply : streamCalls.Reply command} (worker : Worker)
      (at_ : fleet.stage workerId = some (.sweeping (.await command next)))
      (served : fleet.Serves command reply fleet') :
      Step settings concurrency fleet (.reply workerId) (fleet'.put workerId
        (some ((Loop.mk settings workerId (concurrency workerId)).swept worker fleet.broker.now (next reply))))
  | read {fleet fleet' : Fleet} {workerId : String} {command : StreamCall}
      {next : streamCalls.Reply command → Program streamCalls (Except Err (List StreamEntry) × Unit)}
      {reply : streamCalls.Reply command} (worker : Worker)
      (at_ : fleet.stage workerId = some (.reading (.await command next)))
      (served : fleet.Serves command reply fleet') :
      Step settings concurrency fleet (.reply workerId) (fleet'.put workerId
        (some ((Loop.mk settings workerId (concurrency workerId)).received worker fleet.broker.now (next reply))))
  | reclaim {fleet fleet' : Fleet} {workerId : String} {entry : StreamEntry} {started : ℕ} {call : Call}
      {next : calls.Reply call → Program calls (Except Err Unit × Unit)} {reply : calls.Reply call}
      {waiting : List StreamEntry} (worker : Worker)
      (at_ : fleet.stage workerId = some (.reclaiming ⟨entry, started, .await call next⟩ waiting))
      (undergone : fleet.Undergoes call fleet') :
      Step settings concurrency fleet (.reply workerId) (fleet'.put workerId
        (some ((Loop.mk settings workerId (concurrency workerId)).reclaimed worker fleet.broker.now
          ⟨entry, started, next reply⟩ waiting)))
  | handle {fleet fleet' : Fleet} {workerId : String} {before after : List Handling} {entry : StreamEntry}
      {started : ℕ} {call : Call} {next : calls.Reply call → Program calls (Except Err Unit × Unit)}
      {reply : calls.Reply call} {waiting : List StreamEntry} (worker : Worker)
      (at_ : fleet.stage workerId =
        some (.batch (before ++ ⟨entry, started, .await call next⟩ :: after) waiting))
      (undergone : fleet.Undergoes call fleet') :
      Step settings concurrency fleet (.reply workerId) (fleet'.put workerId
        (some ((Loop.mk settings workerId (concurrency workerId)).handled worker fleet.broker.now before
          ⟨entry, started, next reply⟩ after waiting)))
  | kill {fleet : Fleet} {workerId : String} :
      Step settings concurrency fleet (.kill workerId) (fleet.put workerId none)

/-- The handlings a worker has under way. -/
def running (workerId : String) : List Handling :=
  match fleet.stage workerId with
  | some (.reclaiming current _) => [current]
  | some (.batch running _) => running
  | _ => []

end Fleet

end Quartr.Model
