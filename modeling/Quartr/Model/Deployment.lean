import Quartr.Model.Service
import Quartr.Model.WorkerLoop

/-! # The deployed service

The API and the workers over one server. The workers run their loops on the stream as in `Fleet`; their
handlings and the requests share the keys and the files. A step is one call of one worker or request, the
passing of time, or the end of one of them. `service` has handlings that begin as they like, on a stream that
remembers everything; here a handling begins where the loop of a worker begins it, and the stream is as Redis
keeps it.
-/

namespace Quartr.Model

open Quartr.Machine

/-- What the queue of a deployment reads. -/
def Settings.queue (settings : Settings) (pendingClaimTimeoutMs : ℕ) : QueueSettings :=
  ⟨settings.maxQueueDepth, pendingClaimTimeoutMs⟩

/-- The stream is the broker's, and that of `shared` is not used. -/
structure Deployment where
  fleet : Fleet
  shared : World
  requests : ℕ → Option ServiceProcess

inductive DeploymentEvent where
  | tick (now : ℕ)
  | request (id : ℕ)
  | answer (id : ℕ)
  | abort (id : ℕ)
  | start (workerId : String)
  | reply (workerId : String)
  | kill (workerId : String)

namespace Deployment

/-- Nobody at work, and nothing on the stream. -/
def idle (shared : World) : Deployment := ⟨.idle, shared, fun _ => none⟩

variable (deployment : Deployment)

/-- The reply to a call of a request or a handling that takes effect. -/
def reply (outside : Outside) : (call : Call) → calls.Reply call
  | .xlen => .ok deployment.fleet.broker.stream.entries.length
  | call => deployment.shared.reply outside call

/-- The deployment once such a call has taken effect. -/
def after (call : Call) : Deployment :=
  match call.command? with
  | some command => { deployment with fleet := deployment.fleet.execute command }
  | none => { deployment with shared := deployment.shared.after call }

/-- Any command or file operation may raise, with or without having taken effect. -/
def Serves (call : Call) (reply : calls.Reply call) (deployment' : Deployment) : Prop :=
  ((∃ outside, reply = deployment.reply outside call) ∧ deployment' = deployment.after call) ∨
    ∃ error, CallError.IsFault error ∧ reply = .error error ∧
      (deployment' = deployment ∨ deployment' = deployment.after call)

def putStage (workerId : String) (stage : Option Stage) : Deployment :=
  { deployment with fleet := deployment.fleet.put workerId stage }

def putRequest (id : ℕ) (process : ServiceProcess) : Deployment :=
  { deployment with requests := Function.update deployment.requests id (some process) }

/-- The loop of a worker of the deployment. -/
abbrev loop (settings : Settings) (timeout : ℕ) (concurrency : String → ℕ) (workerId : String) : Loop :=
  ⟨settings.queue timeout, workerId, concurrency workerId⟩

/-- One step; the requests have the even numbers. -/
inductive Step (settings : Settings) (timeout : ℕ) (concurrency : String → ℕ) (uuid : ℕ → TaskId) :
    Deployment → DeploymentEvent → Deployment → Prop
  | tick {deployment : Deployment} (now : ℕ) (later : deployment.fleet.broker.now ≤ now) :
      Step settings timeout concurrency uuid deployment (.tick now)
        { deployment with
          fleet := { deployment.fleet with broker := { deployment.fleet.broker with now := now } } }
  | request {deployment : Deployment} {id : ℕ} (cikMapping : CikMapping) (payload : CreateReportRequest)
      (even : id % 2 = 0) (absent : deployment.requests id = none) :
      Step settings timeout concurrency uuid deployment (.request id) (deployment.putRequest id
        ⟨.request cikMapping payload, Service.body settings uuid id (.request cikMapping payload), [], false⟩)
  | answer {deployment deployment' : Deployment} {id : ℕ} {process : ServiceProcess} {call : Call}
      {next : calls.Reply call → Program calls Outcome} {reply : calls.Reply call}
      (at_ : deployment.requests id = some process) (alive : process.killed = false)
      (suspended : process.control = .await call next) (served : deployment.Serves call reply deployment') :
      Step settings timeout concurrency uuid deployment (.answer id)
        (deployment'.putRequest id (process.resume call reply (next reply)))
  | abort {deployment : Deployment} {id : ℕ} {process : ServiceProcess}
      (at_ : deployment.requests id = some process) (alive : process.killed = false) :
      Step settings timeout concurrency uuid deployment (.abort id)
        (deployment.putRequest id { process with killed := true })
  | start {deployment : Deployment} {workerId : String} (absent : deployment.fleet.stage workerId = none) :
      Step settings timeout concurrency uuid deployment (.start workerId)
        (deployment.putStage workerId (some (loop settings timeout concurrency workerId).sweep))
  | sweep {deployment : Deployment} {fleet' : Fleet} {workerId : String} {command : StreamCall}
      {next : streamCalls.Reply command → Program streamCalls (Except Err (List StreamEntry) × Unit)}
      {reply : streamCalls.Reply command} (cikMapping : CikMapping) (now : String)
      (at_ : deployment.fleet.stage workerId = some (.sweeping (.await command next)))
      (served : deployment.fleet.Serves command reply fleet') :
      Step settings timeout concurrency uuid deployment (.reply workerId)
        ({ deployment with fleet := fleet' }.putStage workerId
          (some ((loop settings timeout concurrency workerId).swept ⟨settings, cikMapping, now⟩
            deployment.fleet.broker.now (next reply))))
  | read {deployment : Deployment} {fleet' : Fleet} {workerId : String} {command : StreamCall}
      {next : streamCalls.Reply command → Program streamCalls (Except Err (List StreamEntry) × Unit)}
      {reply : streamCalls.Reply command} (cikMapping : CikMapping) (now : String)
      (at_ : deployment.fleet.stage workerId = some (.reading (.await command next)))
      (served : deployment.fleet.Serves command reply fleet') :
      Step settings timeout concurrency uuid deployment (.reply workerId)
        ({ deployment with fleet := fleet' }.putStage workerId
          (some ((loop settings timeout concurrency workerId).received ⟨settings, cikMapping, now⟩
            deployment.fleet.broker.now (next reply))))
  | reclaim {deployment deployment' : Deployment} {workerId : String} {entry : StreamEntry} {started : ℕ}
      {call : Call} {next : calls.Reply call → Program calls (Except Err Unit × Unit)}
      {reply : calls.Reply call} {waiting : List StreamEntry} (cikMapping : CikMapping) (now : String)
      (at_ : deployment.fleet.stage workerId =
        some (.reclaiming ⟨entry, started, .await call next⟩ waiting))
      (served : deployment.Serves call reply deployment') :
      Step settings timeout concurrency uuid deployment (.reply workerId)
        (deployment'.putStage workerId
          (some ((loop settings timeout concurrency workerId).reclaimed ⟨settings, cikMapping, now⟩
            deployment.fleet.broker.now ⟨entry, started, next reply⟩ waiting)))
  | handle {deployment deployment' : Deployment} {workerId : String} {before after : List Handling}
      {entry : StreamEntry} {started : ℕ} {call : Call}
      {next : calls.Reply call → Program calls (Except Err Unit × Unit)} {reply : calls.Reply call}
      {waiting : List StreamEntry} (cikMapping : CikMapping) (now : String)
      (at_ : deployment.fleet.stage workerId =
        some (.batch (before ++ ⟨entry, started, .await call next⟩ :: after) waiting))
      (served : deployment.Serves call reply deployment') :
      Step settings timeout concurrency uuid deployment (.reply workerId)
        (deployment'.putStage workerId
          (some ((loop settings timeout concurrency workerId).handled ⟨settings, cikMapping, now⟩
            deployment.fleet.broker.now before ⟨entry, started, next reply⟩ after waiting)))
  | kill {deployment : Deployment} {workerId : String} :
      Step settings timeout concurrency uuid deployment (.kill workerId) (deployment.putStage workerId none)

end Deployment

end Quartr.Model
