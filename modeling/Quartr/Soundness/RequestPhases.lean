import Quartr.Model.Service
import Quartr.Soundness.Rules

/-! # The phases of a request

`RequestStep` lists every call `create_report` can make and where each reply leads.
`createReport_follows` shows that the handler never does anything else, whatever is replied.
-/

namespace Quartr.Soundness

open Quartr.Machine Quartr.Model
open Quartr.Machine.Coroutine (Follows follows_bind follows_tryCatch follows_own)

/-- What a request works with once its payload is checked; `taskId` is the id it may draw. -/
structure Ticket where
  settings : Settings
  identity : ReportIdentity
  includeAmended : Bool
  taskId : TaskId

namespace Ticket

variable (ticket : Ticket)

def logicalKey : String := Model.logicalKey ticket.identity.logicalPath ticket.includeAmended

def pendingKey : String := pendingTaskKey ticket.identity.logicalPath ticket.includeAmended

/-- The record the request may create. -/
def record : ReportTask := .fresh ticket.taskId ticket.identity ticket.includeAmended

def queuedRecord : ReportTask := { ticket.record with state := .queued }

end Ticket

/-- Where a request stands; `ended` holds the id it answered 202 with, if it did. -/
inductive RequestPhase where
  | checking
  | registering
  | following
  | attaching (existing : TaskId)
  | reclaiming
  | creating
  | admitting
  | rejecting
  | queueing
  | measuring
  | publishing
  | ended (answer : Option TaskId)
deriving DecidableEq

/-- A payload that fails its checks ends the request before its first call. -/
def RequestPhase.initial : Except Err ReportIdentity → RequestPhase
  | .error _ => .ended none
  | .ok _ => .checking

theorem RequestPhase.initial_cases (identified : Except Err ReportIdentity) :
    RequestPhase.initial identified = .ended none ∨ RequestPhase.initial identified = .checking := by
  cases identified with
  | error error => exact .inl rfl
  | ok identity => exact .inr rfl

/-- The one call a phase makes. -/
def RequestPhase.call? (ticket : Ticket) : RequestPhase → Option Call
  | .checking => some (.hgetallLogical ticket.logicalKey)
  | .registering => some (.setPendingNx ticket.pendingKey ticket.taskId)
  | .following => some (.getPending ticket.pendingKey)
  | .attaching existing => some (.getTask existing)
  | .reclaiming => some (.setPending ticket.pendingKey ticket.taskId)
  | .creating => some (.setTask ticket.record)
  | .admitting => some .xlen
  | .rejecting => some (.deletePending ticket.pendingKey)
  | .queueing => some (.setTask ticket.queuedRecord)
  | .measuring => some .xlen
  | .publishing => some (.xadd ticket.taskId)
  | .ended _ => none

inductive RequestStep (ticket : Ticket) : Protocol calls RequestPhase
  | cached (artifact : CurrentArtifact) :
      RequestStep ticket .checking (.hgetallLogical ticket.logicalKey) (.ok (some artifact)) (.ended none)
  | uncached :
      RequestStep ticket .checking (.hgetallLogical ticket.logicalKey) (.ok none) .registering
  | registered :
      RequestStep ticket .registering (.setPendingNx ticket.pendingKey ticket.taskId) (.ok true) .creating
  | contended :
      RequestStep ticket .registering (.setPendingNx ticket.pendingKey ticket.taskId) (.ok false)
        .following
  | followed (existing : TaskId) (named : existing ≠ "") :
      RequestStep ticket .following (.getPending ticket.pendingKey) (.ok (some existing))
        (.attaching existing)
  | unfollowed (pointer : Option TaskId) (unnamed : pointer = none ∨ pointer = some "") :
      RequestStep ticket .following (.getPending ticket.pendingKey) (.ok pointer) .reclaiming
  | attached (existing : TaskId) (task : ReportTask) :
      RequestStep ticket (.attaching existing) (.getTask existing) (.ok (some task))
        (.ended (some task.taskId))
  | missing (existing : TaskId) :
      RequestStep ticket (.attaching existing) (.getTask existing) (.ok none) .reclaiming
  | reclaimed :
      RequestStep ticket .reclaiming (.setPending ticket.pendingKey ticket.taskId) (.ok ()) .creating
  | created : RequestStep ticket .creating (.setTask ticket.record) (.ok ()) .admitting
  | admitted (reply : calls.Reply .xlen) (depth : ℕ) (read : depthOf reply = .ok depth)
      (free : depth < ticket.settings.maxQueueDepth) :
      RequestStep ticket .admitting .xlen reply .queueing
  | refused (phase : RequestPhase) (early : phase = .admitting ∨ phase = .measuring)
      (reply : calls.Reply .xlen) (depth : ℕ) (read : depthOf reply = .ok depth)
      (full : ticket.settings.maxQueueDepth ≤ depth) :
      RequestStep ticket phase .xlen reply .rejecting
  | queued : RequestStep ticket .queueing (.setTask ticket.queuedRecord) (.ok ()) .measuring
  | measured (reply : calls.Reply .xlen) (depth : ℕ) (read : depthOf reply = .ok depth)
      (free : depth < ticket.settings.maxQueueDepth) :
      RequestStep ticket .measuring .xlen reply .publishing
  | published :
      RequestStep ticket .publishing (.xadd ticket.taskId) (.ok ()) (.ended (some ticket.taskId))
  | rejected (reply : calls.Reply (.deletePending ticket.pendingKey)) :
      RequestStep ticket .rejecting (.deletePending ticket.pendingKey) reply (.ended none)
  | raised {phase : RequestPhase} {call : Call} (error : CallError)
      (next : phase.call? ticket = some call) : RequestStep ticket phase call (.error error) (.ended none)

/-- A request makes no call but the one of its phase. -/
theorem RequestStep.call?_eq {ticket : Ticket} {phase phase' : RequestPhase} {call : Call}
    {reply : calls.Reply call} (step : RequestStep ticket phase call reply phase') :
    phase.call? ticket = some call := by
  cases step with
  | refused phase early => rcases early with rfl | rfl <;> rfl
  | raised error next => exact next
  | _ => rfl

/-- A request saves no record but its own. -/
theorem RequestStep.tasks_other {ticket : Ticket} {phase phase' : RequestPhase} {call : Call}
    {reply : calls.Reply call} (step : RequestStep ticket phase call reply phase') (world : World)
    {taskId : TaskId} (other : taskId ≠ ticket.taskId) :
    (world.after call).tasks taskId = world.tasks taskId := by
  have next := step.call?_eq
  cases phase <;> cases next <;> first | rfl | exact Function.update_of_ne other ..

/-- The Redis commands of a request do not raise when they take effect. -/
theorem not_error {world world' : World} {ticket : Ticket} {phase : RequestPhase}
    {call : Call} {error : CallError} (next : phase.call? ticket = some call)
    (served : Reliable call world (.error error) world') : False := by
  obtain ⟨⟨outside, same⟩, _⟩ := served
  cases phase <;> cases next <;> cases same

section Follows

variable {ticket : Ticket} {σ α : Type} {object : σ}

theorem refuse_follows {identity : ReportIdentity} {includeAmended : Bool} {detail : String}
    {response : HttpResponse} {post : Except Err α → HttpResponse → RequestPhase → Prop}
    (same : pendingTaskKey identity.logicalPath includeAmended = ticket.pendingKey)
    (ended : ∀ error response', post (.error error) response' (.ended none)) :
    Follows (RequestStep ticket) (Routes.refuse identity includeAmended detail : Async HttpResponse α)
      response .rejecting post := by
  refine follows_bind.mpr (follows_call.mpr ?_)
  rw [same]
  intro reply
  refine ⟨_, .rejected reply, ?_⟩
  cases reply with
  | error error => exact ended _ _
  | ok answer => exact follows_bind.mpr (ended _ _)

/-- The phases of `get_or_create_task`. -/
def RequestPhase.Deduplicating : RequestPhase → Prop
  | .registering => True
  | .following => True
  | .attaching _ => True
  | .reclaiming => True
  | .creating => True
  | _ => False

/-- `get_or_create_task` ends with the task it created, with an existing one, or by raising. -/
theorem getOrCreateTask_follows {protocol : Protocol calls RequestPhase}
    {post : Except Err (ReportTask × Bool) → σ → RequestPhase → Prop}
    (includes : ∀ {phase call reply phase'}, phase.Deduplicating →
      RequestStep ticket phase call reply phase' → protocol phase call reply phase')
    (created : post (.ok (ticket.record, true)) object .admitting)
    (attached : ∀ task, post (.ok (task, false)) object (.ended (some task.taskId)))
    (raised : ∀ error, post (.error error) object (.ended none)) :
    Follows protocol
      (Repository.getOrCreateTask ticket.taskId ticket.identity ticket.includeAmended) object
      .registering post := by
  have create : Follows protocol
      (Repository.createTask ticket.taskId ticket.identity ticket.includeAmended) object
      .creating post := by
    refine follows_bind.mpr (follows_own.mpr (follows_save.mpr ?_))
    rintro (error | _)
    · exact ⟨_, includes trivial (.raised error rfl), raised _⟩
    · exact ⟨_, includes trivial .created, created⟩
  have reclaim : Follows protocol
      (call (.setPending ticket.pendingKey ticket.taskId) >>= fun _ =>
        Repository.createTask ticket.taskId ticket.identity ticket.includeAmended) object
      .reclaiming post := by
    refine follows_bind.mpr (follows_call.mpr ?_)
    rintro (error | _)
    · exact ⟨_, includes trivial (.raised error rfl), raised _⟩
    · exact ⟨_, includes trivial .reclaimed, create⟩
  refine follows_bind.mpr (follows_call.mpr ?_)
  rintro (error | _ | _)
  · exact ⟨_, includes trivial (.raised error rfl), raised _⟩
  · refine ⟨_, includes trivial .contended, follows_bind.mpr (follows_bind.mpr (follows_call.mpr ?_))⟩
    rintro (error | pointer)
    · exact ⟨_, includes trivial (.raised error rfl), raised _⟩
    · cases pointer with
      | none => exact ⟨_, includes trivial (.unfollowed none (.inl rfl)), reclaim⟩
      | some existing =>
        by_cases named : existing = ""
        · subst named
          exact ⟨_, includes trivial (.unfollowed (some "") (.inr rfl)), reclaim⟩
        · refine ⟨_, includes trivial (.followed existing named), ?_⟩
          simp only [Coroutine.mapError_ok, named, ↓reduceIte]
          refine follows_call.mpr ?_
          rintro (error | task)
          · exact ⟨_, includes trivial (.raised error rfl), raised _⟩
          · cases task with
            | none => exact ⟨_, includes trivial (.missing existing), reclaim⟩
            | some task => exact ⟨_, includes trivial (.attached existing task), attached task⟩
  · exact ⟨_, includes trivial .registered, create⟩

/-- The task this request created is admitted with its entry, or the request ends without one. -/
theorem admitTask_follows {response : HttpResponse} :
    Follows (RequestStep ticket)
      (Routes.admitTask ticket.settings ticket.identity ticket.includeAmended ticket.record)
      response .admitting
      (fun result _ phase => match result with
        | .ok task => task.taskId = ticket.taskId ∧ phase = .ended (some ticket.taskId)
        | .error _ => phase = .ended none) := by
  refine follows_bind.mpr (follows_hasCapacity.mpr fun reply => ?_)
  cases read : depthOf reply with
  | error error =>
    cases reply with
    | ok depth => cases read
    | error raised => exact ⟨_, .raised raised rfl, rfl⟩
  | ok depth =>
    by_cases free : depth < ticket.settings.maxQueueDepth
    · refine ⟨_, .admitted reply depth read free, ?_⟩
      simp only [Except.map, free, decide_true, ↓reduceIte]
      refine follows_bind.mpr (follows_own.mpr (follows_transition_live rfl (by decide) rfl ?_))
      rintro (error | _)
      · exact ⟨_, .raised error rfl, rfl⟩
      · refine ⟨_, .queued, ?_⟩
        refine follows_bind.mpr (follows_tryCatch.mpr (follows_enqueue.mpr fun reply => ?_))
        cases read : depthOf reply with
        | error error =>
          cases reply with
          | ok depth => cases read
          | error raised => cases raised <;> cases read <;> exact ⟨_, .raised _ rfl, rfl⟩
        | ok depth =>
          by_cases full : ticket.settings.maxQueueDepth ≤ depth
          · refine ⟨_, .refused .measuring (.inr rfl) reply depth read full, ?_⟩
            simp only [full, ↓reduceIte]
            exact refuse_follows rfl fun _ _ => rfl
          · refine ⟨_, .measured reply depth read (Nat.lt_of_not_le full), ?_⟩
            simp only [full, ↓reduceIte]
            rintro (error | _)
            · exact ⟨_, .raised error rfl, rfl⟩
            · exact ⟨_, .published, rfl, rfl⟩
    · refine ⟨_, .refused .admitting (.inl rfl) reply depth read (Nat.le_of_not_lt free), ?_⟩
      simp only [Except.map, free, decide_false, Bool.false_eq_true, ↓reduceIte]
      exact refuse_follows rfl fun _ _ => rfl

/-- `create_report` follows the request protocol and ends in the phase of its answer. -/
theorem createReport_follows {cikMapping : CikMapping} {payload : CreateReportRequest}
    {response : HttpResponse}
    (identified : Routes.requestedIdentity cikMapping payload = .ok ticket.identity)
    (flag : payload.includeAmended = ticket.includeAmended) :
    Follows (RequestStep ticket)
      (Routes.createReport ticket.settings cikMapping ticket.taskId payload) response .checking
      (fun result response' phase => phase = .ended (acceptedId? result response')) := by
  refine follows_bind.mpr ?_
  rw [identified, flag]
  refine Coroutine.follows_lift.mpr (follows_bind.mpr (follows_call.mpr ?_))
  rintro (error | artifact)
  · exact ⟨_, .raised error rfl, rfl⟩
  · cases artifact with
    | some artifact => exact ⟨_, .cached artifact, rfl⟩
    | none =>
      refine ⟨_, .uncached, follows_bind.mpr (getOrCreateTask_follows (fun _ step => step) ?_ ?_ ?_)⟩
      · refine follows_bind.mpr (Follows.mono admitTask_follows ?_)
        rintro (error | task) response' phase ended
        · exact ended
        · obtain ⟨same, rfl⟩ := ended
          exact congrArg (fun id => RequestPhase.ended (some id)) same.symm
      · exact fun task => rfl
      · exact fun error => rfl

end Follows

end Quartr.Soundness
