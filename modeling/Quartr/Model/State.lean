/-! # The task state machine

`ReportState`, the table of allowed transitions and the guard every `transition` goes through.
-/

namespace Quartr.Model

inductive ReportState where
  | accepted
  | queued
  | processing
  | completed
  | failed
  | retrying
  | cancelled
deriving DecidableEq, Repr

namespace ReportState

/-- The member's value, which is also what the API answers. -/
def value : ReportState → String
  | accepted => "accepted"
  | queued => "queued"
  | processing => "processing"
  | completed => "completed"
  | failed => "failed"
  | retrying => "retrying"
  | cancelled => "cancelled"

/-- The member as an f-string renders it. -/
def toText : ReportState → String
  | accepted => "ReportState.ACCEPTED"
  | queued => "ReportState.QUEUED"
  | processing => "ReportState.PROCESSING"
  | completed => "ReportState.COMPLETED"
  | failed => "ReportState.FAILED"
  | retrying => "ReportState.RETRYING"
  | cancelled => "ReportState.CANCELLED"

/-- COMPLETED and FAILED, the targets that release the dedup pointer. -/
def Terminal (state : ReportState) : Prop := state = completed ∨ state = failed

instance (state : ReportState) : Decidable state.Terminal :=
  inferInstanceAs (Decidable (_ ∨ _))

end ReportState

/-- `_ALLOWED_TRANSITIONS`. -/
def allowedTransitions : ReportState → List ReportState
  | .accepted => [.queued]
  | .queued => [.processing]
  | .processing => [.completed, .failed, .retrying]
  | .retrying => [.queued]
  | .completed => []
  | .failed => [.retrying]
  | .cancelled => []

/-- A transition to the state itself is always allowed. -/
def canTransition (current target : ReportState) : Bool :=
  current = target || (allowedTransitions current).contains target

end Quartr.Model
