import Quartr.Soundness.RequestPhases
import Quartr.Soundness.HandlingPhases

/-! # The service seen through its phases

The outline has the processes of the service with phases for control. `service_refines` says that
every run of the code is a run of the outline with the same events, so the results about runs are
proved by invariants of the outline. The lemmas below read back off a phase what the results say
about the code: whether a process is active, and what it answered.
-/

namespace Quartr.Soundness

open Quartr.Machine Quartr.Model

inductive Phase where
  | request (phase : RequestPhase)
  | handling (phase : HandlingPhase)

/-- The task a handling works on; an entry without one is only acknowledged. -/
def handledId (fields : List (String × String)) : TaskId := (fieldsTaskId fields).getD ""

inductive ServiceStep (settings : Settings) (uuid : ℕ → TaskId) (id : ℕ) :
    Activity → Protocol calls Phase
  | request {cikMapping : CikMapping} {payload : CreateReportRequest} {identity : ReportIdentity}
      {phase phase' : RequestPhase} {call : Call} {reply : calls.Reply call}
      (identified : Routes.requestedIdentity cikMapping payload = .ok identity)
      (step : RequestStep ⟨settings, identity, payload.includeAmended, uuid id⟩ phase call reply phase') :
      ServiceStep settings uuid id (.request cikMapping payload) (.request phase) call reply
        (.request phase')
  | handling {cikMapping : CikMapping} {now : String} {entry : ℕ} {fields : List (String × String)}
      {phase phase' : HandlingPhase} {call : Call} {reply : calls.Reply call}
      (step : HandlingStep ⟨settings, cikMapping, now⟩ entry (handledId fields) phase call reply phase') :
      ServiceStep settings uuid id (.handling cikMapping now entry fields) (.handling phase) call reply
        (.handling phase')

namespace Phase

/-- The phase an activity begins in. -/
def initial : Activity → Phase
  | .request cikMapping payload => .request (.initial (Routes.requestedIdentity cikMapping payload))
  | .handling _ _ _ fields => .handling (.initial fields)

/-- No call is left to make. -/
def Final (phase : Phase) : Prop :=
  (∃ answer, phase = .request (.ended answer)) ∨ phase = .handling .stopped

/-- The phase a process ends in. -/
def Matches (outcome : Outcome) (phase : Phase) : Prop :=
  match outcome with
  | .answered result response => phase = .request (.ended (acceptedId? result response))
  | .handled _ => phase = .handling .stopped

end Phase

abbrev ServiceView := Config calls World Activity Phase
abbrev Agent := Process calls Activity Phase

/-- The service with phases for control. -/
def outline (settings : Settings) (uuid : ℕ → TaskId)
    (serve : (call : Call) → World → calls.Reply call → World → Prop) :
    System calls World Activity Phase :=
  ⟨fun _ => Phase.initial, ServiceStep settings uuid, Service.start, serve⟩

/-- A configuration of the service seen through its phases. -/
abbrev Views (settings : Settings) (uuid : ℕ → TaskId)
    (serve : (call : Call) → World → calls.Reply call → World → Prop) (config : ServiceConfig)
    (view : ServiceView) : Prop :=
  config.Views (outline settings uuid serve) (fun _ _ => Phase.Matches) view

section Refinement

variable {settings : Settings} {uuid : ℕ → TaskId}
  {serve : (call : Call) → World → calls.Reply call → World → Prop}

/-- The code follows the outline. -/
theorem service_refines :
    Refinement (service settings uuid serve) (outline settings uuid serve)
      (fun _ _ => Phase.Matches) := by
  refine ⟨rfl, rfl, rfl, fun id activity => ?_⟩
  cases activity with
  | request cikMapping payload =>
    refine Program.Follows.bind_iff.mpr ?_
    show Program.Follows _ _ _ (Phase.request (.initial (Routes.requestedIdentity cikMapping payload)))
    cases identified : Routes.requestedIdentity cikMapping payload with
    | error error =>
      unfold Routes.createReport
      rw [identified]
      rfl
    | ok identity =>
      let ticket : Ticket := ⟨settings, identity, payload.includeAmended, uuid id⟩
      have follows : Coroutine.Follows (RequestStep ticket)
          (Routes.createReport settings cikMapping (uuid id) payload) .fresh .checking
          (fun result response phase => phase = .ended (acceptedId? result response)) :=
        @createReport_follows ticket _ _ _ identified rfl
      refine Program.Follows.embed follows Phase.request ?_ ?_
      · exact fun _ _ _ _ step => .request identified step
      · rintro ⟨result, response⟩ phase rfl
        rfl
  | handling cikMapping now entry fields =>
    refine Program.Follows.bind_iff.mpr ?_
    have follows : Coroutine.Follows
        (HandlingStep ⟨settings, cikMapping, now⟩ entry (handledId fields))
        (Worker.handleMessage ⟨settings, cikMapping, now⟩ entry fields) ()
        (.initial fields) (fun _ _ phase => phase = .stopped) := by
      refine handleMessage_follows ?_
      intro name found
      simp only [handledId, found, Option.getD_some]
    refine Program.Follows.embed follows Phase.handling ?_ ?_
    · exact fun _ _ _ _ step => .handling step
    · rintro ⟨result, _⟩ phase rfl
      rfl

end Refinement

section Readback

variable {settings : Settings} {uuid : ℕ → TaskId} {id : ℕ}

/-- From a final phase there is no step. -/
theorem ServiceStep.not_final {activity : Activity} {phase phase' : Phase} {call : Call}
    {reply : calls.Reply call} (step : ServiceStep settings uuid id activity phase call reply phase') :
    ¬ phase.Final := by
  cases step with
  | request identified step =>
    rintro (⟨answer, same⟩ | same)
    · cases same
      cases step.call?_eq
    · cases same
  | handling step =>
    rintro (⟨answer, same⟩ | same)
    · cases same
    · cases same
      cases step with
      | reread _ _ _ interrupted => cases interrupted
      | unrecovered _ _ _ interrupted => cases interrupted

variable {process : ServiceProcess} {agent : Agent}

/-- A process is active exactly while its phase is not final. -/
theorem active_iff
    (follows : process.Follows (ServiceStep settings uuid id agent.label) Phase.Matches agent) :
    process.Active ↔ agent.killed = false ∧ ¬ agent.control.Final := by
  obtain ⟨_, _, killed, follows⟩ := follows
  unfold Process.Active
  rw [killed]
  refine and_congr_right fun _ => ?_
  cases control : process.control with
  | done outcome =>
    rw [control] at follows
    refine iff_of_false (fun active => active rfl) (not_not_intro ?_)
    cases outcome with
    | answered result response => exact .inl ⟨_, follows⟩
    | handled result => exact .inr follows
  | await call next =>
    rw [control] at follows
    obtain ⟨phase', step, _⟩ := follows (.error (.other ""))
    exact iff_of_true nofun step.not_final

/-- A process has answered 202 exactly when its phase says so. -/
theorem accepted_iff
    (follows : process.Follows (ServiceStep settings uuid id agent.label) Phase.Matches agent)
    (taskId : TaskId) :
    Accepted process taskId ↔ agent.control = .request (.ended (some taskId)) := by
  obtain ⟨_, _, _, follows⟩ := follows
  unfold Accepted Process.result?
  cases control : process.control with
  | done outcome =>
    rw [control] at follows
    cases outcome with
    | answered result response =>
      rw [show agent.control = .request (.ended (acceptedId? result response)) from follows]
      simp only [Option.bind_some, Outcome.acceptedId?, Phase.request.injEq, RequestPhase.ended.injEq]
    | handled result =>
      rw [show agent.control = .handling .stopped from follows]
      simp only [Option.bind_some, Outcome.acceptedId?, reduceCtorEq]
  | await call next =>
    rw [control] at follows
    obtain ⟨phase', step, _⟩ := follows (.error (.other ""))
    refine iff_of_false nofun fun same => ?_
    exact step.not_final (.inl ⟨_, same⟩)

end Readback

end Quartr.Soundness
