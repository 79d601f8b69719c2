import Mathlib.Tactic.ByContra
import Mathlib.Tactic.SplitIfs
import Quartr.Soundness.Effects

/-! # Removal comes after acknowledgement

A handling removes its entry once the XACK has been answered, and by then the entry has been delivered. So in
every run an entry that has been removed was acknowledged before.
-/

namespace Quartr.Soundness

open Quartr.Machine Quartr.Model

/-- What a process knows of its entry. -/
def RemovalState (world : World) (agent : Agent) : Prop :=
  ∀ index, agent.label.entry? = some index → ∃ own, world.stream[index]? = some own ∧ own.status ≠ .waiting ∧
    (agent.control = .handling .acked → own.status = .acked)

/-- An entry is removed only once it has been acknowledged. -/
structure RemovalInvariant (view : ServiceView) : Prop where
  removed : ∀ (index : ℕ) (own : Entry), view.world.stream[index]? = some own → own.deleted = true → own.status = .acked
  agents : ∀ id agent, view.process id = some agent → RemovalState view.world agent

variable {settings : Settings} {uuid : ℕ → TaskId} {view view' : ServiceView} {event : ServiceEvent}
  {world world' : World} {agent : Agent} {call : Call} {reply : calls.Reply call}

theorem ack_status {own : Entry} (begun : own.status ≠ .waiting) : own.ack.status = .acked := by
  cases status : own.status with
  | waiting => exact absurd status begun
  | pending | acked => simp [Entry.ack, status]

theorem touch_begun {index : ℕ} {own : Entry} (begun : own.status ≠ .waiting) :
    (touch call index own).status ≠ .waiting := by
  cases call with
  | xack position =>
    simp only [touch]
    split_ifs
    · rw [ack_status begun]
      decide
    · exact begun
  | xdel position =>
    simp only [touch]
    split_ifs <;> exact begun
  | _ => exact begun

/-- A handling comes to the point where it removes its entry by an XACK that was answered. -/
theorem HandlingStep.acked {worker : Worker} {entry : ℕ} {taskId : TaskId} {phase : HandlingPhase}
    (step : HandlingStep worker entry taskId phase call reply .acked) :
    ∃ answer, (⟨call, reply⟩ : Σ call, calls.Reply call) = ⟨.xack entry, .ok answer⟩ := by
  generalize later : HandlingPhase.acked = phase' at step
  cases step with
  | ack reply =>
    cases reply with
    | error error => cases later
    | ok answer => exact ⟨answer, rfl⟩
  | load task =>
    unfold HandlingPhase.entering at later
    split_ifs at later
  | reread _ object read interrupted =>
    simp only [HandlingPhase.recovering] at later
    split_ifs at later
  | publish original saved filing path filed stored reply =>
    cases reply with
    | error error => cases later
    | ok answer =>
      simp only [HandlingPhase.bookkept] at later
      split_ifs at later
  | start _ _ reply => cases reply <;> cases later
  | complete _ _ _ _ reply => cases reply <;> cases later
  | release _ _ reply => cases reply <;> cases later
  | fail _ _ _ _ _ _ reply => cases reply <;> cases later
  | clear _ reply => cases reply <;> cases later
  | retry _ _ _ _ _ reply => cases reply <;> cases later
  | requeue _ reply => cases reply <;> cases later
  | enqueue _ reply => cases reply <;> cases later
  | bury _ _ _ reply => cases reply <;> cases later
  | forget _ reply => cases reply <;> cases later
  | _ => cases later

theorem RemovalState.served (state : RemovalState world agent) (served : Faulty call world reply world') :
    RemovalState world' agent := by
  intro index mine
  obtain ⟨own, present, begun, acked⟩ := state index mine
  rcases served_world served with rfl | rfl
  · exact ⟨own, present, begun, acked⟩
  · exact ⟨_, after_entry present, touch_begun begun, fun phase => touch_acked (acked phase)⟩

theorem RemovalState.delivered (state : RemovalState world agent) (position : ℕ) :
    RemovalState { world with stream := world.stream.modify position Entry.deliver } agent := by
  intro index mine
  obtain ⟨own, present, begun, acked⟩ := state index mine
  refine ⟨if position = index then own.deliver else own, ?_, ?_, fun phase => ?_⟩
  · rw [List.getElem?_modify, present]
    rfl
  · split_ifs
    · exact deliver_begun own
    · exact begun
  · split_ifs
    · exact (deliver_status own).mpr (acked phase)
    · exact acked phase

theorem removalInvariant_idle (world : World) (empty : world.stream = []) : RemovalInvariant (.idle world) := by
  refine ⟨fun index own present => ?_, fun _ _ present => Config.idle_absent present⟩
  rw [Config.idle_world, empty] at present
  cases present

theorem RemovalInvariant.step (invariant : RemovalInvariant view)
    (step : (outline settings uuid Faulty).Step view event view') : RemovalInvariant view' := by
  cases step with
  | @start id label world' absent begins =>
    cases label with
    | request cikMapping payload =>
      obtain rfl : world' = view.world := begins
      refine ⟨invariant.removed, fun other agent present => ?_⟩
      rcases Config.put_cases present with ⟨_, rfl⟩ | ⟨_, before⟩
      · rintro index ⟨⟩
      · exact invariant.agents other agent before
    | handling cikMapping now entry fields =>
      obtain ⟨⟨own, present, _, unacked, here⟩, rfl⟩ := begins
      constructor
      · intro index after found gone
        obtain ⟨before, old, rfl⟩ := before_modify found
        split_ifs at gone ⊢ with same
        · subst same
          rw [deliver_deleted] at gone
          exact (deliver_status before).mpr (invariant.removed _ before old gone)
        · exact invariant.removed index before old gone
      · intro other agent found
        rcases Config.put_cases found with ⟨_, rfl⟩ | ⟨_, before⟩
        · rintro index ⟨⟩
          refine ⟨own.deliver, ?_, deliver_begun own, fun phase => ?_⟩
          · rw [Config.put_world, List.getElem?_modify_eq, present]
            rfl
          · have initial : HandlingPhase.initial fields = .acked := Phase.handling.inj phase
            rcases HandlingPhase.initial_cases fields with same | same
            · cases same.symm.trans initial
            · cases same.symm.trans initial
        · exact (invariant.agents other agent before).delivered entry
  | @reply id agent call reply control world' present alive moves served =>
    have mine := invariant.agents id agent present
    constructor
    · intro index after found gone
      rcases served_world served with same | rfl
      · exact invariant.removed index after (same ▸ found) gone
      · rcases entry_of_after found with ⟨before, old, rfl⟩ | ⟨taskId, _, _, rfl⟩
        · by_cases removed : before.deleted = true
          · exact touch_acked (invariant.removed index before old removed)
          · have own : call = .xdel index := by
              cases call with
              | xdel position =>
                by_contra other
                have differs : position ≠ index := fun same => other (congrArg Call.xdel same)
                simp only [touch, differs, ↓reduceIte] at gone
                exact removed gone
              | xack position =>
                simp only [touch] at gone
                split_ifs at gone
                · exact absurd ((ack_deleted before).symm.trans gone) removed
                · exact absurd gone removed
              | _ => exact absurd gone removed
            subst own
            obtain ⟨label, phase, log, killed⟩ := agent
            cases moves with
            | @request _ _ _ phase _ _ _ _ step =>
              have next := step.call?_eq
              cases phase <;> cases next
            | handling step =>
              cases step with
              | pipeline _ _ _ _ outside => exact outside.elim
              | remove =>
                obtain ⟨own, there, _, acked⟩ := mine index rfl
                cases old.symm.trans there
                exact touch_acked (acked rfl)
        · cases gone
    · intro other found there
      rcases Config.put_cases there with ⟨_, rfl⟩ | ⟨_, before⟩
      · intro index own
        obtain ⟨entry, before, begun, _⟩ := mine index own
        obtain ⟨after, later, begun', _⟩ := (mine.served served) index own
        refine ⟨after, later, begun', fun phase => ?_⟩
        obtain ⟨label, control', log, killed⟩ := agent
        cases moves with
        | request identified step => cases phase
        | handling step =>
          cases own
          cases phase
          obtain ⟨answer, same⟩ := step.acked
          cases same
          rw [(served_answer served).2, after_entry before] at later
          cases later
          simp only [touch, ↓reduceIte]
          exact ack_status begun
      · exact (invariant.agents other found before).served served
  | @kill id agent present alive =>
    refine ⟨invariant.removed, fun other found there => ?_⟩
    rcases Config.put_cases there with ⟨_, rfl⟩ | ⟨_, before⟩
    · exact invariant.agents id agent present
    · exact invariant.agents other found before

end Quartr.Soundness
