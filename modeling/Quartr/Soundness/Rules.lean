import Quartr.Machine.Protocol
import Quartr.Machine.Solo
import Quartr.Model.Repository

/-! # Protocol rules for the repository and the queue

One rule per method that awaits, for any protocol: what the protocol must consent to, and what
holds at each exit. The functions above them are treated with these rules and never unfold the
methods.
-/

namespace Quartr.Soundness

open Quartr.Machine Quartr.Model
open Quartr.Machine.Coroutine (Follows follows_bind follows_tryCatch follows_own)

variable {σ α Phase : Type} {protocol : Protocol calls Phase} {object : σ} {phase : Phase}

theorem follows_call {c : Call} {post : Except Err c.Answer → σ → Phase → Prop} :
    Follows protocol (call c) object phase post ↔
      ∀ reply : calls.Reply c, ∃ phase', protocol phase c reply phase' ∧
        post (reply.mapError Err.call) object phase' :=
  Coroutine.follows_await

/-- `except Exception: pass`. -/
theorem follows_swallow {body : Async σ Unit} {accepts : Phase → Prop}
    (follows : Follows protocol body object phase fun _ _ phase' => accepts phase') :
    Follows protocol (tryCatch body fun _ => pure ()) object phase
      fun result _ phase' => result = .ok () ∧ accepts phase' := by
  refine follows_tryCatch.mpr (Follows.mono follows ?_)
  rintro (error | _) object' phase' accepted
  · exact ⟨rfl, accepted⟩
  · exact ⟨rfl, accepted⟩

/-- The depth a reply to XLEN stands for; a response error counts as an empty queue. -/
def depthOf : calls.Reply .xlen → Except Err ℕ
  | .ok depth => .ok depth
  | .error (.response _) => .ok 0
  | .error error => .error (.call error)

theorem follows_depth {post : Except Err ℕ → σ → Phase → Prop} :
    Follows protocol Queue.depth object phase post ↔
      ∀ reply : calls.Reply .xlen, ∃ phase', protocol phase .xlen reply phase' ∧
        post (depthOf reply) object phase' := by
  refine follows_tryCatch.trans (follows_call.trans (forall_congr' fun reply =>
    exists_congr fun phase' => and_congr_right fun _ => ?_))
  rcases reply with (_ | _ | _ | _ | _) | _ <;> exact Iff.rfl

theorem follows_hasCapacity {settings : Settings} {post : Except Err Bool → σ → Phase → Prop} :
    Follows protocol (Queue.hasCapacity settings) object phase post ↔
      ∀ reply : calls.Reply .xlen, ∃ phase', protocol phase .xlen reply phase' ∧
        post ((depthOf reply).map fun depth => depth < settings.maxQueueDepth) object phase' := by
  refine follows_bind.trans (follows_depth.trans (forall_congr' fun reply =>
    exists_congr fun phase' => and_congr_right fun _ => ?_))
  cases depthOf reply <;> exact Iff.rfl

theorem follows_save {task : ReportTask} {post : Except Err Unit → ReportTask → Phase → Prop} :
    Follows protocol Repository.save task phase post ↔
      ∀ reply : calls.Reply (.setTask task), ∃ phase', protocol phase (.setTask task) reply phase' ∧
        post (reply.mapError Err.call) task phase' :=
  follows_bind.trans follows_call

/-- A transition that the table does not allow awaits nothing. -/
theorem follows_transition_illegal {task : ReportTask} {target : ReportState}
    {updates : ReportTask → ReportTask} {post : Except Err Unit → ReportTask → Phase → Prop}
    (illegal : canTransition task.state target = false)
    (raised : post (.error (.invalidStateTransition task.state target)) task phase) :
    Follows protocol (Repository.transition target updates) task phase post := by
  refine follows_bind.mpr (Coroutine.follows_get.mpr (follows_bind.mpr ?_))
  simpa only [Coroutine.follows_lift, assertTransition, illegal, Bool.false_eq_true, ↓reduceIte]
    using raised

section Legal

variable {task saved : ReportTask} {target : ReportState} {updates : ReportTask → ReportTask}
  {post : Except Err Unit → ReportTask → Phase → Prop}

private theorem follows_transition_saving (legal : canTransition task.state target = true)
    (result : saved = updates { task with state := target })
    (follows : Follows protocol (Repository.save >>= fun _ =>
      if target.Terminal then do
        Repository.clearPending (← get).identity.logicalPath (← get).includeAmended
      else pure ()) saved phase post) :
    Follows protocol (Repository.transition target updates) task phase post := by
  subst result
  refine follows_bind.mpr (Coroutine.follows_get.mpr (follows_bind.mpr ?_))
  simp only [Coroutine.follows_lift, assertTransition, legal, ↓reduceIte]
  refine follows_bind.mpr (Coroutine.follows_modify.mpr ?_)
  by_cases terminal : target.Terminal
  · simp only [terminal, ↓reduceIte] at follows ⊢
    exact follows
  · simp only [terminal, ↓reduceIte] at follows ⊢
    exact follows

/-- A legal transition to a state that is not terminal saves the updated object. -/
theorem follows_transition_live (legal : canTransition task.state target = true)
    (live : ¬ target.Terminal) (result : saved = updates { task with state := target })
    (save : ∀ reply : calls.Reply (.setTask saved), ∃ phase',
      protocol phase (.setTask saved) reply phase' ∧ post (reply.mapError Err.call) saved phase') :
    Follows protocol (Repository.transition target updates) task phase post := by
  refine follows_transition_saving legal result (follows_bind.mpr (follows_save.mpr fun reply => ?_))
  obtain ⟨phase', allowed, rest⟩ := save reply
  refine ⟨phase', allowed, ?_⟩
  cases reply with
  | error error => exact rest
  | ok answer =>
    simp only [live, ↓reduceIte]
    exact rest

/-- A legal transition to a terminal state saves the updated object and releases its pointer. -/
theorem follows_transition_terminal (legal : canTransition task.state target = true)
    (terminal : target.Terminal) (result : saved = updates { task with state := target })
    (save : ∀ reply : calls.Reply (.setTask saved), ∃ phase',
      protocol phase (.setTask saved) reply phase' ∧
        match reply with
        | .error error => post (.error (.call error)) saved phase'
        | .ok _ =>
          ∀ reply : calls.Reply (.deletePending saved.pendingKey), ∃ phase'',
            protocol phase' (.deletePending saved.pendingKey) reply phase'' ∧
              post (reply.mapError Err.call) saved phase'') :
    Follows protocol (Repository.transition target updates) task phase post := by
  refine follows_transition_saving legal result (follows_bind.mpr (follows_save.mpr fun reply => ?_))
  obtain ⟨phase', allowed, rest⟩ := save reply
  refine ⟨phase', allowed, ?_⟩
  cases reply with
  | error error => exact rest
  | ok answer =>
    simp only [terminal, ↓reduceIte]
    exact follows_bind.mpr (Coroutine.follows_get.mpr (follows_bind.mpr
      (Coroutine.follows_get.mpr (follows_call.mpr rest))))

end Legal

/-- `enqueue` reads the depth, then adds the entry. -/
theorem follows_enqueue {settings : Settings} {taskId : TaskId}
    {post : Except Err Unit → σ → Phase → Prop} :
    Follows protocol (Queue.enqueue settings taskId) object phase post ↔
      ∀ reply : calls.Reply .xlen, ∃ phase', protocol phase .xlen reply phase' ∧
        match depthOf reply with
        | .error error => post (.error error) object phase'
        | .ok depth =>
          if settings.maxQueueDepth ≤ depth then
            post (.error (.queueFull depth settings.maxQueueDepth)) object phase'
          else
            ∀ reply : calls.Reply (.xadd taskId), ∃ phase'',
              protocol phase' (.xadd taskId) reply phase'' ∧
                post (reply.mapError Err.call) object phase'' := by
  refine follows_bind.trans (follows_depth.trans (forall_congr' fun reply =>
    exists_congr fun phase' => and_congr_right fun _ => ?_))
  cases depthOf reply with
  | error error => exact Iff.rfl
  | ok depth =>
    by_cases full : settings.maxQueueDepth ≤ depth
    · simp only [full, ↓reduceIte]
      exact follows_bind
    · simp only [full, ↓reduceIte]
      exact follows_call

theorem follows_ackAndRemove {entry : ℕ} {post : Except Err Unit → σ → Phase → Prop} :
    Follows protocol (Queue.ackAndRemove entry) object phase post ↔
      ∀ reply : calls.Reply (.xack entry), ∃ phase', protocol phase (.xack entry) reply phase' ∧
        match reply with
        | .error error => post (.error (.call error)) object phase'
        | .ok _ =>
          ∀ reply : calls.Reply (.xdel entry), ∃ phase'',
            protocol phase' (.xdel entry) reply phase'' ∧
              post (reply.mapError Err.call) object phase'' := by
  refine follows_bind.trans (follows_call.trans (forall_congr' fun reply =>
    exists_congr fun phase' => and_congr_right fun _ => ?_))
  cases reply with
  | error error => exact Iff.rfl
  | ok answer => exact follows_call

/-- A call of a party that is alone is answered by the world and takes effect. -/
theorem runs_call {outside : Outside} {world : World} {c : Call} {answer : c.Answer}
    (answered : world.reply outside c = .ok answer) :
    Coroutine.Runs (World.answer outside) (call c) object world (.ok answer) object (world.after c) :=
  Coroutine.Runs.await answered

end Quartr.Soundness
