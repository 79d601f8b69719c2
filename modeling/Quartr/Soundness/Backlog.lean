import Mathlib.Data.Finset.Card
import Quartr.Model.Sample
import Quartr.Soundness.Effects
import Quartr.Soundness.ServicePhases

/-! # The backlog is bounded

Admission reads the depth and adds the entry in two commands, so concurrent callers may pass the
check together. Callers that are past the check count as if their entries were there already: with
at most `k` of them at a time the stream never holds more than `k - 1` entries above the limit.
-/

namespace Quartr.Soundness

open Quartr.Machine Quartr.Model

/-- XLEN raises a response error on a missing stream only, and that holds nothing. -/
def DepthAnswered : (call : Call) → World → calls.Reply call → Prop
  | .xlen, world, .error (.response _) => world.depth = 0
  | _, _, _ => True

/-- Any command may raise, with or without effect, but the depth is never misread. -/
def Measurable (call : Call) (world : World) (reply : calls.Reply call) (world' : World) : Prop :=
  Faulty call world reply world' ∧ DepthAnswered call world reply

/-- An enqueue call of the process has passed its depth check, and its XADD comes next. -/
def AboutToAdd (process : ServiceProcess) : Prop :=
  process.killed = false ∧ ∃ taskId, process.control.call? = some (.xadd taskId)

/-- No more than `k` enqueue calls are between their depth check and their XADD. -/
def AtMostAdding (k : ℕ) (config : ServiceConfig) : Prop :=
  ∀ ids : Finset ℕ, (∀ id ∈ ids, ∃ process, config.process id = some process ∧ AboutToAdd process) →
    ids.card ≤ k

/-! ### What a step does to the depth -/

section Depth

variable {world world' : World} {call : Call} {stream : List Entry}

/-- The entries that have not been deleted. -/
def remaining (stream : List Entry) : ℕ := (stream.filter fun entry => !entry.deleted).length

/-- What deletes no entry anew leaves as many as there were, or fewer. -/
theorem remaining_modify (stream : List Entry) (index : ℕ) {change : Entry → Entry}
    (keeps : ∀ entry, entry.deleted = true → (change entry).deleted = true) :
    remaining (stream.modify index change) ≤ remaining stream := by
  unfold remaining
  induction stream generalizing index with
  | nil => rw [List.modify_nil]
  | cons entry rest ih =>
    cases index with
    | zero =>
      simp only [List.modify_zero_cons, List.filter_cons]
      cases gone : entry.deleted with
      | false =>
        simp only [Bool.not_false, ↓reduceIte, List.length_cons]
        split_ifs
        · exact le_rfl
        · exact Nat.le_succ _
      | true =>
        simp only [keeps entry gone, Bool.not_true, Bool.false_eq_true, ↓reduceIte, le_refl]
    | succ index =>
      simp only [List.modify_succ_cons, List.filter_cons]
      have fewer := ih index
      split_ifs
      · simp only [List.length_cons]
        omega
      · exact fewer

/-- Only XADD makes the stream longer, by one entry. -/
theorem depth_after (world : World) (call : Call) :
    (world.after call).depth ≤ world.depth ∨
      (∃ taskId, call = .xadd taskId) ∧ (world.after call).depth = world.depth + 1 := by
  cases call with
  | xadd taskId =>
    refine .inr ⟨⟨taskId, rfl⟩, ?_⟩
    unfold World.depth
    rw [World.after_stream, List.filter_append, List.length_append]
    rfl
  | xack index =>
    apply Or.inl
    apply remaining_modify
    intro entry gone
    rw [ack_deleted, gone]
  | xdel index =>
    apply Or.inl
    apply remaining_modify
    intro entry _
    rfl
  | _ => exact .inl le_rfl

theorem depth_served {reply : calls.Reply call} (served : Faulty call world reply world') :
    world'.depth ≤ world.depth ∨
      (∃ taskId, call = .xadd taskId) ∧ world'.depth = world.depth + 1 := by
  rcases served_world served with rfl | rfl
  · exact .inl le_rfl
  · exact depth_after world call

/-- Beginning an activity adds no entry. -/
theorem depth_start {activity : Activity} (begins : Service.start world activity world') :
    world'.depth ≤ world.depth := by
  cases activity with
  | request => exact (congrArg World.depth begins).le
  | handling =>
    obtain ⟨_, rfl⟩ := begins
    apply remaining_modify
    intro entry gone
    rw [deliver_deleted, gone]

/-- The depth a caller reads is the depth of the stream. -/
theorem depth_read {reply : calls.Reply .xlen} {depth : ℕ}
    (served : Measurable .xlen world reply world') (read : depthOf reply = .ok depth) :
    depth = world.depth ∧ world' = world := by
  have same : world' = world := by
    rcases served_world served.1 with rfl | rfl <;> rfl
  refine ⟨?_, same⟩
  cases reply with
  | ok answer =>
    cases read
    rcases served.1 with ⟨⟨outside, answered⟩, _⟩ | ⟨error, _, raised, _⟩
    · exact Except.ok.inj answered
    · cases raised
  | error error =>
    cases error with
    | response message =>
      cases read
      exact served.2.symm
    | _ => cases read

end Depth

/-! ### Callers past the check -/

/-- The phases between the depth check and the XADD. -/
def HandlingPhase.PastCheck : HandlingPhase → Prop
  | .measured _ => True
  | _ => False

def Phase.PastCheck : Phase → Prop
  | .request phase => phase = .publishing
  | .handling phase => phase.PastCheck

section Steps

variable {settings : Settings} {uuid : ℕ → TaskId} {id : ℕ} {activity : Activity} {phase phase' : Phase}
  {call : Call} {reply : calls.Reply call} {world world' : World}

theorem not_past_orBroken {reply : calls.Reply call} {saved : ReportTask} {phase : HandlingPhase}
    (outside : ¬ phase.PastCheck) : ¬ (orBroken reply saved phase).PastCheck := by
  cases reply with
  | ok answer => exact outside
  | error error => exact id

theorem not_past_orStopped {reply : calls.Reply call} {phase : HandlingPhase}
    (outside : ¬ phase.PastCheck) : ¬ (orStopped reply phase).PastCheck := by
  cases reply with
  | ok answer => exact outside
  | error error => exact id

theorem not_past_recovering (settings : Settings) (task : ReportTask) :
    ¬ (HandlingPhase.recovering settings task).PastCheck := by
  simp only [HandlingPhase.recovering]
  split_ifs <;> exact id

theorem not_past_entering (task : ReportTask) : ¬ (HandlingPhase.entering task).PastCheck := by
  simp only [HandlingPhase.entering]
  split_ifs <;> exact id

theorem not_past_bookkept (original : ReportIdentity) (saved : ReportTask) :
    ¬ (HandlingPhase.bookkept original saved).PastCheck := by
  simp only [HandlingPhase.bookkept]
  split_ifs <;> exact id

/-- A worker passes the check on a depth below the limit only. -/
theorem HandlingStep.checked {worker : Worker} {entry : ℕ} {taskId : TaskId}
    {phase phase' : HandlingPhase} (step : HandlingStep worker entry taskId phase call reply phase')
    (served : Measurable call world reply world') (past : phase'.PastCheck) :
    world.depth < worker.settings.maxQueueDepth ∧ world' = world := by
  cases step with
  | measure saved reply depth read free =>
    obtain ⟨rfl, same⟩ := depth_read served read
    exact ⟨free, same⟩
  | load task => exact absurd past (not_past_entering task)
  | reread phase object read interrupted => exact absurd past (not_past_recovering _ _)
  | publish original saved filing path filed stored reply =>
    cases reply with
    | ok answer => exact absurd past (not_past_bookkept original saved)
    | error error => exact past.elim
  | start | complete | release | fail | clear | retry | requeue | enqueue =>
    exact absurd past (not_past_orBroken id)
  | bury | forget | ack => exact absurd past (not_past_orStopped id)
  | _ => exact past.elim

theorem RequestStep.checked {ticket : Ticket} {phase : RequestPhase}
    (step : RequestStep ticket phase call reply .publishing)
    (served : Measurable call world reply world') :
    world.depth < ticket.settings.maxQueueDepth ∧ world' = world := by
  cases step with
  | measured reply depth read free =>
    obtain ⟨rfl, same⟩ := depth_read served read
    exact ⟨free, same⟩

/-- The one way past the check is a depth below the limit. -/
theorem ServiceStep.checked (step : ServiceStep settings uuid id activity phase call reply phase')
    (served : Measurable call world reply world') (past : phase'.PastCheck) :
    world.depth < settings.maxQueueDepth ∧ world' = world := by
  cases step with
  | request identified step =>
    cases past
    exact step.checked served
  | handling step => exact step.checked served past

/-- An XADD is made past the check only, and past the check nothing else is. -/
theorem ServiceStep.adds (step : ServiceStep settings uuid id activity phase call reply phase') :
    phase.PastCheck ↔ ∃ taskId, call = .xadd taskId := by
  cases step with
  | request identified step =>
    have next := step.call?_eq
    constructor
    · rintro rfl
      cases next
      exact ⟨_, rfl⟩
    · rintro ⟨taskId, rfl⟩
      rename_i phase _
      cases phase <;> cases next
      rfl
  | handling step =>
    constructor
    · intro past
      cases step with
      | enqueue saved => exact ⟨_, rfl⟩
      | reread _ _ _ interrupted => cases interrupted <;> exact past.elim
      | unrecovered _ _ _ interrupted => cases interrupted <;> exact past.elim
      | _ => exact past.elim
    · rintro ⟨taskId, rfl⟩
      cases step with
      | pipeline _ _ _ _ outside => exact outside.elim
      | enqueue => trivial

/-- A process past the check in the outline is one whose XADD comes next. -/
theorem aboutToAdd {process : ServiceProcess} {agent : Agent}
    (follows : process.Follows (ServiceStep settings uuid id agent.label) Phase.Matches agent)
    (alive : agent.killed = false) (past : agent.control.PastCheck) : AboutToAdd process := by
  obtain ⟨_, _, killed, follows⟩ := follows
  refine ⟨killed.trans alive, ?_⟩
  cases control : process.control with
  | done outcome =>
    rw [control] at follows
    cases outcome with
    | answered result response =>
      rw [show agent.control = _ from follows] at past
      cases past
    | handled result =>
      rw [show agent.control = _ from follows] at past
      exact past.elim
  | await call next =>
    rw [control] at follows
    obtain ⟨phase', step, _⟩ := follows (.error (.other ""))
    obtain ⟨taskId, rfl⟩ := step.adds.mp past
    exact ⟨taskId, rfl⟩

end Steps

/-! ### Runs -/

/-- The process is past the check and has not been killed. -/
def PastAt (view : ServiceView) (id : ℕ) : Prop :=
  ∃ agent, view.process id = some agent ∧ agent.killed = false ∧ agent.control.PastCheck

/-- Callers past the check fit below the bound together with the entries there are. -/
def Fits (bound k : ℕ) (view : ServiceView) : Prop :=
  ∀ ids : Finset ℕ, (∀ id ∈ ids, PastAt view id) → ids.card ≤ k → view.world.depth + ids.card ≤ bound

section Run

variable {settings : Settings} {uuid : ℕ → TaskId} {bound k id other : ℕ} {config : ServiceConfig}
  {view view' : ServiceView} {event : ServiceEvent} {agent : Agent} {world : World}

theorem PastAt.of_put (past : PastAt (view.put id agent world) other) (differs : other ≠ id) :
    PastAt view other := by
  obtain ⟨found, present, alive, past⟩ := past
  rw [Config.put_of_ne differs] at present
  exact ⟨found, present, alive, past⟩

/-- A process that is not past the check takes no room. -/
theorem not_pastAt_put (outside : agent.killed = false → ¬ agent.control.PastCheck) :
    ¬ PastAt (view.put id agent world) id := by
  rintro ⟨found, present, alive, past⟩
  cases Config.put_self.symm.trans present
  exact outside alive past

/-- A step that adds no entry and lets nobody past the check. -/
theorem Fits.put (fits : Fits bound k view) (fewer : world.depth ≤ view.world.depth)
    (outside : agent.killed = false → ¬ agent.control.PastCheck) :
    Fits bound k (view.put id agent world) := by
  intro ids past few
  have before : view.world.depth + ids.card ≤ bound := by
    refine fits ids (fun other member => ?_) few
    apply (past other member).of_put
    rintro rfl
    exact not_pastAt_put outside (past other member)
  rw [Config.put_world]
  omega

theorem not_past_initial (activity : Activity) : ¬ (Phase.initial activity).PastCheck := by
  cases activity with
  | request cikMapping payload =>
    rcases RequestPhase.initial_cases (Routes.requestedIdentity cikMapping payload) with same | same <;>
      simp only [Phase.initial, Phase.PastCheck, same, reduceCtorEq, not_false_eq_true]
  | handling cikMapping now entry fields =>
    rcases HandlingPhase.initial_cases fields with same | same <;>
      simp only [Phase.initial, Phase.PastCheck, HandlingPhase.PastCheck, same, not_false_eq_true]

/-- The callers about to add in the code are those past the check in the outline. -/
theorem AtMostAdding.past (few : AtMostAdding k config)
    (views : Views settings uuid Measurable config view) {ids : Finset ℕ}
    (past : ∀ id ∈ ids, PastAt view id) : ids.card ≤ k := by
  apply few ids
  intro id member
  obtain ⟨agent, present, alive, past⟩ := past id member
  obtain ⟨process, found, follows⟩ := Refinement.behind views present
  exact ⟨process, found, aboutToAdd follows alive past⟩

theorem Fits.step (fits : Fits (settings.maxQueueDepth + k - 1) k view)
    (views : Views settings uuid Measurable config view) (few : AtMostAdding k config)
    (step : (outline settings uuid Measurable).Step view event view') :
    Fits (settings.maxQueueDepth + k - 1) k view' := by
  cases step with
  | start absent begins => exact fits.put (depth_start begins) fun _ => not_past_initial _
  | kill present alive =>
    apply fits.put le_rfl
    rintro ⟨⟩
  | @reply id agent call reply phase' world present alive moves served =>
    by_cases past : phase'.PastCheck
    · obtain ⟨free, rfl⟩ := moves.checked served past
      intro ids _ few
      rw [Config.put_world]
      omega
    · rcases depth_served served.1 with fewer | ⟨adds, more⟩
      · exact fits.put fewer fun _ => past
      · -- The caller counted before the XADD; the entry counts after it.
        intro ids inside small
        have fresh : id ∉ ids := fun member => not_pastAt_put (fun _ => past) (inside id member)
        have counted : ∀ other ∈ insert id ids, PastAt view other := by
          intro other member
          rcases Finset.mem_insert.mp member with rfl | there
          · exact ⟨agent, present, alive, moves.adds.mpr adds⟩
          · exact (inside other there).of_put fun same => fresh (same ▸ there)
        have before := fits (insert id ids) counted (few.past views counted)
        rw [Finset.card_insert_of_notMem fresh] at before
        rw [Config.put_world]
        omega

end Run

/-- With at most `k` enqueue calls past their depth check at a time, the stream never holds more than
`max_queue_depth + k - 1` entries. -/
theorem backlog_bounded {settings : Settings} {uuid : ℕ → TaskId} {k : ℕ} {world : World}
    {events : List ServiceEvent} {config : ServiceConfig}
    (initial : world.depth ≤ settings.maxQueueDepth + k - 1)
    (run : Path (Guarded (service settings uuid Measurable).Step fun config _ => AtMostAdding k config)
      (.idle world) events config) :
    config.world.depth ≤ settings.maxQueueDepth + k - 1 := by
  have idle : Fits (settings.maxQueueDepth + k - 1) k (.idle world) := by
    intro ids past few
    have nobody : ids = ∅ := by
      apply Finset.eq_empty_of_forall_notMem
      intro id member
      obtain ⟨agent, present, _⟩ := past id member
      exact Config.idle_absent present
    rw [nobody, Finset.card_empty]
    exact initial
  obtain ⟨view, views, fits⟩ := service_refines.invariant
    (fun _ _ _ _ views few step fits => Fits.step fits views few step) run idle
  rw [views.world]
  exact fits ∅ (fun id member => absurd member (Finset.notMem_empty id)) (Nat.zero_le k)

/-- Schedules in which every command takes effect. -/
def measurablePlayer (settings : Settings) (uuid : ℕ → TaskId) :
    Player (service settings uuid Measurable) Outside where
  begin? := Service.begin?
  answer outside call world := (world.reply outside call, world.after call)
  resumes := rfl
  begins := Service.begin?_start
  serves outside call world := ⟨.inl (World.reliable outside call world), by cases call <;> trivial⟩

/-- Both requests pass the check on an empty queue before either of them adds its entry. -/
def overcommitted : List (Move Activity Outside) :=
  [.start 0 (Sample.request (some 2023)), .start 1 (Sample.request (some 2024))] ++
    List.replicate 6 (.serve 0 default) ++ List.replicate 6 (.serve 1 default) ++
    [.serve 0 default, .serve 1 default]

/-- The bound is reached. -/
theorem backlog_bounded_overcommitted : ∃ events config,
    Path (Guarded (service (Sample.settings 1) Sample.uuid Measurable).Step fun config _ =>
      AtMostAdding 2 config) (.idle Sample.world) events config ∧
    config.world.depth ≤ 1 + 2 - 1 ∧ config.world.depth = 2 := by
  have plays : (measurablePlayer (Sample.settings 1) Sample.uuid).Plays
      (fun _ event => event.id < 2 ∧ True) (fun config => config.world.depth = 2)
      (.idle Sample.world) overcommitted := by
    decide +kernel
  have few (config : ServiceConfig) (event : ServiceEvent)
      (above : ∀ id, 2 ≤ id → config.process id = none) (_ : True) : AtMostAdding 2 config := by
    intro ids adding
    have below : ids ⊆ Finset.range 2 := by
      intro id member
      obtain ⟨process, present, _⟩ := adding id member
      rw [Finset.mem_range]
      by_contra beyond
      cases present.symm.trans (above id (Nat.le_of_not_lt beyond))
    exact (Finset.card_le_card below).trans (Finset.card_range 2).le
  obtain ⟨events, config, path, full, _⟩ := plays.path
  have run := System.bounded_run few path
  exact ⟨events, config, run, backlog_bounded (Nat.zero_le _) run, full⟩

end Quartr.Soundness
