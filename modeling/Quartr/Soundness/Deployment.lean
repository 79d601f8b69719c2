import Quartr.Soundness.Enactment

/-! # The deployment refines the service

Whatever the workers and the requests of a deployment do, a run of `service` does it too, as long as every handling
is over within the claim timeout of the moment its worker was handed the entry. The handlings of that run begin
where the loops begin them; the timeout is what makes the entry one that has not been acknowledged.
-/

namespace Quartr.Soundness

open Quartr.Machine Quartr.Model

/-- What of a deployment is enacted. -/
def scene (deployment : Deployment) : Scene :=
  ⟨deployment.fleet.broker.stream, deployment.shared, deployment.requests, deployment.fleet.running⟩

section Calls

variable {deployment deployment' : Deployment} {history : List Entry} {call : Call} {reply : calls.Reply call}
  {index : ℕ} {own : Entry} {workerId : String}

theorem scene_putStage (deployment : Deployment) (workerId : String) (stage : Stage) :
    scene (deployment.putStage workerId (some stage)) = (scene deployment).run workerId stage.running := by
  unfold scene Scene.run
  congr 1
  funext other
  by_cases same : other = workerId
  · subst same
    rw [Function.update_self]
    exact Fleet.running_some Fleet.put_self
  · rw [Function.update_of_ne same]
    show (deployment.fleet.put workerId (some stage)).running other = _
    unfold Fleet.running
    rw [Fleet.put_of_ne same]

theorem scene_stop (deployment : Deployment) (workerId : String) :
    scene (deployment.putStage workerId none) = (scene deployment).run workerId [] := by
  unfold scene Scene.run
  congr 1
  funext other
  by_cases same : other = workerId
  · subst same
    rw [Function.update_self]
    exact Fleet.running_none Fleet.put_self
  · rw [Function.update_of_ne same]
    show (deployment.fleet.put workerId none).running other = _
    unfold Fleet.running
    rw [Fleet.put_of_ne same]

/-- A call of a request or a handling hands nothing out and leaves everybody where he is. -/
theorem serves_frame (served : deployment.Serves call reply deployment') :
    deployment'.requests = deployment.requests ∧ deployment'.fleet.stage = deployment.fleet.stage ∧
      deployment'.fleet.handed = deployment.fleet.handed ∧
      deployment'.fleet.broker.now = deployment.fleet.broker.now := by
  have same : (deployment.after call).requests = deployment.requests ∧
      (deployment.after call).fleet.stage = deployment.fleet.stage ∧
      (deployment.after call).fleet.handed = deployment.fleet.handed ∧
      (deployment.after call).fleet.broker.now = deployment.fleet.broker.now := by
    cases call <;> exact ⟨rfl, rfl, rfl, rfl⟩
  rcases served with ⟨_, rfl⟩ | ⟨error, _, _, rfl | rfl⟩
  · exact same
  · exact ⟨rfl, rfl, rfl, rfl⟩
  · exact same

theorem serves_undergoes (served : deployment.Serves call reply deployment') :
    deployment.fleet.Undergoes call deployment'.fleet := by
  have undergone : deployment.fleet.Undergoes call (deployment.after call).fleet := by
    unfold Deployment.after
    cases sent : call.command? with
    | none => exact .nothing
    | some command => exact .command sent
  rcases served with ⟨_, rfl⟩ | ⟨error, _, _, rfl | rfl⟩
  · exact undergone
  · exact .nothing
  · exact undergone

/-- What the service makes of a call on the deployment. -/
def Matched (deployment deployment' : Deployment) (history : List Entry) (touched : ℕ → Prop) (call : Call)
    (reply : calls.Reply call) : Prop :=
  ∃ history', Faulty call ((scene deployment).world history) reply ((scene deployment').world history') ∧
    HistoryOf history' deployment'.fleet.broker.stream ∧ Advances touched history history'

/-- A call that concerns no entry. -/
theorem serves_matched (served : deployment.Serves call reply deployment')
    (free : call.removed? = none) (recorded : HistoryOf history deployment.fleet.broker.stream)
    (ordered : Ordered deployment.fleet.broker.stream) (touched : ℕ → Prop) :
    Matched deployment deployment' history touched call reply := by
  have replies (outside : Outside) : deployment.reply outside call =
      ((scene deployment).world history).reply outside call := by
    cases call with
    | xlen => exact congrArg Except.ok recorded.depth.symm
    | _ => rfl
  have effect : (scene (deployment.after call)).world (((scene deployment).world history).after call).stream =
      ((scene deployment).world history).after call := by
    cases call <;> rfl
  have kept : HistoryOf (((scene deployment).world history).after call).stream
      (deployment.after call).fleet.broker.stream := by
    cases call with
    | xadd taskId => exact recorded.add ordered [("task_id", taskId)]
    | xack | xdel => cases free
    | _ => exact recorded
  have advances : Advances touched history (((scene deployment).world history).after call).stream := by
    cases call with
    | xadd taskId => exact advances_append [Entry.new taskId]
    | xack | xdel => cases free
    | _ => exact advances_refl
  rcases served with ⟨⟨outside, rfl⟩, rfl⟩ | ⟨error, fault, rfl, rfl | rfl⟩
  · refine ⟨_, .inl ⟨⟨outside, replies outside⟩, effect⟩, kept, advances⟩
  · exact ⟨history, .inr ⟨error, fault, rfl, .inl rfl⟩, recorded, advances_refl⟩
  · exact ⟨_, .inr ⟨error, fault, rfl, .inr effect⟩, kept, advances⟩

/-- XACK of the entry of a handling under way. -/
theorem serves_matched_ack {reply : calls.Reply (.xack (index + 1))}
    (served : deployment.Serves (.xack (index + 1)) reply deployment')
    (recorded : HistoryOf history deployment.fleet.broker.stream) (present : history[index]? = some own)
    (begun : own.status ≠ .waiting) :
    Matched deployment deployment' history (· = index) (.xack index) reply := by
  have kept : HistoryOf (history.modify index Entry.ack)
      (deployment.after (.xack (index + 1))).fleet.broker.stream := recorded.ack present begun
  rcases served with ⟨⟨outside, rfl⟩, rfl⟩ | ⟨error, fault, rfl, rfl | rfl⟩
  · exact ⟨_, .inl ⟨⟨outside, rfl⟩, rfl⟩, kept, advances_ack index⟩
  · exact ⟨history, .inr ⟨error, fault, rfl, .inl rfl⟩, recorded, advances_refl⟩
  · exact ⟨_, .inr ⟨error, fault, rfl, .inr rfl⟩, kept, advances_ack index⟩

theorem serves_matched_remove {reply : calls.Reply (.xdel (index + 1))}
    (served : deployment.Serves (.xdel (index + 1)) reply deployment')
    (recorded : HistoryOf history deployment.fleet.broker.stream) :
    Matched deployment deployment' history (· = index) (.xdel index) reply := by
  have kept : HistoryOf (history.modify index Entry.delete)
      (deployment.after (.xdel (index + 1))).fleet.broker.stream := recorded.delete index
  rcases served with ⟨⟨outside, rfl⟩, rfl⟩ | ⟨error, fault, rfl, rfl | rfl⟩
  · exact ⟨_, .inl ⟨⟨outside, rfl⟩, rfl⟩, kept, advances_delete index⟩
  · exact ⟨history, .inr ⟨error, fault, rfl, .inl rfl⟩, recorded, advances_refl⟩
  · exact ⟨_, .inr ⟨error, fault, rfl, .inr rfl⟩, kept, advances_delete index⟩

end Calls

/-! ### One step -/

section Steps

variable {settings : Settings} {uuid : ℕ → TaskId} {deployment deployment' : Deployment}
  {history : List Entry} {number : String → ℕ → ℕ} {config : ServiceConfig} {workerId : String} {timeout : ℕ}

/-- The reply to a call of a handling is a reply of the service. -/
theorem Enacted.resume_handling (enacted : Enacted (scene deployment) history number config)
    (ordered : Ordered deployment.fleet.broker.stream) {before after : List Handling} {entry : StreamEntry}
    {started : ℕ} {call : Call} {next : calls.Reply call → Program calls (Except Err Unit × Unit)}
    {reply : calls.Reply call}
    (at_ : deployment.fleet.running workerId = before ++ ⟨entry, started, .await call next⟩ :: after)
    (distinct : ((deployment.fleet.running workerId).map (fun handling => handling.entry.id)).Nodup)
    (served : deployment.Serves call reply deployment') :
    ∃ event config' history', Guarded (service settings uuid Faulty).Step NoSharing config event config' ∧
      Enacted ((scene deployment').run workerId (before ++ ⟨entry, started, next reply⟩ :: after)) history' number
        config' ∧ Advances (fun index => entry.id = index + 1) history history' := by
  obtain ⟨requests, stages, _⟩ := serves_frame served
  have here : ⟨entry, started, .await call next⟩ ∈ (scene deployment).running workerId := by
    show _ ∈ deployment.fleet.running workerId
    rw [at_]
    exact List.mem_append_right _ (List.mem_cons_self ..)
  have running : (scene deployment').running = (scene deployment).running := by
    funext other
    show deployment'.fleet.running other = deployment.fleet.running other
    unfold Fleet.running
    rw [stages]
  obtain ⟨odd, index, cikMapping, now, rest, log, own, numbered, present, renumbers, found, begun⟩ :=
    enacted.running workerId _ here
  have numbered : entry.id = index + 1 := numbered
  have finish {call' : Call} {reply' : calls.Reply call'} {next' : calls.Reply call' → Program calls _}
      {touched : ℕ → Prop} (suspended : rest = .await call' next')
      (matched : Matched deployment deployment' history touched call' reply')
      (rest' : Renumbers (index + 1) index (next reply) (next' reply'))
      (covered : ∀ other, touched other → entry.id = other + 1) :
      ∃ event config' history', Guarded (service settings uuid Faulty).Step NoSharing config event config' ∧
        Enacted ((scene deployment').run workerId (before ++ ⟨entry, started, next reply⟩ :: after)) history' number
          config' ∧ Advances (fun index => entry.id = index + 1) history history' := by
    subst suspended
    obtain ⟨history', faulty, recorded, advances⟩ := matched
    obtain ⟨own', found', _, begun', _⟩ := advances index own found
    have moves : Program.Resumes ((Program.await call' next').bind handledOutcome) call' reply'
        ((next' reply').bind handledOutcome) :=
      @Program.Resumes.reply calls Outcome call' (fun reply => (next' reply).bind handledOutcome) reply'
    have step : Guarded (service settings uuid Faulty).Step NoSharing config
        (.reply (number workerId entry.id) call' reply') _ :=
      ⟨trivial, .reply present rfl moves (enacted.world ▸ faulty)⟩
    refine ⟨_, _, history', step, ?_, advances.mono covered⟩
    exact enacted.put_handling at_ distinct odd numbered rest' found' (begun' begun) advances recorded requests
      (by unfold Scene.run; rw [running])
  cases renumbers with
  | call free rest' =>
    exact finish rfl (serves_matched served free enacted.recorded ordered fun _ => False) (rest' reply)
      fun _ touching => touching.elim
  | ack rest' =>
    refine finish rfl (serves_matched_ack served enacted.recorded found begun) (rest' reply) ?_
    rintro _ rfl
    exact numbered
  | remove rest' =>
    refine finish rfl (serves_matched_remove served enacted.recorded) (rest' reply) ?_
    rintro _ rfl
    exact numbered

/-- Entries in hand whose turn has come are begun, one after another. -/
theorem Enacted.begin_all {scene : Scene} {current : List Handling} {fleet : Fleet} {begun : List StreamEntry}
    (enacted : Enacted (scene.run workerId current) history number config) (cikMapping : CikMapping) (now : String)
    (began : ℕ) (each : ∀ entry ∈ begun, Entrusted timeout fleet history workerId entry)
    (early : ∀ entry ∈ begun, ∀ time, fleet.handed workerId entry.id = some time → fleet.broker.now < time + timeout)
    (delivered : ∀ entry ∈ begun, entry.id ≤ scene.stream.lastDelivered)
    (distinct : (current.map (fun handling => handling.entry.id) ++ begun.map StreamEntry.id).Nodup)
    (sole : ∀ other, other ≠ workerId → ∀ handling ∈ scene.running other, ∀ entry ∈ begun,
      handling.entry.id ≠ entry.id) :
    ∃ events config' history' number',
      Path (Guarded (service settings uuid Faulty).Step NoSharing) config events config' ∧
        Enacted (scene.run workerId (current ++ begun.map (.begin ⟨settings, cikMapping, now⟩ began))) history'
          number' config' ∧ Advances (fun _ => False) history history' := by
  induction begun generalizing current history number config with
  | nil =>
    rw [List.map_nil, List.append_nil]
    exact ⟨[], config, history, number, .nil config, enacted, advances_refl⟩
  | cons entry rest ih =>
    obtain ⟨handed, index, own, numbered, present, fields, kept⟩ := each entry (List.mem_cons_self ..)
    obtain ⟨time, found⟩ := Option.ne_none_iff_exists'.mp handed
    obtain ⟨unacked, here⟩ := kept time found (early entry (List.mem_cons_self ..) time found)
    have vacant : ∀ other, ∀ handling ∈ (scene.run workerId current).running other, handling.entry.id ≠ entry.id := by
      intro other handling member same
      by_cases own : other = workerId
      · subst own
        rw [Scene.run_self] at member
        rw [List.map_cons] at distinct
        exact (List.nodup_append.mp distinct).2.2 _ (List.mem_map_of_mem member) _ (List.mem_cons_self ..) same
      · rw [Scene.run_of_ne own] at member
        exact sole other own handling member entry (List.mem_cons_self ..) same
    have startable : Startable (scene.run workerId current) history entry index own :=
      ⟨numbered, present, fields, unacked, here, delivered entry (List.mem_cons_self ..), vacant⟩
    obtain ⟨event, mid, number', step, enacted'⟩ :=
      @Enacted.begin settings uuid _ _ _ _ enacted _ _ _ startable workerId cikMapping now began
    rw [Scene.run_run, Scene.run_self] at enacted'
    have later : ∀ other ∈ rest, Entrusted timeout fleet (history.modify index Entry.deliver) workerId other := by
      intro other member
      have advances : Advances (fun _ => False) history (history.modify index Entry.deliver) := advances_deliver index
      exact (each other (List.mem_cons_of_mem _ member)).later advances rfl le_rfl fun _ _ touching => touching.elim
    have joined : current ++ (entry :: rest).map (.begin ⟨settings, cikMapping, now⟩ began) =
        (current ++ [.begin ⟨settings, cikMapping, now⟩ began entry]) ++
          rest.map (.begin ⟨settings, cikMapping, now⟩ began) := by
      rw [List.append_assoc]
      rfl
    rw [joined]
    obtain ⟨events, config', history', number'', path, final, advances⟩ := ih enacted' later
      (fun other member => early other (List.mem_cons_of_mem _ member))
      (fun other member => delivered other (List.mem_cons_of_mem _ member))
      (by
        rw [List.map_append, List.append_assoc]
        exact distinct)
      (fun other differs handling member entry begun => sole other differs handling member entry
        (List.mem_cons_of_mem _ begun))
    exact ⟨event :: events, config', history', number'', .cons step path, final,
      (advances_deliver index).trans advances⟩

/-- A worker turns to its next stage: handlings it has done with end, and entries it has in hand are begun. -/
theorem Enacted.settle {current : List Handling} {haul : Haul} {stage : Stage} {cikMapping : CikMapping}
    {now : String} {began : ℕ} (enacted : Enacted ((scene deployment).run workerId current) history number config)
    (continues : Continues timeout workerId ⟨settings, cikMapping, now⟩ began current haul stage)
    (hand : Hand timeout deployment.fleet history workerId current haul) (leased : Leased timeout deployment.fleet)
    (timely : Timely timeout (deployment.putStage workerId (some stage)).fleet)
    (exclusive : Exclusive (deployment.putStage workerId (some stage)).fleet) :
    ∃ events config' history' number' haul',
      Path (Guarded (service settings uuid Faulty).Step NoSharing) config events config' ∧
        Enacted (scene (deployment.putStage workerId (some stage))) history' number' config' ∧
          Advances (fun _ => False) history history' ∧ Hauling timeout workerId haul' stage ∧
            Hand timeout deployment.fleet history' workerId stage.running haul' := by
  obtain ⟨kept, begun, waiting, listed, fewer, part, left, running, hauling⟩ := continues
  have distinct : (((scene deployment).run workerId current).running workerId |>.map
      fun handling => handling.entry.id).Nodup := by
    rw [Scene.run_self]
    exact (List.nodup_append.mp hand.distinct).1
  have at_ : ((scene deployment).run workerId current).running workerId = [] ++ current := Scene.run_self
  obtain ⟨events, mid, path, enacted⟩ := enacted.drop_all fewer at_ distinct
  rw [Scene.run_run, List.nil_append] at enacted
  have next := @Hand.continues _ _ _ _ _ _ hand ⟨settings, cikMapping, now⟩ began _ _ _ _ fewer part left
  have each (entry : StreamEntry) (member : entry ∈ begun) :
      Entrusted timeout deployment.fleet history workerId entry :=
    hand.entrusted entry (part.mem (List.mem_append_left _ member))
  have under (entry : StreamEntry) (member : entry ∈ begun) : .begin ⟨settings, cikMapping, now⟩ began entry ∈
      (deployment.putStage workerId (some stage)).fleet.running workerId := by
    have stands : (deployment.putStage workerId (some stage)).fleet.stage workerId = some stage := Fleet.put_self
    rw [Fleet.running_some stands, running]
    exact List.mem_append_right _ (List.mem_map_of_mem member)
  have early (entry : StreamEntry) (member : entry ∈ begun) (time : ℕ)
      (found : deployment.fleet.handed workerId entry.id = some time) :
      deployment.fleet.broker.now < time + timeout := timely workerId _ (under entry member) time found
  have delivered (entry : StreamEntry) (member : entry ∈ begun) :
      entry.id ≤ (scene deployment).stream.lastDelivered := by
    obtain ⟨time, found⟩ := Option.ne_none_iff_exists'.mp (each entry member).1
    exact (leased.past workerId entry.id time found).2
  have scenes : scene (deployment.putStage workerId (some stage)) =
      (scene deployment).run workerId (kept ++ begun.map (.begin ⟨settings, cikMapping, now⟩ began)) := by
    rw [scene_putStage, running]
  have apart : (kept.map (fun handling => handling.entry.id) ++ begun.map StreamEntry.id).Nodup := by
    have ids : (begun.map StreamEntry.id).Sublist (haul.brought.map StreamEntry.id ++ haul.listed) :=
      (((List.sublist_append_left begun waiting).trans part).map _).trans (List.sublist_append_left ..)
    exact hand.distinct.sublist ((fewer.map _).append ids)
  have sole : ∀ other, other ≠ workerId → ∀ handling ∈ (scene deployment).running other, ∀ entry ∈ begun,
      handling.entry.id ≠ entry.id := by
    intro other differs handling member entry begins
    have theirs : handling ∈ (deployment.putStage workerId (some stage)).fleet.running other := by
      show handling ∈ (scene (deployment.putStage workerId (some stage))).running other
      rw [scene_putStage, Scene.run_of_ne differs]
      exact member
    exact exclusive other workerId differs handling theirs _ (under entry begins)
  obtain ⟨events', config', history', number', path', final, advances⟩ := enacted.begin_all cikMapping now began each
    early delivered apart sole
  refine ⟨events ++ events', config', history', number', _, path.append path', scenes ▸ final, advances, hauling, ?_⟩
  rw [running]
  exact next.later advances (fun _ _ => rfl) le_rfl fun _ _ _ _ touching => touching.elim

end Steps

/-! ### The simulation -/

/-- The configuration of the service stands for the deployment. -/
structure Simulates (settings : Settings) (timeout : ℕ) (deployment : Deployment) (history : List Entry)
    (number : String → ℕ → ℕ) (config : ServiceConfig) : Prop where
  enacted : Enacted (scene deployment) history number config
  lease : LeaseInvariant (settings.queue timeout) deployment.fleet
  hands : ∀ workerId stage, deployment.fleet.stage workerId = some stage → ∃ haul,
    Hauling timeout workerId haul stage ∧ Hand timeout deployment.fleet history workerId stage.running haul

section Simulation

variable {settings : Settings} {uuid : ℕ → TaskId} {deployment deployment' : Deployment}
  {history : List Entry} {number : String → ℕ → ℕ} {config : ServiceConfig} {workerId : String} {timeout : ℕ}

/-- The service has a run from here to where the deployment is next. -/
def Reproduces (settings : Settings) (uuid : ℕ → TaskId) (timeout : ℕ) (config : ServiceConfig)
    (deployment : Deployment) : Prop :=
  ∃ events config' history number,
    Path (Guarded (service settings uuid Faulty).Step NoSharing) config events config' ∧
      Simulates settings timeout deployment history number config'

theorem Simulates.leased (simulates : Simulates settings timeout deployment history number config) :
    Leased timeout deployment.fleet := simulates.lease.leased

theorem Simulates.distinct (simulates : Simulates settings timeout deployment history number config)
    (workerId : String) :
    ((deployment.fleet.running workerId).map (fun handling => handling.entry.id)).Nodup := by
  cases at_ : deployment.fleet.stage workerId with
  | none =>
    rw [Fleet.running_none at_]
    exact List.nodup_nil
  | some stage =>
    obtain ⟨haul, _, hand⟩ := simulates.hands workerId stage at_
    rw [Fleet.running_some at_]
    exact (List.nodup_append.mp hand.distinct).1

theorem simulates_idle (shared : World) (empty : shared.stream = []) :
    Simulates settings timeout (.idle shared) [] (fun _ _ => 0) (.idle shared) where
  enacted := by
    refine ⟨?_, historyOf_empty, fun _ _ => rfl, (fun _ _ present => by cases present), ?_, ?_, ?_,
      ⟨0, fun _ _ _ => rfl⟩⟩
    · show shared = { shared with stream := [] }
      rw [← empty]
    · exact fun _ _ member => absurd member List.not_mem_nil
    · exact fun _ _ _ _ member => absurd member List.not_mem_nil
    · exact fun _ _ _ present => Config.idle_absent present
  lease := ⟨leased_idle _, fun _ _ present => by cases present⟩
  hands _ _ present := by cases present

/-- The commands of a sweep and of a read leave the history alone. -/
theorem HistoryOf.haul (recorded : HistoryOf history deployment.fleet.broker.stream)
    (leased : Leased timeout deployment.fleet) {haul haul' : Haul} {command : StreamCall}
    {reply : streamCalls.Reply command} {fleet' : Fleet} (step : HaulStep timeout workerId haul command reply haul')
    (served : deployment.fleet.Serves command reply fleet') : HistoryOf history fleet'.broker.stream := by
  have executed : HistoryOf history (deployment.fleet.execute command).broker.stream := by
    cases step with
    | look => exact recorded
    | claim skipped id => exact recorded.claim _ _ _ _
    | read count =>
      apply recorded.readGroup leased.ordered
      intro id member
      obtain ⟨item, pending, rfl⟩ := mem_pendingIds.mp member
      exact leased.begun item pending
  cases served with
  | raised => exact recorded
  | _ => exact executed

/-- They hand nothing to another worker. -/
theorem haul_frame {haul haul' : Haul} {command : StreamCall} {reply : streamCalls.Reply command} {fleet' : Fleet}
    (step : HaulStep timeout workerId haul command reply haul')
    (served : deployment.fleet.Serves command reply fleet') :
    fleet'.stage = deployment.fleet.stage ∧ fleet'.broker.now = deployment.fleet.broker.now ∧
      ∀ other, other ≠ workerId → fleet'.handed other = deployment.fleet.handed other := by
  have executed (other : String) (differs : other ≠ workerId) :
      (deployment.fleet.execute command).handed other = deployment.fleet.handed other := by
    funext id
    apply if_neg
    cases step with
    | look => exact List.not_mem_nil
    | claim | read =>
      rw [Broker.handsOut, if_neg differs]
      exact List.not_mem_nil
  cases served with
  | raised => exact ⟨rfl, rfl, fun _ _ => rfl⟩
  | _ => exact ⟨rfl, rfl, executed⟩

/-- A command of a sweep or of a read. -/
theorem Simulates.gather (simulates : Simulates settings timeout deployment history number config) {fleet' : Fleet}
    {haul haul' : Haul} {command : StreamCall} {reply : streamCalls.Reply command} {stage stage' : Stage}
    {cikMapping : CikMapping} {now : String} {began : ℕ} (at_ : deployment.fleet.stage workerId = some stage)
    (idle : stage.running = []) (hand : Hand timeout deployment.fleet history workerId [] haul)
    (step : HaulStep timeout workerId haul command reply haul')
    (served : deployment.fleet.Serves command reply fleet')
    (continues : Continues timeout workerId ⟨settings, cikMapping, now⟩ began [] haul' stage')
    (lease : LeaseInvariant (settings.queue timeout) (fleet'.put workerId (some stage')))
    (timely : Timely timeout (fleet'.put workerId (some stage'))) :
    Reproduces settings uuid timeout config ({ deployment with fleet := fleet' }.putStage workerId (some stage')) := by
  have leased : Leased timeout fleet' := by
    have kept := lease.leased
    exact ⟨kept.ordered, kept.past, kept.begun, kept.recent, kept.apart⟩
  obtain ⟨stages, same, others⟩ := haul_frame step served
  have enacted := simulates.enacted
  have running : fleet'.running = deployment.fleet.running := by
    funext other
    unfold Fleet.running
    rw [stages]
  have current : (scene { deployment with fleet := fleet' }).run workerId [] =
      scene { deployment with fleet := fleet' } := by
    apply Scene.run_same
    show fleet'.running workerId = []
    rw [running, Fleet.running_some at_, idle]
  have moved : Enacted (scene { deployment with fleet := fleet' }) history number config := by
    refine ⟨enacted.world, enacted.recorded.haul simulates.leased step served, enacted.even, enacted.requests, ?_, ?_,
      ?_, enacted.supply⟩
    · show ∀ other, ∀ handling ∈ fleet'.running other, _
      rw [running]
      exact enacted.running
    · show ∀ first second handling handling', handling ∈ fleet'.running first → handling' ∈ fleet'.running second → _
      rw [running]
      exact enacted.apart
    · show ∀ id process, _ → _ → _ → ∃ other, ∃ handling ∈ fleet'.running other, _
      rw [running]
      exact enacted.active
  have hand' := hand.step enacted.recorded simulates.leased.ordered step served
  obtain ⟨events, config', history', number', last, path, final, advances, hauling, held⟩ :=
    @Enacted.settle settings uuid { deployment with fleet := fleet' } _ _ _ _ _ _ _ _ _ _ _ (current ▸ moved)
      continues hand' leased timely (lease.exclusive timely)
  refine ⟨events, config', history', number', path, final, lease, ?_⟩
  intro other found present
  by_cases own : other = workerId
  · subst own
    obtain rfl : stage' = found := Option.some.inj (Fleet.put_self.symm.trans present)
    exact ⟨last, hauling, held.distinct, held.entrusted⟩
  · have before : deployment.fleet.stage other = some found := by
      have present : (fleet'.put workerId (some stage')).stage other = some found := present
      rw [Fleet.put_of_ne own, stages] at present
      exact present
    obtain ⟨theirs, hauling', kept⟩ := simulates.hands other found before
    refine ⟨theirs, hauling', kept.later advances (fun entry _ => ?_) same.ge fun _ _ _ _ touching => touching.elim⟩
    exact congrFun (others other own) entry.id

/-- A call of a handling. -/
theorem Simulates.handling (simulates : Simulates settings timeout deployment history number config)
    (early : Timely timeout deployment.fleet) {before after : List Handling} {entry : StreamEntry} {started : ℕ}
    {call : Call} {next : calls.Reply call → Program calls (Except Err Unit × Unit)} {reply : calls.Reply call}
    {waiting : List StreamEntry} {stage stage' : Stage} {cikMapping : CikMapping} {now : String} {began : ℕ}
    (at_ : deployment.fleet.stage workerId = some stage)
    (running : stage.running = before ++ ⟨entry, started, .await call next⟩ :: after)
    (hauling : ∀ haul, Hauling timeout workerId haul stage → haul = ⟨[], waiting⟩)
    (served : deployment.Serves call reply deployment')
    (continues : Continues timeout workerId ⟨settings, cikMapping, now⟩ began
      (before ++ ⟨entry, started, next reply⟩ :: after) ⟨[], waiting⟩ stage')
    (lease : LeaseInvariant (settings.queue timeout) (deployment'.putStage workerId (some stage')).fleet)
    (timely : Timely timeout (deployment'.putStage workerId (some stage')).fleet) :
    Reproduces settings uuid timeout config (deployment'.putStage workerId (some stage')) := by
  have leased : Leased timeout deployment'.fleet := by
    have kept := lease.leased
    exact ⟨kept.ordered, kept.past, kept.begun, kept.recent, kept.apart⟩
  obtain ⟨_, stages, handed, same⟩ := serves_frame served
  obtain ⟨haul, hauls, hand⟩ := simulates.hands workerId stage at_
  obtain rfl := hauling haul hauls
  rw [running] at hand
  have current : deployment.fleet.running workerId = before ++ ⟨entry, started, .await call next⟩ :: after :=
    (Fleet.running_some at_).trans running
  have acting : ⟨entry, started, .await call next⟩ ∈ deployment.fleet.running workerId := by
    rw [current]
    exact List.mem_append_right _ (List.mem_cons_self ..)
  obtain ⟨event, mid, history₁, step, enacted, touches⟩ := @Enacted.resume_handling settings uuid _ _ _ _ _ _
    simulates.enacted simulates.leased.ordered _ _ _ _ _ _ _ current (simulates.distinct workerId) served
  -- The one entry this call may acknowledge or remove is in nobody's hand whose time is not up.
  have mine : Hand timeout deployment'.fleet history₁ workerId
      (before ++ ⟨entry, started, next reply⟩ :: after) ⟨[], waiting⟩ := by
    have kept : Hand timeout deployment'.fleet history₁ workerId
        (before ++ ⟨entry, started, .await call next⟩ :: after) ⟨[], waiting⟩ := by
      apply hand.later touches (fun _ _ => by rw [handed]) same.ge
      intro found member index numbered touching
      have ids : found.id = entry.id := numbered.trans touching.symm
      have disjoint := (List.nodup_append.mp hand.distinct).2.2
      refine absurd ids.symm (disjoint entry.id ?_ found.id ?_)
      · simp
      · exact List.mem_append_left _ (List.mem_map_of_mem member)
    refine ⟨?_, kept.entrusted⟩
    have distinct := kept.distinct
    simp only [List.map_append, List.map_cons] at distinct ⊢
    exact distinct
  obtain ⟨events, config', history', number', last, path, final, advances, hauling', held⟩ :=
    enacted.settle continues mine leased timely (lease.exclusive timely)
  refine ⟨event :: events, config', history', number', .cons step path, final, lease, ?_⟩
  intro other found present
  by_cases own : other = workerId
  · subst own
    obtain rfl : stage' = found := Option.some.inj (Fleet.put_self.symm.trans present)
    exact ⟨last, hauling', held.distinct, held.entrusted⟩
  · have before : deployment.fleet.stage other = some found := by
      have present : (deployment'.fleet.put workerId (some stage')).stage other = some found := present
      rw [Fleet.put_of_ne own, stages] at present
      exact present
    obtain ⟨theirs, hauls', kept⟩ := simulates.hands other found before
    refine ⟨theirs, hauls', ?_⟩
    have untouched : Hand timeout deployment'.fleet history₁ other found.running theirs := by
      apply kept.later touches (fun _ _ => by rw [handed]) same.ge
      intro held member index numbered touching time given
      have ids : held.id = entry.id := numbered.trans touching.symm
      obtain ⟨time', given'⟩ := Option.ne_none_iff_exists'.mp (simulates.lease.running acting)
      exact lease_over simulates.leased own given (ids ▸ given') (early workerId _ acting time' given')
    have later : Hand timeout deployment'.fleet history' other found.running theirs :=
      untouched.later advances (fun _ _ => rfl) le_rfl fun _ _ _ _ touching => touching.elim
    exact ⟨later.distinct, later.entrusted⟩

/-- A call of a request. -/
theorem Simulates.answer (simulates : Simulates settings timeout deployment history number config) {id : ℕ}
    {process : ServiceProcess} {call : Call} {next : calls.Reply call → Program calls Outcome}
    {reply : calls.Reply call} (at_ : deployment.requests id = some process)
    (alive : process.killed = false) (suspended : process.control = .await call next)
    (served : deployment.Serves call reply deployment') :
    Reproduces settings uuid timeout config
      (deployment'.putRequest id (process.resume call reply (next reply))) := by
  obtain ⟨leaves, label, even⟩ := simulates.enacted.requests id process at_
  rw [suspended] at leaves
  obtain ⟨requests, stages, handed, same⟩ := serves_frame served
  obtain ⟨history', faulty, recorded, advances⟩ := serves_matched served (leaves reply).1 simulates.enacted.recorded
    simulates.leased.ordered fun _ => False
  have present : config.process id = some process := (simulates.enacted.even id even).trans at_
  have moves : Program.Resumes process.control call reply (next reply) := by
    rw [suspended]
    exact @Program.Resumes.reply calls Outcome call next reply
  have running : deployment'.fleet.running = deployment.fleet.running := by
    funext other
    unfold Fleet.running
    rw [stages]
  let resumed := process.resume call reply (next reply)
  have step : Guarded (service settings uuid Faulty).Step NoSharing config (.reply id call reply)
      (config.put id resumed ((scene (deployment'.putRequest id resumed)).world history')) :=
    ⟨trivial, .reply present alive moves (simulates.enacted.world ▸ faulty)⟩
  have answered : (scene (deployment'.putRequest id resumed)).requests =
      Function.update (scene deployment).requests id (some resumed) := by
    show Function.update deployment'.requests id _ = Function.update deployment.requests id _
    rw [requests]
  refine ⟨_, _, history', number, .cons step (.nil _), ?_, ?_, ?_⟩
  · exact simulates.enacted.put_request even (leaves reply).2 label advances recorded answered running
  · obtain ⟨leased, _, more⟩ := (serves_undergoes served).keeps simulates.lease.leased
    refine ⟨leased, fun other stage present => ?_⟩
    have present : deployment'.fleet.stage other = some stage := present
    rw [stages] at present
    exact (simulates.lease.holds other stage present).mono (more other)
  · intro other stage present
    have present : deployment'.fleet.stage other = some stage := present
    rw [stages] at present
    obtain ⟨haul, hauling, hand⟩ := simulates.hands other stage present
    have later : Hand timeout deployment'.fleet history' other stage.running haul :=
      hand.later advances (fun _ _ => by rw [handed]) same.ge fun _ _ _ _ touching => touching.elim
    exact ⟨haul, hauling, later.distinct, later.entrusted⟩

/-- What a deployment does next, a run of the service does. -/
theorem Simulates.step {concurrency : String → ℕ} {event : DeploymentEvent}
    (simulates : Simulates settings timeout deployment history number config)
    (early : Timely timeout deployment.fleet)
    (step : Deployment.Step settings timeout concurrency uuid deployment event deployment')
    (timely : Timely timeout deployment'.fleet) :
    Reproduces settings uuid timeout config deployment' := by
  have lease := simulates.lease
  have keeps {event : FleetEvent} {fleet' : Fleet}
      (moved : Fleet.Step (settings.queue timeout) concurrency deployment.fleet event fleet') :
      LeaseInvariant (settings.queue timeout) fleet' := lease.step moved
  cases step with
  | tick now later =>
    refine ⟨[], config, history, number, .nil config, simulates.enacted, keeps (.tick now later), ?_⟩
    · intro other stage present
      obtain ⟨haul, hauling, hand⟩ := simulates.hands other stage present
      have advances : Advances (fun _ => False) history history := advances_refl
      exact ⟨haul, hauling, hand.later advances (fun _ _ => rfl) later fun _ _ _ _ touching => touching.elim⟩
  | @request id cikMapping payload even absent =>
    have free : config.process id = none := (simulates.enacted.even id even).trans absent
    have begun : Guarded (service settings uuid Faulty).Step NoSharing config
        (.start id (.request cikMapping payload)) _ := ⟨trivial, .start free rfl⟩
    refine ⟨_, _, history, number, .cons begun (.nil _), ?_, lease, simulates.hands⟩
    rw [simulates.enacted.world]
    have advances : Advances (fun _ => False) history history := advances_refl
    exact simulates.enacted.put_request even (request_leavesEntries settings uuid id cikMapping payload) rfl advances
      simulates.enacted.recorded rfl rfl
  | answer at_ alive suspended served => exact simulates.answer at_ alive suspended served
  | @abort id process at_ alive =>
    obtain ⟨leaves, label, even⟩ := simulates.enacted.requests id process at_
    have present : config.process id = some process := (simulates.enacted.even id even).trans at_
    have killed : Guarded (service settings uuid Faulty).Step NoSharing config (.kill id) _ :=
      ⟨trivial, .kill present alive⟩
    refine ⟨_, _, history, number, .cons killed (.nil _), ?_, lease, simulates.hands⟩
    rw [simulates.enacted.world]
    have advances : Advances (fun _ => False) history history := advances_refl
    exact simulates.enacted.put_request even leaves label advances simulates.enacted.recorded rfl rfl
  | @start workerId absent =>
    refine ⟨[], config, history, number, .nil config, ?_, keeps (.start absent), ?_⟩
    · rw [scene_putStage, Scene.run_same (Fleet.running_none absent)]
      exact simulates.enacted
    · intro other stage present
      by_cases own : other = workerId
      · subst own
        obtain rfl := Option.some.inj (Fleet.put_self.symm.trans present)
        exact ⟨⟨[], []⟩, claimAbandoned_hauls (settings.queue timeout), List.nodup_nil,
          fun _ member => absurd member List.not_mem_nil⟩
      · have before : deployment.fleet.stage other = some stage := (Fleet.put_of_ne own).symm.trans present
        obtain ⟨haul, hauling, hand⟩ := simulates.hands other stage before
        exact ⟨haul, hauling, hand.distinct, hand.entrusted⟩
  | @sweep fleet' workerId command next reply cikMapping now at_ served =>
    obtain ⟨haul, hauling, hand⟩ := simulates.hands workerId _ at_
    obtain ⟨haul', moved, rest⟩ := hauling reply
    have lease' := keeps (.sweep ⟨settings, cikMapping, now⟩ at_ served)
    exact simulates.gather at_ rfl hand moved served (continues_swept rest) lease' timely
  | @read fleet' workerId command next reply cikMapping now at_ served =>
    obtain ⟨haul, hauling, hand⟩ := simulates.hands workerId _ at_
    obtain ⟨haul', moved, rest⟩ := hauling reply
    have lease' := keeps (.read ⟨settings, cikMapping, now⟩ at_ served)
    exact simulates.gather at_ rfl hand moved served (continues_received rest) lease' timely
  | @reclaim deployment' workerId entry started call next reply waiting cikMapping now at_ served =>
    have lease' : LeaseInvariant (settings.queue timeout) (deployment'.putStage workerId _).fleet :=
      keeps (@Fleet.Step.reclaim _ _ _ _ _ _ _ _ _ reply _ ⟨settings, cikMapping, now⟩ at_ (serves_undergoes served))
    exact @Simulates.handling settings uuid _ _ _ _ _ _ _ simulates early [] [] _ _ _ _ _ _ _ _ _ _ _ at_ rfl
      (fun _ same => same) served (continues_reclaimed _ _ _) lease' timely
  | @handle deployment' workerId before after entry started call next reply waiting cikMapping now at_ served =>
    have lease' : LeaseInvariant (settings.queue timeout) (deployment'.putStage workerId _).fleet :=
      keeps (@Fleet.Step.handle _ _ _ _ _ _ _ _ _ _ _ reply _ ⟨settings, cikMapping, now⟩ at_
        (serves_undergoes served))
    exact simulates.handling early at_ rfl (fun _ same => same) served (continues_handled _ _ _ _ _) lease' timely
  | @kill workerId =>
    obtain ⟨events, config', path, enacted⟩ := @Enacted.drop_all settings uuid _ _ _ _ _ simulates.enacted [] _ _
      (List.nil_sublist _) rfl (simulates.distinct workerId)
    refine ⟨events, config', history, number, path, ?_, keeps .kill, ?_⟩
    · rw [scene_stop]
      exact enacted
    · intro other stage present
      by_cases own : other = workerId
      · subst own
        cases Fleet.put_self.symm.trans present
      · have before : deployment.fleet.stage other = some stage := (Fleet.put_of_ne own).symm.trans present
        obtain ⟨haul, hauling, hand⟩ := simulates.hands other stage before
        exact ⟨haul, hauling, hand.distinct, hand.entrusted⟩

/-- A run of a deployment is a run of the service. -/
theorem Simulates.run {concurrency : String → ℕ} {events : List DeploymentEvent}
    (simulates : Simulates settings timeout deployment history number config)
    (run : Path (Guarded (Deployment.Step settings timeout concurrency uuid) fun deployment _ =>
      Timely timeout deployment.fleet) deployment events deployment') (last : Timely timeout deployment'.fleet) :
    Reproduces settings uuid timeout config deployment' := by
  obtain ⟨_, path⟩ := run.both_ends last
  have matched (before : Deployment) (event : DeploymentEvent) (after : Deployment) (config : ServiceConfig)
      (step : Timely timeout before.fleet ∧ Deployment.Step settings timeout concurrency uuid before event after ∧
        Timely timeout after.fleet)
      (related : ∃ history number, Simulates settings timeout before history number config) :
      ∃ events config', Path (Guarded (service settings uuid Faulty).Step NoSharing) config events config' ∧
        ∃ history number, Simulates settings timeout after history number config' := by
    obtain ⟨early, step, late⟩ := step
    obtain ⟨history, number, simulates⟩ := related
    obtain ⟨events, config', history', number', path, final⟩ := simulates.step early step late
    exact ⟨events, config', path, history', number', final⟩
  obtain ⟨events', config', path', history', number', final⟩ := path.simulates matched ⟨history, number, simulates⟩
  exact ⟨events', config', history', number', path', final⟩

end Simulation

end Quartr.Soundness
