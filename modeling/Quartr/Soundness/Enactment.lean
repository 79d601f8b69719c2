import Quartr.Soundness.Holdings
import Quartr.Soundness.Outstanding
import Quartr.Soundness.Renumbering
import Quartr.Model.Deployment

/-! # A deployment as a run of the service

`Enacted` relates what a deployment has stored and has under way to a configuration of `service`. The requests
are the processes with even numbers, the handlings have odd ones, and the stream of the configuration is the
history of the deployment's. What a loop does to its handlings, a reply, a new one, one that ends, is matched by
steps of the service.
-/

namespace Quartr.Soundness

open Quartr.Machine Quartr.Model

/-- The parts of a deployment that a configuration of the service enacts. -/
structure Scene where
  stream : RedisStream
  shared : World
  requests : ℕ → Option ServiceProcess
  running : String → List Handling

namespace Scene

/-- The world of the service. -/
def world (scene : Scene) (history : List Entry) : World := { scene.shared with stream := history }

def run (scene : Scene) (workerId : String) (running : List Handling) : Scene :=
  { scene with running := Function.update scene.running workerId running }

variable {scene : Scene} {workerId : String} {running : List Handling}

@[simp] theorem run_self : (scene.run workerId running).running workerId = running := Function.update_self ..

theorem run_of_ne {other : String} (differs : other ≠ workerId) :
    (scene.run workerId running).running other = scene.running other := Function.update_of_ne differs ..

theorem run_same (same : scene.running workerId = running) : scene.run workerId running = scene := by
  unfold run
  rw [← same, Function.update_eq_self]

theorem run_run (last : List Handling) : (scene.run workerId running).run workerId last = scene.run workerId last := by
  unfold run
  rw [Function.update_idem]

end Scene

/-- How a process of the service ends that runs a handling. -/
def handledOutcome (result : Except Err Unit × Unit) : Program calls Outcome := .done (.handled result.1)

/-- The process with this number does what the handling does. -/
def Represents (config : ServiceConfig) (history : List Entry) (handling : Handling) (id : ℕ) : Prop :=
  id % 2 = 1 ∧ ∃ index cikMapping now rest log own, handling.entry.id = index + 1 ∧
    config.process id =
      some ⟨.handling cikMapping now index handling.entry.fields, rest.bind handledOutcome, log, false⟩ ∧
      Renumbers (index + 1) index handling.rest rest ∧ history[index]? = some own ∧ own.status ≠ .waiting

structure Enacted (scene : Scene) (history : List Entry) (number : String → ℕ → ℕ) (config : ServiceConfig) :
    Prop where
  world : config.world = scene.world history
  recorded : HistoryOf history scene.stream
  even : ∀ id, id % 2 = 0 → config.process id = scene.requests id
  requests : ∀ id process, scene.requests id = some process →
    LeavesEntries process.control ∧ process.label.entry? = none ∧ id % 2 = 0
  running : ∀ workerId, ∀ handling ∈ scene.running workerId,
    Represents config history handling (number workerId handling.entry.id)
  apart : ∀ workerId workerId' handling handling', handling ∈ scene.running workerId →
    handling' ∈ scene.running workerId' →
      number workerId handling.entry.id = number workerId' handling'.entry.id →
        workerId = workerId' ∧ handling.entry.id = handling'.entry.id
  active : ∀ id process, id % 2 = 1 → config.process id = some process → process.Active →
    ∃ workerId, ∃ handling ∈ scene.running workerId, number workerId handling.entry.id = id
  supply : ∃ bound, ∀ id, bound ≤ id → id % 2 = 1 → config.process id = none

section Enactment

variable {settings : Settings} {uuid : ℕ → TaskId} {scene : Scene} {history history' : List Entry}
  {number : String → ℕ → ℕ} {config : ServiceConfig} {workerId : String} {touched : ℕ → Prop}

theorem Represents.put {handling : Handling} {id other : ℕ} {process : ServiceProcess} {world : World}
    (represents : Represents config history handling other) (differs : other ≠ id)
    (advances : Advances touched history history') :
    Represents (config.put id process world) history' handling other := by
  obtain ⟨odd, index, cikMapping, now, rest, log, own, numbered, found, renumbers, present, begun⟩ := represents
  obtain ⟨own', present', _, begun', _⟩ := advances index own present
  refine ⟨odd, index, cikMapping, now, rest, log, own', numbered, ?_, renumbers, present', begun' begun⟩
  rw [Config.put_of_ne differs]
  exact found

theorem Enacted.supply_put (enacted : Enacted scene history number config) (id : ℕ) (process : ServiceProcess)
    (world : World) : ∃ bound, ∀ other, bound ≤ other → other % 2 = 1 →
      (config.put id process world).process other = none := by
  obtain ⟨bound, free⟩ := enacted.supply
  refine ⟨max bound (id + 1), fun other beyond odd => ?_⟩
  rw [Config.put_of_ne (by omega)]
  exact free other (by omega) odd

/-- A request is begun, answered or given up. -/
theorem Enacted.put_request (enacted : Enacted scene history number config) {scene' : Scene} {id : ℕ}
    {process : ServiceProcess} (even : id % 2 = 0) (leaves : LeavesEntries process.control)
    (label : process.label.entry? = none) (advances : Advances touched history history')
    (recorded : HistoryOf history' scene'.stream)
    (requests : scene'.requests = Function.update scene.requests id (some process))
    (running : scene'.running = scene.running) :
    Enacted scene' history' number (config.put id process (scene'.world history')) := by
  have odd_ne {other : ℕ} (odd : other % 2 = 1) : other ≠ id := by
    rintro rfl
    omega
  refine ⟨rfl, recorded, ?_, ?_, ?_, ?_, ?_, enacted.supply_put ..⟩
  · intro other parity
    rw [requests]
    by_cases same : other = id
    · subst same
      rw [Config.put_self, Function.update_self]
    · rw [Config.put_of_ne same, Function.update_of_ne same]
      exact enacted.even other parity
  · intro other found present
    rw [requests] at present
    by_cases same : other = id
    · subst same
      rw [Function.update_self] at present
      cases present
      exact ⟨leaves, label, even⟩
    · rw [Function.update_of_ne same] at present
      exact enacted.requests other found present
  · intro workerId handling member
    rw [running] at member
    have represents := enacted.running workerId handling member
    exact represents.put (odd_ne represents.1) advances
  · rw [running]
    exact enacted.apart
  · intro other found odd present active
    rw [Config.put_of_ne (odd_ne odd)] at present
    rw [running]
    exact enacted.active other found odd present active

/-- The handlings besides one, which have other numbers. -/
theorem Enacted.others (enacted : Enacted scene history number config) {before after : List Handling}
    {handling found : Handling} (at_ : scene.running workerId = before ++ handling :: after)
    (distinct : ((scene.running workerId).map (fun handling => handling.entry.id)).Nodup) {other : String}
    (member : found ∈ (scene.run workerId (before ++ after)).running other) :
    found ∈ scene.running other ∧ number other found.entry.id ≠ number workerId handling.entry.id := by
  have here : handling ∈ scene.running workerId := by
    rw [at_]
    exact List.mem_append_right _ (List.mem_cons_self ..)
  by_cases same : other = workerId
  · subst same
    rw [Scene.run_self] at member
    have there : found ∈ scene.running other := by
      rw [at_]
      rcases List.mem_append.mp member with early | late
      · exact List.mem_append_left _ early
      · exact List.mem_append_right _ (List.mem_cons_of_mem _ late)
    refine ⟨there, fun equal => ?_⟩
    have ids := (enacted.apart other other found handling there here equal).2
    rw [at_, List.map_append, List.map_cons] at distinct
    obtain ⟨_, later, disjoint⟩ := List.nodup_append.mp distinct
    rcases List.mem_append.mp member with early | late
    · exact disjoint _ (List.mem_map_of_mem early) _ (List.mem_cons_self ..) ids
    · exact (List.nodup_cons.mp later).1 (ids ▸ List.mem_map_of_mem late)
  · rw [Scene.run_of_ne same] at member
    exact ⟨member, fun equal => same (enacted.apart other workerId found handling member here equal).1⟩

/-- A handling with another number is one of them. -/
theorem Scene.mem_others {before after : List Handling} {handling found : Handling}
    (at_ : scene.running workerId = before ++ handling :: after) {other : String} (member : found ∈ scene.running other)
    (differs : number other found.entry.id ≠ number workerId handling.entry.id) :
    found ∈ (scene.run workerId (before ++ after)).running other := by
  by_cases same : other = workerId
  · subst same
    rw [at_] at member
    rw [Scene.run_self]
    rcases List.mem_append.mp member with early | late
    · exact List.mem_append_left _ early
    · rcases List.mem_cons.mp late with rfl | late
      · exact absurd rfl differs
      · exact List.mem_append_right _ late
  · rw [Scene.run_of_ne same]
    exact member

/-- Under way are one handling of the worker and the others. -/
theorem Scene.mem_run_cons {before after : List Handling} {handling found : Handling} {other : String} :
    found ∈ (scene.run workerId (before ++ handling :: after)).running other ↔
      (other = workerId ∧ found = handling) ∨ found ∈ (scene.run workerId (before ++ after)).running other := by
  by_cases same : other = workerId
  · subst same
    simp only [Scene.run_self, List.mem_append, List.mem_cons, true_and]
    tauto
  · simp only [Scene.run_of_ne same, same, false_and, false_or]

/-- The rest of a handling has been replied to. -/
theorem Enacted.put_handling (enacted : Enacted scene history number config) {scene' : Scene}
    {before after : List Handling} {entry : StreamEntry} {started index : ℕ}
    {rest rest' : Program calls (Except Err Unit × Unit)} {resumed : Program calls (Except Err Unit × Unit)}
    {cikMapping : CikMapping} {now : String} {log : List (Σ call, calls.Reply call)} {own : Entry}
    (at_ : scene.running workerId = before ++ ⟨entry, started, rest⟩ :: after)
    (distinct : ((scene.running workerId).map (fun handling => handling.entry.id)).Nodup)
    (odd : number workerId entry.id % 2 = 1) (numbered : entry.id = index + 1)
    (renumbers : Renumbers (index + 1) index rest' resumed) (present : history'[index]? = some own)
    (begun : own.status ≠ .waiting) (advances : Advances touched history history')
    (recorded : HistoryOf history' scene'.stream) (requests : scene'.requests = scene.requests)
    (running : scene'.running = (scene.run workerId (before ++ ⟨entry, started, rest'⟩ :: after)).running) :
    Enacted scene' history' number (config.put (number workerId entry.id)
      ⟨.handling cikMapping now index entry.fields, resumed.bind handledOutcome, log, false⟩
      (scene'.world history')) := by
  have here : ⟨entry, started, rest⟩ ∈ scene.running workerId := by
    rw [at_]
    exact List.mem_append_right _ (List.mem_cons_self ..)
  -- Every handling is the one replied to or was there before.
  have cases_of {other : String} {handling : Handling} (member : handling ∈ scene'.running other) :
      (other = workerId ∧ handling = ⟨entry, started, rest'⟩) ∨
        (handling ∈ scene.running other ∧ number other handling.entry.id ≠ number workerId entry.id) := by
    rw [running] at member
    exact (Scene.mem_run_cons.mp member).imp id (enacted.others at_ distinct)
  -- The numbers in use are the same as before.
  have before_of {other : String} {handling : Handling} (member : handling ∈ scene'.running other) :
      ∃ old ∈ scene.running other, old.entry.id = handling.entry.id := by
    rcases cases_of member with ⟨rfl, rfl⟩ | ⟨old, _⟩
    · exact ⟨_, here, rfl⟩
    · exact ⟨handling, old, rfl⟩
  refine ⟨rfl, recorded, ?_, ?_, ?_, ?_, ?_, enacted.supply_put ..⟩
  · intro other parity
    rw [requests, Config.put_of_ne (by rintro rfl; omega)]
    exact enacted.even other parity
  · rw [requests]
    exact enacted.requests
  · intro other handling member
    rcases cases_of member with ⟨rfl, rfl⟩ | ⟨old, differs⟩
    · exact ⟨odd, index, cikMapping, now, resumed, log, own, numbered, Config.put_self, renumbers, present, begun⟩
    · exact (enacted.running other handling old).put differs advances
  · intro first second handling handling' member member' equal
    obtain ⟨old, there, same⟩ := before_of member
    obtain ⟨old', there', same'⟩ := before_of member'
    rw [← same, ← same'] at equal ⊢
    exact enacted.apart first second old old' there there' equal
  · intro id process parity found active
    rcases Config.put_cases found with ⟨rfl, _⟩ | ⟨differs, found⟩
    · exact ⟨workerId, ⟨entry, started, rest'⟩, running ▸ Scene.mem_run_cons.mpr (.inl ⟨rfl, rfl⟩), rfl⟩
    · obtain ⟨other, handling, member, same⟩ := enacted.active id process parity found active
      have apart : number other handling.entry.id ≠ number workerId entry.id := by rwa [same]
      exact ⟨other, handling, running ▸ Scene.mem_run_cons.mpr (.inr (Scene.mem_others at_ member apart)), same⟩

/-- A handling whose process is over is no longer under way. -/
theorem Enacted.remove (enacted : Enacted scene history number config) {config' : ServiceConfig}
    {before after : List Handling} {handling : Handling}
    (at_ : scene.running workerId = before ++ handling :: after)
    (distinct : ((scene.running workerId).map (fun handling => handling.entry.id)).Nodup)
    (world : config'.world = config.world)
    (others : ∀ id, id ≠ number workerId handling.entry.id → config'.process id = config.process id)
    (ended : config'.InactiveAt (number workerId handling.entry.id))
    (odd : number workerId handling.entry.id % 2 = 1)
    (used : config.process (number workerId handling.entry.id) ≠ none) :
    Enacted (scene.run workerId (before ++ after)) history number config' := by
  refine ⟨world.trans enacted.world, enacted.recorded, ?_, enacted.requests, ?_, ?_, ?_, ?_⟩
  · intro other parity
    rw [others other (by rintro rfl; omega)]
    exact enacted.even other parity
  · intro other found member
    obtain ⟨there, differs⟩ := enacted.others at_ distinct member
    obtain ⟨parity, index, cikMapping, now, rest, log, own, numbered, present, rest'⟩ :=
      enacted.running other found there
    exact ⟨parity, index, cikMapping, now, rest, log, own, numbered, (others _ differs).trans present, rest'⟩
  · intro first second found found' member member' equal
    obtain ⟨there, _⟩ := enacted.others at_ distinct member
    obtain ⟨there', _⟩ := enacted.others at_ distinct member'
    exact enacted.apart first second found found' there there' equal
  · intro id process parity present active
    by_cases same : id = number workerId handling.entry.id
    · subst same
      exact absurd active (ended process present)
    · rw [others id same] at present
      obtain ⟨other, found, member, numbered⟩ := enacted.active id process parity present active
      have apart : number other found.entry.id ≠ number workerId handling.entry.id := by rwa [numbered]
      exact ⟨other, found, Scene.mem_others at_ member apart, numbered⟩
  · obtain ⟨bound, free⟩ := enacted.supply
    refine ⟨bound, fun id beyond parity => ?_⟩
    by_cases same : id = number workerId handling.entry.id
    · exact absurd (same ▸ free id beyond parity) used
    · exact (others id same).trans (free id beyond parity)

/-- A handling ends with its worker or its batch: its process is killed, unless it is over. -/
theorem Enacted.drop (enacted : Enacted scene history number config) {before after : List Handling}
    {handling : Handling} (at_ : scene.running workerId = before ++ handling :: after)
    (distinct : ((scene.running workerId).map (fun handling => handling.entry.id)).Nodup) :
    ∃ events config', Path (Guarded (service settings uuid Faulty).Step NoSharing) config events config' ∧
      Enacted (scene.run workerId (before ++ after)) history number config' := by
  have here : handling ∈ scene.running workerId := by
    rw [at_]
    exact List.mem_append_right _ (List.mem_cons_self ..)
  obtain ⟨odd, index, cikMapping, now, rest, log, own, _, present, _⟩ := enacted.running workerId handling here
  have used : config.process (number workerId handling.entry.id) ≠ none := by
    rw [present]
    exact Option.some_ne_none _
  by_cases ended : config.InactiveAt (number workerId handling.entry.id)
  · exact ⟨[], config, .nil config, enacted.remove at_ distinct rfl (fun _ _ => rfl) ended odd used⟩
  · have step : Guarded (service settings uuid Faulty).Step NoSharing config
        (.kill (number workerId handling.entry.id)) _ := ⟨trivial, .kill present rfl⟩
    refine ⟨_, _, .cons step (.nil _), ?_⟩
    refine enacted.remove at_ distinct Config.put_world (fun _ differs => Config.put_of_ne differs) ?_ odd used
    intro process found
    cases Option.some.inj (Config.put_self.symm.trans found)
    rintro ⟨alive, _⟩
    cases alive

/-- Some of the handlings of a worker end. -/
theorem Enacted.drop_all (enacted : Enacted scene history number config) {before current kept : List Handling}
    (fewer : kept.Sublist current) (at_ : scene.running workerId = before ++ current)
    (distinct : ((scene.running workerId).map (fun handling => handling.entry.id)).Nodup) :
    ∃ events config', Path (Guarded (service settings uuid Faulty).Step NoSharing) config events config' ∧
      Enacted (scene.run workerId (before ++ kept)) history number config' := by
  induction fewer generalizing before scene config with
  | slnil => exact ⟨[], config, .nil config, by rw [Scene.run_same at_]; exact enacted⟩
  | @cons kept rest handling _ ih =>
    obtain ⟨events, mid, path, enacted'⟩ := enacted.drop at_ distinct
    have fewer : ((before ++ rest).map fun handling => handling.entry.id).Nodup := by
      rw [at_] at distinct
      exact distinct.sublist (((List.Sublist.refl before).append (List.sublist_cons_self handling rest)).map _)
    obtain ⟨events', config', path', final⟩ := ih enacted' Scene.run_self (by rw [Scene.run_self]; exact fewer)
    rw [Scene.run_run] at final
    exact ⟨events ++ events', config', path.append path', final⟩
  | @cons_cons kept rest handling _ ih =>
    have shifted : scene.running workerId = (before ++ [handling]) ++ rest := by
      rw [at_, List.append_assoc]
      rfl
    obtain ⟨events, config', path, final⟩ := ih enacted shifted distinct
    rw [List.append_assoc] at final
    exact ⟨events, config', path, final⟩

/-- What a handling may begin with. -/
structure Startable (scene : Scene) (history : List Entry) (entry : StreamEntry) (index : ℕ) (own : Entry) :
    Prop where
  numbered : entry.id = index + 1
  present : history[index]? = some own
  fields : own.fields = entry.fields
  unacked : own.status ≠ .acked
  here : own.deleted = false
  delivered : entry.id ≤ scene.stream.lastDelivered
  vacant : ∀ workerId, ∀ handling ∈ scene.running workerId, handling.entry.id ≠ entry.id

/-- A handling begins. -/
theorem Enacted.begin (enacted : Enacted scene history number config) {entry : StreamEntry} {index : ℕ} {own : Entry}
    (startable : Startable scene history entry index own) (workerId : String)
    (cikMapping : CikMapping) (now : String) (began : ℕ) :
    ∃ event config' number', Guarded (service settings uuid Faulty).Step NoSharing config event config' ∧
      Enacted (scene.run workerId (scene.running workerId ++ [.begin ⟨settings, cikMapping, now⟩ began entry]))
        (history.modify index Entry.deliver) number' config' := by
  obtain ⟨bound, free⟩ := enacted.supply
  let id := 2 * bound + 1
  have absent : config.process id = none := free id (by omega) (by omega)
  let number' := Function.update number workerId (Function.update (number workerId) entry.id id)
  have own_number : number' workerId entry.id = id := by
    simp only [number', Function.update_self]
  have unused (other : String) (handling : Handling) (member : handling ∈ scene.running other) :
      number' other handling.entry.id = number other handling.entry.id := by
    by_cases same : other = workerId
    · subst same
      simp only [number', Function.update_self]
      exact Function.update_of_ne (startable.vacant other handling member) ..
    · simp only [number', Function.update_of_ne same]
  have taken (other : String) (handling : Handling) (member : handling ∈ scene.running other) :
      number other handling.entry.id ≠ id := by
    intro same
    obtain ⟨_, _, _, _, _, _, _, _, present, _⟩ := enacted.running other handling member
    rw [same, absent] at present
    cases present
  have cases_of {other : String} {handling : Handling}
      (member : handling ∈ (scene.run workerId (scene.running workerId ++
        [.begin ⟨settings, cikMapping, now⟩ began entry])).running other) :
      (other = workerId ∧ handling = .begin ⟨settings, cikMapping, now⟩ began entry) ∨
        handling ∈ scene.running other := by
    by_cases same : other = workerId
    · subst same
      rw [Scene.run_self] at member
      rcases List.mem_append.mp member with old | new
      · exact .inr old
      · exact .inl ⟨rfl, List.mem_singleton.mp new⟩
    · rw [Scene.run_of_ne same] at member
      exact .inr member
  have begins : Service.start config.world (.handling cikMapping now index entry.fields)
      { config.world with stream := config.world.stream.modify index Entry.deliver } := by
    refine ⟨⟨own, ?_, startable.fields, startable.unacked, startable.here⟩, rfl⟩
    rw [enacted.world]
    exact startable.present
  have sole : NoSharing config (.start id (.handling cikMapping now index entry.fields)) := by
    intro other process present active same
    by_cases parity : other % 2 = 0
    · rw [enacted.even other parity] at present
      rw [(enacted.requests other process present).2.1] at same
      cases same
    · obtain ⟨first, handling, member, numbered⟩ := enacted.active other process (by omega) present active
      obtain ⟨_, position, _, _, _, _, _, mine, found, _⟩ := enacted.running first handling member
      rw [numbered, present] at found
      cases found
      cases same
      exact startable.vacant first handling member (mine.trans startable.numbered.symm)
  refine ⟨_, _, number', ⟨sole, .start absent begins⟩, ?_⟩
  have advances : Advances (fun _ => False) history (history.modify index Entry.deliver) := advances_deliver index
  refine ⟨?_, ?_, ?_, enacted.requests, ?_, ?_, ?_, enacted.supply_put ..⟩
  · rw [Config.put_world, enacted.world]
    rfl
  · exact enacted.recorded.deliver (startable.numbered ▸ startable.delivered)
  · intro other parity
    rw [Config.put_of_ne (by omega)]
    exact enacted.even other parity
  · intro other handling member
    rcases cases_of member with ⟨rfl, rfl⟩ | old
    · show Represents _ _ _ (number' other entry.id)
      rw [own_number]
      refine ⟨by omega, index, cikMapping, now, _, [], own.deliver, startable.numbered, Config.put_self, ?_, ?_,
        deliver_begun own⟩
      · show Renumbers _ _ (Worker.handleMessage _ entry.id entry.fields ()) _
        rw [startable.numbered]
        exact handleMessage_renumbers _ entry.fields
      · rw [List.getElem?_modify_eq, startable.present]
        rfl
    · rw [unused other handling old]
      exact (enacted.running other handling old).put (taken other handling old) advances
  · intro first second handling handling' member member' equal
    rcases cases_of member with ⟨rfl, rfl⟩ | old
    · rcases cases_of member' with ⟨rfl, rfl⟩ | old'
      · exact ⟨rfl, rfl⟩
      · rw [unused second handling' old'] at equal
        exact absurd (equal.symm.trans own_number) (taken second handling' old')
    · rcases cases_of member' with ⟨rfl, rfl⟩ | old'
      · rw [unused first handling old] at equal
        exact absurd (equal.trans own_number) (taken first handling old)
      · rw [unused first handling old, unused second handling' old'] at equal
        exact enacted.apart first second handling handling' old old' equal
  · intro other process parity present active
    have mine : .begin ⟨settings, cikMapping, now⟩ began entry ∈ (scene.run workerId (scene.running workerId ++
        [.begin ⟨settings, cikMapping, now⟩ began entry])).running workerId := by
      rw [Scene.run_self]
      exact List.mem_append_right _ (List.mem_singleton_self _)
    rcases Config.put_cases present with ⟨rfl, _⟩ | ⟨differs, present⟩
    · exact ⟨workerId, _, mine, own_number⟩
    · obtain ⟨first, handling, member, numbered⟩ := enacted.active other process parity present active
      refine ⟨first, handling, ?_, (unused first handling member).trans numbered⟩
      by_cases same : first = workerId
      · subst same
        rw [Scene.run_self]
        exact List.mem_append_left _ member
      · rw [Scene.run_of_ne same]
        exact member

end Enactment

end Quartr.Soundness
