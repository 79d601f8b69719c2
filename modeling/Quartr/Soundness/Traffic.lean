import Mathlib.Algebra.BigOperators.Group.Finset.Piecewise
import Mathlib.Algebra.Order.BigOperators.Group.Finset
import Quartr.Model.Sample
import Quartr.Soundness.TrafficPhases

/-! # Slots and requests

A process of the client spends each slot it was granted on one request. A refresh of the ticker list
asks for no slot, so the account balances exactly as long as no refresh is due.
-/

namespace Quartr.Soundness

open Quartr.Machine Quartr.Model

/-- A slot was granted. -/
def isSlot : SecEvent → Bool
  | .reply _ (.acquireSlot _ _ _) (.ok granted) => granted
  | _ => false

/-- A request left for SEC. -/
def isRequest : SecEvent → Bool
  | .reply _ (.send _ _) _ => true
  | _ => false

/-- How many events of one process satisfy a test. -/
def countOf (id : ℕ) (test : SecEvent → Bool) (events : List SecEvent) : ℕ :=
  events.countP fun event => event.id = id && test event

/-- Every request is preceded by a slot of its own, and at no moment are there more requests than
slots. -/
structure Metered (events : List SecEvent) : Prop where
  own : ∀ before event after, events = before ++ event :: after → isRequest event = true →
    countOf event.id isRequest before < countOf event.id isSlot before
  total : ∀ before after, events = before ++ after → before.countP isRequest ≤ before.countP isSlot

/-- The step does not find a listing stale. -/
def UpToDate (settings : SecSettings) (config : SecConfig) : SecEvent → Prop
  | .reply id .time (.ok now) => ∀ process, config.process id = some process →
      ∀ listing, process.label = .freshen listing → ¬ listing.stale settings now
  | _ => True

section Counting

variable {id : ℕ} {test test' : SecEvent → Bool} {events : List SecEvent} {event : SecEvent}

theorem countOf_append : countOf id test (events ++ [event]) =
    countOf id test events + if event.id = id ∧ test event = true then 1 else 0 := by
  simp [countOf, List.countP_append, List.countP_cons]

theorem countOf_other (differs : event.id ≠ id) : countOf id test (events ++ [event]) =
    countOf id test events := by
  simp [countOf_append, differs]

/-- The events are those of the processes they concern. -/
theorem countP_eq_sum (ids : Finset ℕ) (all : ∀ event ∈ events, event.id ∈ ids) :
    events.countP test = ∑ id ∈ ids, countOf id test events := by
  induction events with
  | nil => simp [countOf]
  | cons event events ih =>
    have here : (∑ id ∈ ids, if event.id = id ∧ test event = true then 1 else 0) =
        if test event = true then 1 else 0 := by
      simp only [ite_and, Finset.sum_ite_eq, all event List.mem_cons_self, ↓reduceIte]
    have each (id : ℕ) : countOf id test (event :: events) =
        countOf id test events + if event.id = id ∧ test event = true then 1 else 0 := by
      simp [countOf, List.countP_cons]
    simp only [each, Finset.sum_add_distrib, here, List.countP_cons,
      ih fun event member => all event (List.mem_cons_of_mem _ member)]

/-- What holds for each process holds for all of them together. -/
theorem countP_le (each : ∀ id, countOf id test events ≤ countOf id test' events) :
    events.countP test ≤ events.countP test' := by
  have all : ∀ event ∈ events, event.id ∈ (events.map Event.id).toFinset := by
    intro event member
    exact List.mem_toFinset.mpr (List.mem_map_of_mem member)
  rw [countP_eq_sum _ all, countP_eq_sum _ all]
  exact Finset.sum_le_sum fun id _ => each id

end Counting

/-! ### The account of a process -/

abbrev TrafficView := Config secCalls SecWorld SecActivity TrafficPhase

/-- The slots a process in a phase has not used yet. -/
def unused (phase : TrafficPhase) : ℕ := if phase = .paid then 1 else 0

/-- The slots a process has not used yet. -/
def credit (view : TrafficView) (id : ℕ) : ℕ := ((view.process id).map fun process => unused process.control).getD 0

/-- Each process has used its slots for its requests, but for one it may still hold. -/
structure Balanced (view : TrafficView) (events : List SecEvent) : Prop where
  account : ∀ id, countOf id isSlot events = countOf id isRequest events + credit view id
  waiting : ∀ id process, view.process id = some process → process.control ≠ .bypassing

section Balance

variable {settings : SecSettings} {activity : SecActivity} {phase phase' : TrafficPhase} {call : SecCall}
  {reply : secCalls.Reply call} {id : ℕ} {view view' : TrafficView} {events : List SecEvent}
  {event : SecEvent}

/-- A step of a process that does not refresh: a slot adds what a request takes. -/
theorem step_balance (id : ℕ) (step : TrafficStep settings activity phase call reply phase')
    (asking : phase ≠ .bypassing) (asking' : phase' ≠ .bypassing) :
    unused phase + (if isSlot (.reply id call reply) = true then 1 else 0) =
      unused phase' + if isRequest (.reply id call reply) = true then 1 else 0 := by
  cases step with
  | wait _ idle =>
    cases call with
    | slot => rfl
    | monotonic => rfl
    | sleep => rfl
    | receive url => rfl
    | acquireSlot slot windowMs limit => cases idle
    | time => cases idle
    | send url headers => cases idle
    | saveToDisk listing => cases idle
  | granted slot => rfl
  | refused slot reply nothing =>
    rcases reply with error | _ | _
    · rfl
    · rfl
    · exact absurd rfl nothing
  | send => rfl
  | fresh => rfl
  | stale => exact absurd rfl asking'
  | refresh => exact absurd rfl asking

/-- The step lemma: a step that finds no listing stale keeps the account. -/
theorem Balanced.step (balanced : Balanced view events)
    (step : (trafficOutline settings).Step view event view')
    (asking : ∀ id process, view'.process id = some process → process.control ≠ .bypassing) :
    Balanced view' (events ++ [event]) := by
  refine ⟨?_, asking⟩
  intro id
  by_cases here : event.id = id
  · have account := balanced.account id
    subst here
    rw [countOf_append, countOf_append]
    cases step with
    | start absent begins =>
      simp [credit, Event.id, absent, isSlot, isRequest] at account ⊢
      exact account
    | kill present alive =>
      simp [credit, Event.id, present, isSlot, isRequest] at account ⊢
      exact account
    | @reply id process call reply phase world present alive moves served =>
      have moved := step_balance id moves (balanced.waiting id process present)
        (asking id _ Config.put_self)
      simp [credit, Event.id, present, Process.resume] at account moved ⊢
      omega
  · rw [countOf_other here, countOf_other here, balanced.account id]
    have stays : credit view' id = credit view id := by
      rw [credit, step.frame (Ne.symm here), credit]
    rw [stays]

/-- Under the condition no process begins to refresh. -/
theorem waiting_step {config : SecConfig} (views : config.Views (trafficOutline settings)
      (fun _ _ _ _ => True) view) (upToDate : UpToDate settings config event)
    (waiting : ∀ id process, view.process id = some process → process.control ≠ .bypassing)
    (step : (trafficOutline settings).Step view event view') :
    ∀ id process, view'.process id = some process → process.control ≠ .bypassing := by
  intro id process present
  by_cases same : id = event.id
  case neg =>
    rw [step.frame same] at present
    exact waiting id process present
  subst same
  cases step with
  | start absent begins =>
    obtain rfl := Option.some.inj (Config.put_self.symm.trans present)
    simp [trafficOutline]
  | @kill id process' present' alive =>
    obtain rfl := Option.some.inj (Config.put_self.symm.trans present)
    exact waiting id process' present'
  | @reply id process' call reply phase world present' alive moves served =>
    obtain rfl := Option.some.inj (Config.put_self.symm.trans present)
    show phase ≠ .bypassing
    have asking := waiting id process' present'
    obtain ⟨code, found, follows⟩ := Refinement.behind views present'
    cases process' with
    | mk label control log killed =>
      cases moves with
      | stale listing is now old => exact absurd old (upToDate code found listing (follows.1.trans is))
      | refresh => exact absurd rfl asking
      | _ => simp

/-- A request is made with a slot in hand. -/
theorem request_credit (balanced : Balanced view events)
    (step : (trafficOutline settings).Step view event view') (request : isRequest event = true) :
    credit view event.id = 1 := by
  cases step with
  | start => cases request
  | kill => cases request
  | @reply id process call reply phase world present alive moves served =>
    have asking := balanced.waiting id process present
    simp only [credit, Event.id, present, Option.map_some, Option.getD_some]
    cases process with
    | mk label control log killed =>
      cases moves with
      | send => rfl
      | refresh => exact absurd rfl asking
      | wait _ idle =>
        cases call with
        | send url headers => cases idle
        | _ => cases request
      | _ => cases request

theorem Balanced.total (balanced : Balanced view events) :
    events.countP isRequest ≤ events.countP isSlot := by
  apply countP_le
  intro id
  have account := balanced.account id
  omega

/-- What was metered before a step is metered after it. -/
theorem Metered.step (metered : Metered events) (balanced : Balanced view events)
    (step : (trafficOutline settings).Step view event view') (balanced' : Balanced view' (events ++ [event])) :
    Metered (events ++ [event]) := by
  constructor
  · intro before event' after same request
    rcases List.eq_nil_or_concat after with rfl | ⟨after', last, rfl⟩
    · obtain ⟨rfl, latest⟩ := List.append_inj' same rfl
      obtain rfl := List.head_eq_of_cons_eq latest
      have account := balanced.account event.id
      have credited := request_credit balanced step request
      omega
    · have same : events ++ [event] = (before ++ event' :: after') ++ [last] := by
        rw [same]
        simp
      obtain ⟨rfl, _⟩ := List.append_inj' same rfl
      exact metered.own before event' after' rfl request
  · intro before after same
    rcases List.eq_nil_or_concat after with rfl | ⟨after', last, rfl⟩
    · rw [List.append_nil] at same
      rw [← same]
      exact balanced'.total
    · have same : events ++ [event] = (before ++ after') ++ [last] := by
        rw [same]
        simp
      obtain ⟨rfl, _⟩ := List.append_inj' same rfl
      exact metered.total before after' rfl

end Balance

/-- What a run keeps: seen through the phases, every account balances. -/
def Accounted (settings : SecSettings) (events : List SecEvent) (config : SecConfig) : Prop :=
  ∃ view : TrafficView, config.Views (trafficOutline settings) (fun _ _ _ _ => True) view ∧
    Balanced view events ∧ Metered events

theorem accounted_idle (settings : SecSettings) (world : SecWorld) : Accounted settings [] (.idle world) := by
  refine ⟨.idle world, Refinement.views_idle world, ⟨?_, ?_⟩, ⟨?_, ?_⟩⟩
  · intro id
    rfl
  · intro id process present
    exact Config.idle_absent present
  · intro before event after same
    cases before <;> cases same
  · intro before after same
    rw [(List.append_eq_nil_iff.mp same.symm).1]
    exact Nat.le_refl _

/-- In a run in which no refresh is due, every request to SEC has a slot of its own. -/
theorem traffic_metered (settings : SecSettings) (world : SecWorld) (events : List SecEvent)
    (config : SecConfig)
    (run : Path (Guarded (secTraffic settings).Step (UpToDate settings)) (.idle world) events config) :
    Metered events := by
  have accounted : Accounted settings events config := by
    apply run.history_invariant _ (accounted_idle settings world)
    rintro past config event config' ⟨upToDate, step⟩ ⟨view, views, balanced, metered⟩
    obtain ⟨view', step', views'⟩ := (traffic_refines settings).simulate views step
    have balanced' := balanced.step step' (waiting_step views upToDate balanced.waiting step')
    exact ⟨view', views', balanced', metered.step balanced step' balanced'⟩
  obtain ⟨view, views, balanced, metered⟩ := accounted
  exact metered

instance (settings : SecSettings) (config : SecConfig) (event : SecEvent) :
    Decidable (UpToDate settings config event) :=
  match event with
  | .reply id .time (.ok now) =>
    match present : config.process id with
    | none => isTrue fun process found => by cases present.symm.trans found
    | some process =>
      match is : process.label with
      | .freshen listing => decidable_of_iff (¬ listing.stale settings now)
          ⟨fun current process' found listing' is' => by
            cases present.symm.trans found
            cases is.symm.trans is'
            exact current, fun upToDate => upToDate process present listing is⟩
      | .submissions _ _ _ => isTrue fun process' found listing is' => by
          cases present.symm.trans found
          cases is.symm.trans is'
      | .document _ _ => isTrue fun process' found listing is' => by
          cases present.symm.trans found
          cases is.symm.trans is'
      | .elapse _ => isTrue fun process' found listing is' => by
          cases present.symm.trans found
          cases is.symm.trans is'
  | .reply _ .time (.error _) => isTrue trivial
  | .reply _ (.acquireSlot _ _ _) _ => isTrue trivial
  | .reply _ .slot _ => isTrue trivial
  | .reply _ .monotonic _ => isTrue trivial
  | .reply _ .sleep _ => isTrue trivial
  | .reply _ (.send _ _) _ => isTrue trivial
  | .reply _ (.receive _) _ => isTrue trivial
  | .reply _ (.saveToDisk _) _ => isTrue trivial
  | .start _ _ => isTrue trivial
  | .kill _ => isTrue trivial

/-- A fetch of the submissions, next to a listing that was refreshed a moment ago. -/
theorem traffic_metered_fetch : ∃ events config,
    Path (Guarded (secTraffic Sample.secSettings).Step (UpToDate Sample.secSettings))
        (.idle Sample.secWorld) events config ∧
      config.InactiveAt 0 ∧ config.InactiveAt 1 ∧ Metered events := by
  have plays : (SecTraffic.player Sample.secSettings).Plays (UpToDate Sample.secSettings)
      (fun config => config.InactiveAt 0 ∧ config.InactiveAt 1) (.idle Sample.secWorld)
      [.start 0 Sample.fetch, .serve 0 "a", .serve 0 "a", .serve 0 "a", .serve 0 "a",
        .start 1 (.freshen ⟨[], 900⟩), .serve 1 "", .serve 0 "a"] := by
    decide +kernel
  obtain ⟨events, config, run, ⟨fetched, fresh⟩, _⟩ := plays.path
  exact ⟨events, config, run, fetched, fresh,
    traffic_metered Sample.secSettings Sample.secWorld events config run⟩

/-! ### The refresh -/

/-- The processes that refresh were granted no slot, nor were those yet to begin. -/
def Slotless (view : TrafficView) (events : List SecEvent) : Prop :=
  ∀ id, (∀ process, view.process id = some process → ∃ listing, process.label = .freshen listing) →
    countOf id isSlot events = 0

theorem slot_asked {settings : SecSettings} {activity : SecActivity} {phase phase' : TrafficPhase}
    {call : SecCall} {reply : secCalls.Reply call} {id : ℕ}
    (step : TrafficStep settings activity phase call reply phase') (slot : isSlot (.reply id call reply) = true)
    (listing : Listing) : activity ≠ .freshen listing := by
  cases step with
  | granted slot client => exact client listing
  | refused slot reply nothing =>
    rcases reply with error | _ | _
    · cases slot
    · cases slot
    · exact absurd rfl nothing
  | wait _ idle =>
    cases call with
    | acquireSlot slot windowMs limit => cases idle
    | _ => cases slot
  | refresh _ part =>
    cases call with
    | acquireSlot slot windowMs limit => cases part
    | _ => cases slot
  | _ => cases slot

theorem Slotless.step {settings : SecSettings} {view view' : TrafficView} {events : List SecEvent}
    {event : SecEvent} (slotless : Slotless view events)
    (step : (trafficOutline settings).Step view event view') : Slotless view' (events ++ [event]) := by
  intro id refreshes
  have earlier : countOf id isSlot events = 0 := by
    apply slotless
    intro process present
    by_cases here : id = event.id
    · subst here
      cases step with
      | start absent => cases absent.symm.trans present
      | kill present' alive =>
        cases present'.symm.trans present
        obtain ⟨listing, is⟩ := refreshes _ Config.put_self
        exact ⟨listing, is⟩
      | reply present' alive moves served =>
        cases present'.symm.trans present
        obtain ⟨listing, is⟩ := refreshes _ Config.put_self
        exact ⟨listing, is⟩
    · rw [← step.frame here] at present
      exact refreshes process present
  rw [countOf_append, earlier]
  by_cases slot : event.id = id ∧ isSlot event = true
  · obtain ⟨rfl, slot⟩ := slot
    cases step with
    | start => cases slot
    | kill => cases slot
    | reply present alive moves served =>
      obtain ⟨listing, is⟩ := refreshes _ Config.put_self
      exact absurd is (slot_asked moves slot listing)
  · rw [if_neg slot]

/-- A request for the ticker list has no slot: the condition above leaves out nothing that is metered. -/
theorem refresh_unmetered (settings : SecSettings) (world : SecWorld) (events : List SecEvent)
    (config : SecConfig) (run : Path (secTraffic settings).Step (.idle world) events config)
    (before after : List SecEvent) (event : SecEvent) (sent : events = before ++ event :: after)
    (request : isRequest event = true) (refreshes : ∀ process, config.process event.id = some process →
      ∃ listing, process.label = .freshen listing) : ¬ Metered events := by
  have seen : (fun past config => ∃ view : TrafficView, config.Views (trafficOutline settings)
      (fun _ _ _ _ => True) view ∧ Slotless view past) events config := by
    apply run.history_invariant
    · rintro past config event config' step ⟨view, views, slotless⟩
      obtain ⟨view', step', views'⟩ := (traffic_refines settings).simulate views step
      exact ⟨view', views', slotless.step step'⟩
    · exact ⟨.idle world, Refinement.views_idle world, fun _ _ => rfl⟩
  obtain ⟨view, views, slotless⟩ := seen
  have none : countOf event.id isSlot events = 0 := by
    apply slotless
    intro process present
    obtain ⟨code, found, follows⟩ := Refinement.behind views present
    obtain ⟨listing, is⟩ := refreshes code found
    exact ⟨listing, follows.1.symm.trans is⟩
  intro metered
  have own := metered.own before event after sent request
  rw [sent, countOf, List.countP_append] at none
  unfold countOf at own
  omega

/-- The first refresh of a worker sends its request without a slot. -/
theorem refresh_unlimited : ∃ events config,
    Path (secTraffic Sample.secSettings).Step (.idle ⟨.empty, 1700000000000⟩) events config ∧
      ¬ Metered events := by
  refine ⟨[.start 0 (.freshen ⟨[], 0⟩), .reply 0 .time (.ok 1700000000000),
      .reply 0 (.send Sample.secSettings.companyTickersUrl []) (.ok ())], _,
    .cons (.start rfl rfl) (.cons (.reply Config.put_self rfl (Program.Resumes.reply ..) rfl)
      (.cons (.reply Config.put_self rfl (Program.Resumes.reply ..) rfl) (.nil _))), ?_⟩
  intro metered
  have own := metered.own [.start 0 (.freshen ⟨[], 0⟩), .reply 0 .time (.ok 1700000000000)]
    (.reply 0 (.send Sample.secSettings.companyTickersUrl []) (.ok ())) [] rfl rfl
  exact absurd own (by decide)

end Quartr.Soundness
