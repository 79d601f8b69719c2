import Quartr.Model.Sample
import Quartr.Soundness.Twins

/-! # Tasks of different companies do not interfere

Handlings of tasks with different tickers may interleave their calls in any order: each of them keeps to
its own region, and what it does there depends on the region alone.

A path is compared as text, which tells files apart where no component is a dot or two: so it is with the
paths of well-formed accession numbers. The clock reading that goes into the metadata belongs to the course.
-/

namespace Quartr.Soundness

open Quartr.Machine Quartr.Model

variable {α : Type} {region : Region} {capacity : ℕ}

/-- The region of a task hosts the reports of its company. -/
theorem ofTask_hosts (settings : Settings) (task : ReportTask) :
    (Region.ofTask settings task).Hosts settings task.taskId
      fun identity => identity.ticker = task.identity.ticker := by
  constructor
  · exact rfl
  · intro identity includeAmended same
    show Names _ task.identity.ticker _
    rw [← same]
    exact names_key "report:pending:" identity includeAmended
  · intro identity includeAmended same
    show Names _ task.identity.ticker _
    rw [← same]
    exact names_key "report:logical:" identity includeAmended
  · intro identity accessionNumber ext same path member
    have named := (names_paths settings identity accessionNumber ext path member).ticker
    rw [same] at named
    exact ⟨named, named.append ".tmp"⟩
  · exact rfl
  · exact fun _ _ _ => trivial
  · exact fun _ _ same _ => same

/-- Whatever comes of it, `process_task` keeps to the region of its task. -/
theorem processTask_keepsTo (worker : Worker) (task : ReportTask) :
    KeepsTo (.ofTask worker.settings task) worker.settings.maxQueueDepth (fun _ => True) (worker.processTask task) :=
  KeepsTo.mono (processTask_keeps (ofTask_hosts worker.settings task) ⟨rfl, rfl⟩) fun _ _ => trivial

/-! ### A course next to others and alone -/

section Courses

variable {Party : Type} [DecidableEq Party] {course : Party → Course} {settings : Settings} {party : Party}
  {world world' : World} {tally tally' : Tally Party}

/-- The answers to a course that nobody keeps company, where the queue looks empty. -/
def answerAlone (course : Party → Course) : Parties.Answer calls (Tally Party) Party := fun party call tally =>
  (unqueued call (Course.answer course party call tally).1, (Course.answer course party call tally).2)

/-- A course and its region of the world are as they would be if the course were alone. -/
structure Like (region : Region) (capacity : ℕ) (party : Party) (program : Program calls α) (tally : Tally Party)
    (program' : Program calls α) (tally' : Tally Party) : Prop where
  alongside : Alongside region capacity program tally.world program' tally'.world
  made : tally.made party = tally'.made party

section Like

variable {program program' : Program calls α}

/-- A call of the course is answered as if the course were alone. -/
theorem Like.own {call : Call} {next : calls.Reply call → Program calls α}
    (like : Like region capacity party program tally (.await call next) tally')
    (roomy : call.asksDepth = true → tally'.world.depth < capacity) :
    ∃ (call' : Call) (next' : calls.Reply call' → Program calls α), program = .await call' next' ∧
      Like region capacity party (next' (answerAlone course party call' tally).1)
        (answerAlone course party call' tally).2 (next (Course.answer course party call tally').1)
        (Course.answer course party call tally').2 := by
  obtain ⟨call', next', rfl, later, _⟩ :=
    like.alongside.own (course party).outside ((course party).outcome (tally'.made party)) roomy
  refine ⟨call', next', rfl, ?_, ?_⟩
  · have outcomes : (course party).outcome (tally.made party) = (course party).outcome (tally'.made party) :=
      congrArg _ like.made
    simp only [answerAlone, Course.answer, outcomes]
    exact later
  · show Function.update tally.made party _ party = Function.update tally'.made party _ party
    rw [Function.update_self, Function.update_self, like.made]

/-- What a course may do next changes nothing outside its region. -/
theorem Like.elsewhere {call : Call} {next : calls.Reply call → Program calls α}
    (like : Like region capacity party program tally (.await call next) tally') :
    region.Elsewhere tally'.world (Course.answer course party call tally').2.world :=
  like.alongside.elsewhere ..

omit [DecidableEq Party] in
/-- A course does not notice what happens outside its region. -/
theorem Like.other {region' : Region} (like : Like region capacity party program tally program' tally')
    {tally'' : Tally Party} (elsewhere : region'.Elsewhere tally'.world tally''.world)
    (apart : region.Inside region'.compl) (made : tally'.made party = tally''.made party) :
    Like region capacity party program tally program' tally'' :=
  ⟨like.alongside.other elsewhere apart, like.made.trans made⟩

end Like

/-! ### Complete runs -/

variable {final final' : Course.Company Party} {schedule schedule' : List Party}

/-- The region of each course. -/
def territory (settings : Settings) (course : Party → Course) (party : Party) : Region :=
  .ofTask settings (course party).task

def likeness (settings : Settings) (course : Party → Course) :
    Parties.Likeness calls (Tally Party) Party (Except Err Unit × ReportTask) := fun party =>
  Like (territory settings course party) settings.maxQueueDepth party

/-- How each course ends if nobody keeps it company. -/
def endsAlone (course : Party → Course) (world : World) (party : Party) : (Except Err Unit × ReportTask) × Tally Party :=
  ((Course.start course world).control party).run (answerAlone course party) (Course.start course world).world

/-- The tasks have ids of their own and are reports of different companies. -/
structure Unrelated (course : Party → Course) : Prop where
  ids : ∀ party party', party ≠ party' → (course party).task.taskId ≠ (course party').task.taskId
  tickers : ∀ party party', party ≠ party' →
    (course party).task.identity.ticker ≠ (course party').task.identity.ticker

theorem courses_independent (unrelated : Unrelated course) :
    Parties.Independent (Course.answer course) (answerAlone course) (Course.Roomy settings)
      (likeness settings course) := by
  constructor
  · intro party program tally company call next like suspended roomy
    rw [suspended] at like
    apply like.own
    intro asks
    apply roomy
    rw [suspended]
    exact asks
  · intro party mover program tally program' tally' moving there call next differs like like'
    apply like.other like'.elsewhere
    · exact ofTask_apart (unrelated.ids party mover differs) (unrelated.tickers party mover differs)
    · exact (Function.update_of_ne differs ..).symm
  · intro party program tally value tally' like
    exact ⟨value, like.alongside.twins.done⟩

/-- At the start every course is where it is alone. -/
theorem start_shadowed (shared : ∀ party, (course party).worker.settings = settings) (sound : world.files.Sound) :
    (Course.start course world).Shadowed (answerAlone course) (likeness settings course) (endsAlone course world) := by
  intro party
  have keeps := processTask_keepsTo (course party).worker (course party).task
  rw [shared party] at keeps
  have sane : (territory settings course party).Sane world := ⟨sound, Nat.zero_le _⟩
  exact ⟨_, _, ⟨⟨.same keeps, .refl _ world, sane, sane, fun _ _ _ _ => trivial⟩, rfl⟩, rfl⟩

/-- A complete run leaves the region of each course as the course leaves it alone, and everything outside
of the regions as it was. -/
theorem complete_run (shared : ∀ party, (course party).worker.settings = settings) (unrelated : Unrelated course)
    (sound : world.files.Sound)
    (path : Path (Guarded (Course.Step course) (Course.Roomy settings)) (Course.start course world) schedule final)
    (complete : final.Complete) :
    (∀ party, (territory settings course party).SameOn (endsAlone course world party).2.world final.world.world) ∧
      (Region.rest 0 (territory settings course)).SameOn world final.world.world := by
  have independent := @courses_independent Party _ course settings unrelated
  have shadowed := @start_shadowed Party _ course settings world shared sound
  constructor
  · intro party
    obtain ⟨value, like⟩ := independent.settled path shadowed complete party
    exact like.alongside.same
  · have keeps : ∀ {party program tally call next tally'},
        likeness settings course party program tally (.await call next) tally' →
        (Region.rest 0 (territory settings course)).SameOn world tally'.world →
        (Region.rest 0 (territory settings course)).SameOn world (Course.answer course party call tally').2.world := by
      intro party program tally call next tally' like kept
      exact kept.trans (like.elsewhere.same.mono (Region.rest_inside _ party rfl))
    exact independent.kept_run keeps path shadowed (.refl _ world)

end Courses

/-! ### Independence of the order -/

/-- The stores hold the same, every path has the same bytes, and the stream the same entries in some order. -/
structure Alike (world world' : World) : Prop where
  tasks : world.tasks = world'.tasks
  pending : world.pending = world'.pending
  logical : world.logical = world'.logical
  files : ∀ path, world.files.read path = world'.files.read path
  stream : world.stream.Perm world'.stream

/-- What agrees on some regions and on the rest agrees. -/
theorem alike_of_sameOn {Party : Type} {regions : Party → Region} {world world' : World}
    (start : ∀ party, (regions party).found = 0) (same : ∀ party, (regions party).SameOn world world')
    (rest : (Region.rest 0 regions).SameOn world world') : Alike world world' := by
  -- A name belongs to a region or to the rest.
  have either {test : Party → Prop} {goal : Prop} (inside : ∀ party, test party → goal)
      (outside : (∀ party, ¬ test party) → goal) : goal := by
    by_cases owned : ∃ party, test party
    · obtain ⟨party, owned⟩ := owned
      exact inside party owned
    · exact outside (not_exists.mp owned)
  constructor
  · funext taskId
    exact either (fun party => (same party).tasks taskId) (rest.tasks taskId)
  · funext key
    exact either (fun party => (same party).pending key) (rest.pending key)
  · funext key
    exact either (fun party => (same party).logical key) (rest.logical key)
  · intro path
    exact either (fun party => (same party).files path) (rest.files path)
  · apply List.perm_iff_count.mpr
    intro entry
    refine either (fun party inside => ?_) (rest.stream entry)
    have count := (same party).stream entry inside
    rw [start party] at count
    exact count

/-- The order of the calls makes no difference to where complete runs end. -/
theorem complete_runs_alike {Party : Type} [DecidableEq Party] {course : Party → Course} {settings : Settings}
    {world : World} {final final' : Course.Company Party} {schedule schedule' : List Party}
    (shared : ∀ party, (course party).worker.settings = settings) (unrelated : Unrelated course)
    (sound : world.files.Sound)
    (path : Path (Guarded (Course.Step course) (Course.Roomy settings)) (Course.start course world) schedule final)
    (complete : final.Complete)
    (path' : Path (Guarded (Course.Step course) (Course.Roomy settings)) (Course.start course world) schedule' final')
    (complete' : final'.Complete) : Alike final.world.world final'.world.world := by
  obtain ⟨same, rest⟩ := complete_run shared unrelated sound path complete
  obtain ⟨same', rest'⟩ := complete_run shared unrelated sound path' complete'
  exact alike_of_sameOn (fun _ => rfl) (fun party => (same party).symm.trans (same' party)) (rest.symm.trans rest')

/-- Two tasks with different tickers, each of whose calls may come out in any way, end as if they had been
processed one after the other, whichever comes first and however their calls interleave, as long as the
queue is not at capacity when its depth is asked for. -/
theorem companies_independent (settings : Settings) (course : Bool → Course)
    (shared : ∀ side, (course side).worker.settings = settings)
    (ids : (course true).task.taskId ≠ (course false).task.taskId)
    (tickers : (course true).task.identity.ticker ≠ (course false).task.identity.ticker)
    (world : World) (sound : world.files.Sound) (schedule : List Bool) (final : Course.Company Bool)
    (interleaved : Path (Guarded (Course.Step course) (Course.Roomy settings)) (Course.start course world)
      schedule final)
    (complete : final.Complete) (first : Bool) (n m : ℕ) (final' : Course.Company Bool)
    (inTurn : Path (Guarded (Course.Step course) (Course.Roomy settings)) (Course.start course world)
      (List.replicate n first ++ List.replicate m (!first)) final')
    (complete' : final'.Complete) : Alike final.world.world final'.world.world := by
  have unrelated : Unrelated course := by
    constructor
    · rintro (_ | _) (_ | _) differs
      · exact absurd rfl differs
      · exact ids.symm
      · exact ids
      · exact absurd rfl differs
    · rintro (_ | _) (_ | _) differs
      · exact absurd rfl differs
      · exact tickers.symm
      · exact tickers
      · exact absurd rfl differs
  exact complete_runs_alike shared unrelated sound interleaved complete inTurn complete'

/-! ### Apple and Microsoft -/

def bothTickers : CikMapping :=
  ⟨[("AAPL", ⟨"AAPL", "0000320193", "Apple Inc."⟩), ("MSFT", ⟨"MSFT", "0000789019", "Microsoft Corp."⟩)]⟩

def microsoft : ReportIdentity :=
  { Sample.identity 2024 with ticker := "MSFT", ticker_matches := by decide +kernel }

def queuedTask (taskId : TaskId) (identity : ReportIdentity) : ReportTask :=
  { ReportTask.fresh taskId identity false with state := .queued }

/-- Apple's report is stored; the disk is full when Microsoft's is written. -/
def twoCourses (apple : Bool) : Course where
  worker := ⟨Sample.settings 5, bothTickers, "2025-01-01T00:00:00+00:00"⟩
  task := if apple then queuedTask "task-0" (Sample.identity 2024) else queuedTask "task-1" microsoft
  outside := Sample.outside
  outcome n := if apple = false ∧ n = 7 then .raised (.other "OSError") false else .answered

/-- Both messages are waiting in the queue. -/
def bothQueued : World := { Sample.world with stream := [Entry.new "task-0", Entry.new "task-1"] }

/-- Whether a schedule runs both to their ends. -/
def runsBoth (schedule : List Bool) : Bool :=
  ((Course.start twoCourses bothQueued).play (Course.answer twoCourses)
    (fun company party => Course.Roomy (Sample.settings 5) company party) schedule).any fun final =>
      ((final.control true).call?.isNone && (final.control false).call?.isNone)

theorem runsBoth_path {schedule : List Bool} (runs : runsBoth schedule = true) : ∃ final,
    Path (Guarded (Course.Step twoCourses) (Course.Roomy (Sample.settings 5)))
      (Course.start twoCourses bothQueued) schedule final ∧ final.Complete := by
  obtain ⟨final, played, finished⟩ := (Option.any_eq_true _ _).mp runs
  simp only [Bool.and_eq_true, Option.isNone_iff_eq_none] at finished
  refine ⟨final, Parties.play_path (fun company party checked => of_decide_eq_true checked) played, ?_⟩
  rintro (_ | _)
  · exact finished.2
  · exact finished.1

/-- The calls of the two alternate, or one course follows the other. -/
theorem companies_independent_disk_full : ∃ final final' : Course.Company Bool,
    Path (Guarded (Course.Step twoCourses) (Course.Roomy (Sample.settings 5))) (Course.start twoCourses bothQueued)
      ((List.replicate 12 [true, false]).flatten ++ List.replicate 6 true) final ∧ final.Complete ∧
    Path (Guarded (Course.Step twoCourses) (Course.Roomy (Sample.settings 5))) (Course.start twoCourses bothQueued)
      (List.replicate 12 false ++ List.replicate 18 true) final' ∧ final'.Complete ∧
    Alike final.world.world final'.world.world := by
  have alternating : runsBoth ((List.replicate 12 [true, false]).flatten ++ List.replicate 6 true) = true := by
    decide +kernel
  have inTurn : runsBoth (List.replicate 12 false ++ List.replicate 18 true) = true := by decide +kernel
  have sound : bothQueued.files.Sound := by
    constructor
    · intro path file found
      cases found
    · intro path path' file found
      cases found
  obtain ⟨final, path, complete⟩ := runsBoth_path alternating
  obtain ⟨final', path', complete'⟩ := runsBoth_path inTurn
  refine ⟨final, final', path, complete, path', complete', ?_⟩
  exact companies_independent (Sample.settings 5) twoCourses (fun _ => rfl) (by decide) (by decide) bothQueued sound _
    final path complete false 12 18 final' path' complete'

end Quartr.Soundness
