import Quartr.Model.KeySpace
import Quartr.Soundness.Acknowledgement
import Quartr.Soundness.Success
import Quartr.Soundness.TaskRecords

/-! # The service over the key space of Redis

What the service stores as texts and hashes under keys of one space is what the maps of `World` hold. So every
run over the key space is a run over the maps in which pointers may expire, and a run of less than six hours is
one in which none does. The worker's acknowledgements and the records of success are as safe in either.
-/

namespace Quartr.Soundness

open Quartr.Data (Dict)
open Quartr.Data.Json (FloatText digitLimit)
open Quartr.Machine Quartr.Model Quartr.Numeric
open Quartr.Model.Mapping (Json Exc Python)

/-! ### Records -/

section Records

variable {python : Python} {float : FloatText Binary64}

/-- A saved task has the fields of a task of the service. -/
theorem task?_record (task : ReportTask) (createdAt updatedAt : String) :
    (task.record createdAt updatedAt).task? = some task := by
  obtain ⟨taskId, ⟨ticker, form, year, quarter, _, _⟩, state, includeAmended, filing, artifactPath, error, attempts⟩ :=
    task
  cases quarter <;> cases filing <;> cases artifactPath <;> cases error <;> rfl

theorem sound_optionalText (text : Option String) : (optionalText text).Sound float := by
  cases text with
  | none => exact sound_absent
  | some text => exact sound_text text

theorem record_sound (float : FloatText Binary64) {task : ReportTask} (storable : task.Storable)
    (createdAt updatedAt : String) :
    (task.record createdAt updatedAt).asdict.Sound float := by
  have filing : (task.record createdAt updatedAt).filing.asdict.Sound float := by
    unfold ReportTask.record
    cases task.filing with
    | none => exact sound_absent
    | some filing =>
      refine sound_object.mpr ⟨by simp, ?_⟩
      simp only [List.forall_mem_cons]
      exact ⟨sound_text _, sound_text _, sound_text _, sound_text _, sound_text _,
        fun _ member => absurd member List.not_mem_nil⟩
  have identity : (task.record createdAt updatedAt).identity.asdict.Sound float := by
    refine sound_object.mpr ⟨by simp, ?_⟩
    simp only [List.forall_mem_cons]
    exact ⟨sound_text _, sound_text _, sound_int storable.1, sound_optionalText _,
      fun _ member => absurd member List.not_mem_nil⟩
  refine sound_object.mpr ⟨by simp, ?_⟩
  simp only [List.forall_mem_cons]
  exact ⟨sound_text _, identity, sound_text _, sound_bool _, filing, sound_optionalText _, sound_optionalText _,
    sound_int storable.2, sound_text _, sound_text _, fun _ member => absurd member List.not_mem_nil⟩

/-- The text of a task is loaded as the task. -/
theorem loadTask_toJson {task : ReportTask} (storable : task.Storable) (createdAt updatedAt now : String) :
    loadTask python float now (some ((task.record createdAt updatedAt).toJson float)) = .ok (some task) := by
  have loaded := fromJson_toJson python now (record_sound float storable createdAt updatedAt)
  have filled : (task.record createdAt updatedAt).toJson float ≠ "" := by
    intro empty
    rw [empty] at loaded
    cases loaded
  rw [loadTask, if_neg filled, loaded]
  simp only [task?_record]

theorem ofHash?_fields (before : Dict String String) (artifact : CurrentArtifact) (updatedAt : String) :
    CurrentArtifact.ofHash? (before.fill (artifact.fields updatedAt)) = some artifact := by
  have field (name value : String)
      (last : (artifact.fields updatedAt).reverse.lookup name = some value) :
      (before.fill (artifact.fields updatedAt)).get? name = some value := by
    rw [Dict.get?_fill, last]
    rfl
  unfold CurrentArtifact.ofHash?
  rw [field "accession_number" artifact.accessionNumber rfl, field "artifact_path" artifact.artifactPath rfl,
    field "cik" artifact.cik rfl]
  rfl

end Records

/-! ### Keys -/

section Keys

theorem hasPrefix_append (start rest : String) : HasPrefix start (start ++ rest) := by
  rw [HasPrefix, String.toList_append]
  exact List.prefix_append _ _

theorem apart_of_prefixes {start start' key : String} (apart : ¬ HasPrefix start start' ∧ ¬ HasPrefix start' start)
    (begins : HasPrefix start key) : ¬ HasPrefix start' key := fun begins' =>
  (List.prefix_or_prefix_of_prefix begins begins').elim apart.1 apart.2

theorem taskKey_apart {start key : String} (apart : ¬ HasPrefix start "report:task:" ∧ ¬ HasPrefix "report:task:" start)
    (begins : HasPrefix start key) (taskId : TaskId) : key ≠ taskKey taskId := by
  rintro rfl
  exact apart_of_prefixes apart begins (hasPrefix_append _ _)

theorem pending_task : ¬ HasPrefix pendingPrefix "report:task:" ∧ ¬ HasPrefix "report:task:" pendingPrefix := by
  decide +kernel

theorem logical_task : ¬ HasPrefix logicalPrefix "report:task:" ∧ ¬ HasPrefix "report:task:" logicalPrefix := by
  decide +kernel

theorem pending_logical : ¬ HasPrefix pendingPrefix logicalPrefix ∧ ¬ HasPrefix logicalPrefix pendingPrefix := by
  decide +kernel

theorem taskKey_injective {taskId taskId' : TaskId} (same : taskKey taskId = taskKey taskId') : taskId = taskId' := by
  have lists := congrArg String.toList same
  simp only [taskKey, String.toList_append, List.append_cancel_left_eq] at lists
  exact String.toList_injective lists

/-- The keys of pointers and of artifacts have their prefixes. -/
def Addressed : Call → Prop
  | .hgetallLogical key => HasPrefix logicalPrefix key
  | .hsetLogical key _ => HasPrefix logicalPrefix key
  | .getPending key => HasPrefix pendingPrefix key
  | .setPending key _ => HasPrefix pendingPrefix key
  | .setPendingNx key _ => HasPrefix pendingPrefix key
  | .deletePending key => HasPrefix pendingPrefix key
  | _ => True

theorem addressed_pending (logicalPath : String) (includeAmended : Bool) :
    HasPrefix pendingPrefix (pendingTaskKey logicalPath includeAmended) := by
  rw [pendingTaskKey, String.append_assoc]
  exact hasPrefix_append _ _

theorem addressed_logical (logicalPath : String) (includeAmended : Bool) :
    HasPrefix logicalPrefix (logicalKey logicalPath includeAmended) := by
  rw [logicalKey, String.append_assoc]
  exact hasPrefix_append _ _

theorem RequestStep.addressed {ticket : Ticket} {phase phase' : RequestPhase} {call : Call}
    {reply : calls.Reply call} (step : RequestStep ticket phase call reply phase') : Addressed call := by
  have logical : HasPrefix logicalPrefix ticket.logicalKey := addressed_logical _ _
  have pending : HasPrefix pendingPrefix ticket.pendingKey := addressed_pending _ _
  have next := step.call?_eq
  cases phase <;> cases next
  case checking => exact logical
  case registering => exact pending
  case following => exact pending
  case reclaiming => exact pending
  case rejecting => exact pending
  all_goals exact trivial

theorem HandlingStep.addressed {worker : Worker} {entry : ℕ} {taskId : TaskId} {phase phase' : HandlingPhase}
    {call : Call} {reply : calls.Reply call} (step : HandlingStep worker entry taskId phase call reply phase') :
    Addressed call := by
  have pending (saved : ReportTask) : Addressed (.deletePending saved.pendingKey) :=
    addressed_pending saved.identity.logicalPath saved.includeAmended
  cases step with
  | pipeline _ _ _ _ outside => cases call <;> first | exact trivial | exact outside.elim
  | release original saved => exact pending saved
  | publish original saved => exact addressed_logical saved.identity.logicalPath saved.includeAmended
  | unpin original saved => exact addressed_pending original.logicalPath saved.includeAmended
  | clear saved => exact pending saved
  | forget saved => exact pending saved
  | _ => exact trivial

/-- The service makes no call on a key of another kind. -/
theorem body_addressed {settings : Settings} {uuid : ℕ → TaskId} (id : ℕ) (label : Activity) :
    (Service.body settings uuid id label).Only Addressed := by
  refine ((@service_refines settings uuid Faulty).follows id label).only ?_
  intro phase call reply phase' step
  cases step with
  | request _ step => exact step.addressed
  | handling step => exact step.addressed

end Keys

/-! ### One key -/

section Space

variable {space space' : KeySpace} {key key' : String}

theorem find_put_self (space : KeySpace) (key : String) (entry : Option RedisKey) :
    (space.put key entry).find key = entry.bind fun entry =>
      if entry.expiresAt.all fun time => space.now < time then some entry.value else none := by
  rw [KeySpace.find, KeySpace.put]
  simp only [Function.update_self]

theorem find_put_of_ne (differs : key' ≠ key) (entry : Option RedisKey) :
    (space.put key entry).find key' = space.find key' := by
  rw [KeySpace.find, KeySpace.find, KeySpace.put]
  simp only [Function.update_of_ne differs]

theorem keys_put_of_ne (differs : key' ≠ key) (entry : Option RedisKey) :
    (space.put key entry).keys key' = space.keys key' := Function.update_of_ne differs ..

theorem find_some {value : RedisValue} (found : space.find key = some value) :
    ∃ entry, space.keys key = some entry ∧ entry.value = value ∧ ∀ time ∈ entry.expiresAt, space.now < time := by
  obtain ⟨entry, present, alive⟩ := Option.bind_eq_some_iff.mp found
  split_ifs at alive with kept
  · refine ⟨entry, present, Option.some.inj alive, fun time member => ?_⟩
    rw [Option.mem_def.mp member] at kept
    exact of_decide_eq_true kept

/-- A key without a time is there until it is changed. -/
theorem find_lasting {entry : RedisKey} (present : space.keys key = some entry) (lasting : entry.expiresAt = none) :
    space.find key = some entry.value := by
  rw [KeySpace.find, present]
  simp only [Option.bind_some, lasting]
  rfl

theorem find_absent (absent : space.keys key = none) : space.find key = none := by
  rw [KeySpace.find, absent]
  rfl

theorem get_none (absent : space.find key = none) : space.get key = .ok none := by
  rw [KeySpace.get, absent]

theorem get_string {text : String} (found : space.find key = some (.string text)) :
    space.get key = .ok (some text) := by
  rw [KeySpace.get, found]

theorem get_congr (same : space'.find key = space.find key) : space'.get key = space.get key := by
  rw [KeySpace.get, KeySpace.get, same]

theorem hgetall_congr (same : space'.find key = space.find key) : space'.hgetall key = space.hgetall key := by
  rw [KeySpace.hgetall, KeySpace.hgetall, same]

end Space

/-! ### The maps in the key space -/

/-- What the service has stored is of the right kind: tasks are texts of tasks, pointers are texts, artifacts
are hashes with the three fields. Pointers alone expire. -/
structure WellTyped (float : FloatText Binary64) (server : Server) : Prop where
  task : ∀ taskId entry, server.space.keys (taskKey taskId) = some entry →
    ∃ (task : ReportTask) (createdAt updatedAt : String), task.Storable ∧
      entry = ⟨.string ((task.record createdAt updatedAt).toJson float), none⟩
  pointer : ∀ key entry, HasPrefix pendingPrefix key → server.space.keys key = some entry →
    ∃ text, entry.value = .string text
  artifact : ∀ key entry, HasPrefix logicalPrefix key → server.space.keys key = some entry →
    ∃ fields, CurrentArtifact.ofHash? fields ≠ none ∧ entry = ⟨.hash fields, none⟩

section Maps

variable {python : Python} {float : FloatText Binary64} {server server' : Server} {key : String}

theorem task_congr {taskId : TaskId}
    (same : server'.space.find (taskKey taskId) = server.space.find (taskKey taskId)) :
    server'.task python float taskId = server.task python float taskId := by
  rw [Server.task, Server.task, get_congr same]

theorem pointer_congr (same : server'.space.find key = server.space.find key) :
    server'.pointer key = server.pointer key := by
  rw [Server.pointer, Server.pointer, get_congr same]

theorem artifact_congr (same : server'.space.find key = server.space.find key) :
    server'.artifact key = server.artifact key := by
  rw [Server.artifact, Server.artifact, hgetall_congr same]

/-- Loading a task answers what the map of tasks holds, whatever the clock shows. -/
theorem WellTyped.reads_task (typed : WellTyped float server) (now : String) (taskId : TaskId) :
    (server.space.get (taskKey taskId)).bind (loadTask python float now) =
      .ok (server.task python float taskId) := by
  cases found : server.space.find (taskKey taskId) with
  | none =>
    rw [Server.task, get_none found]
    rfl
  | some value =>
    obtain ⟨entry, present, same, _⟩ := find_some found
    obtain ⟨task, createdAt, updatedAt, storable, stored⟩ := typed.task taskId entry present
    rw [← same, stored] at found
    have loaded (now : String) : (server.space.get (taskKey taskId)).bind (loadTask python float now) =
        .ok (some task) := by
      rw [get_string found, Except.bind]
      exact loadTask_toJson storable createdAt updatedAt now
    rw [Server.task, loaded, loaded]
    rfl

theorem WellTyped.reads_pointer (typed : WellTyped float server) (named : HasPrefix pendingPrefix key) :
    server.space.get key = .ok (server.pointer key) := by
  rw [Server.pointer, if_pos named]
  cases found : server.space.find key with
  | none =>
    rw [get_none found]
    rfl
  | some value =>
    obtain ⟨entry, present, same, _⟩ := find_some found
    obtain ⟨text, stored⟩ := typed.pointer key entry named present
    rw [← same, stored] at found
    rw [get_string found]
    rfl

theorem WellTyped.reads_artifact (typed : WellTyped float server) (named : HasPrefix logicalPrefix key) :
    (server.space.hgetall key).map CurrentArtifact.ofHash? = .ok (server.artifact key) := by
  rw [Server.artifact, if_pos named]
  cases found : server.space.find key with
  | none =>
    rw [KeySpace.hgetall, found]
    rfl
  | some value =>
    obtain ⟨entry, present, same, _⟩ := find_some found
    obtain ⟨fields, -, rfl⟩ := typed.artifact key entry named present
    rw [← same] at found
    rw [KeySpace.hgetall, found]
    rfl

/-- A pointer is there exactly if its key is. -/
theorem WellTyped.pointer_isNone (typed : WellTyped float server) (named : HasPrefix pendingPrefix key) :
    (server.pointer key).isNone = (server.space.find key).isNone := by
  have read := typed.reads_pointer named
  cases found : server.space.find key with
  | none =>
    rw [get_none found] at read
    rw [← Except.ok.inj read]
    rfl
  | some value =>
    cases value with
    | string text =>
      rw [get_string found] at read
      rw [← Except.ok.inj read]
      rfl
    | hash fields =>
      rw [KeySpace.get, found] at read
      cases read

/-! ### Time -/

/-- As time passes, tasks and artifacts stay, and pointers may go. -/
theorem WellTyped.forgets (typed : WellTyped float server) {now : ℕ} (later : server.space.now ≤ now) :
    (server.world python float).Forgets ((server.atTime now).world python float) := by
  have lasting {key : String} (lasts : ∀ entry, server.space.keys key = some entry → entry.expiresAt = none) :
      (server.atTime now).space.find key = server.space.find key := by
    cases present : server.space.keys key with
    | none => rw [find_absent present, @find_absent (server.atTime now).space key present]
    | some entry =>
      rw [find_lasting present (lasts entry present)]
      exact @find_lasting (server.atTime now).space key entry present (lasts entry present)
  refine ⟨(server.atTime now).pointer, ?_, fun key => ?_⟩
  · have tasks : (server.atTime now).task python float = server.task python float := by
      funext taskId
      refine task_congr (lasting fun entry present => ?_)
      obtain ⟨task, createdAt, updatedAt, _, rfl⟩ := typed.task taskId entry present
      rfl
    have artifacts : (server.atTime now).artifact = server.artifact := by
      funext key
      by_cases named : HasPrefix logicalPrefix key
      · refine artifact_congr (lasting fun entry present => ?_)
        obtain ⟨fields, _, rfl⟩ := typed.artifact key entry named present
        rfl
      · rw [Server.artifact, Server.artifact, if_neg named, if_neg named]
    rw [Server.world, Server.world, tasks, artifacts]
    rfl
  · cases found : (server.atTime now).space.find key with
    | none =>
      right
      rw [Server.pointer, get_none found]
      split_ifs <;> rfl
    | some value =>
      left
      refine pointer_congr (found.trans ?_)
      obtain ⟨entry, present, rfl, alive⟩ := find_some found
      have present : server.space.keys key = some entry := present
      have kept : (entry.expiresAt.all fun time => server.space.now < time) = true := by
        cases expires : entry.expiresAt with
        | none => rfl
        | some time => exact decide_eq_true (Nat.lt_of_le_of_lt later (alive time expires))
      rw [KeySpace.find, present]
      exact (if_pos kept).symm

theorem WellTyped.atTime (typed : WellTyped float server) (now : ℕ) : WellTyped float (server.atTime now) :=
  ⟨typed.task, typed.pointer, typed.artifact⟩

/-! ### Calls -/

theorem WellTyped.put (typed : WellTyped float server) {entry : Option RedisKey}
    (task : ∀ taskId, key = taskKey taskId → ∀ found ∈ entry,
      ∃ (task : ReportTask) (createdAt updatedAt : String), task.Storable ∧
        found = ⟨.string ((task.record createdAt updatedAt).toJson float), none⟩)
    (pointer : HasPrefix pendingPrefix key → ∀ found ∈ entry, ∃ text, found.value = .string text)
    (artifact : HasPrefix logicalPrefix key → ∀ found ∈ entry,
      ∃ fields, CurrentArtifact.ofHash? fields ≠ none ∧ found = ⟨.hash fields, none⟩) :
    WellTyped float { server with space := server.space.put key entry } := by
  have cases_put {key' : String} {found : RedisKey} (present : (server.space.put key entry).keys key' = some found) :
      (key' = key ∧ found ∈ entry) ∨ server.space.keys key' = some found := by
    by_cases same : key' = key
    · subst same
      have stored : (server.space.put key' entry).keys key' = entry := Function.update_self ..
      exact .inl ⟨rfl, stored.symm.trans present⟩
    · exact .inr ((keys_put_of_ne same entry).symm.trans present)
  constructor
  · intro taskId found present
    rcases cases_put present with ⟨same, member⟩ | before
    · exact task taskId same.symm found member
    · exact typed.task taskId found before
  · intro key' found named present
    rcases cases_put present with ⟨rfl, member⟩ | before
    · exact pointer named found member
    · exact typed.pointer key' found named before
  · intro key' found named present
    rcases cases_put present with ⟨rfl, member⟩ | before
    · exact artifact named found member
    · exact typed.artifact key' found named before

/-! Each kind of key changes its own map only. -/

theorem tasks_put (away : ∀ taskId, taskKey taskId ≠ key) (entry : Option RedisKey) :
    Server.task python float { server with space := server.space.put key entry } = server.task python float :=
  funext fun taskId => task_congr (find_put_of_ne (away taskId) entry)

theorem pointers_put (away : ¬ HasPrefix pendingPrefix key) (entry : Option RedisKey) :
    Server.pointer { server with space := server.space.put key entry } = server.pointer := by
  funext key'
  by_cases named : HasPrefix pendingPrefix key'
  · refine pointer_congr (find_put_of_ne ?_ entry)
    rintro rfl
    exact away named
  · rw [Server.pointer, Server.pointer, if_neg named, if_neg named]

theorem artifacts_put (away : ¬ HasPrefix logicalPrefix key) (entry : Option RedisKey) :
    Server.artifact { server with space := server.space.put key entry } = server.artifact := by
  funext key'
  by_cases named : HasPrefix logicalPrefix key'
  · refine artifact_congr (find_put_of_ne ?_ entry)
    rintro rfl
    exact away named
  · rw [Server.artifact, Server.artifact, if_neg named, if_neg named]

theorem world_put_task {taskId : TaskId} {entry : Option RedisKey} {found : Option ReportTask}
    (reads : ((server.space.put (taskKey taskId) entry).get (taskKey taskId)).bind (loadTask python float "") =
      .ok found) :
    Server.world python float { server with space := server.space.put (taskKey taskId) entry } =
      { server.world python float with
        tasks := Function.update (server.world python float).tasks taskId found } := by
  have tasks : Server.task python float { server with space := server.space.put (taskKey taskId) entry } =
      Function.update (server.task python float) taskId found := by
    funext other
    by_cases same : other = taskId
    · subst same
      rw [Function.update_self, Server.task, reads]
      rfl
    · rw [Function.update_of_ne same]
      exact task_congr (find_put_of_ne (fun keys => same (taskKey_injective keys)) entry)
  have pointers := @pointers_put server _ (fun named => taskKey_apart pending_task named taskId rfl) entry
  have artifacts := @artifacts_put server _ (fun named => taskKey_apart logical_task named taskId rfl) entry
  rw [Server.world, tasks, pointers, artifacts]
  rfl

theorem world_put_pointer (named : HasPrefix pendingPrefix key) {entry : Option RedisKey} {found : Option TaskId}
    (reads : (server.space.put key entry).get key = .ok found) :
    Server.world python float { server with space := server.space.put key entry } =
      { server.world python float with
        pending := Function.update (server.world python float).pending key found } := by
  have tasks := @tasks_put python float server key
    (fun taskId => (taskKey_apart pending_task named taskId).symm) entry
  have pointers : Server.pointer { server with space := server.space.put key entry } =
      Function.update server.pointer key found := by
    funext other
    by_cases same : other = key
    · subst same
      rw [Function.update_self, Server.pointer, if_pos named, reads]
      rfl
    · rw [Function.update_of_ne same]
      exact pointer_congr (find_put_of_ne same entry)
  have artifacts := @artifacts_put server key (apart_of_prefixes pending_logical named) entry
  rw [Server.world, tasks, pointers, artifacts]
  rfl

theorem world_put_artifact (named : HasPrefix logicalPrefix key) {entry : Option RedisKey}
    {found : Option CurrentArtifact}
    (reads : ((server.space.put key entry).hgetall key).map CurrentArtifact.ofHash? = .ok found) :
    Server.world python float { server with space := server.space.put key entry } =
      { server.world python float with
        logical := Function.update (server.world python float).logical key found } := by
  have tasks := @tasks_put python float server key
    (fun taskId => (taskKey_apart logical_task named taskId).symm) entry
  have pointers := @pointers_put server key (apart_of_prefixes pending_logical.symm named) entry
  have artifacts : Server.artifact { server with space := server.space.put key entry } =
      Function.update server.artifact key found := by
    funext other
    by_cases same : other = key
    · subst same
      rw [Function.update_self, Server.artifact, if_pos named, reads]
      rfl
    · rw [Function.update_of_ne same]
      exact artifact_congr (find_put_of_ne same entry)
  rw [Server.world, tasks, pointers, artifacts]
  rfl

/-- The call saves no task that cannot be written. -/
def Saveable : Call → Prop
  | .setTask task => task.Storable
  | _ => True

theorem get_set (space : KeySpace) (key text : String) (seconds : Option ℕ) (lasts : ∀ n ∈ seconds, 0 < n) :
    (space.set key text seconds).get key = .ok (some text) := by
  refine get_string ((find_put_self space key _).trans ?_)
  cases seconds with
  | none => rfl
  | some seconds =>
    have positive := lasts seconds rfl
    simp only [Option.bind_some, Option.map_some, Option.all_some]
    exact if_pos (decide_eq_true (by omega))

theorem set_pointer (named : HasPrefix pendingPrefix key) (typed : WellTyped float server) (taskId : TaskId) :
    Server.world python float { server with space := server.space.set key taskId (some pendingSeconds) } =
        { server.world python float with
          pending := Function.update (server.world python float).pending key (some taskId) } ∧
      WellTyped float { server with space := server.space.set key taskId (some pendingSeconds) } := by
  constructor
  · refine world_put_pointer named (get_set server.space key taskId (some pendingSeconds) ?_)
    rintro seconds ⟨⟩
    decide
  · refine typed.put ?_ ?_ ?_
    · exact fun taskId' same => absurd same (taskKey_apart pending_task named taskId')
    · rintro _ _ ⟨⟩
      exact ⟨taskId, rfl⟩
    · exact fun named' => absurd named' (apart_of_prefixes pending_logical named)

theorem put_artifact (named : HasPrefix logicalPrefix key) (typed : WellTyped float server)
    {fields : Dict String String} {artifact : CurrentArtifact} (read : CurrentArtifact.ofHash? fields = some artifact) :
    Server.world python float { server with space := server.space.put key (some ⟨.hash fields, none⟩) } =
        { server.world python float with
          logical := Function.update (server.world python float).logical key (some artifact) } ∧
      WellTyped float { server with space := server.space.put key (some ⟨.hash fields, none⟩) } := by
  constructor
  · refine world_put_artifact named ?_
    rw [KeySpace.hgetall, find_put_self server.space key (some ⟨.hash fields, none⟩)]
    exact congrArg Except.ok read
  · refine typed.put ?_ ?_ ?_
    · exact fun taskId same => absurd same (taskKey_apart logical_task named taskId)
    · exact fun named' => absurd named' (apart_of_prefixes pending_logical.symm named)
    · rintro _ _ ⟨⟩
      exact ⟨fields, read ▸ Option.some_ne_none artifact, rfl⟩

/-- A call does to the maps what it does to those of a `World`, and keeps what is stored of the right kind. -/
theorem WellTyped.after (python : Python) (typed : WellTyped float server) {call : Call} (addressed : Addressed call)
    (saveable : Saveable call) (readings : Readings) :
    (server.after float readings call).world python float = (server.world python float).after call ∧
      WellTyped float (server.after float readings call) := by
  have other (stream : List Entry) (files : FileSystem) :
      WellTyped float { server with stream := stream, files := files } :=
    ⟨typed.task, typed.pointer, typed.artifact⟩
  cases call with
  | hsetLogical key artifact =>
    have named : HasPrefix logicalPrefix key := addressed
    have read (before : Dict String String) := ofHash?_fields before artifact readings.publishedAt
    rw [Server.after, KeySpace.hset]
    cases found : server.space.find key with
    | none => exact put_artifact named typed (read .empty)
    | some value =>
      obtain ⟨entry, present, rfl, _⟩ := find_some found
      obtain ⟨fields, _, rfl⟩ := typed.artifact key entry named present
      simp only [present]
      exact put_artifact named typed (read fields)
  | setPending key taskId => exact set_pointer addressed typed taskId
  | setPendingNx key taskId =>
    have same : ((server.world python float).pending key).isNone = (server.space.find key).isNone :=
      typed.pointer_isNone addressed
    rw [Server.after, World.after, same]
    split_ifs with free
    · exact set_pointer addressed typed taskId
    · exact ⟨rfl, typed⟩
  | deletePending key =>
    have named : HasPrefix pendingPrefix key := addressed
    constructor
    · exact world_put_pointer named (get_none (find_put_self server.space key none))
    · refine typed.put ?_ ?_ ?_
      · rintro _ _ _ ⟨⟩
      · rintro _ _ ⟨⟩
      · rintro _ _ ⟨⟩
  | setTask task =>
    have storable : task.Storable := saveable
    rw [Server.after, if_pos storable]
    constructor
    · refine world_put_task ?_
      have read := get_set server.space (taskKey task.taskId)
        ((task.record readings.createdAt readings.updatedAt).toJson float) none (by rintro _ ⟨⟩)
      rw [KeySpace.set] at read
      rw [read, Except.bind]
      exact loadTask_toJson storable readings.createdAt readings.updatedAt ""
    · refine typed.put ?_ ?_ ?_
      · rintro _ _ _ ⟨⟩
        exact ⟨task, _, _, storable, rfl⟩
      · exact fun named => absurd rfl (taskKey_apart pending_task named task.taskId)
      · exact fun named => absurd rfl (taskKey_apart logical_task named task.taskId)
  | _ => exact ⟨rfl, other _ _⟩

/-- A call is answered as the maps answer it. -/
theorem WellTyped.reply (typed : WellTyped float server) {call : Call} (addressed : Addressed call)
    (saveable : Saveable call) (readings : Readings) (outside : Outside) :
    server.reply python float readings outside call = (server.world python float).reply outside call := by
  cases call with
  | hgetallLogical key => exact typed.reads_artifact addressed
  | hsetLogical key artifact =>
    have named : HasPrefix logicalPrefix key := addressed
    rw [Server.reply, KeySpace.hset]
    cases found : server.space.find key with
    | none => rfl
    | some value =>
      obtain ⟨entry, present, rfl, _⟩ := find_some found
      obtain ⟨fields, _, rfl⟩ := typed.artifact key entry named present
      rfl
  | getPending key => exact typed.reads_pointer addressed
  | setPendingNx key taskId => exact congrArg Except.ok (typed.pointer_isNone addressed).symm
  | getTask taskId => exact typed.reads_task readings.updatedAt taskId
  | setTask task => exact if_pos saveable
  | _ => rfl

theorem after_now (server : Server) (readings : Readings) (call : Call) :
    (server.after float readings call).space.now = server.space.now := by
  rw [Server.after.eq_def]
  cases call with
  | hsetLogical key artifact =>
    simp only [KeySpace.hset]
    cases server.space.find key with
    | none => rfl
    | some value => cases value <;> rfl
  | setPendingNx key taskId =>
    simp only
    split_ifs <;> rfl
  | setTask task =>
    simp only
    split_ifs <;> rfl
  | _ => rfl

/-- The clock never goes back. -/
theorem served_later {call : Call} {reply : calls.Reply call}
    (served : Server.Faulty python float call server reply server') : server.space.now ≤ server'.space.now := by
  rcases served with ⟨now, readings, outside, later, _, rfl⟩ | ⟨now, readings, error, later, _, _, rfl | rfl⟩
  · exact later.trans_eq (after_now (server.atTime now) readings call).symm
  · exact later
  · exact later.trans_eq (after_now (server.atTime now) readings call).symm

/-- A call of the service over the key space is one over the maps, at the time it is served. -/
theorem WellTyped.served (typed : WellTyped float server) {call : Call} {reply : calls.Reply call}
    (addressed : Addressed call) (served : Server.Faulty python float call server reply server') :
    WellTyped float server' ∧ ∃ now, server.space.now ≤ now ∧ server'.space.now = now ∧
      Faulty call ((server.atTime now).world python float) reply (server'.world python float) := by
  by_cases saveable : Saveable call
  · rcases served with ⟨now, readings, outside, later, rfl, rfl⟩ | ⟨now, readings, error, later, fault, rfl, effect⟩
    · have typed' := typed.atTime now
      obtain ⟨same, kept⟩ := typed'.after python addressed saveable readings
      refine ⟨kept, now, later, after_now _ readings call, .inl ⟨⟨outside, ?_⟩, same⟩⟩
      exact typed'.reply addressed saveable readings outside
    · have typed' := typed.atTime now
      rcases effect with rfl | rfl
      · exact ⟨typed', now, later, rfl, .inr ⟨error, fault, rfl, .inl rfl⟩⟩
      · obtain ⟨same, kept⟩ := typed'.after python addressed saveable readings
        exact ⟨kept, now, later, after_now _ readings call, .inr ⟨error, fault, rfl, .inr same⟩⟩
  · -- Writing the document raises before the command is sent.
    cases call with
    | setTask task =>
      have long : ¬ task.Storable := saveable
      have unsaved (server : Server) (readings : Readings) : server.after float readings (.setTask task) = server :=
        if_neg long
      rcases served with ⟨now, readings, outside, later, rfl, rfl⟩ | ⟨now, readings, error, later, fault, rfl, effect⟩
      · rw [unsaved]
        refine ⟨typed.atTime now, now, later, rfl, .inr ⟨Server.tooLong, trivial, if_neg long, .inl rfl⟩⟩
      · rw [unsaved, or_self] at effect
        subst effect
        exact ⟨typed.atTime now, now, later, rfl, .inr ⟨error, fault, rfl, .inl rfl⟩⟩
    | _ => exact absurd trivial saveable

end Maps

/-! ### Pointers that have not expired yet -/

/-- Six hours in milliseconds. -/
def sixHours : ℕ := pendingSeconds * 1000

/-- No key expires before this time, and none set from now on will. -/
structure Outlasts (limit : ℕ) (server : Server) : Prop where
  set : limit ≤ server.space.now + sixHours
  keys : ∀ key entry, server.space.keys key = some entry → ∀ time ∈ entry.expiresAt, limit ≤ time

section Outlasts

variable {python : Python} {float : FloatText Binary64} {server server' : Server} {limit now : ℕ}

theorem Outlasts.atTime (outlasts : Outlasts limit server) (later : server.space.now ≤ now) :
    Outlasts limit (server.atTime now) :=
  ⟨outlasts.set.trans (Nat.add_le_add_right later _), outlasts.keys⟩

/-- Until then nothing expires. -/
theorem Outlasts.still (outlasts : Outlasts limit server) (later : server.space.now ≤ now) (within : now < limit) :
    (server.atTime now).world python float = server.world python float := by
  have same (key : String) : (server.atTime now).space.find key = server.space.find key := by
    cases present : server.space.keys key with
    | none => rw [find_absent present, @find_absent (server.atTime now).space key present]
    | some entry =>
      have alive (clock : ℕ) (early : clock < limit) :
          (entry.expiresAt.all fun time => clock < time) = true := by
        cases expires : entry.expiresAt with
        | none => rfl
        | some time => exact decide_eq_true (early.trans_le (outlasts.keys key entry present time expires))
      have present' : (server.atTime now).space.keys key = some entry := present
      rw [KeySpace.find, KeySpace.find, present', present]
      exact (if_pos (alive now within)).trans (if_pos (alive _ (later.trans_lt within))).symm
  have tasks : (server.atTime now).task python float = server.task python float :=
    funext fun taskId => task_congr (same _)
  have pointers : (server.atTime now).pointer = server.pointer := funext fun key => pointer_congr (same key)
  have artifacts : (server.atTime now).artifact = server.artifact := funext fun key => artifact_congr (same key)
  rw [Server.world, Server.world, tasks, pointers, artifacts]
  rfl

theorem Outlasts.put (outlasts : Outlasts limit server) {key : String} {entry : Option RedisKey}
    (expiry : ∀ found ∈ entry, ∀ time ∈ found.expiresAt, limit ≤ time) :
    Outlasts limit { server with space := server.space.put key entry } := by
  refine ⟨outlasts.set, fun key' found present => ?_⟩
  by_cases same : key' = key
  · subst same
    have stored : (server.space.put key' entry).keys key' = entry := Function.update_self ..
    exact expiry found (stored.symm.trans present)
  · exact outlasts.keys key' found ((keys_put_of_ne same entry).symm.trans present)

theorem Outlasts.after (outlasts : Outlasts limit server) (readings : Readings) (call : Call) :
    Outlasts limit (server.after float readings call) := by
  have pointer (key : String) (taskId : TaskId) :
      Outlasts limit { server with space := server.space.set key taskId (some pendingSeconds) } := by
    refine outlasts.put ?_
    rintro _ ⟨⟩ _ ⟨⟩
    exact outlasts.set
  rw [Server.after.eq_def]
  cases call with
  | hsetLogical key artifact =>
    simp only [KeySpace.hset]
    cases found : server.space.find key with
    | none =>
      refine outlasts.put ?_
      rintro _ ⟨⟩ _ ⟨⟩
    | some value =>
      obtain ⟨entry, present, rfl, _⟩ := find_some found
      cases entry.value with
      | string text => exact outlasts
      | hash fields =>
        refine outlasts.put ?_
        rintro _ ⟨⟩ time member
        rw [present] at member
        exact outlasts.keys key entry present time member
  | setPending key taskId => exact pointer key taskId
  | setPendingNx key taskId =>
    simp only
    split_ifs
    · exact pointer key taskId
    · exact outlasts
  | deletePending key =>
    refine outlasts.put ?_
    rintro _ ⟨⟩
  | setTask task =>
    simp only
    split_ifs
    · refine outlasts.put ?_
      rintro _ ⟨⟩ _ ⟨⟩
    · exact outlasts
  | _ => exact ⟨outlasts.set, outlasts.keys⟩

theorem Outlasts.served (outlasts : Outlasts limit server) {call : Call} {reply : calls.Reply call}
    (served : Server.Faulty python float call server reply server') : Outlasts limit server' := by
  rcases served with ⟨now, readings, outside, later, _, rfl⟩ | ⟨now, readings, error, later, _, _, rfl | rfl⟩
  · exact (outlasts.atTime later).after readings call
  · exact outlasts.atTime later
  · exact (outlasts.atTime later).after readings call

end Outlasts

/-! ### Runs -/

/-- The configuration with the maps that the service sees in the key space. -/
def mapped (python : Python) (float : FloatText Binary64) (config : ServerConfig) : ServiceConfig :=
  ⟨config.world.world python float, config.process⟩

section Runs

variable {settings : Settings} {uuid : ℕ → TaskId} {python : Python} {float : FloatText Binary64} {server : Server}
  {events : List ServiceEvent} {config : ServerConfig}

theorem start_maps (python : Python) {server' : Server} {label : Activity} (typed : WellTyped float server)
    (begins : Server.start server label server') :
    WellTyped float server' ∧ server'.space = server.space ∧
      Service.start (server.world python float) label (server'.world python float) := by
  obtain ⟨world, begins, rfl⟩ := begins
  refine ⟨⟨typed.task, typed.pointer, typed.artifact⟩, rfl, ?_⟩
  cases label with
  | request cikMapping payload =>
    obtain rfl : world = server.rest := begins
    rfl
  | handling cikMapping now entry fields =>
    obtain ⟨deliverable, rfl⟩ := begins
    exact ⟨deliverable, rfl⟩

/-- The world is what the key space holds. -/
def Holds (python : Python) (float : FloatText Binary64) (server : Server) (world : World) : Prop :=
  WellTyped float server ∧ world = server.world python float

theorem expiring_replaces : Replacement (keySpaceService settings uuid python float) (expiringService settings uuid)
    (Holds python float) (fun _ => True) Addressed where
  body := rfl
  protocol := rfl
  resumes := rfl
  only := body_addressed
  start := by
    rintro server server' _ label ⟨typed, rfl⟩ - begins
    obtain ⟨typed', _, begins'⟩ := start_maps python typed begins
    exact ⟨_, ⟨_, ⟨_, rfl, fun _ => .inl rfl⟩, begins'⟩, typed', rfl⟩
  serve := by
    rintro call reply server server' _ addressed ⟨typed, rfl⟩ - served
    obtain ⟨typed', now, later, _, served'⟩ := typed.served addressed served
    exact ⟨_, ⟨_, typed.forgets later, served'⟩, typed', rfl⟩

theorem lasting_replaces (limit : ℕ) :
    Replacement (keySpaceService settings uuid python float) (service settings uuid Faulty)
      (fun server world => Holds python float server world ∧ Outlasts limit server)
      (fun server => server.space.now < limit) Addressed where
  body := rfl
  protocol := rfl
  resumes := rfl
  only := body_addressed
  start := by
    rintro server server' _ label ⟨⟨typed, rfl⟩, outlasts⟩ - begins
    obtain ⟨typed', same, begins'⟩ := start_maps python typed begins
    refine ⟨_, begins', ⟨typed', rfl⟩, ⟨?_, ?_⟩⟩
    · rw [same]
      exact outlasts.set
    · rw [same]
      exact outlasts.keys
  serve := by
    rintro call reply server server' _ addressed ⟨⟨typed, rfl⟩, outlasts⟩ within served
    obtain ⟨typed', now, later, rfl, served'⟩ := typed.served addressed served
    rw [outlasts.still later within] at served'
    exact ⟨_, served', ⟨typed', rfl⟩, outlasts.served served⟩

theorem Holds.same {mirror : ServiceConfig} (holds : Holds python float config.world mirror.world)
    (processes : mirror.process = config.process) :
    mapped python float config = mirror := by
  obtain ⟨world, process⟩ := mirror
  obtain ⟨_, rfl⟩ := holds
  cases processes
  rfl

/-! A Redis without keys, with floats and texts of other values as Python has them for the documents of the
service. -/

abbrev sampleService : System calls Server Activity (Program calls Outcome) :=
  keySpaceService (Sample.settings 3) Sample.uuid (.sample [] .null) integralFloats

abbrev sampleMaps : ServerConfig → ServiceConfig := mapped (.sample [] .null) integralFloats

theorem empty_typed (now : ℕ) : WellTyped float (.empty now) :=
  ⟨by rintro _ _ ⟨⟩, by rintro _ _ _ ⟨⟩, by rintro _ _ _ ⟨⟩⟩

/-- A schedule of requests, in which no handling can overlap. -/
theorem played_requests {moves : List (Move Activity (ℕ × Outside))} {goal : ServerConfig → Prop}
    (plays : (keySpacePlayer (Sample.settings 3) Sample.uuid (.sample [] .null) integralFloats).Plays
      (fun config event => event.id < 2 ∧ NoOverlapBelow 2 (sampleMaps config) event = true) goal
      (.idle (.empty 0)) moves) :
    ∃ events config, Path (Guarded sampleService.Step fun config event => NoOverlap (sampleMaps config) event)
      (.idle (.empty 0)) events config ∧ goal config := by
  have apart : ∀ (config : ServerConfig) (event : ServiceEvent), (∀ id, 2 ≤ id → config.process id = none) →
      NoOverlapBelow 2 (sampleMaps config) event = true → NoOverlap (sampleMaps config) event :=
    fun config event above below => @NoOverlapBelow.noOverlap 2 (sampleMaps config) event above below
  obtain ⟨events, config, path, reached, _⟩ := plays.path
  exact ⟨events, config, System.bounded_run apart path, reached⟩

/-- The maps that a run over the key space is seen as. -/
theorem mapped_path {guard : ServiceConfig → ServiceEvent → Prop} (typed : WellTyped float server)
    (path : Path (Guarded (keySpaceService settings uuid python float).Step fun config event =>
      guard (mapped python float config) event) (.idle server) events config) :
    ∃ mirror, Path (Guarded (expiringService settings uuid).Step guard) (.idle (server.world python float)) events
      mirror ∧ WellTyped float config.world ∧ mapped python float config = mirror := by
  have begun : (Config.idle server : ServerConfig).Mirrors (Holds python float)
      (Config.idle (server.world python float)) := ⟨⟨typed, rfl⟩, rfl⟩
  obtain ⟨mirror, path', holds, processes⟩ := expiring_replaces.run
    (fun config mirror event mirrors met => mirrors.world.same mirrors.process ▸ met) path.in_any_scope begun
    (Replacement.only_idle server)
  exact ⟨mirror, path', holds.1, holds.same processes⟩

/-- Every run over the key space is a run over the maps, in which pointers may expire. -/
theorem keySpace_refines {guard : ServiceConfig → ServiceEvent → Prop} (typed : WellTyped float server)
    (path : Path (Guarded (keySpaceService settings uuid python float).Step fun config event =>
      guard (mapped python float config) event) (.idle server) events config) :
    WellTyped float config.world ∧
      Path (Guarded (expiringService settings uuid).Step guard) (.idle (server.world python float)) events
        (mapped python float config) := by
  obtain ⟨mirror, path', typed', same⟩ := mapped_path typed path
  exact ⟨typed', same ▸ path'⟩

/-- Two requests for one report, the second as the pointer of the first expires. -/
def afterExpiry : List (Move Activity (ℕ × Outside)) :=
  [.start 0 (Sample.request (some 2024))] ++ List.replicate 7 (.serve 0 (1, default)) ++
    [.start 1 (Sample.request (some 2024)), .serve 1 (sixHours, default)] ++
    List.replicate 6 (.serve 1 (1, default))

theorem expired_run : ∃ events config,
    Path (Guarded sampleService.Step fun config event => NoOverlap (sampleMaps config) event)
      (.idle (.empty 0)) events config ∧ config.world.stream.length = 2 := by
  have plays : (keySpacePlayer (Sample.settings 3) Sample.uuid (.sample [] .null) integralFloats).Plays
      (fun config event => event.id < 2 ∧ NoOverlapBelow 2 (sampleMaps config) event = true)
      (fun config => config.world.stream.length = 2) (.idle (.empty 0)) afterExpiry := by
    decide +kernel
  exact played_requests plays

theorem keySpace_refines_expired : ∃ events config,
    (Path (Guarded sampleService.Step fun config event => NoOverlap (sampleMaps config) event)
      (.idle (.empty 0)) events config ∧ config.world.stream.length = 2) ∧
    WellTyped integralFloats config.world ∧
    Path (Guarded (expiringService (Sample.settings 3) Sample.uuid).Step NoOverlap)
      (.idle (Server.world (.sample [] .null) integralFloats (.empty 0))) events (sampleMaps config) := by
  obtain ⟨events, config, path, twice⟩ := expired_run
  exact ⟨events, config, ⟨path, twice⟩, keySpace_refines (empty_typed 0) path⟩

/-- As long as no pointer that is there expires, every run of less than six hours is a run over the maps. -/
theorem keySpace_refines_within {guard : ServiceConfig → ServiceEvent → Prop} (typed : WellTyped float server)
    (outlasts : Outlasts (server.space.now + sixHours) server)
    (path : Path (Guarded (keySpaceService settings uuid python float).Step fun config event =>
      guard (mapped python float config) event) (.idle server) events config)
    (short : config.world.space.now < server.space.now + sixHours) :
    Path (Guarded (service settings uuid Faulty).Step guard) (.idle (server.world python float)) events
      (mapped python float config) := by
  have grows : ∀ (config : ServerConfig) (event : ServiceEvent) (config' : ServerConfig),
      Guarded (keySpaceService settings uuid python float).Step
        (fun config event => guard (mapped python float config) event) config event config' →
      config.world.space.now ≤ config'.world.space.now := by
    rintro config event config' ⟨_, step⟩
    cases step with
    | start absent begins =>
      obtain ⟨world, _, rfl⟩ := begins
      exact Nat.le_refl _
    | reply present alive moves served => exact served_later served
    | kill present alive => exact Nat.le_refl _
  have begun : (Config.idle server : ServerConfig).Mirrors
      (fun server' world => Holds python float server' world ∧ Outlasts (server.space.now + sixHours) server')
      (Config.idle (server.world python float)) := ⟨⟨⟨typed, rfl⟩, outlasts⟩, rfl⟩
  obtain ⟨mirror, path', ⟨holds, _⟩, processes⟩ := (lasting_replaces (server.space.now + sixHours)).run
    (fun config mirror event mirrors met => mirrors.world.1.same mirrors.process ▸ met)
    (Path.in_scope grows path short).1 begun (Replacement.only_idle server)
  rw [holds.same processes]
  exact path'

theorem keySpace_refines_within_request : ∃ events config,
    (Path (Guarded sampleService.Step fun config event => NoOverlap (sampleMaps config) event)
      (.idle (.empty 0)) events config ∧ config.world.stream.length = 1 ∧ config.world.space.now = 7) ∧
    Path (Guarded (service (Sample.settings 3) Sample.uuid Faulty).Step NoOverlap)
      (.idle (Server.world (.sample [] .null) integralFloats (.empty 0))) events (sampleMaps config) := by
  have plays : (keySpacePlayer (Sample.settings 3) Sample.uuid (.sample [] .null) integralFloats).Plays
      (fun config event => event.id < 2 ∧ NoOverlapBelow 2 (sampleMaps config) event = true)
      (fun config => config.world.stream.length = 1 ∧ config.world.space.now = 7) (.idle (.empty 0))
      ([.start 0 (Sample.request (some 2024))] ++ List.replicate 7 (.serve 0 (1, default))) := by
    decide +kernel
  obtain ⟨events, config, path, once, now⟩ := played_requests plays
  have outlasts : Outlasts ((Server.empty 0).space.now + sixHours) (.empty 0) :=
    ⟨Nat.le_refl _, by rintro _ _ ⟨⟩⟩
  refine ⟨events, config, ⟨path, once, now⟩, keySpace_refines_within (empty_typed 0) outlasts path ?_⟩
  rw [now]
  decide

/-! ### What expiry cannot break -/

theorem forgets_refl (world : World) : world.Forgets world := ⟨world.pending, rfl, fun _ => .inl rfl⟩

theorem AckInvariant.forgets {world drifted : World} {process : ℕ → Option Agent} (drifts : world.Forgets drifted)
    (invariant : AckInvariant uuid ⟨world, process⟩) : AckInvariant uuid ⟨drifted, process⟩ := by
  obtain ⟨pending, rfl, _⟩ := drifts
  refine ⟨invariant.keyed, invariant.entries, invariant.unused, fun id agent present => ?_, invariant.apart⟩
  have state := invariant.agents id agent present
  obtain ⟨label, control, log, killed⟩ := agent
  cases label with
  | request => exact state
  | handling cikMapping now entry fields =>
    obtain ⟨phase, taskId, own, standing, named, there, same, held, duty⟩ := state
    exact ⟨phase, taskId, own, standing, named, there, same, held, fun alive =>
      ⟨(duty alive).owes, (duty alive).settled, (duty alive).finished⟩⟩

theorem RemovalInvariant.forgets {world drifted : World} {process : ℕ → Option Agent}
    (drifts : world.Forgets drifted) (invariant : RemovalInvariant ⟨world, process⟩) :
    RemovalInvariant ⟨drifted, process⟩ := by
  obtain ⟨pending, rfl, _⟩ := drifts
  exact ⟨invariant.removed, invariant.agents⟩

/-- In every run over the key space, whatever the clock does to the pointers, a task that was enqueued and whose
text is not that of a finished task has an entry that is not acknowledged. -/
theorem keySpace_unacked (fresh : FreshIds uuid (server.world python float))
    (keyed : (server.world python float).Keyed) (typed : WellTyped float server) (empty : server.stream = [])
    (path : Path (Guarded (keySpaceService settings uuid python float).Step fun config event =>
      NoOverlap (mapped python float config) event) (.idle server) events config) :
    UnfinishedUnacked (config.world.world python float) := by
  have preserved : ∀ (config : ServiceConfig) (view : ServiceView) (event : ServiceEvent) (view' : ServiceView),
      Views settings uuid Faulty config view → NoOverlap config event →
        (outline settings uuid Faulty).Step view event view' → AckInvariant uuid view ∧ RemovalInvariant view →
          AckInvariant uuid view' ∧ RemovalInvariant view' := by
    rintro config view event view' views alone step ⟨invariant, removal⟩
    exact ⟨invariant.step fresh.injective fresh.nonempty views alone step, removal.step step⟩
  obtain ⟨mirror, path', -, rfl⟩ := mapped_path typed path
  obtain ⟨view, views, invariant, removal⟩ := service_refines.disturbed_invariant forgets_refl
    (fun world drifted process event drifts alone => alone)
    (fun world drifted process drifts invariant => ⟨invariant.1.forgets drifts, invariant.2.forgets drifts⟩)
    preserved path' ⟨.idle keyed empty, removalInvariant_idle _ empty⟩
  have same : config.world.world python float = view.world := views.world
  exact same ▸ invariant.unfinished removal

theorem keySpace_unacked_expired : ∃ events config,
    (Path (Guarded sampleService.Step fun config event => NoOverlap (sampleMaps config) event)
      (.idle (.empty 0)) events config ∧ config.world.stream.length = 2) ∧
    UnfinishedUnacked (config.world.world (.sample [] .null) integralFloats) := by
  obtain ⟨events, config, path, twice⟩ := expired_run
  have fresh : FreshIds Sample.uuid (Server.world (.sample [] .null) integralFloats (.empty 0)) :=
    ⟨Sample.uuid_fresh.injective, Sample.uuid_fresh.nonempty, fun _ => rfl⟩
  have keyed : (Server.world (.sample [] .null) integralFloats (.empty 0)).Keyed := by rintro _ _ ⟨⟩
  exact ⟨events, config, ⟨path, twice⟩, keySpace_unacked fresh keyed (empty_typed 0) rfl path⟩

theorem SuccessInvariant.forgets {world drifted : World} {process : ℕ → Option Agent}
    (drifts : world.Forgets drifted) (invariant : SuccessInvariant settings ⟨world, process⟩) :
    SuccessInvariant settings ⟨drifted, process⟩ := by
  obtain ⟨pending, rfl, _⟩ := drifts
  have keeps : Keeps world { world with pending } := fun _ _ stored => stored
  exact ⟨invariant.backed.kept keeps rfl rfl,
    fun id agent present phase control => (invariant.handlings id agent present phase control).kept keeps,
    invariant.unserved⟩

/-- In every run over the key space, whatever the clock does to the pointers, the text of a completed task and
the hash of a published artifact name a stored PDF of their own. -/
theorem keySpace_success_backed (typed : WellTyped float server)
    (initial : SuccessBacked settings (server.world python float))
    (run : Path (keySpaceService settings uuid python float).Step (.idle server) events config) :
    SuccessBacked settings (config.world.world python float) := by
  have preserved : ∀ (config : ServiceConfig) (view : ServiceView) (event : ServiceEvent) (view' : ServiceView),
      Views settings uuid Faulty config view → True → (outline settings uuid Faulty).Step view event view' →
        SuccessInvariant settings view → SuccessInvariant settings view' :=
    fun _ _ _ _ _ _ step invariant => invariant.step step
  have path : Path (Guarded (keySpaceService settings uuid python float).Step fun _ _ => True) (.idle server) events
      config := run.mono fun _ _ _ step => ⟨trivial, step⟩
  have lifted : ∃ mirror, Path (Guarded (expiringService settings uuid).Step fun _ _ => True)
      (.idle (server.world python float)) events mirror ∧ WellTyped float config.world ∧
      mapped python float config = mirror := mapped_path typed path
  obtain ⟨mirror, path', -, rfl⟩ := lifted
  obtain ⟨view, views, invariant⟩ := service_refines.disturbed_invariant forgets_refl
    (fun world drifted process event drifts met => met)
    (fun world drifted process drifts invariant => invariant.forgets drifts) preserved path'
    ⟨initial, fun _ _ present => Config.idle_absent present, fun _ _ present => Config.idle_absent present⟩
  have same : config.world.world python float = view.world := views.world
  exact same ▸ invariant.backed

/-- A request and the handling of its entry. -/
def requestedAndHandled : List (Move Activity (ℕ × Outside)) :=
  [.start 0 (Sample.request (some 2024))] ++ List.replicate 7 (.serve 0 (1, default)) ++
    [.start 1 (Sample.handling 0 0)] ++ List.replicate 21 (.serve 1 (1, Sample.outside))

theorem keySpace_success_backed_published : ∃ events config,
    (Path sampleService.Step (.idle (.empty 0)) events config ∧
      (config.world.artifact (logicalKey (Sample.identity 2024).logicalPath false)).isSome = true) ∧
    SuccessBacked (Sample.settings 3) (config.world.world (.sample [] .null) integralFloats) := by
  have plays : (keySpacePlayer (Sample.settings 3) Sample.uuid (.sample [] .null) integralFloats).Plays
      (fun _ _ => True)
      (fun config => (config.world.artifact (logicalKey (Sample.identity 2024).logicalPath false)).isSome = true)
      (.idle (.empty 0)) requestedAndHandled := by
    decide +kernel
  obtain ⟨events, config, path, published, _⟩ := plays.path
  have run : Path sampleService.Step (.idle (.empty 0)) events config := path.mono fun _ _ _ step => step.2
  have initial : SuccessBacked (Sample.settings 3) (Server.world (.sample [] .null) integralFloats (.empty 0)) := by
    refine ⟨by rintro _ _ ⟨⟩, fun key artifact present => ?_⟩
    have none : (Server.empty 0).artifact key = none := by
      rw [Server.artifact]
      split_ifs <;> rfl
    cases none.symm.trans present
  exact ⟨events, config, ⟨run, published⟩, keySpace_success_backed (empty_typed 0) initial run⟩

end Runs

end Quartr.Soundness
