import Quartr.Machine.Worlds
import Quartr.Model.Service
import Quartr.Model.TaskRecord

/-! # The key space of Redis

What the repository keeps as Redis has it: one space of keys, each with a text or a hash and perhaps a time at
which it expires. A task is the text of its document, a dedup pointer is a text that expires after six hours, a
current artifact is a hash. `Server` is the world of the service over this space, and `Server.world` reads off
it the maps that `World` has.
-/

namespace Quartr.Model

open Quartr.Data (Dict)
open Quartr.Data.Json (FloatText digitLimit)
open Quartr.Machine
open Quartr.Model.Mapping (Json Python)
open Quartr.Numeric

inductive RedisValue where
  | string (text : String)
  | hash (fields : Dict String String)

/-- A value, and when it expires if it does. -/
structure RedisKey where
  value : RedisValue
  expiresAt : Option ℕ

/-- The keys and the clock of the server, in milliseconds. -/
structure KeySpace where
  now : ℕ
  keys : String → Option RedisKey

namespace KeySpace

variable (space : KeySpace)

/-- The value of a key that has not expired. -/
def find (key : String) : Option RedisValue :=
  (space.keys key).bind fun entry =>
    if entry.expiresAt.all fun time => space.now < time then some entry.value else none

def wrongType : CallError := .response "WRONGTYPE Operation against a key holding the wrong kind of value"

/-- GET. -/
def get (key : String) : Except CallError (Option String) :=
  match space.find key with
  | none => .ok none
  | some (.string text) => .ok (some text)
  | some (.hash _) => .error wrongType

def put (key : String) (entry : Option RedisKey) : KeySpace :=
  { space with keys := Function.update space.keys key entry }

/-- SET, which replaces a value of any kind, with EX if seconds are given. -/
def set (key text : String) (seconds : Option ℕ) : KeySpace :=
  space.put key (some ⟨.string text, seconds.map fun seconds => space.now + seconds * 1000⟩)

/-- DEL. -/
def delete (key : String) : KeySpace := space.put key none

/-- HGETALL. -/
def hgetall (key : String) : Except CallError (Dict String String) :=
  match space.find key with
  | none => .ok .empty
  | some (.string _) => .error wrongType
  | some (.hash fields) => .ok fields

/-- HSET: the fields are set in the hash that is there, which keeps its time. -/
def hset (key : String) (fields : List (String × String)) : Except CallError KeySpace :=
  match space.find key with
  | none => .ok (space.put key (some ⟨.hash (.ofEntries fields), none⟩))
  | some (.string _) => .error wrongType
  | some (.hash before) =>
    .ok (space.put key (some ⟨.hash (before.fill fields), (space.keys key).bind RedisKey.expiresAt⟩))

end KeySpace

/-! ### Records as texts and hashes -/

/-- `_task_key`. -/
def taskKey (taskId : TaskId) : String := "report:task:" ++ taskId

def text? : Json → Option String
  | .str text => some text
  | _ => none

def optionalText? : Json → Option (Option String)
  | .null => some none
  | .str text => some (some text)
  | _ => none

def IdentityRecord.identity? (record : IdentityRecord) : Option ReportIdentity := do
  let .int year := record.year | none
  let quarter ← optionalText? record.quarter
  return ⟨record.ticker, record.form, year, quarter, record.ticker_matches, record.form_matches⟩

def FilingFields.filing? (record : FilingFields) : Option FilingIdentity := do
  return ⟨← text? record.cik, ← text? record.accessionNumber, ← text? record.primaryDocument,
    ← text? record.filingDate, ← text? record.sourceUrl⟩

def FilingSlot.filing? : FilingSlot → Option (Option FilingIdentity)
  | .absent .null _ => some none
  | .absent _ _ => none
  | .filing record => record.filing?.map some

/-- The task of the service that the record is, if its fields have the shapes the service gives them. -/
def TaskRecord.task? (record : TaskRecord) : Option ReportTask := do
  let taskId ← text? record.taskId
  let identity ← record.identity.identity?
  let .bool includeAmended := record.includeAmended | none
  let filing ← record.filing.filing?
  let artifactPath ← optionalText? record.artifactPath
  let error ← optionalText? record.error
  let .int (.ofNat attempts) := record.attempts | none
  return ⟨taskId, identity, record.state, includeAmended, filing, artifactPath, error, attempts⟩

/-- `json.dumps` writes the integers of the task. -/
def ReportTask.Storable (task : ReportTask) : Prop :=
  (Nat.toDigits 10 task.identity.year.natAbs).length ≤ digitLimit ∧
    (Nat.toDigits 10 task.attempts).length ≤ digitLimit

instance (task : ReportTask) : Decidable task.Storable := inferInstanceAs (Decidable (_ ∧ _))

/-- The artifact in a hash. All three fields are set at once; a hash with some of them is outside of the model. -/
def CurrentArtifact.ofHash? (fields : Dict String String) : Option CurrentArtifact := do
  return ⟨← fields.get? "accession_number", ← fields.get? "artifact_path", ← fields.get? "cik"⟩

/-- The fields that `publish_artifact` sets. -/
def CurrentArtifact.fields (artifact : CurrentArtifact) (updatedAt : String) : List (String × String) :=
  [("accession_number", artifact.accessionNumber), ("artifact_path", artifact.artifactPath),
    ("cik", artifact.cik), ("updated_at", updatedAt)]

/-- The readings of clocks that go into what is stored. -/
structure Readings where
  createdAt : String
  updatedAt : String
  publishedAt : String
deriving Inhabited

section Load

variable (python : Python) (float : FloatText Binary64)

/-- `ReportTask.from_json(raw) if raw else None`. A text that no task of the service is saved as raises. -/
def loadTask (now : String) : Option String → Except CallError (Option ReportTask)
  | none => .ok none
  | some raw =>
    if raw = "" then .ok none
    else
      match TaskRecord.fromJson python float now raw with
      | .error _ => .error (.other raw)
      | .ok record =>
        match record.task? with
        | none => .error (.other raw)
        | some task => .ok (some task)

end Load

/-! ### The server -/

/-- The world of the service with the key space in place of the maps. -/
structure Server where
  space : KeySpace
  stream : List Entry
  files : FileSystem

/-- The prefixes of the keys that are no task's. -/
def pendingPrefix : String := "report:pending:"

def logicalPrefix : String := "report:logical:"

def HasPrefix (start key : String) : Prop := start.toList <+: key.toList

instance (start key : String) : Decidable (HasPrefix start key) := inferInstanceAs (Decidable (_ <+: _))

/-- Pointers are set with EX 6 * 60 * 60. -/
def pendingSeconds : ℕ := 6 * 60 * 60

namespace Server

variable (python : Python) (float : FloatText Binary64) (server : Server)

def tooLong : CallError := .other "Exceeds the limit (4300 digits) for integer string conversion"

/-- The stream and the files are served as those of a `World`. -/
def rest : World := ⟨fun _ => none, fun _ => none, fun _ => none, server.stream, server.files⟩

/-- The reply to a call that takes effect. -/
def reply (readings : Readings) (outside : Outside) : (call : Call) → calls.Reply call
  | .hgetallLogical key => (server.space.hgetall key).map CurrentArtifact.ofHash?
  | .hsetLogical key artifact => (server.space.hset key (artifact.fields readings.publishedAt)).map fun _ => ()
  | .getPending key => server.space.get key
  | .setPending _ _ => .ok ()
  | .setPendingNx key _ => .ok (server.space.find key).isNone
  | .deletePending _ => .ok ()
  | .getTask taskId => (server.space.get (taskKey taskId)).bind (loadTask python float readings.updatedAt)
  | .setTask task => if task.Storable then .ok () else .error tooLong
  | call => server.rest.reply outside call

/-- The server once a call has taken effect. -/
def after (readings : Readings) : Call → Server
  | .hgetallLogical _ => server
  | .hsetLogical key artifact =>
    match server.space.hset key (artifact.fields readings.publishedAt) with
    | .error _ => server
    | .ok space => { server with space }
  | .getPending _ => server
  | .setPending key taskId => { server with space := server.space.set key taskId (some pendingSeconds) }
  | .setPendingNx key taskId =>
    if (server.space.find key).isNone then
      { server with space := server.space.set key taskId (some pendingSeconds) }
    else server
  | .deletePending key => { server with space := server.space.delete key }
  | .getTask _ => server
  | .setTask task =>
    if task.Storable then
      let raw := (task.record readings.createdAt readings.updatedAt).toJson float
      { server with space := server.space.set (taskKey task.taskId) raw none }
    else server
  | call => { server with stream := (server.rest.after call).stream, files := (server.rest.after call).files }

/-- The same server at another time. -/
def atTime (now : ℕ) : Server := { server with space := { server.space with now } }

/-- Time passes, and the call takes effect. -/
def Reliable (call : Call) (server : Server) (reply : calls.Reply call) (server' : Server) : Prop :=
  ∃ now readings outside, server.space.now ≤ now ∧
    reply = (server.atTime now).reply python float readings outside call ∧
    server' = (server.atTime now).after float readings call

/-- In addition any command or file operation may raise, with or without having taken effect. -/
def Faulty (call : Call) (server : Server) (reply : calls.Reply call) (server' : Server) : Prop :=
  Server.Reliable python float call server reply server' ∨
    ∃ now readings error, server.space.now ≤ now ∧ CallError.IsFault error ∧ reply = .error error ∧
      (server' = server.atTime now ∨ server' = (server.atTime now).after float readings call)

/-- An activity begins as over a `World`. -/
def start (server : Server) (activity : Activity) (server' : Server) : Prop :=
  ∃ world, Service.start server.rest activity world ∧
    server' = { server with stream := world.stream, files := world.files }

/-! The maps that the service sees in the key space. -/

def task (taskId : TaskId) : Option ReportTask :=
  ((server.space.get (taskKey taskId)).bind (loadTask python float "")).toOption.join

def pointer (key : String) : Option TaskId :=
  if HasPrefix pendingPrefix key then (server.space.get key).toOption.join else none

def artifact (key : String) : Option CurrentArtifact :=
  if HasPrefix logicalPrefix key then ((server.space.hgetall key).map CurrentArtifact.ofHash?).toOption.join else none

def world : World :=
  ⟨server.task python float, server.pointer, server.artifact, server.stream, server.files⟩

/-- Nothing stored yet. -/
def empty (now : ℕ) : Server := ⟨⟨now, fun _ => none⟩, [], ⟨fun _ => none, fun _ => [], 0⟩⟩

end Server

/-- The service over the key space. -/
def keySpaceService (settings : Settings) (uuid : ℕ → TaskId) (python : Python) (float : FloatText Binary64) :
    System calls Server Activity (Program calls Outcome) :=
  System.ofBodies (Service.body settings uuid) Server.start (Server.Faulty python float)

/-- Some of the pointers are gone. -/
def World.Forgets (world world' : World) : Prop :=
  ∃ pending, world' = { world with pending } ∧ ∀ key, pending key = world.pending key ∨ pending key = none

/-- The service over maps, with pointers that may expire before every step. -/
def expiringService (settings : Settings) (uuid : ℕ → TaskId) :
    System calls World Activity (Program calls Outcome) :=
  (service settings uuid Faulty).disturbed World.Forgets

abbrev ServerConfig := Config calls Server Activity (Program calls Outcome)

/-- Schedules in which every command takes effect; a choice says how much time passes before it. -/
def keySpacePlayer (settings : Settings) (uuid : ℕ → TaskId) (python : Python) (float : FloatText Binary64) :
    Player (keySpaceService settings uuid python float) (ℕ × Outside) where
  begin? server activity := (Service.begin? server.rest activity).map fun world =>
    { server with stream := world.stream, files := world.files }
  answer choice call server :=
    let server := server.atTime (server.space.now + choice.1)
    (server.reply python float default choice.2 call, server.after float default call)
  resumes := rfl
  begins server activity server' begins := by
    obtain ⟨world, begun, rfl⟩ := Option.map_eq_some_iff.mp begins
    exact ⟨world, Service.begin?_start server.rest activity world begun, rfl⟩
  serves choice call server :=
    .inl ⟨server.space.now + choice.1, default, choice.2, Nat.le_add_right .., rfl, rfl⟩

end Quartr.Model
