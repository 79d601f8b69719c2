import Quartr.Machine.Program
import Quartr.Model.Submissions

/-! # The shared world and the calls on it

The processes share Redis (task records, dedup pointers, current artifacts, the work stream) and
the artifact directory tree; SEC and the PDF renderer answer from outside. Each constructor of
`Call` is one Redis command, one request or one file operation, so a call is the unit of
interleaving. The three key families have distinct prefixes, so each is a map of its own, and a
record is stored under its own id. The pointers do not expire here; in the key space they do.

The stream keeps every entry ever added, with its delivery status and a deletion mark: what a
consumer group forgets is what the statements about lost messages need.
-/

namespace Quartr.Model

open Quartr.Machine

inductive EntryStatus where
  | waiting
  | pending
  | acked
deriving DecidableEq, Repr

/-- A stream entry; its id is its position. -/
structure Entry where
  fields : List (String × String)
  status : EntryStatus
  deleted : Bool
deriving DecidableEq, Repr

/-- The task an entry's fields name: `fields.get("task_id")`. -/
def fieldsTaskId (fields : List (String × String)) : Option TaskId := fields.lookup "task_id"

def Entry.new (taskId : TaskId) : Entry := ⟨[("task_id", taskId)], .waiting, false⟩

/-- Delivery to a consumer, first or repeated. -/
def Entry.deliver (entry : Entry) : Entry :=
  if entry.status = .waiting then { entry with status := .pending } else entry

/-- XACK affects delivered entries only. -/
def Entry.ack (entry : Entry) : Entry :=
  if entry.status = .pending then { entry with status := .acked } else entry

def Entry.delete (entry : Entry) : Entry := { entry with deleted := true }

/-- Names refer to files, descriptors to the file itself, so a rename does not disturb a
descriptor that is already open. -/
structure FileSystem where
  file : String → Option ℕ
  content : ℕ → Bytes
  nextFile : ℕ

namespace FileSystem

/-- The bytes a name currently refers to. -/
def read (files : FileSystem) (path : String) : Option Bytes :=
  (files.file path).map files.content

/-- The descriptor `open(path, "wb")` returns: the file of that name, or a new one. -/
def descriptor (files : FileSystem) (path : String) : ℕ :=
  (files.file path).getD files.nextFile

def openTruncate (files : FileSystem) (path : String) : FileSystem :=
  match files.file path with
  | some file => { files with content := Function.update files.content file [] }
  | none =>
    { file := Function.update files.file path (some files.nextFile)
      content := Function.update files.content files.nextFile []
      nextFile := files.nextFile + 1 }

/-- One write at the start of the file; a longer old content keeps its tail. -/
def write (files : FileSystem) (descriptor : ℕ) (data : Bytes) : FileSystem :=
  { files with
    content := Function.update files.content descriptor
      (data ++ (files.content descriptor).drop data.length) }

/-- `os.replace`; nothing happens when the source is missing. -/
def replace (files : FileSystem) (source target : String) : FileSystem :=
  match files.file source with
  | none => files
  | some file =>
    { files with file := Function.update (Function.update files.file source none) target (some file) }

end FileSystem

structure World where
  tasks : TaskId → Option ReportTask
  pending : String → Option TaskId
  logical : String → Option CurrentArtifact
  stream : List Entry
  files : FileSystem

structure Document where
  content : Bytes
  contentType : Option String

inductive Call where
  | hgetallLogical (key : String)
  | hsetLogical (key : String) (artifact : CurrentArtifact)
  | getPending (key : String)
  | setPending (key : String) (taskId : TaskId)
  | setPendingNx (key : String) (taskId : TaskId)
  | deletePending (key : String)
  | getTask (taskId : TaskId)
  | setTask (task : ReportTask)
  | xlen
  | xadd (taskId : TaskId)
  | xack (entry : ℕ)
  | xdel (entry : ℕ)
  | getSubmissions (cik : String)
  | downloadDocument (url : String)
  | convertToPdf (content : Bytes) (contentType : String) (metadata : PdfMetadata)
  | pathExists (path : String)
  | makedirs (path : String)
  | openTruncate (path : String)
  | writeFile (descriptor : ℕ) (data : Bytes)
  | replace (source target : String)

/-- What a successful call answers; `none` from SEC is a body that is no JSON object. -/
@[reducible] def Call.Answer : Call → Type
  | .hgetallLogical _ => Option CurrentArtifact
  | .getPending _ => Option TaskId
  | .setPendingNx _ _ => Bool
  | .getTask _ => Option ReportTask
  | .xlen => ℕ
  | .getSubmissions _ => Option SubmissionsPayload
  | .downloadDocument _ => Document
  | .convertToPdf _ _ _ => Bytes
  | .pathExists _ => Bool
  | .openTruncate _ => ℕ
  | _ => Unit

abbrev calls : Signature := ⟨Call, Call.Answer, CallError⟩

/-- What answers from outside the world. -/
structure Outside where
  submissions : String → Except CallError (Option SubmissionsPayload)
  document : String → Except CallError Document
  pdf : Bytes → String → PdfMetadata → Except CallError Bytes

instance : Inhabited Outside :=
  ⟨⟨fun _ => .ok none, fun _ => .ok ⟨[], none⟩, fun _ _ _ => .ok []⟩⟩

namespace World

/-- XLEN: every entry that has not been deleted. -/
def depth (world : World) : ℕ := (world.stream.filter fun entry => !entry.deleted).length

/-- The reply to a call that takes effect. -/
def reply (outside : Outside) (world : World) : (call : Call) → calls.Reply call
  | .hgetallLogical key => .ok (world.logical key)
  | .hsetLogical _ _ => .ok ()
  | .getPending key => .ok (world.pending key)
  | .setPending _ _ => .ok ()
  | .setPendingNx key _ => .ok (world.pending key).isNone
  | .deletePending _ => .ok ()
  | .getTask taskId => .ok (world.tasks taskId)
  | .setTask _ => .ok ()
  | .xlen => .ok world.depth
  | .xadd _ => .ok ()
  | .xack _ => .ok ()
  | .xdel _ => .ok ()
  | .getSubmissions cik => outside.submissions cik
  | .downloadDocument url => outside.document url
  | .convertToPdf content contentType metadata => outside.pdf content contentType metadata
  | .pathExists path => .ok (world.files.file path).isSome
  | .makedirs _ => .ok ()
  | .openTruncate path => .ok (world.files.descriptor path)
  | .writeFile _ _ => .ok ()
  | .replace source _ =>
    if (world.files.file source).isSome then .ok () else .error (.other "FileNotFoundError")

/-- The world once a call has taken effect. -/
def after (world : World) : Call → World
  | .hsetLogical key artifact =>
    { world with logical := Function.update world.logical key (some artifact) }
  | .setPending key taskId =>
    { world with pending := Function.update world.pending key (some taskId) }
  | .setPendingNx key taskId =>
    { world with
      pending := if (world.pending key).isNone then Function.update world.pending key (some taskId)
        else world.pending }
  | .deletePending key => { world with pending := Function.update world.pending key none }
  | .setTask task => { world with tasks := Function.update world.tasks task.taskId (some task) }
  | .xadd taskId => { world with stream := world.stream ++ [Entry.new taskId] }
  | .xack entry => { world with stream := world.stream.modify entry Entry.ack }
  | .xdel entry => { world with stream := world.stream.modify entry Entry.delete }
  | .openTruncate path => { world with files := world.files.openTruncate path }
  | .writeFile descriptor data => { world with files := world.files.write descriptor data }
  | .replace source target => { world with files := world.files.replace source target }
  | _ => world

/-- A call of a party that is alone with the world: it takes effect. -/
def answer (outside : Outside) (call : Call) (world : World) : calls.Reply call × World :=
  (world.reply outside call, world.after call)

variable (world : World) (call : Call)

/-! Each part of the world is changed by the calls on it alone. -/

theorem after_tasks : (world.after call).tasks =
    match call with
    | .setTask task => Function.update world.tasks task.taskId (some task)
    | _ => world.tasks := by
  cases call <;> rfl

theorem after_pending : (world.after call).pending =
    match call with
    | .setPending key taskId => Function.update world.pending key (some taskId)
    | .setPendingNx key taskId =>
      if (world.pending key).isNone then Function.update world.pending key (some taskId)
      else world.pending
    | .deletePending key => Function.update world.pending key none
    | _ => world.pending := by
  cases call <;> rfl

theorem after_logical : (world.after call).logical =
    match call with
    | .hsetLogical key artifact => Function.update world.logical key (some artifact)
    | _ => world.logical := by
  cases call <;> rfl

theorem after_stream : (world.after call).stream =
    match call with
    | .xadd taskId => world.stream ++ [Entry.new taskId]
    | .xack entry => world.stream.modify entry Entry.ack
    | .xdel entry => world.stream.modify entry Entry.delete
    | _ => world.stream := by
  cases call <;> rfl

theorem after_files : (world.after call).files =
    match call with
    | .openTruncate path => world.files.openTruncate path
    | .writeFile descriptor data => world.files.write descriptor data
    | .replace source target => world.files.replace source target
    | _ => world.files := by
  cases call <;> rfl

end World

/-- The errors of a failing Redis command or file operation. -/
def CallError.IsFault : CallError → Prop
  | .response _ => True
  | .other _ => True
  | _ => False

/-- Every Redis command and file operation takes effect; SEC and the renderer answer anything. -/
def Reliable (call : Call) (world : World) (reply : calls.Reply call) (world' : World) : Prop :=
  (∃ outside, reply = world.reply outside call) ∧ world' = world.after call

theorem World.reliable (outside : Outside) (call : Call) (world : World) :
    Reliable call world (world.reply outside call) (world.after call) :=
  ⟨⟨outside, rfl⟩, rfl⟩

/-- In addition any command or file operation may raise, with or without having taken effect. -/
def Faulty (call : Call) (world : World) (reply : calls.Reply call) (world' : World) : Prop :=
  Reliable call world reply world' ∨
    ∃ error, CallError.IsFault error ∧ reply = .error error ∧
      (world' = world ∨ world' = world.after call)

/-- The commands on Redis. -/
def Call.Redis : Call → Prop
  | .getSubmissions _ => False
  | .downloadDocument _ => False
  | .convertToPdf _ _ _ => False
  | .pathExists _ => False
  | .makedirs _ => False
  | .openTruncate _ => False
  | .writeFile _ _ => False
  | .replace _ _ => False
  | _ => True

/-- Every Redis command takes effect, and the queue may be reported as deep as one likes; SEC, the
renderer and the disk answer or raise anything, with or without effect. -/
inductive Steady : (call : Call) → World → calls.Reply call → World → Prop
  | effective {call : Call} {world world' : World} {reply : calls.Reply call}
      (served : Reliable call world reply world') : Steady call world reply world'
  | depth (world : World) (depth : ℕ) : Steady .xlen world (.ok depth) world
  | raised {call : Call} {world world' : World} (outside : ¬ call.Redis) (error : CallError)
      (effect : world' = world ∨ world' = world.after call) : Steady call world (.error error) world'

end Quartr.Model
