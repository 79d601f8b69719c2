import Quartr.Data.JsonAscii
import Quartr.Model.ArtifactStore
import Quartr.Model.Logging
import Quartr.Soundness.TaskRecords

/-! # Documents are read as they were written

The metadata of an artifact and the log lines are JSON documents that are read back field for field, whatever
the texts in them are. No text breaks a log line in two.
-/

namespace Quartr.Soundness

open Quartr.Data.Json (FloatText Layout)
open Quartr.Machine Quartr.Model Quartr.Numeric
open Quartr.Model.Mapping (Json Exc Python)

/-! ### Files -/

theorem decode?_encode (text : String) : Mapping.decode? (Mapping.encode text) = some text := by
  have bytes : (⟨(Mapping.encode text).toArray⟩ : ByteArray) = text.toUTF8 := by
    rw [Mapping.encode, Array.toArray_toList]
  rw [Mapping.decode?, bytes, String.fromUTF8?]
  exact dif_pos text.isValidUTF8

/-- A file is read as the document that was written to it. -/
theorem python_loads_dumps (python : Python) {float : FloatText Binary64} {value : Json} (sound : value.Sound float)
    (layout : Layout) :
    (python.withJson float).loads (Mapping.encode (Mapping.dumps float layout value)) = .ok value := by
  rw [Python.withJson]
  simp only [decode?_encode]
  exact loads_dumps sound layout

/-- ASCII is encoded byte by byte. -/
theorem encode_ascii {text : List Char} (ascii : ∀ c ∈ text, c.toNat < 0x80) :
    Mapping.encode (String.ofList text) = text.map fun c => c.toNat.toUInt8 := by
  have bytes : text.flatMap String.utf8EncodeChar = text.map fun c => c.toNat.toUInt8 := by
    induction text with
    | nil => rfl
    | cons c text ih =>
      obtain ⟨first, rest⟩ := List.forall_mem_cons.mp ascii
      have small : c.val.toNat ≤ 0x7f := Nat.le_of_lt_succ first
      rw [List.flatMap_cons, List.map_cons, ih rest, String.utf8EncodeChar, if_pos small]
      rfl
  rw [Mapping.encode, String.toUTF8, String.toByteArray_ofList, List.utf8Encode, List.toList_data_toByteArray, bytes]

theorem ascii_of_allowed {width : ℕ} {c : Char} (allowed : Data.Json.Allowed (.indented width) c) :
    c.toNat < 0x80 := by
  have blank (depth : ℕ) (member : c ∈ (Layout.indented width).gap depth) : c.toNat < 0x80 := by
    rcases List.mem_cons.mp member with rfl | space
    · decide
    · rw [(List.mem_replicate.mp space).2]
      decide
  rcases allowed with ⟨_, small⟩ | ⟨depth, edge | gap⟩
  · omega
  · exact blank depth edge
  · exact blank depth gap

/-! ### Metadata -/

section Metadata

open ArtifactStore (metadataBytes)

/-- A dictionary of texts. -/
def textFields (fields : List (String × String)) : List (String × Json) :=
  fields.map fun field => (field.1, .str field.2)

variable {float : FloatText Binary64}

theorem sound_texts {fields : List (String × String)} (nodup : (fields.map Prod.fst).Nodup) :
    (Json.obj (textFields fields)).Sound float := by
  refine sound_object.mpr ⟨?_, ?_⟩
  · rw [textFields, List.map_map]
    exact nodup
  · exact List.forall_mem_map.mpr fun field _ => sound_text field.2

theorem jsonString_toList (text : String) : (Text.jsonString text).toList = Data.Json.writeString text :=
  String.toList_ofList

/-- The line of a field, without the separator. -/
def fieldLine (field : String × String) : String :=
  "  " ++ Text.jsonString field.1 ++ ": " ++ Text.jsonString field.2

theorem fieldLines_toList (float : FloatText Binary64) (first : String × String)
    (fields : List (String × String)) :
    (",\n".intercalate ((first :: fields).map fieldLine)).toList =
      ' ' :: ' ' :: Data.Json.writeFields float (.indented 2) 1 (Json.toFields (textFields (first :: fields))) := by
  have line (field : String × String) : (fieldLine field).toList =
      ' ' :: ' ' :: (Data.Json.writeString field.1 ++ [':', ' '] ++ Data.Json.writeString field.2) := by
    simp [fieldLine, jsonString_toList]
  induction fields generalizing first with
  | nil =>
    have single : ",\n".intercalate ([first].map fieldLine) = fieldLine first := rfl
    rw [single, line]
    simp [textFields, Json.toFields, Json.toValue, Data.Json.writeFields, Data.Json.write]
  | cons second fields ih =>
    have several : ",\n".intercalate ((first :: second :: fields).map fieldLine) =
        fieldLine first ++ ",\n" ++ ",\n".intercalate ((second :: fields).map fieldLine) :=
      String.intercalate_cons_cons
    rw [several, String.toList_append, String.toList_append, line, ih]
    simp [textFields, Json.toFields, Json.toValue, Data.Json.writeFields, Data.Json.write, Layout.gap]

/-- The texts of a dictionary are written as any document is. -/
theorem jsonObject_eq (float : FloatText Binary64) {fields : List (String × String)} (some' : fields ≠ [])
    (nodup : (fields.map Prod.fst).Nodup) :
    Text.jsonObject fields = Mapping.encode (Mapping.dumps float (.indented 2) (.obj (textFields fields))) := by
  obtain ⟨first, rest, rfl⟩ := List.exists_cons_of_ne_nil some'
  have body := fieldLines_toList float first rest
  have written : Data.Json.write float (.indented 2) 0 (Json.obj (textFields (first :: rest))).toValue =
      ("\x7b\n" ++ ",\n".intercalate ((first :: rest).map fieldLine) ++ "\n\x7d").toList := by
    rw [String.toList_append, String.toList_append, body, Json.toValue, Data.Json.write, if_neg]
    · simp [Layout.edge]
    · simp [textFields, Json.toFields]
  have ascii : ∀ c ∈ Data.Json.write float (.indented 2) 0 (Json.obj (textFields (first :: rest))).toValue,
      c.toNat < 0x80 := fun c member =>
    ascii_of_allowed (Data.Json.allowed_write float (.indented 2) 0 _ (sound_texts nodup).1 c member)
  rw [Mapping.dumps, encode_ascii ascii, written]
  rfl

/-- The metadata of an artifact as a document. -/
def metadataDocument (metadata : PdfMetadata) : Json :=
  .obj
    [("ticker", .str metadata.ticker), ("company_name", .str metadata.companyName), ("cik", .str metadata.cik),
      ("form", .str metadata.form), ("filing_date", .str metadata.filingDate),
      ("accession_number", .str metadata.accessionNumber),
      ("primary_document", .str metadata.primaryDocument), ("source_url", .str metadata.sourceUrl),
      ("generation_timestamp", .str metadata.generationTimestamp)]

/-- The metadata of an artifact are read from their file as they are, whatever their texts hold. -/
theorem metadata_loads (python : Python) (float : FloatText Binary64) (metadata : PdfMetadata) :
    (python.withJson float).loads (metadataBytes metadata) = .ok (metadataDocument metadata) := by
  rw [metadataBytes, jsonObject_eq float (List.cons_ne_nil _ _) (by simp)]
  exact python_loads_dumps python (sound_texts (by simp)) _

end Metadata

/-! ### Log lines -/

section Log

open JsonFormatter (attribute? context payload format output)

variable {float : FloatText Binary64}

/-- What can be logged: every attribute can be written. -/
structure Loggable (float : FloatText Binary64) (timestamp : Binary64) (record : LogRecord) : Prop where
  representable : float.representable timestamp
  extra : ∀ key ∈ context, (record.extra key).Sound float

theorem attribute?_some {record : LogRecord} {key : String} {field : String × Json}
    (found : attribute? record key = some field) : field = (key, record.extra key) := by
  unfold attribute? at found
  cases value : record.extra key <;> rw [value] at found <;> cases found <;> rfl

theorem keys_attributes (record : LogRecord) (keys : List String) :
    ((keys.filterMap (attribute? record)).map Prod.fst).Sublist keys := by
  induction keys with
  | nil => exact .slnil
  | cons key keys ih =>
    rw [List.filterMap_cons]
    cases found : attribute? record key with
    | none => exact ih.cons key
    | some field =>
      rw [attribute?_some found]
      exact ih.cons_cons key

/-- No key of the document stands twice. -/
theorem payload_nodup (timestamp : Binary64) (record : LogRecord) :
    ((payload timestamp record).map Prod.fst).Nodup := by
  have all : (["timestamp", "level", "logger", "message"] ++ context ++ ["exc_info"]).Nodup := by decide
  refine all.sublist ?_
  rw [payload, List.map_append, List.map_append]
  refine ((List.Sublist.refl _).append (keys_attributes record context)).append ?_
  cases record.exception with
  | none => exact List.nil_sublist _
  | some text => exact List.Sublist.refl _

theorem payload_sound {timestamp : Binary64} {record : LogRecord} (loggable : Loggable float timestamp record) :
    (Json.obj (payload timestamp record)).Sound float := by
  refine sound_object.mpr ⟨payload_nodup timestamp record, ?_⟩
  intro field member
  rw [payload, List.mem_append, List.mem_append] at member
  rcases member with (fixed | given) | raised
  · simp only [List.mem_cons, List.not_mem_nil, or_false] at fixed
    rcases fixed with rfl | rfl | rfl | rfl
    · exact ⟨loggable.representable, trivial⟩
    all_goals exact sound_text _
  · obtain ⟨key, listed, found⟩ := List.mem_filterMap.mp given
    rw [attribute?_some found]
    exact loggable.extra key listed
  · obtain ⟨text, -, rfl⟩ := Option.map_eq_some_iff.mp (Option.mem_toList.mp raised)
    exact sound_text text

theorem format_toList (timestamp : Binary64) (record : LogRecord) :
    (format float timestamp record).toList =
      Data.Json.write float .compact 0 (Json.obj (payload timestamp record)).toValue :=
  String.toList_ofList

theorem printable_format {timestamp : Binary64} {record : LogRecord} (loggable : Loggable float timestamp record) :
    ∀ c ∈ (format float timestamp record).toList, Data.Json.Printable c := by
  rw [format_toList]
  exact Data.Json.printable_write float (payload_sound loggable).1 0

theorem lines_output {records : List (Binary64 × LogRecord)}
    (loggable : ∀ record ∈ records, Loggable float record.1 record.2) :
    (output float records).splitOn '\n' =
      records.map (fun record => (format float record.1 record.2).toList) ++ [[]] := by
  induction records with
  | nil => rfl
  | cons record records ih =>
    obtain ⟨first, rest⟩ := List.forall_mem_cons.mp loggable
    have oneLine : '\n' ∉ (format float record.1 record.2).toList := by
      intro member
      have bounds := printable_format first '\n' member
      exact absurd bounds (by decide)
    rw [output, List.flatMap_cons, List.append_assoc, List.singleton_append,
      List.splitOn_append_cons_self_of_not_mem oneLine]
    exact congrArg (List.cons _) (ih rest)

/-- What a reader of the log makes of it: one document for each line. -/
def readLog (float : FloatText Binary64) (log : List Char) : Except Exc (List Json) :=
  (log.splitOn '\n').dropLast.mapM fun line => Mapping.loads float (String.ofList line)

/-- A log is read as the records that were written to it, one line each, whatever their texts hold. -/
theorem log_reads {records : List (Binary64 × LogRecord)}
    (loggable : ∀ record ∈ records, Loggable float record.1 record.2) :
    readLog float (output float records) = .ok (records.map fun record => .obj (payload record.1 record.2)) ∧
      ∀ c ∈ output float records, Data.Json.Printable c ∨ c = '\n' := by
  constructor
  · rw [readLog, lines_output loggable, List.dropLast_concat]
    induction records with
    | nil => rfl
    | cons record records ih =>
      obtain ⟨first, rest⟩ := List.forall_mem_cons.mp loggable
      rw [List.map_cons, List.mapM_cons, String.ofList_toList, format, loads_dumps (payload_sound first), ih rest]
      rfl
  · intro c member
    obtain ⟨record, listed, member⟩ := List.mem_flatMap.mp member
    rcases List.mem_append.mp member with text | newline
    · exact .inl (printable_format (loggable record listed) c text)
    · exact .inr (List.mem_singleton.mp newline)

/-- A failure whose text has two lines. -/
def failureRecord : LogRecord where
  levelname := "ERROR"
  name := "app.workers.worker"
  message := "conversion \"failed\":\nτέλος"
  extra key := if key = "task_id" then .str "0b1c" else .null
  exception := some "Traceback\nRuntimeError"

theorem loggable_failureRecord : Loggable integralFloats (.ofRat 7) failureRecord where
  representable := integralFloats.representable_read ⟨['7'], [], []⟩
  extra key _ := by
    change Json.Sound integralFloats (if key = "task_id" then .str "0b1c" else .null)
    split_ifs
    · exact sound_text _
    · exact sound_absent

theorem log_reads_failure :
    readLog integralFloats (output integralFloats [(.ofRat 7, failureRecord), (.ofRat 7, failureRecord)]) =
        .ok [.obj (payload (.ofRat 7) failureRecord), .obj (payload (.ofRat 7) failureRecord)] ∧
      ∀ c ∈ output integralFloats [(.ofRat 7, failureRecord), (.ofRat 7, failureRecord)], Data.Json.Printable c ∨ c = '\n' :=
  log_reads (List.forall_mem_cons.mpr ⟨loggable_failureRecord, List.forall_mem_singleton.mpr loggable_failureRecord⟩)

end Log

end Quartr.Soundness
