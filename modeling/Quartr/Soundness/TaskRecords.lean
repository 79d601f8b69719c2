import Quartr.Machine.Solo
import Quartr.Model.TaskRecord
import Quartr.Soundness.Refs

/-! # Stored tasks are loaded as they were saved

Saving a task and loading it gives the task back, whatever its fields hold. What was loaded from any text at
all can be saved and is then loaded as the same task.
-/

namespace Quartr.Soundness

open Quartr.Data.Json (FloatText Layout)
open Quartr.Machine Quartr.Model Quartr.Numeric
open Quartr.Model.Mapping (Json Exc Python)

/-! ### Values and documents -/

section Values

mutual

theorem ofValue_toValue : (json : Json) → Json.ofValue json.toValue = json
  | .null => rfl
  | .bool _ => rfl
  | .int _ => rfl
  | .float _ => rfl
  | .str _ => rfl
  | .arr items => congrArg Json.arr (ofValues_toValues items)
  | .obj fields => congrArg Json.obj (ofFields_toFields fields)

theorem ofValues_toValues : (items : List Json) → Json.ofValues (Json.toValues items) = items
  | [] => rfl
  | item :: items => congrArg₂ List.cons (ofValue_toValue item) (ofValues_toValues items)

theorem ofFields_toFields : (fields : List (String × Json)) → Json.ofFields (Json.toFields fields) = fields
  | [] => rfl
  | (key, value) :: fields =>
    congrArg₂ List.cons (congrArg (Prod.mk key) (ofValue_toValue value)) (ofFields_toFields fields)

end

mutual

theorem toValue_ofValue : (value : Data.Json.Value Binary64) → (Json.ofValue value).toValue = value
  | .null => rfl
  | .bool _ => rfl
  | .int _ => rfl
  | .float _ => rfl
  | .str _ => rfl
  | .arr items => congrArg Data.Json.Value.arr (toValues_ofValues items)
  | .obj fields => congrArg Data.Json.Value.obj (toFields_ofFields fields)

theorem toValues_ofValues : (items : List (Data.Json.Value Binary64)) → Json.toValues (Json.ofValues items) = items
  | [] => rfl
  | item :: items => congrArg₂ List.cons (toValue_ofValue item) (toValues_ofValues items)

theorem toFields_ofFields : (fields : List (String × Data.Json.Value Binary64)) →
    Json.toFields (Json.ofFields fields) = fields
  | [] => rfl
  | (key, value) :: fields =>
    congrArg₂ List.cons (congrArg (Prod.mk key) (toValue_ofValue value)) (toFields_ofFields fields)

end

theorem toFields_eq (fields : List (String × Json)) :
    Json.toFields fields = fields.map fun field => (field.1, field.2.toValue) := by
  induction fields with
  | nil => rfl
  | cons field fields ih => exact congrArg (List.cons _) ih

variable {float : FloatText Binary64}

theorem sound_object {fields : List (String × Json)} :
    (Json.obj fields).Sound float ↔ (fields.map Prod.fst).Nodup ∧ ∀ field ∈ fields, field.2.Sound float := by
  have keys : (Json.toFields fields).map Prod.fst = fields.map Prod.fst := by
    rw [toFields_eq, List.map_map]
    rfl
  have values (P : Data.Json.Value Binary64 → Prop) :
      (∀ field ∈ Json.toFields fields, P field.2) ↔ ∀ field ∈ fields, P field.2.toValue := by
    rw [toFields_eq, List.forall_mem_map]
  constructor
  · rintro ⟨writable, nodup, distinct⟩
    have writable' := (values _).mp ((Data.Json.writableFields_iff float).mp writable)
    have distinct' := (values _).mp (Data.Json.distinctFields_iff.mp distinct)
    exact ⟨keys ▸ nodup, fun field member => ⟨writable' field member, distinct' field member⟩⟩
  · rintro ⟨nodup, sound⟩
    refine Data.Json.sound_obj float (keys ▸ nodup) ((values _).mpr sound)

theorem sound_lookup {fields : List (String × Json)} (sound : (Json.obj fields).Sound float) {default : Json}
    (sound' : default.Sound float) (name : String) : ((fields.lookup name).getD default).Sound float := by
  cases found : fields.lookup name with
  | none => exact sound'
  | some value =>
    obtain ⟨before, after, split, -⟩ := List.lookup_eq_some_iff.mp found
    refine (sound_object.mp sound).2 (name, value) ?_
    rw [split]
    exact List.mem_append_right _ List.mem_cons_self

/-- What was written is read back. -/
theorem loads_dumps {value : Json} (sound : value.Sound float) (layout : Layout) :
    Mapping.loads float (Mapping.dumps float layout value) = .ok value := by
  rw [Mapping.loads, Mapping.dumps, String.toList_ofList, Data.Json.read_write float layout sound.1 sound.2]
  exact congrArg Except.ok (ofValue_toValue value)

/-- What was read can be written. -/
theorem loads_sound {text : String} {value : Json} (loaded : Mapping.loads float text = .ok value) :
    value.Sound float := by
  rw [Mapping.loads] at loaded
  cases read : Data.Json.read float text.toList with
  | error error =>
    rw [read] at loaded
    cases loaded
  | ok value' =>
    rw [read] at loaded
    cases loaded
    rw [Json.Sound, toValue_ofValue]
    exact Data.Json.sound_read float read

end Values

/-! ### Tasks -/

section Tasks

variable {python : Python} {float : FloatText Binary64} {now : String}

theorem checkKeywords_ok {parameters required : List String} {fields : List (String × Json)}
    (known : ∀ field ∈ fields, field.1 ∈ parameters) (given : ∀ name ∈ required, (fields.lookup name).isSome) :
    checkKeywords parameters required fields = .ok () := if_pos ⟨known, given⟩

theorem identity_make_asdict (identity : IdentityRecord) : IdentityRecord.make identity.asdict = .ok identity := by
  have checked := make_again ⟨identity.ticker, identity.form, latestYearSentinel, none, identity.ticker_matches,
    identity.form_matches⟩ latestYearSentinel none
  have keywords : checkKeywords ["ticker", "form", "year", "quarter"] ["ticker", "form", "year"]
      [("ticker", .str identity.ticker), ("form", .str identity.form), ("year", identity.year),
        ("quarter", identity.quarter)] = .ok () :=
    checkKeywords_ok (by simp) (by simp)
  rw [IdentityRecord.asdict, IdentityRecord.make, keywords]
  change (ReportIdentity.make identity.ticker identity.form latestYearSentinel none).mapError Exc.value >>= _ = _
  rw [checked]
  rfl

theorem filing_make_asdict (filing : FilingFields) : FilingFields.make filing.asdict = .ok filing := by
  have keywords : checkKeywords ["cik", "accession_number", "primary_document", "filing_date", "source_url"]
      ["cik", "accession_number", "primary_document", "filing_date", "source_url"]
      [("cik", filing.cik), ("accession_number", filing.accessionNumber),
        ("primary_document", filing.primaryDocument), ("filing_date", filing.filingDate),
        ("source_url", filing.sourceUrl)] = .ok () :=
    checkKeywords_ok (by simp) (by simp)
  rw [FilingFields.asdict, FilingFields.make]
  simp only [keywords]
  rfl

theorem slot_make_asdict (slot : FilingSlot) : FilingSlot.make slot.asdict = .ok slot := by
  cases slot with
  | absent value falsy => exact dif_neg (Bool.eq_false_iff.mp falsy)
  | filing filing =>
    have filled : truthy (FilingSlot.filing filing).asdict = true := rfl
    rw [FilingSlot.make, dif_pos filled]
    exact congrArg (Except.map FilingSlot.filing) (filing_make_asdict filing)

theorem state_make_value (python : Python) (state : ReportState) :
    ReportState.make python (.str state.value) = .ok state := by
  cases state <;> rfl

/-- The payload of a task is taken apart into the task. -/
theorem ofPayload_asdict (task : TaskRecord) : TaskRecord.ofPayload python now task.asdict = .ok task := by
  have keywords : checkKeywords ["task_id", "identity", "state", "include_amended", "filing", "artifact_path",
      "error", "attempts", "created_at", "updated_at"] ["task_id", "identity"]
      [("task_id", task.taskId), ("identity", task.identity.asdict), ("state", .str task.state.value),
        ("include_amended", task.includeAmended), ("filing", task.filing.asdict),
        ("artifact_path", task.artifactPath), ("error", task.error), ("attempts", task.attempts),
        ("created_at", task.createdAt), ("updated_at", task.updatedAt)] = .ok () :=
    checkKeywords_ok (by simp) (by simp)
  have identity : task.asdict.subscript "identity" = .ok task.identity.asdict := rfl
  have filing : task.asdict.get "filing" .null = .ok task.filing.asdict := rfl
  have state : task.asdict.subscript "state" = .ok (.str task.state.value) := rfl
  rw [TaskRecord.ofPayload, identity, filing, state]
  simp only [bind, Except.bind, identity_make_asdict, slot_make_asdict, state_make_value]
  rw [TaskRecord.asdict]
  simp only [TaskRecord.make, keywords]
  rfl

/-- A saved task is loaded as it was. -/
theorem fromJson_toJson (python : Python) (now : String) {task : TaskRecord} (sound : task.asdict.Sound float) :
    TaskRecord.fromJson python float now (task.toJson float) = .ok task := by
  rw [TaskRecord.fromJson, TaskRecord.toJson, loads_dumps sound]
  exact ofPayload_asdict task

/-! ### What was loaded -/

theorem sound_absent : Json.null.Sound float := ⟨trivial, trivial⟩

theorem sound_text (text : String) : (Json.str text).Sound float := ⟨trivial, trivial⟩

theorem sound_bool (value : Bool) : (Json.bool value).Sound float := ⟨trivial, trivial⟩

theorem sound_int {value : ℤ} (short : (Nat.toDigits 10 value.natAbs).length ≤ Data.Json.digitLimit) :
    (Json.int value).Sound float := ⟨short, trivial⟩

theorem identity_made {value : Json} {identity : IdentityRecord} (made : IdentityRecord.make value = .ok identity)
    (sound : value.Sound float) : identity.asdict.Sound float := by
  cases value with
  | obj fields =>
    obtain ⟨_, -, made⟩ := ok_of_bind made
    obtain ⟨ticker, -, made⟩ := ok_of_bind made
    obtain ⟨form, -, made⟩ := ok_of_bind made
    obtain ⟨checked, -, made⟩ := ok_of_bind made
    cases made
    refine sound_object.mpr ⟨by simp, ?_⟩
    simp only [List.forall_mem_cons]
    exact ⟨sound_text _, sound_text _, sound_lookup sound sound_absent "year",
      sound_lookup sound sound_absent "quarter", fun _ member => absurd member List.not_mem_nil⟩
  | _ => cases made

theorem filing_made {value : Json} {filing : FilingFields} (made : FilingFields.make value = .ok filing)
    (sound : value.Sound float) : filing.asdict.Sound float := by
  cases value with
  | obj fields =>
    obtain ⟨_, -, made⟩ := ok_of_bind made
    cases made
    refine sound_object.mpr ⟨by simp, ?_⟩
    simp only [List.forall_mem_cons]
    exact ⟨sound_lookup sound sound_absent "cik", sound_lookup sound sound_absent "accession_number",
      sound_lookup sound sound_absent "primary_document", sound_lookup sound sound_absent "filing_date",
      sound_lookup sound sound_absent "source_url", fun _ member => absurd member List.not_mem_nil⟩
  | _ => cases made

theorem slot_made {value : Json} {slot : FilingSlot} (made : FilingSlot.make value = .ok slot)
    (sound : value.Sound float) : slot.asdict.Sound float := by
  rw [FilingSlot.make] at made
  split_ifs at made with filled
  · obtain ⟨filing, made', rfl⟩ := Data.Json.map_ok made
    exact filing_made made' sound
  · cases made
    exact sound

/-- A task that was made of a payload is as sound as the payload. -/
theorem task_made {payload : Json} {task : TaskRecord} (made : TaskRecord.ofPayload python now payload = .ok task)
    (sound : payload.Sound float) : task.asdict.Sound float := by
  obtain ⟨value, found, made⟩ := ok_of_bind made
  obtain ⟨identity, identified, made⟩ := ok_of_bind made
  obtain ⟨value', found', made⟩ := ok_of_bind made
  obtain ⟨slot, filed, made⟩ := ok_of_bind made
  obtain ⟨value'', -, made⟩ := ok_of_bind made
  obtain ⟨state, -, made⟩ := ok_of_bind made
  cases payload with
  | obj fields =>
    obtain ⟨_, -, made⟩ := ok_of_bind made
    cases made
    have field {default : Json} (sound' : default.Sound float) (name : String) :=
      sound_lookup sound sound' name
    have identity' : value.Sound float := by
      have looked := sound_lookup sound sound_absent "identity"
      rw [Json.subscript] at found
      cases read : fields.lookup "identity" with
      | none =>
        rw [read] at found
        cases found
      | some value' =>
        rw [read] at found looked
        cases found
        exact looked
    have slot' : value'.Sound float := by
      cases found'
      exact field sound_absent "filing"
    refine sound_object.mpr ⟨by simp, ?_⟩
    simp only [List.forall_mem_cons]
    exact ⟨field sound_absent "task_id", identity_made identified identity', sound_text _,
      field (sound_bool false) "include_amended", slot_made filed slot', field sound_absent "artifact_path",
      field sound_absent "error", field (sound_int (by decide)) "attempts", field (sound_text now) "created_at",
      field (sound_text now) "updated_at", fun _ member => absurd member List.not_mem_nil⟩
  | _ => cases made

/-- What a text is loaded as is saved as a text that is loaded as the same task. Texts with half a surrogate
pair escaped, which `json.loads` accepts as well, are not among the texts here. -/
theorem record_reloads (python : Python) (now now' : String) {raw : String} {task : TaskRecord}
    (loaded : TaskRecord.fromJson python float now raw = .ok task) :
    TaskRecord.fromJson python float now' (task.toJson float) = .ok task := by
  obtain ⟨payload, read, made⟩ := ok_of_bind loaded
  exact fromJson_toJson python now' (task_made made (loads_sound read))

end Tasks

/-- Floats that are integers, as long as they are written without an exponent. -/
def integralFloats : FloatText Binary64 where
  nan := .nan
  infinity := .infinite
  write
    | .nan => ['N', 'a', 'N']
    | .infinite false => ['I', 'n', 'f', 'i', 'n', 'i', 't', 'y']
    | .infinite true => ['-', 'I', 'n', 'f', 'i', 'n', 'i', 't', 'y']
    | .finite value _ => (toString value.num).toList ++ ['.', '0']
  read literal := .ofRat (Data.Json.wholeValue literal.whole)
  representable
    | .finite value _ => value.den = 1
    | _ => True
  representable_nan := trivial
  representable_infinity _ := trivial
  representable_read literal := by
    unfold Binary64.ofRat
    split_ifs
    · exact Rat.den_intCast _
    · trivial
  written value representable := by
    cases value with
    | nan => exact .inl ⟨rfl, rfl⟩
    | infinite negative =>
      cases negative
      · exact .inr (.inl ⟨rfl, rfl⟩)
      · exact .inr (.inr (.inl ⟨rfl, rfl⟩))
    | finite value inRange =>
      have point : Data.Json.EndsDigits ['.', '0'] := by
        rintro _ ⟨⟩
        rfl
      have scanned := Data.Json.scanWhole_append (Data.Json.scanWhole_int value.num) point
      have whole : ((value.num : ℤ) : ℚ) = value := (Rat.den_eq_one_iff value).mp representable
      refine .inr (.inr (.inr ⟨⟨(toString value.num).toList, ['.', '0'], []⟩, ?_, .inl nofun, ?_⟩))
      · rw [Data.Json.scanNumber, scanned]
        rfl
      · show Binary64.ofRat (Data.Json.wholeValue (toString value.num).toList) = _
        rw [Data.Json.wholeValue_int, whole, Binary64.ofRat_eq inRange]

/-- A task by hand, without the fields that have defaults. -/
def abridgedTask : String :=
  "\x7b\"state\": \"queued\", \"identity\": \x7b\"form\": \"10-k\", \"ticker\": \"aapl\", \"year\": 2024\x7d, " ++
    "\"task_id\": \"\\u0041\", \"attempts\": 1.0\x7d"

theorem record_reloads_abridged : ∃ task,
    TaskRecord.fromJson (.sample [] .null) integralFloats "09:00" abridgedTask = .ok task ∧
    TaskRecord.fromJson (.sample [] .null) integralFloats "10:00" (task.toJson integralFloats) = .ok task := by
  have loads : (TaskRecord.fromJson (.sample [] .null) integralFloats "09:00" abridgedTask).isOk = true := by
    decide +kernel
  cases loaded : TaskRecord.fromJson (.sample [] .null) integralFloats "09:00" abridgedTask with
  | error error =>
    rw [loaded] at loads
    cases loads
  | ok task => exact ⟨task, rfl, record_reloads (.sample [] .null) "09:00" "10:00" loaded⟩

end Quartr.Soundness
