import Quartr.Model.Service

/-! # What calls do to stream entries

An entry keeps its position and its fields for good; a call touches the status or the deletion mark
of one entry, or adds one at the end.
-/

namespace Quartr.Soundness

open Quartr.Machine Quartr.Model

/-- The effect of a call on the entry at a position. -/
def touch (call : Call) (index : ℕ) (entry : Entry) : Entry :=
  match call with
  | .xack position => if position = index then entry.ack else entry
  | .xdel position => if position = index then entry.delete else entry
  | _ => entry

@[simp] theorem ack_fields (entry : Entry) : entry.ack.fields = entry.fields := by
  unfold Entry.ack
  split <;> rfl

@[simp] theorem deliver_fields (entry : Entry) : entry.deliver.fields = entry.fields := by
  unfold Entry.deliver
  split <;> rfl

/-- Delivery acknowledges nothing. -/
theorem deliver_status (entry : Entry) : entry.deliver.status = .acked ↔ entry.status = .acked := by
  unfold Entry.deliver
  split
  · rename_i waiting
    simp only [waiting, reduceCtorEq]
  · exact Iff.rfl

theorem ack_deleted (entry : Entry) : entry.ack.deleted = entry.deleted := by
  unfold Entry.ack
  split <;> rfl

theorem deliver_deleted (entry : Entry) : entry.deliver.deleted = entry.deleted := by
  unfold Entry.deliver
  split <;> rfl

theorem deliver_begun (own : Entry) : own.deliver.status ≠ .waiting := by
  unfold Entry.deliver
  split
  · exact nofun
  · assumption

/-- What was at a position before one entry was changed. -/
theorem before_modify {history : List Entry} {own : Entry} {changed index : ℕ} {change : Entry → Entry}
    (present : (history.modify changed change)[index]? = some own) :
    ∃ before, history[index]? = some before ∧ own = if changed = index then change before else before := by
  rw [List.getElem?_modify] at present
  obtain ⟨before, found, rfl⟩ := Option.map_eq_some_iff.mp present
  exact ⟨before, found, rfl⟩

@[simp] theorem touch_fields (call : Call) (index : ℕ) (entry : Entry) :
    (touch call index entry).fields = entry.fields := by
  cases call with
  | xack position =>
    simp only [touch]
    split
    · exact ack_fields entry
    · rfl
  | xdel position =>
    simp only [touch]
    split <;> rfl
  | _ => rfl

/-- Only its own XACK acknowledges an entry. -/
theorem touch_status {call : Call} {index : ℕ} (entry : Entry) (other : call ≠ .xack index) :
    (touch call index entry).status = entry.status := by
  cases call with
  | xack position =>
    have differs : position ≠ index := fun same => other (congrArg Call.xack same)
    simp only [touch, differs, ↓reduceIte]
  | xdel position =>
    simp only [touch]
    split <;> rfl
  | _ => rfl

/-- An acknowledged entry stays acknowledged. -/
theorem touch_acked {call : Call} {index : ℕ} {entry : Entry} (acked : entry.status = .acked) :
    (touch call index entry).status = .acked := by
  cases call with
  | xack position =>
    simp only [touch, Entry.ack, acked, reduceCtorEq, ↓reduceIte, ite_self]
  | xdel position =>
    simp only [touch]
    split
    · exact acked
    · exact acked
  | _ => exact acked

variable {world : World} {call : Call} {index : ℕ} {entry : Entry}

theorem after_entry (present : world.stream[index]? = some entry) :
    (world.after call).stream[index]? = some (touch call index entry) := by
  have inside : index < world.stream.length := (List.getElem?_eq_some_iff.mp present).1
  rw [World.after_stream]
  cases call with
  | xadd taskId =>
    simp only [touch]
    rw [List.getElem?_append_left inside, present]
  | xack position =>
    simp only [touch, List.getElem?_modify, present, Option.map_eq_map, Option.map_some]
  | xdel position =>
    simp only [touch, List.getElem?_modify, present, Option.map_eq_map, Option.map_some]
  | _ => exact present

theorem entry_of_after (present : (world.after call).stream[index]? = some entry) :
    (∃ before, world.stream[index]? = some before ∧ entry = touch call index before) ∨
      ∃ taskId, call = .xadd taskId ∧ index = world.stream.length ∧ entry = Entry.new taskId := by
  cases found : world.stream[index]? with
  | some before =>
    rw [after_entry found, Option.some.injEq] at present
    exact .inl ⟨before, rfl, present.symm⟩
  | none =>
    have outside : world.stream.length ≤ index := List.getElem?_eq_none_iff.mp found
    rw [World.after_stream] at present
    cases call with
    | xadd taskId =>
      simp only [List.getElem?_append_right outside, List.getElem?_singleton] at present
      split at present
      · cases present
        exact .inr ⟨taskId, rfl, by omega, rfl⟩
      · cases present
    | xack position =>
      simp only [List.getElem?_modify, found, Option.map_eq_map, Option.map_none, reduceCtorEq] at present
    | xdel position =>
      simp only [List.getElem?_modify, found, Option.map_eq_map, Option.map_none, reduceCtorEq] at present
    | _ => exact absurd (present.symm.trans found) nofun

theorem hasEntry_iff {taskId : TaskId} : world.HasEntry taskId ↔
    ∃ (index : ℕ) (entry : Entry), world.stream[index]? = some entry ∧
      fieldsTaskId entry.fields = some taskId := by
  constructor
  · rintro ⟨entry, member, named⟩
    obtain ⟨index, present⟩ := List.mem_iff_getElem?.mp member
    exact ⟨index, entry, present, named⟩
  · rintro ⟨index, entry, present, named⟩
    exact ⟨entry, List.mem_of_getElem? present, named⟩

/-- Entries are never lost from the stream. -/
theorem hasEntry_after {taskId : TaskId} (has : world.HasEntry taskId) (call : Call) :
    (world.after call).HasEntry taskId := by
  obtain ⟨index, entry, present, named⟩ := hasEntry_iff.mp has
  exact hasEntry_iff.mpr ⟨index, _, after_entry present, by rw [touch_fields, named]⟩

/-- What enqueues a task gives it an entry. -/
theorem hasEntry_xadd (world : World) (taskId : TaskId) :
    (world.after (.xadd taskId)).HasEntry taskId :=
  ⟨Entry.new taskId, List.mem_append_right _ (List.mem_singleton_self _), rfl⟩

end Quartr.Soundness
