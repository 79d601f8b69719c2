import Quartr.Data.JsonText
import Mathlib.Data.List.TakeWhile

/-! # The characters of what is written

The writer writes printable ASCII only, and the line breaks of the layout.
-/

namespace Quartr.Data.Json

def Printable (c : Char) : Prop := 0x20 ≤ c.toNat ∧ c.toNat < 0x7F

instance (c : Char) : Decidable (Printable c) := inferInstanceAs (Decidable (_ ∧ _))

theorem printable_digit {c : Char} (digit : c.isDigit = true) : Printable c := by
  have bounds : 48 ≤ c.toNat ∧ c.toNat ≤ 57 := Char.isDigit_iff_toNat.mp digit
  exact ⟨by omega, by omega⟩

theorem printable_word {word : List Char} (checked : (word.all fun c => decide (Printable c)) = true) :
    ∀ c ∈ word, Printable c :=
  fun c member => of_decide_eq_true (List.all_eq_true.mp checked c member)

/-! ### Strings -/

theorem printable_hexDigit {n : ℕ} (small : n < 16) : Printable (hexDigit n) := by
  interval_cases n <;> decide

theorem printable_unicodeEscape (n : ℕ) : ∀ c ∈ unicodeEscape n, Printable c := by
  have digit (k : ℕ) : Printable (hexDigit (k % 16)) := printable_hexDigit (Nat.mod_lt _ (by omega))
  simp only [unicodeEscape, List.forall_mem_cons]
  exact ⟨by decide, by decide, digit _, digit _, digit _, digit _, fun _ member => absurd member List.not_mem_nil⟩

theorem printable_mark {mark : Char} (printable : Printable mark) : ∀ c ∈ ['\\', mark], Printable c := by
  simp only [List.forall_mem_cons]
  exact ⟨by decide, printable, fun _ member => absurd member List.not_mem_nil⟩

theorem printable_escape (c : Char) : ∀ c' ∈ escape c, Printable c' := by
  simp only [escape]
  split_ifs with quote slash code code code code code visible small
  · exact printable_mark (by decide)
  · exact printable_mark (by decide)
  · exact printable_mark (by decide)
  · exact printable_mark (by decide)
  · exact printable_mark (by decide)
  · exact printable_mark (by decide)
  · exact printable_mark (by decide)
  · exact fun c' member => List.mem_singleton.mp member ▸ visible
  · exact printable_unicodeEscape _
  · exact List.forall_mem_append.mpr ⟨printable_unicodeEscape _, printable_unicodeEscape _⟩

theorem printable_writeString (text : String) : ∀ c ∈ writeString text, Printable c := by
  have body : ∀ c ∈ text.toList.flatMap escape, Printable c := by
    intro c member
    obtain ⟨c', _, member⟩ := List.mem_flatMap.mp member
    exact printable_escape c' c member
  rw [writeString, List.cons_append, List.forall_mem_cons, List.forall_mem_append]
  exact ⟨by decide, body, fun c member => List.mem_singleton.mp member ▸ by decide⟩

/-! ### Numbers -/

theorem printable_scanDigits (text : List Char) : ∀ c ∈ (scanDigits text).1, Printable c :=
  fun _ member => printable_digit (List.mem_takeWhile_imp member)

/-- What a scanner takes off the front of a text is printable. -/
def Takes (text : List Char) (read : List Char × List Char) : Prop :=
  text = read.1 ++ read.2 ∧ ∀ c ∈ read.1, Printable c

theorem takes_scanDigits (text : List Char) : Takes text (scanDigits text) :=
  ⟨(List.takeWhile_append_dropWhile ..).symm, printable_scanDigits text⟩

theorem Takes.cons {text : List Char} {read : List Char × List Char} (takes : Takes text read) {c : Char}
    (printable : Printable c) : Takes (c :: text) (c :: read.1, read.2) :=
  ⟨congrArg (List.cons c) takes.1, List.forall_mem_cons.mpr ⟨printable, takes.2⟩⟩

theorem takes_nothing (text : List Char) : Takes text ([], text) :=
  ⟨rfl, fun _ member => absurd member List.not_mem_nil⟩

theorem takes_scanNatural {text : List Char} {read : List Char × List Char}
    (scanned : scanNatural text = some read) : Takes text read := by
  cases text with
  | nil => cases scanned
  | cons c rest =>
    rw [scanNatural] at scanned
    split_ifs at scanned with zero digit
    · cases scanned
      rw [zero]
      exact (takes_nothing rest).cons (by decide)
    · cases scanned
      exact (takes_scanDigits rest).cons (printable_digit digit)

theorem takes_scanWhole {text : List Char} {read : List Char × List Char} (scanned : scanWhole text = some read) :
    Takes text read := by
  cases text with
  | nil => cases scanned
  | cons c rest =>
    rw [scanWhole] at scanned
    split_ifs at scanned with signed
    · obtain ⟨natural, found, rfl⟩ := Option.map_eq_some_iff.mp scanned
      rw [signed]
      exact (takes_scanNatural found).cons (by decide)
    · exact takes_scanNatural scanned

theorem takes_scanFraction (text : List Char) : Takes text (scanFraction text) := by
  cases text with
  | nil => exact takes_nothing []
  | cons c rest =>
    rw [scanFraction]
    split_ifs with point
    · rw [point.1]
      exact (takes_scanDigits rest).cons (by decide)
    · exact takes_nothing _

theorem takes_scanSign (text : List Char) : Takes text (scanSign text) := by
  cases text with
  | nil => exact takes_nothing []
  | cons c rest =>
    rw [scanSign]
    split_ifs with sign
    · rcases sign with rfl | rfl <;> exact (takes_nothing rest).cons (by decide)
    · exact takes_nothing _

theorem takes_scanExponent (text : List Char) : Takes text (scanExponent text) := by
  cases text with
  | nil => exact takes_nothing []
  | cons c rest =>
    simp only [scanExponent]
    split_ifs with mark
    · obtain ⟨sign, signed⟩ := takes_scanSign rest
      obtain ⟨digits, all⟩ := takes_scanDigits (scanSign rest).2
      constructor
      · rw [List.cons_append, List.cons_append, List.append_assoc, ← digits, ← sign]
      · rw [List.cons_append, List.forall_mem_cons, List.forall_mem_append]
        refine ⟨?_, signed, all⟩
        rcases mark.1 with rfl | rfl <;> decide
    · exact takes_nothing _

theorem printable_scanNumber {text : List Char} {literal : Literal}
    (scanned : scanNumber text = some (literal, [])) : ∀ c ∈ text, Printable c := by
  obtain ⟨whole, found, same⟩ := Option.map_eq_some_iff.mp scanned
  obtain ⟨split, first⟩ := takes_scanWhole found
  obtain ⟨split', second⟩ := takes_scanFraction whole.2
  obtain ⟨split'', third⟩ := takes_scanExponent (scanFraction whole.2).2
  have ends : (scanExponent (scanFraction whole.2).2).2 = [] := congrArg Prod.snd same
  rw [ends, List.append_nil] at split''
  rw [split, split', split'']
  exact List.forall_mem_append.mpr ⟨first, List.forall_mem_append.mpr ⟨second, third⟩⟩

theorem printable_int (n : ℤ) : ∀ c ∈ (toString n).toList, Printable c := printable_scanNumber (scanNumber_int n)

/-! ### Values -/

section Write

variable {φ : Type} (float : FloatText φ) (layout : Layout)

theorem printable_float {value : φ} (representable : float.representable value) :
    ∀ c ∈ float.write value, Printable c := by
  rcases float.written value representable with ⟨_, word⟩ | ⟨_, word⟩ | ⟨_, word⟩ | ⟨literal, scanned, _⟩
  · rw [word]
    exact printable_word rfl
  · rw [word]
    exact printable_word rfl
  · rw [word]
    exact printable_word rfl
  · exact printable_scanNumber scanned

/-- What is printable, and what the layout puts between the values. -/
def Allowed (layout : Layout) (c : Char) : Prop :=
  Printable c ∨ ∃ depth, c ∈ layout.edge depth ∨ c ∈ layout.gap depth

theorem allowed_edge (depth : ℕ) : ∀ c ∈ layout.edge depth, Allowed layout c :=
  fun _ member => .inr ⟨depth, .inl member⟩

theorem allowed_gap (depth : ℕ) : ∀ c ∈ layout.gap depth, Allowed layout c :=
  fun _ member => .inr ⟨depth, .inr member⟩

mutual

theorem allowed_write (depth : ℕ) : (value : Value φ) → Writable float value →
    ∀ c ∈ write float layout depth value, Allowed layout c
  | .null, _ => by
    rw [write]
    exact fun c member => .inl (printable_word rfl c member)
  | .bool value, _ => by
    rw [write]
    cases value <;> exact fun c member => .inl (printable_word rfl c member)
  | .int value, _ => by
    rw [write]
    exact fun c member => .inl (printable_int value c member)
  | .float value, writable => by
    rw [write]
    exact fun c member => .inl (printable_float float writable c member)
  | .str text, _ => by
    rw [write]
    exact fun c member => .inl (printable_writeString text c member)
  | .arr items, writable => by
    rw [write]
    split_ifs with empty
    · exact fun c member => .inl (printable_word rfl c member)
    · have body := allowed_writeItems (depth + 1) items writable
      simp only [List.cons_append, List.forall_mem_cons, List.forall_mem_append]
      exact ⟨.inl (by decide), ⟨⟨allowed_edge layout _, body⟩, allowed_edge layout _⟩, .inl (by decide),
        fun _ member => absurd member List.not_mem_nil⟩
  | .obj fields, writable => by
    rw [write]
    split_ifs with empty
    · exact fun c member => .inl (printable_word rfl c member)
    · have body := allowed_writeFields (depth + 1) fields writable
      simp only [List.cons_append, List.forall_mem_cons, List.forall_mem_append]
      exact ⟨.inl (by decide), ⟨⟨allowed_edge layout _, body⟩, allowed_edge layout _⟩, .inl (by decide),
        fun _ member => absurd member List.not_mem_nil⟩

theorem allowed_writeItems (depth : ℕ) : (items : List (Value φ)) → WritableItems float items →
    ∀ c ∈ writeItems float layout depth items, Allowed layout c
  | [], _ => by
    rw [writeItems]
    exact fun _ member => absurd member List.not_mem_nil
  | item :: items, writable => by
    have first := allowed_write depth item writable.1
    have rest := allowed_writeItems depth items writable.2
    rw [writeItems, List.forall_mem_append]
    refine ⟨first, ?_⟩
    split_ifs
    · exact fun _ member => absurd member List.not_mem_nil
    · simp only [List.cons_append, List.forall_mem_cons, List.forall_mem_append]
      exact ⟨.inl (by decide), allowed_gap layout _, rest⟩

theorem allowed_writeFields (depth : ℕ) : (fields : List (String × Value φ)) → WritableFields float fields →
    ∀ c ∈ writeFields float layout depth fields, Allowed layout c
  | [], _ => by
    rw [writeFields]
    exact fun _ member => absurd member List.not_mem_nil
  | (key, value) :: fields, writable => by
    have first := allowed_write depth value writable.1
    have rest := allowed_writeFields depth fields writable.2
    rw [writeFields]
    simp only [List.forall_mem_append, List.forall_mem_cons]
    refine ⟨⟨⟨fun c member => .inl (printable_writeString key c member), .inl (by decide), .inl (by decide),
      fun _ member => absurd member List.not_mem_nil⟩, first⟩, ?_⟩
    split_ifs
    · exact fun _ member => absurd member List.not_mem_nil
    · simp only [List.cons_append, List.forall_mem_cons, List.forall_mem_append]
      exact ⟨.inl (by decide), allowed_gap layout _, rest⟩

end

/-- On one line everything is printable. -/
theorem printable_write {value : Value φ} (writable : Writable float value) (depth : ℕ) :
    ∀ c ∈ write float .compact depth value, Printable c := by
  intro c member
  rcases allowed_write float .compact depth value writable c member with printable | ⟨_, edge | gap⟩
  · exact printable
  · cases edge
  · rw [List.mem_singleton.mp gap]
    decide

end Write

end Quartr.Data.Json
