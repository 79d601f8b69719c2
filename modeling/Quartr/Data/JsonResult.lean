import Quartr.Data.JsonReading
import Mathlib.Data.List.TakeWhile

/-! # What the reader answers

The reader never runs out of the fuel it is given. What it answers can be written, and no key stands twice in
it; so it is read again as it is.
-/

namespace Quartr.Data.Json

variable {φ α β : Type} (float : FloatText φ)

/-! ### Fuel -/

/-- The reader was not out of fuel, and what it has left is shorter than this. -/
def Shortens (length : ℕ) : Except Error (α × List Char) → Prop
  | .error error => error ≠ .exhausted
  | .ok read => read.2.length < length

theorem map_ok {ε : Type} {result : Except ε α} {change : α → β} {value : β} (mapped : result.map change = .ok value) :
    ∃ first, result = .ok first ∧ change first = value := by
  cases result with
  | error error => cases mapped
  | ok first => exact ⟨first, rfl, Except.ok.inj mapped⟩

theorem Shortens.map {length : ℕ} {result : Except Error (α × List Char)} (shortens : Shortens length result)
    (change : α → β) : Shortens length (result.map fun read => (change read.1, read.2)) := by
  cases result with
  | error error => exact shortens
  | ok read => exact shortens

theorem Shortens.mono {length length' : ℕ} {result : Except Error (α × List Char)}
    (shortens : Shortens length result) (longer : length ≤ length') : Shortens length' result := by
  cases result with
  | error error => exact shortens
  | ok read => exact Nat.lt_of_lt_of_le shortens longer

theorem shortens_malformed (length : ℕ) : Shortens length (.error .malformed : Except Error (α × List Char)) :=
  Error.noConfusion

theorem shortens_scanUnits : (text : List Char) → Shortens text.length (scanUnits text)
  | [] => shortens_malformed 0
  | c :: rest => by
    rw [scanUnits.eq_def]
    simp only
    split_ifs with quote slash control
    · exact Nat.lt_succ_self _
    · cases rest with
      | nil => exact shortens_malformed _
      | cons mark rest =>
        simp only
        split_ifs with unicode
        · rcases rest with - | ⟨first, - | ⟨second, - | ⟨third, - | ⟨fourth, rest⟩⟩⟩⟩
          · exact shortens_malformed _
          · exact shortens_malformed _
          · exact shortens_malformed _
          · exact shortens_malformed _
          · simp only
            cases hexValues? first second third fourth with
            | none => exact shortens_malformed _
            | some unit =>
              refine ((shortens_scanUnits rest).map (unit :: ·)).mono ?_
              simp only [List.length_cons]
              omega
        · cases escaped? mark with
          | none => exact shortens_malformed _
          | some unit =>
            refine ((shortens_scanUnits rest).map (unit :: ·)).mono ?_
            simp only [List.length_cons]
            omega
    · exact shortens_malformed _
    · exact ((shortens_scanUnits rest).map (c.toNat :: ·)).mono (Nat.le_succ _)

theorem joinUnits_error : (codes : List ℕ) → {error : Error} → joinUnits codes = .error error → error = .surrogate
  | [], _, fails => nomatch fails
  | unit :: rest, error, fails => by
    have mapped {rest : List ℕ} {c : Char} (fails : (joinUnits rest).map (c :: ·) = .error error)
        (ih : ∀ {error}, joinUnits rest = .error error → error = .surrogate) : error = .surrogate := by
      cases joined : joinUnits rest with
      | error error' =>
        rw [joined] at fails
        cases fails
        exact ih joined
      | ok text =>
        rw [joined] at fails
        cases fails
    rw [joinUnits.eq_def] at fails
    simp only at fails
    split_ifs at fails with high low
    · cases rest with
      | nil => exact (Except.error.inj fails).symm
      | cons low rest =>
        simp only at fails
        split_ifs at fails
        · exact mapped fails (joinUnits_error rest)
        · exact (Except.error.inj fails).symm
    · exact (Except.error.inj fails).symm
    · exact mapped fails (joinUnits_error rest)

theorem shortens_readString (text : List Char) : Shortens text.length (readString text) := by
  have scanned := shortens_scanUnits text
  rw [readString]
  cases units : scanUnits text with
  | error error =>
    rw [units] at scanned
    exact scanned
  | ok read =>
    rw [units] at scanned
    rcases read with ⟨codes, rest⟩
    simp only
    cases joined : joinUnits codes with
    | error error =>
      cases joinUnits_error codes joined
      exact Error.noConfusion
    | ok text' => exact scanned

theorem length_scanDigits (text : List Char) : (scanDigits text).2.length ≤ text.length :=
  (List.dropWhile_suffix _).length_le

theorem length_scanNatural {text : List Char} {read : List Char × List Char} (scanned : scanNatural text = some read) :
    read.2.length < text.length := by
  cases text with
  | nil => cases scanned
  | cons c rest =>
    rw [scanNatural] at scanned
    split_ifs at scanned
    · cases scanned
      exact Nat.lt_succ_self _
    · cases scanned
      exact Nat.lt_succ_of_le (length_scanDigits rest)

theorem length_scanWhole {text : List Char} {read : List Char × List Char} (scanned : scanWhole text = some read) :
    read.2.length < text.length := by
  cases text with
  | nil => cases scanned
  | cons c rest =>
    rw [scanWhole] at scanned
    split_ifs at scanned
    · obtain ⟨natural, found, rfl⟩ := Option.map_eq_some_iff.mp scanned
      exact (length_scanNatural found).trans (Nat.lt_succ_self _)
    · exact length_scanNatural scanned

theorem length_scanFraction (text : List Char) : (scanFraction text).2.length ≤ text.length := by
  cases text with
  | nil => exact Nat.le_refl _
  | cons c rest =>
    rw [scanFraction]
    split_ifs
    · exact (length_scanDigits rest).trans (Nat.le_succ _)
    · exact Nat.le_refl _

theorem length_scanSign (text : List Char) : (scanSign text).2.length ≤ text.length := by
  cases text with
  | nil => exact Nat.le_refl _
  | cons c rest =>
    rw [scanSign]
    split_ifs
    · exact Nat.le_succ _
    · exact Nat.le_refl _

theorem length_scanExponent (text : List Char) : (scanExponent text).2.length ≤ text.length := by
  cases text with
  | nil => exact Nat.le_refl _
  | cons c rest =>
    simp only [scanExponent]
    split_ifs
    · exact ((length_scanDigits _).trans (length_scanSign rest)).trans (Nat.le_succ _)
    · exact Nat.le_refl _

theorem length_scanNumber {text : List Char} {read : Literal × List Char} (scanned : scanNumber text = some read) :
    read.2.length < text.length := by
  obtain ⟨whole, found, rfl⟩ := Option.map_eq_some_iff.mp scanned
  exact Nat.lt_of_le_of_lt ((length_scanExponent _).trans (length_scanFraction _)) (length_scanWhole found)

theorem length_readWord? {text : List Char} {read : Value φ × List Char} (found : readWord? float text = some read) :
    read.2.length < text.length := by
  obtain ⟨word, present, rfl⟩ := Option.map_eq_some_iff.mp found
  have begins := List.find?_some present
  have short := (List.isPrefixOf_iff_prefix.mp begins).length_le
  have letters : 0 < word.1.length := by
    have member := List.mem_of_find?_eq_some present
    simp only [words, List.mem_cons, List.not_mem_nil, or_false] at member
    rcases member with rfl | rfl | rfl | rfl | rfl | rfl <;> exact Nat.succ_pos _
  simp only [List.length_drop]
  omega

theorem shortens_readScalar (text : List Char) : Shortens text.length (readScalar float text) := by
  rw [readScalar]
  cases word : readWord? float text with
  | some read => exact length_readWord? float word
  | none =>
    simp only [readNumber]
    cases scanned : scanNumber text with
    | none => exact shortens_malformed _
    | some read =>
      simp only [literalValue]
      split_ifs
      · exact length_scanNumber scanned
      · exact Error.noConfusion
      · exact length_scanNumber scanned

/-- How much is left behind the next visible character. -/
theorem length_behind {length : ℕ} {text rest : List Char} {c : Char} (shorter : text.length < length)
    (next : skip text = c :: rest) : rest.length + 1 < length := by
  have blanks := length_skip text
  rw [next, List.length_cons] at blanks
  omega

/-- With this much fuel the readers do not run out of it. -/
theorem shortens_reads (fuel : ℕ) :
    (∀ text, 2 * text.length < fuel → Shortens text.length (readValue float fuel text)) ∧
    (∀ text, 2 * text.length + 1 < fuel → Shortens text.length (readItems float fuel text)) ∧
    ∀ text, 2 * text.length + 1 < fuel → Shortens text.length (readFields float fuel text) := by
  induction fuel with
  | zero =>
    exact ⟨fun _ enough => absurd enough (Nat.not_lt_zero _), fun _ enough => absurd enough (Nat.not_lt_zero _),
      fun _ enough => absurd enough (Nat.not_lt_zero _)⟩
  | succ fuel ih =>
    obtain ⟨values, items, fields⟩ := ih
    refine ⟨fun text enough => ?_, fun text enough => ?_, fun text enough => ?_⟩
    · cases text with
      | nil => exact shortens_malformed _
      | cons c rest =>
        have blanks := length_skip rest
        rw [List.length_cons] at enough
        rw [readValue]
        split_ifs with quote bracket closed brace closed
        · exact ((shortens_readString rest).map Value.str).mono (Nat.le_succ _)
        · change (skip rest).tail.length < rest.length + 1
          rw [List.length_tail]
          omega
        · exact ((items (skip rest) (by omega)).map Value.arr).mono (blanks.trans (Nat.le_succ _))
        · change (skip rest).tail.length < rest.length + 1
          rw [List.length_tail]
          omega
        · exact ((fields (skip rest) (by omega)).map fun fields => Value.obj (Dict.ofEntries fields).entries).mono
            (blanks.trans (Nat.le_succ _))
        · exact shortens_readScalar float (c :: rest)
    · have shortens := values text (by omega)
      rw [readItems]
      cases read : readValue float fuel text with
      | error error =>
        rw [read] at shortens
        exact shortens
      | ok read' =>
        rw [read] at shortens
        rcases read' with ⟨item, behind⟩
        simp only
        split
        · rename_i rest next
          have shorter := length_behind shortens next
          have blanks := length_skip rest
          exact ((items (skip rest) (by omega)).map (item :: ·)).mono (by omega)
        · rename_i rest next
          exact Nat.lt_of_succ_lt (length_behind shortens next)
        · exact shortens_malformed _
    · rw [readFields.eq_def]
      simp only
      split
      · rename_i text' rest
        rw [List.length_cons] at enough ⊢
        have named := shortens_readString rest
        cases string : readString rest with
        | error error =>
          rw [string] at named
          exact named
        | ok read =>
          rw [string] at named
          rcases read with ⟨key, behind⟩
          simp only
          split
          · rename_i rest' colon
            have shorter := length_behind named colon
            have blanks := length_skip rest'
            have shortens := values (skip rest') (by omega)
            cases read : readValue float fuel (skip rest') with
            | error error =>
              rw [read] at shortens
              exact shortens
            | ok read' =>
              rw [read] at shortens
              rcases read' with ⟨value, behind'⟩
              simp only
              split
              · rename_i rest'' next
                have shorter' := length_behind shortens next
                have blanks' := length_skip rest''
                exact ((fields (skip rest'') (by omega)).map ((key, value) :: ·)).mono (by omega)
              · rename_i rest'' next
                have shorter' := length_behind shortens next
                change rest''.length < rest.length + 1
                omega
              · exact shortens_malformed _
          · exact shortens_malformed _
      · exact shortens_malformed _

/-- The reader has enough fuel for every text. -/
theorem read_fueled (text : List Char) : read float text ≠ .error .exhausted := by
  have blanks := length_skip text
  have shortens := (shortens_reads float (fuelFor text.length)).1 (skip text) (by rw [fuelFor]; omega)
  rw [read]
  cases value : readValue float (fuelFor text.length) (skip text) with
  | error error =>
    rw [value] at shortens
    exact fun same => shortens (Except.error.inj same)
  | ok read =>
    simp only
    split_ifs
    · rintro ⟨⟩
    · exact fun same => Error.noConfusion (Except.error.inj same)

/-! ### What is read -/

/-- The value can be written and is read again as it is. -/
def Sound (value : Value φ) : Prop := Writable float value ∧ Distinct value

theorem writableItems_iff {items : List (Value φ)} :
    WritableItems float items ↔ ∀ item ∈ items, Writable float item := by
  induction items with
  | nil => exact iff_of_true trivial (fun _ member => absurd member List.not_mem_nil)
  | cons item items ih => rw [WritableItems, ih, List.forall_mem_cons]

theorem distinctItems_iff {items : List (Value φ)} : DistinctItems items ↔ ∀ item ∈ items, Distinct item := by
  induction items with
  | nil => exact iff_of_true trivial (fun _ member => absurd member List.not_mem_nil)
  | cons item items ih => rw [DistinctItems, ih, List.forall_mem_cons]

theorem writableFields_iff {fields : List (String × Value φ)} :
    WritableFields float fields ↔ ∀ field ∈ fields, Writable float field.2 := by
  induction fields with
  | nil => exact iff_of_true trivial (fun _ member => absurd member List.not_mem_nil)
  | cons field fields ih => rw [WritableFields, ih, List.forall_mem_cons]

theorem distinctFields_iff {fields : List (String × Value φ)} :
    DistinctFields fields ↔ ∀ field ∈ fields, Distinct field.2 := by
  induction fields with
  | nil => exact iff_of_true trivial (fun _ member => absurd member List.not_mem_nil)
  | cons field fields ih => rw [DistinctFields, ih, List.forall_mem_cons]

theorem sound_arr {items : List (Value φ)} (sound : ∀ item ∈ items, Sound float item) : Sound float (.arr items) :=
  ⟨(writableItems_iff float).mpr fun item member => (sound item member).1,
    distinctItems_iff.mpr fun item member => (sound item member).2⟩

theorem sound_obj {fields : List (String × Value φ)} (nodup : (fields.map Prod.fst).Nodup)
    (sound : ∀ field ∈ fields, Sound float field.2) : Sound float (.obj fields) :=
  ⟨(writableFields_iff float).mpr fun field member => (sound field member).1, nodup,
    distinctFields_iff.mpr fun field member => (sound field member).2⟩

theorem ofDigitChars_lt {digits : List Char} (all : ∀ c ∈ digits, c.isDigit = true) (first : ℕ) :
    Nat.ofDigitChars 10 digits first < 10 ^ digits.length * (first + 1) := by
  induction digits generalizing first with
  | nil =>
    rw [Nat.ofDigitChars_nil, List.length_nil, Nat.pow_zero, Nat.one_mul]
    exact Nat.lt_succ_self first
  | cons c digits ih =>
    have digit : c.toNat - '0'.toNat ≤ 9 := by
      have bounds := all c List.mem_cons_self
      rw [Char.isDigit_iff_toNat] at bounds
      have zero : '0'.toNat = 48 := rfl
      have nine : '9'.toNat = 57 := rfl
      omega
    rw [Nat.ofDigitChars_cons, List.length_cons, Nat.pow_succ, Nat.mul_assoc]
    refine (ih (fun c' member => all c' (List.mem_cons_of_mem _ member)) _).trans_le ?_
    exact Nat.mul_le_mul_left _ (by omega)

/-- An integer has no more digits than it was read from. -/
theorem length_digits {digits : List Char} (all : ∀ c ∈ digits, c.isDigit = true) (some' : digits ≠ []) :
    (Nat.toDigits 10 (Nat.ofDigitChars 10 digits 0)).length ≤ digits.length := by
  rw [Nat.length_toDigits_le_iff (by decide) (List.length_pos_iff.mpr some')]
  exact (ofDigitChars_lt all 0).trans_eq (Nat.mul_one _)

theorem scanNatural_chars {text : List Char} {read : List Char × List Char} (scanned : scanNatural text = some read) :
    read.1 ≠ [] ∧ ∀ c ∈ read.1, c.isDigit = true := by
  cases text with
  | nil => cases scanned
  | cons c rest =>
    rw [scanNatural] at scanned
    split_ifs at scanned with zero digit
    · cases scanned
      exact ⟨List.cons_ne_nil _ _, fun c' member => List.mem_singleton.mp member ▸ rfl⟩
    · cases scanned
      exact ⟨List.cons_ne_nil _ _, List.forall_mem_cons.mpr ⟨digit, fun c' member => List.mem_takeWhile_imp member⟩⟩

theorem wholeValue_short {text : List Char} {read : List Char × List Char} (scanned : scanWhole text = some read) :
    (Nat.toDigits 10 (wholeValue read.1).natAbs).length ≤ (read.1.filter Char.isDigit).length := by
  cases text with
  | nil => cases scanned
  | cons c rest =>
    rw [scanWhole] at scanned
    split_ifs at scanned with signed
    · obtain ⟨natural, found, rfl⟩ := Option.map_eq_some_iff.mp scanned
      obtain ⟨some', all⟩ := scanNatural_chars found
      rw [wholeValue, if_pos signed, Int.natAbs_neg, Int.natAbs_natCast, signed,
        List.filter_cons_of_neg (by decide), List.filter_eq_self.mpr all]
      exact length_digits all some'
    · obtain ⟨some', all⟩ := scanNatural_chars scanned
      rcases read with ⟨digits, rest'⟩
      cases digits with
      | nil => exact absurd rfl some'
      | cons c' digits =>
        rw [wholeValue, if_neg (unsigned all), Int.natAbs_natCast, List.filter_eq_self.mpr all]
        exact length_digits all some'

theorem sound_readScalar {text : List Char} {read : Value φ × List Char} (scalar : readScalar float text = .ok read) :
    Sound float read.1 := by
  rw [readScalar] at scalar
  cases word : readWord? float text with
  | some found =>
    rw [word] at scalar
    cases scalar
    obtain ⟨entry, present, rfl⟩ := Option.map_eq_some_iff.mp word
    have member := List.mem_of_find?_eq_some present
    simp only [words, List.mem_cons, List.not_mem_nil, or_false] at member
    rcases member with rfl | rfl | rfl | rfl | rfl | rfl
    · exact ⟨trivial, trivial⟩
    · exact ⟨trivial, trivial⟩
    · exact ⟨trivial, trivial⟩
    · exact ⟨float.representable_nan, trivial⟩
    · exact ⟨float.representable_infinity false, trivial⟩
    · exact ⟨float.representable_infinity true, trivial⟩
  | none =>
    rw [word] at scalar
    simp only [readNumber] at scalar
    cases scanned : scanNumber text with
    | none =>
      rw [scanned] at scalar
      cases scalar
    | some found =>
      rw [scanned] at scalar
      simp only [literalValue] at scalar
      split_ifs at scalar with isFloat long
      · cases scalar
        exact ⟨float.representable_read _, trivial⟩
      · cases scalar
      · cases scalar
        obtain ⟨whole, found', rfl⟩ := Option.map_eq_some_iff.mp scanned
        exact ⟨(wholeValue_short found').trans (Nat.not_lt.mp long), trivial⟩

/-- What the readers answer is sound. -/
theorem sound_reads (fuel : ℕ) :
    (∀ text read, readValue float fuel text = .ok read → Sound float read.1) ∧
    (∀ text read, readItems float fuel text = .ok read → ∀ item ∈ read.1, Sound float item) ∧
    ∀ text read, readFields float fuel text = .ok read → ∀ field ∈ read.1, Sound float field.2 := by
  induction fuel with
  | zero =>
    refine ⟨?_, ?_, ?_⟩
    · rintro text read ⟨⟩
    · rintro text read ⟨⟩
    · rintro text read ⟨⟩
  | succ fuel ih =>
    obtain ⟨values, items, fields⟩ := ih
    refine ⟨fun text read found => ?_, fun text read found => ?_, fun text read found => ?_⟩
    · cases text with
      | nil => cases found
      | cons c rest =>
        rw [readValue] at found
        split_ifs at found with quote bracket closed brace closed
        · obtain ⟨string, -, rfl⟩ := map_ok found
          exact ⟨trivial, trivial⟩
        · cases found
          exact ⟨trivial, trivial⟩
        · obtain ⟨read', found', rfl⟩ := map_ok found
          exact sound_arr float (items _ _ found')
        · cases found
          exact ⟨trivial, List.nodup_nil, trivial⟩
        · obtain ⟨read', found', rfl⟩ := map_ok found
          refine sound_obj float (Dict.ofEntries read'.1).nodup fun field member => ?_
          exact fields _ _ found' field (Dict.mem_ofEntries member)
        · exact sound_readScalar float found
    · rw [readItems] at found
      cases value : readValue float fuel text with
      | error error =>
        rw [value] at found
        cases found
      | ok read' =>
        rw [value] at found
        simp only at found
        have first := values _ _ value
        split at found
        · obtain ⟨more, found', rfl⟩ := map_ok found
          exact List.forall_mem_cons.mpr ⟨first, items _ _ found'⟩
        · cases found
          exact List.forall_mem_singleton.mpr first
        · cases found
    · rw [readFields.eq_def] at found
      simp only at found
      split at found
      · rename_i text' rest
        cases string : readString rest with
        | error error =>
          rw [string] at found
          cases found
        | ok named =>
          rw [string] at found
          simp only at found
          split at found
          · rename_i rest' colon
            cases value : readValue float fuel (skip rest') with
            | error error =>
              rw [value] at found
              cases found
            | ok read' =>
              rw [value] at found
              simp only at found
              have first := values _ _ value
              split at found
              · obtain ⟨more, found', rfl⟩ := map_ok found
                exact List.forall_mem_cons.mpr ⟨first, fields _ _ found'⟩
              · cases found
                exact List.forall_mem_singleton.mpr first
              · cases found
          · cases found
      · cases found

theorem sound_read {text : List Char} {value : Value φ} (found : read float text = .ok value) : Sound float value := by
  rw [read] at found
  cases value' : readValue float (fuelFor text.length) (skip text) with
  | error error =>
    rw [value'] at found
    cases found
  | ok read' =>
    rw [value'] at found
    simp only at found
    split_ifs at found
    · cases found
      exact (sound_reads float _).1 _ _ value'

end Quartr.Data.Json
