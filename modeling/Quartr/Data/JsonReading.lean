import Quartr.Data.JsonText

/-! # Reading what was written

The reader inverts the writer, in either layout.
-/

namespace Quartr.Data.Json

variable {φ : Type} (float : FloatText φ)

/-! ### Blanks -/

theorem skip_blanks {blanks : List Char} (blank : ∀ c ∈ blanks, isBlank c = true) (rest : List Char) :
    skip (blanks ++ rest) = skip rest := by
  induction blanks with
  | nil => rfl
  | cons c blanks ih =>
    rw [List.cons_append, skip, List.dropWhile_cons_of_pos (blank c List.mem_cons_self)]
    exact ih fun c' member => blank c' (List.mem_cons_of_mem _ member)

theorem length_skip (text : List Char) : (skip text).length ≤ text.length :=
  (List.dropWhile_suffix _).length_le

theorem Layout.edge_blank (layout : Layout) (depth : ℕ) : ∀ c ∈ layout.edge depth, isBlank c = true := by
  cases layout with
  | compact => exact fun _ member => nomatch member
  | indented width =>
    intro c member
    rcases List.mem_cons.mp member with rfl | space
    · rfl
    · rw [List.eq_of_mem_replicate space]
      rfl

theorem Layout.gap_blank (layout : Layout) (depth : ℕ) : ∀ c ∈ layout.gap depth, isBlank c = true := by
  cases layout with
  | compact =>
    intro c member
    rw [List.mem_singleton.mp member]
    rfl
  | indented width => exact Layout.edge_blank (.indented width) depth

/-- Blanks, commas and closing brackets end a number. -/
theorem stops_blank {c : Char} (blank : isBlank c = true) (rest : List Char) : Stops (c :: rest) := by
  rw [isBlank, decide_eq_true_iff] at blank
  rcases blank with rfl | rfl | rfl | rfl
  · exact stops_cons rfl (by decide) rest
  · exact stops_cons rfl (by decide) rest
  · exact stops_cons rfl (by decide) rest
  · exact stops_cons rfl (by decide) rest

/-! ### Scalars -/

/-- What begins a container or a string. -/
def Opens (c : Char) : Prop := c = '"' ∨ c = '[' ∨ c = '\x7b'

instance (c : Char) : Decidable (Opens c) := inferInstanceAs (Decidable (_ ∨ _ ∨ _))

/-- The text begins with a character that opens nothing. -/
def Plain (text : List Char) : Prop := ∃ c rest, text = c :: rest ∧ ¬ Opens c

theorem Plain.read {text : List Char} (plain : Plain text) (rest : List Char) (fuel : ℕ) :
    readValue float (fuel + 1) (text ++ rest) = readScalar float (text ++ rest) := by
  obtain ⟨c, text, rfl, opens⟩ := plain
  unfold Opens at opens
  rw [not_or, not_or] at opens
  rw [List.cons_append, readValue, if_neg opens.1, if_neg opens.2.1, if_neg opens.2.2]

/-- A number begins with a digit, behind a sign or not. -/
theorem scanNumber_head {text : List Char} {read : Literal × List Char} (scanned : scanNumber text = some read) :
    ∃ c rest, c.isDigit = true ∧ (text = c :: rest ∨ text = '-' :: c :: rest) := by
  have natural {text : List Char} {read : List Char × List Char} (found : scanNatural text = some read) :
      ∃ c rest, c.isDigit = true ∧ text = c :: rest := by
    cases text with
    | nil => cases found
    | cons c rest =>
      rw [scanNatural] at found
      split_ifs at found with zero digit
      · exact ⟨c, rest, zero ▸ rfl, rfl⟩
      · exact ⟨c, rest, digit, rfl⟩
  obtain ⟨whole, found, -⟩ := Option.map_eq_some_iff.mp scanned
  cases text with
  | nil => cases found
  | cons c rest =>
    rw [scanWhole] at found
    split_ifs at found with signed
    · obtain ⟨read, found, -⟩ := Option.map_eq_some_iff.mp found
      obtain ⟨c', rest', digit, rfl⟩ := natural found
      exact ⟨c', rest', digit, .inr (by rw [signed])⟩
    · obtain ⟨c', rest', digit, same⟩ := natural found
      exact ⟨c', rest', digit, .inl same⟩

theorem ne_of_digit {c c' : Char} (digit : c.isDigit = true) (other : c'.isDigit = false) : c ≠ c' := by
  rintro rfl
  exact Bool.false_ne_true (other.symm.trans digit)

theorem plain_number {text : List Char} {read : Literal × List Char} (scanned : scanNumber text = some read) :
    Plain text := by
  obtain ⟨c, rest, digit, rfl | rfl⟩ := scanNumber_head scanned
  · refine ⟨c, rest, rfl, ?_⟩
    rintro (rfl | rfl | rfl) <;> cases digit
  · exact ⟨'-', c :: rest, rfl, by decide⟩

/-- No word begins as a number does. -/
theorem readWord?_number {text : List Char} {read : Literal × List Char} (scanned : scanNumber text = some read)
    (rest : List Char) : readWord? float (text ++ rest) = none := by
  have none_of (nothing : ∀ word ∈ words float, word.1.isPrefixOf (text ++ rest) = false) :
      readWord? float (text ++ rest) = none := by
    have missing : (words float).find? (fun word => word.1.isPrefixOf (text ++ rest)) = none :=
      List.find?_eq_none.mpr fun word member => Bool.eq_false_iff.mp (nothing word member)
    rw [readWord?, missing]
    rfl
  refine none_of fun word member => ?_
  obtain ⟨c, tail, digit, rfl | rfl⟩ := scanNumber_head scanned
  · have begins {c' : Char} (other : c'.isDigit = false) (word : List Char) :
        (c' :: word).isPrefixOf (c :: tail ++ rest) = false := by
      rw [List.cons_append, List.isPrefixOf, beq_false_of_ne (ne_of_digit digit other).symm, Bool.false_and]
    simp only [words, List.mem_cons, List.not_mem_nil, or_false] at member
    rcases member with rfl | rfl | rfl | rfl | rfl | rfl
    all_goals exact begins (by decide) _
  · have second {c' : Char} (other : c'.isDigit = false) (word : List Char) :
        ('-' :: c' :: word).isPrefixOf ('-' :: c :: tail ++ rest) = false := by
      rw [List.cons_append, List.cons_append, List.isPrefixOf, List.isPrefixOf,
        beq_false_of_ne (ne_of_digit digit other).symm, Bool.false_and, Bool.and_false]
    simp only [words, List.mem_cons, List.not_mem_nil, or_false] at member
    rcases member with rfl | rfl | rfl | rfl | rfl | rfl
    · rfl
    · rfl
    · rfl
    · rfl
    · rfl
    · exact second (by decide) _

theorem readScalar_number {text : List Char} {literal : Literal} (scanned : scanNumber text = some (literal, []))
    {rest : List Char} (stops : Stops rest) :
    readScalar float (text ++ rest) = (literalValue float literal).map fun value => (value, rest) := by
  rw [readScalar, readWord?_number float scanned]
  simp only [readNumber, scanNumber_append scanned stops, List.nil_append]

theorem readScalar_int {n : ℤ} (short : (Nat.toDigits 10 n.natAbs).length ≤ digitLimit) {rest : List Char}
    (stops : Stops rest) : readScalar float ((toString n).toList ++ rest) = .ok (.int n, rest) := by
  rw [readScalar_number float (scanNumber_int n) stops, literalValue,
    if_neg fun isFloat => isFloat.elim (absurd rfl) (absurd rfl), digits_int, if_neg (Nat.not_lt.mpr short),
    wholeValue_int]
  rfl

/-- What a float is written as is read as the float. -/
theorem readScalar_float {value : φ} (representable : float.representable value) {rest : List Char}
    (stops : Stops rest) : readScalar float (float.write value ++ rest) = .ok (.float value, rest) := by
  rcases float.written value representable with
    ⟨rfl, text⟩ | ⟨rfl, text⟩ | ⟨rfl, text⟩ | ⟨literal, scanned, isFloat, read⟩
  · rw [text]
    rfl
  · rw [text]
    rfl
  · rw [text]
    rfl
  · rw [readScalar_number float scanned stops, literalValue, if_pos isFloat, read]
    rfl

/-! ### Values -/

variable (layout : Layout)

/-- A written value begins with a character that is neither a blank nor a closing bracket. -/
def Begins (text : List Char) : Prop := ∃ c rest, text = c :: rest ∧ isBlank c = false ∧ c ≠ ']'

theorem Begins.skip {text : List Char} (begins : Begins text) (rest : List Char) :
    skip (text ++ rest) = text ++ rest := by
  obtain ⟨c, text, rfl, visible, -⟩ := begins
  exact List.dropWhile_cons_of_neg (Bool.eq_false_iff.mp visible)

theorem Begins.append {text : List Char} (begins : Begins text) (rest : List Char) : Begins (text ++ rest) := by
  obtain ⟨c, text, rfl, visible, open'⟩ := begins
  exact ⟨c, text ++ rest, rfl, visible, open'⟩

theorem begins_number {text : List Char} {read : Literal × List Char} (scanned : scanNumber text = some read) :
    Begins text := by
  obtain ⟨c, rest, digit, rfl | rfl⟩ := scanNumber_head scanned
  · refine ⟨c, rest, rfl, ?_, ne_of_digit digit rfl⟩
    rw [isBlank, decide_eq_false_iff_not]
    rintro (rfl | rfl | rfl | rfl) <;> cases digit
  · exact ⟨'-', c :: rest, rfl, rfl, by decide⟩

theorem begins_write {value : Value φ} (writable : Writable float value) (depth : ℕ) :
    Begins (write float layout depth value) := by
  cases value with
  | null => exact ⟨'n', _, rfl, rfl, by decide⟩
  | bool value => cases value <;> exact ⟨_, _, rfl, rfl, by decide⟩
  | int value => exact begins_number (scanNumber_int value)
  | float value =>
    change Begins (float.write value)
    rcases float.written value writable with ⟨-, text⟩ | ⟨-, text⟩ | ⟨-, text⟩ | ⟨literal, scanned, -⟩
    · exact ⟨'N', _, text, rfl, by decide⟩
    · exact ⟨'I', _, text, rfl, by decide⟩
    · exact ⟨'-', _, text, rfl, by decide⟩
    · exact begins_number scanned
  | str text => exact ⟨'"', _, rfl, rfl, by decide⟩
  | arr items =>
    cases items with
    | nil => exact ⟨'[', _, rfl, rfl, by decide⟩
    | cons item items => exact ⟨'[', _, rfl, rfl, by decide⟩
  | obj fields =>
    cases fields with
    | nil => exact ⟨'\x7b', _, rfl, rfl, by decide⟩
    | cons field fields => exact ⟨'\x7b', _, rfl, rfl, by decide⟩

theorem readString_text (text : String) (rest : List Char) (fuel : ℕ) :
    readValue float (fuel + 1) (writeString text ++ rest) = .ok (.str text, rest) := by
  have read := readString_written text rest
  simp only [writeString, List.cons_append, List.append_assoc, List.nil_append]
  rw [readValue, if_pos rfl, read]
  rfl

/-! ### Containers -/

section Containers

variable {fuel : ℕ} {blanks text text' rest : List Char} {items : List (Value φ)} {value : Value φ} (key : String)
  {fields : List (String × Value φ)}

theorem skip_begins (blank : ∀ c ∈ blanks, isBlank c = true) (begins : Begins text) : skip (blanks ++ text) = text := by
  have whole := begins.skip []
  rw [List.append_nil] at whole
  rw [skip_blanks blank, whole]

theorem readValue_arr (blank : ∀ c ∈ blanks, isBlank c = true) (begins : Begins text)
    (read : readItems float fuel text = .ok (items, rest)) :
    readValue float (fuel + 1) ('[' :: (blanks ++ text)) = .ok (.arr items, rest) := by
  have some' : text.head? ≠ some ']' := by
    obtain ⟨c, tail, rfl, -, other⟩ := begins
    exact fun same => other (Option.some.inj same)
  rw [readValue, if_neg (by decide), if_pos rfl, skip_begins blank begins, if_neg some', read]
  rfl

theorem readItems_last (blank : ∀ c ∈ blanks, isBlank c = true)
    (read : readValue float fuel text = .ok (value, blanks ++ ']' :: rest)) :
    readItems float (fuel + 1) text = .ok ([value], rest) := by
  have closing : skip (']' :: rest) = ']' :: rest := rfl
  rw [readItems, read]
  simp only [skip_blanks blank, closing]

theorem readItems_more (blank : ∀ c ∈ blanks, isBlank c = true) (begins : Begins text')
    (read : readValue float fuel text = .ok (value, ',' :: (blanks ++ text')))
    (more : readItems float fuel text' = .ok (items, rest)) :
    readItems float (fuel + 1) text = .ok (value :: items, rest) := by
  have comma : skip (',' :: (blanks ++ text')) = ',' :: (blanks ++ text') := rfl
  rw [readItems, read]
  simp only [comma, skip_begins blank begins, more]
  rfl

theorem readValue_obj (blank : ∀ c ∈ blanks, isBlank c = true) (quoted : text.head? = some '"')
    (read : readFields float fuel text = .ok (fields, rest)) :
    readValue float (fuel + 1) ('\x7b' :: (blanks ++ text)) = .ok (.obj (Dict.ofEntries fields).entries, rest) := by
  have some' : text.head? ≠ some '\x7d' := by
    rw [quoted]
    decide
  have begins : Begins text := by
    cases text with
    | nil => cases quoted
    | cons c tail => exact ⟨c, tail, rfl, by cases quoted; rfl, by cases quoted; decide⟩
  rw [readValue, if_neg (by decide), if_neg (by decide), if_pos rfl, skip_begins blank begins, if_neg some', read]
  rfl

theorem skip_space (begins : Begins text) : skip (' ' :: text) = text :=
  @skip_begins [' '] text (fun _ member => List.mem_singleton.mp member ▸ rfl) begins

theorem readFields_last (blank : ∀ c ∈ blanks, isBlank c = true) (begins : Begins text)
    (read : readValue float fuel text = .ok (value, blanks ++ '\x7d' :: rest)) :
    readFields float (fuel + 1) (writeString key ++ [':', ' '] ++ text) = .ok ([(key, value)], rest) := by
  have name := readString_written key (':' :: ' ' :: text)
  have colon : skip (':' :: ' ' :: text) = ':' :: ' ' :: text := rfl
  have closing : skip ('\x7d' :: rest) = '\x7d' :: rest := rfl
  simp only [writeString, List.cons_append, List.append_assoc, List.nil_append]
  rw [readFields, name]
  simp only [colon, skip_space begins, read, skip_blanks blank, closing]

theorem readFields_more (blank : ∀ c ∈ blanks, isBlank c = true) (begins : Begins text) (begins' : Begins text')
    (read : readValue float fuel text = .ok (value, ',' :: (blanks ++ text')))
    (more : readFields float fuel text' = .ok (fields, rest)) :
    readFields float (fuel + 1) (writeString key ++ [':', ' '] ++ text) = .ok ((key, value) :: fields, rest) := by
  have name := readString_written key (':' :: ' ' :: text)
  have colon : skip (':' :: ' ' :: text) = ':' :: ' ' :: text := rfl
  have comma : skip (',' :: (blanks ++ text')) = ',' :: (blanks ++ text') := rfl
  simp only [writeString, List.cons_append, List.append_assoc, List.nil_append]
  rw [readFields, name]
  simp only [colon, skip_space begins, read, comma, skip_begins blank begins', more]
  rfl

end Containers

section RoundTrip

theorem begins_writeItems {items : List (Value φ)} (some' : items ≠ []) (writable : WritableItems float items)
    (depth : ℕ) : Begins (writeItems float layout depth items) := by
  cases items with
  | nil => exact absurd rfl some'
  | cons item items => exact (begins_write float layout writable.1 depth).append _

theorem quoted_writeFields {fields : List (String × Value φ)} (some' : fields ≠ []) (depth : ℕ) :
    ∃ rest, writeFields float layout depth fields = '"' :: rest := by
  cases fields with
  | nil => exact absurd rfl some'
  | cons field fields => exact ⟨_, rfl⟩

theorem stops_closing (c : Char) (closing : c = ',' ∨ c = ']' ∨ c = '\x7d') (rest : List Char) : Stops (c :: rest) := by
  rcases closing with rfl | rfl | rfl
  · exact stops_cons rfl (by decide) rest
  · exact stops_cons rfl (by decide) rest
  · exact stops_cons rfl (by decide) rest

mutual

/-- The value that was written is read, and what is behind it is left. -/
theorem readValue_write : (value : Value φ) → Writable float value → Distinct value →
    ∀ (depth fuel : ℕ) (rest : List Char), 2 * (write float layout depth value).length ≤ fuel → Stops rest →
      readValue float fuel (write float layout depth value ++ rest) = .ok (value, rest)
  | value, writable, distinct, depth, 0, rest, enough, _ => by
    obtain ⟨c, tail, text, -⟩ := begins_write float layout writable depth
    rw [text, List.length_cons] at enough
    omega
  | .null, _, _, depth, fuel + 1, rest, _, _ => Plain.read float ⟨'n', _, rfl, by decide⟩ rest fuel
  | .bool true, _, _, depth, fuel + 1, rest, _, _ => Plain.read float ⟨'t', _, rfl, by decide⟩ rest fuel
  | .bool false, _, _, depth, fuel + 1, rest, _, _ => Plain.read float ⟨'f', _, rfl, by decide⟩ rest fuel
  | .int value, short, _, depth, fuel + 1, rest, _, stops =>
    (Plain.read float (plain_number (scanNumber_int value)) rest fuel).trans (readScalar_int float short stops)
  | .float value, representable, _, depth, fuel + 1, rest, _, stops => by
    refine (Plain.read float ?_ rest fuel).trans (readScalar_float float representable stops)
    rcases float.written value representable with ⟨-, text⟩ | ⟨-, text⟩ | ⟨-, text⟩ | ⟨literal, scanned, -⟩
    · exact ⟨'N', _, text, by decide⟩
    · exact ⟨'I', _, text, by decide⟩
    · exact ⟨'-', _, text, by decide⟩
    · exact plain_number scanned
  | .str text, _, _, depth, fuel + 1, rest, _, _ => readString_text float text rest fuel
  | .arr [], _, _, depth, fuel + 1, rest, _, _ => rfl
  | .arr (item :: items), writable, distinct, depth, fuel + 1, rest, enough, _ => by
    have written : write float layout depth (.arr (item :: items)) =
        '[' :: layout.edge (depth + 1) ++ writeItems float layout (depth + 1) (item :: items) ++ layout.edge depth ++
          [']'] := rfl
    rw [written] at enough ⊢
    simp only [List.length_append, List.length_cons] at enough
    have read := readItems_write (item :: items) (List.cons_ne_nil _ _) writable distinct (depth + 1) fuel
      (layout.edge depth) rest (layout.edge_blank depth) (by omega)
    have begins := begins_writeItems float layout (List.cons_ne_nil _ _) writable (depth + 1)
    have whole := readValue_arr float (layout.edge_blank (depth + 1)) ((begins.append _).append _) read
    simp only [List.cons_append, List.append_assoc, List.nil_append] at whole ⊢
    exact whole
  | .obj [], _, _, depth, fuel + 1, rest, _, _ => rfl
  | .obj (field :: fields), writable, distinct, depth, fuel + 1, rest, enough, _ => by
    have written : write float layout depth (.obj (field :: fields)) =
        '\x7b' :: layout.edge (depth + 1) ++ writeFields float layout (depth + 1) (field :: fields) ++
          layout.edge depth ++ ['\x7d'] := rfl
    rw [written] at enough ⊢
    simp only [List.length_append, List.length_cons] at enough
    have read := readFields_write (field :: fields) (List.cons_ne_nil _ _) writable distinct.2 (depth + 1) fuel
      (layout.edge depth) rest (layout.edge_blank depth) (by omega)
    obtain ⟨tail, quoted⟩ := quoted_writeFields float layout (List.cons_ne_nil field fields) (depth + 1)
    have whole := readValue_obj float (layout.edge_blank (depth + 1)) (by rw [quoted]; rfl) read
    rw [Dict.entries_ofEntries distinct.1] at whole
    simp only [List.cons_append, List.append_assoc, List.nil_append] at whole ⊢
    exact whole

theorem readItems_write : (items : List (Value φ)) → items ≠ [] → WritableItems float items → DistinctItems items →
    ∀ (depth fuel : ℕ) (blanks rest : List Char), (∀ c ∈ blanks, isBlank c = true) →
      2 * (writeItems float layout depth items).length < fuel →
      readItems float fuel (writeItems float layout depth items ++ blanks ++ ']' :: rest) = .ok (items, rest)
  | [], some', _, _, _, _, _, _, _, _ => absurd rfl some'
  | _ :: _, _, _, _, _, 0, _, _, _, enough => absurd enough (Nat.not_lt_zero _)
  | [item], _, writable, distinct, depth, fuel + 1, blanks, rest, blank, enough => by
    have written : writeItems float layout depth [item] = write float layout depth item := List.append_nil _
    rw [written] at enough ⊢
    have stops : Stops (blanks ++ ']' :: rest) := by
      cases blanks with
      | nil => exact stops_closing ']' (.inr (.inl rfl)) rest
      | cons c blanks => exact stops_blank (blank c List.mem_cons_self) _
    have read := readValue_write item writable.1 distinct.1 depth fuel _ (by omega) stops
    rw [List.append_assoc]
    exact readItems_last float blank read
  | item :: next :: items, _, writable, distinct, depth, fuel + 1, blanks, rest, blank, enough => by
    have written : writeItems float layout depth (item :: next :: items) =
        write float layout depth item ++ (',' :: layout.gap depth ++ writeItems float layout depth (next :: items)) :=
      rfl
    rw [written] at enough ⊢
    simp only [List.length_append, List.length_cons] at enough
    have more := readItems_write (next :: items) (List.cons_ne_nil _ _) writable.2 distinct.2 depth fuel blanks rest
      blank (by omega)
    have begins := begins_writeItems float layout (List.cons_ne_nil _ _) writable.2 depth
    have read := readValue_write item writable.1 distinct.1 depth fuel
      (',' :: (layout.gap depth ++ (writeItems float layout depth (next :: items) ++ blanks ++ ']' :: rest)))
      (by omega) (stops_closing ',' (.inl rfl) _)
    have whole := readItems_more float (layout.gap_blank depth) ((begins.append _).append _) read more
    simp only [List.cons_append, List.append_assoc] at whole ⊢
    exact whole

theorem readFields_write : (fields : List (String × Value φ)) → fields ≠ [] → WritableFields float fields →
    DistinctFields fields → ∀ (depth fuel : ℕ) (blanks rest : List Char), (∀ c ∈ blanks, isBlank c = true) →
      2 * (writeFields float layout depth fields).length < fuel →
      readFields float fuel (writeFields float layout depth fields ++ blanks ++ '\x7d' :: rest) = .ok (fields, rest)
  | [], some', _, _, _, _, _, _, _, _ => absurd rfl some'
  | _ :: _, _, _, _, _, 0, _, _, _, enough => absurd enough (Nat.not_lt_zero _)
  | [(key, value)], _, writable, distinct, depth, fuel + 1, blanks, rest, blank, enough => by
    have written : writeFields float layout depth [(key, value)] =
        writeString key ++ [':', ' '] ++ write float layout depth value := List.append_nil _
    rw [written] at enough ⊢
    simp only [List.length_append] at enough
    have stops : Stops (blanks ++ '\x7d' :: rest) := by
      cases blanks with
      | nil => exact stops_closing '\x7d' (.inr (.inr rfl)) rest
      | cons c blanks => exact stops_blank (blank c List.mem_cons_self) _
    have read := readValue_write value writable.1 distinct.1 depth fuel _ (by omega) stops
    have begins := begins_write float layout writable.1 depth
    have whole := readFields_last float key blank (begins.append _) read
    simp only [List.append_assoc] at whole ⊢
    exact whole
  | (key, value) :: next :: fields, _, writable, distinct, depth, fuel + 1, blanks, rest, blank, enough => by
    have written : writeFields float layout depth ((key, value) :: next :: fields) =
        writeString key ++ [':', ' '] ++ write float layout depth value ++
          (',' :: layout.gap depth ++ writeFields float layout depth (next :: fields)) := rfl
    rw [written] at enough ⊢
    simp only [List.length_append, List.length_cons] at enough
    have more := readFields_write (next :: fields) (List.cons_ne_nil _ _) writable.2 distinct.2 depth fuel blanks rest
      blank (by omega)
    have begins' : Begins (writeFields float layout depth (next :: fields)) := by
      obtain ⟨tail, quoted⟩ := quoted_writeFields float layout (List.cons_ne_nil next fields) depth
      exact ⟨'"', tail, quoted, rfl, by decide⟩
    have read := readValue_write value writable.1 distinct.1 depth fuel
      (',' :: (layout.gap depth ++ (writeFields float layout depth (next :: fields) ++ blanks ++ '\x7d' :: rest)))
      (by omega) (stops_closing ',' (.inl rfl) _)
    have begins := begins_write float layout writable.1 depth
    have whole := readFields_more float key (layout.gap_blank depth) (begins.append _)
      ((begins'.append _).append _) read more
    simp only [List.cons_append, List.append_assoc] at whole ⊢
    exact whole

end

/-- Reading inverts writing. -/
theorem read_write {value : Value φ} (writable : Writable float value) (distinct : Distinct value) :
    read float (write float layout 0 value) = .ok value := by
  have begins := begins_write float layout writable 0
  have whole := readValue_write float layout value writable distinct 0 (fuelFor (write float layout 0 value).length) []
    (Nat.le_succ _) stops_nil
  have visible := begins.skip []
  rw [List.append_nil] at whole visible
  rw [read, visible, whole]
  rfl

end RoundTrip

end Quartr.Data.Json
