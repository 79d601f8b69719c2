import Quartr.Data.Json
import Mathlib.Data.Char
import Mathlib.Tactic.IntervalCases
import Mathlib.Tactic.SplitIfs

/-! # Strings and numbers of JSON texts

What the writer writes of a string is read back as the string, surrogate pairs included. A number is scanned
in the same way whatever follows it, as long as what follows cannot go on with it.
-/

namespace Quartr.Data.Json

/-! ### Strings -/

theorem hexValue?_hexDigit {n : ℕ} (small : n < 16) : hexValue? (hexDigit n) = some n := by
  interval_cases n <;> decide

theorem hexValues?_digits {n : ℕ} (small : n < 0x10000) :
    hexValues? (hexDigit (n / 4096 % 16)) (hexDigit (n / 256 % 16)) (hexDigit (n / 16 % 16)) (hexDigit (n % 16)) =
      some n := by
  have digit (k : ℕ) : hexValue? (hexDigit (k % 16)) = some (k % 16) :=
    hexValue?_hexDigit (Nat.mod_lt _ (by omega))
  rw [hexValues?, digit, digit, digit, digit]
  exact congrArg some (by omega)

/-- The code units of a character. -/
def units (c : Char) : List ℕ :=
  if c.toNat < 0x10000 then [c.toNat]
  else [0xD800 + (c.toNat - 0x10000) / 0x400, 0xDC00 + (c.toNat - 0x10000) % 0x400]

theorem scanUnits_unicodeEscape {n : ℕ} (small : n < 0x10000) (rest : List Char) :
    scanUnits (unicodeEscape n ++ rest) = (scanUnits rest).map fun read => (n :: read.1, read.2) := by
  rw [unicodeEscape]
  simp only [List.cons_append, List.nil_append]
  rw [scanUnits.eq_def]
  simp only [hexValues?_digits small]
  rfl

/-- A backslash and one more character. -/
theorem scanUnits_mark {mark : Char} {unit : ℕ} (named : escaped? mark = some unit) (rest : List Char) :
    scanUnits ('\\' :: mark :: rest) = (scanUnits rest).map fun read => (unit :: read.1, read.2) := by
  have other : mark ≠ 'u' := by
    rintro rfl
    cases named
  rw [scanUnits.eq_def]
  simp only [if_neg other, named]
  rfl

theorem scanUnits_plain {c : Char} (quote : c ≠ '"') (slash : c ≠ '\\') (visible : 0x20 ≤ c.toNat)
    (rest : List Char) :
    scanUnits (c :: rest) = (scanUnits rest).map fun read => (c.toNat :: read.1, read.2) := by
  rw [scanUnits.eq_def]
  simp only [if_neg quote, if_neg slash, if_neg (Nat.not_lt.mpr visible)]

theorem scanUnits_escape (c : Char) (rest : List Char) :
    scanUnits (escape c ++ rest) = (scanUnits rest).map fun read => (units c ++ read.1, read.2) := by
  have single (small : c.toNat < 0x10000) : units c = [c.toNat] := if_pos small
  have marked {mark : Char} (named : escaped? mark = some c.toNat) (small : c.toNat < 0x10000) :
      scanUnits (['\\', mark] ++ rest) = (scanUnits rest).map fun read => (units c ++ read.1, read.2) := by
    rw [single small]
    exact scanUnits_mark named rest
  simp only [escape]
  split_ifs with quote slash code code code code code visible small
  · exact marked (by rw [quote]; rfl) (by rw [quote]; decide)
  · exact marked (by rw [slash]; rfl) (by rw [slash]; decide)
  · exact marked (by rw [code]; rfl) (by omega)
  · exact marked (by rw [code]; rfl) (by omega)
  · exact marked (by rw [code]; rfl) (by omega)
  · exact marked (by rw [code]; rfl) (by omega)
  · exact marked (by rw [code]; rfl) (by omega)
  · rw [single (by omega)]
    exact scanUnits_plain quote slash visible.1 rest
  · rw [single small]
    exact scanUnits_unicodeEscape small rest
  · have bound : c.toNat < 0x110000 := by
      rcases c.valid with low | high
      · exact low.trans (by decide)
      · exact high.2
    rw [List.append_assoc, scanUnits_unicodeEscape (by omega), scanUnits_unicodeEscape (by omega), units,
      if_neg small]
    cases scanUnits rest <;> rfl

theorem scanUnits_written (text rest : List Char) :
    scanUnits (text.flatMap escape ++ '"' :: rest) = .ok (text.flatMap units, rest) := by
  induction text with
  | nil =>
    rw [List.flatMap_nil, List.nil_append, scanUnits.eq_def]
    rfl
  | cons c text ih =>
    rw [List.flatMap_cons, List.append_assoc, scanUnits_escape, ih, List.flatMap_cons]
    rfl

theorem joinUnits_units (c : Char) (rest : List ℕ) :
    joinUnits (units c ++ rest) = (joinUnits rest).map (c :: ·) := by
  have valid := c.valid
  unfold UInt32.isValidChar Nat.isValidChar at valid
  change c.toNat < 0xD800 ∨ 0xDFFF < c.toNat ∧ c.toNat < 0x110000 at valid
  unfold units
  split_ifs with small
  · have high : isHigh c.toNat = false := by
      rw [isHigh, decide_eq_false_iff_not]
      omega
    have low : isLow c.toNat = false := by
      rw [isLow, decide_eq_false_iff_not]
      omega
    rw [List.cons_append, List.nil_append, joinUnits.eq_def]
    simp only [high, low, Char.ofNat_toNat, Bool.false_eq_true, if_false]
  · have high : isHigh (0xD800 + (c.toNat - 0x10000) / 0x400) = true := by
      rw [isHigh, decide_eq_true_iff]
      omega
    have low : isLow (0xDC00 + (c.toNat - 0x10000) % 0x400) = true := by
      rw [isLow, decide_eq_true_iff]
      omega
    have joined : 0x10000 + (0xD800 + (c.toNat - 0x10000) / 0x400 - 0xD800) * 0x400 +
        (0xDC00 + (c.toNat - 0x10000) % 0x400 - 0xDC00) = c.toNat := by omega
    rw [List.cons_append, List.cons_append, List.nil_append, joinUnits.eq_def]
    simp only [high, low, joined, Char.ofNat_toNat, if_true]

theorem joinUnits_written (text : List Char) : joinUnits (text.flatMap units) = .ok text := by
  induction text with
  | nil => rfl
  | cons c text ih =>
    rw [List.flatMap_cons, joinUnits_units, ih]
    rfl

/-- The string that was written is read, and what is behind it is left. -/
theorem readString_written (text : String) (rest : List Char) :
    readString (text.toList.flatMap escape ++ '"' :: rest) = .ok (text, rest) := by
  rw [readString, scanUnits_written]
  simp only [joinUnits_written, Except.map, String.ofList_toList]

/-! ### Numbers -/

/-- What no number goes on with. -/
def Stops (text : List Char) : Prop := ∀ c ∈ text.head?, c.isDigit = false ∧ c ∉ ['.', 'e', 'E', '+', '-']

/-- What digits do not go on with. -/
def EndsDigits (text : List Char) : Prop := ∀ c ∈ text.head?, c.isDigit = false

theorem Stops.endsDigits {text : List Char} (stops : Stops text) : EndsDigits text :=
  fun c member => (stops c member).1

theorem stops_nil : Stops [] := fun _ member => nomatch member

theorem stops_cons {c : Char} (digit : c.isDigit = false) (mark : c ∉ ['.', 'e', 'E', '+', '-'])
    (rest : List Char) : Stops (c :: rest) := by
  rintro c' member
  cases Option.some.inj member
  exact ⟨digit, mark⟩

theorem scanDigits_cons (c : Char) (text : List Char) :
    scanDigits (c :: text) =
      if c.isDigit then (c :: (scanDigits text).1, (scanDigits text).2) else ([], c :: text) := by
  simp only [scanDigits, List.takeWhile_cons, List.dropWhile_cons]
  split_ifs <;> rfl

theorem scanDigits_ends {text : List Char} (ends : EndsDigits text) : scanDigits text = ([], text) := by
  cases text with
  | nil => rfl
  | cons c text => rw [scanDigits_cons, if_neg (Bool.eq_false_iff.mp (ends c rfl))]

theorem scanDigits_append (text : List Char) {rest : List Char} (ends : EndsDigits rest) :
    scanDigits (text ++ rest) = ((scanDigits text).1, (scanDigits text).2 ++ rest) := by
  induction text with
  | nil => exact scanDigits_ends ends
  | cons c text ih =>
    rw [List.cons_append, scanDigits_cons, scanDigits_cons, ih]
    split_ifs <;> rfl

theorem scanNatural_append {text : List Char} {read : List Char × List Char} (scanned : scanNatural text = some read)
    {rest : List Char} (ends : EndsDigits rest) : scanNatural (text ++ rest) = some (read.1, read.2 ++ rest) := by
  cases text with
  | nil => cases scanned
  | cons c text =>
    rw [scanNatural] at scanned
    rw [List.cons_append, scanNatural, scanDigits_append text ends]
    split_ifs at scanned ⊢ with zero digit
    · cases scanned
      rfl
    · cases scanned
      rfl

theorem scanWhole_append {text : List Char} {read : List Char × List Char} (scanned : scanWhole text = some read)
    {rest : List Char} (ends : EndsDigits rest) : scanWhole (text ++ rest) = some (read.1, read.2 ++ rest) := by
  cases text with
  | nil => cases scanned
  | cons c text =>
    rw [scanWhole] at scanned
    rw [List.cons_append, scanWhole]
    split_ifs at scanned ⊢ with signed
    · obtain ⟨natural, found, rfl⟩ := Option.map_eq_some_iff.mp scanned
      rw [scanNatural_append found ends]
      rfl
    · exact scanNatural_append scanned ends

theorem scanFraction_append (text : List Char) {rest : List Char} (stops : Stops rest) :
    scanFraction (text ++ rest) = ((scanFraction text).1, (scanFraction text).2 ++ rest) := by
  cases text with
  | nil =>
    cases rest with
    | nil => rfl
    | cons c rest =>
      refine if_neg ?_
      rintro ⟨rfl, _⟩
      exact (stops '.' rfl).2 (by decide)
  | cons c text =>
    rw [List.cons_append, scanFraction, scanFraction, scanDigits_append text stops.endsDigits]
    split_ifs <;> rfl

theorem scanSign_append (text : List Char) {rest : List Char} (stops : Stops rest) :
    scanSign (text ++ rest) = ((scanSign text).1, (scanSign text).2 ++ rest) := by
  cases text with
  | nil =>
    cases rest with
    | nil => rfl
    | cons c rest =>
      refine if_neg ?_
      rintro (rfl | rfl)
      · exact (stops '-' rfl).2 (by decide)
      · exact (stops '+' rfl).2 (by decide)
  | cons c text =>
    rw [List.cons_append, scanSign, scanSign]
    split_ifs <;> rfl

theorem scanExponent_append (text : List Char) {rest : List Char} (stops : Stops rest) :
    scanExponent (text ++ rest) = ((scanExponent text).1, (scanExponent text).2 ++ rest) := by
  cases text with
  | nil =>
    cases rest with
    | nil => rfl
    | cons c rest =>
      refine if_neg ?_
      rintro ⟨rfl | rfl, _⟩
      · exact (stops 'e' rfl).2 (by decide)
      · exact (stops 'E' rfl).2 (by decide)
  | cons c text =>
    simp only [List.cons_append, scanExponent, scanSign_append text stops, scanDigits_append _ stops.endsDigits]
    split_ifs <;> rfl

/-- A number is scanned in the same way when something follows that cannot go on with it. -/
theorem scanNumber_append {text : List Char} {read : Literal × List Char} (scanned : scanNumber text = some read)
    {rest : List Char} (stops : Stops rest) : scanNumber (text ++ rest) = some (read.1, read.2 ++ rest) := by
  obtain ⟨whole, found, rfl⟩ := Option.map_eq_some_iff.mp scanned
  rw [scanNumber, scanWhole_append found stops.endsDigits]
  simp only [Option.map_some, scanFraction_append _ stops, scanExponent_append _ stops]

/-! ### Integers -/

theorem int_text (n : ℤ) :
    (toString n).toList = if n < 0 then '-' :: Nat.toDigits 10 n.natAbs else Nat.toDigits 10 n.natAbs := by
  cases n with
  | ofNat n =>
    have plain : (toString (Int.ofNat n)).toList = Nat.toDigits 10 n := Nat.toList_repr
    have positive : ¬ Int.ofNat n < 0 := Int.not_lt.mpr (Int.natCast_nonneg n)
    rw [plain, if_neg positive]
    rfl
  | negSucc n =>
    have signed : (toString (Int.negSucc n)).toList = '-' :: Nat.toDigits 10 (n + 1) := by
      show ("-" ++ Nat.repr (n + 1)).toList = _
      rw [String.toList_append, Nat.toList_repr]
      rfl
    rw [signed, if_pos (Int.negSucc_lt_zero n)]
    rfl

theorem digits_chars (n : ℕ) : ∀ c ∈ Nat.toDigits 10 n, c.isDigit = true :=
  fun _ => Nat.isDigit_of_mem_toDigits (by decide) (by decide)

/-- Only zero is written with a leading zero. -/
theorem digits_head (n : ℕ) : n = 0 ∨ (Nat.toDigits 10 n).head? ≠ some '0' := by
  induction n using Nat.strongRecOn with
  | ind n ih =>
    by_cases small : n < 10
    · rw [Nat.toDigits_of_lt_base small]
      simp only [List.head?_cons, ne_eq, Option.some.injEq, Nat.digitChar_eq_zero]
      omega
    · right
      rw [Nat.toDigits_of_base_le (by decide) (by omega), List.head?_append_of_ne_nil _ Nat.toDigits_ne_nil]
      exact (ih (n / 10) (by omega)).resolve_left (by omega)

theorem scanDigits_all {digits : List Char} (all : ∀ c ∈ digits, c.isDigit = true) :
    scanDigits digits = (digits, []) := by
  induction digits with
  | nil => rfl
  | cons c digits ih =>
    rw [scanDigits_cons, if_pos (all c List.mem_cons_self), ih fun c' member => all c' (List.mem_cons_of_mem _ member)]

theorem scanNatural_digits (n : ℕ) : scanNatural (Nat.toDigits 10 n) = some (Nat.toDigits 10 n, []) := by
  rcases digits_head n with rfl | head
  · rfl
  · have all := digits_chars n
    cases digits : Nat.toDigits 10 n with
    | nil => exact absurd digits Nat.toDigits_ne_nil
    | cons c rest =>
      rw [digits] at head all
      have nonzero : c ≠ '0' := fun same => head (congrArg some same)
      rw [scanNatural, if_neg nonzero, if_pos (all c List.mem_cons_self),
        scanDigits_all fun c' member => all c' (List.mem_cons_of_mem _ member)]

theorem unsigned {c : Char} {rest : List Char} (all : ∀ c' ∈ c :: rest, c'.isDigit = true) : c ≠ '-' := by
  rintro rfl
  exact absurd (all '-' List.mem_cons_self) (by decide)

theorem scanWhole_int (n : ℤ) : scanWhole (toString n).toList = some ((toString n).toList, []) := by
  rw [int_text]
  split_ifs with negative
  · rw [scanWhole, if_pos rfl, scanNatural_digits]
    rfl
  · have scanned := scanNatural_digits n.natAbs
    have all := digits_chars n.natAbs
    cases digits : Nat.toDigits 10 n.natAbs with
    | nil => exact absurd digits Nat.toDigits_ne_nil
    | cons c rest =>
      rw [digits] at scanned all
      rw [scanWhole, if_neg (unsigned all), scanned]

theorem scanNumber_int (n : ℤ) : scanNumber (toString n).toList = some (⟨(toString n).toList, [], []⟩, []) := by
  rw [scanNumber, scanWhole_int]
  rfl

theorem wholeValue_int (n : ℤ) : wholeValue (toString n).toList = n := by
  rw [int_text]
  split_ifs with negative
  · rw [wholeValue, if_pos rfl, Nat.ofDigitChars_ten_toDigits]
    omega
  · have value := @Nat.ofDigitChars_ten_toDigits n.natAbs
    have all := digits_chars n.natAbs
    cases digits : Nat.toDigits 10 n.natAbs with
    | nil => exact absurd digits Nat.toDigits_ne_nil
    | cons c rest =>
      rw [digits] at value all
      rw [wholeValue, if_neg (unsigned all), value]
      omega

theorem digits_int (n : ℤ) : (toString n).toList.filter Char.isDigit = Nat.toDigits 10 n.natAbs := by
  have all : (Nat.toDigits 10 n.natAbs).filter Char.isDigit = Nat.toDigits 10 n.natAbs :=
    List.filter_eq_self.mpr (digits_chars _)
  rw [int_text]
  split_ifs
  · rw [List.filter_cons_of_neg (by decide), all]
  · exact all

end Quartr.Data.Json
