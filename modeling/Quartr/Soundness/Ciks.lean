import Mathlib.Data.List.DropRight
import Quartr.Model.Mapping
import Quartr.Soundness.Refs

/-! # Normalized CIKs

`normalize_cik` accepts what is written with digits only, up to spaces around it. The result has the same
value and is its own normal form.
-/

namespace Quartr.Soundness

open Quartr.Model.Mapping

variable {python : Python}

/-! ### Digits -/

theorem mem_dropWhile {p : Char → Bool} {c : Char} {text : List Char} (member : c ∈ text) (kept : p c = false) :
    c ∈ text.dropWhile p := by
  induction text with
  | nil => exact member
  | cons first rest ih =>
    rw [List.dropWhile_cons]
    split_ifs with dropped
    · rcases List.mem_cons.mp member with rfl | behind
      · rw [kept] at dropped
        cases dropped
      · exact ih behind
    · exact member

theorem mem_strip {c : Char} {text : List Char} (member : c ∈ text) (visible : Model.Text.isSpace c = false) :
    c ∈ Model.Text.strip text :=
  List.mem_reverse.mpr (mem_dropWhile (List.mem_reverse.mpr (mem_dropWhile member visible)) visible)

/-- No digit is a space. -/
theorem digit_visible {c : Char} (digit : (digit? c).isSome = true) : Model.Text.isSpace c = false := by
  have none' : ∀ n ∈ [9, 10, 11, 12, 13, 0x1C, 0x1D, 0x1E, 0x1F, 0x20, 0x85, 0xA0, 0x1680, 0x2000, 0x2001, 0x2002,
      0x2003, 0x2004, 0x2005, 0x2006, 0x2007, 0x2008, 0x2009, 0x200A, 0x2028, 0x2029, 0x202F, 0x205F, 0x3000],
      (Model.Text.decimalZeros.find? fun first => first ≤ n ∧ n < first + 10) = none ∧
        (digitRanges.find? fun range => range.1 ≤ n ∧ n < range.1 + range.2.1) = none := by
    decide +kernel
  by_contra space
  have listed : c.toNat ∈ [9, 10, 11, 12, 13, 0x1C, 0x1D, 0x1E, 0x1F, 0x20, 0x85, 0xA0, 0x1680, 0x2000, 0x2001,
      0x2002, 0x2003, 0x2004, 0x2005, 0x2006, 0x2007, 0x2008, 0x2009, 0x200A, 0x2028, 0x2029, 0x202F, 0x205F,
      0x3000] := by
    simp [Model.Text.isSpace] at space ⊢
    omega
  unfold digit? Model.Text.digitValue? at digit
  rw [(none' _ listed).1, (none' _ listed).2] at digit
  cases digit

/-- The digits that count: without spaces around them and without leading zeros. -/
def significant (text : List Char) : List Char :=
  if (Model.Text.strip text).dropWhile (· = '0') = [] then ['0'] else (Model.Text.strip text).dropWhile (· = '0')

def Digits (text : List Char) : Prop := ∀ c ∈ text, (digit? c).isSome = true

theorem digit_zero : digit? '0' = some 0 := by decide +kernel

theorem digits_dropWhile {text : List Char} : Digits (text.dropWhile (· = '0')) ↔ Digits text := by
  constructor
  · intro digits c member
    by_cases zero : c = '0'
    · rw [zero, digit_zero]
      rfl
    · exact digits c (mem_dropWhile member (decide_eq_false zero))
  · exact fun digits c member => digits c ((List.dropWhile_sublist _).subset member)

theorem digits_significant {text : List Char} : Digits (significant text) ↔ Digits (Model.Text.strip text) := by
  unfold significant
  split_ifs with nothing
  · rw [← @digits_dropWhile (Model.Text.strip text), nothing]
    refine iff_of_true ?_ (fun c member => absurd member List.not_mem_nil)
    rintro c (_ | ⟨_, ⟨⟩⟩)
    rw [digit_zero]
    rfl
  · exact digits_dropWhile

theorem normalizeCik_digits {cik : Json} (digits : Digits (Model.Text.strip (cik.text python).toList)) :
    normalizeCik python cik =
      .ok (Model.Text.zfill 10 (String.ofList (significant (cik.text python).toList))) :=
  if_pos (List.all_eq_true.mpr (digits_significant.mpr digits))

theorem normalizeCik_error {cik : Json} (other : ¬ Digits (Model.Text.strip (cik.text python).toList)) :
    normalizeCik python cik = .error (.value ("Invalid CIK: " ++ cik.repr python)) :=
  if_neg (mt List.all_eq_true.mp (mt digits_significant.mp other))

theorem normalizeCik_inv {cik : Json} {text : String} (normalized : normalizeCik python cik = .ok text) :
    Digits (Model.Text.strip (cik.text python).toList) ∧
      text = Model.Text.zfill 10 (String.ofList (significant (cik.text python).toList)) := by
  by_cases digits : Digits (Model.Text.strip (cik.text python).toList)
  · exact ⟨digits, Except.ok.inj (normalized.symm.trans (normalizeCik_digits digits))⟩
  · exact nomatch normalized.symm.trans (normalizeCik_error digits)

/-! ### What is accepted -/

/-- A CIK that is a number: a text of digits with spaces around it, or an integer that is not negative. -/
def numericCik : Json → Bool
  | .str text => (Model.Text.strip text.toList).all fun c => (digit? c).isSome
  | .int value => 0 ≤ value
  | _ => false

theorem not_digits {text : List Char} {c : Char} (member : c ∈ text) (visible : Model.Text.isSpace c = false)
    (other : digit? c = none) : ¬ Digits (Model.Text.strip text) := by
  intro digits
  have digit := digits c (mem_strip member visible)
  rw [other] at digit
  cases digit

theorem numericCik_iff {cik : Json} :
    numericCik cik = true ↔ Digits (Model.Text.strip (cik.text python).toList) := by
  have mark {c : Char} {text : String} (member : c ∈ text.toList) (visible : Model.Text.isSpace c = false)
      (other : digit? c = none) : (false = true) ↔ Digits (Model.Text.strip text.toList) :=
    iff_of_false nofun (not_digits member visible other)
  cases cik with
  | null =>
    have member : 'N' ∈ "None".toList := by decide
    exact mark member (by decide) (by decide +kernel)
  | bool value =>
    have member : 'e' ∈ (if value then "True" else "False").toList := by cases value <;> decide
    exact mark member (by decide) (by decide +kernel)
  | int value =>
    have written : ((Json.int value).text python).toList = (toString value).toList := rfl
    rw [written, strip_plain (int_visible value), Model.int_toList]
    by_cases negative : value < 0
    · rw [if_pos negative]
      refine iff_of_false (mt of_decide_eq_true (Int.not_le.mpr negative)) ?_
      intro digits
      have digit := digits '-' List.mem_cons_self
      exact absurd digit (by decide +kernel)
    · rw [if_neg negative]
      refine iff_of_true (decide_eq_true (Int.not_lt.mp negative)) ?_
      intro c member
      unfold digit?
      rw [digitValue?_isDigit (Model.toDigits_chars _ c member)]
      rfl
  | float value =>
    obtain ⟨c, member, listed⟩ := python.float_mark value
    simp only [List.mem_cons, List.not_mem_nil, or_false] at listed
    rcases listed with rfl | rfl | rfl
    · exact mark member (by decide) (by decide +kernel)
    · exact mark member (by decide) (by decide +kernel)
    · exact mark member (by decide) (by decide +kernel)
  | str text => exact List.all_eq_true
  | arr items =>
    have member : '[' ∈ ((Json.arr items).text python).toList := by simp [Json.text, Json.repr]
    exact mark member (by decide) (by decide +kernel)
  | obj fields =>
    have member : '\x7b' ∈ ((Json.obj fields).text python).toList := by simp [Json.text, Json.repr]
    exact mark member (by decide) (by decide +kernel)

/-! ### The value -/

/-- The number that digits spell, after this much. -/
def numeral? (value : ℕ) : List Char → Option ℕ
  | [] => some value
  | c :: rest => (digit? c).bind fun digit => numeral? (10 * value + digit) rest

/-- The number that a CIK is, as a text or as an integer. -/
def cikNumber? : Json → Option ℕ
  | .str text => numeral? 0 (Model.Text.strip text.toList)
  | .int value => if 0 ≤ value then some value.toNat else none
  | _ => none

theorem Digits.numeral? {text : List Char} (digits : Digits text) (value : ℕ) :
    ∃ number, numeral? value text = some number := by
  induction text generalizing value with
  | nil => exact ⟨value, rfl⟩
  | cons c rest ih =>
    obtain ⟨digit, read⟩ := Option.isSome_iff_exists.mp (digits c List.mem_cons_self)
    obtain ⟨number, rest⟩ := ih (fun c member => digits c (List.mem_cons_of_mem _ member)) (10 * value + digit)
    refine ⟨number, ?_⟩
    rw [Soundness.numeral?, read]
    exact rest

theorem numeral?_zero (text : List Char) : numeral? 0 ('0' :: text) = numeral? 0 text := by
  rw [numeral?, digit_zero]
  rfl

theorem numeral?_padded (count : ℕ) (text : List Char) :
    numeral? 0 (List.replicate count '0' ++ text) = numeral? 0 text := by
  induction count with
  | zero => rfl
  | succ count ih => exact (numeral?_zero _).trans ih

theorem numeral?_dropWhile (text : List Char) : numeral? 0 (text.dropWhile (· = '0')) = numeral? 0 text := by
  induction text with
  | nil => rfl
  | cons c rest ih =>
    rw [List.dropWhile_cons]
    split_ifs with zero
    · rw [of_decide_eq_true zero, ih, numeral?_zero]
    · rfl

theorem numeral?_significant (text : List Char) :
    numeral? 0 (significant text) = numeral? 0 (Model.Text.strip text) := by
  rw [← numeral?_dropWhile (Model.Text.strip text), significant]
  split_ifs with nothing
  · rw [nothing, numeral?_zero]
  · rfl

theorem numeral?_plain {text : List Char} (plain : ∀ c ∈ text, c.isDigit = true) (value : ℕ) :
    numeral? value text = some (Nat.ofDigitChars 10 text value) := by
  induction text generalizing value with
  | nil => rfl
  | cons c rest ih =>
    have read : digit? c = some (c.toNat - '0'.toNat) := by
      rw [digit?, digitValue?_isDigit (plain c List.mem_cons_self)]
      rfl
    rw [numeral?, read, Option.bind_some, ih (fun c member => plain c (List.mem_cons_of_mem _ member)),
      Nat.ofDigitChars_cons]

theorem toList_zfill (width : ℕ) {text : List Char} (digits : Digits text) :
    (Model.Text.zfill width (String.ofList text)).toList = List.replicate (width - text.length) '0' ++ text := by
  have unsigned : ∀ {sign : Char}, digit? sign = none → ∀ rest, text ≠ sign :: rest := by
    rintro sign other rest rfl
    exact absurd (digits sign List.mem_cons_self) (by rw [other]; decide)
  unfold Model.Text.zfill
  simp only [String.toList_ofList]
  split
  · exact absurd rfl (unsigned (by decide +kernel) _)
  · exact absurd rfl (unsigned (by decide +kernel) _)
  · rfl

/-- A CIK keeps its value. -/
theorem normalizeCik_value {cik : Json} {text : String} (normalized : normalizeCik python cik = .ok text) :
    ∃ number, cikNumber? cik = some number ∧ numeral? 0 text.toList = some number := by
  obtain ⟨digits, rfl⟩ := normalizeCik_inv normalized
  rw [toList_zfill 10 (digits_significant.mpr digits), numeral?_padded, numeral?_significant]
  have numeric := numericCik_iff.mpr digits
  cases cik with
  | str text =>
    obtain ⟨number, read⟩ := digits.numeral? 0
    exact ⟨number, read, read⟩
  | int value =>
    have positive : 0 ≤ value := of_decide_eq_true numeric
    have written : ((Json.int value).text python).toList = (toString value).toList := rfl
    have same : value.natAbs = value.toNat := by omega
    refine ⟨value.toNat, if_pos positive, ?_⟩
    rw [written, strip_plain (int_visible value), Model.int_toList, if_neg (Int.not_lt.mpr positive),
      numeral?_plain (Model.toDigits_chars _), Nat.ofDigitChars_ten_toDigits, same]
  | _ => cases numeric

theorem dropWhile_significant (text : List Char) :
    (significant text).dropWhile (· = '0') = (Model.Text.strip text).dropWhile (· = '0') := by
  unfold significant
  split_ifs with nothing
  · rw [nothing]
    decide
  · exact List.dropWhile_idempotent _ _

theorem significant_padded {text : List Char} (digits : Digits (Model.Text.strip text)) (count : ℕ) :
    significant (List.replicate count '0' ++ significant text) = significant text := by
  have plain : ∀ c ∈ List.replicate count '0' ++ significant text, Model.Text.isSpace c = false := by
    intro c member
    rcases List.mem_append.mp member with padding | digit
    · rw [List.eq_of_mem_replicate padding]
      decide
    · exact digit_visible (digits_significant.mpr digits c digit)
  have zeros : ∀ c ∈ List.replicate count '0', decide (c = '0') = true :=
    fun c padding => decide_eq_true (List.eq_of_mem_replicate padding)
  rw [significant, strip_plain plain, List.dropWhile_append_of_pos zeros, dropWhile_significant]
  rfl

/-- A normalized CIK is its own normal form. -/
theorem normalizeCik_normalized {cik : Json} {text : String} (normalized : normalizeCik python cik = .ok text) :
    normalizeCik python (.str text) = .ok text := by
  obtain ⟨digits, rfl⟩ := normalizeCik_inv normalized
  have again := digits_significant.mpr digits
  generalize (cik.text python).toList = written at digits again ⊢
  have characters : Digits (List.replicate (10 - (significant written).length) '0' ++ significant written) := by
    intro c member
    rcases List.mem_append.mp member with padding | digit
    · rw [List.eq_of_mem_replicate padding, digit_zero]
      rfl
    · exact again c digit
  have stripped := strip_plain fun c member => digit_visible (characters c member)
  have readable : Digits (Model.Text.strip
      ((Json.str (Model.Text.zfill 10 (String.ofList (significant written)))).text python).toList) := by
    show Digits (Model.Text.strip (Model.Text.zfill 10 (String.ofList (significant written))).toList)
    rw [toList_zfill 10 again, stripped]
    exact characters
  have text : ((Json.str (Model.Text.zfill 10 (String.ofList (significant written)))).text python).toList =
      List.replicate (10 - (significant written).length) '0' ++ significant written := toList_zfill 10 again
  rw [normalizeCik_digits readable, text, significant_padded digits]

end Quartr.Soundness
