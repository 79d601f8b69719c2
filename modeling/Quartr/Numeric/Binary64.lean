import Mathlib.Algebra.Order.Field.Rat
import Mathlib.Data.Rat.Cast.Order
import Mathlib.Tactic.SplitIfs

/-! # Floating-point values

The values of a binary64 float with its special ones. Finite values are rational numbers below the
overflow threshold, which is exact; the rounding of a result inside the range is left out, and zero has no
sign.
-/

namespace Quartr.Numeric

/-- From this magnitude on a result is rounded to infinity. -/
def overflow : ℚ := 2 ^ 1024 - 2 ^ 970

inductive Binary64 where
  | nan
  | infinite (negative : Bool)
  | finite (value : ℚ) (inRange : |value| < overflow)
deriving DecidableEq

namespace Binary64

/-- The result of an exact operation. -/
def ofRat (value : ℚ) : Binary64 :=
  if inRange : |value| < overflow then finite value inRange else infinite (value < 0)

/-- The conversion of an integer, which fails on overflow. -/
def ofInt? (value : ℤ) : Option Binary64 :=
  if inRange : |(value : ℚ)| < overflow then some (finite value inRange) else none

def zero : Binary64 := ofRat 0

def neg : Binary64 → Binary64
  | nan => nan
  | infinite negative => infinite (!negative)
  | finite value _ => ofRat (-value)

def add : Binary64 → Binary64 → Binary64
  | nan, _ => nan
  | _, nan => nan
  | infinite negative, infinite negative' => if negative = negative' then infinite negative else nan
  | infinite negative, finite _ _ => infinite negative
  | finite _ _, infinite negative => infinite negative
  | finite value _, finite value' _ => ofRat (value + value')

def sub (x y : Binary64) : Binary64 := add x (neg y)

def mul : Binary64 → Binary64 → Binary64
  | nan, _ => nan
  | _, nan => nan
  | infinite negative, infinite negative' => infinite (negative != negative')
  | infinite negative, finite value _ => if value = 0 then nan else infinite (negative != decide (value < 0))
  | finite value _, infinite negative => if value = 0 then nan else infinite (negative != decide (value < 0))
  | finite value _, finite value' _ => ofRat (value * value')

/-- `<`; a comparison with NaN is false. -/
def lt : Binary64 → Binary64 → Bool
  | nan, _ => false
  | _, nan => false
  | infinite negative, infinite negative' => negative && !negative'
  | infinite negative, finite _ _ => negative
  | finite _ _, infinite negative => !negative
  | finite value _, finite value' _ => value < value'

/-- The minimum as it is computed from `<`: the first argument unless the second one is below it. -/
def least (x y : Binary64) : Binary64 := if lt y x then y else x

variable {x y : Binary64}

theorem ofRat_ne_nan (value : ℚ) : ofRat value ≠ nan := by
  unfold ofRat
  split_ifs <;> nofun

theorem ofRat_eq {value : ℚ} (inRange : |value| < overflow) : ofRat value = finite value inRange := dif_pos inRange

theorem ofInt?_eq {value : ℤ} (inRange : |(value : ℚ)| < overflow) : ofInt? value = some (ofRat value) := by
  unfold ofInt?
  rw [dif_pos inRange, ofRat_eq inRange]

theorem zero_eq : zero = finite 0 (by decide +kernel) := ofRat_eq _

theorem finite_sub {value value' : ℚ} (inRange : |value| < overflow) (inRange' : |value'| < overflow) :
    sub (finite value inRange) (finite value' inRange') = ofRat (value - value') := by
  have negated : neg (finite value' inRange') = finite (-value') (by rwa [abs_neg]) := ofRat_eq _
  rw [sub, negated, sub_eq_add_neg]
  rfl

theorem ne_nan_of_lt (below : lt x y = true) : x ≠ nan ∧ y ≠ nan := by
  constructor
  · rintro rfl
    cases below
  · rintro rfl
    cases x <;> cases below

/-- A minimum is NaN only if the first argument is. -/
theorem least_eq_nan : least x y = nan ↔ x = nan := by
  unfold least
  split_ifs with below
  · exact iff_of_false (ne_nan_of_lt below).1 (ne_nan_of_lt below).2
  · exact Iff.rfl

/-- Only zero turns an infinity into NaN. -/
theorem mul_eq_nan {factor : ℚ} (inRange : |factor| < overflow) :
    mul x (finite factor inRange) = nan ↔ x = nan ∨ factor = 0 ∧ ∃ negative, x = infinite negative := by
  cases x with
  | nan => exact iff_of_true rfl (.inl rfl)
  | infinite negative =>
    show (if factor = 0 then nan else _) = nan ↔ _
    split_ifs with nothing
    · exact iff_of_true rfl (.inr ⟨nothing, negative, rfl⟩)
    · exact iff_of_false nofun (by rintro (⟨⟨⟩⟩ | ⟨zero, _⟩); exact nothing zero)
  | finite value bound =>
    exact iff_of_false (ofRat_ne_nan _) (by rintro (⟨⟨⟩⟩ | ⟨_, _, ⟨⟩⟩))

theorem infinite_mul {negative : Bool} {factor : ℚ} (inRange : |factor| < overflow) (positive : 0 < factor) :
    mul (infinite negative) (finite factor inRange) = infinite negative := by
  show (if factor = 0 then nan else infinite (negative != decide (factor < 0))) = _
  rw [if_neg positive.ne', decide_eq_false positive.le.not_gt, Bool.bne_false]

/-- A sum is NaN if a summand is, or if it is one of opposite infinities. -/
theorem add_eq_nan : add x y = nan ↔ x = nan ∨ y = nan ∨ ∃ negative, x = infinite negative ∧ y = infinite (!negative) := by
  cases x with
  | nan => exact iff_of_true rfl (.inl rfl)
  | infinite negative =>
    cases y with
    | nan => exact iff_of_true rfl (.inr (.inl rfl))
    | infinite negative' => cases negative <;> cases negative' <;> simp [add]
    | finite value inRange => exact iff_of_false nofun (by rintro (⟨⟨⟩⟩ | ⟨⟨⟩⟩ | ⟨_, _, ⟨⟩⟩))
  | finite value inRange =>
    cases y with
    | nan => exact iff_of_true rfl (.inr (.inl rfl))
    | infinite negative => exact iff_of_false nofun (by rintro (⟨⟨⟩⟩ | ⟨⟨⟩⟩ | ⟨_, ⟨⟩, _⟩))
    | finite value' inRange' =>
      exact iff_of_false (ofRat_ne_nan _) (by rintro (⟨⟨⟩⟩ | ⟨⟨⟩⟩ | ⟨_, ⟨⟩, _⟩))

theorem sub_zero (x : Binary64) : sub x zero = x := by
  have negated : neg zero = zero := by decide +kernel
  unfold sub
  rw [negated, zero_eq]
  cases x with
  | finite value inRange =>
    have same : value + 0 = value := by simp
    show ofRat (value + 0) = _
    rw [same, ofRat_eq inRange]
  | _ => rfl

end Binary64

end Quartr.Numeric
