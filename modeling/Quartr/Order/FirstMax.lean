import Mathlib.Order.Lattice
import Mathlib.Data.List.Basic

/-! # The first of the greatest

`FirstMax key xs winner` says that `winner` is the earliest of the elements of `xs` with the greatest
key: what comes before it is smaller, what comes after it is no greater. A scan that replaces its
candidate only by a greater one finds it, and it stays the winner when others leave the list.
-/

namespace Quartr.Order

variable {α β κ : Type*} [LinearOrder κ] {key : α → κ} {xs : List α} {winner winner' first second : α}

/-- What comes before the winner has a smaller key, what comes after it no greater one. -/
def FirstMax (key : α → κ) (xs : List α) (winner : α) : Prop :=
  ∃ before after, xs = before ++ winner :: after ∧ (∀ x ∈ before, key x < key winner) ∧
    ∀ x ∈ after, key x ≤ key winner

namespace FirstMax

theorem mem (greatest : FirstMax key xs winner) : winner ∈ xs := by
  obtain ⟨before, after, rfl, _, _⟩ := greatest
  simp

theorem le (greatest : FirstMax key xs winner) {x : α} (member : x ∈ xs) : key x ≤ key winner := by
  obtain ⟨before, after, rfl, smaller, greater⟩ := greatest
  rcases List.mem_append.mp member with member | member
  · exact le_of_lt (smaller x member)
  · rcases List.mem_cons.mp member with rfl | member
    · exact le_refl _
    · exact greater x member

theorem singleton (x : α) : FirstMax key [x] x := by
  refine ⟨[], [], rfl, ?_, ?_⟩ <;> simp

/-- A smaller element in front changes nothing. -/
theorem cons_lt (greatest : FirstMax key xs winner) (smaller : key first < key winner) :
    FirstMax key (first :: xs) winner := by
  obtain ⟨before, after, rfl, less, rest⟩ := greatest
  refine ⟨first :: before, after, rfl, ?_, rest⟩
  intro x member
  rcases List.mem_cons.mp member with rfl | member
  · exact smaller
  · exact less x member

/-- A scan keeps its candidate over an element that is no greater. -/
theorem keep (greatest : FirstMax key (first :: xs) winner) (least : key second ≤ key first) :
    FirstMax key (first :: second :: xs) winner := by
  obtain ⟨before, after, split, less, rest⟩ := greatest
  cases before with
  | nil =>
    obtain ⟨rfl, rfl⟩ := List.cons.inj split
    refine ⟨[], second :: xs, rfl, by simp, ?_⟩
    intro x member
    rcases List.mem_cons.mp member with rfl | member
    · exact least
    · exact rest x member
  | cons head before =>
    obtain ⟨rfl, rfl⟩ := List.cons.inj split
    refine ⟨first :: second :: before, after, rfl, ?_, rest⟩
    intro x member
    have lower := less first (List.mem_cons_self ..)
    simp only [List.mem_cons] at member
    rcases member with rfl | rfl | member
    · exact lower
    · exact lt_of_le_of_lt least lower
    · exact less x (List.mem_cons_of_mem _ member)

/-- A scan goes over to an element that is greater. -/
theorem replace (greatest : FirstMax key (second :: xs) winner) (more : key first < key second) :
    FirstMax key (first :: second :: xs) winner :=
  greatest.cons_lt (lt_of_lt_of_le more (greatest.le (List.mem_cons_self ..)))

theorem unique (greatest : FirstMax key xs winner) (greatest' : FirstMax key xs winner') :
    winner = winner' := by
  obtain ⟨before, after, rfl, less, rest⟩ := greatest
  obtain ⟨before', after', split, less', rest'⟩ := greatest'
  rcases List.append_eq_append_iff.mp split with ⟨more, rfl, tail⟩ | ⟨more, rfl, tail⟩
  · cases more with
    | nil => exact (List.cons.inj tail).1
    | cons head more =>
      obtain ⟨rfl, rfl⟩ := List.cons.inj tail
      have lower := less' winner (by simp)
      exact absurd (rest winner' (by simp)) (not_le_of_gt lower)
  · cases more with
    | nil => exact (List.cons.inj tail).1.symm
    | cons head more =>
      obtain ⟨rfl, rfl⟩ := List.cons.inj tail
      have lower := less winner' (by simp)
      exact absurd (rest' winner (by simp)) (not_le_of_gt lower)

/-- The winner stays the winner among those that are kept with it. -/
theorem filter (greatest : FirstMax key xs winner) {test : α → Bool} (passes : test winner = true) :
    FirstMax key (xs.filter test) winner := by
  obtain ⟨before, after, rfl, less, rest⟩ := greatest
  refine ⟨before.filter test, after.filter test, ?_, ?_, ?_⟩
  · rw [List.filter_append, List.filter_cons_of_pos passes]
  · exact fun x member => less x (List.mem_of_mem_filter member)
  · exact fun x member => rest x (List.mem_of_mem_filter member)

/-- Where the winner comes from when each element of another list gives at most one. -/
theorem of_filterMap {ys : List β} {f : β → Option α} (greatest : FirstMax key (ys.filterMap f) winner) :
    ∃ before y after, ys = before ++ y :: after ∧ f y = some winner ∧
      (∀ z ∈ before, ∀ x, f z = some x → key x < key winner) ∧
      ∀ z ∈ after, ∀ x, f z = some x → key x ≤ key winner := by
  obtain ⟨before, after, split, less, rest⟩ := greatest
  obtain ⟨front, back, rfl, fronts, backs⟩ := List.filterMap_eq_append_iff.mp split
  obtain ⟨skipped, y, back, rfl, nothing, found, rfl⟩ := List.filterMap_eq_cons_iff.mp backs
  refine ⟨front ++ skipped, y, back, by simp, found, ?_, ?_⟩
  · intro z member x image
    rcases List.mem_append.mp member with member | member
    · exact less x (fronts ▸ List.mem_filterMap.mpr ⟨z, member, image⟩)
    · cases (nothing z member).symm.trans image
  · intro z member x image
    exact rest x (List.mem_filterMap.mpr ⟨z, member, image⟩)

end FirstMax

end Quartr.Order
