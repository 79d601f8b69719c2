import Mathlib.Data.List.Nodup
import Mathlib.Data.List.Forall2
import Mathlib.Tactic.SplitIfs

/-! # Dictionaries in insertion order

A dictionary keeps its entries in the order in which their keys were first set; setting a key again changes
its value in place. A comprehension sets one entry after the other and stops at the first one that fails.
-/

namespace Quartr.Data

structure Dict (κ ν : Type) where
  entries : List (κ × ν)
  nodup : (entries.map Prod.fst).Nodup

namespace Dict

variable {κ ν α ε : Type}

@[ext]
theorem ext {dict dict' : Dict κ ν} (same : dict.entries = dict'.entries) : dict = dict' := by
  cases dict
  cases dict'
  cases same
  rfl

def empty : Dict κ ν := ⟨[], List.nodup_nil⟩

def values (dict : Dict κ ν) : List ν := dict.entries.map Prod.snd

def size (dict : Dict κ ν) : Nat := dict.entries.length

variable [DecidableEq κ]

def get? (dict : Dict κ ν) (key : κ) : Option ν := dict.entries.lookup key

/-- The entries once a key is set. -/
def put (key : κ) (value : ν) : List (κ × ν) → List (κ × ν)
  | [] => [(key, value)]
  | entry :: rest => if entry.1 = key then (entry.1, value) :: rest else entry :: put key value rest

theorem keys_put (key : κ) (value : ν) (entries : List (κ × ν)) :
    (put key value entries).map Prod.fst =
      if key ∈ entries.map Prod.fst then entries.map Prod.fst else entries.map Prod.fst ++ [key] := by
  induction entries with
  | nil => rfl
  | cons entry rest ih =>
    unfold put
    by_cases same : entry.1 = key
    · rw [if_pos same, List.map_cons, List.map_cons, if_pos (List.mem_cons.mpr (.inl same.symm))]
    · have elsewhere : key ∈ entry.1 :: rest.map Prod.fst ↔ key ∈ rest.map Prod.fst :=
        List.mem_cons.trans (or_iff_right (Ne.symm same))
      rw [if_neg same, List.map_cons, List.map_cons, ih, apply_ite (entry.1 :: ·)]
      exact if_congr elsewhere.symm rfl rfl

theorem nodup_put {entries : List (κ × ν)} (nodup : (entries.map Prod.fst).Nodup) (key : κ) (value : ν) :
    ((put key value entries).map Prod.fst).Nodup := by
  rw [keys_put]
  by_cases known : key ∈ entries.map Prod.fst
  · rw [if_pos known]
    exact nodup
  · rw [if_neg known]
    rw [← List.concat_eq_append]
    exact nodup.concat known

def set (dict : Dict κ ν) (key : κ) (value : ν) : Dict κ ν :=
  ⟨put key value dict.entries, nodup_put dict.nodup key value⟩

theorem lookup_put (key key' : κ) (value : ν) (entries : List (κ × ν)) :
    (put key value entries).lookup key' = if key' = key then some value else entries.lookup key' := by
  induction entries with
  | nil =>
    by_cases same : key' = key
    · simp [put, same]
    · simp [put, List.lookup_cons, same, beq_false_of_ne same]
  | cons entry rest ih =>
    rcases entry with ⟨first, value'⟩
    unfold put
    by_cases found : first = key
    · rw [if_pos found, List.lookup_cons, List.lookup_cons, found]
      by_cases same : key' = key
      · simp [same]
      · simp [same, beq_false_of_ne same]
    · rw [if_neg found, List.lookup_cons, List.lookup_cons, ih]
      by_cases here : key' = first
      · simp [here, found]
      · simp [beq_false_of_ne here]

theorem get?_set (dict : Dict κ ν) (key key' : κ) (value : ν) :
    (dict.set key value).get? key' = if key' = key then some value else dict.get? key' :=
  lookup_put key key' value dict.entries

/-! ### Filling a dictionary -/

/-- Set these entries, one after the other. -/
def fill (dict : Dict κ ν) (entries : List (κ × ν)) : Dict κ ν :=
  entries.foldl (fun dict entry => dict.set entry.1 entry.2) dict

def ofEntries (entries : List (κ × ν)) : Dict κ ν := empty.fill entries

theorem get?_fill (dict : Dict κ ν) (entries : List (κ × ν)) (key : κ) :
    (dict.fill entries).get? key = (entries.reverse.lookup key).or (dict.get? key) := by
  induction entries generalizing dict with
  | nil => rfl
  | cons entry rest ih =>
    rcases entry with ⟨first, value⟩
    have step : dict.fill ((first, value) :: rest) = (dict.set first value).fill rest := rfl
    rw [step, ih, get?_set, List.reverse_cons, List.lookup_append, Option.or_assoc]
    congr 1
    by_cases same : key = first
    · simp [same]
    · simp [List.lookup_cons, same, beq_false_of_ne same]

/-- The last entry of a key counts. -/
theorem get?_ofEntries (entries : List (κ × ν)) (key : κ) :
    (ofEntries entries).get? key = entries.reverse.lookup key :=
  (get?_fill empty entries key).trans (Option.or_none ..)

theorem put_fresh {key : κ} {value : ν} {entries : List (κ × ν)} (fresh : key ∉ entries.map Prod.fst) :
    put key value entries = entries ++ [(key, value)] := by
  induction entries with
  | nil => rfl
  | cons entry rest ih =>
    rw [List.map_cons, List.mem_cons, not_or] at fresh
    rw [put, if_neg (Ne.symm fresh.1), ih fresh.2, List.cons_append]

theorem entries_fill (dict : Dict κ ν) {entries : List (κ × ν)}
    (nodup : ((dict.entries ++ entries).map Prod.fst).Nodup) :
    (dict.fill entries).entries = dict.entries ++ entries := by
  induction entries generalizing dict with
  | nil => exact (List.append_nil _).symm
  | cons entry rest ih =>
    have fresh : entry.1 ∉ dict.entries.map Prod.fst := by
      intro known
      rw [List.map_append, List.nodup_append] at nodup
      exact nodup.2.2 entry.1 known entry.1 (List.mem_cons.mpr (.inl rfl)) rfl
    have appended : (dict.set entry.1 entry.2).entries = dict.entries ++ [entry] := put_fresh fresh
    have together : (dict.set entry.1 entry.2).entries ++ rest = dict.entries ++ entry :: rest := by
      rw [appended, List.append_assoc, List.singleton_append]
    rw [← together] at nodup ⊢
    exact ih _ nodup

theorem entries_ofEntries {entries : List (κ × ν)} (nodup : (entries.map Prod.fst).Nodup) :
    (ofEntries entries).entries = entries :=
  entries_fill empty nodup

/-- A dictionary is the one of its own entries. -/
theorem ofEntries_entries (dict : Dict κ ν) : ofEntries dict.entries = dict :=
  ext (entries_fill empty dict.nodup)

theorem size_set_pos (dict : Dict κ ν) (key : κ) (value : ν) : 0 < (dict.set key value).size := by
  have some' : put key value dict.entries ≠ [] := by
    intro none
    have keys := keys_put key value dict.entries
    rw [none] at keys
    split_ifs at keys with known
    · rw [← keys] at known
      exact List.not_mem_nil known
    · exact List.append_ne_nil_of_right_ne_nil _ (List.cons_ne_nil _ _) keys.symm
  exact List.length_pos_iff.mpr some'

theorem size_fill_pos {dict : Dict κ ν} (filled : 0 < dict.size) (entries : List (κ × ν)) :
    0 < (dict.fill entries).size := by
  induction entries generalizing dict with
  | nil => exact filled
  | cons entry rest ih => exact ih (size_set_pos dict entry.1 entry.2)

theorem size_ofEntries_pos {entries : List (κ × ν)} : 0 < (ofEntries entries).size ↔ entries ≠ [] := by
  cases entries with
  | nil => exact iff_of_false (Nat.lt_irrefl 0) (fun some' => some' rfl)
  | cons entry rest =>
    exact iff_of_true (size_fill_pos (size_set_pos empty entry.1 entry.2) rest) (List.cons_ne_nil _ _)

theorem mem_put {key : κ} {value : ν} {entries : List (κ × ν)} {entry : κ × ν}
    (member : entry ∈ put key value entries) : entry = (key, value) ∨ entry ∈ entries := by
  induction entries with
  | nil => exact .inl (List.mem_singleton.mp member)
  | cons first rest ih =>
    unfold put at member
    split_ifs at member with found
    · rcases List.mem_cons.mp member with rfl | behind
      · exact .inl (by rw [found])
      · exact .inr (List.mem_cons_of_mem _ behind)
    · rcases List.mem_cons.mp member with rfl | behind
      · exact .inr List.mem_cons_self
      · exact (ih behind).imp id (List.mem_cons_of_mem _)

theorem mem_fill {dict : Dict κ ν} {entries : List (κ × ν)} {entry : κ × ν}
    (member : entry ∈ (dict.fill entries).entries) : entry ∈ dict.entries ∨ entry ∈ entries := by
  induction entries generalizing dict with
  | nil => exact .inl member
  | cons first rest ih =>
    rcases ih member with before | behind
    · rcases mem_put before with rfl | old
      · exact .inr List.mem_cons_self
      · exact .inl old
    · exact .inr (List.mem_cons_of_mem _ behind)

theorem mem_ofEntries {entries : List (κ × ν)} {entry : κ × ν} (member : entry ∈ (ofEntries entries).entries) :
    entry ∈ entries :=
  (mem_fill member).resolve_left List.not_mem_nil

/-! ### Comprehensions -/

section Comprehension

variable {entryOf : α → Except ε (κ × ν)}

/-- Set the entry of one item after the other. -/
def comprehend (entryOf : α → Except ε (κ × ν)) (items : List α) : Except ε (Dict κ ν) :=
  items.foldlM (fun dict item => do
    let entry ← entryOf item
    return dict.set entry.1 entry.2) empty

/-- The items have these entries. -/
def Entries (entryOf : α → Except ε (κ × ν)) (items : List α) (entries : List (κ × ν)) : Prop :=
  List.Forall₂ (fun item entry => entryOf item = .ok entry) items entries

theorem foldlM_entries (dict : Dict κ ν) {items : List α} {entries : List (κ × ν)} (rest : List α)
    (read : Entries entryOf items entries) :
    (items ++ rest).foldlM (fun dict item => do
      let entry ← entryOf item
      return dict.set entry.1 entry.2) dict =
    rest.foldlM (fun dict item => do
      let entry ← entryOf item
      return dict.set entry.1 entry.2) (dict.fill entries) := by
  induction read generalizing dict with
  | nil => rfl
  | cons first _ ih =>
    rw [List.cons_append, List.foldlM_cons, first]
    exact ih _

theorem comprehend_ok {items : List α} {entries : List (κ × ν)} (read : Entries entryOf items entries) :
    comprehend entryOf items = .ok (ofEntries entries) := by
  have folded := foldlM_entries empty [] read
  rw [List.append_nil] at folded
  exact folded

/-- The first item that fails decides. -/
theorem comprehend_error {items rest : List α} {entries : List (κ × ν)} {item : α} {error : ε}
    (read : Entries entryOf items entries) (fails : entryOf item = .error error) :
    comprehend entryOf (items ++ item :: rest) = .error error := by
  refine (foldlM_entries empty _ read).trans ?_
  rw [List.foldlM_cons, fails]
  rfl

omit [DecidableEq κ] in
/-- Either every item has an entry, or there is a first one that has none. -/
theorem entries_or_error (entryOf : α → Except ε (κ × ν)) (items : List α) :
    (∃ entries, Entries entryOf items entries) ∨
      ∃ before item rest entries error, items = before ++ item :: rest ∧ Entries entryOf before entries ∧
        entryOf item = .error error := by
  induction items with
  | nil => exact .inl ⟨[], .nil⟩
  | cons first items ih =>
    cases read : entryOf first with
    | error error => exact .inr ⟨[], first, items, [], error, rfl, .nil, read⟩
    | ok entry =>
      rcases ih with ⟨entries, all⟩ | ⟨before, item, rest, entries, error, rfl, all, fails⟩
      · exact .inl ⟨entry :: entries, .cons read all⟩
      · exact .inr ⟨first :: before, item, rest, entry :: entries, error, rfl, .cons read all, fails⟩

theorem comprehend_inv {items : List α} {dict : Dict κ ν} (built : comprehend entryOf items = .ok dict) :
    ∃ entries, Entries entryOf items entries ∧ dict = ofEntries entries := by
  rcases entries_or_error entryOf items with ⟨entries, read⟩ |
    ⟨before, item, rest, entries, error, rfl, read, fails⟩
  · exact ⟨entries, read, Except.ok.inj (built.symm.trans (comprehend_ok read))⟩
  · exact nomatch built.symm.trans (comprehend_error read fails)

end Comprehension

end Dict

end Quartr.Data
