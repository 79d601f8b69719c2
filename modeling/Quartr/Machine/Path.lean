import Mathlib.Data.Nat.Notation
import Mathlib.Tactic.ByContra

/-! # Finite labelled runs

`Path Step s es t` is a finite run of a labelled transition relation carrying exactly the labels
`es`. `Guarded` keeps only the steps that meet a condition on the source state and the label, so
a run whose every step meets it is a path of the guarded relation.
-/

namespace Quartr.Machine

variable {State Event : Type}

/-- A finite run carrying exactly its labels. -/
inductive Path (Step : State → Event → State → Prop) : State → List Event → State → Prop
  | nil (s : State) : Path Step s [] s
  | cons {s mid t : State} {e : Event} {es : List Event} :
      Step s e mid → Path Step mid es t → Path Step s (e :: es) t

/-- The steps that meet a condition where they are taken. -/
def Guarded (Step : State → Event → State → Prop) (guard : State → Event → Prop) :
    State → Event → State → Prop :=
  fun s e t => guard s e ∧ Step s e t

namespace Path

variable {Step : State → Event → State → Prop}

/-- Paths compose at their shared endpoint. -/
theorem append {s mid t : State} {first second : List Event} :
    Path Step s first mid → Path Step mid second t → Path Step s (first ++ second) t
  | .nil _, right => right
  | .cons step rest, right => .cons step (append rest right)

/-- What every step preserves holds at the end of every run. -/
theorem invariant {Inv : State → Prop} (preserved : ∀ s e t, Step s e t → Inv s → Inv t)
    {s t : State} {es : List Event} (path : Path Step s es t) (initial : Inv s) : Inv t := by
  induction path with
  | nil => exact initial
  | cons step _ ih => exact ih (preserved _ _ _ step initial)

/-- What every step preserves of the state and of the events so far holds at the end of every run. -/
theorem history_invariant {Inv : List Event → State → Prop}
    (preserved : ∀ past s e t, Step s e t → Inv past s → Inv (past ++ [e]) t)
    {s t : State} {es : List Event} (path : Path Step s es t) (initial : Inv [] s) : Inv es t := by
  have extends_past : ∀ past, Inv past s → Inv (past ++ es) t := by
    clear initial
    induction path with
    | nil =>
      intro past holds
      rw [List.append_nil]
      exact holds
    | @cons s mid t e es step _ ih =>
      intro past holds
      have later := ih (past ++ [e]) (preserved past s e mid step holds)
      rw [List.append_assoc] at later
      exact later
  exact extends_past [] initial

/-- A run of a finer relation is a run of a coarser one. -/
theorem mono {Coarse : State → Event → State → Prop}
    (implies : ∀ s e t, Step s e t → Coarse s e t)
    {s t : State} {es : List Event} (path : Path Step s es t) : Path Coarse s es t := by
  induction path with
  | nil => exact .nil _
  | cons step _ ih => exact .cons (implies _ _ _ step) ih

/-- A run under a condition is a run under a weaker one. -/
theorem weaken {guard guard' : State → Event → Prop} {s t : State} {es : List Event}
    (path : Path (Guarded Step guard) s es t) (implies : ∀ s e, guard s e → guard' s e) :
    Path (Guarded Step guard') s es t :=
  path.mono fun s e _ step => ⟨implies s e step.1, step.2⟩

/-- An invariant may be used to meet a condition. -/
theorem strengthen {guard guard' : State → Event → Prop} {Inv : State → Prop} {s t : State}
    {es : List Event} (path : Path (Guarded Step guard) s es t)
    (preserved : ∀ s e t, Guarded Step guard s e t → Inv s → Inv t) (initial : Inv s)
    (implies : ∀ s e t, Guarded Step guard s e t → Inv s → guard' s e) :
    Path (Guarded Step guard') s es t := by
  induction path with
  | nil => exact .nil _
  | cons step _ ih =>
    exact .cons ⟨implies _ _ _ step initial, step.2⟩ (ih (preserved _ _ _ step initial))

/-- A run meets the condition throughout, or is spoiled by the first step that does not. -/
theorem guarded_or {guard : State → Event → Prop} {Inv Spoiled : State → Prop} {s t : State}
    {es : List Event} (path : Path Step s es t)
    (preserved : ∀ s e t, guard s e → Step s e t → Inv s → Inv t)
    (spoils : ∀ s e t, ¬ guard s e → Step s e t → Inv s → Spoiled t)
    (stays : ∀ s e t, Step s e t → Spoiled s → Spoiled t) (initial : Inv s) :
    (Path (Guarded Step guard) s es t ∧ Inv t) ∨ Spoiled t := by
  induction path with
  | nil => exact .inl ⟨.nil _, initial⟩
  | @cons s mid t e es step rest ih =>
    by_cases met : guard s e
    · rcases ih (preserved s e mid met step initial) with ⟨path, inv⟩ | spoiled
      · exact .inl ⟨.cons ⟨met, step⟩ path, inv⟩
      · exact .inr spoiled
    · exact .inr (rest.invariant stays (spoils s e mid met step initial))

/-- A run whose every state meets a condition meets it where its steps are taken and where they lead. -/
theorem both_ends {good : State → Prop} {s t : State} {es : List Event}
    (path : Path (Guarded Step fun s _ => good s) s es t) (last : good t) :
    good s ∧ Path (fun s e t => good s ∧ Step s e t ∧ good t) s es t := by
  induction path with
  | nil => exact ⟨last, .nil _⟩
  | cons step _ ih =>
    obtain ⟨next, rest⟩ := ih last
    exact ⟨step.1, .cons ⟨step.1, step.2, next⟩ rest⟩

/-- If every step is matched by a run of another system between related states, so is every run. -/
theorem simulates {State' Event' : Type} {Step' : State' → Event' → State' → Prop} {Related : State → State' → Prop}
    (matched : ∀ s e t s', Step s e t → Related s s' → ∃ es t', Path Step' s' es t' ∧ Related t t')
    {s t : State} {s' : State'} {es : List Event} (path : Path Step s es t) (related : Related s s') :
    ∃ es' t', Path Step' s' es' t' ∧ Related t t' := by
  induction path generalizing s' with
  | nil => exact ⟨[], s', .nil s', related⟩
  | cons step _ ih =>
    obtain ⟨first, mid', path, related⟩ := matched _ _ _ _ step related
    obtain ⟨second, t', path', related⟩ := ih related
    exact ⟨first ++ second, t', path.append path', related⟩

/-- Where no run goes on for ever, some run comes to where nothing more can happen. -/
theorem exists_end {s : State} (ends : Acc (fun later earlier => ∃ e, Step earlier e later) s) :
    ∃ es t, Path Step s es t ∧ ∀ e t', ¬ Step t e t' := by
  induction ends with
  | intro s _ ih =>
    by_cases continued : ∃ e t, Step s e t
    · obtain ⟨e, mid, step⟩ := continued
      obtain ⟨es, t, path, stuck⟩ := ih mid ⟨e, step⟩
      exact ⟨e :: es, t, .cons step path, stuck⟩
    · exact ⟨[], s, .nil s, fun e t step => continued ⟨e, t, step⟩⟩

end Path

end Quartr.Machine
