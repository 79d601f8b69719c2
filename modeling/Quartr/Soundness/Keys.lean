import Quartr.Model.Sample
import Quartr.Soundness.Paths

/-! # When store keys coincide

A key is the logical path followed by the policy suffix, and the quarter that ends the path is text
the caller chose. Two requests share a key exactly when they ask for the same, or when the quarter of
one spells out the other's quarter and its suffix.
-/

namespace Quartr.Soundness

open Quartr.Model

/-- What two requests ask for is the same; an absent and an empty quarter are one. -/
structure SameRequest (identity : ReportIdentity) (includeAmended : Bool) (identity' : ReportIdentity)
    (includeAmended' : Bool) : Prop where
  ticker : identity.ticker = identity'.ticker
  form : identity.form = identity'.form
  year : identity.year = identity'.year
  quarter : identity.quarter.getD "" = identity'.quarter.getD ""
  flag : includeAmended = includeAmended'

/-- The keys tell the two requests apart, unless they are the same. -/
def Separates (identity : ReportIdentity) (includeAmended : Bool) (identity' : ReportIdentity)
    (includeAmended' : Bool) : Prop :=
  (pendingTaskKey identity.logicalPath includeAmended = pendingTaskKey identity'.logicalPath includeAmended' →
    SameRequest identity includeAmended identity' includeAmended') ∧
  (logicalKey identity.logicalPath includeAmended = logicalKey identity'.logicalPath includeAmended' →
    SameRequest identity includeAmended identity' includeAmended')

/-- A request without amendments whose quarter is the quarter of one with amendments, followed by the
suffix of the other policy. -/
def Mimics (identity : ReportIdentity) (includeAmended : Bool) (identity' : ReportIdentity)
    (includeAmended' : Bool) : Prop :=
  includeAmended = false ∧ includeAmended' = true ∧ identity.ticker = identity'.ticker ∧
    identity.form = identity'.form ∧ identity.year = identity'.year ∧
    ∃ quarter, quarter ≠ "" ∧ identity'.quarter = some quarter ∧
      identity.quarter = some (quarter ++ policySuffix true)

section Keys

variable {identity identity' : ReportIdentity} {includeAmended includeAmended' : Bool} {lead : String}

theorem quarterTail_eq (identity : ReportIdentity) : identity.quarterTail =
    if identity.quarter.getD "" = "" then [] else '/' :: (identity.quarter.getD "").toList := by
  unfold ReportIdentity.quarterTail
  cases identity.quarter with
  | none => rfl
  | some quarter => rfl

/-- Two tails differ in their quarters only. -/
theorem quarter_eq (same : identity.quarterTail = identity'.quarterTail) :
    identity.quarter.getD "" = identity'.quarter.getD "" := by
  rw [quarterTail_eq, quarterTail_eq] at same
  split_ifs at same with empty empty' empty'
  · rw [empty, empty']
  · exact String.toList_inj.mp (List.tail_eq_of_cons_eq same)

/-- A tail is a tail followed by the suffix only if the suffix belongs to the quarter. -/
theorem mimics_of_tails (tickers : identity.ticker = identity'.ticker)
    (forms : identity.form = identity'.form) (years : identity.year = identity'.year)
    (tails : identity.quarterTail = identity'.quarterTail ++ (policySuffix true).toList) :
    Mimics identity false identity' true := by
  refine ⟨rfl, rfl, tickers, forms, years, ?_⟩
  have suffix : (policySuffix true).toList = '+' :: "amended".toList := rfl
  rw [quarterTail_eq, quarterTail_eq] at tails
  split_ifs at tails with empty empty' empty'
  · rw [suffix, List.nil_append] at tails
    cases tails
  · cases tails
  · rw [suffix, List.nil_append] at tails
    cases tails
  · have named : identity'.quarter = some (identity'.quarter.getD "") := by
      cases found : identity'.quarter with
      | none =>
        rw [found] at empty'
        exact absurd rfl empty'
      | some quarter => rfl
    refine ⟨identity'.quarter.getD "", empty', named, ?_⟩
    have texts : identity.quarter.getD "" = identity'.quarter.getD "" ++ policySuffix true := by
      rw [← String.toList_inj, String.toList_append]
      exact List.tail_eq_of_cons_eq tails
    cases found : identity.quarter with
    | none =>
      rw [found] at empty
      exact absurd rfl empty
    | some quarter =>
      rw [found] at texts
      exact congrArg some texts

/-- A shared key comes from the same request or from a quarter that ends in the suffix. -/
theorem same_or_mimics (same : lead ++ identity.logicalPath ++ policySuffix includeAmended =
      lead ++ identity'.logicalPath ++ policySuffix includeAmended') :
    SameRequest identity includeAmended identity' includeAmended' ∨
      Mimics identity includeAmended identity' includeAmended' ∨
      Mimics identity' includeAmended' identity includeAmended := by
  obtain ⟨tickers, forms, years, tails⟩ := key_parts same
  cases includeAmended with
  | false =>
    cases includeAmended' with
    | false => exact .inl ⟨tickers, forms, years, quarter_eq (List.append_cancel_right tails), rfl⟩
    | true => exact .inr (.inl (mimics_of_tails tickers forms years ((List.append_nil _).symm.trans tails)))
  | true =>
    cases includeAmended' with
    | false =>
      exact .inr (.inr (mimics_of_tails tickers.symm forms.symm years.symm
        ((List.append_nil _).symm.trans tails.symm)))
    | true => exact .inl ⟨tickers, forms, years, quarter_eq (List.append_cancel_right tails), rfl⟩

/-- Such a quarter makes every key coincide. -/
theorem Mimics.same_key (mimics : Mimics identity includeAmended identity' includeAmended') :
    lead ++ identity.logicalPath ++ policySuffix includeAmended =
      lead ++ identity'.logicalPath ++ policySuffix includeAmended' := by
  obtain ⟨rfl, rfl, tickers, forms, years, quarter, named, quarter', spelled⟩ := mimics
  have spelled_ne : quarter ++ policySuffix true ≠ "" := by
    intro empty
    have lists := congrArg String.toList empty
    rw [String.toList_append] at lists
    exact absurd (List.append_eq_nil_iff.mp lists).2 (by decide)
  have plain : (policySuffix false).toList = [] := rfl
  rw [← String.toList_inj]
  simp only [String.toList_append, ReportIdentity.logicalPath_toList, tickers, forms, years,
    ReportIdentity.quarterTail, quarter', spelled, named, spelled_ne, plain, ↓reduceIte,
    List.append_assoc, List.cons_append, List.append_nil]

theorem Mimics.differ (mimics : Mimics identity includeAmended identity' includeAmended') :
    includeAmended ≠ includeAmended' := by
  rw [mimics.1, mimics.2.1]
  decide

end Keys

/-- The keys separate two requests exactly when neither has a quarter that spells out the other's
quarter and policy suffix. -/
theorem keys_separate (identity : ReportIdentity) (includeAmended : Bool) (identity' : ReportIdentity)
    (includeAmended' : Bool) :
    Separates identity includeAmended identity' includeAmended' ↔
      ¬ Mimics identity includeAmended identity' includeAmended' ∧
        ¬ Mimics identity' includeAmended' identity includeAmended := by
  constructor
  · rintro ⟨pending, _⟩
    constructor
    · intro mimics
      exact mimics.differ (pending mimics.same_key).flag
    · intro mimics
      exact mimics.differ (pending mimics.same_key.symm).flag.symm
  · rintro ⟨plain, plain'⟩
    constructor
    · intro same
      exact (same_or_mimics same).resolve_right (not_or.mpr ⟨plain, plain'⟩)
    · intro same
      exact (same_or_mimics same).resolve_right (not_or.mpr ⟨plain, plain'⟩)

/-- The first quarter of Apple's report, and the quarter that spells out its amended key. -/
theorem keys_collide : ∃ identity identity' : ReportIdentity,
    ReportIdentity.make "AAPL" "10-K" 2024 (some "Q1+amended") = .ok identity ∧
    ReportIdentity.make "AAPL" "10-K" 2024 (some "Q1") = .ok identity' ∧
    ¬ Separates identity false identity' true := by
  refine ⟨{ Sample.identity 2024 with quarter := some "Q1+amended" },
    { Sample.identity 2024 with quarter := some "Q1" }, Sample.ok_of_toOption (by decide +kernel),
    Sample.ok_of_toOption (by decide +kernel), ?_⟩
  rintro ⟨pending, _⟩
  have flags := (pending (by decide +kernel)).flag
  cases flags

end Quartr.Soundness
