import Mathlib.Data.List.Range
import Quartr.Model.Sample
import Quartr.Order.FirstMax

/-! # Which filing is selected

`parse_submissions` lists one record for each row with a form, a readable date and an accession
number, and `select_latest` answers the first of the latest among those that pass its filters. The
loop reads the accession number unguarded, so a column that is too short raises.
-/

namespace Quartr.Soundness

open Quartr.Order Quartr.Model

/-! ### The rows of a payload -/

/-- The record of a row that has a form, a readable date and an accession number. -/
def row? (payload : SubmissionsPayload) (cik : String) (i : ℕ) : Option FilingRecord := do
  let form ← payload.form[i]?
  let filingDate ← (payload.filingDate[i]?).bind Date.fromisoformat?
  let accessionNumber ← payload.accessionNumber[i]?
  return ⟨Text.zfill 10 cik, form, filingDate, accessionNumber, (payload.primaryDocument[i]?).getD "",
    payload.name⟩

/-- The records of all such rows in payload order. -/
def listing (payload : SubmissionsPayload) (cik : String) : List FilingRecord :=
  (List.range payload.form.length).filterMap (row? payload cik)

/-- The row has a form and a readable date but no accession number. -/
def Unnumbered (payload : SubmissionsPayload) (i : ℕ) : Prop :=
  (payload.form[i]?).isSome ∧ ((payload.filingDate[i]?).bind Date.fromisoformat?).isSome ∧
    payload.accessionNumber[i]? = none

/-- Nothing is raised, and every row that can be listed is listed, in order. -/
def ListsRows (payload : SubmissionsPayload) : Prop :=
  ∃ cik, payload.cik = some cik ∧ parseSubmissions payload = .ok (listing payload cik)

section Rows

variable {payload : SubmissionsPayload} {cik : String} {i : ℕ} {form : String} {forms : List String}

/-- One pass of the loop either makes the record of the row, or fails for want of its number. -/
theorem parseRow_cases (present : payload.form[i]? = some form) :
    parseRow payload (Text.zfill 10 cik) i form = .ok (row? payload cik i) ∧ ¬ Unnumbered payload i ∨
      parseRow payload (Text.zfill 10 cik) i form = .error (.value "list index out of range") ∧
        Unnumbered payload i := by
  unfold parseRow row? Unnumbered
  rw [present]
  cases (payload.filingDate[i]?).bind Date.fromisoformat? with
  | none => simp
  | some filingDate => cases payload.accessionNumber[i]? <;> simp

/-- The loop lists the rows from `i` on, unless one of them has no number. -/
theorem parseRows_cases (rest : payload.form.drop i = forms) :
    parseRows payload (Text.zfill 10 cik) i forms =
        .ok ((List.range' i forms.length).filterMap (row? payload cik)) ∧
        (∀ j, i ≤ j → ¬ Unnumbered payload j) ∨
      (∃ error, parseRows payload (Text.zfill 10 cik) i forms = .error error) ∧
        ∃ j, i ≤ j ∧ Unnumbered payload j := by
  induction forms generalizing i with
  | nil =>
    have short : payload.form.length ≤ i := List.drop_eq_nil_iff.mp rest
    refine .inl ⟨rfl, fun j later unnumbered => ?_⟩
    have absent : payload.form[j]? = none := List.getElem?_eq_none (by omega)
    rw [Unnumbered, absent] at unnumbered
    cases unnumbered.1
  | cons form forms ih =>
    have present : payload.form[i]? = some form := by
      rw [← List.head?_drop, rest]
      rfl
    have rest' : payload.form.drop (i + 1) = forms := by
      rw [← List.tail_drop, rest]
      rfl
    have later {j : ℕ} (bound : i ≤ j) : j = i ∨ i + 1 ≤ j := by omega
    rcases @parseRow_cases payload cik i form present with ⟨made, numbered⟩ | ⟨raised, unnumbered⟩
    · rcases ih rest' with ⟨listed, numbered'⟩ | ⟨⟨error, raised⟩, j, bound, unnumbered⟩
      · refine .inl ⟨?_, fun j bound => ?_⟩
        · rw [parseRows, made, List.length_cons, List.range'_succ]
          cases found : row? payload cik i with
          | none =>
            rw [List.filterMap_cons_none found]
            exact listed
          | some record =>
            rw [List.filterMap_cons_some found]
            show (parseRows payload (Text.zfill 10 cik) (i + 1) forms >>= _) = _
            rw [listed]
            rfl
        · rcases later bound with rfl | bound
          · exact numbered
          · exact numbered' j bound
      · refine .inr ⟨⟨error, ?_⟩, j, by omega, unnumbered⟩
        rw [parseRows, made]
        cases row? payload cik i with
        | none => exact raised
        | some record =>
          show (parseRows payload (Text.zfill 10 cik) (i + 1) forms >>= _) = _
          rw [raised]
          rfl
    · refine .inr ⟨⟨.value "list index out of range", ?_⟩, i, Nat.le_refl i, unnumbered⟩
      rw [parseRows, raised]
      rfl

end Rows

/-- The rows are listed exactly when the payload names its company and no row with a form and a
readable date lacks its accession number. -/
theorem rows_listed (payload : SubmissionsPayload) :
    ListsRows payload ↔ payload.cik.isSome ∧ ∀ i, ¬ Unnumbered payload i := by
  unfold ListsRows parseSubmissions listing
  cases payload.cik with
  | none => simp
  | some cik =>
    have whole := @parseRows_cases payload cik 0 payload.form rfl
    rw [← List.range_eq_range'] at whole
    rcases whole with ⟨listed, numbered⟩ | ⟨⟨error, raised⟩, j, _, unnumbered⟩
    · exact iff_of_true ⟨cik, rfl, listed⟩ ⟨rfl, fun j => numbered j (Nat.zero_le j)⟩
    · apply iff_of_false
      · rintro ⟨_, ⟨⟩, listed⟩
        cases raised.symm.trans listed
      · rintro ⟨_, numbered⟩
        exact numbered j unnumbered

/-- Apple's listing with a date too many. -/
def unnumberedRow : SubmissionsPayload :=
  { cik := some "320193", name := "Apple Inc.", form := ["10-K", "10-K"],
    filingDate := ["2024-11-01", "2023-11-03"], accessionNumber := ["0000320193-24-000123"],
    primaryDocument := ["aapl-20240928.htm", "aapl-20230930.htm"] }

/-- The row without a number hides the one that has everything. -/
theorem row_hidden : parseSubmissions unnumberedRow = .error (.value "list index out of range") ∧
    (row? unnumberedRow "320193" 0).isSome ∧ ¬ ListsRows unnumberedRow := by
  have raised : parseSubmissions unnumberedRow = .error (.value "list index out of range") := by
    decide +kernel
  refine ⟨raised, by decide +kernel, ?_⟩
  rintro ⟨_, _, listed⟩
  cases raised.symm.trans listed

/-! ### The first of the latest -/

section Select

variable {filings : List FilingRecord} {selector : FilingSelector} {year : Option ℤ} {filing : FilingRecord}

/-- Filings compare by their dates. -/
def filed (filing : FilingRecord) : ℕ := filing.filingDate.ordinal

/-- What the three filters ask of a record. -/
def wanted (selector : FilingSelector) (year : Option ℤ) (filing : FilingRecord) : Bool :=
  selector.matches filing.form && year.all (fun year => (filing.filingDate.year : ℤ) = year) &&
    filing.primaryDocument ≠ ""

theorem candidates_eq : candidates filings selector year = filings.filter (wanted selector year) := by
  unfold candidates wanted
  cases year <;> simp [List.filter_filter, Bool.and_comm]

theorem latestOf_firstMax (best : FilingRecord) (filings : List FilingRecord) :
    FirstMax filed (best :: filings) (latestOf best filings) := by
  induction filings generalizing best with
  | nil => exact .singleton best
  | cons filing rest ih =>
    rw [latestOf]
    split_ifs with later
    · exact (ih filing).replace later
    · exact (ih best).keep (Nat.le_of_not_lt later)

theorem selectLatest_firstMax (selected : selectLatest filings selector year = .ok filing) :
    FirstMax filed (candidates filings selector year) filing := by
  unfold selectLatest at selected
  cases found : candidates filings selector year with
  | nil =>
    rw [found] at selected
    cases selected
  | cons first rest =>
    simp only [found, Except.ok.injEq] at selected
    exact selected ▸ latestOf_firstMax first rest

theorem selectLatest_cases : (∃ message, selectLatest filings selector year = .error (.permanentSec message)) ∧
      candidates filings selector year = [] ∨
    ∃ filing, selectLatest filings selector year = .ok filing := by
  unfold selectLatest
  cases candidates filings selector year with
  | nil => exact .inl ⟨⟨_, rfl⟩, rfl⟩
  | cons first rest => exact .inr ⟨_, rfl⟩

theorem selectLatest_eq (greatest : FirstMax filed (candidates filings selector year) filing) :
    selectLatest filings selector year = .ok filing := by
  rcases @selectLatest_cases filings selector year with ⟨_, none⟩ | ⟨filing', selected⟩
  · rw [none] at greatest
    cases greatest.mem
  · rw [selected, (selectLatest_firstMax selected).unique greatest]

end Select

/-- The form is the selector's, or its amendment where those are included. -/
def Matches (selector : FilingSelector) (form : String) : Prop :=
  form = selector.form ∨ selector.includeAmended = true ∧ form = selector.form ++ "/A"

/-- The row may be selected: it has a readable date of the year asked for, a matching form and a
document. -/
structure Eligible (payload : SubmissionsPayload) (selector : FilingSelector) (year : Option ℤ) (i : ℕ)
    (date : Date) : Prop where
  dated : (payload.filingDate[i]?).bind Date.fromisoformat? = some date
  matching : ∃ form, payload.form[i]? = some form ∧ Matches selector form
  requested : ∀ wanted, year = some wanted → (date.year : ℤ) = wanted
  documented : ∃ document, payload.primaryDocument[i]? = some document ∧ document ≠ ""

/-- Everything in the record comes from this row. -/
structure FromRow (payload : SubmissionsPayload) (i : ℕ) (filing : FilingRecord) : Prop where
  form : payload.form[i]? = some filing.form
  date : (payload.filingDate[i]?).bind Date.fromisoformat? = some filing.filingDate
  accessionNumber : payload.accessionNumber[i]? = some filing.accessionNumber
  document : payload.primaryDocument[i]? = some filing.primaryDocument

/-- The four columns are equally long. -/
structure Even (payload : SubmissionsPayload) : Prop where
  dates : payload.filingDate.length = payload.form.length
  numbers : payload.accessionNumber.length = payload.form.length
  documents : payload.primaryDocument.length = payload.form.length

section Rows

variable {payload : SubmissionsPayload} {selector : FilingSelector} {year : Option ℤ} {cik : String}
  {filing : FilingRecord} {date : Date} {i : ℕ}

theorem matches_iff (selector : FilingSelector) (form : String) :
    selector.matches form = true ↔ Matches selector form := by
  unfold FilingSelector.matches Matches
  cases selector.includeAmended <;> simp

theorem Even.numbered (even : Even payload) (i : ℕ) : ¬ Unnumbered payload i := by
  rintro ⟨present, _, missing⟩
  obtain ⟨form, present⟩ := Option.isSome_iff_exists.mp present
  obtain ⟨bound, _⟩ := List.getElem?_eq_some_iff.mp present
  have short := List.getElem?_eq_none_iff.mp missing
  have same := even.numbers
  omega

/-- The record of a row comes from it. -/
theorem fromRow_of_row (even : Even payload) (made : row? payload cik i = some filing) :
    FromRow payload i filing ∧ filing.cik = Text.zfill 10 cik ∧ filing.companyName = payload.name := by
  simp only [row?, Option.bind_eq_bind, Option.bind_eq_some_iff, Option.pure_def, Option.some.injEq] at made
  obtain ⟨form, hasForm, date, hasDate, number, hasNumber, rfl⟩ := made
  obtain ⟨bound, _⟩ := List.getElem?_eq_some_iff.mp hasForm
  have bound' : i < payload.primaryDocument.length := even.documents ▸ bound
  exact ⟨⟨hasForm, Option.bind_eq_some_iff.mpr hasDate, hasNumber, by simp [bound']⟩, rfl, rfl⟩

/-- The rows that may be selected are those whose records pass the filters. -/
theorem eligible_iff (even : Even payload) :
    Eligible payload selector year i date ↔
      ∃ filing, row? payload cik i = some filing ∧ wanted selector year filing = true ∧
        filing.filingDate = date := by
  constructor
  · rintro ⟨dated, ⟨form, hasForm, matching⟩, requested, document, hasDocument, nonempty⟩
    obtain ⟨bound, _⟩ := List.getElem?_eq_some_iff.mp hasForm
    have bound' : i < payload.accessionNumber.length := even.numbers ▸ bound
    refine ⟨⟨Text.zfill 10 cik, form, date, payload.accessionNumber[i], document, payload.name⟩, ?_, ?_, rfl⟩
    · simp [row?, hasForm, dated, hasDocument, bound']
    · simp only [wanted, Bool.and_eq_true, matches_iff, decide_eq_true_eq]
      refine ⟨⟨matching, ?_⟩, nonempty⟩
      cases year with
      | none => rfl
      | some year => exact decide_eq_true (requested year rfl)
  · rintro ⟨filing, made, passes, rfl⟩
    obtain ⟨⟨form, dated, number, document⟩, _, _⟩ := fromRow_of_row even made
    simp only [wanted, Bool.and_eq_true, matches_iff, decide_eq_true_eq] at passes
    obtain ⟨⟨matching, requested⟩, nonempty⟩ := passes
    refine ⟨dated, ⟨_, form, matching⟩, ?_, _, document, nonempty⟩
    rintro _ rfl
    exact of_decide_eq_true requested

end Rows

/-- The row is the first of those with the greatest date among the rows that may be selected. -/
def FirstLatest (payload : SubmissionsPayload) (selector : FilingSelector) (year : Option ℤ) (i : ℕ)
    (date : Date) : Prop :=
  Eligible payload selector year i date ∧ ∀ j date', Eligible payload selector year j date' →
    date'.ordinal ≤ date.ordinal ∧ (date' = date → i ≤ j)

section Listing

variable {payload : SubmissionsPayload} {selector : FilingSelector} {year : Option ℤ} {cik : String}
  {filing : FilingRecord}

/-- The record of a row that passes the filters. -/
def offer? (payload : SubmissionsPayload) (selector : FilingSelector) (year : Option ℤ) (cik : String)
    (i : ℕ) : Option FilingRecord :=
  (row? payload cik i).filter (wanted selector year)

theorem candidates_listing : candidates (listing payload cik) selector year =
    (List.range payload.form.length).filterMap (offer? payload selector year cik) := by
  rw [candidates_eq, listing, List.filter_filterMap]
  rfl

theorem offer_iff {i : ℕ} : offer? payload selector year cik i = some filing ↔
    row? payload cik i = some filing ∧ wanted selector year filing = true :=
  Option.filter_eq_some_iff

/-- An eligible row is offered, and is one of the rows. -/
theorem Eligible.offered (even : Even payload) {i : ℕ} {date : Date}
    (eligible : Eligible payload selector year i date) (cik : String) :
    i < payload.form.length ∧ ∃ filing, offer? payload selector year cik i = some filing ∧
      filing.filingDate = date := by
  obtain ⟨form, hasForm, _⟩ := eligible.matching
  obtain ⟨filing, made, passes, same⟩ := (@eligible_iff _ _ _ cik _ _ even).mp eligible
  exact ⟨(List.getElem?_eq_some_iff.mp hasForm).1, filing, offer_iff.mpr ⟨made, passes⟩, same⟩

theorem offered_eligible (even : Even payload) {i : ℕ} (offered : offer? payload selector year cik i = some filing) :
    Eligible payload selector year i filing.filingDate := by
  obtain ⟨made, passes⟩ := offer_iff.mp offered
  exact (@eligible_iff _ _ _ cik _ _ even).mpr ⟨filing, made, passes, rfl⟩

/-- Nothing is left by the filters exactly when no row may be selected. -/
theorem candidates_nil (even : Even payload) : candidates (listing payload cik) selector year = [] ↔
    ∀ i date, ¬ Eligible payload selector year i date := by
  rw [candidates_listing, List.filterMap_eq_nil_iff]
  constructor
  · intro none i date eligible
    obtain ⟨bound, filing, offered, _⟩ := eligible.offered even cik
    cases (none i (List.mem_range.mpr bound)).symm.trans offered
  · intro none i _
    cases offered : offer? payload selector year cik i with
    | none => rfl
    | some filing => exact absurd (offered_eligible even offered) (none i _)

/-- The selected record is the offer of the first row among those with the greatest date. -/
theorem firstMax_row (even : Even payload)
    (greatest : FirstMax filed (candidates (listing payload cik) selector year) filing) :
    ∃ i, row? payload cik i = some filing ∧ FirstLatest payload selector year i filing.filingDate := by
  rw [candidates_listing] at greatest
  obtain ⟨before, i, after, split, offered, less, rest⟩ := greatest.of_filterMap
  have ordered : (List.range payload.form.length).Pairwise (· < ·) := List.pairwise_lt_range
  rw [split] at ordered
  obtain ⟨later, _⟩ := List.pairwise_cons.mp (List.pairwise_append.mp ordered).2.1
  refine ⟨i, (offer_iff.mp offered).1, offered_eligible even offered, ?_⟩
  intro j date' eligible
  obtain ⟨bound, filing', offered', rfl⟩ := eligible.offered even cik
  have member := List.mem_range.mpr bound
  rw [split] at member
  rcases List.mem_append.mp member with member | member
  · have lower := less j member filing' offered'
    refine ⟨Nat.le_of_lt lower, fun same => ?_⟩
    rw [filed, filed, same] at lower
    exact absurd lower (Nat.lt_irrefl _)
  · rcases List.mem_cons.mp member with rfl | member
    · obtain rfl := Option.some.inj (offered.symm.trans offered')
      exact ⟨Nat.le_refl _, fun _ => Nat.le_refl _⟩
    · exact ⟨rest j member filing' offered', fun _ => Nat.le_of_lt (later j member)⟩

end Listing

/-- The selection from a payload with even columns. It is refused exactly when no row may be selected;
otherwise it is the record of the first row among those with the greatest date. A payload that names
no company is not parsed. -/
theorem selects_first_latest (payload : SubmissionsPayload) (even : Even payload) (selector : FilingSelector)
    (year : Option ℤ) :
    (payload.cik = none → (parseSubmissions payload).bind (selectLatest · selector year) =
      .error (.value "'cik'")) ∧
    ∀ cik, payload.cik = some cik →
      ((∃ message, (parseSubmissions payload).bind (selectLatest · selector year) =
          .error (.permanentSec message)) ↔ ∀ i date, ¬ Eligible payload selector year i date) ∧
        ((∃ i date, Eligible payload selector year i date) →
          ∃ filing i, (parseSubmissions payload).bind (selectLatest · selector year) = .ok filing ∧
            FromRow payload i filing ∧ filing.cik = Text.zfill 10 cik ∧
            filing.companyName = payload.name ∧ FirstLatest payload selector year i filing.filingDate) := by
  constructor
  · intro unnamed
    rw [parseSubmissions, unnamed]
    rfl
  intro cik named
  have listed : parseSubmissions payload = .ok (listing payload cik) := by
    obtain ⟨cik', named', listed⟩ := (rows_listed payload).mpr ⟨by simp [named], even.numbered⟩
    obtain rfl := Option.some.inj (named.symm.trans named')
    exact listed
  rw [listed]
  show ((∃ message, selectLatest (listing payload cik) selector year = _) ↔ _) ∧ (_ → ∃ filing i,
    selectLatest (listing payload cik) selector year = _ ∧ _)
  rcases @selectLatest_cases (listing payload cik) selector year with ⟨refused, none⟩ | ⟨filing, selected⟩
  · have ineligible := (candidates_nil even).mp none
    refine ⟨iff_of_true refused ineligible, ?_⟩
    rintro ⟨i, date, eligible⟩
    exact absurd eligible (ineligible i date)
  · obtain ⟨i, made, first⟩ := firstMax_row even (selectLatest_firstMax selected)
    obtain ⟨fromRow, cikEq, nameEq⟩ := fromRow_of_row even made
    refine ⟨iff_of_false ?_ ?_, fun _ => ⟨filing, i, selected, fromRow, cikEq, nameEq, first⟩⟩
    · rintro ⟨message, refused⟩
      cases selected.symm.trans refused
    · intro ineligible
      exact ineligible i _ first.1

/-- A listing with an amendment, an unreadable date, a filing without a document, and a tie. -/
def mixedListing : SubmissionsPayload :=
  { cik := some "320193", name := "Apple Inc."
    form := ["10-K/A", "10-K", "10-K", "10-K", "10-K"]
    filingDate := ["2024-12-01", "soon", "2024-11-15", "2024-11-01", "2024-11-01"]
    accessionNumber := ["0000320193-24-000130", "0000320193-24-000129", "0000320193-24-000128",
      "0000320193-24-000123", "0000320193-24-000122"]
    primaryDocument := ["a.htm", "b.htm", "", "c.htm", "d.htm"] }

theorem selects_first_latest_mixed : ∃ filing i,
    (parseSubmissions mixedListing).bind (selectLatest · ⟨"10-K", false⟩ none) = .ok filing ∧
      FromRow mixedListing i filing ∧ filing.cik = Text.zfill 10 "320193" ∧
      filing.companyName = mixedListing.name ∧
      FirstLatest mixedListing ⟨"10-K", false⟩ none i filing.filingDate :=
  ((selects_first_latest mixedListing ⟨rfl, rfl, rfl⟩ ⟨"10-K", false⟩ none).2 "320193" rfl).2
    ⟨3, ⟨2024, 11, 1, by decide, by decide, by decide⟩, by decide +kernel, ⟨"10-K", rfl, .inl rfl⟩, by simp,
      "c.htm", rfl, by decide⟩

/-! ### The latest filing and the filing of its year -/

theorem wanted_year (selector : FilingSelector) (year : ℤ) (filing : FilingRecord) :
    wanted selector (some year) filing =
      (decide ((filing.filingDate.year : ℤ) = year) && wanted selector none filing) := by
  unfold wanted
  cases selector.matches filing.form <;> simp

/-- The latest filing is the latest of its year. -/
theorem selectLatest_year {filings : List FilingRecord} {selector : FilingSelector} {filing : FilingRecord}
    (selected : selectLatest filings selector none = .ok filing) :
    selectLatest filings selector (some filing.filingDate.year) = .ok filing := by
  have greatest := selectLatest_firstMax selected
  apply selectLatest_eq
  rw [candidates_eq] at greatest ⊢
  have later := @FirstMax.filter _ _ _ _ _ _ greatest
    (fun other => (other.filingDate.year : ℤ) = filing.filingDate.year) (decide_eq_true rfl)
  rw [List.filter_filter] at later
  rw [List.filter_congr fun other _ => wanted_year selector _ other]
  exact later

/-- What `select_latest` answers without a year it answers for the year of that filing too, so the
pipeline selects the same for a task that asks for the resolved year. -/
theorem latest_of_its_year :
    (∀ (filings : List FilingRecord) (selector : FilingSelector) (filing : FilingRecord),
      selectLatest filings selector none = .ok filing →
        selectLatest filings selector (some filing.filingDate.year) = .ok filing) ∧
    ∀ (worker : Worker) (company : CompanyRecord) (task resolved : ReportTask) (payload : SubmissionsPayload)
      (selection : Selection), task.identity.year = latestYearSentinel →
        worker.resolveFiling company task payload = .ok selection →
        resolved.identity = selection.identity → resolved.includeAmended = task.includeAmended →
          worker.resolveFiling company resolved payload = .ok selection := by
  constructor
  · exact fun filings selector filing selected => selectLatest_year selected
  intro worker company task resolved payload selection latest made identity amended
  unfold Worker.resolveFiling at made ⊢
  obtain ⟨filings, parsed, made⟩ := bind_eq_ok.mp made
  obtain ⟨record, selected, made⟩ := bind_eq_ok.mp made
  obtain ⟨url, located, made⟩ := bind_eq_ok.mp made
  simp only [latest, ↓reduceIte] at selected made
  cases made
  have dated : (record.filingDate.year : ℤ) ≠ latestYearSentinel := by
    have bounds := record.filingDate.year_bounds
    rw [latestYearSentinel]
    omega
  rw [identity, amended, parsed]
  apply bind_eq_ok.mpr
  refine ⟨filings, rfl, bind_eq_ok.mpr ⟨record, ?_, bind_eq_ok.mpr ⟨url, located, ?_⟩⟩⟩
  · simp only [dated, ↓reduceIte]
    exact selectLatest_year selected
  · simp only [dated, ↓reduceIte]
    rfl

theorem latest_of_its_year_apple :
    selectLatest (listing mixedListing "320193") ⟨"10-K", true⟩ none =
        .ok ⟨"0000320193", "10-K/A", ⟨2024, 12, 1, by decide, by decide, by decide⟩, "0000320193-24-000130",
          "a.htm", "Apple Inc."⟩ ∧
      selectLatest (listing mixedListing "320193") ⟨"10-K", true⟩ (some 2024) =
        .ok ⟨"0000320193", "10-K/A", ⟨2024, 12, 1, by decide, by decide, by decide⟩, "0000320193-24-000130",
          "a.htm", "Apple Inc."⟩ := by
  have selected : selectLatest (listing mixedListing "320193") ⟨"10-K", true⟩ none =
      .ok ⟨"0000320193", "10-K/A", ⟨2024, 12, 1, by decide, by decide, by decide⟩, "0000320193-24-000130",
        "a.htm", "Apple Inc."⟩ := by decide +kernel
  exact ⟨selected, latest_of_its_year.1 _ _ _ selected⟩

end Quartr.Soundness
