import Quartr.Model.Models

/-! # Parsing SEC submissions and selecting the filing

The submissions payload holds one list per column. A row with an unreadable date is skipped; the
selection filters by form, year and document and keeps the first of the latest.
-/

namespace Quartr.Model

/-- The days of a month in the proleptic Gregorian calendar. -/
def daysInMonth (year month : ℕ) : ℕ :=
  if month = 2 then if year % 4 = 0 ∧ (year % 100 ≠ 0 ∨ year % 400 = 0) then 29 else 28
  else if month ∈ [4, 6, 9, 11] then 30 else 31

/-- A `datetime.date`. -/
structure Date where
  year : ℕ
  month : ℕ
  day : ℕ
  year_bounds : 1 ≤ year ∧ year ≤ 9999
  month_bounds : 1 ≤ month ∧ month ≤ 12
  day_bounds : 1 ≤ day ∧ day ≤ daysInMonth year month
deriving DecidableEq

namespace Date

def make? (year month day : ℕ) : Option Date :=
  if years : 1 ≤ year ∧ year ≤ 9999 then
    if months : 1 ≤ month ∧ month ≤ 12 then
      if days : 1 ≤ day ∧ day ≤ daysInMonth year month then
        some ⟨year, month, day, years, months, days⟩
      else none
    else none
  else none

/-- Dates compare by year, then month, then day. -/
def ordinal (date : Date) : ℕ := (date.year * 13 + date.month) * 32 + date.day

def isoformat (date : Date) : String :=
  Text.zfill 4 (toString date.year) ++ "-" ++ Text.zfill 2 (toString date.month) ++ "-" ++
    Text.zfill 2 (toString date.day)

/-- The number of days before January 1 of a year. -/
def daysBeforeYear (year : ℕ) : ℕ :=
  (year - 1) * 365 + (year - 1) / 4 - (year - 1) / 100 + (year - 1) / 400

/-- The date that lies `offset` days after the first of a month; `fuel` bounds the months. -/
def advance? (fuel year month offset : ℕ) : Option Date :=
  match fuel with
  | 0 => none
  | fuel + 1 =>
    if offset < daysInMonth year month then make? year month (offset + 1)
    else if month = 12 then advance? fuel (year + 1) 1 (offset - daysInMonth year month)
    else advance? fuel year (month + 1) (offset - daysInMonth year month)

/-- The ISO week date `year-Wweek-day`; week 1 is the one with the year's first Thursday. -/
def ofIsoWeek? (year week day : ℕ) : Option Date :=
  let first := (daysBeforeYear year) % 7
  let monday := if first ≤ 3 then daysBeforeYear year - first else daysBeforeYear year + 7 - first
  let longYear := first = 3 ∨ (first = 2 ∧ daysInMonth year 2 = 29)
  if year = 0 ∨ 9999 < year ∨ week = 0 ∨ (53 < week ∨ week = 53 ∧ ¬ longYear) ∨ day = 0 ∨ 7 < day
  then none
  else
    let days := monday + (week - 1) * 7 + (day - 1)
    if days < daysBeforeYear year then advance? 2 (year - 1) 12 (days + 31 - daysBeforeYear year)
    else advance? 14 year 1 (days - daysBeforeYear year)

/-- The value of a run of ASCII digits. -/
def digits? (text : List Char) : Option ℕ :=
  if text.all fun c => '0' ≤ c ∧ c ≤ '9' then
    some (text.foldl (fun value c => value * 10 + (c.toNat - 48)) 0)
  else none

/-- `date.fromisoformat`: calendar dates and week dates, in basic and extended format. -/
def fromisoformat? (text : String) : Option Date :=
  match text.toList with
  | [a, b, c, d, '-', 'W', w, v] => do ofIsoWeek? (← digits? [a, b, c, d]) (← digits? [w, v]) 1
  | [a, b, c, d, 'W', w, v] => do ofIsoWeek? (← digits? [a, b, c, d]) (← digits? [w, v]) 1
  | [a, b, c, d, '-', 'W', w, v, '-', e] => do
    ofIsoWeek? (← digits? [a, b, c, d]) (← digits? [w, v]) (← digits? [e])
  | [a, b, c, d, 'W', w, v, e] => do
    ofIsoWeek? (← digits? [a, b, c, d]) (← digits? [w, v]) (← digits? [e])
  | [a, b, c, d, '-', m, n, '-', e, f] => do
    make? (← digits? [a, b, c, d]) (← digits? [m, n]) (← digits? [e, f])
  | [a, b, c, d, m, n, e, f] => do
    make? (← digits? [a, b, c, d]) (← digits? [m, n]) (← digits? [e, f])
  | _ => none

end Date

/-- The decoded submissions payload: `str(payload["cik"])` if present, the name, and the columns
of `filings.recent`, where an absent column is empty. -/
structure SubmissionsPayload where
  cik : Option String
  name : String
  form : List String
  filingDate : List String
  accessionNumber : List String
  primaryDocument : List String

structure FilingRecord where
  cik : String
  form : String
  filingDate : Date
  accessionNumber : String
  primaryDocument : String
  companyName : String
deriving DecidableEq

/-- `filing_index_url`; a CIK that is no number raises. -/
def FilingRecord.filingIndexUrl (settings : Settings) (filing : FilingRecord) :
    Except Err String :=
  match Text.int? filing.cik with
  | none => .error (.value ("invalid literal for int() with base 10: " ++ Text.quoted filing.cik))
  | some cik =>
    let accessionNoDashes := String.ofList (filing.accessionNumber.toList.filter (· ≠ '-'))
    .ok (settings.secArchivesBaseUrl ++ "/" ++ toString cik ++ "/" ++ accessionNoDashes ++ "/" ++
      filing.primaryDocument)

structure FilingSelector where
  form : String
  includeAmended : Bool

/-- Only a base form is widened; an amended form is matched exactly. -/
def FilingSelector.matches (selector : FilingSelector) (form : String) : Bool :=
  if selector.includeAmended then form = selector.form || form = selector.form ++ "/A"
  else form = selector.form

/-- One pass of the loop in `parse_submissions`: a missing or unreadable date skips the row, a
missing accession number raises. -/
def parseRow (payload : SubmissionsPayload) (cik : String) (i : ℕ) (form : String) :
    Except Err (Option FilingRecord) :=
  match (payload.filingDate[i]?).bind Date.fromisoformat? with
  | none => .ok none
  | some filingDate =>
    match payload.accessionNumber[i]? with
    | none => .error (.value "list index out of range")
    | some accessionNumber =>
      .ok (some ⟨cik, form, filingDate, accessionNumber, (payload.primaryDocument[i]?).getD "",
        payload.name⟩)

/-- The loop over the form column from row `i` on. -/
def parseRows (payload : SubmissionsPayload) (cik : String) (i : ℕ) :
    List String → Except Err (List FilingRecord)
  | [] => .ok []
  | form :: forms => do
    match ← parseRow payload cik i form with
    | none => parseRows payload cik (i + 1) forms
    | some record => return record :: (← parseRows payload cik (i + 1) forms)

/-- `parse_submissions`. -/
def parseSubmissions (payload : SubmissionsPayload) : Except Err (List FilingRecord) :=
  match payload.cik with
  | none => .error (.value "'cik'")
  | some cik => parseRows payload (Text.zfill 10 cik) 0 payload.form

/-- `max(candidates, key=filing_date)`: the first of the greatest. -/
def latestOf (best : FilingRecord) : List FilingRecord → FilingRecord
  | [] => best
  | filing :: rest =>
    latestOf (if best.filingDate.ordinal < filing.filingDate.ordinal then filing else best) rest

/-- The filings that the selector, the year and the document filter leave. -/
def candidates (filings : List FilingRecord) (selector : FilingSelector) (year : Option ℤ) :
    List FilingRecord :=
  let byForm := filings.filter fun filing => selector.matches filing.form
  let byYear := match year with
    | none => byForm
    | some year => byForm.filter fun filing => (filing.filingDate.year : ℤ) = year
  byYear.filter fun filing => filing.primaryDocument ≠ ""

/-- `select_latest`. -/
def selectLatest (filings : List FilingRecord) (selector : FilingSelector) (year : Option ℤ) :
    Except Err FilingRecord :=
  match candidates filings selector year with
  | [] => .error (.permanentSec ("No filing found matching form=" ++ Text.quoted selector.form ++
      " include_amended=" ++ (if selector.includeAmended then "True" else "False") ++ " year=" ++
      (match year with | none => "None" | some year => toString year)))
  | filing :: rest => .ok (latestOf filing rest)

theorem latestOf_mem (best : FilingRecord) (filings : List FilingRecord) :
    latestOf best filings ∈ best :: filings := by
  induction filings generalizing best with
  | nil => exact List.mem_singleton_self best
  | cons filing rest ih =>
    rw [latestOf]
    split
    · exact List.mem_cons_of_mem best (ih filing)
    · rcases List.mem_cons.mp (ih best) with same | member
      · rw [same]
        exact List.mem_cons_self ..
      · exact List.mem_cons_of_mem _ (List.mem_cons_of_mem _ member)

/-- A selected filing is one of the list and passed every filter. -/
theorem selectLatest_ok {filings : List FilingRecord} {selector : FilingSelector}
    {year : Option ℤ} {filing : FilingRecord} (selected : selectLatest filings selector year = .ok filing) :
    filing ∈ filings ∧ selector.matches filing.form = true ∧ filing.primaryDocument ≠ "" ∧
      ∀ wanted, year = some wanted → (filing.filingDate.year : ℤ) = wanted := by
  have member : filing ∈ candidates filings selector year := by
    unfold selectLatest at selected
    cases found : candidates filings selector year with
    | nil => simp [found] at selected
    | cons first rest =>
      simp only [found, Except.ok.injEq] at selected
      exact selected ▸ latestOf_mem first rest
  cases year with
  | none =>
    simp only [candidates, List.mem_filter, decide_eq_true_eq] at member
    exact ⟨member.1.1, member.1.2, member.2, fun _ wanted => by cases wanted⟩
  | some wanted =>
    simp only [candidates, List.mem_filter, decide_eq_true_eq] at member
    exact ⟨member.1.1.1, member.1.1.2, member.2, fun _ same => by cases same; exact member.1.2⟩

end Quartr.Model
