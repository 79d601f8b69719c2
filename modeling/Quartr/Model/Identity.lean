import Quartr.Model.Text

/-! # Report identity

The logical path `/{ticker}/{form}/{year}[/{quarter}]` names a report; the accession number names
the filing it currently resolves to. A `ReportIdentity` carries the grammar its constructor
checked, so every identity that exists has a valid ticker and form.
-/

namespace Quartr.Model

/-- `$` matches at the end of the text and before a newline that ends it. -/
def matchesToEnd (body : List Char → Bool) (text : List Char) : Bool :=
  body text || (text.getLast? = some '\n' && body text.dropLast)

def isUpperLetter (c : Char) : Bool := 'A' ≤ c ∧ c ≤ 'Z'

def isUpperAlnum (c : Char) : Bool := isUpperLetter c || ('0' ≤ c ∧ c ≤ '9')

/-- `[A-Z][A-Z.\-]{0,9}` -/
def tickerBody : List Char → Bool
  | [] => false
  | first :: rest =>
    isUpperLetter first && rest.length ≤ 9 && rest.all fun c => isUpperLetter c || c = '.' || c = '-'

/-- `[A-Z0-9]+(-[A-Z0-9]+)?(/A)?`; the runs cannot swallow the dash or the slash. -/
def formBody (text : List Char) : Bool :=
  let amended (rest : List Char) := rest = [] || rest = ['/', 'A']
  let run := text.takeWhile isUpperAlnum
  let rest := text.dropWhile isUpperAlnum
  run ≠ [] && (amended rest ||
    match rest with
    | '-' :: tail => tail.takeWhile isUpperAlnum ≠ [] && amended (tail.dropWhile isUpperAlnum)
    | _ => false)

/-- `_TICKER_RE.match`. -/
def tickerMatches (ticker : String) : Bool := matchesToEnd tickerBody ticker.toList

/-- `_FORM_RE.match`. -/
def formMatches (form : String) : Bool := matchesToEnd formBody form.toList

/-- `LATEST_YEAR_SENTINEL`: whatever filing is the latest. -/
def latestYearSentinel : ℤ := 0

def encodeForm (form : String) : String :=
  String.ofList (form.toList.map fun c => if c = '/' then '_' else c)

def decodeForm (encoded : String) : String :=
  String.ofList (encoded.toList.map fun c => if c = '_' then '/' else c)

structure ReportIdentity where
  ticker : String
  form : String
  year : ℤ
  quarter : Option String
  ticker_matches : tickerMatches ticker = true
  form_matches : formMatches form = true
deriving DecidableEq

/-- The constructor with its `__post_init__`: upper-case, then check; an error is the text of the
`ValueError`. -/
def ReportIdentity.make (ticker form : String) (year : ℤ) (quarter : Option String) :
    Except String ReportIdentity :=
  if tickerOk : tickerMatches (Text.upper ticker) = true then
    if formOk : formMatches (Text.upper form) = true then
      .ok ⟨Text.upper ticker, Text.upper form, year, quarter, tickerOk, formOk⟩
    else .error ("Invalid form: " ++ Text.quoted form)
  else .error ("Invalid ticker: " ++ Text.quoted ticker)

/-- The segments of a logical path; an absent and an empty quarter both add none. -/
def ReportIdentity.pathSegments (identity : ReportIdentity) : List String :=
  [identity.ticker, encodeForm identity.form, toString identity.year] ++
    match identity.quarter with
    | none => []
    | some quarter => if quarter = "" then [] else [quarter]

def ReportIdentity.logicalPath (identity : ReportIdentity) : String :=
  "/" ++ "/".intercalate identity.pathSegments

/-- The `ValueError` of `ReportIdentity.parse`: of the path, of `int`, or of the constructor. -/
inductive InvalidReportPath
  | path (path : String)
  | year (year : String)
  | identity (message : String)
deriving DecidableEq, Repr

/-- What `parse` makes of the segments: the form is decoded, the year is read by `int`. -/
def ReportIdentity.parseSegments (ticker form year : String) (quarter : Option String) :
    Except InvalidReportPath ReportIdentity :=
  match Text.int? year with
  | none => .error (.year year)
  | some year => (ReportIdentity.make ticker (decodeForm form) year quarter).mapError .identity

def ReportIdentity.parse (path : String) : Except InvalidReportPath ReportIdentity :=
  match Text.segments path with
  | [ticker, form, year] => parseSegments ticker form year none
  | [ticker, form, year, quarter] => parseSegments ticker form year (some quarter)
  | _ => .error (.path path)

/-- The concrete SEC filing behind a logical report. -/
structure FilingIdentity where
  cik : String
  accessionNumber : String
  primaryDocument : String
  filingDate : String
  sourceUrl : String
deriving DecidableEq, Repr

end Quartr.Model
