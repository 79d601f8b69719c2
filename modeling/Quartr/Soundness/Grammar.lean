import Quartr.Soundness.Confinement

/-! # What the validators accept

The grammars of a ticker, a form and an accession number, as sets of texts, and what the patterns of the
code make of them: `$` lets a newline end the text, and `\d` is a decimal digit of any script.
-/

namespace Quartr.Soundness

open Quartr.Model

/-! ### Grammars -/

def UpperLetter (c : Char) : Prop := 'A' ≤ c ∧ c ≤ 'Z'

def AsciiDigit (c : Char) : Prop := '0' ≤ c ∧ c ≤ '9'

/-- One letter, then at most nine letters, dots and dashes. -/
def TickerGrammar (text : List Char) : Prop :=
  ∃ first rest, text = first :: rest ∧ UpperLetter first ∧ rest.length ≤ 9 ∧
    ∀ c ∈ rest, UpperLetter c ∨ c = '.' ∨ c = '-'

/-- A run of letters and digits. -/
structure Run (text : List Char) : Prop where
  nonempty : text ≠ []
  chars : ∀ c ∈ text, UpperLetter c ∨ AsciiDigit c

/-- A run, optionally a dash and another run, optionally `/A`. -/
def FormGrammar (text : List Char) : Prop :=
  ∃ run dashed amended, text = run ++ dashed ++ amended ∧ Run run ∧
    (dashed = [] ∨ ∃ second, dashed = '-' :: second ∧ Run second) ∧ (amended = [] ∨ amended = ['/', 'A'])

/-- Ten digits, two digits and one or more digits, between dashes. -/
def AccessionGrammar (digit : Char → Prop) (text : List Char) : Prop :=
  ∃ filer year number, text = filer ++ '-' :: (year ++ '-' :: number) ∧ filer.length = 10 ∧ year.length = 2 ∧
    number ≠ [] ∧ ∀ c ∈ filer ++ year ++ number, digit c

/-- A decimal digit of any script. -/
def DecimalDigit (c : Char) : Prop := (Text.digitValue? c).isSome = true

/-- A text of the grammar, with a newline at its end. -/
def NewlineEnded (grammar : List Char → Prop) (text : List Char) : Prop :=
  ∃ front, text = front ++ ['\n'] ∧ grammar front

/-- A character of the Unicode category of controls. -/
def Control (c : Char) : Prop := c.toNat < 32 ∨ 127 ≤ c.toNat ∧ c.toNat < 160

/-- Neither whitespace nor a control character. -/
def Printable (text : List Char) : Prop := ∀ c ∈ text, Text.isSpace c = false ∧ ¬ Control c

/-! ### The patterns decide the grammars, but for the newline -/

theorem isUpperLetter_iff {c : Char} : isUpperLetter c = true ↔ UpperLetter c := decide_eq_true_iff

theorem isUpperAlnum_iff {c : Char} : isUpperAlnum c = true ↔ UpperLetter c ∨ AsciiDigit c := by
  rw [isUpperAlnum, Bool.or_eq_true, isUpperLetter_iff, decide_eq_true_iff]
  exact Iff.rfl

theorem matchesToEnd_iff {body : List Char → Bool} {grammar : List Char → Prop}
    (decides : ∀ text, body text = true ↔ grammar text) (text : List Char) :
    matchesToEnd body text = true ↔ grammar text ∨ NewlineEnded grammar text := by
  rw [matchesToEnd, Bool.or_eq_true, Bool.and_eq_true, decides, decides, decide_eq_true_iff]
  refine or_congr_right ⟨?_, ?_⟩
  · rintro ⟨ends, front⟩
    obtain ⟨front', same⟩ := List.getLast?_eq_some_iff.mp ends
    rw [same, List.dropLast_concat] at front
    exact ⟨front', same, front⟩
  · rintro ⟨front, rfl, matched⟩
    exact ⟨List.getLast?_concat, by rwa [List.dropLast_concat]⟩

theorem tickerBody_iff (text : List Char) : tickerBody text = true ↔ TickerGrammar text := by
  cases text with
  | nil =>
    constructor
    · rintro ⟨⟩
    · rintro ⟨first, rest, ⟨⟩, _⟩
  | cons first rest =>
    simp only [tickerBody, Bool.and_eq_true, decide_eq_true_eq, List.all_eq_true, Bool.or_eq_true,
      isUpperLetter_iff, or_assoc]
    constructor
    · rintro ⟨⟨letter, short⟩, chars⟩
      exact ⟨first, rest, rfl, letter, short, chars⟩
    · rintro ⟨first, rest, ⟨⟩, letter, short, chars⟩
      exact ⟨⟨letter, short⟩, chars⟩

/-- A run is read up to the first character that is no letter or digit. -/
theorem run_split {run rest : List Char} (is_run : Run run) (ends : ∀ c ∈ rest.head?, isUpperAlnum c = false) :
    (run ++ rest).takeWhile isUpperAlnum = run ∧ (run ++ rest).dropWhile isUpperAlnum = rest := by
  have inside : ∀ c ∈ run, isUpperAlnum c = true := fun c member => isUpperAlnum_iff.mpr (is_run.chars c member)
  have stops : rest.takeWhile isUpperAlnum = [] ∧ rest.dropWhile isUpperAlnum = rest := by
    cases rest with
    | nil => exact ⟨rfl, rfl⟩
    | cons c rest =>
      have stop : ¬ isUpperAlnum c = true := by
        rw [ends c rfl]
        decide
      exact ⟨List.takeWhile_cons_of_neg stop, List.dropWhile_cons_of_neg stop⟩
  rw [List.takeWhile_append_of_pos inside, List.dropWhile_append_of_pos inside, stops.1, stops.2,
    List.append_nil]
  exact ⟨rfl, rfl⟩

theorem run_takeWhile {text : List Char} (nonempty : text.takeWhile isUpperAlnum ≠ []) :
    Run (text.takeWhile isUpperAlnum) :=
  ⟨nonempty, fun c member => isUpperAlnum_iff.mp (List.all_eq_true.mp List.all_takeWhile c member)⟩

theorem formBody_iff (text : List Char) : formBody text = true ↔ FormGrammar text := by
  simp only [formBody, Bool.and_eq_true, Bool.or_eq_true, decide_eq_true_eq]
  constructor
  · rintro ⟨nonempty, amended | dashed⟩
    · refine ⟨text.takeWhile isUpperAlnum, [], text.dropWhile isUpperAlnum, ?_, run_takeWhile nonempty,
        .inl rfl, amended⟩
      rw [List.append_nil, List.takeWhile_append_dropWhile]
    · cases rest : text.dropWhile isUpperAlnum with
      | nil =>
        rw [rest] at dashed
        cases dashed
      | cons c tail =>
        rw [rest] at dashed
        split at dashed
        · rename_i tail' same
          cases same
          simp only [Bool.and_eq_true, Bool.or_eq_true, decide_eq_true_eq] at dashed
          refine ⟨text.takeWhile isUpperAlnum, '-' :: tail.takeWhile isUpperAlnum, tail.dropWhile isUpperAlnum,
            ?_, run_takeWhile nonempty, .inr ⟨_, rfl, run_takeWhile dashed.1⟩, dashed.2⟩
          rw [List.append_assoc, List.cons_append, List.takeWhile_append_dropWhile, ← rest,
            List.takeWhile_append_dropWhile]
        · cases dashed
  · rintro ⟨run, dashed, amended, rfl, first, dash, last⟩
    have plain : ∀ c ∈ amended.head?, isUpperAlnum c = false := by
      rcases last with rfl | rfl
      · rintro c ⟨⟩
      · rintro c ⟨⟩
        decide
    rw [List.append_assoc]
    rcases dash with rfl | ⟨second, rfl, again⟩
    · obtain ⟨taken, dropped⟩ := run_split first plain
      rw [List.nil_append, taken, dropped]
      exact ⟨first.nonempty, .inl last⟩
    · obtain ⟨taken, dropped⟩ := @run_split run ('-' :: (second ++ amended)) first (by
        rintro c ⟨⟩
        decide)
      obtain ⟨taken', dropped'⟩ := run_split again plain
      rw [List.cons_append, taken, dropped]
      simp only [taken', dropped', Bool.and_eq_true, Bool.or_eq_true, decide_eq_true_eq]
      exact ⟨first.nonempty, .inr ⟨again.nonempty, last⟩⟩

/-- Digits are told from the dashes between them. -/
theorem accessionBody_iff (text : List Char) :
    ArtifactStore.accessionBody text = true ↔ AccessionGrammar DecimalDigit text := by
  have undashed {part : List Char} (digits : ∀ c ∈ part, DecimalDigit c) : '-' ∉ part := by
    intro member
    exact absurd (digits '-' member) (by unfold DecimalDigit; decide +kernel)
  unfold ArtifactStore.accessionBody
  dsimp only
  constructor
  · intro matched
    split at matched
    · rename_i filer year number parts
      have whole : ['-'].intercalate (text.splitOn '-') = text := List.intercalate_splitOn '-'
      simp only [Bool.and_eq_true, decide_eq_true_eq, List.all_eq_true] at matched
      refine ⟨filer, year, number, ?_, matched.1.1.1, matched.1.2.1, matched.2.1, ?_⟩
      · rw [← whole, parts]
        simp
      · simp only [List.mem_append]
        rintro c ((member | member) | member)
        · exact matched.1.1.2 c member
        · exact matched.1.2.2 c member
        · exact matched.2.2 c member
    · cases matched
  · rintro ⟨filer, year, number, rfl, ten, two, nonempty, digits⟩
    simp only [List.mem_append, or_imp, forall_and] at digits
    rw [List.splitOn_append_cons_self, List.splitOn_append_cons_self,
      List.splitOn_eq_singleton (undashed digits.1.1), List.splitOn_eq_singleton (undashed digits.1.2),
      List.splitOn_eq_singleton (undashed digits.2)]
    simp only [List.singleton_append, Bool.and_eq_true, decide_eq_true_eq, List.all_eq_true]
    exact ⟨⟨⟨ten, digits.1.1⟩, two, digits.1.2⟩, nonempty, digits.2⟩

/-! ### Visible characters -/

theorem printable_of_visible {text : List Char} (visible : ∀ c ∈ text, 33 ≤ c.toNat ∧ c.toNat < 127) :
    Printable text := by
  intro c member
  obtain ⟨low, high⟩ := visible c member
  refine ⟨?_, ?_⟩
  · simp [Text.isSpace]
    omega
  · unfold Control
    omega

theorem UpperLetter.visible {c : Char} (letter : UpperLetter c) : 33 ≤ c.toNat ∧ c.toNat < 127 := by
  have low : 65 ≤ c.toNat := letter.1
  have high : c.toNat ≤ 90 := letter.2
  omega

theorem AsciiDigit.visible {c : Char} (digit : AsciiDigit c) : 33 ≤ c.toNat ∧ c.toNat < 127 := by
  have low : 48 ≤ c.toNat := digit.1
  have high : c.toNat ≤ 57 := digit.2
  omega

theorem TickerGrammar.printable {text : List Char} (ticker : TickerGrammar text) : Printable text := by
  obtain ⟨first, rest, rfl, letter, _, chars⟩ := ticker
  apply printable_of_visible
  intro c member
  rcases List.mem_cons.mp member with rfl | member
  · exact letter.visible
  · rcases chars c member with letter | rfl | rfl
    · exact letter.visible
    · decide
    · decide

theorem Run.visible {text : List Char} (run : Run text) : ∀ c ∈ text, 33 ≤ c.toNat ∧ c.toNat < 127 := by
  intro c member
  rcases run.chars c member with letter | digit
  · exact letter.visible
  · exact digit.visible

theorem FormGrammar.printable {text : List Char} (form : FormGrammar text) : Printable text := by
  obtain ⟨run, dashed, amended, rfl, first, dash, last⟩ := form
  apply printable_of_visible
  simp only [List.mem_append]
  rintro c ((member | member) | member)
  · exact first.visible c member
  · rcases dash with rfl | ⟨second, rfl, again⟩
    · cases member
    · rcases List.mem_cons.mp member with rfl | member
      · decide
      · exact again.visible c member
  · rcases last with rfl | rfl
    · cases member
    · rcases List.mem_cons.mp member with rfl | member
      · decide
      · cases List.mem_singleton.mp member
        decide

theorem AccessionGrammar.printable {text : List Char} (accession : AccessionGrammar AsciiDigit text) :
    Printable text := by
  obtain ⟨filer, year, number, rfl, _, _, _, digits⟩ := accession
  simp only [List.mem_append, or_imp, forall_and] at digits
  apply printable_of_visible
  simp only [List.mem_append, List.mem_cons]
  rintro c (member | rfl | member | rfl | member)
  · exact (digits.1.1 c member).visible
  · decide
  · exact (digits.1.2 c member).visible
  · decide
  · exact (digits.2 c member).visible

theorem NewlineEnded.not_printable {grammar : List Char → Prop} {text : List Char}
    (ended : NewlineEnded grammar text) : ¬ Printable text := by
  obtain ⟨front, rfl, _⟩ := ended
  intro printable
  have newline := (printable '\n' (List.mem_append_right _ List.mem_cons_self)).1
  exact absurd newline (by decide)

/-! ### Accession numbers in ASCII -/

theorem DecimalDigit.ascii {c : Char} (digit : DecimalDigit c) (small : c.toNat < 128) : AsciiDigit c := by
  obtain ⟨value, read⟩ := Option.isSome_iff_exists.mp digit
  obtain ⟨first, found, _⟩ := Option.map_eq_some_iff.mp read
  have range := List.find?_some found
  rw [decide_eq_true_eq] at range
  have least : ∀ first ∈ Text.decimalZeros, first < 128 → first = 48 := by decide
  obtain rfl := least first (List.mem_of_find?_eq_some found) (by omega)
  have high : c.toNat ≤ 57 := by omega
  exact ⟨range.1, high⟩

theorem AsciiDigit.decimal {c : Char} (digit : AsciiDigit c) : DecimalDigit c := by
  have ascii : c.isDigit = true := by
    simp only [Char.isDigit, Bool.and_eq_true, decide_eq_true_eq]
    exact digit
  rw [DecimalDigit, digitValue?_isDigit ascii]
  rfl

theorem accession_ascii_iff {text : List Char} : AccessionGrammar AsciiDigit text ↔
    AccessionGrammar DecimalDigit text ∧ ∀ c ∈ text, c.toNat < 128 := by
  constructor
  · rintro ⟨filer, year, number, rfl, ten, two, nonempty, digits⟩
    refine ⟨⟨filer, year, number, rfl, ten, two, nonempty, fun c member => (digits c member).decimal⟩, ?_⟩
    simp only [List.mem_append, or_imp, forall_and] at digits
    simp only [List.mem_append, List.mem_cons]
    rintro c (member | rfl | member | rfl | member)
    · exact Nat.lt_succ_of_lt (digits.1.1 c member).visible.2
    · decide
    · exact Nat.lt_succ_of_lt (digits.1.2 c member).visible.2
    · decide
    · exact Nat.lt_succ_of_lt (digits.2 c member).visible.2
  · rintro ⟨⟨filer, year, number, rfl, ten, two, nonempty, digits⟩, small⟩
    refine ⟨filer, year, number, rfl, ten, two, nonempty, fun c member => (digits c member).ascii (small c ?_)⟩
    simp only [List.mem_append, List.mem_cons] at member ⊢
    rcases member with (member | member) | member <;> simp [member]

/-! ### What is accepted -/

/-- The constructor accepts the pair exactly when both texts, upper-cased, are of their grammar, and what
it accepts is printable. -/
def ExactIdentity (ticker form : String) (year : ℤ) (quarter : Option String) : Prop :=
  ((∃ identity, ReportIdentity.make ticker form year quarter = .ok identity) ↔
    TickerGrammar (Text.upper ticker).toList ∧ FormGrammar (Text.upper form).toList) ∧
  ∀ identity, ReportIdentity.make ticker form year quarter = .ok identity →
    Printable identity.ticker.toList ∧ Printable identity.form.toList

/-- Both texts, upper-cased, are of their grammar but for a newline at the end, and there is one. -/
def IdentitySlips (ticker form : String) : Prop :=
  let ticker := (Text.upper ticker).toList
  let form := (Text.upper form).toList
  NewlineEnded TickerGrammar ticker ∧ (FormGrammar form ∨ NewlineEnded FormGrammar form) ∨
    TickerGrammar ticker ∧ NewlineEnded FormGrammar form

theorem make_accepts (ticker form : String) (year : ℤ) (quarter : Option String) :
    (∃ identity, ReportIdentity.make ticker form year quarter = .ok identity) ↔
      tickerMatches (Text.upper ticker) = true ∧ formMatches (Text.upper form) = true := by
  unfold ReportIdentity.make
  split_ifs with ticked formed
  · exact ⟨fun _ => ⟨ticked, formed⟩, fun _ => ⟨_, rfl⟩⟩
  · exact ⟨by rintro ⟨_, ⟨⟩⟩, fun both => absurd both.2 formed⟩
  · exact ⟨by rintro ⟨_, ⟨⟩⟩, fun both => absurd both.1 ticked⟩

theorem exactIdentity_iff (ticker form : String) (year : ℤ) (quarter : Option String) :
    ExactIdentity ticker form year quarter ↔ ¬ IdentitySlips ticker form := by
  have accepted := make_accepts ticker form year quarter
  rw [tickerMatches, formMatches, matchesToEnd_iff tickerBody_iff, matchesToEnd_iff formBody_iff] at accepted
  unfold IdentitySlips
  constructor
  · rintro ⟨exact_, _⟩ (⟨ticked, formed⟩ | ⟨ticked, formed⟩)
    · have grammars := exact_.mp (accepted.mpr ⟨.inr ticked, formed⟩)
      exact ticked.not_printable grammars.1.printable
    · have grammars := exact_.mp (accepted.mpr ⟨.inl ticked, .inr formed⟩)
      exact formed.not_printable grammars.2.printable
  · intro fits
    have grammars : (∃ identity, ReportIdentity.make ticker form year quarter = .ok identity) →
        TickerGrammar (Text.upper ticker).toList ∧ FormGrammar (Text.upper form).toList := by
      intro made
      obtain ⟨ticked | ticked, formed | formed⟩ := accepted.mp made
      · exact ⟨ticked, formed⟩
      · exact absurd (.inr ⟨ticked, formed⟩) fits
      · exact absurd (.inl ⟨ticked, .inl formed⟩) fits
      · exact absurd (.inl ⟨ticked, .inr formed⟩) fits
    refine ⟨⟨grammars, fun both => accepted.mpr ⟨.inl both.1, .inl both.2⟩⟩, fun identity made => ?_⟩
    have both := grammars ⟨identity, made⟩
    unfold ReportIdentity.make at made
    split_ifs at made
    cases made
    exact ⟨both.1.printable, both.2.printable⟩

/-- `parse_ref` accepts the last segment exactly when it is of its grammar, and then it is printable. -/
def ExactAccession (ref accession : String) : Prop :=
  (ArtifactStore.parseRef ref ≠ .error (.accession ref) ↔ AccessionGrammar AsciiDigit accession.toList) ∧
  (ArtifactStore.parseRef ref ≠ .error (.accession ref) → Printable accession.toList)

/-- An accession number in digits of any script, with a newline at its end or a digit outside ASCII. -/
def AccessionSlips (accession : String) : Prop :=
  NewlineEnded (AccessionGrammar DecimalDigit) accession.toList ∨
    AccessionGrammar DecimalDigit accession.toList ∧ ¬ ∀ c ∈ accession.toList, c.toNat < 128

theorem parseRef_accepts {ref accession : String} {logical : List String}
    (parts : Text.segments ref = logical ++ [accession]) (count : logical.length = 3 ∨ logical.length = 4) :
    ArtifactStore.parseRef ref ≠ .error (.accession ref) ↔ ArtifactStore.accessionMatches accession = true := by
  have accepts (ticker form year : String) (quarter : Option String) :
      (if ArtifactStore.accessionMatches accession then
        (ArtifactStore.parseLogical ref ticker form year quarter).map fun identity => (identity, accession)
      else .error (.accession ref)) ≠ .error (.accession ref) ↔
        ArtifactStore.accessionMatches accession = true := by
    split_ifs with matched
    · refine ⟨fun _ => matched, fun _ => ?_⟩
      unfold ArtifactStore.parseLogical
      split
      · rintro ⟨⟩
      · cases ReportIdentity.make ticker (decodeForm form) _ quarter with
        | error message => rintro ⟨⟩
        | ok identity => rintro ⟨⟩
    · exact ⟨fun differs => absurd rfl differs, fun matches_ => absurd matches_ matched⟩
  unfold ArtifactStore.parseRef
  rw [parts]
  rcases count with three | four
  · obtain ⟨ticker, form, year, rfl⟩ := List.length_eq_three.mp three
    exact accepts ticker form year none
  · match logical, four with
    | [ticker, form, year, quarter], _ => exact accepts ticker form year (some quarter)

theorem exactAccession_iff {ref accession : String} {logical : List String}
    (parts : Text.segments ref = logical ++ [accession]) (count : logical.length = 3 ∨ logical.length = 4) :
    ExactAccession ref accession ↔ ¬ AccessionSlips accession := by
  have accepted := parseRef_accepts parts count
  rw [ArtifactStore.accessionMatches, matchesToEnd_iff accessionBody_iff] at accepted
  unfold ExactAccession AccessionSlips
  rw [accepted]
  constructor
  · rintro ⟨exact_, _⟩ (ended | ⟨decimal, foreign⟩)
    · exact ended.not_printable (exact_.mp (.inr ended)).printable
    · exact foreign (accession_ascii_iff.mp (exact_.mp (.inl decimal))).2
  · intro fits
    have grammar : AccessionGrammar DecimalDigit accession.toList ∨
        NewlineEnded (AccessionGrammar DecimalDigit) accession.toList →
        AccessionGrammar AsciiDigit accession.toList := by
      rintro (decimal | ended)
      · refine accession_ascii_iff.mpr ⟨decimal, ?_⟩
        by_contra foreign
        exact fits (.inr ⟨decimal, foreign⟩)
      · exact absurd (.inl ended) fits
    exact ⟨⟨grammar, fun ascii => .inl (accession_ascii_iff.mp ascii).1⟩, fun either => (grammar either).printable⟩

/-- The validators accept exactly their grammars, up to a newline at the end of a text and the digits of
other scripts. -/
theorem validators_exact (ticker form : String) (year : ℤ) (quarter : Option String) (ref accession : String)
    (logical : List String) (parts : Text.segments ref = logical ++ [accession])
    (count : logical.length = 3 ∨ logical.length = 4) :
    (ExactIdentity ticker form year quarter ↔ ¬ IdentitySlips ticker form) ∧
      (ExactAccession ref accession ↔ ¬ AccessionSlips accession) :=
  ⟨exactIdentity_iff ticker form year quarter, exactAccession_iff parts count⟩

/-- A reference with a quarter. -/
theorem validators_exact_quarterly :
    (ExactIdentity "aapl" "10-K/A" 2024 none ↔ ¬ IdentitySlips "aapl" "10-K/A") ∧
    (ExactAccession "AAPL/10-K/2024/Q1/0000320193-24-000123" "0000320193-24-000123" ↔
      ¬ AccessionSlips "0000320193-24-000123") :=
  validators_exact "aapl" "10-K/A" 2024 none _ _ ["AAPL", "10-K", "2024", "Q1"] (by decide) (.inr rfl)

/-- A ticker and an accession number with a newline at the end, and an accession number in Arabic digits. -/
theorem newline_accepted : ¬ ExactIdentity "AAPL\n" "10-K" 2024 none ∧
    ¬ ExactAccession "AAPL/10-K/2024/0000320193-24-000123\n" "0000320193-24-000123\n" ∧
    ¬ ExactAccession "AAPL/10-K/2024/٠٠٠٠٣٢٠١٩٣-24-000123" "٠٠٠٠٣٢٠١٩٣-24-000123" := by
  have ticker : TickerGrammar "AAPL".toList := (tickerBody_iff _).mp (by decide)
  have form : FormGrammar "10-K".toList := (formBody_iff _).mp (by decide)
  have accession : AccessionGrammar DecimalDigit "0000320193-24-000123".toList :=
    (accessionBody_iff _).mp (by decide +kernel)
  have arabic : AccessionGrammar DecimalDigit "٠٠٠٠٣٢٠١٩٣-24-000123".toList :=
    (accessionBody_iff _).mp (by decide +kernel)
  refine ⟨?_, ?_, ?_⟩
  · rw [exactIdentity_iff, not_not]
    exact .inl ⟨⟨_, by decide, ticker⟩, .inl form⟩
  · rw [@exactAccession_iff _ _ ["AAPL", "10-K", "2024"] (by decide) (.inl rfl), not_not]
    exact .inl ⟨_, by decide, accession⟩
  · rw [@exactAccession_iff _ _ ["AAPL", "10-K", "2024"] (by decide) (.inl rfl), not_not]
    exact .inr ⟨arabic, fun ascii => absurd (ascii '٠' (List.mem_of_mem_head? rfl)) (by decide)⟩

end Quartr.Soundness
