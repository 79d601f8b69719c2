import Quartr.Model.Sample
import Quartr.Soundness.Paths

/-! # Reading a reference back

`ref_for` writes the quarter as it is, and `parse_ref` splits at every slash. The reference of an
artifact leads back to its PDF exactly when the quarter stays within one segment.
-/

namespace Quartr.Soundness

open Quartr.Model

/-! ### Segments -/

theorem segments_join (a b : String) :
    Text.segments (a ++ "/" ++ b) = Text.segments a ++ Text.segments b := by
  have slash : "/".toList = ['/'] := rfl
  unfold Text.segments
  rw [String.toList_append, String.toList_append, slash, List.append_assoc, List.singleton_append,
    List.splitOn_append_cons_self, List.filter_append, List.map_append]

theorem segments_single {s : String} (plain : '/' ∉ s.toList) (nonempty : s.toList ≠ []) :
    Text.segments s = [s] := by
  unfold Text.segments
  rw [List.splitOn_eq_singleton plain]
  simp [nonempty]

theorem matchesToEnd_ne_nil {body : List Char → Bool} {text : List Char} (blank : body [] = false)
    (matched : matchesToEnd body text = true) : text ≠ [] := by
  intro empty
  subst empty
  simp [matchesToEnd, blank] at matched

/-! ### Numbers -/

theorem digitValue?_isDigit {c : Char} (digit : c.isDigit = true) :
    Text.digitValue? c = some (c.toNat - '0'.toNat) := by
  simp only [Char.isDigit, Bool.and_eq_true, decide_eq_true_eq] at digit
  have first : Text.decimalZeros.find? (fun first => first ≤ c.toNat ∧ c.toNat < first + 10) = some 0x30 := by
    refine List.find?_cons_of_pos ?_
    have low : 48 ≤ c.toNat := digit.1
    have high : c.toNat ≤ 57 := digit.2
    exact decide_eq_true ⟨low, by omega⟩
  rw [Text.digitValue?, first]
  rfl

/-- Reading plain digits computes their value. -/
theorem intDigits?_digits (value : ℕ) (afterDigit : Bool) (text : List Char)
    (digits : ∀ c ∈ text, c.isDigit = true) (some' : text ≠ [] ∨ afterDigit = true) :
    Text.intDigits? value afterDigit text = some (Nat.ofDigitChars 10 text value) := by
  induction text generalizing value afterDigit with
  | nil =>
    obtain rfl : afterDigit = true := some'.resolve_left (fun nonempty => nonempty rfl)
    rfl
  | cons c rest ih =>
    have digit := digits c List.mem_cons_self
    have plain : c ≠ '_' := by
      intro same
      subst same
      exact absurd digit (by decide)
    rw [Text.intDigits?, if_neg plain, digitValue?_isDigit digit, Option.bind_some,
      ih _ true (fun c member => digits c (List.mem_cons_of_mem _ member)) (.inr rfl),
      Nat.ofDigitChars_cons, Nat.mul_comm]

theorem stripOf_plain {space : Char → Bool} {text : List Char} (plain : ∀ c ∈ text, space c = false) :
    Text.stripOf space text = text := by
  have kept {text : List Char} (plain : ∀ c ∈ text, space c = false) : text.dropWhile space = text := by
    cases text with
    | nil => rfl
    | cons c rest => exact List.dropWhile_cons_of_neg (by rw [plain c List.mem_cons_self]; decide)
  have backwards : ∀ c ∈ text.reverse, space c = false := by
    intro c member
    exact plain c (List.mem_reverse.mp member)
  rw [Text.stripOf, kept plain, kept backwards, List.reverse_reverse]

theorem strip_plain {text : List Char} (plain : ∀ c ∈ text, Text.isSpace c = false) : Text.strip text = text :=
  stripOf_plain plain

/-- A number is written without whitespace. -/
theorem int_visible (n : ℤ) : ∀ c ∈ (toString n).toList, Text.isSpace c = false := by
  intro c member
  have range := int_chars n c member
  simp only [Bool.or_eq_true, decide_eq_true_eq, Char.isDigit, Bool.and_eq_true] at range
  rcases range with ⟨low, high⟩ | rfl
  · have low : 48 ≤ c.toNat := low
    have high : c.toNat ≤ 57 := high
    simp [Text.isSpace]
    omega
  · decide

theorem filter_digits {text : List Char} (digits : ∀ c ∈ text, c.isDigit = true) :
    text.filter (· ≠ '_') = text := by
  apply List.filter_eq_self.mpr
  intro c member
  apply decide_eq_true
  intro same
  subst same
  exact absurd (digits '_' member) (by decide)

/-- Digits with at most one sign are what `int` reads, up to its limit. -/
theorem int?_digits {s : String} {text : List Char} {negative : Bool}
    (stripped : Text.stripOf Text.isNumberSpace s.toList = if negative then '-' :: text else text)
    (digits : ∀ c ∈ text, c.isDigit = true) (nonempty : text ≠ []) :
    Text.int? s = if text.length ≤ 4300 then
      some (if negative then -Nat.ofDigitChars 10 text 0 else Nat.ofDigitChars 10 text 0 : ℤ)
    else none := by
  have value := intDigits?_digits 0 false text digits (.inl nonempty)
  unfold Text.int?
  rw [stripped]
  cases negative with
  | true =>
    simp only [↓reduceIte, filter_digits digits, value, List.head?_cons]
    split_ifs
    · omega
    · rfl
    · rfl
    · omega
  | false =>
    have unsigned : text.head? ≠ some '-' := by
      intro sign
      exact absurd (digits '-' (List.mem_of_mem_head? sign)) (by decide)
    simp only [Bool.false_eq_true, ↓reduceIte]
    split
    · exact absurd rfl unsigned
    · exact absurd (digits '+' List.mem_cons_self) (by decide)
    · simp only [filter_digits digits, value, unsigned, ↓reduceIte]
      split_ifs
      · omega
      · rfl
      · rfl
      · omega

/-- A written number reads back, unless it has more digits than `int` accepts. -/
theorem int?_toString (n : ℤ) : Text.int? (toString n) =
    if (Nat.toDigits 10 n.natAbs).length ≤ 4300 then some n else none := by
  have digits := toDigits_chars n.natAbs
  have stripped : Text.stripOf Text.isNumberSpace (toString n).toList =
      if decide (n < 0) then '-' :: Nat.toDigits 10 n.natAbs else Nat.toDigits 10 n.natAbs := by
    rw [stripOf_plain fun c member => by rw [Text.isNumberSpace, int_visible n c member, Bool.false_and],
      int_toList]
    simp only [decide_eq_true_eq]
  rw [int?_digits stripped digits Nat.toDigits_ne_nil, Nat.ofDigitChars_ten_toDigits]
  have value : (if decide (n < 0) then -(n.natAbs : ℤ) else n.natAbs) = n := by
    split_ifs with negative
    · rw [decide_eq_true_eq] at negative
      omega
    · rw [decide_eq_true_eq] at negative
      omega
  rw [value]

/-! ### References -/

/-- Upper-casing changes nothing below the lower-case letters. -/
theorem upper_plain {s : String} (plain : ∀ c ∈ s.toList, c.toNat < 97) : Text.upper s = s := by
  have kept : ∀ c : Char, c.toNat < 97 → Text.upperChar c = [c] := by
    intro c small
    have lower : ¬ ('a' ≤ c ∧ c ≤ 'z') := by
      rintro ⟨low, _⟩
      have low : 97 ≤ c.toNat := low
      omega
    unfold Text.upperChar
    rw [if_neg lower]
    split
    all_goals first | omega | rfl
  have same : s.toList.flatMap Text.upperChar = s.toList := by
    refine Eq.trans ?_ (List.flatMap_singleton' s.toList)
    exact List.flatMap_congr fun c member => kept c (plain c member)
  rw [Text.upper, same, String.ofList_toList]

theorem isTickerChar_small {c : Char} (admitted : isTickerChar c = true) : c.toNat < 97 := by
  simp only [isTickerChar, isUpperLetter, Bool.or_eq_true, decide_eq_true_eq] at admitted
  rcases admitted with ((⟨_, high⟩ | rfl) | rfl) | rfl
  · have high : c.toNat ≤ 90 := high
    omega
  all_goals decide

theorem isFormChar_small {c : Char} (admitted : isFormChar c = true) : c.toNat < 97 := by
  simp only [isFormChar, isUpperAlnum, isUpperLetter, Bool.or_eq_true, decide_eq_true_eq] at admitted
  rcases admitted with (((⟨_, high⟩ | ⟨_, high⟩) | rfl) | rfl) | rfl
  · have high : c.toNat ≤ 90 := high
    omega
  · have high : c.toNat ≤ 57 := high
    omega
  all_goals decide

/-- The constructor accepts the ticker and the form of an identity as they are. -/
theorem make_again (identity : ReportIdentity) (year : ℤ) (quarter : Option String) :
    ReportIdentity.make identity.ticker identity.form year quarter =
      .ok { identity with year := year, quarter := quarter } := by
  have ticker : Text.upper identity.ticker = identity.ticker :=
    upper_plain fun c member => isTickerChar_small (identity.ticker_chars c member)
  have form : Text.upper identity.form = identity.form :=
    upper_plain fun c member => isFormChar_small (identity.form_chars c member)
  unfold ReportIdentity.make
  simp only [ticker, form, identity.ticker_matches, identity.form_matches, ↓reduceDIte]

theorem accessionBody_chars (text : List Char) (matched : ArtifactStore.accessionBody text = true) :
    ∀ c ∈ text, decide (c ≠ '/') = true := by
  have digits {part : List Char} (digits : ∀ c ∈ part, (Text.digitValue? c).isSome = true) : '/' ∉ part := by
    intro member
    exact absurd (digits '/' member) (by decide +kernel)
  have whole : ['-'].intercalate (text.splitOn '-') = text := List.intercalate_splitOn '-'
  unfold ArtifactStore.accessionBody at matched
  dsimp only at matched
  split at matched
  · rename_i filer year number parts
    simp only [Bool.and_eq_true, List.all_eq_true] at matched
    rw [parts] at whole
    intro c member
    apply decide_eq_true
    intro same
    subst same
    rw [← whole] at member
    have member : '/' ∈ filer ++ '-' :: (year ++ '-' :: number) := by simpa using member
    simp only [List.mem_append, List.mem_cons, digits matched.1.1.2, digits matched.1.2.2,
      digits matched.2.2, or_false, false_or] at member
    rcases member with dash | dash
    all_goals cases dash
  · cases matched

theorem accession_slash {accession : String} (wellFormed : ArtifactStore.accessionMatches accession = true) :
    '/' ∉ accession.toList := by
  intro member
  have plain := matchesToEnd_chars accessionBody_chars (by decide) wellFormed '/' member
  exact absurd rfl (of_decide_eq_true plain)

theorem segments_intercalate (parts : List String) :
    Text.segments ("/".intercalate parts) = parts.flatMap Text.segments := by
  induction parts with
  | nil => rfl
  | cons part rest ih =>
    cases rest with
    | nil => rw [String.intercalate_singleton, List.flatMap_singleton]
    | cons next rest =>
      rw [String.intercalate_cons_cons, segments_join, ih]
      exact List.flatMap_cons.symm

/-- What lies between the slashes of a logical path. -/
theorem pathSegments_segments (identity : ReportIdentity) :
    identity.pathSegments.flatMap Text.segments =
      identity.ticker :: encodeForm identity.form :: toString identity.year ::
        Text.segments (identity.quarter.getD "") := by
  have ticker := segments_single identity.ticker_slash (matchesToEnd_ne_nil rfl identity.ticker_matches)
  have encoded : (encodeForm identity.form).toList ≠ [] := by
    rw [encodeForm, String.toList_ofList, ne_eq, List.map_eq_nil_iff]
    exact matchesToEnd_ne_nil rfl identity.form_matches
  have form := segments_single (encodeForm_slash identity.form) encoded
  have year : Text.segments (toString identity.year) = [toString identity.year] := by
    apply segments_single
    · intro member
      exact absurd (int_chars _ '/' member) (by decide)
    · rw [int_toList]
      split_ifs
      · exact List.cons_ne_nil _ _
      · exact Nat.toDigits_ne_nil
  have blank : Text.segments "" = [] := rfl
  unfold ReportIdentity.pathSegments
  rw [List.flatMap_append]
  simp only [List.flatMap_cons, List.flatMap_nil, ticker, form, year, List.append_nil, List.cons_append,
    List.nil_append]
  cases identity.quarter with
  | none => rw [Option.getD_none, blank, List.flatMap_nil]
  | some quarter =>
    dsimp only
    split_ifs with empty
    · rw [Option.getD_some, empty, blank, List.flatMap_nil]
    · rw [Option.getD_some, List.flatMap_singleton]

/-- What `parse_ref` finds between the slashes of a reference. -/
theorem refFor_segments (identity : ReportIdentity) {accession : String}
    (wellFormed : ArtifactStore.accessionMatches accession = true) :
    Text.segments (ArtifactStore.refFor identity accession) =
      identity.ticker :: encodeForm identity.form :: toString identity.year ::
        (Text.segments (identity.quarter.getD "") ++ [accession]) := by
  have last := segments_single (accession_slash wellFormed) (matchesToEnd_ne_nil (by decide) wellFormed)
  rw [ArtifactStore.refFor, segments_intercalate, List.flatMap_append, pathSegments_segments,
    List.flatMap_singleton, last]
  rfl

/-- What reading the logical segments of a reference back yields. -/
theorem parseLogical_eq (ref : String) (identity : ReportIdentity) (quarter : Option String) :
    ArtifactStore.parseLogical ref identity.ticker (encodeForm identity.form) (toString identity.year) quarter =
      if (Nat.toDigits 10 identity.year.natAbs).length ≤ 4300 then
        .ok { identity with quarter := quarter }
      else .error (.ref ref) := by
  unfold ArtifactStore.parseLogical
  rw [int?_toString, identity.form_decoded]
  split_ifs
  · dsimp only
    rw [make_again]
    rfl
  · rfl

/-- The quarter stays within one segment of a path, and `int` reads the year. -/
structure Referable (identity : ReportIdentity) : Prop where
  quarter : (Text.segments (identity.quarter.getD "")).length ≤ 1
  year : (Nat.toDigits 10 identity.year.natAbs).length ≤ 4300

/-- The reference of an artifact leads back to the PDF the worker wrote exactly when its quarter
stays within one segment. -/
theorem reference_resolves (settings : Settings) (identity : ReportIdentity) (accession ext : String)
    (wellFormed : ArtifactStore.accessionMatches accession = true) :
    ArtifactStore.resolvePdfPath settings (ArtifactStore.refFor identity accession) =
        .ok (ArtifactStore.pathsFor settings identity accession ext).pdfPath ↔ Referable identity := by
  have segments := refFor_segments identity wellFormed
  unfold ArtifactStore.resolvePdfPath ArtifactStore.parseRef
  rw [segments]
  -- The quarter is told from the accession number by the number of segments alone.
  cases parts : Text.segments (identity.quarter.getD "") with
  | nil =>
    simp only [List.nil_append, wellFormed, ↓reduceIte, parseLogical_eq]
    split_ifs with year
    · exact ⟨fun _ => ⟨by simp [parts], year⟩, fun _ => rfl⟩
    · constructor
      · intro resolves
        cases resolves
      · intro referable
        exact absurd referable.year year
  | cons quarter more =>
    cases more with
    | nil =>
      simp only [List.cons_append, List.nil_append, wellFormed, ↓reduceIte, parseLogical_eq]
      split_ifs with year
      · exact ⟨fun _ => ⟨by simp [parts], year⟩, fun _ => rfl⟩
      · constructor
        · intro resolves
          cases resolves
        · intro referable
          exact absurd referable.year year
    | cons second more =>
      constructor
      · intro resolves
        obtain ⟨third, tail, rest⟩ := List.exists_cons_of_ne_nil (List.append_ne_nil_of_right_ne_nil more
          (List.cons_ne_nil accession []))
        rw [List.cons_append, List.cons_append, rest] at resolves
        cases resolves
      · intro referable
        have short := referable.quarter
        rw [parts] at short
        simp at short

theorem reference_resolves_annual :
    ArtifactStore.resolvePdfPath (Sample.settings 2)
        (ArtifactStore.refFor (Sample.identity 2024) "0000320193-24-000123") =
      .ok (ArtifactStore.pathsFor (Sample.settings 2) (Sample.identity 2024) "0000320193-24-000123"
        ".htm").pdfPath :=
  (reference_resolves (Sample.settings 2) (Sample.identity 2024) "0000320193-24-000123" ".htm"
    (by decide +kernel)).mpr ⟨by decide +kernel, by decide +kernel⟩

/-- The API accepts a quarter with a slash, and the reference it hands out is refused. -/
theorem reference_refused : ∃ identity : ReportIdentity,
    Routes.requestedIdentity Sample.cikMapping ⟨"AAPL", "10-K", some 2024, some "Q1/Q2", false⟩ = .ok identity ∧
    ArtifactStore.accessionMatches "0000320193-24-000123" = true ∧
    ArtifactStore.resolvePdfPath (Sample.settings 2)
      (ArtifactStore.refFor identity "0000320193-24-000123") ≠
        .ok (ArtifactStore.pathsFor (Sample.settings 2) identity "0000320193-24-000123" ".htm").pdfPath := by
  refine ⟨{ Sample.identity 2024 with quarter := some "Q1/Q2" }, Sample.ok_of_toOption (by decide +kernel),
    by decide +kernel, ?_⟩
  have refused : ArtifactStore.resolvePdfPath (Sample.settings 2) "AAPL/10-K/2024/Q1/Q2/0000320193-24-000123" =
      .error (.ref "AAPL/10-K/2024/Q1/Q2/0000320193-24-000123") := rfl
  intro resolved
  cases refused.symm.trans resolved

end Quartr.Soundness
