import Quartr.Soundness.Refs

/-! # Where a reference leads

Whatever text is asked for, a reference that `parse_ref` accepts leads to a path below the storage
root whose components the parsed identity and accession number determine, and are determined by.
-/

namespace Quartr.Soundness

open Quartr.Model

/-! ### Joining components -/

/-- A file name: not empty, not a dot or two, and without a slash. -/
structure PlainName (name : String) : Prop where
  nonempty : name ≠ ""
  self : name ≠ "."
  parent : name ≠ ".."
  slash : '/' ∉ name.toList

/-- The path is the root joined with these components, each a plain name, and so lies below it. -/
structure Enclosed (root : String) (components : List String) (path : String) : Prop where
  joined : path = components.foldl Text.joinPath root
  plain : ∀ component ∈ components, PlainName component
  below : Text.segments path = Text.segments root ++ components

theorem plainName_of_head {name : String} {c : Char} {rest : List Char} (chars : name.toList = c :: rest)
    (undotted : c ≠ '.') (slash : '/' ∉ name.toList) : PlainName name := by
  refine ⟨?_, ?_, ?_, slash⟩
  all_goals
    rintro rfl
    cases chars
  all_goals exact undotted rfl

theorem PlainName.toList_ne_nil {name : String} (plain : PlainName name) : name.toList ≠ [] := by
  intro empty
  exact plain.nonempty (String.toList_inj.mp empty)

/-- Joining one plain name adds one segment. -/
theorem segments_joinPath (root : String) {name : String} (plain : PlainName name) :
    Text.segments (Text.joinPath root name) = Text.segments root ++ [name] := by
  have single := segments_single plain.slash plain.toList_ne_nil
  have relative : name.toList.head? ≠ some '/' := by
    intro absolute
    exact plain.slash (List.mem_of_mem_head? absolute)
  unfold Text.joinPath
  rw [if_neg relative]
  split_ifs with ends
  · rcases ends with empty | slashed
    · obtain rfl : root = "" := String.toList_inj.mp empty
      rw [String.empty_append, single]
      rfl
    · obtain ⟨front, chars⟩ := List.getLast?_eq_some_iff.mp slashed
      have split : root ++ name = String.ofList front ++ "/" ++ name := by
        rw [← String.toList_inj]
        simp [chars]
      have bare : Text.segments root = Text.segments (String.ofList front) := by
        have split : root = String.ofList front ++ "/" ++ "" := by
          rw [← String.toList_inj]
          simp [chars]
        rw [split, segments_join]
        exact List.append_nil _
      rw [split, segments_join, single, bare]
  · rw [segments_join, single]

theorem segments_components (root : String) {components : List String}
    (plain : ∀ component ∈ components, PlainName component) :
    Text.segments (components.foldl Text.joinPath root) = Text.segments root ++ components := by
  induction components generalizing root with
  | nil => simp
  | cons component rest ih =>
    rw [List.foldl_cons, ih _ fun other member => plain other (List.mem_cons_of_mem _ member),
      segments_joinPath root (plain component (List.mem_cons_self ..)), List.append_assoc,
      List.singleton_append]

/-! ### The components of an artifact's path -/

/-- What lies between the root and the PDF of an accession. -/
def artifactComponents (identity : ReportIdentity) (accessionNumber : String) : List String :=
  [identity.ticker, encodeForm identity.form, toString identity.year, "accession-" ++ accessionNumber,
    "report.pdf"]

/-- What a pattern asks of the first character of a text. -/
theorem matchesToEnd_head {body : List Char → Bool} {test : Char → Bool} {text : List Char}
    (starts : ∀ text, body text = true → ∃ c rest, text = c :: rest ∧ test c = true)
    (matched : matchesToEnd body text = true) : ∃ c rest, text = c :: rest ∧ test c = true := by
  simp only [matchesToEnd, Bool.or_eq_true, Bool.and_eq_true, decide_eq_true_eq] at matched
  rcases matched with whole | ⟨_, front⟩
  · exact starts text whole
  · obtain ⟨c, rest, same, passes⟩ := starts _ front
    cases text with
    | nil => cases same
    | cons head tail =>
      cases tail with
      | nil => cases same
      | cons second tail =>
        obtain ⟨rfl, _⟩ := List.cons.inj same
        exact ⟨head, second :: tail, rfl, passes⟩

theorem ticker_plain (identity : ReportIdentity) : PlainName identity.ticker := by
  obtain ⟨c, rest, chars, upper⟩ := @matchesToEnd_head tickerBody isUpperLetter _ (by
    intro text matched
    cases text with
    | nil => cases matched
    | cons c rest =>
      simp only [tickerBody, Bool.and_eq_true] at matched
      exact ⟨c, rest, rfl, matched.1.1⟩) identity.ticker_matches
  apply plainName_of_head chars _ identity.ticker_slash
  rintro rfl
  cases upper

theorem form_plain (identity : ReportIdentity) : PlainName (encodeForm identity.form) := by
  obtain ⟨c, rest, chars, alnum⟩ := @matchesToEnd_head formBody isUpperAlnum _ (by
    intro text matched
    simp only [formBody, Bool.and_eq_true, decide_eq_true_eq] at matched
    cases text with
    | nil => exact absurd rfl matched.1
    | cons c rest =>
      refine ⟨c, rest, rfl, ?_⟩
      by_contra other
      exact matched.1 (List.takeWhile_cons_of_neg other)) identity.form_matches
  have encoded : (encodeForm identity.form).toList =
      (if c = '/' then '_' else c) :: rest.map fun c => if c = '/' then '_' else c := by
    rw [encodeForm, String.toList_ofList, chars, List.map_cons]
  apply plainName_of_head encoded _ (encodeForm_slash identity.form)
  split_ifs
  · decide
  · rintro rfl
    cases alnum

theorem year_plain (year : ℤ) : PlainName (toString year) := by
  have slash : '/' ∉ (toString year).toList := fun member => absurd (int_chars year '/' member) (by decide)
  cases chars : (toString year).toList with
  | nil =>
    rw [int_toList] at chars
    split_ifs at chars
    exact absurd chars Nat.toDigits_ne_nil
  | cons c rest =>
    apply plainName_of_head chars _ slash
    rintro rfl
    exact absurd (int_chars year '.' (chars ▸ List.mem_cons_self ..)) (by decide)

/-- Every component of the path of an accepted accession number is a plain name. -/
theorem components_plain (identity : ReportIdentity) {accession : String}
    (matched : ArtifactStore.accessionMatches accession = true) :
    ∀ component ∈ artifactComponents identity accession, PlainName component := by
  have accessionDir : PlainName ("accession-" ++ accession) := by
    have chars : ("accession-" ++ accession).toList = 'a' :: ("ccession-".toList ++ accession.toList) := by
      rw [String.toList_append]
      rfl
    apply plainName_of_head chars (by decide)
    rw [String.toList_append, List.mem_append]
    rintro (member | member)
    · exact absurd member (by decide)
    · exact accession_slash matched member
  have pdf : PlainName "report.pdf" := ⟨by decide, by decide, by decide, by decide⟩
  simp only [artifactComponents, List.forall_mem_cons]
  exact ⟨ticker_plain identity, form_plain identity, year_plain _, accessionDir, pdf, by simp⟩

/-- The components tell the parts of an identity that the layout uses, and the accession number. -/
theorem components_injective {identity identity' : ReportIdentity} {accession accession' : String}
    (same : artifactComponents identity accession = artifactComponents identity' accession') :
    identity.ticker = identity'.ticker ∧ identity.form = identity'.form ∧ identity.year = identity'.year ∧
      accession = accession' := by
  simp only [artifactComponents, List.cons.injEq, and_true] at same
  obtain ⟨tickers, forms, years, accessions⟩ := same
  refine ⟨tickers, ?_, int_toList_injective (congrArg String.toList years), ?_⟩
  · rw [← identity.form_decoded, forms, identity'.form_decoded]
  · have chars := congrArg String.toList accessions
    rw [String.toList_append, String.toList_append, List.append_cancel_left_eq] at chars
    exact String.toList_inj.mp chars

theorem parseRef_accession {ref : String} {identity : ReportIdentity} {accession : String}
    (parsed : ArtifactStore.parseRef ref = .ok (identity, accession)) :
    ArtifactStore.accessionMatches accession = true := by
  have read {logical : Except InvalidArtifactRef ReportIdentity} {number : String}
      (parsed : (logical.map fun identity => (identity, number)) = .ok (identity, accession)) :
      number = accession := by
    cases logical with
    | error error => cases parsed
    | ok identity' =>
      cases parsed
      rfl
  unfold ArtifactStore.parseRef at parsed
  split at parsed
  · split_ifs at parsed with matched
    exact read parsed ▸ matched
  · split_ifs at parsed with matched
    exact read parsed ▸ matched
  · cases parsed

theorem resolvePdfPath_eq (settings : Settings) {ref : String} {identity : ReportIdentity} {accession : String}
    (parsed : ArtifactStore.parseRef ref = .ok (identity, accession)) :
    ArtifactStore.resolvePdfPath settings ref =
      .ok ((artifactComponents identity accession).foldl Text.joinPath settings.storageRoot) := by
  rw [ArtifactStore.resolvePdfPath, parsed]
  rfl

/-- A reference that is not refused leads below the storage root, and two of them lead to one path
exactly when they name the same ticker, form, year and accession number. -/
theorem references_confined (settings : Settings) :
    (∀ ref path, ArtifactStore.resolvePdfPath settings ref = .ok path →
      ∃ identity accession, ArtifactStore.parseRef ref = .ok (identity, accession) ∧
        Enclosed settings.storageRoot (artifactComponents identity accession) path) ∧
    ∀ ref ref' identity identity' accession accession',
      ArtifactStore.parseRef ref = .ok (identity, accession) →
      ArtifactStore.parseRef ref' = .ok (identity', accession') →
        (ArtifactStore.resolvePdfPath settings ref = ArtifactStore.resolvePdfPath settings ref' ↔
          identity.ticker = identity'.ticker ∧ identity.form = identity'.form ∧
            identity.year = identity'.year ∧ accession = accession') := by
  constructor
  · intro ref path resolved
    cases parsed : ArtifactStore.parseRef ref with
    | error error =>
      rw [ArtifactStore.resolvePdfPath, parsed] at resolved
      cases resolved
    | ok result =>
      obtain ⟨identity, accession⟩ := result
      rw [resolvePdfPath_eq settings parsed] at resolved
      cases resolved
      have plain := components_plain identity (parseRef_accession parsed)
      exact ⟨identity, accession, rfl, rfl, plain, segments_components _ plain⟩
  · intro ref ref' identity identity' accession accession' parsed parsed'
    rw [resolvePdfPath_eq settings parsed, resolvePdfPath_eq settings parsed']
    constructor
    · intro same
      have segments := congrArg Text.segments (Except.ok.inj same)
      rw [segments_components _ (components_plain identity (parseRef_accession parsed)),
        segments_components _ (components_plain identity' (parseRef_accession parsed')),
        List.append_cancel_left_eq] at segments
      exact components_injective segments
    · rintro ⟨tickers, forms, years, rfl⟩
      rw [artifactComponents, artifactComponents, tickers, forms, years]

/-- A reference in lower case, with slashes to spare and a blank before the year. -/
theorem references_confined_spelling :
    (∃ identity accession, ArtifactStore.parseRef "//aapl/10-k_a/ 2024/0000320193-24-000123" =
        .ok (identity, accession) ∧
      Enclosed "/data" (artifactComponents identity accession)
        "/data/AAPL/10-K_A/2024/accession-0000320193-24-000123/report.pdf") ∧
    ArtifactStore.resolvePdfPath { Sample.settings 2 with storageRoot := "/data" }
        "//aapl/10-k_a/ 2024/0000320193-24-000123" =
      ArtifactStore.resolvePdfPath { Sample.settings 2 with storageRoot := "/data" }
        "AAPL/10-K_A/2024/Q1/0000320193-24-000123" := by
  have spelled : ArtifactStore.parseRef "//aapl/10-k_a/ 2024/0000320193-24-000123" =
      .ok ({ Sample.identity 2024 with form := "10-K/A", form_matches := by decide +kernel },
        "0000320193-24-000123") := by decide +kernel
  have quarterly : ArtifactStore.parseRef "AAPL/10-K_A/2024/Q1/0000320193-24-000123" =
      .ok ({ Sample.identity 2024 with
        form := "10-K/A", quarter := some "Q1", form_matches := by decide +kernel },
        "0000320193-24-000123") := by decide +kernel
  have confined := references_confined { Sample.settings 2 with storageRoot := "/data" }
  exact ⟨confined.1 _ _ (by decide +kernel),
    (confined.2 _ _ _ _ _ _ spelled quarterly).mpr ⟨rfl, rfl, rfl, rfl⟩⟩

end Quartr.Soundness
