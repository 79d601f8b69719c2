import Mathlib.Algebra.Ring.Nat
import Quartr.Soundness.Confinement

/-! # Reading back what was read

`parse_ref` and `ReportIdentity.parse` accept many spellings of one identity: slashes to spare, lower case,
an encoded form, a signed or padded year. What they return is written in one way, and read back as it is.
-/

namespace Quartr.Soundness

open Quartr.Model

/-! ### What a segment is -/

theorem not_mem_of_mem_splitOn {sep : Char} {text part : List Char} (member : part ∈ text.splitOn sep) :
    sep ∉ part := by
  induction text generalizing part with
  | nil =>
    rw [List.splitOn_nil, List.mem_singleton] at member
    rw [member]
    exact List.not_mem_nil
  | cons c rest ih =>
    rw [List.splitOn_cons_eq_if_modifyHead] at member
    split_ifs at member with separates
    · rcases List.mem_cons.mp member with rfl | later
      · exact List.not_mem_nil
      · exact ih later
    · obtain ⟨first, others, split⟩ := List.exists_cons_of_ne_nil (List.splitOn_ne_nil sep rest)
      rw [split] at member ih
      rcases List.mem_cons.mp member with rfl | later
      · intro inside
        rcases List.mem_cons.mp inside with rfl | inside
        · exact separates (beq_self_eq_true _)
        · exact ih List.mem_cons_self inside
      · exact ih (List.mem_cons_of_mem _ later)

/-- A segment is a path of its own. -/
theorem segments_of_mem {s part : String} (member : part ∈ Text.segments s) :
    Text.segments part = [part] := by
  unfold Text.segments at member
  obtain ⟨chars, inside, rfl⟩ := List.mem_map.mp member
  obtain ⟨split, nonempty⟩ := List.mem_filter.mp inside
  apply segments_single
  · rw [String.toList_ofList]
    exact not_mem_of_mem_splitOn split
  · rw [String.toList_ofList]
    exact of_decide_eq_true nonempty

/-! ### How long a year is -/

theorem digitValue?_lt {c : Char} {digit : ℕ} (read : Text.digitValue? c = some digit) : digit < 10 := by
  obtain ⟨first, found, rfl⟩ := Option.map_eq_some_iff.mp read
  have range := List.find?_some found
  rw [decide_eq_true_eq] at range
  omega

/-- A number is less than its digits have room for. -/
theorem intDigits?_lt {value result : ℕ} {afterDigit : Bool} {text : List Char}
    (read : Text.intDigits? value afterDigit text = some result) :
    result < (value + 1) * 10 ^ (text.filter (· ≠ '_')).length := by
  induction text generalizing value afterDigit with
  | nil =>
    unfold Text.intDigits? at read
    split_ifs at read
    cases read
    simp
  | cons c rest ih =>
    unfold Text.intDigits? at read
    split_ifs at read with underscore after
    · have bound := ih read
      rwa [List.filter_cons_of_neg (by simp [underscore])]
    · obtain ⟨digit, single, read⟩ := Option.bind_eq_some_iff.mp read
      have bound := ih read
      have small := digitValue?_lt single
      rw [List.filter_cons_of_pos (by simp [underscore]), List.length_cons, Nat.pow_succ]
      calc result < (value * 10 + digit + 1) * 10 ^ (rest.filter (· ≠ '_')).length := bound
        _ ≤ ((value + 1) * 10) * 10 ^ (rest.filter (· ≠ '_')).length :=
          Nat.mul_le_mul_right _ (by omega)
        _ = (value + 1) * (10 ^ (rest.filter (· ≠ '_')).length * 10) := by
          rw [Nat.mul_assoc, Nat.mul_comm 10]

/-- What `int` has read is written with no more digits than it accepts. -/
theorem int?_length {s : String} {n : ℤ} (read : Text.int? s = some n) :
    (Nat.toDigits 10 n.natAbs).length ≤ 4300 := by
  have short {value : ℕ} {text : List Char} (digits : Text.intDigits? 0 false text = some value)
      (limit : ¬ 4300 < (text.filter (· ≠ '_')).length) : (Nat.toDigits 10 value).length ≤ 4300 := by
    have bound := intDigits?_lt digits
    rw [Nat.zero_add, Nat.one_mul] at bound
    rw [Nat.length_toDigits_le_iff (by decide) (by decide)]
    exact Nat.lt_of_lt_of_le bound (Nat.pow_le_pow_right (by decide) (Nat.le_of_not_lt limit))
  unfold Text.int? at read
  dsimp only at read
  split_ifs at read with long negative
  · obtain ⟨_, converted, rfl⟩ := Option.map_eq_some_iff.mp read
    obtain ⟨value, digits, ⟨⟩⟩ := Option.bind_eq_some_iff.mp converted
    rw [Int.natAbs_neg, Int.natAbs_natCast]
    exact short digits long
  · obtain ⟨_, converted, rfl⟩ := Option.map_eq_some_iff.mp read
    obtain ⟨value, digits, ⟨⟩⟩ := Option.bind_eq_some_iff.mp converted
    rw [Int.natAbs_natCast]
    exact short digits long

/-! ### Identities that were read -/

/-- The quarter is one segment of a path, and the year can be read. -/
structure Canonical (identity : ReportIdentity) : Prop where
  quarter : ∀ quarter, identity.quarter = some quarter → Text.segments quarter = [quarter]
  year : (Nat.toDigits 10 identity.year.natAbs).length ≤ 4300

theorem with_quarter {identity : ReportIdentity} {quarter : Option String} (named : identity.quarter = quarter) :
    { identity with quarter := quarter } = identity := by
  subst named
  rfl

theorem parseSegments_eq (identity : ReportIdentity) (quarter : Option String) :
    ReportIdentity.parseSegments identity.ticker (encodeForm identity.form) (toString identity.year) quarter =
      if (Nat.toDigits 10 identity.year.natAbs).length ≤ 4300 then .ok { identity with quarter := quarter }
      else .error (.year (toString identity.year)) := by
  unfold ReportIdentity.parseSegments
  rw [int?_toString, identity.form_decoded]
  split_ifs
  · dsimp only
    rw [make_again]
    rfl
  · rfl

/-- The constructor keeps the year and the quarter. -/
theorem make_keeps {ticker form : String} {year : ℤ} {quarter : Option String} {identity : ReportIdentity}
    (made : ReportIdentity.make ticker form year quarter = .ok identity) :
    identity.year = year ∧ identity.quarter = quarter := by
  unfold ReportIdentity.make at made
  split_ifs at made
  cases made
  exact ⟨rfl, rfl⟩

theorem canonical_of_make {ticker form year : String} {value : ℤ} {quarter : Option String}
    {identity : ReportIdentity} (read : Text.int? year = some value)
    (made : ReportIdentity.make ticker form value quarter = .ok identity)
    (segment : ∀ text, quarter = some text → Text.segments text = [text]) : Canonical identity := by
  obtain ⟨years, quarters⟩ := make_keeps made
  refine ⟨?_, ?_⟩
  · rw [quarters]
    exact segment
  · rw [years]
    exact int?_length read

theorem parseLogical_canonical {ref ticker form year : String} {quarter : Option String}
    {identity : ReportIdentity} (parsed : ArtifactStore.parseLogical ref ticker form year quarter = .ok identity)
    (segment : ∀ text, quarter = some text → Text.segments text = [text]) : Canonical identity := by
  unfold ArtifactStore.parseLogical at parsed
  split at parsed
  · cases parsed
  · rename_i value read
    cases made : ReportIdentity.make ticker (decodeForm form) value quarter with
    | error message =>
      rw [made] at parsed
      cases parsed
    | ok made' =>
      rw [made] at parsed
      cases parsed
      exact canonical_of_make read made segment

theorem parseSegments_canonical {ticker form year : String} {quarter : Option String}
    {identity : ReportIdentity} (parsed : ReportIdentity.parseSegments ticker form year quarter = .ok identity)
    (segment : ∀ text, quarter = some text → Text.segments text = [text]) : Canonical identity := by
  unfold ReportIdentity.parseSegments at parsed
  split at parsed
  · cases parsed
  · rename_i value read
    cases made : ReportIdentity.make ticker (decodeForm form) value quarter with
    | error message =>
      rw [made] at parsed
      cases parsed
    | ok made' =>
      rw [made] at parsed
      cases parsed
      exact canonical_of_make read made segment

theorem parseRef_canonical {ref : String} {identity : ReportIdentity} {accession : String}
    (parsed : ArtifactStore.parseRef ref = .ok (identity, accession)) : Canonical identity := by
  have read {logical : Except InvalidArtifactRef ReportIdentity} {number : String}
      (parsed : (logical.map fun identity => (identity, number)) = .ok (identity, accession)) :
      logical = .ok identity := by
    cases logical with
    | error error => cases parsed
    | ok identity' =>
      cases parsed
      rfl
  unfold ArtifactStore.parseRef at parsed
  split at parsed
  · split_ifs at parsed
    exact parseLogical_canonical (read parsed) nofun
  · rename_i parts
    split_ifs at parsed
    apply parseLogical_canonical (read parsed)
    rintro text ⟨⟩
    apply @segments_of_mem ref
    simp [parts]
  · cases parsed

theorem parse_canonical {path : String} {identity : ReportIdentity}
    (parsed : ReportIdentity.parse path = .ok identity) : Canonical identity := by
  unfold ReportIdentity.parse at parsed
  split at parsed
  · exact parseSegments_canonical parsed nofun
  · rename_i parts
    apply parseSegments_canonical parsed
    rintro text ⟨⟩
    apply @segments_of_mem path
    simp [parts]
  · cases parsed

namespace Canonical

variable {identity : ReportIdentity}

/-- An identity that can be read is read back from its reference. -/
theorem parseRef_refFor (canonical : Canonical identity) {accession : String}
    (wellFormed : ArtifactStore.accessionMatches accession = true) :
    ArtifactStore.parseRef (ArtifactStore.refFor identity accession) = .ok (identity, accession) := by
  unfold ArtifactStore.parseRef
  rw [refFor_segments identity wellFormed]
  cases named : identity.quarter with
  | none =>
    have blank : Text.segments "" = [] := rfl
    simp only [Option.getD_none, blank, List.nil_append, wellFormed, ↓reduceIte, parseLogical_eq,
      canonical.year, with_quarter named]
    rfl
  | some quarter =>
    simp only [Option.getD_some, canonical.quarter quarter named, List.cons_append, List.nil_append, wellFormed,
      ↓reduceIte, parseLogical_eq, canonical.year, with_quarter named]
    rfl

theorem parse_logicalPath (canonical : Canonical identity) :
    ReportIdentity.parse identity.logicalPath = .ok identity := by
  have segments : Text.segments identity.logicalPath = identity.ticker :: encodeForm identity.form ::
      toString identity.year :: Text.segments (identity.quarter.getD "") := by
    have lead : "/" ++ "/".intercalate identity.pathSegments =
        "" ++ "/" ++ "/".intercalate identity.pathSegments := rfl
    rw [ReportIdentity.logicalPath, lead, segments_join, segments_intercalate, pathSegments_segments]
    rfl
  unfold ReportIdentity.parse
  rw [segments]
  cases named : identity.quarter with
  | none =>
    have blank : Text.segments "" = [] := rfl
    simp only [Option.getD_none, blank, parseSegments_eq, canonical.year, ↓reduceIte, with_quarter named]
  | some quarter =>
    simp only [Option.getD_some, canonical.quarter quarter named, parseSegments_eq, canonical.year, ↓reduceIte,
      with_quarter named]

end Canonical

/-- A reference is the logical path without its leading slash, followed by the accession number. -/
theorem refFor_eq (identity : ReportIdentity) (accession : String) :
    ArtifactStore.refFor identity accession =
      String.ofList identity.logicalPath.toList.tail ++ "/" ++ accession := by
  have path : String.ofList identity.logicalPath.toList.tail = "/".intercalate identity.pathSegments := by
    rw [ReportIdentity.logicalPath, String.toList_append]
    exact String.ofList_toList
  have append : ∀ parts : List String, parts ≠ [] →
      "/".intercalate (parts ++ [accession]) = "/".intercalate parts ++ "/" ++ accession := by
    intro parts nonempty
    induction parts with
    | nil => exact absurd rfl nonempty
    | cons part rest ih =>
      cases rest with
      | nil =>
        rw [List.singleton_append, String.intercalate_cons_cons, String.intercalate_singleton,
          String.intercalate_singleton]
      | cons next rest =>
        rw [List.cons_append, List.cons_append, String.intercalate_cons_cons, ← List.cons_append,
          ih (List.cons_ne_nil _ _), String.intercalate_cons_cons]
        simp only [String.append_assoc]
  rw [path, ArtifactStore.refFor]
  apply append
  unfold ReportIdentity.pathSegments
  exact List.cons_ne_nil _ _

/-- Whatever a reference or a path is accepted as is written in one way, and read back as it is. -/
theorem codecs_stable :
    (∀ ref identity accession, ArtifactStore.parseRef ref = .ok (identity, accession) →
      ArtifactStore.parseRef (ArtifactStore.refFor identity accession) = .ok (identity, accession) ∧
        identity.logicalPath.toList.head? = some '/' ∧
        ArtifactStore.refFor identity accession =
          String.ofList identity.logicalPath.toList.tail ++ "/" ++ accession) ∧
    ∀ path identity, ReportIdentity.parse path = .ok identity →
      ReportIdentity.parse identity.logicalPath = .ok identity := by
  refine ⟨fun ref identity accession parsed => ⟨?_, ?_, refFor_eq identity accession⟩, ?_⟩
  · exact (parseRef_canonical parsed).parseRef_refFor (parseRef_accession parsed)
  · rw [identity.logicalPath_toList]
    rfl
  · intro path identity parsed
    exact (parse_canonical parsed).parse_logicalPath

/-- An amended form, with a quarter in words. -/
def spelledOut : ReportIdentity :=
  { Sample.identity 2024 with
    form := "10-K/A", quarter := some "first quarter", form_matches := by decide +kernel }

/-- Spelled in lower case, with slashes to spare, and with a signed year that has a leading zero. -/
theorem codecs_stable_spelling :
    (ArtifactStore.parseRef (ArtifactStore.refFor spelledOut "0000320193-24-000123") =
        .ok (spelledOut, "0000320193-24-000123") ∧
      spelledOut.logicalPath.toList.head? = some '/' ∧
      ArtifactStore.refFor spelledOut "0000320193-24-000123" =
        String.ofList spelledOut.logicalPath.toList.tail ++ "/" ++ "0000320193-24-000123") ∧
    ReportIdentity.parse spelledOut.logicalPath = .ok spelledOut :=
  ⟨codecs_stable.1 "aapl//10-k_a/+02_024/first quarter/0000320193-24-000123" _ _ (by decide +kernel),
    codecs_stable.2 "aapl/10-k_a/+02_024/first quarter/" _ (by decide +kernel)⟩

end Quartr.Soundness
