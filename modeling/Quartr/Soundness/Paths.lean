import Mathlib.Data.List.Basic
import Quartr.Model.ArtifactStore

/-! # What names tell apart

File names and Redis keys are built from strings, so that two of them differ is a fact about their
characters: the PDF of an accession is no temporary file, and a cache key determines the year of
the path it belongs to.
-/

namespace Quartr.Model

/-- What `os.path.join` puts before a relative name. -/
def joinLead (a : String) : List Char :=
  if a.toList = [] ∨ a.toList.getLast? = some '/' then a.toList else a.toList ++ ['/']

theorem joinPath_toList (a : String) {b : String} (relative : b.toList.head? ≠ some '/') :
    (Text.joinPath a b).toList = joinLead a ++ b.toList := by
  unfold Text.joinPath joinLead
  rw [if_neg relative]
  split_ifs
  · exact String.toList_append
  · rw [String.toList_append, String.toList_append]
    rfl

/-- An extension has the dot it starts with and no other. -/
theorem Text.extension_dots (path : String) :
    Text.extension path = "" ∨ (Text.extension path).toList.count '.' = 1 := by
  unfold Text.extension
  dsimp only
  split
  · exact .inl rfl
  · split_ifs
    · refine .inr ?_
      rw [String.toList_ofList, List.count_cons_self, List.count_reverse, Nat.add_eq_right,
        List.count_eq_zero]
      intro member
      have dotless := List.all_eq_true.mp List.all_takeWhile '.' member
      simp only [ne_eq, not_true_eq_false, decide_false, Bool.false_eq_true] at dotless
    · exact .inl rfl

/-- No file under its final name is a temporary file. -/
theorem ArtifactStore.pdfPath_ne_tmpPath (settings : Settings) (identity : ReportIdentity)
    (accessionNumber ext target : String) :
    (pathsFor settings identity accessionNumber ext).pdfPath ≠ tmpPath target := by
  intro same
  have last : (pathsFor settings identity accessionNumber ext).pdfPath.toList.getLast? = some 'f' := by
    simp only [pathsFor, Text.joinPath]
    split_ifs with absolute empty
    · exact absurd absolute (by decide)
    · simp
    · simp
  rw [same, tmpPath, String.toList_append] at last
  simp at last

/-- What holds of every character a pattern admits holds of every character of a match, if it holds of
the newline that may end it. -/
theorem matchesToEnd_chars {body : List Char → Bool} {test : Char → Bool} {text : List Char}
    (admits : ∀ text, body text = true → ∀ c ∈ text, test c = true) (newline : test '\n' = true)
    (matched : matchesToEnd body text = true) : ∀ c ∈ text, test c = true := by
  simp only [matchesToEnd, Bool.or_eq_true, Bool.and_eq_true, decide_eq_true_eq] at matched
  rcases matched with whole | ⟨ends, front⟩
  · exact admits text whole
  · intro c member
    obtain ⟨front', same⟩ := List.getLast?_eq_some_iff.mp ends
    rw [same, List.dropLast_concat] at front
    rw [same] at member
    rcases List.mem_append.mp member with inside | inside
    · exact admits front' front c inside
    · cases List.mem_singleton.mp inside
      exact newline

/-- The characters of a ticker. -/
def isTickerChar (c : Char) : Bool := isUpperLetter c || c = '.' || c = '-' || c = '\n'

theorem tickerBody_chars (text : List Char) (matched : tickerBody text = true) :
    ∀ c ∈ text, isTickerChar c = true := by
  intro c member
  cases text with
  | nil => cases member
  | cons first rest =>
    simp only [tickerBody, Bool.and_eq_true, List.all_eq_true] at matched
    rcases List.mem_cons.mp member with rfl | member
    · simp only [isTickerChar, matched.1.1, Bool.true_or]
    · simp only [isTickerChar, matched.2 c member, Bool.true_or]

theorem ReportIdentity.ticker_chars (identity : ReportIdentity) :
    ∀ c ∈ identity.ticker.toList, isTickerChar c = true :=
  matchesToEnd_chars tickerBody_chars (by decide) identity.ticker_matches

/-- A ticker has no slash: it cannot leave its segment. -/
theorem ReportIdentity.ticker_slash (identity : ReportIdentity) : '/' ∉ identity.ticker.toList := by
  intro member
  exact absurd (identity.ticker_chars '/' member) (by decide)

theorem encodeForm_slash (form : String) : '/' ∉ (encodeForm form).toList := by
  simp only [encodeForm, String.toList_ofList, List.mem_map, not_exists, not_and]
  intro c _
  split_ifs with slash
  · decide
  · exact slash

/-- The characters of a logical path after its year. -/
def ReportIdentity.quarterTail (identity : ReportIdentity) : List Char :=
  match identity.quarter with
  | none => []
  | some quarter => if quarter = "" then [] else '/' :: quarter.toList

theorem ReportIdentity.logicalPath_toList (identity : ReportIdentity) :
    identity.logicalPath.toList = '/' :: (identity.ticker.toList ++ '/' ::
      ((encodeForm identity.form).toList ++ '/' ::
        ((toString identity.year).toList ++ identity.quarterTail))) := by
  have three (a b c : String) : "/".intercalate [a, b, c] = a ++ "/" ++ b ++ "/" ++ c := rfl
  have four (a b c d : String) : "/".intercalate [a, b, c, d] = a ++ "/" ++ b ++ "/" ++ c ++ "/" ++ d := rfl
  have slash : "/".toList = ['/'] := rfl
  unfold logicalPath pathSegments quarterTail
  cases identity.quarter with
  | none => simp only [List.append_nil, three, String.toList_append, slash, List.append_assoc,
      List.cons_append, List.nil_append]
  | some quarter =>
    dsimp only
    split_ifs
    · simp only [List.append_nil, three, String.toList_append, slash, List.append_assoc,
        List.cons_append, List.nil_append]
    · simp only [List.cons_append, List.nil_append, four, String.toList_append, slash,
        List.append_assoc]

/-- A text is split where its characters stop satisfying a test. -/
theorem append_eq_split {test : Char → Bool} {first first' rest rest' : List Char}
    (inside : ∀ c ∈ first, test c = true) (inside' : ∀ c ∈ first', test c = true)
    (ends : ∀ c ∈ rest.head?, test c = false) (ends' : ∀ c ∈ rest'.head?, test c = false)
    (same : first ++ rest = first' ++ rest') : first = first' ∧ rest = rest' := by
  have stops (text : List Char) (stop : ∀ c ∈ text.head?, test c = false) : text.takeWhile test = [] := by
    cases text with
    | nil => rfl
    | cons c text => exact List.takeWhile_cons_of_neg (by rw [stop c rfl]; decide)
  have taken := congrArg (List.takeWhile test) same
  rw [List.takeWhile_append_of_pos inside, List.takeWhile_append_of_pos inside', stops rest ends,
    stops rest' ends', List.append_nil, List.append_nil] at taken
  subst taken
  exact ⟨rfl, List.append_cancel_left same⟩

/-- A segment ends at the next slash. -/
theorem segment_eq {first first' rest rest' : List Char} (inside : '/' ∉ first) (inside' : '/' ∉ first')
    (same : first ++ '/' :: rest = first' ++ '/' :: rest') : first = first' ∧ rest = rest' := by
  have plain {text : List Char} (inside : '/' ∉ text) : ∀ c ∈ text, decide (c ≠ '/') = true := by
    intro c member
    refine decide_eq_true ?_
    rintro rfl
    exact inside member
  have ends (text : List Char) : ∀ c ∈ ('/' :: text).head?, decide (c ≠ '/') = false := by
    rintro c ⟨⟩
    decide
  obtain ⟨firsts, rests⟩ := append_eq_split (plain inside) (plain inside') (ends rest) (ends rest') same
  exact ⟨firsts, List.tail_eq_of_cons_eq rests⟩

/-! ### What a form and a year look like -/

/-- The characters of a form. -/
def isFormChar (c : Char) : Bool := isUpperAlnum c || c = '-' || c = '/' || c = '\n'

theorem formBody_chars {text : List Char} (matched : formBody text = true) :
    ∀ c ∈ text, isFormChar c = true := by
  -- A run of letters and digits, and what may end a form.
  have amended {text : List Char} (last : text.dropWhile isUpperAlnum = [] ∨
      text.dropWhile isUpperAlnum = ['/', 'A']) : ∀ c ∈ text, isFormChar c = true := by
    intro c member
    rw [← @List.takeWhile_append_dropWhile _ isUpperAlnum text] at member
    rcases List.mem_append.mp member with inside | inside
    · simp only [isFormChar, List.all_eq_true.mp List.all_takeWhile c inside, Bool.true_or]
    · rcases last with last | last
      · rw [last] at inside
        cases inside
      · rw [last] at inside
        rcases List.mem_cons.mp inside with rfl | inside
        · decide
        · cases List.mem_singleton.mp inside
          decide
  simp only [formBody, Bool.and_eq_true, Bool.or_eq_true, decide_eq_true_eq] at matched
  rcases matched.2 with last | dashed
  · exact amended last
  · intro c member
    rw [← @List.takeWhile_append_dropWhile _ isUpperAlnum text] at member
    rcases List.mem_append.mp member with inside | inside
    · simp only [isFormChar, List.all_eq_true.mp List.all_takeWhile c inside, Bool.true_or]
    · cases tail : text.dropWhile isUpperAlnum with
      | nil =>
        rw [tail] at inside
        cases inside
      | cons dash tail' =>
        rw [tail] at inside dashed
        split at dashed
        · rename_i rest same
          cases same
          rcases List.mem_cons.mp inside with rfl | inside
          · decide
          · simp only [Bool.and_eq_true, Bool.or_eq_true, decide_eq_true_eq] at dashed
            exact amended dashed.2 c inside
        · cases dashed

theorem ReportIdentity.form_chars (identity : ReportIdentity) :
    ∀ c ∈ identity.form.toList, isFormChar c = true :=
  matchesToEnd_chars (fun _ => formBody_chars) (by decide) identity.form_matches

theorem int_toList (n : ℤ) :
    (toString n).toList = if n < 0 then '-' :: Nat.toDigits 10 n.natAbs else Nat.toDigits 10 n.natAbs := by
  cases n with
  | ofNat n =>
    have plain : (toString (Int.ofNat n)).toList = Nat.toDigits 10 n := Nat.toList_repr
    have positive : ¬ Int.ofNat n < 0 := Int.not_lt.mpr (Int.natCast_nonneg n)
    rw [plain, if_neg positive]
    rfl
  | negSucc n =>
    have signed : (toString (Int.negSucc n)).toList = '-' :: Nat.toDigits 10 (n + 1) := by
      show ("-" ++ Nat.repr (n + 1)).toList = _
      rw [String.toList_append, Nat.toList_repr]
      rfl
    rw [signed, if_pos (by omega)]
    rfl

theorem toDigits_chars (n : ℕ) : ∀ c ∈ Nat.toDigits 10 n, c.isDigit = true :=
  fun _ => Nat.isDigit_of_mem_toDigits (by decide) (by decide)

/-- The characters of a year. -/
theorem int_chars (n : ℤ) : ∀ c ∈ (toString n).toList, (c.isDigit || c = '-') = true := by
  intro c member
  rw [int_toList] at member
  split_ifs at member
  · rcases List.mem_cons.mp member with rfl | member
    · decide
    · rw [toDigits_chars _ c member, Bool.true_or]
  · rw [toDigits_chars _ c member, Bool.true_or]

theorem int_toList_injective {n n' : ℤ} (same : (toString n).toList = (toString n').toList) : n = n' := by
  have digits {m m' : ℕ} (same : Nat.toDigits 10 m = Nat.toDigits 10 m') : m = m' := by
    rw [← @Nat.ofDigitChars_ten_toDigits m, same, Nat.ofDigitChars_ten_toDigits]
  have signs {m m' : ℕ} (same : '-' :: Nat.toDigits 10 m = Nat.toDigits 10 m') : False := by
    have digit := toDigits_chars m' '-' (same ▸ List.mem_cons_self)
    exact absurd digit (by decide)
  rw [int_toList, int_toList] at same
  split_ifs at same with negative negative' negative'
  · have sizes := digits (List.tail_eq_of_cons_eq same)
    omega
  · exact (signs same).elim
  · exact (signs same.symm).elim
  · have sizes := digits same
    omega

/-! ### Keys -/

/-- A form has no underscore, so its encoding is reversible. -/
theorem ReportIdentity.form_decoded (identity : ReportIdentity) :
    decodeForm (encodeForm identity.form) = identity.form := by
  rw [decodeForm, encodeForm, String.toList_ofList, List.map_map, ← String.toList_inj,
    String.toList_ofList]
  refine (List.map_congr_left fun c member => ?_).trans (List.map_id _)
  have formal := identity.form_chars c member
  dsimp only [Function.comp]
  split_ifs with slash under under
  · exact slash.symm
  · exact absurd rfl under
  · subst under
    exact absurd formal (by decide)
  · rfl

/-- What follows the year in a key does not start with a character of a year. -/
theorem tail_ends (identity : ReportIdentity) (includeAmended : Bool) :
    ∀ c ∈ (identity.quarterTail ++ (policySuffix includeAmended).toList).head?,
      (c.isDigit || c = '-') = false := by
  have suffix : ∀ c ∈ (policySuffix includeAmended).toList.head?, (c.isDigit || c = '-') = false := by
    intro c first
    cases includeAmended with
    | false => cases first
    | true =>
      cases first
      decide
  unfold ReportIdentity.quarterTail
  split
  · exact suffix
  · split_ifs
    · exact suffix
    · rintro c ⟨⟩
      decide

/-- The parts of a path that its key determines, whatever the quarter. -/
theorem key_parts {identity identity' : ReportIdentity} {includeAmended includeAmended' : Bool}
    {lead : String} (same : lead ++ identity.logicalPath ++ policySuffix includeAmended =
      lead ++ identity'.logicalPath ++ policySuffix includeAmended') :
    identity.ticker = identity'.ticker ∧ identity.form = identity'.form ∧
      identity.year = identity'.year ∧
      identity.quarterTail ++ (policySuffix includeAmended).toList =
        identity'.quarterTail ++ (policySuffix includeAmended').toList := by
  have lists := congrArg String.toList same
  simp only [String.toList_append, ReportIdentity.logicalPath_toList, List.append_assoc,
    List.append_cancel_left_eq, List.cons_append, List.cons.injEq, true_and] at lists
  obtain ⟨tickers, forms⟩ := segment_eq identity.ticker_slash identity'.ticker_slash lists
  obtain ⟨encoded, years⟩ := segment_eq (encodeForm_slash _) (encodeForm_slash _) forms
  obtain ⟨years, tails⟩ := append_eq_split (int_chars _) (int_chars _) (tail_ends identity includeAmended)
    (tail_ends identity' includeAmended') years
  have forms : identity.form = identity'.form := by
    rw [← identity.form_decoded, String.toList_inj.mp encoded, identity'.form_decoded]
  exact ⟨String.toList_inj.mp tickers, forms, int_toList_injective years, tails⟩

/-- A cache key determines the year of its path. -/
theorem logicalKey_year {identity identity' : ReportIdentity} {includeAmended includeAmended' : Bool}
    {year year' : ℕ} (is : identity.year = year) (is' : identity'.year = year')
    (same : logicalKey identity.logicalPath includeAmended =
      logicalKey identity'.logicalPath includeAmended') : year = year' := by
  have years := (key_parts same).2.2.1
  omega

end Quartr.Model
