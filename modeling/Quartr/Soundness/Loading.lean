import Quartr.Machine.Solo
import Quartr.Soundness.Ciks

/-! # What the content of the mapping's file does to the service

The constructor takes the document in the file apart. It gets through, and the age of the mapping can be
computed afterwards, exactly when the first thing that is wrong with the document is one of those that raise
a caught exception.
-/

namespace Quartr.Soundness

open Quartr.Data Quartr.Machine Quartr.Model.Mapping Quartr.Numeric
open Quartr.Machine.Coroutine (Runs)

variable {python : Python}

/-! ### What the claim says of a content -/

/-- The entry of a company in the file: under its ticker, with its CIK normalized. -/
def Listed (python : Python) (item : Json) (entry : Key × CompanyRecord) : Prop :=
  ∃ fields cik, item = .obj fields ∧ fields.lookup "ticker" = some entry.2.ticker ∧
    entry.2.ticker.key? = some entry.1 ∧ fields.lookup "cik" = some cik ∧
    normalizeCik python cik = .ok entry.2.cik ∧ fields.lookup "name" = some entry.2.name

/-- The mapping of the seed, never refreshed. -/
def Seeded (mapping : CikMapping) : Prop :=
  mapping.byTicker = Dict.ofEntries seedCompanies ∧ mapping.lastRefresh = .float .zero

/-- The mapping of every company in the document, with the time the document gives. -/
def FullyLoaded (python : Python) (loaded : Except Exc Json) (mapping : CikMapping) : Prop :=
  ∃ fields items entries, loaded = .ok (.obj fields) ∧ fields.lookup "companies" = some (.arr items) ∧
    List.Forall₂ (Listed python) items entries ∧ mapping.byTicker = Dict.ofEntries entries ∧
    mapping.lastRefresh = (fields.lookup "refreshed_at").getD (.float .zero)

/-- Wherever the content stands and can be read, the mapping is constructed from the seed or from the whole
document, and its age can be computed. -/
def ServiceStarts (python : Python) (content : Model.Bytes) : Prop :=
  ∀ path refreshSeconds env disk, disk.files path = some content → env.fault (.read path) = none →
    ∃ mapping disk', Runs (answer env) (CikMapping.init python path refreshSeconds) () disk (.ok mapping) () disk' ∧
      (Seeded mapping ∨ FullyLoaded python (python.loads content) mapping) ∧
      ∃ stale mapping' disk'', Runs (answer env) CikMapping.needsRefresh mapping disk' (.ok stale) mapping' disk''

/-! ### Which documents are digested -/

/-- A company with its three fields, a ticker that can be a key and a CIK that is a number. -/
def soundItem : Json → Bool
  | .obj fields =>
    match fields.lookup "ticker", fields.lookup "cik", fields.lookup "name" with
    | some ticker, some cik, some _ => ticker.key?.isSome && numericCik cik
    | _, _, _ => false
  | _ => false

/-- An object that misses a field before anything else is wrong with it. -/
def incompleteItem : Json → Bool
  | .obj fields =>
    match fields.lookup "ticker", fields.lookup "cik", fields.lookup "name" with
    | none, _, _ => true
    | some _, none, _ => true
    | some _, some cik, none => numericCik cik
    | some _, some _, some _ => false
  | _ => false

/-- A time that can be subtracted from a float. -/
def numericTime : Json → Bool
  | .float _ => true
  | .bool _ => true
  | .int value => |(value : ℚ)| < overflow
  | _ => false

/-- The companies are all sound and come with a numeric time, or the first of them that is not sound misses a
field. -/
def digestibleItems (refreshedAt : Json) (items : List Json) : Bool :=
  match items.find? fun item => !soundItem item with
  | some item => incompleteItem item
  | none => items.isEmpty || numericTime refreshedAt

/-- An empty text or object is as good as an empty list. -/
def digestibleCompanies (refreshedAt : Json) : Json → Bool
  | .arr items => digestibleItems refreshedAt items
  | .str text => text.toList.isEmpty
  | .obj fields => fields.isEmpty
  | _ => false

/-- The reader fails with a caught exception, or the document is an object with digestible companies. -/
def digestible : Except Exc Json → Bool
  | .error exc => CikMapping.caughtOnLoad exc
  | .ok (.obj fields) =>
    digestibleCompanies ((fields.lookup "refreshed_at").getD (.float .zero))
      ((fields.lookup "companies").getD (.arr []))
  | .ok _ => false

/-! ### One item -/

section Item

variable {fields : List (String × Json)} {ticker cik name : Json} {item : Json}

theorem subscript_some {key : String} {value : Json} (known : fields.lookup key = some value) :
    (Json.obj fields).subscript key = .ok value := by
  rw [Json.subscript, known]

theorem subscript_none {key : String} (missing : fields.lookup key = none) :
    (Json.obj fields).subscript key = .error (.key key) := by
  rw [Json.subscript, missing]

theorem loadedEntry_complete (ticker? : fields.lookup "ticker" = some ticker) (cik? : fields.lookup "cik" = some cik)
    (name? : fields.lookup "name" = some name) :
    CikMapping.loadedEntry python (.obj fields) = (normalizeCik python cik).bind fun normalized =>
      match ticker.key? with
      | some key => .ok (key, ⟨ticker, normalized, name⟩)
      | none => .error .type := by
  rw [CikMapping.loadedEntry, subscript_some ticker?, subscript_some cik?, subscript_some name?]
  simp only [bind, Except.bind]
  cases normalizeCik python cik with
  | error exc => rfl
  | ok normalized => cases ticker.key? <;> rfl

theorem loadedEntry_listed {entry : Key × CompanyRecord} (listed : Listed python item entry) :
    CikMapping.loadedEntry python item = .ok entry := by
  obtain ⟨fields, cik, rfl, ticker?, key?, cik?, normalized, name?⟩ := listed
  rw [loadedEntry_complete ticker? cik? name?, normalized, key?]
  rfl

theorem listed_of_sound (python : Python) (sound : soundItem item = true) : ∃ entry, Listed python item entry := by
  cases item with
  | obj fields =>
    unfold soundItem at sound
    dsimp only at sound
    split at sound
    · next ticker cik name ticker? cik? name? =>
      obtain ⟨hashable, numeric⟩ := (Bool.and_eq_true _ _).mp sound
      obtain ⟨key, key?⟩ := Option.isSome_iff_exists.mp hashable
      have normalized : normalizeCik python cik = _ := normalizeCik_digits (numericCik_iff.mp numeric)
      exact ⟨(key, ⟨ticker, _, name⟩), fields, cik, rfl, ticker?, key?, cik?, normalized, name?⟩
    · cases sound
  | _ => cases sound

theorem normalizeCik_not_numeric (other : numericCik cik = false) :
    normalizeCik python cik = .error (.value ("Invalid CIK: " ++ cik.repr python)) := by
  refine normalizeCik_error fun digits => ?_
  rw [numericCik_iff.mpr digits] at other
  cases other

/-- What is raised on an item that is not sound is caught if the item misses a field first. -/
theorem loadedEntry_error (python : Python) (unsound : soundItem item = false) :
    ∃ exc, CikMapping.loadedEntry python item = .error exc ∧ CikMapping.caughtOnLoad exc = incompleteItem item := by
  cases item with
  | obj fields =>
    unfold soundItem at unsound
    unfold incompleteItem
    dsimp only at unsound ⊢
    cases ticker? : fields.lookup "ticker" with
    | none =>
      refine ⟨.key "ticker", ?_, rfl⟩
      rw [CikMapping.loadedEntry, subscript_none ticker?]
      rfl
    | some ticker =>
      cases cik? : fields.lookup "cik" with
      | none =>
        refine ⟨.key "cik", ?_, rfl⟩
        rw [CikMapping.loadedEntry, subscript_some ticker?, subscript_none cik?]
        rfl
      | some cik =>
        cases name? : fields.lookup "name" with
        | none =>
          cases numeric : numericCik cik with
          | false =>
            refine ⟨.value ("Invalid CIK: " ++ cik.repr python), ?_, numeric.symm⟩
            rw [CikMapping.loadedEntry, subscript_some ticker?, subscript_some cik?]
            simp only [bind, Except.bind, normalizeCik_not_numeric numeric]
          | true =>
            refine ⟨.key "name", ?_, numeric.symm⟩
            rw [CikMapping.loadedEntry, subscript_some ticker?, subscript_some cik?, subscript_none name?]
            simp only [bind, Except.bind, normalizeCik_digits (numericCik_iff.mp numeric)]
        | some name =>
          rw [ticker?, cik?, name?] at unsound
          dsimp only at unsound
          rw [loadedEntry_complete ticker? cik? name?]
          cases numeric : numericCik cik with
          | false =>
            rw [normalizeCik_not_numeric numeric]
            exact ⟨_, rfl, rfl⟩
          | true =>
            rw [normalizeCik_digits (numericCik_iff.mp numeric)]
            rw [numeric, Bool.and_true, Option.isSome_eq_false_iff, Option.isNone_iff_eq_none] at unsound
            rw [unsound]
            exact ⟨.type, rfl, rfl⟩
  | _ => exact ⟨.type, rfl, rfl⟩

/-- Every sound item makes an entry. -/
theorem entries_of_sound (python : Python) {items : List Json} (sound : ∀ item ∈ items, soundItem item = true) :
    ∃ entries, Dict.Entries (CikMapping.loadedEntry python) items entries := by
  induction items with
  | nil => exact ⟨[], .nil⟩
  | cons item items ih =>
    obtain ⟨entry, listed⟩ := listed_of_sound python (sound item List.mem_cons_self)
    obtain ⟨entries, read⟩ := ih fun item member => sound item (List.mem_cons_of_mem _ member)
    exact ⟨entry :: entries, .cons (loadedEntry_listed listed) read⟩

/-- Only a listed company makes an entry. -/
theorem listed_of_entry {entry : Key × CompanyRecord} (read : CikMapping.loadedEntry python item = .ok entry) :
    Listed python item entry := by
  cases sound : soundItem item with
  | true =>
    obtain ⟨entry', listed⟩ := listed_of_sound python sound
    cases Except.ok.inj ((loadedEntry_listed listed).symm.trans read)
    exact listed
  | false =>
    obtain ⟨exc, fails, _⟩ := loadedEntry_error python sound
    exact nomatch fails.symm.trans read

end Item

/-! ### The document -/

/-- What the loader makes of a document: the companies and the time of the last refresh. -/
def digest (python : Python) (loaded : Except Exc Json) : Except Exc (Dict Key CompanyRecord × Json) := do
  let raw ← loaded
  let companies ← raw.get "companies" (.arr [])
  let items ← companies.iterate
  let records ← Dict.comprehend (CikMapping.loadedEntry python) items
  let refreshedAt ← raw.get "refreshed_at" (.float .zero)
  return (records, refreshedAt)

theorem digest_ok {loaded : Except Exc Json} {records : Dict Key CompanyRecord} {refreshedAt : Json}
    (digested : digest python loaded = .ok (records, refreshedAt)) :
    ∃ raw companies items, loaded = .ok raw ∧ raw.get "companies" (.arr []) = .ok companies ∧
      companies.iterate = .ok items ∧ Dict.comprehend (CikMapping.loadedEntry python) items = .ok records ∧
      raw.get "refreshed_at" (.float .zero) = .ok refreshedAt := by
  obtain ⟨raw, loaded, digested⟩ := ok_of_bind digested
  obtain ⟨companies, given, digested⟩ := ok_of_bind digested
  obtain ⟨items, iterated, digested⟩ := ok_of_bind digested
  obtain ⟨records, comprehended, digested⟩ := ok_of_bind digested
  obtain ⟨refreshedAt, dated, digested⟩ := ok_of_bind digested
  cases digested
  exact ⟨raw, companies, items, loaded, given, iterated, comprehended, dated⟩

/-- The document raises nothing that is not caught, and what is loaded from it has a numeric time. -/
def Digests (python : Python) (loaded : Except Exc Json) : Prop :=
  match digest python loaded with
  | .error exc => CikMapping.caughtOnLoad exc = true
  | .ok (records, refreshedAt) => 0 < records.size → numericTime refreshedAt = true

theorem digest_items {fields : List (String × Json)} {companies : Json} {items : List Json}
    (given : (fields.lookup "companies").getD (.arr []) = companies) (iterated : companies.iterate = .ok items) :
    digest python (.ok (.obj fields)) =
      (Dict.comprehend (CikMapping.loadedEntry python) items).map fun records =>
        (records, (fields.lookup "refreshed_at").getD (.float .zero)) := by
  have companies : (Json.obj fields).get "companies" (.arr []) = .ok companies := congrArg Except.ok given
  have read : digest python (.ok (.obj fields)) = (do
      let companies ← (Json.obj fields).get "companies" (.arr [])
      let items ← companies.iterate
      let records ← Dict.comprehend (CikMapping.loadedEntry python) items
      return (records, (fields.lookup "refreshed_at").getD (.float .zero))) := rfl
  rw [read, companies]
  simp only [bind, Except.bind, iterated]
  cases Dict.comprehend (CikMapping.loadedEntry python) items <;> rfl

/-- An item that is neither sound nor incomplete ends the constructor. -/
theorem digests_unsound {fields : List (String × Json)} {companies : Json} {items : List Json} {item : Json}
    (given : (fields.lookup "companies").getD (.arr []) = companies) (iterated : companies.iterate = .ok items)
    (found : items.find? (fun item => !soundItem item) = some item) :
    Digests python (.ok (.obj fields)) ↔ incompleteItem item = true := by
  obtain ⟨unsound, before, rest, rfl, sound⟩ := List.find?_eq_some_iff_append.mp found
  obtain ⟨entries, read⟩ := entries_of_sound python (fun item member => by simpa using sound item member)
  have unsound : soundItem item = false := by simpa using unsound
  obtain ⟨exc, fails, caught⟩ := loadedEntry_error python unsound
  unfold Digests
  rw [digest_items given iterated, Dict.comprehend_error read fails, ← caught]
  exact Iff.rfl

/-- Without items nothing is loaded. -/
theorem digests_none {fields : List (String × Json)} {companies : Json}
    (given : (fields.lookup "companies").getD (.arr []) = companies) (iterated : companies.iterate = .ok []) :
    Digests python (.ok (.obj fields)) := by
  unfold Digests
  rw [digest_items given iterated]
  exact fun filled => absurd filled (Nat.lt_irrefl 0)

theorem digest_type {fields : List (String × Json)} {companies : Json}
    (given : (fields.lookup "companies").getD (.arr []) = companies) (refused : companies.iterate = .error .type) :
    digest python (.ok (.obj fields)) = .error .type := by
  have companies : (Json.obj fields).get "companies" (.arr []) = .ok companies := congrArg Except.ok given
  have read : digest python (.ok (.obj fields)) = (do
      let companies ← (Json.obj fields).get "companies" (.arr [])
      let items ← companies.iterate
      let records ← Dict.comprehend (CikMapping.loadedEntry python) items
      return (records, (fields.lookup "refreshed_at").getD (.float .zero))) := rfl
  rw [read, companies]
  simp only [bind, Except.bind, refused]

/-- Sound items are all loaded, which needs a numeric time unless there are none. -/
theorem digests_sound {fields : List (String × Json)} {items : List Json}
    (given : (fields.lookup "companies").getD (.arr []) = .arr items)
    (sound : ∀ item ∈ items, soundItem item = true) :
    Digests python (.ok (.obj fields)) ↔
      (items.isEmpty || numericTime ((fields.lookup "refreshed_at").getD (.float .zero))) = true := by
  obtain ⟨entries, read⟩ := entries_of_sound python sound
  have filled : 0 < (Dict.ofEntries entries).size ↔ items.isEmpty = false := by
    rw [Dict.size_ofEntries_pos]
    cases read with
    | nil => exact iff_of_false (fun some' => some' rfl) nofun
    | cons _ _ => exact iff_of_true (List.cons_ne_nil _ _) rfl
  unfold Digests
  rw [digest_items given rfl, Dict.comprehend_ok read, Bool.or_eq_true]
  constructor
  · intro digests
    by_cases nothing : items.isEmpty = true
    · exact .inl nothing
    · exact .inr (digests (filled.mpr (Bool.eq_false_of_not_eq_true nothing)))
  · exact fun starts nonempty => starts.resolve_left (ne_true_of_eq_false (filled.mp nonempty))

theorem digests_iff (python : Python) {loaded : Except Exc Json} : Digests python loaded ↔ digestible loaded = true := by
  cases loaded with
  | error exc => exact Iff.rfl
  | ok raw =>
    cases raw with
    | obj fields =>
      have judged : digestible (.ok (.obj fields)) = digestibleCompanies
          ((fields.lookup "refreshed_at").getD (.float .zero)) ((fields.lookup "companies").getD (.arr [])) := rfl
      rw [judged]
      cases given : (fields.lookup "companies").getD (.arr []) with
      | arr items =>
        show _ ↔ digestibleItems _ items = true
        unfold digestibleItems
        cases found : items.find? (fun item => !soundItem item) with
        | some item => exact digests_unsound given rfl found
        | none => exact digests_sound given fun item member => by simpa using List.find?_eq_none.mp found item member
      | str text =>
        show _ ↔ text.toList.isEmpty = true
        cases characters : text.toList with
        | nil => exact iff_of_true (digests_none given (by rw [Json.iterate, characters]; rfl)) rfl
        | cons c rest =>
          have iterated : (Json.str text).iterate =
              .ok (.str (String.ofList [c]) :: rest.map fun c => .str (String.ofList [c])) := by
            rw [Json.iterate, characters, List.map_cons]
          exact (digests_unsound given iterated rfl).trans (iff_of_false Bool.false_ne_true Bool.false_ne_true)
      | obj inner =>
        cases inner with
        | nil => exact iff_of_true (digests_none given rfl) rfl
        | cons field rest =>
          exact (digests_unsound given rfl rfl).trans (iff_of_false Bool.false_ne_true Bool.false_ne_true)
      | _ =>
        refine iff_of_false ?_ Bool.false_ne_true
        unfold Digests
        rw [digest_type given rfl]
        exact Bool.false_ne_true
    | _ => exact iff_of_false Bool.false_ne_true Bool.false_ne_true

/-- What is loaded is the whole of the document. -/
theorem digest_full {loaded : Except Exc Json} {records : Dict Key CompanyRecord} {refreshedAt : Json}
    (digested : digest python loaded = .ok (records, refreshedAt)) (filled : 0 < records.size) :
    ∃ fields items entries, loaded = .ok (.obj fields) ∧ fields.lookup "companies" = some (.arr items) ∧
      List.Forall₂ (Listed python) items entries ∧ records = Dict.ofEntries entries ∧
      refreshedAt = (fields.lookup "refreshed_at").getD (.float .zero) := by
  obtain ⟨raw, companies, items, rfl, given, iterated, comprehended, dated⟩ := digest_ok digested
  obtain ⟨entries, read, rfl⟩ := Dict.comprehend_inv comprehended
  have nonempty := Dict.size_ofEntries_pos.mp filled
  cases raw with
  | obj fields =>
    have listed := read.imp fun _ _ => listed_of_entry
    have given := Except.ok.inj given
    refine ⟨fields, items, entries, rfl, ?_, listed, rfl, (Except.ok.inj dated).symm⟩
    -- The items of a text or of an object are texts, none of which is a company.
    have notTexts (texts : ∀ item ∈ items, ∃ text, item = .str text) : False := by
      cases read with
      | nil => exact nonempty rfl
      | cons first _ =>
        obtain ⟨text, rfl⟩ := texts _ List.mem_cons_self
        cases first
    cases companies with
    | arr items' =>
      obtain rfl := Except.ok.inj iterated
      cases stored : fields.lookup "companies" with
      | some companies =>
        rw [stored] at given
        exact congrArg some given
      | none =>
        rw [stored] at given
        cases given
        cases read
        exact absurd rfl nonempty
    | str text =>
      refine (notTexts fun item member => ?_).elim
      rw [← Except.ok.inj iterated] at member
      obtain ⟨c, _, rfl⟩ := List.mem_map.mp member
      exact ⟨_, rfl⟩
    | obj inner =>
      refine (notTexts fun item member => ?_).elim
      rw [← Except.ok.inj iterated] at member
      obtain ⟨field, _, rfl⟩ := List.mem_map.mp member
      exact ⟨_, rfl⟩
    | _ => cases iterated
  | _ => cases given

/-! ### The constructor -/

section Constructor

variable {env : Env} {disk : Disk} {mapping : CikMapping} {content : Model.Bytes} {path : String} {refreshSeconds : ℤ}

/-- The mapping after a document was digested. -/
def adopted (mapping : CikMapping) (records : Dict Key CompanyRecord) (refreshedAt : Json) : CikMapping :=
  if 0 < records.size then { mapping with byTicker := records, lastRefresh := refreshedAt } else mapping

theorem read_stored (stored : disk.files path = some content) (readable : env.fault (.read path) = none) :
    answer env (.read path) disk = (.ok content, disk) := by
  simp only [answer, stored, readable]

theorem path_stored (stored : disk.files path = some content) :
    answer env (.pathExists path) disk = (.ok true, disk) := by
  simp only [answer, stored, Option.isSome_some]

theorem load_digested {records : Dict Key CompanyRecord} {refreshedAt : Json}
    (stored : disk.files mapping.path = some content) (readable : env.fault (.read mapping.path) = none)
    (digested : digest python (python.loads content) = .ok (records, refreshedAt)) :
    Runs (answer env) (CikMapping.loadFromDisk python) mapping disk (.ok ()) (adopted mapping records refreshedAt)
      disk := by
  refine Runs.bind Runs.get (Runs.bind (Runs.answered (path_stored stored)) ?_)
  refine Runs.tryCatch (Runs.bind (Runs.answered (read_stored stored readable)) ?_)
  obtain ⟨raw, companies, items, loaded, given, iterated, comprehended, dated⟩ := digest_ok digested
  refine Runs.bind (Runs.lift loaded) (Runs.bind (Runs.lift given) (Runs.bind (Runs.lift iterated)
    (Runs.bind (Runs.lift comprehended) ?_)))
  unfold adopted
  by_cases filled : 0 < records.size
  · rw [if_pos filled, if_pos filled]
    exact Runs.bind Runs.modify (Runs.bind (Runs.lift dated) Runs.modify)
  · rw [if_neg filled, if_neg filled]
    exact Runs.pure

/-- A document that is not digested leaves the mapping as it is. -/
theorem load_undigested {exc : Exc} (stored : disk.files mapping.path = some content)
    (readable : env.fault (.read mapping.path) = none) (digested : digest python (python.loads content) = .error exc) :
    Runs (answer env) (CikMapping.loadFromDisk python) mapping disk
      (if CikMapping.caughtOnLoad exc then .ok () else .error exc) mapping disk := by
  have handled : Runs (answer env) (if CikMapping.caughtOnLoad exc then pure () else throw exc : Method Unit) mapping
      disk (if CikMapping.caughtOnLoad exc then .ok () else .error exc) mapping disk := by
    split_ifs <;> rfl
  refine Runs.bind Runs.get (Runs.bind (Runs.answered (path_stored stored)) ?_)
  refine Runs.caught (Runs.bind (Runs.answered (read_stored stored readable)) ?_) handled
  rcases error_of_bind digested with loaded | ⟨raw, loaded, digested⟩
  · exact Runs.bind_error (Runs.lift_error loaded)
  refine Runs.bind (Runs.lift loaded) ?_
  rcases error_of_bind digested with given | ⟨companies, given, digested⟩
  · exact Runs.bind_error (Runs.lift_error given)
  refine Runs.bind (Runs.lift given) ?_
  rcases error_of_bind digested with iterated | ⟨items, iterated, digested⟩
  · exact Runs.bind_error (Runs.lift_error iterated)
  refine Runs.bind (Runs.lift iterated) ?_
  rcases error_of_bind digested with comprehended | ⟨records, _, digested⟩
  · exact Runs.bind_error (Runs.lift_error comprehended)
  rcases error_of_bind digested with dated | ⟨refreshedAt, _, digested⟩
  · cases raw with
    | obj fields => cases dated
    | _ => cases given
  · cases digested

theorem init_runs (python : Python) (refreshSeconds : ℤ) (stored : disk.files path = some content)
    (readable : env.fault (.read path) = none) :
    Runs (answer env) (CikMapping.init python path refreshSeconds) () disk
      (match digest python (python.loads content) with
      | .ok (records, refreshedAt) => .ok (adopted (.seeded path refreshSeconds) records refreshedAt)
      | .error exc => if CikMapping.caughtOnLoad exc then .ok (.seeded path refreshSeconds) else .error exc)
      () disk := by
  cases digested : digest python (python.loads content) with
  | ok loaded =>
    have loaded := @load_digested python env disk (.seeded path refreshSeconds) content _ _ stored readable digested
    exact Runs.bind (Runs.own loaded) Runs.pure
  | error exc =>
    have loaded := @load_undigested python env disk (.seeded path refreshSeconds) content _ stored readable digested
    dsimp only
    cases caught : CikMapping.caughtOnLoad exc with
    | true =>
      rw [caught] at loaded
      exact Runs.bind (Runs.own loaded) Runs.pure
    | false =>
      rw [caught] at loaded
      exact Runs.bind_error (Runs.own_error loaded)

theorem needsRefresh_runs {result : Except Exc Bool} (aged : mapping.needsRefreshAt (env.clock disk.readings) = result) :
    Runs (answer env) CikMapping.needsRefresh mapping disk result mapping
      { disk with readings := disk.readings + 1 } :=
  aged ▸ Runs.bind (Runs.await rfl) (Runs.bind Runs.get rfl)

/-- The age of a mapping can be computed at any time if the time of its last refresh is numeric. -/
theorem needsRefreshAt_ok (mapping : CikMapping) (now : Reading) :
    (∃ stale, mapping.needsRefreshAt now = .ok stale) ↔ numericTime mapping.lastRefresh = true := by
  have since (last : ℤ) : (∃ stale, (CikMapping.elapsed.elapsedSince now last).map
      (CikMapping.exceeds mapping.refreshSeconds) = .ok stale) ↔ |(last : ℚ)| < overflow := by
    unfold CikMapping.elapsed.elapsedSince Binary64.ofInt?
    split_ifs with inRange
    · exact iff_of_true ⟨_, rfl⟩ inRange
    · exact iff_of_false (by rintro ⟨_, ⟨⟩⟩) inRange
  unfold CikMapping.needsRefreshAt
  cases mapping.lastRefresh with
  | float last => exact iff_of_true ⟨_, rfl⟩ rfl
  | int last => exact (since last).trans decide_eq_true_iff.symm
  | bool last =>
    refine iff_of_true ((since _).mpr ?_) rfl
    cases last <;> decide +kernel
  | _ => exact iff_of_false (by rintro ⟨_, ⟨⟩⟩) Bool.false_ne_true

end Constructor

/-- The content of the file lets the service start exactly when it is digestible. -/
theorem starts_exact (python : Python) (content : Model.Bytes) :
    ServiceStarts python content ↔ digestible (python.loads content) = true := by
  rw [← digests_iff python]
  constructor
  · intro starts
    obtain ⟨mapping, disk', constructed, _, stale, mapping', disk'', aged⟩ :=
      starts "cik_mapping.json" 0 (.sample (.error .other) fun _ => none) ⟨fun _ => some content, 0⟩ rfl rfl
    have computed := constructed.symm.trans (init_runs python 0 rfl rfl)
    unfold Digests
    cases digested : digest python (python.loads content) with
    | error exc =>
      rw [digested] at computed
      by_contra uncaught
      dsimp only at computed
      rw [if_neg uncaught] at computed
      cases computed
    | ok loaded =>
      rw [digested] at computed
      intro filled
      have same : mapping = adopted (.seeded "cik_mapping.json" 0) loaded.1 loaded.2 :=
        Except.ok.inj (Prod.ext_iff.mp (Prod.ext_iff.mp computed).1).1
      have aged := (Prod.ext_iff.mp (Prod.ext_iff.mp ((needsRefresh_runs rfl).symm.trans aged)).1).1
      have aged := (needsRefreshAt_ok _ _).mp ⟨stale, aged⟩
      rw [same, adopted, if_pos filled] at aged
      exact aged
  · intro digests path refreshSeconds env disk stored readable
    have constructed := init_runs python refreshSeconds stored readable
    have seeded : numericTime (CikMapping.seeded path refreshSeconds).lastRefresh = true := rfl
    unfold Digests at digests
    cases digested : digest python (python.loads content) with
    | error exc =>
      rw [digested] at digests constructed
      dsimp only at digests constructed
      rw [if_pos digests] at constructed
      obtain ⟨stale, aged⟩ := (needsRefreshAt_ok _ (env.clock disk.readings)).mpr seeded
      exact ⟨_, disk, constructed, .inl ⟨rfl, rfl⟩, stale, _, _, needsRefresh_runs aged⟩
    | ok loaded =>
      rw [digested] at digests constructed
      dsimp only at digests constructed
      unfold adopted at constructed
      by_cases filled : 0 < loaded.1.size
      · rw [if_pos filled] at constructed
        have loadedWhole := digest_full digested filled
        obtain ⟨stale, aged⟩ := (needsRefreshAt_ok { CikMapping.seeded path refreshSeconds with
          byTicker := loaded.1, lastRefresh := loaded.2 } (env.clock disk.readings)).mpr (digests filled)
        exact ⟨_, disk, constructed, .inr loadedWhole, stale, _, _, needsRefresh_runs aged⟩
      · rw [if_neg filled] at constructed
        obtain ⟨stale, aged⟩ := (needsRefreshAt_ok _ (env.clock disk.readings)).mpr seeded
        exact ⟨_, disk, constructed, .inl ⟨rfl, rfl⟩, stale, _, _, needsRefresh_runs aged⟩

/-- A file that holds `null` stops the service: `raw.get` raises an `AttributeError`, which nothing catches. -/
theorem null_stops : ¬ ServiceStarts (.sample [] .null) [0x6E, 0x75, 0x6C, 0x6C] := by
  intro starts
  obtain ⟨mapping, disk', constructed, _⟩ :=
    starts "cik_mapping.json" 86400 (.sample (.error .other) fun _ => none)
      ⟨fun _ => some [0x6E, 0x75, 0x6C, 0x6C], 0⟩ rfl rfl
  have digested : digest (.sample [] .null) (.ok .null) = .error .attribute := rfl
  have computed := constructed.symm.trans (@init_runs _ _ [0x6E, 0x75, 0x6C, 0x6C] _ _ 86400 rfl rfl)
  have read : (Python.sample [] .null).loads [0x6E, 0x75, 0x6C, 0x6C] = .ok .null := rfl
  rw [read, digested] at computed
  cases computed

end Quartr.Soundness
