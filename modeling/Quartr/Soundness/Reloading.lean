import Quartr.Soundness.Refreshing

/-! # A refreshed mapping and the one loaded from its file

What `refresh` saves is loaded again as it was: every record is saved under its own ticker with a CIK that is
its own normal form, so the companies of the document are the entries of the dictionary.
-/

namespace Quartr.Soundness

open Quartr.Data Quartr.Machine Quartr.Model.Mapping Quartr.Numeric
open Quartr.Machine.Coroutine (Runs)

variable {python : Python}

/-! ### What the payload says of a query -/

/-- The upper-cased ticker of an entry of the payload. -/
def entryTicker (python : Python) : Json → Option String
  | .obj fields => (fields.lookup "ticker").map fun ticker => python.upper (ticker.text python)
  | _ => none

/-- The record of the last entry whose upper-cased ticker is the upper-cased query: its title, and a CIK of
the same value. -/
def FromLastEntry (python : Python) (payload : List (String × Json)) (query : String)
    (resolved : Except CikMapping.TickerNotFoundError CompanyRecord) : Prop :=
  match (payload.map Prod.snd).reverse.find? fun entry => entryTicker python entry = some (python.upper query) with
  | none => resolved = .error ⟨"Unknown ticker: " ++ query⟩
  | some entry => ∃ fields cik number record, entry = .obj fields ∧ resolved = .ok record ∧
      record.ticker = .str (python.upper query) ∧ fields.lookup "title" = some record.name ∧
      fields.lookup "cik_str" = some cik ∧ cikNumber? cik = some number ∧ numeral? 0 record.cik.toList = some number

theorem Announced.entryTicker {item : Json} {entry : Key × CompanyRecord} (announced : Announced python item entry) :
    ∃ ticker, Soundness.entryTicker python item = some ticker ∧ entry.1 = .str ticker ∧
      entry.2.ticker = .str ticker := by
  obtain ⟨fields, ticker, cik, rfl, ticker?, _, _, _, key, upper⟩ := announced
  exact ⟨python.upper (ticker.text python), congrArg (Option.map _) ticker?, key, upper⟩

/-- Looking a ticker up in the entries finds the first item with this ticker. -/
theorem lookup_announced {items : List Json} {entries : List (Key × CompanyRecord)} (ticker : String)
    (announced : List.Forall₂ (Announced python) items entries) :
    match items.find? fun item => entryTicker python item = some ticker with
    | none => entries.lookup (.str ticker) = none
    | some item =>
      ∃ record, entries.lookup (.str ticker) = some record ∧ Announced python item (.str ticker, record) := by
  induction announced with
  | nil => rfl
  | @cons item entry items entries first rest ih =>
    rcases entry with ⟨key, record⟩
    obtain ⟨ticker', found, key', _⟩ := first.entryTicker
    obtain rfl : key = .str ticker' := key'
    by_cases same : ticker' = ticker
    · subst same
      have here : (item :: items).find? (fun item => entryTicker python item = some ticker') = some item :=
        List.find?_cons_of_pos (decide_eq_true found)
      rw [here]
      exact ⟨record, List.lookup_cons_self, first⟩
    · have behind : (item :: items).find? (fun item => entryTicker python item = some ticker) =
          items.find? fun item => entryTicker python item = some ticker := by
        refine List.find?_cons_of_neg ?_
        rw [found, decide_eq_true_iff, Option.some_inj]
        exact same
      have skipped : ((Key.str ticker', record) :: entries).lookup (.str ticker) = entries.lookup (.str ticker) := by
        have differs : (Key.str ticker == Key.str ticker') = false :=
          beq_false_of_ne fun keys => same (Key.str.inj keys).symm
        rw [List.lookup_cons, differs]
      rw [behind, skipped]
      exact ih

/-! ### The accepted payload -/

section Accepted

variable {env : Env} {disk disk' : Disk} {mapping mapping' : CikMapping} {payload : List (String × Json)}

/-- An accepted payload with an entry is in order. -/
theorem announced_of_accepted
    (accepted : Runs (answer env) (CikMapping.refresh python) mapping disk (.ok ()) mapping' disk')
    (received : env.tickers = .ok (.obj payload)) :
    ∃ entries, List.Forall₂ (Announced python) (payload.map Prod.snd) entries := by
  rcases Dict.entries_or_error (CikMapping.refreshedEntry python) (payload.map Prod.snd) with ⟨entries, read⟩ |
    ⟨before, item, rest, entries, exc, items, read, fails⟩
  · exact ⟨entries, read.imp fun _ _ => refreshedEntry_iff.mp⟩
  · have got : answer env .getTickers disk = (.ok (.obj payload), disk) := tickers_answered received
    have comprehended : Dict.comprehend (CikMapping.refreshedEntry python) (before ++ item :: rest) = .error exc :=
      Dict.comprehend_error read fails
    rw [← items] at comprehended
    have failed : Runs (answer env) (CikMapping.refresh python) mapping disk (.error exc) mapping disk :=
      Runs.bind (Runs.answered got) (Runs.bind (Runs.lift rfl) (Runs.bind_error (Runs.lift_error comprehended)))
    cases accepted.symm.trans failed

/-- What an accepted payload leaves: the renewed mapping, and its document in the file. -/
theorem accepted_saved (accepted : Runs (answer env) (CikMapping.refresh python) mapping disk (.ok ()) mapping' disk')
    (received : env.tickers = .ok (.obj payload)) (nonempty : payload ≠ []) :
    ∃ entries content, List.Forall₂ (Announced python) (payload.map Prod.snd) entries ∧
      mapping' = renewed mapping (Dict.ofEntries entries) (env.clock disk.readings) ∧
      python.dumps mapping'.document = .ok content ∧ disk'.files mapping.path = some content := by
  obtain ⟨entries, announced⟩ := announced_of_accepted accepted received
  have read : Payload python env.tickers (Dict.ofEntries entries) :=
    ⟨payload, entries, received, nonempty, announced, rfl⟩
  by_cases saved : ∃ content,
      Persists python env (renewed mapping (Dict.ofEntries entries) (env.clock disk.readings)) content
  · obtain ⟨content, persists⟩ := saved
    obtain ⟨disk'', ran, stored, _⟩ := save_succeeds { disk with readings := disk.readings + 1 } persists
    cases accepted.symm.trans (refresh_payload read ran)
    exact ⟨entries, content, announced, rfl, persists.dumped, stored⟩
  · obtain ⟨exc, disk'', ran, _⟩ := save_fails { disk with readings := disk.readings + 1 } saved
    cases accepted.symm.trans (refresh_payload read ran)

end Accepted

/-! ### Loading the document again -/

/-- A record that is saved as it is: under its ticker, with a CIK in normal form. -/
def SavedAsIs (python : Python) (entry : Key × CompanyRecord) : Prop :=
  entry.2.ticker.key? = some entry.1 ∧ normalizeCik python (.str entry.2.cik) = .ok entry.2.cik

theorem Announced.savedAsIs {item : Json} {entry : Key × CompanyRecord} (announced : Announced python item entry) :
    SavedAsIs python entry := by
  obtain ⟨fields, ticker, cik, _, _, _, numeric, _, key, upper⟩ := announced
  refine ⟨?_, normalizeCik_normalized numeric⟩
  rw [key, upper]
  rfl

theorem savedAsIs_of_announced {items : List Json} {entries : List (Key × CompanyRecord)}
    (announced : List.Forall₂ (Announced python) items entries) : ∀ entry ∈ entries, SavedAsIs python entry := by
  induction announced with
  | nil => nofun
  | cons first _ ih =>
    intro entry member
    rcases List.mem_cons.mp member with rfl | behind
    · exact first.savedAsIs
    · exact ih entry behind

theorem digest_document (mapping : CikMapping) (saved : ∀ entry ∈ mapping.byTicker.entries, SavedAsIs python entry) :
    digest python (.ok mapping.document) = .ok (mapping.byTicker, mapping.lastRefresh) := by
  have read : Dict.Entries (CikMapping.loadedEntry python) (mapping.byTicker.values.map fun c =>
      .obj [("ticker", c.ticker), ("cik", .str c.cik), ("name", c.name)]) mapping.byTicker.entries := by
    unfold Dict.Entries Dict.values
    rw [List.map_map, List.forall₂_map_left_iff, List.forall₂_same]
    intro entry member
    obtain ⟨key, numeric⟩ := saved entry member
    exact loadedEntry_listed ⟨_, _, rfl, rfl, key, rfl, numeric, rfl⟩
  unfold CikMapping.document
  rw [digest_items rfl rfl, Dict.comprehend_ok read, Dict.ofEntries_entries]
  rfl

/-- What is adopted from a renewed mapping is renewed in the same way. -/
theorem adopted_renewed {records : Dict Key CompanyRecord} (mapping reloaded : CikMapping) (now : Reading)
    (filled : 0 < records.size) :
    adopted reloaded (renewed mapping records now).byTicker (renewed mapping records now).lastRefresh =
      renewed reloaded records now :=
  if_pos filled

section Reload

variable {env : Env} {disk disk' : Disk} {mapping mapping' : CikMapping} {payload : List (String × Json)}

theorem resolve_announced {entries : List (Key × CompanyRecord)} (now : Reading)
    (announced : List.Forall₂ (Announced python) (payload.map Prod.snd) entries) (query : String) :
    FromLastEntry python payload query ((renewed mapping (Dict.ofEntries entries) now).resolve python query) := by
  have last := lookup_announced (python.upper query) (List.forall₂_reverse_iff.mpr announced)
  have found : (Dict.ofEntries entries).get? (.str (python.upper query)) =
      entries.reverse.lookup (.str (python.upper query)) :=
    Dict.get?_ofEntries entries _
  unfold FromLastEntry
  unfold CikMapping.resolve renewed
  rw [found]
  cases item : (payload.map Prod.snd).reverse.find? fun entry =>
    entryTicker python entry = some (python.upper query) with
  | none =>
    rw [item] at last
    dsimp only at last ⊢
    rw [last]
  | some entry =>
    rw [item] at last
    obtain ⟨record, stored, fields, ticker, cik, rfl, _, cik?, numeric, title?, key, upper⟩ := last
    obtain ⟨number, value, value'⟩ := normalizeCik_value numeric
    dsimp only
    rw [stored]
    exact ⟨fields, cik, number, record, rfl, rfl, upper.trans (congrArg Json.str (Key.str.inj key).symm), title?, cik?,
      value, value'⟩

/-- After a refresh that accepted a payload with an entry, the mapping built from the file has the time and
the records of the refreshed one, and these are the payload's last entries. -/
theorem reload_lossless (env' : Env) (refreshSeconds : ℤ)
    (accepted : Runs (answer env) (CikMapping.refresh python) mapping disk (.ok ()) mapping' disk')
    (received : env.tickers = .ok (.obj payload)) (nonempty : payload ≠ [])
    (readable : env'.fault (.read mapping.path) = none)
    (roundTrip : ∀ content, python.dumps mapping'.document = .ok content →
      python.loads content = .ok mapping'.document) :
    ∃ reloaded,
      Runs (answer env') (CikMapping.init python mapping.path refreshSeconds) () disk' (.ok reloaded) () disk' ∧
      reloaded.lastRefresh = mapping'.lastRefresh ∧
      (∀ query, reloaded.resolve python query = mapping'.resolve python query) ∧
      ∀ query, FromLastEntry python payload query (mapping'.resolve python query) := by
  obtain ⟨entries, content, announced, rfl, dumped, stored⟩ := accepted_saved accepted received nonempty
  have saved : ∀ entry ∈ (Dict.ofEntries entries).entries, SavedAsIs python entry :=
    fun entry member => savedAsIs_of_announced announced entry (Dict.mem_ofEntries member)
  have digested := digest_document (renewed mapping (Dict.ofEntries entries) (env.clock disk.readings)) saved
  have constructed := init_runs python refreshSeconds stored readable
  rw [roundTrip content dumped, digested] at constructed
  dsimp only at constructed
  rw [adopted_renewed _ _ _ (records_pos nonempty announced)] at constructed
  exact ⟨_, constructed, rfl, fun query => rfl, resolve_announced _ announced⟩

/-- SEC lists a company twice: with a lower-case ticker first, and its CIK as text with leading zeros. -/
def repeatedCompany : List (String × Json) :=
  [("0", .obj [("cik_str", .str "0000789019"), ("ticker", .str "msft"), ("title", .str "Microsoft")]),
    ("1", .obj [("cik_str", .int 320193), ("ticker", .str "Aapl"), ("title", .str "Apple Inc.")]),
    ("2", .obj [("cik_str", .str "000789019"), ("ticker", .str "MSFT"), ("title", .str "MICROSOFT CORP")])]

/-- Its entries, as they are recorded. -/
def recordedCompanies : List (Key × CompanyRecord) :=
  [(.str "MSFT", ⟨.str "MSFT", "0000789019", .str "Microsoft"⟩),
    (.str "AAPL", ⟨.str "AAPL", "0000320193", .str "Apple Inc."⟩),
    (.str "MSFT", ⟨.str "MSFT", "0000789019", .str "MICROSOFT CORP"⟩)]

/-- The text of the document: the last entry of the company is in its first place. -/
def recordedText : Model.Bytes :=
  ("\x7b\n  \"refreshed_at\": 1754500000.0,\n  \"companies\": [\n    \x7b\n      \"ticker\": \"MSFT\",\n" ++
    "      \"cik\": \"0000789019\",\n      \"name\": \"MICROSOFT CORP\"\n    \x7d,\n    \x7b\n" ++
    "      \"ticker\": \"AAPL\",\n      \"cik\": \"0000320193\",\n      \"name\": \"Apple Inc.\"\n" ++
    "    \x7d\n  ]\n\x7d").toList.map fun c => c.toNat.toUInt8

/-- The mapping of the process once it is refreshed. -/
def recordedMapping : CikMapping :=
  renewed (.seeded "/data/cik_mapping.json" 86400) (Dict.ofEntries recordedCompanies) .sample

theorem recordedCompanies_announced :
    List.Forall₂ (Announced (.sample recordedText recordedMapping.document)) (repeatedCompany.map Prod.snd)
      recordedCompanies := by
  have announced {cik title : Json} {ticker upper number : String}
      (numeric : numericCik cik = true)
      (padded : Model.Text.zfill 10 (String.ofList (significant
        (cik.text (.sample recordedText recordedMapping.document)).toList)) = number)
      (uppercase : Model.Text.upper ticker = upper) :
      Announced (.sample recordedText recordedMapping.document)
        (.obj [("cik_str", cik), ("ticker", .str ticker), ("title", title)])
        (.str upper, ⟨.str upper, number, title⟩) := by
    have normalized := (normalizeCik_digits (numericCik_iff.mp numeric)).trans (congrArg Except.ok padded)
    exact ⟨_, _, _, rfl, rfl, rfl, normalized, rfl, congrArg Key.str uppercase.symm, congrArg Json.str uppercase.symm⟩
  refine .cons (announced ?_ ?_ ?_) (.cons (announced ?_ ?_ ?_) (.cons (announced ?_ ?_ ?_) .nil))
  all_goals decide +kernel

/-- A refresh that repeats a company, and the mapping loaded after it. -/
theorem reload_lossless_company :
    ∃ disk' reloaded,
      Runs (answer (.sample (.ok (.obj repeatedCompany)) fun _ => none))
        (CikMapping.refresh (.sample recordedText recordedMapping.document))
        (.seeded "/data/cik_mapping.json" 86400) ⟨fun _ => none, 0⟩ (.ok ()) recordedMapping disk' ∧
      Runs (answer (.sample (.ok (.obj repeatedCompany)) fun _ => none))
        (CikMapping.init (.sample recordedText recordedMapping.document) "/data/cik_mapping.json" 86400) () disk'
        (.ok reloaded) () disk' ∧
      reloaded.lastRefresh = recordedMapping.lastRefresh ∧
      ∀ query, reloaded.resolve (.sample recordedText recordedMapping.document) query =
        recordedMapping.resolve (.sample recordedText recordedMapping.document) query := by
  have payload : Payload (.sample recordedText recordedMapping.document) (.ok (.obj repeatedCompany))
      (Dict.ofEntries recordedCompanies) :=
    ⟨_, _, rfl, List.cons_ne_nil _ _, recordedCompanies_announced, rfl⟩
  have persists : Persists (.sample recordedText recordedMapping.document)
      (.sample (.ok (.obj repeatedCompany)) fun _ => none) recordedMapping recordedText := ⟨rfl, rfl, rfl, rfl, rfl⟩
  obtain ⟨disk', saved, _⟩ := save_succeeds ⟨fun _ => none, 1⟩ persists
  have accepted : Runs (answer (.sample (.ok (.obj repeatedCompany)) fun _ => none))
      (CikMapping.refresh (.sample recordedText recordedMapping.document)) (.seeded "/data/cik_mapping.json" 86400)
      ⟨fun _ => none, 0⟩ (.ok ()) recordedMapping disk' := refresh_payload payload saved
  obtain ⟨reloaded, constructed, time, lookups, _⟩ :=
    reload_lossless (.sample (.ok (.obj repeatedCompany)) fun _ => none) 86400 accepted rfl (List.cons_ne_nil _ _) rfl
      fun _ _ => rfl
  exact ⟨disk', reloaded, accepted, constructed, time, lookups⟩

end Reload

end Quartr.Soundness
