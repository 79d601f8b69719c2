import Quartr.Soundness.Loading

/-! # A refresh of the ticker mapping as a whole

`refresh` changes the mapping in memory before it saves it, and `ensure_fresh` swallows what the saving
raises. The mapping, its time and its file change together exactly when the saving succeeds, up to
coincidences.
-/

namespace Quartr.Soundness

open Quartr.Data Quartr.Machine Quartr.Model.Mapping Quartr.Numeric
open Quartr.Machine.Coroutine (Runs)

variable {python : Python}

/-! ### What a refresh may leave -/

/-- The entry of a company in the payload: under its upper-cased ticker, with its CIK normalized. -/
def Announced (python : Python) (item : Json) (entry : Key × CompanyRecord) : Prop :=
  ∃ fields ticker cik, item = .obj fields ∧ fields.lookup "ticker" = some ticker ∧
    fields.lookup "cik_str" = some cik ∧ normalizeCik python cik = .ok entry.2.cik ∧
    fields.lookup "title" = some entry.2.name ∧
    entry.1 = .str (python.upper (ticker.text python)) ∧ entry.2.ticker = .str (python.upper (ticker.text python))

/-- SEC answers with a payload of at least one entry, all of which are in order, and these are its records. -/
def Payload (python : Python) (tickers : Except Exc Json) (records : Dict Key CompanyRecord) : Prop :=
  ∃ fields entries, tickers = .ok (.obj fields) ∧ fields ≠ [] ∧
    List.Forall₂ (Announced python) (fields.map Prod.snd) entries ∧ records = Dict.ofEntries entries

/-- The mapping, its time and its file are the ones from before. -/
structure MappingKept (mapping : CikMapping) (disk : Disk) (mapping' : CikMapping) (disk' : Disk) : Prop where
  byTicker : mapping'.byTicker = mapping.byTicker
  lastRefresh : mapping'.lastRefresh = mapping.lastRefresh
  file : disk'.files mapping.path = disk.files mapping.path

/-- The mapping, its time and its file are the ones of the complete payload, read at this time. -/
structure PayloadInstalled (python : Python) (env : Env) (now : Reading) (mapping mapping' : CikMapping) (disk' : Disk) :
    Prop where
  byTicker : Payload python env.tickers mapping'.byTicker
  lastRefresh : mapping'.lastRefresh = .float now.float
  file : ∃ content, python.dumps mapping'.document = .ok content ∧ disk'.files mapping.path = some content

/-- The mapping counts as stale from the last reading of the clock on. -/
def StillStale (env : Env) (mapping : CikMapping) (disk : Disk) : Prop :=
  ∀ now : Reading, (env.clock (disk.readings - 1)).1 ≤ now.1 → mapping.needsRefreshAt now = .ok true

/-- The mapping is due for a refresh at the next reading of the clock. -/
def RefreshDue (env : Env) (mapping : CikMapping) (disk : Disk) : Prop :=
  mapping.needsRefreshAt (env.clock disk.readings) = .ok true

/-- `ensure_fresh` does not raise and changes everything or nothing; after an attempt that did not bring the
payload the mapping is still stale. -/
def AllOrNothing (python : Python) (env : Env) (mapping : CikMapping) (disk : Disk) : Prop :=
  ∃ mapping' disk', Runs (answer env) (CikMapping.ensureFresh python) mapping disk (.ok ()) mapping' disk' ∧
    (MappingKept mapping disk mapping' disk' ∨
      PayloadInstalled python env (env.clock (disk.readings + 1)) mapping mapping' disk') ∧
    (RefreshDue env mapping disk →
      ¬ PayloadInstalled python env (env.clock (disk.readings + 1)) mapping mapping' disk' →
      StillStale env mapping' disk')

/-! ### When it holds -/

/-- The mapping in memory once the payload has been read. -/
def renewed (mapping : CikMapping) (records : Dict Key CompanyRecord) (now : Reading) : CikMapping :=
  { mapping with byTicker := records, lastRefresh := .float now.float }

/-- Every operation of the saving succeeds. -/
structure Persists (python : Python) (env : Env) (mapping : CikMapping) (content : Model.Bytes) : Prop where
  directory : env.fault (.makedirs mapping.directory) = none
  opened : env.fault (.openTruncate mapping.tmpPath) = none
  dumped : python.dumps mapping.document = .ok content
  written : env.fault (.write mapping.tmpPath content) = none
  replaced : env.fault (.replace mapping.tmpPath mapping.path) = none

/-- The last refresh has a numeric time; and if a payload is read, it is saved, unless the file has the very
document already, or the mapping has the very records and time and any age counts as stale. -/
def RefreshKeeps (python : Python) (env : Env) (mapping : CikMapping) (disk : Disk) : Prop :=
  numericTime mapping.lastRefresh = true ∧
    ∀ records, RefreshDue env mapping disk → Payload python env.tickers records →
      (∃ content, Persists python env (renewed mapping records (env.clock (disk.readings + 1))) content) ∨
      (∃ content, python.dumps (renewed mapping records (env.clock (disk.readings + 1))).document = .ok content ∧
        disk.files mapping.path = some content) ∨
      mapping.refreshSeconds < 0 ∧ mapping.byTicker = records ∧
        mapping.lastRefresh = .float (env.clock (disk.readings + 1)).float

/-! ### The saving -/

section Saving

variable {env : Env} {disk : Disk} {mapping : CikMapping} {content : Model.Bytes}

theorem mapping_tmpPath_ne (mapping : CikMapping) : mapping.tmpPath ≠ mapping.path := by
  intro same
  have lengths := congrArg (fun path : String => path.toList.length) same
  simp [CikMapping.tmpPath] at lengths

theorem attempt_fine {α : Type} {fault : Option Exc} {failed done : α} (fine : fault = none) :
    attempt fault failed done = (.ok (), done) := by
  rw [fine, attempt]

theorem attempt_faulty {α : Type} {fault : Option Exc} {failed done : α} {exc : Exc} (faulty : fault = some exc) :
    attempt fault failed done = (.error exc, failed) := by
  rw [faulty, attempt]

theorem save_succeeds (disk : Disk) (persists : Persists python env mapping content) :
    ∃ disk', Runs (answer env) (CikMapping.saveToDisk python) mapping disk (.ok ()) mapping disk' ∧
      disk'.files mapping.path = some content ∧ disk'.readings = disk.readings := by
  have made : answer env (.makedirs mapping.directory) disk = (.ok (), disk) := attempt_fine persists.directory
  have opened : answer env (.openTruncate mapping.tmpPath) disk = (.ok (), disk.put mapping.tmpPath (some [])) :=
    attempt_fine persists.opened
  have written : answer env (.write mapping.tmpPath content) (disk.put mapping.tmpPath (some [])) =
      (.ok (), (disk.put mapping.tmpPath (some [])).put mapping.tmpPath (some content)) :=
    attempt_fine persists.written
  have stored : ((disk.put mapping.tmpPath (some [])).put mapping.tmpPath (some content)).files mapping.tmpPath =
      some content := Function.update_self ..
  have replaced : answer env (.replace mapping.tmpPath mapping.path)
      ((disk.put mapping.tmpPath (some [])).put mapping.tmpPath (some content)) =
      (.ok (), (((disk.put mapping.tmpPath (some [])).put mapping.tmpPath (some content)).put mapping.path
        (some content)).put mapping.tmpPath none) := by
    simp only [answer, persists.replaced, stored]
  refine ⟨_, Runs.bind Runs.get (Runs.bind (Runs.answered made) (Runs.bind (Runs.answered opened)
    (Runs.bind (Runs.lift persists.dumped) (Runs.bind (Runs.answered written) (Runs.answered replaced))))), ?_, rfl⟩
  exact (Function.update_of_ne (mapping_tmpPath_ne mapping).symm ..).trans (Function.update_self ..)

theorem save_fails (disk : Disk) (unsaved : ¬ ∃ content, Persists python env mapping content) :
    ∃ exc disk', Runs (answer env) (CikMapping.saveToDisk python) mapping disk (.error exc) mapping disk' ∧
      disk'.files mapping.path = disk.files mapping.path ∧ disk'.readings = disk.readings := by
  have elsewhere (disk : Disk) (content : Option Model.Bytes) :
      (disk.put mapping.tmpPath content).files mapping.path = disk.files mapping.path :=
    Function.update_of_ne (mapping_tmpPath_ne mapping).symm ..
  cases directory : env.fault (.makedirs mapping.directory) with
  | some exc =>
    have made : answer env (.makedirs mapping.directory) disk = (.error exc, disk) := attempt_faulty directory
    exact ⟨exc, disk, Runs.bind Runs.get (Runs.bind_error (Runs.refused made)), rfl, rfl⟩
  | none =>
  have made : answer env (.makedirs mapping.directory) disk = (.ok (), disk) := attempt_fine directory
  cases opened : env.fault (.openTruncate mapping.tmpPath) with
  | some exc =>
    have open' : answer env (.openTruncate mapping.tmpPath) disk = (.error exc, disk) := attempt_faulty opened
    exact ⟨exc, disk, Runs.bind Runs.get (Runs.bind (Runs.answered made) (Runs.bind_error (Runs.refused open'))),
      rfl, rfl⟩
  | none =>
  have open' : answer env (.openTruncate mapping.tmpPath) disk = (.ok (), disk.put mapping.tmpPath (some [])) :=
    attempt_fine opened
  cases dumped : python.dumps mapping.document with
  | error exc =>
    exact ⟨exc, _, Runs.bind Runs.get (Runs.bind (Runs.answered made) (Runs.bind (Runs.answered open')
      (Runs.bind_error (Runs.lift_error dumped)))), elsewhere disk _, rfl⟩
  | ok content =>
  cases written : env.fault (.write mapping.tmpPath content) with
  | some exc =>
    have write : answer env (.write mapping.tmpPath content) (disk.put mapping.tmpPath (some [])) =
        (.error exc, (disk.put mapping.tmpPath (some [])).put mapping.tmpPath (some env.torn)) :=
      attempt_faulty written
    exact ⟨exc, _, Runs.bind Runs.get (Runs.bind (Runs.answered made) (Runs.bind (Runs.answered open')
      (Runs.bind (Runs.lift dumped) (Runs.bind_error (Runs.refused write))))),
      (elsewhere _ _).trans (elsewhere disk _), rfl⟩
  | none =>
  have write : answer env (.write mapping.tmpPath content) (disk.put mapping.tmpPath (some [])) =
      (.ok (), (disk.put mapping.tmpPath (some [])).put mapping.tmpPath (some content)) := attempt_fine written
  cases replaced : env.fault (.replace mapping.tmpPath mapping.path) with
  | some exc =>
    have replace : answer env (.replace mapping.tmpPath mapping.path)
        ((disk.put mapping.tmpPath (some [])).put mapping.tmpPath (some content)) =
        (.error exc, (disk.put mapping.tmpPath (some [])).put mapping.tmpPath (some content)) := by
      simp only [answer, replaced]
    exact ⟨exc, _, Runs.bind Runs.get (Runs.bind (Runs.answered made) (Runs.bind (Runs.answered open')
      (Runs.bind (Runs.lift dumped) (Runs.bind (Runs.answered write) (Runs.refused replace))))),
      (elsewhere _ _).trans (elsewhere disk _), rfl⟩
  | none => exact (unsaved ⟨content, directory, opened, dumped, written, replaced⟩).elim

end Saving

/-! ### The payload -/

section Payload

variable {env : Env} {disk disk' : Disk} {mapping mapping' : CikMapping} {records : Dict Key CompanyRecord}

theorem subscript_ok {value field : Json} {name : String} (read : value.subscript name = .ok field) :
    ∃ fields, value = .obj fields ∧ fields.lookup name = some field := by
  cases value with
  | obj fields =>
    cases stored : fields.lookup name with
    | none => exact nomatch (subscript_none stored).symm.trans read
    | some field' =>
      exact ⟨fields, rfl, stored.trans (congrArg some (Except.ok.inj ((subscript_some stored).symm.trans read)))⟩
  | _ => cases read

theorem refreshedEntry_iff {item : Json} {entry : Key × CompanyRecord} :
    CikMapping.refreshedEntry python item = .ok entry ↔ Announced python item entry := by
  constructor
  · intro read
    obtain ⟨ticker, subscripted, read⟩ := ok_of_bind read
    obtain ⟨fields, rfl, ticker?⟩ := subscript_ok subscripted
    obtain ⟨cik, subscripted, read⟩ := ok_of_bind read
    obtain ⟨_, same, cik?⟩ := subscript_ok subscripted
    cases same
    obtain ⟨normalized, numeric, read⟩ := ok_of_bind read
    obtain ⟨name, subscripted, read⟩ := ok_of_bind read
    obtain ⟨_, same, name?⟩ := subscript_ok subscripted
    cases same
    cases read
    exact ⟨fields, ticker, cik, rfl, ticker?, cik?, numeric, name?, rfl, rfl⟩
  · rintro ⟨fields, ticker, cik, rfl, ticker?, cik?, numeric, name?, key, ticker'⟩
    rcases entry with ⟨key', ticker'', normalized, name⟩
    obtain rfl : key' = _ := key
    obtain rfl : ticker'' = _ := ticker'
    rw [CikMapping.refreshedEntry, subscript_some ticker?, subscript_some cik?, subscript_some name?]
    simp only [bind, Except.bind, numeric]
    rfl

theorem tickers_answered {received : Except Exc Json} (answered : env.tickers = received) :
    answer env .getTickers disk = (received, disk) := by
  simp only [answer, answered]

/-- A payload with an entry has a record. -/
theorem records_pos {fields : List (String × Json)} {entries : List (Key × CompanyRecord)} (nonempty : fields ≠ [])
    (announced : List.Forall₂ (Announced python) (fields.map Prod.snd) entries) : 0 < (Dict.ofEntries entries).size := by
  refine Dict.size_ofEntries_pos.mpr fun nothing => ?_
  rw [nothing] at announced
  exact nonempty (List.map_eq_nil_iff.mp (List.forall₂_nil_right_iff.mp announced))

/-- With a payload `refresh` renews the mapping in memory and comes to what the saving comes to. -/
theorem refresh_payload {result : Except Exc Unit} (payload : Payload python env.tickers records)
    (saved : Runs (answer env) (CikMapping.saveToDisk python) (renewed mapping records (env.clock disk.readings))
      { disk with readings := disk.readings + 1 } result mapping' disk') :
    Runs (answer env) (CikMapping.refresh python) mapping disk result mapping' disk' := by
  obtain ⟨fields, entries, received, nonempty, announced, rfl⟩ := payload
  have read : Dict.Entries (CikMapping.refreshedEntry python) (fields.map Prod.snd) entries :=
    announced.imp fun _ _ => refreshedEntry_iff.mpr
  refine Runs.bind (Runs.answered (tickers_answered received)) (Runs.bind (Runs.lift rfl) ?_)
  refine Runs.bind (Runs.lift (Dict.comprehend_ok read)) ?_
  rw [if_pos (records_pos nonempty announced)]
  exact Runs.bind Runs.modify (Runs.bind (Runs.answered rfl) (Runs.bind Runs.modify saved))

/-- Without one it changes nothing. -/
theorem refresh_none (mapping : CikMapping) (disk : Disk) (none' : ¬ ∃ records, Payload python env.tickers records) :
    ∃ result, Runs (answer env) (CikMapping.refresh python) mapping disk result mapping disk := by
  cases received : env.tickers with
  | error exc => exact ⟨_, Runs.bind_error (Runs.refused (tickers_answered received))⟩
  | ok data =>
  have got : answer env .getTickers disk = (.ok data, disk) := tickers_answered received
  cases valued : data.values with
  | error exc => exact ⟨_, Runs.bind (Runs.answered got) (Runs.bind_error (Runs.lift_error valued))⟩
  | ok values =>
  cases comprehended : Dict.comprehend (CikMapping.refreshedEntry python) values with
  | error exc =>
    exact ⟨_, Runs.bind (Runs.answered got) (Runs.bind (Runs.lift valued) (Runs.bind_error
      (Runs.lift_error comprehended)))⟩
  | ok records =>
  refine ⟨.ok (), Runs.bind (Runs.answered got) (Runs.bind (Runs.lift valued) ?_)⟩
  refine Runs.bind (Runs.lift comprehended) ?_
  have unfilled : ¬ 0 < records.size := by
    intro filled
    obtain ⟨entries, read, rfl⟩ := Dict.comprehend_inv comprehended
    cases data with
    | obj fields =>
      cases valued
      refine none' ⟨_, fields, entries, received, ?_, read.imp fun _ _ => refreshedEntry_iff.mp, rfl⟩
      rintro rfl
      cases read
      exact Nat.lt_irrefl 0 filled
    | _ => cases valued
  rw [if_neg unfilled]
  exact Runs.pure

end Payload

/-! ### The whole call -/

section Call

variable {env : Env} {disk disk' : Disk} {mapping mapping' : CikMapping}

theorem ensureFresh_due {result : Except Exc Unit} (due : RefreshDue env mapping disk)
    (refreshed : Runs (answer env) (CikMapping.refresh python) mapping { disk with readings := disk.readings + 1 } result
      mapping' disk') :
    Runs (answer env) (CikMapping.ensureFresh python) mapping disk (.ok ()) mapping' disk' := by
  refine Runs.bind (needsRefresh_runs due) ?_
  cases result with
  | ok value => exact Runs.tryCatch refreshed
  | error exc => exact Runs.caught refreshed Runs.pure

theorem ensureFresh_fresh (fresh : mapping.needsRefreshAt (env.clock disk.readings) = .ok false) :
    Runs (answer env) (CikMapping.ensureFresh python) mapping disk (.ok ()) mapping
      { disk with readings := disk.readings + 1 } :=
  Runs.bind (needsRefresh_runs fresh) Runs.pure

theorem ensureFresh_raises {exc : Exc} (raises : mapping.needsRefreshAt (env.clock disk.readings) = .error exc) :
    Runs (answer env) (CikMapping.ensureFresh python) mapping disk (.error exc) mapping
      { disk with readings := disk.readings + 1 } :=
  Runs.bind_error (needsRefresh_runs raises)

end Call

/-! ### Staleness -/

section Staleness

variable {mapping : CikMapping} {limit : ℤ}

theorem exceeds_ofRat {seconds : ℚ} :
    CikMapping.exceeds limit (.ofRat seconds) = true ↔
      if |seconds| < overflow then limit < seconds else 0 ≤ seconds := by
  unfold Binary64.ofRat
  by_cases inRange : |seconds| < overflow
  · rw [dif_pos inRange, if_pos inRange]
    exact decide_eq_true_iff
  · rw [dif_neg inRange, if_neg inRange]
    simp [CikMapping.exceeds]

/-- What exceeds a limit exceeds it when it grows. -/
theorem exceeds_mono {seconds seconds' : ℚ} (grown : seconds ≤ seconds')
    (exceeds : CikMapping.exceeds limit (.ofRat seconds) = true) :
    CikMapping.exceeds limit (.ofRat seconds') = true := by
  rw [exceeds_ofRat] at exceeds ⊢
  by_cases inRange : |seconds| < overflow
  · rw [if_pos inRange] at exceeds
    split_ifs with inRange'
    · exact exceeds.trans_le grown
    · by_contra negative
      have above := (abs_lt.mp inRange).1.trans_le grown
      exact inRange' (abs_lt.mpr ⟨above, (not_le.mp negative).trans (by decide +kernel)⟩)
  · rw [if_neg inRange] at exceeds
    have large : ¬ |seconds'| < overflow := by
      rw [abs_of_nonneg exceeds] at inRange
      rw [abs_of_nonneg (exceeds.trans grown)]
      exact fun small => inRange (grown.trans_lt small)
    rw [if_neg large]
    exact exceeds.trans grown

theorem sub_later {now later : Reading} (passed : now.1 ≤ later.1) {last : Binary64}
    (exceeds : CikMapping.exceeds limit (.sub now.float last) = true) :
    CikMapping.exceeds limit (.sub later.float last) = true := by
  cases last with
  | nan => cases exceeds
  | infinite negative => exact exceeds
  | finite value inRange =>
    unfold Reading.float at exceeds ⊢
    rw [Binary64.finite_sub] at exceeds ⊢
    exact exceeds_mono (sub_le_sub_right passed value) exceeds

/-- A stale mapping stays stale. -/
theorem stale_later {now later : Reading} (passed : now.1 ≤ later.1) (stale : mapping.needsRefreshAt now = .ok true) :
    mapping.needsRefreshAt later = .ok true := by
  have float {last : Binary64} (stale : (Except.ok (.sub now.float last) : Except Exc Binary64).map
      (CikMapping.exceeds mapping.refreshSeconds) = .ok true) :
      (Except.ok (.sub later.float last) : Except Exc Binary64).map (CikMapping.exceeds mapping.refreshSeconds) =
        .ok true :=
    congrArg Except.ok (sub_later passed (Except.ok.inj stale))
  have since {last : ℤ} (stale : (CikMapping.elapsed.elapsedSince now last).map
      (CikMapping.exceeds mapping.refreshSeconds) = .ok true) :
      (CikMapping.elapsed.elapsedSince later last).map (CikMapping.exceeds mapping.refreshSeconds) = .ok true := by
    unfold CikMapping.elapsed.elapsedSince at stale ⊢
    cases converted : Binary64.ofInt? last with
    | none =>
      rw [converted] at stale
      cases stale
    | some last =>
      rw [converted] at stale
      exact float stale
  unfold CikMapping.needsRefreshAt at stale ⊢
  cases refreshed : mapping.lastRefresh with
  | float last =>
    rw [refreshed] at stale
    exact float stale
  | int last =>
    rw [refreshed] at stale
    exact since stale
  | bool last =>
    rw [refreshed] at stale
    exact since stale
  | _ =>
    rw [refreshed] at stale
    cases stale

/-- A mapping refreshed just now is stale if any age is. -/
theorem stale_at_once (mapping : CikMapping) (records : Dict Key CompanyRecord) (now : Reading) :
    (renewed mapping records now).needsRefreshAt now = .ok true ↔ mapping.refreshSeconds < 0 := by
  have none' : Binary64.sub now.float now.float = .zero := by
    rw [Reading.float, Binary64.finite_sub, sub_self]
    rfl
  unfold CikMapping.needsRefreshAt renewed
  rw [CikMapping.elapsed, none']
  have zero : CikMapping.exceeds mapping.refreshSeconds .zero = true ↔ mapping.refreshSeconds < 0 := by
    refine exceeds_ofRat.trans ?_
    rw [if_pos (by decide +kernel), ← Int.cast_zero, Int.cast_lt]
  exact ⟨fun stale => zero.mp (Except.ok.inj stale), fun negative => congrArg Except.ok (zero.mpr negative)⟩

end Staleness

section Outcomes

variable {env : Env} {disk : Disk} {mapping : CikMapping} {records : Dict Key CompanyRecord} {content : Model.Bytes}

theorem fresh_saved (due : RefreshDue env mapping disk) (payload : Payload python env.tickers records)
    (persists : Persists python env (renewed mapping records (env.clock (disk.readings + 1))) content) :
    ∃ mapping' disk', Runs (answer env) (CikMapping.ensureFresh python) mapping disk (.ok ()) mapping' disk' ∧
      PayloadInstalled python env (env.clock (disk.readings + 1)) mapping mapping' disk' := by
  obtain ⟨disk', saved, stored, _⟩ := save_succeeds { disk with readings := disk.readings + 1 + 1 } persists
  exact ⟨_, disk', ensureFresh_due due (refresh_payload payload saved), payload, rfl, content, persists.dumped, stored⟩

/-- A failed saving leaves the renewed mapping in memory and the old file. -/
theorem fresh_unsaved (due : RefreshDue env mapping disk) (payload : Payload python env.tickers records)
    (unsaved : ¬ ∃ content, Persists python env (renewed mapping records (env.clock (disk.readings + 1))) content) :
    ∃ disk', Runs (answer env) (CikMapping.ensureFresh python) mapping disk (.ok ())
        (renewed mapping records (env.clock (disk.readings + 1))) disk' ∧
      disk'.files mapping.path = disk.files mapping.path ∧ disk'.readings = disk.readings + 2 := by
  obtain ⟨exc, disk', failed, file, readings⟩ :=
    save_fails { disk with readings := disk.readings + 1 + 1 } unsaved
  exact ⟨disk', ensureFresh_due due (refresh_payload payload failed), file, readings⟩

theorem fresh_without (due : RefreshDue env mapping disk) (none' : ¬ ∃ records, Payload python env.tickers records) :
    Runs (answer env) (CikMapping.ensureFresh python) mapping disk (.ok ()) mapping
      { disk with readings := disk.readings + 1 } := by
  obtain ⟨result, refreshed⟩ := refresh_none mapping { disk with readings := disk.readings + 1 } none'
  exact ensureFresh_due due refreshed

end Outcomes

/-- A call of `ensure_fresh` is all or nothing exactly when its refresh keeps together what it changes. -/
theorem refresh_exact (python : Python) (env : Env) (mapping : CikMapping) (disk : Disk) :
    AllOrNothing python env mapping disk ↔ RefreshKeeps python env mapping disk := by
  constructor
  · rintro ⟨mapping', disk', ran, together, retried⟩
    refine ⟨?_, fun records due payload => or_iff_not_imp_left.mpr fun unsaved => ?_⟩
    · cases aged : mapping.needsRefreshAt (env.clock disk.readings) with
      | ok stale => exact (needsRefreshAt_ok _ _).mp ⟨stale, aged⟩
      | error exc => exact nomatch ran.symm.trans (ensureFresh_raises aged)
    · obtain ⟨disk'', ran', file, readings⟩ := fresh_unsaved due payload unsaved
      cases ran.symm.trans ran'
      by_cases installed : PayloadInstalled python env (env.clock (disk.readings + 1)) mapping
          (renewed mapping records (env.clock (disk.readings + 1))) disk'
      · obtain ⟨content, dumped, stored⟩ := installed.file
        exact .inl ⟨content, dumped, file.symm.trans stored⟩
      · have kept := together.resolve_right installed
        have stale := retried due installed (env.clock (disk.readings + 1)) (by rw [readings]; exact le_refl _)
        exact .inr ⟨(stale_at_once _ _ _).mp stale, kept.byTicker.symm, kept.lastRefresh.symm⟩
  · rintro ⟨numeric, keeps⟩
    obtain ⟨stale, aged⟩ := (needsRefreshAt_ok mapping (env.clock disk.readings)).mpr numeric
    cases stale with
    | false =>
      have notDue : ¬ RefreshDue env mapping disk := fun due => nomatch aged.symm.trans due
      exact ⟨mapping, _, ensureFresh_fresh aged, .inl ⟨rfl, rfl, rfl⟩, fun due => absurd due notDue⟩
    | true =>
      by_cases payload : ∃ records, Payload python env.tickers records
      · obtain ⟨records, payload⟩ := payload
        by_cases saved : ∃ content,
            Persists python env (renewed mapping records (env.clock (disk.readings + 1))) content
        · obtain ⟨content, persists⟩ := saved
          obtain ⟨mapping', disk', ran, installed⟩ := fresh_saved aged payload persists
          exact ⟨mapping', disk', ran, .inr installed, fun _ missing => absurd installed missing⟩
        · obtain ⟨disk', ran, file, readings⟩ := fresh_unsaved aged payload saved
          rcases (keeps records aged payload).resolve_left saved with
            ⟨content, dumped, stored⟩ | ⟨negative, same, time⟩
          · have installed : PayloadInstalled python env (env.clock (disk.readings + 1)) mapping
                (renewed mapping records (env.clock (disk.readings + 1))) disk' :=
              ⟨payload, rfl, content, dumped, file.trans stored⟩
            exact ⟨_, disk', ran, .inr installed, fun _ missing => absurd installed missing⟩
          · refine ⟨_, disk', ran, .inl ⟨same.symm, time.symm, file⟩, fun _ _ now passed => ?_⟩
            rw [readings] at passed
            exact stale_later passed ((stale_at_once _ _ _).mpr negative)
      · exact ⟨mapping, _, fresh_without aged payload, .inl ⟨rfl, rfl, rfl⟩,
          fun _ _ now passed => stale_later passed aged⟩

/-- SEC answers with one company. -/
def oneCompany : Json :=
  .obj [("0", .obj [("cik_str", .int 789019), ("ticker", .str "MSFT"), ("title", .str "MICROSOFT CORP")])]

/-- The file can be written but not replaced. -/
def unreplaceable : Env :=
  .sample (.ok oneCompany) fun
    | .replace _ _ => some .os
    | _ => none

theorem oneCompany_payload (python : Python) {env : Env} (received : env.tickers = .ok oneCompany) :
    ∃ records, Payload python env.tickers records := by
  have digits : Digits (Model.Text.strip ((Json.int 789019).text python).toList) := numericCik_iff.mp rfl
  exact ⟨_, _, [(_, ⟨_, _, _⟩)], received, List.cons_ne_nil _ _,
    .cons ⟨_, _, _, rfl, rfl, rfl, normalizeCik_digits digits, rfl, rfl, rfl⟩ .nil, rfl⟩

/-- The replacement fails after the mapping in memory was renewed: the time of the last refresh is the new one,
and the file is still missing. -/
theorem unreplaced_mapping :
    ¬ AllOrNothing (.sample [] .null) unreplaceable (.seeded "/data/cik_mapping.json" 86400) ⟨fun _ => none, 0⟩ := by
  rintro ⟨mapping', disk', ran, together, _⟩
  have due : RefreshDue unreplaceable (.seeded "/data/cik_mapping.json" 86400) ⟨fun _ => none, 0⟩ := by
    have late : CikMapping.exceeds 86400 (unreplaceable.clock 0).float = true := by decide +kernel
    refine congrArg Except.ok (Eq.trans ?_ late)
    exact congrArg (CikMapping.exceeds 86400) (Binary64.sub_zero _)
  obtain ⟨records, payload⟩ := @oneCompany_payload (.sample [] .null) unreplaceable rfl
  obtain ⟨disk'', ran', file, _⟩ := fresh_unsaved due payload (by rintro ⟨_, persists⟩; cases persists.replaced)
  cases ran.symm.trans ran'
  rcases together with kept | installed
  · have time : Json.float (unreplaceable.clock 1).float = .float .zero := kept.lastRefresh
    rw [Binary64.zero_eq] at time
    injection time with same
    injection same with same
    exact absurd same (by decide +kernel)
  · obtain ⟨content, _, stored⟩ := installed.file
    cases file.symm.trans stored

end Quartr.Soundness
