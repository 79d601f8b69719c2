import Quartr.Model.Service

/-! # The service beside SEC's list of a company

`Edgar` is the world of the service together with what SEC lists for one company at the moment. The list
grows in steps of its own, between any two calls of the service; who asks SEC for the company is
answered what is listed then, or is not answered. For other companies SEC answers anything.
-/

namespace Quartr.Model

open Quartr.Machine

/-- The filings that `parse_submissions` reads off a payload. -/
def SubmissionsPayload.filings (payload : SubmissionsPayload) : List FilingRecord :=
  (parseSubmissions payload).toOption.getD []

/-- What a filing is, whoever the company says it is now. -/
def FilingRecord.row (filing : FilingRecord) : String × Date × String × String :=
  (filing.form, filing.filingDate, filing.accessionNumber, filing.primaryDocument)

/-- An accession number names one filing. -/
def Unambiguous (payload : SubmissionsPayload) : Prop :=
  ∀ filing ∈ payload.filings, ∀ filing' ∈ payload.filings,
    filing.accessionNumber = filing'.accessionNumber → filing.row = filing'.row

instance (payload : SubmissionsPayload) : Decidable (Unambiguous payload) :=
  inferInstanceAs (Decidable (∀ filing ∈ payload.filings, _))

/-- What was listed is listed, and what is new is dated no earlier. -/
def Extends (payload payload' : SubmissionsPayload) : Prop :=
  (∀ filing ∈ payload.filings, ∃ filing' ∈ payload'.filings, filing'.row = filing.row) ∧
    ∀ filing' ∈ payload'.filings, (∃ filing ∈ payload.filings, filing.row = filing'.row) ∨
      ∀ filing ∈ payload.filings, filing.filingDate.ordinal ≤ filing'.filingDate.ordinal

instance (payload payload' : SubmissionsPayload) : Decidable (Extends payload payload') :=
  inferInstanceAs (Decidable (_ ∧ _))

structure Edgar where
  world : World
  listed : SubmissionsPayload
  unambiguous : Unambiguous listed

/-- What a process was begun for; `listing` is SEC's list becoming this one. -/
inductive EdgarActivity where
  | service (activity : Activity)
  | listing (payload : SubmissionsPayload)

namespace Edgar

variable (settings : Settings) (uuid : ℕ → TaskId) (cik : String)

def body (id : ℕ) : EdgarActivity → Program calls (Option Outcome)
  | .service activity => (Service.body settings uuid id activity).bind fun outcome => .done (some outcome)
  | .listing _ => .done none

def start (edgar : Edgar) : EdgarActivity → Edgar → Prop
  | .service activity, edgar' => Service.start edgar.world activity edgar'.world ∧ edgar'.listed = edgar.listed
  | .listing payload, edgar' =>
    edgar'.world = edgar.world ∧ edgar'.listed = payload ∧ Extends edgar.listed payload

/-- What SEC answers for the company is its list. -/
def Truthful (listed : SubmissionsPayload) : (call : Call) → calls.Reply call → Prop
  | .getSubmissions company, .ok answer => company = cik → ∀ payload, answer = some payload → payload = listed
  | _, _ => True

def serve (call : Call) (edgar : Edgar) (reply : calls.Reply call) (edgar' : Edgar) : Prop :=
  Faulty call edgar.world reply edgar'.world ∧ edgar'.listed = edgar.listed ∧
    Truthful cik edgar.listed call reply

/-- The world once an activity has begun, if it may. -/
def begin? (edgar : Edgar) : EdgarActivity → Option Edgar
  | .service activity => (Service.begin? edgar.world activity).map fun world => { edgar with world := world }
  | .listing payload =>
    if allowed : Extends edgar.listed payload ∧ Unambiguous payload then some ⟨edgar.world, payload, allowed.2⟩
    else none

theorem begin?_start (edgar : Edgar) (activity : EdgarActivity) (edgar' : Edgar)
    (begins : begin? edgar activity = some edgar') : start edgar activity edgar' := by
  cases activity with
  | service activity =>
    obtain ⟨world, begun, rfl⟩ := Option.map_eq_some_iff.mp begins
    exact ⟨Service.begin?_start edgar.world activity world begun, rfl⟩
  | listing payload =>
    simp only [begin?] at begins
    split at begins
    · rename_i allowed
      cases begins
      exact ⟨rfl, rfl, allowed.1⟩
    · cases begins

/-- Others answer as they like, and SEC what it lists. -/
def asking (outside : Outside) (edgar : Edgar) : Outside :=
  { outside with
    submissions := fun company => if company = cik then .ok (some edgar.listed) else outside.submissions company }

theorem truthful (outside : Outside) (call : Call) (edgar : Edgar) :
    Truthful cik edgar.listed call (edgar.world.reply (asking cik outside edgar) call) := by
  cases call with
  | getSubmissions company =>
    by_cases asked : company = cik
    · simp only [World.reply, asking, asked, ↓reduceIte, Truthful]
      rintro _ payload ⟨⟩
      rfl
    · simp only [World.reply, asking, asked, ↓reduceIte]
      cases outside.submissions company with
      | error error => trivial
      | ok answer => exact fun same => absurd same asked
  | _ => trivial

end Edgar

def edgarSystem (settings : Settings) (uuid : ℕ → TaskId) (cik : String) :
    System calls Edgar EdgarActivity (Program calls (Option Outcome)) :=
  System.ofBodies (Edgar.body settings uuid) Edgar.start (Edgar.serve cik)

/-- Schedules in which every command takes effect. -/
def edgarPlayer (settings : Settings) (uuid : ℕ → TaskId) (cik : String) :
    Player (edgarSystem settings uuid cik) Outside where
  begin? := Edgar.begin?
  answer outside call edgar :=
    (edgar.world.reply (Edgar.asking cik outside edgar) call, { edgar with world := edgar.world.after call })
  resumes := rfl
  begins := Edgar.begin?_start
  serves outside call edgar :=
    ⟨.inl (World.reliable (Edgar.asking cik outside edgar) call edgar.world), rfl,
      Edgar.truthful cik outside call edgar⟩

abbrev EdgarConfig := Config calls Edgar EdgarActivity (Program calls (Option Outcome))
abbrev EdgarEvent := Event calls EdgarActivity

end Quartr.Model
