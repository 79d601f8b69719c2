import Quartr.Model.SecTraffic
import Quartr.Model.Service

/-! # A small deployment

One company with one filing, an empty store and a queue of adjustable size: the surroundings of the
concrete schedules in this development.
-/

namespace Quartr.Model.Sample

open Quartr.Machine

/-- `retryMaxAttempts` is the default of the configuration. -/
def settings (maxQueueDepth : ℕ) : Settings :=
  ⟨5, maxQueueDepth, "/data", "https://www.sec.gov/Archives/edgar/data"⟩

def uuid (id : ℕ) : TaskId := "task-" ++ toString id

def cikMapping : CikMapping := ⟨[("AAPL", ⟨"AAPL", "0000320193", "Apple Inc."⟩)]⟩

/-- Nothing stored, nothing queued. -/
def world : World :=
  ⟨fun _ => none, fun _ => none, fun _ => none, [], ⟨fun _ => none, fun _ => [], 0⟩⟩

/-- Apple's annual report of a year. -/
def identity (year : ℤ) : ReportIdentity := 
  ⟨"AAPL", "10-K", year, none, by decide +kernel, by decide +kernel⟩

/-- One task queued for the report of a year: its record, its pointer and its entry. -/
def queued (year : ℤ) : World :=
  { world with
    tasks := Function.update world.tasks "task-0"
      (some { ReportTask.fresh "task-0" (identity year) false with state := .queued })
    pending := Function.update world.pending (pendingTaskKey (identity year).logicalPath false)
      (some "task-0")
    stream := [Entry.new "task-0"] }

/-- A request for Apple's annual report of a year, or of the latest one. -/
def payload (year : Option ℤ) : CreateReportRequest := ⟨"AAPL", "10-K", year, none, false⟩

def request (year : Option ℤ) : Activity := .request cikMapping (payload year)

theorem ok_of_toOption {ε α : Type} {result : Except ε α} {value : α}
    (some : result.toOption = some value) : result = .ok value := by
  cases result with
  | error error => cases some
  | ok found => exact congrArg Except.ok (Option.some.inj some)

theorem requested : Routes.requestedIdentity cikMapping (payload (some 2024)) = .ok (identity 2024) :=
  ok_of_toOption (by decide +kernel)

def worker (maxQueueDepth : ℕ) : Worker :=
  ⟨settings maxQueueDepth, cikMapping, "2025-01-01T00:00:00+00:00"⟩

def handling (entry id : ℕ) : Activity :=
  .handling cikMapping "2025-01-01T00:00:00+00:00" entry [("task_id", uuid id)]

def submissions : SubmissionsPayload :=
  ⟨some "320193", "Apple Inc.", ["10-K"], ["2024-11-01"], ["0000320193-24-000123"],
    ["aapl-20240928.htm"]⟩

def document : Document := ⟨[60, 112, 62], some "text/html"⟩

def pdf : Bytes := [37, 80, 68, 70, 45, 49]

/-- SEC lists one 10-K filed in 2024, and the renderer answers a PDF. -/
def outside : Outside := ⟨fun _ => .ok (some submissions), fun _ => .ok document, fun _ _ _ => .ok pdf⟩

/-- What a handling of the task selects. -/
def selection : Selection :=
  ⟨⟨"AAPL", "0000320193", "Apple Inc."⟩, identity 2024,
    ⟨"0000320193", "0000320193-24-000123", "aapl-20240928.htm", "2024-11-01",
      "https://www.sec.gov/Archives/edgar/data/320193/000032019324000123/aapl-20240928.htm"⟩,
    ArtifactStore.pathsFor (settings 2) (identity 2024) "0000320193-24-000123" ".htm"⟩

theorem resolved : (worker 2).resolveFiling ⟨"AAPL", "0000320193", "Apple Inc."⟩
    (.fresh "task-0" (identity 2024) false) submissions = .ok selection :=
  ok_of_toOption (by decide +kernel)

/-- Two requests a second, and the defaults of the configuration. -/
def secSettings : SecSettings :=
  ⟨2, 5, "https://data.sec.gov/submissions", "https://www.sec.gov/files/company_tickers.json", 86400000⟩

/-- No slot asked for yet, one second after the epoch. -/
def secWorld : SecWorld := ⟨.empty, 1000⟩

/-- A process that fetches Apple's submissions. -/
def fetch : SecActivity := .submissions "0000320193" none 1

theorem uuid_fresh : FreshIds uuid world where
  injective id id' same := by
    have digits : Nat.toDigits 10 id = Nat.toDigits 10 id' := by
      have lists := congrArg String.toList same
      simp only [uuid, String.toList_append, List.append_cancel_left_eq] at lists
      rw [← Nat.toList_repr, ← Nat.toList_repr]
      exact lists
    rw [← @Nat.ofDigitChars_ten_toDigits id, digits, Nat.ofDigitChars_ten_toDigits]
  nonempty id same := by
    have lists := congrArg String.toList same
    simp only [uuid, String.toList_append] at lists
    have blank : "task-".toList = [] := (List.append_eq_nil_iff.mp lists).1
    exact absurd blank (by decide +kernel)
  unused id := rfl

theorem world_keyed : world.Keyed := by
  intro taskId task present
  cases present

end Quartr.Model.Sample
