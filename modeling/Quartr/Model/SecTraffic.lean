import Quartr.Machine.Replay
import Quartr.Model.Models
import Quartr.Model.RateLimiter

/-! # Requests to SEC

`SecClient` with its retry policy, the waiting loop of the rate limiter and the refresh of the
company listing, as programs over the calls they await. A request leaves with `send` and comes back
with `receive`. Every process reads its own clock, so a reading may be anything; how long a program
sleeps is not modelled.
-/

namespace Quartr.Model

open Quartr.Machine

/-- What the code around the requests raises. -/
inductive SecErr where
  | httpStatus (status : ℕ) (message : String)
  | network (message : String)
  | permanentSec (message : String)
  | transientSec (message : String)
  | timeout (message : String)
  | other (message : String)
deriving DecidableEq, Repr

/-- What a process knows of the companies, and when it learned it. -/
structure Listing where
  companies : List CompanyRecord
  lastRefresh : ℤ
deriving DecidableEq, Repr

/-- A response, with the text its status raises as an error; `companies` is what reading its body as a
ticker list yields. -/
structure HttpReply where
  status : ℕ
  statusError : String
  body : Bytes
  companies : Except SecErr (List CompanyRecord)

inductive SecCall where
  | slot
  | acquireSlot (slot : Slot) (windowMs : ℤ) (limit : ℕ)
  | monotonic
  | time
  | sleep
  | send (url : String) (headers : List (String × String))
  | receive (url : String)
  | saveToDisk (listing : Listing)

@[reducible] def SecCall.Answer : SecCall → Type
  | .slot => Slot
  | .acquireSlot _ _ _ => Bool
  | .monotonic => ℤ
  | .time => ℤ
  | .receive _ => HttpReply
  | _ => Unit

abbrev secCalls : Signature := ⟨SecCall, SecCall.Answer, SecErr⟩

/-- An `async` function on the way to SEC, with a local object. -/
abbrev SecAsync (σ α : Type) : Type := Coroutine secCalls SecErr σ α

variable {σ α : Type}

/-- Await one call; its error is raised as it is. -/
def secCall (c : SecCall) : SecAsync σ c.Answer := @Coroutine.await secCalls SecErr σ id c

structure SecSettings where
  requestsPerSecond : ℤ
  retryMaxAttempts : ℕ
  submissionsBaseUrl : String
  companyTickersUrl : String
  cikMappingRefreshMs : ℤ

namespace GlobalSecRateLimiter

/-- `_window_ms`. -/
def windowMs : ℤ := 1000

/-- `_limit`; the rate arrives with its fraction cut off. -/
def limit (settings : SecSettings) : ℕ := (max 1 settings.requestsPerSecond).toNat

variable (settings : SecSettings)

/-- The member and the time are read before the script runs. -/
def tryAcquire : SecAsync σ Bool := do
  let slot ← secCall .slot
  secCall (.acquireSlot slot windowMs (limit settings))

/-- `time.monotonic() - start > timeout` ends the wait. -/
def checkTimeout (timeout : Option ℤ) (start : ℤ) : SecAsync σ Unit := do
  match timeout with
  | none => return
  | some timeout =>
    let now ← secCall .monotonic
    if timeout < now - start then throw (.timeout "Timed out waiting for SEC rate limiter slot")

/-- The loop of `acquire`; a wait of more than `polls` rounds gives up as a timeout does. -/
def poll (timeout : Option ℤ) (start : ℤ) : ℕ → SecAsync σ Unit
  | 0 => throw (.timeout "Timed out waiting for SEC rate limiter slot")
  | polls + 1 => do
    if ← tryAcquire settings then return
    else
      checkTimeout timeout start
      secCall .sleep
      poll timeout start polls

def acquire (timeout : Option ℤ) (polls : ℕ) : SecAsync σ Unit := do
  let start ← secCall .monotonic
  poll settings timeout start polls

end GlobalSecRateLimiter

/-- `raise_for_status`. -/
def HttpReply.raiseForStatus (resp : HttpReply) : Except SecErr Unit :=
  if 200 ≤ resp.status ∧ resp.status < 300 then .ok ()
  else .error (.httpStatus resp.status resp.statusError)

namespace RetryPolicy

/-- `classify_http_error`. -/
def classifyHttpError (status : ℕ) (message : String) : SecErr :=
  if status ∈ [429, 500, 502, 503, 504] then
    .transientSec ("Retryable SEC HTTP error " ++ toString status)
  else .permanentSec ("Non-retryable SEC HTTP error " ++ toString status ++ ": " ++ message)

/-- What an attempt that raised comes to: a transient error is kept for later, others are raised. -/
def classify (exc : SecErr) : Except SecErr SecErr :=
  match exc with
  | .httpStatus status message =>
    match classifyHttpError status message with
    | .permanentSec message => .error (.permanentSec message)
    | classified => .ok classified
  | .network message => .ok (.transientSec ("Transient network error: " ++ message))
  | exc => .error exc

/-- One round of the loop: the value, or the error to remember. -/
def attempt (fn : SecAsync σ α) : SecAsync σ (Except SecErr α) :=
  tryCatch (do return .ok (← fn)) fun exc => do return .error (← Coroutine.lift (classify exc))

/-- A delay follows every failed attempt but the last. -/
def backoff (remaining : ℕ) : SecAsync σ Unit := if 0 < remaining then secCall .sleep else pure ()

/-- The loop of `run` with `remaining` attempts to go. -/
def retry (fn : SecAsync σ α) : ℕ → Option SecErr → SecAsync σ α
  | 0, none => throw (.other "AssertionError")
  | 0, some lastExc => throw lastExc
  | remaining + 1, _ => do
    match ← attempt fn with
    | .ok value => return value
    | .error lastExc =>
      backoff remaining
      retry fn remaining (some lastExc)

def run (maxAttempts : ℕ) (fn : SecAsync σ α) : SecAsync σ α := retry fn maxAttempts none

end RetryPolicy

/-- Cached validators. -/
structure CachedResponse where
  etag : Option String
  lastModified : Option String
deriving DecidableEq, Repr

/-- The conditional-request headers; an empty validator counts as none. -/
def CachedResponse.headers (cached : CachedResponse) : List (String × String) :=
  let header (name : String) (value : Option String) :=
    if value.getD "" = "" then [] else [(name, value.getD "")]
  header "If-None-Match" cached.etag ++ header "If-Modified-Since" cached.lastModified

namespace SecClient

variable (settings : SecSettings) (polls : ℕ)

/-- `client.get`. -/
def httpGet (url : String) (headers : List (String × String)) : SecAsync σ HttpReply := do
  secCall (.send url headers)
  secCall (.receive url)

def doRequest (url : String) (headers : List (String × String)) : SecAsync σ HttpReply := do
  GlobalSecRateLimiter.acquire settings (some 30000) polls
  let resp ← httpGet url headers
  if resp.status = 304 then return resp
  else
    Coroutine.lift resp.raiseForStatus
    return resp

/-- `_get`. -/
def get (url : String) (cached : Option CachedResponse) : SecAsync σ HttpReply :=
  let headers := cached.elim [] CachedResponse.headers
  RetryPolicy.run settings.retryMaxAttempts (doRequest settings polls url headers)

def getSubmissions (cik : String) (cached : Option CachedResponse) : SecAsync σ HttpReply :=
  get settings polls (settings.submissionsBaseUrl ++ "/CIK" ++ cik ++ ".json") cached

def downloadDocument (url : String) : SecAsync σ HttpReply := get settings polls url none

end SecClient

namespace Listing

variable (settings : SecSettings)

/-- `refresh`: a listing with no company in it changes nothing. -/
def refresh : SecAsync Listing Unit := do
  let resp ← SecClient.httpGet settings.companyTickersUrl []
  Coroutine.lift resp.raiseForStatus
  let records ← Coroutine.lift resp.companies
  if records ≠ [] then
    modify fun listing => { listing with companies := records }
    let now ← secCall .time
    modify fun listing => { listing with lastRefresh := now }
    secCall (.saveToDisk (← get))

/-- `needs_refresh` at a time. -/
def stale (now : ℤ) (listing : Listing) : Prop :=
  settings.cikMappingRefreshMs < now - listing.lastRefresh

instance (now : ℤ) (listing : Listing) : Decidable (stale settings now listing) :=
  inferInstanceAs (Decidable (_ < _))

/-- `ensure_fresh`: a failed refresh is logged and forgotten. -/
def ensureFresh : SecAsync Listing Unit := do
  let now ← secCall .time
  if stale settings now (← get) then
    tryCatch (refresh settings) fun _ => pure ()

end Listing

/-- What a process is begun for; `elapse` lets time pass at the server. -/
inductive SecActivity where
  | submissions (cik : String) (cached : Option CachedResponse) (polls : ℕ)
  | document (url : String) (polls : ℕ)
  | freshen (listing : Listing)
  | elapse (ms : ℕ)
deriving DecidableEq

structure SecWorld where
  limiter : Limiter
  clock : ℤ
deriving DecidableEq

namespace SecTraffic

variable (settings : SecSettings)

/-- The code each activity runs. -/
def body : SecActivity → Program secCalls Unit
  | .submissions cik cached polls =>
    (SecClient.getSubmissions settings polls cik cached ()).bind fun _ => .done ()
  | .document url polls => (SecClient.downloadDocument settings polls url ()).bind fun _ => .done ()
  | .freshen listing => (Listing.ensureFresh settings listing).bind fun _ => .done ()
  | .elapse _ => .done ()

def start (world : SecWorld) : SecActivity → SecWorld → Prop
  | .elapse ms, world' => world' = { world with clock := world.clock + ms }
  | _, world' => world' = world

/-- The script runs atomically, for a member that no earlier execution had, and may raise with or
without having run. Everything else answers anything. -/
def Serves (call : SecCall) (world : SecWorld) (reply : secCalls.Reply call) (world' : SecWorld) : Prop :=
  match call with
  | .acquireSlot slot windowMs limit =>
    (world' = world ∧ ∃ message, reply = .error (.other message)) ∨
      ((∀ earlier ∈ world.limiter.executed, earlier.member ≠ slot.member) ∧
        world' = { world with limiter := world.limiter.execute world.clock slot windowMs limit } ∧
        (reply = .ok (world.limiter.grants world.clock slot windowMs limit) ∨
          ∃ message, reply = .error (.other message)))
  | _ => world' = world

end SecTraffic

/-- Every process that asks SEC for something, in the API and in the workers. -/
def secTraffic (settings : SecSettings) : System secCalls SecWorld SecActivity (Program secCalls Unit) :=
  System.ofBodies (fun _ => SecTraffic.body settings) SecTraffic.start SecTraffic.Serves

namespace SecTraffic

def begin? (world : SecWorld) : SecActivity → Option SecWorld
  | .elapse ms => some { world with clock := world.clock + ms }
  | _ => some world

/-- Every clock tells the time of the server, and SEC answers with an empty listing. -/
def answer (member : String) (call : SecCall) (world : SecWorld) : secCalls.Reply call × SecWorld :=
  match call with
  | .slot => (.ok ⟨member, world.clock⟩, world)
  | .acquireSlot slot windowMs limit =>
    if ∀ earlier ∈ world.limiter.executed, earlier.member ≠ slot.member then
      (.ok (world.limiter.grants world.clock slot windowMs limit),
        { world with limiter := world.limiter.execute world.clock slot windowMs limit })
    else (.error (.other "member in use"), world)
  | .monotonic => (.ok world.clock, world)
  | .time => (.ok world.clock, world)
  | .sleep => (.ok (), world)
  | .send _ _ => (.ok (), world)
  | .receive _ => (.ok ⟨200, "", [], .ok []⟩, world)
  | .saveToDisk _ => (.ok (), world)

/-- Schedules in which nothing fails; a choice is the member drawn. -/
def player (settings : SecSettings) : Player (secTraffic settings) String where
  begin? := begin?
  answer := answer
  resumes := rfl
  begins world activity world' begins := by
    cases activity <;> exact (Option.some.inj begins).symm
  serves member call world := by
    cases call with
    | acquireSlot slot windowMs limit =>
      simp only [answer]
      by_cases unique : ∀ earlier ∈ world.limiter.executed, earlier.member ≠ slot.member
      · rw [if_pos unique]
        exact .inr ⟨unique, rfl, .inl rfl⟩
      · rw [if_neg unique]
        exact .inl ⟨rfl, _, rfl⟩
    | _ => rfl

end SecTraffic

abbrev SecConfig := Config secCalls SecWorld SecActivity (Program secCalls Unit)
abbrev SecEvent := Event secCalls SecActivity

end Quartr.Model
