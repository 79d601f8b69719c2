import Quartr.Machine.Program
import Quartr.Model.Text
import Quartr.Numeric.Binary64

/-! # The retry policy with its delays

`RetryPolicy` over the calls it makes: the function it is given, the random draw and the sleep. The requests
to SEC leave the delays out; here they are what the loop computes from the error it remembers.
-/

namespace Quartr.Model

open Quartr.Machine Quartr.Numeric

namespace Text

/-- A run of decimal digits, with single underscores between them, and what follows it. -/
def digitRun (afterDigit : Bool) : List Char → List ℕ × List Char
  | [] => ([], [])
  | c :: rest =>
    match digitValue? c with
    | some digit => (digit :: (digitRun true rest).1, (digitRun true rest).2)
    | none =>
      if c = '_' ∧ afterDigit = true ∧ (rest.head?.bind digitValue?).isSome then digitRun false rest
      else ([], c :: rest)

def decimalValue (digits : List ℕ) : ℕ := digits.foldl (fun value digit => 10 * value + digit) 0

/-- Whether there is a minus sign, and what follows the sign. -/
def signed : List Char → Bool × List Char
  | '-' :: rest => (true, rest)
  | '+' :: rest => (false, rest)
  | rest => (false, rest)

/-- The exponent of a `float` literal, if the text is one or nothing. -/
def exponent? : List Char → Option ℤ
  | [] => some 0
  | c :: rest =>
    match digitRun false (signed rest).2 with
    | (digit :: digits, []) =>
      if c = 'e' ∨ c = 'E' then
        some (if (signed rest).1 then -decimalValue (digit :: digits) else decimalValue (digit :: digits))
      else none
    | _ => none

/-- `float(s)`; `none` is the `ValueError`. -/
def float? (s : String) : Option Binary64 :=
  let (negative, body) := signed (stripOf isNumberSpace s.toList)
  let name := String.ofList (body.map Char.toLower)
  if name = "inf" ∨ name = "infinity" then some (.infinite negative)
  else if name = "nan" then some .nan
  else
    let (whole, rest) := digitRun false body
    let (fraction, rest) := match rest with
      | '.' :: rest => digitRun false rest
      | rest => ([], rest)
    if whole = [] ∧ fraction = [] then none
    else (exponent? rest).map fun (exponent : ℤ) =>
      let value : ℚ := decimalValue (whole ++ fraction) * (10 : ℚ) ^ (exponent - fraction.length)
      .ofRat (if negative then -value else value)

end Text

namespace Retry

/-- What the loop distinguishes of an exception; `text` is its `str()`. -/
inductive Exc where
  | httpStatus (status : ℕ) (retryAfter : Option String) (text : String)
  | connectError (text : String)
  | connectTimeout (text : String)
  | readTimeout (text : String)
  | transientSec (message : String) (retryAfter : Option Binary64)
  | permanentSec (message : String)
  | overflow (text : String)
  | value (text : String)
  | other (text : String)
deriving DecidableEq

/-- A draw of `random.random()`. -/
abbrev Draw : Type := { draw : ℚ // 0 ≤ draw ∧ draw < 1 }

inductive RetryCall where
  | fn
  | random
  | sleep (delay : Binary64)
deriving DecidableEq

@[reducible] def RetryCall.Answer (α : Type) : RetryCall → Type
  | .fn => α
  | .random => Draw
  | .sleep _ => Unit

abbrev retryCalls (α : Type) : Signature := ⟨RetryCall, RetryCall.Answer α, Exc⟩

variable {α : Type}

abbrev Method (α β : Type) : Type := Coroutine (retryCalls α) Exc Unit β

def call (c : RetryCall) : Method α (c.Answer α) := @Coroutine.await (retryCalls α) Exc Unit id c

/-- `_RETRYABLE_STATUS_CODES`. -/
def retryableStatusCodes : List ℕ := [429, 500, 502, 503, 504]

/-- `classify_http_error`; a header that is no number counts as none. -/
def classifyHttpError (status : ℕ) (header : Option String) (text : String) : Exc :=
  if status ∈ retryableStatusCodes then
    .transientSec ("Retryable SEC HTTP error " ++ toString status) (header.bind Text.float?)
  else .permanentSec ("Non-retryable SEC HTTP error " ++ toString status ++ ": " ++ text)

/-- The `except` clauses: the error to remember, or the one that is raised. -/
def classify : Exc → Except Exc Exc
  | .httpStatus status header text =>
    match classifyHttpError status header text with
    | .permanentSec message => .error (.permanentSec message)
    | classified => .ok classified
  | .connectError text => .ok (.transientSec ("Transient network error: " ++ text) none)
  | .connectTimeout text => .ok (.transientSec ("Transient network error: " ++ text) none)
  | .readTimeout text => .ok (.transientSec ("Transient network error: " ++ text) none)
  | exc => .error exc

/-- `getattr(exc, "retry_after", None)`. -/
def Exc.retryAfter : Exc → Option Binary64
  | transientSec _ retryAfter => retryAfter
  | _ => none

structure RetryPolicy where
  maxAttempts : ℕ
  baseDelaySeconds : Binary64
  maxDelaySeconds : Binary64

namespace RetryPolicy

variable (policy : RetryPolicy)

/-- The factor `2 ** (attempt - 1)` as a float. -/
def power (attempt : ℕ) : Except Exc Binary64 :=
  match Binary64.ofInt? (2 ^ (attempt - 1)) with
  | some power => .ok power
  | none => .error (.overflow "int too large to convert to float")

/-- `random.uniform(0, b)`: `0 + (b - 0) * random()`. -/
def uniform (b : Binary64) (draw : Draw) : Binary64 :=
  .add .zero (.mul (.sub b .zero) (.ofRat draw.val))

def delayForAttempt (attempt : ℕ) (retryAfter : Option Binary64) : Method α Binary64 := do
  match retryAfter with
  | some retryAfter => return .least retryAfter policy.maxDelaySeconds
  | none =>
    let power ← Coroutine.lift (power attempt)
    let backoff := Binary64.least (.mul policy.baseDelaySeconds power) policy.maxDelaySeconds
    let draw ← call .random
    let jitter := uniform (.mul backoff (.ofRat (1 / 2))) draw
    return .add backoff jitter

/-- One round of the loop: the value, or the error to remember. -/
def attempt : Method α (Except Exc α) :=
  tryCatch (do return .ok (← call .fn)) fun exc => do return .error (← Coroutine.lift (classify exc))

/-- The loop of `run` from this attempt on, with so many to go. -/
def loop (attempt : ℕ) : ℕ → Option Exc → Method α α
  | 0, none => throw (.other "")
  | 0, some lastExc => throw lastExc
  | remaining + 1, _ => do
    match ← RetryPolicy.attempt with
    | .ok value => return value
    | .error lastExc =>
      if attempt < policy.maxAttempts then
        let delay ← policy.delayForAttempt attempt lastExc.retryAfter
        call (.sleep delay)
      loop (attempt + 1) remaining (some lastExc)

def run : Method α α := loop policy 1 policy.maxAttempts none

end RetryPolicy

/-! ### What it runs against -/

inductive RetryEvent where
  | called
  | slept (delay : Binary64)
deriving DecidableEq

/-- How often the function was called, and what happened so far. -/
structure RetryCourse where
  calls : ℕ
  events : List RetryEvent

def RetryCourse.start : RetryCourse := ⟨0, []⟩

/-- The function comes to its outcomes one after the other, every attempt has its draw, and a sleep ends
unless its delay is NaN. -/
def answer (outcomes : ℕ → Except Exc α) (draws : ℕ → Draw) :
    (call : RetryCall) → RetryCourse → (retryCalls α).Reply call × RetryCourse
  | .fn, course => (outcomes course.calls, ⟨course.calls + 1, course.events ++ [.called]⟩)
  | .random, course => (.ok (draws (course.calls - 1)), course)
  | .sleep .nan, course => (.error (.value "Invalid delay: NaN (not a number)"), course)
  | .sleep delay, course => (.ok (), { course with events := course.events ++ [.slept delay] })

end Retry

end Quartr.Model
