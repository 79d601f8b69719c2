import Mathlib.Data.List.Basic
import Quartr.Machine.Solo
import Quartr.Model.Retry

/-! # What the retry loop does with a sequence of outcomes

The reference says how often the function is called, what is slept in between and what the loop comes to.
The loop meets it unless it has to sleep a delay that is no number, or to compute the power of a backoff
that is no float.
-/

namespace Quartr.Soundness

open Quartr.Machine Quartr.Model Quartr.Model.Retry Quartr.Numeric
open Quartr.Machine.Coroutine (Runs)

variable {α : Type}

/-! ### The reference -/

/-- The errors that are tried again. -/
def TransientExc : Exc → Prop
  | .httpStatus status _ _ => status ∈ [429, 500, 502, 503, 504]
  | .connectError _ => True
  | .connectTimeout _ => True
  | .readTimeout _ => True
  | _ => False

def Transient (outcome : Except Exc α) : Prop := ∃ exc, outcome = .error exc ∧ TransientExc exc

/-- The Retry-After of an outcome, if it has one that `float` reads. -/
def ownRetryAfter : Except Exc α → Option Binary64
  | .error (.httpStatus _ header _) => header.bind Text.float?
  | _ => none

/-- What an outcome comes to when it is the last one. -/
def ruling : Except Exc α → Except Exc α
  | .ok value => .ok value
  | .error (.httpStatus status header text) =>
    if status ∈ [429, 500, 502, 503, 504] then
      .error (.transientSec ("Retryable SEC HTTP error " ++ toString status) (header.bind Text.float?))
    else .error (.permanentSec ("Non-retryable SEC HTTP error " ++ toString status ++ ": " ++ text))
  | .error (.connectError text) => .error (.transientSec ("Transient network error: " ++ text) none)
  | .error (.connectTimeout text) => .error (.transientSec ("Transient network error: " ++ text) none)
  | .error (.readTimeout text) => .error (.transientSec ("Transient network error: " ++ text) none)
  | .error exc => .error exc

/-- The backoff of an attempt, capped. -/
def cappedBackoff (policy : RetryPolicy) (attempt : ℕ) : Binary64 :=
  .least (.mul policy.baseDelaySeconds (.ofRat (2 ^ (attempt - 1)))) policy.maxDelaySeconds

/-- The delay after an attempt, from its outcome and its draw alone. -/
def dueDelay (policy : RetryPolicy) (attempt : ℕ) (outcome : Except Exc α) (draw : Draw) : Binary64 :=
  match ownRetryAfter outcome with
  | some retryAfter => .least retryAfter policy.maxDelaySeconds
  | none => .add (cappedBackoff policy attempt)
      (RetryPolicy.uniform (.mul (cappedBackoff policy attempt) (.ofRat (1 / 2))) draw)

/-- The number of calls: up to the first outcome that is not transient, or the attempts allowed. -/
structure CallsDue (maxAttempts : ℕ) (outcomes : ℕ → Except Exc α) (n : ℕ) : Prop where
  positive : 1 ≤ n
  allowed : n ≤ maxAttempts
  earlier : ∀ i, i + 1 < n → Transient (outcomes i)
  last : n < maxAttempts → ¬ Transient (outcomes (n - 1))

/-- The calls before an attempt, each with the sleep after it. -/
def eventsBefore (policy : RetryPolicy) (outcomes : ℕ → Except Exc α) (draws : ℕ → Draw) (n : ℕ) :
    List RetryEvent :=
  (List.range n).flatMap fun i => [.called, .slept (dueDelay policy (i + 1) (outcomes i) (draws i))]

/-- The loop calls the function as often as is due, sleeps once between two calls, and comes to what the
last outcome does. -/
def MeetsReference (policy : RetryPolicy) (outcomes : ℕ → Except Exc α) (draws : ℕ → Draw) : Prop :=
  ∃ n, CallsDue policy.maxAttempts outcomes n ∧
    Runs (answer outcomes draws) policy.run () .start (ruling (outcomes (n - 1))) ()
      ⟨n, eventsBefore policy outcomes draws (n - 1) ++ [.called]⟩

/-- After this outcome the loop can sleep: its Retry-After is not NaN, or there is none and the attempt's
backoff is a number. -/
def Restful (policy : RetryPolicy) (attempt : ℕ) (outcome : Except Exc α) (draw : Draw) : Prop :=
  match ownRetryAfter outcome with
  | some retryAfter => retryAfter ≠ .nan
  | none => attempt ≤ 1024 ∧ policy.baseDelaySeconds ≠ .nan ∧
      ¬ (draw.val = 0 ∧ ∃ negative, .mul (cappedBackoff policy attempt) (.ofRat (1 / 2)) = Binary64.infinite negative)

/-! ### One attempt -/

theorem classify_transient {exc : Exc} (transient : TransientExc exc) :
    ∃ message, classify exc = .ok (.transientSec message (ownRetryAfter (.error exc : Except Exc α))) ∧
      ruling (.error exc : Except Exc α) =
        .error (.transientSec message (ownRetryAfter (.error exc : Except Exc α))) := by
  cases exc with
  | httpStatus status header text =>
    have retryable : status ∈ retryableStatusCodes := transient
    refine ⟨_, ?_, if_pos transient⟩
    simp only [classify, classifyHttpError, if_pos retryable]
    rfl
  | connectError text => exact ⟨_, rfl, rfl⟩
  | connectTimeout text => exact ⟨_, rfl, rfl⟩
  | readTimeout text => exact ⟨_, rfl, rfl⟩
  | _ => exact transient.elim

theorem classify_final {exc : Exc} (final : ¬ TransientExc exc) :
    ∃ raised, classify exc = .error raised ∧ ruling (.error exc : Except Exc α) = .error raised := by
  cases exc with
  | httpStatus status header text =>
    have unretryable : status ∉ retryableStatusCodes := final
    refine ⟨_, ?_, if_neg final⟩
    simp only [classify, classifyHttpError, if_neg unretryable]
  | connectError text => exact absurd trivial final
  | connectTimeout text => exact absurd trivial final
  | readTimeout text => exact absurd trivial final
  | _ => exact ⟨_, rfl, rfl⟩

section Attempt

variable {outcomes : ℕ → Except Exc α} {draws : ℕ → Draw} {course : RetryCourse}

/-- The course once the function has been called. -/
def afterCall (course : RetryCourse) : RetryCourse := ⟨course.calls + 1, course.events ++ [.called]⟩

theorem attempt_value {value : α} (outcome : outcomes course.calls = .ok value) :
    Runs (answer outcomes draws) Retry.RetryPolicy.attempt () course (.ok (.ok value)) () (afterCall course) :=
  Runs.tryCatch (Runs.bind (Runs.await outcome) Runs.pure)

theorem attempt_error {exc : Exc} {caught : Except Exc Exc} (outcome : outcomes course.calls = .error exc)
    (classified : classify exc = caught) :
    Runs (answer outcomes draws) Retry.RetryPolicy.attempt () course (caught.map .error) () (afterCall course) := by
  refine Runs.caught (Runs.bind_error (Runs.await_error outcome)) ?_
  cases caught with
  | error raised => exact Runs.bind_error (Runs.lift_error classified)
  | ok remembered => exact Runs.bind (Runs.lift classified) Runs.pure

end Attempt

/-! ### The sleep after it -/

section Sleep

variable {outcomes : ℕ → Except Exc α} {draws : ℕ → Draw} {course : RetryCourse} {policy : RetryPolicy} {attempt : ℕ}

theorem abs_power (exponent : ℕ) : |((2 ^ exponent : ℤ) : ℚ)| = 2 ^ exponent := by
  rw [Int.cast_pow, Int.cast_ofNat]
  exact abs_of_pos (pow_pos two_pos exponent)

theorem power_lt_overflow (exponent : ℕ) : (2 : ℚ) ^ exponent < overflow ↔ exponent < 1024 := by
  have inside : (2 : ℚ) ^ 1023 < overflow := by decide +kernel
  have outside : overflow ≤ (2 : ℚ) ^ 1024 := by decide +kernel
  constructor
  · intro below
    by_contra beyond
    have larger : (2 : ℚ) ^ 1024 ≤ 2 ^ exponent := pow_le_pow_right₀ one_le_two (Nat.le_of_not_lt beyond)
    exact absurd below (not_lt_of_ge (outside.trans larger))
  · intro small
    exact (pow_le_pow_right₀ one_le_two (Nat.le_of_lt_succ small)).trans_lt inside

/-- The power of a backoff is a float for the first 1024 attempts. -/
theorem power_ok (few : attempt ≤ 1024) : RetryPolicy.power attempt = .ok (.ofRat (2 ^ (attempt - 1))) := by
  have small : attempt - 1 < 1024 := by omega
  have inRange : |((2 ^ (attempt - 1) : ℤ) : ℚ)| < overflow := by
    rw [abs_power]
    exact (power_lt_overflow _).mpr small
  unfold RetryPolicy.power
  rw [Binary64.ofInt?_eq inRange, Int.cast_pow, Int.cast_ofNat]

theorem power_overflow (many : 1024 < attempt) :
    RetryPolicy.power attempt = .error (.overflow "int too large to convert to float") := by
  have large : ¬ attempt - 1 < 1024 := by omega
  have outOfRange : ¬ |((2 ^ (attempt - 1) : ℤ) : ℚ)| < overflow := by
    rw [abs_power]
    exact mt (power_lt_overflow _).mp large
  unfold RetryPolicy.power Binary64.ofInt?
  rw [dif_neg outOfRange]

theorem draw_inRange (draw : Draw) : |draw.val| < overflow := by
  have small : (1 : ℚ) < overflow := by decide +kernel
  rw [abs_of_nonneg draw.property.1]
  exact draw.property.2.trans small

theorem half_inRange : |(1 / 2 : ℚ)| < overflow := by decide +kernel

/-- A jitter is NaN if its bound is, or if a draw of zero meets an infinite bound. -/
theorem uniform_eq_nan {bound : Binary64} {draw : Draw} :
    RetryPolicy.uniform bound draw = .nan ↔
      bound = .nan ∨ draw.val = 0 ∧ ∃ negative, bound = .infinite negative := by
  unfold RetryPolicy.uniform
  rw [Binary64.sub_zero, Binary64.ofRat_eq (draw_inRange draw), Binary64.add_eq_nan, Binary64.mul_eq_nan,
    Binary64.zero_eq]
  constructor
  · rintro (⟨⟨⟩⟩ | product | ⟨_, ⟨⟩, _⟩)
    exact product
  · exact fun product => .inr (.inl product)

theorem half_eq_nan {backoff : Binary64} :
    .mul backoff (.ofRat (1 / 2)) = Binary64.nan ↔ backoff = .nan := by
  rw [Binary64.ofRat_eq half_inRange, Binary64.mul_eq_nan]
  exact or_iff_left (by rintro ⟨zero, _⟩; exact absurd zero (by decide +kernel))

/-- Half of an infinite bound, and a share of that, have its sign. -/
theorem uniform_infinite {negative negative' : Bool} {draw : Draw}
    (jitter : RetryPolicy.uniform (.mul (.infinite negative) (.ofRat (1 / 2))) draw = .infinite negative') :
    negative' = negative := by
  rw [Binary64.ofRat_eq half_inRange, Binary64.infinite_mul half_inRange (by decide +kernel)] at jitter
  unfold RetryPolicy.uniform at jitter
  rw [Binary64.sub_zero, Binary64.ofRat_eq (draw_inRange draw), Binary64.zero_eq] at jitter
  rcases draw.property.1.eq_or_lt with none | positive
  · have product : Binary64.mul (.infinite negative) (.finite draw.val (draw_inRange draw)) = .nan :=
      (Binary64.mul_eq_nan _).mpr (.inr ⟨none.symm, negative, rfl⟩)
    rw [product] at jitter
    cases jitter
  · rw [Binary64.infinite_mul _ positive] at jitter
    cases jitter
    rfl

theorem cappedBackoff_eq_nan (few : attempt ≤ 1024) :
    cappedBackoff policy attempt = .nan ↔ policy.baseDelaySeconds = .nan := by
  have inRange : |(2 ^ (attempt - 1) : ℚ)| < overflow := by
    rw [abs_of_pos (pow_pos two_pos _)]
    exact (power_lt_overflow _).mpr (by omega)
  unfold cappedBackoff
  rw [Binary64.least_eq_nan, Binary64.ofRat_eq inRange, Binary64.mul_eq_nan]
  exact or_iff_left (by rintro ⟨zero, _⟩; exact absurd zero (pow_ne_zero _ two_ne_zero))

/-- A delay is a number exactly after an outcome that lets the loop rest. -/
theorem restful_iff {outcome : Except Exc α} {draw : Draw} :
    Restful policy attempt outcome draw ↔
      (ownRetryAfter outcome = none → attempt ≤ 1024) ∧ dueDelay policy attempt outcome draw ≠ .nan := by
  unfold Restful dueDelay
  cases ownRetryAfter outcome with
  | some retryAfter =>
    dsimp only
    rw [ne_eq, ne_eq, Binary64.least_eq_nan]
    exact ⟨fun number => ⟨nofun, number⟩, fun number => number.2⟩
  | none =>
    dsimp only
    have sum : .add (cappedBackoff policy attempt)
        (RetryPolicy.uniform (.mul (cappedBackoff policy attempt) (.ofRat (1 / 2))) draw) = Binary64.nan ↔
        cappedBackoff policy attempt = .nan ∨ draw.val = 0 ∧
          ∃ negative, .mul (cappedBackoff policy attempt) (.ofRat (1 / 2)) = Binary64.infinite negative := by
      rw [Binary64.add_eq_nan, uniform_eq_nan, half_eq_nan]
      constructor
      · rintro (capped | (capped | product) | ⟨negative, capped, jitter⟩)
        · exact .inl capped
        · exact .inl capped
        · exact .inr product
        · rw [capped] at jitter
          cases negative <;> cases uniform_infinite jitter
      · rintro (capped | product)
        · exact .inl capped
        · exact .inr (.inl (.inr product))
    simp only [ne_eq, sum, not_or]
    constructor
    · rintro ⟨few, number, finite⟩
      exact ⟨fun _ => few, mt (cappedBackoff_eq_nan few).mp number, finite⟩
    · rintro ⟨few, number, finite⟩
      exact ⟨few trivial, mt (cappedBackoff_eq_nan (few trivial)).mpr number, finite⟩

/-- The delay is computed from the outcome just remembered. -/
theorem delayForAttempt_runs {outcome : Except Exc α} (few : ownRetryAfter outcome = none → attempt ≤ 1024) :
    Runs (answer outcomes draws) (policy.delayForAttempt attempt (ownRetryAfter outcome)) () course
      (.ok (dueDelay policy attempt outcome (draws (course.calls - 1)))) () course := by
  unfold RetryPolicy.delayForAttempt dueDelay
  cases own : ownRetryAfter outcome with
  | some retryAfter => exact Runs.pure
  | none => exact Runs.bind (Runs.lift (power_ok (few own))) (Runs.bind (Runs.await rfl) Runs.pure)

theorem delayForAttempt_overflows (many : 1024 < attempt) :
    Runs (answer outcomes draws) (policy.delayForAttempt attempt none) () course
      (.error (.overflow "int too large to convert to float")) () course :=
  Runs.bind_error (Runs.lift_error (power_overflow many))

theorem sleep_runs {delay : Binary64} (number : delay ≠ .nan) :
    Runs (answer outcomes draws) (call (.sleep delay)) () course (.ok ()) ()
      { course with events := course.events ++ [.slept delay] } := by
  cases delay with
  | nan => exact absurd rfl number
  | infinite negative => exact Runs.await rfl
  | finite value inRange => exact Runs.await rfl

theorem sleep_refused : Runs (answer outcomes draws) (call (.sleep .nan) : Method α Unit) () course
    (.error (.value "Invalid delay: NaN (not a number)")) () course :=
  Runs.await_error rfl

end Sleep

/-! ### The loop -/

section Loop

variable {outcomes : ℕ → Except Exc α} {draws : ℕ → Draw} {policy : RetryPolicy}

/-- The loop ends with an outcome that is not transient, or that no attempt follows. -/
theorem loop_stops {a remaining : ℕ} {last : Option Exc} {events : List RetryEvent}
    (count : a + (remaining + 1) = policy.maxAttempts) (ends : ¬ Transient (outcomes a) ∨ remaining = 0) :
    Runs (answer outcomes draws) (policy.loop (a + 1) (remaining + 1) last) () ⟨a, events⟩ (ruling (outcomes a)) ()
      (afterCall ⟨a, events⟩) := by
  unfold RetryPolicy.loop
  cases outcome : outcomes a with
  | ok value => exact Runs.bind (@attempt_value _ _ _ ⟨a, events⟩ _ outcome) Runs.pure
  | error exc =>
    by_cases transient : TransientExc exc
    · obtain ⟨message, classified, ruled⟩ := @classify_transient α exc transient
      rw [ruled]
      refine Runs.bind (@attempt_error _ _ _ ⟨a, events⟩ _ _ outcome classified) ?_
      obtain rfl := ends.resolve_left (not_not_intro ⟨exc, outcome, transient⟩)
      have final : ¬ a + 1 < policy.maxAttempts := by omega
      dsimp only
      rw [if_neg final]
      rfl
    · obtain ⟨raised, classified, ruled⟩ := @classify_final α exc transient
      rw [ruled]
      exact Runs.bind_error (@attempt_error _ _ _ ⟨a, events⟩ _ _ outcome classified)

theorem loop_goes_on {a remaining : ℕ} {last : Option Exc} {events : List RetryEvent} {exc : Exc}
    (more : a + 1 < policy.maxAttempts) (outcome : outcomes a = .error exc) (transient : TransientExc exc)
    (restful : Restful policy (a + 1) (outcomes a) (draws a)) {result : Except Exc α} {course : RetryCourse}
    (rest : ∀ last, Runs (answer outcomes draws) (policy.loop (a + 1 + 1) remaining (some last)) ()
      ⟨a + 1, events ++ [.called, .slept (dueDelay policy (a + 1) (outcomes a) (draws a))]⟩ result () course) :
    Runs (answer outcomes draws) (policy.loop (a + 1) (remaining + 1) last) () ⟨a, events⟩ result () course := by
  obtain ⟨message, classified, _⟩ := @classify_transient α exc transient
  obtain ⟨few, number⟩ := restful_iff.mp restful
  rw [← outcome] at classified
  unfold RetryPolicy.loop
  refine Runs.bind (@attempt_error _ _ _ ⟨a, events⟩ _ _ outcome classified) ?_
  dsimp only
  rw [if_pos more]
  refine Runs.bind (delayForAttempt_runs few) (Runs.bind (sleep_runs number) ?_)
  have rest := rest (.transientSec message (ownRetryAfter (outcomes a)))
  rw [List.append_cons] at rest
  exact rest

theorem loop_breaks {a remaining : ℕ} {last : Option Exc} {events : List RetryEvent} {exc : Exc}
    (more : a + 1 < policy.maxAttempts) (outcome : outcomes a = .error exc) (transient : TransientExc exc)
    (restless : ¬ Restful policy (a + 1) (outcomes a) (draws a)) :
    ∃ raised, Runs (answer outcomes draws) (policy.loop (a + 1) (remaining + 1) last) () ⟨a, events⟩
      (.error raised) () (afterCall ⟨a, events⟩) := by
  obtain ⟨message, classified, _⟩ := @classify_transient α exc transient
  rw [← outcome] at classified
  unfold RetryPolicy.loop
  by_cases few : ownRetryAfter (outcomes a) = none → a + 1 ≤ 1024
  · have refused : dueDelay policy (a + 1) (outcomes a) (draws a) = .nan := by
      by_contra number
      exact restless (restful_iff.mpr ⟨few, number⟩)
    have delay := @delayForAttempt_runs _ outcomes draws (afterCall ⟨a, events⟩) policy _ _ few
    refine ⟨.value "Invalid delay: NaN (not a number)",
      Runs.bind (@attempt_error _ _ _ ⟨a, events⟩ _ _ outcome classified) ?_⟩
    dsimp only
    rw [if_pos more]
    refine Runs.bind delay (Runs.bind_error ?_)
    show Runs _ (call (.sleep (dueDelay policy (a + 1) (outcomes a) (draws a)))) _ _ _ _ _
    rw [refused]
    exact sleep_refused
  · obtain ⟨none, many⟩ := Classical.not_imp.mp few
    rw [none] at classified
    refine ⟨.overflow "int too large to convert to float",
      Runs.bind (@attempt_error _ _ _ ⟨a, events⟩ _ _ outcome classified) ?_⟩
    dsimp only
    rw [if_pos more]
    exact Runs.bind_error (delayForAttempt_overflows (Nat.lt_of_not_le many))

theorem eventsBefore_succ (a : ℕ) : eventsBefore policy outcomes draws (a + 1) =
    eventsBefore policy outcomes draws a ++ [.called, .slept (dueDelay policy (a + 1) (outcomes a) (draws a))] := by
  unfold eventsBefore
  rw [List.range_succ, List.flatMap_append, List.flatMap_singleton]

/-- From an attempt on, the loop either makes the calls that are due, or stops short where it cannot rest. -/
theorem loop_runs (remaining : ℕ) {a : ℕ} (count : a + (remaining + 1) = policy.maxAttempts)
    (earlier : ∀ j < a, Transient (outcomes j)) :
    (∃ n, a < n ∧ CallsDue policy.maxAttempts outcomes n ∧
      (∀ i, a ≤ i → i + 1 < n → Restful policy (i + 1) (outcomes i) (draws i)) ∧
      Runs (answer outcomes draws) (policy.loop (a + 1) (remaining + 1) none) ()
        ⟨a, eventsBefore policy outcomes draws a⟩ (ruling (outcomes (n - 1))) ()
        ⟨n, eventsBefore policy outcomes draws (n - 1) ++ [.called]⟩) ∨
    ∃ i result events, a ≤ i ∧ i + 1 < policy.maxAttempts ∧ (∀ j ≤ i, Transient (outcomes j)) ∧
      ¬ Restful policy (i + 1) (outcomes i) (draws i) ∧
      Runs (answer outcomes draws) (policy.loop (a + 1) (remaining + 1) none) ()
        ⟨a, eventsBefore policy outcomes draws a⟩ result () ⟨i + 1, events⟩ := by
  induction remaining generalizing a with
  | zero =>
    refine .inl ⟨a + 1, Nat.lt_succ_self a, ?_, ?_, loop_stops count (.inr rfl)⟩
    · exact ⟨Nat.succ_pos a, by omega, fun i before => earlier i (by omega), fun less => by omega⟩
    · intro i reached before
      omega
  | succ remaining ih =>
    by_cases transient : Transient (outcomes a)
    · have more : a + 1 < policy.maxAttempts := by omega
      obtain ⟨exc, outcome, kind⟩ := transient
      have earlier' : ∀ j < a + 1, Transient (outcomes j) := by
        intro j before
        rcases Nat.lt_succ_iff_lt_or_eq.mp before with older | rfl
        · exact earlier j older
        · exact ⟨exc, outcome, kind⟩
      by_cases restful : Restful policy (a + 1) (outcomes a) (draws a)
      · have onward {result : Except Exc α} {course : RetryCourse}
            (rest : Runs (answer outcomes draws) (policy.loop (a + 1 + 1) (remaining + 1) none) ()
              ⟨a + 1, eventsBefore policy outcomes draws (a + 1)⟩ result () course) :
            Runs (answer outcomes draws) (policy.loop (a + 1) (remaining + 1 + 1) none) ()
              ⟨a, eventsBefore policy outcomes draws a⟩ result () course := by
          rw [eventsBefore_succ] at rest
          exact loop_goes_on more outcome kind restful fun _ => rest
        rcases ih (by omega) earlier' with
          ⟨n, after, due, rests, runs⟩ | ⟨i, result, events, reached, less, all, restless, runs⟩
        · refine .inl ⟨n, by omega, due, ?_, onward runs⟩
          intro i reached before
          rcases reached.eq_or_lt with rfl | later
          · exact restful
          · exact rests i later before
        · exact .inr ⟨i, result, events, by omega, less, all, restless, onward runs⟩
      · obtain ⟨raised, runs⟩ := @loop_breaks _ _ draws _ a (remaining + 1) none
          (eventsBefore policy outcomes draws a) _ more outcome kind restful
        refine .inr ⟨a, _, _, le_rfl, more, ?_, restful, runs⟩
        exact fun j before => earlier' j (Nat.lt_succ_of_le before)
    · refine .inl ⟨a + 1, Nat.lt_succ_self a, ?_, ?_, loop_stops count (.inl transient)⟩
      · exact ⟨Nat.succ_pos a, by omega, fun i before => earlier i (by omega), fun _ => transient⟩
      · intro i reached before
        omega

end Loop

theorem meets_or_stops (policy : RetryPolicy) (outcomes : ℕ → Except Exc α) (draws : ℕ → Draw)
    (allowed : 1 ≤ policy.maxAttempts) :
    (MeetsReference policy outcomes draws ∧ ∀ i, i + 1 < policy.maxAttempts → (∀ j ≤ i, Transient (outcomes j)) →
      Restful policy (i + 1) (outcomes i) (draws i)) ∨
    ¬ MeetsReference policy outcomes draws ∧ ∃ i, i + 1 < policy.maxAttempts ∧ (∀ j ≤ i, Transient (outcomes j)) ∧
      ¬ Restful policy (i + 1) (outcomes i) (draws i) := by
  obtain ⟨remaining, attempts⟩ := Nat.exists_eq_add_of_le' allowed
  have whole : (policy.run : Method α α) = policy.loop (0 + 1) (remaining + 1) none := by
    unfold Retry.RetryPolicy.run
    rw [attempts]
  have none_earlier : ∀ j < 0, Transient (outcomes j) := fun j before => absurd before (Nat.not_lt_zero j)
  rcases @loop_runs _ _ draws policy remaining 0 (by omega) none_earlier with
    ⟨n, _, due, rests, runs⟩ | ⟨i, result, events, _, less, all, restless, runs⟩
  · rw [← whole] at runs
    refine .inl ⟨⟨n, due, runs⟩, fun i less all => rests i (Nat.zero_le i) ?_⟩
    -- The first outcome that is not transient comes later.
    by_contra beyond
    exact due.last (by omega) (all (n - 1) (by omega))
  · rw [← whole] at runs
    refine .inr ⟨?_, i, less, all, restless⟩
    rintro ⟨n, due, runs'⟩
    have same : n = i + 1 := congrArg RetryCourse.calls (congrArg Prod.snd (runs'.symm.trans runs))
    subst same
    exact due.last less (all i le_rfl)

/-- The retry loop meets its reference exactly when it can rest after every outcome it has to try again. -/
theorem retry_exact (policy : RetryPolicy) (outcomes : ℕ → Except Exc α) (draws : ℕ → Draw)
    (allowed : 1 ≤ policy.maxAttempts) :
    MeetsReference policy outcomes draws ↔
      ∀ i, i + 1 < policy.maxAttempts → (∀ j ≤ i, Transient (outcomes j)) →
        Restful policy (i + 1) (outcomes i) (draws i) := by
  rcases meets_or_stops policy outcomes draws allowed with ⟨meets, restful⟩ | ⟨fails, i, less, all, restless⟩
  · exact iff_of_true meets restful
  · exact iff_of_false fails fun restful => restless (restful i less all)

/-- The defaults of the configuration, but for the number of attempts. -/
def samplePolicy (maxAttempts : ℕ) : RetryPolicy := ⟨maxAttempts, .ofRat 1, .ofRat 60⟩

def sampleDraw : Draw := ⟨1 / 2, by decide +kernel, by decide +kernel⟩

/-- A Retry-After, a connection that fails, and an answer. -/
def throttled : ℕ → Except Exc Unit
  | 0 => .error (.httpStatus 429 (some "120") "")
  | 1 => .error (.connectError "")
  | _ => .ok ()

theorem retry_exact_throttled : MeetsReference (samplePolicy 5) throttled fun _ => sampleDraw := by
  refine (retry_exact (samplePolicy 5) throttled (fun _ => sampleDraw) (by decide)).mpr ?_
  intro i less all
  match i with
  | 0 =>
    have read : ownRetryAfter (throttled 0) = some (.ofRat 120) := by decide +kernel
    unfold Restful
    rw [read]
    exact Binary64.ofRat_ne_nan 120
  | 1 => exact ⟨by decide, Binary64.ofRat_ne_nan 1, fun zero => absurd zero.1 (by decide +kernel)⟩
  | i + 2 =>
    obtain ⟨exc, same, _⟩ := all (i + 2) le_rfl
    cases same

/-- A Retry-After that is not a number. -/
def garbled : ℕ → Except Exc Unit
  | 0 => .error (.httpStatus 429 (some "nan") "")
  | _ => .ok ()

/-- NaN cannot be slept, and the 1025th power of a backoff is no float. -/
theorem retry_breaks : ¬ MeetsReference (samplePolicy 2) garbled (fun _ => sampleDraw) ∧
    ¬ MeetsReference (samplePolicy 1026) (fun _ => (.error (.connectError "") : Except Exc Unit))
      fun _ => sampleDraw := by
  constructor
  · rcases meets_or_stops (samplePolicy 2) garbled (fun _ => sampleDraw) (by decide) with ⟨_, restful⟩ | ⟨fails, _⟩
    · have read : ownRetryAfter (garbled 0) = some .nan := by decide +kernel
      have number := restful 0 (by decide) fun j first => by
        cases Nat.le_zero.mp first
        exact ⟨_, rfl, List.mem_cons_self⟩
      unfold Restful at number
      rw [read] at number
      exact absurd rfl number
    · exact fails
  · rcases meets_or_stops (samplePolicy 1026) (fun _ => (.error (.connectError "") : Except Exc Unit))
      (fun _ => sampleDraw) (by decide) with ⟨_, restful⟩ | ⟨fails, _⟩
    · have few := (restful 1024 (by decide) fun _ _ => ⟨_, rfl, trivial⟩).1
      exact absurd few (by decide)
    · exact fails

end Quartr.Soundness
