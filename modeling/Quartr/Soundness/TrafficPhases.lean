import Mathlib.Tactic.SplitIfs
import Quartr.Model.SecTraffic

/-! # Asking SEC, in phases

A process holds a granted slot or it does not, and a refresh of the listing that found it stale goes
on without one. `traffic_refines` says that the code follows these phases.
-/

namespace Quartr.Soundness

open Quartr.Machine Quartr.Model
open Quartr.Machine.Coroutine (Follows follows_bind follows_tryCatch)

inductive TrafficPhase where
  | unpaid
  | paid
  | bypassing
deriving DecidableEq

/-- Calls that neither ask for a slot nor send anything. -/
def SecCall.Idle : SecCall → Prop
  | .slot => True
  | .monotonic => True
  | .sleep => True
  | .receive _ => True
  | _ => False

/-- What a refresh awaits once it found the listing stale. -/
def SecCall.Refreshes : SecCall → Prop
  | .send _ _ => True
  | .receive _ => True
  | .time => True
  | .saveToDisk _ => True
  | _ => False

inductive TrafficStep (settings : SecSettings) (activity : SecActivity) : Protocol secCalls TrafficPhase
  | wait {call : SecCall} (reply : secCalls.Reply call) (idle : SecCall.Idle call) :
      TrafficStep settings activity .unpaid call reply .unpaid
  | granted (slot : Slot) (client : ∀ listing, activity ≠ .freshen listing) :
      TrafficStep settings activity .unpaid
        (.acquireSlot slot GlobalSecRateLimiter.windowMs (GlobalSecRateLimiter.limit settings)) (.ok true) .paid
  | refused (slot : Slot) (reply : Except SecErr Bool) (nothing : reply ≠ .ok true) :
      TrafficStep settings activity .unpaid
        (.acquireSlot slot GlobalSecRateLimiter.windowMs (GlobalSecRateLimiter.limit settings)) reply .unpaid
  | send (url : String) (headers : List (String × String)) (reply : Except SecErr Unit) :
      TrafficStep settings activity .paid (.send url headers) reply .unpaid
  | fresh (listing : Listing) (is : activity = .freshen listing) (reply : Except SecErr ℤ)
      (current : ∀ now, reply = .ok now → ¬ listing.stale settings now) :
      TrafficStep settings activity .unpaid .time reply .unpaid
  | stale (listing : Listing) (is : activity = .freshen listing) (now : ℤ)
      (old : listing.stale settings now) :
      TrafficStep settings activity .unpaid .time (.ok now) .bypassing
  | refresh {call : SecCall} (reply : secCalls.Reply call) (part : SecCall.Refreshes call) :
      TrafficStep settings activity .bypassing call reply .bypassing

/-- Every process asks for the same window and limit. -/
theorem acquire_bounds {settings : SecSettings} {activity : SecActivity} {phase phase' : TrafficPhase}
    {slot : Slot} {windowMs : ℤ} {limit : ℕ} {reply : Except SecErr Bool}
    (step : TrafficStep settings activity phase (.acquireSlot slot windowMs limit) reply phase') :
    windowMs = GlobalSecRateLimiter.windowMs ∧ limit = GlobalSecRateLimiter.limit settings := by
  cases step with
  | wait _ idle => cases idle
  | granted => exact ⟨rfl, rfl⟩
  | refused => exact ⟨rfl, rfl⟩
  | refresh _ part => cases part

section Follows

variable {settings : SecSettings} {activity : SecActivity} {σ α : Type} {object : σ}

theorem follows_secCall {Phase : Type} {protocol : Protocol secCalls Phase} {phase : Phase} {c : SecCall}
    {post : Except SecErr c.Answer → σ → Phase → Prop} :
    Follows protocol (secCall c) object phase post ↔
      ∀ reply : secCalls.Reply c, ∃ phase', protocol phase c reply phase' ∧ post reply object phase' := by
  apply Coroutine.follows_await.trans
  apply forall_congr'
  rintro (error | answer)
  · exact Iff.rfl
  · exact Iff.rfl

/-- A body that returns normally with a slot and raises without one. -/
def Pays (result : Except SecErr α) (phase : TrafficPhase) : Prop :=
  match result with
  | .ok _ => phase = .paid
  | .error _ => phase = .unpaid

theorem follows_idle (c : SecCall) (idle : SecCall.Idle c) {post : Except SecErr c.Answer → σ → TrafficPhase → Prop}
    (goes_on : ∀ result, post result object .unpaid) :
    Follows (TrafficStep settings activity) (secCall c) object .unpaid post := by
  apply follows_secCall.mpr
  intro reply
  exact ⟨_, .wait reply idle, goes_on reply⟩

theorem checkTimeout_follows (timeout : Option ℤ) (start : ℤ) :
    Follows (TrafficStep settings activity) (GlobalSecRateLimiter.checkTimeout timeout start) object
      .unpaid fun _ _ phase => phase = .unpaid := by
  cases timeout with
  | none => exact rfl
  | some timeout =>
    apply follows_bind.mpr
    apply follows_idle .monotonic trivial
    rintro (error | now)
    · exact rfl
    · dsimp only
      split_ifs
      · exact rfl
      · exact rfl

theorem httpGet_follows {url : String} {headers : List (String × String)} :
    Follows (TrafficStep settings activity) (SecClient.httpGet url headers) object .paid
      fun _ _ phase => phase = .unpaid := by
  apply follows_bind.mpr
  apply follows_secCall.mpr
  rintro (error | _)
  · exact ⟨_, .send url headers _, rfl⟩
  · refine ⟨_, .send url headers _, follows_idle (.receive url) trivial ?_⟩
    intro result
    exact rfl

section Retry

variable {fn : SecAsync σ α} (each : ∀ object, Follows (TrafficStep settings activity) fn object .unpaid
  fun _ _ phase => phase = .unpaid)

include each

theorem retryAttempt_follows : Follows (TrafficStep settings activity) (RetryPolicy.attempt fn) object .unpaid
    fun _ _ phase => phase = .unpaid := by
  apply follows_tryCatch.mpr
  apply follows_bind.mpr
  apply Follows.mono (each object)
  rintro (error | value) object' phase rfl
  · apply follows_bind.mpr
    apply Coroutine.follows_lift.mpr
    cases RetryPolicy.classify error with
    | error exc => exact rfl
    | ok lastExc => exact rfl
  · exact rfl

/-- Induction on the attempts that are left: each of them asks for a slot of its own. -/
theorem retry_follows (remaining : ℕ) (lastExc : Option SecErr) :
    Follows (TrafficStep settings activity) (RetryPolicy.retry fn remaining lastExc) object .unpaid
      fun _ _ phase => phase = .unpaid := by
  induction remaining generalizing object lastExc with
  | zero =>
    cases lastExc with
    | none => exact rfl
    | some exc => exact rfl
  | succ remaining ih =>
    apply follows_bind.mpr
    apply Follows.mono (retryAttempt_follows each)
    rintro (error | exc | value) object' phase rfl
    · exact rfl
    · apply follows_bind.mpr
      unfold RetryPolicy.backoff
      split_ifs
      · apply follows_idle .sleep trivial
        rintro (error | _)
        · exact rfl
        · exact ih (some exc)
      · exact ih (some exc)
    · exact rfl

end Retry

/-! ### The client -/

section Client

variable (client : ∀ listing, activity ≠ .freshen listing)

include client

theorem tryAcquire_follows :
    Follows (TrafficStep settings activity) (GlobalSecRateLimiter.tryAcquire settings) object .unpaid
      fun result _ phase => phase = if result.toOption = some true then .paid else .unpaid := by
  apply follows_bind.mpr
  apply follows_secCall.mpr
  rintro (error | slot)
  · exact ⟨_, .wait _ trivial, rfl⟩
  · refine ⟨_, .wait _ trivial, follows_secCall.mpr ?_⟩
    rintro (error | _ | _)
    · exact ⟨_, .refused slot _ (by simp), rfl⟩
    · exact ⟨_, .refused slot _ (by simp), rfl⟩
    · exact ⟨_, .granted slot client, rfl⟩

/-- Induction on the polls that are left. -/
theorem poll_follows (timeout : Option ℤ) (start : ℤ) (polls : ℕ) :
    Follows (TrafficStep settings activity) (GlobalSecRateLimiter.poll settings timeout start polls) object
      .unpaid fun result _ phase => Pays result phase := by
  induction polls generalizing object with
  | zero => exact rfl
  | succ polls ih =>
    apply follows_bind.mpr
    apply Follows.mono (tryAcquire_follows client)
    rintro (error | _ | _) object' phase rfl
    · exact rfl
    · apply follows_bind.mpr
      apply Follows.mono (checkTimeout_follows timeout start)
      rintro (error | _) object'' phase rfl
      · exact rfl
      · apply follows_bind.mpr
        apply follows_idle .sleep trivial
        rintro (error | _)
        · exact rfl
        · exact ih
    · exact rfl

theorem acquire_follows (timeout : Option ℤ) (polls : ℕ) :
    Follows (TrafficStep settings activity) (GlobalSecRateLimiter.acquire settings timeout polls) object
      .unpaid fun result _ phase => Pays result phase := by
  apply follows_bind.mpr
  apply follows_idle .monotonic trivial
  rintro (error | start)
  · exact rfl
  · exact poll_follows client timeout start polls

/-- A request uses the slot it was granted; a wait that timed out sends nothing. -/
theorem doRequest_follows {polls : ℕ} {url : String} {headers : List (String × String)} :
    Follows (TrafficStep settings activity) (SecClient.doRequest settings polls url headers) object .unpaid
      fun _ _ phase => phase = .unpaid := by
  apply follows_bind.mpr
  apply Follows.mono (acquire_follows client (some 30000) polls)
  rintro (error | _) object' phase rfl
  · exact rfl
  · apply follows_bind.mpr
    apply Follows.mono httpGet_follows
    rintro (error | resp) object'' phase rfl
    · exact rfl
    · dsimp only
      split_ifs
      · exact rfl
      · apply follows_bind.mpr
        apply Coroutine.follows_lift.mpr
        cases resp.raiseForStatus with
        | error error => exact rfl
        | ok _ => exact rfl

theorem get_follows {polls : ℕ} {url : String} {cached : Option CachedResponse} :
    Follows (TrafficStep settings activity) (SecClient.get settings polls url cached) object .unpaid
      fun _ _ phase => phase = .unpaid :=
  retry_follows (fun _ => doRequest_follows client) _ _

end Client

/-! ### The refresh -/

theorem follows_refresh (c : SecCall) (part : SecCall.Refreshes c)
    {post : Except SecErr c.Answer → σ → TrafficPhase → Prop}
    (goes_on : ∀ result, post result object .bypassing) :
    Follows (TrafficStep settings activity) (secCall c) object .bypassing post := by
  apply follows_secCall.mpr
  intro reply
  exact ⟨_, .refresh reply part, goes_on reply⟩

/-- Whatever a refresh awaits, it asks for no slot. -/
theorem refresh_follows {listing : Listing} :
    Follows (TrafficStep settings activity) (Listing.refresh settings) listing .bypassing
      fun _ _ phase => phase = .bypassing := by
  apply follows_bind.mpr
  apply follows_bind.mpr
  apply follows_refresh (.send settings.companyTickersUrl []) trivial
  rintro (error | _)
  · exact rfl
  apply follows_refresh (.receive settings.companyTickersUrl) trivial
  rintro (error | resp)
  · exact rfl
  apply follows_bind.mpr
  apply Coroutine.follows_lift.mpr
  cases resp.raiseForStatus with
  | error error => exact rfl
  | ok _ =>
    apply follows_bind.mpr
    apply Coroutine.follows_lift.mpr
    cases resp.companies with
    | error error => exact rfl
    | ok records =>
      dsimp only
      split_ifs
      · apply follows_bind.mpr
        apply Coroutine.follows_modify.mpr
        apply follows_bind.mpr
        apply follows_refresh .time trivial
        rintro (error | now)
        · exact rfl
        · apply follows_bind.mpr
          apply Coroutine.follows_modify.mpr
          apply follows_bind.mpr
          apply Coroutine.follows_get.mpr
          apply follows_refresh (.saveToDisk _) trivial
          intro result
          exact rfl
      · exact rfl

theorem ensureFresh_follows {listing : Listing} :
    Follows (TrafficStep settings (.freshen listing)) (Listing.ensureFresh settings) listing .unpaid
      fun _ _ _ => True := by
  apply follows_bind.mpr
  apply follows_secCall.mpr
  rintro (error | now)
  · exact ⟨_, .fresh listing rfl _ (fun now same => by cases same), trivial⟩
  · by_cases old : listing.stale settings now
    · refine ⟨_, .stale listing rfl now old, follows_bind.mpr (Coroutine.follows_get.mpr ?_)⟩
      simp only [old, ↓reduceIte]
      apply follows_tryCatch.mpr
      apply Follows.mono refresh_follows
      rintro (error | _) object' phase rfl
      · exact trivial
      · exact trivial
    · refine ⟨_, .fresh listing rfl _ ?_, follows_bind.mpr (Coroutine.follows_get.mpr ?_)⟩
      · rintro _ ⟨⟩
        exact old
      · simp only [old, ↓reduceIte]
        exact trivial

end Follows

/-- The traffic with phases for control. -/
def trafficOutline (settings : SecSettings) : System secCalls SecWorld SecActivity TrafficPhase :=
  ⟨fun _ _ => .unpaid, fun _ => TrafficStep settings, SecTraffic.start, SecTraffic.Serves⟩

/-- The code follows the phases. -/
theorem traffic_refines (settings : SecSettings) :
    Refinement (secTraffic settings) (trafficOutline settings) fun _ _ _ _ => True := by
  refine ⟨rfl, rfl, rfl, ?_⟩
  intro id activity
  cases activity with
  | submissions cik cached polls =>
    apply Program.Follows.bind_iff.mpr
    exact Program.Follows.mono (get_follows fun listing same => by cases same) fun _ _ _ => trivial
  | document url polls =>
    apply Program.Follows.bind_iff.mpr
    exact Program.Follows.mono (get_follows fun listing same => by cases same) fun _ _ _ => trivial
  | freshen listing =>
    apply Program.Follows.bind_iff.mpr
    exact Program.Follows.mono ensureFresh_follows fun _ _ _ => trivial
  | elapse ms => exact trivial

end Quartr.Soundness
