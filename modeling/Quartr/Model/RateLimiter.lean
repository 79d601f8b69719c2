import Mathlib.Data.Int.Notation
import Mathlib.Data.Nat.Notation

/-! # The global rate limiter

Redis keeps one sorted set: the slots granted of late, each a unique member scored with the time its
caller read before the script ran. `acquireScript` is the Lua script; what it forgets by trimming, or
loses when the key expires, the `Limiter` remembers as history, which Redis does not keep.
-/

namespace Quartr.Model

/-- A member of the sorted set, or one a caller means to add; times are in milliseconds. -/
structure Slot where
  member : String
  score : ℤ
deriving DecidableEq, Repr

/-- The sorted set under the key, and when the key expires by the clock of the server. -/
structure SlotSet where
  slots : List Slot
  deadline : ℤ
deriving DecidableEq, Repr

namespace SlotSet

/-- The members the server still sees; an expired key is as good as deleted. -/
def live (clock : ℤ) : Option SlotSet → List Slot
  | none => []
  | some set => if clock ≤ set.deadline then set.slots else []

/-- What ZREMRANGEBYSCORE from `-inf` to `now - window` leaves. -/
def trim (nowMs windowMs : ℤ) (slots : List Slot) : List Slot :=
  slots.filter fun slot => nowMs - windowMs < slot.score

/-- ZADD: a member that is there already is moved to the new score. -/
def zadd (slots : List Slot) (slot : Slot) : List Slot :=
  slots.filter (·.member ≠ slot.member) ++ [slot]

end SlotSet

/-- `_ACQUIRE_LUA`, executed when the server's clock reads `clock`. -/
def acquireScript (clock : ℤ) (slot : Slot) (windowMs : ℤ) (limit : ℕ) (key : Option SlotSet) :
    Bool × Option SlotSet :=
  let kept := SlotSet.trim slot.score windowMs (SlotSet.live clock key)
  if kept.length < limit then (true, some ⟨SlotSet.zadd kept slot, clock + windowMs * 2⟩)
  else (false, key.map fun set => { set with slots := kept })

/-- The key together with its history: the slots granted and all slots asked for, latest first. -/
structure Limiter where
  key : Option SlotSet
  granted : List Slot
  executed : List Slot
deriving DecidableEq, Repr

namespace Limiter

/-- Before the first execution. -/
def empty : Limiter := ⟨none, [], []⟩

/-- One execution of the script. -/
def execute (clock : ℤ) (slot : Slot) (windowMs : ℤ) (limit : ℕ) (limiter : Limiter) : Limiter :=
  let outcome := acquireScript clock slot windowMs limit limiter.key
  { key := outcome.2
    granted := if outcome.1 then slot :: limiter.granted else limiter.granted
    executed := slot :: limiter.executed }

/-- What that execution answers. -/
def grants (clock : ℤ) (slot : Slot) (windowMs : ℤ) (limit : ℕ) (limiter : Limiter) : Bool :=
  (acquireScript clock slot windowMs limit limiter.key).1

end Limiter

end Quartr.Model
