import Mathlib.Data.List.Perm.Subperm
import Quartr.Model.Sample
import Quartr.Soundness.TrafficPhases

/-! # The limiter and the exact sliding window

Redis keeps a trimmed set with an expiry; the rule it stands for counts over the whole history of
grants. While times do not go back the two agree. Out of order the set may have forgotten slots that
still count, and the limit holds as long as it has not.
-/

namespace Quartr.Soundness

open Quartr.Machine Quartr.Model GlobalSecRateLimiter

/-- The slots with a time in the window `(t - 1000, t]`. -/
def inWindow (t : ℤ) (slots : List Slot) : List Slot :=
  slots.filter fun slot => t - windowMs < slot.score ∧ slot.score ≤ t

section Script

variable {clock now now' t : ℤ} {slot : Slot} {limit : ℕ} {limiter : Limiter} {slots : List Slot}

theorem grants_iff : limiter.grants clock slot windowMs limit = true ↔
    (SlotSet.trim slot.score windowMs (SlotSet.live clock limiter.key)).length < limit := by
  unfold Limiter.grants acquireScript
  dsimp only
  split_ifs with room
  · simp only [room]
  · simp [room]

/-- A granted slot joins what the set still counts. -/
theorem execute_granted (granted : limiter.grants clock slot windowMs limit = true) :
    limiter.execute clock slot windowMs limit =
      { key := some ⟨SlotSet.zadd (SlotSet.trim slot.score windowMs (SlotSet.live clock limiter.key)) slot,
          clock + windowMs * 2⟩
        granted := slot :: limiter.granted
        executed := slot :: limiter.executed } := by
  have room := grants_iff.mp granted
  simp only [Limiter.execute, acquireScript, room, ↓reduceIte]

/-- A refused slot consumes nothing. -/
theorem execute_refused (refused : ¬ limiter.grants clock slot windowMs limit = true) :
    limiter.execute clock slot windowMs limit =
      { key := limiter.key.map fun set =>
          { set with slots := SlotSet.trim slot.score windowMs (SlotSet.live clock limiter.key) }
        granted := limiter.granted
        executed := slot :: limiter.executed } := by
  have full := grants_iff.not.mp refused
  simp only [Limiter.execute, acquireScript, full, ↓reduceIte, Bool.false_eq_true]

theorem zadd_fresh (fresh : ∀ earlier ∈ slots, earlier.member ≠ slot.member) :
    SlotSet.zadd slots slot = slots ++ [slot] := by
  have kept : slots.filter (·.member ≠ slot.member) = slots := by
    apply List.filter_eq_self.mpr
    intro earlier member
    exact decide_eq_true (fresh earlier member)
  rw [SlotSet.zadd, kept]

theorem mem_trim : slot ∈ SlotSet.trim now windowMs slots ↔ slot ∈ slots ∧ now - windowMs < slot.score := by
  simp [SlotSet.trim]

/-- Trimming for a time does not disturb trimming for a later one. -/
theorem trim_trim (later : now ≤ now') :
    SlotSet.trim now' windowMs (SlotSet.trim now windowMs slots) = SlotSet.trim now' windowMs slots := by
  unfold SlotSet.trim
  rw [List.filter_filter]
  apply List.filter_congr
  intro slot _
  rw [Bool.and_eq_left_iff_imp]
  simp only [decide_eq_true_eq]
  omega

theorem mem_live (member : slot ∈ SlotSet.live clock limiter.key) :
    ∃ set, limiter.key = some set ∧ slot ∈ set.slots := by
  cases key : limiter.key with
  | none =>
    rw [key] at member
    cases member
  | some set =>
    rw [key] at member
    simp only [SlotSet.live] at member
    split_ifs at member
    · exact ⟨set, rfl, member⟩
    · cases member

end Script

/-! ### Times in order -/

/-- One execution of the script: the server's clock, and the slot asked for. -/
structure Execution where
  clock : ℤ
  slot : Slot

def Executes (limit : ℕ) (limiter : Limiter) (execution : Execution) (limiter' : Limiter) : Prop :=
  limiter' = limiter.execute execution.clock execution.slot windowMs limit

/-- Times do not go back, members are unique, and a key that is gone was last granted a slot 2000
milliseconds ago or more. -/
structure InOrder (limiter : Limiter) (execution : Execution) : Prop where
  ordered : ∀ earlier ∈ limiter.executed, earlier.score ≤ execution.slot.score
  unique : ∀ earlier ∈ limiter.executed, earlier.member ≠ execution.slot.member
  lasts : ∀ set, limiter.key = some set → set.deadline < execution.clock →
    ∀ last ∈ limiter.granted.head?, last.score + 2000 ≤ execution.slot.score

/-- For every time from now on the set counts what the history of grants counts. -/
structure Mirrors (limiter : Limiter) : Prop where
  known : ∀ set, limiter.key = some set → ∀ slot ∈ set.slots, slot ∈ limiter.executed
  asked : ∀ slot ∈ limiter.granted, slot ∈ limiter.executed
  latest : ∀ last ∈ limiter.granted.head?, ∀ slot ∈ limiter.granted, slot.score ≤ last.score
  counts : ∀ now, (∀ earlier ∈ limiter.executed, earlier.score ≤ now) →
    (SlotSet.trim now windowMs (limiter.key.elim [] SlotSet.slots)).Perm
      (SlotSet.trim now windowMs limiter.granted)

theorem mirrors_empty : Mirrors .empty where
  known set present := by cases present
  asked slot member := by cases member
  latest last found := by cases found
  counts now _ := .nil

section InOrder

variable {limit : ℕ} {limiter limiter' : Limiter} {execution : Execution}

/-- Expiry loses nothing that counts. -/
theorem Mirrors.live (mirrors : Mirrors limiter) (inOrder : InOrder limiter execution) {now : ℤ}
    (later : execution.slot.score ≤ now) :
    (SlotSet.trim now windowMs (SlotSet.live execution.clock limiter.key)).Perm
      (SlotSet.trim now windowMs limiter.granted) := by
  have counts := mirrors.counts now fun earlier member => Int.le_trans (inOrder.ordered earlier member) later
  cases key : limiter.key with
  | none =>
    rw [key] at counts
    exact counts
  | some set =>
    rw [key] at counts
    simp only [SlotSet.live]
    split_ifs with alive
    · exact counts
    · have gone : SlotSet.trim now windowMs limiter.granted = [] := by
        apply List.filter_eq_nil_iff.mpr
        intro slot member
        obtain ⟨last, rest, granted⟩ := List.exists_cons_of_ne_nil (List.ne_nil_of_mem member)
        have head : last ∈ limiter.granted.head? := by simp [granted]
        have old := inOrder.lasts set key (Int.not_le.mp alive) last head
        have latest := mirrors.latest last head slot member
        intro counted
        have counted : now - 1000 < slot.score := of_decide_eq_true counted
        omega
      rw [gone]
      exact .nil

/-- The step lemma: an execution in order keeps the mirror. -/
theorem Mirrors.execute (mirrors : Mirrors limiter) (inOrder : InOrder limiter execution)
    (executes : Executes limit limiter execution limiter') : Mirrors limiter' := by
  have live {now : ℤ} (later : execution.slot.score ≤ now) :
      (SlotSet.trim now windowMs (SlotSet.trim execution.slot.score windowMs
        (SlotSet.live execution.clock limiter.key))).Perm (SlotSet.trim now windowMs limiter.granted) := by
    rw [trim_trim later]
    exact mirrors.live inOrder later
  have known (slot : Slot) (member : slot ∈ SlotSet.trim execution.slot.score windowMs
      (SlotSet.live execution.clock limiter.key)) : slot ∈ limiter.executed := by
    obtain ⟨set, present, inside⟩ := mem_live (mem_trim.mp member).1
    exact mirrors.known set present slot inside
  subst executes
  by_cases granted : limiter.grants execution.clock execution.slot windowMs limit = true
  · have fresh := zadd_fresh fun earlier member => inOrder.unique earlier (known earlier member)
    rw [execute_granted granted, fresh]
    constructor
    · rintro set ⟨⟩ slot member
      rcases List.mem_append.mp member with inside | inside
      · exact List.mem_cons_of_mem _ (known slot inside)
      · exact List.mem_singleton.mp inside ▸ List.mem_cons_self
    · intro slot member
      rcases List.mem_cons.mp member with rfl | member
      · exact List.mem_cons_self
      · exact List.mem_cons_of_mem _ (mirrors.asked slot member)
    · rintro last ⟨⟩ slot member
      rcases List.mem_cons.mp member with rfl | member
      · exact Int.le_refl _
      · exact inOrder.ordered slot (mirrors.asked slot member)
    · intro now later
      have slot_later := later execution.slot List.mem_cons_self
      show (SlotSet.trim now windowMs (_ ++ [execution.slot])).Perm _
      unfold SlotSet.trim at live ⊢
      rw [List.filter_append]
      refine List.perm_append_comm.trans ?_
      have joined : execution.slot :: limiter.granted = [execution.slot] ++ limiter.granted := rfl
      rw [joined, List.filter_append]
      exact (live slot_later).append_left _
  · rw [execute_refused granted]
    constructor
    · intro set present slot member
      obtain ⟨set', present', rfl⟩ := Option.map_eq_some_iff.mp present
      exact List.mem_cons_of_mem _ (known slot member)
    · intro slot member
      exact List.mem_cons_of_mem _ (mirrors.asked slot member)
    · exact mirrors.latest
    · intro now later
      have slot_later := later execution.slot List.mem_cons_self
      have counts := live slot_later
      cases key : limiter.key with
      | none =>
        rw [key] at counts
        exact counts
      | some set =>
        rw [key] at counts
        exact counts

end InOrder

/-- Executed in the order of their times, a slot is granted exactly when fewer than the limit were
granted in the window that ends at its time. -/
theorem exact_sliding_window (limit : ℕ) (executions : List Execution) (limiter : Limiter)
    (run : Path (Guarded (Executes limit) InOrder) .empty executions limiter) (execution : Execution)
    (inOrder : InOrder limiter execution) :
    limiter.grants execution.clock execution.slot windowMs limit = true ↔
      (inWindow execution.slot.score limiter.granted).length < limit := by
  have mirrors : Mirrors limiter := by
    refine run.invariant ?_ mirrors_empty
    intro limiter execution limiter' step mirrors
    exact mirrors.execute step.1 step.2
  have same : inWindow execution.slot.score limiter.granted =
      SlotSet.trim execution.slot.score windowMs limiter.granted := by
    apply List.filter_congr
    intro slot member
    have earlier := inOrder.ordered slot (mirrors.asked slot member)
    simp [earlier]
  rw [grants_iff, same, (mirrors.live inOrder (Int.le_refl _)).length_eq]

theorem exact_sliding_window_boundary :
    (Limiter.empty.execute 1000 ⟨"a", 1000⟩ windowMs 1).grants 2000 ⟨"b", 2000⟩ windowMs 1 = true ↔
      (inWindow 2000 (Limiter.empty.execute 1000 ⟨"a", 1000⟩ windowMs 1).granted).length < 1 := by
  refine exact_sliding_window 1 [⟨1000, ⟨"a", 1000⟩⟩] _ (.cons ⟨⟨?_, ?_, ?_⟩, rfl⟩ (.nil _))
    ⟨2000, ⟨"b", 2000⟩⟩ ⟨by decide, by decide, ?_⟩
  · intro earlier member
    cases member
  · intro earlier member
    cases member
  · intro set present
    cases present
  · rintro set ⟨⟩ expired
    exact absurd expired (by decide)

/-! ### Times out of order -/

/-- Where the set has room for a slot, it has forgotten no granted slot that the window of the new one
still counts: none was trimmed for a later time, and none was lost with the key. -/
def Remembers (clock : ℤ) (slot : Slot) (windowMs : ℤ) (limit : ℕ) (limiter : Limiter) : Prop :=
  (SlotSet.trim slot.score windowMs (SlotSet.live clock limiter.key)).length < limit →
    ∀ earlier ∈ limiter.granted, slot.score - windowMs < earlier.score →
      earlier ∈ SlotSet.live clock limiter.key

def RemembersAt (config : SecConfig) : SecEvent → Prop
  | .reply _ (.acquireSlot slot windowMs limit) _ =>
    Remembers config.world.clock slot windowMs limit config.world.limiter
  | _ => True

instance (config : SecConfig) (event : SecEvent) : Decidable (RemembersAt config event) :=
  match event with
  | .reply _ (.acquireSlot _ _ _) _ => inferInstanceAs (Decidable (_ → _))
  | .reply _ .slot _ => isTrue trivial
  | .reply _ .monotonic _ => isTrue trivial
  | .reply _ .time _ => isTrue trivial
  | .reply _ .sleep _ => isTrue trivial
  | .reply _ (.send _ _) _ => isTrue trivial
  | .reply _ (.receive _) _ => isTrue trivial
  | .reply _ (.saveToDisk _) _ => isTrue trivial
  | .start _ _ => isTrue trivial
  | .kill _ => isTrue trivial

/-- No window holds more granted slots than the limit. -/
structure Limited (limit : ℕ) (limiter : Limiter) : Prop where
  asked : ∀ slot ∈ limiter.granted, slot ∈ limiter.executed
  once : limiter.granted.Nodup
  within : ∀ t, (inWindow t limiter.granted).length ≤ limit

theorem limited_empty (limit : ℕ) : Limited limit .empty where
  asked slot member := by cases member
  once := .nil
  within t := Nat.zero_le _

/-- The step lemma: an execution that has forgotten nothing keeps the limit. -/
theorem Limited.execute {limit : ℕ} {limiter : Limiter} {clock : ℤ} {slot : Slot}
    (limited : Limited limit limiter) (unique : ∀ earlier ∈ limiter.executed, earlier.member ≠ slot.member)
    (remembers : Remembers clock slot windowMs limit limiter) :
    Limited limit (limiter.execute clock slot windowMs limit) := by
  by_cases granted : limiter.grants clock slot windowMs limit = true
  · have room := grants_iff.mp granted
    rw [execute_granted granted]
    constructor
    · intro earlier member
      rcases List.mem_cons.mp member with rfl | member
      · exact List.mem_cons_self
      · exact List.mem_cons_of_mem _ (limited.asked earlier member)
    · apply List.nodup_cons.mpr
      refine ⟨?_, limited.once⟩
      intro member
      exact unique slot (limited.asked slot member) rfl
    · intro t
      show (inWindow t (slot :: limiter.granted)).length ≤ limit
      by_cases inside : t - windowMs < slot.score ∧ slot.score ≤ t
      · -- The window reaches back no further than the one of the new slot, which the set counts.
        have counted : (inWindow t limiter.granted).length ≤
            (SlotSet.trim slot.score windowMs (SlotSet.live clock limiter.key)).length := by
          apply List.Subperm.length_le
          apply List.Nodup.subperm (limited.once.filter _)
          intro earlier member
          obtain ⟨member, window⟩ := List.mem_filter.mp member
          have window := of_decide_eq_true window
          have late : slot.score - windowMs < earlier.score := by omega
          exact mem_trim.mpr ⟨remembers room earlier member late, late⟩
        have joined : inWindow t (slot :: limiter.granted) = slot :: inWindow t limiter.granted :=
          List.filter_cons_of_pos (decide_eq_true inside)
        rw [joined, List.length_cons]
        omega
      · have apart : inWindow t (slot :: limiter.granted) = inWindow t limiter.granted :=
          List.filter_cons_of_neg (by simpa using inside)
        rw [apart]
        exact limited.within t
  · rw [execute_refused granted]
    constructor
    · intro earlier member
      exact List.mem_cons_of_mem _ (limited.asked earlier member)
    · exact limited.once
    · exact limited.within

theorem start_limiter {world world' : SecWorld} {activity : SecActivity}
    (starts : SecTraffic.start world activity world') : world'.limiter = world.limiter := by
  cases activity with
  | elapse ms =>
    obtain rfl : world' = { world with clock := world.clock + ms } := starts
    rfl
  | _ => exact congrArg SecWorld.limiter starts

/-- What a call leaves of the limiter: it stays, or the script ran for a member of its own. -/
theorem serves_limiter {world world' : SecWorld} {call : SecCall} {reply : secCalls.Reply call}
    (serves : SecTraffic.Serves call world reply world') :
    world'.limiter = world.limiter ∨ ∃ slot windowMs limit, call = .acquireSlot slot windowMs limit ∧
      (∀ earlier ∈ world.limiter.executed, earlier.member ≠ slot.member) ∧
      world'.limiter = world.limiter.execute world.clock slot windowMs limit := by
  cases call with
  | acquireSlot slot windowMs limit =>
    rcases serves with ⟨rfl, _⟩ | ⟨unique, rfl, _⟩
    · exact .inl rfl
    · exact .inr ⟨slot, windowMs, limit, rfl, unique, rfl⟩
  | _ => exact .inl (congrArg SecWorld.limiter serves)

/-- However the executions are ordered, the limit holds in every window as long as the set has
forgotten nothing that an execution should have counted. -/
theorem window_limited (settings : SecSettings) (world : SecWorld) (unused : world.limiter = .empty)
    (events : List SecEvent) (config : SecConfig)
    (run : Path (Guarded (secTraffic settings).Step RemembersAt) (.idle world) events config) (t : ℤ) :
    (inWindow t config.world.limiter.granted).length ≤ limit settings := by
  have limited : ∃ view : Config secCalls SecWorld SecActivity TrafficPhase,
      config.Views (trafficOutline settings) (fun _ _ _ _ => True) view ∧
        Limited (limit settings) view.world.limiter := by
    refine (traffic_refines settings).invariant ?_ run (unused ▸ limited_empty _)
    intro config view event view' views remembers step limited
    cases step with
    | start absent begins =>
      rw [Config.put_world, start_limiter begins]
      exact limited
    | kill => exact limited
    | reply present alive moves served =>
      rw [Config.put_world]
      rcases serves_limiter served with stays | ⟨slot, window, bound, rfl, unique, ran⟩
      · rw [stays]
        exact limited
      · rw [RemembersAt, views.world] at remembers
        obtain ⟨rfl, rfl⟩ := acquire_bounds moves
        rw [ran]
        exact limited.execute unique remembers
  obtain ⟨view, views, limited⟩ := limited
  rw [views.world]
  exact limited.within t

/-- A process asks for a slot as soon as it begins. -/
def asks (id : ℕ) (member : String) : List (Move SecActivity String) :=
  [.start id Sample.fetch, .serve id member, .serve id member, .serve id member]

theorem window_limited_undisturbed : ∃ events config,
    Path (Guarded (secTraffic Sample.secSettings).Step RemembersAt) (.idle Sample.secWorld) events config ∧
      config.world.limiter.granted = [⟨"b", 1000⟩, ⟨"a", 1000⟩] ∧
      (inWindow 1000 config.world.limiter.granted).length ≤ limit Sample.secSettings := by
  have plays : (SecTraffic.player Sample.secSettings).Plays RemembersAt
      (fun config => config.world.limiter.granted = [⟨"b", 1000⟩, ⟨"a", 1000⟩])
      (.idle Sample.secWorld) (asks 0 "a" ++ asks 1 "b" ++ asks 2 "c") := by
    decide +kernel
  obtain ⟨events, config, run, granted, _⟩ := plays.path
  exact ⟨events, config, run, granted, window_limited Sample.secSettings Sample.secWorld rfl events config run 1000⟩

/-- A caller that read its clock at 1999 is overtaken by one that read 2100, whose execution trims the
slots of 1000 and 1100: three of two slots in the second that ends at 1999. -/
theorem window_overrun : ∃ events config,
    Path (secTraffic Sample.secSettings).Step (.idle Sample.secWorld) events config ∧
      ¬ (inWindow 1999 config.world.limiter.granted).length ≤ limit Sample.secSettings := by
  have plays : (SecTraffic.player Sample.secSettings).Plays (fun _ _ => True)
      (fun config => ¬ (inWindow 1999 config.world.limiter.granted).length ≤ limit Sample.secSettings)
      (.idle Sample.secWorld)
      (asks 0 "a" ++ [.start 1 (.elapse 100)] ++ asks 2 "b" ++ [.start 3 (.elapse 899)] ++
        [.start 4 Sample.fetch, .serve 4 "late", .serve 4 "late"] ++ [.start 5 (.elapse 101)] ++
        asks 6 "c" ++ [.serve 4 "late"]) := by
    decide +kernel
  obtain ⟨events, config, run, overrun, _⟩ := plays.path
  exact ⟨events, config, run.mono fun _ _ _ step => step.2, overrun⟩

end Quartr.Soundness
