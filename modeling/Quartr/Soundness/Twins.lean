import Quartr.Model.Companies
import Quartr.Soundness.Keeping

/-! # The same code in two worlds

Code that keeps to a region does the same in two worlds that do not differ there: it makes matching calls,
sees no difference between the replies, and leaves the worlds equal on the region.
-/

namespace Quartr.Soundness

open Quartr.Machine Quartr.Model

variable {α : Type} {region region' : Region} {capacity : ℕ} {opened opened' : ℕ → ℕ → Prop}

/-! ### Programs in step -/

/-- What is left to do is the same, but for the descriptor of a file opened just now. -/
inductive Twins (region : Region) (capacity : ℕ) (opened : ℕ → ℕ → Prop) : Program calls α → Program calls α → Prop
  | same {program : Program calls α} (keeps : KeepsTo region capacity (fun _ => True) program) :
      Twins region capacity opened program program
  | writing {file file' : ℕ} {data : Bytes} {rest : Except CallError Unit → Program calls α}
      (both : opened file file') (later : ∀ reply, KeepsTo region capacity (fun _ => True) (rest reply)) :
      Twins region capacity opened (.await (.writeFile file data) rest) (.await (.writeFile file' data) rest)

/-- The calls that twins make. -/
inductive Matching (region : Region) (opened : ℕ → ℕ → Prop) : Call → Call → Prop
  | within {call : Call} (inside : region.Within call) : Matching region opened call call
  | depth : Matching region opened .xlen .xlen
  | store {path : String} (inside : region.file path) :
      Matching region opened (.openTruncate path) (.openTruncate path)
  | write {file file' : ℕ} (both : opened file file') (data : Bytes) :
      Matching region opened (.writeFile file data) (.writeFile file' data)

/-- Replies between which twins see no difference. -/
inductive Replied (region : Region) (capacity : ℕ) (opened : ℕ → ℕ → Prop) :
    (call call' : Call) → calls.Reply call → calls.Reply call' → Prop
  | within {call : Call} {reply : calls.Reply call} (inside : region.Within call)
      (trusted : region.Trusts call reply) : Replied region capacity opened call call reply reply
  | raised (call call' : Call) (error : CallError) :
      Replied region capacity opened call call' (.error error) (.error error)
  | depth {depth depth' : ℕ} (below : depth < capacity) (below' : depth' < capacity) :
      Replied region capacity opened .xlen .xlen (.ok depth) (.ok depth')
  | store {path : String} {file file' : ℕ} (both : opened file file') :
      Replied region capacity opened (.openTruncate path) (.openTruncate path) (.ok file) (.ok file')
  | write (file file' : ℕ) (data : Bytes) :
      Replied region capacity opened (.writeFile file data) (.writeFile file' data) (.ok ()) (.ok ())

/-- Twins make matching calls, and stay twins whatever they are replied to them. -/
theorem Twins.step {program : Program calls α} {call' : Call} {next' : calls.Reply call' → Program calls α}
    (twins : Twins region capacity opened program (.await call' next')) :
    ∃ (call : Call) (next : calls.Reply call → Program calls α), program = .await call next ∧
      Matching region opened call call' ∧ ∀ (opened' : ℕ → ℕ → Prop) reply reply',
        Replied region capacity opened' call call' reply reply' →
        Twins region capacity opened' (next reply) (next' reply') := by
  cases twins with
  | same keeps =>
    cases keeps with
    | call call next inside later =>
      refine ⟨call', _, rfl, .within inside, fun opened' reply reply' replied => ?_⟩
      cases replied with
      | within _ trusted => exact .same (later _ trusted)
      | raised =>
        refine .same (later _ ?_)
        cases call' <;> trivial
      | depth => exact inside.elim
      | store => exact inside.elim
      | write => exact inside.elim
    | depth next rest roomy later raised =>
      refine ⟨.xlen, _, rfl, .depth, fun opened' reply reply' replied => ?_⟩
      cases replied with
      | within inside => exact inside.elim
      | raised => exact .same (raised _)
      | depth below below' =>
        rw [roomy _ below, roomy _ below']
        exact .same later
    | store path data next rest inside opens later raised =>
      refine ⟨.openTruncate path, _, rfl, .store inside, fun opened' reply reply' replied => ?_⟩
      cases replied with
      | within inside => exact inside.elim
      | raised => exact .same (raised _)
      | store both =>
        rw [opens, opens]
        exact .writing both later
  | writing both later =>
    refine ⟨_, _, rfl, .write both _, fun opened' reply reply' replied => ?_⟩
    cases replied with
    | within inside => exact inside.elim
    | raised => exact .same (later _)
    | write => exact .same (later _)

theorem Twins.done {program : Program calls α} {value : α}
    (twins : Twins region capacity opened program (.done value)) : program = .done value := by
  cases twins
  rfl

theorem Twins.mono {program program' : Program calls α} (twins : Twins region capacity opened program program')
    (implies : ∀ file file', opened file file' → opened' file file') :
    Twins region capacity opened' program program' := by
  cases twins with
  | same keeps => exact .same keeps
  | writing both later => exact .writing (implies _ _ both) later

/-! ### Worlds that are equal on the region -/

/-- The depth that one is told who is alone. -/
def unqueued : (call : Call) → calls.Reply call → calls.Reply call
  | .xlen, .ok _ => .ok 0
  | _, reply => reply

theorem unqueued_error (call : Call) (error : CallError) : unqueued call (.error error) = .error error := by
  cases call <;> rfl

/-- One name in the region leads to the two files. -/
def Named (region : Region) (world world' : World) (file file' : ℕ) : Prop :=
  ∃ path, region.file path ∧ world.files.file path = some file ∧ world'.files.file path = some file'

/-- The code has come as far in the one world as in the other, and they are equal on the region. -/
structure Alongside (region : Region) (capacity : ℕ) (program : Program calls α) (world : World)
    (program' : Program calls α) (world' : World) : Prop where
  twins : Twins region capacity (Named region world world') program program'
  same : region.SameOn world world'
  sane : region.Sane world
  sane' : region.Sane world'
  owns : region.Owns world'

section Alongside

variable {program program' : Program calls α} {world world' world'' : World} {call call' : Call}

/-- What a matching pair of calls changes. -/
theorem Matching.effect (matching : Matching region (Named region world world') call call')
    (same : region.SameOn world world') (sane : region.Sane world) (sane' : region.Sane world')
    (owns : region.Owns world') :
    region.SameOn (world.after call) (world'.after call') ∧ region.Sane (world.after call) ∧
      region.Elsewhere world' (world'.after call') ∧ region.Owns (world'.after call') := by
  cases matching with
  | within inside =>
    exact ⟨same.after sane sane' inside, (inside.elsewhere sane).sane, inside.elsewhere sane', owns.after inside⟩
  | depth => exact ⟨same, sane, .refl sane', owns⟩
  | @store path inside =>
    exact ⟨same.openTruncate sane.sound sane'.sound path, ⟨sane.sound.openTruncate, sane.grown⟩,
      Region.elsewhere_openTruncate inside sane', owns⟩
  | write both data =>
    obtain ⟨path, inside, named, named'⟩ := both
    refine ⟨same.write sane.sound sane'.sound inside named named' data, ⟨sane.sound.write, sane.grown⟩, ?_, owns⟩
    refine Region.elsewhere_write (fun other found => ?_) sane' data
    rw [sane'.sound.apart other path _ found named']
    exact inside

/-- A matching pair of calls is replied to alike. -/
theorem Matching.reply (matching : Matching region (Named region world world') call call')
    (same : region.SameOn world world') (owns : region.Owns world')
    (roomy : call'.asksDepth = true → world'.depth < capacity) (outside : Outside) :
    Replied region capacity (Named region (world.after call) (world'.after call')) call call'
      (unqueued call (world.reply outside call)) (world'.reply outside call') := by
  cases matching with
  | within inside =>
    have plain : unqueued call (world.reply outside call) = world'.reply outside call := by
      rw [← same.reply inside]
      cases call with
      | xlen => exact inside.elim
      | _ => rfl
    rw [plain]
    exact .within inside (owns.reply inside outside)
  | depth =>
    have room := roomy rfl
    exact .depth (Nat.zero_lt_of_lt room) room
  | store inside =>
    exact .store ⟨_, inside, FileSystem.openTruncate_opened, FileSystem.openTruncate_opened⟩
  | write both data => exact .write ..

/-- A call of the code is answered in the shared world as if the code were alone. -/
theorem Alongside.own {next' : calls.Reply call' → Program calls α}
    (alongside : Alongside region capacity program world (.await call' next') world')
    (outside : Outside) (outcome : CallOutcome) (roomy : call'.asksDepth = true → world'.depth < capacity) :
    ∃ (call : Call) (next : calls.Reply call → Program calls α), program = .await call next ∧
      Alongside region capacity (next (unqueued call (world.answerAs outside outcome call).1))
        (world.answerAs outside outcome call).2 (next' (world'.answerAs outside outcome call').1)
        (world'.answerAs outside outcome call').2 ∧
      Replied region capacity
        (Named region (world.answerAs outside outcome call).2 (world'.answerAs outside outcome call').2) call call'
        (unqueued call (world.answerAs outside outcome call).1) (world'.answerAs outside outcome call').1 := by
  obtain ⟨call, next, rfl, matching, later⟩ := alongside.twins.step
  refine ⟨call, next, rfl, ?_⟩
  obtain ⟨same, sane, elsewhere, owns⟩ :=
    matching.effect alongside.same alongside.sane alongside.sane' alongside.owns
  suffices replied : Replied region capacity
      (Named region (world.answerAs outside outcome call).2 (world'.answerAs outside outcome call').2) call call'
      (unqueued call (world.answerAs outside outcome call).1) (world'.answerAs outside outcome call').1 by
    refine ⟨⟨later _ _ _ replied, ?_, ?_, ?_, ?_⟩, replied⟩
    all_goals simp only [World.answerAs_world]
    all_goals cases outcome.effect
    · exact alongside.same
    · exact same
    · exact alongside.sane
    · exact sane
    · exact alongside.sane'
    · exact elsewhere.sane
    · exact alongside.owns
    · exact owns
  cases outcome with
  | answered => exact matching.reply alongside.same alongside.owns roomy outside
  | raised error effect =>
    show Replied _ _ _ _ _ (unqueued call (.error error)) (.error error)
    rw [unqueued_error]
    exact .raised ..

/-- What the code may do next changes nothing outside the region. -/
theorem Alongside.elsewhere {next' : calls.Reply call' → Program calls α}
    (alongside : Alongside region capacity program world (.await call' next') world') (outside : Outside)
    (outcome : CallOutcome) : region.Elsewhere world' (world'.answerAs outside outcome call').2 := by
  obtain ⟨call, next, _, matching, _⟩ := alongside.twins.step
  obtain ⟨_, _, elsewhere, _⟩ := matching.effect alongside.same alongside.sane alongside.sane' alongside.owns
  rw [World.answerAs_world]
  split
  · exact elsewhere
  · exact .refl alongside.sane'

/-- The code does not notice what happens outside the region. -/
theorem Alongside.other (alongside : Alongside region capacity program world program' world')
    (elsewhere : region'.Elsewhere world' world'') (apart : region.Inside region'.compl) :
    Alongside region capacity program world program' world'' := by
  have same := elsewhere.same.mono apart
  refine ⟨alongside.twins.mono ?_, alongside.same.trans same, alongside.sane, ?_, alongside.owns.same same⟩
  · rintro file file' ⟨path, inside, named, named'⟩
    exact ⟨path, inside, named, (elsewhere.names path (apart.file path inside)).trans named'⟩
  · exact ⟨elsewhere.sane.sound, apart.found ▸ elsewhere.sane.grown⟩

end Alongside

end Quartr.Soundness
