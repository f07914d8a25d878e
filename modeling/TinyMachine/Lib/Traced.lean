import Mathlib.Data.List.Infix
import Mathlib.Logic.Relation

/-! Programs with unbounded loops: what they touch while they run, and what
they return when they come to an end. A program runs with a budget of loop
rounds, and a larger budget continues the same run, so that what is emitted
and what is returned do not depend on it. -/
namespace TinyMachine.Lib

/-- How a run ended: with a value, in a panic, or not yet. -/
inductive Outcome (α : Type) where
  | done (value : α)
  | panicked
  | running
  deriving DecidableEq

structure Run (σ ε α : Type) where
  outcome : Outcome α
  state : σ
  events : List ε

namespace Run
variable {σ ε α β : Type}

/-- The longer run goes on where the shorter one ran out of rounds. -/
structure Continues (longer shorter : Run σ ε α) : Prop where
  events : shorter.events <+: longer.events
  settled : shorter.outcome ≠ .running → longer = shorter

theorem Continues.refl (run : Run σ ε α) : run.Continues run := ⟨List.prefix_rfl, fun _ => rfl⟩

/-- Goes on with what a finished run returned. -/
def andThen (first : Run σ ε α) (next : α → σ → Run σ ε β) : Run σ ε β :=
  match first.outcome with
  | .done a =>
    let second := next a first.state
    ⟨second.outcome, second.state, first.events ++ second.events⟩
  | .panicked => ⟨.panicked, first.state, first.events⟩
  | .running => ⟨.running, first.state, first.events⟩

theorem events_andThen (first : Run σ ε α) (next : α → σ → Run σ ε β) :
    first.events <+: (first.andThen next).events := by
  unfold andThen
  split
  · exact List.prefix_append ..
  · exact List.prefix_rfl
  · exact List.prefix_rfl

theorem Continues.andThen {longer shorter : Run σ ε α} {next next' : α → σ → Run σ ε β}
    (continues : longer.Continues shorter) (later : ∀ a s, (next' a s).Continues (next a s)) :
    (longer.andThen next').Continues (shorter.andThen next) := by
  cases ended : shorter.outcome with
  | done a =>
    obtain rfl := continues.settled (by simp [ended])
    have second := later a longer.state
    simp only [Run.andThen, ended]
    refine ⟨(List.prefix_append_right_inj _).mpr second.events, fun settled => ?_⟩
    rw [second.settled settled]
  | panicked =>
    obtain rfl := continues.settled (by simp [ended])
    simp only [Run.andThen, ended]
    exact .refl _
  | running =>
    simp only [Run.andThen, ended]
    exact ⟨continues.events.trans (events_andThen longer next'), fun settled => absurd rfl settled⟩

end Run

/-- A program over a state, with the events it emits on the way. -/
structure Traced (σ ε α : Type) where
  run : Nat → σ → Run σ ε α
  coherent : ∀ {budget more : Nat} (s : σ), budget ≤ more → (run more s).Continues (run budget s)

namespace Traced
variable {σ ε α β γ : Type}

/-- A program without loops. -/
def straight (step : σ → Run σ ε α) : Traced σ ε α := ⟨fun _ => step, fun _ _ => .refl _⟩

def get : Traced σ ε σ := straight fun s => ⟨.done s, s, []⟩
def modify (change : σ → σ) : Traced σ ε Unit := straight fun s => ⟨.done (), change s, []⟩
def emit (event : ε) : Traced σ ε Unit := straight fun s => ⟨.done (), s, [event]⟩
def panic : Traced σ ε α := straight fun s => ⟨.panicked, s, []⟩

instance : Monad (Traced σ ε) where
  pure a := straight fun s => ⟨.done a, s, []⟩
  bind x f :=
    ⟨fun budget s => (x.run budget s).andThen fun a t => (f a).run budget t,
      fun s larger => (x.coherent s larger).andThen fun a t => (f a).coherent t larger⟩

/-- A value whose absence is a panic. -/
def checked : Option α → Traced σ ε α
  | some a => pure a
  | none => panic

/-- At most so many rounds of a loop. -/
def rounds (body : β → Traced σ ε (β ⊕ α)) (budget : Nat) : Nat → β → σ → Run σ ε α
  | 0, _, s => ⟨.running, s, []⟩
  | left + 1, b, s =>
    ((body b).run budget s).andThen fun result t =>
      match result with
      | .inl b' => rounds body budget left b' t
      | .inr a => ⟨.done a, t, []⟩

theorem rounds_continue (body : β → Traced σ ε (β ⊕ α)) {budget more left further : Nat}
    (larger : budget ≤ more) (longer : left ≤ further) (b : β) (s : σ) :
    (rounds body more further b s).Continues (rounds body budget left b s) := by
  induction left generalizing further b s with
  | zero => exact ⟨List.nil_prefix, fun settled => absurd rfl settled⟩
  | succ left ih =>
    obtain ⟨further, rfl⟩ : ∃ n, further = n + 1 := ⟨further - 1, by omega⟩
    refine ((body b).coherent s larger).andThen fun result t => ?_
    cases result with
    | inl b' => exact ih (by omega) b' t
    | inr a => exact .refl _

/-- A loop: a round either names the point it goes on from or ends it. -/
def iterate (body : β → Traced σ ε (β ⊕ α)) (b : β) : Traced σ ε α :=
  ⟨fun budget => rounds body budget budget b,
    fun s larger => rounds_continue body larger larger b s⟩

/-- The program comes to its end, with this value and in this state. -/
def Returns (x : Traced σ ε α) (s : σ) (a : α) (t : σ) : Prop :=
  ∃ budget, (x.run budget s).outcome = .done a ∧ (x.run budget s).state = t

/-- The event is emitted at some point of the run. -/
def Emits (x : Traced σ ε α) (s : σ) (event : ε) : Prop :=
  ∃ budget, event ∈ (x.run budget s).events

/-- The run is cut short by a panic. -/
def Panics (x : Traced σ ε α) (s : σ) : Prop := ∃ budget, (x.run budget s).outcome = .panicked

/-- The run takes finitely many steps, whether it returns or panics. -/
def Terminates (x : Traced σ ε α) (s : σ) : Prop := (∃ a t, x.Returns s a t) ∨ x.Panics s

/-- Every event of the run is of this kind, however long it goes on. -/
def Always (kind : ε → Prop) (x : Traced σ ε α) (s : σ) : Prop :=
  ∀ event, x.Emits s event → kind event

/-- One round leads from one point of the loop to the next. -/
def Round (body : β → Traced σ ε (β ⊕ α)) (here next : β × σ) : Prop :=
  (body here.1).Returns here.2 (.inl next.1) next.2

/-- The points a loop comes by. -/
def Passes (body : β → Traced σ ε (β ⊕ α)) : β × σ → β × σ → Prop :=
  Relation.ReflTransGen (Round body)

variable {x : Traced σ ε α} {f : α → Traced σ ε β} {s t : σ} {a : α} {b : β} {event : ε}

theorem returns_of_run {budget : Nat} (ended : (x.run budget s).outcome = .done a) :
    x.Returns s a (x.run budget s).state := ⟨budget, ended, rfl⟩

/-- What has ended has ended with every larger budget. -/
theorem Returns.run_eq (returned : x.Returns s a t) :
    ∃ budget, ∀ more, budget ≤ more → (x.run more s).outcome = .done a ∧ (x.run more s).state = t := by
  obtain ⟨budget, ended, reached⟩ := returned
  refine ⟨budget, fun more larger => ?_⟩
  rw [(x.coherent s larger).settled (by simp [ended])]
  exact ⟨ended, reached⟩

theorem Returns.unique {a' : α} {t' : σ} (one : x.Returns s a t) (other : x.Returns s a' t') :
    a = a' ∧ t = t' := by
  obtain ⟨budget, fixed⟩ := one.run_eq
  obtain ⟨budget', fixed'⟩ := other.run_eq
  obtain ⟨ended, reached⟩ := fixed (max budget budget') (by omega)
  obtain ⟨ended', reached'⟩ := fixed' (max budget budget') (by omega)
  rw [ended] at ended'
  cases ended'
  exact ⟨rfl, reached.symm.trans reached'⟩

/-- A run that has panicked returns with no budget. -/
theorem Panics.not_returns (panics : x.Panics s) : ¬ x.Returns s a t := by
  intro returned
  obtain ⟨budget, panicked⟩ := panics
  obtain ⟨other, fixed⟩ := returned.run_eq
  have ended := (fixed (max other budget) (by omega)).1
  rw [(x.coherent s (by omega : budget ≤ max other budget)).settled (by simp [panicked])] at ended
  simp [panicked] at ended

/-- A run that ends without a value has panicked. -/
theorem Terminates.panics_iff (ends : x.Terminates s) : x.Panics s ↔ ∀ a t, ¬ x.Returns s a t := by
  constructor
  · exact fun panics _ _ => panics.not_returns
  · rintro none
    obtain ⟨a, t, returned⟩ | panics := ends
    · exact absurd returned (none a t)
    · exact panics

section Straight
variable {step : σ → Run σ ε α}

theorem straight_returns : (straight step).Returns s a t ↔ (step s).outcome = .done a ∧ (step s).state = t :=
  ⟨fun ⟨_, ended⟩ => ended, fun ended => ⟨0, ended⟩⟩

theorem straight_emits : (straight step).Emits s event ↔ event ∈ (step s).events :=
  ⟨fun ⟨_, member⟩ => member, fun member => ⟨0, member⟩⟩

@[simp] theorem pure_returns {a' : α} : (pure a : Traced σ ε α).Returns s a' t ↔ a = a' ∧ s = t := by
  rw [show (pure a : Traced σ ε α) = straight fun s => ⟨.done a, s, []⟩ from rfl, straight_returns]
  simp

@[simp] theorem get_returns {r : σ} : (get : Traced σ ε σ).Returns s r t ↔ s = r ∧ s = t := by
  simp [get, straight_returns]

@[simp] theorem modify_returns {change : σ → σ} {u : Unit} :
    (modify change : Traced σ ε Unit).Returns s u t ↔ change s = t := by
  simp [modify, straight_returns]

@[simp] theorem emit_returns {u : Unit} : (emit event : Traced σ ε Unit).Returns s u t ↔ s = t := by
  simp [emit, straight_returns]

@[simp] theorem panic_returns : ¬ (panic : Traced σ ε α).Returns s a t := by
  simp [panic, straight_returns]

@[simp] theorem checked_returns {value : Option α} :
    (checked value : Traced σ ε α).Returns s a t ↔ value = some a ∧ s = t := by
  cases value <;> simp [checked]

theorem straight_panics : (straight step).Panics s ↔ (step s).outcome = .panicked :=
  ⟨fun ⟨_, panicked⟩ => panicked, fun panicked => ⟨0, panicked⟩⟩

@[simp] theorem pure_panics : ¬ (pure a : Traced σ ε α).Panics s := by
  rw [show (pure a : Traced σ ε α) = straight fun s => ⟨.done a, s, []⟩ from rfl, straight_panics]
  simp

@[simp] theorem get_panics : ¬ (get : Traced σ ε σ).Panics s := by simp [get, straight_panics]

@[simp] theorem modify_panics {change : σ → σ} : ¬ (modify change : Traced σ ε Unit).Panics s := by
  simp [modify, straight_panics]

@[simp] theorem emit_panics : ¬ (emit event : Traced σ ε Unit).Panics s := by
  simp [emit, straight_panics]

@[simp] theorem panic_panics : (panic : Traced σ ε α).Panics s := by simp [panic, straight_panics]

@[simp] theorem checked_panics {value : Option α} :
    (checked value : Traced σ ε α).Panics s ↔ value = none := by
  cases value <;> simp [checked]

@[simp] theorem pure_emits : ¬ (pure a : Traced σ ε α).Emits s event := by
  rw [show (pure a : Traced σ ε α) = straight fun s => ⟨.done a, s, []⟩ from rfl, straight_emits]
  simp

@[simp] theorem get_emits : ¬ (get : Traced σ ε σ).Emits s event := by
  simp [get, straight_emits]

@[simp] theorem modify_emits {change : σ → σ} :
    ¬ (modify change : Traced σ ε Unit).Emits s event := by simp [modify, straight_emits]

@[simp] theorem emit_emits {other : ε} :
    (emit other : Traced σ ε Unit).Emits s event ↔ event = other := by
  simp [emit, straight_emits]

@[simp] theorem panic_emits : ¬ (panic : Traced σ ε α).Emits s event := by
  simp [panic, straight_emits]

@[simp] theorem checked_emits {value : Option α} :
    ¬ (checked value : Traced σ ε α).Emits s event := by
  cases value <;> simp [checked]

end Straight

@[simp] theorem ite_returns {p : Prop} [Decidable p] {x y : Traced σ ε α} :
    (if p then x else y).Returns s a t ↔ if p then x.Returns s a t else y.Returns s a t := by
  split <;> rfl

@[simp] theorem ite_panics {p : Prop} [Decidable p] {x y : Traced σ ε α} :
    (if p then x else y).Panics s ↔ if p then x.Panics s else y.Panics s := by
  split <;> rfl

@[simp] theorem ite_emits {p : Prop} [Decidable p] {x y : Traced σ ε α} :
    (if p then x else y).Emits s event ↔ if p then x.Emits s event else y.Emits s event := by
  split <;> rfl

private theorem run_bind (budget : Nat) :
    (x >>= f).run budget s = (x.run budget s).andThen fun a t => (f a).run budget t := rfl

@[simp] theorem bind_returns :
    (x >>= f).Returns s b t ↔ ∃ a r, x.Returns s a r ∧ (f a).Returns r b t := by
  constructor
  · rintro ⟨budget, ended, reached⟩
    rw [run_bind, Run.andThen] at ended reached
    cases first : (x.run budget s).outcome with
    | done a =>
      simp only [first] at ended reached
      exact ⟨a, _, returns_of_run first, budget, ended, reached⟩
    | panicked => simp [first] at ended
    | running => simp [first] at ended
  · rintro ⟨a, r, first, second⟩
    obtain ⟨budget, fixed⟩ := first.run_eq
    obtain ⟨budget', fixed'⟩ := second.run_eq
    obtain ⟨ended, reached⟩ := fixed (max budget budget') (by omega)
    obtain ⟨ended', reached'⟩ := fixed' (max budget budget') (by omega)
    refine ⟨max budget budget', ?_⟩
    rw [run_bind, Run.andThen]
    simp only [ended, reached]
    exact ⟨ended', reached'⟩

@[simp] theorem bind_emits :
    (x >>= f).Emits s event ↔ x.Emits s event ∨ ∃ a t, x.Returns s a t ∧ (f a).Emits t event := by
  constructor
  · rintro ⟨budget, member⟩
    rw [run_bind, Run.andThen] at member
    cases first : (x.run budget s).outcome with
    | done a =>
      simp only [first, List.mem_append] at member
      rcases member with early | late
      · exact .inl ⟨budget, early⟩
      · exact .inr ⟨a, _, returns_of_run first, budget, late⟩
    | panicked => exact .inl ⟨budget, by simpa [first] using member⟩
    | running => exact .inl ⟨budget, by simpa [first] using member⟩
  · rintro (⟨budget, member⟩ | ⟨a, t, first, budget, member⟩)
    · exact ⟨budget, (Run.events_andThen _ _).subset member⟩
    · obtain ⟨budget', fixed⟩ := first.run_eq
      obtain ⟨ended, reached⟩ := fixed (max budget budget') (by omega)
      refine ⟨max budget budget', ?_⟩
      rw [run_bind, Run.andThen]
      simp only [ended, reached, List.mem_append]
      exact .inr (((f a).coherent t (by omega)).events.subset member)

@[simp] theorem bind_panics :
    (x >>= f).Panics s ↔ x.Panics s ∨ ∃ a t, x.Returns s a t ∧ (f a).Panics t := by
  constructor
  · rintro ⟨budget, panicked⟩
    rw [run_bind, Run.andThen] at panicked
    cases first : (x.run budget s).outcome with
    | done a =>
      simp only [first] at panicked
      exact .inr ⟨a, _, returns_of_run first, budget, panicked⟩
    | panicked => exact .inl ⟨budget, first⟩
    | running => simp [first] at panicked
  · rintro (⟨budget, panicked⟩ | ⟨a, t, first, budget, panicked⟩)
    · refine ⟨budget, ?_⟩
      rw [run_bind, Run.andThen]
      simp [panicked]
    · obtain ⟨budget', fixed⟩ := first.run_eq
      obtain ⟨ended, reached⟩ := fixed (max budget budget') (by omega)
      refine ⟨max budget budget', ?_⟩
      rw [run_bind, Run.andThen]
      simp only [ended, reached]
      rw [((f a).coherent t (show budget ≤ max budget budget' by omega)).settled (by simp [panicked]),
        panicked]

section Loops
variable {body : β → Traced σ ε (β ⊕ α)}

private theorem rounds_returns {budget left : Nat} {b : β} {s : σ}
    (ended : (rounds body budget left b s).outcome = .done a) :
    ∃ here, Passes body (b, s) here ∧
      (body here.1).Returns here.2 (.inr a) (rounds body budget left b s).state := by
  induction left generalizing b s with
  | zero => cases ended
  | succ left ih =>
    rw [rounds, Run.andThen] at ended ⊢
    cases first : ((body b).run budget s).outcome with
    | done result =>
      simp only [first] at ended ⊢
      cases result with
      | inl b' =>
        obtain ⟨here, passes, last⟩ := ih ended
        exact ⟨here, .head (show Round body (b, s) (b', _) from returns_of_run first) passes, last⟩
      | inr a' =>
        cases ended
        exact ⟨(b, s), .refl, returns_of_run first⟩
    | panicked => simp [first] at ended
    | running => simp [first] at ended

private theorem rounds_emits {budget left : Nat} {b : β} {s : σ}
    (member : event ∈ (rounds body budget left b s).events) :
    ∃ here, Passes body (b, s) here ∧ (body here.1).Emits here.2 event := by
  induction left generalizing b s with
  | zero => cases member
  | succ left ih =>
    rw [rounds, Run.andThen] at member
    cases first : ((body b).run budget s).outcome with
    | done result =>
      simp only [first, List.mem_append] at member
      rcases member with early | late
      · exact ⟨(b, s), .refl, budget, early⟩
      · cases result with
        | inl b' =>
          obtain ⟨here, passes, emits⟩ := ih late
          exact ⟨here, .head (show Round body (b, s) (b', _) from returns_of_run first) passes, emits⟩
        | inr a' => cases late
    | panicked => exact ⟨(b, s), .refl, budget, by simpa [first] using member⟩
    | running => exact ⟨(b, s), .refl, budget, by simpa [first] using member⟩

/-- The first round of a loop, at a budget of so many further rounds. -/
private theorem run_iterate (further : Nat) (b : β) (s : σ) :
    (iterate body b).run (further + 1) s =
      ((body b).run (further + 1) s).andThen fun result t =>
        match result with
        | .inl b' => rounds body (further + 1) further b' t
        | .inr a => ⟨.done a, t, []⟩ := rfl

private theorem Returns.last_round {b : β} (last : (body b).Returns s (.inr a) t) :
    (iterate body b).Returns s a t := by
  obtain ⟨budget, fixed⟩ := last.run_eq
  obtain ⟨ended, reached⟩ := fixed (budget + 1) (by omega)
  refine ⟨budget + 1, ?_⟩
  rw [run_iterate, Run.andThen]
  simp only [ended, reached, and_self]

private theorem Returns.after_round {here next : β × σ} (round : Round body here next)
    (later : (iterate body next.1).Returns next.2 a t) : (iterate body here.1).Returns here.2 a t := by
  obtain ⟨budget, fixed⟩ := Returns.run_eq round
  obtain ⟨budget', ended', reached'⟩ := later
  obtain ⟨ended, reached⟩ := fixed (max budget budget' + 1) (by omega)
  have continues := rounds_continue body (show budget' ≤ max budget budget' + 1 by omega)
    (show budget' ≤ max budget budget' by omega) next.1 next.2
  have settled : (rounds body budget' budget' next.1 next.2).outcome = .done a := ended'
  refine ⟨max budget budget' + 1, ?_⟩
  rw [run_iterate, Run.andThen]
  simp only [ended, reached, continues.settled (by simp [settled])]
  exact ⟨settled, reached'⟩

private theorem Emits.in_round {b : β} (emits : (body b).Emits s event) :
    (iterate body b).Emits s event := by
  obtain ⟨budget, member⟩ := emits
  refine ⟨budget + 1, ?_⟩
  rw [run_iterate]
  exact (Run.events_andThen _ _).subset (((body b).coherent s (by omega)).events.subset member)

private theorem Emits.after_round {here next : β × σ} (round : Round body here next)
    (later : (iterate body next.1).Emits next.2 event) : (iterate body here.1).Emits here.2 event := by
  obtain ⟨budget, fixed⟩ := Returns.run_eq round
  obtain ⟨budget', member⟩ := later
  obtain ⟨ended, reached⟩ := fixed (max budget budget' + 1) (by omega)
  have continues := rounds_continue body (show budget' ≤ max budget budget' + 1 by omega)
    (show budget' ≤ max budget budget' by omega) next.1 next.2
  refine ⟨max budget budget' + 1, ?_⟩
  rw [run_iterate, Run.andThen]
  simp only [ended, reached, List.mem_append]
  exact .inr (continues.events.subset member)

theorem iterate_returns {b : β} : (iterate body b).Returns s a t ↔
    ∃ here, Passes body (b, s) here ∧ (body here.1).Returns here.2 (.inr a) t := by
  constructor
  · rintro ⟨budget, ended, rfl⟩
    exact rounds_returns ended
  · rintro ⟨here, passes, last⟩
    have returned : ∀ start : β × σ, Passes body start here →
        (iterate body start.1).Returns start.2 a t := by
      intro start passes
      induction passes using Relation.ReflTransGen.head_induction_on with
      | refl => exact last.last_round
      | head round _ ih => exact ih.after_round round
    exact returned (b, s) passes

private theorem rounds_panics {budget left : Nat} {b : β} {s : σ}
    (panicked : (rounds body budget left b s).outcome = .panicked) :
    ∃ here, Passes body (b, s) here ∧ (body here.1).Panics here.2 := by
  induction left generalizing b s with
  | zero => cases panicked
  | succ left ih =>
    rw [rounds, Run.andThen] at panicked
    cases first : ((body b).run budget s).outcome with
    | done result =>
      simp only [first] at panicked
      cases result with
      | inl b' =>
        obtain ⟨here, passes, inRound⟩ := ih panicked
        exact ⟨here, .head (show Round body (b, s) (b', _) from returns_of_run first) passes, inRound⟩
      | inr a' => cases panicked
    | panicked => exact ⟨(b, s), .refl, budget, first⟩
    | running => simp [first] at panicked

theorem iterate_panics_of (b : β) (panics : (iterate body b).Panics s) :
    ∃ here, Passes body (b, s) here ∧ (body here.1).Panics here.2 := by
  obtain ⟨budget, panicked⟩ := panics
  exact rounds_panics panicked

theorem iterate_emits {b : β} : (iterate body b).Emits s event ↔
    ∃ here, Passes body (b, s) here ∧ (body here.1).Emits here.2 event := by
  constructor
  · rintro ⟨budget, member⟩
    exact rounds_emits member
  · rintro ⟨here, passes, emits⟩
    have emitted : ∀ start : β × σ, Passes body start here →
        (iterate body start.1).Emits start.2 event := by
      intro start passes
      induction passes using Relation.ReflTransGen.head_induction_on with
      | refl => exact emits.in_round
      | head round _ ih => exact ih.after_round round
    exact emitted (b, s) passes

/-- A loop whose points are described by a smaller type, in which its rounds
are a relation of their own. -/
theorem passes_through {π : Type} {leads : π → π → Prop} (point : π → β × σ)
    (round : ∀ p next, Round body (point p) next ↔ ∃ q, next = point q ∧ leads p q) {p : π}
    {here : β × σ} :
    Passes body (point p) here ↔ ∃ q, here = point q ∧ Relation.ReflTransGen leads p q := by
  constructor
  · intro passes
    induction passes with
    | refl => exact ⟨p, rfl, .refl⟩
    | tail _ step ih =>
      obtain ⟨q, rfl, led⟩ := ih
      obtain ⟨q', rfl, last⟩ := (round _ _).mp step
      exact ⟨q', rfl, led.tail last⟩
  · rintro ⟨q, rfl, led⟩
    induction led with
    | refl => exact .refl
    | tail _ last ih => exact ih.tail ((round _ _).mpr ⟨_, rfl, last⟩)

end Loops

/-! ## Rules for what a program emits -/

variable {kind : ε → Prop}

@[simp] theorem always_pure : Always kind (pure a : Traced σ ε α) s := by simp [Always]
@[simp] theorem always_get : Always kind (get : Traced σ ε σ) s := by simp [Always]
@[simp] theorem always_panic : Always kind (panic : Traced σ ε α) s := by simp [Always]

@[simp] theorem always_modify {change : σ → σ} : Always kind (modify change : Traced σ ε Unit) s := by
  simp [Always]

@[simp] theorem always_checked {value : Option α} :
    Always kind (checked value : Traced σ ε α) s := by simp [Always]

@[simp] theorem always_emit : Always kind (emit event : Traced σ ε Unit) s ↔ kind event := by
  simp [Always]

@[simp] theorem always_ite {p : Prop} [Decidable p] {x y : Traced σ ε α} :
    Always kind (if p then x else y) s ↔ if p then Always kind x s else Always kind y s := by
  split <;> rfl

@[simp] theorem always_bind : Always kind (x >>= f) s ↔
    Always kind x s ∧ ∀ a t, x.Returns s a t → Always kind (f a) t := by
  constructor
  · intro always
    refine ⟨fun event emits => always event (bind_emits.mpr (.inl emits)), ?_⟩
    intro a t returned event emits
    exact always event (bind_emits.mpr (.inr ⟨a, t, returned, emits⟩))
  · rintro ⟨first, later⟩ event emits
    rcases bind_emits.mp emits with early | ⟨a, t, returned, late⟩
    · exact first event early
    · exact later a t returned event late

/-! ## Rules for termination -/

theorem Terminates.of_returns (returned : x.Returns s a t) : x.Terminates s := .inl ⟨a, t, returned⟩

@[simp] theorem pure_terminates : (pure a : Traced σ ε α).Terminates s := by simp [Terminates]
@[simp] theorem get_terminates : (get : Traced σ ε σ).Terminates s := by simp [Terminates]
@[simp] theorem emit_terminates : (emit event : Traced σ ε Unit).Terminates s := by simp [Terminates]

@[simp] theorem modify_terminates {change : σ → σ} :
    (modify change : Traced σ ε Unit).Terminates s := by simp [Terminates]

@[simp] theorem checked_terminates {value : Option α} :
    (checked value : Traced σ ε α).Terminates s := by cases value <;> simp [Terminates]

@[simp] theorem ite_terminates {p : Prop} [Decidable p] {x y : Traced σ ε α} :
    (if p then x else y).Terminates s ↔ if p then x.Terminates s else y.Terminates s := by
  split <;> rfl

@[simp] theorem bind_terminates : (x >>= f).Terminates s ↔
    x.Terminates s ∧ ∀ a t, x.Returns s a t → (f a).Terminates t := by
  simp only [Terminates, bind_returns, bind_panics]
  constructor
  · rintro (⟨b, t, a, r, first, second⟩ | panics | ⟨a, r, first, panics⟩)
    · refine ⟨.inl ⟨a, r, first⟩, fun a' r' first' => ?_⟩
      obtain ⟨rfl, rfl⟩ := first.unique first'
      exact .inl ⟨b, t, second⟩
    · exact ⟨.inr panics, fun a r first => absurd first panics.not_returns⟩
    · refine ⟨.inl ⟨a, r, first⟩, fun a' r' first' => ?_⟩
      obtain ⟨rfl, rfl⟩ := first.unique first'
      exact .inr panics
  · rintro ⟨⟨a, r, first⟩ | panics, later⟩
    · rcases later a r first with ⟨b, t, second⟩ | panics
      · exact .inl ⟨b, t, a, r, first, second⟩
      · exact .inr (.inr ⟨a, r, first, panics⟩)
    · exact .inr (.inl panics)

theorem always_iterate {body : β → Traced σ ε (β ⊕ α)} {b : β} :
    Always kind (iterate body b) s ↔
      ∀ here, Passes body (b, s) here → Always kind (body here.1) here.2 := by
  constructor
  · intro always here passes event emits
    exact always event (iterate_emits.mpr ⟨here, passes, emits⟩)
  · intro rounds event emits
    obtain ⟨here, passes, inRound⟩ := iterate_emits.mp emits
    exact rounds here passes event inRound

/-! ## Properties of every part a program gets to -/

/-- A property that a sequence has when its first part has it, and its second
wherever the first leads. -/
structure Pervasive (property : {α : Type} → Traced σ ε α → σ → Prop) : Prop where
  pure : ∀ {α : Type} (a : α) (s : σ), property (pure a : Traced σ ε α) s
  get : ∀ s : σ, property (get : Traced σ ε σ) s
  modify : ∀ (change : σ → σ) (s : σ), property (modify change : Traced σ ε Unit) s
  bind : ∀ {α β : Type} (x : Traced σ ε α) (f : α → Traced σ ε β) (s : σ),
    property (x >>= f) s ↔ property x s ∧ ∀ a t, x.Returns s a t → property (f a) t

namespace Pervasive
variable {property : {α : Type} → Traced σ ε α → σ → Prop} (pervasive : Pervasive property)
include pervasive

theorem get_then {f : σ → Traced σ ε β} : property (Traced.get >>= f) s ↔ property (f s) s := by
  rw [pervasive.bind]
  simp [pervasive.get]

theorem modify_then {change : σ → σ} {f : Unit → Traced σ ε β} :
    property (Traced.modify change >>= f) s ↔ property (f ()) (change s) := by
  rw [pervasive.bind]
  simp [pervasive.modify, Unique.forall_iff]

end Pervasive

theorem always_pervasive (kind : ε → Prop) :
    Pervasive fun {α} (x : Traced σ ε α) (s : σ) => Always kind x s where
  pure _ _ := always_pure
  get _ := always_get
  modify _ _ := always_modify
  bind _ _ _ := always_bind

theorem terminates_pervasive : Pervasive fun {α} (x : Traced σ ε α) (s : σ) => x.Terminates s where
  pure _ _ := pure_terminates
  get _ := get_terminates
  modify _ _ := modify_terminates
  bind _ _ _ := bind_terminates

theorem runs_pervasive : Pervasive fun {α} (x : Traced σ ε α) (s : σ) => ¬ x.Panics s where
  pure _ _ := pure_panics
  get _ := get_panics
  modify _ _ := modify_panics
  bind x f s := by
    rw [bind_panics, not_or]
    exact and_congr_right fun _ => by simp only [not_exists, not_and]

/-! ## Rules for what a program keeps -/

/-- What holds before the program holds after it, if it comes to its end. -/
def Keeps (holds : σ → Prop) (x : Traced σ ε α) : Prop :=
  ∀ s a t, holds s → x.Returns s a t → holds t

variable {holds : σ → Prop}

theorem Keeps.pure (a : α) : (pure a : Traced σ ε α).Keeps holds := by
  intro s _ t before returned
  exact (pure_returns.mp returned).2 ▸ before

theorem Keeps.get : (get : Traced σ ε σ).Keeps holds := by
  intro s _ t before returned
  exact (get_returns.mp returned).2 ▸ before

theorem Keeps.ite {p : Prop} [Decidable p] {x y : Traced σ ε α} (left : x.Keeps holds)
    (right : y.Keeps holds) : (if p then x else y).Keeps holds := by
  split
  · exact left
  · exact right

theorem Keeps.bind (first : x.Keeps holds) (later : ∀ a, (f a).Keeps holds) :
    (x >>= f).Keeps holds := by
  intro s b t before returned
  obtain ⟨a, r, one, two⟩ := bind_returns.mp returned
  exact later a r b t (first s a r before one) two

theorem Keeps.iterate {body : β → Traced σ ε (β ⊕ α)} (round : ∀ b, (body b).Keeps holds) (b : β) :
    (Traced.iterate body b).Keeps holds := by
  intro s a t before returned
  obtain ⟨here, passes, last⟩ := iterate_returns.mp returned
  have kept : ∀ here, Passes body (b, s) here → holds here.2 := by
    intro here passes
    induction passes with
    | refl => exact before
    | tail _ step ih => exact round _ _ _ _ ih step
  exact round here.1 here.2 _ t (kept here passes) last

end Traced
end TinyMachine.Lib
