import Mathlib.Tactic.Basic

/-! Computations over a state that may fail. What they did to the state before
they failed stays. -/
namespace TinyMachine.Lib

def Attempt (ε σ α : Type) := σ → Except ε α × σ

namespace Attempt
variable {ε σ α β : Type}

protected def bind (x : Attempt ε σ α) (f : α → Attempt ε σ β) : Attempt ε σ β := fun s =>
  match x s with
  | (.ok a, s') => f a s'
  | (.error e, s') => (.error e, s')

instance : Monad (Attempt ε σ) where
  pure a := fun s => (.ok a, s)
  bind := Attempt.bind

def fail (e : ε) : Attempt ε σ α := fun s => (.error e, s)

/-- The computation with its errors turned into others. -/
def adapt {ε' : Type} (f : ε → ε') (x : Attempt ε σ α) : Attempt ε' σ α := fun s =>
  match x s with
  | (.ok a, s') => (.ok a, s')
  | (.error e, s') => (.error (f e), s')

/-- The computation, whose failure is an answer like any other. -/
def attempt {ε' : Type} (x : Attempt ε σ α) : Attempt ε' σ (Option α) := fun s =>
  match x s with
  | (.ok a, s') => (.ok (some a), s')
  | (.error _, s') => (.ok none, s')

def get : Attempt ε σ σ := fun s => (.ok s, s)

def modify (f : σ → σ) : Attempt ε σ Unit := fun s => (.ok (), f s)

/-- The computation on one part of the state. -/
def onSecond {ρ : Type} (x : Attempt ε σ α) : Attempt ε (ρ × σ) α := fun s =>
  ((x s.2).1, (s.1, (x s.2).2))

/-- From this state the computation comes to this result and this state. -/
def Ends (x : Attempt ε σ α) (s : σ) (result : Except ε α) (s' : σ) : Prop := x s = (result, s')

section Results
variable {x : Attempt ε σ α} {f : α → Attempt ε σ β} {s s' : σ} {a : α} {e : ε}

theorem Ends.unique {result other : Except ε α} {s'' : σ} (one : x.Ends s result s') (two : x.Ends s other s'') :
    result = other ∧ s' = s'' := Prod.mk.inj (Eq.trans (Eq.symm one) two)

@[simp] theorem pure_ends {result : Except ε α} :
    Ends (pure a : Attempt ε σ α) s result s' ↔ result = .ok a ∧ s' = s := by
  unfold Ends
  rw [show (pure a : Attempt ε σ α) s = (.ok a, s) from rfl, Prod.mk.injEq]
  exact and_congr eq_comm eq_comm

@[simp] theorem fail_ends {result : Except ε α} :
    Ends (fail e : Attempt ε σ α) s result s' ↔ result = .error e ∧ s' = s := by
  unfold Ends fail
  rw [Prod.mk.injEq]
  exact and_congr eq_comm eq_comm

theorem bind_ends {result : Except ε β} : Ends (x >>= f) s result s' ↔
    (∃ e, x.Ends s (.error e) s' ∧ result = .error e) ∨
      ∃ a between, x.Ends s (.ok a) between ∧ (f a).Ends between result s' := by
  have unfolded : (x >>= f) s = Attempt.bind x f s := rfl
  unfold Ends
  rw [unfolded, Attempt.bind]
  rcases x s with ⟨e | a, t⟩
  · simp [and_assoc, eq_comm, and_comm]
  · simp [and_assoc]

theorem bind_next {between : σ} {result : Except ε β} (done : x.Ends s (.ok a) between)
    (rest : (f a).Ends between result s') : Ends (x >>= f) s result s' :=
  bind_ends.mpr (.inr ⟨a, between, done, rest⟩)

theorem bind_failed (failed : x.Ends s (.error e) s') : Ends (x >>= f) s (.error e) s' :=
  bind_ends.mpr (.inl ⟨e, failed, rfl⟩)

theorem bind_ok {b : β} : Ends (x >>= f) s (.ok b) s' ↔
    ∃ a between, x.Ends s (.ok a) between ∧ (f a).Ends between (.ok b) s' := by
  rw [bind_ends]
  simp

theorem adapt_ok {ε' : Type} {g : ε → ε'} : (x.adapt g).Ends s (.ok a) s' ↔ x.Ends s (.ok a) s' := by
  unfold Ends adapt
  rcases x s with ⟨_ | _, _⟩ <;> simp

theorem attempt_ends {ε' : Type} {result : Except ε' (Option α)} : (x.attempt : Attempt ε' σ (Option α)).Ends s result s' ↔
    (∃ a, x.Ends s (.ok a) s' ∧ result = .ok (some a)) ∨ ∃ e, x.Ends s (.error e) s' ∧ result = .ok none := by
  unfold Ends attempt
  rcases x s with ⟨e | a, t⟩
  · constructor
    · intro ran
      cases ran
      exact .inr ⟨e, rfl, rfl⟩
    · rintro (⟨_, ran, -⟩ | ⟨_, ran, rfl⟩)
      · cases ran
      · cases ran
        rfl
  · constructor
    · intro ran
      cases ran
      exact .inl ⟨a, rfl, rfl⟩
    · rintro (⟨_, ran, rfl⟩ | ⟨_, ran, -⟩)
      · cases ran
        rfl
      · cases ran

@[simp] theorem get_ends {result : Except ε σ} :
    (get : Attempt ε σ σ).Ends s result s' ↔ result = .ok s ∧ s' = s := by
  unfold Ends get
  rw [Prod.mk.injEq]
  exact and_congr eq_comm eq_comm

@[simp] theorem modify_ends {g : σ → σ} {result : Except ε Unit} :
    (modify g : Attempt ε σ Unit).Ends s result s' ↔ result = .ok () ∧ s' = g s := by
  unfold Ends modify
  rw [Prod.mk.injEq]
  exact and_congr eq_comm eq_comm

theorem onSecond_ends {ρ : Type} {r r' : ρ} {result : Except ε α} :
    (onSecond x : Attempt ε (ρ × σ) α).Ends (r, s) result (r', s') ↔ x.Ends s result s' ∧ r' = r := by
  unfold Ends onSecond
  constructor
  · intro same
    cases same
    exact ⟨rfl, rfl⟩
  · rintro ⟨ran, rfl⟩
    rw [ran]

end Results

/-! ## What stays true however a computation ends -/

def Keeps (holds : σ → Prop) (x : Attempt ε σ α) : Prop :=
  ∀ s result s', holds s → x.Ends s result s' → holds s'

section Keeping
variable {holds : σ → Prop} {x : Attempt ε σ α} {f : α → Attempt ε σ β}

theorem keeps_pure (a : α) : Keeps holds (pure a : Attempt ε σ α) := by
  rintro s result s' before ends
  exact (pure_ends.mp ends).2 ▸ before

theorem Keeps.bind (first : Keeps holds x) (next : ∀ a, Keeps holds (f a)) : Keeps holds (x >>= f) := by
  intro s result s' before ends
  rcases bind_ends.mp ends with ⟨e, failed, -⟩ | ⟨a, between, done, rest⟩
  · exact first s _ s' before failed
  · exact next a between result s' (first s _ between before done) rest

theorem Keeps.adapt {ε' : Type} {g : ε → ε'} (kept : Keeps holds x) : Keeps holds (x.adapt g) := by
  intro s result s' before ends
  unfold Ends Attempt.adapt at ends
  split at ends
  · rename_i a t ran
    cases ends
    exact kept s _ s' before ran
  · rename_i e t ran
    cases ends
    exact kept s _ s' before ran

theorem keeps_fail (e : ε) : Keeps holds (fail e : Attempt ε σ α) := by
  rintro s result s' before ends
  exact (fail_ends.mp ends).2 ▸ before

theorem Keeps.attempt {ε' : Type} (kept : Keeps holds x) :
    Keeps holds (x.attempt : Attempt ε' σ (Option α)) := by
  intro s result s' before ends
  rcases attempt_ends.mp ends with ⟨a, done, -⟩ | ⟨e, failed, -⟩
  · exact kept s _ s' before done
  · exact kept s _ s' before failed

end Keeping

/-! ## What never succeeds -/

/-- From these states the computation fails, and comes to such a state again. -/
def Halts (holds : σ → Prop) (x : Attempt ε σ α) : Prop :=
  ∀ s result s', holds s → x.Ends s result s' → (∃ e, result = .error e) ∧ holds s'

section Halting
variable {holds : σ → Prop} {x : Attempt ε σ α} {f : α → Attempt ε σ β}

theorem halts_fail (e : ε) : Halts holds (fail e : Attempt ε σ α) := by
  intro s result s' before ends
  obtain ⟨rfl, rfl⟩ := fail_ends.mp ends
  exact ⟨⟨e, rfl⟩, before⟩

theorem Halts.bind_left (halts : Halts holds x) : Halts holds (x >>= f) := by
  intro s result s' before ends
  rcases bind_ends.mp ends with ⟨e, failed, rfl⟩ | ⟨a, between, done, -⟩
  · exact ⟨⟨e, rfl⟩, (halts s _ s' before failed).2⟩
  · obtain ⟨⟨e, impossible⟩, -⟩ := halts s _ between before done
    cases impossible

theorem Keeps.bind_halts (first : Keeps holds x) (halts : ∀ a, Halts holds (f a)) : Halts holds (x >>= f) := by
  intro s result s' before ends
  rcases bind_ends.mp ends with ⟨e, failed, rfl⟩ | ⟨a, between, done, rest⟩
  · exact ⟨⟨e, rfl⟩, first s _ s' before failed⟩
  · exact halts a between result s' (first s _ between before done) rest

end Halting
end Attempt
end TinyMachine.Lib
