import Mathlib.Data.List.Basic

/-! Machines that answer each input and move on, and when two of them cannot
be told apart along the inputs they are given, or keep a promise along them. -/
namespace TinyMachine.Lib

section Transducer
variable {σ : Type u} {ι : Type v} {ο : Type w}

/-- The answers to a list of inputs, and the state they lead to. -/
def answers (step : σ → ι → ο × σ) : List ι → σ → List ο × σ
  | [], s => ([], s)
  | i :: rest, s =>
    let later := answers step rest (step s i).2
    ((step s i).1 :: later.1, later.2)

/-- Every input meets the condition in the state the earlier ones lead to. -/
def Throughout (step : σ → ι → ο × σ) (condition : σ → ι → Prop) : List ι → σ → Prop
  | [], _ => True
  | i :: rest, s => condition s i ∧ Throughout step condition rest (step s i).2

instance (step : σ → ι → ο × σ) (condition : σ → ι → Prop) [∀ s i, Decidable (condition s i)] :
    ∀ (inputs : List ι) (s : σ), Decidable (Throughout step condition inputs s)
  | [], _ => isTrue trivial
  | i :: rest, s =>
    have := instDecidableThroughout step condition rest (step s i).2
    inferInstanceAs (Decidable (condition s i ∧ Throughout step condition rest (step s i).2))

/-- Machines that take the same step wherever the condition holds give the same
answers, and end alike, on inputs that meet it throughout. -/
theorem answers_eq_of_steps {step step' : σ → ι → ο × σ} {condition : σ → ι → Prop}
    (same : ∀ s i, condition s i → step' s i = step s i) (inputs : List ι) (s : σ)
    (meets : Throughout step condition inputs s) : answers step' inputs s = answers step inputs s := by
  induction inputs generalizing s with
  | nil => rfl
  | cons i rest ih =>
    obtain ⟨here, later⟩ := meets
    simp only [answers, same s i here, ih _ later]

/-- What an invariant promises of every input that meets the condition holds of
every input of a run that meets it throughout. -/
theorem throughout_of_invariant {step : σ → ι → ο × σ} {condition promise : σ → ι → Prop}
    (holds : σ → Prop)
    (kept : ∀ s i, holds s → condition s i → promise s i ∧ holds (step s i).2) (inputs : List ι)
    (s : σ) (start : holds s) (meets : Throughout step condition inputs s) :
    Throughout step promise inputs s := by
  induction inputs generalizing s with
  | nil => exact trivial
  | cons i rest ih =>
    obtain ⟨here, later⟩ := meets
    obtain ⟨promised, still⟩ := kept s i start here
    exact ⟨promised, ih _ still later⟩

/-- What every input keeps holds where a run ends. -/
theorem answers_keep {step : σ → ι → ο × σ} {holds : σ → Prop} (kept : ∀ s i, holds s → holds (step s i).2)
    (inputs : List ι) (s : σ) (start : holds s) : holds (answers step inputs s).2 := by
  induction inputs generalizing s with
  | nil => exact start
  | cons i rest ih => exact ih _ (kept s i start)

/-- A mark that every input leaves which fails the condition, and that no input
removes, shows at the end whether a run met the condition throughout. -/
theorem throughout_iff_unmarked {step : σ → ι → ο × σ} {condition : σ → ι → Prop} {holds marked : σ → Prop}
    (kept : ∀ s i, holds s → holds (step s i).2)
    (marks : ∀ s i, holds s → (marked (step s i).2 ↔ marked s ∨ ¬ condition s i)) (inputs : List ι) (s : σ)
    (start : holds s) :
    ¬ marked (answers step inputs s).2 ↔ ¬ marked s ∧ Throughout step condition inputs s := by
  induction inputs generalizing s with
  | nil => exact (and_iff_left trivial).symm
  | cons i rest ih =>
    rw [answers, ih _ (kept s i start), marks s i start, Throughout, not_or, not_not, and_assoc]

end Transducer
end TinyMachine.Lib
