import TinyMachine.Lib.Traced

/-! States that no sequence of operations tells apart: the operations return
the same values from them, panic or hang from both or from neither, and what
is visible of the states in between is the same. -/
namespace TinyMachine.Lib

section Operations
variable {σ ε ℓ ο ω : Type} {operation : ℓ → Traced σ ε ο} {view : σ → ω}

structure Bisimulation (operation : ℓ → Traced σ ε ο) (view : σ → ω) (related : σ → σ → Prop) : Prop where
  alike : ∀ {s s'}, related s s' → view s = view s'
  forth : ∀ {s s' l o t}, related s s' → (operation l).Returns s o t →
    ∃ t', (operation l).Returns s' o t' ∧ related t t'
  back : ∀ {s s' l o t'}, related s s' → (operation l).Returns s' o t' →
    ∃ t, (operation l).Returns s o t ∧ related t t'
  panics : ∀ {s s' l}, related s s' → ((operation l).Panics s ↔ (operation l).Panics s')

def Bisimilar (operation : ℓ → Traced σ ε ο) (view : σ → ω) (s s' : σ) : Prop :=
  ∃ related, Bisimulation operation view related ∧ related s s'

theorem Bisimilar.refl (operation : ℓ → Traced σ ε ο) (view : σ → ω) (s : σ) :
    Bisimilar operation view s s := by
  refine ⟨Eq, ⟨?_, ?_, ?_, ?_⟩, rfl⟩
  · rintro s _ rfl
    rfl
  · rintro s _ l o t rfl returned
    exact ⟨t, returned, rfl⟩
  · rintro s _ l o t rfl returned
    exact ⟨t, returned, rfl⟩
  · rintro s _ l rfl
    rfl

theorem Bisimilar.alike {s s' : σ} (bisimilar : Bisimilar operation view s s') : view s = view s' := by
  obtain ⟨related, bisimulation, here⟩ := bisimilar
  exact bisimulation.alike here

/-- An operation that returns from both states leads to bisimilar states. -/
theorem Bisimilar.after {s s' t t' : σ} {l : ℓ} {o o' : ο} (bisimilar : Bisimilar operation view s s')
    (left : (operation l).Returns s o t) (right : (operation l).Returns s' o' t') :
    Bisimilar operation view t t' := by
  obtain ⟨related, bisimulation, here⟩ := bisimilar
  obtain ⟨r, returned, there⟩ := bisimulation.forth here left
  obtain ⟨_, rfl⟩ := returned.unique right
  exact ⟨related, bisimulation, there⟩

/-- An operation that returns from the second state returns from the first. -/
theorem Bisimilar.before {s s' t' : σ} {l : ℓ} {o : ο} (bisimilar : Bisimilar operation view s s')
    (right : (operation l).Returns s' o t') :
    ∃ t, (operation l).Returns s o t ∧ Bisimilar operation view t t' := by
  obtain ⟨related, bisimulation, here⟩ := bisimilar
  obtain ⟨t, returned, there⟩ := bisimulation.back here right
  exact ⟨t, returned, related, bisimulation, there⟩

end Operations
end TinyMachine.Lib
