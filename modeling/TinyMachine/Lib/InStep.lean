import TinyMachine.Lib.Attempt

/-! Two computations in step: from states that stand in a relation they both
succeed, with results that fit, or fail with the same error, and leave states
that stand in the relation again. -/
namespace TinyMachine.Lib.Attempt
variable {ε σ τ α β γ δ : Type}

inductive SameWay (fits : α → β → Prop) : Except ε α → Except ε β → Prop where
  | ok {a : α} {b : β} (fit : fits a b) : SameWay fits (.ok a) (.ok b)
  | error (e : ε) : SameWay fits (.error e) (.error e)

/-- What the two make of these states. -/
def TogetherFrom (near : σ → τ → Prop) (fits : α → β → Prop) (x : Attempt ε σ α) (y : Attempt ε τ β) (s : σ)
    (t : τ) : Prop :=
  SameWay fits (x s).1 (y t).1 ∧ near (x s).2 (y t).2

def InStep (near : σ → τ → Prop) (fits : α → β → Prop) (x : Attempt ε σ α) (y : Attempt ε τ β) : Prop :=
  ∀ s t, near s t → TogetherFrom near fits x y s t

section Rules
variable {near : σ → τ → Prop} {fits : α → β → Prop} {fits' : γ → δ → Prop} {x : Attempt ε σ α} {y : Attempt ε τ β}
  {f : α → Attempt ε σ γ} {g : β → Attempt ε τ δ} {a : α} {b : β} {s s' : σ} {t t' : τ}

theorem SameWay.eq {result other : Except ε α} (same : SameWay Eq result other) : result = other := by
  cases same with
  | ok fit => rw [fit]
  | error e => rfl

theorem inStep_pure (fit : fits a b) : InStep near fits (pure a : Attempt ε σ α) (pure b : Attempt ε τ β) :=
  fun _ _ start => ⟨.ok fit, start⟩

theorem inStep_fail (e : ε) : InStep near fits (fail e : Attempt ε σ α) (fail e : Attempt ε τ β) :=
  fun _ _ start => ⟨.error e, start⟩

/-- After a step that succeeds, the computation goes on with the rest. -/
theorem bind_of_ends (done : x.Ends s (.ok a) s') : (x >>= f) s = f a s' := by
  have unfolded : (x >>= f) s = Attempt.bind x f s := rfl
  rw [unfolded, Attempt.bind, show x s = (.ok a, s') from done]

theorem TogetherFrom.bind (first : TogetherFrom near fits x y s t)
    (next : ∀ a b, fits a b → InStep near fits' (f a) (g b)) : TogetherFrom near fits' (x >>= f) (y >>= g) s t := by
  obtain ⟨same, after⟩ := first
  have left : (x >>= f) s = Attempt.bind x f s := rfl
  have right : (y >>= g) t = Attempt.bind y g t := rfl
  unfold TogetherFrom
  rw [left, right, Attempt.bind, Attempt.bind]
  rcases one : x s with ⟨result, s'⟩
  rcases two : y t with ⟨result', t'⟩
  rw [one, two] at same after
  cases same with
  | ok fit => exact next _ _ fit s' t' after
  | error e => exact ⟨.error e, after⟩

theorem InStep.bind (first : InStep near fits x y) (next : ∀ a b, fits a b → InStep near fits' (f a) (g b)) :
    InStep near fits' (x >>= f) (y >>= g) := fun s t start => (first s t start).bind next

/-- The same rule for steps whose results are equal. -/
theorem InStep.bind_eq {x : Attempt ε σ α} {y : Attempt ε τ α} {f : α → Attempt ε σ γ} {g : α → Attempt ε τ δ}
    (first : InStep near Eq x y) (next : ∀ a, InStep near fits' (f a) (g a)) :
    InStep near fits' (x >>= f) (y >>= g) := by
  refine first.bind fun a b same => ?_
  subst same
  exact next a

/-- Both have gone on to states that are in step. -/
theorem TogetherFrom.of_eq {x' : Attempt ε σ α} {y' : Attempt ε τ β} (left : x s = x' s') (right : y t = y' t')
    (rest : TogetherFrom near fits x' y' s' t') : TogetherFrom near fits x y s t := by
  unfold TogetherFrom
  rw [left, right]
  exact rest

theorem TogetherFrom.adapt {ε' : Type} {g : ε → ε'} (together : TogetherFrom near fits x y s t) :
    TogetherFrom near fits (x.adapt g) (y.adapt g) s t := by
  obtain ⟨same, after⟩ := together
  unfold TogetherFrom Attempt.adapt
  rcases one : x s with ⟨result, s'⟩
  rcases two : y t with ⟨result', t'⟩
  rw [one, two] at same after
  cases same with
  | ok fit => exact ⟨.ok fit, after⟩
  | error e => exact ⟨.error (g e), after⟩

theorem InStep.adapt {ε' : Type} {g : ε → ε'} (together : InStep near fits x y) :
    InStep near fits (x.adapt g) (y.adapt g) := fun s t start => (together s t start).adapt

/-- The first parts are equal, and as they should be; the second ones are in the
relation. -/
def Beside {ρ : Type} (first : ρ → Prop) (near : σ → τ → Prop) (s : ρ × σ) (t : ρ × τ) : Prop :=
  s.1 = t.1 ∧ first s.1 ∧ near s.2 t.2

theorem InStep.onSecond {ρ : Type} {first : ρ → Prop} (together : InStep near fits x y) :
    InStep (Beside first near) fits (Attempt.onSecond x) (Attempt.onSecond y) := by
  rintro ⟨r, s⟩ ⟨_, t⟩ ⟨rfl, known, start⟩
  obtain ⟨same, after⟩ := together s t start
  exact ⟨same, rfl, known, after⟩

end Rules
end TinyMachine.Lib.Attempt
