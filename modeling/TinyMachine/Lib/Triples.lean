import TinyMachine.Lib.Attempt

/-! Pre- and postconditions of computations that may fail: one postcondition
for the value they return, another for the error they stop with. With them come
scope guards, which clean up after a computation that failed. -/
namespace TinyMachine.Lib.Attempt
variable {ε σ α β ι : Type}

/-- From every state in `pre` the computation returns in `post` or fails in
`fails`. -/
def Triple (pre : σ → Prop) (x : Attempt ε σ α) (post : α → σ → Prop) (fails : ε → σ → Prop) : Prop :=
  ∀ s, pre s →
    match x s with
    | (.ok a, s') => post a s'
    | (.error e, s') => fails e s'

/-- The computation under a scope guard, whose cleanup runs if it fails. -/
def guarded (cleanup : σ → σ) (x : Attempt ε σ α) : Attempt ε σ α := fun s =>
  match x s with
  | (.ok a, s') => (.ok a, s')
  | (.error e, s') => (.error e, cleanup s')

/-- The computation once for each item, until one fails. -/
def forEach : List ι → (ι → Attempt ε σ Unit) → Attempt ε σ Unit
  | [], _ => pure ()
  | item :: rest, body => do
    body item
    forEach rest body

section Rules
variable {pre : σ → Prop} {x : Attempt ε σ α} {f : α → Attempt ε σ β} {post : α → σ → Prop}
  {after : β → σ → Prop} {fails : ε → σ → Prop} {s s' : σ} {a : α} {e : ε}

theorem Triple.of_ok (triple : Triple pre x post fails) (before : pre s) (ends : x.Ends s (.ok a) s') : post a s' := by
  have told := triple s before
  rwa [show x s = (.ok a, s') from ends] at told

theorem Triple.of_error (triple : Triple pre x post fails) (before : pre s) (ends : x.Ends s (.error e) s') :
    fails e s' := by
  have told := triple s before
  rwa [show x s = (.error e, s') from ends] at told

theorem triple_of_ends (returns : ∀ s a s', pre s → x.Ends s (.ok a) s' → post a s')
    (stops : ∀ s e s', pre s → x.Ends s (.error e) s' → fails e s') : Triple pre x post fails := by
  intro s before
  rcases ran : x s with ⟨e | a, s'⟩
  · exact stops s e s' before ran
  · exact returns s a s' before ran

theorem triple_pure (a : α) : Triple (post a) (pure a) post fails := fun _ before => before

theorem triple_fail (e : ε) : Triple (fails e) (fail e) post fails := fun _ before => before

theorem triple_get {read : σ → σ → Prop} : Triple (fun s => read s s) get read fails := fun _ before => before

theorem triple_modify {changed : Unit → σ → Prop} (g : σ → σ) :
    Triple (fun s => changed () (g s)) (modify g) changed fails := fun _ before => before

/-- A value is returned after a change. -/
theorem triple_modify_pure {g : σ → σ} (reach : ∀ s, pre s → post a (g s)) :
    Triple pre (modify g >>= fun _ => pure a) post fails := reach

theorem Triple.bind (first : Triple pre x post fails) (next : ∀ a, Triple (post a) (f a) after fails) :
    Triple pre (x >>= f) after fails := by
  refine triple_of_ends (fun s b s' before ends => ?_) (fun s e s' before ends => ?_)
  · obtain ⟨a, between, done, rest⟩ := bind_ok.mp ends
    exact (next a).of_ok (first.of_ok before done) rest
  · rcases bind_ends.mp ends with ⟨e', failed, same⟩ | ⟨a, between, done, rest⟩
    · cases same
      exact first.of_error before failed
    · exact (next a).of_error (first.of_ok before done) rest

theorem Triple.weaken {pre' : σ → Prop} {post' : α → σ → Prop} {fails' : ε → σ → Prop}
    (triple : Triple pre x post fails) (start : ∀ s, pre' s → pre s) (returns : ∀ a s, post a s → post' a s)
    (stops : ∀ e s, fails e s → fails' e s) : Triple pre' x post' fails' :=
  triple_of_ends (fun s a s' before ends => returns a s' (triple.of_ok (start s before) ends))
    fun s e s' before ends => stops e s' (triple.of_error (start s before) ends)

theorem Triple.and {pre' : σ → Prop} {post' : α → σ → Prop} {fails' : ε → σ → Prop}
    (triple : Triple pre x post fails) (other : Triple pre' x post' fails') :
    Triple (fun s => pre s ∧ pre' s) x (fun a s => post a s ∧ post' a s) (fun e s => fails e s ∧ fails' e s) :=
  triple_of_ends
    (fun _ _ _ before ends => ⟨triple.of_ok before.1 ends, other.of_ok before.2 ends⟩)
    fun _ _ _ before ends => ⟨triple.of_error before.1 ends, other.of_error before.2 ends⟩

/-- What was true before may be remembered. -/
theorem triple_of_forall (known : ∀ s, pre s → Triple (fun t => t = s) x post fails) : Triple pre x post fails :=
  fun s before => known s before s rfl

theorem Triple.adapt {ε' : Type} {g : ε → ε'} {fails' : ε' → σ → Prop}
    (triple : Triple pre x post fun e s => fails' (g e) s) : Triple pre (x.adapt g) post fails' := by
  intro s before
  have told := triple s before
  unfold Attempt.adapt
  rcases ran : x s with ⟨e | a, s'⟩ <;> rw [ran] at told <;> exact told

/-- A computation whose failure does not matter. -/
theorem Triple.attempt {ε' : Type} {fails' : ε' → σ → Prop} {holds : σ → Prop}
    (triple : Triple pre x (fun _ => holds) (fun _ => holds)) :
    Triple pre (x.attempt : Attempt ε' σ (Option α)) (fun _ => holds) fails' := by
  intro s before
  have told := triple s before
  unfold Attempt.attempt
  rcases ran : x s with ⟨e | a, s'⟩ <;> rw [ran] at told <;> exact told

/-- A guard turns what a failure leaves into what its cleanup makes of it. -/
theorem Triple.guarded {cleanup : σ → σ} (triple : Triple pre x post fun e s => fails e (cleanup s)) :
    Triple pre (guarded cleanup x) post fails := by
  intro s before
  have told := triple s before
  unfold Attempt.guarded
  rcases ran : x s with ⟨e | a, s'⟩ <;> rw [ran] at told <;> exact told

/-- A loop keeps what each of its rounds keeps. -/
theorem triple_forEach {holds : List ι → σ → Prop} {items : List ι} {body : ι → Attempt ε σ Unit}
    (round : ∀ earlier item later, items = earlier ++ item :: later →
      Triple (holds earlier) (body item) (fun _ => holds (earlier ++ [item])) fails) :
    Triple (holds []) (forEach items body) (fun _ => holds items) fails := by
  suffices onward : ∀ later earlier, items = earlier ++ later →
      Triple (holds earlier) (forEach later body) (fun _ => holds items) fails from onward items [] rfl
  intro later
  induction later with
  | nil =>
    intro earlier split
    rw [split, List.append_nil]
    exact fun _ before => before
  | cons item later ih =>
    intro earlier split
    exact (round earlier item later split).bind fun _ => ih (earlier ++ [item]) (by simp [split])

end Rules
end TinyMachine.Lib.Attempt
