import Mathlib.Algebra.Order.Ring.Int
import Mathlib.Data.List.Count

/-! Programs that open handles and may fail: what they did until then, and how
many references to a handle that leaves behind. -/
namespace TinyMachine.Lib

inductive Deed (κ ρ : Type) where
  | asked (request : ρ)
  | opened (handle : κ)
  | closed (handle : κ)
  deriving DecidableEq, Repr

/-- A result, and what was done to come to it. -/
structure Custody (κ ρ ε α : Type) where
  result : Except ε α
  deeds : List (Deed κ ρ)

namespace Custody
variable {κ ρ ε α β : Type}

instance : Monad (Custody κ ρ ε) where
  pure a := ⟨.ok a, []⟩
  bind first next :=
    match first.result with
    | .error e => ⟨.error e, first.deeds⟩
    | .ok a => ⟨(next a).result, first.deeds ++ (next a).deeds⟩

def fail (e : ε) : Custody κ ρ ε α := ⟨.error e, []⟩
def did (deeds : List (Deed κ ρ)) : Custody κ ρ ε Unit := ⟨.ok (), deeds⟩
def ask (request : ρ) : Custody κ ρ ε Unit := did [.asked request]
def demand (met : Except ε α) : Custody κ ρ ε α := ⟨met, []⟩

/-- What goes out of scope when the program fails. -/
def unwinding (program : Custody κ ρ ε α) (cleanup : List (Deed κ ρ)) : Custody κ ρ ε α :=
  match program.result with
  | .error e => ⟨.error e, program.deeds ++ cleanup⟩
  | .ok _ => program

section Results
variable {first : Custody κ ρ ε α} {next : α → Custody κ ρ ε β} {a : α} {b : β}

@[simp] theorem pure_result : (pure a : Custody κ ρ ε α).result = .ok a := rfl
@[simp] theorem pure_deeds : (pure a : Custody κ ρ ε α).deeds = [] := rfl
@[simp] theorem did_result (deeds : List (Deed κ ρ)) : (did deeds : Custody κ ρ ε Unit).result = .ok () := rfl
@[simp] theorem did_deeds (deeds : List (Deed κ ρ)) : (did deeds : Custody κ ρ ε Unit).deeds = deeds := rfl
@[simp] theorem ask_result (request : ρ) : (ask request : Custody κ ρ ε Unit).result = .ok () := rfl
@[simp] theorem ask_deeds (request : ρ) :
    (ask request : Custody κ ρ ε Unit).deeds = [.asked request] := rfl
@[simp] theorem demand_result (met : Except ε α) : (demand met : Custody κ ρ ε α).result = met := rfl
@[simp] theorem demand_deeds (met : Except ε α) : (demand met : Custody κ ρ ε α).deeds = [] := rfl

theorem bind_result : (first >>= next).result = first.result.bind fun a => (next a).result := by
  show (match first.result with | .error e => _ | .ok a => _ : Custody κ ρ ε β).result = _
  cases first.result with
  | error e => rfl
  | ok a => rfl

theorem bind_deeds : (first >>= next).deeds = first.deeds ++
    match first.result with
    | .ok a => (next a).deeds
    | .error _ => [] := by
  show (match first.result with | .error e => _ | .ok a => _ : Custody κ ρ ε β).deeds = _
  cases first.result with
  | error e => exact (List.append_nil _).symm
  | ok a => rfl

@[simp] theorem unwinding_result (program : Custody κ ρ ε α) (cleanup : List (Deed κ ρ)) :
    (program.unwinding cleanup).result = program.result := by
  unfold unwinding
  split
  · rename_i failed
    exact failed.symm
  · rfl

/-- A sequence succeeds exactly if its parts do. -/
theorem bind_ok : (first >>= next).result = .ok b ↔ ∃ a, first.result = .ok a ∧ (next a).result = .ok b := by
  rw [bind_result]
  cases first.result with
  | error e => simp [Except.bind]
  | ok a => simp [Except.bind]

end Results

/-! ## References -/

section Balance
variable [DecidableEq κ] {handle : κ}

def change (handle : κ) : Deed κ ρ → Int
  | .asked _ => 0
  | .opened other => if other = handle then 1 else 0
  | .closed other => if other = handle then -1 else 0

/-- How often the handle was opened and not closed again. -/
def balance (handle : κ) (deeds : List (Deed κ ρ)) : Int := (deeds.map (change handle)).sum

@[simp] theorem balance_nil : balance handle ([] : List (Deed κ ρ)) = 0 := rfl

@[simp] theorem balance_append (earlier later : List (Deed κ ρ)) :
    balance handle (earlier ++ later) = balance handle earlier + balance handle later := by
  rw [balance, List.map_append, List.sum_append]
  rfl

@[simp] theorem balance_asked (request : ρ) (rest : List (Deed κ ρ)) :
    balance handle (.asked request :: rest) = balance handle rest := by
  simp [balance, change]

@[simp] theorem balance_opened (other : κ) (rest : List (Deed κ ρ)) :
    balance handle (.opened other :: rest) = (if other = handle then 1 else 0) + balance handle rest := rfl

@[simp] theorem balance_closed (other : κ) (rest : List (Deed κ ρ)) :
    balance handle (.closed other :: rest) = (if other = handle then -1 else 0) + balance handle rest := rfl

/-- Requests alone leave every handle as it is. -/
theorem balance_map_asked {ι : Type} (items : List ι) (request : ι → ρ) :
    balance handle (items.map fun item => (.asked (request item) : Deed κ ρ)) = 0 := by
  induction items with
  | nil => rfl
  | cons item rest ih =>
    rw [List.map_cons, balance_asked]
    exact ih

/-- The second part of a sequence leaves nothing if the first fails. -/
theorem balance_bind (first : Custody κ ρ ε α) (next : α → Custody κ ρ ε β) :
    balance handle (first >>= next).deeds = balance handle first.deeds +
      match first.result with
      | .ok a => balance handle (next a).deeds
      | .error _ => 0 := by
  rw [bind_deeds, balance_append]
  cases first.result with
  | error e => rfl
  | ok a => rfl

theorem balance_unwinding (program : Custody κ ρ ε α) (cleanup : List (Deed κ ρ)) :
    balance handle (program.unwinding cleanup).deeds = balance handle program.deeds +
      match program.result with
      | .ok _ => 0
      | .error _ => balance handle cleanup := by
  unfold unwinding
  cases program.result with
  | error e => exact balance_append ..
  | ok a => exact (add_zero _).symm

end Balance
end Custody
end TinyMachine.Lib
