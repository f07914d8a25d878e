import Mathlib.Algebra.BigOperators.Group.List.Basic
import Mathlib.Algebra.GroupWithZero.Nat
import Mathlib.Algebra.Order.BigOperators.Group.List
import Mathlib.Data.List.Infix

/-! Eviction from the front of a queue, until what is left is no heavier than a
limit. -/
namespace TinyMachine.Lib

section Eviction
variable {κ : Type} {weight : κ → Nat} {limit held : Nat} {keys : List κ}

def load (weight : κ → Nat) (keys : List κ) : Nat := (keys.map weight).sum

/-- The keys that go, where this much is held by all. -/
def evicted (weight : κ → Nat) (limit : Nat) : Nat → List κ → List κ
  | _, [] => []
  | held, key :: rest =>
    if held ≤ limit then [] else key :: evicted weight limit (held - weight key) rest

@[simp] theorem load_cons {key : κ} : load weight (key :: keys) = weight key + load weight keys := List.sum_cons

@[simp] theorem load_append {keys later : List κ} : load weight (keys ++ later) = load weight keys + load weight later := by
  simp [load]

theorem evicted_of_light (light : held ≤ limit) : evicted weight limit held keys = [] := by
  cases keys with
  | nil => rfl
  | cons key rest => exact if_pos light

theorem evicted_congr {other : κ → Nat} (same : ∀ key ∈ keys, weight key = other key) :
    evicted weight limit held keys = evicted other limit held keys := by
  induction keys generalizing held with
  | nil => rfl
  | cons key rest ih =>
    rw [evicted, evicted, same key List.mem_cons_self, ih fun later member => same later (List.mem_cons_of_mem _ member)]

theorem load_congr {other : κ → Nat} (same : ∀ key ∈ keys, weight key = other key) :
    load weight keys = load other keys := congrArg List.sum (List.map_congr_left same)

/-- A front of the queue goes, and the rest is light enough. -/
theorem evicted_spec (weight : κ → Nat) (limit : Nat) (keys : List κ) : ∃ rest,
    keys = evicted weight limit (load weight keys) keys ++ rest ∧ load weight rest ≤ limit := by
  induction keys with
  | nil => exact ⟨[], rfl, Nat.zero_le _⟩
  | cons key later ih =>
    obtain ⟨rest, split, light⟩ := ih
    by_cases fits : load weight (key :: later) ≤ limit
    · exact ⟨key :: later, by rw [evicted_of_light fits]; rfl, fits⟩
    · refine ⟨rest, ?_, light⟩
      have left : load weight (key :: later) - weight key = load weight later := by
        rw [load_cons, Nat.add_sub_cancel_left]
      rw [evicted, if_neg fits, left, List.cons_append, ← split]

/-- The last of the queue stays where it is light enough by itself. -/
theorem last_stays {front : List κ} {last : κ} (light : weight last ≤ limit) :
    evicted weight limit (load weight (front ++ [last])) (front ++ [last]) <+: front := by
  induction front with
  | nil =>
    have alone : load weight ([] ++ [last]) = weight last := Nat.add_zero _
    rw [alone, evicted_of_light light]
  | cons key front ih =>
    rw [List.cons_append]
    by_cases fits : load weight (key :: (front ++ [last])) ≤ limit
    · rw [evicted_of_light fits]
      exact List.nil_prefix
    · have left : load weight (key :: (front ++ [last])) - weight key = load weight (front ++ [last]) := by
        rw [load_cons, Nat.add_sub_cancel_left]
      rw [evicted, if_neg fits, left]
      exact List.prefix_cons_inj key |>.mpr ih

/-- A queue that holds all that weighs anything weighs no less than other keys. -/
theorem load_le_of_covers [DecidableEq κ] {others : List κ} (distinct : others.Nodup)
    (covers : ∀ key ∈ others, weight key ≠ 0 → key ∈ keys) : load weight others ≤ load weight keys := by
  induction others generalizing keys with
  | nil => exact Nat.zero_le _
  | cons key others ih =>
    obtain ⟨fresh, distinct⟩ := List.nodup_cons.mp distinct
    by_cases nothing : weight key = 0
    · rw [load_cons, nothing, Nat.zero_add]
      exact ih distinct fun other member => covers other (List.mem_cons_of_mem _ member)
    · have there := List.perm_cons_erase (covers key List.mem_cons_self nothing)
      have whole : load weight keys = load weight (key :: keys.erase key) := (there.map weight).sum_eq
      rw [whole, load_cons, load_cons]
      apply Nat.add_le_add_left
      apply ih distinct
      intro other member heavy
      have apart : other ≠ key := fun same => fresh (same ▸ member)
      exact (List.mem_erase_of_ne apart).mpr (covers other (List.mem_cons_of_mem _ member) heavy)

end Eviction
end TinyMachine.Lib
