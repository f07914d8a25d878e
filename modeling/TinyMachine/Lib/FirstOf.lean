import Mathlib.Data.List.Nodup

/-! Collecting values in order, each only where none with the same key has been
collected before. -/
namespace TinyMachine.Lib
variable {α κ : Type} (key : α → κ)

def addNew [DecidableEq κ] (kept : List α) (a : α) : List α := if key a ∈ kept.map key then kept else kept ++ [a]

/-- The value is the first of its key in the list. -/
def FirstOf (list : List α) (a : α) : Prop :=
  ∃ before after, list = before ++ a :: after ∧ key a ∉ before.map key

variable {key} {kept list : List α} {a b : α}

section Collecting
variable [DecidableEq κ]

theorem mem_addNew : b ∈ addNew key kept a ↔ b ∈ kept ∨ b = a ∧ key a ∉ kept.map key := by
  unfold addNew
  by_cases present : key a ∈ kept.map key
  · simp [present]
  · rw [if_neg present, List.mem_append, List.mem_singleton]
    simp only [present, not_false_iff, and_true]

theorem keys_addNew : key b ∈ (addNew key kept a).map key ↔ key b ∈ kept.map key ∨ key b = key a := by
  unfold addNew
  by_cases present : key a ∈ kept.map key
  · simp only [if_pos present]
    exact ⟨.inl, fun either => either.elim id fun same => same ▸ present⟩
  · rw [if_neg present, List.map_append, List.mem_append, List.map_singleton, List.mem_singleton]

/-- What is collected is what was there and the first value of every new key. -/
theorem mem_foldl_addNew : b ∈ list.foldl (addNew key) kept ↔
    b ∈ kept ∨ key b ∉ kept.map key ∧ FirstOf key list b := by
  induction list generalizing kept with
  | nil =>
    refine ⟨.inl, ?_⟩
    rintro (there | ⟨-, before, after, split, -⟩)
    · exact there
    · cases before <;> cases split
  | cons a list ih =>
    rw [List.foldl_cons, ih, mem_addNew, keys_addNew]
    constructor
    · rintro ((there | ⟨rfl, fresh⟩) | ⟨fresh, before, after, rfl, first⟩)
      · exact .inl there
      · exact .inr ⟨fresh, [], list, rfl, List.not_mem_nil⟩
      · refine .inr ⟨fun there => fresh (.inl there), a :: before, after, rfl, ?_⟩
        rw [List.map_cons, List.mem_cons]
        exact not_or.mpr ⟨fun same => fresh (.inr same), first⟩
    · rintro (there | ⟨fresh, before, after, split, first⟩)
      · exact .inl (.inl there)
      · cases before with
        | nil =>
          cases split
          exact .inl (.inr ⟨rfl, fresh⟩)
        | cons c before =>
          cases split
          rw [List.map_cons, List.mem_cons, not_or] at first
          exact .inr ⟨not_or.mpr ⟨fresh, first.1⟩, before, after, rfl, first.2⟩

/-- No key is collected twice. -/
theorem nodup_foldl_addNew (distinct : (kept.map key).Nodup) :
    ((list.foldl (addNew key) kept).map key).Nodup := by
  induction list generalizing kept with
  | nil => exact distinct
  | cons a list ih =>
    refine ih ?_
    unfold addNew
    by_cases present : key a ∈ kept.map key
    · rwa [if_pos present]
    · rw [if_neg present, List.map_append, List.nodup_append]
      refine ⟨distinct, List.nodup_singleton (key a), ?_⟩
      intro old member added only same
      rw [List.map_singleton, List.mem_singleton] at only
      exact present (only ▸ same ▸ member)

end Collecting

theorem FirstOf.mem (first : FirstOf key list a) : a ∈ list := by
  obtain ⟨before, after, rfl, -⟩ := first
  exact List.mem_append_right _ List.mem_cons_self

/-- A search for a key ends at the first value that has it. -/
theorem find?_eq_some_iff_firstOf [DecidableEq κ] {sought : κ} :
    list.find? (fun a => key a = sought) = some a ↔ FirstOf key list a ∧ key a = sought := by
  rw [List.find?_eq_some_iff_append, and_comm, decide_eq_true_eq]
  refine and_congr_left fun same => exists_congr fun before => exists_congr fun after => and_congr_right fun _ => ?_
  rw [List.mem_map, same]
  constructor
  · rintro passed ⟨other, member, equal⟩
    have failed := passed other member
    simp [equal] at failed
  · intro fresh other member
    have differs : key other ≠ sought := fun equal => fresh ⟨other, member, equal⟩
    simp [differs]

theorem exists_firstOf [DecidableEq κ] (key : α → κ) (member : a ∈ list) :
    ∃ first, FirstOf key list first ∧ key first = key a := by
  have some := List.find?_isSome (p := fun other => key other = key a) |>.mpr ⟨a, member, decide_eq_true rfl⟩
  obtain ⟨first, found⟩ := Option.isSome_iff_exists.mp some
  exact ⟨first, find?_eq_some_iff_firstOf.mp found⟩

/-- Values that come first with the same key are the same. -/
theorem FirstOf.unique (first : FirstOf key list a) (other : FirstOf key list b) (same : key a = key b) :
    a = b := by
  obtain ⟨before, after, rfl, fresh⟩ := first
  obtain ⟨before', after', split, fresh'⟩ := other
  rcases List.append_eq_append_iff.mp split with ⟨middle, rfl, rest⟩ | ⟨middle, rfl, rest⟩
  · cases middle with
    | nil =>
      cases rest
      rfl
    | cons c middle =>
      cases rest
      simp [same] at fresh'
  · cases middle with
    | nil =>
      cases rest
      rfl
    | cons c middle =>
      cases rest
      simp [same] at fresh

end TinyMachine.Lib
