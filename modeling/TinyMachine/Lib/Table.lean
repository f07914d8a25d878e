import Mathlib.Data.List.AList

/-! Finite maps whose entries may be dropped by what they hold. -/
namespace TinyMachine.Lib

/-- A map of finitely many keys. -/
abbrev Table (κ β : Type) := AList fun _ : κ => β

namespace Table
variable {κ β : Type}

/-- `retain`: the entries that pass the test. -/
def retain (keep : κ → β → Bool) (table : Table κ β) : Table κ β where
  entries := table.entries.filter fun entry => keep entry.1 entry.2
  nodupKeys := table.nodupKeys.sublist List.filter_sublist

variable [DecidableEq κ] {table : Table κ β} {keep : κ → β → Bool} {key : κ} {value : β}

theorem lookup_retain : (table.retain keep).lookup key = (table.lookup key).filter (keep key) := by
  ext value
  have inside : value ∈ (table.retain keep).lookup key ↔ value ∈ table.lookup key ∧ keep key value := by
    rw [AList.mem_lookup_iff, AList.mem_lookup_iff]
    exact List.mem_filter
  rw [Option.mem_def, Option.mem_def] at inside
  rw [inside, Option.filter_eq_some_iff]

end Table
end TinyMachine.Lib
