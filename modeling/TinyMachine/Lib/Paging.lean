import TinyMachine.Lib.ByteMemory

/-! The address translation of an x86-64 processor in 4-level paging, for
writable accesses: every entry on the way has to be present and writable. -/
namespace TinyMachine.Lib.Paging

def presentBit : Nat := 0
def writableBit : Nat := 1
def pageSizeBit : Nat := 7

/-- Present and writable. -/
def Usable (entry : Nat) : Prop := entry.testBit presentBit ∧ entry.testBit writableBit

instance (entry : Nat) : Decidable (Usable entry) := inferInstanceAs (Decidable (_ ∧ _))

/-- Address bits 51..12 of an entry. -/
def frame (entry : Nat) : Nat := entry / 2 ^ 12 % 2 ^ 40 * 2 ^ 12

/-- How many address bits lie below the index of a table of this level. -/
def shift (level : Nat) : Nat := 12 + 9 * (level - 1)

/-- The index a virtual address selects in a table of this level. -/
def index (level va : Nat) : Nat := va / 2 ^ shift level % 512

/-- The entry an address selects. -/
def entryAt (mem : Memory) (level table va : Nat) : Nat := mem.readLE (table + index level va * 8) 8

/-- The walk from a table of the given level; level 0 is the page itself. A
set size bit in levels 2 and 3 ends it at a 2 MB or a 1 GB page. -/
def walk (mem : Memory) : Nat → Nat → Nat → Option Nat
  | 0, page, va => some (page + va % 2 ^ 12)
  | level + 1, table, va =>
    let entry := entryAt mem (level + 1) table va
    if ¬ Usable entry then none
    else if (level = 1 ∨ level = 2) ∧ entry.testBit pageSizeBit then
      let size := 2 ^ shift (level + 1)
      some (frame entry / size * size + va % size)
    else walk mem level (frame entry) va

/-- The physical address behind a virtual one, from `CR3`. -/
def translate (mem : Memory) (cr3 va : Nat) : Option Nat := walk mem 4 (frame cr3) va

variable {mem : Memory} {level table va : Nat}

/-- One step of the walk through an entry that points to another table. -/
theorem walk_table (next : Nat) (usable : Usable (entryAt mem (level + 1) table va))
    (plain : (entryAt mem (level + 1) table va).testBit pageSizeBit = false)
    (points : frame (entryAt mem (level + 1) table va) = next) :
    walk mem (level + 1) table va = walk mem level next va := by
  rw [walk, if_neg (not_not.mpr usable), if_neg (by simp [plain]), points]

/-- The last step of the walk at a 2 MB page. -/
theorem walk_large (usable : Usable (entryAt mem 2 table va))
    (large : (entryAt mem 2 table va).testBit pageSizeBit = true) :
    walk mem 2 table va =
      some (frame (entryAt mem 2 table va) / 2 ^ 21 * 2 ^ 21 + va % 2 ^ 21) := by
  rw [walk, if_neg (not_not.mpr usable), if_pos ⟨.inl rfl, large⟩]
  rfl

/-- The walk ends at an entry that is not usable. -/
theorem walk_missing (missing : ¬ Usable (entryAt mem (level + 1) table va)) :
    walk mem (level + 1) table va = none := by
  rw [walk, if_pos missing]

end TinyMachine.Lib.Paging
