import TinyMachine.Lib.ByteMemory
import TinyMachine.Lib.Spans

/-! Sequences of memory updates that each keep to areas of their own. -/
namespace TinyMachine.Lib

/-- The update changes bytes in the areas only, and what it makes of a byte
does not depend on the bytes around it. -/
structure Writes (areas : List Span) (update : Memory → Memory) : Prop where
  frame : ∀ mem a, ¬ Covers areas a → update mem a = mem a
  pointwise : ∀ mem other a, mem a = other a → update mem a = update other a

namespace Writes
variable {areas more : List Span} {update later : Memory → Memory}

theorem id : Writes [] fun mem => mem := ⟨fun _ _ _ => rfl, fun _ _ _ same => same⟩

theorem store (addr : Nat) (bytes : List UInt8) :
    Writes [⟨addr, addr + bytes.length⟩] fun mem => mem.store addr bytes := by
  refine ⟨fun mem a outside => Memory.store_outside ?_, fun mem other a same => ?_⟩
  · simp only [covers_cons, covers_nil, or_false, Span.Has] at outside
    omega
  · simp only [Memory.store, same]

/-- One update after another writes where either does. -/
theorem andThen (first : Writes areas update) (second : Writes more later) :
    Writes (areas ++ more) fun mem => later (update mem) := by
  refine ⟨fun mem a outside => ?_, fun mem other a same => ?_⟩
  · rw [covers_append, not_or] at outside
    rw [second.frame _ _ outside.2, first.frame _ _ outside.1]
  · exact second.pointwise _ _ _ (first.pointwise _ _ _ same)

/-- An update may be granted larger areas. -/
theorem within (writes : Writes areas update) (granted : ∀ a, Covers areas a → Covers more a) :
    Writes more update :=
  ⟨fun mem a outside => writes.frame mem a (mt (granted a) outside), writes.pointwise⟩

/-- A further store within the areas. -/
theorem thenStore {addr : Nat} {bytes : List UInt8} (writes : Writes areas update)
    (inside : ∀ a, addr ≤ a → a < addr + bytes.length → Covers areas a) :
    Writes areas fun mem => (update mem).store addr bytes := by
  refine (writes.andThen (store addr bytes)).within fun a covered => ?_
  rcases (covers_append ..).mp covered with old | new
  · exact old
  · simp only [covers_cons, covers_nil, or_false, Span.Has] at new
    exact inside a new.1 new.2

theorem thenStoreLE {addr width value : Nat} (writes : Writes areas update)
    (inside : ∀ a, addr ≤ a → a < addr + width → Covers areas a) :
    Writes areas fun mem => (update mem).storeLE addr width value :=
  writes.thenStore (by simpa using inside)

theorem thenFill {addr count : Nat} {byte : UInt8} (writes : Writes areas update)
    (inside : ∀ a, addr ≤ a → a < addr + count → Covers areas a) :
    Writes areas fun mem => (update mem).fill addr count byte :=
  writes.thenStore (by simpa using inside)

theorem nothing : Writes areas fun mem => mem := id.within fun _ covered => absurd covered (covers_nil _)

/-- A byte that no other update writes is what its own update makes of it,
alone and from the start. -/
theorem isolated {before after : List Span} {earlier update later : Memory → Memory} {mem : Memory}
    {a : Nat} (first : Writes before earlier) (own : Writes areas update) (last : Writes after later)
    (unwritten : ¬ Covers before a) (unchanged : ¬ Covers after a) :
    later (update (earlier mem)) a = update mem a := by
  rw [last.frame _ _ unchanged]
  exact own.pointwise _ _ _ (first.frame _ _ unwritten)

end Writes

/-- Some bytes at their address. -/
structure Block where
  addr : Nat
  bytes : List UInt8
  deriving DecidableEq, Repr

namespace Block

def span (block : Block) : Span := ⟨block.addr, block.addr + block.bytes.length⟩

/-- The memory has the block's bytes. -/
def HeldIn (block : Block) (mem : Memory) : Prop :=
  mem.fetch block.addr block.bytes.length = block.bytes

theorem held_iff {block : Block} {mem : Memory} :
    block.HeldIn mem ↔ ∀ i (bound : i < block.bytes.length), mem (block.addr + i) = block.bytes[i] := by
  unfold HeldIn
  rw [Memory.fetch_eq_iff]
  simp

/-- What holds a block is only its own bytes. -/
theorem held_congr {block : Block} {mem : Memory} (other : Memory)
    (same : ∀ a, block.span.Has a → mem a = other a) : block.HeldIn mem ↔ block.HeldIn other := by
  have fetched : mem.fetch block.addr block.bytes.length = other.fetch block.addr block.bytes.length :=
    Memory.fetch_congr fun i bound => same _ ⟨Nat.le_add_right .., Nat.add_lt_add_left bound _⟩
  unfold HeldIn
  rw [fetched]

theorem held_store (mem : Memory) (block : Block) : block.HeldIn (mem.store block.addr block.bytes) :=
  Memory.fetch_store_self ..

/-- An update elsewhere leaves a block in place. -/
theorem held_writes {areas : List Span} {update : Memory → Memory} {block : Block} {mem : Memory}
    (writes : Writes areas update) (apart : ∀ a, block.span.Has a → ¬ Covers areas a) :
    block.HeldIn (update mem) ↔ block.HeldIn mem :=
  held_congr mem fun a inside => writes.frame mem a (apart a inside)

/-- The blocks written one after another. -/
def place (blocks : List Block) (mem : Memory) : Memory :=
  blocks.foldl (fun mem block => mem.store block.addr block.bytes) mem

theorem place_writes (blocks : List Block) : Writes (blocks.map span) (place blocks) := by
  induction blocks with
  | nil => exact Writes.id
  | cons block rest ih => exact (Writes.store block.addr block.bytes).andThen ih

/-- Blocks that are apart are all in place once they are written. -/
theorem held_place {blocks : List Block} (apart : (blocks.map span).Pairwise Span.Disjoint) (mem : Memory) :
    ∀ block ∈ blocks, block.HeldIn (place blocks mem) := by
  induction blocks generalizing mem with
  | nil => simp
  | cons first rest ih =>
    obtain ⟨head, tail⟩ := List.pairwise_cons.mp apart
    refine List.forall_mem_cons.mpr ⟨?_, fun block member => ih tail _ block member⟩
    refine (held_writes (place_writes rest) fun a inside => ?_).mpr (held_store mem first)
    rintro ⟨span, member, inSpan⟩
    exact head span member a inside inSpan

end Block
end TinyMachine.Lib
