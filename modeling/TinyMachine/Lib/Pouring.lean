import TinyMachine.Lib.ByteMemory

/-! Pouring bytes into a row of buffers: each takes what it has room for of
what the ones before it have left. -/
namespace TinyMachine.Lib

/-- Buffers by address and size. -/
abbrev Buffers := List (Nat × Nat)

/-- Blocks of bytes by address. -/
abbrev Blocks := List (Nat × List UInt8)

namespace Buffers

def room (buffers : Buffers) : Nat := (buffers.map Prod.snd).sum

def pour (bytes : List UInt8) : Buffers → Blocks
  | [] => []
  | (addr, size) :: rest => (addr, bytes.take size) :: pour (bytes.drop size) rest

/-- What some blocks hold, in order. -/
def contents (blocks : Blocks) : List UInt8 := blocks.flatMap Prod.snd

/-- The memory behind the stores of some blocks. -/
def storeAll (mem : Memory) (blocks : Blocks) : Memory :=
  blocks.foldl (fun mem block => mem.store block.1 block.2) mem

variable {front back : Buffers} {bytes : List UInt8}

@[simp] theorem room_nil : room [] = 0 := rfl

theorem room_append : room (front ++ back) = room front + room back := by
  rw [room, List.map_append, List.sum_append]
  rfl

theorem pour_append : pour bytes (front ++ back) = pour bytes front ++ pour (bytes.drop (room front)) back := by
  induction front generalizing bytes with
  | nil => rfl
  | cons buffer rest ih =>
    obtain ⟨addr, size⟩ := buffer
    rw [List.cons_append, pour, ih, List.drop_drop]
    rfl

theorem storeAll_append (mem : Memory) (first second : Blocks) :
    storeAll mem (first ++ second) = storeAll (storeAll mem first) second := List.foldl_append

/-- The buffers hold as much of the bytes, from the front, as they have room for. -/
theorem contents_pour (bytes : List UInt8) (buffers : Buffers) :
    contents (pour bytes buffers) = bytes.take (room buffers) := by
  induction buffers generalizing bytes with
  | nil => rfl
  | cons buffer rest ih =>
    obtain ⟨addr, size⟩ := buffer
    have whole : room ((addr, size) :: rest) = size + room rest := rfl
    rw [whole, List.take_add, ← ih]
    rfl

end Buffers
end TinyMachine.Lib
