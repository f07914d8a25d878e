import Mathlib.Data.List.Basic
import Mathlib.Tactic.Ring

/-! A byte-addressed memory: storing blocks of bytes, reading them back, and
little-endian integers laid out in it. -/
namespace TinyMachine.Lib

abbrev Memory := Nat → UInt8

namespace Memory

/-- Every byte zero, as an anonymous mapping starts. -/
def zeroed : Memory := fun _ => 0

/-- Copies a block of bytes to an address. -/
def store (mem : Memory) (addr : Nat) (bytes : List UInt8) : Memory := fun a =>
  if addr ≤ a then bytes[a - addr]?.getD (mem a) else mem a

/-- Fills a block with one byte value. -/
def fill (mem : Memory) (addr count : Nat) (byte : UInt8) : Memory :=
  mem.store addr (List.replicate count byte)

/-- The block of `count` bytes at an address. -/
def fetch (mem : Memory) (addr count : Nat) : List UInt8 :=
  (List.range count).map fun i => mem (addr + i)

/-- The little-endian number in the `width` bytes at an address. -/
def readLE (mem : Memory) (addr : Nat) : Nat → Nat
  | 0 => 0
  | width + 1 => (mem addr).toNat + 256 * readLE mem (addr + 1) width

/-- The `width` bytes of a number, lowest first. -/
def bytesLE : Nat → Nat → List UInt8
  | 0, _ => []
  | width + 1, value => UInt8.ofNat value :: bytesLE width (value / 256)

/-- Stores a number in `width` bytes. -/
def storeLE (mem : Memory) (addr width value : Nat) : Memory :=
  mem.store addr (bytesLE width value)

variable {mem other : Memory} {addr width value count a : Nat} {bytes : List UInt8}

theorem store_inside (low : addr ≤ a) (high : a < addr + bytes.length) :
    mem.store addr bytes a = bytes[a - addr] := by
  simp [store, low, List.getElem?_eq_getElem (show a - addr < bytes.length by omega)]

/-- A store leaves the bytes outside its block alone. -/
theorem store_outside (outside : a < addr ∨ addr + bytes.length ≤ a) :
    mem.store addr bytes a = mem a := by
  unfold store
  split
  · rw [List.getElem?_eq_none (by omega), Option.getD_none]
  · rfl

@[simp] theorem store_nil (mem : Memory) (addr : Nat) : mem.store addr [] = mem := by
  funext a
  exact store_outside (by simp; omega)

/-- What is stored inside an earlier block replaces that part of it. -/
theorem store_over (mem : Memory) (addr : Nat) (front old new back : List UInt8)
    (fits : old.length = new.length) :
    (mem.store addr (front ++ (old ++ back))).store (addr + front.length) new =
      mem.store addr (front ++ (new ++ back)) := by
  funext a
  by_cases inside : addr + front.length ≤ a ∧ a < addr + front.length + new.length
  · rw [store_inside inside.1 inside.2, store_inside (by omega) (by simp; omega),
      List.getElem_append_right (by omega), List.getElem_append_left (by omega)]
    congr 1
    omega
  · rw [store_outside (by omega)]
    unfold store
    split
    · congr 1
      simp only [List.getElem?_append]
      split
      · rfl
      · split <;> split <;> first | omega | rw [fits]
    · rfl

/-- Storing a block is storing its two halves. -/
theorem store_append (mem : Memory) (addr : Nat) (front back : List UInt8) :
    mem.store addr (front ++ back) = (mem.store addr front).store (addr + front.length) back := by
  funext a
  by_cases low : addr ≤ a
  · by_cases first : a < addr + front.length
    · rw [store_inside low (by simp; omega), store_outside (.inl first), store_inside low first,
        List.getElem_append_left]
    · by_cases second : a < addr + front.length + back.length
      · rw [store_inside low (by simp; omega), store_inside (by omega) second,
          List.getElem_append_right (by omega)]
        congr 1
        omega
      · rw [store_outside (.inr (by simp; omega)), store_outside (.inr (by omega)),
          store_outside (.inr (by omega))]
  · rw [store_outside (.inl (by omega)), store_outside (.inl (by omega)),
      store_outside (.inl (by omega))]

/-- Two stores side by side are one. -/
theorem store_store (mem : Memory) (addr : Nat) (front back : List UInt8) {next : Nat}
    (adjacent : next = addr + front.length) :
    (mem.store addr front).store next back = mem.store addr (front ++ back) := by
  rw [store_append, adjacent]

@[simp] theorem length_fetch (mem : Memory) (addr count : Nat) :
    (mem.fetch addr count).length = count := by simp [fetch]

@[simp] theorem getElem_fetch {i : Nat} (bound : i < (mem.fetch addr count).length) :
    (mem.fetch addr count)[i] = mem (addr + i) := by simp [fetch]

/-- A block that was read is what is read at its length. -/
theorem fetch_length (mem : Memory) (addr count : Nat) :
    mem.fetch addr (mem.fetch addr count).length = mem.fetch addr count := by
  rw [length_fetch]

theorem fetch_congr (same : ∀ i < count, mem (addr + i) = other (addr + i)) :
    mem.fetch addr count = other.fetch addr count := by
  apply List.ext_getElem (by simp)
  intro i bound _
  simp only [getElem_fetch]
  exact same i (by simpa using bound)

theorem fetch_eq_iff : mem.fetch addr count = bytes ↔
    bytes.length = count ∧ ∀ i (bound : i < bytes.length), mem (addr + i) = bytes[i] := by
  constructor
  · rintro rfl
    exact ⟨length_fetch .., fun i bound => (getElem_fetch bound).symm⟩
  · rintro ⟨length, same⟩
    apply List.ext_getElem (by simp [length])
    intro i bound inside
    rw [getElem_fetch, same i inside]

/-- What was stored is what is read. -/
theorem fetch_store_self (mem : Memory) (addr : Nat) (bytes : List UInt8) :
    (mem.store addr bytes).fetch addr bytes.length = bytes := by
  rw [fetch_eq_iff]
  refine ⟨rfl, fun i bound => ?_⟩
  rw [store_inside (by omega) (by omega)]
  congr 1
  omega

theorem fetch_store_disjoint (apart : addr + count ≤ a ∨ a + bytes.length ≤ addr) :
    (mem.store a bytes).fetch addr count = mem.fetch addr count :=
  fetch_congr fun i bound => store_outside (by omega)

@[simp] theorem length_bytesLE (width value : Nat) : (bytesLE width value).length = width := by
  induction width generalizing value with
  | zero => rfl
  | succ width ih => simp [bytesLE, ih]

theorem fetch_bytesLE_self (mem : Memory) (addr width value : Nat) :
    (mem.store addr (bytesLE width value)).fetch addr width = bytesLE width value := by
  simpa using fetch_store_self mem addr (bytesLE width value)

theorem readLE_congr (same : ∀ i < width, mem (addr + i) = other (addr + i)) :
    mem.readLE addr width = other.readLE addr width := by
  induction width generalizing addr with
  | zero => rfl
  | succ width ih =>
    have here := same 0 (by omega)
    rw [readLE, readLE, ih fun i bound => by simpa [Nat.add_assoc, Nat.add_comm 1] using same (i + 1) (by omega)]
    rw [Nat.add_zero] at here
    rw [here]

/-- A stored number is read back, up to the width it was stored in. -/
theorem readLE_storeLE_self (mem : Memory) (addr width value : Nat) :
    (mem.storeLE addr width value).readLE addr width = value % 256 ^ width := by
  induction width generalizing mem addr value with
  | zero => simp [readLE, Nat.mod_one]
  | succ width ih =>
    have split := store_append mem addr [UInt8.ofNat value] (bytesLE width (value / 256))
    rw [List.singleton_append, List.length_singleton] at split
    rw [storeLE, bytesLE, split]
    have high : ((mem.store addr [UInt8.ofNat value]).store (addr + 1)
        (bytesLE width (value / 256))).readLE (addr + 1) width = value / 256 % 256 ^ width := ih ..
    have low : (mem.store addr [UInt8.ofNat value]).store (addr + 1)
        (bytesLE width (value / 256)) addr = UInt8.ofNat value := by
      rw [store_outside (.inl (by omega)), store_inside (by omega) (by simp)]
      simp
    rw [readLE, high, low, UInt8.toNat_ofNat', Nat.pow_succ 256, Nat.mul_comm (256 ^ width),
      Nat.mod_mul]

theorem readLE_store_disjoint (apart : addr + width ≤ a ∨ a + bytes.length ≤ addr) :
    (mem.store a bytes).readLE addr width = mem.readLE addr width :=
  readLE_congr fun i bound => store_outside (by omega)

theorem readLE_storeLE_disjoint {width' : Nat} (apart : addr + width ≤ a ∨ a + width' ≤ addr) :
    (mem.storeLE a width' value).readLE addr width = mem.readLE addr width :=
  readLE_store_disjoint (by simpa using apart)

end Memory
end TinyMachine.Lib
