import Mathlib.Data.List.TakeWhile
import TinyMachine.Lib.ByteMemory

/-! A memory that another party fills one byte at a time: logs of byte stores,
what a reader can conclude from a flag it sees part-way through one, and
NUL-terminated strings. -/
namespace TinyMachine.Lib

abbrev ByteWrite := Nat × UInt8

/-- The log that copies a block from its first byte to its last. -/
def blockLog : Nat → List UInt8 → List ByteWrite
  | _, [] => []
  | addr, byte :: rest => (addr, byte) :: blockLog (addr + 1) rest

@[simp] theorem length_blockLog (addr : Nat) (bytes : List UInt8) :
    (blockLog addr bytes).length = bytes.length := by
  induction bytes generalizing addr with
  | nil => rfl
  | cons byte rest ih => simp [blockLog, ih]

/-- A block log stays in its block and writes only bytes of it. -/
theorem of_mem_blockLog {addr : Nat} {bytes : List UInt8} {write : ByteWrite}
    (member : write ∈ blockLog addr bytes) :
    addr ≤ write.1 ∧ write.1 < addr + bytes.length ∧ write.2 ∈ bytes := by
  induction bytes generalizing addr with
  | nil => cases member
  | cons byte rest ih =>
    rcases List.mem_cons.mp member with rfl | later
    · exact ⟨Nat.le_refl _, by simp, List.mem_cons_self⟩
    · obtain ⟨low, high, inside⟩ := ih later
      exact ⟨by omega, by rw [List.length_cons]; omega, List.mem_cons_of_mem _ inside⟩

theorem blockLog_append (addr : Nat) (front back : List UInt8) :
    blockLog addr (front ++ back) = blockLog addr front ++ blockLog (addr + front.length) back := by
  induction front generalizing addr with
  | nil => rfl
  | cons byte front ih =>
    rw [List.cons_append, blockLog, blockLog, ih, List.cons_append, List.length_cons, Nat.add_assoc,
      Nat.add_comm 1]

/-- Behind the last byte of a string its block log writes a zero. -/
theorem zero_of_mem_blockLog {addr : Nat} {bytes : List UInt8} {write : ByteWrite}
    (member : write ∈ blockLog addr (bytes ++ [0])) (behind : addr + bytes.length ≤ write.1) :
    write.2 = 0 := by
  rw [blockLog_append, List.mem_append] at member
  rcases member with front | last
  · have inside := (of_mem_blockLog front).2.1
    omega
  · exact List.mem_singleton.mp (of_mem_blockLog last).2.2

/-- What follows a NUL does not belong to the string. -/
theorem takeWhile_terminated (bytes rest : List UInt8) :
    (bytes ++ ([0] ++ rest)).takeWhile (· ≠ 0) = bytes.takeWhile (· ≠ 0) := by
  induction bytes with
  | nil => rfl
  | cons byte bytes ih => rw [List.cons_append, List.takeWhile_cons, List.takeWhile_cons, ih]

namespace Memory

/-- The byte stores of a log, in order. -/
def replay (mem : Memory) (log : List ByteWrite) : Memory :=
  log.foldl (fun mem write => mem.store write.1 [write.2]) mem

/-- The bytes from an address up to the first NUL, of at most `count`. -/
def cString (mem : Memory) (addr count : Nat) : List UInt8 :=
  (mem.fetch addr count).takeWhile (· ≠ 0)

variable {mem : Memory} {log body rest : List ByteWrite} {addr count a : Nat} {value : UInt8}
  {bytes : List UInt8}

@[simp] theorem replay_nil (mem : Memory) : mem.replay [] = mem := rfl

@[simp] theorem replay_cons (mem : Memory) (write : ByteWrite) (log : List ByteWrite) :
    mem.replay (write :: log) = (mem.store write.1 [write.2]).replay log := rfl

theorem replay_append (mem : Memory) (log more : List ByteWrite) :
    mem.replay (log ++ more) = (mem.replay log).replay more :=
  List.foldl_append

/-- Copying a block byte by byte stores the block. -/
theorem replay_blockLog (mem : Memory) (addr : Nat) (bytes : List UInt8) :
    mem.replay (blockLog addr bytes) = mem.store addr bytes := by
  induction bytes generalizing mem addr with
  | nil => simp [blockLog]
  | cons byte rest ih =>
    rw [blockLog, replay_cons, ih]
    exact store_store mem addr [byte] rest rfl

/-- A byte keeps its value through writes that store no other value there. -/
theorem replay_steady (same : ∀ write ∈ log, write.1 = a → write.2 = value) (before : mem a = value) :
    mem.replay log a = value := by
  induction log generalizing mem with
  | nil => exact before
  | cons write log ih =>
    rw [replay_cons]
    apply ih (fun later member => same later (List.mem_cons_of_mem _ member))
    by_cases here : write.1 = a
    · rw [store_inside (by omega) (by simp [here])]
      simpa using same write List.mem_cons_self here
    · rw [store_outside (by simp; omega), before]

/-- A log leaves the bytes it does not address alone. -/
theorem replay_untouched (apart : ∀ write ∈ log, write.1 ≠ a) : mem.replay log a = mem a :=
  replay_steady (fun write member here => absurd here (apart write member)) rfl

/-- A reader that finds a flag raised, which the body of the log leaves at
zero, knows that the whole body is written. -/
theorem length_lt_of_flag {n : Nat} (quiet : ∀ write ∈ body, write.1 = a → write.2 = 0)
    (clear : mem a = 0) (raised : mem.replay ((body ++ rest).take n) a ≠ 0) : body.length < n := by
  by_contra short
  apply raised
  rw [List.take_append_of_le_length (Nat.le_of_not_lt short)]
  exact replay_steady (fun write member => quiet write (List.mem_of_mem_take member)) clear

theorem store_same (held : mem a = value) : mem.store a [value] = mem := by
  funext b
  by_cases here : b = a
  · subst here
    rw [store_inside (Nat.le_refl _) (by simp), held]
    simp
  · exact store_outside (by simp; omega)

theorem fetch_add (mem : Memory) (addr first second : Nat) :
    mem.fetch addr (first + second) = mem.fetch addr first ++ mem.fetch (addr + first) second := by
  simp only [fetch, List.range_add, List.map_append, List.map_map, Function.comp_def, Nat.add_assoc]

theorem fetch_store_prefix (within : count ≤ bytes.length) :
    (mem.store addr bytes).fetch addr count = bytes.take count := by
  refine fetch_eq_iff.mpr ⟨List.length_take_of_le within, fun i bound => ?_⟩
  rw [List.length_take] at bound
  rw [store_inside (by omega) (by omega), List.getElem_take]
  congr 1
  omega

theorem cString_eq_nil (empty : mem addr = 0) : mem.cString addr count = [] := by
  cases count with
  | zero => rfl
  | succ count =>
    rw [cString, Nat.add_comm, fetch_add, show mem.fetch addr 1 = [0] by simp [fetch, empty]]
    exact List.takeWhile_cons_of_neg (by simp)

/-- A stored string is read back up to its first NUL. -/
theorem cString_of_stored (stored : mem.fetch addr (bytes.length + 1) = bytes ++ [0])
    (fits : bytes.length ≤ count) : mem.cString addr count = bytes.takeWhile (· ≠ 0) := by
  obtain ⟨-, held⟩ := fetch_eq_iff.mp stored
  rcases Nat.eq_or_lt_of_le fits with full | shorter
  · have whole : mem.fetch addr count = bytes := by
      refine fetch_eq_iff.mpr ⟨full, fun i bound => ?_⟩
      rw [held i (by rw [List.length_append]; omega), List.getElem_append_left bound]
    rw [cString, whole]
  · obtain ⟨extra, rfl⟩ : ∃ extra, count = bytes.length + 1 + extra := ⟨count - (bytes.length + 1), by omega⟩
    have split : mem.fetch addr (bytes.length + 1 + extra) =
        bytes ++ 0 :: mem.fetch (addr + (bytes.length + 1)) extra := by
      rw [fetch_add, stored, List.append_assoc, List.singleton_append]
    rw [cString, split, List.takeWhile_append]
    split
    next all =>
      rw [List.takeWhile_cons_of_neg (by simp), List.append_nil]
      exact ((List.takeWhile_prefix _).eq_of_length all).symm
    next => rfl

/-- A string without NUL is read back whole. -/
theorem cString_of_stored_clean (stored : mem.fetch addr (bytes.length + 1) = bytes ++ [0])
    (fits : bytes.length ≤ count) (clean : ∀ byte ∈ bytes, byte ≠ 0) :
    mem.cString addr count = bytes := by
  rw [cString_of_stored stored fits, List.takeWhile_eq_self_iff]
  simpa using clean

end Memory
end TinyMachine.Lib
