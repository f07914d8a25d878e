import Mathlib.Data.List.TakeWhile
import TinyMachine.Lib.ByteMemory

/-! Strings in memory that end at a zero. -/
namespace TinyMachine.Lib
namespace Memory
variable {mem : Memory} {addr count : Nat}

/-- A string with a zero behind it. -/
structure HoldsString (mem : Memory) (addr : Nat) (text : List UInt8) : Prop where
  bytes : mem.fetch addr text.length = text
  ends : mem (addr + text.length) = 0
  whole : 0 ∉ text

theorem HoldsString.unique {text other : List UInt8} (first : HoldsString mem addr text)
    (second : HoldsString mem addr other) : text = other := by
  -- The shorter one would end inside of the longer one.
  have fits {short long : List UInt8} (ended : HoldsString mem addr short) (held : HoldsString mem addr long) :
      long.length ≤ short.length := by
    by_contra less
    have inside : short.length < long.length := Nat.not_le.mp less
    have zero := (fetch_eq_iff.mp held.bytes).2 short.length inside
    rw [ended.ends] at zero
    exact held.whole (zero ▸ List.getElem_mem _)
  have length := Nat.le_antisymm (fits second first) (fits first second)
  rw [← first.bytes, length]
  exact second.bytes

theorem holdsString_of_fetch {text tail : List UInt8} (held : mem.fetch addr count = text ++ 0 :: tail)
    (whole : 0 ∉ text) : HoldsString mem addr text := by
  obtain ⟨-, same⟩ := fetch_eq_iff.mp held
  refine ⟨fetch_eq_iff.mpr ⟨rfl, fun i bound => ?_⟩, ?_, whole⟩
  · rw [same i (by simp; omega), List.getElem_append_left bound]
  · rw [same text.length (by simp), List.getElem_append_right (Nat.le_refl _)]
    simp

/-- What is in front of the first zero. -/
def upToZero (bytes : List UInt8) : List UInt8 := bytes.takeWhile (· ≠ 0)

theorem upToZero_append_zero (bytes rest : List UInt8) :
    ∃ tail, bytes ++ 0 :: rest = upToZero bytes ++ 0 :: tail := by
  unfold upToZero
  induction bytes with
  | nil => exact ⟨rest, rfl⟩
  | cons byte bytes ih =>
    obtain ⟨tail, split⟩ := ih
    by_cases zero : byte = 0
    · subst zero
      exact ⟨bytes ++ 0 :: rest, rfl⟩
    · refine ⟨tail, ?_⟩
      rw [List.takeWhile_cons, if_pos (decide_eq_true zero), List.cons_append, split]
      rfl

theorem zero_notMem_upToZero (bytes : List UInt8) : 0 ∉ upToZero bytes := by
  intro member
  have nonzero := List.mem_takeWhile_imp member
  exact of_decide_eq_true nonzero rfl

theorem upToZero_eq_self {bytes : List UInt8} : upToZero bytes = bytes ↔ 0 ∉ bytes := by
  constructor
  · exact fun same => same ▸ zero_notMem_upToZero bytes
  · intro whole
    refine List.takeWhile_eq_self_iff.mpr fun byte member => decide_eq_true ?_
    rintro rfl
    exact whole member

end Memory
end TinyMachine.Lib
