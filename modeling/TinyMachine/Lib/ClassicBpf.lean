import Mathlib.Data.List.Basic

/-! The classic BPF machine restricted to the instructions a system call
filter is made of: absolute word loads, equality jumps and constant returns.
Jump offsets count from the next instruction, so a program only moves forward
and running it is a recursion on the instructions that remain. -/
namespace TinyMachine.Lib.ClassicBpf

/-- `struct sock_filter`. -/
structure Insn where
  code : UInt16
  jt : UInt8
  jf : UInt8
  k : UInt32
  deriving DecidableEq, Repr

/-- `BPF_LD | BPF_W | BPF_ABS` -/
def ldWAbs : UInt16 := 0x20
/-- `BPF_JMP | BPF_JEQ | BPF_K` -/
def jmpJeqK : UInt16 := 0x15
/-- `BPF_RET | BPF_K` -/
def retK : UInt16 := 0x06

/-- Runs what is left of a program, passing over `skip` instructions first.
`none` is a run that leaves the program, loads outside the data or meets an
instruction of another class. -/
def run (load : UInt32 → Option UInt32) : List Insn → Nat → UInt32 → Option UInt32
  | [], _, _ => none
  | _ :: rest, skip + 1, acc => run load rest skip acc
  | insn :: rest, 0, acc =>
    if insn.code = ldWAbs then
      match load insn.k with
      | some word => run load rest 0 word
      | none => none
    else if insn.code = jmpJeqK then
      run load rest (if acc = insn.k then insn.jt else insn.jf).toNat acc
    else if insn.code = retK then some insn.k
    else none

variable {load : UInt32 → Option UInt32}

@[simp] theorem run_skip (insn : Insn) (rest : List Insn) (skip : Nat) (acc : UInt32) :
    run load (insn :: rest) (skip + 1) acc = run load rest skip acc := rfl

theorem run_drop (program : List Insn) (skip : Nat) (acc : UInt32) :
    run load program skip acc = run load (program.drop skip) 0 acc := by
  induction program generalizing skip with
  | nil => cases skip <;> simp [run]
  | cons insn rest ih =>
    cases skip with
    | zero => rfl
    | succ skip => exact ih skip

@[simp] theorem run_ld {offset word : UInt32} (read : load offset = some word) (jt jf : UInt8)
    (rest : List Insn) (acc : UInt32) :
    run load (⟨ldWAbs, jt, jf, offset⟩ :: rest) 0 acc = run load rest 0 word := by
  simp [run, read]

@[simp] theorem run_jeq (k : UInt32) (jt jf : UInt8) (rest : List Insn) (acc : UInt32) :
    run load (⟨jmpJeqK, jt, jf, k⟩ :: rest) 0 acc =
      run load rest (if acc = k then jt else jf).toNat acc := by
  simp [run, jmpJeqK, ldWAbs]

@[simp] theorem run_ret (k : UInt32) (jt jf : UInt8) (rest : List Insn) (acc : UInt32) :
    run load (⟨retK, jt, jf, k⟩ :: rest) 0 acc = some k := by
  simp [run, jmpJeqK, ldWAbs, retK]

/-- Passing over more instructions than a block has lands beyond the block. -/
theorem run_beyond (block rest : List Insn) (extra : Nat) (acc : UInt32) :
    run load (block ++ rest) (block.length + extra) acc = run load rest extra acc := by
  rw [run_drop, run_drop rest, List.drop_append, List.drop_eq_nil_of_le (by omega)]
  simp

/-- Every jump of the block stays inside it or lands on its end. -/
def Contained : List Insn → Prop
  | [] => True
  | insn :: rest => insn.code = jmpJeqK ∧ insn.jt.toNat ≤ rest.length ∧
      insn.jf.toNat ≤ rest.length ∧ Contained rest

/-- A block of comparisons whose jumps never overshoot always reaches the
instruction behind it, whatever the comparisons decide. -/
theorem run_contained (block rest : List Insn) (contained : Contained block)
    (skip : Nat) (within : skip ≤ block.length) (acc : UInt32) :
    run load (block ++ rest) skip acc = run load rest 0 acc := by
  induction block generalizing skip with
  | nil =>
    obtain rfl : skip = 0 := by simpa using within
    rfl
  | cons insn block ih =>
    obtain ⟨code, jtBound, jfBound, tail⟩ := contained
    cases skip with
    | succ skip => exact ih tail skip (by simpa using within)
    | zero =>
      obtain ⟨_, jt, jf, k⟩ := insn
      subst code
      rw [List.cons_append, run_jeq]
      apply ih tail
      split <;> assumption

end TinyMachine.Lib.ClassicBpf
