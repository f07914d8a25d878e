import TinyMachine.Lib.ClassicBpf
import TinyMachine.Lib.Overflow

/-! The seccomp program builders: `build_bpf` of `seccomp.rs`, and the copy
of it that the host GPU worker and the QEMU child each write out inline in
their `pre_exec` closures. -/
namespace TinyMachine.Seccomp
open TinyMachine.Lib

def bpfLd : UInt16 := 0x00
def bpfJmp : UInt16 := 0x05
def bpfRet : UInt16 := 0x06
def bpfW : UInt16 := 0x00
def bpfAbs : UInt16 := 0x20
def bpfJeq : UInt16 := 0x10
def bpfK : UInt16 := 0x00

/-- `arch::paths::AUDIT_ARCH` on x86_64. -/
def auditArch : UInt32 := 0xc000003e

def seccompDataNrOff : UInt32 := 0
def seccompDataArchOff : UInt32 := 4

def seccompRetKillProcess : UInt32 := 0x80000000
def seccompRetErrno : UInt32 := 0x00050000
def seccompRetAllow : UInt32 := 0x7fff0000
def eacces : UInt32 := 13

abbrev BpfInsn := ClassicBpf.Insn

/-- `struct sock_fprog`: the kernel is told a 16-bit length. -/
structure BpfProg where
  len : UInt16
  filter : List BpfInsn
  deriving DecidableEq, Repr

def ldAbs (offset : UInt32) : BpfInsn := ⟨bpfLd ||| bpfW ||| bpfAbs, 0, 0, offset⟩
def jeq (k : UInt32) (jt jf : UInt8) : BpfInsn := ⟨bpfJmp ||| bpfJeq ||| bpfK, jt, jf, k⟩
def ret (k : UInt32) : BpfInsn := ⟨bpfRet ||| bpfK, 0, 0, k⟩

/-- `sysno as u32` -/
def sysnoWord (sysno : Int64) : UInt32 := sysno.toInt32.toUInt32

/-- The jump distance `(allow_pos - cur_idx - 1) as u8` of check `i`. -/
def jumpToAllow (mode : Overflow) (allowPos : UInt16) (i : Nat) : Option UInt8 := do
  let curIdx ← mode.add16 4 (UInt16.ofNat i)
  let distance ← mode.sub16 allowPos curIdx
  let jt ← mode.sub16 distance 1
  return jt.toUInt8

/-- Step 3 of `build_bpf` from check `i` on: a miss jumps over one
instruction, and over none at the last check. -/
def allowlistChecks (mode : Overflow) (allowPos : UInt16) (numChecks : Nat) :
    List Int64 → Nat → Option (List BpfInsn)
  | [], _ => some []
  | sysno :: rest, i => do
    let jt ← jumpToAllow mode allowPos i
    let jf : UInt8 := if i = numChecks - 1 then 0 else 1
    let tail ← allowlistChecks mode allowPos numChecks rest (i + 1)
    return jeq (sysnoWord sysno) jt jf :: tail

/-- `build_bpf`; `none` is the overflow panic of a checked build. -/
def buildBpf (mode : Overflow) (allowlist : List Int64) : Option (List BpfInsn × BpfProg) := do
  let numChecks := allowlist.length
  let allowPos ← mode.add16 4 (UInt16.ofNat numChecks)
  let checks ← allowlistChecks mode allowPos numChecks allowlist 0
  let insns := [ldAbs seccompDataArchOff, jeq auditArch 1 0, ret seccompRetKillProcess,
    ldAbs seccompDataNrOff] ++ checks ++ [ret seccompRetAllow, ret (seccompRetErrno ||| eacces)]
  return (insns, ⟨UInt16.ofNat insns.length, insns⟩)

/-- The checks of the inline copies: every miss jumps over one instruction. -/
def inlineChecks (mode : Overflow) (allowPos : UInt16) : List Int64 → Nat → Option (List BpfInsn)
  | [], _ => some []
  | sysno :: rest, i => do
    let jt ← jumpToAllow mode allowPos i
    let tail ← inlineChecks mode allowPos rest (i + 1)
    return jeq (sysnoWord sysno) jt 1 :: tail

/-- The inline builder, with the denial in front of the final `ALLOW`. -/
def inlineBpf (mode : Overflow) (allowlist : List Int64) : Option (List BpfInsn) := do
  let total := 3 + 1 + allowlist.length + 2
  let allowPos := UInt16.ofNat (total - 1)
  let checks ← inlineChecks mode allowPos allowlist 0
  return [ldAbs seccompDataArchOff, jeq auditArch 1 0, ret seccompRetKillProcess,
    ldAbs seccompDataNrOff] ++ checks ++ [ret (seccompRetErrno ||| eacces), ret seccompRetAllow]

/-- The system calls of the host GPU worker, `SYS_read` to `SYS_madvise`. -/
def hostGpuAllowlist : List Int64 :=
  [0, 1, 9, 11, 12, 231, 35, 228, 131, 13, 14, 24, 202, 3, 257, 262, 8, 10, 16, 290, 17, 18,
    19, 20, 32, 33, 28]

/-- The system calls of the QEMU child, as the source numbers them. -/
def qemuAllowlist : List Int64 :=
  [0, 1, 3, 5, 8, 9, 10, 11, 12, 17, 18, 19, 20, 21, 25, 28, 32, 33, 59, 63, 72, 89, 133, 157,
    158, 217, 257, 262, 267, 302, 319, 39, 186, 204, 218, 234, 273, 435, 13, 14, 131, 289, 15,
    35, 38, 228, 230, 283, 202, 24, 334, 271, 290, 318, 425, 16, 41, 42, 43, 44, 45, 46, 47, 49,
    50, 54, 55, 288, 137, 317, 231]

/-- The filter built in `host_gpu_fork.rs`. -/
def hostGpuBpf (mode : Overflow) : Option (List BpfInsn) := inlineBpf mode hostGpuAllowlist

/-- The filter built in `qemu_backend.rs`. -/
def qemuBpf (mode : Overflow) : Option (List BpfInsn) := inlineBpf mode qemuAllowlist

/-- The words of `struct seccomp_data` a filter here looks at. -/
structure SeccompData where
  nr : UInt32
  arch : UInt32
  deriving DecidableEq, Repr

def SeccompData.load (data : SeccompData) (offset : UInt32) : Option UInt32 :=
  if offset = seccompDataNrOff then some data.nr
  else if offset = seccompDataArchOff then some data.arch
  else none

/-- What the kernel does with a call under a filter; `none` would be a run
that falls off the program. -/
def filterAction (insns : List BpfInsn) (data : SeccompData) : Option UInt32 :=
  ClassicBpf.run data.load insns 0 0

/-- The call number is one of the listed ones. -/
def Listed (allowlist : List Int64) (nr : UInt32) : Prop :=
  ∃ sysno ∈ allowlist, sysno.toInt = (nr.toNat : Int)

instance : Decidable (Listed allowlist nr) := inferInstanceAs (Decidable (∃ _ ∈ _, _))

/-- What an allowlist stands for. -/
def verdict (allowlist : List Int64) (data : SeccompData) : UInt32 :=
  if data.arch ≠ auditArch then seccompRetKillProcess
  else if Listed allowlist data.nr then seccompRetAllow
  else seccompRetErrno ||| eacces

/-- The program built for the list does to this call what the list says. -/
def Implements (built : Option (List BpfInsn)) (allowlist : List Int64) (data : SeccompData) :
    Prop :=
  built.bind (filterAction · data) = some (verdict allowlist data)

instance : Decidable (Implements built allowlist data) := inferInstanceAs (Decidable (_ = _))

end TinyMachine.Seccomp
