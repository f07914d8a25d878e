import TinyMachine.Layout
import TinyMachine.Lib.ByteMemory

/-! A forked VM and its command cycle: `prepare_vm_for_execution`,
`read_vm_output` and `ForkedVm::run_code`. What the guest does between the
two is a parameter, since no host code decides it. -/
namespace TinyMachine
open Lib

/-- `fork::ForkError`; foreign errors are carried as their messages. -/
inductive ForkError where
  | kvm (message : String)
  | snapshot (message : String)
  | serial (message : String)
  | forkLimit (max : Nat)
  | guestExit (reason : Nat)
  | sharedMem (message : String)
  deriving DecidableEq, Repr

def ForkError.display : ForkError → String
  | kvm message => s!"KVM error: {message}"
  | snapshot message => s!"Snapshot error: {message}"
  | serial message => s!"Serial error: {message}"
  | forkLimit max => s!"Fork limit reached: max {max} forks"
  | guestExit reason => s!"Guest execution error: exit reason {reason}"
  | sharedMem message => s!"Shared memory error: {message}"

/-- The part of a VM that code can change: its memory and its vCPU. -/
structure VmState (κ : Type u) where
  memory : Memory
  memorySize : Nat
  vcpu : κ
  entropyDivergence : Bool

/-- What the guest did from the moment it was resumed until
`run_until_ready` returned, and how that call returned. -/
abbrev Guest (κ : Type u) := VmState κ → Except ForkError Unit × VmState κ

/-- The 64 bytes of `fill_entropy`. -/
abbrev Entropy := Fin entropySize → UInt8

/-- The bounds checks of `prepare_vm_for_execution`, in order. -/
def checkExecutionBuffers (memorySize : Nat) : Except String Unit := do
  let entropyEnd := entropyBufPhys + entropySize
  if entropyEnd > memorySize then
    throw s!"ENTROPY_BUF_PHYS(0x{hex entropyBufPhys}) + ENTROPY_SIZE({entropySize}) = 0x{hex entropyEnd} exceeds memory_size=0x{hex memorySize}"
  if entropyDivergenceCtrlPhys ≥ memorySize then
    throw s!"ENTROPY_DIVERGENCE_CTRL_PHYS(0x{hex entropyDivergenceCtrlPhys}) >= memory_size=0x{hex memorySize}"
  let cmdEnd := cmdBufPhys + bufMax
  if cmdEnd > memorySize then
    throw s!"CMD_BUF_PHYS(0x{hex cmdBufPhys}) + BUF_MAX({bufMax}) = 0x{hex cmdEnd} exceeds memory_size=0x{hex memorySize}"
  let outEnd := outBufPhys + bufMax
  if outEnd > memorySize then
    throw s!"OUT_BUF_PHYS(0x{hex outBufPhys}) + BUF_MAX({bufMax}) = 0x{hex outEnd} exceeds memory_size=0x{hex memorySize}"

def codeBytes (code : String) : List UInt8 := code.toUTF8.data.toList

/-- `write_entropy_ctrl` -/
def writeEntropyCtrl (memory : Memory) (entropyDivergence : Bool) (entropy : Entropy) : Memory :=
  (memory.store entropyBufPhys (List.ofFn entropy)).store entropyDivergenceCtrlPhys
    [if entropyDivergence then entropyDivergenceEnabled else entropyDivergenceDisabled]

/-- Steps 5 to 7 of `prepare_vm_for_execution`: entropy and control byte,
cleared READY and output buffer, then the command, cut to the buffer and
terminated by a NUL. -/
def injectCommand (memory : Memory) (entropyDivergence : Bool) (entropy : Entropy)
    (code : String) : Memory :=
  let command := (codeBytes code).take (bufMax - 1)
  let memory := writeEntropyCtrl memory entropyDivergence entropy
  let memory := memory.fill (outBufPhys + readySignalOffset) 6 0
  let memory := memory.fill outBufPhys bufMax 0
  (memory.store cmdBufPhys command).store (cmdBufPhys + command.length) [0]

def prepareVmForExecution (memory : Memory) (memorySize : Nat) (entropyDivergence : Bool)
    (entropy : Entropy) (code : String) : Except String Memory := do
  checkExecutionBuffers memorySize
  return injectCommand memory entropyDivergence entropy code

/-- Drops trailing newlines and carriage returns. -/
def trimLineEnds (out : List UInt8) : List UInt8 :=
  (out.reverse.dropWhile fun byte => byte = 10 ∨ byte = 13).reverse

/-- `read_vm_output` -/
def readVmOutput (memory : Memory) : String :=
  let out := (memory.fetch outBufPhys bufMax).takeWhile (· ≠ 0)
  (String.fromUTF8? ⟨(trimLineEnds out).toArray⟩).getD "(output contains invalid UTF-8)"

/-- The suffix `run_code` builds from the guest's entropy tail. -/
def entropySuffix (memory : Memory) : String :=
  let tail := memory.fetch (outBufPhys + (bufMax - 8)) 4
  "ENTROPY:" ++ String.join (tail.map hexByte)

/-- `ForkedVm::run_code` -/
def VmState.runCode (vm : VmState κ) (entropy : Entropy) (guest : Guest κ) (code : String) :
    Except String String × VmState κ :=
  match prepareVmForExecution vm.memory vm.memorySize vm.entropyDivergence entropy code with
  | .error message => (.error message, vm)
  | .ok memory =>
    match guest { vm with memory := memory } with
    | (.error e, after) => (.error s!"VM run failed: {e.display}", after)
    | (.ok (), after) => (.ok (readVmOutput after.memory ++ entropySuffix after.memory), after)

end TinyMachine
