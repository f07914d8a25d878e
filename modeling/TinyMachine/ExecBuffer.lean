import Mathlib.Data.List.Infix
import Mathlib.Logic.Function.Iterate
import TinyMachine.Lib.ByteLog
import TinyMachine.Vm

/-! The guest's side of the command cycle, the polling loop of `init.c`, and
the two `run_until_ready` loops of the host that wait for it. The guest makes
its stores one byte at a time and the host may look between any two of them. -/
namespace TinyMachine
open Lib

/-- A program started by `execl` or `fexecve`. -/
structure Spawn where
  path : List UInt8
  argv : List (List UInt8)
  deriving DecidableEq, Repr

/-- What init finds in its image and what the programs it starts do: `child`
is the output of the last program of a history until its pipe closes, `none`
where the pipe, the fork or the allocation fails; `moduleReport` is what a
special command has to say about the modules it loads. -/
structure Userland where
  hasCmdJson : Bool
  cmdExecPath : List UInt8
  cmdInterpreter : List UInt8
  cmdArgs : Option (List UInt8)
  child : List Spawn → Option (List UInt8)
  moduleReport : List UInt8 → List Spawn → List UInt8

def outBufMax : Nat := 65536

/-- `run_python`, whose `python` argument is not used. -/
def runPython (code : List UInt8) : Spawn :=
  ⟨codeBytes "/bin/python3", [codeBytes "python3", codeBytes "-c", code]⟩

/-- `run_general`; an empty path or interpreter stands for `NULL`. -/
def runGeneral (code interpreter : List UInt8) (arg : Option (List UInt8))
    (execPath : List UInt8) : Spawn :=
  if execPath ≠ [] then
    ⟨execPath, [execPath]⟩
  else if interpreter ≠ [] then
    if codeBytes "python" <:+: interpreter then runPython code
    else match arg with
      | some arg => ⟨interpreter, [interpreter, arg, code]⟩
      | none => ⟨interpreter, [interpreter, code]⟩
  else
    runPython code

/-- The executor init chooses; `detect_python` never fails to name one. -/
def Userland.program (os : Userland) (cmd : List UInt8) : Spawn :=
  if os.hasCmdJson ∧ os.cmdExecPath ≠ [] then
    runGeneral cmd [] none os.cmdExecPath
  else if os.hasCmdJson ∧ os.cmdInterpreter ≠ [] then
    runGeneral cmd os.cmdInterpreter os.cmdArgs []
  else
    runPython cmd

/-- The C string a `run_*` function returns for the last program of a history. -/
def Userland.result (os : Userland) (history : List Spawn) : Option (List UInt8) :=
  (os.child history).map fun output => (output.take (outBufMax - 1)).takeWhile (· ≠ 0)

def specialCommands : List (List UInt8) :=
  [codeBytes "!load-modules", codeBytes "!load-nouveau"]

def emptyOutput : String := "WARNING: exec returned empty output"
def nullResult : String := "ERROR: run_general/run_python returned NULL"

/-- The strings init copies to the output buffer for a result, one over the
other. -/
def resultTexts : Option (List UInt8) → List (List UInt8)
  | some result =>
    let out := (trimLineEnds result).take (bufMax - 1)
    if out = [] then [out, codeBytes emptyOutput] else [out]
  | none => [codeBytes nullResult]

def readyAddr : Nat := outBufPhys + readySignalOffset
def readySignal : List UInt8 := codeBytes "READY"

/-- Clearing the command buffer and READY, before a command is executed. -/
def clearLog : List ByteWrite :=
  blockLog cmdBufPhys (List.replicate bufMax 0) ++ blockLog readyAddr (List.replicate 6 0)

/-- The skip count init leaves in the output buffer's tail. -/
def entropyLog (memory : Memory) : List ByteWrite :=
  if memory entropyDivergenceCtrlPhys ≠ 0 then
    let skip := memory.readLE entropyBufPhys 2 % 4096 + 64
    blockLog (outBufPhys + (bufMax - 8)) [UInt8.ofNat skip, UInt8.ofNat (skip / 256)]
  else []

/-- The strings a command leaves in the output buffer, and the programs it
starts. -/
def Userland.respond (os : Userland) (history : List Spawn) (cmd : List UInt8) :
    List (List UInt8) × List Spawn :=
  if cmd ∈ specialCommands then
    ([(os.moduleReport cmd history).take (bufMax - 1)], [])
  else
    (resultTexts (os.result (history ++ [os.program cmd])), [os.program cmd])

def textLog (texts : List (List UInt8)) : List ByteWrite :=
  texts.flatMap fun text => blockLog outBufPhys (text ++ [0])

/-- The stores made before READY is signalled. -/
def answerLog (memory : Memory) (texts : List (List UInt8)) : List ByteWrite :=
  clearLog ++ entropyLog memory ++ textLog texts

def readyLog : List ByteWrite := blockLog readyAddr (readySignal ++ [0])

/-- Where init stands: the stores of the command in progress that it has yet
to make, and the programs it has started. -/
structure InitState where
  pending : List ByteWrite
  spawned : List Spawn

/-- One store of init, or one look at the command buffer. The scan of the
buffer stops at its first byte until a command is there, and the host puts
one there only while the guest is stopped, so it is one step. -/
def initStep (os : Userland) (vm : VmState InitState) : VmState InitState :=
  match vm.vcpu.pending with
  | write :: rest =>
    { vm with memory := vm.memory.store write.1 [write.2], vcpu.pending := rest }
  | [] =>
    let cmd := vm.memory.cString cmdBufPhys (bufMax - 1)
    if cmd = [] then vm
    else
      let (texts, programs) := os.respond vm.vcpu.spawned cmd
      { vm with vcpu := ⟨answerLog vm.memory texts ++ readyLog, vm.vcpu.spawned ++ programs⟩ }

/-- Why `KVM_RUN` came back. `poll` stands for every exit after which the
host looks for READY: a signal, a HLT, port I/O. -/
inductive ExitReason where
  | poll
  | mmio (physAddr : Nat)
  | shutdown
  | failEntry
  | unexpected (reason : Nat)
  | kvm (message : String)
  deriving DecidableEq, Repr

/-- The steps the guest makes before an exit, and the exit. -/
structure VmExit where
  steps : Nat
  reason : ExitReason
  deriving DecidableEq, Repr

/-- `ForkedVm::check_ready` -/
def ForkedVm.checkReady (vm : VmState κ) : Bool :=
  readyAddr + 5 ≤ vm.memorySize ∧ vm.memory.fetch readyAddr 5 = readySignal

/-- `ForkedVm::run_until_ready`; it gives up once no exit is left to come. A
guest that shuts down counts as completed. -/
def ForkedVm.runUntilReady (os : Userland) : List VmExit → Guest InitState
  | [], vm => (.error (.guestExit 0xDEAD), vm)
  | exit :: exits, vm =>
    let vm := (initStep os)^[exit.steps] vm
    match exit.reason with
    | .poll => if ForkedVm.checkReady vm then (.ok (), vm) else runUntilReady os exits vm
    | .mmio _ => runUntilReady os exits vm
    | .shutdown => (.ok (), vm)
    | .failEntry => (.error (.guestExit 9), vm)
    | .unexpected reason => (.error (.guestExit reason), vm)
    | .kvm message => (.error (.kvm message), vm)

/-- The two cases of `BootError` a run can end with. -/
inductive BootRunError where
  | kvm (message : String)
  | guestExit (message : String)
  deriving DecidableEq, Repr

def BootRunError.display : BootRunError → String
  | kvm message => s!"KVM error: {message}"
  | guestExit message => s!"Guest execution error: {message}"

/-- The macro `check_ready!` of `BootedVm::run_until_ready`. -/
def BootedVm.checkReady (vm : VmState κ) : Bool :=
  (vm.memory.fetch (0x7F000 + 4090) 6).take 5 = readySignal

/-- `BootedVm::run_until_ready`; it gives up once no exit is left to come. -/
def BootedVm.runUntilReady (os : Userland) :
    List VmExit → VmState InitState → Except BootRunError Unit × VmState InitState
  | [], vm => (.error (.guestExit "hard timeout waiting for READY"), vm)
  | exit :: exits, vm =>
    let vm := (initStep os)^[exit.steps] vm
    match exit.reason with
    | .poll => if BootedVm.checkReady vm then (.ok (), vm) else runUntilReady os exits vm
    | .mmio physAddr =>
      (.error (.guestExit s!"MMIO to unmapped address: reason=6 phys_addr=0x{hex physAddr}"), vm)
    | .shutdown => (.error (.guestExit "shutdown during template boot"), vm)
    | .failEntry => (.error (.guestExit "fail entry during template boot"), vm)
    | .unexpected reason => (.error (.guestExit s!"unexpected exit reason: {reason}"), vm)
    | .kvm message => (.error (.kvm message), vm)

/-- `BootedVm::run_code` -/
def BootedVm.runCode (os : Userland) (vm : VmState InitState) (entropy : Entropy)
    (exits : List VmExit) (code : String) : Except String String × VmState InitState :=
  match prepareVmForExecution vm.memory vm.memorySize vm.entropyDivergence entropy code with
  | .error message => (.error message, vm)
  | .ok memory =>
    match BootedVm.runUntilReady os exits { vm with memory := memory } with
    | (.error e, after) => (.error s!"VM run failed: {e.display}", after)
    | (.ok (), after) => (.ok (readVmOutput after.memory), after)

/-- `ForkedVm::run_code` over this guest. -/
def ForkedVm.runCode (os : Userland) (vm : VmState InitState) (entropy : Entropy)
    (exits : List VmExit) (code : String) : Except String String × VmState InitState :=
  vm.runCode entropy (ForkedVm.runUntilReady os exits) code

end TinyMachine
