import TinyMachine.IrWalk
import TinyMachine.Lib.Overflow

/-! The symbolic profiler: a visitor that estimates the resources a program
needs from its imports, its calls and its string constants. -/
namespace TinyMachine.Profiler
open Lib Ir

def maxCodeLength : Nat := 1024 * 1024

def baseSandboxRam : UInt64 := 5 * 1024 * 1024
def baseSandboxCpu : UInt64 := 500
def numpyRam : UInt64 := 20 * 1024 * 1024
def torchRam : UInt64 := 1024 * 1024 * 1024
def tinygradRam : UInt64 := 50 * 1024 * 1024
def nodeRam : UInt64 := 30 * 1024 * 1024
def httpLatencyUs : UInt64 := 50000
def fileBufRam : UInt64 := 1024 * 1024
def frameworkRam : UInt64 := 30 * 1024 * 1024
def arrayElementSize : UInt64 := 8

/-- What a piece of code is estimated to use. -/
structure ResourceProfile where
  ramBytes : UInt64
  cpuUs : UInt64
  gpuRequired : Bool
  networkCalls : UInt64
  longRunning : Bool
  deriving DecidableEq, Repr

def ResourceProfile.zero : ResourceProfile := ⟨0, 0, false, 0, false⟩

def ResourceProfile.merge (mode : Overflow) (self other : ResourceProfile) : Option ResourceProfile := do
  let ramBytes ← mode.add64 self.ramBytes other.ramBytes
  let cpuUs ← mode.add64 self.cpuUs other.cpuUs
  let networkCalls ← mode.add64 self.networkCalls other.networkCalls
  return {
    ramBytes, cpuUs, networkCalls
    gpuRequired := self.gpuRequired || other.gpuRequired
    longRunning := self.longRunning || other.longRunning }

/-- What a sandbox uses whatever it runs. -/
def baseline : ResourceProfile := ⟨baseSandboxRam, baseSandboxCpu, false, 0, false⟩

structure ProfilerVisitor where
  profile : ResourceProfile
  arrayDimsSeen : Bool
  deriving DecidableEq, Repr

/-! ## Array dimensions -/

def asInt : IrExpr → Option Int64
  | .constant (.int n) => some n
  | _ => none

/-- A negative dimension counts as zero. -/
def asDim (e : IrExpr) : Option UInt64 := (asInt e).map fun n => .ofNat n.toNatClampNeg

/-- The integer literals in a tuple or list that stands first, or else among the
arguments. -/
def dims : List IrExpr → List UInt64
  | .tuple elts :: _ | .list elts :: _ => elts.filterMap asDim
  | args => args.filterMap asDim

def product (mode : Overflow) (dims : List UInt64) : Option UInt64 := dims.foldlM mode.mul64 1

/-- How many elements an array has, if it shows. -/
def extractArrayDims (mode : Overflow) (args : List IrExpr) : Option (Option UInt64) :=
  if (dims args).isEmpty then some none else (product mode (dims args)).map some

/-! ## The visitor -/

def numpyModules : List String := ["numpy", "scipy", "pandas", "matplotlib"]
def torchModules : List String := ["torch", "torchvision", "torchaudio"]
def tinygradModules : List String := ["tinygrad", "extra"]
def frameworkModules : List String := ["flask", "django", "fastapi", "bottle", "tornado", "aiohttp"]
def nodeModules : List String := ["node", "express"]

def arrayAllocFuncs : List String :=
  ["np.ones", "np.zeros", "np.empty", "np.full", "np.array", "torch.tensor", "torch.zeros", "torch.ones",
    "torch.rand", "torch.empty"]

def httpFuncs : List String := ["requests.get", "requests.post", "requests.put", "requests.delete", "urllib.request"]

def isHttp (chain : String) : Bool := chain ∈ httpFuncs ∨ "urllib.request".toList.isPrefixOf chain.toList

def isUrl (s : String) : Bool := "http://".toList.isPrefixOf s.toList || "https://".toList.isPrefixOf s.toList

def longRunningMethods : List String :=
  ["app.run", "app.listen", "app.start", "Application.run", "Application.listen", "server.serve_forever",
    "serve_forever", "Uvicorn.run", "uvicorn.run", "gunicorn.run", "loop.run_forever", "loop.run_until_complete",
    "asyncio.run"]

namespace ProfilerVisitor

def addRam (mode : Overflow) (bytes : UInt64) (self : ProfilerVisitor) : Option ProfilerVisitor := do
  return { self with profile.ramBytes := ← mode.add64 self.profile.ramBytes bytes }

def addCpu (mode : Overflow) (us : UInt64) (self : ProfilerVisitor) : Option ProfilerVisitor := do
  return { self with profile.cpuUs := ← mode.add64 self.profile.cpuUs us }

def addNetworkCall (mode : Overflow) (self : ProfilerVisitor) : Option ProfilerVisitor := do
  return { self with profile.networkCalls := ← mode.add64 self.profile.networkCalls 1 }

def requireGpu (self : ProfilerVisitor) : Option ProfilerVisitor :=
  some { self with profile.gpuRequired := true }

def setLongRunning (self : ProfilerVisitor) : Option ProfilerVisitor :=
  some { self with profile.longRunning := true }

def seeArrayDims (self : ProfilerVisitor) : Option ProfilerVisitor :=
  some { self with arrayDimsSeen := true }

def handleImport (mode : Overflow) (module : String) (self : ProfilerVisitor) : Option ProfilerVisitor :=
  if module ∈ numpyModules then self.addRam mode numpyRam
  else if module ∈ torchModules then do (← self.addRam mode torchRam).requireGpu
  else if module ∈ tinygradModules then do (← self.addRam mode tinygradRam).requireGpu
  else if module ∈ frameworkModules then do (← self.addRam mode frameworkRam).setLongRunning
  else if module ∈ nodeModules then do (← self.addRam mode nodeRam).setLongRunning
  else some self

def allocate (mode : Overflow) (args : List IrExpr) (self : ProfilerVisitor) : Option ProfilerVisitor := do
  match ← extractArrayDims mode args with
  | some bytes =>
    let self ← self.addRam mode (← mode.mul64 bytes arrayElementSize)
    let self ← self.addCpu mode 10
    self.seeArrayDims
  | none => some self

def arrayAllocation (mode : Overflow) (chain : String) (args : List IrExpr) (self : ProfilerVisitor) :
    Option ProfilerVisitor :=
  if chain ∈ arrayAllocFuncs then self.allocate mode args else some self

def httpCall (mode : Overflow) (chain : String) (self : ProfilerVisitor) : Option ProfilerVisitor :=
  if isHttp chain then do
    (← self.addNetworkCall mode).addCpu mode httpLatencyUs
  else some self

def longRunningCall (chain : String) (self : ProfilerVisitor) : Option ProfilerVisitor :=
  if chain ∈ longRunningMethods then self.setLongRunning else some self

/-- A call of a function that has a dotted name. -/
def chainCall (mode : Overflow) (func : IrExpr) (args : List IrExpr) (self : ProfilerVisitor) :
    Option ProfilerVisitor :=
  match func.resolveAttrChain with
  | some chain => do
    let name := ".".intercalate chain
    let self ← self.arrayAllocation mode name args
    let self ← self.httpCall mode name
    self.longRunningCall name
  | none => some self

def isOpen : IrExpr → Bool
  | .name name => name == "open"
  | _ => false

def isFileMethod : IrExpr → Bool
  | .attribute _ attr => attr == "read" || attr == "write"
  | _ => false

def openCall (mode : Overflow) (func : IrExpr) (self : ProfilerVisitor) : Option ProfilerVisitor :=
  if isOpen func then self.addRam mode fileBufRam else some self

def fileCall (mode : Overflow) (func : IrExpr) (self : ProfilerVisitor) : Option ProfilerVisitor :=
  if isFileMethod func then self.addRam mode fileBufRam else some self

def visitCall (mode : Overflow) (func : IrExpr) (args : List IrExpr) (self : ProfilerVisitor) :
    Option ProfilerVisitor := do
  let self ← self.chainCall mode func args
  let self ← self.openCall mode func
  self.fileCall mode func

def visitStr (mode : Overflow) (s : String) (self : ProfilerVisitor) : Option ProfilerVisitor :=
  if isUrl s then self.addCpu mode 5 else some self

end ProfilerVisitor

/-- The visitor; nothing is visited any more after an overflow that aborts. -/
def profilerVisitor (mode : Overflow) : IrVisitor (Option ProfilerVisitor) where
  visitImport module _ self := self.bind (ProfilerVisitor.handleImport mode module)
  visitImportFrom module _ _ self := self.bind (ProfilerVisitor.handleImport mode module)
  visitCall func args self := self.bind (ProfilerVisitor.visitCall mode func args)
  visitStr s self := self.bind (ProfilerVisitor.visitStr mode s)

/-- What is accumulated on the way through a program. -/
def walkedProfile (mode : Overflow) (program : IrProgram) : Option ResourceProfile :=
  ((profilerVisitor mode).walkProgram program (some ⟨.zero, false⟩)).map ProfilerVisitor.profile

/-- The estimate for a piece of code; the parser gives nothing for code with a
syntax error. -/
def profile (mode : Overflow) (parse : String → Option IrProgram) (code : String) : Option ResourceProfile :=
  if maxCodeLength < code.utf8ByteSize then
    some ⟨baseSandboxRam + 512 * 1024 * 1024, baseSandboxCpu + 50000, false, 0, false⟩
  else
    match parse code with
    | none => some baseline
    | some program => do baseline.merge mode (← walkedProfile mode program)

end TinyMachine.Profiler
