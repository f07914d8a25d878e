import TinyMachine.Layout
import TinyMachine.Lib.Spans

/-! `BootConfig` of `arch/x86_64/boot.rs`, its validation, and the range check
every placement step goes through. -/
namespace TinyMachine
open Lib

/-- The errors boot itself words; those of KVM and of the host are carried
as their messages. -/
inductive BootError where
  | kvm (message : String)
  | io (message : String)
  | elf (message : String)
  | config (message : String)
  | mmap (message : String)
  | memoryOverlap (start stop : Nat)
  deriving DecidableEq, Repr

def BootError.display : BootError → String
  | kvm message => s!"KVM error: {message}"
  | io message => s!"I/O error: {message}"
  | elf message => s!"ELF parsing error: {message}"
  | config message => s!"Invalid boot configuration: {message}"
  | mmap message => s!"mmap failed: {message}"
  | memoryOverlap start stop =>
    s!"Memory region overlaps with page tables or GDT: start=0x{hex start}, end=0x{hex stop}"

/-- `ReservedRegion`: `start` and the exclusive `end`, in either order. -/
abbrev ReservedRegion := Span

structure BootConfig where
  kernelPath : String
  initrdPath : Option String
  memorySize : Nat
  loadAddr : Nat
  pvhBoot : Bool
  cmdline : Option String
  reservedRegions : List ReservedRegion
  vbiosData : Option (List UInt8)
  deriving DecidableEq, Repr

/-- `BootConfig::default` -/
def BootConfig.default : BootConfig where
  kernelPath := ""
  initrdPath := none
  memorySize := defaultMemorySize
  loadAddr := defaultLoadAddr
  pvhBoot := false
  cmdline := none
  reservedRegions := []
  vbiosData := none

/-- `BootConfig::validate`. The warnings about scarce host memory and about
odd VBIOS sizes let the configuration pass. -/
def BootConfig.validate (fileExists : String → Bool) (config : BootConfig) :
    Except BootError Unit := do
  if !fileExists config.kernelPath then
    throw (.config s!"Kernel file not found: {config.kernelPath}")
  if config.memorySize < 1024 * 1024 then
    throw (.config s!"Memory size too small: {config.memorySize} (minimum 1 MB)")
  if config.memorySize > 64 * 1024 * 1024 * 1024 then
    throw (.config s!"Memory size too large: {config.memorySize} (maximum 64 GB)")
  if config.loadAddr % 0x1000 ≠ 0 then
    throw (.config s!"load_addr 0x{hex config.loadAddr} is not page-aligned")
  match config.vbiosData with
  | none => pure ()
  | some data =>
    if vbiosRomAddr + data.length > config.memorySize then
      throw (.config (s!"VBIOS ROM ({data.length} bytes at 0x{hex vbiosRomAddr}) exceeds guest " ++
        s!"memory ({config.memorySize} bytes)"))

/-- What validation says about the sizes, whatever else it checks. -/
theorem BootConfig.validate_bounds {fileExists : String → Bool} {config : BootConfig}
    (valid : config.validate fileExists = .ok ()) :
    0x100000 ≤ config.memorySize ∧ config.memorySize ≤ 0x1000000000 ∧
      config.loadAddr % 0x1000 = 0 := by
  simp only [BootConfig.validate, bind, Except.bind, throw, throwThe, MonadExceptOf.throw, pure,
    Except.pure] at valid
  repeat' split at valid
  all_goals first | contradiction | exact ⟨by omega, by omega, by omega⟩

/-- The GDT and page table areas `overlaps_reserved` guards. -/
def guardedAreas : List Span :=
  [⟨gdtAddr, gdtAddr + 0x100⟩, ⟨pml4Addr, pml4Addr + 0x5000⟩]

/-- `overlaps_reserved` -/
def overlapsReserved (start stop : Nat) : Bool :=
  guardedAreas.any fun area => start < area.stop && area.start < stop

/-- `validate_guest_range` -/
def validateGuestRange (memSize start stop : Nat) : Except BootError Unit := do
  if start ≥ stop then
    throw (.config s!"Invalid range: start=0x{hex start} >= end=0x{hex stop}")
  if stop > memSize then
    throw (.config
      s!"Range [0x{hex start}, 0x{hex stop}) exceeds guest memory size 0x{hex memSize}")
  if overlapsReserved start stop then
    throw (.memoryOverlap start stop)

theorem validateGuestRange_ok_iff {memSize start stop : Nat} {done : Unit} :
    validateGuestRange memSize start stop = .ok done ↔
      start < stop ∧ stop ≤ memSize ∧ overlapsReserved start stop = false := by
  simp only [validateGuestRange, bind, Except.bind, throw, throwThe, MonadExceptOf.throw, pure,
    Except.pure]
  split
  · simp only [reduceCtorEq, false_iff]; omega
  · split
    · simp only [reduceCtorEq, false_iff]; omega
    · split <;> simp_all

end TinyMachine
