import Mathlib.Data.Nat.Notation

/-! Guest-physical addresses of `arch/x86_64/layout.rs` and the descriptor and
page table constants of `arch/x86_64/cpu.rs`. -/
namespace TinyMachine

def gdtAddr : Nat := 0x60000
def pml4Addr : Nat := 0x70000
def pdpAddr : Nat := 0x71000
def pdAddr : Nat := 0x72000

def bootParamsAddr : Nat := 0x10000
def bootParamsSize : Nat := 4096
def initrdAddrMax : Nat := 0x37FFFFFF

def pvhStartInfoAddr : Nat := 0x2000
def hvmStartMagic : Nat := 0x336ec578
def hvmStartInfoSize : Nat := 32
def pvhModlistAddr : Nat := pvhStartInfoAddr + hvmStartInfoSize
def pvhCmdlineAddr : Nat := 0x2080

def cmdBufPhys : Nat := 0x7E000
def entropyBufPhys : Nat := 0x7D000
def entropySize : Nat := 64
def entropyDivergenceCtrlPhys : Nat := 0x7CFFF
def entropyDivergenceEnabled : UInt8 := 1
def entropyDivergenceDisabled : UInt8 := 0
def outBufPhys : Nat := 0x7F000
def bufMax : Nat := 4096
def readySignalOffset : Nat := 4090

/-- IOAPIC and LAPIC pages, as `(start, size)`. -/
def reservedMmioRegions : List (Nat × Nat) := [(0xFEC00000, 0x1000), (0xFEE00000, 0x1000)]

def e820TableOffset : Nat := 0x2D0
def e820EntrySize : Nat := 20
def e820TypeUsable : Nat := 1
def e820TypeReserved : Nat := 2

def defaultMemorySize : Nat := 64 * 1024 * 1024
def defaultLoadAddr : Nat := 0x100000
def vbiosRomAddr : Nat := 0xC0000
def pageSize2MB : Nat := 2 * 1024 * 1024

def gdtNull : Nat := 0x0000000000000000
def gdtCode : Nat := 0x00AF9B000000FFFF
def gdtData : Nat := 0x008F93000000FFFF

def xsaveSize : Nat := 4096

/-- `{:x}` of a number. -/
def hex (n : Nat) : String := String.ofList (Nat.toDigits 16 n)

/-- `{:02x}` of a byte. -/
def hexByte (byte : UInt8) : String :=
  if byte.toNat < 16 then "0" ++ hex byte.toNat else hex byte.toNat

end TinyMachine
