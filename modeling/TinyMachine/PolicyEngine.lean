import Mathlib.Data.Finset.Insert
import TinyMachine.Cmdline
import TinyMachine.Lib.Cidr
import TinyMachine.Lib.Overflow
import TinyMachine.Uops

/-! The policy engine: which operations are allowed at all, and with which
domains, paths and addresses. -/
namespace TinyMachine.Uops
open Lib

inductive UOpType where
  | mmap
  | cpuStateRestore
  | entropyReseed
  | dnsResolve
  | tcpConnect
  | tlsHandshake
  | fileRead
  | fileWrite
  | processExec
  | gpuAlloc
  deriving DecidableEq, Repr

def UOp.uopType : UOp → UOpType
  | .mmap _ => .mmap
  | .cpuStateRestore => .cpuStateRestore
  | .entropyReseed => .entropyReseed
  | .dnsResolve _ => .dnsResolve
  | .tcpConnect _ => .tcpConnect
  | .tlsHandshake _ => .tlsHandshake
  | .fileRead _ => .fileRead
  | .fileWrite _ => .fileWrite
  | .processExec _ => .processExec
  | .gpuAlloc _ => .gpuAlloc

structure IpSubnet where
  addr : UInt32
  mask : UInt32
  isV4 : Bool
  deriving DecidableEq, Repr

/-- `IpSubnet::new_v4`. A shift by all 32 bits overflows, or is one by none. -/
def IpSubnet.newV4 (mode : Overflow) (addr : UInt32) (prefixLen : UInt8) : Option IpSubnet := do
  let mask ←
    if 32 ≤ prefixLen then some (~~~0)
    else mode.fit (32 - prefixLen < 32) ((~~~(0 : UInt32)) <<< UInt32.ofNat (32 - prefixLen.toNat))
  return ⟨addr &&& mask, mask, true⟩

def IpSubnet.contains (subnet : IpSubnet) : IpAddr → Bool
  | .v4 addr => subnet.isV4 && decide (addr &&& subnet.mask = subnet.addr)
  | .v6 _ => !subnet.isV4

structure PolicyEngine where
  allowedUops : Finset UOpType
  allowedDomains : List String
  allowedPaths : List String
  allowedSubnets : List IpSubnet
  deriving DecidableEq

namespace PolicyEngine

def new : PolicyEngine := ⟨∅, [], [], []⟩

/-- An address, a slash and a number of eight bits. -/
def parseCidr (cidr : String) : Option (UInt32 × UInt8) := do
  let (addrStr, prefixStr) ← Text.splitOnce '/' cidr.toList
  let prefixLen ← (Cmdline.parseUnsigned 256 prefixStr).toOption
  let addr ← Ipv4.parse addrStr
  return (addr, .ofNat prefixLen)

def allowSubnet (mode : Overflow) (engine : PolicyEngine) (cidr : String) : Option PolicyEngine :=
  match parseCidr cidr with
  | none => some engine
  | some (addr, prefixLen) => (IpSubnet.newV4 mode addr prefixLen).map fun subnet =>
    { engine with allowedSubnets := engine.allowedSubnets ++ [subnet] }

def allowUop (engine : PolicyEngine) (uop : UOpType) : PolicyEngine :=
  { engine with allowedUops := insert uop engine.allowedUops }

def allowDomain (engine : PolicyEngine) (domain : String) : PolicyEngine :=
  { engine with allowedDomains := engine.allowedDomains ++ [domain] }

def allowPath (engine : PolicyEngine) (path : String) : PolicyEngine :=
  { engine with allowedPaths := engine.allowedPaths ++ [path] }

/-- The components of a path: its root or a leading dot, and its names. -/
def components (path : String) : List (List Char) :=
  let parts := path.toList.splitOn '/'
  (if path.toList.head? = some '/' then [['/']] else if parts.head? = some ['.'] then [['.']] else [])
    ++ parts.filter fun part => part ≠ [] ∧ part ≠ ['.']

def isBlockedV4 (addr : UInt32) : Bool :=
  let first := Ipv4.octet addr 3
  let second := Ipv4.octet addr 2
  let isLoopback := decide (first = 127)
  let isPrivate := decide (first = 10 ∨ (first = 172 ∧ 16 ≤ second ∧ second ≤ 31) ∨ (first = 192 ∧ second = 168))
  let isLinkLocal := decide (first = 169 ∧ second = 254)
  let isUnspecified := decide (addr = 0)
  let isMulticast := decide (224 ≤ first ∧ first ≤ 239)
  isLoopback || isPrivate || isLinkLocal || isUnspecified || isMulticast
    || decide (addr = Ipv4.ofOctets 169 254 169 254)
    || decide (first = 100 ∧ second &&& 0xC0 = 0x40)

def isBlockedV6 (addr : BitVec 128) : Bool :=
  let isLoopback := decide (addr = 1)
  let isUnspecified := decide (addr = 0)
  let isMulticast := decide (addr.extractLsb' 112 16 &&& 0xFF00 = 0xFF00)
  isLoopback || isUnspecified || isMulticast

def isUnspecified : IpAddr → Bool
  | .v4 addr => decide (addr = 0)
  | .v6 addr => decide (addr = 0)

/-- The rules for addresses. -/
def checkTcp (engine : PolicyEngine) (addr : SocketAddr) : Bool :=
  if isUnspecified addr.ip ∧ addr.port = 0 then true
  else
    let isBlocked := match addr.ip with
      | .v4 ip => isBlockedV4 ip
      | .v6 ip => isBlockedV6 ip
    if isBlocked then engine.allowedSubnets.any (·.contains addr.ip)
    else if engine.allowedSubnets = [] then true
    else engine.allowedSubnets.any (·.contains addr.ip)

def check (engine : PolicyEngine) (uop : UOp) : Bool :=
  if uop.uopType ∉ engine.allowedUops then false
  else match uop with
    | .dnsResolve domain | .tlsHandshake domain =>
      domain = "any" ∨ engine.allowedDomains.any fun d =>
        domain = d ∨ ('.' :: d.toList).isSuffixOf domain.toList
    | .fileRead path | .fileWrite path =>
      engine.allowedPaths.any fun p => (components p).isPrefixOf (components path)
    | .tcpConnect addr => engine.checkTcp addr
    | _ => true

end PolicyEngine
end TinyMachine.Uops
