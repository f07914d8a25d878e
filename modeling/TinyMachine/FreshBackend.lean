import Mathlib.Data.List.DropRight
import TinyMachine.Api
import TinyMachine.BootConfig
import TinyMachine.TemplateRegistry
import TinyMachine.Lib.Custody

/-! The backend that boots a VM for itself and may pass a GPU through to it:
what `init`, `exec`, `reset` and `destroy` ask of KVM, of the device, of the
host and of the guest, and which handles they open and close. -/
namespace TinyMachine.FreshBackend
open Lib Lib.Custody Api
open Templates (KernelProfile)

/-! ## Variants -/

structure ResourceLimits where
  networkAllowed : Bool
  gpuRequired : Bool
  deriving DecidableEq, Repr

def ResourceLimits.default : ResourceLimits := ⟨false, false⟩

structure Variant extends Templates.Variant where
  needsInitrd : Bool
  limits : ResourceLimits
  deriving DecidableEq, Repr

def kernelProfileOf : String → Option KernelProfile
  | "base" => some .base
  | "gpu-vk" => some .gpuVk
  | "gpu-vfio" => some .gpuVfio
  | "gpu-nvidia" => some .gpuNvidia
  | _ => none

def Variant.fromApi (apiVariant : Api.Variant) : Option Variant :=
  (kernelProfileOf apiVariant.kernelProfile).map fun kernelProfile =>
    { lang := apiVariant.lang
      name := apiVariant.variant
      kernelProfile := kernelProfile
      kernelVersion := none
      needsInitrd := apiVariant.lang ≠ "wasm"
      limits := { ResourceLimits.default with
        gpuRequired := kernelProfile = .gpuNvidia ∨ kernelProfile = .gpuVfio } }

def bootMemorySizeBytes (name : String) : Nat :=
  match name with
  | "pytorch" | "pytorch-cpu" | "pytorch-nv" => 0xFEC00000
  | "tinygrad-nv" => 3 * 1024 * 1024 * 1024
  | "tinygrad" | "tinygrad-cpu" | "numpy" => 512 * 1024 * 1024
  | _ => 128 * 1024 * 1024

def com1Base : Nat := 0x3F8

def buildKernelCmdline (loglevel : Nat) (profileSuffix : String) : String :=
  let line := s!"console=ttyS0,115200 earlyprintk=serial,0x{hex com1Base},115200 " ++
    s!"lpj=10000000 loglevel={loglevel} rodata=off rdinit=/init " ++
    s!"iomem=relaxed random.trust_cpu=on idle=halt {profileSuffix}"
  String.ofList (line.toList.rdropWhile Char.isWhitespace)

/-- None is the default command line, which turns PCI off. -/
def cmdline (variant : Variant) : Option String :=
  if variant.limits.gpuRequired then
    let line := match variant.kernelProfile with
      | .gpuNvidia => buildKernelCmdline 4 "pci=realloc pcie_port_pm=off"
      | .gpuVk =>
        buildKernelCmdline 3 "pci=noearly acpi_irq_handling=off pci=realloc pcie_port_pm=off"
      | .gpuVfio => buildKernelCmdline 3 "acpi=off pcie_port_pm=off pci=conf1"
      | .base => buildKernelCmdline 3 "pcie_port_pm=off"
    some (if variant.limits.networkAllowed then
      line ++ " ip=10.0.2.2::10.0.2.1:255.255.255.0::eth0:off" else line)
  else none

/-! ## The host -/

inductive Handle where
  | kvm
  /-- The VM and its VCPU, with the memory that is mapped for them. -/
  | vm
  /-- The container, the group and the device. -/
  | vfio
  /-- The copy of the device through which configuration space is proxied. -/
  | configFd
  /-- The copy of the device from which BARs are mapped on first access. -/
  | mmioFd
  | tap
  deriving DecidableEq, Repr

structure RoutingEntry where
  gsi : Nat
  kind : Nat
  addressLo : Nat
  addressHi : Nat
  data : Nat
  deriving DecidableEq, Repr

structure FreshConfig extends BootConfig where
  irqchip : Bool
  kernelVersion : String
  kernelHash : String
  deriving DecidableEq, Repr

inductive Request where
  | installSeccomp
  | bootLinux (config : FreshConfig)
  | initVfio
  | addRootPort
  | addVfioPci (bus devfn configRegionOffset : Nat)
  | addVfioMmio (bars : List (Nat × Nat)) (configRegionOffset nextSlot : Nat)
  | preassignGuestBarAddresses
  | mapGuestBarSlots
  | clearMappedBars
  | runVbiosPost (data : List UInt8)
  | reconfigureLongMode
  | writeCommand (value : Nat)
  | runUntilReady
  | setupIntxIrqfd (gsi : Nat)
  | openTap (name : String)
  | ip (args : List String)
  | addVirtioNet (mmioBase : Nat)
  | captureSnapshot
  | storeSnapshot (variantId : String)
  | runCode (code : String)
  | setGsiRouting (table : List RoutingEntry)
  | disableMsi
  | disableIntx
  | setupMsiIrqfds (gsiBase numVectors : Nat)
  | deassignIrqfd (gsi : Nat)
  | resetDevice
  deriving DecidableEq, Repr

abbrev Effect := Deed Handle Request
abbrev Booting (α : Type) := Custody Handle Request ApiError α

structure KernelInfo where
  path : String
  version : String
  hash : String

structure BarRegionInfo where
  index : Nat
  size : Nat
  canMmap : Bool
  deriving DecidableEq, Repr

structure VfioSession where
  configRegionOffset : Option Nat
  barRegions : List BarRegionInfo
  deriving DecidableEq, Repr

/-- What the device is like that a probe finds, and which of the calls that
attach it succeed. -/
structure GpuMet where
  attaches : Bool
  session : VfioSession
  dupDeviceFd : Bool
  dupMmioFd : Bool
  preassigns : Bool

/-- What an `init` meets. -/
structure InitMet where
  seccomp : Except String Unit
  kvm : Except String Unit
  kernel : Except String KernelInfo
  initrd : Except String String
  /-- The first and the last address of each BAR of the bound GPU. -/
  gpuBars : List (Nat × Nat)
  boot : Except String Unit
  gpu : Option GpuMet
  vbios : Option (List UInt8)
  vbiosPost : Except String Unit
  longMode : Except String Unit
  /-- The command register, if it can be read. -/
  command : Option Nat
  ready : Except String Unit
  tap : Bool
  captured : Bool
  stores : Bool

structure MsiConfig where
  addressLo : Nat
  addressHi : Nat
  data : Nat
  numVectors : Nat
  enabled : Bool
  deriving DecidableEq, Repr

/-- What an `exec` meets, in the guest and at the device. -/
structure ExecMet where
  output : Except String String
  msiVectors : Nat
  routes : Bool
  msiConfig : Option MsiConfig
  refreshes : Bool

/-! ## The backend -/

structure VfioPciInfo where
  bus : Nat
  devfn : Nat
  configRegionOffset : Nat
  deriving DecidableEq, Repr

structure VfioMmioInfo where
  bars : List (Nat × Nat)
  configRegionOffset : Nat
  nextSlot : Nat
  deriving DecidableEq, Repr

structure BootedVm where
  vfioPci : Option VfioPciInfo
  vfioMmioInfo : Option VfioMmioInfo
  pcieRootPort : Bool
  virtioNet : Bool
  deriving DecidableEq, Repr

/-- As `boot_linux` returns it. -/
def BootedVm.bare : BootedVm := ⟨none, none, false, false⟩

structure FreshBootBackend where
  kvm : Bool
  booted : Option BootedVm
  vfio : Option VfioSession
  variant : Option Variant
  initialized : Bool
  msiGsiBase : Nat
  numMsiVectors : Nat
  msiRefreshRetries : Nat
  modulesLoaded : Bool
  captureSnapshot : Bool
  memorySizeOverride : Option Nat
  tap : Bool
  deriving DecidableEq, Repr

def msiRefreshRetriesMax : Nat := 3
def msiGsiBase : Nat := 24
def msiAddressLo : Nat := 0xFEE00000
def msiAddressHi : Nat := 0
def msiDataBase : Nat := 0x40
def vfioIntxGsi : Nat := 18
def virtioMmioAddr : Nat := 0xFEBF0000
def firstLazySlot : Nat := 100

def kvmIrqRoutingIrqchip : Nat := 1
def kvmIrqRoutingMsi : Nat := 2
def kvmIrqchipIoapic : Nat := 2

def buildGsiRoutingTable (gsiBase count addressLo addressHi dataBase : Nat) : List RoutingEntry :=
  ((List.range 24).map fun gsi => ⟨gsi, kvmIrqRoutingIrqchip, kvmIrqchipIoapic, gsi, 0⟩) ++
    (List.range count).map fun i => ⟨gsiBase + i, kvmIrqRoutingMsi, addressLo, addressHi, dataBase + i⟩

/-- The part of every BAR that guest memory would cover. -/
def gpuBarReservedRegions (bars : List (Nat × Nat)) (ramStart ramEnd : Nat) : List ReservedRegion :=
  bars.filterMap fun (first, last) =>
    if first = 0 ∨ ramEnd ≤ first ∨ last < ramStart then none
    else
      let start := max first ramStart
      let stop := min last (ramEnd - 1) + 1
      if start < stop then some ⟨start, stop⟩ else none

/-- What is closed when a session goes out of scope. -/
def dropVfio : Option VfioSession → List Effect
  | some _ => [.asked .resetDevice, .closed .vfio]
  | none => []

/-- What is closed when a VM goes out of scope. The descriptor of the lazy
mapping is a bare number, which closes nothing. -/
def dropVm (booted : BootedVm) : List Effect :=
  .closed .vm :: if booted.vfioPci.isSome then [.closed .configFd] else []

def lazyBars (session : VfioSession) : List (Nat × Nat) :=
  (session.barRegions.filter fun bar => bar.index ≤ 5 && bar.canMmap && 0 < bar.size).map
    fun bar => (bar.index, bar.size)

/-! ## `init` -/

def findInitrdPath (variant : Variant) (found : Except String String) : Except String (Option String) :=
  if variant.needsInitrd then found.map some else .ok none

/-- The root port, the device behind it, and the mapping of its BARs on first
access. -/
def proxyDevice (gpu : GpuMet) : Booting BootedVm := do
  if gpu.dupDeviceFd then
    did [.opened .configFd]
    match gpu.session.configRegionOffset with
    | none =>
      did [.closed .configFd]
      pure .bare
    | some offset =>
      ask .addRootPort
      ask (.addVfioPci 1 0 offset)
      let proxied : BootedVm := ⟨some ⟨1, 0, offset⟩, none, true, false⟩
      if gpu.dupMmioFd then
        did [.opened .mmioFd]
        match lazyBars gpu.session with
        | [] =>
          did [.closed .mmioFd]
          pure proxied
        | bars =>
          ask (.addVfioMmio bars offset firstLazySlot)
          pure { proxied with vfioMmioInfo := some ⟨bars, offset, firstLazySlot⟩ }
      else pure proxied
  else pure .bare

def attachVfio (variant : Variant) (met : InitMet) : Booting (Option VfioSession × BootedVm) :=
  match if variant.limits.gpuRequired then met.gpu else none with
  | none => pure (none, .bare)
  | some gpu => do
    ask .initVfio
    if gpu.attaches then
      did [.opened .vfio]
      let booted ← proxyDevice gpu
      pure (some gpu.session, booted)
    else pure (none, .bare)

def preassignBars (vfio : Option VfioSession) (met : InitMet) : List Effect :=
  match vfio with
  | none => []
  | some _ =>
    .asked .preassignGuestBarAddresses ::
      if (met.gpu.map GpuMet.preassigns).getD false then [.asked .mapGuestBarSlots] else []

/-- Memory space is off while the addresses are written that the option ROM may
have changed. -/
def restoreBars (vfio : Option VfioSession) (met : InitMet) : List Effect :=
  match vfio.bind VfioSession.configRegionOffset with
  | none => []
  | some _ =>
    let off := match met.command with
      | some command => [.asked (.writeCommand (command % 2 ^ 16 &&& (2 ^ 16 - 1 - 2)))]
      | none => []
    off ++ [.asked .preassignGuestBarAddresses, .asked (.writeCommand (met.command.getD 0))]

def postVbios (vfio : Option VfioSession) (met : InitMet) : Booting Unit :=
  match met.vbios with
  | none => pure ()
  | some data => do
    ask (.runVbiosPost data)
    demand (met.vbiosPost.mapError fun e => .sandbox s!"VBIOS POST failed: {e}")
    ask .reconfigureLongMode
    demand (met.longMode.mapError fun e => .sandbox s!"Long mode reconfig failed: {e}")
    did (restoreBars vfio met)

def runGuest (vfio : Option VfioSession) (met : InitMet) : Booting Unit := do
  did (preassignBars vfio met)
  postVbios vfio met
  ask .runUntilReady
  demand (met.ready.mapError fun e => .sandbox s!"Boot run failed: {e}")

def freshConfig (memoryOverride : Option Nat) (variant : Variant) (met : InitMet) (kernel : KernelInfo)
    (initrd : Option String) : FreshConfig :=
  let memorySize := memoryOverride.getD (bootMemorySizeBytes variant.name)
  { kernelPath := kernel.path
    initrdPath := initrd
    memorySize := memorySize
    loadAddr := 0
    pvhBoot := true
    cmdline := cmdline variant
    reservedRegions :=
      if variant.limits.gpuRequired then gpuBarReservedRegions met.gpuBars 0x100000 memorySize else []
    vbiosData := none
    irqchip := true
    kernelVersion := kernel.version
    kernelHash := kernel.hash }

/-- From the kernel to a guest that waits for commands. -/
def bootGuest (memoryOverride : Option Nat) (variant : Variant) (met : InitMet) :
    Booting (Option VfioSession × BootedVm) := do
  let kernel ← demand (met.kernel.mapError .config)
  let initrd ← demand ((findInitrdPath variant met.initrd).mapError .config)
  ask (.bootLinux (freshConfig memoryOverride variant met kernel initrd))
  demand (met.boot.mapError fun e => .sandbox s!"Boot failed: {e}")
  did [.opened .vm]
  let (vfio, booted) ← attachVfio variant met
  (runGuest vfio met).unwinding (dropVfio vfio ++ dropVm booted)
  pure (vfio, booted)

def remapBars : Option VfioSession → List Effect
  | none => []
  | some _ => [.asked .clearMappedBars, .asked .mapGuestBarSlots, .asked (.setupIntxIrqfd vfioIntxGsi)]

/-- The TAP interface, which takes the place of one that is still held, and
whether there is one now. -/
def attachNet (variant : Variant) (met : InitMet) (booted : BootedVm) (held : Bool) :
    Booting (BootedVm × Bool) := do
  if variant.limits.networkAllowed then
    ask (.openTap "tap-tiny")
    if met.tap then
      did [.opened .tap]
      ask (.ip ["addr", "replace", "10.0.2.1/24", "dev", "tap-tiny"])
      ask (.ip ["link", "set", "tap-tiny", "up"])
      ask (.addVirtioNet virtioMmioAddr)
      did (if held then [.closed .tap] else [])
      pure ({ booted with virtioNet := true }, true)
    else pure (booted, held)
  else pure (booted, held)

def keepSnapshot (capture : Bool) (variant : Variant) (met : InitMet) : List Effect :=
  if capture then
    .asked .captureSnapshot ::
      if met.captured && met.stores then [.asked (.storeSnapshot variant.id)] else []
  else []

structure Machine where
  vfio : Option VfioSession
  booted : BootedVm
  tap : Bool

namespace FreshBootBackend

def new : FreshBootBackend where
  kvm := false
  booted := none
  vfio := none
  variant := none
  initialized := false
  msiGsiBase := 0
  numMsiVectors := 0
  msiRefreshRetries := msiRefreshRetriesMax
  modulesLoaded := false
  captureSnapshot := false
  memorySizeOverride := none
  tap := false

def bootVm (backend : FreshBootBackend) (variant : Variant) (met : InitMet) : Booting Machine := do
  ask .installSeccomp
  demand (met.seccomp.mapError fun e =>
    .sandbox s!"seccomp filter installation for FreshBoot backend failed: {e}")
  demand (met.kvm.mapError fun e => .sandbox s!"Failed to open KVM: {e}")
  did [.opened .kvm]
  let (vfio, booted) ← (bootGuest backend.memorySizeOverride variant met).unwinding [.closed .kvm]
  did (remapBars vfio)
  let (booted, tap) ← attachNet variant met booted backend.tap
  did (keepSnapshot backend.captureSnapshot variant met)
  pure ⟨vfio, booted, tap⟩

/-- The routes of the interrupts, the modules and the TAP interface stay. -/
def destroy (backend : FreshBootBackend) : List Effect × FreshBootBackend :=
  if backend.initialized then
    let deassigned := if backend.booted.isSome then
      (List.range backend.numMsiVectors).map fun i => .asked (.deassignIrqfd (backend.msiGsiBase + i)) else []
    let dropped := dropVfio backend.vfio ++ (backend.booted.map dropVm).getD [] ++
      if backend.kvm then [.closed .kvm] else []
    (deassigned ++ dropped,
      { backend with kvm := false, booted := none, vfio := none, variant := none, initialized := false })
  else ([], backend)

def init (backend : FreshBootBackend) (apiVariant : Api.Variant) (met : InitMet) :
    (Except ApiError Unit × List Effect) × FreshBootBackend :=
  let (cleanup, cleared) := backend.destroy
  match Variant.fromApi apiVariant with
  | none =>
    ((.error (.unsupported s!"Unsupported variant: {apiVariant.lang}/{apiVariant.variant}"), cleanup), cleared)
  | some variant =>
    let booting := cleared.bootVm variant met
    match booting.result with
    | .error e => ((.error e, cleanup ++ booting.deeds), cleared)
    | .ok machine => ((.ok (), cleanup ++ booting.deeds),
      { cleared with
        kvm := true
        booted := some machine.booted
        vfio := machine.vfio
        variant := some variant
        initialized := true
        tap := machine.tap })

/-! ## `exec` -/

def setupMsiRouting (backend : FreshBootBackend) (met : ExecMet) : List Effect × FreshBootBackend :=
  if 0 < backend.msiGsiBase ∨ backend.vfio = none ∨ backend.booted = none ∨ met.msiVectors = 0 then ([], backend)
  else
    let table := buildGsiRoutingTable FreshBackend.msiGsiBase met.msiVectors msiAddressLo msiAddressHi msiDataBase
    if met.routes then
      ([.asked (.setGsiRouting table), .asked .disableMsi, .asked .disableIntx,
          .asked (.setupMsiIrqfds FreshBackend.msiGsiBase met.msiVectors)],
        { backend with msiGsiBase := FreshBackend.msiGsiBase, numMsiVectors := met.msiVectors })
    else ([.asked (.setGsiRouting table)], backend)

def refreshMsiRouting (backend : FreshBootBackend) (met : ExecMet) : List Effect × FreshBootBackend :=
  let once := { backend with msiRefreshRetries := backend.msiRefreshRetries - 1 }
  let done := { backend with msiRefreshRetries := 0 }
  if backend.msiRefreshRetries = 0 then ([], backend)
  else if backend.msiGsiBase = 0 ∨ backend.numMsiVectors = 0 then ([], done)
  else if backend.vfio = none then ([], done)
  else if backend.booted = none then ([], backend)
  else
    match met.msiConfig with
    | none => ([], once)
    | some config =>
      if config.enabled then
        let table := buildGsiRoutingTable backend.msiGsiBase config.numVectors config.addressLo
          config.addressHi config.data
        ([.asked (.setGsiRouting table)], if met.refreshes then done else once)
      else ([], once)

def gpuRequired (backend : FreshBootBackend) : Bool :=
  (backend.variant.map fun variant => variant.limits.gpuRequired).getD false

def needsModules (backend : FreshBootBackend) : Bool :=
  !backend.modulesLoaded && backend.gpuRequired && backend.vfio.isNone

/-- What follows the code when a device is attached. -/
def routeMsi (backend : FreshBootBackend) (met : ExecMet) : List Effect × FreshBootBackend :=
  if backend.vfio.isSome then
    let (routing, routed) := backend.setupMsiRouting met
    let (refreshing, refreshed) := if 0 < routed.msiRefreshRetries then routed.refreshMsiRouting met else ([], routed)
    (routing ++ refreshing, refreshed)
  else ([], backend)

def exec (backend : FreshBootBackend) (code : String) (met : ExecMet) :
    (Except ApiError String × List Effect) × FreshBootBackend :=
  if backend.initialized then
    let loaded := { backend with
      modulesLoaded := backend.modulesLoaded || backend.needsModules || backend.vfio.isSome }
    match backend.booted with
    | none =>
      ((.error (.unsupported "VM not available"), []), if backend.needsModules then backend else loaded)
    | some _ =>
      let loading := if backend.needsModules then [.asked (.runCode "!load-modules")] else []
      let (routing, routed) := loaded.routeMsi met
      ((met.output.mapError fun e => .sandbox s!"Code execution failed: {e}",
        loading ++ .asked (.runCode code) :: routing), routed)
  else ((.error (.unsupported "FreshBootBackend not initialized — call init() first"), []), backend)

def reset (backend : FreshBootBackend) : Except ApiError Unit :=
  if backend.initialized then .ok () else .error (.unsupported "FreshBootBackend not initialized")

end FreshBootBackend
end TinyMachine.FreshBackend
