import TinyMachine.FreshBackend
import TinyMachine.Lib.Transducer

/-! What a destroyed backend remembers of the VM it booted, and when it can no
longer be told from a new one. -/
namespace TinyMachine.FreshBackend
open Lib Lib.Custody Api

/-! ## The handles of an `init` -/

theorem fromApi_network {apiVariant : Api.Variant} {variant : Variant}
    (known : Variant.fromApi apiVariant = some variant) : variant.limits.networkAllowed = false := by
  obtain ⟨profile, -, rfl⟩ := Option.map_eq_some_iff.mp known
  rfl

/-- The descriptor for the lazy mapping is opened and not closed again. -/
def keepsMmioFd (gpu : GpuMet) : Bool :=
  gpu.attaches && gpu.dupDeviceFd && gpu.session.configRegionOffset.isSome && gpu.dupMmioFd &&
    !(lazyBars gpu.session).isEmpty

def bootsLinux (variant : Variant) (met : InitMet) : Bool :=
  met.kernel.isOk && (findInitrdPath variant met.initrd).isOk && met.boot.isOk

/-- Nothing fails before a device is looked for. -/
def reachesGpu (variant : Variant) (met : InitMet) : Bool :=
  met.seccomp.isOk && met.kvm.isOk && bootsLinux variant met

def leavesMmioFd (apiVariant : Api.Variant) (met : InitMet) : Bool :=
  match Variant.fromApi apiVariant with
  | none => false
  | some variant =>
    variant.limits.gpuRequired && reachesGpu variant met && (met.gpu.map keepsMmioFd).getD false

/-- One reference, or none. -/
def once (present : Bool) : Int := if present then 1 else 0

def heldBy (vfio : Option VfioSession) (booted : BootedVm) : Handle → Int
  | .vm => 1
  | .vfio => once vfio.isSome
  | .configFd => once booted.vfioPci.isSome
  | _ => 0

def stray (kept : Bool) : Handle → Int
  | .mmioFd => once kept
  | _ => 0

@[simp] theorem stray_false (handle : Handle) : stray false handle = 0 := by
  cases handle <;> rfl

def alone (opened handle : Handle) : Int := if opened = handle then 1 else 0

@[simp] theorem isOk_ok {ε α : Type} (a : α) : (Except.ok a : Except ε α).isOk = true := rfl
@[simp] theorem isOk_error {ε α : Type} (e : ε) : (Except.error e : Except ε α).isOk = false := rfl

theorem balance_drop (vfio : Option VfioSession) (booted : BootedVm) (handle : Handle) :
    balance handle (dropVfio vfio ++ dropVm booted) = -heldBy vfio booted handle := by
  obtain ⟨pci, mmio, port, net⟩ := booted
  cases vfio <;> cases pci <;> cases handle <;> rfl

theorem proxyDevice_spec (gpu : GpuMet) (attaches : gpu.attaches = true) :
    ∃ booted, (proxyDevice gpu).result = .ok booted ∧ ∀ handle, balance handle (proxyDevice gpu).deeds =
      (if handle = .configFd then once booted.vfioPci.isSome else 0) + stray (keepsMmioFd gpu) handle := by
  unfold proxyDevice keepsMmioFd
  by_cases dup : gpu.dupDeviceFd = true
  · cases place : gpu.session.configRegionOffset with
    | none =>
      refine ⟨.bare, by simp [dup, bind_result, Except.bind], fun handle => ?_⟩
      cases handle <;> simp [dup, balance_bind, BootedVm.bare, once, stray]
    | some offset =>
      by_cases lazy : gpu.dupMmioFd = true
      · cases bars : lazyBars gpu.session with
        | nil =>
          refine ⟨_, by simp [dup, lazy, bind_result, Except.bind]; rfl, fun handle => ?_⟩
          cases handle <;> simp [dup, lazy, balance_bind, once, stray]
        | cons bar rest =>
          refine ⟨_, by simp [dup, lazy, bind_result, Except.bind]; rfl, fun handle => ?_⟩
          cases handle <;> simp [dup, lazy, attaches, balance_bind, once, stray]
      · refine ⟨_, by simp [dup, lazy, bind_result, Except.bind]; rfl, fun handle => ?_⟩
        cases handle <;> simp [dup, lazy, balance_bind, once, stray]
  · refine ⟨.bare, by simp [dup], fun handle => ?_⟩
    cases handle <;> simp [dup, BootedVm.bare, once, stray]

/-- A device is attached only for a variant that requires a GPU. -/
theorem attachVfio_spec (variant : Variant) (met : InitMet) :
    ∃ vfio booted, (attachVfio variant met).result = .ok (vfio, booted) ∧
      (vfio.isSome = true → variant.limits.gpuRequired = true) ∧
      ∀ handle, alone .vm handle + balance handle (attachVfio variant met).deeds = heldBy vfio booted handle +
        stray (variant.limits.gpuRequired && (met.gpu.map keepsMmioFd).getD false) handle := by
  unfold attachVfio
  by_cases required : variant.limits.gpuRequired = true
  · cases found : met.gpu with
    | none =>
      refine ⟨none, .bare, by simp [required], by simp, fun handle => ?_⟩
      cases handle <;> simp [required, alone, heldBy, BootedVm.bare, once, stray]
    | some gpu =>
      by_cases attaches : gpu.attaches = true
      · obtain ⟨booted, proxied, left⟩ := proxyDevice_spec gpu attaches
        refine ⟨some gpu.session, booted, by simp [required, attaches, bind_result, proxied, Except.bind],
          fun _ => required, fun handle => ?_⟩
        have changed := left handle
        cases handle <;> simp [required, attaches, balance_bind, proxied, changed, alone, heldBy, once, stray]
      · refine ⟨none, .bare, by simp [required, attaches, bind_result, Except.bind], by simp, fun handle => ?_⟩
        cases handle <;>
          simp [required, attaches, keepsMmioFd, balance_bind, alone, heldBy, BootedVm.bare, once, stray]
  · refine ⟨none, .bare, by simp [required], by simp, fun handle => ?_⟩
    cases handle <;> simp [required, alone, heldBy, BootedVm.bare, once, stray]

theorem balance_preassignBars (vfio : Option VfioSession) (met : InitMet) (handle : Handle) :
    balance handle (preassignBars vfio met) = 0 := by
  unfold preassignBars
  split
  · rfl
  · split <;> simp

theorem balance_restoreBars (vfio : Option VfioSession) (met : InitMet) (handle : Handle) :
    balance handle (restoreBars vfio met) = 0 := by
  unfold restoreBars
  split
  · rfl
  · cases met.command <;> simp

theorem balance_postVbios (vfio : Option VfioSession) (met : InitMet) (handle : Handle) :
    balance handle (postVbios vfio met).deeds = 0 := by
  unfold postVbios
  cases met.vbios with
  | none => rfl
  | some data =>
    rcases posted : met.vbiosPost with e | ⟨⟨⟩⟩ <;> rcases restored : met.longMode with e' | ⟨⟨⟩⟩ <;>
      simp [balance_bind, Except.mapError, balance_restoreBars]

/-- The guest is run on handles that are open already. -/
theorem balance_runGuest (vfio : Option VfioSession) (met : InitMet) (handle : Handle) :
    balance handle (runGuest vfio met).deeds = 0 := by
  unfold runGuest
  rcases posted : (postVbios vfio met).result with e | ⟨⟨⟩⟩ <;>
    simp [balance_bind, posted, balance_preassignBars, balance_postVbios]

theorem bootGuest_spec (memoryOverride : Option Nat) (variant : Variant) (met : InitMet) (handle : Handle) :
    balance handle (bootGuest memoryOverride variant met).deeds =
      (match (bootGuest memoryOverride variant met).result with
        | .ok (vfio, booted) => heldBy vfio booted handle
        | .error _ => 0) +
      stray (variant.limits.gpuRequired && bootsLinux variant met && (met.gpu.map keepsMmioFd).getD false)
        handle := by
  unfold bootGuest bootsLinux
  rcases kernel : met.kernel with e | info
  · simp [balance_bind, bind_result, Except.mapError, Except.bind]
  rcases initrd : findInitrdPath variant met.initrd with e | path
  · simp [balance_bind, bind_result, Except.mapError, Except.bind]
  rcases booting : met.boot with e | ⟨⟨⟩⟩
  · simp [balance_bind, bind_result, Except.mapError, Except.bind]
  obtain ⟨vfio, booted, attached, -, left⟩ := attachVfio_spec variant met
  have changed := left handle
  have dropped := balance_drop vfio booted handle
  rcases ran : (runGuest vfio met).result with e | ⟨⟨⟩⟩
  · simp [balance_bind, bind_result, balance_unwinding, Except.mapError, Except.bind,
      attached, ran, balance_runGuest, alone] at changed dropped ⊢
    omega
  · simp [balance_bind, bind_result, balance_unwinding, Except.mapError, Except.bind,
      attached, ran, balance_runGuest, alone] at changed dropped ⊢
    omega

theorem bootGuest_ok {memoryOverride : Option Nat} {variant : Variant} {met : InitMet} {vfio : Option VfioSession}
    {booted : BootedVm} (succeeds : (bootGuest memoryOverride variant met).result = .ok (vfio, booted)) :
    vfio.isSome = true → variant.limits.gpuRequired = true := by
  obtain ⟨session, vm, attached, required, -⟩ := attachVfio_spec variant met
  simp only [bootGuest, bind_ok, attached] at succeeds
  obtain ⟨info, -, path, -, -, -, -, -, -, -, _, same, -, -, ended⟩ := succeeds
  cases same
  cases ended
  exact required

theorem attachNet_offline {variant : Variant} (offline : variant.limits.networkAllowed = false) (met : InitMet)
    (booted : BootedVm) (held : Bool) : attachNet variant met booted held = pure (booted, held) := by
  simp [attachNet, offline]

theorem balance_remapBars (vfio : Option VfioSession) (handle : Handle) : balance handle (remapBars vfio) = 0 := by
  cases vfio <;> simp [remapBars]

theorem balance_keepSnapshot (capture : Bool) (variant : Variant) (met : InitMet) (handle : Handle) :
    balance handle (keepSnapshot capture variant met) = 0 := by
  unfold keepSnapshot
  split
  · split <;> simp
  · rfl

namespace FreshBootBackend
variable {backend : FreshBootBackend} {variant : Variant}

/-- `init` leaves the handles of the machine it boots, or none. -/
theorem bootVm_spec (met : InitMet) (offline : variant.limits.networkAllowed = false) (handle : Handle) :
    balance handle (backend.bootVm variant met).deeds =
      (match (backend.bootVm variant met).result with
        | .ok machine => alone .kvm handle + heldBy machine.vfio machine.booted handle
        | .error _ => 0) +
      stray (variant.limits.gpuRequired && reachesGpu variant met && (met.gpu.map keepsMmioFd).getD false)
        handle := by
  unfold bootVm reachesGpu
  rcases seccomp : met.seccomp with e | ⟨⟨⟩⟩
  · simp [balance_bind, bind_result, Except.mapError, Except.bind]
  rcases kvm : met.kvm with e | ⟨⟨⟩⟩
  · simp [balance_bind, bind_result, Except.mapError, Except.bind]
  have booting := bootGuest_spec backend.memorySizeOverride variant met handle
  rcases booted : (bootGuest backend.memorySizeOverride variant met).result with e | ⟨vfio, booted⟩
  · simp [balance_bind, bind_result, balance_unwinding, Except.mapError, Except.bind,
      booted] at booting ⊢
    rw [booting]
    split <;> omega
  · simp [balance_bind, bind_result, balance_unwinding, Except.mapError, Except.bind,
      booted, attachNet_offline offline, balance_remapBars, balance_keepSnapshot, alone] at booting ⊢
    rw [booting]
    exact (add_assoc _ _ _).symm

theorem bootVm_ok {met : InitMet} {machine : Machine} (offline : variant.limits.networkAllowed = false)
    (succeeds : (backend.bootVm variant met).result = .ok machine) :
    machine.tap = backend.tap ∧ (machine.vfio.isSome = true → variant.limits.gpuRequired = true) := by
  simp only [bootVm, bind_ok, attachNet_offline offline, unwinding_result] at succeeds
  obtain ⟨-, -, -, -, -, -, -, -, ⟨vfio, booted⟩, guest, -, -, _, same, -, -, ended⟩ := succeeds
  cases same
  cases ended
  exact ⟨rfl, bootGuest_ok guest⟩

/-- How many references the fields of the backend are. -/
def holds (backend : FreshBootBackend) (handle : Handle) : Int :=
  (if backend.kvm then alone .kvm handle else 0) +
    (match backend.booted with
      | some booted => heldBy backend.vfio booted handle
      | none => 0) +
    if backend.tap then alone .tap handle else 0

/-- The backend without what `exec` writes to it. -/
def core (backend : FreshBootBackend) : FreshBootBackend :=
  { backend with msiGsiBase := 0, numMsiVectors := 0, msiRefreshRetries := msiRefreshRetriesMax, modulesLoaded := false }

/-- What is true of a backend on every run. -/
structure Sane (memory : Option Nat) (backend : FreshBootBackend) : Prop where
  memory : backend.memorySizeOverride = memory
  uncaptured : backend.captureSnapshot = false
  offline : backend.tap = false
  idle : backend.initialized = false →
    backend.kvm = false ∧ backend.booted = none ∧ backend.vfio = none ∧ backend.variant = none
  running : backend.initialized = true → backend.kvm = true ∧ backend.booted.isSome = true
  device : backend.vfio.isSome = true → backend.gpuRequired = true
  untouched : backend.modulesLoaded = false → backend = backend.core

section Steps
variable {memory : Option Nat}

/-- A new backend for which the size of the memory may have been chosen. -/
def newborn (memory : Option Nat) : FreshBootBackend := { new with memorySizeOverride := memory }

theorem sane_newborn (memory : Option Nat) : Sane memory (newborn memory) :=
  ⟨rfl, rfl, rfl, fun _ => ⟨rfl, rfl, rfl, rfl⟩, nofun, nofun, fun _ => rfl⟩

/-- A backend that is not initialized and has loaded no modules is like new. -/
theorem Sane.eq_newborn (sane : backend.Sane memory) (idle : backend.initialized = false)
    (unloaded : backend.modulesLoaded = false) : backend = newborn memory := by
  obtain ⟨kvm, booted, vfio, none⟩ := sane.idle idle
  rw [sane.untouched unloaded]
  simp only [core, newborn, new, kvm, booted, vfio, none, idle, sane.uncaptured, sane.memory, sane.offline]

/-! ### `destroy` -/

theorem Sane.destroy_eq (sane : backend.Sane memory) : backend.destroy.2 =
    { backend with kvm := false, booted := none, vfio := none, variant := none, initialized := false } := by
  by_cases idle : backend.initialized = true
  · simp [destroy, idle]
  · simp only [Bool.not_eq_true] at idle
    obtain ⟨kvm, booted, vfio, none⟩ := sane.idle idle
    obtain ⟨_, _, _, _, _, _, _, _, _, _, _, _⟩ := backend
    cases idle
    cases kvm
    cases booted
    cases vfio
    cases none
    rfl

/-- `destroy` closes what the fields hold. -/
theorem Sane.balance_destroy (sane : backend.Sane memory) (handle : Handle) :
    balance handle backend.destroy.1 = -backend.holds handle := by
  by_cases running : backend.initialized = true
  · obtain ⟨kvm, some⟩ := sane.running running
    obtain ⟨booted, booting⟩ := Option.isSome_iff_exists.mp some
    have dropped := balance_drop backend.vfio booted handle
    simp [destroy, holds, running, kvm, booting, sane.offline, balance_map_asked, alone] at dropped ⊢
    split <;> omega
  · simp only [Bool.not_eq_true] at running
    obtain ⟨kvm, booted, -, -⟩ := sane.idle running
    simp [destroy, holds, running, kvm, booted, sane.offline]

theorem Sane.destroy (sane : backend.Sane memory) : backend.destroy.2.Sane memory := by
  rw [sane.destroy_eq]
  refine ⟨sane.memory, sane.uncaptured, sane.offline, fun _ => ⟨rfl, rfl, rfl, rfl⟩, nofun, nofun, fun unloaded => ?_⟩
  have same := sane.untouched unloaded
  rw [same]
  rfl

/-! ### `init` -/

/-- The backend after the machine was booted for the variant. -/
def withMachine (backend : FreshBootBackend) (variant : Variant) (machine : Machine) : FreshBootBackend :=
  { backend with
    kvm := true
    booted := some machine.booted
    vfio := machine.vfio
    variant := some variant
    initialized := true
    tap := machine.tap }

/-- A failed `init` leaves what `destroy` left. -/
theorem init_cases (backend : FreshBootBackend) (apiVariant : Api.Variant) (met : InitMet) :
    (Variant.fromApi apiVariant = none ∧ (backend.init apiVariant met).1.2 = backend.destroy.1 ∧
        (backend.init apiVariant met).2 = backend.destroy.2) ∨
      ∃ variant, Variant.fromApi apiVariant = some variant ∧
        (backend.init apiVariant met).1.2 =
          backend.destroy.1 ++ (backend.destroy.2.bootVm variant met).deeds ∧
        ((∃ e, (backend.destroy.2.bootVm variant met).result = .error e ∧
            (backend.init apiVariant met).2 = backend.destroy.2) ∨
          ∃ machine, (backend.destroy.2.bootVm variant met).result = .ok machine ∧
            (backend.init apiVariant met).2 = backend.destroy.2.withMachine variant machine) := by
  unfold init
  cases known : Variant.fromApi apiVariant with
  | none => exact .inl ⟨rfl, rfl, rfl⟩
  | some variant =>
    refine .inr ⟨variant, rfl, ?_⟩
    cases booting : (backend.destroy.2.bootVm variant met).result with
    | error e => simp [booting]
    | ok machine => simp [booting, withMachine]

theorem Sane.init (sane : backend.Sane memory) (apiVariant : Api.Variant) (met : InitMet) :
    (backend.init apiVariant met).2.Sane memory := by
  rcases init_cases backend apiVariant met with ⟨-, -, after⟩ | ⟨variant, known, -, ⟨e, -, after⟩ | ⟨machine, booted, after⟩⟩
  · exact after ▸ sane.destroy
  · exact after ▸ sane.destroy
  · have cleared := sane.destroy
    obtain ⟨tap, required⟩ := bootVm_ok (fromApi_network known) booted
    rw [after]
    refine ⟨cleared.memory, cleared.uncaptured, tap.trans cleared.offline, nofun, fun _ => ⟨rfl, rfl⟩, required,
      fun unloaded => ?_⟩
    have same := cleared.untouched unloaded
    unfold withMachine
    rw [same]
    rfl

theorem Sane.balance_init (sane : backend.Sane memory) (apiVariant : Api.Variant) (met : InitMet) (handle : Handle) :
    balance handle (backend.init apiVariant met).1.2 + backend.holds handle =
      (backend.init apiVariant met).2.holds handle + stray (leavesMmioFd apiVariant met) handle := by
  have closed := sane.balance_destroy handle
  have nothing : backend.destroy.2.holds handle = 0 := by
    rw [sane.destroy_eq]
    simp [holds, sane.offline]
  rcases init_cases backend apiVariant met with ⟨unknown, done, after⟩ | ⟨variant, known, done, ended⟩
  · rw [done, after, nothing, closed, leavesMmioFd, unknown]
    cases handle <;> simp [stray, once]
  · have opened := @bootVm_spec backend.destroy.2 variant met (fromApi_network known) handle
    have kept : leavesMmioFd apiVariant met =
        (variant.limits.gpuRequired && reachesGpu variant met && (met.gpu.map keepsMmioFd).getD false) := by
      rw [leavesMmioFd, known]
    rw [done, balance_append, closed, opened, kept]
    rcases ended with ⟨e, failed, after⟩ | ⟨machine, booted, after⟩
    · rw [failed, after, nothing]
      dsimp only
      omega
    · have tap := (bootVm_ok (fromApi_network known) booted).1.trans sane.destroy.offline
      have holding : (backend.init apiVariant met).2.holds handle =
          alone .kvm handle + heldBy machine.vfio machine.booted handle := by
        simp [after, holds, withMachine, tap]
      rw [booted, holding]
      ring

theorem init_modulesLoaded (apiVariant : Api.Variant) (met : InitMet) :
    (backend.init apiVariant met).2.modulesLoaded = backend.modulesLoaded := by
  have kept : backend.destroy.2.modulesLoaded = backend.modulesLoaded := by
    unfold destroy
    split <;> rfl
  rcases init_cases backend apiVariant met with ⟨-, -, after⟩ | ⟨variant, known, -, ⟨e, -, after⟩ | ⟨machine, -, after⟩⟩
  · rw [after, kept]
  · rw [after, kept]
  · rw [after]
    exact kept

/-! ### `exec` -/

theorem setupMsiRouting_core (backend : FreshBootBackend) (met : ExecMet) :
    (backend.setupMsiRouting met).2.core = backend.core ∧
      (backend.setupMsiRouting met).2.modulesLoaded = backend.modulesLoaded ∧
      ∀ handle, balance handle (backend.setupMsiRouting met).1 = 0 := by
  unfold setupMsiRouting
  split
  · exact ⟨rfl, rfl, fun _ => rfl⟩
  · split
    · exact ⟨rfl, rfl, fun _ => by simp⟩
    · exact ⟨rfl, rfl, fun _ => by simp⟩

theorem refreshMsiRouting_core (backend : FreshBootBackend) (met : ExecMet) :
    (backend.refreshMsiRouting met).2.core = backend.core ∧
      (backend.refreshMsiRouting met).2.modulesLoaded = backend.modulesLoaded ∧
      ∀ handle, balance handle (backend.refreshMsiRouting met).1 = 0 := by
  unfold refreshMsiRouting
  split
  · exact ⟨rfl, rfl, fun _ => rfl⟩
  split
  · exact ⟨rfl, rfl, fun _ => rfl⟩
  split
  · exact ⟨rfl, rfl, fun _ => rfl⟩
  split
  · exact ⟨rfl, rfl, fun _ => rfl⟩
  cases met.msiConfig with
  | none => exact ⟨rfl, rfl, fun _ => rfl⟩
  | some config =>
    by_cases enabled : config.enabled = true
    · by_cases refreshes : met.refreshes = true
      · simp [enabled, refreshes, core]
      · simp [enabled, refreshes, core]
    · simp [enabled, core]

theorem routeMsi_core (backend : FreshBootBackend) (met : ExecMet) :
    (backend.routeMsi met).2.core = backend.core ∧
      (backend.routeMsi met).2.modulesLoaded = backend.modulesLoaded ∧
      ∀ handle, balance handle (backend.routeMsi met).1 = 0 := by
  obtain ⟨kept, loaded, routed⟩ := setupMsiRouting_core backend met
  obtain ⟨keptToo, loadedToo, refreshed⟩ := refreshMsiRouting_core (backend.setupMsiRouting met).2 met
  unfold routeMsi
  split
  · by_cases left : 0 < (backend.setupMsiRouting met).2.msiRefreshRetries
    · simp [left, kept, keptToo, loaded, loadedToo, routed, refreshed]
    · simp [left, kept, loaded, routed]
  · exact ⟨rfl, rfl, fun _ => rfl⟩

/-- `exec` writes to the routes and to the modules alone, and opens nothing. -/
theorem exec_core (backend : FreshBootBackend) (code : String) (met : ExecMet) :
    (backend.exec code met).2.core = backend.core ∧ ∀ handle, balance handle (backend.exec code met).1.2 = 0 := by
  obtain ⟨kvm, booted, vfio, variant, initialized, base, vectors, retries, modules, capture, memory, tap⟩ := backend
  cases initialized with
  | false => exact ⟨rfl, fun _ => rfl⟩
  | true =>
    cases booted with
    | none =>
      simp only [exec, ↓reduceIte]
      refine ⟨?_, fun _ => rfl⟩
      split
      · rfl
      · rfl
    | some vm =>
      simp only [exec, ↓reduceIte]
      refine ⟨(routeMsi_core _ met).1, fun handle => ?_⟩
      split
      · simp [(routeMsi_core _ met).2.2 handle]
      · simp [(routeMsi_core _ met).2.2 handle]

theorem Sane.exec_running (sane : backend.Sane memory) (running : backend.initialized = true) (code : String)
    (met : ExecMet) : (backend.exec code met).2 = ({ backend with
      modulesLoaded := backend.modulesLoaded || backend.needsModules || backend.vfio.isSome }.routeMsi met).2 := by
  obtain ⟨vm, booted⟩ := Option.isSome_iff_exists.mp (sane.running running).2
  obtain ⟨_, _, _, _, _, _, _, _, _, _, _, _⟩ := backend
  cases running
  cases booted
  rfl

/-- From the first `exec` on a variant that requires a GPU the modules count as
loaded. -/
theorem Sane.exec_modulesLoaded (sane : backend.Sane memory) (code : String) (met : ExecMet) :
    (backend.exec code met).2.modulesLoaded =
      (backend.modulesLoaded || (backend.initialized && backend.gpuRequired)) := by
  cases running : backend.initialized with
  | false => simp [exec, running]
  | true =>
    rw [sane.exec_running running, (routeMsi_core _ met).2.1]
    have device := sane.device
    unfold needsModules
    cases backend.modulesLoaded <;> cases required : backend.gpuRequired <;> cases attached : backend.vfio <;>
      simp_all

/-- An `exec` that leaves the modules unloaded leaves everything. -/
theorem Sane.exec_unloaded (sane : backend.Sane memory) (code : String) (met : ExecMet)
    (unloaded : (backend.exec code met).2.modulesLoaded = false) : (backend.exec code met).2 = backend := by
  cases running : backend.initialized with
  | false => simp [exec, running]
  | true =>
    rw [sane.exec_modulesLoaded, running] at unloaded
    obtain ⟨modules, required⟩ : backend.modulesLoaded = false ∧ backend.gpuRequired = false := by
      simpa using unloaded
    have detached : backend.vfio = none := by
      cases attached : backend.vfio with
      | none => rfl
      | some session =>
        have impossible := sane.device (by rw [attached]; rfl)
        rw [required] at impossible
        cases impossible
    have unmarked : (backend.modulesLoaded || backend.needsModules || backend.vfio.isSome) = backend.modulesLoaded := by
      simp [needsModules, modules, required, detached]
    rw [sane.exec_running running, unmarked]
    show (backend.routeMsi met).2 = backend
    rw [routeMsi, if_neg (by simp [detached])]

theorem Sane.exec (sane : backend.Sane memory) (code : String) (met : ExecMet) :
    (backend.exec code met).2.Sane memory := by
  obtain ⟨kvm, booted, vfio, variant, initialized, -, -, -, -, capture, memory, tap⟩ :=
    FreshBootBackend.mk.inj (exec_core backend code met).1
  constructor
  · exact memory.trans sane.memory
  · exact capture.trans sane.uncaptured
  · exact tap.trans sane.offline
  · rw [initialized, kvm, booted, vfio, variant]
    exact sane.idle
  · rw [initialized, kvm, booted]
    exact sane.running
  · rw [vfio, gpuRequired, variant]
    exact sane.device
  · intro unloaded
    have unchanged := sane.exec_unloaded code met unloaded
    rw [unchanged] at unloaded ⊢
    exact sane.untouched unloaded

theorem holds_core (backend : FreshBootBackend) : backend.core.holds = backend.holds := rfl

theorem holds_exec (backend : FreshBootBackend) (code : String) (met : ExecMet) :
    (backend.exec code met).2.holds = backend.holds := by
  rw [← holds_core, (exec_core backend code met).1, holds_core]

/-- Nothing is held while no VM runs. -/
theorem Sane.holds_idle (sane : backend.Sane memory) (idle : backend.initialized = false) (handle : Handle) :
    backend.holds handle = 0 := by
  obtain ⟨kvm, booted, -, -⟩ := sane.idle idle
  simp [holds, kvm, booted, sane.offline]

end Steps
end FreshBootBackend

/-! ## Runs -/

inductive Call where
  | init (apiVariant : Api.Variant) (met : InitMet)
  | exec (code : String) (met : ExecMet)
  | reset
  | destroy

inductive Answer where
  | done (result : Except ApiError Unit)
  | output (result : Except ApiError String)

/-- What the caller gets, and what was asked for on the way. -/
def step (backend : FreshBootBackend) : Call → (Answer × List Effect) × FreshBootBackend
  | .init apiVariant met =>
    let ((result, deeds), after) := backend.init apiVariant met
    ((.done result, deeds), after)
  | .exec code met =>
    let ((result, deeds), after) := backend.exec code met
    ((.output result, deeds), after)
  | .reset => ((.done backend.reset, []), backend)
  | .destroy => ((.done (.ok ()), backend.destroy.1), backend.destroy.2)

/-- A backend, and all it did. -/
structure Life where
  backend : FreshBootBackend
  deeds : List Effect

namespace Life
open FreshBootBackend (newborn)

def live (life : Life) (call : Call) : (Answer × List Effect) × Life :=
  ((step life.backend call).1, ⟨(step life.backend call).2, life.deeds ++ (step life.backend call).1.2⟩)

/-- The calls of a backend that was just constructed. -/
def after (memory : Option Nat) (calls : List Call) : Life := (answers live calls ⟨newborn memory, []⟩).2

/-- No handle is referenced any more, and to every caller the backend answers,
and asks the host, as a new one would. -/
structure Reusable (life : Life) : Prop where
  released : ∀ handle, balance handle life.deeds = 0
  likeNew : ∀ calls, (answers step calls life.backend).1 =
    (answers step calls (newborn life.backend.memorySizeOverride)).1

/-- Code is run only for a variant that requires no GPU, and no device is
attached whose BARs are mapped on first access. -/
def Harmless (life : Life) : Call → Prop
  | .init apiVariant met => leavesMmioFd apiVariant met = false
  | .exec _ _ => life.backend.initialized = true → life.backend.gpuRequired = false
  | _ => True

/-- What is left of a call that is not harmless. -/
def Marked (life : Life) : Prop := life.backend.modulesLoaded = true ∨ balance .mmioFd life.deeds ≠ 0

structure Accounted (memory : Option Nat) (life : Life) : Prop where
  sane : life.backend.Sane memory
  owned : ∀ handle, handle ≠ .mmioFd → balance handle life.deeds = life.backend.holds handle
  strays : 0 ≤ balance .mmioFd life.deeds

section Histories
variable {memory : Option Nat} {life : Life}

theorem holds_mmioFd (backend : FreshBootBackend) : backend.holds .mmioFd = 0 := by
  unfold FreshBootBackend.holds
  cases backend.booted <;> simp [alone, heldBy]

/-- Of every handle a call leaves as many references as the fields it changes,
but for the descriptors that are forgotten. -/
theorem balance_step (sane : life.backend.Sane memory) (call : Call) (handle : Handle) :
    balance handle (step life.backend call).1.2 + life.backend.holds handle =
      (step life.backend call).2.holds handle +
        match call with
        | .init apiVariant met => stray (leavesMmioFd apiVariant met) handle
        | _ => 0 := by
  cases call with
  | init apiVariant met => exact sane.balance_init apiVariant met handle
  | exec code met =>
    have nothing := (FreshBootBackend.exec_core life.backend code met).2 handle
    simp [step, nothing, FreshBootBackend.holds_exec]
  | reset => simp [step]
  | destroy =>
    have closed := sane.balance_destroy handle
    have nothing := sane.destroy.holds_idle (by rw [sane.destroy_eq]) handle
    simp [step, closed, nothing]

theorem Accounted.live (accounted : life.Accounted memory) (call : Call) : (life.live call).2.Accounted memory := by
  have balanced := balance_step accounted.sane call
  constructor
  · cases call with
    | init apiVariant met => exact accounted.sane.init apiVariant met
    | exec code met => exact accounted.sane.exec code met
    | reset => exact accounted.sane
    | destroy => exact accounted.sane.destroy
  · intro handle other
    have before := accounted.owned handle other
    have change := balanced handle
    have unforgotten : (match call with
        | .init apiVariant met => stray (leavesMmioFd apiVariant met) handle
        | _ => 0) = 0 := by
      cases call <;> cases handle <;> first | rfl | exact absurd rfl other
    simp only [Life.live, balance_append]
    omega
  · have before := accounted.strays
    have change := balanced .mmioFd
    have forgotten : 0 ≤ (match call with
        | .init apiVariant met => stray (leavesMmioFd apiVariant met) .mmioFd
        | _ => 0) := by
      cases call with
      | init apiVariant met =>
        simp only [stray, once]
        split <;> decide
      | _ => exact le_rfl
    simp only [Life.live, balance_append]
    rw [holds_mmioFd, holds_mmioFd] at change
    omega

/-- Exactly the calls that are not harmless leave a mark. -/
theorem Accounted.marks (accounted : life.Accounted memory) (call : Call) :
    Marked (life.live call).2 ↔ Marked life ∨ ¬ life.Harmless call := by
  have strays := accounted.strays
  have change := balance_step accounted.sane call .mmioFd
  rw [holds_mmioFd, holds_mmioFd] at change
  unfold Marked
  simp only [Life.live, balance_append]
  cases call with
  | init apiVariant met =>
    have loaded : (step life.backend (.init apiVariant met)).2.modulesLoaded = life.backend.modulesLoaded :=
      FreshBootBackend.init_modulesLoaded apiVariant met
    have left : balance .mmioFd (step life.backend (.init apiVariant met)).1.2 = once (leavesMmioFd apiVariant met) := by
      simpa [stray] using change
    rw [loaded, left]
    cases kept : leavesMmioFd apiVariant met with
    | false => simp [Harmless, kept, once]
    | true =>
      have marked : balance .mmioFd life.deeds + once true ≠ 0 := by
        simp only [once, ↓reduceIte]
        omega
      simp [Harmless, kept, marked]
  | exec code met =>
    have loaded : (step life.backend (.exec code met)).2.modulesLoaded =
        (life.backend.modulesLoaded || (life.backend.initialized && life.backend.gpuRequired)) :=
      accounted.sane.exec_modulesLoaded code met
    have same : balance .mmioFd (step life.backend (.exec code met)).1.2 = 0 := by simpa using change
    rw [loaded, same, add_zero]
    cases running : life.backend.initialized <;> cases required : life.backend.gpuRequired <;>
      simp [Harmless, running, required, or_comm]
  | reset => simp [step, Harmless]
  | destroy =>
    have loaded : (step life.backend .destroy).2.modulesLoaded = life.backend.modulesLoaded := by
      show life.backend.destroy.2.modulesLoaded = _
      rw [accounted.sane.destroy_eq]
    have same : balance .mmioFd (step life.backend .destroy).1.2 = 0 := by simpa using change
    rw [loaded, same, add_zero]
    simp [Harmless]

theorem accounted_start (memory : Option Nat) : Accounted memory ⟨newborn memory, []⟩ where
  sane := FreshBootBackend.sane_newborn memory
  owned _ _ := rfl
  strays := le_rfl

theorem accounted_after (memory : Option Nat) (calls : List Call) : (after memory calls).Accounted memory :=
  answers_keep (fun _ call accounted => accounted.live call) calls _ (accounted_start memory)

/-- A run left no mark exactly if its calls were harmless. -/
theorem unmarked_iff (memory : Option Nat) (calls : List Call) :
    ¬ Marked (after memory calls) ↔ Throughout live Harmless calls ⟨newborn memory, []⟩ := by
  have ended : ¬ Marked (after memory calls) ↔
      ¬ Marked ⟨newborn memory, []⟩ ∧ Throughout live Harmless calls ⟨newborn memory, []⟩ :=
    throughout_iff_unmarked (fun _ call (accounted : Accounted memory _) => accounted.live call)
      (fun _ call accounted => accounted.marks call) calls _ (accounted_start memory)
  rw [ended]
  exact and_iff_right (by simp [Marked, FreshBootBackend.newborn, FreshBootBackend.new])

/-! ### What shows the mark -/

def nvidia : Api.Variant := ⟨"python", "pytorch-nv", "gpu-nvidia"⟩

/-- Everything succeeds, and no device is found. -/
def calmInit : InitMet where
  seccomp := .ok ()
  kvm := .ok ()
  kernel := .ok ⟨"vmlinux-gpu-nvidia", "7.1.4", ""⟩
  initrd := .ok "initrd.zst"
  gpuBars := []
  boot := .ok ()
  gpu := none
  vbios := none
  vbiosPost := .ok ()
  longMode := .ok ()
  command := none
  ready := .ok ()
  tap := false
  captured := false
  stores := false

def calmExec : ExecMet := ⟨.ok "", 0, false, none, false⟩

def probe : List Call := [.init nvidia calmInit, .exec "print(1)" calmExec]

/-- The second call of the probe asks for the modules unless they count as
loaded. -/
theorem probe_asks {backend : FreshBootBackend} (idle : backend.initialized = false) :
    ((answers step probe backend).1.map Prod.snd)[1]? =
      some ((if backend.modulesLoaded then [] else [.asked (.runCode "!load-modules")]) ++
        [.asked (.runCode "print(1)")]) := by
  obtain ⟨_, _, _, _, _, _, _, _, modules, _, _, _⟩ := backend
  cases idle
  cases modules <;> rfl

theorem Reusable.unmarked (reusable : life.Reusable) (idle : life.backend.initialized = false) : ¬ Marked life := by
  rintro (loaded | forgotten)
  · have asked := congrArg (fun made => (made.map Prod.snd)[1]?) (reusable.likeNew probe)
    simp only [probe_asks idle, @probe_asks (newborn life.backend.memorySizeOverride) rfl, loaded] at asked
    simp [FreshBootBackend.newborn, FreshBootBackend.new] at asked
  · exact forgotten (reusable.released .mmioFd)

theorem Accounted.reusable (accounted : life.Accounted memory) (idle : life.backend.initialized = false)
    (unmarked : ¬ Marked life) : life.Reusable := by
  obtain ⟨unloaded, released⟩ := not_or.mp unmarked
  constructor
  · intro handle
    by_cases forgotten : handle = .mmioFd
    · rw [forgotten]
      exact not_not.mp released
    · rw [accounted.owned handle forgotten]
      exact accounted.sane.holds_idle idle handle
  · intro calls
    have same := accounted.sane.eq_newborn idle (by simpa using unloaded)
    rw [accounted.sane.memory]
    rw [same]

end Histories

def cpu : Api.Variant := ⟨"python", "minimal", "base"⟩

end Life
end TinyMachine.FreshBackend
