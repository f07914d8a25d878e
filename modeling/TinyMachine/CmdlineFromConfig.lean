import Mathlib.Algebra.Group.Nat.Defs
import TinyMachine.Cmdline

/-! The configuration of a TOML file and the one of the command line, and what
is left of the first after a trip through the second. -/
namespace TinyMachine.Cmdline
open Lib

structure ForkConfig where
  vcpus : UInt64
  memoryMb : UInt64
  timeoutMs : UInt64
  deriving DecidableEq

structure PoolConfig where
  min : UInt64
  max : UInt64
  idleTimeoutSecs : UInt64
  deriving DecidableEq

structure OrchestratorConfig where
  listenAddr : Text
  port : UInt16
  deriving DecidableEq

structure CliConfig where
  execTimeoutMs : UInt64
  deriving DecidableEq

structure TinyMachineConfig where
  templateDir : Text
  fork : ForkConfig
  pool : PoolConfig
  orchestrator : OrchestratorConfig
  cli : CliConfig
  deriving DecidableEq

/-- The template directory depends on the environment. -/
def TinyMachineConfig.default (templateDir : Text) : TinyMachineConfig where
  templateDir := templateDir
  fork := ⟨1, 128, 5000⟩
  pool := ⟨3, 20, 60⟩
  orchestrator := ⟨"127.0.0.1".toList, 8080⟩
  cli := ⟨10000⟩

/-- The numbers of VMs and of processors are cut to 32 bits. -/
def CmdlineConfig.fromConfig (config : TinyMachineConfig) : CmdlineConfig where
  orchestratorAddr := some config.orchestrator.listenAddr
  maxForks := some config.pool.max.toUInt32
  memoryLimitMb := some config.fork.memoryMb
  cpuCores := some config.fork.vcpus.toUInt32
  proxyAddr := some (config.orchestrator.listenAddr ++ ':' :: decimal config.orchestrator.port.toNat)

/-- The address and the port of a proxy, at the first colon. -/
def OrchestratorConfig.setProxy (config : OrchestratorConfig) (proxy : Text) : OrchestratorConfig :=
  match Text.splitOnce ':' proxy with
  | some (addr, port) =>
    { listenAddr := addr
      port := match parseUnsigned UInt16.size port with
        | .ok port => .ofNat port
        | .error _ => config.port }
  | none => config

def TinyMachineConfig.fromCmdline (templateDir : Text) (cc : CmdlineConfig) : TinyMachineConfig :=
  let config := default templateDir
  let orchestrator := { config.orchestrator with
    listenAddr := cc.orchestratorAddr.getD config.orchestrator.listenAddr }
  { config with
    fork := { config.fork with
      memoryMb := cc.memoryLimitMb.getD config.fork.memoryMb
      vcpus := (cc.cpuCores.map UInt32.toUInt64).getD config.fork.vcpus }
    pool := { config.pool with max := (cc.maxForks.map UInt32.toUInt64).getD config.pool.max }
    orchestrator := match cc.proxyAddr with
      | some proxy => orchestrator.setProxy proxy
      | none => orchestrator }

/-- The two configurations have the same values for what both forms can say. -/
structure Agrees (config other : TinyMachineConfig) : Prop where
  poolMax : config.pool.max = other.pool.max
  memoryMb : config.fork.memoryMb = other.fork.memoryMb
  vcpus : config.fork.vcpus = other.fork.vcpus
  listenAddr : config.orchestrator.listenAddr = other.orchestrator.listenAddr
  port : config.orchestrator.port = other.orchestrator.port

section Trip
variable {before port : Text} {number : UInt16} {config : OrchestratorConfig}

theorem narrowed_iff (n : UInt64) : n.toUInt32.toUInt64 = n ↔ n.toNat < 2 ^ 32 := by
  rw [← UInt64.toNat_inj, UInt32.toNat_toUInt64, UInt64.toNat_toUInt32]
  constructor
  · intro same
    rw [← same]
    exact Nat.mod_lt _ (by decide)
  · exact Nat.mod_eq_of_lt

theorem parse_port (number : UInt16) : parseUnsigned UInt16.size (decimal number.toNat) = .ok number.toNat :=
  parseUnsigned_decimal number.toNat_lt

theorem setProxy_plain (plain : ':' ∉ before) :
    config.setProxy (before ++ ':' :: decimal number.toNat) = ⟨before, number⟩ := by
  rw [OrchestratorConfig.setProxy, Text.splitOnce_append plain]
  simp only [parse_port, UInt16.ofNat_toNat]

/-- A colon in the address is taken for the one before the port. -/
theorem setProxy_colon (colon : ':' ∈ before) : (config.setProxy (before ++ ':' :: port)).listenAddr ≠ before := by
  obtain ⟨front, behind, rfl, plain⟩ := List.eq_append_cons_of_mem colon
  rw [OrchestratorConfig.setProxy, List.append_assoc, List.cons_append, Text.splitOnce_append plain]
  intro same
  simp at same

theorem agrees_of_fits {templateDir : Text} {config : TinyMachineConfig} (max : config.pool.max.toNat < 2 ^ 32)
    (vcpus : config.fork.vcpus.toNat < 2 ^ 32) (plain : ':' ∉ config.orchestrator.listenAddr) :
    Agrees (.fromCmdline templateDir (.fromConfig config)) config := by
  have proxy : (TinyMachineConfig.fromCmdline templateDir (.fromConfig config)).orchestrator =
      ⟨config.orchestrator.listenAddr, config.orchestrator.port⟩ := setProxy_plain plain
  exact {
    poolMax := (narrowed_iff _).mpr max
    memoryMb := rfl
    vcpus := (narrowed_iff _).mpr vcpus
    listenAddr := by rw [proxy]
    port := by rw [proxy] }

/-- What comes back is what went in exactly when the numbers fit into 32 bits
and the address has no colon. -/
theorem agrees_iff (templateDir : Text) (config : TinyMachineConfig) :
    Agrees (.fromCmdline templateDir (.fromConfig config)) config ↔
      config.pool.max.toNat < 2 ^ 32 ∧ config.fork.vcpus.toNat < 2 ^ 32 ∧ ':' ∉ config.orchestrator.listenAddr := by
  constructor
  · intro agrees
    exact ⟨(narrowed_iff _).mp agrees.poolMax, (narrowed_iff _).mp agrees.vcpus,
      fun colon => setProxy_colon colon agrees.listenAddr⟩
  · rintro ⟨max, vcpus, plain⟩
    exact agrees_of_fits max vcpus plain

end Trip

/-- The default configuration, listening on all addresses of both families. -/
def listensOnAll (templateDir : Text) : TinyMachineConfig :=
  { TinyMachineConfig.default templateDir with orchestrator := ⟨"::".toList, 8080⟩ }

/-- Nothing is left of the address. -/
theorem ipv6_address_is_lost :
    ¬ Agrees (.fromCmdline "/tmp".toList (.fromConfig (listensOnAll "/tmp".toList))) (listensOnAll "/tmp".toList) := by
  intro agrees
  exact setProxy_colon (by decide) agrees.listenAddr

end TinyMachine.Cmdline
