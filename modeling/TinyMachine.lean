import TinyMachine.BootNoClobber
import TinyMachine.BootImage
import TinyMachine.Lib.Placement
import TinyMachine.PageTableProofs
import TinyMachine.ForkMapping
import TinyMachine.BootConfig
import TinyMachine.LazyConservation
import TinyMachine.PoolIsolation
import TinyMachine.SeccompProofs
import TinyMachine.VirtioReception
import TinyMachine.VirtioTransmission
import TinyMachine.IrCoverage
import TinyMachine.PythonCoverage
import TinyMachine.PciConfigAgreement
import TinyMachine.UopsRebinding
import TinyMachine.ComposerSoundness
import TinyMachine.CompositionBounds
import TinyMachine.ExecBufferExchange
import TinyMachine.ExecBufferPairing
import TinyMachine.LayerRegistryFile
import TinyMachine.LayerResolution
import TinyMachine.LayerOrder
import TinyMachine.LayerHistory
import TinyMachine.SnapshotFailure
import TinyMachine.TemplateIntegrity
import TinyMachine.ExecutionCacheRefinement
import TinyMachine.PoolIdle
import TinyMachine.FreshBootPool
import TinyMachine.PoolSharing
import TinyMachine.FreshBackendReuse
import TinyMachine.QemuTransparency
import TinyMachine.HostGpuPairing
import TinyMachine.TemplateHistory
import TinyMachine.E820Table
import TinyMachine.DeviceWindows
import TinyMachine.ElfLoading
import TinyMachine.VirtioPanics
import TinyMachine.VirtioFraming
import TinyMachine.VirtioReset
import TinyMachine.InterruptLine
import TinyMachine.CmdlineRoundTrip
import TinyMachine.BootCmdline
import TinyMachine.PolicyReference
import TinyMachine.LayerNewest
import TinyMachine.LayerLatest
import TinyMachine.PlanFacts
import TinyMachine.LayerConflicts
import TinyMachine.PciRootPortBytes
import TinyMachine.PortIo
import TinyMachine.Bar0Relocation
import TinyMachine.PythonImports
import TinyMachine.SnapshotTransparency
import TinyMachine.SerialPort
import TinyMachine.ProcessReplay
import TinyMachine.PoolBatch
import TinyMachine.CacheCapacity
import TinyMachine.LazyBudget
import TinyMachine.CmdlineFromConfig
import TinyMachine.FileConfinement
import TinyMachine.ProfilerMonotone
import TinyMachine.DomainPolicy
import TinyMachine.TemplateDates
import TinyMachine.Firmware
import TinyMachine.BarAssignment
import TinyMachine.BarMapping
import TinyMachine.KernelRegistration
import TinyMachine.GuestCommand
import TinyMachine.ForkTenancy
import TinyMachine.TwoPhaseBoot
