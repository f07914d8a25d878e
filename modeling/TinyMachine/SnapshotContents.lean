import TinyMachine.Snapshot

/-! What a directory holds: the snapshot that `load` finds in its files, as a
relation between the tree of files and the snapshot. -/
namespace TinyMachine.Snapshots
open Lib Disk VirtioNet Kernels

/-- A snapshot as it is kept: its memory and what it records beside it. -/
structure SavedState where
  memory : List UInt8
  cpu : CpuState
  loadAddr : UInt64
  xsave : Option XsaveBuffer
  irqchips : Option IrqChipState
  virtioNetState : Option VirtioNetState
  kernelVersion : String
  kernelHash : String

/-- The bytes in the memory vector, or else those behind the file handle. -/
def Snapshot.bytes (snapshot : Snapshot) (disk : Disk) : List UInt8 :=
  if snapshot.memory ≠ [] then snapshot.memory
  else ((snapshot.memFd.bind disk.contents).getD []).take snapshot.memorySize.toNat

/-- The snapshot with this as its memory. -/
def Snapshot.record (snapshot : Snapshot) (memory : List UInt8) : SavedState where
  memory := memory
  cpu := snapshot.cpu
  loadAddr := snapshot.loadAddr
  xsave := snapshot.xsave
  irqchips := snapshot.irqchips
  virtioNetState := snapshot.virtioNetState
  kernelVersion := snapshot.kernelVersion
  kernelHash := snapshot.kernelHash

def Snapshot.stored (snapshot : Snapshot) (disk : Disk) : SavedState := snapshot.record (snapshot.bytes disk)

/-- `load` of the directory gives this snapshot when nothing fails. -/
def Holds (formats : Formats) (disk : Disk) (dir : Path) (state : SavedState) : Prop :=
  ∃ snapshot disk', (Snapshot.load formats dir).Ends { disk with faults := [] } (.ok snapshot) disk' ∧
    snapshot.stored disk' = state

variable {formats : Formats} {disk disk' : Disk} {dir path : Path} {info : SnapMeta}

/-! ## The parts of a snapshot -/

/-- The file holds a text that reads as this value. -/
def Reads {α : Type} (parse : String → Option α) (tree : Tree) (path : Path) (value : α) : Prop :=
  ∃ text : String, tree.IsFile path text.toUTF8.data.toList ∧ parse text = some value

/-- The bytes of the file if it is there. -/
def ReadsBytes {size : Nat} (tree : Tree) (path : Path) (value : Option (Bytes size)) : Prop :=
  match value with
  | none => tree.entries path = none
  | some bytes => tree.IsFile path bytes.val

/-- A state file that is missing or does not parse is no state. -/
def ReadsNet (formats : Formats) (tree : Tree) (path : Path) (value : Option VirtioNetState) : Prop :=
  tree.entries path = none ∧ value = none ∨
    ∃ text : String, tree.IsFile path text.toUTF8.data.toList ∧ value = formats.parseVirtioNet text

/-- No chip files, or those of a state with at least one chip. -/
def ReadsChips (tree : Tree) (dir : Path) (value : Option IrqChipState) : Prop :=
  match value with
  | none => tree.entries (dir ++ ["irqchip0.bin"]) = none ∧ tree.entries (dir ++ ["irqchip1.bin"]) = none ∧
      tree.entries (dir ++ ["irqchip2.bin"]) = none
  | some chips => ReadsBytes tree (dir ++ ["irqchip0.bin"]) chips.masterPic ∧
      ReadsBytes tree (dir ++ ["irqchip1.bin"]) chips.slavePic ∧
      ReadsBytes tree (dir ++ ["irqchip2.bin"]) chips.ioapic ∧
      ¬ (chips.masterPic = none ∧ chips.slavePic = none ∧ chips.ioapic = none)

def ChecksumFits (formats : Formats) (entry : Entry) (checksum : Option String) : Prop :=
  ∀ stored, checksum = some stored → ∃ bytes, entry = .file bytes ∧ formats.blake3 bytes = stored

/-- Where there is a kernel directory, the base kernel of the recorded version
has the recorded hash. -/
def KernelFits (formats : Formats) (tree : Tree) (dir : Path) (version hash : String) : Prop :=
  version ≠ "" → hash ≠ "" → ∀ kernelDir, Snapshot.kernelRegistryPath dir = some kernelDir →
    tree.entries kernelDir ≠ none →
    ∃ bytes, tree.IsFile (kernelFile kernelDir version "base") bytes ∧ formats.sha256 bytes = hash

structure PlacementFits (loadAddr : UInt64) (size : Nat) : Prop where
  aligned : loadAddr.toNat % 0x1000 = 0
  inRange : loadAddr.toNat + size < 0x10000000000000000
  apart : ∀ region ∈ reservedMmioRegions,
    ¬ (loadAddr.toNat < region.1 + region.2 ∧ region.1 < loadAddr.toNat + size)

theorem fromUTF8_eq_some {bytes : List UInt8} {text : String} :
    String.fromUTF8? ⟨bytes.toArray⟩ = some text ↔ bytes = text.toUTF8.data.toList := by
  rw [String.fromUTF8?]
  constructor
  · intro decoded
    split at decoded
    · cases decoded
      rfl
    · cases decoded
  · rintro rfl
    have valid : (⟨text.toUTF8.data.toList.toArray⟩ : ByteArray).IsValidUTF8 := by
      simpa using text.isValidUTF8
    rw [dif_pos valid]
    simp [String.fromUTF8]

/-- A file with a text in it reads as what the text reads as. -/
theorem reads_written {α : Type} {parse : String → Option α} {tree : Tree} {value : Json} {result : α}
    (file : tree.IsFile path (written value)) :
    Reads parse tree path result ↔ parse (text value) = some result := by
  constructor
  · rintro ⟨other, there, read⟩
    have same : written value = other.toUTF8.data.toList := by
      have both := file.symm.trans there
      simpa using both
    have decoded := (fromUTF8_eq_some.mpr same).symm.trans (fromUTF8_eq_some.mpr rfl)
    exact Option.some.inj decoded ▸ read
  · intro read
    exact ⟨text value, file, read⟩

namespace Snapshot

theorem readToString_ok {text : String} (calm : disk.faults = []) :
    (readToString path).Ends disk (.ok text) disk' ↔
      disk.tree.IsFile path text.toUTF8.data.toList ∧ disk' = disk := by
  rw [readToString, Attempt.bind_ok]
  simp only [readFile_ok calm]
  constructor
  · rintro ⟨bytes, _, ⟨file, rfl⟩, rest⟩
    split at rest
    · simp at rest
    · rename_i decoded
      obtain ⟨same, rfl⟩ := Attempt.pure_ends.mp rest
      cases same
      exact ⟨fromUTF8_eq_some.mp decoded ▸ file, rfl⟩
  · rintro ⟨file, rfl⟩
    refine ⟨_, _, ⟨file, rfl⟩, ?_⟩
    rw [fromUTF8_eq_some.mpr rfl]
    exact Attempt.pure_ends.mpr ⟨rfl, rfl⟩

theorem readJson_ok {α : Type} {parse : String → Option α} {value : α} (calm : disk.faults = []) :
    (readJson parse path).Ends disk (.ok value) disk' ↔ Reads parse disk.tree path value ∧ disk' = disk := by
  rw [readJson, Attempt.bind_ok]
  simp only [readToString_ok calm]
  constructor
  · rintro ⟨text, _, ⟨file, rfl⟩, rest⟩
    split at rest
    · simp at rest
    · rename_i read
      obtain ⟨same, rfl⟩ := Attempt.pure_ends.mp rest
      cases same
      exact ⟨⟨text, file, read⟩, rfl⟩
  · rintro ⟨⟨text, file, read⟩, rfl⟩
    refine ⟨text, _, ⟨file, rfl⟩, ?_⟩
    rw [read]
    exact Attempt.pure_ends.mpr ⟨rfl, rfl⟩

theorem loadBytes_ok {size : Nat} {wrong : Nat → InvalidSnapshot} {value : Option (Bytes size)}
    (calm : disk.faults = []) :
    (loadBytes path size wrong).Ends disk (.ok value) disk' ↔ ReadsBytes disk.tree path value ∧ disk' = disk := by
  rw [loadBytes, pathExists_bind calm]
  by_cases absent : disk.tree.entries path = none
  · rw [if_neg (by simp [absent]), Attempt.pure_ends]
    cases value with
    | none => simp [ReadsBytes, absent]
    | some bytes => simp [ReadsBytes, Tree.IsFile, absent]
  · rw [if_pos (by simp [absent]), Attempt.bind_ok]
    simp only [readFile_ok calm]
    constructor
    · rintro ⟨bytes, _, ⟨file, rfl⟩, rest⟩
      split at rest
      · obtain ⟨same, rfl⟩ := Attempt.pure_ends.mp rest
        cases same
        exact ⟨file, rfl⟩
      · simp at rest
    · rintro ⟨reads, rfl⟩
      cases value with
      | none => exact absurd reads absent
      | some bytes =>
        refine ⟨bytes.val, _, ⟨reads, rfl⟩, ?_⟩
        rw [dif_pos bytes.property]
        exact Attempt.pure_ends.mpr ⟨rfl, rfl⟩

theorem loadVirtioNet_ok {value : Option VirtioNetState} (calm : disk.faults = []) :
    (loadVirtioNet formats dir).Ends disk (.ok value) disk' ↔
      ReadsNet formats disk.tree (dir ++ ["virtio_net.json"]) value ∧ disk' = disk := by
  rw [loadVirtioNet, pathExists_bind calm]
  by_cases absent : disk.tree.entries (dir ++ ["virtio_net.json"]) = none
  · rw [if_neg (by simp [absent]), Attempt.pure_ends]
    simp [ReadsNet, Tree.IsFile, absent]
  · rw [if_pos (by simp [absent]), Attempt.bind_ok]
    simp only [readToString_ok calm, Attempt.pure_ends, ReadsNet, absent, false_and, false_or, Except.ok.injEq]
    constructor
    · rintro ⟨text, _, ⟨file, rfl⟩, rfl, rfl⟩
      exact ⟨⟨text, file, rfl⟩, rfl⟩
    · rintro ⟨⟨text, file, rfl⟩, rfl⟩
      exact ⟨text, _, ⟨file, rfl⟩, rfl, rfl⟩

private theorem none_of_absent {size : Nat} {value : Option (Bytes size)} (reads : ReadsBytes disk.tree path value)
    (absent : disk.tree.entries path = none) : value = none := by
  cases value with
  | none => rfl
  | some bytes => exact absurd (absent.symm.trans reads) nofun

theorem loadIrqchips_ok {value : Option IrqChipState} (calm : disk.faults = []) :
    (loadIrqchips dir).Ends disk (.ok value) disk' ↔ ReadsChips disk.tree dir value ∧ disk' = disk := by
  rw [loadIrqchips, pathExists_bind calm, pathExists_bind calm, pathExists_bind calm]
  by_cases absent : disk.tree.entries (dir ++ ["irqchip0.bin"]) = none ∧
      disk.tree.entries (dir ++ ["irqchip1.bin"]) = none ∧ disk.tree.entries (dir ++ ["irqchip2.bin"]) = none
  · rw [if_pos (by simp [absent]), Attempt.pure_ends]
    cases value with
    | none => simp [ReadsChips, absent]
    | some chips =>
      refine ⟨nofun, fun ⟨⟨master, slave, ioapic, present⟩, _⟩ => absurd ?_ present⟩
      refine ⟨?_, ?_, ?_⟩
      · exact none_of_absent master absent.1
      · exact none_of_absent slave absent.2.1
      · exact none_of_absent ioapic absent.2.2
  · rw [if_neg (by simpa using absent)]
    constructor
    · intro ends
      obtain ⟨masterPic, _, first, rest⟩ := Attempt.bind_ok.mp ends
      obtain ⟨master, rfl⟩ := (loadBytes_ok calm).mp first
      obtain ⟨slavePic, _, second, later⟩ := Attempt.bind_ok.mp rest
      obtain ⟨slave, rfl⟩ := (loadBytes_ok calm).mp second
      obtain ⟨ioapicState, _, third, last⟩ := Attempt.bind_ok.mp later
      obtain ⟨ioapic, rfl⟩ := (loadBytes_ok calm).mp third
      obtain ⟨same, rfl⟩ := Attempt.pure_ends.mp last
      cases same
      refine ⟨⟨master, slave, ioapic, ?_⟩, rfl⟩
      rintro ⟨rfl, rfl, rfl⟩
      exact absent ⟨master, slave, ioapic⟩
    · rintro ⟨reads, rfl⟩
      cases value with
      | none => exact absurd reads absent
      | some chips =>
        obtain ⟨master, slave, ioapic, -⟩ := reads
        refine Attempt.bind_ok.mpr ⟨_, _, (loadBytes_ok calm).mpr ⟨master, rfl⟩, ?_⟩
        refine Attempt.bind_ok.mpr ⟨_, _, (loadBytes_ok calm).mpr ⟨slave, rfl⟩, ?_⟩
        refine Attempt.bind_ok.mpr ⟨_, _, (loadBytes_ok calm).mpr ⟨ioapic, rfl⟩, ?_⟩
        exact Attempt.pure_ends.mpr ⟨rfl, rfl⟩

theorem checkPlacement_ok {loadAddr : UInt64} {size : Nat} :
    (checkPlacement loadAddr size).Ends disk (.ok ()) disk' ↔ PlacementFits loadAddr size ∧ disk' = disk := by
  unfold checkPlacement
  by_cases aligned : loadAddr.toNat % 0x1000 = 0
  · rw [if_neg (not_not_intro aligned)]
    by_cases inRange : loadAddr.toNat + size < 0x10000000000000000
    · rw [if_neg (Nat.not_le.mpr inRange)]
      split
      · rename_i region found
        have there := List.mem_of_find?_eq_some found
        have crossed := List.find?_some found
        rw [Attempt.fail_ends]
        refine ⟨nofun, fun ⟨fits, _⟩ => absurd (of_decide_eq_true crossed) (fits.apart region there)⟩
      · rename_i none
        rw [Attempt.pure_ends]
        have apart : ∀ region ∈ reservedMmioRegions,
            ¬ (loadAddr.toNat < region.1 + region.2 ∧ region.1 < loadAddr.toNat + size) := by
          intro region there crossed
          exact List.find?_eq_none.mp none region there (decide_eq_true crossed)
        exact and_congr_left fun _ => ⟨fun _ => ⟨aligned, inRange, apart⟩, fun _ => rfl⟩
    · rw [if_pos (Nat.not_lt.mp inRange), Attempt.fail_ends]
      exact ⟨nofun, fun ⟨fits, _⟩ => absurd fits.inRange inRange⟩
  · rw [if_pos aligned, Attempt.fail_ends]
    exact ⟨nofun, fun ⟨fits, _⟩ => absurd fits.aligned aligned⟩

/-- The disk with the memory file opened once more, and read to its end where
there is a checksum to verify. -/
def verified (dir : Path) (checksum : Option String) (length : Nat) (disk : Disk) : Disk :=
  if checksum.isSome then disk.openAt (dir ++ ["mem"]) length else disk

theorem verifyChecksum_ok {entry : Entry} (calm : disk.faults = [])
    (there : disk.tree.entries (dir ++ ["mem"]) = some entry) :
    (verifyChecksum formats dir info).Ends disk (.ok ()) disk' ↔
      ChecksumFits formats entry info.memChecksum ∧
        disk' = verified dir info.memChecksum (disk.entryLen entry) disk := by
  unfold verifyChecksum verified ChecksumFits
  cases info.memChecksum with
  | none => simp
  | some stored =>
    constructor
    · intro ends
      obtain ⟨_, _, first, rest⟩ := Attempt.bind_ok.mp ends
      obtain ⟨-, rfl, rfl⟩ := (openRead_ok calm).mp first
      obtain ⟨bytes, _, second, last⟩ := Attempt.bind_ok.mp rest
      obtain ⟨held, found, rfl, rfl⟩ := (readRest_ok (by exact calm)).mp second
      rw [openAt_contents, there] at found
      rw [openAt_offset, List.drop_zero, openAt_seek, Nat.zero_add] at last
      split at last
      · simp at last
      · rename_i same
        obtain ⟨-, rfl⟩ := Attempt.pure_ends.mp last
        cases entry with
        | directory => cases found
        | file bytes =>
          cases found
          refine ⟨fun other known => ⟨held, rfl, ?_⟩, rfl⟩
          rw [not_not.mp same, Option.some.inj known]
    · rintro ⟨fits, rfl⟩
      obtain ⟨bytes, rfl, same⟩ := fits stored rfl
      refine Attempt.bind_ok.mpr ⟨_, _, (openRead_ok calm).mpr ⟨by simp [there], rfl, rfl⟩, ?_⟩
      refine Attempt.bind_ok.mpr ⟨bytes, disk.openAt (dir ++ ["mem"]) bytes.length, ?_, ?_⟩
      · rw [readRest_ok (by exact calm), openAt_contents, there]
        exact ⟨bytes, rfl, by simp, by simp⟩
      · rw [if_neg (not_not_intro same)]
        exact Attempt.pure_ends.mpr ⟨rfl, rfl⟩

theorem verifyKernel_ok (calm : disk.faults = []) :
    (verifyKernel formats dir info).Ends disk (.ok ()) disk' ↔
      KernelFits formats disk.tree dir info.kernelVersion info.kernelHash ∧ disk' = disk := by
  unfold verifyKernel KernelFits
  by_cases recorded : info.kernelVersion ≠ "" ∧ info.kernelHash ≠ ""
  · rw [if_pos recorded]
    cases Snapshot.kernelRegistryPath dir with
    | none => simp
    | some kernelDir =>
      rw [pathExists_bind calm]
      by_cases absent : disk.tree.entries kernelDir = none
      · rw [if_neg (by simp [absent]), Attempt.pure_ends]
        simp [absent]
      · rw [if_pos (by simp [absent]), pathExists_bind calm]
        have wanted : (∃ bytes, disk.tree.IsFile (kernelFile kernelDir info.kernelVersion "base") bytes ∧
            formats.sha256 bytes = info.kernelHash) ↔ (∀ dir, some kernelDir = some dir → disk.tree.entries dir ≠ none →
              ∃ bytes, disk.tree.IsFile (kernelFile dir info.kernelVersion "base") bytes ∧
                formats.sha256 bytes = info.kernelHash) := by
          simp [absent]
        simp only [recorded.1, recorded.2, ne_eq, not_false_eq_true, forall_true_left]
        rw [← wanted]
        by_cases missing : disk.tree.entries (kernelFile kernelDir info.kernelVersion "base") = none
        · rw [if_neg (by simp [missing]), Attempt.fail_ends]
          simp [Tree.IsFile, missing]
        · rw [if_pos (by simp [missing]), Attempt.adapt_ok, verifyKernelHash_ok calm]
  · rw [if_neg recorded, Attempt.pure_ends]
    refine and_congr_left fun _ => ⟨fun _ version hash => absurd ⟨version, hash⟩ recorded, fun _ => rfl⟩

/-- A snapshot as the files give it, opened but not read. -/
structure Loads (formats : Formats) (disk : Disk) (dir : Path) (entry : Entry) (info : SnapMeta)
    (snapshot : Snapshot) : Prop where
  mem : disk.tree.entries (dir ++ ["mem"]) = some entry
  small : disk.entryLen entry ≤ maxSnapshotMemorySize
  cpu : Reads formats.parseCpu disk.tree (dir ++ ["state.json"]) snapshot.cpu
  metadata : Reads formats.parseMeta disk.tree (dir ++ ["meta.json"]) info
  checksum : ChecksumFits formats entry info.memChecksum
  kernel : KernelFits formats disk.tree dir info.kernelVersion info.kernelHash
  placement : PlacementFits info.loadAddr (disk.entryLen entry)
  xsave : ReadsBytes disk.tree (dir ++ ["xsave.bin"]) snapshot.xsave
  irqchips : ReadsChips disk.tree dir snapshot.irqchips
  virtioNet : ReadsNet formats disk.tree (dir ++ ["virtio_net.json"]) snapshot.virtioNetState
  rest : snapshot = { snapshot with
    memory := []
    memorySize := .ofNat (disk.entryLen entry)
    loadAddr := info.loadAddr
    memFd := some disk.opened.length
    kernelVersion := info.kernelVersion
    kernelHash := info.kernelHash }

theorem checkSize_ok {size : Nat} :
    (checkSize size).Ends disk (.ok ()) disk' ↔ size ≤ maxSnapshotMemorySize ∧ disk' = disk := by
  unfold checkSize
  split
  · rename_i large
    simp [Nat.not_le.mpr large]
  · rename_i small
    simp [Nat.not_lt.mp small]

theorem load_ok {snapshot : Snapshot} (calm : disk.faults = []) :
    (load formats dir).Ends disk (.ok snapshot) disk' ↔ ∃ entry info, Loads formats disk dir entry info snapshot ∧
      disk' = verified dir info.memChecksum (disk.entryLen entry) (disk.openAt (dir ++ ["mem"]) 0) := by
  have calm' : (disk.openAt (dir ++ ["mem"]) 0).faults = [] := calm
  have still : ∀ checksum length, (verified dir checksum length (disk.openAt (dir ++ ["mem"]) 0)).faults = [] ∧
      (verified dir checksum length (disk.openAt (dir ++ ["mem"]) 0)).tree = disk.tree := by
    intro checksum length
    unfold verified
    split
    · exact ⟨calm, rfl⟩
    · exact ⟨calm, rfl⟩
  constructor
  · intro ends
    obtain ⟨size, _, measured, one⟩ := Attempt.bind_ok.mp ends
    obtain ⟨entry, there, rfl, rfl⟩ := (metadataLen_ok calm).mp measured
    obtain ⟨_, _, sized, two⟩ := Attempt.bind_ok.mp one
    obtain ⟨small, rfl⟩ := checkSize_ok.mp sized
    obtain ⟨memFile, _, opened, three⟩ := Attempt.bind_ok.mp two
    obtain ⟨-, rfl, rfl⟩ := (openRead_ok calm).mp opened
    obtain ⟨cpu, _, first, four⟩ := Attempt.bind_ok.mp three
    obtain ⟨cpu, rfl⟩ := (readJson_ok calm').mp first
    obtain ⟨info, _, second, five⟩ := Attempt.bind_ok.mp four
    obtain ⟨metadata, rfl⟩ := (readJson_ok calm').mp second
    obtain ⟨_, disk₁, third, six⟩ := Attempt.bind_ok.mp five
    obtain ⟨checksum, rfl⟩ := (verifyChecksum_ok calm' there).mp third
    obtain ⟨calm₁, same⟩ := still info.memChecksum _
    obtain ⟨_, _, fourth, seven⟩ := Attempt.bind_ok.mp six
    obtain ⟨kernel, rfl⟩ := (verifyKernel_ok calm₁).mp fourth
    obtain ⟨_, _, fifth, eight⟩ := Attempt.bind_ok.mp seven
    obtain ⟨placement, rfl⟩ := checkPlacement_ok.mp fifth
    obtain ⟨xsave, _, sixth, nine⟩ := Attempt.bind_ok.mp eight
    obtain ⟨xsave, rfl⟩ := (loadBytes_ok calm₁).mp sixth
    obtain ⟨irqchips, _, seventh, ten⟩ := Attempt.bind_ok.mp nine
    obtain ⟨irqchips, rfl⟩ := (loadIrqchips_ok calm₁).mp seventh
    obtain ⟨virtioNet, _, eighth, last⟩ := Attempt.bind_ok.mp ten
    obtain ⟨virtioNet, rfl⟩ := (loadVirtioNet_ok calm₁).mp eighth
    obtain ⟨result, rfl⟩ := Attempt.pure_ends.mp last
    cases result
    rw [same] at kernel xsave irqchips virtioNet
    exact ⟨entry, info, ⟨there, small, cpu, metadata, checksum, kernel, placement, xsave, irqchips, virtioNet, rfl⟩,
      rfl⟩
  · rintro ⟨entry, info, loads, rfl⟩
    obtain ⟨calm₁, same⟩ := still info.memChecksum (disk.entryLen entry)
    rw [loads.rest]
    refine Attempt.bind_ok.mpr ⟨_, _, (metadataLen_ok calm).mpr ⟨entry, loads.mem, rfl, rfl⟩, ?_⟩
    refine Attempt.bind_ok.mpr ⟨_, _, checkSize_ok.mpr ⟨loads.small, rfl⟩, ?_⟩
    refine Attempt.bind_ok.mpr ⟨_, _, (openRead_ok calm).mpr ⟨by simp [loads.mem], rfl, rfl⟩, ?_⟩
    refine Attempt.bind_ok.mpr ⟨_, _, (readJson_ok calm').mpr ⟨loads.cpu, rfl⟩, ?_⟩
    refine Attempt.bind_ok.mpr ⟨_, _, (readJson_ok calm').mpr ⟨loads.metadata, rfl⟩, ?_⟩
    refine Attempt.bind_ok.mpr ⟨_, _, (verifyChecksum_ok calm' loads.mem).mpr ⟨loads.checksum, rfl⟩, ?_⟩
    refine Attempt.bind_ok.mpr ⟨_, _, (verifyKernel_ok calm₁).mpr ⟨same ▸ loads.kernel, rfl⟩, ?_⟩
    refine Attempt.bind_ok.mpr ⟨_, _, checkPlacement_ok.mpr ⟨loads.placement, rfl⟩, ?_⟩
    refine Attempt.bind_ok.mpr ⟨_, _, (loadBytes_ok calm₁).mpr ⟨same ▸ loads.xsave, rfl⟩, ?_⟩
    refine Attempt.bind_ok.mpr ⟨_, _, (loadIrqchips_ok calm₁).mpr ⟨same ▸ loads.irqchips, rfl⟩, ?_⟩
    refine Attempt.bind_ok.mpr ⟨_, _, (loadVirtioNet_ok calm₁).mpr ⟨same ▸ loads.virtioNet, rfl⟩, ?_⟩
    exact Attempt.pure_ends.mpr ⟨rfl, rfl⟩

end Snapshot

/-! ## The whole directory -/

/-- The files of the directory are those of this snapshot. -/
structure Kept (formats : Formats) (disk : Disk) (dir : Path) (entry : Entry) (info : SnapMeta)
    (state : SavedState) : Prop where
  mem : disk.tree.entries (dir ++ ["mem"]) = some entry
  small : disk.entryLen entry ≤ maxSnapshotMemorySize
  cpu : Reads formats.parseCpu disk.tree (dir ++ ["state.json"]) state.cpu
  metadata : Reads formats.parseMeta disk.tree (dir ++ ["meta.json"]) info
  checksum : ChecksumFits formats entry info.memChecksum
  kernel : KernelFits formats disk.tree dir info.kernelVersion info.kernelHash
  placement : PlacementFits info.loadAddr (disk.entryLen entry)
  xsave : ReadsBytes disk.tree (dir ++ ["xsave.bin"]) state.xsave
  irqchips : ReadsChips disk.tree dir state.irqchips
  virtioNet : ReadsNet formats disk.tree (dir ++ ["virtio_net.json"]) state.virtioNetState
  memory : state.memory = entry.bytes.getD []
  loadAddr : state.loadAddr = info.loadAddr
  kernelVersion : state.kernelVersion = info.kernelVersion
  kernelHash : state.kernelHash = info.kernelHash

/-- What a snapshot is right after it was loaded: nothing is in memory, and the
handle is at the start of the memory file. -/
structure Snapshot.Fresh (snapshot : Snapshot) (disk opened : Disk) (dir : Path) (entry : Entry) : Prop where
  memory : snapshot.memory = []
  handle : snapshot.memFd = some disk.opened.length
  there : opened.opened[disk.opened.length]? = some ⟨.named (dir ++ ["mem"]), 0⟩
  tree : opened.tree = disk.tree
  faults : opened.faults = []
  directoryLen : opened.directoryLen = disk.directoryLen
  mem : disk.tree.entries (dir ++ ["mem"]) = some entry
  size : snapshot.memorySize.toNat = disk.entryLen entry
  bytes : snapshot.bytes opened = entry.bytes.getD []

namespace Snapshot.Fresh
variable {snapshot : Snapshot} {opened : Disk} {entry : Entry}

theorem contents (fresh : snapshot.Fresh disk opened dir entry) :
    opened.contents disk.opened.length = entry.bytes := by
  rw [Disk.contents, fresh.there, fresh.tree]
  simp [fresh.mem]

theorem offset (fresh : snapshot.Fresh disk opened dir entry) : opened.offset disk.opened.length = 0 := by
  rw [Disk.offset, fresh.there]
  rfl

end Snapshot.Fresh

theorem Snapshot.Loads.fresh {entry : Entry} {snapshot : Snapshot} (calm : disk.faults = [])
    (loads : Loads formats disk dir entry info snapshot) :
    snapshot.Fresh disk (verified dir info.memChecksum (disk.entryLen entry) (disk.openAt (dir ++ ["mem"]) 0))
      dir entry := by
  have memory : snapshot.memory = [] := congrArg Snapshot.memory loads.rest
  have handle : snapshot.memFd = some disk.opened.length := congrArg Snapshot.memFd loads.rest
  have size : snapshot.memorySize.toNat = disk.entryLen entry := by
    have small := loads.small
    rw [loads.rest]
    change (UInt64.ofNat (disk.entryLen entry)).toNat = disk.entryLen entry
    rw [UInt64.toNat_ofNat', Nat.mod_eq_of_lt]
    unfold maxSnapshotMemorySize at small
    omega
  have there : ∀ checksum length, ((verified dir checksum length
      (disk.openAt (dir ++ ["mem"]) 0)).opened[disk.opened.length]? = some ⟨.named (dir ++ ["mem"]), 0⟩) ∧
      (verified dir checksum length (disk.openAt (dir ++ ["mem"]) 0)).tree = disk.tree ∧
      (verified dir checksum length (disk.openAt (dir ++ ["mem"]) 0)).faults = [] ∧
      (verified dir checksum length (disk.openAt (dir ++ ["mem"]) 0)).directoryLen = disk.directoryLen := by
    intro checksum length
    unfold verified
    split
    · exact ⟨by simp [openAt], rfl, calm, rfl⟩
    · exact ⟨by simp [openAt], rfl, calm, rfl⟩
  obtain ⟨opened, tree, faults, directoryLen⟩ := there info.memChecksum (disk.entryLen entry)
  refine ⟨memory, handle, opened, tree, faults, directoryLen, loads.mem, size, ?_⟩
  rw [Snapshot.bytes, if_neg (not_not_intro memory), handle, Option.bind_some, Disk.contents, opened, tree]
  simp only [Option.bind_some, loads.mem]
  cases entry with
  | directory => exact List.take_nil
  | file content =>
    rw [size]
    exact List.take_length

theorem Snapshot.fresh_of_load {snapshot : Snapshot} {opened : Disk} (calm : disk.faults = [])
    (ends : (load formats dir).Ends disk (.ok snapshot) opened) :
    ∃ entry, snapshot.Fresh disk opened dir entry := by
  obtain ⟨entry, info, loads, rfl⟩ := (load_ok calm).mp ends
  exact ⟨entry, loads.fresh calm⟩

theorem holds_iff {state : SavedState} :
    Holds formats disk dir state ↔ ∃ entry info, Kept formats disk dir entry info state := by
  unfold Holds
  constructor
  · rintro ⟨snapshot, opened, ends, rfl⟩
    obtain ⟨entry, info, loads, rfl⟩ := (Snapshot.load_ok rfl).mp ends
    have rest := loads.rest
    refine ⟨entry, info, ⟨loads.mem, loads.small, loads.cpu, loads.metadata, loads.checksum, loads.kernel,
      loads.placement, loads.xsave, loads.irqchips, loads.virtioNet, (loads.fresh rfl).bytes, ?_, ?_, ?_⟩⟩
    · exact congrArg Snapshot.loadAddr rest
    · exact congrArg Snapshot.kernelVersion rest
    · exact congrArg Snapshot.kernelHash rest
  · rintro ⟨entry, info, kept⟩
    have loads : Snapshot.Loads formats { disk with faults := [] } dir entry info
        { memory := []
          memorySize := .ofNat (disk.entryLen entry)
          cpu := state.cpu
          loadAddr := info.loadAddr
          xsave := state.xsave
          irqchips := state.irqchips
          memFd := some disk.opened.length
          virtioNetState := state.virtioNetState
          kernelVersion := info.kernelVersion
          kernelHash := info.kernelHash } :=
      ⟨kept.mem, kept.small, kept.cpu, kept.metadata, kept.checksum, kept.kernel, kept.placement, kept.xsave,
        kept.irqchips, kept.virtioNet, rfl⟩
    refine ⟨_, _, (Snapshot.load_ok rfl).mpr ⟨entry, info, loads, rfl⟩, ?_⟩
    rw [Snapshot.stored, (loads.fresh rfl).bytes, Snapshot.record, ← kept.memory, ← kept.loadAddr,
      ← kept.kernelVersion, ← kept.kernelHash]

end TinyMachine.Snapshots
