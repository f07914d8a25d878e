import TinyMachine.FreshBackend
import TinyMachine.Lib.Carving
import TinyMachine.MemoryMapProofs

/-! The windows of the devices in guest-physical memory, and when the RAM slots
of a boot leave them to the devices. -/
namespace TinyMachine.MemoryMap
open Lib

def virtioMmioSize : Nat := 0x1000

/-- The virtio-net page, the IOAPIC page and the LAPIC page. -/
def deviceWindows : List Span :=
  ((FreshBackend.virtioMmioAddr, virtioMmioSize) :: reservedMmioRegions).map fun window =>
    ⟨window.1, window.1 + window.2⟩

/-- No RAM slot is over a device, so that the guest's accesses to one exit. -/
def WindowsExit (memSize : Nat) (regions : List ReservedRegion) : Prop :=
  ∀ slot ∈ bootRamSlots memSize regions, ∀ window ∈ deviceWindows, (slotSpan slot).Disjoint window

/-- The regions keep the byte out of RAM: the last of them that begins at or
before it ends behind it. They keep nothing if they would keep everything. -/
def KeptOut (memSize : Nat) (regions : List ReservedRegion) (a : Nat) : Prop :=
  Keeps (ramHoles memSize regions) a ∧ ∃ b < memSize, ¬ Keeps (ramHoles memSize regions) b

theorem slots_below {memSize a : Nat} {regions : List ReservedRegion}
    (covered : Covers (slotSpans (bootRamSlots memSize regions)) a) : a < memSize := by
  rw [bootRamSlots_spans] at covered
  split at covered
  · obtain ⟨span, member, inside⟩ := covered
    obtain rfl := List.mem_singleton.mp member
    exact inside.2
  · obtain ⟨gap, opened, inside⟩ := covered
    have bound := gaps_below ramHoles_below opened
    exact Nat.lt_of_lt_of_le inside.2 bound

theorem opens_holes_iff {memSize a : Nat} {regions : List ReservedRegion} :
    Opens 0 (ramHoles memSize regions) a ↔ ¬ Keeps (ramHoles memSize regions) a := by
  rw [← not_iff_not, not_opens_iff, not_not]
  exact or_iff_left fun behind => absurd behind.1 (Nat.not_lt_zero a)

theorem slots_cover_iff (memSize : Nat) (regions : List ReservedRegion) (a : Nat) :
    Covers (slotSpans (bootRamSlots memSize regions)) a ↔ a < memSize ∧ ¬ KeptOut memSize regions a := by
  have opens {b : Nat} (below : b < memSize) :
      Covers (gaps memSize 0 (ramHoles memSize regions)) b ↔ ¬ Keeps (ramHoles memSize regions) b :=
    (gaps_covers_iff 0 (ramHoles_ordered memSize regions) below).trans opens_holes_iff
  constructor
  · intro covered
    have below := slots_below covered
    refine ⟨below, fun ⟨keeps, b, inside, left⟩ => ?_⟩
    rw [bootRamSlots_spans] at covered
    split at covered
    · rename_i none
      rw [← opens inside, none] at left
      exact absurd left (covers_nil b)
    · exact (opens below).mp covered keeps
  · rintro ⟨below, free⟩
    rw [bootRamSlots_spans]
    split
    · exact (covers_cons ..).mpr (.inl ⟨Nat.zero_le a, below⟩)
    · rename_i swept
      refine (opens below).mpr fun keeps => free ⟨keeps, ?_⟩
      obtain ⟨gap, opened⟩ := List.exists_mem_of_ne_nil _ swept
      have positive := gaps_nonempty opened
      have bound := gaps_below ramHoles_below opened
      have inside : gap.start < memSize := by omega
      exact ⟨gap.start, inside, (opens inside).mp ⟨gap, opened, Nat.le_refl _, positive⟩⟩

/-- The slots leave the windows alone exactly if the regions keep every byte of
a window that is below the end of memory. -/
theorem windowsExit_iff (memSize : Nat) (regions : List ReservedRegion) :
    WindowsExit memSize regions ↔
      ∀ window ∈ deviceWindows, ∀ a, window.Has a → a < memSize → KeptOut memSize regions a := by
  constructor
  · intro exits window member a inside below
    by_contra free
    obtain ⟨span, declared, inSlot⟩ := (slots_cover_iff memSize regions a).mpr ⟨below, free⟩
    obtain ⟨slot, slotMember, rfl⟩ := List.mem_map.mp declared
    exact exits slot slotMember window member a inSlot inside
  · intro kept slot slotMember window member a inSlot inside
    have ram := (slots_cover_iff memSize regions a).mp ⟨_, List.mem_map_of_mem slotMember, inSlot⟩
    exact ram.2 (kept window member a inside ram.1)

theorem not_keptOut_without_regions {memSize a : Nat} : ¬ KeptOut memSize [] a := fun kept => not_keeps_nil kept.1

theorem windows_above : ∀ window ∈ deviceWindows, 0xFEBF0000 ≤ window.start := by decide

/-- The variants whose memory is cut off at the IOAPIC. -/
def pytorchNames : List String := ["pytorch", "pytorch-cpu", "pytorch-nv"]

theorem bootMemorySizeBytes_pytorch {name : String} (pytorch : name ∈ pytorchNames) :
    FreshBackend.bootMemorySizeBytes name = 0xFEC00000 := by
  revert name
  decide

theorem bootMemorySizeBytes_small {name : String} (other : name ∉ pytorchNames) :
    FreshBackend.bootMemorySizeBytes name ≤ 0xFEBF0000 := by
  simp only [pytorchNames, List.mem_cons, List.not_mem_nil, or_false, not_or] at other
  unfold FreshBackend.bootMemorySizeBytes
  split
  all_goals first | omega | simp_all

/-- RAM leaves the device windows alone exactly if the reserved regions keep
every byte of a window below the end of memory; with the built-in memory sizes
and any regions, exactly for the variants without PyTorch. -/
theorem ram_leaves_windows_iff (config : BootConfig) (name : String) :
    (WindowsExit config.memorySize config.reservedRegions ↔
      ∀ window ∈ deviceWindows, ∀ a, window.Has a → a < config.memorySize →
        KeptOut config.memorySize config.reservedRegions a) ∧
    ((∀ regions, WindowsExit (FreshBackend.bootMemorySizeBytes name) regions) ↔ name ∉ pytorchNames) := by
  refine ⟨windowsExit_iff config.memorySize config.reservedRegions, ?_⟩
  constructor
  · intro exits pytorch
    have kept := (windowsExit_iff _ _).mp (exits [])
    refine not_keptOut_without_regions (kept _ List.mem_cons_self 0xFEBF0000 (by decide) ?_)
    rw [bootMemorySizeBytes_pytorch pytorch]
    decide
  · intro other regions
    refine (windowsExit_iff _ _).mpr fun window member a inside below => ?_
    have low := windows_above window member
    have small := bootMemorySizeBytes_small other
    unfold Span.Has at inside
    omega

/-- Four gigabytes without reserved regions pass validation and are over every
window. -/
theorem four_gigabytes_shadow_windows : ¬ ∀ (fileExists : String → Bool) (config : BootConfig),
    config.validate fileExists = .ok () → WindowsExit config.memorySize config.reservedRegions := by
  intro exits
  have valid : BootConfig.validate (fun _ => true) { BootConfig.default with memorySize := 0x100000000 } = .ok () := by
    decide
  have kept := (windowsExit_iff _ _).mp (exits _ _ valid)
  exact not_keptOut_without_regions (kept _ List.mem_cons_self 0xFEBF0000 (by decide) (by decide))

end TinyMachine.MemoryMap
