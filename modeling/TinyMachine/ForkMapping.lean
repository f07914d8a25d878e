import TinyMachine.MemoryMapProofs

/-! Whether a fork finds its memory where the booted VM had it: boot backs
guest-physical addresses from 0 on, with the reserved regions cut out, and a
fork backs one range from `load_addr` on with the same bytes. -/
namespace TinyMachine.ForkMapping
open Lib MemoryMap

theorem setMemoryRegions_ok {kvm : KvmSlots} {installed slots result : List MemorySlot}
    (accepted : setMemoryRegions kvm installed slots = .ok result) : result = installed ++ slots := by
  induction slots generalizing installed with
  | nil => simpa [setMemoryRegions, eq_comm] using accepted
  | cons slot rest ih =>
    simp only [setMemoryRegions, bind, Except.bind] at accepted
    split at accepted
    · contradiction
    · simpa using ih accepted

/-- Reading through slots is reading the host memory at one fixed distance,
where all slots keep that distance. -/
theorem read_slots {slots : List MemorySlot} (memory : Memory) (base gpa : Nat)
    (same : ∀ slot ∈ slots, slot.guestPhysAddr = base + slot.hostOffset) :
    (GuestRam.mk slots memory).read gpa =
      if Covers (slotSpans slots) gpa then some (memory (gpa - base)) else none := by
  induction slots with
  | nil => simp [GuestRam.read, slotSpans]
  | cons slot rest ih =>
    have here := same slot List.mem_cons_self
    have tail := ih fun other member => same other (List.mem_cons_of_mem _ member)
    simp only [GuestRam.read, slotSpans] at tail
    by_cases inside : slot.guestPhysAddr ≤ gpa ∧ gpa < slot.guestPhysAddr + slot.memorySize
    · have distance : slot.hostOffset + (gpa - slot.guestPhysAddr) = gpa - base := by omega
      simp [GuestRam.read, slotSpans, slotSpan, Span.Has, inside, distance]
    · have missed : (decide (slot.guestPhysAddr ≤ gpa) &&
          decide (gpa < slot.guestPhysAddr + slot.memorySize)) = false := by
        simpa using inside
      by_cases covered : Covers (rest.map slotSpan) gpa <;>
        simpa [GuestRam.read, slotSpans, slotSpan, Span.Has, inside, missed, covered] using tail

theorem bootRamSlots_in_place {memSize : Nat} {regions : List ReservedRegion} :
    ∀ slot ∈ bootRamSlots memSize regions, slot.guestPhysAddr = 0 + slot.hostOffset := by
  have swept (ramSlot currentStart : Nat) (holes : List Span) :
      ∀ slot ∈ ramSlotsFrom memSize ramSlot currentStart holes,
        slot.guestPhysAddr = 0 + slot.hostOffset := by
    induction holes generalizing ramSlot currentStart with
    | nil =>
      simp only [ramSlotsFrom]
      split <;> simp
    | cons hole holes ih =>
      simp only [ramSlotsFrom]
      split
      · simpa using ih (ramSlot + 1) hole.stop
      · exact ih ramSlot hole.stop
  unfold bootRamSlots
  split
  · simp
  · exact swept 0 0 _

/-- What the booted VM reads. -/
theorem read_booted {kvm : KvmSlots} {config : BootConfig} {memory : Memory} {vm : BootedRam}
    (booted : bootRam kvm config memory = .ok vm) (gpa : Nat) :
    vm.ram.read gpa =
      if Covers (slotSpans (bootRamSlots config.memorySize config.reservedRegions)) gpa then
        some (memory gpa) else none := by
  simp only [bootRam, bind, Except.bind, pure, Except.pure] at booted
  split at booted
  · contradiction
  · next slots accepted =>
    cases booted
    obtain rfl := setMemoryRegions_ok accepted
    simpa using read_slots memory 0 gpa bootRamSlots_in_place

/-- What a fork of its snapshot reads. -/
theorem read_forked {kvm kvm' : KvmSlots} {config : BootConfig} {memory : Memory} {vm : BootedRam}
    {fork : GuestRam} (booted : bootRam kvm config memory = .ok vm)
    (forked : vm.captureSnapshot.fork kvm' = .ok fork) (gpa : Nat) :
    fork.read gpa =
      if config.loadAddr ≤ gpa ∧ gpa < config.loadAddr + config.memorySize then
        some (memory (gpa - config.loadAddr)) else none := by
  simp only [bootRam, bind, Except.bind, pure, Except.pure] at booted
  split at booted
  · contradiction
  cases booted
  simp only [SnapshotRam.fork, BootedRam.captureSnapshot, bind, Except.bind, pure, Except.pure,
    throw, throwThe, MonadExceptOf.throw, Memory.length_fetch] at forked
  split at forked
  · contradiction
  split at forked
  · contradiction
  next slots accepted =>
    cases forked
    obtain rfl := setMemoryRegions_ok accepted
    rw [List.nil_append, read_slots _ config.loadAddr gpa (by simp)]
    simp only [slotSpans, slotSpan, List.map_cons, List.map_nil, covers_cons, covers_nil, or_false,
      Span.Has]
    split
    · rw [Memory.store_inside (Nat.zero_le _) (by rw [Memory.length_fetch]; omega)]
      simp
    · rfl

/-- The fork has the booted VM's RAM: the same addresses, with the same bytes. -/
def SameRam (vm : BootedRam) (fork : GuestRam) : Prop := ∀ gpa, fork.read gpa = vm.ram.read gpa

/-- The slots of boot leave nothing out exactly when the sweep over the holes
opens every byte of RAM, or none of them, and falls back to a single slot. -/
theorem slots_cover_all_iff {memSize : Nat} (regions : List ReservedRegion) :
    (∀ a, a < memSize → Covers (slotSpans (bootRamSlots memSize regions)) a) ↔
      (∀ a, a < memSize → Opens 0 (ramHoles memSize regions) a) ∨
        ∀ a, a < memSize → ¬ Opens 0 (ramHoles memSize regions) a := by
  have opens {a : Nat} (below : a < memSize) :=
    gaps_covers_iff 0 (ramHoles_ordered memSize regions) below
  rw [bootRamSlots_spans]
  split
  · next none =>
    refine ⟨fun _ => .inr fun a below opened => ?_, fun _ a below => ?_⟩
    · have := (opens below).mpr opened
      rw [none] at this
      exact covers_nil a this
    · simpa [Span.Has] using below
  · next found =>
    constructor
    · exact fun all => .inl fun a below => (opens below).mp (all a below)
    · rintro (all | never) a below
      · exact (opens below).mpr (all a below)
      · obtain ⟨gap, opened⟩ := List.exists_mem_of_ne_nil _ found
        have nonempty := gaps_nonempty opened
        have inside := gaps_below ramHoles_below opened
        exact absurd ((opens (by omega)).mp ⟨gap, opened, Nat.le_refl _, nonempty⟩)
          (never gap.start (by omega))

/-- A fork sees the memory its template was booted with exactly when RAM is
loaded at address 0 and the reserved regions cut nothing out of it. -/
theorem fork_reads_booted_memory_iff {fileExists : String → Bool} {kvm kvm' : KvmSlots}
    {config : BootConfig} {memory : Memory} {vm : BootedRam} {fork : GuestRam}
    (valid : config.validate fileExists = .ok ()) (booted : bootRam kvm config memory = .ok vm)
    (forked : vm.captureSnapshot.fork kvm' = .ok fork) :
    SameRam vm fork ↔ config.loadAddr = 0 ∧
      ((∀ a, a < config.memorySize →
          Opens 0 (ramHoles config.memorySize config.reservedRegions) a) ∨
        ∀ a, a < config.memorySize →
          ¬ Opens 0 (ramHoles config.memorySize config.reservedRegions) a) := by
  have enough := (BootConfig.validate_bounds valid).1
  have inside {gpa : Nat}
      (covered : Covers (slotSpans (bootRamSlots config.memorySize config.reservedRegions)) gpa) :
      gpa < config.memorySize := by
    rw [bootRamSlots_spans] at covered
    split at covered
    · simpa [Span.Has] using covered
    · obtain ⟨gap, opened, inGap⟩ := covered
      have := gaps_below ramHoles_below opened
      unfold Span.Has at inGap
      omega
  rw [← slots_cover_all_iff]
  unfold SameRam
  simp only [read_booted booted, read_forked booted forked]
  constructor
  · intro same
    have base : config.loadAddr = 0 := by
      have top := same (config.loadAddr + config.memorySize - 1)
      rw [if_pos (by omega)] at top
      split at top
      · next covered => have := inside covered; omega
      · contradiction
    refine ⟨base, fun a below => ?_⟩
    have here := same a
    rw [if_pos (by omega)] at here
    split at here
    · assumption
    · contradiction
  · rintro ⟨base, covered⟩ gpa
    by_cases below : gpa < config.memorySize
    · rw [if_pos (by omega), if_pos (covered gpa below), base, Nat.sub_zero]
    · rw [if_neg (by omega), if_neg (mt inside below)]

private def acceptAll : KvmSlots := fun _ _ => .ok ()

private theorem acceptAll_installs (installed slots : List MemorySlot) :
    setMemoryRegions acceptAll installed slots = .ok (installed ++ slots) := by
  induction slots generalizing installed with
  | nil => simp [setMemoryRegions]
  | cons slot rest ih => simp [setMemoryRegions, acceptAll, bind, Except.bind, ih]

/-- A KVM that accepts all slots lets every valid configuration boot and its
snapshot fork. -/
private theorem boots_and_forks (config : BootConfig) (memory : Memory)
    (positive : 0 < config.memorySize) :
    ∃ vm fork, bootRam acceptAll config memory = .ok vm ∧
      vm.captureSnapshot.fork acceptAll = .ok fork := by
  let vm : BootedRam := ⟨⟨bootRamSlots config.memorySize config.reservedRegions, memory⟩,
    config.memorySize, config.loadAddr⟩
  let snapshot := vm.captureSnapshot
  have filled : snapshot.memory.isEmpty = false := by
    cases block : snapshot.memory with
    | nil =>
      have length : snapshot.memory.length = config.memorySize := Memory.length_fetch ..
      rw [block, List.length_nil] at length
      omega
    | cons byte rest => rfl
  refine ⟨vm, ⟨[⟨0, snapshot.loadAddr, snapshot.memorySize, 0⟩], Memory.zeroed.store 0 snapshot.memory⟩,
    ?_, ?_⟩
  · simp only [bootRam, acceptAll_installs, bind, Except.bind, pure, Except.pure, List.nil_append, vm]
  · change snapshot.fork acceptAll = _
    simp only [SnapshotRam.fork, filled, acceptAll_installs, bind, Except.bind, pure, Except.pure,
      List.nil_append, Bool.false_eq_true, if_false]

private def kernelAt (loadAddr : Nat) : BootConfig :=
  { BootConfig.default with kernelPath := "vmlinux", loadAddr := loadAddr }

/-- A template loaded at address 0, without reserved regions, is forked in
place. -/
theorem template_at_zero_is_forked_in_place :
    ∃ vm fork, bootRam acceptAll (kernelAt 0) Memory.zeroed = .ok vm ∧
      vm.captureSnapshot.fork acceptAll = .ok fork ∧ SameRam vm fork := by
  obtain ⟨vm, fork, booted, forked⟩ := boots_and_forks (kernelAt 0) Memory.zeroed (by decide)
  refine ⟨vm, fork, booted, forked, ?_⟩
  have valid : (kernelAt 0).validate (fun _ => true) = .ok () := rfl
  refine (fork_reads_booted_memory_iff valid booted forked).mpr
    ⟨rfl, .inl fun a _ => .inl ⟨Nat.zero_le a, fun hole member => ?_⟩⟩
  obtain ⟨region, declared, -⟩ := mem_ramHoles.mp member
  cases declared

/-- With the default load address, the first byte of RAM is not there in the
fork. -/
theorem default_load_addr_moves_ram :
    (kernelAt defaultLoadAddr).validate (fun _ => true) = .ok () ∧
      ∃ vm fork, bootRam acceptAll (kernelAt defaultLoadAddr) Memory.zeroed = .ok vm ∧
        vm.captureSnapshot.fork acceptAll = .ok fork ∧
        vm.ram.read 0 = some 0 ∧ fork.read 0 = none ∧ ¬ SameRam vm fork := by
  obtain ⟨vm, fork, booted, forked⟩ := boots_and_forks (kernelAt defaultLoadAddr) Memory.zeroed
    (by decide)
  have before : vm.ram.read 0 = some 0 := by
    rw [read_booted booted, if_pos (by decide)]; rfl
  have after : fork.read 0 = none := by
    rw [read_forked booted forked, if_neg (by decide)]
  refine ⟨rfl, vm, fork, booted, forked, before, after, fun same => ?_⟩
  have here := same 0
  rw [before, after] at here
  contradiction

end TinyMachine.ForkMapping
