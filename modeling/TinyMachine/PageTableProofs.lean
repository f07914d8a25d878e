import TinyMachine.Lib.Paging
import TinyMachine.PageTables

/-! What the early page tables translate. The page directory serves both
mappings, but only its first table of 512 entries is reachable: it grows over
the directory pointer table behind it, and the first pointer table never gets
a second entry. -/
namespace TinyMachine.PageTables
open Lib Paging

/-- The tables are built as long as their directory has at most 2048 entries. -/
theorem setupPageTables_ok_iff {mem tables : Memory} {memSize : Nat} :
    setupPageTables mem memSize = .ok tables ↔
      numPdEntries memSize ≤ 2048 ∧ writePageTables mem memSize = tables := by
  simp only [setupPageTables, bind, Except.bind, pure, Except.pure, throw, throwThe,
    MonadExceptOf.throw]
  split
  · next large =>
    unfold pdAddr at large
    simp only [reduceCtorEq, false_iff]
    omega
  · next fits =>
    unfold pdAddr at fits
    simp only [Except.ok.injEq, iff_and_self]
    omega

/-- Every byte of RAM lies in the page of some directory entry. -/
theorem page_counted {memSize va : Nat} (below : va < memSize) :
    va / 2 ^ 21 < numPdEntries memSize := by
  unfold numPdEntries pageSize2MB
  omega

/-- The directory loop writes its own entries only. -/
theorem readLE_writePdEntries_outside {mem : Memory} {count addr : Nat}
    (outside : addr + 8 ≤ pdAddr ∨ pdAddr + count * 8 ≤ addr) :
    (writePdEntries mem count).readLE addr 8 = mem.readLE addr 8 := by
  induction count with
  | zero => rfl
  | succ i ih =>
    rw [writePdEntries, writeGuestU64, Memory.readLE_storeLE_disjoint (by omega), ih (by omega)]

/-- A directory entry is its page's address with three flags. -/
theorem pdEntry_eq (i : Nat) : pdEntry i = 2 ^ 21 * i + 0x83 := by
  have flags : ptPresent ||| ptRw ||| ptPs = 0x83 := by decide
  rw [pdEntry, Nat.or_assoc, Nat.or_assoc, ← Nat.or_assoc ptPresent, flags,
    Nat.two_pow_add_eq_or_of_lt (by omega), pageSize2MB, Nat.mul_comm i]

theorem readLE_writePdEntries {mem : Memory} {count i : Nat} (small : count ≤ 2048) (within : i < count) :
    (writePdEntries mem count).readLE (pdAddr + i * 8) 8 = pdEntry i := by
  induction count with
  | zero => omega
  | succ last ih =>
    rw [writePdEntries, writeGuestU64]
    rcases Nat.lt_succ_iff_lt_or_eq.mp within with earlier | rfl
    · rw [Memory.readLE_storeLE_disjoint (by omega), ih (by omega) earlier]
    · rw [Memory.readLE_storeLE_self, Nat.mod_eq_of_lt]
      rw [pdEntry_eq]
      omega

theorem pdEntry_usable (i : Nat) : Usable (pdEntry i) ∧ (pdEntry i).testBit pageSizeBit = true := by
  rw [pdEntry_eq]
  simp only [Usable, Nat.testBit_two_pow_mul_add i (show 0x83 < 2 ^ 21 by decide), presentBit,
    writableBit, pageSizeBit, if_pos (show 0 < 21 by decide),
    if_pos (show 1 < 21 by decide), if_pos (show 7 < 21 by decide)]
  decide

theorem pdEntry_frame {i : Nat} (small : i < 2048) : frame (pdEntry i) / 2 ^ 21 * 2 ^ 21 = i * 2 ^ 21 := by
  rw [pdEntry_eq, frame]
  omega

/-- The parts of the tables a walk goes through on its way to the directory. -/
structure Linked (tables : Memory) (entries : Nat) : Prop where
  pml4Low : tables.readLE pml4Addr 8 = pdpAddr ||| ptPresent ||| ptRw
  pml4High : tables.readLE (pml4Addr + 511 * 8) 8 = pdp1Addr ||| ptPresent ||| ptRw
  pdp : tables.readLE pdpAddr 8 = pdAddr ||| ptPresent ||| ptRw
  pdp1 : entries ≤ 512 → tables.readLE (pdp1Addr + 510 * 8) 8 = pdAddr ||| ptPresent ||| ptRw
  pd : ∀ i < entries, tables.readLE (pdAddr + i * 8) 8 = pdEntry i

/-- What `setup_page_tables` leaves behind, over whatever was there before. -/
theorem writePageTables_linked (mem : Memory) {memSize : Nat} (small : numPdEntries memSize ≤ 2048) :
    Linked (writePageTables mem memSize) (numPdEntries memSize) := by
  have pointers : ∀ address ∈ [pdpAddr, pdp1Addr, pdAddr],
      (address ||| ptPresent ||| ptRw) % 256 ^ 8 = address ||| ptPresent ||| ptRw := by decide
  have pdp := pointers pdpAddr (by simp)
  have pdp1 := pointers pdp1Addr (by simp)
  have pd := pointers pdAddr (by simp)
  constructor
  · rw [writePageTables, readLE_writePdEntries_outside (.inl (by decide))]
    simp only [writeGuestU64]
    rw [Memory.readLE_storeLE_disjoint (by decide), Memory.readLE_storeLE_disjoint (by decide),
      Memory.readLE_storeLE_disjoint (by decide), Memory.readLE_storeLE_self, pdp]
  · rw [writePageTables, readLE_writePdEntries_outside (.inl (by decide))]
    simp only [writeGuestU64]
    rw [Memory.readLE_storeLE_disjoint (by decide), Memory.readLE_storeLE_disjoint (by decide),
      Memory.readLE_storeLE_self, pdp1]
  · rw [writePageTables, readLE_writePdEntries_outside (.inl (by decide))]
    simp only [writeGuestU64]
    rw [Memory.readLE_storeLE_disjoint (by decide), Memory.readLE_storeLE_self, pd]
  · intro reachable
    rw [writePageTables, readLE_writePdEntries_outside (by unfold pdAddr pdp1Addr; omega)]
    simp only [writeGuestU64]
    rw [Memory.readLE_storeLE_self, pd]
  · intro i within
    rw [writePageTables, readLE_writePdEntries small within]

/-- A walk that arrives at the directory ends in the identity mapping. -/
theorem walk_directory {tables : Memory} {entries va page : Nat} (linked : Linked tables entries)
    (small : entries ≤ 2048) (selected : index 2 va = page) (within : page < entries) :
    walk tables 2 pdAddr va = some (page * 2 ^ 21 + va % 2 ^ 21) := by
  have entry : entryAt tables 2 pdAddr va = pdEntry page := by
    rw [entryAt, selected, linked.pd page within]
  rw [walk_large (entry ▸ (pdEntry_usable page).1) (entry ▸ (pdEntry_usable page).2), entry,
    pdEntry_frame (by omega)]

/-- Low addresses are mapped to themselves as far as one directory reaches. -/
theorem translate_identity {tables : Memory} {entries va : Nat} (linked : Linked tables entries)
    (small : entries ≤ 2048) (within : va / 2 ^ 21 < entries) (low : va < 2 ^ 30) :
    translate tables pml4Addr va = some va := by
  have at4 : entryAt tables 4 pml4Addr va = pdpAddr ||| ptPresent ||| ptRw := by
    have first : index 4 va = 0 := by simp only [index, shift]; omega
    rw [entryAt, first, Nat.zero_mul, Nat.add_zero, linked.pml4Low]
  have at3 : entryAt tables 3 pdpAddr va = pdAddr ||| ptPresent ||| ptRw := by
    have first : index 3 va = 0 := by simp only [index, shift]; omega
    rw [entryAt, first, Nat.zero_mul, Nat.add_zero, linked.pdp]
  have at2 : index 2 va = va / 2 ^ 21 := by simp only [index, shift]; omega
  rw [Paging.translate, show frame pml4Addr = pml4Addr by decide,
    walk_table pdpAddr (at4 ▸ by decide) (at4 ▸ by decide) (at4 ▸ by decide),
    walk_table pdAddr (at3 ▸ by decide) (at3 ▸ by decide) (at3 ▸ by decide),
    walk_directory linked small at2 within, Nat.div_add_mod']

/-- The base of the kernel's virtual mapping. -/
def kernelBase : Nat := 0xffffffff80000000

/-- The kernel mapping reaches the directory through the second pointer table,
as long as the directory has not grown over that table. -/
theorem translate_kernel {tables : Memory} {entries x : Nat} (linked : Linked tables entries)
    (one : entries ≤ 512) (within : x / 2 ^ 21 < entries) :
    translate tables pml4Addr (kernelBase + x) = some x := by
  have at4 : entryAt tables 4 pml4Addr (kernelBase + x) = pdp1Addr ||| ptPresent ||| ptRw := by
    have last : index 4 (kernelBase + x) = 511 := by simp only [index, shift, kernelBase]; omega
    rw [entryAt, last, linked.pml4High]
  have at3 : entryAt tables 3 pdp1Addr (kernelBase + x) = pdAddr ||| ptPresent ||| ptRw := by
    have last : index 3 (kernelBase + x) = 510 := by simp only [index, shift, kernelBase]; omega
    rw [entryAt, last, linked.pdp1 one]
  have at2 : index 2 (kernelBase + x) = x / 2 ^ 21 := by
    simp only [index, shift, kernelBase]; omega
  have inPage : (kernelBase + x) % 2 ^ 21 = x % 2 ^ 21 := by unfold kernelBase; omega
  rw [Paging.translate, show frame pml4Addr = pml4Addr by decide,
    walk_table pdp1Addr (at4 ▸ by decide) (at4 ▸ by decide) (at4 ▸ by decide),
    walk_table pdAddr (at3 ▸ by decide) (at3 ▸ by decide) (at3 ▸ by decide),
    walk_directory linked (by omega) at2 within, inPage, Nat.div_add_mod']

/-- The first pointer table has one entry; the rest is as it was before. -/
theorem translate_second_gib {mem : Memory} {memSize : Nat} (small : numPdEntries memSize ≤ 2048)
    (clear : mem.readLE (pdpAddr + 8) 8 = 0) :
    translate (writePageTables mem memSize) pml4Addr (2 ^ 30) = none := by
  have linked := writePageTables_linked mem small
  have at4 : entryAt (writePageTables mem memSize) 4 pml4Addr (2 ^ 30) =
      pdpAddr ||| ptPresent ||| ptRw := linked.pml4Low
  have at3 : entryAt (writePageTables mem memSize) 3 pdpAddr (2 ^ 30) = 0 := by
    change (writePageTables mem memSize).readLE (pdpAddr + 8) 8 = 0
    rw [writePageTables, readLE_writePdEntries_outside (.inl (by decide))]
    simp only [writeGuestU64]
    rw [Memory.readLE_storeLE_disjoint (by decide), Memory.readLE_storeLE_disjoint (by decide),
      Memory.readLE_storeLE_disjoint (by decide), Memory.readLE_storeLE_disjoint (by decide), clear]
  rw [Paging.translate, show frame pml4Addr = pml4Addr by decide,
    walk_table pdpAddr (at4 ▸ by decide) (at4 ▸ by decide) (at4 ▸ by decide),
    walk_missing (at3 ▸ by decide)]

/-- All RAM is mapped to itself, and its first gigabyte once more at the
kernel's virtual base. -/
def MapsAllRam (tables : Memory) (memSize : Nat) : Prop :=
  (∀ va, va < memSize → translate tables pml4Addr va = some va) ∧
    ∀ x, x < min memSize (2 ^ 30) → translate tables pml4Addr (kernelBase + x) = some x

private theorem gib_pages {memSize : Nat} (reachable : memSize ≤ 2 ^ 30) : numPdEntries memSize ≤ 512 := by
  unfold numPdEntries pageSize2MB
  omega

/-- The tables that are built for some memory size map all of RAM exactly up
to 1 GB: below that over any earlier contents of memory, and above it never,
unless something was left in the second entry of the first pointer table. -/
theorem page_tables_map_all_ram_iff {mem tables : Memory} {memSize : Nat}
    (built : setupPageTables mem memSize = .ok tables) :
    (memSize ≤ 2 ^ 30 → MapsAllRam tables memSize) ∧
      (mem.readLE (pdpAddr + 8) 8 = 0 → (MapsAllRam tables memSize ↔ memSize ≤ 2 ^ 30)) := by
  obtain ⟨small, rfl⟩ := setupPageTables_ok_iff.mp built
  have linked := writePageTables_linked mem small
  have maps (reachable : memSize ≤ 2 ^ 30) : MapsAllRam (writePageTables mem memSize) memSize :=
    ⟨fun va below => translate_identity linked small (page_counted below) (by omega),
      fun x below => translate_kernel linked (gib_pages reachable) (page_counted (by omega))⟩
  refine ⟨maps, fun clear => ⟨fun mapped => ?_, maps⟩⟩
  by_contra large
  have second := mapped.1 (2 ^ 30) (by omega)
  rw [translate_second_gib small clear] at second
  exact Option.some_ne_none _ second.symm

/-- The tables of the default memory size. -/
theorem default_tables_map_all_ram :
    MapsAllRam (writePageTables Memory.zeroed defaultMemorySize) defaultMemorySize :=
  have built : setupPageTables Memory.zeroed defaultMemorySize =
      .ok (writePageTables Memory.zeroed defaultMemorySize) :=
    setupPageTables_ok_iff.mpr ⟨by decide, rfl⟩
  (page_tables_map_all_ram_iff built).1 (by decide)

private def sized (memorySize : Nat) : BootConfig :=
  { BootConfig.default with kernelPath := "vmlinux", memorySize := memorySize }

/-- With 2 GB, which boot accepts, the second gigabyte is not mapped. -/
theorem two_gib_not_mapped :
    (sized (2 ^ 31)).validate (fun _ => true) = .ok () ∧
      setupPageTables Memory.zeroed (2 ^ 31) = .ok (writePageTables Memory.zeroed (2 ^ 31)) ∧
      ¬ MapsAllRam (writePageTables Memory.zeroed (2 ^ 31)) (2 ^ 31) := by
  refine ⟨rfl, setupPageTables_ok_iff.mpr ⟨by decide, rfl⟩, fun mapped => ?_⟩
  have second := mapped.1 (2 ^ 30) (by decide)
  rw [translate_second_gib (by decide) (by decide)] at second
  exact Option.some_ne_none _ second.symm

end TinyMachine.PageTables
