import Mathlib.Data.List.Induction
import TinyMachine.BootPlacement
import TinyMachine.Lib.Carving

/-! The E820 table of main memory: which bytes it declares usable, and how much
room it takes in `boot_params`. -/
namespace TinyMachine.MemoryMap
open Lib

/-! ## Main memory -/

def entrySpan (entry : E820Entry) : Span := ⟨entry.addr, entry.addr + entry.size⟩

/-- The usable entries for main memory. -/
def mainUsable (entries : List E820Entry) : List Span :=
  (entries.filter fun entry => entry.ty = e820TypeUsable ∧ mainRamStart ≤ entry.addr).map entrySpan

theorem mainUsable_append (front back : List E820Entry) :
    mainUsable (front ++ back) = mainUsable front ++ mainUsable back := by
  simp [mainUsable]

theorem mainUsable_writeEntry {addr size : Nat} (main : mainRamStart ≤ addr) :
    mainUsable (writeEntry addr size e820TypeUsable) = between addr (addr + size) := by
  by_cases empty : size = 0
  · simp [writeEntry, mainUsable, between, empty]
  · have positive : addr < addr + size := by omega
    simp [writeEntry, mainUsable, entrySpan, between, empty, main, positive]

theorem mainUsable_reserved (addr size : Nat) : mainUsable (writeEntry addr size e820TypeReserved) = [] := by
  have other : e820TypeReserved ≠ e820TypeUsable := by decide
  unfold writeEntry
  split
  · rfl
  · simp [mainUsable, other]

/-- The loop over upright regions carves them out of what is in front of it. -/
theorem e820MainRam_carves (mode : Overflow) {mainRamEnd current : Nat} {regions : List ReservedRegion}
    (ordered : Ordered regions) (upright : ∀ region ∈ regions, region.start ≤ region.stop)
    (inside : ∀ region ∈ regions, region.start ≤ mainRamEnd) (from' : mainRamStart ≤ current) :
    ∃ entries, e820MainRam mode mainRamEnd current regions = some entries ∧
      Carves current mainRamEnd regions (mainUsable entries) := by
  induction regions generalizing current with
  | nil =>
    refine ⟨_, rfl, ?_⟩
    split
    · rename_i left
      rw [mainUsable_writeEntry from', Nat.add_sub_cancel' (Nat.le_of_lt left)]
      exact .whole current mainRamEnd
    · rename_i full
      rw [show mainUsable [] = between current mainRamEnd from (if_neg full).symm]
      exact .whole current mainRamEnd
  | cons region rest ih =>
    obtain ⟨behind, orderedRest⟩ := List.pairwise_cons.mp ordered
    have later {next : Nat} (after : mainRamStart ≤ next) := ih orderedRest
      (fun other member => upright other (List.mem_cons_of_mem region member))
      (fun other member => inside other (List.mem_cons_of_mem region member)) after
    have straight := upright region List.mem_cons_self
    have bound := inside region List.mem_cons_self
    simp only [e820MainRam]
    split
    · rename_i skipped
      obtain ⟨entries, built, carves⟩ := later from'
      refine ⟨entries, built, carves.beside ?_⟩
      have reach : max region.start mainRamStart ≤ max current region.start := by omega
      omega
    · rename_i within
      split
      · rename_i started
        obtain ⟨entries, built, carves⟩ := @later (min region.stop mainRamEnd) (by omega)
        exact ⟨entries, built, carves.advance (Nat.le_trans (Nat.le_max_left ..) started) (by omega)⟩
      · rename_i beyond
        obtain ⟨entries, built, carves⟩ := @later (min region.stop mainRamEnd) (by omega)
        have start : max region.start mainRamStart = region.start := by omega
        rw [start] at beyond ⊢
        have fits : region.start ≤ min region.stop mainRamEnd := by omega
        rw [Overflow.fit_of_fits fits, built]
        refine ⟨_, rfl, ?_⟩
        rw [mainUsable_append, mainUsable_append, mainUsable_writeEntry from', mainUsable_reserved, List.append_nil,
          Nat.add_sub_cancel' (by omega), between, if_pos (by omega)]
        exact carves.cut (by omega) fits behind

theorem mainUsable_low : mainUsable (writeEntry 0 0x50000 e820TypeUsable ++
    writeEntry 0x50000 0x30000 e820TypeReserved ++ writeEntry 0x80000 0x1FC00 e820TypeUsable) = [] := by
  decide

/-- Main memory in the table is what the reserved regions leave of it. -/
theorem e820_main_ram_is_the_complement (mode : Overflow) {memSize : Nat} (regions : List ReservedRegion)
    (upright : ∀ region ∈ regions, region.start ≤ region.stop) :
    ∃ entries, e820Entries mode memSize regions = some entries ∧
      (mainUsable entries).Pairwise (fun low high => low.stop ≤ high.start) ∧
      (∀ span ∈ mainUsable entries, span.start < span.stop) ∧
      ∀ a, Covers (mainUsable entries) a ↔ 0x100000 ≤ a ∧ a < memSize ∧ ¬ Covers regions a := by
  obtain ⟨main, built, carves⟩ := e820MainRam_carves mode (e820Regions_ordered memSize regions)
    (fun region member => upright region (mem_e820Regions.mp member).1)
    (fun region member => Nat.le_of_lt (mem_e820Regions.mp member).2.1) (Nat.le_refl mainRamStart)
  refine ⟨_, by simp only [e820Entries, built]; rfl, ?_⟩
  rw [mainUsable_append, mainUsable_low, List.nil_append]
  refine ⟨carves.ascending, carves.nonempty, fun a => ?_⟩
  rw [carves.covers]
  constructor
  · rintro ⟨low, high, outside⟩
    refine ⟨low, high, ?_⟩
    rintro ⟨region, member, inRegion⟩
    refine outside ⟨region, ?_, inRegion⟩
    unfold Span.Has at inRegion
    unfold mainRamStart at low
    exact mem_e820Regions.mpr ⟨member, by omega, by unfold mainRamStart; omega⟩
  · rintro ⟨low, high, outside⟩
    refine ⟨low, high, ?_⟩
    rintro ⟨region, member, inRegion⟩
    refine outside ⟨region, ?_, inRegion⟩
    exact (mem_e820Regions.mp member).1

/-- Nested, empty, low and touching regions in no order. -/
theorem overlapping_regions_are_carved : ∃ entries,
    e820Entries .checked 0x4000000 [⟨0x300000, 0x500000⟩, ⟨0x200000, 0x200000⟩, ⟨0x350000, 0x400000⟩,
        ⟨0x80000, 0x180000⟩, ⟨0x500000, 0x600000⟩] = some entries ∧
      (mainUsable entries).Pairwise (fun low high => low.stop ≤ high.start) ∧
      (∀ span ∈ mainUsable entries, span.start < span.stop) ∧
      ∀ a, Covers (mainUsable entries) a ↔ 0x100000 ≤ a ∧ a < 0x4000000 ∧
        ¬ Covers [⟨0x300000, 0x500000⟩, ⟨0x200000, 0x200000⟩, ⟨0x350000, 0x400000⟩, ⟨0x80000, 0x180000⟩,
          ⟨0x500000, 0x600000⟩] a :=
  e820_main_ram_is_the_complement .checked _ (by decide)

/-! ## The size of the table -/

/-- How far the regions reach into main memory, at least to its start. -/
def reach (memSize : Nat) (regions : List ReservedRegion) : Nat :=
  (regions.map fun region => min region.stop memSize).foldl max mainRamStart

/-- The region begins and ends beyond everything in front of it. -/
def LeadsOver (memSize : Nat) (front : List ReservedRegion) (region : ReservedRegion) : Prop :=
  reach memSize front < max region.start mainRamStart ∧ reach memSize front < min region.stop memSize ∧
    mainRamStart < memSize

instance (memSize : Nat) (front : List ReservedRegion) (region : ReservedRegion) :
    Decidable (LeadsOver memSize front region) := inferInstanceAs (Decidable (_ ∧ _))

/-- The regions that lead over what is in front of them. -/
def leaders (memSize : Nat) : List ReservedRegion → List ReservedRegion → List ReservedRegion
  | _, [] => []
  | front, region :: rest =>
    if LeadsOver memSize front region then region :: leaders memSize (front ++ [region]) rest
    else leaders memSize (front ++ [region]) rest

theorem reach_append (memSize : Nat) (front : List ReservedRegion) (region : ReservedRegion) :
    reach memSize (front ++ [region]) = max (reach memSize front) (min region.stop memSize) := by
  simp [reach]

theorem reach_ge (memSize : Nat) (regions : List ReservedRegion) : mainRamStart ≤ reach memSize regions := by
  induction regions using List.reverseRecOn with
  | nil => exact Nat.le_refl _
  | append_singleton front region ih =>
    rw [reach_append]
    exact Nat.le_trans ih (Nat.le_max_left ..)

theorem reach_of_behind {memSize : Nat} {front : List ReservedRegion} {region : ReservedRegion}
    (behind : min region.stop memSize ≤ reach memSize front) :
    reach memSize (front ++ [region]) = reach memSize front := by
  rw [reach_append]
  exact Nat.max_eq_left behind

theorem reach_of_beyond {memSize : Nat} {front : List ReservedRegion} {region : ReservedRegion}
    (beyond : reach memSize front < min region.stop memSize) :
    reach memSize (front ++ [region]) = min region.stop memSize := by
  rw [reach_append]
  exact Nat.max_eq_right (Nat.le_of_lt beyond)

/-- The number of entries for some leading regions, one less for an empty one. -/
def leadingCount (memSize : Nat) (leading : List ReservedRegion) : Nat :=
  leading.length + leading.countP fun region => max region.start mainRamStart ≠ min region.stop memSize

/-- The loop, when it comes to a region, is as far as the regions in front of
it reach. -/
theorem mainEntryCount_eq {memSize : Nat} (front : List ReservedRegion) {rest : List ReservedRegion}
    (inside : ∀ region ∈ rest, region.start < memSize) :
    mainEntryCount memSize (reach memSize front) rest =
      leadingCount memSize (leaders memSize front rest) +
        if reach memSize (front ++ rest) < memSize then 1 else 0 := by
  induction rest generalizing front with
  | nil => simp [mainEntryCount, leaders, leadingCount]
  | cons region rest ih =>
    have bound := inside region List.mem_cons_self
    have step := ih (front ++ [region]) fun other member => inside other (List.mem_cons_of_mem region member)
    rw [List.append_assoc, List.singleton_append] at step
    have low := reach_ge memSize front
    simp only [mainEntryCount, leaders]
    split
    · rename_i skipped
      have behind : min region.stop memSize ≤ reach memSize front := by omega
      rw [reach_of_behind behind] at step
      rw [if_neg (fun leads => by have := leads.2.1; omega), step]
    · rename_i within
      have beyond : reach memSize front < min region.stop memSize := by omega
      rw [reach_of_beyond beyond] at step
      split
      · rename_i started
        rw [if_neg (fun leads => by have := leads.1; omega), step]
      · rename_i later
        have leads : LeadsOver memSize front region := ⟨by omega, beyond, by omega⟩
        rw [if_pos leads, step]
        simp only [leadingCount, List.length_cons, List.countP_cons, ne_eq, decide_not, Bool.not_eq_true',
          decide_eq_false_iff_not, ite_not]
        omega

theorem both_isSome {α β γ : Type} {x : Option α} {y : Option β} {f : α → β → γ} :
    (do let a ← x; let b ← y; return f a b).isSome ↔ x.isSome ∧ y.isSome := by
  cases x <;> cases y <;> simp

theorem fit_isSome {α : Type} {mode : Overflow} {fits : Prop} [Decidable fits] {value : α} :
    (mode.fit fits value).isSome ↔ (mode = .checked → fits) := by
  cases mode <;> simp [Overflow.fit]

/-- The loop panics at a leading region that is inverted, in a build that checks. -/
theorem e820MainRam_isSome_iff (mode : Overflow) {memSize : Nat} (front : List ReservedRegion)
    {rest : List ReservedRegion} (inside : ∀ region ∈ rest, region.start < memSize) :
    (e820MainRam mode memSize (reach memSize front) rest).isSome ↔
      (mode = .checked → ∀ region ∈ leaders memSize front rest, region.start ≤ region.stop) := by
  induction rest generalizing front with
  | nil => simp [e820MainRam, leaders]
  | cons region rest ih =>
    have bound := inside region List.mem_cons_self
    have step := ih (front ++ [region]) fun other member => inside other (List.mem_cons_of_mem region member)
    have low := reach_ge memSize front
    simp only [e820MainRam, leaders]
    split
    · rename_i skipped
      have behind : min region.stop memSize ≤ reach memSize front := by omega
      rw [reach_of_behind behind] at step
      rw [if_neg (fun leads => by have := leads.2.1; omega), step]
    · rename_i within
      have beyond : reach memSize front < min region.stop memSize := by omega
      rw [reach_of_beyond beyond] at step
      split
      · rename_i started
        rw [if_neg (fun leads => by have := leads.1; omega), step]
      · rename_i later
        have leads : LeadsOver memSize front region := ⟨by omega, beyond, by omega⟩
        have upright : max region.start mainRamStart ≤ min region.stop memSize ↔ region.start ≤ region.stop := by omega
        rw [if_pos leads, List.forall_mem_cons, ← upright, both_isSome, step, fit_isSome]
        constructor
        · rintro ⟨own, others⟩ checked
          exact ⟨own checked, others checked⟩
        · intro all
          exact ⟨fun checked => (all checked).1, fun checked => (all checked).2⟩

/-- The number of entries that the table takes. -/
def tableCount (memSize : Nat) (regions : List ReservedRegion) : Nat :=
  3 + leadingCount memSize (leaders memSize [] (e820Regions memSize regions)) +
    if reach memSize (e820Regions memSize regions) < memSize then 1 else 0

theorem e820Regions_inside {memSize : Nat} {regions : List ReservedRegion} :
    ∀ region ∈ e820Regions memSize regions, region.start < memSize :=
  fun _ member => (mem_e820Regions.mp member).2.1

theorem length_table {mode : Overflow} {memSize : Nat} {regions : List ReservedRegion} {entries : List E820Entry}
    (wide : memSize < 2 ^ 64) (built : e820Entries mode memSize regions = some entries) :
    entries.length = tableCount memSize regions := by
  have count := mainEntryCount_eq [] (@e820Regions_inside memSize regions)
  rw [length_e820Entries wide built, e820Count, tableCount, Nat.add_assoc]
  exact congrArg (3 + ·) count

theorem e820Entries_isSome_iff (mode : Overflow) {memSize : Nat} (regions : List ReservedRegion) :
    (e820Entries mode memSize regions).isSome ↔
      (mode = .checked → ∀ region ∈ leaders memSize [] (e820Regions memSize regions), region.start ≤ region.stop) := by
  have built := e820MainRam_isSome_iff mode [] (@e820Regions_inside memSize regions)
  have from' : reach memSize [] = mainRamStart := rfl
  rw [from'] at built
  rw [← built, e820Entries]
  cases e820MainRam mode memSize mainRamStart (e820Regions memSize regions) with
  | none => simp
  | some main => simp

/-! ## The table in `boot_params` -/

/-- The twenty bytes of an entry. -/
def entryBytes (entry : E820Entry) : List UInt8 :=
  Memory.bytesLE 8 entry.addr ++ Memory.bytesLE 8 entry.size ++ Memory.bytesLE 4 entry.ty

theorem length_entryBytes (entry : E820Entry) : (entryBytes entry).length = e820EntrySize := by
  simp [entryBytes, e820EntrySize]

theorem length_tableBytes (entries : List E820Entry) :
    (entries.flatMap entryBytes).length = e820EntrySize * entries.length := by
  induction entries with
  | nil => rfl
  | cons entry rest ih =>
    rw [List.flatMap_cons, List.length_append, length_entryBytes, ih, List.length_cons]
    ring

theorem writeE820Entries_eq (entries : List E820Entry) (e820Off : Nat) (mem : Memory) :
    writeE820Entries entries e820Off mem = mem.store e820Off (entries.flatMap entryBytes) := by
  induction entries generalizing e820Off mem with
  | nil => rw [List.flatMap_nil, Memory.store_nil]; rfl
  | cons entry rest ih =>
    rw [List.flatMap_cons, Memory.store_append, length_entryBytes, ← ih, writeE820Entries]
    unfold Memory.storeLE
    rw [Memory.store_store _ _ _ _ (by simp), Memory.store_store _ _ _ _ (by simp)]
    rfl

/-- The fields of the zero page besides the table, by offset and size: those
that setup writes, and `eddbuf` behind the table. -/
def zeroPageFields : List (Nat × Nat) :=
  [(0x1E8, 1), (0x1F1, 1), (0x1FE, 2), (0x202, 4), (0x206, 2), (0x210, 1), (0x211, 1), (0x218, 4), (0x21C, 4),
    (0x228, 4), (0x22C, 4), (0x238, 4), (0xD00, 0x1EC)]

def tableSpan (count : Nat) : Span :=
  ⟨bootParamsAddr + e820TableOffset, bootParamsAddr + e820TableOffset + e820EntrySize * count⟩

/-- The entries are in the page, on no other field, and counted. -/
structure TableWritten (entries : List E820Entry) (mem : Memory) : Prop where
  inPage : (tableSpan entries.length).stop ≤ bootParamsAddr + bootParamsSize
  apart : ∀ field ∈ zeroPageFields, (tableSpan entries.length).Disjoint
    ⟨bootParamsAddr + field.1, bootParamsAddr + field.1 + field.2⟩
  held : mem.fetch (bootParamsAddr + e820TableOffset) (e820EntrySize * entries.length) = entries.flatMap entryBytes
  counted : (mem (bootParamsAddr + 0x1E8)).toNat = entries.length

/-- Setup returns an error or writes the whole table where it belongs. -/
def TableFits (mode : Overflow) (memSize : Nat) (initrdInfo : Option (Nat × Nat)) (regions : List ReservedRegion) :
    Prop :=
  ∀ mem, (∃ e, (setupBootParams mode memSize initrdInfo regions mem).Fails e) ∨
    ∃ entries result, e820Entries mode memSize regions = some entries ∧
      (setupBootParams mode memSize initrdInfo regions mem).Returns result ∧ TableWritten entries result

/-- The table is apart from `eddbuf` as long as it has 130 entries or less. -/
theorem table_apart_iff {count : Nat} :
    (∀ field ∈ zeroPageFields, (tableSpan count).Disjoint
      ⟨bootParamsAddr + field.1, bootParamsAddr + field.1 + field.2⟩) ↔ count ≤ 130 := by
  constructor
  · intro apart
    have behind := apart (0xD00, 0x1EC) (by decide) (bootParamsAddr + 0xD00)
    simp only [tableSpan, Span.Has, e820TableOffset, e820EntrySize] at behind
    omega
  · intro few field member a inTable inField
    have sides : ∀ field ∈ zeroPageFields, field.1 + field.2 ≤ e820TableOffset ∨ 0xD00 ≤ field.1 := by decide
    have side := sides field member
    simp only [tableSpan, Span.Has, e820TableOffset, e820EntrySize] at inTable inField side
    omega

theorem params_accepted_iff {memSize : Nat} {done : Unit} :
    validateGuestRange memSize bootParamsAddr (bootParamsAddr + bootParamsSize) = .ok done ↔ 0x11000 ≤ memSize := by
  have unguarded : overlapsReserved bootParamsAddr (bootParamsAddr + bootParamsSize) = false := by decide
  rw [validateGuestRange_ok_iff]
  constructor
  · rintro ⟨-, inside, -⟩
    exact inside
  · intro inside
    exact ⟨by decide, inside, unguarded⟩

theorem setupBootParams_returns {mode : Overflow} {memSize : Nat} {info : Option (Nat × Nat)}
    {regions : List ReservedRegion} {mem result : Memory} :
    (setupBootParams mode memSize info regions mem).Returns result ↔
      0x11000 ≤ memSize ∧ ∃ entries, e820Entries mode memSize regions = some entries ∧
        writeE820 entries (writeFallbackCmdline (writeSetupHeader info mem)) = result := by
  simp only [setupBootParams, Fallible.bind_returns, Fallible.of_returns, params_accepted_iff,
    Fallible.checked_returns, Fallible.pure_returns, Unique.exists_iff]

theorem setupBootParams_fails {mode : Overflow} {memSize : Nat} {info : Option (Nat × Nat)}
    {regions : List ReservedRegion} {mem : Memory} :
    (∃ e, (setupBootParams mode memSize info regions mem).Fails e) ↔ memSize < 0x11000 := by
  have refused : (∃ e, validateGuestRange memSize bootParamsAddr (bootParamsAddr + bootParamsSize) = .error e) ↔
      memSize < 0x11000 := by
    have accepted := @params_accepted_iff memSize ()
    cases checked : validateGuestRange memSize bootParamsAddr (bootParamsAddr + bootParamsSize) with
    | error e =>
      rw [checked] at accepted
      simp only [reduceCtorEq, false_iff] at accepted
      exact ⟨fun _ => by omega, fun _ => ⟨e, rfl⟩⟩
    | ok done =>
      rw [checked] at accepted
      simp only [true_iff] at accepted
      simp only [reduceCtorEq, exists_false, false_iff]
      omega
  simp only [setupBootParams, Fallible.bind_fails, Fallible.of_fails, Fallible.checked_fails, Fallible.pure_fails,
    and_false, exists_false, or_false]
  exact refused

theorem writeE820_held {entries : List E820Entry} {mem : Memory} (few : entries.length ≤ 130) :
    TableWritten entries (writeE820 entries mem) := by
  have room : e820EntrySize * entries.length ≤ 2600 := by
    unfold e820EntrySize
    omega
  have length := length_tableBytes entries
  constructor
  · simp only [tableSpan, bootParamsSize, e820TableOffset]
    omega
  · exact table_apart_iff.mpr few
  · simp only [writeE820, writeE820Entries_eq]
    unfold Memory.storeLE
    rw [Memory.fetch_store_disjoint (by simp [e820TableOffset]), ← length]
    exact Memory.fetch_store_self _ _ _
  · simp only [writeE820]
    unfold Memory.storeLE
    rw [Memory.store_inside (Nat.le_refl _) (by simp)]
    simp only [Nat.sub_self, Memory.bytesLE, List.getElem_cons_zero, UInt8.toNat_ofNat']
    omega

/-- The table fits exactly if it takes 130 entries at most, and no inverted
region leads over those in front of it in a build that checks. -/
theorem e820_table_fits_iff (mode : Overflow) {memSize : Nat} (initrdInfo : Option (Nat × Nat))
    (regions : List ReservedRegion) (wide : memSize < 2 ^ 64) :
    TableFits mode memSize initrdInfo regions ↔ memSize < 0x11000 ∨
      ((mode = .checked → ∀ region ∈ leaders memSize [] (e820Regions memSize regions), region.start ≤ region.stop) ∧
        tableCount memSize regions ≤ 130) := by
  rw [← e820Entries_isSome_iff]
  constructor
  · intro fits
    rcases fits Memory.zeroed with fails | ⟨entries, result, built, -, written⟩
    · exact .inl (setupBootParams_fails.mp fails)
    · rw [← length_table wide built, built]
      exact .inr ⟨rfl, table_apart_iff.mp written.apart⟩
  · rintro (small | ⟨built, few⟩) mem
    · exact .inl (setupBootParams_fails.mpr small)
    · by_cases small : memSize < 0x11000
      · exact .inl (setupBootParams_fails.mpr small)
      · obtain ⟨entries, built⟩ := Option.isSome_iff_exists.mp built
        rw [← length_table wide built] at few
        refine .inr ⟨entries, _, built, setupBootParams_returns.mpr ⟨by omega, entries, built, rfl⟩, ?_⟩
        exact writeE820_held few

/-- Without reserved regions there are four entries. -/
theorem empty_list_fits : TableFits .checked 0x4000000 none [] :=
  (e820_table_fits_iff .checked none [] (by decide)).mpr (.inr (by decide))

/-- Regions of one page with a page between them. -/
def combRegions (count : Nat) : List ReservedRegion :=
  (List.range count).map fun i => ⟨0x200000 + i * 0x2000, 0x201000 + i * 0x2000⟩

/-- Sixty-four regions take a table of 132 entries. -/
theorem comb_does_not_fit : ¬ TableFits .checked 0x4000000 none (combRegions 64) := by
  have many : ¬ tableCount 0x4000000 (combRegions 64) ≤ 130 := by decide +kernel
  intro fits
  rcases fits Memory.zeroed with fails | ⟨entries, result, built, -, written⟩
  · have small := setupBootParams_fails.mp fails
    omega
  · rw [← length_table (by decide) built] at many
    exact many (table_apart_iff.mp written.apart)

end TinyMachine.MemoryMap
