import TinyMachine.MemoryMap

/-! When the E820 table and the RAM slots describe the same memory. -/
namespace TinyMachine.MemoryMap
open Lib

def slotSpan (slot : MemorySlot) : Span := ⟨slot.guestPhysAddr, slot.guestPhysAddr + slot.memorySize⟩

/-- The slots' address ranges. -/
def slotSpans (slots : List MemorySlot) : List Span := slots.map slotSpan

/-- The entry declares its bytes usable, and this is one of them. -/
def E820Usable (entry : E820Entry) (a : Nat) : Prop :=
  entry.ty = e820TypeUsable ∧ Span.Has ⟨entry.addr, entry.addr + entry.size⟩ a

/-- Some entry declares the byte usable. -/
def DeclaredUsable (entries : List E820Entry) (a : Nat) : Prop := ∃ entry ∈ entries, E820Usable entry a

/-- What the two maps owe each other and the reserved regions. -/
def MapsAgree (mode : Overflow) (memSize : Nat) (regions : List ReservedRegion) : Prop :=
  ∃ entries, e820Entries mode memSize regions = some entries ∧
    let slots := slotSpans (bootRamSlots memSize regions)
    (∀ a, DeclaredUsable (passedEntries entries) a → Covers slots a) ∧
    (∀ a, Covers regions a → ¬ Covers slots a) ∧
    slots.Pairwise Span.Disjoint

/-! ## Slots -/

theorem ramSlotsFrom_spans (memSize ramSlot currentStart : Nat) (holes : List Span) :
    slotSpans (ramSlotsFrom memSize ramSlot currentStart holes) = gaps memSize currentStart holes := by
  induction holes generalizing ramSlot currentStart with
  | nil =>
    simp only [ramSlotsFrom, gaps, between]
    split
    · simp only [slotSpans, slotSpan, List.map_cons, List.map_nil, List.cons.injEq, Span.mk.injEq,
        and_true, true_and]
      omega
    · rfl
  | cons hole holes ih =>
    simp only [ramSlotsFrom, gaps, between]
    split
    · have whole : currentStart + (hole.start - currentStart) = hole.start := by omega
      have tail := ih (ramSlot + 1) hole.stop
      simp only [slotSpans] at tail
      simp [slotSpans, slotSpan, whole, tail]
    · simpa using ih ramSlot hole.stop

theorem bootRamSlots_spans (memSize : Nat) (regions : List ReservedRegion) :
    slotSpans (bootRamSlots memSize regions) =
      if gaps memSize 0 (ramHoles memSize regions) = [] then [⟨0, memSize⟩]
      else gaps memSize 0 (ramHoles memSize regions) := by
  rw [← ramSlotsFrom_spans memSize 0]
  unfold bootRamSlots
  split
  · next none => simp [none, slotSpans, slotSpan]
  · next found =>
    have filled : slotSpans (ramSlotsFrom memSize 0 0 (ramHoles memSize regions)) ≠ [] := by
      simpa [slotSpans] using found
    rw [if_neg filled]

theorem ramHoles_ordered (memSize : Nat) (regions : List ReservedRegion) :
    Ordered (ramHoles memSize regions) := by
  exact List.pairwise_insertionSort _ _

theorem mem_ramHoles {memSize : Nat} {regions : List ReservedRegion} {hole : Span} :
    hole ∈ ramHoles memSize regions ↔
      ∃ region ∈ regions, region.start < memSize ∧ 0 < region.stop ∧
        hole = ⟨region.start, min region.stop memSize⟩ := by
  unfold ramHoles sortByStart
  rw [(List.perm_insertionSort _ _).mem_iff]
  simp only [List.mem_map, List.mem_filter, Bool.decide_and, Bool.and_eq_true, decide_eq_true_eq,
    Nat.max_zero, @eq_comm _ hole, and_assoc, gt_iff_lt]

/-- Within RAM, the holes are the reserved bytes. -/
theorem covers_ramHoles {memSize a : Nat} {regions : List ReservedRegion} (below : a < memSize) :
    Covers (ramHoles memSize regions) a ↔ Covers regions a := by
  constructor
  · rintro ⟨_, member, inside⟩
    obtain ⟨region, declared, -, -, rfl⟩ := mem_ramHoles.mp member
    exact ⟨region, declared, by unfold Span.Has at *; dsimp only at inside; omega⟩
  · rintro ⟨region, declared, inside⟩
    refine ⟨_, mem_ramHoles.mpr ⟨region, declared, ?_, ?_, rfl⟩, ?_⟩ <;>
      simp only [Span.Has] at * <;> omega

theorem ramHoles_below {memSize : Nat} {regions : List ReservedRegion} :
    ∀ hole ∈ ramHoles memSize regions, hole.start ≤ memSize := by
  intro hole member
  obtain ⟨region, -, below, -, rfl⟩ := mem_ramHoles.mp member
  exact Nat.le_of_lt below

/-! ## E820 entries -/

/-- How many entries main RAM takes: one in front of a region that begins
beyond everything before it, one for that region unless it is empty, and one
for what is left at the end. -/
def mainEntryCount (mainRamEnd : Nat) : Nat → List ReservedRegion → Nat
  | current, [] => if current < mainRamEnd then 1 else 0
  | current, region :: rest =>
    let rstart := max region.start mainRamStart
    let rend := min region.stop mainRamEnd
    if rstart ≥ mainRamEnd ∨ rend ≤ current then mainEntryCount mainRamEnd current rest
    else if rstart ≤ current then mainEntryCount mainRamEnd rend rest
    else 1 + (if rstart = rend then 0 else 1) + mainEntryCount mainRamEnd rend rest

/-- How many entries the whole table takes. -/
def e820Count (memSize : Nat) (regions : List ReservedRegion) : Nat :=
  3 + mainEntryCount memSize mainRamStart (e820Regions memSize regions)

theorem length_e820MainRam {mode : Overflow} {mainRamEnd current : Nat}
    {regions : List ReservedRegion} {entries : List E820Entry} (wide : mainRamEnd < 2 ^ 64)
    (built : e820MainRam mode mainRamEnd current regions = some entries) :
    entries.length = mainEntryCount mainRamEnd current regions := by
  induction regions generalizing current entries with
  | nil =>
    simp only [e820MainRam, Option.some.injEq] at built
    subst built
    simp only [mainEntryCount, writeEntry]
    split
    · rw [if_neg (by omega)]; rfl
    · rfl
  | cons region rest ih =>
    simp only [e820MainRam] at built
    simp only [mainEntryCount]
    split at built
    · next skipped => rw [if_pos skipped, ih built]
    · next within =>
      rw [if_neg within]
      split at built
      · next started => rw [if_pos started, ih built]
      · next beyond =>
        simp only [Option.bind_eq_bind, Option.bind_eq_some_iff, Overflow.fit_eq_some] at built
        obtain ⟨_, ⟨-, rfl⟩, tail, builtTail, same⟩ := built
        cases same
        have left : max region.start mainRamStart - current ≠ 0 := by omega
        have empty : (min region.stop mainRamEnd + 2 ^ 64 - max region.start mainRamStart) % 2 ^ 64 = 0 ↔
            max region.start mainRamStart = min region.stop mainRamEnd := by
          have : mainRamStart < mainRamEnd := by omega
          unfold mainRamStart at *
          omega
        rw [if_neg beyond]
        simp only [writeEntry, left, if_false, empty, List.length_append, List.length_singleton,
          ih builtTail]
        split <;> simp only [List.length_nil, List.length_singleton]

/-- The number of entries the table takes in memory. -/
theorem length_e820Entries {mode : Overflow} {memSize : Nat} {regions : List ReservedRegion}
    {entries : List E820Entry} (wide : memSize < 2 ^ 64)
    (built : e820Entries mode memSize regions = some entries) :
    entries.length = e820Count memSize regions := by
  simp only [e820Entries, Option.bind_eq_bind, Option.bind_eq_some_iff] at built
  obtain ⟨main, builtMain, same⟩ := built
  cases same
  rw [List.length_append, length_e820MainRam wide builtMain]
  rfl

theorem e820Regions_ordered (memSize : Nat) (regions : List ReservedRegion) :
    Ordered (e820Regions memSize regions) :=
  (List.pairwise_insertionSort (fun a b : Span => a.start ≤ b.start) regions).filter _

theorem mem_e820Regions {memSize : Nat} {regions : List ReservedRegion} {region : Span} :
    region ∈ e820Regions memSize regions ↔
      region ∈ regions ∧ region.start < memSize ∧ mainRamStart < region.stop := by
  unfold e820Regions sortByStart
  rw [List.mem_filter, (List.perm_insertionSort _ _).mem_iff]
  simp

/-- The main RAM loop over regions that are not inverted: it records as usable
only bytes no region has, and nothing without recording something usable. -/
theorem e820MainRam_spec (mode : Overflow) (mainRamEnd current : Nat) (regions : List ReservedRegion)
    (ordered : Ordered regions) (upright : ∀ region ∈ regions, region.start ≤ region.stop)
    (inside : ∀ region ∈ regions, region.start ≤ mainRamEnd) (from' : mainRamStart ≤ current)
    (wide : mainRamEnd < 2 ^ 64) :
    ∃ entries, e820MainRam mode mainRamEnd current regions = some entries ∧
      (∀ a, DeclaredUsable entries a → current ≤ a ∧ a < mainRamEnd ∧ ¬ Covers regions a) ∧
      (entries ≠ [] → ∃ a, DeclaredUsable entries a) := by
  induction regions generalizing current with
  | nil =>
    simp only [e820MainRam, writeEntry]
    split
    · rename_i left
      rw [if_neg (by omega)]
      refine ⟨_, rfl, ?_, fun _ => ⟨current, _, List.mem_singleton.mpr rfl, rfl, ?_⟩⟩
      · rintro a ⟨_, member, -, inEntry⟩
        obtain rfl := List.mem_singleton.mp member
        simp only [Span.Has] at inEntry
        exact ⟨by omega, by omega, covers_nil a⟩
      · simp only [Span.Has]; omega
    · refine ⟨[], rfl, fun a declared => ?_, by simp⟩
      obtain ⟨_, member, _⟩ := declared
      exact absurd member List.not_mem_nil
  | cons region rest ih =>
    obtain ⟨behind, orderedRest⟩ := List.pairwise_cons.mp ordered
    have uprightRest := fun other member => upright other (List.mem_cons_of_mem region member)
    have insideRest := fun other member => inside other (List.mem_cons_of_mem region member)
    have straight := upright region List.mem_cons_self
    have bound := inside region List.mem_cons_self
    simp only [e820MainRam]
    split
    · rename_i skipped
      obtain ⟨entries, built, usable, some'⟩ :=
        ih current orderedRest uprightRest insideRest from'
      refine ⟨entries, built, fun a declared => ?_, some'⟩
      obtain ⟨low, high, outside⟩ := usable a declared
      refine ⟨low, high, fun covered => ?_⟩
      rcases (covers_cons ..).mp covered with inRegion | inRest
      · unfold Span.Has at inRegion; omega
      · exact outside inRest
    · rename_i within
      split
      · rename_i started
        obtain ⟨entries, built, usable, some'⟩ :=
          ih (min region.stop mainRamEnd) orderedRest uprightRest insideRest (by omega)
        refine ⟨entries, built, fun a declared => ?_, some'⟩
        obtain ⟨low, high, outside⟩ := usable a declared
        refine ⟨by omega, high, fun covered => ?_⟩
        rcases (covers_cons ..).mp covered with inRegion | inRest
        · unfold Span.Has at inRegion; omega
        · exact outside inRest
      · rename_i beyond
        obtain ⟨entries, built, usable, some'⟩ :=
          ih (min region.stop mainRamEnd) orderedRest uprightRest insideRest (by omega)
        have start : max region.start mainRamStart = region.start := by omega
        have size : (min region.stop mainRamEnd + 2 ^ 64 - region.start) % 2 ^ 64 =
            min region.stop mainRamEnd - region.start := by omega
        rw [start] at beyond within ⊢
        have left : region.start - current ≠ 0 := by omega
        let usableEntry : E820Entry := ⟨current, region.start - current, e820TypeUsable⟩
        have first : E820Usable usableEntry current := ⟨rfl, by simp only [Span.Has, usableEntry]; omega⟩
        rw [Overflow.fit_of_fits (show region.start ≤ min region.stop mainRamEnd by omega), size, built]
        refine ⟨_, rfl, fun a inTable => ?_, fun _ => ⟨current, usableEntry, ?_, first⟩⟩
        · obtain ⟨entry, member, declared⟩ := inTable
          simp only [List.mem_append] at member
          rcases member with (own | reserved) | later
          · obtain rfl : entry = usableEntry := by simpa [writeEntry, left] using own
            have inEntry := declared.2
            simp only [Span.Has, usableEntry] at inEntry
            refine ⟨by omega, by omega, fun covered => ?_⟩
            obtain ⟨hole, member, inHole⟩ := covered
            have : region.start ≤ hole.start := by
              rcases List.mem_cons.mp member with rfl | member
              · exact Nat.le_refl _
              · exact behind hole member
            unfold Span.Has at inHole
            omega
          · have type := declared.1
            unfold writeEntry at reserved
            split at reserved
            · cases reserved
            · obtain rfl := List.mem_singleton.mp reserved
              exact absurd type (show ¬ e820TypeReserved = e820TypeUsable by decide)
          · obtain ⟨low, high, outside⟩ := usable a ⟨entry, later, declared⟩
            refine ⟨by omega, high, fun covered => ?_⟩
            rcases (covers_cons ..).mp covered with inRegion | inRest
            · unfold Span.Has at inRegion; omega
            · exact outside inRest
        · simp [writeEntry, left, usableEntry]

/-- The part of low memory that a table of this many entries declares usable. -/
def LowDeclared (count a : Nat) : Prop :=
  (1 ≤ count ∧ a < 0x50000) ∨ (3 ≤ count ∧ 0x80000 ≤ a ∧ a < 0x9FC00)

private def lowEntries : List E820Entry :=
  [⟨0, 0x50000, e820TypeUsable⟩, ⟨0x50000, 0x30000, e820TypeReserved⟩,
    ⟨0x80000, 0x1FC00, e820TypeUsable⟩]

private theorem lowEntries_declared {a n : Nat} :
    DeclaredUsable (lowEntries.take n) a ↔ LowDeclared n a := by
  have reserved : e820TypeReserved ≠ e820TypeUsable := by decide
  match n with
  | 0 => simp [DeclaredUsable, LowDeclared]
  | 1 => simp [DeclaredUsable, LowDeclared, lowEntries, E820Usable, Span.Has]
  | 2 => simp [DeclaredUsable, LowDeclared, lowEntries, E820Usable, Span.Has, reserved]
  | n + 3 =>
    simp [DeclaredUsable, LowDeclared, lowEntries, E820Usable, Span.Has, reserved]

/-- The table over upright regions: its low part is fixed, and beyond it only
bytes that no region has are declared usable. -/
theorem e820Entries_spec (mode : Overflow) {memSize : Nat} (regions : List ReservedRegion)
    (wide : memSize < 2 ^ 64)
    (upright : ∀ region ∈ e820Regions memSize regions, region.start ≤ region.stop) :
    ∃ main, e820Entries mode memSize regions = some (lowEntries ++ main) ∧
      (∀ a, DeclaredUsable main a → mainRamStart ≤ a ∧ a < memSize ∧ ¬ Covers regions a) ∧
      (main ≠ [] → ∃ a, DeclaredUsable main a) := by
  obtain ⟨main, built, usable, some'⟩ := e820MainRam_spec mode memSize mainRamStart
    (e820Regions memSize regions) (e820Regions_ordered ..) upright
    (fun region member => Nat.le_of_lt (mem_e820Regions.mp member).2.1) (Nat.le_refl _) wide
  refine ⟨main, ?_, fun a declared => ?_, some'⟩
  · simp only [e820Entries, built]; rfl
  · obtain ⟨low, high, outside⟩ := usable a declared
    refine ⟨low, high, fun ⟨region, member, inRegion⟩ => outside ⟨region, ?_, inRegion⟩⟩
    unfold Span.Has at inRegion
    exact mem_e820Regions.mpr ⟨member, by omega, by omega⟩

/-- Within RAM, the slots cover what the reserved regions leave, except that
they cover everything when nothing is left. -/
theorem slots_cover {memSize a : Nat} {regions : List ReservedRegion} (below : a < memSize)
    (outside : ¬ Covers regions a) : Covers (slotSpans (bootRamSlots memSize regions)) a := by
  have swept := gaps_cover (Nat.zero_le a) below (mt (covers_ramHoles below).mp outside)
  rw [bootRamSlots_spans]
  split
  · next none => rw [none] at swept; exact absurd swept (covers_nil a)
  · exact swept

/-- The two maps agree exactly when the sweep that cuts the slots opens its
gaps forward and no reserved byte lies in the low memory that the table
declares usable without looking at the regions. -/
theorem maps_agree_iff (mode : Overflow) (regions : List ReservedRegion) {memSize : Nat}
    (enough : 0x100000 ≤ memSize) (bounded : memSize ≤ 0x1000000000) :
    MapsAgree mode memSize regions ↔
      SweepsForward memSize 0 0 (ramHoles memSize regions) ∧
        ∀ a, Covers regions a → ¬ LowDeclared (e820Count memSize regions % 256) a := by
  have ordered := ramHoles_ordered memSize regions
  have upright (forward : SweepsForward memSize 0 0 (ramHoles memSize regions)) :
      ∀ region ∈ e820Regions memSize regions, region.start ≤ region.stop := by
    intro region member
    obtain ⟨declared, below, above⟩ := mem_e820Regions.mp member
    have := forward_holes_upright ordered ramHoles_below forward
      (mem_ramHoles.mpr ⟨region, declared, below, by omega, rfl⟩)
    dsimp only at this
    omega
  have lowSize : lowEntries.length = 3 := rfl
  have lowBelow {n a : Nat} (low : LowDeclared n a) : a < memSize := by
    unfold LowDeclared at low; omega
  constructor
  · rintro ⟨entries, built, usable, reserved, disjoint⟩
    have forward : SweepsForward memSize 0 0 (ramHoles memSize regions) := by
      rw [← gaps_exact_iff ordered]
      rw [bootRamSlots_spans] at reserved disjoint
      split at reserved
      · next none => simp [none]
      · next found =>
        rw [if_neg found] at disjoint
        refine ⟨fun gap opened hole member a inGap inHole => ?_, disjoint⟩
        have below : a < memSize := by
          have := gaps_below ramHoles_below opened
          unfold Span.Has at inGap
          omega
        exact reserved a ((covers_ramHoles below).mp ⟨hole, member, inHole⟩) ⟨gap, opened, inGap⟩
    refine ⟨forward, fun a covered low => reserved a covered (usable a ?_)⟩
    obtain ⟨main, table, -⟩ := e820Entries_spec mode regions (by omega) (upright forward)
    have count := length_e820Entries (by omega) table
    obtain rfl : lowEntries ++ main = entries := by simpa [table] using built
    obtain ⟨entry, member, declared⟩ := lowEntries_declared.mpr low
    refine ⟨entry, ?_, declared⟩
    rw [passedEntries, count, List.take_append]
    exact List.mem_append_left _ member
  · rintro ⟨forward, low⟩
    obtain ⟨main, table, usable, some'⟩ :=
      e820Entries_spec mode regions (by omega) (upright forward)
    have count := length_e820Entries (by omega) table
    obtain ⟨avoid, disjoint⟩ := (gaps_exact_iff ordered).mpr forward
    have swept : gaps memSize 0 (ramHoles memSize regions) ≠ [] := by
      intro none
      have reserved (a : Nat) (below : a < memSize) : Covers regions a := by
        by_contra outside
        have := gaps_cover (Nat.zero_le a) below (mt (covers_ramHoles below).mp outside)
        rw [none] at this
        exact covers_nil a this
      have empty : main = [] := by
        by_contra recorded
        obtain ⟨a, declared⟩ := some' recorded
        obtain ⟨-, below, outside⟩ := usable a declared
        exact outside (reserved a below)
      refine low 0 (reserved 0 (by omega)) (.inl ⟨?_, by omega⟩)
      rw [← count, empty]
      decide
    refine ⟨_, table, ?_, ?_, ?_⟩
    · rintro a ⟨entry, member, declared⟩
      have below : a < memSize ∧ ¬ Covers regions a := by
        rw [passedEntries, count, List.take_append, List.mem_append] at member
        rcases member with fixed | later
        · have lowByte := lowEntries_declared.mp ⟨entry, fixed, declared⟩
          exact ⟨lowBelow lowByte, fun covered => low a covered lowByte⟩
        · exact (usable a ⟨entry, List.mem_of_mem_take later, declared⟩).2
      exact slots_cover below.1 below.2
    · rintro a covered ⟨gap, opened, inGap⟩
      rw [bootRamSlots_spans, if_neg swept] at opened
      have below : a < memSize := by
        have := gaps_below ramHoles_below opened
        unfold Span.Has at inGap
        omega
      obtain ⟨hole, member, inHole⟩ := (covers_ramHoles below).mpr covered
      exact avoid gap opened hole member a inGap inHole
    · rw [bootRamSlots_spans, if_neg swept]
      exact disjoint

/-- A hole in the middle of main RAM is cut out of both maps. -/
theorem single_hole_maps_agree : MapsAgree .checked 0x4000000 [⟨0x200000, 0x300000⟩] :=
  (maps_agree_iff .checked _ (by decide) (by decide)).mpr ⟨by decide, fun a covered low => by
    simp only [Covers, List.mem_singleton, exists_eq_left, Span.Has] at covered
    unfold LowDeclared at low
    omega⟩

/-- A region nested in another sends the sweep back into the outer one, whose
end is then handed to the guest as RAM. -/
theorem nested_region_is_ram_again :
    ¬ MapsAgree .wrapping 0x4000000 [⟨0x200000, 0x400000⟩, ⟨0x250000, 0x300000⟩] := by
  rintro ⟨_, -, -, reserved, -⟩
  exact reserved 0x300000 (by decide) (by decide)

end TinyMachine.MemoryMap
