import Mathlib.Data.List.Perm.Basic
import TinyMachine.PciRootPort

/-! Accesses to the root port's configuration space, and the accesses to single
bytes that they are meant to stand for. -/
namespace TinyMachine.PciRootPort

def busRegisters : List Nat := [0x18, 0x19, 0x1A]

def ConfigWrite.Aligned (write : ConfigWrite) : Prop :=
  (write.size = 1 ∨ write.size = 2 ∨ write.size = 4) ∧ write.size ∣ write.regOffset.toNat

def ConfigWrite.byte (write : ConfigWrite) (k : Nat) : ConfigWrite :=
  ⟨write.regOffset + .ofNat k, 1, (byteOf write.val k).toUInt32⟩

def ConfigWrite.bytes (write : ConfigWrite) : List ConfigWrite := (List.range write.size).map write.byte

/-- The reads of single bytes, lowest first. -/
def PcieRootPort.readBytes (port : PcieRootPort) (regOffset : UInt16) : Nat → UInt32
  | 0 => 0
  | count + 1 =>
    port.readBytes regOffset count
      ||| (port.configRead (regOffset + .ofNat count) 1 <<< UInt32.ofNat (count * 8))

/-- Its bytes one at a time leave the same as the write, in any order, and the
bytes there make up what is read. -/
structure ByBytes (port : PcieRootPort) (access : ConfigWrite) : Prop where
  write : ∀ order : List ConfigWrite, order.Perm access.bytes → writeAll port order = apply port access
  read : port.configRead access.regOffset access.size = port.readBytes access.regOffset access.size

/-- The write begins at a bus number and stores nothing of what lies behind. -/
def Passes (write : ConfigWrite) (i : Fin 256) : Prop :=
  write.regOffset.toNat ∈ busRegisters ∧ write.regOffset.toNat < i.val ∧ i.val < write.regOffset.toNat + write.size

/-- Read-only bytes that the write reaches, and bytes that it passes over, hold
what it brings. -/
def Harmless (port : PcieRootPort) (write : ConfigWrite) : Prop :=
  ∀ i, Covers write i ∧ ReadOnly i ∨ Passes write i →
    byteOf write.val (i.val - write.regOffset.toNat) = port.byteAt i

/-! ## The bus numbers -/

/-- The bus numbers are those in the configuration space. -/
structure Cached (port : PcieRootPort) : Prop where
  primary : port.byteAt 0x18 = port.primaryBus
  secondary : port.byteAt 0x19 = port.secondaryBus
  subordinate : port.byteAt 0x1A = port.subordinateBus

section Cached
variable {port other : PcieRootPort} {write : ConfigWrite} {writes : List ConfigWrite} {i : Fin 256}

theorem Cached.eq (cached : Cached port) (also : Cached other) (same : ∀ i : Fin 256, port.byteAt i = other.byteAt i) :
    port = other := by
  have config : port.config = other.config := Vector.ext fun i bound => same ⟨i, bound⟩
  obtain ⟨primary, secondary, subordinate⟩ := cached
  obtain ⟨primary', secondary', subordinate'⟩ := also
  cases port
  cases other
  subst config
  simp_all

theorem bus_not_rw {offset : Nat} (bus : offset ∈ busRegisters) : offset ∉ rwRegisters :=
  (by decide : ∀ offset ∈ busRegisters, offset ∉ rwRegisters) offset bus

/-- No write from a writable register reaches the bus numbers. -/
theorem bus_not_covered (bus : i.val ∈ busRegisters) : ¬ Covers write i := by
  rintro ⟨rw, starts, reaches⟩
  have apart : ∀ offset ∈ rwRegisters, ∀ bus ∈ busRegisters, offset ≤ bus → ¬ bus < offset + 4 := by decide
  exact apart _ rw _ bus starts (by omega)

theorem new_cached : Cached new := ⟨by decide +kernel, by decide +kernel, by decide +kernel⟩

/-- The write stores a byte here. -/
def Stores (write : ConfigWrite) (i : Fin 256) : Prop :=
  Covers write i ∨ write.regOffset.toNat ∈ busRegisters ∧ i.val = write.regOffset.toNat ∧ write.size ≠ 0

instance (write : ConfigWrite) (i : Fin 256) : Decidable (Stores write i) := by
  unfold Stores; infer_instance

/-- A write at a bus number stores one byte there. -/
theorem apply_bus (bus : write.regOffset.toNat ∈ busRegisters) (nonempty : write.size ≠ 0) :
    (apply port write).config = port.config.setIfInBounds write.regOffset.toNat write.val.toUInt8 := by
  have inSpace : ∀ offset ∈ busRegisters, ¬ (configSpaceSize ≤ offset ∨ write.size = 0) := by
    simpa [busRegisters, configSpaceSize] using nonempty
  have stored : ∀ offset ∈ busRegisters, write.regOffset.toNat = offset →
      (apply port write).config = port.config.setIfInBounds offset write.val.toUInt8 := by
    intro offset member here
    simp only [apply, PcieRootPort.configWrite, here, inSpace offset member, if_false]
    simp only [busRegisters, List.mem_cons, List.not_mem_nil, or_false] at member
    rcases member with rfl | rfl | rfl <;> rfl
  exact stored _ bus rfl

theorem apply_get : (apply port write).byteAt i =
    if Stores write i then byteOf write.val (i.val - write.regOffset.toNat) else port.byteAt i := by
  unfold PcieRootPort.byteAt
  have bounded := i.isLt
  by_cases empty : write.size = 0
  · rw [if_neg, apply, PcieRootPort.configWrite, if_pos (.inr empty)]
    rintro (⟨-, starts, reaches⟩ | ⟨-, -, nonempty⟩)
    · omega
    · exact nonempty empty
  by_cases bus : write.regOffset.toNat ∈ busRegisters
  · have plain : ¬ Covers write i := by
      rintro ⟨rw, -⟩
      exact bus_not_rw bus rw
    rw [apply_bus bus empty, Fin.getElem_fin, Vector.getElem_setIfInBounds]
    by_cases here : i.val = write.regOffset.toNat
    · rw [if_pos here.symm, if_pos (.inr ⟨bus, here, empty⟩), here, Nat.sub_self, byteOf_zero]
    · have apart : ¬ Stores write i := not_or.mpr ⟨plain, fun both => here both.2.1⟩
      rw [if_neg (Ne.symm here), if_neg apart, Fin.getElem_fin]
  by_cases rw : write.regOffset.toNat ∈ rwRegisters
  · rw [apply_rw port write rw empty, store_bytes_get]
    refine if_congr ?_ rfl rfl
    simp only [Stores, Covers, rw, bus, accessEnd, configSpaceSize, true_and, false_and, or_false]
    omega
  · have elsewhere : ¬ Stores write i := by
      rintro (⟨inside, -⟩ | ⟨inside, -⟩)
      · exact rw inside
      · exact bus inside
    have untouched : apply port write = port := by
      simp only [busRegisters, List.mem_cons, List.not_mem_nil, or_false, not_or] at bus
      simp only [apply, PcieRootPort.configWrite, bus.1, bus.2.1, bus.2.2, rw, if_false, ite_self]
    rw [untouched, if_neg elsewhere]

theorem apply_bus_byte (bus : i.val ∈ busRegisters) : (apply port write).byteAt i =
    if i.val = write.regOffset.toNat ∧ write.size ≠ 0 then write.val.toUInt8 else port.byteAt i := by
  rw [apply_get]
  by_cases here : i.val = write.regOffset.toNat ∧ write.size ≠ 0
  · rw [if_pos here, if_pos (.inr ⟨here.1 ▸ bus, here⟩), here.1, Nat.sub_self, byteOf_zero]
  · have apart : ¬ Stores write i := not_or.mpr ⟨bus_not_covered bus, fun both => here both.2⟩
    rw [if_neg here, if_neg apart]

theorem Cached.apply (cached : Cached port) : Cached (apply port write) := by
  obtain ⟨primary, secondary, subordinate⟩ := cached
  have numbers : ((PciRootPort.apply port write).primaryBus =
        if 0x18 = write.regOffset.toNat ∧ write.size ≠ 0 then write.val.toUInt8 else port.primaryBus) ∧
      ((PciRootPort.apply port write).secondaryBus =
        if 0x19 = write.regOffset.toNat ∧ write.size ≠ 0 then write.val.toUInt8 else port.secondaryBus) ∧
      ((PciRootPort.apply port write).subordinateBus =
        if 0x1A = write.regOffset.toNat ∧ write.size ≠ 0 then write.val.toUInt8 else port.subordinateBus) := by
    unfold PciRootPort.apply PcieRootPort.configWrite configSpaceSize
    generalize write.regOffset.toNat = offset
    dsimp only
    by_cases skipped : 256 ≤ offset ∨ write.size = 0
    · have none (bus : Nat) (below : bus < 256) : ¬ (bus = offset ∧ write.size ≠ 0) := by omega
      rw [if_pos skipped, if_neg (none _ (by decide)), if_neg (none _ (by decide)), if_neg (none _ (by decide))]
      exact ⟨rfl, rfl, rfl⟩
    · rw [if_neg skipped]
      have nonempty := (not_or.mp skipped).2
      by_cases first : offset = 0x18
      · subst first
        simp [nonempty]
      by_cases second : offset = 0x19
      · subst second
        simp [nonempty]
      by_cases third : offset = 0x1A
      · subst third
        simp [nonempty]
      simp only [first, second, third, Ne.symm first, Ne.symm second, Ne.symm third, false_and, if_false]
      split <;> exact ⟨rfl, rfl, rfl⟩
  obtain ⟨one, two, three⟩ := numbers
  refine ⟨?_, ?_, ?_⟩
  · rw [one, apply_bus_byte (by decide), primary]
    rfl
  · rw [two, apply_bus_byte (by decide), secondary]
    rfl
  · rw [three, apply_bus_byte (by decide), subordinate]
    rfl

theorem Cached.writeAll (cached : Cached port) : Cached (writeAll port writes) := by
  induction writes generalizing port with
  | nil => exact cached
  | cons write rest ih => exact ih cached.apply

end Cached
/-! ## Single bytes -/

section Bytes
variable {port : PcieRootPort} {write access : ConfigWrite} {order : List ConfigWrite} {i : Fin 256} {k : Nat}

theorem stores_single (single : write.size = 1) : Stores write i ↔ write.regOffset.toNat = i.val ∧ ¬ ReadOnly i := by
  rw [Stores, Covers, ReadOnly, ← busRegisters, single]
  constructor
  · rintro (⟨rw, starts, reaches⟩ | ⟨bus, here, -⟩)
    · have here : write.regOffset.toNat = i.val := by omega
      exact ⟨here, fun both => both.1 (here ▸ rw)⟩
    · exact ⟨here.symm, fun both => both.2 (here ▸ bus)⟩
  · rintro ⟨here, writable⟩
    rw [here]
    by_cases rw : i.val ∈ rwRegisters
    · exact .inl ⟨rw, by omega, by omega⟩
    · exact .inr ⟨by_contra fun notBus => writable ⟨rw, notBus⟩, rfl, by decide⟩

/-- Each of some writes of single bytes stores its byte, and no other changes. -/
theorem writeAll_singles (singles : ∀ write ∈ order, write.size = 1)
    (distinct : order.Pairwise fun one two => one.regOffset.toNat ≠ two.regOffset.toNat) :
    (∀ write ∈ order, write.regOffset.toNat = i.val → ¬ ReadOnly i →
      (writeAll port order).byteAt i = write.val.toUInt8) ∧
    ((ReadOnly i ∨ ∀ write ∈ order, write.regOffset.toNat ≠ i.val) →
      (writeAll port order).byteAt i = port.byteAt i) := by
  induction order generalizing port with
  | nil => exact ⟨fun _ => nofun, fun _ => rfl⟩
  | cons first rest ih =>
    obtain ⟨apart, others⟩ := List.pairwise_cons.mp distinct
    obtain ⟨stored, kept⟩ := @ih (apply port first)
      (fun write member => singles write (List.mem_cons_of_mem _ member)) others
    have single := singles first List.mem_cons_self
    refine ⟨fun write member here writable => ?_, fun spared => ?_⟩
    · rcases List.mem_cons.mp member with rfl | member
      · refine (kept (.inr fun other inside same => apart other inside (here.trans same.symm))).trans ?_
        rw [apply_get, if_pos ((stores_single single).mpr ⟨here, writable⟩), here, Nat.sub_self, byteOf_zero]
      · exact stored write member here writable
    · refine (kept (spared.imp_right fun none write member => none write (List.mem_cons_of_mem _ member))).trans ?_
      rw [apply_get, if_neg]
      intro stores
      obtain ⟨here, writable⟩ := (stores_single single).mp stores
      exact spared.elim writable fun none => none first List.mem_cons_self here

theorem byte_offset (aligned : access.Aligned) (inside : k < access.size) :
    (access.byte k).regOffset.toNat = access.regOffset.toNat + k := by
  obtain ⟨sizes, multiple⟩ := aligned
  have bound := access.regOffset.toNat_lt
  have last : access.regOffset.toNat + k < 2 ^ 16 := by
    rcases sizes with size | size | size <;> rw [size] at inside multiple <;> omega
  have small : k < 2 ^ 16 := by omega
  rw [ConfigWrite.byte, UInt16.toNat_add, UInt16.toNat_ofNat', Nat.mod_eq_of_lt small, Nat.mod_eq_of_lt last]

theorem mem_bytes : write ∈ access.bytes ↔ ∃ k < access.size, access.byte k = write := by
  simp [ConfigWrite.bytes, eq_comm]

theorem bytes_get (aligned : access.Aligned) (perm : order.Perm access.bytes) :
    (writeAll port order).byteAt i =
      if ¬ ReadOnly i ∧ access.regOffset.toNat ≤ i.val ∧ i.val < access.regOffset.toNat + access.size then
        byteOf access.val (i.val - access.regOffset.toNat)
      else port.byteAt i := by
  have member (write : ConfigWrite) : write ∈ order ↔ ∃ k < access.size, access.byte k = write :=
    perm.mem_iff.trans mem_bytes
  have singles : ∀ write ∈ order, write.size = 1 := by
    intro write inside
    obtain ⟨k, -, rfl⟩ := (member write).mp inside
    rfl
  have distinct : order.Pairwise fun one two => one.regOffset.toNat ≠ two.regOffset.toNat := by
    refine (perm.pairwise_iff fun apart => apart.symm).mpr (List.pairwise_map.mpr ?_)
    refine (List.pairwise_lt_range (n := access.size)).imp_of_mem fun one two less same => ?_
    rw [byte_offset aligned (List.mem_range.mp one), byte_offset aligned (List.mem_range.mp two)] at same
    omega
  obtain ⟨stored, kept⟩ := @writeAll_singles port order i singles distinct
  split
  · next inside =>
    obtain ⟨writable, starts, reaches⟩ := inside
    have within : i.val - access.regOffset.toNat < access.size := by omega
    have there := byte_offset aligned within
    refine (stored _ ((member _).mpr ⟨_, within, rfl⟩) (by omega) writable).trans ?_
    exact UInt8.toUInt8_toUInt32 _
  · next outside =>
    refine kept ?_
    by_cases readOnly : ReadOnly i
    · exact .inl readOnly
    · refine .inr fun write inside here => outside ⟨readOnly, ?_⟩
      obtain ⟨k, within, rfl⟩ := (member write).mp inside
      rw [byte_offset aligned within] at here
      omega

theorem writable_iff : ¬ ReadOnly i ↔ i.val ∈ rwRegisters ++ busRegisters := by
  rw [List.mem_append, ReadOnly, ← busRegisters, not_and_or, not_not, not_not]

/-- The bytes from a bus number on that one access reaches are all writable. -/
theorem writable_behind_bus {bus : Nat} (there : bus ∈ busRegisters) (starts : bus ≤ i.val) (near : i.val < bus + 4) :
    ¬ ReadOnly i := by
  have behind : ∀ bus ∈ busRegisters, ∀ k < 4, bus + k ∈ rwRegisters ++ busRegisters := by decide
  have member := behind bus there (i.val - bus) (by omega)
  rw [Nat.add_sub_cancel' starts] at member
  exact writable_iff.mpr member

/-- An aligned access that begins at no writable byte has none. -/
theorem read_only_of_start (aligned : access.Aligned) (starts : access.regOffset.toNat ≤ i.val)
    (reaches : i.val < access.regOffset.toNat + access.size) (notRw : access.regOffset.toNat ∉ rwRegisters)
    (notBus : access.regOffset.toNat ∉ busRegisters) : ReadOnly i := by
  have first : ∀ offset ∈ rwRegisters ++ busRegisters, ∀ size ∈ [1, 2, 4],
      offset / size * size ∈ rwRegisters ++ busRegisters := by decide
  obtain ⟨sizes, start, whole⟩ := aligned
  by_contra writable
  have start : i.val / access.size * access.size = access.regOffset.toNat := by
    rcases sizes with size | size | size <;> rw [size] at whole reaches ⊢ <;> omega
  have there := first i.val (writable_iff.mp writable) access.size (by simpa using sizes)
  rw [start] at there
  exact (List.mem_append.mp there).elim notRw notBus

theorem bytes_agree_iff (aligned : access.Aligned) (perm : order.Perm access.bytes) :
    (writeAll port order).byteAt i = (apply port access).byteAt i ↔
      (Covers access i ∧ ReadOnly i ∨ Passes access i →
        byteOf access.val (i.val - access.regOffset.toNat) = port.byteAt i) := by
  have small : access.size ≤ 4 := by
    rcases aligned.1 with size | size | size <;> omega
  rw [bytes_get aligned perm, apply_get]
  by_cases inside : access.regOffset.toNat ≤ i.val ∧ i.val < access.regOffset.toNat + access.size
  · obtain ⟨starts, reaches⟩ := inside
    by_cases rw : access.regOffset.toNat ∈ rwRegisters
    · have covers : Covers access i := ⟨rw, starts, by omega⟩
      have bus : ¬ Passes access i := by
        rintro ⟨bus, -⟩
        exact bus_not_rw bus rw
      have stores : Stores access i := .inl covers
      by_cases readOnly : ReadOnly i
      · simp [stores, covers, readOnly, eq_comm]
      · simp [stores, bus, readOnly, starts, reaches]
    · have plain : ¬ Covers access i := fun covers => rw covers.1
      by_cases bus : access.regOffset.toNat ∈ busRegisters
      · have writable : ¬ ReadOnly i := writable_behind_bus bus starts (by omega)
        rw [if_pos ⟨writable, starts, reaches⟩]
        by_cases here : i.val = access.regOffset.toNat
        · have stores : Stores access i := .inr ⟨bus, here, by omega⟩
          simp [stores, plain, Passes, here]
        · have passes : Passes access i := ⟨bus, by omega, reaches⟩
          have apart : ¬ Stores access i := not_or.mpr ⟨plain, fun both => here both.2.1⟩
          simp [apart, passes]
      · have readOnly := read_only_of_start aligned starts reaches rw bus
        have apart : ¬ Stores access i := not_or.mpr ⟨plain, fun both => bus both.1⟩
        have none : ¬ Passes access i := fun passes => bus passes.1
        simp [readOnly, apart, none, plain]
  · have apart : ¬ Stores access i := by
      rintro (⟨-, starts, reaches⟩ | ⟨-, here, nonempty⟩) <;> omega
    have none : ¬ (Covers access i ∧ ReadOnly i ∨ Passes access i) := by
      rintro (⟨⟨-, starts, reaches⟩, -⟩ | ⟨-, starts, reaches⟩) <;> omega
    simp [inside, apart, none]

/-- The bytes leave what the write leaves exactly where it is harmless. -/
theorem write_by_bytes_iff (cached : Cached port) (aligned : access.Aligned) :
    (∀ order : List ConfigWrite, order.Perm access.bytes → writeAll port order = apply port access) ↔
      Harmless port access := by
  constructor
  · intro same i
    refine (bytes_agree_iff aligned (.refl access.bytes)).mp ?_
    rw [same _ (.refl _)]
  · intro harmless order perm
    exact cached.writeAll.eq cached.apply fun i => (bytes_agree_iff aligned perm).mpr (harmless i)

/-! ## Reads -/

theorem read_byte {regOffset : UInt16} (inside : regOffset.toNat < 256) :
    port.configRead regOffset 1 = (port.config.getD regOffset.toNat 0).toUInt32 := by
  have one : accessEnd regOffset.toNat 1 - regOffset.toNat = 1 := by
    rw [accessEnd, configSpaceSize]
    omega
  have within : ¬ configSpaceSize ≤ regOffset.toNat := Nat.not_le.mpr inside
  rw [PcieRootPort.configRead, if_neg within]
  dsimp only
  rw [one, loadBytes, loadBytes]
  simp

theorem readBytes_eq {regOffset : UInt16} (inside : regOffset.toNat + k ≤ 256) :
    port.readBytes regOffset k = loadBytes port.config regOffset.toNat k := by
  induction k with
  | zero => rfl
  | succ k ih =>
    have here : (regOffset + UInt16.ofNat k).toNat = regOffset.toNat + k := by
      rw [UInt16.toNat_add, UInt16.toNat_ofNat']
      omega
    rw [PcieRootPort.readBytes, loadBytes, ih (by omega), read_byte (by omega), here]

/-- Behind the configuration space every byte that is read has all bits set. -/
theorem readBytes_beyond (beyond : 256 ≤ access.regOffset.toNat) (nonempty : k ≠ 0) :
    port.readBytes access.regOffset k = 0xFFFFFFFF := by
  cases k with
  | zero => exact absurd rfl nonempty
  | succ k =>
    induction k with
    | zero =>
      have first : port.configRead (access.regOffset + UInt16.ofNat 0) 1 = 0xFFFFFFFF := by
        rw [PcieRootPort.configRead, if_pos]
        simpa [configSpaceSize] using beyond
      rw [PcieRootPort.readBytes, PcieRootPort.readBytes, first]
      rfl
    | succ k ih =>
      have full (val : UInt32) : 0xFFFFFFFF ||| val = 0xFFFFFFFF := UInt32.neg_one_or
      rw [PcieRootPort.readBytes, ih (Nat.succ_ne_zero k), full]

theorem read_by_bytes (aligned : access.Aligned) :
    port.configRead access.regOffset access.size = port.readBytes access.regOffset access.size := by
  obtain ⟨sizes, whole⟩ := aligned
  rw [PcieRootPort.configRead]
  split
  · next beyond =>
    refine (readBytes_beyond beyond ?_).symm
    rcases sizes with size | size | size <;> omega
  · next inside =>
    rw [configSpaceSize, Nat.not_le] at inside
    have last : access.regOffset.toNat + access.size ≤ 256 := by
      rcases sizes with size | size | size <;> rw [size] at whole ⊢ <;> omega
    have count : accessEnd access.regOffset.toNat access.size - access.regOffset.toNat = access.size := by
      rw [accessEnd, configSpaceSize]
      rcases sizes with size | size | size <;> omega
    rw [readBytes_eq last]
    exact congrArg _ count

/-- After any writes an aligned access goes by bytes exactly if it is harmless
there. -/
theorem by_bytes_iff (writes : List ConfigWrite) (aligned : access.Aligned) :
    ByBytes (writeAll new writes) access ↔ Harmless (writeAll new writes) access := by
  rw [← write_by_bytes_iff new_cached.writeAll aligned]
  exact ⟨ByBytes.write, fun write => ⟨write, read_by_bytes aligned⟩⟩

end Bytes

/-- Writes that are harmless where they are made can all be made by bytes. -/
theorem run_by_bytes {port : PcieRootPort} {writes : List ConfigWrite} {orders : List (List ConfigWrite)}
    (cached : Cached port) (aligned : ∀ write ∈ writes, write.Aligned)
    (harmless : ∀ before write after, writes = before ++ write :: after → Harmless (writeAll port before) write)
    (perms : List.Forall₂ (fun write order => order.Perm write.bytes) writes orders) :
    writeAll port orders.flatten = writeAll port writes := by
  induction perms generalizing port with
  | nil => rfl
  | @cons write order rest others perm _ ih =>
    have first : writeAll port order = apply port write :=
      (write_by_bytes_iff cached (aligned write List.mem_cons_self)).mpr (harmless [] write rest rfl) order perm
    have later := @ih (apply port write) cached.apply
      (fun other member => aligned other (List.mem_cons_of_mem _ member))
      (fun before other after split => harmless (write :: before) other after (by rw [split]; rfl))
    rw [List.flatten_cons, writeAll, List.foldl_append]
    exact (congrArg (fun port => writeAll port others.flatten) first).trans later

/-- After one write of a bus number, a word to Command. -/
theorem command_by_bytes :
    ByBytes (writeAll new [⟨0x19, 1, 2⟩]) ⟨0x04, 2, 0x0005⟩ ↔
      Harmless (writeAll new [⟨0x19, 1, 2⟩]) ⟨0x04, 2, 0x0005⟩ :=
  by_bytes_iff [⟨0x19, 1, 2⟩] ⟨.inr (.inl rfl), by decide⟩

/-- A dword to the bus numbers leaves the subordinate one as it was. -/
theorem bus_numbers_are_passed :
    ¬ ∀ (writes : List ConfigWrite) (access : ConfigWrite), access.Aligned → ByBytes (writeAll new writes) access := by
  intro law
  have whole := (law [] ⟨0x18, 4, 0x00020100⟩ ⟨.inr (.inr rfl), by decide⟩).write _ (.refl _)
  have bytes : (writeAll new (ConfigWrite.bytes ⟨0x18, 4, 0x00020100⟩)).subordinateBus = 2 := by decide +kernel
  have once : (apply new ⟨0x18, 4, 0x00020100⟩).subordinateBus = 1 := by decide +kernel
  have same : (writeAll new (ConfigWrite.bytes ⟨0x18, 4, 0x00020100⟩)).subordinateBus =
      (apply new ⟨0x18, 4, 0x00020100⟩).subordinateBus := congrArg PcieRootPort.subordinateBus whole
  rw [bytes, once] at same
  cases same

/-! ## The bus numbers that are read -/

def PcieRootPort.busNumbers (port : PcieRootPort) : UInt8 × UInt8 × UInt8 :=
  (port.primaryBus, port.secondaryBus, port.subordinateBus)

/-- Each read of the register brings the number: alone, and in its lane of a
wider one. -/
structure Reports (port : PcieRootPort) (register : UInt16) (number : UInt8) : Prop where
  alone : port.configRead register 1 = number.toUInt32
  within : ∀ (regOffset : UInt16) (size lane : Nat), regOffset.toNat + lane = register.toNat → lane < min size 4 →
    byteOf (port.configRead regOffset size) lane = number

section Reports
variable {port : PcieRootPort} {config : Vector UInt8 256} {offset lane count : Nat}

/-- The next byte stands above those that are read. -/
theorem loadBytes_succ (few : count < 4) (low : (loadBytes config offset count).toNat < 2 ^ (8 * count)) :
    (loadBytes config offset (count + 1)).toNat =
      (config.getD (offset + count) 0).toNat * 2 ^ (8 * count) + (loadBytes config offset count).toNat := by
  have byte := (config.getD (offset + count) 0).toNat_lt
  have shift : (UInt32.ofNat (count * 8)).toNat % 32 = 8 * count := by
    rw [UInt32.toNat_ofNat']
    omega
  have fits : (config.getD (offset + count) 0).toNat * 2 ^ (8 * count) < 2 ^ 32 :=
    calc _ < 2 ^ 8 * 2 ^ (8 * count) := Nat.mul_lt_mul_of_pos_right byte (Nat.two_pow_pos _)
      _ = 2 ^ (8 + 8 * count) := (Nat.pow_add 2 8 (8 * count)).symm
      _ ≤ 2 ^ 32 := Nat.pow_le_pow_right (by decide) (by omega)
  rw [loadBytes, UInt32.toNat_or, UInt32.toNat_shiftLeft, shift, UInt8.toNat_toUInt32, Nat.shiftLeft_eq,
    Nat.mod_eq_of_lt fits, Nat.or_comm, ← Nat.shiftLeft_eq, Nat.shiftLeft_add_eq_or_of_lt low]

/-- What is read is the bytes in their lanes, and nothing above them. -/
theorem loadBytes_lanes (few : count ≤ 4) : (loadBytes config offset count).toNat < 2 ^ (8 * count) ∧
    ∀ lane < count, (loadBytes config offset count).toNat / 2 ^ (8 * lane) % 256 =
      (config.getD (offset + lane) 0).toNat := by
  induction count with
  | zero => exact ⟨Nat.one_pos, fun lane none => absurd none (Nat.not_lt_zero lane)⟩
  | succ count ih =>
    obtain ⟨low, lanes⟩ := ih (by omega)
    have byte := (config.getD (offset + count) 0).toNat_lt
    rw [@loadBytes_succ config offset count (by omega) low]
    have wider : 2 ^ (8 * (count + 1)) = 2 ^ 8 * 2 ^ (8 * count) := by
      rw [← Nat.pow_add]
      congr 1
      omega
    refine ⟨?_, fun lane inside => ?_⟩
    · have whole := Nat.mul_le_mul_right (2 ^ (8 * count)) (Nat.succ_le_of_lt byte)
      rw [Nat.succ_mul] at whole
      omega
    · rcases Nat.lt_succ_iff_lt_or_eq.mp inside with below | rfl
      · obtain ⟨above, split⟩ : ∃ above, 2 ^ (8 * count) = 2 ^ (8 * lane) * (256 * above) := by
          refine ⟨2 ^ (8 * (count - lane - 1)), ?_⟩
          have eight : 256 = 2 ^ 8 := rfl
          rw [eight, ← Nat.pow_add, ← Nat.pow_add]
          congr 1
          omega
        rw [← lanes lane below, split, Nat.mul_left_comm, Nat.mul_add_div (Nat.two_pow_pos _), Nat.mul_left_comm,
          Nat.mul_add_mod]
      · rw [Nat.add_comm, Nat.add_mul_div_right _ _ (Nat.two_pow_pos _), Nat.div_eq_of_lt low, Nat.zero_add,
          Nat.mod_eq_of_lt byte]

theorem read_lane_byte {regOffset : UInt16} {size : Nat} (inside : regOffset.toNat + lane < 256)
    (within : lane < min size 4) :
    byteOf (port.configRead regOffset size) lane = port.config.getD (regOffset.toNat + lane) 0 := by
  have inSpace : ¬ configSpaceSize ≤ regOffset.toNat := by
    rw [configSpaceSize]
    omega
  have count : lane < accessEnd regOffset.toNat size - regOffset.toNat ∧
      accessEnd regOffset.toNat size - regOffset.toNat ≤ 4 := by
    rw [accessEnd, configSpaceSize]
    omega
  rw [PcieRootPort.configRead, if_neg inSpace]
  refine UInt8.toNat_inj.mp ?_
  rw [byteOf_toNat (by omega)]
  exact (loadBytes_lanes count.2).2 lane count.1

theorem reports_byte {register : UInt16} (inside : register.toNat < 256) :
    Reports port register (port.byteAt ⟨register.toNat, inside⟩) := by
  have byte : port.config.getD register.toNat 0 = port.byteAt ⟨register.toNat, inside⟩ := by
    simp [PcieRootPort.byteAt, Vector.getD, inside]
  refine ⟨?_, fun regOffset size lane here within => ?_⟩
  · rw [read_byte inside, byte]
  · rw [read_lane_byte (here ▸ inside) within, here, byte]

end Reports

/-- After any writes the bus numbers of the port are those that are read. -/
theorem bus_numbers_never_stale (writes : List ConfigWrite) :
    Reports (writeAll new writes) 0x18 (writeAll new writes).busNumbers.1 ∧
      Reports (writeAll new writes) 0x19 (writeAll new writes).busNumbers.2.1 ∧
      Reports (writeAll new writes) 0x1A (writeAll new writes).busNumbers.2.2 := by
  obtain ⟨primary, secondary, subordinate⟩ := (new_cached.writeAll : Cached (writeAll new writes))
  refine ⟨?_, ?_, ?_⟩
  · rw [PcieRootPort.busNumbers, ← primary]
    exact reports_byte (by decide)
  · rw [PcieRootPort.busNumbers, ← secondary]
    exact reports_byte (by decide)
  · rw [PcieRootPort.busNumbers, ← subordinate]
    exact reports_byte (by decide)

end TinyMachine.PciRootPort
