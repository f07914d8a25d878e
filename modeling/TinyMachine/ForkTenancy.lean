import TinyMachine.ForkingProofs
import TinyMachine.Lib.Runs
import TinyMachine.SnapshotRoundTrip

/-! Runs of a process that forks, drops and runs VMs while the kernel refuses
what it likes. What the process holds is accounted for, and every guest sees a
memory of its own: a copy of the snapshot with its own writes in it, beside the
regions that all of them share. -/
namespace TinyMachine.Forking
open Lib Lib.Attempt Snapshots KvmHost

/-! ## The process -/

/-- The VMs alive, and what the failed calls stopped with. -/
structure Process where
  host : HostState
  live : List ForkedVm
  failed : List ForkFailure

/-- `others`: guests run on, and other parts of the process use the kernel. -/
inductive Deed where
  | fork
  | forkBatch (count : Nat)
  | drop (index : Nat)
  | guestWrites (index gpa : Nat) (byte : UInt8)
  | regionWrites (index offset : Nat) (data : List UInt8)
  | others (asked : Nat) (vms : Nat → Vm) (vcpus : Nat → Vcpu)

/-- A call that forks has come back. -/
def Process.after (process : Process) : Except ForkFailure (List ForkedVm) × HostState → Process
  | (.ok vms, host) => { process with host := host, live := process.live ++ vms }
  | (.error e, host) => { process with host := host, failed := process.failed ++ [e] }

def Process.Steps (kernel : Kernel) (engine : ForkEngine) (process : Process) (deed : Deed) (next : Process) : Prop :=
  match deed with
  | .fork => next = process.after ((do return [← Forking.fork kernel engine]) process.host)
  | .forkBatch count => next = process.after (Forking.forkBatch kernel engine count process.host)
  | .drop index => ∃ forked, process.live[index]? = some forked ∧
      next = { process with host := forked.drop process.host, live := process.live.eraseIdx index }
  | .guestWrites index gpa byte => ∃ forked, process.live[index]? = some forked ∧
      next = { process with host := Forking.guestWrites process.host forked.vm gpa byte }
  | .regionWrites index offset data => ∃ entry, engine.sharedRegions[index]? = some entry ∧
      next = { process with host := (entry.1.write offset data process.host).getD process.host }
  | .others asked vms vcpus => process.host.asked ≤ asked ∧
      (∀ fd, (vms fd).slots = (process.host.vms fd).slots) ∧
      next = { process with host := { process.host with asked := asked, vms := vms, vcpus := vcpus } }

/-! ## The tenants -/

/-- The memory of each tenant, and what each shared region holds. -/
structure Tenancy where
  images : List Memory
  shared : Nat → Memory

section Abstract
variable (engine : ForkEngine)

/-- The address belongs to the memory of the snapshot. -/
def InMemory (gpa : Nat) : Prop :=
  engine.snapshot.loadAddr.toNat ≤ gpa ∧ gpa < engine.snapshot.loadAddr.toNat + engine.snapshot.memorySize.toNat

instance inMemoryDecidable (gpa : Nat) : Decidable (InMemory engine gpa) := inferInstanceAs (Decidable (_ ∧ _))

/-- The shared region at an address. -/
def regionAt (gpa : Nat) : Option ((SharedMemoryRegion × Nat) × Nat) :=
  engine.sharedRegions.zipIdx.find? fun entry => entry.1.2 ≤ gpa ∧ gpa < entry.1.2 + entry.1.1.size

/-- What a tenant reads. -/
def Tenancy.reads (tenancy : Tenancy) (image : Memory) (gpa : Nat) : Option UInt8 :=
  if InMemory engine gpa then some (image (gpa - engine.snapshot.loadAddr.toNat))
  else (regionAt engine gpa).map fun entry => tenancy.shared entry.2 (gpa - entry.1.2)

/-- A tenant writes into its own memory, and nowhere else. -/
def written (gpa : Nat) (byte : UInt8) (image : Memory) : Memory :=
  if InMemory engine gpa then Function.update image (gpa - engine.snapshot.loadAddr.toNat) byte else image

/-- So many forks have come. -/
def Tenancy.joined (tenancy : Tenancy) (image : Memory) (came : Nat) : Tenancy :=
  { tenancy with images := tenancy.images ++ List.replicate came image }

/-- `refused`: a call of the deed failed, and all that it did was undone. -/
def Tenancy.after (image : Memory) (tenancy : Tenancy) (deed : Deed) (refused : Bool) : Tenancy :=
  match deed with
  | .fork => if refused then tenancy else tenancy.joined image 1
  | .forkBatch count => if refused then tenancy else tenancy.joined image count
  | .drop index => { tenancy with images := tenancy.images.eraseIdx index }
  | .guestWrites index gpa byte => { tenancy with images := tenancy.images.modify index (written engine gpa byte) }
  | .regionWrites index offset data =>
    match engine.sharedRegions[index]? with
    | some entry =>
      if offset + data.length > entry.1.size then tenancy
      else { tenancy with shared := Function.update tenancy.shared index ((tenancy.shared index).store offset data) }
    | none => tenancy
  | .others _ _ _ => tenancy

end Abstract

/-- The process, and the tenants beside it. -/
def tenancies (kernel : Kernel) (engine : ForkEngine) (host : HostState) : System (Process × Tenancy) Deed where
  start state := state.1 = ⟨host, [], []⟩ ∧ state.2.images = [] ∧
    ∀ entry ∈ engine.sharedRegions.zipIdx, ∀ o < entry.1.1.size,
      state.2.shared entry.2 o = host.memory (entry.1.1.hostPtr + o)
  step state deed next := state.1.Steps kernel engine deed next.1 ∧
    next.2 = state.2.after engine (engine.image host.files) deed (state.1.failed.length < next.1.failed.length)

def regionSpan (region : SharedMemoryRegion) : Span := ⟨region.hostPtr, region.hostPtr + region.size⟩

/-- The process starts with its mappings apart, each shared region one of them. -/
structure Prepared (engine : ForkEngine) (host : HostState) : Prop where
  fits : Fits engine
  apart : host.mappings.Pairwise Span.Disjoint
  regions : ∀ entry ∈ engine.sharedRegions, regionSpan entry.1 ∈ host.mappings
  distinct : engine.sharedRegions.Pairwise fun one two => Span.Disjoint (regionSpan one.1) (regionSpan two.1)

/-! ## What every step keeps -/

def fdsOf (forked : ForkedVm) : List Nat := [forked.vcpu, forked.vm]

def mappingsOf (forked : ForkedVm) : List Span := [runSpan forked, memorySpan forked]

/-- The process holds what its VMs hold, what it held at first, and what was
lost. -/
structure Accounted (start : HostState) (live : List ForkedVm) (lost : List Span) (host : HostState) : Prop where
  fds : host.fds.Perm (live.flatMap fdsOf ++ start.fds)
  mappings : host.mappings.Perm (live.flatMap mappingsOf ++ (lost ++ start.mappings))
  apart : host.mappings.Pairwise Span.Disjoint
  strays : host.strays = start.strays

/-- A VM is where its tenant's memory is. -/
structure Houses (engine : ForkEngine) (host : HostState) (forked : ForkedVm) (image : Memory) : Prop where
  known : forked.vm < host.asked
  size : forked.memorySize = engine.snapshot.memorySize.toNat
  slots : (host.vms forked.vm).slots = slotsOf engine forked.memoryPtr
  image : ∀ o < forked.memorySize, host.memory (forked.memoryPtr + o) = image o

/-- Each VM is where its tenant's memory is, and the shared regions hold what
the tenants read of them. -/
structure Tenants (engine : ForkEngine) (start : HostState) (live : List ForkedVm) (tenancy : Tenancy) (host : HostState) :
    Prop where
  files : host.files = start.files
  count : tenancy.images.length = live.length
  houses : ∀ (i : Nat) (forked : ForkedVm) (image : Memory), live[i]? = some forked → tenancy.images[i]? = some image →
    Houses engine host forked image
  shared : ∀ entry ∈ engine.sharedRegions.zipIdx, ∀ o < entry.1.1.size,
    host.memory (entry.1.1.hostPtr + o) = tenancy.shared entry.2 o

structure Sound (engine : ForkEngine) (start : HostState) (live : List ForkedVm) (lost : List Span) (tenancy : Tenancy)
    (host : HostState) : Prop where
  accounted : Accounted start live lost host
  tenants : Tenants engine start live tenancy host

section Accounts
variable {start host : HostState} {live rest : List ForkedVm} {lost : List Span} {forked : ForkedVm}

theorem closeFd_spec {fd : Nat} {fds : List Nat} (held : host.fds.Perm (fd :: fds)) :
    ∃ fewer, fewer.Perm fds ∧ host.closeFd fd = { host with fds := fewer } := by
  have member : fd ∈ host.fds := held.mem_iff.mpr List.mem_cons_self
  refine ⟨host.fds.erase fd, ?_, if_pos member⟩
  simpa using held.erase fd

theorem munmap_spec {address size : Nat} {mappings : List Span}
    (held : host.mappings.Perm (⟨address, address + size⟩ :: mappings)) :
    ∃ fewer, fewer.Perm mappings ∧ fewer.Sublist host.mappings ∧
      host.munmap address size = { host with mappings := fewer } := by
  have member : ⟨address, address + size⟩ ∈ host.mappings := held.mem_iff.mpr List.mem_cons_self
  refine ⟨host.mappings.erase ⟨address, address + size⟩, ?_, List.erase_sublist, if_pos member⟩
  simpa using held.erase ⟨address, address + size⟩

/-- Dropping a VM gives back what it held, and does nothing else. -/
theorem drop_spec (accounted : Accounted start live lost host) (perm : live.Perm (forked :: rest)) :
    Accounted start rest lost (forked.drop host) ∧
      ∃ fds mappings, forked.drop host = { host with fds := fds, mappings := mappings } := by
  have fds : host.fds.Perm (forked.vm :: forked.vcpu :: (rest.flatMap fdsOf ++ start.fds)) := by
    refine accounted.fds.trans (((perm.flatMap_right fdsOf).append_right _).trans ?_)
    simpa [fdsOf] using List.Perm.swap ..
  have mappings : host.mappings.Perm (memorySpan forked :: runSpan forked ::
      (rest.flatMap mappingsOf ++ (lost ++ start.mappings))) := by
    refine accounted.mappings.trans (((perm.flatMap_right mappingsOf).append_right _).trans ?_)
    simpa [mappingsOf] using List.Perm.swap ..
  obtain ⟨fewer, unmapped, within, first⟩ := munmap_spec mappings
  obtain ⟨fewest, left, deeper, second⟩ := @munmap_spec { host with mappings := fewer } _ _ _ unmapped
  obtain ⟨some, closed, third⟩ := @closeFd_spec { host with mappings := fewest } _ _ fds
  obtain ⟨none, gone, fourth⟩ := @closeFd_spec { host with mappings := fewest, fds := some } _ _ closed
  have dropped : forked.drop host = { host with fds := none, mappings := fewest } := by
    rw [ForkedVm.drop, first, second, third, fourth]
  rw [dropped]
  exact ⟨⟨gone, left, accounted.apart.sublist (deeper.trans within), accounted.strays⟩, none, fewest, rfl⟩

/-- A fork has come. -/
theorem Accounted.came {engine : ForkEngine} {before : HostState} (accounted : Accounted start live lost before)
    (forks : Forked engine before forked host) : Accounted start (live ++ [forked]) lost host := by
  have stage := forks.stage
  refine ⟨?_, ?_, stage.apart, stage.strays.trans accounted.strays⟩
  · have fds := stage.fds.trans (accounted.fds.append_left _)
    rw [List.perm_iff_count] at fds ⊢
    intro fd
    have counted := fds fd
    simp only [List.flatMap_append, List.flatMap_singleton, fdsOf, List.count_append] at counted ⊢
    omega
  · have mappings := stage.mappings.trans (accounted.mappings.append_left _)
    rw [List.perm_iff_count] at mappings ⊢
    intro span
    have counted := mappings span
    simp only [List.flatMap_append, List.flatMap_singleton, mappingsOf, List.count_append, List.map_cons,
      List.map_nil] at counted ⊢
    omega

/-- A fork has failed. -/
theorem Accounted.failed {engine : ForkEngine} {before : HostState} {e : ForkFailure}
    (accounted : Accounted start live lost before) (remains : Remains engine before [] [] e host) :
    ∃ more, Leaves engine e more ∧ Accounted start live (more ++ lost) host := by
  obtain ⟨more, vm, slots, leaves, stage⟩ := remains
  rw [List.append_nil] at stage
  refine ⟨more.map Prod.fst, leaves, ?_, ?_, stage.apart, stage.strays.trans accounted.strays⟩
  · exact stage.fds.trans accounted.fds
  · have mappings := stage.mappings.trans (accounted.mappings.append_left _)
    rw [List.perm_iff_count] at mappings ⊢
    intro span
    have counted := mappings span
    simp only [List.count_append] at counted ⊢
    omega

/-- The mappings of two VMs, and of a VM and a shared region, are apart. -/
theorem Accounted.spans_apart (accounted : Accounted start live lost host) :
    (live.flatMap mappingsOf ++ (lost ++ start.mappings)).Pairwise Span.Disjoint :=
  (accounted.mappings.pairwise_iff disjoint_symm).mp accounted.apart

theorem Accounted.tenants_apart (accounted : Accounted start live lost host) {i j : Nat} {other : ForkedVm}
    (one : live[i]? = some forked) (two : live[j]? = some other) (distinct : i ≠ j) :
    Span.Disjoint (memorySpan forked) (memorySpan other) := by
  have apart := (List.pairwise_append.mp accounted.spans_apart).1
  have pairs := (List.pairwise_flatMap.mp apart).2
  have own (vm : ForkedVm) : memorySpan vm ∈ mappingsOf vm := by simp [mappingsOf]
  obtain ⟨inside, rfl⟩ := List.getElem?_eq_some_iff.mp one
  obtain ⟨within, rfl⟩ := List.getElem?_eq_some_iff.mp two
  rcases Nat.lt_or_gt_of_ne distinct with before | after
  · exact List.pairwise_iff_getElem.mp pairs i j inside within before _ (own _) _ (own _)
  · exact disjoint_symm (List.pairwise_iff_getElem.mp pairs j i within inside after _ (own _) _ (own _))

theorem Accounted.start_apart (accounted : Accounted start live lost host) (member : forked ∈ live) {span : Span}
    (held : span ∈ start.mappings) : Span.Disjoint (memorySpan forked) span := by
  refine (List.pairwise_append.mp accounted.spans_apart).2.2 _ ?_ span (List.mem_append_right _ held)
  exact List.mem_flatMap.mpr ⟨forked, member, by simp [mappingsOf]⟩

theorem Accounted.covers (accounted : Accounted start live lost host) (member : forked ∈ live) {o : Nat}
    (inside : o < forked.memorySize) : Covers host.mappings (forked.memoryPtr + o) := by
  refine ⟨memorySpan forked, accounted.mappings.mem_iff.mpr (List.mem_append_left _ ?_), ?_⟩
  · exact List.mem_flatMap.mpr ⟨forked, member, by simp [mappingsOf]⟩
  · exact ⟨Nat.le_add_right _ _, Nat.add_lt_add_left inside _⟩

end Accounts

/-! ## Each deed keeps it -/

theorem store_singleton (memory : Memory) (a : Nat) (byte : UInt8) :
    memory.store a [byte] = Function.update memory a byte := by
  funext b
  by_cases same : b = a
  · have inside : a < a + [byte].length := Nat.lt_succ_self a
    rw [same, Function.update_self, Memory.store_inside (Nat.le_refl a) inside]
    simp
  · rw [Function.update_of_ne same]
    exact Memory.store_outside (by simp only [List.length_singleton]; omega)

theorem store_shifted {memory image : Memory} {base offset o : Nat} {data : List UInt8}
    (same : memory (base + o) = image o) : memory.store (base + offset) data (base + o) = image.store offset data o := by
  unfold Memory.store
  simp only [same, Nat.add_le_add_iff_left, Nat.add_sub_add_left]

section Deeds
variable {kernel : Kernel} {engine : ForkEngine} {start host before : HostState} {live : List ForkedVm} {lost : List Span}
  {tenancy : Tenancy} {forked : ForkedVm}

theorem Houses.alike {image : Memory} (houses : Houses engine before forked image)
    (later : before.asked ≤ host.asked) (slots : (host.vms forked.vm).slots = (before.vms forked.vm).slots)
    (memory : ∀ o < forked.memorySize, host.memory (forked.memoryPtr + o) = before.memory (forked.memoryPtr + o)) :
    Houses engine host forked image :=
  ⟨houses.known.trans_le later, houses.size, slots.trans houses.slots,
    fun o inside => (memory o inside).trans (houses.image o inside)⟩

/-- The bytes of a shared region are in a mapping the process started with. -/
theorem Prepared.covers (prepared : Prepared engine start) {entry : (SharedMemoryRegion × Nat) × Nat}
    (member : entry ∈ engine.sharedRegions.zipIdx) {o : Nat} (inside : o < entry.1.1.size) :
    Covers start.mappings (entry.1.1.hostPtr + o) :=
  ⟨regionSpan entry.1.1, prepared.regions entry.1 (List.fst_mem_of_mem_zipIdx member), Nat.le_add_right _ _,
    Nat.add_lt_add_left inside _⟩

theorem Accounted.covers_start (accounted : Accounted start live lost host) {a : Nat}
    (covered : Covers start.mappings a) : Covers host.mappings a := by
  obtain ⟨span, held, inside⟩ := covered
  exact ⟨span, accounted.mappings.mem_iff.mpr (by simp [held]), inside⟩

/-- What a fork under way has done leaves the tenants where they were. -/
theorem Sound.stage (prepared : Prepared engine start) (sound : Sound engine start live lost tenancy before)
    {taken : List Nat} {maps : List (Span × Memory)} {vm : Nat} {slots : List KvmMemoryRegion}
    (stage : Stage before taken maps vm slots host) : Tenants engine start live tenancy host where
  files := stage.files.trans sound.tenants.files
  count := sound.tenants.count
  houses i forked image one two := by
    have houses := sound.tenants.houses i forked image one two
    refine houses.alike stage.later (stage.others _ houses.known) fun o inside => ?_
    exact stage.memory _ (sound.accounted.covers (List.mem_of_getElem? one) inside)
  shared entry member o inside := by
    rw [← sound.tenants.shared entry member o inside]
    exact stage.memory _ (sound.accounted.covers_start (prepared.covers member inside))

theorem Tenants.add {image : Memory} (tenants : Tenants engine start live tenancy host)
    (own : Houses engine host forked image) :
    Tenants engine start (live ++ [forked]) { tenancy with images := tenancy.images ++ [image] } host where
  files := tenants.files
  count := by simp [tenants.count]
  houses i one other found shown := by
    rw [List.getElem?_append] at found shown
    rw [tenants.count] at shown
    split at found
    · next old => exact tenants.houses i one other found ((if_pos old).symm.trans shown)
    · next new =>
      have among := List.mem_of_getElem? found
      have shows := List.mem_of_getElem? ((if_neg new).symm.trans shown)
      rw [List.mem_singleton.mp among, List.mem_singleton.mp shows]
      exact own
  shared := tenants.shared

/-- A fork has come, with the snapshot's bytes for its memory. -/
theorem Sound.came (prepared : Prepared engine start) (sound : Sound engine start live lost tenancy before)
    (forks : Forked engine before forked host) :
    Sound engine start (live ++ [forked]) lost
      { tenancy with images := tenancy.images ++ [engine.image start.files] } host := by
  refine ⟨sound.accounted.came forks, (sound.stage prepared forks.stage).add ?_⟩
  refine ⟨(forks.stage.fresh _ List.mem_cons_self).2, forks.size, forks.stage.own, fun o inside => ?_⟩
  have content := forks.stage.contents (memorySpan forked, engine.image before.files) (by simp)
    (forked.memoryPtr + o) ⟨Nat.le_add_right _ _, Nat.add_lt_add_left inside _⟩
  rw [content, sound.tenants.files]
  exact congrArg _ (Nat.add_sub_cancel_left _ _)

/-- A fork has failed; what it leaves is lost. -/
theorem Sound.failed {e : ForkFailure} (prepared : Prepared engine start)
    (sound : Sound engine start live lost tenancy before) (remains : Remains engine before [] [] e host) :
    ∃ more, Leaves engine e more ∧ Sound engine start live (more ++ lost) tenancy host := by
  obtain ⟨more, leaves, accounted⟩ := sound.accounted.failed remains
  obtain ⟨_, _, _, _, stage⟩ := remains
  exact ⟨more, leaves, accounted, sound.stage prepared stage⟩

/-- The VMs that are kept keep their tenants. -/
theorem Sound.fewer {kept : List ForkedVm} {images : List Memory} {fds : List Nat} {mappings : List Span}
    (sound : Sound engine start live lost tenancy host)
    (accounted : Accounted start kept lost { host with fds := fds, mappings := mappings })
    (count : images.length = kept.length)
    (among : ∀ (i : Nat) (forked : ForkedVm) (image : Memory), kept[i]? = some forked → images[i]? = some image →
      ∃ j : Nat, live[j]? = some forked ∧ tenancy.images[j]? = some image) :
    Sound engine start kept lost { tenancy with images := images }
      { host with fds := fds, mappings := mappings } := by
  refine ⟨accounted, sound.tenants.files, count, fun i one image found shown => ?_, sound.tenants.shared⟩
  obtain ⟨j, old, known⟩ := among i one image found shown
  have houses := sound.tenants.houses j one image old known
  exact ⟨houses.known, houses.size, houses.slots, houses.image⟩

theorem Sound.drop (sound : Sound engine start live lost tenancy host) {index : Nat}
    (found : live[index]? = some forked) :
    Sound engine start (live.eraseIdx index) lost { tenancy with images := tenancy.images.eraseIdx index }
      (forked.drop host) := by
  obtain ⟨inside, rfl⟩ := List.getElem?_eq_some_iff.mp found
  obtain ⟨accounted, fds, mappings, dropped⟩ := drop_spec sound.accounted (List.getElem_cons_eraseIdx_perm inside).symm
  rw [dropped] at accounted ⊢
  refine sound.fewer accounted ?_ fun i one image old known => ?_
  · rw [List.length_eraseIdx, List.length_eraseIdx, sound.tenants.count]
  · rw [List.getElem?_eraseIdx] at old known
    split at old
    · next below => exact ⟨i, old, (if_pos below).symm.trans known⟩
    · next above => exact ⟨i + 1, old, (if_neg above).symm.trans known⟩

/-- VMs that go out of scope take their tenants with them. -/
theorem Sound.dropAll {images : List Memory} {vms : List ForkedVm}
    (sound : Sound engine start (live ++ vms) lost { tenancy with images := tenancy.images ++ images } host)
    (count : tenancy.images.length = live.length) :
    Sound engine start live lost tenancy (Forking.dropAll vms host) := by
  have accounts (vms : List ForkedVm) (host : HostState) (accounted : Accounted start (live ++ vms) lost host) :
      Accounted start live lost (Forking.dropAll vms host) ∧
        ∃ fds mappings, Forking.dropAll vms host = { host with fds := fds, mappings := mappings } := by
    induction vms generalizing host with
    | nil => exact ⟨(List.append_nil live) ▸ accounted, host.fds, host.mappings, rfl⟩
    | cons forked vms ih =>
      obtain ⟨fewer, fds, mappings, dropped⟩ := drop_spec accounted (List.perm_middle)
      obtain ⟨rest, fds', mappings', done⟩ := ih (forked.drop host) fewer
      refine ⟨rest, fds', mappings', done.trans ?_⟩
      rw [dropped]
  obtain ⟨accounted, fds, mappings, dropped⟩ := accounts vms host sound.accounted
  rw [dropped] at accounted ⊢
  refine sound.fewer accounted count fun i one image old known => ⟨i, ?_, ?_⟩
  · exact (List.getElem?_append_left (List.getElem?_eq_some_iff.mp old).1).trans old
  · exact (List.getElem?_append_left (List.getElem?_eq_some_iff.mp known).1).trans known

/-- Each late failure loses one mapping. -/
structure Losses (engine : ForkEngine) (failed : List ForkFailure) (lost : List Span) : Prop where
  count : lost.length = failed.countP late
  size : ∀ span ∈ lost, ∃ address, span = ⟨address, address + engine.vcpuMmapSize⟩

theorem Losses.add {failed : List ForkFailure} {e : ForkFailure} {more : List Span} (losses : Losses engine failed lost)
    (leaves : Leaves engine e more) : Losses engine (failed ++ [e]) (more ++ lost) := by
  rw [Leaves] at leaves
  split at leaves
  · next yes =>
    obtain ⟨address, rfl⟩ := leaves
    refine ⟨by simp [losses.count, yes], fun span member => ?_⟩
    rcases List.mem_cons.mp member with rfl | old
    · exact ⟨address, rfl⟩
    · exact losses.size span old
  · next no =>
    rw [leaves]
    exact ⟨by simp [losses.count, no], losses.size⟩

theorem fork_tenancy (prepared : Prepared engine start) :
    Triple (Sound engine start live lost tenancy) (Forking.fork kernel engine)
      (fun forked => Sound engine start (live ++ [forked]) lost (tenancy.joined (engine.image start.files) 1))
      fun e host => ∃ more, Leaves engine e more ∧ Sound engine start live (more ++ lost) tenancy host := by
  refine triple_of_forall fun before sound => ?_
  exact (fork_spec prepared.fits sound.accounted.apart).weaken (fun _ same => same)
    (fun _ _ forks => sound.came prepared forks) fun _ _ remains => sound.failed prepared remains

/-- A batch comes whole, or goes whole. -/
theorem forkOnto_tenancy (prepared : Prepared engine start) (counted : tenancy.images.length = live.length)
    (count : Nat) (vms : List ForkedVm) :
    Triple (Sound engine start (live ++ vms) lost (tenancy.joined (engine.image start.files) vms.length))
      (forkOnto kernel engine vms count)
      (fun all host => all.length = vms.length + count ∧
        Sound engine start (live ++ all) lost (tenancy.joined (engine.image start.files) all.length) host)
      fun e host => ∃ more, Leaves engine e more ∧ Sound engine start live (more ++ lost) tenancy host := by
  induction count generalizing vms with
  | zero => exact fun host sound => ⟨rfl, sound⟩
  | succ count ih =>
    have forks : Triple
        (Sound engine start (live ++ vms) lost (tenancy.joined (engine.image start.files) vms.length))
        (guarded (dropAll vms) (Forking.fork kernel engine))
        (fun forked => Sound engine start (live ++ (vms ++ [forked])) lost
          (tenancy.joined (engine.image start.files) (vms ++ [forked]).length))
        fun e host => ∃ more, Leaves engine e more ∧ Sound engine start live (more ++ lost) tenancy host := by
      refine Triple.guarded ((fork_tenancy prepared).weaken (fun _ sound => sound) (fun forked host sound => ?_) ?_)
      · simpa [Tenancy.joined, List.replicate_succ'] using sound
      · rintro e host ⟨more, leaves, sound⟩
        exact ⟨more, leaves, sound.dropAll counted⟩
    refine forks.bind fun forked => (ih (vms ++ [forked])).weaken (fun _ sound => sound) ?_ fun _ _ failed => failed
    rintro all host ⟨length, sound⟩
    refine ⟨?_, sound⟩
    rw [length, List.length_append, List.length_singleton]
    omega

theorem forkOne_tenancy (prepared : Prepared engine start) :
    Triple (Sound engine start live lost tenancy) (do return [← Forking.fork kernel engine])
      (fun vms host => vms.length = 1 ∧
        Sound engine start (live ++ vms) lost (tenancy.joined (engine.image start.files) vms.length) host)
      fun e host => ∃ more, Leaves engine e more ∧ Sound engine start live (more ++ lost) tenancy host :=
  (fork_tenancy prepared).bind fun _ _ joined => ⟨rfl, joined⟩

theorem forkBatch_tenancy (prepared : Prepared engine start) (counted : tenancy.images.length = live.length)
    (count : Nat) :
    Triple (Sound engine start live lost tenancy) (Forking.forkBatch kernel engine count)
      (fun vms host => vms.length = count ∧
        Sound engine start (live ++ vms) lost (tenancy.joined (engine.image start.files) vms.length) host)
      fun e host => ∃ more, Leaves engine e more ∧ Sound engine start live (more ++ lost) tenancy host := by
  unfold Forking.forkBatch
  refine (forkOnto_tenancy prepared counted count []).weaken (fun host kept => ?_) (fun all host joined => ?_)
    fun _ _ failed => failed
  · simpa [Tenancy.joined] using kept
  · exact ⟨joined.1.trans (Nat.zero_add count), joined.2⟩

/-- A call that forks has come back, with so many VMs or with none. -/
theorem after_sound {process : Process} {call : Forks (List ForkedVm)} {count : Nat}
    (sound : Sound engine start process.live lost tenancy process.host) (losses : Losses engine process.failed lost)
    (triple : Triple (Sound engine start process.live lost tenancy) call
      (fun vms host => vms.length = count ∧
        Sound engine start (process.live ++ vms) lost (tenancy.joined (engine.image start.files) vms.length) host)
      fun e host => ∃ more, Leaves engine e more ∧ Sound engine start process.live (more ++ lost) tenancy host)
    {next : Process} (came : next = process.after (call process.host)) :
    ∃ lost, Losses engine next.failed lost ∧ Sound engine start next.live lost
      (if decide (process.failed.length < next.failed.length) then tenancy
        else tenancy.joined (engine.image start.files) count) next.host := by
  have told := triple process.host sound
  rcases ran : call process.host with ⟨e | vms, host⟩ <;> rw [ran] at told came <;> subst came
  · obtain ⟨more, leaves, kept⟩ := told
    refine ⟨more ++ lost, losses.add leaves, ?_⟩
    rw [if_pos (decide_eq_true (by simp [Process.after]))]
    exact kept
  · obtain ⟨rfl, kept⟩ := told
    refine ⟨lost, losses, ?_⟩
    rw [if_neg (by simp [Process.after])]
    exact kept

/-- Where a guest's address lies: in its own memory, or in a shared region. -/
theorem translate_slots (memoryPtr gpa : Nat) : Forking.translate (slotsOf engine memoryPtr) gpa =
    if InMemory engine gpa then some (memoryPtr + (gpa - engine.snapshot.loadAddr.toNat), false)
    else (regionAt engine gpa).map fun entry => (entry.1.1.hostPtr + (gpa - entry.1.2), true) := by
  unfold Forking.translate slotsOf
  rw [List.find?_cons]
  by_cases own : InMemory engine gpa
  · have hit : decide ((memorySlot engine memoryPtr).guestPhysAddr ≤ gpa ∧
        gpa < (memorySlot engine memoryPtr).guestPhysAddr + (memorySlot engine memoryPtr).memorySize) = true :=
      decide_eq_true own
    rw [hit, if_pos own]
    rfl
  · have miss : decide ((memorySlot engine memoryPtr).guestPhysAddr ≤ gpa ∧
        gpa < (memorySlot engine memoryPtr).guestPhysAddr + (memorySlot engine memoryPtr).memorySize) = false :=
      decide_eq_false own
    rw [miss, if_neg own]
    dsimp only
    rw [sharedSlots, List.find?_map, Option.map_map]
    rfl

theorem regionAt_spec {gpa : Nat} {entry : (SharedMemoryRegion × Nat) × Nat} (found : regionAt engine gpa = some entry) :
    entry ∈ engine.sharedRegions.zipIdx ∧ entry.1.2 ≤ gpa ∧ gpa < entry.1.2 + entry.1.1.size :=
  ⟨List.mem_of_find?_eq_some found, by simpa using List.find?_some found⟩

/-- A guest reads what its tenant does. -/
theorem Tenants.reads (tenants : Tenants engine start live tenancy host) {i : Nat} {image : Memory}
    (found : live[i]? = some forked) (shown : tenancy.images[i]? = some image) (gpa : Nat) :
    guestReads host forked.vm gpa = tenancy.reads engine image gpa := by
  have houses := tenants.houses i forked image found shown
  rw [guestReads, houses.slots, translate_slots, Tenancy.reads]
  split
  · next own =>
    have inside : gpa - engine.snapshot.loadAddr.toNat < forked.memorySize := by
      rw [houses.size]
      unfold InMemory at own
      omega
    exact congrArg some (houses.image _ inside)
  · cases at_ : regionAt engine gpa with
    | none => rfl
    | some entry =>
      obtain ⟨member, low, high⟩ := regionAt_spec at_
      exact congrArg some (tenants.shared entry member _ (by omega))

/-- Memory has changed, and the tenancy with it. -/
theorem Sound.stored (sound : Sound engine start live lost tenancy host) {memory : Memory} {next : Tenancy}
    (count : next.images.length = live.length)
    (images : ∀ (i : Nat) (forked : ForkedVm) (image : Memory), live[i]? = some forked → next.images[i]? = some image →
      ∀ o < forked.memorySize, memory (forked.memoryPtr + o) = image o)
    (shared : ∀ entry ∈ engine.sharedRegions.zipIdx, ∀ o < entry.1.1.size,
      memory (entry.1.1.hostPtr + o) = next.shared entry.2 o) :
    Sound engine start live lost next { host with memory := memory } := by
  refine ⟨⟨sound.accounted.fds, sound.accounted.mappings, sound.accounted.apart, sound.accounted.strays⟩,
    sound.tenants.files, count, fun i forked image found shown => ?_, shared⟩
  have inside : i < tenancy.images.length := sound.tenants.count ▸ (List.getElem?_eq_some_iff.mp found).1
  have houses := sound.tenants.houses i forked tenancy.images[i] found (List.getElem?_eq_getElem inside)
  exact ⟨houses.known, houses.size, houses.slots, images i forked image found shown⟩

/-- A guest's write to its memory changes its tenant's, and no other's. -/
theorem Sound.guestWrites (prepared : Prepared engine start) (sound : Sound engine start live lost tenancy host)
    {index : Nat} (found : live[index]? = some forked) (gpa : Nat) (byte : UInt8) :
    Sound engine start live lost
      { tenancy with images := tenancy.images.modify index (written engine gpa byte) }
      (Forking.guestWrites host forked.vm gpa byte) := by
  have inside : index < tenancy.images.length := sound.tenants.count ▸ (List.getElem?_eq_some_iff.mp found).1
  have houses := sound.tenants.houses index forked tenancy.images[index] found (List.getElem?_eq_getElem inside)
  have count : (tenancy.images.modify index (written engine gpa byte)).length = live.length := by
    rw [List.length_modify, sound.tenants.count]
  unfold Forking.guestWrites
  rw [houses.slots, translate_slots]
  by_cases own : InMemory engine gpa
  · rw [if_pos own]
    dsimp only
    have within : (memorySpan forked).Has (forked.memoryPtr + (gpa - engine.snapshot.loadAddr.toNat)) := by
      refine ⟨Nat.le_add_right _ _, Nat.add_lt_add_left ?_ _⟩
      rw [houses.size]
      unfold InMemory at own
      omega
    refine sound.stored count (fun i one image old shown o low => ?_) fun entry member o low => ?_
    · rw [List.getElem?_modify] at shown
      obtain ⟨before, known, rfl⟩ := Option.map_eq_some_iff.mp shown
      have content := (sound.tenants.houses i one before old known).image o low
      by_cases same : index = i
      · subst same
        obtain rfl := Option.some.inj (found.symm.trans old)
        rw [if_pos rfl, written, if_pos own]
        by_cases at_ : o = gpa - engine.snapshot.loadAddr.toNat
        · rw [at_, Function.update_self, store_singleton, Function.update_self]
        · rw [Function.update_of_ne at_, store_singleton, Function.update_of_ne (by omega), content]
      · rw [if_neg same, ← content, store_singleton, Function.update_of_ne]
        intro hit
        have apart := sound.accounted.tenants_apart found old same
        exact apart _ within (hit ▸ ⟨Nat.le_add_right _ _, Nat.add_lt_add_left low _⟩)
    · rw [← sound.tenants.shared entry member o low, store_singleton, Function.update_of_ne]
      intro hit
      have held := prepared.regions entry.1 (List.fst_mem_of_mem_zipIdx member)
      have apart := sound.accounted.start_apart (List.mem_of_getElem? found) held
      exact apart _ within (hit ▸ ⟨Nat.le_add_right _ _, Nat.add_lt_add_left low _⟩)
  · rw [if_neg own]
    have same : written engine gpa byte = id := funext fun image => if_neg own
    rw [same, List.modify_id]
    cases regionAt engine gpa <;> exact sound

/-- The host's write to a shared region changes that region for all tenants,
and nothing else. -/
theorem Sound.regionWrites (prepared : Prepared engine start) (sound : Sound engine start live lost tenancy host)
    {index : Nat} {region : SharedMemoryRegion × Nat} (found : engine.sharedRegions[index]? = some region)
    {offset : Nat} {data : List UInt8} (fits : offset + data.length ≤ region.1.size) :
    Sound engine start live lost
      { tenancy with shared := Function.update tenancy.shared index ((tenancy.shared index).store offset data) }
      { host with memory := host.memory.store (region.1.hostPtr + offset) data } := by
  have untouched (a : Nat) (outside : ¬ (regionSpan region.1).Has a) :
      host.memory.store (region.1.hostPtr + offset) data a = host.memory a := by
    refine Memory.store_outside ?_
    simp only [Span.Has, regionSpan] at outside
    omega
  refine sound.stored sound.tenants.count (fun i one image old shown o low => ?_) fun entry member o low => ?_
  · rw [untouched]
    · exact (sound.tenants.houses i one image old shown).image o low
    · have held := prepared.regions region (List.mem_of_getElem? found)
      exact sound.accounted.start_apart (List.mem_of_getElem? old) held _
        ⟨Nat.le_add_right _ _, Nat.add_lt_add_left low _⟩
  · have known := sound.tenants.shared entry member o low
    have at_ : engine.sharedRegions[entry.2]? = some entry.1 := List.mem_zipIdx_iff_getElem?.mp member
    by_cases same : entry.2 = index
    · obtain rfl : region = entry.1 := Option.some.inj (found.symm.trans (same ▸ at_))
      dsimp only
      rw [same] at known ⊢
      rw [Function.update_self]
      exact store_shifted known
    · dsimp only
      rw [Function.update_of_ne same, untouched _ ?_, known]
      intro hit
      obtain ⟨below, rfl⟩ := List.getElem?_eq_some_iff.mp found
      obtain ⟨within, there⟩ := List.getElem?_eq_some_iff.mp at_
      have here : (regionSpan entry.1.1).Has (entry.1.1.hostPtr + o) := ⟨Nat.le_add_right _ _, Nat.add_lt_add_left low _⟩
      rw [← there] at here hit
      have pairs := List.pairwise_iff_getElem.mp prepared.distinct
      rcases Nat.lt_or_gt_of_ne same with before | after
      · exact pairs entry.2 index within below before _ here hit
      · exact pairs index entry.2 below within after _ hit here

/-- The rest of the process leaves the tenants alone. -/
theorem Sound.others (sound : Sound engine start live lost tenancy host) {asked : Nat} {vms : Nat → Vm}
    {vcpus : Nat → Vcpu} (later : host.asked ≤ asked) (slots : ∀ fd, (vms fd).slots = (host.vms fd).slots) :
    Sound engine start live lost tenancy { host with asked := asked, vms := vms, vcpus := vcpus } := by
  refine ⟨⟨sound.accounted.fds, sound.accounted.mappings, sound.accounted.apart, sound.accounted.strays⟩,
    sound.tenants.files, sound.tenants.count, fun i forked image found shown => ?_, sound.tenants.shared⟩
  exact (sound.tenants.houses i forked image found shown).alike later (slots _) fun _ _ => rfl

end Deeds

/-! ## Whole runs -/

section Runs
variable {kernel : Kernel} {engine : ForkEngine} {start : HostState} {state next : Process × Tenancy}

/-- What is true of every state. -/
def Upheld (engine : ForkEngine) (start : HostState) (state : Process × Tenancy) : Prop :=
  ∃ lost, Losses engine state.1.failed lost ∧ Sound engine start state.1.live lost state.2 state.1.host

theorem upheld_start (prepared : Prepared engine start) (begins : (tenancies kernel engine start).start state) :
    Upheld engine start state := by
  obtain ⟨process, tenancy⟩ := state
  obtain ⟨rfl, none, shared⟩ := begins
  refine ⟨[], ⟨rfl, fun _ among => absurd among List.not_mem_nil⟩, ?_, ?_⟩
  · exact ⟨List.Perm.refl _, List.Perm.refl _, prepared.apart, rfl⟩
  · refine ⟨rfl, congrArg List.length none, fun i forked image found => ?_, fun entry member o inside =>
      (shared entry member o inside).symm⟩
    simp at found

theorem upheld_step (prepared : Prepared engine start) {deed : Deed} (upheld : Upheld engine start state)
    (steps : (tenancies kernel engine start).step state deed next) : Upheld engine start next := by
  obtain ⟨lost, losses, sound⟩ := upheld
  obtain ⟨process, tenancy⟩ := state
  obtain ⟨does, follows⟩ := steps
  unfold Upheld
  rw [follows]
  generalize next.1 = process' at does
  dsimp only at losses sound does
  have counted := sound.tenants.count
  cases deed with
  | fork => exact after_sound sound losses (forkOne_tenancy prepared) does
  | forkBatch count => exact after_sound sound losses (forkBatch_tenancy prepared counted count) does
  | drop index =>
    obtain ⟨forked, found, rfl⟩ := does
    exact ⟨lost, losses, sound.drop found⟩
  | guestWrites index gpa byte =>
    obtain ⟨forked, found, rfl⟩ := does
    exact ⟨lost, losses, sound.guestWrites prepared found gpa byte⟩
  | regionWrites index offset data =>
    obtain ⟨region, found, rfl⟩ := does
    refine ⟨lost, losses, ?_⟩
    simp only [Tenancy.after, found, SharedMemoryRegion.write]
    split
    · exact sound
    · next inside => exact sound.regionWrites prepared found (Nat.not_lt.mp inside)
  | others asked vms vcpus =>
    obtain ⟨later, slots, rfl⟩ := does
    exact ⟨lost, losses, sound.others later slots⟩

theorem reached_upheld (prepared : Prepared engine start)
    (reached : (tenancies kernel engine start).Reached (fun _ _ => True) state) : Upheld engine start state :=
  reached.invariant (fun _ begins => upheld_start prepared begins)
    fun _ _ _ upheld _ steps => upheld_step prepared upheld steps

/-- Whatever the kernel refuses, and wherever it does: the process holds what
its VMs hold, what it held at first, and one mapping of the vCPU for each fork
refused while the vCPU was restored. Nothing is given back twice. -/
theorem custody_kept (prepared : Prepared engine start)
    (reached : (tenancies kernel engine start).Reached (fun _ _ => True) state) :
    ∃ lost, Losses engine state.1.failed lost ∧ Accounted start state.1.live lost state.1.host := by
  obtain ⟨lost, losses, sound⟩ := reached_upheld prepared reached
  exact ⟨lost, losses, sound.accounted⟩

/-! ### The third of three forks refused -/

/-- Mappings come one after another. -/
def topmost (mapped : List Span) : Nat := mapped.foldr (fun span top => max span.stop top) 8192

theorem le_topmost {mapped : List Span} {span : Span} (member : span ∈ mapped) : span.stop ≤ topmost mapped := by
  induction mapped with
  | nil => exact absurd member List.not_mem_nil
  | cons first rest ih =>
    rcases List.mem_cons.mp member with rfl | later
    · exact Nat.le_max_left _ _
    · exact (ih later).trans (Nat.le_max_right _ _)

theorem topmost_pos (mapped : List Span) : 0 < topmost mapped := by
  induction mapped with
  | nil => decide
  | cons first rest ih => exact ih.trans_le (Nat.le_max_right _ _)

/-- One call is refused, for want of memory. -/
def refusing (call : Nat) : Kernel where
  refusal asked := if asked = call then some 12 else none
  place mapped _ := topmost mapped
  place_pos mapped _ := topmost_pos mapped
  place_free _ _ _ member _ above inside :=
    absurd ((inside.2.trans_le (le_topmost member)).trans_le above.1) (Nat.lt_irrefl _)
  readonlyMem := true
  acceptsMsr _ _ := true
  freshVcpu := ⟨[], Snapshot.zeroCpu.sregs, Snapshot.zeroCpu.regs, fun _ => 0, [], Memory.zeroed, Memory.zeroed⟩
  freshChips _ := Memory.zeroed
  freshPit := []
  setApicBase _ page := page

def oneByteEngine : ForkEngine := (ForkEngine.new none Snapshot.oneByte 4096).addSharedRegion ⟨4096, 4096⟩ 4096

def hostOfRegion : HostState :=
  ⟨0, [], [⟨4096, 8192⟩], Memory.zeroed, fun _ => [], fun _ => ⟨[], none, none, none⟩, fun _ => (refusing 0).freshVcpu, 0⟩

theorem region_prepared : Prepared oneByteEngine hostOfRegion where
  fits _ := by decide
  apart := List.pairwise_singleton _ _
  regions := by
    intro entry member
    rw [List.mem_singleton.mp member]
    exact List.mem_singleton_self _
  distinct := List.pairwise_singleton _ _

/-- One more fork, by the engine and for the tenants. -/
def forkOnce (state : Process × Tenancy) : Process × Tenancy :=
  let next := state.1.after ((do return [← Forking.fork (refusing 33) oneByteEngine]) state.1.host)
  (next, state.2.after oneByteEngine (oneByteEngine.image hostOfRegion.files) .fork
    (state.1.failed.length < next.failed.length))

def thirdRefused : Process × Tenancy := forkOnce (forkOnce (forkOnce (⟨hostOfRegion, [], []⟩, ⟨[], fun _ => Memory.zeroed⟩)))

theorem forkOnce_reached {state : Process × Tenancy}
    (reached : (tenancies (refusing 33) oneByteEngine hostOfRegion).Reached (fun _ _ => True) state) :
    (tenancies (refusing 33) oneByteEngine hostOfRegion).Reached (fun _ _ => True) (forkOnce state) := by
  have steps : (tenancies (refusing 33) oneByteEngine hostOfRegion).step state .fork (forkOnce state) := ⟨rfl, rfl⟩
  exact reached.next trivial steps

theorem thirdRefused_reached :
    (tenancies (refusing 33) oneByteEngine hostOfRegion).Reached (fun _ _ => True) thirdRefused := by
  have begins : (tenancies (refusing 33) oneByteEngine hostOfRegion).start
      (⟨hostOfRegion, [], []⟩, ⟨[], fun _ => Memory.zeroed⟩) := ⟨rfl, rfl, fun _ _ _ _ => rfl⟩
  exact forkOnce_reached (forkOnce_reached (forkOnce_reached (.start begins)))

theorem third_refused_custody :
    thirdRefused.1.failed = [.kvm (.ioctl "KVM_SET_REGS" 12)] ∧ thirdRefused.1.live.length = 2 ∧
      ∃ lost, Losses oneByteEngine thirdRefused.1.failed lost ∧
        Accounted hostOfRegion thirdRefused.1.live lost thirdRefused.1.host :=
  ⟨by decide +kernel, by decide +kernel, custody_kept region_prepared thirdRefused_reached⟩

/-- Every guest reads the snapshot with its own writes, and the shared regions
as the host wrote them. -/
theorem tenants_isolated (prepared : Prepared engine start)
    (reached : (tenancies kernel engine start).Reached (fun _ _ => True) state) :
    state.2.images.length = state.1.live.length ∧
      ∀ (i : Nat) (forked : ForkedVm) (image : Memory), state.1.live[i]? = some forked →
        state.2.images[i]? = some image → ∀ gpa,
          guestReads state.1.host forked.vm gpa = state.2.reads engine image gpa := by
  obtain ⟨lost, losses, sound⟩ := reached_upheld prepared reached
  exact ⟨sound.tenants.count, fun i forked image found shown => sound.tenants.reads found shown⟩

/-- The first guest writes to its only byte. -/
def writeOnce (state : Process × Tenancy) : Process × Tenancy :=
  ({ state.1 with host := guestWrites state.1.host 0 0 7 },
    state.2.after oneByteEngine (oneByteEngine.image hostOfRegion.files) (.guestWrites 0 0 7) false)

theorem writeOnce_reached {state : Process × Tenancy}
    (reached : (tenancies (refusing 33) oneByteEngine hostOfRegion).Reached (fun _ _ => True) state)
    (first : (state.1.live[0]?.map ForkedVm.vm) = some 0) :
    (tenancies (refusing 33) oneByteEngine hostOfRegion).Reached (fun _ _ => True) (writeOnce state) := by
  obtain ⟨forked, found, number⟩ := Option.map_eq_some_iff.mp first
  have steps : (tenancies (refusing 33) oneByteEngine hostOfRegion).step state (.guestWrites 0 0 7) (writeOnce state) := by
    refine ⟨⟨forked, found, ?_⟩, ?_⟩
    · rw [number]
      rfl
    · rw [writeOnce, decide_eq_false (Nat.lt_irrefl _)]
  exact reached.next trivial steps

/-- Of the two guests there are then, the first has written. -/
def oneWritten : Process × Tenancy := writeOnce thirdRefused

theorem oneWritten_reached :
    (tenancies (refusing 33) oneByteEngine hostOfRegion).Reached (fun _ _ => True) oneWritten :=
  writeOnce_reached thirdRefused_reached (by decide +kernel)

theorem one_write_read_by_one :
    (oneWritten.1.live.map fun forked => guestReads oneWritten.1.host forked.vm 0) = [some 7, some 1] := by
  obtain ⟨-, reads⟩ := tenants_isolated region_prepared oneWritten_reached
  have first : (oneWritten.2.images[0]?.map fun image => oneWritten.2.reads oneByteEngine image 0) = some (some 7) := by
    decide +kernel
  have second : (oneWritten.2.images[1]?.map fun image => oneWritten.2.reads oneByteEngine image 0) = some (some 1) := by
    decide +kernel
  obtain ⟨written, shown, seven⟩ := Option.map_eq_some_iff.mp first
  obtain ⟨spared, known, one⟩ := Option.map_eq_some_iff.mp second
  obtain ⟨left, right, both⟩ := List.length_eq_two.mp (show oneWritten.1.live.length = 2 by decide +kernel)
  rw [both] at reads ⊢
  rw [List.map_cons, List.map_cons, List.map_nil, reads 0 left written rfl shown, reads 1 right spared rfl known, seven, one]

end Runs
end TinyMachine.Forking
