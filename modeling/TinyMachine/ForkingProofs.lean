import TinyMachine.Forking

/-! What each call of a fork leaves alone, and from that what a whole fork does:
the descriptors and mappings it takes, the slots of its VM, the bytes it maps,
and what stays behind when a call is refused. -/
namespace TinyMachine.Forking
open Lib Lib.Attempt Snapshots KvmHost

/-- Nothing but vCPUs, interrupt controllers and timers has changed. -/
structure Alike (before host : HostState) : Prop where
  later : before.asked ≤ host.asked
  fds : host.fds = before.fds
  mappings : host.mappings = before.mappings
  memory : host.memory = before.memory
  files : host.files = before.files
  strays : host.strays = before.strays
  slots : ∀ fd, (host.vms fd).slots = (before.vms fd).slots

/-- The computation leaves the host alike, and fails with such an error only. -/
def Quiet {ε α : Type} (blames : ε → Prop) (x : Attempt ε HostState α) : Prop :=
  ∀ before, Triple (Alike before) x (fun _ => Alike before) fun e host => Alike before host ∧ blames e

/-- The error comes from a call that restores the vCPU. -/
def late : ForkFailure → Bool
  | .kvm (.ioctl context _) => context = "KVM_SET_CPUID2" || context = "KVM_SET_SREGS" || context = "KVM_SET_REGS"
  | _ => false

section Hosts
variable {before host : HostState}

theorem Alike.refl (host : HostState) : Alike host host := ⟨Nat.le_refl _, rfl, rfl, rfl, rfl, rfl, fun _ => rfl⟩

theorem Alike.asked (alike : Alike before host) : Alike before { host with asked := host.asked + 1 } :=
  ⟨alike.later.trans (Nat.le_succ _), alike.fds, alike.mappings, alike.memory, alike.files, alike.strays, alike.slots⟩

theorem Alike.setVcpu (alike : Alike before host) (fd : Nat) (vcpu : Vcpu) : Alike before (host.setVcpu fd vcpu) :=
  ⟨alike.later, alike.fds, alike.mappings, alike.memory, alike.files, alike.strays, alike.slots⟩

theorem setVm_slots {fd other : Nat} {vm : Vm} :
    ((host.setVm fd vm).vms other).slots = if other = fd then vm.slots else (host.vms other).slots := by
  show (Function.update host.vms fd vm other).slots = _
  by_cases one : other = fd
  · rw [one, Function.update_self, if_pos rfl]
  · rw [Function.update_of_ne one, if_neg one]

theorem Alike.setVm (alike : Alike before host) {fd : Nat} {vm : Vm} (same : vm.slots = (host.vms fd).slots) :
    Alike before (host.setVm fd vm) := by
  refine ⟨alike.later, alike.fds, alike.mappings, alike.memory, alike.files, alike.strays, fun other => ?_⟩
  rw [← alike.slots other, setVm_slots]
  split
  · next one => rw [one, same]
  · rfl

end Hosts

/-! ## Calls that leave the host alike -/

section Quietness
variable {ε ε' α β : Type} {blames : ε → Prop} {blames' : ε' → Prop} {x : Attempt ε HostState α} {f : α → Attempt ε HostState β}

theorem quiet_pure (a : α) : Quiet blames (pure a : Attempt ε HostState α) := fun _ _ alike => alike

theorem quiet_fail {e : ε} (told : blames e) : Quiet blames (fail e : Attempt ε HostState α) := fun _ _ alike => ⟨alike, told⟩

theorem quiet_get : Quiet blames (Attempt.get : Attempt ε HostState HostState) := fun _ _ alike => alike

theorem quiet_modify {g : HostState → HostState} (still : ∀ before host, Alike before host → Alike before (g host)) :
    Quiet blames (modify g : Attempt ε HostState Unit) := still

theorem Quiet.bind (first : Quiet blames x) (next : ∀ a, Quiet blames (f a)) : Quiet blames (x >>= f) :=
  fun before => (first before).bind fun a => next a before

theorem Quiet.weaken {other : ε → Prop} (quiet : Quiet blames x) (implied : ∀ e, blames e → other e) : Quiet other x :=
  fun before => (quiet before).weaken (fun _ alike => alike) (fun _ _ done => done)
    fun e _ failed => ⟨failed.1, implied e failed.2⟩

theorem Quiet.adapt {g : ε → ε'} (quiet : Quiet (fun e => blames' (g e)) x) : Quiet blames' (x.adapt g) :=
  fun before => (quiet before).adapt

/-- What is only tried does not fail. -/
theorem Quiet.attempt (quiet : Quiet blames x) : Quiet blames' (x.attempt : Attempt ε' HostState (Option α)) :=
  fun before => Triple.attempt ((quiet before).weaken (fun _ alike => alike) (fun _ _ done => done)
    fun _ _ failed => failed.1)

end Quietness

section Calls
variable {kernel : Kernel} {blames : KvmError → Prop} {α : Type}

theorem quiet_ask {refused : Nat → KvmError} (told : ∀ errno, blames (refused errno)) :
    Quiet blames (ask kernel refused) := by
  intro before host alike
  unfold ask
  cases kernel.refusal host.asked with
  | some errno => exact ⟨alike.asked, told errno⟩
  | none => exact alike.asked

theorem quiet_ioctl {context : String} (told : ∀ errno, blames (.ioctl context errno)) :
    Quiet blames (ioctl kernel context) := quiet_ask told

theorem quiet_tolerating {value : α} {call : KvmCall α} (quiet : Quiet blames call) :
    Quiet blames (tolerating value call) := by
  intro before host alike
  have told := quiet before host alike
  unfold tolerating
  rcases ran : call host with ⟨(⟨context, errno⟩ | cap | message) | a, host'⟩ <;> rw [ran] at told
  · by_cases mild : errno = EINVAL ∨ errno = ENXIO
    · simp only [if_pos mild]
      exact told.1
    · simp only [if_neg mild]
      exact told
  · exact told
  · exact told
  · exact told

theorem quiet_setting {context : String} {vcpu : Nat} {change : Vcpu → Vcpu}
    (told : ∀ errno, blames (.ioctl context errno)) : Quiet blames (setting kernel context vcpu change) :=
  (quiet_ioctl told).bind fun _ => quiet_modify fun _ _ alike => alike.setVcpu _ _

theorem quiet_createIrqchip {vm : Nat} (told : ∀ errno, blames (.ioctl "KVM_CREATE_IRQCHIP" errno)) :
    Quiet blames (createIrqchip kernel vm) := by
  refine (quiet_ioctl told).bind fun _ => quiet_get.bind fun host => ?_
  dsimp only
  split
  · exact quiet_fail (told _)
  · split
    · exact quiet_fail (told _)
    · exact quiet_modify fun _ _ alike => alike.setVm rfl

theorem quiet_createPit {vm : Nat} (told : ∀ errno, blames (.ioctl "KVM_CREATE_PIT2" errno)) :
    Quiet blames (createPit kernel vm) :=
  (quiet_ioctl told).bind fun _ => quiet_modify fun _ _ alike => alike.setVm rfl

theorem quiet_setPit2 (vm : Nat) : Quiet (fun _ => True) (setPit2 kernel vm) :=
  (quiet_ioctl fun _ => trivial).bind fun _ => quiet_modify fun _ _ alike => alike.setVm rfl

theorem quiet_getIrqchip (vm chip : Nat) : Quiet (fun _ => True) (getIrqchip kernel vm chip) := by
  refine (quiet_ioctl fun _ => trivial).bind fun _ => quiet_get.bind fun host => ?_
  cases (host.vms vm).chips with
  | some chips => exact quiet_pure _
  | none => exact quiet_fail trivial

theorem quiet_setIrqchip (vm chip : Nat) (state : Memory) : Quiet (fun _ => True) (setIrqchip kernel vm chip state) := by
  refine (quiet_ioctl fun _ => trivial).bind fun _ => quiet_get.bind fun host => ?_
  cases (host.vms vm).chips with
  | some chips => exact quiet_modify fun _ _ alike => alike.setVm rfl
  | none => exact quiet_fail trivial

theorem quiet_restoreMsrs (vcpu : Nat) (msrs : List (UInt32 × UInt64)) :
    Quiet (fun _ => True) (restoreMsrs kernel vcpu msrs) := by
  unfold restoreMsrs
  split
  · exact quiet_pure 0
  · exact quiet_tolerating ((quiet_setting fun _ => trivial).bind fun _ => quiet_pure _)

theorem quiet_setXcrs (vcpu : Nat) (xcrs : List (UInt32 × UInt64)) :
    Quiet (fun _ => True) (setXcrs kernel vcpu xcrs) := by
  unfold setXcrs
  split
  · exact quiet_pure ()
  · exact quiet_tolerating (quiet_setting fun _ => trivial)

theorem quiet_getApicBase (vcpu : Nat) : Quiet (fun _ => True) (getApicBase kernel vcpu) :=
  (quiet_ioctl fun _ => trivial).bind fun _ => quiet_get.bind fun _ => quiet_pure _

theorem quiet_setApicBase (vcpu : Nat) (value : UInt64) : Quiet (fun _ => True) (setApicBase kernel vcpu value) := by
  refine (quiet_ioctl fun _ => trivial).bind fun _ => ?_
  split
  · exact quiet_modify fun _ _ alike => alike.setVcpu _ _
  · exact quiet_fail trivial

theorem quiet_getLapic (context : String) (vcpu : Nat) : Quiet (fun _ => True) (getLapic kernel context vcpu) :=
  (quiet_ioctl fun _ => trivial).bind fun _ => quiet_get.bind fun _ => quiet_pure _

theorem quiet_enableApic (vcpu : Nat) : Quiet (fun _ => True) (enableApic kernel vcpu) :=
  (quiet_getApicBase vcpu).bind fun _ => (quiet_setApicBase vcpu _).bind fun _ =>
    (quiet_getApicBase vcpu).attempt.bind fun _ => (quiet_setApicBase vcpu _).attempt.bind fun _ =>
      (quiet_setApicBase vcpu _).attempt.bind fun _ => (quiet_getLapic _ vcpu).bind fun _ =>
        (quiet_setting fun _ => trivial).bind fun _ => (quiet_getLapic _ vcpu).attempt.bind fun _ => quiet_pure ()

end Calls

/-- A refused call before the vCPU is restored. -/
def Early (e : KvmError) : Prop := late (.kvm e) = false

section Steps
variable {kernel : Kernel} {engine : ForkEngine} {blames : KvmError → Prop}

theorem quiet_restoreOne (vm chip : Nat) (data : Option (Bytes chipSize)) :
    Quiet blames (restoreOne kernel vm chip data) := by
  cases data with
  | some data => exact (quiet_setIrqchip vm chip _).attempt.bind fun _ => quiet_pure ()
  | none => exact quiet_pure ()

theorem quiet_unmaskIrq11 (vm : Nat) : Quiet blames (unmaskIrq11 kernel vm) := by
  refine (quiet_getIrqchip vm picMaster).attempt.bind fun _ => (quiet_getIrqchip vm picSlave).attempt.bind fun pic => ?_
  cases pic with
  | some pic =>
    dsimp only
    split
    · exact (quiet_setIrqchip vm picSlave _).attempt.bind fun _ => quiet_pure ()
    · exact quiet_pure ()
  | none => exact quiet_pure ()

theorem quiet_routeIrq11 (vm : Nat) (ioapic : Option (Bytes chipSize)) : Quiet blames (routeIrq11 kernel vm ioapic) := by
  cases ioapic with
  | some data =>
    refine (quiet_setIrqchip vm ioapicChip _).attempt.bind fun set => ?_
    cases set with
    | some done => exact (quiet_getIrqchip vm ioapicChip).attempt.bind fun _ => quiet_pure ()
    | none => exact quiet_pure ()
  | none => exact quiet_pure ()

theorem quiet_restoreChips (vm : Nat) (chips : IrqChipState) : Quiet blames (restoreChips kernel vm chips) :=
  (quiet_restoreOne vm picMaster _).bind fun _ => (quiet_restoreOne vm picSlave _).bind fun _ =>
    (quiet_restoreOne vm ioapicChip _).bind fun _ => (quiet_unmaskIrq11 vm).bind fun _ => quiet_routeIrq11 vm _

theorem quiet_setUpIrqchip (vm : Nat) : Quiet Early (setUpIrqchip kernel engine vm) := by
  unfold setUpIrqchip
  split
  · refine (quiet_createIrqchip fun _ => rfl).bind fun _ => (quiet_createPit fun _ => rfl).bind fun _ =>
      (quiet_setPit2 vm).attempt.bind fun _ => ?_
    cases engine.snapshot.irqchips with
    | some chips => exact quiet_restoreChips vm chips
    | none => exact quiet_pure ()
  · exact quiet_pure ()

/-- Where restoring the vCPU fails, it fails in a late call. -/
theorem quiet_restoreCpu (vcpu : Nat) : Quiet (fun e => late (.kvm e) = true) (restoreCpu kernel engine vcpu) := by
  refine (quiet_setting fun _ => rfl).bind fun _ => (quiet_setting fun _ => rfl).bind fun _ =>
    (quiet_setting fun _ => rfl).bind fun _ => (quiet_restoreMsrs vcpu _).attempt.bind fun _ =>
      (quiet_setXcrs vcpu _).attempt.bind fun _ => ?_
  have saves : Quiet (fun _ => True) (setXsave kernel vcpu
      (buildCleanXsave ((engine.snapshot.cpu.xcrs.head?.map Prod.snd).getD xcr0X87SseAvx))) :=
    quiet_tolerating (quiet_setting fun _ => trivial)
  refine saves.attempt.bind fun _ => ?_
  split
  · exact (quiet_enableApic vcpu).attempt.bind fun _ => quiet_pure ()
  · exact quiet_pure ()

end Steps

/-! ## A fork under way -/

/-- What a fork holds by now, beside what was held before: descriptors, and
mappings with what was put into them. Its VM has such slots. -/
structure Stage (before : HostState) (taken : List Nat) (maps : List (Span × Memory)) (vm : Nat) (slots : List KvmMemoryRegion)
    (host : HostState) : Prop where
  later : before.asked ≤ host.asked
  fds : host.fds.Perm (taken ++ before.fds)
  fresh : ∀ fd ∈ vm :: taken, before.asked ≤ fd ∧ fd < host.asked
  mappings : host.mappings.Perm (maps.map Prod.fst ++ before.mappings)
  apart : host.mappings.Pairwise Span.Disjoint
  contents : ∀ map ∈ maps, ∀ a, map.1.Has a → host.memory a = map.2 (a - map.1.start)
  memory : ∀ a, Covers before.mappings a → host.memory a = before.memory a
  files : host.files = before.files
  strays : host.strays = before.strays
  others : ∀ fd < before.asked, (host.vms fd).slots = (before.vms fd).slots
  own : (host.vms vm).slots = slots

section Stages
variable {before host other : HostState} {taken : List Nat} {maps : List (Span × Memory)} {vm : Nat} {slots : List KvmMemoryRegion}

theorem Stage.alike (stage : Stage before taken maps vm slots host) (alike : Alike host other) :
    Stage before taken maps vm slots other where
  later := stage.later.trans alike.later
  fds := alike.fds ▸ stage.fds
  fresh fd member := ⟨(stage.fresh fd member).1, (stage.fresh fd member).2.trans_le alike.later⟩
  mappings := alike.mappings ▸ stage.mappings
  apart := alike.mappings ▸ stage.apart
  contents map member a inside := (congrFun alike.memory a).trans (stage.contents map member a inside)
  memory a covered := (congrFun alike.memory a).trans (stage.memory a covered)
  files := alike.files.trans stage.files
  strays := alike.strays.trans stage.strays
  others fd old := (alike.slots fd).trans (stage.others fd old)
  own := (alike.slots vm).trans stage.own

/-- A quiet step does not change the stage. -/
theorem Quiet.stage {ε α : Type} {blames : ε → Prop} {x : Attempt ε HostState α} (quiet : Quiet blames x) :
    Triple (Stage before taken maps vm slots) x (fun _ => Stage before taken maps vm slots)
      fun e host => Stage before taken maps vm slots host ∧ blames e := by
  refine triple_of_forall fun s stage => ?_
  refine (quiet s).weaken (fun t same => same ▸ Alike.refl s) (fun _ _ alike => stage.alike alike) ?_
  exact fun e t failed => ⟨stage.alike failed.1, failed.2⟩

theorem Stage.opened (stage : Stage before taken maps vm slots host) :
    Stage before (host.asked :: taken) maps vm slots
      { host with asked := host.asked + 1, fds := host.asked :: host.fds } where
  later := stage.later.trans (Nat.le_succ _)
  fds := stage.fds.cons _
  fresh fd member := by
    have known : fd = host.asked ∨ fd ∈ vm :: taken := by
      rw [List.mem_cons] at member ⊢
      exact member.elim (fun own => .inr (.inl own)) fun rest => (List.mem_cons.mp rest).imp_right .inr
    rcases known with rfl | old
    · exact ⟨stage.later, Nat.lt_succ_self _⟩
    · exact ⟨(stage.fresh fd old).1, (stage.fresh fd old).2.trans (Nat.lt_succ_self _)⟩
  mappings := stage.mappings
  apart := stage.apart
  contents := stage.contents
  memory := stage.memory
  files := stage.files
  strays := stage.strays
  others := stage.others
  own := stage.own

theorem Stage.closeFd {fd : Nat} (stage : Stage before (fd :: taken) maps vm slots host) :
    Stage before taken maps vm slots (host.closeFd fd) := by
  have held : fd ∈ host.fds := stage.fds.mem_iff.mpr List.mem_cons_self
  unfold HostState.closeFd
  rw [if_pos held]
  refine ⟨stage.later, ?_, fun other member => stage.fresh other ?_, stage.mappings, stage.apart, stage.contents,
    stage.memory, stage.files, stage.strays, stage.others, stage.own⟩
  · simpa using stage.fds.erase fd
  · exact List.mem_cons.mpr ((List.mem_cons.mp member).imp_right (List.mem_cons_of_mem fd))

theorem Stage.munmap {address size : Nat} {content : Memory} {lost : List (Span × Memory)}
    (stage : Stage before taken (lost ++ (⟨address, address + size⟩, content) :: maps) vm slots host) :
    Stage before taken (lost ++ maps) vm slots (host.munmap address size) := by
  have perm : host.mappings.Perm (⟨address, address + size⟩ :: ((lost ++ maps).map Prod.fst ++ before.mappings)) := by
    refine stage.mappings.trans ?_
    simp only [List.map_append, List.map_cons, List.append_assoc, List.cons_append]
    exact List.perm_middle
  have held : ⟨address, address + size⟩ ∈ host.mappings := perm.mem_iff.mpr List.mem_cons_self
  unfold HostState.munmap
  rw [if_pos held]
  refine ⟨stage.later, stage.fds, stage.fresh, ?_, stage.apart.sublist List.erase_sublist, fun map member =>
    stage.contents map ?_, stage.memory, stage.files, stage.strays, stage.others, stage.own⟩
  · simpa using perm.erase ⟨address, address + size⟩
  · rcases List.mem_append.mp member with left | right
    · exact List.mem_append_left _ left
    · exact List.mem_append_right _ (List.mem_cons_of_mem _ right)

/-- A mapping is added where there is none. -/
theorem Stage.mapped {address size : Nat} (stage : Stage before taken maps vm slots host) (content : Memory)
    (free : ∀ other ∈ host.mappings, Span.Disjoint ⟨address, address + size⟩ other) :
    Stage before taken ((⟨address, address + size⟩, content) :: maps) vm slots (host.mapped address size content) := by
  have untouched {a : Nat} (covered : Covers host.mappings a) :
      (host.mapped address size content).memory a = host.memory a := by
    obtain ⟨span, member, inside⟩ := covered
    exact if_neg fun here => free span member a here inside
  refine ⟨stage.later, stage.fds, stage.fresh, stage.mappings.cons _, List.pairwise_cons.mpr ⟨free, stage.apart⟩, ?_,
    fun a covered => ?_, stage.files, stage.strays, stage.others, stage.own⟩
  · intro map member a inside
    rcases List.mem_cons.mp member with rfl | old
    · exact if_pos inside
    · rw [untouched ⟨map.1, stage.mappings.mem_iff.mpr (List.mem_append_left _ (List.mem_map_of_mem old)), inside⟩]
      exact stage.contents map old a inside
  · obtain ⟨span, member, inside⟩ := covered
    rw [untouched ⟨span, stage.mappings.mem_iff.mpr (List.mem_append_right _ member), inside⟩]
    exact stage.memory a ⟨span, member, inside⟩

theorem disjoint_symm {one two : Span} (apart : Span.Disjoint one two) : Span.Disjoint two one :=
  fun a inside other => apart a other inside

/-- The newest mapping is apart from the others. -/
theorem Stage.newest {span : Span} {content : Memory}
    (stage : Stage before taken ((span, content) :: maps) vm slots host) :
    ∀ other ∈ maps.map Prod.fst ++ before.mappings, Span.Disjoint span other := by
  have apart := (stage.mappings.pairwise_iff disjoint_symm).mp stage.apart
  exact (List.pairwise_cons.mp apart).1

/-- Bytes are written into a mapping of zeros. -/
theorem Stage.stored {address size : Nat} {bytes : List UInt8} (fits : bytes.length ≤ size)
    (stage : Stage before taken ((⟨address, address + size⟩, Memory.zeroed) :: maps) vm slots host) :
    Stage before taken ((⟨address, address + size⟩, Memory.zeroed.store 0 bytes) :: maps) vm slots
      { host with memory := host.memory.store address bytes } := by
  have untouched {a : Nat} (covered : Covers (maps.map Prod.fst ++ before.mappings) a) :
      host.memory.store address bytes a = host.memory a := by
    obtain ⟨span, member, inside⟩ := covered
    have out : ¬ (⟨address, address + size⟩ : Span).Has a := fun here => stage.newest span member a here inside
    refine Memory.store_outside ?_
    simp only [Span.Has, not_and_or, not_le, not_lt] at out
    omega
  refine ⟨stage.later, stage.fds, stage.fresh, stage.mappings, stage.apart, ?_, fun a covered => ?_, stage.files,
    stage.strays, stage.others, stage.own⟩
  · intro map member a inside
    rcases List.mem_cons.mp member with rfl | old
    · have zero := stage.contents _ List.mem_cons_self a inside
      have low : address ≤ a := inside.1
      show host.memory.store address bytes a = Memory.zeroed.store 0 bytes (a - address)
      by_cases within : a < address + bytes.length
      · rw [Memory.store_inside low within, Memory.store_inside (Nat.zero_le _) (by omega)]
        rfl
      · rw [Memory.store_outside (.inr (by omega)), Memory.store_outside (.inr (by omega))]
        exact zero
    · exact (untouched ⟨map.1, List.mem_append_left _ (List.mem_map_of_mem old), inside⟩).trans
        (stage.contents map (List.mem_cons_of_mem _ old) a inside)
  · obtain ⟨span, member, inside⟩ := covered
    exact (untouched ⟨span, List.mem_append_right _ member, inside⟩).trans (stage.memory a ⟨span, member, inside⟩)

end Stages

section Specs
variable {kernel : Kernel} {engine : ForkEngine} {before : HostState} {taken : List Nat} {maps : List (Span × Memory)}
  {vm : Nat} {slots : List KvmMemoryRegion}

theorem ask_spec {refused : Nat → KvmError} (start : HostState) :
    Triple (fun host => host = start) (ask kernel refused) (fun _ host => host = { start with asked := start.asked + 1 })
      fun e host => host = { start with asked := start.asked + 1 } ∧ ∃ errno, e = refused errno := by
  rintro host rfl
  unfold ask
  cases kernel.refusal host.asked with
  | some errno => exact ⟨rfl, errno, rfl⟩
  | none => rfl

theorem opening_spec {context : String} (start : HostState) :
    Triple (fun host => host = start) (opening kernel context)
      (fun fd host => fd = start.asked ∧ host = { start with asked := start.asked + 1, fds := fd :: start.fds })
      fun e host => host = { start with asked := start.asked + 1 } ∧ ∃ errno, e = .ioctl context errno := by
  have reads : Triple (fun host => host = start) (Attempt.get : KvmCall HostState) (fun read host => read = start ∧ host = start)
      fun e host => host = { start with asked := start.asked + 1 } ∧ ∃ errno, e = .ioctl context errno :=
    fun _ same => ⟨same, same⟩
  refine reads.bind fun read => triple_of_forall ?_
  rintro _ ⟨rfl, rfl⟩
  refine (ask_spec _).bind fun _ => triple_modify_pure ?_
  rintro host rfl
  exact ⟨rfl, rfl⟩

theorem createVm_stage (apart : before.mappings.Pairwise Span.Disjoint) :
    Triple (fun host => host = before) (createVm kernel) (fun vm => Stage before [vm] [] vm [])
      fun e host => (∃ vm slots, Stage before [] [] vm slots host) ∧ Early e := by
  refine Triple.bind ((opening_spec before).weaken (fun _ same => same) (fun _ _ done => done) ?_)
    fun fd => triple_modify_pure ?_
  · rintro e host ⟨rfl, errno, rfl⟩
    refine ⟨⟨before.asked, (before.vms before.asked).slots, Nat.le_succ _, List.Perm.refl _, fun fd member => ?_,
      List.Perm.refl _, apart, fun _ none => (List.not_mem_nil none).elim, fun _ _ => rfl, rfl, rfl,
      fun _ _ => rfl, rfl⟩, rfl⟩
    obtain rfl := List.mem_singleton.mp member
    exact ⟨Nat.le_refl _, Nat.lt_succ_self _⟩
  · rintro host ⟨rfl, rfl⟩
    refine ⟨Nat.le_succ _, List.Perm.refl _, fun fd member => ?_, List.Perm.refl _, apart,
      fun _ none => (List.not_mem_nil none).elim, fun _ _ => rfl, rfl, rfl, fun fd old => ?_, ?_⟩
    · have one : fd = before.asked := by simpa using member
      exact one ▸ ⟨Nat.le_refl _, Nat.lt_succ_self _⟩
    · rw [setVm_slots, if_neg (Nat.ne_of_lt old)]
    · rw [setVm_slots, if_pos rfl]

theorem createVcpu_stage : Triple (Stage before taken maps vm slots) (createVcpu kernel vm 0)
    (fun vcpu => Stage before (vcpu :: taken) maps vm slots)
    fun e host => Stage before taken maps vm slots host ∧ Early e := by
  have small : ¬ 0 ≥ maxVcpus := by decide
  unfold createVcpu
  rw [if_neg small]
  refine triple_of_forall fun start stage => ?_
  refine Triple.bind ((opening_spec start).weaken (fun _ same => same) (fun _ _ done => done) ?_)
    fun fd => triple_modify_pure ?_
  · rintro e host ⟨rfl, errno, rfl⟩
    exact ⟨stage.alike (Alike.refl start).asked, rfl⟩
  · rintro host ⟨rfl, rfl⟩
    refine stage.opened.alike (Alike.setVcpu (Alike.setVm (Alike.refl _) ?_) _ _)
    rfl

theorem mmap_stage {message : String} {size : Nat} {content : Memory} :
    Triple (Stage before taken maps vm slots) (mmap kernel message size content)
      (fun address => Stage before taken ((⟨address, address + size⟩, content) :: maps) vm slots)
      fun e host => Stage before taken maps vm slots host ∧ Early e := by
  have early : Early (.mmap message) := rfl
  have asks : Quiet Early (ask kernel fun _ => .mmap message) := quiet_ask fun _ => early
  refine asks.stage.bind fun _ => ?_
  split
  · exact fun _ stage => ⟨stage, early⟩
  · have reads : Triple (Stage before taken maps vm slots) (Attempt.get : KvmCall HostState)
        (fun read host => read = host ∧ Stage before taken maps vm slots host)
        fun e host => Stage before taken maps vm slots host ∧ Early e := fun _ stage => ⟨rfl, stage⟩
    refine reads.bind fun read => triple_modify_pure ?_
    rintro host ⟨rfl, stage⟩
    exact stage.mapped content (kernel.place_free read.mappings size)

/-- The bytes that are mapped: those of the file, or those in memory. -/
def ForkEngine.bytes (engine : ForkEngine) (files : Nat → List UInt8) : List UInt8 :=
  match engine.snapshot.memFd with
  | some fd => files fd
  | none => engine.snapshot.memory

def ForkEngine.image (engine : ForkEngine) (files : Nat → List UInt8) : Memory :=
  Memory.zeroed.store 0 (engine.bytes files)

/-- What is copied into the mapping fits there. -/
def Fits (engine : ForkEngine) : Prop :=
  engine.snapshot.memFd = none → engine.snapshot.memory.length ≤ engine.snapshot.memorySize.toNat

theorem mapMemory_stage (fits : Fits engine) :
    Triple (Stage before taken maps vm slots) (mapMemory kernel engine)
      (fun address => Stage before taken
        ((⟨address, address + engine.snapshot.memorySize.toNat⟩, engine.image before.files) :: maps) vm slots)
      fun e host => Stage before taken maps vm slots host ∧ Early e := by
  unfold mapMemory ForkEngine.image ForkEngine.bytes
  cases found : engine.snapshot.memFd with
  | some fd =>
    have reads : Triple (Stage before taken maps vm slots) (Attempt.get : KvmCall HostState)
        (fun read host => read.files = before.files ∧ Stage before taken maps vm slots host)
        fun e host => Stage before taken maps vm slots host ∧ Early e := fun _ stage => ⟨stage.files, stage⟩
    refine reads.bind fun read host kept => ?_
    rw [← kept.1]
    exact mmap_stage host kept.2
  | none =>
    dsimp only
    have early : Early (.mmap "fork fallback: snapshot memory Vec is empty and no mem_fd") := rfl
    split
    · exact fun _ stage => ⟨stage, early⟩
    · exact mmap_stage.bind fun ptr => triple_modify_pure fun host stage => stage.stored (fits found)

theorem setMemoryRegion_stage {slot : KvmMemoryRegion} (new : ∀ other ∈ slots, other.slot ≠ slot.slot) :
    Triple (Stage before taken maps vm slots) (setMemoryRegion kernel vm slot)
      (fun _ => Stage before taken maps vm (slots ++ [slot]))
      fun e host => Stage before taken maps vm slots host ∧ ∃ errno, e = .ioctl "KVM_SET_USER_MEMORY_REGION" errno := by
  have asks : Quiet (fun e => ∃ errno, e = .ioctl "KVM_SET_USER_MEMORY_REGION" errno)
      (ioctl kernel "KVM_SET_USER_MEMORY_REGION") := quiet_ioctl fun errno => ⟨errno, rfl⟩
  refine asks.stage.bind fun _ => ?_
  have reads : Triple (Stage before taken maps vm slots) (Attempt.get : KvmCall HostState)
      (fun read host => read = host ∧ Stage before taken maps vm slots host)
      fun e host => Stage before taken maps vm slots host ∧
        ∃ errno, e = .ioctl "KVM_SET_USER_MEMORY_REGION" errno := fun _ stage => ⟨rfl, stage⟩
  refine reads.bind fun read => ?_
  dsimp only
  split
  · exact fun _ kept => ⟨kept.2, _, rfl⟩
  · rintro host ⟨rfl, stage⟩
    have all : (read.vms vm).slots.filter (fun other => other.slot ≠ slot.slot) = slots := by
      rw [stage.own]
      exact List.filter_eq_self.mpr fun other member => decide_eq_true (new other member)
    refine ⟨stage.later, stage.fds, stage.fresh, stage.mappings, stage.apart, stage.contents, stage.memory, stage.files,
      stage.strays, fun fd old => ?_, ?_⟩
    · have distinct : fd ≠ vm := Nat.ne_of_lt (old.trans_le (stage.fresh vm List.mem_cons_self).1)
      exact (setVm_slots.trans (if_neg distinct)).trans (stage.others fd old)
    · refine (setVm_slots.trans (if_pos rfl)).trans ?_
      show (read.vms vm).slots.filter _ ++ [slot] = slots ++ [slot]
      rw [all]

/-- The slots of the shared regions, from the first after the snapshot's. -/
def sharedSlots (regions : List ((SharedMemoryRegion × Nat) × Nat)) : List KvmMemoryRegion :=
  regions.map fun entry => ⟨sharedMemSlotBase + entry.2, entry.1.2, entry.1.1.size, entry.1.1.hostPtr, true⟩

def memorySlot (engine : ForkEngine) (memoryPtr : Nat) : KvmMemoryRegion :=
  ⟨0, engine.snapshot.loadAddr.toNat, engine.snapshot.memorySize.toNat, memoryPtr, false⟩

/-- The slots of a fork. -/
def slotsOf (engine : ForkEngine) (memoryPtr : Nat) : List KvmMemoryRegion :=
  memorySlot engine memoryPtr :: sharedSlots engine.sharedRegions.zipIdx

/-- What a failed fork leaves mapped. -/
def Leaves (engine : ForkEngine) (e : ForkFailure) (lost : List Span) : Prop :=
  if late e then ∃ address, lost = [⟨address, address + engine.vcpuMmapSize⟩] else lost = []

/-- What a failed step leaves of a stage. -/
def Remains (engine : ForkEngine) (before : HostState) (taken : List Nat) (maps : List (Span × Memory)) (e : ForkFailure)
    (host : HostState) : Prop :=
  ∃ lost vm slots, Leaves engine e (lost.map Prod.fst) ∧ Stage before taken (lost ++ maps) vm slots host

theorem remains_early {e : ForkFailure} {host : HostState} (stage : Stage before taken maps vm slots host)
    (early : late e = false) : Remains engine before taken maps e host := by
  refine ⟨[], vm, slots, ?_, stage⟩
  simp [Leaves, early]

theorem early_remains {α : Type} {x : KvmCall α} {pre : HostState → Prop} {post : α → HostState → Prop}
    (triple : Triple pre x post fun e host => Stage before taken maps vm slots host ∧ Early e) :
    Triple pre (x.adapt ForkFailure.kvm) post (Remains engine before taken maps) :=
  Triple.adapt (triple.weaken (fun _ start => start) (fun _ _ done => done)
    fun _ _ failed => remains_early failed.1 failed.2)

theorem guarded_closeFd {α : Type} {pre : HostState → Prop} {x : Forks α} {post : α → HostState → Prop} {fd : Nat}
    (triple : Triple pre x post (Remains engine before (fd :: taken) maps)) :
    Triple pre (guarded (fun host => host.closeFd fd) x) post (Remains engine before taken maps) := by
  refine Triple.guarded (triple.weaken (fun _ start => start) (fun _ _ done => done) ?_)
  rintro e host ⟨lost, vm, slots, leaves, stage⟩
  exact ⟨lost, vm, slots, leaves, stage.closeFd⟩

theorem guarded_munmap {α : Type} {pre : HostState → Prop} {x : Forks α} {post : α → HostState → Prop} {address size : Nat}
    (content : Memory)
    (triple : Triple pre x post (Remains engine before taken ((⟨address, address + size⟩, content) :: maps))) :
    Triple pre (guarded (fun host => host.munmap address size) x) post (Remains engine before taken maps) := by
  refine Triple.guarded (triple.weaken (fun _ start => start) (fun _ _ done => done) ?_)
  rintro e host ⟨lost, vm, slots, leaves, stage⟩
  exact ⟨lost, vm, slots, leaves, stage.munmap⟩

theorem eptMap_stage {region : SharedMemoryRegion} {guestPhys slotOffset : Nat}
    (new : ∀ other ∈ slots, other.slot ≠ sharedMemSlotBase + slotOffset) :
    Triple (Stage before taken maps vm slots) (region.eptMap kernel vm guestPhys slotOffset)
      (fun _ => Stage before taken maps vm
        (slots ++ [⟨sharedMemSlotBase + slotOffset, guestPhys, region.size, region.hostPtr, true⟩]))
      fun _ => Stage before taken maps vm slots := by
  unfold SharedMemoryRegion.eptMap
  split
  · exact fun _ stage => stage
  · have asks : Quiet (fun _ => True) (hasReadonlyMem kernel) :=
      (quiet_ioctl fun _ => trivial).bind fun _ => quiet_pure _
    have tried : Quiet (fun _ : SharedMemError => True) (hasReadonlyMem kernel).attempt := asks.attempt
    refine (tried.stage.weaken (fun _ start => start) (fun _ _ done => done) fun _ _ failed => failed.1).bind
      fun readonly => ?_
    split
    · exact fun _ stage => stage
    · exact Triple.adapt ((setMemoryRegion_stage new).weaken (fun _ start => start) (fun _ _ done => done)
        fun _ _ failed => failed.1)

/-- The numbers of a list's items, up to one of them. -/
theorem zipIdx_split {ι : Type} {items : List ι} {earlier later : List (ι × Nat)} {item : ι × Nat}
    (split : items.zipIdx = earlier ++ item :: later) :
    item.2 = earlier.length ∧ ∀ entry ∈ earlier, entry.2 < earlier.length := by
  have number (k : Nat) (entry : ι × Nat) (found : (earlier ++ item :: later)[k]? = some entry) : entry.2 = k := by
    rw [← split, List.getElem?_zipIdx] at found
    obtain ⟨value, -, rfl⟩ := Option.map_eq_some_iff.mp found
    exact Nat.zero_add k
  have here : (earlier ++ item :: later)[earlier.length]? = some item := by simp
  refine ⟨number earlier.length item here, fun entry member => ?_⟩
  obtain ⟨k, inside, rfl⟩ := List.getElem_of_mem member
  have there : (earlier ++ item :: later)[k]? = some earlier[k] := by
    rw [List.getElem?_append_left inside, List.getElem?_eq_getElem inside]
  rw [number k earlier[k] there]
  exact inside

theorem mapShared_stage {memoryPtr : Nat} :
    Triple (Stage before taken maps vm [memorySlot engine memoryPtr]) (mapShared kernel engine vm)
      (fun _ => Stage before taken maps vm (slotsOf engine memoryPtr)) (Remains engine before taken maps) := by
  have round (earlier : List ((SharedMemoryRegion × Nat) × Nat)) (entry : (SharedMemoryRegion × Nat) × Nat)
      (later : List ((SharedMemoryRegion × Nat) × Nat)) (split : engine.sharedRegions.zipIdx = earlier ++ entry :: later) :
      Triple (Stage before taken maps vm (memorySlot engine memoryPtr :: sharedSlots earlier))
        ((entry.1.1.eptMap kernel vm entry.1.2 entry.2).adapt ForkFailure.sharedMem)
        (fun _ => Stage before taken maps vm (memorySlot engine memoryPtr :: sharedSlots (earlier ++ [entry])))
        (Remains engine before taken maps) := by
    obtain ⟨number, below⟩ := zipIdx_split split
    have new : ∀ other ∈ memorySlot engine memoryPtr :: sharedSlots earlier,
        other.slot ≠ sharedMemSlotBase + entry.2 := by
      intro other member same
      rcases List.mem_cons.mp member with rfl | shared
      · exact absurd same (by unfold memorySlot sharedMemSlotBase; dsimp only; omega)
      · obtain ⟨old, among, rfl⟩ := List.mem_map.mp shared
        have less := below old among
        dsimp only at same
        omega
    refine Triple.adapt ((eptMap_stage new).weaken (fun _ start => start) (fun _ host stage => ?_)
      fun _ _ stage => remains_early stage rfl)
    simpa [sharedSlots] using stage
  exact triple_forEach round

/-- Restoring the vCPU, once `kvm_run` is mapped, fails late and leaves it. -/
theorem restoreCpu_remains {vcpu run : Nat} {content : Memory} :
    Triple (Stage before taken ((⟨run, run + engine.vcpuMmapSize⟩, content) :: maps) vm slots)
      ((restoreCpu kernel engine vcpu).adapt ForkFailure.kvm)
      (fun _ => Stage before taken ((⟨run, run + engine.vcpuMmapSize⟩, content) :: maps) vm slots)
      (Remains engine before taken maps) := by
  refine Triple.adapt ((quiet_restoreCpu vcpu).stage.weaken (fun _ start => start) (fun _ _ done => done) ?_)
  rintro e host ⟨stage, failed⟩
  refine ⟨[(⟨run, run + engine.vcpuMmapSize⟩, content)], vm, slots, ?_, stage⟩
  rw [Leaves, if_pos failed]
  exact ⟨run, rfl⟩

/-! ## Whole forks -/

/-- The memory of a fork. -/
def memorySpan (forked : ForkedVm) : Span := ⟨forked.memoryPtr, forked.memoryPtr + forked.memorySize⟩

def runSpan (forked : ForkedVm) : Span := ⟨forked.kvmRunPtr, forked.kvmRunPtr + forked.kvmRunSize⟩

/-- What a fork is after it succeeded. -/
structure Forked (engine : ForkEngine) (before : HostState) (forked : ForkedVm) (host : HostState) : Prop where
  size : forked.memorySize = engine.snapshot.memorySize.toNat
  stage : Stage before [forked.vcpu, forked.vm]
    [(runSpan forked, Memory.zeroed), (memorySpan forked, engine.image before.files)] forked.vm
    (slotsOf engine forked.memoryPtr) host

theorem fork_spec (fits : Fits engine) (apart : before.mappings.Pairwise Span.Disjoint) :
    Triple (fun host => host = before) (fork kernel engine) (Forked engine before) (Remains engine before [] []) := by
  have created : Triple (fun host => host = before) ((createVm kernel).adapt ForkFailure.kvm)
      (fun vm => Stage before [vm] [] vm []) (Remains engine before [] []) := by
    refine Triple.adapt ((createVm_stage apart).weaken (fun _ start => start) (fun _ _ done => done) ?_)
    rintro e host ⟨⟨vm, slots, stage⟩, early⟩
    exact remains_early stage early
  refine created.bind fun vm => guarded_closeFd ?_
  refine (early_remains (mapMemory_stage fits)).bind fun memoryPtr => guarded_munmap (engine.image before.files) ?_
  have placed : Triple (Stage before [vm]
      [(⟨memoryPtr, memoryPtr + engine.snapshot.memorySize.toNat⟩, engine.image before.files)] vm [])
      ((setMemoryRegion kernel vm (memorySlot engine memoryPtr)).adapt ForkFailure.kvm)
      (fun _ => Stage before [vm]
        [(⟨memoryPtr, memoryPtr + engine.snapshot.memorySize.toNat⟩, engine.image before.files)] vm
        [memorySlot engine memoryPtr])
      (Remains engine before [vm]
        [(⟨memoryPtr, memoryPtr + engine.snapshot.memorySize.toNat⟩, engine.image before.files)]) := by
    refine Triple.adapt ((setMemoryRegion_stage fun other none => absurd none (List.not_mem_nil)).weaken
      (fun _ start => start) (fun _ _ done => done) ?_)
    rintro e host ⟨stage, errno, rfl⟩
    exact remains_early stage rfl
  refine placed.bind fun _ => mapShared_stage.bind fun _ => ?_
  refine (early_remains (quiet_setUpIrqchip vm).stage).bind fun _ => ?_
  refine (early_remains createVcpu_stage).bind fun vcpu => guarded_closeFd ?_
  refine (early_remains mmap_stage).bind fun kvmRunPtr => restoreCpu_remains.bind fun _ => ?_
  have asks : Quiet (fun _ => True) (ioctl kernel "KVM_GET_REGS") := quiet_ioctl fun _ => trivial
  have tried : Quiet (fun _ : ForkFailure => False) (ioctl kernel "KVM_GET_REGS").attempt := asks.attempt
  refine (tried.stage.weaken (fun _ start => start) (fun _ _ done => done) fun _ _ failed => failed.2.elim).bind
    fun _ host stage => ?_
  exact ⟨rfl, stage⟩

end Specs
end TinyMachine.Forking
