import TinyMachine.PolicyEngine

/-! Where the rules for addresses are those of the configured networks, and
where a text, a mask or an address in the other family makes the difference. -/
namespace TinyMachine.Uops
open Lib PolicyEngine

/-! ## The reference -/

/-- The text is that of the network. -/
def Configured (texts : List String) (cidr : Cidr) : Prop := String.ofList cidr.text ∈ texts

def InConfigured (texts : List String) (a : UInt32) : Prop := ∃ cidr, Configured texts cidr ∧ cidr.Has a

/-- Loopback, private, link-local, carrier-grade NAT, multicast and unspecified
addresses. -/
def blockedClasses : List Cidr :=
  [⟨.ofNat (127 * 2 ^ 24), 8, by decide⟩, ⟨.ofNat (10 * 2 ^ 24), 8, by decide⟩,
    ⟨.ofNat (172 * 2 ^ 24 + 16 * 2 ^ 16), 12, by decide⟩, ⟨.ofNat (192 * 2 ^ 24 + 168 * 2 ^ 16), 16, by decide⟩,
    ⟨.ofNat (169 * 2 ^ 24 + 254 * 2 ^ 16), 16, by decide⟩, ⟨.ofNat (100 * 2 ^ 24 + 64 * 2 ^ 16), 10, by decide⟩,
    ⟨.ofNat (224 * 2 ^ 24), 4, by decide⟩, Cidr.host 0]

def Blocked (a : UInt32) : Prop := ∃ cidr ∈ blockedClasses, cidr.Has a

/-- What the networks allow. -/
def ReferenceAllows (texts : List String) (a : UInt32) : Prop :=
  InConfigured texts a ∨ (¬ Blocked a ∧ ¬ ∃ cidr, Configured texts cidr)

/-- An IPv4 address as one of IPv6. -/
def mapped (a : UInt32) : IpAddr := .v6 ((0xFFFF : BitVec 96) ++ a.toBitVec)

def allowSubnets (mode : Overflow) (engine : PolicyEngine) (texts : List String) : Option PolicyEngine :=
  texts.foldlM (allowSubnet mode) engine

/-- The engine takes the texts without an overflow, and allows what the
networks allow. -/
def AsReference (mode : Overflow) (engine : PolicyEngine) (texts : List String) (addr : SocketAddr) : Prop :=
  ∃ built, allowSubnets mode engine texts = some built ∧
    (∀ a, addr.ip = .v4 a → (built.check (.tcpConnect addr) = true ↔ ReferenceAllows texts a)) ∧
    ∀ a, addr.ip = mapped a → Blocked a → (built.check (.tcpConnect addr) = true ↔ InConfigured texts a)

/-! ## The classes -/

/-- The classes by their numbers. -/
theorem blocked_iff {a : UInt32} : Blocked a ↔
    a.toNat / 2 ^ 24 = 127 ∨ a.toNat / 2 ^ 24 = 10 ∨ a.toNat / 2 ^ 20 = 172 * 16 + 1 ∨
      a.toNat / 2 ^ 16 = 192 * 256 + 168 ∨ a.toNat / 2 ^ 16 = 169 * 256 + 254 ∨
      a.toNat / 2 ^ 22 = 100 * 4 + 1 ∨ a.toNat / 2 ^ 28 = 14 ∨ a.toNat = 0 := by
  simp only [Blocked, blockedClasses, List.mem_cons, List.not_mem_nil, or_false, exists_eq_or_imp, exists_eq_left,
    Cidr.Has, Cidr.host, UInt32.toNat_ofNat', Nat.reduceSub, Nat.reducePow, Nat.reduceMul, Nat.reduceMod, Nat.reduceDiv,
    Nat.reduceAdd, Nat.div_one, UInt32.toNat_zero]

theorem cgnat_bits {n : Nat} (octet : n < 256) : n &&& 0xC0 = 0x40 ↔ n / 64 = 1 := by
  revert n
  decide +kernel

theorem isBlockedV4_iff {a : UInt32} : isBlockedV4 a = true ↔ Blocked a := by
  have bound := a.toNat_lt
  have first : (Ipv4.octet a 3).toNat = a.toNat / 2 ^ 24 := by
    rw [Ipv4.octet, UInt8.toNat_ofNat']
    omega
  have second : (Ipv4.octet a 2).toNat = a.toNat / 2 ^ 16 % 256 := by
    rw [Ipv4.octet, UInt8.toNat_ofNat']
    omega
  have bits := @cgnat_bits (a.toNat / 2 ^ 16 % 256) (Nat.mod_lt _ (by decide))
  rw [blocked_iff]
  simp only [isBlockedV4, Bool.or_eq_true, decide_eq_true_eq, ← UInt8.toNat_inj, UInt8.le_iff_toNat_le,
    UInt8.toNat_and, first, second, ← UInt32.toNat_inj]
  have cgnat : a.toNat / 2 ^ 16 % 256 &&& UInt8.toNat 0xC0 = UInt8.toNat 0x40 ↔ a.toNat / 2 ^ 16 % 256 / 64 = 1 := bits
  have literals : UInt8.toNat 127 = 127 ∧ UInt8.toNat 10 = 10 ∧ UInt8.toNat 172 = 172 ∧ UInt8.toNat 16 = 16 ∧
      UInt8.toNat 31 = 31 ∧ UInt8.toNat 192 = 192 ∧ UInt8.toNat 168 = 168 ∧ UInt8.toNat 169 = 169 ∧
      UInt8.toNat 254 = 254 ∧ UInt8.toNat 224 = 224 ∧ UInt8.toNat 239 = 239 ∧ UInt8.toNat 100 = 100 :=
    ⟨rfl, rfl, rfl, rfl, rfl, rfl, rfl, rfl, rfl, rfl, rfl, rfl⟩
  have metadata : (Ipv4.ofOctets 169 254 169 254).toNat = (169 * 256 + 254) * 2 ^ 16 + 169 * 256 + 254 := rfl
  rw [cgnat, metadata, UInt32.toNat_zero]
  omega

/-- The classes of IPv6 leave out all mapped addresses. -/
theorem mapped_unblocked (a : UInt32) {ip : BitVec 128} (same : mapped a = .v6 ip) :
    isBlockedV6 ip = false ∧ ip ≠ 0 := by
  obtain rfl := IpAddr.v6.inj same
  have value : ((0xFFFF : BitVec 96) ++ a.toBitVec).toNat = 0xFFFF * 2 ^ 32 + a.toNat := by
    have low : a.toBitVec.toNat < 2 ^ 32 := a.toNat_lt
    rw [BitVec.toNat_append, ← Nat.shiftLeft_add_eq_or_of_lt low, Nat.shiftLeft_eq]
    rfl
  have bound := a.toNat_lt
  have other {small : BitVec 128} (low : small.toNat < 2) : (0xFFFF : BitVec 96) ++ a.toBitVec ≠ small := by
    rintro rfl
    omega
  have one := @other 1 (by decide)
  have zero := @other 0 (by decide)
  have high : ((0xFFFF : BitVec 96) ++ a.toBitVec).extractLsb' 112 16 = 0 := by
    rw [← BitVec.toNat_inj, BitVec.extractLsb'_toNat, value, Nat.shiftRight_eq_div_pow, Nat.div_eq_of_lt (by omega)]
    rfl
  refine ⟨?_, zero⟩
  simp only [isBlockedV6, one, zero, high, decide_false, Bool.false_or]
  decide

/-! ## What a text does -/

/-- The network that a reading stands for: all of an address for a length of
zero or above 32. -/
def meant (addr : UInt32) (len : UInt8) : Cidr :=
  if len = 0 then Cidr.host addr else ⟨addr, min 32 len.toNat, Nat.min_le_left ..⟩

def Meant (text : String) (a : UInt32) : Prop :=
  ∃ addr len, parseCidr text = some (addr, len) ∧ (meant addr len).Has a

section Texts
variable {mode : Overflow} {addr a : UInt32} {len : UInt8} {text : String} {texts : List String}

theorem newV4_eq_none_iff : IpSubnet.newV4 mode addr len = none ↔ mode = .checked ∧ len = 0 := by
  unfold IpSubnet.newV4
  split
  · next wide =>
    have positive : len ≠ 0 := by rintro rfl; exact absurd wide (by decide)
    simp [positive]
  · next narrow =>
    by_cases zero : len = 0
    · subst zero
      cases mode <;> simp [Overflow.fit]
    · have inside : 32 - len < 32 := by
        have less : len.toNat < 32 := UInt8.lt_iff_toNat_lt.mp (UInt8.not_le.mp narrow)
        have some : len.toNat ≠ 0 := fun none => zero (UInt8.toNat_inj.mp none)
        rw [UInt8.lt_iff_toNat_lt, UInt8.toNat_sub_of_le _ _ (UInt8.le_of_lt (UInt8.not_le.mp narrow))]
        have literal : UInt8.toNat 32 = 32 := rfl
        omega
      simp [zero, Overflow.fit, inside]

theorem newV4_contains {subnet : IpSubnet} (made : IpSubnet.newV4 mode addr len = some subnet) (ip : IpAddr) :
    subnet.contains ip = true ↔ ∃ a, ip = .v4 a ∧ (meant addr len).Has a := by
  have whole (a : UInt32) : a &&& ~~~0 = addr &&& ~~~0 ↔ (Cidr.host addr).Has a := by
    rw [Cidr.host_has, UInt32.not_zero, UInt32.and_neg_one, UInt32.and_neg_one]
  have masked : ∃ mask, subnet = ⟨addr &&& mask, mask, true⟩ ∧
      ∀ a, a &&& mask = addr &&& mask ↔ (meant addr len).Has a := by
    unfold IpSubnet.newV4 at made
    split at made
    · next wide =>
      obtain rfl := Option.some.inj made
      have long : 32 ≤ len.toNat := UInt8.le_iff_toNat_le.mp wide
      have positive : len ≠ 0 := by rintro rfl; exact absurd wide (by decide)
      have alone : meant addr len = Cidr.host addr := by
        rw [meant, if_neg positive, Cidr.host, Cidr.mk.injEq]
        exact ⟨rfl, Nat.min_eq_left long⟩
      exact ⟨~~~0, rfl, fun a => alone ▸ whole a⟩
    · next narrow =>
      obtain ⟨mask, fitted, rest⟩ := Option.bind_eq_some_iff.mp made
      obtain rfl := Option.some.inj rest
      obtain ⟨-, rfl⟩ := Overflow.fit_eq_some.mp fitted
      refine ⟨_, rfl, fun a => ?_⟩
      by_cases zero : len = 0
      · subst zero
        exact whole a
      · have less : len.toNat < 32 := UInt8.lt_iff_toNat_lt.mp (UInt8.not_le.mp narrow)
        have some : len.toNat ≠ 0 := fun none => zero (UInt8.toNat_inj.mp none)
        have short : min 32 len.toNat = len.toNat := Nat.min_eq_right (Nat.le_of_lt less)
        rw [Cidr.and_mask_eq_iff (by omega), meant, if_neg zero]
        simp only [Cidr.Has, short]
  obtain ⟨mask, rfl, same⟩ := masked
  cases ip with
  | v4 a => simp [IpSubnet.contains, same]
  | v6 a => simp [IpSubnet.contains]

theorem parseCidr_text (cidr : Cidr) :
    parseCidr (String.ofList cidr.text) = some (cidr.addr, .ofNat cidr.len) := by
  have small : cidr.len < 256 := Nat.lt_of_le_of_lt cidr.fits (by decide)
  have read : Cmdline.parseUnsigned 256 (Nat.toDigits 10 cidr.len) = .ok cidr.len := Cmdline.parseUnsigned_decimal small
  rw [parseCidr, String.toList_ofList, Cidr.text, Text.splitOnce_append (Ipv4.slash_notMem_dotted _)]
  simp only [Option.bind_eq_bind, Option.bind_some, read, Except.toOption, Ipv4.parse_dotted]
  rfl

/-- What the texts add to an engine. -/
structure Adds (texts : List String) (before after : PolicyEngine) : Prop where
  uops : after.allowedUops = before.allowedUops
  v4 : ∀ a, after.allowedSubnets.any (·.contains (.v4 a)) = true ↔
    before.allowedSubnets.any (·.contains (.v4 a)) = true ∨ ∃ text ∈ texts, Meant text a
  v6 : ∀ ip, after.allowedSubnets.any (·.contains (.v6 ip)) = before.allowedSubnets.any (·.contains (.v6 ip))
  none : after.allowedSubnets = [] ↔ before.allowedSubnets = [] ∧ ∀ text ∈ texts, parseCidr text = none

/-- No text has a shift that is refused. -/
def Shifts (mode : Overflow) (texts : List String) : Prop :=
  mode = .checked → ∀ text ∈ texts, ∀ addr, parseCidr text ≠ some (addr, 0)

theorem allowSubnet_adds {before after : PolicyEngine} (added : allowSubnet mode before text = some after) :
    Adds [text] before after := by
  unfold allowSubnet at added
  split at added
  · next silent =>
    obtain rfl := Option.some.inj added
    exact ⟨rfl, by simp [Meant, silent], fun _ => rfl, by simp [silent]⟩
  · next addr len read =>
    obtain ⟨subnet, made, rfl⟩ := Option.map_eq_some_iff.mp added
    have both (ip : IpAddr) : (before.allowedSubnets ++ [subnet]).any (·.contains ip) =
        (before.allowedSubnets.any (·.contains ip) || subnet.contains ip) := by
      rw [List.any_append, List.any_cons, List.any_nil, Bool.or_false]
    refine ⟨rfl, fun a => ?_, fun ip => ?_, by simp [read]⟩
    · rw [both, Bool.or_eq_true, newV4_contains made]
      simp [Meant, read]
    · have other : subnet.contains (.v6 ip) = false :=
        Bool.eq_false_iff.mpr fun inside => by simpa using (newV4_contains made _).mp inside
      rw [both, other, Bool.or_false]

theorem allowSubnet_isSome (before : PolicyEngine) :
    (∃ after, allowSubnet mode before text = some after) ↔ Shifts mode [text] := by
  have added : allowSubnet mode before text = none ↔
      ∃ addr len, parseCidr text = some (addr, len) ∧ mode = .checked ∧ len = 0 := by
    unfold allowSubnet
    split
    · next silent => simp [silent]
    · next addr len read => simp [read, newV4_eq_none_iff, and_comm]
  rw [← Option.ne_none_iff_exists', Ne, added]
  constructor
  · intro taken checked other member addr read
    rw [List.mem_singleton.mp member] at read
    exact taken ⟨addr, 0, read, checked, rfl⟩
  · rintro taken ⟨addr, len, read, checked, rfl⟩
    exact taken checked text (List.mem_singleton.mpr rfl) addr read

/-- A run of texts adds what each of them adds. -/
theorem allowSubnets_adds {before after : PolicyEngine} (added : allowSubnets mode before texts = some after) :
    Adds texts before after := by
  induction texts generalizing before with
  | nil =>
    obtain rfl := Option.some.inj added
    exact ⟨rfl, by simp, fun _ => rfl, by simp⟩
  | cons text texts ih =>
    obtain ⟨next, first, rest⟩ := Option.bind_eq_some_iff.mp added
    have one := allowSubnet_adds first
    have others := ih rest
    refine ⟨others.uops.trans one.uops, fun a => ?_, fun ip => (others.v6 ip).trans (one.v6 ip), ?_⟩
    · rw [others.v4, one.v4, or_assoc]
      simp only [List.mem_cons, exists_eq_or_imp, List.not_mem_nil, or_false, exists_eq_left]
    · rw [others.none, one.none, and_assoc]
      simp only [List.mem_singleton, forall_eq, List.forall_mem_cons]

theorem allowSubnets_isSome (before : PolicyEngine) :
    (∃ after, allowSubnets mode before texts = some after) ↔ Shifts mode texts := by
  induction texts generalizing before with
  | nil =>
    have none : Shifts mode [] := fun _ _ member => absurd member List.not_mem_nil
    exact iff_of_true ⟨before, rfl⟩ none
  | cons text texts ih =>
    have split : Shifts mode (text :: texts) ↔ Shifts mode [text] ∧ Shifts mode texts := by
      simp only [Shifts, List.forall_mem_cons, List.not_mem_nil, false_imp_iff, implies_true, and_true]
      exact forall_and
    rw [split, ← allowSubnet_isSome before]
    constructor
    · rintro ⟨after, added⟩
      obtain ⟨next, first, rest⟩ := Option.bind_eq_some_iff.mp added
      exact ⟨⟨next, first⟩, (ih next).mp ⟨after, rest⟩⟩
    · rintro ⟨⟨next, first⟩, rest⟩
      obtain ⟨after, rest⟩ := (ih next).mpr rest
      exact ⟨after, Option.bind_eq_some_iff.mpr ⟨next, first, rest⟩⟩

/-! ## Which texts the engine and the reference read alike -/

/-- Some configured network of one bit or more has the address. -/
def InProper (texts : List String) (a : UInt32) : Prop :=
  ∃ cidr, 0 < cidr.len ∧ Configured texts cidr ∧ cidr.Has a

/-- The network of all addresses is configured. -/
def Everything (texts : List String) : Prop := ∃ cidr, cidr.len = 0 ∧ Configured texts cidr

/-- The address is in what the engine takes some other text for. -/
def Stray (texts : List String) (a : UInt32) : Prop :=
  ∃ text ∈ texts, (¬ ∃ cidr : Cidr, 0 < cidr.len ∧ text = String.ofList cidr.text) ∧ Meant text a

/-- The engine reads no network at all. -/
def Silent (texts : List String) : Prop := ∀ text ∈ texts, parseCidr text = none

theorem inConfigured_iff : InConfigured texts a ↔ InProper texts a ∨ Everything texts := by
  constructor
  · rintro ⟨cidr, configured, inside⟩
    rcases Nat.eq_zero_or_pos cidr.len with all | some
    · exact .inr ⟨cidr, all, configured⟩
    · exact .inl ⟨cidr, some, configured, inside⟩
  · rintro (⟨cidr, -, configured, inside⟩ | ⟨cidr, all, configured⟩)
    · exact ⟨cidr, configured, inside⟩
    · exact ⟨cidr, configured, Cidr.has_of_len_zero all⟩

theorem meant_text {cidr : Cidr} (some : 0 < cidr.len) : Meant (String.ofList cidr.text) a ↔ cidr.Has a := by
  have fits := cidr.fits
  have length : (UInt8.ofNat cidr.len).toNat = cidr.len := by
    rw [UInt8.toNat_ofNat']
    omega
  have positive : UInt8.ofNat cidr.len ≠ 0 := by
    rw [Ne, ← UInt8.toNat_inj, length]
    exact Nat.ne_of_gt some
  have same : meant cidr.addr (.ofNat cidr.len) = cidr := by
    have short : min 32 (UInt8.ofNat cidr.len).toNat = cidr.len := by rw [length, Nat.min_eq_right fits]
    rw [meant, if_neg positive]
    simp only [short]
  simp [Meant, parseCidr_text, same]

theorem meant_iff : (∃ text ∈ texts, Meant text a) ↔ InProper texts a ∨ Stray texts a := by
  constructor
  · rintro ⟨text, member, inside⟩
    by_cases proper : ∃ cidr : Cidr, 0 < cidr.len ∧ text = String.ofList cidr.text
    · obtain ⟨cidr, some, rfl⟩ := proper
      exact .inl ⟨cidr, some, member, (meant_text some).mp inside⟩
    · exact .inr ⟨text, member, proper, inside⟩
  · rintro (⟨cidr, some, configured, inside⟩ | ⟨text, member, -, inside⟩)
    · exact ⟨_, configured, (meant_text some).mpr inside⟩
    · exact ⟨text, member, inside⟩

theorem not_configured_of_silent (silent : Silent texts) : ¬ ∃ cidr, Configured texts cidr := by
  rintro ⟨cidr, configured⟩
  have read := silent _ configured
  rw [parseCidr_text] at read
  cases read

end Texts

/-- The address is in a network of one bit or more, or the texts that the engine
takes for something else make no difference to it. -/
def AlikeV4 (texts : List String) (a : UInt32) : Prop :=
  InProper texts a ∨ (Blocked a ∧ (Stray texts a ↔ Everything texts)) ∨
    (¬ Blocked a ∧ (Silent texts ∨ (Stray texts a ↔ Everything texts ∨ ¬ ∃ cidr, Configured texts cidr)))

/-- No shift is refused, and the texts are read alike for an IPv4 address. For
a mapped address of the classes some network is read, and none that is
configured has it. -/
structure ReadAlike (mode : Overflow) (texts : List String) (ip : IpAddr) : Prop where
  shifts : Shifts mode texts
  v4 : ∀ a, ip = .v4 a → AlikeV4 texts a
  v6 : ∀ a, ip = mapped a → Blocked a → ¬ Silent texts ∧ ¬ InConfigured texts a

section Engines
variable {mode : Overflow} {engine built : PolicyEngine} {texts : List String} {addr : SocketAddr} {a : UInt32}

theorem check_tcp (allowed : .tcpConnect ∈ engine.allowedUops) (adds : Adds texts engine built) :
    built.check (.tcpConnect addr) = built.checkTcp addr := by
  have kept : UOp.uopType (.tcpConnect addr) ∈ built.allowedUops := adds.uops ▸ allowed
  rw [check, if_neg (not_not.mpr kept)]

theorem check_v4 (fresh : engine.allowedSubnets = []) (allowed : .tcpConnect ∈ engine.allowedUops)
    (adds : Adds texts engine built) (real : addr ≠ unspecSocket) (ip : addr.ip = .v4 a) :
    built.check (.tcpConnect addr) = true ↔
      (InProper texts a ∨ Stray texts a) ∨ (¬ Blocked a ∧ Silent texts) := by
  have specified : ¬ (isUnspecified addr.ip = true ∧ addr.port = 0) := by
    rintro ⟨zero, port⟩
    obtain ⟨addrIp, addrPort⟩ := addr
    subst ip port
    exact real (by rw [unspecSocket, of_decide_eq_true zero])
  have inside : built.allowedSubnets.any (·.contains addr.ip) = true ↔ InProper texts a ∨ Stray texts a := by
    rw [ip, adds.v4, fresh, meant_iff]
    simp
  have none : built.allowedSubnets = [] ↔ Silent texts := adds.none.trans (and_iff_right fresh)
  rw [check_tcp allowed adds, checkTcp, if_neg specified, ip]
  dsimp only
  rw [ip] at inside
  by_cases blocked : isBlockedV4 a = true
  · rw [if_pos blocked, inside]
    have inClass := isBlockedV4_iff.mp blocked
    simp [inClass]
  · rw [if_neg blocked]
    have outside := mt isBlockedV4_iff.mpr blocked
    split
    · next empty => simp [outside, none.mp empty]
    · next some => simp [outside, mt none.mpr some, inside]

theorem check_mapped (fresh : engine.allowedSubnets = []) (allowed : .tcpConnect ∈ engine.allowedUops)
    (adds : Adds texts engine built) (ip : addr.ip = mapped a) :
    built.check (.tcpConnect addr) = true ↔ Silent texts := by
  have none : built.allowedSubnets = [] ↔ Silent texts := adds.none.trans (and_iff_right fresh)
  obtain ⟨unblocked, nonzero⟩ := mapped_unblocked a rfl
  have outside : built.allowedSubnets.any (·.contains addr.ip) = false := by
    rw [ip, mapped, adds.v6, fresh]
    rfl
  have specified : ¬ (isUnspecified addr.ip = true ∧ addr.port = 0) := by
    rw [ip]
    exact fun unspecified => nonzero (of_decide_eq_true unspecified.1)
  rw [check_tcp allowed adds, checkTcp, if_neg specified, outside, ip, mapped]
  dsimp only
  rw [unblocked, if_neg Bool.false_ne_true, ← none]
  split <;> simp_all

/-- Both rules for an IPv4 address, with and without the class. -/
private theorem rules_iff {proper stray every blocked silent configured : Prop} (quiet : silent → ¬ configured) :
    ((proper ∨ stray) ∨ (¬ blocked ∧ silent) ↔ (proper ∨ every) ∨ (¬ blocked ∧ ¬ configured)) ↔
      proper ∨ (blocked ∧ (stray ↔ every)) ∨ (¬ blocked ∧ (silent ∨ (stray ↔ every ∨ ¬ configured))) := by
  by_cases inProper : proper
  · simp [inProper]
  by_cases inClass : blocked
  · simp [inProper, inClass]
  by_cases none : silent
  · simp [inProper, inClass, none, quiet none]
  · simp [inProper, inClass, none]

/-- The engine is the reference for an address exactly when they read the texts
alike for it. -/
theorem as_reference_iff (fresh : engine.allowedSubnets = []) (allowed : .tcpConnect ∈ engine.allowedUops)
    (real : addr ≠ unspecSocket) : AsReference mode engine texts addr ↔ ReadAlike mode texts addr.ip := by
  have v4_iff {built : PolicyEngine} (adds : Adds texts engine built) {a : UInt32} (ip : addr.ip = .v4 a) :
      (built.check (.tcpConnect addr) = true ↔ ReferenceAllows texts a) ↔ AlikeV4 texts a := by
    rw [check_v4 fresh allowed adds real ip, ReferenceAllows, inConfigured_iff]
    exact rules_iff not_configured_of_silent
  have v6_iff {built : PolicyEngine} (adds : Adds texts engine built) {a : UInt32} (ip : addr.ip = mapped a) :
      (built.check (.tcpConnect addr) = true ↔ InConfigured texts a) ↔ ¬ Silent texts ∧ ¬ InConfigured texts a := by
    have none (silent : Silent texts) : ¬ InConfigured texts a :=
      fun ⟨cidr, configured, _⟩ => not_configured_of_silent silent ⟨cidr, configured⟩
    rw [check_mapped fresh allowed adds ip]
    constructor
    · exact fun same => ⟨fun silent => none silent (same.mp silent), fun inside => none (same.mpr inside) inside⟩
    · exact fun apart => iff_of_false apart.1 apart.2
  constructor
  · rintro ⟨built, added, v4, v6⟩
    have adds := allowSubnets_adds added
    exact ⟨(allowSubnets_isSome engine).mp ⟨built, added⟩, fun a ip => (v4_iff adds ip).mp (v4 a ip),
      fun a ip blocked => (v6_iff adds ip).mp (v6 a ip blocked)⟩
  · rintro ⟨shifts, v4, v6⟩
    obtain ⟨built, added⟩ := (allowSubnets_isSome engine).mpr shifts
    have adds := allowSubnets_adds added
    exact ⟨built, added, fun a ip => (v4_iff adds ip).mpr (v4 a ip),
      fun a ip blocked => (v6_iff adds ip).mpr (v6 a ip blocked)⟩

end Engines

private def tcpOnly : PolicyEngine := PolicyEngine.new.allowUop .tcpConnect

/-- A host in a configured private network is allowed. -/
theorem private_network_as_reference :
    AsReference .checked tcpOnly ["10.0.0.0/8"] ⟨.v4 0x0A010203, 80⟩ := by
  have read : parseCidr "10.0.0.0/8" = some (0x0A000000, 8) := by decide
  refine (as_reference_iff rfl (by decide) (by decide)).mpr ⟨fun _ => ?_, ?_, ?_⟩
  · simp [read]
  · rintro a ⟨⟩
    exact .inl ⟨⟨0x0A000000, 8, by decide⟩, by decide, List.mem_singleton.mpr (by decide), by decide⟩
  · exact fun a other => nomatch other

/-- Loopback as a mapped address is allowed without any network. -/
theorem mapped_loopback_allowed :
    ¬ ∀ (mode : Overflow) (engine : PolicyEngine) (texts : List String) (addr : SocketAddr),
      engine.allowedSubnets = [] → .tcpConnect ∈ engine.allowedUops → addr ≠ unspecSocket →
        AsReference mode engine texts addr := by
  intro always
  obtain ⟨built, added, -, v6⟩ := always .checked tcpOnly [] ⟨mapped 0x7F000001, 80⟩ rfl (by decide) (by decide)
  obtain rfl := Option.some.inj added
  have loopback : Blocked 0x7F000001 := isBlockedV4_iff.mp (by decide)
  obtain ⟨cidr, configured, -⟩ := (v6 0x7F000001 rfl loopback).mp (by decide)
  exact List.not_mem_nil configured

end TinyMachine.Uops
