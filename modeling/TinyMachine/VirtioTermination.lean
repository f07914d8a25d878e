import TinyMachine.VirtioConfinement

/-! Termination of the device. Its loops over the rings are bounded by the
indices it read; only the walk along a chain follows what the guest wrote, and
it comes to an end exactly when the chain does. -/
namespace TinyMachine.VirtioNet
open Lib

/-- A descriptor names its successor. -/
def Follows (mem : Memory) (pfn : UInt64) (d next : UInt16) : Prop :=
  (descAt mem pfn d).Chained ∧ next = (descAt mem pfn d).next

/-- Following the chain from its head leads to a descriptor without successor. -/
def ChainEnds (mem : Memory) (pfn : UInt64) (head : UInt16) : Prop :=
  ∃ last, Relation.ReflTransGen (Follows mem pfn) head last ∧ ¬ (descAt mem pfn last).Chained

/-- Filling the chain leads out of the table, to a descriptor without
successor, or to the end of the packet. The descriptors are read as the
buffers filled before have left them. -/
def FillingEnds (mem : Memory) (pfn : UInt64) (head : UInt16) (packet : List UInt8) : Prop :=
  ∃ last, FillPoint.Visits mem pfn head packet last ∧ (last.Active → ¬ last.GoesOn pfn packet)

section Chains
variable {mem : Memory} {pfn : UInt64} {head : UInt16}

private theorem visits_follow {here : UInt16 × List UInt8} (visits : Visits mem pfn head here) :
    Relation.ReflTransGen (Follows mem pfn) head here.1 := by
  induction visits with
  | refl => exact .refl
  | tail _ leads ih =>
    obtain ⟨chained, rfl⟩ := leads
    exact ih.tail ⟨chained, rfl⟩

private theorem follow_visits {last : UInt16} (follows : Relation.ReflTransGen (Follows mem pfn) head last) :
    ∃ packet, Visits mem pfn head (last, packet) := by
  induction follows with
  | refl => exact ⟨[], .refl⟩
  | tail _ step ih =>
    obtain ⟨packet, visits⟩ := ih
    obtain ⟨chained, rfl⟩ := step
    exact ⟨_, visits.tail ⟨chained, rfl⟩⟩

/-- A chain yields a packet exactly when it ends. -/
theorem yields_iff_ends : (∃ packet, Yields mem pfn head packet) ↔ ChainEnds mem pfn head := by
  constructor
  · rintro ⟨_, last, visits, ends, -⟩
    exact ⟨last.1, visits_follow visits, ends⟩
  · rintro ⟨last, follows, ends⟩
    obtain ⟨packet, visits⟩ := follow_visits follows
    exact ⟨_, (last, packet), visits, ends, rfl⟩

theorem fills_iff_ends {packet : List UInt8} :
    (∃ left, Fills mem pfn head packet left) ↔ FillingEnds mem pfn head packet := by
  constructor
  · rintro ⟨left, last, visits, leaves⟩
    refine ⟨last, visits, fun active => ?_⟩
    rw [if_pos active] at leaves
    exact leaves.1
  · rintro ⟨last, visits, ends⟩
    by_cases active : last.Active
    · exact ⟨_, last, visits, by rw [if_pos active]; exact ⟨ends active, rfl⟩⟩
    · exact ⟨_, last, visits, by rw [if_neg active]⟩

end Chains

/-- Every chain a kick comes to ends. -/
def TxEnds (mode : Overflow) (m : Machine) : Prop :=
  let pfn := m.dev.txPfn
  pfn ≠ 0 → ForKick mode (fun _ mem position => ChainEnds mem pfn (availHead mem pfn position)) m

/-- Every chain a poll comes to can be filled to an end. -/
def RxEnds (m : Machine) : Prop :=
  let pfn := m.dev.rxPfn
  pfn ≠ 0 → ForDeliveries pfn
    (fun mem packet _ => ¬ RingEmpty mem pfn → FillingEnds mem pfn (nextHead mem pfn) packet)
    (rxQueue m) m.mem

section Termination
variable {mode : Overflow} {pfn : UInt64} {m : Machine}

private theorem txChains_terminates_iff {first : UInt16} {i left : Nat} :
    (txChains mode pfn first i left).Terminates m ↔
      ForChains mode pfn first (fun _ mem position => ChainEnds mem pfn (availHead mem pfn position))
        i left m.dev m.mem := by
  refine txChains_iff (fun x m => x.Terminates m) (fun i m => by simp [txChains]) ?_
  intro i left m
  simp only [txChains_terminates, yields_iff_ends]

theorem kick_terminates_iff : (handleQueueKick mode 1).Terminates m ↔ TxEnds mode m := by
  rw [kick_terminates, TxEnds, ForKick]
  simp only [txChains_terminates_iff]
  constructor
  · intro chains set
    by_cases empty : RingEmpty m.mem m.dev.txPfn
    · have none : outstanding m.mem m.dev.txPfn = 0 := by
        rw [outstanding, (sub_eq_zero_iff _ _).mpr empty]
        rfl
      rw [none]
      trivial
    · exact chains ⟨set, empty⟩
  · exact fun chains found => chains found.1

theorem poll_terminates_iff : tryRx.Terminates m ↔ RxEnds m := by
  refine tryRx_iff Traced.terminates_pervasive ⟨fun m packet fromTap => ?_, ?_⟩
  · rw [deliver_terminates, fills_iff_ends]
  · exact fun mem _ _ empty _ _ _ filled => absurd empty filled

end Termination

/-- The device comes to an end exactly when every chain it comes to does. -/
theorem device_terminates_iff (mode : Overflow) (m : Machine) :
    ((∀ q, (handleQueueKick mode q).Terminates m) ↔ TxEnds mode m) ∧ (tryRx.Terminates m ↔ RxEnds m) := by
  refine ⟨?_, poll_terminates_iff⟩
  rw [← kick_terminates_iff]
  constructor
  · exact fun kicks => kicks 1
  · intro kick q
    by_cases tx : q = 1
    · exact tx ▸ kick
    · rw [kick_ignored tx]
      exact Traced.pure_terminates

/-- One chain is available, and its only descriptor is its own successor. -/
def selfLinked : Machine :=
  { queueOnPage 0x10 with mem := (Memory.zeroed.store 0x1000C [1]).store 0x11002 [1] }

theorem selfLinked_reachable (mode : Overflow) : Reachable mode selfLinked :=
  (queueOnPage_reachable mode 0x10).next trivial
    (show (deviceRuns mode).step _ (.guestWrites selfLinked.mem) _ from ⟨0, 0, rfl, rfl⟩)

private theorem selfLinked_follows {last : UInt16}
    (follows : Relation.ReflTransGen (Follows selfLinked.mem 0x10000) 0 last) : last = 0 := by
  have next : (descAt selfLinked.mem 0x10000 0).next = 0 := by decide +kernel
  induction follows with
  | refl => rfl
  | tail _ step ih =>
    obtain ⟨_, rfl⟩ := step
    rw [ih, next]

/-- A kick never comes back from a descriptor that is its own successor. -/
theorem self_link_hangs_kick :
    ¬ ∀ (mode : Overflow) (m : Machine), Reachable mode m →
      (∀ q, (handleQueueKick mode q).Terminates m) ∧ tryRx.Terminates m := by
  intro law
  have kick := (law .wrapping selfLinked (selfLinked_reachable .wrapping)).1 1
  have chains := kick_terminates_iff.mp kick (by decide +kernel)
  have one : outstanding selfLinked.mem selfLinked.dev.txPfn = 1 := by decide +kernel
  rw [ForKick, one] at chains
  obtain ⟨last, follows, ends⟩ := (chains 0 (by decide +kernel)).1
  have head : availHead selfLinked.mem selfLinked.dev.txPfn 0 = 0 := by decide +kernel
  rw [head] at follows
  have same := selfLinked_follows follows
  rw [same] at ends
  have chained : (descAt selfLinked.mem selfLinked.dev.txPfn 0).Chained := by decide +kernel
  exact ends chained

end TinyMachine.VirtioNet
