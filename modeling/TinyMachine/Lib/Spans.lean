import Mathlib.Data.List.Basic
import Mathlib.Order.Basic

/-! Half-open address ranges, and the complement sweep over a list of holes
whose cursor is set to the end of every hole it passes, also where that end
lies behind the cursor. -/
namespace TinyMachine.Lib

/-- The addresses from `start` up to `stop`; none in an inverted span. -/
structure Span where
  start : Nat
  stop : Nat
  deriving DecidableEq, Repr

namespace Span

def Has (span : Span) (a : Nat) : Prop := span.start ≤ a ∧ a < span.stop

instance (span : Span) (a : Nat) : Decidable (span.Has a) := inferInstanceAs (Decidable (_ ∧ _))

/-- No address is in both spans. -/
def Disjoint (left right : Span) : Prop := ∀ a, left.Has a → ¬ right.Has a

end Span

/-- Some span of the list has the address. -/
def Covers (spans : List Span) (a : Nat) : Prop := ∃ span ∈ spans, span.Has a

instance (spans : List Span) (a : Nat) : Decidable (Covers spans a) :=
  inferInstanceAs (Decidable (∃ span ∈ spans, span.Has a))

@[simp] theorem covers_nil (a : Nat) : ¬ Covers [] a := by simp [Covers]

@[simp] theorem covers_cons (span : Span) (spans : List Span) (a : Nat) :
    Covers (span :: spans) a ↔ span.Has a ∨ Covers spans a := by simp [Covers]

@[simp] theorem covers_append (left right : List Span) (a : Nat) :
    Covers (left ++ right) a ↔ Covers left a ∨ Covers right a := by
  simp only [Covers, List.mem_append, or_and_right, exists_or]

/-- The span between two addresses, if there is anything between them. -/
def between (start stop : Nat) : List Span := if start < stop then [⟨start, stop⟩] else []

@[simp] theorem mem_between {start stop : Nat} {span : Span} :
    span ∈ between start stop ↔ start < stop ∧ span = ⟨start, stop⟩ := by
  unfold between
  split
  · simp_all
  · simp only [List.not_mem_nil, false_iff]; omega

@[simp] theorem covers_between (start stop a : Nat) :
    Covers (between start stop) a ↔ start ≤ a ∧ a < stop := by
  simp only [Covers, mem_between]
  constructor
  · rintro ⟨_, ⟨-, rfl⟩, inside⟩; exact inside
  · exact fun inside => ⟨⟨start, stop⟩, ⟨by omega, rfl⟩, inside⟩

/-- What the holes leave of the addresses from the cursor up to `limit`. -/
def gaps (limit : Nat) : Nat → List Span → List Span
  | cursor, [] => between cursor limit
  | cursor, hole :: holes => between cursor hole.start ++ gaps limit hole.stop holes

/-- The order in which the sweep wants its holes. -/
abbrev Ordered (holes : List Span) : Prop := holes.Pairwise fun a b => a.start ≤ b.start

theorem gaps_nonempty {limit cursor : Nat} {holes : List Span} {gap : Span}
    (member : gap ∈ gaps limit cursor holes) : gap.start < gap.stop := by
  induction holes generalizing cursor with
  | nil =>
    obtain ⟨positive, rfl⟩ := mem_between.mp member
    exact positive
  | cons hole holes ih =>
    rcases List.mem_append.mp member with first | later
    · obtain ⟨positive, rfl⟩ := mem_between.mp first
      exact positive
    · exact ih later

theorem gaps_below {limit cursor : Nat} {holes : List Span} (inside : ∀ hole ∈ holes, hole.start ≤ limit)
    {gap : Span} (member : gap ∈ gaps limit cursor holes) : gap.stop ≤ limit := by
  induction holes generalizing cursor with
  | nil =>
    obtain ⟨-, rfl⟩ := mem_between.mp member
    exact Nat.le_refl _
  | cons hole holes ih =>
    rcases List.mem_append.mp member with first | later
    · obtain ⟨-, rfl⟩ := mem_between.mp first
      exact inside hole List.mem_cons_self
    · exact ih (fun other member => inside other (List.mem_cons_of_mem _ member)) later

/-- Nothing outside the holes is lost, in whatever order they come. -/
theorem gaps_cover {limit cursor a : Nat} {holes : List Span} (from' : cursor ≤ a) (below : a < limit)
    (outside : ¬ Covers holes a) : Covers (gaps limit cursor holes) a := by
  induction holes generalizing cursor with
  | nil => exact (covers_between ..).mpr ⟨from', below⟩
  | cons hole holes ih =>
    rw [covers_cons, not_or] at outside
    simp only [gaps, covers_append, covers_between]
    by_cases before : a < hole.start
    · exact .inl ⟨from', before⟩
    · have behind : hole.stop ≤ a := by
        have := outside.1
        unfold Span.Has at this
        omega
      exact .inr (ih behind outside.2)

/-- Whether a sweep opens gaps only at the furthest address it has seen: the
cursor may fall back behind `reach`, but not while it opens a gap. -/
def SweepsForward (limit : Nat) : Nat → Nat → List Span → Prop
  | cursor, reach, [] => cursor < limit → reach ≤ cursor
  | cursor, reach, hole :: holes =>
    (cursor < hole.start → reach ≤ cursor) ∧
      SweepsForward limit hole.stop (max reach (max hole.start hole.stop)) holes

instance decideSweepsForward (limit : Nat) :
    ∀ cursor reach holes, Decidable (SweepsForward limit cursor reach holes)
  | _, _, [] => inferInstanceAs (Decidable (_ → _))
  | _, reach, hole :: holes =>
    have := decideSweepsForward limit hole.stop (max reach (max hole.start hole.stop)) holes
    inferInstanceAs (Decidable (_ ∧ _))

private theorem gaps_beyond_reach {limit cursor reach : Nat} {holes : List Span}
    (forward : SweepsForward limit cursor reach holes) {gap : Span}
    (member : gap ∈ gaps limit cursor holes) : reach ≤ gap.start := by
  induction holes generalizing cursor reach with
  | nil =>
    obtain ⟨positive, rfl⟩ := mem_between.mp member
    exact forward positive
  | cons hole holes ih =>
    rcases List.mem_append.mp member with first | later
    · obtain ⟨positive, rfl⟩ := mem_between.mp first
      exact forward.1 positive
    · exact Nat.le_trans (Nat.le_max_left ..) (ih forward.2 later)

/-- A forward sweep leaves every hole open. -/
theorem forward_gaps_avoid {limit cursor reach : Nat} {holes : List Span} (ordered : Ordered holes)
    (forward : SweepsForward limit cursor reach holes) {gap hole : Span}
    (opened : gap ∈ gaps limit cursor holes) (member : hole ∈ holes) : gap.Disjoint hole := by
  induction holes generalizing cursor reach with
  | nil => cases member
  | cons head holes ih =>
    obtain ⟨behind, rest⟩ := List.pairwise_cons.mp ordered
    intro a inGap inHole
    unfold Span.Has at inGap inHole
    rcases List.mem_append.mp opened with first | later
    · obtain ⟨-, rfl⟩ := mem_between.mp first
      dsimp only at inGap
      rcases List.mem_cons.mp member with rfl | member
      · omega
      · have := behind hole member
        omega
    · rcases List.mem_cons.mp member with rfl | member
      · have := gaps_beyond_reach forward.2 later
        omega
      · exact ih rest forward.2 later member a inGap inHole

/-- A forward sweep opens no address twice. -/
theorem forward_gaps_disjoint {limit cursor reach : Nat} {holes : List Span}
    (forward : SweepsForward limit cursor reach holes) :
    (gaps limit cursor holes).Pairwise Span.Disjoint := by
  induction holes generalizing cursor reach with
  | nil =>
    simp only [gaps, between]
    split <;> simp
  | cons head holes ih =>
    refine List.pairwise_append.mpr ⟨?_, ih forward.2, ?_⟩
    · simp only [between]
      split <;> simp
    · intro gap first other later a inFirst inLater
      obtain ⟨-, rfl⟩ := mem_between.mp first
      have := gaps_beyond_reach forward.2 later
      simp only [Span.Has] at inFirst inLater
      omega

/-- Conversely: as long as everything below `reach` is taken, by a hole or by
a gap opened before, gaps that avoid what is taken are opened forward. -/
private theorem forward_of_gaps_avoid {limit cursor reach : Nat} {holes : List Span}
    (taken : Nat → Prop) (full : ∀ a, a < reach → taken a) (within : cursor ≤ reach)
    (fresh : ∀ gap ∈ gaps limit cursor holes, ∀ a, gap.Has a → ¬ taken a)
    (avoid : ∀ gap ∈ gaps limit cursor holes, ∀ hole ∈ holes, gap.Disjoint hole)
    (disjoint : (gaps limit cursor holes).Pairwise Span.Disjoint) :
    SweepsForward limit cursor reach holes := by
  induction holes generalizing cursor reach taken with
  | nil =>
    intro positive
    by_contra short
    exact fresh _ (mem_between.mpr ⟨positive, rfl⟩) cursor ⟨Nat.le_refl _, positive⟩
      (full cursor (by omega))
  | cons head holes ih =>
    obtain ⟨-, laterDisjoint, apart⟩ := List.pairwise_append.mp disjoint
    refine ⟨fun positive => ?_, ih (fun a => taken a ∨ Covers (between cursor head.start) a ∨ head.Has a)
      ?_ (by omega) ?_ ?_ laterDisjoint⟩
    · by_contra short
      exact fresh _ (List.mem_append_left _ (mem_between.mpr ⟨positive, rfl⟩)) cursor
        ⟨Nat.le_refl _, positive⟩ (full cursor (by omega))
    · intro a below
      simp only [covers_between, Span.Has]
      by_cases reached : a < reach
      · exact .inl (full a reached)
      · exact .inr (by omega)
    · rintro gap later a inGap (before | opened | inHead)
      · exact fresh gap (List.mem_append_right _ later) a inGap before
      · obtain ⟨first, member, inFirst⟩ := opened
        exact apart first member gap later a inFirst inGap
      · exact avoid gap (List.mem_append_right _ later) head List.mem_cons_self a inGap inHead
    · exact fun gap later hole member =>
        avoid gap (List.mem_append_right _ later) hole (List.mem_cons_of_mem _ member)

/-- A sweep over ordered holes is a complement, free of holes and of double
cover, exactly when it opens its gaps forward. -/
theorem gaps_exact_iff {limit : Nat} {holes : List Span} (ordered : Ordered holes) :
    ((∀ gap ∈ gaps limit 0 holes, ∀ hole ∈ holes, gap.Disjoint hole) ∧
      (gaps limit 0 holes).Pairwise Span.Disjoint) ↔ SweepsForward limit 0 0 holes := by
  constructor
  · rintro ⟨avoid, disjoint⟩
    exact forward_of_gaps_avoid (fun _ => False) (fun _ below => absurd below (Nat.not_lt_zero _))
      (Nat.le_refl _) (fun _ _ _ _ => not_false) avoid disjoint
  · exact fun forward => ⟨fun _ opened _ member => forward_gaps_avoid ordered forward opened member,
      forward_gaps_disjoint forward⟩

/-- An inverted hole throws the cursor back behind its own start, and the next
gap is not opened forward any more. -/
theorem forward_holes_upright {limit cursor reach : Nat} {holes : List Span} (ordered : Ordered holes)
    (inside : ∀ hole ∈ holes, hole.start ≤ limit) (forward : SweepsForward limit cursor reach holes)
    {hole : Span} (member : hole ∈ holes) : hole.start ≤ hole.stop := by
  induction holes generalizing cursor reach with
  | nil => cases member
  | cons head holes ih =>
    obtain ⟨behind, rest⟩ := List.pairwise_cons.mp ordered
    rcases List.mem_cons.mp member with rfl | member
    · by_contra inverted
      have bound := inside hole List.mem_cons_self
      cases holes with
      | nil =>
        have := forward.2
        simp only [SweepsForward] at this
        omega
      | cons next holes =>
        have after := behind next List.mem_cons_self
        have := forward.2.1
        omega
    · exact ih rest (fun other inRest => inside other (List.mem_cons_of_mem _ inRest)) forward.2 member

/-- The cursor comes to rest at or before the address, with no hole left that
starts at or before it. -/
def Opens (cursor : Nat) (holes : List Span) (a : Nat) : Prop :=
  (cursor ≤ a ∧ ∀ hole ∈ holes, a < hole.start) ∨
    ∃ before hole after, holes = before ++ hole :: after ∧ hole.stop ≤ a ∧
      ∀ later ∈ after, a < later.start

/-- Which addresses the sweep covers, in terms of the holes alone. -/
theorem gaps_covers_iff {limit a : Nat} (cursor : Nat) {holes : List Span} (ordered : Ordered holes)
    (below : a < limit) : Covers (gaps limit cursor holes) a ↔ Opens cursor holes a := by
  induction holes generalizing cursor with
  | nil => simp [gaps, Opens, below]
  | cons head holes ih =>
    obtain ⟨behind, rest⟩ := List.pairwise_cons.mp ordered
    simp only [gaps, covers_append, covers_between, ih _ rest]
    constructor
    · rintro (⟨from', front⟩ | ⟨reopened, front⟩ | ⟨before, hole, after, rfl, reopened, front⟩)
      · refine .inl ⟨from', fun hole member => ?_⟩
        rcases List.mem_cons.mp member with rfl | member
        · exact front
        · exact Nat.lt_of_lt_of_le front (behind hole member)
      · exact .inr ⟨[], head, holes, rfl, reopened, front⟩
      · exact .inr ⟨head :: before, hole, after, rfl, reopened, front⟩
    · rintro (⟨from', front⟩ | ⟨before, hole, after, split, reopened, front⟩)
      · exact .inl ⟨from', front head List.mem_cons_self⟩
      · cases before with
        | nil =>
          obtain ⟨rfl, rfl⟩ := List.cons.inj split
          exact .inr (.inl ⟨reopened, front⟩)
        | cons first before =>
          obtain ⟨rfl, rfl⟩ := List.cons.inj split
          exact .inr (.inr ⟨before, hole, after, rfl, reopened, front⟩)

end TinyMachine.Lib
