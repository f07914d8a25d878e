import TinyMachine.Lib.Spans

/-! What is left of a range of addresses when holes are cut out of it, piece by
piece from the lower end: the relation between the holes and the pieces, and
the rules by which a sweep over the holes builds it. -/
namespace TinyMachine.Lib

/-- The pieces are what the holes leave of the addresses from the cursor up to
the limit, in ascending order. -/
structure Carves (cursor limit : Nat) (holes pieces : List Span) : Prop where
  ascending : pieces.Pairwise fun low high => low.stop ≤ high.start
  nonempty : ∀ piece ∈ pieces, piece.start < piece.stop
  covers : ∀ a, Covers pieces a ↔ cursor ≤ a ∧ a < limit ∧ ¬ Covers holes a

namespace Carves
variable {cursor limit : Nat} {hole : Span} {holes pieces : List Span}

/-- A range without holes stays whole. -/
theorem whole (cursor limit : Nat) : Carves cursor limit [] (between cursor limit) where
  ascending := by
    unfold between
    split
    · exact List.pairwise_singleton _ _
    · exact List.Pairwise.nil
  nonempty := by
    intro piece member
    obtain ⟨positive, rfl⟩ := mem_between.mp member
    exact positive
  covers := by simp

/-- Every piece lies between the cursor and the limit. -/
theorem within (carves : Carves cursor limit holes pieces) {piece : Span} (member : piece ∈ pieces) :
    cursor ≤ piece.start ∧ piece.stop ≤ limit := by
  have positive := carves.nonempty piece member
  have first := (carves.covers piece.start).mp ⟨piece, member, Nat.le_refl _, positive⟩
  have last := (carves.covers (piece.stop - 1)).mp ⟨piece, member, by omega, by omega⟩
  omega

/-- A hole that is not in the range changes nothing. -/
theorem beside (carves : Carves cursor limit holes pieces)
    (outside : limit ≤ max cursor hole.start ∨ hole.stop ≤ cursor) :
    Carves cursor limit (hole :: holes) pieces where
  ascending := carves.ascending
  nonempty := carves.nonempty
  covers := by
    intro a
    rw [carves.covers, covers_cons, not_or]
    unfold Span.Has
    constructor
    · rintro ⟨low, high, uncovered⟩
      exact ⟨low, high, by omega, uncovered⟩
    · rintro ⟨low, high, -, uncovered⟩
      exact ⟨low, high, uncovered⟩

/-- A hole over the cursor moves it. -/
theorem advance (carves : Carves (min hole.stop limit) limit holes pieces) (begun : hole.start ≤ cursor)
    (further : cursor ≤ min hole.stop limit) : Carves cursor limit (hole :: holes) pieces where
  ascending := carves.ascending
  nonempty := carves.nonempty
  covers := by
    intro a
    rw [carves.covers, covers_cons, not_or]
    unfold Span.Has
    constructor
    · rintro ⟨low, high, uncovered⟩
      exact ⟨by omega, high, by omega, uncovered⟩
    · rintro ⟨low, high, outside, uncovered⟩
      exact ⟨by omega, high, uncovered⟩

/-- A hole beyond the cursor ends a piece, if no later one begins before it. -/
theorem cut (carves : Carves (min hole.stop limit) limit holes pieces) (beyond : cursor < hole.start)
    (upright : hole.start ≤ min hole.stop limit) (later : ∀ other ∈ holes, hole.start ≤ other.start) :
    Carves cursor limit (hole :: holes) (⟨cursor, hole.start⟩ :: pieces) where
  ascending := by
    refine List.pairwise_cons.mpr ⟨fun piece member => ?_, carves.ascending⟩
    exact Nat.le_trans upright (carves.within member).1
  nonempty := by
    intro piece member
    rcases List.mem_cons.mp member with rfl | member
    · exact beyond
    · exact carves.nonempty piece member
  covers := by
    intro a
    rw [covers_cons, carves.covers, covers_cons, not_or]
    unfold Span.Has
    dsimp only
    constructor
    · rintro (⟨low, high⟩ | ⟨low, high, uncovered⟩)
      · refine ⟨low, by omega, by omega, ?_⟩
        rintro ⟨other, member, inside⟩
        have behind := later other member
        unfold Span.Has at inside
        omega
      · exact ⟨by omega, high, by omega, uncovered⟩
    · rintro ⟨low, high, outside, uncovered⟩
      by_cases front : a < hole.start
      · exact .inl ⟨low, front⟩
      · exact .inr ⟨by omega, high, uncovered⟩

end Carves

/-! ## A sweep whose cursor falls back -/

/-- Of the holes that begin at or before the address, the last one ends behind
it, and so do all later ones. -/
def Keeps (holes : List Span) (a : Nat) : Prop :=
  ∃ before hole after, holes = before ++ hole :: after ∧ hole.Has a ∧
    ∀ later ∈ after, a < later.start ∧ a < later.stop

theorem not_keeps_nil {a : Nat} : ¬ Keeps [] a := by
  rintro ⟨before, hole, after, split, -⟩
  exact List.append_ne_nil_of_right_ne_nil before (List.cons_ne_nil hole after) split.symm

theorem keeps_cons {hole : Span} {holes : List Span} {a : Nat} :
    Keeps (hole :: holes) a ↔
      Keeps holes a ∨ hole.Has a ∧ ∀ later ∈ holes, a < later.start ∧ a < later.stop := by
  constructor
  · rintro ⟨before, last, after, split, inside, behind⟩
    cases before with
    | nil =>
      obtain ⟨rfl, rfl⟩ := List.cons.inj split
      exact .inr ⟨inside, behind⟩
    | cons first before =>
      obtain ⟨rfl, rfl⟩ := List.cons.inj split
      exact .inl ⟨before, last, after, rfl, inside, behind⟩
  · rintro (⟨before, last, after, rfl, inside, behind⟩ | ⟨inside, behind⟩)
    · exact ⟨hole :: before, last, after, rfl, inside, behind⟩
    · exact ⟨[], hole, holes, rfl, inside, behind⟩

theorem Keeps.begun {holes : List Span} {a : Nat} (keeps : Keeps holes a) : ∃ hole ∈ holes, hole.start ≤ a := by
  obtain ⟨before, hole, after, rfl, inside, -⟩ := keeps
  exact ⟨hole, List.mem_append_right before List.mem_cons_self, inside.1⟩

theorem opens_cons {cursor a : Nat} {hole : Span} {holes : List Span} :
    Opens cursor (hole :: holes) a ↔
      (cursor ≤ a ∧ ∀ other ∈ hole :: holes, a < other.start) ∨ Opens hole.stop holes a := by
  refine or_congr_right ⟨?_, ?_⟩
  · rintro ⟨before, last, after, split, reopened, front⟩
    cases before with
    | nil =>
      obtain ⟨rfl, rfl⟩ := List.cons.inj split
      exact .inl ⟨reopened, front⟩
    | cons first before =>
      obtain ⟨rfl, rfl⟩ := List.cons.inj split
      exact .inr ⟨before, last, after, rfl, reopened, front⟩
  · rintro (⟨reopened, front⟩ | ⟨before, last, after, rfl, reopened, front⟩)
    · exact ⟨[], hole, holes, rfl, reopened, front⟩
    · exact ⟨hole :: before, last, after, rfl, reopened, front⟩

/-- The sweep opens what the holes do not keep, and what is behind its cursor. -/
theorem not_opens_iff {cursor a : Nat} {holes : List Span} :
    ¬ Opens cursor holes a ↔ Keeps holes a ∨ a < cursor ∧ ∀ hole ∈ holes, a < hole.start ∧ a < hole.stop := by
  induction holes generalizing cursor with
  | nil => simp [Opens, not_keeps_nil]
  | cons hole holes ih =>
    rw [opens_cons, not_or, ih, keeps_cons, List.forall_mem_cons, List.forall_mem_cons]
    unfold Span.Has
    constructor
    · rintro ⟨closed, keeps | ⟨behind, later⟩⟩
      · exact .inl (.inl keeps)
      · by_cases begun : hole.start ≤ a
        · exact .inl (.inr ⟨⟨begun, behind⟩, later⟩)
        · refine .inr ⟨?_, ⟨by omega, behind⟩, later⟩
          by_contra passed
          exact closed ⟨by omega, by omega, fun other member => (later other member).1⟩
    · rintro ((keeps | ⟨⟨begun, behind⟩, later⟩) | ⟨ahead, ⟨-, behind⟩, later⟩)
      · refine ⟨?_, .inl keeps⟩
        rintro ⟨-, -, front⟩
        obtain ⟨other, member, begun⟩ := keeps.begun
        have beyond := front other member
        omega
      · refine ⟨?_, .inr ⟨behind, later⟩⟩
        rintro ⟨-, front, -⟩
        omega
      · refine ⟨?_, .inr ⟨behind, later⟩⟩
        rintro ⟨passed, -⟩
        omega

end TinyMachine.Lib
