import Mathlib.Data.List.Induction

/-! Paths as sequences of components, and the places they name when `.` and
`..` are resolved in the text alone. -/
namespace TinyMachine.Lib
variable {ν : Type}

inductive PathComponent (ν : Type) where
  | root
  | here
  | up
  | name (n : ν)
  deriving DecidableEq

/-- From the root, or from some levels above where one is, down through these
names. -/
structure Place (ν : Type) where
  rooted : Bool
  ups : Nat
  names : List ν
  deriving DecidableEq

namespace Place

/-- Where one is. -/
def start : Place ν := ⟨false, 0, []⟩

/-- Nothing is above the root. -/
def step (place : Place ν) : PathComponent ν → Place ν
  | .root => ⟨true, 0, []⟩
  | .here => place
  | .up =>
    if place.names = [] then (if place.rooted then place else { place with ups := place.ups + 1 })
    else { place with names := place.names.dropLast }
  | .name n => { place with names := place.names ++ [n] }

def resolve (path : List (PathComponent ν)) : Place ν := path.foldl step start

/-- The place that is reached from a place by a path to another. -/
def follow (place next : Place ν) : Place ν :=
  if next.rooted then next
  else
    { rooted := place.rooted
      ups := if place.rooted then place.ups else place.ups + (next.ups - place.names.length)
      names := place.names.take (place.names.length - next.ups) ++ next.names }

/-- A path that leads down, if anywhere. -/
def Descends (place : Place ν) : Prop := place.rooted = false ∧ place.ups = 0

/-- The first place is the second, or is reached from it through names. -/
def Beneath (place above : Place ν) : Prop :=
  place.rooted = above.rooted ∧ place.ups = above.ups ∧ above.names <+: place.names

instance instDecidableBeneath [DecidableEq ν] (place above : Place ν) : Decidable (place.Beneath above) :=
  inferInstanceAs (Decidable (_ ∧ _ ∧ _))

variable {place next : Place ν}

theorem follow_start : place.follow start = place := by
  simp [follow, start]

theorem follow_rooted (rooted : next.rooted = true) : place.follow next = next := if_pos rooted

theorem step_rooted (rooted : next.rooted = true) (component : PathComponent ν) :
    (next.step component).rooted = true := by
  cases component with
  | root => rfl
  | here => exact rooted
  | up =>
    rw [step, if_pos rooted]
    split
    · exact rooted
    · exact rooted
  | name n => exact rooted

/-- One more level up. -/
theorem step_up_follow (relative : next.rooted = false) : (place.follow next).step .up = place.follow (next.step .up) := by
  obtain ⟨rooted, ups, names⟩ := place
  obtain ⟨nextRooted, nextUps, nextNames⟩ := next
  cases relative
  by_cases some : nextNames = []
  · subst some
    by_cases above : names.length ≤ nextUps
    · have none : names.take (names.length - nextUps) = [] := by simp [Nat.sub_eq_zero_of_le above]
      have still : names.take (names.length - (nextUps + 1)) = [] := by
        simp [Nat.sub_eq_zero_of_le (Nat.le_succ_of_le above)]
      have higher : nextUps + 1 - names.length = nextUps - names.length + 1 := by omega
      cases rooted <;> simp [step, follow, none, still, higher, Nat.add_assoc]
    · have kept : names.take (names.length - nextUps) ≠ [] := by
        rw [ne_eq, ← List.length_eq_zero_iff, List.length_take]
        omega
      have shorter : (names.take (names.length - nextUps)).dropLast = names.take (names.length - (nextUps + 1)) := by
        rw [List.dropLast_eq_take, List.length_take, List.take_take]
        congr 1
        omega
      have level : nextUps - names.length = 0 := by omega
      have level' : nextUps + 1 - names.length = 0 := by omega
      simp [step, follow, kept, shorter, level, level']
  · simp [step, follow, some, List.dropLast_append_of_ne_nil some]

/-- One more component leads from where the others lead. -/
theorem step_follow (component : PathComponent ν) :
    (place.follow next).step component = place.follow (next.step component) := by
  by_cases rooted : next.rooted = true
  · rw [follow_rooted rooted, follow_rooted (step_rooted rooted component)]
  · have relative : next.rooted = false := (Bool.not_eq_true _).mp rooted
    cases component with
    | root => rfl
    | here => rfl
    | up => exact step_up_follow relative
    | name n => simp [step, follow, relative]

theorem resolve_concat (path : List (PathComponent ν)) (component : PathComponent ν) :
    resolve (path ++ [component]) = (resolve path).step component := by
  rw [resolve, List.foldl_append]
  rfl

/-- A path is followed part by part. -/
theorem resolve_append (path rest : List (PathComponent ν)) :
    resolve (path ++ rest) = (resolve path).follow (resolve rest) := by
  induction rest using List.reverseRecOn with
  | nil => rw [List.append_nil, show resolve ([] : List (PathComponent ν)) = start from rfl, follow_start]
  | append_singleton rest component ih =>
    rw [← List.append_assoc, resolve_concat, resolve_concat, ih, step_follow]

/-- A path that leads down does not leave what is beneath a place. -/
theorem beneath_follow (descends : next.Descends) : (place.follow next).Beneath place := by
  obtain ⟨relative, level⟩ := descends
  simp [follow, Beneath, relative, level]

end Place
end TinyMachine.Lib
