import TinyMachine.Lib.Paths
import TinyMachine.PolicyEngine

/-! Which files the policy lets through: the check compares components, and a
path that matches may still climb out. -/
namespace TinyMachine.Uops.PolicyEngine
open Lib

def pathComponent (part : List Char) : PathComponent (List Char) :=
  if part = ['/'] then .root
  else if part = ['.'] then .here
  else if part = ['.', '.'] then .up
  else .name part

def placeOf (parts : List (List Char)) : Place (List Char) := Place.resolve (parts.map pathComponent)

/-- What a path names when it is resolved as a text. -/
def place (path : String) : Place (List Char) := placeOf (components path)

/-- What passes the check is an allowed path or beneath one. -/
def Confines (engine : PolicyEngine) (uop : UOp) (path : String) : Prop :=
  engine.check uop = true → ∃ allowed ∈ engine.allowedPaths, (place path).Beneath (place allowed)

/-- Behind every allowed path that it begins with, a path only leads down, or
leads to what is allowed from there. -/
def StaysAllowed (engine : PolicyEngine) (path : String) : Prop :=
  ∀ allowed ∈ engine.allowedPaths, ∀ rest, components path = components allowed ++ rest →
    (placeOf rest).Descends ∨
      ∃ other ∈ engine.allowedPaths, ((place allowed).follow (placeOf rest)).Beneath (place other)

section Paths
variable {engine : PolicyEngine} {path allowed : String} {rest : List (List Char)}

theorem place_of_parts (parts : components path = components allowed ++ rest) :
    place path = (place allowed).follow (placeOf rest) := by
  rw [place, place, placeOf, parts, List.map_append, Place.resolve_append]
  rfl

/-- An allowed path at the beginning, component by component. -/
theorem passes_iff :
    (engine.allowedPaths.any fun p => (components p).isPrefixOf (components path)) = true ↔
      ∃ allowed ∈ engine.allowedPaths, ∃ rest, components path = components allowed ++ rest := by
  simp only [List.any_eq_true, List.isPrefixOf_iff_prefix]
  constructor
  · rintro ⟨allowed, member, rest, whole⟩
    exact ⟨allowed, member, rest, whole.symm⟩
  · rintro ⟨allowed, member, rest, parts⟩
    exact ⟨allowed, member, rest, parts.symm⟩

theorem staysAllowed_iff :
    StaysAllowed engine path ↔
      ((engine.allowedPaths.any fun p => (components p).isPrefixOf (components path)) = true →
        ∃ allowed ∈ engine.allowedPaths, (place path).Beneath (place allowed)) := by
  rw [passes_iff]
  constructor
  · rintro stays ⟨allowed, member, rest, parts⟩
    rw [place_of_parts parts]
    rcases stays allowed member rest parts with descends | reached
    · exact ⟨allowed, member, Place.beneath_follow descends⟩
    · exact reached
  · intro confined allowed member rest parts
    rw [← place_of_parts parts]
    exact .inr (confined ⟨allowed, member, rest, parts⟩)

/-- The two operations on files are checked alike. -/
private theorem confines_of_check {uop : UOp} {type : UOpType}
    (checked : engine.check uop = true ↔ type ∈ engine.allowedUops ∧
      (engine.allowedPaths.any fun p => (components p).isPrefixOf (components path)) = true) :
    Confines engine uop path ↔ type ∉ engine.allowedUops ∨ StaysAllowed engine path := by
  rw [Confines, checked, staysAllowed_iff, and_imp, imp_iff_not_or]

theorem check_fileRead :
    engine.check (.fileRead path) = true ↔ .fileRead ∈ engine.allowedUops ∧
      (engine.allowedPaths.any fun p => (components p).isPrefixOf (components path)) = true := by
  rw [check, UOp.uopType]
  by_cases allowed : UOpType.fileRead ∈ engine.allowedUops <;> simp [allowed]

theorem check_fileWrite :
    engine.check (.fileWrite path) = true ↔ .fileWrite ∈ engine.allowedUops ∧
      (engine.allowedPaths.any fun p => (components p).isPrefixOf (components path)) = true := by
  rw [check, UOp.uopType]
  by_cases allowed : UOpType.fileWrite ∈ engine.allowedUops <;> simp [allowed]

end Paths

/-- The policy confines reading and writing of a path exactly when it allows
neither, or the path stays within what is allowed. -/
theorem confines_iff (engine : PolicyEngine) (path : String) :
    (Confines engine (.fileRead path) path ↔ .fileRead ∉ engine.allowedUops ∨ StaysAllowed engine path) ∧
      (Confines engine (.fileWrite path) path ↔ .fileWrite ∉ engine.allowedUops ∨ StaysAllowed engine path) :=
  ⟨confines_of_check check_fileRead, confines_of_check check_fileWrite⟩

/-- Reading below one directory is allowed. -/
def readsData : PolicyEngine := (new.allowUop .fileRead).allowPath "/tmp/data"

/-- The password file is let through. -/
theorem climbing_path_passes : ¬ Confines readsData (.fileRead "/tmp/data/../../etc/passwd") "/tmp/data/../../etc/passwd" := by
  intro confined
  have passes : readsData.check (.fileRead "/tmp/data/../../etc/passwd") = true := by decide
  obtain ⟨allowed, member, beneath⟩ := confined passes
  rw [List.mem_singleton.mp member] at beneath
  exact absurd beneath (by decide)

end TinyMachine.Uops.PolicyEngine
