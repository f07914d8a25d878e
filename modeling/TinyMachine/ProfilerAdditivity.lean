import TinyMachine.IrCoverage
import TinyMachine.Lib.Accounting
import TinyMachine.Profiler

/-! Profiling is additive: no visit depends on what was accumulated before, so
the profile of a program is the sum of what its visits amount to. -/
namespace TinyMachine.Profiler
open Lib Ir

/-! ## Profiles as amounts -/

/-- The sum of two profiles, when it fits or overflow wraps. -/
def ResourceProfile.plus (a b : ResourceProfile) : ResourceProfile :=
  ⟨a.ramBytes + b.ramBytes, a.cpuUs + b.cpuUs, a.gpuRequired || b.gpuRequired, a.networkCalls + b.networkCalls,
    a.longRunning || b.longRunning⟩

def ResourceProfile.Within (a b : ResourceProfile) : Prop :=
  a.ramBytes.toNat + b.ramBytes.toNat < 2 ^ 64 ∧ a.cpuUs.toNat + b.cpuUs.toNat < 2 ^ 64 ∧
    a.networkCalls.toNat + b.networkCalls.toNat < 2 ^ 64

instance ResourceProfile.decidableWithin (a b : ResourceProfile) : Decidable (a.Within b) :=
  inferInstanceAs (Decidable (_ ∧ _))

section Merge
variable {mode : Overflow} {a b c : ResourceProfile}

theorem merge_eq : a.merge mode b = mode.fit (a.Within b) (a.plus b) := by
  simp only [ResourceProfile.merge, Overflow.add64, Overflow.fit, ResourceProfile.Within, ResourceProfile.plus]
  cases mode <;> grind

theorem merge_comm (mode : Overflow) (a b : ResourceProfile) : a.merge mode b = b.merge mode a := by
  rw [merge_eq, merge_eq]
  refine Overflow.fit_congr ?_ ?_
  · simp only [ResourceProfile.Within, Nat.add_comm]
  · simp only [ResourceProfile.plus, UInt64.add_comm, Bool.or_comm]

theorem within_assoc : a.Within b ∧ (a.plus b).Within c ↔ b.Within c ∧ a.Within (b.plus c) := by
  simp only [ResourceProfile.Within, ResourceProfile.plus, UInt64.toNat_add]
  omega

theorem merge_assoc (mode : Overflow) (a b c : ResourceProfile) :
    ((a.merge mode b).bind fun ab => ab.merge mode c) = (b.merge mode c).bind (a.merge mode) := by
  calc ((a.merge mode b).bind fun ab => ab.merge mode c)
    _ = mode.fit (a.Within b ∧ (a.plus b).Within c) ((a.plus b).plus c) := by
      simp only [merge_eq]
      exact Overflow.fit_bind
    _ = mode.fit (b.Within c ∧ a.Within (b.plus c)) (a.plus (b.plus c)) := by
      refine Overflow.fit_congr within_assoc ?_
      simp only [ResourceProfile.plus, UInt64.add_assoc, Bool.or_assoc]
    _ = (b.merge mode c).bind (a.merge mode) := by
      rw [merge_eq, Option.bind_congr fun bc _ => merge_eq]
      exact Overflow.fit_bind.symm

theorem merge_zero (mode : Overflow) (a : ResourceProfile) : a.merge mode .zero = some a := by
  have fits : a.Within .zero := ⟨a.ramBytes.toNat_lt, a.cpuUs.toNat_lt, a.networkCalls.toNat_lt⟩
  rw [merge_eq, Overflow.fit_of_fits fits]
  simp [ResourceProfile.plus, ResourceProfile.zero]

end Merge

/-- What a visitor has accumulated, as an amount. -/
def accounting (mode : Overflow) : Accounting ProfilerVisitor where
  zero := ⟨.zero, false⟩
  add a b := (a.profile.merge mode b.profile).map fun profile => ⟨profile, a.arrayDimsSeen || b.arrayDimsSeen⟩
  comm a b := by rw [merge_comm, Bool.or_comm]
  assoc a b c := by
    have merged := congrArg
      (Option.map fun profile => ProfilerVisitor.mk profile (a.arrayDimsSeen || b.arrayDimsSeen || c.arrayDimsSeen))
      (merge_assoc mode a.profile b.profile c.profile)
    simpa [Option.bind_map, Option.map_bind, Function.comp_def, Bool.or_assoc] using merged
  add_zero a := by simp [merge_zero]

/-! ## Visits add -/

section Visits
open ProfilerVisitor Accounting
variable {mode : Overflow}

theorem addRam_adds (bytes : UInt64) : (accounting mode).Adds (addRam mode bytes) :=
  .amount ⟨⟨bytes, 0, false, 0, false⟩, false⟩ fun self => by
    simp [addRam, accounting, ResourceProfile.merge, Option.map_bind, Function.comp_def]

theorem addCpu_adds (us : UInt64) : (accounting mode).Adds (addCpu mode us) :=
  .amount ⟨⟨0, us, false, 0, false⟩, false⟩ fun self => by
    simp [addCpu, accounting, ResourceProfile.merge, Option.map_bind, Function.comp_def]

theorem addNetworkCall_adds : (accounting mode).Adds (addNetworkCall mode) :=
  .amount ⟨⟨0, 0, false, 1, false⟩, false⟩ fun self => by
    simp [addNetworkCall, accounting, ResourceProfile.merge, Option.map_bind, Function.comp_def]

theorem requireGpu_adds : (accounting mode).Adds requireGpu :=
  .amount ⟨⟨0, 0, true, 0, false⟩, false⟩ fun self => by simp [requireGpu, accounting, ResourceProfile.merge]

theorem setLongRunning_adds : (accounting mode).Adds setLongRunning :=
  .amount ⟨⟨0, 0, false, 0, true⟩, false⟩ fun self => by simp [setLongRunning, accounting, ResourceProfile.merge]

theorem seeArrayDims_adds : (accounting mode).Adds seeArrayDims :=
  .amount ⟨.zero, true⟩ fun self => by simp [seeArrayDims, accounting, merge_zero]

theorem handleImport_adds (module : String) : (accounting mode).Adds (handleImport mode module) := by
  refine .ite (addRam_adds _) (.ite ?_ (.ite ?_ (.ite ?_ (.ite ?_ .nothing))))
  · exact (addRam_adds _).bind requireGpu_adds
  · exact (addRam_adds _).bind requireGpu_adds
  · exact (addRam_adds _).bind setLongRunning_adds
  · exact (addRam_adds _).bind setLongRunning_adds

theorem allocate_adds (args : List IrExpr) : (accounting mode).Adds (allocate mode args) := by
  unfold allocate
  cases extractArrayDims mode args with
  | none => exact .fails
  | some found =>
    cases found with
    | none => exact .nothing
    | some elements =>
      simp only [Option.bind_eq_bind, Option.bind_some]
      cases mode.mul64 elements arrayElementSize with
      | none => exact .fails
      | some bytes => exact (addRam_adds bytes).bind ((addCpu_adds 10).bind seeArrayDims_adds)

theorem chainCall_adds (func : IrExpr) (args : List IrExpr) : (accounting mode).Adds (chainCall mode func args) := by
  unfold chainCall
  cases func.resolveAttrChain with
  | none => exact .nothing
  | some chain =>
    have array : (accounting mode).Adds (arrayAllocation mode (".".intercalate chain) args) :=
      .ite (allocate_adds args) .nothing
    have http : (accounting mode).Adds (httpCall mode (".".intercalate chain)) :=
      .ite (addNetworkCall_adds.bind (addCpu_adds _)) .nothing
    exact array.bind (http.bind (.ite setLongRunning_adds .nothing))

theorem visitCall_adds (func : IrExpr) (args : List IrExpr) : (accounting mode).Adds (visitCall mode func args) := by
  have opened : (accounting mode).Adds (openCall mode func) := .ite (addRam_adds _) .nothing
  have file : (accounting mode).Adds (fileCall mode func) := .ite (addRam_adds _) .nothing
  exact (chainCall_adds func args).bind (opened.bind file)

theorem visitStr_adds (s : String) : (accounting mode).Adds (visitStr mode s) := .ite (addCpu_adds 5) .nothing

/-- What one call of the visitor does to it. -/
def act (mode : Overflow) : Visit → ProfilerVisitor → Option ProfilerVisitor
  | .import_ module _ | .importFrom module _ _ => handleImport mode module
  | .call func args => visitCall mode func args
  | .str s => visitStr mode s
  | _ => some

theorem act_adds (visit : Visit) : (accounting mode).Adds (act mode visit) := by
  cases visit with
  | import_ module _ => exact handleImport_adds module
  | importFrom module _ _ => exact handleImport_adds module
  | call func args => exact visitCall_adds func args
  | str s => exact visitStr_adds s
  | _ => exact .nothing

theorem apply_eq (self : Option ProfilerVisitor) (visit : Visit) :
    (profilerVisitor mode).apply self visit = self.bind (act mode visit) := by
  cases visit with
  | import_ | importFrom | call | str => rfl
  | _ => exact (Option.bind_fun_some self).symm

end Visits

/-! ## Programs -/

/-- What the visits of a program amount to. -/
def accumulated (mode : Overflow) (stmts : List IrStmt) : Option ProfilerVisitor :=
  (profilerVisitor mode).walkStmts stmts (some ⟨.zero, false⟩)

theorem walkedProfile_eq (mode : Overflow) (stmts : List IrStmt) :
    walkedProfile mode ⟨stmts⟩ = (accumulated mode stmts).map ProfilerVisitor.profile := rfl

section Programs
variable {mode : Overflow}

/-- A walk adds to what is there what it accumulates on its own. -/
theorem walkStmts_adds (mode : Overflow) (stmts : List IrStmt) (self : Option ProfilerVisitor) :
    (profilerVisitor mode).walkStmts stmts self = (accounting mode).both self (accumulated mode stmts) := by
  obtain ⟨order, calls, -⟩ := walkStmts_exprs stmts
  simp only at calls
  rw [accumulated, calls, calls, Accounting.foldl_adds apply_eq act_adds,
    Accounting.foldl_adds apply_eq act_adds (some _)]
  exact congrArg _ ((accounting mode).zero_both _).symm

theorem accumulated_append (mode : Overflow) (p q : List IrStmt) :
    accumulated mode (p ++ q) = (accounting mode).both (accumulated mode p) (accumulated mode q) := by
  have split : ∀ self : Option ProfilerVisitor, (profilerVisitor mode).walkStmts (p ++ q) self =
      (profilerVisitor mode).walkStmts q ((profilerVisitor mode).walkStmts p self) := by
    induction p with
    | nil => exact fun _ => rfl
    | cons stmt rest ih => exact fun self => ih _
  rw [accumulated, split, walkStmts_adds]
  rfl

/-- Every statement at the top level adds its own amount. -/
theorem accumulated_eq (mode : Overflow) (stmts : List IrStmt) :
    accumulated mode stmts = (accounting mode).total (stmts.map fun stmt => accumulated mode [stmt]) := by
  induction stmts with
  | nil => rfl
  | cons stmt rest ih => rw [← List.singleton_append, accumulated_append, ih]; rfl

theorem profile_both (a b : Option ProfilerVisitor) : ((accounting mode).both a b).map ProfilerVisitor.profile =
    (a.map ProfilerVisitor.profile).bind fun a => (b.map ProfilerVisitor.profile).bind (a.merge mode) := by
  cases a with
  | none => rfl
  | some a =>
    cases b with
    | none => rfl
    | some b => simp [Accounting.both, accounting, Function.comp_def]

end Programs

/-- The profile of two programs is the merge of their profiles, and the order of
the statements at the top level has no part in it. -/
theorem profiling_is_additive (mode : Overflow) (p q : List IrStmt) :
    walkedProfile mode ⟨p ++ q⟩ = (do (← walkedProfile mode ⟨p⟩).merge mode (← walkedProfile mode ⟨q⟩)) ∧
      ∀ stmts : List IrStmt, stmts.Perm (p ++ q) → walkedProfile mode ⟨stmts⟩ = walkedProfile mode ⟨p ++ q⟩ := by
  constructor
  · rw [walkedProfile_eq, accumulated_append, profile_both]
    rfl
  · intro stmts perm
    have same : accumulated mode stmts = accumulated mode (p ++ q) := by
      rw [accumulated_eq, accumulated_eq mode (p ++ q)]
      exact (accounting mode).total_perm (perm.map _)
    rw [walkedProfile_eq, walkedProfile_eq, same]

/-- A file is opened before the import that was to stand first. -/
theorem import_may_stand_last :
    [IrStmt.expr (.call (.name "open") [] []), .import_ "numpy" none].Perm
        ([.import_ "numpy" none] ++ [.expr (.call (.name "open") [] [])]) ∧
      walkedProfile .checked ⟨[.expr (.call (.name "open") [] []), .import_ "numpy" none]⟩ =
        walkedProfile .checked ⟨[.import_ "numpy" none] ++ [.expr (.call (.name "open") [] [])]⟩ :=
  ⟨.swap _ _ _, (profiling_is_additive .checked _ _).2 _ (.swap _ _ _)⟩

end TinyMachine.Profiler
