import TinyMachine.ProfilerAdditivity

/-! What the profiler estimates, in exact arithmetic: each visit uses so much,
and the estimate is the sum wherever no product and no sum overflows. -/
namespace TinyMachine.Profiler
open Lib Ir

/-- Amounts of RAM, of CPU time and of network calls. -/
structure Usage where
  ram : Nat
  cpu : Nat
  network : Nat

namespace Usage

def zero : Usage := ⟨0, 0, 0⟩
def plus (a b : Usage) : Usage := ⟨a.ram + b.ram, a.cpu + b.cpu, a.network + b.network⟩
def total (usages : List Usage) : Usage := usages.foldr plus zero

/-- Every amount has room in 64 bits. -/
def Fits (u : Usage) : Prop := u.ram < 2 ^ 64 ∧ u.cpu < 2 ^ 64 ∧ u.network < 2 ^ 64

theorem plus_zero (a : Usage) : a.plus zero = a := rfl
theorem plus_assoc (a b c : Usage) : (a.plus b).plus c = a.plus (b.plus c) := by
  simp only [plus, Nat.add_assoc]

theorem Fits.of_plus {a b : Usage} (fits : (a.plus b).Fits) : a.Fits := by
  simp only [Fits, plus] at fits ⊢
  omega

end Usage

/-! ## What a visit uses -/

def importUsage (module : String) : Usage :=
  if module ∈ numpyModules then ⟨numpyRam.toNat, 0, 0⟩
  else if module ∈ torchModules then ⟨torchRam.toNat, 0, 0⟩
  else if module ∈ tinygradModules then ⟨tinygradRam.toNat, 0, 0⟩
  else if module ∈ frameworkModules then ⟨frameworkRam.toNat, 0, 0⟩
  else if module ∈ nodeModules then ⟨nodeRam.toNat, 0, 0⟩
  else .zero

/-- The dimensions that the profiler finds. -/
def sizes (args : List IrExpr) : List Nat := (dims args).map UInt64.toNat

def arrayUsage (args : List IrExpr) : Usage :=
  if (dims args).isEmpty then .zero else ⟨(sizes args).prod * arrayElementSize.toNat, 10, 0⟩

def chainUsage (func : IrExpr) (args : List IrExpr) : Usage :=
  match func.resolveAttrChain with
  | some chain =>
    .plus (if ".".intercalate chain ∈ arrayAllocFuncs then arrayUsage args else .zero)
      (if isHttp (".".intercalate chain) then ⟨0, httpLatencyUs.toNat, 1⟩ else .zero)
  | none => .zero

def fileUsage (func : IrExpr) : Usage :=
  .plus (if ProfilerVisitor.isOpen func then ⟨fileBufRam.toNat, 0, 0⟩ else .zero)
    (if ProfilerVisitor.isFileMethod func then ⟨fileBufRam.toNat, 0, 0⟩ else .zero)

def visitUsage : Visit → Usage
  | .import_ module _ | .importFrom module _ _ => importUsage module
  | .call func args => (chainUsage func args).plus (fileUsage func)
  | .str s => if isUrl s then ⟨0, 5, 0⟩ else .zero
  | _ => .zero

/-- The size of an array can be computed. -/
def ArrayFits (args : List IrExpr) : Prop :=
  (dims args).isEmpty ∨ Overflow.ProductFits 1 (sizes args) ∧ (sizes args).prod * arrayElementSize.toNat < 2 ^ 64

def VisitFits : Visit → Prop
  | .call func args => ∀ chain, func.resolveAttrChain = some chain → ".".intercalate chain ∈ arrayAllocFuncs →
      ArrayFits args
  | _ => True

/-! ## What a visit does -/

def ProfilerVisitor.usage (v : ProfilerVisitor) : Usage :=
  ⟨v.profile.ramBytes.toNat, v.profile.cpuUs.toNat, v.profile.networkCalls.toNat⟩

/-- The step adds an amount, and overflows exactly when something it computes on
the way does or the amount has no room any more. -/
structure Charges (step : Overflow → ProfilerVisitor → Option ProfilerVisitor) (fits : Prop) (amount : Usage) :
    Prop where
  adds : fits → ∀ v, (v.usage.plus amount).Fits →
    ∃ w, (∀ mode, step mode v = some w) ∧ w.usage = v.usage.plus amount
  room : ∀ v w, step .checked v = some w → fits ∧ (v.usage.plus amount).Fits

namespace Charges
open ProfilerVisitor
variable {step next : Overflow → ProfilerVisitor → Option ProfilerVisitor} {fits fits' : Prop} {amount more : Usage}

theorem usage_fits (v : ProfilerVisitor) : v.usage.Fits :=
  ⟨v.profile.ramBytes.toNat_lt, v.profile.cpuUs.toNat_lt, v.profile.networkCalls.toNat_lt⟩

/-- A step that touches no counter. -/
theorem free (steps : ∀ v, ∃ w, (∀ mode, step mode v = some w) ∧ w.usage = v.usage) : Charges step True .zero where
  adds _ v _ := steps v
  room v _ _ := ⟨trivial, usage_fits v⟩

/-- A step that adds a word to one counter. -/
theorem counter (read : ProfilerVisitor → UInt64) (word : UInt64) (write : ProfilerVisitor → UInt64 → ProfilerVisitor)
    (steps : ∀ mode v, step mode v = (mode.add64 (read v) word).map (write v))
    (room : ∀ v, (v.usage.plus amount).Fits ↔ (read v).toNat + word.toNat < 2 ^ 64)
    (used : ∀ v sum, sum.toNat = (read v).toNat + word.toNat → (write v sum).usage = v.usage.plus amount) :
    Charges step True amount where
  adds _ v fits := by
    have below := (room v).mp fits
    refine ⟨write v (read v + word), fun mode => ?_, used v _ ?_⟩
    · rw [steps, Overflow.add64_of_fits below, Option.map_some]
    · rw [UInt64.toNat_add, Nat.mod_eq_of_lt below]
  room v w added := by
    rw [steps, Option.map_eq_some_iff] at added
    obtain ⟨sum, fits, -⟩ := added
    exact ⟨trivial, (room v).mpr (Overflow.fits_of_add64 fits)⟩

theorem nothing : Charges (fun _ => some) True .zero := free fun v => ⟨v, fun _ => rfl, rfl⟩

theorem congr (charges : Charges step fits amount) (same : fits ↔ fits') (amounts : amount = more) :
    Charges step fits' more := by
  rw [← amounts]
  exact ⟨fun met => charges.adds (same.mpr met), fun v w done => (charges.room v w done).imp_left same.mp⟩

theorem bind (one : Charges step fits amount) (two : Charges next fits' more) :
    Charges (fun mode v => (step mode v).bind (next mode)) (fits ∧ fits') (amount.plus more) where
  adds := by
    rintro ⟨first, second⟩ v room
    rw [← Usage.plus_assoc] at room ⊢
    obtain ⟨w, steps, used⟩ := one.adds first v room.of_plus
    obtain ⟨x, nexts, later⟩ := two.adds second w (used ▸ room)
    exact ⟨x, fun mode => by rw [steps, Option.bind_some, nexts], by rw [later, used]⟩
  room := by
    intro v x done
    obtain ⟨w, steps, nexts⟩ := Option.bind_eq_some_iff.mp done
    obtain ⟨first, room⟩ := one.room v w steps
    obtain ⟨second, later⟩ := two.room w x nexts
    obtain ⟨w', same, used⟩ := one.adds first v room
    cases steps.symm.trans (same .checked)
    rw [used, Usage.plus_assoc] at later
    exact ⟨⟨first, second⟩, later⟩

/-- A step with a number that is computed first, and may overflow. -/
theorem given {value : Overflow → Option UInt64} {after : UInt64 → Overflow → ProfilerVisitor → Option ProfilerVisitor}
    (only : ∀ n, value .checked = some n → fits)
    (computed : fits → ∃ n, (∀ mode, value mode = some n) ∧ Charges (after n) fits' amount) :
    Charges (fun mode v => (value mode).bind fun n => after n mode v) (fits ∧ fits') amount where
  adds := by
    rintro ⟨first, second⟩ v room
    obtain ⟨n, values, charges⟩ := computed first
    obtain ⟨w, steps, used⟩ := charges.adds second v room
    exact ⟨w, fun mode => by rw [values, Option.bind_some, steps], used⟩
  room := by
    intro v w done
    obtain ⟨n, found, steps⟩ := Option.bind_eq_some_iff.mp done
    have first := only n found
    obtain ⟨n', values, charges⟩ := computed first
    cases (values .checked).symm.trans found
    obtain ⟨second, room⟩ := charges.room v w steps
    exact ⟨⟨first, second⟩, room⟩

theorem choice {p : Prop} [Decidable p] (one : Charges step fits amount) (two : Charges next True more) :
    Charges (fun mode v => if p then step mode v else next mode v) (p → fits) (if p then amount else more) := by
  by_cases holds : p
  · simpa only [holds, if_true, true_implies] using one
  · simpa only [holds, if_false, false_implies] using two

theorem choice_free {p : Prop} [Decidable p] (one : Charges step True amount) (two : Charges next True more) :
    Charges (fun mode v => if p then step mode v else next mode v) True (if p then amount else more) := by
  simpa only [implies_true] using one.choice (p := p) two

end Charges

section Steps
open ProfilerVisitor

theorem addRam_charges (bytes : UInt64) : Charges (fun mode => addRam mode bytes) True ⟨bytes.toNat, 0, 0⟩ := by
  refine .counter (fun v => v.profile.ramBytes) bytes (fun v sum => { v with profile.ramBytes := sum }) ?_ ?_ ?_
  · intro mode v
    rw [Option.map_eq_bind]
    rfl
  · exact fun v => ⟨fun fits => fits.1, fun fits => ⟨fits, v.profile.cpuUs.toNat_lt, v.profile.networkCalls.toNat_lt⟩⟩
  · intro v sum total
    simp only [usage, Usage.plus, total, Nat.add_zero]

theorem addCpu_charges (us : UInt64) : Charges (fun mode => addCpu mode us) True ⟨0, us.toNat, 0⟩ := by
  refine .counter (fun v => v.profile.cpuUs) us (fun v sum => { v with profile.cpuUs := sum }) ?_ ?_ ?_
  · intro mode v
    rw [Option.map_eq_bind]
    rfl
  · exact fun v => ⟨fun fits => fits.2.1, fun fits => ⟨v.profile.ramBytes.toNat_lt, fits, v.profile.networkCalls.toNat_lt⟩⟩
  · intro v sum total
    simp only [usage, Usage.plus, total, Nat.add_zero]

theorem addNetworkCall_charges : Charges addNetworkCall True ⟨0, 0, 1⟩ := by
  refine .counter (fun v => v.profile.networkCalls) 1 (fun v sum => { v with profile.networkCalls := sum }) ?_ ?_ ?_
  · intro mode v
    rw [Option.map_eq_bind]
    rfl
  · exact fun v => ⟨fun fits => fits.2.2, fun fits => ⟨v.profile.ramBytes.toNat_lt, v.profile.cpuUs.toNat_lt, fits⟩⟩
  · intro v sum total
    simp only [usage, Usage.plus, total, Nat.add_zero]
    rfl

theorem requireGpu_charges : Charges (fun _ => requireGpu) True .zero := .free fun _ => ⟨_, fun _ => rfl, rfl⟩
theorem setLongRunning_charges : Charges (fun _ => setLongRunning) True .zero := .free fun _ => ⟨_, fun _ => rfl, rfl⟩
theorem seeArrayDims_charges : Charges (fun _ => seeArrayDims) True .zero := .free fun _ => ⟨_, fun _ => rfl, rfl⟩

theorem handleImport_charges (module : String) :
    Charges (fun mode => handleImport mode module) True (importUsage module) := by
  have gpu (bytes : UInt64) : Charges (fun mode v => (addRam mode bytes v).bind requireGpu) True ⟨bytes.toNat, 0, 0⟩ :=
    ((addRam_charges bytes).bind requireGpu_charges).congr (and_self_iff) rfl
  have server (bytes : UInt64) :
      Charges (fun mode v => (addRam mode bytes v).bind setLongRunning) True ⟨bytes.toNat, 0, 0⟩ :=
    ((addRam_charges bytes).bind setLongRunning_charges).congr (and_self_iff) rfl
  exact (addRam_charges _).choice_free ((gpu _).choice_free ((gpu _).choice_free
    ((server _).choice_free ((server _).choice_free .nothing))))

/-- An array is counted when its size can be computed. -/
theorem array_charges (args : List IrExpr) : Charges (fun mode => allocate mode args) (ArrayFits args) (arrayUsage args) := by
  by_cases empty : (dims args).isEmpty
  · have steps : (fun mode => allocate mode args) = fun _ => some := by
      funext mode v
      simp [allocate, extractArrayDims, empty]
    rw [steps, arrayUsage, if_pos empty]
    exact Charges.nothing.congr (by simp [ArrayFits, empty]) rfl
  · have steps : (fun mode => allocate mode args) = fun mode v => (product mode (dims args)).bind fun elements =>
        (mode.mul64 elements arrayElementSize).bind fun bytes =>
          (addRam mode bytes v).bind fun v => (addCpu mode 10 v).bind seeArrayDims := by
      funext mode v
      simp only [allocate, extractArrayDims, empty]
      cases product mode (dims args) <;> rfl
    have counted (bytes : UInt64) :
        Charges (fun mode v => (addRam mode bytes v).bind fun v => (addCpu mode 10 v).bind seeArrayDims) True
          ⟨bytes.toNat, 10, 0⟩ :=
      ((addRam_charges bytes).bind ((addCpu_charges 10).bind seeArrayDims_charges)).congr (by simp) (by rfl)
    have sized : Charges (fun mode v => (product mode (dims args)).bind fun elements =>
        (mode.mul64 elements arrayElementSize).bind fun bytes =>
          (addRam mode bytes v).bind fun v => (addCpu mode 10 v).bind seeArrayDims)
        (Overflow.ProductFits 1 (sizes args) ∧ (sizes args).prod * arrayElementSize.toNat < 2 ^ 64 ∧ True)
        ⟨(sizes args).prod * arrayElementSize.toNat, 10, 0⟩ := by
      refine .given (fun _ => Overflow.fits_of_foldlM_mul64) fun fits => ?_
      have start : Overflow.ProductFits (1 : UInt64).toNat ((dims args).map UInt64.toNat) := fits
      obtain ⟨elements, products, value⟩ := Overflow.foldlM_mul64 start
      have exact_ : elements.toNat = (sizes args).prod := value.trans (Nat.one_mul _)
      refine ⟨elements, products, .given (fun _ multiplied => ?_) fun room => ?_⟩
      · rw [← exact_]
        exact Overflow.fits_of_mul64 multiplied
      · rw [← exact_] at room ⊢
        refine ⟨elements * arrayElementSize, fun mode => Overflow.mul64_of_fits room, ?_⟩
        rw [← Nat.mod_eq_of_lt room, ← UInt64.toNat_mul]
        exact counted _
    rw [steps, arrayUsage, if_neg empty]
    exact sized.congr (by simp [ArrayFits, empty]) rfl

/-- A call of a function with a dotted name overflows where its array does. -/
theorem chainCall_charges (func : IrExpr) (args : List IrExpr) :
    Charges (fun mode => chainCall mode func args) (VisitFits (.call func args)) (chainUsage func args) := by
  unfold chainCall chainUsage VisitFits
  cases chained : func.resolveAttrChain with
  | none => exact Charges.nothing.congr (by simp [chained]) rfl
  | some chain =>
    have array : Charges (fun mode => arrayAllocation mode (".".intercalate chain) args)
        (".".intercalate chain ∈ arrayAllocFuncs → ArrayFits args)
        (if ".".intercalate chain ∈ arrayAllocFuncs then arrayUsage args else .zero) :=
      (array_charges args).choice .nothing
    have http : Charges (fun mode => httpCall mode (".".intercalate chain)) True
        (if isHttp (".".intercalate chain) then ⟨0, httpLatencyUs.toNat, 1⟩ else .zero) :=
      ((addNetworkCall_charges.bind (addCpu_charges httpLatencyUs)).congr and_self_iff rfl).choice_free .nothing
    have long : Charges (fun _ => longRunningCall (".".intercalate chain)) True .zero :=
      (setLongRunning_charges.choice_free .nothing).congr Iff.rfl (ite_self _)
    refine (array.bind (http.bind long)).congr ?_ rfl
    simp [chained]

theorem visitCall_charges (func : IrExpr) (args : List IrExpr) :
    Charges (fun mode => visitCall mode func args) (VisitFits (.call func args)) (visitUsage (.call func args)) := by
  have opened : Charges (fun mode => openCall mode func) True (if isOpen func then ⟨fileBufRam.toNat, 0, 0⟩ else .zero) :=
    (addRam_charges fileBufRam).choice_free .nothing
  have file : Charges (fun mode => fileCall mode func) True
      (if isFileMethod func then ⟨fileBufRam.toNat, 0, 0⟩ else .zero) :=
    (addRam_charges fileBufRam).choice_free .nothing
  refine ((chainCall_charges func args).bind (opened.bind file)).congr ?_ rfl
  simp

theorem visitStr_charges (s : String) : Charges (fun mode => visitStr mode s) True (visitUsage (.str s)) :=
  (addCpu_charges 5).choice_free .nothing

theorem act_charges (visit : Visit) :
    Charges (fun mode => act mode visit) (VisitFits visit) (visitUsage visit) := by
  cases visit with
  | import_ module _ => exact handleImport_charges module
  | importFrom module _ _ => exact handleImport_charges module
  | call func args => exact visitCall_charges func args
  | str s => exact visitStr_charges s
  | _ => exact .nothing

theorem foldl_apply (mode : Overflow) (visits : List Visit) (self : Option ProfilerVisitor) :
    visits.foldl (profilerVisitor mode).apply self =
      self.bind fun v => visits.foldl (profilerVisitor mode).apply (some v) := by
  cases self with
  | none =>
    induction visits with
    | nil => rfl
    | cons visit rest ih => rw [List.foldl_cons, apply_eq, Option.bind_none, ih]; rfl
  | some v => rfl

/-- Visits one after the other use the sum of what they use. -/
theorem visits_charge (visits : List Visit) :
    Charges (fun mode v => visits.foldl (profilerVisitor mode).apply (some v)) (∀ visit ∈ visits, VisitFits visit)
      (.total (visits.map visitUsage)) := by
  induction visits with
  | nil => exact Charges.nothing.congr (by simp) rfl
  | cons visit rest ih =>
    have steps : (fun mode v => (visit :: rest).foldl (profilerVisitor mode).apply (some v)) = fun mode v =>
        (act mode visit v).bind fun w => rest.foldl (profilerVisitor mode).apply (some w) := by
      funext mode v
      rw [List.foldl_cons, apply_eq, Option.bind_some, foldl_apply]
    rw [steps]
    exact ((act_charges visit).bind ih).congr (by simp) rfl

end Steps

/-! ## The estimate -/

/-- Everything the walk of a program calls, in order. -/
def calls (program : IrProgram) : List Visit := recorder.walkProgram program []

/-- What the calls of the walk and the sandbox itself use. -/
def used (program : IrProgram) : Usage :=
  .plus ⟨baseSandboxRam.toNat, baseSandboxCpu.toNat, 0⟩ (.total ((calls program).map visitUsage))

/-- The sizes of all arrays can be computed, and all sums. -/
def Estimable (program : IrProgram) : Prop := (∀ visit ∈ calls program, VisitFits visit) ∧ (used program).Fits

section Estimate
variable {program : IrProgram}

theorem walkProgram_calls (program : IrProgram) {σ : Type} (v : IrVisitor σ) (s : σ) :
    v.walkProgram program s = (calls program).foldl v.apply s := by
  obtain ⟨order, walks, -⟩ := walkProgram_walks program
  simp only at walks
  have recorded : calls program = order := by rw [calls, walks, recorder_foldl, List.nil_append]
  rw [walks, recorded]

theorem call_mem {func : IrExpr} {args : List IrExpr} {keywords : List (IrKeyword IrExpr)}
    (walked : .call func args keywords ∈ program.walked) : .call func args ∈ calls program := by
  obtain ⟨order, walks, due⟩ := walkProgram_walks program
  simp only at walks
  have recorded : calls program = order := by rw [calls, walks, recorder_foldl, List.nil_append]
  rw [recorded]
  have made : Visit.call func args ∈ order.filter Visit.watched := by
    rw [due]
    exact List.mem_filterMap.mpr ⟨_, walked, rfl⟩
  exact (List.mem_filter.mp made).1

variable {parse : String → Option IrProgram} {code : String}

theorem profile_parsed (short : code.utf8ByteSize ≤ maxCodeLength) (parsed : parse code = some program)
    (mode : Overflow) : profile mode parse code = (walkedProfile mode program).bind fun walked =>
      baseline.merge mode walked := by
  rw [profile, if_neg (Nat.not_lt.mpr short), parsed]
  rfl

/-- What is used has to fit together with what the sandbox itself uses. -/
theorem within_sandbox_iff (v : ProfilerVisitor) :
    baseline.Within v.profile ↔
      (Usage.plus ⟨baseSandboxRam.toNat, baseSandboxCpu.toNat, 0⟩ v.usage).Fits := Iff.rfl

theorem walkedProfile_charges (mode : Overflow) (program : IrProgram) : walkedProfile mode program =
    ((calls program).foldl (profilerVisitor mode).apply (some ⟨.zero, false⟩)).map ProfilerVisitor.profile := by
  rw [walkedProfile, walkProgram_calls]

/-- Where nothing overflows, the estimate is the sum. -/
theorem profile_of_estimable (short : code.utf8ByteSize ≤ maxCodeLength) (parsed : parse code = some program)
    (estimable : Estimable program) : ∃ estimate, (∀ mode, profile mode parse code = some estimate) ∧
      estimate.ramBytes.toNat = (used program).ram := by
  obtain ⟨arrays, room⟩ := estimable
  have visited : (Usage.zero.plus (.total ((calls program).map visitUsage))).Fits := by
    simp only [used, Usage.Fits, Usage.plus, Usage.zero] at room ⊢
    omega
  obtain ⟨w, walks, counted⟩ := (visits_charge (calls program)).adds arrays ⟨.zero, false⟩ visited
  have within : baseline.Within w.profile := by
    rw [within_sandbox_iff, counted]
    simpa only [used, Usage.Fits, Usage.plus, ProfilerVisitor.usage, ResourceProfile.zero, UInt64.toNat_zero,
      Nat.zero_add] using room
  refine ⟨baseline.plus w.profile, fun mode => ?_, ?_⟩
  · rw [profile_parsed short parsed, walkedProfile_charges, walks, Option.map_some, Option.bind_some, merge_eq,
      Overflow.fit_of_fits within]
  · have ram : w.profile.ramBytes.toNat = (Usage.total ((calls program).map visitUsage)).ram := by
      have := congrArg Usage.ram counted
      simpa [ProfilerVisitor.usage, Usage.plus, ResourceProfile.zero] using this
    rw [ResourceProfile.plus, UInt64.toNat_add, Nat.mod_eq_of_lt within.1, ram]
    rfl

/-- With overflow checked, there is an estimate only where nothing overflows. -/
theorem estimable_of_profile {estimate : ResourceProfile} (short : code.utf8ByteSize ≤ maxCodeLength)
    (parsed : parse code = some program) (estimated : profile .checked parse code = some estimate) :
    Estimable program := by
  rw [profile_parsed short parsed, walkedProfile_charges] at estimated
  obtain ⟨walked, mapped, merged⟩ := Option.bind_eq_some_iff.mp estimated
  obtain ⟨w, walks, rfl⟩ := Option.map_eq_some_iff.mp mapped
  obtain ⟨arrays, room⟩ := (visits_charge (calls program)).room _ _ walks
  obtain ⟨w', same, counted⟩ := (visits_charge (calls program)).adds arrays _ room
  cases (same .checked).symm.trans walks
  refine ⟨arrays, ?_⟩
  rw [merge_eq, Overflow.fit_eq_some] at merged
  have within := merged.1.resolve_right (by decide)
  rw [within_sandbox_iff, counted] at within
  simpa only [used, Usage.Fits, Usage.plus, ProfilerVisitor.usage, ResourceProfile.zero, UInt64.toNat_zero,
    Nat.zero_add] using within

end Estimate


end TinyMachine.Profiler
