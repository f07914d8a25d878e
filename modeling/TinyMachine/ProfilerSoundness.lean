import TinyMachine.ProfilerEstimate
import TinyMachine.PythonAlike
import TinyMachine.PythonCoverage

/-! When the estimate of RAM covers every array of a Python program: the shapes
of arrays as they stand in the program, against what the profiler finds. -/
namespace TinyMachine.Profiler
open Lib Ir Python

/-! ## Shapes in a program -/

def intLiteral : Expr → Option Nat
  | .constant (.int (.ofNat n)) => some n
  | _ => none

def literals : List Expr → Option (List Nat)
  | [] => some []
  | e :: rest => do return (← intLiteral e) :: (← literals rest)

/-- What stands in a tuple or a list. -/
def elements : Expr → Option (List Expr)
  | .tuple elts | .list elts => some elts
  | _ => none

/-- A tuple or a list of integer literals. -/
def sequenceShape (e : Expr) : Option (List Nat) := (elements e).bind literals

/-- The shape that the arguments give: a tuple or list that stands first, or
integer literals one after the other. -/
def positionalShape : List Expr → Option (List Nat)
  | [] => none
  | first :: rest => (sequenceShape first).or (literals (first :: rest))

/-- The shape that stands under the keyword. -/
def keywordShape (keywords : List (Keyword Expr)) : Option (List Nat) := do
  let shape ← keywords.find? fun keyword => keyword.arg = some "shape"
  (sequenceShape shape.value).or (literals [shape.value])

/-- A function that is known to allocate arrays. -/
def Recognised (func : Expr) : Prop := ∃ names, dottedName func = some names ∧ ".".intercalate names ∈ arrayAllocFuncs

/-- The expression allocates an array of this shape. -/
def Allocates (e : Expr) (shape : List Nat) : Prop :=
  ∃ func args keywords, e = .call func args keywords ∧ Recognised func ∧
    (positionalShape args = some shape ∨ keywordShape keywords = some shape)

/-- The bytes of an array, at most what 64 bits hold. -/
def arrayBytes (shape : List Nat) : Nat := min (shape.prod * arrayElementSize.toNat) (2 ^ 64 - 1)

/-! ## The claims on an estimate -/

/-- The frontend for Python, after the parser. -/
def parsePython (parse : String → Option Suite) (code : String) : Option IrProgram := (parse code).map convertSuite

/-- The code is profiled without overflow, and every array has room. -/
def Sound (parse : String → Option Suite) (code : String) (body : Suite) : Prop :=
  ∃ estimate, (∀ mode, profile mode (parsePython parse) code = some estimate) ∧
    ∀ e shape, Item.expr e ∈ itemsOf body → Allocates e shape → arrayBytes shape ≤ estimate.ramBytes.toNat

/-- The walk comes by the array, its shape is given by arguments, and every
dimension has room in the representation. -/
def Counted (body : Suite) (e : Expr) (shape : List Nat) : Prop :=
  ∃ func args keywords ir, e = .call func args keywords ∧ positionalShape args = some shape ∧
    (∀ n ∈ shape, n < 2 ^ 63) ∧ convertExpr e = some ir ∧ ir ∈ (convertSuite body).walked

/-- Nothing overflows, and the arrays that are not counted are no larger than
what is used anyway. -/
def Covered (body : Suite) : Prop :=
  Estimable (convertSuite body) ∧ ∀ e shape, Item.expr e ∈ itemsOf body → Allocates e shape →
    Counted body e shape ∨ arrayBytes shape ≤ (used (convertSuite body)).ram

/-! ## What the profiler finds of them -/

/-- An integer that does not fit is lost. -/
def lowered (n : Nat) : Nat := if n < 2 ^ 63 then n else 0

/-- What an integer literal comes to as a dimension. -/
def dimOf (n : Int) : UInt64 :=
  .ofNat (if -0x8000000000000000 ≤ n ∧ n < 0x8000000000000000 then .ofInt n else 0 : Int64).toNatClampNeg

def intOf : Expr → Option Int
  | .constant (.int n) => some n
  | _ => none

/-- The integer literals that the profiler takes for dimensions. -/
def dimInts : List Expr → List Int
  | [] => []
  | e :: rest =>
    match elements e with
    | some elts => elts.filterMap intOf
    | none => if e.Lowers then (e :: rest).filterMap intOf else dimInts rest

section Dimensions
variable {e : Expr} {es args : List Expr} {ir : IrExpr} {shape : List Nat} {n : Nat}

theorem dimOf_lowered (n : Nat) : (dimOf (Int.ofNat n)).toNat = lowered n := by
  rw [Int.ofNat_eq_natCast]
  by_cases fits : n < 2 ^ 63
  · have number : (Int64.ofInt (n : Int)).toInt = n := Int64.toInt_ofInt_of_le (by omega) (by omega)
    have inside : -0x8000000000000000 ≤ (n : Int) ∧ (n : Int) < 0x8000000000000000 := by omega
    rw [dimOf, if_pos inside, lowered, if_pos fits, Int64.toNatClampNeg, number, UInt64.toNat_ofNat']
    exact Nat.mod_eq_of_lt (by simp; omega)
  · have outside : ¬ (-0x8000000000000000 ≤ (n : Int) ∧ (n : Int) < 0x8000000000000000) := by omega
    rw [dimOf, if_neg outside, lowered, if_neg fits]
    rfl

theorem asDim_eq (lowers : convertExpr e = some ir) : asDim ir = (intOf e).map dimOf := by
  cases e with
  | constant c =>
    cases c <;> simp [convertExpr, convertConstant] at lowers <;> subst lowers <;> rfl
  | _ =>
    simp [convertExpr, Option.bind_eq_some_iff] at lowers
    try grind [asDim, asInt, intOf]

theorem intOf_none (gone : convertExpr e = none) : intOf e = none := by
  cases e with
  | constant c => cases c <;> first | rfl | simp [convertExpr, convertConstant] at gone
  | _ => rfl

theorem filterMap_asDim (es : List Expr) : (convertExprs es).filterMap asDim = (es.filterMap intOf).map dimOf := by
  induction es with
  | nil => rfl
  | cons e rest ih =>
    rw [convertExprs, List.filterMap_append, ih]
    cases lowers : convertExpr e with
    | none => rw [List.filterMap_cons_none (intOf_none lowers)]; rfl
    | some ir =>
      have dim := asDim_eq lowers
      cases literal : intOf e with
      | none => rw [List.filterMap_cons_none literal]; simp [dim, literal]
      | some n => rw [List.filterMap_cons_some literal]; simp [dim, literal]

/-- What is lowered to a tuple or a list is one. -/
theorem dims_cons (lowers : convertExpr e = some ir) (single : elements e = none) (rest : List IrExpr) :
    dims (ir :: rest) = (ir :: rest).filterMap asDim := by
  unfold dims
  split
  case h_3 => rfl
  all_goals
    rename_i shape
    cases shape
    cases e <;> simp [convertExpr, elements, Option.bind_eq_some_iff] at lowers single

/-- What the frontend leaves out does not stand first. -/
theorem dims_eq (args : List Expr) : dims (convertExprs args) = (dimInts args).map dimOf := by
  fun_induction dimInts args with
  | case1 => rfl
  | case2 e rest elts sequence =>
    cases e with
    | tuple | list =>
      cases sequence
      simp only [convertExprs, convertExpr, Option.toList_some, List.singleton_append, dims]
      exact filterMap_asDim elts
    | _ => cases sequence
  | case3 e rest single lowers =>
    rw [← filterMap_asDim, convertExprs]
    obtain ⟨ir, found⟩ := Option.isSome_iff_exists.mp ((expr_lowers e).symm.trans lowers)
    rw [found, Option.toList_some, List.singleton_append, dims_cons found single]
  | case4 e rest single gone ih =>
    have none : convertExpr e = none := by
      rw [← Option.not_isSome_iff_eq_none, ← expr_lowers]
      exact gone
    rw [convertExprs, none, Option.toList_none, List.nil_append, ih]

theorem literals_ints (found : literals es = some shape) : es.filterMap intOf = shape.map Int.ofNat := by
  induction es generalizing shape with
  | nil =>
    cases found
    rfl
  | cons e rest ih =>
    simp only [literals, Option.bind_eq_bind, Option.bind_eq_some_iff, Option.pure_def, Option.some.injEq] at found
    obtain ⟨n, first, ns, more, rfl⟩ := found
    have int : intOf e = some (Int.ofNat n) := by
      unfold intLiteral at first
      split at first
      · cases first
        rfl
      · cases first
    rw [List.filterMap_cons_some int, ih more, List.map_cons]

theorem dimInts_positional (found : positionalShape args = some shape) : dimInts args = shape.map Int.ofNat := by
  cases args with
  | nil => cases found
  | cons first rest =>
    rw [positionalShape, Option.or_eq_some_iff] at found
    rcases found with sequence | ⟨-, ints⟩
    · obtain ⟨elts, inner, ints⟩ := Option.bind_eq_some_iff.mp sequence
      rw [dimInts, inner]
      exact literals_ints ints
    · have all := literals_ints ints
      cases first with
      | constant c =>
        cases c with
        | int n => exact all
        | _ => simp [literals, intLiteral] at ints
      | _ => simp [literals, intLiteral] at ints

/-- The sizes that are found of a shape that is given by arguments. -/
theorem sizes_positional (found : positionalShape args = some shape) :
    sizes (convertExprs args) = shape.map lowered := by
  rw [sizes, dims_eq, dimInts_positional found, List.map_map, List.map_map]
  refine List.map_congr_left fun n _ => ?_
  rw [Function.comp_apply, Function.comp_apply, dimOf_lowered]

theorem dottedName_lowered : ∀ {e : Expr} {ir : IrExpr}, convertExpr e = some ir → ir.resolveAttrChain = dottedName e
  | .name id, _, lowers => by
    cases lowers
    rfl
  | .attribute value attr, _, lowers => by
    simp only [convertExpr, Option.bind_eq_bind, Option.bind_eq_some_iff, Option.pure_def, Option.some.injEq] at lowers
    obtain ⟨inner, found, rfl⟩ := lowers
    rw [IrExpr.resolveAttrChain, dottedName_lowered found, dottedName]
  | .boolOp .., _, lowers | .list _, _, lowers | .tuple _, _, lowers | .dict .., _, lowers | .set _, _, lowers => by
    cases lowers
    rfl
  | .binOp .., _, lowers | .unaryOp .., _, lowers | .constant _, _, lowers | .subscript .., _, lowers
  | .starred _, _, lowers | .call .., _, lowers | .ifExp .., _, lowers | .lambda .., _, lowers
  | .compare .., _, lowers => by
    simp only [convertExpr, Option.bind_eq_bind, Option.bind_eq_some_iff, Option.pure_def, Option.some.injEq] at lowers
    grind [IrExpr.resolveAttrChain, dottedName]
  | .namedExpr .., _, lowers | .listComp .., _, lowers | .setComp .., _, lowers | .dictComp .., _, lowers
  | .generatorExp .., _, lowers | .await _, _, lowers | .yield _, _, lowers | .yieldFrom _, _, lowers
  | .formattedValue .., _, lowers | .joinedStr _, _, lowers | .slice .., _, lowers => nomatch lowers

end Dimensions

/-! ## Arrays that are counted -/

theorem ram_le_total {usage : Usage} {usages : List Usage} (there : usage ∈ usages) :
    usage.ram ≤ (Usage.total usages).ram := by
  induction usages with
  | nil => cases there
  | cons one rest ih =>
    change usage.ram ≤ one.ram + (Usage.total rest).ram
    rcases List.mem_cons.mp there with rfl | later
    · exact Nat.le_add_right _ _
    · exact (ih later).trans (Nat.le_add_left _ _)

theorem ram_le_used {program : IrProgram} {visit : Visit} (called : visit ∈ calls program) :
    (visitUsage visit).ram ≤ (used program).ram :=
  (ram_le_total (List.mem_map_of_mem called)).trans (Nat.le_add_left _ _)

theorem base_le_used (program : IrProgram) : baseSandboxRam.toNat ≤ (used program).ram := Nat.le_add_right _ _

section Counted
variable {body : Suite} {e func : Expr} {args : List Expr} {keywords : List (Keyword Expr)} {shape : List Nat}

/-- What the visit of a recognised call uses. -/
theorem recognised_usage {ir : IrExpr} (recognised : Recognised func) (lowers : convertExpr func = some ir)
    (args : List IrExpr) : (arrayUsage args).ram ≤ (visitUsage (.call ir args)).ram := by
  obtain ⟨names, named, known⟩ := recognised
  have chain : ir.resolveAttrChain = some names := (dottedName_lowered lowers).trans named
  rw [visitUsage, chainUsage, chain]
  simp only [known, if_true, Usage.plus]
  omega

theorem arrayUsage_ram (args : List IrExpr) (some : sizes args ≠ []) :
    (arrayUsage args).ram = (sizes args).prod * arrayElementSize.toNat := by
  have dims : (dims args).isEmpty = false := by
    rw [sizes, ne_eq, List.map_eq_nil_iff] at some
    simpa using some
  rw [arrayUsage, dims]
  rfl

theorem counted_bytes (recognised : Recognised func) (counted : Counted body (.call func args keywords) shape) :
    arrayBytes shape ≤ (used (convertSuite body)).ram := by
  obtain ⟨_, _, _, ir, same, found, small, lowers, walked⟩ := counted
  cases same
  simp only [convertExpr, Option.bind_eq_bind, Option.bind_eq_some_iff, Option.pure_def, Option.some.injEq] at lowers
  obtain ⟨irFunc, lowersFunc, rfl⟩ := lowers
  have exact_ : sizes (convertExprs args) = shape := by
    have kept : shape.map lowered = shape.map id := List.map_congr_left fun n there => if_pos (small n there)
    rw [sizes_positional found, kept, List.map_id]
  by_cases scalar : shape = []
  · have eight : arrayBytes shape ≤ baseSandboxRam.toNat := by
      rw [scalar]
      decide
    exact eight.trans (base_le_used _)
  · calc arrayBytes shape
      _ ≤ shape.prod * arrayElementSize.toNat := Nat.min_le_left _ _
      _ = (arrayUsage (convertExprs args)).ram := by rw [arrayUsage_ram _ (exact_ ▸ scalar), exact_]
      _ ≤ (visitUsage (.call irFunc (convertExprs args))).ram := recognised_usage recognised lowersFunc _
      _ ≤ (used (convertSuite body)).ram := ram_le_used (call_mem walked)

end Counted

/-- A program is estimated soundly exactly when it is covered. -/
theorem sound_iff_covered {parse : String → Option Suite} {code : String} {body : Suite}
    (short : code.utf8ByteSize ≤ maxCodeLength) (parsed : parse code = some body) :
    Sound parse code body ↔ Covered body := by
  have program : parsePython parse code = some (convertSuite body) := by rw [parsePython, parsed, Option.map_some]
  constructor
  · rintro ⟨estimate, estimated, arrays⟩
    have estimable := estimable_of_profile short program (estimated .checked)
    obtain ⟨estimate', estimated', exact_⟩ := profile_of_estimable short program estimable
    cases (estimated .checked).symm.trans (estimated' .checked)
    exact ⟨estimable, fun e shape there allocates => .inr (exact_ ▸ arrays e shape there allocates)⟩
  · rintro ⟨estimable, arrays⟩
    obtain ⟨estimate, estimated, exact_⟩ := profile_of_estimable short program estimable
    refine ⟨estimate, estimated, fun e shape there allocates => ?_⟩
    rw [exact_]
    rcases arrays e shape there allocates with counted | small
    · obtain ⟨func, args, keywords, rfl, recognised, -⟩ := allocates
      exact counted_bytes recognised counted
    · exact small

end TinyMachine.Profiler
