import TinyMachine.IrCoverage
import TinyMachine.PythonLiterals
import Mathlib.Data.List.Forall2

/-! Two modules that differ in their integer literals alone are lowered alike
and walked alike: the calls of the two walks belong together one by one. -/
namespace TinyMachine.Python
open Ir

/-- The calls of one walk and those of the other belong together one by one. -/
def Alike (r : Visit → Visit → Prop) (walk walk' : ∀ {σ : Type}, IrVisitor σ → σ → σ) : Prop :=
  ∃ order order' : List Visit, (∀ (σ : Type) (v : IrVisitor σ) (s : σ), walk v s = order.foldl v.apply s) ∧
    (∀ (σ : Type) (v : IrVisitor σ) (s : σ), walk' v s = order'.foldl v.apply s) ∧ List.Forall₂ r order order'

/-- No import, no call and no string. -/
def isQuiet : Visit → Bool
  | .import_ _ _ | .importFrom _ _ _ | .call _ _ | .str _ => false
  | _ => true

/-- The relation holds between the calls of two walks when it holds between
those that say nothing, between equal ones, and between the calls that come of
one call of the template. -/
structure Tolerates (f g : Int → Int) (inside : Expr → Prop) (r : Visit → Visit → Prop) : Prop where
  same : ∀ visit, r visit visit
  quiet : ∀ visit visit', isQuiet visit → isQuiet visit' → r visit visit'
  calls : ∀ func args keywords ir ir', inside (.call func args keywords) →
    convertExpr (func.mapInts f) = some ir → convertExpr (func.mapInts g) = some ir' →
      r (.call ir (convertExprs (mapIntsOf f args))) (.call ir' (convertExprs (mapIntsOf g args)))

section Alike
variable {r : Visit → Visit → Prop} {first first' second second' : ∀ {σ : Type}, IrVisitor σ → σ → σ}

theorem Alike.nothing : Alike r (fun _ s => s) (fun _ s => s) := ⟨[], [], fun _ _ _ => rfl, fun _ _ _ => rfl, .nil⟩

theorem Alike.before (one : Alike r first first') (two : Alike r second second') :
    Alike r (fun v s => second v (first v s)) (fun v s => second' v (first' v s)) := by
  obtain ⟨order, order', calls, calls', matching⟩ := one
  obtain ⟨more, more', later, later', further⟩ := two
  refine ⟨order ++ more, order' ++ more', ?_, ?_, List.rel_append matching further⟩
  · intro σ v s
    simp only at calls later
    simp only [calls, later, List.foldl_append]
  · intro σ v s
    simp only at calls' later'
    simp only [calls', later', List.foldl_append]

/-- Calls that belong together stand before the others. -/
theorem Alike.behind (inner : Alike r first first') (order order' : List Visit) (matching : List.Forall₂ r order order') :
    Alike r (fun v s => first v (order.foldl v.apply s)) (fun v s => first' v (order'.foldl v.apply s)) := by
  have heads : Alike r (fun v s => order.foldl v.apply s) (fun v s => order'.foldl v.apply s) :=
    ⟨order, order', fun _ _ _ => rfl, fun _ _ _ => rfl, matching⟩
  exact heads.before inner

end Alike

/-- Two results of lowering: none, or two expressions that are walked alike. -/
def AlikeExpr (r : Visit → Visit → Prop) (lowered lowered' : Option IrExpr) : Prop :=
  Option.Rel (fun e e' => Alike r (fun v => v.walkExpr e) fun v => v.walkExpr e') lowered lowered'

def AlikeExprs (r : Visit → Visit → Prop) (lowered lowered' : List IrExpr) : Prop :=
  Alike r (fun v => v.walkExprs lowered) fun v => v.walkExprs lowered'

section Lowered
variable {r : Visit → Visit → Prop} {lowered lowered' : Option IrExpr}

/-- What depends on two such results. -/
theorem AlikeExpr.bind {α : Type} {q : α → α → Prop} {next next' : IrExpr → Option α}
    (alike : AlikeExpr r lowered lowered')
    (rest : ∀ e e', lowered = some e → lowered' = some e' →
      Alike r (fun v => v.walkExpr e) (fun v => v.walkExpr e') → Option.Rel q (next e) (next' e')) :
    Option.Rel q (lowered.bind next) (lowered'.bind next') := by
  cases alike with
  | none => exact .none
  | some walks => exact rest _ _ rfl rfl walks

theorem AlikeExprs.nil : AlikeExprs r [] [] := Alike.nothing

theorem AlikeExprs.cons {rest rest' : List IrExpr} (one : AlikeExpr r lowered lowered')
    (more : AlikeExprs r rest rest') : AlikeExprs r (lowered.toList ++ rest) (lowered'.toList ++ rest') := by
  cases one with
  | none => exact more
  | some walks => exact walks.before more

theorem AlikeExpr.option (one : AlikeExpr r lowered lowered') :
    Alike r (fun v => v.walkOption lowered) fun v => v.walkOption lowered' := by
  cases one with
  | none => exact .nothing
  | some walks => exact walks

end Lowered

section Expressions
variable {f g : Int → Int} {inside : Expr → Prop} {r : Visit → Visit → Prop}

theorem Tolerates.forall₂ (tolerates : Tolerates f g inside r) : ∀ {order order' : List Visit},
    order.length = order'.length → order.all isQuiet → order'.all isQuiet → List.Forall₂ r order order'
  | [], [], _, _, _ => .nil
  | visit :: order, visit' :: order', same, quiets, quiets' => by
    rw [List.all_cons, Bool.and_eq_true] at quiets quiets'
    exact .cons (tolerates.quiet visit visit' quiets.1 quiets'.1)
      (tolerates.forall₂ (Nat.succ.inj same) quiets.2 quiets'.2)

/-- Calls that say nothing stand before the others. -/
theorem Alike.under {first first' : ∀ {σ : Type}, IrVisitor σ → σ → σ} (inner : Alike r first first')
    (tolerates : Tolerates f g inside r) (order order' : List Visit) (same : order.length = order'.length)
    (quiets : order.all isQuiet) (quiets' : order'.all isQuiet) :
    Alike r (fun v s => first v (order.foldl v.apply s)) (fun v s => first' v (order'.foldl v.apply s)) :=
  inner.behind order order' (tolerates.forall₂ same quiets quiets')

theorem constant_alike (tolerates : Tolerates f g inside r) (c : Constant) :
    AlikeExpr r (convertExpr ((Expr.constant c).mapInts f)) (convertExpr ((Expr.constant c).mapInts g)) := by
  have same (c : IrConstant) : AlikeExpr r (some (.constant c)) (some (.constant c)) := by
    obtain ⟨order, calls, -⟩ := walkExpr_walks (.constant c)
    exact .some ⟨order, order, calls, calls, List.forall₂_same.mpr fun visit _ => tolerates.same visit⟩
  cases c with
  | int n =>
    exact .some (Alike.nothing.under tolerates [.expr _, .constant _, .int _] [.expr _, .constant _, .int _] rfl rfl rfl)
  | none => exact same .noneValue
  | bool b => exact same (.bool b)
  | str s => exact same (.str s)
  | float bits => exact same (.float bits)
  | ellipsis => exact same .ellipsis
  | bytes | tuple | complex => exact .none

mutual
theorem expr_alike (tolerates : Tolerates f g inside r) : ∀ e : Expr, (∀ part ∈ e.parts, inside part) →
    AlikeExpr r (convertExpr (e.mapInts f)) (convertExpr (e.mapInts g))
  | .boolOp _ values, here => by
    simp only [Expr.mapInts, convertExpr]
    have inner := exprs_alike tolerates values fun part m => here part (by simp [Expr.parts, m])
    exact .some (inner.under tolerates [.expr _] [.expr _] rfl rfl rfl)
  | .binOp left op right, here => by
    simp only [Expr.mapInts, convertExpr]
    have one := expr_alike tolerates left fun part m => here part (by simp [Expr.parts, m])
    have two := expr_alike tolerates right fun part m => here part (by simp [Expr.parts, m])
    refine one.bind fun l l' _ _ first => two.bind fun r r' _ _ second => .some ?_
    exact (first.before second).under tolerates [.expr _, .binop l .add r] [.expr _, .binop l' .add r'] rfl rfl rfl
  | .unaryOp op operand, here => by
    simp only [Expr.mapInts, convertExpr]
    have one := expr_alike tolerates operand fun part m => here part (by simp [Expr.parts, m])
    refine one.bind fun e e' _ _ inner => .some ?_
    exact inner.under tolerates [.expr _, .unaryop _ e] [.expr _, .unaryop _ e'] rfl rfl rfl
  | .constant c, _ => constant_alike tolerates c
  | .attribute value attr, here => by
    simp only [Expr.mapInts, convertExpr]
    have one := expr_alike tolerates value fun part m => here part (by simp [Expr.parts, m])
    refine one.bind fun e e' _ _ inner => .some ?_
    exact inner.under tolerates [.expr _, .attribute e _] [.expr _, .attribute e' _] rfl rfl rfl
  | .subscript value slice, here => by
    simp only [Expr.mapInts, convertExpr]
    have one := expr_alike tolerates value fun part m => here part (by simp [Expr.parts, m])
    have two := expr_alike tolerates slice fun part m => here part (by simp [Expr.parts, m])
    refine one.bind fun e e' _ _ first => two.bind fun s s' _ _ second => .some ?_
    exact (first.before second).under tolerates [.expr _, .subscript e s] [.expr _, .subscript e' s'] rfl rfl rfl
  | .starred value, here => by
    simp only [Expr.mapInts, convertExpr]
    have one := expr_alike tolerates value fun part m => here part (by simp [Expr.parts, m])
    refine one.bind fun e e' _ _ inner => .some ?_
    exact inner.under tolerates [.expr _] [.expr _] rfl rfl rfl
  | .name id, _ => .some (Alike.nothing.under tolerates [.expr _, .name id] [.expr _, .name id] rfl rfl rfl)
  | .list elts, here => by
    simp only [Expr.mapInts, convertExpr]
    have inner := exprs_alike tolerates elts fun part m => here part (by simp [Expr.parts, m])
    exact .some (inner.under tolerates [.expr _] [.expr _] rfl rfl rfl)
  | .tuple elts, here => by
    simp only [Expr.mapInts, convertExpr]
    have inner := exprs_alike tolerates elts fun part m => here part (by simp [Expr.parts, m])
    exact .some (inner.under tolerates [.expr _] [.expr _] rfl rfl rfl)
  | .set elts, here => by
    simp only [Expr.mapInts, convertExpr]
    have inner := exprs_alike tolerates elts fun part m => here part (by simp [Expr.parts, m])
    exact .some (inner.under tolerates [.expr _] [.expr _] rfl rfl rfl)
  | .dict keys values, here => by
    simp only [Expr.mapInts, convertExpr]
    have one := keys_alike tolerates keys fun part m => here part (by simp [Expr.parts, m])
    have two := exprs_alike tolerates values fun part m => here part (by simp [Expr.parts, m])
    exact .some ((Alike.before one two).under tolerates [.expr _] [.expr _] rfl rfl rfl)
  | .call func args keywords, here => by
    simp only [Expr.mapInts, convertExpr]
    have one := expr_alike tolerates func fun part m => here part (by simp [Expr.parts, m])
    have two := exprs_alike tolerates args fun part m => here part (by simp [Expr.parts, m])
    refine one.bind fun ir ir' lowered lowered' first => .some ?_
    refine (first.before two).behind [.expr _, .call ir _] [.expr _, .call ir' _] (.cons ?_ (.cons ?_ .nil))
    · exact tolerates.quiet _ _ rfl rfl
    · exact tolerates.calls func args keywords ir ir' (here _ (by simp [Expr.parts])) lowered lowered'
  | .ifExp test body orelse, here => by
    simp only [Expr.mapInts, convertExpr]
    have one := expr_alike tolerates test fun part m => here part (by simp [Expr.parts, m])
    have two := expr_alike tolerates body fun part m => here part (by simp [Expr.parts, m])
    have three := expr_alike tolerates orelse fun part m => here part (by simp [Expr.parts, m])
    refine one.bind fun _ _ _ _ first => two.bind fun _ _ _ _ second => three.bind fun _ _ _ _ third => .some ?_
    exact ((first.before second).before third).under tolerates [.expr _] [.expr _] rfl rfl rfl
  | .lambda args body, here => by
    simp only [Expr.mapInts, convertExpr]
    have one := expr_alike tolerates body fun part m => here part (by simp [Expr.parts, m])
    refine one.bind fun e e' _ _ inner => .some ?_
    exact inner.under tolerates [.expr _] [.expr _] rfl rfl rfl
  | .compare left ops comparators, here => by
    simp only [Expr.mapInts, convertExpr]
    have one := expr_alike tolerates left fun part m => here part (by simp [Expr.parts, m])
    have two := exprs_alike tolerates comparators fun part m => here part (by simp [Expr.parts, m])
    refine one.bind fun e e' _ _ first => .some ?_
    exact (first.before two).under tolerates [.expr _] [.expr _] rfl rfl rfl
  | .namedExpr _ _, _ | .listComp _ _, _ | .setComp _ _, _ | .dictComp _ _ _, _ | .generatorExp _ _, _ | .await _, _
  | .yield _, _ | .yieldFrom _, _ | .formattedValue _ _, _ | .joinedStr _, _ | .slice _ _ _, _ => .none

theorem exprs_alike (tolerates : Tolerates f g inside r) : ∀ es : List Expr, (∀ part ∈ partsOf es, inside part) →
    AlikeExprs r (convertExprs (mapIntsOf f es)) (convertExprs (mapIntsOf g es))
  | [], _ => .nil
  | e :: rest, here => by
    simp only [mapIntsOf, convertExprs]
    have one := expr_alike tolerates e fun part m => here part (by simp [partsOf, m])
    exact AlikeExprs.cons one (exprs_alike tolerates rest fun part m => here part (by simp [partsOf, m]))

theorem keys_alike (tolerates : Tolerates f g inside r) : ∀ keys : List (Option Expr),
    (∀ part ∈ partsOfKeys keys, inside part) →
      AlikeExprs r (convertKeys (mapIntsOfKeys f keys)) (convertKeys (mapIntsOfKeys g keys))
  | [], _ => .nil
  | none :: rest, here => by
    simp only [mapIntsOfKeys, mapIntsOfOption, convertKeys]
    exact keys_alike tolerates rest fun part m => here part (by simp [partsOfKeys, m])
  | some key :: rest, here => by
    simp only [mapIntsOfKeys, mapIntsOfOption, convertKeys]
    have one := expr_alike tolerates key fun part m => here part (by simp [partsOfKeys, partsOfOption, m])
    exact AlikeExprs.cons one (keys_alike tolerates rest fun part m => here part (by simp [partsOfKeys, m]))
end

/-- The numbers do not decide what is left out. -/
theorem exprs_empty (f g : Int → Int) (es : List Expr) :
    (convertExprs (mapIntsOf f es)).isEmpty = (convertExprs (mapIntsOf g es)).isEmpty := by
  have always : Tolerates f g (fun _ => True) fun _ _ => True :=
    ⟨fun _ => trivial, fun _ _ _ _ => trivial, fun _ _ _ _ _ _ _ _ => trivial⟩
  induction es with
  | nil => rfl
  | cons e rest ih =>
    have one := expr_alike always e fun _ _ => trivial
    simp only [mapIntsOf, convertExprs]
    revert one
    generalize convertExpr (e.mapInts f) = lowered, convertExpr (e.mapInts g) = lowered'
    rintro (_ | _)
    · rfl
    · exact ih

theorem option_alike (tolerates : Tolerates f g inside r) (e : Option Expr) (here : ∀ part ∈ partsOfOption e, inside part) :
    AlikeExpr r (convertOption (mapIntsOfOption f e)) (convertOption (mapIntsOfOption g e)) := by
  cases e with
  | none => exact .none
  | some e => exact expr_alike tolerates e here

theorem item_alike (tolerates : Tolerates f g inside r) (item : WithItem) (here : ∀ part ∈ item.parts, inside part) :
    Option.Rel (fun i i' => Alike r (fun v => v.walkItem i) fun v => v.walkItem i')
      (convertItem (item.mapInts f)) (convertItem (item.mapInts g)) := by
  have one := expr_alike tolerates item.contextExpr fun part m => here part (by simp [WithItem.parts, m])
  have two := option_alike tolerates item.optionalVars fun part m => here part (by simp [WithItem.parts, m])
  exact one.bind fun _ _ _ _ first => .some (first.before two.option)

theorem items_alike (tolerates : Tolerates f g inside r) : ∀ items : List WithItem,
    (∀ part ∈ items.flatMap WithItem.parts, inside part) →
      Alike r (fun v s => ((items.map (WithItem.mapInts f)).filterMap convertItem).foldl (fun s item => v.walkItem item s) s)
        (fun v s => ((items.map (WithItem.mapInts g)).filterMap convertItem).foldl (fun s item => v.walkItem item s) s)
  | [], _ => .nothing
  | item :: rest, here => by
    have one := item_alike tolerates item fun part m => here part (List.mem_append_left _ m)
    have more := items_alike tolerates rest fun part m => here part (List.mem_append_right _ m)
    simp only [List.map_cons, List.filterMap_cons]
    revert one
    generalize convertItem (item.mapInts f) = lowered, convertItem (item.mapInts g) = lowered'
    rintro (walks | _)
    · exact walks.before more
    · exact more

end Expressions

/-! ## Statements -/

/-- Two results of lowering a statement. -/
def AlikeStmt (r : Visit → Visit → Prop) (lowered lowered' : Option IrStmt) : Prop :=
  Option.Rel (fun e e' => Alike r (fun v => v.walkStmt e) fun v => v.walkStmt e') lowered lowered'

def AlikeStmts (r : Visit → Visit → Prop) (lowered lowered' : List IrStmt) : Prop :=
  Alike r (fun v => v.walkStmts lowered) fun v => v.walkStmts lowered'

section Statements
variable {f g : Int → Int} {inside : Expr → Prop} {r : Visit → Visit → Prop}

theorem AlikeStmts.cons {lowered lowered' : Option IrStmt} {rest rest' : List IrStmt}
    (one : AlikeStmt r lowered lowered') (more : AlikeStmts r rest rest') :
    AlikeStmts r (lowered.toList ++ rest) (lowered'.toList ++ rest') := by
  cases one with
  | none => exact more
  | some walks => exact walks.before more

/-- What occurs in a statement is inside. -/
def Within (inside : Expr → Prop) (items : List Item) : Prop := ∀ e, Item.expr e ∈ items → inside e

theorem within_exprItems {es : List Expr} : Within inside (exprItems es) ↔ ∀ e ∈ es, inside e := by
  simp [Within, exprItems]

theorem within_append {items more : List Item} :
    Within inside (items ++ more) ↔ Within inside items ∧ Within inside more := by
  simp only [Within, List.mem_append, or_imp, forall_and]

/-- A statement without numbers. -/
theorem same_alike (tolerates : Tolerates f g inside r) (lowered : Option IrStmt) : AlikeStmt r lowered lowered := by
  cases lowered with
  | none => exact .none
  | some stmt =>
    obtain ⟨order, calls, -⟩ := walkStmt_exprs stmt
    exact .some ⟨order, order, calls, calls, List.forall₂_same.mpr fun visit _ => tolerates.same visit⟩

mutual
theorem stmt_alike (tolerates : Tolerates f g inside r) : ∀ stmt : Stmt, Within inside stmt.items →
    AlikeStmt r (convertStmt (stmt.mapInts f)) (convertStmt (stmt.mapInts g))
  | .expr value, here => by
    simp only [Stmt.items, within_exprItems] at here
    simp only [Stmt.mapInts, convertStmt]
    refine AlikeExpr.bind (expr_alike tolerates value here) fun e e' _ _ inner => .some ?_
    exact inner.under tolerates [.stmt _, .exprStmt e] [.stmt _, .exprStmt e'] rfl rfl rfl
  | .functionDef _ name _ body _ _ _, here => by
    simp only [Stmt.items, within_append] at here
    simp only [Stmt.mapInts, convertStmt]
    have inner := stmts_alike tolerates body here.1
    exact .some (inner.under tolerates [.stmt _, .functionDef name] [.stmt _, .functionDef name] rfl rfl rfl)
  | .assign targets value, here => by
    simp only [Stmt.items, within_exprItems, List.mem_append, or_imp, forall_and] at here
    simp only [Stmt.mapInts, convertStmt, exprs_empty f g targets]
    split
    · exact .none
    · have one := exprs_alike tolerates targets here.1
      refine AlikeExpr.bind (expr_alike tolerates value here.2) fun e e' _ _ two => .some ?_
      exact (Alike.before one two).under tolerates [.stmt _, .assign _ e] [.stmt _, .assign _ e'] rfl rfl rfl
  | .augAssign target op value, here => by
    simp only [Stmt.items, within_exprItems, List.mem_append, or_imp, forall_and] at here
    simp only [Stmt.mapInts, convertStmt]
    refine AlikeExpr.bind (expr_alike tolerates target here.1) fun _ _ _ _ one => ?_
    refine AlikeExpr.bind (expr_alike tolerates value here.2) fun _ _ _ _ two => .some ?_
    exact (one.before two).under tolerates [.stmt _] [.stmt _] rfl rfl rfl
  | .delete targets, here => by
    simp only [Stmt.items, within_exprItems] at here
    simp only [Stmt.mapInts, convertStmt, exprs_empty f g targets]
    split
    · exact .none
    · have one := exprs_alike tolerates targets here
      exact .some (Alike.under one tolerates [.stmt _, .delete _] [.stmt _, .delete _] rfl rfl rfl)
  | .return_ value, here => by
    simp only [Stmt.items, within_exprItems] at here
    simp only [Stmt.mapInts, convertStmt]
    have one := option_alike tolerates value here
    exact .some (one.option.under tolerates [.stmt _, .return_ _] [.stmt _, .return_ _] rfl rfl rfl)
  | .for_ _ target iter body _, here => by
    simp only [Stmt.items, within_append, within_exprItems, List.mem_append, or_imp, forall_and] at here
    simp only [Stmt.mapInts, convertStmt]
    refine AlikeExpr.bind (expr_alike tolerates target here.1.1.1) fun t t' _ _ one => ?_
    refine AlikeExpr.bind (expr_alike tolerates iter here.1.1.2) fun i i' _ _ two => .some ?_
    have three := stmts_alike tolerates body here.1.2
    exact ((one.before two).before three).under tolerates [.stmt _, .for_ t i] [.stmt _, .for_ t' i'] rfl rfl rfl
  | .while_ test body _, here => by
    simp only [Stmt.items, within_append, within_exprItems] at here
    simp only [Stmt.mapInts, convertStmt]
    refine AlikeExpr.bind (expr_alike tolerates test here.1.1) fun t t' _ _ one => .some ?_
    have two := stmts_alike tolerates body here.1.2
    exact (one.before two).under tolerates [.stmt _, .while_ t] [.stmt _, .while_ t'] rfl rfl rfl
  | .if_ test body orelse, here => by
    simp only [Stmt.items, within_append, within_exprItems] at here
    simp only [Stmt.mapInts, convertStmt]
    refine AlikeExpr.bind (expr_alike tolerates test here.1) fun t t' _ _ one => .some ?_
    have two := stmts_alike tolerates body here.2.1
    have three := stmts_alike tolerates orelse here.2.2
    exact (one.before (Alike.before two three)).under tolerates [.stmt _] [.stmt _] rfl rfl rfl
  | .with_ _ items body, here => by
    simp only [Stmt.items, within_append, within_exprItems] at here
    simp only [Stmt.mapInts, convertStmt]
    have one := items_alike tolerates items here.1
    have two := stmts_alike tolerates body here.2
    exact .some ((one.before two).under tolerates [.stmt _] [.stmt _] rfl rfl rfl)
  | .try_ body handlers orelse finalbody, here => by
    simp only [Stmt.items, within_append] at here
    simp only [Stmt.mapInts, convertStmt]
    have one := stmts_alike tolerates body here.1.1.1
    have two := handlers_alike tolerates handlers here.1.1.2
    have three := stmts_alike tolerates orelse here.1.2
    have four := stmts_alike tolerates finalbody here.2
    exact .some ((((Alike.before one two).before three).before four).under tolerates [.stmt _] [.stmt _] rfl rfl rfl)
  | .raise exc _, here => by
    simp only [Stmt.items, within_exprItems, List.mem_append, or_imp, forall_and] at here
    simp only [Stmt.mapInts, convertStmt]
    have one := option_alike tolerates exc here.1
    exact .some (one.option.under tolerates [.stmt _, .raise _] [.stmt _, .raise _] rfl rfl rfl)
  | .classDef name _ _ body _ _, here => by
    simp only [Stmt.items, within_append] at here
    simp only [Stmt.mapInts, convertStmt]
    have inner := stmts_alike tolerates body here.1
    exact .some (inner.under tolerates [.stmt _, .classDef name] [.stmt _, .classDef name] rfl rfl rfl)
  | .assert test msg, here => by
    simp only [Stmt.items, within_exprItems, List.mem_append, or_imp, forall_and] at here
    simp only [Stmt.mapInts, convertStmt]
    refine AlikeExpr.bind (expr_alike tolerates test here.1) fun t t' _ _ one => .some ?_
    have two := option_alike tolerates msg here.2
    exact (one.before two.option).under tolerates [.stmt _, .assert t _] [.stmt _, .assert t' _] rfl rfl rfl
  | .import_ names, _ => by
    simp only [Stmt.mapInts, convertStmt]
    exact same_alike tolerates _
  | .importFrom module names level, _ => by
    simp only [Stmt.mapInts, convertStmt]
    exact same_alike tolerates _
  | .pass, _ => same_alike tolerates (some .pass)
  | .break_, _ => same_alike tolerates (some .break_)
  | .continue_, _ => same_alike tolerates (some .continue_)
  | .typeAlias _ _ _, _ | .annAssign _ _ _, _ | .match_ _ _, _ | .tryStar _ _ _ _, _ | .global _, _ | .nonlocal _, _ =>
    .none

theorem stmts_alike (tolerates : Tolerates f g inside r) : ∀ stmts : List Stmt, Within inside (itemsOf stmts) →
    AlikeStmts r (convertStmts (mapIntsOfStmts f stmts)) (convertStmts (mapIntsOfStmts g stmts))
  | [], _ => Alike.nothing
  | stmt :: rest, here => by
    rw [itemsOf, within_append] at here
    simp only [mapIntsOfStmts, convertStmts]
    exact AlikeStmts.cons (stmt_alike tolerates stmt here.1) (stmts_alike tolerates rest here.2)

theorem handlers_alike (tolerates : Tolerates f g inside r) : ∀ handlers : List (ExceptHandler Stmt),
    Within inside (itemsOfHandlers handlers) →
      Alike r (fun v => v.walkHandlers (convertHandlers (mapIntsOfHandlers f handlers)))
        (fun v => v.walkHandlers (convertHandlers (mapIntsOfHandlers g handlers)))
  | [], _ => Alike.nothing
  | ⟨type_, name, body⟩ :: rest, here => by
    simp only [itemsOfHandlers, within_append, within_exprItems] at here
    simp only [mapIntsOfHandlers, convertHandlers]
    have one := option_alike tolerates type_ here.1.1
    have two := stmts_alike tolerates body here.1.2
    exact (one.option.before two).before (handlers_alike tolerates rest here.2)
end

end Statements

end TinyMachine.Python
