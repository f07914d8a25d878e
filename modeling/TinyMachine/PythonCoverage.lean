import TinyMachine.PythonParts
import Mathlib.Data.List.Perm.Basic

/-! What of a Python module the representation shows: what is kept is lowered,
what is left out is not, and nothing is either both or neither. -/
namespace TinyMachine.Python
open Ir

/-- Nothing is in neither of the two, or in both. -/
def Covers {β : Type} (parts : List β) (cover : Cover β) : Prop := parts.Perm (cover.kept ++ cover.leftOut)

section Covers
variable {β : Type} {parts more : List β} {cover cover' : Cover β}

theorem Covers.nothing : Covers ([] : List β) .nothing := .refl _

theorem Covers.out (parts : List β) : Covers parts (.out parts) := .refl _

theorem Covers.both (one : Covers parts cover) (two : Covers more cover') :
    Covers (parts ++ more) (cover.both cover') := by
  refine (List.Perm.append one two).trans ?_
  simp only [Cover.both, List.append_assoc]
  exact (List.perm_append_comm_assoc _ _ _).append_left _

theorem Covers.inside {e : Expr} {parts : List Expr} {inner : Cover Expr} (inside : Covers parts inner)
    (whole : e.parts = e :: parts) : Covers e.parts (e.coverWith inner) := by
  unfold Expr.coverWith
  split
  · rw [whole]
    exact List.Perm.cons e inside
  · exact .out e.parts

end Covers

mutual
theorem expr_covers : ∀ e : Expr, Covers e.parts e.cover
  | .boolOp _ values => (exprs_cover values).inside rfl
  | .binOp left _ right => ((expr_covers left).both (expr_covers right)).inside rfl
  | .unaryOp _ operand => (expr_covers operand).inside rfl
  | .lambda args body => ((expr_covers body).both (.out (partsOfArguments args))).inside rfl
  | .ifExp test body orelse => (((expr_covers test).both (expr_covers body)).both (expr_covers orelse)).inside rfl
  | .dict keys values => ((keys_cover keys).both (exprs_cover values)).inside rfl
  | .set elts => (exprs_cover elts).inside rfl
  | .compare left _ comparators => ((expr_covers left).both (exprs_cover comparators)).inside rfl
  | .call func args keywords =>
    (((expr_covers func).both (exprs_cover args)).both (keywords_cover keywords)).inside rfl
  | .constant _ => Covers.nothing.inside rfl
  | .attribute value _ => (expr_covers value).inside rfl
  | .subscript value slice => ((expr_covers value).both (expr_covers slice)).inside rfl
  | .starred value => (expr_covers value).inside rfl
  | .name _ => Covers.nothing.inside rfl
  | .list elts => (exprs_cover elts).inside rfl
  | .tuple elts => (exprs_cover elts).inside rfl
  | .namedExpr _ _ => .out _
  | .listComp _ _ => .out _
  | .setComp _ _ => .out _
  | .dictComp _ _ _ => .out _
  | .generatorExp _ _ => .out _
  | .await _ => .out _
  | .yield _ => .out _
  | .yieldFrom _ => .out _
  | .formattedValue _ _ => .out _
  | .joinedStr _ => .out _
  | .slice _ _ _ => .out _

theorem exprs_cover : ∀ es : List Expr, Covers (partsOf es) (coverOf es)
  | [] => .nothing
  | e :: rest => (expr_covers e).both (exprs_cover rest)

theorem keys_cover : ∀ keys : List (Option Expr), Covers (partsOfKeys keys) (coverOfKeys keys)
  | [] => .nothing
  | none :: rest => keys_cover rest
  | some key :: rest => (expr_covers key).both (keys_cover rest)

theorem keywords_cover : ∀ keywords : List (Keyword Expr), Covers (partsOfKeywords keywords) (coverOfKeywords keywords)
  | [] => .nothing
  | ⟨_, value⟩ :: rest => (expr_covers value).both (keywords_cover rest)
end

/-! ## What is kept is shown -/

theorem constant_lowers (value : Constant) : value.Lowers = (convertConstant value).isSome := by
  cases value <;> rfl

/-- The frontend lowers just the expressions that it has counterparts for. -/
theorem expr_lowers : ∀ e : Expr, e.Lowers = (convertExpr e).isSome
  | .boolOp _ _ | .name _ | .list _ | .tuple _ | .dict _ _ | .set _ => by rfl
  | .binOp left _ right => by
    rw [Expr.Lowers, expr_lowers left, expr_lowers right, convertExpr]
    cases convertExpr left <;> cases convertExpr right <;> rfl
  | .unaryOp _ operand => by
    rw [Expr.Lowers, expr_lowers operand, convertExpr]
    cases convertExpr operand <;> rfl
  | .constant value => by
    rw [Expr.Lowers, constant_lowers, convertExpr]
    cases convertConstant value <;> rfl
  | .attribute value _ => by
    rw [Expr.Lowers, expr_lowers value, convertExpr]
    cases convertExpr value <;> rfl
  | .subscript value slice => by
    rw [Expr.Lowers, expr_lowers value, expr_lowers slice, convertExpr]
    cases convertExpr value <;> cases convertExpr slice <;> rfl
  | .starred value => by
    rw [Expr.Lowers, expr_lowers value, convertExpr]
    cases convertExpr value <;> rfl
  | .call func _ _ => by
    rw [Expr.Lowers, expr_lowers func, convertExpr]
    cases convertExpr func <;> rfl
  | .ifExp test body orelse => by
    rw [Expr.Lowers, expr_lowers test, expr_lowers body, expr_lowers orelse, convertExpr]
    cases convertExpr test <;> cases convertExpr body <;> cases convertExpr orelse <;> rfl
  | .lambda _ body => by
    rw [Expr.Lowers, expr_lowers body, convertExpr]
    cases convertExpr body <;> rfl
  | .compare left _ _ => by
    rw [Expr.Lowers, expr_lowers left, convertExpr]
    cases convertExpr left <;> rfl
  | .namedExpr _ _ | .listComp _ _ | .setComp _ _ | .dictComp _ _ _ | .generatorExp _ _ | .await _ | .yield _
  | .yieldFrom _ | .formattedValue _ _ | .joinedStr _ | .slice _ _ _ => by rfl

/-- What is kept is, in order, what is in the representation. -/
def Shows (cover : Cover Expr) (shown : List IrExpr) : Prop := cover.kept.map convertExpr = shown.map some

section Shows
variable {e : Expr} {ir : IrExpr} {cover cover' : Cover Expr} {shown more : List IrExpr}

theorem Shows.nothing : Shows .nothing [] := rfl
theorem Shows.out (parts : List Expr) : Shows (.out parts) [] := rfl

theorem Shows.both (one : Shows cover shown) (two : Shows cover' more) :
    Shows (cover.both cover') (shown ++ more) := by
  rw [Shows, Cover.both, List.map_append, List.map_append, one, two]

end Shows

theorem partsOf_append (es more : List IrExpr) : Ir.partsOf (es ++ more) = Ir.partsOf es ++ Ir.partsOf more := by
  induction es with
  | nil => rfl
  | cons e rest ih => rw [List.cons_append, Ir.partsOf, ih, Ir.partsOf, List.append_assoc]

theorem partsOf_eq (es : List IrExpr) : Ir.partsOf es = es.flatMap IrExpr.parts := by
  induction es with
  | nil => rfl
  | cons e rest ih => rw [Ir.partsOf, ih, List.flatMap_cons]

/-- The parts of a lowered expression. -/
def shownParts (e : Expr) : List IrExpr := Ir.partsOf (convertExpr e).toList

/-- Of an expression that is not lowered nothing is kept; of one that is, itself
and what is kept inside. -/
theorem shows_of_lowered {e : Expr} {cover : Cover Expr}
    (lowered : ∀ ir, convertExpr e = some ir → ∃ shown, ir.parts = ir :: shown ∧ Shows cover shown) :
    Shows (e.coverWith cover) (shownParts e) := by
  rw [Shows, Expr.coverWith, expr_lowers, shownParts]
  cases found : convertExpr e with
  | none => rfl
  | some ir =>
    obtain ⟨shown, whole, inside⟩ := lowered ir found
    simp only [Option.isSome_some, if_true, Option.toList_some, Ir.partsOf, List.append_nil, whole, List.map_cons,
      found]
    rw [inside]

/-- A part that is lowered shows its counterpart. -/
theorem Shows.of_lowered {e : Expr} {ir : IrExpr} (shows : Shows e.cover (shownParts e))
    (lowered : convertExpr e = some ir) : Shows e.cover ir.parts := by
  rw [shownParts, lowered] at shows
  simpa [Ir.partsOf] using shows

theorem partsOfKeywords_cons (arg : Option String) (value : Expr) (rest : List (IrKeyword IrExpr)) :
    Ir.partsOfKeywords (((convertExpr value).map fun value => ⟨arg, value⟩).toList ++ rest) =
      shownParts value ++ Ir.partsOfKeywords rest := by
  rw [shownParts]
  cases convertExpr value with
  | none => rfl
  | some ir => simp [Ir.partsOf, Ir.partsOfKeywords]

mutual
theorem expr_shows : ∀ e : Expr, Shows e.cover (shownParts e)
  | .boolOp _ values => by
    refine shows_of_lowered fun ir lowered => ?_
    cases lowered
    exact ⟨_, rfl, exprs_show values⟩
  | .binOp left _ right => by
    refine shows_of_lowered fun ir lowered => ?_
    simp only [convertExpr, Option.bind_eq_bind, Option.bind_eq_some_iff, Option.pure_def, Option.some.injEq] at lowered
    obtain ⟨l, one, r, two, rfl⟩ := lowered
    exact ⟨_, rfl, ((expr_shows left).of_lowered one).both ((expr_shows right).of_lowered two)⟩
  | .unaryOp _ operand => by
    refine shows_of_lowered fun ir lowered => ?_
    simp only [convertExpr, Option.bind_eq_bind, Option.bind_eq_some_iff, Option.pure_def, Option.some.injEq] at lowered
    obtain ⟨inner, one, rfl⟩ := lowered
    exact ⟨_, rfl, (expr_shows operand).of_lowered one⟩
  | .lambda args body => by
    refine shows_of_lowered fun ir lowered => ?_
    simp only [convertExpr, Option.bind_eq_bind, Option.bind_eq_some_iff, Option.pure_def, Option.some.injEq] at lowered
    obtain ⟨inner, one, rfl⟩ := lowered
    exact ⟨_, (List.append_nil _).symm ▸ rfl, ((expr_shows body).of_lowered one).both (.out (partsOfArguments args))⟩
  | .ifExp test body orelse => by
    refine shows_of_lowered fun ir lowered => ?_
    simp only [convertExpr, Option.bind_eq_bind, Option.bind_eq_some_iff, Option.pure_def, Option.some.injEq] at lowered
    obtain ⟨t, one, b, two, o, three, rfl⟩ := lowered
    exact ⟨_, rfl, (((expr_shows test).of_lowered one).both ((expr_shows body).of_lowered two)).both
      ((expr_shows orelse).of_lowered three)⟩
  | .dict keys values => by
    refine shows_of_lowered fun ir lowered => ?_
    cases lowered
    exact ⟨_, rfl, (keys_show keys).both (exprs_show values)⟩
  | .set elts => by
    refine shows_of_lowered fun ir lowered => ?_
    cases lowered
    exact ⟨_, rfl, exprs_show elts⟩
  | .compare left _ comparators => by
    refine shows_of_lowered fun ir lowered => ?_
    simp only [convertExpr, Option.bind_eq_bind, Option.bind_eq_some_iff, Option.pure_def, Option.some.injEq] at lowered
    obtain ⟨l, one, rfl⟩ := lowered
    exact ⟨_, rfl, ((expr_shows left).of_lowered one).both (exprs_show comparators)⟩
  | .call func args keywords => by
    refine shows_of_lowered fun ir lowered => ?_
    simp only [convertExpr, Option.bind_eq_bind, Option.bind_eq_some_iff, Option.pure_def, Option.some.injEq] at lowered
    obtain ⟨f, one, rfl⟩ := lowered
    exact ⟨_, rfl, (((expr_shows func).of_lowered one).both (exprs_show args)).both (keywords_show keywords)⟩
  | .constant value => by
    refine shows_of_lowered fun ir lowered => ?_
    simp only [convertExpr, Option.bind_eq_bind, Option.bind_eq_some_iff, Option.pure_def, Option.some.injEq] at lowered
    obtain ⟨c, _, rfl⟩ := lowered
    exact ⟨_, rfl, .nothing⟩
  | .attribute value _ => by
    refine shows_of_lowered fun ir lowered => ?_
    simp only [convertExpr, Option.bind_eq_bind, Option.bind_eq_some_iff, Option.pure_def, Option.some.injEq] at lowered
    obtain ⟨inner, one, rfl⟩ := lowered
    exact ⟨_, rfl, (expr_shows value).of_lowered one⟩
  | .subscript value slice => by
    refine shows_of_lowered fun ir lowered => ?_
    simp only [convertExpr, Option.bind_eq_bind, Option.bind_eq_some_iff, Option.pure_def, Option.some.injEq] at lowered
    obtain ⟨v, one, i, two, rfl⟩ := lowered
    exact ⟨_, rfl, ((expr_shows value).of_lowered one).both ((expr_shows slice).of_lowered two)⟩
  | .starred value => by
    refine shows_of_lowered fun ir lowered => ?_
    simp only [convertExpr, Option.bind_eq_bind, Option.bind_eq_some_iff, Option.pure_def, Option.some.injEq] at lowered
    obtain ⟨inner, one, rfl⟩ := lowered
    exact ⟨_, rfl, (expr_shows value).of_lowered one⟩
  | .name _ => by
    refine shows_of_lowered fun ir lowered => ?_
    cases lowered
    exact ⟨_, rfl, .nothing⟩
  | .list elts => by
    refine shows_of_lowered fun ir lowered => ?_
    cases lowered
    exact ⟨_, rfl, exprs_show elts⟩
  | .tuple elts => by
    refine shows_of_lowered fun ir lowered => ?_
    cases lowered
    exact ⟨_, rfl, exprs_show elts⟩
  | .namedExpr _ _ | .listComp _ _ | .setComp _ _ | .dictComp _ _ _ | .generatorExp _ _ | .await _ | .yield _
  | .yieldFrom _ | .formattedValue _ _ | .joinedStr _ | .slice _ _ _ => .out _

theorem exprs_show : ∀ es : List Expr, Shows (coverOf es) (Ir.partsOf (convertExprs es))
  | [] => .nothing
  | e :: rest => by
    rw [convertExprs, partsOf_append]
    exact (expr_shows e).both (exprs_show rest)

theorem keys_show : ∀ keys : List (Option Expr), Shows (coverOfKeys keys) (Ir.partsOf (convertKeys keys))
  | [] => .nothing
  | none :: rest => keys_show rest
  | some key :: rest => by
    rw [convertKeys, partsOf_append]
    exact (expr_shows key).both (keys_show rest)

theorem keywords_show : ∀ keywords : List (Keyword Expr),
    Shows (coverOfKeywords keywords) (Ir.partsOfKeywords (convertKeywords keywords))
  | [] => .nothing
  | ⟨arg, value⟩ :: rest => by
    rw [convertKeywords, partsOfKeywords_cons]
    exact (expr_shows value).both (keywords_show rest)
end

/-! ## Statements -/

section StmtCovers
variable {stmt : Stmt} {cover : Cover Item} {parts more : List Expr} {inner : Cover Expr}

theorem exprItems_append (es more : List Expr) : exprItems (es ++ more) = exprItems es ++ exprItems more :=
  List.map_append

theorem Covers.items (covers : Covers parts inner) : Covers (exprItems parts) inner.items := by
  rw [Covers, Cover.items, ← exprItems_append]
  exact List.Perm.map _ covers

theorem Covers.lowered (covers : Covers stmt.items cover) : Covers stmt.items (stmt.coverWith cover) := by
  unfold Stmt.coverWith
  split
  · exact covers
  · exact .out _

theorem option_covers (e : Option Expr) : Covers (partsOfOption e) (coverOfOption e) := by
  cases e with
  | none => exact .nothing
  | some e => exact expr_covers e

theorem item_covers (item : WithItem) : Covers item.parts item.cover := by
  unfold WithItem.cover
  split
  · exact (expr_covers _).both (option_covers _)
  · exact .out _

theorem items_cover (items : List WithItem) : Covers (items.flatMap WithItem.parts) (coverOfItems items) := by
  induction items with
  | nil => exact .nothing
  | cons item rest ih =>
    rw [List.flatMap_cons]
    exact (item_covers item).both ih

end StmtCovers

mutual
theorem stmt_covers : ∀ stmt : Stmt, Covers stmt.items stmt.cover
  | .functionDef _ _ _ body _ _ _ => (stmts_cover body).both (.out _)
  | .classDef _ _ _ body _ _ => (stmts_cover body).both (.out _)
  | .return_ value => (option_covers value).items
  | .delete targets => Covers.lowered (exprs_cover targets).items
  | .assign targets value => Covers.lowered ((exprs_cover targets).both (expr_covers value)).items
  | .augAssign target _ value => Covers.lowered ((expr_covers target).both (expr_covers value)).items
  | .for_ _ target iter body _ =>
    Covers.lowered ((((expr_covers target).both (expr_covers iter)).items.both (stmts_cover body)).both (.out _))
  | .while_ test body _ =>
    Covers.lowered (((expr_covers test).items.both (stmts_cover body)).both (.out _))
  | .if_ test body orelse =>
    Covers.lowered ((expr_covers test).items.both ((stmts_cover body).both (stmts_cover orelse)))
  | .with_ _ items body => (items_cover items).items.both (stmts_cover body)
  | .raise exc _ => ((option_covers exc).both (.out _)).items
  | .try_ body handlers orelse finalbody =>
    (((stmts_cover body).both (handlers_cover handlers)).both (stmts_cover orelse)).both (stmts_cover finalbody)
  | .assert test msg => Covers.lowered ((expr_covers test).both (option_covers msg)).items
  | .import_ [] => .nothing
  | .import_ (_ :: _) => .refl _
  | .importFrom _ _ _ => Covers.lowered (.refl _)
  | .expr value => Covers.lowered (expr_covers value).items
  | .typeAlias _ _ _ | .annAssign _ _ _ | .match_ _ _ | .tryStar _ _ _ _ | .global _ | .nonlocal _ | .pass | .break_
  | .continue_ => .out _

theorem stmts_cover : ∀ stmts : List Stmt, Covers (itemsOf stmts) (coverOfStmts stmts)
  | [] => .nothing
  | stmt :: rest => (stmt_covers stmt).both (stmts_cover rest)

theorem handlers_cover : ∀ handlers : List (ExceptHandler Stmt),
    Covers (itemsOfHandlers handlers) (coverOfHandlers handlers)
  | [] => .nothing
  | ⟨type_, _, body⟩ :: rest => ((option_covers type_).items.both (stmts_cover body)).both (handlers_cover rest)
end

section StmtLowers

theorem exprs_lower (es : List Expr) : (convertExprs es).isEmpty = ! es.any Expr.Lowers := by
  induction es with
  | nil => rfl
  | cons e rest ih =>
    rw [convertExprs, List.any_cons, expr_lowers]
    cases convertExpr e with
    | none => simpa using ih
    | some ir => rfl

/-- The frontend lowers just the statements that it has counterparts for. -/
theorem stmt_lowers (stmt : Stmt) : stmt.Lowers = (convertStmt stmt).isSome := by
  cases stmt with
  | import_ names => cases names <;> rfl
  | importFrom module names level => cases names <;> rfl
  | expr value =>
    rw [Stmt.Lowers, expr_lowers, convertStmt]
    cases convertExpr value <;> rfl
  | assign targets value =>
    rw [Stmt.Lowers, expr_lowers, convertStmt]
    have empty := exprs_lower targets
    cases any : targets.any Expr.Lowers
    · simp_all
    · cases convertExpr value <;> simp_all
  | augAssign target op value =>
    rw [Stmt.Lowers, expr_lowers, expr_lowers, convertStmt]
    cases convertExpr target <;> cases convertExpr value <;> rfl
  | delete targets =>
    rw [Stmt.Lowers, convertStmt]
    have empty := exprs_lower targets
    cases any : targets.any Expr.Lowers <;> simp_all
  | for_ async target iter body orelse =>
    rw [Stmt.Lowers, expr_lowers, expr_lowers, convertStmt]
    cases convertExpr target <;> cases convertExpr iter <;> rfl
  | while_ test body orelse =>
    rw [Stmt.Lowers, expr_lowers, convertStmt]
    cases convertExpr test <;> rfl
  | if_ test body orelse =>
    rw [Stmt.Lowers, expr_lowers, convertStmt]
    cases convertExpr test <;> rfl
  | assert test msg =>
    rw [Stmt.Lowers, expr_lowers, convertStmt]
    cases convertExpr test <;> rfl
  | _ => rfl

end StmtLowers

/-- What is kept of statements is, in order, what is in the representation. -/
def ShowsItems (cover : Cover Item) (exprs : List IrExpr) (modules : List String) : Prop :=
  (cover.kept.filterMap Item.expr?).map convertExpr = (Ir.partsOf exprs).map some ∧
    cover.kept.filterMap Item.module? = modules

section ShowsItems
variable {cover cover' : Cover Item} {inner : Cover Expr} {exprs exprs' : List IrExpr} {modules modules' : List String}

theorem ShowsItems.nothing : ShowsItems .nothing [] [] := ⟨rfl, rfl⟩
theorem ShowsItems.out (items : List Item) : ShowsItems (.out items) [] [] := ⟨rfl, rfl⟩

theorem ShowsItems.both (one : ShowsItems cover exprs modules) (two : ShowsItems cover' exprs' modules') :
    ShowsItems (cover.both cover') (exprs ++ exprs') (modules ++ modules') := by
  constructor
  · rw [Cover.both, List.filterMap_append, List.map_append, one.1, two.1, partsOf_append, List.map_append]
  · rw [Cover.both, List.filterMap_append, one.2, two.2]

theorem Shows.items (shows : Shows inner (Ir.partsOf exprs)) : ShowsItems inner.items exprs [] := by
  constructor
  · rw [← shows, Cover.items, exprItems, List.filterMap_map, show Item.expr? ∘ Item.expr = some from rfl,
      List.filterMap_some]
  · rw [Cover.items, exprItems, List.filterMap_map, show Item.module? ∘ Item.expr = fun _ => none from rfl]
    exact List.filterMap_eq_nil_iff.mpr fun _ _ => rfl

/-- What is left out shows nothing. -/
theorem ShowsItems.leaving (one : ShowsItems cover exprs modules) (items : List Item) :
    ShowsItems (cover.both (.out items)) exprs modules := by
  have both := one.both (.out items)
  rwa [List.append_nil, List.append_nil] at both

theorem Shows.leaving (one : Shows inner (Ir.partsOf exprs)) (parts : List Expr) :
    Shows (inner.both (.out parts)) (Ir.partsOf exprs) := by
  have both := one.both (.out parts)
  rwa [List.append_nil] at both

theorem Shows.append {inner' : Cover Expr} (one : Shows inner (Ir.partsOf exprs))
    (two : Shows inner' (Ir.partsOf exprs')) : Shows (inner.both inner') (Ir.partsOf (exprs ++ exprs')) := by
  rw [partsOf_append]
  exact one.both two

theorem expr_part {e : Expr} {ir : IrExpr} (lowered : convertExpr e = some ir) :
    Shows e.cover (Ir.partsOf [ir]) := by
  have shows := expr_shows e
  rwa [shownParts, lowered] at shows

theorem expr_items {e : Expr} {ir : IrExpr} (lowered : convertExpr e = some ir) :
    ShowsItems e.cover.items [ir] [] := (expr_part lowered).items

theorem option_shows (e : Option Expr) : Shows (coverOfOption e) (Ir.partsOf (convertOption e).toList) := by
  cases e with
  | none => rfl
  | some e => exact expr_shows e

theorem items_show (items : List WithItem) :
    Shows (coverOfItems items) (Ir.partsOf ((items.filterMap convertItem).flatMap IrWithItem.exprs)) := by
  induction items with
  | nil => rfl
  | cons item rest ih =>
    cases lowered : convertExpr item.contextExpr with
    | none =>
      have gone : convertItem item = none := by rw [convertItem, lowered]; rfl
      rw [List.filterMap_cons_none gone, coverOfItems, WithItem.cover, expr_lowers, lowered]
      exact (Shows.out _).both ih
    | some ir =>
      have found : convertItem item = some ⟨ir, convertOption item.optionalVars⟩ := by
        rw [convertItem, lowered]; rfl
      rw [List.filterMap_cons_some found, List.flatMap_cons, partsOf_append, coverOfItems, WithItem.cover,
        expr_lowers, lowered]
      exact (((expr_shows _).of_lowered lowered).both (option_shows _)).both ih

end ShowsItems

theorem exprsOf_append (stmts more : List IrStmt) : exprsOf (stmts ++ more) = exprsOf stmts ++ exprsOf more := by
  induction stmts with
  | nil => rfl
  | cons stmt rest ih => rw [List.cons_append, exprsOf, ih, exprsOf, List.append_assoc]

theorem modulesOf_append (stmts more : List IrStmt) :
    modulesOf (stmts ++ more) = modulesOf stmts ++ modulesOf more := by
  induction stmts with
  | nil => rfl
  | cons stmt rest ih => rw [List.cons_append, modulesOf, ih, modulesOf, List.append_assoc]

/-- Statements that are lowered show theirs. -/
def ShowsStmts (cover : Cover Item) (stmts : List IrStmt) : Prop :=
  ShowsItems cover (exprsOf stmts) (modulesOf stmts)

theorem ShowsStmts.both {cover cover' : Cover Item} {stmts more : List IrStmt} (one : ShowsStmts cover stmts)
    (two : ShowsStmts cover' more) : ShowsStmts (cover.both cover') (stmts ++ more) := by
  rw [ShowsStmts, exprsOf_append, modulesOf_append]
  exact ShowsItems.both one two

theorem shows_stmt {cover : Cover Item} {ir : IrStmt} (shows : ShowsItems cover ir.exprs ir.modules) :
    ShowsStmts cover [ir] := by
  rw [ShowsStmts, exprsOf, modulesOf, exprsOf, modulesOf, List.append_nil, List.append_nil]
  exact shows

/-- Of a statement that is not lowered nothing is kept. -/
theorem stmt_shows_of_lowered {stmt : Stmt} {cover : Cover Item}
    (lowered : ∀ ir, convertStmt stmt = some ir → ShowsItems cover ir.exprs ir.modules) :
    ShowsStmts (stmt.coverWith cover) (convertStmt stmt).toList := by
  rw [Stmt.coverWith, stmt_lowers]
  cases found : convertStmt stmt with
  | none => exact ShowsItems.out _
  | some ir => exact shows_stmt (lowered ir found)

mutual
theorem stmt_shows : ∀ stmt : Stmt, ShowsStmts stmt.cover (convertStmt stmt).toList
  | .functionDef _ _ _ body _ _ _ => shows_stmt (ShowsItems.leaving (stmts_show body) _)
  | .classDef _ _ _ body _ _ => shows_stmt (ShowsItems.leaving (stmts_show body) _)
  | .return_ value => shows_stmt (option_shows value).items
  | .delete targets => by
    refine stmt_shows_of_lowered fun ir lowered => ?_
    simp only [convertStmt] at lowered
    split at lowered
    · cases lowered
    · cases lowered
      exact (exprs_show targets).items
  | .assign targets value => by
    refine stmt_shows_of_lowered fun ir lowered => ?_
    simp only [convertStmt] at lowered
    split at lowered
    · cases lowered
    · simp only [Option.bind_eq_bind, Option.bind_eq_some_iff, Option.pure_def, Option.some.injEq] at lowered
      obtain ⟨v, one, rfl⟩ := lowered
      exact ((exprs_show targets).append (expr_part one)).items
  | .augAssign target _ value => by
    refine stmt_shows_of_lowered fun ir lowered => ?_
    simp only [convertStmt, Option.bind_eq_bind, Option.bind_eq_some_iff, Option.pure_def, Option.some.injEq] at lowered
    obtain ⟨t, one, v, two, rfl⟩ := lowered
    exact ((expr_part one).append (expr_part two)).items
  | .for_ _ target iter body _ => by
    refine stmt_shows_of_lowered fun ir lowered => ?_
    simp only [convertStmt, Option.bind_eq_bind, Option.bind_eq_some_iff, Option.pure_def, Option.some.injEq] at lowered
    obtain ⟨t, one, i, two, rfl⟩ := lowered
    exact (ShowsItems.both ((expr_part one).append (expr_part two)).items (stmts_show body)).leaving _
  | .while_ test body _ => by
    refine stmt_shows_of_lowered fun ir lowered => ?_
    simp only [convertStmt, Option.bind_eq_bind, Option.bind_eq_some_iff, Option.pure_def, Option.some.injEq] at lowered
    obtain ⟨t, one, rfl⟩ := lowered
    exact ((expr_items one).both (stmts_show body)).leaving _
  | .if_ test body orelse => by
    refine stmt_shows_of_lowered fun ir lowered => ?_
    simp only [convertStmt, Option.bind_eq_bind, Option.bind_eq_some_iff, Option.pure_def, Option.some.injEq] at lowered
    obtain ⟨t, one, rfl⟩ := lowered
    exact ShowsItems.both (expr_items one) (ShowsItems.both (stmts_show body) (stmts_show orelse))
  | .with_ _ items body => shows_stmt ((items_show items).items.both (stmts_show body))
  | .raise exc cause => shows_stmt ((option_shows exc).leaving (partsOfOption cause)).items
  | .try_ body handlers orelse finalbody => shows_stmt
    ((ShowsItems.both (ShowsItems.both (stmts_show body) (handlers_show handlers)) (stmts_show orelse)).both
      (stmts_show finalbody))
  | .assert test msg => by
    refine stmt_shows_of_lowered fun ir lowered => ?_
    simp only [convertStmt, Option.bind_eq_bind, Option.bind_eq_some_iff, Option.pure_def, Option.some.injEq] at lowered
    obtain ⟨t, one, rfl⟩ := lowered
    exact ((expr_part one).append (option_shows msg)).items
  | .import_ [] => ShowsItems.nothing
  | .import_ (_ :: _) => shows_stmt ⟨rfl, rfl⟩
  | .importFrom _ [] _ => ShowsItems.out _
  | .importFrom _ (_ :: _) _ => shows_stmt ⟨rfl, rfl⟩
  | .expr value => by
    refine stmt_shows_of_lowered fun ir lowered => ?_
    simp only [convertStmt, Option.bind_eq_bind, Option.bind_eq_some_iff, Option.pure_def, Option.some.injEq] at lowered
    obtain ⟨v, one, rfl⟩ := lowered
    exact expr_items one
  | .pass => shows_stmt ShowsItems.nothing
  | .break_ => shows_stmt ShowsItems.nothing
  | .continue_ => shows_stmt ShowsItems.nothing
  | .typeAlias _ _ _ | .annAssign _ _ _ | .match_ _ _ | .tryStar _ _ _ _ | .global _ | .nonlocal _ =>
    ShowsItems.out _

theorem stmts_show : ∀ stmts : List Stmt, ShowsStmts (coverOfStmts stmts) (convertStmts stmts)
  | [] => ShowsItems.nothing
  | stmt :: rest => by
    rw [convertStmts]
    exact (stmt_shows stmt).both (stmts_show rest)

theorem handlers_show : ∀ handlers : List (ExceptHandler Stmt), ShowsItems (coverOfHandlers handlers)
    (exprsOfHandlers (convertHandlers handlers)) (modulesOfHandlers (convertHandlers handlers))
  | [] => ShowsItems.nothing
  | ⟨type_, _, body⟩ :: rest => ((option_shows type_).items.both (stmts_show body)).both (handlers_show rest)
end

/-! ## Calls and imports -/

def Expr.isCall : Expr → Bool
  | .call _ _ _ => true
  | _ => false

def irCall : IrExpr → Bool
  | .call _ _ _ => true
  | _ => false

/-- The expressions among the items that are calls. -/
def callsIn (items : List Item) : List Expr := (items.filterMap Item.expr?).filter Expr.isCall

/-- Every call of the module has a call of its own in the representation, which
is its counterpart, and every module that is imported is imported there. -/
def Represented (body : Suite) : Prop :=
  ((callsIn (itemsOf body)).map convertExpr).Perm (((convertSuite body).parts.filter irCall).map some) ∧
    ∀ name, Item.module name ∈ itemsOf body → name ∈ modulesOf (convertSuite body).body

/-- No call is left out, and no module whose name is not kept elsewhere. -/
def NothingLeftOut (cover : Cover Item) : Prop :=
  callsIn cover.leftOut = [] ∧ ∀ name, Item.module name ∈ cover.leftOut → Item.module name ∈ cover.kept

section Represented
variable {body : Suite}

private theorem irCall_false {ir : IrExpr} (other : ∀ func args keywords, ir ≠ .call func args keywords) :
    irCall ir = false := by
  cases ir with
  | call func args keywords => exact absurd rfl (other func args keywords)
  | _ => rfl

theorem isCall_lowered {e : Expr} {ir : IrExpr} (lowered : convertExpr e = some ir) : e.isCall = irCall ir := by
  cases e with
  | call func args keywords =>
    simp only [convertExpr, Option.bind_eq_bind, Option.bind_eq_some_iff, Option.pure_def, Option.some.injEq] at lowered
    obtain ⟨_, _, rfl⟩ := lowered
    rfl
  | _ =>
    refine (irCall_false ?_).symm
    rintro func args keywords rfl
    simp [convertExpr, Option.bind_eq_some_iff] at lowered

theorem calls_lowered {es : List Expr} {irs : List IrExpr} (lowered : es.map convertExpr = irs.map some) :
    (es.filter Expr.isCall).map convertExpr = (irs.filter irCall).map some := by
  induction es generalizing irs with
  | nil =>
    cases irs with
    | nil => rfl
    | cons ir more => cases lowered
  | cons e rest ih =>
    cases irs with
    | nil => cases lowered
    | cons ir more =>
      obtain ⟨one, later⟩ := List.cons.inj lowered
      have inner := ih later
      have same := isCall_lowered one
      cases call : irCall ir with
      | true => rw [List.filter_cons_of_pos (same.trans call), List.filter_cons_of_pos call, List.map_cons,
          List.map_cons, one, inner]
      | false => rw [List.filter_cons_of_neg (by simp [same, call]), List.filter_cons_of_neg (by simp [call]), inner]

/-- The calls that are kept are the calls of the representation. -/
theorem kept_calls (body : Suite) : (callsIn (coverOfStmts body).kept).map convertExpr =
    ((convertSuite body).parts.filter irCall).map some := by
  have shows := (stmts_show body).1
  rw [IrProgram.parts, convertSuite, ← partsOf_eq]
  exact calls_lowered shows

theorem calls_split (body : Suite) : (callsIn (itemsOf body)).Perm
    (callsIn (coverOfStmts body).kept ++ callsIn (coverOfStmts body).leftOut) := by
  rw [callsIn, callsIn, callsIn, ← List.filter_append, ← List.filterMap_append]
  exact ((stmts_cover body).filterMap _).filter _

theorem modules_kept (name : String) :
    name ∈ modulesOf (convertSuite body).body ↔ Item.module name ∈ (coverOfStmts body).kept := by
  rw [convertSuite, ← (stmts_show body).2, List.mem_filterMap]
  constructor
  · rintro ⟨item, kept, found⟩
    cases item with
    | expr e => cases found
    | module name' =>
      cases found
      exact kept
  · exact fun kept => ⟨_, kept, rfl⟩

/-- Where every call is represented, none is left out. -/
theorem no_call_left_out (every : ((callsIn (itemsOf body)).map convertExpr).Perm
    (((convertSuite body).parts.filter irCall).map some)) : callsIn (coverOfStmts body).leftOut = [] := by
  have split := ((calls_split body).map convertExpr).length_eq
  rw [every.length_eq, ← kept_calls, List.length_map, List.length_map, List.length_append] at split
  exact List.eq_nil_of_length_eq_zero (by omega)

theorem module_splits (name : String) : Item.module name ∈ itemsOf body ↔
    Item.module name ∈ (coverOfStmts body).kept ∨ Item.module name ∈ (coverOfStmts body).leftOut := by
  rw [(stmts_cover body).mem_iff, List.mem_append]

end Represented

/-- A module is represented exactly when no call lies in a place that is left
out, and the imports that are left out name no further modules. -/
theorem represented_iff (body : Suite) : Represented body ↔ NothingLeftOut (coverOfStmts body) := by
  constructor
  · rintro ⟨calls, modules⟩
    refine ⟨no_call_left_out calls, fun name left => ?_⟩
    exact (modules_kept name).mp (modules name ((module_splits name).mpr (.inr left)))
  · rintro ⟨none, modules⟩
    constructor
    · rw [← kept_calls]
      have split := calls_split body
      rw [none, List.append_nil] at split
      exact split.map _
    · intro name imported
      rcases (module_splits name).mp imported with kept | left
      · exact (modules_kept name).mpr kept
      · exact (modules_kept name).mpr (modules name left)

/-- The second name of an import is not represented. -/
theorem second_import_is_dropped : ¬ ∀ body : Suite, Represented body := by
  intro law
  have represented := (law [.import_ [⟨"math", none⟩, ⟨"subprocess", none⟩]]).2 "subprocess"
    (List.mem_cons_of_mem _ (List.mem_cons_self ..))
  rw [modules_kept] at represented
  simp [coverOfStmts, Stmt.cover, Cover.both, Cover.nothing] at represented

end TinyMachine.Python
