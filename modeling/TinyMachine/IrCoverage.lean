import TinyMachine.IrWalk
import Mathlib.Data.List.Perm.Basic

/-! What a walk comes by. A visitor is called for the nodes of a program in an
order that does not depend on what it does, and what is due to a node is due to
every visitor. -/
namespace TinyMachine.Ir

/-! ## The calls of a walk -/

/-- One call of one method of a visitor. -/
inductive Visit where
  | stmt (stmt : IrStmt)
  | import_ (module : String) (alias_ : Option String)
  | importFrom (module symbol : String) (alias_ : Option String)
  | exprStmt (expr : IrExpr)
  | assign (targets : List IrExpr) (value : IrExpr)
  | functionDef (name : String)
  | return_ (value : Option IrExpr)
  | delete (targets : List IrExpr)
  | for_ (target iter : IrExpr)
  | while_ (test : IrExpr)
  | classDef (name : String)
  | raise (exc : Option IrExpr)
  | assert (test : IrExpr) (msg : Option IrExpr)
  | break_
  | continue_
  | pass
  | expr (expr : IrExpr)
  | constant (c : IrConstant)
  | str (s : String)
  | int (n : Int64)
  | call (func : IrExpr) (args : List IrExpr)
  | attribute (value : IrExpr) (attr : String)
  | subscript (value slice : IrExpr)
  | name (id : String)
  | binop (left : IrExpr) (op : IrOperator) (right : IrExpr)
  | unaryop (op : IrUnaryOp) (operand : IrExpr)

section Calls
variable {σ : Type}

def IrVisitor.apply (v : IrVisitor σ) (s : σ) : Visit → σ
  | .stmt stmt => v.visitStmt stmt s
  | .import_ module alias_ => v.visitImport module alias_ s
  | .importFrom module symbol alias_ => v.visitImportFrom module symbol alias_ s
  | .exprStmt expr => v.visitExprStmt expr s
  | .assign targets value => v.visitAssign targets value s
  | .functionDef name => v.visitFunctionDef name s
  | .return_ value => v.visitReturn value s
  | .delete targets => v.visitDelete targets s
  | .for_ target iter => v.visitFor target iter s
  | .while_ test => v.visitWhile test s
  | .classDef name => v.visitClassDef name s
  | .raise exc => v.visitRaise exc s
  | .assert test msg => v.visitAssert test msg s
  | .break_ => v.visitBreak s
  | .continue_ => v.visitContinue s
  | .pass => v.visitPass s
  | .expr expr => v.visitExpr expr s
  | .constant c => v.visitConstant c s
  | .str text => v.visitStr text s
  | .int n => v.visitInt n s
  | .call func args => v.visitCall func args s
  | .attribute value attr => v.visitAttribute value attr s
  | .subscript value slice => v.visitSubscript value slice s
  | .name id => v.visitName id s
  | .binop left op right => v.visitBinop left op right s
  | .unaryop op operand => v.visitUnaryop op operand s

/-- The visitor that writes down every call. -/
def recorder : IrVisitor (List Visit) where
  visitStmt stmt calls := calls ++ [.stmt stmt]
  visitImport module alias_ calls := calls ++ [.import_ module alias_]
  visitImportFrom module symbol alias_ calls := calls ++ [.importFrom module symbol alias_]
  visitExprStmt expr calls := calls ++ [.exprStmt expr]
  visitAssign targets value calls := calls ++ [.assign targets value]
  visitFunctionDef name calls := calls ++ [.functionDef name]
  visitReturn value calls := calls ++ [.return_ value]
  visitDelete targets calls := calls ++ [.delete targets]
  visitFor target iter calls := calls ++ [.for_ target iter]
  visitWhile test calls := calls ++ [.while_ test]
  visitClassDef name calls := calls ++ [.classDef name]
  visitRaise exc calls := calls ++ [.raise exc]
  visitAssert test msg calls := calls ++ [.assert test msg]
  visitBreak calls := calls ++ [.break_]
  visitContinue calls := calls ++ [.continue_]
  visitPass calls := calls ++ [.pass]
  visitExpr expr calls := calls ++ [.expr expr]
  visitConstant c calls := calls ++ [.constant c]
  visitStr text calls := calls ++ [.str text]
  visitInt n calls := calls ++ [.int n]
  visitCall func args calls := calls ++ [.call func args]
  visitAttribute value attr calls := calls ++ [.attribute value attr]
  visitSubscript value slice calls := calls ++ [.subscript value slice]
  visitName id calls := calls ++ [.name id]
  visitBinop left op right calls := calls ++ [.binop left op right]
  visitUnaryop op operand calls := calls ++ [.unaryop op operand]

theorem recorder_apply (calls : List Visit) (visit : Visit) : recorder.apply calls visit = calls ++ [visit] := by
  cases visit <;> rfl

theorem recorder_foldl (calls order : List Visit) : order.foldl recorder.apply calls = calls ++ order := by
  induction order generalizing calls with
  | nil => simp
  | cons visit rest ih => simp [ih, recorder_apply]

end Calls

/-! ## What a walk comes by -/

/-- The call that is due at a node: every call, string constant and binary
operation has one. -/
def IrExpr.due : IrExpr → Option Visit
  | .call func args _ => some (.call func args)
  | .constant (.str s) => some (.str s)
  | .binOp left op right => some (.binop left op right)
  | _ => none

/-- The call that is made there. Every binary operation is an addition. -/
def IrExpr.made : IrExpr → Option Visit
  | .binOp left _ right => some (.binop left .add right)
  | e => e.due

def Visit.watched : Visit → Bool
  | .call _ _ | .str _ | .binop _ _ _ => true
  | _ => false

mutual
/-- The parts of an expression that the walk comes by. It does not come by the
keywords of a call. -/
def IrExpr.walked : IrExpr → List IrExpr
  | e@(.boolOp _ values) => e :: walkedOf values
  | e@(.binOp left _ right) => e :: (left.walked ++ right.walked)
  | e@(.unaryOp _ operand) => e :: operand.walked
  | e@(.constant _) => [e]
  | e@(.attribute value _) => e :: value.walked
  | e@(.subscript value slice) => e :: (value.walked ++ slice.walked)
  | e@(.starred value) => e :: value.walked
  | e@(.name _) => [e]
  | e@(.list elts) => e :: walkedOf elts
  | e@(.tuple elts) => e :: walkedOf elts
  | e@(.dict keys values) => e :: (walkedOf keys ++ walkedOf values)
  | e@(.set elts) => e :: walkedOf elts
  | e@(.call func args _) => e :: (func.walked ++ walkedOf args)
  | e@(.ifExp test body orelse) => e :: (test.walked ++ body.walked ++ orelse.walked)
  | e@(.lambda _ body) => e :: body.walked
  | e@(.compare left _ comparators) => e :: (left.walked ++ walkedOf comparators)

def walkedOf : List IrExpr → List IrExpr
  | [] => []
  | e :: rest => e.walked ++ walkedOf rest
end

/-- What is hidden in the keywords of a call. -/
def IrExpr.hidden : IrExpr → List IrExpr
  | .call _ _ keywords => partsOfKeywords keywords
  | _ => []

/-- Whatever the visitor, the walk is these calls, and the watched ones among
them are due to these parts. -/
def Walks (walk : ∀ {σ : Type}, IrVisitor σ → σ → σ) (parts : List IrExpr) : Prop :=
  ∃ order : List Visit, (∀ (σ : Type) (v : IrVisitor σ) (s : σ), walk v s = order.foldl v.apply s) ∧
    order.filter Visit.watched = parts.filterMap IrExpr.made

section Walks
variable {first second : ∀ {σ : Type}, IrVisitor σ → σ → σ} {parts more : List IrExpr}

theorem Walks.nothing : Walks (fun _ s => s) [] := ⟨[], fun _ _ _ => rfl, rfl⟩

theorem Walks.before (one : Walks first parts) (two : Walks second more) :
    Walks (fun v s => second v (first v s)) (parts ++ more) := by
  obtain ⟨order, calls, due⟩ := one
  obtain ⟨order', calls', due'⟩ := two
  refine ⟨order ++ order', ?_, ?_⟩
  · intro σ v s
    simp only at calls calls'
    simp only [calls, calls', List.foldl_append]
  · rw [List.filter_append, List.filterMap_append, due, due']

/-- The calls at a node stand before those for what is inside. -/
theorem Walks.inside (inner : Walks first parts) (order : List Visit) (e : IrExpr)
    (due : order.filter Visit.watched = e.made.toList) :
    Walks (fun v s => first v (order.foldl v.apply s)) (e :: parts) := by
  obtain ⟨order', calls, later⟩ := inner
  refine ⟨order ++ order', ?_, ?_⟩
  · intro σ v s
    simp only at calls
    simp only [calls, List.foldl_append]
  · rw [List.filter_append, due, later, List.filterMap_cons]
    cases e.made <;> rfl

/-- Calls that nothing is due to stand before those of a part. -/
theorem Walks.behind (inner : Walks first parts) (order : List Visit) (due : order.filter Visit.watched = []) :
    Walks (fun v s => first v (order.foldl v.apply s)) parts := by
  obtain ⟨order', calls, later⟩ := inner
  refine ⟨order ++ order', ?_, ?_⟩
  · intro σ v s
    simp only at calls
    simp only [calls, List.foldl_append]
  · rw [List.filter_append, due, later, List.nil_append]

end Walks

theorem walkConstant_walks (c : IrConstant) :
    Walks (fun v s => v.walkConstant c (v.visitExpr (.constant c) s)) [.constant c] := by
  cases c with
  | str text => exact ⟨[.expr _, .constant _, .str text], fun _ _ _ => rfl, rfl⟩
  | int n => exact ⟨[.expr _, .constant _, .int n], fun _ _ _ => rfl, rfl⟩
  | noneValue => exact ⟨[.expr _, .constant _], fun _ _ _ => rfl, rfl⟩
  | bool b => exact ⟨[.expr _, .constant _], fun _ _ _ => rfl, rfl⟩
  | float bits => exact ⟨[.expr _, .constant _], fun _ _ _ => rfl, rfl⟩
  | ellipsis => exact ⟨[.expr _, .constant _], fun _ _ _ => rfl, rfl⟩

mutual
theorem walkExpr_walks : ∀ e : IrExpr, Walks (fun v => v.walkExpr e) e.walked
  | .boolOp _ values => (walkExprs_walks values).inside [.expr _] _ rfl
  | .binOp left _ right =>
    ((walkExpr_walks left).before (walkExpr_walks right)).inside [.expr _, .binop left .add right] _ rfl
  | .unaryOp op operand => (walkExpr_walks operand).inside [.expr _, .unaryop op operand] _ rfl
  | .constant c => walkConstant_walks c
  | .attribute value attr => (walkExpr_walks value).inside [.expr _, .attribute value attr] _ rfl
  | .subscript value slice =>
    ((walkExpr_walks value).before (walkExpr_walks slice)).inside [.expr _, .subscript value slice] _ rfl
  | .starred value => (walkExpr_walks value).inside [.expr _] _ rfl
  | .name id => Walks.nothing.inside [.expr _, .name id] _ rfl
  | .list elts => (walkExprs_walks elts).inside [.expr _] _ rfl
  | .tuple elts => (walkExprs_walks elts).inside [.expr _] _ rfl
  | .dict keys values => ((walkExprs_walks keys).before (walkExprs_walks values)).inside [.expr _] _ rfl
  | .set elts => (walkExprs_walks elts).inside [.expr _] _ rfl
  | .call func args _ =>
    ((walkExpr_walks func).before (walkExprs_walks args)).inside [.expr _, .call func args] _ rfl
  | .ifExp test body orelse =>
    (((walkExpr_walks test).before (walkExpr_walks body)).before (walkExpr_walks orelse)).inside [.expr _] _ rfl
  | .lambda _ body => (walkExpr_walks body).inside [.expr _] _ rfl
  | .compare left _ comparators =>
    ((walkExpr_walks left).before (walkExprs_walks comparators)).inside [.expr _] _ rfl

theorem walkExprs_walks : ∀ es : List IrExpr, Walks (fun v => v.walkExprs es) (walkedOf es)
  | [] => .nothing
  | e :: rest => (walkExpr_walks e).before (walkExprs_walks rest)
end

theorem walkedOf_eq (es : List IrExpr) : walkedOf es = es.flatMap IrExpr.walked := by
  induction es with
  | nil => rfl
  | cons e rest ih => rw [walkedOf, ih, List.flatMap_cons]

/-- A walk of statements goes through the expressions they have. -/
def WalksExprs (walk : ∀ {σ : Type}, IrVisitor σ → σ → σ) (exprs : List IrExpr) : Prop :=
  Walks walk (exprs.flatMap IrExpr.walked)

section WalksExprs
variable {first second : ∀ {σ : Type}, IrVisitor σ → σ → σ} {exprs more : List IrExpr}

theorem WalksExprs.nothing : WalksExprs (fun _ s => s) [] := Walks.nothing

theorem WalksExprs.before (one : WalksExprs first exprs) (two : WalksExprs second more) :
    WalksExprs (fun v s => second v (first v s)) (exprs ++ more) := by
  rw [WalksExprs, List.flatMap_append]
  exact Walks.before one two

theorem WalksExprs.behind (inner : WalksExprs first exprs) (order : List Visit)
    (due : order.filter Visit.watched = []) :
    WalksExprs (fun v s => first v (order.foldl v.apply s)) exprs := Walks.behind inner order due

theorem walkExpr_exprs (e : IrExpr) : WalksExprs (fun v => v.walkExpr e) [e] := by
  rw [WalksExprs, List.flatMap_cons, List.flatMap_nil, List.append_nil]
  exact walkExpr_walks e

theorem walkExprs_exprs (es : List IrExpr) : WalksExprs (fun v => v.walkExprs es) es := by
  rw [WalksExprs, ← walkedOf_eq]
  exact walkExprs_walks es

theorem walkOption_exprs (e : Option IrExpr) : WalksExprs (fun v => v.walkOption e) e.toList := by
  cases e with
  | none => exact .nothing
  | some e => exact walkExpr_exprs e

theorem walkItem_exprs (item : IrWithItem) : WalksExprs (fun v => v.walkItem item) item.exprs :=
  (walkExpr_exprs item.contextExpr).before (walkOption_exprs item.optionalVars)

theorem walkItems_exprs (items : List IrWithItem) :
    WalksExprs (fun v s => items.foldl (fun s item => v.walkItem item s) s) (items.flatMap IrWithItem.exprs) := by
  induction items with
  | nil => exact .nothing
  | cons item rest ih =>
    rw [List.flatMap_cons]
    exact (walkItem_exprs item).before ih

end WalksExprs

mutual
theorem walkStmt_exprs : ∀ stmt : IrStmt, WalksExprs (fun v => v.walkStmt stmt) stmt.exprs
  | .import_ module alias_ => WalksExprs.nothing.behind [.stmt _, .import_ module alias_] rfl
  | .importFrom module symbol alias_ => WalksExprs.nothing.behind [.stmt _, .importFrom module symbol alias_] rfl
  | .expr e => (walkExpr_exprs e).behind [.stmt _, .exprStmt e] rfl
  | .assign targets value =>
    ((walkExprs_exprs targets).before (walkExpr_exprs value)).behind [.stmt _, .assign targets value] rfl
  | .augAssign target _ value => ((walkExpr_exprs target).before (walkExpr_exprs value)).behind [.stmt _] rfl
  | .functionDef name body => (walkStmts_exprs body).behind [.stmt _, .functionDef name] rfl
  | .return_ value => (walkOption_exprs value).behind [.stmt _, .return_ value] rfl
  | .delete targets => (walkExprs_exprs targets).behind [.stmt _, .delete targets] rfl
  | .for_ target iter body =>
    (((walkExpr_exprs target).before (walkExpr_exprs iter)).before (walkStmts_exprs body)).behind
      [.stmt _, .for_ target iter] rfl
  | .while_ test body => ((walkExpr_exprs test).before (walkStmts_exprs body)).behind [.stmt _, .while_ test] rfl
  | .if_ test body orelse =>
    ((walkExpr_exprs test).before ((walkStmts_exprs body).before (walkStmts_exprs orelse))).behind [.stmt _] rfl
  | .with_ items body => ((walkItems_exprs items).before (walkStmts_exprs body)).behind [.stmt _] rfl
  | .try_ body handlers orelse finalbody =>
    ((((walkStmts_exprs body).before (walkHandlers_exprs handlers)).before (walkStmts_exprs orelse)).before
      (walkStmts_exprs finalbody)).behind [.stmt _] rfl
  | .raise exc => (walkOption_exprs exc).behind [.stmt _, .raise exc] rfl
  | .classDef name body => (walkStmts_exprs body).behind [.stmt _, .classDef name] rfl
  | .assert test msg => ((walkExpr_exprs test).before (walkOption_exprs msg)).behind [.stmt _, .assert test msg] rfl
  | .break_ => WalksExprs.nothing.behind [.stmt _, .break_] rfl
  | .continue_ => WalksExprs.nothing.behind [.stmt _, .continue_] rfl
  | .pass => WalksExprs.nothing.behind [.stmt _, .pass] rfl

theorem walkStmts_exprs : ∀ stmts : List IrStmt, WalksExprs (fun v => v.walkStmts stmts) (exprsOf stmts)
  | [] => .nothing
  | stmt :: rest => (walkStmt_exprs stmt).before (walkStmts_exprs rest)

theorem walkHandlers_exprs : ∀ handlers : List (IrExceptHandler IrStmt),
    WalksExprs (fun v => v.walkHandlers handlers) (exprsOfHandlers handlers)
  | [] => .nothing
  | ⟨type_, _, body⟩ :: rest =>
    ((walkOption_exprs type_).before (walkStmts_exprs body)).before (walkHandlers_exprs rest)
end

/-- The parts of a program that the walk comes by. -/
def IrProgram.walked (program : IrProgram) : List IrExpr := (exprsOf program.body).flatMap IrExpr.walked

theorem walkProgram_walks (program : IrProgram) : Walks (fun v => v.walkProgram program) program.walked :=
  walkStmts_exprs program.body

/-! ## What it does not come by -/

/-- All parts are those the walk comes by and those that are hidden in them. -/
def Splits (parts walked : List IrExpr) : Prop := parts.Perm (walked ++ walked.flatMap IrExpr.hidden)

section Splits
variable {parts more walked further : List IrExpr} {e : IrExpr}

theorem Splits.nothing : Splits [] [] := .refl _

theorem Splits.before (one : Splits parts walked) (two : Splits more further) :
    Splits (parts ++ more) (walked ++ further) := by
  refine (List.Perm.append one two).trans ?_
  rw [List.flatMap_append, List.append_assoc, List.append_assoc]
  exact (List.perm_append_comm_assoc _ _ _).append_left _

/-- A node that hides nothing. -/
theorem Splits.inside (inner : Splits parts walked) (open_ : e.hidden = []) :
    Splits (e :: parts) (e :: walked) := by
  rw [Splits, List.flatMap_cons, open_]
  exact List.Perm.cons e inner

/-- A call hides its keywords. -/
theorem Splits.call {func : IrExpr} {args : List IrExpr} {keywords : List (IrKeyword IrExpr)}
    (inner : Splits parts walked) :
    Splits (.call func args keywords :: (parts ++ partsOfKeywords keywords))
      (.call func args keywords :: walked) := by
  rw [Splits, List.flatMap_cons, IrExpr.hidden]
  refine List.Perm.cons _ ?_
  calc parts ++ partsOfKeywords keywords
    _ |>.Perm ((walked ++ walked.flatMap IrExpr.hidden) ++ partsOfKeywords keywords) := inner.append_right _
    _ |>.Perm (walked ++ (partsOfKeywords keywords ++ walked.flatMap IrExpr.hidden)) := by
      rw [List.append_assoc]
      exact List.perm_append_comm.append_left _

end Splits

mutual
theorem parts_split : ∀ e : IrExpr, Splits e.parts e.walked
  | .boolOp _ values => (partsOf_split values).inside rfl
  | .binOp left _ right => ((parts_split left).before (parts_split right)).inside rfl
  | .unaryOp _ operand => (parts_split operand).inside rfl
  | .constant _ => Splits.nothing.inside rfl
  | .attribute value _ => (parts_split value).inside rfl
  | .subscript value slice => ((parts_split value).before (parts_split slice)).inside rfl
  | .starred value => (parts_split value).inside rfl
  | .name _ => Splits.nothing.inside rfl
  | .list elts => (partsOf_split elts).inside rfl
  | .tuple elts => (partsOf_split elts).inside rfl
  | .dict keys values => ((partsOf_split keys).before (partsOf_split values)).inside rfl
  | .set elts => (partsOf_split elts).inside rfl
  | .call func args _ => ((parts_split func).before (partsOf_split args)).call
  | .ifExp test body orelse => (((parts_split test).before (parts_split body)).before (parts_split orelse)).inside rfl
  | .lambda _ body => (parts_split body).inside rfl
  | .compare left _ comparators => ((parts_split left).before (partsOf_split comparators)).inside rfl

theorem partsOf_split : ∀ es : List IrExpr, Splits (partsOf es) (walkedOf es)
  | [] => .nothing
  | e :: rest => (parts_split e).before (partsOf_split rest)
end

theorem program_splits (program : IrProgram) : Splits program.parts program.walked := by
  rw [IrProgram.parts, IrProgram.walked]
  generalize exprsOf program.body = exprs
  induction exprs with
  | nil => exact .nothing
  | cons e rest ih =>
    rw [List.flatMap_cons, List.flatMap_cons]
    exact (parts_split e).before ih

/-! ## When it comes by everything -/

/-- The visitor is called once for each call, string constant and binary
operation of the program, with what it is about. -/
def VisitsEverything (program : IrProgram) : Prop :=
  ∃ order : List Visit,
    (∀ (σ : Type) (v : IrVisitor σ) (s : σ), v.walkProgram program s = order.foldl v.apply s) ∧
    (order.filter Visit.watched).Perm (program.parts.filterMap IrExpr.due)

/-- Nothing is due in the keywords of a call, and a binary operation adds. -/
def IrExpr.Plain (e : IrExpr) : Prop :=
  match e with
  | .call _ _ keywords => ∀ part ∈ partsOfKeywords keywords, part.due = none
  | .binOp _ op _ => op = .add
  | _ => True

section Plain
variable {e : IrExpr} {parts : List IrExpr}

theorem plain_of_due_none (nothing : e.due = none) : e.Plain := by
  cases e <;> trivial

theorem made_eq_due (plain : e.Plain) : e.made = e.due := by
  cases e with
  | binOp left op right =>
    cases show op = .add from plain
    rfl
  | _ => rfl

theorem made_isSome (e : IrExpr) : e.made.isSome = e.due.isSome := by
  cases e <;> rfl

theorem length_made (parts : List IrExpr) :
    (parts.filterMap IrExpr.made).length = (parts.filterMap IrExpr.due).length := by
  induction parts with
  | nil => rfl
  | cons e rest ih =>
    have same := made_isSome e
    cases made : e.made with
    | none =>
      cases due : e.due with
      | none => simpa [made, due] using ih
      | some visit => simp [made, due] at same
    | some visit =>
      cases due : e.due with
      | none => simp [made, due] at same
      | some visit' => simpa [made, due] using ih

theorem made_adds {left right : IrExpr} {op : IrOperator}
    (made : Visit.binop left op right ∈ parts.filterMap IrExpr.made) : op = .add := by
  obtain ⟨e, _, made⟩ := List.mem_filterMap.mp made
  cases e with
  | binOp left' op' right' =>
    cases made
    rfl
  | constant c => cases c <;> cases made
  | _ => cases made

end Plain

section Everything
variable {program : IrProgram}

/-- The walk makes one sequence of calls, whatever the visitor. -/
theorem walk_calls_unique {order order' : List Visit}
    (calls : ∀ (σ : Type) (v : IrVisitor σ) (s : σ), v.walkProgram program s = order.foldl v.apply s)
    (calls' : ∀ (σ : Type) (v : IrVisitor σ) (s : σ), v.walkProgram program s = order'.foldl v.apply s) :
    order = order' := by
  have recorded := calls _ recorder []
  rw [calls' _ recorder [], recorder_foldl, recorder_foldl] at recorded
  simpa using recorded.symm

/-- What is due in a program is due where the walk comes by, or hidden. -/
theorem due_splits (program : IrProgram) :
    (program.parts.filterMap IrExpr.due).Perm (program.walked.filterMap IrExpr.due ++
      (program.walked.flatMap IrExpr.hidden).filterMap IrExpr.due) := by
  rw [← List.filterMap_append]
  exact (program_splits program).filterMap _

theorem visitsEverything_iff_made : VisitsEverything program ↔
    (program.walked.filterMap IrExpr.made).Perm (program.parts.filterMap IrExpr.due) := by
  obtain ⟨order, calls, made⟩ := walkProgram_walks program
  constructor
  · rintro ⟨order', calls', every⟩
    rwa [walk_calls_unique calls' calls, made] at every
  · intro every
    exact ⟨order, calls, made ▸ every⟩

/-- Where everything is visited, nothing is due in what is hidden. -/
theorem nothing_hidden (every : VisitsEverything program) :
    (program.walked.flatMap IrExpr.hidden).filterMap IrExpr.due = [] := by
  have same := (visitsEverything_iff_made.mp every).trans (due_splits program)
  have lengths := same.length_eq
  rw [length_made, List.length_append] at lengths
  exact List.eq_nil_of_length_eq_zero (by omega)

end Everything

/-- A program that is visited entirely is plain. -/
theorem plain_of_everything {program : IrProgram} (every : VisitsEverything program) :
    ∀ part ∈ program.parts, part.Plain := by
  intro part occurs
  have clean := nothing_hidden every
  have quiet : ∀ inner ∈ program.walked.flatMap IrExpr.hidden, inner.due = none :=
    List.filterMap_eq_nil_iff.mp clean
  rcases List.mem_append.mp ((program_splits program).mem_iff.mp occurs) with walked | hidden
  · cases part with
    | call func args keywords =>
      exact fun inner inside => quiet inner (List.mem_flatMap.mpr ⟨_, walked, inside⟩)
    | binOp left op right =>
      have due : Visit.binop left op right ∈ program.parts.filterMap IrExpr.due :=
        List.mem_filterMap.mpr ⟨_, occurs, rfl⟩
      exact made_adds ((visitsEverything_iff_made.mp every).mem_iff.mpr due)
    | _ => trivial
  · exact plain_of_due_none (quiet part hidden)

/-- A program is visited entirely exactly when the keywords of its calls hide
nothing and its binary operations are additions. -/
theorem walk_visits_everything_iff (program : IrProgram) :
    VisitsEverything program ↔ ∀ part ∈ program.parts, part.Plain := by
  refine ⟨plain_of_everything, fun plain => visitsEverything_iff_made.mpr ?_⟩
  have occurs : ∀ part ∈ program.walked, part ∈ program.parts := fun part walked =>
    (program_splits program).mem_iff.mpr (List.mem_append_left _ walked)
  have clean : (program.walked.flatMap IrExpr.hidden).filterMap IrExpr.due = [] := by
    refine List.filterMap_eq_nil_iff.mpr fun inner hidden => ?_
    obtain ⟨part, walked, inside⟩ := List.mem_flatMap.mp hidden
    have quiet := plain part (occurs part walked)
    cases part with
    | call func args keywords => exact quiet inner inside
    | _ => cases inside
  have same : program.walked.filterMap IrExpr.made = program.walked.filterMap IrExpr.due :=
    List.filterMap_congr fun part walked => made_eq_due (plain part (occurs part walked))
  rw [same]
  have split := due_splits program
  rw [clean, List.append_nil] at split
  exact split.symm

/-- A call in a keyword argument is not visited. -/
theorem keyword_call_is_hidden : ¬ ∀ program : IrProgram, VisitsEverything program := by
  intro law
  let inner : IrExpr := .call (.name "g") [] []
  let outer : IrExpr := .call (.name "f") [] [⟨some "x", inner⟩]
  have plain := plain_of_everything (law ⟨[.expr outer]⟩) outer (List.mem_cons_self ..)
  cases plain inner (List.mem_cons_self ..)

end TinyMachine.Ir
