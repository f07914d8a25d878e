import TinyMachine.Ir

/-! The walker of the representation: which methods of a visitor are called for
the nodes of a program, and in which order. -/
namespace TinyMachine.Ir

/-- What a visitor does at each kind of node to its own state. -/
structure IrVisitor (σ : Type) where
  visitStmt (stmt : IrStmt) : σ → σ := id
  visitImport (module : String) (alias_ : Option String) : σ → σ := id
  visitImportFrom (module symbol : String) (alias_ : Option String) : σ → σ := id
  visitExprStmt (expr : IrExpr) : σ → σ := id
  visitAssign (targets : List IrExpr) (value : IrExpr) : σ → σ := id
  visitFunctionDef (name : String) : σ → σ := id
  visitReturn (value : Option IrExpr) : σ → σ := id
  visitDelete (targets : List IrExpr) : σ → σ := id
  visitFor (target iter : IrExpr) : σ → σ := id
  visitWhile (test : IrExpr) : σ → σ := id
  visitClassDef (name : String) : σ → σ := id
  visitRaise (exc : Option IrExpr) : σ → σ := id
  visitAssert (test : IrExpr) (msg : Option IrExpr) : σ → σ := id
  visitBreak : σ → σ := id
  visitContinue : σ → σ := id
  visitPass : σ → σ := id
  visitExpr (expr : IrExpr) : σ → σ := id
  visitConstant (c : IrConstant) : σ → σ := id
  visitStr (s : String) : σ → σ := id
  visitInt (n : Int64) : σ → σ := id
  visitCall (func : IrExpr) (args : List IrExpr) : σ → σ := id
  visitAttribute (value : IrExpr) (attr : String) : σ → σ := id
  visitSubscript (value slice : IrExpr) : σ → σ := id
  visitName (id : String) : σ → σ := fun s => s
  visitBinop (left : IrExpr) (op : IrOperator) (right : IrExpr) : σ → σ := id
  visitUnaryop (op : IrUnaryOp) (operand : IrExpr) : σ → σ := id

namespace IrVisitor
variable {σ : Type} (v : IrVisitor σ)

/-- A constant is visited once as such, and once more as what it is. -/
def walkConstant (c : IrConstant) (s : σ) : σ :=
  let s := v.visitConstant c s
  match c with
  | .str text => v.visitStr text s
  | .int n => v.visitInt n s
  | _ => s

mutual
def walkExpr (e : IrExpr) (s : σ) : σ :=
  let s := v.visitExpr e s
  match e with
  | .boolOp _ values => walkExprs values s
  | .binOp left _ right =>
    let s := v.visitBinop left .add right s
    walkExpr right (walkExpr left s)
  | .unaryOp op operand => walkExpr operand (v.visitUnaryop op operand s)
  | .constant c => v.walkConstant c s
  | .attribute value attr => walkExpr value (v.visitAttribute value attr s)
  | .subscript value slice =>
    let s := v.visitSubscript value slice s
    walkExpr slice (walkExpr value s)
  | .starred value => walkExpr value s
  | .name id => v.visitName id s
  | .list elts => walkExprs elts s
  | .tuple elts => walkExprs elts s
  | .dict keys values => walkExprs values (walkExprs keys s)
  | .set elts => walkExprs elts s
  | .call func args _ =>
    let s := v.visitCall func args s
    walkExprs args (walkExpr func s)
  | .ifExp test body orelse => walkExpr orelse (walkExpr body (walkExpr test s))
  | .lambda _ body => walkExpr body s
  | .compare left _ comparators => walkExprs comparators (walkExpr left s)

def walkExprs (es : List IrExpr) (s : σ) : σ :=
  match es with
  | [] => s
  | e :: rest => walkExprs rest (walkExpr e s)
end

def walkOption (e : Option IrExpr) (s : σ) : σ :=
  match e with
  | none => s
  | some e => v.walkExpr e s

def walkItem (item : IrWithItem) (s : σ) : σ :=
  v.walkOption item.optionalVars (v.walkExpr item.contextExpr s)

mutual
def walkStmt (stmt : IrStmt) (s : σ) : σ :=
  let s := v.visitStmt stmt s
  match stmt with
  | .import_ module alias_ => v.visitImport module alias_ s
  | .importFrom module symbol alias_ => v.visitImportFrom module symbol alias_ s
  | .expr expr => v.walkExpr expr (v.visitExprStmt expr s)
  | .assign targets value =>
    let s := v.visitAssign targets value s
    v.walkExpr value (v.walkExprs targets s)
  | .augAssign target _ value => v.walkExpr value (v.walkExpr target s)
  | .functionDef name body => walkStmts body (v.visitFunctionDef name s)
  | .return_ value => v.walkOption value (v.visitReturn value s)
  | .delete targets => v.walkExprs targets (v.visitDelete targets s)
  | .for_ target iter body =>
    let s := v.visitFor target iter s
    walkStmts body (v.walkExpr iter (v.walkExpr target s))
  | .while_ test body => walkStmts body (v.walkExpr test (v.visitWhile test s))
  | .if_ test body orelse => walkStmts orelse (walkStmts body (v.walkExpr test s))
  | .with_ items body => walkStmts body (items.foldl (fun s item => v.walkItem item s) s)
  | .try_ body handlers orelse finalbody =>
    let s := walkHandlers handlers (walkStmts body s)
    walkStmts finalbody (walkStmts orelse s)
  | .raise exc => v.walkOption exc (v.visitRaise exc s)
  | .classDef name body => walkStmts body (v.visitClassDef name s)
  | .assert test msg => v.walkOption msg (v.walkExpr test (v.visitAssert test msg s))
  | .break_ => v.visitBreak s
  | .continue_ => v.visitContinue s
  | .pass => v.visitPass s

def walkStmts (stmts : List IrStmt) (s : σ) : σ :=
  match stmts with
  | [] => s
  | stmt :: rest => walkStmts rest (walkStmt stmt s)

def walkHandlers (handlers : List (IrExceptHandler IrStmt)) (s : σ) : σ :=
  match handlers with
  | [] => s
  | ⟨type_, _, body⟩ :: rest => walkHandlers rest (walkStmts body (v.walkOption type_ s))
end

def walkProgram (program : IrProgram) (s : σ) : σ := v.walkStmts program.body s

end IrVisitor

end TinyMachine.Ir
