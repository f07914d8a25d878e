import TinyMachine.Ir

/-! The Python frontend: the syntax trees of Python 3.12 as the parser hands them
over, and how they are lowered. A construct without a counterpart is left out,
and what depends on it as well. -/
namespace TinyMachine.Python
open Ir

/-! ## Syntax trees -/

inductive Operator where
  | add | sub | mult | matMult | div | mod | pow | lShift | rShift | bitOr | bitXor | bitAnd | floorDiv

inductive BoolOp where
  | and | or

inductive UnaryOp where
  | invert | not | uAdd | uSub

inductive CmpOp where
  | eq | notEq | lt | ltE | gt | gtE | is | isNot | in_ | notIn

/-- Floats are the bits of a double. -/
inductive Constant where
  | none
  | bool (b : Bool)
  | str (s : String)
  | bytes (data : List UInt8)
  | int (n : Int)
  | tuple (elts : List Constant)
  | float (bits : UInt64)
  | complex (real imag : UInt64)
  | ellipsis

structure Keyword (ε : Type) where
  arg : Option String
  value : ε

structure Arg (ε : Type) where
  arg : String
  annotation : Option ε

structure ArgWithDefault (ε : Type) where
  def_ : Arg ε
  default : Option ε

structure Arguments (ε : Type) where
  posonlyargs : List (ArgWithDefault ε)
  args : List (ArgWithDefault ε)
  vararg : Option (Arg ε)
  kwonlyargs : List (ArgWithDefault ε)
  kwarg : Option (Arg ε)

structure Comprehension (ε : Type) where
  target : ε
  iter : ε
  ifs : List ε

/-- A key that is missing in a dictionary is an unpacking. -/
inductive Expr where
  | boolOp (op : BoolOp) (values : List Expr)
  | namedExpr (target value : Expr)
  | binOp (left : Expr) (op : Operator) (right : Expr)
  | unaryOp (op : UnaryOp) (operand : Expr)
  | lambda (args : Arguments Expr) (body : Expr)
  | ifExp (test body orelse : Expr)
  | dict (keys : List (Option Expr)) (values : List Expr)
  | set (elts : List Expr)
  | listComp (elt : Expr) (generators : List (Comprehension Expr))
  | setComp (elt : Expr) (generators : List (Comprehension Expr))
  | dictComp (key value : Expr) (generators : List (Comprehension Expr))
  | generatorExp (elt : Expr) (generators : List (Comprehension Expr))
  | await (value : Expr)
  | yield (value : Option Expr)
  | yieldFrom (value : Expr)
  | compare (left : Expr) (ops : List CmpOp) (comparators : List Expr)
  | call (func : Expr) (args : List Expr) (keywords : List (Keyword Expr))
  | formattedValue (value : Expr) (formatSpec : Option Expr)
  | joinedStr (values : List Expr)
  | constant (value : Constant)
  | attribute (value : Expr) (attr : String)
  | subscript (value slice : Expr)
  | starred (value : Expr)
  | name (id : String)
  | list (elts : List Expr)
  | tuple (elts : List Expr)
  | slice (lower upper step : Option Expr)

structure Alias where
  name : String
  asname : Option String

structure WithItem where
  contextExpr : Expr
  optionalVars : Option Expr

inductive Pattern where
  | matchValue (value : Expr)
  | matchSingleton (value : Constant)
  | matchSequence (patterns : List Pattern)
  | matchMapping (keys : List Expr) (patterns : List Pattern) (rest : Option String)
  | matchClass (cls : Expr) (patterns : List Pattern) (kwdAttrs : List String) (kwdPatterns : List Pattern)
  | matchStar (name : Option String)
  | matchAs (pattern : Option Pattern) (name : Option String)
  | matchOr (patterns : List Pattern)

inductive TypeParam where
  | typeVar (name : String) (bound : Option Expr)
  | paramSpec (name : String)
  | typeVarTuple (name : String)

structure ExceptHandler (σ : Type) where
  type_ : Option Expr
  name : Option String
  body : List σ

structure MatchCase (σ : Type) where
  pattern : Pattern
  guard : Option Expr
  body : List σ

/-- The asynchronous forms have the same fields as the plain ones. -/
inductive Stmt where
  | functionDef (async : Bool) (name : String) (args : Arguments Expr) (body : List Stmt)
      (decoratorList : List Expr) (returns : Option Expr) (typeParams : List TypeParam)
  | classDef (name : String) (bases : List Expr) (keywords : List (Keyword Expr)) (body : List Stmt)
      (decoratorList : List Expr) (typeParams : List TypeParam)
  | return_ (value : Option Expr)
  | delete (targets : List Expr)
  | assign (targets : List Expr) (value : Expr)
  | typeAlias (name : Expr) (typeParams : List TypeParam) (value : Expr)
  | augAssign (target : Expr) (op : Operator) (value : Expr)
  | annAssign (target annotation : Expr) (value : Option Expr)
  | for_ (async : Bool) (target iter : Expr) (body orelse : List Stmt)
  | while_ (test : Expr) (body orelse : List Stmt)
  | if_ (test : Expr) (body orelse : List Stmt)
  | with_ (async : Bool) (items : List WithItem) (body : List Stmt)
  | match_ (subject : Expr) (cases : List (MatchCase Stmt))
  | raise (exc cause : Option Expr)
  | try_ (body : List Stmt) (handlers : List (ExceptHandler Stmt)) (orelse finalbody : List Stmt)
  | tryStar (body : List Stmt) (handlers : List (ExceptHandler Stmt)) (orelse finalbody : List Stmt)
  | assert (test : Expr) (msg : Option Expr)
  | import_ (names : List Alias)
  | importFrom (module : Option String) (names : List Alias) (level : Option Nat)
  | global (names : List String)
  | nonlocal (names : List String)
  | expr (value : Expr)
  | pass
  | break_
  | continue_

/-- What the parser makes of a module. -/
abbrev Suite := List Stmt

/-! ## Lowering -/

def convertOperator : Operator → IrOperator
  | .add => .add
  | .sub => .sub
  | .mult => .mult
  | .div => .div
  | .floorDiv => .floorDiv
  | .mod => .mod
  | .pow => .pow
  | .lShift => .lShift
  | .rShift => .rShift
  | .bitOr => .bitOr
  | .bitXor => .bitXor
  | .bitAnd => .bitAnd
  | .matMult => .matMult

def convertBoolOp : BoolOp → IrBoolOp
  | .and => .and
  | .or => .or

def convertUnaryOp : UnaryOp → IrUnaryOp
  | .not => .not
  | .uSub => .uSub
  | .uAdd => .uAdd
  | .invert => .invert

def convertCmpOp : CmpOp → IrCmpOp
  | .eq => .eq
  | .notEq => .notEq
  | .lt => .lt
  | .ltE => .ltE
  | .gt => .gt
  | .gtE => .gtE
  | .is => .is
  | .isNot => .isNot
  | .in_ => .in_
  | .notIn => .notIn

/-- An integer that does not fit becomes zero. -/
def convertConstant : Constant → Option IrConstant
  | .none => some .noneValue
  | .bool b => some (.bool b)
  | .str s => some (.str s)
  | .int n => some (.int (if -0x8000000000000000 ≤ n ∧ n < 0x8000000000000000 then .ofInt n else 0))
  | .float bits => some (.float bits)
  | .ellipsis => some .ellipsis
  | _ => none

mutual
def convertExpr : Expr → Option IrExpr
  | .boolOp op values => some (.boolOp (convertBoolOp op) (convertExprs values))
  | .binOp left op right => do
    let left ← convertExpr left
    let right ← convertExpr right
    return .binOp left (convertOperator op) right
  | .unaryOp op operand => do return .unaryOp (convertUnaryOp op) (← convertExpr operand)
  | .constant value => do return .constant (← convertConstant value)
  | .attribute value attr => do return .attribute (← convertExpr value) attr
  | .subscript value slice => do
    let value ← convertExpr value
    return .subscript value (← convertExpr slice)
  | .starred value => do return .starred (← convertExpr value)
  | .name id => some (.name id)
  | .list elts => some (.list (convertExprs elts))
  | .tuple elts => some (.tuple (convertExprs elts))
  | .dict keys values => some (.dict (convertKeys keys) (convertExprs values))
  | .set elts => some (.set (convertExprs elts))
  | .call func args keywords => do
    let func ← convertExpr func
    return .call func (convertExprs args) (convertKeywords keywords)
  | .ifExp test body orelse => do
    let test ← convertExpr test
    let body ← convertExpr body
    return .ifExp test body (← convertExpr orelse)
  | .lambda args body => do return .lambda (args.args.map fun a => a.def_.arg) (← convertExpr body)
  | .compare left ops comparators => do
    return .compare (← convertExpr left) (ops.map convertCmpOp) (convertExprs comparators)
  | _ => none

def convertExprs : List Expr → List IrExpr
  | [] => []
  | e :: rest => (convertExpr e).toList ++ convertExprs rest

def convertKeys : List (Option Expr) → List IrExpr
  | [] => []
  | none :: rest => convertKeys rest
  | some key :: rest => (convertExpr key).toList ++ convertKeys rest

def convertKeywords : List (Keyword Expr) → List (IrKeyword IrExpr)
  | [] => []
  | ⟨arg, value⟩ :: rest => ((convertExpr value).map fun value => ⟨arg, value⟩).toList ++ convertKeywords rest
end

def convertOption (e : Option Expr) : Option IrExpr := e.bind convertExpr

def convertItem (item : WithItem) : Option IrWithItem := do
  return { contextExpr := ← convertExpr item.contextExpr, optionalVars := convertOption item.optionalVars }

mutual
/-- An import statement is lowered to its first name. -/
def convertStmt : Stmt → Option IrStmt
  | .import_ names => names.head?.map fun alias_ => .import_ alias_.name alias_.asname
  | .importFrom module names _ =>
    names.head?.map fun alias_ => .importFrom (module.getD "") alias_.name alias_.asname
  | .expr value => do return .expr (← convertExpr value)
  | .assign targets value => do
    let targets := convertExprs targets
    if targets.isEmpty then none
    return .assign targets (← convertExpr value)
  | .augAssign target op value => do
    let target ← convertExpr target
    return .augAssign target (convertOperator op) (← convertExpr value)
  | .functionDef _ name _ body _ _ _ => some (.functionDef name (convertStmts body))
  | .return_ value => some (.return_ (convertOption value))
  | .delete targets => do
    let targets := convertExprs targets
    if targets.isEmpty then none
    return .delete targets
  | .for_ _ target iter body _ => do
    let target ← convertExpr target
    return .for_ target (← convertExpr iter) (convertStmts body)
  | .while_ test body _ => do return .while_ (← convertExpr test) (convertStmts body)
  | .if_ test body orelse => do return .if_ (← convertExpr test) (convertStmts body) (convertStmts orelse)
  | .with_ _ items body => some (.with_ (items.filterMap convertItem) (convertStmts body))
  | .try_ body handlers orelse finalbody =>
    some (.try_ (convertStmts body) (convertHandlers handlers) (convertStmts orelse) (convertStmts finalbody))
  | .raise exc _ => some (.raise (convertOption exc))
  | .classDef name _ _ body _ _ => some (.classDef name (convertStmts body))
  | .assert test msg => do return .assert (← convertExpr test) (convertOption msg)
  | .break_ => some .break_
  | .continue_ => some .continue_
  | .pass => some .pass
  | _ => none

def convertStmts : List Stmt → List IrStmt
  | [] => []
  | stmt :: rest => (convertStmt stmt).toList ++ convertStmts rest

def convertHandlers : List (ExceptHandler Stmt) → List (IrExceptHandler IrStmt)
  | [] => []
  | ⟨type_, name, body⟩ :: rest => ⟨convertOption type_, name, convertStmts body⟩ :: convertHandlers rest
end

/-- The program of a module that has been parsed. -/
def convertSuite (body : Suite) : IrProgram := ⟨convertStmts body⟩

end TinyMachine.Python
