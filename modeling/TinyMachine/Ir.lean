import Mathlib.Data.List.Basic

/-! The intermediate representation that parsed programs are analysed in. -/
namespace TinyMachine.Ir

inductive IrOperator where
  | add | sub | mult | div | floorDiv | mod | pow | lShift | rShift | bitOr | bitXor | bitAnd | matMult
  deriving DecidableEq

inductive IrBoolOp where
  | and | or
  deriving DecidableEq

inductive IrUnaryOp where
  | not | uSub | uAdd | invert
  deriving DecidableEq

inductive IrCmpOp where
  | eq | notEq | lt | ltE | gt | gtE | is | isNot | in_ | notIn
  deriving DecidableEq

/-- A float is the bits of a double. -/
inductive IrConstant where
  | noneValue
  | bool (b : Bool)
  | str (s : String)
  | int (n : Int64)
  | float (bits : UInt64)
  | ellipsis
  deriving DecidableEq

/-- A keyword argument; no name is an unpacking. -/
structure IrKeyword (ε : Type) where
  arg : Option String
  value : ε

inductive IrExpr where
  | boolOp (op : IrBoolOp) (values : List IrExpr)
  | binOp (left : IrExpr) (op : IrOperator) (right : IrExpr)
  | unaryOp (op : IrUnaryOp) (operand : IrExpr)
  | constant (c : IrConstant)
  | attribute (value : IrExpr) (attr : String)
  | subscript (value slice : IrExpr)
  | starred (value : IrExpr)
  | name (id : String)
  | list (elts : List IrExpr)
  | tuple (elts : List IrExpr)
  | dict (keys values : List IrExpr)
  | set (elts : List IrExpr)
  | call (func : IrExpr) (args : List IrExpr) (keywords : List (IrKeyword IrExpr))
  | ifExp (test body orelse : IrExpr)
  | lambda (args : List String) (body : IrExpr)
  | compare (left : IrExpr) (ops : List IrCmpOp) (comparators : List IrExpr)

structure IrWithItem where
  contextExpr : IrExpr
  optionalVars : Option IrExpr

/-- An `except` clause; no type catches everything. -/
structure IrExceptHandler (σ : Type) where
  type_ : Option IrExpr
  name : Option String
  body : List σ

inductive IrStmt where
  | import_ (module : String) (alias_ : Option String)
  | importFrom (module symbol : String) (alias_ : Option String)
  | expr (expr : IrExpr)
  | assign (targets : List IrExpr) (value : IrExpr)
  | augAssign (target : IrExpr) (op : IrOperator) (value : IrExpr)
  | functionDef (name : String) (body : List IrStmt)
  | return_ (value : Option IrExpr)
  | delete (targets : List IrExpr)
  | for_ (target iter : IrExpr) (body : List IrStmt)
  | while_ (test : IrExpr) (body : List IrStmt)
  | if_ (test : IrExpr) (body orelse : List IrStmt)
  | with_ (items : List IrWithItem) (body : List IrStmt)
  | try_ (body : List IrStmt) (handlers : List (IrExceptHandler IrStmt)) (orelse finalbody : List IrStmt)
  | raise (exc : Option IrExpr)
  | classDef (name : String) (body : List IrStmt)
  | assert (test : IrExpr) (msg : Option IrExpr)
  | break_
  | continue_
  | pass

structure IrProgram where
  body : List IrStmt

def IrConstant.asStr : IrConstant → Option String
  | .str s => some s
  | _ => none

def IrExpr.asStr : IrExpr → Option String
  | .constant c => c.asStr
  | _ => none

/-- The names along a chain of attributes, unless it starts elsewhere. -/
def IrExpr.resolveAttrChain : IrExpr → Option (List String)
  | .name n => some [n]
  | .attribute value attr => do return (← value.resolveAttrChain) ++ [attr]
  | _ => none

/-! ## Everything that occurs in a program -/

mutual
/-- The expression and everything inside, outermost first. -/
def IrExpr.parts : IrExpr → List IrExpr
  | e@(.boolOp _ values) => e :: partsOf values
  | e@(.binOp left _ right) => e :: (left.parts ++ right.parts)
  | e@(.unaryOp _ operand) => e :: operand.parts
  | e@(.constant _) => [e]
  | e@(.attribute value _) => e :: value.parts
  | e@(.subscript value slice) => e :: (value.parts ++ slice.parts)
  | e@(.starred value) => e :: value.parts
  | e@(.name _) => [e]
  | e@(.list elts) => e :: partsOf elts
  | e@(.tuple elts) => e :: partsOf elts
  | e@(.dict keys values) => e :: (partsOf keys ++ partsOf values)
  | e@(.set elts) => e :: partsOf elts
  | e@(.call func args keywords) => e :: (func.parts ++ partsOf args ++ partsOfKeywords keywords)
  | e@(.ifExp test body orelse) => e :: (test.parts ++ body.parts ++ orelse.parts)
  | e@(.lambda _ body) => e :: body.parts
  | e@(.compare left _ comparators) => e :: (left.parts ++ partsOf comparators)

def partsOf : List IrExpr → List IrExpr
  | [] => []
  | e :: rest => e.parts ++ partsOf rest

def partsOfKeywords : List (IrKeyword IrExpr) → List IrExpr
  | [] => []
  | ⟨_, value⟩ :: rest => value.parts ++ partsOfKeywords rest
end

def IrWithItem.exprs (item : IrWithItem) : List IrExpr := item.contextExpr :: item.optionalVars.toList

mutual
/-- The expressions a statement has, its bodies included. -/
def IrStmt.exprs : IrStmt → List IrExpr
  | .import_ _ _ => []
  | .importFrom _ _ _ => []
  | .expr e => [e]
  | .assign targets value => targets ++ [value]
  | .augAssign target _ value => [target, value]
  | .functionDef _ body => exprsOf body
  | .return_ value => value.toList
  | .delete targets => targets
  | .for_ target iter body => target :: iter :: exprsOf body
  | .while_ test body => test :: exprsOf body
  | .if_ test body orelse => test :: (exprsOf body ++ exprsOf orelse)
  | .with_ items body => items.flatMap IrWithItem.exprs ++ exprsOf body
  | .try_ body handlers orelse finalbody =>
    exprsOf body ++ exprsOfHandlers handlers ++ exprsOf orelse ++ exprsOf finalbody
  | .raise exc => exc.toList
  | .classDef _ body => exprsOf body
  | .assert test msg => test :: msg.toList
  | .break_ => []
  | .continue_ => []
  | .pass => []

def exprsOf : List IrStmt → List IrExpr
  | [] => []
  | s :: rest => s.exprs ++ exprsOf rest

def exprsOfHandlers : List (IrExceptHandler IrStmt) → List IrExpr
  | [] => []
  | ⟨type_, _, body⟩ :: rest => type_.toList ++ exprsOf body ++ exprsOfHandlers rest
end

mutual
/-- The modules a statement imports, or imports from. -/
def IrStmt.modules : IrStmt → List String
  | .import_ module _ => [module]
  | .importFrom module _ _ => [module]
  | .functionDef _ body => modulesOf body
  | .for_ _ _ body => modulesOf body
  | .while_ _ body => modulesOf body
  | .if_ _ body orelse => modulesOf body ++ modulesOf orelse
  | .with_ _ body => modulesOf body
  | .try_ body handlers orelse finalbody =>
    modulesOf body ++ modulesOfHandlers handlers ++ modulesOf orelse ++ modulesOf finalbody
  | .classDef _ body => modulesOf body
  | _ => []

def modulesOf : List IrStmt → List String
  | [] => []
  | s :: rest => s.modules ++ modulesOf rest

def modulesOfHandlers : List (IrExceptHandler IrStmt) → List String
  | [] => []
  | ⟨_, _, body⟩ :: rest => modulesOf body ++ modulesOfHandlers rest
end

/-- Every expression that occurs in a program. -/
def IrProgram.parts (program : IrProgram) : List IrExpr := (exprsOf program.body).flatMap IrExpr.parts

end TinyMachine.Ir
