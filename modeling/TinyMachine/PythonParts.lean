import TinyMachine.Python

/-! What occurs in a Python module, and which of it lies in a place that the
frontend keeps. Both are read off the syntax tree. -/
namespace TinyMachine.Python

/-! ## Everything that occurs in a module -/

mutual
/-- The expression and everything inside. -/
def Expr.parts : Expr → List Expr
  | e@(.boolOp _ values) => e :: partsOf values
  | e@(.namedExpr target value) => e :: (target.parts ++ value.parts)
  | e@(.binOp left _ right) => e :: (left.parts ++ right.parts)
  | e@(.unaryOp _ operand) => e :: operand.parts
  | e@(.lambda args body) => e :: (body.parts ++ partsOfArguments args)
  | e@(.ifExp test body orelse) => e :: (test.parts ++ body.parts ++ orelse.parts)
  | e@(.dict keys values) => e :: (partsOfKeys keys ++ partsOf values)
  | e@(.set elts) => e :: partsOf elts
  | e@(.listComp elt generators) => e :: (elt.parts ++ partsOfGenerators generators)
  | e@(.setComp elt generators) => e :: (elt.parts ++ partsOfGenerators generators)
  | e@(.dictComp key value generators) => e :: (key.parts ++ value.parts ++ partsOfGenerators generators)
  | e@(.generatorExp elt generators) => e :: (elt.parts ++ partsOfGenerators generators)
  | e@(.await value) => e :: value.parts
  | e@(.yield value) => e :: partsOfOption value
  | e@(.yieldFrom value) => e :: value.parts
  | e@(.compare left _ comparators) => e :: (left.parts ++ partsOf comparators)
  | e@(.call func args keywords) => e :: (func.parts ++ partsOf args ++ partsOfKeywords keywords)
  | e@(.formattedValue value formatSpec) => e :: (value.parts ++ partsOfOption formatSpec)
  | e@(.joinedStr values) => e :: partsOf values
  | e@(.constant _) => [e]
  | e@(.attribute value _) => e :: value.parts
  | e@(.subscript value slice) => e :: (value.parts ++ slice.parts)
  | e@(.starred value) => e :: value.parts
  | e@(.name _) => [e]
  | e@(.list elts) => e :: partsOf elts
  | e@(.tuple elts) => e :: partsOf elts
  | e@(.slice lower upper step) => e :: (partsOfOption lower ++ partsOfOption upper ++ partsOfOption step)

def partsOf : List Expr → List Expr
  | [] => []
  | e :: rest => e.parts ++ partsOf rest

def partsOfOption : Option Expr → List Expr
  | none => []
  | some e => e.parts

def partsOfKeys : List (Option Expr) → List Expr
  | [] => []
  | key :: rest => partsOfOption key ++ partsOfKeys rest

def partsOfKeywords : List (Keyword Expr) → List Expr
  | [] => []
  | ⟨_, value⟩ :: rest => value.parts ++ partsOfKeywords rest

def partsOfGenerators : List (Comprehension Expr) → List Expr
  | [] => []
  | ⟨target, iter, ifs⟩ :: rest => target.parts ++ iter.parts ++ partsOf ifs ++ partsOfGenerators rest

def partsOfArg : Arg Expr → List Expr
  | ⟨_, annotation⟩ => partsOfOption annotation

def partsOfArgs : List (ArgWithDefault Expr) → List Expr
  | [] => []
  | ⟨def_, default⟩ :: rest => partsOfArg def_ ++ partsOfOption default ++ partsOfArgs rest

def partsOfOptionalArg : Option (Arg Expr) → List Expr
  | none => []
  | some arg => partsOfArg arg

def partsOfArguments : Arguments Expr → List Expr
  | ⟨posonlyargs, args, vararg, kwonlyargs, kwarg⟩ =>
    partsOfArgs posonlyargs ++ partsOfArgs args ++ partsOfOptionalArg vararg ++ partsOfArgs kwonlyargs ++
      partsOfOptionalArg kwarg
end

/-- The dotted name that an expression is. -/
def dottedName : Expr → Option (List String)
  | .name id => some [id]
  | .attribute value attr => do return (← dottedName value) ++ [attr]
  | _ => none

/-! ## Expressions that are lowered -/

def Constant.Lowers : Constant → Bool
  | .bytes _ | .tuple _ | .complex _ _ => false
  | _ => true

/-- The frontend has a counterpart for the expression and for what it cannot do
without. -/
def Expr.Lowers : Expr → Bool
  | .boolOp _ _ | .name _ | .list _ | .tuple _ | .dict _ _ | .set _ => true
  | .binOp left _ right => left.Lowers && right.Lowers
  | .unaryOp _ operand => operand.Lowers
  | .constant value => value.Lowers
  | .attribute value _ => value.Lowers
  | .subscript value key => value.Lowers && key.Lowers
  | .starred value => value.Lowers
  | .call func _ _ => func.Lowers
  | .ifExp test body orelse => test.Lowers && body.Lowers && orelse.Lowers
  | .lambda _ body => body.Lowers
  | .compare left _ _ => left.Lowers
  | _ => false

/-- What is kept of a tree, and what is left out. -/
structure Cover (β : Type) where
  kept : List β
  leftOut : List β

namespace Cover
variable {β : Type}

def nothing : Cover β := ⟨[], []⟩
def out (parts : List β) : Cover β := ⟨[], parts⟩
def both (one two : Cover β) : Cover β := ⟨one.kept ++ two.kept, one.leftOut ++ two.leftOut⟩

end Cover

/-- An expression that is not lowered is left out with everything inside. -/
def Expr.coverWith (e : Expr) (inner : Cover Expr) : Cover Expr :=
  if e.Lowers then ⟨e :: inner.kept, inner.leftOut⟩ else .out e.parts

mutual
def Expr.cover : Expr → Cover Expr
  | e@(.boolOp _ values) => e.coverWith (coverOf values)
  | e@(.binOp left _ right) => e.coverWith (left.cover.both right.cover)
  | e@(.unaryOp _ operand) => e.coverWith operand.cover
  | e@(.lambda args body) => e.coverWith (body.cover.both (.out (partsOfArguments args)))
  | e@(.ifExp test body orelse) => e.coverWith ((test.cover.both body.cover).both orelse.cover)
  | e@(.dict keys values) => e.coverWith ((coverOfKeys keys).both (coverOf values))
  | e@(.set elts) => e.coverWith (coverOf elts)
  | e@(.compare left _ comparators) => e.coverWith (left.cover.both (coverOf comparators))
  | e@(.call func args keywords) => e.coverWith ((func.cover.both (coverOf args)).both (coverOfKeywords keywords))
  | e@(.constant _) => e.coverWith .nothing
  | e@(.attribute value _) => e.coverWith value.cover
  | e@(.subscript value slice) => e.coverWith (value.cover.both slice.cover)
  | e@(.starred value) => e.coverWith value.cover
  | e@(.name _) => e.coverWith .nothing
  | e@(.list elts) => e.coverWith (coverOf elts)
  | e@(.tuple elts) => e.coverWith (coverOf elts)
  | e => .out e.parts

def coverOf : List Expr → Cover Expr
  | [] => .nothing
  | e :: rest => e.cover.both (coverOf rest)

def coverOfKeys : List (Option Expr) → Cover Expr
  | [] => .nothing
  | none :: rest => coverOfKeys rest
  | some key :: rest => key.cover.both (coverOfKeys rest)

def coverOfKeywords : List (Keyword Expr) → Cover Expr
  | [] => .nothing
  | ⟨_, value⟩ :: rest => value.cover.both (coverOfKeywords rest)
end

/-! ## Statements -/

/-- What occurs in a module and should be seen: expressions, and the names of
modules that are imported. A relative import without a name has the empty one. -/
inductive Item where
  | expr (e : Expr)
  | module (name : String)

def Item.expr? : Item → Option Expr
  | .expr e => some e
  | .module _ => none

def Item.module? : Item → Option String
  | .expr _ => none
  | .module name => some name

def exprItems (es : List Expr) : List Item := es.map .expr

def Cover.items (cover : Cover Expr) : Cover Item := ⟨exprItems cover.kept, exprItems cover.leftOut⟩

def WithItem.parts (item : WithItem) : List Expr := item.contextExpr.parts ++ partsOfOption item.optionalVars

def TypeParam.parts : TypeParam → List Expr
  | .typeVar _ bound => partsOfOption bound
  | .paramSpec _ | .typeVarTuple _ => []

mutual
def Pattern.parts : Pattern → List Expr
  | .matchValue value => value.parts
  | .matchSingleton _ | .matchStar _ => []
  | .matchSequence patterns | .matchOr patterns => partsOfPatterns patterns
  | .matchMapping keys patterns _ => partsOf keys ++ partsOfPatterns patterns
  | .matchClass cls patterns _ kwdPatterns => cls.parts ++ partsOfPatterns patterns ++ partsOfPatterns kwdPatterns
  | .matchAs pattern _ => partsOfPattern pattern

def partsOfPatterns : List Pattern → List Expr
  | [] => []
  | pattern :: rest => pattern.parts ++ partsOfPatterns rest

def partsOfPattern : Option Pattern → List Expr
  | none => []
  | some pattern => pattern.parts
end

mutual
/-- Everything that occurs in a statement, its bodies included. -/
def Stmt.items : Stmt → List Item
  | .functionDef _ _ args body decoratorList returns typeParams => itemsOf body ++ exprItems (partsOfArguments args ++
      partsOf decoratorList ++ partsOfOption returns ++ typeParams.flatMap TypeParam.parts)
  | .classDef _ bases keywords body decoratorList typeParams => itemsOf body ++ exprItems (partsOf bases ++
      partsOfKeywords keywords ++ partsOf decoratorList ++ typeParams.flatMap TypeParam.parts)
  | .return_ value => exprItems (partsOfOption value)
  | .delete targets => exprItems (partsOf targets)
  | .assign targets value => exprItems (partsOf targets ++ value.parts)
  | .typeAlias name typeParams value =>
    exprItems (name.parts ++ typeParams.flatMap TypeParam.parts ++ value.parts)
  | .augAssign target _ value => exprItems (target.parts ++ value.parts)
  | .annAssign target annotation value => exprItems (target.parts ++ annotation.parts ++ partsOfOption value)
  | .for_ _ target iter body orelse =>
    exprItems (target.parts ++ iter.parts) ++ itemsOf body ++ itemsOf orelse
  | .while_ test body orelse => exprItems test.parts ++ itemsOf body ++ itemsOf orelse
  | .if_ test body orelse => exprItems test.parts ++ (itemsOf body ++ itemsOf orelse)
  | .with_ _ items body => exprItems (items.flatMap WithItem.parts) ++ itemsOf body
  | .match_ subject cases => exprItems subject.parts ++ itemsOfCases cases
  | .raise exc cause => exprItems (partsOfOption exc ++ partsOfOption cause)
  | .try_ body handlers orelse finalbody | .tryStar body handlers orelse finalbody =>
    itemsOf body ++ itemsOfHandlers handlers ++ itemsOf orelse ++ itemsOf finalbody
  | .assert test msg => exprItems (test.parts ++ partsOfOption msg)
  | .import_ names => names.map fun alias_ => .module alias_.name
  | .importFrom module _ _ => [.module (module.getD "")]
  | .expr value => exprItems value.parts
  | .global _ | .nonlocal _ | .pass | .break_ | .continue_ => []

def itemsOf : List Stmt → List Item
  | [] => []
  | stmt :: rest => stmt.items ++ itemsOf rest

def itemsOfHandlers : List (ExceptHandler Stmt) → List Item
  | [] => []
  | ⟨type_, _, body⟩ :: rest => exprItems (partsOfOption type_) ++ itemsOf body ++ itemsOfHandlers rest

def itemsOfCases : List (MatchCase Stmt) → List Item
  | [] => []
  | ⟨pattern, guard, body⟩ :: rest =>
    exprItems (pattern.parts ++ partsOfOption guard) ++ itemsOf body ++ itemsOfCases rest
end

/-- The frontend has a counterpart for the statement and for what it cannot do
without. -/
def Stmt.Lowers : Stmt → Bool
  | .import_ names => ! names.isEmpty
  | .importFrom _ names _ => ! names.isEmpty
  | .expr value => value.Lowers
  | .assign targets value => targets.any Expr.Lowers && value.Lowers
  | .augAssign target _ value => target.Lowers && value.Lowers
  | .delete targets => targets.any Expr.Lowers
  | .for_ _ target iter _ _ => target.Lowers && iter.Lowers
  | .while_ test _ _ => test.Lowers
  | .if_ test _ _ => test.Lowers
  | .assert test _ => test.Lowers
  | .typeAlias _ _ _ | .annAssign _ _ _ | .match_ _ _ | .tryStar _ _ _ _ | .global _ | .nonlocal _ => false
  | _ => true

def coverOfOption : Option Expr → Cover Expr
  | none => .nothing
  | some e => e.cover

def WithItem.cover (item : WithItem) : Cover Expr :=
  if item.contextExpr.Lowers then item.contextExpr.cover.both (coverOfOption item.optionalVars)
  else .out item.parts

def coverOfItems : List WithItem → Cover Expr
  | [] => .nothing
  | item :: rest => item.cover.both (coverOfItems rest)

/-- A statement that is not lowered is left out with everything inside. -/
def Stmt.coverWith (stmt : Stmt) (inner : Cover Item) : Cover Item :=
  if stmt.Lowers then inner else .out stmt.items

mutual
/-- What is kept of a statement. Decorators, arguments, annotations, base
classes, the `else` of a loop, the cause of an exception and all but the first
name of an import are left out. -/
def Stmt.cover : Stmt → Cover Item
  | .functionDef _ _ args body decoratorList returns typeParams => (coverOfStmts body).both (.out (exprItems
      (partsOfArguments args ++ partsOf decoratorList ++ partsOfOption returns ++
        typeParams.flatMap TypeParam.parts)))
  | .classDef _ bases keywords body decoratorList typeParams => (coverOfStmts body).both (.out (exprItems
      (partsOf bases ++ partsOfKeywords keywords ++ partsOf decoratorList ++ typeParams.flatMap TypeParam.parts)))
  | .return_ value => (coverOfOption value).items
  | s@(.delete targets) => s.coverWith (coverOf targets).items
  | s@(.assign targets value) => s.coverWith ((coverOf targets).both value.cover).items
  | s@(.augAssign target _ value) => s.coverWith (target.cover.both value.cover).items
  | s@(.for_ _ target iter body orelse) =>
    s.coverWith (((target.cover.both iter.cover).items.both (coverOfStmts body)).both (.out (itemsOf orelse)))
  | s@(.while_ test body orelse) =>
    s.coverWith ((test.cover.items.both (coverOfStmts body)).both (.out (itemsOf orelse)))
  | s@(.if_ test body orelse) => s.coverWith (test.cover.items.both ((coverOfStmts body).both (coverOfStmts orelse)))
  | .with_ _ items body => (coverOfItems items).items.both (coverOfStmts body)
  | .raise exc cause => ((coverOfOption exc).both (.out (partsOfOption cause))).items
  | .try_ body handlers orelse finalbody =>
    (((coverOfStmts body).both (coverOfHandlers handlers)).both (coverOfStmts orelse)).both (coverOfStmts finalbody)
  | s@(.assert test msg) => s.coverWith (test.cover.both (coverOfOption msg)).items
  | .import_ [] => .nothing
  | .import_ (alias_ :: rest) => ⟨[.module alias_.name], rest.map fun alias_ => .module alias_.name⟩
  | s@(.importFrom module _ _) => s.coverWith ⟨[.module (module.getD "")], []⟩
  | s@(.expr value) => s.coverWith value.cover.items
  | s => .out s.items

def coverOfStmts : List Stmt → Cover Item
  | [] => .nothing
  | stmt :: rest => stmt.cover.both (coverOfStmts rest)

def coverOfHandlers : List (ExceptHandler Stmt) → Cover Item
  | [] => .nothing
  | ⟨type_, _, body⟩ :: rest => ((coverOfOption type_).items.both (coverOfStmts body)).both (coverOfHandlers rest)
end

end TinyMachine.Python
