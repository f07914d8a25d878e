import TinyMachine.PythonParts

/-! The integer literals of a Python module: a module with other numbers in
their place. -/
namespace TinyMachine.Python

def Constant.mapInts (f : Int → Int) : Constant → Constant
  | .int n => .int (f n)
  | c => c

mutual
/-- The expression with every integer literal replaced. -/
def Expr.mapInts (f : Int → Int) : Expr → Expr
  | .boolOp op values => .boolOp op (mapIntsOf f values)
  | .namedExpr target value => .namedExpr (target.mapInts f) (value.mapInts f)
  | .binOp left op right => .binOp (left.mapInts f) op (right.mapInts f)
  | .unaryOp op operand => .unaryOp op (operand.mapInts f)
  | .lambda args body => .lambda (mapIntsOfArguments f args) (body.mapInts f)
  | .ifExp test body orelse => .ifExp (test.mapInts f) (body.mapInts f) (orelse.mapInts f)
  | .dict keys values => .dict (mapIntsOfKeys f keys) (mapIntsOf f values)
  | .set elts => .set (mapIntsOf f elts)
  | .listComp elt generators => .listComp (elt.mapInts f) (mapIntsOfGenerators f generators)
  | .setComp elt generators => .setComp (elt.mapInts f) (mapIntsOfGenerators f generators)
  | .dictComp key value generators =>
    .dictComp (key.mapInts f) (value.mapInts f) (mapIntsOfGenerators f generators)
  | .generatorExp elt generators => .generatorExp (elt.mapInts f) (mapIntsOfGenerators f generators)
  | .await value => .await (value.mapInts f)
  | .yield value => .yield (mapIntsOfOption f value)
  | .yieldFrom value => .yieldFrom (value.mapInts f)
  | .compare left ops comparators => .compare (left.mapInts f) ops (mapIntsOf f comparators)
  | .call func args keywords => .call (func.mapInts f) (mapIntsOf f args) (mapIntsOfKeywords f keywords)
  | .formattedValue value formatSpec => .formattedValue (value.mapInts f) (mapIntsOfOption f formatSpec)
  | .joinedStr values => .joinedStr (mapIntsOf f values)
  | .constant value => .constant (value.mapInts f)
  | .attribute value attr => .attribute (value.mapInts f) attr
  | .subscript value slice => .subscript (value.mapInts f) (slice.mapInts f)
  | .starred value => .starred (value.mapInts f)
  | .name id => .name id
  | .list elts => .list (mapIntsOf f elts)
  | .tuple elts => .tuple (mapIntsOf f elts)
  | .slice lower upper step => .slice (mapIntsOfOption f lower) (mapIntsOfOption f upper) (mapIntsOfOption f step)

def mapIntsOf (f : Int → Int) : List Expr → List Expr
  | [] => []
  | e :: rest => e.mapInts f :: mapIntsOf f rest

def mapIntsOfOption (f : Int → Int) : Option Expr → Option Expr
  | none => none
  | some e => some (e.mapInts f)

def mapIntsOfKeys (f : Int → Int) : List (Option Expr) → List (Option Expr)
  | [] => []
  | key :: rest => mapIntsOfOption f key :: mapIntsOfKeys f rest

def mapIntsOfKeywords (f : Int → Int) : List (Keyword Expr) → List (Keyword Expr)
  | [] => []
  | ⟨arg, value⟩ :: rest => ⟨arg, value.mapInts f⟩ :: mapIntsOfKeywords f rest

def mapIntsOfGenerators (f : Int → Int) : List (Comprehension Expr) → List (Comprehension Expr)
  | [] => []
  | ⟨target, iter, ifs⟩ :: rest =>
    ⟨target.mapInts f, iter.mapInts f, mapIntsOf f ifs⟩ :: mapIntsOfGenerators f rest

def mapIntsOfArg (f : Int → Int) : Arg Expr → Arg Expr
  | ⟨arg, annotation⟩ => ⟨arg, mapIntsOfOption f annotation⟩

def mapIntsOfArgs (f : Int → Int) : List (ArgWithDefault Expr) → List (ArgWithDefault Expr)
  | [] => []
  | ⟨def_, default⟩ :: rest => ⟨mapIntsOfArg f def_, mapIntsOfOption f default⟩ :: mapIntsOfArgs f rest

def mapIntsOfOptionalArg (f : Int → Int) : Option (Arg Expr) → Option (Arg Expr)
  | none => none
  | some arg => some (mapIntsOfArg f arg)

def mapIntsOfArguments (f : Int → Int) : Arguments Expr → Arguments Expr
  | ⟨posonlyargs, args, vararg, kwonlyargs, kwarg⟩ =>
    ⟨mapIntsOfArgs f posonlyargs, mapIntsOfArgs f args, mapIntsOfOptionalArg f vararg, mapIntsOfArgs f kwonlyargs,
      mapIntsOfOptionalArg f kwarg⟩
end

def WithItem.mapInts (f : Int → Int) (item : WithItem) : WithItem :=
  ⟨item.contextExpr.mapInts f, mapIntsOfOption f item.optionalVars⟩

def TypeParam.mapInts (f : Int → Int) : TypeParam → TypeParam
  | .typeVar name bound => .typeVar name (mapIntsOfOption f bound)
  | .paramSpec name => .paramSpec name
  | .typeVarTuple name => .typeVarTuple name

mutual
def Pattern.mapInts (f : Int → Int) : Pattern → Pattern
  | .matchValue value => .matchValue (value.mapInts f)
  | .matchSingleton value => .matchSingleton (value.mapInts f)
  | .matchSequence patterns => .matchSequence (mapIntsOfPatterns f patterns)
  | .matchMapping keys patterns rest => .matchMapping (mapIntsOf f keys) (mapIntsOfPatterns f patterns) rest
  | .matchClass cls patterns kwdAttrs kwdPatterns =>
    .matchClass (cls.mapInts f) (mapIntsOfPatterns f patterns) kwdAttrs (mapIntsOfPatterns f kwdPatterns)
  | .matchStar name => .matchStar name
  | .matchAs pattern name => .matchAs (mapIntsOfPattern f pattern) name
  | .matchOr patterns => .matchOr (mapIntsOfPatterns f patterns)

def mapIntsOfPatterns (f : Int → Int) : List Pattern → List Pattern
  | [] => []
  | pattern :: rest => pattern.mapInts f :: mapIntsOfPatterns f rest

def mapIntsOfPattern (f : Int → Int) : Option Pattern → Option Pattern
  | none => none
  | some pattern => some (pattern.mapInts f)
end

mutual
/-- The statement with every integer literal replaced. -/
def Stmt.mapInts (f : Int → Int) : Stmt → Stmt
  | .functionDef async name args body decoratorList returns typeParams =>
    .functionDef async name (mapIntsOfArguments f args) (mapIntsOfStmts f body) (mapIntsOf f decoratorList)
      (mapIntsOfOption f returns) (typeParams.map (TypeParam.mapInts f))
  | .classDef name bases keywords body decoratorList typeParams =>
    .classDef name (mapIntsOf f bases) (mapIntsOfKeywords f keywords) (mapIntsOfStmts f body)
      (mapIntsOf f decoratorList) (typeParams.map (TypeParam.mapInts f))
  | .return_ value => .return_ (mapIntsOfOption f value)
  | .delete targets => .delete (mapIntsOf f targets)
  | .assign targets value => .assign (mapIntsOf f targets) (value.mapInts f)
  | .typeAlias name typeParams value =>
    .typeAlias (name.mapInts f) (typeParams.map (TypeParam.mapInts f)) (value.mapInts f)
  | .augAssign target op value => .augAssign (target.mapInts f) op (value.mapInts f)
  | .annAssign target type value => .annAssign (target.mapInts f) (type.mapInts f) (mapIntsOfOption f value)
  | .for_ async target iter body orelse =>
    .for_ async (target.mapInts f) (iter.mapInts f) (mapIntsOfStmts f body) (mapIntsOfStmts f orelse)
  | .while_ test body orelse => .while_ (test.mapInts f) (mapIntsOfStmts f body) (mapIntsOfStmts f orelse)
  | .if_ test body orelse => .if_ (test.mapInts f) (mapIntsOfStmts f body) (mapIntsOfStmts f orelse)
  | .with_ async items body => .with_ async (items.map (WithItem.mapInts f)) (mapIntsOfStmts f body)
  | .match_ subject cases => .match_ (subject.mapInts f) (mapIntsOfCases f cases)
  | .raise exc cause => .raise (mapIntsOfOption f exc) (mapIntsOfOption f cause)
  | .try_ body handlers orelse finalbody =>
    .try_ (mapIntsOfStmts f body) (mapIntsOfHandlers f handlers) (mapIntsOfStmts f orelse) (mapIntsOfStmts f finalbody)
  | .tryStar body handlers orelse finalbody =>
    .tryStar (mapIntsOfStmts f body) (mapIntsOfHandlers f handlers) (mapIntsOfStmts f orelse)
      (mapIntsOfStmts f finalbody)
  | .assert test msg => .assert (test.mapInts f) (mapIntsOfOption f msg)
  | .import_ names => .import_ names
  | .importFrom module names level => .importFrom module names level
  | .global names => .global names
  | .nonlocal names => .nonlocal names
  | .expr value => .expr (value.mapInts f)
  | .pass => .pass
  | .break_ => .break_
  | .continue_ => .continue_

def mapIntsOfStmts (f : Int → Int) : List Stmt → List Stmt
  | [] => []
  | stmt :: rest => stmt.mapInts f :: mapIntsOfStmts f rest

def mapIntsOfHandlers (f : Int → Int) : List (ExceptHandler Stmt) → List (ExceptHandler Stmt)
  | [] => []
  | ⟨type_, name, body⟩ :: rest => ⟨mapIntsOfOption f type_, name, mapIntsOfStmts f body⟩ :: mapIntsOfHandlers f rest

def mapIntsOfCases (f : Int → Int) : List (MatchCase Stmt) → List (MatchCase Stmt)
  | [] => []
  | ⟨pattern, guard, body⟩ :: rest =>
    ⟨pattern.mapInts f, mapIntsOfOption f guard, mapIntsOfStmts f body⟩ :: mapIntsOfCases f rest
end

/-! ## What occurs there -/

mutual
theorem parts_mapInts (f : Int → Int) : ∀ e : Expr, (e.mapInts f).parts = e.parts.map (Expr.mapInts f)
  | .boolOp _ values | .joinedStr values | .set values | .list values | .tuple values => by
    simp [Expr.mapInts, Expr.parts, partsOf_mapInts f values]
  | .namedExpr one two | .binOp one _ two | .subscript one two => by
    simp [Expr.mapInts, Expr.parts, parts_mapInts f one, parts_mapInts f two]
  | .unaryOp _ inner | .await inner | .yieldFrom inner | .attribute inner _ | .starred inner => by
    simp [Expr.mapInts, Expr.parts, parts_mapInts f inner]
  | .lambda args body => by
    simp [Expr.mapInts, Expr.parts, parts_mapInts f body, partsOfArguments_mapInts f args]
  | .ifExp test body orelse => by
    simp [Expr.mapInts, Expr.parts, parts_mapInts f test, parts_mapInts f body, parts_mapInts f orelse]
  | .dict keys values => by
    simp [Expr.mapInts, Expr.parts, partsOfKeys_mapInts f keys, partsOf_mapInts f values]
  | .listComp elt generators | .setComp elt generators | .generatorExp elt generators => by
    simp [Expr.mapInts, Expr.parts, parts_mapInts f elt, partsOfGenerators_mapInts f generators]
  | .dictComp key value generators => by
    simp [Expr.mapInts, Expr.parts, parts_mapInts f key, parts_mapInts f value,
      partsOfGenerators_mapInts f generators]
  | .yield value => by simp [Expr.mapInts, Expr.parts, partsOfOption_mapInts f value]
  | .compare left _ comparators => by
    simp [Expr.mapInts, Expr.parts, parts_mapInts f left, partsOf_mapInts f comparators]
  | .call func args keywords => by
    simp [Expr.mapInts, Expr.parts, parts_mapInts f func, partsOf_mapInts f args, partsOfKeywords_mapInts f keywords]
  | .formattedValue value formatSpec => by
    simp [Expr.mapInts, Expr.parts, parts_mapInts f value, partsOfOption_mapInts f formatSpec]
  | .constant _ | .name _ => by simp [Expr.mapInts, Expr.parts]
  | .slice lower upper step => by
    simp [Expr.mapInts, Expr.parts, partsOfOption_mapInts f lower, partsOfOption_mapInts f upper,
      partsOfOption_mapInts f step]

theorem partsOf_mapInts (f : Int → Int) : ∀ es : List Expr, partsOf (mapIntsOf f es) = (partsOf es).map (Expr.mapInts f)
  | [] => rfl
  | e :: rest => by simp [mapIntsOf, partsOf, parts_mapInts f e, partsOf_mapInts f rest]

theorem partsOfOption_mapInts (f : Int → Int) :
    ∀ e : Option Expr, partsOfOption (mapIntsOfOption f e) = (partsOfOption e).map (Expr.mapInts f)
  | none => rfl
  | some e => by simp [mapIntsOfOption, partsOfOption, parts_mapInts f e]

theorem partsOfKeys_mapInts (f : Int → Int) :
    ∀ keys : List (Option Expr), partsOfKeys (mapIntsOfKeys f keys) = (partsOfKeys keys).map (Expr.mapInts f)
  | [] => rfl
  | key :: rest => by simp [mapIntsOfKeys, partsOfKeys, partsOfOption_mapInts f key, partsOfKeys_mapInts f rest]

theorem partsOfKeywords_mapInts (f : Int → Int) : ∀ keywords : List (Keyword Expr),
    partsOfKeywords (mapIntsOfKeywords f keywords) = (partsOfKeywords keywords).map (Expr.mapInts f)
  | [] => rfl
  | ⟨_, value⟩ :: rest => by
    simp [mapIntsOfKeywords, partsOfKeywords, parts_mapInts f value, partsOfKeywords_mapInts f rest]

theorem partsOfGenerators_mapInts (f : Int → Int) : ∀ generators : List (Comprehension Expr),
    partsOfGenerators (mapIntsOfGenerators f generators) = (partsOfGenerators generators).map (Expr.mapInts f)
  | [] => rfl
  | ⟨target, iter, ifs⟩ :: rest => by
    simp [mapIntsOfGenerators, partsOfGenerators, parts_mapInts f target, parts_mapInts f iter,
      partsOf_mapInts f ifs, partsOfGenerators_mapInts f rest]

theorem partsOfArg_mapInts (f : Int → Int) :
    ∀ arg : Arg Expr, partsOfArg (mapIntsOfArg f arg) = (partsOfArg arg).map (Expr.mapInts f)
  | ⟨_, annotation⟩ => by simp [mapIntsOfArg, partsOfArg, partsOfOption_mapInts f annotation]

theorem partsOfArgs_mapInts (f : Int → Int) : ∀ args : List (ArgWithDefault Expr),
    partsOfArgs (mapIntsOfArgs f args) = (partsOfArgs args).map (Expr.mapInts f)
  | [] => rfl
  | ⟨def_, default⟩ :: rest => by
    simp [mapIntsOfArgs, partsOfArgs, partsOfArg_mapInts f def_, partsOfOption_mapInts f default,
      partsOfArgs_mapInts f rest]

theorem partsOfOptionalArg_mapInts (f : Int → Int) : ∀ arg : Option (Arg Expr),
    partsOfOptionalArg (mapIntsOfOptionalArg f arg) = (partsOfOptionalArg arg).map (Expr.mapInts f)
  | none => rfl
  | some arg => by simp [mapIntsOfOptionalArg, partsOfOptionalArg, partsOfArg_mapInts f arg]

theorem partsOfArguments_mapInts (f : Int → Int) : ∀ args : Arguments Expr,
    partsOfArguments (mapIntsOfArguments f args) = (partsOfArguments args).map (Expr.mapInts f)
  | ⟨posonlyargs, args, vararg, kwonlyargs, kwarg⟩ => by
    simp [mapIntsOfArguments, partsOfArguments, partsOfArgs_mapInts f posonlyargs, partsOfArgs_mapInts f args,
      partsOfOptionalArg_mapInts f vararg, partsOfArgs_mapInts f kwonlyargs, partsOfOptionalArg_mapInts f kwarg]
end

theorem item_parts_mapInts (f : Int → Int) (items : List WithItem) :
    (items.map (WithItem.mapInts f)).flatMap WithItem.parts = (items.flatMap WithItem.parts).map (Expr.mapInts f) := by
  induction items with
  | nil => rfl
  | cons item rest ih =>
    simp [ih, WithItem.parts, WithItem.mapInts, parts_mapInts, partsOfOption_mapInts]

theorem typeParam_parts_mapInts (f : Int → Int) (params : List TypeParam) :
    (params.map (TypeParam.mapInts f)).flatMap TypeParam.parts =
      (params.flatMap TypeParam.parts).map (Expr.mapInts f) := by
  induction params with
  | nil => rfl
  | cons param rest ih =>
    cases param <;> simp [ih, TypeParam.parts, TypeParam.mapInts, partsOfOption_mapInts]

mutual
theorem pattern_parts_mapInts (f : Int → Int) :
    ∀ pattern : Pattern, (pattern.mapInts f).parts = pattern.parts.map (Expr.mapInts f)
  | .matchValue value => by simp [Pattern.mapInts, Pattern.parts, parts_mapInts]
  | .matchSingleton _ | .matchStar _ => by simp [Pattern.mapInts, Pattern.parts]
  | .matchSequence patterns | .matchOr patterns => by
    simp [Pattern.mapInts, Pattern.parts, partsOfPatterns_mapInts f patterns]
  | .matchMapping keys patterns _ => by
    simp [Pattern.mapInts, Pattern.parts, partsOf_mapInts, partsOfPatterns_mapInts f patterns]
  | .matchClass cls patterns _ kwdPatterns => by
    simp [Pattern.mapInts, Pattern.parts, parts_mapInts, partsOfPatterns_mapInts f patterns,
      partsOfPatterns_mapInts f kwdPatterns]
  | .matchAs pattern _ => by simp [Pattern.mapInts, Pattern.parts, partsOfPattern_mapInts f pattern]

theorem partsOfPatterns_mapInts (f : Int → Int) : ∀ patterns : List Pattern,
    partsOfPatterns (mapIntsOfPatterns f patterns) = (partsOfPatterns patterns).map (Expr.mapInts f)
  | [] => rfl
  | pattern :: rest => by
    simp [mapIntsOfPatterns, partsOfPatterns, pattern_parts_mapInts f pattern, partsOfPatterns_mapInts f rest]

theorem partsOfPattern_mapInts (f : Int → Int) : ∀ pattern : Option Pattern,
    partsOfPattern (mapIntsOfPattern f pattern) = (partsOfPattern pattern).map (Expr.mapInts f)
  | none => rfl
  | some pattern => by simp [mapIntsOfPattern, partsOfPattern, pattern_parts_mapInts f pattern]
end

def Item.mapInts (f : Int → Int) : Item → Item
  | .expr e => .expr (e.mapInts f)
  | .module name => .module name

theorem exprItems_mapInts (f : Int → Int) (es : List Expr) :
    exprItems (es.map (Expr.mapInts f)) = (exprItems es).map (Item.mapInts f) := by
  simp [exprItems, Item.mapInts, Function.comp_def]

mutual
theorem items_mapInts (f : Int → Int) : ∀ stmt : Stmt, (stmt.mapInts f).items = stmt.items.map (Item.mapInts f)
  | .functionDef _ _ args body decoratorList returns typeParams => by
    simp [Stmt.mapInts, Stmt.items, itemsOf_mapInts f body, partsOfArguments_mapInts, partsOf_mapInts,
      partsOfOption_mapInts, typeParam_parts_mapInts, ← exprItems_mapInts]
  | .classDef _ bases keywords body decoratorList typeParams => by
    simp [Stmt.mapInts, Stmt.items, itemsOf_mapInts f body, partsOf_mapInts, partsOfKeywords_mapInts,
      typeParam_parts_mapInts, ← exprItems_mapInts]
  | .return_ _ | .delete _ | .assign _ _ | .augAssign _ _ _ | .annAssign _ _ _ | .raise _ _ | .assert _ _ | .expr _ => by
    simp [Stmt.mapInts, Stmt.items, parts_mapInts, partsOf_mapInts, partsOfOption_mapInts, ← exprItems_mapInts]
  | .typeAlias name typeParams value => by
    simp [Stmt.mapInts, Stmt.items, parts_mapInts, typeParam_parts_mapInts, ← exprItems_mapInts]
  | .for_ _ target iter body orelse => by
    simp [Stmt.mapInts, Stmt.items, parts_mapInts, itemsOf_mapInts f body, itemsOf_mapInts f orelse,
      ← exprItems_mapInts]
  | .while_ test body orelse | .if_ test body orelse => by
    simp [Stmt.mapInts, Stmt.items, parts_mapInts, itemsOf_mapInts f body, itemsOf_mapInts f orelse,
      ← exprItems_mapInts]
  | .with_ _ items body => by
    simp [Stmt.mapInts, Stmt.items, item_parts_mapInts, itemsOf_mapInts f body, ← exprItems_mapInts]
  | .match_ subject cases => by
    simp [Stmt.mapInts, Stmt.items, parts_mapInts, itemsOfCases_mapInts f cases, ← exprItems_mapInts]
  | .try_ body handlers orelse finalbody | .tryStar body handlers orelse finalbody => by
    simp [Stmt.mapInts, Stmt.items, itemsOf_mapInts f body, itemsOfHandlers_mapInts f handlers,
      itemsOf_mapInts f orelse, itemsOf_mapInts f finalbody]
  | .import_ names => by simp [Stmt.mapInts, Stmt.items, Item.mapInts]
  | .importFrom _ _ _ => by simp [Stmt.mapInts, Stmt.items, Item.mapInts]
  | .global _ | .nonlocal _ | .pass | .break_ | .continue_ => by simp [Stmt.mapInts, Stmt.items]

theorem itemsOf_mapInts (f : Int → Int) :
    ∀ stmts : List Stmt, itemsOf (mapIntsOfStmts f stmts) = (itemsOf stmts).map (Item.mapInts f)
  | [] => rfl
  | stmt :: rest => by simp [mapIntsOfStmts, itemsOf, items_mapInts f stmt, itemsOf_mapInts f rest]

theorem itemsOfHandlers_mapInts (f : Int → Int) : ∀ handlers : List (ExceptHandler Stmt),
    itemsOfHandlers (mapIntsOfHandlers f handlers) = (itemsOfHandlers handlers).map (Item.mapInts f)
  | [] => rfl
  | ⟨type_, _, body⟩ :: rest => by
    simp [mapIntsOfHandlers, itemsOfHandlers, partsOfOption_mapInts, itemsOf_mapInts f body,
      itemsOfHandlers_mapInts f rest, ← exprItems_mapInts]

theorem itemsOfCases_mapInts (f : Int → Int) : ∀ cases : List (MatchCase Stmt),
    itemsOfCases (mapIntsOfCases f cases) = (itemsOfCases cases).map (Item.mapInts f)
  | [] => rfl
  | ⟨pattern, guard, body⟩ :: rest => by
    simp [mapIntsOfCases, itemsOfCases, pattern_parts_mapInts, partsOfOption_mapInts, itemsOf_mapInts f body,
      itemsOfCases_mapInts f rest, ← exprItems_mapInts]
end

end TinyMachine.Python
