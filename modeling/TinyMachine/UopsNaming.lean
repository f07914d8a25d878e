import TinyMachine.Uops

/-! What the policy analysis makes of names. The ways a module can be bound
and used are read as one program in which every chain of names stands for
what it refers to; the analysis sees through a way of writing where it takes
each chain for that. -/
namespace TinyMachine.Uops
open Ir

/-! ## Programs with their names resolved -/

/-- What a chain of names refers to: something in an imported module, by its
full path, or something the program itself names. -/
inductive Ref where
  | module (path : List String)
  | local_ (chain : List String)
  deriving DecidableEq, Repr

def Ref.parts : Ref → List String
  | .module path => path
  | .local_ chain => chain

/-- The paths that names are bound to by imports. -/
abbrev Scope := String → Option (List String)

/-- The parameters of a lambda hide what is outside. -/
def Scope.hide (scope : Scope) (args : List String) : Scope :=
  fun n => if n ∈ args then none else scope n

def refer (scope : Scope) : List String → Ref
  | [] => .local_ []
  | n :: rest =>
    match scope n with
    | some path => .module (path ++ rest)
    | none => .local_ (n :: rest)

/-- An expression with its names resolved. The keywords of a call, which no
walk comes by, are left open. -/
inductive Sense where
  | ref (r : Ref)
  | attribute (value : Sense) (attr : String)
  | text (s : String)
  | call (func : Sense) (args : List Sense)
  | subscript (value slice : Sense)
  | other (parts : List Sense)

mutual
def sense (scope : Scope) : IrExpr → Sense
  | .boolOp _ values => .other (sensesOf scope values)
  | .binOp left _ right => .other [sense scope left, sense scope right]
  | .unaryOp _ operand => .other [sense scope operand]
  | .constant (.str s) => .text s
  | .constant _ => .other []
  | .attribute value attr =>
    match (IrExpr.attribute value attr).resolveAttrChain with
    | some chain => .ref (refer scope chain)
    | none => .attribute (sense scope value) attr
  | .subscript value slice => .subscript (sense scope value) (sense scope slice)
  | .starred value => .other [sense scope value]
  | .name n => .ref (refer scope [n])
  | .list elts => .other (sensesOf scope elts)
  | .tuple elts => .other (sensesOf scope elts)
  | .dict keys values => .other (sensesOf scope keys ++ sensesOf scope values)
  | .set elts => .other (sensesOf scope elts)
  | .call func args _ => .call (sense scope func) (sensesOf scope args)
  | .ifExp test body orelse => .other [sense scope test, sense scope body, sense scope orelse]
  | .lambda args body => .other [sense (scope.hide args) body]
  | .compare left _ comparators => .other (sense scope left :: sensesOf scope comparators)

def sensesOf (scope : Scope) : List IrExpr → List Sense
  | [] => []
  | e :: rest => sense scope e :: sensesOf scope rest
end

/-! ## What a resolved program asks for -/

def environRead : UOp := .fileRead "/proc/self/environ"

/-- `os.environ`, or an attribute of it. A name that no import binds is the
environment's module if it is called so. -/
def Ref.isEnviron : Ref → Bool
  | .module (first :: second :: _) => first == "os" && second == "environ"
  | .local_ (first :: second :: _) =>
    (first == "os" || first == "operating_system") && second == "environ"
  | _ => false

def Sense.asStr : Sense → Option String
  | .text s => some s
  | _ => none

def Sense.isBuiltins : Sense → Bool
  | .ref r => r == .local_ ["__builtins__"]
  | _ => false

def Sense.isBase64DecodeCall : Sense → Bool
  | .call (.ref r) _ => decide (dotted r.parts ∈ base64Calls)
  | _ => false

def Ref.isBuiltinsDict : Ref → Bool
  | .local_ chain => Uops.isBuiltinsDict chain
  | .module _ => false

/-- A call, by the full name of what is called. -/
def Ref.callUops (r : Ref) (args : List Sense) : List UOp :=
  chainUops r.parts (args.filterMap Sense.asStr)
  ++ (match r with
    | .local_ [n] =>
      directUops n (args.any Sense.isBuiltins) (args.head?.any Sense.isBase64DecodeCall)
    | _ => [])

mutual
def Sense.uops : Sense → List UOp
  | .ref r => if r.isEnviron then [environRead] else []
  | .attribute value _ => value.uops
  | .text s => strUops s
  | .call func args =>
    (match func with
      | .ref r => r.callUops args
      | _ => []) ++ func.uops ++ uopsOf args
  | .subscript value slice =>
    (match value with
      | .ref r => if r.isBuiltinsDict then [.processExec "bypass:builtins_dict"] else []
      | _ => []) ++ value.uops ++ slice.uops
  | .other parts => uopsOf parts

def uopsOf : List Sense → List UOp
  | [] => []
  | s :: rest => s.uops ++ uopsOf rest
end

theorem uopsOf_append (senses more : List Sense) :
    uopsOf (senses ++ more) = uopsOf senses ++ uopsOf more := by
  induction senses with
  | nil => rfl
  | cons s rest ih => simp only [List.cons_append, uopsOf, ih, List.append_assoc]

/-! ## Where the analysis takes names for what they refer to -/

/-- What the analysis looks at in the name of a call: whether it is a listed
name and which, whether it ends in `wrap_socket`, whether its root is a GPU
library. -/
def look (parts : List String) : Option String × Bool × Bool :=
  (if dotted parts ∈ processCalls ++ tlsCalls ++ httpCalls ++ socketCalls ++ serverCalls then
      some (dotted parts) else none,
    decide (parts.getLast? = some "wrap_socket"), decide (∃ root ∈ parts.head?, root ∈ gpuRoots))

def directCalls : List String := evalCalls ++ ["__import__", "getattr", "open"]

/-- The visitor finds the environment by the start of a chain. -/
def seesEnviron (aliases : List (String × String)) : List String → Bool
  | first :: second :: _ => takenForOs aliases first && second == "environ"
  | _ => false

/-- The chain is taken for the environment where it is that. -/
def plainChain (aliases : List (String × String)) (scope : Scope) (chain : List String) : Bool :=
  seesEnviron aliases chain == (refer scope chain).isEnviron

/-- The name of a call, its alias resolved, looks like what it refers to; and a
bare name that is watched for is not bound by an import, nor is what it is
watched for in its arguments hidden or feigned by one. -/
def plainCall (aliases : List (String × String)) (scope : Scope) (func : IrExpr)
    (args : List IrExpr) : Bool :=
  (match func.resolveAttrChain with
    | some chain => look (resolveAliases aliases chain) == look (refer scope chain).parts
    | none => true)
  && (match func with
    | .name n => n ∉ directCalls || (scope n == none
        && (n ∉ evalCalls || args.head?.any isBase64DecodeCall
          == (sensesOf scope args).head?.any Sense.isBase64DecodeCall)
        && (n != "getattr" || args.any isBuiltins == (sensesOf scope args).any Sense.isBuiltins))
    | _ => true)

/-- `__builtins__` is not bound by an import where its dictionary is looked up. -/
def plainSubscript (scope : Scope) (value : IrExpr) : Bool :=
  match value.resolveAttrChain with
  | some chain => isBuiltinsDict chain == (refer scope chain).isBuiltinsDict
  | none => true

mutual
/-- Everywhere in the expression, names are taken for what they refer to. -/
def plain (aliases : List (String × String)) (scope : Scope) : IrExpr → Bool
  | .boolOp _ values => plainAll aliases scope values
  | .binOp left _ right => plain aliases scope left && plain aliases scope right
  | .unaryOp _ operand => plain aliases scope operand
  | .constant _ => true
  | .attribute value attr =>
    match (IrExpr.attribute value attr).resolveAttrChain with
    | some chain => plainChain aliases scope chain
    | none => plain aliases scope value
  | .subscript value slice =>
    plainSubscript scope value && plain aliases scope value && plain aliases scope slice
  | .starred value => plain aliases scope value
  | .name n => plainChain aliases scope [n]
  | .list elts => plainAll aliases scope elts
  | .tuple elts => plainAll aliases scope elts
  | .dict keys values => plainAll aliases scope keys && plainAll aliases scope values
  | .set elts => plainAll aliases scope elts
  | .call func args _ =>
    plainCall aliases scope func args && plain aliases scope func && plainAll aliases scope args
  | .ifExp test body orelse =>
    plain aliases scope test && plain aliases scope body && plain aliases scope orelse
  | .lambda args body => plain aliases (scope.hide args) body
  | .compare left _ comparators => plain aliases scope left && plainAll aliases scope comparators

def plainAll (aliases : List (String × String)) (scope : Scope) : List IrExpr → Bool
  | [] => true
  | e :: rest => plain aliases scope e && plainAll aliases scope rest
end

/-! ## What the visitor reports of an expression -/

mutual
/-- The operations found in an expression under a table of aliases. -/
def exprUops (aliases : List (String × String)) : IrExpr → List UOp
  | .boolOp _ values => exprsUops aliases values
  | .binOp left _ right => exprUops aliases left ++ exprUops aliases right
  | .unaryOp _ operand => exprUops aliases operand
  | .constant (.str s) => strUops s
  | .constant _ => []
  | .attribute value attr => attributeUops aliases value attr ++ exprUops aliases value
  | .subscript value slice =>
    subscriptUops value ++ exprUops aliases value ++ exprUops aliases slice
  | .starred value => exprUops aliases value
  | .name _ => []
  | .list elts => exprsUops aliases elts
  | .tuple elts => exprsUops aliases elts
  | .dict keys values => exprsUops aliases keys ++ exprsUops aliases values
  | .set elts => exprsUops aliases elts
  | .call func args _ =>
    callUops aliases func args ++ exprUops aliases func ++ exprsUops aliases args
  | .ifExp test body orelse =>
    exprUops aliases test ++ exprUops aliases body ++ exprUops aliases orelse
  | .lambda _ body => exprUops aliases body
  | .compare left _ comparators => exprUops aliases left ++ exprsUops aliases comparators

def exprsUops (aliases : List (String × String)) : List IrExpr → List UOp
  | [] => []
  | e :: rest => exprUops aliases e ++ exprsUops aliases rest
end

@[simp] theorem push_nil (v : UOpsVisitor) : v.push [] = v := by
  simp [UOpsVisitor.push]

@[simp] theorem push_push (v : UOpsVisitor) (found more : List UOp) :
    (v.push found).push more = v.push (found ++ more) := by
  simp [UOpsVisitor.push]

@[simp] theorem push_aliases (v : UOpsVisitor) (found : List UOp) :
    (v.push found).moduleAliases = v.moduleAliases := rfl

mutual
theorem walkExpr_reports : ∀ (e : IrExpr) (v : UOpsVisitor),
    uopsVisitor.walkExpr e v = v.push (exprUops v.moduleAliases e)
  | .boolOp _ values, v => walkExprs_reports values v
  | .binOp left _ right, v => by
    change uopsVisitor.walkExpr right (uopsVisitor.walkExpr left v) = _
    rw [walkExpr_reports left, walkExpr_reports right, push_push, push_aliases, exprUops]
  | .unaryOp _ operand, v => walkExpr_reports operand v
  | .constant c, v => by
    cases c with
    | str s => rfl
    | noneValue => exact (push_nil v).symm
    | bool b => exact (push_nil v).symm
    | int n => exact (push_nil v).symm
    | float bits => exact (push_nil v).symm
    | ellipsis => exact (push_nil v).symm
  | .attribute value attr, v => by
    change uopsVisitor.walkExpr value (v.push (attributeUops v.moduleAliases value attr)) = _
    rw [walkExpr_reports value, push_push, push_aliases, exprUops]
  | .subscript value slice, v => by
    change uopsVisitor.walkExpr slice (uopsVisitor.walkExpr value (v.push (subscriptUops value))) = _
    rw [walkExpr_reports value, walkExpr_reports slice]
    simp only [push_push, push_aliases, exprUops, List.append_assoc]
  | .starred value, v => walkExpr_reports value v
  | .name _, v => (push_nil v).symm
  | .list elts, v => walkExprs_reports elts v
  | .tuple elts, v => walkExprs_reports elts v
  | .dict keys values, v => by
    change uopsVisitor.walkExprs values (uopsVisitor.walkExprs keys v) = _
    rw [walkExprs_reports keys, walkExprs_reports values, push_push, push_aliases, exprUops]
  | .set elts, v => walkExprs_reports elts v
  | .call func args _, v => by
    change uopsVisitor.walkExprs args
      (uopsVisitor.walkExpr func (v.push (callUops v.moduleAliases func args))) = _
    rw [walkExpr_reports func, walkExprs_reports args]
    simp only [push_push, push_aliases, exprUops, List.append_assoc]
  | .ifExp test body orelse, v => by
    change uopsVisitor.walkExpr orelse
      (uopsVisitor.walkExpr body (uopsVisitor.walkExpr test v)) = _
    rw [walkExpr_reports test, walkExpr_reports body, walkExpr_reports orelse]
    simp only [push_push, push_aliases, exprUops, List.append_assoc]
  | .lambda _ body, v => walkExpr_reports body v
  | .compare left _ comparators, v => by
    change uopsVisitor.walkExprs comparators (uopsVisitor.walkExpr left v) = _
    rw [walkExpr_reports left, walkExprs_reports comparators, push_push, push_aliases, exprUops]

theorem walkExprs_reports : ∀ (es : List IrExpr) (v : UOpsVisitor),
    uopsVisitor.walkExprs es v = v.push (exprsUops v.moduleAliases es)
  | [], v => (push_nil v).symm
  | e :: rest, v => by
    change uopsVisitor.walkExprs rest (uopsVisitor.walkExpr e v) = _
    rw [walkExpr_reports e, walkExprs_reports rest, push_push, push_aliases, exprsUops]
end

/-! ## A plain expression is reported for what it means -/

section Chains
variable {aliases : List (String × String)}

private theorem chain_nonempty : ∀ {e : IrExpr} {chain : List String},
    e.resolveAttrChain = some chain → chain ≠ []
  | .name n, _, resolved => by
    cases resolved
    exact List.cons_ne_nil _ _
  | .attribute value attr, chain, resolved => by
    simp only [IrExpr.resolveAttrChain, Option.bind_eq_bind, Option.pure_def,
      Option.bind_eq_some_iff, Option.some.injEq] at resolved
    obtain ⟨inner, _, rfl⟩ := resolved
    simp

private theorem attribute_chain {value : IrExpr} {attr : String} {chain : List String}
    (resolved : (IrExpr.attribute value attr).resolveAttrChain = some chain) :
    ∃ inner, value.resolveAttrChain = some inner ∧ chain = inner ++ [attr] := by
  simp only [IrExpr.resolveAttrChain, Option.bind_eq_bind, Option.pure_def,
    Option.bind_eq_some_iff, Option.some.injEq] at resolved
  obtain ⟨inner, found, rfl⟩ := resolved
  exact ⟨inner, found, rfl⟩

private theorem attribute_no_chain {value : IrExpr} {attr : String}
    (resolved : (IrExpr.attribute value attr).resolveAttrChain = none) :
    value.resolveAttrChain = none := by
  cases found : value.resolveAttrChain with
  | none => rfl
  | some inner => simp [IrExpr.resolveAttrChain, found] at resolved

/-- Of a chain only an `environ` right after its first name is reported. -/
theorem chain_reports : ∀ (e : IrExpr) (chain : List String), e.resolveAttrChain = some chain →
    exprUops aliases e = if seesEnviron aliases chain then [environRead] else []
  | .name n, _, resolved => by
    cases resolved
    rfl
  | .attribute (.name n) attr, _, resolved => by
    cases resolved
    simp only [exprUops, attributeUops, List.append_nil, List.cons_append, List.nil_append,
      seesEnviron, Bool.and_eq_true, beq_iff_eq, environRead]
    by_cases os : takenForOs aliases n = true
    · simp [os]
    · simp [os]
  | .attribute (.attribute value inner) attr, chain, resolved => by
    obtain ⟨longer, found, rfl⟩ := attribute_chain resolved
    have earlier := chain_reports (.attribute value inner) longer found
    obtain ⟨start, begins, rfl⟩ := attribute_chain found
    obtain ⟨first, rest, rfl⟩ := List.exists_cons_of_ne_nil (chain_nonempty begins)
    have same : seesEnviron aliases ((first :: rest ++ [inner]) ++ [attr]) =
        seesEnviron aliases (first :: rest ++ [inner]) := by
      cases rest <;> rfl
    rw [same, ← earlier]
    rfl

theorem sense_chain {scope : Scope} {e : IrExpr} {chain : List String}
    (resolved : e.resolveAttrChain = some chain) : sense scope e = .ref (refer scope chain) := by
  cases e with
  | name n =>
    cases resolved
    rfl
  | «attribute» value attr => simp only [sense, resolved]
  | _ => cases resolved

/-- Only chains are taken for references. -/
theorem sense_no_chain (scope : Scope) {e : IrExpr} (unresolved : e.resolveAttrChain = none) (r : Ref) :
    sense scope e ≠ .ref r := by
  cases e with
  | name n => cases unresolved
  | «attribute» value attr =>
    simp only [sense, unresolved]
    intro same
    cases same
  | constant c => cases c <;> exact fun same => nomatch same
  | _ => exact fun same => nomatch same

end Chains

private theorem look_same {parts parts' : List String} (same : look parts = look parts') :
    (dotted parts = dotted parts' ∨
      dotted parts ∉ processCalls ++ tlsCalls ++ httpCalls ++ socketCalls ++ serverCalls ∧
        dotted parts' ∉ processCalls ++ tlsCalls ++ httpCalls ++ socketCalls ++ serverCalls) ∧
    (parts.getLast? = some "wrap_socket" ↔ parts'.getLast? = some "wrap_socket") ∧
    ((∃ root ∈ parts.head?, root ∈ gpuRoots) ↔ ∃ root ∈ parts'.head?, root ∈ gpuRoots) := by
  simp only [look, Prod.mk.injEq, decide_eq_decide] at same
  obtain ⟨named, ending, root⟩ := same
  refine ⟨?_, ending, root⟩
  by_cases listed : dotted parts ∈ processCalls ++ tlsCalls ++ httpCalls ++ socketCalls ++ serverCalls
  · rw [if_pos listed] at named
    split at named
    · exact Or.inl (Option.some.inj named)
    · cases named
  · rw [if_neg listed] at named
    split at named
    · cases named
    · rename_i unlisted
      exact Or.inr ⟨listed, unlisted⟩

/-- What is reported of a call by its name depends only on how the name looks. -/
theorem chain_uops_of_look {parts parts' : List String} (same : look parts = look parts')
    (texts : List String) : chainUops parts texts = chainUops parts' texts := by
  obtain ⟨named, ending, root⟩ := look_same same
  unfold chainUops
  rcases named with equal | ⟨unlisted, unlisted'⟩
  · simp only [equal, ending, root]
  · simp only [List.mem_append, not_or] at unlisted unlisted'
    simp only [unlisted, unlisted', ending, root, if_false, false_or]

theorem args_texts (scope : Scope) (args : List IrExpr) :
    (sensesOf scope args).filterMap Sense.asStr = args.filterMap IrExpr.asStr := by
  induction args with
  | nil => rfl
  | cons e rest ih =>
    have one : (sense scope e).asStr = e.asStr := by
      cases e with
      | constant c => cases c <;> rfl
      | «attribute» value attr =>
        simp only [sense]
        split <;> rfl
      | _ => rfl
    simp only [sensesOf, List.filterMap_cons, one, ih]

private theorem direct_unlisted {n : String} (unlisted : n ∉ directCalls) (builtins encoded : Bool) :
    directUops n builtins encoded = [] := by
  simp only [directCalls, List.mem_append, List.mem_cons, List.not_mem_nil, or_false,
    not_or] at unlisted
  obtain ⟨notEval, notImport, notGetattr, notOpen⟩ := unlisted
  simp only [directUops, notEval, notImport, notGetattr, notOpen, if_false]

private theorem direct_same {n : String} {builtins builtins' encoded encoded' : Bool}
    (decodes : n ∈ evalCalls → encoded = encoded') (hides : n = "getattr" → builtins = builtins') :
    directUops n builtins encoded = directUops n builtins' encoded' := by
  unfold directUops
  by_cases evaluates : n ∈ evalCalls
  · simp only [evaluates, if_true, decodes evaluates]
  · by_cases looksUp : n = "getattr"
    · simp only [hides looksUp]
      simp only [evaluates, if_false]
    · simp only [evaluates, looksUp, if_false]

/-- The names of a chain that goes on are not one bare name. -/
private theorem refer_longer (scope : Scope) {inner : List String} (attr : String)
    (nonempty : inner ≠ []) (n : String) : refer scope (inner ++ [attr]) ≠ .local_ [n] := by
  obtain ⟨first, rest, rfl⟩ := List.exists_cons_of_ne_nil nonempty
  simp only [List.cons_append, refer]
  split
  · intro same
    cases same
  · intro same
    injection same with same
    simp at same

/-- A bare name is reported as such where it is one that no import binds. -/
theorem direct_reports {aliases : List (String × String)} {scope : Scope} {n : String}
    {args : List IrExpr} (plain : plainCall aliases scope (.name n) args = true) :
    directUops n (args.any isBuiltins) (args.head?.any isBase64DecodeCall) =
      match refer scope [n] with
      | .local_ [m] => directUops m ((sensesOf scope args).any Sense.isBuiltins)
          ((sensesOf scope args).head?.any Sense.isBase64DecodeCall)
      | _ => [] := by
  simp only [plainCall, Bool.and_eq_true, Bool.or_eq_true, decide_eq_true_eq, beq_iff_eq,
    bne_iff_ne, ne_eq] at plain
  rcases plain.2 with unlisted | ⟨⟨free, decodes⟩, hides⟩
  · rw [direct_unlisted unlisted]
    simp only [refer]
    split
    · rename_i m bare
      split at bare
      · cases bare
      · injection bare with bare
        injection bare with bare
        rw [← bare, direct_unlisted unlisted]
    · rfl
  · simp only [refer, free]
    exact direct_same (fun evaluates => decodes.resolve_left fun other => other evaluates)
      fun looksUp => hides.resolve_left fun other => other looksUp

/-- A call is reported for what it refers to. -/
theorem call_reports {aliases : List (String × String)} {scope : Scope} {func : IrExpr}
    {args : List IrExpr} (plain : plainCall aliases scope func args = true) :
    callUops aliases func args =
      match sense scope func with
      | .ref r => r.callUops (sensesOf scope args)
      | _ => [] := by
  cases resolved : func.resolveAttrChain with
  | some chain =>
    have looks : look (resolveAliases aliases chain) = look (refer scope chain).parts := by
      simp only [plainCall, resolved, Bool.and_eq_true, beq_iff_eq] at plain
      exact plain.1
    rw [sense_chain resolved]
    simp only [callUops, resolved, Ref.callUops, args_texts, chain_uops_of_look looks]
    congr 1
    cases func with
    | name n =>
      cases resolved
      exact direct_reports plain
    | «attribute» value attr =>
      obtain ⟨inner, found, rfl⟩ := attribute_chain resolved
      have longer := refer_longer scope attr (chain_nonempty found)
      -- Neither side has a branch for a longer chain.
      simp only
    | _ => cases resolved
  | none =>
    have unnamed := sense_no_chain scope resolved
    have silent : callUops aliases func args = [] := by
      cases func with
      | name n => cases resolved
      | _ => simp only [callUops, resolved, List.append_nil]
    rw [silent]
    split
    · rename_i r named
      exact absurd named (unnamed r)
    · rfl

theorem subscript_reports {scope : Scope} {value : IrExpr}
    (plain : plainSubscript scope value = true) :
    subscriptUops value =
      match sense scope value with
      | .ref r => if r.isBuiltinsDict then [.processExec "bypass:builtins_dict"] else []
      | _ => [] := by
  cases resolved : value.resolveAttrChain with
  | some chain =>
    simp only [plainSubscript, resolved, beq_iff_eq] at plain
    simp only [subscriptUops, resolved, sense_chain resolved, plain]
  | none =>
    have unnamed := sense_no_chain scope resolved
    rw [subscriptUops, resolved]
    generalize sense scope value = s at unnamed
    cases s with
    | ref r => exact absurd rfl (unnamed r)
    | _ => rfl

/-- A chain taken for what it refers to is reported for that. -/
theorem plain_chain_reports {aliases : List (String × String)} {scope : Scope} {e : IrExpr}
    {chain : List String} (resolved : e.resolveAttrChain = some chain)
    (plain : plainChain aliases scope chain = true) :
    exprUops aliases e = (Sense.ref (refer scope chain)).uops := by
  rw [chain_reports e chain resolved, beq_iff_eq.mp plain]
  rfl

mutual
/-- What is reported of a plain expression is what its sense asks for. -/
theorem plain_reports (aliases : List (String × String)) : ∀ (e : IrExpr) (scope : Scope),
    plain aliases scope e = true → exprUops aliases e = (sense scope e).uops
  | .boolOp _ values, scope, plain => plains_report aliases values scope plain
  | .binOp left _ right, scope, both => by
    simp only [plain, Bool.and_eq_true] at both
    simp only [exprUops, sense, Sense.uops, uopsOf, List.append_nil,
      plain_reports aliases left scope both.1, plain_reports aliases right scope both.2]
  | .unaryOp _ operand, scope, inner => by
    simp only [exprUops, sense, Sense.uops, uopsOf, List.append_nil,
      plain_reports aliases operand scope inner]
  | .constant c, scope, _ => by
    cases c <;> rfl
  | .attribute value attr, scope, inner => by
    cases resolved : (IrExpr.attribute value attr).resolveAttrChain with
    | some chain =>
      simp only [plain, resolved] at inner
      rw [sense_chain resolved]
      exact plain_chain_reports resolved inner
    | none =>
      simp only [plain, resolved] at inner
      have nameless := attribute_no_chain resolved
      have silent : attributeUops aliases value attr = [] := by
        cases value with
        | name n => cases nameless
        | _ => rfl
      simp only [exprUops, silent, sense, resolved, Sense.uops, List.nil_append,
        plain_reports aliases value scope inner]
  | .subscript value slice, scope, all => by
    simp only [plain, Bool.and_eq_true] at all
    obtain ⟨⟨dictionary, base⟩, index⟩ := all
    simp only [exprUops, sense, Sense.uops, subscript_reports dictionary,
      plain_reports aliases value scope base, plain_reports aliases slice scope index]
  | .starred value, scope, inner => by
    simp only [exprUops, sense, Sense.uops, uopsOf, List.append_nil,
      plain_reports aliases value scope inner]
  | .name n, scope, inner => plain_chain_reports rfl inner
  | .list elts, scope, inner => plains_report aliases elts scope inner
  | .tuple elts, scope, inner => plains_report aliases elts scope inner
  | .dict keys values, scope, both => by
    simp only [plain, Bool.and_eq_true] at both
    simp only [exprUops, sense, Sense.uops, uopsOf_append,
      plains_report aliases keys scope both.1, plains_report aliases values scope both.2]
  | .set elts, scope, inner => plains_report aliases elts scope inner
  | .call func args _, scope, all => by
    simp only [plain, Bool.and_eq_true] at all
    obtain ⟨⟨called, callee⟩, given⟩ := all
    simp only [exprUops, sense, Sense.uops, call_reports called,
      plain_reports aliases func scope callee, plains_report aliases args scope given]
  | .ifExp test body orelse, scope, all => by
    simp only [plain, Bool.and_eq_true] at all
    obtain ⟨⟨asked, met⟩, unmet⟩ := all
    simp only [exprUops, sense, Sense.uops, uopsOf, List.append_nil, List.append_assoc,
      plain_reports aliases test scope asked, plain_reports aliases body scope met,
      plain_reports aliases orelse scope unmet]
  | .lambda args body, scope, inner => by
    simp only [exprUops, sense, Sense.uops, uopsOf, List.append_nil,
      plain_reports aliases body (scope.hide args) inner]
  | .compare left _ comparators, scope, both => by
    simp only [plain, Bool.and_eq_true] at both
    simp only [exprUops, sense, Sense.uops, uopsOf,
      plain_reports aliases left scope both.1, plains_report aliases comparators scope both.2]

theorem plains_report (aliases : List (String × String)) : ∀ (es : List IrExpr) (scope : Scope),
    plainAll aliases scope es = true → exprsUops aliases es = uopsOf (sensesOf scope es)
  | [], _, _ => rfl
  | e :: rest, scope, both => by
    simp only [plainAll, Bool.and_eq_true] at both
    simp only [exprsUops, sensesOf, uopsOf, plain_reports aliases e scope both.1,
      plains_report aliases rest scope both.2]
end

end TinyMachine.Uops
