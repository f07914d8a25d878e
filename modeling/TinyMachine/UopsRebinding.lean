import TinyMachine.UopsNaming

/-! Two ways of binding the modules a program uses. They are reported alike
where the analysis takes every name for what it refers to; an import of a
symbol and an alias recorded after its use are what it does not see through. -/
namespace TinyMachine.Uops
open Ir

/-! ## Imports and expressions in the order of the walk -/

/-- An import statement; with a symbol it is `from module import symbol`. -/
structure Import where
  module : String
  symbol : Option String
  alias_ : Option String
  deriving DecidableEq, Repr

inductive Item where
  | import_ (i : Import)
  | expr (e : IrExpr)

mutual
/-- The imports and expressions of a statement in the order a walk comes by them. -/
def itemsOfStmt : IrStmt → List Item
  | .import_ module alias_ => [.import_ ⟨module, none, alias_⟩]
  | .importFrom module symbol alias_ => [.import_ ⟨module, some symbol, alias_⟩]
  | .expr e => [.expr e]
  | .assign targets value => targets.map .expr ++ [.expr value]
  | .augAssign target _ value => [.expr target, .expr value]
  | .functionDef _ body => itemsOf body
  | .return_ value => value.toList.map .expr
  | .delete targets => targets.map .expr
  | .for_ target iter body => .expr target :: .expr iter :: itemsOf body
  | .while_ test body => .expr test :: itemsOf body
  | .if_ test body orelse => .expr test :: (itemsOf body ++ itemsOf orelse)
  | .with_ items body => (items.flatMap IrWithItem.exprs).map .expr ++ itemsOf body
  | .try_ body handlers orelse finalbody =>
    itemsOf body ++ itemsOfHandlers handlers ++ itemsOf orelse ++ itemsOf finalbody
  | .raise exc => exc.toList.map .expr
  | .classDef _ body => itemsOf body
  | .assert test msg => .expr test :: msg.toList.map .expr
  | .break_ => []
  | .continue_ => []
  | .pass => []

def itemsOf : List IrStmt → List Item
  | [] => []
  | stmt :: rest => itemsOfStmt stmt ++ itemsOf rest

def itemsOfHandlers : List (IrExceptHandler IrStmt) → List Item
  | [] => []
  | ⟨type_, _, body⟩ :: rest => type_.toList.map .expr ++ itemsOf body ++ itemsOfHandlers rest
end

/-- What an import adds to the table: the alias of a whole module only. -/
def Import.recorded (i : Import) : Option (String × String) :=
  match i.symbol with
  | none => i.alias_.map fun a => (a, i.module)
  | some _ => none

def Item.record (aliases : List (String × String)) : Item → List (String × String)
  | .import_ i => i.recorded.toList ++ aliases
  | .expr _ => aliases

def Item.uops (aliases : List (String × String)) : Item → List UOp
  | .import_ i => importUops i.module
  | .expr e => exprUops aliases e

def Item.take (v : UOpsVisitor) (item : Item) : UOpsVisitor :=
  { uops := v.uops ++ item.uops v.moduleAliases, moduleAliases := item.record v.moduleAliases }

private theorem take_expr (v : UOpsVisitor) (e : IrExpr) :
    uopsVisitor.walkExpr e v = Item.take v (.expr e) := by
  rw [walkExpr_reports]
  rfl

private theorem take_exprs (es : List IrExpr) (v : UOpsVisitor) :
    uopsVisitor.walkExprs es v = (es.map Item.expr).foldl Item.take v := by
  induction es generalizing v with
  | nil => rfl
  | cons e rest ih =>
    change uopsVisitor.walkExprs rest (uopsVisitor.walkExpr e v) = _
    rw [take_expr, ih]
    rfl

private theorem take_option (e : Option IrExpr) (v : UOpsVisitor) :
    uopsVisitor.walkOption e v = (e.toList.map Item.expr).foldl Item.take v := by
  cases e with
  | none => rfl
  | some e => exact take_expr v e

private theorem take_items (items : List IrWithItem) (v : UOpsVisitor) :
    items.foldl (fun v item => uopsVisitor.walkItem item v) v =
      ((items.flatMap IrWithItem.exprs).map Item.expr).foldl Item.take v := by
  induction items generalizing v with
  | nil => rfl
  | cons item rest ih =>
    have here : uopsVisitor.walkItem item v = (item.exprs.map Item.expr).foldl Item.take v := by
      change uopsVisitor.walkOption item.optionalVars (uopsVisitor.walkExpr item.contextExpr v) = _
      rw [take_expr, take_option]
      rfl
    rw [List.foldl_cons, here, ih, List.flatMap_cons, List.map_append, List.foldl_append]

mutual
/-- The walk takes the imports and expressions one after the other. -/
theorem walkStmt_takes : ∀ (stmt : IrStmt) (v : UOpsVisitor),
    uopsVisitor.walkStmt stmt v = (itemsOfStmt stmt).foldl Item.take v
  | .import_ module alias_, v => by
    cases alias_ <;> rfl
  | .importFrom module symbol alias_, v => rfl
  | .expr e, v => take_expr v e
  | .assign targets value, v => by
    change uopsVisitor.walkExpr value (uopsVisitor.walkExprs targets v) = _
    rw [take_exprs, take_expr, itemsOfStmt, List.foldl_append]
    rfl
  | .augAssign target _ value, v => by
    change uopsVisitor.walkExpr value (uopsVisitor.walkExpr target v) = _
    rw [take_expr, take_expr]
    rfl
  | .functionDef _ body, v => walkStmts_take body v
  | .return_ value, v => take_option value v
  | .delete targets, v => take_exprs targets v
  | .for_ target iter body, v => by
    change uopsVisitor.walkStmts body (uopsVisitor.walkExpr iter (uopsVisitor.walkExpr target v)) = _
    rw [take_expr, take_expr, walkStmts_take body]
    rfl
  | .while_ test body, v => by
    change uopsVisitor.walkStmts body (uopsVisitor.walkExpr test v) = _
    rw [take_expr, walkStmts_take body]
    rfl
  | .if_ test body orelse, v => by
    change uopsVisitor.walkStmts orelse
      (uopsVisitor.walkStmts body (uopsVisitor.walkExpr test v)) = _
    rw [take_expr, walkStmts_take body, walkStmts_take orelse, itemsOfStmt, List.foldl_cons,
      List.foldl_append]
  | .with_ items body, v => by
    change uopsVisitor.walkStmts body
      (items.foldl (fun v item => uopsVisitor.walkItem item v) v) = _
    rw [take_items, walkStmts_take body, itemsOfStmt, List.foldl_append]
  | .try_ body handlers orelse finalbody, v => by
    change uopsVisitor.walkStmts finalbody (uopsVisitor.walkStmts orelse
      (uopsVisitor.walkHandlers handlers (uopsVisitor.walkStmts body v))) = _
    rw [walkStmts_take body, walkHandlers_take handlers, walkStmts_take orelse,
      walkStmts_take finalbody, itemsOfStmt, List.foldl_append, List.foldl_append,
      List.foldl_append]
  | .raise exc, v => take_option exc v
  | .classDef _ body, v => walkStmts_take body v
  | .assert test msg, v => by
    change uopsVisitor.walkOption msg (uopsVisitor.walkExpr test v) = _
    rw [take_expr, take_option]
    rfl
  | .break_, _ => rfl
  | .continue_, _ => rfl
  | .pass, _ => rfl

theorem walkStmts_take : ∀ (stmts : List IrStmt) (v : UOpsVisitor),
    uopsVisitor.walkStmts stmts v = (itemsOf stmts).foldl Item.take v
  | [], _ => rfl
  | stmt :: rest, v => by
    change uopsVisitor.walkStmts rest (uopsVisitor.walkStmt stmt v) = _
    rw [walkStmt_takes stmt, walkStmts_take rest, itemsOf, List.foldl_append]

theorem walkHandlers_take : ∀ (handlers : List (IrExceptHandler IrStmt)) (v : UOpsVisitor),
    uopsVisitor.walkHandlers handlers v = (itemsOfHandlers handlers).foldl Item.take v
  | [], _ => rfl
  | ⟨type_, _, body⟩ :: rest, v => by
    change uopsVisitor.walkHandlers rest
      (uopsVisitor.walkStmts body (uopsVisitor.walkOption type_ v)) = _
    rw [take_option, walkStmts_take body, walkHandlers_take rest, itemsOfHandlers,
      List.foldl_append, List.foldl_append]
end

/-! ## Readings of a program -/

def components (module : String) : List String :=
  (module.toList.splitOn '.').map String.ofList

/-- The name an import binds, and the full path it is bound to. A dotted import
without alias binds the package it starts with. -/
def Import.binding (i : Import) : String × List String :=
  match i.symbol, i.alias_ with
  | none, none => ((components i.module).headD "", [(components i.module).headD ""])
  | none, some a => (a, components i.module)
  | some s, none => (s, components i.module ++ [s])
  | some s, some a => (a, components i.module ++ [s])

/-- The modules an import may load. -/
def Import.loads (i : Import) : List String :=
  i.module :: (i.symbol.map fun s => i.module ++ "." ++ s).toList

def itemsOfProgram (program : IrProgram) : List Item := itemsOf program.body

def imports : List Item → List Import
  | [] => []
  | .import_ i :: rest => i :: imports rest
  | .expr _ :: rest => imports rest

/-- The scopes of a program's expressions, by their place in the walk; what they
bind is bound by one of its imports. -/
structure Reading (program : IrProgram) where
  scope : Nat → Scope
  bound : ∀ k n path, scope k n = some path →
    ∃ i ∈ imports (itemsOfProgram program), i.binding = (n, path)

def sensesFrom (scope : Nat → Scope) : Nat → List Item → List Sense
  | _, [] => []
  | k, .import_ _ :: rest => sensesFrom scope (k + 1) rest
  | k, .expr e :: rest => sense (scope k) e :: sensesFrom scope (k + 1) rest

def Reading.senses {program : IrProgram} (reading : Reading program) : List Sense :=
  sensesFrom reading.scope 0 (itemsOfProgram program)

def Reading.imports {program : IrProgram} (_ : Reading program) : List Import :=
  Uops.imports (itemsOfProgram program)

/-- The programs say the same, expression for expression, in some order, and
load the same modules: they differ in how modules are bound and named, and in
what stands before what. -/
structure Rebound {program program' : IrProgram} (reading : Reading program)
    (reading' : Reading program') : Prop where
  senses : ∀ s, s ∈ reading.senses ↔ s ∈ reading'.senses
  loaded : ∀ i ∈ reading.imports, ∃ i' ∈ reading'.imports, ∃ m ∈ i.loads, m ∈ i'.loads
  loaded' : ∀ i' ∈ reading'.imports, ∃ i ∈ reading.imports, ∃ m ∈ i.loads, m ∈ i'.loads

/-! ## Where the analysis sees through a way of writing -/

def plainFrom (scope : Nat → Scope) : Nat → List (String × String) → List Item → Bool
  | _, _, [] => true
  | k, aliases, .import_ i :: rest =>
    plainFrom scope (k + 1) (Item.record aliases (.import_ i)) rest
  | k, aliases, .expr e :: rest =>
    plain aliases (scope k) e && plainFrom scope (k + 1) aliases rest

/-- With the aliases recorded before it in the walk, every expression has its
names taken for what they refer to. -/
def Reading.plain {program : IrProgram} (reading : Reading program) : Bool :=
  plainFrom reading.scope 0 [] (itemsOfProgram program)

def watchedModules : List String :=
  ["ctypes", "cffi", "importlib", "ssl", "torch", "torchvision", "torchaudio", "cuda", "tinygrad",
    "extra", "builtins"]

/-- A module that is reported when imported is named as the module of an import
in both programs. -/
def SameWatched {program program' : IrProgram} (reading : Reading program)
    (reading' : Reading program') : Prop :=
  ∀ m ∈ watchedModules, (∃ i ∈ reading.imports, i.module = m) ↔ ∃ i ∈ reading'.imports, i.module = m

private theorem watched_of_import {module : String} {u : UOp} (found : u ∈ importUops module) :
    module ∈ watchedModules := by
  by_contra unwatched
  simp only [watchedModules, List.mem_cons, List.not_mem_nil, or_false, not_or] at unwatched
  simp [importUops, unwatched] at found

private theorem takes_report {scope : Nat → Scope} (items : List Item) (k : Nat) (v : UOpsVisitor)
    (plain : plainFrom scope k v.moduleAliases items = true) (u : UOp) :
    u ∈ (items.foldl Item.take v).uops ↔ u ∈ v.uops ∨ (∃ i ∈ imports items, u ∈ importUops i.module) ∨
      ∃ s ∈ sensesFrom scope k items, u ∈ s.uops := by
  induction items generalizing k v with
  | nil => simp [imports, sensesFrom]
  | cons item rest ih =>
    cases item with
    | import_ i =>
      rw [List.foldl_cons, ih (k + 1) (Item.take v (.import_ i)) plain]
      simp only [Item.take, Item.uops, List.mem_append, imports, sensesFrom, List.mem_cons,
        exists_eq_or_imp, or_assoc]
    | expr e =>
      simp only [plainFrom, Bool.and_eq_true] at plain
      obtain ⟨here, later⟩ := plain
      rw [List.foldl_cons, ih (k + 1) (Item.take v (.expr e)) later]
      simp only [Item.take, Item.uops, plain_reports v.moduleAliases e (scope k) here,
        List.mem_append, imports, sensesFrom, List.mem_cons, exists_eq_or_imp, or_assoc]
      rw [or_left_comm (a := u ∈ (sense (scope k) e).uops)]

/-- A plain program is reported for the modules it names and for what its
expressions ask for. -/
theorem analyze_plain {program : IrProgram} (reading : Reading program)
    (plain : reading.plain = true) (u : UOp) :
    u ∈ analyze program ↔ (∃ i ∈ reading.imports, u ∈ importUops i.module) ∨
      ∃ s ∈ reading.senses, u ∈ s.uops := by
  have walked : analyze program = ((itemsOfProgram program).foldl Item.take ⟨[], []⟩).uops :=
    congrArg UOpsVisitor.uops (walkStmts_take program.body ⟨[], []⟩)
  have reported := takes_report (itemsOfProgram program) 0 ⟨[], []⟩ plain u
  simp only [List.not_mem_nil, false_or] at reported
  rw [walked]
  exact reported

/-- Programs that differ only in how modules are bound are reported alike where
each has its names taken for what they refer to. -/
theorem rebinding_is_seen_through {program program' : IrProgram} (reading : Reading program)
    (reading' : Reading program') (rebound : Rebound reading reading')
    (plain : reading.plain = true) (plain' : reading'.plain = true)
    (watched : SameWatched reading reading') (u : UOp) :
    u ∈ analyze program ↔ u ∈ analyze program' := by
  rw [analyze_plain reading plain, analyze_plain reading' plain']
  have modules : (∃ i ∈ reading.imports, u ∈ importUops i.module) ↔
      ∃ i ∈ reading'.imports, u ∈ importUops i.module := by
    constructor
    · rintro ⟨i, member, found⟩
      obtain ⟨i', member', same⟩ := (watched i.module (watched_of_import found)).mp ⟨i, member, rfl⟩
      exact ⟨i', member', same ▸ found⟩
    · rintro ⟨i', member', found⟩
      obtain ⟨i, member, same⟩ := (watched i'.module (watched_of_import found)).mpr ⟨i', member', rfl⟩
      exact ⟨i, member, same ▸ found⟩
  have expressions : (∃ s ∈ reading.senses, u ∈ s.uops) ↔ ∃ s ∈ reading'.senses, u ∈ s.uops := by
    simp only [rebound.senses]
  rw [modules, expressions]

/-! ## Ways of running a command -/

/-- A function that calls `callee("ls")` by a chain of two names. -/
private def runsBy (module function : String) : IrStmt :=
  .functionDef "run"
    [.expr (.call (.attribute (.name module) function) [.constant (.str "ls")] [])]

private def asImported : IrProgram := ⟨[.import_ "os" none, runsBy "os" "system"]⟩

private def underAlias : IrProgram := ⟨[.import_ "os" (some "a"), runsBy "a" "system"]⟩

/-- The command is run by the function itself, imported from the module. -/
private def fromImported : IrProgram :=
  ⟨[.importFrom "os" "system" none,
    .functionDef "run" [.expr (.call (.name "system") [.constant (.str "ls")] [])]]⟩

/-- Every expression sees the one name that the program's only import binds. -/
private def oneName {program : IrProgram} (i : Import)
    (only : imports (itemsOfProgram program) = [i]) : Reading program where
  scope _ n := if n = i.binding.1 then some i.binding.2 else none
  bound := by
    intro k n path named
    refine ⟨i, by simp [only], ?_⟩
    split at named
    · rename_i same
      cases named
      rw [same]
    · cases named

private theorem rebound_of_eq {program program' : IrProgram} {reading : Reading program}
    {reading' : Reading program'} (same : reading.senses = reading'.senses) {i i' : Import}
    (one : reading.imports = [i]) (one' : reading'.imports = [i']) (m : String) (loaded : m ∈ i.loads)
    (loaded' : m ∈ i'.loads) : Rebound reading reading' := by
  refine ⟨fun s => by rw [same], ?_, ?_⟩
  · intro j member
    rw [one, List.mem_singleton] at member
    exact ⟨i', by simp [one'], m, member ▸ loaded, loaded'⟩
  · intro j member
    rw [one', List.mem_singleton] at member
    exact ⟨i, by simp [one], m, loaded, member ▸ loaded'⟩

private def plainly : Reading asImported := oneName ⟨"os", none, none⟩ rfl

private def aliased : Reading underAlias := oneName ⟨"os", none, some "a"⟩ rfl

private def symbolically : Reading fromImported := oneName ⟨"os", some "system", none⟩ rfl

/-- Importing the module under an alias is seen through. -/
theorem alias_is_seen_through :
    .processExec "os.system" ∈ analyze asImported ↔ .processExec "os.system" ∈ analyze underAlias := by
  refine rebinding_is_seen_through plainly aliased
    (rebound_of_eq rfl rfl rfl "os" (by decide) (by decide)) (by decide +kernel) (by decide +kernel)
    ?_ _
  intro m watched
  have other : m ≠ "os" := by
    rintro rfl
    revert watched
    decide
  constructor
  · rintro ⟨i, member, rfl⟩
    cases List.mem_singleton.mp member
    exact absurd rfl other
  · rintro ⟨i, member, rfl⟩
    cases List.mem_singleton.mp member
    exact absurd rfl other

/-- Importing the function from the module hides the command it runs. -/
theorem from_import_hides_command :
    ¬ ∀ (program program' : IrProgram) (reading : Reading program) (reading' : Reading program'),
      Rebound reading reading' → ∀ u, u ∈ analyze program ↔ u ∈ analyze program' := by
  intro seen
  have rebound : Rebound plainly symbolically :=
    rebound_of_eq rfl rfl rfl "os" (by decide) (by decide)
  have reported := (seen _ _ _ _ rebound (.processExec "os.system")).mp (by decide +kernel)
  revert reported
  decide +kernel

end TinyMachine.Uops
