import Mathlib.Data.Finset.Dedup
import TinyMachine.IrCoverage
import TinyMachine.Lib.Urls
import TinyMachine.PolicyEngine
import TinyMachine.PythonParts

/-! Which hosts a Python program asks for over HTTP, and when the check of its
operations against a policy is a check of these hosts. -/
namespace TinyMachine.Uops
open Lib Ir Python

/-! ## The check of a program -/

namespace UOpsAnalyzer
variable (parse : String → Option Suite) (code : String)

/-- `UOpsAnalyzer::analyze`. What does not parse asks for nothing. -/
def analyze : List UOp :=
  match parse code with
  | some body => Uops.analyze (convertSuite body)
  | none => []

structure PolicyViolation where
  uop : UOp

/-- `UOpsAnalyzer::check`. -/
def check (policy : PolicyEngine) : Except PolicyViolation (List UOp) :=
  let uops := analyze parse code
  match uops.find? fun uop => ! policy.check uop with
  | some uop => .error ⟨uop⟩
  | none => .ok uops

end UOpsAnalyzer

/-! ## Requests of a program -/

/-- What a name stands for after an import, if it is one that the import binds.
Without another name a module goes by the first of its own. -/
def moduleMeaning (name : String) (alias_ : Alias) : Option String :=
  match alias_.asname with
  | some asname => if asname = name then some alias_.name else none
  | none => if alias_.name.toList.takeWhile (· ≠ '.') = name.toList then some name else none

def symbolMeaning (name source : String) (alias_ : Alias) : Option String :=
  if alias_.name = "*" then some (dotted [source, name])
  else if alias_.asname.getD alias_.name = name then some (dotted [source, alias_.name])
  else none

mutual
/-- What the imports in a statement make a name stand for. -/
def meaningsOf (name : String) : Stmt → List String
  | .import_ names => names.filterMap (moduleMeaning name)
  | .importFrom module names level =>
    names.filterMap (symbolMeaning name (.ofList (List.replicate (level.getD 0) '.') ++ module.getD ""))
  | .functionDef _ _ _ body _ _ _ | .classDef _ _ _ body _ _ | .with_ _ _ body => meaningsIn name body
  | .for_ _ _ _ body orelse | .while_ _ body orelse | .if_ _ body orelse =>
    meaningsIn name body ++ meaningsIn name orelse
  | .match_ _ cases => meaningsInCases name cases
  | .try_ body handlers orelse finalbody | .tryStar body handlers orelse finalbody =>
    meaningsIn name body ++ meaningsInHandlers name handlers ++ meaningsIn name orelse ++ meaningsIn name finalbody
  | _ => []

def meaningsIn (name : String) : List Stmt → List String
  | [] => []
  | stmt :: rest => meaningsOf name stmt ++ meaningsIn name rest

def meaningsInHandlers (name : String) : List (ExceptHandler Stmt) → List String
  | [] => []
  | ⟨_, _, body⟩ :: rest => meaningsIn name body ++ meaningsInHandlers name rest

def meaningsInCases (name : String) : List (MatchCase Stmt) → List String
  | [] => []
  | ⟨_, _, body⟩ :: rest => meaningsIn name body ++ meaningsInCases name rest
end

/-- A function expression goes by this path in the program. A name that no import
binds stands for itself. -/
def GoesBy (body : Suite) (func : Expr) (path : String) : Prop :=
  ∃ head rest, dottedName func = some (head :: rest) ∧
    ((meaningsIn head body = [] ∧ dotted (head :: rest) = path) ∨
      ∃ meaning ∈ meaningsIn head body, dotted (meaning :: rest) = path)

def urlLiteral (url : Url) : Expr := .constant (.str (.ofList url.text))

/-- The program calls one of the functions for HTTP with this URL, in the first
place or by its keyword. -/
def Requests (body : Suite) (url : Url) : Prop :=
  url.WellFormed ∧ ∃ func args keywords, .expr (.call func args keywords) ∈ itemsOf body ∧
    (∃ path ∈ httpCalls, GoesBy body func path) ∧
    (args.head? = some (urlLiteral url) ∨ ⟨some "url", urlLiteral url⟩ ∈ keywords)

/-- The host is a domain that the policy allows, or beneath one. -/
def Permits (policy : PolicyEngine) (host : List Char) : Prop :=
  ∃ domain ∈ policy.allowedDomains, Beneath host domain.toList

/-- An operation that is judged by its domain. -/
def OfDomain (uop : String → UOp) : Prop := uop = .dnsResolve ∨ uop = .tlsHandshake

/-- What the check of a program is for: it lets no request through to a host that
is not permitted, and judges a request as it would judge the host alone, whatever
the port and the user. -/
structure Guarded (parse : String → Option Suite) (code : String) : Prop where
  permits : ∀ policy uops, UOpsAnalyzer.check parse code policy = .ok uops →
    ∀ body ∈ parse code, ∀ url, Requests body url → Permits policy url.host
  bare : ∀ body ∈ parse code, ∀ url, Requests body url → ∀ policy : PolicyEngine, ∀ domain uop,
    OfDomain uop → extractDomain (.ofList url.text) = some domain →
    uop domain ∈ UOpsAnalyzer.analyze parse code →
    policy.check (uop (.ofList url.host)) → policy.check (uop domain)

/-! ## What the analysis takes for a host -/

/-- The calls of methods that a walk of the program makes. -/
def visits (program : IrProgram) : List Visit := recorder.walkProgram program []

def aliasOf : Visit → Option (String × String)
  | .import_ module (some alias_) => some (alias_, module)
  | _ => none

/-- The aliases after these visits, latest first. -/
def aliasesAfter (earlier : List Visit) : List (String × String) := (earlier.filterMap aliasOf).reverse

/-- What is taken for a host at a node: what stands in an `https` literal, in the
first literal of an HTTP call that has a host, and the first literal of a TLS
call. -/
def namedHosts (aliases : List (String × String)) : Visit → List String
  | .call func args =>
    match func.resolveAttrChain with
    | some chain =>
      let parts := resolveAliases aliases chain
      let texts := args.filterMap IrExpr.asStr
      (if dotted parts ∈ tlsCalls ∨ parts.getLast? = some "wrap_socket" then texts.head?.toList else [])
        ++ (if dotted parts ∈ httpCalls then (texts.findSome? extractDomain).toList else [])
    | none => []
  | .str s =>
    if occursIn "https://" s ∨ occursIn "ssl" s ∨ occursIn "tls" s then (extractDomain s).toList else []
  | _ => []

/-- The program names a host where the analysis comes by. -/
def NamesHost (body : Suite) (domain : String) : Prop :=
  ∃ earlier visit later, visits (convertSuite body) = earlier ++ visit :: later ∧
    domain ∈ namedHosts (aliasesAfter earlier) visit

/-- Every host that is requested is one that is named, or beneath it, and a URL
whose authority is named is without user and port. The name `any` does not count. -/
structure HostsNamed (body : Suite) : Prop where
  named : ∀ url, Requests body url →
    ∃ domain, NamesHost body domain ∧ domain ≠ "any" ∧ Beneath url.host domain.toList
  bare : ∀ url, Requests body url → ∀ domain, extractDomain (.ofList url.text) = some domain →
    NamesHost body domain → url.userinfo = none ∧ url.port = none

/-! ## Operations of a program, node by node -/

section Nodes
variable {aliases : List (String × String)} {visit : Visit} {uop : UOp} {domain : String}

/-- What a node adds to the operations. -/
def nodeUops (aliases : List (String × String)) (visit : Visit) : List UOp :=
  (uopsVisitor.apply ⟨[], aliases⟩ visit).uops

@[simp] theorem nodeUops_import (module : String) (alias_ : Option String) :
    nodeUops aliases (.import_ module alias_) = importUops module := by
  cases alias_ <;> rfl

@[simp] theorem nodeUops_importFrom (module symbol : String) (alias_ : Option String) :
    nodeUops aliases (.importFrom module symbol alias_) = importUops module := rfl

@[simp] theorem nodeUops_call (func : IrExpr) (args : List IrExpr) :
    nodeUops aliases (.call func args) = callUops aliases func args := rfl

@[simp] theorem nodeUops_attribute (value : IrExpr) (attr : String) :
    nodeUops aliases (.attribute value attr) = attributeUops aliases value attr := rfl

@[simp] theorem nodeUops_subscript (value slice : IrExpr) :
    nodeUops aliases (.subscript value slice) = subscriptUops value := rfl

@[simp] theorem nodeUops_str (s : String) : nodeUops aliases (.str s) = strUops s := rfl

theorem any_of_import {judged : String → UOp} (ofDomain : OfDomain judged) {module : String}
    (reported : judged domain ∈ importUops module) : domain = "any" := by
  rcases ofDomain with rfl | rfl <;> grind [importUops]

theorem apply_eq (v : UOpsVisitor) (visit : Visit) : uopsVisitor.apply v visit =
    ⟨v.uops ++ nodeUops v.moduleAliases visit, (aliasOf visit).toList ++ v.moduleAliases⟩ := by
  cases visit with
  | import_ module alias_ =>
    cases alias_ <;> simp [IrVisitor.apply, uopsVisitor, nodeUops, aliasOf, UOpsVisitor.trackImport, UOpsVisitor.push]
  | importFrom module symbol alias_ =>
    simp [IrVisitor.apply, uopsVisitor, nodeUops, aliasOf, UOpsVisitor.trackImport, UOpsVisitor.push]
  | _ => simp [IrVisitor.apply, uopsVisitor, nodeUops, aliasOf, UOpsVisitor.push]

theorem aliasesAfter_cons (visit : Visit) (earlier : List Visit) :
    aliasesAfter (visit :: earlier) = aliasesAfter earlier ++ (aliasOf visit).toList := by
  rw [aliasesAfter, aliasesAfter, List.filterMap_cons]
  cases aliasOf visit <;> simp

theorem mem_foldl_apply (order : List Visit) (v : UOpsVisitor) : uop ∈ (order.foldl uopsVisitor.apply v).uops ↔
    uop ∈ v.uops ∨ ∃ earlier visit later, order = earlier ++ visit :: later ∧
      uop ∈ nodeUops (aliasesAfter earlier ++ v.moduleAliases) visit := by
  induction order generalizing v with
  | nil => simp
  | cons head rest ih =>
    rw [List.foldl_cons, ih, apply_eq, List.mem_append, or_assoc]
    refine or_congr_right ⟨?_, ?_⟩
    · rintro (first | ⟨earlier, visit, later, rfl, found⟩)
      · exact ⟨[], head, rest, rfl, first⟩
      · refine ⟨head :: earlier, visit, later, rfl, ?_⟩
        rwa [aliasesAfter_cons, List.append_assoc]
    · rintro ⟨earlier, visit, later, split, found⟩
      rcases List.cons_eq_append_iff.mp split with ⟨rfl, same⟩ | ⟨before, rfl, rfl⟩
      · obtain ⟨rfl, rfl⟩ := List.cons.inj same
        exact .inl found
      · refine .inr ⟨before, visit, later, rfl, ?_⟩
        rwa [aliasesAfter_cons, List.append_assoc] at found

/-- The operations of a program are those of its nodes, each under the aliases
that stand before. -/
theorem mem_analyze (program : IrProgram) : uop ∈ Uops.analyze program ↔
    ∃ earlier visit later, visits program = earlier ++ visit :: later ∧
      uop ∈ nodeUops (aliasesAfter earlier) visit := by
  obtain ⟨order, calls, -⟩ := walkProgram_walks program
  simp only at calls
  have all : visits program = order := by rw [visits, calls, recorder_foldl, List.nil_append]
  rw [Uops.analyze, calls, mem_foldl_apply, all]
  simp

theorem mem_callUops {func : IrExpr} {args : List IrExpr} : uop ∈ callUops aliases func args ↔
    (∃ chain, func.resolveAttrChain = some chain ∧
      uop ∈ chainUops (resolveAliases aliases chain) (args.filterMap IrExpr.asStr)) ∨
    ∃ n, func = .name n ∧ uop ∈ directUops n (args.any isBuiltins) (args.head?.any isBase64DecodeCall) := by
  unfold callUops
  rw [List.mem_append]
  refine or_congr ?_ ?_
  · cases func.resolveAttrChain <;> simp
  · cases func <;> simp

/-- A call by a bare name is not for a domain or an address. -/
theorem not_direct {name : String} {builtins encoded : Bool} (reported : uop ∈ directUops name builtins encoded) :
    uop.uopType ∈ [.processExec, .fileRead, .fileWrite] := by
  grind [directUops, UOp.uopType]

theorem fileRead_of_attribute {value : IrExpr} {attr : String} (reported : uop ∈ attributeUops aliases value attr) :
    uop.uopType = .fileRead := by
  unfold attributeUops at reported
  split at reported
  · obtain ⟨-, found⟩ := List.mem_ite_nil_right.mp reported
    rw [List.mem_singleton.mp found]
    rfl
  · cases reported

theorem processExec_of_subscript {value : IrExpr} (reported : uop ∈ subscriptUops value) :
    uop.uopType = .processExec := by
  unfold subscriptUops at reported
  split at reported
  · obtain ⟨-, found⟩ := List.mem_ite_nil_right.mp reported
    rw [List.mem_singleton.mp found]
    rfl
  · cases reported

theorem dnsResolve_of_chain {parts texts : List String} : .dnsResolve domain ∈ chainUops parts texts ↔
    dotted parts ∈ httpCalls ∧ domain = extractDomainFromArgs texts := by
  simp [chainUops, List.mem_ite_nil_right]

theorem tlsHandshake_of_chain {parts texts : List String} : .tlsHandshake domain ∈ chainUops parts texts ↔
    ((dotted parts ∈ tlsCalls ∨ parts.getLast? = some "wrap_socket") ∧ domain = texts.head?.getD "any") ∨
      (dotted parts ∈ httpCalls ∧ domain = extractDomainFromArgs texts ∧
        ("https".toList.isPrefixOf domain.toList ∨ dotted parts = "httpx")) := by
  simp [chainUops, List.mem_ite_nil_right]
  grind

theorem tcpConnect_of_chain {parts texts : List String} {addr : SocketAddr}
    (reported : .tcpConnect addr ∈ chainUops parts texts) : addr = unspecSocket := by
  simp [chainUops, List.mem_ite_nil_right] at reported
  grind

theorem any_or_found (found : Option String) : found.getD "any" = "any" ∨ found.getD "any" ∈ found.toList := by
  cases found <;> simp

/-- An operation that is judged by its domain is for a domain that is named at
the node, or lets every domain pass. -/
theorem named_of_reported {judged : String → UOp} (ofDomain : OfDomain judged)
    (reported : judged domain ∈ nodeUops aliases visit) : domain = "any" ∨ domain ∈ namedHosts aliases visit := by
  cases visit with
  | import_ module alias_ => exact .inl (any_of_import ofDomain (nodeUops_import _ alias_ ▸ reported))
  | importFrom module symbol alias_ => exact .inl (any_of_import ofDomain reported)
  | call func args =>
    rw [nodeUops_call, mem_callUops] at reported
    rcases reported with ⟨chain, name, found⟩ | ⟨name, -, found⟩
    · simp only [namedHosts, name, List.mem_append, List.mem_ite_nil_right]
      rcases ofDomain with rfl | rfl
      · obtain ⟨http, rfl⟩ := dnsResolve_of_chain.mp found
        exact (any_or_found _).imp_right fun host => .inr ⟨http, host⟩
      · rcases tlsHandshake_of_chain.mp found with ⟨tls, rfl⟩ | ⟨http, rfl, -⟩
        · exact (any_or_found _).imp_right fun host => .inl ⟨tls, host⟩
        · exact (any_or_found _).imp_right fun host => .inr ⟨http, host⟩
    · have kind := not_direct found
      rcases ofDomain with rfl | rfl <;> simp [UOp.uopType] at kind
  | str s =>
    rw [nodeUops_str, strUops, List.mem_ite_nil_right, List.mem_singleton] at reported
    obtain ⟨noted, same⟩ := reported
    rcases ofDomain with rfl | rfl
    · cases same
    · cases same
      simp only [namedHosts, if_pos noted]
      exact any_or_found _
  | «attribute» value attr =>
    have kind := fileRead_of_attribute reported
    rcases ofDomain with rfl | rfl <;> cases kind
  | subscript value slice =>
    have kind := processExec_of_subscript reported
    rcases ofDomain with rfl | rfl <;> cases kind
  | _ => simp [nodeUops, IrVisitor.apply, uopsVisitor] at reported

/-- A domain that is named at a node is reported there. -/
theorem reported_of_named (named : domain ∈ namedHosts aliases visit) :
    ∃ judged, OfDomain judged ∧ judged domain ∈ nodeUops aliases visit := by
  cases visit with
  | call func args =>
    cases name : func.resolveAttrChain with
    | none => simp [namedHosts, name] at named
    | some chain =>
      simp only [namedHosts, name, List.mem_append, List.mem_ite_nil_right, Option.mem_toList] at named
      rcases named with ⟨tls, first⟩ | ⟨http, found⟩
      · refine ⟨.tlsHandshake, .inr rfl, ?_⟩
        rw [nodeUops_call, mem_callUops]
        exact .inl ⟨chain, name, tlsHandshake_of_chain.mpr (.inl ⟨tls, by rw [first]; rfl⟩)⟩
      · refine ⟨.dnsResolve, .inl rfl, ?_⟩
        rw [nodeUops_call, mem_callUops]
        exact .inl ⟨chain, name, dnsResolve_of_chain.mpr ⟨http, by rw [extractDomainFromArgs, found]; rfl⟩⟩
  | str s =>
    simp only [namedHosts, List.mem_ite_nil_right, Option.mem_toList] at named
    refine ⟨.tlsHandshake, .inr rfl, ?_⟩
    rw [nodeUops_str, strUops, if_pos named.1, named.2]
    exact List.mem_singleton_self _
  | _ => simp [namedHosts] at named

/-- An address that is reported is the unspecified one. -/
theorem unspec_of_reported {addr : SocketAddr} (reported : .tcpConnect addr ∈ nodeUops aliases visit) :
    addr = unspecSocket := by
  cases visit with
  | import_ module alias_ =>
    rw [nodeUops_import, importUops] at reported
    grind
  | importFrom module symbol alias_ =>
    rw [nodeUops_importFrom, importUops] at reported
    grind
  | call func args =>
    rw [nodeUops_call, mem_callUops] at reported
    rcases reported with ⟨chain, -, found⟩ | ⟨name, -, found⟩
    · exact tcpConnect_of_chain found
    · have kind := not_direct found
      simp [UOp.uopType] at kind
  | str s =>
    rw [nodeUops_str, strUops] at reported
    grind
  | «attribute» value attr => cases fileRead_of_attribute reported
  | subscript value slice => cases processExec_of_subscript reported
  | _ => simp [nodeUops, IrVisitor.apply, uopsVisitor] at reported

end Nodes

/-! ## The host of a URL -/

section Host
variable {url : Url}

theorem not_whitespace {c : Char} (visible : Url.isVisible c) : isWhitespace c = false := by
  simp only [Url.isVisible, Bool.and_eq_true, decide_eq_true_eq] at visible
  simp [isWhitespace]
  omega

theorem trim_visible {text : List Char} (visible : ∀ c ∈ text, Url.isVisible c) : trim text = text := by
  have stays : ∀ part : List Char, (∀ c ∈ part, Url.isVisible c) → part.dropWhile isWhitespace = part := by
    intro part visible
    cases part with
    | nil => rfl
    | cons c rest => simp [not_whitespace (visible c List.mem_cons_self)]
  rw [trim, stays text visible, stays _ (by simpa using visible), List.reverse_reverse]

theorem hostOf_url (formed : url.WellFormed) : hostOf (url.authority ++ url.rest) = some (.ofList url.authority) := by
  have inside : ∀ c ∈ url.authority, c ≠ '/' ∧ c ≠ '?' ∧ c ≠ '#' ∧ c ≠ ' ' := by
    intro c there
    have char := Url.authority_chars formed c there
    refine ⟨?_, ?_, ?_, ?_⟩ <;> rintro rfl <;> exact absurd char (by decide)
  have stops : ((url.rest.takeWhile (· ≠ '/')).takeWhile (· ≠ '?')).takeWhile (· ≠ '#') = [] := by
    cases rest : url.rest with
    | nil => rfl
    | cons c tail =>
      rcases formed.start c (by simp [rest]) with rfl | rfl | rfl <;> simp
  have host : (((url.authority ++ url.rest).takeWhile (· ≠ '/')).takeWhile (· ≠ '?')).takeWhile (· ≠ '#') =
      url.authority := by
    rw [List.takeWhile_append_of_pos (by simpa using fun c there => (inside c there).1),
      List.takeWhile_append_of_pos (by simpa using fun c there => (inside c there).2.1),
      List.takeWhile_append_of_pos (by simpa using fun c there => (inside c there).2.2.1), stops, List.append_nil]
  have noBlank : ' ' ∉ url.authority := fun there => (inside _ there).2.2.2 rfl
  rw [hostOf, host, if_pos ⟨Url.authority_ne_nil formed, noBlank⟩]

theorem colon_not_in_scheme (formed : url.WellFormed) : ':' ∉ url.scheme := by
  intro there
  have low : ':' ∈ Url.lower url.scheme := List.mem_map_of_mem there
  rcases formed.scheme with plain | secure
  · rw [plain] at low
    revert low
    decide
  · rw [secure] at low
    revert low
    decide

/-- A scheme is stripped where it is the one at the start. -/
theorem stripPrefix_scheme (name : List Char) {scheme tail : List Char} (noColon : ':' ∉ name)
    (noColon' : ':' ∉ scheme) : stripPrefix (name ++ "://".toList) (scheme ++ "://".toList ++ tail) =
      if scheme = name then some tail else none := by
  by_cases same : scheme = name
  · rw [if_pos same, same]
    simp [stripPrefix]
  · have other : ¬ (name ++ "://".toList) <+: scheme ++ "://".toList ++ tail := by
      rintro ⟨rest, equal⟩
      have until_ : ∀ {part more : List Char}, ':' ∉ part →
          (part ++ "://".toList ++ more).takeWhile (· ≠ ':') = part := by
        intro part more without
        have others : ∀ c ∈ part, decide (c ≠ ':') := by
          simpa using fun c there => ne_of_mem_of_not_mem there without
        rw [List.append_assoc, List.takeWhile_append_of_pos others]
        simp
      have equal' := congrArg (List.takeWhile (· ≠ ':')) equal
      rw [until_ noColon, until_ noColon'] at equal'
      exact same equal'.symm
    rw [stripPrefix, if_neg (by simpa using other), if_neg same]

/-- Only a scheme in small letters is found. -/
theorem extractDomain_url (formed : url.WellFormed) : extractDomain (.ofList url.text) =
    if url.scheme = "https".toList ∨ url.scheme = "http".toList then some (.ofList url.authority) else none := by
  have noColon := colon_not_in_scheme formed
  have secure : stripPrefix "https://".toList url.text = _ :=
    stripPrefix_scheme "https".toList (by decide) noColon
  have plain : stripPrefix "http://".toList url.text = _ :=
    stripPrefix_scheme "http".toList (by decide) noColon
  rw [extractDomain, String.toList_ofList, trim_visible (Url.text_visible formed)]
  simp only [List.findSome?_cons, secure, plain, List.findSome?_nil]
  by_cases first : url.scheme = "https".toList
  · rw [if_pos first, if_pos (Or.inl first), Option.bind_some, hostOf_url formed]
  · rw [if_neg first, Option.bind_none]
    by_cases second : url.scheme = "http".toList
    · rw [if_pos second, if_pos (Or.inr second), Option.bind_some, hostOf_url formed]
    · rw [if_neg second, if_neg (not_or.mpr ⟨first, second⟩), Option.bind_none]

theorem authority_of_found {domain : String} (formed : url.WellFormed)
    (found : extractDomain (.ofList url.text) = some domain) : domain = .ofList url.authority := by
  rw [extractDomain_url formed] at found
  split at found
  · exact (Option.some.inj found).symm
  · cases found

end Host

/-! ## Policies -/

section Policies
variable {parse : String → Option Suite} {code : String} {policy : PolicyEngine} {judged : String → UOp}
  {domain : String} {uops : List UOp}

theorem check_eq_ok : UOpsAnalyzer.check parse code policy = .ok uops ↔
    UOpsAnalyzer.analyze parse code = uops ∧ ∀ uop ∈ uops, policy.check uop := by
  rw [UOpsAnalyzer.check]
  cases found : (UOpsAnalyzer.analyze parse code).find? fun uop => ! policy.check uop with
  | some uop =>
    have member := List.mem_of_find?_eq_some found
    have refused := List.find?_some found
    simp only [reduceCtorEq, false_iff, not_and, Bool.not_eq_true'] at refused ⊢
    rintro rfl every
    exact absurd (every uop member) (by simp [refused])
  | none =>
    simp only [Except.ok.injEq]
    refine ⟨?_, And.left⟩
    rintro rfl
    exact ⟨rfl, by simpa using found⟩

theorem check_domain (ofDomain : OfDomain judged) : policy.check (judged domain) ↔
    (judged domain).uopType ∈ policy.allowedUops ∧
      (domain = "any" ∨ ∃ allowed ∈ policy.allowedDomains,
        domain = allowed ∨ ('.' :: allowed.toList) <:+ domain.toList) := by
  rcases ofDomain with rfl | rfl <;> simp [PolicyEngine.check, UOp.uopType]

theorem type_of_judged (ofDomain : OfDomain judged) (domain other : String) :
    (judged domain).uopType = (judged other).uopType := by
  rcases ofDomain with rfl | rfl <;> rfl

/-- A domain that passes by its name is a domain that is allowed, or beneath one. -/
theorem permits_of_check (ofDomain : OfDomain judged) (passes : policy.check (judged domain))
    (other : domain ≠ "any") : Permits policy domain.toList := by
  obtain ⟨-, any_ | ⟨allowed, member, exact_⟩⟩ := (check_domain ofDomain).mp passes
  · exact absurd any_ other
  · exact ⟨allowed, member, beneath_of_exact (exact_.imp_left (congrArg _))⟩

def domainOf : UOp → Option String
  | .dnsResolve domain | .tlsHandshake domain => some domain
  | _ => none

def pathOf : UOp → Option String
  | .fileRead path | .fileWrite path => some path
  | _ => none

/-- The policy that allows what is asked for and, of all names that are hosts,
nothing else. -/
def tailored (uops : List UOp) : PolicyEngine where
  allowedUops := (uops.map UOp.uopType).toFinset
  allowedDomains := (uops.filterMap domainOf).filter (· ≠ "any")
  allowedPaths := uops.filterMap pathOf
  allowedSubnets := []

theorem tailored_domain (ofDomain : OfDomain judged) (asked : judged domain ∈ uops) :
    (tailored uops).check (judged domain) := by
  refine (check_domain ofDomain).mpr ⟨by simp [tailored, List.mem_map_of_mem asked], ?_⟩
  by_cases wild : domain = "any"
  · exact .inl wild
  · refine .inr ⟨domain, ?_, .inl rfl⟩
    have found : domainOf (judged domain) = some domain := by rcases ofDomain with rfl | rfl <;> rfl
    simpa [tailored, wild] using ⟨_, asked, found⟩

theorem tailored_admits (unspec : ∀ addr, .tcpConnect addr ∈ uops → addr = unspecSocket) :
    ∀ uop ∈ uops, (tailored uops).check uop := by
  intro uop asked
  have allowed : uop.uopType ∈ (tailored uops).allowedUops := by simp [tailored, List.mem_map_of_mem asked]
  cases uop with
  | dnsResolve domain => exact tailored_domain (.inl rfl) asked
  | tlsHandshake domain => exact tailored_domain (.inr rfl) asked
  | tcpConnect addr =>
    cases unspec addr asked
    rw [PolicyEngine.check, if_neg (not_not.mpr allowed)]
    rfl
  | fileRead path | fileWrite path =>
    have member : path ∈ (tailored uops).allowedPaths := List.mem_filterMap.mpr ⟨_, asked, rfl⟩
    rw [PolicyEngine.check, if_neg (not_not.mpr allowed), List.any_eq_true]
    exact ⟨path, member, by simp⟩
  | _ => simp [PolicyEngine.check, allowed]

/-- The policy that allows this domain only. -/
def allowingOnly (domain : String) (type : UOpType) : PolicyEngine :=
  (PolicyEngine.new.allowUop type).allowDomain domain

end Policies

/-! ## Guarded programs -/

section Guarded
variable {parse : String → Option Suite} {code : String} {body : Suite} {domain : String} {url : Url}

theorem analyze_of_parse (parsed : parse code = some body) :
    UOpsAnalyzer.analyze parse code = Uops.analyze (convertSuite body) := by
  rw [UOpsAnalyzer.analyze, parsed]

theorem reported_of_namesHost (parsed : parse code = some body) (names : NamesHost body domain) :
    ∃ judged, OfDomain judged ∧ judged domain ∈ UOpsAnalyzer.analyze parse code := by
  obtain ⟨earlier, visit, later, split, named⟩ := names
  obtain ⟨judged, ofDomain, reported⟩ := reported_of_named named
  refine ⟨judged, ofDomain, ?_⟩
  rw [analyze_of_parse parsed, mem_analyze]
  exact ⟨earlier, visit, later, split, reported⟩

theorem namesHost_of_reported {judged : String → UOp} (parsed : parse code = some body) (ofDomain : OfDomain judged)
    (reported : judged domain ∈ UOpsAnalyzer.analyze parse code) : domain = "any" ∨ NamesHost body domain := by
  rw [analyze_of_parse parsed, mem_analyze] at reported
  obtain ⟨earlier, visit, later, split, found⟩ := reported
  exact (named_of_reported ofDomain found).imp_right fun named => ⟨earlier, visit, later, split, named⟩

theorem unspec_of_analyze {addr : SocketAddr} (reported : .tcpConnect addr ∈ UOpsAnalyzer.analyze parse code) :
    addr = unspecSocket := by
  cases parsed : parse code with
  | none => simp [UOpsAnalyzer.analyze, parsed] at reported
  | some body =>
    rw [analyze_of_parse parsed, mem_analyze] at reported
    obtain ⟨earlier, visit, later, -, found⟩ := reported
    exact unspec_of_reported found

theorem check_tailored (parse : String → Option Suite) (code : String) :
    UOpsAnalyzer.check parse code (tailored (UOpsAnalyzer.analyze parse code)) =
      .ok (UOpsAnalyzer.analyze parse code) :=
  check_eq_ok.mpr ⟨rfl, tailored_admits fun _ => unspec_of_analyze⟩

/-- A host beneath one that is named is judged with it. -/
theorem permits_of_named (parsed : parse code = some body) (names : NamesHost body domain) (other : domain ≠ "any")
    (beneath : Beneath url.host domain.toList) {policy : PolicyEngine} {uops : List UOp}
    (ok : UOpsAnalyzer.check parse code policy = .ok uops) : Permits policy url.host := by
  obtain ⟨rfl, every⟩ := check_eq_ok.mp ok
  obtain ⟨judged, ofDomain, reported⟩ := reported_of_namesHost parsed names
  obtain ⟨allowed, member, above⟩ := permits_of_check ofDomain (every _ reported) other
  exact ⟨allowed, member, beneath.trans above⟩

/-- What passes under the tailored policy is named. -/
theorem named_of_permits (parsed : parse code = some body)
    (permits : Permits (tailored (UOpsAnalyzer.analyze parse code)) url.host) :
    ∃ domain, NamesHost body domain ∧ domain ≠ "any" ∧ Beneath url.host domain.toList := by
  obtain ⟨domain, member, beneath⟩ := permits
  obtain ⟨asked, other⟩ := List.mem_filter.mp member
  obtain ⟨uop, reported, found⟩ := List.mem_filterMap.mp asked
  have other : domain ≠ "any" := by simpa using other
  have names : domain = "any" ∨ NamesHost body domain := by
    cases uop with
    | dnsResolve _ =>
      cases found
      exact namesHost_of_reported parsed (.inl rfl) reported
    | tlsHandshake _ =>
      cases found
      exact namesHost_of_reported parsed (.inr rfl) reported
    | _ => cases found
  exact ⟨domain, names.resolve_left other, other, beneath⟩

/-- A URL that is judged as its host, under every policy, has no user and no port. -/
theorem bare_of_judged {judged : String → UOp} (formed : url.WellFormed) (ofDomain : OfDomain judged)
    (same : ∀ policy : PolicyEngine, policy.check (judged (.ofList url.host)) →
      policy.check (judged (.ofList url.authority))) : url.userinfo = none ∧ url.port = none := by
  have allowed := same (allowingOnly (.ofList url.host) (judged (.ofList url.host)).uopType)
    ((check_domain ofDomain).mpr ⟨by simp [allowingOnly, PolicyEngine.allowUop, PolicyEngine.allowDomain],
      .inr ⟨.ofList url.host, by simp [allowingOnly, PolicyEngine.allowDomain], .inl rfl⟩⟩)
  obtain ⟨-, wild | ⟨domain, member, exact_⟩⟩ := (check_domain ofDomain).mp allowed
  · have letters : url.authority = "any".toList := by simpa using congrArg String.toList wild
    exact Url.bare_of_unmarked (letters ▸ by decide) (letters ▸ by decide)
  · have host : domain = .ofList url.host := by
      simpa [allowingOnly, PolicyEngine.allowDomain, PolicyEngine.allowUop, PolicyEngine.new] using member
    subst host
    rcases exact_ with equal | beneath
    · exact Url.bare_of_authority (by simpa using congrArg String.toList equal)
    · exact absurd (by simpa using beneath) (Url.not_subdomain formed)

theorem hostsNamed_of_guarded (guarded : Guarded parse code) (parsed : parse code = some body) : HostsNamed body := by
  refine ⟨fun url requested => ?_, fun url requested domain found names => ?_⟩
  · exact named_of_permits parsed (guarded.permits _ _ (check_tailored parse code) body parsed url requested)
  · obtain ⟨judged, ofDomain, reported⟩ := reported_of_namesHost parsed names
    cases authority_of_found requested.1 found
    exact bare_of_judged requested.1 ofDomain fun policy =>
      guarded.bare body parsed url requested policy _ judged ofDomain found reported

theorem guarded_of_hostsNamed (named : ∀ body ∈ parse code, HostsNamed body) : Guarded parse code := by
  refine ⟨fun policy uops ok body parsed url requested => ?_, ?_⟩
  · obtain ⟨domain, names, other, beneath⟩ := (named body parsed).named url requested
    exact permits_of_named parsed names other beneath ok
  · intro body parsed url requested policy domain judged ofDomain found reported passes
    rcases namesHost_of_reported parsed ofDomain reported with rfl | names
    · have allowed := ((check_domain ofDomain).mp passes).1
      exact (check_domain ofDomain).mpr ⟨type_of_judged ofDomain _ _ ▸ allowed, .inl rfl⟩
    · have bare := (named body parsed).bare url requested domain found names
      rw [authority_of_found requested.1 found, Url.authority_of_bare bare]
      exact passes

end Guarded

/-- The check of a program guards its requests just when the hosts that it asks
for are named where the analysis comes by, as they are. -/
theorem guarded_iff_hosts_named (parse : String → Option Suite) (code : String) :
    Guarded parse code ↔ ∀ body ∈ parse code, HostsNamed body :=
  ⟨fun guarded _ parsed => hostsNamed_of_guarded guarded parsed, guarded_of_hostsNamed⟩

namespace Unchecked

/-- A host that no policy has to allow, under a scheme in capitals. -/
def url : Url := ⟨"HTTPS".toList, none, "evil.com".toList, none, []⟩

def body : Suite :=
  [.import_ [⟨"requests", none⟩], .expr (.call (.attribute (.name "requests") "get") [urlLiteral url] [])]

def policy : PolicyEngine := (PolicyEngine.new.allowUop .dnsResolve).allowUop .tcpConnect

theorem requested : Requests body url := by
  have host : url.host ≠ [] ∧ ∀ c ∈ url.host, Url.isNameChar c := ⟨by simp [url], List.all_eq_true.mp rfl⟩
  have formed : url.WellFormed :=
    ⟨.inr rfl, by simp [url], .inl host, by simp [url], by simp [url], by simp [url]⟩
  refine ⟨formed, .attribute (.name "requests") "get", [urlLiteral url], [], ?_,
    ⟨"requests.get", ?_, ?_⟩, .inl rfl⟩
  · exact List.mem_cons_of_mem _ List.mem_cons_self
  · decide
  · exact ⟨"requests", ["get"], rfl, .inr ⟨"requests", by decide, by decide⟩⟩

theorem passes : UOpsAnalyzer.check (fun _ => some body) "" policy =
    .ok [.dnsResolve "any", .tcpConnect unspecSocket] := rfl

end Unchecked

theorem capital_scheme_is_not_checked :
    ¬ ∀ (parse : String → Option Suite) (code : String), Guarded parse code := by
  intro every
  obtain ⟨domain, member, -⟩ :=
    (every (fun _ => some Unchecked.body) "").permits _ _ Unchecked.passes _ rfl _ Unchecked.requested
  cases member

/-! ## Plain requests -/

/-- A URL whose host is read off as it is: the scheme in small letters, neither a
user nor a port, and not the name that lets every domain pass. -/
structure Plain (url : Url) : Prop where
  scheme : url.scheme = "https".toList
  bare : url.userinfo = none ∧ url.port = none
  other : url.host ≠ "any".toList

section Plain
variable {parse : String → Option Suite} {code : String} {body : Suite} {url : Url}

/-- The literal of a plain URL names its host, wherever the analysis comes by it. -/
theorem names_of_plain (formed : url.WellFormed) (plain : Plain url)
    (comesBy : .str (.ofList url.text) ∈ visits (convertSuite body)) : NamesHost body (.ofList url.host) := by
  obtain ⟨earlier, later, split⟩ := List.append_of_mem comesBy
  refine ⟨earlier, _, later, split, ?_⟩
  have noted : occursIn "https://" (.ofList url.text) := by
    have start : "https://".toList <+: url.text := by
      rw [Url.text, plain.scheme]
      exact ⟨_, rfl⟩
    simpa [occursIn] using start.isInfix
  rw [namedHosts, if_pos (.inl noted), Option.mem_toList, extractDomain_url formed, if_pos (.inl plain.scheme),
    Url.authority_of_bare plain.bare]

/-- The check guards a program that asks with plain URLs only, each where the
analysis comes by. -/
theorem guarded_of_plain (plain : ∀ body ∈ parse code, ∀ url, Requests body url →
    Plain url ∧ .str (.ofList url.text) ∈ visits (convertSuite body)) : Guarded parse code := by
  refine guarded_of_hostsNamed fun body parsed => ⟨fun url requested => ?_, fun url requested _ _ _ => ?_⟩
  · obtain ⟨plainUrl, comesBy⟩ := plain body parsed url requested
    refine ⟨.ofList url.host, names_of_plain requested.1 plainUrl comesBy, ?_, .inl (by simp)⟩
    intro wild
    exact plainUrl.other (by simpa using congrArg String.toList wild)
  · exact (plain body parsed url requested).1.bare

end Plain
end TinyMachine.Uops
