import TinyMachine.IrWalk
import Mathlib.Data.List.DropRight
import Mathlib.Data.List.Infix

/-! The policy analysis: a visitor that lists the operations a program asks
for, by the names its calls and attributes go by. -/
namespace TinyMachine.Uops
open Ir

inductive IpAddr where
  | v4 (addr : UInt32)
  | v6 (addr : BitVec 128)
  deriving DecidableEq, Repr

structure SocketAddr where
  ip : IpAddr
  port : UInt16
  deriving DecidableEq, Repr

def unspecSocket : SocketAddr := ⟨.v4 0, 0⟩

/-- The smallest unit of the analysis. -/
inductive UOp where
  | mmap (size : UInt64)
  | cpuStateRestore
  | entropyReseed
  | dnsResolve (domain : String)
  | tcpConnect (addr : SocketAddr)
  | tlsHandshake (domain : String)
  | fileRead (path : String)
  | fileWrite (path : String)
  | processExec (name : String)
  | gpuAlloc (size : UInt64)
  deriving DecidableEq, Repr

/-! ## Hosts in string literals -/

/-- The code points with the White_Space property. -/
def isWhitespace (c : Char) : Bool :=
  (0x09 ≤ c.toNat && c.toNat ≤ 0x0D) || (0x2000 ≤ c.toNat && c.toNat ≤ 0x200A)
    || [0x20, 0x85, 0xA0, 0x1680, 0x2028, 0x2029, 0x202F, 0x205F, 0x3000].contains c.toNat

def trim (s : List Char) : List Char :=
  ((s.dropWhile isWhitespace).reverse.dropWhile isWhitespace).reverse

theorem infix_trim (text : List Char) : trim text <:+: text :=
  (List.rdropWhile_prefix _ _).isInfix.trans (List.dropWhile_suffix _).isInfix

def stripPrefix (start s : List Char) : Option (List Char) :=
  if start.isPrefixOf s then some (s.drop start.length) else none

/-- What stands before the first `/`, `?` or `#`, unless it is empty or has a blank. -/
def hostOf (rest : List Char) : Option String :=
  let path := rest.takeWhile (· ≠ '/')
  let query := path.takeWhile (· ≠ '?')
  let host := query.takeWhile (· ≠ '#')
  if host ≠ [] ∧ ' ' ∉ host then some (String.ofList host) else none

def extractDomain (s : String) : Option String :=
  ["https://", "http://"].findSome? fun scheme =>
    (stripPrefix scheme.toList (trim s.toList)).bind hostOf

/-- The first literal that has a host. -/
def extractDomainFromArgs (texts : List String) : String :=
  (texts.findSome? extractDomain).getD "any"

/-- The text occurs in the string. -/
def occursIn (text s : String) : Bool := decide (text.toList <:+: s.toList)

/-! ## What is reported for each kind of node -/

def importUops (module : String) : List UOp :=
  (if module ∈ ["ctypes", "cffi"] then [.processExec "bypass:ctypes_cffi"]
    else if module = "importlib" then [.processExec "bypass:importlib"]
    else if module = "ssl" then [.tlsHandshake "any"]
    else if module ∈ ["torch", "torchvision", "torchaudio", "cuda"] then [.gpuAlloc 0]
    else if module ∈ ["tinygrad", "extra"] then [.gpuAlloc 0]
    else [])
  ++ (if module = "builtins" then [.processExec "bypass:builtins_access"] else [])

def dotted (parts : List String) : String := ".".intercalate parts

def processCalls : List String :=
  ["os.system", "os.popen", "subprocess.run", "subprocess.Popen", "subprocess.call",
    "subprocess.check_call", "subprocess.check_output"]

def tlsCalls : List String := ["ssl.wrap_socket", "ssl.create_default_context"]

def httpCalls : List String :=
  ["requests.get", "requests.post", "requests.put", "requests.delete", "httpx.get", "httpx.post"]

def socketCalls : List String := ["socket.socket", "socket.create_connection"]

def serverCalls : List String := ["app.run", "app.listen", "Application.run", "serve_forever"]

def gpuRoots : List String := ["torch", "cuda", "tinygrad"]

/-- A call by a chain of names, aliases resolved, with the string literals among
its arguments. -/
def chainUops (parts texts : List String) : List UOp :=
  let name := dotted parts
  (if name ∈ processCalls then [.processExec name] else [])
  ++ (if name ∈ tlsCalls ∨ parts.getLast? = some "wrap_socket" then
      [.tlsHandshake (texts.head?.getD "any")] else [])
  ++ (if name ∈ httpCalls then
      let domain := extractDomainFromArgs texts
      [.dnsResolve domain, .tcpConnect unspecSocket]
        ++ (if "https".toList.isPrefixOf domain.toList ∨ name = "httpx" then
            [.tlsHandshake domain] else [])
    else [])
  ++ (if name ∈ socketCalls then [.tcpConnect unspecSocket] else [])
  ++ (if name ∈ serverCalls then [.tcpConnect unspecSocket] else [])
  ++ (if ∃ root ∈ parts.head?, root ∈ gpuRoots then [.gpuAlloc 0] else [])

def evalCalls : List String := ["exec", "eval", "compile"]

/-- A call by a bare name; the flags say whether an argument is `__builtins__`
and whether the first one decodes base64. -/
def directUops (name : String) (builtins encoded : Bool) : List UOp :=
  if name ∈ evalCalls then
    .processExec ("bypass:" ++ name)
      :: (if encoded then [.processExec "bypass:encoded_payload"] else [])
  else if name = "__import__" then [.processExec "bypass:__import__"]
  else if name = "getattr" then
    if builtins then [.processExec "bypass:builtins_dynamic"] else []
  else if name = "open" then [.fileRead "unknown", .fileWrite "unknown"]
  else []

def base64Calls : List String :=
  ["base64.b64decode", "base64.decodebytes", "base64.decodestring", "base64.b32decode",
    "base64.b16decode"]

def isBase64DecodeCall : IrExpr → Bool
  | .call func _ _ =>
    match func.resolveAttrChain with
    | some chain => decide (dotted chain ∈ base64Calls)
    | none => false
  | _ => false

def isBuiltins : IrExpr → Bool
  | .name n => n == "__builtins__"
  | _ => false

def strUops (s : String) : List UOp :=
  if occursIn "https://" s ∨ occursIn "ssl" s ∨ occursIn "tls" s then
    [.tlsHandshake ((extractDomain s).getD "any")]
  else
    []

/-! ## The visitor -/

/-- The operations found, and the aliases recorded, latest first. -/
structure UOpsVisitor where
  uops : List UOp
  moduleAliases : List (String × String)
  deriving DecidableEq, Repr

def UOpsVisitor.push (v : UOpsVisitor) (found : List UOp) : UOpsVisitor :=
  { v with uops := v.uops ++ found }

def UOpsVisitor.trackImport (v : UOpsVisitor) (module : String) (alias_ : Option String) :
    UOpsVisitor :=
  match alias_ with
  | some a => { v.push (importUops module) with moduleAliases := (a, module) :: v.moduleAliases }
  | none => v.push (importUops module)

/-- Only the first name of a chain can be an alias. -/
def resolveAliases (aliases : List (String × String)) : List String → List String
  | [] => []
  | head :: rest => (aliases.lookup head).getD head :: rest

def callUops (aliases : List (String × String)) (func : IrExpr) (args : List IrExpr) : List UOp :=
  (match func.resolveAttrChain with
    | some chain => chainUops (resolveAliases aliases chain) (args.filterMap IrExpr.asStr)
    | none => [])
  ++ (match func with
    | .name n => directUops n (args.any isBuiltins) (args.head?.any isBase64DecodeCall)
    | _ => [])

/-- A name whose `environ` is taken for the environment. -/
def takenForOs (aliases : List (String × String)) (n : String) : Bool :=
  n = "os" ∨ n = "operating_system" ∨ aliases.lookup n = some "os"

def attributeUops (aliases : List (String × String)) (value : IrExpr) (attr : String) : List UOp :=
  match value with
  | .name n =>
    if attr = "environ" ∧ takenForOs aliases n then [.fileRead "/proc/self/environ"] else []
  | _ => []

/-- The names of `__builtins__.__dict__`. -/
def isBuiltinsDict : List String → Bool
  | first :: second :: _ => first == "__builtins__" && second == "__dict__"
  | _ => false

def subscriptUops (value : IrExpr) : List UOp :=
  match value.resolveAttrChain with
  | some chain => if isBuiltinsDict chain then [.processExec "bypass:builtins_dict"] else []
  | none => []

def uopsVisitor : IrVisitor UOpsVisitor where
  visitImport module alias_ v := v.trackImport module alias_
  visitImportFrom module _ _ v := v.trackImport module none
  visitCall func args v := v.push (callUops v.moduleAliases func args)
  visitAttribute value attr v := v.push (attributeUops v.moduleAliases value attr)
  visitSubscript value _ v := v.push (subscriptUops value)
  visitStr s v := v.push (strUops s)

/-- The analysis of a parsed program. -/
def analyze (program : IrProgram) : List UOp :=
  (uopsVisitor.walkProgram program ⟨[], []⟩).uops

end TinyMachine.Uops
