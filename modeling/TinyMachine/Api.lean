import Mathlib.Tactic.TypeStar

/-! What the backends share with their callers: the errors they answer with,
and the variants they are asked for. -/
namespace TinyMachine.Api

/-- The errors of the sandbox backends. -/
inductive ApiError where
  | sandbox (message : String)
  | config (message : String)
  | unsupported (message : String)
  | resourceLimit (message : String)
  deriving DecidableEq, Repr

def ApiError.display : ApiError → String
  | sandbox message => s!"Sandbox error: {message}"
  | config message => s!"Config error: {message}"
  | unsupported message => s!"Unsupported: {message}"
  | resourceLimit message => s!"Resource limit exceeded: {message}"

structure Variant where
  lang : String
  variant : String
  kernelProfile : String
  deriving DecidableEq, Repr

end TinyMachine.Api
