import TinyMachine.Api
import TinyMachine.Uops
import TinyMachine.Lib.Fallible
import TinyMachine.Lib.Json
import TinyMachine.Lib.Overflow
import TinyMachine.Lib.Runs

/-! The worker process that runs code with the GPU of the host: the messages,
the pipe that carries the replies, and the calls of the backend that owns them.
A call that waits for ever on the pipe has no result. -/
namespace TinyMachine.HostGpu
open Lib Api

/-! ## Messages -/

inductive WorkerMessage where
  | ready (device : String)
  | result (output : String) (error : Option String) (exitCode : Int32)
  | pong
  | error (msg : String)
  deriving DecidableEq, Repr

inductive HostMessage where
  | exec (code : String) (timeout : Nat)
  | ping
  | shutdown

/-- The line that asks for it, without the line end. -/
def HostMessage.toJson : HostMessage → String
  | exec code timeout =>
    "\x7b\"type\":\"exec\",\"code\":" ++ String.ofList (Json.quoted code.toList) ++ ",\"timeout\":" ++
      toString timeout ++ "\x7d"
  | ping => "\x7b\"type\":\"ping\"\x7d"
  | shutdown => "\x7b\"type\":\"shutdown\"\x7d"

inductive HostGpuError where
  | spawnWorker (e : String)
  | workerNotReady (timeoutMs : Nat) (detail : String)
  | workerError (msg : String)
  | timeout (secs : Nat)
  | json (e : String)
  | workerDied
  | workerIo (e : String)
  | notInitialized
  deriving DecidableEq, Repr

def HostGpuError.display : HostGpuError → String
  | spawnWorker e => s!"Failed to spawn GPU worker: {e}"
  | workerNotReady timeoutMs detail => s!"GPU worker did not become ready within {timeoutMs}ms: {detail}"
  | workerError msg => s!"GPU worker error: {msg}"
  | timeout secs => s!"Code execution timed out after {secs}s"
  | json e => s!"JSON error: {e}"
  | workerDied => "Worker process died unexpectedly"
  | workerIo e => s!"Worker I/O error: {e}"
  | notInitialized => "HostGpuFork not initialized — call init() first"

def execTimeoutSecs : Nat := 30
def workerStartupTimeoutMs : Nat := 10000

/-- What the backend is compiled with: the parser of messages, the way texts
are quoted in debug output, and the build profile. -/
structure Build where
  fromStr : String → Except String WorkerMessage
  quoteDebug : String → String
  overflow : Overflow

def WorkerMessage.debug (build : Build) : WorkerMessage → String
  | ready device => s!"Ready \x7b device: {build.quoteDebug device} \x7d"
  | result output stderr exitCode =>
    let shown := (stderr.map fun e => s!"Some({build.quoteDebug e})").getD "None"
    s!"Result \x7b output: {build.quoteDebug output}, error: {shown}, exit_code: {exitCode} \x7d"
  | pong => "Pong"
  | error msg => s!"Error \x7b msg: {build.quoteDebug msg} \x7d"

/-! ## The pipe of the replies -/

/-- A byte in the pipe, and the call that the worker wrote it for. -/
structure Written where
  byte : UInt8
  call : Option Nat
  deriving DecidableEq, Repr

/-- What is not read yet, in the buffer of the reader and behind it. -/
structure Pipe where
  unread : List Written
  closed : Bool
  deriving DecidableEq, Repr

def Pipe.receive (pipe : Pipe) (arrives : List Written) (exits : Bool) : Pipe :=
  if pipe.closed then pipe else ⟨pipe.unread ++ arrives, exits⟩

def lineTerminator : UInt8 := 10

/-- The bytes up to the end of the first line, or up to the end of a pipe that
is closed, and those behind; nothing when there is more to wait for. -/
def readLine (closed : Bool) : List Written → Option (List Written × List Written)
  | [] => if closed then some ([], []) else none
  | first :: rest =>
    if first.byte = lineTerminator then some ([first], rest)
    else (readLine closed rest).map fun (line, behind) => (first :: line, behind)

def textOf (line : List Written) : Option String := String.fromUTF8? ⟨(line.map (·.byte)).toArray⟩

def invalidUtf8 : String := "stream did not contain valid UTF-8"

/-- The message on a line. -/
def messageOn (build : Build) (line : List Written) : Except HostGpuError WorkerMessage :=
  match textOf line with
  | none => .error (.workerIo invalidUtf8)
  | some text =>
    let text := Uops.trim text.toList
    if text = [] then .error .workerDied else (build.fromStr (String.ofList text)).mapError .json

/-! ## The backend -/

/-- `stdin` holds the lines that the worker was sent. -/
structure HostGpuForkBackend where
  worker : Bool
  stdin : Option (List String)
  protoReader : Option Pipe
  deviceName : Option String
  initialized : Bool
  variant : Option Variant
  deriving DecidableEq, Repr

namespace HostGpuForkBackend

def new : HostGpuForkBackend := ⟨false, none, none, none, false, none⟩

/-- What is met when a worker is spawned: the handshake looks at its clock
before it reads a line, and has `patience` looks within the limit. -/
structure SpawnMet where
  pipe : Except String Unit
  spawn : Except String Unit
  patience : Nat
  arrives : List Written
  exits : Bool

/-- The lines before `ready` that are no message, or another one, are skipped. -/
def awaitReady (build : Build) : Nat → Pipe → Option (Except HostGpuError (String × Pipe))
  | 0, _ =>
    some (.error (.workerNotReady workerStartupTimeoutMs
      "Timed out waiting for READY signal. Check python3 and tinygrad installation."))
  | patience + 1, pipe =>
    match readLine pipe.closed pipe.unread with
    | none => none
    | some ([], _) => some (.error .workerDied)
    | some (line, behind) =>
      match textOf line with
      | none => some (.error (.workerIo invalidUtf8))
      | some text =>
        match build.fromStr (String.ofList (Uops.trim text.toList)) with
        | .error _ => awaitReady build patience { pipe with unread := behind }
        | .ok (.ready device) => some (.ok (device, { pipe with unread := behind }))
        | .ok (.error msg) => some (.error (.workerError msg))
        | .ok _ => awaitReady build patience { pipe with unread := behind }

def spawnWorker (build : Build) (backend : HostGpuForkBackend) (met : SpawnMet) :
    Option (Except HostGpuError HostGpuForkBackend) :=
  match met.pipe, met.spawn with
  | .error e, _ => some (.error (.workerIo e))
  | .ok (), .error e => some (.error (.spawnWorker e))
  | .ok (), .ok () =>
    (awaitReady build met.patience ⟨met.arrives, met.exits⟩).map fun
      | .error e => .error e
      | .ok (device, pipe) =>
        .ok { backend with
          deviceName := some device, worker := true, stdin := some [], protoReader := some pipe }

/-- The worker is asked to stop and killed, and both ends are closed. -/
def shutdownWorker (backend : HostGpuForkBackend) : HostGpuForkBackend :=
  { backend with worker := false, stdin := none, protoReader := none, deviceName := none, initialized := false }

/-- What the worker does while a call waits for it. -/
structure CallMet where
  write : Except String Unit
  arrives : List Written
  exits : Bool

/-- A command is written and a line is read: the half of `send_command` that
deals with the pipes. -/
def exchange (backend : HostGpuForkBackend) (cmd : HostMessage) (met : CallMet) :
    Except HostGpuError (List Written) × HostGpuForkBackend :=
  match backend.stdin with
  | none => (.error .notInitialized, backend)
  | some lines =>
    match met.write with
    | .error e => (.error (.workerIo e), backend)
    | .ok () =>
      let backend := { backend with stdin := some (lines ++ [cmd.toJson]) }
      match backend.protoReader with
      | none => (.error .notInitialized, backend)
      | some pipe =>
        let pipe := pipe.receive met.arrives met.exits
        match readLine pipe.closed pipe.unread with
        | none => (.error (.timeout execTimeoutSecs), backend.shutdownWorker)
        | some (line, behind) => (.ok line, { backend with protoReader := some { pipe with unread := behind } })

def sendCommand (build : Build) (backend : HostGpuForkBackend) (cmd : HostMessage) (met : CallMet) :
    Except HostGpuError WorkerMessage × HostGpuForkBackend :=
  ((backend.exchange cmd met).1.bind (messageOn build), (backend.exchange cmd met).2)

def ping (build : Build) (backend : HostGpuForkBackend) (met : CallMet) :
    Except HostGpuError Bool × HostGpuForkBackend :=
  let (answer, backend) := backend.sendCommand build .ping met
  (answer.map (· = .pong), backend)

/-! ## The answer of `exec` -/

/-- The code points up to this byte, when a character ends there. -/
def upTo : Nat → List Char → Option (List Char)
  | 0, _ => some []
  | _ + 1, [] => none
  | bytes + 1, c :: rest =>
    if c.utf8Size ≤ bytes + 1 then (upTo (bytes + 1 - c.utf8Size) rest).map (c :: ·) else none

def logLimit : Nat := 200

/-- The output as it stands in the log. -/
def logged (output : String) : Option String :=
  if logLimit < output.utf8ByteSize then
    (upTo logLimit output.toList).map fun start => s!"{String.ofList start}... ({output.utf8ByteSize} chars)"
  else some output

def signalInfo (build : Build) (exitCode : Int32) : Option String :=
  if exitCode < 0 then
    (build.overflow.neg32 exitCode).map fun signal => s!" (killed by signal {signal})"
  else some ""

def errorNote (error : Option String) : String :=
  ((error.filter (· ≠ "")).map fun e => s!"\n--- stderr / traceback ---\n{e}").getD ""

def answerOf (build : Build) : WorkerMessage → Fallible ApiError String
  | .result output error exitCode =>
    if exitCode ≠ 0 then do
      let signal ← Fallible.checked (signalInfo build exitCode)
      let _ ← Fallible.checked (logged output)
      throw (.sandbox s!"Process exited with code {exitCode}{signal}:{errorNote error}\n{output}")
    else pure output
  | .error msg => throw (.sandbox s!"Worker error during exec: {msg}")
  | other => throw (.sandbox s!"Unexpected worker response: {other.debug build}")

def exec (build : Build) (backend : HostGpuForkBackend) (code : String) (met : CallMet) :
    Fallible ApiError String × HostGpuForkBackend :=
  if backend.initialized then
    let (response, backend) := backend.sendCommand build (.exec code execTimeoutSecs) met
    match response with
    | .error e => (throw (.sandbox s!"HostGpuFork exec failed: {e.display}"), backend)
    | .ok message => (answerOf build message, backend)
  else (throw (.sandbox "HostGpuFork not initialized — call init() first"), backend)

/-! ## Lifecycle -/

def init (build : Build) (backend : HostGpuForkBackend) (variant : Variant) (met : SpawnMet) :
    Option (Except ApiError Unit × HostGpuForkBackend) :=
  if backend.initialized then some (.ok (), { backend with variant := some variant })
  else if variant.lang ≠ "python" then
    some (.error (.unsupported s!"HostGpuFork only supports python, got '{variant.lang}'"), backend)
  else if variant.variant ≠ "tinygrad-nv" ∧ variant.variant ≠ "tinygrad" then
    some (.error (.unsupported (s!"HostGpuFork only supports python:tinygrad or python:tinygrad-nv, got " ++
      s!"'{variant.lang}:{variant.variant}'. CPU variants (tinygrad-cpu) use KvmForkBackend, not HostGpuFork.")),
      backend)
  else
    (backend.spawnWorker build met).map fun
      | .error e => (.error (.sandbox s!"HostGpuFork init failed: {e.display}"), backend)
      | .ok backend => (.ok (), { backend with variant := some variant, initialized := true })

def reset (build : Build) (backend : HostGpuForkBackend) (met : SpawnMet) :
    Option (Except ApiError Unit × HostGpuForkBackend) :=
  let backend := backend.shutdownWorker
  match backend.variant with
  | none => some (.ok (), backend)
  | some _ =>
    (backend.spawnWorker build met).map fun
      | .error e => (.error (.sandbox s!"HostGpuFork reset failed: {e.display}"), backend)
      | .ok backend => (.ok (), { backend with initialized := true })

def destroy (backend : HostGpuForkBackend) : HostGpuForkBackend :=
  { backend.shutdownWorker with variant := none }

/-- What arrives between two calls. -/
def receive (backend : HostGpuForkBackend) (arrives : List Written) (exits : Bool) : HostGpuForkBackend :=
  { backend with protoReader := backend.protoReader.map (·.receive arrives exits) }

end HostGpuForkBackend

/-! ## Runs -/

/-- A call that has returned or panicked, and what an `exec` took for its reply. -/
inductive Answer where
  | exec (call : Nat) (reply : List Written) (answer : Fallible ApiError String)
  | ping (answer : Except HostGpuError Bool)
  | lifecycle (answer : Except ApiError Unit)
  deriving DecidableEq

/-- The calls of `exec` and `ping` are counted. -/
structure World where
  backend : HostGpuForkBackend
  calls : Nat
  answers : List Answer
  deriving DecidableEq

inductive Label where
  | init (variant : Variant) (met : HostGpuForkBackend.SpawnMet)
  | exec (code : String) (met : HostGpuForkBackend.CallMet)
  | ping (met : HostGpuForkBackend.CallMet)
  | reset (met : HostGpuForkBackend.SpawnMet)
  | destroy
  | writes (arrives : List Written) (exits : Bool)

/-- The line that a call reads. -/
def replyOf (backend : HostGpuForkBackend) (cmd : HostMessage) (met : HostGpuForkBackend.CallMet) : List Written :=
  match (backend.exchange cmd met).1 with
  | .ok line => line
  | .error _ => []

def World.step (build : Build) (world : World) : Label → Option World
  | .init variant met =>
    (world.backend.init build variant met).map fun (answer, backend) =>
      { world with backend, answers := world.answers ++ [.lifecycle answer] }
  | .exec code met =>
    let called := world.backend.exec build code met
    let reply := replyOf world.backend (.exec code execTimeoutSecs) met
    some ⟨called.2, world.calls + 1, world.answers ++ [.exec world.calls reply called.1]⟩
  | .ping met =>
    let called := world.backend.ping build met
    some ⟨called.2, world.calls + 1, world.answers ++ [.ping called.1]⟩
  | .reset met =>
    (world.backend.reset build met).map fun (answer, backend) =>
      { world with backend, answers := world.answers ++ [.lifecycle answer] }
  | .destroy => some { world with backend := world.backend.destroy, answers := world.answers ++ [.lifecycle (.ok ())] }
  | .writes arrives exits => some { world with backend := world.backend.receive arrives exits }

def World.run (build : Build) : List Label → World → Option World
  | [], world => some world
  | label :: rest, world => (world.step build label).bind (World.run build rest)

def World.new : World := ⟨.new, 0, []⟩

def worker (build : Build) : System World Label where
  start world := world = .new
  step world label next := world.step build label = some next

end TinyMachine.HostGpu
