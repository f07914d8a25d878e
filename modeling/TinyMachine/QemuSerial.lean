import Mathlib.Data.List.Infix
import TinyMachine.Api
import TinyMachine.Uops
import TinyMachine.Vm
import TinyMachine.Lib.Text

/-! The exchange over the serial line of a QEMU guest: what the host writes
when the guest is ready, the loop in which the guest reads and runs it, and how
the host finds the output among the lines that come back. -/
namespace TinyMachine.QemuSerial
open Api

abbrev Bytes := List UInt8

/-! ## The command -/

def base64Alphabet : List Char :=
  "ABCDEFGHIJKLMNOPQRSTUVWXYZabcdefghijklmnopqrstuvwxyz0123456789+/".toList

def base64Char (n : Nat) : Char := base64Alphabet.getD (n % 64) '='

/-- The standard alphabet, with padding. -/
def base64 : Bytes → List Char
  | [] => []
  | [a] =>
    let n := a.toNat * 2 ^ 16
    [base64Char (n / 2 ^ 18), base64Char (n / 2 ^ 12), '=', '=']
  | [a, b] =>
    let n := a.toNat * 2 ^ 16 + b.toNat * 2 ^ 8
    [base64Char (n / 2 ^ 18), base64Char (n / 2 ^ 12), base64Char (n / 2 ^ 6), '=']
  | a :: b :: c :: rest =>
    let n := a.toNat * 2 ^ 16 + b.toNat * 2 ^ 8 + c.toNat
    base64Char (n / 2 ^ 18) :: base64Char (n / 2 ^ 12) :: base64Char (n / 2 ^ 6) :: base64Char n :: base64 rest

def oneLiner (code : String) : String :=
  "exec(__import__('base64').b64decode('" ++ String.ofList (base64 (codeBytes code)) ++ "').decode())"

/-! ## The guest -/

def bufMax : Nat := 4096
def outBufMax : Nat := 65536

/-- `serial_puts`, which stops at a NUL and puts a carriage return before every
line feed. -/
def serialPuts (text : Bytes) : Bytes :=
  (text.takeWhile (· ≠ 0)).flatMap fun c => if c = 10 then [13, 10] else [c]

/-- What the serial line carries, and when the interpreter was started with a
command. -/
inductive Event where
  | line (bytes : Bytes)
  | started (command : Bytes)
  deriving DecidableEq, Repr

/-- How far `run_python` comes. -/
inductive Forking where
  | pipeFails
  | forkFails
  /-- The child reports that it could not become the interpreter. -/
  | execFails (report : Bytes)
  | runs
  deriving DecidableEq, Repr

/-- The words by which the host knows a line. -/
def mentions (word : String) (line : List Char) : Bool := word.toList <:+: line

def isDone (line : List Char) : Bool := Uops.trim line = "DONE".toList

/-- The lines before the guest is ready, on none of which the host acts. -/
structure BootLog where
  lines : List String
  quiet : ∀ line ∈ lines, mentions "READY" line.toList = false ∧ isDone line.toList = false ∧
    mentions "shutdown" line.toList = false ∧ mentions "Power down" line.toList = false

structure Guest where
  boot : BootLog
  forking : Forking
  /-- The listings of the root file system that the child prints first. -/
  dump : Bytes
  /-- What the interpreter prints when it runs a command. -/
  prints : Bytes → Bytes

/-- The commands that the loop of the guest reads, behind what is in its buffer. -/
def commandsFrom : Bytes → Bytes → List Bytes
  | _, [] => []
  | buffered, c :: rest =>
    if c = 10 ∨ c = 13 then
      if buffered = [] then commandsFrom [] rest else buffered :: commandsFrom [] rest
    else if buffered.length + 1 = bufMax - 1 then (buffered ++ [c]) :: commandsFrom [] rest
    else commandsFrom (buffered ++ [c]) rest

/-- The lines of a stream behind the bytes of an unfinished one, each without
its line end. -/
def linesFrom : Bytes → Bytes → List Bytes
  | line, [] => if line = [] then [] else [line]
  | line, c :: rest =>
    if c = 10 then (if line.getLast? = some 13 then line.dropLast else line) :: linesFrom [] rest
    else linesFrom (line ++ [c]) rest

def puts (text : Bytes) : List Event := (linesFrom [] (serialPuts text)).map .line

/-- The result of a command, and the mark behind it. -/
def putResult (result : Bytes) : List Event :=
  (linesFrom [] (serialPuts result ++ serialPuts (codeBytes "\nDONE\n"))).map .line

def captured (guest : Guest) (output : Bytes) : Bytes := (guest.dump ++ output).take (outBufMax - 1)

def failed : Bytes := codeBytes "ERROR: execution failed or no Python"

/-- One round of the loop of the guest. -/
def serve (guest : Guest) (command : Bytes) : List Event :=
  puts (codeBytes "RP_FORK\n") ++
    match guest.forking with
    | .pipeFails => puts (codeBytes "RP_PIPE_FAIL\n") ++ putResult failed
    | .forkFails => puts (codeBytes "RP_PIPE_OK\n") ++ puts (codeBytes "RP_FORK_FAIL\n") ++ putResult failed
    | .execFails report =>
      puts (codeBytes "RP_PIPE_OK\n") ++ puts (codeBytes "RP_FORK_DONE\n") ++ putResult (captured guest report)
    | .runs =>
      puts (codeBytes "RP_PIPE_OK\n") ++ puts (codeBytes "RP_FORK_DONE\n") ++
        .started command :: putResult (captured guest (guest.prints command))

/-- What comes over the line: the command is written when `READY` is read, and
may be echoed. -/
def session (guest : Guest) (echoes : Bool) (code : String) : List Event :=
  guest.boot.lines.map (fun line => .line (codeBytes line)) ++ puts (codeBytes "READY\n") ++
    (if echoes then [.line (codeBytes (oneLiner code))] else []) ++
    (commandsFrom [] (codeBytes (oneLiner code) ++ [10])).flatMap (serve guest)

/-! ## The host -/

def bootTimeoutMs : Nat := 600000

structure Host where
  spawns : Except String Unit
  /-- Whether the deadline has passed when the line of this number arrives. -/
  late : Nat → Bool
  writes : Except String Unit
  stderr : String

def decode (line : Bytes) : Option (List Char) := (String.fromUTF8? ⟨line.toArray⟩).map String.toList

def joined (lines : List (List Char)) : String := String.ofList (['\n'].intercalate lines)

/-- What stands between the line behind `READY` and `DONE`. -/
def resultText (lines : List (List Char)) : String :=
  joined ((((lines.dropWhile fun line => !"READY".toList.isPrefixOf (Uops.trim line)).drop 2).takeWhile
    fun line => !isDone line).filter fun line => Uops.trim line ≠ [])

/-- Behind the loop: the lines that were read, whatever ended them. -/
def afterLoop (host : Host) (variantName : String) (lines : List (List Char)) : Except ApiError String :=
  if lines = [] then
    if host.stderr = "" then .error (.sandbox s!"QEMU produced no output for variant {variantName}")
    else if mentions "VFIO_MAP_DMA" host.stderr.toList then
      let first := String.ofList ((Lib.Text.lines host.stderr.toList).headD "(empty)".toList)
      .error (.sandbox (s!"KVM VFIO DMA mapping failed: x-no-mmap=on should prevent this. " ++ s!"Stderr: {first}"))
    else .error (.sandbox s!"QEMU exited early: {host.stderr}")
  else .ok (joined lines)

/-- The loop of the host over the lines, and the commands that were started
until it ended. -/
def readLines (host : Host) (variantName : String) :
    Nat → Bool → List (List Char) → List Event → Except ApiError String × List Bytes
  | _, _, lines, [] => (afterLoop host variantName lines, [])
  | number, ready, lines, .started command :: rest =>
    let (result, started) := readLines host variantName number ready lines rest
    (result, command :: started)
  | number, ready, lines, .line bytes :: rest =>
    if host.late number then
      (.error (.resourceLimit s!"QEMU boot timed out after {bootTimeoutMs}ms for variant {variantName}"), [])
    else
      match decode bytes with
      | none => (afterLoop host variantName lines, [])
      | some line =>
        let written := if !ready && mentions "READY" line then host.writes else .ok ()
        match written with
        | .error e => (.error (.sandbox s!"Failed to write code to QEMU serial: {e}"), [])
        | .ok () =>
          if isDone line then (.ok (resultText (lines ++ [line])), [])
          else if mentions "shutdown" line || mentions "Power down" line then
            (afterLoop host variantName (lines ++ [line]), [])
          else readLines host variantName (number + 1) (ready || mentions "READY" line) (lines ++ [line]) rest

def exec (host : Host) (initialized : Bool) (variantName : String) (guest : Guest) (echoes : Bool) (code : String) :
    Except ApiError String × List Bytes :=
  if initialized then
    match host.spawns with
    | .error e => (.error (.sandbox s!"Failed to spawn QEMU: {e}"), [])
    | .ok () => readLines host variantName 0 false [] (session guest echoes code)
  else (.error (.sandbox "QemuBackend not initialized; call init() first"), [])

end TinyMachine.QemuSerial
