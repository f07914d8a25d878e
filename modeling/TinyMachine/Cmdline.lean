import TinyMachine.Lib.Text

/-! Configuration on the kernel command line: `tinymachine.key=value` among
the parameters of the kernel, cut into tokens character by character. Texts
are lists of characters. -/
namespace TinyMachine.Cmdline
open Lib

abbrev Text := List Char

structure CmdlineConfig where
  agentId : Option Text := none
  logLevel : Option Text := none
  orchestratorAddr : Option Text := none
  maxForks : Option UInt32 := none
  defaultTier : Option Text := none
  memoryLimitMb : Option UInt64 := none
  cpuCores : Option UInt32 := none
  enableNetwork : Option Bool := none
  enableGpu : Option Bool := none
  proxyAddr : Option Text := none
  deriving DecidableEq

inductive ConfigError where
  | validation (message : Text)
  deriving DecidableEq

/-- The property White_Space of Unicode. -/
def isWhitespace (c : Char) : Bool :=
  let n := c.toNat
  (9 ≤ n && n ≤ 13) || n == 0x20 || n == 0x85 || n == 0xA0 || n == 0x1680 || (0x2000 ≤ n && n ≤ 0x200A) ||
    n == 0x2028 || n == 0x2029 || n == 0x202F || n == 0x205F || n == 0x3000

def trim (text : Text) : Text := Text.strip isWhitespace text

/-! ## Tokens -/

/-- What the tokenizer is inside of. Its three flags are never set together. -/
inductive Mode where
  | outside
  | doubleQuote
  | singleQuote
  | comment
  deriving DecidableEq

structure Tokenizer where
  mode : Mode
  current : Text
  deriving DecidableEq

namespace Tokenizer

def start : Tokenizer := ⟨.outside, []⟩

/-- The token that ends here, if one has begun. -/
def flush (current : Text) : List Text := if current = [] then [] else [current]

/-- The tokens pushed on a character, and the tokenizer behind it. -/
def step (tokenizer : Tokenizer) (ch : Char) : List Text × Tokenizer :=
  let ⟨mode, current⟩ := tokenizer
  match mode with
  | .comment => ([], if ch = '\n' then ⟨.outside, current⟩ else tokenizer)
  | .doubleQuote => if ch = '"' then (flush current, start) else ([], ⟨mode, current ++ [ch]⟩)
  | .singleQuote => if ch = '\'' then (flush current, start) else ([], ⟨mode, current ++ [ch]⟩)
  | .outside =>
    if ch = '"' then ([], ⟨.doubleQuote, current⟩)
    else if ch = '\'' then ([], ⟨.singleQuote, current⟩)
    else if ch = '#' then (flush current, ⟨.comment, []⟩)
    else if isWhitespace ch then (flush current, start)
    else ([], ⟨mode, current ++ [ch]⟩)

/-- The tokens pushed on a text. -/
def scan (tokenizer : Tokenizer) : Text → List Text × Tokenizer
  | [] => ([], tokenizer)
  | ch :: rest =>
    let (pushed, next) := tokenizer.step ch
    let (tokens, last) := next.scan rest
    (pushed ++ tokens, last)

/-- All tokens from here to the end of the text. -/
def tokens (tokenizer : Tokenizer) (text : Text) : List Text :=
  (tokenizer.scan text).1 ++ flush (tokenizer.scan text).2.current

end Tokenizer

def tokenizeCmdline (cmdline : Text) : List Text := Tokenizer.start.tokens cmdline

/-! ## Parsing -/

inductive Field where
  | agentId
  | logLevel
  | orchestratorAddr
  | maxForks
  | defaultTier
  | memoryLimitMb
  | cpuCores
  | enableNetwork
  | enableGpu
  | proxyAddr
  deriving DecidableEq

namespace Field

def all : List Field :=
  [agentId, logLevel, orchestratorAddr, maxForks, defaultTier, memoryLimitMb, cpuCores, enableNetwork, enableGpu,
    proxyAddr]

def name : Field → Text
  | agentId => "agent_id".toList
  | logLevel => "log_level".toList
  | orchestratorAddr => "orchestrator_addr".toList
  | maxForks => "max_forks".toList
  | defaultTier => "default_tier".toList
  | memoryLimitMb => "memory_limit_mb".toList
  | cpuCores => "cpu_cores".toList
  | enableNetwork => "enable_network".toList
  | enableGpu => "enable_gpu".toList
  | proxyAddr => "proxy_addr".toList

def ofKey (key : Text) : Option Field := all.find? fun field => field.name = key

end Field

/-- `ParseIntError`, as it is displayed. -/
inductive IntError where
  | empty
  | invalidDigit
  | posOverflow
  deriving DecidableEq

def IntError.display : IntError → Text
  | empty => "cannot parse integer from empty string".toList
  | invalidDigit => "invalid digit found in string".toList
  | posOverflow => "number too large to fit in target type".toList

/-- The number that the digits add to the one before them. -/
def digitsFrom (bound : Nat) (sofar : Nat) : Text → Except IntError Nat
  | [] => .ok sofar
  | c :: rest =>
    if ¬ c.isDigit then .error .invalidDigit
    else
      let next := 10 * sofar + (c.toNat - '0'.toNat)
      if next < bound then digitsFrom bound next rest else .error .posOverflow

/-- `parse` for an unsigned type of so many values. -/
def parseUnsigned (bound : Nat) (text : Text) : Except IntError Nat :=
  match text with
  | [] => .error .empty
  | ['+'] => .error .invalidDigit
  | '+' :: digits => digitsFrom bound 0 digits
  | digits => digitsFrom bound 0 digits

/-- No letter outside ASCII has one of these words' letters for its lower case. -/
def parseBool (value : Text) : Except Text Bool :=
  let lower := value.map Char.toLower
  if lower = "true".toList ∨ lower = "1".toList ∨ lower = "yes".toList then .ok true
  else if lower = "false".toList ∨ lower = "0".toList ∨ lower = "no".toList then .ok false
  else .error "expected true/false/1/0/yes/no".toList

/-- The error of a value that is not of its field's type. -/
def notValid (field : Field) (type value reason : Text) : ConfigError :=
  .validation ("cmdline: ".toList ++ field.name ++ "='".toList ++ value ++ "' is not a valid ".toList ++ type ++
    ": ".toList ++ reason)

namespace CmdlineConfig

def setU32 (field : Field) (value : Text) (put : UInt32 → CmdlineConfig) : Except ConfigError CmdlineConfig :=
  match parseUnsigned UInt32.size value with
  | .ok n => .ok (put (.ofNat n))
  | .error e => .error (notValid field "u32".toList value e.display)

def setU64 (field : Field) (value : Text) (put : UInt64 → CmdlineConfig) : Except ConfigError CmdlineConfig :=
  match parseUnsigned UInt64.size value with
  | .ok n => .ok (put (.ofNat n))
  | .error e => .error (notValid field "u64".toList value e.display)

def setBool (field : Field) (value : Text) (put : Bool → CmdlineConfig) : Except ConfigError CmdlineConfig :=
  match parseBool value with
  | .ok b => .ok (put b)
  | .error e => .error (notValid field "bool".toList value e)

/-- A key that names no field is ignored. -/
def set (config : CmdlineConfig) (key value : Text) : Except ConfigError CmdlineConfig :=
  match Field.ofKey key with
  | some .agentId => .ok { config with agentId := some value }
  | some .logLevel => .ok { config with logLevel := some value }
  | some .orchestratorAddr => .ok { config with orchestratorAddr := some value }
  | some .maxForks => setU32 .maxForks value fun n => { config with maxForks := some n }
  | some .defaultTier => .ok { config with defaultTier := some value }
  | some .memoryLimitMb => setU64 .memoryLimitMb value fun n => { config with memoryLimitMb := some n }
  | some .cpuCores => setU32 .cpuCores value fun n => { config with cpuCores := some n }
  | some .enableNetwork => setBool .enableNetwork value fun b => { config with enableNetwork := some b }
  | some .enableGpu => setBool .enableGpu value fun b => { config with enableGpu := some b }
  | some .proxyAddr => .ok { config with proxyAddr := some value }
  | none => .ok config

end CmdlineConfig

/-- `tinymachine.` -/
def ours : Text := "tinymachine.".toList

/-- The key and the value of a token that is ours. -/
def assignment (token : Text) : Option (Text × Text) :=
  if token.head? = some '#' then none
  else if ¬ ours.isPrefixOf token then none
  else (Text.splitOnce '=' (token.drop ours.length)).map fun (k, v) => (trim k, trim v)

def CmdlineConfig.take (config : CmdlineConfig) (token : Text) : Except ConfigError CmdlineConfig :=
  match assignment token with
  | some (key, value) => config.set key value
  | none => .ok config

def parse (cmdline : Text) : Except ConfigError CmdlineConfig :=
  (tokenizeCmdline cmdline).foldlM CmdlineConfig.take {}

/-! ## Writing -/

def needsQuotes (value : Text) : Bool := value.any isWhitespace || value.contains '"' || value.contains '\''

def escape (value : Text) : Text := value.flatMap fun c => if c = '"' then ['\\', '"'] else [c]

def quoteIfNeeded (value : Text) : Text := if needsQuotes value then '"' :: escape value ++ ['"'] else value

def decimal (n : Nat) : Text := Nat.toDigits 10 n

def showBool (b : Bool) : Text := if b then "true".toList else "false".toList

/-- `tinymachine.key=` with what stands behind it. -/
def param (field : Field) (text : Text) : Text := ours ++ field.name ++ '=' :: text

def CmdlineConfig.toCmdline (config : CmdlineConfig) : Text :=
  [' '].intercalate (
    (config.agentId.toList.map fun v => param .agentId (quoteIfNeeded v)) ++
    (config.logLevel.toList.map fun v => param .agentId (quoteIfNeeded v)) ++
    (config.logLevel.toList.map fun v => param .logLevel (quoteIfNeeded v)) ++
    (config.orchestratorAddr.toList.map fun v => param .orchestratorAddr (quoteIfNeeded v)) ++
    (config.maxForks.toList.map fun v => param .maxForks (decimal v.toNat)) ++
    (config.defaultTier.toList.map fun v => param .defaultTier (quoteIfNeeded v)) ++
    (config.memoryLimitMb.toList.map fun v => param .memoryLimitMb (decimal v.toNat)) ++
    (config.cpuCores.toList.map fun v => param .cpuCores (decimal v.toNat)) ++
    (config.enableNetwork.toList.map fun v => param .enableNetwork (showBool v)) ++
    (config.enableGpu.toList.map fun v => param .enableGpu (showBool v)) ++
    (config.proxyAddr.toList.map fun v => param .proxyAddr (quoteIfNeeded v)))

/-! ## Numbers are read back -/

section Numbers
variable {text : Text} {bound n : Nat}

theorem decimal_digits (n : Nat) : ∀ ch ∈ decimal n, ch.isDigit = true := fun _ member =>
  Nat.isDigit_of_mem_toDigits (by decide) (by decide) member

theorem le_ofDigitChars (text : Text) (sofar : Nat) : sofar ≤ Nat.ofDigitChars 10 text sofar := by
  induction text generalizing sofar with
  | nil => exact Nat.le_refl _
  | cons ch rest ih =>
    have next : 10 * sofar + (ch.toNat - '0'.toNat) ≤ Nat.ofDigitChars 10 (ch :: rest) sofar := ih _
    omega

theorem digitsFrom_digits {sofar : Nat} (digits : ∀ ch ∈ text, ch.isDigit = true)
    (small : Nat.ofDigitChars 10 text sofar < bound) :
    digitsFrom bound sofar text = .ok (Nat.ofDigitChars 10 text sofar) := by
  induction text generalizing sofar with
  | nil => rfl
  | cons ch rest ih =>
    have here : ¬ ¬ ch.isDigit = true := not_not.mpr (digits ch List.mem_cons_self)
    have next : 10 * sofar + (ch.toNat - '0'.toNat) < bound :=
      Nat.lt_of_le_of_lt (le_ofDigitChars rest _) small
    rw [digitsFrom, if_neg here]
    simp only [next, if_true]
    exact ih (fun other member => digits other (List.mem_cons_of_mem _ member)) small

theorem parseUnsigned_decimal (small : n < bound) : parseUnsigned bound (decimal n) = .ok n := by
  have digits := decimal_digits n
  have read := @digitsFrom_digits (decimal n) bound 0 digits
  rw [decimal, Nat.ofDigitChars_ten_toDigits] at read
  have whole := read small
  have filled : Nat.toDigits 10 n ≠ [] := Nat.toDigits_ne_nil
  rw [decimal] at digits ⊢
  revert whole
  cases shown : Nat.toDigits 10 n with
  | nil => exact absurd shown filled
  | cons ch rest =>
    rw [shown] at digits
    have unsigned : ch ≠ '+' := by
      rintro rfl
      exact absurd (digits '+' List.mem_cons_self) (by decide)
    intro whole
    unfold parseUnsigned
    split <;> simp_all

end Numbers

end TinyMachine.Cmdline
