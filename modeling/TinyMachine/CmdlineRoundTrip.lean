import Mathlib.Data.List.Nodup
import TinyMachine.CmdlineReadBack

/-! Which configurations come back from the command line they are written to,
wherever they stand among the parameters of the kernel. -/
namespace TinyMachine.Cmdline
open Lib Tokenizer

/-! ## Values -/

section Values
variable {text : Text} {bound n : Nat}

theorem trimmed_of_solid (solid : ∀ ch ∈ text, Solid ch) : Trimmed text := by
  apply Text.strip_eq_self
  · exact fun ch first => (solid ch (List.mem_of_mem_head? first)).2.2.2
  · exact fun ch last => (solid ch (List.mem_of_mem_getLast? last)).2.2.2

theorem quoteIfNeeded_of_solid (solid : ∀ ch ∈ text, Solid ch) : quoteIfNeeded text = text := by
  have raw : needsQuotes text = false := by
    simp only [needsQuotes, Bool.or_eq_false_iff, List.any_eq_false, List.contains_eq_mem, decide_eq_false_iff_not]
    refine ⟨⟨fun ch member => by simp [(solid ch member).2.2.2], ?_⟩, ?_⟩
    · exact fun member => (solid _ member).1 rfl
    · exact fun member => (solid _ member).2.1 rfl
  rw [quoteIfNeeded, raw]
  rfl

theorem solid_of_digit {ch : Char} (digit : ch.isDigit = true) : Solid ch := by
  have bounds : 48 ≤ ch.toNat ∧ ch.toNat ≤ 57 := Char.isDigit_iff_toNat.mp digit
  have blank : isWhitespace ch = false := by
    simp only [isWhitespace, Bool.or_eq_false_iff, Bool.and_eq_false_iff, decide_eq_false_iff_not, beq_eq_false_iff_ne]
    omega
  refine ⟨?_, ?_, ?_, blank⟩ <;> rintro rfl <;> exact absurd digit (by decide)

theorem decimal_solid (n : Nat) : ∀ ch ∈ decimal n, Solid ch := fun ch member =>
  solid_of_digit (decimal_digits n ch member)

theorem showBool_solid (b : Bool) : ∀ ch ∈ showBool b, Solid ch := by
  cases b <;> exact solid_of_all (by decide)

theorem parseBool_showBool (b : Bool) : parseBool (showBool b) = .ok b := by
  cases b <;> decide

end Values

/-! ## Fields -/

/-- The fields whose values are texts. -/
def textFields : List Field := [.agentId, .logLevel, .orchestratorAddr, .defaultTier, .proxyAddr]

namespace CmdlineConfig

/-- The value of a field, as it is written. -/
def text (config : CmdlineConfig) : Field → Option Text
  | .agentId => config.agentId
  | .logLevel => config.logLevel
  | .orchestratorAddr => config.orchestratorAddr
  | .maxForks => config.maxForks.map fun n => decimal n.toNat
  | .defaultTier => config.defaultTier
  | .memoryLimitMb => config.memoryLimitMb.map fun n => decimal n.toNat
  | .cpuCores => config.cpuCores.map fun n => decimal n.toNat
  | .enableNetwork => config.enableNetwork.map showBool
  | .enableGpu => config.enableGpu.map showBool
  | .proxyAddr => config.proxyAddr

/-- Another configuration with this one's value of a field. -/
def copyTo (config other : CmdlineConfig) : Field → CmdlineConfig
  | .agentId => { other with agentId := config.agentId }
  | .logLevel => { other with logLevel := config.logLevel }
  | .orchestratorAddr => { other with orchestratorAddr := config.orchestratorAddr }
  | .maxForks => { other with maxForks := config.maxForks }
  | .defaultTier => { other with defaultTier := config.defaultTier }
  | .memoryLimitMb => { other with memoryLimitMb := config.memoryLimitMb }
  | .cpuCores => { other with cpuCores := config.cpuCores }
  | .enableNetwork => { other with enableNetwork := config.enableNetwork }
  | .enableGpu => { other with enableGpu := config.enableGpu }
  | .proxyAddr => { other with proxyAddr := config.proxyAddr }

/-- The parameter of a field that is set. -/
def fieldParams (config : CmdlineConfig) (field : Field) : List (Field × Text) :=
  (config.text field).toList.map fun value => (field, value)

/-- The fields behind the log level, in the order they are written. -/
def otherFields : List Field :=
  [.orchestratorAddr, .maxForks, .defaultTier, .memoryLimitMb, .cpuCores, .enableNetwork, .enableGpu, .proxyAddr]

def others (config : CmdlineConfig) : List (Field × Text) := otherFields.flatMap config.fieldParams

def params (config : CmdlineConfig) : List (Field × Text) :=
  match config.logLevel with
  | none => agentParams config.agentId ++ config.others
  | some level => written config.agentId level config.others

variable {config other : CmdlineConfig} {field : Field} {value : Text} {p : Field × Text}

theorem mem_fieldParams : p ∈ config.fieldParams field ↔ p.1 = field ∧ config.text field = some p.2 := by
  obtain ⟨named, value⟩ := p
  cases shown : config.text field with
  | none => simp [fieldParams, shown]
  | some text => simp [fieldParams, shown, eq_comm]

/-- The fields whose values are not texts are written in letters and digits. -/
theorem text_solid (set : config.text field = some value)
    (other : field ∉ textFields) : ∀ ch ∈ value, Solid ch := by
  cases field with
  | maxForks =>
    obtain ⟨n, -, rfl⟩ := Option.map_eq_some_iff.mp set
    exact decimal_solid _
  | memoryLimitMb =>
    obtain ⟨n, -, rfl⟩ := Option.map_eq_some_iff.mp set
    exact decimal_solid _
  | cpuCores =>
    obtain ⟨n, -, rfl⟩ := Option.map_eq_some_iff.mp set
    exact decimal_solid _
  | enableNetwork =>
    obtain ⟨b, -, rfl⟩ := Option.map_eq_some_iff.mp set
    exact showBool_solid b
  | enableGpu =>
    obtain ⟨b, -, rfl⟩ := Option.map_eq_some_iff.mp set
    exact showBool_solid b
  | _ => exact absurd (by decide) other

/-- What is written: the parameters, with a space between two. -/
theorem toCmdline_eq (config : CmdlineConfig) : config.toCmdline =
    [' '].intercalate (config.params.map fun p => param p.1 (quoteIfNeeded p.2)) := by
  have number (n : Nat) : quoteIfNeeded (decimal n) = decimal n := quoteIfNeeded_of_solid (decimal_solid n)
  have flag (b : Bool) : quoteIfNeeded (showBool b) = showBool b := quoteIfNeeded_of_solid (showBool_solid b)
  cases level : config.logLevel with
  | none =>
    simp only [toCmdline, params, level, agentParams, others, otherFields, fieldParams, text, List.flatMap_cons,
      List.flatMap_nil, List.map_append, List.map_map, Option.toList_map, Function.comp_def, number, flag]
    simp
  | some level' =>
    simp only [toCmdline, params, level, written, agentParams, others, otherFields, fieldParams, text,
      List.flatMap_cons, List.flatMap_nil, List.map_append, List.map_map, Option.toList_map, Function.comp_def]
    simp [number, flag, Function.comp_def]

theorem take_param (trimmed : Trimmed value) : other.take (param field value) = other.set field.name value := by
  rw [take, assignment_param, trimmed]

theorem setU32_decimal (n : UInt32) (put : UInt32 → CmdlineConfig) :
    setU32 field (decimal n.toNat) put = .ok (put n) := by
  rw [setU32, parseUnsigned_decimal n.toNat_lt]
  exact congrArg (fun read => Except.ok (put read)) UInt32.ofNat_toNat

theorem setU64_decimal (n : UInt64) (put : UInt64 → CmdlineConfig) :
    setU64 field (decimal n.toNat) put = .ok (put n) := by
  rw [setU64, parseUnsigned_decimal n.toNat_lt]
  exact congrArg (fun read => Except.ok (put read)) UInt64.ofNat_toNat

theorem setBool_showBool (b : Bool) (put : Bool → CmdlineConfig) : setBool field (showBool b) put = .ok (put b) := by
  rw [setBool, parseBool_showBool]

/-- A written value is read as what it was written for. -/
theorem set_text (written : config.text field = some value) :
    other.set field.name value = .ok (config.copyTo other field) := by
  rw [set, ofKey_name]
  cases field with
  | maxForks =>
    obtain ⟨n, set, rfl⟩ := Option.map_eq_some_iff.mp written
    rw [copyTo, set]
    exact setU32_decimal n _
  | memoryLimitMb =>
    obtain ⟨n, set, rfl⟩ := Option.map_eq_some_iff.mp written
    rw [copyTo, set]
    exact setU64_decimal n _
  | cpuCores =>
    obtain ⟨n, set, rfl⟩ := Option.map_eq_some_iff.mp written
    rw [copyTo, set]
    exact setU32_decimal n _
  | enableNetwork =>
    obtain ⟨b, set, rfl⟩ := Option.map_eq_some_iff.mp written
    rw [copyTo, set]
    exact setBool_showBool b _
  | enableGpu =>
    obtain ⟨b, set, rfl⟩ := Option.map_eq_some_iff.mp written
    rw [copyTo, set]
    exact setBool_showBool b _
  | agentId => exact congrArg (fun text => Except.ok { other with agentId := text }) written.symm
  | logLevel => exact congrArg (fun text => Except.ok { other with logLevel := text }) written.symm
  | orchestratorAddr => exact congrArg (fun text => Except.ok { other with orchestratorAddr := text }) written.symm
  | defaultTier => exact congrArg (fun text => Except.ok { other with defaultTier := text }) written.symm
  | proxyAddr => exact congrArg (fun text => Except.ok { other with proxyAddr := text }) written.symm

theorem copyTo_unset (unset : config.text field = none) (fresh : other.text field = none) :
    config.copyTo other field = other := by
  cases other
  cases field <;> simp_all [text, copyTo]

theorem text_copyTo {named : Field} (apart : named ≠ field) :
    (config.copyTo other field).text named = other.text named := by
  cases field <;> cases named <;> first | rfl | exact absurd rfl apart

theorem foldlM_field (trimmed : ∀ value, config.text field = some value → Trimmed value)
    (fresh : other.text field = none) :
    ((config.fieldParams field).map fun p => param p.1 p.2).foldlM take other = .ok (config.copyTo other field) := by
  rw [fieldParams]
  cases written : config.text field with
  | none =>
    rw [copyTo_unset written fresh]
    rfl
  | some value =>
    rw [Option.toList_some, List.map_singleton, List.map_singleton, List.foldlM_cons,
      take_param (trimmed value written), set_text written]
    rfl

theorem foldlM_fields {fields : List Field} (distinct : fields.Nodup)
    (trimmed : ∀ field value, config.text field = some value → Trimmed value)
    (fresh : ∀ field ∈ fields, other.text field = none) :
    ((fields.flatMap config.fieldParams).map fun p => param p.1 p.2).foldlM take other =
      .ok (fields.foldl config.copyTo other) := by
  induction fields generalizing other with
  | nil => rfl
  | cons field fields ih =>
    obtain ⟨apart, later⟩ := List.nodup_cons.mp distinct
    rw [List.flatMap_cons, List.map_append, List.foldlM_append,
      foldlM_field (trimmed field) (fresh field List.mem_cons_self)]
    refine ih later fun named member => ?_
    have differs : named ≠ field := fun same => apart (same ▸ member)
    rw [text_copyTo differs]
    exact fresh named (List.mem_cons_of_mem _ member)

theorem params_unlogged (level : config.logLevel = none) :
    config.params = (Field.agentId :: otherFields).flatMap config.fieldParams := by
  simp [params, level, others, agentParams, fieldParams, text]

/-- What the parameters are read as: the log level is taken for the agent too. -/
theorem foldlM_params (trimmed : ∀ field value, config.text field = some value → Trimmed value) :
    (config.params.map fun p => param p.1 p.2).foldlM take {} =
      .ok { config with agentId := config.logLevel.or config.agentId } := by
  cases level : config.logLevel with
  | none =>
    have fresh : ∀ field ∈ Field.agentId :: otherFields, text {} field = none := by decide
    rw [params_unlogged level, foldlM_fields (by decide) trimmed fresh]
    cases config
    cases level
    rfl
  | some l =>
    have whole : config.params = config.fieldParams .agentId ++
        ((.agentId, l) :: (.logLevel, l) :: otherFields.flatMap config.fieldParams) := by
      simp [params, level, written, others, agentParams, fieldParams, text]
    have log : config.text .logLevel = some l := level
    have agent (other : CmdlineConfig) : other.take (param .agentId l) = .ok { other with agentId := some l } := by
      rw [take_param (trimmed .logLevel l log), set, ofKey_name]
    have own (other : CmdlineConfig) : other.take (param .logLevel l) = .ok { other with logLevel := some l } := by
      rw [take_param (trimmed .logLevel l log), set, ofKey_name]
    rw [whole, List.map_append, List.foldlM_append, foldlM_field (trimmed .agentId) rfl]
    simp only [List.map_cons, List.foldlM_cons, bind, Except.bind, agent, own]
    rw [foldlM_fields (by decide) trimmed (by simp [otherFields, text, copyTo])]
    cases config
    cases level
    rfl

end CmdlineConfig

/-! ## Among other parameters -/

/-- Parameters before ours, with what separates them from ours: whatever is
quoted or commented out ends among them, and none is ours. -/
structure Leading (before : Text) : Prop where
  settled : (start.scan before).2 = start
  foreign : ∀ token ∈ (start.scan before).1, ¬ ours <+: token

/-- Parameters behind ours, with what separates them from ours. -/
structure Trailing (after : Text) : Prop where
  apart : ∀ ch ∈ after.head?, isWhitespace ch = true
  foreign : ∀ token ∈ start.tokens after, ¬ ours <+: token

/-- The configuration comes back, wherever it is written. -/
def CmdlineConfig.RoundTrips (config : CmdlineConfig) : Prop :=
  ∀ before after, Leading before → Trailing after → parse (before ++ config.toCmdline ++ after) = .ok config

section Embedding
variable {config : CmdlineConfig} {ts : List Text} {text after : Text}

theorem step_blank {t : Tokenizer} {ch : Char} (outside : t.mode = .outside) (blank : isWhitespace ch = true) :
    t.step ch = (flush t.current, start) := by
  obtain ⟨mode, current⟩ := t
  cases outside
  have double : ch ≠ '"' := by
    rintro rfl
    exact absurd blank (by decide)
  have single : ch ≠ '\'' := by
    rintro rfl
    exact absurd blank (by decide)
  have hash : ch ≠ '#' := by
    rintro rfl
    exact absurd blank (by decide)
  simp [step, double, single, hash, blank]

/-- A text that a space would finish is finished by whatever separates it from
what follows. -/
theorem tokens_apart (finished : start.scan (text ++ [' ']) = (ts, start))
    (apart : ∀ ch ∈ after.head?, isWhitespace ch = true) : start.tokens (text ++ after) = ts ++ start.tokens after := by
  have outside : (start.scan text).2.mode = .outside := by
    have behind : ((start.scan text).2.scan [' ']).2.mode = .outside := by
      rw [scan_append] at finished
      exact congrArg Tokenizer.mode (congrArg Prod.snd finished)
    rw [scan_mode] at behind
    generalize (start.scan text).2.mode = mode at behind
    cases mode with
    | outside => rfl
    | doubleQuote => cases behind
    | singleQuote => cases behind
    | comment => cases behind
  have pushed : ts = (start.scan text).1 ++ flush (start.scan text).2.current := by
    rw [scan_append, scan_cons, step_blank outside (by decide)] at finished
    exact (congrArg Prod.fst finished).symm.trans (by simp [scan])
  rw [tokens_append, pushed, List.append_assoc]
  refine congrArg ((start.scan text).1 ++ ·) ?_
  cases after with
  | nil =>
    have none : start.tokens [] = [] := rfl
    rw [none, List.append_nil]
    rfl
  | cons ch rest =>
    have blank := apart ch rfl
    rw [tokens_cons, tokens_cons, step_blank outside blank, step_blank rfl blank]
    simp [start, flush]

theorem intercalate_spaced {ps : List (Field × Text)} (some : ps ≠ []) :
    [' '].intercalate (ps.map fun p => param p.1 (quoteIfNeeded p.2)) ++ [' '] = ps.flatMap spaced := by
  induction ps with
  | nil => exact absurd rfl some
  | cons p ps ih =>
    cases ps with
    | nil => simp [spaced, List.intercalate]
    | cons q ps =>
      have rest := ih (List.cons_ne_nil _ _)
      rw [List.flatMap_cons, ← rest, List.map_cons, List.map_cons, spaced]
      simp [List.intercalate]

theorem toCmdline_spaced (some : config.params ≠ []) : config.toCmdline ++ [' '] = config.params.flatMap spaced := by
  rw [config.toCmdline_eq, intercalate_spaced some]

theorem toCmdline_nil (none : config.params = []) : config.toCmdline = [] := by
  rw [config.toCmdline_eq, none]
  rfl

theorem take_foreign {token : Text} (foreign : ¬ ours <+: token) : config.take token = .ok config := by
  have none : assignment token = none := by
    have unlike : ¬ ours.isPrefixOf token = true := mt List.isPrefixOf_iff_prefix.mp foreign
    simp [assignment, unlike]
  rw [CmdlineConfig.take, none]

theorem foldlM_foreign (foreign : ∀ token ∈ ts, ¬ ours <+: token) :
    ts.foldlM CmdlineConfig.take config = .ok config := by
  induction ts with
  | nil => rfl
  | cons token ts ih =>
    rw [List.foldlM_cons, take_foreign (foreign token List.mem_cons_self)]
    exact ih fun other member => foreign other (List.mem_cons_of_mem _ member)

/-- Quotable parameters come out as one token each, between those of others. -/
theorem tokens_embedded {before : Text} (quotable : ∀ p ∈ config.params, Quotable p.2) (leading : Leading before)
    (trailing : Trailing after) : tokenizeCmdline (before ++ config.toCmdline ++ after) =
      (start.scan before).1 ++ ((config.params.map fun p => param p.1 p.2) ++ start.tokens after) := by
  rw [tokenizeCmdline, List.append_assoc, tokens_append, leading.settled]
  refine congrArg ((start.scan before).1 ++ ·) ?_
  by_cases none : config.params = []
  · rw [toCmdline_nil none, none]
    rfl
  · have finished : start.scan (config.toCmdline ++ [' ']) = (config.params.map fun p => param p.1 p.2, start) := by
      rw [toCmdline_spaced none, scan_params quotable]
    exact tokens_apart finished trailing.apart

theorem mem_others {p : Field × Text} (member : p ∈ config.others) :
    p.1 ∈ CmdlineConfig.otherFields ∧ config.text p.1 = some p.2 := by
  obtain ⟨field, listed, there⟩ := List.mem_flatMap.mp member
  obtain ⟨rfl, set⟩ := CmdlineConfig.mem_fieldParams.mp there
  exact ⟨listed, set⟩

theorem mem_params {p : Field × Text} (member : p ∈ config.params) : ∃ field, config.text field = some p.2 := by
  have agent (there : p ∈ agentParams config.agentId) : config.text .agentId = some p.2 :=
    (ReadBack.mem_agentParams.mp there).2
  rw [CmdlineConfig.params] at member
  split at member
  · rcases List.mem_append.mp member with agents | others
    · exact ⟨_, agent agents⟩
    · exact ⟨_, (mem_others others).2⟩
  · rename_i level set
    rcases List.mem_append.mp member with agents | later
    · exact ⟨_, agent agents⟩
    · rcases List.mem_cons.mp later with rfl | rest
      · exact ⟨.logLevel, set⟩
      · rcases List.mem_cons.mp rest with rfl | others
        · exact ⟨.logLevel, set⟩
        · exact ⟨_, (mem_others others).2⟩

/-- Plain values are read as they are, but for the log level under the agent's
key. -/
theorem parse_embedded {before : Text} (plain : ∀ field value, config.text field = some value → Plain value)
    (leading : Leading before) (trailing : Trailing after) :
    parse (before ++ config.toCmdline ++ after) =
      .ok { config with agentId := config.logLevel.or config.agentId } := by
  have quotable : ∀ p ∈ config.params, Quotable p.2 := by
    intro p member
    obtain ⟨field, set⟩ := mem_params member
    exact (plain field p.2 set).2
  have front : (start.scan before).1.foldlM CmdlineConfig.take {} = .ok {} := foldlM_foreign leading.foreign
  rw [parse, tokens_embedded quotable leading trailing, List.foldlM_append, front]
  simp only [bind, Except.bind]
  rw [List.foldlM_append, CmdlineConfig.foldlM_params fun field value set => (plain field value set).1]
  exact foldlM_foreign trailing.foreign

end Embedding

/-! ## Words of others -/

/-- A parameter of someone else, without quotes, number signs and blanks. -/
structure Foreign (word : Text) : Prop where
  solid : ∀ ch ∈ word, Solid ch
  other : ¬ ours <+: word

section Words
variable {word : Text} {words : List Text}

theorem Foreign.flush (foreign : Foreign word) : ∀ token ∈ flush word, ¬ ours <+: token := by
  unfold Tokenizer.flush
  split
  · exact fun _ member => absurd member List.not_mem_nil
  · exact fun token member => List.mem_singleton.mp member ▸ foreign.other

theorem Foreign.scan (foreign : Foreign word) :
    start.scan (word ++ [' ']) = (Tokenizer.flush word, start) := by
  rw [scan_append, start, scan_solid foreign.solid, scan_cons, step_blank rfl (by decide)]
  exact congrArg (·, start) (List.append_nil _)

/-- Words with a space behind each may stand before ours. -/
theorem leading_words (foreign : ∀ word ∈ words, Foreign word) : Leading (words.flatMap (· ++ [' '])) := by
  induction words with
  | nil => exact ⟨rfl, fun _ member => absurd member List.not_mem_nil⟩
  | cons word words ih =>
    have here := foreign word List.mem_cons_self
    obtain ⟨settled, rest⟩ := ih fun next member => foreign next (List.mem_cons_of_mem _ member)
    constructor
    · rw [List.flatMap_cons, scan_append, here.scan]
      exact settled
    · rw [List.flatMap_cons, scan_append, here.scan]
      intro token member
      exact (List.mem_append.mp member).elim (here.flush token) (rest token)

/-- Words with a space before each may stand behind ours. -/
theorem trailing_words (foreign : ∀ word ∈ words, Foreign word) : Trailing (words.flatMap (' ' :: ·)) := by
  induction words with
  | nil => exact ⟨fun _ member => absurd member (by simp), fun _ member => absurd member List.not_mem_nil⟩
  | cons word words ih =>
    have here := foreign word List.mem_cons_self
    obtain ⟨apart, rest⟩ := ih fun next member => foreign next (List.mem_cons_of_mem _ member)
    constructor
    · intro ch first
      obtain rfl : ' ' = ch := Option.some.inj first
      rfl
    · have skipped : start.tokens (' ' :: (word ++ words.flatMap (' ' :: ·))) =
          Tokenizer.flush word ++ start.tokens (words.flatMap (' ' :: ·)) := by
        rw [tokens_cons, step_blank rfl (by decide)]
        exact tokens_apart here.scan apart
      rw [List.flatMap_cons, List.cons_append, skipped]
      intro token member
      exact (List.mem_append.mp member).elim (here.flush token) (rest token)

end Words

/-! ## Reading back -/

section Reading
open CmdlineConfig (otherFields)
variable {config other : CmdlineConfig} {ts : List Text} {field : Field} {token key value : Text} {p : Field × Text}

theorem setU32_ok {put : UInt32 → CmdlineConfig} (set : CmdlineConfig.setU32 field value put = .ok other) :
    ∃ n, other = put n := by
  unfold CmdlineConfig.setU32 at set
  split at set
  · exact ⟨_, (Except.ok.inj set).symm⟩
  · cases set

theorem setU64_ok {put : UInt64 → CmdlineConfig} (set : CmdlineConfig.setU64 field value put = .ok other) :
    ∃ n, other = put n := by
  unfold CmdlineConfig.setU64 at set
  split at set
  · exact ⟨_, (Except.ok.inj set).symm⟩
  · cases set

theorem setBool_ok {put : Bool → CmdlineConfig} (set : CmdlineConfig.setBool field value put = .ok other) :
    ∃ b, other = put b := by
  unfold CmdlineConfig.setBool at set
  split at set
  · exact ⟨_, (Except.ok.inj set).symm⟩
  · cases set

/-- A key changes the text of its own field only. -/
theorem set_textual (textual : field ∈ textFields) (set : config.set key value = .ok other) :
    other.text field = config.text field ∨ (Field.ofKey key = some field ∧ other.text field = some value) := by
  unfold CmdlineConfig.set at set
  split at set
  case h_4 | h_7 =>
    obtain ⟨n, rfl⟩ := setU32_ok set
    left
    cases field <;> first | rfl | exact absurd textual (by decide)
  case h_6 =>
    obtain ⟨n, rfl⟩ := setU64_ok set
    left
    cases field <;> first | rfl | exact absurd textual (by decide)
  case h_8 | h_9 =>
    obtain ⟨b, rfl⟩ := setBool_ok set
    left
    cases field <;> first | rfl | exact absurd textual (by decide)
  case h_11 => exact .inl (congrArg (CmdlineConfig.text · field) (Except.ok.inj set).symm)
  all_goals
    obtain rfl := Except.ok.inj set
    cases field <;> simp_all [CmdlineConfig.text]

theorem take_text (textual : field ∈ textFields) (taken : config.take token = .ok other) :
    other.text field = config.text field ∨ ∃ value, other.text field = some value ∧ Sets token (field, value) := by
  unfold CmdlineConfig.take at taken
  split at taken
  · rename_i key value assigns
    rcases set_textual textual taken with same | ⟨named, set⟩
    · exact .inl same
    · exact .inr ⟨value, set, key, assigns, named⟩
  · exact .inl (congrArg (CmdlineConfig.text · field) (Except.ok.inj taken).symm)

/-- What is read for a field is what it was before, or what a token sets it to. -/
theorem foldlM_text (textual : field ∈ textFields) (taken : ts.foldlM CmdlineConfig.take config = .ok other) :
    other.text field = config.text field ∨
      ∃ value, other.text field = some value ∧ ∃ token ∈ ts, Sets token (field, value) := by
  induction ts generalizing config with
  | nil => exact .inl (congrArg (CmdlineConfig.text · field) (Except.ok.inj taken).symm)
  | cons token ts ih =>
    rw [List.foldlM_cons] at taken
    cases first : config.take token with
    | error e =>
      rw [first] at taken
      cases taken
    | ok next =>
      rw [first] at taken
      rcases ih taken with same | ⟨value, set, token', there, sets⟩
      · rcases take_text textual first with unchanged | ⟨value, set, sets⟩
        · exact .inl (same.trans unchanged)
        · exact .inr ⟨value, same.trans set, token, List.mem_cons_self, sets⟩
      · exact .inr ⟨value, set, token', List.mem_cons_of_mem _ there, sets⟩

theorem parse_text {cmdline : Text} (textual : field ∈ textFields) (parsed : parse cmdline = .ok config)
    (set : config.text field = some value) : ∃ token ∈ start.tokens cmdline, Sets token (field, value) := by
  rcases foldlM_text textual parsed with same | ⟨read, shown, carried⟩
  · have unset : CmdlineConfig.text {} field = none := by
      cases field <;> rfl
    cases (set.symm.trans same).trans unset
  · cases set.symm.trans shown
    exact carried

/-- What is read back is in the tokens, and trimmed. -/
theorem text_carried (back : parse (config.toCmdline ++ [' ']) = .ok config) (set : config.text field = some value) :
    Carried (start.tokens (config.params.flatMap spaced)) (field, value) ∧ Trimmed value := by
  have same : start.tokens (config.toCmdline ++ [' ']) = start.tokens (config.params.flatMap spaced) := by
    by_cases none : config.params = []
    · rw [toCmdline_nil none, none]
      rfl
    · rw [toCmdline_spaced none]
  by_cases textual : field ∈ textFields
  · obtain ⟨token, there, sets⟩ := parse_text textual back set
    exact ⟨.inr ⟨token, same ▸ there, sets⟩, sets.trimmed⟩
  · have solid := config.text_solid set textual
    exact ⟨.inl solid, trimmed_of_solid solid⟩

theorem fields_nodup {fields : List Field} (distinct : fields.Nodup) : (fields.flatMap config.fieldParams).Nodup := by
  refine List.nodup_flatMap.mpr ⟨fun field _ => ?_, distinct.imp fun apart p first second => ?_⟩
  · cases shown : config.text field <;> simp [CmdlineConfig.fieldParams, shown]
  · exact apart ((CmdlineConfig.mem_fieldParams.mp first).1.symm.trans (CmdlineConfig.mem_fieldParams.mp second).1)

theorem plain_of_parse (back : parse (config.toCmdline ++ [' ']) = .ok config) (set : config.text field = some value) :
    Plain value := by
  have listed : field ∈ Field.agentId :: .logLevel :: otherFields := by
    cases field <;> decide
  have shown : (field, value) ∈ config.fieldParams field := CmdlineConfig.mem_fieldParams.mpr ⟨rfl, set⟩
  cases level : config.logLevel with
  | none =>
    have read : ∀ p ∈ config.params, Carried (start.tokens (config.params.flatMap spaced)) p ∧ Trimmed p.2 := by
      intro p member
      rw [CmdlineConfig.params_unlogged level] at member
      obtain ⟨named, -, there⟩ := List.mem_flatMap.mp member
      obtain ⟨rfl, set⟩ := CmdlineConfig.mem_fieldParams.mp there
      exact text_carried back set
    have distinct : config.params.Nodup := CmdlineConfig.params_unlogged level ▸ fields_nodup (by decide)
    have member : (field, value) ∈ config.params := by
      have unlogged : field ≠ .logLevel := by
        rintro rfl
        cases set.symm.trans level
      have named : field ∈ Field.agentId :: otherFields := by simpa [unlogged] using listed
      rw [CmdlineConfig.params_unlogged level]
      exact List.mem_flatMap.mpr ⟨field, named, shown⟩
    exact plain_of_carried distinct (fun p there => (read p there).2) (fun p there => (read p there).1) _ member
  | some l =>
    have params : config.params = written config.agentId l config.others := by
      rw [CmdlineConfig.params, level]
    have read : ∀ p ∈ needed config.agentId l config.others,
        Carried (start.tokens ((written config.agentId l config.others).flatMap spaced)) p ∧ Trimmed p.2 := by
      rintro ⟨named, value⟩ member
      have set : config.text named = some value := by
        rcases List.mem_append.mp member with agents | later
        · obtain ⟨rfl, set⟩ := ReadBack.mem_agentParams.mp agents
          exact set
        · rcases List.mem_cons.mp later with same | others
          · cases same
            exact level
          · exact (mem_others others).2
      exact params ▸ text_carried back set
    have apart : ∀ p ∈ config.others, p.1 ≠ .agentId ∧ p.1 ≠ .logLevel := by
      intro p member
      have listed := (mem_others member).1
      constructor <;> rintro same <;> rw [same] at listed <;> exact absurd listed (by decide)
    have back : ReadBack config.agentId l config.others :=
      ⟨apart, fields_nodup (by decide), fun p there => (read p there).1, fun p there => (read p there).2⟩
    have member : (field, value) ∈ needed config.agentId l config.others := by
      rcases List.mem_cons.mp listed with rfl | later
      · exact List.mem_append_left _ (ReadBack.mem_agentParams.mpr ⟨rfl, set⟩)
      · rcases List.mem_cons.mp later with rfl | other
        · cases level.symm.trans set
          exact ReadBack.level_needed _ _ _
        · exact List.mem_append_right _ (List.mem_cons_of_mem _ (List.mem_flatMap.mpr ⟨field, other, shown⟩))
    exact back.plain _ member

/-- A configuration comes back if and only if its texts are plain, and a log
level, if there is one, is the agent's name too. -/
theorem comes_back_iff (config : CmdlineConfig) : config.RoundTrips ↔
    (∀ field value, config.text field = some value → Plain value) ∧
      (config.logLevel = none ∨ config.agentId = config.logLevel) := by
  have leading : Leading [] := ⟨rfl, fun _ member => absurd member List.not_mem_nil⟩
  have trailing : Trailing [' '] := by
    refine ⟨fun ch first => ?_, fun _ member => absurd member List.not_mem_nil⟩
    obtain rfl : ' ' = ch := Option.some.inj first
    rfl
  constructor
  · intro round
    have back : parse (config.toCmdline ++ [' ']) = .ok config := round [] [' '] leading trailing
    have plain : ∀ field value, config.text field = some value → Plain value := fun _ _ set => plain_of_parse back set
    refine ⟨plain, ?_⟩
    have read := (parse_embedded plain leading trailing).symm.trans back
    have agent : config.logLevel.or config.agentId = config.agentId :=
      congrArg CmdlineConfig.agentId (Except.ok.inj read)
    cases level : config.logLevel with
    | none => exact .inl rfl
    | some l =>
      rw [level] at agent
      exact .inr agent.symm
  · rintro ⟨plain, agent⟩ before after leading trailing
    have same : config.logLevel.or config.agentId = config.agentId := by
      rcases agent with unset | same
      · rw [unset, Option.none_or]
      · rw [same, Option.or_self]
    rw [parse_embedded plain leading trailing, same]

/-- A log level is read as the agent's name. -/
theorem log_level_renames_agent : ¬ ∀ config : CmdlineConfig, config.RoundTrips := by
  intro always
  let config : CmdlineConfig := { agentId := some ['a'], logLevel := some ['b'] }
  have leading : Leading [] := @leading_words [] fun _ member => absurd member List.not_mem_nil
  have trailing : Trailing [] := @trailing_words [] fun _ member => absurd member List.not_mem_nil
  have back : parse config.toCmdline = .ok config := by
    simpa using always config [] [] leading trailing
  have renamed : parse config.toCmdline = .ok { config with agentId := config.logLevel } := by decide +kernel
  exact absurd (renamed.symm.trans back) (by decide)

end Reading
end TinyMachine.Cmdline
