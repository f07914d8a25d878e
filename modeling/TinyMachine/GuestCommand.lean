import TinyMachine.Composer
import TinyMachine.Snapshot
import TinyMachine.Lib.CStrings
import TinyMachine.Lib.ZeroTerminated

/-! The command of a composed image: `cmd.json` as the host writes it, and what
the guest's `init` makes of it. -/
namespace TinyMachine.Guest
open Lib CString Composer Snapshots
open Memory (upToZero)

/-! ## Writing and reading -/

def bytesOf (text : String) : List UInt8 := text.toUTF8.data.toList

def commandJson (config : CmdConfig) : Json := fields [
  ("interpreter", optionJson config.interpreter),
  ("args", .array (config.args.map fun arg => .string arg.toList)),
  ("exec", optionJson config.exec)]

/-- `to_string_pretty` of the command. -/
def cmdJson (config : CmdConfig) : List UInt8 := bytesOf (String.ofList ((commandJson config).pretty 0))

def quoteByte : UInt8 := 0x22

/-- A key with its quotation marks. -/
def keyOf (name : String) : List UInt8 := quoteByte :: (bytesOf name ++ [quoteByte])

/-- The text between the next two quotation marks behind the mark behind the key. -/
def fieldOf (name : String) (mark : UInt8) (buf : List UInt8) : Option (List UInt8) :=
  (quotedBehind quoteByte mark (keyOf name) buf).map Prod.fst

def cmdJsonMax : Nat := 4096
def interpreterSize : Nat := 256
def execSize : Nat := 256
def argSize : Nat := 64

/-- What `parse_cmd_json` has filled in. -/
structure Parsed where
  interpreter : List UInt8
  args : List (List UInt8)
  exec : List UInt8
  deriving DecidableEq

def execField (buf : List UInt8) : Option (List UInt8) :=
  (fieldOf "exec" 0x3A buf).filter fun path => path.length < execSize - 1

def interpreterField (buf : List UInt8) : Option (List UInt8) :=
  (fieldOf "interpreter" 0x3A buf).filter fun path => path.length < interpreterSize

/-- The first text of the array. -/
def argsField (buf : List UInt8) : List (List UInt8) :=
  ((fieldOf "args" 0x5B buf).filter fun arg => arg.length < argSize).toList

/-- `parse_cmd_json`, which has no result where it returns -1. -/
def parseCmdJson (file : Option (List UInt8)) : Option Parsed := do
  let data := (← file).take (cmdJsonMax - 1)
  if data = [] then none
  else
    let buf := upToZero data
    match execField buf with
    | some path => return ⟨[], [], path⟩
    | none =>
      let interpreter ← interpreterField buf
      return ⟨interpreter, argsField buf, []⟩

/-- How `init` runs code. -/
inductive Selection where
  | exec (path : List UInt8)
  | interpreter (path : List UInt8) (args : List (List UInt8))
  | python
  deriving DecidableEq

def select (hasCmdJson : Option Parsed) : Selection :=
  match hasCmdJson with
  | none => .python
  | some parsed =>
    if parsed.exec ≠ [] then .exec parsed.exec
    else if parsed.interpreter ≠ [] then .interpreter parsed.interpreter parsed.args
    else .python

/-! ## The same command on both sides -/

/-- What the command asks for. -/
def Asks (config : CmdConfig) (selection : Selection) : Prop :=
  match config.exec with
  | some path => selection = .exec (bytesOf path)
  | none => ∃ path, config.interpreter = some path ∧
      selection = .interpreter (bytesOf path) (config.args.map bytesOf)

/-- The guest selects what the command asks for, or finds no command that it can
run. -/
def Means (config : CmdConfig) : Prop :=
  parseCmdJson (some (cmdJson config)) = none ∨ Asks config (select (parseCmdJson (some (cmdJson config))))

/-! ## Texts as they are written -/

def utf8 (text : List Char) : List UInt8 := text.flatMap String.utf8EncodeChar

@[simp] theorem utf8_nil : utf8 [] = [] := rfl

@[simp] theorem utf8_cons (c : Char) (text : List Char) : utf8 (c :: text) = String.utf8EncodeChar c ++ utf8 text := rfl

@[simp] theorem utf8_append (text more : List Char) : utf8 (text ++ more) = utf8 text ++ utf8 more := List.flatMap_append

theorem bytesOf_ofList (text : List Char) : bytesOf (String.ofList text) = utf8 text := by
  have bytes : (String.ofList text).toUTF8 = (utf8 text).toByteArray := String.toByteArray_ofList
  rw [bytesOf, bytes, List.data_toByteArray]

theorem bytesOf_eq (text : String) : bytesOf text = utf8 text.toList := by
  rw [← bytesOf_ofList, String.ofList_toList]

/-- The bytes of a character that is not ASCII are not ASCII. -/
theorem utf8EncodeChar_cases (c : Char) :
    c.toNat < 0x80 ∧ String.utf8EncodeChar c = [UInt8.ofNat c.toNat] ∨
      0x80 ≤ c.toNat ∧ ∀ b ∈ String.utf8EncodeChar c, 0x80 ≤ b.toNat := by
  have bound := c.val.toNat_lt
  have same : c.toNat = c.val.toNat := rfl
  delta String.utf8EncodeChar
  dsimp only
  rw [same]
  split
  · exact .inl ⟨by omega, rfl⟩
  · refine .inr ⟨by omega, ?_⟩
    split
    · simp
      omega
    · split
      · simp
        omega
      · simp
        omega

/-- A text as it is written, up to its first quotation mark. -/
def shown : List Char → List UInt8
  | [] => []
  | c :: text => if c = Json.quote then [0x5C] else utf8 (Json.escape c) ++ shown text

/-- And what stands between the others. -/
def others : List Char → List (List UInt8)
  | [] => []
  | c :: text => if c = Json.quote then shown text :: others text else others text

/-- What stands between quotation marks where a text is written. -/
def pieces (text : List Char) : List (List UInt8) := shown text :: others text

theorem shown_others (text : List Char) :
    shown text ++ joined quoteByte (others text) = utf8 (text.flatMap Json.escape) := by
  induction text with
  | nil => rfl
  | cons c text ih =>
    rw [List.flatMap_cons, utf8_append, ← ih, shown, others]
    split
    · rename_i same
      rw [same, joined_cons]
      rfl
    · rw [List.append_assoc]

theorem utf8_quote : utf8 [Json.quote] = [quoteByte] := by decide

/-- The pieces of a text that stands between quotation marks. -/
def Cuts (text : List Char) (cut : List (List UInt8)) : Prop := joined quoteByte cut = quoteByte :: utf8 text

theorem cuts_whole (text : List Char) : Cuts text [utf8 text] := by simp [Cuts]

theorem cuts_escaped (text : List Char) : Cuts (text.flatMap Json.escape) (pieces text) := by
  rw [Cuts, pieces, joined_cons, shown_others]

theorem Cuts.mark {text more : List Char} {cut cuts : List (List UInt8)} (first : Cuts text cut) (second : Cuts more cuts) :
    Cuts (text ++ Json.quote :: more) (cut ++ cuts) := by
  have parts : text ++ Json.quote :: more = text ++ ([Json.quote] ++ more) := rfl
  rw [Cuts, joined_append, first, second, parts, utf8_append, utf8_append, utf8_quote]
  rfl

/-! ## The pieces of `cmd.json` -/

/-- What stands between the texts of `cmd.json`. -/
def gap (text : String) : List UInt8 := utf8 text.toList

def interpreterPieces : Option String → List (List UInt8)
  | none => [gap ": null,\n  "]
  | some path => gap ": " :: (pieces path.toList ++ [gap ",\n  "])

def argsPieces : List String → List (List UInt8)
  | [] => [gap ": [],\n  "]
  | arg :: args => gap ": [\n    " :: (pieces arg.toList ++
      (args.flatMap (fun arg => gap ",\n    " :: pieces arg.toList) ++ [gap "\n  ],\n  "]))

def execPieces : Option String → List (List UInt8)
  | none => [gap ": null\n\x7d"]
  | some path => gap ": " :: (pieces path.toList ++ [gap "\n\x7d"])

def commandPieces (config : CmdConfig) : List (List UInt8) :=
  bytesOf "interpreter" :: (interpreterPieces config.interpreter ++
    bytesOf "args" :: (argsPieces config.args ++ bytesOf "exec" :: execPieces config.exec))

theorem cuts_interpreter (path : Option String) :
    Cuts (": ".toList ++ Json.pretty 1 (optionJson path) ++ ",\n  ".toList) (interpreterPieces path) := by
  cases path with
  | none => exact cuts_whole _
  | some path =>
    have text := (cuts_whole ": ".toList).mark ((cuts_escaped path.toList).mark (cuts_whole ",\n  ".toList))
    simpa [optionJson, Json.pretty, Json.quoted, interpreterPieces, gap] using text

theorem cuts_exec (path : Option String) :
    Cuts (": ".toList ++ Json.pretty 1 (optionJson path) ++ "\n\x7d".toList) (execPieces path) := by
  cases path with
  | none => exact cuts_whole _
  | some path =>
    have text := (cuts_whole ": ".toList).mark ((cuts_escaped path.toList).mark (cuts_whole "\n\x7d".toList))
    simpa [optionJson, Json.pretty, Json.quoted, execPieces, gap] using text

theorem cuts_items (args : List String) (closing : List Char) :
    Cuts (Json.prettyItems 2 (args.map fun arg => .string arg.toList) ++ closing)
      (args.flatMap (fun arg => gap ",\n    " :: pieces arg.toList) ++ [utf8 closing]) := by
  induction args with
  | nil => exact cuts_whole closing
  | cons arg args ih =>
    have text := (cuts_whole ",\n    ".toList).mark ((cuts_escaped arg.toList).mark ih)
    simpa [Json.prettyItems, Json.pretty, Json.quoted, Json.newline, gap] using text

theorem cuts_args (args : List String) :
    Cuts (": ".toList ++ Json.pretty 1 (.array (args.map fun arg => .string arg.toList)) ++ ",\n  ".toList)
      (argsPieces args) := by
  cases args with
  | nil => exact cuts_whole _
  | cons arg args =>
    have text := (cuts_whole ": [\n    ".toList).mark ((cuts_escaped arg.toList).mark
      (cuts_items args "\n  ],\n  ".toList))
    simpa [Json.pretty, Json.quoted, Json.newline, argsPieces, gap] using text

/-- The names of the fields have nothing to escape. -/
theorem quoted_name : ∀ name ∈ ["interpreter", "args", "exec"],
    Json.quoted name.toList = Json.quote :: (name.toList ++ [Json.quote]) := by
  decide

theorem cmdJson_eq (config : CmdConfig) :
    cmdJson config = gap "\x7b\n  " ++ joined quoteByte (commandPieces config) := by
  have cut := (cuts_whole "interpreter".toList).mark ((cuts_interpreter config.interpreter).mark
    ((cuts_whole "args".toList).mark ((cuts_args config.args).mark
      ((cuts_whole "exec".toList).mark (cuts_exec config.exec)))))
  have same : [utf8 "interpreter".toList] ++ (interpreterPieces config.interpreter ++ ([utf8 "args".toList] ++
      (argsPieces config.args ++ ([utf8 "exec".toList] ++ execPieces config.exec)))) = commandPieces config := by
    simp [commandPieces, bytesOf_eq]
  rw [same, Cuts, ← List.singleton_append, ← utf8_quote, ← utf8_append] at cut
  rw [cut, cmdJson, bytesOf_ofList, gap, ← utf8_append]
  refine congrArg utf8 ?_
  simp only [commandJson, fields, List.map_cons, List.map_nil, Json.pretty, Json.prettyFields,
    quoted_name "interpreter" (by simp), quoted_name "args" (by simp), quoted_name "exec" (by simp)]
  simp [Json.newline]

/-! ## What a written text looks like -/

/-- Written as it is, between quotation marks. -/
def Verbatim (text : List Char) : Prop := ∀ c ∈ text, c ≠ Json.quote ∧ c ≠ Json.backslash ∧ 0x20 ≤ c.toNat

theorem escape_verbatim {c : Char} (plain : c ≠ Json.quote ∧ c ≠ Json.backslash ∧ 0x20 ≤ c.toNat) :
    Json.escape c = [c] := by
  obtain ⟨quote, backslash, graphic⟩ := plain
  unfold Json.escape
  rw [if_neg (by simp [quote, backslash]), if_neg (by omega), if_neg (by omega), if_neg (by omega), if_neg (by omega),
    if_neg (by omega), if_neg (by omega)]

theorem escape_other {c : Char} (other : ¬ (c ≠ Json.quote ∧ c ≠ Json.backslash ∧ 0x20 ≤ c.toNat)) :
    c.toNat < 0x80 ∧ ∃ d rest, Json.escape c = Json.backslash :: d :: rest := by
  by_cases special : c = Json.quote ∨ c = Json.backslash
  · refine ⟨?_, c, [], if_pos special⟩
    rcases special with rfl | rfl
    · decide
    · decide
  · have control : c.toNat < 0x20 := by
      by_contra graphic
      exact other ⟨fun same => special (.inl same), fun same => special (.inr same), Nat.le_of_not_lt graphic⟩
    refine ⟨by omega, ?_⟩
    unfold Json.escape
    rw [if_neg special]
    split_ifs
    all_goals exact ⟨_, _, rfl⟩

theorem notMem_utf8 {b : UInt8} {text : List Char} (ascii : b.toNat < 0x80) (lacking : ∀ c ∈ text, c.toNat ≠ b.toNat) :
    b ∉ utf8 text := by
  intro member
  obtain ⟨c, inside, encoded⟩ := List.mem_flatMap.mp member
  have other := lacking c inside
  rcases utf8EncodeChar_cases c with ⟨low, one⟩ | ⟨-, high⟩
  · rw [one, List.mem_singleton] at encoded
    have same := congrArg UInt8.toNat encoded
    rw [UInt8.toNat_ofNat'] at same
    omega
  · have above := high b encoded
    omega

/-- Escaping adds no quotation mark, no zero and no colon. -/
theorem escape_adds {c : Char} (other : c ≠ Json.quote) :
    ∀ d ∈ Json.escape c, d.toNat ≠ 0x22 ∧ d.toNat ≠ 0 ∧ (c ≠ ':' → d.toNat ≠ 0x3A) := by
  have controls : ∀ n : Fin 0x20, (Json.escape (Char.ofNat n)).all fun d => d.toNat ∉ [0x22, 0, 0x3A] := by
    decide
  have slashes : Json.escape Json.backslash = [Json.backslash, Json.backslash] := by decide
  by_cases backslash : c = Json.backslash
  · rw [backslash, slashes]
    have value : Json.backslash.toNat = 0x5C := by decide
    intro d member
    have same : d = Json.backslash := by simpa using member
    rw [same, value]
    exact ⟨by omega, by omega, fun _ => by omega⟩
  · by_cases graphic : 0x20 ≤ c.toNat
    · rw [escape_verbatim ⟨other, backslash, graphic⟩, List.forall_mem_singleton]
      have quote : c.toNat ≠ 0x22 := fun same => other (Char.toNat_inj.mp same)
      exact ⟨quote, by omega, fun apart same => apart (Char.toNat_inj.mp same)⟩
    · intro d member
      have found := controls ⟨c.toNat, Nat.lt_of_not_le graphic⟩
      rw [Char.ofNat_toNat, List.all_eq_true] at found
      have none := found d member
      simp only [List.mem_cons, List.not_mem_nil, or_false, not_or, decide_eq_true_eq] at none
      exact ⟨none.1, none.2.1, fun _ => none.2.2⟩

theorem notMem_pieces (b : UInt8) {text : List Char} (ascii : b.toNat < 0x80) (slash : b ≠ 0x5C)
    (lacking : ∀ c ∈ text, c ≠ Json.quote → ∀ d ∈ Json.escape c, d.toNat ≠ b.toNat) :
    ∀ piece ∈ pieces text, b ∉ piece := by
  induction text with
  | nil => simp [pieces, shown, others]
  | cons c text ih =>
    obtain ⟨first, rest⟩ := List.forall_mem_cons.mp lacking
    have later := ih rest
    obtain ⟨start, more⟩ := List.forall_mem_cons.mp later
    unfold pieces shown others
    by_cases same : c = Json.quote
    · rw [if_pos same, if_pos same]
      exact List.forall_mem_cons.mpr ⟨by simpa using slash, later⟩
    · rw [if_neg same, if_neg same]
      refine List.forall_mem_cons.mpr ⟨?_, more⟩
      rw [List.mem_append]
      exact fun inside => inside.elim (notMem_utf8 ascii (first same)) start

/-- No byte of it ends a text, or a string of C. -/
def Clean (bytes : List UInt8) : Prop := quoteByte ∉ bytes ∧ 0 ∉ bytes

instance (bytes : List UInt8) : Decidable (Clean bytes) := inferInstanceAs (Decidable (_ ∧ _))

theorem clean_pieces (text : List Char) : ∀ piece ∈ pieces text, Clean piece := fun piece member =>
  ⟨notMem_pieces quoteByte (by decide) (by decide)
      (fun _ _ other d inside => (escape_adds other d inside).1) piece member,
    notMem_pieces 0 (by decide) (by decide) (fun _ _ other d inside => (escape_adds other d inside).2.1) piece member⟩

theorem colon_pieces {text : List Char} (none : ':' ∉ text) : ∀ piece ∈ pieces text, 0x3A ∉ piece := by
  refine notMem_pieces 0x3A (by decide) (by decide) fun c inside other d member => (escape_adds other d member).2.2 ?_
  rintro rfl
  exact none inside

theorem shown_verbatim {text : List Char} (plain : Verbatim text) : shown text = utf8 text := by
  induction text with
  | nil => rfl
  | cons c text ih =>
    obtain ⟨first, rest⟩ := List.forall_mem_cons.mp plain
    rw [shown, if_neg first.1, escape_verbatim first, ih rest]
    simp

/-- What is escaped gets longer. -/
theorem shown_grows {text : List Char} (unquoted : Json.quote ∉ text) : (utf8 text).length ≤ (shown text).length ∧
    ((shown text).length ≤ (utf8 text).length → Verbatim text) := by
  induction text with
  | nil => simp [shown, Verbatim]
  | cons c text ih =>
    obtain ⟨first, rest⟩ := List.ne_and_not_mem_of_not_mem_cons unquoted
    obtain ⟨longer, same⟩ := ih rest
    rw [shown, if_neg (Ne.symm first), utf8_cons, List.length_append, List.length_append]
    by_cases plain : c ≠ Json.quote ∧ c ≠ Json.backslash ∧ 0x20 ≤ c.toNat
    · rw [escape_verbatim plain, utf8_cons, utf8_nil, List.append_nil]
      exact ⟨by omega, fun short => List.forall_mem_cons.mpr ⟨plain, same (by omega)⟩⟩
    · obtain ⟨ascii, d, more, escaped⟩ := escape_other plain
      have one : (String.utf8EncodeChar c).length = 1 := by
        rcases utf8EncodeChar_cases c with ⟨-, encoded⟩ | ⟨high, -⟩
        · rw [encoded, List.length_singleton]
        · omega
      have two : 2 ≤ (utf8 (Json.escape c)).length := by
        have some := List.length_pos_iff.mpr (String.utf8EncodeChar_ne_nil (c := d))
        have back := List.length_pos_iff.mpr (String.utf8EncodeChar_ne_nil (c := Json.backslash))
        rw [escaped, utf8_cons, utf8_cons, List.length_append, List.length_append]
        omega
      exact ⟨by omega, fun short => absurd short (by omega)⟩

theorem shown_eq_iff {text : List Char} : shown text = utf8 text ↔ Verbatim text := by
  refine ⟨fun same => ?_, shown_verbatim⟩
  have clean : Clean (shown text) := clean_pieces text _ List.mem_cons_self
  have unquoted : Json.quote ∉ text := fun inside => by
    refine clean.1 (same ▸ List.mem_flatMap.mpr ⟨Json.quote, inside, ?_⟩)
    decide
  exact (shown_grows unquoted).2 (Nat.le_of_eq (congrArg List.length same))

theorem others_verbatim {text : List Char} (plain : Verbatim text) : others text = [] := by
  induction text with
  | nil => rfl
  | cons c text ih =>
    obtain ⟨first, rest⟩ := List.forall_mem_cons.mp plain
    rw [others, if_neg first.1, ih rest]

theorem shown_ne_nil {text : List Char} (some : text ≠ []) : shown text ≠ [] := by
  cases text with
  | nil => exact absurd rfl some
  | cons c text =>
    rw [shown]
    split
    · exact List.cons_ne_nil _ _
    · intro empty
      have nothing := (List.append_eq_nil_iff.mp empty).1
      by_cases plain : c ≠ Json.quote ∧ c ≠ Json.backslash ∧ 0x20 ≤ c.toNat
      · rw [escape_verbatim plain, utf8_cons] at nothing
        exact String.utf8EncodeChar_ne_nil (List.append_eq_nil_iff.mp nothing).1
      · obtain ⟨-, d, more, escaped⟩ := escape_other plain
        rw [escaped, utf8_cons] at nothing
        exact String.utf8EncodeChar_ne_nil (List.append_eq_nil_iff.mp nothing).1

/-! ## Values that are taken for the key -/

/-- The value is the name of the field, or ends in it behind a quotation mark. -/
def EndsLikeKey (value : String) : Prop :=
  value = "exec" ∨ Json.quote :: "exec".toList <:+ value.toList

instance (value : String) : Decidable (EndsLikeKey value) := inferInstanceAs (Decidable (_ ∨ _))

theorem utf8EncodeChar_ascii {c : Char} (ascii : c.toNat < 0x80) : String.utf8EncodeChar c = [UInt8.ofNat c.toNat] := by
  rcases utf8EncodeChar_cases c with ⟨-, one⟩ | ⟨high, -⟩
  · exact one
  · omega

theorem ofNat_inj {c d : Char} (ascii : c.toNat < 0x80) (ascii' : d.toNat < 0x80)
    (same : UInt8.ofNat c.toNat = UInt8.ofNat d.toNat) : c = d := by
  have bytes := congrArg UInt8.toNat same
  rw [UInt8.toNat_ofNat', UInt8.toNat_ofNat'] at bytes
  exact Char.toNat_inj.mp (by omega)

/-- Only itself is written as a name without backslashes. -/
theorem shown_eq_name {text name : List Char} (ascii : ∀ d ∈ name, d.toNat < 0x80 ∧ d ≠ Json.backslash)
    (same : shown text = utf8 name) : text = name := by
  induction text generalizing name with
  | nil =>
    cases name with
    | nil => rfl
    | cons d name =>
      have nothing : String.utf8EncodeChar d ++ utf8 name = [] := same.symm
      exact absurd (List.append_eq_nil_iff.mp nothing).1 String.utf8EncodeChar_ne_nil
  | cons c text ih =>
    cases name with
    | nil => exact absurd same (shown_ne_nil (List.cons_ne_nil _ _))
    | cons d name =>
      obtain ⟨⟨low, other⟩, rest⟩ := List.forall_mem_cons.mp ascii
      have slash : ∀ more, 0x5C :: more ≠ utf8 (d :: name) := by
        intro more same
        rw [utf8_cons, utf8EncodeChar_ascii low] at same
        exact other (ofNat_inj (c := Json.backslash) (by decide) low (List.cons.inj same).1).symm
      rw [shown] at same
      split at same
      · exact absurd same (slash [])
      · by_cases plain : c ≠ Json.quote ∧ c ≠ Json.backslash ∧ 0x20 ≤ c.toNat
        · rw [escape_verbatim plain, utf8_cons, utf8_nil, List.append_nil, utf8_cons, utf8EncodeChar_ascii low] at same
          rcases utf8EncodeChar_cases c with ⟨low', one⟩ | ⟨-, high⟩
          · rw [one] at same
            obtain ⟨first, tails⟩ := List.cons.inj same
            rw [ofNat_inj low' low first, ih rest tails]
          · obtain ⟨b, bytes, encoded⟩ := List.exists_cons_of_ne_nil (String.utf8EncodeChar_ne_nil (c := c))
            have first := high b (by rw [encoded]; exact List.mem_cons_self)
            rw [encoded] at same
            have equal : b = UInt8.ofNat d.toNat := (List.cons.inj same).1
            rw [equal, UInt8.toNat_ofNat'] at first
            omega
        · obtain ⟨-, e, more, escaped⟩ := escape_other plain
          rw [escaped] at same
          exact absurd same (slash _)

theorem shown_eq_key {text : List Char} (same : shown text = bytesOf "exec") : text = "exec".toList := by
  have ascii : "exec".toList.all fun d => d.toNat < 0x80 ∧ d ≠ Json.backslash := by decide
  refine shown_eq_name (fun d member => ?_) (same.trans (bytesOf_eq "exec"))
  exact of_decide_eq_true (List.all_eq_true.mp ascii d member)

theorem mem_others_key {text : List Char} (member : bytesOf "exec" ∈ others text) :
    Json.quote :: "exec".toList <:+ text := by
  induction text with
  | nil => cases member
  | cons c text ih =>
    rw [others] at member
    split at member
    · rename_i quote
      rcases List.mem_cons.mp member with same | later
      · rw [quote, shown_eq_key same.symm]
      · exact (ih later).trans (List.suffix_cons c text)
    · exact (ih member).trans (List.suffix_cons c text)

theorem mem_pieces_key {value : String} (member : bytesOf "exec" ∈ pieces value.toList) : EndsLikeKey value := by
  rcases List.mem_cons.mp member with same | later
  · exact .inl (String.toList_inj.mp (shown_eq_key same.symm))
  · exact .inr (mem_others_key later)

/-- Only the last piece of a value is the key. -/
theorem backslash_mem {text : List Char} : ∀ piece ∈ (pieces text).dropLast, 0x5C ∈ piece := by
  induction text with
  | nil => simp [pieces, others]
  | cons c text ih =>
    unfold pieces at ih ⊢
    rw [shown, others]
    by_cases same : c = Json.quote
    · rw [if_pos same, if_pos same, List.dropLast_cons_of_ne_nil (List.cons_ne_nil _ _)]
      exact List.forall_mem_cons.mpr ⟨List.mem_cons_self, ih⟩
    · rw [if_neg same, if_neg same]
      cases rest : others text with
      | nil => simp
      | cons next more =>
        rw [rest, List.dropLast_cons_of_ne_nil (List.cons_ne_nil _ _)] at ih
        rw [List.dropLast_cons_of_ne_nil (List.cons_ne_nil _ _)]
        obtain ⟨first, later⟩ := List.forall_mem_cons.mp ih
        exact List.forall_mem_cons.mpr ⟨List.mem_append_right _ first, later⟩

theorem key_notMem : 0x5C ∉ bytesOf "exec" ∧ 0x3A ∉ bytesOf "exec" := by decide

/-- What follows the first text of the array. -/
def itemPieces (args : List String) : List (List UInt8) :=
  args.flatMap (fun arg => gap ",\n    " :: pieces arg.toList) ++ [gap "\n  ],\n  "]

theorem colon_itemPieces {args : List String} (none : ∀ arg ∈ args, ':' ∉ arg.toList) :
    ∀ piece ∈ itemPieces args, 0x3A ∉ piece := by
  intro piece member
  rcases List.mem_append.mp member with inside | last
  · obtain ⟨arg, there, inside⟩ := List.mem_flatMap.mp inside
    rcases List.mem_cons.mp inside with rfl | inside
    · decide
    · exact colon_pieces (none arg there) piece inside
  · rw [List.mem_singleton.mp last]
    decide

/-- No value is taken for the key of the program but where no colon follows
before the key itself. -/
def Clear (config : CmdConfig) : Prop :=
  (∀ path ∈ config.interpreter, ¬ EndsLikeKey path) ∧
    ∀ before arg after, config.args = before ++ arg :: after → EndsLikeKey arg → ∀ later ∈ after, ':' ∉ later.toList

/-- The last piece of a value is the key, if any is. -/
theorem split_at_key {text : List Char} (key : bytesOf "exec" ∈ pieces text) :
    pieces text = (pieces text).dropLast ++ [bytesOf "exec"] ∧ bytesOf "exec" ∉ (pieces text).dropLast := by
  have early : bytesOf "exec" ∉ (pieces text).dropLast := fun inside => key_notMem.1 (backslash_mem _ inside)
  have whole := List.dropLast_append_getLast (show pieces text ≠ [] from List.cons_ne_nil _ _)
  rw [← whole, List.mem_append, List.mem_singleton] at key
  refine ⟨?_, early⟩
  rw [key.resolve_left early, whole]

theorem split_here {arg : String} {args : List String} (key : bytesOf "exec" ∈ pieces arg.toList)
    (none : ∀ later ∈ args, ':' ∉ later.toList) :
    ∃ early late, pieces arg.toList ++ itemPieces args = early ++ late ∧ bytesOf "exec" ∉ early ∧
      ∀ piece ∈ late, 0x3A ∉ piece := by
  obtain ⟨split, early⟩ := split_at_key key
  refine ⟨_, bytesOf "exec" :: itemPieces args, ?_, early, ?_⟩
  · rw [split, List.append_assoc, List.dropLast_concat]
    rfl
  · exact List.forall_mem_cons.mpr ⟨key_notMem.2, colon_itemPieces none⟩

/-- No colon follows the first piece that is the key in the array. -/
theorem exists_split {arg : String} {args : List String}
    (clear : ∀ before found after, arg :: args = before ++ found :: after → EndsLikeKey found →
      ∀ later ∈ after, ':' ∉ later.toList) :
    ∃ early late, pieces arg.toList ++ itemPieces args = early ++ late ∧ bytesOf "exec" ∉ early ∧
      ∀ piece ∈ late, 0x3A ∉ piece := by
  induction args generalizing arg with
  | nil =>
    by_cases key : bytesOf "exec" ∈ pieces arg.toList
    · exact split_here key (clear [] arg [] rfl (mem_pieces_key key))
    · refine ⟨pieces arg.toList ++ itemPieces [], [], (List.append_nil _).symm, ?_, List.forall_mem_nil _⟩
      rw [List.mem_append]
      exact fun inside => inside.elim key (by decide)
  | cons next args ih =>
    by_cases key : bytesOf "exec" ∈ pieces arg.toList
    · exact split_here key (clear [] arg (next :: args) rfl (mem_pieces_key key))
    · obtain ⟨early, late, split, absent, clean⟩ := ih fun before found after same =>
        clear (arg :: before) found after (congrArg (arg :: ·) same)
      have items : itemPieces (next :: args) = gap ",\n    " :: (pieces next.toList ++ itemPieces args) := by
        simp [itemPieces]
      refine ⟨pieces arg.toList ++ gap ",\n    " :: early, late, ?_, ?_, clean⟩
      · rw [items, split, List.append_assoc, List.cons_append]
      · rw [List.mem_append, List.mem_cons]
        rintro (inside | same | inside)
        · exact key inside
        · exact absurd same (by decide)
        · exact absent inside

theorem args_split {args : List String} (clear : ∀ before found after, args = before ++ found :: after →
      EndsLikeKey found → ∀ later ∈ after, ':' ∉ later.toList) :
    ∃ early late, argsPieces args = early ++ late ∧ bytesOf "exec" ∉ early ∧ ∀ piece ∈ late, 0x3A ∉ piece := by
  cases args with
  | nil => exact ⟨argsPieces [], [], (List.append_nil _).symm, by decide, List.forall_mem_nil _⟩
  | cons arg args =>
    obtain ⟨early, late, split, absent, clean⟩ := exists_split clear
    have whole : argsPieces (arg :: args) = gap ": [\n    " :: (pieces arg.toList ++ itemPieces args) := rfl
    refine ⟨gap ": [\n    " :: early, late, by rw [whole, split, List.cons_append], ?_, clean⟩
    rw [List.mem_cons]
    rintro (same | inside)
    · exact absurd same (by decide)
    · exact absent inside

theorem interpreter_absent {interpreter : Option String} (clear : ∀ path ∈ interpreter, ¬ EndsLikeKey path) :
    bytesOf "exec" ∉ interpreterPieces interpreter := by
  cases interpreter with
  | none => decide
  | some path =>
    have other : bytesOf "exec" ∉ pieces path.toList := fun inside => clear path rfl (mem_pieces_key inside)
    rw [interpreterPieces, List.mem_cons, List.mem_append, List.mem_singleton]
    rintro (same | inside | same)
    · exact absurd same (by decide)
    · exact other inside
    · exact absurd same (by decide)

/-- The key is found, or what is found for it leads to the same colon. -/
theorem seek_exec {config : CmdConfig} (clear : Clear config) :
    (seek (bytesOf "exec") (commandPieces config)).map (behind 0x3A) = some (behind 0x3A (execPieces config.exec)) := by
  obtain ⟨early, late, split, absent, clean⟩ := args_split clear.2
  have parts : commandPieces config = (bytesOf "interpreter" :: (interpreterPieces config.interpreter ++
      bytesOf "args" :: early)) ++ (late ++ bytesOf "exec" :: execPieces config.exec) := by
    rw [commandPieces, split]
    simp
  have before : bytesOf "exec" ∉ bytesOf "interpreter" :: (interpreterPieces config.interpreter ++
      bytesOf "args" :: early) := by
    rw [List.mem_cons, List.mem_append, List.mem_cons]
    rintro (same | inside | same | inside)
    · exact absurd same (by decide)
    · exact interpreter_absent clear.1 inside
    · exact absurd same (by decide)
    · exact absent inside
  have some : execPieces config.exec ≠ [] := by
    cases config.exec <;> exact List.cons_ne_nil _ _
  rw [parts, seek_append before, behind_of_seek some key_notMem.2 clean]

/-! ## The fields in `cmd.json` -/

theorem clean_itemPieces (args : List String) : ∀ piece ∈ itemPieces args, Clean piece := by
  intro piece member
  rcases List.mem_append.mp member with inside | last
  · obtain ⟨arg, -, inside⟩ := List.mem_flatMap.mp inside
    rcases List.mem_cons.mp inside with rfl | inside
    · decide
    · exact clean_pieces _ piece inside
  · rw [List.mem_singleton.mp last]
    decide

theorem clean_value {front behind : List UInt8} (text : List Char) (before : Clean front) (after : Clean behind) :
    ∀ piece ∈ front :: (pieces text ++ [behind]), Clean piece :=
  List.forall_mem_cons.mpr ⟨before, List.forall_mem_append.mpr ⟨clean_pieces text, List.forall_mem_singleton.mpr after⟩⟩

theorem clean_commandPieces (config : CmdConfig) : ∀ piece ∈ commandPieces config, Clean piece := by
  have interpreter : ∀ piece ∈ interpreterPieces config.interpreter, Clean piece := by
    cases config.interpreter with
    | none => decide
    | some path => exact clean_value _ (by decide) (by decide)
  have exec : ∀ piece ∈ execPieces config.exec, Clean piece := by
    cases config.exec with
    | none => decide
    | some path => exact clean_value _ (by decide) (by decide)
  have args : ∀ piece ∈ argsPieces config.args, Clean piece := by
    cases config.args with
    | nil => decide
    | cons arg args =>
      refine List.forall_mem_cons.mpr ⟨by decide, List.forall_mem_append.mpr ⟨clean_pieces _, ?_⟩⟩
      exact clean_itemPieces args
  refine List.forall_mem_cons.mpr ⟨by decide, List.forall_mem_append.mpr ⟨interpreter, ?_⟩⟩
  refine List.forall_mem_cons.mpr ⟨by decide, List.forall_mem_append.mpr ⟨args, ?_⟩⟩
  exact List.forall_mem_cons.mpr ⟨by decide, exec⟩

theorem zero_notMem_cmdJson (config : CmdConfig) : 0 ∉ cmdJson config := by
  rw [cmdJson_eq, List.mem_append]
  rintro (inside | inside)
  · exact absurd inside (by decide)
  · obtain ⟨piece, member, inside⟩ := List.mem_flatMap.mp inside
    rcases List.mem_cons.mp inside with same | inside
    · exact absurd same (by decide)
    · exact (clean_commandPieces config piece member).2 inside

theorem quotedBehind_cmdJson (config : CmdConfig) {name : String} {mark : UInt8} (clean : quoteByte ∉ bytesOf name)
    (apart : mark ≠ quoteByte) : quotedBehind quoteByte mark (keyOf name) (cmdJson config) =
      quotedPiece quoteByte mark (bytesOf name) (commandPieces config) := by
  rw [cmdJson_eq]
  exact quotedBehind_joined apart clean (by decide) fun piece member =>
    (clean_commandPieces config piece member).1

/-- What `init` reads of the file. -/
def buffer (config : CmdConfig) : List UInt8 := (cmdJson config).take (cmdJsonMax - 1)

theorem upToZero_buffer (config : CmdConfig) : upToZero (buffer config) = buffer config :=
  Memory.upToZero_eq_self.mpr fun inside => zero_notMem_cmdJson config (List.mem_of_mem_take inside)

theorem fieldOf_buffer {config : CmdConfig} {name : String} {mark : UInt8} {value : List UInt8}
    {rest : List (List UInt8)} (clean : quoteByte ∉ bytesOf name) (apart : mark ≠ quoteByte)
    (unmarked : mark ∉ keyOf name) (some : rest ≠ [])
    (sought : (seek (bytesOf name) (commandPieces config)).map (behind mark) = .some (value :: rest)) :
    fieldOf name mark (buffer config) =
      if (cmdJson config).length < 4095 + (joined quoteByte rest).length then .some value else none := by
  obtain ⟨next, rest, rfl⟩ := List.exists_cons_of_ne_nil some
  have found := quotedBehind_cmdJson config clean apart
  rw [quotedPiece_some sought] at found
  exact quotedBehind_take found (List.cons_ne_nil _ _) unmarked

theorem fieldOf_buffer_none {config : CmdConfig} {name : String} {mark : UInt8} (clean : quoteByte ∉ bytesOf name)
    (apart : mark ≠ quoteByte)
    (sought : (seek (bytesOf name) (commandPieces config)).map (behind mark) = some []) :
    fieldOf name mark (buffer config) = none := by
  have missing := quotedBehind_cmdJson config clean apart
  rw [quotedPiece_none sought] at missing
  rw [fieldOf, buffer, quotedBehind_take_none missing (List.cons_ne_nil _ _), Option.map_none]

/-- The closing quotation mark of the program, as shown, is among the bytes that
`init` reads. -/
def Reached (config : CmdConfig) (path : String) : Prop :=
  (cmdJson config).length < 4095 + (joined quoteByte (others path.toList ++ [gap "\n\x7d"])).length

instance (config : CmdConfig) (path : String) : Decidable (Reached config path) := inferInstanceAs (Decidable (_ < _))

section Fields
variable {config : CmdConfig} {path : String}

theorem execField_none (clear : Clear config) (absent : config.exec = none) : execField (buffer config) = none := by
  have sought := seek_exec clear
  have last : behind 0x3A (execPieces none) = [] := by decide
  rw [absent, last] at sought
  rw [execField, fieldOf_buffer_none (by decide) (by decide) sought]
  rfl

theorem execField_some (clear : Clear config) (present : config.exec = some path) : execField (buffer config) =
    if Reached config path ∧ (shown path.toList).length < 255 then some (shown path.toList) else none := by
  have sought := seek_exec clear
  have marked : (0x3A : UInt8) ∈ gap ": " := by decide
  rw [present, execPieces, behind_here marked, pieces, List.cons_append] at sought
  rw [execField, fieldOf_buffer (by decide) (by decide) (by decide) (by simp) sought]
  by_cases reached : Reached config path
  · rw [if_pos (show (cmdJson config).length < _ from reached)]
    by_cases short : (shown path.toList).length < 255
    · simp [reached, short, execSize]
    · simp [short, execSize]
  · rw [if_neg (show ¬ (cmdJson config).length < _ from reached), if_neg fun both => reached both.1]
    rfl

theorem length_cmdJson {front rest : List (List UInt8)} (split : commandPieces config = front ++ rest) :
    (cmdJson config).length = 4 + (joined quoteByte front).length + (joined quoteByte rest).length := by
  have start : (gap "\x7b\n  ").length = 4 := by decide
  rw [cmdJson_eq, split, joined_append, List.length_append, List.length_append, start, Nat.add_assoc]

theorem interpreterField_none (absent : config.interpreter = none) :
    interpreterField (buffer config) = some (bytesOf "args") := by
  have split : commandPieces config = [bytesOf "interpreter", gap ": null,\n  ", bytesOf "args"] ++
      (argsPieces config.args ++ bytesOf "exec" :: execPieces config.exec) := by
    rw [commandPieces, absent]
    rfl
  have front : (joined quoteByte [bytesOf "interpreter", gap ": null,\n  ", bytesOf "args"]).length = 28 := by
    decide
  have length := length_cmdJson split
  have sought : (seek (bytesOf "interpreter") (commandPieces config)).map (behind 0x3A) =
      some (bytesOf "args" :: (argsPieces config.args ++ bytesOf "exec" :: execPieces config.exec)) := by
    rw [split, List.cons_append, seek_here (by simp), Option.map_some, behind_skip (by decide),
      List.cons_append, behind_here (by decide)]
    rfl
  rw [interpreterField, fieldOf_buffer (by decide) (by decide) (by decide) (by simp) sought,
    if_pos (by omega)]
  decide

theorem interpreterField_some (present : config.interpreter = some path) :
    interpreterField (buffer config) =
      if (shown path.toList).length < 256 then some (shown path.toList) else none := by
  have split : commandPieces config = [bytesOf "interpreter", gap ": ", shown path.toList] ++
      (others path.toList ++ gap ",\n  " :: bytesOf "args" ::
        (argsPieces config.args ++ bytesOf "exec" :: execPieces config.exec)) := by
    rw [commandPieces, present]
    simp [interpreterPieces, pieces]
  have name : (bytesOf "interpreter").length = 11 := by decide
  have colon : (gap ": ").length = 2 := by decide
  have length := length_cmdJson split
  rw [joined_cons, joined_cons, joined_cons, joined_nil, List.append_nil] at length
  simp only [List.length_cons, List.length_append, name, colon] at length
  have sought : (seek (bytesOf "interpreter") (commandPieces config)).map (behind 0x3A) =
      some (shown path.toList :: (others path.toList ++ gap ",\n  " :: bytesOf "args" ::
        (argsPieces config.args ++ bytesOf "exec" :: execPieces config.exec))) := by
    rw [split, List.cons_append, seek_here (by simp), Option.map_some, behind_skip (by decide),
      List.cons_append, behind_here (by decide)]
    rfl
  rw [interpreterField, fieldOf_buffer (by decide) (by decide) (by decide) (by simp) sought]
  by_cases short : (shown path.toList).length < 256
  · rw [if_pos (by omega)]
    simp [short, interpreterSize]
  · rw [if_neg short]
    split
    · simp [short, interpreterSize]
    · rfl

/-- The pieces behind the key of the array. -/
def afterArgs (config : CmdConfig) : List (List UInt8) :=
  argsPieces config.args ++ bytesOf "exec" :: execPieces config.exec

theorem split_verbatim (present : config.interpreter = some path) (plain : Verbatim path.toList) :
    commandPieces config = [bytesOf "interpreter", gap ": "] ++
      (bytesOf path :: gap ",\n  " :: bytesOf "args" :: afterArgs config) := by
  rw [commandPieces, present, interpreterPieces, pieces, shown_verbatim plain, others_verbatim plain, ← bytesOf_eq]
  rfl

/-- The array is found, also behind an interpreter with the name of its key. -/
theorem seek_args (present : config.interpreter = some path) (plain : Verbatim path.toList) :
    (seek (bytesOf "args") (commandPieces config)).map (behind 0x5B) = some (behind 0x5B (afterArgs config)) := by
  have some : afterArgs config ≠ [] := by simp [afterArgs]
  have unmarked : (0x5B : UInt8) ∉ bytesOf "args" := by decide
  rw [split_verbatim present plain, seek_append (by decide)]
  by_cases same : bytesOf path = bytesOf "args"
  · have early : ∀ piece ∈ [bytesOf "args", gap ",\n  "], (0x5B : UInt8) ∉ piece := by decide
    have found := behind_of_seek some unmarked early
    rw [same]
    exact found
  · have absent : bytesOf "args" ∉ [bytesOf path, gap ",\n  "] := by
      rw [List.mem_cons, List.mem_singleton]
      rintro (equal | equal)
      · exact same equal.symm
      · exact absurd equal (by decide)
    have skipped : seek (bytesOf "args") (bytesOf path :: gap ",\n  " :: bytesOf "args" :: afterArgs config) =
        seek (bytesOf "args") (bytesOf "args" :: afterArgs config) := seek_append absent
    rw [skipped, seek_here some, Option.map_some, behind_skip unmarked]

/-- Behind an empty array the next text is the key of the program. -/
theorem argsField_nil (present : config.interpreter = some path) (plain : Verbatim path.toList)
    (short : (bytesOf path).length < 256) (empty : config.args = []) :
    argsField (buffer config) = [bytesOf "exec"] := by
  have sought := seek_args present plain
  have after : afterArgs config = gap ": [],\n  " :: bytesOf "exec" :: execPieces config.exec := by
    rw [afterArgs, empty]
    rfl
  rw [after, behind_here (by decide)] at sought
  have some : execPieces config.exec ≠ [] := by cases config.exec <;> exact List.cons_ne_nil _ _
  have split : commandPieces config = ([bytesOf "interpreter", gap ": "] ++ [bytesOf path, gap ",\n  ", bytesOf "args",
      gap ": [],\n  ", bytesOf "exec"]) ++ execPieces config.exec := by
    rw [split_verbatim present plain, after]
    simp
  have length := length_cmdJson split
  have first : (joined quoteByte [bytesOf "interpreter", gap ": "]).length = 15 := by decide
  have second : (joined quoteByte [gap ",\n  ", bytesOf "args", gap ": [],\n  ", bytesOf "exec"]).length = 24 := by
    decide
  rw [joined_append, List.length_append, first, joined_cons, List.length_cons, List.length_append, second] at length
  rw [argsField, fieldOf_buffer (by decide) (by decide) (by decide) some sought, if_pos (by omega)]
  decide

theorem argsField_cons {arg : String} {args : List String} (present : config.interpreter = some path)
    (plain : Verbatim path.toList) (listed : config.args = arg :: args) :
    argsField (buffer config) =
      if (cmdJson config).length < 4095 + (joined quoteByte (others arg.toList ++ (itemPieces args ++
          bytesOf "exec" :: execPieces config.exec))).length ∧ (shown arg.toList).length < 64
      then [shown arg.toList] else [] := by
  have sought := seek_args present plain
  have after : afterArgs config = gap ": [\n    " :: (shown arg.toList :: (others arg.toList ++ (itemPieces args ++
      bytesOf "exec" :: execPieces config.exec))) := by
    rw [afterArgs, listed]
    simp [argsPieces, itemPieces, pieces]
  rw [after, behind_here (by decide)] at sought
  rw [argsField, fieldOf_buffer (by decide) (by decide) (by decide) (by simp) sought]
  by_cases short : (shown arg.toList).length < 64
  · simp only [short, and_true]
    split
    · simp [short, argSize]
    · rfl
  · simp only [short, and_false, if_false]
    split
    · simp [short, argSize]
    · rfl

/-- The guest knows one argument, of few bytes. -/
theorem argsField_eq_iff (present : config.interpreter = some path) (plain : Verbatim path.toList)
    (short : (bytesOf path).length < 256) : argsField (buffer config) = config.args.map bytesOf ↔
      ∃ arg, config.args = [arg] ∧ Verbatim arg.toList ∧ (bytesOf arg).length < 64 := by
  cases listed : config.args with
  | nil =>
    rw [argsField_nil present plain short listed]
    simp
  | cons arg args =>
    rw [argsField_cons present plain listed, List.map_cons]
    constructor
    · intro same
      split at same
      · rename_i read
        obtain ⟨first, rest⟩ := List.cons.inj same
        rw [bytesOf_eq] at first
        have whole := shown_eq_iff.mp first
        have alone : args = [] := List.map_eq_nil_iff.mp rest.symm
        refine ⟨arg, by rw [alone], whole, ?_⟩
        rw [bytesOf_eq, ← first]
        exact read.2
      · cases same
    · rintro ⟨only, alone, whole, few⟩
      obtain ⟨rfl, rfl⟩ := List.cons.inj alone
      have split : commandPieces config = ([bytesOf "interpreter", gap ": "] ++ [bytesOf path, gap ",\n  ",
          bytesOf "args", gap ": [\n    ", bytesOf arg]) ++ (itemPieces [] ++ bytesOf "exec" :: execPieces config.exec) := by
        rw [split_verbatim present plain, afterArgs, listed, argsPieces, pieces, shown_verbatim whole,
          others_verbatim whole, ← bytesOf_eq]
        simp [itemPieces]
      have length := length_cmdJson split
      have first : (joined quoteByte [bytesOf "interpreter", gap ": "]).length = 15 := by decide
      have comma : (gap ",\n  ").length = 4 := by decide
      have name : (bytesOf "args").length = 4 := by decide
      have bracket : (gap ": [\n    ").length = 8 := by decide
      rw [joined_append, List.length_append, first] at length
      simp only [joined_cons, joined_nil, List.length_cons, List.length_append, List.length_nil, comma, name,
        bracket] at length
      rw [others_verbatim whole, shown_verbatim whole, ← bytesOf_eq, List.nil_append, if_pos ⟨by omega, few⟩]
      rfl

end Fields

/-! ## Where both sides agree -/

/-- The interpreter, as shown, does not fit into what `init` has for it. -/
def LongInterpreter (config : CmdConfig) : Prop :=
  ∃ path, config.interpreter = some path ∧ 256 ≤ (shown path.toList).length

/-- A program, or an interpreter with one argument, written as it is and short
enough; or an interpreter so long that `init` gives up on it. -/
def Represented (config : CmdConfig) : Prop :=
  match config.exec with
  | some path =>
    (Verbatim path.toList ∧ path ≠ "" ∧ (bytesOf path).length < 255 ∧ Reached config path) ∨
      ((255 ≤ (shown path.toList).length ∨ ¬ Reached config path) ∧ LongInterpreter config)
  | none =>
    LongInterpreter config ∨ ∃ path arg, config.interpreter = some path ∧ config.args = [arg] ∧ path ≠ "" ∧
      Verbatim path.toList ∧ (bytesOf path).length < 256 ∧ Verbatim arg.toList ∧ (bytesOf arg).length < 64

theorem parse_cmdJson (config : CmdConfig) : parseCmdJson (some (cmdJson config)) =
    match execField (buffer config) with
    | some path => some ⟨[], [], path⟩
    | none => (interpreterField (buffer config)).map fun interpreter => ⟨interpreter, argsField (buffer config), []⟩ := by
  have full : (cmdJson config).take (cmdJsonMax - 1) ≠ [] := by
    have length := length_cmdJson (List.nil_append (commandPieces config)).symm
    rw [← List.length_pos_iff, List.length_take, cmdJsonMax]
    omega
  have whole : upToZero ((cmdJson config).take (cmdJsonMax - 1)) = buffer config := upToZero_buffer config
  unfold parseCmdJson
  simp only [Option.bind_eq_bind, Option.bind_some, Option.pure_def]
  rw [if_neg full, whole]
  cases execField (buffer config) with
  | some path => rfl
  | none => exact (Option.map_eq_bind ..).symm

theorem shown_eq_bytesOf {path : String} : shown path.toList = bytesOf path ↔ Verbatim path.toList := by
  rw [bytesOf_eq, shown_eq_iff]

theorem shown_ne_nil_iff {path : String} : shown path.toList ≠ [] ↔ path ≠ "" := by
  constructor
  · rintro some rfl
    exact some rfl
  · exact fun some => shown_ne_nil fun empty => some (String.toList_inj.mp empty)

theorem interpreterField_eq_none {config : CmdConfig} :
    interpreterField (buffer config) = none ↔ LongInterpreter config := by
  unfold LongInterpreter
  cases present : config.interpreter with
  | none => simp [interpreterField_none present]
  | some path =>
    rw [interpreterField_some present]
    simp

theorem means_exec {config : CmdConfig} {path : String} (clear : Clear config) (present : config.exec = some path) :
    Means config ↔ Represented config := by
  have asks : ∀ selection, Asks config selection ↔ selection = .exec (bytesOf path) := fun selection => by
    simp [Asks, present]
  unfold Means Represented
  rw [asks, parse_cmdJson, execField_some clear present, present]
  by_cases found : Reached config path ∧ (shown path.toList).length < 255
  · obtain ⟨reached, short⟩ := found
    rw [if_pos ⟨reached, short⟩]
    by_cases empty : path = ""
    · subst empty
      simp [select, shown, reached]
    · have some : shown path.toList ≠ [] := shown_ne_nil_iff.mpr empty
      have few : Verbatim path.toList → (bytesOf path).length < 255 := fun plain => by
        rw [← shown_eq_bytesOf.mpr plain]
        exact short
      simp [select, some, shown_eq_bytesOf, empty, reached, Nat.not_le.mpr short]
      exact few
  · rw [if_neg found]
    have missed : 255 ≤ (shown path.toList).length ∨ ¬ Reached config path := by
      by_contra both
      push Not at both
      exact found ⟨both.2, both.1⟩
    have second : ¬ (Verbatim path.toList ∧ path ≠ "" ∧ (bytesOf path).length < 255 ∧ Reached config path) := by
      rintro ⟨plain, -, short, reached⟩
      exact found ⟨reached, (shown_eq_bytesOf.mpr plain).symm ▸ short⟩
    simp only [second, missed, true_and, false_or, Option.map_eq_none_iff, interpreterField_eq_none]
    refine or_iff_left ?_
    intro selected
    cases read : interpreterField (buffer config) with
    | none => simp [read, select] at selected
    | some interpreter =>
      rw [read] at selected
      dsimp only [Option.map_some, select] at selected
      split_ifs at selected
      · exact absurd rfl ‹_›

theorem means_interpreter {config : CmdConfig} (clear : Clear config) (absent : config.exec = none) :
    Means config ↔ Represented config := by
  unfold Means Represented
  rw [parse_cmdJson, execField_none clear absent, absent]
  cases present : config.interpreter with
  | none => simp [interpreterField_none present, LongInterpreter, Asks, absent, present]
  | some path =>
    rw [interpreterField_some present]
    have long : LongInterpreter config ↔ 256 ≤ (shown path.toList).length := by simp [LongInterpreter, present]
    by_cases short : (shown path.toList).length < 256
    · have asks : ∀ selection, Asks config selection ↔
          selection = .interpreter (bytesOf path) (config.args.map bytesOf) := fun selection => by
        simp [Asks, absent, present]
      have unlike : ¬ LongInterpreter config := fun longer => absurd (long.mp longer) (Nat.not_le.mpr short)
      rw [if_pos short, asks]
      simp only [Option.map_some, reduceCtorEq, false_or, unlike]
      by_cases empty : path = ""
      · subst empty
        simp [select, shown]
      · have some : shown path.toList ≠ [] := shown_ne_nil_iff.mpr empty
        simp only [select, ne_eq, not_true_eq_false, if_false, some, not_false_eq_true, if_true,
          Selection.interpreter.injEq, shown_eq_bytesOf]
        constructor
        · rintro ⟨plain, args⟩
          have few : (bytesOf path).length < 256 := (shown_eq_bytesOf.mpr plain) ▸ short
          obtain ⟨arg, alone, whole, fits⟩ := (argsField_eq_iff present plain few).mp args
          exact ⟨path, arg, rfl, alone, empty, plain, few, whole, fits⟩
        · rintro ⟨path', arg, same, alone, -, plain, few, whole, fits⟩
          cases same
          exact ⟨plain, (argsField_eq_iff present plain few).mpr ⟨arg, alone, whole, fits⟩⟩
    · rw [if_neg short]
      simp [long, Nat.le_of_not_lt short]

theorem means_iff {config : CmdConfig} (clear : Clear config) : Means config ↔ Represented config := by
  cases present : config.exec with
  | none => exact means_interpreter clear present
  | some path => exact means_exec clear present

def withoutArgs : CmdConfig := ⟨some "/bin/sh", [], none⟩

def withoutCommand : CmdConfig := ⟨none, [], none⟩

end TinyMachine.Guest
