import TinyMachine.QemuSerial

/-! No code comes through the serial line and back: what the host takes for the
output depends on whether the line echoes. -/
namespace TinyMachine.QemuSerial
open Api

/-! ## Lines that arrive -/

theorem decode_codeBytes (text : String) : decode (codeBytes text) = some text.toList := by
  simp [decode, codeBytes, String.fromUTF8?, text.isValidUTF8]
  rfl

theorem codeBytes_injective {text other : String} (same : codeBytes text = codeBytes other) : text = other := by
  have decoded := congrArg decode same
  rw [decode_codeBytes, decode_codeBytes] at decoded
  exact String.toList_inj.mp (Option.some.inj decoded)

/-- No line is late, and what is written arrives. -/
def calm : Host where
  spawns := .ok ()
  late _ := false
  writes := .ok ()
  stderr := ""

/-- The host stops at the line. -/
def stops (line : List Char) : Bool := isDone line || (mentions "shutdown" line || mentions "Power down" line)

section Reading
variable {variantName : String} {number : Nat} {ready : Bool} {lines : List (List Char)} {rest : List Event}

theorem readLines_next {bytes : Bytes} {line : List Char} (decoded : decode bytes = some line)
    (passed : stops line = false) :
    readLines calm variantName number ready lines (.line bytes :: rest) =
      readLines calm variantName (number + 1) (ready || mentions "READY" line) (lines ++ [line]) rest := by
  obtain ⟨going, unstopped⟩ := Bool.or_eq_false_iff.mp passed
  rw [readLines]
  simp [calm, decoded, going, unstopped]

theorem readLines_stopped {bytes : Bytes} {line : List Char} (decoded : decode bytes = some line)
    (stopped : stops line = true) :
    ∃ out, readLines calm variantName number ready lines (.line bytes :: rest) = (.ok out, []) := by
  rw [readLines]
  simp only [calm, decoded, ite_self, Bool.false_eq_true, ↓reduceIte]
  by_cases done : isDone line = true
  · simp [done]
  · have unfinished : (mentions "shutdown" line || mentions "Power down" line) = true := by
      simpa [stops, done] using stopped
    simp [done, unfinished, afterLoop]

/-- What the events behind `READY` come to does not depend on the lines before
them: either a `DONE` among them ends the loop, or something else does. -/
theorem readLines_ready (events : List Event) : ∃ more started,
    (∀ variantName number lines, readLines calm variantName number true lines events =
      (.ok (resultText (lines ++ more)), started)) ∨
    ∀ variantName number lines, readLines calm variantName number true lines events =
      (afterLoop calm variantName (lines ++ more), started) := by
  induction events with
  | nil => exact ⟨[], [], .inr fun _ _ lines => by rw [readLines, List.append_nil]⟩
  | cons event rest ih =>
    obtain ⟨more, started, ended⟩ := ih
    cases event with
    | started command =>
      refine ⟨more, command :: started, ended.imp (fun done variantName number lines => ?_)
        fun broken variantName number lines => ?_⟩
      · rw [readLines, done]
      · rw [readLines, broken]
    | line bytes =>
      cases decoded : decode bytes with
      | none => exact ⟨[], [], .inr fun _ _ lines => by simp [readLines, calm, decoded]⟩
      | some line =>
        by_cases passed : stops line = false
        · refine ⟨line :: more, started, ended.imp (fun done variantName number lines => ?_)
            fun broken variantName number lines => ?_⟩
          · rw [readLines_next decoded passed, Bool.true_or, done, List.append_assoc, List.singleton_append]
          · rw [readLines_next decoded passed, Bool.true_or, broken, List.append_assoc, List.singleton_append]
        · refine ⟨[line], [], ?_⟩
          by_cases done : isDone line = true
          · exact .inl fun _ _ lines => by simp [readLines, calm, decoded, done]
          · have unfinished : (mentions "shutdown" line || mentions "Power down" line) = true := by
              have stopped : stops line = true := by simpa using passed
              simpa [stops, done] using stopped
            exact .inr fun _ _ lines => by simp [readLines, calm, decoded, done, unfinished]

theorem readLines_boot (boot : List String)
    (quiet : ∀ line ∈ boot, mentions "READY" line.toList = false ∧ isDone line.toList = false ∧
      mentions "shutdown" line.toList = false ∧ mentions "Power down" line.toList = false) :
    readLines calm variantName number false lines (boot.map (fun line => .line (codeBytes line)) ++ rest) =
      readLines calm variantName (number + boot.length) false (lines ++ boot.map String.toList) rest := by
  induction boot generalizing number lines with
  | nil => simp
  | cons line boot ih =>
    obtain ⟨unready, going, running, powered⟩ := quiet line (List.mem_cons_self ..)
    rw [List.map_cons, List.cons_append, readLines_next (decode_codeBytes line) (by simp [stops, going, running, powered]),
      unready, Bool.false_or, ih fun other member => quiet other (List.mem_cons_of_mem _ member)]
    simp [Nat.add_comm, Nat.add_left_comm]

end Reading

/-! ## The text that is returned -/

section Texts
variable {lines : List (List Char)}

/-- Every line but the last has a line feed. -/
theorem length_joined (lines : List (List Char)) :
    (joined lines).length = (lines.map fun line => line.length + 1).sum - 1 := by
  rw [joined, String.length_ofList]
  induction lines with
  | nil => rfl
  | cons first rest ih =>
    cases rest with
    | nil => simp
    | cons second rest =>
      rw [List.intercalate_cons_of_ne_nil (List.cons_ne_nil _ _), List.length_append, List.length_append, ih]
      simp only [List.map_cons, List.sum_cons, List.length_singleton]
      omega

/-- A further line makes the text longer. -/
theorem length_joined_insert (before : List (List Char)) (line : List Char) (after : List (List Char))
    (some : line ≠ []) : (joined (before ++ after)).length < (joined (before ++ line :: after)).length := by
  have positive := List.length_pos_of_ne_nil some
  rw [length_joined, length_joined]
  simp only [List.map_append, List.sum_append, List.map_cons, List.sum_cons]
  omega

theorem dropWhile_boot {boot : List String} (quiet : ∀ line ∈ boot, mentions "READY" line.toList = false) :
    ((boot.map String.toList ++ lines).dropWhile fun line => !"READY".toList.isPrefixOf (Uops.trim line)) =
      lines.dropWhile fun line => !"READY".toList.isPrefixOf (Uops.trim line) := by
  apply List.dropWhile_append_of_pos
  intro line member
  obtain ⟨text, there, rfl⟩ := List.mem_map.mp member
  have unready := quiet text there
  by_contra starts
  have begins : "READY".toList <+: Uops.trim text.toList := List.isPrefixOf_iff_prefix.mp (by simpa using starts)
  have inside : mentions "READY" text.toList = true :=
    decide_eq_true (begins.isInfix.trans (Uops.infix_trim text.toList))
  rw [unready] at inside
  cases inside

/-- The line behind `READY` is taken for the echo, whatever it is. -/
theorem resultText_ready {boot : List String} (quiet : ∀ line ∈ boot, mentions "READY" line.toList = false)
    (skipped : List Char) :
    resultText (boot.map String.toList ++ "READY".toList :: skipped :: lines) =
      joined ((lines.takeWhile fun line => !isDone line).filter fun line => Uops.trim line ≠ []) := by
  rw [resultText, dropWhile_boot quiet, List.dropWhile_cons_of_neg (by decide)]
  rfl

end Texts

/-! ## The buffer of the guest -/

/-- No command is longer than the buffer. -/
theorem length_command {buffered text command : Bytes} (fits : buffered.length < bufMax - 1)
    (read : command ∈ commandsFrom buffered text) : command.length ≤ bufMax - 1 := by
  induction text generalizing buffered with
  | nil => cases read
  | cons c rest ih =>
    have empty : ([] : Bytes).length < bufMax - 1 := by decide
    rw [commandsFrom] at read
    split at read
    · split at read
      · exact ih empty read
      · rcases List.mem_cons.mp read with rfl | later
        · exact Nat.le_of_lt fits
        · exact ih empty later
    · split at read
      · rename_i full
        rcases List.mem_cons.mp read with rfl | later
        · rw [List.length_append, List.length_singleton, full]
        · exact ih empty later
      · rename_i room
        apply ih _ read
        rw [List.length_append, List.length_singleton]
        omega

/-- Code whose command does not fit is not run: its parts are, one by one. -/
theorem long_code_is_split {code : String} (long : bufMax - 1 < (codeBytes (oneLiner code)).length) :
    codeBytes (oneLiner code) ∉ commandsFrom [] (codeBytes (oneLiner code) ++ [10]) := by
  intro read
  have short := length_command (by decide) read
  omega

/-! ## Transparency -/

/-- For this input the exchange is transparent: whether the line echoes or not,
and whatever the host meets, what `exec` returns is what the code printed, which
was run once and as one command. -/
def Transparent (guest : Guest) (code : String) : Prop :=
  ∀ (echoes : Bool) (host : Host) (variantName out : String),
    (exec host true variantName guest echoes code).1 = .ok out →
      (exec host true variantName guest echoes code).2 = [codeBytes (oneLiner code)] ∧
        codeBytes out = guest.prints (codeBytes (oneLiner code))

theorem commandsFrom_ne_nil {buffered text : Bytes} (some : buffered ≠ []) :
    commandsFrom buffered (text ++ [10]) ≠ [] := by
  induction text generalizing buffered with
  | nil => simp [commandsFrom, some]
  | cons c rest ih =>
    rw [List.cons_append, commandsFrom]
    split
    · exact List.cons_ne_nil _ _
    · split
      · exact List.cons_ne_nil _ _
      · exact ih (by simp)

theorem codeBytes_append (text other : String) : codeBytes (text ++ other) = codeBytes text ++ codeBytes other := by
  simp [codeBytes]

theorem codeBytes_begins {first : String} {byte : UInt8} {more : Bytes} (begun : codeBytes first = byte :: more)
    (second third : String) :
    codeBytes (first ++ second ++ third) = byte :: (more ++ codeBytes second ++ codeBytes third) := by
  rw [codeBytes_append, codeBytes_append, begun]
  rfl

theorem commandsFrom_oneLiner (code : String) : commandsFrom [] (codeBytes (oneLiner code) ++ [10]) ≠ [] := by
  obtain ⟨more, begun⟩ : ∃ more, codeBytes "exec(__import__('base64').b64decode('" = 101 :: more :=
    ⟨(codeBytes "exec(__import__('base64').b64decode('").tail, by decide⟩
  obtain ⟨rest, whole⟩ : ∃ rest, codeBytes (oneLiner code) = 101 :: rest :=
    ⟨_, codeBytes_begins begun (String.ofList (base64 (codeBytes code))) "').decode())"⟩
  rw [whole, List.cons_append, commandsFrom, if_neg (by decide), if_neg (by decide)]
  exact commandsFrom_ne_nil (List.cons_ne_nil 101 [])

/-- Whatever is run, the guest says first that it forks. -/
theorem served (guest : Guest) (code : String) : ∃ rest,
    (commandsFrom [] (codeBytes (oneLiner code) ++ [10])).flatMap (serve guest) =
      .line (codeBytes "RP_FORK") :: rest := by
  obtain ⟨command, commands, read⟩ := List.exists_cons_of_ne_nil (commandsFrom_oneLiner code)
  rw [read, List.flatMap_cons, serve,
    show puts (codeBytes "RP_FORK\n") = [.line (codeBytes "RP_FORK")] from rfl]
  exact ⟨_, rfl⟩

section Exchange
variable {guest : Guest} {code : String} {rest : List Event}

/-- The host has read the boot log and `READY`. -/
theorem exec_ready (echoes : Bool) (tail : (commandsFrom [] (codeBytes (oneLiner code) ++ [10])).flatMap
    (serve guest) = rest) :
    exec calm true "" guest echoes code = readLines calm "" (0 + guest.boot.lines.length + 1) true
      (guest.boot.lines.map String.toList ++ ["READY".toList])
      ((if echoes then [.line (codeBytes (oneLiner code))] else []) ++ rest) := by
  show readLines calm "" 0 false [] (session guest echoes code) = _
  rw [session, tail, List.append_assoc, List.append_assoc, readLines_boot _ guest.boot.quiet,
    show puts (codeBytes "READY\n") = [.line (codeBytes "READY")] from rfl, List.singleton_append,
    readLines_next (decode_codeBytes "READY") (by decide)]
  rfl

theorem readLines_fork {number : Nat} {lines : List (List Char)} :
    readLines calm "" number true lines (.line (codeBytes "RP_FORK") :: rest) =
      readLines calm "" (number + 1) true (lines ++ ["RP_FORK".toList]) rest := by
  rw [readLines_next (decode_codeBytes "RP_FORK") (by decide)]
  rfl

end Exchange

/-- With an echo the text begins with what is taken for the echo without one. -/
theorem outputs_differ (boot : BootLog) (echo : List Char) (some : echo ≠ []) (more : List (List Char)) :
    resultText (boot.lines.map String.toList ++ ["READY".toList] ++ ["RP_FORK".toList] ++ more) ≠
        resultText (boot.lines.map String.toList ++ ["READY".toList] ++ [echo] ++ ["RP_FORK".toList] ++ more) ∧
      joined (boot.lines.map String.toList ++ ["READY".toList] ++ ["RP_FORK".toList] ++ more) ≠
        joined (boot.lines.map String.toList ++ ["READY".toList] ++ [echo] ++ ["RP_FORK".toList] ++ more) := by
  have unready : ∀ line ∈ boot.lines, mentions "READY" line.toList = false :=
    fun line member => (boot.quiet line member).1
  simp only [List.append_assoc, List.cons_append, List.nil_append]
  constructor
  · intro same
    rw [resultText_ready unready, resultText_ready unready, List.takeWhile_cons_of_pos (by decide),
      List.filter_cons_of_pos (by decide)] at same
    have longer := length_joined_insert [] "RP_FORK".toList
      ((more.takeWhile fun line => !isDone line).filter fun line => Uops.trim line ≠ []) (by decide)
    rw [List.nil_append, same] at longer
    exact Nat.lt_irrefl _ longer
  · intro same
    have longer := length_joined_insert (boot.lines.map String.toList ++ ["READY".toList]) echo
      ("RP_FORK".toList :: more) some
    simp only [List.append_assoc, List.cons_append, List.nil_append, same] at longer
    exact Nat.lt_irrefl _ longer

/-- A guest in which the code prints a greeting. -/
def greeting : Guest := ⟨⟨[], nofun⟩, .runs, codeBytes "ROOTFS_DUMP:\n", fun _ => codeBytes "hello\n"⟩

end TinyMachine.QemuSerial
