import TinyMachine.HostGpuWorker

/-! Which call a reply belongs to: replies are told apart only by their order in
the pipe, so what is left unread in it answers the calls that follow. -/
namespace TinyMachine.HostGpu
open Lib Api HostGpuForkBackend

/-! ## Lines -/

def firstLine : List Written → List Written
  | [] => []
  | first :: rest => if first.byte = lineTerminator then [first] else first :: firstLine rest

theorem readLine_eq_some {closed : Bool} {bytes line behind : List Written}
    (read : readLine closed bytes = some (line, behind)) : line = firstLine bytes ∧ bytes = line ++ behind := by
  induction bytes generalizing line with
  | nil =>
    simp only [readLine, Option.ite_none_right_eq_some, Option.some.injEq, Prod.mk.injEq] at read
    obtain ⟨-, rfl, rfl⟩ := read
    exact ⟨rfl, rfl⟩
  | cons first rest ih =>
    rw [readLine] at read
    rw [firstLine]
    by_cases ends : first.byte = lineTerminator
    · simp only [ends, if_true, Option.some.injEq, Prod.mk.injEq] at read ⊢
      obtain ⟨rfl, rfl⟩ := read
      exact ⟨rfl, rfl⟩
    · simp only [ends, if_false] at read ⊢
      obtain ⟨⟨tail, remaining⟩, found, same⟩ := Option.map_eq_some_iff.mp read
      simp only [Prod.mk.injEq] at same
      obtain ⟨rfl, rfl⟩ := same
      obtain ⟨rfl, whole⟩ := ih found
      exact ⟨rfl, congrArg (first :: ·) whole⟩

/-- A line whose only terminator ends it is read alone, whatever is behind it. -/
theorem readLine_of_line {closed : Bool} {body behind : List Written} {terminator : Written}
    (inner : ∀ b ∈ body, b.byte ≠ lineTerminator) (last : terminator.byte = lineTerminator) :
    readLine closed (body ++ terminator :: behind) = some (body ++ [terminator], behind) := by
  induction body with
  | nil => simp [readLine, last]
  | cons first rest ih =>
    have here := inner first List.mem_cons_self
    have later := ih fun b member => inner b (List.mem_cons_of_mem _ member)
    simp [readLine, here, later]

/-! ## The output in the log -/

theorem upTo_eq_some {bytes : Nat} {text start : List Char} :
    upTo bytes text = some start ↔ ∃ rest, text = start ++ rest ∧ (start.map Char.utf8Size).sum = bytes := by
  induction bytes, text using upTo.induct generalizing start with
  | case1 text =>
    simp only [upTo, Option.some.injEq]
    constructor
    · rintro rfl
      exact ⟨text, rfl, rfl⟩
    · rintro ⟨rest, -, size⟩
      cases start with
      | nil => rfl
      | cons c start =>
        have positive := c.utf8Size_pos
        simp only [List.map_cons, List.sum_cons] at size
        omega
  | case2 bytes =>
    simp only [upTo, reduceCtorEq, false_iff]
    rintro ⟨rest, parts, size⟩
    simp [(List.append_eq_nil_iff.mp parts.symm).1] at size
  | case3 bytes c text fits ih =>
    simp only [upTo, fits, if_true, Option.map_eq_some_iff, ih]
    constructor
    · rintro ⟨start, ⟨rest, rfl, size⟩, rfl⟩
      refine ⟨rest, rfl, ?_⟩
      simp only [List.map_cons, List.sum_cons, size]
      omega
    · rintro ⟨rest, parts, size⟩
      cases start with
      | nil => simp at size
      | cons first start =>
        obtain ⟨rfl, rfl⟩ := List.cons_eq_cons.mp parts
        simp only [List.map_cons, List.sum_cons] at size
        exact ⟨start, ⟨rest, rfl, by omega⟩, rfl⟩
  | case4 bytes c text large =>
    simp only [upTo, large, if_false, reduceCtorEq, false_iff]
    rintro ⟨rest, parts, size⟩
    cases start with
    | nil => simp at size
    | cons first start =>
      obtain ⟨rfl, rfl⟩ := List.cons_eq_cons.mp parts
      simp only [List.map_cons, List.sum_cons] at size
      omega

/-- The output is longer than the log shows and the cut falls within a character. -/
def CutsCharacter (output : String) : Prop :=
  logLimit < output.utf8ByteSize ∧
    ∀ start rest : List Char, output.toList = start ++ rest → (start.map Char.utf8Size).sum ≠ logLimit

theorem logged_eq_none {output : String} : logged output = none ↔ CutsCharacter output := by
  unfold logged CutsCharacter
  split
  · next long =>
    rw [Option.map_eq_none_iff, and_iff_right long]
    constructor
    · intro missing start rest parts size
      have shown : upTo logLimit output.toList = some start := upTo_eq_some.mpr ⟨rest, parts, size⟩
      rw [missing] at shown
      exact Option.some_ne_none _ shown.symm
    · intro apart
      apply Option.eq_none_iff_forall_ne_some.mpr
      intro start shown
      obtain ⟨rest, parts, size⟩ := upTo_eq_some.mp shown
      exact apart start rest parts size
  · next short => simp [short]

theorem signalInfo_eq_none {build : Build} {exitCode : Int32} :
    signalInfo build exitCode = none ↔ build.overflow = .checked ∧ exitCode = Int32.minValue := by
  unfold signalInfo Overflow.neg32 Overflow.fit
  by_cases lowest : exitCode = Int32.minValue
  · subst lowest
    cases mode : build.overflow <;> simp +decide
  · split <;> simp [lowest]

/-- Two-byte letters behind a single byte. -/
example : upTo logLimit ('a' :: List.replicate 100 'é') = none := by decide +kernel

/-- The answer to this message can be put together. -/
def Tellable (build : Build) : WorkerMessage → Prop
  | .result output _ exitCode =>
    exitCode ≠ 0 → ¬ (build.overflow = .checked ∧ exitCode = Int32.minValue) ∧ ¬ CutsCharacter output
  | _ => True

theorem answerOf_panics_iff {build : Build} {message : WorkerMessage} :
    (answerOf build message).Panics ↔ ¬ Tellable build message := by
  cases message with
  | result output stderr exitCode =>
    simp only [answerOf, Tellable, ← signalInfo_eq_none, ← logged_eq_none]
    by_cases failed : exitCode = 0
    · simp [failed]
    · cases signalInfo build exitCode <;> cases logged output <;> simp [failed]
  | ready device => simp [answerOf, Tellable]
  | pong => simp [answerOf, Tellable]
  | error msg => simp [answerOf, Tellable]

/-- Only the output of code that ended well is returned. -/
theorem answerOf_returns {build : Build} {message : WorkerMessage} {output : String} :
    (answerOf build message).Returns output ↔ ∃ stderr, message = .result output stderr 0 := by
  cases message with
  | result text stderr exitCode =>
    simp only [answerOf, WorkerMessage.result.injEq]
    by_cases failed : exitCode = 0
    · simp [failed]
    · simp [failed]
  | ready device => simp [answerOf]
  | pong => simp [answerOf]
  | error msg => simp [answerOf]

/-! ## Replies -/

/-- What an `exec` returns is the output in a reply that was written for it. -/
def Answer.Paired (build : Build) : Answer → Prop
  | .exec call reply answer => ∀ output, answer.Returns output →
    (∀ b ∈ reply, b.call = some call) ∧ ∃ stderr, messageOn build reply = .ok (.result output stderr 0)
  | _ => True

def Answer.Panicked : Answer → Prop
  | .exec _ _ answer => answer.Panics
  | _ => False

/-- Nothing is left in the pipe when code is sent, the first line that comes is
for it, and the message on that line can be told. -/
def InStep (build : Build) (world : World) : Label → Prop
  | .exec _ met => ∀ pipe, world.backend.protoReader = some pipe →
    let line := firstLine (pipe.receive met.arrives met.exits).unread
    pipe.unread = [] ∧ (∀ b ∈ line, b.call = some world.calls) ∧
      ∀ message, messageOn build line = .ok message → Tellable build message
  | _ => True

/-- An exchange fails and leaves no pipe or the one there was, or it takes a line
off the pipe. -/
theorem exchange_cases (backend : HostGpuForkBackend) (cmd : HostMessage) (met : CallMet) :
    (∃ e after, backend.exchange cmd met = (.error e, after) ∧
        (after.protoReader = backend.protoReader ∨ after.protoReader = none)) ∨
      ∃ lines pipe line behind, backend.protoReader = some pipe ∧
        readLine (pipe.receive met.arrives met.exits).closed (pipe.receive met.arrives met.exits).unread =
          some (line, behind) ∧
        backend.exchange cmd met = (.ok line, { backend with
          stdin := lines, protoReader := some { pipe.receive met.arrives met.exits with unread := behind } }) := by
  unfold exchange
  cases backend.stdin with
  | none => exact .inl ⟨_, _, rfl, .inl rfl⟩
  | some lines =>
    cases met.write with
    | error e => exact .inl ⟨_, _, rfl, .inl rfl⟩
    | ok =>
      cases reader : backend.protoReader with
      | none => exact .inl ⟨_, _, rfl, .inl rfl⟩
      | some pipe =>
        cases found : readLine (pipe.receive met.arrives met.exits).closed
            (pipe.receive met.arrives met.exits).unread with
        | none =>
          simp only [found]
          exact .inl ⟨_, _, rfl, .inr rfl⟩
        | some parts =>
          simp only [found]
          exact .inr ⟨_, pipe, parts.1, parts.2, rfl, found, rfl⟩

/-- A line that is read is the first one in the pipe. -/
theorem exchange_ok {backend : HostGpuForkBackend} {cmd : HostMessage} {met : CallMet} {line : List Written}
    (read : (backend.exchange cmd met).1 = .ok line) :
    ∃ pipe, backend.protoReader = some pipe ∧ line = firstLine (pipe.receive met.arrives met.exits).unread := by
  obtain ⟨e, after, failed, -⟩ | ⟨lines, pipe, taken, behind, reader, found, done⟩ := exchange_cases backend cmd met
  · rw [failed] at read
    cases read
  · rw [done] at read
    cases read
    exact ⟨pipe, reader, (readLine_eq_some found).1⟩

/-- An `exec` fails, or answers with what the line it read tells. -/
theorem exec_cases (build : Build) (backend : HostGpuForkBackend) (code : String) (met : CallMet) :
    (∃ e, (backend.exec build code met).1 = throw e) ∨
      ∃ line message, (backend.exchange (.exec code execTimeoutSecs) met).1 = .ok line ∧
        messageOn build line = .ok message ∧ (backend.exec build code met).1 = answerOf build message := by
  unfold exec sendCommand
  by_cases ready : backend.initialized = true
  · simp only [ready, if_true]
    cases read : (backend.exchange (.exec code execTimeoutSecs) met).1 with
    | error e => exact .inl ⟨_, rfl⟩
    | ok line =>
      cases told : messageOn build line with
      | error e => exact .inl ⟨_, by simp only [Except.bind, told]; rfl⟩
      | ok message => exact .inr ⟨line, message, rfl, told, by simp only [Except.bind, told]⟩
  · exact .inl ⟨_, by rw [if_neg ready]⟩

theorem replyOf_ok {backend : HostGpuForkBackend} {cmd : HostMessage} {met : CallMet} {line : List Written}
    (read : (backend.exchange cmd met).1 = .ok line) : replyOf backend cmd met = line := by
  simp only [replyOf, read]

/-- The answer of an `exec` that is in step with the worker. -/
theorem exec_in_step {build : Build} {world : World} {code : String} {met : CallMet}
    (inStep : InStep build world (.exec code met)) :
    let answer := Answer.exec world.calls (replyOf world.backend (.exec code execTimeoutSecs) met)
      (world.backend.exec build code met).1
    answer.Paired build ∧ ¬ answer.Panicked := by
  intro answer
  obtain ⟨e, failed⟩ | ⟨line, message, read, told, answered⟩ := exec_cases build world.backend code met
  · refine ⟨fun output returned => ?_, fun panicked => ?_⟩
    · rw [failed] at returned
      exact absurd returned (Fallible.throw_returns e output)
    · simp only [answer, Answer.Panicked, failed] at panicked
      exact Fallible.throw_panics e panicked
  · obtain ⟨pipe, reader, rfl⟩ := exchange_ok read
    obtain ⟨-, own, tellable⟩ := inStep pipe reader
    refine ⟨fun output returned => ?_, fun panicked => ?_⟩
    · rw [answered, answerOf_returns] at returned
      obtain ⟨stderr, rfl⟩ := returned
      rw [replyOf_ok read]
      exact ⟨own, stderr, told⟩
    · simp only [answer, Answer.Panicked, answered, answerOf_panics_iff] at panicked
      exact panicked (tellable message told)

/-- A step adds one answer at most: that of an `exec`, or one of a call that has
no reply to hand on. -/
theorem step_answers {build : Build} {world next : World} {label : Label}
    (stepped : world.step build label = some next) :
    next.answers = world.answers ∨
    ∃ answer, next.answers = world.answers ++ [answer] ∧
      ((∃ code met, label = .exec code met ∧
          answer = .exec world.calls (replyOf world.backend (.exec code execTimeoutSecs) met)
            (world.backend.exec build code met).1) ∨
        answer.Paired build ∧ ¬ answer.Panicked) := by
  cases label with
  | init variant met =>
    obtain ⟨⟨answer, backend⟩, -, rfl⟩ := Option.map_eq_some_iff.mp stepped
    exact .inr ⟨_, rfl, .inr ⟨trivial, id⟩⟩
  | exec code met =>
    cases stepped
    exact .inr ⟨_, rfl, .inl ⟨code, met, rfl, rfl⟩⟩
  | ping met =>
    cases stepped
    exact .inr ⟨_, rfl, .inr ⟨trivial, id⟩⟩
  | reset met =>
    obtain ⟨⟨answer, backend⟩, -, rfl⟩ := Option.map_eq_some_iff.mp stepped
    exact .inr ⟨_, rfl, .inr ⟨trivial, id⟩⟩
  | destroy =>
    cases stepped
    exact .inr ⟨_, rfl, .inr ⟨trivial, id⟩⟩
  | writes arrives exits =>
    cases stepped
    exact .inl rfl

theorem reached_of_run {build : Build} {admitted : World → Label → Prop} {world last : World} {labels : List Label}
    (reached : (worker build).Reached admitted world)
    (each : ∀ world label, label ∈ labels → admitted world label)
    (run : world.run build labels = some last) : (worker build).Reached admitted last := by
  induction labels generalizing world with
  | nil =>
    cases run
    exact reached
  | cons label rest ih =>
    obtain ⟨next, stepped, later⟩ := Option.bind_eq_some_iff.mp run
    apply ih (.next reached (each world label List.mem_cons_self) stepped)
      (fun world label member => each world label (List.mem_cons_of_mem _ member)) later


/-! ## A sample worker -/

def readyLine : String := "\x7b\"type\": \"ready\", \"device\": \"NV\"\x7d"

/-- The line of a result whose output needs no escapes. -/
def resultLine (output : String) : String :=
  "\x7b\"type\": \"result\", \"output\": \"" ++ output ++ "\", \"error\": \"\", \"exit_code\": 0\x7d"

def sampleBuild : Build where
  fromStr text :=
    if text = readyLine then .ok (.ready "NV")
    else if text = resultLine "a" then .ok (.result "a" (some "") 0)
    else if text = resultLine "b" then .ok (.result "b" (some "") 0)
    else .error "expected value at line 1 column 1"
  quoteDebug text := "\"" ++ text ++ "\""
  overflow := .checked

def writtenFor (call : Option Nat) (line : String) : List Written :=
  (line ++ "\n").toUTF8.data.toList.map fun byte => ⟨byte, call⟩

def gpuVariant : Variant := ⟨"python", "tinygrad", "gpu-vk"⟩

def startWorker : Label := .init gpuVariant ⟨.ok (), .ok (), 1, writtenFor none readyLine, false⟩

def startedWorld : World :=
  ⟨⟨true, some [], some ⟨[], false⟩, some "NV", true, some gpuVariant⟩, 0, [.lifecycle (.ok ())]⟩

def printA : Label := .exec "print('a', end='')" ⟨.ok (), writtenFor (some 0) (resultLine "a"), false⟩

/-- The code puts an empty line into the pipe before the worker answers for it. -/
def blankThenA : Label :=
  .exec "import os; os.write(3, b'\\n'); print('a', end='')"
    ⟨.ok (), writtenFor (some 0) "" ++ writtenFor (some 0) (resultLine "a"), false⟩

def printB : Label := .exec "print('b', end='')" ⟨.ok (), writtenFor (some 1) (resultLine "b"), false⟩

theorem startedWorld_reached (admitted : World → Label → Prop) (init : admitted World.new startWorker) :
    (worker sampleBuild).Reached admitted startedWorld := by
  have stepped : World.new.step sampleBuild startWorker = some startedWorld := by decide +kernel
  exact .next (.start rfl) init stepped

/-- One line: a single terminator, and that at its end. -/
def Whole (line : List Written) : Prop :=
  ∃ body terminator, line = body ++ [terminator] ∧ (∀ b ∈ body, b.byte ≠ lineTerminator) ∧
    terminator.byte = lineTerminator

/-- A worker answers each call with one line, but one line for an earlier call
is not read yet. -/
structure Behind (world : World) : Prop where
  ready : world.backend.initialized = true
  sending : ∃ lines, world.backend.stdin = some lines
  stale : ∃ line, Whole line ∧ world.backend.protoReader = some ⟨line, false⟩ ∧
    ∀ b ∈ line, ∀ call, b.call = some call → call < world.calls

def OneReply (world : World) : Label → Prop
  | .exec _ met | .ping met => met.write = .ok () ∧ met.exits = false ∧ Whole met.arrives ∧
    ∀ b ∈ met.arrives, b.call = some world.calls
  | _ => False

/-- No byte of the reply was written for the call that took it. -/
def Answer.Displaced : Answer → Prop
  | .exec call reply _ => reply ≠ [] ∧ ∀ b ∈ reply, b.call ≠ some call
  | _ => True

theorem Answer.Displaced.not_paired {build : Build} {call : Nat} {reply : List Written}
    {answer : Fallible ApiError String} {output : String} (displaced : (Answer.exec call reply answer).Displaced)
    (returned : answer.Returns output) : ¬ (Answer.exec call reply answer).Paired build := by
  intro paired
  obtain ⟨b, member⟩ := List.exists_mem_of_ne_nil reply displaced.1
  exact displaced.2 b member ((paired output returned).1 b member)

/-- The call reads the line that is left, and leaves the one that answers it. -/
theorem exchange_behind {backend : HostGpuForkBackend} {cmd : HostMessage} {met : CallMet} {lines : List String}
    {line : List Written} (sending : backend.stdin = some lines) (write : met.write = .ok ())
    (stays : met.exits = false) (whole : Whole line) (reader : backend.protoReader = some ⟨line, false⟩) :
    backend.exchange cmd met = (.ok line,
      { backend with stdin := some (lines ++ [cmd.toJson]), protoReader := some ⟨met.arrives, false⟩ }) := by
  obtain ⟨body, terminator, rfl, inner, last⟩ := whole
  have read := @readLine_of_line false body met.arrives terminator inner last
  simp only [exchange, sending, write, reader, Pipe.receive, stays, List.append_assoc, List.singleton_append,
    Bool.false_eq_true, if_false, read]

theorem exec_backend (build : Build) (backend : HostGpuForkBackend) (code : String) (met : CallMet) :
    (backend.exec build code met).2 =
      if backend.initialized then (backend.exchange (.exec code execTimeoutSecs) met).2 else backend := by
  unfold HostGpuForkBackend.exec sendCommand
  by_cases ready : backend.initialized = true
  · simp only [ready, if_true]
    split <;> rfl
  · simp only [ready, Bool.false_eq_true, if_false]

/-- A call that leaves the backend as an exchange does stays one line behind. -/
theorem Behind.exchanged {world : World} {cmd : HostMessage} {met : CallMet} {answers : List Answer}
    (behind : Behind world) (write : met.write = .ok ()) (stays : met.exits = false) (arrived : Whole met.arrives)
    (own : ∀ b ∈ met.arrives, b.call = some world.calls) :
    Behind ⟨(world.backend.exchange cmd met).2, world.calls + 1, answers⟩ := by
  obtain ⟨ready, ⟨lines, sending⟩, line, whole, reader, -⟩ := behind
  rw [exchange_behind sending write stays whole reader]
  refine ⟨ready, ⟨_, rfl⟩, met.arrives, arrived, rfl, fun b member call written => ?_⟩
  rw [own b member, Option.some.injEq] at written
  exact Nat.lt_succ_of_le written.ge

/-- A backend that is one line behind stays so, and no `exec` has its own reply. -/
theorem replies_stay_behind (build : Build) {world : World}
    (reached : ({ worker build with start := fun world => Behind world ∧ world.answers = [] } :
      System World Label).Reached OneReply world) :
    Behind world ∧ ∀ answer ∈ world.answers, answer.Displaced := by
  apply reached.invariant
  · rintro world ⟨behind, none⟩
    exact ⟨behind, fun answer member => absurd (none ▸ member) List.not_mem_nil⟩
  · rintro world label next ⟨behind, displaced⟩ oneReply stepped
    cases label with
    | exec code met =>
      obtain ⟨write, stays, arrived, own⟩ := oneReply
      obtain ⟨lines, sending⟩ := behind.sending
      obtain ⟨line, whole, reader, early⟩ := behind.stale
      have read := @exchange_behind _ (.exec code execTimeoutSecs) _ _ _ sending write stays whole reader
      obtain rfl := Option.some.inj stepped
      refine ⟨?_, fun answer member => ?_⟩
      · simp only [exec_backend, behind.ready, if_true]
        exact behind.exchanged write stays arrived own
      obtain old | rfl := (List.mem_append.mp member).imp_right List.mem_singleton.mp
      · exact displaced answer old
      · rw [Answer.Displaced, replyOf_ok (congrArg Prod.fst read)]
        refine ⟨?_, fun b inside for_it => Nat.lt_irrefl _ (early b inside _ for_it)⟩
        obtain ⟨body, terminator, rfl, -⟩ := whole
        exact List.append_ne_nil_of_right_ne_nil body (List.cons_ne_nil terminator [])
    | ping met =>
      obtain ⟨write, stays, arrived, own⟩ := oneReply
      cases stepped
      refine ⟨behind.exchanged write stays arrived own, fun answer member => ?_⟩
      obtain old | rfl := (List.mem_append.mp member).imp_right List.mem_singleton.mp
      · exact displaced answer old
      · exact trivial
    | init => exact oneReply.elim
    | reset => exact oneReply.elim
    | destroy => exact oneReply.elim
    | writes => exact oneReply.elim

/-! ## A worker that keeps in step -/

/-- A pipe that is closed holds no message. -/
theorem messageOn_nil (build : Build) : messageOn build [] = .error .workerDied := by
  have empty : textOf [] = some "" := by decide +kernel
  simp [messageOn, empty, Uops.trim]

/-- The worker writes no more than one line for a call, and none unasked. -/
def OneLineEach (build : Build) (world : World) : Label → Prop
  | .exec _ met => firstLine met.arrives = met.arrives ∧ (∀ b ∈ met.arrives, b.call = some world.calls) ∧
    ∀ message, messageOn build met.arrives = .ok message → Tellable build message
  | .ping met => firstLine met.arrives = met.arrives
  | .init _ met | .reset met => firstLine met.arrives = met.arrives
  | .destroy => True
  | .writes arrives _ => arrives = []

def NothingLeft (backend : HostGpuForkBackend) : Prop :=
  ∀ pipe, backend.protoReader = some pipe → pipe.unread = []

theorem shutdown_leaves_nothing (backend : HostGpuForkBackend) : NothingLeft backend.shutdownWorker :=
  fun pipe absent => absurd absent (Option.some_ne_none pipe).symm

theorem readLine_leaves_nothing {closed : Bool} {bytes line behind : List Written}
    (single : firstLine bytes = bytes) (read : readLine closed bytes = some (line, behind)) : behind = [] := by
  obtain ⟨rfl, whole⟩ := readLine_eq_some read
  rw [single] at whole
  exact List.self_eq_append_right.mp whole

theorem receive_empty {pipe : Pipe} {arrives : List Written} {exits : Bool} (empty : pipe.unread = [])
    (single : firstLine arrives = arrives) :
    firstLine (pipe.receive arrives exits).unread = (pipe.receive arrives exits).unread := by
  unfold Pipe.receive
  split
  · rw [empty]
    rfl
  · rw [empty, List.nil_append, single]

theorem exchange_leaves_nothing {backend : HostGpuForkBackend} {cmd : HostMessage} {met : CallMet}
    (empty : NothingLeft backend) (single : firstLine met.arrives = met.arrives) :
    NothingLeft (backend.exchange cmd met).2 := by
  intro left remains
  obtain ⟨e, after, failed, same | none⟩ | ⟨lines, pipe, taken, behind, reader, found, done⟩ :=
    exchange_cases backend cmd met
  · rw [failed] at remains
    exact empty left (same.symm.trans remains)
  · rw [failed] at remains
    exact absurd (none.symm.trans remains) (Option.some_ne_none left).symm
  · rw [done] at remains
    cases remains
    exact readLine_leaves_nothing (receive_empty (empty pipe reader) single) found

theorem awaitReady_leaves_nothing {build : Build} {patience : Nat} {pipe left : Pipe} {device : String}
    (single : firstLine pipe.unread = pipe.unread)
    (ready : awaitReady build patience pipe = some (.ok (device, left))) : left.unread = [] := by
  induction patience generalizing pipe with
  | zero => simp [awaitReady] at ready
  | succ patience ih =>
    rw [awaitReady] at ready
    split at ready
    · simp at ready
    · simp at ready
    · next line behind _ read =>
      have none := readLine_leaves_nothing single read
      subst none
      split at ready
      · simp at ready
      · split at ready
        · exact ih rfl ready
        · simp only [Option.some.injEq, Except.ok.injEq, Prod.mk.injEq] at ready
          obtain ⟨-, rfl⟩ := ready
          rfl
        · simp at ready
        · exact ih rfl ready

theorem spawnWorker_leaves_nothing {build : Build} {backend spawned : HostGpuForkBackend} {met : SpawnMet}
    (single : firstLine met.arrives = met.arrives)
    (ok : backend.spawnWorker build met = some (.ok spawned)) : NothingLeft spawned := by
  unfold spawnWorker at ok
  split at ok
  · simp at ok
  · simp at ok
  · obtain ⟨result, awaited, same⟩ := Option.map_eq_some_iff.mp ok
    cases result with
    | error e => simp at same
    | ok ready =>
      cases same
      intro pipe same
      cases same
      exact awaitReady_leaves_nothing single awaited

theorem step_leaves_nothing {build : Build} {world next : World} {label : Label} (empty : NothingLeft world.backend)
    (each : OneLineEach build world label) (stepped : world.step build label = some next) :
    NothingLeft next.backend := by
  cases label with
  | init variant met =>
    obtain ⟨⟨answer, backend⟩, initialized, rfl⟩ := Option.map_eq_some_iff.mp stepped
    unfold HostGpuForkBackend.init at initialized
    split at initialized
    · cases initialized
      exact empty
    · split at initialized
      · cases initialized
        exact empty
      · split at initialized
        · cases initialized
          exact empty
        · obtain ⟨result, spawned, same⟩ := Option.map_eq_some_iff.mp initialized
          cases result with
          | error e =>
            cases same
            exact empty
          | ok backend =>
            cases same
            exact fun pipe found => spawnWorker_leaves_nothing each spawned pipe found
  | exec code met =>
    obtain rfl := Option.some.inj stepped
    simp only [exec_backend]
    split
    · exact exchange_leaves_nothing empty each.1
    · exact empty
  | ping met =>
    cases stepped
    exact exchange_leaves_nothing empty each
  | reset met =>
    obtain ⟨⟨answer, backend⟩, again, rfl⟩ := Option.map_eq_some_iff.mp stepped
    simp only [HostGpuForkBackend.reset] at again
    split at again
    · cases again
      exact shutdown_leaves_nothing _
    · obtain ⟨result, spawned, same⟩ := Option.map_eq_some_iff.mp again
      cases result with
      | error e =>
        cases same
        exact shutdown_leaves_nothing _
      | ok backend =>
        cases same
        exact fun pipe found => spawnWorker_leaves_nothing each spawned pipe found
  | destroy =>
    cases stepped
    exact shutdown_leaves_nothing world.backend
  | writes arrives exits =>
    cases stepped
    rintro pipe found
    obtain ⟨before, reader, rfl⟩ := Option.map_eq_some_iff.mp found
    have none : arrives = [] := each
    unfold Pipe.receive
    split
    · exact empty before reader
    · rw [none, List.append_nil, empty before reader]

/-- A worker that writes one line for a call at most, and none unasked, keeps
every `exec` in step. -/
theorem in_step_of_one_line_each (build : Build) {world : World}
    (reached : (worker build).Reached (OneLineEach build) world) :
    (worker build).Reached (InStep build) world := by
  have both : (worker build).Reached (InStep build) world ∧ NothingLeft world.backend := by
    apply reached.invariant
    · rintro world rfl
      exact ⟨.start rfl, fun pipe absent => absurd absent (Option.some_ne_none pipe).symm⟩
    · rintro world label next ⟨run, empty⟩ each stepped
      refine ⟨.next run ?_ stepped, step_leaves_nothing empty each stepped⟩
      cases label with
      | exec code met =>
        obtain ⟨single, own, tellable⟩ := each
        rintro pipe reader
        refine ⟨empty pipe reader, ?_⟩
        unfold Pipe.receive
        split
        · rw [empty pipe reader]
          refine ⟨fun b member => absurd member List.not_mem_nil, fun message told => ?_⟩
          simp [firstLine, messageOn_nil] at told
        · rw [empty pipe reader, List.nil_append, single]
          exact ⟨own, tellable⟩
      | init | ping | reset | destroy | writes => exact trivial
  exact both.1

end TinyMachine.HostGpu
