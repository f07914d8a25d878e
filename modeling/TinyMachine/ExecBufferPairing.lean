import TinyMachine.ExecBufferExchange

/-! Calls to `run_code` one after another on one VM, at whatever pace the guest
takes: a call may be given up before init is done with its code, or lose its
guest. Init has a command under way from the first byte that it reads of it to
the last letter of READY; a call made while it has none is answered with what
init made of that call's own code. -/
namespace TinyMachine
open Lib

/-! ## What is in the buffer once READY is up -/

/-- A string in the output buffer, up to its NUL, with READY written over it. -/
def displayed (text : List UInt8) : List UInt8 :=
  ((text ++ [0]).take readySignalOffset ++ readySignal).takeWhile (· ≠ 0)

theorem displayed_short {text : List UInt8} (short : text.length < readySignalOffset) :
    displayed text = text.takeWhile (· ≠ 0) := by
  have whole : (text ++ [0]).take readySignalOffset = text ++ [0] :=
    List.take_of_length_le (by rw [List.length_append]; exact short)
  rw [displayed, whole, List.append_assoc]
  exact takeWhile_terminated text readySignal

theorem displayed_long {text : List UInt8} (long : readySignalOffset ≤ text.length) :
    displayed text = (text.take readySignalOffset ++ readySignal).takeWhile (· ≠ 0) := by
  rw [displayed, List.take_append_of_le_length long]

section Displayed
variable {os : Userland} {vm : VmState InitState} {cmd text : List UInt8} {others : List (List UInt8)}
  {done : Nat} {write : ByteWrite}

private theorem block_split (bytes : List UInt8) : blockLog outBufPhys bytes =
    blockLog outBufPhys (bytes.take readySignalOffset) ++
      blockLog readyAddr (bytes.drop readySignalOffset) := by
  conv_lhs => rw [← List.take_append_drop readySignalOffset bytes, blockLog_append]
  rcases Nat.lt_or_ge bytes.length readySignalOffset with short | long
  · rw [List.drop_eq_nil_of_le (Nat.le_of_lt short)]
    rfl
  · rw [List.length_take_of_le long]
    rfl

/-- The stores of a command before its last string reaches the bytes of READY. -/
def earlyLog (vm : VmState InitState) (others : List (List UInt8)) (text : List UInt8) : List ByteWrite :=
  clearLog ++ entropyLog vm.memory ++ textLog others ++
    blockLog outBufPhys ((text ++ [0]).take readySignalOffset)

/-- And those from there on. -/
def lateLog (text : List UInt8) : List ByteWrite :=
  blockLog readyAddr ((text ++ [0]).drop readySignalOffset) ++ readyLog

theorem commandLog_eq (texts : (os.respond vm.vcpu.spawned cmd).1 = others ++ [text]) :
    commandLog os vm cmd = earlyLog vm others text ++ lateLog text := by
  have last : textLog (others ++ [text]) = textLog others ++ blockLog outBufPhys (text ++ [0]) := by
    rw [textLog, List.flatMap_append, List.flatMap_singleton, textLog]
  rw [commandLog, answerLog, texts, last, block_split, earlyLog, lateLog]
  simp only [List.append_assoc]

theorem earlyLog_quiet (short : ∀ other ∈ others, other.length < readySignalOffset)
    (member : write ∈ earlyLog vm others text) (above : readyAddr ≤ write.1) : write.2 = 0 := by
  obtain ⟨-, out, ready, max, offset⟩ := layout
  simp only [earlyLog, List.mem_append] at member
  rcases member with ((clear | entropy) | output) | front
  · exact (clear_log clear).1
  · have inside := entropy_log entropy
    omega
  · obtain ⟨other, included, -, high⟩ := text_log output
    have before := short other included
    omega
  · have high := (of_mem_blockLog front).2.1
    have few : ((text ++ [0]).take readySignalOffset).length ≤ readySignalOffset := List.length_take_le _ _
    omega

theorem lateLog_above (member : write ∈ lateLog text) : readyAddr ≤ write.1 := by
  rcases List.mem_append.mp member with output | signal
  · exact (of_mem_blockLog output).1
  · exact (ready_stores signal).1

/-- Behind READY only zeros are written. -/
theorem behind_ready (within : ∀ text ∈ (os.respond vm.vcpu.spawned cmd).1, text.length < bufMax)
    (member : write ∈ commandLog os vm cmd) (here : write.1 = readyAddr + 5) : write.2 = 0 := by
  obtain ⟨-, out, ready, max, offset⟩ := layout
  simp only [commandLog, answerLog, List.mem_append] at member
  rcases member with ((clear | entropy) | output) | signal
  · exact (clear_log clear).1
  · have inside := entropy_log entropy
    omega
  · obtain ⟨text, included, inside⟩ := List.mem_flatMap.mp output
    have before := within text included
    exact zero_of_mem_blockLog inside (by omega)
  · exact zero_of_mem_blockLog signal (by rw [here]; rfl)

/-- Whenever READY is up, the last string is in the buffer. -/
theorem during_displayed (texts : (os.respond vm.vcpu.spawned cmd).1 = others ++ [text])
    (short : ∀ other ∈ others, other.length < readySignalOffset) (within : text.length < bufMax)
    (clear : vm.memory (readyAddr + 4) = 0) (last : vm.memory (readyAddr + 5) = 0)
    (ready : (during os vm cmd done).memory.fetch readyAddr 5 = readySignal) :
    (during os vm cmd done).memory.cString outBufPhys bufMax = displayed text := by
  obtain ⟨-, out, signal, max, offset⟩ := layout
  have split := commandLog_eq texts
  have all : ∀ text ∈ (os.respond vm.vcpu.spawned cmd).1, text.length < bufMax := by
    rw [texts]
    intro other member
    rcases List.mem_append.mp member with early | final
    · have before := short other early
      omega
    · rwa [List.mem_singleton.mp final]
  -- the last letter of READY is not up before the string has reached it
  have raised : vm.memory.replay ((earlyLog vm others text ++ lateLog text).take done) (readyAddr + 4) ≠ 0 := by
    rw [← split]
    exact ne_of_eq_of_ne (letter_of_ready ready) (by decide)
  have reached := Memory.length_lt_of_flag
    (fun write member here => earlyLog_quiet short member (by omega)) clear raised
  obtain ⟨extra, rfl⟩ := Nat.exists_eq_add_of_le (Nat.le_of_lt reached)
  have kept : ∀ a < readyAddr, (during os vm cmd ((earlyLog vm others text).length + extra)).memory a =
      vm.memory.replay (earlyLog vm others text) a := by
    intro a below
    simp only [during, split, List.take_length_add_append, Memory.replay_append]
    refine Memory.replay_untouched fun write member => ?_
    have above := lateLog_above (List.mem_of_mem_take member)
    omega
  have zero : (during os vm cmd ((earlyLog vm others text).length + extra)).memory (readyAddr + 5) = 0 :=
    Memory.replay_steady (fun write member => behind_ready all (List.mem_of_mem_take member)) last
  generalize during os vm cmd ((earlyLog vm others text).length + extra) = seen at ready kept zero
  have front : seen.memory.fetch outBufPhys ((text ++ [0]).take readySignalOffset).length =
      (text ++ [0]).take readySignalOffset := by
    have few : ((text ++ [0]).take readySignalOffset).length ≤ readySignalOffset := List.length_take_le _ _
    rw [Memory.fetch_congr fun i bound => kept (outBufPhys + i) (by omega), earlyLog, Memory.replay_append,
      Memory.replay_blockLog]
    exact Memory.fetch_store_self _ outBufPhys _
  rcases Nat.lt_or_ge text.length readySignalOffset with ends | reaches
  · rw [displayed_short ends]
    refine Memory.cString_of_stored ?_ (by omega)
    rwa [List.take_of_length_le (by rw [List.length_append]; exact ends), List.length_append] at front
  · rw [displayed_long reaches]
    have five : readySignal.length = 5 := rfl
    have length : (text.take readySignalOffset ++ readySignal).length = readySignalOffset + 5 := by
      rw [List.length_append, List.length_take_of_le reaches, five]
    refine Memory.cString_of_stored ?_ (by omega)
    rw [List.take_append_of_le_length reaches, List.length_take_of_le reaches] at front
    have nul : seen.memory.fetch (readyAddr + 5) 1 = [0] := by simp [Memory.fetch, zero]
    rw [length, Nat.add_assoc, Memory.fetch_add, front, List.append_assoc, Memory.fetch_add,
      show outBufPhys + readySignalOffset = readyAddr from rfl, ready, nul]

end Displayed

/-! ## The answer to a command -/

/-- What `read_vm_output` finds once init has carried out a command, after the
programs that it started before. -/
def Userland.answer (os : Userland) (started : List Spawn) (cmd : List UInt8) : String :=
  readVmOutput (Memory.zeroed.replay (answerLog Memory.zeroed (os.respond started cmd).1 ++ readyLog))

theorem readVmOutput_eq (memory : Memory) :
    readVmOutput memory = decoded (trimLineEnds (memory.cString outBufPhys bufMax)) := rfl

/-- Only the last string of a command may be long. -/
theorem respond_texts (os : Userland) (started : List Spawn) (cmd : List UInt8) :
    ∃ others text, (os.respond started cmd).1 = others ++ [text] ∧
      (∀ other ∈ others, other.length < readySignalOffset) ∧ text.length < bufMax := by
  have cut : ∀ bytes : List UInt8, (bytes.take (bufMax - 1)).length < bufMax := fun bytes =>
    Nat.lt_of_le_of_lt (List.length_take_le _ _) (Nat.sub_lt (by simp [bufMax]) Nat.one_pos)
  unfold Userland.respond
  split
  · exact ⟨[], _, rfl, List.forall_mem_nil _, cut _⟩
  · cases os.result (started ++ [os.program cmd]) with
    | none => exact ⟨[], codeBytes nullResult, rfl, List.forall_mem_nil _, by decide⟩
    | some result =>
      by_cases empty : (trimLineEnds result).take (bufMax - 1) = []
      · refine ⟨[[]], codeBytes emptyOutput, by simp [resultTexts, empty], ?_, by decide⟩
        exact List.forall_mem_singleton.mpr (by simp [readySignalOffset])
      · exact ⟨[], _, by simp only [resultTexts, if_neg empty]; rfl, List.forall_mem_nil _, cut _⟩

section Answer
variable {os : Userland} {vm : VmState InitState} {cmd text : List UInt8} {others : List (List UInt8)}
  {started : List Spawn} {done : Nat}

theorem answer_of_texts (texts : (os.respond started cmd).1 = others ++ [text])
    (short : ∀ other ∈ others, other.length < readySignalOffset) (within : text.length < bufMax) :
    os.answer started cmd = decoded (trimLineEnds (displayed text)) := by
  let fresh : VmState InitState := ⟨Memory.zeroed, 0, ⟨[], started⟩, false⟩
  have stored : (during os fresh cmd (commandLog os fresh cmd).length).memory =
      Memory.zeroed.replay (answerLog Memory.zeroed (os.respond started cmd).1 ++ readyLog) := by
    simp only [during, List.take_length]
    rfl
  have shown : (during os fresh cmd (commandLog os fresh cmd).length).memory.cString outBufPhys bufMax =
      displayed text := during_displayed texts short within rfl rfl during_ready
  rw [Userland.answer, ← stored, readVmOutput_eq, shown]

/-- Whenever READY is up, the host reads the answer to the command. -/
theorem read_during (clear : vm.memory (readyAddr + 4) = 0) (last : vm.memory (readyAddr + 5) = 0)
    (ready : (during os vm cmd done).memory.fetch readyAddr 5 = readySignal) :
    readVmOutput (during os vm cmd done).memory = os.answer vm.vcpu.spawned cmd := by
  obtain ⟨others, text, texts, short, within⟩ := respond_texts os vm.vcpu.spawned cmd
  rw [answer_of_texts texts short within, readVmOutput_eq, during_displayed texts short within clear last ready]

end Answer

/-! ## One call -/

/-- The two implementations of `run_code`. -/
inductive VmPath where
  | booted
  | forked
  deriving DecidableEq, Repr

namespace VmPath

def checkReady : VmPath → VmState InitState → Bool
  | booted => BootedVm.checkReady
  | forked => ForkedVm.checkReady

def runCode : VmPath → Userland → VmState InitState → Entropy → List VmExit → String →
    Except String String × VmState InitState
  | booted => BootedVm.runCode
  | forked => ForkedVm.runCode

/-- The answer to a caller: the output, to which a fork appends the tail. -/
def Hands : VmPath → String → String → Prop
  | booted, output, answer => answer = output
  | forked, output, answer => ∃ memory, answer = output ++ entropySuffix memory

/-- The host comes upon a guest that has shut down without READY. -/
def ShutsDown (path : VmPath) (os : Userland) : List VmExit → VmState InitState → Prop
  | [], _ => False
  | exit :: exits, vm =>
    let vm := (initStep os)^[exit.steps] vm
    match exit.reason with
    | .shutdown => path.checkReady vm = false
    | .poll => path.checkReady vm = false ∧ path.ShutsDown os exits vm
    | .mmio _ => path.ShutsDown os exits vm
    | .failEntry | .unexpected _ | .kvm _ => False

end VmPath

section Loops
variable {os : Userland} {vm after : VmState InitState} {exits : List VmExit}

theorem booted_ran {result : Except BootRunError Unit}
    (ran : BootedVm.runUntilReady os exits vm = (result, after)) :
    ∃ n, after = (initStep os)^[n] vm ∧ (result = .ok () →
      BootedVm.checkReady after = true ∧ ¬ VmPath.booted.ShutsDown os exits vm) := by
  induction exits generalizing vm with
  | nil =>
    obtain ⟨rfl, rfl⟩ := Prod.mk.inj ran
    exact ⟨0, rfl, by simp⟩
  | cons exit exits ih =>
    obtain ⟨steps, reason⟩ := exit
    cases reason with
    | poll =>
      simp only [BootedVm.runUntilReady] at ran
      split at ran
      next ready =>
        obtain ⟨rfl, rfl⟩ := Prod.mk.inj ran
        exact ⟨steps, rfl, fun _ => ⟨ready, fun down => Bool.false_ne_true (down.1.symm.trans ready)⟩⟩
      next =>
        obtain ⟨n, reached, done⟩ := ih ran
        exact ⟨n + steps, by rw [reached, Function.iterate_add_apply],
          fun ok => ⟨(done ok).1, fun down => (done ok).2 down.2⟩⟩
    | mmio | shutdown | failEntry | unexpected | kvm =>
      obtain ⟨rfl, rfl⟩ := Prod.mk.inj ran
      exact ⟨steps, rfl, by simp⟩

theorem forked_ran {result : Except ForkError Unit}
    (ran : ForkedVm.runUntilReady os exits vm = (result, after)) :
    ∃ n, after = (initStep os)^[n] vm ∧ (result = .ok () →
      ¬ VmPath.forked.ShutsDown os exits vm → ForkedVm.checkReady after = true) := by
  induction exits generalizing vm with
  | nil =>
    obtain ⟨rfl, rfl⟩ := Prod.mk.inj ran
    exact ⟨0, rfl, by simp⟩
  | cons exit exits ih =>
    obtain ⟨steps, reason⟩ := exit
    cases reason with
    | poll =>
      simp only [ForkedVm.runUntilReady] at ran
      split at ran
      next ready =>
        obtain ⟨rfl, rfl⟩ := Prod.mk.inj ran
        exact ⟨steps, rfl, fun _ _ => ready⟩
      next unready =>
        obtain ⟨n, reached, done⟩ := ih ran
        refine ⟨n + steps, by rw [reached, Function.iterate_add_apply], fun ok up => done ok fun down => ?_⟩
        exact up ⟨Bool.eq_false_iff.mpr unready, down⟩
    | mmio =>
      simp only [ForkedVm.runUntilReady] at ran
      obtain ⟨n, reached, done⟩ := ih ran
      exact ⟨n + steps, by rw [reached, Function.iterate_add_apply], done⟩
    | shutdown =>
      obtain ⟨rfl, rfl⟩ := Prod.mk.inj ran
      exact ⟨steps, rfl, fun _ up => Bool.eq_true_of_not_eq_false up⟩
    | failEntry | unexpected | kvm =>
      obtain ⟨rfl, rfl⟩ := Prod.mk.inj ran
      exact ⟨steps, rfl, by simp⟩

end Loops

section Calls
variable {path : VmPath} {os : Userland} {vm after : VmState InitState} {call : Call} {exits : List VmExit}
  {result : Except String String} {answer : String}

/-- A call leaves the VM alone, or somewhere on the guest's way from its
command; an answer means READY, but for a fork whose guest has shut down. -/
theorem call_cases (called : path.runCode os vm call.entropy exits call.code = (result, after)) :
    (after = vm ∧ ∃ message, result = .error message) ∨
    ∃ n, after = (initStep os)^[n] (injected vm call) ∧ ∀ answer, result = .ok answer →
      path.Hands (readVmOutput after.memory) answer ∧
      (path.ShutsDown os exits (injected vm call) → path = .forked) ∧
      (¬ path.ShutsDown os exits (injected vm call) → after.memory.fetch readyAddr 5 = readySignal) := by
  cases checked : checkExecutionBuffers vm.memorySize with
  | error message =>
    left
    have refused : BootedVm.runCode os vm call.entropy exits call.code = (.error message, vm) ∧
        ForkedVm.runCode os vm call.entropy exits call.code = (.error message, vm) := refused_call checked
    cases path with
    | booted =>
      obtain ⟨rfl, rfl⟩ := Prod.mk.inj (refused.1.symm.trans called)
      exact ⟨rfl, message, rfl⟩
    | forked =>
      obtain ⟨rfl, rfl⟩ := Prod.mk.inj (refused.2.symm.trans called)
      exact ⟨rfl, message, rfl⟩
  | ok =>
    right
    cases path with
    | booted =>
      change BootedVm.runCode os vm call.entropy exits call.code = (result, after) at called
      rw [BootedVm.runCode, prepared, checked] at called
      simp only [Except.map] at called
      split at called
      next ran =>
        obtain ⟨n, reached, -⟩ := booted_ran ran
        obtain ⟨rfl, rfl⟩ := Prod.mk.inj called
        exact ⟨n, reached, by simp⟩
      next ran =>
        obtain ⟨n, reached, done⟩ := booted_ran ran
        obtain ⟨rfl, rfl⟩ := Prod.mk.inj called
        refine ⟨n, reached, fun answer same => ⟨(Except.ok.inj same).symm, fun down => ?_, fun _ => ?_⟩⟩
        · exact absurd down (done rfl).2
        · exact booted_check.mp (done rfl).1
    | forked =>
      change ForkedVm.runCode os vm call.entropy exits call.code = (result, after) at called
      rw [ForkedVm.runCode, VmState.runCode, prepared, checked] at called
      simp only [Except.map] at called
      split at called
      next ran =>
        obtain ⟨n, reached, -⟩ := forked_ran ran
        obtain ⟨rfl, rfl⟩ := Prod.mk.inj called
        exact ⟨n, reached, by simp⟩
      next ran =>
        obtain ⟨n, reached, done⟩ := forked_ran ran
        obtain ⟨rfl, rfl⟩ := Prod.mk.inj called
        refine ⟨n, reached, fun answer same => ⟨⟨_, (Except.ok.inj same).symm⟩, fun _ => rfl, fun up => ?_⟩⟩
        exact (forked_check.mp (done rfl up)).2

/-- The guest has started the programs of the command, or none. -/
theorem spawned_iterate (idle : Idle vm) (n : Nat) :
    ((initStep os)^[n] (injected vm call)).vcpu.spawned = vm.vcpu.spawned ∨
      ((initStep os)^[n] (injected vm call)).vcpu.spawned =
        vm.vcpu.spawned ++ (os.respond vm.vcpu.spawned (command call.code)).2 := by
  have waiting : Idle (injected vm call) := idle
  have clear : (injected vm call).memory (readyAddr + 5) = 0 := injected_clear (by omega)
  have scan := injected_command vm.memory vm.entropyDivergence call.entropy call.code
  obtain ⟨flush, few, flushed⟩ := iterate_settled os waiting clear
  rcases Nat.lt_or_ge flush n with later | before
  · obtain ⟨k, rfl⟩ : ∃ k, n = k + 1 + flush := ⟨n - flush - 1, by omega⟩
    rw [Function.iterate_add_apply, flushed]
    by_cases given : command call.code = []
    · have fixed : initStep os (settled (injected vm call)) = settled (injected vm call) :=
        step_idle rfl (scan.trans given)
      rw [Function.iterate_fixed fixed]
      exact .inl rfl
    · have found : (settled (injected vm call)).memory.cString cmdBufPhys (bufMax - 1) = command call.code := scan
      rw [iterate_command rfl found given]
      exact .inr rfl
  · obtain rfl | rfl : n = 0 ∨ n = flush := by omega
    · exact .inl rfl
    · rw [flushed]
      exact .inl rfl

/-- With READY up the guest has carried out the command, and left its answer. -/
theorem answered_command (idle : Idle vm) {n : Nat}
    (ready : ((initStep os)^[n] (injected vm call)).memory.fetch readyAddr 5 = readySignal) :
    command call.code ≠ [] ∧
      readVmOutput ((initStep os)^[n] (injected vm call)).memory = os.answer vm.vcpu.spawned (command call.code) ∧
      ((initStep os)^[n] (injected vm call)).vcpu.spawned =
        vm.vcpu.spawned ++ (os.respond vm.vcpu.spawned (command call.code)).2 := by
  have waiting : Idle (injected vm call) := idle
  have clear : (injected vm call).memory (readyAddr + 5) = 0 := injected_clear (by omega)
  have scan := injected_command vm.memory vm.entropyDivergence call.entropy call.code
  by_cases given : command call.code = []
  · rw [iterate_silent os waiting clear (scan.trans given)] at ready
    exact absurd ready injected_unready
  · refine ⟨given, ?_⟩
    rcases iterate_idle os waiting clear scan given n with ⟨same, -⟩ | ⟨k, -, -, state⟩
    · rw [same] at ready
      exact absurd ready injected_unready
    · rw [state] at ready ⊢
      exact ⟨read_during (injected_clear (by omega)) (injected_clear (by omega)) ready, rfl⟩

end Calls

/-! ## Calls one after another -/

/-- A call, and what the guest does while it lasts. -/
structure CallTurn where
  call : Call
  exits : List VmExit

/-- The calls made on a VM, with what they returned. -/
abbrev Transcript := List (Call × Except String String)

/-- Calls on one VM, at any pace of the guest. -/
def attempts (path : VmPath) (os : Userland) (vm : VmState InitState) :
    System (VmState InitState × Transcript) CallTurn where
  start state := state = (vm, [])
  step state attempt next := ∃ result,
    path.runCode os state.1 attempt.call.entropy attempt.exits attempt.call.code = (result, next.1) ∧
      next.2 = state.2 ++ [(attempt.call, result)]

/-- Every answer belongs to its own call. The programs that init starts are
those of the calls, each carried out once, in order, or given up: a call that
is answered has been carried out, and is answered with what that left behind. -/
inductive Paired (path : VmPath) (os : Userland) (started : List Spawn) : Transcript → List Spawn → Prop where
  | none : Paired path os started [] started
  | answered {past : Transcript} {now : List Spawn} {call : Call} {answer : String}
      (before : Paired path os started past now) (given : codeBytes call.code ≠ [])
      (own : path.Hands (os.answer now (codeBytes call.code)) answer) :
      Paired path os started (past ++ [(call, .ok answer)]) (now ++ (os.respond now (codeBytes call.code)).2)
  | carriedOut {past : Transcript} {now : List Spawn} {call : Call} {message : String}
      (before : Paired path os started past now) :
      Paired path os started (past ++ [(call, .error message)]) (now ++ (os.respond now (codeBytes call.code)).2)
  | givenUp {past : Transcript} {now : List Spawn} {call : Call} {message : String}
      (before : Paired path os started past now) :
      Paired path os started (past ++ [(call, .error message)]) now

/-- The guest has no command under way, the code fits and is free of NULs, and
a fork is not left by its guest. -/
structure Undisturbed (path : VmPath) (os : Userland) (state : VmState InitState × Transcript)
    (attempt : CallTurn) : Prop where
  idle : Idle state.1
  fits : (codeBytes attempt.call.code).length < bufMax
  clean : ∀ byte ∈ codeBytes attempt.call.code, byte ≠ 0
  up : path = .forked → ¬ path.ShutsDown os attempt.exits (injected state.1 attempt.call)

section Runs
variable {path : VmPath} {os : Userland} {vm after : VmState InitState} {state : VmState InitState × Transcript}
  {attempt : CallTurn} {result : Except String String} {answer : String}

/-- One undisturbed call. -/
theorem undisturbed_call (good : Undisturbed path os state attempt)
    (called : path.runCode os state.1 attempt.call.entropy attempt.exits attempt.call.code = (result, after)) :
    (∃ answer, result = .ok answer ∧ codeBytes attempt.call.code ≠ [] ∧
      ¬ path.ShutsDown os attempt.exits (injected state.1 attempt.call) ∧
      path.Hands (os.answer state.1.vcpu.spawned (codeBytes attempt.call.code)) answer ∧
      after.vcpu.spawned = state.1.vcpu.spawned ++
        (os.respond state.1.vcpu.spawned (codeBytes attempt.call.code)).2) ∨
    ∃ message, result = .error message ∧
      (after.vcpu.spawned = state.1.vcpu.spawned ∨
        after.vcpu.spawned = state.1.vcpu.spawned ++
          (os.respond state.1.vcpu.spawned (codeBytes attempt.call.code)).2) := by
  have whole : command attempt.call.code = codeBytes attempt.call.code :=
    (command_eq_iff _).mpr ⟨good.fits, good.clean⟩
  rcases call_cases called with ⟨same, message, failed⟩ | ⟨n, reached, ok⟩
  · exact .inr ⟨message, failed, .inl (by rw [same])⟩
  · cases result with
    | error message =>
      have started : ((initStep os)^[n] (injected state.1 attempt.call)).vcpu.spawned = state.1.vcpu.spawned ∨ _ :=
        spawned_iterate good.idle n
      rw [← reached, whole] at started
      exact .inr ⟨message, rfl, started⟩
    | ok answer =>
      obtain ⟨hands, down, up⟩ := ok answer rfl
      have alive : ¬ path.ShutsDown os attempt.exits (injected state.1 attempt.call) :=
        fun shut => good.up (down shut) shut
      have ready := up alive
      rw [reached] at ready
      obtain ⟨given, own, started⟩ := answered_command good.idle ready
      rw [← reached, whole] at own started
      rw [own] at hands
      exact .inl ⟨answer, rfl, whole ▸ given, alive, hands, started⟩

/-- An undisturbed call keeps the answers paired. -/
theorem paired_step {started : List Spawn} {next : VmState InitState × Transcript}
    (paired : Paired path os started state.2 state.1.vcpu.spawned) (good : Undisturbed path os state attempt)
    (step : (attempts path os vm).step state attempt next) :
    Paired path os started next.2 next.1.vcpu.spawned := by
  obtain ⟨result, called, grown⟩ := step
  rw [grown]
  rcases undisturbed_call good called with ⟨answer, rfl, given, -, own, started⟩ | ⟨message, rfl, same | more⟩
  · rw [started]
    exact .answered paired given own
  · rw [same]
    exact .givenUp paired
  · rw [more]
    exact .carriedOut paired

theorem paired_run (reached : (attempts path os vm).Reached (Undisturbed path os) state) :
    Paired path os vm.vcpu.spawned state.2 state.1.vcpu.spawned := by
  induction reached with
  | start start =>
    obtain rfl := start
    exact .none
  | next _ good step ih => exact paired_step ih good step

end Runs

section Concrete

/-- A guest all of whose programs print the code that they are given. -/
def echoing : Userland where
  hasCmdJson := false
  cmdExecPath := []
  cmdInterpreter := []
  cmdArgs := none
  child history := history.getLast?.bind fun program => program.argv.getLast?
  moduleReport _ _ := []

def callY : Call := ⟨fun _ => 0, "y"⟩

private theorem echoing_respond {cmd : List UInt8} (started : List Spawn) (ordinary : cmd ∉ specialCommands)
    (given : cmd ≠ []) (short : cmd.length < bufMax) (clean : ∀ byte ∈ cmd, byte ≠ 0)
    (trimmed : trimLineEnds cmd = cmd) : (echoing.respond started cmd).1 = [cmd] := by
  have program : echoing.program cmd = runPython cmd := rfl
  have printed : echoing.child (started ++ [runPython cmd]) = some cmd := by
    simp [echoing, runPython]
  have result : echoing.result (started ++ [echoing.program cmd]) = some cmd := by
    rw [Userland.result, program, printed, Option.map_some, List.take_of_length_le, List.takeWhile_eq_self_iff.mpr]
    · simpa using clean
    · simp only [outBufMax, bufMax] at *
      omega
  rw [Userland.respond, if_neg ordinary, result, resultTexts, trimmed, List.take_of_length_le (by omega)]
  exact if_neg given

/-- A look at READY once the guest is done returns the answer. -/
private theorem looked_late {os : Userland} {vm : VmState InitState} {call : Call} {n : Nat}
    (accepted : checkExecutionBuffers vm.memorySize = .ok ()) (idle : Idle vm) (given : command call.code ≠ [])
    (enough : (commandLog os (settled (injected vm call)) (command call.code)).length + 2 ≤ n) :
    BootedVm.runCode os vm call.entropy [⟨n, .poll⟩] call.code =
        (.ok (os.answer vm.vcpu.spawned (command call.code)), (initStep os)^[n] (injected vm call)) ∧
      Idle ((initStep os)^[n] (injected vm call)) ∧
      ((initStep os)^[n] (injected vm call)).memorySize = vm.memorySize := by
  obtain ⟨ran, -⟩ := looked_once accepted idle given enough
  obtain ⟨ready, size⟩ := ready_when_done idle given enough
  refine ⟨?_, ?_, size⟩
  · rw [booted_call accepted ran, (answered_command idle ready).2.1]
  · rw [state_when_done idle given enough]
    exact during_idle (by rw [length_commandLog]; omega)

private theorem echoed {vm : VmState InitState} {call : Call} {letter : UInt8}
    (handed : command call.code = [letter]) (ordinary : command call.code ∉ specialCommands)
    (visible : letter ≠ 0 ∧ letter ≠ 10 ∧ letter ≠ 13)
    (accepted : checkExecutionBuffers vm.memorySize = .ok ()) (idle : Idle vm) : ∃ after,
      BootedVm.runCode echoing vm call.entropy [⟨20000, .poll⟩] call.code = (.ok (decoded [letter]), after) ∧
        Idle after ∧ after.memorySize = vm.memorySize := by
  have given : command call.code ≠ [] := handed ▸ List.cons_ne_nil _ _
  have trimmed : trimLineEnds [letter] = [letter] := by simp [trimLineEnds, visible]
  have clean : ∀ byte ∈ [letter], byte ≠ 0 := List.forall_mem_singleton.mpr visible.1
  have texts : ∀ started, (echoing.respond started (command call.code)).1 = [] ++ [[letter]] := by
    intro started
    rw [handed] at ordinary ⊢
    exact echoing_respond started ordinary (List.cons_ne_nil _ _) (by simp [bufMax]) clean trimmed
  have stores : (commandLog echoing (settled (injected vm call)) (command call.code)).length ≤ _ :=
    commandLog_short (texts _)
  have max : bufMax = 4096 := rfl
  rw [List.length_singleton] at stores
  have answer : echoing.answer vm.vcpu.spawned (command call.code) = decoded [letter] := by
    rw [answer_of_texts (texts _) (List.forall_mem_nil _) (by simp [bufMax]),
      displayed_short (by simp [readySignalOffset]), List.takeWhile_eq_self_iff.mpr (by simpa using visible.1), trimmed]
  have enough : (commandLog echoing (settled (injected vm call)) (command call.code)).length + 2 ≤ 20000 := by omega
  obtain ⟨ran, quiet, size⟩ := looked_late accepted idle given enough
  exact ⟨_, by rw [ran, answer], quiet, size⟩

end Concrete
end TinyMachine
