import Mathlib.Data.List.DropRight
import TinyMachine.ExecBufferProtocol

/-! Calls to `run_code` on a booted VM and on a fork of it: in any session of
calls whose outputs end before READY, what is executed and what the caller is
handed, whenever the host happens to look. -/
namespace TinyMachine
open Lib

section Loops
variable {os : Userland} {vm after : VmState InitState} {exits : List VmExit}

theorem booted_check : BootedVm.checkReady vm = true ↔
    vm.memory.fetch readyAddr 5 = readySignal := by
  have same : (vm.memory.fetch (0x7F000 + 4090) 6).take 5 = vm.memory.fetch readyAddr 5 := by
    rw [Memory.fetch_add vm.memory (0x7F000 + 4090) 5 1, List.take_left' (Memory.length_fetch ..)]
    rfl
  rw [BootedVm.checkReady, same, decide_eq_true_eq]

theorem forked_check : ForkedVm.checkReady vm = true ↔
    readyAddr + 5 ≤ vm.memorySize ∧ vm.memory.fetch readyAddr 5 = readySignal := by
  rw [ForkedVm.checkReady, decide_eq_true_eq]

private theorem booted_returned (returned : BootedVm.runUntilReady os exits vm = (.ok (), after)) :
    ∃ n, after = (initStep os)^[n] vm ∧ BootedVm.checkReady after = true := by
  induction exits generalizing vm with
  | nil => exact absurd (congrArg Prod.fst returned) (by simp [BootedVm.runUntilReady])
  | cons exit exits ih =>
    obtain ⟨steps, reason⟩ := exit
    cases reason with
    | poll =>
      simp only [BootedVm.runUntilReady] at returned
      split at returned
      next ready =>
        obtain rfl := (Prod.mk.inj returned).2
        exact ⟨steps, rfl, ready⟩
      next =>
        obtain ⟨n, reached, ready⟩ := ih returned
        exact ⟨n + steps, by rw [reached, Function.iterate_add_apply], ready⟩
    | mmio | shutdown | failEntry | unexpected | kvm =>
      exact absurd (congrArg Prod.fst returned) (by simp [BootedVm.runUntilReady])

/-- The VM is still running whenever it exits. -/
def StaysUp (exits : List VmExit) : Prop := ∀ exit ∈ exits, exit.reason ≠ .shutdown

private theorem forked_returned (up : StaysUp exits)
    (returned : ForkedVm.runUntilReady os exits vm = (.ok (), after)) :
    ∃ n, after = (initStep os)^[n] vm ∧ ForkedVm.checkReady after = true := by
  induction exits generalizing vm with
  | nil => exact absurd (congrArg Prod.fst returned) (by simp [ForkedVm.runUntilReady])
  | cons exit exits ih =>
    have later : StaysUp exits := fun exit member => up exit (List.mem_cons_of_mem _ member)
    obtain ⟨steps, reason⟩ := exit
    cases reason with
    | poll =>
      simp only [ForkedVm.runUntilReady] at returned
      split at returned
      next ready =>
        obtain rfl := (Prod.mk.inj returned).2
        exact ⟨steps, rfl, ready⟩
      next =>
        obtain ⟨n, reached, ready⟩ := ih later returned
        exact ⟨n + steps, by rw [reached, Function.iterate_add_apply], ready⟩
    | mmio =>
      simp only [ForkedVm.runUntilReady] at returned
      obtain ⟨n, reached, ready⟩ := ih later returned
      exact ⟨n + steps, by rw [reached, Function.iterate_add_apply], ready⟩
    | shutdown => exact absurd rfl (up _ List.mem_cons_self)
    | failEntry | unexpected | kvm =>
      exact absurd (congrArg Prod.fst returned) (by simp [ForkedVm.runUntilReady])

/-- The host looks after every exit, and the guest gets so many steps. -/
def Polled (exits : List VmExit) (steps : Nat) : Prop :=
  (∀ exit ∈ exits, exit.reason = .poll) ∧ steps ≤ (exits.map VmExit.steps).sum

private theorem Polled.tail {exit : VmExit} {steps : Nat} (polled : Polled (exit :: exits) steps) :
    exit.reason = .poll ∧ Polled exits (steps - exit.steps) := by
  obtain ⟨polls, enough⟩ := polled
  rw [List.map_cons, List.sum_cons] at enough
  exact ⟨polls _ List.mem_cons_self, fun exit member => polls exit (List.mem_cons_of_mem _ member),
    by omega⟩

private theorem returns_when_polled {ε : Type} (check : VmState InitState → Bool)
    (loop : List VmExit → VmState InitState → Except ε Unit × VmState InitState)
    (polling : ∀ steps exits vm, loop (⟨steps, .poll⟩ :: exits) vm =
      if check ((initStep os)^[steps] vm) then (.ok (), (initStep os)^[steps] vm)
      else loop exits ((initStep os)^[steps] vm))
    {bound : Nat} (positive : 0 < bound) (polled : Polled exits bound)
    (ready : ∀ n, bound ≤ n → check ((initStep os)^[n] vm) = true) :
    ∃ after, loop exits vm = (.ok (), after) := by
  induction exits generalizing vm bound with
  | nil => exact absurd polled.2 (Nat.not_le_of_lt positive)
  | cons exit exits ih =>
    obtain ⟨steps, reason⟩ := exit
    obtain ⟨rfl, later⟩ := polled.tail
    rw [polling]
    split
    next => exact ⟨_, rfl⟩
    next unready =>
      have early : steps < bound := by
        by_contra reached
        exact unready (ready steps (Nat.le_of_not_lt reached))
      refine ih (Nat.sub_pos_of_lt early) later fun n enough => ?_
      rw [← Function.iterate_add_apply]
      exact ready _ (Nat.le_add_of_sub_le enough)

end Loops

section Answers

/-- `String::from_utf8`, with the text that stands for bytes that are none. -/
def decoded (bytes : List UInt8) : String :=
  (String.fromUTF8? ⟨bytes.toArray⟩).getD "(output contains invalid UTF-8)"

theorem decoded_codeBytes (text : String) : decoded (codeBytes text) = text := by
  simp [decoded, codeBytes, String.fromUTF8?, text.isValidUTF8]
  rfl

theorem decoded_of_invalid {bytes : List UInt8} (foreign : ∀ text, codeBytes text ≠ bytes) :
    decoded bytes = "(output contains invalid UTF-8)" := by
  have invalid : ¬ (⟨bytes.toArray⟩ : ByteArray).IsValidUTF8 := fun valid =>
    foreign (String.fromUTF8 ⟨bytes.toArray⟩ valid) rfl
  rw [decoded, String.fromUTF8?, dif_neg invalid, Option.getD_none]

private theorem read_output {memory : Memory} {text : List UInt8}
    (held : memory.cString outBufPhys bufMax = text) (trimmed : trimLineEnds text = text) :
    readVmOutput memory = decoded text := by
  rw [← trimmed, ← held]
  rfl

/-- What a caller is to be told of the result of a `run_*` function. -/
def Conveys (answer : String) : Option (List UInt8) → Prop
  | none => answer = nullResult
  | some result =>
    if trimLineEnds result = [] then answer = emptyOutput
    else (∀ text, codeBytes text = trimLineEnds result → answer = text) ∧
      ((∀ text, codeBytes text ≠ trimLineEnds result) →
        answer = "(output contains invalid UTF-8)")

@[simp] theorem trimLineEnds_idem (out : List UInt8) :
    trimLineEnds (trimLineEnds out) = trimLineEnds out :=
  List.rdropWhile_idempotent _ _

theorem mem_of_mem_trimLineEnds {out : List UInt8} {byte : UInt8} (member : byte ∈ trimLineEnds out) :
    byte ∈ out :=
  (List.rdropWhile_prefix _ out).subset member

/-- The last string init copies for a result conveys it, if it fits. -/
private theorem result_conveyed {result : Option (List UInt8)}
    (clean : ∀ bytes, result = some bytes → ∀ byte ∈ bytes, byte ≠ 0)
    (fits : ∀ text ∈ resultTexts result, text.length < readySignalOffset) :
    ∃ others text, resultTexts result = others ++ [text] ∧ (∀ byte ∈ text, byte ≠ 0) ∧
      trimLineEnds text = text ∧ Conveys (decoded text) result := by
  cases result with
  | none =>
    exact ⟨[], codeBytes nullResult, rfl, clean_of_all rfl, rfl, decoded_codeBytes _⟩
  | some bytes =>
    by_cases empty : trimLineEnds bytes = []
    · refine ⟨[[]], codeBytes emptyOutput, by simp [resultTexts, empty], clean_of_all rfl, rfl, ?_⟩
      rw [Conveys, if_pos empty, decoded_codeBytes]
    · have taken : (trimLineEnds bytes).take (bufMax - 1) ≠ [] := by
        simpa [bufMax] using empty
      have texts : resultTexts (some bytes) = [(trimLineEnds bytes).take (bufMax - 1)] :=
        if_neg taken
      have whole : (trimLineEnds bytes).take (bufMax - 1) = trimLineEnds bytes := by
        have short := fits _ (texts ▸ List.mem_singleton_self _)
        rw [List.length_take] at short
        apply List.take_of_length_le
        simp only [readySignalOffset, bufMax] at *
        omega
      rw [whole] at texts
      refine ⟨[], trimLineEnds bytes, texts, fun byte member => ?_, trimLineEnds_idem bytes, ?_⟩
      · exact clean bytes rfl byte (mem_of_mem_trimLineEnds member)
      · rw [Conveys, if_neg empty]
        refine ⟨fun text same => ?_, decoded_of_invalid⟩
        rw [← same, decoded_codeBytes]

end Answers

/-- What a caller passes to `run_code`, with the host entropy of that call. -/
structure Call where
  entropy : Entropy
  code : String

/-- The calls made one after another on a booted VM, each ending in an answer. -/
def session (os : Userland) : System (VmState InitState) Call where
  start vm := vm.vcpu.pending = []
  step vm call next := ∃ exits answer,
    BootedVm.runCode os vm call.entropy exits call.code = (.ok answer, next)

section Calls
variable {os : Userland} {vm after : VmState InitState} {call : Call} {exits : List VmExit}
  {answer : String}

/-- The VM with a call's command handed over. -/
def injected (vm : VmState InitState) (call : Call) : VmState InitState :=
  { vm with memory := injectCommand vm.memory vm.entropyDivergence call.entropy call.code }

theorem prepared (vm : VmState InitState) (call : Call) :
    prepareVmForExecution vm.memory vm.memorySize vm.entropyDivergence call.entropy call.code =
      (checkExecutionBuffers vm.memorySize).map fun _ => (injected vm call).memory := by
  rw [prepareVmForExecution]
  cases checkExecutionBuffers vm.memorySize <;> rfl

private theorem booted_ok
    (returned : BootedVm.runCode os vm call.entropy exits call.code = (.ok answer, after)) :
    BootedVm.runUntilReady os exits (injected vm call) = (.ok (), after) ∧
      answer = readVmOutput after.memory := by
  rw [BootedVm.runCode, prepared] at returned
  cases checked : checkExecutionBuffers vm.memorySize with
  | error message =>
    rw [checked] at returned
    cases (Prod.mk.inj returned).1
  | ok =>
    rw [checked] at returned
    simp only [Except.map] at returned
    split at returned
    next => cases (Prod.mk.inj returned).1
    next ready =>
      obtain ⟨same, rfl⟩ := Prod.mk.inj returned
      exact ⟨ready, (Except.ok.inj same).symm⟩

private theorem forked_ok
    (returned : ForkedVm.runCode os vm call.entropy exits call.code = (.ok answer, after)) :
    ForkedVm.runUntilReady os exits (injected vm call) = (.ok (), after) ∧
      answer = readVmOutput after.memory ++ entropySuffix after.memory := by
  rw [ForkedVm.runCode, VmState.runCode, prepared] at returned
  cases checked : checkExecutionBuffers vm.memorySize with
  | error message =>
    rw [checked] at returned
    cases (Prod.mk.inj returned).1
  | ok =>
    rw [checked] at returned
    simp only [Except.map] at returned
    split at returned
    next => cases (Prod.mk.inj returned).1
    next ready =>
      obtain ⟨same, rfl⟩ := Prod.mk.inj returned
      exact ⟨ready, (Except.ok.inj same).symm⟩

theorem injected_clear {i : Nat} (inside : i < 6) :
    (injected vm call).memory (readyAddr + i) = 0 :=
  injected_output (by simp only [readyAddr]; omega)
    (by simp only [readyAddr, readySignalOffset, bufMax]; omega)

theorem injected_unready : (injected vm call).memory.fetch readyAddr 5 ≠ readySignal := by
  intro ready
  have raised := letter_of_ready ready
  rw [injected_clear (by omega)] at raised
  cases raised

/-- Without a command READY is never seen. -/
private theorem unready_of_silent (idle : Idle vm) (silent : command call.code = []) (n : Nat) :
    ((initStep os)^[n] (injected vm call)).memory.fetch readyAddr 5 ≠ readySignal := by
  have waiting : Idle (injected vm call) := idle
  have clear : (injected vm call).memory (readyAddr + 5) = 0 := injected_clear (by omega)
  have scan := injected_command vm.memory vm.entropyDivergence call.entropy call.code
  rw [iterate_silent os waiting clear (scan.trans silent)]
  exact injected_unready

/-- READY is seen only after a command, and then the whole answer is there. -/
private theorem answered_when_ready (idle : Idle vm) (fits : Fits os vm (command call.code)) {n : Nat}
    (ready : ((initStep os)^[n] (injected vm call)).memory.fetch readyAddr 5 = readySignal) :
    command call.code ≠ [] ∧ ∃ done,
      (answered os (settled (injected vm call)) (command call.code)).length + 5 ≤ done ∧
      (initStep os)^[n] (injected vm call) =
        during os (settled (injected vm call)) (command call.code) done := by
  have waiting : Idle (injected vm call) := idle
  have clear : (injected vm call).memory (readyAddr + 5) = 0 := injected_clear (by omega)
  have scan := injected_command vm.memory vm.entropyDivergence call.entropy call.code
  by_cases given : command call.code = []
  · exact absurd ready (unready_of_silent idle given n)
  · refine ⟨given, ?_⟩
    rcases iterate_idle os waiting clear scan given n with
      ⟨same, -⟩ | ⟨k, -, -, state⟩
    · rw [same] at ready
      exact absurd ready injected_unready
    · rw [state] at ready
      have settledFits : Fits os (settled (injected vm call)) (command call.code) := fits
      exact ⟨_, answered_of_ready settledFits (injected_clear (by omega)) ready, state⟩

/-- Given enough steps, a command is done. -/
theorem state_when_done (idle : Idle vm) (given : command call.code ≠ []) {n : Nat}
    (enough : (commandLog os (settled (injected vm call)) (command call.code)).length + 2 ≤ n) :
    (initStep os)^[n] (injected vm call) = during os (settled (injected vm call)) (command call.code)
      (commandLog os (settled (injected vm call)) (command call.code)).length := by
  have waiting : Idle (injected vm call) := idle
  have clear : (injected vm call).memory (readyAddr + 5) = 0 := injected_clear (by omega)
  have scan := injected_command vm.memory vm.entropyDivergence call.entropy call.code
  rcases iterate_idle os waiting clear scan given n with
    ⟨-, few⟩ | ⟨k, -, most, state⟩
  · omega
  · rwa [Nat.min_eq_right (by omega)] at state

theorem ready_when_done (idle : Idle vm) (given : command call.code ≠ []) {n : Nat}
    (enough : (commandLog os (settled (injected vm call)) (command call.code)).length + 2 ≤ n) :
    ((initStep os)^[n] (injected vm call)).memory.fetch readyAddr 5 = readySignal ∧
      ((initStep os)^[n] (injected vm call)).memorySize = vm.memorySize := by
  rw [state_when_done idle given enough]
  exact ⟨during_ready, during_memorySize⟩

/-- Sessions of fitting calls leave init idle. -/
private theorem reached_idle
    (reached : (session os).Reached (fun vm call => Fits os vm (command call.code)) vm) : Idle vm := by
  refine reached.invariant (fun vm quiet => .inl quiet) fun vm call next idle fits step => ?_
  obtain ⟨exits, answer, returned⟩ := step
  obtain ⟨n, rfl, ready⟩ := booted_returned (booted_ok returned).1
  obtain ⟨-, done, enough, state⟩ := answered_when_ready idle fits (booted_check.mp ready)
  rw [state]
  exact during_idle enough

/-- A command that init runs as a program, and whose output ends before READY. -/
def Ordinary (os : Userland) (vm : VmState InitState) (cmd : List UInt8) : Prop :=
  cmd ≠ [] ∧ cmd ∉ specialCommands ∧ Fits os vm cmd

/-- The programs started once a command is, in order. -/
def history (os : Userland) (vm : VmState InitState) (cmd : List UInt8) : List Spawn :=
  vm.vcpu.spawned ++ [os.program cmd]

private theorem respond_ordinary {cmd : List UInt8} (ordinary : Ordinary os vm cmd) :
    os.respond vm.vcpu.spawned cmd =
      (resultTexts (os.result (history os vm cmd)), [os.program cmd]) :=
  if_neg ordinary.2.1

private theorem result_clean (os : Userland) (programs : List Spawn) (bytes : List UInt8)
    (given : os.result programs = some bytes) : ∀ byte ∈ bytes, byte ≠ 0 := by
  obtain ⟨output, -, rfl⟩ := Option.map_eq_some_iff.mp given
  intro byte member
  simpa using List.mem_takeWhile_imp member

/-- What a VM holds once READY is seen after an ordinary command. -/
private theorem exchanged (idle : Idle vm) (ordinary : Ordinary os vm (command call.code)) {n : Nat}
    (ready : ((initStep os)^[n] (injected vm call)).memory.fetch readyAddr 5 = readySignal) :
    ((initStep os)^[n] (injected vm call)).vcpu.spawned = history os vm (command call.code) ∧
      Conveys (readVmOutput ((initStep os)^[n] (injected vm call)).memory)
        (os.result (history os vm (command call.code))) := by
  obtain ⟨-, done, enough, state⟩ := answered_when_ready idle ordinary.2.2 ready
  have responded := respond_ordinary ordinary
  have fits := ordinary.2.2
  rw [Fits, responded] at fits
  obtain ⟨others, text, texts, clean, trimmed, conveyed⟩ :=
    result_conveyed (result_clean os _) fits
  have output : (during os (settled (injected vm call)) (command call.code) done).memory.cString
      outBufPhys bufMax = text :=
    during_output ((congrArg Prod.fst responded).trans texts) (by omega)
      (fits text (texts ▸ List.mem_append_right _ (List.mem_singleton_self _))) clean
  rw [state, read_output output trimmed]
  exact ⟨congrArg (vm.vcpu.spawned ++ ·) (congrArg Prod.snd responded), conveyed⟩

end Calls

/-- What `run_code` promises its caller, on a booted VM and on a fork. -/
structure ExecExchange (os : Userland) (vm : VmState InitState) (call : Call) : Prop where
  /-- Buffers beyond the memory are an error. -/
  refused : ∀ exits message, checkExecutionBuffers vm.memorySize = .error message →
    BootedVm.runCode os vm call.entropy exits call.code = (.error message, vm) ∧
      ForkedVm.runCode os vm call.entropy exits call.code = (.error message, vm)
  /-- The command is the code as far as it has no NUL and fits. -/
  whole : command call.code = codeBytes call.code ↔
    (codeBytes call.code).length < bufMax ∧ ∀ byte ∈ codeBytes call.code, byte ≠ 0
  /-- Without a command there is no answer. -/
  silent : command call.code = [] → ∀ exits answer after,
    BootedVm.runCode os vm call.entropy exits call.code ≠ (.ok answer, after) ∧
      (StaysUp exits → ForkedVm.runCode os vm call.entropy exits call.code ≠ (.ok answer, after))
  /-- An interpreter is handed exactly the command, as its last argument. -/
  passed : ¬ (os.hasCmdJson ∧ os.cmdExecPath ≠ []) → ∃ front ≠ [],
    (os.program (command call.code)).argv = front ++ [command call.code]
  /-- The booted VM starts one program and hands over its result. -/
  booted : Ordinary os vm (command call.code) → ∀ exits answer after,
    BootedVm.runCode os vm call.entropy exits call.code = (.ok answer, after) →
      after.vcpu.spawned = history os vm (command call.code) ∧
      Conveys answer (os.result (history os vm (command call.code)))
  /-- So does the forked VM, with four bytes of the output buffer's tail. -/
  forked : Ordinary os vm (command call.code) → ∀ exits answer after, StaysUp exits →
    ForkedVm.runCode os vm call.entropy exits call.code = (.ok answer, after) →
      after.vcpu.spawned = history os vm (command call.code) ∧
      ∃ text, answer = text ++ entropySuffix after.memory ∧
        Conveys text (os.result (history os vm (command call.code)))
  /-- Both come to their answer. -/
  returned : checkExecutionBuffers vm.memorySize = .ok () → command call.code ≠ [] →
    ∃ steps, ∀ exits, Polled exits steps →
      (∃ answer after, BootedVm.runCode os vm call.entropy exits call.code = (.ok answer, after)) ∧
      ∃ answer after, ForkedVm.runCode os vm call.entropy exits call.code = (.ok answer, after)
  /-- What the guest stores for outputs of some length lies in areas that are
  apart as long as the outputs end before the tail. -/
  apart : ∀ longest texts, (∀ text ∈ texts, text.length ≤ longest) →
    (∀ write ∈ answerLog vm.memory texts ++ readyLog, Covers (protocolAreas longest) write.1) ∧
      ((protocolAreas longest).Pairwise Span.Disjoint ↔ longest < bufMax - 8)

section Contract
variable {os : Userland} {vm : VmState InitState} {call : Call}

private theorem program_passes (cmd : List UInt8)
    (interpreted : ¬ (os.hasCmdJson ∧ os.cmdExecPath ≠ [])) :
    ∃ front ≠ [], (os.program cmd).argv = front ++ [cmd] := by
  have python : ∃ front ≠ [], (runPython cmd).argv = front ++ [cmd] :=
    ⟨[codeBytes "python3", codeBytes "-c"], by simp, rfl⟩
  rw [Userland.program, if_neg interpreted]
  split
  next given =>
    rw [runGeneral.eq_def, if_neg (by simp), if_pos given.2]
    split
    next => exact python
    next =>
      split
      next arg _ => exact ⟨[os.cmdInterpreter, arg], by simp, rfl⟩
      next => exact ⟨[os.cmdInterpreter], by simp, rfl⟩
  next => exact python

theorem refused_call {exits : List VmExit} {message : String}
    (refused : checkExecutionBuffers vm.memorySize = .error message) :
    BootedVm.runCode os vm call.entropy exits call.code = (.error message, vm) ∧
      ForkedVm.runCode os vm call.entropy exits call.code = (.error message, vm) := by
  constructor
  · rw [BootedVm.runCode, prepared, refused]
    rfl
  · rw [ForkedVm.runCode, VmState.runCode, prepared, refused]
    rfl

theorem booted_call {exits : List VmExit} {after : VmState InitState}
    (accepted : checkExecutionBuffers vm.memorySize = .ok ())
    (ran : BootedVm.runUntilReady os exits (injected vm call) = (.ok (), after)) :
    BootedVm.runCode os vm call.entropy exits call.code = (.ok (readVmOutput after.memory), after) := by
  rw [BootedVm.runCode, prepared, accepted]
  simp only [Except.map]
  rw [show BootedVm.runUntilReady os exits { vm with memory := (injected vm call).memory } = _ from ran]

theorem forked_call {exits : List VmExit} {after : VmState InitState}
    (accepted : checkExecutionBuffers vm.memorySize = .ok ())
    (ran : ForkedVm.runUntilReady os exits (injected vm call) = (.ok (), after)) :
    ForkedVm.runCode os vm call.entropy exits call.code =
      (.ok (readVmOutput after.memory ++ entropySuffix after.memory), after) := by
  rw [ForkedVm.runCode, VmState.runCode, prepared, accepted]
  simp only [Except.map]
  rw [show ForkedVm.runUntilReady os exits { vm with memory := (injected vm call).memory } = _ from ran]

/-- The memory that the bounds checks ask for holds READY. -/
theorem ready_in_memory (accepted : checkExecutionBuffers vm.memorySize = .ok ()) :
    readyAddr + 5 ≤ vm.memorySize := by
  simp only [checkExecutionBuffers, bind, Except.bind, throw, throwThe, MonadExceptOf.throw, pure,
    Except.pure] at accepted
  split at accepted
  next => cases accepted
  split at accepted
  next => cases accepted
  split at accepted
  next => cases accepted
  split at accepted
  next => cases accepted
  next enough =>
    simp only [readyAddr, readySignalOffset, bufMax] at *
    omega

end Contract
section Concrete

/-- A guest all of whose programs print the same. -/
def printing (output : List UInt8) : Userland where
  hasCmdJson := false
  cmdExecPath := []
  cmdInterpreter := []
  cmdArgs := none
  child _ := some output
  moduleReport _ _ := []

def idleVm : VmState InitState where
  memory := Memory.zeroed
  memorySize := 0x100000
  vcpu := ⟨[], []⟩
  entropyDivergence := true

def callX : Call := ⟨fun _ => 0, "x"⟩

theorem callX_given : command callX.code ≠ [] := by decide

theorem callX_ordinary : command callX.code ∉ specialCommands := by decide

/-- Both hosts, looking once after enough steps, find the command done. -/
theorem looked_once {os : Userland} {vm : VmState InitState} {call : Call} {n : Nat}
    (accepted : checkExecutionBuffers vm.memorySize = .ok ()) (idle : Idle vm)
    (given : command call.code ≠ [])
    (enough : (commandLog os (settled (injected vm call)) (command call.code)).length + 2 ≤ n) :
    BootedVm.runUntilReady os [⟨n, .poll⟩] (injected vm call) =
        (.ok (), (initStep os)^[n] (injected vm call)) ∧
      ForkedVm.runUntilReady os [⟨n, .poll⟩] (injected vm call) =
        (.ok (), (initStep os)^[n] (injected vm call)) := by
  obtain ⟨ready, size⟩ := ready_when_done idle given enough
  have inside := ready_in_memory accepted
  exact ⟨if_pos (booted_check.mpr ready), if_pos (forked_check.mpr ⟨size ▸ inside, ready⟩)⟩

/-- The stores for a command that leaves one string behind. -/
theorem commandLog_short {os : Userland} {vm : VmState InitState} {cmd text : List UInt8}
    (texts : (os.respond vm.vcpu.spawned cmd).1 = [text]) :
    (commandLog os vm cmd).length ≤ text.length + bufMax + 15 := by
  have tail : (entropyLog vm.memory).length ≤ 2 := by
    unfold entropyLog
    split <;> simp
  have signal : readySignal.length = 5 := rfl
  simp only [commandLog, answerLog, clearLog, textLog, readyLog, texts, List.flatMap_singleton,
    List.length_append, length_blockLog, List.length_replicate, List.length_singleton, signal]
  omega

private theorem codeBytes_decoded (bytes : List UInt8) :
    codeBytes (decoded bytes) = bytes ∨ decoded bytes = "(output contains invalid UTF-8)" := by
  by_cases foreign : ∀ text, codeBytes text ≠ bytes
  · exact .inr (decoded_of_invalid foreign)
  · obtain ⟨text, rfl⟩ := not_forall_not.mp foreign
    exact .inl (congrArg codeBytes (decoded_codeBytes text))

private theorem trimLineEnds_eq_self {out : List UInt8} (given : out ≠ [])
    (visible : out.getLast given ≠ 10 ∧ out.getLast given ≠ 13) : trimLineEnds out = out :=
  List.rdropWhile_eq_self_iff.mpr fun _ => by simpa using visible

private theorem respond_printing {output : List UInt8} {cmd : List UInt8} {programs : List Spawn}
    (ordinary : cmd ∉ specialCommands) (short : output.length < bufMax)
    (clean : ∀ byte ∈ output, byte ≠ 0) (given : output ≠ []) (trimmed : trimLineEnds output = output) :
    ((printing output).respond programs cmd).1 = [output] := by
  have result : (printing output).result (programs ++ [(printing output).program cmd]) = some output := by
    rw [Userland.result, printing, Option.map_some, List.take_of_length_le, List.takeWhile_eq_self_iff.mpr]
    · simpa using clean
    · simp only [outBufMax, bufMax] at *
      omega
  rw [Userland.respond, if_neg ordinary, result, resultTexts, trimmed, List.take_of_length_le (by omega)]
  exact if_neg given

/-- Outputs that reach the first byte of READY but not its NUL come back longer. -/
private theorem overrun_call {output : List UInt8} (long : readySignalOffset ≤ output.length)
    (short : output.length < readySignalOffset + 5) (clean : ∀ byte ∈ output, byte ≠ 0)
    (trimmed : trimLineEnds output = output) : ∃ answer after,
      BootedVm.runCode (printing output) idleVm callX.entropy [⟨20000, .poll⟩] callX.code =
        (.ok answer, after) ∧ codeBytes answer ≠ output := by
  have accepted : checkExecutionBuffers idleVm.memorySize = .ok () := rfl
  have idle : Idle idleVm := .inl rfl
  have offset : readySignalOffset = 4090 := rfl
  have max : bufMax = 4096 := rfl
  have texts : ((printing output).respond (settled (injected idleVm callX)).vcpu.spawned
      (command callX.code)).1 = [output] :=
    respond_printing callX_ordinary (by omega) clean (List.ne_nil_of_length_pos (by omega)) trimmed
  have stores := commandLog_short texts
  have enough : (commandLog (printing output) (settled (injected idleVm callX))
      (command callX.code)).length + 2 ≤ 20000 := by omega
  obtain ⟨ran, -⟩ := looked_once accepted idle callX_given enough
  refine ⟨_, _, booted_call accepted ran, ?_⟩
  have letters : readySignal ≠ [] := List.cons_ne_nil _ _
  have last : readySignal.getLast letters ≠ 10 ∧ readySignal.getLast letters ≠ 13 :=
    ⟨by decide +revert, by decide +revert⟩
  have kept : trimLineEnds (output.take readySignalOffset ++ readySignal) =
      output.take readySignalOffset ++ readySignal :=
    trimLineEnds_eq_self (List.append_ne_nil_of_right_ne_nil _ letters)
      (by rw [List.getLast_append_of_ne_nil _ letters]; exact last)
  rw [state_when_done idle callX_given enough, read_output (during_overrun texts long clean) kept]
  intro same
  have lengths := congrArg List.length same
  rcases codeBytes_decoded (output.take readySignalOffset ++ readySignal) with whole | foreign
  · rw [whole, List.length_append, List.length_take_of_le long,
      show readySignal.length = 5 from rfl] at lengths
    omega
  · rw [foreign, show (codeBytes "(output contains invalid UTF-8)").length = 31 from rfl] at lengths
    omega

/-- A fork appends the tail to what its guest printed. -/
private theorem suffixed_call : ∃ answer after,
    ForkedVm.runCode (printing (codeBytes "hi")) idleVm callX.entropy [⟨20000, .poll⟩] callX.code =
      (.ok answer, after) ∧ answer ≠ "hi" := by
  have accepted : checkExecutionBuffers idleVm.memorySize = .ok () := rfl
  have idle : Idle idleVm := .inl rfl
  have texts : ((printing (codeBytes "hi")).respond (settled (injected idleVm callX)).vcpu.spawned
      (command callX.code)).1 = [] ++ [codeBytes "hi"] :=
    respond_printing callX_ordinary (show 2 < bufMax by simp only [bufMax]; omega) (clean_of_all rfl)
      (List.cons_ne_nil _ _) rfl
  have stores := commandLog_short texts
  rw [show (codeBytes "hi").length = 2 from rfl, show bufMax = 4096 from rfl] at stores
  have enough : (commandLog (printing (codeBytes "hi")) (settled (injected idleVm callX))
      (command callX.code)).length + 2 ≤ 20000 := by omega
  obtain ⟨-, ran⟩ := looked_once accepted idle callX_given enough
  refine ⟨_, _, forked_call accepted ran, ?_⟩
  have output := during_output texts (Nat.le_of_add_right_le (Nat.le_of_eq length_commandLog.symm))
    (show 2 < readySignalOffset by simp only [readySignalOffset]; omega) (clean_of_all rfl)
  rw [state_when_done idle callX_given enough, read_output output rfl, decoded_codeBytes,
    entropySuffix]
  intro same
  have lengths := congrArg String.length same
  rw [String.length_append, String.length_append] at lengths
  have nonempty : "ENTROPY:".length = 8 := rfl
  omega

end Concrete
end TinyMachine
