import Mathlib.Tactic.NormNum
import TinyMachine.ExecBuffer
import TinyMachine.Lib.Runs
import TinyMachine.Lib.Spans

/-! What passes between `run_code` and init through the shared buffers: which
bytes are executed, what comes back, and when the host may look. -/
namespace TinyMachine
open Lib

section Layout

theorem layout : cmdBufPhys = 0x7E000 ∧ outBufPhys = 0x7F000 ∧ readyAddr = 0x7F000 + 4090 ∧
    bufMax = 4096 ∧ readySignalOffset = 4090 := ⟨rfl, rfl, rfl, rfl, rfl⟩

private theorem ready_signal : readySignal = [82, 69, 65, 68, 89] := rfl

private theorem ready_log : readyLog =
    blockLog readyAddr (readySignal.take 4) ++ [(readyAddr + 4, 89), (readyAddr + 5, 0)] := rfl

/-- The last letter of READY, which is written last. -/
theorem letter_of_ready {mem : Memory} (ready : mem.fetch readyAddr 5 = readySignal) :
    mem (readyAddr + 4) = 89 :=
  (Memory.fetch_eq_iff.mp ready).2 4 (Nat.lt_succ_self 4)

theorem clean_of_all {text : List UInt8} (all : text.all (· ≠ 0) = true) :
    ∀ byte ∈ text, byte ≠ 0 := by simpa using all

/-- The areas of the protocol while the guest writes an output of some length
and its NUL. -/
def protocolAreas (length : Nat) : List Span :=
  [⟨entropyDivergenceCtrlPhys, entropyDivergenceCtrlPhys + 1⟩,
    ⟨entropyBufPhys, entropyBufPhys + entropySize⟩, ⟨cmdBufPhys, cmdBufPhys + bufMax⟩,
    ⟨outBufPhys, outBufPhys + (length + 1)⟩,
    ⟨outBufPhys + (bufMax - 8), outBufPhys + (bufMax - 8) + 2⟩, ⟨readyAddr, readyAddr + 6⟩]

private theorem span_disjoint_iff {left right : Span} (first : left.start < left.stop)
    (second : right.start < right.stop) :
    left.Disjoint right ↔ left.stop ≤ right.start ∨ right.stop ≤ left.start := by
  simp only [Span.Disjoint, Span.Has]
  constructor
  · intro apart
    by_contra meet
    exact apart (max left.start right.start) (by omega) (by omega)
  · intro apart a inside
    omega

/-- The areas are apart exactly as long as the output ends before the tail. -/
theorem areas_disjoint_iff (length : Nat) :
    (protocolAreas length).Pairwise Span.Disjoint ↔ length < bufMax - 8 := by
  simp only [protocolAreas, List.pairwise_cons, List.mem_cons, List.not_mem_nil, or_false,
    forall_eq_or_imp, forall_eq, false_implies, implies_true, List.Pairwise.nil, and_true]
  simp only [span_disjoint_iff, entropyDivergenceCtrlPhys, entropyBufPhys, entropySize, cmdBufPhys,
    outBufPhys, bufMax, readyAddr, readySignalOffset, Nat.lt_add_one, Nat.lt_add_of_pos_right,
    Nat.zero_lt_succ]
  omega

end Layout

section Injected

/-- The bytes the guest finds in the command buffer. -/
def command (code : String) : List UInt8 := ((codeBytes code).take (bufMax - 1)).takeWhile (· ≠ 0)

/-- All of the code arrives exactly when it has no NUL and leaves room for one. -/
theorem command_eq_iff (code : String) : command code = codeBytes code ↔
    (codeBytes code).length < bufMax ∧ ∀ byte ∈ codeBytes code, byte ≠ 0 := by
  have taken : ((codeBytes code).take (bufMax - 1)).length ≤ bufMax - 1 := List.length_take_le _ _
  constructor
  · intro whole
    have short : (command code).length ≤ ((codeBytes code).take (bufMax - 1)).length :=
      (List.takeWhile_prefix _).length_le
    rw [whole] at short
    refine ⟨by have := layout.2.2.2.1; omega, fun byte member => ?_⟩
    rw [← whole] at member
    simpa using List.mem_takeWhile_imp member
  · rintro ⟨short, clean⟩
    rw [command, List.take_of_length_le (by omega), List.takeWhile_eq_self_iff]
    simpa using clean

private theorem fill_inside {mem : Memory} {addr count a : Nat} {byte : UInt8} (low : addr ≤ a)
    (high : a < addr + count) : mem.fill addr count byte a = byte := by
  rw [Memory.fill, Memory.store_inside low (by simpa using high), List.getElem_replicate]

/-- The host hands over an output buffer of zeros. -/
theorem injected_output {mem : Memory} {divergence : Bool} {entropy : Entropy} {code : String}
    {a : Nat} (low : outBufPhys ≤ a) (high : a < outBufPhys + bufMax) :
    injectCommand mem divergence entropy code a = 0 := by
  obtain ⟨cmd, out, -, max, -⟩ := layout
  have short : ((codeBytes code).take (bufMax - 1)).length ≤ bufMax - 1 := List.length_take_le _ _
  rw [injectCommand, Memory.store_outside (.inr (by simp only [List.length_singleton]; omega)),
    Memory.store_outside (.inr (by omega)), fill_inside low high]

/-- The guest's scan of the command buffer finds the command. -/
theorem injected_command (mem : Memory) (divergence : Bool) (entropy : Entropy)
    (code : String) : (injectCommand mem divergence entropy code).cString cmdBufPhys (bufMax - 1) =
      command code := by
  have short : ((codeBytes code).take (bufMax - 1)).length ≤ bufMax - 1 := List.length_take_le _ _
  refine Memory.cString_of_stored ?_ short
  rw [injectCommand, Memory.store_store _ _ _ _ rfl, ← List.length_singleton (a := (0 : UInt8)),
    ← List.length_append]
  exact Memory.fetch_store_self _ cmdBufPhys ((codeBytes code).take (bufMax - 1) ++ [0])

end Injected

section Stores
variable {mem : Memory} {texts : List (List UInt8)} {write : ByteWrite} {a : Nat}

theorem clear_log (member : write ∈ clearLog) : write.2 = 0 ∧
    (cmdBufPhys ≤ write.1 ∧ write.1 < cmdBufPhys + bufMax ∨
      readyAddr ≤ write.1 ∧ write.1 < readyAddr + 6) := by
  rcases List.mem_append.mp member with command | ready
  · obtain ⟨low, high, value⟩ := of_mem_blockLog command
    exact ⟨List.eq_of_mem_replicate value, .inl ⟨low, by simpa using high⟩⟩
  · obtain ⟨low, high, value⟩ := of_mem_blockLog ready
    exact ⟨List.eq_of_mem_replicate value, .inr ⟨low, by simpa using high⟩⟩

theorem entropy_log (member : write ∈ entropyLog mem) :
    outBufPhys + (bufMax - 8) ≤ write.1 ∧ write.1 < outBufPhys + (bufMax - 8) + 2 := by
  unfold entropyLog at member
  split at member
  · obtain ⟨low, high, -⟩ := of_mem_blockLog member
    exact ⟨low, by simpa using high⟩
  · cases member

theorem text_log (member : write ∈ textLog texts) : ∃ text ∈ texts,
    outBufPhys ≤ write.1 ∧ write.1 < outBufPhys + (text.length + 1) := by
  obtain ⟨text, included, inside⟩ := List.mem_flatMap.mp member
  obtain ⟨low, high, -⟩ := of_mem_blockLog inside
  exact ⟨text, included, low, by simpa using high⟩

theorem ready_stores (member : write ∈ readyLog) :
    readyAddr ≤ write.1 ∧ write.1 < readyAddr + 6 := by
  obtain ⟨low, high, -⟩ := of_mem_blockLog member
  exact ⟨low, by simpa [ready_signal] using high⟩

/-- Until READY is signalled, outputs that end before its bytes leave them zero. -/
private theorem answer_log_quiet (fits : ∀ text ∈ texts, text.length < readySignalOffset)
    (member : write ∈ answerLog mem texts) (above : readyAddr ≤ write.1) : write.2 = 0 := by
  obtain ⟨-, out, ready, max, offset⟩ := layout
  rcases List.mem_append.mp member with before | output
  · rcases List.mem_append.mp before with clear | entropy
    · exact (clear_log clear).1
    · have inside := entropy_log entropy
      omega
  · obtain ⟨text, included, -, high⟩ := text_log output
    have short := fits text included
    omega

/-- Everything the guest stores for a command lies in the areas of its longest
output. -/
theorem guest_stores (longest : Nat) (bound : ∀ text ∈ texts, text.length ≤ longest)
    (member : write ∈ answerLog mem texts ++ readyLog) : Covers (protocolAreas longest) write.1 := by
  simp only [protocolAreas, covers_cons, covers_nil, or_false, Span.Has]
  rcases List.mem_append.mp member with answer | ready
  · rcases List.mem_append.mp answer with before | output
    · rcases List.mem_append.mp before with clear | entropy
      · rcases (clear_log clear).2 with command | ready
        · exact .inr (.inr (.inl command))
        · exact .inr (.inr (.inr (.inr (.inr ready))))
      · exact .inr (.inr (.inr (.inr (.inl (entropy_log entropy)))))
    · obtain ⟨text, included, low, high⟩ := text_log output
      have short := bound text included
      exact .inr (.inr (.inr (.inl ⟨low, by omega⟩)))
  · exact .inr (.inr (.inr (.inr (.inr (ready_stores ready)))))

end Stores

section Running
variable {os : Userland} {vm : VmState InitState} {cmd : List UInt8} {done n a : Nat}

/-- Every store init makes for a command. -/
def commandLog (os : Userland) (vm : VmState InitState) (cmd : List UInt8) : List ByteWrite :=
  answerLog vm.memory (os.respond vm.vcpu.spawned cmd).1 ++ readyLog

/-- The VM once init has made the first `done` of them. -/
def during (os : Userland) (vm : VmState InitState) (cmd : List UInt8) (done : Nat) :
    VmState InitState :=
  { vm with
    memory := vm.memory.replay ((commandLog os vm cmd).take done)
    vcpu := ⟨(commandLog os vm cmd).drop done, vm.vcpu.spawned ++ (os.respond vm.vcpu.spawned cmd).2⟩ }

@[simp] theorem during_memorySize : (during os vm cmd done).memorySize = vm.memorySize := rfl

/-- Between two commands init has at most the NUL behind READY left to write. -/
def Idle (vm : VmState InitState) : Prop :=
  vm.vcpu.pending = [] ∨ vm.vcpu.pending = [(readyAddr + 5, 0)]

private theorem step_pending {write : ByteWrite} {rest : List ByteWrite}
    (pending : vm.vcpu.pending = write :: rest) : initStep os vm =
      { vm with memory := vm.memory.store write.1 [write.2], vcpu.pending := rest } := by
  rw [initStep, pending]

private theorem during_succ (more : done < (commandLog os vm cmd).length) :
    initStep os (during os vm cmd done) = during os vm cmd (done + 1) := by
  rw [step_pending (List.drop_eq_getElem_cons more)]
  simp only [during, List.take_succ_eq_append_getElem more, Memory.replay_append,
    Memory.replay_cons, Memory.replay_nil]

private theorem iterate_during (all : n ≤ (commandLog os vm cmd).length) :
    (initStep os)^[n] (during os vm cmd 0) = during os vm cmd n := by
  induction n with
  | zero => rfl
  | succ n ih => rw [Function.iterate_succ_apply', ih (by omega), during_succ (by omega)]

theorem step_idle (quiet : vm.vcpu.pending = [])
    (scan : vm.memory.cString cmdBufPhys (bufMax - 1) = []) : initStep os vm = vm := by
  rw [initStep, quiet]
  exact if_pos scan

private theorem step_command (quiet : vm.vcpu.pending = [])
    (scan : vm.memory.cString cmdBufPhys (bufMax - 1) = cmd) (given : cmd ≠ []) :
    initStep os vm = during os vm cmd 0 := by
  subst scan
  rw [initStep, quiet]
  refine (if_neg given).trans ?_
  simp only [during, List.take_zero, List.drop_zero, Memory.replay_nil, commandLog]

/-- A finished command has left the command buffer empty. -/
private theorem answered_scan : (vm.memory.replay (commandLog os vm cmd)).cString cmdBufPhys
    (bufMax - 1) = [] := by
  obtain ⟨low, out, ready, max, -⟩ := layout
  apply Memory.cString_eq_nil
  have cleared : vm.memory.replay (blockLog cmdBufPhys (List.replicate bufMax 0)) cmdBufPhys = 0 := by
    rw [Memory.replay_blockLog]
    exact fill_inside (Nat.le_refl _) (by omega)
  rw [commandLog, answerLog, clearLog, List.append_assoc, List.append_assoc, List.append_assoc,
    Memory.replay_append]
  refine (Memory.replay_untouched fun write member => ?_).trans cleared
  simp only [List.mem_append] at member
  rcases member with clear | entropy | output | signal
  · have inside := (of_mem_blockLog clear).1
    omega
  · have inside := entropy_log entropy
    omega
  · obtain ⟨_, -, above, -⟩ := text_log output
    omega
  · have inside := ready_stores signal
    omega

/-- From a look at a command on, every run of init is part of its log. -/
theorem iterate_command (quiet : vm.vcpu.pending = [])
    (scan : vm.memory.cString cmdBufPhys (bufMax - 1) = cmd) (given : cmd ≠ []) (n : Nat) :
    (initStep os)^[n + 1] vm = during os vm cmd (min n (commandLog os vm cmd).length) := by
  rw [Function.iterate_succ_apply, step_command quiet scan given]
  rcases Nat.le_total n (commandLog os vm cmd).length with part | beyond
  · rw [Nat.min_eq_left part, iterate_during part]
  · obtain ⟨extra, rfl⟩ : ∃ extra, n = extra + (commandLog os vm cmd).length :=
      ⟨n - (commandLog os vm cmd).length, by omega⟩
    rw [Nat.min_eq_right beyond, Function.iterate_add_apply, iterate_during (Nat.le_refl _)]
    apply Function.iterate_fixed
    apply step_idle
    · simp [during]
    · simpa [during] using answered_scan

/-- An idle VM with its last NUL written. -/
def settled (vm : VmState InitState) : VmState InitState := { vm with vcpu.pending := [] }

variable (os) in
theorem iterate_settled (idle : Idle vm) (clear : vm.memory (readyAddr + 5) = 0) :
    ∃ flush ≤ 1, (initStep os)^[flush] vm = settled vm := by
  rcases idle with quiet | last
  · refine ⟨0, Nat.zero_le _, ?_⟩
    simp only [Function.iterate_zero, id_eq, settled, ← quiet]
  · refine ⟨1, Nat.le_refl _, ?_⟩
    rw [Function.iterate_one, step_pending last]
    simp only [settled, Memory.store_same clear]

variable (os) in
/-- From an idle VM with a command in its buffer, init either has not looked yet
or has made some of the command's stores. -/
theorem iterate_idle (idle : Idle vm) (clear : vm.memory (readyAddr + 5) = 0)
    (scan : vm.memory.cString cmdBufPhys (bufMax - 1) = cmd) (given : cmd ≠ []) (n : Nat) :
    ((initStep os)^[n] vm).memory = vm.memory ∧ n ≤ 1 ∨
      ∃ k, k < n ∧ n ≤ k + 2 ∧ (initStep os)^[n] vm =
        during os (settled vm) cmd (min k (commandLog os (settled vm) cmd).length) := by
  obtain ⟨flush, few, flushed⟩ := iterate_settled os idle clear
  rcases Nat.lt_or_ge flush n with later | before
  · obtain ⟨k, rfl⟩ : ∃ k, n = k + 1 + flush := ⟨n - flush - 1, by omega⟩
    refine .inr ⟨k, by omega, by omega, ?_⟩
    rw [Function.iterate_add_apply, flushed]
    have emptied : (settled vm).vcpu.pending = [] := rfl
    have found : (settled vm).memory.cString cmdBufPhys (bufMax - 1) = cmd := scan
    exact iterate_command emptied found given k
  · refine .inl ⟨?_, by omega⟩
    obtain rfl | rfl : n = 0 ∨ n = flush := by omega
    · rfl
    · rw [flushed, settled]

variable (os) in
/-- With an empty command buffer the guest changes nothing. -/
theorem iterate_silent (idle : Idle vm) (clear : vm.memory (readyAddr + 5) = 0)
    (scan : vm.memory.cString cmdBufPhys (bufMax - 1) = []) (n : Nat) :
    ((initStep os)^[n] vm).memory = vm.memory := by
  obtain ⟨flush, few, flushed⟩ := iterate_settled os idle clear
  rcases Nat.le_total flush n with later | before
  · obtain ⟨k, rfl⟩ : ∃ k, n = k + flush := ⟨n - flush, by omega⟩
    have fixed : initStep os (settled vm) = settled vm := step_idle rfl scan
    rw [Function.iterate_add_apply, flushed, Function.iterate_fixed fixed]
    rfl
  · obtain rfl | rfl : n = 0 ∨ n = flush := by omega
    · rfl
    · rw [flushed, settled]

end Running

section Signalling
variable {os : Userland} {vm : VmState InitState} {cmd : List UInt8} {done a : Nat}

/-- Every string the command leaves in the output buffer ends before READY. -/
def Fits (os : Userland) (vm : VmState InitState) (cmd : List UInt8) : Prop :=
  ∀ text ∈ (os.respond vm.vcpu.spawned cmd).1, text.length < readySignalOffset

instance (os : Userland) (vm : VmState InitState) (cmd : List UInt8) : Decidable (Fits os vm cmd) :=
  inferInstanceAs (Decidable (∀ text ∈ (os.respond vm.vcpu.spawned cmd).1, _))

/-- The stores of a command up to READY. -/
def answered (os : Userland) (vm : VmState InitState) (cmd : List UInt8) : List ByteWrite :=
  answerLog vm.memory (os.respond vm.vcpu.spawned cmd).1

theorem length_commandLog :
    (commandLog os vm cmd).length = (answered os vm cmd).length + 6 := by
  simp [commandLog, answered, readyLog, ready_signal]

/-- READY is only to be seen once the whole answer is written. -/
theorem answered_of_ready (fits : Fits os vm cmd) (clear : vm.memory (readyAddr + 4) = 0)
    (ready : (during os vm cmd done).memory.fetch readyAddr 5 = readySignal) :
    (answered os vm cmd).length + 5 ≤ done := by
  have split : commandLog os vm cmd = (answered os vm cmd ++ blockLog readyAddr (readySignal.take 4)) ++
      [(readyAddr + 4, 89), (readyAddr + 5, 0)] := by
    rw [commandLog, ready_log, List.append_assoc, answered]
  have raised := letter_of_ready ready
  have quiet : ∀ write ∈ answered os vm cmd ++ blockLog readyAddr (readySignal.take 4),
      write.1 = readyAddr + 4 → write.2 = 0 := by
    intro write member here
    rcases List.mem_append.mp member with answer | signal
    · exact answer_log_quiet fits answer (by omega)
    · obtain ⟨-, high, -⟩ := of_mem_blockLog signal
      simp only [ready_signal, List.take_succ_cons, List.take_zero, List.length_cons,
        List.length_nil] at high
      omega
  rw [during, split] at raised
  have written := Memory.length_lt_of_flag quiet clear (ne_of_eq_of_ne raised (by decide))
  rw [List.length_append, length_blockLog] at written
  exact written

/-- From then on the answer stays. -/
private theorem during_answered (enough : (answered os vm cmd).length ≤ done) (below : a < readyAddr) :
    (during os vm cmd done).memory a = vm.memory.replay (answered os vm cmd) a := by
  obtain ⟨extra, rfl⟩ := Nat.exists_eq_add_of_le enough
  have split : (commandLog os vm cmd).take ((answered os vm cmd).length + extra) =
      answered os vm cmd ++ readyLog.take extra := List.take_length_add_append _
  simp only [during, split, Memory.replay_append]
  refine Memory.replay_untouched fun write member => ?_
  have inside := ready_stores (List.mem_of_mem_take member)
  omega

/-- The finished command has signalled READY. -/
theorem during_ready :
    (during os vm cmd (commandLog os vm cmd).length).memory.fetch readyAddr 5 = readySignal := by
  have stored : (during os vm cmd (commandLog os vm cmd).length).memory =
      (vm.memory.replay (answered os vm cmd)).store readyAddr (readySignal ++ [0]) := by
    simp only [during, List.take_length, commandLog, answered, Memory.replay_append, readyLog,
      Memory.replay_blockLog]
  rw [stored]
  exact Memory.fetch_store_prefix (show 5 ≤ (readySignal ++ [0]).length from Nat.le_succ 5)

theorem during_idle (enough : (answered os vm cmd).length + 5 ≤ done) :
    Idle (during os vm cmd done) := by
  obtain ⟨extra, rfl⟩ := Nat.exists_eq_add_of_le enough
  have pending : (during os vm cmd ((answered os vm cmd).length + 5 + extra)).vcpu.pending =
      ([(readyAddr + 5, 0)] : List ByteWrite).drop extra := by
    simp only [during]
    rw [Nat.add_assoc, commandLog, answered, List.drop_length_add_append, ← List.drop_drop]
    rfl
  rw [Idle, pending]
  cases extra with
  | zero => exact .inr List.drop_zero
  | succ extra => exact .inl List.drop_nil

/-- What the host reads after the answer is the last string written. -/
theorem during_output {others : List (List UInt8)} {text : List UInt8}
    (texts : (os.respond vm.vcpu.spawned cmd).1 = others ++ [text])
    (enough : (answered os vm cmd).length ≤ done) (short : text.length < readySignalOffset)
    (clean : ∀ byte ∈ text, byte ≠ 0) :
    (during os vm cmd done).memory.cString outBufPhys bufMax = text := by
  obtain ⟨-, out, ready, max, offset⟩ := layout
  refine Memory.cString_of_stored_clean ?_ (by omega) clean
  have stored : vm.memory.replay (answered os vm cmd) = (vm.memory.replay (clearLog ++
      entropyLog vm.memory ++ textLog others)).store outBufPhys (text ++ [0]) := by
    rw [answered, texts, answerLog, textLog, List.flatMap_append, List.flatMap_singleton,
      ← List.append_assoc, Memory.replay_append, Memory.replay_blockLog, textLog]
  have kept : (during os vm cmd done).memory.fetch outBufPhys (text.length + 1) =
      (vm.memory.replay (answered os vm cmd)).fetch outBufPhys (text.length + 1) :=
    Memory.fetch_congr fun i bound => during_answered enough (by omega)
  rw [kept, stored, ← List.length_singleton (a := (0 : UInt8)), ← List.length_append]
  exact Memory.fetch_store_self _ outBufPhys (text ++ [0])

/-- An output that reaches READY is read with its last bytes overwritten. -/
theorem during_overrun {text : List UInt8} (texts : (os.respond vm.vcpu.spawned cmd).1 = [text])
    (long : readySignalOffset ≤ text.length) (clean : ∀ byte ∈ text, byte ≠ 0) :
    (during os vm cmd (commandLog os vm cmd).length).memory.cString outBufPhys bufMax =
      text.take readySignalOffset ++ readySignal := by
  have length : (text.take readySignalOffset ++ readySignal).length = readySignalOffset + 5 := by
    rw [List.length_append, List.length_take_of_le long]
    rfl
  have stored : (during os vm cmd (commandLog os vm cmd).length).memory = ((vm.memory.replay
      (clearLog ++ entropyLog vm.memory)).store outBufPhys (text ++ [0])).store readyAddr
        (readySignal ++ [0]) := by
    simp only [during, List.take_length, commandLog, texts, answerLog, textLog,
      List.flatMap_singleton, Memory.replay_append, readyLog, Memory.replay_blockLog]
  have fits : readySignalOffset + 5 ≤ bufMax := by simp only [readySignalOffset, bufMax]; omega
  refine Memory.cString_of_stored_clean ?_ (length.trans_le fits) fun byte member => ?_
  · have front : ((vm.memory.replay (clearLog ++ entropyLog vm.memory)).store outBufPhys
        (text ++ [0])).fetch outBufPhys readySignalOffset = (text ++ [0]).take readySignalOffset :=
      Memory.fetch_store_prefix (by rw [List.length_append]; omega)
    rw [length, stored, show readySignalOffset + 5 + 1 = readySignalOffset + 6 from rfl,
      Memory.fetch_add, Memory.fetch_store_disjoint (a := readyAddr) (.inl (Nat.le_refl _)), front,
      List.take_append_of_le_length long, List.append_assoc]
    exact congrArg _ (Memory.fetch_store_self _ readyAddr (readySignal ++ [0]))
  · rcases List.mem_append.mp member with kept | signal
    · exact clean byte (List.mem_of_mem_take kept)
    · exact clean_of_all (show readySignal.all (· ≠ 0) = true from rfl) byte signal

end Signalling
end TinyMachine
