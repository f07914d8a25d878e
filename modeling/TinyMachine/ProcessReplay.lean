import TinyMachine.Lib.Text
import TinyMachine.Vm

/-! Replaying recorded cases: the output of a run is told apart again from the
entropy that `run_code` wrote behind it. -/
namespace TinyMachine
open Lib

/-- `process_replay::ReplayError`, without the errors of files. -/
inductive ReplayError where
  | setup (message : String)
  | exec (message : String)
  | mismatch (code expected actual : String)
  deriving DecidableEq, Repr

namespace ProcessReplay

def mark : String := "ENTROPY:"

def marker : List Char := mark.toList

/-- What `run_code` builds from an output and the bytes behind it. -/
def withEntropy (output : String) (e₀ e₁ e₂ e₃ : UInt8) : String :=
  output ++ mark ++ hexByte e₀ ++ hexByte e₁ ++ hexByte e₂ ++ hexByte e₃

/-- The text before the first marker, if there is any. -/
def stripEntropy (outWithEntropy : String) : String :=
  match Text.beforeFirst marker outWithEntropy.toList with
  | some output => String.ofList output
  | none => outWithEntropy

/-- `kvm` and `forked` are what `Kvm::new` and the engine's `fork` return. -/
def exec (kvm : Except String Unit) (forked : Except ForkError (VmState κ)) (entropy : Entropy) (guest : Guest κ)
    (code : String) : Except ReplayError String := do
  kvm.mapError fun e => .setup s!"KVM clone failed: {e}"
  let vm ← forked.mapError fun e => .exec s!"fork failed: {e.display}"
  let outWithEntropy ← (vm.runCode entropy guest code).1.mapError fun e => .exec s!"run_code failed: {e}"
  return stripEntropy outWithEntropy

def assertExec (kvm : Except String Unit) (forked : Except ForkError (VmState κ)) (entropy : Entropy)
    (guest : Guest κ) (code expected : String) : Except ReplayError Unit := do
  let actual ← exec kvm forked entropy guest code
  if actual ≠ expected then throw (.mismatch code expected actual)

section Runs
variable {κ : Type} {vm after : VmState κ} {entropy : Entropy} {guest : Guest κ} {code out : String}

/-- The four bytes `run_code` looks at. -/
def entropyTail (memory : Memory) (i : Nat) : UInt8 := memory (outBufPhys + (bufMax - 8) + i)

private theorem append_entropySuffix (output : String) (memory : Memory) :
    output ++ entropySuffix memory =
      withEntropy output (entropyTail memory 0) (entropyTail memory 1) (entropyTail memory 2) (entropyTail memory 3) := by
  have four : memory.fetch (outBufPhys + (bufMax - 8)) 4 =
      [entropyTail memory 0, entropyTail memory 1, entropyTail memory 2, entropyTail memory 3] := rfl
  rw [entropySuffix, four, withEntropy, ← show mark = "ENTROPY:" from rfl]
  simp [String.join, String.append_assoc]

/-- The run decides the output alone; what follows it are four bytes. -/
theorem runCode_builds (ran : vm.runCode entropy guest code = (.ok out, after)) :
    out = withEntropy (readVmOutput after.memory) (entropyTail after.memory 0) (entropyTail after.memory 1)
      (entropyTail after.memory 2) (entropyTail after.memory 3) := by
  rw [VmState.runCode] at ran
  split at ran
  · simp at ran
  · split at ran
    · simp at ran
    · simp only [Prod.mk.injEq, Except.ok.injEq] at ran
      obtain ⟨built, rfl⟩ := ran
      rw [← built, append_entropySuffix]

/-- What a replay returns for a run that succeeds. -/
theorem exec_of_run (ran : vm.runCode entropy guest code = (.ok out, after)) :
    exec (.ok ()) (.ok vm) entropy guest code = .ok (stripEntropy out) := by
  have returned : (vm.runCode entropy guest code).1 = .ok out := congrArg Prod.fst ran
  simp only [exec, Except.mapError, bind, Except.bind, pure, Except.pure, returned]

/-- A case passes when the output up to the first marker is the expected one. -/
theorem assertExec_ok_iff (ran : vm.runCode entropy guest code = (.ok out, after)) (expected : String) :
    assertExec (.ok ()) (.ok vm) entropy guest code expected = .ok () ↔ stripEntropy out = expected := by
  rw [assertExec, exec_of_run ran]
  by_cases same : stripEntropy out = expected
  · simp [same, bind, Except.bind, pure, Except.pure]
  · simp [same, bind, Except.bind, throw, throwThe, MonadExceptOf.throw]

end Runs

private theorem marker_eq : marker = 'E' :: ['N', 'T', 'R', 'O', 'P', 'Y', ':'] := by decide

theorem toList_withEntropy (output : String) (e₀ e₁ e₂ e₃ : UInt8) :
    (withEntropy output e₀ e₁ e₂ e₃).toList =
      output.toList ++ (marker ++ (hexByte e₀ ++ hexByte e₁ ++ hexByte e₂ ++ hexByte e₃).toList) := by
  simp only [withEntropy, marker, String.toList_append, List.append_assoc]

/-- The output is given back as it was exactly when it has no marker in it. -/
theorem stripEntropy_withEntropy_iff (output : String) (e₀ e₁ e₂ e₃ : UInt8) :
    stripEntropy (withEntropy output e₀ e₁ e₂ e₃) = output ↔ ¬ marker <:+: output.toList := by
  have longer : withEntropy output e₀ e₁ e₂ e₃ ≠ output := fun same => by
    have lengths := congrArg List.length (congrArg String.toList same)
    rw [toList_withEntropy, marker_eq] at lengths
    simp at lengths
  rw [stripEntropy, toList_withEntropy, marker_eq, ← Text.beforeFirst_append_iff (by decide)]
  split
  · rename_i found
    rw [found, Option.some.injEq, ← String.toList_inj, String.toList_ofList]
  · rename_i missing
    exact iff_of_false longer (missing ▸ Option.some_ne_none _ ∘ Eq.symm)

/-- A program that prints the marker is taken to have printed nothing. -/
theorem printed_marker_is_cut : stripEntropy (withEntropy "ENTROPY:" 0x4a 0x01 0 0) ≠ "ENTROPY:" := by
  have cut : Text.beforeFirst marker ("ENTROPY:".toList ++
      (marker ++ (hexByte 0x4a ++ hexByte 0x01 ++ hexByte 0 ++ hexByte 0).toList)) = some [] := by
    rw [marker_eq]
    decide
  rw [stripEntropy, toList_withEntropy, cut]
  decide

end ProcessReplay
end TinyMachine
