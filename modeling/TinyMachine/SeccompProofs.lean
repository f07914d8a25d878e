import Mathlib.Tactic.Common
import TinyMachine.Seccomp

/-! What the generated filters decide. The preamble separates foreign
architectures correctly. Behind it the chain of comparisons of `build_bpf`
has no jump beyond the `ALLOW` at its end, and the chain of the inline copies
tests only every other entry, so the meaning of a filter is read off the
places its jumps can reach. -/
namespace TinyMachine.Seccomp
open TinyMachine.Lib

@[simp] theorem ldAbs_eq (offset : UInt32) : ldAbs offset = ⟨ClassicBpf.ldWAbs, 0, 0, offset⟩ := rfl
@[simp] theorem jeq_eq (k : UInt32) (jt jf : UInt8) : jeq k jt jf = ⟨ClassicBpf.jmpJeqK, jt, jf, k⟩ := rfl
@[simp] theorem ret_eq (k : UInt32) : ret k = ⟨ClassicBpf.retK, 0, 0, k⟩ := rfl

@[simp] theorem load_arch (data : SeccompData) : data.load seccompDataArchOff = some data.arch := rfl
@[simp] theorem load_nr (data : SeccompData) : data.load seccompDataNrOff = some data.nr := rfl

/-- Both builders open with the same four instructions: a foreign
architecture is killed, any other call reaches the checks with its number
loaded. -/
theorem preamble_action (body : List BpfInsn) (data : SeccompData) :
    filterAction ([ldAbs seccompDataArchOff, jeq auditArch 1 0, ret seccompRetKillProcess,
      ldAbs seccompDataNrOff] ++ body) data =
      if data.arch ≠ auditArch then some seccompRetKillProcess
      else ClassicBpf.run data.load body 0 data.nr := by
  by_cases native : data.arch = auditArch <;>
    simp [filterAction, native]

/-- The jump distance in the wrapping build, and in a checked one that does
not panic: the instructions between the check and `ALLOW`, in eight bits. -/
theorem jumpToAllow_distance {mode : Overflow} {allowPos : UInt16} {i : Nat} (distance : Nat)
    {jt : UInt8}
    (placed : allowPos.toNat = (4 + i + 1 + distance) % 2 ^ 16)
    (built : jumpToAllow mode allowPos i = some jt) : jt.toNat = distance % 256 := by
  simp only [jumpToAllow, Overflow.add16, Overflow.sub16, Option.bind_eq_bind,
    Option.bind_eq_some_iff, Overflow.fit_eq_some, Option.pure_def, Option.some.injEq] at built
  obtain ⟨_, ⟨_, rfl⟩, _, ⟨_, rfl⟩, _, ⟨_, rfl⟩, rfl⟩ := built
  simp only [UInt16.toNat_toUInt8, UInt16.toNat_sub, UInt16.toNat_add, UInt16.toNat_ofNat',
    placed, UInt16.reduceToNat]
  omega

/-- A check can be placed when the overflow is not checked, or when the
positions up to `ALLOW` fit in sixteen bits. -/
theorem jumpToAllow_succeeds (mode : Overflow) {allowPos : UInt16} (i distance : Nat)
    (placed : allowPos.toNat = (4 + i + 1 + distance) % 2 ^ 16)
    (room : mode = .wrapping ∨ 4 + i + 1 + distance < 2 ^ 16) :
    ∃ jt, jumpToAllow mode allowPos i = some jt := by
  rcases room with rfl | room
  · exact ⟨_, by simp [jumpToAllow, Overflow.add16, Overflow.sub16]; rfl⟩
  · have index : (UInt16.ofNat i).toNat = i := by simp; omega
    have current : (4 + UInt16.ofNat i).toNat = 4 + i := by
      rw [UInt16.toNat_add, index]; simp; omega
    have gap : (allowPos - (4 + UInt16.ofNat i)).toNat = distance + 1 := by
      rw [UInt16.toNat_sub, current, placed]; omega
    refine ⟨(allowPos - (4 + UInt16.ofNat i) - 1).toUInt8, ?_⟩
    unfold jumpToAllow Overflow.add16 Overflow.sub16
    rw [Overflow.fit_of_fits (by rw [index]; simp; omega)]
    simp only [Option.bind_eq_bind, Option.bind_some]
    rw [Overflow.fit_of_fits (by rw [current, placed]; omega)]
    simp only [Option.bind_some]
    rw [Overflow.fit_of_fits (by rw [gap]; simp)]
    rfl

/-- The checks of `build_bpf` never jump over the `ALLOW` behind them. -/
theorem allowlistChecks_contained {mode : Overflow} {allowPos : UInt16} {numChecks : Nat}
    (placed : allowPos.toNat = (4 + numChecks) % 2 ^ 16)
    (rest : List Int64) (i : Nat) (position : i + rest.length = numChecks) (checks : List BpfInsn)
    (built : allowlistChecks mode allowPos numChecks rest i = some checks) :
    checks.length = rest.length ∧ ClassicBpf.Contained checks := by
  induction rest generalizing i checks with
  | nil =>
    cases built
    exact ⟨rfl, trivial⟩
  | cons sysno rest ih =>
    rw [List.length_cons] at position
    simp only [allowlistChecks, Option.bind_eq_bind, Option.bind_eq_some_iff, Option.pure_def,
      Option.some.injEq] at built
    obtain ⟨jt, jump, tail, builtTail, rfl⟩ := built
    obtain ⟨length, contained⟩ := ih (i + 1) (by omega) tail builtTail
    have reach := jumpToAllow_distance rest.length (by rw [placed]; omega) jump
    refine ⟨by simp [length], rfl, ?_, ?_, contained⟩
    · rw [jeq_eq, length, reach]
      exact Nat.mod_le ..
    · -- Only the last check falls through, and there nothing is left to jump over.
      rw [jeq_eq, length]
      split
      · exact Nat.zero_le _
      · simp only [UInt8.reduceToNat]
        omega

theorem allowlistChecks_succeeds {mode : Overflow} {allowPos : UInt16} {numChecks : Nat}
    (placed : allowPos.toNat = (4 + numChecks) % 2 ^ 16)
    (room : mode = .wrapping ∨ 4 + numChecks < 2 ^ 16)
    (rest : List Int64) (i : Nat) (position : i + rest.length = numChecks) :
    ∃ checks, allowlistChecks mode allowPos numChecks rest i = some checks := by
  induction rest generalizing i with
  | nil => exact ⟨[], rfl⟩
  | cons sysno rest ih =>
    rw [List.length_cons] at position
    obtain ⟨tail, builtTail⟩ := ih (i + 1) (by omega)
    obtain ⟨jt, jump⟩ := jumpToAllow_succeeds mode i rest.length (by rw [placed]; omega)
      (room.imp_right fun fits => by omega)
    exact ⟨_, by simp only [allowlistChecks, jump, builtTail]; rfl⟩

/-- A checked build that got through check `i` had `ALLOW` strictly behind it. -/
theorem jumpToAllow_checked {allowPos : UInt16} {jt : UInt8}
    (built : jumpToAllow .checked allowPos i = some jt) : 4 + i % 2 ^ 16 < allowPos.toNat := by
  simp only [jumpToAllow, Overflow.add16, Overflow.sub16, Option.bind_eq_bind,
    Option.bind_eq_some_iff, Overflow.fit_eq_some, reduceCtorEq, or_false, Option.pure_def,
    Option.some.injEq] at built
  obtain ⟨_, ⟨fits, rfl⟩, _, ⟨below, rfl⟩, _, ⟨one, rfl⟩, -⟩ := built
  simp only [UInt16.toNat_sub, UInt16.toNat_add, UInt16.toNat_ofNat', UInt16.reduceToNat]
    at fits below one
  omega

theorem allowlistChecks_jumps {mode : Overflow} {allowPos : UInt16} {numChecks : Nat}
    (rest : List Int64) (i : Nat) (checks : List BpfInsn)
    (built : allowlistChecks mode allowPos numChecks rest i = some checks) :
    ∀ j < rest.length, ∃ jt, jumpToAllow mode allowPos (i + j) = some jt := by
  induction rest generalizing i checks with
  | nil => intro j bound; simp at bound
  | cons sysno rest ih =>
    simp only [allowlistChecks, Option.bind_eq_bind, Option.bind_eq_some_iff, Option.pure_def,
      Option.some.injEq] at built
    obtain ⟨jt, jump, tail, builtTail, -⟩ := built
    intro j bound
    cases j with
    | zero => exact ⟨jt, jump⟩
    | succ j =>
      rw [show i + (j + 1) = i + 1 + j by omega]
      exact ih (i + 1) tail builtTail j (by simpa using bound)

/-- A checked build panics on a list whose `ALLOW` lies beyond the sixteen
bits of an instruction index, a wrapping build accepts every list. -/
theorem buildBpf_isSome_iff (mode : Overflow) (allowlist : List Int64) :
    (buildBpf mode allowlist).isSome ↔ mode = .wrapping ∨ allowlist.length ≤ 65531 := by
  constructor
  · intro built
    rcases mode with _ | _
    · right
      simp only [buildBpf, Option.isSome_iff_exists, Option.bind_eq_bind, Option.bind_eq_some_iff,
        Overflow.add16, Overflow.fit_eq_some, reduceCtorEq, or_false] at built
      obtain ⟨_, allowPos, ⟨fits, rfl⟩, checks, builtChecks, -⟩ := built
      simp only [UInt16.toNat_ofNat', UInt16.reduceToNat] at fits
      have behind : ∀ i < allowlist.length, i % 2 ^ 16 < allowlist.length % 2 ^ 16 := by
        intro i bound
        obtain ⟨jt, jump⟩ := allowlistChecks_jumps _ _ _ builtChecks i bound
        have strict := jumpToAllow_checked jump
        simp only [UInt16.toNat_add, UInt16.toNat_ofNat', UInt16.reduceToNat] at strict
        omega
      by_contra long
      have wrapped := behind (allowlist.length % 2 ^ 16) (by omega)
      omega
    · exact .inl rfl
  · intro room
    have allowPos : ∃ allowPos, mode.add16 4 (UInt16.ofNat allowlist.length) = some allowPos ∧
        allowPos.toNat = (4 + allowlist.length) % 2 ^ 16 := by
      refine ⟨4 + UInt16.ofNat allowlist.length, ?_, by simp⟩
      simp only [Overflow.add16, Overflow.fit_eq_some, and_true, UInt16.toNat_ofNat',
        UInt16.reduceToNat]
      exact room.symm.imp_left fun short => by omega
    obtain ⟨allowPos, position, placed⟩ := allowPos
    obtain ⟨checks, builtChecks⟩ := allowlistChecks_succeeds placed
      (room.imp_right fun short => by omega) allowlist 0 (Nat.zero_add _)
    simp [buildBpf, position, builtChecks]

/-- Whatever the list, a call of the native architecture is allowed. -/
theorem buildBpf_action {mode : Overflow} {allowlist : List Int64} {insns : List BpfInsn}
    {prog : BpfProg} (built : buildBpf mode allowlist = some (insns, prog)) (data : SeccompData) :
    filterAction insns data =
      some (if data.arch ≠ auditArch then seccompRetKillProcess else seccompRetAllow) := by
  simp only [buildBpf, Option.bind_eq_bind, Option.bind_eq_some_iff, Option.pure_def,
    Option.some.injEq, Prod.mk.injEq, Overflow.add16, Overflow.fit_eq_some] at built
  obtain ⟨_, ⟨-, rfl⟩, checks, builtChecks, rfl, -⟩ := built
  obtain ⟨-, contained⟩ := allowlistChecks_contained (by simp) _ _ (Nat.zero_add _) _ builtChecks
  rw [List.append_assoc, preamble_action]
  split
  · rfl
  · rw [ClassicBpf.run_contained checks _ contained 0 (Nat.zero_le _), ret_eq, ClassicBpf.run_ret]

/-- The entries an inline filter compares with: each comparison that misses
jumps over the next one. -/
def everyOther : List α → List α
  | [] => []
  | [first] => [first]
  | first :: _ :: rest => first :: everyOther rest

/-- The inline chain, for lists whose jump distances fit in eight bits. -/
theorem inlineChecks_run (mode : Overflow) {allowPos : UInt16} {numChecks : Nat}
    (placed : allowPos.toNat = (5 + numChecks) % 2 ^ 16) (short : numChecks ≤ 255)
    (rest : List Int64) (i : Nat) (position : i + rest.length = numChecks) :
    ∃ checks, inlineChecks mode allowPos rest i = some checks ∧ checks.length = rest.length ∧
      ∀ load deny allow nr, ClassicBpf.run load (checks ++ [ret deny, ret allow]) 0 nr =
        some (if nr ∈ (everyOther rest).map sysnoWord then allow
          else if rest.length % 2 = 0 then deny else allow) := by
  induction rest using everyOther.induct generalizing i with
  | case1 => exact ⟨[], rfl, rfl, by simp [everyOther]⟩
  | case2 sysno =>
    rw [List.length_singleton] at position
    obtain ⟨jt, jump⟩ := jumpToAllow_succeeds mode i 1 (by rw [placed]; omega) (.inr (by omega))
    have reach := jumpToAllow_distance 1 (by rw [placed]; omega) jump
    refine ⟨[jeq (sysnoWord sysno) jt 1], by simp [inlineChecks, jump], rfl, ?_⟩
    intro load deny allow nr
    by_cases hit : nr = sysnoWord sysno <;> simp [everyOther, hit, reach]
  | case3 first second rest ih =>
    simp only [List.length_cons] at position
    obtain ⟨checks, built, length, meaning⟩ := ih (i + 2) (by omega)
    obtain ⟨jt₁, jump₁⟩ := jumpToAllow_succeeds mode i (rest.length + 2) (by rw [placed]; omega) (.inr (by omega))
    obtain ⟨jt₂, jump₂⟩ := jumpToAllow_succeeds mode (i + 1) (rest.length + 1) (by rw [placed]; omega) (.inr (by omega))
    have reach := jumpToAllow_distance (rest.length + 2) (by rw [placed]; omega) jump₁
    refine ⟨jeq (sysnoWord first) jt₁ 1 :: jeq (sysnoWord second) jt₂ 1 :: checks,
      by simp [inlineChecks, jump₁, jump₂, built], by simp [length], ?_⟩
    intro load deny allow nr
    have parity : (rest.length + 1 + 1) % 2 = rest.length % 2 := by omega
    by_cases hit : nr = sysnoWord first
    · -- A hit jumps over the remaining checks and the denial.
      have distance : jt₁.toNat = checks.length + 1 + 1 := by rw [reach, length]; omega
      have landed := @ClassicBpf.run_beyond load checks [ret deny, ret allow] 1 nr
      simp only [everyOther, List.map_cons, hit, List.mem_cons, true_or, ↓reduceIte,
        List.cons_append, jeq_eq, ClassicBpf.run_jeq, distance]
      rw [ClassicBpf.run_skip, ← hit, landed]
      simp
    · simp only [List.cons_append, jeq_eq, ClassicBpf.run_jeq, hit, ↓reduceIte, UInt8.reduceToNat,
        ClassicBpf.run_skip, meaning, everyOther, List.map_cons, List.mem_cons, false_or,
        List.length_cons, parity]

/-- What an inline filter does, for lists of at most 255 calls. -/
theorem inlineBpf_action (mode : Overflow) (allowlist : List Int64)
    (short : allowlist.length ≤ 255) :
    ∃ insns, inlineBpf mode allowlist = some insns ∧ ∀ data, filterAction insns data =
      some (if data.arch ≠ auditArch then seccompRetKillProcess
        else if data.nr ∈ (everyOther allowlist).map sysnoWord then seccompRetAllow
        else if allowlist.length % 2 = 0 then seccompRetErrno ||| eacces else seccompRetAllow) := by
  have placed : (UInt16.ofNat (3 + 1 + allowlist.length + 2 - 1)).toNat =
      (5 + allowlist.length) % 2 ^ 16 := by
    rw [UInt16.toNat_ofNat']; congr 1; omega
  obtain ⟨checks, built, -, meaning⟩ := inlineChecks_run mode placed short
    allowlist 0 (Nat.zero_add _)
  refine ⟨_, by simp only [inlineBpf, built]; rfl, ?_⟩
  intro data
  rw [List.append_assoc, preamble_action]
  split
  · rfl
  · exact meaning _ _ _ _

/-- Over a list of odd length the last comparison that is reached misses into
`ALLOW`, so nothing is ever denied. -/
theorem inlineBpf_odd_action (mode : Overflow) (allowlist : List Int64)
    (short : allowlist.length ≤ 255) (odd : allowlist.length % 2 = 1) :
    ∃ insns, inlineBpf mode allowlist = some insns ∧ ∀ data, filterAction insns data =
      some (if data.arch ≠ auditArch then seccompRetKillProcess else seccompRetAllow) := by
  obtain ⟨insns, built, action⟩ := inlineBpf_action mode allowlist short
  refine ⟨insns, built, fun data => ?_⟩
  rw [action]
  simp [odd]

/-- A filter that allows every native call follows its list exactly on the
calls the list names and on foreign architectures. -/
theorem allow_all_follows_iff {insns : List BpfInsn} (allowlist : List Int64) (data : SeccompData)
    (action : filterAction insns data =
      some (if data.arch ≠ auditArch then seccompRetKillProcess else seccompRetAllow)) :
    Implements (some insns) allowlist data ↔
      data.arch ≠ auditArch ∨ Listed allowlist data.nr := by
  have differ : seccompRetAllow ≠ seccompRetErrno ||| eacces := by decide
  simp only [Implements, Option.bind_some, action, verdict]
  by_cases native : data.arch = auditArch <;> by_cases listed : Listed allowlist data.nr <;>
    simp [native, listed, differ]

/-- When the filters follow their lists: the program of `build_bpf` where it
is built at all, and the two inline copies for their own lists, exactly on
foreign architectures and on listed calls. No unlisted call is ever denied. -/
theorem seccomp_filters_follow_lists_iff (mode : Overflow) :
    (∀ allowlist data, Implements ((buildBpf mode allowlist).map Prod.fst) allowlist data ↔
      (mode = .wrapping ∨ allowlist.length ≤ 65531) ∧
        (data.arch ≠ auditArch ∨ Listed allowlist data.nr)) ∧
    (∀ data, Implements (hostGpuBpf mode) hostGpuAllowlist data ↔
      data.arch ≠ auditArch ∨ Listed hostGpuAllowlist data.nr) ∧
    (∀ data, Implements (qemuBpf mode) qemuAllowlist data ↔
      data.arch ≠ auditArch ∨ Listed qemuAllowlist data.nr) := by
  refine ⟨fun allowlist data => ?_, fun data => ?_, fun data => ?_⟩
  · rw [← buildBpf_isSome_iff]
    cases built : buildBpf mode allowlist with
    | none => simp [Implements]
    | some pair =>
      rw [Option.map_some, allow_all_follows_iff allowlist data (buildBpf_action built data)]
      simp
  · obtain ⟨insns, built, action⟩ := inlineBpf_odd_action mode hostGpuAllowlist
      (by decide) (by decide)
    rw [hostGpuBpf, built]
    exact allow_all_follows_iff _ data (action data)
  · obtain ⟨insns, built, action⟩ := inlineBpf_odd_action mode qemuAllowlist
      (by decide) (by decide)
    rw [qemuBpf, built]
    exact allow_all_follows_iff _ data (action data)

/-- `socket(2)` under the filter of a list that only names `read(2)`. -/
theorem unlisted_call_is_allowed :
    ¬ ∀ mode allowlist data,
      Implements ((buildBpf mode allowlist).map Prod.fst) allowlist data := by
  intro law
  have socket := law .wrapping [0] ⟨41, auditArch⟩
  revert socket
  decide

end TinyMachine.Seccomp
