import TinyMachine.BootNoClobber
import TinyMachine.Lib.ZeroTerminated

/-! The command line the kernel finds, by the pointers that boot leaves for it:
the configured one only with PVH, up to its first zero and the end of its
slot. -/
namespace TinyMachine.BootImage
open Lib Memory

/-- Where the kernel is told that its command line is: in `hvm_start_info`, or in
`boot_params`. -/
def cmdlinePtr (config : BootConfig) (mem : Memory) : Nat :=
  if config.pvhBoot then mem.readLE (pvhStartInfoAddr + 24) 8 else mem.readLE (bootParamsAddr + 0x228) 4

/-- The kernel is given this command line. -/
def GivenCmdline (config : BootConfig) (mem : Memory) (cmdline : String) : Prop :=
  HoldsString mem (cmdlinePtr config mem) (codeBytes cmdline)

section Placed
variable {config : BootConfig} {parts : Parts} {a : Nat}

/-- The pointer in `boot_params` is in front of the E820 table. -/
theorem cmdLinePtr_params (mem : Memory) :
    (bootParamsImage parts mem).readLE (bootParamsAddr + 0x228) 4 = pvhCmdlineAddr := by
  have beforeTable (table : Memory) :
      (writeE820 parts.entries table).readLE (bootParamsAddr + 0x228) 4 =
        table.readLE (bootParamsAddr + 0x228) 4 := by
    unfold writeE820
    rw [readLE_storeLE_disjoint (by decide)]
    have entries : (writeE820Entries parts.entries (bootParamsAddr + e820TableOffset)
        (table.storeLE (bootParamsAddr + 0x238) 4 0)).readLE (bootParamsAddr + 0x228) 4 =
          (table.storeLE (bootParamsAddr + 0x238) 4 0).readLE (bootParamsAddr + 0x228) 4 := by
      refine readLE_congr fun i bound => (e820Entries_write _ _).frame _ _ ?_
      simp only [covers_cons, covers_nil, or_false, Span.Has, e820TableOffset]
      omega
    rw [entries, readLE_storeLE_disjoint (by decide)]
  unfold bootParamsImage
  rw [beforeTable, writeFallbackCmdline, readLE_store_disjoint (by decide), readLE_storeLE_self]
  rfl

theorem startInfo_cmdline (info : Option (Nat × Nat)) (mem : Memory) :
    (writeStartInfo info mem).readLE (pvhStartInfoAddr + 24) 8 = pvhCmdlineAddr := by
  cases info with
  | none =>
    unfold writeStartInfo
    rw [readLE_storeLE_self]
    rfl
  | some placed =>
    unfold writeStartInfo
    iterate 4 rw [readLE_storeLE_disjoint (by decide)]
    rw [readLE_storeLE_self]
    rfl

theorem cmdlinePtr_bootImage : cmdlinePtr config (bootImage config parts) = pvhCmdlineAddr := by
  unfold cmdlinePtr
  split
  · next chosen =>
    have placed : (bootImage config parts).readLE (pvhStartInfoAddr + 24) 8 =
        (withPvhImage config parts).readLE (pvhStartInfoAddr + 24) 8 :=
      readLE_congr fun i bound => bootImage_low config parts (by unfold pvhStartInfoAddr gdtAddr; omega)
    rw [placed, withPvhImage, pvhImage, if_pos chosen, writePvhCmdline_eq, readLE_store_disjoint (.inl (by decide)),
      startInfo_cmdline]
  · next plain =>
    have placed : (bootImage config parts).readLE (bootParamsAddr + 0x228) 4 =
        (withPvhImage config parts).readLE (bootParamsAddr + 0x228) 4 :=
      readLE_congr fun i bound => bootImage_low config parts (by unfold bootParamsAddr gdtAddr; omega)
    rw [placed, withPvhImage, pvhImage, if_neg plain]
    exact cmdLinePtr_params _

end Placed

/-! ## What the kernel reads there -/

/-- With PVH the slot takes 255 bytes, and a zero is behind them. -/
theorem cmdlineBlock_text {config : BootConfig} {cmdline : String} (chosen : config.pvhBoot = true)
    (given : config.cmdline = some cmdline) :
    ∃ padding, (cmdlineBlock config).bytes = (codeBytes cmdline).take 255 ++ 0 :: padding := by
  have slot : (cmdlineBlock config).bytes = (pvhCmdline config.cmdline).take 255 ++
      List.replicate (256 - ((pvhCmdline config.cmdline).take 255).length) 0 := by
    rw [cmdlineBlock, if_pos chosen]
  have text : pvhCmdline config.cmdline = codeBytes cmdline ∨
      pvhCmdline config.cmdline = codeBytes cmdline ++ [0] := by
    rw [given]
    exact ite_eq_or_eq ..
  have room (bytes : List UInt8) : 256 - (bytes.take 255).length = 255 - (bytes.take 255).length + 1 := by
    rw [List.length_take]
    omega
  rw [slot, room, List.replicate_succ]
  rcases text with text | text
  · rw [text]
    exact ⟨_, rfl⟩
  · rw [text, List.take_append, List.append_assoc]
    by_cases fits : (codeBytes cmdline).length < 255
    · rw [List.take_of_length_le (l := [0]) (by simp; omega)]
      exact ⟨_, rfl⟩
    · rw [Nat.sub_eq_zero_of_le (Nat.not_lt.mp fits), List.take_zero]
      exact ⟨_, rfl⟩

/-- The kernel reads the configured text as far as its first zero and the end
of the slot with PVH, and the built-in one without. -/
theorem given_text {config : BootConfig} {parts : Parts} {cmdline : String} (given : config.cmdline = some cmdline) :
    HoldsString (bootImage config parts) (cmdlinePtr config (bootImage config parts))
      (if config.pvhBoot then upToZero ((codeBytes cmdline).take 255) else upToZero fallbackCmdline) := by
  have held : (bootImage config parts).fetch pvhCmdlineAddr (cmdlineBlock config).bytes.length =
      (cmdlineBlock config).bytes := cmdline_placed
  rw [cmdlinePtr_bootImage]
  split
  · next chosen =>
    obtain ⟨padding, text⟩ := cmdlineBlock_text chosen given
    obtain ⟨tail, split⟩ := upToZero_append_zero ((codeBytes cmdline).take 255) padding
    exact holdsString_of_fetch (held.trans (text.trans split)) (zero_notMem_upToZero _)
  · next plain =>
    have block : (cmdlineBlock config).bytes = upToZero fallbackCmdline ++ [0] := by
      rw [cmdlineBlock, if_neg plain]
      decide +kernel
    exact holdsString_of_fetch (held.trans block) (zero_notMem_upToZero _)

/-- What comes through: with PVH a text without zeros that fits, and without it
only the built-in text. -/
def ComesThrough (config : BootConfig) (cmdline : String) : Prop :=
  if config.pvhBoot then 0 ∉ codeBytes cmdline ∧ (codeBytes cmdline).length ≤ 255
  else codeBytes cmdline ++ [0] = fallbackCmdline

theorem upToZero_take_eq_self {bytes : List UInt8} {count : Nat} :
    upToZero (bytes.take count) = bytes ↔ 0 ∉ bytes ∧ bytes.length ≤ count := by
  constructor
  · intro same
    have prefixed : (upToZero (bytes.take count)).length ≤ (bytes.take count).length :=
      (List.takeWhile_prefix _).length_le
    rw [same, List.length_take] at prefixed
    exact ⟨same ▸ zero_notMem_upToZero _, by omega⟩
  · rintro ⟨whole, fits⟩
    rw [List.take_of_length_le fits]
    exact upToZero_eq_self.mpr whole

/-- After a boot with a configured command line the kernel is given just that
one exactly when it comes through. -/
theorem given_cmdline_iff {mode : Overflow} {parse : ElfParser} {files : HostFiles} {kvm : KvmSlots}
    {config : BootConfig} {mem : Memory} {cmdline : String}
    (booted : (bootLinux mode parse files kvm config).Returns mem) (given : config.cmdline = some cmdline) :
    GivenCmdline config mem cmdline ↔ ComesThrough config cmdline := by
  obtain ⟨parts, -, -, rfl⟩ := bootLinux_returns booted
  have read := @given_text config parts cmdline given
  have same (text : List UInt8) (held : HoldsString (bootImage config parts)
      (cmdlinePtr config (bootImage config parts)) text) : GivenCmdline config (bootImage config parts) cmdline ↔
        text = codeBytes cmdline :=
    ⟨fun own => held.unique own, fun eq => by rw [GivenCmdline, ← eq]; exact held⟩
  rw [same _ read]
  unfold ComesThrough
  split
  · exact upToZero_take_eq_self
  · have fallback : fallbackCmdline = upToZero fallbackCmdline ++ [0] := by decide +kernel
    rw [fallback, List.append_left_inj, ← fallback]
    exact eq_comm

/-- With PVH a short command line comes through. -/
theorem given_quiet :
    GivenCmdline { kernelConfig with pvhBoot := true, cmdline := some "quiet" }
      (bootImage { kernelConfig with pvhBoot := true, cmdline := some "quiet" } (kernelParts 0x100000)) "quiet" :=
  (given_cmdline_iff (one_byte_kernel_boots true (some "quiet") 0x100001 rfl rfl) rfl).mpr
    (show 0 ∉ codeBytes "quiet" ∧ (codeBytes "quiet").length ≤ 255 by decide)

/-- Without PVH the configured command line is passed over. -/
theorem quiet_ignored_without_pvh :
    ¬ ∀ (mode : Overflow) (parse : ElfParser) (files : HostFiles) (kvm : KvmSlots) (config : BootConfig)
      (mem : Memory) (cmdline : String), (bootLinux mode parse files kvm config).Returns mem →
        config.cmdline = some cmdline → GivenCmdline config mem cmdline := by
  intro always
  have booted := @one_byte_kernel_boots false (some "quiet") 0x100000 0x100001 rfl rfl
  have same := (always _ _ _ _ _ _ "quiet" booted rfl).unique (given_text rfl)
  exact absurd same (by decide +kernel)

end TinyMachine.BootImage
