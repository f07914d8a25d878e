import Mathlib.Data.Nat.Digits.Defs
import TinyMachine.Lib.Fallible
import TinyMachine.Lib.Overflow

/-! The firmware of the GPU's falcon: a header that says where code and data lie
in a file, and the loops that write both word by word through a pair of
registers. -/
namespace TinyMachine.Firmware
open Lib Fallible

/-! ## The parser -/

/-- The errors of the parser. -/
inductive GspError where
  | fileTooSmall (len : Nat)
  | invalidMagic (magic : UInt32)
  deriving DecidableEq

/-- Code and data, where the data is loaded, and the entry. -/
structure Bootloader where
  imemData : List UInt8
  dmemData : List UInt8
  dmemLoad : UInt32
  entry : UInt32
  deriving DecidableEq

/-- `data[start..stop]` -/
def slice (data : List UInt8) (start stop : Nat) : Option (List UInt8) :=
  if start ≤ stop ∧ stop ≤ data.length then some ((data.drop start).take (stop - start)) else none

def fromLeBytes (bytes : List UInt8) : UInt32 := .ofNat (Nat.ofDigits 256 (bytes.map UInt8.toNat))

/-- `u32::from_le_bytes(data[at..at + 4].try_into().unwrap())` -/
def u32At (data : List UInt8) (at_ : Nat) : Option UInt32 := (slice data at_ (at_ + 4)).map fromLeBytes

def parseBootloader (mode : Overflow) (data : List UInt8) : Fallible GspError Bootloader := do
  if data.length < 48 then throw (.fileTooSmall data.length)
  let magic ← .checked (u32At data 0)
  if magic ≠ 0x000010de then throw (.invalidMagic magic)
  let hdrOff := (← .checked (u32At data 12)).toUInt64
  let hdrEnd ← .checked (mode.add64 hdrOff 24)
  if data.length < hdrEnd.toNat then throw (.fileTooSmall data.length)
  let bl ← .checked (slice data hdrOff.toNat hdrEnd.toNat)
  let dmemLoad ← .checked (u32At bl 4)
  let codeOff := (← .checked (u32At bl 8)).toUInt64
  let codeSz := (← .checked (u32At bl 12)).toUInt64
  let dataOffBl := (← .checked (u32At bl 16)).toUInt64
  let dataSz := (← .checked (u32At bl 20)).toUInt64
  let codeStart ← .checked (mode.add64 hdrOff codeOff)
  let dataStart ← .checked (mode.add64 hdrOff dataOffBl)
  let codeEnd ← .checked (mode.add64 codeStart codeSz)
  if data.length < codeEnd.toNat then throw (.fileTooSmall data.length)
  let imemData ← .checked (slice data codeStart.toNat codeEnd.toNat)
  let dataEnd ← .checked (mode.add64 dataStart dataSz)
  let dmemData ←
    if dataEnd.toNat ≤ data.length then .checked (slice data dataStart.toNat dataEnd.toNat) else pure []
  return ⟨imemData, dmemData, dmemLoad, 0⟩

/-! ## The upload -/

inductive Register where
  | imemc
  | imemd
  | dmemc
  | dmemd
  deriving DecidableEq

/-- `section.chunks(4).enumerate()` -/
def chunks (bytes : List UInt8) : List (Nat × List UInt8) :=
  (List.range ((bytes.length + 3) / 4)).map fun i => (i, (bytes.drop (4 * i)).take 4)

/-- The word of a chunk, the last one filled up with zeros. -/
def wordOf (chunk : List UInt8) : UInt32 :=
  if chunk.length = 4 then fromLeBytes chunk else fromLeBytes (chunk ++ List.replicate (4 - chunk.length) 0)

/-- The address of a word of code, computed in 64 bits. -/
def imemcVal (i : Nat) : UInt32 :=
  let dwordAddr : UInt64 := .ofNat i
  let blk := dwordAddr >>> 6
  let offs := dwordAddr &&& 0x3F
  let auto := (1 : UInt64) <<< 24
  ((offs <<< 2) ||| (blk <<< 8) ||| auto).toUInt32

/-- The address of a word of data, computed in 32 bits. -/
def dmemcVal (mode : Overflow) (dmemLoad : UInt32) (i : Nat) : Option UInt32 := do
  let dwordAddr ← mode.add32 (dmemLoad / 4) (.ofNat i)
  let blk := dwordAddr >>> 6
  let offs := dwordAddr &&& 0x3F
  let auto := (1 : UInt32) <<< 24
  return (offs <<< 2) ||| (blk <<< 8) ||| auto

/-- The writes of the loop for code. -/
def uploadImem (imemData : List UInt8) : List (Register × UInt32) :=
  (chunks imemData).flatMap fun (i, chunk) => [(.imemc, imemcVal i), (.imemd, wordOf chunk)]

/-- The writes of the loop for data; none where an address overflows. -/
def uploadDmem (mode : Overflow) (dmemLoad : UInt32) (dmemData : List UInt8) : Option (List (Register × UInt32)) :=
  if dmemData = [] then some []
  else do
    let pairs ← (chunks dmemData).mapM fun (i, chunk) => do
      let dmemcVal ← dmemcVal mode dmemLoad i
      return [(.dmemc, dmemcVal), (.dmemd, wordOf chunk)]
    return pairs.flatten

/-! ## What the header declares -/

/-- The field of four bytes that stands here. -/
def field (data : List UInt8) (at_ : Nat) : Nat := Nat.ofDigits 256 (((data.drop at_).take 4).map UInt8.toNat)

def headerOffset (data : List UInt8) : Nat := field data 12

/-- A part of the file. -/
structure Section where
  start : Nat
  size : Nat

def Section.Inside (part : Section) (data : List UInt8) : Prop := part.start + part.size ≤ data.length

def Section.bytes (part : Section) (data : List UInt8) : List UInt8 := (data.drop part.start).take part.size

def loadAddress (data : List UInt8) : Nat := field data (headerOffset data + 4)

def codeSection (data : List UInt8) : Section :=
  ⟨headerOffset data + field data (headerOffset data + 8), field data (headerOffset data + 12)⟩

def dataSection (data : List UInt8) : Section :=
  ⟨headerOffset data + field data (headerOffset data + 16), field data (headerOffset data + 20)⟩

/-- The sections are those declared, each of them empty or inside the file. -/
structure Declares (data : List UInt8) (firmware : Bootloader) : Prop where
  codeInside : (codeSection data).Inside data
  codeBytes : firmware.imemData = (codeSection data).bytes data
  dataInside : (dataSection data).size = 0 ∨ (dataSection data).Inside data
  dataBytes : firmware.dmemData = (dataSection data).bytes data
  load : firmware.dmemLoad.toNat = loadAddress data

/-- The block and offset fields of a value that is written to an address register
make up the address; above them stands the bit for automatic increment. -/
def Encodes (value : UInt32) (address : Nat) : Prop :=
  ∃ block offset, block < 2 ^ 16 ∧ offset < 2 ^ 6 ∧ address = 256 * block + 4 * offset ∧
    value.toNat = 2 ^ 24 + 2 ^ 8 * block + 2 ^ 2 * offset

/-- The writes are an address and a word, in turn, for each word of the section. -/
def Uploads (control content : Register) (base : Nat) (bytes : List UInt8) (writes : List (Register × UInt32)) : Prop :=
  ∃ addresses : List UInt32, addresses.length = (bytes.length + 3) / 4 ∧
    (∀ i value, addresses[i]? = some value → Encodes value (base + 4 * i)) ∧
    writes = addresses.zipIdx.flatMap fun (value, i) => [(control, value), (content, .ofNat (field bytes (4 * i)))]

/-- The parser comes to its end, with what is declared and can be uploaded. -/
structure Lossless (mode : Overflow) (data : List UInt8) : Prop where
  total : ¬ (parseBootloader mode data).Panics
  declares : ∀ firmware, (parseBootloader mode data).Returns firmware → Declares data firmware
  uploads : ∀ firmware, (parseBootloader mode data).Returns firmware →
    Uploads .imemc .imemd 0 firmware.imemData (uploadImem firmware.imemData) ∧
      ∃ writes, uploadDmem mode firmware.dmemLoad firmware.dmemData = some writes ∧
        Uploads .dmemc .dmemd firmware.dmemLoad.toNat firmware.dmemData writes

/-- The parser takes the file for firmware. -/
def Accepted (data : List UInt8) : Prop :=
  48 ≤ data.length ∧ field data 0 = 0x10de ∧ headerOffset data + 24 ≤ data.length ∧ (codeSection data).Inside data

/-- The data lies inside the file, and no word beyond what the fields address. -/
structure Addressable (data : List UInt8) : Prop where
  code : (codeSection data).size ≤ 2 ^ 24
  rest : (dataSection data).size = 0 ∨ (dataSection data).Inside data ∧ 4 ∣ loadAddress data ∧
    loadAddress data + (dataSection data).size ≤ 2 ^ 24

/-! ## The parser by its header -/

section Parser
variable {mode : Overflow} {data : List UInt8} {at_ : Nat}

theorem field_lt (data : List UInt8) (at_ : Nat) : field data at_ < 2 ^ 32 := by
  have few : (((data.drop at_).take 4).map UInt8.toNat).length ≤ 4 := by simp
  have bytes : ∀ byte ∈ ((data.drop at_).take 4).map UInt8.toNat, byte < 256 := by
    intro byte there
    obtain ⟨byte, -, rfl⟩ := List.mem_map.mp there
    exact byte.toNat_lt
  calc field data at_ < 256 ^ (((data.drop at_).take 4).map UInt8.toNat).length :=
        Nat.ofDigits_lt_base_pow_length (by decide) bytes
    _ ≤ 256 ^ 4 := Nat.pow_le_pow_right (by decide) few

theorem slice_inside {start stop : Nat} (ordered : start ≤ stop) (inside : stop ≤ data.length) :
    slice data start stop = some ((data.drop start).take (stop - start)) := if_pos ⟨ordered, inside⟩

theorem u32At_inside (inside : at_ + 4 ≤ data.length) : u32At data at_ = some (.ofNat (field data at_)) := by
  rw [u32At, slice_inside (Nat.le_add_right _ _) inside, Nat.add_sub_cancel_left]
  rfl

/-- A field of a part is one of the whole. -/
theorem field_part {start count : Nat} (inside : at_ + 4 ≤ count) :
    field ((data.drop start).take count) at_ = field data (start + at_) := by
  rw [field, field, List.drop_take, List.drop_drop, List.take_take, Nat.min_eq_left (by omega)]

theorem toNat_field (data : List UInt8) (at_ : Nat) : (UInt32.ofNat (field data at_)).toUInt64.toNat = field data at_ := by
  rw [UInt32.toNat_toUInt64, UInt32.toNat_ofNat']
  exact Nat.mod_eq_of_lt (field_lt data at_)

theorem add64_small (mode : Overflow) {a b : UInt64} {x y : Nat} (first : a.toNat = x) (second : b.toNat = y) (small : x + y < 2 ^ 64) :
    ∃ sum, mode.add64 a b = some sum ∧ sum.toNat = x + y := by
  subst first second
  exact ⟨a + b, Overflow.add64_of_fits small, by rw [UInt64.toNat_add, Nat.mod_eq_of_lt small]⟩

/-- What the parser makes of a file. -/
def parsed (data : List UInt8) : Bootloader where
  imemData := (codeSection data).bytes data
  dmemData := if (dataSection data).start + (dataSection data).size ≤ data.length then (dataSection data).bytes data else []
  dmemLoad := .ofNat (loadAddress data)
  entry := 0

/-- Numbers of 32 bits are added up without overflow. -/
theorem header_added (mode : Overflow) (data : List UInt8) (at_ : Nat) : ∃ start,
    mode.add64 (UInt32.ofNat (field data 12)).toUInt64 (UInt32.ofNat (field data at_)).toUInt64 = some start ∧
      start.toNat = headerOffset data + field data at_ := by
  have first : headerOffset data < 2 ^ 32 := field_lt data 12
  have second := field_lt data at_
  exact add64_small mode (toNat_field data 12) (toNat_field data at_) (by omega)

theorem magic_eq (data : List UInt8) : UInt32.ofNat (field data 0) = 0x10de ↔ field data 0 = 0x10de := by
  rw [← UInt32.toNat_inj, UInt32.toNat_ofNat', Nat.mod_eq_of_lt (field_lt data 0)]
  rfl

/-- A field of the part that is the header. -/
theorem header_field (header : headerOffset data + 24 ≤ data.length) (at_ : Nat) (inside : at_ + 4 ≤ 24) :
    u32At ((data.drop (headerOffset data)).take 24) at_ = some (.ofNat (field data (headerOffset data + at_))) := by
  rw [u32At_inside, field_part inside]
  rw [List.length_take, List.length_drop]
  omega

/-- The parser in terms of the fields. -/
theorem parse_eq (mode : Overflow) (data : List UInt8) :
    parseBootloader mode data =
      if data.length < 48 then throw (.fileTooSmall data.length)
      else if field data 0 ≠ 0x10de then throw (.invalidMagic (.ofNat (field data 0)))
      else if data.length < headerOffset data + 24 then throw (.fileTooSmall data.length)
      else if data.length < (codeSection data).start + (codeSection data).size then throw (.fileTooSmall data.length)
      else pure (parsed data) := by
  by_cases small : data.length < 48
  · rw [if_pos small, parseBootloader, if_pos small]
    rfl
  have magicRead : u32At data 0 = some (.ofNat (field data 0)) := u32At_inside (by omega)
  rw [if_neg small]
  by_cases magic : field data 0 ≠ 0x10de
  · have differs : UInt32.ofNat (field data 0) ≠ 0x10de := fun same => magic ((magic_eq data).mp same)
    rw [if_pos magic, parseBootloader, if_neg small, magicRead, checked_some_bind, if_pos differs]
    rfl
  have same : UInt32.ofNat (field data 0) = 0x10de := (magic_eq data).mpr (not_not.mp magic)
  have offsetRead : u32At data 12 = some (.ofNat (field data 12)) := u32At_inside (by omega)
  have offset : (UInt32.ofNat (field data 12)).toUInt64.toNat = headerOffset data := toNat_field data 12
  have offsetFits : headerOffset data < 2 ^ 32 := field_lt data 12
  have twentyFour : (24 : UInt64).toNat = 24 := rfl
  obtain ⟨hdrEnd, hdrAdded, hdrEndIs⟩ := add64_small mode offset twentyFour (by omega)
  rw [if_neg magic]
  by_cases header : data.length < headerOffset data + 24
  · rw [if_pos header, parseBootloader]
    simp only [small, if_false, magicRead, checked_some_bind, same, offsetRead, hdrAdded, hdrEndIs, header, if_true,
      ne_eq, not_true_eq_false]
    rfl
  rw [if_neg header]
  have whole : headerOffset data + 24 ≤ data.length := Nat.not_lt.mp header
  have part : slice data (headerOffset data) (headerOffset data + 24) =
      some ((data.drop (headerOffset data)).take 24) := by
    rw [slice_inside (Nat.le_add_right _ _) whole, Nat.add_sub_cancel_left]
  have read4 := header_field whole 4 (by decide)
  have read8 := header_field whole 8 (by decide)
  have read12 := header_field whole 12 (by decide)
  have read16 := header_field whole 16 (by decide)
  have read20 := header_field whole 20 (by decide)
  have fits (at_ : Nat) := field_lt data (headerOffset data + at_)
  obtain ⟨codeStart, codeAdded, codeStartIs⟩ := header_added mode data (headerOffset data + 8)
  obtain ⟨dataStart, dataAdded, dataStartIs⟩ := header_added mode data (headerOffset data + 16)
  obtain ⟨codeEnd, codeEnded, codeEndIs⟩ := add64_small mode codeStartIs
    (toNat_field data (headerOffset data + 12)) (by have := fits 8; have := fits 12; omega)
  obtain ⟨dataEnd, dataEnded, dataEndIs⟩ := add64_small mode dataStartIs
    (toNat_field data (headerOffset data + 20)) (by have := fits 16; have := fits 20; omega)
  simp only [parseBootloader, small, if_false, magicRead, same, offsetRead, checked_some_bind, hdrAdded, hdrEndIs,
    header, offset, part, read4, read8, read12, read16, read20, codeAdded, dataAdded, codeEnded, codeEndIs,
    codeStartIs, dataEnded, dataEndIs, dataStartIs, ne_eq, not_true_eq_false]
  by_cases code : data.length < (codeSection data).start + (codeSection data).size
  · rw [if_pos code]
    dsimp only [codeSection] at code
    rw [if_pos code]
    rfl
  rw [if_neg code]
  dsimp only [codeSection] at code
  rw [if_neg code, slice_inside (Nat.le_add_right _ _) (Nat.not_lt.mp code), checked_some_bind,
    Nat.add_sub_cancel_left]
  by_cases inside : (dataSection data).start + (dataSection data).size ≤ data.length
  · rw [parsed, if_pos inside]
    dsimp only [dataSection] at inside
    rw [if_pos inside, slice_inside (Nat.le_add_right _ _) inside, checked_some_bind, Nat.add_sub_cancel_left]
    rfl
  · rw [parsed, if_neg inside]
    dsimp only [dataSection] at inside
    rw [if_neg inside]
    rfl

theorem parse_accepted (mode : Overflow) (accepted : Accepted data) :
    parseBootloader mode data = pure (parsed data) := by
  obtain ⟨large, magic, header, code⟩ := accepted
  rw [parse_eq, if_neg (Nat.not_lt.mpr large), if_neg (not_not.mpr magic), if_neg (Nat.not_lt.mpr header),
    if_neg (Nat.not_lt.mpr code)]

theorem parse_rejected (mode : Overflow) (rejected : ¬ Accepted data) :
    ∃ error, parseBootloader mode data = throw error := by
  rw [parse_eq]
  split
  · exact ⟨_, rfl⟩
  next large =>
  split
  · exact ⟨_, rfl⟩
  next magic =>
  split
  · exact ⟨_, rfl⟩
  next header =>
  split
  · exact ⟨_, rfl⟩
  next code =>
  exact absurd ⟨Nat.not_lt.mp large, not_not.mp magic, Nat.not_lt.mp header, Nat.not_lt.mp code⟩ rejected

end Parser

/-! ## The address registers -/

section Addresses
variable {value : UInt32} {address : Nat}

/-- The fields do not overlap. -/
theorem fields_or {block offset : Nat} (blockFits : block < 2 ^ 16) (offsetFits : offset < 2 ^ 6) :
    offset <<< 2 ||| block <<< 8 ||| 1 <<< 24 = 2 ^ 24 + 2 ^ 8 * block + 2 ^ 2 * offset := by
  have offsetPlaced : offset <<< 2 < 2 ^ 8 := by
    rw [Nat.shiftLeft_eq]
    omega
  have blockPlaced : block <<< 8 + offset <<< 2 < 2 ^ 24 := by
    rw [Nat.shiftLeft_eq, Nat.shiftLeft_eq]
    omega
  rw [Nat.or_comm (offset <<< 2), ← Nat.shiftLeft_add_eq_or_of_lt offsetPlaced, Nat.or_comm,
    ← Nat.shiftLeft_add_eq_or_of_lt blockPlaced, Nat.shiftLeft_eq, Nat.shiftLeft_eq, Nat.shiftLeft_eq]
  omega

theorem encodes_word {word : Nat} (small : word < 2 ^ 22) (same : value.toNat =
    (word % 64) <<< 2 ||| (word / 64) <<< 8 ||| 1 <<< 24) : Encodes value (4 * word) := by
  have blockFits : word / 64 < 2 ^ 16 := by omega
  have offsetFits : word % 64 < 2 ^ 6 := by omega
  exact ⟨word / 64, word % 64, blockFits, offsetFits, by omega, same.trans (fields_or blockFits offsetFits)⟩

/-- Nothing beyond the fields is encoded, and only words are. -/
theorem Encodes.bounds (encoded : Encodes value address) : address < 2 ^ 24 ∧ 4 ∣ address := by
  obtain ⟨block, offset, blockFits, offsetFits, same, -⟩ := encoded
  omega

theorem encodes_imemcVal {i : Nat} (small : i < 2 ^ 22) : Encodes (imemcVal i) (4 * i) := by
  apply encodes_word small
  have word : (UInt64.ofNat i).toNat = i := by
    rw [UInt64.toNat_ofNat', Nat.mod_eq_of_lt (by omega)]
  have block : (UInt64.ofNat i >>> 6 <<< 8).toNat = (i / 64) <<< 8 := by
    rw [UInt64.toNat_shiftLeft, UInt64.toNat_shiftRight, word]
    simp only [UInt64.reduceToNat, Nat.reduceMod, Nat.shiftRight_eq_div_pow, Nat.shiftLeft_eq]
    omega
  have offset : ((UInt64.ofNat i &&& 0x3F) <<< 2).toNat = (i % 64) <<< 2 := by
    rw [UInt64.toNat_shiftLeft, UInt64.toNat_and, word]
    simp only [UInt64.reduceToNat, Nat.reduceMod, Nat.shiftLeft_eq]
    rw [show (63 : Nat) = 2 ^ 6 - 1 from rfl, Nat.and_two_pow_sub_one_eq_mod]
    omega
  have whole := fields_or (by omega : i / 64 < 2 ^ 16) (by omega : i % 64 < 2 ^ 6)
  have auto : ((1 : UInt64) <<< 24).toNat = 1 <<< 24 := rfl
  rw [imemcVal, UInt64.toNat_toUInt32, UInt64.toNat_or, UInt64.toNat_or, block, offset, auto]
  exact Nat.mod_eq_of_lt (by omega)

theorem encodes_dmemc {word : UInt32} (small : word.toNat < 2 ^ 22) :
    Encodes ((word &&& 0x3F) <<< 2 ||| word >>> 6 <<< 8 ||| (1 : UInt32) <<< 24) (4 * word.toNat) := by
  apply encodes_word small
  have block : (word >>> 6 <<< 8).toNat = (word.toNat / 64) <<< 8 := by
    rw [UInt32.toNat_shiftLeft, UInt32.toNat_shiftRight]
    simp only [UInt32.reduceToNat, Nat.reduceMod, Nat.shiftRight_eq_div_pow, Nat.shiftLeft_eq]
    omega
  have offset : ((word &&& 0x3F) <<< 2).toNat = (word.toNat % 64) <<< 2 := by
    rw [UInt32.toNat_shiftLeft, UInt32.toNat_and]
    simp only [UInt32.reduceToNat, Nat.reduceMod, Nat.shiftLeft_eq]
    rw [show (63 : Nat) = 2 ^ 6 - 1 from rfl, Nat.and_two_pow_sub_one_eq_mod]
    omega
  have auto : ((1 : UInt32) <<< 24).toNat = 1 <<< 24 := rfl
  rw [UInt32.toNat_or, UInt32.toNat_or, block, offset, auto]

/-- A word of data inside what can be addressed overflows nothing on its way. -/
theorem dmemcVal_small (mode : Overflow) {dmemLoad : UInt32} {i : Nat} (aligned : 4 ∣ dmemLoad.toNat)
    (small : dmemLoad.toNat + 4 * i < 2 ^ 24) :
    ∃ value, dmemcVal mode dmemLoad i = some value ∧ Encodes value (dmemLoad.toNat + 4 * i) := by
  have first : (dmemLoad / 4).toNat = dmemLoad.toNat / 4 := UInt32.toNat_div dmemLoad 4
  have second : (UInt32.ofNat i).toNat = i := by
    rw [UInt32.toNat_ofNat', Nat.mod_eq_of_lt (by omega)]
  have fits : (dmemLoad / 4).toNat + (UInt32.ofNat i).toNat < 2 ^ 32 := by omega
  have added : mode.add32 (dmemLoad / 4) (.ofNat i) = some (dmemLoad / 4 + .ofNat i) := Overflow.fit_of_fits fits
  have word : (dmemLoad / 4 + .ofNat i).toNat = dmemLoad.toNat / 4 + i := by
    rw [UInt32.toNat_add, Nat.mod_eq_of_lt fits, first, second]
  have encoded := encodes_dmemc (by omega : (dmemLoad / 4 + UInt32.ofNat i).toNat < 2 ^ 22)
  rw [word, Nat.mul_add, Nat.mul_div_cancel' aligned] at encoded
  exact ⟨_, by rw [dmemcVal, added]; rfl, encoded⟩

end Addresses

/-! ## The loops -/

section Loops
variable {bytes : List UInt8} {base : Nat} {control content : Register}

/-- A chunk that is filled up is the field of four bytes. -/
theorem wordOf_chunk (bytes : List UInt8) (i : Nat) :
    wordOf ((bytes.drop (4 * i)).take 4) = .ofNat (field bytes (4 * i)) := by
  rw [wordOf]
  split
  · rfl
  · rw [fromLeBytes, List.map_append, List.map_replicate]
    exact congrArg UInt32.ofNat (Nat.ofDigits_append_replicate_zero _)

/-- The writes of a loop over the words. -/
def writes (control content : Register) (value : Nat → UInt32) (bytes : List UInt8) : List (Register × UInt32) :=
  (chunks bytes).flatMap fun (i, chunk) => [(control, value i), (content, wordOf chunk)]

theorem uploads_writes {value : Nat → UInt32}
    (encoded : ∀ i, i < (bytes.length + 3) / 4 → Encodes (value i) (base + 4 * i)) :
    Uploads control content base bytes (writes control content value bytes) := by
  refine ⟨(List.range ((bytes.length + 3) / 4)).map value, by simp, ?_, ?_⟩
  · intro i other there
    obtain ⟨inside, rfl⟩ := List.getElem?_eq_some_iff.mp there
    rw [List.getElem_map, List.getElem_range]
    exact encoded i (by simpa using inside)
  · have counted : ((List.range ((bytes.length + 3) / 4)).map value).zipIdx =
        (List.range ((bytes.length + 3) / 4)).map fun i => (value i, i) := by
      apply List.ext_getElem
      · simp
      · intro i _ _
        simp
    rw [counted, writes, chunks, List.flatMap_map, List.flatMap_map]
    simp only [wordOf_chunk]

/-- Every word of what is uploaded can be addressed. -/
theorem Uploads.bounds {writes : List (Register × UInt32)} (uploads : Uploads control content base bytes writes)
    (i : Nat) (inside : i < (bytes.length + 3) / 4) : base + 4 * i < 2 ^ 24 ∧ 4 ∣ base + 4 * i := by
  obtain ⟨addresses, count, encoded, -⟩ := uploads
  exact (encoded i _ (List.getElem?_eq_getElem (count ▸ inside))).bounds

theorem uploads_imem (small : bytes.length ≤ 2 ^ 24) : Uploads .imemc .imemd 0 bytes (uploadImem bytes) := by
  apply uploads_writes
  intro i inside
  rw [Nat.zero_add]
  exact encodes_imemcVal (by omega)

theorem mapM_some {α β : Type} {f : α → Option β} {g : α → β} {items : List α}
    (each : ∀ item ∈ items, f item = some (g item)) : items.mapM f = some (items.map g) := by
  induction items with
  | nil => rfl
  | cons item items ih =>
    rw [List.mapM_cons, each item (.head _), ih fun other there => each other (.tail _ there)]
    rfl

theorem uploads_dmem (mode : Overflow) {dmemLoad : UInt32} (addressable : bytes ≠ [] →
      4 ∣ dmemLoad.toNat ∧ dmemLoad.toNat + bytes.length ≤ 2 ^ 24) :
    ∃ writes, uploadDmem mode dmemLoad bytes = some writes ∧
      Uploads .dmemc .dmemd dmemLoad.toNat bytes writes := by
  by_cases empty : bytes = []
  · subst empty
    exact ⟨[], rfl, [], rfl, by simp, rfl⟩
  obtain ⟨aligned, small⟩ := addressable empty
  let value (i : Nat) : UInt32 := (dmemcVal mode dmemLoad i).getD 0
  have each (i : Nat) (inside : i < (bytes.length + 3) / 4) :
      dmemcVal mode dmemLoad i = some (value i) ∧ Encodes (value i) (dmemLoad.toNat + 4 * i) := by
    obtain ⟨result, computed, encoded⟩ := dmemcVal_small mode aligned (by omega : dmemLoad.toNat + 4 * i < 2 ^ 24)
    have same : value i = result := by
      dsimp only [value]
      rw [computed, Option.getD_some]
    exact same ▸ ⟨computed, encoded⟩
  refine ⟨_, ?_, uploads_writes fun i inside => (each i inside).2⟩
  rw [uploadDmem, if_neg empty, mapM_some (g := fun (i, chunk) => [(.dmemc, value i), (.dmemd, wordOf chunk)])]
  · rfl
  · rintro ⟨i, chunk⟩ there
    obtain ⟨j, inside, same⟩ := List.mem_map.mp there
    cases same
    dsimp only
    rw [(each _ (List.mem_range.mp inside)).1]
    rfl

end Loops

/-! ## The whole way -/

section Whole
variable {mode : Overflow} {data : List UInt8}

theorem Section.length_bytes {part : Section} (inside : part.Inside data) : (part.bytes data).length = part.size := by
  rw [Section.bytes, List.length_take, List.length_drop, Nat.min_eq_left]
  exact Nat.le_sub_of_add_le' inside

theorem parsed_load (data : List UInt8) : (parsed data).dmemLoad.toNat = loadAddress data := by
  rw [parsed, UInt32.toNat_ofNat']
  exact Nat.mod_eq_of_lt (field_lt _ _)

theorem Section.bytes_empty {part : Section} (empty : part.size = 0) : part.bytes data = [] := by
  rw [Section.bytes, empty, List.take_zero]

/-- What is declared arrives, unless a section of data is dropped. -/
theorem parsed_dmem (kept : (dataSection data).size = 0 ∨ (dataSection data).Inside data) :
    (parsed data).dmemData = (dataSection data).bytes data := by
  rw [parsed]
  split
  · rfl
  next outside => exact (Section.bytes_empty (kept.resolve_right outside)).symm

/-- The firmware of a file goes to the machine as its header says exactly where its
data is inside the file and the registers can address all of it. -/
theorem lossless_iff_addressable (mode : Overflow) (data : List UInt8) :
    Lossless mode data ↔ (Accepted data → Addressable data) := by
  constructor
  · intro lossless accepted
    have returned : (parseBootloader mode data).Returns (parsed data) := by
      rw [parse_accepted mode accepted, pure_returns]
    obtain ⟨codeInside, codeBytes, dataInside, dataBytes, load⟩ := lossless.declares _ returned
    obtain ⟨imem, writes, -, dmem⟩ := lossless.uploads _ returned
    have codeLength := Section.length_bytes codeInside
    refine ⟨?_, ?_⟩
    · by_contra large
      have beyond := (imem.bounds (2 ^ 22) (by rw [codeBytes, codeLength]; omega)).1
      omega
    · by_cases empty : (dataSection data).size = 0
      · exact .inl empty
      have inside := dataInside.resolve_left empty
      have dataLength := Section.length_bytes inside
      have first := dmem.bounds 0 (by rw [dataBytes, dataLength]; omega)
      have last := dmem.bounds (((dataSection data).size + 3) / 4 - 1) (by rw [dataBytes, dataLength]; omega)
      rw [load] at first last
      exact .inr ⟨inside, by omega, by omega⟩
  · intro addressable
    have known (firmware : Bootloader) (returned : (parseBootloader mode data).Returns firmware) :
        Accepted data ∧ firmware = parsed data := by
      by_cases accepted : Accepted data
      · rw [parse_accepted mode accepted, pure_returns] at returned
        exact ⟨accepted, returned.symm⟩
      · obtain ⟨error, rejected⟩ := parse_rejected mode accepted
        rw [rejected] at returned
        exact absurd returned (throw_returns error firmware)
    constructor
    · by_cases accepted : Accepted data
      · rw [parse_accepted mode accepted]
        exact pure_panics _
      · obtain ⟨error, rejected⟩ := parse_rejected mode accepted
        rw [rejected]
        exact throw_panics error
    · intro firmware returned
      obtain ⟨accepted, rfl⟩ := known firmware returned
      have kept := (addressable accepted).rest.imp_right And.left
      exact ⟨accepted.2.2.2, rfl, kept, parsed_dmem kept, parsed_load data⟩
    · intro firmware returned
      obtain ⟨accepted, rfl⟩ := known firmware returned
      obtain ⟨code, rest⟩ := addressable accepted
      refine ⟨uploads_imem ?_, uploads_dmem mode fun present => ?_⟩
      · exact (Section.length_bytes accepted.2.2.2).trans_le code
      · rw [parsed_dmem (rest.imp_right And.left)] at present ⊢
        obtain ⟨inside, aligned, small⟩ := rest.resolve_left fun empty => present (Section.bytes_empty empty)
        rw [parsed_load, Section.length_bytes inside]
        exact ⟨aligned, small⟩

/-- A header that puts its data behind the end of the file. -/
def dropped : List UInt8 :=
  [0xde, 0x10, 0, 0, 0, 0, 0, 0, 0, 0, 0, 0, 24, 0, 0, 0, 0, 0, 0, 0, 0, 0, 0, 0,
    0, 0, 0, 0, 0, 0, 0, 0, 0, 0, 0, 0, 0, 0, 0, 0, 0, 0, 0, 0, 0, 1, 0, 0]

/-- The data is left out without an error. -/
theorem declared_data_dropped : (parseBootloader .checked dropped).Returns ⟨[], [], 0, 0⟩ ∧
    (dataSection dropped).size = 256 ∧ ¬ ∀ mode data, Lossless mode data := by
  have returned : (parseBootloader .checked dropped).Returns ⟨[], [], 0, 0⟩ := rfl
  refine ⟨returned, rfl, fun lossless => ?_⟩
  rcases ((lossless .checked dropped).declares _ returned).dataInside with empty | inside
  · exact absurd empty (by decide)
  · exact absurd (show 24 + 256 ≤ 48 from inside) (by decide)

end Whole

end TinyMachine.Firmware
