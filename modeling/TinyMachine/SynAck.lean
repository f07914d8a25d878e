import TinyMachine.VirtioTransmission
import TinyMachine.Lib.OnesComplement

/-! The SYN/ACK with which the device answers a SYN: what TCP asks of it, and
which SYNs it answers like this. -/
namespace TinyMachine.VirtioNet
open Lib

/-! ## TCP over IPv4 in an Ethernet frame -/

def octet (frame : List UInt8) (i : Nat) : UInt8 := frame.getD i 0

def field (frame : List UInt8) (start length : Nat) : List UInt8 := (frame.drop start).take length

/-- The length of the IP header in words of four bytes. -/
def ihl (frame : List UInt8) : Nat := (octet frame 14 &&& 0x0F).toNat

def ipTotal (frame : List UInt8) : Nat := (be16 (octet frame 16) (octet frame 17)).toNat

def tcpOffset (frame : List UInt8) : Nat := 14 + ihl frame * 4

def srcPort (frame : List UInt8) : List UInt8 := field frame (tcpOffset frame) 2
def dstPort (frame : List UInt8) : List UInt8 := field frame (tcpOffset frame + 2) 2
def seqNumber (frame : List UInt8) : List UInt8 := field frame (tcpOffset frame + 4) 4
def ackNumber (frame : List UInt8) : List UInt8 := field frame (tcpOffset frame + 8) 4
def tcpFlags (frame : List UInt8) : UInt8 := octet frame (tcpOffset frame + 13)

/-- The number in some bytes, highest first. -/
def number (bytes : List UInt8) : Nat := bytes.foldl (fun value byte => value * 256 + byte.toNat) 0

/-- A frame with a whole TCP SYN to port 80 or 443. -/
structure SynRequest (frame : List UInt8) : Prop where
  ipv4 : octet frame 12 = 0x08 ∧ octet frame 13 = 0x00
  header : 5 ≤ ihl frame
  whole : ipTotal frame ≤ frame.length
  tcp : octet frame 23 = 6
  room : tcpOffset frame + 20 ≤ frame.length
  syn : tcpFlags frame &&& 0x02 ≠ 0 ∧ tcpFlags frame &&& 0x10 = 0
  web : number (dstPort frame) = 80 ∨ number (dstPort frame) = 443

/-- The 16-bit words that are summed up, highest byte first. -/
def words : List UInt8 → List Nat
  | high :: low :: rest => (be16 high low).toNat :: words rest
  | [high] => [(be16 high 0).toNat]
  | [] => []

/-- With the checksum among them, the words add up to all ones. -/
def Verifies (bytes : List UInt8) : Prop := OnesComplement.sum 0xFFFF (words bytes) = 0xFFFF

/-- What TCP adds to a segment of some length for the checksum. -/
def pseudoHeader (frame : List UInt8) (length : Nat) : List UInt8 :=
  field frame 26 4 ++ field frame 30 4 ++ [0, octet frame 23] ++ (Memory.bytesLE 2 length).reverse

/-- The reply is a SYN/ACK in an IPv4 frame for the one who asked. -/
structure Answers (request reply : List UInt8) : Prop where
  ethernet : field reply 0 6 = field request 6 6 ∧ field reply 6 6 = field request 0 6
  ipv4 : octet reply 12 = 0x08 ∧ octet reply 13 = 0x00 ∧ octet reply 14 >>> 4 = 4 ∧ octet reply 23 = 6
  addresses : field reply 26 4 = field request 30 4 ∧ field reply 30 4 = field request 26 4
  ports : srcPort reply = dstPort request ∧ dstPort reply = srcPort request
  acknowledges : number (ackNumber reply) = (number (seqNumber request) + 1) % 2 ^ 32
  flags : tcpFlags reply = 0x12
  ipLength : 14 + ipTotal reply = reply.length
  tcpLength : tcpOffset reply + (octet reply (tcpOffset reply + 12) >>> 4).toNat * 4 = reply.length
  ipChecksum : Verifies (field reply 14 (ihl reply * 4))
  tcpChecksum : Verifies (pseudoHeader reply (reply.length - tcpOffset reply) ++ reply.drop (tcpOffset reply))

/-! ## When the device crafts a reply -/

/-- The reply, from the fields of the request. -/
def synackReply (tcpOff : Nat) (ethDst ethSrc ipSrc ipDst tcpSrcPort tcpDstPort : List UInt8) (ackSeq : Nat) :
    Option (List UInt8) := do
  let reply := List.replicate 54 0
  let reply ← setBytes reply 0 (ethSrc ++ ethDst ++ [0x08, 0x00])
  let reply ← setBytes reply 14 [0x45, 0, 0, 40, 0, 0, 0x40, 0, 64, 6, 0, 0]
  let reply ← setBytes reply 26 (ipDst ++ ipSrc)
  let ipCsum := checksum (← slice reply 14 34)
  let reply ← setBytes reply 24 [highByte ipCsum, ipCsum.toUInt8]
  let reply ← setBytes reply tcpOff (tcpDstPort ++ tcpSrcPort)
  let reply ← setBytes reply (tcpOff + 4) [0x10, 0, 0, 0]
  let reply ← setBytes reply (tcpOff + 8) (Memory.bytesLE 4 ackSeq).reverse
  let reply ← setBytes reply (tcpOff + 12) [0x50, 0x12, 0xFF, 0xFF, 0, 0, 0, 0]
  let tcpHeader ← slice reply tcpOff (tcpOff + 20)
  let tcpBuf := (← slice reply 26 30) ++ (← slice reply 30 34) ++ [0, 6, 0, 20] ++ tcpHeader
  let tcpCsum := checksum tcpBuf
  setBytes reply (tcpOff + 16) [highByte tcpCsum, tcpCsum.toUInt8]

section Crafting
variable {frame : List UInt8}

theorem getElem?_octet {i : Nat} (inside : i < frame.length) : frame[i]? = some (octet frame i) := by
  rw [octet, List.getD_eq_getElem?_getD, List.getElem?_eq_getElem inside, Option.getD_some]

theorem slice_field {start stop : Nat} (inside : stop ≤ frame.length) :
    slice frame start stop = some (field frame start (stop - start)) := by
  rw [slice, if_pos inside, field, List.drop_take]

theorem field_two {start : Nat} (inside : start + 2 ≤ frame.length) :
    field frame start 2 = [octet frame start, octet frame (start + 1)] := by
  rw [field, List.drop_eq_getElem_cons (by omega), List.drop_eq_getElem_cons (by omega), List.take_succ_cons,
    List.take_succ_cons, List.take_zero]
  simp [octet, List.getD_eq_getElem?_getD, show start < frame.length by omega, show start + 1 < frame.length by omega]

theorem be16_toNat (high low : UInt8) : (be16 high low).toNat = high.toNat * 256 + low.toNat := by
  have lower := low.toNat_lt
  have upper := high.toNat_lt
  have shifted : (high.toUInt16 <<< 8).toNat = high.toNat <<< 8 := by
    rw [UInt16.toNat_shiftLeft, UInt8.toNat_toUInt16, (by decide : (8 : UInt16).toNat % 16 = 8)]
    exact Nat.mod_eq_of_lt (by rw [Nat.shiftLeft_eq]; omega)
  rw [be16, UInt16.toNat_or, shifted, UInt8.toNat_toUInt16, ← Nat.shiftLeft_add_eq_or_of_lt lower, Nat.shiftLeft_eq]

theorem number_two (high low : UInt8) : number [high, low] = (be16 high low).toNat := by
  rw [be16_toNat]
  simp [number]

theorem web_iff {start : Nat} (inside : start + 2 ≤ frame.length) :
    ¬ (be16 (octet frame start) (octet frame (start + 1)) ≠ 80 ∧
        be16 (octet frame start) (octet frame (start + 1)) ≠ 443) ↔
      number (field frame start 2) = 80 ∨ number (field frame start 2) = 443 := by
  have port (value : UInt16) : be16 (octet frame start) (octet frame (start + 1)) = value ↔
      number (field frame start 2) = value.toNat := by
    rw [field_two inside, number_two, UInt16.toNat_inj]
  rw [not_and_or, not_not, not_not, port, port]
  exact Iff.rfl

theorem some_then {α β : Type} (a : α) (f : α → Option β) : (some a >>= f) = f a := rfl

/-- A SYN is answered from its fields, and nothing else is answered. -/
theorem craftSynack_cases (frame : List UInt8) :
    ¬ SynRequest frame ∧ craftSynack frame = some none ∨ SynRequest frame ∧ craftSynack frame = do
      let reply ← synackReply (tcpOffset frame) (field frame 0 6) (field frame 6 6) (field frame 26 4)
        (field frame 30 4) (srcPort frame) (dstPort frame) (number (seqNumber frame) + 1)
      return some reply := by
  have start : tcpOffset frame = 14 + ihl frame * 4 := rfl
  have held {i : Nat} (inside : i < frame.length) := getElem?_octet inside
  have cut {start stop : Nat} (inside : stop ≤ frame.length) := @slice_field frame start stop inside
  have version : octet frame 14 &&& 0x0F < 5 ↔ ihl frame < 5 := UInt8.lt_iff_toNat_lt
  have offset : 14 + (octet frame 14 &&& 0x0F).toNat * 4 = tcpOffset frame := rfl
  have flagByte : octet frame (tcpOffset frame + 13) = tcpFlags frame := rfl
  have total : (be16 (octet frame 16) (octet frame 17)).toNat = ipTotal frame := rfl
  simp only [craftSynack]
  by_cases long : frame.length < 54
  · rw [if_pos long]
    refine .inl ⟨fun request => ?_, rfl⟩
    have room := request.room
    have header := request.header
    omega
  rw [if_neg long, held (by omega), some_then, held (by omega), some_then]
  by_cases ipv4 : octet frame 12 ≠ 0x08 ∨ octet frame 13 ≠ 0x00
  · rw [if_pos ipv4]
    exact .inl ⟨fun request => ipv4.elim (· request.ipv4.1) (· request.ipv4.2), rfl⟩
  rw [if_neg ipv4, held (by omega), some_then, offset]
  by_cases short : octet frame 14 &&& 0x0F < 5
  · rw [if_pos short]
    exact .inl ⟨fun request => Nat.not_lt.mpr request.header (version.mp short), rfl⟩
  rw [if_neg short, held (by omega), some_then, held (by omega), some_then, total]
  rw [version] at short
  by_cases cutOff : frame.length < ipTotal frame
  · rw [if_pos cutOff]
    exact .inl ⟨fun request => Nat.not_lt.mpr request.whole cutOff, rfl⟩
  rw [if_neg cutOff, held (by omega), some_then]
  by_cases other : octet frame (14 + 9) ≠ 6
  · rw [if_pos other]
    exact .inl ⟨fun request => other request.tcp, rfl⟩
  rw [if_neg other]
  by_cases tight : tcpOffset frame + 20 > frame.length
  · rw [if_pos tight]
    exact .inl ⟨fun request => Nat.not_lt.mpr request.room tight, rfl⟩
  rw [if_neg tight, held (by omega), some_then, flagByte]
  by_cases flags : tcpFlags frame &&& 0x02 = 0 ∨ tcpFlags frame &&& 0x10 ≠ 0
  · rw [if_pos flags]
    exact .inl ⟨fun request => flags.elim request.syn.1 (· request.syn.2), rfl⟩
  rw [if_neg flags, held (by omega), some_then, held (by omega), some_then]
  have web := @web_iff frame (tcpOffset frame + 2) (by omega)
  by_cases port : be16 (octet frame (tcpOffset frame + 2)) (octet frame (tcpOffset frame + 3)) ≠ 80 ∧
      be16 (octet frame (tcpOffset frame + 2)) (octet frame (tcpOffset frame + 3)) ≠ 443
  · rw [if_pos port]
    exact .inl ⟨fun request => web.mpr request.web port, rfl⟩
  rw [if_neg port]
  refine .inr ⟨⟨?_, by omega, by omega, not_not.mp other, by omega, ?_, web.mp port⟩, ?_⟩
  · exact ⟨not_not.mp fun no => ipv4 (.inl no), not_not.mp fun no => ipv4 (.inr no)⟩
  · exact ⟨fun no => flags (.inl no), not_not.mp fun no => flags (.inr no)⟩
  rw [cut (by omega), some_then, cut (by omega), some_then, cut (by omega), some_then, cut (by omega), some_then,
    cut (by omega), some_then, cut (by omega), some_then, cut (by omega), some_then, Nat.add_sub_cancel_left,
    Nat.add_sub_add_left, Nat.add_sub_add_left]
  simp only [synackReply, bind_assoc]
  rfl

end Crafting

/-! ## Checksums -/

theorem words_small {bytes : List UInt8} : ∀ word ∈ words bytes, word ≤ 0xFFFF := by
  fun_induction words bytes with
  | case1 high low rest ih =>
    have bound := (be16 high low).toNat_lt
    exact List.forall_mem_cons.mpr ⟨by omega, ih⟩
  | case2 high =>
    have bound := (be16 high 0).toNat_lt
    exact List.forall_mem_singleton.mpr (by omega)
  | case3 => exact fun word member => absurd member List.not_mem_nil

theorem wordSum_eq (bytes : List UInt8) : wordSum bytes = (words bytes).sum := by
  fun_induction words bytes with
  | case1 high low rest ih => rw [wordSum, ih, List.sum_cons]
  | case2 high => rfl
  | case3 => rfl

theorem words_append {front : List UInt8} (even : front.length % 2 = 0) (back : List UInt8) :
    words (front ++ back) = words front ++ words back := by
  fun_induction words front with
  | case1 high low rest ih =>
    rw [List.length_cons, List.length_cons] at even
    rw [List.cons_append, List.cons_append, words, ih (by omega), List.cons_append]
  | case2 high => exact absurd even (by simp)
  | case3 => rfl

theorem foldCarries_folds (sum : Nat) : OnesComplement.Folds 0xFFFF sum (foldCarries sum) := by
  fun_induction foldCarries sum with
  | case1 sum small => exact OnesComplement.folds_small (by omega)
  | case2 sum carries ih =>
    refine ⟨ih.bound, ih.congruent.trans ?_, ih.zero.trans (by omega)⟩
    unfold Nat.ModEq
    omega

theorem checksum_toNat (bytes : List UInt8) : (checksum bytes).toNat = 0xFFFF - foldCarries (wordSum bytes) := by
  have bound := (foldCarries_folds (wordSum bytes)).bound
  rw [checksum, UInt16.toNat_not, UInt16.toNat_ofNat', Nat.mod_eq_of_lt (by omega)]
  rfl

theorem be16_bytes (word : UInt16) : be16 (highByte word) word.toUInt8 = word := by
  have bound := word.toNat_lt
  have high : (highByte word).toNat = word.toNat / 256 := by
    rw [highByte, UInt16.toNat_toUInt8, UInt16.toNat_shiftRight, (by decide : (8 : UInt16).toNat % 16 = 8),
      Nat.shiftRight_eq_div_pow]
    omega
  have low : word.toUInt8.toNat = word.toNat % 256 := UInt16.toNat_toUInt8 word
  rw [← UInt16.toNat_inj, be16_toNat, high, low]
  omega

/-- A checksum at an even place, computed while it was zero, verifies. -/
theorem checksum_verifies {front : List UInt8} (even : front.length % 2 = 0) (back : List UInt8) :
    Verifies (front ++ [highByte (checksum (front ++ [0, 0] ++ back)), (checksum (front ++ [0, 0] ++ back)).toUInt8] ++
      back) := by
  have pair (high low : UInt8) : words (front ++ [high, low] ++ back) =
      words front ++ (be16 high low).toNat :: words back := by
    rw [List.append_assoc, words_append even]
    rfl
  have empty : wordSum (front ++ [0, 0] ++ back) = (words front).sum + (words back).sum := by
    rw [wordSum_eq, pair, List.sum_append, List.sum_cons]
    exact congrArg _ (Nat.zero_add _)
  have completed := (foldCarries_folds (wordSum (front ++ [0, 0] ++ back))).completed (by omega)
  have added := OnesComplement.folds_sum (@words_small (front ++
    [highByte (checksum (front ++ [0, 0] ++ back)), (checksum (front ++ [0, 0] ++ back)).toUInt8] ++ back))
  have total : (words (front ++ [highByte (checksum (front ++ [0, 0] ++ back)),
      (checksum (front ++ [0, 0] ++ back)).toUInt8] ++ back)).sum =
      wordSum (front ++ [0, 0] ++ back) + (0xFFFF - foldCarries (wordSum (front ++ [0, 0] ++ back))) := by
    rw [pair, be16_bytes, checksum_toNat, List.sum_append, List.sum_cons, empty]
    omega
  rw [total] at added
  exact added.unique completed

/-! ## The reply to a request without IP options -/

def checksumBytes (bytes : List UInt8) : List UInt8 := [highByte (checksum bytes), (checksum bytes).toUInt8]

def ipFront : List UInt8 := [0x45, 0, 0, 40, 0, 0, 0x40, 0, 64, 6]

def segmentFront (tcpSrcPort tcpDstPort ack : List UInt8) : List UInt8 :=
  tcpSrcPort ++ tcpDstPort ++ [0x10, 0, 0, 0] ++ ack ++ [0x50, 0x12, 0xFF, 0xFF]

/-- The frame of 54 bytes, from its own fields. -/
def synackFrame (ethDst ethSrc ipSrc ipDst tcpSrcPort tcpDstPort ack : List UInt8) : List UInt8 :=
  ethDst ++ ethSrc ++ [0x08, 0x00] ++
    (ipFront ++ checksumBytes (ipFront ++ [0, 0] ++ (ipSrc ++ ipDst)) ++ (ipSrc ++ ipDst)) ++
    (segmentFront tcpSrcPort tcpDstPort ack ++
      checksumBytes (ipSrc ++ ipDst ++ [0, 6, 0, 20] ++ segmentFront tcpSrcPort tcpDstPort ack ++ [0, 0] ++ [0, 0]) ++
      [0, 0])

theorem exists_six {α : Type} {l : List α} (length : l.length = 6) : ∃ a b c d e f, l = [a, b, c, d, e, f] := by
  have front : (l.take 2).length = 2 := by rw [List.length_take, length]; rfl
  have back : (l.drop 2).length = 4 := by rw [List.length_drop, length]
  obtain ⟨a, b, first⟩ := List.length_eq_two.mp front
  obtain ⟨c, d, e, f, last⟩ := List.length_eq_four.mp back
  refine ⟨a, b, c, d, e, f, ?_⟩
  rw [← List.take_append_drop 2 l, first, last]
  rfl

theorem length_field {frame : List UInt8} {start length : Nat} (inside : start + length ≤ frame.length) :
    (field frame start length).length = length := by
  rw [field, List.length_take, List.length_drop]
  omega

theorem number_append (bytes : List UInt8) (byte : UInt8) :
    number (bytes ++ [byte]) = number bytes * 256 + byte.toNat := by
  rw [number, List.foldl_append]
  rfl

theorem number_reverse_bytesLE (width value : Nat) :
    number (Memory.bytesLE width value).reverse = value % 256 ^ width := by
  induction width generalizing value with
  | zero => rw [Nat.pow_zero, Nat.mod_one]; rfl
  | succ width ih =>
    rw [Memory.bytesLE, List.reverse_cons, number_append, ih, UInt8.toNat_ofNat']
    have split : value % 256 ^ (width + 1) = value % 256 + 256 * (value / 256 % 256 ^ width) := by
      rw [Nat.pow_succ']
      exact Nat.mod_mul
    omega

section Reply
variable {ethDst ethSrc ipSrc ipDst tcpSrcPort tcpDstPort : List UInt8}

/-- Writing where the frame is still blank. -/
theorem setBytes_next {front part : List UInt8} {start blank : Nat} (rest : Nat) (length : front.length = start)
    (fits : part.length + rest = blank) :
    setBytes (front ++ List.replicate blank 0) start part = some (front ++ part ++ List.replicate rest 0) := by
  subst length fits
  rw [setBytes, if_pos (by simp), List.take_left, List.drop_append, List.drop_replicate,
    List.drop_of_length_le (Nat.le_add_right ..), Nat.add_sub_cancel_left, Nat.add_sub_cancel_left, List.nil_append]

/-- Writing over some bytes inside. -/
theorem setBytes_over {front old back part : List UInt8} {start : Nat} (length : front.length = start)
    (same : old.length = part.length) :
    setBytes (front ++ old ++ back) start part = some (front ++ part ++ back) := by
  subst length
  rw [setBytes, if_pos (by simp [same]), ← same, ← List.length_append, List.drop_left, List.append_assoc front old,
    List.take_left]

theorem slice_inside {front part back : List UInt8} {start stop : Nat} (length : front.length = start)
    (ends : start + part.length = stop) : slice (front ++ part ++ back) start stop = some part := by
  subst length ends
  rw [slice, if_pos (by simp), ← List.length_append, List.take_left, List.drop_left]

/-- The IP header is written behind the Ethernet header, and the work goes on. -/
theorem ipHeader_written {eth addresses : List UInt8} (ethLength : eth.length = 14) (length : addresses.length = 8)
    (next : List UInt8 → Option (List UInt8)) :
    (do
      let reply ← setBytes (eth ++ List.replicate 40 0) 14 (ipFront ++ [0, 0])
      let reply ← setBytes reply 26 addresses
      let ipCsum := checksum (← slice reply 14 34)
      let reply ← setBytes reply 24 [highByte ipCsum, ipCsum.toUInt8]
      next reply) =
    next (eth ++ (ipFront ++ checksumBytes (ipFront ++ [0, 0] ++ addresses)) ++ addresses ++
      List.replicate 20 0) := by
  have blank : slice (eth ++ (ipFront ++ [0, 0]) ++ addresses ++ List.replicate 20 0) 14 34 =
      some (ipFront ++ [0, 0] ++ addresses) := by
    rw [List.append_assoc eth]
    exact slice_inside ethLength (by simp [length, ipFront])
  have overwritten : setBytes (eth ++ (ipFront ++ [0, 0]) ++ addresses ++ List.replicate 20 0) 24
      (checksumBytes (ipFront ++ [0, 0] ++ addresses)) = some (eth ++ ipFront ++
        checksumBytes (ipFront ++ [0, 0] ++ addresses) ++ (addresses ++ List.replicate 20 0)) := by
    rw [← List.append_assoc eth, List.append_assoc _ addresses]
    exact setBytes_over (by simp [ethLength, ipFront]) rfl
  rw [setBytes_next 28 ethLength (by rfl), some_then, setBytes_next 20 (by simp [ethLength, ipFront])
    (by simp [length]), some_then, blank, some_then]
  refine (congrArg (· >>= next) overwritten).trans ?_
  rw [some_then]
  simp only [List.append_assoc]

/-- The segment is written behind the IP header. -/
theorem segment_written {front src dst tcpSrcPort tcpDstPort ack : List UInt8} (frontLength : front.length = 26)
    (srcLength : src.length = 4) (dstLength : dst.length = 4) (srcPortLength : tcpSrcPort.length = 2)
    (dstPortLength : tcpDstPort.length = 2) (ackLength : ack.length = 4) :
    (do
      let reply ← setBytes (front ++ (src ++ dst) ++ List.replicate 20 0) 34 (tcpSrcPort ++ tcpDstPort)
      let reply ← setBytes reply (34 + 4) [0x10, 0, 0, 0]
      let reply ← setBytes reply (34 + 8) ack
      let reply ← setBytes reply (34 + 12) [0x50, 0x12, 0xFF, 0xFF, 0, 0, 0, 0]
      let tcpHeader ← slice reply 34 (34 + 20)
      let tcpBuf := (← slice reply 26 30) ++ (← slice reply 30 34) ++ [0, 6, 0, 20] ++ tcpHeader
      let tcpCsum := checksum tcpBuf
      setBytes reply (34 + 16) [highByte tcpCsum, tcpCsum.toUInt8]) =
    some (front ++ (src ++ dst) ++ (segmentFront tcpSrcPort tcpDstPort ack ++ checksumBytes (src ++ dst ++
      [0, 6, 0, 20] ++ segmentFront tcpSrcPort tcpDstPort ack ++ [0, 0] ++ [0, 0]) ++ [0, 0])) := by
  rw [setBytes_next 16 (by simp [*]) (by simp [*]), some_then, setBytes_next 12 (by simp [*]) (by rfl), some_then,
    setBytes_next 8 (by simp [*]) (by simp [*]), some_then, setBytes_next 0 (by simp [*]) (by rfl), some_then]
  have shape : front ++ (src ++ dst) ++ (tcpSrcPort ++ tcpDstPort) ++ [0x10, 0, 0, 0] ++ ack ++
      [0x50, 0x12, 0xFF, 0xFF, 0, 0, 0, 0] ++ List.replicate 0 0 = front ++ (src ++ dst) ++
        (segmentFront tcpSrcPort tcpDstPort ack ++ [0, 0] ++ [0, 0]) := by
    simp [segmentFront]
  have segmentLength : (segmentFront tcpSrcPort tcpDstPort ack).length = 16 := by simp [segmentFront, *]
  have segment : slice (front ++ (src ++ dst) ++ (segmentFront tcpSrcPort tcpDstPort ack ++ [0, 0] ++ [0, 0])) 34
      (34 + 20) = some (segmentFront tcpSrcPort tcpDstPort ack ++ [0, 0] ++ [0, 0]) := by
    have ends := @slice_inside (front ++ (src ++ dst)) (segmentFront tcpSrcPort tcpDstPort ack ++ [0, 0] ++ [0, 0]) []
      34 (34 + 20) (by simp [*]) (by simp [*])
    rwa [List.append_nil] at ends
  have source : slice (front ++ (src ++ dst) ++ (segmentFront tcpSrcPort tcpDstPort ack ++ [0, 0] ++ [0, 0])) 26 30 =
      some src := by
    rw [← List.append_assoc front, List.append_assoc _ dst]
    exact slice_inside frontLength (by simp [*])
  have target : slice (front ++ (src ++ dst) ++ (segmentFront tcpSrcPort tcpDstPort ack ++ [0, 0] ++ [0, 0])) 30 34 =
      some dst := by
    rw [← List.append_assoc front]
    exact slice_inside (by simp [*]) (by simp [*])
  have overwritten (pair : List UInt8) (two : pair.length = 2) :
      setBytes (front ++ (src ++ dst) ++ (segmentFront tcpSrcPort tcpDstPort ack ++ [0, 0] ++ [0, 0])) (34 + 16) pair =
        some (front ++ (src ++ dst) ++ segmentFront tcpSrcPort tcpDstPort ack ++ pair ++ [0, 0]) := by
    rw [← List.append_assoc, ← List.append_assoc]
    exact setBytes_over (by simp [*]) two.symm
  rw [shape, segment, some_then, source, some_then, target, some_then]
  refine (overwritten _ rfl).trans ?_
  simp only [checksumBytes, List.append_assoc]

theorem synackReply_eq (ackSeq : Nat) (ethDstLength : ethDst.length = 6) (ethSrcLength : ethSrc.length = 6)
    (ipSrcLength : ipSrc.length = 4) (ipDstLength : ipDst.length = 4) (srcLength : tcpSrcPort.length = 2)
    (dstLength : tcpDstPort.length = 2) :
    synackReply 34 ethDst ethSrc ipSrc ipDst tcpSrcPort tcpDstPort ackSeq =
      some (synackFrame ethSrc ethDst ipDst ipSrc tcpDstPort tcpSrcPort (Memory.bytesLE 4 ackSeq).reverse) := by
  have ethLength : (ethSrc ++ ethDst ++ [0x08, 0x00]).length = 14 := by simp [*]
  have header : (ethSrc ++ ethDst ++ [0x08, 0x00] ++ (ipFront ++ checksumBytes (ipFront ++ [0, 0] ++
      (ipDst ++ ipSrc)))).length = 26 := by
    simp [ipFront, checksumBytes, *]
  simp only [synackReply]
  rw [← List.nil_append (List.replicate 54 0), setBytes_next 40 (by rfl) (by simp [*]), some_then, List.nil_append]
  refine (ipHeader_written ethLength (by simp [*]) _).trans ?_
  refine (segment_written header ipDstLength ipSrcLength dstLength srcLength (by simp)).trans ?_
  simp only [synackFrame, List.append_assoc]

theorem setBytes_some {bytes part next : List UInt8} {start : Nat} (written : setBytes bytes start part = some next) :
    start + part.length ≤ bytes.length ∧ next.length = bytes.length := by
  unfold setBytes at written
  split at written
  · rename_i fits
    obtain rfl := Option.some.inj written
    refine ⟨fits, ?_⟩
    simp only [List.length_append, List.length_take, List.length_drop]
    omega
  · cases written

/-- Behind an IP header with options there is no room for the TCP header. -/
theorem synackReply_none {tcpOff ackSeq : Nat} (options : 34 < tcpOff) :
    synackReply tcpOff ethDst ethSrc ipSrc ipDst tcpSrcPort tcpDstPort ackSeq = none := by
  by_contra crafted
  obtain ⟨reply, crafted⟩ := Option.ne_none_iff_exists'.mp crafted
  simp only [synackReply, Option.bind_eq_bind, Option.bind_eq_some_iff] at crafted
  obtain ⟨_, blank, _, ethernet, _, addresses, _, _, _, checked, _, ports, _, seq, _, ack, _, rest, -⟩ := crafted
  have last := (setBytes_some rest).1
  rw [(setBytes_some ack).2, (setBytes_some seq).2, (setBytes_some ports).2, (setBytes_some checked).2,
    (setBytes_some addresses).2, (setBytes_some ethernet).2, (setBytes_some blank).2, List.length_replicate] at last
  simp only [List.length_cons, List.length_nil] at last
  omega

end Reply

theorem synackFrame_answers {frame : List UInt8} (request : SynRequest frame) :
    Answers frame (synackFrame (field frame 6 6) (field frame 0 6) (field frame 30 4) (field frame 26 4)
      (dstPort frame) (srcPort frame) (Memory.bytesLE 4 (number (seqNumber frame) + 1)).reverse) := by
  have room := request.room
  have header := request.header
  have start : tcpOffset frame = 14 + ihl frame * 4 := rfl
  have cut {start length : Nat} (inside : start + length ≤ frame.length) := @length_field frame start length inside
  obtain ⟨_, _, _, _, _, _, ethDst⟩ := exists_six (cut (show 0 + 6 ≤ _ by omega))
  obtain ⟨_, _, _, _, _, _, ethSrc⟩ := exists_six (cut (show 6 + 6 ≤ _ by omega))
  obtain ⟨s₀, s₁, s₂, s₃, ipSrc⟩ := List.length_eq_four.mp (cut (show 26 + 4 ≤ _ by omega))
  obtain ⟨d₀, d₁, d₂, d₃, ipDst⟩ := List.length_eq_four.mp (cut (show 30 + 4 ≤ _ by omega))
  obtain ⟨p, p', tcpSrc⟩ := List.length_eq_two.mp (cut (show tcpOffset frame + 2 ≤ _ by omega))
  obtain ⟨q, q', tcpDst⟩ := List.length_eq_two.mp (cut (show tcpOffset frame + 2 + 2 ≤ _ by omega))
  have acknowledged := number_reverse_bytesLE 4 (number (seqNumber frame) + 1)
  have ackLength : (Memory.bytesLE 4 (number (seqNumber frame) + 1)).reverse.length = 4 := by simp
  generalize (Memory.bytesLE 4 (number (seqNumber frame) + 1)).reverse = ack at acknowledged ackLength
  obtain ⟨a₀, a₁, a₂, a₃, rfl⟩ := List.length_eq_four.mp ackLength
  rw [srcPort, dstPort, ethDst, ethSrc, ipSrc, ipDst, tcpSrc, tcpDst]
  generalize shape : synackFrame _ _ _ _ _ _ _ = reply
  have byte14 : octet reply 14 = 0x45 := by rw [← shape]; rfl
  have byte16 : octet reply 16 = 0 := by rw [← shape]; rfl
  have byte17 : octet reply 17 = 40 := by rw [← shape]; rfl
  have byte46 : octet reply 46 = 0x50 := by rw [← shape]; rfl
  have length : reply.length = 54 := by rw [← shape]; rfl
  have words' : ihl reply = 5 := by rw [ihl, byte14]; rfl
  have offset : tcpOffset reply = 34 := by rw [tcpOffset, words']
  constructor
  · exact ⟨by rw [ethSrc, ← shape]; rfl, by rw [ethDst, ← shape]; rfl⟩
  · exact ⟨by rw [← shape]; rfl, by rw [← shape]; rfl, by rw [byte14]; rfl, by rw [← shape]; rfl⟩
  · exact ⟨by rw [ipDst, ← shape]; rfl, by rw [ipSrc, ← shape]; rfl⟩
  · rw [srcPort, dstPort, dstPort, srcPort, offset, tcpSrc, tcpDst, ← shape]
    exact ⟨rfl, rfl⟩
  · rw [ackNumber, offset, ← shape]
    exact acknowledged
  · rw [tcpFlags, offset, ← shape]
    rfl
  · rw [ipTotal, length, byte16, byte17]
    rfl
  · rw [offset, length, byte46]
    rfl
  · rw [words', ← shape]
    exact @checksum_verifies ipFront rfl _
  · have source : field reply 26 4 = [d₀, d₁, d₂, d₃] := by rw [← shape]; rfl
    have target : field reply 30 4 = [s₀, s₁, s₂, s₃] := by rw [← shape]; rfl
    have protocol : octet reply 23 = 6 := by rw [← shape]; rfl
    have pseudo : pseudoHeader reply 20 = [d₀, d₁, d₂, d₃] ++ [s₀, s₁, s₂, s₃] ++ [0, 6, 0, 20] := by
      rw [pseudoHeader, source, target, protocol]
      rfl
    have segment : reply.drop 34 = segmentFront [q, q'] [p, p'] [a₀, a₁, a₂, a₃] ++ checksumBytes ([d₀, d₁, d₂, d₃] ++
        [s₀, s₁, s₂, s₃] ++ [0, 6, 0, 20] ++ segmentFront [q, q'] [p, p'] [a₀, a₁, a₂, a₃] ++ [0, 0] ++ [0, 0]) ++
        [0, 0] := by
      rw [← shape, synackFrame]
      exact List.drop_left' rfl
    have verifies := @checksum_verifies ([d₀, d₁, d₂, d₃] ++ [s₀, s₁, s₂, s₃] ++ [0, 6, 0, 20] ++
      segmentFront [q, q'] [p, p'] [a₀, a₁, a₂, a₃]) (by simp [segmentFront]) [0, 0]
    rw [offset, length, segment, pseudo, ← List.append_assoc, ← List.append_assoc]
    exact verifies

/-- The device answers a SYN without IP options. -/
theorem craftSynack_plain {frame : List UInt8} (request : SynRequest frame) (plain : ihl frame = 5) :
    ∃ reply, craftSynack frame = some (some reply) ∧ Answers frame reply := by
  have room := request.room
  have start : tcpOffset frame = 14 + ihl frame * 4 := rfl
  have offset : tcpOffset frame = 34 := by omega
  rcases craftSynack_cases frame with ⟨other, -⟩ | ⟨-, crafted⟩
  · exact absurd request other
  refine ⟨_, ?_, synackFrame_answers request⟩
  rw [crafted, offset, synackReply_eq (number (seqNumber frame) + 1)]
  · rfl
  all_goals exact length_field (by omega)

/-- The header of a SYN is written behind the 54 bytes of the reply exactly if
there are IP options in front of it. -/
theorem craftSynack_none_iff {frame : List UInt8} : craftSynack frame = none ↔ SynRequest frame ∧ 5 < ihl frame := by
  have start : tcpOffset frame = 14 + ihl frame * 4 := rfl
  rcases craftSynack_cases frame with ⟨other, ignored⟩ | ⟨request, crafted⟩
  · rw [ignored]
    exact ⟨nofun, fun options => absurd options.1 other⟩
  · constructor
    · intro panics
      have header := request.header
      refine ⟨request, ?_⟩
      by_contra plain
      obtain ⟨reply, answered, -⟩ := craftSynack_plain request (by omega)
      rw [panics] at answered
      cases answered
    · rintro ⟨-, options⟩
      rw [crafted, synackReply_none (by omega)]
      rfl

/-- Whatever the device answers with is an answer. -/
theorem craftSynack_some {frame reply : List UInt8} (crafted : craftSynack frame = some (some reply)) :
    Answers frame reply := by
  rcases craftSynack_cases frame with ⟨-, ignored⟩ | ⟨request, -⟩
  · rw [ignored] at crafted
    cases crafted
  · have header := request.header
    by_cases plain : ihl frame = 5
    · obtain ⟨other, answered, answers⟩ := craftSynack_plain request plain
      rw [crafted] at answered
      cases answered
      exact answers
    · rw [craftSynack_none_iff.mpr ⟨request, by omega⟩] at crafted
      cases crafted

/-- A SYN is answered as it should be exactly if its IP header has no options. -/
theorem synack_answers_iff {frame : List UInt8} (request : SynRequest frame) :
    (∃ reply, craftSynack frame = some (some reply) ∧ Answers frame reply) ↔ ihl frame = 5 := by
  have header := request.header
  constructor
  · rintro ⟨reply, answered, -⟩
    by_contra other
    rw [craftSynack_none_iff.mpr ⟨request, by omega⟩] at answered
    cases answered
  · exact craftSynack_plain request

/-- A SYN to port 80 with the last sequence number, and with some IP options. -/
def synSample (options : List UInt8) : List UInt8 :=
  [0x52, 0x54, 0, 0x12, 0x34, 0x56] ++ [0x52, 0x54, 0, 1, 2, 3] ++ [0x08, 0x00] ++
    [0x45 + .ofNat (options.length / 4), 0, 0, 40 + .ofNat options.length, 0, 0, 0, 0, 64, 6, 0, 0] ++
    [10, 0, 2, 15] ++ [93, 184, 216, 34] ++ options ++
    [0xC0, 0x01, 0, 80, 0xFF, 0xFF, 0xFF, 0xFF, 0, 0, 0, 0, 0x50, 0x02, 0xFF, 0xFF, 0, 0, 0, 0]

theorem plain_syn_is_answered :
    ∃ reply, craftSynack (synSample []) = some (some reply) ∧ Answers (synSample []) reply :=
  (synack_answers_iff ⟨by decide, by decide, by decide, by decide, by decide, by decide, by decide⟩).mpr (by decide)

/-- A SYN with four bytes of IP options has no answer. -/
theorem syn_with_options_is_not_answered : ¬ ∀ frame, SynRequest frame →
    ∃ reply, craftSynack frame = some (some reply) ∧ Answers frame reply := by
  intro answers
  have request : SynRequest (synSample [1, 1, 1, 1]) :=
    ⟨by decide, by decide, by decide, by decide, by decide, by decide, by decide⟩
  obtain ⟨reply, answered, -⟩ := answers _ request
  rw [craftSynack_none_iff.mpr ⟨request, by decide⟩] at answered
  cases answered

end TinyMachine.VirtioNet
