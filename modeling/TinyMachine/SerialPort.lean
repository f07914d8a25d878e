import TinyMachine.Lib.Flags
import TinyMachine.Lib.LossyQueue
import TinyMachine.Lib.Runs

/-! The emulated UART of `serial.rs`, whose status bits are copies of what its
two buffers hold. -/
namespace TinyMachine
open Lib

inductive SerialError where
  | bufferFull
  | noData
  deriving DecidableEq, Repr

def SerialError.display : SerialError → String
  | .bufferFull => "Serial buffer full"
  | .noData => "No data available"

/-- `rxBuffer` goes from the guest to the host, `txBuffer` the other way. -/
structure SerialPort where
  rxBuffer : List UInt8
  txBuffer : List UInt8
  maxSize : UInt64
  lineStatus : UInt8
  deriving DecidableEq, Repr

namespace SerialPort

def lsrDataReady : UInt8 := 0x01
def lsrTxEmpty : UInt8 := 0x20

/-- A buffer of more bytes than `isize` counts cannot be reserved: a panic. -/
def new (maxSize : UInt64) : Option SerialPort :=
  if maxSize < 0x8000000000000000 then some ⟨[], [], maxSize, lsrTxEmpty⟩ else none

def guestWrite (port : SerialPort) (byte : UInt8) : SerialPort :=
  { port with
    rxBuffer := pushDropping port.maxSize.toNat port.rxBuffer byte
    lineStatus := port.lineStatus ||| lsrDataReady }

def guestReadLsr (port : SerialPort) : UInt8 := port.lineStatus

def guestRead (port : SerialPort) : Except SerialError UInt8 × SerialPort :=
  match port.txBuffer with
  | [] => (.error .noData, port)
  | byte :: rest =>
    (.ok byte,
      { port with
        txBuffer := rest
        lineStatus := if rest = [] then port.lineStatus ||| lsrTxEmpty else port.lineStatus })

/-- After the drain the buffer is empty, and the source looks again. -/
def hostReadAll (port : SerialPort) : List UInt8 × SerialPort :=
  (port.rxBuffer, { port with rxBuffer := [], lineStatus := port.lineStatus &&& ~~~lsrDataReady })

/-- The bit is cleared also when there are no data. -/
def hostWrite (port : SerialPort) (data : List UInt8) : SerialPort :=
  { port with
    txBuffer := data.foldl (pushDropping port.maxSize.toNat) port.txBuffer
    lineStatus := port.lineStatus &&& ~~~lsrTxEmpty }

def reset (port : SerialPort) : SerialPort :=
  { port with rxBuffer := [], txBuffer := [], lineStatus := lsrTxEmpty }

inductive Operation where
  | guestWrite (byte : UInt8)
  | guestRead
  | hostReadAll
  | hostWrite (data : List UInt8)
  | reset
  deriving DecidableEq, Repr

def apply (port : SerialPort) : Operation → SerialPort
  | .guestWrite byte => port.guestWrite byte
  | .guestRead => port.guestRead.2
  | .hostReadAll => port.hostReadAll.2
  | .hostWrite data => port.hostWrite data
  | .reset => port.reset

def run (port : SerialPort) (ops : List Operation) : SerialPort := ops.foldl apply port

/-! ## What was written and not yet read -/

def Operation.forHost (unread : List UInt8) : Operation → List UInt8
  | .guestWrite byte => unread ++ [byte]
  | .hostReadAll | .reset => []
  | .guestRead | .hostWrite _ => unread

/-- The byte that is read is the first of those still held; what is unread then
is what was written after it. -/
def Operation.forGuest (maxSize : UInt64) (unread : List UInt8) : Operation → List UInt8
  | .hostWrite data => unread ++ data
  | .guestRead => (unread.rtake maxSize.toNat).tail
  | .reset => []
  | .guestWrite _ | .hostReadAll => unread

def unreadByHost (past : List Operation) : List UInt8 := past.foldl Operation.forHost []

def unreadByGuest (maxSize : UInt64) (past : List Operation) : List UInt8 :=
  past.foldl (Operation.forGuest maxSize) []

/-- The state of the port, against what has happened to it. -/
structure Faithful (maxSize : UInt64) (past : List Operation) (port : SerialPort) : Prop where
  dataReady : flagged port.guestReadLsr lsrDataReady ↔ port.rxBuffer ≠ []
  txEmpty : flagged port.guestReadLsr lsrTxEmpty ↔ port.txBuffer = []
  rxBound : port.rxBuffer.length ≤ maxSize.toNat
  txBound : port.txBuffer.length ≤ maxSize.toNat
  rx : port.rxBuffer = (unreadByHost past).rtake maxSize.toNat
  tx : port.txBuffer = (unreadByGuest maxSize past).rtake maxSize.toNat

/-- A byte needs a buffer of some size, and a write of no bytes a buffer that is
not empty. -/
def Admits (port : SerialPort) : Operation → Prop
  | .guestWrite _ => 0 < port.maxSize
  | .hostWrite data => if data = [] then port.txBuffer ≠ [] else 0 < port.maxSize
  | .guestRead | .hostReadAll | .reset => True

/-! ## One call -/

section Steps
variable {maxSize : UInt64} {past : List Operation} {port : SerialPort} {byte : UInt8} {data : List UInt8}

@[simp] theorem unreadByHost_concat (op : Operation) :
    unreadByHost (past ++ [op]) = op.forHost (unreadByHost past) := by
  rw [unreadByHost, List.foldl_append]
  rfl

@[simp] theorem unreadByGuest_concat (op : Operation) :
    unreadByGuest maxSize (past ++ [op]) = op.forGuest maxSize (unreadByGuest maxSize past) := by
  rw [unreadByGuest, List.foldl_append]
  rfl

@[simp] theorem run_concat (op : Operation) : port.run (past ++ [op]) = (port.run past).apply op := by
  rw [run, List.foldl_append]
  rfl

private theorem within {line buffer : List UInt8} (isEnd : buffer = line.rtake maxSize.toNat) :
    buffer.length ≤ maxSize.toNat := by
  rw [isEnd, length_rtake]
  exact Nat.min_le_left ..

/-- A buffer that holds something within its bound has room for something. -/
private theorem room_of_held {buffer : List UInt8} (some : buffer ≠ []) (bound : buffer.length ≤ maxSize.toNat) :
    0 < maxSize :=
  UInt64.lt_iff_toNat_lt.mpr (Nat.lt_of_lt_of_le (List.length_pos_of_ne_nil some) bound)

private theorem room_toNat (room : 0 < maxSize) : 0 < maxSize.toNat := UInt64.lt_iff_toNat_lt.mp room

theorem maxSize_apply (op : Operation) : (port.apply op).maxSize = port.maxSize := by
  cases op with
  | guestRead =>
    simp only [apply, guestRead]
    split <;> rfl
  | _ => rfl

theorem maxSize_run : (port.run past).maxSize = port.maxSize := by
  induction past using List.reverseRecOn with
  | nil => rfl
  | append_singleton past op ih => rw [run_concat, maxSize_apply, ih]

theorem guestWrite_iff (held : Faithful maxSize past port) (size : port.maxSize = maxSize) :
    Faithful maxSize (past ++ [.guestWrite byte]) (port.guestWrite byte) ↔ 0 < maxSize := by
  constructor
  · intro after
    exact room_of_held (pushDropping_ne_nil _ _ _) after.rxBound
  · intro room
    have rx : (port.guestWrite byte).rxBuffer = (unreadByHost past ++ [byte]).rtake maxSize.toNat := by
      rw [guestWrite, size, held.rx, pushDropping_rtake (room_toNat room)]
    exact {
      dataReady := iff_of_true (flagged_set _ (by decide)) (pushDropping_ne_nil _ _ _)
      txEmpty := (flagged_set_other _ (by decide)).trans held.txEmpty
      rxBound := within rx
      txBound := held.txBound
      rx := by rw [rx, unreadByHost_concat, Operation.forHost]
      tx := by rw [unreadByGuest_concat]; exact held.tx }

theorem guestRead_holds (held : Faithful maxSize past port) :
    Faithful maxSize (past ++ [.guestRead]) port.guestRead.2 := by
  have tail : port.txBuffer.tail = (unreadByGuest maxSize (past ++ [.guestRead])).rtake maxSize.toNat := by
    rw [unreadByGuest_concat, Operation.forGuest, rtake_tail_rtake, held.tx]
  have rx : port.rxBuffer = (unreadByHost (past ++ [.guestRead])).rtake maxSize.toNat := by
    rw [unreadByHost_concat]
    exact held.rx
  cases shape : port.txBuffer with
  | nil =>
    rw [shape, List.tail_nil] at tail
    rw [guestRead, shape]
    exact { held with rx := rx, tx := shape.trans tail }
  | cons byte rest =>
    rw [shape, List.tail_cons] at tail
    rw [guestRead, shape]
    by_cases last : rest = []
    · exact {
        dataReady := by
          simp only [guestReadLsr, last, if_true]
          exact (flagged_set_other _ (by decide)).trans held.dataReady
        txEmpty := by
          simp only [guestReadLsr, last, if_true]
          exact iff_of_true (flagged_set _ (by decide)) trivial
        rxBound := held.rxBound
        txBound := within tail
        rx := rx
        tx := tail }
    · have waiting : ¬ flagged port.lineStatus lsrTxEmpty := fun empty => by
        simpa [shape] using held.txEmpty.mp empty
      exact {
        dataReady := by
          simp only [guestReadLsr, last, if_false]
          exact held.dataReady
        txEmpty := by
          simp only [guestReadLsr, last, if_false]
          exact iff_of_false waiting id
        rxBound := held.rxBound
        txBound := within tail
        rx := rx
        tx := tail }

theorem hostReadAll_holds (held : Faithful maxSize past port) :
    Faithful maxSize (past ++ [.hostReadAll]) port.hostReadAll.2 where
  dataReady := iff_of_false (not_flagged_clear _) (fun more => more rfl)
  txEmpty := (flagged_clear_other _ (by decide)).trans held.txEmpty
  rxBound := Nat.zero_le _
  txBound := held.txBound
  rx := by rw [unreadByHost_concat]; exact (List.rtake_nil _).symm
  tx := by rw [unreadByGuest_concat]; exact held.tx

/-- What a write of the host does when it leaves something to be read. -/
private theorem hostWrite_holds (held : Faithful maxSize past port) (left : (port.hostWrite data).txBuffer ≠ [])
    (tx : (port.hostWrite data).txBuffer = (unreadByGuest maxSize past ++ data).rtake maxSize.toNat) :
    Faithful maxSize (past ++ [.hostWrite data]) (port.hostWrite data) where
  dataReady := (flagged_clear_other _ (by decide)).trans held.dataReady
  txEmpty := iff_of_false (not_flagged_clear _) left
  rxBound := held.rxBound
  txBound := within tx
  rx := by rw [unreadByHost_concat]; exact held.rx
  tx := by rw [tx, unreadByGuest_concat, Operation.forGuest]

theorem hostWrite_iff (held : Faithful maxSize past port) (size : port.maxSize = maxSize) :
    Faithful maxSize (past ++ [.hostWrite data]) (port.hostWrite data) ↔
      if data = [] then port.txBuffer ≠ [] else 0 < maxSize := by
  by_cases none : data = []
  · rw [if_pos none, none]
    constructor
    · intro after empty
      exact not_flagged_clear _ (after.txEmpty.mpr empty)
    · intro left
      exact hostWrite_holds held left (by rw [List.append_nil]; exact held.tx)
  · rw [if_neg none]
    have left : (port.hostWrite data).txBuffer ≠ [] := foldl_pushDropping_ne_nil (.inr none)
    constructor
    · intro after
      exact room_of_held left after.txBound
    · intro room
      refine hostWrite_holds held left ?_
      rw [hostWrite, size, held.tx, foldl_pushDropping_rtake (room_toNat room)]

theorem reset_holds : Faithful maxSize (past ++ [.reset]) port.reset where
  dataReady := by simp only [flagged, reset, guestReadLsr, lsrDataReady, lsrTxEmpty]; decide
  txEmpty := by simp [flagged, reset, guestReadLsr, lsrTxEmpty]
  rxBound := Nat.zero_le _
  txBound := Nat.zero_le _
  rx := by rw [unreadByHost_concat]; exact (List.rtake_nil _).symm
  tx := by rw [unreadByGuest_concat]; exact (List.rtake_nil _).symm

theorem apply_iff (held : Faithful maxSize past port) (size : port.maxSize = maxSize) (op : Operation) :
    Faithful maxSize (past ++ [op]) (port.apply op) ↔ port.Admits op := by
  cases op with
  | guestWrite byte => rw [Admits, size]; exact guestWrite_iff held size
  | guestRead => exact iff_of_true (guestRead_holds held) trivial
  | hostReadAll => exact iff_of_true (hostReadAll_holds held) trivial
  | hostWrite data => rw [Admits, size]; exact hostWrite_iff held size
  | reset => exact iff_of_true reset_holds trivial

theorem new_holds (made : new maxSize = some port) : Faithful maxSize [] port := by
  rw [new, Option.ite_none_right_eq_some] at made
  obtain ⟨-, made⟩ := made
  rw [← Option.some.inj made]
  exact {
    dataReady := by simp only [flagged, guestReadLsr, lsrDataReady, lsrTxEmpty]; decide
    txEmpty := by simp [flagged, guestReadLsr, lsrTxEmpty]
    rxBound := Nat.zero_le _
    txBound := Nat.zero_le _
    rx := (List.rtake_nil _).symm
    tx := (List.rtake_nil _).symm }

theorem maxSize_new (made : new maxSize = some port) : port.maxSize = maxSize := by
  rw [new, Option.ite_none_right_eq_some] at made
  rw [← Option.some.inj made.2]

end Steps

/-! ## Runs -/

/-- The bits and the buffers say throughout a run what they should exactly when
every call of the run is one the port is made for. -/
theorem faithful_throughout_iff {maxSize : UInt64} {port : SerialPort} (made : new maxSize = some port)
    (ops : List Operation) :
    (∀ past, past <+: ops → Faithful maxSize past (port.run past)) ↔
      ∀ past op, past ++ [op] <+: ops → (port.run past).Admits op := by
  refine forall_prefix_iff (new_holds made) (fun past op held => ?_) ops
  rw [run_concat]
  exact apply_iff held (maxSize_run.trans (maxSize_new made)) op

theorem two_bytes_through_one :
    new 1 = some ⟨[], [], 1, lsrTxEmpty⟩ ∧ ∀ past, past <+: [Operation.guestWrite 1, .guestWrite 2] →
      Faithful 1 past (run ⟨[], [], 1, lsrTxEmpty⟩ past) := by
  have made : new 1 = some ⟨[], [], 1, lsrTxEmpty⟩ := by decide
  refine ⟨made, (faithful_throughout_iff made _).mpr ?_⟩
  rintro past op ⟨rest, shape⟩
  match past with
  | [] =>
    simp only [List.nil_append, List.cons_append, List.cons.injEq] at shape
    rw [shape.1, Admits, maxSize_run]
    decide
  | [first] =>
    simp only [List.nil_append, List.cons_append, List.cons.injEq] at shape
    rw [shape.2.1, Admits, maxSize_run]
    decide
  | first :: second :: more => simp at shape

/-- A write of no bytes ends the emptiness of an empty buffer. -/
theorem empty_write_is_signalled :
    new 1024 = some ⟨[], [], 1024, lsrTxEmpty⟩ ∧
      ¬ ∀ past, past <+: [Operation.hostWrite []] → Faithful 1024 past (run ⟨[], [], 1024, lsrTxEmpty⟩ past) := by
  refine ⟨by decide, fun throughout => ?_⟩
  have after := throughout _ (List.prefix_refl _)
  exact not_flagged_clear _ (after.txEmpty.mpr rfl)

end SerialPort
end TinyMachine
