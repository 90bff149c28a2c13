import Samrh71Drivers.Lib.Transition
import Samrh71Drivers.Lib.Loan
import Samrh71Drivers.Serial.Tx

/-!
# Reception in the serial driver

The poll task of one device with the UART it reads from. One label is one step of
`Samrh71RtemsSerialPoll` or one received byte; the RX interrupt preempts the task, so it
pushes its byte and calls `uartRxCallback` in one step. What the HAL makes of a byte that finds
the FIFO full is a parameter (`FullFifo`).

The task waits on one sticky event and arms the read once, before its loop. `quiet` is why
no byte is left behind: while the event is not pending and the task is not on its way from
the event to the FIFO, nothing the task is to be woken for is in the FIFO.

## Main definitions

* `RxHandler`, `initUartRxHandler` — which bytes wake the task in each mode.
* `FullFifo` — what comes of a byte for which there is no room.
* `State`, `pollStep`, `rxInterrupt`, `system` — the transition system.
* `RxStep` — the same steps, as an inversion principle.
* `RxInv` — the invariant.
* `rx_in_order` — nothing is lost, and no wake-up is lost.
-/

namespace Samrh71Drivers.Serial.Rx

open Transition Lending

/-- `Serial_SAMRH71_RTEMS_RECV_BUFFER_SIZE`, the size of `m_recv_buffer` and of the FIFO
laid over `m_fifo_memory_block`. -/
def recvBufferSize : ℕ := 256

/-- `Uart_RxHandler`; a callback is there when it is `uartRxCallback` and not `NULL`. -/
structure RxHandler where
  lengthCallback : Bool
  characterCallback : Bool
  targetCharacter : UInt8
  targetLength : ℕ
  deriving DecidableEq

def initUartRxHandlerForRawMode (mode : RawMode) (h : RxHandler) : RxHandler :=
  match mode with
  | .singleByte => { h with lengthCallback := true, characterCallback := false, targetLength := 1 }
  | .customEscapeByte byte => { h with
      lengthCallback := true
      characterCallback := true
      targetCharacter := byte
      targetLength := recvBufferSize / 2 }

/-- `initUartRxHandler` on `m_uart_rx_handler` as it was; `stopByte` is `STOP_BYTE`. -/
def initUartRxHandler (stopByte : UInt8) (c : Mode) (h : RxHandler) : RxHandler :=
  match c.packetizerMode with
  | .raw mode => initUartRxHandlerForRawMode mode h
  | .escapedPackets => { h with
      lengthCallback := true
      characterCallback := true
      targetCharacter := stopByte
      targetLength := recvBufferSize / 2 }

/-- What the HAL makes of a byte that finds the RX FIFO full: what the FIFO holds then, no more
than before, and whether a callback is called. -/
structure FullFifo where
  push : List UInt8 → UInt8 → List UInt8
  callback : List UInt8 → UInt8 → Bool
  length_push_le : ∀ fifo b, (push fifo b).length ≤ fifo.length

/-- A full FIFO stays as it is, and the byte is dropped. -/
def FullFifo.Drops (full : FullFifo) : Prop := ∀ fifo b, full.push fifo b = fifo

/-- A FIFO that drops the byte and tells nobody. -/
def silentDrop : FullFifo := ⟨fun fifo _ => fifo, fun _ _ => false, fun _ _ => Nat.le_refl _⟩

/-- A call with which the poll task hands bytes over. -/
inductive Delivery
  /-- `Broker_receive_packet`. -/
  | receivePacket (bytes : List UInt8)
  /-- `Escaper_decode_packet`. -/
  | decodePacket (bytes : List UInt8)
  deriving DecidableEq

/-- The bytes of a call. -/
def Delivery.bytes : Delivery → List UInt8
  | .receivePacket bs | .decodePacket bs => bs

/-- Where the poll task is. -/
inductive Pc
  /-- Before `Escaper_start_decoder`. -/
  | start
  /-- Before `uartRead`. -/
  | uartRead
  /-- In `rtems_event_receive`. -/
  | eventReceive
  /-- Before `Uart_readRxFifo`. -/
  | readRxFifo
  /-- Before byte `i` of the `length` bytes in `m_recv_buffer` is handed over. -/
  | handOver (i length : ℕ)
  deriving DecidableEq

/-- The UART, the poll task and its buffer, and a record of the bytes received and of the
calls that handed them over. -/
structure State where
  /-- `Uart_readAsync` has been called. -/
  reading : Bool
  rxFifo : List UInt8
  /-- `UART_RX_EVENT` is pending for the poll task. -/
  event : Bool
  recvBuffer : Store Unit UInt8
  decoderStarted : Bool
  pc : Pc
  received : List UInt8
  handed : List Delivery

/-- The choices of the environment. -/
inductive Label
  | poll
  /-- The UART receives a byte. -/
  | rxInterrupt (b : UInt8)

section Model

variable (c : Mode) (full : FullFifo) (h : RxHandler)

/-- The RX interrupt on the byte `b`: push it, then call the callbacks. -/
def rxInterrupt (s : State) (b : UInt8) : State :=
  if s.rxFifo.length < recvBufferSize then
    { s with
      rxFifo := s.rxFifo ++ [b]
      event := s.event || (h.characterCallback && b == h.targetCharacter) ||
        (h.lengthCallback && s.rxFifo.length + 1 == h.targetLength)
      received := s.received ++ [b] }
  else { s with
    rxFifo := full.push s.rxFifo b
    event := s.event || full.callback s.rxFifo b
    received := s.received ++ [b] }

/-- One step of `Samrh71RtemsSerialPoll`; `none` while the task is blocked. -/
def pollStep (s : State) : Option State :=
  match s.pc with
  | .start => some { s with decoderStarted := !rawModeEnabled c, pc := .uartRead }
  | .uartRead => some { s with rxFifo := [], reading := true, pc := .eventReceive }
  | .eventReceive => if s.event then some { s with event := false, pc := .readRxFifo } else none
  | .readRxFifo => some { s with
      recvBuffer := s.recvBuffer.fill () (s.rxFifo.take recvBufferSize)
      rxFifo := s.rxFifo.drop recvBufferSize
      pc := .handOver 0 (s.rxFifo.take recvBufferSize).length }
  | .handOver i length =>
    if rawModeEnabled c then
      if i < length then some { s with
        handed := s.handed ++ [.receivePacket (s.recvBuffer.bytes () i 1)]
        pc := .handOver (i + 1) length }
      else some { s with pc := .eventReceive }
    else some { s with
      handed := s.handed ++ [.decodePacket (s.recvBuffer.bytes () 0 length)]
      pc := .eventReceive }

/-- One step of the system. -/
def next (s : State) : Label → Option State
  | .poll => pollStep c s
  | .rxInterrupt b => if s.reading then some (rxInterrupt full h s b) else none

end Model

/-- The state in which the poll task starts. -/
def initial : State where
  reading := false
  rxFifo := []
  event := false
  recvBuffer _ _ := 0
  decoderStarted := false
  pc := .start
  received := []
  handed := []

/-- The transition system of the poll task and its UART, where `m_uart_rx_handler` was `h`
before `initUartRxHandler`. -/
def system (full : FullFifo) (stopByte : UInt8) (c : Mode) (h : RxHandler) :
    System State Label where
  init := initial
  next := next c full (initUartRxHandler stopByte c h)

/-- The step does not push to a full FIFO. -/
def fits (s : State) : Label → Prop
  | .poll => True
  | .rxInterrupt _ => s.rxFifo.length < recvBufferSize

instance (s : State) : (l : Label) → Decidable (fits s l)
  | .poll => isTrue trivial
  | .rxInterrupt _ => inferInstanceAs (Decidable (_ < _))

/-- Every step of the system, with what it needs and what it does. -/
inductive RxStep (c : Mode) (full : FullFifo) (h : RxHandler) (s : State) : Label → State → Prop
  | start : s.pc = .start →
      RxStep c full h s .poll { s with decoderStarted := !rawModeEnabled c, pc := .uartRead }
  | uartRead : s.pc = .uartRead →
      RxStep c full h s .poll { s with rxFifo := [], reading := true, pc := .eventReceive }
  | eventReceive : s.pc = .eventReceive → s.event = true →
      RxStep c full h s .poll { s with event := false, pc := .readRxFifo }
  | readRxFifo : s.pc = .readRxFifo →
      RxStep c full h s .poll { s with
        recvBuffer := s.recvBuffer.fill () (s.rxFifo.take recvBufferSize)
        rxFifo := s.rxFifo.drop recvBufferSize
        pc := .handOver 0 (s.rxFifo.take recvBufferSize).length }
  | receivePacket {i length} : s.pc = .handOver i length → rawModeEnabled c = true → i < length →
      RxStep c full h s .poll { s with
        handed := s.handed ++ [.receivePacket (s.recvBuffer.bytes () i 1)]
        pc := .handOver (i + 1) length }
  | loopEnd {i length} : s.pc = .handOver i length → rawModeEnabled c = true → ¬ i < length →
      RxStep c full h s .poll { s with pc := .eventReceive }
  | decodePacket {i length} : s.pc = .handOver i length → rawModeEnabled c = false →
      RxStep c full h s .poll { s with
        handed := s.handed ++ [.decodePacket (s.recvBuffer.bytes () 0 length)]
        pc := .eventReceive }
  | rxInterrupt {b} : s.reading = true → RxStep c full h s (.rxInterrupt b) (rxInterrupt full h s b)

/-- **Inversion.** Every step of the system is one of the cases of `RxStep`. -/
theorem rxStep_of_next {c : Mode} {full : FullFifo} {h : RxHandler} {s s' : State} {l : Label}
    (hs : next c full h s l = some s') : RxStep c full h s l s' := by
  cases l with
  | rxInterrupt b =>
    simp only [next] at hs
    split at hs
    case isTrue hr => exact Option.some.inj hs ▸ .rxInterrupt hr
    case isFalse => cases hs
  | poll =>
    simp only [next, pollStep] at hs
    split at hs
    case h_1 hpc => exact Option.some.inj hs ▸ .start hpc
    case h_2 hpc => exact Option.some.inj hs ▸ .uartRead hpc
    case h_3 hpc =>
      split at hs
      case isTrue hev => exact Option.some.inj hs ▸ .eventReceive hpc hev
      case isFalse => cases hs
    case h_4 hpc => exact Option.some.inj hs ▸ .readRxFifo hpc
    case h_5 i length hpc =>
      split at hs
      case isTrue hraw =>
        split at hs
        case isTrue hi => exact Option.some.inj hs ▸ .receivePacket hpc hraw hi
        case isFalse hi => exact Option.some.inj hs ▸ .loopEnd hpc hraw hi
      case isFalse hraw =>
        exact Option.some.inj hs ▸ .decodePacket hpc (Bool.not_eq_true _ ▸ hraw)

/-! ## The wake-up conditions -/

/-- The FIFO holds what the task is to be woken for. -/
def due (h : RxHandler) (fifo : List UInt8) : Prop :=
  (h.characterCallback = true ∧ h.targetCharacter ∈ fifo) ∨ h.targetLength ≤ fifo.length

/-- **What wakes the task in each mode**: any byte, the escape byte or half a FIFO, the stop byte
or half a FIFO. -/
theorem due_initUartRxHandler (stopByte : UInt8) (c : Mode) (h : RxHandler) (fifo : List UInt8) :
    due (initUartRxHandler stopByte c h) fifo ↔ match c.packetizerMode with
      | .raw .singleByte => fifo ≠ []
      | .raw (.customEscapeByte byte) => byte ∈ fifo ∨ 128 ≤ fifo.length
      | .escapedPackets => stopByte ∈ fifo ∨ 128 ≤ fifo.length := by
  have hhalf : recvBufferSize / 2 = 128 := rfl
  unfold initUartRxHandler
  cases c.packetizerMode with
  | escapedPackets => simp [due, hhalf]
  | raw mode =>
    cases mode with
    | singleByte => simp [due, initUartRxHandlerForRawMode, Nat.one_le_iff_ne_zero]
    | customEscapeByte byte => simp [due, initUartRxHandlerForRawMode, hhalf]

/-- A handler that wakes the task when a positive number of bytes is there. -/
structure RxHandler.Wakes (h : RxHandler) : Prop where
  lengthCallback : h.lengthCallback = true
  targetLength_pos : 0 < h.targetLength

private theorem half_pos : 0 < recvBufferSize / 2 := by decide

/-- Every mode sets such a handler up. -/
theorem wakes_initUartRxHandler (stopByte : UInt8) (c : Mode) (h : RxHandler) :
    (initUartRxHandler stopByte c h).Wakes := by
  unfold initUartRxHandler
  cases c.packetizerMode with
  | escapedPackets => exact ⟨rfl, half_pos⟩
  | raw mode =>
    cases mode with
    | singleByte => exact ⟨rfl, Nat.one_pos⟩
    | customEscapeByte byte => exact ⟨rfl, half_pos⟩

/-- Nothing is due in an empty FIFO. -/
theorem RxHandler.Wakes.not_due_nil {h : RxHandler} (hw : h.Wakes) : ¬ due h [] := by
  have := hw.targetLength_pos
  simp only [due, List.not_mem_nil, and_false, List.length_nil, false_or]
  omega

/-- **The interrupt announces what becomes due.** A byte after which something is due, where
nothing was before, sets the event. -/
theorem RxHandler.Wakes.event_of_due {h : RxHandler} (hw : h.Wakes) {full : FullFifo} {s : State}
    {b : UInt8} (hfits : s.rxFifo.length < recvBufferSize) (hquiet : ¬ due h s.rxFifo)
    (hdue : due h (rxInterrupt full h s b).rxFifo) : (rxInterrupt full h s b).event = true := by
  simp only [rxInterrupt, hfits, if_true] at hdue ⊢
  simp only [due, not_or, not_and] at hquiet
  rcases hdue with ⟨hcall, hmem⟩ | hlen
  · have hb : h.targetCharacter = b := by
      simpa [hquiet.1 hcall] using hmem
    simp [hcall, hb]
  · have hlast : s.rxFifo.length + 1 = h.targetLength := by
      rw [List.length_append, List.length_singleton] at hlen
      omega
    simp [hw.lengthCallback, hlast]

/-! ## The invariant -/

/-- The drained bytes of `m_recv_buffer` that have not been handed over. -/
def toHand (s : State) : List UInt8 :=
  match s.pc with
  | .handOver i length => s.recvBuffer.bytes () i (length - i)
  | _ => []

/-- The bytes handed over, in order. -/
def handedBytes (s : State) : List UInt8 := s.handed.flatMap Delivery.bytes

/-- The form of the calls in each mode: single bytes to the Broker, or buffers to the
decoder. -/
def Delivery.suits (c : Mode) (d : Delivery) : Prop :=
  if rawModeEnabled c then ∃ b, d = .receivePacket [b] else ∃ bs, d = .decodePacket bs

/-- What holds where the task is. -/
def At (c : Mode) (s : State) : Pc → Prop
  | .start | .uartRead => s.reading = false
  | .handOver i length => i ≤ length ∧ (rawModeEnabled c = false → i = 0)
  | _ => True

/-- The invariant of reception. -/
structure RxInv (c : Mode) (h : RxHandler) (s : State) : Prop where
  inOrder : handedBytes s ++ toHand s ++ s.rxFifo = s.received
  calls : ∀ d ∈ s.handed, d.suits c
  fits : s.rxFifo.length ≤ recvBufferSize
  unread : s.reading = false → s.rxFifo = []
  quiet : s.event = false → s.pc ≠ .readRxFifo → ¬ due h s.rxFifo
  place : At c s s.pc

variable {c : Mode} {full : FullFifo} {h : RxHandler} {s s' : State}

/-- The next byte to hand over, and the ones after it. -/
private theorem bytes_of_lt {m : Store Unit UInt8} {i length : ℕ} (hi : i < length) :
    m.bytes () i (length - i) = m.bytes () i 1 ++ m.bytes () (i + 1) (length - (i + 1)) := by
  have hsplit := m.bytes_add () i 1 (length - (i + 1))
  rwa [show 1 + (length - (i + 1)) = length - i by omega] at hsplit

/-- **A received byte keeps the invariant.** -/
theorem RxInv.rxInterrupt {b : UInt8} (hw : h.Wakes) (hi : RxInv c h s)
    (hr : s.reading = true) (hfits : s.rxFifo.length < recvBufferSize) :
    RxInv c h (rxInterrupt full h s b) := by
  have hfifo : (Rx.rxInterrupt full h s b).rxFifo = s.rxFifo ++ [b] := by
    simp [Rx.rxInterrupt, hfits]
  have hpc : (Rx.rxInterrupt full h s b).pc = s.pc := by simp [Rx.rxInterrupt, hfits]
  constructor
  case inOrder =>
    have hin := hi.inOrder
    simp only [Rx.rxInterrupt, hfits, if_true, handedBytes, toHand] at hin ⊢
    rw [← hin, List.append_assoc, List.append_assoc, List.append_assoc]
  case calls => simpa [Rx.rxInterrupt, hfits] using hi.calls
  case fits =>
    rw [hfifo, List.length_append, List.length_singleton]
    omega
  case unread =>
    intro hr'
    simp [Rx.rxInterrupt, hfits, hr] at hr'
  case quiet =>
    intro hev hne hdue
    rw [hpc] at hne
    have hold : s.event = false := by
      simp only [Rx.rxInterrupt, hfits, if_true, Bool.or_eq_false_iff] at hev
      exact hev.1.1
    have hset := hw.event_of_due hfits (hi.quiet hold hne) hdue
    rw [hev] at hset
    cases hset
  case place =>
    have hplace := hi.place
    rw [hpc]
    cases hp : s.pc with
    | start | uartRead =>
      rw [hp] at hplace
      exact absurd (hr.symm.trans hplace) (by simp)
    | eventReceive | readRxFifo => trivial
    | handOver i length =>
      rw [hp] at hplace
      exact hplace

/-- **One step keeps the invariant.** -/
theorem RxInv.step {l : Label} (hw : h.Wakes) (hi : RxInv c h s) (hok : Rx.fits s l)
    (hs : RxStep c full h s l s') : RxInv c h s' := by
  have hin := hi.inOrder
  have hplace := hi.place
  cases hs with
  | rxInterrupt hr => exact hi.rxInterrupt hw hr hok
  | start hpc =>
    rw [hpc] at hplace
    refine ⟨?_, hi.calls, hi.fits, hi.unread, fun hev _ => hi.quiet hev (by simp [hpc]), hplace⟩
    simpa [handedBytes, toHand, hpc] using hin
  | uartRead hpc =>
    rw [hpc] at hplace
    have hnil := hi.unread hplace
    refine ⟨?_, hi.calls, Nat.zero_le _, fun _ => rfl, fun _ _ => hw.not_due_nil, trivial⟩
    simpa [handedBytes, toHand, hpc, hnil] using hin
  | eventReceive hpc hev =>
    refine ⟨?_, hi.calls, hi.fits, hi.unread, fun _ hne => absurd rfl hne, trivial⟩
    simpa [handedBytes, toHand, hpc] using hin
  | readRxFifo hpc =>
    have htake : s.rxFifo.take recvBufferSize = s.rxFifo := List.take_of_length_le hi.fits
    have hdrop : s.rxFifo.drop recvBufferSize = [] := List.drop_eq_nil_of_le hi.fits
    constructor
    case inOrder => simpa [handedBytes, toHand, hpc, htake, hdrop] using hin
    case calls => exact hi.calls
    case fits => simp [hdrop]
    case unread => exact fun _ => hdrop
    case quiet =>
      intro _ _
      rw [hdrop]
      exact hw.not_due_nil
    case place => exact ⟨Nat.zero_le _, fun _ => rfl⟩
  | @receivePacket i length hpc hraw hlt =>
    rw [hpc] at hplace
    constructor
    case inOrder =>
      rw [← hin]
      simp [handedBytes, toHand, hpc, bytes_of_lt hlt, Delivery.bytes]
    case calls =>
      intro d hd
      rcases List.mem_append.mp hd with hd | hd
      · exact hi.calls d hd
      · rw [List.mem_singleton.mp hd, Delivery.suits, if_pos hraw]
        exact ⟨_, rfl⟩
    case fits => exact hi.fits
    case unread => exact hi.unread
    case quiet => exact fun hev _ => hi.quiet hev (by simp [hpc])
    case place => exact ⟨hlt, fun hesc => absurd hraw (by simp [hesc])⟩
  | @loopEnd i length hpc hraw hlt =>
    refine ⟨?_, hi.calls, hi.fits, hi.unread, fun hev _ => hi.quiet hev (by simp [hpc]), trivial⟩
    have hnone : length - i = 0 := by omega
    simpa [handedBytes, toHand, hpc, hnone] using hin
  | @decodePacket i length hpc hraw =>
    rw [hpc] at hplace
    have hzero : i = 0 := hplace.2 hraw
    constructor
    case inOrder =>
      rw [← hin]
      simp [handedBytes, toHand, hpc, hzero, Delivery.bytes]
    case calls =>
      intro d hd
      rcases List.mem_append.mp hd with hd | hd
      · exact hi.calls d hd
      · rw [List.mem_singleton.mp hd, Delivery.suits, if_neg (by simp [hraw])]
        exact ⟨_, rfl⟩
    case fits => exact hi.fits
    case unread => exact hi.unread
    case quiet => exact fun hev _ => hi.quiet hev (by simp [hpc])
    case place => trivial

/-- The invariant holds in every state of the runs in which the FIFO does not overflow. -/
theorem rxInv {stopByte : UInt8} {h : RxHandler}
    (hr : (system full stopByte c h).ReachableWhen fits s) :
    RxInv c (initUartRxHandler stopByte c h) s := by
  have hw := wakes_initUartRxHandler stopByte c h
  refine System.ReachableWhen.invariant ?_ ?_ hr
  · exact ⟨rfl, by simp [system, initial], Nat.zero_le _, fun _ => rfl, fun _ _ => hw.not_due_nil,
      rfl⟩
  · intro s l s' _ hi hok hs
    exact hi.step hw hok (rxStep_of_next hs)

/-- The poll task is blocked in `rtems_event_receive`. -/
def blocked (s : State) : Prop := s.pc = .eventReceive ∧ s.event = false

/-- **Reception.** While the RX FIFO does not overflow, the bytes handed over, the drained
bytes still to be handed over and the bytes in the FIFO are the bytes received, in order,
each call has the form of the mode, and the task is never blocked while what it is to be
woken for is in the FIFO. -/
theorem rx_in_order (full : FullFifo) (stopByte : UInt8) (c : Mode) (h : RxHandler) (s : State)
    (hr : (system full stopByte c h).ReachableWhen fits s) :
    handedBytes s ++ toHand s ++ s.rxFifo = s.received ∧
      (∀ d ∈ s.handed, d.suits c) ∧
      ¬ (blocked s ∧ due (initUartRxHandler stopByte c h) s.rxFifo) := by
  have hi := rxInv hr
  refine ⟨hi.inOrder, hi.calls, ?_⟩
  rintro ⟨⟨hpc, hev⟩, hdue⟩
  exact hi.quiet hev (by simp [hpc]) hdue

/-- A byte received before the first wait, two more while the task is on its way to the
FIFO, and one during delivery. -/
theorem rx_in_order_escape_byte :
    ∃ s, (system silentDrop 0xFF ⟨.raw (.customEscapeByte 10), .blocking⟩
        ⟨false, false, 0, 0⟩).ReachableWhen fits s ∧
      handedBytes s ++ toHand s ++ s.rxFifo = [1, 10, 2, 3] ∧
      ¬ (blocked s ∧ due (initUartRxHandler 0xFF ⟨.raw (.customEscapeByte 10), .blocking⟩
        ⟨false, false, 0, 0⟩) s.rxFifo) := by
  let ls : List Label := [.poll, .poll, .rxInterrupt 1, .rxInterrupt 10, .poll, .rxInterrupt 2,
    .poll, .poll, .rxInterrupt 3]
  have hr := System.reachableWhen_get (system silentDrop 0xFF
    ⟨.raw (.customEscapeByte 10), .blocking⟩ ⟨false, false, 0, 0⟩) fits ls (by decide)
  have hin := rx_in_order _ _ _ _ _ hr
  exact ⟨_, hr, hin.1, hin.2.2⟩

end Samrh71Drivers.Serial.Rx
