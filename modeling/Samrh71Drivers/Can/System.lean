import Samrh71Drivers.Lib.Transition
import Samrh71Drivers.Can.Send

/-!
# The CAN driver at run time

One initialised device: the poll task, a sequence of calls of `SamRH71RtemsCanSend`, the
interrupt handler `mcan_int0_Handler`, and the MCAN controller with RX FIFO 0 and TX
buffer 0. One label is one step of one of them, so the runs are all the interleavings.
The handler is not atomic: it reads and clears the interrupt status first and releases the
two semaphores in two further steps.

The two directions share nothing but the handler, and the state is split accordingly. For
transmission the flag of the controller and the token of the semaphore carry the number of
the frame they were set for, which is what the driver relies on and cannot see.

## Main definitions

* `Rx`, `Tx`, `Handler`, `State` — the parts of the state.
* `pollStep`, `senderStep`, `interruptStep` — the steps of the driver.
* `system` — the transition system, with asserts enabled or compiled out.
-/

namespace Samrh71Drivers.Can

open Transition

universe u

/-- `Mcan_RxElement`, with the data bytes that were pulled into `m_rx_buffer`. -/
structure RxElement where
  idType : IdType
  id : UInt32
  data : List UInt8
  deriving DecidableEq

/-- A call with which the poll task hands a frame over. -/
inductive Delivery
  /-- `Escaper_decode_packet`, which calls `Broker_receive_packet` itself. -/
  | decodePacket (bytes : List UInt8)
  /-- `Broker_receive_packet`. -/
  | receivePacket (bytes : List UInt8)
  deriving DecidableEq

/-- The four bytes of a `uint32_t` in memory, least significant byte first. -/
def nativeBytes (word : UInt32) : List UInt8 :=
  [word.toUInt8, (word >>> 8).toUInt8, (word >>> 16).toUInt8, (word >>> 24).toUInt8]

/-- The message `SamRH71RtemsCanPoll` builds in `m_value_buffer` in dynamic-ID mode. -/
def valueBuffer (el : RxElement) : List UInt8 :=
  let canId := if el.idType = .extended then el.id ||| canExtendedIdBit else el.id
  nativeBytes canId ++ el.data

/-- What `SamRH71RtemsCanPoll` does with a frame. -/
def handOver (self : PrivateData) (el : RxElement) : Delivery :=
  if shouldUseEscaper self then .decodePacket el.data
  else if ifaceUsesDynamicId self then .receivePacket (valueBuffer el)
  else .receivePacket el.data

/-- Where the poll task is. -/
inductive PollPc
  /-- Before `Escaper_start_decoder`. -/
  | start
  /-- In `rtems_semaphore_obtain` on `m_rx_semaphore`. -/
  | obtain
  /-- Before the `Mcan_getRxFifoStatus` after the semaphore. -/
  | status
  /-- At the test of `while (fifoStatus.count > 0)`. -/
  | test (count : ℕ)
  /-- Before `Mcan_rxFifoPull`. -/
  | pull
  /-- Before the frame is handed over. -/
  | deliver (el : RxElement)
  /-- Before the `Mcan_getRxFifoStatus` at the end of the loop. -/
  | drain
  /-- Stopped at a failed assertion. -/
  | stopped
  deriving DecidableEq

/-- Reception: RX FIFO 0 with its interrupt flag, the semaphore and the poll task, and a
record of the frames accepted by the FIFO, pulled out of it and handed over. -/
structure Rx where
  fifo : List RxElement
  rf0n : Bool
  semaphore : Semaphore
  poll : PollPc
  decoderStarted : Bool
  accepted : List RxElement
  pulled : List RxElement
  handed : List Delivery

/-- The variables of the Escaper loop in `SamRH71RtemsCanSend`. -/
structure SendLoop where
  idType : IdType
  id : UInt32
  data : List UInt8
  index : ℕ

/-- Where the sender is. `back` is the Escaper loop a frame belongs to, if any. -/
inductive SendPc
  /-- Not in `SamRH71RtemsCanSend`. -/
  | outside
  /-- Before `Escaper_encode_packet`. -/
  | encode (l : SendLoop)
  /-- In `SamRH71RtemsCanSendFrame`, before `Mcan_txBufferAdd`. -/
  | addFrame (el : TxElement) (back : Option SendLoop)
  /-- In `rtems_semaphore_obtain` on `m_tx_semaphore`, for the frame with this number, or
  for none where `Mcan_txBufferAdd` has failed. -/
  | wait (frame : Option ℕ) (back : Option SendLoop)
  /-- Before `Mcan_txBufferIsTransmissionFinished`. -/
  | check (back : Option SendLoop)
  /-- Stopped at a failed assertion. -/
  | stopped

/-- Transmission: TX buffer 0, the interrupt flag, the semaphore, the sender with the
messages it has still to send, the frames given to `Mcan_txBufferAdd`, and whether the
wait for a frame in the buffer has timed out. -/
structure Tx (E : Type u) where
  /-- The number of the frame pending in TX buffer 0. -/
  buffer : Option ℕ
  /-- The flag for completed transmissions, set for this frame. -/
  tc : Option ℕ
  /-- The token of `m_tx_semaphore`, released for this frame. -/
  semaphore : Option ℕ
  pc : SendPc
  escaper : E
  todo : List (List UInt8)
  added : List TxElement
  abandoned : Bool

/-- Where the interrupt handler is, with the flags it has read. -/
inductive Handler
  | idle
  /-- At the test of `hasRf0nOccurred`. -/
  | testRf0n (rf0n : Bool) (tc : Option ℕ)
  /-- At the test of `hasTcOccurred`. -/
  | testTc (tc : Option ℕ)

structure State (E : Type u) where
  rx : Rx
  tx : Tx E
  handler : Handler

/-- The choices of the environment. -/
inductive Label
  | poll
  | sender
  /-- `Mcan_txBufferAdd` reports an error. -/
  | addFails
  /-- The wait on `m_tx_semaphore` times out. -/
  | timeout
  /-- The next step of the interrupt handler. -/
  | interrupt
  /-- A frame arrives for RX FIFO 0. -/
  | arrive (el : RxElement)
  /-- The frame in TX buffer 0 has been transmitted. -/
  | transmitted

/-- A flag or a token that is already set stays what it is. -/
def set (flag : Option ℕ) (frame : ℕ) : Option ℕ := some (flag.getD frame)

section Model

variable {E : Type u}

/-! ## Reception -/

/-- A frame arrives. RX FIFO 0 is in blocking mode: a full FIFO takes no frame. -/
def arrive (rxFifo0Size : ℕ) (r : Rx) (el : RxElement) : Rx :=
  if r.fifo.length < rxFifo0Size then
    { r with fifo := r.fifo ++ [el], rf0n := true, accepted := r.accepted ++ [el] }
  else r

/-- `SamRH71RtemsCanPoll`. -/
def pollStep (self : PrivateData) (r : Rx) : Option Rx :=
  match r.poll with
  | .start => some { r with decoderStarted := shouldUseEscaper self, poll := .obtain }
  | .obtain => r.semaphore.obtain.map fun sem => { r with semaphore := sem, poll := .status }
  | .status => some { r with poll := .test r.fifo.length }
  | .test count => some { r with poll := if 0 < count then .pull else .obtain }
  | .pull =>
    match r.fifo with
    | [] => some { r with poll := .stopped }
    | el :: fifo => some { r with
        fifo := fifo
        pulled := r.pulled ++ [el]
        poll := .deliver el }
  | .deliver el => some { r with handed := r.handed ++ [handOver self el], poll := .drain }
  | .drain => some { r with poll := .test r.fifo.length }
  | .stopped => none

/-! ## Transmission -/

/-- The entry of `SamRH71RtemsCanSendFrame` with its assertion on the length. -/
def enterSendFrame (asserts : Bool) (el : TxElement) (back : Option SendLoop) : SendPc :=
  if asserts && decide (mcanMaxDataSize < el.dataSize) then .stopped else .addFrame el back

/-- Where the sender goes on after a frame. -/
def resume : Option SendLoop → SendPc
  | none => .outside
  | some l => .encode l

/-- A failed assertion, after which a build without asserts goes on at `pc`. -/
def failedAssert (asserts : Bool) (pc : SendPc) : SendPc := if asserts then .stopped else pc

/-- What can be read at the pointer to a message in dynamic-ID mode: the message, and, where it
is shorter than an ID, the memory behind it, as far as a frame of 255 bytes after the ID. -/
def readable (behind : ℕ → UInt8) (data : List UInt8) : List UInt8 :=
  if data.length < 4 then data ++ (List.range 259).map behind else data

/-- Nothing behind a message with an ID is read. -/
theorem readable_of_le (behind : ℕ → UInt8) {data : List UInt8} (h4 : 4 ≤ data.length) :
    readable behind data = data := if_neg (Nat.not_lt.mpr h4)

/-- `SamRH71RtemsCanSend` up to its first frame or its first call of the encoder. With
asserts compiled out a short message in dynamic-ID mode takes its ID, and a length that wraps
around, from the memory `behind` it. -/
def startSend (asserts : Bool) (self : PrivateData) (behind : ℕ → UInt8) (data : List UInt8) :
    SendPc :=
  match self.config.address with
  | .staticCanId address =>
    match staticIdTypeAndId address with
    | none => failedAssert asserts .outside
    | some (idType, id) =>
      if shouldUseEscaper self then .encode ⟨idType, id, data, 0⟩
      else enterSendFrame asserts (txElement idType id data (data.length % 256)) none
  | .applicationControlCanId _ =>
    if asserts && decide (data.length < 4) then .stopped
    else
      let memory := readable behind data
      let (idType, id) := getCanIdAndTypeFromMessageData memory
      enterSendFrame asserts (txElement idType id (memory.drop 4) ((data.length + 252) % 256)) none
  | .none => failedAssert asserts .outside

/-- `Escaper_start_encoder`, on the way to the Escaper loop. -/
def startEncoderFor (X : Escaper E) (pc : SendPc) (e : E) : E :=
  match pc with
  | .encode _ => X.startEncoder e
  | _ => e

/-- One step of `SamRH71RtemsCanSend`; `behind k` is the memory behind the message with `k`
messages left after it. -/
def senderStep (asserts : Bool) (X : Escaper E) (self : PrivateData) (behind : ℕ → ℕ → UInt8)
    (t : Tx E) : Option (Tx E) :=
  match t.pc with
  | .outside =>
    match t.todo with
    | [] => none
    | data :: todo =>
      let pc := startSend asserts self (behind todo.length) data
      some { t with pc := pc, escaper := startEncoderFor X pc t.escaper, todo := todo }
  | .encode l =>
    let r := X.encodePacket t.escaper l.data l.index
    some { t with
      escaper := r.escaper
      pc := if 0 < r.packet.length then
          enterSendFrame asserts (txElement l.idType l.id r.packet (r.packet.length % 256))
            (some { l with index := r.index })
        else .outside }
  | .addFrame el back => some { t with
      buffer := some t.added.length
      added := t.added ++ [el]
      pc := .wait (some t.added.length) back }
  | .wait _ back =>
    t.semaphore.map fun _ => { t with semaphore := none, pc := .check back }
  | .check back => some { t with
      pc := if t.buffer.isNone then resume back else failedAssert asserts (resume back) }
  | .stopped => none

/-- `Mcan_txBufferAdd` reports an error and places no frame. -/
def addFails (asserts : Bool) (t : Tx E) : Option (Tx E) :=
  match t.pc with
  | .addFrame _ back => some { t with pc := failedAssert asserts (.wait none back) }
  | _ => none

/-- The wait on `m_tx_semaphore` times out, and `SamRH71RtemsCanSendFrame` asserts the
result. -/
def timeout (asserts : Bool) (t : Tx E) : Option (Tx E) :=
  match t.pc, t.semaphore with
  | .wait frame back, none => some { t with
      abandoned := t.abandoned || frame.isSome
      pc := failedAssert asserts (resume back) }
  | _, _ => none

/-- The frame in TX buffer 0 has been transmitted. -/
def transmitted (t : Tx E) : Option (Tx E) :=
  t.buffer.map fun frame => { t with buffer := none, tc := set t.tc frame }

/-! ## The system -/

/-- `mcan_int0_Handler`: read and clear the flags, then release the semaphores. -/
def interruptStep (s : State E) : Option (State E) :=
  match s.handler with
  | .idle =>
    if s.rx.rf0n = true ∨ s.tx.tc.isSome = true then
      some { s with
        rx := { s.rx with rf0n := false }
        tx := { s.tx with tc := none }
        handler := .testRf0n s.rx.rf0n s.tx.tc }
    else none
  | .testRf0n rf0n tc =>
    if rf0n then
      some { s with
        rx := { s.rx with semaphore := s.rx.semaphore.release }
        handler := .testTc tc }
    else some { s with handler := .testTc tc }
  | .testTc tc =>
    match tc with
    | none => some { s with handler := .idle }
    | some frame => some { s with
        tx := { s.tx with semaphore := set s.tx.semaphore frame }
        handler := .idle }

/-- One step of the system. -/
def next (asserts : Bool) (X : Escaper E) (self : PrivateData) (behind : ℕ → ℕ → UInt8)
    (rxFifo0Size : ℕ) (s : State E) : Label → Option (State E)
  | .poll => (pollStep self s.rx).map fun r => { s with rx := r }
  | .sender => (senderStep asserts X self behind s.tx).map fun t => { s with tx := t }
  | .addFails => (addFails asserts s.tx).map fun t => { s with tx := t }
  | .timeout => (timeout asserts s.tx).map fun t => { s with tx := t }
  | .interrupt => interruptStep s
  | .arrive el => some { s with rx := arrive rxFifo0Size s.rx el }
  | .transmitted => (transmitted s.tx).map fun t => { s with tx := t }

/-- The state after `SamRH71RtemsCanInit`, with the messages to be sent. -/
def initial (e : E) (todo : List (List UInt8)) : State E where
  rx := ⟨[], false, Semaphore.create 0, .start, false, [], [], []⟩
  tx := ⟨none, none, none, .outside, e, todo, [], false⟩
  handler := .idle

/-- The transition system of one device; `asserts` says whether asserts are enabled, and
`behind` what lies in memory behind the messages. -/
def system (asserts : Bool) (X : Escaper E) (self : PrivateData) (behind : ℕ → ℕ → UInt8)
    (rxFifo0Size : ℕ) (e : E) (todo : List (List UInt8)) : System (State E) Label where
  init := initial e todo
  next := next asserts X self behind rxFifo0Size

/-- The semaphores of the initial state are those an initialisation leaves. -/
theorem initial_of_ready {n : ℕ} {busMessageSize : Int32} {config : Conf} {self : PrivateData}
    (h : Ready n busMessageSize config self) (e : E) (todo : List (List UInt8)) :
    self.rxSemaphore = some (initial e todo).rx.semaphore ∧
      self.txSemaphore = some ⟨(initial e todo).tx.semaphore.isSome⟩ :=
  ⟨h.rxSemaphore_eq, h.txSemaphore_eq⟩

end Model

/-- A device with a static standard ID, on a bus whose messages fit one frame. -/
def staticIdDevice : PrivateData :=
  ⟨⟨.mcan0, .pllaClock, 14, .staticCanId (.standard 5)⟩, 8, some ⟨false⟩, some ⟨false⟩, none, true⟩

end Samrh71Drivers.Can
