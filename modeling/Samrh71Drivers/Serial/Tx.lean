import Samrh71Drivers.Lib.Transition
import Samrh71Drivers.Lib.Custody
import Samrh71Drivers.Lib.Loan
import Samrh71Drivers.Rtems
import Samrh71Drivers.Escaper.Interface

/-!
# Transmission in the serial driver

`Samrh71RtemsSerialSend` on one device, for any number of calling tasks, together with
the UART it drives. Between its calls a task may write to its own memory. One label is
one step of one task, or one action of the UART TX interrupt, so the runs are all the
interleavings.

The UART keeps a reference to `txFifo`, a FIFO laid over a buffer; the TX interrupt
takes one byte at a time out of that buffer and calls `uartTxCallback` when the FIFO is
empty. `custody` is the fact all transmission results rest on: the TX token, the sender
between its wait and the start of its transfer, and the transfer in flight are one
resource in three places.

## Main definitions

* `Mode` — the packetizer and TX modes of the configuration.
* `State` — the driver, the UART, the callers' memory and their programs.
* `next`, `system` — one step, and the transition system.
* `Step` — the same steps, as an inversion principle.
* `unsent` — what the transfer in flight would still send.
* `refines`, `custody` — the TX token is conserved.
-/

namespace Samrh71Drivers.Serial

open Transition Custodian Lending

universe u v

/-- How raw mode wakes the receiver. -/
inductive RawMode
  | singleByte
  | customEscapeByte (byte : UInt8)
  deriving DecidableEq

/-- `Serial_SamRH71_Rtems_Packetizer_Mode_T`. -/
inductive PacketizerMode
  | escapedPackets
  | raw (mode : RawMode)
  deriving DecidableEq

/-- `Serial_SamRH71_Rtems_Tx_Mode_T`. -/
inductive TxMode
  | asynchronous
  | blocking
  deriving DecidableEq

/-- The two mode fields `Samrh71RtemsSerialInit` copies from the configuration. -/
structure Mode where
  packetizerMode : PacketizerMode
  txMode : TxMode
  deriving DecidableEq

def rawModeEnabled (c : Mode) : Bool :=
  match c.packetizerMode with
  | .raw _ => true
  | .escapedPackets => false

def blockingTxModeEnabled (c : Mode) : Bool :=
  match c.txMode with
  | .blocking => true
  | .asynchronous => false

/-- The conversion of a `size_t` to the `uint16_t` length both write paths take. -/
def toUInt16 (n : ℕ) : ℕ := n % 65536

/-- The memory a TX FIFO can lie over: the driver's `m_encoded_packet_buffer`, or the
memory of a caller. -/
inductive Region (τ : Type u)
  | encodedPacketBuffer
  | caller (t : τ)
  deriving DecidableEq

/-- The arguments `buffer` and `length` of a packet write function. -/
structure Packet (τ : Type u) where
  region : Region τ
  offset : ℕ
  length : ℕ

/-- The variables of the loop in `sendEscapedPackets`; `data` is an offset in the
caller's memory. -/
structure Loop where
  data : ℕ
  length : ℕ
  index : ℕ

/-- Where a task is. `back` is the loop a packet write returns to, and `none` where
`Samrh71RtemsSerialSend` has called the write function directly. -/
inductive Pc (τ : Type u)
  /-- Not in `Samrh71RtemsSerialSend`. -/
  | outside
  /-- At the test of `while (index < length)`. -/
  | loopHead (l : Loop)
  /-- In `waitForTxSemaphore`. -/
  | waitForTxSemaphore (p : Packet τ) (back : Option Loop)
  /-- In `uartWriteAsync`, before `ByteFifo_initFromBytes`. -/
  | initFifo (p : Packet τ) (back : Option Loop)
  /-- In `uartWriteAsync`, before `Uart_writeAsync`. -/
  | writeAsync (back : Option Loop)
  /-- In `uartWriteBlocking`, at the test of the loop on the counter `i`. -/
  | writeBlocking (p : Packet τ) (i : ℕ) (back : Option Loop)
  /-- Stopped at a failed assertion. -/
  | stopped

/-- Where a task goes on after a packet write. -/
def resume {τ : Type u} : Option Loop → Pc τ
  | none => .outside
  | some l => .loopHead l

/-- What a caller does next: call `Samrh71RtemsSerialSend` on `length` bytes at `data`,
or write a byte of its own memory. -/
inductive CallerOp
  | send (data length : ℕ)
  | write (a : ℕ) (v : UInt8)

/-- The driver with its UART, the callers, and a record of the encoder's packets. -/
structure State (τ : Type u) (E : Type v) where
  mem : Store (Region τ) UInt8
  escaper : E
  txSemaphore : Semaphore
  /-- The descriptor `m_hal_uart.txFifo`. -/
  txFifo : Loan (Region τ)
  /-- Calls of `Uart_writeAsync` whose TX handler callback has not run yet. -/
  inFlight : ℕ
  /-- The bytes put on the wire. -/
  wire : List UInt8
  pc : τ → Pc τ
  todo : τ → List CallerOp
  /-- The packets `Escaper_encode_packet` has produced, in call order. -/
  packets : List (List UInt8)

/-- The choices of the environment. -/
inductive Label (τ : Type u)
  /-- The next step of a task. -/
  | task (t : τ)
  /-- `Uart_write` reports an error to a task in `uartWriteBlocking`. -/
  | uartWriteFails (t : τ)
  /-- The TX interrupt takes a byte out of the FIFO. -/
  | txByte
  /-- The TX interrupt finds the FIFO empty and calls `uartTxCallback`. -/
  | txEmpty

section Model

variable {τ : Type u} {E : Type v} [DecidableEq τ]

/-- The call of a packet write function: `blockingWritePacket` or `asyncWritePacket`. -/
def writePacket (c : Mode) (p : Packet τ) (back : Option Loop) : Pc τ :=
  if blockingTxModeEnabled c then .writeBlocking p 0 back else .waitForTxSemaphore p back

/-- The entry of `Samrh71RtemsSerialSend` up to its first write or loop test. -/
def samrh71RtemsSerialSend (c : Mode) (X : Escaper E) (s : State τ E) (t : τ)
    (data length : ℕ) : State τ E :=
  if rawModeEnabled c then
    { s with
        pc := Function.update s.pc t
          (writePacket c ⟨.caller t, data, toUInt16 length⟩ none) }
  else
    { s with
        escaper := X.startEncoder s.escaper
        pc := Function.update s.pc t (.loopHead ⟨data, length, 0⟩) }

/-- One round of the loop in `sendEscapedPackets`: `Escaper_encode_packet` writes the
next packet into `m_encoded_packet_buffer`, and `writePacket` is called on it. -/
def encodeStep (c : Mode) (X : Escaper E) (s : State τ E) (t : τ) (l : Loop) : State τ E :=
  let r := X.encodePacket s.escaper (s.mem.bytes (.caller t) l.data l.length) l.index
  { s with
      mem := s.mem.fill .encodedPacketBuffer r.packet
      escaper := r.escaper
      packets := s.packets ++ [r.packet]
      pc := Function.update s.pc t
        (writePacket c ⟨.encodedPacketBuffer, 0, toUInt16 r.packet.length⟩
          (some { l with index := r.index })) }

/-- The next step of the task `t`; `none` where it has finished or is blocked. -/
def taskStep (c : Mode) (X : Escaper E) (s : State τ E) (t : τ) : Option (State τ E) :=
  match s.pc t with
  | .outside =>
    match s.todo t with
    | [] => none
    | .write a v :: ops => some { s with
        mem := s.mem.write (.caller t) a v
        todo := Function.update s.todo t ops }
    | .send data length :: ops => some
        { samrh71RtemsSerialSend c X s t data length with
          todo := Function.update s.todo t ops }
  | .loopHead l =>
    if l.index < l.length then some (encodeStep c X s t l)
    else some { s with pc := Function.update s.pc t .outside }
  | .waitForTxSemaphore p back =>
    s.txSemaphore.obtain.map fun sem =>
      { s with txSemaphore := sem, pc := Function.update s.pc t (.initFifo p back) }
  | .initFifo p back => some { s with
      txFifo := ⟨p.region, p.offset, p.length, 0⟩
      pc := Function.update s.pc t (.writeAsync back) }
  | .writeAsync back => some { s with
      inFlight := s.inFlight + 1
      pc := Function.update s.pc t (resume back) }
  | .writeBlocking p i back =>
    if i < p.length then some { s with
      wire := s.wire ++ [s.mem p.region (p.offset + i)]
      pc := Function.update s.pc t (.writeBlocking p (toUInt16 (i + 1)) back) }
    else some { s with pc := Function.update s.pc t (resume back) }
  | .stopped => none

/-- `uartTxCallback`: release the TX semaphore. -/
def uartTxCallback (s : State τ E) : State τ E := { s with txSemaphore := s.txSemaphore.release }

/-- One step of the system. -/
def next (c : Mode) (X : Escaper E) (s : State τ E) : Label τ → Option (State τ E)
  | .task t => taskStep c X s t
  | .uartWriteFails t =>
    match s.pc t with
    | .writeBlocking p i _ =>
      if i < p.length then some { s with pc := Function.update s.pc t .stopped } else none
    | _ => none
  | .txByte =>
    if 0 < s.inFlight then
      (s.txFifo.take s.mem).map fun r => { s with wire := s.wire ++ [r.1], txFifo := r.2 }
    else none
  | .txEmpty =>
    if 0 < s.inFlight ∧ s.txFifo.length ≤ s.txFifo.taken then
      some (uartTxCallback { s with inFlight := s.inFlight - 1 })
    else none

/-- The state after `Samrh71RtemsSerialInit`: the TX semaphore has its token and nothing
has been sent. `mem` and `prog` are the memory and the program of each caller. -/
def initial (mem : τ → ℕ → UInt8) (prog : τ → List CallerOp) (e : E) : State τ E where
  mem r a := match r with
    | .encodedPacketBuffer => 0
    | .caller t => mem t a
  escaper := e
  txSemaphore := Semaphore.create 1
  txFifo := ⟨.encodedPacketBuffer, 0, 0, 0⟩
  inFlight := 0
  wire := []
  pc _ := .outside
  todo := prog
  packets := []

/-- The transition system of the callers `prog` and the device. -/
def system (c : Mode) (X : Escaper E) (mem : τ → ℕ → UInt8) (prog : τ → List CallerOp) (e : E) :
    System (State τ E) (Label τ) where
  init := initial mem prog e
  next := next c X

/-- Every step of the system, with what it needs and what it does. -/
inductive Step (c : Mode) (X : Escaper E) (s : State τ E) : Label τ → State τ E → Prop
  | callerWrite {t a v ops} : s.pc t = .outside → s.todo t = .write a v :: ops →
      Step c X s (.task t) { s with
        mem := s.mem.write (.caller t) a v
        todo := Function.update s.todo t ops }
  | callRaw {t data length ops} : s.pc t = .outside → s.todo t = .send data length :: ops →
      rawModeEnabled c = true →
      Step c X s (.task t) { s with
        pc := Function.update s.pc t
          (writePacket c ⟨.caller t, data, toUInt16 length⟩ none)
        todo := Function.update s.todo t ops }
  | callEscaped {t data length ops} : s.pc t = .outside → s.todo t = .send data length :: ops →
      rawModeEnabled c = false →
      Step c X s (.task t) { s with
        escaper := X.startEncoder s.escaper
        pc := Function.update s.pc t (.loopHead ⟨data, length, 0⟩)
        todo := Function.update s.todo t ops }
  | encode {t l} : s.pc t = .loopHead l → l.index < l.length →
      Step c X s (.task t) (encodeStep c X s t l)
  | loopEnd {t l} : s.pc t = .loopHead l → ¬ l.index < l.length →
      Step c X s (.task t) { s with pc := Function.update s.pc t .outside }
  | obtain {t p back} : s.pc t = .waitForTxSemaphore p back → s.txSemaphore.available = true →
      Step c X s (.task t) { s with
        txSemaphore := ⟨false⟩
        pc := Function.update s.pc t (.initFifo p back) }
  | initFifo {t p back} : s.pc t = .initFifo p back →
      Step c X s (.task t) { s with
        txFifo := ⟨p.region, p.offset, p.length, 0⟩
        pc := Function.update s.pc t (.writeAsync back) }
  | writeAsync {t back} : s.pc t = .writeAsync back →
      Step c X s (.task t) { s with
        inFlight := s.inFlight + 1
        pc := Function.update s.pc t (resume back) }
  | blockingByte {t p i back} : s.pc t = .writeBlocking p i back → i < p.length →
      Step c X s (.task t) { s with
        wire := s.wire ++ [s.mem p.region (p.offset + i)]
        pc := Function.update s.pc t (.writeBlocking p (toUInt16 (i + 1)) back) }
  | blockingEnd {t p i back} : s.pc t = .writeBlocking p i back → ¬ i < p.length →
      Step c X s (.task t) { s with pc := Function.update s.pc t (resume back) }
  | uartWriteFails {t p i back} : s.pc t = .writeBlocking p i back → i < p.length →
      Step c X s (.uartWriteFails t) { s with pc := Function.update s.pc t .stopped }
  | txByte {b fifo} : 0 < s.inFlight → s.txFifo.take s.mem = some (b, fifo) →
      Step c X s .txByte { s with wire := s.wire ++ [b], txFifo := fifo }
  | txEmpty {n} : s.inFlight = n + 1 → s.txFifo.length ≤ s.txFifo.taken →
      Step c X s .txEmpty { s with inFlight := n, txSemaphore := ⟨true⟩ }

theorem step_of_taskStep {c : Mode} {X : Escaper E} {s s' : State τ E} {t : τ}
    (h : taskStep c X s t = some s') : Step c X s (.task t) s' := by
  unfold taskStep at h
  cases hpc : s.pc t with
  | outside =>
    rw [hpc] at h
    cases hops : s.todo t with
    | nil => simp [hops] at h
    | cons op ops =>
      cases op with
      | write a v =>
        simp only [hops, Option.some.injEq] at h
        exact h ▸ .callerWrite hpc hops
      | send data length =>
        simp only [hops, Option.some.injEq] at h
        subst h
        cases hraw : rawModeEnabled c with
        | true => simpa [samrh71RtemsSerialSend, hraw] using .callRaw hpc hops hraw
        | false => simpa [samrh71RtemsSerialSend, hraw] using .callEscaped hpc hops hraw
  | loopHead l =>
    simp only [hpc] at h
    split at h
    case isTrue hlt => exact Option.some.inj h ▸ .encode hpc hlt
    case isFalse hlt => exact Option.some.inj h ▸ .loopEnd hpc hlt
  | waitForTxSemaphore p back =>
    simp only [hpc, Option.map_eq_some_iff, Semaphore.obtain_eq_some_iff] at h
    obtain ⟨sem, ⟨hav, rfl⟩, rfl⟩ := h
    exact .obtain hpc hav
  | initFifo p back =>
    simp only [hpc, Option.some.injEq] at h
    exact h ▸ .initFifo hpc
  | writeAsync back =>
    simp only [hpc, Option.some.injEq] at h
    exact h ▸ .writeAsync hpc
  | writeBlocking p i back =>
    simp only [hpc] at h
    split at h
    case isTrue hlt => exact Option.some.inj h ▸ .blockingByte hpc hlt
    case isFalse hlt => exact Option.some.inj h ▸ .blockingEnd hpc hlt
  | stopped => simp [hpc] at h

/-- **Inversion.** Every step of the system is one of the cases of `Step`. -/
theorem step_of_next {c : Mode} {X : Escaper E} {s s' : State τ E} {l : Label τ}
    (h : next c X s l = some s') : Step c X s l s' := by
  cases l with
  | task t => exact step_of_taskStep h
  | uartWriteFails t =>
    cases hpc : s.pc t with
    | writeBlocking p i back =>
      simp only [next, hpc] at h
      split at h
      case isTrue hlt => exact Option.some.inj h ▸ .uartWriteFails hpc hlt
      case isFalse => cases h
    | _ => simp [next, hpc] at h
  | txByte =>
    simp only [next] at h
    split at h
    case isTrue hin =>
      obtain ⟨⟨b, fifo⟩, htake, rfl⟩ := Option.map_eq_some_iff.mp h
      exact .txByte hin htake
    case isFalse => cases h
  | txEmpty =>
    simp only [next] at h
    split at h
    case isTrue hin =>
      obtain ⟨n, hn⟩ : ∃ n, s.inFlight = n + 1 := ⟨s.inFlight - 1, by omega⟩
      have hn' : s.inFlight - 1 = n := by omega
      rw [hn', Option.some.injEq] at h
      exact h ▸ .txEmpty hn hin.2
    case isFalse => cases h

end Model

/-! ## The transfer in flight -/

section Unsent

variable {τ : Type u} {E : Type v} {s : State τ E}

/-- What the transfer in flight would still send if nothing more were written. -/
def unsent (s : State τ E) : List UInt8 :=
  if 0 < s.inFlight then s.txFifo.unread s.mem else []

theorem unsent_of_idle (h : s.inFlight = 0) : unsent s = [] := by simp [unsent, h]

theorem unsent_of_inFlight (h : 0 < s.inFlight) : unsent s = s.txFifo.unread s.mem := if_pos h

/-- Nothing is unsent when the transfer in flight, if there is one, is drained. -/
theorem unsent_of_drained (h : 0 < s.inFlight → s.txFifo.length ≤ s.txFifo.taken) :
    unsent s = [] := by
  by_cases hin : 0 < s.inFlight
  · rw [unsent_of_inFlight hin]
    exact Loan.unread_eq_nil (h hin) _
  · exact unsent_of_idle (by omega)

end Unsent

/-! ## The TX token -/

section Token

variable {τ : Type u} {E : Type v}

/-- Between a successful `waitForTxSemaphore` and the end of `Uart_writeAsync`. -/
def Pc.critical : Pc τ → Prop
  | .initFifo _ _ | .writeAsync _ => True
  | _ => False

@[simp] theorem critical_outside : ¬ (Pc.outside : Pc τ).critical := id
@[simp] theorem critical_loopHead (l : Loop) : ¬ (Pc.loopHead l : Pc τ).critical := id
@[simp] theorem critical_wait (p : Packet τ) (back : Option Loop) :
    ¬ (Pc.waitForTxSemaphore p back).critical := id
@[simp] theorem critical_initFifo (p : Packet τ) (back : Option Loop) :
    (Pc.initFifo p back).critical := trivial
@[simp] theorem critical_writeAsync (back : Option Loop) :
    (Pc.writeAsync back : Pc τ).critical := trivial
@[simp] theorem critical_writeBlocking (p : Packet τ) (i : ℕ) (back : Option Loop) :
    ¬ (Pc.writeBlocking p i back).critical := id
@[simp] theorem critical_stopped : ¬ (Pc.stopped : Pc τ).critical := id

@[simp] theorem critical_resume (back : Option Loop) : ¬ (resume back : Pc τ).critical := by
  cases back <;> exact id

@[simp] theorem critical_writePacket (c : Mode) (p : Packet τ) (back : Option Loop) :
    ¬ (writePacket c p back).critical := by
  unfold writePacket
  split <;> exact id

/-- The places of the TX token in a state. -/
abbrev TxCustody (s : State τ E) (o : Holder τ) : Prop :=
  Custody s.txSemaphore.available (fun t => (s.pc t).critical) s.inFlight o

variable [DecidableEq τ] {c : Mode} {X : Escaper E} {s s' : State τ E}

/-- **One step keeps the token conserved.** The token makes at most one move. -/
theorem TxCustody.step {l : Label τ} {o : Holder τ} (h : TxCustody s o) (hs : Step c X s l s') :
    ∃ o', Relation.ReflGen Move o o' ∧ TxCustody s' o' := by
  cases hs with
  | callerWrite => exact ⟨o, .refl, h⟩
  | callRaw hpc | callEscaped hpc | encode hpc | loopEnd hpc | initFifo hpc
  | blockingByte hpc | blockingEnd hpc | uartWriteFails hpc =>
    -- the task neither enters nor leaves its critical section
    exact ⟨o, .refl, h.congr (update_iff Pc.critical (by simp [hpc]))⟩
  | @obtain t p back hpc hav =>
    rw [TxCustody, hav] at h
    refine h.obtain (t := t) (by simp) fun t' ht' => ?_
    simp [ht']
  | @writeAsync t back hpc =>
    refine h.handOver (t := t) (by simp [hpc]) (by simp) (fun t' ht' => ?_) rfl
    simp [ht']
  | txByte => exact ⟨o, .refl, h⟩
  | txEmpty hin => exact h.release hin

/-- **The driver refines the abstract resource**, which is free at first. -/
theorem refines (c : Mode) (X : Escaper E) (mem : τ → ℕ → UInt8) (prog : τ → List CallerOp)
    (e : E) : (system c X mem prog e).Refines .free Move TxCustody := by
  constructor
  · exact ⟨by simp [system, initial], by simp [system, initial], by simp, fun _ => rfl⟩
  · intro s l s' o ho hs
    exact ho.step (step_of_next hs)

/-- **The TX token is conserved.** In every reachable state it is in exactly one place:
in the semaphore, with one sender, or with the transfer in flight. -/
theorem custody {mem : τ → ℕ → UInt8} {prog : τ → List CallerOp} {e : E}
    (h : (system c X mem prog e).Reachable s) : ∃ o, TxCustody s o := by
  obtain ⟨o, -, ho⟩ := (refines c X mem prog e).reachable h
  exact ⟨o, ho⟩

end Token
end Samrh71Drivers.Serial
