import Samrh71Drivers.Lib.Transition
import Samrh71Drivers.Lib.Custody
import Samrh71Drivers.Lib.Loan
import Samrh71Drivers.Rtems

/-!
# Reception in the SpaceWire driver

The poll task of one instance with the receiver it drives. One label is one step of the
task, of the receiver, or of the interrupt handler.

`arm_rx_buffer` hands the one-entry RX buffer to the receiver and polls the status until it
shows the buffer active; `wait_for_rx_deactivation` waits for the semaphore that
`spw_rx_callback` releases; `process_rx_packets` hands the packets over. The receiver
activates a queued buffer, writes to `rx_info` and `rx_data` while the buffer is active and
not full, and may deactivate it at any time. A packet that finds no room stalls.

The buffer is one resource that the task hands to the receiver and gets back through the
semaphore, so `custody` is that of a system with a single client.

## Main definitions

* `RxBufferEntry`, `StoredPacket` — an entry of `rx_info`, and a packet in the buffer.
* `State`, `pollStep`, `next`, `rxSystem` — the transition system.
* `RxStep` — the same steps, as an inversion principle.
* `rxRefines`, `rxCustody` — the buffer is with the task, with the receiver, or announced.
-/

namespace Samrh71Drivers.Spw.Rx

open Transition Custodian Lending

/-- `SPW_PKTRX_BUFFER_LENGTH`, the number of packets the buffer is armed for. -/
def spwPktrxBufferLength : ℕ := 1

/-- `SAMRH71_RTEMS_SPW_RX_PACKET_COUNT`, the number of entries of `rx_info`. -/
def rxPacketCount : ℕ := 1

/-- `Spw_Rx_RxBufferEntryStruct`; `dataAddress` is an offset in `rx_data`. -/
structure RxBufferEntry where
  wasEopReceived : Bool
  wasEepReceived : Bool
  dataAddress : ℕ
  dataLength : ℕ
  deriving DecidableEq

/-- A packet the receiver has stored. -/
structure StoredPacket where
  eop : Bool
  eep : Bool
  bytes : List UInt8
  deriving DecidableEq

/-- The entry the receiver writes for a packet at the beginning of `rx_data`. -/
def StoredPacket.entry (p : StoredPacket) : RxBufferEntry := ⟨p.eop, p.eep, 0, p.bytes.length⟩

/-- Where the poll task is. `i` and `n` are the counter of the loop in
`process_rx_packets` and `receivedPackets`. -/
inductive Pc
  /-- Before `rx_deactivated = false`. -/
  | arm
  /-- Before `Spw_Rx_setNextRxBuffer`. -/
  | setNext
  /-- In the loop on `isCurrentReceiveBufferActive`. -/
  | spin
  /-- In `wait_for_rx_deactivation`. -/
  | wait
  /-- Before `Spw_Rx_getPreviousRxBufferStatus`. -/
  | previous
  /-- At the test of the loop. -/
  | test (i n : ℕ)
  /-- Before `Spw_Rx_getRxBufferEntry` on `rx_info[i]`. -/
  | getEntry (i n : ℕ)
  /-- Before `Broker_receive_packet` on `length` bytes at `data`. -/
  | receivePacket (i n data length : ℕ)
  deriving DecidableEq

/-- The receiver, the buffer in memory and the poll task, and a record of the packets
stored since the start, stored in the last armed buffer, and handed over. -/
structure State where
  rxInfo : ℕ → RxBufferEntry
  rxData : Store Unit UInt8
  queued : Bool
  active : Bool
  /-- The number of packets in the active buffer. -/
  received : ℕ
  /-- `receivedPackets` of the buffer deactivated last. -/
  previousReceived : ℕ
  /-- Deactivations whose interrupt has not been taken. -/
  deactivated : ℕ
  /-- In `spw_rx_callback`, before the release. -/
  inCallback : Bool
  rxDeactivated : Bool
  rxSemaphore : Semaphore
  pc : Pc
  stored : List StoredPacket
  inBuffer : List StoredPacket
  delivered : List (List UInt8)

/-- The choices of the environment. -/
inductive Label
  | poll
  /-- The receiver activates the queued buffer. -/
  | activate
  /-- The receiver writes a byte of a packet that is coming in. -/
  | writeData (a : ℕ) (v : UInt8)
  /-- The receiver writes an entry of a packet that is coming in. -/
  | writeInfo (i : ℕ) (e : RxBufferEntry)
  /-- The receiver stores a packet that has come in. -/
  | store (p : StoredPacket)
  | deactivate
  /-- The deactivation interrupt enters `spw_rx_callback`. -/
  | interrupt
  /-- `spw_rx_callback` releases the semaphore. -/
  | release

/-- What `process_rx_packets` hands over of a packet: nothing if it is malformed or left
empty, else its data, without the protocol ID where that is removed. -/
def process (removeProtId : Bool) (e : RxBufferEntry) : Option (ℕ × ℕ) :=
  if e.wasEopReceived = false ∨ e.wasEepReceived = true then none
  else if removeProtId then
    if e.dataLength = 0 then none
    else if 0 < e.dataLength - 1 then some (e.dataAddress + 1, e.dataLength - 1) else none
  else if 0 < e.dataLength then some (e.dataAddress, e.dataLength) else none

/-- The increment of the `uint16_t` counter. -/
def succ16 (i : ℕ) : ℕ := (i + 1) % 65536

/-- One step of `samrh71_rtems_spacewire_poll`. -/
def pollStep (removeProtId : Bool) (s : State) : Option State :=
  match s.pc with
  | .arm => some { s with rxDeactivated := false, pc := .setNext }
  | .setNext => some { s with queued := true, inBuffer := [], pc := .spin }
  | .spin => some { s with pc := if s.active then .wait else .spin }
  | .wait => s.rxSemaphore.obtain.map fun sem => { s with rxSemaphore := sem, pc := .previous }
  | .previous => some { s with pc := .test 0 s.previousReceived }
  | .test i n => some { s with pc := if i < n then .getEntry i n else .arm }
  | .getEntry i n => some { s with
      pc := match process removeProtId (s.rxInfo i) with
        | none => .test (succ16 i) n
        | some (data, length) => .receivePacket i n data length }
  | .receivePacket i n data length => some { s with
      delivered := s.delivered ++ [s.rxData.bytes () data length]
      pc := .test (succ16 i) n }

/-- The receiver may write to the buffer. -/
def writable (s : State) : Prop := s.active = true ∧ s.received < spwPktrxBufferLength

instance (s : State) : Decidable (writable s) := inferInstanceAs (Decidable (_ ∧ _))

/-- One step of the system; `rxDataSize` is `SAMRH71_RTEMS_SPW_RX_DATA_SIZE`. -/
def next (removeProtId : Bool) (rxDataSize : ℕ) (s : State) : Label → Option State
  | .poll => pollStep removeProtId s
  | .activate =>
    if s.queued = true ∧ s.active = false then
      some { s with queued := false, active := true, received := 0 }
    else none
  | .writeData a v =>
    if writable s ∧ a < rxDataSize then some { s with rxData := s.rxData.write () a v } else none
  | .writeInfo i e =>
    if writable s ∧ i < rxPacketCount then
      some { s with rxInfo := Function.update s.rxInfo i e }
    else none
  | .store p =>
    if writable s ∧ p.bytes.length ≤ rxDataSize then
      some { s with
        rxData := s.rxData.fill () p.bytes
        rxInfo := Function.update s.rxInfo s.received p.entry
        received := s.received + 1
        stored := s.stored ++ [p]
        inBuffer := s.inBuffer ++ [p] }
    else none
  | .deactivate =>
    if s.active = true then
      some { s with
        active := false
        previousReceived := s.received
        deactivated := s.deactivated + 1 }
    else none
  | .interrupt =>
    if 0 < s.deactivated ∧ s.inCallback = false then
      some { s with deactivated := s.deactivated - 1, inCallback := true, rxDeactivated := true }
    else none
  | .release =>
    if s.inCallback = true then
      some { s with inCallback := false, rxSemaphore := s.rxSemaphore.release }
    else none

/-- The state after `samrh71_rtems_spacewire_init`: the RX semaphore has no token. -/
def initial : State where
  rxInfo _ := ⟨false, false, 0, 0⟩
  rxData _ _ := 0
  queued := false
  active := false
  received := 0
  previousReceived := 0
  deactivated := 0
  inCallback := false
  rxDeactivated := false
  rxSemaphore := Semaphore.create 0
  pc := .arm
  stored := []
  inBuffer := []
  delivered := []

/-- The transition system of the poll task and the receiver. -/
def rxSystem (removeProtId : Bool) (rxDataSize : ℕ) : System State Label where
  init := initial
  next := next removeProtId rxDataSize

/-- Every step of the system, with what it needs and what it does. -/
inductive RxStep (removeProtId : Bool) (rxDataSize : ℕ) (s : State) : Label → State → Prop
  | arm : s.pc = .arm →
      RxStep removeProtId rxDataSize s .poll { s with rxDeactivated := false, pc := .setNext }
  | setNext : s.pc = .setNext →
      RxStep removeProtId rxDataSize s .poll { s with queued := true, inBuffer := [], pc := .spin }
  | spinActive : s.pc = .spin → s.active = true →
      RxStep removeProtId rxDataSize s .poll { s with pc := .wait }
  | spin : s.pc = .spin → s.active = false → RxStep removeProtId rxDataSize s .poll s
  | wait : s.pc = .wait → s.rxSemaphore.available = true →
      RxStep removeProtId rxDataSize s .poll { s with rxSemaphore := ⟨false⟩, pc := .previous }
  | previous : s.pc = .previous →
      RxStep removeProtId rxDataSize s .poll { s with pc := .test 0 s.previousReceived }
  | next {i n} : s.pc = .test i n → i < n →
      RxStep removeProtId rxDataSize s .poll { s with pc := .getEntry i n }
  | finish {i n} : s.pc = .test i n → ¬ i < n →
      RxStep removeProtId rxDataSize s .poll { s with pc := .arm }
  | drop {i n} : s.pc = .getEntry i n → process removeProtId (s.rxInfo i) = none →
      RxStep removeProtId rxDataSize s .poll { s with pc := .test (succ16 i) n }
  | keep {i n data length} : s.pc = .getEntry i n →
      process removeProtId (s.rxInfo i) = some (data, length) →
      RxStep removeProtId rxDataSize s .poll { s with pc := .receivePacket i n data length }
  | receivePacket {i n data length} : s.pc = .receivePacket i n data length →
      RxStep removeProtId rxDataSize s .poll { s with
        delivered := s.delivered ++ [s.rxData.bytes () data length]
        pc := .test (succ16 i) n }
  | activate : s.queued = true → s.active = false →
      RxStep removeProtId rxDataSize s .activate
        { s with queued := false, active := true, received := 0 }
  | writeData {a v} : writable s → a < rxDataSize →
      RxStep removeProtId rxDataSize s (.writeData a v)
        { s with rxData := s.rxData.write () a v }
  | writeInfo {i e} : writable s → i < rxPacketCount →
      RxStep removeProtId rxDataSize s (.writeInfo i e)
        { s with rxInfo := Function.update s.rxInfo i e }
  | store {p} : writable s → p.bytes.length ≤ rxDataSize →
      RxStep removeProtId rxDataSize s (.store p) { s with
        rxData := s.rxData.fill () p.bytes
        rxInfo := Function.update s.rxInfo s.received p.entry
        received := s.received + 1
        stored := s.stored ++ [p]
        inBuffer := s.inBuffer ++ [p] }
  | deactivate : s.active = true →
      RxStep removeProtId rxDataSize s .deactivate { s with
        active := false
        previousReceived := s.received
        deactivated := s.deactivated + 1 }
  | interrupt {n} : s.deactivated = n + 1 → s.inCallback = false →
      RxStep removeProtId rxDataSize s .interrupt
        { s with deactivated := n, inCallback := true, rxDeactivated := true }
  | release : s.inCallback = true →
      RxStep removeProtId rxDataSize s .release
        { s with inCallback := false, rxSemaphore := ⟨true⟩ }

variable {removeProtId : Bool} {rxDataSize : ℕ} {s s' : State}

theorem rxStep_of_pollStep (h : pollStep removeProtId s = some s') :
    RxStep removeProtId rxDataSize s .poll s' := by
  cases hpc : s.pc with
  | arm =>
    simp only [pollStep, hpc, Option.some.injEq] at h
    exact h ▸ .arm hpc
  | setNext =>
    simp only [pollStep, hpc, Option.some.injEq] at h
    exact h ▸ .setNext hpc
  | spin =>
    cases ha : s.active with
    | true =>
      have hs : pollStep removeProtId s = some { s with pc := .wait } := by
        simp [pollStep, hpc, ha]
      rw [hs] at h
      exact Option.some.inj h ▸ .spinActive hpc ha
    | false =>
      have hs : pollStep removeProtId s = some { s with pc := .spin } := by
        simp [pollStep, hpc, ha]
      rw [hs, ← hpc] at h
      exact Option.some.inj h ▸ .spin hpc ha
  | wait =>
    simp only [pollStep, hpc, Option.map_eq_some_iff, Semaphore.obtain_eq_some_iff] at h
    rcases h with ⟨sem, ⟨hav, rfl⟩, rfl⟩
    exact .wait hpc hav
  | previous =>
    simp only [pollStep, hpc, Option.some.injEq] at h
    exact h ▸ .previous hpc
  | test i n =>
    by_cases hlt : i < n
    · simp only [pollStep, hpc, hlt, if_true, Option.some.injEq] at h
      exact h ▸ .next hpc hlt
    · simp only [pollStep, hpc, hlt, if_false, Option.some.injEq] at h
      exact h ▸ .finish hpc hlt
  | getEntry i n =>
    cases hp : process removeProtId (s.rxInfo i) with
    | none =>
      simp only [pollStep, hpc, hp, Option.some.injEq] at h
      exact h ▸ .drop hpc hp
    | some r =>
      simp only [pollStep, hpc, hp, Option.some.injEq] at h
      exact h ▸ .keep hpc hp
  | receivePacket i n data length =>
    simp only [pollStep, hpc, Option.some.injEq] at h
    exact h ▸ .receivePacket hpc

/-- **Inversion.** Every step of the system is one of the cases of `RxStep`. -/
theorem rxStep_of_next {l : Label} (h : next removeProtId rxDataSize s l = some s') :
    RxStep removeProtId rxDataSize s l s' := by
  cases l with
  | poll => exact rxStep_of_pollStep h
  | activate =>
    by_cases hc : s.queued = true ∧ s.active = false
    · simp only [next, hc, and_self, if_true, Option.some.injEq] at h
      exact h ▸ .activate hc.1 hc.2
    · simp [next, hc] at h
  | writeData a v =>
    by_cases hc : writable s ∧ a < rxDataSize
    · simp only [next, hc, and_self, if_true, Option.some.injEq] at h
      exact h ▸ .writeData hc.1 hc.2
    · simp [next, hc] at h
  | writeInfo i e =>
    by_cases hc : writable s ∧ i < rxPacketCount
    · simp only [next, hc, and_self, if_true, Option.some.injEq] at h
      exact h ▸ .writeInfo hc.1 hc.2
    · simp [next, hc] at h
  | store p =>
    by_cases hc : writable s ∧ p.bytes.length ≤ rxDataSize
    · simp only [next, hc, and_self, if_true, Option.some.injEq] at h
      exact h ▸ .store hc.1 hc.2
    · simp [next, hc] at h
  | deactivate =>
    by_cases hc : s.active = true
    · simp only [next, hc, if_true, Option.some.injEq] at h
      exact h ▸ .deactivate hc
    · simp [next, hc] at h
  | interrupt =>
    by_cases hc : 0 < s.deactivated ∧ s.inCallback = false
    · rcases Nat.exists_eq_succ_of_ne_zero (Nat.ne_of_gt hc.1) with ⟨n, hn⟩
      have hn' : s.deactivated - 1 = n := by omega
      simp only [next, hc, and_self, if_true, hn', Option.some.injEq] at h
      exact h ▸ .interrupt hn hc.2
    · simp [next, hc] at h
  | release =>
    by_cases hc : s.inCallback = true
    · simp only [next, hc, if_true, Option.some.injEq] at h
      exact h ▸ .release hc
    · simp [next, hc] at h

/-! ## The buffer -/

/-- The poll task has the buffer: between the obtain of the semaphore and the next
`Spw_Rx_setNextRxBuffer`. -/
def Pc.owns : Pc → Prop
  | .spin | .wait => False
  | _ => True

@[simp] theorem owns_arm : Pc.arm.owns := trivial
@[simp] theorem owns_setNext : Pc.setNext.owns := trivial
@[simp] theorem owns_spin : ¬ Pc.spin.owns := id
@[simp] theorem owns_wait : ¬ Pc.wait.owns := id
@[simp] theorem owns_previous : Pc.previous.owns := trivial
@[simp] theorem owns_test (i n : ℕ) : (Pc.test i n).owns := trivial
@[simp] theorem owns_getEntry (i n : ℕ) : (Pc.getEntry i n).owns := trivial
@[simp] theorem owns_receivePacket (i n data length : ℕ) :
    (Pc.receivePacket i n data length).owns := trivial

/-- The buffers with the receiver, or whose deactivation has not been turned into a
release. -/
def owed (s : State) : ℕ :=
  s.queued.toNat + s.active.toNat + s.deactivated + s.inCallback.toNat

/-- The places of the buffer in a state. -/
abbrev RxCustody (s : State) (o : Holder Unit) : Prop :=
  Custody s.rxSemaphore.available (fun _ => s.pc.owns) (owed s) o

/-- **One step keeps the buffer in one place.** The buffer makes at most one move. -/
theorem RxCustody.step {l : Label} {o : Holder Unit} (h : RxCustody s o)
    (hs : RxStep removeProtId rxDataSize s l s') :
    ∃ o', Relation.ReflGen Move o o' ∧ RxCustody s' o' := by
  cases hs with
  | arm hpc | spinActive hpc | previous hpc | next hpc | finish hpc | drop hpc | keep hpc
  | receivePacket hpc =>
    exact ⟨o, .refl, h.congr fun _ => by simp [hpc]⟩
  | spin | writeData | writeInfo | store => exact ⟨o, .refl, h⟩
  | setNext hpc =>
    have hidle : owed s = 0 := h.owed_eq_zero (t := ()) (by simp [hpc])
    have howed : owed { s with queued := true, inBuffer := [], pc := .spin } = owed s + 1 := by
      simp only [owed] at hidle ⊢
      simp only [Bool.toNat_true]
      omega
    refine h.handOver (t := ()) (by simp [hpc]) (by simp) (fun t ht => ?_) howed
    exact absurd rfl ht
  | wait hpc hav =>
    rw [RxCustody, hav] at h
    refine h.obtain (t := ()) (by simp) fun t ht => ?_
    exact absurd rfl ht
  -- the receiver moves the buffer from one stage to the next
  | activate hq ha => exact ⟨o, .refl, h.moved (by simp [owed, hq, ha])⟩
  | deactivate ha =>
    refine ⟨o, .refl, h.moved ?_⟩
    simp only [owed, ha, Bool.toNat_true, Bool.toNat_false]
    omega
  | interrupt hn hcb =>
    refine ⟨o, .refl, h.moved ?_⟩
    simp only [owed, hn, hcb, Bool.toNat_true, Bool.toNat_false]
    omega
  | release hcb => exact h.release (by simp [owed, hcb])

/-- **The driver refines the abstract resource**, which the poll task has at first. -/
theorem rxRefines (removeProtId : Bool) (rxDataSize : ℕ) :
    (rxSystem removeProtId rxDataSize).Refines (.client ()) Move RxCustody := by
  constructor
  · exact ⟨by simp [rxSystem, initial], by simp [rxSystem, initial], by simp, fun _ => rfl⟩
  · intro s l s' o ho hs
    exact ho.step (rxStep_of_next hs)

/-- **The buffer is in one place** in every reachable state: with the poll task, with the
receiver or its interrupt, or announced by the semaphore. -/
theorem rxCustody (h : (rxSystem removeProtId rxDataSize).Reachable s) :
    ∃ o, RxCustody s o := by
  obtain ⟨o, -, ho⟩ := (rxRefines removeProtId rxDataSize).reachable h
  exact ⟨o, ho⟩

/-- No buffer is queued or active while the poll task has it. -/
theorem idle_of_owns {o : Holder Unit} (h : RxCustody s o) (hpc : s.pc.owns) :
    s.queued = false ∧ s.active = false ∧ s.deactivated = 0 ∧ s.inCallback = false := by
  have howed := h.owed_eq_zero (t := ()) hpc
  simp only [owed] at howed
  refine ⟨?_, ?_, by omega, ?_⟩
  · exact Bool.toNat_eq_zero.mp (by omega)
  · exact Bool.toNat_eq_zero.mp (by omega)
  · exact Bool.toNat_eq_zero.mp (by omega)

/-- The buffer is not queued while it is active. -/
theorem not_queued_of_active {o : Holder Unit} (hc : RxCustody s o)
    (ha : s.active = true) : s.queued = false := by
  have hone := hc.owed_le_one
  simp only [owed, ha, Bool.toNat_true] at hone
  exact Bool.toNat_eq_zero.mp (by omega)

end Samrh71Drivers.Spw.Rx
