import Samrh71Drivers.Spw.Rx
import Mathlib.Data.List.Infix

/-!
# Delivery of the received packets

Every packet the receiver has stored is handed over once, in order and unchanged, unless it
is malformed or has nothing left after the protocol ID is removed. The invariant follows
the buffer round: while it is with the receiver it holds the packets that are still to be
handed over (`inBuffer`); once the task has it, `rx_info` and `rx_data` show these packets
(`Shows`), and no step of the receiver can change them.

## Main definitions

* `survivor` — what is to be handed over of a stored packet.
* `Shows` — memory shows the packets in the buffer.
* `DeliveryInv` — the invariant.
* `rx_delivery` — delivery and exclusive access in every reachable state.
-/

namespace Samrh71Drivers.Spw.Rx

open Transition Custodian Lending

/-- What is to be handed over of a stored packet. -/
def survivor (removeProtId : Bool) (p : StoredPacket) : Option (List UInt8) :=
  if p.eop = false ∨ p.eep = true then none
  else
    let bytes := if removeProtId then p.bytes.drop 1 else p.bytes
    if bytes = [] then none else some bytes

/-- `rx_info[i]` and `rx_data` show the packet `p`. -/
def Shows (s : State) (i : ℕ) (p : StoredPacket) : Prop :=
  s.rxInfo i = p.entry ∧ s.rxData.bytes () 0 p.bytes.length = p.bytes

/-- The bytes from offset `a` on, as a part of the bytes from offset `0`. -/
theorem bytes_of_bytes_eq {m : Store Unit UInt8} {bs : List UInt8} {a n : ℕ}
    (h : m.bytes () 0 bs.length = bs) (hn : a + n = bs.length) : m.bytes () a n = bs.drop a := by
  have hsplit := m.bytes_add () 0 a n
  rw [hn, h, Nat.zero_add] at hsplit
  rw [hsplit, List.drop_left' (Store.length_bytes _ _ _ _)]

/-- **What `process_rx_packets` makes of an entry** is what is to be handed over of the
packet it shows. -/
theorem process_of_shows {removeProtId : Bool} {s : State} {i : ℕ} {p : StoredPacket}
    (h : Shows s i p) : (process removeProtId (s.rxInfo i)).map
      (fun r => s.rxData.bytes () r.1 r.2) = survivor removeProtId p := by
  rcases h with ⟨hinfo, hdata⟩
  rw [hinfo]
  by_cases hbad : p.eop = false ∨ p.eep = true
  · simp [process, survivor, StoredPacket.entry, hbad]
  · cases removeProtId with
    | false =>
      by_cases hlen : 0 < p.bytes.length
      · have hne : p.bytes ≠ [] := List.length_pos_iff.mp hlen
        simp [process, survivor, StoredPacket.entry, hbad, hlen, hne, hdata]
      · have hnil : p.bytes = [] := List.length_eq_zero_iff.mp (by omega)
        simp [process, survivor, StoredPacket.entry, hbad, hnil]
    | true =>
      by_cases hlen : 0 < p.bytes.length - 1
      · have hne : p.bytes.length ≠ 0 := by omega
        have hdrop : p.bytes.drop 1 ≠ [] := by
          intro hnil
          rw [List.drop_eq_nil_iff] at hnil
          omega
        have hbytes := bytes_of_bytes_eq (a := 1) (n := p.bytes.length - 1) hdata (by omega)
        simp only [process, survivor, StoredPacket.entry, hbad, hne, hlen, hdrop, if_true, if_false,
          Option.map_some, Nat.zero_add, hbytes]
      · have hnil : p.bytes.drop 1 = [] := by
          rw [List.drop_eq_nil_iff]
          omega
        by_cases hzero : p.bytes.length = 0
        · simp only [process, survivor, StoredPacket.entry, hbad, hzero, hnil, if_true, if_false,
            Option.map_none]
        · simp only [process, survivor, StoredPacket.entry, hbad, hzero, hlen, hnil, if_true,
            if_false, Option.map_none]

/-! ## The buffer round -/

/-- How many packets of the buffer the loop has dealt with, where the buffer matters. -/
def Pc.done : Pc → Option ℕ
  | .arm | .setNext => none
  | .spin | .wait | .previous => some 0
  | .test i _ | .getEntry i _ | .receivePacket i _ _ _ => some i

/-- The packets of the buffer the loop has not dealt with. -/
def toDeliver (s : State) : List StoredPacket :=
  match s.pc.done with
  | none => []
  | some i => s.inBuffer.drop i

/-- What holds where the task is: the receiver's count once the buffer is deactivated, and
the variables of the loop in `process_rx_packets`. -/
def DeliveryAt (removeProtId : Bool) (s : State) : Pc → Prop
  | .spin | .wait | .previous =>
    s.queued = false → s.active = false → s.previousReceived = s.inBuffer.length
  | .test i n => i ≤ n ∧ n = s.inBuffer.length
  | .getEntry i n => i < n ∧ n = s.inBuffer.length
  | .receivePacket i n data length => i < n ∧ n = s.inBuffer.length ∧
      ∀ p, s.inBuffer[i]? = some p →
        survivor removeProtId p = some (s.rxData.bytes () data length)
  | _ => True

/-- The invariant of reception. -/
structure DeliveryInv (removeProtId : Bool) (s : State) : Prop where
  delivered : s.delivered ++ (toDeliver s).filterMap (survivor removeProtId) =
    s.stored.filterMap (survivor removeProtId)
  queued : s.queued = true → s.inBuffer = []
  active : s.active = true → s.received = s.inBuffer.length
  fits : s.inBuffer.length ≤ spwPktrxBufferLength
  shows : ∀ i p, s.inBuffer[i]? = some p → Shows s i p
  deliveryAt : DeliveryAt removeProtId s s.pc

variable {removeProtId : Bool} {rxDataSize : ℕ} {s s' : State}

/-- The loop counter does not wrap around. -/
private theorem succ16_of_lt {i n : ℕ} (hi : i < n) (hn : n ≤ spwPktrxBufferLength) :
    succ16 i = i + 1 := by
  have : spwPktrxBufferLength = 1 := rfl
  exact Nat.mod_eq_of_lt (by omega)

/-- The packet the loop is at, and the ones after it. -/
private theorem drop_of_lt {i : ℕ} (hi : i < s.inBuffer.length) :
    ∃ p, s.inBuffer[i]? = some p ∧ s.inBuffer.drop i = p :: s.inBuffer.drop (i + 1) :=
  ⟨s.inBuffer[i], List.getElem?_eq_getElem hi, (List.cons_getElem_drop_succ).symm⟩

/-- While the receiver has the buffer the task is in the loop of `arm_rx_buffer` or waits. -/
private theorem spin_or_wait {o : Holder Unit} (hc : RxCustody s o)
    (hdev : s.queued = true ∨ s.active = true) : s.pc = .spin ∨ s.pc = .wait := by
  have hnot : ¬ s.pc.owns := by
    intro hown
    have hidle := idle_of_owns hc hown
    rcases hdev with hq | ha
    · simp [hidle.1] at hq
    · simp [hidle.2.1] at ha
  cases hpc : s.pc with
  | spin => exact .inl rfl
  | wait => exact .inr rfl
  | arm | setNext | previous | test | getEntry | receivePacket => simp [hpc] at hnot

/-- While the buffer can be written to, it is empty. -/
private theorem DeliveryInv.empty_of_writable (h : DeliveryInv removeProtId s)
    (hw : writable s) : s.inBuffer = [] ∧ s.received = 0 := by
  have hlen := h.active hw.1
  have hlt := hw.2
  have hone : spwPktrxBufferLength = 1 := rfl
  exact ⟨List.length_eq_zero_iff.mp (by omega), by omega⟩

/-- Writes of the receiver leave what holds where the task is. -/
private theorem deliveryAt_of_active (hpc : s.pc = .spin ∨ s.pc = .wait)
    (ha : s'.active = true) (hp : s'.pc = s.pc) : DeliveryAt removeProtId s' s'.pc := by
  rw [hp]
  rcases hpc with hpc | hpc
  · rw [hpc]
    intro _ ha'
    simp [ha] at ha'
  · rw [hpc]
    intro _ ha'
    simp [ha] at ha'

/-- **One step keeps the delivery invariant.** -/
theorem DeliveryInv.step {l : Label} {o : Holder Unit} (hc : RxCustody s o)
    (h : DeliveryInv removeProtId s) (hs : RxStep removeProtId rxDataSize s l s') :
    DeliveryInv removeProtId s' := by
  have hdel := h.delivered
  have hat := h.deliveryAt
  cases hs with
  | arm hpc =>
    refine ⟨?_, h.queued, h.active, h.fits, h.shows, trivial⟩
    simpa [toDeliver, Pc.done, hpc] using hdel
  | setNext hpc =>
    have hidle := idle_of_owns hc (by simp [hpc])
    constructor
    case delivered => simpa [toDeliver, Pc.done, hpc] using hdel
    case queued =>
      intro _
      rfl
    case active =>
      intro ha
      exact absurd ha (by simp [hidle.2.1])
    case fits => exact Nat.zero_le _
    case shows =>
      intro i p hp
      simp at hp
    case deliveryAt =>
      intro hq
      cases hq
  | spinActive hpc ha =>
    refine ⟨?_, h.queued, h.active, h.fits, h.shows, ?_⟩
    · simpa [toDeliver, Pc.done, hpc] using hdel
    · simpa [DeliveryAt, hpc] using hat
  | spin hpc ha => exact h
  | wait hpc hav =>
    refine ⟨?_, h.queued, h.active, h.fits, h.shows, ?_⟩
    · simpa [toDeliver, Pc.done, hpc] using hdel
    · simpa [DeliveryAt, hpc] using hat
  | previous hpc =>
    have hidle := idle_of_owns hc (by simp [hpc])
    rw [hpc] at hat
    refine ⟨?_, h.queued, h.active, h.fits, h.shows, Nat.zero_le _, hat hidle.1 hidle.2.1⟩
    simpa [toDeliver, Pc.done, hpc] using hdel
  | @next i n hpc hlt =>
    rw [hpc] at hat
    refine ⟨?_, h.queued, h.active, h.fits, h.shows, hlt, hat.2⟩
    simpa [toDeliver, Pc.done, hpc] using hdel
  | @finish i n hpc hlt =>
    rw [hpc] at hat
    refine ⟨?_, h.queued, h.active, h.fits, h.shows, trivial⟩
    have hnil : s.inBuffer.drop i = [] := List.drop_eq_nil_of_le (by
      have := hat.2
      omega)
    simpa [toDeliver, Pc.done, hpc, hnil] using hdel
  | @drop i n hpc hnone =>
    rw [hpc] at hat
    rcases hat with ⟨hlt, hn⟩
    have hfits := h.fits
    rcases drop_of_lt (s := s) (i := i) (by omega) with ⟨p, hp, hdrop⟩
    have hgone : survivor removeProtId p = none := by
      rw [← process_of_shows (h.shows i p hp), hnone]
      rfl
    have hi : succ16 i = i + 1 := succ16_of_lt hlt (by omega)
    refine ⟨?_, h.queued, h.active, h.fits, h.shows, ?_, hn⟩
    · simpa [toDeliver, Pc.done, hpc, hdrop, hgone, hi] using hdel
    · omega
  | @keep i n data length hpc hsome =>
    rw [hpc] at hat
    rcases hat with ⟨hlt, hn⟩
    refine ⟨?_, h.queued, h.active, h.fits, h.shows, hlt, hn, fun p hp => ?_⟩
    · simpa [toDeliver, Pc.done, hpc] using hdel
    · rw [← process_of_shows (h.shows i p hp), hsome]
      rfl
  | @receivePacket i n data length hpc =>
    rw [hpc] at hat
    rcases hat with ⟨hlt, hn, hbytes⟩
    have hfits := h.fits
    rcases drop_of_lt (s := s) (i := i) (by omega) with ⟨p, hp, hdrop⟩
    have hkept := hbytes p hp
    have hi : succ16 i = i + 1 := succ16_of_lt hlt (by omega)
    refine ⟨?_, h.queued, h.active, h.fits, h.shows, ?_, hn⟩
    · simpa [toDeliver, Pc.done, hpc, hdrop, hkept, hi] using hdel
    · omega
  | activate hq ha =>
    have hempty := h.queued hq
    constructor
    case delivered => exact hdel
    case queued =>
      intro hq'
      cases hq'
    case active =>
      intro _
      simp [hempty]
    case fits => exact h.fits
    case shows => exact h.shows
    case deliveryAt => exact deliveryAt_of_active (spin_or_wait hc (.inl hq)) rfl rfl
  | writeData hw | writeInfo hw =>
    -- memory shows nothing yet, so there is nothing to overwrite
    have hempty := (h.empty_of_writable hw).1
    refine ⟨hdel, h.queued, h.active, h.fits, ?_, ?_⟩
    · intro i p hp
      simp [hempty] at hp
    · exact deliveryAt_of_active (spin_or_wait hc (.inr hw.1)) hw.1 rfl
  | @store p hw hlen =>
    obtain ⟨hempty, hzero⟩ := h.empty_of_writable hw
    have hpc := spin_or_wait hc (.inr hw.1)
    have hdone : s.pc.done = some 0 := by
      rcases hpc with hpc | hpc <;> rw [hpc] <;> rfl
    constructor
    case delivered =>
      simp only [toDeliver, hdone, hempty, List.drop_zero, List.filterMap_nil,
        List.append_nil] at hdel
      simp only [toDeliver, hdone, hempty, List.drop_zero, List.nil_append, List.filterMap_append,
        hdel]
    case queued =>
      intro hq
      exact absurd hq (by simp [not_queued_of_active hc hw.1])
    case active =>
      intro _
      simp [hempty, hzero]
    case fits => simp [hempty, spwPktrxBufferLength]
    case shows =>
      intro i q hq
      -- the packet is the only one, in entry `0`
      simp only [hempty, List.nil_append, List.getElem?_singleton] at hq
      split at hq
      case isTrue hi =>
        cases hq
        subst hi
        exact ⟨by simp [hzero], Store.bytes_fill _ _ _⟩
      case isFalse => cases hq
    case deliveryAt => exact deliveryAt_of_active hpc hw.1 rfl
  | deactivate ha =>
    have hlen := h.active ha
    constructor
    case delivered => exact hdel
    case queued => exact h.queued
    case active =>
      intro ha'
      cases ha'
    case fits => exact h.fits
    case shows => exact h.shows
    case deliveryAt =>
      rcases spin_or_wait hc (.inr ha) with hpc | hpc
      · simp only [hpc]
        exact fun _ _ => hlen
      · simp only [hpc]
        exact fun _ _ => hlen
  | interrupt | release => exact ⟨hdel, h.queued, h.active, h.fits, h.shows, hat⟩

/-- The delivery invariant holds in every reachable state. -/
theorem deliveryInv (h : (rxSystem removeProtId rxDataSize).Reachable s) :
    DeliveryInv removeProtId s := by
  refine System.ReachableWhen.invariant (P := DeliveryInv removeProtId) ?_ ?_ h
  · refine ⟨rfl, fun _ => rfl, fun ha => ?_, Nat.zero_le _, fun i p hp => ?_, trivial⟩
    · cases ha
    · cases hp
  · intro s l s' hr hi _ hs
    rcases rxCustody hr with ⟨o, ho⟩
    exact hi.step ho (rxStep_of_next hs)

/-- **Delivery.** In every reachable state the packets handed over are a beginning of what
is to be handed over of the stored ones, `rx_info` and `rx_data` are read only while no
buffer is queued or active, and `rx_info` is read within its bounds. -/
theorem rx_delivery (h : (rxSystem removeProtId rxDataSize).Reachable s) :
    s.delivered <+: s.stored.filterMap (survivor removeProtId) ∧
      ((∃ i n, s.pc = .getEntry i n) ∨ (∃ i n data length, s.pc = .receivePacket i n data length) →
        s.queued = false ∧ s.active = false) ∧
      ∀ i n, s.pc = .getEntry i n → i < rxPacketCount := by
  rcases rxCustody h with ⟨o, hc⟩
  have hinv := deliveryInv h
  refine ⟨⟨_, hinv.delivered⟩, ?_, ?_⟩
  · rintro (⟨i, n, hpc⟩ | ⟨i, n, data, length, hpc⟩)
    · have hidle := idle_of_owns hc (by simp [hpc])
      exact ⟨hidle.1, hidle.2.1⟩
    · have hidle := idle_of_owns hc (by simp [hpc])
      exact ⟨hidle.1, hidle.2.1⟩
  · intro i n hpc
    have hat := hinv.deliveryAt
    rw [hpc] at hat
    exact Nat.lt_of_lt_of_le hat.1 (hat.2 ▸ hinv.fits)

/-- One round of the poll task, with a packet that is stored while the buffer is active. -/
def rxRound (p : StoredPacket) : List Label :=
  [.poll, .poll, .activate, .poll, .store p, .deactivate, .interrupt, .release, .poll, .poll,
    .poll, .poll, .poll]

/-- A packet with EEP is dropped, and the next one loses its protocol ID. -/
theorem malformed_then_delivered : ∃ s, (rxSystem true 16).Reachable s ∧
    s.stored = [⟨true, true, [5, 6]⟩, ⟨true, false, [7, 8]⟩] ∧ s.delivered = [[8]] ∧
    s.delivered <+: s.stored.filterMap (survivor true) := by
  have h := (rxSystem true 16).reachable_get
    (rxRound ⟨true, true, [5, 6]⟩ ++ rxRound ⟨true, false, [7, 8]⟩) (by decide)
  exact ⟨_, h, rfl, rfl, (rx_delivery h).1⟩

end Samrh71Drivers.Spw.Rx
