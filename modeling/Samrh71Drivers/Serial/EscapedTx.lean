import Samrh71Drivers.Serial.Tx
import Mathlib.Data.List.Infix

/-!
# Escaped packets with asynchronous transmission

One caller at a time sends messages through the Escaper, and the UART sends each packet
out of `m_encoded_packet_buffer` while the caller goes on. The wait for the previous
transfer is in the write callback, which runs after `Escaper_encode_packet` has already
written the next packet into that buffer.

The bytes on the wire are the packets of the encoder in order as long as the encoder is
called only when the transfer in flight has been drained (`encodesWhenDrained`); a run
with two short messages in which it is called earlier puts bytes of the second message
in the place of the first.

## Main definitions

* `encodesWhenDrained` — the condition on a step that calls the encoder.
* `wire_prefix_when_drained` — the wire under that condition.
-/

namespace Samrh71Drivers.Serial

open Transition Custodian Lending

universe u v

/-- The size of `m_encoded_packet_buffer`, passed to `Escaper_init`. -/
def encodedPacketMaxSize : ℕ := 256

/-- `escaped-packets` with `asynchronous`. -/
def escapedAsync : Mode := ⟨.escapedPackets, .asynchronous⟩

/-- A step that calls `Escaper_encode_packet` is taken only when the transfer in flight
has no unsent byte left in `m_encoded_packet_buffer`. -/
def encodesWhenDrained {τ : Type u} {E : Type v} (s : State τ E) : Label τ → Prop
  | .task t =>
    match s.pc t with
    | .loopHead l => l.index < l.length → 0 < s.inFlight → s.txFifo.length ≤ s.txFifo.taken
    | _ => True
  | _ => True

instance {τ : Type u} {E : Type v} (s : State τ E) (l : Label τ) :
    Decidable (encodesWhenDrained s l) := by
  unfold encodesWhenDrained
  split
  · split <;> infer_instance
  · infer_instance

section Invariant

variable {E : Type v} {X : Escaper E} {s s' : State Unit E}

/-- A packet waits in `m_encoded_packet_buffer` for its transfer: everything before it is
on the wire, and it is the last packet the encoder has produced. -/
def Waiting (s : State Unit E) (p : Packet Unit) : Prop :=
  p.region = .encodedPacketBuffer ∧ p.offset = 0 ∧ unsent s = [] ∧
    ∃ sent, s.packets = sent ++ [s.mem.bytes .encodedPacketBuffer 0 p.length] ∧
      s.wire = sent.flatten

/-- What holds where the caller is. -/
def WireAt (s : State Unit E) : Pc Unit → Prop
  | .outside | .loopHead _ => s.wire ++ unsent s = s.packets.flatten
  | .waitForTxSemaphore p (some _) | .initFifo p (some _) => Waiting s p
  | .writeAsync (some _) => s.txFifo.region = .encodedPacketBuffer ∧
      ∃ sent, s.packets = sent ++ [s.txFifo.unread s.mem] ∧ s.wire = sent.flatten
  | _ => False

/-- The invariant of the runs that encode only when the buffer is drained. -/
structure EscapedInv (s : State Unit E) : Prop where
  region : 0 < s.inFlight → s.txFifo.region = .encodedPacketBuffer
  wireAt : WireAt s (s.pc ())

/-- A write of the caller does not touch what is in flight. -/
private theorem EscapedInv.unsent_write (h : EscapedInv s) (t : Unit) (a : ℕ) (v : UInt8)
    (ops : Unit → List CallerOp) :
    unsent { s with mem := s.mem.write (.caller t) a v, todo := ops } = unsent s := by
  unfold unsent
  split
  case isTrue hin =>
    refine Loan.unread_write fun hcov => ?_
    have := hcov.1.trans (h.region hin)
    simp at this
  case isFalse => rfl

/-- The length passed on as a `uint16_t` is the length of the packet. -/
theorem toUInt16_packet (hX : X.bufferSize = encodedPacketMaxSize) (e : E)
    (data : List UInt8) (index : ℕ) :
    toUInt16 (X.encodePacket e data index).packet.length =
      (X.encodePacket e data index).packet.length := by
  have := X.packet_le e data index
  rw [hX, encodedPacketMaxSize] at this
  exact Nat.mod_eq_of_lt (by omega)

/-- With a transfer in flight the caller is outside its critical section: between two
packets, where the wire and the transfer make up the packets, or with a packet waiting. -/
private theorem pc_of_inFlight {o : Holder Unit} (hc : TxCustody s o) (h : EscapedInv s)
    (hin : 0 < s.inFlight) :
    (∀ t : State Unit E, WireAt t (s.pc ()) ↔ t.wire ++ unsent t = t.packets.flatten) ∨
      ∃ p lp, s.pc () = .waitForTxSemaphore p (some lp) := by
  have hwire := h.wireAt
  have hcrit : ¬ (s.pc ()).critical := fun hcr => by
    have := hc.owed_eq_zero (t := ()) hcr
    omega
  cases hpc : s.pc () with
  | outside | loopHead => exact .inl fun t => Iff.rfl
  | waitForTxSemaphore p back =>
    cases back with
    | none => simp [hpc, WireAt] at hwire
    | some lp => exact .inr ⟨p, lp, rfl⟩
  | initFifo | writeAsync => simp [hpc] at hcrit
  | writeBlocking | stopped => simp [hpc, WireAt] at hwire

/-- **One step keeps the invariant**, when it calls the encoder only on a drained buffer. -/
theorem EscapedInv.step {l : Label Unit} {o : Holder Unit}
    (hX : X.bufferSize = encodedPacketMaxSize) (hc : TxCustody s o) (h : EscapedInv s)
    (hok : encodesWhenDrained s l) (hs : Step escapedAsync X s l s') : EscapedInv s' := by
  have hwire := h.wireAt
  cases hs with
  | @callerWrite t a v ops hpc hops =>
    refine ⟨h.region, ?_⟩
    simp only [hpc, WireAt] at hwire ⊢
    rw [h.unsent_write, hwire]
  | callRaw _ _ hraw => cases hraw
  | @callEscaped t data length ops hpc =>
    cases t
    refine ⟨h.region, ?_⟩
    simpa [hpc, WireAt, unsent] using hwire
  | @encode t lp hpc hlt =>
    cases t
    -- the previous transfer is drained, so everything before this packet is on the wire
    simp only [encodesWhenDrained, hpc] at hok
    have hdrained : unsent s = [] := unsent_of_drained (hok hlt)
    refine ⟨h.region, ?_⟩
    simp only [hpc, WireAt, hdrained, List.append_nil] at hwire
    have hlen := toUInt16_packet hX s.escaper (s.mem.bytes (.caller ()) lp.data lp.length) lp.index
    simp only [encodeStep, Function.update_self]
    refine ⟨rfl, rfl, ?_, s.packets, ?_, hwire⟩
    · exact unsent_of_drained (hok hlt)
    · simp only [hlen, Store.bytes_fill]
  | @loopEnd t lp hpc =>
    cases t
    refine ⟨h.region, ?_⟩
    simpa [hpc, WireAt, unsent] using hwire
  | @obtain t p back hpc hav =>
    cases t
    refine ⟨h.region, ?_⟩
    cases back with
    | none => simp [hpc, WireAt] at hwire
    | some lp => simpa [hpc, WireAt, Waiting, unsent] using hwire
  | @initFifo t p back hpc =>
    cases t
    have hidle : s.inFlight = 0 := hc.owed_eq_zero (t := ()) (by simp [hpc])
    cases back with
    | none => simp [hpc, WireAt] at hwire
    | some lp =>
      simp only [hpc, WireAt, Waiting] at hwire
      obtain ⟨hregion, hoffset, -, sent, hpackets, hsent⟩ := hwire
      refine ⟨fun hin => absurd hin (by simp [hidle]), ?_⟩
      simp only [Function.update_self, WireAt]
      refine ⟨hregion, sent, ?_, hsent⟩
      rw [hpackets, Loan.unread_fresh, hregion, hoffset]
  | @writeAsync t back hpc =>
    cases t
    cases back with
    | none => simp [hpc, WireAt] at hwire
    | some lp =>
      simp only [hpc, WireAt] at hwire
      obtain ⟨hregion, sent, hpackets, hsent⟩ := hwire
      refine ⟨fun _ => hregion, ?_⟩
      simp only [Function.update_self, resume, WireAt]
      rw [unsent_of_inFlight (Nat.succ_pos _), hpackets, List.flatten_append, hsent]
      simp
  | blockingByte hpc | blockingEnd hpc | uartWriteFails hpc => simp [hpc, WireAt] at hwire
  | @txByte b fifo hin htake =>
    have hun := Loan.unread_of_take htake
    have hregion : fifo.region = .encodedPacketBuffer :=
      (Loan.region_of_take htake).trans (h.region hin)
    have hun' : unsent s = b :: fifo.unread s.mem := by rw [unsent_of_inFlight hin, hun]
    have hin' : unsent { s with wire := s.wire ++ [b], txFifo := fifo } = fifo.unread s.mem :=
      if_pos hin
    refine ⟨fun _ => hregion, ?_⟩
    change WireAt _ (s.pc ())
    rcases pc_of_inFlight hc h hin with hbetween | ⟨p, lp, hpc⟩
    · rw [hbetween, hun'] at hwire
      rw [hbetween, hin', List.append_assoc]
      exact hwire
    · simp [hpc, WireAt, Waiting, hun'] at hwire
  | @txEmpty n hin hempty =>
    have hidle : n = 0 := by
      have := hc.owed_le_one
      omega
    subst hidle
    have hdrained : unsent s = [] := unsent_of_drained fun _ => hempty
    have hidle' : unsent { s with inFlight := 0, txSemaphore := ⟨true⟩ } = [] := unsent_of_idle rfl
    refine ⟨fun hn => absurd hn (by simp), ?_⟩
    change WireAt _ (s.pc ())
    rcases pc_of_inFlight hc h (by omega) with hbetween | ⟨p, lp, hpc⟩
    · rw [hbetween, hdrained] at hwire
      rw [hbetween, hidle']
      exact hwire
    · simp only [hpc, WireAt, Waiting] at hwire ⊢
      exact ⟨hwire.1, hwire.2.1, hidle', hwire.2.2.2⟩

/-- The invariant holds in every state of the runs that encode on a drained buffer. -/
theorem escapedInv {mem : Unit → ℕ → UInt8} {prog : Unit → List CallerOp} {e : E}
    (hX : X.bufferSize = encodedPacketMaxSize)
    (h : (system escapedAsync X mem prog e).ReachableWhen encodesWhenDrained s) :
    EscapedInv s := by
  refine System.ReachableWhen.invariant (P := EscapedInv) ?_ ?_ h
  · exact ⟨fun hin => absurd hin (by simp [system, initial]), rfl⟩
  · intro s l s' hr hinv hok hs
    obtain ⟨o, ho⟩ := custody hr.reachable
    exact hinv.step hX ho hok (step_of_next hs)

end Invariant

section Wire

variable {E : Type v} {X : Escaper E} {s : State Unit E}

/-- What is on the wire, with what the transfer in flight will still send, is the
beginning of the encoder's packets. -/
theorem wire_unsent_prefix {mem : Unit → ℕ → UInt8} {prog : Unit → List CallerOp} {e : E}
    (hX : X.bufferSize = encodedPacketMaxSize)
    (h : (system escapedAsync X mem prog e).ReachableWhen encodesWhenDrained s) :
    s.wire ++ unsent s <+: s.packets.flatten := by
  have hwire := (escapedInv hX h).wireAt
  obtain ⟨o, ho⟩ := custody h.reachable
  cases hpc : s.pc () with
  | outside | loopHead =>
    simp only [hpc, WireAt] at hwire
    rw [hwire]
  | waitForTxSemaphore p back | initFifo p back =>
    cases back with
    | none => simp [hpc, WireAt] at hwire
    | some lp =>
      simp only [hpc, WireAt] at hwire
      obtain ⟨-, -, hdrained, sent, hpackets, hsent⟩ := hwire
      rw [hdrained, hpackets, hsent, List.flatten_append, List.append_nil]
      exact List.prefix_append _ _
  | writeAsync back =>
    have hidle : unsent s = [] := unsent_of_idle (ho.owed_eq_zero (t := ()) (by simp [hpc]))
    cases back with
    | none => simp [hpc, WireAt] at hwire
    | some lp =>
      simp only [hpc, WireAt] at hwire
      obtain ⟨-, sent, hpackets, hsent⟩ := hwire
      rw [hidle, hpackets, hsent, List.flatten_append, List.append_nil]
      exact List.prefix_append _ _
  | writeBlocking | stopped => simp [hpc, WireAt] at hwire

/-- A step that calls the encoder on a drained buffer only does not rewrite
`m_encoded_packet_buffer` under a transfer. -/
theorem encodedPacketBuffer_of_unsent {s' : State Unit E} {l : Label Unit}
    (hok : encodesWhenDrained s l) (hs : Step escapedAsync X s l s') (hun : unsent s ≠ []) (i : ℕ) :
    s'.mem .encodedPacketBuffer i = s.mem .encodedPacketBuffer i := by
  cases hs with
  | callerWrite => simp [Store.write_apply]
  | @encode t lp hpc hlt =>
    cases t
    simp only [encodesWhenDrained, hpc] at hok
    exact absurd (unsent_of_drained (hok hlt)) hun
  | _ => rfl

/-- **Escaped packets with asynchronous transmission.** When every packet is encoded on a
drained buffer, the wire carries the encoder's packets in order and no step rewrites the
buffer under a transfer. -/
theorem wire_prefix_when_drained {mem : Unit → ℕ → UInt8} {prog : Unit → List CallerOp} {e : E}
    (hX : X.bufferSize = encodedPacketMaxSize)
    (h : (system escapedAsync X mem prog e).ReachableWhen encodesWhenDrained s) :
    s.wire <+: s.packets.flatten ∧
      ∀ l s', encodesWhenDrained s l → (system escapedAsync X mem prog e).next s l = some s' →
        unsent s ≠ [] → ∀ i, s'.mem .encodedPacketBuffer i = s.mem .encodedPacketBuffer i := by
  constructor
  · have hunsent := wire_unsent_prefix hX h
    exact (List.prefix_append _ _).trans hunsent
  · intro l s' hok hs hun i
    exact encodedPacketBuffer_of_unsent hok (step_of_next hs) hun i

end Wire

/-! ## Two messages of one byte -/

/-- A caller with the bytes `1, 2, 3, …` in its memory that sends its first byte and then
its second one. -/
def twoMessages : System (State Unit ℕ) (Label Unit) :=
  system escapedAsync (stuffingEscaper byteStuffing encodedPacketMaxSize)
    (fun _ a => UInt8.ofNat (a + 1)) (fun _ => [.send 0 1, .send 1 1]) 0

/-- The caller's steps up to the start of the first transfer and its return. -/
def firstMessage : List (Label Unit) := List.replicate 6 (.task ())

/-- The caller waits for the wire before its second message. -/
theorem twoMessages_when_drained : ∃ s, twoMessages.ReachableWhen encodesWhenDrained s ∧
    s.packets = [[0x00, 1, 0xFF], [0x00, 2, 0xFF]] ∧ s.wire <+: s.packets.flatten := by
  have h := twoMessages.reachableWhen_get encodesWhenDrained
    (firstMessage ++ [.txByte, .txByte, .txByte, .task (), .task (), .txEmpty]) (by decide)
  exact ⟨_, h, rfl, (wire_prefix_when_drained rfl h).1⟩

/-- The caller encodes its second message while the first one is in flight. -/
theorem twoMessages_overwritten : ¬ ∀ s, twoMessages.Reachable s →
    s.wire <+: s.packets.flatten := by
  intro h
  have hwire := h _ (twoMessages.reachable_get
    (firstMessage ++ [.task (), .task (), .txByte, .txByte]) (by decide))
  exact absurd hwire (by decide)

end Samrh71Drivers.Serial
