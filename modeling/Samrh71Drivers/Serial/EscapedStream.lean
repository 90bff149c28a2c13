import Samrh71Drivers.Escaper.Line
import Samrh71Drivers.Serial.EscapedTx
import Samrh71Drivers.Serial.RawTx
import Samrh71Drivers.Serial.Shared

/-!
# What escaped mode puts on the wire

One caller sends messages in escaped mode, with either kind of transmission. The encoder keeps
a balance: the packets it has produced, what it has still to produce for the message at hand,
and the messages of the rest of the program make up the line bytes of all messages
(`EncodeInv`). The wire shows a beginning of them (`escaped_wire_begins`), and all of them at
the end (`escaped_wire_done`); with asynchronous transmission, where every packet is encoded
on a drained buffer.

## Main definitions

* `EncodeInv` — the balance of the encoder.
* `BlockingInv` — the wire of blocking mode.
-/

namespace Samrh71Drivers.Serial

open Transition Custodian Lending

universe u v

/-! ## The encoder -/

section Encoder

variable {E : Type v} {X : Escaper E} {F : Framing X} {tx : TxMode} {s s' : State Unit E}
  {total : List UInt8}

/-- The loop a task is in. -/
def Pc.back {τ : Type u} : Pc τ → Option Loop
  | .loopHead l => some l
  | .waitForTxSemaphore _ back | .initFifo _ back | .writeAsync back
  | .writeBlocking _ _ back => back
  | .outside | .stopped => none

/-- The message of a loop. -/
def Loop.message (l : Loop) (mem : Store (Region Unit) UInt8) : List UInt8 :=
  mem.bytes (.caller ()) l.data l.length

/-- The line bytes that the encoder has still to produce for the message at hand. -/
def Encoding (F : Framing X) (s : State Unit E) (rest : List UInt8) : Option Loop → Prop
  | none => rest = []
  | some l => ∃ p, F.Returned (l.message s.mem) s.escaper p ∧
      l.index = F.consumed (l.message s.mem) p ∧ Reached F (l.message s.mem) p ∧
      rest = (lineBytes F (l.message s.mem)).drop p

/-- The invariant of the encoder, where `total` is what the program puts on the line. -/
structure EncodeInv (F : Framing X) (total : List UInt8) (s : State Unit E) : Prop where
  begun : s.packets.flatten <+: total
  balance : s.pc () ≠ .stopped → ∃ rest, Encoding F s rest (s.pc ()).back ∧
    s.packets.flatten ++ rest ++ (messages s.mem (s.todo ())).flatMap (lineBytes F) = total

/-- The balance shows what has begun. -/
private theorem EncodeInv.of_balance (rest : List UInt8) (hrest : Encoding F s rest (s.pc ()).back)
    (h : s.packets.flatten ++ rest ++ (messages s.mem (s.todo ())).flatMap (lineBytes F) = total) :
    EncodeInv F total s := by
  refine ⟨?_, fun _ => ⟨rest, hrest, h⟩⟩
  rw [← h, List.append_assoc]
  exact List.prefix_append _ _

/-- A step that leaves the encoder and the loop the caller is in. -/
private theorem EncodeInv.of_frame (h : EncodeInv F total s) (hlive : s.pc () ≠ .stopped)
    (hback : (s'.pc ()).back = (s.pc ()).back) (hmem : s'.mem = s.mem)
    (hescaper : s'.escaper = s.escaper) (htodo : s'.todo = s.todo)
    (hpackets : s'.packets = s.packets) : EncodeInv F total s' := by
  obtain ⟨rest, hrest, hbalance⟩ := h.balance hlive
  refine EncodeInv.of_balance rest ?_ ?_
  · rw [hback]
    cases hloop : (s.pc ()).back with
    | none =>
      rw [hloop] at hrest
      exact hrest
    | some l =>
      rw [hloop] at hrest
      simpa only [Encoding, hmem, hescaper] using hrest
  · rw [hpackets, hmem, htodo]
    exact hbalance

/-- The messages of the one caller. -/
private theorem messages_eq (ops : List CallerOp) (mem : Store (Region Unit) UInt8) :
    messages mem ops = messagesOf () mem ops := by
  induction ops generalizing mem with
  | nil => rfl
  | cons op ops ih =>
    cases op with
    | send data length => rw [messages, messagesOf, ih]
    | write a v => rw [messages, messagesOf, ih]

/-- Producing a packet leaves the memory of the caller. -/
private theorem message_fill (l : Loop) (mem : Store (Region Unit) UInt8) (bs : List UInt8) :
    l.message (mem.fill .encodedPacketBuffer bs) = l.message mem := by
  refine Store.bytes_congr fun i _ _ => ?_
  rw [Store.fill_apply, if_neg]
  rintro ⟨⟨⟩, -⟩

/-- Producing a packet leaves the messages of the program. -/
private theorem messages_fill (ops : List CallerOp) (mem : Store (Region Unit) UInt8)
    (bs : List UInt8) : messages (mem.fill .encodedPacketBuffer bs) ops = messages mem ops := by
  rw [messages_eq, messages_eq]
  refine messagesOf_congr fun a => ?_
  rw [Store.fill_apply, if_neg]
  rintro ⟨⟨⟩, -⟩

/-- A call of a packet write function goes back to its loop. -/
@[simp] theorem back_writePacket {τ : Type u} (c : Mode) (p : Packet τ) (back : Option Loop) :
    (writePacket c p back).back = back := by
  unfold writePacket
  split <;> rfl

/-- **One step keeps the balance of the encoder.** -/
theorem EncodeInv.step {l : Label Unit} (h : EncodeInv F total s)
    (hs : Step ⟨.escapedPackets, tx⟩ X s l s') : EncodeInv F total s' := by
  cases hs with
  | @callerWrite t a v ops hpc hops =>
    obtain ⟨rest, hrest, hbalance⟩ := h.balance (by simp [hpc])
    simp only [hpc, Pc.back, Encoding] at hrest
    subst hrest
    refine EncodeInv.of_balance [] ?_ ?_
    · simp [hpc, Pc.back, Encoding]
    · simpa [hops, messages] using hbalance
  | callRaw _ _ hraw => cases hraw
  | @callEscaped t data length ops hpc hops =>
    obtain ⟨rest, hrest, hbalance⟩ := h.balance (by simp [hpc])
    simp only [hpc, Pc.back, Encoding] at hrest
    subst hrest
    refine EncodeInv.of_balance (lineBytes F (s.mem.bytes (.caller ()) data length)) ?_ ?_
    · simp only [Function.update_self, Pc.back, Encoding]
      exact ⟨0, F.returned_start _ _, (F.consumed_zero _).symm, reached_zero F _, rfl⟩
    · simpa [hops, messages] using hbalance
  | @encode t l hpc hlt =>
    obtain ⟨rest, hrest, hbalance⟩ := h.balance (by simp [hpc])
    simp only [hpc, Pc.back, Encoding] at hrest
    obtain ⟨p, hr, hindex, hreached, rfl⟩ := hrest
    have hmore : F.consumed (l.message s.mem) p < (l.message s.mem).length := by
      rw [← hindex, Loop.message, Store.length_bytes]
      exact hlt
    have hnext := F.returned_next _ _ _ hr
    have hnextIndex := F.index_eq _ _ _ hr
    have hpiece := hreached.packet_append_drop hr hmore
    have hnextReached := hreached.next hr hmore
    rw [← hindex] at hnext hnextIndex hpiece hnextReached
    have hback : ((encodeStep ⟨.escapedPackets, tx⟩ X s t l).pc ()).back = some { l with
        index := (X.encodePacket s.escaper (l.message s.mem) l.index).index } := by
      simp [encodeStep, Loop.message]
    have hmessage : l.message (encodeStep ⟨.escapedPackets, tx⟩ X s t l).mem = l.message s.mem :=
      message_fill l s.mem _
    have hmessages : messages (encodeStep ⟨.escapedPackets, tx⟩ X s t l).mem (s.todo ()) =
        messages s.mem (s.todo ()) := messages_fill (s.todo ()) s.mem _
    refine EncodeInv.of_balance ((lineBytes F (l.message s.mem)).drop
      (p + (X.encodePacket s.escaper (l.message s.mem) l.index).packet.length)) ?_ ?_
    · rw [hback]
      refine ⟨p + (X.encodePacket s.escaper (l.message s.mem) l.index).packet.length, ?_⟩
      change F.Returned (l.message _) _ _ ∧ _ = F.consumed (l.message _) _ ∧
        Reached F (l.message _) _ ∧ _ = (lineBytes F (l.message _)).drop _
      rw [hmessage]
      exact ⟨hnext, hnextIndex, hnextReached, rfl⟩
    · have hpackets : (encodeStep ⟨.escapedPackets, tx⟩ X s t l).packets =
          s.packets ++ [(X.encodePacket s.escaper (l.message s.mem) l.index).packet] := rfl
      have htodo : (encodeStep ⟨.escapedPackets, tx⟩ X s t l).todo = s.todo := rfl
      rw [hpackets, htodo, hmessages, List.flatten_append, List.flatten_singleton,
        List.append_assoc s.packets.flatten, hpiece]
      exact hbalance
  | @loopEnd t l hpc hend =>
    obtain ⟨rest, hrest, hbalance⟩ := h.balance (by simp [hpc])
    simp only [hpc, Pc.back, Encoding] at hrest
    obtain ⟨p, hr, hindex, hreached, rfl⟩ := hrest
    have hnone : (lineBytes F (l.message s.mem)).drop p = [] := by
      refine hreached.drop_eq_nil ?_
      rw [← hindex, Loop.message, Store.length_bytes]
      exact hend
    rw [hnone] at hbalance
    exact EncodeInv.of_balance [] (by simp [Pc.back, Encoding]) hbalance
  | @obtain t p back hpc hav =>
    exact h.of_frame (by simp [hpc]) (by simp [hpc, Pc.back]) rfl rfl rfl rfl
  | @initFifo t p back hpc =>
    exact h.of_frame (by simp [hpc]) (by simp [hpc, Pc.back]) rfl rfl rfl rfl
  | @writeAsync t back hpc | @blockingEnd t p i back hpc =>
    exact h.of_frame (by simp [hpc]) (by cases back <;> simp [hpc, resume, Pc.back]) rfl rfl rfl rfl
  | @blockingByte t p i back hpc =>
    exact h.of_frame (by simp [hpc]) (by simp [hpc, Pc.back]) rfl rfl rfl rfl
  | @uartWriteFails t p i back hpc hlt => exact ⟨h.begun, fun hne => absurd (by simp) hne⟩
  | txByte | txEmpty =>
    refine ⟨h.begun, fun hne => ?_⟩
    exact (h.of_frame hne rfl rfl rfl rfl rfl).balance hne

variable {mem : Unit → ℕ → UInt8} {prog : Unit → List CallerOp} {e : E}

/-- The balance holds in every reachable state. -/
theorem encodeInv (F : Framing X)
    (h : (system ⟨.escapedPackets, tx⟩ X mem prog e).Reachable s) :
    EncodeInv F ((messages (initial mem prog e).mem (prog ())).flatMap (lineBytes F)) s := by
  refine System.Reachable.invariant
    (P := EncodeInv F ((messages (initial mem prog e).mem (prog ())).flatMap (lineBytes F))) ?_ ?_ h
  · exact EncodeInv.of_balance [] rfl (by simp [system, initial])
  · intro s l s' hinv hs
    exact hinv.step (step_of_next hs)

end Encoder

/-! ## Blocking mode -/

section Blocking

variable {E : Type v} {X : Escaper E} {s s' : State Unit E}

/-- `escaped-packets` with `blocking`. -/
def escapedBlocking : Mode := ⟨.escapedPackets, .blocking⟩

/-- What holds where the caller is. -/
def BlockingAt (s : State Unit E) : Pc Unit → Prop
  | .outside | .loopHead _ => s.wire = s.packets.flatten
  | .writeBlocking p i (some _) => p.region = .encodedPacketBuffer ∧ p.offset = 0 ∧
      i ≤ p.length ∧ p.length ≤ encodedPacketMaxSize ∧
      ∃ sent, s.packets = sent ++ [s.mem.bytes .encodedPacketBuffer 0 p.length] ∧
        s.wire = sent.flatten ++ s.mem.bytes .encodedPacketBuffer 0 i
  | .stopped => s.wire <+: s.packets.flatten
  | _ => False

/-- The invariant of blocking mode: nothing is lent, and the wire is up to date. -/
structure BlockingInv (s : State Unit E) : Prop where
  idle : s.inFlight = 0
  place : BlockingAt s (s.pc ())

/-- The wire of blocking mode shows a beginning of the packets. -/
theorem BlockingInv.wire_begins (h : BlockingInv s) : s.wire <+: s.packets.flatten := by
  have hplace := h.place
  cases hpc : s.pc () with
  | outside | loopHead =>
    simp only [hpc, BlockingAt] at hplace
    rw [hplace]
  | writeBlocking p i back =>
    cases back with
    | none => simp [hpc, BlockingAt] at hplace
    | some l =>
      simp only [hpc, BlockingAt] at hplace
      obtain ⟨-, -, hle, -, sent, hsent, hwire⟩ := hplace
      have hsplit := s.mem.bytes_add .encodedPacketBuffer 0 i (p.length - i)
      rw [Nat.add_sub_of_le hle] at hsplit
      rw [hwire, hsent, List.flatten_append, List.flatten_singleton, hsplit, ← List.append_assoc]
      exact List.prefix_append _ _
  | stopped =>
    simp only [hpc, BlockingAt] at hplace
    exact hplace
  | waitForTxSemaphore | initFifo | writeAsync => simp [hpc, BlockingAt] at hplace

/-- **One step keeps the wire of blocking mode.** -/
theorem BlockingInv.step {l : Label Unit} (hX : X.bufferSize = encodedPacketMaxSize)
    (h : BlockingInv s) (hs : Step escapedBlocking X s l s') : BlockingInv s' := by
  have hplace := h.place
  cases hs with
  | @callerWrite t a v ops hpc hops =>
    refine ⟨h.idle, ?_⟩
    simpa [hpc, BlockingAt] using hplace
  | callRaw _ _ hraw => cases hraw
  | @callEscaped t data length ops hpc hops =>
    refine ⟨h.idle, ?_⟩
    simpa [hpc, BlockingAt] using hplace
  | @encode t l hpc hlt =>
    have hlen := toUInt16_packet hX s.escaper (s.mem.bytes (.caller t) l.data l.length) l.index
    have hfit := X.packet_le s.escaper (s.mem.bytes (.caller t) l.data l.length) l.index
    refine ⟨h.idle, ?_⟩
    simp only [hpc, BlockingAt] at hplace
    simp only [encodeStep, Function.update_self, escapedBlocking, writePacket,
      blockingTxModeEnabled, if_true]
    refine ⟨rfl, rfl, Nat.zero_le _, ?_, s.packets, ?_, ?_⟩
    · simp only [hlen]
      rwa [← hX]
    · simp only [hlen, Store.bytes_fill]
    · simpa using hplace
  | @loopEnd t l hpc hend =>
    refine ⟨h.idle, ?_⟩
    simpa [hpc, BlockingAt] using hplace
  | @obtain t p back hpc | @initFifo t p back hpc | @writeAsync t back hpc =>
    simp [hpc, BlockingAt] at hplace
  | @blockingByte t p i back hpc hlt =>
    cases back with
    | none => simp [hpc, BlockingAt] at hplace
    | some l =>
      simp only [hpc, BlockingAt] at hplace
      obtain ⟨hregion, hoffset, -, hfit, sent, hpackets, hwire⟩ := hplace
      have hcounter : toUInt16 (i + 1) = i + 1 := by
        rw [encodedPacketMaxSize] at hfit
        exact Nat.mod_eq_of_lt (by omega)
      refine ⟨h.idle, ?_⟩
      simp only [Function.update_self, BlockingAt, hcounter]
      refine ⟨hregion, hoffset, hlt, hfit, sent, hpackets, ?_⟩
      rw [hwire, hregion, hoffset, Store.bytes_add, List.append_assoc]
      rfl
  | @blockingEnd t p i back hpc hlt =>
    cases back with
    | none => simp [hpc, BlockingAt] at hplace
    | some l =>
      simp only [hpc, BlockingAt] at hplace
      obtain ⟨-, -, hle, -, sent, hpackets, hwire⟩ := hplace
      have hall : i = p.length := by omega
      refine ⟨h.idle, ?_⟩
      simp only [Function.update_self, resume, BlockingAt]
      rw [hwire, hpackets, hall]
      simp
  | @uartWriteFails t p i back hpc hlt =>
    refine ⟨h.idle, ?_⟩
    simp only [Function.update_self, BlockingAt]
    exact h.wire_begins
  | @txByte b fifo hin htake =>
    have hidle := h.idle
    omega
  | @txEmpty n hin hempty =>
    have hidle := h.idle
    omega

/-- The invariant holds in every reachable state. -/
theorem blockingInv {mem : Unit → ℕ → UInt8} {prog : Unit → List CallerOp} {e : E}
    (hX : X.bufferSize = encodedPacketMaxSize)
    (h : (system escapedBlocking X mem prog e).Reachable s) : BlockingInv s := by
  have hinit : BlockingInv (initial mem prog e) := ⟨rfl, rfl⟩
  refine System.Reachable.invariant (P := BlockingInv) hinit ?_ h
  intro s l s' hinv hs
  exact hinv.step hX (step_of_next hs)

end Blocking

/-! ## The wire -/

section Wire

variable {E : Type v} {X : Escaper E} {s : State Unit E} {tx : TxMode}
  {mem : Unit → ℕ → UInt8} {prog : Unit → List CallerOp} {e : E}

/-- **A beginning.** The wire of escaped mode shows a beginning of the line bytes of the
program's messages. -/
theorem escaped_wire_begins (F : Framing X) (hX : X.bufferSize = encodedPacketMaxSize)
    (h : (system ⟨.escapedPackets, tx⟩ X mem prog e).ReachableWhen encodesWhenDrained s) :
    s.wire <+: (messages (initial mem prog e).mem (prog ())).flatMap (lineBytes F) := by
  have hpackets : s.wire <+: s.packets.flatten := by
    cases tx with
    | asynchronous =>
      have hunsent := wire_unsent_prefix hX h
      exact (List.prefix_append _ _).trans hunsent
    | blocking => exact (blockingInv hX h.reachable).wire_begins
  exact hpackets.trans (encodeInv F h.reachable).begun

/-- **All of them.** Where no step is left and the caller has not stopped at an error of the
UART, the wire has shown the line bytes of all messages. -/
theorem escaped_wire_done (F : Framing X) (hX : X.bufferSize = encodedPacketMaxSize)
    (h : (system ⟨.escapedPackets, tx⟩ X mem prog e).ReachableWhen encodesWhenDrained s)
    (hstuck : Stuck ⟨.escapedPackets, tx⟩ X s) (hlive : s.pc () ≠ .stopped) :
    s.wire = (messages (initial mem prog e).mem (prog ())).flatMap (lineBytes F) := by
  have hdone := tx_not_deadlocked h.reachable hstuck
  have houtside : s.pc () = .outside ∧ s.todo () = [] := by
    rcases hdone.tasks () with hout | hstopped
    · exact hout
    · exact absurd hstopped hlive
  have hpackets : s.wire = s.packets.flatten := by
    cases tx with
    | asynchronous =>
      have hwire := (escapedInv hX h).wireAt
      simpa [houtside.1, WireAt, unsent_of_idle hdone.inFlight] using hwire
    | blocking =>
      have hplace := (blockingInv hX h.reachable).place
      simpa [houtside.1, BlockingAt] using hplace
  obtain ⟨rest, hrest, hbalance⟩ := (encodeInv F h.reachable).balance hlive
  rw [houtside.1] at hrest
  simp only [Pc.back, Encoding] at hrest
  rw [hrest, houtside.2] at hbalance
  simpa [hpackets, messages] using hbalance

end Wire
end Samrh71Drivers.Serial
