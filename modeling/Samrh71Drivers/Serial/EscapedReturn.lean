import Samrh71Drivers.Serial.EscapedStream

/-!
# Every call in escaped mode returns

The loop of `sendEscapedPackets` goes on while input is left, and each packet it sends waits for
the transfer before it. With an encoder that frames messages no packet of the loop is empty, so
that the packets use up the line bytes of the messages: the runs are bounded, with either kind
of transmission, and where no step is left every call has returned (`escaped_calls_return`).
This holds of all runs, also of those in which a packet is encoded over one in flight.

## Main definitions

* `CallerOp.rounds` — the steps of a call outside its packets.
* `escapedCost` — the steps that are still to be taken.
-/

namespace Samrh71Drivers.Serial

open Transition

universe v

variable {E : Type v} {X : Escaper E} {F : Framing X} {tx : TxMode} {s s' : State Unit E}
  {total : List UInt8}

/-- The steps of a call besides those of its packets: its entry and the last test of its loop. -/
def CallerOp.rounds : CallerOp → ℕ
  | .send _ _ => 2
  | .write _ _ => 1

/-- The steps of the packet at hand, and the last test of its loop. -/
def Pc.ahead (pc : Pc Unit) : ℕ := pc.cost + pc.back.toList.length

/-- The steps that are ahead where `total` bytes go on the line. A packet costs five steps
besides one for each of its bytes, and has at least one byte. -/
def escapedCost (total : ℕ) (s : State Unit E) : ℕ :=
  6 * (total - s.packets.flatten.length) + (s.pc ()).ahead +
    ((s.todo ()).map CallerOp.rounds).sum + s.inFlight + (s.txFifo.length - s.txFifo.taken)

/-- The length of a packet that is being written is a `uint16_t`. -/
def PacketFits : Pc Unit → Prop
  | .writeBlocking p _ _ => p.length < 65536
  | _ => True

/-- A packet write is entered with a length that fits. -/
private theorem packetFits_writePacket (c : Mode) (r : Region Unit) (n : ℕ) (back : Option Loop) :
    PacketFits (writePacket c ⟨r, 0, toUInt16 n⟩ back) := by
  unfold writePacket
  split
  · exact Nat.mod_lt _ (by decide)
  · trivial

/-- What a packet write costs, at most. -/
private theorem ahead_writePacket_le (c : Mode) (r : Region Unit) (n : ℕ) (l : Loop) :
    (writePacket c ⟨r, 0, toUInt16 n⟩ (some l)).ahead ≤ n + 5 := by
  have hle : toUInt16 n ≤ n := Nat.mod_le _ _
  unfold writePacket
  split <;> simp only [Pc.ahead, Pc.cost, Pc.back, Option.toList_some, List.length_singleton] <;>
    omega

/-- Where the caller goes on, only the loop is left. -/
private theorem ahead_resume (back : Option Loop) :
    (resume (τ := Unit) back).ahead = back.toList.length := by
  cases back <;> rfl

/-- **No packet of the loop is empty.** -/
theorem EncodeInv.packet_pos (h : EncodeInv F total s) {l : Loop} (hpc : s.pc () = .loopHead l)
    (hlt : l.index < l.length) :
    0 < (X.encodePacket s.escaper (l.message s.mem) l.index).packet.length := by
  obtain ⟨rest, hrest, -⟩ := h.balance (by simp [hpc])
  simp only [hpc, Pc.back, Encoding] at hrest
  obtain ⟨p, hr, hindex, -, -⟩ := hrest
  have hlength : (l.message s.mem).length = l.length := Lending.Store.length_bytes ..
  have hmore : p < (F.body (l.message s.mem)).length + 1 := by
    by_contra hge
    have hall := F.consumed_eq (l.message s.mem) p (by omega)
    omega
  rw [hindex, F.length_packet hr, F.length_frame]
  have hpos := F.bufferSize_pos
  omega

/-- **Every step uses up one.** -/
theorem escapedCost_step {l : Label Unit} (h : EncodeInv F total s)
    (hfits : PacketFits (s.pc ())) (hs : Step ⟨.escapedPackets, tx⟩ X s l s') :
    PacketFits (s'.pc ()) ∧ escapedCost total.length s' + 1 ≤ escapedCost total.length s := by
  have hbegun := (h.step hs).begun.length_le
  cases hs with
  | @callerWrite t a v ops hpc hops =>
    refine ⟨hfits, ?_⟩
    simp only [escapedCost, hops, Function.update_self, List.map_cons, List.sum_cons,
      CallerOp.rounds]
    omega
  | callRaw _ _ hraw => cases hraw
  | @callEscaped t data length ops hpc hops =>
    have hbefore : (s.pc ()).ahead = 0 := by rw [hpc]; rfl
    have hafter : (Pc.loopHead ⟨data, length, 0⟩ : Pc Unit).ahead = 1 := rfl
    refine ⟨by simp [PacketFits], ?_⟩
    simp only [escapedCost, hops, Function.update_self, hafter, List.map_cons, List.sum_cons,
      CallerOp.rounds]
    omega
  | @encode t l hpc hlt =>
    have hpos := h.packet_pos hpc hlt
    have hbefore : (s.pc ()).ahead = 1 := by rw [hpc]; rfl
    have hafter := ahead_writePacket_le ⟨.escapedPackets, tx⟩ .encodedPacketBuffer
      (X.encodePacket s.escaper (l.message s.mem) l.index).packet.length
      { l with index := (X.encodePacket s.escaper (l.message s.mem) l.index).index }
    have hpackets : (encodeStep ⟨.escapedPackets, tx⟩ X s t l).packets.flatten.length =
        s.packets.flatten.length +
          (X.encodePacket s.escaper (l.message s.mem) l.index).packet.length := by
      simp [encodeStep, Loop.message]
    have hpc' : (encodeStep ⟨.escapedPackets, tx⟩ X s t l).pc () = writePacket
        ⟨.escapedPackets, tx⟩ ⟨.encodedPacketBuffer, 0,
          toUInt16 (X.encodePacket s.escaper (l.message s.mem) l.index).packet.length⟩
        (some { l with index := (X.encodePacket s.escaper (l.message s.mem) l.index).index }) :=
      Function.update_self t _ s.pc
    have hsame : (encodeStep ⟨.escapedPackets, tx⟩ X s t l).todo = s.todo ∧
        (encodeStep ⟨.escapedPackets, tx⟩ X s t l).inFlight = s.inFlight ∧
        (encodeStep ⟨.escapedPackets, tx⟩ X s t l).txFifo = s.txFifo := ⟨rfl, rfl, rfl⟩
    rw [hpackets] at hbegun
    rw [escapedCost, escapedCost, hpc', hpackets, hsame.1, hsame.2.1, hsame.2.2]
    exact ⟨packetFits_writePacket .., by omega⟩
  | @loopEnd t l hpc hend =>
    have hbefore : (s.pc ()).ahead = 1 := by rw [hpc]; rfl
    have hafter : (Pc.outside : Pc Unit).ahead = 0 := rfl
    refine ⟨by simp [PacketFits], ?_⟩
    simp only [escapedCost, Function.update_self, hafter]
    omega
  | @obtain t p back hpc hav =>
    refine ⟨by simp [PacketFits], ?_⟩
    simp only [escapedCost, hpc, Function.update_self, Pc.ahead, Pc.cost, Pc.back]
    omega
  | @initFifo t p back hpc =>
    refine ⟨by simp [PacketFits], ?_⟩
    simp only [escapedCost, hpc, Function.update_self, Pc.ahead, Pc.cost, Pc.back]
    omega
  | @writeAsync t back hpc =>
    have hbefore : (s.pc ()).ahead = 2 + back.toList.length := by rw [hpc]; rfl
    refine ⟨by cases back <;> simp [PacketFits, resume], ?_⟩
    simp only [escapedCost, Function.update_self, ahead_resume]
    omega
  | @blockingByte t p i back hpc hlt =>
    simp only [hpc, PacketFits] at hfits
    -- the counter does not wrap, since a length is at most 65535
    have hcounter : toUInt16 (i + 1) = i + 1 := Nat.mod_eq_of_lt (by omega)
    refine ⟨by simpa [PacketFits] using hfits, ?_⟩
    simp only [escapedCost, hpc, Function.update_self, hcounter, Pc.ahead, Pc.cost, Pc.back]
    omega
  | @blockingEnd t p i back hpc hlt =>
    have hbefore : (s.pc ()).ahead = p.length - i + 1 + back.toList.length := by rw [hpc]; rfl
    refine ⟨by cases back <;> simp [PacketFits, resume], ?_⟩
    simp only [escapedCost, Function.update_self, ahead_resume]
    omega
  | @uartWriteFails t p i back hpc hlt =>
    have hbefore : (s.pc ()).ahead = p.length - i + 1 + back.toList.length := by rw [hpc]; rfl
    have hafter : (Pc.stopped : Pc Unit).ahead = 0 := rfl
    refine ⟨by simp [PacketFits], ?_⟩
    simp only [escapedCost, Function.update_self, hafter]
    omega
  | @txByte b fifo hin htake =>
    refine ⟨hfits, ?_⟩
    by_cases hlt : s.txFifo.taken < s.txFifo.length
    · simp only [Lending.Loan.take, hlt, if_true, Option.some.injEq, Prod.mk.injEq] at htake
      rw [← htake.2]
      simp only [escapedCost]
      omega
    · simp [Lending.Loan.take, hlt] at htake
  | @txEmpty n hin hempty =>
    refine ⟨hfits, ?_⟩
    simp only [escapedCost, hin]
    omega

variable {mem : Unit → ℕ → UInt8} {prog : Unit → List CallerOp} {e : E}

/-- **Every call returns.** In escaped mode, with either kind of transmission, no run is longer
than a number that the line bytes of the messages determine, and where no step is left every
call has returned or was stopped by an error of the UART. -/
theorem escaped_calls_return (F : Framing X) {ls : List (Label Unit)}
    (h : (system ⟨.escapedPackets, tx⟩ X mem prog e).exec (initial mem prog e) ls = some s) :
    ls.length ≤ 6 * ((messages (initial mem prog e).mem (prog ())).flatMap (lineBytes F)).length +
        ((prog ()).map CallerOp.rounds).sum ∧
      (Stuck ⟨.escapedPackets, tx⟩ X s → Done s) := by
  have hinit : escapedCost ((messages (initial mem prog e).mem (prog ())).flatMap
      (lineBytes F)).length (initial mem prog e) =
      6 * ((messages (initial mem prog e).mem (prog ())).flatMap (lineBytes F)).length +
        ((prog ()).map CallerOp.rounds).sum := by
    simp [escapedCost, initial, Pc.ahead, Pc.cost, Pc.back]
  constructor
  · rw [← hinit]
    refine System.exec_length_le
      (W := fun s n => (system ⟨.escapedPackets, tx⟩ X mem prog e).Reachable s ∧
        PacketFits (s.pc ()) ∧ n = escapedCost ((messages (initial mem prog e).mem
          (prog ())).flatMap (lineBytes F)).length s) ?_ ⟨.init, trivial, rfl⟩ h
    rintro s l s' _ ⟨hreach, hfits, rfl⟩ hs
    obtain ⟨hfits', hle⟩ := escapedCost_step (encodeInv F hreach) hfits (step_of_next hs)
    exact ⟨_, ⟨hreach.step hs, hfits', rfl⟩, hle⟩
  · exact tx_not_deadlocked (System.Reachable.exec .init h)

/-- A caller that sends the byte `1` and then the byte `2`. -/
def twoBytes : System (State Unit ℕ) (Label Unit) :=
  system ⟨.escapedPackets, .asynchronous⟩ (stuffingEscaper byteStuffing 256)
    (fun _ a => UInt8.ofNat (a + 1)) (fun _ => [.send 0 1, .send 1 1]) 0

/-- A run to its end, in which the second message is encoded over the first one. -/
def twoBytesRun : List (Label Unit) :=
  List.replicate 8 (.task ()) ++ List.replicate 3 .txByte ++ [.txEmpty] ++
    List.replicate 4 (.task ()) ++ List.replicate 3 .txByte ++ [.txEmpty]

/-- The run is within the bound, and the caller is done at its end. -/
theorem twoBytes_return : ∃ s, twoBytes.exec twoBytes.init twoBytesRun = some s ∧
    twoBytesRun.length ≤ 40 ∧ Done s := by
  have hrun : twoBytes.exec twoBytes.init twoBytesRun = some _ :=
    (Option.some_get (by decide)).symm
  obtain ⟨hle, hdone⟩ :=
    escaped_calls_return (stuffingFraming byteStuffing 256 (by decide)) hrun
  exact ⟨_, hrun, hle, hdone ⟨fun _ => rfl, rfl, rfl⟩⟩

end Samrh71Drivers.Serial
