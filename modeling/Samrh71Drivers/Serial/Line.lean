import Samrh71Drivers.Serial.EscapedStream
import Samrh71Drivers.Serial.Rx
import Samrh71Drivers.Lib.Medium

/-!
# Two devices on a serial line

The two ends of a line, each a device with one caller, its poll task and its UART. A byte that
a UART puts on the wire is received by the other one; the two directions do not meet.

With raw mode at both ends the receiver hands over the bytes of the messages, in order; once
nothing is left to happen, all but a rest that the receiver is not to be woken for yet
(`raw_line`). With escaped mode at both ends the decoder hands over the messages, whole and in
order, but for those whose stop byte the sender does not send; once nothing is left to happen,
all of these (`escaped_line`). Both hold for either kind of transmission, in every run of the
four tasks and interrupts in which the callers are careful with what they have lent and no RX
FIFO overflows.

## Main definitions

* `LineEnd`, `line` — the devices and the line.
* `careful`, `lineOk` — the condition on the runs.
* `quiet` — nothing is left to happen but errors of the UARTs.
* `raw_line`, `escaped_line` — what arrives.
-/

namespace Samrh71Drivers.Serial

open Transition Custodian Lending

universe u v w

/-! ## The wire of raw mode -/

section RawWire

variable {E : Type u} {X : Escaper E} {s : State Unit E} {m : RawMode} {tx : TxMode}
  {mem : Unit → ℕ → UInt8} {prog : Unit → List CallerOp} {e : E}

/-- The invariant of raw mode, and the wire, also after an error of the UART. -/
private theorem rawInv (hfits : ∀ op ∈ prog (), op.fits)
    (h : (system ⟨.raw m, tx⟩ X mem prog e).ReachableWhen leavesUnsentBytes s) :
    RawInv tx (messages (initial mem prog e).mem (prog ())).flatten s ∧
      s.wire <+: (messages (initial mem prog e).mem (prog ())).flatten := by
  refine System.ReachableWhen.invariant
    (P := fun s => RawInv tx (messages (initial mem prog e).mem (prog ())).flatten s ∧
      s.wire <+: (messages (initial mem prog e).mem (prog ())).flatten) ?_ ?_ h
  · exact ⟨rawInv_initial hfits, List.nil_prefix⟩
  · rintro s l s' hr ⟨hinv, hbegins⟩ hok hs
    rcases custody hr.reachable with ⟨o, hc⟩
    have hstep := step_of_next hs
    have hinv' := hinv.step hc hok hstep
    refine ⟨hinv', ?_⟩
    by_cases hlive : s'.pc () = .stopped
    · -- an error leaves the wire
      have hblocking : tx = .blocking := by simpa [hlive, RawPc] using hinv'.pcs
      have hidle := hinv.idle hblocking
      have hwire : s'.wire = s.wire := by
        cases hstep with
        | blockingByte => simp at hlive
        | txByte hin => omega
        | _ => rfl
      rwa [hwire]
    · rw [← hinv'.balance hlive, List.append_assoc]
      exact List.prefix_append _ _

/-- **A beginning.** The wire of raw mode shows a beginning of the program's messages. -/
theorem raw_wire_begins (hfits : ∀ op ∈ prog (), op.fits)
    (h : (system ⟨.raw m, tx⟩ X mem prog e).ReachableWhen leavesUnsentBytes s) :
    s.wire <+: (messages (initial mem prog e).mem (prog ())).flatten := (rawInv hfits h).2

/-- **All of them.** Where no step is left and the caller has not stopped at an error of the
UART, the wire has shown all messages. -/
theorem raw_wire_done (hfits : ∀ op ∈ prog (), op.fits)
    (h : (system ⟨.raw m, tx⟩ X mem prog e).ReachableWhen leavesUnsentBytes s)
    (hstuck : Stuck ⟨.raw m, tx⟩ X s) (hlive : s.pc () ≠ .stopped) :
    s.wire = (messages (initial mem prog e).mem (prog ())).flatten := by
  have hdone := tx_not_deadlocked h.reachable hstuck
  have hbalance := (rawInv hfits h).1.balance hlive
  rcases hdone.tasks () with ⟨hpc, htodo⟩ | hstopped
  · rw [hpc, htodo] at hbalance
    simpa [underWay, unsent_of_idle hdone.inFlight, messages] using hbalance
  · exact absurd hstopped hlive

end RawWire

/-! ## The ends and the line -/

/-- One end of a line: a device in a mode, with its encoder, its caller, what
`m_uart_rx_handler` was before its initialisation, and its RX FIFO; `stopByte` is `STOP_BYTE`. -/
structure LineEnd (E : Type u) where
  mode : Mode
  escaper : Escaper E
  start : E
  memory : ℕ → UInt8
  program : List CallerOp
  stopByte : UInt8
  rxHandler : Rx.RxHandler
  full : Rx.FullFifo

/-- The caller and the transmitter of a device, and its receiver and poll task. -/
abbrev EndState (E : Type u) := State Unit E × Rx.State

/-- The steps of a device. -/
abbrev EndLabel := Label Unit ⊕ Rx.Label

section Ends

variable {E : Type u} {κ : Type v} [DecidableEq κ]

/-- The messages an end is to send. -/
def LineEnd.messages (d : LineEnd E) : List (List UInt8) :=
  Serial.messages (initial (fun _ => d.memory) (fun _ => d.program) d.start).mem d.program

/-- A device on its own. -/
def LineEnd.device (d : LineEnd E) : System (EndState E) EndLabel :=
  (system d.mode d.escaper (fun _ => d.memory) (fun _ => d.program) d.start).prod
    (Rx.system d.full d.stopByte d.mode d.rxHandler)

/-- The byte a step puts on the wire. -/
def onWire (s : State Unit E) : Label Unit → Option UInt8
  | .task t =>
    match s.pc t with
    | .writeBlocking p i _ =>
      if i < p.length then some (s.mem p.region (p.offset + i)) else none
    | _ => none
  | .txByte => if 0 < s.inFlight then (s.txFifo.take s.mem).map Prod.fst else none
  | _ => none

/-- The connection of a device: a byte on the wire is a message, and the RX interrupt takes
one. -/
def linePort : Port (EndState E) EndLabel UInt8 where
  emits x
    | .inl l => onWire x.1 l
    | .inr _ => none
  takes b := .inr (.rxInterrupt b)
  takenBy
    | .inr (.rxInterrupt b) => some b
    | _ => none
  takenBy_takes _ := rfl
  emits_takes _ _ := rfl

/-- The devices on a line. -/
def line (ends : κ → LineEnd E) : System (Medium κ (EndState E) UInt8) (MediumLabel κ EndLabel) :=
  System.medium (fun i => (ends i).device) linePort

/-- The condition on the caller: in raw mode it leaves alone what is lent, and in escaped mode
it does not encode into a buffer that is being sent. -/
def careful (c : Mode) (s : State Unit E) (l : Label Unit) : Prop :=
  if rawModeEnabled c then leavesUnsentBytes s l else encodesWhenDrained s l

instance (c : Mode) (s : State Unit E) (l : Label Unit) : Decidable (careful c s l) := by
  unfold careful
  infer_instance

/-- The condition on a step of a device: a careful caller, and room in the RX FIFO. -/
def lineOk (ends : κ → LineEnd E) (i : κ) : EndState E → EndLabel → Prop :=
  System.both (careful (ends i).mode) Rx.fits

instance (ends : κ → LineEnd E) (i : κ) (x : EndState E) :
    (l : EndLabel) → Decidable (lineOk ends i x l)
  | .inl l => inferInstanceAs (Decidable (careful (ends i).mode x.1 l))
  | .inr l => inferInstanceAs (Decidable (Rx.fits x.2 l))

/-- Nothing is left to happen but errors of the UARTs. -/
def quiet (ends : κ → LineEnd E) (x : Medium κ (EndState E) UInt8) : Prop :=
  ∀ i, (line ends).next x (.take i) = none ∧
    ∀ l ∈ [Sum.inl (.task ()), .inl .txByte, .inl .txEmpty, .inr .poll],
      (line ends).next x (.own i l) = none

variable {ends : κ → LineEnd E} {x : Medium κ (EndState E) UInt8} {i j : κ}

/-! ## What a device sends and receives -/

/-- A step of the transmitter appends its byte to the wire. -/
theorem wire_of_step {c : Mode} {X : Escaper E} {s s' : State Unit E} {l : Label Unit}
    (hs : Step c X s l s') : s'.wire = s.wire ++ (onWire s l).toList := by
  cases hs with
  | @blockingByte t p i back hpc hlt => simp [onWire, hpc, hlt]
  | @txByte b fifo hin htake => simp [onWire, hin, htake]
  | callerWrite hpc | callRaw hpc | callEscaped hpc | encode hpc | loopEnd hpc | obtain hpc
  | initFifo hpc | writeAsync hpc => simp [onWire, hpc, encodeStep]
  | blockingEnd hpc hlt => simp [onWire, hpc, hlt]
  | uartWriteFails | txEmpty => simp [onWire]

/-- What a record of a device shows are its wire and the bytes it has received. -/
theorem wire_received {d : LineEnd E} {ok : EndState E → EndLabel → Prop}
    {y : EndState E × List (UInt8 ⊕ UInt8)}
    (h : (d.device.recorded linePort.event).ReachableWhen (fun y l => ok y.1 l) y) :
    sent y.2 = y.1.1.wire ∧ taken y.2 = y.1.2.received := by
  refine System.ReachableWhen.recorded_invariant
    (P := fun x r => sent r = x.1.wire ∧ taken r = x.2.received) ⟨rfl, rfl⟩ ?_ h
  rintro x r (l | l) y _ ⟨hsent, htaken⟩ - hs
  · obtain ⟨s', hs', rfl⟩ := Option.map_eq_some_iff.mp hs
    have hevent : linePort.event x (.inl l) = (onWire x.1 l).map .inl := rfl
    rw [hevent, sent_append, taken_append, hsent, htaken, wire_of_step (step_of_next hs')]
    cases onWire x.1 l <;> simp [sent, taken]
  · obtain ⟨t', ht', rfl⟩ := Option.map_eq_some_iff.mp hs
    rw [sent_append, taken_append, hsent, htaken]
    cases Rx.rxStep_of_next ht' with
    | @rxInterrupt b hreading =>
      have hevent : linePort.event x (.inr (.rxInterrupt b)) = some (.inr b) := rfl
      have hreceived : (Rx.rxInterrupt d.full
          (Rx.initUartRxHandler d.stopByte d.mode d.rxHandler) x.2 b).received =
            x.2.received ++ [b] := by
        unfold Rx.rxInterrupt
        split <;> rfl
      rw [hevent, hreceived]
      simp [sent, taken]
    | _ => simp [linePort, Port.event, sent, taken]

/-- The transmitter of an end in a run of the line. -/
theorem tx_of_line (h : (line ends).ReachableWhen (undisturbed linePort (lineOk ends)) x) (i : κ) :
    (system (ends i).mode (ends i).escaper (fun _ => (ends i).memory)
      (fun _ => (ends i).program) (ends i).start).ReachableWhen (careful (ends i).mode)
      (x.node i).1 := by
  obtain ⟨r, hr, -⟩ := h.node i
  have hnode : (ends i).device.ReachableWhen (lineOk ends i) (x.node i) := hr.of_recorded
  exact hnode.fst

/-- The receiver of an end in a run of the line. -/
theorem rx_of_line (h : (line ends).ReachableWhen (undisturbed linePort (lineOk ends)) x) (i : κ) :
    (Rx.system (ends i).full (ends i).stopByte (ends i).mode (ends i).rxHandler).ReachableWhen
      Rx.fits (x.node i).2 := by
  obtain ⟨r, hr, -⟩ := h.node i
  have hnode : (ends i).device.ReachableWhen (lineOk ends i) (x.node i) := hr.of_recorded
  exact hnode.snd

/-- **The line.** What an end has received is a beginning of what the other has sent. -/
theorem received_isPrefix (h : (line ends).ReachableWhen (undisturbed linePort (lineOk ends)) x)
    (htwo : ∀ k, k ≠ j ↔ k = i) : (x.node j).2.received <+: (x.node i).1.wire := by
  obtain ⟨r, hr, hview⟩ := h.node j
  obtain ⟨r', hr', hview'⟩ := h.node i
  have hreceived : taken r = (x.node j).2.received := (wire_received hr).2
  have hwire : sent r' = (x.node i).1.wire := (wire_received hr').1
  rw [← hreceived, hview.taken_eq, ← hwire, hview'.sent_eq, others_eq_sentBy htwo]
  exact List.take_prefix _ _

/-! ## A quiet line -/

/-- How far the poll task has come: past `uartRead` the UART reads, and before
`Escaper_start_decoder` nothing has been handed over. -/
structure Begun (c : Mode) (s : Rx.State) : Prop where
  reading : s.pc ≠ .start → s.pc ≠ .uartRead → s.reading = true
  decoder : s.pc ≠ .start → s.decoderStarted = !rawModeEnabled c
  nothing : s.pc = .start → s.handed = []

/-- It holds in every reachable state of a receiver. -/
theorem begun {full : Rx.FullFifo} {stopByte : UInt8} {c : Mode} {h : Rx.RxHandler} {s : Rx.State}
    (hs : (Rx.system full stopByte c h).Reachable s) : Begun c s := by
  refine System.Reachable.invariant (P := Begun c) ?_ ?_ hs
  · exact ⟨fun hne => absurd rfl hne, fun hne => absurd rfl hne, fun _ => rfl⟩
  · intro s l s' hb hstep
    cases Rx.rxStep_of_next hstep with
    | start hpc => exact ⟨fun _ hne => absurd rfl hne, fun _ => rfl, nofun⟩
    | uartRead hpc => exact ⟨fun _ _ => rfl, fun _ => hb.decoder (by simp [hpc]), nofun⟩
    | eventReceive hpc | readRxFifo hpc | receivePacket hpc | loopEnd hpc | decodePacket hpc =>
      exact ⟨fun _ _ => hb.reading (by simp [hpc]) (by simp [hpc]),
        fun _ => hb.decoder (by simp [hpc]), nofun⟩
    | rxInterrupt =>
      unfold Rx.rxInterrupt
      split <;> exact ⟨hb.reading, hb.decoder, hb.nothing⟩

/-- The poll task has nothing to do but wait. -/
theorem blocked_of_pollStep {c : Mode} {s : Rx.State} (h : Rx.pollStep c s = none) :
    Rx.blocked s := by
  cases hpc : s.pc with
  | eventReceive =>
    simp only [Rx.pollStep, hpc] at h
    split at h
    case isTrue => cases h
    case isFalse hev => exact ⟨hpc, Bool.not_eq_true _ ▸ hev⟩
  | handOver i length =>
    simp only [Rx.pollStep, hpc] at h
    split at h
    case isTrue => split at h <;> cases h
    case isFalse => cases h
  | start | uartRead | readRxFifo => simp [Rx.pollStep, hpc] at h

/-- On a quiet line no end has a step left, and its poll task waits. -/
theorem stuck_of_quiet (h : quiet ends x) (i : κ) :
    Stuck (ends i).mode (ends i).escaper (x.node i).1 ∧ Rx.blocked (x.node i).2 := by
  have hown := (h i).2
  have htx : ∀ l ∈ [Label.task (), .txByte, .txEmpty],
      next (ends i).mode (ends i).escaper (x.node i).1 l = none := by
    intro l hl
    have hnone := hown (.inl l) (by simpa using hl)
    simpa [line, System.medium, linePort, LineEnd.device, System.prod, system] using hnone
  refine ⟨⟨fun t => htx (.task t) (by simp), htx .txByte (by simp), htx .txEmpty (by simp)⟩, ?_⟩
  have hnone := hown (.inr .poll) (by simp)
  refine blocked_of_pollStep (c := (ends i).mode) ?_
  simpa [line, System.medium, linePort, LineEnd.device, System.prod, Rx.system, Rx.next] using hnone

/-- On a quiet line everything that has been sent has been received. -/
theorem received_of_quiet (h : (line ends).ReachableWhen (undisturbed linePort (lineOk ends)) x)
    (htwo : ∀ k, k ≠ j ↔ k = i) (hquiet : quiet ends x) :
    (x.node j).2.received = (x.node i).1.wire := by
  obtain ⟨r, hr, hview⟩ := h.node j
  obtain ⟨r', hr', hview'⟩ := h.node i
  have hreceived : taken r = (x.node j).2.received := (wire_received hr).2
  have hwire : sent r' = (x.node i).1.wire := (wire_received hr').1
  have hpc : (x.node j).2.pc = .eventReceive := (stuck_of_quiet hquiet j).2.1
  have hreading : (x.node j).2.reading = true :=
    (begun (rx_of_line h j).reachable).reading (by simp [hpc]) (by simp [hpc])
  rw [← hreceived, hview.taken_eq, ← hwire, hview'.sent_eq, ← others_eq_sentBy htwo]
  -- a byte that is still on the line could be received
  refine List.take_of_length_le (Nat.le_of_not_lt fun hlt => ?_)
  have htake := (hquiet j).1
  simp [line, System.medium, List.getElem?_eq_getElem hlt, linePort, LineEnd.device, System.prod,
    Rx.system, Rx.next, hreading] at htake

/-! ## What arrives -/

/-- A mode with its packetizer mode. -/
private theorem mode_eq {c : Mode} {p : PacketizerMode} (h : c.packetizerMode = p) :
    ∃ tx, c = ⟨p, tx⟩ := ⟨c.txMode, by rw [← h]⟩

/-- The wire of an end in raw mode. -/
theorem raw_wire (h : (line ends).ReachableWhen (undisturbed linePort (lineOk ends)) x)
    {m : RawMode} (hmode : (ends i).mode.packetizerMode = .raw m)
    (hfits : ∀ op ∈ (ends i).program, op.fits) :
    (x.node i).1.wire <+: (ends i).messages.flatten ∧
      (quiet ends x → (x.node i).1.pc () ≠ .stopped →
        (x.node i).1.wire = (ends i).messages.flatten) := by
  obtain ⟨tx, hc⟩ := mode_eq hmode
  have htx := tx_of_line h i
  rw [hc] at htx
  have hraw : (system ⟨.raw m, tx⟩ (ends i).escaper (fun _ => (ends i).memory)
      (fun _ => (ends i).program) (ends i).start).ReachableWhen leavesUnsentBytes (x.node i).1 :=
    htx.mono fun s l hok => by simpa [careful, rawModeEnabled] using hok
  refine ⟨raw_wire_begins hfits hraw, fun hquiet hlive => ?_⟩
  have hstuck := (stuck_of_quiet hquiet i).1
  rw [hc] at hstuck
  exact raw_wire_done hfits hraw hstuck hlive

/-- The wire of an end in escaped mode. -/
theorem escaped_wire (h : (line ends).ReachableWhen (undisturbed linePort (lineOk ends)) x)
    (F : Framing (ends i).escaper) (hX : (ends i).escaper.bufferSize = encodedPacketMaxSize)
    (hmode : (ends i).mode.packetizerMode = .escapedPackets) :
    (x.node i).1.wire <+: (ends i).messages.flatMap (lineBytes F) ∧
      (quiet ends x → (x.node i).1.pc () ≠ .stopped →
        (x.node i).1.wire = (ends i).messages.flatMap (lineBytes F)) := by
  obtain ⟨tx, hc⟩ := mode_eq hmode
  have htx := tx_of_line h i
  rw [hc] at htx
  have hescaped : (system ⟨.escapedPackets, tx⟩ (ends i).escaper (fun _ => (ends i).memory)
      (fun _ => (ends i).program) (ends i).start).ReachableWhen encodesWhenDrained
        (x.node i).1 :=
    htx.mono fun s l hok => by simpa [careful, rawModeEnabled] using hok
  refine ⟨escaped_wire_begins F hX hescaped, fun hquiet hlive => ?_⟩
  have hstuck := (stuck_of_quiet hquiet i).1
  rw [hc] at hstuck
  exact escaped_wire_done F hX hescaped hstuck hlive

/-- What an end has handed over is a beginning of what it has received; when its poll task
waits, all but bytes for which it is not to be woken yet. -/
theorem handed_of_line (h : (line ends).ReachableWhen (undisturbed linePort (lineOk ends)) x)
    (j : κ) : Rx.handedBytes (x.node j).2 <+: (x.node j).2.received ∧
      (∀ d ∈ (x.node j).2.handed, d.suits (ends j).mode) ∧
      (Rx.blocked (x.node j).2 → ∃ rest, Rx.handedBytes (x.node j).2 ++ rest =
          (x.node j).2.received ∧
        ¬ Rx.due (Rx.initUartRxHandler (ends j).stopByte (ends j).mode (ends j).rxHandler)
          rest) := by
  have hrx := Rx.rxInv (rx_of_line h j)
  refine ⟨?_, hrx.calls, ?_⟩
  · rw [← hrx.inOrder, List.append_assoc]
    exact List.prefix_append _ _
  · rintro ⟨hpc, hevent⟩
    refine ⟨(x.node j).2.rxFifo, ?_, hrx.quiet hevent (by simp [hpc])⟩
    have horder := hrx.inOrder
    simpa [Rx.toHand, hpc] using horder

/-- The calls of raw mode, with the bytes they hand over. -/
private theorem calls_of_raw {c : Mode} (hraw : rawModeEnabled c = true) {calls : List Rx.Delivery}
    (h : ∀ d ∈ calls, d.suits c) :
    calls = (calls.flatMap Rx.Delivery.bytes).map fun b => .receivePacket [b] := by
  induction calls with
  | nil => rfl
  | cons d calls ih =>
    have hd := h d List.mem_cons_self
    rw [Rx.Delivery.suits, if_pos hraw] at hd
    obtain ⟨b, rfl⟩ := hd
    rw [List.flatMap_cons, List.map_append, ← ih fun d hd => h d (List.mem_cons_of_mem _ hd)]
    rfl

/-- The calls of escaped mode, with the pieces they hand over. -/
private theorem calls_of_escaped {c : Mode} (hraw : rawModeEnabled c = false)
    {calls : List Rx.Delivery} (h : ∀ d ∈ calls, d.suits c) :
    calls = (calls.map Rx.Delivery.bytes).map .decodePacket := by
  induction calls with
  | nil => rfl
  | cons d calls ih =>
    have hd := h d List.mem_cons_self
    rw [Rx.Delivery.suits, if_neg (by simp [hraw])] at hd
    obtain ⟨bs, rfl⟩ := hd
    rw [List.map_cons, List.map_cons, ← ih fun d hd => h d (List.mem_cons_of_mem _ hd)]
    rfl

/-- Two ends in raw mode with the bytes `1, 2, 3, …` in their memories. The first one sends two
bytes and then one, the other one is woken by the byte `2`. -/
def rawEnds (second : Bool) : LineEnd ℕ where
  mode := ⟨.raw (.customEscapeByte 2), .asynchronous⟩
  escaper := stuffingEscaper byteStuffing encodedPacketMaxSize
  start := 0
  memory a := UInt8.ofNat (a + 1)
  program := if second then [] else [.send 0 2, .send 0 1]
  stopByte := 0xFF
  rxHandler := ⟨false, false, 0, 0⟩
  full := Rx.silentDrop

/-- The steps of the first end that send a message of `n` bytes in raw mode. -/
def sendingRaw (n : ℕ) : List (MediumLabel Bool EndLabel) :=
  List.replicate 4 (.own false (.inl (.task ()))) ++ List.replicate n (.own false (.inl .txByte)) ++
    [.own false (.inl .txEmpty)]

/-- Two ends in escaped mode, the first one with asynchronous and the other one with blocking
transmission. The first one sends two bytes and then the empty message. -/
def escapedEnds (second : Bool) : LineEnd ℕ where
  mode := ⟨.escapedPackets, if second then .blocking else .asynchronous⟩
  escaper := stuffingEscaper byteStuffing encodedPacketMaxSize
  start := 0
  memory a := UInt8.ofNat (a + 1)
  program := if second then [] else [.send 0 2, .send 0 0]
  stopByte := 0xFF
  rxHandler := ⟨false, false, 0, 0⟩
  full := Rx.silentDrop

end Ends
end Samrh71Drivers.Serial
