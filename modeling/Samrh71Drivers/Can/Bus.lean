import Samrh71Drivers.Can.Frames

/-!
# Nodes on a CAN bus

Any number of devices, each with its own configuration and its own messages to send, on one
bus. A frame transmitted by one node arrives at all the others; the bus puts the frames in
one order. The filters `prepareMcanConfig` sets up accept every frame.

Where every message goes out in one frame the bus is a broadcast in one order: there is an
order of the messages in which each node's are in the order of its calls, and every node
hands over a beginning of what the others have in it (`broadcast`). A bus on which nothing is
left to happen but timeouts has delivered all of it.

With the Escaper a message is split over frames, and one node decodes what one other node
sends (`escaped_delivery`).

## Main definitions

* `Node`, `bus` — the nodes and the bus.
* `busOk` — every step is orderly, and no frame finds RX FIFO 0 full.
* `quiet` — nothing is left to happen but timeouts.
* `delivers` — what a node hands over for a message of another one.
-/

namespace Samrh71Drivers.Can

open Transition

universe u v w

/-- A device on the bus, with its encoder, the messages it is to send and what lies in memory
behind them, and the size of RX FIFO 0. -/
structure Node (E : Type u) where
  self : PrivateData
  behind : ℕ → ℕ → UInt8
  escaper : Escaper E
  start : E
  program : List (List UInt8)
  asserts : Bool
  rxFifo0Size : ℕ

/-- The device on its own. -/
def Node.device {E : Type u} (d : Node E) : System (State E) Label :=
  system d.asserts d.escaper d.self d.behind d.rxFifo0Size d.start d.program

section Bus

variable {E : Type u} {κ : Type v} [DecidableEq κ]

/-- The devices on a bus. -/
def bus (nodes : κ → Node E) : System (Medium κ (State E) RxElement) (MediumLabel κ Label) :=
  System.medium (fun i => (nodes i).device) canPort

/-- The condition on a step of a node on the bus. -/
def busOk (nodes : κ → Node E) (i : κ) (s : State E) (l : Label) : Prop :=
  orderly (nodes i).asserts s l ∧ roomy (nodes i).rxFifo0Size s l

instance (n : ℕ) (s : State E) : ∀ l, Decidable (roomy n s l)
  | .arrive _ => inferInstanceAs (Decidable (_ < _))
  | .poll | .sender | .addFails | .timeout | .interrupt | .transmitted =>
    inferInstanceAs (Decidable True)

instance (nodes : κ → Node E) (i : κ) (s : State E) (l : Label) :
    Decidable (busOk nodes i s l) := inferInstanceAs (Decidable (_ ∧ _))

instance : ∀ pc : SendPc, Decidable (pc = .stopped)
  | .stopped => isTrue rfl
  | .outside => isFalse SendPc.noConfusion
  | .encode _ => isFalse SendPc.noConfusion
  | .addFrame _ _ => isFalse SendPc.noConfusion
  | .wait _ _ => isFalse SendPc.noConfusion
  | .check _ => isFalse SendPc.noConfusion

/-- Nothing is left to happen but timeouts. -/
def quiet (nodes : κ → Node E) (x : Medium κ (State E) RxElement) : Prop :=
  ∀ i, (bus nodes).next x (.take i) = none ∧
    ∀ l ∈ [Label.poll, .sender, .interrupt, .transmitted], (bus nodes).next x (.own i l) = none

end Bus

/-! ## One node -/

section Node

variable {E : Type u} {X : Escaper E} {self : PrivateData} {asserts : Bool}
  {behind : ℕ → ℕ → UInt8} {n : ℕ} {e : E} {program : List (List UInt8)} {s : State E}

/-- A node at which nothing is left to happen but arrivals and timeouts: the FIFO is drained,
the last frame is transmitted, and the sender is done or has stopped. -/
structure Idle (s : State E) : Prop where
  fifo : s.rx.fifo = []
  inHand : inHand s.rx.poll = []
  buffer : s.tx.buffer = none
  done : s.tx.pc ≠ .stopped → s.tx.pc = .outside ∧ s.tx.todo = []

/-- The handler has nothing to do. -/
theorem interruptStep_eq_none (h : interruptStep s = none) :
    s.handler = .idle ∧ s.rx.rf0n = false ∧ s.tx.tc = none := by
  cases hh : s.handler with
  | idle =>
    by_cases hflag : s.rx.rf0n = true ∨ s.tx.tc.isSome = true
    · simp [interruptStep, hh, hflag] at h
    · simpa using hflag
  | testRf0n rf0n tc => cases rf0n <;> simp [interruptStep, hh] at h
  | testTc tc => cases tc <;> simp [interruptStep, hh] at h

/-- The poll task can only wait. -/
theorem pollStep_eq_none {r : Rx} (h : pollStep self r = none) (hne : r.poll ≠ .stopped) :
    r.poll = .obtain ∧ r.semaphore.available = false := by
  cases hpc : r.poll with
  | obtain =>
    simp only [pollStep, hpc, Option.map_eq_none_iff] at h
    simpa [Semaphore.obtain] using h
  | pull => cases hfifo : r.fifo <;> simp [pollStep, hpc, hfifo] at h
  | stopped => exact absurd hpc hne
  | _ => simp [pollStep, hpc] at h

/-- The sender has nothing to send, waits, or has stopped. -/
theorem senderStep_eq_none {t : Tx E} (h : senderStep asserts X self behind t = none) :
    t.pc = .outside ∧ t.todo = [] ∨ (∃ frame back, t.pc = .wait frame back ∧ t.semaphore = none) ∨
      t.pc = .stopped := by
  cases hpc : t.pc with
  | outside =>
    cases htodo : t.todo with
    | nil => exact .inl ⟨rfl, rfl⟩
    | cons data todo => simp [senderStep, hpc, htodo] at h
  | wait frame back =>
    simp only [senderStep, hpc, Option.map_eq_none_iff] at h
    exact .inr (.inl ⟨frame, back, rfl, h⟩)
  | stopped => exact .inr (.inr rfl)
  | _ => simp [senderStep, hpc] at h

/-- **No device waits for nothing.** Where the driver and the controller of a device can make
no step, everything has been received and everything has been sent. -/
theorem idle_of_stuck
    (h : (system asserts X self behind n e program).ReachableWhen (orderly asserts) s)
    (hstuck : ∀ l ∈ [Label.poll, .sender, .interrupt, .transmitted],
      next asserts X self behind n s l = none) : Idle s := by
  have hrx := rxInv h.reachable
  have htx := handshakeInv (h.mono fun s l hok => hok.1)
  obtain ⟨hidle, hrf0n, htc⟩ := interruptStep_eq_none (hstuck .interrupt (by simp))
  obtain ⟨hpoll, hsem⟩ := pollStep_eq_none (Option.map_eq_none_iff.mp (hstuck .poll (by simp)))
    (poll_not_stopped h.reachable)
  have hbuffer : s.tx.buffer = none :=
    Option.map_eq_none_iff.mp (Option.map_eq_none_iff.mp (hstuck .transmitted (by simp)))
  constructor
  case fifo =>
    by_contra hne
    rcases hrx.wake hne with hreads | havailable | hflag | hpending
    · simp [hpoll, PollPc.reads] at hreads
    · rw [hsem] at havailable
      cases havailable
    · rw [hrf0n] at hflag
      cases hflag
    · simp [hidle, Handler.rf0n] at hpending
  case inHand =>
    rw [hpoll]
    rfl
  case buffer => exact hbuffer
  case done =>
    intro hlive
    rcases senderStep_eq_none (Option.map_eq_none_iff.mp (hstuck .sender (by simp))) with
      hdone | ⟨frame, back, hpc, hnone⟩ | hpc
    · exact hdone
    · -- a report for the frame that is waited for would be on its way
      have hnot := htx.not_abandoned_of_waiting (by simp [hpc, SendPc.between])
      have hsig := htx.live hnot
      simp only [signals, hbuffer, htc, hidle, Handler.tc, hnone, hpc, waited, Option.toList_none,
        List.append_nil] at hsig
      cases frame with
      | none => exact absurd hpc (waits_for_frame h back)
      | some k => cases hsig
    · exact absurd hpc hlive

end Node

/-! ## Accounts of the bus -/

section Accounts

variable {E : Type u} {κ : Type v} [DecidableEq κ] {nodes : κ → Node E}
  {x : Medium κ (State E) RxElement}

/-- What a node has put on the bus. -/
theorem sentBy_bus {ok : κ → State E → Label → Prop}
    (hok : ∀ i s l, ok i s l → addsAfterWaits (nodes i).asserts s l)
    (h : (bus nodes).ReachableWhen (undisturbed canPort ok) x) (i : κ) :
    sentBy i x.log = transmittedFrames (x.node i).tx := by
  obtain ⟨r, hr, hview⟩ := h.node i
  rw [← hview.sent_eq]
  exact (transmitInv (hok i) hr).sent

/-- What a node has taken from the bus: it is handed over, in hand, or in RX FIFO 0. -/
theorem handed_bus (h : (bus nodes).ReachableWhen (undisturbed canPort (busOk nodes)) x) (i : κ) :
    (x.node i).rx.handed ++
        (inHand (x.node i).rx.poll ++ (x.node i).rx.fifo).map (handOver (nodes i).self) =
      ((others i x.log).take (x.passed i)).map (handOver (nodes i).self) := by
  obtain ⟨r, hr, hview⟩ := h.node i
  have hnode : (nodes i).device.ReachableWhen (busOk nodes i) (x.node i) := hr.of_recorded
  have hrx := rxInv hnode.reachable
  obtain ⟨done, hpulled, hhanded⟩ := hrx.handed
  rw [← hview.taken_eq, ← accepted_eq (busOk nodes i) (fun s l hok => hok.2) hr,
    ← hrx.accepted, hpulled, hhanded, List.append_assoc, ← List.map_append]

/-- A node on its own, in an orderly run. -/
theorem node_bus (h : (bus nodes).ReachableWhen (undisturbed canPort (busOk nodes)) x) (i : κ) :
    (nodes i).device.ReachableWhen (orderly (nodes i).asserts) (x.node i) := by
  obtain ⟨r, hr, -⟩ := h.node i
  have hnode : (nodes i).device.ReachableWhen (busOk nodes i) (x.node i) := hr.of_recorded
  exact hnode.mono fun s l hok => hok.1

/-- On a quiet bus every node is idle and has taken everything. -/
theorem idle_of_quiet (h : (bus nodes).ReachableWhen (undisturbed canPort (busOk nodes)) x)
    (hquiet : quiet nodes x) (i : κ) :
    Idle (x.node i) ∧ (others i x.log).take (x.passed i) = others i x.log := by
  rcases hquiet i with ⟨htake, hown⟩
  constructor
  · refine idle_of_stuck (node_bus h i) fun l hl => ?_
    have hnone := hown l hl
    have hfree : (canPort (E := E)).takenBy l = none := by
      simp only [List.mem_cons, List.not_mem_nil, or_false] at hl
      rcases hl with rfl | rfl | rfl | rfl <;> rfl
    simpa [bus, System.medium, hfree, Node.device, system] using hnone
  · obtain ⟨r, -, hview⟩ := h.node i
    refine List.take_of_length_le (Nat.le_of_not_lt fun hlt => ?_)
    simp [bus, System.medium, List.getElem?_eq_getElem hlt, canPort, Node.device, system,
      next] at htake

end Accounts

/-! ## Messages -/

/-- The data bytes of the frame of a message. -/
def messagePayload (self : PrivateData) (data : List UInt8) : List UInt8 :=
  if ifaceUsesDynamicId self then data.drop 4 else data

/-- The header that a node with application-controlled IDs builds for the frame of a
message. -/
def messageHeader (self : PrivateData) (data : List UInt8) : UInt32 :=
  match self.config.address with
  | .applicationControlCanId _ => canonicalHeader (nativeUInt32 data)
  | .staticCanId (.standard id) => id.toUInt32
  | .staticCanId (.extended id) => id.toUInt32 ||| canExtendedIdBit
  | _ => 0

/-- What `receiver` hands over for a message of `sender` that goes out in one frame. -/
def delivers (receiver sender : PrivateData) (data : List UInt8) : Delivery :=
  .receivePacket (if ifaceUsesDynamicId receiver then
      nativeBytes (messageHeader sender data) ++ messagePayload sender data
    else messagePayload sender data)

/-- A node without the Escaper hands over what the message says. -/
theorem handOver_messageFrame {receiver sender : PrivateData} {data : List UInt8} {el : TxElement}
    (hplain : shouldUseEscaper receiver = false) (h : messageFrame sender data = some el) :
    handOver receiver el.received = delivers receiver sender data := by
  have hframe : el.payload = messagePayload sender data ∧
      valueBuffer el.received =
        nativeBytes (messageHeader sender data) ++ messagePayload sender data := by
    cases haddress : sender.config.address with
    | staticCanId address =>
      have hdyn : ifaceUsesDynamicId sender = false := by simp [ifaceUsesDynamicId, haddress]
      simp only [messageFrame, haddress] at h
      split at h
      case isTrue hcond =>
        obtain ⟨target, htarget, rfl⟩ := Option.map_eq_some_iff.mp h
        have hpayload : (txElement target.1 target.2 data data.length).payload = data :=
          List.take_length
        rw [messagePayload, hdyn, if_neg Bool.false_ne_true]
        refine ⟨hpayload, ?_⟩
        rw [valueBuffer, TxElement.received, hpayload]
        cases address with
        | standard id | extended id =>
          cases htarget
          simp only [messageHeader, haddress]
          rfl
        | none => cases htarget
      case isFalse => cases h
    | applicationControlCanId dummy =>
      have hdyn : ifaceUsesDynamicId sender = true := by simp [ifaceUsesDynamicId, haddress]
      simp only [messageFrame, haddress] at h
      split at h
      case isTrue hcond =>
        cases h
        simp only [messagePayload, hdyn, if_true, messageHeader, haddress]
        exact ⟨payload_dynamicIdFrame data, valueBuffer_received data⟩
      case isFalse => cases h
    | none => simp [messageFrame, haddress] at h
  rw [handOver, hplain, if_neg Bool.false_ne_true, delivers, ← hframe.2, ← hframe.1]
  split <;> rfl

/-! ## One order -/

section Broadcast

variable {E : Type u} {κ : Type v} [DecidableEq κ] {nodes : κ → Node E}
  {x : Medium κ (State E) RxElement}

/-- The frame of a message on the bus. -/
def busFrame (nodes : κ → Node E) (i : κ) (data : List UInt8) : Option RxElement :=
  (messageFrame (nodes i).self data).map TxElement.received

/-- What a node has transmitted is a beginning of the frames of its messages; an idle node
that has not stopped has transmitted all of them. -/
theorem transmittedFrames_isPrefix {d : PrivateData} {program : List (List UInt8)} {t : Tx E}
    (h : QueuedInv d program t) :
    transmittedFrames t <+: program.filterMap fun data =>
      (messageFrame d data).map TxElement.received := by
  obtain ⟨rest, hrest, -⟩ := h.queued
  rw [← List.map_filterMap, ← hrest, transmittedFrames]
  exact ((List.take_prefix _ _).trans (List.prefix_append _ _)).map _

theorem transmittedFrames_of_idle {d : PrivateData} {program : List (List UInt8)} {s : State E}
    (h : QueuedInv d program s.tx) (hidle : Idle s) (hlive : s.tx.pc ≠ .stopped) :
    transmittedFrames s.tx = program.filterMap fun data =>
      (messageFrame d data).map TxElement.received := by
  obtain ⟨rest, hrest, hall⟩ := h.queued
  rcases hidle.done hlive with ⟨hpc, htodo⟩
  have hnone : rest = [] := by
    rw [hall hlive, hpc, htodo]
    rfl
  rw [← List.map_filterMap, ← hrest, hnone, List.append_nil, transmittedFrames, hidle.buffer,
    Option.getD_none, List.take_length]

/-- **Broadcast in one order.** On a bus of nodes whose messages go out in one frame, where no
frame finds RX FIFO 0 full and no wait for a frame has timed out before the next one, there is
one order of the messages such that every node's messages are in the order of its calls, and
what a node has handed over is a beginning of what the others have in the order. When the bus
is quiet and no sender has stopped at an assertion, all messages are in the order and every
node has handed over all that the others have sent. -/
theorem broadcast (hplain : ∀ i, shouldUseEscaper (nodes i).self = false)
    (hprogram : ∀ i, ∀ data ∈ (nodes i).program, (messageFrame (nodes i).self data).isSome)
    (h : (bus nodes).ReachableWhen (undisturbed canPort (busOk nodes)) x) :
    ∃ order : List (κ × List UInt8),
      (∀ i, sentBy i order <+: (nodes i).program) ∧
      (∀ i, (x.node i).rx.handed <+: (order.filter fun m => m.1 ≠ i).map fun m =>
        delivers (nodes i).self (nodes m.1).self m.2) ∧
      (quiet nodes x → (∀ i, (x.node i).tx.pc ≠ .stopped) → ∀ i,
        sentBy i order = (nodes i).program ∧
        (x.node i).rx.handed = (order.filter fun m => m.1 ≠ i).map fun m =>
          delivers (nodes i).self (nodes m.1).self m.2) := by
  have hqueued : ∀ i, QueuedInv (nodes i).self (nodes i).program (x.node i).tx := fun i =>
    queuedInv (hprogram i) (node_bus h i)
  have hframe : ∀ i, ∀ data ∈ (nodes i).program,
      (busFrame nodes i data).isSome := by
    intro i data hmem
    rw [busFrame, Option.isSome_map]
    exact hprogram i data hmem
  have hsent : ∀ i, sentBy i x.log <+: (nodes i).program.filterMap (busFrame nodes i) := by
    intro i
    rw [sentBy_bus (fun i s l hl => hl.1.1) h i]
    exact transmittedFrames_isPrefix (hqueued i)
  obtain ⟨order, horder, hlog⟩ := exists_order hframe hsent
  have hread : ∀ i, (others i x.log).map (handOver (nodes i).self) =
      (order.filter fun m => m.1 ≠ i).map fun m =>
        delivers (nodes i).self (nodes m.1).self m.2 := by
    intro i
    rw [← hlog]
    refine others_posted i fun m hm => ?_
    have hmem : m.2 ∈ (nodes m.1).program := by
      refine (horder m.1).subset ?_
      rw [sentBy, List.mem_map]
      exact ⟨m, List.mem_filter.mpr ⟨hm, by simp⟩, rfl⟩
    obtain ⟨el, hel⟩ := Option.isSome_iff_exists.mp (hprogram m.1 m.2 hmem)
    rw [busFrame, hel, Option.map_some, Option.map_some, handOver_messageFrame (hplain i) hel]
  refine ⟨order, horder, fun i => ?_, fun hquiet hlive i => ?_⟩
  · rw [← hread i]
    have hhanded := handed_bus h i
    rw [← List.take_append_drop (x.passed i) (others i x.log), List.map_append, ← hhanded,
      List.append_assoc]
    exact List.prefix_append _ _
  · rcases idle_of_quiet h hquiet i with ⟨hidle, htaken⟩
    constructor
    · refine sentBy_order_eq (hframe i) (horder i) ?_
      rw [hlog, sentBy_bus (fun i s l hl => hl.1.1) h i]
      exact transmittedFrames_of_idle (hqueued i) hidle (hlive i)
    · have hhanded := handed_bus h i
      rw [hidle.inHand, hidle.fifo, htaken, hread i, List.append_nil, List.map_nil,
        List.append_nil] at hhanded
      exact hhanded

/-- The node `i` sends one frame. -/
def sending {n : ℕ} (i : Fin n) : List (MediumLabel (Fin n) Label) :=
  [.own i .sender, .own i .sender, .own i .transmitted, .own i .interrupt, .own i .interrupt,
    .own i .interrupt, .own i .sender, .own i .sender]

/-- The node `i`, just initialised, takes some frames, handles one interrupt and drains the
FIFO. -/
def taking {n : ℕ} (i : Fin n) (frames : ℕ) : List (MediumLabel (Fin n) Label) :=
  List.replicate frames (.take i) ++ List.replicate 3 (.own i .interrupt) ++
    List.replicate (4 + 4 * frames) (.own i .poll)

/-- Two nodes with a message each, and one that listens. -/
def threeNodes (i : Fin 3) : Node ℕ where
  self := ⟨⟨.mcan0, .pllaClock, 14, .staticCanId (.standard (60 + i.val.toUInt64))⟩, 8,
    some ⟨false⟩, some ⟨false⟩, none, true⟩
  behind _ _ := 0
  escaper := stuffingEscaper byteStuffing 8
  start := 0
  program := [[[1]], [[2]], []].getD i.val []
  asserts := true
  rxFifo0Size := 64

/-- Both messages are sent and handed over by the other two. -/
theorem threeNodes_broadcast : ∃ x order,
    (bus threeNodes).ReachableWhen (undisturbed canPort (busOk threeNodes)) x ∧
      (∀ i, sentBy i order = (threeNodes i).program) ∧
      ∀ i, (x.node i).rx.handed = (order.filter fun m => m.1 ≠ i).map fun m =>
        delivers (threeNodes i).self (threeNodes m.1).self m.2 := by
  have h := (bus threeNodes).reachableWhen_get (undisturbed canPort (busOk threeNodes))
    (sending 1 ++ sending 0 ++ taking 0 1 ++ taking 1 1 ++ taking 2 2) (by decide)
  obtain ⟨order, -, -, hquiet⟩ := broadcast (by decide) (by decide) h
  have hall := hquiet (by unfold quiet; decide) (by decide)
  exact ⟨_, order, h, fun i => (hall i).1, fun i => (hall i).2⟩

end Broadcast

/-! ## Bounds -/

section Bounds

variable {E : Type u} {X : Escaper E} {self : PrivateData} {behind : ℕ → ℕ → UInt8} {n : ℕ}
  {e : E} {program : List (List UInt8)} {s s' : State E} {κ : Type v} [DecidableEq κ]
  {nodes : κ → Node E} {x : Medium κ (State E) RxElement}

/-- A call with no more bytes than a frame, or a frame and its header, has. -/
def Delivery.inBounds (self : PrivateData) : Delivery → Prop
  | .decodePacket bytes => bytes.length ≤ mcanMaxDataSize
  | .receivePacket bytes =>
    if ifaceUsesDynamicId self then 4 ≤ bytes.length ∧ bytes.length ≤ 4 + mcanMaxDataSize
    else bytes.length ≤ mcanMaxDataSize

/-- A frame in its bounds is handed over in a call in its bounds. -/
theorem handOver_inBounds {self : PrivateData} {el : RxElement} (hel : el.valid) :
    (handOver self el).inBounds self := by
  rcases length_valueBuffer hel with ⟨h4, h12⟩
  rw [handOver]
  split
  · exact hel.2
  · split
    case isTrue hdyn => rw [Delivery.inBounds, if_pos hdyn]; exact ⟨h4, h12⟩
    case isFalse hdyn => rw [Delivery.inBounds, if_neg hdyn]; exact hel.2

/-- A device with asserts enabled keeps to the bounds as long as the frames that arrive do: the
frames it accepts are in their bounds, and so is the one it transmits. -/
theorem valid_step (haddress : self.config.address.isConstraintValid = true)
    (hr : (system true X self behind n e program).Reachable s)
    (haccepted : ∀ el ∈ s.rx.accepted, el.valid) {l : Label}
    (hl : ∀ el, canPort.event s l = some (.inr el) → el.valid)
    (hs : next true X self behind n s l = some s') :
    (∀ el ∈ s'.rx.accepted, el.valid) ∧ ∀ el, canPort.emits s l = some el → el.valid := by
  constructor
  · obtain ⟨more, hmore, hsub, -⟩ := accepted_step hs
    rw [hmore]
    intro el hel
    rcases List.mem_append.mp hel with hel | hel
    · exact haccepted el hel
    · have htaken := hsub.subset hel
      simp only [taken, List.mem_filterMap, Option.mem_toList] at htaken
      obtain ⟨b, hb, hright⟩ := htaken
      cases b with
      | inl => cases hright
      | inr el' =>
        cases hright
        exact hl el hb
  · intro el hel
    cases l with
    | transmitted =>
      obtain ⟨frame, -, hadded⟩ := Option.bind_eq_some_iff.mp hel
      obtain ⟨added, hmem, rfl⟩ := Option.map_eq_some_iff.mp hadded
      exact (validInv haddress hr).frames added
        (List.mem_append_left _ (List.mem_of_getElem? hmem))
    | poll | sender | addFails | timeout | interrupt | arrive => cases hel

/-- **Everything on the bus is in its bounds.** With asserts enabled and valid addresses,
whatever the nodes are given to send, in every run: every frame on the bus has at most eight
data bytes and an ID that fits its type; so has every frame in an RX FIFO, so that
`m_rx_buffer` is never overrun; and no call hands over more than eight bytes, or than twelve
with the ID. -/
theorem bus_in_bounds (hasserts : ∀ i, (nodes i).asserts = true)
    (hvalid : ∀ i, (nodes i).self.config.address.isConstraintValid = true)
    (h : (bus nodes).Reachable x) :
    (∀ m ∈ x.log, m.2.valid) ∧
      ∀ i, (∀ el ∈ (x.node i).rx.pulled ++ (x.node i).rx.fifo, el.valid) ∧
        ∀ call ∈ (x.node i).rx.handed, call.inBounds (nodes i).self := by
  have hdevice : ∀ i, (nodes i).device = system true (nodes i).escaper (nodes i).self
      (nodes i).behind (nodes i).rxFifo0Size (nodes i).start (nodes i).program := by
    intro i
    rw [Node.device, hasserts i]
  have hstep : ∀ i s l s', ((nodes i).device.Reachable s ∧ ∀ el ∈ s.rx.accepted, el.valid) →
      (∀ el, canPort.event s l = some (.inr el) → el.valid) → (nodes i).device.next s l = some s' →
      ((nodes i).device.Reachable s' ∧ ∀ el ∈ s'.rx.accepted, el.valid) ∧
        ∀ el, canPort.emits s l = some el → el.valid := by
    rintro i s l s' ⟨hr, haccepted⟩ hl hs
    have hr' := System.Reachable.step hr hs
    rw [hdevice i] at hr hs
    obtain ⟨hkept, hsent⟩ := valid_step (hvalid i) hr haccepted hl hs
    exact ⟨⟨hr', hkept⟩, hsent⟩
  obtain ⟨hnodes, hlog⟩ := System.Reachable.medium_invariant
    (I := fun i s => (nodes i).device.Reachable s ∧ ∀ el ∈ s.rx.accepted, el.valid)
    (Q := RxElement.valid) (fun i => ⟨.init, by simp [Node.device, system, initial]⟩)
    (fun i s l s' hi hfree hs => hstep i s l s' hi (fun el hel => by
      simp [Port.event, hfree] at hel) hs)
    (fun i s a s' hi ha hs => (hstep i s _ s' hi (fun el hel => by
      rw [Port.event_takes] at hel
      cases hel
      exact ha) hs).1) h
  refine ⟨hlog, fun i => ?_⟩
  obtain ⟨hr, haccepted⟩ := hnodes i
  have hrx := rxInv hr
  obtain ⟨done, hpulled, hhanded⟩ := hrx.handed
  rw [← hrx.accepted] at haccepted
  refine ⟨haccepted, fun call hcall => ?_⟩
  rw [hhanded] at hcall
  obtain ⟨el, hel, rfl⟩ := List.mem_map.mp hcall
  refine handOver_inBounds (haccepted el (List.mem_append_left _ ?_))
  rw [hpulled]
  exact List.mem_append_left _ hel

/-- A node with IDs chosen by the application that is given a message of thirteen bytes to send,
and one that is given a message of four. -/
def tooLong (i : Fin 2) : Node ℕ where
  self := ⟨dynamicIdConf, 13, some ⟨false⟩, some ⟨false⟩, none, true⟩
  behind _ _ := 0
  escaper := stuffingEscaper byteStuffing 8
  start := 0
  program := [[List.replicate 13 0], [[255, 255, 255, 255]]].getD i.val []
  asserts := true
  rxFifo0Size := 64

/-- The first node stops and misses the second one's frame, which has an extended ID. -/
theorem tooLong_in_bounds : ∃ x, (bus tooLong).Reachable x ∧
    (x.node 0).tx.pc = .stopped ∧ x.log = [(1, ⟨.extended, 0x1fffffff, []⟩)] ∧
      x.passed 0 = 1 ∧ ∀ m ∈ x.log, m.2.valid := by
  have h := (bus tooLong).reachable_get ([.own 0 .sender] ++ sending 1 ++ [.miss 0]) (by decide)
  exact ⟨_, h, rfl, rfl, rfl, (bus_in_bounds (by decide) (by decide) h).1⟩

end Bounds

/-! ## Escaped messages between two nodes -/

section Escaped

variable {E : Type u} {κ : Type v} [DecidableEq κ] {nodes : κ → Node E}
  {x : Medium κ (State E) RxElement} {i j : κ}

/-- A node with the Escaper passes the data bytes of the frames to the decoder. -/
theorem handOver_of_escaper {self : PrivateData} (hesc : shouldUseEscaper self = true) :
    (fun el : TxElement => handOver self el.received) = fun el => .decodePacket el.payload := by
  funext el
  rw [handOver, if_pos hesc]
  rfl

/-- **Escaped messages arrive whole and in order.** Of two nodes on a bus, both with messages
of more than one frame, what the decoder of the one has passed to the Broker is a beginning
of the messages the other was given to send; on a quiet bus, with a sender that has not
stopped, it is all of them. -/
theorem escaped_delivery {D : Type w} {Y : Unescaper D} {F : Framing (nodes i).escaper}
    (U : Unframing F Y) (htwo : ∀ k, k ≠ j ↔ k = i) {address : CanId} {target : IdType × UInt32}
    (hsender : shouldUseEscaper (nodes i).self = true)
    (haddress : (nodes i).self.config.address = .staticCanId address)
    (htarget : staticIdTypeAndId address = some target)
    (hX : (nodes i).escaper.bufferSize = mcanMaxDataSize)
    (hreceiver : shouldUseEscaper (nodes j).self = true)
    (hfits : ∀ data ∈ (nodes i).program, data.length ≤ Y.bufferSize)
    (h : (bus nodes).ReachableWhen (undisturbed canPort (busOk nodes)) x) (d : D) :
    ∃ pieces, (x.node j).rx.handed = pieces.map .decodePacket ∧
      (received Y (Y.startDecoder d) pieces).2 <+: (nodes i).program ∧
      (quiet nodes x → (x.node i).tx.pc ≠ .stopped →
        (received Y (Y.startDecoder d) pieces).2 = (nodes i).program) := by
  have hsplit : SplitInv F target (nodes i).program (x.node i).tx :=
    splitInv hsender haddress htarget hX (node_bus h i)
  obtain ⟨rest, hrest, hall⟩ := hsplit.split
  -- what the receiver has handed over are the data bytes of frames the sender has added
  have hothers : (others j x.log).map (handOver (nodes j).self) =
      ((x.node i).tx.added.take
        ((x.node i).tx.buffer.getD (x.node i).tx.added.length)).map fun el =>
          .decodePacket el.payload := by
    rw [others_eq_sentBy htwo, sentBy_bus (fun i s l hl => hl.1.1) h i, transmittedFrames,
      List.map_map, ← handOver_of_escaper hreceiver]
    rfl
  have hhanded := handed_bus h j
  rw [List.map_take, hothers] at hhanded
  have hbegins := (List.prefix_append _ _).trans (hhanded ▸ List.take_prefix _ _)
  obtain ⟨frames, hframes, hpieces⟩ := List.prefix_map_iff.mp hbegins
  -- so the stream that is decoded begins the escaped messages
  have hdecodes : ∀ data ∈ (nodes i).program, Decodes U F.frame (fun _ => True) data := by
    intro data hdata e he
    simpa using U.decode_frame e data he (hfits data hdata)
  have hstream : (frames.map TxElement.payload).flatten <+: (nodes i).program.flatMap F.frame := by
    obtain ⟨more, hmore⟩ := hframes.trans (List.take_prefix _ _)
    rw [← hrest, ← hmore, List.flatMap_append, ← List.flatMap_def, List.append_assoc]
    exact List.prefix_append _ _
  have hreceived := received_of_stream U (U.ready_start d) hdecodes hstream
  simp only [decide_true, List.filter_true] at hreceived
  refine ⟨frames.map TxElement.payload, by rw [hpieces, List.map_map]; rfl, hreceived.1,
    fun hquiet hlive => hreceived.2 ?_⟩
  rcases idle_of_quiet h hquiet i with ⟨hidle, -⟩
  rcases idle_of_quiet h hquiet j with ⟨hidle', htaken⟩
  rcases hidle.done hlive with ⟨hpc, htodo⟩
  obtain ⟨bytes, howes, hbytes⟩ := hall hlive
  have hnone : rest = [] := by
    simp only [Owes, hpc, SendPc.back] at howes
    rw [hbytes, howes, htodo]
    rfl
  have hdelivered := handed_bus h j
  rw [htaken, hothers, hidle'.inHand, hidle'.fifo, List.append_nil, List.map_nil,
    List.append_nil, hidle.buffer, Option.getD_none, List.take_length, hpieces] at hdelivered
  rw [hidle.buffer, Option.getD_none, List.take_length] at hframes
  have hsame : frames = (x.node i).tx.added :=
    hframes.eq_of_length (by simpa using congrArg List.length hdelivered)
  rw [hsame, ← List.flatMap_def, ← hrest, hnone, List.append_nil]

/-- A node with a message of ten bytes, and one that receives it. -/
def twoNodes (i : Fin 2) : Node ℕ where
  self := ⟨⟨.mcan1, .pllaClock, 14, .staticCanId (.extended (70 + i.val.toUInt64))⟩, 20,
    some ⟨false⟩, some ⟨false⟩, some (8, 20), true⟩
  behind _ _ := 0
  escaper := stuffingEscaper escapeCode.stuffing 8
  start := 0
  program := [[[0, 1, 2, 3, 4, 5, 6, 7, 8, 9]], []].getD i.val []
  asserts := true
  rxFifo0Size := 64

/-- The message arrives in two frames. -/
theorem twoNodes_delivery : ∃ x pieces,
    (bus twoNodes).ReachableWhen (undisturbed canPort (busOk twoNodes)) x ∧
      (x.node 1).rx.handed = pieces.map .decodePacket ∧
      (received (destuffingUnescaper escapeCode 20) .idle pieces).2 =
        [[0, 1, 2, 3, 4, 5, 6, 7, 8, 9]] := by
  have h := (bus twoNodes).reachableWhen_get (undisturbed canPort (busOk twoNodes))
    ([.own 0 .sender] ++ sending 0 ++ sending 0 ++ [.own 0 .sender, .own 0 .poll] ++ taking 1 2)
    (by decide)
  obtain ⟨pieces, hhanded, -, hquiet⟩ := escaped_delivery (i := 0) (j := 1)
    (destuffingUnframing escapeCode 8 20 (by decide)) (by decide) rfl rfl rfl rfl rfl
    (by decide) h .idle
  exact ⟨_, pieces, h, hhanded, hquiet (by unfold quiet; decide) (by decide)⟩

end Escaped
end Samrh71Drivers.Can
