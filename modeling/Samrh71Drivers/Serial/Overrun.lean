import Samrh71Drivers.Serial.Rx

/-!
# The RX FIFO when the poll task is late

Where the HAL drops a byte that finds the FIFO full, the driver hands over in every run, also
one with such bytes, in order, what is left of the bytes received when exactly the dropped ones
are taken out; a byte is dropped only while the poll task has been woken and has not yet drained
the FIFO, and no wake-up is lost (`rx_overrun`).

How late the task may be follows: a bound on the bytes received between a wake-up and the drain
that answers it keeps every byte if and only if it is at most `recvBufferSize - targetLength`
(`rx_budget`), whatever the HAL does with a byte that finds the FIFO full. That is 255 bytes with
single bytes, and 128 in the other modes.

## Main definitions

* `accepted` — the record of the bytes that found room.
* `woken` — the poll task has a wake-up to answer.
* `timed`, `prompt` — the receiver with a count of the bytes since the wake-up, and the bound
  on it.
-/

namespace Samrh71Drivers.Serial.Rx

open Transition Lending

/-! ## Dropped bytes -/

section Overrun

variable {full : FullFifo} {stopByte : UInt8} {c : Mode} {h : RxHandler} {s s' : State}
  {r : List UInt8}

variable (full stopByte c h) in
/-- A byte that finds the FIFO full. -/
theorem next_of_full (hreading : s.reading = true) (hfull : s.rxFifo.length = recvBufferSize)
    (b : UInt8) : (system full stopByte c h).next s (.rxInterrupt b) = some { s with
      rxFifo := full.push s.rxFifo b
      event := s.event || full.callback s.rxFifo b
      received := s.received ++ [b] } := by
  have hnot : ¬ s.rxFifo.length < recvBufferSize := by
    rw [hfull]
    exact Nat.lt_irrefl _
  simp only [system, next, hreading, if_true, Rx.rxInterrupt, hnot, if_false]

/-- The byte a step puts in the FIFO. -/
def accepted (s : State) : Label → Option UInt8
  | .poll => none
  | .rxInterrupt b => if s.rxFifo.length < recvBufferSize then some b else none

/-- The poll task has been woken and has not yet drained the FIFO. -/
def woken (s : State) : Prop := s.event = true ∨ s.pc = .readRxFifo

instance (s : State) : Decidable (woken s) := inferInstanceAs (Decidable (_ ∨ _))

/-- A step of the receiver is the same step of one that has received the accepted bytes only,
or drops its byte. -/
theorem next_accepted (hdrops : full.Drops) {l : Label} (hs : next c full h s l = some s')
    (r : List UInt8) :
    (next c full h { s with received := r } l =
        some { s' with received := r ++ (accepted s l).toList } ∧ fits s l ∧
      s'.received = s.received ++ (accepted s l).toList) ∨
    (∃ b, l = .rxInterrupt b ∧ recvBufferSize ≤ s.rxFifo.length ∧
      s' = { s with
        event := s.event || full.callback s.rxFifo b
        received := s.received ++ [b] }) := by
  cases rxStep_of_next hs with
  | @rxInterrupt b hreading =>
    by_cases hfits : s.rxFifo.length < recvBufferSize
    · refine .inl ⟨?_, hfits, ?_⟩ <;>
        simp [next, Rx.rxInterrupt, hreading, hfits, accepted]
    · refine .inr ⟨b, rfl, Nat.le_of_not_lt hfits, ?_⟩
      simp [Rx.rxInterrupt, hfits, hdrops s.rxFifo b]
  | start hpc | uartRead hpc | readRxFifo hpc =>
    exact .inl ⟨by simp [next, pollStep, hpc, accepted], trivial, by simp [accepted]⟩
  | eventReceive hpc hev =>
    exact .inl ⟨by simp [next, pollStep, hpc, hev, accepted], trivial, by simp [accepted]⟩
  | receivePacket hpc hraw hlt | loopEnd hpc hraw hlt =>
    exact .inl ⟨by simp [next, pollStep, hpc, hraw, hlt, accepted], trivial, by simp [accepted]⟩
  | decodePacket hpc hraw =>
    exact .inl ⟨by simp [next, pollStep, hpc, hraw, accepted], trivial, by simp [accepted]⟩

/-- The invariant of reception, with the accepted bytes for the received ones. -/
theorem acceptedInv (hdrops : full.Drops) {x : State × List UInt8}
    (hx : ((system full stopByte c h).recorded accepted).Reachable x) :
    RxInv c (initUartRxHandler stopByte c h) { x.1 with received := x.2 } ∧
      x.2.Sublist x.1.received := by
  have hw := wakes_initUartRxHandler stopByte c h
  refine System.Reachable.recorded_invariant (P := fun s r =>
    RxInv c (initUartRxHandler stopByte c h) { s with received := r } ∧ r.Sublist s.received)
    ?_ ?_ hx
  · exact ⟨⟨rfl, by simp [system, initial], Nat.zero_le _, fun _ => rfl,
      fun _ _ => hw.not_due_nil, rfl⟩, List.Sublist.refl _⟩
  · rintro s r l s' - ⟨hinv, hsub⟩ hs
    rcases next_accepted hdrops hs r with ⟨hstep, hfits, hreceived⟩ | ⟨b, rfl, hfull, rfl⟩
    · have hok : fits { s with received := r } l := by
        cases l <;> exact hfits
      refine ⟨hinv.step hw hok (rxStep_of_next hstep), ?_⟩
      rw [hreceived]
      exact hsub.append (List.Sublist.refl _)
    · have hnone : accepted s (.rxInterrupt b) = none := if_neg (Nat.not_lt.mpr hfull)
      rw [hnone, Option.toList_none, List.append_nil]
      refine ⟨⟨hinv.inOrder, hinv.calls, hinv.fits, hinv.unread, fun hev => ?_, hinv.place⟩,
        hsub.trans (List.sublist_append_left _ _)⟩
      exact hinv.quiet (Bool.or_eq_false_iff.mp hev).1

/-- Every handler wakes the task before the FIFO is full. -/
theorem targetLength_le (stopByte : UInt8) (c : Mode) (h : RxHandler) :
    (initUartRxHandler stopByte c h).targetLength ≤ recvBufferSize := by
  unfold initUartRxHandler
  cases c.packetizerMode with
  | escapedPackets => exact Nat.div_le_self _ _
  | raw mode =>
    cases mode with
    | singleByte => exact (by decide : 1 ≤ recvBufferSize)
    | customEscapeByte byte => exact Nat.div_le_self _ _

end Overrun

/-! ## How late the task may be -/

section Budget

variable {full : FullFifo} {stopByte : UInt8} {c : Mode} {h : RxHandler} {k : ℕ}

/-- The bytes received since the wake-up, after one more step. -/
def lateness (s : State) (n : ℕ) : Label → ℕ
  | .poll => if s.pc = .readRxFifo then 0 else n
  | .rxInterrupt _ => if woken s then n + 1 else n

/-- The receiver with a count of the bytes received since the wake-up. -/
def timed (full : FullFifo) (stopByte : UInt8) (c : Mode) (h : RxHandler) :
    System (State × ℕ) Label where
  init := ((system full stopByte c h).init, 0)
  next x l := ((system full stopByte c h).next x.1 l).map fun s' => (s', lateness x.1 x.2 l)

/-- No more than `k` bytes are received between a wake-up and the drain that answers it. -/
def prompt (k : ℕ) (x : State × ℕ) : Label → Prop
  | .poll => True
  | .rxInterrupt _ => woken x.1 → x.2 < k

/-- Nothing has been dropped: what was received was handed over or is on its way. -/
def complete (s : State) : Prop := handedBytes s ++ toHand s ++ s.rxFifo = s.received

/-- The invariant of the counted runs. -/
structure InTime (c : Mode) (h : RxHandler) (x : State × ℕ) : Prop where
  rx : RxInv c h x.1
  late : woken x.1 → x.1.rxFifo.length ≤ h.targetLength + x.2

/-- **A prompt task leaves room.** -/
theorem InTime.fits {x : State × ℕ} {l : Label} (hi : InTime c h x)
    (htarget : h.targetLength ≤ recvBufferSize) (hk : k ≤ recvBufferSize - h.targetLength)
    (hok : prompt k x l) : Rx.fits x.1 l := by
  cases l with
  | poll => trivial
  | rxInterrupt b =>
    rw [Rx.fits]
    by_cases hw : woken x.1
    · have hlate := hi.late hw
      have hcount : x.2 < k := hok hw
      omega
    · rw [woken, not_or] at hw
      have hquiet := hi.rx.quiet (Bool.not_eq_true _ ▸ hw.1) hw.2
      rw [due, not_or] at hquiet
      omega

/-- **A step that finds room keeps the invariant.** -/
theorem InTime.step {x : State × ℕ} {l : Label} {s' : State} (hw : h.Wakes) (hi : InTime c h x)
    (hfits : Rx.fits x.1 l) (hs : RxStep c full h x.1 l s') :
    InTime c h (s', lateness x.1 x.2 l) := by
  refine ⟨hi.rx.step hw hfits hs, ?_⟩
  have hlate := hi.late
  cases hs with
  | start hpc | receivePacket hpc | loopEnd hpc | decodePacket hpc =>
    intro hwoken
    have hevent : x.1.event = true := by simpa [woken] using hwoken
    simpa [lateness, hpc] using hlate (.inl hevent)
  | uartRead hpc => exact fun _ => Nat.zero_le _
  | eventReceive hpc hevent =>
    intro _
    simpa [lateness, hpc] using hlate (.inl hevent)
  | readRxFifo hpc =>
    intro _
    have hdrop : x.1.rxFifo.drop recvBufferSize = [] := List.drop_eq_nil_of_le hi.rx.fits
    simp [hdrop]
  | @rxInterrupt b hreading =>
    intro _
    have hlen : (Rx.rxInterrupt full h x.1 b).rxFifo.length = x.1.rxFifo.length + 1 := by
      rw [Rx.fits] at hfits
      simp [Rx.rxInterrupt, hfits]
    simp only [hlen, lateness]
    by_cases hwoken : woken x.1
    · have := hlate hwoken
      rw [if_pos hwoken]
      omega
    · rw [if_neg hwoken]
      rw [woken, not_or] at hwoken
      have hquiet := hi.rx.quiet (Bool.not_eq_true _ ▸ hwoken.1) hwoken.2
      rw [due, not_or] at hquiet
      omega

/-- The invariant holds in the runs in which the task is prompt. -/
theorem inTime (hk : k ≤ recvBufferSize - (initUartRxHandler stopByte c h).targetLength)
    {x : State × ℕ} (hx : (timed full stopByte c h).ReachableWhen (prompt k) x) :
    InTime c (initUartRxHandler stopByte c h) x := by
  have hw := wakes_initUartRxHandler stopByte c h
  refine System.ReachableWhen.invariant ?_ ?_ hx
  · have hasleep : ¬ woken (system full stopByte c h).init := by simp [system, initial, woken]
    exact ⟨rxInv (s := (system full stopByte c h).init) .init, fun hwoken => absurd hwoken hasleep⟩
  · rintro x l y - hi hok hy
    obtain ⟨s', hs', rfl⟩ := Option.map_eq_some_iff.mp hy
    exact hi.step hw (hi.fits (targetLength_le stopByte c h) hk hok) (rxStep_of_next hs')

/-- A counted run is a run. -/
theorem reachable_of_timed {x : State × ℕ}
    (hx : (timed full stopByte c h).ReachableWhen (prompt k) x) :
    (system full stopByte c h).Reachable x.1 := by
  refine System.ReachableWhen.invariant (P := fun x => (system full stopByte c h).Reachable x.1)
    .init ?_ hx
  rintro x l y - hreach - hy
  obtain ⟨s', hs', rfl⟩ := Option.map_eq_some_iff.mp hy
  exact hreach.step hs'

/-- A task that sleeps while `n` bytes have filled the FIFO: it has been woken once there were
enough of them. -/
structure Flooded (h : RxHandler) (n : ℕ) (s : State) : Prop where
  pc : s.pc = .eventReceive
  reading : s.reading = true
  handed : s.handed = []
  received : s.received.length = n
  rxFifo : s.rxFifo.length = n
  event : s.event = true ↔ h.targetLength ≤ n

variable (full stopByte c h k) in
/-- **A late task.** With a bound that is too large the task may stay asleep until the FIFO is
full. -/
theorem flood (hk : recvBufferSize - (initUartRxHandler stopByte c h).targetLength < k) {n : ℕ}
    (hn : n ≤ recvBufferSize) :
    ∃ s, (timed full stopByte c h).ReachableWhen (prompt k)
        (s, n - (initUartRxHandler stopByte c h).targetLength) ∧
      Flooded (initUartRxHandler stopByte c h) n s := by
  have hw := wakes_initUartRxHandler stopByte c h
  have htarget := targetLength_le stopByte c h
  have hpos := hw.targetLength_pos
  induction n with
  | zero =>
    let s : State := { initial with
      decoderStarted := !rawModeEnabled c, rxFifo := [], reading := true, pc := .eventReceive }
    refine ⟨s, ?_, rfl, rfl, rfl, rfl, rfl, ?_⟩
    · rw [Nat.zero_sub]
      exact ((System.ReachableWhen.init.step (l := .poll) trivial rfl).step (l := .poll) trivial
        rfl)
    · exact ⟨fun hevent => (by cases hevent), fun hle => (by omega)⟩
  | succ n ih =>
    obtain ⟨s, hs, hf⟩ := ih (by omega)
    let b : UInt8 := (initUartRxHandler stopByte c h).targetCharacter + 1
    have hb : (b == (initUartRxHandler stopByte c h).targetCharacter) = false := by
      simp [b]
    have hcount : lateness s (n - (initUartRxHandler stopByte c h).targetLength)
        (.rxInterrupt b) = n + 1 - (initUartRxHandler stopByte c h).targetLength := by
      simp only [lateness, woken, hf.pc, hf.event, reduceCtorEq, or_false]
      split
      case isTrue => omega
      case isFalse => omega
    refine ⟨rxInterrupt full (initUartRxHandler stopByte c h) s b, ?_, ?_⟩
    · rw [← hcount]
      refine hs.step (l := .rxInterrupt b) (fun _ => ?_) ?_
      · show n - (initUartRxHandler stopByte c h).targetLength < k
        omega
      · simp [timed, system, next, hf.reading]
    · have hfits : s.rxFifo.length < recvBufferSize := by
        rw [hf.rxFifo]
        omega
      have hlen := hf.rxFifo
      have hreceived := hf.received
      have hevent := hf.event
      constructor <;>
        simp only [rxInterrupt, hfits, if_true, hf.pc, hf.reading, hf.handed,
          List.length_append, List.length_singleton, hb, hw.lengthCallback, Bool.and_false,
          Bool.or_false, Bool.true_and, Bool.or_eq_true, beq_iff_eq, hevent]
      case received | rxFifo => omega
      case event => omega

variable (full stopByte c h k) in
/-- **One byte too many.** Then a further byte may find the FIFO full, and with the FIFO no
larger after it not every byte is there. -/
theorem flood_over (hk : recvBufferSize - (initUartRxHandler stopByte c h).targetLength < k) :
    ∃ x, (timed full stopByte c h).ReachableWhen (prompt k) x ∧ ¬ complete x.1 := by
  obtain ⟨s, hs, hf⟩ := flood full stopByte c h k hk (Nat.le_refl _)
  have hstep := next_of_full full stopByte c h hf.reading hf.rxFifo 0
  refine ⟨_, hs.step (l := .rxInterrupt 0) (fun _ => hk)
    (Option.map_eq_some_iff.mpr ⟨_, hstep, rfl⟩), fun hcomplete => ?_⟩
  have hlen := congrArg List.length hcomplete
  have hpush := full.length_push_le s.rxFifo 0
  simp only [handedBytes, toHand, hf.pc, hf.handed, List.flatMap_nil, List.nil_append,
    List.length_append, List.length_singleton, hf.received] at hlen
  rw [hf.rxFifo] at hpush
  omega

/-- **Overruns.** Where a full FIFO drops the byte, in every run the bytes handed over, those
drained and those in the FIFO are the accepted bytes, in order: the bytes received less those
that found the FIFO full. The FIFO is full only while the poll task has a wake-up to answer, and
the task is never blocked while what it is to be woken for is in the FIFO. -/
theorem rx_overrun (full : FullFifo) (hdrops : full.Drops) (stopByte : UInt8) (c : Mode)
    (h : RxHandler) (x : State × List UInt8)
    (hx : ((system full stopByte c h).recorded accepted).Reachable x) :
    handedBytes x.1 ++ toHand x.1 ++ x.1.rxFifo = x.2 ∧ x.2.Sublist x.1.received ∧
      (∀ d ∈ x.1.handed, d.suits c) ∧
      (x.1.rxFifo.length = recvBufferSize → woken x.1) ∧
      ¬ (blocked x.1 ∧ due (initUartRxHandler stopByte c h) x.1.rxFifo) := by
  obtain ⟨hinv, hsub⟩ := acceptedInv hdrops hx
  refine ⟨hinv.inOrder, hsub, hinv.calls, fun hfull => ?_, ?_⟩
  · by_contra hnot
    rw [woken, not_or] at hnot
    refine hinv.quiet (Bool.not_eq_true _ ▸ hnot.1) hnot.2 (.inr ?_)
    rw [hfull]
    exact targetLength_le stopByte c h
  · rintro ⟨⟨hpc, hevent⟩, hdue⟩
    exact hinv.quiet hevent (by simp [hpc]) hdue

/-- The FIFO has filled up while the task was late, and one byte found it full. -/
theorem rx_overrun_late :
    ∃ x, ((system silentDrop 0xFF ⟨.raw .singleByte, .blocking⟩ ⟨false, false, 0, 0⟩).recorded
        accepted).Reachable x ∧
      x.2.length = 256 ∧ x.2.Sublist x.1.received ∧ x.1.received.length = 257 ∧ woken x.1 := by
  have hdrops : silentDrop.Drops := fun _ _ => rfl
  obtain ⟨s, hs, hf⟩ := flood silentDrop 0xFF ⟨.raw .singleByte, .blocking⟩ ⟨false, false, 0, 0⟩
    256 (by decide) (Nat.le_refl _)
  have hstep := next_of_full silentDrop 0xFF ⟨.raw .singleByte, .blocking⟩
    ⟨false, false, 0, 0⟩ hf.reading hf.rxFifo 0
  obtain ⟨r, hr⟩ := System.Reachable.recorded accepted
    (System.Reachable.step (reachable_of_timed hs) (l := .rxInterrupt 0) hstep)
  obtain ⟨hbytes, hsub, -, hwoken, -⟩ := rx_overrun silentDrop hdrops _ _ _ _ hr
  have hlen := congrArg List.length hbytes
  simp only [handedBytes, toHand, hf.pc, hf.handed, List.flatMap_nil, List.nil_append] at hlen
  refine ⟨_, hr, hlen.symm.trans hf.rxFifo, hsub, ?_, hwoken hf.rxFifo⟩
  rw [List.length_append, hf.received]
  rfl

/-- **The latency budget.** Whatever a full FIFO does, every run in which no more than `k` bytes
are received between a wake-up and the drain that answers it keeps every byte, if and only if
`k` is at most the size of the FIFO less the number of bytes that wakes the task. -/
theorem rx_budget (full : FullFifo) (stopByte : UInt8) (c : Mode) (h : RxHandler) (k : ℕ) :
    (∀ x, (timed full stopByte c h).ReachableWhen (prompt k) x → complete x.1) ↔
      k ≤ recvBufferSize - (initUartRxHandler stopByte c h).targetLength := by
  constructor
  · intro hall
    by_contra hnot
    obtain ⟨x, hx, hlost⟩ := flood_over full stopByte c h k (Nat.lt_of_not_le hnot)
    exact hlost (hall x hx)
  · intro hk x hx
    exact (inTime hk hx).rx.inOrder

end Budget

end Samrh71Drivers.Serial.Rx
