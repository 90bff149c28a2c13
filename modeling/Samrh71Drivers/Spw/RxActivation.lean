import Samrh71Drivers.Spw.Rx

/-!
# Waiting for the RX buffer to become active

The loop in `arm_rx_buffer` ends only when a status shows the buffer active. The receiver
may activate the buffer, fill it with a packet that is already there, and deactivate it
between two readings. `rx_deactivated` is set by the interrupt and not looked at, so the
task stays in the loop for good: nothing queues another buffer (`Missed.forever`).

This does not happen where the receiver deactivates full buffers only and no packet is stored
before a status has shown the buffer active (`storesWhenSeen`): a buffer that the loop has not
seen is then still empty, and stays (`SpinEmpty`). A packet that comes before is missed by a
receiver that deactivates the full buffer at once (`Missed.of_store`).

## Main definitions

* `Missed` — the loop waits for a buffer that has come and gone.
* `storesWhenSeen` — the condition on the packets and the receiver.
* `deactivatesWhenSeen` — what it comes to for a deactivation.
* `not_missed_when_seen` — the loop under that condition.
-/

namespace Samrh71Drivers.Spw.Rx

open Transition Custodian

/-- The task is in the loop of `arm_rx_buffer` and the buffer it has armed is neither
queued nor active any more. -/
def Missed (s : State) : Prop := s.pc = .spin ∧ s.queued = false ∧ s.active = false

/-- The condition on the receiver: it deactivates only a buffer that is full, and it stores a
packet only when the task has left the loop. -/
def storesWhenSeen (s : State) : Label → Prop
  | .store _ => s.pc ≠ .spin
  | .deactivate => spwPktrxBufferLength ≤ s.received
  | _ => True

instance (s : State) : (l : Label) → Decidable (storesWhenSeen s l)
  | .store _ => inferInstanceAs (Decidable (s.pc ≠ .spin))
  | .deactivate => inferInstanceAs (Decidable (spwPktrxBufferLength ≤ s.received))
  | .poll | .activate | .writeData _ _ | .writeInfo _ _ | .interrupt | .release => isTrue trivial

/-- The receiver deactivates a buffer only when the task has left the loop. -/
def deactivatesWhenSeen (s : State) : Label → Prop
  | .deactivate => s.pc ≠ .spin
  | _ => True

instance (s : State) (l : Label) : Decidable (deactivatesWhenSeen s l) := by
  unfold deactivatesWhenSeen
  split <;> infer_instance

variable {removeProtId : Bool} {rxDataSize : ℕ} {s s' : State}

/-! ## The buffer in the loop -/

/-- A buffer that the loop has not seen active is empty. -/
def SpinEmpty (s : State) : Prop := s.pc = .spin → s.active = true → s.received = 0

/-- **One step keeps an unseen buffer empty**, unless it stores a packet there. -/
theorem SpinEmpty.step {l : Label} {o : Holder Unit} (hc : RxCustody s o) (h : SpinEmpty s)
    (hok : storesWhenSeen s l) (hs : RxStep removeProtId rxDataSize s l s') : SpinEmpty s' := by
  intro hpc ha
  cases hs with
  | setNext hpc' =>
    -- the buffer that is queued now is not active yet
    have hidle := idle_of_owns hc (by simp [hpc'])
    simp [hidle.2.1] at ha
  | activate => rfl
  | store => exact absurd hpc hok
  | deactivate => cases ha
  | spin | writeData | writeInfo | interrupt | release => exact h hpc ha
  | arm | spinActive | wait | previous | next | finish | drop | keep | receivePacket => cases hpc

/-- **A full buffer has been seen.** The receiver deactivates no buffer that the loop waits
for. -/
theorem SpinEmpty.deactivatesWhenSeen {l : Label} (h : SpinEmpty s) (hok : storesWhenSeen s l)
    (hs : RxStep removeProtId rxDataSize s l s') : deactivatesWhenSeen s l := by
  cases hs with
  | deactivate ha =>
    intro hpc
    have hzero := h hpc ha
    have hfull : 1 ≤ s.received := hok
    omega
  | arm | setNext | spinActive | spin | wait | previous | next | finish | drop | keep
  | receivePacket | activate | writeData | writeInfo | store | interrupt | release => trivial

/-- A run that meets the condition on the receiver meets the one on deactivations. -/
theorem reachableWhen_deactivatesWhenSeen
    (h : (rxSystem removeProtId rxDataSize).ReachableWhen storesWhenSeen s) :
    (rxSystem removeProtId rxDataSize).ReachableWhen deactivatesWhenSeen s := by
  refine (System.ReachableWhen.invariant (P := fun s => SpinEmpty s ∧
    (rxSystem removeProtId rxDataSize).ReachableWhen deactivatesWhenSeen s) ?_ ?_ h).2
  · exact ⟨fun hpc => (by cases hpc), .init⟩
  · rintro s l s' hr ⟨hempty, hseen⟩ hok hs
    obtain ⟨o, hc⟩ := rxCustody hr.reachable
    have hstep : RxStep removeProtId rxDataSize s l s' := rxStep_of_next hs
    exact ⟨hempty.step hc hok hstep, hseen.step (hempty.deactivatesWhenSeen hok hstep) hs⟩

/-- In the loop the armed buffer is queued or active. -/
def SpinInv (s : State) : Prop := s.pc = .spin → s.queued = true ∨ s.active = true

/-- **One step keeps the armed buffer in sight**, unless it deactivates it unseen. -/
theorem SpinInv.step {l : Label} (h : SpinInv s) (hok : deactivatesWhenSeen s l)
    (hs : RxStep removeProtId rxDataSize s l s') : SpinInv s' := by
  intro hpc
  cases hs with
  | setNext => exact .inl rfl
  | activate => exact .inr rfl
  | deactivate => exact absurd hpc hok
  | spin | writeData | writeInfo | store | interrupt | release => exact h hpc
  | arm | spinActive | wait | previous | next | finish | drop | keep | receivePacket => cases hpc

/-- In the loop the armed buffer is in sight, in every run that deactivates no unseen
buffer. -/
theorem spinInv (h : (rxSystem removeProtId rxDataSize).ReachableWhen deactivatesWhenSeen s) :
    SpinInv s := by
  refine System.ReachableWhen.invariant (P := SpinInv) ?_ ?_ h
  · intro hpc
    cases hpc
  · intro s l s' _ hi hok hs
    exact hi.step hok (rxStep_of_next hs)

/-- A loop that has its buffer in sight has not missed it. -/
theorem SpinInv.not_missed (h : SpinInv s) : ¬ Missed s := by
  rintro ⟨hpc, hq, ha⟩
  rcases h hpc with hq' | ha'
  · simp [hq] at hq'
  · simp [ha] at ha'

/-! ## A missed buffer -/

/-- **A missed activation is a dead end.** No step leaves the loop or queues a buffer. -/
theorem Missed.forever (hm : Missed s) (h : (rxSystem removeProtId rxDataSize).Leads s s') :
    Missed s' := by
  refine System.Leads.invariant (P := Missed) ?_ h hm
  rintro s l s' ⟨hpc, hq, ha⟩ hs
  have hstep : RxStep removeProtId rxDataSize s l s' := rxStep_of_next hs
  cases hstep with
  | spin | interrupt | release => exact ⟨hpc, hq, ha⟩
  | spinActive _ ha' | deactivate ha' => simp [ha] at ha'
  | activate hq' => simp [hq] at hq'
  | writeData hw | writeInfo hw | store hw => simp [writable, ha] at hw
  | arm hpc' | setNext hpc' | wait hpc' | previous hpc' | next hpc' | finish hpc' | drop hpc'
  | keep hpc' | receivePacket hpc' => simp [hpc] at hpc'

/-- **A packet that comes too early is missed.** Where a packet is stored while the task is in
the loop, the buffer is full, and the loop misses it if it is deactivated at once. -/
theorem Missed.of_store {p : StoredPacket} (hr : (rxSystem removeProtId rxDataSize).Reachable s)
    (hpc : s.pc = .spin) (hs : next removeProtId rxDataSize s (.store p) = some s') :
    spwPktrxBufferLength ≤ s'.received ∧
      ∃ t, next removeProtId rxDataSize s' .deactivate = some t ∧ Missed t := by
  obtain ⟨o, hc⟩ := rxCustody hr
  have hstep : RxStep removeProtId rxDataSize s (.store p) s' := rxStep_of_next hs
  cases hstep with
  | store hw _ =>
    have hqueued := not_queued_of_active hc hw.1
    exact ⟨Nat.le_add_left _ _, _, if_pos hw.1, hpc, hqueued, rfl⟩

/-- **Waiting for the buffer.** When the receiver deactivates full buffers only and stores no
packet before the loop has seen the buffer active, no state has missed the activation; a state
that has stays so; and it is missed by a receiver that stores a packet before and deactivates
the full buffer at once. -/
theorem not_missed_when_seen
    (h : (rxSystem removeProtId rxDataSize).ReachableWhen storesWhenSeen s) :
    ¬ Missed s ∧
      (∀ t t', Missed t → (rxSystem removeProtId rxDataSize).Leads t t' → Missed t') ∧
      ∀ p s', s.pc = .spin → next removeProtId rxDataSize s (.store p) = some s' →
        spwPktrxBufferLength ≤ s'.received ∧
          ∃ t, next removeProtId rxDataSize s' .deactivate = some t ∧ Missed t := by
  refine ⟨?_, ?_, ?_⟩
  · exact (spinInv (reachableWhen_deactivatesWhenSeen h)).not_missed
  · intro t t' hm hleads
    exact hm.forever hleads
  · intro p s' hpc hs
    exact Missed.of_store h.reachable hpc hs

/-! ## A packet that is already there -/

/-- A well-formed packet of two bytes. -/
def shortPacket : StoredPacket := ⟨true, false, [7, 8]⟩

/-- The loop sees the buffer before the packet is stored. -/
theorem shortPacket_seen : ∃ s, (rxSystem false 16).ReachableWhen storesWhenSeen s ∧
    s.pc = .previous ∧ s.inBuffer = [shortPacket] ∧ ¬ Missed s := by
  have h := (rxSystem false 16).reachableWhen_get storesWhenSeen [.poll, .poll, .activate,
    .poll, .store shortPacket, .deactivate, .interrupt, .release, .poll] (by decide)
  exact ⟨_, h, rfl, rfl, (not_missed_when_seen h).1⟩

/-- The packet is stored and the buffer deactivated before the first status. -/
theorem shortPacket_missed : ¬ ∀ s, (rxSystem false 16).Reachable s →
    ¬ (Missed s ∧ s.inBuffer ≠ []) := by
  intro h
  have hreach := (rxSystem false 16).reachable_get
    [.poll, .poll, .activate, .store shortPacket, .deactivate] (by decide)
  refine h _ hreach ⟨⟨rfl, rfl, rfl⟩, ?_⟩
  decide

end Samrh71Drivers.Spw.Rx
