import Samrh71Drivers.Spw.RxActivation
import Samrh71Drivers.Spw.RxDelivery

/-!
# One round of the receiver

Where the receiver deactivates no buffer that the poll task has not seen, the packets it has
stored are all handed over. A receiver that has nothing to do has a buffer ready for the next
packet and nothing left to hand over (`Idle.ready`). A poll task that has a packet is at most
a few steps away from the next `arm_rx_buffer`: the deactivation, the interrupt and its own
steps take it there without another packet (`Busy.returns`).

## Main definitions

* `Idle` — the poll task waits and the receiver has nothing to do.
* `Busy`, `toArm` — there may be something to hand over, and the steps up to the end of it.
* `handsOver` — a receiver that is given time hands over what it has stored.
-/

namespace Samrh71Drivers.Spw.Rx

open Transition Custodian

variable {removeProtId : Bool} {rxDataSize : ℕ} {s s' : State}

/-- The receiver stores a packet. -/
def isStore : Label → Bool
  | .store _ => true
  | _ => false

/-- Only the receiver stores a packet. -/
theorem stored_of_not_store {l : Label} (hl : isStore l = false)
    (hs : RxStep removeProtId rxDataSize s l s') : s'.stored = s.stored := by
  cases hs with
  | store => cases hl
  | _ => rfl

/-! ## A receiver with nothing to do -/

/-- The poll task waits, or looks again at a buffer that is not active, and the receiver has
nothing to do; a full buffer is deactivated. -/
structure Idle (removeProtId : Bool) (rxDataSize : ℕ) (s : State) : Prop where
  poll : next removeProtId rxDataSize s .poll = none ∨ s.pc = .spin ∧ s.active = false
  hardware : ∀ l ∈ [Label.activate, .interrupt, .release], next removeProtId rxDataSize s l = none
  full : s.received = spwPktrxBufferLength → next removeProtId rxDataSize s .deactivate = none

/-- The task waits for its buffer to come back, or has not seen it active. -/
private theorem Idle.waits (h : Idle removeProtId rxDataSize s) :
    s.pc = .wait ∧ s.rxSemaphore.available = false ∨ s.pc = .spin ∧ s.active = false := by
  rcases h.poll with hnone | hspin
  · simp only [next] at hnone
    cases hpc : s.pc with
    | wait =>
      refine .inl ⟨rfl, ?_⟩
      simpa [pollStep, hpc, Semaphore.obtain] using hnone
    | arm | setNext | spin | previous | test | getEntry | receivePacket =>
      simp [pollStep, hpc] at hnone
  · exact .inr hspin

/-- No deactivation of a buffer is under way. -/
private theorem Idle.no_interrupt (h : Idle removeProtId rxDataSize s) :
    s.inCallback = false ∧ s.deactivated = 0 := by
  have hcb : s.inCallback = false := by
    have hnone := h.hardware .release (by simp)
    by_contra hne
    simp [next, hne] at hnone
  refine ⟨hcb, ?_⟩
  have hnone := h.hardware .interrupt (by simp)
  by_contra hne
  simp [next, hcb, Nat.pos_of_ne_zero hne] at hnone

/-- A buffer that is queued is behind an active one. -/
private theorem Idle.active_of_queued (h : Idle removeProtId rxDataSize s)
    (hqueued : s.queued = true) : s.active = true := by
  have hnone := h.hardware .activate (by simp)
  by_contra hne
  simp [next, hqueued, hne] at hnone

/-- **The task waits for an active buffer**: the token is nowhere else, and a loop that has its
buffer in sight would leave it. -/
private theorem Idle.active {o : Holder Unit} (h : Idle removeProtId rxDataSize s)
    (hc : RxCustody s o) (hspin : SpinInv s) : s.pc = .wait ∧ s.active = true := by
  obtain ⟨hcb, hdeactivated⟩ := h.no_interrupt
  rcases h.waits with ⟨hpc, htoken⟩ | ⟨hpc, hinactive⟩
  · refine ⟨hpc, ?_⟩
    rcases hc.exclusive with ⟨havailable, -⟩ | ⟨-, ⟨_, hown, -⟩, -⟩ | ⟨-, -, hone⟩
    · rw [htoken] at havailable
      cases havailable
    · simp [hpc] at hown
    · cases hq : s.queued with
      | true => exact h.active_of_queued hq
      | false =>
        by_contra hne
        simp [owed, hq, hne, hdeactivated, hcb] at hone
  · exfalso
    have hactive : s.active = true := (hspin hpc).elim h.active_of_queued id
    rw [hinactive] at hactive
    cases hactive

/-- **An idle receiver is ready for a packet**, and everything it has stored has been handed
over. -/
theorem Idle.ready (hidle : Idle removeProtId rxDataSize s)
    (h : (rxSystem removeProtId rxDataSize).ReachableWhen deactivatesWhenSeen s) :
    writable s ∧ toDeliver s = [] := by
  have hinv := deliveryInv h.reachable
  obtain ⟨o, hc⟩ := rxCustody h.reachable
  obtain ⟨hpc, hactive⟩ := hidle.active hc (spinInv h)
  have hnotFull : s.received ≠ spwPktrxBufferLength := by
    intro hfull
    have hnone := hidle.full hfull
    simp [next, hactive] at hnone
  have hreceived := hinv.active hactive
  have hfits := hinv.fits
  have hone : spwPktrxBufferLength = 1 := rfl
  have hempty : s.inBuffer = [] := List.length_eq_zero_iff.mp (by omega)
  refine ⟨⟨hactive, by omega⟩, ?_⟩
  simp [toDeliver, Pc.done, hpc, hempty]

/-! ## A receiver with something to do -/

/-- The poll task is in `process_rx_packets`, or on its way there with a packet. -/
def Busy (s : State) : Prop :=
  match s.pc with
  | .arm | .setNext => False
  | .spin | .wait => s.inBuffer ≠ []
  | .previous | .test _ _ | .getEntry _ _ | .receivePacket _ _ _ _ => True

/-- What the receiver and the interrupt still have to do to the buffer. -/
def toRelease (s : State) : ℕ := 3 * s.active.toNat + 2 * s.deactivated + s.inCallback.toNat

/-- A bound on the steps up to the next `arm_rx_buffer`, once the buffer is active. -/
def toArm (s : State) : ℕ :=
  match s.pc with
  | .arm | .setNext => 0
  | .spin => toRelease s + 7
  | .wait => toRelease s + 6
  | .previous => 5
  | .test i n => 3 * (n - i) + 1
  | .getEntry i n => 3 * (n - i)
  | .receivePacket i n _ _ => 3 * (n - i) - 1

/-- A task that is not busy has nothing to hand over. -/
theorem toDeliver_of_not_busy (h : ¬ Busy s) : toDeliver s = [] := by
  cases hpc : s.pc with
  | arm | setNext => simp [toDeliver, Pc.done, hpc]
  | spin | wait =>
    have hempty : s.inBuffer = [] := by simpa [Busy, hpc] using h
    simp [toDeliver, Pc.done, hpc, hempty]
  | previous | test | getEntry | receivePacket => simp [Busy, hpc] at h

/-- One step of the poll task or the receiver, without another packet, that brings a busy task
nearer to `arm_rx_buffer`. -/
def Nearer (removeProtId : Bool) (rxDataSize : ℕ) (s : State) : Prop :=
  ∃ l t, isStore l = false ∧ deactivatesWhenSeen s l ∧ next removeProtId rxDataSize s l = some t ∧
    (Busy t ∨ t.pc = .arm) ∧ toArm t < toArm s

/-- A step of the poll task brings it nearer. -/
private theorem nearer_of_poll {t : State} (hs : next removeProtId rxDataSize s .poll = some t)
    (ht : Busy t ∨ t.pc = .arm) (hlt : toArm t < toArm s) : Nearer removeProtId rxDataSize s :=
  ⟨.poll, t, rfl, trivial, hs, ht, hlt⟩

/-- **A task that waits for its packet gets nearer**: it obtains the token, or the buffer is
deactivated, or the interrupt goes on. -/
private theorem nearer_of_wait {o : Holder Unit} (hc : RxCustody s o)
    (hinv : DeliveryInv removeProtId s) (hpc : s.pc = .wait) (hne : s.inBuffer ≠ []) :
    Nearer removeProtId rxDataSize s := by
  have hqueued : s.queued = false := by
    by_contra hq
    exact hne (hinv.queued (Bool.not_eq_false _ ▸ hq))
  cases ha : s.active with
  | true =>
    refine ⟨.deactivate, _, rfl, ?_, if_pos ha, .inl ?_, ?_⟩
    · simp [deactivatesWhenSeen, hpc]
    · simpa [Busy, hpc] using hne
    · simp only [toArm, toRelease, hpc, ha, Bool.toNat_true, Bool.toNat_false]
      omega
  | false =>
    cases hcb : s.inCallback with
    | true =>
      refine ⟨.release, _, rfl, trivial, if_pos hcb, .inl ?_, ?_⟩
      · simpa [Busy, hpc] using hne
      · simp only [toArm, toRelease, hpc, hcb, Bool.toNat_true, Bool.toNat_false]
        omega
    | false =>
      by_cases hd : 0 < s.deactivated
      · refine ⟨.interrupt, _, rfl, trivial, if_pos ⟨hd, hcb⟩, .inl ?_, ?_⟩
        · simpa [Busy, hpc] using hne
        · simp only [toArm, toRelease, hpc, hcb, Bool.toNat_true, Bool.toNat_false]
          omega
      · -- the buffer is nowhere else, so the token is there
        have hnone : owed s = 0 := by
          simp only [owed, hqueued, ha, hcb, Bool.toNat_false]
          omega
        have htoken : s.rxSemaphore.available = true := by
          rcases hc.exclusive with ⟨htoken, -⟩ | ⟨-, ⟨_, hown, -⟩, -⟩ | ⟨-, -, hone⟩
          · exact htoken
          · simp [hpc] at hown
          · omega
        have hpoll : next removeProtId rxDataSize s .poll =
            some { s with rxSemaphore := ⟨false⟩, pc := .previous } := by
          simp [next, pollStep, hpc, Semaphore.obtain, htoken]
        refine nearer_of_poll hpoll (.inl trivial) ?_
        simp only [toArm, hpc]
        omega

/-- **A task in `process_rx_packets` gets nearer** to its end. -/
private theorem nearer_of_process {o : Holder Unit} (hc : RxCustody s o)
    (hinv : DeliveryInv removeProtId s) (hb : Busy s) (hown : s.pc.owns) :
    Nearer removeProtId rxDataSize s := by
  have hidle := idle_of_owns hc hown
  have hat := hinv.deliveryAt
  have hone : s.inBuffer.length ≤ 1 := hinv.fits
  cases hpc : s.pc with
  | arm | setNext => simp [Busy, hpc] at hb
  | spin | wait => simp [hpc] at hown
  | previous =>
    rw [hpc] at hat
    have hcount : s.previousReceived = s.inBuffer.length := hat hidle.1 hidle.2.1
    have hpoll : next removeProtId rxDataSize s .poll =
        some { s with pc := .test 0 s.previousReceived } := by
      simp [next, pollStep, hpc]
    refine nearer_of_poll hpoll (.inl trivial) ?_
    simp only [toArm, hpc]
    omega
  | test i n =>
    by_cases hlt : i < n
    · have hpoll : next removeProtId rxDataSize s .poll = some { s with pc := .getEntry i n } := by
        simp [next, pollStep, hpc, hlt]
      refine nearer_of_poll hpoll (.inl trivial) ?_
      simp only [toArm, hpc]
      omega
    · have hpoll : next removeProtId rxDataSize s .poll = some { s with pc := .arm } := by
        simp [next, pollStep, hpc, hlt]
      refine nearer_of_poll hpoll (.inr rfl) ?_
      simp only [toArm, hpc]
      omega
  | getEntry i n =>
    rw [hpc] at hat
    have hlt : i < n := hat.1
    have hi : succ16 i = i + 1 := Nat.mod_eq_of_lt (by have := hat.2; omega)
    cases hprocess : process removeProtId (s.rxInfo i) with
    | none =>
      have hpoll : next removeProtId rxDataSize s .poll =
          some { s with pc := .test (succ16 i) n } := by
        simp [next, pollStep, hpc, hprocess]
      refine nearer_of_poll hpoll (.inl trivial) ?_
      simp only [toArm, hpc, hi]
      omega
    | some range =>
      have hpoll : next removeProtId rxDataSize s .poll =
          some { s with pc := .receivePacket i n range.1 range.2 } := by
        simp [next, pollStep, hpc, hprocess]
      refine nearer_of_poll hpoll (.inl trivial) ?_
      simp only [toArm, hpc]
      omega
  | receivePacket i n data length =>
    rw [hpc] at hat
    have hlt : i < n := hat.1
    have hi : succ16 i = i + 1 := Nat.mod_eq_of_lt (by have := hat.2.1; omega)
    have hpoll : next removeProtId rxDataSize s .poll = some { s with
        delivered := s.delivered ++ [s.rxData.bytes () data length]
        pc := .test (succ16 i) n } := by
      simp [next, pollStep, hpc]
    refine nearer_of_poll hpoll (.inl trivial) ?_
    simp only [toArm, hpc, hi]
    omega

/-- **One step brings a busy task nearer** to `arm_rx_buffer`. -/
theorem Busy.nearer (h : (rxSystem removeProtId rxDataSize).ReachableWhen deactivatesWhenSeen s)
    (hb : Busy s) : Nearer removeProtId rxDataSize s := by
  obtain ⟨o, hc⟩ := rxCustody h.reachable
  have hinv := deliveryInv h.reachable
  cases hpc : s.pc with
  | spin =>
    -- the buffer has a packet, so it is not queued and the loop has it in sight
    have hne : s.inBuffer ≠ [] := by simpa [Busy, hpc] using hb
    have ha : s.active = true := by
      rcases spinInv h hpc with hq | ha
      · exact absurd (hinv.queued hq) hne
      · exact ha
    have hpoll : next removeProtId rxDataSize s .poll = some { s with pc := .wait } := by
      simp [next, pollStep, hpc, ha]
    refine nearer_of_poll hpoll (.inl hne) ?_
    simp only [toArm, toRelease, hpc]
    omega
  | wait => exact nearer_of_wait hc hinv hpc (by simpa [Busy, hpc] using hb)
  | arm | setNext => simp [Busy, hpc] at hb
  | previous | test | getEntry | receivePacket =>
    exact nearer_of_process hc hinv hb (by simp [hpc])

/-- **A busy task returns** to `arm_rx_buffer`, with no other packet stored. -/
theorem Busy.returns (hb : Busy s)
    (h : (rxSystem removeProtId rxDataSize).ReachableWhen deactivatesWhenSeen s) :
    ∃ ls t, (∀ l ∈ ls, isStore l = false) ∧
      (rxSystem removeProtId rxDataSize).exec s ls = some t ∧ t.pc = .arm := by
  induction hk : toArm s using Nat.strong_induction_on generalizing s with
  | h k ih =>
    obtain ⟨l, t, hl, hok, hs, ht, hlt⟩ := hb.nearer h
    have hstep : (rxSystem removeProtId rxDataSize).next s l = some t := hs
    rcases ht with hbusy | harm
    · obtain ⟨ls, u, hls, hu, harm⟩ := ih (toArm t) (hk ▸ hlt) hbusy (h.step hok hstep) rfl
      refine ⟨l :: ls, u, List.forall_mem_cons.mpr ⟨hl, hls⟩, ?_, harm⟩
      rw [System.exec_cons, hstep]
      exact hu
    · refine ⟨[l], t, List.forall_mem_singleton.mpr hl, ?_, harm⟩
      rw [System.exec_cons, hstep]
      rfl

/-- **What is stored is handed over.** Without another packet the receiver and the poll task
get to where nothing is left to hand over; from `process_rx_packets` the task returns. -/
theorem handsOver (h : (rxSystem removeProtId rxDataSize).ReachableWhen deactivatesWhenSeen s) :
    ∃ ls t, (∀ l ∈ ls, isStore l = false) ∧
      (rxSystem removeProtId rxDataSize).exec s ls = some t ∧ toDeliver t = [] ∧
      (s.pc = .previous → t.pc = .arm) := by
  by_cases hb : Busy s
  · obtain ⟨ls, t, hls, ht, harm⟩ := hb.returns h
    exact ⟨ls, t, hls, ht, by simp [toDeliver, Pc.done, harm], fun _ => harm⟩
  · refine ⟨[], s, by simp, rfl, toDeliver_of_not_busy hb, fun hpc => absurd ?_ hb⟩
    simp [Busy, hpc]

end Samrh71Drivers.Spw.Rx
