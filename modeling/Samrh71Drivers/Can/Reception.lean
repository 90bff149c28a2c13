import Samrh71Drivers.Can.System

/-!
# Reception in the CAN driver

A frame that enters RX FIFO 0 raises a flag, the interrupt handler turns the flag into the
token of `m_rx_semaphore`, and the poll task takes the token and drains the FIFO. The flag
and the token forget how many frames there were. What keeps the poll task from sleeping on
a full FIFO is that it reads the fill level once more after the last frame: an arrival
before that reading is seen by it, and an arrival after it raises a flag that nobody has
consumed yet (`RxInv.wake`).

## Main definitions

* `inHand` — the frame that is pulled and not yet handed over.
* `newFramePending` — a new-frame interrupt the handler has not turned into a token.
* `RxInv` — the invariant.
* `reception` — no frame is lost, reordered or duplicated, and no wakeup is lost.
-/

namespace Samrh71Drivers.Can

open Transition

universe u

/-- The frame that is pulled and not yet handed over. -/
def inHand : PollPc → List RxElement
  | .deliver el => [el]
  | _ => []

/-- The flag the handler has read and not yet turned into a token. -/
def Handler.rf0n : Handler → Bool
  | .testRf0n rf0n _ => rf0n
  | _ => false

/-- A new-frame interrupt is pending: its flag is set, or the handler has read the flag
and is still to release the semaphore. -/
def newFramePending {E : Type u} (s : State E) : Prop :=
  s.rx.rf0n = true ∨ s.handler.rf0n = true

/-- The poll task will read the fill level before it waits again. -/
def PollPc.reads : PollPc → Prop
  | .status | .pull | .deliver _ | .drain => True
  | .test count => 0 < count
  | _ => False

/-- What holds between the poll task and the FIFO where the poll task is. -/
def PollPc.fits (fifo : List RxElement) : PollPc → Prop
  | .test count => count ≤ fifo.length
  | .pull => fifo ≠ []
  | .stopped => False
  | _ => True

/-- The invariant of reception; `pending` is a flag the handler has read. -/
structure RxInv (d : PrivateData) (r : Rx) (pending : Bool) : Prop where
  accepted : r.pulled ++ r.fifo = r.accepted
  handed : ∃ done, r.pulled = done ++ inHand r.poll ∧ r.handed = done.map (handOver d)
  fits : r.poll.fits r.fifo
  /-- A frame in the FIFO is on somebody's way. -/
  wake : r.fifo ≠ [] →
    r.poll.reads ∨ r.semaphore.available = true ∨ r.rf0n = true ∨ pending = true

section Invariant

variable {E : Type u} {X : Escaper E} {self : PrivateData} {asserts : Bool}
  {behind : ℕ → ℕ → UInt8} {n : ℕ} {s s' : State E} {r r' : Rx} {pending : Bool}

/-- **One step of the poll task keeps the invariant.** -/
theorem RxInv.pollStep (hi : RxInv self r pending) (hs : pollStep self r = some r') :
    RxInv self r' pending := by
  have hacc := hi.accepted
  obtain ⟨done, hpulled, hhanded⟩ := hi.handed
  have hfits := hi.fits
  cases hpc : r.poll with
  | start =>
    simp only [Can.pollStep, hpc, Option.some.injEq] at hs
    subst hs
    refine ⟨hacc, ⟨done, by simpa [hpc, inHand] using hpulled, hhanded⟩, trivial, fun hne => ?_⟩
    rcases hi.wake hne with hr | hrest
    · simp [hpc, PollPc.reads] at hr
    · exact .inr hrest
  | obtain =>
    simp only [Can.pollStep, hpc, Option.map_eq_some_iff, Semaphore.obtain_eq_some_iff] at hs
    rcases hs with ⟨sem, ⟨-, rfl⟩, rfl⟩
    exact ⟨hacc, ⟨done, by simpa [hpc, inHand] using hpulled, hhanded⟩, trivial,
      fun _ => .inl trivial⟩
  | status | drain =>
    simp only [Can.pollStep, hpc, Option.some.injEq] at hs
    subst hs
    refine ⟨hacc, ⟨done, by simpa [hpc, inHand] using hpulled, hhanded⟩, Nat.le_refl _,
      fun hne => .inl ?_⟩
    exact List.length_pos_iff.mpr hne
  | test count =>
    simp only [Can.pollStep, hpc, Option.some.injEq] at hs
    subst hs
    rw [hpc] at hfits
    by_cases hcount : 0 < count
    · have hne : r.fifo ≠ [] := List.length_pos_iff.mp (Nat.lt_of_lt_of_le hcount hfits)
      simp only [hcount, if_true]
      exact ⟨hacc, ⟨done, by simpa [hpc, inHand] using hpulled, hhanded⟩, hne,
        fun _ => .inl trivial⟩
    · -- the FIFO was empty when it was read, so a frame in it now has raised its flag
      simp only [hcount, if_false]
      refine ⟨hacc, ⟨done, by simpa [hpc, inHand] using hpulled, hhanded⟩, trivial, fun hne => ?_⟩
      rcases hi.wake hne with hr | hrest
      · rw [hpc] at hr
        exact absurd hr hcount
      · exact .inr hrest
  | pull =>
    cases hfifo : r.fifo with
    | nil =>
      rw [hpc] at hfits
      exact absurd hfifo hfits
    | cons el fifo =>
      simp only [Can.pollStep, hpc, hfifo, Option.some.injEq] at hs
      subst hs
      refine ⟨?_, ⟨done, ?_, hhanded⟩, trivial, fun _ => .inl trivial⟩
      · rw [← hacc, hfifo]
        simp
      · simpa [hpc, inHand] using hpulled
  | deliver el =>
    simp only [Can.pollStep, hpc, Option.some.injEq] at hs
    subst hs
    refine ⟨hacc, ⟨done ++ [el], ?_, ?_⟩, trivial, fun _ => .inl trivial⟩
    · simpa [hpc, inHand] using hpulled
    · simp [hhanded]
  | stopped => simp [Can.pollStep, hpc] at hs

/-- An arrival raises the flag of the frame it adds. -/
theorem RxInv.arrive (hi : RxInv self r pending) (el : RxElement) :
    RxInv self (arrive n r el) pending := by
  by_cases hroom : r.fifo.length < n
  · simp only [Can.arrive, hroom, if_true]
    refine ⟨?_, hi.handed, ?_, fun _ => .inr (.inr (.inl rfl))⟩
    · rw [← List.append_assoc, hi.accepted]
    · have hfits := hi.fits
      cases hpc : r.poll with
      | test count =>
        rw [hpc] at hfits
        simp only [PollPc.fits, List.length_append] at hfits ⊢
        omega
      | pull => simp [PollPc.fits]
      | stopped => simp [hpc, PollPc.fits] at hfits
      | _ => trivial
  · simpa only [Can.arrive, hroom, if_false] using hi

/-- The handler keeps a wakeup on its way: from the flag, through its own status, to the
semaphore. -/
theorem RxInv.interruptStep (hi : RxInv self s.rx s.handler.rf0n)
    (hs : interruptStep s = some s') : RxInv self s'.rx s'.handler.rf0n := by
  cases hh : s.handler with
  | idle =>
    by_cases hflag : s.rx.rf0n = true ∨ s.tx.tc.isSome = true
    · simp only [Can.interruptStep, hh, hflag, if_true, Option.some.injEq] at hs
      subst hs
      refine ⟨hi.accepted, hi.handed, hi.fits, fun hne => ?_⟩
      rcases hi.wake hne with hr | hsem | hrf0n | hpend
      · exact .inl hr
      · exact .inr (.inl hsem)
      · exact .inr (.inr (.inr hrf0n))
      · simp [hh, Handler.rf0n] at hpend
    · simp [Can.interruptStep, hh, hflag] at hs
  | testRf0n rf0n tc =>
    cases rf0n with
    | true =>
      simp only [Can.interruptStep, hh, if_true, Option.some.injEq] at hs
      subst hs
      exact ⟨hi.accepted, hi.handed, hi.fits, fun _ => .inr (.inl rfl)⟩
    | false =>
      simp only [Can.interruptStep, hh, Bool.false_eq_true, if_false, Option.some.injEq] at hs
      subst hs
      rw [hh] at hi
      exact ⟨hi.accepted, hi.handed, hi.fits, hi.wake⟩
  | testTc tc =>
    rw [hh] at hi
    cases tc with
    | none =>
      simp only [Can.interruptStep, hh, Option.some.injEq] at hs
      subst hs
      exact ⟨hi.accepted, hi.handed, hi.fits, hi.wake⟩
    | some frame =>
      simp only [Can.interruptStep, hh, Option.some.injEq] at hs
      subst hs
      exact ⟨hi.accepted, hi.handed, hi.fits, hi.wake⟩

/-- The invariant of reception holds in every reachable state. -/
theorem rxInv {e : E} {todo : List (List UInt8)}
    (h : (system asserts X self behind n e todo).Reachable s) : RxInv self s.rx s.handler.rf0n := by
  refine System.Reachable.invariant (P := fun s => RxInv self s.rx s.handler.rf0n) ?_ ?_ h
  · exact ⟨rfl, ⟨[], rfl, rfl⟩, trivial, fun hne => absurd rfl hne⟩
  · intro s l s' hi hs
    cases l with
    | poll =>
      rcases Option.map_eq_some_iff.mp hs with ⟨r, hr, rfl⟩
      exact hi.pollStep hr
    | interrupt => exact hi.interruptStep hs
    | arrive el =>
      rw [← Option.some.inj hs]
      exact hi.arrive el
    | sender | addFails | timeout | transmitted =>
      rcases Option.map_eq_some_iff.mp hs with ⟨t, -, rfl⟩
      exact hi

/-- The calls made for some frames, by the mode of the device: with the Escaper its decoder gets
the data of the frame; with IDs chosen by the application the Broker gets the ID, with bit 29
set for an extended one, and the data; else it gets the data. -/
theorem map_handOver (self : PrivateData) (frames : List RxElement) :
    (shouldUseEscaper self = true →
        frames.map (handOver self) = frames.map fun el => .decodePacket el.data) ∧
      (shouldUseEscaper self = false → ifaceUsesDynamicId self = true →
        frames.map (handOver self) = frames.map fun el => .receivePacket
          (nativeBytes (if el.idType = .extended then el.id ||| 0x20000000 else el.id) ++
            el.data)) ∧
      (shouldUseEscaper self = false → ifaceUsesDynamicId self = false →
        frames.map (handOver self) = frames.map fun el => .receivePacket el.data) := by
  refine ⟨fun hesc => ?_, fun hplain hdynamic => ?_, fun hplain hstatic => ?_⟩
  · refine List.map_congr_left fun el _ => ?_
    rw [handOver, if_pos hesc]
  · refine List.map_congr_left fun el _ => ?_
    rw [handOver, hplain, if_neg Bool.false_ne_true, if_pos hdynamic]
    rfl
  · refine List.map_congr_left fun el _ => ?_
    rw [handOver, hplain, if_neg Bool.false_ne_true, hstatic, if_neg Bool.false_ne_true]

/-- **Reception.** In every reachable state the calls made so far are, once and in order, those
for the frames pulled, but for the one in hand: with the Escaper its decoder gets the data
bytes of each frame, with IDs chosen by the application the Broker gets each ID and the data
bytes, and else it gets the data bytes. The frames pulled, followed by the FIFO, are the frames
the FIFO has accepted; and the poll task does not wait without a token while a frame is in the
FIFO and no new-frame interrupt is pending. -/
theorem reception {e : E} {todo : List (List UInt8)}
    (h : (system asserts X self behind n e todo).Reachable s) :
    (∃ done, s.rx.pulled = done ++ inHand s.rx.poll ∧
      (shouldUseEscaper self = true →
        s.rx.handed = done.map fun el => .decodePacket el.data) ∧
      (shouldUseEscaper self = false → ifaceUsesDynamicId self = true →
        s.rx.handed = done.map fun el => .receivePacket
          (nativeBytes (if el.idType = .extended then el.id ||| 0x20000000 else el.id) ++
            el.data)) ∧
      (shouldUseEscaper self = false → ifaceUsesDynamicId self = false →
        s.rx.handed = done.map fun el => .receivePacket el.data)) ∧
      s.rx.pulled ++ s.rx.fifo = s.rx.accepted ∧
      ¬ (s.rx.poll = .obtain ∧ s.rx.semaphore.available = false ∧ s.rx.fifo ≠ [] ∧
        ¬ newFramePending s) := by
  have hi := rxInv h
  obtain ⟨done, hpulled, hhanded⟩ := hi.handed
  refine ⟨⟨done, hpulled, ?_⟩, hi.accepted, ?_⟩
  · rw [hhanded]
    exact map_handOver self done
  · rintro ⟨hpc, hsem, hne, hquiet⟩
    rcases hi.wake hne with hr | hav | hpend
    · simp [hpc, PollPc.reads] at hr
    · simp [hsem] at hav
    · exact hquiet hpend

/-- The poll task never finds the FIFO empty in `Mcan_rxFifoPull`. -/
theorem poll_not_stopped {e : E} {todo : List (List UInt8)}
    (h : (system asserts X self behind n e todo).Reachable s) : s.rx.poll ≠ .stopped := by
  intro hpc
  have hfits := (rxInv h).fits
  rw [hpc] at hfits
  exact hfits

end Invariant

/-- A device whose IDs are chosen by the application. -/
def dynamicIdReceiver : PrivateData := ⟨dynamicIdConf, 12, some ⟨false⟩, some ⟨false⟩, none, true⟩

/-- Two frames that share one interrupt are drained in one round, and each is handed over with
its ID. -/
theorem two_frames_one_token : ∃ s,
    (system true (stuffingEscaper byteStuffing 8) dynamicIdReceiver (fun _ _ => 0) 64 0
      []).Reachable s ∧
      s.rx.poll = .obtain ∧ s.rx.semaphore.available = false ∧
      s.rx.handed = [.receivePacket [5, 0, 0, 0, 1], .receivePacket [6, 0, 0, 0x20, 2]] ∧
      s.rx.handed = s.rx.pulled.map fun el => .receivePacket
        (nativeBytes (if el.idType = .extended then el.id ||| 0x20000000 else el.id) ++
          el.data) := by
  have h := (system true (stuffingEscaper byteStuffing 8) dynamicIdReceiver (fun _ _ => 0) 64 0
    []).reachable_get ([.poll, .arrive ⟨.standard, 5, [1]⟩, .arrive ⟨.extended, 6, [2]⟩,
      .interrupt, .interrupt, .interrupt] ++ List.replicate 11 .poll) (by decide)
  obtain ⟨done, hpulled, -, hdynamic, -⟩ := (reception h).1
  have hdone : _ = done := hpulled.trans (List.append_nil done)
  exact ⟨_, h, rfl, rfl, rfl, hdone ▸ hdynamic rfl rfl⟩

end Samrh71Drivers.Can
