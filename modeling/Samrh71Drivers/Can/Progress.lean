import Samrh71Drivers.Can.Bus

/-!
# The runs of a CAN bus end

Every step of a driver or a controller uses up something: a message to send, a packet of the
Escaper, a pending frame, a flag, a token, a frame in RX FIFO 0. A frame that goes on the bus
gives each of the other nodes something to do, which is counted for it before. So no run is
longer than a number that the messages determine (`bus_runs_bounded`), whatever the order of
the steps and also with timeouts, refused frames and missed frames; and a bus that stops
without a timeout has delivered everything (`broadcast`).

## Main definitions

* `cost` — what a node has ahead of it, less its frames.
* `FramesLeft` — a bound on the frames it has still to place.
* `bus_runs_bounded` — the bound on the runs.
-/

namespace Samrh71Drivers.Can

open Transition

universe u v

/-! ## What a step uses up -/

/-- The steps the poll task has ahead of it until it waits, less those for the frames in
RX FIFO 0. -/
def PollPc.cost : PollPc → ℕ
  | .start => 1
  | .obtain | .stopped => 0
  | .status | .drain => 3
  | .test _ => 2
  | .pull => 1
  | .deliver _ => 4

/-- The steps of reception; a flag costs the steps of the handler besides. -/
def Rx.cost (r : Rx) : ℕ :=
  4 * r.fifo.length + r.poll.cost + (if r.semaphore.available then 4 else 0) +
    (if r.rf0n then 7 else 0)

/-- The steps of the handler, and the token it has still to release. -/
def Handler.cost : Handler → ℕ
  | .idle => 0
  | .testRf0n rf0n _ => if rf0n then 6 else 2
  | .testTc _ => 1

/-- The steps of the sender up to its next frame; a frame costs `share` on the bus. -/
def SendPc.cost (share : ℕ) : SendPc → ℕ
  | .outside | .stopped => 0
  | .encode _ => 1
  | .addFrame _ _ => share + 8
  | .wait _ _ => 3
  | .check _ => 2

section Cost

variable {E : Type u} {X : Escaper E} {F : Framing X} {self : PrivateData} {asserts : Bool}
  {behind : ℕ → ℕ → UInt8} {n share m : ℕ} {s s' : State E} {t t' : Tx E}

/-- The steps of transmission, less those for the frames still to be placed. -/
def Tx.cost (share : ℕ) (t : Tx E) : ℕ :=
  t.pc.cost share + (if t.buffer.isSome then share + 4 else 0) +
    (if t.tc.isSome then 3 else 0) + 2 * t.todo.length

/-- At most `m` frames are still to be placed besides the one the sender is at. -/
def FramesLeft (F : Framing X) (t : Tx E) (m : ℕ) : Prop :=
  match t.pc.back with
  | none => m = (t.todo.map fun d => (F.frame d).length).sum
  | some l => ∃ p, F.Returned l.data t.escaper p ∧ l.index = F.consumed l.data p ∧
      m = (F.frame l.data).length - p + (t.todo.map fun d => (F.frame d).length).sum

/-- What a node has ahead of it, with `m` frames still to be placed. -/
def cost (share : ℕ) (s : State E) (m : ℕ) : ℕ :=
  s.rx.cost + s.handler.cost + s.tx.cost share + (share + 8) * m

/-- A step of the poll task. -/
theorem Rx.cost_pollStep {r r' : Rx} (h : pollStep self r = some r') : r'.cost + 1 ≤ r.cost := by
  cases hpc : r.poll with
  | obtain =>
    simp only [pollStep, hpc, Option.map_eq_some_iff, Semaphore.obtain_eq_some_iff] at h
    obtain ⟨sem, ⟨hsem, rfl⟩, rfl⟩ := h
    simp only [Rx.cost, hpc, hsem, PollPc.cost, if_true, Bool.false_eq_true, if_false]
    omega
  | test count =>
    simp only [pollStep, hpc, Option.some.injEq] at h
    subst h
    simp only [Rx.cost, hpc]
    split <;> simp only [PollPc.cost] <;> omega
  | pull =>
    cases hfifo : r.fifo with
    | nil =>
      simp only [pollStep, hpc, hfifo, Option.some.injEq] at h
      subst h
      simp only [Rx.cost, hpc, hfifo, PollPc.cost]
      omega
    | cons el fifo =>
      simp only [pollStep, hpc, hfifo, Option.some.injEq] at h
      subst h
      simp only [Rx.cost, hpc, hfifo, PollPc.cost, List.length_cons]
      omega
  | stopped => simp [pollStep, hpc] at h
  | start | status | deliver el | drain =>
    simp only [pollStep, hpc, Option.some.injEq] at h
    subst h
    simp only [Rx.cost, hpc, PollPc.cost]
    omega

/-- An arrival. -/
theorem Rx.cost_arrive (r : Rx) (el : RxElement) : (arrive n r el).cost + 1 ≤ r.cost + 12 := by
  by_cases hroom : r.fifo.length < n
  · simp only [arrive, hroom, if_true, Rx.cost, List.length_append, List.length_singleton]
    omega
  · simp only [arrive, hroom, if_false]
    omega

variable (share) in
/-- A step of the handler. -/
theorem cost_interruptStep (h : interruptStep s = some s') :
    s'.rx.cost + s'.handler.cost + s'.tx.cost share + 1 ≤
      s.rx.cost + s.handler.cost + s.tx.cost share := by
  cases hh : s.handler with
  | idle =>
    by_cases hflag : s.rx.rf0n = true ∨ s.tx.tc.isSome = true
    · simp only [interruptStep, hh, hflag, if_true, Option.some.injEq] at h
      subst h
      cases hrf0n : s.rx.rf0n <;> cases htc : s.tx.tc <;>
        simp [Rx.cost, Tx.cost, Handler.cost, hrf0n, htc] at hflag ⊢ <;> omega
    · simp [interruptStep, hh, hflag] at h
  | testRf0n rf0n tc =>
    cases rf0n with
    | true =>
      simp only [interruptStep, hh, if_true, Option.some.injEq] at h
      subst h
      simp only [Rx.cost, Handler.cost, Semaphore.available_release, if_true]
      omega
    | false =>
      simp only [interruptStep, hh, Bool.false_eq_true, if_false, Option.some.injEq] at h
      subst h
      simp only [Handler.cost, Bool.false_eq_true, if_false]
      omega
  | testTc tc =>
    cases tc with
    | none =>
      simp only [interruptStep, hh, Option.some.injEq] at h
      subst h
      simp only [Handler.cost]
      omega
    | some frame =>
      simp only [interruptStep, hh, Option.some.injEq] at h
      subst h
      simp only [Handler.cost, Tx.cost]
      omega

/-- The messages still to be sent are part of what is left. -/
theorem FramesLeft.sum_le (h : FramesLeft F t m) :
    (t.todo.map fun d => (F.frame d).length).sum ≤ m := by
  unfold FramesLeft at h
  split at h
  · exact Nat.le_of_eq h.symm
  · obtain ⟨p, -, -, rfl⟩ := h
    exact Nat.le_add_left _ _

/-- Where the sender is not in a loop, nothing but the messages is left. -/
theorem framesLeft_of_back (h : t.pc.back = none) :
    FramesLeft F t (t.todo.map fun d => (F.frame d).length).sum := by
  rw [FramesLeft, h]

/-- A sender whose place in the loop is the same has as many frames left. -/
theorem FramesLeft.congr (h : FramesLeft F t m) (hback : t'.pc.back = t.pc.back)
    (hescaper : t'.escaper = t.escaper) (htodo : t'.todo = t.todo) : FramesLeft F t' m := by
  rw [FramesLeft, hback, hescaper, htodo]
  exact h

theorem cost_resume_le (share : ℕ) (back : Option SendLoop) : (resume back).cost share ≤ 1 := by
  cases back with
  | none => exact Nat.zero_le 1
  | some l => exact Nat.le_refl 1

variable (share) in
/-- A call begins a loop, or is at its only frame. -/
theorem startSend_cases (asserts : Bool) (self : PrivateData) (memory : ℕ → UInt8)
    (data : List UInt8) :
    (∃ idType id, startSend asserts self memory data = .encode ⟨idType, id, data, 0⟩) ∨
      (startSend asserts self memory data).back = none ∧
        (startSend asserts self memory data).cost share ≤ share + 8 := by
  have hfailed : (failedAssert asserts SendPc.outside).back = none ∧
      (failedAssert asserts SendPc.outside).cost share ≤ share + 8 := by
    cases asserts <;> exact ⟨rfl, Nat.zero_le _⟩
  have henter : ∀ el : TxElement, (enterSendFrame asserts el none).back = none ∧
      (enterSendFrame asserts el none).cost share ≤ share + 8 := by
    intro el
    rw [enterSendFrame]
    split
    · exact ⟨rfl, Nat.zero_le _⟩
    · exact ⟨rfl, Nat.le_refl _⟩
  cases haddress : self.config.address with
  | none => simpa only [startSend, haddress] using Or.inr hfailed
  | staticCanId address =>
    simp only [startSend, haddress]
    cases htarget : staticIdTypeAndId address with
    | none => exact .inr hfailed
    | some target =>
      cases hesc : shouldUseEscaper self with
      | true => exact .inl ⟨target.1, target.2, rfl⟩
      | false => exact .inr (henter _)
  | applicationControlCanId dummy =>
    simp only [startSend, haddress]
    split
    · exact .inr ⟨rfl, Nat.zero_le _⟩
    · exact .inr (henter _)

/-- A step after which the sender is nearer to its next frame, or has stopped. -/
private theorem cost_of_le {b : ℕ} (hm : FramesLeft F t m) (hb : t.pc.cost share = b)
    (hbuffer : t'.buffer = t.buffer) (htc : t'.tc = t.tc) (htodo : t'.todo = t.todo)
    (hcost : t'.pc.cost share + 1 ≤ b)
    (hback : t'.pc.back = t.pc.back ∧ t'.escaper = t.escaper ∨ t'.pc.back = none) :
    ∃ m', FramesLeft F t' m' ∧
      t'.cost share + (share + 8) * m' + 1 ≤ t.cost share + (share + 8) * m := by
  have hle : t'.cost share + 1 ≤ t.cost share := by
    simp only [Tx.cost, hbuffer, htc, htodo, hb]
    omega
  rcases hback with ⟨hback, hescaper⟩ | hback
  · exact ⟨m, hm.congr hback hescaper htodo, by omega⟩
  · refine ⟨_, framesLeft_of_back hback, ?_⟩
    have hsum := Nat.mul_le_mul_left (share + 8) hm.sum_le
    rw [htodo]
    omega

variable (share) in
/-- **A step of the sender.** -/
theorem cost_txStep {l : Label} (hm : FramesLeft F t m) (hs : TxStep asserts X self behind t l t')
    (hl : l ∈ [Label.sender, .addFails, .timeout]) :
    ∃ m', FramesLeft F t' m' ∧
      t'.cost share + (share + 8) * m' + 1 ≤ t.cost share + (share + 8) * m := by
  cases hs with
  | @call data todo hpc htodo =>
    have hlen := F.length_frame data
    rw [FramesLeft, hpc] at hm
    simp only [SendPc.back, htodo, List.map_cons, List.sum_cons] at hm
    rcases startSend_cases share asserts self (behind todo.length) data with
      ⟨idType, id, hstart⟩ | hstart
    · refine ⟨m, ?_, ?_⟩
      · simp only [FramesLeft, hstart, SendPc.back, startEncoderFor]
        exact ⟨0, F.returned_start data t.escaper, (F.consumed_zero data).symm, hm⟩
      · simp only [Tx.cost, hstart, hpc, htodo, SendPc.cost, List.length_cons]
        omega
    · -- the only frame of the message, of which the frame of the Escaper is a bound
      refine ⟨_, framesLeft_of_back hstart.1, ?_⟩
      have hcost := hstart.2
      have hone : (todo.map fun d => (F.frame d).length).sum + 1 ≤ m := by omega
      have hmul := Nat.mul_le_mul_left (share + 8) hone
      rw [Nat.mul_succ] at hmul
      have hout : t.pc.cost share = 0 := by
        rw [hpc]
        rfl
      simp only [Tx.cost, hout, htodo, List.length_cons]
      omega
  | @encode l hpc =>
    have hleft := hm
    rw [FramesLeft, hpc] at hleft
    simp only [SendPc.back] at hleft
    obtain ⟨p, hreturned, hindex, rfl⟩ := hleft
    have hlen := F.length_packet hreturned
    have hnext := F.returned_next l.data t.escaper p hreturned
    have hindex' := F.index_eq l.data t.escaper p hreturned
    rw [← hindex] at hlen hnext hindex'
    generalize X.encodePacket t.escaper l.data l.index = r at *
    by_cases hmore : 0 < r.packet.length
    · simp only [hmore, if_true]
      -- the packet is at least one byte of the frame
      have hone : (F.frame l.data).length - (p + r.packet.length) +
          (t.todo.map fun d => (F.frame d).length).sum + 1 ≤
          (F.frame l.data).length - p + (t.todo.map fun d => (F.frame d).length).sum := by omega
      have hmul := Nat.mul_le_mul_left (share + 8) hone
      rw [Nat.mul_succ] at hmul
      rw [enterSendFrame]
      split
      · refine ⟨_, framesLeft_of_back rfl, ?_⟩
        have hsum := Nat.mul_le_mul_left (share + 8) hm.sum_le
        simp only [Tx.cost, hpc, SendPc.cost]
        omega
      · refine ⟨_, ⟨p + r.packet.length, hnext, hindex', rfl⟩, ?_⟩
        simp only [Tx.cost, hpc, SendPc.cost]
        omega
    · simp only [hmore, if_false]
      exact cost_of_le hm (congrArg (SendPc.cost share) hpc) rfl rfl rfl (Nat.le_refl 1) (.inr rfl)
  | @add el back hpc =>
    refine ⟨m, hm.congr (by rw [hpc]; rfl) rfl rfl, ?_⟩
    simp only [Tx.cost, hpc, SendPc.cost, Option.isSome_some, if_true]
    split <;> omega
  | obtain hpc =>
    refine cost_of_le hm (congrArg (SendPc.cost share) hpc) rfl rfl rfl (Nat.le_refl 3)
      (.inl ⟨?_, rfl⟩)
    rw [hpc]
    rfl
  | @check back pc hpc hpc' =>
    have hback : t.pc.back = back := by
      rw [hpc]
      rfl
    rcases hpc' with rfl | rfl
    · refine cost_of_le hm (congrArg (SendPc.cost share) hpc) rfl rfl rfl ?_ (.inl ⟨?_, rfl⟩)
      · exact Nat.succ_le_succ (cost_resume_le share back)
      · rw [hback]
        exact back_resume back
    · exact cost_of_le hm (congrArg (SendPc.cost share) hpc) rfl rfl rfl (Nat.le_succ 1) (.inr rfl)
  | @timeout frame back pc hpc hpc' =>
    have hback : t.pc.back = back := by
      rw [hpc]
      rfl
    rcases hpc' with rfl | rfl
    · refine cost_of_le hm (congrArg (SendPc.cost share) hpc) rfl rfl rfl ?_ (.inl ⟨?_, rfl⟩)
      · exact (Nat.succ_le_succ (cost_resume_le share back)).trans (Nat.le_succ 2)
      · rw [hback]
        exact back_resume back
    · exact cost_of_le hm (congrArg (SendPc.cost share) hpc) rfl rfl rfl (Nat.le_add_left 1 2)
        (.inr rfl)
  | @addFails el back hpc =>
    have hlt : (3 : ℕ) + 1 ≤ share + 8 := by omega
    cases asserts with
    | true =>
      exact cost_of_le hm (congrArg (SendPc.cost share) hpc) rfl rfl rfl
        (Nat.le_add_left 1 (share + 7)) (.inr rfl)
    | false =>
      refine cost_of_le hm (congrArg (SendPc.cost share) hpc) rfl rfl rfl hlt (.inl ⟨?_, rfl⟩)
      rw [hpc]
      rfl
  | transmitted | interrupt | poll | arrive => simp at hl

variable (share) in
/-- A transmission: the frame costs the others what was set aside for it. -/
theorem cost_transmitted (h : transmitted t = some t') :
    t'.cost share + share + 1 ≤ t.cost share := by
  obtain ⟨frame, hbuffer, rfl⟩ := Option.map_eq_some_iff.mp h
  simp only [Tx.cost, hbuffer, Option.isSome_none, Option.isSome_some, if_true, set,
    Bool.false_eq_true, if_false]
  split <;> omega

end Cost

/-! ## The bus -/

section Bus

variable {E : Type u} {κ : Type v} [DecidableEq κ] [Fintype κ] {nodes : κ → Node E}
  {x : Medium κ (State E) RxElement}

/-- **What a step of a node uses up.** -/
theorem cost_step (share : ℕ) {X : Escaper E} {F : Framing X} {self : PrivateData}
    {asserts : Bool} {behind : ℕ → ℕ → UInt8} {n m : ℕ} {s s' : State E} {l : Label}
    (hfree : (canPort (E := E)).takenBy l = none) (hm : FramesLeft F s.tx m)
    (hs : next asserts X self behind n s l = some s') :
    ∃ m', FramesLeft F s'.tx m' ∧
      cost share s' m' + (canPort.emits s l).toList.length * share + 1 ≤ cost share s m := by
  have hstep := txStep_of_next hs
  cases l with
  | poll =>
    obtain ⟨r, hr, rfl⟩ := Option.map_eq_some_iff.mp hs
    have hcost := Rx.cost_pollStep hr
    refine ⟨m, hm, ?_⟩
    simp only [cost, canPort, Option.toList_none, List.length_nil]
    omega
  | sender | addFails | timeout =>
    obtain ⟨t, -, rfl⟩ := Option.map_eq_some_iff.mp hs
    obtain ⟨m', hm', hle⟩ := cost_txStep share hm hstep (by simp)
    refine ⟨m', hm', ?_⟩
    simp only [cost, canPort, Option.toList_none, List.length_nil] at hle ⊢
    omega
  | interrupt =>
    have hcost := cost_interruptStep share hs
    refine ⟨m, ?_, ?_⟩
    · generalize s'.tx = t' at hstep
      cases hstep
      exact hm
    · simp only [cost, canPort, Option.toList_none, List.length_nil]
      omega
  | arrive el => cases hfree
  | transmitted =>
    obtain ⟨t, ht, rfl⟩ := Option.map_eq_some_iff.mp hs
    have hcost := cost_transmitted share ht
    refine ⟨m, ?_, ?_⟩
    · cases hstep
      exact hm
    · have hone : (canPort.emits s .transmitted).toList.length ≤ 1 := by
        cases canPort.emits s .transmitted <;> simp
      have hshare := Nat.mul_le_mul_right share hone
      simp only [cost]
      omega

omit [DecidableEq κ] in
/-- The cost of a node as a bound on what it has ahead of it on the bus. -/
theorem bus_potential (F : ∀ i, Framing (nodes i).escaper) :
    Potential (fun i => (nodes i).device) canPort
      (fun i s k => ∃ m, FramesLeft (F i) s.tx m ∧ k = cost (Fintype.card κ * 12) s m)
      12 (Fintype.card κ * 12) := by
  constructor
  case pos => decide
  case own =>
    rintro i s l s' _ hfree ⟨m, hm, rfl⟩ hs
    obtain ⟨m', hm', hle⟩ := cost_step (Fintype.card κ * 12) hfree hm hs
    exact ⟨_, ⟨m', hm', rfl⟩, hle⟩
  case take =>
    rintro i s el s' _ ⟨m, hm, rfl⟩ hs
    have hcost := Rx.cost_arrive (n := (nodes i).rxFifo0Size) s.rx el
    rw [← Option.some.inj hs]
    refine ⟨_, ⟨m, hm, rfl⟩, ?_⟩
    simp only [cost]
    omega

/-- **The runs of a bus are bounded.** Whatever the order of the steps, and also with timeouts,
refused frames, overflows and missed frames, no run of the devices on a bus is longer than a
number that depends on the messages alone. -/
theorem bus_runs_bounded (F : ∀ i, Framing (nodes i).escaper) {ls : List (MediumLabel κ Label)}
    (h : (bus nodes).exec (bus nodes).init ls = some x) :
    ls.length ≤ ∑ i, (1 + 2 * (nodes i).program.length + (Fintype.card κ * 12 + 8) *
      ((nodes i).program.map fun data => ((F i).frame data).length).sum) := by
  refine (bus_potential F).bounded (fun i => ?_) h
  refine ⟨_, framesLeft_of_back rfl, ?_⟩
  simp [cost, Rx.cost, Tx.cost, PollPc.cost, Handler.cost, SendPc.cost, Node.device, system,
    initial]

/-- The framings of the encoders of `threeNodes`. -/
def threeFramings (i : Fin 3) : Framing (threeNodes i).escaper :=
  stuffingFraming byteStuffing 8 (by decide)

/-- The run in which both messages are delivered. -/
theorem threeNodes_bounded :
    (sending 1 ++ sending 0 ++ taking 0 1 ++ taking 1 1 ++
      taking 2 2 : List (MediumLabel (Fin 3) Label)).length ≤
      ∑ i, (1 + 2 * (threeNodes i).program.length + (Fintype.card (Fin 3) * 12 + 8) *
        ((threeNodes i).program.map fun data => ((threeFramings i).frame data).length).sum) :=
  bus_runs_bounded threeFramings (Option.some_get (by decide)).symm

end Bus
end Samrh71Drivers.Can
