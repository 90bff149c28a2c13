import Samrh71Drivers.Can.System

/-!
# The transmission handshake of the CAN driver

`SamRH71RtemsCanSendFrame` places a frame in TX buffer 0 and waits on a binary semaphore
for the interrupt that reports its transmission. The report is in one place at a time: the
frame is still pending, or the interrupt flag is set, or the handler has read the flag, or
the semaphore has the token. `signals` collects these places.

As long as no wait for a placed frame has timed out there is a report exactly while the
sender waits, and it is the one for its frame. After such a timeout the report is still to
come. With asserts enabled the run has ended; with asserts compiled out the handshake keeps
working only if no further frame is placed (`addsAfterWaits`).

## Main definitions

* `signals` — the reports that are under way.
* `addsAfterWaits` — the condition on a call of `Mcan_txBufferAdd`.
* `HandshakeInv` — the invariant.
* `handshake_when_waited` — the handshake under that condition.
-/

namespace Samrh71Drivers.Can

open Transition

universe u

/-- The flag the handler has read. -/
def Handler.tc : Handler → Option ℕ
  | .idle => none
  | .testRf0n _ tc => tc
  | .testTc tc => tc

/-- The frames whose transmission has not yet been reported to a sender. -/
def signals {E : Type u} (t : Tx E) (h : Handler) : List ℕ :=
  t.buffer.toList ++ t.tc.toList ++ h.tc.toList ++ t.semaphore.toList

/-- The frame a sender waits for. -/
def waited : SendPc → List ℕ
  | .wait frame _ => frame.toList
  | _ => []

/-- The sender is not between `Mcan_txBufferAdd` and the end of its wait. -/
def SendPc.between : SendPc → Prop
  | .wait _ _ | .check _ => False
  | _ => True

/-- `Mcan_txBufferAdd` is called only if asserts are enabled or no wait for an earlier
frame in the buffer has timed out. -/
def addsAfterWaits {E : Type u} (asserts : Bool) (s : State E) : Label → Prop
  | .sender | .addFails =>
    match s.tx.pc with
    | .addFrame _ _ => asserts = true ∨ s.tx.abandoned = false
    | _ => True
  | _ => True

instance {E : Type u} (asserts : Bool) (s : State E) (l : Label) :
    Decidable (addsAfterWaits asserts s l) := by
  unfold addsAfterWaits
  split
  · split <;> infer_instance
  · split <;> infer_instance
  · infer_instance

section Points

variable {asserts : Bool} {pc : SendPc}

theorem length_waited (pc : SendPc) : (waited pc).length ≤ 1 := by
  cases pc with
  | wait frame back => cases frame <;> simp [waited]
  | _ => simp [waited]

theorem waited_of_between (h : pc.between) : waited pc = [] := by
  cases pc <;> first | rfl | exact h.elim

@[simp] theorem between_resume (back : Option SendLoop) : (resume back).between := by
  cases back <;> trivial

@[simp] theorem between_enterSendFrame (el : TxElement) (back : Option SendLoop) :
    (enterSendFrame asserts el back).between := by
  by_cases h : (asserts && decide (mcanMaxDataSize < el.dataSize)) = true
  · simp only [enterSendFrame, h, if_true]
    trivial
  · simp only [enterSendFrame, h]
    trivial

theorem between_failedAssert (h : pc.between) : (failedAssert asserts pc).between := by
  cases asserts with
  | true => trivial
  | false => exact h

theorem between_startSend (self : PrivateData) (behind : ℕ → UInt8) (data : List UInt8) :
    (startSend asserts self behind data).between := by
  cases haddress : self.config.address with
  | none =>
    simp only [startSend, haddress]
    exact between_failedAssert (show SendPc.outside.between from trivial)
  | staticCanId address =>
    simp only [startSend, haddress]
    cases staticIdTypeAndId address with
    | none => exact between_failedAssert (show SendPc.outside.between from trivial)
    | some target =>
      by_cases hesc : shouldUseEscaper self = true
      · simp only [hesc, if_true]
        trivial
      · simp only [hesc]
        exact between_enterSendFrame _ _
  | applicationControlCanId dummy =>
    simp only [startSend, haddress]
    split
    · trivial
    · exact between_enterSendFrame _ _

end Points

section Invariant

variable {E : Type u} {X : Escaper E} {self : PrivateData} {asserts : Bool}
  {behind : ℕ → ℕ → UInt8} {n : ℕ} {s s' : State E}

/-- The invariant of transmission. -/
structure HandshakeInv (asserts : Bool) (t : Tx E) (h : Handler) : Prop where
  /-- Reports are under way for the waiting sender only. -/
  live : t.abandoned = false → signals t h = waited t.pc
  /-- After a frame was abandoned the sender has not got to another wait. -/
  parked : t.abandoned = true → t.pc.between
  /-- With asserts enabled the sender has stopped by then. -/
  ended : t.abandoned = true → asserts = true → t.pc = .stopped

variable {t t' : Tx E} {h : Handler}

/-- A sender that may add a frame has not abandoned one. -/
theorem HandshakeInv.not_abandoned (hi : HandshakeInv asserts t h) (hne : t.pc ≠ .stopped)
    (hok : asserts = true ∨ t.abandoned = false) : t.abandoned = false := by
  rcases hok with hasserts | hlive
  · cases hab : t.abandoned with
    | false => rfl
    | true => exact absurd (hi.ended hab hasserts) hne
  · exact hlive

/-- A waiting sender has not abandoned a frame before. -/
theorem HandshakeInv.not_abandoned_of_waiting (hi : HandshakeInv asserts t h)
    (hw : ¬ t.pc.between) : t.abandoned = false := by
  cases hab : t.abandoned with
  | false => rfl
  | true => exact absurd (hi.parked hab) hw

/-- The sender's steps between two frames. -/
private theorem HandshakeInv.move (hi : HandshakeInv asserts t h) {t' : Tx E}
    (hb : t.pc.between) (hb' : t'.pc.between) (hne : t.pc ≠ .stopped)
    (hsig : signals t' h = signals t h) (hab : t'.abandoned = t.abandoned) :
    HandshakeInv asserts t' h := by
  constructor
  · intro hlive
    rw [hab] at hlive
    rw [hsig, hi.live hlive, waited_of_between hb, waited_of_between hb']
  · intro _
    exact hb'
  · intro hdead hasserts
    rw [hab] at hdead
    exact absurd (hi.ended hdead hasserts) hne

/-- **One step of the sender keeps the invariant**, when it adds a frame after the earlier
waits have succeeded. -/
theorem HandshakeInv.senderStep (hi : HandshakeInv asserts t h)
    (hok : ∀ el back, t.pc = .addFrame el back → asserts = true ∨ t.abandoned = false)
    (hs : senderStep asserts X self behind t = some t') : HandshakeInv asserts t' h := by
  cases hpc : t.pc with
  | outside =>
    cases htodo : t.todo with
    | nil => simp [Can.senderStep, hpc, htodo] at hs
    | cons data todo =>
      simp only [Can.senderStep, hpc, htodo, Option.some.injEq] at hs
      subst hs
      exact hi.move (by simp [hpc, SendPc.between]) (between_startSend _ _ _) (by simp [hpc]) rfl
        rfl
  | encode l =>
    simp only [Can.senderStep, hpc, Option.some.injEq] at hs
    subst hs
    refine hi.move (by simp [hpc, SendPc.between]) ?_ (by simp [hpc]) rfl rfl
    split
    · exact between_enterSendFrame _ _
    · trivial
  | addFrame el back =>
    simp only [Can.senderStep, hpc, Option.some.injEq] at hs
    subst hs
    have hlive := hi.not_abandoned (by simp [hpc]) (hok el back hpc)
    -- nothing is under way, so the only report will be the one for this frame
    have hsig := hi.live hlive
    simp only [hpc, waited, signals, List.append_eq_nil_iff] at hsig
    constructor
    · intro _
      simp [signals, waited, hsig]
    · intro hdead
      simp [hlive] at hdead
    · intro hdead
      simp [hlive] at hdead
  | wait frame back =>
    cases hsem : t.semaphore with
    | none => simp [Can.senderStep, hpc, hsem] at hs
    | some k =>
      simp only [Can.senderStep, hpc, hsem, Option.map_some, Option.some.injEq] at hs
      subst hs
      have hlive := hi.not_abandoned_of_waiting (by simp [hpc, SendPc.between])
      have hsig := hi.live hlive
      constructor
      · intro _
        cases frame with
        | none => simp [hpc, waited, signals, hsem] at hsig
        | some m =>
          simp only [hpc, waited, signals, hsem, Option.toList_some,
            List.append_eq_singleton_iff] at hsig
          simp at hsig
          simp [signals, waited, hsig]
      · intro hdead
        simp [hlive] at hdead
      · intro hdead
        simp [hlive] at hdead
  | check back =>
    simp only [Can.senderStep, hpc, Option.some.injEq] at hs
    subst hs
    have hlive := hi.not_abandoned_of_waiting (by simp [hpc, SendPc.between])
    have hsig := hi.live hlive
    simp only [hpc, waited] at hsig
    have hb : (if t.buffer.isNone then resume back
        else failedAssert asserts (resume back)).between := by
      split
      · exact between_resume back
      · exact between_failedAssert (between_resume back)
    constructor
    · intro _
      rw [waited_of_between hb]
      exact hsig
    · intro _
      exact hb
    · intro hdead
      simp [hlive] at hdead
  | stopped => simp [Can.senderStep, hpc] at hs

/-- A frame that was not placed leaves nothing to wait for. -/
theorem HandshakeInv.addFails (hi : HandshakeInv asserts t h)
    (hok : ∀ el back, t.pc = .addFrame el back → asserts = true ∨ t.abandoned = false)
    (hs : addFails asserts t = some t') : HandshakeInv asserts t' h := by
  cases hpc : t.pc with
  | addFrame el back =>
    simp only [Can.addFails, hpc, Option.some.injEq] at hs
    subst hs
    have hlive := hi.not_abandoned (by simp [hpc]) (hok el back hpc)
    have hsig := hi.live hlive
    simp only [hpc, waited] at hsig
    constructor
    · intro _
      cases asserts <;> exact hsig
    · intro hdead
      simp [hlive] at hdead
    · intro hdead
      simp [hlive] at hdead
  | _ => simp [Can.addFails, hpc] at hs

/-- A timeout abandons the frame that was waited for, if one was placed. -/
theorem HandshakeInv.timeout (hi : HandshakeInv asserts t h)
    (hs : timeout asserts t = some t') : HandshakeInv asserts t' h := by
  cases hpc : t.pc with
  | wait frame back =>
    cases hsem : t.semaphore with
    | some k => simp [Can.timeout, hpc, hsem] at hs
    | none =>
      simp only [Can.timeout, hpc, hsem, Option.some.injEq] at hs
      subst hs
      have hlive := hi.not_abandoned_of_waiting (by simp [hpc, SendPc.between])
      have hb : (failedAssert asserts (resume back)).between :=
        between_failedAssert (between_resume back)
      constructor
      · intro hab
        cases frame with
        | some k => simp at hab
        | none =>
          have hsig := hi.live hlive
          simp only [hpc, waited] at hsig
          rw [waited_of_between hb]
          simpa [signals, hsem] using hsig
      · intro _
        exact hb
      · intro _ hasserts
        simp [failedAssert, hasserts]
  | _ => simp [Can.timeout, hpc] at hs

/-- A transmission turns the pending frame into a raised flag. -/
theorem HandshakeInv.transmitted (hi : HandshakeInv asserts t h)
    (hs : transmitted t = some t') : HandshakeInv asserts t' h := by
  cases hbuf : t.buffer with
  | none => simp [Can.transmitted, hbuf] at hs
  | some k =>
    simp only [Can.transmitted, hbuf, Option.map_some, Option.some.injEq] at hs
    subst hs
    refine ⟨fun hlive => ?_, hi.parked, hi.ended⟩
    have hsig := hi.live hlive
    have hlen := congrArg List.length hsig
    have hone := length_waited t.pc
    simp only [signals, hbuf] at hsig hlen ⊢
    cases htc : t.tc with
    | none => simpa [set, htc] using hsig
    | some m =>
      simp [htc] at hlen
      omega

/-- The handler moves a report on, to the semaphore in the end. -/
theorem HandshakeInv.interruptStep (hi : HandshakeInv asserts s.tx s.handler)
    (hs : interruptStep s = some s') : HandshakeInv asserts s'.tx s'.handler := by
  cases hh : s.handler with
  | idle =>
    by_cases hflag : s.rx.rf0n = true ∨ s.tx.tc.isSome = true
    · simp only [Can.interruptStep, hh, hflag, if_true, Option.some.injEq] at hs
      subst hs
      refine ⟨fun hlive => ?_, hi.parked, hi.ended⟩
      have hsig := hi.live hlive
      simpa [signals, hh, Handler.tc] using hsig
    · simp [Can.interruptStep, hh, hflag] at hs
  | testRf0n rf0n tc =>
    have hsame : s'.tx = s.tx ∧ s'.handler = .testTc tc := by
      cases rf0n <;> simp only [Can.interruptStep, hh, Bool.false_eq_true, if_true, if_false,
        Option.some.injEq] at hs <;> subst hs <;> exact ⟨rfl, rfl⟩
    rw [hsame.1, hsame.2]
    rw [hh] at hi
    exact ⟨hi.live, hi.parked, hi.ended⟩
  | testTc tc =>
    cases tc with
    | none =>
      simp only [Can.interruptStep, hh, Option.some.injEq] at hs
      subst hs
      rw [hh] at hi
      exact ⟨hi.live, hi.parked, hi.ended⟩
    | some k =>
      simp only [Can.interruptStep, hh, Option.some.injEq] at hs
      subst hs
      refine ⟨fun hlive => ?_, hi.parked, hi.ended⟩
      have hsig := hi.live hlive
      have hlen := congrArg List.length hsig
      have hone := length_waited s.tx.pc
      simp only [signals, hh, Handler.tc] at hsig hlen ⊢
      cases hsem : s.tx.semaphore with
      | none => simpa [set, hsem] using hsig
      | some m =>
        simp [hsem] at hlen
        omega

/-- **The handshake invariant.** It holds in every state of the runs that add a frame only
after the earlier waits have succeeded. -/
theorem handshakeInv {e : E} {todo : List (List UInt8)}
    (h : (system asserts X self behind n e todo).ReachableWhen (addsAfterWaits asserts) s) :
    HandshakeInv asserts s.tx s.handler := by
  refine System.ReachableWhen.invariant (P := fun s => HandshakeInv asserts s.tx s.handler) ?_ ?_ h
  · exact ⟨fun _ => rfl, fun hdead => Bool.noConfusion hdead, fun hdead => Bool.noConfusion hdead⟩
  · intro s l s' _ hi hok hs
    cases l with
    | poll =>
      rcases Option.map_eq_some_iff.mp hs with ⟨r, -, rfl⟩
      exact hi
    | sender =>
      rcases Option.map_eq_some_iff.mp hs with ⟨t, ht, rfl⟩
      refine hi.senderStep (fun el back hpc => ?_) ht
      simpa [addsAfterWaits, hpc] using hok
    | addFails =>
      rcases Option.map_eq_some_iff.mp hs with ⟨t, ht, rfl⟩
      refine hi.addFails (fun el back hpc => ?_) ht
      simpa [addsAfterWaits, hpc] using hok
    | timeout =>
      rcases Option.map_eq_some_iff.mp hs with ⟨t, ht, rfl⟩
      exact hi.timeout ht
    | interrupt => exact hi.interruptStep hs
    | arrive el =>
      rw [← Option.some.inj hs]
      exact hi
    | transmitted =>
      rcases Option.map_eq_some_iff.mp hs with ⟨t, ht, rfl⟩
      exact hi.transmitted ht

/-- **The handshake.** When a frame is added only with asserts enabled or after the earlier
waits have succeeded, TX buffer 0 is free for it, and a waiting sender finds no token but
the one released for its own frame. -/
theorem handshake_when_waited {e : E} {todo : List (List UInt8)}
    (h : (system asserts X self behind n e todo).ReachableWhen (addsAfterWaits asserts) s) :
    (∀ el back, s.tx.pc = .addFrame el back → addsAfterWaits asserts s .sender →
      s.tx.buffer = none) ∧
    ∀ frame back k, s.tx.pc = .wait frame back → s.tx.semaphore = some k → frame = some k := by
  have hi := handshakeInv h
  constructor
  · intro el back hpc hok
    have hlive := hi.not_abandoned (by simp [hpc]) (by simpa [addsAfterWaits, hpc] using hok)
    have hsig := hi.live hlive
    simp only [hpc, waited, signals, List.append_eq_nil_iff] at hsig
    simpa using hsig.1.1.1
  · intro frame back k hpc hsem
    have hlive := hi.not_abandoned_of_waiting (by simp [hpc, SendPc.between])
    have hsig := hi.live hlive
    have hmem : k ∈ signals s.tx s.handler := by simp [signals, hsem]
    rw [hsig, hpc] at hmem
    simpa [waited] using hmem

end Invariant

/-! ## A send after a timeout -/

/-- Two messages of one byte. -/
def twoSends (asserts : Bool) : System (State ℕ) Label :=
  system asserts (stuffingEscaper byteStuffing 8) staticIdDevice (fun _ _ => 0) 64 0 [[1], [2]]

/-- A frame is added, transmitted and reported. -/
def oneFrame : List Label :=
  [.sender, .sender, .transmitted, .interrupt, .interrupt, .interrupt]

/-- The second frame is added and reported after the first one. -/
theorem twoSends_when_waited : ∃ s,
    (twoSends false).ReachableWhen (addsAfterWaits false) s ∧
      s.tx.pc = .wait (some 1) none ∧ s.tx.semaphore = some 1 ∧
      ∀ frame back k, s.tx.pc = .wait frame back → s.tx.semaphore = some k → frame = some k := by
  have h := (twoSends false).reachableWhen_get (addsAfterWaits false)
    (oneFrame ++ [.sender, .sender] ++ oneFrame) (by decide)
  exact ⟨_, h, rfl, rfl, (handshake_when_waited h).2⟩

/-- Without asserts, a send after a timeout adds its frame while the first one is pending,
and takes the token of the first one when that was transmitted late. -/
theorem twoSends_after_timeout :
    (¬ ∀ s, (twoSends false).Reachable s →
      ∀ el back, s.tx.pc = .addFrame el back → s.tx.buffer = none) ∧
    ¬ ∀ s, (twoSends false).Reachable s → ∀ frame back k, s.tx.pc = .wait frame back →
      s.tx.semaphore = some k → frame = some k := by
  constructor
  · intro h
    have hfree := h _ ((twoSends false).reachable_get [.sender, .sender, .timeout, .sender]
      (by decide)) _ _ rfl
    exact absurd hfree (by decide)
  · intro h
    have hown := h _ ((twoSends false).reachable_get [.sender, .sender, .timeout, .transmitted,
      .interrupt, .interrupt, .interrupt, .sender, .sender] (by decide)) _ _ _ rfl rfl
    exact absurd hown (by decide)

end Samrh71Drivers.Can
