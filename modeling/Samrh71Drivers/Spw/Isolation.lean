import Samrh71Drivers.Spw.InitPhases

/-!
# Several instances of the SpaceWire driver

The instances share one block, one pair of interrupt vectors and `g_spw_irq_self`. A call for
a second instance would take the interrupts of the first one away and reset its link and its
transfers. It gets as far as `g_spw_irq_self` and is refused by the assertion on its first
installation of the handler, because RTEMS refuses a handler that is installed already with
the same argument. As long as no such call is under way the first instance is served.

## Main definitions

* `Served` — the deactivations of an instance lead to releases, and its link runs.
* `Refused` — a call gets no further than its first installation of the handler.
* `instances_isolated` — every instance that is initialised is served, or a later call is
  refused.
-/

namespace Samrh71Drivers.Spw.Init

open Transition

universe u

variable {κ : Type u} {E : Setup κ} {s s' : State κ} {i j : κ}

/-- A call under way next to the first instance has reset nothing. -/
theorem First.before_resets (h : First E s i) (hpc : s.pc i = .finished) {k : κ}
    (hrun : s.running = some k) : s.pc k ≠ .txReset ∧ s.pc k ≠ .rxReset := by
  have hne : k ≠ i := by
    rintro rfl
    exact h.running.mp hrun hpc
  rcases (h.others k hne).2 with ⟨-, hnot⟩ | ⟨-, -, hbefore⟩
  · exact absurd hrun hnot
  · constructor
    · intro heq
      exact hbefore (by rw [heq]; decide)
    · intro heq
      exact hbefore (by rw [heq]; decide)

/-- The call for `j` is under way next to the first instance `i`, or has redirected its
interrupts. -/
def Intruding (E : Setup κ) (i j : κ) (s : State κ) : Prop :=
  s.running = some j ∧ (First E s i ∧ s.pc i = .finished ∨ Later s i j)

theorem Intruding.ne (h : Intruding E i j s) : j ≠ i := by
  rcases h with ⟨hrun, ⟨hfirst, hpc⟩ | hlater⟩
  · rintro rfl
    exact hfirst.running.mp hrun hpc
  · exact hlater.ne

variable [DecidableEq κ]

/-- An interrupt is taken. -/
def Label.IsInterrupt (l : Label κ) : Prop := ∃ v, l = .interrupt v

/-- The instance `i` works: its link is started, and each of its deactivations is kept until
an interrupt releases the semaphore. -/
structure Served (E : Setup κ) (s : State κ) (i : κ) : Prop where
  link : ∃ c, s.links (E.args i).deviceConfiguration.linkId.index = some c ∧ c.command = 3
  tx : (system E).Ensures Label.IsInterrupt (fun t => t.txDeactivated = some i)
    (fun t => (t.device i).txSemaphore = some ⟨true⟩) s
  rx : (system E).Ensures Label.IsInterrupt (fun t => t.rxFinished = some i)
    (fun t => (t.device i).rxSemaphore = some ⟨true⟩) s

/-- However the run goes on, the call for `j` does not get past its first installation of the
handler; it can always go on, and each of its steps gets it further or stops it at an
assertion. -/
structure Refused (E : Setup κ) (s : State κ) (j : κ) : Prop where
  stays : ∀ t, (system E).Leads s t → t.running = some j ∧ ¬ .installIrq0 < t.pc j
  goesOn : ∀ t, (system E).Leads s t → t.stopped = false →
    (∃ rc t', (system E).next t (.init rc) = some t') ∧
      ∀ rc t', (system E).next t (.init rc) = some t' → t'.stopped = true ∨ t.pc j < t'.pc j

/-! ## The interrupts of the first instance -/

theorem txSemaphore_spwTxCallback {arg : κ} {sem : Semaphore}
    (h : (s.device arg).txSemaphore = some sem) :
    ((spwTxCallback s arg).device arg).txSemaphore = some ⟨true⟩ := by
  simp [spwTxCallback, h, Semaphore.release]

theorem rxSemaphore_spwRxCallback {arg : κ} {sem : Semaphore}
    (h : (s.device arg).rxSemaphore = some sem) :
    ((spwRxCallback s arg).device arg).rxSemaphore = some ⟨true⟩ := by
  simp [spwRxCallback, h, Semaphore.release]

theorem txSemaphore_spwRxCallback (s : State κ) (arg k : κ) :
    ((spwRxCallback s arg).device k).txSemaphore = (s.device k).txSemaphore := by
  by_cases hk : k = arg
  · subst hk
    simp [spwRxCallback]
  · rw [spwRxCallback, device_setDevice_of_ne _ _ hk]

/-- What an interrupt of the first instance runs. -/
theorem First.interrupt_eq (h : First E s i) (hpc : s.pc i = .finished) (v : Vector) :
    s.interrupt v = runHandler (raises s .rx) (some i) spwRxCallback
      (runHandler (raises s .tx) (some i) spwTxCallback
        { s with pending := Function.update s.pending v false }) := by
  have hself := h.progress.irqSelf (by rw [hpc]; decide)
  have hobject : (s.device i).spw = some ⟨some i, some i⟩ := by
    rw [h.progress.object, hpc]
    rfl
  simp only [State.interrupt, irqHandler, hself, hobject]
  rfl

/-- **An interrupt answers the deactivations of the first instance.** -/
theorem First.interrupt_answers (h : First E s i) (hpc : s.pc i = .finished) (v : Vector) :
    (s.txDeactivated = some i → ((s.interrupt v).device i).txSemaphore = some ⟨true⟩) ∧
      (s.rxFinished = some i → ((s.interrupt v).device i).rxSemaphore = some ⟨true⟩) := by
  rw [h.interrupt_eq hpc v]
  constructor
  · intro hdone
    have hraises : raises s .tx = true := by
      simp [raises, h.progress.txMask (by rw [hpc]; decide), hdone]
    have hsem := Option.isSome_iff_exists.mp (h.progress.txSemaphore (by rw [hpc]; decide))
    rcases hsem with ⟨sem, hsem⟩
    rw [hraises]
    cases raises s .rx with
    | false => exact txSemaphore_spwTxCallback hsem
    | true => exact (txSemaphore_spwRxCallback _ _ _).trans (txSemaphore_spwTxCallback hsem)
  · intro hdone
    have hraises : raises s .rx = true := by
      simp [raises, h.progress.rxMask (by rw [hpc]; decide), hdone]
    have hu := used_runHandler used_spwTxCallback (raises s .tx) (some i)
      { s with pending := Function.update s.pending v false }
    have hsem := Option.isSome_iff_exists.mp ((hu.device i).rxSemaphore.trans
      (h.progress.rxSemaphore (by rw [hpc]; decide)))
    rcases hsem with ⟨sem, hsem⟩
    rw [hraises]
    exact rxSemaphore_spwRxCallback hsem

theorem txDeactivated_initEffect {k : κ} {rc : Bool} {p : Pc} (hp : p ≠ .txReset) :
    (initEffect E s k rc p).txDeactivated = s.txDeactivated := by
  cases p <;> first | rfl | exact absurd rfl hp

theorem rxFinished_initEffect {k : κ} {rc : Bool} {p : Pc} (hp : p ≠ .rxReset) :
    (initEffect E s k rc p).rxFinished = s.rxFinished := by
  cases p <;> first | rfl | exact absurd rfl hp

/-- **One step keeps a deactivated send list of the first instance**, or answers it. -/
theorem First.keeps_tx (h : First E s i) (hpc : s.pc i = .finished)
    (hdone : s.txDeactivated = some i) {l : Label κ} (hs : Step E s l s') :
    s'.txDeactivated = some i ∨ (s'.device i).txSemaphore = some ⟨true⟩ := by
  cases hs with
  | begin | refuse | send | arm | spinActive | spin | wait | process | rxActivate
  | rxDeactivate => exact .inl hdone
  | init hrun =>
    exact .inl ((txDeactivated_initEffect (h.before_resets hpc hrun).1).trans hdone)
  | txDeactivate _ hnone =>
    rw [hdone] at hnone
    cases hnone
  | interrupt => exact .inr ((h.interrupt_answers hpc _).1 hdone)

/-- **One step keeps a deactivated RX buffer of the first instance**, or answers it. -/
theorem First.keeps_rx (h : First E s i) (hpc : s.pc i = .finished)
    (hdone : s.rxFinished = some i) {l : Label κ} (hs : Step E s l s') :
    s'.rxFinished = some i ∨ (s'.device i).rxSemaphore = some ⟨true⟩ := by
  cases hs with
  | begin | refuse | send | arm | spinActive | spin | wait | process | rxActivate
  | txDeactivate => exact .inl hdone
  | init hrun =>
    exact .inl ((rxFinished_initEffect (h.before_resets hpc hrun).2).trans hdone)
  | rxDeactivate _ hnone =>
    rw [hdone] at hnone
    cases hnone
  | interrupt => exact .inr ((h.interrupt_answers hpc _).2 hdone)

/-- An interrupt that the block raises for the first instance can be taken. -/
theorem First.next_interrupt (h : First E s i) (hpc : s.pc i = .finished)
    (hstopped : s.stopped = false) {q : Part} (hraises : raises s q = true) :
    ∃ l t, Label.IsInterrupt l ∧ (system E).next s l = some t := by
  have hinstalled : s.installed (E.line q) = true := by
    rw [h.progress.installed, hpc]
    cases E.line q <;> decide
  have htake : takeable E s (E.line q) = true := by
    simp [takeable, hinstalled, h.progress.enabled (by rw [hpc]; decide), raised_of_raises hraises]
  exact ⟨_, _, ⟨E.line q, rfl⟩, Init.next_interrupt hstopped htake⟩

/-- What is kept until an interrupt answers it, and raises an interrupt, is answered. -/
theorem First.ensures (h : First E s i) (hpc : s.pc i = .finished) (hstopped : s.stopped = false)
    {P Q : State κ → Prop} (hkeeps : P s → ∀ l t, Step E s l t → P t ∨ Q t)
    (hanswers : P s → ∀ v, Q (s.interrupt v)) {q : Part} (hraises : P s → raises s q = true) :
    (system E).Ensures Label.IsInterrupt P Q s := by
  constructor
  · intro hp l t ht
    exact hkeeps hp l t (step_of_next ht).2
  · rintro hp l t ⟨v, rfl⟩ ht
    cases (step_of_next ht).2 with
    | interrupt => exact hanswers hp v
  · intro hp
    exact h.next_interrupt hpc hstopped (hraises hp)

/-- **The first instance is served** while the program has not stopped. -/
theorem First.served (h : First E s i) (hpc : s.pc i = .finished) (hstopped : s.stopped = false) :
    Served E s i := by
  have htx : s.txMask = true := h.progress.txMask (by rw [hpc]; decide)
  have hrx : s.rxMask = true := h.progress.rxMask (by rw [hpc]; decide)
  constructor
  case link => exact h.progress.link (by rw [hpc]; decide)
  case tx =>
    refine h.ensures hpc hstopped (q := .tx) ?_ ?_ ?_
    · exact fun hdone _ _ hs => h.keeps_tx hpc hdone hs
    · exact fun hdone v => (h.interrupt_answers hpc v).1 hdone
    · exact fun hdone => by simp [raises, htx, hdone]
  case rx =>
    refine h.ensures hpc hstopped (q := .rx) ?_ ?_ ?_
    · exact fun hdone _ _ hs => h.keeps_rx hpc hdone hs
    · exact fun hdone v => (h.interrupt_answers hpc v).2 hdone
    · exact fun hdone => by simp [raises, hrx, hdone]

/-! ## A later call -/

/-- **One step keeps the intruding call before its first installation of the handler.** -/
theorem Intruding.step (hrefuses : E.accepts true = false) (h : Intruding E i j s) {l : Label κ}
    (hs : Step E s l s') : Intruding E i j s' := by
  have hne := h.ne
  rcases h with ⟨hrun, hphase⟩
  rcases hs.cases_on_call with ⟨k, hnone, -⟩ | ⟨k, rc, hrun', -, hmay, hassert, rfl⟩ | ⟨hu, husers⟩
  · rw [hrun] at hnone
    cases hnone
  · obtain rfl : j = k := Option.some.inj (hrun.symm.trans hrun')
    rcases hphase with ⟨hfirst, hpc⟩ | hlater
    · by_cases hself : s.pc j = .setIrqSelf
      · have hlater : Later ((initEffect E s j rc (s.pc j)).advance j) i j :=
          hfirst.redirect hne hrun hself
        exact ⟨hlater.running, .inr hlater⟩
      · have hfirst' : First E ((initEffect E s j rc (s.pc j)).advance j) i :=
          hfirst.other hne hrun hself
        have hpc' : ((initEffect E s j rc (s.pc j)).advance j).pc i = .finished := by
          rw [pc_advance_of_ne _ (Ne.symm hne), pc_initEffect]
          exact hpc
        refine ⟨?_, .inl ⟨hfirst', hpc'⟩⟩
        rcases (hfirst'.others j hne).2 with ⟨hout, -⟩ | ⟨hrunning, -⟩
        · rw [pc_advance_self, pc_initEffect] at hout
          exact absurd hout (Pc.succ_ne_outside _)
        · exact hrunning
    · have hlater' := hlater.init hrefuses hmay hassert
      exact ⟨hlater'.running, .inr hlater'⟩
  · refine ⟨hu.running.trans hrun, ?_⟩
    rcases hphase with ⟨hfirst, hpc⟩ | hlater
    · exact .inl ⟨hfirst.used hu husers, by rw [hu.pc]; exact hpc⟩
    · exact .inr (hlater.used hu)

/-- Whatever RTEMS answers, a call under way can take its next step, which gets it further or
stops it. -/
theorem goesOn_of_running (hstopped : s.stopped = false) (hrun : s.running = some j)
    (hpc : s.pc j ≠ .finished) :
    (∃ rc t', (system E).next s (.init rc) = some t') ∧
      ∀ rc t', (system E).next s (.init rc) = some t' → t'.stopped = true ∨ s.pc j < t'.pc j := by
  constructor
  · have hmay : mayAnswer E s false (s.pc j) = true := by cases s.pc j <;> rfl
    have hnext : next E s (.init false) =
        if initAssert E s j false (s.pc j) then
          some ((initEffect E s j false (s.pc j)).advance j)
        else some { s with stopped := true } := by
      simp only [next, hstopped, Bool.false_eq_true, if_false, step, hrun, hmay, if_true]
    cases hassert : initAssert E s j false (s.pc j) with
    | true => exact ⟨false, _, hnext.trans (by rw [hassert, if_pos rfl])⟩
    | false => exact ⟨false, _, hnext.trans (by rw [hassert, if_neg Bool.false_ne_true])⟩
  · intro rc t' ht'
    have hstep : Step E s (.init rc) t' := (step_of_next ht').2
    cases hstep with
    | init hrun' =>
      obtain rfl := Option.some.inj (hrun.symm.trans hrun')
      right
      rw [pc_advance_self, pc_initEffect]
      exact (Pc.lt_succ_iff hpc).mpr (.inr rfl)
    | refuse => exact .inl rfl

/-- **The intruding call is refused.** -/
theorem Intruding.refused (hrefuses : E.accepts true = false) (h : Intruding E i j s) :
    Refused E s j := by
  have hleads (t : State κ) (ht : (system E).Leads s t) : Intruding E i j t :=
    System.Leads.invariant (P := Intruding E i j)
      (fun _ _ _ hi hs => hi.step hrefuses (step_of_next hs).2) ht h
  have hbefore (t : State κ) (ht : (system E).Leads s t) : ¬ .installIrq0 < t.pc j := by
    have hi := hleads t ht
    rcases hi with ⟨hrun, ⟨hfirst, hpc⟩ | hlater⟩
    · rcases (hfirst.others j (hleads t ht).ne).2 with ⟨-, hnot⟩ | ⟨-, -, hpassed⟩
      · exact absurd hrun hnot
      · exact fun hlt => hpassed (Nat.lt_trans (by decide) hlt)
    · exact hlater.ahead
  constructor
  · exact fun t ht => ⟨(hleads t ht).1, hbefore t ht⟩
  · intro t ht hstopped
    refine goesOn_of_running hstopped (hleads t ht).1 ?_
    intro hpc
    exact hbefore t ht (by rw [hpc]; decide)

/-- The program stops only at an assertion of a call that is under way. -/
def StoppedInv (s : State κ) : Prop := s.stopped = true → ∃ k, s.running = some k

theorem stopped_interrupt (s : State κ) (v : Vector) : (s.interrupt v).stopped = s.stopped := by
  unfold State.interrupt irqHandler
  split
  · rfl
  split
  · rfl
  unfold runHandler
  split <;> split <;> rfl

theorem stoppedInv_of_reachable (h : (system E).Reachable s) : StoppedInv s := by
  refine System.Reachable.invariant (P := StoppedInv) (fun hstopped => by cases hstopped) ?_ h
  intro s l s' _ hs
  have hrun : s.stopped = false := (step_of_next hs).1
  have hstep : Step E s l s' := (step_of_next hs).2
  intro hstopped
  cases hstep with
  | refuse hrunning => exact ⟨_, hrunning⟩
  | interrupt =>
    rw [stopped_interrupt, hrun] at hstopped
    cases hstopped
  | init =>
    simp only [State.advance, stopped_initEffect, hrun] at hstopped
    cases hstopped
  | begin | send | txDeactivate | arm | spinActive | spin | wait | process | rxActivate
  | rxDeactivate =>
    rw [show s.stopped = true from hstopped] at hrun
    cases hrun

/-- **Isolation.** Where RTEMS refuses a handler that is installed already: in every
reachable state, after any sequence of calls, sends and interrupts, each instance whose call
has returned is served, or the call for another instance is under way and refused. -/
theorem instances_isolated (hrefuses : E.accepts true = false) (h : (system E).Reachable s) :
    (∀ i, s.pc i = .finished → Served E s i) ∨
      ∃ i j, j ≠ i ∧ s.pc i = .finished ∧ s.running = some j ∧ Refused E s j := by
  rcases phase_of_reachable (fun _ => hrefuses) h with rfl | ⟨i, hfirst⟩ | ⟨i, j, hlater⟩
  · exact .inl fun i hpc => by cases hpc
  · cases hstopped : s.stopped with
    | false =>
      left
      intro k hk
      obtain rfl := hfirst.eq_of_finished hk
      exact hfirst.served hk hstopped
    | true =>
      rcases stoppedInv_of_reachable h hstopped with ⟨j, hrun⟩
      by_cases hpc : s.pc i = .finished
      · have hintruding : Intruding E i j s := ⟨hrun, .inl ⟨hfirst, hpc⟩⟩
        exact .inr ⟨i, j, hintruding.ne, hpc, hrun, hintruding.refused hrefuses⟩
      · exact .inl fun k hk => absurd (hfirst.eq_of_finished hk ▸ hk) hpc
  · have hintruding : Intruding E i j s := ⟨hlater.running, .inr hlater⟩
    exact .inr ⟨i, j, hlater.ne, hlater.finished, hlater.running, hintruding.refused hrefuses⟩

/-! ## Two instances -/

/-- Two instances, one on each link, with a clock of 100 MHz. -/
def twoInstances : Setup Bool where
  args
    | false => ⟨1, ⟨.spw0, 32, some 2, none, by decide⟩, ⟨.spw0, 33, some 2, none, by decide⟩⟩
    | true => ⟨2, ⟨.spw1, 34, some 10, none, by decide⟩, ⟨.spw0, 35, none, none, by decide⟩⟩
  masterClock _ := 100000000
  accepts := not
  line
    | .link0 | .link1 => .irq0
    | .tx | .rx => .irq1
  stale _ := false
  pending _ := false
  irqEnabled := true

/-- The first instance has sent, its send list is deactivated, and the call for the second
one is at its first installation of the handler. -/
def secondCall : List (Label Bool) :=
  .begin false :: List.replicate 29 (.init true) ++ [.send false, .txDeactivate, .begin true] ++
    List.replicate 7 (.init true)

/-- Before the second call the deactivated list leads to a release; the second call is
refused. -/
theorem twoInstances_isolated :
    (∃ s, (system twoInstances).Reachable s ∧ s.txDeactivated = some false ∧
      Served twoInstances s false) ∧
    ∃ s, (system twoInstances).Reachable s ∧ s.pc false = .finished ∧ s.running = some true ∧
      s.pc true = .installIrq0 ∧
      ((∀ i, s.pc i = .finished → Served twoInstances s i) ∨
        ∃ i j, j ≠ i ∧ s.pc i = .finished ∧ s.running = some j ∧ Refused twoInstances s j) := by
  constructor
  · have hs := (system twoInstances).reachable_get (secondCall.take 32) (by decide)
    refine ⟨_, hs, rfl, ?_⟩
    rcases instances_isolated rfl hs with hserved | ⟨i, j, -, -, hrun, -⟩
    · exact hserved false rfl
    · cases hrun
  · have hs := (system twoInstances).reachable_get secondCall (by decide)
    exact ⟨_, hs, rfl, rfl, rfl, instances_isolated rfl hs⟩

end Samrh71Drivers.Spw.Init
