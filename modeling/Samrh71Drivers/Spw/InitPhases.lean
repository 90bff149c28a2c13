import Samrh71Drivers.Spw.InitOrder

/-!
# The phases of the initialisation

While the call for a second instance takes its first steps, up to the assignment of
`g_spw_irq_self`, everything the first one has done holds on (`First`). That assignment
comes before the handlers are installed: the second call redirects the interrupts to its own
object and is then refused, where RTEMS refuses a handler that is installed already
(`Later`).

## Main definitions

* `First`, `Later` — the phase of the first instance, and that of a second call.
* `phase_of_reachable` — every reachable state is in one of them, or before the first call.
* `DividersPass`, `ClockInv` — which calls have passed the assertions on the bit rates.
* `reach_pc` — a call can come as far as its assertions let it.
* `reach_first`, `reach_second` — how far the first call and a second one can come.
-/

namespace Samrh71Drivers.Spw.Init

open Transition

universe u

/-! ## The phases -/

variable {κ : Type u} {E : Setup κ} {s s' : State κ} {i j : κ} {rc : Bool}

/-- The call for `i` was the first one. Another one has come at most to the assignment of
`g_spw_irq_self`. -/
structure First (E : Setup κ) (s : State κ) (i : κ) : Prop where
  progress : Progress E s i
  begun : .outside < s.pc i
  running : s.running = some i ↔ s.pc i ≠ .finished
  users : ∀ j ∈ users s, j = i ∧ s.pc i = .finished
  started : ∀ j, (s.device j).task.started = true → j = i ∧ s.pc i = .finished
  others : ∀ j, j ≠ i → (s.device j).spw = none ∧
    (s.pc j = .outside ∧ s.running ≠ some j ∨
      s.running = some j ∧ .outside < s.pc j ∧ ¬ .setIrqSelf < s.pc j)

/-- The call for `j` has redirected the interrupts of `i`, and has still to install the
handler that is installed already. -/
structure Later (s : State κ) (i j : κ) : Prop where
  ne : j ≠ i
  finished : s.pc i = .finished
  running : s.running = some j
  redirected : .setIrqSelf < s.pc j
  ahead : ¬ .installIrq0 < s.pc j
  irqSelf : s.irqSelf = some j
  object : (s.device j).spw = none
  installed : s.installed .irq0 = true

/-- The use of the instances keeps the second call where it is. -/
theorem Later.used (h : Later s i j) (hu : Used s s') : Later s' i j := by
  have hf := hu.frame j
  constructor
  case ne => exact h.ne
  case finished => rw [hu.pc]; exact h.finished
  case running => rw [hu.running]; exact h.running
  case redirected => rw [hu.pc]; exact h.redirected
  case ahead => rw [hu.pc]; exact h.ahead
  case irqSelf => rw [hf.irqSelf]; exact h.irqSelf
  case object => rw [hf.spw]; exact h.object
  case installed => rw [hf.installed]; exact h.installed

/-- The steps of the second call after the redirection. -/
theorem Later.pc_cases (h : Later s i j) :
    s.pc j = .clearPending0 ∨ s.pc j = .clearPending1 ∨ s.pc j = .installIrq0 := by
  have hredirected := h.redirected
  have hahead := h.ahead
  revert hredirected hahead
  cases s.pc j <;> decide

variable [DecidableEq κ]

/-- The first call begins. -/
theorem first_begin (i : κ) : First E ((initial E).call i) i := by
  have hobject : (((initial E).call i).device i).spw = none := rfl
  constructor
  case progress =>
    constructor <;> simp +decide [objectAt, hobject]
    case installed =>
      intro v
      constructor
      · intro hinstalled
        cases hinstalled
      · intro hlt
        cases v <;> exact absurd hlt (by decide)
    case pending => rintro (_ | _) hlt <;> exact absurd hlt (by decide)
    case stale => rintro (_ | _ | _ | _) <;> simp +decide [State.call, initial]
  case begun => simp +decide
  case running => simp +decide [State.call]
  case users =>
    intro j hj
    simp [users, State.call, initial] at hj
  case started =>
    intro j hj
    cases hj
  case others =>
    intro j hne
    refine ⟨rfl, .inl ⟨pc_call_of_ne _ hne, ?_⟩⟩
    intro hrun
    exact hne (Option.some.inj hrun).symm

/-- Only the first call has returned. -/
theorem First.eq_of_finished (h : First E s i) {k : κ} (hk : s.pc k = .finished) : k = i := by
  by_contra hne
  rcases (h.others k hne).2 with ⟨hpc, -⟩ | ⟨-, -, hpc⟩
  · rw [hk] at hpc
    cases hpc
  · exact hpc (by rw [hk]; decide)

/-- The use of the instances keeps the phase. -/
theorem First.used (h : First E s i) (hu : Used s s')
    (husers : ∀ j ∈ Init.users s', j ∈ Init.users s ∨ s.pc j = .finished ∨
      (s.device j).task.started = true) : First E s' i := by
  constructor
  case progress => exact h.progress.frame (hu.frame i)
  case begun => rw [hu.pc]; exact h.begun
  case running => rw [hu.pc, hu.running]; exact h.running
  case users =>
    intro k hk
    rw [hu.pc]
    rcases husers k hk with hk | hk | hk
    · exact h.users k hk
    · exact ⟨h.eq_of_finished hk, h.eq_of_finished hk ▸ hk⟩
    · exact h.started k hk
  case started =>
    intro k hk
    rw [hu.pc]
    exact h.started k ((hu.device k).started ▸ hk)
  case others =>
    intro k hne
    rw [hu.pc, hu.running, (hu.device k).spw]
    exact h.others k hne

/-- The next step of the first call. -/
theorem First.init (h : First E s i) (hrun : s.running = some i) :
    First E ((initEffect E s i rc (s.pc i)).advance i) i := by
  have hp := h.running.mp hrun
  have hpc : ((initEffect E s i rc (s.pc i)).advance i).pc i = (s.pc i).succ := by simp
  have hrunning : ((initEffect E s i rc (s.pc i)).advance i).running =
      if (s.pc i).succ = .finished then none else some i := by
    simp [State.advance]
  constructor
  case progress => exact h.progress.init hp
  case begun =>
    rw [hpc, Pc.lt_succ_iff hp]
    exact .inl h.begun
  case running =>
    rw [hpc, hrunning]
    split
    case isTrue hlast => simp [hlast]
    case isFalse hlast => simp [hlast]
  case users =>
    intro k hk
    exact absurd (h.users k (users_initEffect (s.pc i) hk)).2 hp
  case started =>
    intro k hk
    by_cases hki : k = i
    · subst hki
      refine ⟨rfl, ?_⟩
      rw [hpc]
      change ((initEffect E s k rc (s.pc k)).device k).task.started = true at hk
      rw [task_initEffect] at hk
      split at hk
      case isTrue => cases hk
      split at hk
      case isTrue hlast =>
        rw [hlast]
        rfl
      case isFalse => exact absurd (h.started k hk).2 hp
    · change ((initEffect E s i rc (s.pc i)).device k).task.started = true at hk
      rw [device_initEffect_of_ne _ _ _ _ _ hki] at hk
      exact absurd (h.started k hk).1 hki
  case others =>
    intro k hne
    rcases h.others k hne with ⟨hobject, ⟨hout, -⟩ | ⟨hrun', -⟩⟩
    · refine ⟨?_, .inl ⟨?_, ?_⟩⟩
      · change ((initEffect E s i rc (s.pc i)).device k).spw = none
        rw [device_initEffect_of_ne _ _ _ _ _ hne]
        exact hobject
      · rw [pc_advance_of_ne _ hne, pc_initEffect]
        exact hout
      · rw [hrunning]
        split
        · intro heq
          cases heq
        · exact fun heq => hne (Option.some.inj heq).symm
    · rw [hrun] at hrun'
      exact absurd (Option.some.inj hrun').symm hne

variable (E s j rc) in
/-- What the first steps of a call change. -/
theorem initEffect_early {p : Pc}
    (hp : p = .configure ∨ p = .readMasterClock ∨ p = .computeDividers ∨ p = .initPmc) :
    ∃ device clock dividers peripheral, initEffect E s j rc p = { s with
        device := device, masterClockFrequency := clock, dividers := dividers
        peripheralClock := peripheral } ∧
      (∀ k, k ≠ j → device k = s.device k) ∧ (device j).spw = (s.device j).spw ∧
      (device j).task = (s.device j).task := by
  rcases hp with rfl | rfl | rfl | rfl
  · exact ⟨_, _, _, _, rfl, fun k hk => Function.update_of_ne hk _ _, by simp, by simp⟩
  all_goals exact ⟨_, _, _, _, rfl, fun _ _ => rfl, rfl, rfl⟩

/-- The next step of another call, before the assignment of `g_spw_irq_self`. -/
theorem First.other (h : First E s i) (hne : j ≠ i) (hrun : s.running = some j)
    (hbefore : s.pc j ≠ .setIrqSelf) :
    First E ((initEffect E s j rc (s.pc j)).advance j) i := by
  have hfinished : s.pc i = .finished := by
    by_contra hpc
    rw [h.running.mpr hpc] at hrun
    exact hne (Option.some.inj hrun).symm
  rcases h.others j hne with ⟨hobject, ⟨-, hnot⟩ | ⟨-, hbegun, hpassed⟩⟩
  · exact absurd hrun hnot
  have hearly : s.pc j = .configure ∨ s.pc j = .readMasterClock ∨ s.pc j = .computeDividers ∨
      s.pc j = .initPmc := by
    revert hbegun hpassed hbefore
    cases s.pc j <;> decide
  have hnext : (s.pc j).succ ≠ .finished ∧ .outside < (s.pc j).succ ∧
      ¬ .setIrqSelf < (s.pc j).succ := by
    rcases hearly with heq | heq | heq | heq <;> rw [heq] <;> decide
  rcases initEffect_early E s j rc hearly with
    ⟨device, clock, dividers, peripheral, heq, hdevice, hspw, htask⟩
  rw [heq, State.advance, if_neg hnext.1]
  have hi : device i = s.device i := hdevice i (Ne.symm hne)
  have hpc (k : κ) (hk : k ≠ j) : Function.update s.pc j (s.pc j).succ k = s.pc k :=
    Function.update_of_ne hk _ _
  constructor
  case progress =>
    refine h.progress.frame ⟨hpc i (Ne.symm hne), ?_, rfl, fun _ hv => hv, rfl, rfl, ?_, rfl, rfl,
      rfl, rfl, rfl, ?_, ?_⟩
    · intro a ha
      change Configured a (device i)
      rw [hi]
      exact ha
    · exact congrArg PrivateData.spw hi
    · exact congrArg (fun d => d.txSemaphore.isSome) hi
    · exact congrArg (fun d => d.rxSemaphore.isSome) hi
  case begun =>
    change Pc.outside < Function.update s.pc j (s.pc j).succ i
    rw [hpc i (Ne.symm hne)]
    exact h.begun
  case running =>
    refine ⟨fun hrun' => absurd (Option.some.inj hrun') hne, fun hpc' => ?_⟩
    exact absurd ((hpc i (Ne.symm hne)).trans hfinished) hpc'
  case users =>
    intro k hk
    exact ⟨(h.users k hk).1, (hpc i (Ne.symm hne)).trans hfinished⟩
  case started =>
    intro k hk
    change (device k).task.started = true at hk
    refine ⟨?_, (hpc i (Ne.symm hne)).trans hfinished⟩
    by_cases hkj : k = j
    · subst hkj
      rw [htask] at hk
      exact (h.started k hk).1
    · rw [hdevice k hkj] at hk
      exact (h.started k hk).1
  case others =>
    intro k hki
    by_cases hkj : k = j
    · subst hkj
      refine ⟨hspw.trans hobject, .inr ⟨rfl, ?_⟩⟩
      simpa only [Function.update_self] using hnext.2
    · refine ⟨(congrArg PrivateData.spw (hdevice k hkj)).trans (h.others k hki).1, .inl ?_⟩
      rcases (h.others k hki).2 with ⟨hout, -⟩ | ⟨hrun', -⟩
      · exact ⟨(hpc k hkj).trans hout, fun heq' => hkj (Option.some.inj heq').symm⟩
      · rw [hrun] at hrun'
        exact absurd (Option.some.inj hrun').symm hkj

/-- Another call begins, when the first one has returned. -/
theorem First.begin (h : First E s i) (hrun : s.running = none) (hout : s.pc j = .outside) :
    First E (s.call j) i := by
  have hfinished : s.pc i = .finished := by
    by_contra hpc
    rw [h.running.mpr hpc] at hrun
    cases hrun
  have hne : i ≠ j := by
    rintro rfl
    rw [hout] at hfinished
    cases hfinished
  have hpc : (s.call j).pc i = s.pc i := pc_call_of_ne s hne
  constructor
  case progress =>
    exact h.progress.frame ⟨hpc, fun _ ha => ha, rfl, fun _ hv => hv, rfl, rfl, rfl, rfl, rfl,
      rfl, rfl, rfl, rfl, rfl⟩
  case begun =>
    rw [hpc]
    exact h.begun
  case running =>
    refine ⟨fun hrun' => absurd (Option.some.inj hrun').symm hne, fun hpc' => ?_⟩
    exact absurd (hpc.trans hfinished) hpc'
  case users =>
    intro k hk
    exact ⟨(h.users k hk).1, hpc.trans hfinished⟩
  case started =>
    intro k hk
    exact ⟨(h.started k hk).1, hpc.trans hfinished⟩
  case others =>
    intro k hki
    refine ⟨(h.others k hki).1, ?_⟩
    by_cases hkj : k = j
    · subst hkj
      refine .inr ⟨rfl, ?_⟩
      rw [pc_call_self]
      decide
    · refine .inl ⟨?_, fun heq => hkj (Option.some.inj heq).symm⟩
      rcases (h.others k hki).2 with ⟨hpck, -⟩ | ⟨hrun', -⟩
      · exact (pc_call_of_ne s hkj).trans hpck
      · rw [hrun] at hrun'
        cases hrun'

/-- **Redirection.** The assignment of `g_spw_irq_self` in the call for another instance. -/
theorem First.redirect (h : First E s i) (hne : j ≠ i) (hrun : s.running = some j)
    (hpc : s.pc j = .setIrqSelf) :
    Later ((initEffect E s j rc (s.pc j)).advance j) i j := by
  have hfinished : s.pc i = .finished := by
    by_contra hpci
    rw [h.running.mpr hpci] at hrun
    exact hne (Option.some.inj hrun).symm
  rw [hpc]
  constructor
  case ne => exact hne
  case finished => exact (Function.update_of_ne (Ne.symm hne) _ _).trans hfinished
  case running =>
    change (if (s.pc j).succ = .finished then none else some j) = some j
    rw [hpc]
    rfl
  case redirected | ahead =>
    simp only [State.advance, Function.update_self, pc_initEffect, hpc]
    decide
  case irqSelf => rfl
  case object => exact (h.others j hne).1
  case installed => exact (h.progress.installed .irq0).mpr (by rw [hfinished]; decide)

/-- **The second call is refused.** It comes no further than its first installation of a
handler. -/
theorem Later.init (hrefuses : E.accepts true = false) (h : Later s i j)
    (hmay : mayAnswer E s rc (s.pc j) = true) (hassert : initAssert E s j rc (s.pc j) = true) :
    Later ((initEffect E s j rc (s.pc j)).advance j) i j := by
  rcases h.pc_cases with hpc | hpc | hpc
  case inr.inr =>
    rw [hpc] at hmay hassert
    obtain rfl : rc = true := hassert
    simp [mayAnswer, h.installed, hrefuses] at hmay
  all_goals
    constructor
    case ne => exact h.ne
    case finished =>
      simp only [State.advance, pc_initEffect, Function.update_of_ne (Ne.symm h.ne)]
      exact h.finished
    case running => simp +decide [State.advance, hpc]
    case redirected | ahead =>
      simp only [State.advance, Function.update_self, pc_initEffect, hpc]
      decide
    case irqSelf => rw [hpc]; exact h.irqSelf
    case object => rw [hpc]; exact h.object
    case installed => rw [hpc]; exact h.installed

/-- **The phases.** Where RTEMS refuses a handler that is installed already, or there is one
instance only, every reachable state is before the first call, in the phase of the first
instance, or in that of a second call that is refused. -/
theorem phase_of_reachable (hrefuses : (∃ i j : κ, j ≠ i) → E.accepts true = false)
    (h : (system E).Reachable s) :
    s = initial E ∨ (∃ i, First E s i) ∨ ∃ i j, Later s i j := by
  refine System.Reachable.invariant
    (P := fun s => s = initial E ∨ (∃ i, First E s i) ∨ ∃ i j, Later s i j) (.inl rfl) ?_ h
  intro s l s' hphase hs
  have hstep : Step E s l s' := (step_of_next hs).2
  rcases hphase with rfl | ⟨i, hfirst⟩ | ⟨i, j, hlater⟩
  case inl =>
    cases hstep with
    | begin => exact .inr (.inl ⟨_, first_begin _⟩)
    | init hrun | refuse hrun => cases hrun
    | send hpc => cases hpc
    | txDeactivate hlists => cases hlists
    | arm htask | spinActive htask | spin htask | wait htask | process htask => cases htask
    | rxActivate hqueued => cases hqueued
    | rxDeactivate hactive => cases hactive
    | interrupt htake => simp [takeable, initial] at htake
  case inr.inl =>
    rcases hstep.cases_on_call with ⟨j, hrun, hout, rfl⟩ | ⟨j, rc, hrun, -, -, -, rfl⟩ |
      ⟨hu, husers⟩
    · exact .inr (.inl ⟨i, hfirst.begin hrun hout⟩)
    · by_cases hji : j = i
      · subst hji
        exact .inr (.inl ⟨j, hfirst.init hrun⟩)
      · by_cases hpc : s.pc j = .setIrqSelf
        · exact .inr (.inr ⟨i, j, hfirst.redirect hji hrun hpc⟩)
        · exact .inr (.inl ⟨i, hfirst.other hji hrun hpc⟩)
    · exact .inr (.inl ⟨i, hfirst.used hu husers⟩)
  case inr.inr =>
    rcases hstep.cases_on_call with ⟨k, hrun, -⟩ | ⟨k, rc, hrun, -, hmay, hassert, rfl⟩ | ⟨hu, -⟩
    · rw [hlater.running] at hrun
      cases hrun
    · obtain rfl : j = k := Option.some.inj (hlater.running.symm.trans hrun)
      exact .inr (.inr ⟨i, j, hlater.init (hrefuses ⟨i, j, hlater.ne⟩) hmay hassert⟩)
    · exact .inr (.inr ⟨i, j, hlater.used hu⟩)

/-! ## Which calls have passed the assertions on the bit rates -/

/-- The assertions on the bit rates let the call for `i` pass. -/
def DividersPass (E : Setup κ) (i : κ) : Prop :=
  (txDividers (E.masterClock i) (E.args i).deviceConfiguration.linkSpeed).isOk = true

/-- The clock frequency is that of the call under way, and a call that has gone past its
assertions on the bit rates has passed them. -/
structure ClockInv (E : Setup κ) (s : State κ) : Prop where
  clock : ∀ k, s.running = some k → .readMasterClock < s.pc k →
    s.masterClockFrequency = E.masterClock k
  passed : ∀ k, .computeDividers < s.pc k → DividersPass E k

theorem masterClock_initEffect (rc : Bool) (p : Pc) :
    (initEffect E s i rc p).masterClockFrequency =
      if p = .readMasterClock then E.masterClock i else s.masterClockFrequency := by
  cases p <;> rfl

/-- The call that is under way has not returned. -/
def RunningInv (s : State κ) : Prop := ∀ k, s.running = some k → s.pc k ≠ .finished

theorem RunningInv.step {l : Label κ} (h : RunningInv s) (hs : Step E s l s') :
    RunningInv s' := by
  rcases hs.cases_on_call with ⟨i, -, -, rfl⟩ | ⟨i, rc, -, -, -, -, rfl⟩ | ⟨hu, -⟩
  · intro k hk
    cases hk
    simp
  · intro k hk
    simp only [State.advance, pc_initEffect] at hk ⊢
    split at hk
    case isTrue => cases hk
    case isFalse hlast =>
      cases hk
      simpa using hlast
  · intro k hk
    rw [hu.pc]
    exact h k (hu.running ▸ hk)

/-- **One step keeps the clock invariant.** -/
theorem ClockInv.step {l : Label κ} (h : ClockInv E s) (hr : RunningInv s)
    (hs : Step E s l s') : ClockInv E s' := by
  rcases hs.cases_on_call with ⟨i, -, -, rfl⟩ | ⟨i, rc, hrun, -, -, hassert, rfl⟩ | ⟨hu, -⟩
  · constructor
    · intro k hk hlt
      cases hk
      rw [pc_call_self] at hlt
      exact absurd hlt (by decide)
    · intro k hlt
      by_cases hki : k = i
      · subst hki
        rw [pc_call_self] at hlt
        exact absurd hlt (by decide)
      · rw [pc_call_of_ne s hki] at hlt
        exact h.passed k hlt
  · have hp := hr i hrun
    constructor
    · intro k hk hlt
      obtain rfl : k = i := eq_of_running_advance hk
      change (initEffect E s k rc (s.pc k)).masterClockFrequency = _
      rw [masterClock_initEffect]
      split
      case isTrue => rfl
      case isFalse hne => exact h.clock k hrun (lt_of_lt_advance hp hlt hne)
    · intro k hlt
      by_cases hki : k = i
      · subst hki
        simp only [pc_advance_self, pc_initEffect, Pc.lt_succ_iff hp] at hlt
        rcases hlt with hlt | heq
        · exact h.passed k hlt
        · rw [← heq] at hassert
          have hclock := h.clock k hrun (by rw [← heq]; decide)
          rw [initAssert, hclock] at hassert
          exact hassert
      · rw [pc_advance_of_ne _ hki, pc_initEffect] at hlt
        exact h.passed k hlt
  · have hclock : s'.masterClockFrequency = s.masterClockFrequency := by rw [hu.rest]
    constructor
    · rw [hu.pc, hu.running, hclock]
      exact h.clock
    · rw [hu.pc]
      exact h.passed

theorem runningInv_of_reachable (h : (system E).Reachable s) : RunningInv s := by
  refine System.Reachable.invariant (P := RunningInv) ?_ ?_ h
  · intro k hk
    cases hk
  · intro s l s' hi hs
    exact hi.step (step_of_next hs).2

theorem clockInv_of_reachable (h : (system E).Reachable s) : ClockInv E s := by
  refine System.ReachableWhen.invariant (P := ClockInv E) ?_ ?_ h
  · refine ⟨fun k hk => ?_, fun k hlt => ?_⟩
    · cases hk
    · change Pc.computeDividers < Pc.outside at hlt
      exact absurd hlt (by decide)
  · intro s l s' hr hi _ hs
    exact hi.step (runningInv_of_reachable hr) (step_of_next hs).2

/-! ## How far a call can come -/

/-- **A call can come as far as its assertions let it**, while `Q` holds, where each step
keeps `Q` and RTEMS can answer its call with success. -/
theorem reach_pc {k : κ} {target : Pc} {Q : State κ → Prop} (hpass : DividersPass E k)
    (hmay : ∀ s, Q s → s.pc k < target → mayAnswer E s true (s.pc k) = true)
    (hstep : ∀ s, Q s → s.running = some k → s.pc k < target →
      Q ((initEffect E s k true (s.pc k)).advance k)) (n : ℕ) :
    ∀ s, (system E).Reachable s → s.stopped = false → (n ≠ 0 → s.running = some k) → Q s →
      (s.pc k).ctorIdx + n = target.ctorIdx →
        ∃ t, (system E).Reachable t ∧ t.stopped = false ∧ Q t ∧ t.pc k = target := by
  induction n with
  | zero =>
    intro s hr hrun _ hq hn
    exact ⟨s, hr, hrun, hq, Pc.ctorIdx_injective hn⟩
  | succ n ih =>
    intro s hr hstopped hrunning hq hn
    have hrun := hrunning (Nat.succ_ne_zero n)
    have hlt : s.pc k < target := by
      rw [Pc.lt_iff]
      omega
    have hp := runningInv_of_reachable hr k hrun
    have hassert : initAssert E s k true (s.pc k) = true := by
      cases hpc : s.pc k
      case computeDividers =>
        have hclock := (clockInv_of_reachable hr).clock k hrun (by rw [hpc]; decide)
        rw [initAssert, hclock]
        exact hpass
      all_goals rfl
    have hnext : next E s (.init true) = some ((initEffect E s k true (s.pc k)).advance k) := by
      simp only [next, hstopped, Bool.false_eq_true, if_false, step, hrun, hmay s hq hlt, hassert,
        if_true]
    have hpc : ((initEffect E s k true (s.pc k)).advance k).pc k = (s.pc k).succ := by
      simp [State.advance]
    have hidx := Pc.ctorIdx_succ hp
    refine ih _ (System.Reachable.step hr hnext) ?_ ?_ (hstep s hq hrun hlt) ?_
    · simpa [State.advance] using hstopped
    · intro hn'
      have hlast : (s.pc k).succ ≠ .finished := by
        intro heq
        rw [heq] at hidx
        have hle : target.ctorIdx ≤ Pc.finished.ctorIdx := by cases target <;> decide
        omega
      simp [State.advance, hlast]
    · rw [hpc, hidx]
      omega

/-- What holds while only the call for `i` takes steps: the TX semaphore has its token, and
nothing is with the block. -/
structure Undisturbed (E : Setup κ) (i : κ) (s : State κ) : Prop where
  first : First E s i
  alone : ∀ k, s.running = some k → k = i
  txSemaphore : .createTxSemaphore < s.pc i → (s.device i).txSemaphore = some ⟨true⟩
  users : users s = []

theorem users_initEffect_eq_nil {rc : Bool} (p : Pc) (h : users s = []) :
    users (initEffect E s i rc p) = [] := by
  refine List.eq_nil_iff_forall_not_mem.mpr fun k hk => ?_
  have hold := users_initEffect p hk
  rw [h] at hold
  cases hold

theorem Undisturbed.init (h : Undisturbed E i s) (hrun : s.running = some i) :
    Undisturbed E i ((initEffect E s i true (s.pc i)).advance i) := by
  have hp := h.first.running.mp hrun
  constructor
  case first => exact h.first.init hrun
  case alone =>
    intro k hk
    exact eq_of_running_advance hk
  case txSemaphore =>
    intro hpassed
    change ((initEffect E s i true (s.pc i)).device i).txSemaphore = _
    rw [txSemaphore_initEffect]
    split
    case isTrue => rfl
    case isFalse hne => exact h.txSemaphore (lt_of_lt_advance hp hpassed hne)
  case users => exact users_initEffect_eq_nil _ h.users

/-- **The first call can come to every step**, where RTEMS accepts a handler that is not
installed. -/
theorem reach_first (haccepts : E.accepts false = true) (hpass : DividersPass E i) (target : Pc)
    (htarget : target ≠ .outside) : ∃ t, (system E).Reachable t ∧ t.stopped = false ∧
      Undisturbed E i t ∧ t.pc i = target := by
  have hbegin : (system E).Reachable ((initial E).call i) :=
    System.Reachable.step (l := .begin i) .init rfl
  refine reach_pc hpass (Q := Undisturbed E i) ?_ (fun s hq hrun _ => hq.init hrun)
    (target.ctorIdx - 1) _ hbegin rfl (fun _ => rfl) ?_ ?_
  · intro s hq _
    have hnot (v : Vector) (hpc : s.pc i = installPc v) : s.installed v = false := by
      have hiff := hq.first.progress.installed v
      rw [hpc, Pc.lt_iff] at hiff
      exact Bool.eq_false_iff.mpr fun htrue => Nat.lt_irrefl _ (hiff.mp htrue)
    cases hpc : s.pc i
    case installIrq0 => simp [mayAnswer, hnot .irq0 hpc, haccepts]
    case installIrq1 => simp [mayAnswer, hnot .irq1 hpc, haccepts]
    all_goals rfl
  · refine ⟨first_begin i, fun k hk => (Option.some.inj hk).symm, fun hlt => ?_, rfl⟩
    rw [pc_call_self] at hlt
    exact absurd hlt (by decide)
  · rw [pc_call_self]
    revert htarget
    cases target <;> decide

/-- What holds while the call for `j` takes its first steps, and nothing uses the
instance `i`. -/
structure Waiting (E : Setup κ) (i : κ) (s : State κ) : Prop where
  first : First E s i
  finished : s.pc i = .finished
  txSemaphore : (s.device i).txSemaphore = some ⟨true⟩
  users : users s = []

theorem Waiting.init (h : Waiting E i s) (hne : j ≠ i) (hrun : s.running = some j)
    (hlt : s.pc j < .setIrqSelf) : Waiting E i ((initEffect E s j true (s.pc j)).advance j) := by
  constructor
  case first =>
    refine h.first.other hne hrun fun heq => ?_
    rw [heq] at hlt
    exact absurd hlt (by decide)
  case finished =>
    rw [pc_advance_of_ne _ (Ne.symm hne), pc_initEffect]
    exact h.finished
  case txSemaphore =>
    change ((initEffect E s j true (s.pc j)).device i).txSemaphore = _
    rw [device_initEffect_of_ne _ _ _ _ _ (Ne.symm hne)]
    exact h.txSemaphore
  case users => exact users_initEffect_eq_nil _ h.users

/-- **A second call can come to the assignment of `g_spw_irq_self`.** -/
theorem reach_second (haccepts : E.accepts false = true) (hi : DividersPass E i)
    (hj : DividersPass E j) (hne : j ≠ i) : ∃ t, (system E).Reachable t ∧ t.stopped = false ∧
      Waiting E i t ∧ t.running = some j ∧ t.pc j = .setIrqSelf := by
  rcases reach_first haccepts hi .finished (by decide) with ⟨s, hs, hstopped, hq, hpc⟩
  have hrun : s.running = none := by
    cases hrun : s.running with
    | none => rfl
    | some k =>
      have hk := hq.alone k hrun
      rw [hk] at hrun
      exact absurd hpc (hq.first.running.mp hrun)
  have hout : s.pc j = .outside := by
    rcases (hq.first.others j hne).2 with ⟨hout, -⟩ | ⟨hrun', -⟩
    · exact hout
    · rw [hrun] at hrun'
      cases hrun'
  have hbegin : (system E).Reachable (s.call j) := by
    refine System.Reachable.step (l := .begin j) hs ?_
    change next E s (.begin j) = _
    simp [next, hstopped, step, hrun, hout]
  have hmay : ∀ s : State κ, Waiting E i s → s.pc j < .setIrqSelf →
      mayAnswer E s true (s.pc j) = true := by
    intro s _ hlt
    cases hpc : s.pc j
    case installIrq0 | installIrq1 =>
      rw [hpc] at hlt
      exact absurd hlt (by decide)
    all_goals rfl
  have hstart : Waiting E i (s.call j) :=
    ⟨hq.first.begin hrun hout, (pc_call_of_ne s (Ne.symm hne)).trans hpc,
      hq.txSemaphore (by rw [hpc]; decide), hq.users⟩
  rcases reach_pc hj hmay (fun s hq hrun hlt => hq.init hne hrun hlt) 4 _ hbegin hstopped
    (fun _ => rfl) hstart (by rw [pc_call_self]; rfl) with ⟨t, ht, hstopped', hwait, hpc'⟩
  refine ⟨t, ht, hstopped', hwait, ?_, hpc'⟩
  rcases (hwait.first.others j hne).2 with ⟨hout', -⟩ | ⟨hrunning, -⟩
  · rw [hpc'] at hout'
    cases hout'
  · exact hrunning

end Samrh71Drivers.Spw.Init
