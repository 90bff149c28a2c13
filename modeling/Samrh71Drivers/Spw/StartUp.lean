import Samrh71Drivers.Spw.InitPhases
import Samrh71Drivers.Spw.Rx
import Samrh71Drivers.Spw.Tx

/-!
# Interrupts during the initialisation

`init_nvic_irq` sets `g_spw_irq_self`, installs the handlers and enables interrupts, and only
then is the object initialised. What is pending is cleared before, so an interrupt is taken
too early only where the block raises it anew: from before, until its parts are reset, or for
a first instance while the call for a second one is under way. `startUp_iff` has the exact
condition.

The semaphores are never released too early: the transmitter and the receiver are reset
before the callbacks are registered, and nothing is handed to them before the call returns.
So they are as they were created when sending and receiving start (`init_returned`).

## Main definitions

* `Call.Ready`, `ReadyForInterrupts` — an interrupt finds what it uses initialised.
* `First.object_ready`, `First.release_ready` — what the interrupts of the first instance find.
* `Fresh`, `init_returned` — what the first call leaves.
* `startUp_iff` — when no interrupt is taken too early.
-/

namespace Samrh71Drivers.Spw.Init

open Transition

universe u v

variable {κ : Type u} {E : Setup κ} {s s' : State κ} {i j : κ}

/-- What a call in interrupt context uses is there. -/
def Call.Ready (s : State κ) : Call κ → Prop
  | .handleInterrupt i => (s.device i).spw.isSome = true
  | .releaseTxSemaphore i => (s.device i).txSemaphore.isSome = true
  | .releaseRxSemaphore i => (s.device i).rxSemaphore.isSome = true

/-! ## What an interrupt finds -/

/-- A call under way raises no interrupt of its own, and keeps those from before that it has
not reset. -/
theorem First.stale_of_raises (h : First E s i) (q : Part) (hp : s.pc i ≠ .finished)
    (hr : raises s q = true) : E.stale q = true ∧ ¬ resetPc q < s.pc i := by
  have hnone (k : κ) : k ∉ Init.users s := fun hk => hp (h.users k hk).2
  have htx : s.txDeactivated.isSome = false := by
    cases hdone : s.txDeactivated with
    | none => rfl
    | some k => exact absurd (by simp [Init.users, hdone]) (hnone k)
  have hrx : s.rxFinished.isSome = false := by
    cases hdone : s.rxFinished with
    | none => rfl
    | some k => exact absurd (by simp [Init.users, hdone]) (hnone k)
  apply (h.progress.stale q).mp
  cases q
  case link0 | link1 => exact hr
  case tx => simpa [raises, htx] using hr
  case rx => simpa [raises, hrx] using hr

/-- **No interrupt can be taken** during the first call once its pending bit is cleared, while
every part that raised interrupts from before is reset. -/
theorem First.not_takeable (h : First E s i) (hp : s.pc i ≠ .finished) {v : Vector}
    (hcleared : clearPc v < s.pc i) (hquiet : ∀ q, E.stale q = true → resetPc q < s.pc i) :
    takeable E s v = false := by
  have hpending : s.pending v = false := h.progress.pending v hcleared
  have hraised : raised E s v = false := by
    simp only [raised, List.any_eq_false, Bool.and_eq_true, not_and]
    intro q _ _ hraises
    rcases h.stale_of_raises q hp hraises with ⟨hstale, hnot⟩
    exact hnot (hquiet q hstale)
  simp [takeable, hpending, hraised]

/-- A semaphore is released where a part of the block raises an interrupt and the object
has a handler for it. -/
theorem release_of_mem {c : Call κ} (hc : c ∈ irqCalls s) (hrelease : ∀ k, c ≠ .handleInterrupt k) :
    ∃ self o, (s.device self).spw = some o ∧
      (raises s .tx = true ∧ (∃ a, o.txHandler = some a ∧ c = .releaseTxSemaphore a) ∨
        raises s .rx = true ∧ ∃ a, o.rxHandler = some a ∧ c = .releaseRxSemaphore a) := by
  unfold irqCalls at hc
  split at hc
  · simp at hc
  · rename_i self _
    rcases List.mem_cons.mp hc with rfl | hc
    · exact absurd rfl (hrelease self)
    · split at hc
      · simp at hc
      · rename_i o hobject
        refine ⟨self, o, hobject, ?_⟩
        rcases List.mem_append.mp hc with hc | hc
        · split at hc
          case isTrue hraises =>
            simp only [Option.mem_toList, Option.map_eq_some_iff] at hc
            rcases hc with ⟨a, ha, rfl⟩
            exact .inl ⟨hraises, a, ha, rfl⟩
          case isFalse => cases hc
        · split at hc
          case isTrue hraises =>
            simp only [Option.mem_toList, Option.map_eq_some_iff] at hc
            rcases hc with ⟨a, ha, rfl⟩
            exact .inr ⟨hraises, a, ha, rfl⟩
          case isFalse => cases hc

theorem irqSelf_of_mem {k : κ} (hc : .handleInterrupt k ∈ irqCalls s) : s.irqSelf = some k := by
  unfold irqCalls at hc
  split at hc
  · cases hc
  · rename_i self hself
    rcases List.mem_cons.mp hc with heq | hc
    · cases heq
      exact hself
    · split at hc
      · cases hc
      · rcases List.mem_append.mp hc with hc | hc
        · split at hc
          case isTrue => simp at hc
          case isFalse => cases hc
        · split at hc
          case isTrue => simp at hc
          case isFalse => cases hc

/-- **The semaphores are there when they are released**, in the phase of the first
instance: its callbacks are registered after the resets. -/
theorem First.release_ready (h : First E s i) {c : Call κ} (hc : c ∈ irqCalls s)
    (hrelease : ∀ k, c ≠ .handleInterrupt k) : c.Ready s := by
  rcases release_of_mem hc hrelease with ⟨self, o, hobject, hcall⟩
  have hself : self = i := by
    by_contra hne
    rw [(h.others self hne).1] at hobject
    cases hobject
  subst hself
  rw [h.progress.object, objectAt] at hobject
  split at hobject
  case isFalse => cases hobject
  cases hobject
  have hfinished (q : Part) (hraises : raises s q = true) (hpassed : resetPc q < s.pc self) :
      s.pc self = .finished := by
    by_contra hp
    exact (h.stale_of_raises q hp hraises).2 hpassed
  rcases hcall with ⟨hraises, a, ha, rfl⟩ | ⟨hraises, a, ha, rfl⟩
  · dsimp only at ha
    split at ha
    case isFalse => cases ha
    case isTrue hregistered =>
      cases ha
      refine h.progress.txSemaphore ?_
      rw [hfinished .tx hraises (Nat.lt_trans (by decide) hregistered)]
      decide
  · dsimp only at ha
    split at ha
    case isFalse => cases ha
    case isTrue hregistered =>
      cases ha
      refine h.progress.rxSemaphore ?_
      rw [hfinished .rx hraises (Nat.lt_trans (by decide) hregistered)]
      decide

/-- After the redirection the interrupts find no object. -/
theorem Later.irqCalls_eq (h : Later s i j) : irqCalls s = [.handleInterrupt j] := by
  simp [irqCalls, h.irqSelf, h.object]

variable [DecidableEq κ]

/-- No interrupt that can be taken uses anything that is not there. -/
def ReadyForInterrupts (E : Setup κ) (s : State κ) : Prop :=
  ∀ v s', next E s (.interrupt v) = some s' → ∀ c ∈ irqCalls s, c.Ready s

/-- An interrupt that can be taken has its handler installed. -/
theorem installed_of_next {v : Vector} (h : next E s (.interrupt v) = some s') :
    takeable E s v = true ∧ s.installed v = true := by
  cases (step_of_next h).2 with
  | interrupt htake =>
    refine ⟨htake, ?_⟩
    simp only [takeable, Bool.and_eq_true] at htake
    exact htake.1.1

/-- **The first instance and its interrupts.** Where the block raises none from before, an
interrupt is taken only when the object is initialised. -/
theorem First.object_ready (h : First E s i) (hstale : ∀ q, E.stale q = false) {v : Vector}
    (hnext : next E s (.interrupt v) = some s') : .spwInit < s.pc i := by
  rcases installed_of_next hnext with ⟨htake, hinstalled⟩
  have hpc := (h.progress.installed v).mp hinstalled
  by_contra hbefore
  have hp : s.pc i ≠ .finished := by
    intro heq
    rw [heq] at hbefore
    exact hbefore (by decide)
  have hcleared : clearPc v < s.pc i := by
    refine Nat.lt_trans ?_ hpc
    cases v <;> decide
  have hnot : takeable E s v = false := by
    apply h.not_takeable hp hcleared
    intro q hq
    rw [hstale q] at hq
    cases hq
  rw [htake] at hnot
  cases hnot

/-! ## What the call leaves -/

/-- What the call for `i` has set up for sending and receiving, and nothing has used. -/
structure Fresh (s : State κ) (i : κ) : Prop where
  flags : .clearFlags < s.pc i →
    (s.device i).rxDeactivated = false ∧ (s.device i).onTxTimeout = false
  txSemaphore : .createTxSemaphore < s.pc i →
    (s.device i).txSemaphore = some (Semaphore.create 1)
  rxSemaphore : .createRxSemaphore < s.pc i →
    (s.device i).rxSemaphore = some (Semaphore.create 0)

omit [DecidableEq κ] in
/-- Before the flags are cleared there is nothing to be fresh. -/
theorem Fresh.of_not_lt (h : ¬ .clearFlags < s.pc i) : Fresh s i := by
  constructor
  case flags => exact fun hlt => absurd hlt h
  case txSemaphore => exact fun hlt => absurd (Nat.lt_trans (by decide) hlt) h
  case rxSemaphore => exact fun hlt => absurd (Nat.lt_trans (by decide) hlt) h

/-- **The next step of the call** sets up what its line says and uses nothing. -/
theorem Fresh.init (h : Fresh s i) (hp : s.pc i ≠ .finished) {rc : Bool} :
    Fresh ((initEffect E s i rc (s.pc i)).advance i) i := by
  constructor
  case flags =>
    intro hpassed
    change ((initEffect E s i rc (s.pc i)).device i).rxDeactivated = false ∧
      ((initEffect E s i rc (s.pc i)).device i).onTxTimeout = false
    rw [(flags_initEffect E s i rc _).1, (flags_initEffect E s i rc _).2]
    by_cases heq : s.pc i = .clearFlags
    · simp [heq]
    · simp [heq, h.flags (lt_of_lt_advance hp hpassed heq)]
  case txSemaphore =>
    intro hpassed
    change ((initEffect E s i rc (s.pc i)).device i).txSemaphore = _
    rw [txSemaphore_initEffect]
    split
    case isTrue => rfl
    case isFalse hne => exact h.txSemaphore (lt_of_lt_advance hp hpassed hne)
  case rxSemaphore =>
    intro hpassed
    change ((initEffect E s i rc (s.pc i)).device i).rxSemaphore = _
    rw [rxSemaphore_initEffect]
    split
    case isTrue => rfl
    case isFalse hne => exact h.rxSemaphore (lt_of_lt_advance hp hpassed hne)

/-- **Towards its end only the first call itself takes steps**: all interrupts from before
are gone, and nothing uses the instance. -/
theorem First.init_of_step (h : First E s i) (hrun : s.running = some i)
    (hlate : .clearFlags < s.pc i) {l : Label κ} (hs : Step E s l s') : ∃ rc, l = .init rc := by
  have hp : s.pc i ≠ .finished := h.running.mp hrun
  have hnone (k : κ) : k ∉ Init.users s := fun hk => hp (h.users k hk).2
  have hidle (k : κ) : (s.device k).task.started ≠ true := fun hk => hp (h.started k hk).2
  cases hs with
  | init | refuse => exact ⟨_, rfl⟩
  | begin hrun' =>
    rw [hrun] at hrun'
    cases hrun'
  | send hpc =>
    obtain rfl := h.eq_of_finished hpc
    exact absurd hpc hp
  | arm htask | spinActive htask | spin htask | wait htask | process htask =>
    exact absurd (by rw [htask]; rfl) (hidle _)
  | @txDeactivate k rest hlists => exact absurd (by simp [Init.users, hlists]) (hnone k)
  | @rxActivate k hqueued => exact absurd (by simp [Init.users, hqueued]) (hnone k)
  | @rxDeactivate k hactive => exact absurd (by simp [Init.users, hactive]) (hnone k)
  | @interrupt v htake =>
    have hcleared : clearPc v < s.pc i := by
      refine Nat.lt_trans ?_ hlate
      cases v <;> decide
    have hnot : takeable E s v = false := by
      apply h.not_takeable hp hcleared
      intro q _
      refine Nat.lt_trans ?_ hlate
      cases q <;> decide
    rw [htake] at hnot
    cases hnot

/-- While the call of the first instance is under way, what it has set up is fresh. -/
theorem fresh_of_reachable (hrefuses : (∃ i j : κ, j ≠ i) → E.accepts true = false)
    (h : (system E).Reachable s) : ∀ i, First E s i → s.running = some i → Fresh s i := by
  refine System.ReachableWhen.invariant
    (P := fun s => ∀ i, First E s i → s.running = some i → Fresh s i) ?_ ?_ h
  · intro i _ hrun
    cases hrun
  · intro s l s' hr ih _ hnext i hfirst' hrun'
    have hs : Step E s l s' := (step_of_next hnext).2
    -- the call of `i` was under way before the step, and was the first one
    have hfirst (hrun : s.running = some i)
        (hkept : ∀ m, s.pc m = .finished → s'.pc m = .finished) : First E s i := by
      rcases phase_of_reachable hrefuses hr with rfl | ⟨m, hm⟩ | ⟨m, j, hm⟩
      · cases hrun
      · by_cases hmi : m = i
        · exact hmi ▸ hm
        · have hpc : s.pc m = .finished := by
            by_contra hne
            exact hmi (Option.some.inj ((hm.running.mpr hne).symm.trans hrun))
          exact absurd (hfirst'.eq_of_finished (hkept m hpc)) hmi
      · obtain rfl := hfirst'.eq_of_finished (hkept m hm.finished)
        exact absurd (Option.some.inj (hm.running.symm.trans hrun)) hm.ne
    rcases hs.cases_on_call with ⟨k, -, -, rfl⟩ | ⟨k, rc, hrun, -, -, -, rfl⟩ | ⟨hu, -⟩
    · cases hrun'
      refine Fresh.of_not_lt ?_
      rw [pc_call_self]
      decide
    · obtain rfl : i = k := eq_of_running_advance hrun'
      have hp := runningInv_of_reachable hr i hrun
      refine (ih i (hfirst hrun fun m hm => ?_) hrun).init hp
      have hne : m ≠ i := by
        rintro rfl
        exact hp hm
      rw [pc_advance_of_ne _ hne, pc_initEffect]
      exact hm
    · have hrun : s.running = some i := hu.running ▸ hrun'
      have hbefore := hfirst hrun fun m hm => by rw [hu.pc]; exact hm
      by_cases hlate : .clearFlags < s.pc i
      · rcases hbefore.init_of_step hrun hlate hs with ⟨rc, rfl⟩
        cases hs with
        | init hrun₁ =>
          obtain rfl := Option.some.inj (hrun₁.symm.trans hrun)
          exact (ih _ hbefore hrun).init (hbefore.running.mp hrun)
        | refuse => exact { ih i hbefore hrun with }
      · refine Fresh.of_not_lt ?_
        rw [hu.pc]
        exact hlate

/-- **What the first call leaves** when it returns is what sending and receiving start with:
the semaphores, the flags, the poll task before `arm_rx_buffer`, and nothing with the block. -/
theorem init_returned {τ : Type v} (mem : τ → ℕ → UInt8) (prog : τ → List CallerOp)
    (hrefuses : (∃ i j : κ, j ≠ i) → E.accepts true = false) (h : (system E).Reachable s)
    (hrun : s.running = some i) (hpc : s.pc i = .startTask)
    (hs : next E s (.init true) = some s') :
    s'.pc i = .finished ∧ users s' = [] ∧
      (s'.device i).txSemaphore = some (Spw.initial mem prog).txSemaphore ∧
      (s'.device i).onTxTimeout = (Spw.initial mem prog).onTxTimeout ∧
      (s'.device i).rxSemaphore = some Rx.initial.rxSemaphore ∧
      (s'.device i).rxDeactivated = Rx.initial.rxDeactivated ∧
      (s'.device i).task = .arm := by
  have hfirst : First E s i := by
    rcases phase_of_reachable hrefuses h with rfl | ⟨m, hm⟩ | ⟨m, j, hm⟩
    · cases hrun
    · by_cases hmi : i = m
      · exact hmi ▸ hm
      · rcases (hm.others i hmi).2 with ⟨hout, -⟩ | ⟨-, -, hbefore⟩
        · rw [hpc] at hout
          cases hout
        · exact absurd (by rw [hpc]; decide) hbefore
    · obtain rfl := Option.some.inj (hm.running.symm.trans hrun)
      exact absurd (by rw [hpc]; decide) hm.ahead
  have hp : s.pc i ≠ .finished := hfirst.running.mp hrun
  have hnil : users s = [] :=
    List.eq_nil_iff_forall_not_mem.mpr fun k hk => hp (hfirst.users k hk).2
  have hstep : Step E s (.init true) s' := (step_of_next hs).2
  cases hstep with
  | refuse hrun' _ hassert =>
    obtain rfl := Option.some.inj (hrun'.symm.trans hrun)
    rw [hpc] at hassert
    cases hassert
  | @init k rc hrun' =>
    obtain rfl : i = k := Option.some.inj (hrun.symm.trans hrun')
    have hfresh : Fresh ((initEffect E s i true (s.pc i)).advance i) i :=
      (fresh_of_reachable hrefuses h i hfirst hrun).init hp
    have hend : ((initEffect E s i true (s.pc i)).advance i).pc i = .finished := by
      rw [pc_advance_self, pc_initEffect, hpc]
      rfl
    have hflags := hfresh.flags (by rw [hend]; decide)
    refine ⟨hend, users_initEffect_eq_nil _ hnil, hfresh.txSemaphore (by rw [hend]; decide),
      hflags.2, hfresh.rxSemaphore (by rw [hend]; decide), hflags.1, ?_⟩
    change ((initEffect E s i true (s.pc i)).device i).task = .arm
    rw [task_initEffect, hpc]
    rfl

/-! ## When no interrupt is taken too early -/

/-- An interrupt on an object that is not initialised comes too early. -/
theorem not_ready {v : Vector} (hstopped : s.stopped = false) (htake : takeable E s v = true)
    (hself : s.irqSelf = some i) (hobject : (s.device i).spw = none) :
    ¬ ReadyForInterrupts E s := by
  intro h
  have hcall : Call.handleInterrupt i ∈ irqCalls s := by simp [irqCalls, hself]
  have hready := h v _ (next_interrupt hstopped htake) _ hcall
  simp [Call.Ready, hobject] at hready

/-- **An interrupt from before** is taken before `Spw_init`. -/
theorem not_ready_of_stale (haccepts : E.accepts false = true) (hpass : DividersPass E i)
    {q : Part} (hstale : E.stale q = true) :
    ∃ s, (system E).Reachable s ∧ ¬ ReadyForInterrupts E s := by
  rcases reach_first haccepts hpass .spwInit (by decide) with ⟨s, hs, hstopped, hq, hpc⟩
  have hp := hq.first.progress
  refine ⟨s, hs, not_ready (v := E.line q) hstopped ?_ (hp.irqSelf (by rw [hpc]; decide)) ?_⟩
  · have hinstalled : s.installed (E.line q) = true := by
      rw [hp.installed, hpc]
      cases E.line q <;> decide
    have hq' : s.stale q = true := by
      refine (hp.stale q).mpr ⟨hstale, ?_⟩
      rw [hpc]
      cases q <;> decide
    have hraises : raises s q = true := by cases q <;> simp [raises, hq']
    simp [takeable, hinstalled, hp.enabled (by rw [hpc]; decide), raised_of_raises hraises]
  · rw [hp.object, hpc]
    rfl

/-- **An interrupt of the first instance** is taken before `Spw_init` in the call for a
second one. -/
theorem not_ready_of_second (haccepts : E.accepts false = true) (hi : DividersPass E i)
    (hj : DividersPass E j) (hne : j ≠ i) :
    ∃ s, (system E).Reachable s ∧ ¬ ReadyForInterrupts E s := by
  rcases reach_second haccepts hi hj hne with ⟨s, hs, hstopped, hw, hrun, hpc⟩
  have hp := hw.first.progress
  have hlists : s.txLists = [] ∧ s.txDeactivated = none := by
    have husers := hw.users
    simp only [users, List.append_eq_nil_iff, Option.toList_eq_nil_iff] at husers
    exact ⟨husers.1.1.1.1, husers.1.1.1.2⟩
  -- a task sends through the first instance, and its list is deactivated
  let s₁ : State κ := { s with txLists := [i] }.setDevice i
    { s.device i with txSemaphore := some ⟨false⟩ }
  let s₂ : State κ := { s₁ with txLists := [], txDeactivated := some i }
  have hs₁ : (system E).Reachable s₁ := by
    refine System.Reachable.step (l := .send i) hs ?_
    change next E s (.send i) = some s₁
    simp [next, hstopped, step, hw.finished, hw.txSemaphore, Semaphore.obtain, hlists.1, s₁]
  have hs₂ : (system E).Reachable s₂ := by
    refine System.Reachable.step (l := .txDeactivate) hs₁ ?_
    change next E s₁ .txDeactivate = some s₂
    simp [next, step, s₁, s₂, State.setDevice, hstopped, hlists.2]
  -- the second call redirects the interrupts
  let s₃ : State κ := (initEffect E s₂ j true .setIrqSelf).advance j
  have hs₃ : (system E).Reachable s₃ := by
    refine System.Reachable.step (l := .init true) hs₂ ?_
    change next E s₂ (.init true) = some s₃
    have hpc₂ : s₂.pc j = .setIrqSelf := hpc
    have hrun₂ : s₂.running = some j := hrun
    have hstopped₂ : s₂.stopped = false := hstopped
    simp only [next, hstopped₂, step, hrun₂, hpc₂]
    rfl
  have hraises : raises s₃ .tx = true := by
    have hmask : s.txMask = true := hp.txMask (by rw [hw.finished]; decide)
    change (s.stale .tx || s.txMask && true) = true
    simp [hmask]
  have hinstalled : s.installed (E.line .tx) = true := by
    rw [hp.installed, hw.finished]
    cases E.line .tx <;> decide
  refine ⟨s₃, hs₃, not_ready (v := E.line .tx) hstopped ?_ rfl ?_⟩
  · have henabled : s.irqEnabled = true := hp.enabled (by rw [hw.finished]; decide)
    change (s.installed _ && s.irqEnabled && (_ || raised E s₃ _)) = true
    simp [hinstalled, henabled, raised_of_raises hraises]
  · change ((Function.update s.device i _) j).spw = none
    rw [Function.update_of_ne hne]
    exact (hw.first.others j hne).1

/-- Where no instance, or only one, passes the assertions on the bit rates and the block
raises no interrupt from before, no interrupt is taken too early. -/
theorem ready_of_reachable (hrefuses : E.accepts true = false)
    (hquiet : (∀ i, ¬ DividersPass E i) ∨
      (∀ q, E.stale q = false) ∧ ∀ i j, DividersPass E i → DividersPass E j → i = j)
    (h : (system E).Reachable s) : ReadyForInterrupts E s := by
  intro v s' hnext c hc
  have hclock := clockInv_of_reachable h
  rcases phase_of_reachable (fun _ => hrefuses) h with rfl | ⟨i, hfirst⟩ | ⟨i, j, hlater⟩
  · have hnone := (installed_of_next hnext).2
    cases hnone
  · have hinstalled := (hfirst.progress.installed v).mp (installed_of_next hnext).2
    have hpass : DividersPass E i := by
      refine hclock.passed i (Nat.lt_trans ?_ hinstalled)
      cases v <;> decide
    have hstale := (hquiet.resolve_left fun hnone => hnone i hpass).1
    have hobject := hfirst.object_ready hstale hnext
    by_cases hrelease : ∀ k, c ≠ .handleInterrupt k
    · exact hfirst.release_ready hc hrelease
    · push Not at hrelease
      rcases hrelease with ⟨k, rfl⟩
      have hself := hfirst.progress.irqSelf (Nat.lt_trans (by decide) hobject)
      obtain rfl : i = k := Option.some.inj (hself.symm.trans (irqSelf_of_mem hc))
      simp [Call.Ready, hfirst.progress.object, objectAt, hobject]
  · have hi := hclock.passed i (by rw [hlater.finished]; decide)
    have hj := hclock.passed j (Nat.lt_trans (by decide) hlater.redirected)
    rcases hquiet with hnone | ⟨-, hone⟩
    · exact absurd hi (hnone i)
    · exact absurd (hone j i hj hi) hlater.ne

/-- **When no interrupt is taken too early.** RTEMS accepts a handler where it is not
installed already. No interrupt that is taken uses an object that is not initialised, exactly
when the block raises no interrupt from before and the driver is initialised for one instance
only, or the assertions on the bit rates stop every call. And in any case no semaphore is
released that is not created. -/
theorem startUp_iff (haccepts : ∀ installed, E.accepts installed = !installed) :
    ((∀ s, (system E).Reachable s → ReadyForInterrupts E s) ↔
      (∀ i, ¬ DividersPass E i) ∨
        (∀ q, E.stale q = false) ∧ ∀ i j, DividersPass E i → DividersPass E j → i = j) ∧
    ∀ s, (system E).Reachable s → ∀ v s', next E s (.interrupt v) = some s' →
      ∀ c ∈ irqCalls s, (∀ k, c ≠ .handleInterrupt k) → c.Ready s := by
  refine ⟨⟨?_, fun hquiet s hs => ready_of_reachable (haccepts true) hquiet hs⟩, ?_⟩
  · intro hready
    by_contra hnot
    push Not at hnot
    rcases hnot with ⟨⟨i, hi⟩, hnot⟩
    by_cases hstale : ∀ q, E.stale q = false
    · rcases hnot hstale with ⟨j, k, hj, hk, hne⟩
      rcases not_ready_of_second (haccepts false) hk hj hne with ⟨s, hs, hbad⟩
      exact hbad (hready s hs)
    · push Not at hstale
      rcases hstale with ⟨q, hq⟩
      rcases not_ready_of_stale (haccepts false) hi (Bool.eq_true_of_not_eq_false hq) with
        ⟨s, hs, hbad⟩
      exact hbad (hready s hs)
  · intro s hs v s' hnext c hc hrelease
    rcases phase_of_reachable (fun _ => haccepts true) hs with rfl | ⟨i, hfirst⟩ | ⟨i, j, hlater⟩
    · cases hc
    · exact hfirst.release_ready hc hrelease
    · rw [hlater.irqCalls_eq, List.mem_singleton] at hc
      exact absurd hc (hrelease j)

/-! ## A block that raises interrupts from before -/

/-- One instance on link 1, with a clock of 100 MHz. `stale` are the parts of the block that
raise interrupts from before. -/
def oneInstance (stale : Part → Bool) : Setup Unit where
  args _ := ⟨1, ⟨.spw0, 40, some 2, none, by decide⟩, ⟨.spw0, 41, some 2, none, by decide⟩⟩
  masterClock _ := 100000000
  accepts := not
  line
    | .link0 | .link1 => .irq0
    | .tx | .rx => .irq1
  stale := stale
  pending _ := false
  irqEnabled := true

/-- With a quiet block the interrupt of the first transfer finds what it uses. -/
theorem oneInstance_quiet : ∃ s, (system (oneInstance fun _ => false)).Reachable s ∧
    takeable (oneInstance fun _ => false) s .irq1 = true ∧
    ReadyForInterrupts (oneInstance fun _ => false) s := by
  have hs := (system (oneInstance fun _ => false)).reachable_get
    (.begin () :: List.replicate 29 (.init true) ++ [.send (), .txDeactivate]) (by decide)
  have hquiet : (∀ i, ¬ DividersPass (oneInstance fun _ => false) i) ∨
      (∀ q, (oneInstance fun _ => false).stale q = false) ∧ ∀ i j,
        DividersPass (oneInstance fun _ => false) i → DividersPass (oneInstance fun _ => false) j →
          i = j := .inr ⟨fun _ => rfl, fun _ _ _ _ => rfl⟩
  exact ⟨_, hs, rfl, (startUp_iff fun _ => rfl).1.mpr hquiet _ hs⟩

/-- With a transmitter that raises its interrupt from before, the interrupt is taken before
`Spw_init`. -/
theorem oneInstance_stale : ¬ ∀ s,
    (system (oneInstance fun q => decide (q = .tx))).Reachable s →
      ReadyForInterrupts (oneInstance fun q => decide (q = .tx)) s := by
  intro h
  have hs := (system (oneInstance fun q => decide (q = .tx))).reachable_get
    (.begin () :: List.replicate 9 (.init true)) (by decide)
  have hready := h _ hs .irq1 _ rfl (.handleInterrupt ()) List.mem_cons_self
  exact Bool.false_ne_true hready

end Samrh71Drivers.Spw.Init
