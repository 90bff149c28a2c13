import Samrh71Drivers.Serial.RawTx
import Samrh71Drivers.Lib.Medium
import Mathlib.Algebra.Ring.Nat

/-!
# Several tasks on one serial device

In raw mode with asynchronous transmission any number of tasks may send over one device. The
TX token puts their messages in one order: the bytes on the wire are whole messages, one after
the other, each with the content it had when its call began, and the messages of each task are
in the order of its calls (`shared_raw`). As with one task, a caller has to leave the bytes
alone that the UART has still to read.

No task waits for a token that does not come back, in any mode (`tx_not_deadlocked`), and in
raw mode the runs are bounded, the counter of the blocking write does not wrap: every call
returns (`raw_calls_return`).

## Main definitions

* `messagesOf` — the messages of a program, as they are when they are sent.
* `leavesLentBytes` — the condition on a write of a caller.
* `Stuck`, `Done` — no step is left but a reported error; every call has returned.
* `cost` — the steps that are still to be taken.
* `SharedInv`, `QueueInv` — the invariants of the wire and of each task.
-/

namespace Samrh71Drivers.Serial

open Transition Custodian Lending

universe u v

section Messages

variable {τ : Type u} [DecidableEq τ]

/-- The messages of a program of the task `t`, each with the content its bytes have when it
is sent. -/
def messagesOf (t : τ) (mem : Store (Region τ) UInt8) : List CallerOp → List (List UInt8)
  | [] => []
  | .send data length :: ops => mem.bytes (.caller t) data length :: messagesOf t mem ops
  | .write a v :: ops => messagesOf t (mem.write (.caller t) a v) ops

/-- The messages of a task depend on its own memory only. -/
theorem messagesOf_congr {t : τ} {ops : List CallerOp} {mem mem' : Store (Region τ) UInt8}
    (h : ∀ a, mem (.caller t) a = mem' (.caller t) a) :
    messagesOf t mem ops = messagesOf t mem' ops := by
  induction ops generalizing mem mem' with
  | nil => rfl
  | cons op ops ih =>
    cases op with
    | send data length =>
      rw [messagesOf, messagesOf, ih h, Store.bytes_congr fun a _ _ => h a]
    | write a v =>
      rw [messagesOf, messagesOf, ih fun a' => ?_]
      rw [Store.write_apply, Store.write_apply, h a']

/-- A write of another task. -/
theorem messagesOf_write {t t' : τ} (hne : t' ≠ t) (ops : List CallerOp)
    (mem : Store (Region τ) UInt8) (a : ℕ) (v : UInt8) :
    messagesOf t (mem.write (.caller t') a v) ops = messagesOf t mem ops := by
  refine messagesOf_congr fun a' => ?_
  rw [Store.write_apply, if_neg]
  rintro ⟨hregion, -⟩
  exact hne (Region.caller.inj hregion).symm

end Messages

/-- The write to its own memory that a step of a task makes. -/
def writes {τ : Type u} {E : Type v} (s : State τ E) : Label τ → Option (τ × ℕ × UInt8)
  | .task t =>
    match s.pc t, s.todo t with
    | .outside, .write a v :: _ => some (t, a, v)
    | _, _ => none
  | _ => none

/-- A write of a caller leaves every byte the transfer in flight has still to read. -/
def leavesLentBytes {τ : Type u} {E : Type v} (s : State τ E) (l : Label τ) : Prop :=
  ∀ w ∈ writes s l, 0 < s.inFlight → s.txFifo.covers (.caller w.1) w.2.1 →
    s.mem (.caller w.1) w.2.1 = w.2.2

instance {τ : Type u} {E : Type v} [DecidableEq τ] (s : State τ E) (l : Label τ) :
    Decidable (leavesLentBytes s l) := by
  unfold leavesLentBytes
  infer_instance

/-! ## No deadlock -/

section Stuck

variable {τ : Type u} {E : Type v} [DecidableEq τ] {c : Mode} {X : Escaper E} {s : State τ E}

/-- No step is left but a reported error of `Uart_write`. -/
def Stuck (c : Mode) (X : Escaper E) (s : State τ E) : Prop :=
  (∀ t, next c X s (.task t) = none) ∧ next c X s .txByte = none ∧ next c X s .txEmpty = none

/-- Every call has returned, or its task has stopped at an assertion. -/
structure Done (s : State τ E) : Prop where
  inFlight : s.inFlight = 0
  tasks : ∀ t, s.pc t = .outside ∧ s.todo t = [] ∨ s.pc t = .stopped

/-- The UART is not left with a transfer. -/
private theorem Stuck.inFlight_eq (h : Stuck c X s) : s.inFlight = 0 := by
  by_contra hin
  have hpos : 0 < s.inFlight := Nat.pos_of_ne_zero hin
  have hbyte := h.2.1
  have hempty := h.2.2
  simp only [next, hpos, if_true, Option.map_eq_none_iff] at hbyte
  have hdrained : s.txFifo.length ≤ s.txFifo.taken := by
    by_contra hlt
    simp [Loan.take, Nat.not_le.mp hlt] at hbyte
  simp [next, hpos, hdrained] at hempty

/-- **No task waits for ever.** Where no step is left, the token is back and every call has
returned, in every mode and for any number of tasks. -/
theorem tx_not_deadlocked {mem : τ → ℕ → UInt8} {prog : τ → List CallerOp} {e : E}
    (h : (system c X mem prog e).Reachable s) (hstuck : Stuck c X s) : Done s := by
  have hidle := hstuck.inFlight_eq
  obtain ⟨o, hc⟩ := custody h
  have hpc : ∀ t, s.pc t = .outside ∧ s.todo t = [] ∨ s.pc t = .stopped ∨
      ∃ p back, s.pc t = .waitForTxSemaphore p back ∧ s.txSemaphore.available = false := by
    intro t
    have hnone := hstuck.1 t
    cases hpc : s.pc t with
    | outside =>
      cases htodo : s.todo t with
      | nil => exact .inl ⟨rfl, rfl⟩
      | cons op ops => cases op <;> simp [next, taskStep, hpc, htodo] at hnone
    | waitForTxSemaphore p back =>
      refine .inr (.inr ⟨p, back, rfl, ?_⟩)
      simpa [next, taskStep, hpc, Semaphore.obtain] using hnone
    | stopped => exact .inr (.inl rfl)
    | loopHead l => by_cases hlt : l.index < l.length <;> simp [next, taskStep, hpc, hlt] at hnone
    | writeBlocking p i back =>
      by_cases hlt : i < p.length <;> simp [next, taskStep, hpc, hlt] at hnone
    | initFifo p back | writeAsync back => simp [next, taskStep, hpc] at hnone
  refine ⟨hidle, fun t => ?_⟩
  rcases hpc t with hdone | hstopped | ⟨p, back, -, htoken⟩
  · exact .inl hdone
  · exact .inr hstopped
  · -- the token is neither with a sender nor with a transfer
    exfalso
    rcases hc.exclusive with ⟨havailable, -⟩ | ⟨-, ⟨t', hcrit, -⟩, -⟩ | ⟨-, -, hone⟩
    · rw [htoken] at havailable
      cases havailable
    · rcases hpc t' with ⟨hout, -⟩ | hstop | ⟨p', back', hwait, -⟩
      · simp [hout] at hcrit
      · simp [hstop] at hcrit
      · simp [hwait] at hcrit
    · omega

end Stuck

/-! ## Every call returns -/

/-- The steps a call has still ahead of it, those of its transfer included. -/
def Pc.cost {τ : Type u} : Pc τ → ℕ
  | .outside | .loopHead _ | .stopped => 0
  | .waitForTxSemaphore p _ => p.length + 4
  | .initFifo p _ => p.length + 3
  | .writeAsync _ => 2
  | .writeBlocking p i _ => p.length - i + 1

/-- The steps of a call, or of a write. -/
def CallerOp.cost : CallerOp → ℕ
  | .send _ length => toUInt16 length + 5
  | .write _ _ => 1

/-- The steps of a task. -/
def taskCost {τ : Type u} (pc : Pc τ) (todo : List CallerOp) : ℕ :=
  pc.cost + (todo.map CallerOp.cost).sum

/-- The points of a task in raw mode; a length is a `uint16_t`. -/
def RawPlace {τ : Type u} : Pc τ → Prop
  | .outside | .waitForTxSemaphore _ none | .initFifo _ none | .writeAsync none | .stopped => True
  | .writeBlocking p _ none => p.length < 65536
  | _ => False

section Bounded

variable {τ : Type u} {E : Type v} [DecidableEq τ] [Fintype τ] {X : Escaper E} {m : RawMode}
  {tx : TxMode} {s s' : State τ E}

/-- The steps all the tasks and the UART have ahead of them. -/
def cost (s : State τ E) : ℕ :=
  ∑ t, taskCost (s.pc t) (s.todo t) + s.inFlight + (s.txFifo.length - s.txFifo.taken)

/-- One task moves. -/
private theorem sum_taskCost (s : State τ E) (t : τ) (pc : Pc τ) (todo : List CallerOp) :
    ∑ t', taskCost (Function.update s.pc t pc t') (Function.update s.todo t todo t') +
      taskCost (s.pc t) (s.todo t) = ∑ t', taskCost (s.pc t') (s.todo t') + taskCost pc todo := by
  have hupdate : ∀ t', taskCost (Function.update s.pc t pc t') (Function.update s.todo t todo t') =
      Function.update (fun t' => taskCost (s.pc t') (s.todo t')) t (taskCost pc todo) t' := by
    intro t'
    by_cases heq : t' = t
    · subst heq
      simp only [Function.update_self]
    · simp only [Function.update_of_ne heq]
  rw [Finset.sum_congr rfl fun t' _ => hupdate t']
  exact sum_update _ t _

/-- One task moves in a call. -/
private theorem sum_taskCost_pc (s : State τ E) (t : τ) (pc : Pc τ) :
    ∑ t', taskCost (Function.update s.pc t pc t') (s.todo t') + (s.pc t).cost =
      ∑ t', taskCost (s.pc t') (s.todo t') + pc.cost := by
  have hsum := sum_taskCost s t pc (s.todo t)
  rw [Function.update_eq_self] at hsum
  simp only [taskCost] at hsum ⊢
  omega

/-- **Every step uses up one.** -/
theorem cost_rawStep {l : Label τ} (hplaces : ∀ t, RawPlace (s.pc t))
    (hs : Step ⟨.raw m, tx⟩ X s l s') : (∀ t, RawPlace (s'.pc t)) ∧ cost s' + 1 ≤ cost s := by
  have hmoved : ∀ {t : τ} {pc : Pc τ}, RawPlace pc →
      ∀ t', RawPlace (Function.update s.pc t pc t') := by
    intro t pc hpc t'
    by_cases heq : t' = t
    · subst heq
      rwa [Function.update_self]
    · rw [Function.update_of_ne heq]
      exact hplaces t'
  cases hs with
  | @callerWrite t a v ops hpc hops =>
    have hsum := sum_taskCost s t (s.pc t) ops
    rw [Function.update_eq_self] at hsum
    simp only [taskCost, hops, List.map_cons, List.sum_cons, CallerOp.cost] at hsum
    refine ⟨hplaces, ?_⟩
    simp only [cost, taskCost]
    omega
  | @callRaw t data length ops hpc hops =>
    have hlength : toUInt16 length < 65536 := Nat.mod_lt _ (by decide)
    have hbefore : taskCost (s.pc t) (s.todo t) =
        toUInt16 length + 5 + (ops.map CallerOp.cost).sum := by
      simp [taskCost, hpc, hops, Pc.cost, CallerOp.cost]
    cases tx with
    | asynchronous =>
      have hsum := sum_taskCost s t (.waitForTxSemaphore ⟨.caller t, data, toUInt16 length⟩ none)
        ops
      have hafter : taskCost (.waitForTxSemaphore ⟨.caller t, data, toUInt16 length⟩ none) ops =
          toUInt16 length + 4 + (ops.map CallerOp.cost).sum := rfl
      rw [hbefore, hafter] at hsum
      refine ⟨hmoved trivial, ?_⟩
      simp only [cost, writePacket, blockingTxModeEnabled, Bool.false_eq_true, if_false]
      omega
    | blocking =>
      have hsum := sum_taskCost s t (.writeBlocking ⟨.caller t, data, toUInt16 length⟩ 0 none) ops
      have hafter : taskCost (.writeBlocking ⟨.caller t, data, toUInt16 length⟩ 0 none) ops =
          toUInt16 length + 1 + (ops.map CallerOp.cost).sum := rfl
      rw [hbefore, hafter] at hsum
      refine ⟨hmoved hlength, ?_⟩
      simp only [cost, writePacket, blockingTxModeEnabled, if_true]
      omega
  | callEscaped _ _ hraw => cases hraw
  | @encode t l hpc | @loopEnd t l hpc =>
    have hplace := hplaces t
    simp [hpc, RawPlace] at hplace
  | @obtain t p back hpc hav =>
    have hplace := hplaces t
    cases back with
    | some l => simp [hpc, RawPlace] at hplace
    | none =>
      have hsum := sum_taskCost_pc s t (.initFifo p none)
      simp only [hpc, Pc.cost] at hsum
      refine ⟨hmoved trivial, ?_⟩
      simp only [cost]
      omega
  | @initFifo t p back hpc =>
    have hplace := hplaces t
    cases back with
    | some l => simp [hpc, RawPlace] at hplace
    | none =>
      have hsum := sum_taskCost_pc s t (.writeAsync none)
      simp only [hpc, Pc.cost] at hsum
      refine ⟨hmoved trivial, ?_⟩
      simp only [cost]
      omega
  | @writeAsync t back hpc =>
    have hplace := hplaces t
    cases back with
    | some l => simp [hpc, RawPlace] at hplace
    | none =>
      have hsum := sum_taskCost_pc s t .outside
      simp only [hpc, Pc.cost] at hsum
      refine ⟨hmoved trivial, ?_⟩
      simp only [cost, resume]
      omega
  | @blockingByte t p i back hpc hlt =>
    have hplace := hplaces t
    cases back with
    | some l => simp [hpc, RawPlace] at hplace
    | none =>
      simp only [hpc, RawPlace] at hplace
      -- the counter does not wrap, since a length is at most 65535
      have hcounter : toUInt16 (i + 1) = i + 1 := Nat.mod_eq_of_lt (by omega)
      have hsum := sum_taskCost_pc s t (.writeBlocking p (i + 1) none)
      simp only [hpc, Pc.cost] at hsum
      rw [hcounter]
      refine ⟨hmoved hplace, ?_⟩
      simp only [cost]
      omega
  | @blockingEnd t p i back hpc hlt =>
    have hplace := hplaces t
    cases back with
    | some l => simp [hpc, RawPlace] at hplace
    | none =>
      have hsum := sum_taskCost_pc s t .outside
      simp only [hpc, Pc.cost] at hsum
      refine ⟨hmoved trivial, ?_⟩
      simp only [cost, resume]
      omega
  | @uartWriteFails t p i back hpc hlt =>
    have hsum := sum_taskCost_pc s t .stopped
    simp only [hpc, Pc.cost] at hsum
    refine ⟨hmoved trivial, ?_⟩
    simp only [cost]
    omega
  | @txByte b fifo hin htake =>
    refine ⟨hplaces, ?_⟩
    by_cases hlt : s.txFifo.taken < s.txFifo.length
    · simp only [Loan.take, hlt, if_true, Option.some.injEq, Prod.mk.injEq] at htake
      rw [← htake.2]
      simp only [cost]
      omega
    · simp [Loan.take, hlt] at htake
  | @txEmpty n hin hempty =>
    refine ⟨hplaces, ?_⟩
    simp only [cost, hin]
    omega

variable {mem : τ → ℕ → UInt8} {prog : τ → List CallerOp} {e : E}

/-- **Every call returns.** In raw mode, with either kind of transmission and any number of
tasks, no run is longer than a number that the lengths of the messages determine, and where no
step is left every call has returned or was stopped by an error of the UART. -/
theorem raw_calls_return {ls : List (Label τ)}
    (h : (system ⟨.raw m, tx⟩ X mem prog e).exec (initial mem prog e) ls = some s) :
    ls.length ≤ ∑ t, ((prog t).map CallerOp.cost).sum ∧ (Stuck ⟨.raw m, tx⟩ X s → Done s) := by
  constructor
  · have hinit : (∀ t, RawPlace ((initial mem prog e).pc t)) ∧
        ∑ t, ((prog t).map CallerOp.cost).sum = cost (initial mem prog e) :=
      ⟨fun _ => trivial, by simp [cost, initial, taskCost, Pc.cost]⟩
    refine System.exec_length_le
      (W := fun s n => (∀ t, RawPlace (s.pc t)) ∧ n = cost s) ?_ hinit h
    · rintro s l s' _ ⟨hplaces, rfl⟩ hs
      obtain ⟨hplaces', hle⟩ := cost_rawStep hplaces (step_of_next hs)
      exact ⟨_, ⟨hplaces', rfl⟩, hle⟩
  · exact tx_not_deadlocked (System.Reachable.exec .init h)

/-- Two tasks. One sends two bytes `2`, the other its byte `1` and then, after it has written
`9` over it, the `9`. -/
def twoTasks : System (State Bool ℕ) (Label Bool) :=
  system ⟨.raw .singleByte, .asynchronous⟩ (stuffingEscaper byteStuffing 256)
    (fun t _ => if t then 1 else 2)
    (fun t => if t then [.send 0 1, .write 0 9, .send 0 1] else [.send 0 2]) 0

/-- A run of the two tasks to its end: the second one takes the token first. -/
def twoTasksRun : List (Label Bool) :=
  [.task false, .task true, .task true, .task true, .task true, .txByte, .txEmpty,
    .task false, .task false, .task false, .task true, .task true, .txByte, .txByte, .txEmpty,
    .task true, .task true, .task true, .txByte, .txEmpty]

/-- The run is within the bound, and both tasks are done at its end. -/
theorem twoTasks_return : ∃ s, twoTasks.exec twoTasks.init twoTasksRun = some s ∧
    twoTasksRun.length ≤ 20 ∧ Done s := by
  have hrun : twoTasks.exec twoTasks.init twoTasksRun = some _ :=
    (Option.some_get (by decide)).symm
  obtain ⟨hle, hdone⟩ := raw_calls_return hrun
  refine ⟨_, hrun, hle, hdone ⟨?_, rfl, rfl⟩⟩
  rintro (_ | _) <;> rfl

end Bounded

/-! ## The wire -/

section Wire

variable {τ : Type u} {E : Type v} [DecidableEq τ] {X : Escaper E} {m : RawMode}
  {s s' : State τ E} {r : List (τ × List UInt8)}

/-- The points of the task `t` in raw mode with asynchronous transmission. -/
def SharedPc (t : τ) : Pc τ → Prop
  | .outside | .writeAsync none => True
  | .waitForTxSemaphore p none | .initFifo p none => p.region = .caller t
  | _ => False

/-- The messages the senders have taken the token for, in this order, are on the wire or in
the transfer that is being started or in flight. -/
structure SharedInv (s : State τ E) (r : List (τ × List UInt8)) : Prop where
  pcs : ∀ t, SharedPc t (s.pc t)
  idle : (∀ t, ¬ (s.pc t).critical) → s.wire ++ unsent s = (r.map Prod.snd).flatten
  initFifo : ∀ t p back, s.pc t = .initFifo p back →
    s.wire ++ s.mem.bytes p.region p.offset p.length = (r.map Prod.snd).flatten
  writeAsync : ∀ t back, s.pc t = .writeAsync back → s.txFifo.region = .caller t ∧
    s.wire ++ s.txFifo.unread s.mem = (r.map Prod.snd).flatten

/-- The message a task waits to send. -/
def waiting (mem : Store (Region τ) UInt8) : Pc τ → List (List UInt8)
  | .waitForTxSemaphore p _ => [mem.bytes p.region p.offset p.length]
  | _ => []

/-- The messages of the task `t`: those it has taken the token for, the one it waits to send,
and those of the rest of its program. -/
structure QueueInv (t : τ) (total : List (List UInt8)) (s : State τ E)
    (r : List (τ × List UInt8)) : Prop where
  fits : ∀ op ∈ s.todo t, op.fits
  queue : sentBy t r ++ waiting s.mem (s.pc t) ++ messagesOf t s.mem (s.todo t) = total

/-- A step of a task that waits is its `waitForTxSemaphore`: the message it sends. -/
def obtained (s : State τ E) : Label τ → List (τ × List UInt8)
  | .task t => (waiting s.mem (s.pc t)).map (t, ·)
  | _ => []

omit [DecidableEq τ] in
/-- A transfer in flight or a free token leaves nobody in the critical section. -/
private theorem no_critical {o : Holder τ} (hc : TxCustody s o)
    (h : s.txSemaphore.available = true ∨ 0 < s.inFlight) (t : τ) : ¬ (s.pc t).critical := by
  intro hcrit
  rcases h with hav | hin
  · have hfree := hc.token_iff.mp hav
    simpa [hfree] using (hc.critical_iff t).mp hcrit
  · have hidle := hc.owed_eq_zero (t := t) hcrit
    omega

/-- The points of the tasks after a move of one of them. -/
private theorem sharedPc_update {t : τ} {pc : Pc τ} (h : SharedInv s r) (hplace : SharedPc t pc)
    (t' : τ) : SharedPc t' (Function.update s.pc t pc t') := by
  by_cases heq : t' = t
  · subst heq
    rwa [Function.update_self]
  · rw [Function.update_of_ne heq]
    exact h.pcs t'

/-- A task that moves outside its critical section leaves the wire. -/
private theorem SharedInv.of_move {t : τ} {pc : Pc τ} (h : SharedInv s r)
    (hpc : s'.pc = Function.update s.pc t pc) (hmem : s'.mem = s.mem)
    (hfifo : s'.txFifo = s.txFifo) (hin : s'.inFlight = s.inFlight) (hwire : s'.wire = s.wire)
    (hbefore : ¬ (s.pc t).critical) (hafter : ¬ pc.critical) (hplace : SharedPc t pc) :
    SharedInv s' r := by
  have hcrit : ∀ t', (s'.pc t').critical ↔ (s.pc t').critical := by
    rw [hpc]
    exact update_iff Pc.critical (by simp [hbefore, hafter])
  constructor
  case pcs =>
    rw [hpc]
    exact sharedPc_update h hplace
  case idle =>
    intro hidle
    have hold := h.idle fun t' ht' => hidle t' ((hcrit t').mpr ht')
    rwa [hwire, unsent, hfifo, hmem, hin]
  case initFifo =>
    intro t' p back ht'
    rw [hpc] at ht'
    rw [hwire, hmem]
    rcases of_update (· = Pc.initFifo p back) ht' with ⟨-, ht'⟩ | ⟨-, ht'⟩
    · exact absurd (by simp [ht']) hafter
    · exact h.initFifo t' p back ht'
  case writeAsync =>
    intro t' back ht'
    rw [hpc] at ht'
    rw [hwire, hmem, hfifo]
    rcases of_update (· = Pc.writeAsync back) ht' with ⟨-, ht'⟩ | ⟨-, ht'⟩
    · exact absurd (by simp [ht']) hafter
    · exact h.writeAsync t' back ht'

/-- A write of a caller outside the driver, which leaves the bytes lent. -/
private theorem SharedInv.write {t : τ} {a : ℕ} {v : UInt8} {todo : τ → List CallerOp}
    (h : SharedInv s r) (hpc : s.pc t = .outside)
    (hok : 0 < s.inFlight → s.txFifo.covers (.caller t) a → s.mem (.caller t) a = v) :
    SharedInv { s with mem := s.mem.write (.caller t) a v, todo := todo } r := by
  have hother : ∀ {t' : τ}, s.pc t' ≠ .outside → Region.caller t' ≠ .caller t := by
    intro t' hne heq
    exact hne (by rw [Region.caller.inj heq, hpc])
  constructor
  case pcs => exact h.pcs
  case idle =>
    intro hidle
    have hold := h.idle hidle
    have hun : unsent { s with mem := s.mem.write (.caller t) a v, todo := todo } = unsent s := by
      by_cases hin : 0 < s.inFlight
      · rw [unsent_of_inFlight (s := s) hin]
        exact (if_pos hin).trans (Loan.unread_write (hok hin))
      · rw [unsent_of_idle (s := s) (by omega)]
        exact if_neg hin
    rw [hun]
    exact hold
  case initFifo =>
    intro t' p back ht'
    have ht : s.pc t' = .initFifo p back := ht'
    have hregion := h.pcs t'
    rw [ht] at hregion
    cases back with
    | some l => exact hregion.elim
    | none =>
      have hold := h.initFifo t' p none ht
      change s.wire ++ (s.mem.write (.caller t) a v).bytes p.region p.offset p.length = _
      rw [Store.bytes_write, hold]
      intro heq
      exact absurd (hregion.symm.trans heq.symm) (hother (by simp [ht]))
  case writeAsync =>
    intro t' back ht'
    have ht : s.pc t' = .writeAsync back := ht'
    rcases h.writeAsync t' back ht with ⟨hregion, hold⟩
    refine ⟨hregion, ?_⟩
    change s.wire ++ s.txFifo.unread (s.mem.write (.caller t) a v) = _
    rw [Loan.unread_write, hold]
    intro hcovers
    exact absurd (hregion.symm.trans hcovers.1.symm) (hother (by simp [ht]))

/-- **One step keeps the order of the messages**, when a write of a caller leaves the lent
bytes alone. -/
theorem SharedInv.step {l : Label τ} {o : Holder τ} (hc : TxCustody s o) (h : SharedInv s r)
    (hok : leavesLentBytes s l) (hs : Step ⟨.raw m, .asynchronous⟩ X s l s') :
    SharedInv s' (r ++ obtained s l) := by
  cases hs with
  | @callerWrite t a v ops hpc hops =>
    have hleaves := hok (t, a, v) (by simp [writes, hpc, hops])
    simpa [obtained, waiting, hpc] using h.write hpc hleaves
  | @callRaw t data length ops hpc hops =>
    simp only [obtained, waiting, hpc, List.map_nil, List.append_nil]
    exact h.of_move rfl rfl rfl rfl rfl (by simp [hpc]) (by simp)
      (by simp [writePacket, blockingTxModeEnabled, SharedPc])
  | callEscaped _ _ hraw => cases hraw
  | @encode t l hpc | @loopEnd t l hpc | @blockingByte t p i l hpc | @blockingEnd t p i l hpc
  | @uartWriteFails t p i l hpc =>
    have hpcs := h.pcs t
    simp [hpc, SharedPc] at hpcs
  | @obtain t p back hpc hav =>
    have hplace := h.pcs t
    have hfree : ∀ t', ¬ (s.pc t').critical := no_critical hc (.inl hav)
    have hidle : s.inFlight = 0 := hc.owed_other (by simp [hc.token_iff.mp hav])
    have hwire : s.wire = (r.map Prod.snd).flatten := by
      simpa [unsent_of_idle hidle] using h.idle hfree
    cases back with
    | some l => simp [hpc, SharedPc] at hplace
    | none =>
      simp only [hpc, SharedPc] at hplace
      constructor
      case pcs => exact sharedPc_update h hplace
      case idle =>
        intro hnone
        exact absurd (by simp) (hnone t)
      case initFifo =>
        intro t' p' back' ht'
        rcases of_update (· = Pc.initFifo p' back') ht' with ⟨-, hp⟩ | ⟨-, hp⟩
        · cases hp
          simp [obtained, waiting, hpc, hwire]
        · exact absurd (by simp [hp]) (hfree t')
      case writeAsync =>
        intro t' back' ht'
        rcases of_update (· = Pc.writeAsync back') ht' with ⟨-, ht'⟩ | ⟨-, ht'⟩
        · cases ht'
        · exact absurd (by simp [ht']) (hfree t')
  | @initFifo t p back hpc =>
    have hplace := h.pcs t
    have honly : ∀ t', (s.pc t').critical → t' = t := fun t' ht' => hc.unique ht' (by simp [hpc])
    simp only [obtained, waiting, hpc, List.map_nil, List.append_nil]
    cases back with
    | some l => simp [hpc, SharedPc] at hplace
    | none =>
      simp only [hpc, SharedPc] at hplace
      constructor
      case pcs => exact sharedPc_update h trivial
      case idle =>
        intro hnone
        exact absurd (by simp) (hnone t)
      case initFifo =>
        intro t' p' back' ht'
        rcases of_update (· = Pc.initFifo p' back') ht' with ⟨-, ht'⟩ | ⟨hne, ht'⟩
        · cases ht'
        · exact absurd (honly t' (by simp [ht'])) hne
      case writeAsync =>
        intro t' back' ht'
        rcases of_update (· = Pc.writeAsync back') ht' with ⟨rfl, -⟩ | ⟨hne, ht'⟩
        · exact ⟨hplace, by simpa using h.initFifo t' p none hpc⟩
        · exact absurd (honly t' (by simp [ht'])) hne
  | @writeAsync t back hpc =>
    have hplace := h.pcs t
    have honly : ∀ t', (s.pc t').critical → t' = t := fun t' ht' => hc.unique ht' (by simp [hpc])
    simp only [obtained, waiting, hpc, List.map_nil, List.append_nil]
    cases back with
    | some l => simp [hpc, SharedPc] at hplace
    | none =>
      constructor
      case pcs => exact sharedPc_update h trivial
      case idle =>
        intro _
        rw [unsent_of_inFlight (Nat.succ_pos _)]
        exact (h.writeAsync t none hpc).2
      case initFifo =>
        intro t' p' back' ht'
        rcases of_update (· = Pc.initFifo p' back') ht' with ⟨-, ht'⟩ | ⟨hne, ht'⟩
        · cases ht'
        · exact absurd (honly t' (by simp [ht'])) hne
      case writeAsync =>
        intro t' back' ht'
        rcases of_update (· = Pc.writeAsync back') ht' with ⟨-, ht'⟩ | ⟨hne, ht'⟩
        · cases ht'
        · exact absurd (honly t' (by simp [ht'])) hne
  | @txByte b fifo hin htake =>
    have hfree : ∀ t', ¬ (s.pc t').critical := no_critical hc (.inr hin)
    have hun : unsent s = b :: fifo.unread s.mem := by
      rw [unsent_of_inFlight hin, Loan.unread_of_take htake]
    have hun' : unsent { s with wire := s.wire ++ [b], txFifo := fifo } = fifo.unread s.mem :=
      if_pos hin
    simp only [obtained, List.append_nil]
    constructor
    case pcs => exact h.pcs
    case idle =>
      intro _
      rw [hun', ← h.idle hfree, hun]
      simp
    case initFifo =>
      intro t p back ht
      have hpc : s.pc t = .initFifo p back := ht
      exact absurd (by simp [hpc]) (hfree t)
    case writeAsync =>
      intro t back ht
      have hpc : s.pc t = .writeAsync back := ht
      exact absurd (by simp [hpc]) (hfree t)
  | @txEmpty n hin hempty =>
    have hfree : ∀ t', ¬ (s.pc t').critical := no_critical hc (.inr (by omega))
    have hidle : n = 0 := by
      have hone := hc.owed_le_one
      omega
    subst hidle
    have hun : unsent s = [] := unsent_of_drained fun _ => hempty
    have hun' : unsent { s with inFlight := 0, txSemaphore := ⟨true⟩ } = [] := unsent_of_idle rfl
    simp only [obtained, List.append_nil]
    constructor
    case pcs => exact h.pcs
    case idle =>
      intro _
      rw [hun', ← h.idle hfree, hun]
    case initFifo =>
      intro t p back ht
      have hpc : s.pc t = .initFifo p back := ht
      exact absurd (by simp [hpc]) (hfree t)
    case writeAsync =>
      intro t back ht
      have hpc : s.pc t = .writeAsync back := ht
      exact absurd (by simp [hpc]) (hfree t)

/-- A task waits with a message in its own memory. -/
private theorem waiting_write {t t' : τ} {pc : Pc τ} {mem : Store (Region τ) UInt8} {a : ℕ}
    {v : UInt8} (hplace : SharedPc t' pc) (hne : t' ≠ t) :
    waiting (mem.write (.caller t) a v) pc = waiting mem pc := by
  cases pc with
  | waitForTxSemaphore p back =>
    cases back with
    | some l => exact hplace.elim
    | none =>
      have hregion : p.region = .caller t' := hplace
      rw [waiting, waiting, Store.bytes_write]
      intro heq
      exact absurd (Region.caller.inj (hregion.symm.trans heq.symm)) hne
  | _ => rfl

/-- **One step keeps the queue of a task.** -/
theorem QueueInv.step {t' : τ} {l : Label τ} {total : List (List UInt8)} (h : SharedInv s r)
    (hq : QueueInv t' total s r) (hs : Step ⟨.raw m, .asynchronous⟩ X s l s') :
    QueueInv t' total s' (r ++ obtained s l) := by
  have hmove : ∀ {t : τ} {pc : Pc τ}, waiting s.mem pc = waiting s.mem (s.pc t) →
      waiting s.mem (Function.update s.pc t pc t') = waiting s.mem (s.pc t') := by
    intro t pc hsame
    by_cases heq : t' = t
    · subst heq
      rw [Function.update_self, hsame]
    · rw [Function.update_of_ne heq]
  cases hs with
  | @callerWrite t a v ops hpc hops =>
    simp only [obtained, waiting, hpc, List.map_nil, List.append_nil]
    by_cases heq : t' = t
    · subst heq
      have hqueue := hq.queue
      simp only [hpc, hops, waiting, messagesOf] at hqueue
      refine ⟨?_, by simpa [hpc, waiting] using hqueue⟩
      intro op hop
      have hmem : op ∈ ops := by simpa using hop
      exact hq.fits op (by rw [hops]; exact List.mem_cons_of_mem _ hmem)
    · have hwaiting : waiting (s.mem.write (.caller t) a v) (s.pc t') =
          waiting s.mem (s.pc t') := waiting_write (h.pcs t') heq
      refine ⟨by simpa [Function.update_of_ne heq] using hq.fits, ?_⟩
      simp only [Function.update_of_ne heq]
      rw [hwaiting, messagesOf_write (Ne.symm heq)]
      exact hq.queue
  | @callRaw t data length ops hpc hops =>
    simp only [obtained, waiting, hpc, List.map_nil, List.append_nil]
    by_cases heq : t' = t
    · subst heq
      have hlength : length < 65536 := hq.fits (.send data length) (by simp [hops])
      have htoUInt16 : toUInt16 length = length := Nat.mod_eq_of_lt hlength
      have hqueue := hq.queue
      simp only [hpc, hops, waiting, messagesOf] at hqueue
      refine ⟨?_, by simpa [writePacket, blockingTxModeEnabled, waiting, htoUInt16] using hqueue⟩
      intro op hop
      have hmem : op ∈ ops := by simpa using hop
      exact hq.fits op (by rw [hops]; exact List.mem_cons_of_mem _ hmem)
    · refine ⟨by simpa [Function.update_of_ne heq] using hq.fits, ?_⟩
      simp only [Function.update_of_ne heq]
      exact hq.queue
  | callEscaped _ _ hraw => cases hraw
  | @encode t l hpc | @loopEnd t l hpc | @blockingByte t p i l hpc | @blockingEnd t p i l hpc
  | @uartWriteFails t p i l hpc =>
    have hpcs := h.pcs t
    simp [hpc, SharedPc] at hpcs
  | @obtain t p back hpc hav =>
    refine ⟨hq.fits, ?_⟩
    by_cases heq : t' = t
    · subst heq
      have hqueue := hq.queue
      simp only [hpc, waiting] at hqueue
      simpa [obtained, waiting, hpc, sentBy_append, sentBy] using hqueue
    · have hother : sentBy t' [(t, s.mem.bytes p.region p.offset p.length)] = [] := by
        simp [sentBy, Ne.symm heq]
      simp only [obtained, waiting, hpc, List.map_cons, List.map_nil, sentBy_append, hother,
        List.append_nil, Function.update_of_ne heq]
      exact hq.queue
  | @initFifo t p back hpc =>
    simp only [obtained, waiting, hpc, List.map_nil, List.append_nil]
    refine ⟨hq.fits, ?_⟩
    rw [hmove (by simp [waiting, hpc])]
    exact hq.queue
  | @writeAsync t back hpc =>
    have hresume : waiting s.mem (resume back) = [] := by cases back <;> rfl
    simp only [obtained, waiting, hpc, List.map_nil, List.append_nil]
    refine ⟨hq.fits, ?_⟩
    rw [hmove (hresume.trans (by simp [waiting, hpc]))]
    exact hq.queue
  | txByte | txEmpty =>
    simp only [obtained, List.append_nil]
    exact ⟨hq.fits, hq.queue⟩

end Wire

section Runs

variable {τ : Type u} {E : Type v} [DecidableEq τ] {X : Escaper E} {m : RawMode}
  {mem : τ → ℕ → UInt8} {prog : τ → List CallerOp} {e : E} {s : State τ E}

/-- The two invariants over whole runs. -/
private theorem sharedInv (hfits : ∀ t, ∀ op ∈ prog t, op.fits)
    (h : (system ⟨.raw m, .asynchronous⟩ X mem prog e).ReachableWhen leavesLentBytes s) :
    ∃ r, SharedInv s r ∧
      ∀ t, QueueInv t (messagesOf t (initial mem prog e).mem (prog t)) s r := by
  refine System.ReachableWhen.invariant (P := fun s => ∃ r, SharedInv s r ∧
    ∀ t, QueueInv t (messagesOf t (initial mem prog e).mem (prog t)) s r) ?_ ?_ h
  · refine ⟨[], ⟨fun _ => trivial, fun _ => ?_, nofun, nofun⟩, fun t => ⟨hfits t, ?_⟩⟩
    · simp [system, initial, unsent]
    · simp [system, initial, waiting, sentBy]
  · rintro s l s' hreach ⟨r, hwire, hqueue⟩ hok hs
    rcases custody hreach.reachable with ⟨o, hc⟩
    have hstep := step_of_next hs
    exact ⟨r ++ obtained s l, hwire.step hc hok hstep, fun t => (hqueue t).step hwire hstep⟩

/-- **Tasks that share a device.** The wire shows whole messages in one order, a beginning of
it at any time, which has the messages of each task in the order of its calls; once no step
is left it has shown all messages of all tasks. -/
theorem shared_raw (hfits : ∀ t, ∀ op ∈ prog t, op.fits)
    (h : (system ⟨.raw m, .asynchronous⟩ X mem prog e).ReachableWhen leavesLentBytes s) :
    ∃ order : List (τ × List UInt8),
      (∀ t, sentBy t order <+: messagesOf t (initial mem prog e).mem (prog t)) ∧
      s.wire <+: (order.map Prod.snd).flatten ∧
      (Stuck ⟨.raw m, .asynchronous⟩ X s → s.wire = (order.map Prod.snd).flatten ∧
        ∀ t, sentBy t order = messagesOf t (initial mem prog e).mem (prog t)) := by
  rcases sharedInv hfits h with ⟨r, hwire, hqueue⟩
  refine ⟨r, fun t => ?_, ?_, fun hstuck => ?_⟩
  · have htotal := (hqueue t).queue
    rw [List.append_assoc] at htotal
    exact ⟨_, htotal⟩
  · by_cases hidle : ∀ t, ¬ (s.pc t).critical
    · exact ⟨_, hwire.idle hidle⟩
    · push Not at hidle
      rcases hidle with ⟨t, hcrit⟩
      cases hpc : s.pc t with
      | initFifo p back => exact ⟨_, hwire.initFifo t p back hpc⟩
      | writeAsync back => exact ⟨_, (hwire.writeAsync t back hpc).2⟩
      | _ => simp [hpc] at hcrit
  · have hdone := tx_not_deadlocked h.reachable hstuck
    have houtside : ∀ t, s.pc t = .outside ∧ s.todo t = [] := by
      intro t
      rcases hdone.tasks t with hout | hstopped
      · exact hout
      · have hplace := hwire.pcs t
        simp [hstopped, SharedPc] at hplace
    constructor
    · have hall := hwire.idle fun t => by simp [(houtside t).1]
      simpa [unsent_of_idle hdone.inFlight] using hall
    · intro t
      have htotal := (hqueue t).queue
      simpa [houtside t, waiting, messagesOf] using htotal

end Runs

/-- The run of the two tasks to its end, with a write to a byte that has been sent. -/
theorem twoTasks_shared : ∃ s, twoTasks.ReachableWhen leavesLentBytes s ∧
    s.wire = [1, 2, 2, 9] ∧ ∃ order : List (Bool × List UInt8),
      (∀ t, sentBy t order = if t then [[1], [9]] else [[2, 2]]) ∧
        s.wire = (order.map Prod.snd).flatten := by
  have hs := twoTasks.reachableWhen_get leavesLentBytes twoTasksRun (by decide)
  refine ⟨_, hs, rfl, ?_⟩
  rcases shared_raw (by simp [CallerOp.fits]) hs with ⟨order, -, -, hend⟩
  rcases hend ⟨by rintro (_ | _) <;> rfl, rfl, rfl⟩ with ⟨hwire, hall⟩
  refine ⟨order, ?_, hwire⟩
  rintro (_ | _)
  · exact hall false
  · exact hall true

end Samrh71Drivers.Serial
