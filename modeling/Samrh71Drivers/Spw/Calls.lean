import Samrh71Drivers.Spw.TxData
import Samrh71Drivers.Spw.TxOwnership

/-!
# The calls of the tasks and the packets of a node

The calls of any number of tasks meet at the TX semaphore: each of them obtains the token, or
times out. The record of a run shows the calls in the order in which that is settled. In it
the calls of each task are in the order of its program, each with the content its bytes had
when it was made, and the packets of those which have obtained the token leave the node in
the order of the record (`settledInv`).

No task waits for ever: where no step is left, every call of every program is settled and
every packet has left the node (`Stuck.done`).

## Main definitions

* `messagesOf` — the messages of a program, as they are when they are sent.
* `settles` — the call a step settles, and how.
* `madeBy`, `sentIn`, `timedOutIn` — the calls in a record.
* `SettledInv` — what a record has to do with the state.
* `Stuck`, `Done` — no step is left; every call has returned.
-/

namespace Samrh71Drivers.Spw

open Transition Custodian Lending

universe u

/-! ## The messages of a program -/

section Messages

variable {τ : Type u} [DecidableEq τ]

/-- The messages of a program of the task `t`, each with the content its bytes have when it
is sent. -/
def messagesOf (t : τ) (mem : Store τ UInt8) : List CallerOp → List (List UInt8)
  | [] => []
  | .send data length :: ops => mem.bytes t data length :: messagesOf t mem ops
  | .write a v :: ops => messagesOf t (mem.write t a v) ops

/-- A call is not empty and not longer than a receiver takes. -/
def CallerOp.fits (rxDataSize : ℕ) : CallerOp → Prop
  | .send _ length => 0 < length ∧ length ≤ rxDataSize
  | .write _ _ => True

/-- The messages of a task depend on its own memory only. -/
theorem messagesOf_congr {t : τ} {ops : List CallerOp} {mem mem' : Store τ UInt8}
    (h : ∀ a, mem t a = mem' t a) : messagesOf t mem ops = messagesOf t mem' ops := by
  induction ops generalizing mem mem' with
  | nil => rfl
  | cons op ops ih =>
    cases op with
    | send data length =>
      rw [messagesOf, messagesOf, ih h, Store.bytes_congr fun a _ _ => h a]
    | write a v =>
      rw [messagesOf, messagesOf, ih fun a' => ?_]
      rw [Store.write_apply, Store.write_apply, h a']

/-- A write of another task. -/
theorem messagesOf_write {t t' : τ} (hne : t' ≠ t) (ops : List CallerOp) (mem : Store τ UInt8)
    (a : ℕ) (v : UInt8) : messagesOf t (mem.write t' a v) ops = messagesOf t mem ops := by
  refine messagesOf_congr fun a' => ?_
  rw [Store.write_apply, if_neg]
  rintro ⟨hregion, -⟩
  exact hne hregion.symm

/-- A message is as long as its call says. -/
theorem length_of_mem_messagesOf {t : τ} {rxDataSize : ℕ} {ops : List CallerOp}
    {mem : Store τ UInt8} (hops : ∀ op ∈ ops, op.fits rxDataSize) {m : List UInt8}
    (hm : m ∈ messagesOf t mem ops) : m.length ≤ rxDataSize := by
  induction ops generalizing mem with
  | nil => cases hm
  | cons op ops ih =>
    have hrest : ∀ op ∈ ops, op.fits rxDataSize := fun op hop =>
      hops op (List.mem_cons_of_mem _ hop)
    cases op with
    | write a v => exact ih hrest hm
    | send data length =>
      rcases List.mem_cons.mp hm with rfl | hm
      · rw [Store.length_bytes]
        exact (hops _ List.mem_cons_self).2
      · exact ih hrest hm

end Messages

/-! ## The order in which the calls are settled -/

section Settled

variable {τ : Type u}

/-- The call a step settles, and whether it has obtained the token. -/
def settles (s : State τ) : Label τ → Option (Call τ × Bool)
  | .task t =>
    match s.pc t with
    | .obtain c => some (c, true)
    | _ => none
  | .timeout t =>
    match s.pc t with
    | .obtain c => some (c, false)
    | _ => none
  | _ => none

/-- The messages of the calls of a task. -/
def madeBy [DecidableEq τ] (t : τ) (order : List (Call τ × Bool)) : List (List UInt8) :=
  (order.filter fun e => e.1.task = t).map fun e => e.1.content

/-- The calls that have obtained the token. -/
def sentIn (order : List (Call τ × Bool)) : List (Call τ) :=
  (order.filter fun e => e.2).map Prod.fst

/-- The calls that have timed out. -/
def timedOutIn (order : List (Call τ × Bool)) : List (Call τ) :=
  (order.filter fun e => !e.2).map Prod.fst

/-- The message of a waiting call. -/
def Pc.waiting : Pc τ → List (List UInt8)
  | .obtain c => [c.content]
  | _ => []

variable [DecidableEq τ]

/-- What a record has to do with the state: the calls of each task in it, the waiting one and
those it has still to make are those of its program, and the record says which calls have
obtained the token and which have timed out. -/
structure SettledInv (mem : τ → ℕ → UInt8) (prog : τ → List CallerOp) (s : State τ)
    (order : List (Call τ × Bool)) : Prop where
  messages : ∀ t, madeBy t order ++ (s.pc t).waiting ++ messagesOf t s.mem (s.todo t) =
    messagesOf t mem (prog t)
  obtained : sentIn order = s.obtained
  timedOut : timedOutIn order = s.timedOut
  task : ∀ t c, s.pc t = .obtain c → c.task = t
  todo : ∀ t, s.todo t <:+ prog t
  running : ∀ t, s.pc t ≠ .stopped

variable {remoteNodeId : UInt8} {mem : τ → ℕ → UInt8} {prog : τ → List CallerOp}
  {rxDataSize : ℕ} {s s' : State τ} {order : List (Call τ × Bool)}

/-- A task that does not wait goes to a point where it does not wait. -/
private theorem SettledInv.move (h : SettledInv mem prog s order) {t : τ} {pc : Pc τ}
    (hbefore : (s.pc t).waiting = []) (hafter : pc.waiting = []) (hrunning : pc ≠ .stopped)
    (hmem : s'.mem = s.mem) (htodo : s'.todo = s.todo)
    (hpc : s'.pc = Function.update s.pc t pc) (hobtained : s'.obtained = s.obtained)
    (htimedOut : s'.timedOut = s.timedOut) : SettledInv mem prog s' order := by
  have hwaiting : ∀ t', (Function.update s.pc t pc t').waiting = (s.pc t').waiting := by
    intro t'
    by_cases heq : t' = t
    · subst heq
      rw [Function.update_self, hafter, hbefore]
    · rw [Function.update_of_ne heq]
  constructor
  case messages =>
    intro t'
    rw [hpc, hwaiting, hmem, htodo]
    exact h.messages t'
  case obtained => rw [hobtained, h.obtained]
  case timedOut => rw [htimedOut, h.timedOut]
  case task =>
    intro t' c hc
    rw [hpc] at hc
    rcases of_update (· = Pc.obtain c) hc with ⟨-, rfl⟩ | ⟨-, hc⟩
    · cases hafter
    · exact h.task t' c hc
  case todo => rw [htodo]; exact h.todo
  case running =>
    intro t' hstop
    rw [hpc] at hstop
    rcases of_update (· = Pc.stopped) hstop with ⟨-, hstop⟩ | ⟨-, hstop⟩
    · exact hrunning hstop
    · exact h.running t' hstop

/-- One more call in the record. -/
theorem madeBy_append (t : τ) (order : List (Call τ × Bool)) (c : Call τ) (b : Bool) :
    madeBy t (order ++ [(c, b)]) =
      madeBy t order ++ if c.task = t then [c.content] else [] := by
  by_cases h : c.task = t
  · simp [madeBy, h]
  · simp [madeBy, h]

/-- A waiting call is settled. -/
private theorem SettledInv.settle (h : SettledInv mem prog s order) {t : τ} {c : Call τ}
    {pc : Pc τ} {b : Bool} (hwait : s.pc t = .obtain c) (hafter : pc.waiting = [])
    (hrunning : pc ≠ .stopped) (hmem : s'.mem = s.mem) (htodo : s'.todo = s.todo)
    (hpc : s'.pc = Function.update s.pc t pc)
    (hobtained : s'.obtained = s.obtained ++ if b then [c] else [])
    (htimedOut : s'.timedOut = s.timedOut ++ if b then [] else [c]) :
    SettledInv mem prog s' (order ++ [(c, b)]) := by
  have htask := h.task t c hwait
  constructor
  case messages =>
    intro t'
    have hold := h.messages t'
    rw [hpc, hmem, htodo, madeBy_append, htask]
    by_cases heq : t' = t
    · subst heq
      rw [hwait] at hold
      rw [Function.update_self, hafter, if_pos rfl, List.append_nil]
      exact hold
    · rw [Function.update_of_ne heq, if_neg (Ne.symm heq), List.append_nil]
      exact hold
  case obtained =>
    rw [hobtained, ← h.obtained]
    cases b <;> simp [sentIn]
  case timedOut =>
    rw [htimedOut, ← h.timedOut]
    cases b <;> simp [timedOutIn]
  case task =>
    intro t' c' hc
    rw [hpc] at hc
    rcases of_update (· = Pc.obtain c') hc with ⟨-, rfl⟩ | ⟨-, hc⟩
    · cases hafter
    · exact h.task t' c' hc
  case todo =>
    rw [htodo]
    exact h.todo
  case running =>
    intro t' hstop
    rw [hpc] at hstop
    rcases of_update (· = Pc.stopped) hstop with ⟨-, hstop⟩ | ⟨-, hstop⟩
    · exact hrunning hstop
    · exact h.running t' hstop

/-- **One step keeps the record in order**, where no call is empty. -/
theorem SettledInv.step {l : Label τ} (hops : ∀ t, ∀ op ∈ prog t, op.fits rxDataSize)
    (h : SettledInv mem prog s order) (hs : Step remoteNodeId s l s') :
    SettledInv mem prog s' (order ++ (settles s l).toList) := by
  cases hs with
  | @callerWrite t a v ops hpc htodo =>
    have hnone : settles s (.task t) = none := by simp [settles, hpc]
    rw [hnone, Option.toList_none, List.append_nil]
    have hsuffix := h.todo t
    rw [htodo] at hsuffix
    constructor
    case messages =>
      intro t'
      rw [← h.messages t']
      by_cases heq : t' = t
      · subst heq
        simp only [Function.update_self, htodo, messagesOf]
      · simp only [Function.update_of_ne heq, messagesOf_write (Ne.symm heq)]
    case obtained => exact h.obtained
    case timedOut => exact h.timedOut
    case task => exact h.task
    case todo =>
      refine (Function.forall_update_iff s.todo fun t' ops => ops <:+ prog t').mpr ⟨?_, ?_⟩
      · exact (List.suffix_cons _ _).trans hsuffix
      · exact fun t' _ => h.todo t'
    case running => exact h.running
  | @call t data length ops hpc htodo hlength =>
    have hnone : settles s (.task t) = none := by simp [settles, hpc]
    rw [hnone, Option.toList_none, List.append_nil]
    have hsuffix := h.todo t
    rw [htodo] at hsuffix
    constructor
    case messages =>
      intro t'
      rw [← h.messages t']
      by_cases heq : t' = t
      · subst heq
        simp [htodo, hpc, Pc.waiting, messagesOf, nextCall]
      · simp only [Function.update_of_ne heq]
    case obtained => exact h.obtained
    case timedOut => exact h.timedOut
    case task =>
      intro t' c hc
      rcases of_update (· = Pc.obtain c) hc with ⟨rfl, hc⟩ | ⟨-, hc⟩
      · cases hc
        rfl
      · exact h.task t' c hc
    case todo =>
      refine (Function.forall_update_iff s.todo fun t' ops => ops <:+ prog t').mpr ⟨?_, ?_⟩
      · exact (List.suffix_cons _ _).trans hsuffix
      · exact fun t' _ => h.todo t'
    case running =>
      exact (Function.forall_update_iff s.pc fun _ pc => pc ≠ .stopped).mpr
        ⟨by simp, fun t' _ => h.running t'⟩
  | @callEmpty t data ops hpc htodo =>
    -- a call of the program is not empty
    have hmem : CallerOp.send data 0 ∈ prog t :=
      (h.todo t).mem (by rw [htodo]; exact List.mem_cons_self)
    exact absurd (hops t _ hmem).1 (Nat.lt_irrefl 0)
  | @obtain t c hpc =>
    have hsettles : settles s (.task t) = some (c, true) := by simp [settles, hpc]
    rw [hsettles]
    exact h.settle hpc rfl (by simp) rfl rfl rfl rfl (List.append_nil _).symm
  | @timeout t c hpc =>
    have hsettles : settles s (.timeout t) = some (c, false) := by simp [settles, hpc]
    rw [hsettles]
    exact h.settle hpc rfl (by simp) rfl rfl rfl (List.append_nil _).symm rfl
  | @setEntry t c hpc | @setList t c hpc | @timeoutCallback t c hpc =>
    have hnone : settles s (.task t) = none := by simp [settles, hpc]
    rw [hnone, Option.toList_none, List.append_nil]
    exact h.move (by rw [hpc]; rfl) rfl (by simp) rfl rfl rfl rfl rfl
  | start | read | deactivate | interrupt | release | setTxTimeoutCallback =>
    simp only [settles, Option.toList_none, List.append_nil]
    exact ⟨h.messages, h.obtained, h.timedOut, h.task, h.todo, h.running⟩

/-- **Every run has a record**, in which the calls of each task are in order. -/
theorem settledInv (hops : ∀ t, ∀ op ∈ prog t, op.fits rxDataSize)
    (h : (system remoteNodeId mem prog).Reachable s) : ∃ order, SettledInv mem prog s order := by
  obtain ⟨order, horder⟩ := System.Reachable.recorded settles h
  refine ⟨order, System.Reachable.recorded_invariant (P := SettledInv mem prog) ?_ ?_ horder⟩
  · constructor
    case messages => exact fun t => rfl
    case obtained => rfl
    case timedOut => rfl
    case task => nofun
    case todo => exact fun t => List.suffix_rfl
    case running => nofun
  · intro s order l s' _ hinv hs
    exact hinv.step hops (step_of_next hs)

end Settled

/-! ## No deadlock -/

section Stuck

variable {τ : Type u} [DecidableEq τ] {remoteNodeId : UInt8} {mem : τ → ℕ → UInt8}
  {prog : τ → List CallerOp} {s : State τ}

/-- No step is left but a timeout. -/
def Stuck (remoteNodeId : UInt8) (s : State τ) : Prop :=
  (∀ t, next remoteNodeId s (.task t) = none) ∧
    ∀ l ∈ [Label.start, .read, .deactivate, .interrupt, .release], next remoteNodeId s l = none

/-- Every call has returned, or its task has stopped at the assertion on the length, and
every packet has left. -/
structure Done (s : State τ) : Prop where
  tasks : ∀ t, s.pc t = .outside ∧ s.todo t = [] ∨ s.pc t = .stopped
  left : s.left.map Packet.call = s.obtained

/-- The hardware is not left with a list. -/
private theorem Stuck.hardware (h : Stuck remoteNodeId s)
    (hlist : s.queued ≠ none → s.sendList ≠ none) : withHardware s = [] ∧ owed s = 0 := by
  have hhw := h.2
  have hcb : s.inCallback = false := by
    have hnone := hhw .release (by simp)
    cases hcb : s.inCallback with
    | false => rfl
    | true => simp [next, hcb] at hnone
  have hdeactivated : s.deactivated = 0 := by
    have hnone := hhw .interrupt (by simp)
    by_contra hne
    simp [next, hcb, Nat.pos_of_ne_zero hne] at hnone
  have hactive : s.active = none := by
    cases ha : s.active with
    | none => rfl
    | some tr =>
      have hread := hhw .read (by simp)
      have hend := hhw .deactivate (by simp)
      by_cases hlt : tr.data.taken < tr.data.length
      · simp [next, ha, Lending.Loan.take, hlt] at hread
      · simp [next, ha, Nat.not_lt.mp hlt] at hend
  have hqueued : s.queued = none := by
    cases hq : s.queued with
    | none => rfl
    | some list =>
      obtain ⟨entry, he⟩ := Option.ne_none_iff_exists'.mp (hlist (by simp [hq]))
      have hstart := hhw .start (by simp)
      simp [next, hq, hactive, he] at hstart
  constructor
  · simp [withHardware, hqueued, hactive]
  · simp [owed, hqueued, hactive, hdeactivated, hcb]

omit [DecidableEq τ] in
/-- The calls that have handed over a list are a beginning of those that have obtained the
token. -/
theorem OrderInv.handed_isPrefix (h : OrderInv s) : s.handed <+: s.obtained := by
  by_cases hidle : ∀ t, ¬ (s.pc t).critical
  · rw [h.idle hidle]
  · obtain ⟨t, ht⟩ := not_forall.mp hidle
    have hcrit := not_not.mp ht
    cases hpc : s.pc t with
    | setEntry c | setList c => exact ⟨[c], h.holding t c (by simp [hpc, Pc.holds])⟩
    | outside | obtain | timedOut | stopped => simp [hpc] at hcrit

/-- The data of every call in the runs in which the callers leave it. -/
theorem dataInv (h : (system remoteNodeId mem prog).ReachableWhen leavesDataToRead s) :
    DataInv s := by
  refine System.ReachableWhen.invariant (P := DataInv) ?_ ?_ h
  · constructor
    case sends => rintro t c (hp | hp | hp) <;> cases hp
    case entry => nofun
    case queued => nofun
    case active => nofun
    case left => nofun
  · intro s l s' hr hi hok hs
    obtain ⟨o, ho⟩ := custody hr.reachable
    exact hi.step ho hok (step_of_next hs)

/-- **No task waits for ever.** Where no step is left, every call has returned and every
packet has left. -/
theorem Stuck.done (h : (system remoteNodeId mem prog).Reachable s)
    (hstuck : Stuck remoteNodeId s) : Done s := by
  have horder := orderInv h
  obtain ⟨hwith, hidle⟩ := hstuck.hardware horder.queued
  obtain ⟨o, hc⟩ := custody h
  have hpc : ∀ t, s.pc t = .outside ∧ s.todo t = [] ∨ s.pc t = .stopped ∨
      ∃ c, s.pc t = .obtain c ∧ s.txSemaphore.available = false := by
    intro t
    have hnone := hstuck.1 t
    cases hpc : s.pc t with
    | outside =>
      cases htodo : s.todo t with
      | nil => exact .inl ⟨rfl, rfl⟩
      | cons op ops => cases op <;> simp [next, taskStep, hpc, htodo] at hnone
    | obtain c =>
      refine .inr (.inr ⟨c, rfl, ?_⟩)
      simpa [next, taskStep, hpc, Semaphore.obtain] using hnone
    | stopped => exact .inr (.inl rfl)
    | setEntry c | setList c | timedOut c => simp [next, taskStep, hpc] at hnone
  have hcritical : ∀ t, ¬ (s.pc t).critical := by
    intro t
    rcases hpc t with ⟨hout, -⟩ | hstop | ⟨c, hwait, -⟩
    · simp [hout]
    · simp [hstop]
    · simp [hwait]
  constructor
  case tasks =>
    intro t
    rcases hpc t with hdone | hstop | ⟨c, -, htoken⟩
    · exact .inl hdone
    · exact .inr hstop
    · -- the token is neither with a sender nor with the hardware
      exfalso
      rcases hc.exclusive with ⟨havailable, -⟩ | ⟨-, ⟨t', hcrit, -⟩, -⟩ | ⟨-, -, hone⟩
      · rw [htoken] at havailable
        cases havailable
      · exact hcritical t' hcrit
      · omega
  case left =>
    have hleft := horder.left
    rw [hwith, List.append_nil] at hleft
    rw [hleft, horder.idle hcritical]

end Stuck
end Samrh71Drivers.Spw
