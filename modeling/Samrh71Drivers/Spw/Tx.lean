import Samrh71Drivers.Lib.Transition
import Samrh71Drivers.Lib.Custody
import Samrh71Drivers.Lib.Loan
import Samrh71Drivers.Rtems

/-!
# Transmission in the SpaceWire driver

`samrh71_rtems_spacewire_send` on one instance, for any number of calling tasks, with the
transmitter it drives. Between its calls a task may write to its own memory. One label is
one step of one task, of the transmitter, or of the interrupt handler.

The transmitter is handed a reference to `tx_send_list`, whose one entry refers to the
caller's data. It reads the entry when it starts the list and the data one byte at a time,
and it deactivates the list after the last byte; the interrupt for that runs
`spw_tx_callback`, which releases the semaphore.

Every call has a number for its task, and its record keeps the bytes that `data` held when
it was made. Both are there for the statements only.

## Main definitions

* `Call`, `Packet` — a call of the send function, and a packet that has left the node.
* `State`, `next`, `system` — the transition system.
* `Step` — the same steps, as an inversion principle.
* `owed`, `refines`, `custody` — the TX token is conserved.
-/

namespace Samrh71Drivers.Spw

open Transition Custodian Lending

universe u

/-- A call of `samrh71_rtems_spacewire_send` on `length` bytes at `data`. -/
structure Call (τ : Type u) where
  task : τ
  /-- How many calls the task has made before. -/
  number : ℕ
  data : ℕ
  length : ℕ
  /-- What `data` held when the call was made. -/
  content : List UInt8

/-- What tells one call from another. -/
def Call.key {τ : Type u} (c : Call τ) : τ × ℕ := (c.task, c.number)

/-- Where a task is. -/
inductive Pc (τ : Type u)
  /-- Not in `samrh71_rtems_spacewire_send`. -/
  | outside
  /-- In `rtems_semaphore_obtain`. -/
  | obtain (c : Call τ)
  /-- Before `Spw_Tx_setNextSendListEntry`. -/
  | setEntry (c : Call τ)
  /-- Before `Spw_Tx_setNextSendList`. -/
  | setList (c : Call τ)
  /-- The obtain has timed out. -/
  | timedOut (c : Call τ)
  /-- Stopped at a failed assertion. -/
  | stopped

/-- What a caller does next: call the send function, or write a byte of its own memory. -/
inductive CallerOp
  | send (data length : ℕ)
  | write (a : ℕ) (v : UInt8)

/-- The fields of `Spw_Tx_SendListEntryStruct` that depend on the call: `dataAddress`, in
the memory of a task, and `dataSize`, a `uint32_t` as the `size_t` it is converted from. -/
structure SendListEntry (τ : Type u) where
  task : τ
  dataAddress : ℕ
  dataSize : ℕ

/-- A send list handed over and not started: the router byte of its configuration, and
the call it was handed over by. -/
structure SendList (τ : Type u) where
  routerByte : UInt8
  call : Call τ

/-- The active send list: the data still to be read and the bytes read so far. -/
structure Transfer (τ : Type u) where
  routerByte : UInt8
  data : Loan τ
  read : List UInt8
  call : Call τ

/-- A packet that has left the node. -/
structure Packet (τ : Type u) where
  routerByte : UInt8
  data : List UInt8
  call : Call τ

/-- One instance with its callers and its transmitter, and a record of the calls that have
obtained the semaphore, handed over a list, or timed out. -/
structure State (τ : Type u) where
  mem : Store τ UInt8
  /-- `tx_send_list[0]`. -/
  sendList : Option (SendListEntry τ)
  txSemaphore : Semaphore
  /-- A callback is registered in `on_tx_timeout`. -/
  onTxTimeout : Bool
  queued : Option (SendList τ)
  active : Option (Transfer τ)
  /-- Deactivations whose interrupt has not been taken. -/
  deactivated : ℕ
  /-- In `spw_tx_callback`, before the release. -/
  inCallback : Bool
  pc : τ → Pc τ
  todo : τ → List CallerOp
  calls : τ → ℕ
  left : List (Packet τ)
  obtained : List (Call τ)
  handed : List (Call τ)
  timedOut : List (Call τ)
  /-- The calls of the timeout callback. -/
  notified : List (Call τ)

/-- The choices of the environment. -/
inductive Label (τ : Type u)
  /-- The next step of a task. -/
  | task (t : τ)
  /-- The obtain of a task times out. -/
  | timeout (t : τ)
  /-- The transmitter starts the list it was handed. -/
  | start
  /-- The transmitter reads a byte. -/
  | read
  /-- The transmitter has read everything and deactivates the list. -/
  | deactivate
  /-- The deactivation interrupt enters `spw_tx_callback`. -/
  | interrupt
  /-- `spw_tx_callback` releases the semaphore. -/
  | release
  /-- `samrh71_rtems_spacewire_set_tx_timeout_callback`. -/
  | setTxTimeoutCallback (registered : Bool)

section Model

variable {τ : Type u} [DecidableEq τ]

/-- The call a task makes next. -/
def nextCall (s : State τ) (t : τ) (data length : ℕ) : Call τ :=
  ⟨t, s.calls t, data, length, s.mem.bytes t data length⟩

/-- The next step of the task `t`; `none` where it has finished or is blocked. -/
def taskStep (remoteNodeId : UInt8) (s : State τ) (t : τ) : Option (State τ) :=
  match s.pc t with
  | .outside =>
    match s.todo t with
    | [] => none
    | .write a v :: ops => some { s with
        mem := s.mem.write t a v
        todo := Function.update s.todo t ops }
    | .send data length :: ops => some { s with
        pc := Function.update s.pc t
          (if 0 < length then .obtain (nextCall s t data length) else .stopped)
        todo := Function.update s.todo t ops
        calls := Function.update s.calls t (s.calls t + 1) }
  | .obtain c =>
    s.txSemaphore.obtain.map fun sem => { s with
      txSemaphore := sem
      pc := Function.update s.pc t (.setEntry c)
      obtained := s.obtained ++ [c] }
  | .setEntry c => some { s with
      sendList := some ⟨t, c.data, c.length⟩
      pc := Function.update s.pc t (.setList c) }
  | .setList c => some { s with
      queued := some ⟨remoteNodeId, c⟩
      pc := Function.update s.pc t .outside
      handed := s.handed ++ [c] }
  | .timedOut c => some { s with
      pc := Function.update s.pc t .outside
      notified := if s.onTxTimeout then s.notified ++ [c] else s.notified }
  | .stopped => none

/-- One step of the system. -/
def next (remoteNodeId : UInt8) (s : State τ) : Label τ → Option (State τ)
  | .task t => taskStep remoteNodeId s t
  | .timeout t =>
    match s.pc t with
    | .obtain c => some { s with
        pc := Function.update s.pc t (.timedOut c)
        timedOut := s.timedOut ++ [c] }
    | _ => none
  | .start =>
    match s.queued, s.active, s.sendList with
    | some list, none, some entry => some { s with
        queued := none
        active := some
          ⟨list.routerByte, ⟨entry.task, entry.dataAddress, entry.dataSize, 0⟩, [], list.call⟩ }
    | _, _, _ => none
  | .read =>
    match s.active with
    | some tr => (tr.data.take s.mem).map fun r =>
        { s with active := some { tr with data := r.2, read := tr.read ++ [r.1] } }
    | none => none
  | .deactivate =>
    match s.active with
    | some tr =>
      if tr.data.length ≤ tr.data.taken then some { s with
        active := none
        deactivated := s.deactivated + 1
        left := s.left ++ [⟨tr.routerByte, tr.read, tr.call⟩] }
      else none
    | none => none
  | .interrupt =>
    if 0 < s.deactivated ∧ s.inCallback = false then
      some { s with deactivated := s.deactivated - 1, inCallback := true }
    else none
  | .release =>
    if s.inCallback = true then
      some { s with inCallback := false, txSemaphore := s.txSemaphore.release }
    else none
  | .setTxTimeoutCallback registered => some { s with onTxTimeout := registered }

/-- The state after `samrh71_rtems_spacewire_init`: the TX semaphore has its token. -/
def initial (mem : τ → ℕ → UInt8) (prog : τ → List CallerOp) : State τ where
  mem := mem
  sendList := none
  txSemaphore := Semaphore.create 1
  onTxTimeout := false
  queued := none
  active := none
  deactivated := 0
  inCallback := false
  pc _ := .outside
  todo := prog
  calls _ := 0
  left := []
  obtained := []
  handed := []
  timedOut := []
  notified := []

/-- The transition system of the callers `prog` and one instance. -/
def system (remoteNodeId : UInt8) (mem : τ → ℕ → UInt8) (prog : τ → List CallerOp) :
    System (State τ) (Label τ) where
  init := initial mem prog
  next := next remoteNodeId

/-- Every step of the system, with what it needs and what it does. -/
inductive Step (remoteNodeId : UInt8) (s : State τ) : Label τ → State τ → Prop
  | callerWrite {t a v ops} : s.pc t = .outside → s.todo t = .write a v :: ops →
      Step remoteNodeId s (.task t) { s with
        mem := s.mem.write t a v
        todo := Function.update s.todo t ops }
  | call {t data length ops} : s.pc t = .outside → s.todo t = .send data length :: ops →
      0 < length →
      Step remoteNodeId s (.task t) { s with
        pc := Function.update s.pc t (.obtain (nextCall s t data length))
        todo := Function.update s.todo t ops
        calls := Function.update s.calls t (s.calls t + 1) }
  | callEmpty {t data ops} : s.pc t = .outside → s.todo t = .send data 0 :: ops →
      Step remoteNodeId s (.task t) { s with
        pc := Function.update s.pc t .stopped
        todo := Function.update s.todo t ops
        calls := Function.update s.calls t (s.calls t + 1) }
  | obtain {t c} : s.pc t = .obtain c → s.txSemaphore.available = true →
      Step remoteNodeId s (.task t) { s with
        txSemaphore := ⟨false⟩
        pc := Function.update s.pc t (.setEntry c)
        obtained := s.obtained ++ [c] }
  | setEntry {t c} : s.pc t = .setEntry c →
      Step remoteNodeId s (.task t) { s with
        sendList := some ⟨t, c.data, c.length⟩
        pc := Function.update s.pc t (.setList c) }
  | setList {t c} : s.pc t = .setList c →
      Step remoteNodeId s (.task t) { s with
        queued := some ⟨remoteNodeId, c⟩
        pc := Function.update s.pc t .outside
        handed := s.handed ++ [c] }
  | timeoutCallback {t c} : s.pc t = .timedOut c →
      Step remoteNodeId s (.task t) { s with
        pc := Function.update s.pc t .outside
        notified := if s.onTxTimeout then s.notified ++ [c] else s.notified }
  | timeout {t c} : s.pc t = .obtain c →
      Step remoteNodeId s (.timeout t) { s with
        pc := Function.update s.pc t (.timedOut c)
        timedOut := s.timedOut ++ [c] }
  | start {list entry} : s.queued = some list → s.active = none → s.sendList = some entry →
      Step remoteNodeId s .start { s with
        queued := none
        active := some
          ⟨list.routerByte, ⟨entry.task, entry.dataAddress, entry.dataSize, 0⟩, [], list.call⟩ }
  | read {tr b data} : s.active = some tr → tr.data.take s.mem = some (b, data) →
      Step remoteNodeId s .read { s with
        active := some { tr with data := data, read := tr.read ++ [b] } }
  | deactivate {tr} : s.active = some tr → tr.data.length ≤ tr.data.taken →
      Step remoteNodeId s .deactivate { s with
        active := none
        deactivated := s.deactivated + 1
        left := s.left ++ [⟨tr.routerByte, tr.read, tr.call⟩] }
  | interrupt {n} : s.deactivated = n + 1 → s.inCallback = false →
      Step remoteNodeId s .interrupt { s with deactivated := n, inCallback := true }
  | release : s.inCallback = true →
      Step remoteNodeId s .release { s with inCallback := false, txSemaphore := ⟨true⟩ }
  | setTxTimeoutCallback {registered} :
      Step remoteNodeId s (.setTxTimeoutCallback registered) { s with onTxTimeout := registered }

variable {remoteNodeId : UInt8} {s s' : State τ}

theorem step_of_taskStep {t : τ} (h : taskStep remoteNodeId s t = some s') :
    Step remoteNodeId s (.task t) s' := by
  cases hpc : s.pc t with
  | outside =>
    cases hops : s.todo t with
    | nil => simp [taskStep, hpc, hops] at h
    | cons op ops =>
      cases op with
      | write a v =>
        simp only [taskStep, hpc, hops, Option.some.injEq] at h
        exact h ▸ .callerWrite hpc hops
      | send data length =>
        simp only [taskStep, hpc, hops, Option.some.injEq] at h
        subst h
        cases length with
        | zero => exact .callEmpty hpc hops
        | succ n => exact .call hpc hops (Nat.succ_pos n)
  | obtain c =>
    simp only [taskStep, hpc, Option.map_eq_some_iff, Semaphore.obtain_eq_some_iff] at h
    rcases h with ⟨sem, ⟨hav, rfl⟩, rfl⟩
    exact .obtain hpc hav
  | setEntry c =>
    simp only [taskStep, hpc, Option.some.injEq] at h
    exact h ▸ .setEntry hpc
  | setList c =>
    simp only [taskStep, hpc, Option.some.injEq] at h
    exact h ▸ .setList hpc
  | timedOut c =>
    simp only [taskStep, hpc, Option.some.injEq] at h
    exact h ▸ .timeoutCallback hpc
  | stopped => simp [taskStep, hpc] at h

/-- **Inversion.** Every step of the system is one of the cases of `Step`. -/
theorem step_of_next {l : Label τ} (h : next remoteNodeId s l = some s') :
    Step remoteNodeId s l s' := by
  cases l with
  | task t => exact step_of_taskStep h
  | timeout t =>
    cases hpc : s.pc t with
    | obtain c =>
      simp only [next, hpc, Option.some.injEq] at h
      exact h ▸ .timeout hpc
    | _ => simp [next, hpc] at h
  | start =>
    cases hq : s.queued with
    | none => simp [next, hq] at h
    | some list =>
      cases ha : s.active with
      | some tr => simp [next, hq, ha] at h
      | none =>
        cases he : s.sendList with
        | none => simp [next, hq, ha, he] at h
        | some entry =>
          have hstart : next remoteNodeId s .start = some { s with
              queued := none
              active := some ⟨list.routerByte, ⟨entry.task, entry.dataAddress, entry.dataSize, 0⟩,
                [], list.call⟩ } := by
            simp only [next, hq, ha, he]
          rw [hstart] at h
          exact Option.some.inj h ▸ .start hq ha he
  | read =>
    cases ha : s.active with
    | none => simp [next, ha] at h
    | some tr =>
      simp only [next, ha] at h
      rcases Option.map_eq_some_iff.mp h with ⟨⟨b, data⟩, htake, rfl⟩
      exact .read ha htake
  | deactivate =>
    cases ha : s.active with
    | none => simp [next, ha] at h
    | some tr =>
      by_cases hend : tr.data.length ≤ tr.data.taken
      · simp only [next, ha, hend, if_true, Option.some.injEq] at h
        exact h ▸ .deactivate ha hend
      · simp [next, ha, hend] at h
  | interrupt =>
    by_cases hirq : 0 < s.deactivated ∧ s.inCallback = false
    · rcases Nat.exists_eq_succ_of_ne_zero (Nat.ne_of_gt hirq.1) with ⟨n, hn⟩
      have hn' : s.deactivated - 1 = n := by omega
      simp only [next, hirq, and_self, if_true, hn', Option.some.injEq] at h
      exact h ▸ .interrupt hn hirq.2
    · simp [next, hirq] at h
  | release =>
    by_cases hcb : s.inCallback = true
    · simp only [next, hcb, if_true, Option.some.injEq] at h
      exact h ▸ .release hcb
    · simp [next, hcb] at h
  | setTxTimeoutCallback registered =>
    simp only [next, Option.some.injEq] at h
    exact h ▸ .setTxTimeoutCallback

end Model

/-! ## The TX token -/

section Token

variable {τ : Type u}

/-- Between a successful obtain and `Spw_Tx_setNextSendList`. -/
def Pc.critical : Pc τ → Prop
  | .setEntry _ | .setList _ => True
  | _ => False

@[simp] theorem critical_outside : ¬ (Pc.outside : Pc τ).critical := id
@[simp] theorem critical_obtain (c : Call τ) : ¬ (Pc.obtain c).critical := id
@[simp] theorem critical_setEntry (c : Call τ) : (Pc.setEntry c).critical := trivial
@[simp] theorem critical_setList (c : Call τ) : (Pc.setList c).critical := trivial
@[simp] theorem critical_timedOut (c : Call τ) : ¬ (Pc.timedOut c).critical := id
@[simp] theorem critical_stopped : ¬ (Pc.stopped : Pc τ).critical := id

/-- The send lists with the hardware whose deactivation has not been turned into a
release. -/
def owed (s : State τ) : ℕ :=
  s.queued.isSome.toNat + s.active.isSome.toNat + s.deactivated + s.inCallback.toNat

/-- The places of the TX token in a state. -/
abbrev TxCustody (s : State τ) (o : Holder τ) : Prop :=
  Custody s.txSemaphore.available (fun t => (s.pc t).critical) (owed s) o

/-- Nothing is with the hardware while a sender has the token. -/
theorem idle_of_critical {s : State τ} {o : Holder τ} (h : TxCustody s o) {t : τ}
    (ht : (s.pc t).critical) : s.queued = none ∧ s.active = none := by
  have howed := h.owed_eq_zero ht
  constructor
  · cases hq : s.queued with
    | none => rfl
    | some list => simp [owed, hq] at howed
  · cases ha : s.active with
    | none => rfl
    | some tr => simp [owed, ha] at howed

variable [DecidableEq τ] {remoteNodeId : UInt8} {s s' : State τ}

/-- **One step keeps the token conserved.** The token makes at most one move. -/
theorem TxCustody.step {l : Label τ} {o : Holder τ} (h : TxCustody s o)
    (hs : Step remoteNodeId s l s') : ∃ o', Relation.ReflGen Move o o' ∧ TxCustody s' o' := by
  cases hs with
  | callerWrite | setTxTimeoutCallback => exact ⟨o, .refl, h⟩
  | call hpc | callEmpty hpc | setEntry hpc | timeoutCallback hpc | timeout hpc =>
    -- the task neither enters nor leaves its critical section
    exact ⟨o, .refl, h.congr (update_iff Pc.critical (by simp [hpc]))⟩
  | @obtain t c hpc hav =>
    rw [TxCustody, hav] at h
    refine h.obtain (t := t) (by simp) fun t' ht' => ?_
    simp [ht']
  | @setList t c hpc =>
    have hidle : owed s = 0 := h.owed_eq_zero (t := t) (by simp [hpc])
    have howed : owed { s with
        queued := some ⟨remoteNodeId, c⟩
        pc := Function.update s.pc t .outside
        handed := s.handed ++ [c] } = owed s + 1 := by
      simp only [owed] at hidle ⊢
      simp only [Option.isSome_some, Bool.toNat_true]
      omega
    refine h.handOver (t := t) (by simp [hpc]) (by simp) (fun t' ht' => ?_) howed
    simp [ht']
  -- the hardware moves its list from one stage to the next
  | start hq ha => exact ⟨o, .refl, h.moved (by simp [owed, hq, ha])⟩
  | read ha => exact ⟨o, .refl, h.moved (by simp [owed, ha])⟩
  | deactivate ha =>
    refine ⟨o, .refl, h.moved ?_⟩
    simp only [owed, ha, Option.isSome_some, Option.isSome_none, Bool.toNat_true, Bool.toNat_false]
    omega
  | interrupt hn hcb =>
    refine ⟨o, .refl, h.moved ?_⟩
    simp only [owed, hn, hcb, Bool.toNat_true, Bool.toNat_false]
    omega
  | release hcb => exact h.release (by simp [owed, hcb])

/-- **The driver refines the abstract resource**, which is free at first. -/
theorem refines (remoteNodeId : UInt8) (mem : τ → ℕ → UInt8) (prog : τ → List CallerOp) :
    (system remoteNodeId mem prog).Refines .free Move TxCustody := by
  constructor
  · exact ⟨by simp [system, initial], by simp [system, initial], by simp, fun _ => rfl⟩
  · intro s l s' o ho hs
    exact ho.step (step_of_next hs)

/-- **The TX token is conserved.** In every reachable state it is in exactly one place: in
the semaphore, with one sender, or with the hardware. -/
theorem custody {mem : τ → ℕ → UInt8} {prog : τ → List CallerOp}
    (h : (system remoteNodeId mem prog).Reachable s) : ∃ o, TxCustody s o := by
  obtain ⟨o, -, ho⟩ := (refines remoteNodeId mem prog).reachable h
  exact ⟨o, ho⟩

end Token
end Samrh71Drivers.Spw
