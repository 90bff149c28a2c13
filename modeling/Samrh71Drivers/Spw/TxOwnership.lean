import Samrh71Drivers.Spw.Tx
import Mathlib.Data.List.Infix
import Mathlib.Data.List.Nodup

/-!
# Ownership of the send list

Any number of tasks call `samrh71_rtems_spacewire_send`, any of them may time out, and the
hardware deactivates one list after the other. Three layers of facts lead to the result:
where the token is (`custody`), in which order the calls pass it (`OrderInv`), and that a
call which has timed out does not come back (`KeyInv`).

That later sends still work is a statement about what can happen next: from every reachable
state the token can come back, whoever has it (`leads_token`), and a waiting call can then
hand over its list.

## Main definitions

* `OrderInv` — the calls that obtained the token, handed over their list, and left.
* `KeyInv` — every call is settled once.
* `TxOwnership` — what ownership means for one state.
* `tx_ownership` — it holds in every reachable state.
-/

namespace Samrh71Drivers.Spw

open Transition Custodian Lending

universe u

/-! ## The order of the calls -/

section Order

variable {τ : Type u}

/-- The call that has obtained the token and not handed over its list. -/
def Pc.holds : Pc τ → List (Call τ)
  | .setEntry c | .setList c => [c]
  | _ => []

theorem critical_of_holds {pc : Pc τ} {c : Call τ} (h : pc.holds = [c]) : pc.critical := by
  cases pc with
  | setEntry | setList => trivial
  | outside | obtain | timedOut | stopped => simp [Pc.holds] at h

/-- The calls whose list is with the hardware and has not left. -/
def withHardware (s : State τ) : List (Call τ) :=
  (s.active.map Transfer.call).toList ++ (s.queued.map SendList.call).toList

/-- Calls pass the semaphore, the hand-over and the link in one order, and the list is
written when it is handed over. -/
structure OrderInv (s : State τ) : Prop where
  holding : ∀ t c, (s.pc t).holds = [c] → s.handed ++ [c] = s.obtained
  idle : (∀ t, ¬ (s.pc t).critical) → s.handed = s.obtained
  left : s.left.map Packet.call ++ withHardware s = s.handed
  setList : ∀ t c, s.pc t = .setList c → s.sendList ≠ none
  queued : s.queued ≠ none → s.sendList ≠ none

variable [DecidableEq τ] {remoteNodeId : UInt8} {s s' : State τ}

/-- A step of one task between two points outside its critical section. -/
private theorem OrderInv.move (h : OrderInv s) {t : τ} {pc : Pc τ} (hpc : ¬ (s.pc t).critical)
    (hpc' : ¬ pc.critical) {s' : State τ} (hp : s'.pc = Function.update s.pc t pc)
    (hh : s'.handed = s.handed) (ho : s'.obtained = s.obtained) (hl : s'.left = s.left)
    (hw : withHardware s' = withHardware s) (hsl : s'.sendList = s.sendList)
    (hq : s'.queued = s.queued) : OrderInv s' := by
  constructor
  · intro t' c hc
    rw [hp] at hc
    rw [hh, ho]
    rcases of_update (Pc.holds · = [c]) hc with ⟨-, hc⟩ | ⟨-, hc⟩
    · exact absurd (critical_of_holds hc) hpc'
    · exact h.holding t' c hc
  · intro hidle
    rw [hh, ho]
    refine h.idle fun t' hcrit => ?_
    by_cases ht' : t' = t
    · subst ht'
      exact hpc hcrit
    · exact hidle t' (by rwa [hp, Function.update_of_ne ht'])
  · rw [hl, hw, hh]
    exact h.left
  · intro t' c hc
    rw [hp] at hc
    rw [hsl]
    rcases of_update (· = Pc.setList c) hc with ⟨-, hc⟩ | ⟨-, hc⟩
    · exact absurd (by simp [hc]) hpc'
    · exact h.setList t' c hc
  · rw [hsl, hq]
    exact h.queued

/-- **One step keeps the order of the calls.** -/
theorem OrderInv.step {l : Label τ} {o : Holder τ} (hc : TxCustody s o) (h : OrderInv s)
    (hs : Step remoteNodeId s l s') : OrderInv s' := by
  cases hs with
  | callerWrite | interrupt | release | setTxTimeoutCallback =>
    exact ⟨h.holding, h.idle, h.left, h.setList, h.queued⟩
  | call hpc | callEmpty hpc | timeoutCallback hpc | timeout hpc =>
    exact h.move (by simp [hpc]) (by simp) rfl rfl rfl rfl rfl rfl rfl
  | @obtain t c hpc hav =>
    -- the token was available, so no call was between obtain and hand-over
    rw [TxCustody, hav] at hc
    have hfree : ∀ t', ¬ (s.pc t').critical := by
      intro t' hcrit
      have ho := hc.token_iff.mp rfl
      have := (hc.critical_iff t').mp hcrit
      simp [ho] at this
    constructor
    case holding =>
      intro t' d hd
      rcases of_update (Pc.holds · = [d]) hd with ⟨-, hd⟩ | ⟨-, hd⟩
      · cases hd
        rw [h.idle hfree]
      · exact absurd (critical_of_holds hd) (hfree t')
    case idle =>
      intro hidle
      exact absurd (by simp) (hidle t)
    case left => exact h.left
    case setList =>
      intro t' d hd
      rcases of_update (· = Pc.setList d) hd with ⟨-, hd⟩ | ⟨-, hd⟩
      · cases hd
      · exact absurd (by simp [hd]) (hfree t')
    case queued => exact h.queued
  | @setEntry t c hpc =>
    constructor
    case holding =>
      intro t' d hd
      rcases of_update (Pc.holds · = [d]) hd with ⟨-, hd⟩ | ⟨-, hd⟩
      · exact h.holding t d (by rw [hpc]; exact hd)
      · exact h.holding t' d hd
    case idle =>
      intro hidle
      exact absurd (by simp) (hidle t)
    case left => exact h.left
    case setList =>
      intro t' d hd
      simp
    case queued =>
      intro hq
      simp
  | @setList t c hpc =>
    have hfree := idle_of_critical hc (t := t) (by simp [hpc])
    have hone := h.holding t c (by simp [hpc, Pc.holds])
    have hother : ∀ t', ¬ (Function.update s.pc t .outside t').critical := by
      intro t' hcrit
      rcases of_update Pc.critical hcrit with ⟨-, hcrit⟩ | ⟨hne, hcrit⟩
      · exact critical_outside hcrit
      · exact hne (hc.unique hcrit (by simp [hpc]))
    constructor
    case holding =>
      intro t' d hd
      exact absurd (critical_of_holds hd) (hother t')
    case idle =>
      intro _
      exact hone
    case left =>
      have hleft := h.left
      simp only [withHardware, hfree.1, hfree.2] at hleft ⊢
      simp only [Option.map_none, Option.toList_none, List.append_nil] at hleft
      rw [hleft]
      rfl
    case setList =>
      intro t' d hd
      change Function.update s.pc t .outside t' = .setList d at hd
      exact absurd (by rw [hd]; simp) (hother t')
    case queued =>
      intro _
      exact h.setList t c hpc
  | @start list entry hq ha he =>
    refine ⟨h.holding, h.idle, ?_, h.setList, fun hne => absurd rfl hne⟩
    have hleft := h.left
    simpa [withHardware, hq, ha] using hleft
  | @read tr b data ha htake =>
    refine ⟨h.holding, h.idle, ?_, h.setList, h.queued⟩
    have hleft := h.left
    simpa [withHardware, ha] using hleft
  | @deactivate tr ha hend =>
    refine ⟨h.holding, h.idle, ?_, h.setList, h.queued⟩
    have hleft := h.left
    simpa [withHardware, ha] using hleft

/-- The order of the calls in every reachable state. -/
theorem orderInv {mem : τ → ℕ → UInt8} {prog : τ → List CallerOp}
    (h : (system remoteNodeId mem prog).Reachable s) : OrderInv s := by
  refine System.ReachableWhen.invariant (P := OrderInv) ?_ ?_ h
  · constructor
    · intro t c hc
      cases hc
    · intro _
      rfl
    · rfl
    · intro t c hc
      cases hc
    · intro hne
      exact absurd rfl hne
  · intro s l s' hr hi _ hs
    rcases custody hr with ⟨o, ho⟩
    exact hi.step ho (step_of_next hs)

end Order

/-! ## Every call is settled once -/

section Keys

variable {τ : Type u}

/-- The calls that have obtained the token or timed out. -/
def settled (s : State τ) : List (τ × ℕ) := (s.obtained ++ s.timedOut).map Call.key

/-- A waiting call is the last one of its task and not settled; settled calls are
different. -/
structure KeyInv (s : State τ) : Prop where
  waiting : ∀ t c, s.pc t = .obtain c → c.task = t ∧ c.number < s.calls t ∧ c.key ∉ settled s
  bound : ∀ k ∈ settled s, k.2 < s.calls k.1
  nodup : (settled s).Nodup

variable [DecidableEq τ] {remoteNodeId : UInt8} {s s' : State τ}

/-- A step of one task to a point where it does not wait. -/
private theorem waiting_update (h : KeyInv s) {t t' : τ} {pc : Pc τ} {c : Call τ}
    (hpc : ∀ d, pc ≠ .obtain d) (hc : Function.update s.pc t pc t' = .obtain c) :
    t' ≠ t ∧ c.task = t' ∧ c.number < s.calls t' ∧ c.key ∉ settled s := by
  rcases of_update (· = Pc.obtain c) hc with ⟨-, hc⟩ | ⟨hne, hc⟩
  · exact absurd hc (hpc c)
  · exact ⟨hne, h.waiting t' c hc⟩

/-- The number of calls of a task does not decrease. -/
private theorem lt_calls {t t' : τ} {n : ℕ} (h : n < s.calls t') :
    n < Function.update s.calls t (s.calls t + 1) t' := by
  by_cases ht' : t' = t
  · rw [ht'] at h ⊢
    rw [Function.update_self]
    omega
  · rwa [Function.update_of_ne ht']

/-- **One step settles a call at most once.** -/
theorem KeyInv.step {l : Label τ} (h : KeyInv s) (hs : Step remoteNodeId s l s') :
    KeyInv s' := by
  cases hs with
  | callerWrite | interrupt | release | setTxTimeoutCallback | start | read | deactivate =>
    exact ⟨h.waiting, h.bound, h.nodup⟩
  | @call t data length ops hpc hops hlen =>
    constructor
    case waiting =>
      intro t' c hc
      rcases of_update (· = Pc.obtain c) hc with ⟨rfl, hself⟩ | ⟨-, hc⟩
      · cases hself
        refine ⟨rfl, ?_, ?_⟩
        · simp [nextCall]
        · intro hmem
          exact absurd (h.bound _ hmem) (by simp [nextCall, Call.key])
      · obtain ⟨htask, hlt, hnew⟩ := h.waiting t' c hc
        exact ⟨htask, lt_calls hlt, hnew⟩
    case bound =>
      intro k hk
      exact lt_calls (h.bound k hk)
    case nodup => exact h.nodup
  | @callEmpty t data ops hpc hops =>
    constructor
    case waiting =>
      intro t' c hc
      obtain ⟨-, htask, hlt, hnew⟩ := waiting_update h (by simp) hc
      exact ⟨htask, lt_calls hlt, hnew⟩
    case bound =>
      intro k hk
      exact lt_calls (h.bound k hk)
    case nodup => exact h.nodup
  | @obtain t c hpc hav =>
    obtain ⟨htask, hlt, hnew⟩ := h.waiting t c hpc
    have hset : settled { s with
        txSemaphore := ⟨false⟩
        pc := Function.update s.pc t (.setEntry c)
        obtained := s.obtained ++ [c] } =
          s.obtained.map Call.key ++ c.key :: s.timedOut.map Call.key := by simp [settled]
    have hmid : ∀ k, k ∈ s.obtained.map Call.key ++ c.key :: s.timedOut.map Call.key ↔
        k = c.key ∨ k ∈ settled s := by
      intro k
      simp only [settled, List.map_append, List.mem_append, List.mem_cons]
      tauto
    constructor
    case waiting =>
      intro t' d hd
      obtain ⟨hne, htask', hlt', hnew'⟩ := waiting_update h (by simp) hd
      refine ⟨htask', hlt', ?_⟩
      rw [hset, hmid]
      rintro (hk | hk)
      · exact hne (by rw [← htask', ← htask]; exact congrArg Prod.fst hk)
      · exact hnew' hk
    case bound =>
      intro k hk
      rw [hset, hmid] at hk
      rcases hk with rfl | hk
      · change c.number < s.calls c.task
        rw [htask]
        exact hlt
      · exact h.bound k hk
    case nodup =>
      rw [hset, List.nodup_middle, List.nodup_cons, ← List.map_append]
      exact ⟨hnew, h.nodup⟩
  | setEntry hpc | setList hpc | timeoutCallback hpc =>
    refine ⟨?_, h.bound, h.nodup⟩
    intro t' c hc
    exact (waiting_update h (by simp) hc).2
  | @timeout t c hpc =>
    obtain ⟨htask, hlt, hnew⟩ := h.waiting t c hpc
    have hset : settled { s with
        pc := Function.update s.pc t (.timedOut c)
        timedOut := s.timedOut ++ [c] } = settled s ++ [c.key] := by simp [settled]
    constructor
    case waiting =>
      intro t' d hd
      obtain ⟨hne, htask', hlt', hnew'⟩ := waiting_update h (by simp) hd
      refine ⟨htask', hlt', ?_⟩
      rw [hset, List.mem_append, List.mem_singleton]
      rintro (hk | hk)
      · exact hnew' hk
      · exact hne (by rw [← htask', ← htask]; exact congrArg Prod.fst hk)
    case bound =>
      intro k hk
      rw [hset, List.mem_append, List.mem_singleton] at hk
      rcases hk with hk | rfl
      · exact h.bound k hk
      · change c.number < s.calls c.task
        rw [htask]
        exact hlt
    case nodup =>
      rw [hset, List.nodup_append_comm, List.singleton_append, List.nodup_cons]
      exact ⟨hnew, h.nodup⟩

/-- Every call is settled at most once in every reachable state. -/
theorem keyInv {mem : τ → ℕ → UInt8} {prog : τ → List CallerOp}
    (h : (system remoteNodeId mem prog).Reachable s) : KeyInv s := by
  refine System.Reachable.invariant (P := KeyInv) ?_ ?_ h
  · constructor
    · intro t c hc
      cases hc
    · intro k hk
      cases hk
    · exact List.nodup_nil
  · intro s l s' hi hs
    exact hi.step (step_of_next hs)

end Keys

/-! ## The token comes back -/

section Progress

variable {τ : Type u} {s : State τ}

/-- A state with the token available, reached without a step of a task. -/
def HardwareFrees (S : System (State τ) (Label τ)) (s : State τ) : Prop :=
  ∃ s', S.Leads s s' ∧ s'.txSemaphore.available = true ∧ s'.pc = s.pc

/-- One more step of the hardware before it frees the token. -/
private theorem HardwareFrees.before {S : System (State τ) (Label τ)} {s' : State τ} {l : Label τ}
    (hs : S.next s l = some s') (hpc : s'.pc = s.pc) (h : HardwareFrees S s') :
    HardwareFrees S s := by
  rcases h with ⟨s'', hleads, hav, hpc'⟩
  exact ⟨s'', (System.Leads.single hs).trans hleads, hav, hpc'.trans hpc⟩

/-- A state with the token available in which every waiting call still waits. -/
def TokenComesBack (S : System (State τ) (Label τ)) (s : State τ) : Prop :=
  ∃ s', S.Leads s s' ∧ s'.txSemaphore.available = true ∧
    ∀ t c, s.pc t = .obtain c → s'.pc t = .obtain c

private theorem HardwareFrees.comesBack {S : System (State τ) (Label τ)}
    (h : HardwareFrees S s) : TokenComesBack S s := by
  rcases h with ⟨s', hleads, hav, hpc⟩
  exact ⟨s', hleads, hav, fun t c hc => by rw [hpc, hc]⟩

variable [DecidableEq τ] {remoteNodeId : UInt8} {mem : τ → ℕ → UInt8} {prog : τ → List CallerOp}

private theorem frees_of_inCallback (h : s.inCallback = true) :
    HardwareFrees (system remoteNodeId mem prog) s := by
  have hs : (system remoteNodeId mem prog).next s .release =
      some { s with inCallback := false, txSemaphore := s.txSemaphore.release } := if_pos h
  exact ⟨_, System.Leads.single hs, rfl, rfl⟩

private theorem frees_of_deactivated (h : 0 < s.deactivated) :
    HardwareFrees (system remoteNodeId mem prog) s := by
  cases hcb : s.inCallback with
  | true => exact frees_of_inCallback hcb
  | false =>
    have hs : (system remoteNodeId mem prog).next s .interrupt =
        some { s with deactivated := s.deactivated - 1, inCallback := true } := if_pos ⟨h, hcb⟩
    exact .before hs rfl (frees_of_inCallback rfl)

/-- An active list is read to its end, byte by byte, and deactivated. -/
private theorem frees_of_active {n : ℕ} {tr : Transfer τ} (ha : s.active = some tr)
    (hn : tr.data.length - tr.data.taken = n) :
    HardwareFrees (system remoteNodeId mem prog) s := by
  induction n generalizing s tr with
  | zero =>
    have hend : tr.data.length ≤ tr.data.taken := by omega
    have hs : (system remoteNodeId mem prog).next s .deactivate = some { s with
        active := none
        deactivated := s.deactivated + 1
        left := s.left ++ [⟨tr.routerByte, tr.read, tr.call⟩] } := by
      simp [system, next, ha, hend]
    exact .before hs rfl (frees_of_deactivated (Nat.succ_pos _))
  | succ n ih =>
    have hlt : tr.data.taken < tr.data.length := by omega
    have hs : (system remoteNodeId mem prog).next s .read = some { s with
        active := some { tr with
          data := { tr.data with taken := tr.data.taken + 1 }
          read := tr.read ++ [s.mem tr.data.region (tr.data.offset + tr.data.taken)] } } := by
      simp [system, next, ha, Loan.take, hlt]
    refine .before hs rfl (ih rfl ?_)
    change tr.data.length - (tr.data.taken + 1) = n
    omega

/-- Whatever the hardware has, it frees the token. -/
theorem frees_of_owed (howed : 0 < owed s) (hlist : s.queued ≠ none → s.sendList ≠ none) :
    HardwareFrees (system remoteNodeId mem prog) s := by
  by_cases hd : 0 < s.deactivated
  · exact frees_of_deactivated hd
  · cases ha : s.active with
    | some tr => exact frees_of_active ha rfl
    | none =>
      cases hq : s.queued with
      | none =>
        cases hcb : s.inCallback with
        | true => exact frees_of_inCallback hcb
        | false => simp [owed, ha, hq, hcb, hd] at howed
      | some list =>
        rcases Option.ne_none_iff_exists'.mp (hlist (by simp [hq])) with ⟨entry, he⟩
        have hs : (system remoteNodeId mem prog).next s .start = some { s with
            queued := none
            active := some ⟨list.routerByte, ⟨entry.task, entry.dataAddress, entry.dataSize, 0⟩,
              [], list.call⟩ } := by
          simp only [system, next, hq, ha, he]
        exact .before hs rfl (frees_of_active rfl rfl)

/-- A step of a task that does not wait. -/
private theorem TokenComesBack.before {S : System (State τ) (Label τ)} {s' : State τ} {t : τ}
    {pc : Pc τ} (hs : S.next s (.task t) = some s') (hpc : s'.pc = Function.update s.pc t pc)
    (ht : (s.pc t).critical) (h : TokenComesBack S s') : TokenComesBack S s := by
  rcases h with ⟨s'', hleads, hav, hwait⟩
  refine ⟨s'', (System.Leads.single hs).trans hleads, hav, fun t' c hc => hwait t' c ?_⟩
  have hne : t' ≠ t := by
    intro htt
    subst htt
    simp [hc] at ht
  rw [hpc, Function.update_of_ne hne, hc]

/-- **The token can come back** from every reachable state. -/
theorem leads_token (h : (system remoteNodeId mem prog).Reachable s) :
    TokenComesBack (system remoteNodeId mem prog) s := by
  rcases custody h with ⟨o, ho⟩
  have hi := orderInv h
  have hset : ∀ {s : State τ} {t c}, s.pc t = .setList c → s.sendList ≠ none →
      TokenComesBack (system remoteNodeId mem prog) s := by
    intro s t c hpc hlist
    have hs : (system remoteNodeId mem prog).next s (.task t) = some { s with
        queued := some ⟨remoteNodeId, c⟩
        pc := Function.update s.pc t .outside
        handed := s.handed ++ [c] } := by
      simp [system, next, taskStep, hpc]
    refine .before hs rfl (by simp [hpc]) (HardwareFrees.comesBack (frees_of_owed ?_ ?_))
    · simp only [owed, Option.isSome_some, Bool.toNat_true]
      omega
    · exact fun _ => hlist
  cases o with
  | free => exact ⟨s, System.Leads.refl, ho.token_iff.mpr rfl, fun t c hc => hc⟩
  | client t =>
    have hcrit : (s.pc t).critical := (ho.critical_iff t).mpr rfl
    cases hpc : s.pc t with
    | setEntry c =>
      have hs : (system remoteNodeId mem prog).next s (.task t) = some { s with
          sendList := some ⟨t, c.data, c.length⟩
          pc := Function.update s.pc t (.setList c) } := by
        simp [system, next, taskStep, hpc]
      exact .before hs rfl hcrit (hset (t := t) (c := c) (by simp) (by simp))
    | setList c => exact hset hpc (hi.setList t c hpc)
    | outside | obtain | timedOut | stopped => simp [hpc] at hcrit
  | device =>
    have howed : 0 < owed s := by
      have := ho.owed_device rfl
      omega
    exact (frees_of_owed howed hi.queued).comesBack

/-- A waiting call can hand over its list. -/
theorem leads_handed (h : (system remoteNodeId mem prog).Reachable s) {t : τ} {c : Call τ}
    (hpc : s.pc t = .obtain c) :
    ∃ s', (system remoteNodeId mem prog).Leads s s' ∧ c ∈ s'.handed := by
  rcases leads_token h with ⟨s', hleads, hav, hwait⟩
  have hpc' := hwait t c hpc
  have hsend : (system remoteNodeId mem prog).exec s' [.task t, .task t, .task t] = some { s' with
      txSemaphore := ⟨false⟩
      sendList := some ⟨t, c.data, c.length⟩
      queued := some ⟨remoteNodeId, c⟩
      pc := Function.update s'.pc t .outside
      obtained := s'.obtained ++ [c]
      handed := s'.handed ++ [c] } := by
    simp [System.exec, system, next, taskStep, hpc', Semaphore.obtain, hav]
  exact ⟨_, hleads.trans ⟨_, hsend⟩, by simp⟩

end Progress

/-! ## Ownership -/

section Ownership

variable {τ : Type u}

/-- What ownership of the send list means for a state `s` of the system `S`. -/
structure TxOwnership (S : System (State τ) (Label τ)) (s : State τ) : Prop where
  /-- The token is in the semaphore, with exactly one sender, or with exactly one list. -/
  exclusive :
    (s.txSemaphore.available = true ∧ (∀ t, ¬ (s.pc t).critical) ∧ owed s = 0) ∨
      (s.txSemaphore.available = false ∧ (∃! t, (s.pc t).critical) ∧ owed s = 0) ∨
      (s.txSemaphore.available = false ∧ (∀ t, ¬ (s.pc t).critical) ∧ owed s = 1)
  /-- The list is written only while the hardware has none. -/
  written : ∀ l s', S.next s l = some s' →
    ((∃ t c, l = .task t ∧ s.pc t = .setEntry c) ∨ s'.sendList ≠ s.sendList) →
      s.queued = none ∧ s.active = none
  /-- The calls that obtained the token hand over their lists in this order, and all have
  when no sender is in between. -/
  handed : ∃ held, s.handed ++ held = s.obtained ∧ held.length ≤ 1 ∧
    ((∀ t, ¬ (s.pc t).critical) → held = [])
  /-- Packets leave in the order of the hand-overs. -/
  left : s.left.map Packet.call <+: s.handed
  /-- No call obtains the token twice, or obtains it and times out. -/
  once : ((s.obtained ++ s.timedOut).map Call.key).Nodup
  /-- The packet of a call that has timed out does not leave. -/
  timedOut : ∀ c ∈ s.timedOut, ∀ p ∈ s.left, p.call.key ≠ c.key
  /-- A timeout changes neither the token nor the list nor the hardware. -/
  timeout : ∀ t l s', S.next s l = some s' →
    (l = .timeout t ∨ (l = .task t ∧ ∃ c, s.pc t = .timedOut c)) →
      s'.txSemaphore = s.txSemaphore ∧ s'.sendList = s.sendList ∧ s'.queued = s.queued ∧
        s'.active = s.active ∧ s'.deactivated = s.deactivated ∧ s'.inCallback = s.inCallback
  /-- A waiting call can still hand over its list. -/
  later : ∀ t c, s.pc t = .obtain c → ∃ s', S.Leads s s' ∧ c ∈ s'.handed

variable [DecidableEq τ] {remoteNodeId : UInt8} {mem : τ → ℕ → UInt8}
  {prog : τ → List CallerOp} {s : State τ}

/-- Only `Spw_Tx_setNextSendListEntry` changes the list. -/
private theorem setEntry_of_sendList_ne {l : Label τ} {s' : State τ}
    (hs : Step remoteNodeId s l s') (hne : s'.sendList ≠ s.sendList) :
    ∃ t c, s.pc t = .setEntry c := by
  cases hs with
  | @setEntry t c hpc => exact ⟨t, c, hpc⟩
  | _ => exact absurd rfl hne

/-- **Ownership of the send list** in every reachable state. -/
theorem tx_ownership (h : (system remoteNodeId mem prog).Reachable s) :
    TxOwnership (system remoteNodeId mem prog) s := by
  rcases custody h with ⟨o, ho⟩
  have hi := orderInv h
  have hk := keyInv h
  have hleft : s.left.map Packet.call <+: s.handed := ⟨withHardware s, hi.left⟩
  have hheld : ∃ held, s.handed ++ held = s.obtained ∧ held.length ≤ 1 ∧
      ((∀ t, ¬ (s.pc t).critical) → held = []) := by
    by_cases hidle : ∀ t, ¬ (s.pc t).critical
    · exact ⟨[], by simp [hi.idle hidle], by simp, fun _ => rfl⟩
    · rcases not_forall.mp hidle with ⟨t, ht⟩
      have hcrit := not_not.mp ht
      cases hpc : s.pc t with
      | setEntry c | setList c =>
        have hone := hi.holding t c (by simp [hpc, Pc.holds])
        exact ⟨[c], hone, by simp, fun hall => absurd hcrit (hall t)⟩
      | outside | obtain | timedOut | stopped => simp [hpc] at hcrit
  constructor
  case exclusive => exact ho.exclusive
  case written =>
    rintro l s' hs (⟨t, c, -, hpc⟩ | hne)
    · exact idle_of_critical ho (t := t) (by simp [hpc])
    · rcases setEntry_of_sendList_ne (step_of_next hs) hne with ⟨t, c, hpc⟩
      exact idle_of_critical ho (t := t) (by simp [hpc])
  case handed => exact hheld
  case left => exact hleft
  case once => exact hk.nodup
  case timedOut =>
    intro c hc p hp hkey
    rcases hheld with ⟨held, hobt, -, -⟩
    have hmem : p.call ∈ s.obtained := by
      rw [← hobt]
      exact List.mem_append_left _ (hleft.subset (List.mem_map_of_mem hp))
    have hnodup := hk.nodup
    rw [settled, List.map_append] at hnodup
    exact List.disjoint_of_nodup_append hnodup (List.mem_map_of_mem hmem)
      (by rw [hkey]; exact List.mem_map_of_mem hc)
  case timeout =>
    rintro t l s' hs (rfl | ⟨rfl, c, hpc⟩)
    · have hstep : Step remoteNodeId s (.timeout t) s' := step_of_next hs
      cases hstep with
      | timeout => exact ⟨rfl, rfl, rfl, rfl, rfl, rfl⟩
    · have hstep : Step remoteNodeId s (.task t) s' := step_of_next hs
      cases hstep with
      | timeoutCallback => exact ⟨rfl, rfl, rfl, rfl, rfl, rfl⟩
      | callerWrite hpc' | call hpc' | callEmpty hpc' | obtain hpc' | setEntry hpc'
      | setList hpc' => simp [hpc] at hpc'
  case later =>
    intro t c hpc
    exact leads_handed h hpc

end Ownership

/-- Two tasks, of which one sends twice. -/
def twoSenders : System (State Bool) (Label Bool) :=
  system 2 (fun _ _ => 1) fun t => if t then [.send 0 1] else [.send 0 1, .send 0 2]

/-- One call of the first task, up to the hand-over of its list. -/
def firstSenderCall : List (Label Bool) := List.replicate 4 (.task false)

/-- The other task times out while the first list is with the hardware, and the second
call gets through. -/
theorem twoSenders_timeout : ∃ s, twoSenders.Reachable s ∧
    s.handed.map Call.key = [(false, 0), (false, 1)] ∧ s.timedOut.map Call.key = [(true, 0)] ∧
    ∀ c ∈ s.timedOut, ∀ p ∈ s.left, p.call.key ≠ c.key := by
  have h := twoSenders.reachable_get
    (firstSenderCall ++ [.task true, .timeout true, .task true, .start, .read, .deactivate,
      .interrupt, .release] ++ firstSenderCall) (by decide)
  exact ⟨_, h, rfl, rfl, (tx_ownership h).timedOut⟩

end Samrh71Drivers.Spw
