import Samrh71Drivers.Spw.Tx

/-!
# The data of a SpaceWire packet

The send list refers to the caller's own buffer, and `samrh71_rtems_spacewire_send` returns
as soon as the list is handed over. The semaphore protects the list until it is
deactivated; nothing protects the buffer.

A packet carries what the buffer held at the call as long as the callers leave the bytes
that a handed-over list has still to read as they are (`leavesDataToRead`). A run in which
the caller reuses its buffer is at the end of the file.

## Main definitions

* `dataToRead` — the data the hardware has still to read.
* `leavesDataToRead` — the condition on a write of a caller.
* `DataInv` — the invariant.
* `packets_carry_call` — the packets under that condition.
-/

namespace Samrh71Drivers.Spw

open Transition Custodian Lending

universe u

/-- The data a list entry refers to. -/
def SendListEntry.loan {τ : Type u} (e : SendListEntry τ) : Loan τ :=
  ⟨e.task, e.dataAddress, e.dataSize, 0⟩

/-- The data the hardware has still to read. -/
def dataToRead {τ : Type u} (s : State τ) : List (Loan τ) :=
  (match s.queued, s.sendList with
    | some _, some e => [e.loan]
    | _, _ => []) ++ (s.active.map Transfer.data).toList

/-- A write of a caller leaves every byte the hardware has still to read. -/
def leavesDataToRead {τ : Type u} (s : State τ) : Label τ → Prop
  | .task t =>
    match s.pc t, s.todo t with
    | .outside, .write a v :: _ => ∀ l ∈ dataToRead s, l.covers t a → s.mem t a = v
    | _, _ => True
  | _ => True

instance {τ : Type u} [DecidableEq τ] (s : State τ) (l : Label τ) :
    Decidable (leavesDataToRead s l) := by
  unfold leavesDataToRead
  split
  · split <;> infer_instance
  · infer_instance

/-- The task is in a call that has not handed over its list. -/
def Pc.sends {τ : Type u} (pc : Pc τ) (c : Call τ) : Prop :=
  pc = .obtain c ∨ pc = .setEntry c ∨ pc = .setList c

section Invariant

variable {τ : Type u} {s s' : State τ}

/-- The bytes of every call are still to be found where it said, until they are read. -/
structure DataInv (s : State τ) : Prop where
  sends : ∀ t c, (s.pc t).sends c → s.mem.bytes t c.data c.length = c.content
  entry : ∀ t c, s.pc t = .setList c → s.sendList = some ⟨t, c.data, c.length⟩
  queued : ∀ list, s.queued = some list → list.call ∈ s.handed ∧
    ∃ e, s.sendList = some e ∧ e.loan.unread s.mem = list.call.content
  active : ∀ tr, s.active = some tr → tr.call ∈ s.handed ∧
    tr.read ++ tr.data.unread s.mem = tr.call.content
  left : ∀ p ∈ s.left, p.call ∈ s.handed ∧ p.data = p.call.content

variable [DecidableEq τ] {remoteNodeId : UInt8}

/-- Entries are preserved where a task gets to a point before `Spw_Tx_setNextSendList`. -/
private theorem entry_update {t : τ} {pc : Pc τ} (h : DataInv s) (hpc : ∀ c, pc ≠ .setList c)
    (t' : τ) (c : Call τ) (hset : Function.update s.pc t pc t' = .setList c) :
    s.sendList = some ⟨t', c.data, c.length⟩ := by
  rcases of_update (· = Pc.setList c) hset with ⟨-, hset⟩ | ⟨-, hset⟩
  · exact absurd hset (hpc c)
  · exact h.entry t' c hset

/-- **One step keeps the data of every call**, when a write of a caller leaves the data
that is still to be read. -/
theorem DataInv.step {l : Label τ} {o : Holder τ} (hc : TxCustody s o) (h : DataInv s)
    (hok : leavesDataToRead s l) (hs : Step remoteNodeId s l s') : DataInv s' := by
  cases hs with
  | @callerWrite t a v ops hpc hops =>
    simp only [leavesDataToRead, hpc, hops] at hok
    constructor
    case sends =>
      intro t' c hsend
      -- only `t` writes to its memory, and `t` is not in a call
      have hne : t ≠ t' := by
        intro ht
        subst ht
        rcases hsend with hp | hp | hp <;> simp [hpc] at hp
      rw [Store.bytes_write fun ht => absurd ht hne]
      exact h.sends t' c hsend
    case entry => exact h.entry
    case queued =>
      intro list hq
      change s.queued = some list at hq
      obtain ⟨hmem, e, he, hcontent⟩ := h.queued list hq
      have hl : e.loan ∈ dataToRead s := by simp [dataToRead, hq, he]
      exact ⟨hmem, e, he, (Loan.unread_write (hok _ hl)).trans hcontent⟩
    case active =>
      intro tr ha
      change s.active = some tr at ha
      obtain ⟨hmem, hcontent⟩ := h.active tr ha
      have hl : tr.data ∈ dataToRead s := by simp [dataToRead, ha]
      refine ⟨hmem, ?_⟩
      rw [← hcontent, Loan.unread_write (hok _ hl)]
    case left => exact h.left
  | @call t data length ops hpc hops hlen =>
    refine ⟨?_, entry_update h (by simp), h.queued, h.active, h.left⟩
    intro t' c hsend
    rcases of_update (Pc.sends · c) hsend with ⟨rfl, hp | hp | hp⟩ | ⟨-, hsend⟩
    · cases hp
      rfl
    · cases hp
    · cases hp
    · exact h.sends t' c hsend
  | callEmpty hpc | timeoutCallback hpc | timeout hpc =>
    refine ⟨?_, entry_update h (by simp), h.queued, h.active, h.left⟩
    intro t' c hsend
    rcases of_update (Pc.sends · c) hsend with ⟨-, hp | hp | hp⟩ | ⟨-, hsend⟩
    · cases hp
    · cases hp
    · cases hp
    · exact h.sends t' c hsend
  | @obtain t c hpc hav =>
    refine ⟨?_, entry_update h (by simp), h.queued, h.active, h.left⟩
    intro t' d hsend
    rcases of_update (Pc.sends · d) hsend with ⟨rfl, hp | hp | hp⟩ | ⟨-, hsend⟩
    · cases hp
    · cases hp
      exact h.sends t' c (.inl hpc)
    · cases hp
    · exact h.sends t' d hsend
  | @setEntry t c hpc =>
    have hidle := idle_of_critical hc (t := t) (by simp [hpc])
    constructor
    case sends =>
      intro t' d hsend
      rcases of_update (Pc.sends · d) hsend with ⟨rfl, hp | hp | hp⟩ | ⟨-, hsend⟩
      · cases hp
      · cases hp
      · cases hp
        exact h.sends t' c (.inr (.inl hpc))
      · exact h.sends t' d hsend
    case entry =>
      intro t' d hset
      rcases of_update (· = Pc.setList d) hset with ⟨rfl, hself⟩ | ⟨hne, hset⟩
      · cases hself
        rfl
      · -- another sender in its critical section would hold the same token
        exact absurd (hc.unique (by simp [hset]) (by simp [hpc])) hne
    case queued =>
      intro list hq
      rw [hidle.1] at hq
      cases hq
    case active => exact h.active
    case left => exact h.left
  | @setList t c hpc =>
    have hidle := idle_of_critical hc (t := t) (by simp [hpc])
    have hkeep : ∀ d ∈ s.handed, d ∈ s.handed ++ [c] := fun d hd => List.mem_append_left _ hd
    constructor
    case sends =>
      intro t' d hsend
      rcases of_update (Pc.sends · d) hsend with ⟨-, hp | hp | hp⟩ | ⟨-, hsend⟩
      · cases hp
      · cases hp
      · cases hp
      · exact h.sends t' d hsend
    case entry => exact entry_update h (by simp)
    case queued =>
      intro list hq
      cases hq
      refine ⟨List.mem_append_right _ List.mem_cons_self, _, h.entry t c hpc, ?_⟩
      exact h.sends t c (.inr (.inr hpc))
    case active =>
      intro tr ha
      rw [hidle.2] at ha
      cases ha
    case left =>
      intro p hp
      exact ⟨hkeep _ (h.left p hp).1, (h.left p hp).2⟩
  | @start list entry hq ha he =>
    constructor
    case sends => exact h.sends
    case entry => exact h.entry
    case queued =>
      intro list hn
      cases hn
    case active =>
      intro tr htr
      cases htr
      obtain ⟨hmem, e, he', hcontent⟩ := h.queued list hq
      rw [he] at he'
      cases he'
      exact ⟨hmem, hcontent⟩
    case left => exact h.left
  | @read tr b data ha htake =>
    refine ⟨h.sends, h.entry, h.queued, ?_, h.left⟩
    intro tr' htr
    cases htr
    obtain ⟨hmem, hcontent⟩ := h.active tr ha
    refine ⟨hmem, ?_⟩
    rw [← hcontent, Loan.unread_of_take htake]
    simp
  | @deactivate tr ha hend =>
    constructor
    case sends => exact h.sends
    case entry => exact h.entry
    case queued => exact h.queued
    case active =>
      intro tr' htr
      cases htr
    case left =>
      intro p hp
      rcases List.mem_append.mp hp with hp | hp
      · exact h.left p hp
      · obtain ⟨hmem, hcontent⟩ := h.active tr ha
        rw [Loan.unread_eq_nil hend, List.append_nil] at hcontent
        rw [List.mem_singleton.mp hp]
        exact ⟨hmem, hcontent⟩
  | interrupt | release | setTxTimeoutCallback =>
    exact ⟨h.sends, h.entry, h.queued, h.active, h.left⟩

/-- **The data of a packet.** When the callers leave the data that is still to be read,
every packet that has left the node belongs to a call that handed over its list, and
carries exactly what the buffer held when that call was made. -/
theorem packets_carry_call {mem : τ → ℕ → UInt8} {prog : τ → List CallerOp}
    (h : (system remoteNodeId mem prog).ReachableWhen leavesDataToRead s) :
    ∀ p ∈ s.left, p.call ∈ s.handed ∧ p.data = p.call.content := by
  have hinv : DataInv s := by
    refine System.ReachableWhen.invariant (P := DataInv) ?_ ?_ h
    · constructor
      · rintro t c (hp | hp | hp) <;> cases hp
      · intro t c hset
        cases hset
      · intro list hq
        cases hq
      · intro tr ha
        cases ha
      · intro p hp
        cases hp
    · intro s l s' hr hi hok hs
      rcases custody hr.reachable with ⟨o, ho⟩
      exact hi.step ho hok (step_of_next hs)
  exact hinv.left

end Invariant

/-! ## A buffer reused after the call -/

/-- A caller that sends its first byte, which is `1`, and then writes `9` over it. -/
def sendThenReuse : System (State Unit) (Label Unit) :=
  system 2 (fun _ _ => 1) (fun _ => [.send 0 1, .write 0 9])

/-- The caller writes after the byte has been read. -/
theorem reuse_after_read : ∃ s, sendThenReuse.ReachableWhen leavesDataToRead s ∧
    s.todo () = [] ∧ s.left.map Packet.data = [[1]] ∧
    ∀ p ∈ s.left, p.call ∈ s.handed ∧ p.data = p.call.content := by
  have h := sendThenReuse.reachableWhen_get leavesDataToRead
    (List.replicate 4 (.task ()) ++ [.start, .read, .task (), .deactivate]) (by decide)
  exact ⟨_, h, rfl, rfl, packets_carry_call h⟩

/-- The caller writes before the byte has been read. -/
theorem reuse_before_read : ¬ ∀ s, sendThenReuse.Reachable s →
    ∀ p ∈ s.left, p.data = p.call.content := by
  intro h
  have hreach := sendThenReuse.reachable_get
    (List.replicate 5 (.task ()) ++ [.start, .read, .deactivate]) (by decide)
  have hcarry := h _ hreach _ List.mem_cons_self
  exact absurd hcarry (by decide)

end Samrh71Drivers.Spw
