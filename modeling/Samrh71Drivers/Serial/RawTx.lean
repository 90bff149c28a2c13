import Samrh71Drivers.Serial.RawSend
import Mathlib.Data.List.Infix

/-!
# Raw mode: asynchronous against blocking transmission

In raw mode `Samrh71RtemsSerialSend` passes the caller's own buffer to the packet write
function. Blocking mode has read every byte of it before it returns; asynchronous mode
lends it to the UART and returns.

Both modes keep one balance: what is on the wire, what the send under way has still to
put there, and what the rest of the program will send are together the messages of the
program, each with the content it has when it is sent. For asynchronous mode this needs
the caller to leave the bytes a transfer has still to read as they are
(`leavesUnsentBytes`), and a run in which it does not is at the end of the file.

## Main definitions

* `messages` — the messages of a program, as they are when they are sent.
* `leavesUnsentBytes` — the condition on a write of the caller.
* `RawInv` — the balance.
* `async_refines_blocking` — the refinement under that condition.
-/

namespace Samrh71Drivers.Serial

open Transition Custodian Lending

universe u v

/-- The messages of a program, each with the content its bytes have when it is sent. -/
def messages (mem : Store (Region Unit) UInt8) : List CallerOp → List (List UInt8)
  | [] => []
  | .send data length :: ops => mem.bytes (.caller ()) data length :: messages mem ops
  | .write a v :: ops => messages (mem.write (.caller ()) a v) ops

/-- The length of a send fits the `uint16_t` it is converted to. -/
def CallerOp.fits : CallerOp → Prop
  | .send _ length => length < 65536
  | .write _ _ => True

/-- A write of the caller leaves every byte the transfer in flight has still to read. -/
def leavesUnsentBytes {E : Type v} (s : State Unit E) : Label Unit → Prop
  | .task t =>
    match s.pc t, s.todo t with
    | .outside, .write a v :: _ =>
      0 < s.inFlight → s.txFifo.covers (.caller t) a → s.mem (.caller t) a = v
    | _, _ => True
  | _ => True

instance {E : Type v} (s : State Unit E) (l : Label Unit) : Decidable (leavesUnsentBytes s l) := by
  unfold leavesUnsentBytes
  split
  · split <;> infer_instance
  · infer_instance

/-- The caller has returned from every call of its program. -/
def Finished {E : Type v} (s : State Unit E) : Prop := s.pc () = .outside ∧ s.todo () = []

section Balance

variable {E : Type v} {X : Escaper E} {s s' : State Unit E} {m : RawMode} {tx : TxMode}

/-- The points of a task in raw mode. -/
def RawPc (tx : TxMode) : Pc Unit → Prop
  | .outside => True
  | .waitForTxSemaphore _ none | .initFifo _ none | .writeAsync none => tx = .asynchronous
  | .writeBlocking p i none => tx = .blocking ∧ i ≤ p.length ∧ p.length < 65536
  | .stopped => tx = .blocking
  | _ => False

/-- What the send under way, and the transfer in flight, have still to put on the wire. -/
def underWay (s : State Unit E) : Pc Unit → List UInt8
  | .waitForTxSemaphore p _ | .initFifo p _ => unsent s ++ s.mem.bytes p.region p.offset p.length
  | .writeAsync _ => s.txFifo.unread s.mem
  | .writeBlocking p i _ => s.mem.bytes p.region (p.offset + i) (p.length - i)
  | _ => unsent s

/-- The invariant of raw mode, where `total` is what the program sends. -/
structure RawInv (tx : TxMode) (total : List UInt8) (s : State Unit E) : Prop where
  pcs : RawPc tx (s.pc ())
  fits : ∀ op ∈ s.todo (), op.fits
  idle : tx = .blocking → s.inFlight = 0
  balance : s.pc () ≠ .stopped →
    s.wire ++ underWay s (s.pc ()) ++ (messages s.mem (s.todo ())).flatten = total

/-- With a transfer in flight the caller is outside the driver or waits for the token. -/
private theorem rawPc_of_inFlight {o : Holder Unit} {total : List UInt8} (hc : TxCustody s o)
    (h : RawInv tx total s) (hin : 0 < s.inFlight) :
    s.pc () = .outside ∨ ∃ p, s.pc () = .waitForTxSemaphore p none := by
  have hpcs := h.pcs
  have hasync : tx ≠ .blocking := fun htx => by
    have := h.idle htx
    omega
  have hcrit : ¬ (s.pc ()).critical := fun hcr => by
    have := hc.owed_eq_zero (t := ()) hcr
    omega
  cases hpc : s.pc () with
  | outside => exact .inl rfl
  | waitForTxSemaphore p back =>
    cases back with
    | none => exact .inr ⟨p, rfl⟩
    | some l => simp [hpc, RawPc] at hpcs
  | initFifo | writeAsync => simp [hpc] at hcrit
  | loopHead => simp [hpc, RawPc] at hpcs
  | writeBlocking p i back => cases back <;> simp [hpc, RawPc, hasync] at hpcs
  | stopped => exact absurd (by simpa [hpc, RawPc] using hpcs) hasync

/-- With a transfer in flight, what is under way is what it has still to send and, while
the caller waits, the next message. -/
private theorem underWay_of_inFlight {o : Holder Unit} {total : List UInt8}
    (hc : TxCustody s o) (h : RawInv tx total s) (hin : 0 < s.inFlight) :
    ∃ more, ∀ t : State Unit E, t.mem = s.mem → t.pc = s.pc →
      underWay t (t.pc ()) = unsent t ++ more := by
  rcases rawPc_of_inFlight hc h hin with hpc | ⟨p, hpc⟩
  · refine ⟨[], ?_⟩
    intro t _ htpc
    simp [htpc, hpc, underWay]
  · refine ⟨s.mem.bytes p.region p.offset p.length, ?_⟩
    intro t htmem htpc
    simp [htpc, hpc, underWay, htmem]

/-- **One step keeps the balance**, when a write of the caller leaves unsent bytes alone. -/
theorem RawInv.step {l : Label Unit} {o : Holder Unit} {total : List UInt8}
    (hc : TxCustody s o) (h : RawInv tx total s) (hok : leavesUnsentBytes s l)
    (hs : Step ⟨.raw m, tx⟩ X s l s') : RawInv tx total s' := by
  have hpcs := h.pcs
  have hbal := h.balance
  cases hs with
  | @callerWrite t a v ops hpc hops =>
    have hun : unsent { s with
        mem := s.mem.write (.caller t) a v
        todo := Function.update s.todo t ops } = unsent s := by
      by_cases hin : 0 < s.inFlight
      · rw [unsent_of_inFlight (s := s) hin]
        simp only [leavesUnsentBytes, hpc, hops] at hok
        exact (if_pos hin).trans (Loan.unread_write (hok hin))
      · rw [unsent_of_idle (s := s) (by omega)]
        exact if_neg hin
    constructor
    case pcs => exact h.pcs
    case fits =>
      intro op hop
      apply h.fits op
      rw [hops]
      exact List.mem_cons_of_mem _ (by simpa using hop)
    case idle => exact h.idle
    case balance =>
      intro _
      simp only [hpc, underWay, hops, messages, Function.update_self] at hbal ⊢
      rw [hun]
      exact hbal (by simp)
  | @callRaw t data length ops hpc hops =>
    have hlen : toUInt16 length = length :=
      Nat.mod_eq_of_lt (h.fits (.send data length) (by rw [hops]; exact List.mem_cons_self))
    have hfits : length < 65536 :=
      h.fits (.send data length) (by rw [hops]; exact List.mem_cons_self)
    have hrest : ∀ op ∈ ops, op.fits := fun op hop => h.fits op (by
      rw [hops]
      exact List.mem_cons_of_mem _ hop)
    simp only [hpc, underWay, hops, messages, List.flatten_cons] at hbal
    cases tx with
    | asynchronous =>
      refine ⟨by simp [writePacket, blockingTxModeEnabled, RawPc], by simpa using hrest, h.idle,
        fun _ => ?_⟩
      simp only [Function.update_self, writePacket, blockingTxModeEnabled, underWay, hlen]
      rw [← hbal (by simp)]
      simp [unsent]
    | blocking =>
      have hun : unsent s = [] := unsent_of_idle (h.idle rfl)
      refine ⟨?_, by simpa using hrest, h.idle, fun _ => ?_⟩
      · simpa [writePacket, blockingTxModeEnabled, RawPc, hlen] using hfits
      · simp only [Function.update_self, writePacket, blockingTxModeEnabled, underWay, hlen]
        rw [← hbal (by simp), hun]
        simp
  | callEscaped _ _ hraw => cases hraw
  | encode hpc | loopEnd hpc => simp [hpc, RawPc] at hpcs
  | @obtain t p back hpc hav =>
    cases back with
    | some l => simp [hpc, RawPc] at hpcs
    | none =>
      simp only [hpc, RawPc, underWay] at hpcs hbal
      refine ⟨by simpa [RawPc] using hpcs, h.fits, h.idle, fun _ => ?_⟩
      simp only [Function.update_self, underWay]
      exact hbal (by simp)
  | @initFifo t p back hpc =>
    cases back with
    | some l => simp [hpc, RawPc] at hpcs
    | none =>
      have hun : unsent s = [] := unsent_of_idle (hc.owed_eq_zero (t := ()) (by simp [hpc]))
      simp only [hpc, RawPc, underWay, hun] at hpcs hbal
      refine ⟨by simpa [RawPc] using hpcs, h.fits, h.idle, fun _ => ?_⟩
      simp only [Function.update_self, underWay, Loan.unread_fresh]
      exact hbal (by simp)
  | @writeAsync t back hpc =>
    cases back with
    | some l => simp [hpc, RawPc] at hpcs
    | none =>
      simp only [hpc, RawPc, underWay] at hpcs hbal
      refine ⟨by simp [resume, RawPc], h.fits, fun htx => ?_, fun _ => ?_⟩
      · exact absurd (hpcs.symm.trans htx) (by simp)
      · simp only [Function.update_self, resume, underWay]
        rw [unsent_of_inFlight (Nat.succ_pos _)]
        exact hbal (by simp)
  | @blockingByte t p i back hpc hlt =>
    cases back with
    | some l => simp [hpc, RawPc] at hpcs
    | none =>
      simp only [hpc, RawPc, underWay] at hpcs hbal
      have hi : toUInt16 (i + 1) = i + 1 := Nat.mod_eq_of_lt (by omega)
      refine ⟨?_, h.fits, h.idle, fun _ => ?_⟩
      · simp only [Function.update_self, RawPc, hi]
        exact ⟨hpcs.1, by omega, hpcs.2.2⟩
      · obtain ⟨n, hn⟩ : ∃ n, p.length - i = n + 1 := ⟨p.length - i - 1, by omega⟩
        have hn' : p.length - (i + 1) = n := by omega
        simp only [Function.update_self, underWay, hi, hn']
        rw [← hbal (by simp), hn, Store.bytes_succ]
        simp [Nat.add_assoc]
  | @blockingEnd t p i back hpc hlt =>
    cases back with
    | some l => simp [hpc, RawPc] at hpcs
    | none =>
      simp only [hpc, RawPc, underWay] at hpcs hbal
      refine ⟨by simp [resume, RawPc], h.fits, h.idle, fun _ => ?_⟩
      have hdone : p.length - i = 0 := by omega
      have hun' : unsent { s with pc := Function.update s.pc t .outside } = [] :=
        unsent_of_idle (h.idle hpcs.1)
      simp only [Function.update_self, resume, underWay]
      rw [hun', ← hbal (by simp), hdone, Store.bytes_zero]
  | @uartWriteFails t p i back hpc hlt =>
    cases back with
    | some l => simp [hpc, RawPc] at hpcs
    | none =>
      simp only [hpc, RawPc] at hpcs
      refine ⟨by simpa [RawPc] using hpcs.1, h.fits, h.idle, fun hne => ?_⟩
      exact absurd (by simp) hne
  | @txByte b fifo hin htake =>
    have hun : unsent s = b :: fifo.unread s.mem := by
      rw [unsent_of_inFlight hin, Loan.unread_of_take htake]
    have hun' : unsent { s with wire := s.wire ++ [b], txFifo := fifo } = fifo.unread s.mem :=
      if_pos hin
    refine ⟨h.pcs, h.fits, h.idle, ?_⟩
    intro hne
    obtain ⟨more, hmore⟩ := underWay_of_inFlight hc h hin
    have hbefore := hbal hne
    rw [hmore s rfl rfl, hun] at hbefore
    rw [hmore { s with wire := s.wire ++ [b], txFifo := fifo } rfl rfl, hun']
    simpa using hbefore
  | @txEmpty n hin hempty =>
    have hidle : n = 0 := by
      have := hc.owed_le_one
      omega
    subst hidle
    have hun : unsent s = [] := unsent_of_drained fun _ => hempty
    have hun' : unsent { s with inFlight := 0, txSemaphore := ⟨true⟩ } = [] := unsent_of_idle rfl
    refine ⟨h.pcs, h.fits, fun _ => rfl, ?_⟩
    intro hne
    obtain ⟨more, hmore⟩ := underWay_of_inFlight hc h (by omega)
    have hbefore := hbal hne
    rw [hmore s rfl rfl, hun] at hbefore
    rw [hmore { s with inFlight := 0, txSemaphore := ⟨true⟩ } rfl rfl, hun']
    exact hbefore

/-- A fresh program balances with what it sends. -/
theorem rawInv_initial {mem : Unit → ℕ → UInt8} {prog : Unit → List CallerOp} {e : E}
    (hfits : ∀ op ∈ prog (), op.fits) :
    RawInv tx (messages (initial mem prog e).mem (prog ())).flatten (initial mem prog e) := by
  refine ⟨by simp [initial, RawPc], hfits, fun _ => rfl, fun _ => ?_⟩
  simp [initial, underWay, unsent]

end Balance

section Refinement

variable {E : Type v} {X : Escaper E} {s : State Unit E} {m : RawMode}
  {mem : Unit → ℕ → UInt8} {prog : Unit → List CallerOp} {e : E}

/-- What asynchronous mode has put on the wire is a beginning of the program's messages. -/
theorem async_wire_prefix (hfits : ∀ op ∈ prog (), op.fits)
    (h : (system ⟨.raw m, .asynchronous⟩ X mem prog e).ReachableWhen leavesUnsentBytes s) :
    s.wire <+: (messages (initial mem prog e).mem (prog ())).flatten := by
  have hinv : RawInv .asynchronous (messages (initial mem prog e).mem (prog ())).flatten s := by
    refine System.ReachableWhen.invariant (P := RawInv .asynchronous _) ?_ ?_ h
    · exact rawInv_initial hfits
    · intro s l s' hr hinv hok hs
      rcases custody hr.reachable with ⟨o, ho⟩
      exact hinv.step ho hok (step_of_next hs)
  have hpc : s.pc () ≠ .stopped := by
    intro hpc
    have := hinv.pcs
    simp [hpc, RawPc] at this
  rw [← hinv.balance hpc, List.append_assoc]
  exact List.prefix_append _ _

/-- Once blocking mode has finished a program, all its messages are on the wire. -/
theorem blocking_wire (hfits : ∀ op ∈ prog (), op.fits)
    (h : (system ⟨.raw m, .blocking⟩ X mem prog e).Reachable s) (hfin : Finished s) :
    s.wire = (messages (initial mem prog e).mem (prog ())).flatten := by
  have hinv : RawInv .blocking (messages (initial mem prog e).mem (prog ())).flatten s := by
    refine System.ReachableWhen.invariant (P := RawInv .blocking _) ?_ ?_ h
    · exact rawInv_initial hfits
    · intro s l s' hr hinv _ hs
      rcases custody hr with ⟨o, ho⟩
      -- nothing is ever in flight, so no write of the caller is restricted
      have hok : leavesUnsentBytes s l := by
        have hidle := hinv.idle rfl
        cases l with
        | task t =>
          simp only [leavesUnsentBytes, hidle]
          split <;> simp
        | _ => trivial
      exact hinv.step ho hok (step_of_next hs)
  have hbal := hinv.balance (by simp [hfin.1])
  rw [hfin.1, hfin.2] at hbal
  simpa [underWay, unsent_of_idle (hinv.idle rfl), messages] using hbal

variable (X m mem prog e) in
/-- Blocking mode gets to the end of a program. -/
private theorem blocking_leads {ops : List CallerOp} (hpc : s.pc () = .outside)
    (htodo : s.todo () = ops) :
    ∃ s', (system ⟨.raw m, .blocking⟩ X mem prog e).Leads s s' ∧ Finished s' := by
  induction ops generalizing s with
  | nil => exact ⟨s, System.Leads.refl, hpc, htodo⟩
  | cons op ops ih =>
    cases op with
    | write a v =>
      have hstep : (system ⟨.raw m, .blocking⟩ X mem prog e).next s (.task ()) = some { s with
          mem := s.mem.write (.caller ()) a v
          todo := Function.update s.todo () ops } := by
        simp [system, next, taskStep, hpc, htodo]
      rcases ih (s := { s with
          mem := s.mem.write (.caller ()) a v
          todo := Function.update s.todo () ops }) hpc (by simp) with ⟨s', hleads, hfin⟩
      exact ⟨s', (System.Leads.single hstep).trans hleads, hfin⟩
    | send data length =>
      -- the call returns, since no call of `Uart_write` reports an error
      rcases RawSend.uartWriteBlocking_spec (fun _ => true) s.mem (.caller ()) data length
        (Nat.lt_succ_self _) with ⟨-, hret⟩ | ⟨k, -, hfail, -⟩
      · have hsend : RawSend.samrh71RtemsSerialSend .blocking true (fun _ => true) s.mem
            (.caller ()) data length _ = .returned _ := hret
        have hcall := RawSend.send_blocking_leads X mem prog e (m := m) hpc htodo hsend
        rcases ih (s := { s with
            wire := s.wire ++ s.mem.bytes (.caller ()) data (toUInt16 length)
            pc := Function.update s.pc () .outside
            todo := Function.update s.todo () ops }) (by simp) (by simp) with ⟨s', hleads, hfin⟩
        exact ⟨s', hcall.trans hleads, hfin⟩
      · cases hfail

/-- **Asynchronous mode refines blocking mode.** Blocking mode finishes every program and
then has sent each message with the content it had when it was sent; where the caller
leaves unsent bytes alone, asynchronous mode has at all times sent a beginning of that. -/
theorem async_refines_blocking (hfits : ∀ op ∈ prog (), op.fits) :
    (∃ b, (system ⟨.raw m, .blocking⟩ X mem prog e).Reachable b ∧ Finished b) ∧
      ∀ b, (system ⟨.raw m, .blocking⟩ X mem prog e).Reachable b → Finished b →
        b.wire = (messages (initial mem prog e).mem (prog ())).flatten ∧
        ∀ a, (system ⟨.raw m, .asynchronous⟩ X mem prog e).ReachableWhen leavesUnsentBytes a →
          a.wire <+: b.wire := by
  constructor
  · rcases blocking_leads X m mem prog e (s := initial mem prog e) rfl rfl with ⟨b, hleads, hfin⟩
    exact ⟨b, System.Reachable.leads .init hleads, hfin⟩
  · intro b hb hfin
    have hwire := blocking_wire hfits hb hfin
    refine ⟨hwire, fun a ha => ?_⟩
    rw [hwire]
    exact async_wire_prefix hfits ha

end Refinement

/-! ## A message overwritten after its call -/

/-- A caller that sends its first byte, which is `1`, and then writes `9` over it. -/
def sendThenWrite (tx : TxMode) : System (State Unit ℕ) (Label Unit) :=
  system ⟨.raw .singleByte, tx⟩ (stuffingEscaper byteStuffing 256)
    (fun _ _ => 1) (fun _ => [.send 0 1, .write 0 9]) 0

/-- The caller writes after the byte has gone out. -/
theorem sendThenWrite_after_transfer : ∃ a b,
    (sendThenWrite .asynchronous).ReachableWhen leavesUnsentBytes a ∧
      (sendThenWrite .blocking).Reachable b ∧ Finished b ∧ a.todo () = [] ∧ a.wire = [1] ∧
      a.wire <+: b.wire := by
  have hfits : ∀ op ∈ [CallerOp.send 0 1, .write 0 9], op.fits := by
    simp [CallerOp.fits]
  have ha := (sendThenWrite .asynchronous).reachableWhen_get leavesUnsentBytes
    (List.replicate 4 (.task ()) ++ [.txByte, .task ()]) (by decide)
  have href : (∃ b, (sendThenWrite .blocking).Reachable b ∧ Finished b) ∧
      ∀ b, (sendThenWrite .blocking).Reachable b → Finished b → _ ∧
        ∀ a, (sendThenWrite .asynchronous).ReachableWhen leavesUnsentBytes a →
          a.wire <+: b.wire := async_refines_blocking hfits
  rcases href with ⟨⟨b, hb, hfin⟩, href⟩
  exact ⟨_, b, ha, hb, hfin, rfl, rfl, (href b hb hfin).2 _ ha⟩

/-- The caller writes before the byte has gone out. -/
theorem sendThenWrite_before_transfer : ¬ ∀ a b,
    (sendThenWrite .asynchronous).Reachable a → (sendThenWrite .blocking).Reachable b →
      Finished b → a.wire <+: b.wire := by
  intro h
  have ha := (sendThenWrite .asynchronous).reachable_get
    (List.replicate 5 (.task ()) ++ [.txByte]) (by decide)
  have hb := (sendThenWrite .blocking).reachable_get (List.replicate 4 (.task ())) (by decide)
  exact absurd (h _ _ ha hb ⟨rfl, rfl⟩) (by decide)

end Samrh71Drivers.Serial
