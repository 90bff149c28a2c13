import Samrh71Drivers.Serial.Tx

/-!
# What the TX token protects

The token is in exactly one place (`custody`). While a sender has it, from its wait to the
end of `Uart_writeAsync`, no transfer is in flight, so `txFifo` can be laid over the
sender's chunk. A record of the two calls of `uartWriteAsync` shows that the chunks given
to it are started one by one: each FIFO given to `Uart_writeAsync` lies over the whole of
the chunk that was given last.

## Main definitions

* `TxEvent`, `txEvent` — the events that are recorded.
* `given`, `started` — the chunks given to `uartWriteAsync`, and the FIFOs started.
* `StartedInv` — the invariant.
* `tx_token` — conservation of the token, and what follows from it.
-/

namespace Samrh71Drivers.Serial

open Transition Custodian Lending

universe u v

/-- The FIFO `ByteFifo_initFromBytes` makes of a chunk. -/
def Packet.fifo {τ : Type u} (p : Packet τ) : Loan (Region τ) := ⟨p.region, p.offset, p.length, 0⟩

/-- What is recorded of a run. -/
inductive TxEvent (τ : Type u)
  /-- `uartWriteAsync` is called on a chunk. -/
  | given (t : τ) (p : Packet τ)
  /-- `Uart_writeAsync` is called, with `txFifo` as it is. -/
  | started (t : τ) (fifo : Loan (Region τ))

section Record

variable {τ : Type u} {E : Type v}

/-- The event of a step. A sender that obtains the token calls `uartWriteAsync`. -/
def txEvent (s : State τ E) : Label τ → Option (TxEvent τ)
  | .task t =>
    match s.pc t with
    | .waitForTxSemaphore p _ => some (.given t p)
    | .writeAsync _ => some (.started t s.txFifo)
    | _ => none
  | _ => none

/-- The chunks given to `uartWriteAsync`, as the FIFOs they are to be started with. -/
def given (r : List (TxEvent τ)) : List (τ × Loan (Region τ)) := r.filterMap fun
  | .given t p => some (t, p.fifo)
  | .started _ _ => none

/-- The FIFOs given to `Uart_writeAsync`. -/
def started (r : List (TxEvent τ)) : List (τ × Loan (Region τ)) := r.filterMap fun
  | .given _ _ => none
  | .started t fifo => some (t, fifo)

@[simp] theorem given_append_given (r : List (TxEvent τ)) (t : τ) (p : Packet τ) :
    given (r ++ [.given t p]) = given r ++ [(t, p.fifo)] := by simp [given]

@[simp] theorem given_append_started (r : List (TxEvent τ)) (t : τ) (fifo : Loan (Region τ)) :
    given (r ++ [.started t fifo]) = given r := by simp [given]

@[simp] theorem started_append_given (r : List (TxEvent τ)) (t : τ) (p : Packet τ) :
    started (r ++ [.given t p]) = started r := by simp [started]

@[simp] theorem started_append_started (r : List (TxEvent τ)) (t : τ) (fifo : Loan (Region τ)) :
    started (r ++ [.started t fifo]) = started r ++ [(t, fifo)] := by simp [started]

/-- Every chunk given has been started, but for the chunk of the sender that has the token. -/
structure StartedInv (s : State τ E) (r : List (TxEvent τ)) : Prop where
  idle : (∀ t, ¬ (s.pc t).critical) → given r = started r
  initFifo : ∀ t p back, s.pc t = .initFifo p back → given r = started r ++ [(t, p.fifo)]
  writeAsync : ∀ t back, s.pc t = .writeAsync back → given r = started r ++ [(t, s.txFifo)]

variable [DecidableEq τ] {c : Mode} {X : Escaper E} {s s' : State τ E} {r : List (TxEvent τ)}

/-- A task that moves outside its critical section leaves the invariant. -/
private theorem StartedInv.of_move {t : τ} {pc : Pc τ} (h : StartedInv s r)
    (hpc : s'.pc = Function.update s.pc t pc) (hfifo : s'.txFifo = s.txFifo)
    (hbefore : ¬ (s.pc t).critical) (hafter : ¬ pc.critical) : StartedInv s' r := by
  have hcrit : ∀ t', (s'.pc t').critical ↔ (s.pc t').critical := by
    rw [hpc]
    exact update_iff Pc.critical (by simp [hbefore, hafter])
  constructor
  case idle =>
    intro hidle
    exact h.idle fun t' ht' => hidle t' ((hcrit t').mpr ht')
  case initFifo =>
    intro t' p back ht'
    rw [hpc] at ht'
    rcases of_update (· = Pc.initFifo p back) ht' with ⟨-, ht'⟩ | ⟨-, ht'⟩
    · exact absurd (by simp [ht']) hafter
    · exact h.initFifo t' p back ht'
  case writeAsync =>
    intro t' back ht'
    rw [hpc] at ht'
    rw [hfifo]
    rcases of_update (· = Pc.writeAsync back) ht' with ⟨-, ht'⟩ | ⟨-, ht'⟩
    · exact absurd (by simp [ht']) hafter
    · exact h.writeAsync t' back ht'

/-- The sender that has the token is the only one in its critical section. -/
private theorem eq_of_update_critical {o : Holder τ} {t t' : τ} {pc pc' : Pc τ}
    (hc : TxCustody s o) (ht : (s.pc t).critical) (hpc' : pc'.critical)
    (h : Function.update s.pc t pc t' = pc') : t' = t ∧ pc = pc' := by
  rcases of_update (· = pc') h with ⟨heq, hval⟩ | ⟨hne, hval⟩
  · exact ⟨heq, hval⟩
  · exact absurd (hc.unique (t := t') (by rw [hval]; exact hpc') ht) hne

/-- **One step keeps the invariant.** -/
theorem StartedInv.step {l : Label τ} {o : Holder τ} (hc : TxCustody s o) (h : StartedInv s r)
    (hs : Step c X s l s') : StartedInv s' (r ++ (txEvent s l).toList) := by
  cases hs with
  | @callerWrite t a v ops hpc =>
    simp only [txEvent, hpc, Option.toList_none, List.append_nil]
    exact ⟨h.idle, h.initFifo, h.writeAsync⟩
  | callRaw hpc | callEscaped hpc | encode hpc | loopEnd hpc | blockingByte hpc | blockingEnd hpc =>
    simp only [txEvent, hpc, Option.toList_none, List.append_nil]
    exact h.of_move rfl rfl (by simp [hpc]) (by simp)
  | uartWriteFails hpc =>
    simp only [txEvent, Option.toList_none, List.append_nil]
    exact h.of_move rfl rfl (by simp [hpc]) (by simp)
  | @obtain t p back hpc hav =>
    simp only [txEvent, hpc, Option.toList_some]
    have hfree : o = .free := hc.token_iff.mp hav
    have hnone : ∀ t', ¬ (s.pc t').critical := by
      intro t' ht'
      simpa [hfree] using (hc.critical_iff t').mp ht'
    constructor
    case idle =>
      intro hidle
      exact absurd (by simp) (hidle t)
    case initFifo =>
      intro t' p' back' ht'
      rcases of_update (· = Pc.initFifo p' back') ht' with ⟨heq, hval⟩ | ⟨-, hval⟩
      · rw [given_append_given, started_append_given, h.idle hnone, heq, (Pc.initFifo.inj hval).1]
      · exact absurd (by simp [hval]) (hnone t')
    case writeAsync =>
      intro t' back' ht'
      rcases of_update (· = Pc.writeAsync back') ht' with ⟨-, hval⟩ | ⟨-, hval⟩
      · cases hval
      · exact absurd (by simp [hval]) (hnone t')
  | @initFifo t p back hpc =>
    simp only [txEvent, hpc, Option.toList_none, List.append_nil]
    have hcrit : (s.pc t).critical := by simp [hpc]
    constructor
    case idle =>
      intro hidle
      exact absurd (by simp) (hidle t)
    case initFifo =>
      intro t' p' back' ht'
      cases (eq_of_update_critical hc hcrit (by simp) ht').2
    case writeAsync =>
      intro t' back' ht'
      rw [(eq_of_update_critical hc hcrit (by simp) ht').1]
      exact h.initFifo t p back hpc
  | @writeAsync t back hpc =>
    simp only [txEvent, hpc, Option.toList_some]
    have hcrit : (s.pc t).critical := by simp [hpc]
    constructor
    case idle =>
      intro _
      rw [given_append_started, started_append_started]
      exact h.writeAsync t back hpc
    case initFifo =>
      intro t' p' back' ht'
      have hresume := (eq_of_update_critical hc hcrit (by simp) ht').2
      have hresumed : (resume back : Pc τ).critical := by simp [hresume, -critical_resume]
      exact absurd hresumed (critical_resume back)
    case writeAsync =>
      intro t' back' ht'
      have hresume := (eq_of_update_critical hc hcrit (by simp) ht').2
      have hresumed : (resume back : Pc τ).critical := by simp [hresume, -critical_resume]
      exact absurd hresumed (critical_resume back)
  | @txByte b fifo hin =>
    simp only [txEvent, Option.toList_none, List.append_nil]
    have hnone : ∀ t', ¬ (s.pc t').critical := by
      intro t' ht'
      have := hc.owed_eq_zero (t := t') ht'
      omega
    constructor
    case idle => exact h.idle
    case initFifo => exact h.initFifo
    case writeAsync =>
      intro t' back' ht'
      have ht : s.pc t' = .writeAsync back' := ht'
      exact absurd (by simp [ht]) (hnone t')
  | txEmpty =>
    simp only [txEvent, Option.toList_none, List.append_nil]
    exact ⟨h.idle, h.initFifo, h.writeAsync⟩

/-- The invariant holds in every state of the recorded runs. -/
theorem startedInv {mem : τ → ℕ → UInt8} {prog : τ → List CallerOp} {e : E}
    {x : State τ E × List (TxEvent τ)}
    (h : ((system c X mem prog e).recorded txEvent).Reachable x) : StartedInv x.1 x.2 := by
  refine System.Reachable.recorded_invariant (P := StartedInv) ?_ ?_ h
  · constructor
    case idle => exact fun _ => rfl
    case initFifo =>
      intro t p back hpc
      cases hpc
    case writeAsync =>
      intro t back hpc
      cases hpc
  · intro s r l s' hreach hinv hs
    obtain ⟨o, hc⟩ := custody hreach
    exact hinv.step hc (step_of_next hs)

/-- **The TX token is conserved**, for any senders in raw and in escaped mode. In every
reachable state exactly one of three holds: the semaphore has its token, exactly one sender
is between its wait and the end of `Uart_writeAsync`, or exactly one transfer is in flight.
So `txFifo` is not initialised again while a transfer is in flight, and the chunks given to
`uartWriteAsync` have been started once each, in order and from their first byte, but for
the chunk of a sender that is about to start it. -/
theorem tx_token (c : Mode) (X : Escaper E) (mem : τ → ℕ → UInt8) (prog : τ → List CallerOp)
    (e : E) (x : State τ E × List (TxEvent τ))
    (h : ((system c X mem prog e).recorded txEvent).Reachable x) :
    ((x.1.txSemaphore.available = true ∧ (∀ t, ¬ (x.1.pc t).critical) ∧ x.1.inFlight = 0) ∨
      (x.1.txSemaphore.available = false ∧ (∃! t, (x.1.pc t).critical) ∧ x.1.inFlight = 0) ∨
      (x.1.txSemaphore.available = false ∧ (∀ t, ¬ (x.1.pc t).critical) ∧ x.1.inFlight = 1)) ∧
    (∀ t p back, x.1.pc t = .initFifo p back → x.1.inFlight = 0) ∧
    (given x.2 = started x.2 ∨
      ∃ t chunk, (x.1.pc t).critical ∧ given x.2 = started x.2 ++ [(t, chunk)]) := by
  obtain ⟨o, hc⟩ := custody (System.Reachable.of_recorded h)
  have hinv := startedInv h
  refine ⟨hc.exclusive, ?_, ?_⟩
  · intro t p back hpc
    exact hc.owed_eq_zero (t := t) (by simp [hpc])
  · by_cases hidle : ∀ t, ¬ (x.1.pc t).critical
    · exact .inl (hinv.idle hidle)
    · right
      rw [not_forall] at hidle
      obtain ⟨t, ht⟩ := hidle
      rw [not_not] at ht
      cases hpc : x.1.pc t with
      | initFifo p back => exact ⟨t, p.fifo, by simp [hpc], hinv.initFifo t p back hpc⟩
      | writeAsync back => exact ⟨t, x.1.txFifo, by simp [hpc], hinv.writeAsync t back hpc⟩
      | outside | loopHead | waitForTxSemaphore | writeBlocking | stopped => simp [hpc] at ht

end Record

/-- Two tasks send one byte each. In raw mode, the first transfer has been drained, and the
second task has given its chunk to `uartWriteAsync`. In escaped mode, the first packet is in
flight, and the second task waits with its own. -/
theorem tx_token_two_tasks :
    (∃ x, ((system ⟨.raw .singleByte, .asynchronous⟩ (stuffingEscaper byteStuffing 8)
        (fun (t : Bool) _ => if t then 1 else 2) (fun _ => [.send 0 1]) 0).recorded
        txEvent).Reachable x ∧
      (x.1.pc true).critical ∧ x.1.wire = [2] ∧
      (∀ t p back, x.1.pc t = .initFifo p back → x.1.inFlight = 0)) ∧
    ∃ x, ((system ⟨.escapedPackets, .asynchronous⟩ (stuffingEscaper byteStuffing 8)
        (fun (t : Bool) _ => if t then 1 else 2) (fun _ => [.send 0 1]) 0).recorded
        txEvent).Reachable x ∧
      x.1.inFlight = 1 ∧ x.1.txSemaphore.available = false ∧ (∀ t, ¬ (x.1.pc t).critical) ∧
      given x.2 = started x.2 ∧ (started x.2).length = 1 := by
  constructor
  · let ls : List (Label Bool) := [.task false, .task true, .task false, .task false, .task false,
      .txByte, .txEmpty, .task true]
    have hr := System.reachable_get ((system ⟨.raw .singleByte, .asynchronous⟩
      (stuffingEscaper byteStuffing 8) (fun (t : Bool) _ => if t then 1 else 2)
      (fun _ => [.send 0 1]) 0).recorded txEvent) ls (by decide)
    exact ⟨_, hr, trivial, rfl, (tx_token _ _ _ _ _ _ hr).2.1⟩
  · let ls : List (Label Bool) := [.task false, .task false, .task false, .task false,
      .task false, .txByte, .task true, .task true]
    have hr := System.reachable_get ((system ⟨.escapedPackets, .asynchronous⟩
      (stuffingEscaper byteStuffing 8) (fun (t : Bool) _ => if t then 1 else 2)
      (fun _ => [.send 0 1]) 0).recorded txEvent) ls (by decide)
    obtain ⟨hplaces, -, hstarted⟩ := tx_token _ _ _ _ _ _ hr
    rcases hplaces with ⟨-, -, hnone⟩ | ⟨-, -, hnone⟩ | ⟨hav, hcritical, hone⟩
    · cases hnone
    · cases hnone
    · refine ⟨_, hr, hone, hav, hcritical, ?_, rfl⟩
      rcases hstarted with hall | ⟨t, chunk, ht, -⟩
      · exact hall
      · exact absurd ht (hcritical t)

end Samrh71Drivers.Serial
