import Samrh71Drivers.Outcome
import Samrh71Drivers.Serial.Tx
import Mathlib.Data.Nat.Find

/-!
# One call of `Samrh71RtemsSerialSend` in raw mode

The whole call on a message of `length` bytes at `data`, as it runs from its beginning to
its end or to a failed assertion, in both TX modes. `uartWriteBlocking` and
`uartWriteAsync` take a `uint16_t`, and the message is reduced to that many bytes on the
way in. The loop of `uartWriteBlocking` counts in `uint16_t` too, and ends for every length.

The calls are connected with the transition system of the driver, in which the same call is
a number of steps of its task.

## Main definitions

* `uartWriteBlocking`, `uartWriteAsync`, `samrh71RtemsSerialSend` — the call.
* `WritesWhole`, `StartsWhole` — the message goes out as a whole.
* `raw_send_whole_iff` — it does exactly when its length fits a `uint16_t`.
* `uartWriteBlocking_leads` — the steps of the transition system.
-/

namespace Samrh71Drivers.Serial.RawSend

open Transition Lending

universe u v

/-- The assertions of `uartWriteBlocking` and of `waitForTxSemaphore`. -/
inductive Assertion
  | uartWrite
  | obtain
  deriving DecidableEq

/-- What a call does to the UART: the bytes written by `Uart_write`, and the FIFOs given to
`Uart_writeAsync`. -/
structure Sent (ρ : Type u) where
  written : List UInt8
  started : List (Loan ρ)

section Model

variable {ρ : Type u}

/-- The loop of `uartWriteBlocking` on the `length` bytes at `buffer`, for at most `fuel`
tests; `ok k` says whether call `k` of `Uart_write` reports no error. -/
def uartWriteBlockingLoop (ok : ℕ → Bool) (mem : Store ρ UInt8) (r : ρ) (buffer length : ℕ) :
    ℕ → ℕ → Sent ρ → Outcome Assertion (Sent ρ)
  | 0, _, _ => .outOfFuel
  | fuel + 1, i, s =>
    if i < length then
      if ok s.written.length then
        uartWriteBlockingLoop ok mem r buffer length fuel (toUInt16 (i + 1))
          { s with written := s.written ++ [mem r (buffer + i)] }
      else .asserted .uartWrite s
    else .returned s

/-- `uartWriteBlocking`, whose `length` is a `uint16_t`. -/
def uartWriteBlocking (ok : ℕ → Bool) (mem : Store ρ UInt8) (r : ρ) (buffer length fuel : ℕ) :
    Outcome Assertion (Sent ρ) :=
  uartWriteBlockingLoop ok mem r buffer (toUInt16 length) fuel 0 ⟨[], []⟩

/-- `uartWriteAsync`, whose `length` is a `uint16_t`. -/
def uartWriteAsync (r : ρ) (buffer length : ℕ) (s : Sent ρ) : Sent ρ :=
  { s with started := s.started ++ [⟨r, buffer, toUInt16 length, 0⟩] }

/-- `Samrh71RtemsSerialSend` in raw mode, where `obtained` says whether the wait for the TX
semaphore succeeds. -/
def samrh71RtemsSerialSend (tx : TxMode) (obtained : Bool) (ok : ℕ → Bool) (mem : Store ρ UInt8)
    (r : ρ) (data length fuel : ℕ) : Outcome Assertion (Sent ρ) :=
  match tx with
  | .blocking => uartWriteBlocking ok mem r data length fuel
  | .asynchronous =>
    (Outcome.assert .obtain obtained ⟨[], []⟩).andThen fun s =>
      .returned (uartWriteAsync r data length s)

end Model

/-! ## The loop -/

section Loop

variable {ρ : Type u} {ok : ℕ → Bool} {mem : Store ρ UInt8} {r : ρ} {buffer length : ℕ}

/-- **Rounds of the loop.** `k` calls of `Uart_write` without an error write `k` bytes, and
leave the loop at the byte after them. -/
theorem uartWriteBlockingLoop_rounds (hlen : length < 65536) (fuel : ℕ) :
    ∀ (k i : ℕ) (s : Sent ρ), i + k ≤ length → (∀ j < k, ok (s.written.length + j) = true) →
      uartWriteBlockingLoop ok mem r buffer length (k + fuel) i s =
        uartWriteBlockingLoop ok mem r buffer length fuel (i + k)
          { s with written := s.written ++ mem.bytes r (buffer + i) k } := by
  intro k
  induction k with
  | zero =>
    intro i s _ _
    rw [Nat.zero_add, Nat.add_zero, Store.bytes_zero, List.append_nil]
  | succ k ih =>
    intro i s hi hok
    have hstep : toUInt16 (i + 1) = i + 1 := Nat.mod_eq_of_lt (by omega)
    have hfirst : ok s.written.length = true := hok 0 (Nat.succ_pos k)
    rw [Nat.succ_add, uartWriteBlockingLoop, if_pos (by omega), hfirst, if_pos rfl, hstep,
      ih (i + 1) _ (by omega) ?_, Store.bytes_succ, List.append_assoc, List.singleton_append]
    · rw [Nat.add_right_comm i 1 k, Nat.add_assoc buffer i 1, Nat.add_assoc i k 1]
    · intro j hj
      rw [List.length_append, List.length_singleton, Nat.add_assoc, Nat.add_comm 1 j]
      exact hok (j + 1) (by omega)

/-- The loop returns with all bytes written when no call reports an error. -/
theorem uartWriteBlockingLoop_returned (hlen : length < 65536) (fuel : ℕ)
    (hok : ∀ k < length, ok k = true) :
    uartWriteBlockingLoop ok mem r buffer length (length + (fuel + 1)) 0 ⟨[], []⟩ =
      .returned ⟨mem.bytes r buffer length, []⟩ := by
  rw [uartWriteBlockingLoop_rounds hlen (fuel + 1) length 0 ⟨[], []⟩ (by omega)
    (by simpa using hok), uartWriteBlockingLoop, if_neg (by omega)]
  rfl

/-- The loop stops at the first call that reports an error, with the bytes before it
written. -/
theorem uartWriteBlockingLoop_asserted (hlen : length < 65536) (fuel : ℕ) {k : ℕ}
    (hk : k < length) (hok : ∀ j < k, ok j = true) (hfail : ok k = false) :
    uartWriteBlockingLoop ok mem r buffer length (k + (fuel + 1)) 0 ⟨[], []⟩ =
      .asserted .uartWrite ⟨mem.bytes r buffer k, []⟩ := by
  rw [uartWriteBlockingLoop_rounds hlen (fuel + 1) k 0 ⟨[], []⟩ (by omega) (by simpa using hok),
    uartWriteBlockingLoop, if_pos (by omega)]
  simp [hfail]

end Loop

/-! ## The call -/

section Call

variable {ρ : Type u} (ok : ℕ → Bool) (mem : Store ρ UInt8) (r : ρ) (data length : ℕ)

private theorem toUInt16_lt (n : ℕ) : toUInt16 n < 65536 := Nat.mod_lt _ (by decide)

/-- **How `uartWriteBlocking` ends**, for every length and every behaviour of `Uart_write`: it
returns with the bytes of the reduced length written, or stops at the first error. -/
theorem uartWriteBlocking_spec {fuel : ℕ} (hfuel : toUInt16 length < fuel) :
    ((∀ k < toUInt16 length, ok k = true) ∧ uartWriteBlocking ok mem r data length fuel =
      .returned ⟨mem.bytes r data (toUInt16 length), []⟩) ∨
    ∃ k < toUInt16 length, ok k = false ∧ uartWriteBlocking ok mem r data length fuel =
      .asserted .uartWrite ⟨mem.bytes r data k, []⟩ := by
  by_cases hok : ∀ k < toUInt16 length, ok k = true
  · left
    obtain ⟨m, hm⟩ : ∃ m, fuel = toUInt16 length + (m + 1) :=
      ⟨fuel - toUInt16 length - 1, by omega⟩
    rw [uartWriteBlocking, hm]
    exact ⟨hok, uartWriteBlockingLoop_returned (toUInt16_lt length) m hok⟩
  · right
    have hex : ∃ k, k < toUInt16 length ∧ ok k = false := by
      simpa using hok
    -- the first call that reports an error
    have hfirst := Nat.find_spec hex
    have hbefore : ∀ j < Nat.find hex, ok j = true := by
      intro j hj
      by_contra hfail
      exact Nat.find_min hex hj ⟨by omega, by simpa using hfail⟩
    obtain ⟨m, hm⟩ : ∃ m, fuel = Nat.find hex + (m + 1) :=
      ⟨fuel - Nat.find hex - 1, by omega⟩
    refine ⟨Nat.find hex, hfirst.1, hfirst.2, ?_⟩
    rw [uartWriteBlocking, hm]
    exact uartWriteBlockingLoop_asserted (toUInt16_lt length) m hfirst.1 hbefore hfirst.2

/-- In blocking mode the message is written as a whole: the call returns with exactly its
bytes written when no call of `Uart_write` reports an error, and otherwise stops at its
assertion after a beginning of it. -/
def WritesWhole : Prop :=
  ∀ (obtained : Bool) (ok : ℕ → Bool), ∃ enough, ∀ fuel ≥ enough,
    ((∀ k < length, ok k = true) →
      samrh71RtemsSerialSend .blocking obtained ok mem r data length fuel =
        .returned ⟨mem.bytes r data length, []⟩) ∧
    ((∃ k < length, ok k = false) →
      ∃ t, samrh71RtemsSerialSend .blocking obtained ok mem r data length fuel =
          .asserted .uartWrite t ∧ t.written <+: mem.bytes r data length)

/-- In asynchronous mode the message is started as a whole: the one FIFO given to
`Uart_writeAsync` holds exactly its bytes. -/
def StartsWhole : Prop :=
  ∀ (ok : ℕ → Bool) (fuel : ℕ), ∃ fifo,
    samrh71RtemsSerialSend .asynchronous true ok mem r data length fuel =
      .returned ⟨[], [fifo]⟩ ∧ fifo.unread mem = mem.bytes r data length

private theorem bytes_prefix {k n : ℕ} (h : k ≤ n) :
    mem.bytes r data k <+: mem.bytes r data n := by
  obtain ⟨m, rfl⟩ := Nat.exists_eq_add_of_le h
  rw [Store.bytes_add]
  exact List.prefix_append _ _

/-- A reduced message is not the message. -/
private theorem bytes_toUInt16_ne {length : ℕ} (h : 65536 ≤ length) :
    mem.bytes r data (toUInt16 length) ≠ mem.bytes r data length := by
  intro heq
  have hlength := congrArg List.length heq
  rw [Store.length_bytes, Store.length_bytes] at hlength
  have := toUInt16_lt length
  omega

theorem writesWhole_iff : WritesWhole mem r data length ↔ length < 65536 := by
  constructor
  · intro h
    by_contra hlen
    obtain ⟨enough, henough⟩ := h true fun _ => true
    have hwhole := (henough (max enough (toUInt16 length + 1)) (Nat.le_max_left _ _)).1 (by simp)
    have hfuel : toUInt16 length < max enough (toUInt16 length + 1) := by omega
    rcases uartWriteBlocking_spec (fun _ => true) mem r data length hfuel with
      ⟨-, hret⟩ | ⟨k, -, hfail, -⟩
    · rw [samrh71RtemsSerialSend, hret] at hwhole
      exact bytes_toUInt16_ne mem r data (Nat.le_of_not_lt hlen)
        (congrArg Sent.written (Outcome.returned.inj hwhole))
    · cases hfail
  · intro hlen obtained ok
    have hsame : toUInt16 length = length := Nat.mod_eq_of_lt hlen
    refine ⟨length + 1, ?_⟩
    intro fuel hfuel
    have hspec := uartWriteBlocking_spec ok mem r data length (hsame ▸ hfuel)
    rw [hsame] at hspec
    constructor
    · intro hok
      rcases hspec with ⟨-, hret⟩ | ⟨k, hk, hfail, -⟩
      · exact hret
      · rw [hok k hk] at hfail
        cases hfail
    · rintro ⟨k, hk, hfail⟩
      rcases hspec with ⟨hok, -⟩ | ⟨j, hj, -, hassert⟩
      · rw [hok k hk] at hfail
        cases hfail
      · exact ⟨_, hassert, bytes_prefix mem r data (Nat.le_of_lt hj)⟩

theorem startsWhole_iff : StartsWhole mem r data length ↔ length < 65536 := by
  have hsend (ok : ℕ → Bool) (fuel : ℕ) :
      samrh71RtemsSerialSend .asynchronous true ok mem r data length fuel =
        .returned ⟨[], [⟨r, data, toUInt16 length, 0⟩]⟩ := rfl
  constructor
  · intro h
    by_contra hlen
    obtain ⟨fifo, hfifo, hbytes⟩ := h (fun _ => true) 0
    rw [hsend, Outcome.returned.injEq, Sent.mk.injEq] at hfifo
    obtain rfl := List.singleton_injective hfifo.2
    exact bytes_toUInt16_ne mem r data (Nat.le_of_not_lt hlen) hbytes
  · intro hlen ok fuel
    refine ⟨_, hsend ok fuel, ?_⟩
    rw [Loan.unread_fresh, toUInt16, Nat.mod_eq_of_lt hlen]

/-- **Whole messages.** The blocking loop ends for every length, and in either mode the
message goes out as a whole exactly when its length fits the `uint16_t` it is passed in. -/
theorem raw_send_whole_iff :
    (∀ (obtained : Bool) (ok : ℕ → Bool), ∃ enough, ∀ fuel ≥ enough,
      samrh71RtemsSerialSend .blocking obtained ok mem r data length fuel ≠ .outOfFuel) ∧
    (WritesWhole mem r data length ↔ length < 65536) ∧
    (StartsWhole mem r data length ↔ length < 65536) := by
  refine ⟨?_, writesWhole_iff mem r data length, startsWhole_iff mem r data length⟩
  intro obtained ok
  refine ⟨toUInt16 length + 1, ?_⟩
  intro fuel hfuel hout
  rcases uartWriteBlocking_spec ok mem r data length hfuel with
    ⟨-, hret⟩ | ⟨k, -, -, hassert⟩
  · rw [samrh71RtemsSerialSend, hret] at hout
    cases hout
  · rw [samrh71RtemsSerialSend, hassert] at hout
    cases hout

end Call

/-! ## The call as steps of its task -/

section Steps

variable {τ : Type u} {E : Type v} [DecidableEq τ] (c : Mode) (X : Escaper E)
  (mem : τ → ℕ → UInt8) (prog : τ → List CallerOp) (e : E)

/-- **The loop of `uartWriteBlocking` in the transition system.** The steps of its task
lead to where the loop ends: back to the caller, or to the failed assertion. -/
theorem uartWriteBlockingLoop_leads (ok : ℕ → Bool) {t : τ} (p : Packet τ) (back : Option Loop)
    (sent : List UInt8) (fuel : ℕ) : ∀ (i : ℕ) (w w' : Sent (Region τ)) (s : State τ E),
      s.pc t = .writeBlocking p i back → s.wire = sent ++ w.written →
      (uartWriteBlockingLoop ok s.mem p.region p.offset p.length fuel i w = .returned w' →
        (system c X mem prog e).Leads s { s with
          wire := sent ++ w'.written
          pc := Function.update s.pc t (resume back) }) ∧
      (uartWriteBlockingLoop ok s.mem p.region p.offset p.length fuel i w =
          .asserted .uartWrite w' →
        (system c X mem prog e).Leads s { s with
          wire := sent ++ w'.written
          pc := Function.update s.pc t .stopped }) := by
  induction fuel with
  | zero =>
    intro i w w' s _ _
    simp [uartWriteBlockingLoop]
  | succ fuel ih =>
    intro i w w' s hpc hwire
    by_cases hlt : i < p.length
    · cases hok : ok w.written.length with
      | false =>
        have hstep : (system c X mem prog e).next s (.uartWriteFails t) = some { s with
            pc := Function.update s.pc t .stopped } := by
          simp [system, next, hpc, hlt]
        simp only [uartWriteBlockingLoop, hlt, hok, if_true]
        constructor
        · intro hret
          cases hret
        · intro hassert
          cases hassert
          rw [← hwire]
          exact System.Leads.single hstep
      | true =>
        have hstep : (system c X mem prog e).next s (.task t) = some { s with
            wire := s.wire ++ [s.mem p.region (p.offset + i)]
            pc := Function.update s.pc t (.writeBlocking p (toUInt16 (i + 1)) back) } := by
          simp [system, next, taskStep, hpc, hlt]
        rcases ih (toUInt16 (i + 1))
          { w with written := w.written ++ [s.mem p.region (p.offset + i)] } w' { s with
            wire := s.wire ++ [s.mem p.region (p.offset + i)]
            pc := Function.update s.pc t (.writeBlocking p (toUInt16 (i + 1)) back) }
          (by simp) (by simp [hwire]) with ⟨hret, hassert⟩
        simp only [Function.update_idem] at hret hassert
        simp only [uartWriteBlockingLoop, hlt, hok, if_true]
        exact ⟨fun h => (System.Leads.single hstep).trans (hret h),
          fun h => (System.Leads.single hstep).trans (hassert h)⟩
    · have hstep : (system c X mem prog e).next s (.task t) = some { s with
          pc := Function.update s.pc t (resume back) } := by
        simp [system, next, taskStep, hpc, hlt]
      simp only [uartWriteBlockingLoop, hlt, if_false]
      constructor
      · intro hret
        cases hret
        rw [← hwire]
        exact System.Leads.single hstep
      · intro hassert
        cases hassert

/-- **A call in blocking mode.** Where the call returns, the steps of its task lead from its
entry to its return, with the bytes it writes put on the wire. -/
theorem send_blocking_leads {m : RawMode} {ok : ℕ → Bool} {t : τ} {data length fuel : ℕ}
    {obtained : Bool} {ops : List CallerOp} {w : Sent (Region τ)} {s : State τ E}
    (hpc : s.pc t = .outside) (htodo : s.todo t = .send data length :: ops)
    (h : samrh71RtemsSerialSend .blocking obtained ok s.mem (.caller t) data length fuel =
      .returned w) :
    (system ⟨.raw m, .blocking⟩ X mem prog e).Leads s { s with
      wire := s.wire ++ w.written
      pc := Function.update s.pc t .outside
      todo := Function.update s.todo t ops } := by
  have hstep : (system ⟨.raw m, .blocking⟩ X mem prog e).next s (.task t) = some { s with
      pc := Function.update s.pc t (.writeBlocking ⟨.caller t, data, toUInt16 length⟩ 0 none)
      todo := Function.update s.todo t ops } := by
    simp [system, next, taskStep, hpc, htodo, Serial.samrh71RtemsSerialSend, rawModeEnabled,
      writePacket, blockingTxModeEnabled]
  have hloop := (uartWriteBlockingLoop_leads ⟨.raw m, .blocking⟩ X mem prog e ok (t := t)
    ⟨.caller t, data, toUInt16 length⟩ none s.wire fuel 0 ⟨[], []⟩ w { s with
      pc := Function.update s.pc t (.writeBlocking ⟨.caller t, data, toUInt16 length⟩ 0 none)
      todo := Function.update s.todo t ops } (Function.update_self _ _ _)
    (List.append_nil _).symm).1 h
  simp only [Function.update_idem] at hloop
  exact (System.Leads.single hstep).trans hloop

/-- **A call in asynchronous mode.** Where the token is there, the steps of its task lead
from its entry to its return, with the FIFO it starts laid over the message. -/
theorem send_async_leads {m : RawMode} {ok : ℕ → Bool} {t : τ} {data length fuel : ℕ}
    {ops : List CallerOp} {fifo : Loan (Region τ)} {s : State τ E} (hpc : s.pc t = .outside)
    (htodo : s.todo t = .send data length :: ops) (hav : s.txSemaphore.available = true)
    (h : samrh71RtemsSerialSend .asynchronous true ok s.mem (.caller t) data length fuel =
      .returned ⟨[], [fifo]⟩) :
    (system ⟨.raw m, .asynchronous⟩ X mem prog e).Leads s { s with
      txSemaphore := ⟨false⟩
      txFifo := fifo
      inFlight := s.inFlight + 1
      pc := Function.update s.pc t .outside
      todo := Function.update s.todo t ops } := by
  have hfifo : fifo = ⟨.caller t, data, toUInt16 length, 0⟩ := by
    cases h
    rfl
  refine ⟨[.task t, .task t, .task t, .task t], ?_⟩
  simp [System.exec_cons, system, next, taskStep, hpc, htodo, Serial.samrh71RtemsSerialSend,
    rawModeEnabled, writePacket, blockingTxModeEnabled, Semaphore.obtain, hav, resume, hfifo]

end Steps

/-- A memory full of sevens. -/
def sevens : Store Unit UInt8 := fun _ _ => 7

/-- A message of 65536 bytes is not sent at all: the call returns without a call of
`Uart_write`, or starts an empty FIFO. -/
theorem raw_send_65536_bytes :
    ¬ WritesWhole sevens () 0 65536 ∧ ¬ StartsWhole sevens () 0 65536 := by
  constructor
  · intro h
    obtain ⟨enough, henough⟩ := h true fun _ => true
    have hwhole := (henough (enough + 1) (Nat.le_succ _)).1 fun _ _ => rfl
    exact bytes_toUInt16_ne sevens () 0 (Nat.le_refl 65536)
      (congrArg Sent.written (Outcome.returned.inj hwhole))
  · intro h
    obtain ⟨fifo, hfifo, hbytes⟩ := h (fun _ => true) 0
    cases hfifo
    exact bytes_toUInt16_ne sevens () 0 (Nat.le_refl 65536) hbytes

end Samrh71Drivers.Serial.RawSend
