import Mathlib.Data.Nat.Basic
import Mathlib.Logic.ExistsUnique
import Mathlib.Logic.Relation

/-!
# Custody of a single resource

Clients and a device share one resource. A client takes it by consuming a token,
works in a critical section, hands it over to the device, and the device gives the
token back when it is done. At every moment the resource is in exactly one place,
and that place is all there is to know: `Holder` with its `Move`s is the abstract
machine, and `Custody` ties it to a concrete system with a token flag, a predicate for
clients in their critical section and a count of hand-overs the device has not yet
answered.

The rules `Custody.obtain`, `Custody.handOver` and `Custody.release` make a move;
`Custody.congr` and `Custody.moved` carry custody over every other step.

## Main definitions

* `Holder`, `Move` — the place of the resource, and how it changes.
* `Custody` — a concrete state shows the resource in that place.
* `Custody.exclusive` — exactly one of the three cases holds.
-/

namespace Custodian

universe u

/-- Where the resource is. -/
inductive Holder (τ : Type u)
  /-- Free for the next client to take. -/
  | free
  /-- In the critical section of one client. -/
  | client (t : τ)
  /-- With the device. -/
  | device

/-- The resource goes from a client to the device and back. -/
inductive Move {τ : Type u} : Holder τ → Holder τ → Prop
  | obtain (t : τ) : Move .free (.client t)
  | handOver (t : τ) : Move (.client t) .device
  | release : Move .device .free

/-- The concrete marks of the place `o`: the token is available exactly when the
resource is free, a client is in its critical section exactly when it holds the
resource, and the device owes one answer exactly when it has it. -/
structure Custody {τ : Type u} (token : Bool) (critical : τ → Prop) (owed : ℕ)
    (o : Holder τ) : Prop where
  token_iff : token = true ↔ o = .free
  critical_iff : ∀ t, critical t ↔ o = .client t
  owed_device : o = .device → owed = 1
  owed_other : o ≠ .device → owed = 0

namespace Custody

variable {τ : Type u} {token : Bool} {critical critical' : τ → Prop} {owed owed' : ℕ}
  {o : Holder τ} {t : τ}

/-- Custody only looks at who is in the critical section. -/
theorem congr (h : Custody token critical owed o) (hc : ∀ t, critical' t ↔ critical t) :
    Custody token critical' owed o :=
  ⟨h.token_iff, fun t => (hc t).trans (h.critical_iff t), h.owed_device, h.owed_other⟩

/-- Custody only looks at how many answers the device owes, not at how far it is. -/
theorem moved (h : Custody token critical owed o) (howed : owed = owed') :
    Custody token critical owed' o := by
  rwa [← howed]

/-- A free resource is taken by the client that consumes the token. -/
theorem obtain (h : Custody true critical owed o) (ht : critical' t)
    (hne : ∀ t', t' ≠ t → (critical' t' ↔ critical t')) :
    ∃ o', Relation.ReflGen Move o o' ∧ Custody false critical' owed o' := by
  have ho : o = .free := h.token_iff.mp rfl
  subst ho
  refine ⟨.client t, .single (.obtain t), by simp, fun t' => ?_, by simp,
    fun _ => h.owed_other (by simp)⟩
  by_cases htt : t' = t
  · subst htt
    exact ⟨fun _ => rfl, fun _ => ht⟩
  · rw [hne t' htt, h.critical_iff t']
    simpa using Ne.symm htt

/-- A client hands the resource over to the device and leaves its critical section. -/
theorem handOver (h : Custody token critical owed o) (ht : critical t) (ht' : ¬ critical' t)
    (hne : ∀ t', t' ≠ t → (critical' t' ↔ critical t')) (howed : owed' = owed + 1) :
    ∃ o', Relation.ReflGen Move o o' ∧ Custody token critical' owed' o' := by
  have ho : o = .client t := (h.critical_iff t).mp ht
  subst ho
  have hzero : owed = 0 := h.owed_other (by simp)
  refine ⟨.device, .single (.handOver t), by simpa using h.token_iff, fun t' => ?_,
    fun _ => by omega, by simp⟩
  by_cases htt : t' = t
  · subst htt
    simpa using ht'
  · rw [hne t' htt, h.critical_iff t']
    simpa using Ne.symm htt

/-- The device answers a hand-over and the token is back. -/
theorem release (h : Custody token critical owed o) (howed : owed = owed' + 1) :
    ∃ o', Relation.ReflGen Move o o' ∧ Custody true critical owed' o' := by
  have ho : o = .device := by
    by_contra hne
    exact absurd (h.owed_other hne) (by omega)
  subst ho
  have hone : owed = 1 := h.owed_device rfl
  refine ⟨.free, .single .release, by simp, fun t => ?_, by simp, fun _ => by omega⟩
  simpa using h.critical_iff t

/-- Nothing is with the device while a client is in its critical section. -/
theorem owed_eq_zero (h : Custody token critical owed o) (ht : critical t) : owed = 0 :=
  h.owed_other (by rw [(h.critical_iff t).mp ht]; simp)

/-- The device never owes more than one answer. -/
theorem owed_le_one (h : Custody token critical owed o) : owed ≤ 1 := by
  by_cases ho : o = .device
  · exact Nat.le_of_eq (h.owed_device ho)
  · have := h.owed_other ho
    omega

/-- At most one client is in its critical section. -/
theorem unique (h : Custody token critical owed o) {t' : τ} (ht : critical t)
    (ht' : critical t') : t = t' := by
  have := ((h.critical_iff t).mp ht).symm.trans ((h.critical_iff t').mp ht')
  simpa using this

/-- **Exactly one of three.** The token is available, exactly one client is in its
critical section, or exactly one hand-over is with the device. -/
theorem exclusive (h : Custody token critical owed o) :
    (token = true ∧ (∀ t, ¬ critical t) ∧ owed = 0) ∨
      (token = false ∧ (∃! t, critical t) ∧ owed = 0) ∨
      (token = false ∧ (∀ t, ¬ critical t) ∧ owed = 1) := by
  cases ho : o with
  | free =>
    subst ho
    refine .inl ⟨h.token_iff.mpr rfl, fun t ht => ?_, h.owed_other (by simp)⟩
    simpa using (h.critical_iff t).mp ht
  | client t =>
    subst ho
    refine .inr (.inl ⟨by simpa using h.token_iff, ⟨t, (h.critical_iff t).mpr rfl, ?_⟩,
      h.owed_other (by simp)⟩)
    intro t' ht'
    exact h.unique ht' ((h.critical_iff t).mpr rfl)
  | device =>
    subst ho
    refine .inr (.inr ⟨by simpa using h.token_iff, fun t ht => ?_, h.owed_device rfl⟩)
    simpa using (h.critical_iff t).mp ht

end Custody
end Custodian
