import Mathlib.Data.List.Basic
import Mathlib.Logic.Relation

/-!
# Labelled transition systems and their runs

A system here is a state machine whose labels resolve every choice of the
environment, so that one step is a partial function and a run is a list of
labels. A statement about every interleaving is a statement about every reachable
state; a statement about the runs in which each step meets a side condition is a
statement about `ReachableWhen`.

Both notions share one induction rule, `ReachableWhen.invariant`, and an executable
counterpart, `execWhen`, which exhibits a reachable state by evaluation.

## Main definitions

* `System` — an initial state and a partial step function.
* `System.ReachableWhen`, `System.Reachable` — states of guarded and of all runs.
* `System.exec`, `System.execWhen` — running a list of labels.
* `System.Leads` — one state leads to another by some list of labels.
* `System.Ensures` — what holds in a state is kept until a helpful step answers it.
* `System.recorded` — a system with a record of the events of its run.
* `System.Refines` — a system refines an abstract machine with a relation for its moves.
* `of_update`, `update_iff` — one component of a family of states moves.
-/

namespace Transition

universe u v w

section Components

variable {κ : Type u} {α : Type v} [DecidableEq κ] {f : κ → α} {i : κ} {a : α}

/-- After one component of a family has moved, what holds of a component holds of its new
value, or it has not moved and held before. -/
theorem of_update {j : κ} (P : α → Prop) (h : P (Function.update f i a j)) :
    (j = i ∧ P a) ∨ (j ≠ i ∧ P (f j)) := by
  by_cases hj : j = i
  · rw [hj, Function.update_self] at h
    exact .inl ⟨hj, h⟩
  · rw [Function.update_of_ne hj] at h
    exact .inr ⟨hj, h⟩

/-- A component whose move does not change a property leaves it to all of them. -/
theorem update_iff (P : α → Prop) (h : P a ↔ P (f i)) (j : κ) :
    P (Function.update f i a j) ↔ P (f j) := by
  by_cases hj : j = i
  · rw [hj, Function.update_self]
    exact h
  · rw [Function.update_of_ne hj]

end Components

/-- A transition system. `next s l` is the state after the step `l`, and `none`
where `l` cannot be taken in `s`. -/
structure System (σ : Type u) (ι : Type v) where
  /-- The state every run starts in. -/
  init : σ
  /-- The effect of one step. -/
  next : σ → ι → Option σ

namespace System

variable {σ : Type u} {ι : Type v} {S : System σ ι} {ok ok' : σ → ι → Prop} {s s' : σ}

/-- The states reached by the runs whose every step `l`, taken in `s`, meets `ok s l`. -/
inductive ReachableWhen (S : System σ ι) (ok : σ → ι → Prop) : σ → Prop
  /-- The empty run. -/
  | init : ReachableWhen S ok S.init
  /-- One more step. -/
  | step {s s' : σ} {l : ι} :
      ReachableWhen S ok s → ok s l → S.next s l = some s' → ReachableWhen S ok s'

/-- The states reached by any run. -/
abbrev Reachable (S : System σ ι) : σ → Prop := ReachableWhen S fun _ _ => True

theorem Reachable.step {l : ι} (h : S.Reachable s) (hs : S.next s l = some s') :
    S.Reachable s' := ReachableWhen.step h trivial hs

/-- **The invariant rule.** What holds initially and is preserved by every guarded
step out of a reachable state holds of every state of the guarded runs. -/
theorem ReachableWhen.invariant {P : σ → Prop} (h0 : P S.init)
    (hstep : ∀ s l s', S.ReachableWhen ok s → P s → ok s l → S.next s l = some s' → P s')
    (h : S.ReachableWhen ok s) : P s := by
  induction h with
  | init => exact h0
  | step hr hok hs ih => exact hstep _ _ _ hr ih hok hs

/-- The invariant rule for runs of every kind. -/
theorem Reachable.invariant {P : σ → Prop} (h0 : P S.init)
    (hstep : ∀ s l s', P s → S.next s l = some s' → P s') (h : S.Reachable s) : P s :=
  ReachableWhen.invariant h0 (fun s l s' _ hp _ => hstep s l s' hp) h

/-- Weakening the side condition keeps every run. -/
theorem ReachableWhen.mono (hok : ∀ s l, ok s l → ok' s l) (h : S.ReachableWhen ok s) :
    S.ReachableWhen ok' s := by
  induction h with
  | init => exact .init
  | step _ hl hs ih => exact .step ih (hok _ _ hl) hs

/-- A state of the guarded runs is a reachable state. -/
theorem ReachableWhen.reachable (h : S.ReachableWhen ok s) : S.Reachable s :=
  h.mono fun _ _ _ => trivial

/-- Systems side by side stay in states of their guarded runs when one of them takes a step. -/
theorem ReachableWhen.update {κ : Type w} [DecidableEq κ] {T : κ → System σ ι} {x : κ → σ} {i : κ}
    {l : ι} (h : ∀ j, (T j).ReachableWhen ok (x j)) (hok : ok (x i) l)
    (hs : (T i).next (x i) l = some s') (j : κ) :
    (T j).ReachableWhen ok (Function.update x i s' j) :=
  (Function.forall_update_iff x fun j s => (T j).ReachableWhen ok s).mpr
    ⟨(h i).step hok hs, fun j _ => h j⟩ j

/-- `S` refines the abstract machine that starts in `k₀` and moves by `move`: in `R` the
initial state shows `k₀`, and every step makes at most one move. -/
structure Refines {κ : Type w} (S : System σ ι) (k₀ : κ) (move : κ → κ → Prop)
    (R : σ → κ → Prop) : Prop where
  init : R S.init k₀
  step : ∀ s l s' k, R s k → S.next s l = some s' → ∃ k', Relation.ReflGen move k k' ∧ R s' k'

/-- **Refinement of runs.** Every reachable state shows a state the abstract machine
reaches. -/
theorem Refines.reachable {κ : Type w} {k₀ : κ} {move : κ → κ → Prop} {R : σ → κ → Prop}
    (hr : S.Refines k₀ move R) (h : S.Reachable s) :
    ∃ k, Relation.ReflTransGen move k₀ k ∧ R s k := by
  refine Reachable.invariant (P := fun s => ∃ k, Relation.ReflTransGen move k₀ k ∧ R s k) ?_ ?_ h
  · exact ⟨k₀, .refl, hr.init⟩
  · rintro s l s' ⟨k, hk, hR⟩ hs
    obtain ⟨k', hk', hR'⟩ := hr.step s l s' k hR hs
    exact ⟨k', hk.trans hk'.to_reflTransGen, hR'⟩

section Recorded

variable {α : Type w} {event : σ → ι → Option α} {r : List α}

/-- The system `S` with a record of the events its steps show. -/
def recorded (S : System σ ι) (event : σ → ι → Option α) : System (σ × List α) ι where
  init := (S.init, [])
  next x l := (S.next x.1 l).map fun s' => (s', x.2 ++ (event x.1 l).toList)

/-- A recorded run is a run. -/
theorem Reachable.of_recorded {x : σ × List α} (h : (S.recorded event).Reachable x) :
    S.Reachable x.1 := by
  refine Reachable.invariant (P := fun x => S.Reachable x.1) .init ?_ h
  intro x l y hx hy
  rcases Option.map_eq_some_iff.mp hy with ⟨s', hs', rfl⟩
  exact Reachable.step hx hs'

/-- Every run can be recorded. -/
theorem Reachable.recorded (event : σ → ι → Option α) (h : S.Reachable s) :
    ∃ r, (S.recorded event).Reachable (s, r) := by
  refine Reachable.invariant (P := fun s => ∃ r, (S.recorded event).Reachable (s, r)) ?_ ?_ h
  · exact ⟨[], .init⟩
  · rintro s l s' ⟨r, hr⟩ hs
    refine ⟨r ++ (event s l).toList, Reachable.step (l := l) hr ?_⟩
    exact Option.map_eq_some_iff.mpr ⟨s', hs, rfl⟩

/-- **The invariant rule for recorded runs.** A step may use that its state is reachable. -/
theorem Reachable.recorded_invariant {P : σ → List α → Prop} (h0 : P S.init [])
    (hstep : ∀ s r l s', S.Reachable s → P s r → S.next s l = some s' →
      P s' (r ++ (event s l).toList)) {x : σ × List α} (h : (S.recorded event).Reachable x) :
    P x.1 x.2 := by
  refine ReachableWhen.invariant (P := fun x => P x.1 x.2) h0 ?_ h
  intro x l y hreach hx _ hy
  rcases Option.map_eq_some_iff.mp hy with ⟨s', hs', rfl⟩
  exact hstep x.1 x.2 l s' (Reachable.of_recorded hreach) hx hs'

end Recorded

/-- Run a list of labels in order. -/
def exec (S : System σ ι) : σ → List ι → Option σ
  | s, [] => some s
  | s, l :: ls => (S.next s l).bind fun s' => S.exec s' ls

@[simp] theorem exec_nil : S.exec s [] = some s := rfl

theorem exec_cons (l : ι) (ls : List ι) :
    S.exec s (l :: ls) = (S.next s l).bind fun s' => S.exec s' ls := rfl

theorem exec_append (ls ms : List ι) :
    S.exec s (ls ++ ms) = (S.exec s ls).bind fun s' => S.exec s' ms := by
  induction ls generalizing s with
  | nil => rfl
  | cons l ls ih =>
    rw [List.cons_append, exec_cons, exec_cons]
    cases S.next s l with
    | none => rfl
    | some s' => exact ih

/-- Run a list of labels, stopping at a step that misses the side condition. -/
def execWhen (S : System σ ι) (ok : σ → ι → Prop) [∀ s l, Decidable (ok s l)] :
    σ → List ι → Option σ
  | s, [] => some s
  | s, l :: ls => if ok s l then (S.next s l).bind fun s' => S.execWhen ok s' ls else none

/-- A guarded run that evaluates ends in a state of the guarded runs. -/
theorem ReachableWhen.execWhen [∀ s l, Decidable (ok s l)] {ls : List ι}
    (h : S.ReachableWhen ok s) (hs : S.execWhen ok s ls = some s') : S.ReachableWhen ok s' := by
  induction ls generalizing s with
  | nil =>
    obtain rfl : s = s' := by simpa [System.execWhen] using hs
    exact h
  | cons l ls ih =>
    by_cases hok : ok s l
    · simp only [System.execWhen, hok, if_true, Option.bind_eq_some_iff] at hs
      obtain ⟨t, ht, hs⟩ := hs
      exact ih (h.step hok ht) hs
    · simp [System.execWhen, hok] at hs

/-- A run that evaluates ends in a reachable state. -/
theorem Reachable.exec {ls : List ι} (h : S.Reachable s) (hs : S.exec s ls = some s') :
    S.Reachable s' := by
  induction ls generalizing s with
  | nil =>
    obtain rfl : s = s' := by simpa using hs
    exact h
  | cons l ls ih =>
    rw [exec_cons, Option.bind_eq_some_iff] at hs
    obtain ⟨t, ht, hs⟩ := hs
    exact ih (Reachable.step h ht) hs

/-- The state a list of labels leads to, when every label could be taken. -/
theorem reachable_get (S : System σ ι) (ls : List ι) (h : (S.exec S.init ls).isSome) :
    S.Reachable ((S.exec S.init ls).get h) :=
  Reachable.exec .init (Option.some_get h).symm

/-- The state a list of labels leads to, when every label could be taken under the
side condition. -/
theorem reachableWhen_get (S : System σ ι) (ok : σ → ι → Prop) [∀ s l, Decidable (ok s l)]
    (ls : List ι) (h : (S.execWhen ok S.init ls).isSome) :
    S.ReachableWhen ok ((S.execWhen ok S.init ls).get h) :=
  ReachableWhen.execWhen .init (Option.some_get h).symm

/-- Some list of labels leads from `s` to `s'`. -/
def Leads (S : System σ ι) (s s' : σ) : Prop := ∃ ls, S.exec s ls = some s'

theorem Leads.refl : S.Leads s s := ⟨[], rfl⟩

theorem Leads.single {l : ι} (h : S.next s l = some s') : S.Leads s s' :=
  ⟨[l], by simp [exec_cons, h]⟩

theorem Leads.trans {s'' : σ} (h : S.Leads s s') (h' : S.Leads s' s'') : S.Leads s s'' := by
  obtain ⟨ls, hls⟩ := h
  obtain ⟨ms, hms⟩ := h'
  exact ⟨ls ++ ms, by rw [exec_append, hls]; exact hms⟩

theorem Reachable.leads (h : S.Reachable s) (hs : S.Leads s s') : S.Reachable s' :=
  hs.elim fun _ hls => Reachable.exec h hls

/-- What every step preserves holds wherever a state leads. -/
theorem Leads.invariant {P : σ → Prop} (hstep : ∀ s l s', P s → S.next s l = some s' → P s')
    (h : S.Leads s s') (hp : P s) : P s' := by
  obtain ⟨ls, hls⟩ := h
  induction ls generalizing s with
  | nil =>
    obtain rfl : s = s' := by simpa using hls
    exact hp
  | cons l ls ih =>
    rw [exec_cons, Option.bind_eq_some_iff] at hls
    obtain ⟨t, ht, hls⟩ := hls
    exact ih (hstep _ _ _ hp ht) hls

/-- What a weakly fair run needs to get from `p` to `q`, in the state `s`: every step keeps
`p` or leads to `q`, every helpful step leads to `q`, and one can be taken. -/
structure Ensures (S : System σ ι) (help : ι → Prop) (p q : σ → Prop) (s : σ) : Prop where
  keeps : p s → ∀ l t, S.next s l = some t → p t ∨ q t
  answers : p s → ∀ l t, help l → S.next s l = some t → q t
  enabled : p s → ∃ l t, help l ∧ S.next s l = some t

end System
end Transition
