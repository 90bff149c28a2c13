import Samrh71Drivers.Lib.Transition
import Mathlib.Data.List.Infix
import Mathlib.Data.List.Induction
import Mathlib.Algebra.BigOperators.Group.Finset.Piecewise
import Mathlib.Algebra.Order.BigOperators.Group.Finset

/-!
# Systems side by side and on a shared medium

Two ways to put systems together. In `prod` two systems run independently. In `medium` the
nodes of a family of systems share a medium: a step of a node may put a message on it, and
every other node takes the messages in the order in which they were put there, each at its
own pace, or misses one.

For both, a component of a run of the whole is a run of the component, so what has been
proved about one component alone holds of it in the whole. For the medium the run comes with
a record of what the node has sent and taken, and the record is what the log of the medium
says (`ReachableWhen.node`); and what the nodes keep to as long as the others do holds in
every run (`Reachable.medium_invariant`). Where the nodes put on the medium what their messages
stand for, the log shows an order of the messages (`exists_order`).

## Main definitions

* `System.prod` — two systems side by side.
* `Port` — which steps of a node send, and with which step it takes a message.
* `Medium`, `System.medium` — the nodes, the log of the medium, and the steps.
* `Port.event`, `sent`, `taken` — the record of one node.
* `View` — what the record has to do with the log.
* `posted`, `exists_order` — the order of the messages that the log of the medium shows.
-/

namespace Transition

universe u v u' v' w z y

/-- One summand changes. -/
theorem sum_update {κ : Type z} [DecidableEq κ] [Fintype κ] (f : κ → ℕ) (i : κ) (b : ℕ) :
    ∑ j, Function.update f i b j + f i = ∑ j, f j + b := by
  rw [Finset.sum_update_of_mem (Finset.mem_univ i), Finset.sdiff_singleton_eq_erase,
    ← Finset.add_sum_erase Finset.univ f (Finset.mem_univ i)]
  omega

namespace System

variable {σ : Type u} {ι : Type v} {S : System σ ι}

/-! ## Records of guarded runs -/

section Recorded

variable {α : Type w} {event : σ → ι → Option α} {ok : σ → ι → Prop} {s : σ}

/-- A recorded guarded run is a guarded run. -/
theorem ReachableWhen.of_recorded {x : σ × List α}
    (h : (S.recorded event).ReachableWhen (fun x l => ok x.1 l) x) : S.ReachableWhen ok x.1 := by
  refine ReachableWhen.invariant (P := fun x => S.ReachableWhen ok x.1) .init ?_ h
  intro x l y _ hx hok hy
  rcases Option.map_eq_some_iff.mp hy with ⟨s', hs', rfl⟩
  exact hx.step hok hs'

/-- **The invariant rule for recorded guarded runs.** -/
theorem ReachableWhen.recorded_invariant {P : σ → List α → Prop} (h0 : P S.init [])
    (hstep : ∀ s r l s', S.ReachableWhen ok s → P s r → ok s l → S.next s l = some s' →
      P s' (r ++ (event s l).toList)) {x : σ × List α}
    (h : (S.recorded event).ReachableWhen (fun x l => ok x.1 l) x) : P x.1 x.2 := by
  refine ReachableWhen.invariant (P := fun x => P x.1 x.2) h0 ?_ h
  intro x l y hreach hx hok hy
  rcases Option.map_eq_some_iff.mp hy with ⟨s', hs', rfl⟩
  exact hstep x.1 x.2 l s' hreach.of_recorded hx hok hs'

end Recorded

/-! ## Bounded runs -/

/-- **Runs of bounded length.** Where every step of a state with `k` ahead of it leaves less
than `k`, no run out of it is longer than `k`. -/
theorem exec_length_le {W : σ → ℕ → Prop}
    (hstep : ∀ s l s' k, W s k → S.next s l = some s' → ∃ k', W s' k' ∧ k' + 1 ≤ k)
    {s s' : σ} {ls : List ι} {k : ℕ} (hk : W s k) (hs : S.exec s ls = some s') :
    ls.length ≤ k := by
  induction ls generalizing s k with
  | nil => exact Nat.zero_le _
  | cons l ls ih =>
    rw [exec_cons, Option.bind_eq_some_iff] at hs
    obtain ⟨t, ht, hs⟩ := hs
    obtain ⟨k', hk', hle⟩ := hstep s l t k hk ht
    have hrest := ih hk' hs
    rw [List.length_cons]
    omega

/-! ## Two systems side by side -/

section Prod

variable {σ' : Type u'} {ι' : Type v'} {T : System σ' ι'}

/-- Two systems that run independently. -/
def prod (S : System σ ι) (T : System σ' ι') : System (σ × σ') (ι ⊕ ι') where
  init := (S.init, T.init)
  next x
    | .inl l => (S.next x.1 l).map fun s => (s, x.2)
    | .inr l => (T.next x.2 l).map fun t => (x.1, t)

variable {okS : σ → ι → Prop} {okT : σ' → ι' → Prop}

/-- The condition on a step of either of two systems. -/
def both (okS : σ → ι → Prop) (okT : σ' → ι' → Prop) (x : σ × σ') : ι ⊕ ι' → Prop
  | .inl l => okS x.1 l
  | .inr l => okT x.2 l

/-- The first component of a run is a run of the first system. -/
theorem ReachableWhen.fst {x : σ × σ'} (h : (S.prod T).ReachableWhen (both okS okT) x) :
    S.ReachableWhen okS x.1 := by
  refine ReachableWhen.invariant (P := fun x => S.ReachableWhen okS x.1) .init ?_ h
  rintro x (l | l) y _ hx hok hy
  · rcases Option.map_eq_some_iff.mp hy with ⟨s', hs', rfl⟩
    exact hx.step hok hs'
  · rcases Option.map_eq_some_iff.mp hy with ⟨t', -, rfl⟩
    exact hx

/-- The second component of a run is a run of the second system. -/
theorem ReachableWhen.snd {x : σ × σ'} (h : (S.prod T).ReachableWhen (both okS okT) x) :
    T.ReachableWhen okT x.2 := by
  refine ReachableWhen.invariant (P := fun x => T.ReachableWhen okT x.2) .init ?_ h
  rintro x (l | l) y _ hx hok hy
  · rcases Option.map_eq_some_iff.mp hy with ⟨s', -, rfl⟩
    exact hx
  · rcases Option.map_eq_some_iff.mp hy with ⟨t', ht', rfl⟩
    exact hx.step hok ht'

end Prod
end System

/-! ## A shared medium -/

/-- How a node is connected: the messages its steps put on the medium, and the step with
which it takes one. -/
structure Port (σ : Type u) (ι : Type v) (α : Type w) where
  /-- What a step puts on the medium. -/
  emits : σ → ι → Option α
  /-- The step that takes a message. -/
  takes : α → ι
  /-- The message a step takes. -/
  takenBy : ι → Option α
  takenBy_takes : ∀ a, takenBy (takes a) = some a
  emits_takes : ∀ s a, emits s (takes a) = none

/-- The nodes, the messages put on the medium with their senders, and how many messages of
the others each node has let pass. -/
structure Medium (κ : Type z) (σ : Type u) (α : Type w) where
  node : κ → σ
  log : List (κ × α)
  passed : κ → ℕ

/-- The steps on a medium. -/
inductive MediumLabel (κ : Type z) (ι : Type v)
  /-- A node makes a step of its own. -/
  | own (i : κ) (l : ι)
  /-- A node takes the next message. -/
  | take (i : κ)
  /-- A node misses the next message. -/
  | miss (i : κ)

section Medium

variable {κ : Type z} {σ : Type u} {ι : Type v} {α : Type w} [DecidableEq κ]

/-- The messages of the node `i`. -/
def sentBy (i : κ) (log : List (κ × α)) : List α := (log.filter fun e => e.1 = i).map Prod.snd

/-- The messages of the other nodes than `i`. -/
def others (i : κ) (log : List (κ × α)) : List α := (log.filter fun e => e.1 ≠ i).map Prod.snd

theorem sentBy_append (i : κ) (log more : List (κ × α)) :
    sentBy i (log ++ more) = sentBy i log ++ sentBy i more := by simp [sentBy]

theorem others_append (i : κ) (log more : List (κ × α)) :
    others i (log ++ more) = others i log ++ others i more := by simp [others]

/-- With two nodes, the others are the other one. -/
theorem others_eq_sentBy {i j : κ} (h : ∀ k, k ≠ i ↔ k = j) (log : List (κ × α)) :
    others i log = sentBy j log := by
  simp only [others, sentBy, h]

/-! ### A log of what the messages stand for -/

section Order

variable {μ : Type y} {program : κ → List μ} {g : κ → μ → Option α} {log : List (κ × α)}

/-- The log with the entries of `order` for their messages. -/
def posted (g : κ → μ → Option α) (order : List (κ × μ)) : List (κ × α) :=
  order.filterMap fun e => (g e.1 e.2).map (e.1, ·)

theorem sentBy_posted (g : κ → μ → Option α) (order : List (κ × μ)) (i : κ) :
    sentBy i (posted g order) = (sentBy i order).filterMap (g i) := by
  induction order with
  | nil => rfl
  | cons e order ih =>
    have hsplit : posted g (e :: order) = posted g [e] ++ posted g order := by
      rw [posted, ← List.singleton_append, List.filterMap_append]
      rfl
    have horder : sentBy i (e :: order) = sentBy i [e] ++ sentBy i order :=
      sentBy_append i [e] order
    rw [hsplit, horder, sentBy_append, ih, List.filterMap_append]
    congr 1
    by_cases hi : e.1 = i
    · subst hi
      cases hg : g e.1 e.2 <;> simp [posted, sentBy, hg]
    · cases hg : g e.1 e.2 <;> simp [posted, sentBy, hg, hi]

/-- **The order of the messages.** Where each node has put on the medium what a beginning of
its messages stand for, there is one order of these messages of which the log is the image. -/
theorem exists_order (hg : ∀ i, ∀ m ∈ program i, (g i m).isSome)
    (h : ∀ i, sentBy i log <+: (program i).filterMap (g i)) :
    ∃ order, (∀ i, sentBy i order <+: program i) ∧ posted g order = log := by
  induction log using List.reverseRecOn with
  | nil => exact ⟨[], fun i => List.nil_prefix, rfl⟩
  | append_singleton log e ih =>
    obtain ⟨i, a⟩ := e
    obtain ⟨order, horder, hlog⟩ := ih fun j => by
      refine List.IsPrefix.trans ?_ (h j)
      rw [sentBy_append]
      exact List.prefix_append _ _
    obtain ⟨rest, hrest⟩ := horder i
    -- the message of the new entry is the first one the node has left
    have hnext : [a] <+: rest.filterMap (g i) := by
      have hi := h i
      rw [sentBy_append, ← hlog, sentBy_posted, ← hrest, List.filterMap_append] at hi
      simpa [sentBy] using hi
    cases rest with
    | nil => simp at hnext
    | cons m rest =>
      obtain ⟨b, hb⟩ := Option.isSome_iff_exists.mp
        (hg i m (by rw [← hrest]; exact List.mem_append_right _ List.mem_cons_self))
      rw [List.filterMap_cons_some hb, List.cons_prefix_cons] at hnext
      rcases hnext with ⟨rfl, -⟩
      refine ⟨order ++ [(i, m)], fun j => ?_, ?_⟩
      · rw [sentBy_append]
        by_cases hij : i = j
        · subst hij
          refine ⟨rest, ?_⟩
          rw [← hrest]
          simp [sentBy]
        · simpa [sentBy, hij] using horder j
      · rw [posted, List.filterMap_append, ← posted, hlog]
        simp [hb]

/-- A node that has put all of its messages on the medium has all of them in the order. -/
theorem sentBy_order_eq {order : List (κ × μ)} {i : κ} {messages : List μ}
    (hg : ∀ m ∈ messages, (g i m).isSome) (horder : sentBy i order <+: messages)
    (hall : sentBy i (posted g order) = messages.filterMap (g i)) :
    sentBy i order = messages := by
  obtain ⟨rest, hrest⟩ := horder
  rw [sentBy_posted, ← hrest, List.filterMap_append] at hall
  have hnone : rest.filterMap (g i) = [] := by simpa using hall
  cases rest with
  | nil => rw [← hrest, List.append_nil]
  | cons m rest =>
    obtain ⟨a, ha⟩ := Option.isSome_iff_exists.mp
      (hg m (by rw [← hrest]; exact List.mem_append_right _ List.mem_cons_self))
    rw [List.filterMap_cons_some ha] at hnone
    cases hnone

/-- What the others than `i` have put on the medium, read as messages. -/
theorem others_posted {β : Type v'} {read : α → β} {f : κ × μ → β} (i : κ)
    {order : List (κ × μ)} (h : ∀ e ∈ order, (g e.1 e.2).map read = some (f e)) :
    (others i (posted g order)).map read = (order.filter fun e => e.1 ≠ i).map f := by
  induction order with
  | nil => rfl
  | cons e order ih =>
    have htail := ih fun e' he' => h e' (List.mem_cons_of_mem e he')
    obtain ⟨a, ha, hread⟩ := Option.map_eq_some_iff.mp (h e List.mem_cons_self)
    have hhead : posted g (e :: order) = (e.1, a) :: posted g order := by
      simp [posted, ha]
    rw [hhead]
    by_cases hi : e.1 = i
    · simpa [others, hi] using htail
    · simpa [others, hi, hread] using htail

end Order

/-- Some nodes on a medium. -/
def System.medium (S : κ → System σ ι) (P : Port σ ι α) :
    System (Medium κ σ α) (MediumLabel κ ι) where
  init := ⟨fun i => (S i).init, [], fun _ => 0⟩
  next x
    | .own i l =>
      if (P.takenBy l).isSome then none
      else ((S i).next (x.node i) l).map fun s => { x with
        node := Function.update x.node i s
        log := x.log ++ (P.emits (x.node i) l).toList.map (i, ·) }
    | .take i =>
      ((others i x.log)[x.passed i]?).bind fun a =>
        ((S i).next (x.node i) (P.takes a)).map fun s => { x with
          node := Function.update x.node i s
          passed := Function.update x.passed i (x.passed i + 1) }
    | .miss i =>
      ((others i x.log)[x.passed i]?).map fun _ => { x with
        passed := Function.update x.passed i (x.passed i + 1) }

/-- The condition on a step on the medium: the step of the node meets the node's condition,
and no message is missed. -/
def undisturbed (P : Port σ ι α) (ok : κ → σ → ι → Prop) (x : Medium κ σ α) :
    MediumLabel κ ι → Prop
  | .own i l => ok i (x.node i) l
  | .take i => ∀ a, (others i x.log)[x.passed i]? = some a → ok i (x.node i) (P.takes a)
  | .miss _ => False

instance (P : Port σ ι α) (ok : κ → σ → ι → Prop) [∀ i s l, Decidable (ok i s l)]
    (x : Medium κ σ α) : ∀ l, Decidable (undisturbed P ok x l)
  | .own i l => inferInstanceAs (Decidable (ok i (x.node i) l))
  | .take i => inferInstanceAs (Decidable
      (∀ a ∈ (others i x.log)[x.passed i]?, ok i (x.node i) (P.takes a)))
  | .miss _ => inferInstanceAs (Decidable False)

/-- What a step puts on the medium, or takes from it. -/
def Port.event (P : Port σ ι α) (s : σ) (l : ι) : Option (α ⊕ α) :=
  match P.takenBy l with
  | some a => some (.inr a)
  | none => (P.emits s l).map .inl

/-- The messages sent in a record. -/
def sent (r : List (α ⊕ α)) : List α := r.filterMap Sum.getLeft?

/-- The messages taken in a record. -/
def taken (r : List (α ⊕ α)) : List α := r.filterMap Sum.getRight?

@[simp] theorem sent_nil : sent ([] : List (α ⊕ α)) = [] := rfl
@[simp] theorem taken_nil : taken ([] : List (α ⊕ α)) = [] := rfl

theorem sent_append (r r' : List (α ⊕ α)) : sent (r ++ r') = sent r ++ sent r' :=
  List.filterMap_append

theorem taken_append (r r' : List (α ⊕ α)) : taken (r ++ r') = taken r ++ taken r' :=
  List.filterMap_append

variable {P : Port σ ι α} {s : σ} {l : ι}

/-- The event of a step that takes nothing is what it sends. -/
theorem Port.event_own (h : ¬ (P.takenBy l).isSome) :
    sent (P.event s l).toList = (P.emits s l).toList ∧ taken (P.event s l).toList = [] := by
  rw [Option.not_isSome_iff_eq_none] at h
  rw [Port.event, h]
  cases P.emits s l with
  | none => exact ⟨rfl, rfl⟩
  | some a => exact ⟨rfl, rfl⟩

/-- The event of the step that takes a message is that message. -/
theorem Port.event_takes (a : α) : P.event s (P.takes a) = some (.inr a) := by
  rw [Port.event, P.takenBy_takes]

/-- What a record of the node `i` has to do with the log, when the node has let `n` messages
of the others pass. -/
structure View (i : κ) (log : List (κ × α)) (n : ℕ) (r : List (α ⊕ α)) : Prop where
  sent_eq : sent r = sentBy i log
  taken_eq : taken r = (others i log).take n
  passed_le : n ≤ (others i log).length

namespace View

variable {i : κ} {log : List (κ × α)} {n : ℕ} {r : List (α ⊕ α)}

/-- Messages of another node leave what the node has sent and what it has let pass. -/
theorem foreign {j : κ} (h : View i log n r) (hij : i ≠ j) (more : List α) :
    View i (log ++ more.map (j, ·)) n r := by
  have hnone : sentBy i (more.map (j, ·)) = [] := by simp [sentBy, Ne.symm hij]
  constructor
  case sent_eq => rw [h.sent_eq, sentBy_append, hnone, List.append_nil]
  case taken_eq => rw [h.taken_eq, others_append, List.take_append_of_le_length h.passed_le]
  case passed_le =>
    rw [others_append, List.length_append]
    exact Nat.le_add_right_of_le h.passed_le

/-- A message the node sends itself is nothing it will take. -/
theorem own {more : List (α ⊕ α)} {a : Option α} (h : View i log n r)
    (hsent : sent more = a.toList) (htaken : taken more = []) :
    View i (log ++ a.toList.map (i, ·)) n (r ++ more) := by
  have hnone : others i (a.toList.map (i, ·)) = [] := by simp [others]
  have hall : sentBy i (a.toList.map (i, ·)) = a.toList := by cases a <;> simp [sentBy]
  constructor
  case sent_eq => rw [sent_append, hsent, h.sent_eq, sentBy_append, hall]
  case taken_eq =>
    rw [taken_append, htaken, List.append_nil, h.taken_eq, others_append, hnone, List.append_nil]
  case passed_le =>
    rw [others_append, hnone, List.append_nil]
    exact h.passed_le

/-- The message that is taken is the next one. -/
theorem take {a : α} (h : View i log n r) (ha : (others i log)[n]? = some a) :
    View i log (n + 1) (r ++ [.inr a]) := by
  obtain ⟨hlt, rfl⟩ := List.getElem?_eq_some_iff.mp ha
  constructor
  case sent_eq =>
    rw [sent_append, h.sent_eq]
    exact List.append_nil _
  case taken_eq =>
    rw [taken_append, h.taken_eq, List.take_succ_eq_append_getElem hlt]
    rfl
  case passed_le => exact hlt

end View

namespace System

variable {S : κ → System σ ι} {ok : κ → σ → ι → Prop} {x : Medium κ σ α}

/-- **A node on a medium.** Where no message is missed, the state of a node is one it reaches
on its own, by a run whose record is what the log of the medium says: what it has sent, and
the messages of the others, in order, up to where it is. -/
theorem ReachableWhen.node (h : (medium S P).ReachableWhen (undisturbed P ok) x) (i : κ) :
    ∃ r, ((S i).recorded P.event).ReachableWhen (fun y l => ok i y.1 l) (x.node i, r) ∧
      View i x.log (x.passed i) r := by
  refine ReachableWhen.invariant (P := fun x => ∃ r,
    ((S i).recorded P.event).ReachableWhen (fun y l => ok i y.1 l) (x.node i, r) ∧
      View i x.log (x.passed i) r) ?_ ?_ h
  · exact ⟨[], .init, rfl, rfl, Nat.le_refl 0⟩
  · rintro x (⟨j, l⟩ | j | j) y _ ⟨r, hr, hview⟩ hok hy
    · simp only [medium] at hy
      split at hy
      case isTrue => cases hy
      case isFalse hown =>
        rcases Option.map_eq_some_iff.mp hy with ⟨s', hs', rfl⟩
        by_cases hij : i = j
        · subst hij
          have hevent := Port.event_own (s := x.node i) hown
          refine ⟨r ++ (P.event (x.node i) l).toList, ?_, hview.own hevent.1 hevent.2⟩
          simp only [Function.update_self]
          exact hr.step hok (Option.map_eq_some_iff.mpr ⟨s', hs', rfl⟩)
        · refine ⟨r, ?_, hview.foreign hij _⟩
          simpa only [Function.update_of_ne hij] using hr
    · simp only [medium] at hy
      rcases Option.bind_eq_some_iff.mp hy with ⟨a, ha, hy⟩
      rcases Option.map_eq_some_iff.mp hy with ⟨s', hs', rfl⟩
      by_cases hij : i = j
      · subst hij
        simp only [Function.update_self]
        refine ⟨r ++ [.inr a], ?_, hview.take ha⟩
        refine hr.step (hok a ha) (Option.map_eq_some_iff.mpr ⟨s', hs', ?_⟩)
        rw [Port.event_takes]
        rfl
      · simp only [Function.update_of_ne hij]
        exact ⟨r, hr, hview⟩
    · exact hok.elim

/-- **Good messages.** What every node keeps to as long as the messages it takes are good, and
what it then sends, holds of all nodes and of the log, with messages missed or not. -/
theorem Reachable.medium_invariant {I : κ → σ → Prop} {Q : α → Prop}
    (hinit : ∀ i, I i (S i).init)
    (hown : ∀ i s l s', I i s → P.takenBy l = none → (S i).next s l = some s' →
      I i s' ∧ ∀ a, P.emits s l = some a → Q a)
    (htake : ∀ i s a s', I i s → Q a → (S i).next s (P.takes a) = some s' → I i s')
    (h : (medium S P).Reachable x) : (∀ i, I i (x.node i)) ∧ ∀ m ∈ x.log, Q m.2 := by
  refine Reachable.invariant (P := fun x : Medium κ σ α =>
    (∀ i, I i (x.node i)) ∧ ∀ m ∈ x.log, Q m.2) ⟨hinit, by simp [medium]⟩ ?_ h
  have hnodes : ∀ {x : Medium κ σ α} {i s'}, (∀ j, I j (x.node j)) → I i s' →
      ∀ j, I j (Function.update x.node i s' j) := fun hx hs' =>
    (Function.forall_update_iff _ fun j s => I j s).mpr ⟨hs', fun j _ => hx j⟩
  rintro x (⟨i, l⟩ | i | i) y ⟨hx, hlog⟩ hy
  · simp only [medium] at hy
    split at hy
    case isTrue => cases hy
    case isFalse hfree =>
      obtain ⟨s', hs', rfl⟩ := Option.map_eq_some_iff.mp hy
      obtain ⟨hs, hsent⟩ := hown i _ l s' (hx i) (Option.not_isSome_iff_eq_none.mp hfree) hs'
      refine ⟨hnodes hx hs, fun m hm => ?_⟩
      rcases List.mem_append.mp hm with hm | hm
      · exact hlog m hm
      · obtain ⟨a, ha, rfl⟩ := List.mem_map.mp hm
        exact hsent a (Option.mem_toList.mp ha)
  · simp only [medium] at hy
    obtain ⟨a, ha, hy⟩ := Option.bind_eq_some_iff.mp hy
    obtain ⟨s', hs', rfl⟩ := Option.map_eq_some_iff.mp hy
    -- the message that is taken is in the log
    obtain ⟨m, hm, rfl⟩ := List.mem_map.mp (List.mem_of_getElem? ha)
    have hgood := hlog m (List.mem_of_mem_filter hm)
    exact ⟨hnodes hx (htake i _ _ s' (hx i) hgood hs'), hlog⟩
  · simp only [medium] at hy
    obtain ⟨a, -, rfl⟩ := Option.map_eq_some_iff.mp hy
    exact ⟨hx, hlog⟩

end System

/-! ### Bounded runs -/

section Bounded

variable {S : κ → System σ ι} {W : κ → σ → ℕ → Prop} {a share : ℕ} {x y : Medium κ σ α}

/-- `W i s k` bounds by `k` what the node `i` has still ahead of it in `s`: every step of its
own uses up one, and `share` more for a message it puts on the medium; a message that is taken
brings `a`, less one for the step. -/
structure Potential (S : κ → System σ ι) (P : Port σ ι α) (W : κ → σ → ℕ → Prop)
    (a share : ℕ) : Prop where
  pos : 0 < a
  own : ∀ i s l s' k, P.takenBy l = none → W i s k → (S i).next s l = some s' →
    ∃ k', W i s' k' ∧ k' + (P.emits s l).toList.length * share + 1 ≤ k
  take : ∀ i s m s' k, W i s k → (S i).next s (P.takes m) = some s' →
    ∃ k', W i s' k' ∧ k' + 1 ≤ k + a

/-- The messages a node has still to take. -/
def Medium.pending (x : Medium κ σ α) (i : κ) : ℕ := (others i x.log).length - x.passed i

/-- What all the nodes have still ahead of them. -/
def Medium.ahead [Fintype κ] (a : ℕ) (k : κ → ℕ) (x : Medium κ σ α) : ℕ :=
  ∑ i, k i + a * ∑ i, x.pending i

variable [Fintype κ] {k : κ → ℕ}

/-- A node lets a message pass. -/
private theorem sum_pending_pass {i : κ} {b : α} (hb : (others i x.log)[x.passed i]? = some b)
    (hlog : y.log = x.log) (hpassed : y.passed = Function.update x.passed i (x.passed i + 1)) :
    ∑ j, y.pending j + 1 = ∑ j, x.pending j := by
  obtain ⟨hlt, -⟩ := List.getElem?_eq_some_iff.mp hb
  have hpending : y.pending = Function.update x.pending i (x.pending i - 1) := by
    funext j
    by_cases hij : j = i
    · subst hij
      rw [Function.update_self, Medium.pending, Medium.pending, hlog, hpassed,
        Function.update_self]
      omega
    · rw [Function.update_of_ne hij, Medium.pending, Medium.pending, hlog, hpassed,
        Function.update_of_ne hij]
  have hsum := sum_update x.pending i (x.pending i - 1)
  have hone : 1 ≤ x.pending i := by
    rw [Medium.pending]
    omega
  rw [hpending]
  omega

/-- Some messages are put on the medium. -/
private theorem sum_pending_send {more : List (κ × α)} (hlog : y.log = x.log ++ more)
    (hpassed : y.passed = x.passed) :
    ∑ j, y.pending j ≤ ∑ j, x.pending j + Fintype.card κ * more.length := by
  have hle : ∀ j ∈ Finset.univ, y.pending j ≤ x.pending j + more.length := by
    intro j _
    have hmore : (others j more).length ≤ more.length := by
      rw [others, List.length_map]
      exact List.length_filter_le _ _
    rw [Medium.pending, Medium.pending, hlog, hpassed, others_append, List.length_append]
    omega
  refine (Finset.sum_le_sum hle).trans (Nat.le_of_eq ?_)
  rw [Finset.sum_add_distrib, Finset.sum_const, Finset.card_univ, Nat.nsmul_eq_mul]

/-- **Every step uses up something.** -/
theorem Potential.step (hp : Potential S P W a (Fintype.card κ * a))
    (hk : ∀ i, W i (x.node i) (k i)) {l : MediumLabel κ ι}
    (hs : (System.medium S P).next x l = some y) :
    ∃ k', (∀ i, W i (y.node i) (k' i)) ∧ y.ahead a k' + 1 ≤ x.ahead a k := by
  have hnodes : ∀ {i : κ} {s' : σ} {b : ℕ}, W i s' b →
      ∀ j, W j (Function.update x.node i s' j) (Function.update k i b j) := by
    intro i s' b hb j
    by_cases hij : j = i
    · subst hij
      rwa [Function.update_self, Function.update_self]
    · rw [Function.update_of_ne hij, Function.update_of_ne hij]
      exact hk j
  cases l with
  | own i l =>
    simp only [System.medium] at hs
    split at hs
    case isTrue => cases hs
    case isFalse hown =>
      rw [Option.not_isSome_iff_eq_none] at hown
      obtain ⟨s', hs', rfl⟩ := Option.map_eq_some_iff.mp hs
      obtain ⟨b, hb, hle⟩ := hp.own i _ l s' _ hown (hk i) hs'
      refine ⟨Function.update k i b, hnodes hb, ?_⟩
      have hsum := sum_update k i b
      have hsend := sum_pending_send (x := x) (y := { x with
        node := Function.update x.node i s'
        log := x.log ++ (P.emits (x.node i) l).toList.map (i, ·) }) rfl rfl
      rw [List.length_map] at hsend
      have hshare : (P.emits (x.node i) l).toList.length * (Fintype.card κ * a) =
          a * (Fintype.card κ * (P.emits (x.node i) l).toList.length) := by
        rw [Nat.mul_comm, Nat.mul_comm (Fintype.card κ) a, Nat.mul_assoc]
      have hmul := Nat.mul_le_mul_left a hsend
      rw [Nat.mul_add] at hmul
      rw [hshare] at hle
      simp only [Medium.ahead]
      omega
  | take i =>
    simp only [System.medium] at hs
    obtain ⟨m, hm, hs⟩ := Option.bind_eq_some_iff.mp hs
    obtain ⟨s', hs', rfl⟩ := Option.map_eq_some_iff.mp hs
    obtain ⟨b, hb, hle⟩ := hp.take i _ m s' _ (hk i) hs'
    refine ⟨Function.update k i b, hnodes hb, ?_⟩
    have hsum := sum_update k i b
    have hpass := sum_pending_pass (x := x) (y := { x with
      node := Function.update x.node i s'
      passed := Function.update x.passed i (x.passed i + 1) }) hm rfl rfl
    simp only [Medium.ahead]
    rw [← hpass, Nat.mul_succ]
    omega
  | miss i =>
    simp only [System.medium] at hs
    obtain ⟨m, hm, rfl⟩ := Option.map_eq_some_iff.mp hs
    refine ⟨k, hk, ?_⟩
    have hpass := sum_pending_pass (x := x) (y := { x with
      passed := Function.update x.passed i (x.passed i + 1) }) hm rfl rfl
    have hpos := hp.pos
    simp only [Medium.ahead]
    rw [← hpass, Nat.mul_succ]
    omega

/-- **Runs are bounded.** No run is longer than what the nodes have ahead of them at the
beginning. -/
theorem Potential.bounded (hp : Potential S P W a (Fintype.card κ * a))
    (hk : ∀ i, W i (S i).init (k i)) {ls : List (MediumLabel κ ι)}
    (hls : (System.medium S P).exec (System.medium S P).init ls = some x) :
    ls.length ≤ ∑ i, k i := by
  have hbound : ls.length ≤ (System.medium S P).init.ahead a k := by
    refine System.exec_length_le
      (W := fun x n => ∃ k, (∀ i, W i (x.node i) (k i)) ∧ n = x.ahead a k) ?_ ⟨k, hk, rfl⟩ hls
    rintro x l y _ ⟨k, hk, rfl⟩ hs
    obtain ⟨k', hk', hle⟩ := hp.step hk hs
    exact ⟨_, ⟨k', hk', rfl⟩, hle⟩
  have hnone : ∀ i, (System.medium S P).init.pending i = 0 := fun _ => rfl
  simpa [Medium.ahead, hnone] using hbound

end Bounded

end Medium
end Transition
