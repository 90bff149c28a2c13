import Mathlib.Data.List.TakeDrop

/-!
# Byte ranges lent to a reader by reference

A device is handed a base address and a length, and reads the cells one at a time
while the program that lent them goes on. What the device delivers is what it finds
at the moment of each read, so a write in between shows unless it leaves every cell
that is still to be read as it was.

## Main definitions

* `Store ρ β` — cells of type `β`, addressed by a region and an offset.
* `Store.bytes` — the contents of a range.
* `Loan` — a lent range together with the number of cells already read.
* `Loan.unread` — what the reader would still find if nothing were written.
* `Loan.covers` — the cells that are still to be read.
-/

namespace Lending

universe u v

/-- Memory split into regions `ρ`, each a line of cells. -/
def Store (ρ : Type u) (β : Type v) := ρ → ℕ → β

namespace Store

variable {ρ : Type u} {β : Type v}

/-- The contents of `n` cells from offset `a` of region `r`. -/
def bytes (m : Store ρ β) (r : ρ) (a : ℕ) : ℕ → List β
  | 0 => []
  | n + 1 => m r a :: m.bytes r (a + 1) n

@[simp] theorem bytes_zero (m : Store ρ β) (r : ρ) (a : ℕ) : m.bytes r a 0 = [] := rfl

theorem bytes_succ (m : Store ρ β) (r : ρ) (a n : ℕ) :
    m.bytes r a (n + 1) = m r a :: m.bytes r (a + 1) n := rfl

@[simp] theorem length_bytes (m : Store ρ β) (r : ρ) (a n : ℕ) : (m.bytes r a n).length = n := by
  induction n generalizing a with
  | zero => rfl
  | succ n ih => simp [bytes_succ, ih]

/-- A range is its first cells followed by the others. -/
theorem bytes_add (m : Store ρ β) (r : ρ) (a n k : ℕ) :
    m.bytes r a (n + k) = m.bytes r a n ++ m.bytes r (a + n) k := by
  induction n generalizing a with
  | zero => simp
  | succ n ih =>
    rw [Nat.succ_add, bytes_succ, bytes_succ, ih, List.cons_append, Nat.add_right_comm,
      Nat.add_assoc]

/-- Two stores that agree on a range have the same contents there. -/
theorem bytes_congr {m m' : Store ρ β} {r : ρ} {a n : ℕ}
    (h : ∀ i, a ≤ i → i < a + n → m r i = m' r i) : m.bytes r a n = m'.bytes r a n := by
  induction n generalizing a with
  | zero => rfl
  | succ n ih =>
    rw [bytes_succ, bytes_succ, h a (Nat.le_refl a) (by omega),
      ih fun i hi hi' => h i (by omega) (by omega)]

variable [DecidableEq ρ]

/-- Write one cell. -/
def write (m : Store ρ β) (r : ρ) (a : ℕ) (v : β) : Store ρ β := fun r' a' =>
  if r' = r ∧ a' = a then v else m r' a'

theorem write_apply (m : Store ρ β) (r r' : ρ) (a a' : ℕ) (v : β) :
    m.write r a v r' a' = if r' = r ∧ a' = a then v else m r' a' := rfl

/-- A write that misses a range, or writes what is there, leaves its contents. -/
theorem bytes_write {m : Store ρ β} {r r' : ρ} {a a' n : ℕ} {v : β}
    (h : r' = r → a ≤ a' → a' < a + n → m r a' = v) :
    (m.write r' a' v).bytes r a n = m.bytes r a n := by
  refine bytes_congr fun i hi hi' => ?_
  rw [write_apply]
  by_cases hc : r = r' ∧ i = a'
  · obtain ⟨rfl, rfl⟩ := hc
    rw [if_pos ⟨rfl, rfl⟩, h rfl hi hi']
  · rw [if_neg hc]

/-- Write a list of cells from offset `a` of a region. -/
def copy (m : Store ρ β) (r : ρ) (a : ℕ) (bs : List β) : Store ρ β := fun r' i =>
  if r' = r ∧ a ≤ i then bs[i - a]?.getD (m r' i) else m r' i

theorem copy_apply (m : Store ρ β) (r r' : ρ) (a i : ℕ) (bs : List β) :
    m.copy r a bs r' i = if r' = r ∧ a ≤ i then bs[i - a]?.getD (m r' i) else m r' i := rfl

/-- A copy leaves the cells before it. -/
theorem bytes_copy_of_le {a a' n : ℕ} (m : Store ρ β) (r : ρ) (bs : List β) (h : a' + n ≤ a) :
    (m.copy r a bs).bytes r a' n = m.bytes r a' n := by
  refine bytes_congr fun i _ hi => ?_
  rw [copy_apply, if_neg fun hc => by omega]

private theorem bytes_copy_drop (m : Store ρ β) (r : ρ) (a : ℕ) (bs : List β) (n k : ℕ)
    (h : k + n = bs.length) : (m.copy r a bs).bytes r (a + k) n = bs.drop k := by
  induction n generalizing k with
  | zero => rw [bytes_zero, List.drop_eq_nil_of_le (by omega)]
  | succ n ih =>
    have hk : k < bs.length := by omega
    rw [bytes_succ, Nat.add_assoc, ih (k + 1) (by omega), copy_apply,
      if_pos ⟨rfl, Nat.le_add_right a k⟩, Nat.add_sub_cancel_left,
      List.getElem?_eq_getElem hk, Option.getD_some, List.cons_getElem_drop_succ]

/-- What has been copied is what is read back. -/
@[simp] theorem bytes_copy (m : Store ρ β) (r : ρ) (a : ℕ) (bs : List β) :
    (m.copy r a bs).bytes r a bs.length = bs := by
  simpa using bytes_copy_drop m r a bs bs.length 0 (by omega)

/-- Write a list of cells from offset `0` of a region. -/
def fill (m : Store ρ β) (r : ρ) (bs : List β) : Store ρ β := fun r' i =>
  if r' = r then bs[i]?.getD (m r' i) else m r' i

theorem fill_apply (m : Store ρ β) (r r' : ρ) (bs : List β) (i : ℕ) :
    m.fill r bs r' i = if r' = r then bs[i]?.getD (m r' i) else m r' i := rfl

theorem fill_eq_copy (m : Store ρ β) (r : ρ) (bs : List β) : m.fill r bs = m.copy r 0 bs := by
  funext r' i
  simp [fill_apply, copy_apply]

/-- What has been filled in is what is read back. -/
@[simp] theorem bytes_fill (m : Store ρ β) (r : ρ) (bs : List β) :
    (m.fill r bs).bytes r 0 bs.length = bs := by
  rw [fill_eq_copy, bytes_copy]

end Store

/-- A range of `length` cells lent by reference, of which the first `taken` have
been read. -/
structure Loan (ρ : Type u) where
  region : ρ
  offset : ℕ
  length : ℕ
  taken : ℕ

namespace Loan

variable {ρ : Type u} {β : Type v}

/-- What the reader would still find if nothing more were written. -/
def unread (l : Loan ρ) (m : Store ρ β) : List β :=
  m.bytes l.region (l.offset + l.taken) (l.length - l.taken)

/-- Read the next cell, if one is left. -/
def take (l : Loan ρ) (m : Store ρ β) : Option (β × Loan ρ) :=
  if l.taken < l.length then
    some (m l.region (l.offset + l.taken), { l with taken := l.taken + 1 })
  else none

/-- The cell at offset `a` of region `r` is still to be read. -/
def covers (l : Loan ρ) (r : ρ) (a : ℕ) : Prop :=
  r = l.region ∧ l.offset + l.taken ≤ a ∧ a < l.offset + l.length

instance [DecidableEq ρ] (l : Loan ρ) (r : ρ) (a : ℕ) : Decidable (l.covers r a) :=
  inferInstanceAs (Decidable (_ ∧ _))

/-- A fresh loan has its whole range to be read. -/
@[simp] theorem unread_fresh (r : ρ) (a n : ℕ) (m : Store ρ β) :
    (⟨r, a, n, 0⟩ : Loan ρ).unread m = m.bytes r a n := rfl

/-- Reading takes the head of what was unread. -/
theorem unread_of_take {l l' : Loan ρ} {m : Store ρ β} {b : β} (h : l.take m = some (b, l')) :
    l.unread m = b :: l'.unread m := by
  by_cases hl : l.taken < l.length
  · simp only [take, hl, if_true, Option.some.injEq, Prod.mk.injEq] at h
    obtain ⟨rfl, rfl⟩ := h
    obtain ⟨n, hn⟩ : ∃ n, l.length - l.taken = n + 1 := ⟨l.length - l.taken - 1, by omega⟩
    have hn' : l.length - (l.taken + 1) = n := by omega
    simp only [unread, hn, hn', Store.bytes_succ]
    rfl
  · simp [take, hl] at h

/-- A read does not move the range. -/
theorem region_of_take {l l' : Loan ρ} {m : Store ρ β} {b : β} (h : l.take m = some (b, l')) :
    l'.region = l.region := by
  by_cases hl : l.taken < l.length
  · simp only [take, hl, if_true, Option.some.injEq, Prod.mk.injEq] at h
    rw [← h.2]
  · simp [take, hl] at h

/-- A range that is read out has nothing left. -/
theorem unread_eq_nil {l : Loan ρ} (h : l.length ≤ l.taken) (m : Store ρ β) :
    l.unread m = [] := by
  rw [unread, Nat.sub_eq_zero_of_le h, Store.bytes_zero]

variable [DecidableEq ρ]

/-- **The frame rule for loans.** A write that leaves every cell still to be read as
it was leaves what the reader will find. -/
theorem unread_write {l : Loan ρ} {m : Store ρ β} {r : ρ} {a : ℕ} {v : β}
    (h : l.covers r a → m r a = v) : l.unread (m.write r a v) = l.unread m := by
  refine Store.bytes_write fun hr ha ha' => ?_
  subst hr
  exact h ⟨rfl, ha, by omega⟩

end Loan
end Lending
