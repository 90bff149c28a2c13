import Mathlib.Data.List.Basic

/-!
# Frames over a stuffed input

A stuffing code sends every input symbol to a non-empty word and wraps the words of a
message in a start and a stop symbol. A sender that emits the frame piece by piece
keeps track of how many input symbols it has emitted completely; `consumed` counts
them, and reaches the whole input exactly when only the stop symbol is left.

## Main definitions

* `Stuffing β` — the code.
* `Stuffing.frame` — the framed message.
* `Stuffing.consumed` — input symbols complete in the first `p` symbols of the frame.
-/

universe u

/-- A stuffing code over the alphabet `β`: the two delimiters and the word that stands
for each symbol. -/
structure Stuffing (β : Type u) where
  start : β
  stop : β
  word : β → List β
  word_ne_nil : ∀ b, word b ≠ []

namespace Stuffing

variable {β : Type u} (c : Stuffing β)

/-- The words of a message, one after the other. -/
def body (d : List β) : List β := d.flatMap c.word

/-- The framed message. -/
def frame (d : List β) : List β := c.start :: c.body d ++ [c.stop]

@[simp] theorem body_nil : c.body [] = [] := rfl

@[simp] theorem body_cons (b : β) (d : List β) : c.body (b :: d) = c.word b ++ c.body d := rfl

theorem length_frame (d : List β) : (c.frame d).length = (c.body d).length + 2 := by
  simp [frame]

/-- How many symbols of `d` have their words inside the first `n` symbols of the body. -/
def complete : List β → ℕ → ℕ
  | [], _ => 0
  | b :: d, n => if (c.word b).length ≤ n then complete d (n - (c.word b).length) + 1 else 0

/-- How many symbols of `d` are complete in the first `p` symbols of the frame, whose
first symbol is the delimiter. -/
def consumed (d : List β) (p : ℕ) : ℕ := c.complete d (p - 1)

theorem complete_eq_length {d : List β} {n : ℕ} (h : (c.body d).length ≤ n) :
    c.complete d n = d.length := by
  induction d generalizing n with
  | nil => rfl
  | cons b d ih =>
    rw [body_cons, List.length_append] at h
    rw [complete, if_pos (by omega), ih (by omega), List.length_cons]

theorem complete_lt_length {d : List β} {n : ℕ} (h : n < (c.body d).length) :
    c.complete d n < d.length := by
  induction d generalizing n with
  | nil => simp at h
  | cons b d ih =>
    rw [body_cons, List.length_append] at h
    rw [complete, List.length_cons]
    by_cases hb : (c.word b).length ≤ n
    · rw [if_pos hb]
      have := ih (n := n - (c.word b).length) (by omega)
      omega
    · rw [if_neg hb]
      omega

theorem complete_zero (d : List β) : c.complete d 0 = 0 := by
  cases d with
  | nil => rfl
  | cons b d =>
    have := List.length_pos_iff.mpr (c.word_ne_nil b)
    rw [complete, if_neg (by omega)]

end Stuffing
