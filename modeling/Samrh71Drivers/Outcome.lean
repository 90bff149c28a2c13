import Mathlib.Data.Nat.Notation

/-!
# How a call of a driver function ends

A call returns, stops at a failed `assert`, or is still inside a loop when the number
of loop tests that was allowed for it is used up. The last case keeps the loops of the
source executable without assuming that they end; that they do is a theorem about each.
-/

namespace Samrh71Drivers

universe u v

/-- The end of a call that leaves a state of type `S`, where `A` names the assertions. -/
inductive Outcome (A : Type u) (S : Type v)
  /-- The call has returned. -/
  | returned (s : S)
  /-- The assertion `a` has failed in the state `s`. -/
  | asserted (a : A) (s : S)
  /-- The allowed number of loop tests is used up. -/
  | outOfFuel
  deriving DecidableEq, Repr

namespace Outcome

variable {A : Type u} {S : Type v}

/-- Go on with `k` where the call has returned. -/
def andThen (o : Outcome A S) (k : S → Outcome A S) : Outcome A S :=
  match o with
  | returned s => k s
  | asserted a s => asserted a s
  | outOfFuel => outOfFuel

@[simp] theorem andThen_returned (s : S) (k : S → Outcome A S) :
    (returned s : Outcome A S).andThen k = k s := rfl

@[simp] theorem andThen_asserted (a : A) (s : S) (k : S → Outcome A S) :
    (asserted a s).andThen k = asserted a s := rfl

@[simp] theorem andThen_outOfFuel (k : S → Outcome A S) :
    (outOfFuel : Outcome A S).andThen k = outOfFuel := rfl

/-- `assert(c)`, named `a`, in the state `s`. -/
def assert (a : A) (c : Bool) (s : S) : Outcome A S := if c then returned s else asserted a s

@[simp] theorem assert_true (a : A) (s : S) : assert a true s = returned s := rfl
@[simp] theorem assert_false (a : A) (s : S) : assert a false s = asserted a s := rfl

/-- A sequence returns where both its parts do. -/
theorem andThen_eq_returned {o : Outcome A S} {k : S → Outcome A S} {s : S} :
    o.andThen k = returned s ↔ ∃ s', o = returned s' ∧ k s' = returned s := by
  cases o <;> simp

/-- An assertion that holds lets the state through. -/
theorem assert_eq_returned {a : A} {c : Bool} {s s' : S} :
    assert a c s = returned s' ↔ c = true ∧ s' = s := by
  cases c <;> simp [eq_comm]

/-- The state in which the call has ended. -/
def final : Outcome A S → Option S
  | returned s | asserted _ s => some s
  | outOfFuel => none

@[simp] theorem final_returned (s : S) : (returned s : Outcome A S).final = some s := rfl
@[simp] theorem final_asserted (a : A) (s : S) : (asserted a s).final = some s := rfl

/-- An assertion leaves the state as it is, whether it holds or not. -/
@[simp] theorem final_assert (a : A) (c : Bool) (s : S) : (assert a c s).final = some s := by
  cases c <;> rfl

/-- A call goes on after an assertion that holds, and ends at one that fails. -/
theorem final_assert_andThen (a : A) (c : Bool) (s : S) (k : S → Outcome A S) :
    ((assert a c s).andThen k).final = if c then (k s).final else some s := by
  cases c <;> rfl

/-- The call ends with the assertion `a` failed. -/
def fails (a : A) : Outcome A S → Prop
  | asserted b _ => b = a
  | _ => False

@[simp] theorem fails_returned (a : A) (s : S) : ¬ fails a (returned s) := id
@[simp] theorem fails_outOfFuel (a : A) : ¬ fails a (outOfFuel : Outcome A S) := id
@[simp] theorem fails_asserted (a b : A) (s : S) : fails a (asserted b s) ↔ b = a := Iff.rfl

/-- An assertion fails with its own name only. -/
@[simp] theorem fails_assert (a b : A) (c : Bool) (s : S) :
    fails a (assert b c s) ↔ c = false ∧ b = a := by
  cases c <;> simp

/-- A sequence fails where its first part does, or where its rest does after a return. -/
theorem fails_andThen {a : A} {o : Outcome A S} {k : S → Outcome A S} :
    (o.andThen k).fails a ↔ o.fails a ∨ ∃ s, o = returned s ∧ (k s).fails a := by
  cases o <;> simp

end Outcome
end Samrh71Drivers
