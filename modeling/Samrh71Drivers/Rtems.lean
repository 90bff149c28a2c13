import Mathlib.Data.Nat.Notation

/-!
# RTEMS simple binary semaphores

The drivers use semaphores of the kind `RTEMS_SIMPLE_BINARY_SEMAPHORE`: one token or
none, no owner, and a release of an available semaphore succeeds and leaves its one
token. A task that finds no token stays blocked, which is a step that cannot be taken.
-/

namespace Samrh71Drivers

/-- A simple binary semaphore. -/
structure Semaphore where
  /-- The token is there. -/
  available : Bool
  deriving DecidableEq, Repr

namespace Semaphore

/-- `rtems_semaphore_create` with an initial value. -/
def create (initial : ℕ) : Semaphore := ⟨0 < initial⟩

/-- A successful `rtems_semaphore_obtain`; `none` while the caller is blocked. -/
def obtain (s : Semaphore) : Option Semaphore := if s.available then some ⟨false⟩ else none

/-- `rtems_semaphore_release`, which saturates at one token. -/
def release (_ : Semaphore) : Semaphore := ⟨true⟩

@[simp] theorem available_create (initial : ℕ) :
    (create initial).available = decide (0 < initial) := rfl

@[simp] theorem available_release (s : Semaphore) : s.release.available = true := rfl

/-- An obtain succeeds exactly when it finds the token, and then consumes it. -/
@[simp] theorem obtain_eq_some_iff {s s' : Semaphore} :
    s.obtain = some s' ↔ s.available = true ∧ s' = ⟨false⟩ := by
  cases h : s.available <;> simp [obtain, h, eq_comm]

end Semaphore
end Samrh71Drivers
