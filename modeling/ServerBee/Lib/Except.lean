/-
Computations that stop at their first error.
-/
import Mathlib.Init

namespace ServerBee.Lib

variable {ε α β : Type}

/-- a sequence succeeds when both of its parts do -/
theorem bind_ok {x : Except ε α} {f : α → Except ε β} {b : β} : (x >>= f) = .ok b ↔ ∃ a, x = .ok a ∧ f a = .ok b := by
  cases x with
  | error e =>
    constructor
    · nofun
    · rintro ⟨_, h, _⟩
      cases h
  | ok a =>
    constructor
    · intro h
      exact ⟨a, rfl, h⟩
    · rintro ⟨_, h, h'⟩
      cases h
      exact h'

end ServerBee.Lib
