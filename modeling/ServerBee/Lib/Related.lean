/-
Two runs of computations that stop at their first error: they stop with the same error, or end in related values.
-/
import Mathlib.Init

namespace ServerBee.Lib

variable {ε α α' β β' : Type}

inductive Related (R : α → α' → Prop) : Except ε α → Except ε α' → Prop
  | ok {a : α} {a' : α'} (h : R a a') : Related R (.ok a) (.ok a')
  | error (e : ε) : Related R (.error e) (.error e)

@[simp] theorem related_ok {R : α → α' → Prop} {a : α} {a' : α'} : Related R (Except.ok a : Except ε α) (.ok a') ↔ R a a' := by
  constructor
  · intro h
    cases h
    assumption
  · exact Related.ok

theorem Related.refl {R : α → α → Prop} (h : ∀ a, R a a) (x : Except ε α) : Related R x x := by
  cases x with
  | error e => exact .error e
  | ok a => exact .ok (h a)

/-- sequences are related when the second parts are, on values that the first parts relate -/
theorem Related.bind {R : α → α' → Prop} {S : β → β' → Prop} {x : Except ε α} {x' : Except ε α'} {f : α → Except ε β}
    {f' : α' → Except ε β'} (h : Related R x x') (hf : ∀ a a', R a a' → Related S (f a) (f' a')) :
    Related S (x >>= f) (x' >>= f') := by
  cases h with
  | error e => exact .error e
  | ok h => exact hf _ _ h

/-- a second part behind the same check -/
theorem Related.andThen {R : α → α' → Prop} {x : Except ε Unit} {y : Except ε α} {y' : Except ε α'} (h : Related R y y') :
    Related R (x >>= fun _ => y) (x >>= fun _ => y') := by
  cases x with
  | error e => exact .error e
  | ok _ => exact h

end ServerBee.Lib
