/-
Messages that set registers.

A message names a register and a value; a receiver that handles messages in their order ends with `settle`. Only the order of
messages for one register matters: a message may overtake messages for other registers (`settle_move`).
-/
import Mathlib.Logic.Function.Basic
import Mathlib.Data.List.Basic

namespace ServerBee.Lib

variable {κ β : Type} [DecidableEq κ]

def settle (init : κ → β) (msgs : List (κ × β)) : κ → β := msgs.foldl (fun r m => Function.update r m.1 m.2) init

@[simp] theorem settle_nil (init : κ → β) : settle init [] = init := rfl

@[simp] theorem settle_cons (init : κ → β) (m : κ × β) (msgs : List (κ × β)) :
    settle init (m :: msgs) = settle (Function.update init m.1 m.2) msgs := rfl

theorem settle_append (init : κ → β) (msgs msgs' : List (κ × β)) :
    settle init (msgs ++ msgs') = settle (settle init msgs) msgs' := List.foldl_append

/-- a message overtakes messages for other registers -/
theorem settle_move (init : κ → β) (m : κ × β) (msgs msgs' : List (κ × β)) (h : ∀ m' ∈ msgs, m'.1 ≠ m.1) :
    settle init (msgs ++ m :: msgs') = settle init (m :: (msgs ++ msgs')) := by
  induction msgs generalizing init with
  | nil => rfl
  | cons m' msgs ih =>
    have hne := h m' List.mem_cons_self
    rw [List.cons_append, settle_cons, ih _ fun m'' hm => h m'' (List.mem_cons_of_mem _ hm), List.cons_append, settle_cons,
      settle_cons, settle_cons, Function.update_comm hne]

end ServerBee.Lib
