/-
A watch channel with at most one receiver.

The channel keeps the last value and counts the values that were sent. A receiver remembers the count that it has seen, and is
woken while it differs (`unseen`). A value that is sent while there is no receiver is refused, and the channel keeps its old
one.
-/
import Mathlib.Tactic

namespace ServerBee.Lib

structure Watch (α : Type) where
  value : α
  version : ℕ
  /-- the version that the receiver has seen, if there is a receiver -/
  seen : Option ℕ
  seen_le : ∀ v, seen = some v → v ≤ version

namespace Watch

variable {α : Type}

def new (a : α) : Watch α := ⟨a, 0, none, fun _ h => nomatch h⟩

def send (w : Watch α) (a : α) : Watch α where
  value := if w.seen.isSome then a else w.value
  version := if w.seen.isSome then w.version + 1 else w.version
  seen := w.seen
  seen_le := by
    intro v hv
    have := w.seen_le v hv
    split_ifs <;> omega

/-- a new receiver has seen what is there -/
def subscribe (w : Watch α) : Watch α := ⟨w.value, w.version, some w.version, fun _ h => (Option.some.inj h).ge⟩

/-- the receiver reads the value -/
def borrowAndUpdate (w : Watch α) : Watch α where
  value := w.value
  version := w.version
  seen := w.seen.map fun _ => w.version
  seen_le := by
    intro v hv
    obtain ⟨-, -, rfl⟩ := Option.map_eq_some_iff.1 hv
    exact le_rfl

/-- the receiver has not seen the last value -/
def unseen (w : Watch α) : Bool := w.seen.any fun v => v != w.version

@[simp] theorem isSome_borrow (w : Watch α) : w.borrowAndUpdate.seen.isSome = w.seen.isSome := Option.isSome_map

@[simp] theorem isSome_send (w : Watch α) (a : α) : (w.send a).seen.isSome = w.seen.isSome := rfl

/-- a value that is sent is kept where there is a receiver, which has not seen it -/
theorem send_received {w : Watch α} (h : w.seen.isSome = true) (a : α) : (w.send a).value = a ∧ (w.send a).unseen = true := by
  obtain ⟨v, hv⟩ := Option.isSome_iff_exists.1 h
  have hle := w.seen_le v hv
  refine ⟨if_pos h, ?_⟩
  simp only [unseen, send, hv, Option.isSome_some, if_true, Option.any_some, bne_iff_ne]
  omega

end Watch

end ServerBee.Lib
