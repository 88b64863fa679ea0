/-
Programs that read a state that others change, and send messages.

A script reads in several steps (`look` in memory, `query` by a statement that may fail) and sends. `forecast p v n` is the
last message that `p` will have sent to `n` if the state stays `v` and no statement fails. A step keeps the forecast, up to
what it sends (`forecast_step`). `Local R n p`: a change of the state that `R` allows does not change the forecast for `n`,
wherever `p` stands.
-/
import Mathlib.Tactic

namespace ServerBee.Lib

inductive Script (ν ι μ : Type) where
  | done
  | look (k : ν → Script ν ι μ)
  | query (k : ν → Script ν ι μ) (failed : Script ν ι μ)
  | send (n : ι) (m : μ) (k : Script ν ι μ)

namespace Script

variable {ν ι μ : Type}

/-- one step, with what it sends -/
def step (ok : Bool) (v : ν) : Script ν ι μ → Option (ι × μ) × Script ν ι μ
  | done => (none, done)
  | look k => (none, k v)
  | query k failed => (none, if ok then k v else failed)
  | send n m k => (some (n, m), k)

def isDone : Script ν ι μ → Bool
  | done => true
  | _ => false

/-- for each id, in order -/
def forEach (ids : List ι) (f : ι → Script ν ι μ → Script ν ι μ) : Script ν ι μ := ids.foldr f done

variable [DecidableEq ι]

def forecast : Script ν ι μ → ν → ι → Option μ
  | done, _, _ => none
  | look k, v, n => (k v).forecast v n
  | query k _, v, n => (k v).forecast v n
  | send n' m k, v, n => (k.forecast v n).or (if n' = n then some m else none)

/-- what a step sends to `n` -/
def sentTo (out : Option (ι × μ)) (n : ι) : Option μ := out.bind fun p => if p.1 = n then some p.2 else none

theorem forecast_step (p : Script ν ι μ) (v : ν) (n : ι) :
    p.forecast v n = ((p.step true v).2.forecast v n).or (sentTo (p.step true v).1 n) := by
  cases p with
  | done => rfl
  | look k => exact (Option.or_none ..).symm
  | query k failed => exact (Option.or_none ..).symm
  | send n' m k => rfl

theorem forecast_forEach {f : ι → Script ν ι μ → Script ν ι μ} (msg : ν → ι → μ)
    (hf : ∀ m k v n, (f m k).forecast v n = (k.forecast v n).or (if m = n then some (msg v n) else none))
    (ids : List ι) (v : ν) (n : ι) : (forEach ids f).forecast v n = if n ∈ ids then some (msg v n) else none := by
  induction ids with
  | nil => rfl
  | cons m ids ih =>
    have hcons : (forEach (m :: ids) f).forecast v n = (f m (forEach ids f)).forecast v n := rfl
    rw [hcons, hf, ih]
    by_cases hn : n ∈ ids
    · rw [if_pos hn, if_pos (List.mem_cons_of_mem m hn), Option.some_or]
    · rw [if_neg hn, Option.none_or]
      by_cases hm : m = n
      · rw [if_pos hm, if_pos (hm ▸ List.mem_cons_self)]
      · rw [if_neg hm, if_neg fun h => (List.mem_cons.1 h).elim (fun h => hm h.symm) hn]

/-! ## Messages -/

/-- all messages that `p` may send -/
def Sends (P : μ → Prop) : Script ν ι μ → Prop
  | done => True
  | look k => ∀ v, (k v).Sends P
  | query k failed => (∀ v, (k v).Sends P) ∧ failed.Sends P
  | send _ m k => P m ∧ k.Sends P

omit [DecidableEq ι] in
theorem Sends.step {P : μ → Prop} {p : Script ν ι μ} (h : p.Sends P) (ok : Bool) (v : ν) :
    (p.step ok v).2.Sends P ∧ ∀ n m, (p.step ok v).1 = some (n, m) → P m := by
  cases p with
  | done => exact ⟨trivial, fun n m hm => (by cases hm)⟩
  | look k => exact ⟨h v, fun n m hm => (by cases hm)⟩
  | query k failed =>
    refine ⟨?_, fun n m hm => (by cases hm)⟩
    cases ok with
    | true => exact h.1 v
    | false => exact h.2
  | send n' m' k =>
    refine ⟨h.2, fun n m hm => ?_⟩
    cases hm
    exact h.1

omit [DecidableEq ι] in
theorem sends_forEach {P : μ → Prop} {f : ι → Script ν ι μ → Script ν ι μ} (hf : ∀ m k, k.Sends P → (f m k).Sends P)
    (ids : List ι) : (forEach ids f).Sends P := by
  induction ids with
  | nil => trivial
  | cons m ids ih => exact hf m _ ih

/-! ## Locality -/

/-- as long as the states that it meets are related to themselves, what `p` will send to `n` depends only on what `R` keeps -/
def Local (R : ν → ν → Prop) (n : ι) : Script ν ι μ → Prop
  | done => True
  | look k => ∀ v, R v v → (k v).Local R n ∧ ∀ v', R v v' → (k v).forecast v n = (k v').forecast v' n
  | query k _ => ∀ v, R v v → (k v).Local R n ∧ ∀ v', R v v' → (k v).forecast v n = (k v').forecast v' n
  | send _ _ k => k.Local R n

variable {R : ν → ν → Prop} {n : ι}

theorem Local.forecast {p : Script ν ι μ} (h : p.Local R n) {v v' : ν} (hv : R v v) (hR : R v v') :
    p.forecast v n = p.forecast v' n := by
  induction p with
  | done => rfl
  | look k => exact (h v hv).2 v' hR
  | query k failed => exact (h v hv).2 v' hR
  | send n' m k ih =>
    show (k.forecast v n).or _ = (k.forecast v' n).or _
    rw [ih h]

theorem Local.step {p : Script ν ι μ} (h : p.Local R n) {v : ν} (hv : R v v) : (p.step true v).2.Local R n := by
  cases p with
  | done => trivial
  | look k => exact (h v hv).1
  | query k failed => exact (h v hv).1
  | send n' m k => exact h

theorem local_forEach {f : ι → Script ν ι μ → Script ν ι μ} (hf : ∀ m k, k.Local R n → (f m k).Local R n) (ids : List ι) :
    (forEach ids f).Local R n := by
  induction ids with
  | nil => trivial
  | cons m ids ih => exact hf m _ ih

end Script

end ServerBee.Lib
