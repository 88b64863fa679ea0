/-
Transactional programs over a database, with failing statements, a moving clock and visible side effects.

A call runs against a session: the committed tables, the call's own transaction view, and counters of what it has
used of its environment so far. The environment is an oracle:
- `clock i` is the instant the i-th clock read returns (reads inside one call may differ);
- `fails i` says whether the i-th statement fails;
- `draw i` is the i-th value taken from the random source.
A statement that fails throws; nothing the view holds reaches the committed tables unless `commit` succeeds. Whatever
others can see while the call runs is its `trace`: the commits and the emitted side effects, in order. Side effects are
not undone by a rollback.

`Sat m env x ok err` is the program logic: run from a session that looks like `x`, `m` either returns `a` in a session
that satisfies `ok a`, or throws `e` with `err e committed trace`. A `Snap` shows of a session what specifications speak
about; how many statements have run and which random values were drawn stays hidden, so rules quantify over both. There
is one rule for each primitive, `Sat.bind` chains them, and a callee's specification is a rule of the same form.
-/
import Mathlib.Tactic

namespace ServerBee.Lib

/-- what one call gets from outside -/
structure Env where
  clock : ℕ → ℤ
  fails : ℕ → Bool
  draw : ℕ → String

/-- what others see of a call while it runs -/
inductive Visible (σ κ : Type) where
  | commit (db : σ)
  | emit (k : κ)
deriving DecidableEq, Repr

structure Session (σ κ : Type) where
  committed : σ
  view : σ
  reads : ℕ
  stmts : ℕ
  draws : ℕ
  trace : List (Visible σ κ)

def Txn (σ κ ε α : Type) : Type := Env → Session σ κ → Except ε α × Session σ κ

namespace Txn

variable {σ κ ε ε' α β : Type}

instance : Monad (Txn σ κ ε) where
  pure a := fun _ s => (.ok a, s)
  bind m f := fun env s =>
    match m env s with
    | (.ok a, s') => f a env s'
    | (.error e, s') => (.error e, s')

def throw (e : ε) : Txn σ κ ε α := fun _ s => (.error e, s)

/-- the value of an `Option`, or the error -/
def orThrow (e : ε) : Option α → Txn σ κ ε α
  | some a => pure a
  | none => throw e

/-- the value of an `Except`, its error converted -/
def lift (f : ε' → ε) : Except ε' α → Txn σ κ ε α
  | .ok a => pure a
  | .error e => throw (f e)

def now : Txn σ κ ε ℤ := fun env s => (.ok (env.clock s.reads), { s with reads := s.reads + 1 })

def draw : Txn σ κ ε String := fun env s => (.ok (env.draw s.draws), { s with draws := s.draws + 1 })

/-- a statement of the open transaction: `f` is `none` where the database refuses it -/
def stmt (e : ε) (f : σ → Option (α × σ)) : Txn σ κ ε α := fun env s =>
  if env.fails s.stmts then (.error e, { s with stmts := s.stmts + 1 })
  else
    match f s.view with
    | none => (.error e, { s with stmts := s.stmts + 1 })
    | some (a, v) => (.ok a, { s with stmts := s.stmts + 1, view := v })

/-- a read of the open transaction -/
def query (e : ε) (f : σ → α) : Txn σ κ ε α := stmt e fun v => some (f v, v)

/-- a read outside any transaction: it sees the committed tables -/
def queryCommitted (e : ε) (f : σ → α) : Txn σ κ ε α := fun env s =>
  if env.fails s.stmts then (.error e, { s with stmts := s.stmts + 1 })
  else (.ok (f s.committed), { s with stmts := s.stmts + 1 })

/-- open a transaction on the committed tables -/
def begin (e : ε) : Txn σ κ ε Unit := fun env s =>
  if env.fails s.stmts then (.error e, { s with stmts := s.stmts + 1 })
  else (.ok (), { s with stmts := s.stmts + 1, view := s.committed })

def commit (e : ε) : Txn σ κ ε Unit := fun env s =>
  if env.fails s.stmts then (.error e, { s with stmts := s.stmts + 1 })
  else (.ok (), { s with stmts := s.stmts + 1, committed := s.view, trace := s.trace ++ [.commit s.view] })

/-- a side effect outside the database -/
def emit (k : κ) : Txn σ κ ε Unit := fun _ s => (.ok (), { s with trace := s.trace ++ [.emit k] })

/-- a value computed from the transaction's view without touching the database connection -/
def modifyGet (f : σ → α × σ) : Txn σ κ ε α := fun _ s => (.ok (f s.view).1, { s with view := (f s.view).2 })

def forEach (f : α → Txn σ κ ε Unit) : List α → Txn σ κ ε Unit
  | [] => pure ()
  | a :: as => do
    f a
    forEach f as

/-- statements on a part of the tables, in the transaction that is open -/
def zoom {τ : Type} (get : τ → σ) (put : σ → τ → τ) (m : Txn σ κ ε α) : Txn τ κ ε α := fun env s =>
  let r := m env ⟨get s.committed, get s.view, s.reads, s.stmts, s.draws, []⟩
  (r.1, { s with view := put r.2.view s.view, reads := r.2.reads, stmts := r.2.stmts, draws := r.2.draws })

def start (db : σ) : Session σ κ := ⟨db, db, 0, 0, 0, []⟩

/-- a whole call: its result, the committed tables and what was visible on the way -/
def run (m : Txn σ κ ε α) (env : Env) (db : σ) : Except ε α × σ × List (Visible σ κ) :=
  ((m env (start db)).1, (m env (start db)).2.committed, (m env (start db)).2.trace)

/-! ## The program logic -/

/-- the part of a session that specifications speak about -/
structure Snap (σ κ : Type) where
  committed : σ
  view : σ
  reads : ℕ
  trace : List (Visible σ κ)

def snap (s : Session σ κ) : Snap σ κ := ⟨s.committed, s.view, s.reads, s.trace⟩

def Sat (m : Txn σ κ ε α) (env : Env) (x : Snap σ κ) (ok : α → Snap σ κ → Prop)
    (err : ε → σ → List (Visible σ κ) → Prop) : Prop :=
  ∀ s : Session σ κ, snap s = x →
    match m env s with
    | (.ok a, s') => ok a (snap s')
    | (.error e, s') => err e s'.committed s'.trace

variable {env : Env} {x : Snap σ κ} {ok : α → Snap σ κ → Prop} {err : ε → σ → List (Visible σ κ) → Prop}

theorem Sat.pure {a : α} (h : ok a x) : Sat (pure a : Txn σ κ ε α) env x ok err := by
  rintro s rfl
  exact h

theorem Sat.throw {e : ε} (h : err e x.committed x.trace) : Sat (throw e : Txn σ κ ε α) env x ok err := by
  rintro s rfl
  exact h

theorem Sat.bind {m : Txn σ κ ε β} {f : β → Txn σ κ ε α}
    (h : Sat m env x (fun b y => Sat (f b) env y ok err) err) : Sat (m >>= f) env x ok err := by
  intro s hs
  have hm := h s hs
  show match (match m env s with
    | (.ok a, s') => f a env s'
    | (.error e, s') => (.error e, s')) with
    | (.ok a, s') => ok a (snap s')
    | (.error e, s') => err e s'.committed s'.trace
  generalize m env s = r at hm ⊢
  obtain ⟨r, s'⟩ := r
  cases r with
  | ok b => exact hm s' rfl
  | error e => exact hm

/-- consequence -/
theorem Sat.mono {m : Txn σ κ ε α} {ok' : α → Snap σ κ → Prop} {err' : ε → σ → List (Visible σ κ) → Prop}
    (h : Sat m env x ok' err') (hok : ∀ a y, ok' a y → ok a y) (herr : ∀ e c t, err' e c t → err e c t) :
    Sat m env x ok err := by
  intro s hs
  have hm := h s hs
  generalize m env s = r at hm ⊢
  obtain ⟨r, s'⟩ := r
  cases r with
  | ok a => exact hok a _ hm
  | error e => exact herr e _ _ hm

/-- two specifications of one program -/
theorem Sat.and {m : Txn σ κ ε α} {ok' : α → Snap σ κ → Prop} {err' : ε → σ → List (Visible σ κ) → Prop}
    (h : Sat m env x ok err) (h' : Sat m env x ok' err') :
    Sat m env x (fun a y => ok a y ∧ ok' a y) (fun e c t => err e c t ∧ err' e c t) := by
  intro s hs
  have hm := h s hs
  have hm' := h' s hs
  generalize m env s = r at hm hm' ⊢
  obtain ⟨r, s'⟩ := r
  cases r with
  | ok a => exact ⟨hm, hm'⟩
  | error e => exact ⟨hm, hm'⟩

theorem Sat.orThrow {e : ε} {o : Option α} (h : ∀ a, o = some a → ok a x)
    (herr : err e x.committed x.trace) : Sat (orThrow e o) env x ok err := by
  cases o with
  | some a => exact Sat.pure (h a rfl)
  | none => exact Sat.throw herr

theorem Sat.lift {f : ε' → ε} {r : Except ε' α} (h : ∀ a, r = .ok a → ok a x)
    (herr : ∀ e, err (f e) x.committed x.trace) : Sat (lift f r) env x ok err := by
  cases r with
  | ok a => exact Sat.pure (h a rfl)
  | error e => exact Sat.throw (herr e)

theorem Sat.now {ok : ℤ → Snap σ κ → Prop} (h : ok (env.clock x.reads) { x with reads := x.reads + 1 }) :
    Sat (now : Txn σ κ ε ℤ) env x ok err := by
  rintro s rfl
  exact h

theorem Sat.draw {ok : String → Snap σ κ → Prop} (h : ∀ d, ok d x) : Sat (draw : Txn σ κ ε String) env x ok err := by
  rintro s rfl
  exact h _

theorem Sat.stmt {e : ε} {f : σ → Option (α × σ)} (h : ∀ a v, f x.view = some (a, v) → ok a { x with view := v })
    (herr : err e x.committed x.trace) : Sat (stmt e f) env x ok err := by
  rintro s rfl
  unfold Txn.stmt
  split_ifs
  · exact herr
  · show match (match f s.view with
      | none => (Except.error e, { s with stmts := s.stmts + 1 })
      | some (a, v) => (Except.ok a, { s with stmts := s.stmts + 1, view := v })) with
      | (.ok a, s') => ok a (snap s')
      | (.error e, s') => err e s'.committed s'.trace
    cases hf : f s.view with
    | none => exact herr
    | some p => exact h p.1 p.2 hf

theorem Sat.query {e : ε} {f : σ → α} (h : ok (f x.view) x) (herr : err e x.committed x.trace) :
    Sat (query e f) env x ok err := by
  refine Sat.stmt (fun a v hv => ?_) herr
  cases hv
  exact h

theorem Sat.queryCommitted {e : ε} {f : σ → α} (h : ok (f x.committed) x) (herr : err e x.committed x.trace) :
    Sat (queryCommitted e f) env x ok err := by
  rintro s rfl
  unfold Txn.queryCommitted
  split_ifs
  · exact herr
  · exact h

theorem Sat.begin {e : ε} {ok : Unit → Snap σ κ → Prop} (h : ok () { x with view := x.committed })
    (herr : err e x.committed x.trace) : Sat (begin e) env x ok err := by
  rintro s rfl
  unfold Txn.begin
  split_ifs
  · exact herr
  · exact h

theorem Sat.commit {e : ε} {ok : Unit → Snap σ κ → Prop}
    (h : ok () { x with committed := x.view, trace := x.trace ++ [.commit x.view] })
    (herr : err e x.committed x.trace) : Sat (commit e) env x ok err := by
  rintro s rfl
  unfold Txn.commit
  split_ifs
  · exact herr
  · exact h

theorem Sat.emit {k : κ} {ok : Unit → Snap σ κ → Prop} (h : ok () { x with trace := x.trace ++ [.emit k] }) :
    Sat (emit k : Txn σ κ ε Unit) env x ok err := by
  rintro s rfl
  exact h

theorem Sat.modifyGet {f : σ → α × σ} (h : ok (f x.view).1 { x with view := (f x.view).2 }) :
    Sat (modifyGet f : Txn σ κ ε α) env x ok err := by
  rintro s rfl
  exact h

theorem Sat.zoom {τ : Type} {get : τ → σ} {put : σ → τ → τ} {m : Txn σ κ ε α} {x : Snap τ κ}
    {ok : α → Snap τ κ → Prop} {err : ε → τ → List (Visible τ κ) → Prop}
    (h : Sat m env ⟨get x.committed, get x.view, x.reads, []⟩
      (fun a y => ok a { x with view := put y.view x.view, reads := y.reads }) (fun e _ _ => err e x.committed x.trace)) :
    Sat (zoom get put m) env x ok err := by
  rintro s rfl
  have hm := h ⟨get s.committed, get s.view, s.reads, s.stmts, s.draws, []⟩ rfl
  unfold Txn.zoom
  generalize m env ⟨get s.committed, get s.view, s.reads, s.stmts, s.draws, []⟩ = r at hm ⊢
  obtain ⟨r, s'⟩ := r
  cases r with
  | ok a => exact hm
  | error e => exact hm

/-- the loop rule: `inv` holds of the items still to do and the session reached -/
theorem Sat.forEach {f : α → Txn σ κ ε Unit} {ok : Unit → Snap σ κ → Prop} (inv : List α → Snap σ κ → Prop)
    (l : List α) (h0 : inv l x)
    (hstep : ∀ a as y, inv (a :: as) y → Sat (f a) env y (fun _ z => inv as z) err)
    (hdone : ∀ y, inv [] y → ok () y) : Sat (forEach f l) env x ok err := by
  induction l generalizing x with
  | nil => exact Sat.pure (hdone x h0)
  | cons a as ih => exact Sat.bind (Sat.mono (hstep a as x h0) (fun _ y h => ih h) fun _ _ _ h => h)

/-- what the logic says about a whole call -/
theorem Sat.run {m : Txn σ κ ε α} {db : σ} (h : Sat m env ⟨db, db, 0, []⟩ ok err) :
    (∃ a y, m.run env db = (.ok a, y.committed, y.trace) ∧ ok a y) ∨
      ∃ e c t, m.run env db = (.error e, c, t) ∧ err e c t := by
  have hm := h (start db) rfl
  unfold Txn.run
  generalize m env (start db) = r at hm ⊢
  obtain ⟨r, s'⟩ := r
  cases r with
  | ok a => exact Or.inl ⟨a, snap s', rfl, hm⟩
  | error e => exact Or.inr ⟨e, _, _, rfl, hm⟩

end Txn

end ServerBee.Lib
