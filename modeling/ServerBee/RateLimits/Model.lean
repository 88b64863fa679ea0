/-
The limiters per client address (`state.rs`, `router/api/status.rs`).

The limiters for logins and for registrations have a map each and one counter for their sweeps; the limiter of the public
status page has its own counter. Instants and durations are whole nanoseconds. A call reads the clock once, and once more
before that if it sweeps.
-/
import Mathlib.Tactic

namespace ServerBee.RateLimits

structure RateLimitEntry where
  count : ℕ
  windowStart : ℤ
deriving DecidableEq, Repr

variable {ι μ : Type} [DecidableEq ι] [DecidableEq μ]

abbrev RateLimitMap (ι : Type) := ι → Option RateLimitEntry

/-- `retain` the entries that began after the cutoff -/
def cleanupExpiredEntries (map : RateLimitMap ι) (cutoff : ℤ) : RateLimitMap ι :=
  fun ip => (map ip).filter fun entry => decide (entry.windowStart > cutoff)

/-- the entry of a client after a call, and whether the call is allowed -/
def checkEntry (window : ℤ) (max : ℕ) (now : ℤ) (found : Option RateLimitEntry) : RateLimitEntry × Bool :=
  let entry := found.getD ⟨0, now⟩
  if now - entry.windowStart > window then (⟨1, now⟩, true)
  else if entry.count ≥ max then (entry, false)
  else (⟨entry.count + 1, entry.windowStart⟩, true)

/-- one check, with the value of the sweep counter and the two readings of the clock -/
def check (window sweepAge : ℤ) (count : ℕ) (map : RateLimitMap ι) (ip : ι) (max : ℕ) (swept now : ℤ) :
    RateLimitMap ι × Bool :=
  let map := if count % 100 = 0 then cleanupExpiredEntries map (swept - sweepAge) else map
  let (entry, allowed) := checkEntry window max now (map ip)
  (Function.update map ip (some entry), allowed)

def second : ℤ := 1000000000

def checkRate (count : ℕ) (map : RateLimitMap ι) (ip : ι) (max : ℕ) (swept now : ℤ) : RateLimitMap ι × Bool :=
  check (15 * 60 * second) (15 * 60 * second) count map ip max swept now

def publicStatusWindow : ℤ := 60 * second

def publicStatusMaxRequests : ℕ := 60

def checkPublicRate (count : ℕ) (map : RateLimitMap ι) (ip : ι) (swept now : ℤ) : RateLimitMap ι × Bool :=
  check publicStatusWindow (publicStatusWindow * 2) count map ip publicStatusMaxRequests swept now

/-! ## Histories -/

/-- limiters with one sweep counter -/
structure Limiters (μ : Type) where
  window : ℤ
  sweepAge : ℤ
  max : μ → ℕ
  window_nonneg : 0 ≤ window
  window_le : window ≤ sweepAge

inductive AuthLimiter where
  | login
  | register
deriving DecidableEq, Repr

/-- the limiters of `check_rate` -/
def authLimiters (loginMax registerMax : ℕ) : Limiters AuthLimiter where
  window := 15 * 60 * second
  sweepAge := 15 * 60 * second
  max
    | .login => loginMax
    | .register => registerMax
  window_nonneg := by decide
  window_le := le_rfl

/-- the limiter of `check_public_rate` -/
def publicLimiter : Limiters Unit where
  window := publicStatusWindow
  sweepAge := publicStatusWindow * 2
  max _ := publicStatusMaxRequests
  window_nonneg := by decide
  window_le := by decide

structure Call (μ ι : Type) where
  limiter : μ
  ip : ι
  swept : ℤ
  now : ℤ

/-- the clock as it is read by the calls, in order -/
def readings (calls : List (Call μ ι)) : List ℤ := calls.flatMap fun c => [c.swept, c.now]

/-- the sweep counter is a `u64` that wraps -/
structure State (μ ι : Type) where
  counter : ℕ
  maps : μ → RateLimitMap ι

def State.empty (counter : ℕ) : State μ ι := ⟨counter, fun _ _ => none⟩

variable (limiters : Limiters μ)

def step (s : State μ ι) (c : Call μ ι) : State μ ι × Bool :=
  let (map, allowed) := check limiters.window limiters.sweepAge s.counter (s.maps c.limiter) c.ip (limiters.max c.limiter)
    c.swept c.now
  (⟨(s.counter + 1) % 2 ^ 64, Function.update s.maps c.limiter map⟩, allowed)

/-- the decisions of a limiter for a client -/
def decisions (limiter : μ) (ip : ι) : State μ ι → List (Call μ ι) → List Bool
  | _, [] => []
  | s, c :: calls =>
    let (s', allowed) := step limiters s c
    if c.limiter = limiter ∧ c.ip = ip then allowed :: decisions limiter ip s' calls else decisions limiter ip s' calls

/-- when a client calls a limiter -/
def times (limiter : μ) (ip : ι) (calls : List (Call μ ι)) : List ℤ :=
  (calls.filter fun c => decide (c.limiter = limiter ∧ c.ip = ip)).map Call.now

/-- a counter for one client, without sweeps -/
def alone (window : ℤ) (max : ℕ) : Option RateLimitEntry → List ℤ → List Bool
  | _, [] => []
  | found, now :: ts => (checkEntry window max now found).2 :: alone window max (some (checkEntry window max now found).1) ts

end ServerBee.RateLimits
