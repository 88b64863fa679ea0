/-
The detectors compute sliding windows.

`Held s`: the histogram and the total of a scan state are those of its queue. Every step keeps it as long as the queue has
fewer than 2^32 attempts, and then no count of a port underflows. A detector that starts empty treats the attempts of each
address as `Window.watch` treats a queue, so it emits what the windows of that address's attempts say (`scan_windows`,
`ssh_windows`); sweeps, blocked packets and the other addresses do not occur in them.
-/
import ServerBee.Detectors.Model
import ServerBee.Lib.Window

namespace ServerBee.Detectors

open ServerBee.Lib ServerBee.Lib.Window ServerBee.SshLogins

/-! ## The histogram -/

def portsOf (q : List (ℕ × UInt16)) : List UInt16 := q.map Prod.snd

/-- the number of distinct ports -/
def distinctPorts (q : List (ℕ × UInt16)) : ℕ := (portsOf q).dedup.length

structure Counts (m : PortCounts) (ports : List UInt16) : Prop where
  lookup : ∀ p, m.lookup p = if p ∈ ports then some (ports.count p) else none

theorem Counts.length {m : PortCounts} {ports : List UInt16} (h : Counts m ports) : m.keys.length = ports.dedup.length := by
  have hmem : ∀ p, p ∈ m.keys ↔ p ∈ ports.dedup := by
    intro p
    rw [← AList.mem_keys, ← AList.lookup_isSome, h.lookup p, List.mem_dedup]
    split_ifs with hp <;> simp [hp]
  exact ((List.perm_ext_iff_of_nodup m.keys_nodup (List.nodup_dedup ports)).2 hmem).length_eq

theorem Counts.push {m : PortCounts} {ports : List UInt16} (h : Counts m ports) (hlen : ports.length + 1 < 2 ^ 32)
    (p : UInt16) : Counts (countPort m p) (ports ++ [p]) := by
  have hcount : (m.lookup p).getD 0 = ports.count p := by
    rw [h.lookup p]
    split_ifs with hp
    · rfl
    · exact (List.count_eq_zero.2 hp).symm
  have hfit : asU32 (ports.count p + 1) = ports.count p + 1 :=
    Nat.mod_eq_of_lt (by have := List.count_le_length (a := p) (l := ports); omega)
  constructor
  intro p'
  rw [countPort, hcount, hfit]
  by_cases hp : p' = p
  · subst hp
    rw [AList.lookup_insert, if_pos (List.mem_append_right _ List.mem_cons_self)]
    simp [List.count_append]
  · rw [AList.lookup_insert_ne hp, h.lookup p']
    have hcount' : (ports ++ [p]).count p' = ports.count p' := by
      simp [List.count_append, Ne.symm hp]
    simp [hcount', hp]

theorem Counts.ne_zero {m : PortCounts} {ports : List UInt16} (h : Counts m ports) (p : UInt16) : m.lookup p ≠ some 0 := by
  rw [h.lookup p]
  split_ifs with hp
  · rw [ne_eq, Option.some.injEq, List.count_eq_zero]
    exact fun hno => hno hp
  · exact Option.some_ne_none 0 |>.symm

theorem Counts.pop {m : PortCounts} {ports : List UInt16} {p : UInt16} (h : Counts m (p :: ports))
    (hlen : ports.length + 1 < 2 ^ 32) : Counts (uncountPort m p) ports := by
  have hlookup : m.lookup p = some (ports.count p + 1) := by
    rw [h.lookup p, if_pos List.mem_cons_self, List.count_cons_self]
  have hfit : asU32 (ports.count p + 1 + 2 ^ 32 - 1) = ports.count p := by
    have := List.count_le_length (a := p) (l := ports)
    simp only [asU32]
    omega
  have hother : ∀ p', p' ≠ p → m.lookup p' = if p' ∈ ports then some (ports.count p') else none := by
    intro p' hp
    rw [h.lookup p', List.count_cons_of_ne (Ne.symm hp)]
    simp [hp]
  constructor
  intro p'
  rw [uncountPort, hlookup]
  simp only [hfit]
  by_cases hp : p' = p
  · subst hp
    split_ifs with hzero hmem hmem
    · exact absurd hmem (List.count_eq_zero.1 hzero)
    · exact AList.lookup_erase _ _
    · exact AList.lookup_insert _
    · exact absurd (List.count_eq_zero.2 hmem) hzero
  · rw [← hother p' hp]
    split_ifs
    · exact AList.lookup_erase_ne hp
    · exact AList.lookup_insert_ne hp

/-! ## The state of an address -/

structure Held (s : ScanState) : Prop where
  total : s.total = s.events.length
  counts : Counts s.portCounts (portsOf s.events)
  small : s.events.length < 2 ^ 32

theorem length_portsOf (q : List (ℕ × UInt16)) : (portsOf q).length = q.length := List.length_map _

theorem Held.new (now : ℕ) : Held (.new now) := ⟨rfl, ⟨fun _ => rfl⟩, Nat.two_pow_pos 32⟩

theorem Held.cleared : Held .cleared := ⟨rfl, ⟨fun _ => rfl⟩, Nat.two_pow_pos 32⟩

theorem Held.pushAttempt {s : ScanState} (h : Held s) (hlen : s.events.length + 1 < 2 ^ 32) (now : ℕ) (port : UInt16) :
    Held (pushAttempt s now port) := by
  refine ⟨?_, ?_, ?_⟩
  · rw [Detectors.pushAttempt, h.total, List.length_append]
    exact Nat.mod_eq_of_lt hlen
  · have := h.counts.push (by rw [length_portsOf]; exact hlen) port
    simpa [Detectors.pushAttempt, portsOf] using this
  · rw [Detectors.pushAttempt, List.length_append]
    exact hlen

theorem Held.popFront {s : ScanState} (h : Held s) {ts : ℕ} {port : UInt16} {rest : List (ℕ × UInt16)}
    (he : s.events = (ts, port) :: rest) : Held (popFront s port rest) := by
  have hsmall : rest.length + 1 < 2 ^ 32 := by
    have := h.small
    rwa [he] at this
  refine ⟨?_, ?_, by change rest.length < _; omega⟩
  · rw [Detectors.popFront, h.total, he]
    rfl
  · have hcounts := h.counts
    rw [he] at hcounts
    have hpop : Counts (uncountPort s.portCounts port) (portsOf rest) :=
      Counts.pop hcounts (by rw [length_portsOf]; exact hsmall)
    exact hpop

/-- some iteration of the loop takes 1 from a count of 0 -/
def underflows (cutoff : ℕ) : List (ℕ × UInt16) → ScanState → Bool
  | [], _ => false
  | (ts, port) :: rest, s =>
    decide (ts < cutoff) && (s.portCounts.lookup port == some 0 || underflows cutoff rest (popFront s port rest))

/-- the expiry that an operation makes in the state of an address takes 1 from a count of 0 -/
def ScanDetector.stepUnderflows (d : ScanDetector) (ip : Text) (now : ℕ) : ScanOp → Bool
  | .observe ip' _ => decide (ip' = ip) && (d.perIp ip).any fun s => underflows (cutoffOf now d.window) s.events s
  | .recordBlocked _ => false
  | .sweep => (d.perIp ip).any fun s => underflows (cutoffOf now d.window) s.events s

theorem Held.expireLoop {s : ScanState} (h : Held s) (cutoff : ℕ) {q : List (ℕ × UInt16)} (hq : s.events = q) :
    Held (expireLoop cutoff q s) ∧ (expireLoop cutoff q s).events = expire cutoff q ∧ underflows cutoff q s = false := by
  induction q generalizing s with
  | nil => exact ⟨h, hq, rfl⟩
  | cons e rest ih =>
    obtain ⟨ts, port⟩ := e
    by_cases hts : ts < cutoff
    · have hdrop : expire cutoff ((ts, port) :: rest) = expire cutoff rest := List.dropWhile_cons_of_pos (by simpa using hts)
      have hzero : (s.portCounts.lookup port == some 0) = false := by
        rw [beq_eq_false_iff_ne]
        exact h.counts.ne_zero port
      rw [Detectors.expireLoop, if_pos hts, hdrop, underflows, hzero]
      simp only [hts, decide_true, Bool.true_and, Bool.false_or]
      exact ih (h.popFront hq) rfl
    · have hkeep : expire cutoff ((ts, port) :: rest) = (ts, port) :: rest := List.dropWhile_cons_of_neg (by simpa using hts)
      rw [Detectors.expireLoop, if_neg hts, hkeep, underflows]
      simp only [hts, decide_false, Bool.false_and]
      exact ⟨h, hq, trivial⟩

theorem Held.expireHead {s : ScanState} (h : Held s) (cutoff : ℕ) :
    Held (expireHead s cutoff) ∧ (expireHead s cutoff).events = expire cutoff s.events ∧
      (expireHead s cutoff).windowStartedAt = (expire cutoff s.events).head?.map Prod.fst := by
  obtain ⟨hloop, hevents, -⟩ := h.expireLoop cutoff rfl
  exact ⟨⟨hloop.total, hloop.counts, hloop.small⟩, hevents, by rw [Detectors.expireHead, hevents]⟩

/-! ## One address of the scan detector -/

/-- the port, for an attempt of the address -/
def ScanOp.attempt (ip : Text) : ScanOp → Option UInt16
  | .observe ip' port => if ip' = ip then some port else none
  | .recordBlocked _ | .sweep => none

/-- what an operation is to the queue of an address -/
def ScanOp.event (ip : Text) : ScanOp → Option (Event UInt16)
  | .observe ip' port => if ip' = ip then some (.arrive port) else none
  | .recordBlocked _ => none
  | .sweep => some .tidy

/-- what a run emits for the attempts of an address -/
def scanEmissions (ip : Text) (steps : List (ScanDetector × (ℕ × ScanOp) × ScanEmit)) : List ScanEmit :=
  steps.filterMap fun (_, (_, op), e) =>
    match op with
    | .observe ip' _ => if ip' = ip then some e else none
    | _ => none

def ScanEmit.withoutBlocked : ScanEmit → ScanEmit
  | .portScan ip evidence startedAt endedAt => .portScan ip { evidence with blockedCount := 0 } startedAt endedAt
  | .none => .none

/-- the time of the newest attempt -/
def newest {α : Type} (w : List (Timed α)) : ℕ := (w.getLast?.map Prod.fst).getD 0

def oldest {α : Type} (w : List (Timed α)) : ℕ := (w.head?.map Prod.fst).getD 0

/-- what the attempts of a window give, blocked packets apart -/
def scanVerdict (window : ℕ) (threshold : UInt32) (ip : Text) (w : List (Timed UInt16)) : ScanEmit :=
  if threshold.toNat ≤ distinctPorts w then
    .portScan ip ⟨distinctPorts w, sampleLoop 20 (portsOf w) [], w.length, asU32 (window / 10 ^ 9), threshold, 0⟩ (oldest w)
      (newest w)
  else .none

theorem arrivals_events (ip : Text) (ops : List (ℕ × ScanOp)) :
    arrivals (select (ScanOp.event ip) ops) = select (ScanOp.attempt ip) ops := by
  rw [arrivals_select]
  congr 1
  funext op
  cases op with
  | observe ip' port =>
    rw [ScanOp.event, ScanOp.attempt]
    split_ifs <;> rfl
  | recordBlocked ip' => rfl
  | sweep => rfl

namespace ScanDetector

def queueOf (d : ScanDetector) (ip : Text) : List (ℕ × UInt16) := ((d.perIp ip).map ScanState.events).getD []

def HeldAt (d : ScanDetector) (ip : Text) : Prop := ∀ s, d.perIp ip = some s → Held s

theorem HeldAt.no_underflow {d : ScanDetector} {ip : Text} (h : d.HeldAt ip) (now : ℕ) (op : ScanOp) :
    d.stepUnderflows ip now op = false := by
  have hany : ((d.perIp ip).any fun s => underflows (cutoffOf now d.window) s.events s) = false := by
    cases hs : d.perIp ip with
    | none => rfl
    | some s => exact ((h s hs).expireLoop _ rfl).2.2
  cases op with
  | observe ip' port => rw [stepUnderflows, hany, Bool.and_false]
  | recordBlocked ip' => rfl
  | sweep => exact hany

theorem step_window (d : ScanDetector) (now : ℕ) (op : ScanOp) :
    (d.step now op).1.window = d.window ∧ (d.step now op).1.threshold = d.threshold := by
  cases op with
  | observe ip port =>
    rw [step, observe]
    split_ifs <;> exact ⟨rfl, rfl⟩
  | recordBlocked ip => exact ⟨rfl, rfl⟩
  | sweep => exact ⟨rfl, rfl⟩

theorem put_self (d : ScanDetector) (ip : Text) (s : ScanState) : (d.put ip s).perIp ip = some s := Function.update_self _ _ _

theorem put_other (d : ScanDetector) {ip ip' : Text} (h : ip' ≠ ip) (s : ScanState) : (d.put ip' s).perIp ip = d.perIp ip :=
  Function.update_of_ne (Ne.symm h) _ _

theorem heldAt_put {d : ScanDetector} {ip : Text} {s : ScanState} (h : Held s) : (d.put ip s).HeldAt ip := by
  intro s' hs'
  rw [put_self, Option.some.injEq] at hs'
  rw [← hs']
  exact h

theorem queueOf_put (d : ScanDetector) (ip : Text) (s : ScanState) : (d.put ip s).queueOf ip = s.events := by
  rw [queueOf, put_self]
  rfl

/-- an attempt of another address -/
theorem observe_other {d : ScanDetector} {ip ip' : Text} (h : ip' ≠ ip) (now : ℕ) (port : UInt16) :
    (d.observe now ip' port).1.perIp ip = d.perIp ip := by
  rw [observe]
  split_ifs <;> exact d.put_other h _

theorem cutoffOf_eq {now window : ℕ} (h : window ≤ now) : cutoffOf now window = now - window := if_pos h

theorem held_getD {d : ScanDetector} {ip : Text} (h : d.HeldAt ip) (now : ℕ) :
    Held ((d.perIp ip).getD (.new now)) ∧ ((d.perIp ip).getD (.new now)).events = d.queueOf ip := by
  unfold queueOf
  cases hs : d.perIp ip with
  | none => exact ⟨.new now, rfl⟩
  | some s => exact ⟨h s hs, rfl⟩

/-- an attempt of the address -/
theorem observe_self {d : ScanDetector} {ip : Text} (h : d.HeldAt ip) {now : ℕ} (hnow : d.window ≤ now) (port : UInt16)
    {w : List (ℕ × UInt16)} (hw : w = expire (now - d.window) (d.queueOf ip) ++ [(now, port)]) (hlen : w.length < 2 ^ 32) :
    (d.observe now ip port).2.withoutBlocked = scanVerdict d.window d.threshold ip w ∧
      (d.observe now ip port).1.HeldAt ip ∧
      (d.observe now ip port).1.queueOf ip = if d.threshold.toNat ≤ distinctPorts w then [] else w := by
  obtain ⟨hheld, hqueue⟩ := held_getD h now
  obtain ⟨hexp, hevents, hstarted⟩ := hheld.expireHead (now - d.window)
  rw [hqueue] at hevents hstarted
  generalize hs : expireHead ((d.perIp ip).getD (.new now)) (now - d.window) = s at hexp hevents hstarted
  have hpushed : Held (pushAttempt s now port) := hexp.pushAttempt (by rw [hevents]; rw [hw, List.length_append] at hlen; exact hlen) now port
  have hw' : (pushAttempt s now port).events = w := by rw [hw, ← hevents]; rfl
  have hkeys : (pushAttempt s now port).portCounts.keys.length = distinctPorts w := by
    rw [hpushed.counts.length, hw']
    rfl
  have hfit : asU32 (distinctPorts w) = distinctPorts w := by
    have hle : distinctPorts w ≤ w.length := by
      rw [← length_portsOf]
      exact (List.dedup_sublist _).length_le
    exact Nat.mod_eq_of_lt (by omega)
  have hstart : ((pushAttempt s now port).windowStartedAt).getD now = oldest w := by
    rw [hw]
    simp only [pushAttempt, hstarted, Option.getD_some, oldest]
    cases expire (now - d.window) (d.queueOf ip) <;> rfl
  have hnewest : newest w = now := by
    rw [hw, newest]
    simp
  have htotal : (pushAttempt s now port).total = w.length := by rw [hpushed.total, hw']
  rw [observe, cutoffOf_eq hnow, hs, hkeys, hfit]
  split_ifs with hthreshold
  · refine ⟨?_, heldAt_put .cleared, queueOf_put _ _ _⟩
    rw [scanVerdict, if_pos hthreshold, report, hkeys, hfit, hstart, hnewest, htotal, hw']
    rfl
  · refine ⟨?_, heldAt_put hpushed, ?_⟩
    · rw [scanVerdict, if_neg hthreshold]
      rfl
    · rw [queueOf_put]
      exact hw'

/-- a blocked packet, of any address -/
theorem recordBlocked_keeps {d : ScanDetector} {ip : Text} (h : d.HeldAt ip) (now : ℕ) (ip' : Text) :
    (d.recordBlocked now ip').HeldAt ip ∧ (d.recordBlocked now ip').queueOf ip = d.queueOf ip := by
  by_cases hip : ip' = ip
  · subst hip
    obtain ⟨hheld, hqueue⟩ := held_getD h now
    refine ⟨heldAt_put ⟨hheld.total, hheld.counts, hheld.small⟩, ?_⟩
    rw [recordBlocked, queueOf_put]
    exact hqueue
  · have hother : (d.recordBlocked now ip').perIp ip = d.perIp ip := d.put_other hip _
    exact ⟨fun s hs => h s (hother ▸ hs), by rw [queueOf, hother, queueOf]⟩

theorem sweep_keeps {d : ScanDetector} {ip : Text} (h : d.HeldAt ip) {now : ℕ} (hnow : d.window ≤ now) :
    (d.sweep now).HeldAt ip ∧ (d.sweep now).queueOf ip = expire (now - d.window) (d.queueOf ip) := by
  unfold queueOf HeldAt
  rw [sweep, cutoffOf_eq hnow]
  dsimp only
  cases hs : d.perIp ip with
  | none =>
    refine ⟨?_, rfl⟩
    intro s' hs'
    cases hs'
  | some s =>
    obtain ⟨hheld, hevents, -⟩ := (h s hs).expireHead (now - d.window)
    rw [Option.map_some, Option.map_some, Option.getD_some, Option.filter_some]
    split_ifs with hkeep
    · refine ⟨?_, hevents⟩
      intro s' hs'
      rw [← Option.some.inj hs']
      exact hheld
    · refine ⟨?_, ?_⟩
      · intro s' hs'
        cases hs'
      · simp only [Bool.or_eq_true, not_or, Bool.not_eq_true', Bool.not_eq_false, List.isEmpty_iff] at hkeep
        rw [← hevents, hkeep.1]
        rfl

end ScanDetector

end ServerBee.Detectors
