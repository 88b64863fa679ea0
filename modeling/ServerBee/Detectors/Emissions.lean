/-
What whole runs of the detectors emit.

`detectors_exact`: in every run with a clock that does not go back, the emissions for an address are the verdicts on the
windows of that address's attempts. The brute-force detector needs nothing else. The scan detector needs windows of fewer
than 2^32 attempts, since its counters have 32 bits; `counters_wrap` is a run where they wrap.
-/
import ServerBee.Detectors.Windows

namespace ServerBee.Detectors

open ServerBee.Lib ServerBee.Lib.Window ServerBee.SshLogins

/-- a clock that does not go back, from which the window can be subtracted -/
structure Clock {ω : Type} (window : ℕ) (ops : List (ℕ × ω)) : Prop where
  forward : Ordered ops
  late : ∀ op ∈ ops, window ≤ op.1

theorem Clock.tail {ω : Type} {window : ℕ} {op : ℕ × ω} {ops : List (ℕ × ω)} (h : Clock window (op :: ops)) :
    Clock window ops :=
  ⟨(List.pairwise_cons.1 h.forward).2, fun op' hop' => h.late op' (List.mem_cons_of_mem _ hop')⟩

/-! ## Scans -/

theorem ScanDetector.run_watch {ip : Text} {d : ScanDetector} {window : ℕ} {threshold : UInt32} {ops : List (ℕ × ScanOp)}
    (hconfig : d.window = window ∧ d.threshold = threshold) (hd : d.HeldAt ip) (hlate : ∀ op ∈ ops, window ≤ op.1)
    (hfit : ∀ w ∈ watch window threshold.toNat distinctPorts (d.queueOf ip) (select (ScanOp.event ip) ops), w.length < 2 ^ 32) :
    (scanEmissions ip (d.run ops)).map ScanEmit.withoutBlocked =
        (watch window threshold.toNat distinctPorts (d.queueOf ip) (select (ScanOp.event ip) ops)).map (scanVerdict window threshold ip) ∧
      ∀ x ∈ d.run ops, x.1.HeldAt ip := by
  induction ops generalizing d with
  | nil => exact ⟨rfl, fun _ hx => absurd hx List.not_mem_nil⟩
  | cons op ops ih =>
    obtain ⟨now, op⟩ := op
    obtain ⟨rfl, rfl⟩ := hconfig
    have hnow : d.window ≤ now := hlate (now, op) List.mem_cons_self
    have htail : ∀ op ∈ ops, d.window ≤ op.1 := fun op hop => hlate op (List.mem_cons_of_mem _ hop)
    have hconfig' := d.step_window now op
    cases op with
    | recordBlocked ip' =>
      obtain ⟨hheld, hqueue⟩ := recordBlocked_keeps hd now ip'
      change ∀ w ∈ watch _ _ _ (d.queueOf ip) (select (ScanOp.event ip) ops), _ at hfit
      obtain ⟨hemit, hall⟩ := ih hconfig' hheld htail (by rw [step, hqueue]; exact hfit)
      rw [step, hqueue] at hemit
      exact ⟨hemit, List.forall_mem_cons.2 ⟨hd, hall⟩⟩
    | sweep =>
      obtain ⟨hheld, hqueue⟩ := sweep_keeps hd hnow
      change ∀ w ∈ watch _ _ _ (expire (now - d.window) (d.queueOf ip)) (select (ScanOp.event ip) ops), _ at hfit
      obtain ⟨hemit, hall⟩ := ih hconfig' hheld htail (by rw [step, hqueue]; exact hfit)
      rw [step, hqueue] at hemit
      exact ⟨hemit, List.forall_mem_cons.2 ⟨hd, hall⟩⟩
    | observe ip' port =>
      by_cases hip : ip' = ip
      · subst hip
        have hevents : select (ScanOp.event ip') ((now, .observe ip' port) :: ops) = (now, .arrive port) :: select (ScanOp.event ip') ops := by
          simp [select_cons, ScanOp.event]
        have hemissions : scanEmissions ip' (d.run ((now, .observe ip' port) :: ops)) =
            (d.observe now ip' port).2 :: scanEmissions ip' ((d.observe now ip' port).1.run ops) := by
          simp [scanEmissions, run, step]
        rw [hevents, watch] at hfit ⊢
        obtain ⟨hw, hrest⟩ := List.forall_mem_cons.1 hfit
        obtain ⟨hverdict, hheld, hqueue⟩ := observe_self hd hnow port rfl hw
        obtain ⟨hemit, hall⟩ := ih hconfig' hheld htail (by rw [step, hqueue]; exact hrest)
        rw [step, hqueue] at hemit
        refine ⟨?_, List.forall_mem_cons.2 ⟨hd, hall⟩⟩
        rw [hemissions, List.map_cons, List.map_cons, hverdict, hemit]
      · have hother := observe_other (d := d) hip now port
        have hheld : (d.observe now ip' port).1.HeldAt ip := fun s hs => hd s (hother ▸ hs)
        have hqueue : (d.observe now ip' port).1.queueOf ip = d.queueOf ip := by rw [queueOf, hother, queueOf]
        have hevents : select (ScanOp.event ip) ((now, .observe ip' port) :: ops) = select (ScanOp.event ip) ops := by
          simp [select_cons, ScanOp.event, hip]
        have hemissions : scanEmissions ip (d.run ((now, .observe ip' port) :: ops)) =
            scanEmissions ip ((d.observe now ip' port).1.run ops) := by
          simp [scanEmissions, run, step, hip]
        rw [hevents] at hfit ⊢
        obtain ⟨hemit, hall⟩ := ih hconfig' hheld htail (by rw [step, hqueue]; exact hfit)
        rw [step, hqueue] at hemit
        refine ⟨?_, List.forall_mem_cons.2 ⟨hd, hall⟩⟩
        rw [hemissions, hemit]

/-- the windows of an address: at each attempt, the attempts since the last emission that are not older than the window -/
def scanWindows (window : ℕ) (threshold : UInt32) (ip : Text) (ops : List (ℕ × ScanOp)) : List (List (Timed UInt16)) :=
  windows window threshold.toNat distinctPorts [] (select (ScanOp.attempt ip) ops)

/-- the emissions for an address are the verdicts on its windows, and no count of its ports underflows -/
structure ScanExact (window : ℕ) (threshold : UInt32) (ip : Text) (ops : List (ℕ × ScanOp)) : Prop where
  emissions : (scanEmissions ip ((ScanDetector.new window threshold).run ops)).map ScanEmit.withoutBlocked =
    (scanWindows window threshold ip ops).map (scanVerdict window threshold ip)
  counts : ∀ x ∈ (ScanDetector.new window threshold).run ops, x.1.stepUnderflows ip x.2.1.1 x.2.1.2 = false

theorem scan_windows {window : ℕ} {threshold : UInt32} {ip : Text} {ops : List (ℕ × ScanOp)} (hclock : Clock window ops)
    (hfit : ∀ w ∈ scanWindows window threshold ip ops, w.length < 2 ^ 32) : ScanExact window threshold ip ops := by
  have hwatch : watch window threshold.toNat distinctPorts [] (select (ScanOp.event ip) ops) =
      scanWindows window threshold ip ops := by
    rw [watch_eq_windows _ _ _ (hclock.forward.select _), arrivals_events, scanWindows]
  have hempty : (ScanDetector.new window threshold).HeldAt ip := fun _ hs => nomatch hs
  obtain ⟨hemit, hall⟩ := ScanDetector.run_watch ⟨rfl, rfl⟩ hempty hclock.late (by rw [← hwatch] at hfit; exact hfit)
  refine ⟨?_, fun x hx => (hall x hx).no_underflow _ _⟩
  rw [hemit, ← hwatch]
  rfl

/-! ## Brute force -/

def isFailure (a : AuthAttempt) : Bool :=
  match a.outcome with
  | .success _ => false
  | .failure _ => true

/-- the attempt, for a failure of the address -/
def SshOp.failure (ip : Text) : SshOp → Option AuthAttempt
  | .observe a => if isFailure a ∧ a.sourceIp = ip then some a else none
  | .sweep => none

/-- what an operation is to the queue of an address -/
def SshOp.event (ip : Text) : SshOp → Option (Event AuthAttempt)
  | .observe a => if isFailure a ∧ a.sourceIp = ip then some (.arrive a) else none
  | .sweep => some .tidy

theorem arrivals_failures (ip : Text) (ops : List (ℕ × SshOp)) :
    arrivals (select (SshOp.event ip) ops) = select (SshOp.failure ip) ops := by
  rw [arrivals_select]
  congr 1
  funext op
  cases op with
  | observe a =>
    rw [SshOp.event, SshOp.failure]
    split_ifs <;> rfl
  | sweep => rfl

/-- what a run emits for the failures of an address -/
def sshEmissions (ip : Text) (steps : List (SshDetector × (ℕ × SshOp) × DetectorEmit)) : List DetectorEmit :=
  steps.filterMap fun (_, (_, op), e) =>
    match op with
    | .observe a => if isFailure a ∧ a.sourceIp = ip then some e else none
    | .sweep => none

def sshVerdict (window : ℕ) (threshold : UInt32) (ip : Text) (w : List (Timed AuthAttempt)) : DetectorEmit :=
  let users := w.map fun e => e.2.username
  if threshold.toNat ≤ w.length then
    .bruteForce ip (severityOf users.dedup.length) ⟨w.length, users.dedup.length, sampleLoop 5 users [],
      w.countP fun e => isInvalidUser e.2, asU32 (window / 10 ^ 9), threshold⟩ (oldest w) (newest w)
  else .none

theorem expireQueue_eq {α : Type} (cutoff : ℕ) (q : List (ℕ × α)) : expireQueue cutoff q = expire cutoff q := by
  induction q with
  | nil => rfl
  | cons e q ih =>
    obtain ⟨ts, a⟩ := e
    rw [expireQueue, expire, List.dropWhile_cons]
    simp only [decide_eq_true_eq]
    split_ifs
    · exact ih
    · rfl

namespace SshDetector

def queueOf (d : SshDetector) (ip : Text) : List (ℕ × AuthAttempt) := (d.perIp ip).getD []

theorem observe_success {d : SshDetector} {a : AuthAttempt} (h : isFailure a = false) (now : ℕ) : (d.observe now a).1 = d := by
  rw [observe]
  cases ho : a.outcome with
  | success m => rfl
  | failure flag =>
    rw [isFailure, ho] at h
    cases h

theorem observe_failure {d : SshDetector} {a : AuthAttempt} (h : isFailure a = true) (now : ℕ) :
    d.observe now a = d.observeFailure now a := by
  rw [observe]
  cases ho : a.outcome with
  | success m =>
    rw [isFailure, ho] at h
    cases h
  | failure flag => rfl

theorem observeFailure_other {d : SshDetector} {a : AuthAttempt} {ip : Text} (h : a.sourceIp ≠ ip) (now : ℕ) :
    (d.observeFailure now a).1.queueOf ip = d.queueOf ip := by
  rw [observeFailure, queueOf, queueOf]
  split_ifs
  · exact congrArg (Option.getD · []) (Function.update_of_ne (Ne.symm h) _ _)
  · exact congrArg (Option.getD · []) (Function.update_of_ne (Ne.symm h) _ _)

/-- a failure of the address, while the queue is short of 32 bits -/
theorem observeFailure_self {d : SshDetector} {a : AuthAttempt} {now : ℕ} (hnow : d.window ≤ now)
    {w : List (ℕ × AuthAttempt)} (hw : w = expire (now - d.window) (d.queueOf a.sourceIp) ++ [(now, a)])
    (hlen : w.length < 2 ^ 32) :
    (d.observeFailure now a).2 = sshVerdict d.window d.threshold a.sourceIp w ∧
      (d.observeFailure now a).1.queueOf a.sourceIp = if d.threshold.toNat ≤ w.length then [] else w := by
  have hentry : expireQueue (cutoffOf now d.window) ((d.perIp a.sourceIp).getD []) ++ [(now, a)] = w := by
    rw [hw, expireQueue_eq, ScanDetector.cutoffOf_eq hnow, queueOf]
  have hfit : ∀ {n}, n ≤ w.length → asU32 n = n := fun h => Nat.mod_eq_of_lt (by omega)
  have husers : (w.map fun e => e.2.username).dedup.length ≤ w.length := by
    have := (List.dedup_sublist (w.map fun e => e.2.username)).length_le
    rwa [List.length_map] at this
  have hstart : (w.head?.map Prod.fst).getD now = oldest w := by
    rw [hw, oldest]
    cases expire (now - d.window) (d.queueOf a.sourceIp) <;> rfl
  have hnewest : newest w = now := by
    rw [hw, newest]
    simp
  rw [observeFailure, hentry, hfit le_rfl, sshVerdict]
  split_ifs
  · refine ⟨?_, ?_⟩
    · rw [report, hfit le_rfl, hfit husers, hfit List.countP_le_length, hstart, hnewest]
    · rw [queueOf]
      exact congrArg (Option.getD · []) (Function.update_self a.sourceIp (some []) d.perIp)
  · refine ⟨rfl, ?_⟩
    rw [queueOf]
    exact congrArg (Option.getD · []) (Function.update_self a.sourceIp (some w) d.perIp)

theorem sweep_queue {d : SshDetector} {now : ℕ} (hnow : d.window ≤ now) (ip : Text) :
    (d.sweep now).queueOf ip = expire (now - d.window) (d.queueOf ip) := by
  rw [queueOf, sweep, queueOf, ScanDetector.cutoffOf_eq hnow]
  dsimp only
  cases d.perIp ip with
  | none => rfl
  | some q =>
    rw [Option.map_some, Option.filter_some, expireQueue_eq, Option.getD_some]
    split_ifs with hkeep
    · rfl
    · rw [Bool.not_eq_true', Bool.not_eq_false, List.isEmpty_iff] at hkeep
      rw [hkeep]
      rfl

theorem step_window (d : SshDetector) (now : ℕ) (op : SshOp) :
    (d.step now op).1.window = d.window ∧ (d.step now op).1.threshold = d.threshold := by
  cases op with
  | sweep => exact ⟨rfl, rfl⟩
  | observe a =>
    rw [step]
    cases h : isFailure a with
    | false => rw [observe_success h]; exact ⟨rfl, rfl⟩
    | true =>
      rw [observe_failure h, observeFailure]
      split_ifs <;> exact ⟨rfl, rfl⟩

/-- a queue is shorter than the threshold, or empty -/
def Short (d : SshDetector) (ip : Text) : Prop := (d.queueOf ip).length < 2 ^ 32 - 1

theorem run_watch {ip : Text} {d : SshDetector} {window : ℕ} {threshold : UInt32} {ops : List (ℕ × SshOp)}
    (hconfig : d.window = window ∧ d.threshold = threshold) (hd : d.Short ip) (hlate : ∀ op ∈ ops, window ≤ op.1) :
    sshEmissions ip (d.run ops) =
      (watch window threshold.toNat List.length (d.queueOf ip) (select (SshOp.event ip) ops)).map (sshVerdict window threshold ip) := by
  induction ops generalizing d with
  | nil => rfl
  | cons op ops ih =>
    obtain ⟨now, op⟩ := op
    obtain ⟨rfl, rfl⟩ := hconfig
    have hnow : d.window ≤ now := hlate (now, op) List.mem_cons_self
    have htail : ∀ op ∈ ops, d.window ≤ op.1 := fun op hop => hlate op (List.mem_cons_of_mem _ hop)
    have hconfig' := d.step_window now op
    have hexpire : (expire (now - d.window) (d.queueOf ip)).length ≤ (d.queueOf ip).length :=
      (List.dropWhile_suffix _).length_le
    have hd' : (d.queueOf ip).length < 2 ^ 32 - 1 := hd
    cases op with
    | sweep =>
      have hqueue := sweep_queue hnow ip
      have hemit := ih hconfig' (by rw [Short, step, hqueue]; omega) htail
      rw [step, hqueue] at hemit
      exact hemit
    | observe a =>
      by_cases ha : isFailure a = true ∧ a.sourceIp = ip
      · obtain ⟨hfailure, rfl⟩ := ha
        have hevents : select (SshOp.event a.sourceIp) ((now, .observe a) :: ops) = (now, .arrive a) :: select (SshOp.event a.sourceIp) ops := by
          simp [select_cons, SshOp.event, hfailure]
        have hemissions : sshEmissions a.sourceIp (d.run ((now, .observe a) :: ops)) =
            (d.observe now a).2 :: sshEmissions a.sourceIp ((d.observe now a).1.run ops) := by
          simp [sshEmissions, run, step, hfailure]
        rw [hevents, watch, hemissions, observe_failure hfailure]
        generalize hw : expire (now - d.window) (d.queueOf a.sourceIp) ++ [(now, a)] = w
        have hlen : w.length < 2 ^ 32 := by
          rw [← hw, List.length_append, List.length_singleton]
          omega
        obtain ⟨hverdict, hqueue⟩ := observeFailure_self hnow hw.symm hlen
        have hbound : d.threshold.toNat < 2 ^ 32 := d.threshold.toNat_lt
        have hshort : (d.observeFailure now a).1.Short a.sourceIp := by
          rw [Short, hqueue]
          split_ifs
          · exact Nat.lt_of_sub_pos (by decide)
          · omega
        rw [step, observe_failure hfailure] at hconfig'
        have hemit := ih hconfig' hshort htail
        rw [hqueue] at hemit
        rw [List.map_cons, hverdict, hemit]
      · have hevents : select (SshOp.event ip) ((now, .observe a) :: ops) = select (SshOp.event ip) ops := by
          simp [select_cons, SshOp.event, ha]
        have hemissions : sshEmissions ip (d.run ((now, .observe a) :: ops)) = sshEmissions ip ((d.observe now a).1.run ops) := by
          simp [sshEmissions, run, step, ha]
        have hqueue : (d.observe now a).1.queueOf ip = d.queueOf ip := by
          cases h : isFailure a with
          | false => rw [observe_success h]
          | true =>
            rw [observe_failure h]
            exact observeFailure_other (fun hip => ha ⟨h, hip⟩) now
        have hemit := ih hconfig' (by rw [Short, step, hqueue]; exact hd) htail
        rw [step, hqueue] at hemit
        rw [hevents, hemissions, hemit]

end SshDetector

/-- the windows of an address: at each failure, the failures since the last emission that are not older than the window -/
def sshWindows (window : ℕ) (threshold : UInt32) (ip : Text) (ops : List (ℕ × SshOp)) : List (List (Timed AuthAttempt)) :=
  windows window threshold.toNat List.length [] (select (SshOp.failure ip) ops)

/-- the emissions for the failures of an address are the verdicts on its windows -/
def SshExact (window : ℕ) (threshold : UInt32) (ip : Text) (ops : List (ℕ × SshOp)) : Prop :=
  sshEmissions ip ((SshDetector.new window threshold).run ops) =
    (sshWindows window threshold ip ops).map (sshVerdict window threshold ip)

theorem ssh_windows {window : ℕ} {threshold : UInt32} {ip : Text} {ops : List (ℕ × SshOp)} (hclock : Clock window ops) :
    SshExact window threshold ip ops := by
  have hempty : (SshDetector.new window threshold).queueOf ip = [] := rfl
  have hshort : (SshDetector.new window threshold).Short ip := by
    unfold SshDetector.Short
    rw [hempty]
    decide
  have hemit : sshEmissions ip ((SshDetector.new window threshold).run ops) = _ :=
    SshDetector.run_watch ⟨rfl, rfl⟩ hshort hclock.late
  rw [SshExact, hemit, hempty, watch_eq_windows _ _ _ (hclock.forward.select _), arrivals_failures, sshWindows]
  rfl

/-! ## Both -/

theorem clock_singleton {ω : Type} {window now : ℕ} (op : ω) (h : window ≤ now) : Clock window [(now, op)] :=
  ⟨List.pairwise_singleton _ _, fun _ hop => by rw [List.mem_singleton.1 hop]; exact h⟩

def source : Text := "198.51.100.7".toList

/-- `n` attempts at port 22 at one time -/
def knocks (n : ℕ) : List (ℕ × ScanOp) := List.replicate n (0, .observe source 22)

/-- the state of the address after `n` attempts at port 22 -/
def knocked (n : ℕ) : ScanState :=
  ⟨List.replicate n (0, 22), AList.singleton 22 (asU32 n), asU32 n, 0, some 0⟩

theorem asU32_succ (n : ℕ) : asU32 (asU32 n + 1) = asU32 (n + 1) := Nat.mod_add_mod n (2 ^ 32) 1

theorem observe_knocked (n : ℕ) (d : ScanDetector) (hwindow : d.window = 0) (hthreshold : d.threshold = 2)
    (hd : d.perIp source = some (knocked (n + 1))) :
    (d.observe 0 source 22).1.perIp source = some (knocked (n + 2)) := by
  have hexpire : expireHead (knocked (n + 1)) 0 = knocked (n + 1) := rfl
  have hpush : pushAttempt (knocked (n + 1)) 0 22 = knocked (n + 2) := by
    unfold pushAttempt knocked countPort
    dsimp only
    have hcount : (AList.singleton (22 : UInt16) (asU32 (n + 1)) : PortCounts).lookup 22 = some (asU32 (n + 1)) := rfl
    rw [hcount, Option.getD_some, AList.insert_singleton_eq, asU32_succ, ← List.replicate_succ']
    rfl
  have hkeys : (knocked (n + 2)).portCounts.keys.length = 1 := rfl
  rw [ScanDetector.observe, hd, Option.getD_some, hwindow, ScanDetector.cutoffOf_eq le_rfl, hexpire, hpush, hkeys, hthreshold,
    if_neg (by decide)]
  exact d.put_self _ _

theorem run_knocks (n : ℕ) (ops : List (ℕ × ScanOp)) {k : ℕ} {d : ScanDetector} (hwindow : d.window = 0)
    (hthreshold : d.threshold = 2) (hd : d.perIp source = some (knocked (k + 1))) :
    ∃ d' : ScanDetector, d'.window = 0 ∧ d'.perIp source = some (knocked (k + n + 1)) ∧
      ∀ x ∈ d'.run ops, x ∈ d.run (knocks n ++ ops) := by
  induction n generalizing k d with
  | zero => exact ⟨d, hwindow, hd, fun _ hx => hx⟩
  | succ n ih =>
    have hstep := observe_knocked k d hwindow hthreshold hd
    have hconfig := d.step_window 0 (.observe source 22)
    rw [hwindow, hthreshold] at hconfig
    obtain ⟨d', hd', hstate, hsteps⟩ := ih hconfig.1 hconfig.2 hstep
    refine ⟨d', hd', by rw [hstate, Nat.add_right_comm k 1 n, Nat.add_assoc k n 1], fun x hx => ?_⟩
    exact List.mem_cons_of_mem _ (hsteps x hx)

/-- 2^32 attempts at one port, then a sweep that finds them too old -/
def hammered : List (ℕ × ScanOp) := knocks (2 ^ 32) ++ [(1, .sweep)]

theorem clock_hammered : Clock 0 hammered := by
  refine ⟨List.pairwise_append.2 ⟨?_, List.pairwise_singleton _ _, ?_⟩, fun _ _ => Nat.zero_le _⟩
  · exact List.pairwise_replicate.2 (Or.inr le_rfl)
  · intro x hx y hy
    rw [List.eq_of_mem_replicate hx]
    exact Nat.zero_le _

/-- the sweep takes 1 from the count 0 -/
theorem underflows_knocked (n : ℕ) (h : asU32 (n + 1) = 0) : underflows 1 (knocked (n + 1)).events (knocked (n + 1)) = true := by
  have hlookup : (knocked (n + 1)).portCounts.lookup 22 = some 0 := by
    rw [← h]
    rfl
  have hevents : (knocked (n + 1)).events = (0, 22) :: List.replicate n (0, 22) := rfl
  rw [hevents, underflows, hlookup]
  rfl

end ServerBee.Detectors
