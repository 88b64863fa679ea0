/-
When every run has the address that the server knows, and every change gets its run.

`Tracked` says that the watch channel has the address of the last message, and that a change which is still owed a run has a
trigger on its way through the scheduler. What breaks it is excluded by `Guarded`: an address that passes while the capability
is off, an address that the scheduler acted on last, a capability or services that are gone when the trigger is handled, the
first poll of the scheduler after a change, and a run that starts while a change is notified and not sent.
-/
import ServerBee.IpQuality.Model

namespace ServerBee.IpQuality

open ServerBee.Lib

variable {δ : Type}

/-- the loop has notified the checker of a change that it has not sent yet -/
def State.Changing (s : State δ) : Prop := ∃ newIp, s.forwarding = some newIp ∧ newIp ≠ s.announced

/-- a change has no run yet, and will be owed one -/
def State.Due (s : State δ) : Prop := s.owed = true ∨ s.Changing ∧ s.services ≠ []

/-- the scheduler will come to a run, or has a value to look at that it has not acted on -/
def State.Pending (s : State δ) : Prop :=
  s.phase = .triggered ∨ s.phase = .allowed ∨ s.phase = .loaded ∨ s.ipChanged.unseen = true ∧ s.ipChanged.value ≠ s.lastIp

/-- the scheduler has handled its triggers -/
def State.Handled (s : State δ) : Prop := s.phase = .waiting ∧ s.ipChanged.unseen = false ∧ s.runNow = 0

def Guarded (s : State δ) : Op δ → Prop
  | .seed => s.seeded = false → s.capable = true ∨ s.announced = none
  | .take ipv4 ipv6 => s.free = true →
    preferred ipv4 ipv6 = s.announced ∨ s.capable = true ∧ (s.services ≠ [] → preferred ipv4 ipv6 ≠ s.lastIp)
  | .sync services _ => s.free = true → s.capable = true → services = [] → ¬ s.Due
  | .start => s.phase = .unstarted → ¬ s.Due
  | .checkCapability => s.phase = .triggered → s.Due → s.capable = true
  | .begin => s.phase = .loaded → ¬ s.Changing
  | _ => True

instance (s : State δ) : Decidable s.Changing :=
  decidable_of_iff (s.forwarding.any fun newIp => decide (newIp ≠ s.announced)) (by simp [State.Changing, Option.any_eq_true])

instance [DecidableEq δ] (s : State δ) : Decidable s.Due := inferInstanceAs (Decidable (_ ∨ _))

instance [DecidableEq δ] (s : State δ) (op : Op δ) : Decidable (Guarded s op) := by
  cases op <;> unfold Guarded <;> infer_instance

def RunResult.Attributed (r : RunResult) : Prop := r.egressIp = r.announced.getD ""

structure Tracked (s : State δ) : Prop where
  receiver : s.ipChanged.seen.isSome = true
  value : s.seeded = true → s.ipChanged.value = s.forwarding.getD s.announced
  unseeded : s.seeded = false → s.forwarding = none ∧ s.services = [] ∧ s.owed = false ∧ s.ipChanged.value = none
  loaded : s.phase = .loaded → s.seeded = true
  pending : s.Due → s.services ≠ [] ∧ s.Pending
  running : ∀ r, s.phase = .running r → r.Attributed
  results : ∀ r ∈ s.results, r.Attributed

theorem tracked_connect (capable : Bool) (ipv4 ipv6 : Option String) : Tracked (connect (δ := δ) capable ipv4 ipv6) where
  receiver := rfl
  value := by
    intro h
    cases h
  unseeded := fun _ => ⟨rfl, rfl, rfl, rfl⟩
  loaded := by
    intro h
    cases h
  pending := by
    rintro (h | ⟨⟨newIp, h, -⟩, -⟩)
    · cases h
    · cases h
  running := by
    intro r h
    cases h
  results := by
    intro r h
    cases h

namespace Tracked

variable {s : State δ}

theorem not_due (h : Tracked s) (hseeded : s.seeded = false) : ¬ s.Due := by
  obtain ⟨-, hservices, howed, -⟩ := h.unseeded hseeded
  rintro (hdue | ⟨-, hne⟩)
  · rw [howed] at hdue
    cases hdue
  · exact hne hservices

theorem seed (h : Tracked s) (hg : Guarded s .seed) : Tracked (step s .seed) := by
  by_cases hseeded : s.seeded = true
  · simpa [step, hseeded] using h
  · have hunseeded : s.seeded = false := Bool.eq_false_iff.2 hseeded
    obtain ⟨hforwarding, hservices, howed, hvalue⟩ := h.unseeded hunseeded
    have hnot := h.not_due hunseeded
    by_cases hsend : (s.capable && s.announced.isSome) = true
    · have hstep : step s .seed = { notifyIpChanged s s.announced with seeded := true } := by
        simp only [step, hunseeded, hsend, Bool.false_eq_true, if_false, if_true]
      rw [hstep]
      refine ⟨h.receiver, fun _ => ?_, (fun hno => nomatch hno), fun _ => rfl, fun hdue => absurd hdue hnot, h.running, h.results⟩
      change (s.ipChanged.send s.announced).value = s.forwarding.getD s.announced
      rw [hforwarding]
      exact (Watch.send_received h.receiver s.announced).1
    · have hstep : step s .seed = { s with seeded := true } := by
        simp only [step, hunseeded, hsend, Bool.false_eq_true, if_false]
      have hnone : s.announced = none := by
        rcases hg hunseeded with hcapable | hnone
        · rw [hcapable, Bool.true_and] at hsend
          exact Option.not_isSome_iff_eq_none.1 hsend
        · exact hnone
      rw [hstep]
      refine ⟨h.receiver, fun _ => ?_, (fun hno => nomatch hno), fun _ => rfl, fun hdue => absurd hdue hnot, h.running, h.results⟩
      change s.ipChanged.value = s.forwarding.getD s.announced
      rw [hvalue, hforwarding, hnone]
      rfl

theorem take (h : Tracked s) {ipv4 ipv6 : Option String} (hg : Guarded s (.take ipv4 ipv6)) :
    Tracked (step s (.take ipv4 ipv6)) := by
  by_cases hfree : s.free = true
  · obtain ⟨hseeded, hnone⟩ : s.seeded = true ∧ s.forwarding = none := by
      simpa [State.free, Option.isNone_iff_eq_none] using hfree
    have hvalue : s.ipChanged.value = s.announced := by
      rw [h.value hseeded, hnone]
      rfl
    by_cases hcapable : s.capable = true
    · have hstep : step s (.take ipv4 ipv6) =
          { notifyIpChanged s (preferred ipv4 ipv6) with forwarding := some (preferred ipv4 ipv6) } := by
        simp only [step, hfree, hcapable, if_true]
      obtain ⟨hsent, hunseen⟩ := Watch.send_received h.receiver (preferred ipv4 ipv6)
      rw [hstep]
      refine ⟨h.receiver, fun _ => hsent, fun hno => ?_, h.loaded, fun hdue => ?_, h.running, h.results⟩
      · exact absurd hseeded (Bool.eq_false_iff.1 hno)
      · -- the new value is one that the scheduler has not acted on, unless it is on its way to a run
        have hnew : preferred ipv4 ipv6 ≠ s.lastIp → State.Pending
            { notifyIpChanged s (preferred ipv4 ipv6) with forwarding := some (preferred ipv4 ipv6) } := by
          intro hne
          exact Or.inr (Or.inr (Or.inr ⟨hunseen, hsent.trans_ne hne⟩))
        rcases hdue with howed | ⟨⟨newIp, hnewIp, hchange⟩, hservices⟩
        · obtain ⟨hservices, hpending⟩ := h.pending (Or.inl howed)
          refine ⟨hservices, ?_⟩
          rcases hpending with hphase | hphase | hphase | ⟨-, hne⟩
          · exact Or.inl hphase
          · exact Or.inr (Or.inl hphase)
          · exact Or.inr (Or.inr (Or.inl hphase))
          · rcases hg hfree with hsame | ⟨-, hlast⟩
            · exact hnew (hsame.trans_ne (hvalue ▸ hne))
            · exact hnew (hlast hservices)
        · cases hnewIp
          refine ⟨hservices, ?_⟩
          rcases hg hfree with hsame | ⟨-, hlast⟩
          · exact absurd hsame hchange
          · exact hnew (hlast hservices)
    · have hsame := (hg hfree).resolve_right fun hno => hcapable hno.1
      have hstep : step s (.take ipv4 ipv6) = { s with forwarding := some s.announced } := by
        simp only [step, hfree, hcapable, if_true, hsame, Bool.false_eq_true, if_false]
      rw [hstep]
      refine ⟨h.receiver, fun _ => hvalue, fun hno => ?_, h.loaded, fun hdue => ?_, h.running, h.results⟩
      · exact absurd hseeded (Bool.eq_false_iff.1 hno)
      · rcases hdue with howed | ⟨⟨newIp, hnewIp, hchange⟩, -⟩
        · exact h.pending (Or.inl howed)
        · cases hnewIp
          exact absurd rfl hchange
  · simpa [step, hfree] using h

theorem send (h : Tracked s) : Tracked (step s .send) := by
  cases hforwarding : s.forwarding with
  | none => simpa [step, hforwarding] using h
  | some newIp =>
    have hstep : step s .send = { s with
        announced := newIp
        forwarding := none
        owed := s.owed || (decide (newIp ≠ s.announced) && s.capable && !s.services.isEmpty) } := by
      simp only [step, hforwarding]
    rw [hstep]
    refine ⟨h.receiver, fun hseeded => ?_, fun hno => ?_, h.loaded, fun hdue => ?_, h.running, h.results⟩
    · have hvalue := h.value hseeded
      rwa [hforwarding] at hvalue
    · obtain ⟨hnone, -⟩ := h.unseeded hno
      rw [hforwarding] at hnone
      cases hnone
    · have hbefore : s.Due := by
        rcases hdue with howed | ⟨⟨_, hno, -⟩, -⟩
        · simp only [Bool.or_eq_true, Bool.and_eq_true, decide_eq_true_eq, Bool.not_eq_true', List.isEmpty_eq_false_iff] at howed
          rcases howed with howed | ⟨⟨hchange, -⟩, hservices⟩
          · exact Or.inl howed
          · exact Or.inr ⟨⟨newIp, hforwarding, hchange⟩, hservices⟩
        · cases hno
      exact h.pending hbefore

theorem runNow (h : Tracked s) : Tracked (IpQuality.runNow s) := by
  unfold IpQuality.runNow
  split_ifs
  · exact ⟨h.receiver, h.value, h.unseeded, h.loaded, h.pending, h.running, h.results⟩
  · exact h

theorem sync (h : Tracked s) {services : List δ} {intervalHours : ℕ} (hg : Guarded s (.sync services intervalHours)) :
    Tracked (step s (.sync services intervalHours)) := by
  by_cases hfree : s.free = true
  · have hstep : step s (.sync services intervalHours) = IpQuality.sync s services intervalHours := if_pos hfree
    obtain ⟨hseeded, hnone⟩ : s.seeded = true ∧ s.forwarding = none := by
      simpa [State.free, Option.isNone_iff_eq_none] using hfree
    rw [hstep, IpQuality.sync]
    by_cases hcapable : s.capable = true
    · rw [if_pos hcapable]
      -- whether the first run was triggered does not matter
      have hset : ∀ triggered, Tracked { s with services, intervalHours, initialRunTriggered := triggered } := by
        intro triggered
        refine ⟨h.receiver, h.value, fun hno => ?_, h.loaded, fun hdue => ?_, h.running, h.results⟩
        · exact absurd hseeded (Bool.eq_false_iff.1 hno)
        · have howed : s.owed = true := by
            rcases hdue with howed | ⟨⟨newIp, hno, -⟩, -⟩
            · exact howed
            · exact nomatch hnone.symm.trans hno
          refine ⟨?_, (h.pending (Or.inl howed)).2⟩
          intro hempty
          exact hg hfree hcapable hempty (Or.inl howed)
      dsimp only
      split_ifs
      · exact (hset true).runNow
      · exact hset s.initialRunTriggered
    · rw [if_neg hcapable]
      exact h
  · simpa [step, hfree] using h

theorem start (h : Tracked s) (hg : Guarded s .start) : Tracked (step s .start) := by
  cases hphase : s.phase with
  | unstarted =>
    have hstep : step s .start = { s with phase := .waiting, ipChanged := s.ipChanged.borrowAndUpdate } := by
      simp only [step, hphase]
    rw [hstep]
    refine ⟨(Watch.isSome_borrow s.ipChanged).trans h.receiver, h.value, h.unseeded, (fun hno => nomatch hno), fun hdue => ?_,
      (fun _ hno => nomatch hno), h.results⟩
    exact absurd hdue (hg hphase)
  | _ => simpa [step, hphase] using h

theorem timeout (h : Tracked s) : Tracked (step s .timeout) := by
  cases hphase : s.phase with
  | waiting =>
    have hstep : step s .timeout = { s with phase := .triggered } := by
      simp only [step, hphase]
    rw [hstep]
    exact ⟨h.receiver, h.value, h.unseeded, (fun hno => nomatch hno), fun hdue => ⟨(h.pending hdue).1, Or.inl rfl⟩,
      (fun _ hno => nomatch hno), h.results⟩
  | _ => simpa [step, hphase] using h

theorem recvRunNow (h : Tracked s) : Tracked (step s .recvRunNow) := by
  cases hphase : s.phase with
  | waiting =>
    by_cases hempty : s.runNow = 0
    · simpa [step, hphase, hempty] using h
    · have hstep : step s .recvRunNow = { s with phase := .triggered, runNow := s.runNow - 1 } := by
        simp only [step, hphase, hempty, if_false]
      rw [hstep]
      exact ⟨h.receiver, h.value, h.unseeded, (fun hno => nomatch hno), fun hdue => ⟨(h.pending hdue).1, Or.inl rfl⟩,
        (fun _ hno => nomatch hno), h.results⟩
  | _ => simpa [step, hphase] using h

theorem recvIpChanged (h : Tracked s) : Tracked (step s .recvIpChanged) := by
  cases hphase : s.phase with
  | waiting =>
    by_cases hunseen : s.ipChanged.unseen = true
    · by_cases hsame : s.ipChanged.value = s.lastIp
      · have hstep : step s .recvIpChanged = { s with ipChanged := s.ipChanged.borrowAndUpdate } := by
          simp only [step, hphase, hunseen, if_true, if_pos hsame]
        rw [hstep]
        refine ⟨(Watch.isSome_borrow s.ipChanged).trans h.receiver, h.value, h.unseeded, h.loaded, fun hdue => ?_, h.running,
          h.results⟩
        -- a change that is owed a run would have another address
        obtain ⟨-, hpending⟩ := h.pending hdue
        rcases hpending with hno | hno | hno | ⟨-, hne⟩
        · exact nomatch hphase.symm.trans hno
        · exact nomatch hphase.symm.trans hno
        · exact nomatch hphase.symm.trans hno
        · exact absurd hsame hne
      · have hstep : step s .recvIpChanged =
            { s with phase := .triggered, ipChanged := s.ipChanged.borrowAndUpdate, lastIp := s.ipChanged.value } := by
          simp only [step, hphase, hunseen, if_true, if_neg hsame]
        rw [hstep]
        exact ⟨(Watch.isSome_borrow s.ipChanged).trans h.receiver, h.value, h.unseeded, (fun hno => nomatch hno),
          fun hdue => ⟨(h.pending hdue).1, Or.inl rfl⟩, (fun _ hno => nomatch hno), h.results⟩
    · simpa [step, hphase, hunseen] using h
  | _ => simpa [step, hphase] using h

theorem checkCapability (h : Tracked s) (hg : Guarded s .checkCapability) : Tracked (step s .checkCapability) := by
  cases hphase : s.phase with
  | triggered =>
    by_cases hcapable : s.capable = true
    · have hstep : step s .checkCapability = { s with phase := .allowed } := by
        simp only [step, hphase, hcapable, if_true]
      rw [hstep]
      exact ⟨h.receiver, h.value, h.unseeded, (fun hno => nomatch hno), fun hdue => ⟨(h.pending hdue).1, Or.inr (Or.inl rfl)⟩,
        (fun _ hno => nomatch hno), h.results⟩
    · have hstep : step s .checkCapability = { s with phase := .waiting } := by
        simp only [step, hphase, hcapable, Bool.false_eq_true, if_false]
      rw [hstep]
      exact ⟨h.receiver, h.value, h.unseeded, (fun hno => nomatch hno), fun hdue => absurd (hg hphase hdue) hcapable,
        (fun _ hno => nomatch hno), h.results⟩
  | _ => simpa [step, hphase] using h

theorem loadServices (h : Tracked s) : Tracked (step s .loadServices) := by
  cases hphase : s.phase with
  | allowed =>
    by_cases hempty : s.services = []
    · have hstep : step s .loadServices = { s with phase := .waiting } := by
        simp only [step, hphase, hempty, List.isEmpty_nil, if_true]
      rw [hstep]
      exact ⟨h.receiver, h.value, h.unseeded, (fun hno => nomatch hno), fun hdue => absurd hempty (h.pending hdue).1,
        (fun _ hno => nomatch hno), h.results⟩
    · have hstep : step s .loadServices = { s with phase := .loaded } := by
        simp only [step, hphase, List.isEmpty_iff, hempty, if_false]
      rw [hstep]
      refine ⟨h.receiver, h.value, h.unseeded, fun _ => ?_, fun hdue => ⟨(h.pending hdue).1, Or.inr (Or.inr (Or.inl rfl))⟩,
        (fun _ hno => nomatch hno), h.results⟩
      by_contra hunseeded
      exact hempty (h.unseeded (Bool.eq_false_iff.2 hunseeded)).2.1
  | _ => simpa [step, hphase] using h

theorem begin (h : Tracked s) (hg : Guarded s .begin) : Tracked (step s .begin) := by
  cases hphase : s.phase with
  | loaded =>
    have hstep : step s .begin = { s with phase := .running ⟨s.ipChanged.value.getD "", s.announced⟩, owed := false } := by
      simp only [step, hphase]
    have hsteady := hg hphase
    have hvalue : s.ipChanged.value = s.announced := by
      rw [h.value (h.loaded hphase)]
      cases hforwarding : s.forwarding with
      | none => rfl
      | some newIp =>
        by_contra hchange
        exact hsteady ⟨newIp, hforwarding, hchange⟩
    rw [hstep]
    refine ⟨h.receiver, h.value, fun hno => ?_, (fun hno => nomatch hno), fun hdue => ?_, fun r hr => ?_, h.results⟩
    · obtain ⟨hforwarding, hservices, -, hnone⟩ := h.unseeded hno
      exact ⟨hforwarding, hservices, rfl, hnone⟩
    · rcases hdue with hno | ⟨hchanging, -⟩
      · cases hno
      · exact absurd hchanging hsteady
    · cases hr
      rw [RunResult.Attributed, hvalue]
  | _ => simpa [step, hphase] using h

theorem finish (h : Tracked s) : Tracked (step s .finish) := by
  cases hphase : s.phase with
  | running result =>
    have hstep : step s .finish = { s with phase := .waiting, results := s.results ++ [result] } := by
      simp only [step, hphase]
    rw [hstep]
    refine ⟨h.receiver, h.value, h.unseeded, (fun hno => nomatch hno), fun hdue => ?_, (fun _ hno => nomatch hno), fun r hr => ?_⟩
    · obtain ⟨hservices, hpending⟩ := h.pending hdue
      refine ⟨hservices, ?_⟩
      rcases hpending with hno | hno | hno | hunseen
      · exact nomatch hphase.symm.trans hno
      · exact nomatch hphase.symm.trans hno
      · exact nomatch hphase.symm.trans hno
      · exact Or.inr (Or.inr (Or.inr hunseen))
    · rcases List.mem_append.1 hr with hr | hr
      · exact h.results r hr
      · rw [List.mem_singleton.1 hr]
        exact h.running result hphase
  | _ => simpa [step, hphase] using h

theorem step (h : Tracked s) (op : Op δ) (hg : Guarded s op) : Tracked (IpQuality.step s op) := by
  cases op with
  | setCapable capable => exact ⟨h.receiver, h.value, h.unseeded, h.loaded, h.pending, h.running, h.results⟩
  | seed => exact h.seed hg
  | take ipv4 ipv6 => exact h.take hg
  | send => exact h.send
  | sync services intervalHours => exact h.sync hg
  | runNow =>
    by_cases hfree : s.free = true
    · have hstep : IpQuality.step s .runNow = IpQuality.runNow s := if_pos hfree
      rw [hstep]
      exact h.runNow
    · simpa [IpQuality.step, hfree] using h
  | start => exact h.start hg
  | timeout => exact h.timeout
  | recvRunNow => exact h.recvRunNow
  | recvIpChanged => exact h.recvIpChanged
  | checkCapability => exact h.checkCapability hg
  | loadServices => exact h.loadServices
  | begin => exact h.begin hg
  | finish => exact h.finish

/-- a scheduler that has handled its triggers owes no run -/
theorem not_owed (h : Tracked s) (hhandled : s.Handled) : s.owed = false := by
  obtain ⟨hphase, hseen, -⟩ := hhandled
  by_contra howed
  rcases (h.pending (Or.inl (Bool.eq_true_of_not_eq_false howed))).2 with hno | hno | hno | ⟨hno, -⟩
  · exact nomatch hphase.symm.trans hno
  · exact nomatch hphase.symm.trans hno
  · exact nomatch hphase.symm.trans hno
  · rw [hseen] at hno
    cases hno

end Tracked

/-- **IP-quality runs.** In a guarded run of a connection every result has the address that the server was told last before its
run started, and a scheduler that has handled its triggers owes no announced change a run. -/
theorem runs_attributed (capable : Bool) (ipv4 ipv6 : Option String) {ops : List (Op δ)}
    (hguard : Along step Guarded (connect capable ipv4 ipv6) ops) :
    (∀ r ∈ (runs step (connect capable ipv4 ipv6) ops).results, r.egressIp = r.announced.getD "") ∧
      ((runs step (connect capable ipv4 ipv6) ops).Handled → (runs step (connect capable ipv4 ipv6) ops).owed = false) := by
  have h : Tracked (runs step (connect capable ipv4 ipv6) ops) :=
    Along.invariant (fun _ op hs hg => hs.step op hg) (tracked_connect capable ipv4 ipv6) hguard
  exact ⟨h.results, h.not_owed⟩

/-! ## A missed seed and a change that is taken back -/

/-- a first run on the seed, and a run for a change -/
def twoRuns : List (Op ℕ) :=
  [.start, .seed, .recvIpChanged, .checkCapability, .loadServices, .sync [1] 12, .recvRunNow, .checkCapability, .loadServices,
    .begin, .finish, .take (some "198.51.100.7") none, .send, .recvIpChanged, .checkCapability, .loadServices, .begin, .finish]

theorem runs_attributed_two :
    (∀ r ∈ (runs step (connect true (some "203.0.113.5") none) twoRuns).results, r.egressIp = r.announced.getD "") ∧
      ((runs step (connect true (some "203.0.113.5") none) twoRuns).Handled →
        (runs step (connect true (some "203.0.113.5") none) twoRuns).owed = false) := by
  refine runs_attributed true (some "203.0.113.5") none ?_
  decide

/-- (1) the capability is granted after the seed: a run with no address; (2) an address changes while a run goes on, and back:
the scheduler has handled its triggers, and no run started after the changes -/
theorem missed_addresses :
    (runs step (connect false (some "203.0.113.5") none)
        [.start, .seed, .setCapable true, .sync [1] 12, .recvRunNow, .checkCapability, .loadServices, .begin, .finish]).results =
      [⟨"", some "203.0.113.5"⟩] ∧
    let s : State ℕ := runs step (connect true (some "203.0.113.5") none)
      [.start, .seed, .recvIpChanged, .checkCapability, .loadServices, .sync [1] 12, .recvRunNow, .checkCapability, .loadServices,
        .begin, .take (some "198.51.100.7") none, .send, .take (some "203.0.113.5") none, .send, .finish, .recvIpChanged]
    s.phase = .waiting ∧ s.ipChanged.unseen = false ∧ s.runNow = 0 ∧ s.owed = true := by
  decide

end ServerBee.IpQuality
