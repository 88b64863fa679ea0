/-
Whether the last reported pair is the one of the newest refresh.

`Settled` follows the newest refresh: once it has set the guardrail, the guardrail has its primary address; once it is
finished, its pair is also the last one in the channel, or the last one sent. A step breaks this in three ways (`Guarded`): the
newest refresh returns at its baseline, which is not what was last reported; an older refresh sets the guardrail or reports
after it; or its pair has no address, and the guardrail keeps the old one. Starting a refresh breaks nothing.
-/
import ServerBee.Addresses.Model
import ServerBee.Firewall.Text

namespace ServerBee.Addresses

open ServerBee.Firewall ServerBee.Lib

/-- the pair of a refresh that has set the guardrail or returned -/
def Phase.shown : Phase → Option Pair
  | .fetching => none
  | .found _ => none
  | .guarded ips => some ips
  | .finished ips => some ips

def Phase.result : Phase → Option Pair
  | .finished ips => some ips
  | _ => none

def State.phase (s : State) (i : ℕ) : Option Phase := s.refreshes[i]?.map (·.phase)

def State.newest (s : State) : Option Phase := s.refreshes.getLast?.map (·.phase)

/-- the pair that the server will have when the channel is empty -/
def State.latest (s : State) : Pair := s.channel.getLast?.getD s.sent

variable (T : IpText)

/-- what is guarded and reported agrees with the newest refresh, as far as it has come -/
structure Settled (s : State) : Prop where
  guarded : ∀ ips ∈ s.newest.bind Phase.shown, s.externalIp = primaryExternalIp T ips
  reported : ∀ ips ∈ s.newest.bind Phase.result, s.latest = ips

def Guarded (s : State) : Op → Prop
  | .fetched i external =>
    -- the newest refresh returns at its baseline only when that is what was reported and guarded last
    i + 1 = s.refreshes.length → ∀ r ∈ s.refreshes[i]?, r.phase = .fetching → r.merged T external = r.baseline →
      s.latest = r.baseline ∧ s.externalIp = primaryExternalIp T r.baseline
  | .setExternalIp i =>
    -- a pair without an address is found while the guardrail has none, and an older refresh sets the address that is set
    ∀ ips, s.phase i = some (.found ips) →
      if i + 1 = s.refreshes.length then primaryExternalIp T ips = none → s.externalIp = none
      else ∀ ips' ∈ s.newest.bind Phase.shown, primaryExternalIp T ips = none ∨ primaryExternalIp T ips = primaryExternalIp T ips'
  | .enqueue i =>
    -- an older refresh reports after the newest one only the same pair
    ∀ ips, s.phase i = some (.guarded ips) → ∀ ips' ∈ s.newest.bind Phase.result, ips = ips'
  | _ => True

/-! ## The newest refresh -/

section Newest

variable {T} {s : State} {i : ℕ} {r : Refresh}

theorem newest_setPhase_self (hi : i + 1 = s.refreshes.length) (phase : Phase) :
    (setPhase s i r phase).newest = some phase := by
  have hlt : i < s.refreshes.length := by omega
  unfold State.newest setPhase
  rw [List.getLast?_eq_getElem?, List.length_set, ← hi, Nat.add_sub_cancel, List.getElem?_set_self hlt]
  rfl

theorem newest_setPhase_of_ne (hi : i + 1 ≠ s.refreshes.length) (phase : Phase) :
    (setPhase s i r phase).newest = s.newest := by
  unfold State.newest setPhase
  rw [List.getLast?_eq_getElem?, List.getLast?_eq_getElem?, List.length_set]
  by_cases hempty : s.refreshes.length = 0
  · rw [List.getElem?_eq_none (by simp [hempty]), List.getElem?_eq_none (by simp [hempty])]
  · rw [List.getElem?_set_ne (by omega)]

theorem phase_eq (hr : s.refreshes[i]? = some r) : s.phase i = some r.phase := by
  unfold State.phase
  rw [hr]
  rfl

theorem newest_eq (hr : s.refreshes[i]? = some r) (hi : i + 1 = s.refreshes.length) : s.newest = some r.phase := by
  unfold State.newest
  rw [List.getLast?_eq_getElem?, ← hi, Nat.add_sub_cancel, hr]
  rfl

/-- the newest refresh reaches a phase that shows nothing -/
theorem Settled.of_newest (phase : Phase) (hnewest : s.newest = some phase) (hphase : phase.shown = none) : Settled T s := by
  have hresult : phase.result = none := by cases phase <;> first | rfl | cases hphase
  constructor
  · rw [hnewest, Option.bind_some, hphase]
    nofun
  · rw [hnewest, Option.bind_some, hresult]
    nofun

/-- a step that leaves the newest refresh, the guardrail and the reports alone -/
theorem Settled.congr (hs : Settled T s) {s' : State} (hnewest : s'.newest = s.newest) (hip : s'.externalIp = s.externalIp)
    (hlatest : s'.latest = s.latest) : Settled T s' := by
  constructor
  · rw [hnewest, hip]
    exact hs.guarded
  · rw [hnewest, hlatest]
    exact hs.reported

theorem or_eq {o o' : Option IpAddr} (h : o = none → o' = none) : o.or o' = o := by
  cases o with
  | none => exact h rfl
  | some ip => rfl

end Newest

section Steps

variable {T} {s : State} {i : ℕ}

theorem Settled.fetched (hs : Settled T s) {external : Option String} (hguard : Guarded T s (.fetched i external)) :
    Settled T (step T s (.fetched i external)) := by
  simp only [step]
  cases hr : s.refreshes[i]? with
  | none => exact hs
  | some r =>
    dsimp only
    split_ifs with hphase hsame
    · by_cases hi : i + 1 = s.refreshes.length
      · obtain ⟨hlatest, hip⟩ := hguard hi r hr hphase hsame
        have hnewest := newest_setPhase_self (r := r) hi (.finished (r.merged T external))
        rw [hsame] at hnewest ⊢
        constructor
        · rw [hnewest]
          rintro ips ⟨⟩
          exact hip
        · rw [hnewest]
          rintro ips ⟨⟩
          exact hlatest
      · exact hs.congr (newest_setPhase_of_ne hi _) rfl rfl
    · by_cases hi : i + 1 = s.refreshes.length
      · exact .of_newest _ (newest_setPhase_self hi _) rfl
      · exact hs.congr (newest_setPhase_of_ne hi _) rfl rfl
    · exact hs

theorem Settled.setExternalIp (hs : Settled T s) (hguard : Guarded T s (.setExternalIp i)) :
    Settled T (step T s (.setExternalIp i)) := by
  simp only [step]
  cases hr : s.refreshes[i]? with
  | none => exact hs
  | some r =>
    dsimp only
    cases hphase : r.phase with
    | fetching => exact hs
    | guarded ips => exact hs
    | finished ips => exact hs
    | found ips =>
      have hg := hguard ips ((phase_eq hr).trans (congrArg some hphase))
      split_ifs at hg with hi
      · have hnewest : ({ setPhase s i r (.guarded ips) with
            externalIp := (primaryExternalIp T ips).or s.externalIp } : State).newest = some (.guarded ips) :=
          newest_setPhase_self hi _
        constructor
        · rw [hnewest]
          rintro ips' ⟨⟩
          exact or_eq hg
        · rw [hnewest]
          nofun
      · have hnewest : ({ setPhase s i r (.guarded ips) with
            externalIp := (primaryExternalIp T ips).or s.externalIp } : State).newest = s.newest :=
          newest_setPhase_of_ne hi _
        constructor
        · rw [hnewest]
          intro ips' hips'
          have hold := hs.guarded ips' hips'
          show (primaryExternalIp T ips).or s.externalIp = _
          rcases hg ips' hips' with hnone | hsame
          · rw [hnone]
            exact hold
          · rw [hsame]
            exact or_eq fun hno => hold.trans hno
        · rw [hnewest]
          exact hs.reported

theorem Settled.enqueue (hs : Settled T s) (hguard : Guarded T s (.enqueue i)) : Settled T (step T s (.enqueue i)) := by
  simp only [step]
  cases hr : s.refreshes[i]? with
  | none => exact hs
  | some r =>
    dsimp only
    cases hphase : r.phase with
    | fetching => exact hs
    | found ips => exact hs
    | finished ips => exact hs
    | guarded ips =>
      have hg := hguard ips ((phase_eq hr).trans (congrArg some hphase))
      have hlatest : ({ setPhase s i r (.finished ips) with channel := s.channel ++ [ips] } : State).latest = ips := by
        simp [State.latest]
      by_cases hi : i + 1 = s.refreshes.length
      · have hnewest : ({ setPhase s i r (.finished ips) with channel := s.channel ++ [ips] } : State).newest =
            some (.finished ips) := newest_setPhase_self hi _
        have hshown : ips ∈ s.newest.bind Phase.shown := by
          rw [newest_eq hr hi, hphase]
          rfl
        constructor
        · rw [hnewest]
          rintro ips' ⟨⟩
          exact hs.guarded ips hshown
        · rw [hnewest]
          rintro ips' ⟨⟩
          exact hlatest
      · have hnewest : ({ setPhase s i r (.finished ips) with channel := s.channel ++ [ips] } : State).newest = s.newest :=
          newest_setPhase_of_ne hi _
        constructor
        · rw [hnewest]
          exact hs.guarded
        · rw [hnewest, hlatest]
          exact hg

/-- what one step keeps -/
theorem Settled.step (hs : Settled T s) {op : Op} (hguard : Guarded T s op) : Settled T (step T s op) := by
  cases op with
  | check interfaces =>
    simp only [Addresses.step]
    split_ifs with hsame
    · exact hs
    · refine .of_newest .fetching ?_ rfl
      simp [State.newest]
  | fetched i external => exact hs.fetched hguard
  | setExternalIp i => exact hs.setExternalIp hguard
  | enqueue i => exact hs.enqueue hguard
  | forward =>
    simp only [Addresses.step]
    cases hchannel : s.channel with
    | nil => exact hs
    | cons ips channel =>
      refine hs.congr rfl rfl ?_
      unfold State.latest
      rw [hchannel]
      cases channel with
      | nil => rfl
      | cons ips' channel => rw [List.getLast?_cons_cons, List.getLast?_eq_some_getLast (List.cons_ne_nil _ _)]; rfl

end Steps

/-! ## Runs -/

/-- every refresh is finished and every message sent -/
def Quiet (s : State) : Prop := s.channel = [] ∧ ∀ r ∈ s.refreshes, ∃ ips, r.phase = .finished ips

theorem quiet_of_all {s : State} (h : s.channel = [] ∧ (s.refreshes.all fun r => r.phase.result.isSome) = true) : Quiet s := by
  refine ⟨h.1, fun r hr => ?_⟩
  obtain ⟨ips, hips⟩ := Option.isSome_iff_exists.1 (List.all_eq_true.1 h.2 r hr)
  cases hphase : r.phase with
  | finished ips => exact ⟨ips, rfl⟩
  | _ =>
    rw [hphase] at hips
    cases hips

/-- the pair that a refresh has found -/
def Phase.pair : Phase → Option Pair
  | .fetching => none
  | .found ips => some ips
  | .guarded ips => some ips
  | .finished ips => some ips

/-- a refresh finds the merged pair of its own interfaces and an external address, or none -/
def Merged (s : State) : Prop := ∀ r ∈ s.refreshes, ∀ ips ∈ r.phase.pair, ∃ external, ips = r.merged T external

/-- the merged pair of the newest refresh is what the server has, and its address is what the guardrail has -/
def Converged (s : State) : Prop :=
  ∃ r external, s.refreshes.getLast? = some r ∧ r.phase = .finished (r.merged T external) ∧
    s.sent = r.merged T external ∧ s.externalIp = primaryExternalIp T (r.merged T external)

section Runs

variable {T}

theorem not_converged {s : State} (h : s.newest.bind Phase.result ≠ some s.sent) : ¬ Converged T s := by
  rintro ⟨r, external, hlast, hphase, hsent, -⟩
  refine h ?_
  unfold State.newest
  rw [hlast, Option.map_some, hphase, hsent]
  rfl

theorem settled_connect (externalIp : Option IpAddr) (initialIps cachedIps : List NetworkInterface) :
    Settled T (connect T externalIp initialIps cachedIps) :=
  .of_newest .fetching rfl rfl

/-- what an operation does to the refreshes: it starts one, or moves one to a phase -/
theorem step_refreshes (T : IpText) (s : State) (op : Op) :
    (step T s op).refreshes = s.refreshes ∨
    (∃ interfaces baseline, (step T s op).refreshes = s.refreshes ++ [⟨interfaces, baseline, .fetching⟩]) ∨
    ∃ i r phase, s.refreshes[i]? = some r ∧ (step T s op).refreshes = s.refreshes.set i { r with phase } ∧
      ((∃ external, phase.pair = some (r.merged T external)) ∨ phase.pair = r.phase.pair) := by
  cases op with
  | check interfaces =>
    simp only [step]
    split_ifs
    · exact Or.inl rfl
    · exact Or.inr (Or.inl ⟨_, _, rfl⟩)
  | fetched i external =>
    simp only [step]
    cases hr : s.refreshes[i]? with
    | none => exact Or.inl rfl
    | some r =>
      dsimp only
      split_ifs
      · exact Or.inr (Or.inr ⟨i, r, _, hr, rfl, Or.inl ⟨external, rfl⟩⟩)
      · exact Or.inr (Or.inr ⟨i, r, _, hr, rfl, Or.inl ⟨external, rfl⟩⟩)
      · exact Or.inl rfl
  | setExternalIp i =>
    simp only [step]
    cases hr : s.refreshes[i]? with
    | none => exact Or.inl rfl
    | some r =>
      dsimp only
      cases hphase : r.phase with
      | found ips => exact Or.inr (Or.inr ⟨i, r, _, hr, rfl, Or.inr (congrArg Phase.pair hphase).symm⟩)
      | _ => exact Or.inl rfl
  | enqueue i =>
    simp only [step]
    cases hr : s.refreshes[i]? with
    | none => exact Or.inl rfl
    | some r =>
      dsimp only
      cases hphase : r.phase with
      | guarded ips => exact Or.inr (Or.inr ⟨i, r, _, hr, rfl, Or.inr (congrArg Phase.pair hphase).symm⟩)
      | _ => exact Or.inl rfl
  | forward =>
    simp only [step]
    split <;> exact Or.inl rfl

theorem step_merged {s : State} (hs : Merged T s) (op : Op) : Merged T (step T s op) := by
  intro r hr ips hips
  rcases step_refreshes T s op with hsame | ⟨interfaces, baseline, hnew⟩ | ⟨i, r', phase, hr', hset, hpair⟩
  · exact hs r (hsame ▸ hr) ips hips
  · rw [hnew, List.mem_append, List.mem_singleton] at hr
    rcases hr with hr | rfl
    · exact hs r hr ips hips
    · cases hips
  · rw [hset] at hr
    rcases List.mem_or_eq_of_mem_set hr with hr | rfl
    · exact hs r hr ips hips
    · rcases hpair with ⟨external, hpair⟩ | hpair
      · exact ⟨external, (Option.some.inj (hpair.symm.trans hips)).symm⟩
      · exact hs r' (List.mem_of_getElem? hr') ips (hpair ▸ hips)

theorem step_refreshes_ne_nil {s : State} (hs : s.refreshes ≠ []) (op : Op) : (step T s op).refreshes ≠ [] := by
  rcases step_refreshes T s op with hsame | ⟨interfaces, baseline, hnew⟩ | ⟨i, r, phase, -, hset, -⟩
  · rw [hsame]
    exact hs
  · rw [hnew]
    exact List.append_ne_nil_of_right_ne_nil _ (List.cons_ne_nil _ _)
  · rw [hset]
    exact fun hno => hs ((List.set_eq_nil_iff _ _).1 hno)

theorem Settled.converged {s : State} (hs : Settled T s) (hmerged : Merged T s) (hne : s.refreshes ≠ []) (hquiet : Quiet s) :
    Converged T s := by
  obtain ⟨hchannel, hfinished⟩ := hquiet
  have hlast := List.getLast?_eq_some_getLast hne
  have hmem := List.getLast_mem hne
  obtain ⟨ips, hips⟩ := hfinished _ hmem
  have hnewest : s.newest = some (.finished ips) := by
    unfold State.newest
    rw [hlast, Option.map_some, hips]
  obtain ⟨external, rfl⟩ := hmerged _ hmem ips (by rw [hips]; rfl)
  have hlatest : s.latest = _ := hs.reported _ (by rw [hnewest]; rfl)
  refine ⟨_, external, hlast, hips, ?_, hs.guarded _ (by rw [hnewest]; rfl)⟩
  rw [← hlatest, State.latest, hchannel]
  rfl

/-- **Reported addresses.** In a run of a connection in which the newest refresh returns at its baseline only when that was
reported last, and no older refresh overtakes a newer one with another pair, whenever every refresh is finished and
every message sent, the last pair sent is the one of the newest refresh, and the guardrail has its primary address -/
theorem last_report_is_newest (T : IpText) (externalIp : Option IpAddr) (initialIps cachedIps : List NetworkInterface)
    {ops : List Op} (hguard : Along (step T) (Guarded T) (connect T externalIp initialIps cachedIps) ops)
    (hquiet : Quiet (runs (step T) (connect T externalIp initialIps cachedIps) ops)) :
    Converged T (runs (step T) (connect T externalIp initialIps cachedIps) ops) := by
  have hkeep (s : State) (op : Op) (hs : Settled T s ∧ Merged T s ∧ s.refreshes ≠ []) (hg : Guarded T s op) :
      Settled T (step T s op) ∧ Merged T (step T s op) ∧ (step T s op).refreshes ≠ [] :=
    ⟨hs.1.step hg, step_merged hs.2.1 op, step_refreshes_ne_nil hs.2.2 op⟩
  have hmerged : Merged T (connect T externalIp initialIps cachedIps) := by
    intro r hr ips hips
    rw [List.mem_singleton.1 hr] at hips
    cases hips
  obtain ⟨hsettled, hmerged, hne⟩ := Along.invariant hkeep
    ⟨settled_connect externalIp initialIps cachedIps, hmerged, List.cons_ne_nil _ _⟩ hguard
  exact hsettled.converged hmerged hne hquiet

end Runs

/-! ## Stale reports -/

def iface (name ip : String) : NetworkInterface := ⟨name, [ip], []⟩

/-- behind a router: the first refresh finds the public address -/
def behindRouter : State := connect plainText none [iface "eth0" "192.168.1.2"] [iface "eth0" "192.168.1.2"]

theorem last_report_is_newest_once :
    Converged plainText (runs (step plainText) behindRouter
      [.fetched 0 (some "198.51.100.1"), .setExternalIp 0, .enqueue 0, .forward]) := by
  refine last_report_is_newest plainText none _ _ ⟨?_, ?_, ?_, trivial, trivial⟩ ?_
  · rintro - r hr - hsame
    obtain rfl := Option.some.inj hr
    exact absurd hsame (by decide +kernel)
  · intro ips hips
    have hfound : (step plainText behindRouter (.fetched 0 (some "198.51.100.1"))).phase 0 =
        some (.found (some "198.51.100.1", none)) := by decide +kernel
    cases hfound.symm.trans hips
    decide +kernel
  · intro ips hips ips' hips'
    have hnone : (runs (step plainText) behindRouter
        [.fetched 0 (some "198.51.100.1"), .setExternalIp 0]).newest.bind Phase.result = none := by decide +kernel
    cases hnone.symm.trans hips'
  · exact quiet_of_all (by decide +kernel)

/-- (1) the first refresh is slow, and reports after the one of an interface change; (2) the public address was reported, and
an interface change finds no external address, and the interface's own address unchanged -/
theorem stale_report :
    (Quiet (runs (step plainText) behindRouter
        [.check [iface "eth0" "203.0.113.9"], .fetched 1 none, .setExternalIp 1, .enqueue 1,
          .fetched 0 (some "198.51.100.1"), .setExternalIp 0, .enqueue 0, .forward, .forward]) ∧
      ¬ Converged plainText (runs (step plainText) behindRouter
        [.check [iface "eth0" "203.0.113.9"], .fetched 1 none, .setExternalIp 1, .enqueue 1,
          .fetched 0 (some "198.51.100.1"), .setExternalIp 0, .enqueue 0, .forward, .forward])) ∧
    (Quiet (runs (step plainText) behindRouter
        [.fetched 0 (some "198.51.100.1"), .setExternalIp 0, .enqueue 0, .forward,
          .check [iface "eth0" "192.168.1.2", iface "wg0" "10.8.0.2"], .fetched 1 none]) ∧
      ¬ Converged plainText (runs (step plainText) behindRouter
        [.fetched 0 (some "198.51.100.1"), .setExternalIp 0, .enqueue 0, .forward,
          .check [iface "eth0" "192.168.1.2", iface "wg0" "10.8.0.2"], .fetched 1 none])) := by
  refine ⟨⟨?_, ?_⟩, ?_, ?_⟩
  · exact quiet_of_all (by decide +kernel)
  · exact not_converged (by decide +kernel)
  · exact quiet_of_all (by decide +kernel)
  · exact not_converged (by decide +kernel)

end ServerBee.Addresses
