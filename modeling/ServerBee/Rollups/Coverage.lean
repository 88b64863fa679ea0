/-
What the hourly rows cover.

The two roll-ups read different windows. The one of the metric records is a whole hour (`upsertHour_apply`), so each of its
rows is exact, and an hour is missing when no roll-up succeeded in the hour after it. The one of the probe records is the
hour up to the clock: it replaces the row of an hour by the part that lies in the window (`probes_row`), so the row stays
exact only where the window does not split the records of the hour. Every stored probe row covers the records of its hour
up to some instant (`Inv.probeRows`), and that instant only grows.
-/
import ServerBee.Rollups.Model

namespace ServerBee.Rollups

open ServerBee.Lib ServerBee.Lib.Buckets

variable {F : Type}

theorem hour_pos : 0 < hour := by decide

/-- the hour lies after the first tick -/
def State.After (s : State F) (h : ℤ) : Prop := ∃ first ∈ s.firstTick, first ≤ h * hour

instance (s : State F) (h : ℤ) : Decidable (s.After h) := by unfold State.After; infer_instance

/-- the last success was in the hour of the tick or in the one before, or the hours between have no records -/
def State.Consecutive (s : State F) : Prop :=
  ∀ r ∈ s.records, s.After (recordSeries.bucket r) → (∀ t ∈ s.recordsAt, t / hour ≤ recordSeries.bucket r) →
    s.clock / hour ≤ recordSeries.bucket r + 1

/-- the instant one hour before the tick does not part the records of a (server, target) in one hour -/
def State.NoSplit (s : State F) (writes : String × String → ℤ → Prop) : Prop :=
  ∀ r ∈ s.probes, ∀ r' ∈ s.probes, probeSeries.key r = probeSeries.key r' → probeSeries.bucket r = probeSeries.bucket r' →
    writes (probeSeries.key r) (probeSeries.bucket r) → r.timestamp < s.clock - hour → r'.timestamp < s.clock - hour

/-- the last success was at most an hour before the tick, or there is no record from the time between -/
def State.NoGap (s : State F) : Prop :=
  ∀ r ∈ s.probes, s.After (probeSeries.bucket r) → (∀ t ∈ s.probesAt, t ≤ r.timestamp) → s.clock - hour ≤ r.timestamp

/-- the number of records of a (server, target) in one hour is an `i32` -/
def State.Counted (s : State F) : Prop :=
  ∀ r ∈ s.probes, (probeSeries.all s.probes (probeSeries.key r) (probeSeries.bucket r)).length < 2147483648

def ProbesOutcome.Writes : ProbesOutcome → String × String → ℤ → Prop
  | .stopped done, key, h => (key, h) ∈ done
  | .succeeded, _, _ => True

def Guarded (s : State F) : Op F → Prop
  | .rollRecords .succeeded => s.start.Consecutive
  | .rollProbes outcome =>
    s.start.NoSplit outcome.Writes ∧ (outcome = .succeeded → s.start.NoGap) ∧ s.start.Counted
  | _ => True

theorem lawfulBEq_written : LawfulBEq ((String × String) × ℤ) := inferInstance

instance (outcome : ProbesOutcome) (key : String × String) (h : ℤ) : Decidable (outcome.Writes key h) :=
  match outcome with
  | .stopped done => @List.instDecidableMemOfLawfulBEq _ _ lawfulBEq_written (key, h) done
  | .succeeded => Decidable.isTrue trivial

instance (s : State F) (op : Op F) : Decidable (Guarded s op) := by
  unfold Guarded State.Consecutive State.NoSplit State.NoGap State.Counted
  split <;> infer_instance

variable {json : DiskIoJson} {s : State F}

/-! ## One roll-up -/

section Records

variable [Real64 F]

/-- the row of a server and an hour with records -/
def exactRecord (json : DiskIoJson) (group : List (Record F)) : RecordHourly F :=
  ⟨aggregateHourlySql group, aggregateDiskIo json group⟩

omit [Real64 F] in
theorem rolled_hour (s : State F) (server : String) (h : ℤ) :
    recordSeries.rolled s.records (s.clock / hour * hour - hour) (s.clock / hour * hour) server h =
      if h = s.clock / hour - 1 then recordSeries.all s.records server h else [] := by
  have hwindow : recordSeries.rolled s.records ((s.clock / hour - 1) * hour) ((s.clock / hour - 1 + 1) * hour) server h =
      if h = s.clock / hour - 1 then recordSeries.all s.records server h else [] := rolled_bucket hour_pos _
  have hstart : (s.clock / hour - 1) * hour = s.clock / hour * hour - hour := by ring
  have hend : (s.clock / hour - 1 + 1) * hour = s.clock / hour * hour := by ring
  rw [← hstart, ← hend]
  exact hwindow

/-- the rows of the hour before the clock are computed from all of its records; the other rows stay -/
theorem upsertHour_apply (json : DiskIoJson) (done : String → Prop) [DecidablePred done] (s : State F) (server : String) (h : ℤ) :
    upsertHour json done s server h =
      if h = s.clock / hour - 1 ∧ recordSeries.all s.records server h ≠ [] then
        some ⟨aggregateHourlySql (recordSeries.all s.records server h),
          if done server then aggregateDiskIo json (recordSeries.all s.records server h)
          else (s.recordsHourly server h).bind (·.diskIoJson)⟩
      else s.recordsHourly server h := by
  unfold upsertHour Spec.rollUp
  simp only [rolled_hour, and_true]
  by_cases hh : h = s.clock / hour - 1
  · by_cases hall : recordSeries.all s.records server h = []
    · simp [hall]
    · by_cases hdone : done server
      · simp [hh ▸ hall, hh, hdone, setDiskIo, upsertMetrics]
      · simp [hh ▸ hall, hh, hdone, upsertMetrics]
  · simp [hh]

end Records

/-! ## The invariant -/

/-- what a stored probe row is -/
def probeRow [Real64 F] (group : List (NetworkProbeRecord F)) : Option (NetworkProbeRecordHourly F) :=
  if group = [] then none else some (upsertProbe group none)

structure Inv [Real64 F] (json : DiskIoJson) (s : State F) : Prop where
  records_le : ∀ r ∈ s.records, r.time ≤ s.clock
  probes_le : ∀ r ∈ s.probes, r.timestamp ≤ s.clock
  firstTick_le : ∀ t, s.firstTick = some t → t ≤ s.clock
  recordsAt_le : ∀ t, s.recordsAt = some t → t ≤ s.clock
  probesAt_le : ∀ t, s.probesAt = some t → t ≤ s.clock
  started : s.firstTick = none → s.recordsAt = none ∧ s.probesAt = none
  /-- a record row is about an hour that is over, and was computed from all of its records -/
  recordRows : ∀ server h row, s.recordsHourly server h = some row →
    h < s.clock / hour ∧ row.metrics = aggregateHourlySql (recordSeries.all s.records server h)
  recordsDone : ∀ server h t, s.After h → s.recordsAt = some t → h < t / hour → recordSeries.all s.records server h ≠ [] →
    s.recordsHourly server h = some (exactRecord json (recordSeries.all s.records server h))
  /-- a probe row covers the records up to some instant, not before the last success -/
  probeRows : ∀ key h, ∃ c ≤ s.clock, (∀ t, s.After h → s.probesAt = some t → t ≤ c) ∧
    (probeSeries.upTo s.probes key h c).length < 2147483648 ∧
    s.probesHourly key h = probeRow (probeSeries.upTo s.probes key h c)

section Steps

variable [Real64 F]

theorem Inv.init (json : DiskIoJson) (clock : ℤ) : Inv json (State.init F clock) where
  records_le _ h := absurd h List.not_mem_nil
  probes_le _ h := absurd h List.not_mem_nil
  firstTick_le _ h := by cases h
  recordsAt_le _ h := by cases h
  probesAt_le _ h := by cases h
  started _ := ⟨rfl, rfl⟩
  recordRows _ _ _ h := by cases h
  recordsDone _ _ _ _ h := by cases h
  probeRows _ _ := ⟨clock, le_rfl, nofun, Nat.zero_lt_succ _, rfl⟩

theorem Inv.start (hi : Inv json s) : Inv json s.start := by
  cases hfirst : s.firstTick with
  | some first =>
    have hsame : s.start = s := by
      unfold State.start
      rw [hfirst]
      cases s
      simp only at hfirst
      rw [hfirst]
      rfl
    rw [hsame]
    exact hi
  | none =>
    obtain ⟨hrecords, hprobes⟩ := hi.started hfirst
    refine { hi with firstTick_le := ?_, started := nofun, recordsDone := ?_, probeRows := ?_ }
    · rintro t ht
      rw [State.start, hfirst] at ht
      exact (Option.some.inj ht).ge
    · intro server h t _ ht
      exact absurd (hrecords.symm.trans ht) nofun
    · intro key h
      obtain ⟨c, hc, -, hfits, hrow⟩ := hi.probeRows key h
      exact ⟨c, hc, fun t _ ht => absurd (hprobes.symm.trans ht) nofun, hfits, hrow⟩

theorem Inv.wait (hi : Inv json s) (d : ℕ) : Inv json { s with clock := s.clock + d } := by
  have hle {t : ℤ} (ht : t ≤ s.clock) : t ≤ s.clock + d := by omega
  refine { hi with
    records_le := fun r hr => hle (hi.records_le r hr), probes_le := fun r hr => hle (hi.probes_le r hr)
    firstTick_le := fun t ht => hle (hi.firstTick_le t ht), recordsAt_le := fun t ht => hle (hi.recordsAt_le t ht)
    probesAt_le := fun t ht => hle (hi.probesAt_le t ht), recordRows := ?_, probeRows := ?_ }
  · intro server h row hrow
    obtain ⟨hold, hmetrics⟩ := hi.recordRows server h row hrow
    exact ⟨hold.trans_le (Int.ediv_le_ediv hour_pos (hle le_rfl)), hmetrics⟩
  · intro key h
    obtain ⟨c, hc, hrest⟩ := hi.probeRows key h
    exact ⟨c, hle hc, hrest⟩

theorem Inv.record (hi : Inv json s) {r : Record F} (hr : r.time = s.clock) :
    Inv json { s with records := s.records ++ [r] } := by
  -- the hour of the clock has no row, and no hour before a success gets a record
  have hsame {h : ℤ} (hh : h < s.clock / hour) (server : String) :
      recordSeries.all (s.records ++ [r]) server h = recordSeries.all s.records server h := by
    refine all_append fun hb => ?_
    have hclock : s.clock / hour = h := hr ▸ hb
    omega
  refine { hi with records_le := ?_, recordRows := ?_, recordsDone := ?_ }
  · intro r' hr'
    rcases List.mem_append.1 hr' with hr' | hr'
    · exact hi.records_le r' hr'
    · rw [List.mem_singleton.1 hr', hr]
  · intro server h row hrow
    obtain ⟨hh, hmetrics⟩ := hi.recordRows server h row hrow
    exact ⟨hh, by rw [hsame hh]; exact hmetrics⟩
  · intro server h t hafter ht hh
    have hlt : h < s.clock / hour := hh.trans_le (Int.ediv_le_ediv hour_pos (hi.recordsAt_le t ht))
    show recordSeries.all (s.records ++ [r]) server h ≠ [] → _
    rw [hsame hlt]
    exact hi.recordsDone server h t hafter ht hh

theorem Inv.probe (hi : Inv json s) {r : NetworkProbeRecord F} (hr : r.timestamp = s.clock) :
    Inv json { s with probes := s.probes ++ [r] } := by
  refine { hi with probes_le := ?_, probeRows := ?_ }
  · intro r' hr'
    rcases List.mem_append.1 hr' with hr' | hr'
    · exact hi.probes_le r' hr'
    · rw [List.mem_singleton.1 hr', hr]
  · intro key h
    obtain ⟨c, hc, hmark, hfits, hrow⟩ := hi.probeRows key h
    refine ⟨c, hc, hmark, ?_⟩
    show (probeSeries.upTo (s.probes ++ [r]) key h c).length < 2147483648 ∧
      s.probesHourly key h = probeRow (probeSeries.upTo (s.probes ++ [r]) key h c)
    rw [upTo_append (hc.trans hr.ge)]
    exact ⟨hfits, hrow⟩

/-- an upsert of the hour before the clock writes rows from all records of the hour -/
theorem Inv.upsertHour (hi : Inv json s) (done : String → Prop) [DecidablePred done] :
    Inv json { s with recordsHourly := upsertHour json done s } := by
  refine { hi with recordRows := ?_, recordsDone := ?_ }
  · intro server h row hrow
    change Rollups.upsertHour json done s server h = some row at hrow
    rw [upsertHour_apply] at hrow
    split_ifs at hrow with hh hdone
    · cases hrow
      exact ⟨by have := hh.1; show h < s.clock / hour; omega, rfl⟩
    · cases hrow
      exact ⟨by have := hh.1; show h < s.clock / hour; omega, rfl⟩
    · exact hi.recordRows server h row hrow
  · intro server h t hafter ht hh hall
    have hold := hi.recordsDone server h t hafter ht hh hall
    show Rollups.upsertHour json done s server h = _
    rw [upsertHour_apply]
    split_ifs with hnow hdone
    · rfl
    · rw [hold]
      rfl
    · exact hold

theorem Inv.aggregateRecords (hi : Inv json s) (outcome : RecordsOutcome) (hguard : outcome = .succeeded → s.Consecutive)
    (hstarted : s.firstTick ≠ none) : Inv json (aggregateRecords json outcome s) := by
  cases outcome with
  | failed => exact hi
  | stopped done => exact hi.upsertHour (· ∈ done)
  | succeeded =>
    have hupsert := hi.upsertHour (fun _ => True)
    refine { hupsert with recordsAt_le := ?_, started := fun hno => absurd hno hstarted, recordsDone := ?_ }
    · intro t ht
      exact (Option.some.inj ht).ge
    · intro server h t hafter ht hh hall
      obtain rfl := Option.some.inj ht
      show Rollups.upsertHour json (fun _ => True) s server h = _
      rw [upsertHour_apply]
      by_cases hnow : h = s.clock / hour - 1
      · rw [if_pos ⟨hnow, hall⟩, if_pos trivial]
        rfl
      · -- the hours before are done, or have no records
        rw [if_neg fun hboth => hnow hboth.1]
        obtain ⟨r, hr⟩ := List.exists_mem_of_ne_nil _ hall
        obtain ⟨hmem, hkey⟩ := List.mem_filter.1 hr
        have hb : recordSeries.bucket r = h := (of_decide_eq_true hkey).2
        by_contra hmissing
        have hconsecutive := hguard rfl r hmem (hb ▸ hafter) fun t ht => by
          by_contra hlt
          exact hmissing (hi.recordsDone server h t hafter ht (by omega) hall)
        change h < s.clock / hour at hh
        omega

/-- where the window does not split it, a group is replaced by all that came before the clock -/
theorem rollProbes_apply (s : State F) (writes : String × String → ℤ → Prop) [∀ key h, Decidable (writes key h)]
    (hsplit : s.NoSplit writes) (key : String × String) (h : ℤ) :
    probeSeries.rollUp s.probes (s.clock - hour) s.clock writes upsertProbe s.probesHourly key h =
      if probeSeries.rolled s.probes (s.clock - hour) s.clock key h ≠ [] ∧ writes key h then
        probeRow (probeSeries.upTo s.probes key h s.clock)
      else s.probesHourly key h := by
  unfold Spec.rollUp
  split_ifs with hwrite
  · obtain ⟨hne, hwrites⟩ := hwrite
    obtain ⟨r', hr'⟩ := List.exists_mem_of_ne_nil _ hne
    obtain ⟨hmem', ⟨rfl, rfl⟩, hge, -⟩ := mem_rolled.1 hr'
    have hall : probeSeries.rolled s.probes (s.clock - hour) s.clock (probeSeries.key r') (probeSeries.bucket r') =
        probeSeries.upTo s.probes (probeSeries.key r') (probeSeries.bucket r') s.clock :=
      rolled_eq_upTo fun r hmem hkey hbucket _ => by
        by_contra hlt
        have hbefore := hsplit r hmem r' hmem' hkey hbucket (by rw [hkey, hbucket]; exact hwrites) (not_le.1 hlt)
        exact absurd hge (not_le.2 hbefore)
    rw [hall] at hne ⊢
    unfold probeRow
    rw [if_neg hne]
    rfl
  · rfl

omit [Real64 F] in
theorem upTo_fits (hcounted : s.Counted) (key : String × String) (h c : ℤ) :
    (probeSeries.upTo s.probes key h c).length < 2147483648 := by
  cases hgroup : probeSeries.upTo s.probes key h c with
  | nil => exact Nat.zero_lt_succ _
  | cons r group =>
    have hr : r ∈ probeSeries.upTo s.probes key h c := hgroup ▸ List.mem_cons_self
    obtain ⟨hmem, ⟨rfl, rfl⟩, -⟩ := mem_upTo.1 hr
    rw [← hgroup]
    refine lt_of_le_of_lt (List.Sublist.length_le ?_) (hcounted r hmem)
    exact List.monotone_filter_right _ fun r' hr' => by
      rw [decide_eq_true_eq] at hr' ⊢
      exact hr'.1

theorem Inv.aggregateProbes (hi : Inv json s) (outcome : ProbesOutcome) (hsplit : s.NoSplit outcome.Writes)
    (hgap : outcome = .succeeded → s.NoGap) (hcounted : s.Counted) (hstarted : s.firstTick ≠ none) :
    Inv json (aggregateProbes outcome s) := by
  cases outcome with
  | stopped done =>
    refine { hi with probeRows := ?_ }
    intro key h
    have happly := rollProbes_apply s (fun key h => (key, h) ∈ done) hsplit key h
    by_cases hwrite : probeSeries.rolled s.probes (s.clock - hour) s.clock key h ≠ [] ∧ (key, h) ∈ done
    · rw [if_pos hwrite] at happly
      exact ⟨s.clock, le_rfl, fun t _ ht => hi.probesAt_le t ht, upTo_fits hcounted key h _, happly⟩
    · rw [if_neg hwrite] at happly
      obtain ⟨c, hc, hmark, hfits, hrow⟩ := hi.probeRows key h
      exact ⟨c, hc, hmark, hfits, happly.trans hrow⟩
  | succeeded =>
    refine { hi with probesAt_le := ?_, started := fun hno => absurd hno hstarted, probeRows := ?_ }
    · intro t ht
      exact (Option.some.inj ht).ge
    · intro key h
      have happly := rollProbes_apply s (fun _ _ => True) hsplit key h
      by_cases hne : probeSeries.rolled s.probes (s.clock - hour) s.clock key h = []
      · rw [if_neg fun hboth => hboth.1 hne] at happly
        obtain ⟨c, hc, hmark, hfits, hrow⟩ := hi.probeRows key h
        by_cases hafter : s.After h
        · -- nothing came since the row was computed
          have hsame : probeSeries.upTo s.probes key h s.clock = probeSeries.upTo s.probes key h c := by
            refine upTo_congr fun r hmem hkey hbucket => ⟨fun hlt => ?_, fun hlt => hlt.trans_le hc⟩
            by_contra hge
            have hlast : ∀ t, s.probesAt = some t → t ≤ r.timestamp := fun t ht => (hmark t hafter ht).trans (not_lt.1 hge)
            have hwindow := hgap rfl r hmem (hbucket ▸ hafter) hlast
            have hr : r ∈ probeSeries.rolled s.probes (s.clock - hour) s.clock key h :=
              mem_rolled.2 ⟨hmem, ⟨hkey, hbucket⟩, hwindow, hlt⟩
            rw [hne] at hr
            cases hr
          refine ⟨s.clock, le_rfl, fun t _ ht => (Option.some.inj ht).ge, upTo_fits hcounted key h _, ?_⟩
          show _ = probeRow (probeSeries.upTo s.probes key h s.clock)
          rw [hsame]
          exact happly.trans hrow
        · exact ⟨c, hc, fun t ha => absurd ha hafter, hfits, happly.trans hrow⟩
      · rw [if_pos ⟨hne, trivial⟩] at happly
        exact ⟨s.clock, le_rfl, fun t _ ht => (Option.some.inj ht).ge, upTo_fits hcounted key h _, happly⟩

omit [Real64 F] in
theorem start_started (s : State F) : s.start.firstTick ≠ none := nofun

/-- what one operation keeps -/
theorem Inv.step (hi : Inv json s) {op : Op F} (hguard : Guarded s op) : Inv json (step json s op) := by
  cases op with
  | wait d => exact hi.wait d
  | record serverId metrics diskIoJson => exact hi.record rfl
  | probe serverId targetId avgLatency minLatency maxLatency packetLoss => exact hi.probe rfl
  | rollRecords outcome =>
    refine hi.start.aggregateRecords outcome ?_ (start_started s)
    rintro rfl
    exact hguard
  | rollProbes outcome =>
    obtain ⟨hsplit, hgap, hcounted⟩ := hguard
    exact hi.start.aggregateProbes outcome hsplit hgap hcounted (start_started s)

end Steps

/-! ## The hourly tables -/

/-- once a roll-up has succeeded after the end of an hour that lies after the first tick, the rows of the hour are exact -/
structure Exact [Real64 F] (json : DiskIoJson) (s : State F) : Prop where
  records : ∀ server h t, s.After h → s.recordsAt = some t → (h + 1) * hour ≤ t →
    recordSeries.all s.records server h ≠ [] →
      s.recordsHourly server h = some (exactRecord json (recordSeries.all s.records server h))
  probes : ∀ key h t, s.After h → s.probesAt = some t → (h + 1) * hour ≤ t → probeSeries.all s.probes key h ≠ [] →
    s.probesHourly key h = some (upsertProbe (probeSeries.all s.probes key h) none) ∧
      (upsertProbe (probeSeries.all s.probes key h) none).sampleCount = (probeSeries.all s.probes key h).length

/-- the rows stay, and cover at least what they covered -/
structure Covers [Real64 F] (s s' : State F) : Prop where
  records : ∀ server h row, s.recordsHourly server h = some row → ∃ row', s'.recordsHourly server h = some row' ∧
    row'.metrics = aggregateHourlySql (recordSeries.all s'.records server h)
  probes : ∀ key h row, s.probesHourly key h = some row →
    ∃ row', s'.probesHourly key h = some row' ∧ row.sampleCount ≤ row'.sampleCount

def Kept [Real64 F] (json : DiskIoJson) (s : State F) (op : Op F) : Prop :=
  Exact json (step json s op) ∧ Covers s (step json s op)

section Runs

variable [Real64 F]

theorem asI32_eq {n : ℕ} (h : n < 2147483648) : asI32 n = n := by
  unfold asI32
  omega

theorem Inv.exact (hi : Inv json s) : Exact json s where
  records server h t hafter ht hend hall := by
    refine hi.recordsDone server h t hafter ht ?_ hall
    have hlt := (Int.le_ediv_iff_mul_le hour_pos).2 hend
    omega
  probes key h t hafter ht hend hall := by
    obtain ⟨c, -, hmark, hfits, hrow⟩ := hi.probeRows key h
    have hcovered : probeSeries.upTo s.probes key h c = probeSeries.all s.probes key h :=
      upTo_eq_all hour_pos (hend.trans (hmark t hafter ht))
    rw [hcovered] at hfits hrow
    unfold probeRow at hrow
    rw [if_neg hall] at hrow
    exact ⟨hrow, asI32_eq hfits⟩

theorem sampleCount_le {group group' : List (NetworkProbeRecord F)} (h : group.Sublist group') (hfits : group.length < 2147483648)
    (hfits' : group'.length < 2147483648) {row : NetworkProbeRecordHourly F} (hrow : probeRow group = some row) :
    ∃ row', probeRow group' = some row' ∧ row.sampleCount ≤ row'.sampleCount := by
  unfold probeRow at hrow ⊢
  split_ifs at hrow with hne
  obtain rfl := Option.some.inj hrow
  have hne' : group' ≠ [] := by
    rintro rfl
    exact hne (List.sublist_nil.1 h)
  rw [if_neg hne']
  refine ⟨_, rfl, ?_⟩
  show asI32 group.length ≤ asI32 group'.length
  rw [asI32_eq hfits, asI32_eq hfits']
  exact_mod_cast h.length_le

theorem Inv.covers_probes (hi : Inv json s) (writes : String × String → ℤ → Prop) [∀ key h, Decidable (writes key h)]
    (hsplit : s.NoSplit writes) (hcounted : s.Counted) {key : String × String} {h : ℤ} {row : NetworkProbeRecordHourly F}
    (hrow : s.probesHourly key h = some row) :
    ∃ row', probeSeries.rollUp s.probes (s.clock - hour) s.clock writes upsertProbe s.probesHourly key h = some row' ∧
      row.sampleCount ≤ row'.sampleCount := by
  rw [rollProbes_apply s writes hsplit]
  split_ifs with hwrite
  · obtain ⟨c, hc, -, hfits, hold⟩ := hi.probeRows key h
    exact sampleCount_le (upTo_sublist hc) hfits (upTo_fits hcounted key h _) (hold.symm.trans hrow)
  · exact ⟨row, hrow, le_rfl⟩

theorem Inv.step_kept (hi : Inv json s) {op : Op F} (hguard : Guarded s op) : Kept json s op := by
  have hnext := hi.step hguard
  refine ⟨hnext.exact, ?_, ?_⟩
  · intro server h row hrow
    have hstays : ∃ row', (Rollups.step json s op).recordsHourly server h = some row' := by
      have hupsert (done : String → Prop) [DecidablePred done] : ∃ row', Rollups.upsertHour json done s.start server h = some row' := by
        rw [upsertHour_apply]
        split_ifs
        · exact ⟨_, rfl⟩
        · exact ⟨_, rfl⟩
        · exact ⟨row, hrow⟩
      cases op with
      | wait d => exact ⟨row, hrow⟩
      | record serverId metrics diskIoJson => exact ⟨row, hrow⟩
      | probe serverId targetId avgLatency minLatency maxLatency packetLoss => exact ⟨row, hrow⟩
      | rollProbes outcome => cases outcome <;> exact ⟨row, hrow⟩
      | rollRecords outcome =>
        cases outcome with
        | failed => exact ⟨row, hrow⟩
        | stopped done => exact hupsert (· ∈ done)
        | succeeded => exact hupsert fun _ => True
    obtain ⟨row', hrow'⟩ := hstays
    exact ⟨row', hrow', (hnext.recordRows server h row' hrow').2⟩
  · intro key h row hrow
    cases op with
    | wait d => exact ⟨row, hrow, le_rfl⟩
    | record serverId metrics diskIoJson => exact ⟨row, hrow, le_rfl⟩
    | probe serverId targetId avgLatency minLatency maxLatency packetLoss => exact ⟨row, hrow, le_rfl⟩
    | rollRecords outcome => cases outcome <;> exact ⟨row, hrow, le_rfl⟩
    | rollProbes outcome =>
      obtain ⟨hsplit, -, hcounted⟩ := hguard
      cases outcome with
      | stopped done => exact hi.start.covers_probes (fun key h => (key, h) ∈ done) hsplit hcounted hrow
      | succeeded => exact hi.start.covers_probes (fun _ _ => True) hsplit hcounted hrow

/-- **Hourly rows.** In a run in which no tick splits the probe records of an hour, no probe record is older than a tick's
window when the last success was before it, and no hour with records passes between two successful record roll-ups, every
tick leaves the rows of the ended hours exact and makes no row cover less -/
theorem hourly_rollups_exact (json : DiskIoJson) (clock : ℤ) (ops : List (Op F))
    (hguard : Along (step json) Guarded (State.init F clock) ops) :
    Along (step json) (Kept json) (State.init F clock) ops :=
  Along.of_invariant (I := Inv json) (fun _ _ hi hg => hi.step hg) (fun _ _ hi hg => hi.step_kept hg)
    (Inv.init json clock) hguard

end Runs

/-! ## Ticks at half past -/

instance : Real64 ℚ where
  ofInt n := n
  avg values := values.sum / values.length
  truncate x := if 0 ≤ x then ⌊x⌋ else ⌈x⌉

def noJson : DiskIoJson := ⟨fun _ => none, fun _ => "[]"⟩

def minutes (n : ℕ) : ℕ := n * 60000000000

def cpuRecord (cpu : ℚ) : Op ℚ := .record "s1" ⟨fun _ => some cpu, fun _ => 0, fun _ => 0⟩ none

def ping (latency : ℚ) : Op ℚ := .probe "s1" "t1" (some latency) (some latency) (some latency) 0

/-- half past eight -/
def halfPast : State ℚ := .init ℚ (minutes 510)

theorem hourly_rollups_exact_second_half :
    Along (step noJson) (Kept noJson) halfPast
      [.rollRecords .succeeded, .rollProbes .succeeded, .wait (minutes 70), cpuRecord 20, ping 10, .wait (minutes 50),
        .rollRecords .succeeded, .rollProbes .succeeded] :=
  hourly_rollups_exact noJson _ _ (by decide +kernel)

/-- records of nine o'clock are seen by the ticks at 9:30 and at 10:30, and the second one replaces the row by its part -/
def regularTicks : List (Op ℚ) :=
  [.rollRecords .succeeded, .rollProbes .succeeded, .wait (minutes 40), ping 10, .wait (minutes 20),
    .rollRecords .succeeded, .rollProbes .succeeded, .wait (minutes 10), ping 30, .wait (minutes 50),
    .rollRecords .succeeded, .rollProbes .succeeded]

/-- the tick at 10:30 fails, and the one at 11:30 reads the hour from ten -/
def failedTick : List (Op ℚ) :=
  [.rollRecords .succeeded, .wait (minutes 40), cpuRecord 20, .wait (minutes 80), .rollRecords .failed,
    .wait (minutes 60), .rollRecords .succeeded]

theorem hourly_rollups_miss_records :
    ((runs (step noJson) halfPast regularTicks).probesHourly ("s1", "t1") 9).map (fun row => (row.avgLatency, row.sampleCount)) =
        some (some 30, 1) ∧
      ¬ Along (step noJson) (Kept noJson) halfPast regularTicks ∧
      ((runs (step noJson) halfPast failedTick).recordsHourly "s1" 9).isNone ∧
      ¬ Along (step noJson) (Kept noJson) halfPast failedTick := by
  have hsplit : ((runs (step noJson) halfPast regularTicks).probesHourly ("s1", "t1") 9).map
      (fun row => (row.avgLatency, row.sampleCount)) = some (some 30, 1) := by decide +kernel
  have hmissing : ((runs (step noJson) halfPast failedTick).recordsHourly "s1" 9).isNone := by decide +kernel
  refine ⟨hsplit, fun h => ?_, hmissing, fun h => ?_⟩
  · obtain ⟨-, -, -, -, -, -, -, -, -, -, -, ⟨hexact, -⟩, -⟩ := h
    have hcount : ((runs (step noJson) halfPast regularTicks).probesHourly ("s1", "t1") 9).map (·.sampleCount) = some 2 := by
      have hrow : (runs (step noJson) halfPast regularTicks).probesHourly ("s1", "t1") 9 =
          some (upsertProbe (probeSeries.all (runs (step noJson) halfPast regularTicks).probes ("s1", "t1") 9) none) :=
        (hexact.probes ("s1", "t1") 9 (minutes 630) (by decide +kernel) rfl (by decide) (by decide +kernel)).1
      rw [hrow]
      decide +kernel
    exact absurd hcount (by decide +kernel)
  · obtain ⟨-, -, -, -, -, -, ⟨hexact, -⟩, -⟩ := h
    have hsome : ((runs (step noJson) halfPast failedTick).recordsHourly "s1" 9).isSome :=
      Option.isSome_of_eq_some
        (hexact.records "s1" 9 (minutes 690) (by decide +kernel) rfl (by decide) (by decide +kernel))
    exact absurd hsome (by decide +kernel)

end ServerBee.Rollups
