/-
The windows of the daily aggregation.

`Steady` says what a clock must do around midnight: it shows 00:00:00 and 23:59:59 of every date, on each date the first
before the second, and 23:59:59 for the last time before the next midnight is shown for the first time, with no whole UTC
hour in between. These are exactly the clocks whose windows take every hour into one local day. A clock that is set forward
over midnight makes the code panic; one that is set back over it puts an hour into two days.
-/
import ServerBee.Cycles.Daily
import ServerBee.Lib.Tiling

namespace ServerBee.Cycles

open ServerBee.Lib ServerBee.Lib.Tiling

variable {tz : TimeZone}

/-- the instants that show a local time -/
def shows (tz : TimeZone) (l : ℤ) : Set ℤ := {u | tz.clock u = l}

/-! ## What the code computes -/

theorem window_eq_some {date start stop : ℤ} :
    window tz date = some (start, stop) ↔
      IsLeast (shows tz (86400 * date)) start ∧ IsGreatest (shows tz (86400 * date + 86399)) stop := by
  have hstart := (tz.reports (86400 * date)).earliest start
  have hstop := (tz.reports (86400 * date + 86399)).latest stop
  unfold window
  cases hs : tz.fromLocal (86400 * date) <;> cases he : tz.fromLocal (86400 * date + 86399) <;> rw [hs] at hstart <;>
    rw [he] at hstop <;> simp_all [LocalResult.earliest, LocalResult.latest, shows]

theorem window_bounds {date start stop : ℤ} (h : window tz date = some (start, stop)) :
    86400 * date - 86400 < start ∧ start < 86400 * date + 86400 ∧ 86400 * date ≤ stop := by
  obtain ⟨hstart, hstop⟩ := window_eq_some.1 h
  have hs : tz.clock start = 86400 * date := hstart.1
  have he : tz.clock stop = 86400 * date + 86399 := hstop.1
  have := tz.bounded start
  have := tz.bounded stop
  omega

theorem get_upsertDaily (daily : Table DailyRow.key) (row : DailyRow) (k : String × ℤ) :
    (upsertDaily daily row).get k = if k = row.key then some row else daily.get k := by
  unfold upsertDaily
  cases h : daily.insert row with
  | some inserted => exact Table.get_insert h
  | none =>
    rw [Table.get_set]
    obtain ⟨old, hold⟩ := Option.isSome_iff_exists.1 (Table.insert_eq_none.1 h)
    split_ifs with hk
    · rw [hk, hold]
      rfl
    · rfl

/-- the hourly rows that are summed into a date -/
def summed (db : Db) (w : ℤ × ℤ) (serverId : String) : List HourlyRow :=
  (db.hourly.rows.filter fun r => r.inWindow w).filter fun r => r.serverId == serverId

theorem get_foldl_upsertDaily (f : String → Bytes) (date : ℤ) (ids : List String) (daily : Table DailyRow.key)
    (k : String × ℤ) :
    ((ids.map fun serverId => DailyRow.mk serverId date (f serverId)).foldl upsertDaily daily).get k =
      if k.1 ∈ ids ∧ k.2 = date then some ⟨k.1, date, f k.1⟩ else daily.get k := by
  induction ids generalizing daily with
  | nil => simp
  | cons id ids ih =>
    rw [List.map_cons, List.foldl_cons, ih, get_upsertDaily]
    by_cases hid : k = (id, date)
    · subst hid
      simp [DailyRow.key]
    · have hkey : k ≠ DailyRow.key ⟨id, date, f id⟩ := hid
      rw [if_neg hkey]
      have hne : ¬ (k.1 = id ∧ k.2 = date) := fun h => hid (Prod.ext h.1 h.2)
      simp only [List.mem_cons, or_and_right, hne, false_or]

/-- **The aggregation of a date** writes, for each server with hours in the window, the sum of these hours, and changes no
other row. -/
theorem aggregateDailyForDate_get {date : ℤ} {db db' : Db} (h : aggregateDailyForDate tz date db = some db') :
    ∃ w, window tz date = some w ∧ db'.hourly = db.hourly ∧ ∀ k, db'.daily.get k =
      if k.2 = date ∧ summed db w k.1 ≠ [] then some ⟨k.1, date, sumHourly (summed db w k.1)⟩ else db.daily.get k := by
  unfold aggregateDailyForDate at h
  cases hw : window tz date with
  | none =>
    rw [hw] at h
    cases h
  | some w =>
    rw [hw] at h
    obtain rfl := Option.some.inj h
    refine ⟨w, rfl, rfl, fun k => ?_⟩
    have hmem : k.1 ∈ ((db.hourly.rows.filter fun r => r.inWindow w).map HourlyRow.serverId).dedup ↔
        summed db w k.1 ≠ [] := by
      rw [List.mem_dedup, List.mem_map, summed, ne_eq, List.filter_eq_nil_iff]
      push Not
      refine exists_congr fun r => and_congr_right fun _ => ?_
      rw [beq_iff_eq]
    have hget := get_foldl_upsertDaily (fun serverId => sumHourly (summed db w serverId)) date
      ((db.hourly.rows.filter fun r => r.inWindow w).map HourlyRow.serverId).dedup db.daily k
    simp only [hmem, and_comm] at hget
    exact hget

/-! ## The condition -/

structure SteadyAt (tz : TimeZone) (date first last next : ℤ) : Prop where
  isFirst : IsLeast (shows tz (86400 * date)) first
  isLast : IsGreatest (shows tz (86400 * date + 86399)) last
  isNext : IsLeast (shows tz (86400 * (date + 1))) next
  day : first ≤ last
  midnight : last < next
  noHour : ∀ bucket, last < 3600 * bucket → ¬ 3600 * bucket < next

def Steady (tz : TimeZone) : Prop := ∀ date, ∃ first last next, SteadyAt tz date first last next

/-- what is asked of the windows -/
structure Partitioned (tz : TimeZone) : Prop where
  computed : ∀ date, ∃ start stop, window tz date = some (start, stop) ∧ start ≤ stop
  disjoint : ∀ date w w', window tz date = some w → window tz (date + 1) = some w' →
    ∀ t, ¬ ((w.1 ≤ t ∧ t ≤ w.2) ∧ w'.1 ≤ t ∧ t ≤ w'.2)
  covered : ∀ row : HourlyRow, ∃! date, ∃ w, window tz date = some w ∧ row.inWindow w = true

theorem inWindow_iff {row : HourlyRow} {w : ℤ × ℤ} : row.inWindow w = true ↔ w.1 ≤ row.hour ∧ row.hour ≤ w.2 := by
  simp [HourlyRow.inWindow]

theorem Steady.partitioned (h : Steady tz) : Partitioned tz := by
  choose first last next hat using h
  have hnext : ∀ date, next date = first (date + 1) := fun date => (hat date).isNext.unique (hat (date + 1)).isFirst
  have hwindow : ∀ date, window tz date = some (first date, last date) := fun date =>
    window_eq_some.2 ⟨(hat date).isFirst, (hat date).isLast⟩
  have hmono : StrictMono first := strictMono_int_of_lt_succ fun date => by
    have hday := (hat date).day
    have hmidnight := (hat date).midnight
    rw [hnext] at hmidnight
    omega
  have htile : ∀ (date : ℤ) (row : HourlyRow), row.inWindow (first date, last date) = true ↔ InTile first date row.hour := by
    intro date row
    have hmidnight := (hat date).midnight
    have hno := (hat date).noHour row.bucket
    rw [hnext] at hmidnight hno
    rw [inWindow_iff]
    unfold InTile HourlyRow.hour
    constructor
    · intro hin
      omega
    · intro hin
      exact ⟨hin.1, by by_contra hlt; exact hno (by omega) hin.2⟩
  constructor
  · exact fun date => ⟨first date, last date, hwindow date, (hat date).day⟩
  · intro date w w' hw hw' t ht
    have hmidnight := (hat date).midnight
    rw [hwindow] at hw hw'
    obtain rfl := Option.some.inj hw
    obtain rfl := Option.some.inj hw'
    rw [hnext] at hmidnight
    have := ht.1.2
    have := ht.2.1
    omega
  · intro row
    obtain ⟨date, hdate⟩ := exists_tile hmono row.hour
    refine ⟨date, ⟨_, hwindow date, (htile date row).2 hdate⟩, ?_⟩
    rintro other ⟨w, hw, hin⟩
    rw [hwindow] at hw
    obtain rfl := Option.some.inj hw
    exact ((htile other row).1 hin).unique hmono hdate

theorem Partitioned.steady (h : Partitioned tz) : Steady tz := by
  choose first last hwindow hday using h.computed
  have hmidnight : ∀ date, last date < first (date + 1) := by
    intro date
    by_contra hle
    -- both windows hold the later of their starts
    have hb := window_bounds (hwindow date)
    have hb' := window_bounds (hwindow (date + 1))
    have hd := hday date
    have hd' := hday (date + 1)
    refine h.disjoint date _ _ (hwindow date) (hwindow (date + 1)) (max (first date) (first (date + 1))) ?_
    simp only [le_max_left, le_max_right, max_le_iff, true_and]
    omega
  have hmono : StrictMono first := strictMono_int_of_lt_succ fun date => (hday date).trans_lt (hmidnight date)
  intro date
  obtain ⟨hfirst, hlast⟩ := window_eq_some.1 (hwindow date)
  refine ⟨first date, last date, first (date + 1), hfirst, hlast, (window_eq_some.1 (hwindow (date + 1))).1, hday date,
    hmidnight date, fun bucket hafter hbefore => ?_⟩
  obtain ⟨other, ⟨w, hw, hin⟩, -⟩ := h.covered ⟨"", bucket, 0, 0⟩
  rw [hwindow] at hw
  obtain rfl := Option.some.inj hw
  rw [inWindow_iff] at hin
  have hhour : HourlyRow.hour ⟨"", bucket, 0, 0⟩ = 3600 * bucket := rfl
  rw [hhour] at hin
  -- an hour of an earlier date ends too early, and one of a later date begins too late
  rcases lt_trichotomy other date with hlt | rfl | hlt
  · have hle := hmono.monotone (show other + 1 ≤ date by omega)
    have := hmidnight other
    have := hday date
    omega
  · omega
  · have := hmono.monotone (show date + 1 ≤ other by omega)
    omega

/-- **The daily aggregation partitions the hours** exactly in the time zones whose clock is steady around midnight. -/
theorem partitioned_iff_steady (tz : TimeZone) : Partitioned tz ↔ Steady tz := ⟨Partitioned.steady, Steady.partitioned⟩

/-! ## Two clocks -/

/-- set forward by an hour at the start of day 0 -/
def springForward : TimeZone where
  clock u := if u < 0 then u else u + 3600
  fromLocal l := if l < 0 then .single l else if l < 3600 then .none else .single (l - 3600)
  bounded u := by split_ifs <;> omega
  reports l := by
    split_ifs
    · ext u
      simp only [Set.mem_ofPred_eq, Set.mem_singleton_iff]
      split_ifs <;> omega
    · ext u
      simp only [Set.mem_ofPred_eq, Set.mem_empty_iff_false, iff_false]
      split_ifs <;> omega
    · ext u
      simp only [Set.mem_ofPred_eq, Set.mem_singleton_iff]
      split_ifs <;> omega

/-- 2:30 behind until one minute past the midnight of day 0, set back by an hour then -/
def fallBack : TimeZone where
  clock u := if u < 9060 then u - 9000 else u - 12600
  fromLocal l :=
    if l < -3540 then .single (l + 9000) else if l < 60 then .ambiguous (l + 9000) (l + 12600) else .single (l + 12600)
  bounded u := by split_ifs <;> omega
  reports l := by
    split_ifs
    · ext u
      simp only [Set.mem_ofPred_eq, Set.mem_singleton_iff]
      split_ifs <;> omega
    · refine ⟨by omega, ⟨?_, fun u hu => ?_⟩, ⟨?_, fun u hu => ?_⟩⟩
      · simp only [Set.mem_ofPred_eq]
        split_ifs <;> omega
      · simp only [Set.mem_ofPred_eq] at hu
        split_ifs at hu <;> omega
      · simp only [Set.mem_ofPred_eq]
        split_ifs <;> omega
      · simp only [Set.mem_ofPred_eq] at hu
        split_ifs at hu <;> omega
    · ext u
      simp only [Set.mem_ofPred_eq, Set.mem_singleton_iff]
      split_ifs <;> omega

/-- the first clock has no window for day 0; the second puts the hour of 03:00 UTC into two days -/
theorem windows_fail :
    (window springForward 0 = none ∧ window fallBack (-1) = some (-77400, 12599) ∧ window fallBack 0 = some (9000, 98999)) ∧
      ¬ ∀ tz : TimeZone, Partitioned tz := by
  have hnone : window springForward 0 = none := by decide
  refine ⟨⟨hnone, by decide, by decide⟩, fun h => ?_⟩
  obtain ⟨start, stop, hsome, -⟩ := (h springForward).computed 0
  rw [hnone] at hsome
  cases hsome

end ServerBee.Cycles
