/-
When the daily rows account for the whole day.

A row is computed at a run of its day, from what lies before that run, and never again (`rowsAfter_eq`). So no row ever has
1440 minutes (`total_lt`), what comes after the last run of a day is in no row, and neither is a gap over midnight. A record
counts as a minute, while of the time only whole minutes count: a row has more minutes online than minutes exactly if less
than a minute is idle (`online_le_iff`). `accounts_iff` puts this together.
-/
import ServerBee.Uptime.Model

namespace ServerBee.Uptime

/-! ## Minutes -/

theorem dayStart_le (now : ℤ) : dateNaive now * day ≤ now := Int.ediv_mul_le now (by decide)

theorem lt_dayEnd (now : ℤ) : now < dateNaive now * day + day := by
  have h := Int.lt_ediv_add_one_mul_self now (show 0 < day by decide)
  rwa [add_mul, one_mul] at h

theorem total_pos (records : List ℤ) (now : ℤ) : 1 ≤ (rowAt records now).totalMinutes := le_max_right _ _

/-- a run of the day is before its end -/
theorem total_lt (records : List ℤ) (now : ℤ) : (rowAt records now).totalMinutes < 1440 := by
  have hend := lt_dayEnd now
  have hminutes : numMinutes (now - dateNaive now * day) < 1440 := by
    apply Int.ediv_lt_of_lt_mul (by decide)
    change now - dateNaive now * day < day
    omega
  exact max_lt hminutes (by decide)

/-- the time after a record that is not its minute, until the next record or the end -/
def idleAfter (dayEnd : ℤ) : ℤ → List ℤ → ℤ
  | prev, [] => dayEnd - prev
  | prev, time :: rows => time - prev - minute + idleAfter dayEnd time rows

/-- the time before the first record, beyond a minute between records, and after the last one -/
def idle (dayStart dayEnd : ℤ) : List ℤ → ℤ
  | [] => dayEnd - dayStart
  | time :: rows => time - dayStart + idleAfter dayEnd time rows

theorem idleAfter_eq (dayEnd prev : ℤ) (rows : List ℤ) : idleAfter dayEnd prev rows = dayEnd - prev - rows.length * minute := by
  induction rows generalizing prev with
  | nil => simp [idleAfter]
  | cons time rows ih =>
    rw [idleAfter, ih, List.length_cons]
    push_cast
    ring

theorem online_le_iff (records : List ℤ) (now : ℤ) :
    (rowAt records now).onlineMinutes ≤ (rowAt records now).totalMinutes ↔
      (2 ≤ (between records (dateNaive now * day) now).length →
        minute ≤ idle (dateNaive now * day) now (between records (dateNaive now * day) now)) := by
  simp only [rowAt]
  generalize between records (dateNaive now * day) now = rows
  cases rows with
  | nil => simp
  | cons time rows =>
    have hidle : idle (dateNaive now * day) now (time :: rows) = now - dateNaive now * day - rows.length * minute := by
      rw [idle, idleAfter_eq]
      ring
    have hminutes : ((rows.length + 1 : ℕ) : ℤ) ≤ numMinutes (now - dateNaive now * day) ↔
        minute ≤ now - dateNaive now * day - rows.length * minute := by
      rw [numMinutes, Int.le_ediv_iff_mul_le (by decide : 0 < minute)]
      push_cast
      constructor <;> intro h <;> linarith
    rw [List.length_cons, hidle, le_max_iff, hminutes]
    constructor
    · rintro (h | h) htwo
      · exact h
      · omega
    · intro h
      by_cases htwo : 2 ≤ rows.length + 1
      · exact Or.inl (h htwo)
      · right
        omega

/-! ## Gaps -/

/-- the neighbours in a list -/
def gaps (rows : List ℤ) : List (ℤ × ℤ) := rows.zip rows.tail

/-- longer than two minutes, in whole seconds -/
def isIncident (g : ℤ × ℤ) : Bool := decide (numSeconds (g.2 - g.1) > 120)

theorem countGaps_eq (incidents prev : ℤ) (rows : List ℤ) :
    countGaps incidents (some prev) rows = incidents + ((gaps (prev :: rows)).filter isIncident).length := by
  induction rows generalizing incidents prev with
  | nil => simp [countGaps, gaps]
  | cons time rows ih =>
    have hgaps : gaps (prev :: time :: rows) = (prev, time) :: gaps (time :: rows) := rfl
    rw [countGaps, hgaps, List.filter_cons]
    by_cases hlong : numSeconds (time - prev) > 120
    · have hin : isIncident (prev, time) = true := decide_eq_true hlong
      rw [if_pos hlong, if_pos hin, ih, List.length_cons]
      push_cast
      ring
    · rw [if_neg hlong, if_neg (by simpa [isIncident] using hlong), ih]

/-- the gaps that a run counts -/
def incidentsAt (records : List ℤ) (now : ℤ) : List (ℤ × ℤ) :=
  (gaps (between records (dateNaive now * day) now)).filter isIncident

theorem downtimeIncidents_eq (records : List ℤ) (now : ℤ) :
    (rowAt records now).downtimeIncidents = (incidentsAt records now).length := by
  simp only [rowAt, countDowntimeIncidents, incidentsAt]
  generalize between records (dateNaive now * day) now = rows
  match rows with
  | [] => rfl
  | [_] => rfl
  | prev :: time :: rows =>
    rw [if_neg (by simp), countGaps, countGaps_eq, zero_add]

/-- neighbours that are both kept stay neighbours -/
theorem gaps_filter {p : ℤ → Bool} {rows : List ℤ} {g : ℤ × ℤ} (h : g ∈ gaps rows) (hfst : p g.1 = true) (hsnd : p g.2 = true) :
    g ∈ gaps (rows.filter p) := by
  induction rows with
  | nil => cases h
  | cons prev rows ih =>
    cases rows with
    | nil => cases h
    | cons time rows =>
      have hgaps : gaps (prev :: time :: rows) = (prev, time) :: gaps (time :: rows) := rfl
      rw [hgaps] at h
      rcases List.mem_cons.1 h with rfl | h
      · rw [List.filter_cons_of_pos hfst, List.filter_cons_of_pos hsnd]
        exact List.mem_cons_self
      · have hrest := ih h
        by_cases hprev : p prev = true
        · rw [List.filter_cons_of_pos hprev]
          cases hcase : (time :: rows).filter p with
          | nil =>
            rw [hcase] at hrest
            cases hrest
          | cons first others =>
            rw [hcase] at hrest
            exact List.mem_cons_of_mem _ hrest
        · rwa [List.filter_cons_of_neg hprev]

/-! ## Days -/

/-- the records of a server -/
structure Timeline where
  records : List ℤ
  spaced : records.IsChain fun t t' => t + minute ≤ t'

structure Runs where
  runs : List ℤ
  hourly : runs.IsChain fun n n' => n ≤ n' ∧ n' ≤ n + 60 * minute

variable {ι : Type} [DecidableEq ι] (servers : List ι) (timelines : ι → Timeline)

/-- the table after these runs -/
def table (runs : List ℤ) : Rows ι := rowsAfter servers (fun srv => (timelines srv).records) runs

/-- a gap that lies between the start of the first day and the last run -/
def Observed (records runs : List ℤ) (g : ℤ × ℤ) : Prop :=
  g ∈ gaps records ∧ (∀ first ∈ runs.head?, dateNaive first * day ≤ g.1) ∧ ∃ last ∈ runs.getLast?, g.2 < last

/-- the rows of a server account for whole days -/
structure Accounts (srv : ι) (runs : List ℤ) : Prop where
  bounds : ∀ pre, pre <+: runs → ∀ date row, table servers timelines pre srv date = some row →
    0 ≤ row.onlineMinutes ∧ row.onlineMinutes ≤ row.totalMinutes ∧ row.totalMinutes ≤ 1440
  whole : ∀ pre, pre <+: runs → ∀ first ∈ pre.head?, ∀ last ∈ pre.getLast?, ∀ date, dateNaive first ≤ date →
    date < dateNaive last → ∃ row, table servers timelines pre srv date = some row ∧
      row.onlineMinutes = (between (timelines srv).records (date * day) (date * day + day)).length ∧ row.totalMinutes = 1440
  incidents : ∀ g, Observed (timelines srv).records runs g → 2 * minute < g.2 - g.1 →
    ∃! date, ∃ now ∈ lastRun runs date, g ∈ incidentsAt (timelines srv).records now

/-- all runs are on one day, leave a minute idle and meet no gap in the third minute's first second -/
structure Steady (records runs : List ℤ) : Prop where
  oneDay : ∀ first ∈ runs.head?, ∀ now ∈ runs, dateNaive now = dateNaive first
  idle : ∀ now ∈ runs, 2 ≤ (between records (dateNaive now * day) now).length →
    minute ≤ idle (dateNaive now * day) now (between records (dateNaive now * day) now)
  seconds : ∀ g, Observed records runs g → 2 * minute < g.2 - g.1 → 121 * second ≤ g.2 - g.1

theorem Runs.sorted (runs : Runs) : runs.runs.Pairwise (· ≤ ·) :=
  List.isChain_iff_pairwise.1 (runs.hourly.imp fun _ _ h => h.1)

theorem isIncident_iff {g : ℤ × ℤ} : isIncident g = true ↔ 121 * second ≤ g.2 - g.1 := by
  rw [isIncident, decide_eq_true_eq, gt_iff_lt, ← Int.add_one_le_iff, numSeconds, Int.le_ediv_iff_mul_le (by decide : 0 < second)]
  rfl

theorem dateNaive_mono {t t' : ℤ} (h : t ≤ t') : dateNaive t ≤ dateNaive t' := Int.ediv_le_ediv (by decide) h

/-- the runs up to one of them -/
theorem exists_prefix {runs : List ℤ} {first now : ℤ} (hfirst : first ∈ runs.head?) (hnow : now ∈ runs) :
    ∃ pre, pre <+: runs ∧ first ∈ pre.head? ∧ now ∈ pre.getLast? ∧ lastRun pre (dateNaive now) = some now := by
  obtain ⟨before, after, rfl⟩ := List.append_of_mem hnow
  refine ⟨before ++ [now], ⟨after, by simp⟩, ?_, by simp, by simp [lastRun]⟩
  cases before with
  | nil => exact hfirst
  | cons _ _ => exact hfirst

variable {servers}

/-- **Uptime rows.** The rows of a server account for whole days exactly if no run is on a later day than the first one, each
run leaves a minute of the day idle, and no gap between two and three minutes is too short for its whole seconds. -/
theorem accounts_iff (srv : {srv // srv ∈ servers}) (runs : Runs) :
    Accounts servers timelines srv runs.runs ↔ Steady (timelines srv).records runs.runs := by
  have hrow : ∀ pre date, table servers timelines pre srv date =
      (lastRun pre date).map (rowAt (timelines srv).records) := fun pre date => rowsAfter_eq srv.2 _ pre date
  constructor
  · intro h
    refine ⟨?_, ?_, ?_⟩
    · -- the row of the first day would have to have 1440 minutes
      intro first hfirst now hnow
      by_contra hne
      obtain ⟨pre, hpre, hfirst', hlast, -⟩ := exists_prefix hfirst hnow
      have hle : first ≤ now := by
        obtain ⟨rest, hrest⟩ := List.head?_eq_some_iff.1 hfirst
        have hsorted := runs.sorted
        rw [hrest] at hnow hsorted
        rcases List.mem_cons.1 hnow with rfl | hmem
        · exact le_rfl
        · exact (List.pairwise_cons.1 hsorted).1 now hmem
      have hlt : dateNaive first < dateNaive now := lt_of_le_of_ne (dateNaive_mono hle) (Ne.symm hne)
      obtain ⟨row, hstored, -, htotal⟩ := h.whole pre hpre first hfirst' now hlast (dateNaive first) le_rfl hlt
      rw [hrow] at hstored
      obtain ⟨run, -, rfl⟩ := Option.map_eq_some_iff.1 hstored
      exact absurd htotal (total_lt _ run).ne
    · intro now hnow
      obtain ⟨first, hfirst⟩ : ∃ first, first ∈ runs.runs.head? := by
        cases hcase : runs.runs with
        | nil =>
          rw [hcase] at hnow
          cases hnow
        | cons first rest => exact ⟨first, rfl⟩
      obtain ⟨pre, hpre, -, -, hlast⟩ := exists_prefix hfirst hnow
      have hstored : table servers timelines pre srv (dateNaive now) = some (rowAt (timelines srv).records now) := by
        rw [hrow, hlast]
        rfl
      exact (online_le_iff _ now).1 (h.bounds pre hpre _ _ hstored).2.1
    · intro g hg hlong
      obtain ⟨date, ⟨now, -, hin⟩, -⟩ := h.incidents g hg hlong
      exact isIncident_iff.1 (List.mem_filter.1 hin).2
  · intro h
    refine ⟨?_, ?_, ?_⟩
    · intro pre hpre date row hstored
      rw [hrow] at hstored
      obtain ⟨now, hnow, rfl⟩ := Option.map_eq_some_iff.1 hstored
      obtain ⟨hmem, -⟩ := lastRun_mem hnow
      refine ⟨Int.natCast_nonneg _, ?_, (total_lt _ now).le⟩
      exact (online_le_iff _ now).2 (h.idle now (hpre.subset hmem))
    · intro pre hpre first hfirst last hlast date hdate hdate'
      have hfirst' : first ∈ runs.runs.head? := by
        obtain ⟨rest, rfl⟩ := List.head?_eq_some_iff.1 hfirst
        obtain ⟨after, hafter⟩ := hpre
        rw [← hafter]
        rfl
      have hsame := h.oneDay first hfirst' last (hpre.subset (List.mem_of_getLast? hlast))
      omega
    · intro g hg hlong
      obtain ⟨hgap, hstart, last, hlast, hend⟩ := id hg
      obtain ⟨first, rest, hruns⟩ := List.exists_cons_of_ne_nil (List.ne_nil_of_mem (List.mem_of_getLast? hlast))
      have hfirst : first ∈ runs.runs.head? := by
        rw [hruns]
        rfl
      have hday : ∀ now ∈ runs.runs, dateNaive now = dateNaive first := h.oneDay first hfirst
      have hlastDay := hday last (List.mem_of_getLast? hlast)
      refine ⟨dateNaive first, ⟨last, ?_, ?_⟩, ?_⟩
      · have hall : runs.runs.filter (fun n => decide (dateNaive n = dateNaive first)) = runs.runs :=
          List.filter_eq_self.2 fun n hn => decide_eq_true (hday n hn)
        rw [lastRun, hall]
        exact hlast
      · have hbegin := hstart first hfirst
        have hminute : 0 < 2 * minute := by decide
        refine List.mem_filter.2 ⟨gaps_filter hgap ?_ ?_, isIncident_iff.2 (h.seconds g hg hlong)⟩
        · rw [hlastDay, Bool.and_eq_true, decide_eq_true_eq, decide_eq_true_eq]
          omega
        · rw [hlastDay, Bool.and_eq_true, decide_eq_true_eq, decide_eq_true_eq]
          omega
      · rintro date ⟨now, hnow, -⟩
        obtain ⟨hmem, rfl⟩ := lastRun_mem hnow
        exact hday now hmem

/-- two records and a run in the second minute: two minutes online of one; and runs at 23:30 and 00:30 over records at 23:45
and 00:15: the first day stays at 1410 minutes and no record, and neither day counts the gap of half an hour -/
theorem uptime_rows_fail :
    rowsAfter [()] (fun _ => [10 * second, 70 * second]) [90 * second] () 0 = some ⟨1, 2, 0⟩ ∧
    rowsAfter [()] (fun _ => [85500 * second, 87300 * second]) [84600 * second, 88200 * second] () 0 = some ⟨1410, 0, 0⟩ ∧
    rowsAfter [()] (fun _ => [85500 * second, 87300 * second]) [84600 * second, 88200 * second] () 1 = some ⟨30, 1, 0⟩ := by
  decide +kernel

end ServerBee.Uptime
