/-
What the totals of billing cycles count.

An hour is aggregated when a daily row of its server is dated on the local day that it falls into. The total of a cycle
should be its daily rows, and in the cycle of today the hours of today that are not aggregated yet. The code decides by the
UTC date alone: it adds all hours of the UTC day unless there is a daily row of that date, and it adds them to every cycle.
`Reconciled` says when that comes to the same; a history of cycles that are all reconciled counts no byte twice.
-/
import ServerBee.Cycles.Tiling
import ServerBee.Cycles.Windows

namespace ServerBee.Cycles

open ServerBee.Lib ServerBee.Lib.Calendar ServerBee.Lib.Tiling

/-! ## The intended totals -/

/-- the hour falls into a local day that has a daily row -/
def aggregated (tz : TimeZone) (db : Db) (h : HourlyRow) : Bool :=
  db.daily.rows.any fun d => d.serverId == h.serverId && (window tz d.date).any fun w => h.inWindow w

/-- the hours of a server on a UTC date -/
def hoursOn (db : Db) (serverId : String) (date : ℤ) : List HourlyRow :=
  db.hourly.rows.filter fun h => h.serverId == serverId && h.utcDate == date

/-- the bytes of today that are not aggregated yet -/
def freshToday (tz : TimeZone) (db : Db) (serverId : String) (today : ℤ) : Bytes :=
  sumHourly ((hoursOn db serverId today).filter fun h => !aggregated tz db h)

/-- the bytes of today that are -/
def doneToday (tz : TimeZone) (db : Db) (serverId : String) (today : ℤ) : Bytes :=
  sumHourly ((hoursOn db serverId today).filter fun h => aggregated tz db h)

def hasRow (db : Db) (serverId : String) (date : ℤ) : Bool :=
  db.daily.rows.any fun d => d.serverId == serverId && d.date == date

/-- the daily rows and the hours that are not aggregated yet -/
def recorded (tz : TimeZone) (db : Db) (serverId : String) : Bytes :=
  sumDaily (db.daily.rows.filter fun d => d.serverId == serverId) +
    sumHourly (db.hourly.rows.filter fun h => h.serverId == serverId && !aggregated tz db h)

def CycleExact (tz : TimeZone) (db : Db) (serverId : String) (today first last : ℤ) : Prop :=
  queryCycleTraffic db serverId today first last =
    dailyTotal db serverId first last + if first ≤ today ∧ today ≤ last then freshToday tz db serverId today else 0

/-- in a cycle that holds today, an existing row of today leaves nothing fresh, and a missing one nothing aggregated;
in any other cycle there is a row of today, or no traffic -/
structure Reconciled (tz : TimeZone) (db : Db) (serverId : String) (today first last : ℤ) : Prop where
  complete : first ≤ today ∧ today ≤ last → hasRow db serverId today = true → freshToday tz db serverId today = 0
  absent : first ≤ today ∧ today ≤ last → hasRow db serverId today = false → doneToday tz db serverId today = 0
  other : ¬ (first ≤ today ∧ today ≤ last) → hasRow db serverId today = false →
    sumHourly (hoursOn db serverId today) = 0

/-! ## Sums -/

section Sums

variable {α β : Type}

theorem bytes_le_add (x y : Bytes) : x ≤ x + y := ⟨Nat.le_add_right _ _, Nat.le_add_right _ _⟩

theorem bytes_add_le {x x' y y' : Bytes} (hx : x ≤ x') (hy : y ≤ y') : x + y ≤ x' + y' :=
  ⟨Nat.add_le_add hx.1 hy.1, Nat.add_le_add hx.2 hy.2⟩

theorem sum_filter_add (f : α → Bytes) (p : α → Bool) (l : List α) :
    ((l.filter p).map f).sum + ((l.filter fun a => !p a).map f).sum = (l.map f).sum := by
  induction l with
  | nil => rfl
  | cons a l ih =>
    rw [List.map_cons, List.sum_cons, ← ih]
    cases hp : p a with
    | true =>
      simp only [List.filter_cons, hp, Bool.not_true, if_true, Bool.false_eq_true, if_false, List.map_cons, List.sum_cons]
      exact add_assoc _ _ _
    | false =>
      simp only [List.filter_cons, hp, Bool.not_false, if_true, Bool.false_eq_true, if_false, List.map_cons, List.sum_cons]
      exact add_left_comm _ _ _

theorem sum_filter_le (f : α → Bytes) (p : α → Bool) (l : List α) : ((l.filter p).map f).sum ≤ (l.map f).sum := by
  rw [← sum_filter_add f p l]
  exact bytes_le_add _ _

theorem sum_if (q : β → Prop) [DecidablePred q] (x : Bytes) (bs : List β) :
    (bs.map fun b => if q b then x else 0).sum = bs.countP q • x := by
  induction bs with
  | nil => simp
  | cons b bs ih =>
    rw [List.map_cons, List.sum_cons, ih, List.countP_cons]
    by_cases hb : q b
    · simp [hb, add_smul, add_comm]
    · simp [hb]

theorem sum_if_le {q : β → Prop} [DecidablePred q] (x : Bytes) {bs : List β} (h : bs.countP q ≤ 1) :
    (bs.map fun b => if q b then x else 0).sum ≤ x := by
  rw [sum_if]
  rcases Nat.le_one_iff_eq_zero_or_eq_one.1 h with h0 | h1
  · rw [h0, zero_smul]
    exact ⟨Nat.zero_le _, Nat.zero_le _⟩
  · rw [h1, one_smul]

/-- selections of which no element is in two add up to at most the whole -/
theorem sum_selections_le (f : α → Bytes) (p : β → α → Bool) (bs : List β) (l : List α)
    (h : ∀ a ∈ l, bs.countP (fun b => p b a) ≤ 1) :
    (bs.map fun b => ((l.filter (p b)).map f).sum).sum ≤ (l.map f).sum := by
  induction l with
  | nil => simp
  | cons a l ih =>
    have hsplit : (fun b => (((a :: l).filter (p b)).map f).sum) =
        fun b => (if p b a = true then f a else 0) + ((l.filter (p b)).map f).sum := by
      funext b
      cases hb : p b a <;> simp [hb]
    rw [hsplit, List.sum_map_add, List.map_cons, List.sum_cons]
    refine bytes_add_le (sum_if_le (f a) ?_) (ih fun a' ha' => h a' (List.mem_cons_of_mem a ha'))
    simpa using h a List.mem_cons_self

theorem countP_le_one {q : β → Bool} {bs : List β} (h : bs.Pairwise fun b b' => ¬ (q b = true ∧ q b' = true)) :
    bs.countP q ≤ 1 := by
  induction h with
  | nil => simp
  | @cons b bs hb _ ih =>
    rw [List.countP_cons]
    cases hq : q b with
    | false => simpa using ih
    | true =>
      have hzero : bs.countP q = 0 := List.countP_eq_zero.2 fun b' hb' hq' => hb b' hb' ⟨hq, hq'⟩
      simp [hzero]

end Sums

/-! ## One cycle -/

variable {tz : TimeZone} {db : Db} {serverId : String} {today : ℤ}

/-- what the code adds to each cycle -/
theorem supplement_eq : supplement db serverId today =
    if hasRow db serverId today = true then 0 else sumHourly (hoursOn db serverId today) := by
  have hrow : ∀ h : HourlyRow, h.serverId = serverId →
      (db.daily.rows.any fun d => d.serverId == h.serverId && d.date == today) = hasRow db serverId today := by
    rintro h rfl
    rfl
  unfold supplement hoursOn
  split_ifs with hhas
  · have hnone : (db.hourly.rows.filter fun h => h.serverId == serverId && h.utcDate == today &&
        !db.daily.rows.any fun d => d.serverId == h.serverId && d.date == today) = [] := by
      rw [List.filter_eq_nil_iff]
      intro h _
      rw [Bool.and_eq_true, Bool.and_eq_true, beq_iff_eq]
      rintro ⟨⟨hserver, -⟩, hno⟩
      rw [hrow h hserver, hhas] at hno
      cases hno
    rw [hnone]
    rfl
  · congr 1
    refine List.filter_congr fun h _ => ?_
    by_cases hserver : h.serverId = serverId
    · rw [hrow h hserver, Bool.eq_false_iff.2 hhas, Bool.not_false, Bool.and_true]
    · simp [hserver]

theorem done_add_fresh : doneToday tz db serverId today + freshToday tz db serverId today =
    sumHourly (hoursOn db serverId today) :=
  sum_filter_add HourlyRow.bytes (fun h => aggregated tz db h) _

/-- the code's total of a range is the intended one exactly when the range is reconciled -/
theorem cycleExact_iff {first last : ℤ} :
    CycleExact tz db serverId today first last ↔ Reconciled tz db serverId today first last := by
  have hadd : doneToday tz db serverId today + freshToday tz db serverId today = _ := done_add_fresh
  unfold CycleExact queryCycleTraffic
  rw [add_right_inj, supplement_eq]
  constructor
  · intro h
    constructor
    · intro hin hrow
      rw [if_pos hrow, if_pos hin] at h
      exact h.symm
    · intro hin hrow
      rw [if_neg (by simp [hrow]), if_pos hin, ← hadd] at h
      exact add_eq_right.1 h
    · intro hout hrow
      rwa [if_neg (by simp [hrow]), if_neg hout] at h
  · intro h
    cases hrow : hasRow db serverId today with
    | true =>
      rw [if_pos rfl]
      split_ifs with hin
      · exact (h.complete hin hrow).symm
      · rfl
    | false =>
      rw [if_neg (by simp)]
      split_ifs with hin
      · rw [← hadd, h.absent hin hrow, zero_add]
      · exact h.other hin hrow

/-! ## A history of cycles -/

theorem historyBack_eq (db : Db) (serverId billingCycle : String) (billingStartDay : Option ℤ) (today : Date) (count : ℕ)
    (r : Date × Date) :
    historyBack db serverId billingCycle billingStartDay today count r =
      (cyclesBack billingCycle billingStartDay count r).map (List.map fun r =>
        ⟨r.1, r.2, queryCycleTraffic db serverId today.dayNumber r.1.dayNumber r.2.dayNumber⟩) := by
  induction count generalizing r with
  | zero => rfl
  | succ count ih =>
    obtain ⟨first, last⟩ := r
    unfold historyBack cyclesBack
    cases hprev : addDays first (-1) with
    | none => rfl
    | some prevDay =>
      cases hrange : getCycleRange billingCycle billingStartDay prevDay with
      | none => simp [hrange]
      | some prev =>
        simp only [Option.bind_eq_bind, Option.bind_some, hrange, ih, Option.pure_def]
        cases cyclesBack billingCycle billingStartDay count prev <;> rfl

theorem cycleHistory_eq (db : Db) (serverId billingCycle : String) (billingStartDay : Option ℤ) (today : Date) (count : ℕ) :
    cycleHistory db serverId billingCycle billingStartDay today count =
      (historyRanges billingCycle billingStartDay today count).map (List.map fun r =>
        ⟨r.1, r.2, queryCycleTraffic db serverId today.dayNumber r.1.dayNumber r.2.dayNumber⟩) := by
  unfold cycleHistory historyRanges
  cases getCycleRange billingCycle billingStartDay today with
  | none => rfl
  | some r => exact historyBack_eq db serverId billingCycle billingStartDay today count r

/-- no date lies in two cycles of a history -/
theorem tilesBack_disjoint (billingCycle : String) (billingStartDay : Option ℤ) (i : ℤ) (count : ℕ) (n : ℤ) :
    (tilesBack billingCycle billingStartDay i count).countP
      (fun r => decide (r.1.dayNumber ≤ n) && decide (n ≤ r.2.dayNumber)) ≤ 1 := by
  have hmono := boundary_strictMono (periodMonths_pos billingCycle) (anchorOf billingStartDay)
  refine countP_le_one ?_
  unfold tilesBack
  rw [List.pairwise_map]
  refine List.pairwise_lt_range.imp fun {j j'} hlt => ?_
  simp only [Bool.and_eq_true, decide_eq_true_eq, cycleDates_fst, cycleDates_snd]
  have hle := hmono.monotone (show i - (j' : ℤ) + 1 ≤ i - j by omega)
  omega

theorem freshToday_le (tz : TimeZone) (db : Db) (serverId : String) (today : ℤ) :
    freshToday tz db serverId today ≤
      sumHourly (db.hourly.rows.filter fun h => h.serverId == serverId && !aggregated tz db h) := by
  have hsplit : ((hoursOn db serverId today).filter fun h => !aggregated tz db h) =
      (db.hourly.rows.filter fun h => h.serverId == serverId && !aggregated tz db h).filter fun h => h.utcDate == today := by
    rw [hoursOn, List.filter_filter, List.filter_filter]
    refine List.filter_congr fun h _ => ?_
    cases aggregated tz db h <;> cases h.serverId == serverId <;> cases h.utcDate == today <;> rfl
  rw [freshToday, hsplit]
  exact sum_filter_le HourlyRow.bytes _ _

section History

variable (ranges : List (Date × Date))
  (hdisjoint : ∀ n, ranges.countP (fun r => decide (r.1.dayNumber ≤ n) && decide (n ≤ r.2.dayNumber)) ≤ 1)

include hdisjoint

theorem sum_dailyTotal_le (db : Db) (serverId : String) :
    (ranges.map fun r => dailyTotal db serverId r.1.dayNumber r.2.dayNumber).sum ≤
      sumDaily (db.daily.rows.filter fun d => d.serverId == serverId) := by
  have hsplit : ∀ r : Date × Date, dailyTotal db serverId r.1.dayNumber r.2.dayNumber =
      (((db.daily.rows.filter fun d => d.serverId == serverId).filter fun d =>
        decide (r.1.dayNumber ≤ d.date) && decide (d.date ≤ r.2.dayNumber)).map DailyRow.bytes).sum := by
    intro r
    rw [dailyTotal, sumDaily, List.filter_filter]
    congr 2
    refine List.filter_congr fun d _ => Bool.and_comm _ _
  simp only [hsplit]
  exact sum_selections_le DailyRow.bytes
    (fun (r : Date × Date) d => decide (r.1.dayNumber ≤ d.date) && decide (d.date ≤ r.2.dayNumber)) ranges _
    fun d _ => hdisjoint d.date

theorem sum_fresh_le (today : ℤ) (x : Bytes) :
    (ranges.map fun r => if r.1.dayNumber ≤ today ∧ today ≤ r.2.dayNumber then x else 0).sum ≤ x := by
  refine sum_if_le x ?_
  simpa using hdisjoint today

/-- disjoint ranges whose totals are the intended ones count each byte once -/
theorem sum_query_le (tz : TimeZone) (db : Db) (serverId : String) (today : ℤ)
    (hexact : ∀ r ∈ ranges, CycleExact tz db serverId today r.1.dayNumber r.2.dayNumber) :
    (ranges.map fun r => queryCycleTraffic db serverId today r.1.dayNumber r.2.dayNumber).sum ≤ recorded tz db serverId := by
  calc (ranges.map fun r => queryCycleTraffic db serverId today r.1.dayNumber r.2.dayNumber).sum
      = (ranges.map fun r => dailyTotal db serverId r.1.dayNumber r.2.dayNumber +
          if r.1.dayNumber ≤ today ∧ today ≤ r.2.dayNumber then freshToday tz db serverId today else 0).sum := by
        rw [List.map_congr_left hexact]
    _ = (ranges.map fun r => dailyTotal db serverId r.1.dayNumber r.2.dayNumber).sum +
          (ranges.map fun r => if r.1.dayNumber ≤ today ∧ today ≤ r.2.dayNumber then freshToday tz db serverId today
            else 0).sum := List.sum_map_add
    _ ≤ recorded tz db serverId := bytes_add_le (sum_dailyTotal_le ranges hdisjoint db serverId)
        ((sum_fresh_le ranges hdisjoint today _).trans (freshToday_le tz db serverId today))

end History

/-- **Cycle totals.** The total of a range is its daily rows and today's fresh hours exactly when the range is reconciled, and
a history of reconciled cycles adds up to at most what was recorded. -/
theorem cycle_totals (tz : TimeZone) (db : Db) (serverId : String) (today : Date) (hlow : MIN_YEAR ≤ today.year)
    (hhigh : today.year + 4 ≤ MAX_YEAR) :
    (∀ first last, CycleExact tz db serverId today.dayNumber first last ↔
      Reconciled tz db serverId today.dayNumber first last) ∧
    ∀ (billingCycle : String) (billingStartDay : Option ℤ) (count : ℕ) (cycles : List CycleTraffic),
      cycleHistory db serverId billingCycle billingStartDay today count = some cycles →
      (∀ c ∈ cycles, Reconciled tz db serverId today.dayNumber c.start.dayNumber c.finish.dayNumber) →
      (cycles.map CycleTraffic.bytes).sum ≤ recorded tz db serverId := by
  classical
  refine ⟨fun first last => cycleExact_iff, fun billingCycle billingStartDay count cycles hcycles hall => ?_⟩
  rw [cycleHistory_eq, historyRanges_eq billingCycle billingStartDay count hlow hhigh] at hcycles
  by_cases hcomputed : HistoryComputed billingCycle billingStartDay today count
  · rw [if_pos hcomputed] at hcycles
    obtain rfl := Option.some.inj hcycles
    have hdisjoint := tilesBack_disjoint billingCycle billingStartDay
      (cycleNumber (periodMonths billingCycle) (anchorOf billingStartDay) today) count
    generalize tilesBack billingCycle billingStartDay
      (cycleNumber (periodMonths billingCycle) (anchorOf billingStartDay) today) count = ranges at hall hdisjoint ⊢
    have hexact : ∀ r ∈ ranges, CycleExact tz db serverId today.dayNumber r.1.dayNumber r.2.dayNumber := by
      intro r hr
      have hmem := List.mem_map_of_mem (f := fun r : Date × Date => CycleTraffic.mk r.1 r.2
        (queryCycleTraffic db serverId today.dayNumber r.1.dayNumber r.2.dayNumber)) hr
      have hreconciled := hall _ hmem
      dsimp only at hreconciled
      exact cycleExact_iff.2 hreconciled
    rw [List.map_map]
    exact sum_query_le ranges hdisjoint tz db serverId today.dayNumber hexact
  · rw [if_neg hcomputed] at hcycles
    cases hcycles

theorem fixed_bounded (behind : ℤ) (h : -86400 < behind ∧ behind < 86400) (u : ℤ) :
    u - 86400 < u - behind ∧ u - behind < u + 86400 := by
  omega

theorem fixed_reports (behind l : ℤ) : (LocalResult.single (l + behind)).Reports {u | u - behind = l} := by
  ext u
  simp only [Set.mem_ofPred_eq, Set.mem_singleton_iff]
  omega

/-- a clock that is always `behind` seconds behind UTC -/
def fixed (behind : ℤ) (h : -86400 < behind ∧ behind < 86400) : TimeZone where
  clock u := u - behind
  fromLocal l := .single (l + behind)
  bounded := fixed_bounded behind h
  reports := fixed_reports behind

/-- the first hour of the leap day, and the daily rows that it may have been summed into -/
def firstHour (daily : List DailyRow) (h : (daily.map DailyRow.key).Nodup) : Db where
  hourly := ⟨[⟨"s1", 24 * leapDay.dayNumber, 100, 0⟩], by simp⟩
  daily := ⟨daily, h⟩

def counted : Db := firstHour [⟨"s1", leapDay.dayNumber, 100, 0⟩] (by simp)

theorem cycle_totals_counted : ∃ cycles, cycleHistory counted "s1" "monthly" none leapDay 2 = some cycles ∧
    (cycles.map CycleTraffic.bytes).sum ≤ recorded (fixed 0 (by omega)) counted "s1" := by
  have hsome : (cycleHistory counted "s1" "monthly" none leapDay 2).isSome = true := by decide +kernel
  obtain ⟨cycles, hcycles⟩ := Option.isSome_iff_exists.1 hsome
  have hrow : hasRow counted "s1" leapDay.dayNumber = true := by decide +kernel
  refine ⟨cycles, hcycles, (cycle_totals _ _ "s1" leapDay (by decide) (by decide)).2 "monthly" none 2 cycles hcycles fun c _ => ?_⟩
  refine ⟨fun _ _ => by decide +kernel, fun _ hno => ?_, fun _ hno => ?_⟩
  · rw [hrow] at hno
    cases hno
  · rw [hrow] at hno
    cases hno

/-- the hour is counted in today's month and in the month before; and, five hours west, beside the daily row that holds it -/
theorem hour_counted_twice :
    ((cycleHistory (firstHour [] (by simp)) "s1" "monthly" none leapDay 2).map fun cycles =>
      (cycles.map CycleTraffic.bytes).sum) = some (200, 0) ∧
    recorded (fixed 0 (by omega)) (firstHour [] (by simp)) "s1" = (100, 0) ∧
    ¬ CycleExact (fixed 18000 (by omega)) (firstHour [⟨"s1", leapDay.dayNumber - 1, 100, 0⟩] (by simp)) "s1"
      leapDay.dayNumber (leapDay.dayNumber - 28) leapDay.dayNumber ∧
    ¬ ∀ (tz : TimeZone) (db : Db) (serverId : String) (today : ℤ), ∀ first last,
      CycleExact tz db serverId today first last := by
  have hwest : ¬ CycleExact (fixed 18000 (by omega)) (firstHour [⟨"s1", leapDay.dayNumber - 1, 100, 0⟩] (by simp)) "s1"
      leapDay.dayNumber (leapDay.dayNumber - 28) leapDay.dayNumber := by
    unfold CycleExact
    decide +kernel
  exact ⟨by decide +kernel, by decide +kernel, hwest, fun h => hwest (h _ _ _ _ _ _)⟩

end ServerBee.Cycles
