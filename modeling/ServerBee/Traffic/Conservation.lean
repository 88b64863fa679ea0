/-
What traffic accounting conserves.

In a run whose hourly upserts succeed, and which restarts only when the state row holds the last observed report and no
hourly upsert is due, the hourly rows of a server hold exactly what its observed reports grew by. Either side fails
without that: a failed hourly upsert is lost, since the cache has moved on; and a restart between the hourly row and the
state row counts the same growth again.

- `Balanced`: the invariant at every statement; what an hourly upsert is about to add is still missing.
- `flushReports_keeps`: a tick keeps it.
- `traffic_conserved`: the invariant over runs.
-/
import ServerBee.Traffic.Model

namespace ServerBee.Traffic

open ServerBee.Lib

/-! ## Sums over the hourly rows -/

/-- what a row counts for the server -/
def share (serverId : ℕ) (direction : HourlyRow → Cell) (r : HourlyRow) : ℤ :=
  if r.serverId = serverId then (direction r).value else 0

theorem hourlyTotal_eq_some {db : Db} {serverId : ℕ} {direction : HourlyRow → Cell} {n : ℤ} :
    hourlyTotal db serverId direction = some n ↔
      (∀ r ∈ db.hourly, r.serverId = serverId → direction r ≠ .inexact) ∧
        (db.hourly.rows.map (share serverId direction)).sum = n := by
  have hsum : (((db.hourly.rows.filter fun r => r.serverId = serverId).map direction).map Cell.value).sum =
      (db.hourly.rows.map (share serverId direction)).sum := by
    induction db.hourly.rows with
    | nil => rfl
    | cons r rows ih => by_cases h : r.serverId = serverId <;> simpa [share, h] using ih
  have hmem : Cell.inexact ∈ (db.hourly.rows.filter fun r => r.serverId = serverId).map direction ↔
      ∃ r ∈ db.hourly, r.serverId = serverId ∧ direction r = .inexact := by
    simp only [List.mem_map, List.mem_filter, decide_eq_true_eq, and_assoc, Table.mem_rows]
  simp only [hourlyTotal, hmem, hsum]
  by_cases h : ∃ r ∈ db.hourly, r.serverId = serverId ∧ direction r = .inexact
  · rw [if_pos h]
    obtain ⟨r, hr, hid, hc⟩ := h
    simp only [reduceCtorEq, false_iff, not_and]
    exact fun hall => absurd hc (hall r hr hid)
  · rw [if_neg h, Option.some.injEq]
    push Not at h
    exact ⟨fun hn => ⟨h, hn⟩, And.right⟩

/-- the addition stays below 2^63 -/
def Fits (db : Db) (serverId : ℕ) (hour : ℤ) (delta : Counters) : Prop :=
  ∀ row, db.hourly.get (serverId, hour) = some row →
    row.bytesIn.value + delta.1 < 9223372036854775808 ∧ row.bytesOut.value + delta.2 < 9223372036854775808

theorem Cell.add_exact {c : Cell} {n : ℤ} (h : c ≠ .inexact) (hfit : c.value + n < 9223372036854775808) :
    c.add n ≠ .inexact ∧ (c.add n).value = c.value + n := by
  cases c with
  | exact m =>
    have hfit : m + n < 9223372036854775808 := hfit
    simp [Cell.add, Cell.value, hfit]
  | inexact => exact absurd rfl h

/-- the rows of an upsert: a new one, or the old one with the growth added -/
theorem upsertHourly_cases (db : Db) (serverId : ℕ) (hour : ℤ) (delta : Counters) :
    (upsertHourly db serverId hour delta).hourly.rows =
        db.hourly.rows ++ [⟨serverId, hour, .exact delta.1, .exact delta.2⟩] ∨
      ∃ row, db.hourly.get (serverId, hour) = some row ∧ (upsertHourly db serverId hour delta).hourly.rows =
        db.hourly.rows.map fun r => if r.key = row.key then addTraffic delta r else r := by
  unfold upsertHourly
  cases hins : db.hourly.insert ⟨serverId, hour, .exact delta.1, .exact delta.2⟩ with
  | some hourly =>
    left
    unfold Table.insert at hins
    split_ifs at hins
    cases hins
    rfl
  | none =>
    right
    obtain ⟨row, hrow⟩ := Option.isSome_iff_exists.1 (Table.insert_eq_none.1 hins)
    refine ⟨row, hrow, ?_⟩
    have hkey : row.key = (serverId, hour) := (Table.get_eq_some.1 hrow).2
    simp only [Table.update, hkey, decide_eq_true_eq]

theorem hourlyTotal_upsert {db : Db} {serverId : ℕ} {hour : ℤ} {delta : Counters} {direction : HourlyRow → Cell} {a n : ℤ}
    (hnew : direction ⟨serverId, hour, .exact delta.1, .exact delta.2⟩ = .exact a)
    (hadd : ∀ r, direction (addTraffic delta r) = (direction r).add a)
    (hfit : ∀ row, db.hourly.get (serverId, hour) = some row → (direction row).value + a < 9223372036854775808)
    (h : hourlyTotal db serverId direction = some n) :
    hourlyTotal (upsertHourly db serverId hour delta) serverId direction = some (n + a) := by
  obtain ⟨hexact, hsum⟩ := hourlyTotal_eq_some.1 h
  rw [hourlyTotal_eq_some]
  simp only [← Table.mem_rows] at hexact ⊢
  rcases upsertHourly_cases db serverId hour delta with hrows | ⟨row, hget, hrows⟩
  · rw [hrows]
    constructor
    · intro r hr hid
      rcases List.mem_append.1 hr with hr | hr
      · exact hexact r hr hid
      · rw [List.mem_singleton.1 hr, hnew]
        simp
    · simp [share, hnew, hsum, Cell.value]
  · obtain ⟨hrow, hkey⟩ := Table.get_eq_some.1 hget
    have hid : row.serverId = serverId := congrArg Prod.fst hkey
    have hcell := Cell.add_exact (hexact row hrow hid) (hfit row hget)
    rw [hrows]
    constructor
    · intro r hr hrid
      obtain ⟨r', hr', rfl⟩ := List.mem_map.1 hr
      split_ifs at hrid ⊢ with hk
      · obtain rfl : r' = row := Table.mem_inj hr' hrow hk
        rw [hadd]
        exact hcell.1
      · exact hexact r' hr' hrid
    · rw [Table.sum_map_replace db.hourly.unique (addTraffic delta) (share serverId direction) hrow, hsum]
      have hid' : (addTraffic delta row).serverId = serverId := hid
      simp only [share, hid, hid', if_true, hadd, hcell.2]
      ring

/-- an upsert for one server leaves the totals of the others -/
theorem hourlyTotal_upsert_other {db : Db} {serverId other : ℕ} (hne : other ≠ serverId) {hour : ℤ} {delta : Counters}
    {direction : HourlyRow → Cell} {n : ℤ} (h : hourlyTotal db other direction = some n) :
    hourlyTotal (upsertHourly db serverId hour delta) other direction = some n := by
  obtain ⟨hexact, hsum⟩ := hourlyTotal_eq_some.1 h
  rw [hourlyTotal_eq_some]
  simp only [← Table.mem_rows] at hexact ⊢
  rcases upsertHourly_cases db serverId hour delta with hrows | ⟨row, hget, hrows⟩
  · rw [hrows]
    constructor
    · intro r hr hid
      rcases List.mem_append.1 hr with hr | hr
      · exact hexact r hr hid
      · rw [List.mem_singleton.1 hr] at hid
        exact absurd hid.symm hne
    · simp [share, hne.symm, hsum]
  · obtain ⟨hrow, hkey⟩ := Table.get_eq_some.1 hget
    have hid : row.serverId ≠ other := fun heq => hne (heq.symm.trans (congrArg Prod.fst hkey))
    rw [hrows]
    constructor
    · intro r hr hrid
      obtain ⟨r', hr', rfl⟩ := List.mem_map.1 hr
      split_ifs at hrid ⊢ with hk
      · have hid' : r'.serverId = row.serverId := congrArg Prod.fst hk
        exact absurd (hid'.symm.trans hrid) hid
      · exact hexact r' hr' hrid
    · rw [Table.sum_map_replace db.hourly.unique (addTraffic delta) (share other direction) hrow, hsum]
      have hid' : (addTraffic delta row).serverId ≠ other := hid
      simp [share, hid, hid']

theorem hourlyTotal_upsertState (db : Db) (id serverId : ℕ) (last : Counters) (direction : HourlyRow → Cell) :
    hourlyTotal (upsertState db id last) serverId direction = hourlyTotal db serverId direction := by
  unfold upsertState
  split <;> rfl

/-! ## The invariant -/

/-- the growth that the next statement is about to add for the server -/
def due (serverId : ℕ) : Option Statement → Counters
  | some (.upsertHourly id _ delta) => if id = serverId then delta else 0
  | _ => 0

structure Balanced (serverId : ℕ) (o : Option Statement) (w : World) : Prop where
  bytesIn : hourlyTotal w.db serverId HourlyRow.bytesIn =
    some (totalGrowth ((w.observed serverId).map Prod.fst) - (due serverId o).1)
  bytesOut : hourlyTotal w.db serverId HourlyRow.bytesOut =
    some (totalGrowth ((w.observed serverId).map Prod.snd) - (due serverId o).2)
  cache : w.cache serverId = (w.observed serverId).head?

/-- the outcomes under which traffic is conserved: hourly upserts of the server succeed and stay exact -/
def Succeeds (serverId : ℕ) : Statement → Bool → World → Prop
  | .upsertHourly id hour delta, ok, w => id = serverId → ok = true ∧ Fits w.db serverId hour delta
  | _, _, _ => True

variable {serverId : ℕ} {w : World}

theorem Balanced.congr {o o' : Option Statement} (h : Balanced serverId o w) (hdue : due serverId o = due serverId o') :
    Balanced serverId o' w :=
  ⟨hdue ▸ h.bytesIn, hdue ▸ h.bytesOut, h.cache⟩

theorem counterGrowth_nonneg {prev curr : ℤ} (h : 0 ≤ curr) : 0 ≤ counterGrowth prev curr := by
  unfold counterGrowth
  split_ifs <;> omega

/-- taking a report into the cache makes its growth due -/
theorem Balanced.insert (h : Balanced serverId none w) (id : ℕ) (curr : Counters) (ok : Bool) {o : Option Statement}
    (hdue : due serverId o = if id = serverId then
      (w.cache serverId).elim 0 fun prev => computeDelta prev.1 prev.2 curr.1 curr.2 else 0) :
    Balanced serverId o (exec (.cacheInsert id curr) ok w) := by
  obtain ⟨hin, hout, hcache⟩ := h
  simp only [due, Prod.fst_zero, Prod.snd_zero, sub_zero] at hin hout
  by_cases hid : id = serverId
  · subst hid
    rw [if_pos rfl, hcache] at hdue
    cases hobs : w.observed id with
    | nil =>
      rw [hobs] at hdue hin hout
      have hdue : due id o = 0 := hdue
      constructor <;> simp [exec, hobs, hdue, hin, hout, totalGrowth]
    | cons prev older =>
      rw [hobs] at hdue hin hout
      have hdue : due id o = (counterGrowth prev.1 curr.1, counterGrowth prev.2 curr.2) := hdue
      simp only [List.map_cons] at hin hout
      constructor <;> simp [exec, hobs, hdue, hin, hout, totalGrowth]
  · rw [if_neg hid] at hdue
    have hne : serverId ≠ id := fun heq => hid heq.symm
    constructor <;> simp [exec, Function.update_of_ne hne, hdue, hin, hout, hcache]

theorem Balanced.hourly {id : ℕ} {hour : ℤ} {delta : Counters} {ok : Bool}
    (h : Balanced serverId (some (.upsertHourly id hour delta)) w)
    (hok : Succeeds serverId (.upsertHourly id hour delta) ok w) :
    Balanced serverId none (exec (.upsertHourly id hour delta) ok w) := by
  obtain ⟨hin, hout, hcache⟩ := h
  by_cases hid : id = serverId
  · subst hid
    obtain ⟨rfl, hfit⟩ := hok rfl
    simp only [due, if_true] at hin hout
    refine ⟨?_, ?_, hcache⟩
    · have := hourlyTotal_upsert (a := delta.1) rfl (fun _ => rfl) (fun row hrow => (hfit row hrow).1) hin
      simpa [exec, due] using this
    · have := hourlyTotal_upsert (a := delta.2) rfl (fun _ => rfl) (fun row hrow => (hfit row hrow).2) hout
      simpa [exec, due] using this
  · simp only [due, if_neg hid] at hin hout
    cases ok with
    | false => exact ⟨hin, hout, hcache⟩
    | true =>
      have hne : serverId ≠ id := fun heq => hid heq.symm
      exact ⟨hourlyTotal_upsert_other hne hin, hourlyTotal_upsert_other hne hout, hcache⟩

theorem Balanced.state {o : Option Statement} (h : Balanced serverId o w) (id : ℕ) (last : Counters) (ok : Bool) :
    Balanced serverId o (exec (.upsertState id last) ok w) := by
  cases ok with
  | false => exact h
  | true =>
    refine ⟨?_, ?_, h.cache⟩
    · exact (hourlyTotal_upsertState w.db id serverId last _).trans h.bytesIn
    · exact (hourlyTotal_upsertState w.db id serverId last _).trans h.bytesOut

/-! ## Ticks -/

/-- a program keeps the books of the server, under the outcomes that are asked for -/
abbrev KeepsBalance (serverId : ℕ) (p : Tick Unit) (w : World) : Prop :=
  p.Keeps exec (Succeeds serverId) (Balanced serverId) (fun _ => Balanced serverId none) w

theorem keeps_cached {Q : Option Counters → World → Prop} {id : ℕ} (h : Q (w.cache id) w) :
    Prog.Keeps exec (Succeeds serverId) (Balanced serverId) Q (cached id) w :=
  h

theorem flushReport_keeps (h : Balanced serverId none w) (hour : ℤ) {id : ℕ} {curr : Counters}
    (hcurr : id = serverId → 0 ≤ curr.1 ∧ 0 ≤ curr.2) : KeepsBalance serverId (flushReport hour id curr) w := by
  unfold flushReport
  by_cases hzero : curr.1 = 0 ∧ curr.2 = 0
  · rw [if_pos hzero]
    exact h
  · rw [if_neg hzero]
    refine Prog.Keeps.bind ?_
    refine keeps_cached ?_
    dsimp only
    cases hcache : w.cache id with
    | none =>
      refine ⟨h.congr rfl, fun b _ => ⟨h.insert id curr b ?_, fun b' _ => ?_⟩⟩
      · by_cases hid : id = serverId
        · subst hid
          simp [due, hcache]
        · simp [due, hid]
      · refine Balanced.state (h.insert id curr b ?_) id curr b'
        by_cases hid : id = serverId
        · subst hid
          simp [due, hcache]
        · simp [due, hid]
    | some prev =>
      set delta := computeDelta prev.1 prev.2 curr.1 curr.2 with hdelta
      refine ⟨h.congr rfl, fun b _ => Prog.Keeps.bind ?_⟩
      have hstate : ∀ w', Balanced serverId none w' →
          KeepsBalance serverId (perform (.upsertState id curr)) w' := fun w' h' =>
        ⟨h'.congr rfl, fun b' _ => h'.state id curr b'⟩
      unfold writeHourly
      by_cases hpos : delta.1 > 0 ∨ delta.2 > 0
      · rw [if_pos hpos]
        have hdue : Balanced serverId (some (.upsertHourly id hour delta)) (exec (.cacheInsert id curr) b w) := by
          refine h.insert id curr b ?_
          by_cases hid : id = serverId
          · subst hid
            simp [due, hcache, hdelta]
          · simp [due, hid]
        exact ⟨hdue, fun b' hb' => hstate _ (hdue.hourly hb')⟩
      · rw [if_neg hpos]
        refine hstate _ (h.insert id curr b ?_)
        by_cases hid : id = serverId
        · -- both directions stood still
          subst hid
          have h1 : 0 ≤ delta.1 := counterGrowth_nonneg (hcurr rfl).1
          have h2 : 0 ≤ delta.2 := counterGrowth_nonneg (hcurr rfl).2
          have hzero : delta = 0 := Prod.ext (by simp; omega) (by simp; omega)
          simp [due, hcache, ← hdelta, hzero]
        · simp [due, hid]

theorem flushReports_keeps (now : ℤ) {reports : List (ℕ × Counters)}
    (hreports : ∀ r ∈ reports, r.1 = serverId → 0 ≤ r.2.1 ∧ 0 ≤ r.2.2) (h : Balanced serverId none w) :
    KeepsBalance serverId (flushReports now reports) w := by
  induction reports generalizing w with
  | nil => exact h
  | cons r reports ih =>
    have hhead := hreports r List.mem_cons_self
    refine Prog.Keeps.bind ((flushReport_keeps h (hourOf now) hhead).mono fun _ w' h' => ?_)
    exact ih (fun r' hr' => hreports r' (List.mem_cons_of_mem _ hr')) h'

/-! ## Runs -/

/-- the steps under which traffic is conserved -/
def Meets (serverId : ℕ) (s : St) : Op → Prop
  | .tick _ reports => ∀ r ∈ reports, r.1 = serverId → 0 ≤ r.2.1 ∧ 0 ≤ r.2.2
  | .statement ok => ∀ o rest, s.tick.next s.world = some (o, rest) → Succeeds serverId o ok s.world
  | .restart loaded => loaded = true ∧ loadTransferCache s.world.db serverId = (s.world.observed serverId).head? ∧
      ∀ id hour delta rest, s.tick.next s.world = some (.upsertHourly id hour delta, rest) → id ≠ serverId

def MeetsAll (serverId : ℕ) : St → List Op → Prop
  | _, [] => True
  | s, op :: ops => Meets serverId s op ∧ MeetsAll serverId (step s op) ops

theorem balanced_init (serverId : ℕ) : KeepsBalance serverId St.init.tick St.init.world :=
  ⟨rfl, rfl, rfl⟩

theorem step_keeps {s : St} (h : KeepsBalance serverId s.tick s.world) {op : Op} (hop : Meets serverId s op) :
    KeepsBalance serverId (step s op).tick (step s op).world := by
  have hhere := Prog.Keeps.here h
  cases op with
  | tick now reports =>
    simp only [step]
    cases hnext : s.tick.next s.world with
    | none =>
      rw [hnext] at hhere
      exact flushReports_keeps now hop hhere
    | some _ => exact h
  | statement ok =>
    simp only [step]
    cases hnext : s.tick.next s.world with
    | none => exact h
    | some p => exact Prog.Keeps.step h hnext (hop p.1 p.2 hnext)
  | restart loaded =>
    obtain ⟨rfl, hrow, hidle⟩ := hop
    have hdue : due serverId ((s.tick.next s.world).map Prod.fst) = 0 := by
      cases hnext : s.tick.next s.world with
      | none => rfl
      | some p =>
        obtain ⟨o, rest⟩ := p
        cases o with
        | upsertHourly id hour delta => exact if_neg (hidle id hour delta rest hnext)
        | cacheInsert id curr => rfl
        | upsertState id last => rfl
    have hsettled : Balanced serverId none s.world := hhere.congr hdue
    exact ⟨hsettled.bytesIn, hsettled.bytesOut, hrow⟩

theorem run_keeps {s : St} (h : KeepsBalance serverId s.tick s.world) {ops : List Op} (hops : MeetsAll serverId s ops) :
    KeepsBalance serverId (run s ops).tick (run s ops).world := by
  induction ops generalizing s with
  | nil => exact h
  | cons op ops ih => exact ih (step_keeps h hops.1) hops.2

/-- **Conservation.** After a run whose hourly upserts for the server succeed, and which restarts only with the last
observed report in the state row and no hourly upsert due, the hourly rows hold the growth of the observed reports,
whenever no tick is under way. -/
theorem traffic_conserved (serverId : ℕ) (ops : List Op) (hops : MeetsAll serverId St.init ops)
    (hidle : (run St.init ops).tick.next (run St.init ops).world = none) :
    Conserved (run St.init ops).world serverId := by
  have hhere := Prog.Keeps.here (run_keeps (balanced_init serverId) hops)
  rw [hidle] at hhere
  have hin := hhere.bytesIn
  have hout := hhere.bytesOut
  simp only [Option.map_none, due, Prod.fst_zero, Prod.snd_zero, sub_zero] at hin hout
  exact ⟨hin, hout⟩

/-- two reports of server 1; the statements of the second end as given -/
def twoReports (second : List Op) : St :=
  run St.init ([.tick 0 [(1, 100, 100)], .statement true, .statement true, .tick 0 [(1, 150, 100)]] ++ second)

/-- the hourly upsert fails -/
def lostRun : St := twoReports [.statement true, .statement false, .statement true]

/-- a restart after the hourly upsert, then the same report again -/
def doubledRun : St :=
  twoReports [.statement true, .statement true, .restart true, .tick 0 [(1, 150, 100)], .statement true, .statement true,
    .statement true]

def inboundTotals (s : St) : Option ℤ × ℤ :=
  (hourlyTotal s.world.db 1 HourlyRow.bytesIn, totalGrowth ((s.world.observed 1).map Prod.fst))

/-- **Both ways to fail.** A failed hourly upsert is lost; a restart before the state row counts the growth again. -/
theorem traffic_lost_or_doubled :
    inboundTotals lostRun = (some 0, 50) ∧ ¬ Conserved lostRun.world 1 ∧ inboundTotals doubledRun = (some 100, 50) ∧
      ¬ Conserved doubledRun.world 1 := by
  decide +kernel

/-- without failures, over a restart -/
theorem traffic_conserved_two :
    Conserved (twoReports [.statement true, .statement true, .statement true, .restart true]).world 1 := by
  refine traffic_conserved 1 _ ⟨?_, ?_, ?_, ?_, ?_, ?_, ?_, ?_, trivial⟩ rfl
  · intro r hr _
    obtain rfl := List.mem_singleton.1 hr
    decide
  · rintro o rest ⟨⟩
    trivial
  · rintro o rest ⟨⟩
    trivial
  · intro r hr _
    obtain rfl := List.mem_singleton.1 hr
    decide
  · rintro o rest ⟨⟩
    trivial
  · rintro o rest ⟨⟩ -
    exact ⟨rfl, fun row hrow => by cases hrow⟩
  · rintro o rest ⟨⟩
    trivial
  · refine ⟨rfl, rfl, fun id hour delta rest hnext => ?_⟩
    cases hnext

end ServerBee.Traffic
