/-
The stored billing schedules, and how an edit is decided (`apply_initial`, `apply_edit`).

An edit is four decisions: the time zone, the date, the deadline that follows from both, and the columns of the state
(`Decided`). The columns are a function of the decisions (`editedState`), so what an edit keeps is read off field by field.
Creation, edits and advances keep `Stored`: an enabled schedule has a date, an anchor and an occurrence.
-/
import ServerBee.Renewal.CatchUp

namespace ServerBee.Renewal

open ServerBee.Lib ServerBee.Lib.Calendar

/-! ## The first schedule -/

/-- `apply_initial`: the state of a new server; its occurrence id is drawn later -/
def applyInitial (C : Crates) (fresh : ℕ) (input : Option RenewalInput) (legacy : Option ℤ) (billingCycle : Option String) :
    Except String (RenewalState × Option ℤ) := do
  if (input.bind (·.expiryDate)).isSome ∧ legacy.isSome then
    throw "expiry_date and expired_at cannot be submitted together"
  let (state, deadline) ← applyCalendar C fresh ⟨false, .confirmed, none, none, "UTC", legacy⟩ legacy input none
  validateEnabled state deadline billingCycle
  let deadline ←
    if state.enabled then boundaryOf C (selectedDate C deadline state.billingTimezone) state.billingTimezone
    else pure deadline
  pure ({ state with occurrenceId := none }, deadline)

/-- the renewal half of `onboard`: an id for a date or a time zone that the operator typed, and a first advance -/
def create (C : Crates) (fresh : ℕ) (input : Option RenewalInput) (legacy : Option ℤ) (billingCycle : Option String) (now : ℤ) :
    Except String (RenewalState × Option ℤ) := do
  let typedCalendar := input.any fun i => i.expiryDate.isSome || i.billingTimezone.isSome
  let (renewal, deadline) ← applyInitial C fresh input legacy billingCycle
  let renewal :=
    if typedCalendar && deadline.isSome && renewal.occurrenceId.isNone then { renewal with occurrenceId := some (fresh + 3) }
    else renewal
  let advanced ← advance C (fresh + 4) renewal deadline billingCycle now
  pure (advanced.state, advanced.deadline)

/-- the schedules that are stored: creation, edits and advances lead to them. A server created without billing settings has
no `renewal_state`, and reads as the schedule that `create` returns for it -/
inductive Reach (C : Crates) : RenewalState → Option ℤ → Prop where
  | create {fresh : ℕ} {input : Option RenewalInput} {legacy : Option ℤ} {billingCycle : Option String} {now : ℤ}
    {state : RenewalState} {deadline : Option ℤ}
    (h : create C fresh input legacy billingCycle now = .ok (state, deadline)) : Reach C state deadline
  | edit {fresh : ℕ} {model : Server} {input : Option RenewalInput} {legacy : Option (Option ℤ)}
    {billingCycle : Option String} {now : ℤ} {state : RenewalState} {deadline : Option ℤ}
    (hold : Reach C (RenewalState.fromServer model) model.expiredAt)
    (h : applyEdit C fresh model input legacy billingCycle now = .ok (state, deadline)) : Reach C state deadline
  | advance {fresh : ℕ} {cycle : Option String} {now : ℤ} {old : RenewalState} {deadline : Option ℤ} {r : Advanced}
    (hold : Reach C old deadline) (h : advance C fresh old deadline cycle now = .ok r) : Reach C r.state r.deadline

/-! ## An edit, decision by decision -/

section Calendar

variable {C : Crates} {fresh : ℕ} {s : RenewalState} {original : Option ℤ} {input : Option RenewalInput}
  {legacy : Option (Option ℤ)}

/-- the state after the time zone and the date are decided -/
def editedState (C : Crates) (fresh : ℕ) (s : RenewalState) (zone : String) (moved replaced enabled : Bool)
    (deadline : Option ℤ) : RenewalState :=
  let state := { s with billingTimezone := zone }
  let state :=
    if moved && state.occurrenceId.isNone then { state with occurrenceId := deadline.map fun _ => fresh } else state
  let state :=
    if replaced then
      { state with
        confirmedExpiredAt := deadline
        deadlineOrigin := .confirmed
        anchorDay := (selectedDate C deadline zone).map (·.day)
        occurrenceId := deadline.map fun _ => fresh + 1 }
    else state
  let state := { state with enabled := enabled }
  let state :=
    if state.enabled = false ∧ state.deadlineOrigin = .projected then { state with deadlineOrigin := .frozen } else state
  if state.enabled then
    { state with
      deadlineOrigin := .projected
      anchorDay := if state.anchorDay.isNone then (selectedDate C deadline zone).map (·.day) else state.anchorDay
      occurrenceId := if state.occurrenceId.isNone then deadline.map fun _ => fresh + 2 else state.occurrenceId }
  else state

def resultingEnabled (s : RenewalState) (input : Option RenewalInput) : Bool := (input.bind (·.enabled)).getD s.enabled

/-- the decisions of an accepted edit -/
structure Decided (C : Crates) (fresh : ℕ) (s : RenewalState) (original : Option ℤ) (input : Option RenewalInput)
    (legacy : Option (Option ℤ)) (state : RenewalState) (deadline : Option ℤ) (zone : String) (changed : Bool)
    (dated : Option ℤ) (replaced : Bool) : Prop where
  zone_ok : editedZone C s input = .ok (zone, changed)
  date_ok : editedDate C zone (selectedDate C original s.billingTimezone) original (input.bind (·.expiryDate)) legacy =
    .ok (dated, replaced)
  deadline_ok : (if changed && !replaced then boundaryOf C (selectedDate C original s.billingTimezone) zone else .ok dated) =
    .ok deadline
  state_eq : state = editedState C fresh s zone (changed && !replaced) replaced (resultingEnabled s input) deadline

theorem applyCalendar_eq : applyCalendar C fresh s original input legacy =
    if resultingEnabled s input = true ∧ input.bind (·.billingTimezone) = some none then
      .error "automatic renewal requires a billing timezone"
    else
      (editedZone C s input).bind fun zc =>
        (editedDate C zc.1 (selectedDate C original s.billingTimezone) original (input.bind (·.expiryDate)) legacy).bind fun dr =>
          (if zc.2 && !dr.2 then boundaryOf C (selectedDate C original s.billingTimezone) zc.1 else .ok dr.1).bind fun deadline =>
            .ok (editedState C fresh s zc.1 (zc.2 && !dr.2) dr.2 (resultingEnabled s input) deadline, deadline) := by
  by_cases hguard : resultingEnabled s input = true ∧ input.bind (·.billingTimezone) = some none
  · rw [if_pos hguard]
    unfold applyCalendar
    exact if_pos hguard
  · rw [if_neg hguard]
    unfold applyCalendar
    refine (if_neg hguard).trans ?_
    cases hz : editedZone C s input with
    | error e => rfl
    | ok zc =>
      obtain ⟨zone, changed⟩ := zc
      dsimp only [bind, Except.bind]
      cases hd : editedDate C zone (selectedDate C original s.billingTimezone) original (input.bind (·.expiryDate)) legacy with
      | error e => rfl
      | ok dr =>
        obtain ⟨dated, replaced⟩ := dr
        dsimp only
        cases hmoved : changed && !replaced with
        | false => rfl
        | true =>
          cases boundaryOf C (selectedDate C original s.billingTimezone) zone <;> rfl

theorem bind_ok {α β : Type} {x : Except String α} {f : α → Except String β} {b : β} (h : x.bind f = .ok b) :
    ∃ a, x = .ok a ∧ f a = .ok b := by
  cases x with
  | error e => cases h
  | ok a => exact ⟨a, rfl, h⟩

theorem applyCalendar_ok {state : RenewalState} {deadline : Option ℤ}
    (h : applyCalendar C fresh s original input legacy = .ok (state, deadline)) :
    ∃ zone changed dated replaced, Decided C fresh s original input legacy state deadline zone changed dated replaced := by
  rw [applyCalendar_eq] at h
  split_ifs at h with hguard
  obtain ⟨⟨zone, changed⟩, hzone, h⟩ := bind_ok h
  obtain ⟨⟨dated, replaced⟩, hdate, h⟩ := bind_ok h
  obtain ⟨deadline', hdeadline, h⟩ := bind_ok h
  obtain ⟨rfl, rfl⟩ := Prod.mk.inj (Except.ok.inj h)
  exact ⟨zone, changed, dated, replaced, hzone, hdate, hdeadline, rfl⟩

/-- an accepted edit: its decisions, the normalised deadline of a schedule that is enabled, and an advance -/
theorem applyEdit_ok {model : Server} {billingCycle : Option String} {now : ℤ} {state : RenewalState} {deadline : Option ℤ}
    (h : applyEdit C fresh model input legacy billingCycle now = .ok (state, deadline)) :
    ∃ edited dated normal r, applyCalendar C fresh (RenewalState.fromServer model) model.expiredAt input legacy =
        .ok (edited, dated) ∧
      validateEnabled edited dated billingCycle = .ok () ∧
      (if !(RenewalState.fromServer model).enabled && input.bind (·.enabled) == some true then
        boundaryOf C (selectedDate C dated edited.billingTimezone) edited.billingTimezone else .ok dated) = .ok normal ∧
      advance C (fresh + 3) edited normal billingCycle now = .ok r ∧ state = r.state ∧ deadline = r.deadline := by
  obtain ⟨⟨edited, dated⟩, hcalendar, h⟩ := bind_ok h
  obtain ⟨⟨⟩, hvalid, h⟩ := bind_ok h
  have hnormal : ∃ normal, (if !(RenewalState.fromServer model).enabled && input.bind (·.enabled) == some true then
      boundaryOf C (selectedDate C dated edited.billingTimezone) edited.billingTimezone else .ok dated) = .ok normal ∧
      ((advance C (fresh + 3) edited normal billingCycle now).bind fun r => .ok (r.state, r.deadline)) = .ok (state, deadline) := by
    split_ifs with henabling
    · rw [if_pos henabling] at h
      exact bind_ok h
    · rw [if_neg henabling] at h
      exact ⟨dated, rfl, h⟩
  obtain ⟨normal, hnormal, h⟩ := hnormal
  obtain ⟨r, hr, h⟩ := bind_ok h
  obtain ⟨rfl, rfl⟩ := Prod.mk.inj (Except.ok.inj h)
  exact ⟨edited, dated, normal, r, hcalendar, hvalid, hnormal, hr, rfl, rfl⟩

end Calendar

/-! ## The columns after an edit -/

section Columns

variable (C : Crates) (fresh : ℕ) (s : RenewalState) (zone : String) (moved replaced enabled : Bool) (deadline : Option ℤ)

theorem editedState_enabled : (editedState C fresh s zone moved replaced enabled deadline).enabled = enabled := by
  unfold editedState
  dsimp only
  split_ifs <;> rfl

theorem editedState_zone : (editedState C fresh s zone moved replaced enabled deadline).billingTimezone = zone := by
  unfold editedState
  dsimp only
  split_ifs <;> rfl

theorem editedState_confirmed : (editedState C fresh s zone moved replaced enabled deadline).confirmedExpiredAt =
    if replaced then deadline else s.confirmedExpiredAt := by
  unfold editedState
  dsimp only
  split_ifs <;> rfl

theorem editedState_origin : (editedState C fresh s zone moved replaced enabled deadline).deadlineOrigin =
    if enabled then .projected
    else if replaced then .confirmed
    else if s.deadlineOrigin = .projected then .frozen else s.deadlineOrigin := by
  obtain ⟨_, origin, _, occurrence, _, _⟩ := s
  cases enabled <;> cases replaced <;> cases moved <;> cases origin <;> cases occurrence <;> rfl

theorem editedState_anchor : (editedState C fresh s zone moved replaced enabled deadline).anchorDay =
    if replaced || enabled && s.anchorDay.isNone then (selectedDate C deadline zone).map (·.day) else s.anchorDay := by
  obtain ⟨_, origin, anchor, occurrence, _, _⟩ := s
  unfold editedState
  cases selectedDate C deadline zone <;> cases enabled <;> cases replaced <;> cases moved <;> cases origin <;>
    cases occurrence <;> cases anchor <;> rfl

/-- without a new date an occurrence keeps its id -/
theorem editedState_occurrence {id : ℕ} (h : s.occurrenceId = some id) :
    (editedState C fresh s zone moved false enabled deadline).occurrenceId = some id := by
  obtain ⟨_, origin, _, occurrence, _, _⟩ := s
  obtain rfl : occurrence = some id := h
  cases enabled <;> cases moved <;> cases origin <;> rfl

/-- a disabled schedule draws no id unless its time zone or its date changes -/
theorem editedState_disabled : (editedState C fresh s zone false false false deadline).occurrenceId = s.occurrenceId := by
  obtain ⟨_, origin, _, _, _, _⟩ := s
  cases origin <;> rfl

end Columns

/-! ## Advances -/

section Advances

variable {C : Crates} {fresh : ℕ} {s : RenewalState} {deadline : Option ℤ} {cycle : Option String} {now : ℤ}

/-- an advance that ends before it searches: the anchor and the id are filled in -/
def settled (fresh : ℕ) (s : RenewalState) (date : Date) : RenewalState :=
  { s with anchorDay := some (s.anchorDay.getD date.day), occurrenceId := some (s.occurrenceId.getD fresh) }

theorem advance_ok {r : Advanced} (h : advance C fresh s deadline cycle now = .ok r) :
    s.enabled = false ∧ r = ⟨s, deadline, false⟩ ∨
      s.enabled = true ∧ ∃ original date, deadline = some original ∧
        selectedDate C (some original) s.billingTimezone = some date ∧
        (now ≤ original ∧ r = ⟨settled fresh s date, some original, false⟩ ∨
          original < now ∧ ∃ boundary, r.deadline = some boundary ∧
            r.state = { settled fresh s date with deadlineOrigin := .projected, occurrenceId := some (fresh + 1) }) := by
  unfold advance at h
  split_ifs at h with hen
  · exact Or.inl ⟨hen, (Except.ok.inj h).symm⟩
  · refine Or.inr ⟨Bool.eq_true_of_not_eq_false hen, ?_⟩
    split at h
    · rename_i original interval hcycle hvalid
      split at h
      · rename_i date today hdate htoday
        refine ⟨original, date, rfl, hdate, ?_⟩
        dsimp only at h
        split_ifs at h with hnow
        · exact Or.inl ⟨hnow, (Except.ok.inj h).symm⟩
        · split at h
          · cases h
          · rename_i boundary hboundary
            obtain rfl := Except.ok.inj h
            exact Or.inr ⟨not_le.1 hnow, boundary, rfl, rfl⟩
      · cases h
    · cases h
    · cases h

/-- an advance fills an anchor in, and keeps the one that is there -/
theorem advance_anchor {r : Advanced} (h : advance C fresh s deadline cycle now = .ok r)
    (hanchor : s.enabled = true → s.anchorDay.isSome) : r.state.anchorDay = s.anchorDay := by
  rcases advance_ok h with ⟨-, rfl⟩ | ⟨hen, original, date, rfl, -, hcases⟩
  · rfl
  · obtain ⟨day, hday⟩ := Option.isSome_iff_exists.1 (hanchor hen)
    rcases hcases with ⟨-, rfl⟩ | ⟨-, boundary, -, hstate⟩
    · simp [settled, hday]
    · rw [hstate]
      simp [settled, hday]

/-- before the deadline an advance keeps it, and the occurrence with it -/
theorem advance_before {r : Advanced} (h : advance C fresh s deadline cycle now = .ok r)
    (hnow : s.enabled = true → ∀ original, deadline = some original → now ≤ original) :
    r.deadline = deadline ∧ ∀ id, s.occurrenceId = some id → r.state.occurrenceId = some id := by
  rcases advance_ok h with ⟨-, rfl⟩ | ⟨hen, original, date, rfl, -, hcases⟩
  · exact ⟨rfl, fun _ hid => hid⟩
  · rcases hcases with ⟨-, rfl⟩ | ⟨hlate, -⟩
    · exact ⟨rfl, fun id hid => by simp [settled, hid]⟩
    · exact absurd (hnow hen original rfl) (not_le.2 hlate)

/-- what no advance touches -/
theorem advance_keeps {r : Advanced} (h : advance C fresh s deadline cycle now = .ok r) :
    r.state.confirmedExpiredAt = s.confirmedExpiredAt ∧ r.state.billingTimezone = s.billingTimezone ∧
      r.state.enabled = s.enabled := by
  rcases advance_ok h with ⟨-, rfl⟩ | ⟨-, original, date, rfl, -, ⟨-, rfl⟩ | ⟨-, boundary, -, hstate⟩⟩
  · exact ⟨rfl, rfl, rfl⟩
  · exact ⟨rfl, rfl, rfl⟩
  · rw [hstate]
    exact ⟨rfl, rfl, rfl⟩

end Advances

/-! ## Invariant -/

/-- an enabled schedule has a date, an anchor and a projected origin; a disabled one no projected origin -/
structure Sound (C : Crates) (s : RenewalState) (deadline : Option ℤ) : Prop where
  zone : (C.zone s.billingTimezone).isSome
  enabled : s.enabled = true → s.deadlineOrigin = .projected ∧ s.anchorDay.isSome ∧ deadline.isSome
  disabled : s.enabled = false → s.deadlineOrigin ≠ .projected

section Invariant

variable {C : Crates} {fresh : ℕ} {s : RenewalState} {original : Option ℤ} {input : Option RenewalInput}
  {legacy : Option (Option ℤ)} {state : RenewalState} {deadline : Option ℤ}

theorem validate_ok {cycle : Option String} (h : validateEnabled s deadline cycle = .ok ()) (hen : s.enabled = true) :
    deadline.isSome := by
  unfold validateEnabled at h
  split_ifs at h with hbad
  cases deadline with
  | none => exact absurd ⟨hen, Or.inl rfl⟩ hbad
  | some instant => rfl

theorem selectedDate_isSome {timezone : String} (hzone : (C.zone timezone).isSome) (hdeadline : deadline.isSome) :
    (selectedDate C deadline timezone).isSome := by
  obtain ⟨z, hz⟩ := Option.isSome_iff_exists.1 hzone
  unfold selectedDate
  rw [hz]
  simpa using hdeadline

theorem editedZone_isSome (hzone : (C.zone s.billingTimezone).isSome) {zone : String} {changed : Bool}
    (h : editedZone C s input = .ok (zone, changed)) :
    (C.zone zone).isSome ∧ (changed = true ↔ zone ≠ s.billingTimezone) := by
  unfold editedZone at h
  split at h
  · obtain ⟨rfl, rfl⟩ := Prod.mk.inj (Except.ok.inj h)
    exact ⟨hzone, by simp⟩
  · dsimp only at h
    split_ifs at h with hnone
    obtain ⟨rfl, rfl⟩ := Prod.mk.inj (Except.ok.inj h)
    exact ⟨Option.isSome_iff_ne_none.2 (by simpa using hnone), by simp⟩

theorem applyCalendar_sound {cycle : Option String} (hzone : (C.zone s.billingTimezone).isSome)
    (h : applyCalendar C fresh s original input legacy = .ok (state, deadline))
    (hvalid : validateEnabled state deadline cycle = .ok ()) : Sound C state deadline := by
  obtain ⟨zone, changed, dated, replaced, hzone_ok, -, -, rfl⟩ := applyCalendar_ok h
  have hz := (editedZone_isSome hzone hzone_ok).1
  refine ⟨by rwa [editedState_zone], fun hen => ?_, fun hen => ?_⟩
  · have hsome := validate_ok hvalid hen
    have hdate := selectedDate_isSome hz hsome
    rw [editedState_enabled] at hen
    rw [editedState_origin, editedState_anchor, hen]
    refine ⟨rfl, ?_, hsome⟩
    split_ifs with hfill
    · simpa using hdate
    · have hkept : replaced = false ∧ s.anchorDay ≠ none := by simpa using hfill
      exact Option.isSome_iff_ne_none.2 hkept.2
  · rw [editedState_enabled] at hen
    rw [editedState_origin, hen]
    simp only [Bool.false_eq_true, if_false]
    split_ifs with h1 h2
    · exact DeadlineOrigin.noConfusion
    · exact DeadlineOrigin.noConfusion
    · exact h2

theorem advance_sound {cycle : Option String} {now : ℤ} {r : Advanced} (hs : Sound C s deadline)
    (h : advance C fresh s deadline cycle now = .ok r) : Sound C r.state r.deadline := by
  rcases advance_ok h with ⟨-, rfl⟩ | ⟨hen, original, date, rfl, -, ⟨-, rfl⟩ | ⟨-, boundary, hdeadline, hstate⟩⟩
  · exact hs
  · exact ⟨hs.zone, fun _ => ⟨(hs.enabled hen).1, rfl, rfl⟩, fun hno => absurd (hen.symm.trans hno) Bool.noConfusion⟩
  · rw [hstate, hdeadline]
    exact ⟨hs.zone, fun _ => ⟨rfl, rfl, rfl⟩, fun hno => absurd (hen.symm.trans hno) Bool.noConfusion⟩

theorem boundaryOf_isSome {date : Option Date} {timezone : String} (h : boundaryOf C date timezone = .ok deadline) :
    deadline.isSome = date.isSome := by
  unfold boundaryOf at h
  cases date with
  | none =>
    obtain rfl := Except.ok.inj h
    rfl
  | some d =>
    dsimp only at h
    cases hb : dateBoundary C d timezone with
    | error e =>
      rw [hb] at h
      cases h
    | ok boundary =>
      rw [hb] at h
      obtain rfl := Except.ok.inj h
      rfl

/-- the deadline is normalised, or stays -/
theorem Sound.normalized {normal : Option ℤ} {p : Bool} (hs : Sound C s deadline)
    (h : (if p then boundaryOf C (selectedDate C deadline s.billingTimezone) s.billingTimezone else .ok deadline) = .ok normal) :
    Sound C s normal := by
  cases p with
  | false =>
    obtain rfl := Except.ok.inj h
    exact hs
  | true =>
    have hsome := boundaryOf_isSome h
    refine ⟨hs.zone, fun hen => ?_, hs.disabled⟩
    obtain ⟨horigin, hanchor, hdeadline⟩ := hs.enabled hen
    exact ⟨horigin, hanchor, hsome.trans (selectedDate_isSome hs.zone hdeadline)⟩

/-- the id has no part in it -/
theorem Sound.setOccurrence (hs : Sound C s deadline) (id : Option ℕ) : Sound C { s with occurrenceId := id } deadline :=
  ⟨hs.zone, hs.enabled, hs.disabled⟩

/-- an accepted first schedule is an edit of the empty one -/
theorem applyInitial_sound {legacy : Option ℤ} {cycle : Option String} (hutc : (C.zone "UTC").isSome)
    (h : applyInitial C fresh input legacy cycle = .ok (state, deadline)) : Sound C state deadline := by
  unfold applyInitial at h
  split_ifs at h with hboth
  · cases h
  obtain ⟨⟨edited, dated⟩, hcalendar, h⟩ := bind_ok h
  obtain ⟨⟨⟩, hvalid, h⟩ := bind_ok h
  have hs : Sound C edited dated := applyCalendar_sound hutc hcalendar hvalid
  have hnormal : ∃ normal, (if edited.enabled then boundaryOf C (selectedDate C dated edited.billingTimezone)
      edited.billingTimezone else .ok dated) = .ok normal ∧
      (Except.ok ({ edited with occurrenceId := none }, normal) : Except String _) = .ok (state, deadline) := by
    split_ifs with hen
    · rw [if_pos hen] at h
      exact bind_ok h
    · rw [if_neg hen] at h
      exact ⟨dated, rfl, h⟩
  obtain ⟨normal, hnormal, h⟩ := hnormal
  obtain ⟨rfl, rfl⟩ := Prod.mk.inj (Except.ok.inj h)
  exact (hs.normalized hnormal).setOccurrence none

/-- a stored schedule: an advance has passed over it, so an enabled one has an occurrence id -/
structure Stored (C : Crates) (s : RenewalState) (deadline : Option ℤ) : Prop extends Sound C s deadline where
  occurrence : s.enabled = true → s.occurrenceId.isSome

theorem advance_stored {cycle : Option String} {now : ℤ} {r : Advanced} (hs : Sound C s deadline)
    (h : advance C fresh s deadline cycle now = .ok r) : Stored C r.state r.deadline := by
  refine ⟨advance_sound hs h, fun hen => ?_⟩
  rcases advance_ok h with ⟨hoff, rfl⟩ | ⟨-, original, date, rfl, -, ⟨-, rfl⟩ | ⟨-, boundary, -, hstate⟩⟩
  · exact absurd (hen.symm.trans hoff) Bool.noConfusion
  · rfl
  · rw [hstate]
    rfl

theorem reach_stored (hutc : (C.zone "UTC").isSome) (h : Reach C s deadline) : Stored C s deadline := by
  induction h with
  | create h =>
    obtain ⟨⟨first, dated⟩, hinitial, h⟩ := bind_ok h
    obtain ⟨r, hr, h⟩ := bind_ok h
    obtain ⟨rfl, rfl⟩ := Prod.mk.inj (Except.ok.inj h)
    refine advance_stored ?_ hr
    split_ifs
    · exact (applyInitial_sound hutc hinitial).setOccurrence _
    · exact applyInitial_sound hutc hinitial
  | edit hold h ih =>
    obtain ⟨edited, dated, normal, r, hcalendar, hvalid, hnormal, hr, rfl, rfl⟩ := applyEdit_ok h
    exact advance_stored ((applyCalendar_sound ih.zone hcalendar hvalid).normalized hnormal) hr
  | advance hold h ih => exact advance_stored ih.toSound h

end Invariant

end ServerBee.Renewal
