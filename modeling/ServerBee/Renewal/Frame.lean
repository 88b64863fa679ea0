/-
An edit of the billing settings changes what the operator changed (`apply_edit`).

A field is unchanged when it is left out or sent back as a client shows it (`SameEnabled`, `SameZone`, `SameDate`). The frame
conditions follow decision by decision: an unchanged date keeps the confirmed date, an unchanged date and zone keep the
deadline, and an edit with nothing changed returns the stored schedule. A change of the time zone moves the boundary of the
date; where the new boundary is past, an enabled schedule advances in the same edit, and an occurrence that had no id gets
one (`zone_change_moves`).
-/
import ServerBee.Renewal.Edits

namespace ServerBee.Renewal

open ServerBee.Lib ServerBee.Lib.Calendar

/-! ## Unchanged fields -/

def SameEnabled (s : RenewalState) (input : Option RenewalInput) : Prop :=
  ∀ b, input.bind (·.enabled) = some b → b = s.enabled

def SameZone (s : RenewalState) (input : Option RenewalInput) : Prop :=
  ∀ zone, input.bind (·.billingTimezone) = some zone → zone = some s.billingTimezone

/-- the text of the selected date, or no text when there is no date. chrono prints every date so that it parses back -/
def ShownDate (C : Crates) (oldDate : Option Date) (text : Option String) : Prop :=
  match text with
  | none => oldDate = none
  | some t => ∃ d, oldDate = some d ∧ C.printDate d = t ∧ C.parseDate t = some d

/-- an old client sends the stored instant, or the midnight of its UTC date -/
def ShownInstant (original value : Option ℤ) : Prop :=
  value = original ∨ ∃ instant, original = some instant ∧ value = some (midnight (dateAt instant))

/-- the date is left out, or sent back in one of the forms of the clients -/
structure SameDate (C : Crates) (s : RenewalState) (original : Option ℤ) (input : Option RenewalInput)
    (legacy : Option (Option ℤ)) : Prop where
  text : ∀ text, input.bind (·.expiryDate) = some text → ShownDate C (selectedDate C original s.billingTimezone) text
  instant : ∀ value, legacy = some value → ShownInstant original value

section Decisions

variable {C : Crates} {s : RenewalState} {original : Option ℤ} {input : Option RenewalInput} {legacy : Option (Option ℤ)}

-- the equations of the decisions are made here, once for the lemmas about each of them
attribute [local simp] resultingEnabled editedZone editedDate selectedDate advance applyEdit in
theorem SameEnabled.resulting (h : SameEnabled s input) : resultingEnabled s input = s.enabled := by
  unfold resultingEnabled
  cases hb : input.bind (·.enabled) with
  | none => rfl
  | some b => exact h b hb

theorem SameZone.edited (h : SameZone s input) (hzone : (C.zone s.billingTimezone).isSome) :
    editedZone C s input = .ok (s.billingTimezone, false) := by
  unfold editedZone
  cases hz : input.bind (·.billingTimezone) with
  | none => rfl
  | some zone =>
    obtain rfl := h zone hz
    obtain ⟨z, hparse⟩ := Option.isSome_iff_exists.1 hzone
    simp [hparse]

theorem dateAt_midnight (d : Date) : dateAt (midnight d) = d :=
  dateAt_iff.2 ⟨le_rfl, by unfold dayNanos; omega⟩

theorem atMidnight_midnight (d : Date) : atMidnight (midnight d) = true := by
  simp [atMidnight, midnight]

/-- the forms of the old clients are the ones that the edit takes for no change -/
theorem shownInstant_iff {value : Option ℤ} : unchangedLegacy value original = true ↔ ShownInstant original value := by
  unfold unchangedLegacy ShownInstant
  cases value with
  | none => cases original <;> simp
  | some new =>
    cases original with
    | none => simp
    | some old =>
      have hmid : (dateAt new == dateAt old && atMidnight new) = true ↔ new = midnight (dateAt old) := by
        rw [Bool.and_eq_true, beq_iff_eq]
        constructor
        · rintro ⟨hdate, hmidnight⟩
          have hbounds := dateAt_iff.1 hdate
          have hdvd : dayNanos ∣ new - midnight (dateAt old) := by
            refine Int.dvd_sub (Int.dvd_of_emod_eq_zero (by simpa [atMidnight] using hmidnight)) ?_
            exact ⟨(dateAt old).dayNumber - unixEpoch, mul_comm _ _⟩
          obtain ⟨k, hk⟩ := hdvd
          unfold dayNanos at hk hbounds
          omega
        · rintro rfl
          exact ⟨dateAt_midnight _, atMidnight_midnight _⟩
      rw [Bool.or_eq_true, hmid]
      simp

theorem ShownDate.inputDate {t : String} {oldDate : Option Date} (h : ShownDate C oldDate (some t)) :
    inputDate C t = oldDate := by
  obtain ⟨d, hold, hprint, hparse⟩ := h
  simp [Renewal.inputDate, hparse, hprint, hold]

/-- an unchanged date is not replaced -/
theorem SameDate.edited {zone : String} (h : SameDate C s original input legacy)
    (hone : input.bind (·.expiryDate) = none ∨ legacy = none) :
    editedDate C zone (selectedDate C original s.billingTimezone) original (input.bind (·.expiryDate)) legacy =
      .ok (original, false) := by
  cases htext : input.bind (·.expiryDate) with
  | none =>
    cases hlegacy : legacy with
    | none => rfl
    | some value =>
      unfold editedDate
      exact if_pos (shownInstant_iff.2 (h.instant value hlegacy))
  | some text =>
    obtain rfl := hone.resolve_left (by rw [htext]; exact fun hno => by cases hno)
    have hshown := h.text text htext
    cases text with
    | none =>
      unfold editedDate
      exact if_pos hshown
    | some t =>
      obtain ⟨d, hold, -, -⟩ := id hshown
      have hinput := hshown.inputDate
      rw [hold] at hinput
      unfold editedDate
      simp [hinput, hold]

/-- a date and an instant are not accepted together -/
theorem editedDate_one {zone : String} {oldDate : Option Date} {date : Option (Option String)} {dr : Option ℤ × Bool}
    (h : editedDate C zone oldDate original date legacy = .ok dr) : date = none ∨ legacy = none := by
  cases date with
  | none => exact Or.inl rfl
  | some text =>
    cases legacy with
    | none => exact Or.inr rfl
    | some value => cases text <;> cases h

/-- a date that is replaced is not the selected one -/
theorem editedDate_replaced {zone : String} {oldDate : Option Date} {date : Option (Option String)} {dated : Option ℤ}
    (h : editedDate C zone oldDate original date legacy = .ok (dated, true)) :
    (∃ text, date = some text ∧ text.bind (inputDate C) ≠ oldDate) ∨
      ∃ value, legacy = some value ∧ ¬ ShownInstant original value := by
  unfold editedDate at h
  split at h
  · cases h
  · split_ifs at h with hnone
    · cases h
    · exact Or.inl ⟨none, rfl, fun heq => hnone heq.symm⟩
  · rename_i t
    split at h
    · cases h
    · rename_i d hd
      split_ifs at h with hsame
      · cases h
      · refine Or.inl ⟨some t, rfl, ?_⟩
        rwa [Option.bind_some, hd]
  · rename_i value
    split_ifs at h with hsame
    · cases h
    · exact Or.inr ⟨value, rfl, fun hshown => hsame (shownInstant_iff.2 hshown)⟩
  · cases h

end Decisions

/-! ## Frame conditions -/

section Frame

variable {C : Crates} {fresh : ℕ} {model : Server} {input : Option RenewalInput} {legacy : Option (Option ℤ)}
  {billingCycle : Option String} {now : ℤ} {state : RenewalState} {deadline : Option ℤ}

/-- with nothing decided anew the columns stay -/
theorem editedState_same {s : RenewalState} (hs : Stored C s deadline) :
    editedState C fresh s s.billingTimezone false false s.enabled deadline = s := by
  obtain ⟨enabled, origin, anchor, occurrence, zone, confirmed⟩ := s
  cases enabled with
  | false =>
    have horigin : origin ≠ .projected := hs.disabled rfl
    cases origin with
    | projected => exact absurd rfl horigin
    | confirmed => rfl
    | frozen => rfl
  | true =>
    obtain ⟨horigin, hanchor, -⟩ := hs.enabled rfl
    obtain rfl : origin = .projected := horigin
    obtain ⟨day, rfl⟩ := Option.isSome_iff_exists.1 hanchor
    obtain ⟨id, rfl⟩ := Option.isSome_iff_exists.1 (hs.occurrence rfl)
    rfl

theorem validate_cycle {s : RenewalState} (h : validateEnabled s deadline billingCycle = .ok ()) (hen : s.enabled = true) :
    ∃ c, billingCycle.bind Cycle.parse = some c := by
  unfold validateEnabled at h
  split_ifs at h with hbad
  refine Option.ne_none_iff_exists'.1 fun hnone => hbad ⟨hen, Or.inr hnone⟩

/-- before the deadline an advance of a stored schedule changes nothing -/
theorem advance_same {s : RenewalState} (hs : Stored C s deadline) (hvalid : validateEnabled s deadline billingCycle = .ok ())
    (hnow : ∀ instant, deadline = some instant → now ≤ instant) :
    advance C fresh s deadline billingCycle now = .ok ⟨s, deadline, false⟩ := by
  cases hen : s.enabled with
  | false =>
    unfold advance
    exact if_pos hen
  | true =>
    obtain ⟨-, hanchor, hdeadline⟩ := hs.enabled hen
    obtain ⟨instant, rfl⟩ := Option.isSome_iff_exists.1 hdeadline
    obtain ⟨day, hday⟩ := Option.isSome_iff_exists.1 hanchor
    obtain ⟨id, hid⟩ := Option.isSome_iff_exists.1 (hs.occurrence hen)
    obtain ⟨c, hc⟩ := validate_cycle hvalid hen
    have hsome (u : ℤ) : ∃ d, selectedDate C (some u) s.billingTimezone = some d :=
      Option.isSome_iff_exists.1 (selectedDate_isSome hs.zone rfl)
    obtain ⟨date, hdate⟩ := hsome instant
    obtain ⟨today, htoday⟩ := hsome now
    have hfilled : { s with anchorDay := some day, occurrenceId := some id } = s := by
      rw [← hday, ← hid]
    unfold advance
    rw [if_neg (by simp [hen]), hvalid]
    simp only [hc, hdate, htoday, if_pos (hnow instant rfl), hday, hid, Option.getD_some, hfilled]

/-- with nothing changed an edit returns the stored schedule -/
theorem applyEdit_same (hs : Stored C (RenewalState.fromServer model) model.expiredAt)
    (henabled : SameEnabled (RenewalState.fromServer model) input) (hzone : SameZone (RenewalState.fromServer model) input)
    (hdate : SameDate C (RenewalState.fromServer model) model.expiredAt input legacy)
    (hnow : ∀ instant, model.expiredAt = some instant → now ≤ instant)
    (hone : input.bind (·.expiryDate) = none ∨ legacy = none)
    (hvalid : validateEnabled (RenewalState.fromServer model) model.expiredAt billingCycle = .ok ()) :
    applyEdit C fresh model input legacy billingCycle now = .ok (RenewalState.fromServer model, model.expiredAt) := by
  have hguard : ¬ (resultingEnabled (RenewalState.fromServer model) input = true ∧ input.bind (·.billingTimezone) = some none) :=
    fun hno => by cases hzone none hno.2
  have hcalendar : applyCalendar C fresh (RenewalState.fromServer model) model.expiredAt input legacy =
      .ok (RenewalState.fromServer model, model.expiredAt) := by
    rw [applyCalendar_eq, if_neg hguard, hzone.edited hs.zone]
    dsimp only [Except.bind]
    rw [hdate.edited hone]
    dsimp only [Except.bind, Bool.false_and]
    rw [henabled.resulting]
    exact congrArg (fun state => Except.ok (state, model.expiredAt)) (editedState_same hs)
  have henabling : (!(RenewalState.fromServer model).enabled && input.bind (·.enabled) == some true) = false := by
    rw [Bool.and_eq_false_iff]
    cases hen : (RenewalState.fromServer model).enabled with
    | true => exact Or.inl rfl
    | false =>
      refine Or.inr (beq_false_of_ne fun htrue => ?_)
      exact absurd (henabled true htrue) (by rw [hen]; exact Bool.noConfusion)
  unfold applyEdit
  dsimp only
  rw [hcalendar]
  dsimp only [bind, Except.bind]
  rw [hvalid, henabling]
  dsimp only [pure, Except.pure]
  simp only [advance_same hs hvalid hnow]
  rfl

/-- the decisions and the advance of an accepted edit -/
theorem applyEdit_decided (h : applyEdit C fresh model input legacy billingCycle now = .ok (state, deadline)) :
    ∃ edited dated normal r zone changed chosen replaced,
      Decided C fresh (RenewalState.fromServer model) model.expiredAt input legacy edited dated zone changed chosen replaced ∧
      validateEnabled edited dated billingCycle = .ok () ∧
      (SameEnabled (RenewalState.fromServer model) input ∨ resultingEnabled (RenewalState.fromServer model) input = false →
        normal = dated) ∧
      advance C (fresh + 3) edited normal billingCycle now = .ok r ∧ state = r.state ∧ deadline = r.deadline := by
  obtain ⟨edited, dated, normal, r, hcalendar, hvalid, hnormal, hr, hstate, hdeadline⟩ := applyEdit_ok h
  obtain ⟨zone, changed, chosen, replaced, hdecided⟩ := applyCalendar_ok hcalendar
  refine ⟨edited, dated, normal, r, zone, changed, chosen, replaced, hdecided, hvalid, fun hsame => ?_, hr, hstate, hdeadline⟩
  have hoff : (!(RenewalState.fromServer model).enabled && input.bind (·.enabled) == some true) = false := by
    cases hinput : input.bind (·.enabled) == some true with
    | false => exact Bool.and_false _
    | true =>
      have htrue : input.bind (·.enabled) = some true := by simpa using hinput
      rcases hsame with hsame | hoff
      · rw [← hsame true htrue]
        rfl
      · rw [resultingEnabled, htrue] at hoff
        cases hoff
  rw [hoff] at hnormal
  exact (Except.ok.inj hnormal).symm

theorem SameDate.decided {s : RenewalState} {original : Option ℤ} {edited : RenewalState} {dated : Option ℤ} {zone : String}
    {changed : Bool} {chosen : Option ℤ} {replaced : Bool} (h : SameDate C s original input legacy)
    (hd : Decided C fresh s original input legacy edited dated zone changed chosen replaced) :
    chosen = original ∧ replaced = false := by
  have hsame := hd.date_ok
  rw [h.edited (editedDate_one hd.date_ok)] at hsame
  obtain ⟨rfl, rfl⟩ := Prod.mk.inj (Except.ok.inj hsame)
  exact ⟨rfl, rfl⟩

/-- the confirmed date is replaced by another date only -/
theorem confirmed_replaced (h : applyEdit C fresh model input legacy billingCycle now = .ok (state, deadline))
    (hchanged : state.confirmedExpiredAt ≠ (RenewalState.fromServer model).confirmedExpiredAt) :
    (∃ text, input.bind (·.expiryDate) = some text ∧
        text.bind (inputDate C) ≠ selectedDate C model.expiredAt (RenewalState.fromServer model).billingTimezone) ∨
      ∃ value, legacy = some value ∧ ¬ ShownInstant model.expiredAt value := by
  obtain ⟨edited, dated, normal, r, zone, changed, chosen, replaced, hd, -, -, hr, rfl, -⟩ := applyEdit_decided h
  rw [(advance_keeps hr).1, hd.state_eq, editedState_confirmed] at hchanged
  cases replaced with
  | false => exact absurd rfl hchanged
  | true => exact editedDate_replaced hd.date_ok

/-- a schedule that is disabled after the edit keeps the deadline when neither the date nor the zone is new -/
theorem disabled_keeps (hzone : (C.zone (RenewalState.fromServer model).billingTimezone).isSome)
    (h : applyEdit C fresh model input legacy billingCycle now = .ok (state, deadline))
    (hoff : resultingEnabled (RenewalState.fromServer model) input = false)
    (hsame : SameZone (RenewalState.fromServer model) input)
    (hdate : SameDate C (RenewalState.fromServer model) model.expiredAt input legacy) : deadline = model.expiredAt := by
  obtain ⟨edited, dated, normal, r, zone, changed, chosen, replaced, hd, -, hnormal, hr, -, rfl⟩ := applyEdit_decided h
  obtain ⟨rfl, rfl⟩ := hdate.decided hd
  have hz := hd.zone_ok
  rw [hsame.edited hzone] at hz
  obtain ⟨rfl, rfl⟩ := Prod.mk.inj (Except.ok.inj hz)
  obtain rfl : model.expiredAt = dated := Except.ok.inj hd.deadline_ok
  have hen : edited.enabled = false := by
    rw [hd.state_eq, editedState_enabled, hoff]
  rw [(advance_before hr (fun hon => absurd (hon.symm.trans hen) Bool.noConfusion)).1, hnormal (Or.inr hoff)]

/-- the boundary of a date in a lawful zone lies on the date -/
theorem selectedDate_boundary (hlawful : ∀ name z, C.zone name = some z → z.Lawful dayNanos minute) {date : Date}
    {timezone : String} {boundary : ℤ} (h : dateBoundary C date timezone = .ok boundary) :
    selectedDate C (some boundary) timezone = some date := by
  cases hzone : C.zone timezone with
  | none =>
    unfold dateBoundary representableDateBoundary at h
    rw [hzone] at h
    cases h
  | some z =>
    have hz := hlawful timezone z hzone
    have hb : representableDateBoundary C date timezone = .ok (some boundary) := by
      unfold dateBoundary at h
      split at h
      · cases h
      · cases h
      · rename_i b hb
        obtain rfl := Except.ok.inj h
        exact hb
    unfold selectedDate
    rw [hzone]
    exact congrArg some ((((boundary_spec hzone hz date).1 boundary).1 hb).dateAt hz)

/-- the selected date is kept by its boundary in another zone -/
theorem selectedDate_moved (hlawful : ∀ name z, C.zone name = some z → z.Lawful dayNanos minute) {date : Option Date}
    {timezone : String} {moved : Option ℤ} (h : boundaryOf C date timezone = .ok moved) :
    selectedDate C moved timezone = date ∧ ∀ instant, moved = some instant → ∃ d, date = some d ∧
      dateBoundary C d timezone = .ok instant := by
  cases date with
  | none =>
    obtain rfl := Except.ok.inj h
    refine ⟨?_, fun _ hno => by cases hno⟩
    unfold selectedDate
    split <;> rfl
  | some d =>
    unfold boundaryOf at h
    dsimp only at h
    cases hb : dateBoundary C d timezone with
    | error e =>
      rw [hb] at h
      cases h
    | ok boundary =>
      rw [hb] at h
      obtain rfl := Except.ok.inj h
      exact ⟨selectedDate_boundary hlawful hb, fun instant he => ⟨d, rfl, by rw [hb, Option.some.inj he]⟩⟩

theorem editedZone_given {s : RenewalState} {given : Option String} {zone : String} {changed : Bool}
    (hgiven : input.bind (·.billingTimezone) = some given) (h : editedZone C s input = .ok (zone, changed)) :
    zone = given.getD "UTC" ∧ changed = decide (zone ≠ s.billingTimezone) := by
  unfold editedZone at h
  rw [hgiven] at h
  dsimp only at h
  split_ifs at h
  obtain ⟨rfl, rfl⟩ := Prod.mk.inj (Except.ok.inj h)
  exact ⟨rfl, rfl⟩

/-- a new zone alone keeps the anchor, and the date and its occurrence unless the boundary is already past -/
theorem zone_moved (hlawful : ∀ name z, C.zone name = some z → z.Lawful dayNanos minute)
    (hs : Stored C (RenewalState.fromServer model) model.expiredAt)
    (h : applyEdit C fresh model input legacy billingCycle now = .ok (state, deadline))
    (henabled : SameEnabled (RenewalState.fromServer model) input)
    (hdate : SameDate C (RenewalState.fromServer model) model.expiredAt input legacy)
    {given : Option String} (hgiven : input.bind (·.billingTimezone) = some given)
    (hnew : given.getD "UTC" ≠ (RenewalState.fromServer model).billingTimezone) :
    state.billingTimezone = given.getD "UTC" ∧ state.anchorDay = (RenewalState.fromServer model).anchorDay ∧
      (((RenewalState.fromServer model).enabled = true → ∀ date boundary,
          selectedDate C model.expiredAt (RenewalState.fromServer model).billingTimezone = some date →
          dateBoundary C date (given.getD "UTC") = .ok boundary → now ≤ boundary) →
        selectedDate C deadline (given.getD "UTC") =
            selectedDate C model.expiredAt (RenewalState.fromServer model).billingTimezone ∧
          ∀ id, (RenewalState.fromServer model).occurrenceId = some id → state.occurrenceId = some id) := by
  obtain ⟨edited, dated, normal, r, zone, changed, chosen, replaced, hd, -, hnormal, hr, rfl, rfl⟩ := applyEdit_decided h
  obtain ⟨rfl, rfl⟩ := hdate.decided hd
  obtain ⟨rfl, hchanged⟩ := editedZone_given hgiven hd.zone_ok
  obtain rfl : changed = true := hchanged.trans (decide_eq_true hnew)
  obtain rfl : normal = dated := hnormal (Or.inl henabled)
  have hedited := hd.state_eq
  rw [henabled.resulting] at hedited
  obtain ⟨hkept, hboundary⟩ := selectedDate_moved hlawful hd.deadline_ok
  have hen : edited.enabled = (RenewalState.fromServer model).enabled := by
    rw [hedited, editedState_enabled]
  have hanchor : edited.anchorDay = (RenewalState.fromServer model).anchorDay := by
    rw [hedited, editedState_anchor]
    refine if_neg fun hfill => ?_
    obtain ⟨hon, hnone⟩ := (Bool.and_eq_true_iff).1 ((Bool.false_or _).symm.trans hfill)
    rw [Option.isNone_iff_eq_none] at hnone
    exact absurd (hs.enabled hon).2.1 (by simp [hnone])
  refine ⟨?_, ?_, fun hpast => ?_⟩
  · rw [(advance_keeps hr).2.1, hedited, editedState_zone]
  · rw [advance_anchor hr (fun hon => ?_), hanchor]
    rw [hanchor]
    exact (hs.enabled (hen.symm.trans hon)).2.1
  · have hbefore := advance_before hr fun hon instant hinstant => by
      obtain ⟨date, hselected, hb⟩ := hboundary instant hinstant
      exact hpast (hen.symm.trans hon) date instant hselected hb
    refine ⟨by rw [hbefore.1, hkept], fun id hid => hbefore.2 id ?_⟩
    rw [hedited]
    exact editedState_occurrence _ _ _ _ _ _ _ hid

/-- **An edit changes what the operator changed.** A resend of the stored fields returns the stored schedule. An accepted
edit replaces the confirmed date only with a date that is not the selected one; a new zone alone keeps the anchor, and unless
the date has already ended in the new zone it keeps the date and an occurrence that has an id; a schedule that is left
disabled without a new date or zone keeps its deadline. -/
theorem edit_changes_what_was_edited (C : Crates) (hutc : (C.zone "UTC").isSome)
    (hlawful : ∀ name z, C.zone name = some z → z.Lawful dayNanos minute) (model : Server) (s : RenewalState)
    (hmodel : RenewalState.fromServer model = s) (hreach : Reach C s model.expiredAt) (now : ℤ)
    (hnow : ∀ instant, model.expiredAt = some instant → now ≤ instant) :
    (∀ fresh input legacy billingCycle, SameEnabled s input → SameZone s input → SameDate C s model.expiredAt input legacy →
      (input.bind (·.expiryDate) = none ∨ legacy = none) → validateEnabled s model.expiredAt billingCycle = .ok () →
      applyEdit C fresh model input legacy billingCycle now = .ok (s, model.expiredAt)) ∧
    (∀ fresh input legacy billingCycle state deadline,
      applyEdit C fresh model input legacy billingCycle now = .ok (state, deadline) →
      (SameEnabled s input → SameZone s input → SameDate C s model.expiredAt input legacy →
        state = s ∧ deadline = model.expiredAt) ∧
      (state.confirmedExpiredAt ≠ s.confirmedExpiredAt →
        (∃ text, input.bind (·.expiryDate) = some text ∧
          text.bind (inputDate C) ≠ selectedDate C model.expiredAt s.billingTimezone) ∨
        ∃ value, legacy = some value ∧ ¬ ShownInstant model.expiredAt value) ∧
      (SameEnabled s input → SameDate C s model.expiredAt input legacy →
        ∀ given, input.bind (·.billingTimezone) = some given → given.getD "UTC" ≠ s.billingTimezone →
          state.billingTimezone = given.getD "UTC" ∧ state.anchorDay = s.anchorDay ∧
          ((s.enabled = true → ∀ date boundary, selectedDate C model.expiredAt s.billingTimezone = some date →
              dateBoundary C date (given.getD "UTC") = .ok boundary → now ≤ boundary) →
            selectedDate C deadline (given.getD "UTC") = selectedDate C model.expiredAt s.billingTimezone ∧
            ∀ id, s.occurrenceId = some id → state.occurrenceId = some id)) ∧
      (resultingEnabled s input = false → SameZone s input → SameDate C s model.expiredAt input legacy →
        deadline = model.expiredAt)) ∧
    ∀ date timezone boundary, dateBoundary C date timezone = .ok boundary →
      selectedDate C (some boundary) timezone = some date := by
  subst hmodel
  have hs : Stored C (RenewalState.fromServer model) model.expiredAt := reach_stored hutc hreach
  refine ⟨?_, ?_, fun date timezone boundary h => selectedDate_boundary hlawful h⟩
  · intro fresh input legacy billingCycle henabled hzone hdate hone hvalid
    exact applyEdit_same hs henabled hzone hdate hnow hone hvalid
  · intro fresh input legacy billingCycle state deadline h
    refine ⟨?_, confirmed_replaced h, ?_, ?_⟩
    · intro henabled hzone hdate
      obtain ⟨edited, dated, normal, r, zone, changed, chosen, replaced, hd, hvalid, -, -, -, -⟩ := applyEdit_decided h
      obtain ⟨rfl, rfl⟩ := hdate.decided hd
      have hz := hd.zone_ok
      rw [hzone.edited hs.zone] at hz
      obtain ⟨rfl, rfl⟩ := Prod.mk.inj (Except.ok.inj hz)
      obtain rfl : model.expiredAt = dated := Except.ok.inj hd.deadline_ok
      have hedited : edited = RenewalState.fromServer model := by
        rw [hd.state_eq, henabled.resulting]
        exact editedState_same hs
      rw [hedited] at hvalid
      rw [applyEdit_same hs henabled hzone hdate hnow (editedDate_one hd.date_ok) hvalid] at h
      obtain ⟨rfl, rfl⟩ := Prod.mk.inj (Except.ok.inj h)
      exact ⟨rfl, rfl⟩
    · intro henabled hdate given hgiven hnew
      exact zone_moved hlawful hs h henabled hdate hgiven hnew
    · intro hoff hzone hdate
      exact disabled_keeps hs.zone h hoff hzone hdate

end Frame

/-! ## A schedule that moves to an eastern zone -/

/-- a zone that is `o` ahead of UTC at all times -/
def fixedZone (o : ℤ) : Zone := ⟨fun _ => o, fun l => some (l - o)⟩

theorem fixedZone_lawful {o : ℤ} (hlow : -dayNanos < o) (hhigh : o < dayNanos) : (fixedZone o).Lawful dayNanos minute where
  bounded := fun _ => ⟨hlow, hhigh⟩
  aligned := fun _ h => (h rfl).elim
  forward := fun _ => by
    rw [show (fixedZone o).offset _ - (fixedZone o).offset _ = 0 from sub_self o]
    decide
  skipped := fun u v h1 h2 => by
    change u + o ≤ v + o at h1
    change v + o < u + o at h2
    omega
  earliest_iff := fun l u => by
    change some (l - o) = some u ↔ IsLeast {v | v + o = l} u
    constructor
    · intro h
      obtain rfl := Option.some.inj h
      exact ⟨by rw [Set.mem_ofPred_eq]; omega, fun v hv => by rw [Set.mem_ofPred_eq] at hv; omega⟩
    · intro h
      have := h.1
      rw [Set.mem_ofPred_eq] at this
      exact congrArg some (by omega)

theorem fixedZone_endsAt (o : ℤ) {d e : Date} (hlt : d.monthIndex < e.monthIndex) (he : e.year ≤ maxYear) :
    EndsAt (fixedZone o) d (midnight d + dayNanos - 1 - o) := by
  have hinner : succOpt d ≠ none := fun hnone => absurd (succOpt_none hnone hlt) (not_lt.2 he)
  refine ⟨⟨0, by decide, midnight d - o, ?_⟩, Option.isSome_iff_ne_none.2 hinner, ?_, ?_⟩
  · change midnight d - o + o = midnight d + (0 : ℕ) * minute
    simp
  · change midnight d + dayNanos ≤ midnight d + dayNanos - 1 - o + 1 + o
    omega
  · intro u hu
    change midnight d + dayNanos ≤ u + o at hu
    omega

/-- Kiritimati is fourteen hours ahead of UTC -/
def islandCrates : Crates where
  zone s := if s = "UTC" then some (fixedZone 0) else if s = "Pacific/Kiritimati" then some (fixedZone (840 * minute)) else none
  parseDate t := if t = "2026-01-31" then some january31 else none
  printDate d := if d = january31 then "2026-01-31" else ""

theorem islandCrates_lawful (name : String) (z : Zone) (h : islandCrates.zone name = some z) : z.Lawful dayNanos minute := by
  simp only [islandCrates] at h
  split_ifs at h
  · obtain rfl := Option.some.inj h
    exact fixedZone_lawful (by decide) (by decide)
  · obtain rfl := Option.some.inj h
    exact fixedZone_lawful (by decide) (by decide)

def dateOf {year : ℤ} {month day : ℕ} (h : (1 ≤ month ∧ month ≤ 12) ∧ 1 ≤ day ∧ day ≤ daysInMonth year month) : Date :=
  ⟨year, month, day, h.1.1, h.1.2, h.2.1, h.2.2⟩

theorem february1_valid : (1 ≤ 2 ∧ 2 ≤ 12) ∧ 1 ≤ 1 ∧ 1 ≤ daysInMonth 2026 2 := by decide
theorem february28_valid : (1 ≤ 2 ∧ 2 ≤ 12) ∧ 1 ≤ 28 ∧ 28 ≤ daysInMonth 2026 2 := by decide
theorem march1_valid : (1 ≤ 3 ∧ 3 ≤ 12) ∧ 1 ≤ 1 ∧ 1 ≤ daysInMonth 2026 3 := by decide

def february1 : Date := dateOf february1_valid
def february28 : Date := dateOf february28_valid
def march1 : Date := dateOf march1_valid

/-- 2026-01-31 ends fourteen hours earlier in Kiritimati -/
def islandEnd : ℤ := january31End - 840 * minute

theorem january31_utc : EndsAt (fixedZone 0) january31 january31End := by
  have h := fixedZone_endsAt 0 (d := january31) (e := february28) (by decide) (by decide)
  rwa [show midnight january31 + dayNanos - 1 - 0 = january31End by decide] at h

theorem january31_island : EndsAt (fixedZone (840 * minute)) january31 islandEnd := by
  have h := fixedZone_endsAt (840 * minute) (d := january31) (e := february28) (by decide) (by decide)
  rwa [show midnight january31 + dayNanos - 1 - 840 * minute = islandEnd by decide] at h

theorem february28_island :
    EndsAt (fixedZone (840 * minute)) february28 (islandEnd + 28 * dayNanos) := by
  have h := fixedZone_endsAt (840 * minute) (d := february28) (e := march1) (by decide) (by decide)
  rwa [show midnight february28 + dayNanos - 1 - 840 * minute = islandEnd + 28 * dayNanos by decide] at h

/-- in a lawful zone an end is the boundary, and shows the date -/
theorem EndsAt.boundaryOf {C : Crates} {z : Zone} {timezone : String} {d : Date} {v : ℤ} (h : EndsAt z d v)
    (hC : C.zone timezone = some z) (hz : z.Lawful dayNanos minute) :
    boundaryOf C (some d) timezone = .ok (some v) ∧ selectedDate C (some v) timezone = some d := by
  constructor
  · unfold Renewal.boundaryOf dateBoundary
    dsimp only
    rw [((boundary_spec hC hz d).1 v).2 h]
    rfl
  · unfold selectedDate
    rw [hC]
    exact congrArg some (h.dateAt hz)

theorem search_found {C : Crates} {timezone : String} {date candidate : Date} {anchor : ℕ} {cycle : Cycle} {now boundary : ℤ}
    {periods : ℕ} (hcandidate : anchoredDate (date.monthIndex + periods * cycle.interval) anchor = some candidate)
    (hboundary : representableDateBoundary C candidate timezone = .ok (some boundary)) (hnow : now ≤ boundary) :
    search C timezone date anchor cycle now periods = .ok boundary := by
  rw [search]
  split
  · rename_i hnone
    rw [hcandidate] at hnone
    cases hnone
  · rename_i found hfound
    rw [hcandidate] at hfound
    obtain rfl := Option.some.inj hfound
    rw [hboundary]
    exact if_pos hnow

def toKiritimati : Option RenewalInput := some ⟨none, some (some "Pacific/Kiritimati"), none⟩

/-- a server created with a deadline and no billing settings, and what `renewal_state` holds for it -/
def manual : Server := ⟨1, some january31End, none, none⟩

/-- a server created as monthly with the date 2026-01-31 -/
def projected : RenewalState := ⟨true, .projected, some 31, some 3, "UTC", some january31End⟩
def monthly : Server := ⟨2, some january31End, some projected, some "monthly"⟩

/-- 2026-01-31T22:59:59.999999999Z -/
def lateJanuary31 : ℤ := january31End - 60 * minute

theorem manual_reach : Reach islandCrates (RenewalState.fromServer manual) manual.expiredAt :=
  @Reach.create _ 0 none (some january31End) none 0 _ _ rfl

theorem utc_zone : islandCrates.zone "UTC" = some (fixedZone 0) := rfl

theorem island_zone : islandCrates.zone "Pacific/Kiritimati" = some (fixedZone (840 * minute)) := rfl

theorem january31_shown : selectedDate islandCrates (some january31End) "UTC" = some january31 :=
  (january31_utc.boundaryOf utc_zone (fixedZone_lawful (by decide) (by decide))).2

/-- a client sends the form of a manual deadline back -/
theorem manual_resent :
    applyEdit islandCrates 0 manual (some ⟨some false, some (some "UTC"), some (some "2026-01-31")⟩) none none lateJanuary31 =
      .ok (RenewalState.fromServer manual, some january31End) := by
  have hframe := edit_changes_what_was_edited islandCrates rfl islandCrates_lawful manual _ rfl manual_reach lateJanuary31
    (fun instant h => by
      obtain rfl := Option.some.inj h
      decide)
  refine hframe.1 0 _ none none ?_ ?_ ?_ (Or.inr rfl) (by decide)
  · intro b hb
    exact (Option.some.inj hb).symm
  · intro zone hzone
    exact (Option.some.inj hzone).symm
  · refine ⟨fun text htext => ?_, fun value hvalue => by cases hvalue⟩
    obtain rfl := Option.some.inj htext
    exact ⟨january31, january31_shown, by decide +kernel, by decide +kernel⟩

theorem projected_reach : Reach islandCrates (RenewalState.fromServer monthly) monthly.expiredAt := by
  obtain ⟨hboundary, hselected⟩ := january31_utc.boundaryOf utc_zone (fixedZone_lawful (by decide) (by decide))
  have hinput : inputDate islandCrates "2026-01-31" = some january31 := by decide +kernel
  have hnone : selectedDate islandCrates none "UTC" = none := rfl
  have hdate : editedDate islandCrates "UTC" none none (some (some "2026-01-31")) none =
      .ok (some january31End, true) := by
    unfold editedDate
    dsimp only
    rw [hinput]
    dsimp only
    rw [hboundary]
    rfl
  have hcalendar : applyCalendar islandCrates 0 ⟨false, .confirmed, none, none, "UTC", none⟩ none
      (some ⟨some true, none, some (some "2026-01-31")⟩) none =
      .ok (⟨true, .projected, some 31, some 1, "UTC", some january31End⟩, some january31End) := by
    rw [applyCalendar_eq, if_neg (by decide)]
    dsimp only [editedZone, Option.bind_some, Except.bind]
    rw [hnone, hdate]
    simp [resultingEnabled, editedState, hselected, january31]
  have hinitial : applyInitial islandCrates 0 (some ⟨some true, none, some (some "2026-01-31")⟩) none (some "monthly") =
      .ok (⟨true, .projected, some 31, none, "UTC", some january31End⟩, some january31End) := by
    unfold applyInitial
    rw [if_neg (by decide), hcalendar]
    dsimp only [bind, Except.bind]
    rw [show validateEnabled ⟨true, .projected, some 31, some 1, "UTC", some january31End⟩ (some january31End)
      (some "monthly") = .ok () by decide]
    dsimp only
    rw [if_pos rfl, hselected, hboundary]
    rfl
  have hadvance : advance islandCrates 4 projected (some january31End) (some "monthly") lateJanuary31 =
      .ok ⟨projected, some january31End, false⟩ := by
    rw [advance_eq utc_zone (fixedZone_lawful (by decide) (by decide)) rfl (show Cycle.parse "monthly" = some .monthly by decide)
      january31_utc, if_pos (by decide)]
    rfl
  refine @Reach.create _ 0 (some ⟨some true, none, some (some "2026-01-31")⟩) none (some "monthly") lateJanuary31 _ _ ?_
  unfold create
  rw [hinitial]
  dsimp only [bind, Except.bind, Option.any, Option.isSome, Option.isNone]
  rw [if_pos (by decide)]
  have hsame : (⟨true, .projected, some 31, some (0 + 3), "UTC", some january31End⟩ : RenewalState) = projected := rfl
  rw [hsame, hadvance]
  rfl

/-- a new zone alone gives a manual deadline its first id, and moves an enabled schedule on from a date that is over there -/
theorem zone_change_moves :
    Reach islandCrates (RenewalState.fromServer manual) manual.expiredAt ∧
    applyEdit islandCrates 0 manual toKiritimati none none lateJanuary31 =
      .ok (⟨false, .confirmed, none, some 0, "Pacific/Kiritimati", some january31End⟩, some islandEnd) ∧
    Reach islandCrates (RenewalState.fromServer monthly) monthly.expiredAt ∧
    lateJanuary31 ≤ january31End ∧
    applyEdit islandCrates 6 monthly toKiritimati none (some "monthly") lateJanuary31 =
      .ok (⟨true, .projected, some 31, some 10, "Pacific/Kiritimati", some january31End⟩,
        some (islandEnd + 28 * dayNanos)) ∧
    selectedDate islandCrates (some january31End) "UTC" = some january31 ∧
    selectedDate islandCrates (some (islandEnd + 28 * dayNanos)) "Pacific/Kiritimati" = some february28 := by
  have hlawful : (fixedZone (840 * minute)).Lawful dayNanos minute := fixedZone_lawful (by decide) (by decide)
  have hisland := (january31_island.boundaryOf island_zone hlawful).1
  have hzone (s : RenewalState) (h : s.billingTimezone = "UTC") :
      editedZone islandCrates s toKiritimati = .ok ("Pacific/Kiritimati", true) := by
    simp [editedZone, toKiritimati, islandCrates, h]
  refine ⟨manual_reach, ?_, projected_reach, by decide, ?_, january31_shown, ?_⟩
  · have hcalendar : applyCalendar islandCrates 0 (RenewalState.fromServer manual) manual.expiredAt toKiritimati none =
        .ok (⟨false, .confirmed, none, some 0, "Pacific/Kiritimati", some january31End⟩, some islandEnd) := by
      rw [applyCalendar_eq, if_neg (by decide), hzone _ rfl]
      dsimp only [Except.bind, toKiritimati, editedDate, Option.bind_some, RenewalState.fromServer, manual, Option.getD]
      rw [january31_shown]
      simp [hisland, editedState, resultingEnabled]
    unfold applyEdit
    dsimp only
    rw [hcalendar]
    rfl
  · have hcalendar : applyCalendar islandCrates 6 (RenewalState.fromServer monthly) monthly.expiredAt toKiritimati none =
        .ok (⟨true, .projected, some 31, some 3, "Pacific/Kiritimati", some january31End⟩, some islandEnd) := by
      rw [applyCalendar_eq, if_neg (by decide), hzone _ rfl]
      dsimp only [Except.bind, toKiritimati, editedDate, Option.bind_some, RenewalState.fromServer, monthly, projected, Option.getD]
      rw [january31_shown]
      simp [hisland, editedState, resultingEnabled]
    have htoday : dateAt ((fixedZone (840 * minute)).clock lateJanuary31) = february1 := dateAt_iff.2 (by decide)
    have hcandidate : anchoredDate (january31.monthIndex + (1 : ℕ) * Cycle.monthly.interval) 31 = some february28 := by
      decide +kernel
    have hfound : search islandCrates "Pacific/Kiritimati" january31 31 .monthly lateJanuary31 1 =
        .ok (islandEnd + 28 * dayNanos) :=
      search_found hcandidate (((boundary_spec island_zone hlawful february28).1 _).2 february28_island) (by decide)
    have hadvance : advance islandCrates 9 ⟨true, .projected, some 31, some 3, "Pacific/Kiritimati", some january31End⟩
        (some islandEnd) (some "monthly") lateJanuary31 =
        .ok ⟨⟨true, .projected, some 31, some 10, "Pacific/Kiritimati", some january31End⟩,
          some (islandEnd + 28 * dayNanos), true⟩ := by
      rw [advance_eq island_zone hlawful rfl (show Cycle.parse "monthly" = some .monthly by decide) january31_island,
        if_neg (by decide), htoday]
      rw [show firstPeriods (february1.monthIndex - january31.monthIndex) Cycle.monthly.interval = 1 by decide]
      dsimp only [Option.getD]
      rw [hfound]
    unfold applyEdit
    dsimp only
    rw [hcalendar]
    change (advance islandCrates 9 ⟨true, .projected, some 31, some 3, "Pacific/Kiritimati", some january31End⟩
      (some islandEnd) (some "monthly") lateJanuary31).bind _ = _
    rw [hadvance]
    rfl
  · exact (february28_island.boundaryOf island_zone hlawful).2

end ServerBee.Renewal
