/-
Losing the terminal capability ends every live terminal.

The loop closes the sessions when it reads a transition without the capability, so a tick that takes the capability away must
broadcast one. Some do not (`Announces`): when one of the tick's events has no time the tick fails after it has set the effective
bits, and when the journal has already seen the new active bits the tick reports no change. A closed session is
reported once, and once more when the end of its PTY arrives later (`Guarded`).
-/
import ServerBee.Capabilities.Terminals
import ServerBee.Lib.Run

namespace ServerBee.Capabilities

open ServerBee.Lib

def CapabilityTransition.hasTerminal (transition : CapabilityTransition) : Bool :=
  hasCapability transition.effective CapabilityKey.terminal.toBit

variable (representable : ℤ → Bool)

/-- a tick that changes the effective bits broadcasts a transition -/
def Announces (a : CapabilityAuthority) (store : CapabilityGrantStore) (now : ℤ) (flush : Flush) : Prop :=
  let e := evaluate store a.base a.journal.observedActive now
  if e.activeBits = a.journal.observedActive then a.journal.dirty = true ∧ flush ≠ .saved
  else wellTimed representable store now e.changes = true

instance (a : CapabilityAuthority) (store : CapabilityGrantStore) (now : ℤ) (flush : Flush) :
    Decidable (Announces representable a store now flush) := by
  unfold Announces
  infer_instance

/-- a tick takes the capability away while a session is open and nothing unread would close it -/
def Strands (s : State) (store : CapabilityGrantStore) (now : ℤ) : Prop :=
  s.authority.has .terminal = true ∧
    hasCapability (evaluate store s.authority.base s.authority.journal.observedActive now).effective
      CapabilityKey.terminal.toBit = false ∧
    s.sessions ≠ [] ∧ ∀ transition ∈ s.unread, transition.hasTerminal = true

instance (s : State) (store : CapabilityGrantStore) (now : ℤ) : Decidable (Strands s store now) :=
  inferInstanceAs (Decidable (_ ∧ _ ∧ _ ∧ _))

/-- the event reports no session that the loss of the capability has closed -/
def TerminalEvent.Unreported (s : State) : TerminalEvent → Prop
  | .exited _ pty => s.since pty = none
  | _ => True

instance (s : State) (event : TerminalEvent) : Decidable (event.Unreported s) := by
  unfold TerminalEvent.Unreported
  split <;> infer_instance

def Guarded (s : State) : Op → Prop
  | .tick store now flush => Strands s store now → Announces representable s.authority store now flush
  | .event => s.reporting = [] → ∀ event ∈ s.events.head?, event.Unreported s
  | _ => True

instance (s : State) (op : Op) : Decidable (Guarded representable s op) := by
  unfold Guarded
  split <;> infer_instance

/-- a session that the loss of the capability has closed: one TerminalError, and that first -/
def ReportedOnce (frames : List Frame) : Prop := ∃ later, frames = .terminalError :: later ∧ .terminalError ∉ later

/-- what every step is meant to keep -/
structure Kept (s : State) (op : Op) : Prop where
  ended : (step representable s op).unread = [] → (step representable s op).authority.has .terminal = false →
    (step representable s op).sessions = []
  opened : ∀ session ∈ (step representable s op).sessions, session ∈ s.sessions ∨ s.authority.has .terminal = true
  bounded : (step representable s op).sessions.length ≤ maxTerminalSessions
  reported : ∀ pty frames, (step representable s op).since pty = some frames →
    frames = [] ∧ pty ∈ (step representable s op).reporting.map PtySession.pty ∨ ReportedOnce frames

/-! ## Ticks -/

section Ticks

variable {representable} {a : CapabilityAuthority} {store : CapabilityGrantStore} {now : ℤ} {flush : Flush}

/-- a tick sets the effective bits, whether it fails or not -/
theorem tick_effective : (tick representable a store now flush).1.effective =
    (evaluate store a.base a.journal.observedActive now).effective := by
  simp only [tick, observe]
  split_ifs <;> rfl

theorem tick_sent {transition : CapabilityTransition} (h : (tick representable a store now flush).2 = some transition) :
    transition.effective = (tick representable a store now flush).1.effective := by
  rw [tick_effective]
  simp only [tick, observe] at h
  split_ifs at h <;> (cases h; rfl)

theorem Announces.sends (h : Announces representable a store now flush)
    (hlocal : (evaluate store a.base a.journal.observedActive now).effective ≠ a.effective) :
    ∃ transition, (tick representable a store now flush).2 = some transition := by
  unfold Announces at h
  simp only [tick, observe]
  by_cases hsame : (evaluate store a.base a.journal.observedActive now).activeBits = a.journal.observedActive
  · rw [if_pos hsame] at h
    simp [hsame, h.1, h.2, hlocal]
  · rw [if_neg hsame] at h
    by_cases hflush : flush = .saved
    · simp [hsame, h, hflush]
    · simp [hsame, h, hflush, hlocal]

end Ticks

/-! ## The invariant -/

/-- a session is closed, or will be by what the loop has yet to read -/
structure Inv (s : State) : Prop where
  live : s.authority.has .terminal = false → s.sessions = [] ∨ ∃ transition ∈ s.unread, transition.hasTerminal = false
  bounded : s.sessions.length ≤ maxTerminalSessions
  drawn : ∀ session ∈ s.sessions, session.pty < s.ptys
  distinct : (s.sessions.map PtySession.pty).Nodup
  unopened : ∀ pty, s.ptys ≤ pty → s.since pty = none
  awaiting : ∀ session ∈ s.reporting, s.since session.pty = some []
  reportedOnce : (s.reporting.map PtySession.pty).Nodup
  reported : ∀ pty frames, s.since pty = some frames →
    frames = [] ∧ pty ∈ s.reporting.map PtySession.pty ∨ ReportedOnce frames

section Steps

variable {representable} {s : State}

theorem Inv.init (authority : CapabilityAuthority) : Inv (State.init authority) where
  live _ := Or.inl rfl
  bounded := Nat.zero_le _
  drawn session h := absurd h List.not_mem_nil
  distinct := List.nodup_nil
  unopened _ _ := rfl
  awaiting session h := absurd h List.not_mem_nil
  reportedOnce := List.nodup_nil
  reported pty frames h := by cases h

theorem mem_broadcast (transition : CapabilityTransition) : transition ∈ (s.broadcast transition).unread := by
  unfold State.broadcast
  split_ifs <;> simp

theorem Inv.broadcast (hi : Inv s) {authority : CapabilityAuthority} {transition : CapabilityTransition}
    (heff : transition.effective = authority.effective) :
    Inv (State.broadcast { s with authority := authority } transition) := by
  have hlive : authority.has .terminal = false →
      ∃ t ∈ (State.broadcast { s with authority := authority } transition).unread, t.hasTerminal = false := by
    intro hno
    refine ⟨transition, mem_broadcast transition, ?_⟩
    rwa [CapabilityTransition.hasTerminal, heff]
  unfold State.broadcast at hlive ⊢
  split_ifs at hlive ⊢
  · exact { hi with live := fun hno => Or.inr (hlive hno) }
  · exact { hi with live := fun hno => Or.inr (hlive hno) }

theorem Inv.tick (hi : Inv s) {store : CapabilityGrantStore} {now : ℤ} {flush : Flush}
    (hguard : Strands s store now → Announces representable s.authority store now flush) :
    Inv (step representable s (.tick store now flush)) := by
  have heff : (Capabilities.tick representable s.authority store now flush).1.effective =
      (evaluate store s.authority.base s.authority.journal.observedActive now).effective := tick_effective
  have hsent (transition : CapabilityTransition)
      (hsome : (Capabilities.tick representable s.authority store now flush).2 = some transition) :
      transition.effective = (Capabilities.tick representable s.authority store now flush).1.effective := tick_sent hsome
  simp only [step]
  cases hres : Capabilities.tick representable s.authority store now flush with
  | mk authority transition =>
    rw [hres] at heff hsent
    cases transition with
    | some transition => exact hi.broadcast (hsent transition rfl)
    | none =>
      refine { hi with live := fun hno => ?_ }
      -- nothing is broadcast: the tick strands no session
      by_cases hhad : s.authority.has .terminal = true
      · by_contra hopen
        push Not at hopen
        have hlost : hasCapability (evaluate store s.authority.base s.authority.journal.observedActive now).effective
            CapabilityKey.terminal.toBit = false := by
          rw [← heff]
          exact hno
        have hstrands : Strands s store now := ⟨hhad, hlost, hopen.1, fun t ht => by simpa using hopen.2 t ht⟩
        obtain ⟨transition, hsome⟩ := (hguard hstrands).sends fun hsame => by
          rw [hsame] at hlost
          exact Bool.false_ne_true (hlost.symm.trans hhad)
        rw [hres] at hsome
        cases hsome
      · exact hi.live (by simpa using hhad)

theorem Inv.closeAll (hi : Inv s) (hidle : s.reporting = []) (unread : List CapabilityTransition) :
    Inv (State.closeAll { s with unread := unread }) where
  live _ := Or.inl rfl
  bounded := Nat.zero_le _
  drawn session h := absurd h List.not_mem_nil
  distinct := List.nodup_nil
  unopened pty hpty := by
    have hno : pty ∉ s.sessions.map PtySession.pty := by
      intro hmem
      obtain ⟨session, hsession, rfl⟩ := List.mem_map.1 hmem
      exact absurd (hi.drawn session hsession) (Nat.not_lt.2 hpty)
    simp only [State.closeAll, if_neg hno]
    exact hi.unopened pty hpty
  awaiting session hsession := by
    exact if_pos (List.mem_map_of_mem hsession)
  reportedOnce := hi.distinct
  reported pty frames hframes := by
    simp only [State.closeAll] at hframes ⊢
    split_ifs at hframes with hmem
    · exact Or.inl ⟨(Option.some.inj hframes).symm, hmem⟩
    · rcases hi.reported pty frames hframes with ⟨-, hno⟩ | hold
      · simp [hidle] at hno
      · exact Or.inr hold

theorem Inv.close (hi : Inv s) (id : String) : Inv (s.close id) := by
  refine { hi with live := ?_, bounded := ?_, drawn := ?_, distinct := ?_ }
  · intro hno
    rcases hi.live hno with hnil | hunread
    · exact Or.inl (by simp [State.close, hnil])
    · exact Or.inr hunread
  · exact Nat.le_trans (List.length_filter_le _ _) hi.bounded
  · intro session hsession
    exact hi.drawn session (List.mem_filter.1 hsession).1
  · exact hi.distinct.sublist (List.filter_sublist.map _)

/-- a frame, sent by an idle loop, that is no second report -/
theorem Inv.sendFrame (hi : Inv s) (hidle : s.reporting = []) {pty : ℕ} {frame : Frame}
    (hframe : frame = .terminalError → s.since pty = none) : Inv (s.sendFrame pty frame) := by
  refine { hi with unopened := ?_, awaiting := ?_, reported := ?_ }
  · intro p hp
    by_cases heq : p = pty
    · subst heq
      simp [State.sendFrame, hi.unopened p hp]
    · simp [State.sendFrame, heq, hi.unopened p hp]
  · intro session hsession
    rw [show (s.sendFrame pty frame).reporting = [] from hidle] at hsession
    cases hsession
  · intro p frames hp
    right
    have hold (frames : List Frame) (h : s.since p = some frames) : ReportedOnce frames := by
      rcases hi.reported p frames h with ⟨-, hno⟩ | h
      · simp [hidle] at hno
      · exact h
    by_cases heq : p = pty
    · subst heq
      simp only [State.sendFrame, Function.update_self] at hp
      obtain ⟨old, hold', rfl⟩ := Option.map_eq_some_iff.1 hp
      obtain ⟨later, rfl, hlater⟩ := hold old hold'
      refine ⟨later ++ [frame], rfl, ?_⟩
      intro hmem
      rcases List.mem_append.1 hmem with hmem | hmem
      · exact hlater hmem
      · rw [hframe (List.mem_singleton.1 hmem).symm] at hold'
        cases hold'
    · simp only [State.sendFrame, Function.update_of_ne heq] at hp
      exact hold frames hp

theorem Inv.report (hi : Inv s) : Inv (step representable s .report) := by
  simp only [step]
  split
  · exact hi
  · rename_i session rest hrest
    have hnone : s.since session.pty = some [] := hi.awaiting session (hrest ▸ List.mem_cons_self)
    have hnodup := hi.reportedOnce
    rw [hrest, List.map_cons, List.nodup_cons] at hnodup
    refine { hi with unopened := ?_, awaiting := ?_, reportedOnce := hnodup.2, reported := ?_ }
    · intro p hp
      have hne : p ≠ session.pty := by
        rintro rfl
        rw [hi.unopened _ hp] at hnone
        cases hnone
      simp [State.sendFrame, hne, hi.unopened p hp]
    · intro other hother
      have hne : other.pty ≠ session.pty := fun heq => hnodup.1 (heq ▸ List.mem_map_of_mem hother)
      simp only [State.sendFrame, Function.update_of_ne hne]
      exact hi.awaiting other (hrest ▸ List.mem_cons_of_mem _ hother)
    · intro p frames hp
      by_cases heq : p = session.pty
      · subst heq
        simp only [State.sendFrame, Function.update_self, hnone, Option.map_some, List.nil_append, Option.some.injEq] at hp
        exact Or.inr ⟨[], hp.symm, List.not_mem_nil⟩
      · simp only [State.sendFrame, Function.update_of_ne heq] at hp
        refine (hi.reported p frames hp).imp_left fun h => ⟨h.1, ?_⟩
        have hmem := h.2
        rw [hrest, List.map_cons, List.mem_cons] at hmem
        exact hmem.resolve_left heq

theorem Inv.openTerminal (hi : Inv s) (id : String) (fails : Bool) : Inv (s.openTerminal id fails) := by
  unfold State.openTerminal
  split_ifs with hhas hfull hthere hfails
  · exact { hi with }
  · exact { hi with }
  · exact hi
  · exact { hi with }
  · refine { hi with live := ?_, bounded := ?_, drawn := ?_, distinct := ?_, unopened := ?_ }
    · intro hno
      simp only at hno
      simp [hno] at hhas
    · simp only [List.length_append, List.length_singleton]
      omega
    · intro session hsession
      rcases List.mem_append.1 hsession with hold | hnew
      · exact Nat.lt_succ_of_lt (hi.drawn session hold)
      · rw [List.mem_singleton.1 hnew]
        exact Nat.lt_succ_self _
    · rw [List.map_append, List.nodup_append]
      refine ⟨hi.distinct, by simp, ?_⟩
      intro p hp q hq
      obtain ⟨session, hsession, rfl⟩ := List.mem_map.1 hp
      rw [List.mem_singleton.1 hq]
      exact Nat.ne_of_lt (hi.drawn session hsession)
    · intro p hp
      exact hi.unopened p (Nat.le_of_succ_le hp)

theorem Inv.idleStep (hi : Inv s) (hidle : s.reporting = []) {op : Op}
    (hguard : op = .event → ∀ event ∈ s.events.head?, event.Unreported s) : Inv (idleStep s op) := by
  cases op with
  | terminalOpen id fails => exact hi.openTerminal id fails
  | terminalInput id fails =>
    cases fails with
    | true => exact hi.close id
    | false => exact hi
  | terminalClose id => exact hi.close id
  | transition =>
    simp only [Capabilities.idleStep]
    split_ifs
    · exact { hi with }
    · split
      · exact hi
      · rename_i transition rest hrest
        simp only [State.handleTransition]
        split_ifs with hhas
        · refine { hi with live := fun hno => (hi.live hno).imp_right ?_ }
          rintro ⟨t, ht, hlost⟩
          rw [hrest] at ht
          rcases List.mem_cons.1 ht with rfl | ht
          · exact absurd (hlost.symm.trans hhas) Bool.false_ne_true
          · exact ⟨t, ht, hlost⟩
        · exact hi.closeAll hidle rest
  | event =>
    simp only [Capabilities.idleStep]
    split
    · exact hi
    · rename_i event rest hevents
      have hrest : Inv { s with events := rest } := { hi with }
      cases event with
      | output id pty => exact hrest.sendFrame hidle fun hno => by cases hno
      | started id pty => exact hrest.sendFrame hidle fun hno => by cases hno
      | exited id pty => exact (hrest.close id).sendFrame hidle fun _ => hguard rfl (.exited id pty) (by simp [hevents])
      | error id => exact hrest
  | tick store now flush => exact hi
  | report => exact hi
  | spawned i => exact hi
  | reader i act => exact hi

theorem Inv.readerStep (hi : Inv s) (session : PtySession) (act : ReaderStep) : Inv (readerStep s session act) := by
  cases act with
  | output =>
    simp only [Capabilities.readerStep]
    split_ifs
    · exact { hi with }
    · exact hi
  | exits =>
    simp only [Capabilities.readerStep]
    split_ifs
    · exact { hi with }
    · exact hi
  | aborts =>
    simp only [Capabilities.readerStep]
    split_ifs
    · exact hi
    · exact { hi with }

theorem Inv.step (hi : Inv s) {op : Op} (hguard : Guarded representable s op) : Inv (step representable s op) := by
  have hloop (hop : op = .event → s.reporting = [] → ∀ event ∈ s.events.head?, event.Unreported s) :
      Inv (if s.reporting = [] then Capabilities.idleStep s op else s) := by
    split_ifs with hidle
    · exact hi.idleStep hidle fun heq => hop heq hidle
    · exact hi
  cases op with
  | tick store now flush => exact hi.tick hguard
  | report => exact hi.report
  | spawned i =>
    simp only [Capabilities.step]
    split
    · exact hi
    · split_ifs
      · exact { hi with }
      · exact hi
  | reader i act =>
    simp only [Capabilities.step]
    split
    · exact hi
    · exact hi.readerStep _ act
  | event => exact hloop fun _ => hguard
  | terminalOpen id fails => exact hloop fun hno => by cases hno
  | terminalInput id fails => exact hloop fun hno => by cases hno
  | terminalClose id => exact hloop fun hno => by cases hno
  | transition => exact hloop fun hno => by cases hno

end Steps

/-! ## Runs -/

section Runs

variable {representable} {s : State}

@[simp] theorem sessions_broadcast (transition : CapabilityTransition) :
    (s.broadcast transition).sessions = s.sessions := by
  unfold State.broadcast
  split_ifs <;> rfl

theorem mem_sessions_openTerminal {id : String} {fails : Bool} {session : PtySession}
    (h : session ∈ (s.openTerminal id fails).sessions) : session ∈ s.sessions ∨ s.authority.has .terminal = true := by
  by_cases hhas : s.authority.has .terminal = true
  · exact Or.inr hhas
  · left
    simpa [State.openTerminal, hhas, State.spawn] using h

theorem mem_sessions_close {id : String} {session : PtySession} (h : session ∈ (s.close id).sessions) :
    session ∈ s.sessions := (List.mem_filter.1 h).1

theorem mem_sessions_handleEvent {event : TerminalEvent} {session : PtySession}
    (h : session ∈ (s.handleEvent event).sessions) : session ∈ s.sessions := by
  cases event with
  | exited id pty => exact mem_sessions_close h
  | _ => exact h

theorem mem_sessions_idleStep {op : Op} {session : PtySession} (h : session ∈ (idleStep s op).sessions) :
    session ∈ s.sessions ∨ s.authority.has .terminal = true := by
  cases op with
  | terminalOpen id fails => exact mem_sessions_openTerminal h
  | terminalInput id fails =>
    cases fails with
    | true => exact Or.inl (mem_sessions_close h)
    | false => exact Or.inl h
  | terminalClose id => exact Or.inl (mem_sessions_close h)
  | transition =>
    left
    simp only [idleStep, State.handleTransition] at h
    split_ifs at h
    · exact h
    · split at h
      · exact h
      · split_ifs at h
        · exact h
        · cases h
  | event =>
    left
    simp only [idleStep] at h
    split at h
    · exact h
    · have hmem := mem_sessions_handleEvent h
      exact hmem
  | _ => exact Or.inl h

/-- only an open adds a session, and only with the capability -/
theorem mem_sessions_step {op : Op} {session : PtySession} (h : session ∈ (step representable s op).sessions) :
    session ∈ s.sessions ∨ s.authority.has .terminal = true := by
  have hloop (h : session ∈ (if s.reporting = [] then idleStep s op else s).sessions) :
      session ∈ s.sessions ∨ s.authority.has .terminal = true := by
    split_ifs at h
    · exact mem_sessions_idleStep h
    · exact Or.inl h
  cases op with
  | tick store now flush =>
    left
    simp only [step] at h
    split at h
    · exact h
    · simpa using h
  | report =>
    left
    simp only [step] at h
    split at h <;> exact h
  | spawned i =>
    left
    simp only [step] at h
    split at h
    · exact h
    · split_ifs at h <;> exact h
  | reader i act =>
    left
    simp only [step] at h
    split at h
    · exact h
    · cases act <;> simp only [readerStep] at h <;> split_ifs at h <;> exact h
  | event => exact hloop h
  | terminalOpen id fails => exact hloop h
  | terminalInput id fails => exact hloop h
  | terminalClose id => exact hloop h
  | transition => exact hloop h

theorem Inv.kept (hi : Inv s) {op : Op} (hguard : Guarded representable s op) : Kept representable s op where
  ended hunread hno := by
    rcases (hi.step hguard).live hno with hnil | ⟨transition, hmem, -⟩
    · exact hnil
    · rw [hunread] at hmem
      cases hmem
  opened _ h := mem_sessions_step h
  bounded := (hi.step hguard).bounded
  reported := (hi.step hguard).reported

/-- **Losing the terminal capability.** In a run whose ticks that strand a session announce it, and in which the end of a
PTY that the loss has closed is never read: once the loop has read every transition no session is open without the
capability, none opens without it, at most three are open, and each session closed so is reported once, and that first -/
theorem terminals_end_with_capability (authority : CapabilityAuthority) (ops : List Op)
    (hguard : Along (step representable) (Guarded representable) (State.init authority) ops) :
    Along (step representable) (Kept representable) (State.init authority) ops :=
  Along.of_invariant (I := Inv) (fun _ _ hi hg => hi.step hg) (fun _ _ hi hg => hi.kept hg) (Inv.init authority) hguard

end Runs

/-! ## Terminals that outlive the capability -/

/-- the years that chrono represents -/
def chronoSeconds (t : ℤ) : Bool := decide (-8334601228800 ≤ t) && decide (t ≤ 8210266876799)

def defaultCaps : BitVec 32 := 1852

def terminalGrant : GrantRecord := ⟨"terminal", 0, 1000, "root", none⟩

/-- the journal has seen the grant -/
def observed : CapabilityAuthority := .tryNew defaultCaps none [terminalGrant] 0 0 .saved

/-- the grant was recorded while the agent was down -/
def restarted : CapabilityAuthority := .tryNew defaultCaps (some ⟨0, none, [], false⟩) [terminalGrant] 0 0 .saved

/-- the grant is revoked, the loop closes the session and reports it -/
def revocation : List Op :=
  [.terminalOpen "t" false, .spawned 0, .event, .tick [] 1 .saved, .transition, .report]

theorem terminals_end_with_capability_once :
    Along (step chronoSeconds) (Kept chronoSeconds) (State.init observed) revocation :=
  terminals_end_with_capability observed revocation (by decide)

/-- the grant expires in the tick that first sees a grant from the year 318857 -/
def untimedGrant : List Op := [.terminalOpen "t" false, .tick [⟨"exec", 10000000000000, 2000, "root", none⟩] 1000 .saved]

/-- the grant is revoked before the first tick -/
def unseenGrant : List Op := [.terminalOpen "t" false, .tick [] 1 .saved]

theorem terminal_outlives_capability :
    ((runs (step chronoSeconds) (State.init observed) untimedGrant).unread = [] ∧
      (runs (step chronoSeconds) (State.init observed) untimedGrant).authority.has .terminal = false ∧
      (runs (step chronoSeconds) (State.init observed) untimedGrant).sessions = [⟨"t", 0⟩]) ∧
    ((runs (step chronoSeconds) (State.init restarted) unseenGrant).unread = [] ∧
      (runs (step chronoSeconds) (State.init restarted) unseenGrant).authority.has .terminal = false ∧
      (runs (step chronoSeconds) (State.init restarted) unseenGrant).sessions = [⟨"t", 0⟩]) ∧
    (runs (step chronoSeconds) (State.init observed) (revocation ++ [.reader 0 .exits, .event])).since 0 =
      some [.terminalError, .terminalError] := by
  decide

end ServerBee.Capabilities
