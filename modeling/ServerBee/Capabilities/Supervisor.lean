/-
The supervisor of the security pipeline (`security/manager.rs`: `SecurityManager::start`, `spawn_supervised`, `Drop`).

The authority stores the effective set, then sends it on the watch channel; the supervisor subscribes, reads the channel,
starts the pipeline with the effective set as it is then, and waits. Any of these steps may come between two of the others.
The supervisor is the channel's only receiver. A manager is the list of its tasks, which run until they are aborted.

`start` returns a manager without tasks where the capability is gone again, and the supervisor keeps it as a running one.
`pipeline_follows`: as long as no such manager meets a channel that wants the pipeline, and nothing was lost before the
supervisor subscribed, the pipeline runs whenever the supervisor rests exactly if the capability is effective.
-/
import ServerBee.Capabilities.Authority
import ServerBee.Lib.Run
import ServerBee.Lib.Watch

namespace ServerBee.Supervisor

open ServerBee.Lib ServerBee.Capabilities

/-! ## Model -/

abbrev Caps := BitVec 32

def CAP_SECURITY_EVENTS : Caps := CapabilityKey.securityEvents.toBit

def wants (caps : Caps) : Bool := hasCapability caps CAP_SECURITY_EVENTS

structure SecurityConfig where
  enabled : Bool
  portScanEnabled : Bool
  /-- `cfg!(target_os = "linux")` -/
  linux : Bool
deriving DecidableEq, Repr

inductive PipelineTask where
  | sshdStream
  | sshPipeline
  | conntrackStream
  | kernelStream
  | scanPipeline
deriving DecidableEq, Repr

structure SecurityManager where
  handles : List PipelineTask
deriving DecidableEq, Repr

def SecurityManager.disabled : SecurityManager := ⟨[]⟩

def SecurityManager.start (cfg : SecurityConfig) (agentCaps : Caps) : SecurityManager :=
  if !wants agentCaps then .disabled
  else if !cfg.enabled then .disabled
  else if !cfg.linux then .disabled
  else ⟨[.sshdStream, .sshPipeline] ++
    if cfg.portScanEnabled then [.conntrackStream, .kernelStream, .scanPipeline] else []⟩

inductive Phase where
  /-- before `subscribe_state` -/
  | spawned
  /-- before `borrow_and_update` -/
  | reading
  /-- before `start` -/
  | starting
  /-- at `changed().await` -/
  | waiting
deriving DecidableEq, Repr

structure St where
  effective : Caps
  /-- a set that is stored and not sent yet -/
  sending : Option Caps
  state : Watch Caps
  phase : Phase
  running : Option SecurityManager

/-- the authority as it is built, and a supervisor that has not run yet -/
def init (effective : Caps) : St := ⟨effective, none, .new effective, .spawned, none⟩

inductive Op where
  /-- `effective.store`, where the set changes -/
  | store (caps : Caps)
  /-- `state_tx.send` -/
  | send
  | subscribe
  | read
  | start
  | wake
deriving DecidableEq, Repr

def step (cfg : SecurityConfig) (s : St) : Op → St
  | .store caps => if s.sending = none ∧ caps ≠ s.effective then { s with effective := caps, sending := some caps } else s
  | .send =>
    match s.sending with
    | some caps => { s with state := s.state.send caps, sending := none }
    | none => s
  | .subscribe => if s.phase = .spawned then { s with state := s.state.subscribe, phase := .reading } else s
  | .read =>
    if s.phase = .reading then
      let s := { s with state := s.state.borrowAndUpdate }
      if wants s.state.value ∧ s.running = none then { s with phase := .starting }
      else if ¬ wants s.state.value then { s with running := none, phase := .waiting }
      else { s with phase := .waiting }
    else s
  | .start =>
    if s.phase = .starting then { s with running := some (.start cfg s.effective), phase := .waiting } else s
  | .wake => if s.phase = .waiting ∧ s.state.unseen then { s with phase := .reading } else s

/-- the pipeline has tasks -/
def St.pipelineRuns (s : St) : Bool := s.running.any fun m => !m.handles.isEmpty

/-- the supervisor waits, and every change of the set is sent and seen -/
structure Rests (s : St) : Prop where
  waiting : s.phase = .waiting
  sent : s.sending = none
  seen : s.state.unseen = false

/-- the pipeline runs exactly while the capability is effective -/
def Follows (s : St) : Prop := Rests s → (s.pipelineRuns = true ↔ wants s.effective = true)

/-! ## Steps that keep the pipeline in line -/

/-- the supervisor subscribes to a channel that has lost no change of the capability, and does not read that it is wanted
while it keeps a manager without tasks -/
def Meets (s : St) : Op → Prop
  | .subscribe => s.phase = .spawned → s.sending = none → wants s.state.value = wants s.effective
  | .read => s.phase = .reading → wants s.state.value = true → s.running ≠ some .disabled
  | _ => True

instance (s : St) (op : Op) : Decidable (Meets s op) := by
  cases op <;> unfold Meets <;> infer_instance

structure Inv (s : St) : Prop where
  stored : ∀ caps, s.sending = some caps → s.effective = caps
  receiver : s.phase ≠ .spawned → s.state.seen.isSome = true
  /-- the channel has what is stored, once that is sent -/
  published : s.phase ≠ .spawned → s.sending = none → wants s.state.value = wants s.effective
  idle : s.phase = .spawned ∨ s.phase = .starting → s.running = none
  asked : s.phase = .starting → s.state.unseen = false → wants s.state.value = true
  decided : s.phase = .waiting → s.state.unseen = false → (s.running.isSome = true ↔ wants s.state.value = true)
  /-- a manager without tasks has a change before it -/
  disabled : s.phase = .waiting → s.running = some .disabled → s.state.unseen = true ∨ s.sending ≠ none

theorem start_enabled {cfg : SecurityConfig} (hcfg : cfg.enabled = true ∧ cfg.linux = true) {caps : Caps}
    (h : wants caps = true) : (SecurityManager.start cfg caps).handles ≠ [] := by
  simp [SecurityManager.start, h, hcfg.1, hcfg.2]

theorem inv_init (effective : Caps) : Inv (init effective) where
  stored _ h := nomatch h
  receiver h := absurd rfl h
  published h := absurd rfl h
  idle _ := rfl
  asked h := nomatch h
  decided h := nomatch h
  disabled h := nomatch h

variable {cfg : SecurityConfig} {s : St}

theorem Inv.store (h : Inv s) (caps : Caps) : Inv (step cfg s (.store caps)) := by
  simp only [step]
  split_ifs with hstore
  · refine ⟨?_, h.receiver, ?_, h.idle, h.asked, h.decided, ?_⟩
    · intro caps' hcaps
      exact Option.some.inj hcaps
    · intro _ hnone
      cases hnone
    · intro _ _
      exact Or.inr (Option.some_ne_none caps)
  · exact h

theorem Inv.send (h : Inv s) : Inv (step cfg s .send) := by
  simp only [step]
  cases hsending : s.sending with
  | none => exact h
  | some caps =>
    have hstored := h.stored caps hsending
    have hsent : s.phase ≠ .spawned → (s.state.send caps).value = caps ∧ (s.state.send caps).unseen = true :=
      fun hphase => Watch.send_received (h.receiver hphase) caps
    have hawake : ∀ {p : Phase}, s.phase = p → p ≠ .spawned → (s.state.send caps).unseen = false → False := by
      intro p hp hne hseen
      have hunseen := (hsent (hp ▸ hne)).2
      rw [hseen] at hunseen
      cases hunseen
    refine ⟨?_, ?_, ?_, h.idle, ?_, ?_, ?_⟩
    · intro caps' hnone
      cases hnone
    · intro hphase
      rw [Watch.isSome_send]
      exact h.receiver hphase
    · intro hphase _
      rw [(hsent hphase).1, hstored]
    · intro hphase hseen
      exact (hawake hphase (by decide) hseen).elim
    · intro hphase hseen
      exact (hawake hphase (by decide) hseen).elim
    · intro hphase _
      exact Or.inl (hsent (by rw [hphase]; decide)).2

theorem Inv.subscribe (h : Inv s) (hmeets : Meets s .subscribe) : Inv (step cfg s .subscribe) := by
  simp only [step]
  split_ifs with hphase
  · refine ⟨h.stored, fun _ => rfl, fun _ hsent => hmeets hphase hsent, fun _ => h.idle (Or.inl hphase), ?_, ?_, ?_⟩
    · intro hstarting
      cases hstarting
    · intro hwaiting
      cases hwaiting
    · intro hwaiting
      cases hwaiting
  · exact h

theorem Inv.read (h : Inv s) (hmeets : Meets s .read) : Inv (step cfg s .read) := by
  simp only [step]
  split_ifs with hphase hstart hstop
  · -- the pipeline is wanted and there is none
    have hspawned : s.phase ≠ .spawned := by rw [hphase]; decide
    refine ⟨h.stored, ?_, fun _ hsent => h.published hspawned hsent, fun _ => hstart.2, fun _ _ => hstart.1, ?_, ?_⟩
    · intro _
      rw [Watch.isSome_borrow]
      exact h.receiver hspawned
    · intro hwaiting
      cases hwaiting
    · intro hwaiting
      cases hwaiting
  · -- the pipeline is wanted and there is a manager, which has tasks
    have hspawned : s.phase ≠ .spawned := by rw [hphase]; decide
    have hwants : wants s.state.value = true := hstop
    have hsome : s.running.isSome = true := by
      rw [Option.isSome_iff_ne_none]
      exact fun hnone => hstart ⟨hwants, hnone⟩
    refine ⟨h.stored, ?_, fun _ hsent => h.published hspawned hsent, ?_, ?_, fun _ _ => iff_of_true hsome hwants, ?_⟩
    · intro _
      rw [Watch.isSome_borrow]
      exact h.receiver hspawned
    · rintro (hidle | hidle) <;> cases hidle
    · intro hstarting
      cases hstarting
    · intro _ hdisabled
      exact absurd hdisabled (hmeets hphase hwants)
  · have hspawned : s.phase ≠ .spawned := by rw [hphase]; decide
    refine ⟨h.stored, ?_, fun _ hsent => h.published hspawned hsent, fun _ => rfl, ?_, ?_, ?_⟩
    · intro _
      rw [Watch.isSome_borrow]
      exact h.receiver hspawned
    · intro hstarting
      cases hstarting
    · intro _ _
      simpa using hstop
    · intro _ hnone
      cases hnone
  · exact h

theorem Inv.start (hcfg : cfg.enabled = true ∧ cfg.linux = true) (h : Inv s) : Inv (step cfg s .start) := by
  simp only [step]
  split_ifs with hphase
  · have hspawned : s.phase ≠ .spawned := by rw [hphase]; decide
    refine ⟨h.stored, fun _ => h.receiver hspawned, fun _ => h.published hspawned, ?_, ?_, ?_, ?_⟩
    · rintro (hidle | hidle) <;> cases hidle
    · intro hstarting
      cases hstarting
    · intro _ hseen
      exact iff_of_true rfl (h.asked hphase hseen)
    · -- without tasks, the set has lost the capability since the channel was read
      intro _ hdisabled
      by_contra hquiet
      rw [not_or, Bool.not_eq_true, not_not] at hquiet
      have hwants : wants s.effective = true := by
        rw [← h.published hspawned hquiet.2]
        exact h.asked hphase hquiet.1
      apply start_enabled hcfg hwants
      rw [Option.some.inj hdisabled]
      rfl
  · exact h

theorem Inv.wake (h : Inv s) : Inv (step cfg s .wake) := by
  simp only [step]
  split_ifs with hwake
  · have hspawned : s.phase ≠ .spawned := by rw [hwake.1]; decide
    refine ⟨h.stored, fun _ => h.receiver hspawned, fun _ => h.published hspawned, ?_, ?_, ?_, ?_⟩
    · rintro (hidle | hidle) <;> cases hidle
    · intro hstarting
      cases hstarting
    · intro hwaiting
      cases hwaiting
    · intro hwaiting
      cases hwaiting
  · exact h

theorem Inv.step (hcfg : cfg.enabled = true ∧ cfg.linux = true) (h : Inv s) {op : Op} (hmeets : Meets s op) :
    Inv (step cfg s op) := by
  cases op with
  | store caps => exact h.store caps
  | send => exact h.send
  | subscribe => exact h.subscribe hmeets
  | read => exact h.read hmeets
  | start => exact h.start hcfg
  | wake => exact h.wake

theorem Inv.follows (h : Inv s) : Follows s := by
  intro hrests
  have hspawned : s.phase ≠ .spawned := by rw [hrests.waiting]; decide
  have hdecided := h.decided hrests.waiting hrests.seen
  rw [← h.published hspawned hrests.sent, ← hdecided, St.pipelineRuns]
  cases hrunning : s.running with
  | none => simp
  | some m =>
    simp only [Option.any_some, Bool.not_eq_true', Option.isSome_some, iff_true, List.isEmpty_eq_false_iff]
    intro hempty
    have hm : m = .disabled := by
      cases m
      exact congrArg SecurityManager.mk hempty
    rcases h.disabled hrests.waiting (by rw [hrunning, hm]) with hunseen | hsending
    · rw [hrests.seen] at hunseen
      cases hunseen
    · exact hsending hrests.sent

/-- **The pipeline follows its capability.** With the pipeline enabled on Linux, from any effective set: in every state of a
run whose steps meet the condition, the pipeline runs whenever the supervisor rests exactly if the capability is effective. -/
theorem pipeline_follows (hcfg : cfg.enabled = true ∧ cfg.linux = true) (effective : Caps) {ops : List Op}
    (h : Along (step cfg) Meets (init effective) ops) : Follows (runs (step cfg) (init effective) ops) :=
  (h.invariant (I := Inv) (fun _ _ hs hm => hs.step hcfg hm) (inv_init effective)).follows

def linuxHost : SecurityConfig := ⟨true, true, true⟩

theorem pipeline_follows_grant :
    Follows (runs (step linuxHost) (init 0)
      [.subscribe, .read, .store CAP_SECURITY_EVENTS, .send, .wake, .read, .start, .store 0, .send, .wake, .read]) :=
  pipeline_follows ⟨rfl, rfl⟩ 0 (by decide)

/-- the capability is revoked between the read and the start, and granted again before the supervisor waits -/
def regranted : List Op :=
  [.subscribe, .read, .store 0, .send, .start, .store CAP_SECURITY_EVENTS, .send, .wake, .read]

/-- the capability is granted before the supervisor has subscribed -/
def grantedEarly : List Op := [.store CAP_SECURITY_EVENTS, .send, .subscribe, .read]

/-- in both runs the supervisor rests without a pipeline, and the capability is effective -/
theorem pipeline_off :
    ¬ Follows (runs (step linuxHost) (init CAP_SECURITY_EVENTS) regranted) ∧
      ¬ Follows (runs (step linuxHost) (init 0) grantedEarly) := by
  constructor
  · intro h
    have hruns := (h ⟨by decide, by decide, by decide⟩).2 (by decide)
    exact absurd hruns (by decide)
  · intro h
    have hruns := (h ⟨by decide, by decide, by decide⟩).2 (by decide)
    exact absurd hruns (by decide)

end ServerBee.Supervisor
