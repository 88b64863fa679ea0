/-
Runs of onboarding calls (`ServerOnboarding::onboard`): each request creates at most one server, a repeated one finds it.

The invariant of `Once` holds along every run, an answer is never taken back, and the tables change only in the step that
answers `Created`. What a later call of a pair gets is then read off the row of the pair (`Later`).
-/
import ServerBee.Authority.Lifecycle
import ServerBee.Renewal.Boundaries
import ServerBee.Onboarding.Once

namespace ServerBee.Onboarding

open ServerBee.Lib ServerBee.Authority

/-! ## The invariant along a run -/

/-- no call has come, no lock is registered -/
def start (db : Db) : State := ⟨db, fun _ => none, [], 0⟩

structure Inv (cfg : Config) (s : State) : Prop where
  locks : Locks s
  facts : Facts cfg s
  consistent : Consistent cfg s.db

section Run

variable {cfg : Config} {env : Env} {s s' : State} {c : Call} {pc : Pc}

/-- only the transaction writes, and the call has its answer with it -/
theorem Moves.tables (h : Moves cfg env s c pc s') : s'.db = s.db ∨ ∃ lock p targets serverId enrollment,
    c.pc = .ready lock p targets ∧ pc = .releasing lock (.ok (.created serverId enrollment)) ∧
      Onboarded cfg c.input p s.db s'.db serverId := by
  cases h with
  | commit lock p targets serverId enrollment db hpc hdb => exact Or.inr ⟨lock, p, targets, serverId, enrollment, hpc, rfl, hdb⟩
  | _ => exact Or.inl rfl

theorem Moves.calls (h : Moves cfg env s c pc s') : s'.calls = s.calls := by
  cases h <;> rfl

theorem Moves.rows (h : Moves cfg env s c pc s') {r : RequestRow} (hr : r ∈ s.db.requests) : r ∈ s'.db.requests := by
  rcases h.tables with hdb | ⟨_, _, _, _, _, -, -, hdb⟩
  · rwa [hdb]
  · obtain ⟨row, -, -, -, -, hrequests⟩ := hdb.request
    rw [hrequests]
    exact List.mem_append_left _ hr

/-- an answer is not taken back -/
theorem Moves.keeps (h : Moves cfg env s c pc s') {a : Answer} (ha : c.pc.answer = some a) : pc.answer = some a := by
  cases h with
  | refuse e hpc he hp => rw [hpc] at ha; cases ha
  | join lock p hpc hp hlock => rw [hpc] at ha; cases ha
  | enroll p hpc hp hlock => rw [hpc] at ha; cases ha
  | enter lock p hpc hfree => rw [hpc] at ha; cases ha
  | miss lock p hpc hnone => rw [hpc] at ha; cases ha
  | find lock p r hpc hr hasked hhash => rw [hpc] at ha; cases ha
  | settle lock p hpc targets => rw [hpc] at ha; cases ha
  | answer lock b hguard hopen hquiet hfits herror => rw [hopen] at ha; cases ha
  | commit lock p targets serverId enrollment db hpc hdb => rw [hpc] at ha; cases ha
  | release lock b hpc => rwa [hpc] at ha
  | keep lock b hpc => rwa [hpc] at ha
  | drop lock b hpc hcount => rwa [hpc] at ha
  | leave lock b hpc => rwa [hpc] at ha
  | stay => exact ha

/-- what an operation does: a call comes, or one call moves -/
theorem step_cases (cfg : Config) (s : State) (op : Op) :
    (∃ input, op = .onboard input ∧ step cfg s op = { s with calls := s.calls ++ [⟨input, .start⟩] }) ∨
    (∃ i env fresh, op = .advance i env fresh ∧ s.calls[i]? = none ∧ step cfg s op = s) ∨
    ∃ i env fresh c, op = .advance i env fresh ∧ s.calls[i]? = some c ∧ step cfg s op = { (c.step cfg env fresh s).2 with
      calls := (c.step cfg env fresh s).2.calls.set i ⟨c.input, (c.step cfg env fresh s).1⟩ } := by
  cases op with
  | onboard input => exact Or.inl ⟨input, rfl, rfl⟩
  | advance i env fresh =>
    cases hi : s.calls[i]? with
    | none =>
      refine Or.inr (Or.inl ⟨i, env, fresh, rfl, hi, ?_⟩)
      simp only [step, hi]
    | some c =>
      refine Or.inr (Or.inr ⟨i, env, fresh, c, rfl, hi, ?_⟩)
      simp only [step, hi]

/-- a call has come -/
theorem calls_append {calls : List Call} {input : OnboardServer} {j : ℕ} {d : Call}
    (h : (calls ++ [⟨input, .start⟩])[j]? = some d) : calls[j]? = some d ∨ d = ⟨input, .start⟩ := by
  rcases Nat.lt_or_ge j calls.length with hlt | hge
  · rw [List.getElem?_append_left hlt] at h
    exact Or.inl h
  · rw [List.getElem?_append_right hge] at h
    exact Or.inr (List.mem_singleton.1 (List.mem_of_getElem? h))

theorem Locks.onboard (h : Locks s) (input : OnboardServer) : Locks { s with calls := s.calls ++ [⟨input, .start⟩] } := by
  constructor
  · intro j d lock hj hd
    rcases calls_append hj with hj | rfl
    · exact h.registered j d lock hj hd
    · cases hd
  · intro j k d e lock hj hk hd he
    rcases calls_append hj with hj | rfl
    · rcases calls_append hk with hk | rfl
      · exact h.exclusive j k d e lock hj hk hd he
      · cases he
    · cases hd

theorem Facts.onboard (h : Facts cfg s) (input : OnboardServer) :
    Facts cfg { s with calls := s.calls ++ [⟨input, .start⟩] } := by
  have hnew {d : Call} (hd : d ∈ s.calls ++ [⟨input, .start⟩]) : d ∈ s.calls ∨ d = ⟨input, .start⟩ := by
    rcases List.mem_append.1 hd with hd | hd
    · exact Or.inl hd
    · exact Or.inr (List.mem_singleton.1 hd)
  refine ⟨fun d hd => ?_, fun d hd => ?_, fun d hd => ?_, fun d hd => ?_, fun j k d e hj hk hd he => ?_⟩
  · rcases hnew hd with hd | rfl
    · exact h.prepared d hd
    · exact fun _ hno => by cases hno
  · rcases hnew hd with hd | rfl
    · exact h.found d hd
    · exact fun _ _ _ hno => by cases hno
  · rcases hnew hd with hd | rfl
    · exact h.missing d hd
    · exact False.elim
  · rcases hnew hd with hd | rfl
    · exact h.answers d hd
    · exact fun _ hno => by cases hno
  · rcases calls_append hj with hj | rfl
    · rcases calls_append hk with hk | rfl
      · exact h.once j k d e hj hk hd he
      · obtain ⟨_, _, hno⟩ := he
        cases hno
    · obtain ⟨_, _, hno⟩ := hd
      cases hno

theorem Inv.step (h : Inv cfg s) (op : Op) : Inv cfg (step cfg s op) := by
  rcases step_cases cfg s op with ⟨input, -, hs⟩ | ⟨i, env, fresh, -, -, hs⟩ | ⟨i, env, fresh, c, -, hi, hs⟩
  · rw [hs]
    exact ⟨h.locks.onboard input, h.facts.onboard input, h.consistent⟩
  · rwa [hs]
  · rw [hs]
    refine ⟨h.locks.step hi, h.facts.step h.locks hi, ?_⟩
    rcases (step_moves cfg env fresh s c).tables with hdb | ⟨_, p, _, serverId, _, -, -, hdb⟩
    · dsimp only
      rw [hdb]
      exact h.consistent
    · exact hdb.consistent h.consistent

theorem start_inv {db : Db} (hdb : Consistent cfg db) : Inv cfg (start db) := by
  refine ⟨⟨fun i c lock hi => ?_, fun i j c d lock hi => ?_⟩, ⟨fun c hc => ?_, fun c hc => ?_, fun c hc => ?_, fun c hc => ?_,
    fun i j c d hi => ?_⟩, hdb⟩
  · cases hi
  · cases hi
  · cases hc
  · cases hc
  · cases hc
  · cases hc
  · cases hi

theorem runs_inv (h : Inv cfg s) (ops : List Op) : Inv cfg (runs (step cfg) s ops) := by
  induction ops generalizing s with
  | nil => exact h
  | cons op ops ih => exact ih (h.step op)

/-! ## Answers stay -/

theorem step_answer (cfg : Config) (op : Op) {j : ℕ} {d : Call} {a : Answer} (hj : s.calls[j]? = some d)
    (ha : d.pc.answer = some a) : ∃ d', (step cfg s op).calls[j]? = some d' ∧ d'.input = d.input ∧ d'.pc.answer = some a := by
  have hlt : j < s.calls.length := (List.getElem?_eq_some_iff.1 hj).1
  rcases step_cases cfg s op with ⟨input, -, hs⟩ | ⟨i, env, fresh, -, -, hs⟩ | ⟨i, env, fresh, c, -, hi, hs⟩
  · rw [hs]
    exact ⟨d, (List.getElem?_append_left hlt).trans hj, rfl, ha⟩
  · rw [hs]
    exact ⟨d, hj, rfl, ha⟩
  · have hmoves := step_moves cfg env fresh s c
    rw [hs]
    dsimp only
    rw [hmoves.calls]
    by_cases hij : i = j
    · subst hij
      obtain rfl := Option.some.inj (hi.symm.trans hj)
      exact ⟨_, List.getElem?_set_self hlt, rfl, hmoves.keeps ha⟩
    · rw [List.getElem?_set_ne hij]
      exact ⟨d, hj, rfl, ha⟩

theorem runs_answer (cfg : Config) (ops : List Op) {j : ℕ} {d : Call} {a : Answer} (hj : s.calls[j]? = some d)
    (ha : d.pc.answer = some a) :
    ∃ d', (runs (step cfg) s ops).calls[j]? = some d' ∧ d'.input = d.input ∧ d'.pc.answer = some a := by
  induction ops generalizing s d with
  | nil => exact ⟨d, hj, rfl, ha⟩
  | cons op ops ih =>
    obtain ⟨d', hj', hinput, ha'⟩ := step_answer cfg op hj ha
    obtain ⟨d'', hj'', hinput', ha''⟩ := ih hj' ha'
    exact ⟨d'', hj'', hinput'.trans hinput, ha''⟩

end Run

/-! ## A call after the row of its pair -/

/-- what a call of the pair of a stored request gets; `failed` says that one of its reads may fail -/
def Later (cfg : Config) (failed : Prop) (r : RequestRow) (input : OnboardServer) (a : Answer) : Prop :=
  match prepare cfg 0 input with
  | .error e => a = .error e
  | .ok p => (failed ∧ ∃ e, a = .error (.store e)) ∨
    if r.normalizedInputHash = p.inputHash then ∃ offer, a = .ok (.replayed r.serverId offer) else a = .error .idempotencyConflict

section Stored

variable {cfg : Config} {env : Env} {s s' : State} {d : Call} {pc : Pc} {r : RequestRow} {failed : Prop}

theorem Consistent.same {db : Db} (h : Consistent cfg db) {input : OnboardServer} {r r' : RequestRow} (hr : r ∈ db.requests)
    (hr' : r' ∈ db.requests) (hasked : Asked input r) (hasked' : Asked input r') : r' = r := by
  by_contra hne
  have hsymm : Std.Symm fun r r' : RequestRow => ¬ (r.actorId = r'.actorId ∧ r.requestId = r'.requestId) :=
    ⟨fun a b hab hba => hab ⟨hba.1.symm, hba.2.symm⟩⟩
  exact h.unique.forall hr' hr hne ⟨hasked'.1.trans hasked.1.symm, hasked'.2.trans hasked.2.symm⟩

theorem Pc.prepared_of_guard {pc : Pc} {lock : ℕ} (hguard : pc.guard = some lock) (hopen : pc.answer = none) :
    ∃ p, pc.prepared = some p := by
  cases pc with
  | locked lock p => exact ⟨p, rfl⟩
  | found lock p serverId => exact ⟨p, rfl⟩
  | missing lock p => exact ⟨p, rfl⟩
  | ready lock p targets => exact ⟨p, rfl⟩
  | start => cases hguard
  | queued lock p => cases hguard
  | releasing lock a => cases hopen
  | cleaning lock a => cases hopen
  | leaving lock a => cases hopen
  | done a => cases hopen

/-- a call that gets its answer while the row of its pair is there -/
theorem Moves.later (h : Moves cfg env s d pc s') (hinv : Inv cfg s) (hd : d ∈ s.calls) (hr : r ∈ s.db.requests)
    (hasked : Asked d.input r) (hopen : d.pc.answer = none)
    (hfailed : env.fails 0 = true ∨ env.fails 1 = true → failed) {a : Answer} (ha : pc.answer = some a) :
    Later cfg failed r d.input a := by
  have hmissed : ¬ d.pc.Missed := fun hno => hinv.facts.missing d hd hno r hr hasked
  cases h with
  | refuse e hpc he hp =>
    obtain rfl := Option.some.inj ha
    unfold Later
    rw [hp]
  | answer lock b hguard hnone hquiet hfits herror =>
    obtain rfl := Option.some.inj ha
    obtain ⟨p, hp⟩ := Pc.prepared_of_guard hguard hopen
    have hprepare : prepare cfg 0 d.input = .ok p := hinv.facts.prepared d hd p hp
    have hfit := hfits (fun q hq => hinv.facts.prepared d hd q hq) (fun l q serverId hpc => hinv.facts.found d hd l q serverId hpc)
    unfold Later
    rw [hprepare]
    dsimp only
    cases b with
    | ok result =>
      cases result with
      | created serverId enrollment => exact hquiet.elim
      | replayed serverId offer =>
        obtain ⟨q, hq, r', hr', hasked', hhash, hserver⟩ := hfit
        obtain rfl := Except.ok.inj (hprepare.symm.trans hq)
        obtain rfl := hinv.consistent.same hr hr' hasked hasked'
        refine Or.inr ?_
        rw [if_pos hhash, hserver]
        exact ⟨offer, rfl⟩
    | error e =>
      rcases herror hmissed e rfl with rfl | ⟨⟨x, rfl⟩, hwhy⟩
      · obtain ⟨q, hq, r', hr', hasked', hhash⟩ := hfit
        obtain rfl := Except.ok.inj (hprepare.symm.trans hq)
        obtain rfl := hinv.consistent.same hr hr' hasked hasked'
        refine Or.inr ?_
        rw [if_neg hhash]
      · refine Or.inl ⟨?_, x, rfl⟩
        rcases hwhy with h0 | h1 | ⟨l, q, serverId, hpc, hgone⟩
        · exact hfailed (Or.inl h0)
        · exact hfailed (Or.inr h1)
        · -- the server of a stored request is there
          obtain ⟨r', hr', -, -, hserver⟩ := hinv.facts.found d hd l q serverId hpc
          obtain ⟨server, hs, hid⟩ := hinv.consistent.references r' hr'
          exact absurd (hid.trans hserver) (hgone server hs)
  | commit lock p targets serverId enrollment db hpc hdb => exact absurd (by rw [hpc]; trivial) hmissed
  | join lock p hpc hp hlock => cases ha
  | enroll p hpc hp hlock => cases ha
  | enter lock p hpc hfree => cases ha
  | miss lock p hpc hnone => cases ha
  | find lock p r hpc hr hasked hhash => cases ha
  | settle lock p hpc targets => cases ha
  | release lock b hpc => rw [hpc] at hopen; cases hopen
  | keep lock b hpc => rw [hpc] at hopen; cases hopen
  | drop lock b hpc hcount => rw [hpc] at hopen; cases hopen
  | leave lock b hpc => rw [hpc] at hopen; cases hopen
  | stay => rw [hopen] at ha; cases ha

/-- the row is there, and the answers of call `j` follow it -/
structure Behind (cfg : Config) (failed : Prop) (r : RequestRow) (j : ℕ) (s : State) : Prop where
  stored : r ∈ s.db.requests
  follows : ∀ d a, s.calls[j]? = some d → Asked d.input r → d.pc.answer = some a → Later cfg failed r d.input a

theorem Behind.step {j : ℕ} (h : Behind cfg failed r j s) (hinv : Inv cfg s) {op : Op}
    (hfailed : ∀ env fresh, op = .advance j env fresh → env.fails 0 = true ∨ env.fails 1 = true → failed) :
    Behind cfg failed r j (step cfg s op) := by
  rcases step_cases cfg s op with ⟨input, -, hs⟩ | ⟨i, env, fresh, -, -, hs⟩ | ⟨i, env, fresh, c, hop, hi, hs⟩
  · rw [hs]
    refine ⟨h.stored, fun d a hj hasked ha => ?_⟩
    rcases calls_append hj with hj | rfl
    · exact h.follows d a hj hasked ha
    · cases ha
  · rwa [hs]
  · have hmoves := step_moves cfg env fresh s c
    rw [hs]
    refine ⟨hmoves.rows h.stored, fun d a hj hasked ha => ?_⟩
    rw [hmoves.calls] at hj
    rcases calls_set hj with ⟨rfl, rfl⟩ | ⟨-, hj⟩
    · cases hopen : c.pc.answer with
      | none => exact hmoves.later hinv (List.mem_of_getElem? hi) h.stored hasked hopen (hfailed env fresh hop) ha
      | some b =>
        obtain rfl := Option.some.inj ((hmoves.keeps hopen).symm.trans ha)
        exact h.follows c b hi hasked hopen
    · exact h.follows d a hj hasked ha

/-- one of the reads of call `j` fails in these operations -/
def Failed (j : ℕ) (ops : List Op) : Prop :=
  ∃ env fresh, .advance j env fresh ∈ ops ∧ (env.fails 0 = true ∨ env.fails 1 = true)

theorem Behind.run {j : ℕ} (h : Behind cfg failed r j s) (hinv : Inv cfg s) {ops : List Op} (hfailed : Failed j ops → failed) :
    Behind cfg failed r j (runs (Onboarding.step cfg) s ops) := by
  induction ops generalizing s with
  | nil => exact h
  | cons op ops ih =>
    refine ih (h.step hinv fun env fresh hop hfails => ?_) (hinv.step op) fun ⟨env, fresh, hmem, hfails⟩ => ?_
    · exact hfailed ⟨env, fresh, by rw [hop]; exact List.mem_cons_self, hfails⟩
    · exact hfailed ⟨env, fresh, List.mem_cons_of_mem _ hmem, hfails⟩

end Stored

/-! ## Whole runs -/

/-- call `j` has not come yet, or has no answer yet -/
def Unanswered (s : State) (j : ℕ) : Prop := ∀ d, s.calls[j]? = some d → d.pc.answer = none

/-- what a call gets after the first call of its pair has created the server -/
def AfterFirst (cfg : Config) (failed : Prop) (first : OnboardServer) (serverId : ℕ) (input : OnboardServer) (a : Answer) : Prop :=
  ∃ p, prepare cfg 0 first = .ok p ∧
    match prepare cfg 0 input with
    | .error e => a = .error e
    | .ok q => (failed ∧ ∃ e, a = .error (.store e)) ∨
      if q.normalized = p.normalized ∧ input.offerTtl = first.offerTtl then ∃ offer, a = .ok (.replayed serverId offer)
      else a = .error .idempotencyConflict

structure Idempotent (cfg : Config) (db : Db) (ops : List Op) : Prop where
  /-- two calls of a pair do not both create -/
  once : ∀ (i j : ℕ) c d, (runs (step cfg) (start db) ops).calls[i]? = some c → (runs (step cfg) (start db) ops).calls[j]? = some d →
    Created c → Created d → SamePair c.input d.input → i = j
  /-- a server comes from a call that says so -/
  accounted : ∀ server ∈ (runs (step cfg) (start db) ops).db.authority.servers, server ∈ db.authority.servers ∨
    ∃ c ∈ (runs (step cfg) (start db) ops).calls, ∃ enrollment, c.pc.answer = some (.ok (.created server.id enrollment))
  limit : 0 < cfg.maxServers → (runs (step cfg) (start db) ops).db.authority.servers.length ≤ cfg.maxServers
  /-- the steps of a call that does not create leave every table -/
  leaves : ∀ ops₁ i env fresh ops₂, ops = ops₁ ++ .advance i env fresh :: ops₂ →
    ∀ c, (runs (step cfg) (start db) ops).calls[i]? = some c → ¬ Created c →
      (runs (step cfg) (start db) (ops₁ ++ [.advance i env fresh])).db = (runs (step cfg) (start db) ops₁).db
  /-- a request that was stored before the run -/
  stored : ∀ r ∈ db.requests, ∀ (j : ℕ) d a, (runs (step cfg) (start db) ops).calls[j]? = some d → Asked d.input r →
    d.pc.answer = some a → Later cfg (Failed j ops) r d.input a
  later : ∀ ops₁ ops₂, ops = ops₁ ++ ops₂ → ∀ c ∈ (runs (step cfg) (start db) ops₁).calls, ∀ serverId enrollment,
    c.pc.answer = some (.ok (.created serverId enrollment)) → ∀ j, Unanswered (runs (step cfg) (start db) ops₁) j →
      ∀ d, (runs (step cfg) (start db) ops).calls[j]? = some d → SamePair c.input d.input →
        ∀ a, d.pc.answer = some a → AfterFirst cfg (Failed j ops₂) c.input serverId d.input a

section Whole

variable {cfg : Config} {db : Db} {s : State}

theorem prepare_hash {input : OnboardServer} {p : Prepared} (h : prepare cfg 0 input = .ok p) :
    p.inputHash = p.normalized.hash cfg.encoding input.offerTtl := by
  unfold prepare at h
  dsimp only at h
  split at h
  · cases h
  · split_ifs at h
    obtain rfl := Except.ok.inj h
    rfl

/-- the row of the first call is what the later one is compared with -/
theorem Later.after {failed : Prop} {first input : OnboardServer} {p : Prepared} {r : RequestRow} {a : Answer}
    (hE : cfg.encoding.Faithful) (hp : prepare cfg 0 first = .ok p) (hhash : r.normalizedInputHash = p.inputHash)
    (h : Later cfg failed r input a) : AfterFirst cfg failed first r.serverId input a := by
  refine ⟨p, hp, ?_⟩
  unfold Later at h
  cases hq : prepare cfg 0 input with
  | error e =>
    rw [hq] at h
    exact h
  | ok q =>
    rw [hq] at h
    refine h.imp_right fun h => ?_
    have hsame : r.normalizedInputHash = q.inputHash ↔ q.normalized = p.normalized ∧ input.offerTtl = first.offerTtl := by
      rw [hhash, prepare_hash hp, prepare_hash hq, eq_comm]
      exact hash_inj hE
    rwa [if_congr hsame rfl rfl] at h

theorem step_accounted (op : Op) (h : ∀ server ∈ s.db.authority.servers, server ∈ db.authority.servers ∨
      ∃ c ∈ s.calls, ∃ enrollment, c.pc.answer = some (.ok (.created server.id enrollment))) :
    ∀ server ∈ (step cfg s op).db.authority.servers, server ∈ db.authority.servers ∨
      ∃ c ∈ (step cfg s op).calls, ∃ enrollment, c.pc.answer = some (.ok (.created server.id enrollment)) := by
  have hkept (server : Authority.Server) (hs : server ∈ s.db.authority.servers) : server ∈ db.authority.servers ∨
      ∃ c ∈ (step cfg s op).calls, ∃ enrollment, c.pc.answer = some (.ok (.created server.id enrollment)) := by
    refine (h server hs).imp_right fun ⟨c, hc, enrollment, ha⟩ => ?_
    obtain ⟨j, hj⟩ := List.mem_iff_getElem?.1 hc
    obtain ⟨d, hd, -, ha'⟩ := step_answer cfg op hj ha
    exact ⟨d, List.mem_of_getElem? hd, enrollment, ha'⟩
  rcases step_cases cfg s op with ⟨input, -, hs⟩ | ⟨i, env, fresh, -, -, hs⟩ | ⟨i, env, fresh, c, -, hi, hs⟩
  · intro server hserver
    rw [hs] at hserver
    exact hkept server hserver
  · intro server hserver
    rw [hs] at hserver
    exact hkept server hserver
  · have hmoves := step_moves cfg env fresh s c
    intro server hserver
    have hdb : (step cfg s op).db = (c.step cfg env fresh s).2.db := by rw [hs]
    rw [hdb] at hserver
    rcases hmoves.tables with hsame | ⟨lock, p, targets, serverId, enrollment, -, hpc, honboarded⟩
    · rw [hsame] at hserver
      exact hkept server hserver
    · obtain ⟨row, hid, -, hservers⟩ := honboarded.server
      rw [hservers] at hserver
      rcases List.mem_append.1 hserver with hserver | hserver
      · exact hkept server hserver
      · obtain rfl := List.mem_singleton.1 hserver
        refine Or.inr ⟨⟨c.input, (c.step cfg env fresh s).1⟩, ?_, enrollment, ?_⟩
        · rw [hs]
          dsimp only
          rw [hmoves.calls]
          exact List.mem_set (List.getElem?_eq_some_iff.1 hi).1 _
        · rw [hid]
          dsimp only
          rw [hpc]
          rfl

theorem runs_accounted (ops : List Op) (h : ∀ server ∈ s.db.authority.servers, server ∈ db.authority.servers ∨
      ∃ c ∈ s.calls, ∃ enrollment, c.pc.answer = some (.ok (.created server.id enrollment))) :
    ∀ server ∈ (runs (step cfg) s ops).db.authority.servers, server ∈ db.authority.servers ∨
      ∃ c ∈ (runs (step cfg) s ops).calls, ∃ enrollment, c.pc.answer = some (.ok (.created server.id enrollment)) := by
  induction ops generalizing s with
  | nil => exact h
  | cons op ops ih => exact ih (step_accounted op h)

/-- a step that writes leaves its call with a created answer -/
theorem step_leaves {i fresh : ℕ} {env : Env} (h : ∀ c, (step cfg s (.advance i env fresh)).calls[i]? = some c → ¬ Created c) :
    (step cfg s (.advance i env fresh)).db = s.db := by
  rcases step_cases cfg s (.advance i env fresh) with ⟨input, hop, -⟩ | ⟨i', env', fresh', -, -, hs⟩ | ⟨i', env', fresh', c, hop, hi, hs⟩
  · cases hop
  · rw [hs]
  · obtain ⟨rfl, rfl, rfl⟩ := Op.advance.inj hop
    have hmoves := step_moves cfg env fresh s c
    have hmoved : (step cfg s (.advance i env fresh)).calls[i]? = some ⟨c.input, (c.step cfg env fresh s).1⟩ := by
      rw [hs]
      dsimp only
      rw [hmoves.calls]
      exact List.getElem?_set_self (List.getElem?_eq_some_iff.1 hi).1
    rw [hs]
    rcases hmoves.tables with hsame | ⟨lock, p, targets, serverId, enrollment, -, hpc, -⟩
    · exact hsame
    · refine absurd ⟨serverId, enrollment, ?_⟩ (h _ hmoved)
      rw [hpc]
      rfl

/-- **Onboarding is idempotent and atomic.** In every interleaving: each request creates at most one server; a call that
does not answer `Created` leaves every table; and a call without an answer when the server of its pair is created gets that
server or a conflict, unless its own input is refused or one of its reads fails. Requests have one hash iff they normalize to
one profile. -/
theorem onboard_idempotent (cfg : Config) (hE : cfg.encoding.Faithful) (db : Db) (hdb : Consistent cfg db) (ops : List Op) :
    Idempotent cfg db ops ∧
    ∀ f profile p f' profile' p' ttl, NormalizedProfile.fromInput cfg.crates f profile = .ok p →
      NormalizedProfile.fromInput cfg.crates f' profile' = .ok p' →
      (p.hash cfg.encoding ttl = p'.hash cfg.encoding ttl ↔ p = p') := by
  have hinv (ops : List Op) : Inv cfg (runs (step cfg) (start db) ops) := runs_inv (start_inv hdb) ops
  refine ⟨⟨(hinv ops).facts.once, runs_accounted ops fun server hs => Or.inl hs, (hinv ops).consistent.limit, ?_, ?_, ?_⟩, ?_⟩
  · rintro ops₁ i env fresh ops₂ rfl c hc hno
    rw [runs_append]
    refine step_leaves fun d hd ⟨serverId, enrollment, ha⟩ => hno ?_
    -- the answer is still there at the end
    obtain ⟨d', hd', -, ha'⟩ := runs_answer cfg ops₂ hd ha
    rw [runs_append] at hc
    obtain rfl := Option.some.inj (hd'.symm.trans hc)
    exact ⟨serverId, enrollment, ha'⟩
  · intro r hr j d a hj hasked ha
    have hbehind : Behind cfg (Failed j ops) r j (start db) := ⟨hr, fun _ _ hno => by cases hno⟩
    exact (hbehind.run (hinv []) id).follows d a hj hasked ha
  · rintro ops₁ ops₂ rfl c hc serverId enrollment hcreated j hopen d hj hpair a ha
    obtain ⟨p, hp, r, hr, hasked, hhash, rfl⟩ := (hinv ops₁).facts.answers c hc _ hcreated
    have hbehind : Behind cfg (Failed j ops₂) r j (runs (step cfg) (start db) ops₁) := by
      refine ⟨hr, fun e b he _ hb => ?_⟩
      rw [hopen e he] at hb
      cases hb
    rw [runs_append] at hj
    have hlater := (hbehind.run (hinv ops₁) id).follows d a hj ⟨hasked.1.trans hpair.1, hasked.2.trans hpair.2⟩ ha
    exact hlater.after hE hp hhash
  · intro f profile p f' profile' p' ttl _ _
    rw [hash_inj hE, and_iff_left rfl]

end Whole

/-! ## A repeated request -/

def plainConfig : Config := ⟨plainHash, Renewal.utcCrates, plainEncoding, 1⟩

def emptyDb : Db := ⟨Authority.Db.empty, [], [], [], [], []⟩

theorem emptyDb_consistent (cfg : Config) : Consistent cfg emptyDb :=
  ⟨List.Pairwise.nil, fun _ hr => (List.not_mem_nil hr).elim, fun _ => Nat.zero_le _⟩

theorem minute_valid : 1 ≤ (60 : ℤ) ∧ (60 : ℤ) ≤ 86400 := by decide

def newServer (name : String) : OnboardServer where
  actorId := "admin"
  requestId := "first"
  source := "web"
  profile := ⟨none, name, none, ["edge"], none, none, none, none, none, none, none, none, none⟩
  offerTtl := ⟨60, minute_valid⟩

/-- a call runs through its steps -/
def wholeCall (input : OnboardServer) (i : ℕ) (faults : List Bool) : List Op :=
  .onboard input :: faults.map fun fault => .advance i ⟨fun _ => 0, fun _ => fault, fun _ => "abcdefgh01234567"⟩ 0

/-- the server is created -/
def firstRequest : List Op := wholeCall (newServer "web-1") 0 (List.replicate 8 false)

/-- the request comes again: the lookup fails; then with a blank name -/
def repeatedRequest : List Op :=
  wholeCall (newServer "web-1") 1 [false, false, true, false, false, false] ++ wholeCall (newServer " ") 2 [false]

def answers (cfg : Config) (ops : List Op) : List (Option Answer) :=
  (runs (step cfg) (start emptyDb) ops).calls.map fun c => c.pc.answer

def createdOf : Option Answer → Option ℕ
  | some (.ok (.created i _)) => some i
  | _ => none

/-- **A repeated request is not always replayed or refused as a conflict.** Three calls of one pair, one after the other: the
first creates the server, the second asks for the same and its lookup fails, the third has a blank name. -/
theorem repeated_refused :
    (runs (step plainConfig) (start emptyDb) (firstRequest ++ repeatedRequest)).calls.map (·.input) =
      [newServer "web-1", newServer "web-1", newServer " "] ∧
    (answers plainConfig firstRequest).map createdOf = [some 0] ∧
    (answers plainConfig (firstRequest ++ repeatedRequest)).tail =
      [some (.error (.store .db)), some (.error (.invalid "name is required"))] := by
  refine ⟨?_, ?_, ?_⟩
  · decide +kernel
  · decide +kernel
  · decide +kernel

theorem onboard_idempotent_repeated :
    Idempotent plainConfig emptyDb (firstRequest ++ repeatedRequest) ∧
    ∀ f profile p f' profile' p' ttl, NormalizedProfile.fromInput plainConfig.crates f profile = .ok p →
      NormalizedProfile.fromInput plainConfig.crates f' profile' = .ok p' →
      (p.hash plainConfig.encoding ttl = p'.hash plainConfig.encoding ttl ↔ p = p') :=
  onboard_idempotent plainConfig plainEncoding_faithful emptyDb (emptyDb_consistent plainConfig) (firstRequest ++ repeatedRequest)

end ServerBee.Onboarding
