/-
Connection fencing.

Whenever no task holds a server's lifecycle lock, a connection registered for that server was admitted with the run
token whose hash the server row stores. A removal may come before the commit (claim, emergency re-enrollment, deletion)
or after it (revocation), so while the lock is held the invariant looks ahead: what the holder still has to play removes
the connection, or leads to tables that match it (`Machine.Fenced`).

`connection_fencing` adds the consequences: once a claim, an emergency re-enrollment, a revocation or a deletion has
succeeded, no frame of an earlier socket is handled again, and closing a socket never removes another one's connection.
-/
import ServerBee.Authority.Connections

namespace ServerBee.Authority

open ServerBee.Lib AgentManager

/-! ## What a job does to tokens and connections -/

/-- a claim's candidate still names the server whose lock the claim takes -/
def Job.Aimed (job : Job) (db : Db) : Prop :=
  match job.op with
  | .claim _ candidate _ =>
    candidate.id < db.nextId ∧ ∀ o ∈ db.offers, o.id = candidate.id → o.targetServerId = candidate.targetServerId
  | _ => True

structure JobSpec (job : Job) (db : Db) (ans : Answer) : Prop where
  moves : Moves db ans.db
  shape : (∃ es : List Effect, ans.trace = es.map .emit ∧ ans.db = db) ∨
    ∃ es es' : List Effect, ans.trace = es.map .emit ++ .commit ans.db :: es'.map .emit
  tokens : ∀ sid, tokenOf ans.db sid ≠ tokenOf db sid →
    sid ∈ job.lockIds ∧ .emit (.removeConnection sid) ∈ ans.trace
  fences : ans.succeeded = true → ∀ sid, job.Fences sid →
    sid ∈ job.lockIds ∧ (.emit (.removeConnection sid) ∈ ans.trace ∨ tokenOf db sid = none)

theorem Move.aimed {job : Job} {db db' : Db} (inv : Inv db) (hm : Move db db') (h : job.Aimed db) : job.Aimed db' := by
  unfold Job.Aimed at h ⊢
  split
  · rename_i input candidate hash hop
    rw [hop] at h
    obtain ⟨hlt, ht⟩ := h
    cases hm with
    | onboard row nextId hid hn htok => exact ⟨hlt.trans hn, ht⟩
    | delete rows events nextId hrows hnd hn hev =>
      exact ⟨lt_of_lt_of_le hlt hn, fun o ho => ht o (List.mem_filter.1 ho).1⟩
    | act a hv =>
      refine ⟨lt_of_lt_of_le hlt hv.next, fun o ho hid => ?_⟩
      rcases Act.mem_offers inv hv ho with ⟨h1, -⟩ | ⟨c, hc, rfl⟩ | hmint
      · exact ht o h1 hid
      · exact ht c.offer (hv.closes c hc).1 hid
      · obtain ⟨-, -, -, hfresh, -⟩ := hv.mints o hmint
        omega
  · trivial

theorem Moves.aimed {job : Job} {db db' : Db} (inv : Inv db) (hm : Moves db db') (h : job.Aimed db) :
    job.Aimed db' := by
  induction hm with
  | refl => exact h
  | tail hms hm ih => exact Move.aimed (Moves.inv inv hms) hm ih

section Spec

variable {A : Argon2} {db : Db} {env : Env}

theorem Failed.jobSpec {job : Job} {ans : Answer} (inv : Inv db) (hf : Failed env db ans.db ans.trace)
    (hs : ans.succeeded = false) : JobSpec job db ans := by
  have hc := hf.consumed inv
  refine ⟨hc.moves, ?_, fun sid hne => absurd (congrFun hc.tokens sid) hne, fun h => by rw [hs] at h; cases h⟩
  obtain ⟨succeeded, db', trace⟩ := ans
  cases hf with
  | quiet ks => exact Or.inl ⟨ks, rfl, rfl⟩
  | expired a server o hv hcl hd => exact Or.inr ⟨[], [], rfl⟩

/-- a job that leaves the tokens alone -/
theorem Commits.jobSpec {job : Job} {ans : Answer} (hc : Commits db ans.db (tokenOf db))
    (ht : ans.trace = [] ∧ ans.db = db ∨ ans.trace = [.commit ans.db]) (hf : ∀ sid, ¬ job.Fences sid) :
    JobSpec job db ans := by
  refine ⟨hc.moves, ?_, fun sid hne => absurd (congrFun hc.tokens sid) hne, fun _ sid h => absurd h (hf sid)⟩
  rcases ht with ⟨h1, h2⟩ | h1
  · exact Or.inl ⟨[], h1, h2⟩
  · exact Or.inr ⟨[], [], h1⟩

/-- a job that sets the token of one server, whose lock it holds, and removes its connection -/
theorem update_jobSpec {job : Job} {ans : Answer} {k : ℕ} {v : Option String} (es es' : List Effect)
    (hm : Moves db ans.db) (ht : tokenOf ans.db = Function.update (tokenOf db) k v)
    (htr : ans.trace = es.map .emit ++ .commit ans.db :: es'.map .emit)
    (hrem : Effect.removeConnection k ∈ es ++ es') (hlock : k ∈ job.lockIds) (hf : ∀ sid, job.Fences sid → k = sid) :
    JobSpec job db ans := by
  have hin : Visible.emit (Effect.removeConnection k) ∈ ans.trace := by
    rw [htr]
    rcases List.mem_append.1 hrem with h | h
    · exact List.mem_append_left _ (List.mem_map_of_mem h)
    · exact List.mem_append_right _ (List.mem_cons_of_mem _ (List.mem_map_of_mem h))
  refine ⟨hm, Or.inr ⟨es, es', htr⟩, fun sid hne => ?_, fun _ sid h => hf sid h ▸ ⟨hlock, Or.inl hin⟩⟩
  rw [ht] at hne
  exact (changed_at hne).1 ▸ ⟨hlock, hin⟩

/-- read a contract off the answer of a job -/
theorem jobSpec_of_sat {ε α : Type} {m : Action ε α} {job : Job} {ok : α → Txn.Snap Db Effect → Prop} (inv : Inv db)
    (hexec : job.exec A db = answer m env db)
    (h : Txn.Sat m env ⟨db, db, 0, []⟩ ok fun _ c t => Failed env db c t)
    (hok : ∀ r y, ok r y → JobSpec job db ⟨true, y.committed, y.trace⟩) : JobSpec job db (job.exec A db) := by
  rw [hexec]
  unfold answer
  rcases h.run with ⟨r, y, he, hr⟩ | ⟨e, c, t, he, hf⟩
  · simp only [he]
    exact hok r y hr
  · simp only [he]
    exact Failed.jobSpec inv hf rfl

theorem job_spec (inv : Inv db) (job : Job) (haim : job.Aimed db) : JobSpec job db (job.exec A db) := by
  obtain ⟨op, env⟩ := job
  cases op with
  | onboard input =>
    exact jobSpec_of_sat inv rfl (onboard_sat input inv) fun _ y h =>
      Commits.jobSpec h.1 (Or.inr h.2) fun _ hf => hf
  | issueOfferForUnclaimed input =>
    exact jobSpec_of_sat inv rfl (issueOfferForUnclaimed_sat input inv) fun _ y h =>
      Commits.jobSpec h.1 (Or.inr h.2) fun _ hf => hf
  | replaceOffer input =>
    exact jobSpec_of_sat inv rfl (replaceOffer_sat input inv) fun _ y h =>
      Commits.jobSpec h.1 (Or.inr h.2) fun _ hf => hf
  | revokeOffer input =>
    exact jobSpec_of_sat inv rfl (revokeOffer_sat input inv) fun _ y h => Commits.jobSpec h.1 h.2 fun _ hf => hf
  | claim input candidate hash =>
    refine jobSpec_of_sat inv rfl (claimCandidate_sat input candidate hash inv) ?_
    rintro _ y ⟨a, o, hc, hid, htr⟩
    obtain ⟨now, hclosed⟩ := hc.closed
    obtain ⟨hmem, -, htarget, -⟩ := hc.valid.closes _ hclosed
    -- the offer found again names the server whose lock is held
    have hsid : a.server.id = candidate.targetServerId := htarget.symm.trans (haim.2 o hmem hid)
    have htok := Act.tokenOf inv hc.valid
    rw [← hc.result] at htok
    rw [hsid] at htok htr
    exact update_jobSpec [.removeConnection candidate.targetServerId] [] (hc.result ▸ .single (.act db a hc.valid)) htok htr
      (by simp) (by simp [Job.lockIds]) fun sid h => h
  | beginReenrollment input =>
    refine jobSpec_of_sat inv rfl (beginReenrollment_sat input inv) fun _ y h => ?_
    cases hm : input.mode with
    | graceful =>
      rw [hm] at h
      refine Commits.jobSpec h.1 (Or.inr h.2) fun sid hf => ?_
      exact absurd (hm.symm.trans hf.1) (by decide)
    | emergency =>
      rw [hm] at h
      exact update_jobSpec [.removeConnection input.serverId] [] h.1.moves h.1.tokens h.2 (by simp)
        (by simp [Job.lockIds]) fun sid h => h.2
  | revokeAuthority input =>
    exact jobSpec_of_sat inv rfl (revokeAuthority_sat input inv) fun _ y h =>
      update_jobSpec [] [.removeConnection input.serverId] h.1.moves h.1.tokens h.2 (by simp)
        (by simp [Job.lockIds]) fun sid h => h
  | deleteServers input =>
    refine jobSpec_of_sat inv rfl (deleteServers_sat input inv) fun rows y h => ?_
    obtain ⟨hrows, hall, hc, hshape⟩ := h
    have hlock : ∀ sid ∈ input.serverIds, sid ∈ Job.lockIds ⟨.deleteServers input, env⟩ := by simp [Job.lockIds]
    have hin : ∀ sid ∈ rows.map (·.id), Visible.emit (Effect.removeConnection sid) ∈ y.trace := by
      intro sid hsid
      obtain ⟨r, hr, rfl⟩ := List.mem_map.1 hsid
      rcases hshape with ⟨-, rfl, -⟩ | htr
      · cases hr
      · rw [htr]
        refine List.mem_append_left _ (List.mem_map_of_mem ?_)
        exact List.mem_map.2 ⟨r, hr, rfl⟩
    refine ⟨hc.moves, ?_, fun sid hne => ?_, fun _ sid hf => ⟨hlock sid hf, ?_⟩⟩
    · rcases hshape with ⟨h1, -, h2⟩ | htr
      · exact Or.inl ⟨[], h1, h2⟩
      · exact Or.inr ⟨_, [], htr⟩
    · have hmem : sid ∈ rows.map (·.id) := by
        by_contra hn
        exact hne (by rw [hc.tokens, without, if_neg hn])
      obtain ⟨r, hr, rfl⟩ := List.mem_map.1 hmem
      exact ⟨hlock _ (hrows r hr).1, hin _ hmem⟩
    · -- a server without a row has no token to begin with
      cases hs : db.findServer sid with
      | none => exact Or.inr (by simp [tokenOf, hs])
      | some s =>
        obtain ⟨hmem, rfl⟩ := findServer_mem hs
        exact Or.inl (hin _ (List.mem_map_of_mem (hall s hmem hf)))

end Spec

/-! ## The invariant -/

/-- what a task still has to play -/
def Task.left : Task → List (Visible Db Effect)
  | .running _ _ _ _ left => left
  | _ => []

/-- what the holder of a server's lock still has to play -/
def Machine.ahead (m : Machine) (sid : ℕ) : List (Visible Db Effect) :=
  match m.locks sid with
  | none => []
  | some t => (m.tasks t).left

/-- the tables once a trace has been played -/
def lastDb (db : Db) : List (Visible Db Effect) → Db
  | [] => db
  | .commit db' :: rest => lastDb db' rest
  | .emit _ :: rest => lastDb db rest

def Matches (A : Argon2) (db : Db) (mgr : AgentManager) (sid : ℕ) : Prop :=
  ∀ c, mgr.connections sid = some c → HasToken A db sid c.token

/-- the lock's holder removes the connection, or leads to tables that match it -/
def Machine.Fenced (A : Argon2) (m : Machine) (sid : ℕ) : Prop :=
  .emit (.removeConnection sid) ∈ m.ahead sid ∨ Matches A (lastDb m.db (m.ahead sid)) m.mgr sid

structure RunningInv (m : Machine) (t : ℕ) (job : Job) (before : Db) (ans : Answer)
    (played left : List (Visible Db Effect)) : Prop where
  spec : JobSpec job before ans
  split : ans.trace = played ++ left
  held : ∀ sid ∈ job.lockIds, m.locks sid = some t
  writing : ∀ db, .commit db ∈ left → db = ans.db ∧ m.writer = some t ∧ m.db = before
  settled : (∀ db, .commit db ∉ left) → ∀ sid ∈ job.lockIds, tokenOf m.db sid = tokenOf ans.db sid
  removed : ∀ sid ∈ job.lockIds, .emit (.removeConnection sid) ∈ played → m.mgr.connections sid = none

def TaskInv (A : Argon2) (m : Machine) (t : ℕ) : Task → Prop
  | .idle => True
  | .locking job todo => job.Aimed m.db ∧ ∀ sid ∈ job.lockIds, sid ∈ todo ∨ m.locks sid = some t
  | .running job before ans played left => RunningInv m t job before ans played left
  | .pending _ _ => True
  | .admitting sid token => m.locks sid = some t ∧ HasToken A m.db sid token.value

structure MachineInv (A : Argon2) (m : Machine) : Prop where
  tables : Inv m.db
  fenced : ∀ sid, m.Fenced A sid
  tasks : ∀ t, TaskInv A m t (m.tasks t)
  connected : ∀ sid c, m.mgr.connections sid = some c → ⟨sid, c.connectionId, c.token⟩ ∈ m.sockets
  distinct : (m.sockets.map (·.connectionId)).Nodup
  numbered : ∀ s ∈ m.sockets, s.connectionId < m.mgr.nextConnectionId

theorem boot_inv {A : Argon2} {db : Db} (inv : Inv db) : MachineInv A (Machine.boot db) :=
  ⟨inv, fun _ => Or.inr nofun, fun _ => trivial, nofun, by simp [Machine.boot], nofun⟩

/-! ### What a step of one task leaves alone for the others -/

structure Frame (m m' : Machine) (t : ℕ) : Prop where
  moves : Moves m.db m'.db
  tasks : m'.tasks t = m.tasks t
  locks : ∀ sid, m.locks sid = some t → m'.locks sid = some t
  writer : m.writer = some t → m'.writer = some t ∧ m'.db = m.db
  tokens : ∀ sid, m.locks sid = some t → tokenOf m'.db sid = tokenOf m.db sid
  removed : ∀ sid, m.locks sid = some t → m.mgr.connections sid = none → m'.mgr.connections sid = none

theorem Frame.taskInv {A : Argon2} {m m' : Machine} {t : ℕ} (hf : Frame m m' t) (inv : Inv m.db)
    (h : TaskInv A m t (m.tasks t)) : TaskInv A m' t (m'.tasks t) := by
  rw [hf.tasks]
  cases htask : m.tasks t with
  | idle => trivial
  | pending sid token => trivial
  | locking job todo =>
    rw [htask] at h
    exact ⟨Moves.aimed inv hf.moves h.1, fun sid hs => (h.2 sid hs).imp id (hf.locks sid)⟩
  | admitting sid token =>
    rw [htask] at h
    obtain ⟨hlock, hash, htok, hv⟩ := h
    exact ⟨hf.locks sid hlock, hash, (hf.tokens sid hlock).trans htok, hv⟩
  | running job before ans played left =>
    rw [htask] at h
    refine ⟨h.spec, h.split, fun sid hs => hf.locks sid (h.held sid hs), fun db hdb => ?_, fun hno sid hs => ?_,
      fun sid hs hp => hf.removed sid (h.held sid hs) (h.removed sid hs hp)⟩
    · obtain ⟨h1, h2, h3⟩ := h.writing db hdb
      obtain ⟨hw, hdb'⟩ := hf.writer h2
      exact ⟨h1, hw, hdb'.trans h3⟩
    · exact (hf.tokens sid (h.held sid hs)).trans (h.settled hno sid hs)

/-- a step that touches neither the tables nor any connection -/
theorem Frame.quiet {m m' : Machine} {t : ℕ} (hdb : m'.db = m.db) (hmgr : m'.mgr = m.mgr)
    (htasks : m'.tasks t = m.tasks t) (hlocks : ∀ sid, m.locks sid = some t → m'.locks sid = some t)
    (hwriter : m.writer = some t → m'.writer = some t) : Frame m m' t where
  moves := hdb ▸ .refl m.db
  tasks := htasks
  locks := hlocks
  writer h := ⟨hwriter h, hdb⟩
  tokens _ _ := by rw [hdb]
  removed _ _ h := by rw [hmgr]; exact h

theorem HasToken.congr {A : Argon2} {db db' : Db} {sid : ℕ} {token : String} (h : HasToken A db sid token)
    (he : tokenOf db' sid = tokenOf db sid) : HasToken A db' sid token := by
  obtain ⟨hash, h1, h2⟩ := h
  exact ⟨hash, he.trans h1, h2⟩

/-! ### One step -/

section Steps

variable {A : Argon2} {m m' : Machine} {t : ℕ}

-- the equations of a step are made here, once for the lemmas about each event
attribute [local simp] Machine.step in
theorem ahead_setTask {task : Task} (h : task.left = (m.tasks t).left) (sid : ℕ) :
    (m.setTask t task).ahead sid = m.ahead sid := by
  unfold Machine.ahead Machine.setTask
  cases hl : m.locks sid with
  | none => rfl
  | some t' =>
    by_cases ht : t' = t
    · subst ht; simp [h]
    · simp [ht]

/-- taking a free lock for a task that has nothing to play -/
theorem ahead_lock {k : ℕ} (hfree : m.locks k = none) (hleft : (m.tasks t).left = []) (sid : ℕ) :
    Machine.ahead { m with locks := Function.update m.locks k (some t) } sid = m.ahead sid := by
  unfold Machine.ahead
  by_cases hk : sid = k
  · subst hk; simp [hfree, hleft]
  · simp [hk]

theorem ahead_release (hleft : (m.tasks t).left = []) (sid : ℕ) : (m.release t).ahead sid = m.ahead sid := by
  unfold Machine.ahead Machine.release
  cases hl : m.locks sid with
  | none => simp [hl]
  | some t' =>
    by_cases ht : t' = t
    · subst ht; simp [hl, hleft]
    · simp [hl, ht]

/-- a step of task `t` that touches neither the tables nor any connection -/
theorem MachineInv.quiet (h : MachineInv A m) (hdb : m'.db = m.db) (hmgr : m'.mgr = m.mgr)
    (hsockets : m'.sockets = m.sockets) (hahead : ∀ sid, m'.ahead sid = m.ahead sid)
    (hothers : ∀ t', t' ≠ t → Frame m m' t') (hown : TaskInv A m' t (m'.tasks t)) : MachineInv A m' := by
  refine ⟨hdb ▸ h.tables, fun sid => ?_, fun t' => ?_, ?_, hsockets ▸ h.distinct, ?_⟩
  · have hs := h.fenced sid
    unfold Machine.Fenced at hs ⊢
    rwa [hahead, hdb, hmgr]
  · by_cases ht : t' = t
    · exact ht ▸ hown
    · exact (hothers t' ht).taskInv h.tables (h.tasks t')
  · rw [hmgr, hsockets]; exact h.connected
  · rw [hmgr, hsockets]; exact h.numbered

theorem setTask_other {task : Task} {t' : ℕ} (ht : t' ≠ t) : (m.setTask t task).tasks t' = m.tasks t' :=
  Function.update_of_ne ht ..

theorem setTask_own {task : Task} : (m.setTask t task).tasks t = task := Function.update_self ..

theorem locks_other {k t' : ℕ} (hfree : m.locks k = none) {sid : ℕ} (hl : m.locks sid = some t') :
    Function.update m.locks k (some t) sid = some t' := by
  rw [Function.update_of_ne, hl]
  rintro rfl
  rw [hfree] at hl
  cases hl

theorem setTask_inv (h : MachineInv A m) {task : Task} (hleft : task.left = (m.tasks t).left)
    (hown : TaskInv A (m.setTask t task) t task) : MachineInv A (m.setTask t task) :=
  h.quiet rfl rfl rfl (ahead_setTask hleft)
    (fun _ ht => .quiet rfl rfl (setTask_other ht) (fun _ h => h) (fun h => h)) (by rw [setTask_own]; exact hown)

/-- task `t` takes a free lock and becomes `task`; it has nothing to play before or after -/
theorem lock_inv (h : MachineInv A m) {k : ℕ} {task : Task} (hfree : m.locks k = none)
    (hbefore : (m.tasks t).left = []) (hafter : task.left = [])
    (hown : TaskInv A (Machine.setTask { m with locks := Function.update m.locks k (some t) } t task) t task) :
    MachineInv A (Machine.setTask { m with locks := Function.update m.locks k (some t) } t task) := by
  refine h.quiet rfl rfl rfl (fun sid => ?_) (fun t' ht => ?_) (by rw [setTask_own]; exact hown)
  · refine (ahead_setTask ?_ sid).trans (ahead_lock hfree hbefore sid)
    exact hafter.trans hbefore.symm
  · exact .quiet rfl rfl (setTask_other ht) (fun _ hl => locks_other hfree hl) (fun h => h)

theorem release_other {t' : ℕ} (ht : t' ≠ t) : Frame m (m.release t) t' := by
  refine .quiet rfl rfl (Function.update_of_ne ht ..) (fun sid hl => ?_) (fun hw => ?_)
  · simp [Machine.release, hl, ht]
  · simp [Machine.release, hw, ht]

theorem release_inv (h : MachineInv A m) (hleft : (m.tasks t).left = []) : MachineInv A (m.release t) :=
  h.quiet rfl rfl rfl (ahead_release hleft) (fun _ ht => release_other ht)
    (by show TaskInv A _ t (Function.update m.tasks t .idle t); rw [Function.update_self]; trivial)

theorem prepare_aimed (inv : Inv m.db) {c : Call} {salt : String} {job : Job} (h : prepare A m.db c salt = some job) :
    job.Aimed m.db := by
  unfold prepare at h
  split at h
  · rename_i input hop
    have hsat : Txn.Sat (findOfferForCode A input.code : Action ClaimError _) c.env ⟨m.db, m.db, 0, []⟩
        (fun r _ => ∀ o, r = some o → o ∈ m.db.offers) fun _ _ _ => True :=
      findOfferForCode_sat A (fun r hr => hr) fun _ => trivial
    split at h
    · rename_i candidate _ hrun
      rcases hsat.run with ⟨r, y, he, hr⟩ | ⟨e, c', t', he, -⟩
      · rw [he] at hrun
        cases hrun
        have hmem := hr candidate rfl
        cases hh : A.hashPassword salt input.proposedRunToken.value with
        | none => rw [hh] at h; cases h
        | some hash =>
          rw [hh] at h
          cases h
          exact ⟨inv.offer_fresh _ hmem, fun o ho hid => by rw [inv.offer_eq ho hmem hid]⟩
      · rw [he] at hrun
        cases hrun
    · cases h
  all_goals cases h; trivial

theorem submit_inv (h : MachineInv A m) (c : Call) (salt : String) : MachineInv A (m.step A (.submit t c salt)) := by
  simp only [Machine.step]
  split
  · rename_i job htask hjob
    exact setTask_inv h (by rw [htask]; rfl) ⟨prepare_aimed h.tables hjob, fun sid hs => Or.inl hs⟩
  · exact h

theorem acquire_inv (h : MachineInv A m) : MachineInv A (m.step A (.acquire t)) := by
  simp only [Machine.step]
  split
  · rename_i job k todo htask
    have hown := h.tasks t
    rw [htask] at hown
    split_ifs with hfree
    · refine lock_inv h hfree (by rw [htask]; rfl) rfl ⟨hown.1, fun sid hs => ?_⟩
      by_cases hk : sid = k
      · subst hk; exact Or.inr (Function.update_self ..)
      · rcases hown.2 sid hs with hin | hl
        · exact Or.inl ((List.mem_cons.1 hin).resolve_left hk)
        · exact Or.inr ((Function.update_of_ne hk ..).trans hl)
    · exact h
  · exact h

theorem preflight_inv (h : MachineInv A m) (token : PresentedRunToken) :
    MachineInv A (m.step A (.preflight t token)) := by
  simp only [Machine.step]
  split
  · rename_i server htask _
    exact setTask_inv h (by rw [htask]; rfl) trivial
  · exact h

theorem admitPending_inv (h : MachineInv A m) : MachineInv A (m.step A (.admitPending t)) := by
  simp only [Machine.step]
  split
  · rename_i k token htask
    have hidle : MachineInv A (m.setTask t .idle) := setTask_inv h (by rw [htask]; rfl) trivial
    split_ifs with hfree
    · split
      · rename_i server hv
        split_ifs with hid
        · subst hid
          exact lock_inv h hfree (by rw [htask]; rfl) rfl
            ⟨Function.update_self .., validateAgentToken_some h.tables hv⟩
        · exact hidle
      · exact hidle
    · exact h
  · exact h

theorem finish_inv (h : MachineInv A m) : MachineInv A (m.step A (.finish t)) := by
  simp only [Machine.step]
  split
  · rename_i htask
    exact release_inv h (by rw [htask]; rfl)
  · exact h

/-! ### Playing a transaction -/

theorem lastDb_emits (db : Db) (es : List Effect) : lastDb db (es.map .emit) = db := by
  induction es with
  | nil => rfl
  | cons e es ih => exact ih

theorem lastDb_append (db : Db) (l l' : List (Visible Db Effect)) :
    lastDb db (l ++ l') = lastDb (lastDb db l) l' := by
  induction l generalizing db with
  | nil => rfl
  | cons a l ih =>
    cases a with
    | commit db' => exact ih db'
    | emit k => exact ih db

theorem JobSpec.lastDb {job : Job} {db : Db} {ans : Answer} (h : JobSpec job db ans) :
    lastDb db ans.trace = ans.db := by
  rcases h.shape with ⟨es, h1, h2⟩ | ⟨es, es', h1⟩
  · rw [h1, h2, lastDb_emits]
  · rw [h1, lastDb_append]
    exact lastDb_emits ans.db es'

theorem lastDb_none {db : Db} {l : List (Visible Db Effect)} (h : ∀ db', .commit db' ∉ l) : Authority.lastDb db l = db := by
  induction l with
  | nil => rfl
  | cons a l ih =>
    cases a with
    | commit db' => exact absurd List.mem_cons_self (h db')
    | emit k => exact ih fun db' hin => h db' (List.mem_cons_of_mem _ hin)

theorem emits_no_commit (es : List Effect) (db : Db) : Visible.commit db ∉ (es.map .emit : List (Visible Db Effect)) := by
  intro h
  obtain ⟨k, -, hk⟩ := List.mem_map.1 h
  cases hk

/-- a trace of one commit splits at a commit in one way only -/
theorem commit_split {es es' : List Effect} {db d : Db} {played left : List (Visible Db Effect)}
    (h : es.map .emit ++ .commit db :: es'.map .emit = played ++ .commit d :: left) :
    d = db ∧ left = es'.map .emit := by
  induction es generalizing played with
  | nil =>
    cases played with
    | nil =>
      simp only [List.map_nil, List.nil_append, List.cons.injEq, Visible.commit.injEq] at h
      exact ⟨h.1.symm, h.2.symm⟩
    | cons p ps =>
      simp only [List.map_nil, List.nil_append, List.cons_append, List.cons.injEq] at h
      exact absurd (show Visible.commit d ∈ (es'.map .emit : List (Visible Db Effect)) by rw [h.2]; simp)
        (emits_no_commit es' d)
  | cons e es ih =>
    cases played with
    | nil => cases h
    | cons p ps =>
      simp only [List.map_cons, List.cons_append, List.cons.injEq] at h
      exact ih h.2

/-- a trace commits once -/
theorem JobSpec.commit_once {job : Job} {db d : Db} {ans : Answer} {played left : List (Visible Db Effect)}
    (h : JobSpec job db ans) (hs : ans.trace = played ++ .commit d :: left) :
    d = ans.db ∧ ∀ db', .commit db' ∉ left := by
  rcases h.shape with ⟨es, h1, -⟩ | ⟨es, es', h1⟩
  · exact absurd (show Visible.commit d ∈ (es.map .emit : List (Visible Db Effect)) by rw [← h1, hs]; simp)
      (emits_no_commit es d)
  · obtain ⟨hd, hl⟩ := commit_split (h1.symm.trans hs)
    exact ⟨hd, hl ▸ emits_no_commit es'⟩

theorem openTx_inv (h : MachineInv A m) : MachineInv A (m.step A (.openTx t)) := by
  simp only [Machine.step]
  split
  · rename_i job htask
    have hown := h.tasks t
    rw [htask] at hown
    split_ifs with hfree
    · have hspec := job_spec (A := A) h.tables job hown.1
      have hheld : ∀ sid ∈ job.lockIds, m.locks sid = some t := fun sid hs => (hown.2 sid hs).resolve_left (by simp)
      refine ⟨h.tables, fun sid => ?_, fun t' => ?_, h.connected, h.distinct, h.numbered⟩
      · unfold Machine.Fenced Machine.ahead Machine.setTask
        have hold := h.fenced sid
        unfold Machine.Fenced Machine.ahead at hold
        cases hl : m.locks sid with
        | none => simpa [hl] using hold
        | some t' =>
          by_cases ht : t' = t
          · subst ht
            simp only [hl, htask, Task.left] at hold
            simp only [Function.update_self, Task.left, hspec.lastDb]
            by_cases htok : tokenOf (job.exec A m.db).db sid = tokenOf m.db sid
            · exact Or.inr fun c hc => ((hold.resolve_left (by simp)) c hc).congr htok
            · exact Or.inl (hspec.tokens sid htok).2
          · simpa [hl, ht] using hold
      · by_cases ht : t' = t
        · subst ht
          rw [setTask_own]
          refine ⟨hspec, rfl, hheld, fun db hdb => ?_, fun hno sid hs => ?_, fun sid _ hp => nomatch hp⟩
          · obtain ⟨played, left, hsplit⟩ := List.append_of_mem hdb
            exact ⟨(hspec.commit_once hsplit).1, rfl, rfl⟩
          · have hlast := hspec.lastDb
            rw [lastDb_none hno] at hlast
            rw [← hlast]
            rfl
        · have hframe : Frame m (Machine.setTask { m with writer := some t } t
              (.running job m.db (job.exec A m.db) [] (job.exec A m.db).trace)) t' :=
            .quiet rfl rfl (setTask_other ht) (fun _ h => h) fun hw => by rw [hfree] at hw; cases hw
          exact hframe.taskInv h.tables (h.tasks t')
    · exact h
  · exact h

theorem fenced_congr {sid : ℕ} (h : m.Fenced A sid) (hahead : m'.ahead sid = m.ahead sid)
    (htok : tokenOf (Authority.lastDb m'.db (m.ahead sid)) sid = tokenOf (Authority.lastDb m.db (m.ahead sid)) sid)
    (hconn : ∀ c, m'.mgr.connections sid = some c → m.mgr.connections sid = some c) : m'.Fenced A sid := by
  unfold Machine.Fenced
  rw [hahead]
  exact h.imp id fun hm c hc => (hm c (hconn c hc)).congr htok

/-- playing a commit: the tables become the answer's, and no other task notices -/
theorem play_commit_inv (h : MachineInv A m) {job : Job} {before d : Db} {ans : Answer}
    {played left : List (Visible Db Effect)} (htask : m.tasks t = .running job before ans played (.commit d :: left)) :
    MachineInv A ((m.perform (.commit d)).setTask t (.running job before ans (played ++ [.commit d]) left)) := by
  have hown := h.tasks t
  rw [htask] at hown
  obtain ⟨rfl, hw, rfl⟩ := hown.writing d List.mem_cons_self
  have honce := (hown.spec.commit_once hown.split).2
  have hkeep : ∀ sid, m.locks sid ≠ some t → tokenOf ans.db sid = tokenOf m.db sid := by
    intro sid hl
    by_contra hne
    exact hl (hown.held sid (hown.spec.tokens sid hne).1)
  refine ⟨Moves.inv h.tables hown.spec.moves, fun sid => ?_, fun t' => ?_, h.connected, h.distinct, h.numbered⟩
  · by_cases hl : m.locks sid = some t
    · have hold := h.fenced sid
      unfold Machine.Fenced Machine.ahead at hold ⊢
      simp only [hl, htask, Task.left] at hold
      simp only [Machine.setTask, Machine.perform, hl, Function.update_self, Task.left]
      refine hold.imp (fun hin => ?_) id
      rcases List.mem_cons.1 hin with e | hin
      · cases e
      · exact hin
    · -- another holder, if any, is not the writer: its trace has no commit left
      have hno : ∀ db, .commit db ∉ m.ahead sid := by
        intro db hin
        unfold Machine.ahead at hin
        cases hl' : m.locks sid with
        | none => rw [hl'] at hin; cases hin
        | some t' =>
          rw [hl'] at hin
          have hother := h.tasks t'
          cases htask' : m.tasks t' with
          | running job' before' ans' played' left' =>
            rw [htask'] at hother
            simp only [htask', Task.left] at hin
            have hw' := (hother.writing db hin).2.1
            rw [hw] at hw'
            exact hl (hl'.trans hw'.symm)
          | _ => simp only [htask', Task.left] at hin; cases hin
      refine fenced_congr (h.fenced sid) ?_ ?_ (fun _ hc => hc)
      · unfold Machine.ahead Machine.setTask Machine.perform
        cases hl' : m.locks sid with
        | none => rfl
        | some t' =>
          have ht : t' ≠ t := fun e => hl (hl'.trans (congrArg some e))
          simp [ht]
      · rw [lastDb_none hno, lastDb_none hno]
        exact hkeep sid hl
  · by_cases ht : t' = t
    · subst ht
      rw [setTask_own]
      refine ⟨hown.spec, by simpa using hown.split, hown.held, fun db hdb => absurd hdb (honce db), fun _ sid _ => rfl,
        fun sid hs hp => hown.removed sid hs (by simpa using hp)⟩
    · refine Frame.taskInv (m := m) ?_ h.tables (h.tasks t')
      refine ⟨hown.spec.moves, setTask_other ht, fun _ hl => hl, fun hw' => ?_, fun sid hl => ?_, fun _ _ hc => hc⟩
      · rw [hw] at hw'
        exact absurd (Option.some.inj hw').symm ht
      · exact hkeep sid (by rw [hl]; exact fun e => ht (Option.some.inj e))

theorem removeConnection_none {mgr : AgentManager} {k sid : ℕ} (h : mgr.connections sid = none) :
    (mgr.removeConnection k).connections sid = none := by
  cases hc : (mgr.removeConnection k).connections sid with
  | none => rfl
  | some c => exact absurd (removeConnection_le hc) (by rw [h]; nofun)

theorem play_emit_inv (h : MachineInv A m) {job : Job} {before : Db} {ans : Answer} {k : ℕ}
    {played left : List (Visible Db Effect)}
    (htask : m.tasks t = .running job before ans played (.emit (.removeConnection k) :: left)) :
    MachineInv A ((m.perform (.emit (.removeConnection k))).setTask t
      (.running job before ans (played ++ [.emit (.removeConnection k)]) left)) := by
  have hown := h.tasks t
  rw [htask] at hown
  refine ⟨h.tables, fun sid => ?_, fun t' => ?_, fun sid c hc => h.connected sid c (removeConnection_le hc), h.distinct,
    h.numbered⟩
  · have hold := h.fenced sid
    by_cases hk : sid = k
    · -- the connection is gone
      subst hk
      refine Or.inr fun c hc => ?_
      exact absurd (removeConnection_self.symm.trans hc) nofun
    by_cases hl : m.locks sid = some t
    · unfold Machine.Fenced Machine.ahead at hold ⊢
      simp only [hl, htask, Task.left] at hold
      simp only [Machine.setTask, Machine.perform, hl, Function.update_self, Task.left]
      refine hold.imp (fun hin => (List.mem_cons.1 hin).resolve_left fun e => ?_)
        fun hm c hc => hm c (removeConnection_le hc)
      simp only [Visible.emit.injEq, Effect.removeConnection.injEq] at e
      exact hk e
    · refine fenced_congr hold ?_ rfl (fun c hc => removeConnection_le hc)
      unfold Machine.ahead Machine.setTask Machine.perform
      cases hl' : m.locks sid with
      | none => rfl
      | some t' =>
        have ht : t' ≠ t := fun e => hl (hl'.trans (congrArg some e))
        simp [ht]
  · by_cases ht : t' = t
    · subst ht
      rw [setTask_own]
      refine ⟨hown.spec, by simpa using hown.split, hown.held, fun db hdb => hown.writing db (List.mem_cons_of_mem _ hdb),
        fun hno => hown.settled fun db hin => hno db ((List.mem_cons.1 hin).resolve_left nofun), fun sid hs hp => ?_⟩
      rcases List.mem_append.1 hp with hp | hp
      · exact removeConnection_none (hown.removed sid hs hp)
      · simp only [List.mem_singleton, Visible.emit.injEq, Effect.removeConnection.injEq] at hp
        subst hp
        exact removeConnection_self
    · refine Frame.taskInv (m := m) ?_ h.tables (h.tasks t')
      exact ⟨.refl _, setTask_other ht, fun _ hl => hl, fun hw => ⟨hw, rfl⟩, fun _ _ => rfl,
        fun _ _ hc => removeConnection_none hc⟩

theorem play_inv (h : MachineInv A m) : MachineInv A (m.step A (.play t)) := by
  simp only [Machine.step]
  split
  · rename_i job before ans played a left htask
    cases a with
    | commit d => exact play_commit_inv h htask
    | emit k =>
      cases k with
      | removeConnection k => exact play_emit_inv h htask
  · exact h

/-! ### Sockets -/

theorem register_inv (h : MachineInv A m) : MachineInv A (m.step A (.register t)) := by
  simp only [Machine.step]
  split
  · rename_i k token htask
    have hown := h.tasks t
    rw [htask] at hown
    obtain ⟨hlock, htok⟩ := hown
    refine release_inv (m := { m with
      mgr := m.mgr.addConnection k token.value
      sockets := m.sockets ++ [⟨k, m.mgr.nextConnectionId, token.value⟩] }) ?_ (by rw [htask]; rfl)
    refine ⟨h.tables, fun sid => ?_, fun t' => ?_, fun sid c hc => ?_, ?_, ?_⟩
    · by_cases hk : sid = k
      · subst hk
        refine Or.inr fun c hc => ?_
        cases addConnection_self.symm.trans hc
        unfold Machine.ahead
        simpa [hlock, htask, Task.left, Authority.lastDb] using htok
      · exact fenced_congr (m := m) (h.fenced sid) rfl rfl fun c hc => (addConnection_of_ne hk).symm.trans hc
    · by_cases ht : t' = t
      · subst ht
        rw [htask]
        exact ⟨hlock, htok⟩
      · refine Frame.taskInv (m := m) ?_ h.tables (h.tasks t')
        refine ⟨.refl _, rfl, fun _ hl => hl, fun hw => ⟨hw, rfl⟩, fun _ _ => rfl, fun sid hl hc => ?_⟩
        have hk : sid ≠ k := by
          rintro rfl
          rw [hlock] at hl
          exact ht (Option.some.inj hl).symm
        exact (addConnection_of_ne hk).trans hc
    · by_cases hk : sid = k
      · subst hk
        cases addConnection_self.symm.trans hc
        exact List.mem_append_right _ (List.mem_singleton.2 rfl)
      · exact List.mem_append_left _ (h.connected sid c ((addConnection_of_ne hk).symm.trans hc))
    · rw [List.map_append, List.nodup_append]
      refine ⟨h.distinct, by simp, ?_⟩
      rintro a ha b hb rfl
      obtain ⟨s, hs, rfl⟩ := List.mem_map.1 ha
      have := h.numbered s hs
      simp at hb
      omega
    · intro s hs
      rcases List.mem_append.1 hs with hs | hs
      · exact (h.numbered s hs).trans (Nat.lt_succ_self _)
      · rw [List.mem_singleton.1 hs]
        exact Nat.lt_succ_self _
  · exact h

theorem close_inv (h : MachineInv A m) (k cid : ℕ) : MachineInv A (m.step A (.close k cid)) := by
  simp only [Machine.step]
  split_ifs with hfree
  · refine ⟨h.tables, fun sid => fenced_congr (m := m) (h.fenced sid) rfl rfl fun c hc => removeIfCurrent_le hc,
      fun t => ?_, fun sid c hc => h.connected sid c (removeIfCurrent_le hc), h.distinct, ?_⟩
    · refine Frame.taskInv (m := m) ?_ h.tables (h.tasks t)
      refine ⟨.refl _, rfl, fun _ hl => hl, fun hw => ⟨hw, rfl⟩, fun _ _ => rfl, fun sid _ hc => ?_⟩
      cases hc' : (m.mgr.removeConnectionIfCurrent k cid).connections sid with
      | none => rfl
      | some c => exact absurd (removeIfCurrent_le hc') (by rw [hc]; nofun)
    · show ∀ s ∈ m.sockets, s.connectionId < (m.mgr.removeConnectionIfCurrent k cid).nextConnectionId
      rw [removeIfCurrent_next]
      exact h.numbered
  · exact h

theorem frame_inv (h : MachineInv A m) (s : Socket) : MachineInv A (m.step A (.frame s)) := by
  simp only [Machine.step]
  split_ifs
  · exact ⟨h.tables, h.fenced, fun t => Frame.taskInv (m := m) (.quiet rfl rfl rfl (fun _ h => h) (fun h => h)) h.tables
      (h.tasks t), h.connected, h.distinct, h.numbered⟩
  · exact h

theorem step_inv (h : MachineInv A m) (ev : Ev) : MachineInv A (m.step A ev) := by
  cases ev with
  | submit t c salt => exact submit_inv h c salt
  | acquire t => exact acquire_inv h
  | openTx t => exact openTx_inv h
  | play t => exact play_inv h
  | finish t => exact finish_inv h
  | preflight t token => exact preflight_inv h token
  | admitPending t => exact admitPending_inv h
  | register t => exact register_inv h
  | close k cid => exact close_inv h k cid
  | frame s => exact frame_inv h s

theorem machine_run_inv (h : MachineInv A m) (evs : List Ev) : MachineInv A (m.run A evs) := by
  induction evs generalizing m with
  | nil => exact h
  | cons ev evs ih => exact ih (step_inv h ev)

end Steps

/-! ## The theorem -/

section Consequences

variable {A : Argon2} {m : Machine}

/-- no connection numbered below `n` is registered for the server, nor will be -/
def Evicted (m : Machine) (sid n : ℕ) : Prop :=
  n ≤ m.mgr.nextConnectionId ∧ ∀ c, m.mgr.connections sid = some c → n ≤ c.connectionId

theorem step_evicted {sid n : ℕ} (h : Evicted m sid n) (ev : Ev) : Evicted (m.step A ev) sid n := by
  cases ev with
  | register t =>
    simp only [Machine.step]
    split
    · rename_i k token _
      refine ⟨h.1.trans (Nat.le_succ _), fun c hc => ?_⟩
      by_cases hk : sid = k
      · subst hk
        cases addConnection_self.symm.trans hc
        exact h.1
      · exact h.2 c ((addConnection_of_ne hk).symm.trans hc)
    · exact h
  | close k cid =>
    simp only [Machine.step]
    split_ifs
    · refine ⟨?_, fun c hc => h.2 c (removeIfCurrent_le hc)⟩
      show n ≤ (m.mgr.removeConnectionIfCurrent k cid).nextConnectionId
      rw [removeIfCurrent_next]
      exact h.1
    · exact h
  | play t =>
    simp only [Machine.step]
    split
    · rename_i a _ _
      cases a with
      | commit d => exact h
      | emit k =>
        cases k with
        | removeConnection k => exact ⟨h.1, fun c hc => h.2 c (removeConnection_le hc)⟩
    · exact h
  | _ =>
    simp only [Machine.step]
    repeat' split
    all_goals exact h

theorem run_evicted {sid n : ℕ} (h : Evicted m sid n) (evs : List Ev) : Evicted (m.run A evs) sid n := by
  induction evs generalizing m with
  | nil => exact h
  | cons ev evs ih => exact ih (step_evicted h ev)

theorem Evicted.not_current {s : Socket} {n : ℕ} (h : Evicted m s.serverId n) (hs : s.connectionId < n) :
    m.isCurrent s = false := by
  unfold Machine.isCurrent AgentManager.isCurrentConnection
  cases hc : m.mgr.connections s.serverId with
  | none => rfl
  | some c =>
    have := h.2 c hc
    simp
    omega

/-- a job that has played everything and succeeded leaves no connection behind where it fences -/
theorem finished_evicted (h : MachineInv A m) {t : ℕ} {job : Job} {before : Db} {ans : Answer}
    {played : List (Visible Db Effect)} (htask : m.tasks t = .running job before ans played [])
    (hok : ans.succeeded = true) {sid : ℕ} (hf : job.Fences sid) :
    Evicted (m.step A (.finish t)) sid m.mgr.nextConnectionId := by
  have hown := h.tasks t
  rw [htask] at hown
  obtain ⟨hlock, hgone⟩ := hown.spec.fences hok sid hf
  have hsplit : ans.trace = played := by simpa using hown.split
  have hnone : m.mgr.connections sid = none := by
    by_cases hin : .emit (.removeConnection sid) ∈ ans.trace
    · exact hown.removed sid hlock (hsplit ▸ hin)
    · -- the server had no row, so its token is none and no connection matches it
      have hbefore := hgone.resolve_left hin
      have htok : tokenOf m.db sid = none := by
        rw [hown.settled (by simp) sid hlock]
        by_contra hne
        exact hin (hown.spec.tokens sid (by rw [hbefore]; exact hne)).2
      cases hc : m.mgr.connections sid with
      | none => rfl
      | some c =>
        have hfenced := h.fenced sid
        unfold Machine.Fenced Machine.ahead at hfenced
        simp only [hown.held sid hlock, htask, Task.left, Authority.lastDb] at hfenced
        obtain ⟨hash, hh, -⟩ := hfenced.resolve_left (by simp) c hc
        rw [htok] at hh
        cases hh
  simp only [Machine.step, htask]
  exact ⟨Nat.le_refl _, fun c hc => absurd (hnone.symm.trans hc) nofun⟩

theorem handled_step {sid n : ℕ} (h : Evicted m sid n) (ev : Ev) :
    ∃ new, (m.step A ev).handled = m.handled ++ new ∧ ∀ s ∈ new, s.serverId = sid → n ≤ s.connectionId := by
  cases ev with
  | frame s =>
    simp only [Machine.step]
    split_ifs with hc
    · refine ⟨[s], rfl, fun s' hs' hsid => ?_⟩
      rw [List.mem_singleton.1 hs'] at hsid ⊢
      subst hsid
      by_contra hlt
      have := h.not_current (Nat.lt_of_not_le hlt)
      rw [hc.2.2] at this
      cases this
    · exact ⟨[], (List.append_nil _).symm, nofun⟩
  | play t =>
    refine ⟨[], ?_, nofun⟩
    simp only [Machine.step, List.append_nil]
    split
    · rename_i a _ _
      cases a with
      | commit d => rfl
      | emit k => cases k; rfl
    · rfl
  | _ =>
    refine ⟨[], ?_, nofun⟩
    simp only [Machine.step, List.append_nil]
    repeat' split
    all_goals rfl

theorem handled_run {sid n : ℕ} (h : Evicted m sid n) (evs : List Ev) :
    ∃ new, (m.run A evs).handled = m.handled ++ new ∧ ∀ s ∈ new, s.serverId = sid → n ≤ s.connectionId := by
  induction evs generalizing m with
  | nil => exact ⟨[], (List.append_nil _).symm, nofun⟩
  | cons ev evs ih =>
    obtain ⟨new, h1, h2⟩ := handled_step (A := A) h ev
    obtain ⟨new', h3, h4⟩ := ih (step_evicted (A := A) h ev)
    refine ⟨new ++ new', ?_, fun s hs => ?_⟩
    · show ((m.step A ev).run A evs).handled = _
      rw [h3, h1, List.append_assoc]
    · rcases List.mem_append.1 hs with hs | hs
      · exact h2 s hs
      · exact h4 s hs

end Consequences

/-- **Connection fencing.** In every state `m` that any interleaving of operations, admissions, closing sockets and
frames reaches from a server start over reachable tables:
- while nobody holds a server's lock, a connection registered for it belongs to a socket admitted with the token whose
  hash the server row stores;
- once a claim, an emergency re-enrollment, a revocation or a deletion succeeds, the frame check answers false for every
  socket of that server admitted so far, in every later state, and none of their frames is handled;
- closing a socket leaves a connection that another socket registered in place, and no two sockets share a number. -/
theorem connection_fencing (A : Argon2) (calls : List Call) (evs : List Ev) :
    let m := Machine.reached A calls evs
    (∀ sid, m.locks sid = none → ∀ c, m.mgr.connections sid = some c →
      HasToken A m.db sid c.token ∧ ⟨sid, c.connectionId, c.token⟩ ∈ m.sockets) ∧
    (∀ t job before ans played, m.tasks t = .running job before ans played [] → ans.succeeded = true →
      ∀ sid, job.Fences sid → ∀ later, ∀ s ∈ m.sockets, s.serverId = sid →
        ((m.step A (.finish t)).run A later).isCurrent s = false ∧
        ((m.step A (.finish t)).run A later).handled.count s = m.handled.count s) ∧
    (∀ s ∈ m.sockets, ∀ c, m.mgr.connections s.serverId = some c → c.connectionId ≠ s.connectionId →
      (m.step A (.close s.serverId s.connectionId)).mgr.connections s.serverId = some c) ∧
    (m.sockets.map (·.connectionId)).Nodup := by
  intro m
  have h : MachineInv A m := machine_run_inv (boot_inv (reachable_inv A calls)) evs
  refine ⟨fun sid hfree c hc => ?_, ?_, ?_, h.distinct⟩
  · have hf := h.fenced sid
    unfold Machine.Fenced Machine.ahead at hf
    simp only [hfree] at hf
    exact ⟨hf.resolve_left (by simp) c hc, h.connected sid c hc⟩
  · intro t job before ans played htask hok sid hfence later s hs hsid
    subst hsid
    have hev := finished_evicted h htask hok hfence
    have hnum := h.numbered s hs
    refine ⟨(run_evicted hev later).not_current hnum, ?_⟩
    obtain ⟨new, hnew, hlate⟩ := handled_run (A := A) hev later
    have hfin : (m.step A (.finish t)).handled = m.handled := by
      simp only [Machine.step, htask]
      rfl
    have hnot : s ∉ new := by
      intro hin
      have := hlate s hin rfl
      omega
    rw [hnew, hfin, List.count_append, List.count_eq_zero_of_not_mem hnot, Nat.add_zero]
  · intro s _ c hc hne
    simp only [Machine.step]
    split_ifs
    · exact removeIfCurrent_keeps hc hne
    · exact hc

end ServerBee.Authority
