/-
Onboarding is idempotent and atomic (`ServerOnboarding::onboard`).

A call that waits for the lock of its key or holds it has a clone of the registered lock, because the registry entry goes
only with the last clone (`Locks.registered`), and at most one clone of a lock has the guard (`Locks.exclusive`). So two
calls of one pair are never both behind the guard, and a call that has found no request still finds none when it writes
(`Facts.missing`).
-/
import ServerBee.Lib.Run
import ServerBee.Onboarding.Steps

namespace ServerBee.Onboarding

open ServerBee.Lib ServerBee.Authority

/-! ## Locks -/

/-- the lock that the registry has for a call -/
def Pc.registered : Pc → Option ℕ
  | .start | .done _ | .leaving _ _ => none
  | .queued lock _ | .locked lock _ | .found lock _ _ | .missing lock _ | .ready lock _ _ => some lock
  | .releasing lock _ | .cleaning lock _ => some lock

theorem Pc.registered_of_guard {pc : Pc} {lock : ℕ} (h : pc.guard = some lock) : pc.registered = some lock := by
  cases pc <;> simp_all [Pc.guard, Pc.registered]

theorem Pc.clone_of_registered {pc : Pc} {lock : ℕ} (h : pc.registered = some lock) : pc.clone = some lock := by
  cases pc <;> simp_all [Pc.registered, Pc.clone]

structure Locks (s : State) : Prop where
  registered : ∀ (i : ℕ) c lock, s.calls[i]? = some c → c.pc.registered = some lock → s.requestLocks c.input.lockKey = some lock
  exclusive : ∀ (i j : ℕ) c d lock, s.calls[i]? = some c → s.calls[j]? = some d → c.pc.guard = some lock →
    d.pc.guard = some lock → i = j

/-- one call has moved -/
theorem calls_set {calls : List Call} {i j : ℕ} {c d : Call} (h : (calls.set i c)[j]? = some d) :
    j = i ∧ d = c ∨ j ≠ i ∧ calls[j]? = some d := by
  rw [List.getElem?_set] at h
  split_ifs at h with hij hlt
  · exact Or.inl ⟨hij.symm, (Option.some.inj h).symm⟩
  · exact Or.inr ⟨fun he => hij he.symm, h⟩

/-- two calls with a clone count twice -/
theorem two_clones {calls : List Call} {i j : ℕ} {c d : Call} {lock : ℕ} (hij : j ≠ i) (hi : calls[i]? = some c)
    (hj : calls[j]? = some d) (hc : c.pc.clone = some lock) (hd : d.pc.clone = some lock) :
    2 ≤ calls.countP fun c => c.pc.clone == some lock := by
  induction calls generalizing i j with
  | nil => cases hi
  | cons head rest ih =>
    have hpos {k : ℕ} {e : Call} (hk : rest[k]? = some e) (he : e.pc.clone = some lock) :
        0 < rest.countP fun c => c.pc.clone == some lock :=
      List.countP_pos_iff.2 ⟨e, List.mem_of_getElem? hk, by simp [he]⟩
    cases i with
    | zero =>
      obtain rfl := Option.some.inj hi
      cases j with
      | zero => exact absurd rfl hij
      | succ j =>
        have := hpos hj hd
        rw [List.countP_cons_of_pos (by simp [hc])]
        omega
    | succ i =>
      cases j with
      | zero =>
        obtain rfl := Option.some.inj hj
        have := hpos hi hc
        rw [List.countP_cons_of_pos (by simp [hd])]
        omega
      | succ j =>
        have := ih (fun he => hij (congrArg _ he)) hi hj
        rw [List.countP_cons]
        omega

section Lock

variable {cfg : Config} {s s' : State} {i : ℕ} {c : Call} {pc : Pc}

/-- a step of a call: its lock is the registered one, the others of its key keep theirs, and it takes a guard that is free -/
theorem Locks.moveKey (h : Locks s) (hi : s.calls[i]? = some c) (hcalls : s'.calls = s.calls.set i ⟨c.input, pc⟩)
    {entry : Option ℕ} (hlocks : s'.requestLocks = Function.update s.requestLocks c.input.lockKey entry)
    (hothers : ∀ (j : ℕ) d lock, j ≠ i → s.calls[j]? = some d → d.input.lockKey = c.input.lockKey → d.pc.registered = some lock →
      entry = some lock)
    (hregistered : ∀ lock, pc.registered = some lock → entry = some lock)
    (hguard : ∀ lock, pc.guard = some lock → c.pc.guard = some lock ∨ ∀ d ∈ s.calls, d.pc.guard ≠ some lock) : Locks s' := by
  constructor
  · intro j d lock hj hd
    rw [hcalls] at hj
    rw [hlocks]
    rcases calls_set hj with ⟨-, rfl⟩ | ⟨hne, hj'⟩
    · rw [Function.update_self]
      exact hregistered lock hd
    · by_cases hkey : d.input.lockKey = c.input.lockKey
      · rw [hkey, Function.update_self]
        exact hothers j d lock hne hj' hkey hd
      · rw [Function.update_of_ne hkey]
        exact h.registered j d lock hj' hd
  · -- the moved call against another one: it had the guard before, or nobody had it
    have hother (k : ℕ) (d : Call) (lock : ℕ) (hk : s.calls[k]? = some d) (hne : k ≠ i) (hpc : pc.guard = some lock)
        (hd : d.pc.guard = some lock) : False := by
      rcases hguard lock hpc with hc | hfree
      · exact hne (h.exclusive k i d c lock hk hi hd hc)
      · exact hfree d (List.mem_of_getElem? hk) hd
    intro j k d e lock hj hk hd he
    rw [hcalls] at hj hk
    rcases calls_set hj with ⟨hji, hd'⟩ | ⟨hji, hj'⟩
    · rw [hd'] at hd
      rcases calls_set hk with ⟨hki, -⟩ | ⟨hki, hk'⟩
      · rw [hji, hki]
      · exact (hother k e lock hk' hki hd he).elim
    · rcases calls_set hk with ⟨-, he'⟩ | ⟨-, hk'⟩
      · rw [he'] at he
        exact (hother j d lock hj' hji he hd).elim
      · exact h.exclusive j k d e lock hj' hk' hd he

/-- a step that leaves the registry -/
theorem Locks.move (h : Locks s) (hi : s.calls[i]? = some c) (hcalls : s'.calls = s.calls.set i ⟨c.input, pc⟩)
    (hlocks : s'.requestLocks = s.requestLocks)
    (hregistered : ∀ lock, pc.registered = some lock → s.requestLocks c.input.lockKey = some lock)
    (hguard : ∀ lock, pc.guard = some lock → c.pc.guard = some lock ∨ ∀ d ∈ s.calls, d.pc.guard ≠ some lock) : Locks s' := by
  refine h.moveKey hi hcalls (hlocks.trans (Function.update_eq_self _ _).symm) (fun j d lock _ hj hkey hd => ?_) hregistered hguard
  rw [← hkey]
  exact h.registered j d lock hj hd

theorem Locks.step {fresh : ℕ} {env : Env} (h : Locks s) (hi : s.calls[i]? = some c) :
    Locks { (c.step cfg env fresh s).2 with
      calls := (c.step cfg env fresh s).2.calls.set i ⟨c.input, (c.step cfg env fresh s).1⟩ } := by
  have hmoves := step_moves cfg env fresh s c
  generalize c.step cfg env fresh s = r at hmoves ⊢
  obtain ⟨pc, s'⟩ := r
  dsimp only at hmoves ⊢
  have hregistered {lock : ℕ} (hc : c.pc.registered = some lock) : s.requestLocks c.input.lockKey = some lock :=
    h.registered i c lock hi hc
  cases hmoves with
  | refuse e hpc he hp => exact h.move hi rfl rfl (fun _ hno => by cases hno) (fun _ hno => by cases hno)
  | join lock p hpc hp hlock =>
    refine h.move hi rfl rfl (fun lock' h' => ?_) (fun _ hno => by cases hno)
    obtain rfl := Option.some.inj h'
    exact hlock
  | enroll p hpc hp hlock =>
    refine h.moveKey hi rfl rfl (fun j d lock _ hj hkey hd => ?_) (fun lock' h' => h') (fun _ hno => by cases hno)
    have hsome := h.registered j d lock hj hd
    rw [hkey, hlock] at hsome
    cases hsome
  | enter lock p hpc hfree =>
    refine h.move hi rfl rfl (fun lock' h' => ?_) (fun lock' h' => ?_)
    · obtain rfl := Option.some.inj h'
      exact hregistered (by rw [hpc]; rfl)
    · obtain rfl := Option.some.inj h'
      exact Or.inr hfree
  | miss lock p hpc hnone =>
    exact h.move hi rfl rfl (fun lock' h' => hregistered (by rw [hpc]; exact h')) (fun lock' h' => Or.inl (by rw [hpc]; exact h'))
  | find lock p r hpc hr hasked hhash =>
    exact h.move hi rfl rfl (fun lock' h' => hregistered (by rw [hpc]; exact h')) (fun lock' h' => Or.inl (by rw [hpc]; exact h'))
  | settle lock p hpc targets =>
    exact h.move hi rfl rfl (fun lock' h' => hregistered (by rw [hpc]; exact h')) (fun lock' h' => Or.inl (by rw [hpc]; exact h'))
  | answer lock a hguard hopen hquiet hfits herror =>
    have hclone := Pc.registered_of_guard hguard
    exact h.move hi rfl rfl (fun lock' h' => hregistered (hclone.trans h')) (fun lock' h' => Or.inl (hguard.trans h'))
  | commit lock p targets serverId enrollment db hpc hdb =>
    exact h.move hi rfl rfl (fun lock' h' => hregistered (by rw [hpc]; exact h')) (fun lock' h' => Or.inl (by rw [hpc]; exact h'))
  | release lock a hpc =>
    exact h.move hi rfl rfl (fun lock' h' => hregistered (by rw [hpc]; exact h')) (fun _ hno => by cases hno)
  | keep lock a hpc => exact h.move hi rfl rfl (fun _ hno => by cases hno) (fun _ hno => by cases hno)
  | drop lock a hpc hcount =>
    refine h.moveKey hi rfl rfl (fun j d lock' hne hj hkey hd => ?_) (fun _ hno => by cases hno) (fun _ hno => by cases hno)
    -- another clone of the registered lock would be counted
    have hsame := h.registered j d lock' hj hd
    have hc : c.pc.registered = some lock := by rw [hpc]; rfl
    rw [hkey, hregistered hc] at hsame
    have htwo := two_clones hne hi hj (Pc.clone_of_registered hc) (Pc.clone_of_registered (by rw [hd, hsame]))
    unfold State.strongCount at hcount
    omega
  | leave lock a hpc => exact h.move hi rfl rfl (fun _ hno => by cases hno) (fun _ hno => by cases hno)
  | stay => exact h.move hi rfl rfl (fun lock' h' => hregistered h') (fun lock' h' => Or.inl h')

end Lock

/-! ## Stored requests -/

def SamePair (input input' : OnboardServer) : Prop := input.actorId = input'.actorId ∧ input.requestId = input'.requestId

def Created (c : Call) : Prop := ∃ serverId enrollment, c.pc.answer = some (.ok (.created serverId enrollment))

structure Facts (cfg : Config) (s : State) : Prop where
  prepared : ∀ c ∈ s.calls, ∀ p, c.pc.prepared = some p → prepare cfg 0 c.input = .ok p
  found : ∀ c ∈ s.calls, ∀ lock p serverId, c.pc = .found lock p serverId →
    ∃ r ∈ s.db.requests, Asked c.input r ∧ r.normalizedInputHash = p.inputHash ∧ r.serverId = serverId
  missing : ∀ c ∈ s.calls, c.pc.Missed → ∀ r ∈ s.db.requests, ¬ Asked c.input r
  answers : ∀ c ∈ s.calls, ∀ a, c.pc.answer = some a → AnswerFits cfg s.db c.input a
  once : ∀ (i j : ℕ) c d, s.calls[i]? = some c → s.calls[j]? = some d → Created c → Created d → SamePair c.input d.input → i = j

/-- what the schema says of the tables, and the limit -/
structure Consistent (cfg : Config) (db : Db) : Prop where
  unique : db.requests.Pairwise fun r r' => ¬ (r.actorId = r'.actorId ∧ r.requestId = r'.requestId)
  references : ∀ r ∈ db.requests, ∃ server ∈ db.authority.servers, server.id = r.serverId
  limit : 0 < cfg.maxServers → db.authority.servers.length ≤ cfg.maxServers

theorem AnswerFits.mono {cfg : Config} {db db' : Db} {input : OnboardServer} {a : Answer} (h : AnswerFits cfg db input a)
    (hdb : ∀ r ∈ db.requests, r ∈ db'.requests) : AnswerFits cfg db' input a := by
  unfold AnswerFits at h ⊢
  split at h
  · obtain ⟨p, hp, r, hr, hrest⟩ := h
    exact ⟨p, hp, r, hdb r hr, hrest⟩
  · obtain ⟨p, hp, r, hr, hrest⟩ := h
    exact ⟨p, hp, r, hdb r hr, hrest⟩
  · obtain ⟨p, hp, r, hr, hrest⟩ := h
    exact ⟨p, hp, r, hdb r hr, hrest⟩
  · trivial

theorem Onboarded.consistent {cfg : Config} {input : OnboardServer} {p : Prepared} {db db' : Db} {serverId : ℕ}
    (h : Onboarded cfg input p db db' serverId) (hdb : Consistent cfg db) : Consistent cfg db' := by
  obtain ⟨row, hid, -, hservers⟩ := h.server
  obtain ⟨r, hactor, hrequest, -, hserver, hrequests⟩ := h.request
  refine ⟨?_, fun r' hr' => ?_, fun hpos => ?_⟩
  · rw [hrequests, List.pairwise_append]
    refine ⟨hdb.unique, List.pairwise_singleton _ _, fun r' hr' r'' hr'' hpair => ?_⟩
    obtain rfl := List.mem_singleton.1 hr''
    exact h.first r' hr' ⟨hpair.1.trans hactor, hpair.2.trans hrequest⟩
  · rw [hservers]
    rw [hrequests] at hr'
    rcases List.mem_append.1 hr' with hr' | hr'
    · obtain ⟨server, hs, he⟩ := hdb.references r' hr'
      exact ⟨server, List.mem_append_left _ hs, he⟩
    · obtain rfl := List.mem_singleton.1 hr'
      exact ⟨row, List.mem_append_right _ List.mem_cons_self, hid.trans hserver.symm⟩
  · rw [hservers, List.length_append, List.length_singleton]
    exact h.limit hpos

theorem Pc.Missed.guard {pc : Pc} (h : pc.Missed) : ∃ lock, pc.guard = some lock := by
  cases pc with
  | missing lock p => exact ⟨lock, rfl⟩
  | ready lock p targets => exact ⟨lock, rfl⟩
  | start => exact h.elim
  | queued lock p => exact h.elim
  | locked lock p => exact h.elim
  | found lock p serverId => exact h.elim
  | releasing lock a => exact h.elim
  | cleaning lock a => exact h.elim
  | leaving lock a => exact h.elim
  | done a => exact h.elim

section Fact

variable {cfg : Config} {s s' : State} {i : ℕ} {c : Call} {pc : Pc}

/-- a step of a call that keeps the stored requests -/
theorem Facts.moveRows (h : Facts cfg s) (hi : s.calls[i]? = some c) (hcalls : s'.calls = s.calls.set i ⟨c.input, pc⟩)
    (hdb : ∀ r ∈ s.db.requests, r ∈ s'.db.requests)
    (hothers : ∀ (j : ℕ) d, j ≠ i → s.calls[j]? = some d → d.pc.Missed → ∀ r ∈ s'.db.requests, ¬ Asked d.input r)
    (hprepared : ∀ p, pc.prepared = some p → prepare cfg 0 c.input = .ok p)
    (hfound : ∀ lock p serverId, pc = .found lock p serverId →
      ∃ r ∈ s'.db.requests, Asked c.input r ∧ r.normalizedInputHash = p.inputHash ∧ r.serverId = serverId)
    (hmissing : pc.Missed → ∀ r ∈ s'.db.requests, ¬ Asked c.input r)
    (hanswers : ∀ a, pc.answer = some a → AnswerFits cfg s'.db c.input a)
    (honce : Created ⟨c.input, pc⟩ → Created c ∨ ∀ d ∈ s.calls, Created d → ¬ SamePair c.input d.input) : Facts cfg s' := by
  have hcall {d : Call} (hd : d ∈ s'.calls) : d = ⟨c.input, pc⟩ ∨ ∃ j, j ≠ i ∧ s.calls[j]? = some d := by
    obtain ⟨j, hj⟩ := List.mem_iff_getElem?.1 hd
    rw [hcalls] at hj
    rcases calls_set hj with ⟨-, hd'⟩ | ⟨hne, hj'⟩
    · exact Or.inl hd'
    · exact Or.inr ⟨j, hne, hj'⟩
  refine ⟨fun d hd => ?_, fun d hd => ?_, fun d hd => ?_, fun d hd => ?_, ?_⟩
  · rcases hcall hd with rfl | ⟨j, -, hj⟩
    · exact hprepared
    · exact h.prepared d (List.mem_of_getElem? hj)
  · rcases hcall hd with rfl | ⟨j, -, hj⟩
    · exact hfound
    · intro lock p serverId hpc
      obtain ⟨r, hr, hrest⟩ := h.found d (List.mem_of_getElem? hj) lock p serverId hpc
      exact ⟨r, hdb r hr, hrest⟩
  · rcases hcall hd with rfl | ⟨j, hne, hj⟩
    · exact hmissing
    · exact hothers j d hne hj
  · rcases hcall hd with rfl | ⟨j, -, hj⟩
    · exact hanswers
    · exact fun a ha => (h.answers d (List.mem_of_getElem? hj) a ha).mono hdb
  · -- the moved call against another one that has created
    have hother (k : ℕ) (d : Call) (hk : s.calls[k]? = some d) (hne : k ≠ i) (hpc : Created ⟨c.input, pc⟩) (hd : Created d)
        (hpair : SamePair c.input d.input) : False := by
      rcases honce hpc with hc | hfirst
      · exact hne (h.once k i d c hk hi hd hc ⟨hpair.1.symm, hpair.2.symm⟩)
      · exact hfirst d (List.mem_of_getElem? hk) hd hpair
    intro j k d e hj hk hd he hpair
    rw [hcalls] at hj hk
    rcases calls_set hj with ⟨hji, hd'⟩ | ⟨hji, hj'⟩
    · rcases calls_set hk with ⟨hki, -⟩ | ⟨hki, hk'⟩
      · rw [hji, hki]
      · rw [hd'] at hd hpair
        exact (hother k e hk' hki hd he hpair).elim
    · rcases calls_set hk with ⟨-, he'⟩ | ⟨-, hk'⟩
      · rw [he'] at he hpair
        exact (hother j d hj' hji he hd ⟨hpair.1.symm, hpair.2.symm⟩).elim
      · exact h.once j k d e hj' hk' hd he hpair

/-- a step that does not write -/
theorem Facts.move (h : Facts cfg s) (hi : s.calls[i]? = some c) (hcalls : s'.calls = s.calls.set i ⟨c.input, pc⟩)
    (hdb : s'.db = s.db) (hprepared : ∀ p, pc.prepared = some p → prepare cfg 0 c.input = .ok p)
    (hfound : ∀ lock p serverId, pc = .found lock p serverId →
      ∃ r ∈ s.db.requests, Asked c.input r ∧ r.normalizedInputHash = p.inputHash ∧ r.serverId = serverId)
    (hmissing : pc.Missed → ∀ r ∈ s.db.requests, ¬ Asked c.input r)
    (hanswers : ∀ a, pc.answer = some a → AnswerFits cfg s.db c.input a)
    (honce : Created ⟨c.input, pc⟩ → Created c) : Facts cfg s' := by
  rw [← hdb] at hfound hmissing hanswers
  refine h.moveRows hi hcalls (fun r hr => hdb ▸ hr) (fun j d _ hj => ?_) hprepared hfound hmissing hanswers
    fun hc => Or.inl (honce hc)
  rw [hdb]
  exact h.missing d (List.mem_of_getElem? hj)

/-- an answer that is kept -/
theorem Created.of_answer {a : Answer} (h : c.pc.answer = some a) (ha : pc.answer = some a) (hc : Created ⟨c.input, pc⟩) :
    Created c := by
  obtain ⟨serverId, enrollment, he⟩ := hc
  exact ⟨serverId, enrollment, h.trans (ha.symm.trans he)⟩

theorem Created.of_none (h : pc.answer = none) (hc : Created ⟨c.input, pc⟩) : Created c := by
  obtain ⟨serverId, enrollment, he⟩ := hc
  cases h.symm.trans he

theorem Facts.step {fresh : ℕ} {env : Env} (h : Facts cfg s) (hlocks : Locks s) (hi : s.calls[i]? = some c) :
    Facts cfg { (c.step cfg env fresh s).2 with
      calls := (c.step cfg env fresh s).2.calls.set i ⟨c.input, (c.step cfg env fresh s).1⟩ } := by
  have hmoves := step_moves cfg env fresh s c
  generalize c.step cfg env fresh s = r at hmoves ⊢
  obtain ⟨pc, s'⟩ := r
  dsimp only at hmoves ⊢
  have hmem : c ∈ s.calls := List.mem_of_getElem? hi
  have hprepared {p : Prepared} (hc : c.pc.prepared = some p) : prepare cfg 0 c.input = .ok p := h.prepared c hmem p hc
  have hsome {p q : Prepared} (hc : prepare cfg 0 c.input = .ok p) (hq : some p = some q) : prepare cfg 0 c.input = .ok q := by
    rwa [← Option.some.inj hq]
  cases hmoves with
  | refuse e hpc he hp =>
    refine h.move hi rfl rfl (fun _ hno => by cases hno) (fun _ _ _ hno => by cases hno) False.elim (fun a ha => ?_) ?_
    · obtain rfl := Option.some.inj ha
      exact answerFits_error he
    · rintro ⟨serverId, enrollment, hno⟩
      cases hno
  | join lock p hpc hp hlock =>
    exact h.move hi rfl rfl (fun _ hq => hsome hp hq) (fun _ _ _ hno => by cases hno) False.elim (fun _ hno => by cases hno)
      (Created.of_none rfl)
  | enroll p hpc hp hlock =>
    exact h.move hi rfl rfl (fun _ hq => hsome hp hq) (fun _ _ _ hno => by cases hno) False.elim (fun _ hno => by cases hno)
      (Created.of_none rfl)
  | enter lock p hpc hfree =>
    exact h.move hi rfl rfl (fun _ hq => hprepared (by rw [hpc]; exact hq)) (fun _ _ _ hno => by cases hno) False.elim
      (fun _ hno => by cases hno) (Created.of_none rfl)
  | miss lock p hpc hnone =>
    exact h.move hi rfl rfl (fun _ hq => hprepared (by rw [hpc]; exact hq)) (fun _ _ _ hno => by cases hno) (fun _ => hnone)
      (fun _ hno => by cases hno) (Created.of_none rfl)
  | find lock p r hpc hr hasked hhash =>
    refine h.move hi rfl rfl (fun _ hq => hprepared (by rw [hpc]; exact hq)) (fun lock' p' serverId hfound => ?_) False.elim
      (fun _ hno => by cases hno) (Created.of_none rfl)
    obtain ⟨-, rfl, rfl⟩ := Pc.found.inj hfound
    exact ⟨r, hr, hasked, hhash, rfl⟩
  | settle lock p hpc targets =>
    exact h.move hi rfl rfl (fun _ hq => hprepared (by rw [hpc]; exact hq)) (fun _ _ _ hno => by cases hno)
      (fun _ => h.missing c hmem (by rw [hpc]; trivial)) (fun _ hno => by cases hno) (Created.of_none rfl)
  | answer lock a hguard hopen hquiet hfits herror =>
    refine h.move hi rfl rfl (fun _ hno => by cases hno) (fun _ _ _ hno => by cases hno) False.elim (fun a' ha => ?_) ?_
    · obtain rfl := Option.some.inj ha
      exact hfits (fun p hp => hprepared hp) (fun l p serverId hpc => h.found c hmem l p serverId hpc)
    · rintro ⟨serverId, enrollment, ha⟩
      obtain rfl := Option.some.inj ha
      exact hquiet.elim
  | commit lock p targets serverId enrollment db hpc hdb =>
    obtain ⟨r, hactor, hrequest, hhash, hserver, hrequests⟩ := hdb.request
    have hmissed : ∀ r ∈ s.db.requests, ¬ Asked c.input r := h.missing c hmem (by rw [hpc]; trivial)
    refine h.moveRows hi rfl (fun r' hr' => ?_) (fun j d hne hj hd r' hr' hasked => ?_) (fun _ hno => by cases hno)
      (fun _ _ _ hno => by cases hno) False.elim (fun a ha => ?_) (fun _ => Or.inr fun d hd hcreated hpair => ?_)
    · rw [hrequests]
      exact List.mem_append_left _ hr'
    · rw [hrequests] at hr'
      rcases List.mem_append.1 hr' with hr' | hr'
      · exact h.missing d (List.mem_of_getElem? hj) hd r' hr' hasked
      · -- a call of the same pair has the same lock, and the guard is the moving call's
        obtain rfl := List.mem_singleton.1 hr'
        obtain ⟨lock', hguard⟩ := hd.guard
        have hkey : d.input.lockKey = c.input.lockKey := by
          unfold OnboardServer.lockKey
          rw [← hasked.1, ← hasked.2, hactor, hrequest]
        have hc : c.pc.guard = some lock := by rw [hpc]; rfl
        have hlock := hlocks.registered j d lock' hj (Pc.registered_of_guard hguard)
        rw [hkey, hlocks.registered i c lock hi (Pc.registered_of_guard hc)] at hlock
        exact hne (hlocks.exclusive j i d c lock hj hi (by rw [hguard, hlock]) hc)
    · obtain rfl := Option.some.inj ha
      refine ⟨p, hprepared (by rw [hpc]; rfl), r, ?_, ⟨hactor, hrequest⟩, hhash, hserver⟩
      rw [hrequests]
      exact List.mem_append_right _ List.mem_cons_self
    · obtain ⟨serverId', enrollment', ha⟩ := hcreated
      obtain ⟨-, -, r', hr', hasked, -⟩ := h.answers d hd _ ha
      exact hmissed r' hr' ⟨hasked.1.trans hpair.1.symm, hasked.2.trans hpair.2.symm⟩
  | release lock a hpc =>
    exact h.move hi rfl rfl (fun _ hno => by cases hno) (fun _ _ _ hno => by cases hno) False.elim
      (fun a' ha => h.answers c hmem a' (by rw [hpc]; exact ha)) (Created.of_answer (by rw [hpc]; rfl) rfl)
  | keep lock a hpc =>
    exact h.move hi rfl rfl (fun _ hno => by cases hno) (fun _ _ _ hno => by cases hno) False.elim
      (fun a' ha => h.answers c hmem a' (by rw [hpc]; exact ha)) (Created.of_answer (by rw [hpc]; rfl) rfl)
  | drop lock a hpc hcount =>
    exact h.move hi rfl rfl (fun _ hno => by cases hno) (fun _ _ _ hno => by cases hno) False.elim
      (fun a' ha => h.answers c hmem a' (by rw [hpc]; exact ha)) (Created.of_answer (by rw [hpc]; rfl) rfl)
  | leave lock a hpc =>
    exact h.move hi rfl rfl (fun _ hno => by cases hno) (fun _ _ _ hno => by cases hno) False.elim
      (fun a' ha => h.answers c hmem a' (by rw [hpc]; exact ha)) (Created.of_answer (by rw [hpc]; rfl) rfl)
  | stay =>
    exact h.move hi rfl rfl (fun _ hq => hprepared hq) (fun l p serverId hpc => h.found c hmem l p serverId hpc)
      (h.missing c hmem) (fun a ha => h.answers c hmem a ha) id

end Fact

end ServerBee.Onboarding
