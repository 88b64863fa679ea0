/-
The enrollment-offer lifecycle over whole runs.

A run is any list of calls from the empty tables: any operations, servers and actors, any clock readings inside each
call, any failing statements. In every state it reaches:
- each server has at most one open offer (`one_open_offer`);
- the terminal columns of an offer never change again (`terminal_frozen`), and only a replaced offer has a successor;
- an offer is consumed by one successful claim at most, whose deadline read came before `expires_at`
  (`consumed_by_claim`, `consumed_once`); `terminal_at` is a later read and may lie at or after it;
- a stored token changes only by a claim, an emergency re-enrollment or a revocation (`token_change`).
-/
import ServerBee.Authority.Contracts

namespace ServerBee.Authority

open ServerBee.Lib

/-! ## Runs keep the invariant -/

section Runs

variable {A : Argon2} {db : Db}

theorem Failed.moves {env : Env} {db' : Db} {trace : List (Visible Db Effect)} (h : Failed env db db' trace) :
    Moves db db' := by
  cases h with
  | quiet ks => exact .refl db
  | expired a server o hv hc hd => exact .single (.act db a hv)

theorem Succeeded.moves {c : Call} {db' : Db} {trace : List (Visible Db Effect)} (h : Succeeded A db c db' trace) :
    Moves db db' := by
  obtain ⟨op, env⟩ := c
  cases op with
  | onboard input => exact h.1.moves
  | issueOfferForUnclaimed input => exact h.1.moves
  | replaceOffer input => exact h.1.moves
  | revokeOffer input => exact h.1.moves
  | revokeAuthority input => exact h.1.moves
  | claim input =>
    obtain ⟨a, o, salt, hash, -, hc, -⟩ := h
    exact hc.result ▸ .single (.act db a hc.valid)
  | beginReenrollment input =>
    obtain ⟨sid, mode, actor, source, ttl⟩ := input
    cases mode with
    | graceful => exact h.1.moves
    | emergency => exact h.1.moves
  | deleteServers input =>
    obtain ⟨rows, -, -, hc, -⟩ := h
    exact hc.moves

theorem step_moves (inv : Inv db) (c : Call) : Moves db (step A db c) := by
  rcases exec_contract inv c with ⟨-, h⟩ | ⟨-, h⟩
  · exact h.moves
  · exact h.moves

theorem run_moves (inv : Inv db) (calls : List Call) : Moves db (run A db calls) := by
  induction calls generalizing db with
  | nil => exact .refl db
  | cons c calls ih =>
    have hstep := step_moves (A := A) inv c
    exact hstep.trans (ih (Moves.inv inv hstep))

theorem run_inv (inv : Inv db) (calls : List Call) : Inv (run A db calls) := Moves.inv inv (run_moves inv calls)

theorem run_append (pre post : List Call) : run A db (pre ++ post) = run A (run A db pre) post := List.foldl_append

theorem reachable_inv (A : Argon2) (calls : List Call) : Inv (run A Db.empty calls) := run_inv inv_empty calls

end Runs

/-! ## Offers -/

/-- at most one open offer for each server -/
theorem one_open_offer {db : Db} (inv : Inv db) (sid : ℕ) :
    (db.offers.filter fun o => o.isOpen && o.targetServerId == sid).length ≤ 1 := by
  have hnd : (db.offers.filter fun o => o.isOpen && o.targetServerId == sid).Nodup :=
    (List.Nodup.of_map _ inv.offer_nodup).filter _
  have heq : ∀ o ∈ db.offers.filter (fun o => o.isOpen && o.targetServerId == sid),
      ∀ p ∈ db.offers.filter (fun o => o.isOpen && o.targetServerId == sid), o = p := by
    intro o ho p hp
    simp only [List.mem_filter, EnrollmentOffer.isOpen, Option.isNone_iff_eq_none, Bool.and_eq_true, beq_iff_eq] at ho hp
    exact inv.offer_eq ho.1 hp.1 (inv.one_open o ho.1 p hp.1 ho.2.1 hp.2.1 (ho.2.2.trans hp.2.2.symm))
  generalize (db.offers.filter fun o => o.isOpen && o.targetServerId == sid) = l at hnd heq
  rcases l with _ | ⟨o, _ | ⟨p, l⟩⟩
  · exact Nat.zero_le _
  · exact Nat.le_refl _
  · have hop := heq o List.mem_cons_self p (List.mem_cons_of_mem _ List.mem_cons_self)
    subst hop
    simp at hnd

/-- only a replaced offer has a successor -/
theorem replaced_iff {db : Db} (inv : Inv db) {o : EnrollmentOffer} (ho : o ∈ db.offers) :
    o.outcome = some .replaced ↔ o.successorOfferId.isSome = true := by
  have hc := inv.offer_check o ho
  unfold EnrollmentOffer.check at hc
  cases hoc : o.outcome with
  | none => simp_all
  | some oc => cases oc <;> simp_all

/-- a terminal row: whatever row carries its id now is that row -/
def Frozen (o : EnrollmentOffer) (db : Db) : Prop := o.id < db.nextId ∧ ∀ p ∈ db.offers, p.id = o.id → p = o

theorem Move.frozen {db db' : Db} (inv : Inv db) (hm : Move db db') {o : EnrollmentOffer} (ht : o.outcome.isSome = true)
    (hf : Frozen o db) : Frozen o db' := by
  cases hm with
  | onboard row nextId hid hn htok => exact ⟨hf.1.trans hn, hf.2⟩
  | delete rows events nextId hrows hnd hn hev =>
    exact ⟨lt_of_lt_of_le hf.1 hn, fun p hp => hf.2 p (List.mem_filter.1 hp).1⟩
  | act a hv =>
    refine ⟨lt_of_lt_of_le hf.1 hv.next, fun p hp hid => ?_⟩
    rcases Act.mem_offers inv hv hp with ⟨h1, -⟩ | ⟨c, hc, rfl⟩ | hmint
    · exact hf.2 p h1 hid
    · -- the row closed was open, so it is not the frozen one
      obtain ⟨hmem, hopen, -⟩ := hv.closes c hc
      have heq := hf.2 c.offer hmem hid
      rw [← heq, hopen] at ht
      cases ht
    · obtain ⟨-, -, -, hfresh, -⟩ := hv.mints p hmint
      have := hf.1
      omega

theorem Moves.frozen {db db' : Db} (inv : Inv db) (hm : Moves db db') {o : EnrollmentOffer}
    (ht : o.outcome.isSome = true) (hf : Frozen o db) : Frozen o db' := by
  induction hm with
  | refl => exact hf
  | tail hms hm ih => exact Move.frozen (Moves.inv inv hms) hm ht ih

theorem Inv.frozen {db : Db} (inv : Inv db) {o : EnrollmentOffer} (ho : o ∈ db.offers) : Frozen o db :=
  ⟨inv.offer_fresh o ho, fun _ hp hid => inv.offer_eq hp ho hid⟩

/-- a terminal row stays as it is as long as it exists -/
theorem terminal_frozen {db db' : Db} (inv : Inv db) (hm : Moves db db') {o p : EnrollmentOffer} (ho : o ∈ db.offers)
    (ht : o.outcome.isSome = true) (hp : p ∈ db'.offers) (hid : p.id = o.id) : p = o :=
  (Moves.frozen inv hm ht (inv.frozen ho)).2 p hp hid

/-- offer `id` is consumed in `db` -/
def IsConsumed (db : Db) (id : ℕ) : Prop := ∃ o ∈ db.offers, o.id = id ∧ o.outcome = some .consumed

/-- the call consumes offer `id` -/
def Consumes (A : Argon2) (db : Db) (c : Call) (id : ℕ) : Prop := ¬ IsConsumed db id ∧ IsConsumed (step A db c) id

/-- the call is a successful claim of offer `o`, its deadline read before `expires_at` -/
def ClaimsInTime (A : Argon2) (db : Db) (c : Call) (o : EnrollmentOffer) : Prop :=
  (∃ input, c.op = .claim input) ∧ (exec A db c).succeeded = true ∧ o ∈ db.offers ∧ o.outcome = none ∧
    c.env.clock 0 < o.expiresAt

theorem Failed.consumed {env : Env} {db db' : Db} {trace : List (Visible Db Effect)} (inv : Inv db)
    (h : Failed env db db' trace) : Commits db db' (tokenOf db) := by
  cases h with
  | quiet ks => exact .refl db
  | expired a server o hv hc hd => exact hc.commits inv hv (by decide)

theorem Succeeded.consumed {A : Argon2} {db db' : Db} {c : Call} {trace : List (Visible Db Effect)}
    (h : Succeeded A db c db' trace) (hc : ∀ input, c.op ≠ .claim input) :
    ∀ o ∈ db'.offers, o.outcome = some .consumed → o ∈ db.offers := by
  obtain ⟨op, env⟩ := c
  cases op with
  | onboard input => exact h.1.consumed
  | issueOfferForUnclaimed input => exact h.1.consumed
  | replaceOffer input => exact h.1.consumed
  | revokeOffer input => exact h.1.consumed
  | revokeAuthority input => exact h.1.consumed
  | claim input => exact absurd rfl (hc input)
  | beginReenrollment input =>
    obtain ⟨sid, mode, actor, source, ttl⟩ := input
    cases mode with
    | graceful => exact h.1.consumed
    | emergency => exact h.1.consumed
  | deleteServers input =>
    obtain ⟨rows, -, -, hc, -⟩ := h
    exact hc.consumed

theorem consumed_by_claim {A : Argon2} {db : Db} (inv : Inv db) {c : Call} {id : ℕ} (h : Consumes A db c id) :
    ∃ o, o.id = id ∧ ClaimsInTime A db c o := by
  obtain ⟨hnot, p, hp, hid, hoc⟩ := h
  have hkept : p ∉ db.offers := fun hp' => hnot ⟨p, hp', hid, hoc⟩
  rcases exec_contract (A := A) inv c with ⟨hok, hs⟩ | ⟨-, hf⟩
  · by_cases hclaim : ∃ input, c.op = .claim input
    · obtain ⟨input, hop⟩ := hclaim
      unfold Succeeded at hs
      rw [hop] at hs
      obtain ⟨a, o, salt, hash, -, hcl, -⟩ := hs
      obtain ⟨now, hclosed⟩ := hcl.closed
      change p ∈ (exec A db c).db.offers at hp
      rw [hcl.result] at hp
      obtain ⟨hmem, hopen, -⟩ := hcl.valid.closes _ hclosed
      rcases Act.mem_offers inv hcl.valid hp with ⟨h1, -⟩ | ⟨cl, hcl', rfl⟩ | hm
      · exact absurd h1 hkept
      · rw [hclosed] at hcl'
        cases hcl'
        exact ⟨o, hid, ⟨input, hop⟩, hok, hmem, hopen, hcl.deadline⟩
      · rw [hcl.minted] at hm
        cases hm
    · exact absurd (hs.consumed (fun input e => hclaim ⟨input, e⟩) p hp hoc) hkept
  · exact absurd ((hf.consumed inv).consumed p hp hoc) hkept

/-- after the call that consumed it, an offer is never consumed again -/
theorem consumed_once {A : Argon2} {db : Db} (inv : Inv db) {c c' : Call} {id : ℕ} (h : Consumes A db c id)
    (mid : List Call) : ¬ Consumes A (run A (step A db c) mid) c' id := by
  intro h'
  obtain ⟨-, o, ho, hid, hoc⟩ := h
  have inv1 := Moves.inv inv (step_moves (A := A) inv c)
  have inv2 := run_inv (A := A) inv1 mid
  -- the second consumption would start from an open row, but the row is frozen as consumed
  obtain ⟨p, hpid, -, -, hp, hopen, -⟩ := consumed_by_claim inv2 h'
  have heq := terminal_frozen inv1 (run_moves (A := A) inv1 mid) ho (by rw [hoc]; rfl) hp (hpid.trans hid.symm)
  rw [heq, hoc] at hopen
  cases hopen

/-! ## Tokens -/

/-- what may change the stored token of server `sid` into `token` -/
inductive TokenChange (A : Argon2) (db : Db) (c : Call) (sid : ℕ) : Option String → Prop where
  | claimed (input : ClaimAgent) (o : EnrollmentOffer) (salt hash : String) (hop : c.op = .claim input)
      (ho : ClaimsInTime A db c o) (ht : o.targetServerId = sid) (hc : Consumes A db c o.id)
      (hh : A.hashPassword salt input.proposedRunToken.value = some hash) : TokenChange A db c sid (some hash)
  | reenrolled (input : BeginReenrollment) (hop : c.op = .beginReenrollment input) (hm : input.mode = .emergency)
      (hs : input.serverId = sid) : TokenChange A db c sid none
  | revoked (input : RevokeAuthority) (hop : c.op = .revokeAuthority input) (hs : input.serverId = sid) :
      TokenChange A db c sid none

theorem Claimed.consumes {A : Argon2} {db : Db} (inv : Inv db) {c : Call} {a : Act} {o : EnrollmentOffer}
    {hash : String} (hc : Claimed c.env db (step A db c) a o hash) :
    Consumes A db c o.id := by
  obtain ⟨now, hclosed⟩ := hc.closed
  obtain ⟨hmem, hopen, -⟩ := hc.valid.closes _ hclosed
  refine ⟨?_, o.close .consumed now none, ?_, rfl, rfl⟩
  · rintro ⟨p, hp, hid, hoc⟩
    rw [inv.offer_eq hp hmem hid, hopen] at hoc
    cases hoc
  · rw [hc.result]
    refine List.mem_append_left _ ?_
    rw [hclosed]
    exact List.mem_map.2 ⟨o, hmem, by simp⟩

theorem changed_at {tokens : ℕ → Option String} {sid k : ℕ} {v : Option String}
    (h : Function.update tokens k v sid ≠ tokens sid) : k = sid ∧ Function.update tokens k v sid = v := by
  by_cases hk : sid = k
  · subst hk
    exact ⟨rfl, Function.update_self ..⟩
  · exact absurd (Function.update_of_ne hk ..) h

theorem token_change {A : Argon2} {db : Db} (inv : Inv db) (c : Call) {s s' : Server} (hs : s ∈ db.servers)
    (hs' : s' ∈ (step A db c).servers) (hid : s'.id = s.id) (hne : s'.tokenHash ≠ s.tokenHash) :
    (exec A db c).succeeded = true ∧ TokenChange A db c s.id s'.tokenHash := by
  have inv' := Moves.inv inv (step_moves (A := A) inv c)
  have htok' : tokenOf (step A db c) s.id = s'.tokenHash := by rw [← hid, tokenOf_mem inv' hs']
  have hchg : tokenOf (step A db c) s.id ≠ tokenOf db s.id := by rwa [htok', tokenOf_mem inv hs]
  rw [← htok']
  rcases exec_contract (A := A) inv c with ⟨hok, h⟩ | ⟨-, h⟩
  · refine ⟨hok, ?_⟩
    have hkeep : tokenOf (step A db c) ≠ tokenOf db := fun e => hchg (congrFun e _)
    unfold Succeeded at h
    split at h
    · exact absurd h.1.tokens hkeep
    · exact absurd h.1.tokens hkeep
    · exact absurd h.1.tokens hkeep
    · exact absurd h.1.tokens hkeep
    · rename_i input hop
      obtain ⟨a, o, salt, hash, hh, hc, -⟩ := h
      obtain ⟨now, hclosed⟩ := hc.closed
      obtain ⟨hmem, hopen, htarget, -⟩ := hc.valid.closes _ hclosed
      have htok : tokenOf (step A db c) = _ := (congrArg tokenOf hc.result).trans (Act.tokenOf inv hc.valid)
      rw [htok, hc.stored] at hchg ⊢
      obtain ⟨hsid, hval⟩ := changed_at hchg
      rw [hval]
      exact .claimed input o salt hash hop ⟨⟨input, hop⟩, hok, hmem, hopen, hc.deadline⟩ (htarget.trans hsid)
        (Claimed.consumes inv hc) hh
    · rename_i input hop
      cases hm : input.mode with
      | graceful =>
        rw [hm] at h
        exact absurd h.1.tokens hkeep
      | emergency =>
        rw [hm] at h
        have htok : tokenOf (step A db c) = _ := h.1.tokens
        rw [htok] at hchg ⊢
        obtain ⟨hsid, hval⟩ := changed_at hchg
        rw [hval]
        exact .reenrolled input hop hm hsid
    · rename_i input hop
      have htok : tokenOf (step A db c) = _ := h.1.tokens
      rw [htok] at hchg ⊢
      obtain ⟨hsid, hval⟩ := changed_at hchg
      rw [hval]
      exact .revoked input hop hsid
    · -- the rows of a deletion are gone
      obtain ⟨rows, hrows, -, hc, -⟩ := h
      have htok : tokenOf (step A db c) = _ := hc.tokens
      have hin : ¬ s.id ∈ rows.map (·.id) := by
        intro hmem
        obtain ⟨r, hr, hrid⟩ := List.mem_map.1 hmem
        exact (hrows r hr).2 s' hs' (hid.trans hrid.symm)
      rw [htok, without, if_neg hin] at hchg
      exact absurd rfl hchg
  · exact absurd (congrFun (h.consumed inv).tokens _) hchg

/-! ## The lifecycle -/

/-- **Enrollment-offer lifecycle.** After any calls `pre` from the empty tables, for any next call `c` and any later
calls: one open offer for each server; closed offers keep their terminal columns and have a successor exactly when they
were replaced; an offer is consumed only by a successful claim whose deadline read came before `expires_at`, and at most
once; a token changes only by a claim (into the hash of the proposed token), an emergency re-enrollment or a revocation
(into none). -/
theorem offer_lifecycle (A : Argon2) (pre : List Call) :
    (∀ sid, ((run A Db.empty pre).offers.filter fun o => o.isOpen && o.targetServerId == sid).length ≤ 1) ∧
    (∀ o ∈ (run A Db.empty pre).offers, o.outcome = some .replaced ↔ o.successorOfferId.isSome = true) ∧
    (∀ mid, ∀ o ∈ (run A Db.empty pre).offers, o.outcome.isSome = true →
      ∀ p ∈ (run A Db.empty (pre ++ mid)).offers, p.id = o.id →
        p.outcome = o.outcome ∧ p.terminalAt = o.terminalAt ∧ p.successorOfferId = o.successorOfferId) ∧
    (∀ c id, Consumes A (run A Db.empty pre) c id →
      (∃ o, o.id = id ∧ ClaimsInTime A (run A Db.empty pre) c o) ∧
      ∀ mid c', ¬ Consumes A (run A Db.empty (pre ++ c :: mid)) c' id) ∧
    (∀ c, ∀ s ∈ (run A Db.empty pre).servers, ∀ s' ∈ (step A (run A Db.empty pre) c).servers, s'.id = s.id →
      s'.tokenHash ≠ s.tokenHash →
        (exec A (run A Db.empty pre) c).succeeded = true ∧
        TokenChange A (run A Db.empty pre) c s.id s'.tokenHash) := by
  have inv := reachable_inv A pre
  refine ⟨one_open_offer inv, fun o ho => replaced_iff inv ho, ?_, ?_, ?_⟩
  · intro mid o ho ht p hp hid
    rw [run_append] at hp
    have heq := terminal_frozen inv (run_moves inv mid) ho ht hp hid
    exact heq ▸ ⟨rfl, rfl, rfl⟩
  · intro c id hc
    refine ⟨consumed_by_claim inv hc, fun mid c' => ?_⟩
    rw [run_append]
    exact consumed_once inv hc mid
  · intro c s hs s' hs' hid hne
    exact token_change inv c hs hs' hid hne

/-! ### The deadline falls between two reads -/

/-- passwords stored as they are: a stand-in that accepts exactly the password it hashed -/
def plainHash : Argon2 := ⟨fun _ password => some password, fun password hash => some (password == hash)⟩

/-- a minute-long offer is minted at 0; the claim reads the clock at 59, then at 60 -/
def lateClaim : List Call :=
  [⟨.onboard ⟨"srv", 0, .system, "web", ⟨60, by decide⟩⟩, ⟨fun _ => 0, fun _ => false, fun _ => "abcdefgh01234567"⟩⟩,
   ⟨.claim ⟨⟨"abcdefgh01234567", by decide⟩, ⟨"abcdefghabcdefghabcdefghabcdefgh", by decide⟩, "ws", none⟩,
    ⟨fun i => if i = 0 then 59 else 60, fun _ => false, fun _ => "salt"⟩⟩]

theorem lateClaim_advances : ∀ c ∈ lateClaim, Monotone c.env.clock := by
  intro c hc
  simp only [lateClaim, List.mem_cons, List.not_mem_nil, or_false] at hc
  rcases hc with rfl | rfl
  · exact monotone_const
  · intro i j hij
    show (if i = 0 then (59 : ℤ) else 60) ≤ if j = 0 then 59 else 60
    split_ifs <;> omega

/-- an offer can be consumed at its deadline: the deadline is compared with one clock read and `terminal_at` is the
next -/
theorem consumed_at_deadline : ¬ ∀ calls : List Call, (∀ c ∈ calls, Monotone c.env.clock) →
    ∀ o ∈ (run plainHash Db.empty calls).offers, o.outcome = some .consumed →
      ∀ t, o.terminalAt = some t → t < o.expiresAt := by
  intro h
  have hlate : ∃ o ∈ (run plainHash Db.empty lateClaim).offers,
      o.outcome = some .consumed ∧ o.terminalAt = some o.expiresAt := by decide
  obtain ⟨o, ho, hoc, ht⟩ := hlate
  exact absurd (h lateClaim lateClaim_advances o ho hoc _ ht) (lt_irrefl _)

end ServerBee.Authority
