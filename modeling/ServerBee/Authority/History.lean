/-
The authority history as a replay log.

`agent_authority_events` read in insertion order, server by server, is a chain from Unclaimed to the status the
`servers` row has now (Unclaimed once the row is gone), and the events about one offer agree with its outcome column.
A call that fails appends nothing, or materialises one elapsed offer as expired together with its one event.
-/
import ServerBee.Authority.Lifecycle

namespace ServerBee.Authority

open ServerBee.Lib

/-- exactly one elapsed offer was materialised as expired, with its one event, and nothing else changed -/
def ExpiredOne (env : Env) (db db' : Db) : Prop :=
  ∃ o ∈ db.offers, o.outcome = none ∧ o.expiresAt ≤ env.clock 0 ∧ ∃ (now : ℤ) (e : AuthorityEvent),
    db'.servers = db.servers ∧
    db'.offers = db.offers.map (fun p => if p.id == o.id then p.close .expired now none else p) ∧
    db'.events = db.events ++ [e] ∧
    e.serverId = o.targetServerId ∧ e.offerId = some o.id ∧ e.transition = .offerExpired ∧
    e.offerOutcome = some .expired ∧ e.authorityBefore = e.authorityAfter

theorem Failed.effect {env : Env} {db db' : Db} {trace : List (Visible Db Effect)} (h : Failed env db db' trace) :
    db' = db ∨ ExpiredOne env db db' := by
  cases h with
  | quiet ks => exact Or.inl rfl
  | expired a server o hv hc hd =>
    obtain ⟨now, hclosed⟩ := hc.closed_eq
    obtain ⟨hmem, hopen, htarget, -, h1, h2, h3⟩ := hv.closes _ hclosed
    refine Or.inr ⟨o, hmem, hopen, hd, now, a.event, hc.servers, ?_, rfl, hv.event_server.trans htarget.symm, h1, h2,
      h3, ?_⟩
    · simp only [Act.apply, hclosed, hc.minted_eq, closeRows, Option.toList_none, List.append_nil]
    · rw [hv.before, hv.after, hc.set_eq, id]

/-- **The history is a faithful replay log.** After any calls from the empty tables, each server's events lead from
Unclaimed to its present status, each starting where its predecessor ended; a closed offer has exactly one terminal
event, with the transition and outcome of its row, and an open one has none; and whatever call comes next, if it fails
it leaves the tables as they were or expires one elapsed offer with its one event. -/
theorem history_replays (A : Argon2) (calls : List Call) :
    (∀ sid, Replays .unclaimed (history (run A Db.empty calls) sid) (statusOf (run A Db.empty calls) sid)) ∧
    (∀ o ∈ (run A Db.empty calls).offers, LoggedOnce (run A Db.empty calls) o) ∧
    (∀ c, (exec A (run A Db.empty calls) c).succeeded = false →
      step A (run A Db.empty calls) c = run A Db.empty calls ∨
        ExpiredOne c.env (run A Db.empty calls) (step A (run A Db.empty calls) c)) := by
  have inv := reachable_inv A calls
  refine ⟨inv.replay, inv.logged, ?_⟩
  intro c hfail
  rcases exec_contract (A := A) inv c with ⟨hok, -⟩ | ⟨-, h⟩
  · rw [hfail] at hok
    cases hok
  · exact h.effect

end ServerBee.Authority
