/-
Concurrent `decide` transactions on one approval, under READ COMMITTED.

A transaction loads the row and passes its checks (`load`), and later writes the decision, carries it out and commits
(`finish`). `record` takes the audit lock right after the decision is assigned and holds it until the transaction ends,
so from the lock on nothing of another decider comes between: `finish` is one step. What it was loaded with is not looked
at again: the UPDATE goes by primary key and writes the columns that differ from the loaded ones.

- `finish_row`: what a finish commits holds a decision.
- `decided_once_iff`: at most one transaction commits a decision iff every one that does finds the row still pending.
- `approved_and_rejected`: two approvers commit an approval and a rejection of one request.
-/
import Certadillo.Lib.Threads
import Certadillo.Services.MakerChecker

namespace Certadillo.Platform

open Integrity Policy Py Machine

/-! ## Model -/

/-- a transaction that has passed its checks, with the row as it loaded it -/
structure Deciding where
  env : Env
  actor : Actor
  approve : Bool
  comment : Option String
  req : ApprovalRequest

inductive RaceOp where
  | load (env : Env) (actor : Actor) (approve : Bool) (comment : Option String)
  | finish
  | rollback

/-- the UPDATE of the decision, on the row as it is stored by then -/
def Deciding.update (p : Deciding) (r : ApprovalRequest) : ApprovalRequest :=
  let new := flushed p.env.st p.req (decided p.env p.actor p.approve p.comment p.req)
  { r with
    status := written p.req.status new.status r.status
    decidedBy := written p.req.decidedBy new.decidedBy r.decidedBy
    decidedAt := written p.req.decidedAt new.decidedAt r.decidedAt
    comment := written p.req.comment new.comment r.comment
    sealHex := written p.req.sealHex new.sealHex r.sealHex }

/-- `carry` of the transaction, over whatever is stored by then -/
def Deciding.carry (p : Deciding) (id : ℕ) : M Unit := do
  Tx.modify fun d => { d with approvals := d.approvals.update id p.update }
  let verdict := (if p.approve then ApprovalStatus.approved else .rejected).text
  record p.env p.actor.name s!"approval.{verdict}" s!"approval:{id}"
    [("action", .str p.req.action.text), ("comment", .ofStr? p.comment)]
  followUp p.env id p.req p.actor.name p.approve

/-- one transaction's step on the committed database -/
def race (id : ℕ) (_ : ℕ) (d : Db) (l : Option Deciding) : RaceOp → Db × Option Deciding
  | .load env actor approve comment =>
    match decideChecks env d actor id approve with
    | .ok req => (d, some ⟨env, actor, approve, comment, req⟩)
    | .error _ => (d, none)
  | .finish =>
    match l with
    | none => (d, none)
    | some p => ((Tx.transact (p.carry id) d).2, none)
  | .rollback => (d, none)

abbrev DeciderSt := Threads.St Db (Option Deciding)

abbrev deciderStep (id : ℕ) : DeciderSt → ℕ × RaceOp → DeciderSt := Threads.step (race id)

/-- no transaction has loaded the row -/
def deciderStart (d : Db) : DeciderSt := ⟨d, fun _ => none⟩

/-- the step commits something -/
def Commits (id : ℕ) (s : DeciderSt) (o : ℕ × RaceOp) : Prop := (deciderStep id s o).shared ≠ s.shared

/-- at most one step of the run commits -/
def DecidedOnce (id : ℕ) (s : DeciderSt) (ops : List (ℕ × RaceOp)) : Prop :=
  AtMostOnce (deciderStep id) (Commits id) s ops

/-- the approval is stored and pending -/
def Pending (id : ℕ) (s : DeciderSt) : Prop := ∃ r, s.shared.approvals.get id = some r ∧ r.status = .pending

/-- a step that commits finds the row still pending -/
def FindsPending (id : ℕ) (s : DeciderSt) (o : ℕ × RaceOp) : Prop := Commits id s o → Pending id s

/-! ## One transaction -/

section One

variable {id : ℕ} {d : Db} {p : Deciding} {r : ApprovalRequest}

/-- without a race the UPDATE stores what the session holds -/
theorem update_loaded : p.update p.req = flushed p.env.st p.req (decided p.env p.actor p.approve p.comment p.req) := by
  obtain ⟨x, hx⟩ := flushed_approval p.env.st p.req (decided p.env p.actor p.approve p.comment p.req)
  unfold Deciding.update
  simp only [written_self, hx]
  rfl

/-- the session after the decision and its event are written -/
def Deciding.noted (p : Deciding) (id : ℕ) (s : Session Db) : Session Db :=
  let verdict := (if p.approve then ApprovalStatus.approved else .rejected).text
  let d := s.work
  ⟨s.committed, { d with
    approvals := d.approvals.update id p.update
    audit := d.audit ++ [⟨p.env.now, p.actor.name, s!"approval.{verdict}", s!"approval:{id}",
      .obj [("action", .str p.req.action.text), ("comment", .ofStr? p.comment)]⟩] }⟩

theorem deciding_carry_run (s : Session Db) :
    p.carry id s = followUp p.env id p.req p.actor.name p.approve (p.noted id s) := rfl

/-- without a race the transaction is `decide`'s -/
theorem carry_loaded {s : Session Db} (h : s.work.approvals.get id = some p.req) :
    p.carry id s = carry p.env p.actor id p.req p.approve p.comment s := by
  have htable : s.work.approvals.update id p.update = s.work.approvals.update id fun r =>
      flushed p.env.st r (decided p.env p.actor p.approve p.comment r) := by
    apply Table.update_congr
    intro r hr
    obtain rfl := Option.some.inj (h.symm.trans hr)
    exact update_loaded
  have hnoted : p.noted id s = noted p.env p.actor id p.req p.approve p.comment s := by
    dsimp only [Deciding.noted, noted]
    rw [htable]
  rw [carry_run, deciding_carry_run, hnoted]

theorem update_decided (hp : p.req.status = .pending) (r : ApprovalRequest) : (p.update r).status ≠ .pending := by
  obtain ⟨x, hx⟩ := flushed_approval p.env.st p.req (decided p.env p.actor p.approve p.comment p.req)
  have hnew : (flushed p.env.st p.req (decided p.env p.actor p.approve p.comment p.req)).status ≠ .pending := by
    rw [hx]
    cases p.approve <;> simp [decided]
  have hstatus : (p.update r).status = written p.req.status
      (flushed p.env.st p.req (decided p.env p.actor p.approve p.comment p.req)).status r.status := rfl
  rw [hstatus, written, hp, if_neg hnew]
  exact hnew

/-- what a finish commits: nothing, or a decision -/
theorem finish_row (hp : p.req.status = .pending) {r : ApprovalRequest} (hr : d.approvals.get id = some r) :
    (Tx.transact (p.carry id) d).2 = d ∨
      ∃ r', (Tx.transact (p.carry id) d).2.approvals.get id = some r' ∧ r'.status ≠ .pending := by
  have hget : (p.noted id ⟨d, d⟩).work.approvals.get id = some (p.update r) :=
    (Table.get_update_self d.approvals id p.update).trans (by rw [hr]; rfl)
  have hst := update_decided hp r
  obtain ⟨hcommitted, r2, hr2, hs2, -⟩ := @followUp_row id p.env _ _ hget hst p.req p.actor.name p.approve
  unfold Tx.transact
  rw [deciding_carry_run]
  rcases hres : followUp p.env id p.req p.actor.name p.approve (p.noted id ⟨d, d⟩) with ⟨e | u, s'⟩
  · rw [hres] at hcommitted
    rcases hcommitted with hc | ⟨_, r', -, hr', hs', -⟩
    · exact Or.inl hc
    · exact Or.inr ⟨r', hr', hs' ▸ hst⟩
  · rw [hres] at hr2
    exact Or.inr ⟨r2, hr2, hs2 ▸ hst⟩

end One

/-! ## Every interleaving -/

section Races

variable {id : ℕ} {d : Db} {s : DeciderSt} {ops : List (ℕ × RaceOp)}

/-- every transaction under way loaded a pending row, and the row is still there -/
def Underway (id : ℕ) (s : DeciderSt) : Prop :=
  ∀ t p, s.loc t = some p → p.req.status = .pending ∧ ∃ r, s.shared.approvals.get id = some r

/-- what a step does to the committed database -/
theorem decider_shared (id : ℕ) (s : DeciderSt) (o : ℕ × RaceOp) :
    (deciderStep id s o).shared = s.shared ∨
      ∃ p, s.loc o.1 = some p ∧ (deciderStep id s o).shared = (Tx.transact (p.carry id) s.shared).2 := by
  obtain ⟨t, op⟩ := o
  rw [Threads.step_shared]
  cases op with
  | load env actor approve comment =>
    unfold race
    dsimp only
    split <;> exact Or.inl rfl
  | rollback => exact Or.inl rfl
  | finish =>
    cases hl : s.loc t with
    | none => exact Or.inl rfl
    | some p => exact Or.inr ⟨p, rfl, rfl⟩

/-- a transaction under way after a step was so before, or has just passed its checks -/
theorem decider_loc {o : ℕ × RaceOp} {t : ℕ} {p : Deciding} (h : (deciderStep id s o).loc t = some p) :
    s.loc t = some p ∨
      (MayDecide p.env s.shared p.actor id p.req ∧ (deciderStep id s o).shared = s.shared) := by
  obtain ⟨u, op⟩ := o
  by_cases ht : t = u
  swap
  · rw [Threads.step_loc_other _ _ ht] at h
    exact Or.inl h
  subst ht
  rw [Threads.step_loc_self] at h
  rw [Threads.step_shared]
  cases op with
  | load env actor approve comment =>
    unfold race at h ⊢
    dsimp only at h ⊢
    split at h
    · next req hreq =>
      obtain rfl := Option.some.inj h
      exact Or.inr ⟨decideChecks_ok hreq, rfl⟩
    · cases h
  | finish =>
    unfold race at h
    dsimp only at h
    split at h <;> cases h
  | rollback => cases h

/-- what a step leaves of the row: the same, or a decision -/
theorem decider_row {o : ℕ × RaceOp} (h : Underway id s) :
    (deciderStep id s o).shared = s.shared ∨
      ∃ r, (deciderStep id s o).shared.approvals.get id = some r ∧ r.status ≠ .pending := by
  rcases decider_shared id s o with hsame | ⟨p, hp, hshared⟩
  · exact Or.inl hsame
  · obtain ⟨hpending, r, hr⟩ := h _ p hp
    rcases finish_row hpending hr with hd | hdecided
    · exact Or.inl (hshared.trans hd)
    · exact Or.inr (by rw [hshared]; exact hdecided)

theorem underway_step {o : ℕ × RaceOp} (h : Underway id s) : Underway id (deciderStep id s o) := by
  intro t p hp
  rcases decider_loc hp with hbefore | ⟨hmay, hsame⟩
  · obtain ⟨hpending, r, hr⟩ := h t p hbefore
    refine ⟨hpending, ?_⟩
    rcases decider_row (o := o) h with hsame | ⟨r', hr', -⟩
    · exact ⟨r, by rw [hsame]; exact hr⟩
    · exact ⟨r', hr'⟩
  · exact ⟨hmay.pending, p.req, by rw [hsame]; exact hmay.stored⟩

/-- until something is committed the database is the one at the start, and every transaction loaded its row from it -/
structure Undecided (id : ℕ) (d : Db) (s : DeciderSt) : Prop where
  shared : s.shared = d
  loaded : ∀ t p, s.loc t = some p → d.approvals.get id = some p.req ∧ p.req.status = .pending

theorem undecided_step {o : ℕ × RaceOp} (h : Undecided id d s) (hc : ¬ Commits id s o) :
    Undecided id d (deciderStep id s o) := by
  refine ⟨(not_not.1 hc).trans h.shared, ?_⟩
  intro t p hp
  rcases decider_loc hp with hbefore | ⟨hmay, -⟩
  · exact h.loaded t p hbefore
  · rw [h.shared] at hmay
    exact ⟨hmay.stored, hmay.pending⟩

theorem deciderStart_loc {t : ℕ} {p : Deciding} : (deciderStart d).loc t ≠ some p := nofun

/-- **At most one transaction commits a decision** iff every one that does finds the row still pending. -/
theorem decided_once_iff (id : ℕ) (d : Db) (ops : List (ℕ × RaceOp)) :
    DecidedOnce id (deciderStart d) ops ↔ Along (deciderStep id) (FindsPending id) (deciderStart d) ops := by
  refine atMostOnce_iff (I := Underway id) (J := Undecided id d) (fun _ _ => underway_step) ?_ ?_
    (fun _ _ => undecided_step) ?_ (fun _ _ h => absurd h deciderStart_loc)
    ⟨rfl, fun _ _ h => absurd h deciderStart_loc⟩ ops
  · intro s o hs hc _
    rcases decider_row (o := o) hs with hsame | ⟨r, hr, hst⟩
    · exact absurd hsame hc
    · rintro ⟨r', hr', hpending⟩
      obtain rfl := Option.some.inj (hr.symm.trans hr')
      exact hst hpending
  · intro s o hs hnot
    rcases decider_row (o := o) hs with hsame | ⟨r, hr, hst⟩
    · unfold Pending
      rw [hsame]
      exact hnot
    · rintro ⟨r', hr', hpending⟩
      obtain rfl := Option.some.inj (hr.symm.trans hr')
      exact hst hpending
  · intro s o hs hc
    rcases decider_shared id s o with hsame | ⟨p, hp, -⟩
    · exact absurd hsame hc
    · obtain ⟨hstored, hpending⟩ := hs.loaded _ p hp
      exact ⟨p.req, by rw [hs.shared]; exact hstored, hpending⟩

end Races

/-! ### An approval and a rejection -/

section Examples

/-- an administrator's policy change waits for approval -/
def askedDb : Db := Certadillo.step Db.empty folderAsked

/-- one approver approves and another rejects, each having read the pending row -/
def approveAndReject : List (ℕ × RaceOp) :=
  [(0, .load demoEnv ⟨"ann", .approver, none⟩ true none), (1, .load demoEnv ⟨"bob", .approver, none⟩ false none)]

/-- The folder is created and the approval is committed as rejected. -/
theorem approved_and_rejected :
    ¬ ∀ (id : ℕ) (d : Db) (ops : List (ℕ × RaceOp)), DecidedOnce id (deciderStart d) ops := by
  intro h
  have hfirst : ((deciderStep 1 (run (deciderStep 1) (deciderStart askedDb) approveAndReject) (0, .finish)).shared.audit.length ≠
      (run (deciderStep 1) (deciderStart askedDb) approveAndReject).shared.audit.length) := by decide
  have hsecond : ((deciderStep 1 (run (deciderStep 1) (deciderStart askedDb) (approveAndReject ++ [(0, .finish)]))
      (1, .finish)).shared.audit.length ≠
      (run (deciderStep 1) (deciderStart askedDb) (approveAndReject ++ [(0, .finish)])).shared.audit.length) := by decide
  have heq := h 1 askedDb (approveAndReject ++ [(0, .finish), (1, .finish)]) approveAndReject (0, .finish)
    [(1, .finish)] (approveAndReject ++ [(0, .finish)]) (1, .finish) [] rfl rfl
    (fun he => hfirst (by rw [he])) (fun he => hsecond (by rw [he]))
  exact absurd (congrArg List.length heq) (by decide)

end Examples

end Certadillo.Platform
