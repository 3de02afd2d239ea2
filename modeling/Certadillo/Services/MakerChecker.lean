/-
Dual control over whole runs: requests, decisions, deactivations and everything else the application does, in any order,
by any actors, each call with the roles its actor has at that moment.

An approval row is written by the call that requests it and by the one decision that ends its wait; nothing else touches
it. So whatever is carried out was decided once, by the right person, on the payload that was stored when it was asked.

- `step_kept`: a call that does not decide an approval leaves its row as it was.
- `step_settled`: a row that is decided keeps its status and who decided it.
- `step_waits`: a waiting row is left alone, or decided.
- `carried_out_under_dual_control`: what holds of every approval carried out, in every run.
-/
import Certadillo.Runs

namespace Certadillo

open Integrity Policy Py Relation Machine
open Tx (CalmAt)

namespace Platform

/-! ## One write -/

section Writes

variable {env : Env} {g : Grant} {d d' : Db} {id : ℕ} {r : ApprovalRequest}

theorem write_kept (h : Write env g d d') (hid : ¬ g.decides id) (hr : d.approvals.get id = some r) :
    d'.approvals.get id = some r := by
  cases h with
  | frame _ _ apps _ _ _ => rw [apps]; exact hr
  | addApproval a _ => exact Table.get_insert_of_some hr
  | setApproval i f hg _ =>
    have hne : id ≠ i := fun e => hid (e ▸ hg)
    exact (Table.get_update_of_ne _ _ hne).trans hr
  | _ => exact hr

/-- a decided row keeps its decision, whatever is written -/
theorem write_settled (h : Write env g d d') (hr : d.approvals.get id = some r) (hst : r.status ≠ .pending) :
    ∃ r', d'.approvals.get id = some r' ∧ r'.status = r.status ∧ r'.decidedBy = r.decidedBy := by
  cases h with
  | frame _ _ apps _ _ _ => exact ⟨r, by rw [apps]; exact hr, rfl, rfl⟩
  | addApproval a _ => exact ⟨r, Table.get_insert_of_some hr, rfl, rfl⟩
  | setApproval i f hg hf =>
    by_cases hi : id = i
    · subst hi
      obtain ⟨x, hx⟩ := flushed_approval env.st r (f r)
      have hev := (hf r hr).status.resolve_right fun h => hst h.1
      have hget := Table.get_update_self d.approvals id fun r => flushed env.st r (f r)
      rw [hr, Option.map_some, hx] at hget
      exact ⟨_, hget, hev⟩
    · exact ⟨r, (Table.get_update_of_ne _ _ hi).trans hr, rfl, rfl⟩
  | _ => exact ⟨r, hr, rfl, rfl⟩

theorem writes_settled (h : ReflTransGen (Write env g) d d') (hr : d.approvals.get id = some r)
    (hst : r.status ≠ .pending) :
    ∃ r', d'.approvals.get id = some r' ∧ r'.status = r.status ∧ r'.decidedBy = r.decidedBy := by
  refine Tx.reaches_inv (I := fun d => ∃ r', d.approvals.get id = some r' ∧ r'.status = r.status ∧
    r'.decidedBy = r.decidedBy) ?_ h ⟨r, hr, rfl, rfl⟩
  rintro a b hw ⟨r', hr', hs, hb⟩
  obtain ⟨r'', hr'', hs', hb'⟩ := write_settled hw hr' (hs ▸ hst)
  exact ⟨r'', hr'', hs'.trans hs, hb'.trans hb⟩

end Writes

/-! ## One call -/

theorem stillValid_ok {d : Db} {req : ApprovalRequest} (h : stillValid d req = .ok ()) {i : ℕ} {p : Principal}
    (hp : d.principals.get i = some p) (hname : p.name = req.requestedBy) : p.active = true := by
  unfold stillValid at h
  extract_lets -underBinder rest at h
  have hrest : rest () = .ok () := by
    split at h
    · obtain ⟨_, -, h⟩ := except_bind_ok.1 h
      obtain ⟨_, -, h⟩ := except_bind_ok.1 h
      extract_lets at h
      split at h
      · obtain ⟨_, h, -⟩ := except_bind_ok.1 h
        cases h
      · exact h
    · exact h
  obtain ⟨o, ho, hrest⟩ := except_bind_ok.1 hrest
  obtain rfl := oneOrNone_ok ho hp (by simpa using hname)
  have hrest : (if (!p.active) = true then
      throw (.forbidden "the requester's credential has been deactivated; this request cannot be approved")
      else pure () : Except Err Unit) = .ok () := hrest
  split at hrest
  · cases hrest
  · next hact => simpa using hact

section Steps

variable {d : Db} {c : Call} {id : ℕ} {r : ApprovalRequest}

/-- the call decides the approval -/
def Decides (c : Call) (id : ℕ) : Prop :=
  match c.op with
  | .decide _ approvalId _ _ => id = approvalId
  | _ => False

theorem not_granted (hid : ¬ Decides c id) : ¬ (grant d c).decides id := by
  obtain ⟨env, op⟩ := c
  cases op <;> exact hid

theorem step_kept (hid : ¬ Decides c id) (hr : d.approvals.get id = some r) : (step d c).approvals.get id = some r :=
  Tx.reaches_inv (I := fun d => d.approvals.get id = some r) (fun _ _ hw h => write_kept hw (not_granted hid) h)
    (step_writes d c) hr

/-- a decision that fails its checks writes nothing -/
theorem decide_unchecked {env : Env} {actor : Actor} {approve : Bool} {comment : Option String} {e : Err}
    (h : decideChecks env d actor id approve = .error e) :
    Tx.transact (decide env actor id approve comment) d = (.error e, d) := by
  have hrun : decide env actor id approve comment ⟨d, d⟩ = (.error e, ⟨d, d⟩) :=
    (Tx.bind_ok (Tx.get_run _)).trans (Tx.bind_error (by rw [h]; rfl))
  simp only [Tx.transact, hrun]

/-- one that passes them is `carry` -/
theorem decide_checked {env : Env} {actor : Actor} {approve : Bool} {req : ApprovalRequest}
    (h : decideChecks env d actor id approve = .ok req) (comment : Option String) :
    decide env actor id approve comment ⟨d, d⟩ =
      (if approve then execute env id req actor.name else carryRejection env req actor.name)
        (noted env actor id req approve comment ⟨d, d⟩) := by
  have hlift : lift (decideChecks env d actor id approve) ⟨d, d⟩ = (.ok req, ⟨d, d⟩) := by rw [h]; rfl
  exact ((Tx.bind_ok (Tx.get_run _)).trans (Tx.bind_ok hlift)).trans (carry_run actor id req approve comment ⟨d, d⟩)

/-- the row once the decision is written -/
theorem noted_row {env : Env} {actor : Actor} {req : ApprovalRequest} (hr : d.approvals.get id = some req)
    (approve : Bool) (comment : Option String) :
    ∃ r', (noted env actor id req approve comment ⟨d, d⟩).work.approvals.get id = some r' ∧
      r'.status = (if approve then .approved else .rejected) ∧ r'.decidedBy = some actor.name := by
  obtain ⟨x, hx⟩ := flushed_approval env.st req (decided env actor approve comment req)
  have hget := Table.get_update_self d.approvals id fun r => flushed env.st r (decided env actor approve comment r)
  rw [hr, Option.map_some, hx] at hget
  exact ⟨_, hget, rfl, rfl⟩

/-- what follows the decision: carrying it out, or what a rejection does -/
abbrev followUp (env : Env) (id : ℕ) (req : ApprovalRequest) (decidedBy : String) (approve : Bool) : M Unit :=
  if approve then execute env id req decidedBy else carryRejection env req decidedBy

/-- from a session that holds a decision, everything `followUp` commits or leaves to commit holds it too -/
theorem followUp_row {env : Env} {s : Session Db} {r : ApprovalRequest} (hr : s.work.approvals.get id = some r)
    (hst : r.status ≠ .pending) (req : ApprovalRequest) (decidedBy : String) (approve : Bool) :
    ((followUp env id req decidedBy approve s).2.committed = s.committed ∨
      ∃ e r', (followUp env id req decidedBy approve s).1 = .error e ∧
        (followUp env id req decidedBy approve s).2.committed.approvals.get id = some r' ∧
        r'.status = r.status ∧ r'.decidedBy = r.decidedBy) ∧
    ∃ r', (followUp env id req decidedBy approve s).2.work.approvals.get id = some r' ∧ r'.status = r.status ∧
      r'.decidedBy = r.decidedBy := by
  by_cases href : approve = true ∧ RefusedRequest env s.work req
  · -- the refusal commits the session, with the decision in it
    obtain ⟨rfl, href⟩ := href
    obtain ⟨e, ev, hex⟩ := execute_refused href id decidedBy
    rw [followUp, if_pos rfl, hex]
    exact ⟨Or.inr ⟨e, r, rfl, hr, rfl, rfl⟩, r, hr, rfl, rfl⟩
  · have hcalm : CalmAt (Write env .full) s (followUp env id req decidedBy approve) := by
      unfold followUp
      split
      · next ha => exact execute_calmAt (granted_full _ _) trivial _ fun hr => href ⟨ha, hr⟩
      · exact calm_carryRejection _ _ _
    exact ⟨Or.inl hcalm.1, writes_settled hcalm.2 hr hst⟩

/-- what deciding leaves: the database as it was, after an error, or the decision written -/
theorem decide_row {env : Env} {actor : Actor} {approve : Bool} {req : ApprovalRequest}
    (h : decideChecks env d actor id approve = .ok req) (comment : Option String) :
    ((∃ e, (Tx.transact (decide env actor id approve comment) d).1 = .error e) ∧
        (Tx.transact (decide env actor id approve comment) d).2 = d) ∨
      ∃ r', (Tx.transact (decide env actor id approve comment) d).2.approvals.get id = some r' ∧
        r'.status = (if approve then .approved else .rejected) ∧ r'.decidedBy = some actor.name := by
  obtain ⟨r1, hr1, hst1, hby1⟩ := noted_row (decideChecks_ok h).stored approve comment
  have hrun := decide_checked h comment
  obtain ⟨hcommitted, r2, hr2, hs2, hb2⟩ := @followUp_row id env _ r1 hr1 (by rw [hst1]; cases approve <;> decide) req
    actor.name approve
  unfold followUp at hcommitted hr2
  unfold Tx.transact
  rw [hrun]
  rcases hres : (if approve then execute env id req actor.name else carryRejection env req actor.name)
    (noted env actor id req approve comment ⟨d, d⟩) with ⟨e | u, s'⟩
  · rw [hres] at hcommitted
    rcases hcommitted with hc | ⟨_, r', -, hr', hs', hb'⟩
    · exact Or.inl ⟨⟨e, rfl⟩, hc⟩
    · exact Or.inr ⟨r', hr', hs'.trans hst1, hb'.trans hby1⟩
  · rw [hres] at hr2
    exact Or.inr ⟨r2, hr2, hs2.trans hst1, hb2.trans hby1⟩

theorem decide_cases (d : Db) (id : ℕ) (actor : Actor) (env : Env) (approve : Bool) (comment : Option String) :
    (Tx.transact (decide env actor id approve comment) d).2 = d ∨
      ∃ req r', decideChecks env d actor id approve = .ok req ∧
        (Tx.transact (decide env actor id approve comment) d).2.approvals.get id = some r' ∧
        r'.status = (if approve then .approved else .rejected) ∧ r'.decidedBy = some actor.name := by
  cases h : decideChecks env d actor id approve with
  | error e => exact Or.inl (by rw [decide_unchecked h])
  | ok req =>
    rcases decide_row h comment with ⟨-, hd⟩ | ⟨r', hr', hs', hb'⟩
    · exact Or.inl hd
    · exact Or.inr ⟨req, r', rfl, hr', hs', hb'⟩

/-- a waiting row is left alone, or decided; a decided row is left alone -/
theorem step_waits (hr : d.approvals.get id = some r) :
    ∃ r', (step d c).approvals.get id = some r' ∧ (r' = r ∨ r.status = .pending ∧ r'.status ≠ .pending) := by
  by_cases hid : Decides c id
  · obtain ⟨env, op⟩ := c
    cases op with
    | decide actor approvalId approve comment =>
      obtain rfl : id = approvalId := hid
      rcases decide_cases d id actor env approve comment with hd | ⟨req, r', hreq, hr', hs', -⟩
      · exact ⟨r, by rw [show step d ⟨env, .decide actor id approve comment⟩ = d from hd]; exact hr, Or.inl rfl⟩
      · have hpend := (decideChecks_ok hreq).waiting r hr
        exact ⟨r', hr', Or.inr ⟨hpend, by rw [hs']; cases approve <;> decide⟩⟩
    | _ => exact hid.elim
  · exact ⟨r, step_kept hid hr, Or.inl rfl⟩

theorem step_settled (hr : d.approvals.get id = some r) (hst : r.status ≠ .pending) :
    (step d c).approvals.get id = some r := by
  obtain ⟨r', hr', he | ⟨hp, -⟩⟩ := step_waits (c := c) hr
  · exact he ▸ hr'
  · exact absurd hp hst

/-! ## Carrying out -/

/-- the call approves the request, its execution returns, and that is committed -/
def CarriesOut (d : Db) (c : Call) (id : ℕ) : Prop :=
  ∃ actor comment, c.op = .decide actor id true comment ∧
    (Tx.transact (decide c.env actor id true comment) d).1 = .ok ()

/-- the call writes a decision into the row -/
def DecisionMade (d : Db) (c : Call) (id : ℕ) : Prop :=
  ∃ r r', d.approvals.get id = some r ∧ (step d c).approvals.get id = some r' ∧
    (r'.status ≠ r.status ∨ r'.decidedBy ≠ r.decidedBy)

/-- an approval only passes the checks while its requester's credential is active -/
theorem decideChecks_requester {env : Env} {actor : Actor} {req : ApprovalRequest}
    (h : decideChecks env d actor id true = .ok req) {i : ℕ} {p : Principal} (hp : d.principals.get i = some p)
    (hname : p.name = req.requestedBy) : p.active = true := by
  have hstored := (decideChecks_ok h).stored
  unfold decideChecks at h
  obtain ⟨_, -, h⟩ := except_bind_ok.1 h
  simp only [hstored] at h
  split at h
  · simp at h
  split at h
  · simp at h
  split at h
  · simp at h
  obtain ⟨me, -, h⟩ := except_bind_ok.1 h
  split at h
  · simp at h
  obtain ⟨_, hvalid, -⟩ := except_bind_ok.1 (by simpa only [if_true] using h)
  exact stillValid_ok hvalid hp hname

end Steps

/-! ## Runs -/

section Runs

variable {d d0 : Db} {id : ℕ} {r req : ApprovalRequest}

/-- a decided row is left alone by every later call -/
theorem run_settled (calls : List Call) (hr : d.approvals.get id = some r) (hst : r.status ≠ .pending) :
    (run step d calls).approvals.get id = some r :=
  run_keeps (I := fun d : Db => d.approvals.get id = some r) (fun _ _ h => step_settled h hst) hr calls

/-- a row that is pending at the end of a run was the same row from the start -/
theorem run_waited (calls : List Call) (hend : (run step d calls).approvals.get id = some req)
    (hp : req.status = .pending) (hr : d.approvals.get id = some r) : r = req := by
  induction calls generalizing d r with
  | nil => exact Option.some.inj (hr.symm.trans hend)
  | cons c calls ih =>
    obtain ⟨r', hr', rfl | ⟨-, hne⟩⟩ := step_waits (c := c) hr
    · exact ih hend hr'
    · exact absurd (ih hend hr' ▸ hp) hne

/-- the call that first stored a pending row stored it as it is -/
theorem run_requested {calls : List Call} (h0 : d0.approvals.get id = none)
    (hend : (run step d0 calls).approvals.get id = some req) (hp : req.status = .pending) :
    ∃ before c after, calls = before ++ c :: after ∧ (run step d0 before).approvals.get id = none ∧
      (step (run step d0 before) c).approvals.get id = some req := by
  induction calls generalizing d0 with
  | nil => exact absurd (h0.symm.trans hend) nofun
  | cons c calls ih =>
    rcases hget : (step d0 c).approvals.get id with _ | r
    · obtain ⟨before, c', after, he, hnone, hsome⟩ := ih hget hend
      exact ⟨c :: before, c', after, by rw [he]; rfl, hnone, hsome⟩
    · exact ⟨[], c, calls, rfl, h0, hget.trans (congrArg some (run_waited calls hend hp hget))⟩

/-- what dual control promises of an approval carried out by the call `c` after the calls `before` -/
structure DualControl (d0 : Db) (before : List Call) (c : Call) (id : ℕ) (actor : Actor) (comment : Option String)
    (req : ApprovalRequest) : Prop where
  /-- pending, and decided by an approver who is neither the requester nor of the requester's making -/
  checked : MayDecide c.env (run step d0 before) actor id req
  requesterActive : ∀ i p, (run step d0 before).principals.get i = some p → p.name = req.requestedBy → p.active = true
  /-- the row is the one stored when it was requested -/
  asRequested : ∃ earlier c0 later, before = earlier ++ c0 :: later ∧ (run step d0 earlier).approvals.get id = none ∧
    (step (run step d0 earlier) c0).approvals.get id = some req
  /-- that row is what was carried out -/
  carried : ∃ s, execute c.env id req actor.name
      (noted c.env actor id req true comment ⟨run step d0 before, run step d0 before⟩) = (.ok (), s) ∧
    step (run step d0 before) c = s.work
  decided : ∃ r, (step (run step d0 before) c).approvals.get id = some r ∧ r.status = .approved ∧
    r.decidedBy = some actor.name

theorem carriesOut_checked {c : Call} (h : CarriesOut d c id) :
    ∃ actor comment req, c.op = .decide actor id true comment ∧ decideChecks c.env d actor id true = .ok req ∧
      (∃ s, execute c.env id req actor.name (noted c.env actor id req true comment ⟨d, d⟩) = (.ok (), s) ∧
        step d c = s.work) ∧
      ∃ r, (step d c).approvals.get id = some r ∧ r.status = .approved ∧ r.decidedBy = some actor.name := by
  obtain ⟨actor, comment, hop, hok⟩ := h
  have hstep : step d c = (Tx.transact (decide c.env actor id true comment) d).2 := by simp only [step, hop]
  cases hreq : decideChecks c.env d actor id true with
  | error e => rw [decide_unchecked hreq] at hok; cases hok
  | ok req =>
    refine ⟨actor, comment, req, hop, hreq, ?_, ?_⟩
    · have hrun := decide_checked hreq comment
      rw [if_pos rfl] at hrun
      unfold Tx.transact at hok hstep
      rw [hrun] at hok hstep
      rcases hex : execute c.env id req actor.name (noted c.env actor id req true comment ⟨d, d⟩) with ⟨e | u, s⟩
      · rw [hex] at hok
        cases hok
      · rw [hex] at hstep
        exact ⟨s, rfl, hstep⟩
    · rcases decide_row hreq comment with ⟨⟨e, he⟩, -⟩ | ⟨r, hr, hs, hb⟩
      · rw [he] at hok
        cases hok
      · exact ⟨r, hstep ▸ hr, hs, hb⟩

theorem dualControl {before : List Call} {c : Call} (h0 : d0.approvals.get id = none)
    (h : CarriesOut (run step d0 before) c id) :
    ∃ actor comment req, c.op = .decide actor id true comment ∧ DualControl d0 before c id actor comment req := by
  obtain ⟨actor, comment, req, hop, hreq, hcarried, hdecided⟩ := carriesOut_checked h
  have hmay := decideChecks_ok hreq
  exact ⟨actor, comment, req, hop, hmay, fun i p => decideChecks_requester hreq,
    run_requested h0 hmay.stored hmay.pending, hcarried, hdecided⟩

/-- a decision is written into a row that waited, and into no other -/
theorem decisionMade_pending {c : Call} (h : DecisionMade d c id) :
    ∃ r r', d.approvals.get id = some r ∧ r.status = .pending ∧ (step d c).approvals.get id = some r' ∧
      r'.status ≠ .pending := by
  obtain ⟨r, r', hr, hr', hne⟩ := h
  obtain ⟨r'', hr'', rfl | ⟨hp, hnp⟩⟩ := step_waits (c := c) hr
  · obtain rfl : r' = r'' := Option.some.inj (hr'.symm.trans hr'')
    simp at hne
  · exact ⟨r, r'', hr, hp, hr'', hnp⟩

/-- in a run at most one call writes a decision into the row -/
theorem decisionMade_once {before mid : List Call} {c c' : Call} (h : DecisionMade (run step d before) c id) :
    ¬ DecisionMade (run step d (before ++ c :: mid)) c' id := by
  obtain ⟨_, r', -, -, hr', hne⟩ := decisionMade_pending h
  intro h'
  obtain ⟨r, -, hr, hp, -, -⟩ := decisionMade_pending h'
  rw [run_append, run_cons] at hr
  have hsettled := run_settled mid hr' hne
  exact hne (Option.some.inj (hsettled.symm.trans hr) ▸ hp)

/-- **Whatever is carried out was approved under dual control**, by the one decision the run makes on it, and a rejected
approval is never carried out. -/
theorem carried_out_under_dual_control (h0 : d0.approvals.get id = none) (calls : List Call) :
    (∀ before c after, calls = before ++ c :: after → CarriesOut (run step d0 before) c id →
      (∃ actor comment req, c.op = .decide actor id true comment ∧ DualControl d0 before c id actor comment req) ∧
      ∀ before' c' after', calls = before' ++ c' :: after' →
        (DecisionMade (run step d0 before') c' id ↔ before' = before)) ∧
    ∀ before mid c after r, calls = before ++ mid ++ c :: after → (run step d0 before).approvals.get id = some r →
      r.status = .rejected → ¬ CarriesOut (run step d0 (before ++ mid)) c id := by
  constructor
  · rintro before c after rfl h
    obtain ⟨actor, comment, req, hop, hdual⟩ := dualControl h0 h
    refine ⟨⟨actor, comment, req, hop, hdual⟩, fun before' c' after' he => ?_⟩
    obtain ⟨r, hr, hs, hb⟩ := hdual.decided
    have hne : r.status ≠ req.status := by rw [hs, hdual.checked.pending]; decide
    have hmade : DecisionMade (run step d0 before) c id := ⟨req, r, hdual.checked.stored, hr, Or.inl hne⟩
    rcases split_cases he with rfl | ⟨mid, rfl⟩ | ⟨mid, rfl⟩
    · obtain rfl : c = c' := (List.cons.inj (List.append_cancel_left he)).1
      exact iff_of_true hmade rfl
    · exact iff_of_false (decisionMade_once hmade) (by simp)
    · refine iff_of_false (fun h' => decisionMade_once h' hmade) (by simp)
  · rintro before mid c after r rfl hr hrej h
    obtain ⟨actor, comment, req, hop, hreq, -, -⟩ := carriesOut_checked h
    have hne : r.status ≠ .pending := by rw [hrej]; decide
    have hlater := run_settled mid hr hne
    rw [← run_append] at hlater
    exact hne ((decideChecks_ok hreq).waiting r hlater)

/-! ### A policy change -/

/-- an administrator asks for a policy folder, and an approver grants it -/
def folderAsked : Call := ⟨demoEnv, .policyChange ⟨"olga", .admin, none⟩ (.createFolder (.str "Retail") none (.obj []))⟩

def folderGranted : Call := ⟨demoEnv, .decide ⟨"ann", .approver, none⟩ 1 true none⟩

theorem folder_granted_under_dual_control :
    ∃ actor comment req, folderGranted.op = .decide actor 1 true comment ∧
      DualControl Db.empty [folderAsked] folderGranted 1 actor comment req :=
  ((@carried_out_under_dual_control Db.empty 1 rfl [folderAsked, folderGranted]).1 [folderAsked]
    folderGranted [] rfl ⟨⟨"ann", .approver, none⟩, none, rfl, by decide⟩).1

end Runs

end Platform

end Certadillo
