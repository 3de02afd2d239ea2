/-
Gateway workers on one queue, under READ COMMITTED.

Every call is a transaction of its own: it reads the jobs (`begin`), and its UPDATEs and its INSERT are seen when it commits
(`commit`), whatever was committed in between. Requests, renewals and approvals reach the queue through `enqueue_issue`,
revocations through `enqueue_revoke`. Nothing ties a job to the worker that claimed it: any gateway or admin may report it, as
an operator does for a job that is stuck.

- `protocol_kept`: in every run whose commits are in time, each job is handed out once and reported once, by a gateway or an
  admin, a reported job stays as reported, and an app's CSR is open in at most one job.
- `reported_by_another`: the worker that reports a job need not be the one that claimed it.
- `handed_twice`: two workers whose transactions overlap get the same job.
-/
import Certadillo.Lib.Threads
import Certadillo.Services.Gateway

namespace Certadillo

open Integrity Policy Py Machine Platform

def AdcsJob.Open (j : AdcsJob) : Prop := j.status = .pending ∨ j.status = .claimed

def AdcsJob.Over (j : AdcsJob) : Prop := j.status = .done ∨ j.status = .failed

instance (j : AdcsJob) : Decidable j.Over := inferInstanceAs (Decidable (_ ∨ _))

/-- an open request of the app for this CSR -/
def AdcsJob.OpenRequest (j : AdcsJob) (appId : ℕ) (csrHash : String) : Prop :=
  j.jobType = .issue ∧ j.appId = some appId ∧ j.csrHash = some csrHash ∧ j.Open

namespace Gateway

/-! ## Transactions -/

inductive Op where
  | enqueueIssue (appId : ℕ) (profile csrPem : String) (ca tmpl : Option String) (requestedBy : String)
  | enqueueRevoke (certId : ℕ) (cert : Certificate) (reason : String) (ca : Option String) (requestedBy : String)
  | requestInventory (actor : Actor) (ca : String)
  | claim (actor : Actor) (limit : ℕ)
  | complete (actor : Actor) (jobId : ℕ) (r : Report)

/-- the database a transaction leaves, alone on `d` -/
def leaves (env : Env) (d : Db) : Op → Db
  | .enqueueIssue appId profile csrPem ca tmpl requestedBy =>
    (Tx.transact (Platform.enqueueIssue env appId profile csrPem ca tmpl requestedBy) d).2
  | .enqueueRevoke certId cert reason ca requestedBy => (Tx.transact (enqueueRevoke certId cert reason ca requestedBy) d).2
  | .requestInventory actor ca => (Tx.transact (Gateway.requestInventory env actor ca) d).2
  | .claim actor limit => (Tx.transact (gatewayClaim env actor limit) d).2
  | .complete actor jobId r => completed env d actor jobId r

/-- the UPDATE of a job, on the row as it is stored by then -/
def assignedJob (loaded new stored : AdcsJob) : AdcsJob where
  jobType := written loaded.jobType new.jobType stored.jobType
  status := written loaded.status new.status stored.status
  appId := written loaded.appId new.appId stored.appId
  profile := written loaded.profile new.profile stored.profile
  adcsCa := written loaded.adcsCa new.adcsCa stored.adcsCa
  adcsTemplate := written loaded.adcsTemplate new.adcsTemplate stored.adcsTemplate
  csrPem := written loaded.csrPem new.csrPem stored.csrPem
  csrHash := written loaded.csrHash new.csrHash stored.csrHash
  serialHex := written loaded.serialHex new.serialHex stored.serialHex
  reason := written loaded.reason new.reason stored.reason
  resultCertPem := written loaded.resultCertPem new.resultCertPem stored.resultCertPem
  resultChainPem := written loaded.resultChainPem new.resultChainPem stored.resultChainPem
  error := written loaded.error new.error stored.error
  certificateId := written loaded.certificateId new.certificateId stored.certificateId
  requestedBy := written loaded.requestedBy new.requestedBy stored.requestedBy
  claimedBy := written loaded.claimedBy new.claimedBy stored.claimedBy
  claimedAt := written loaded.claimedAt new.claimedAt stored.claimedAt
  completedAt := written loaded.completedAt new.completedAt stored.completedAt

/-- a transaction under way, with the database as it read it -/
structure Underway where
  env : Env
  op : Op
  view : Db

inductive Act where
  /-- the jobs are read as committed; the other tables are as they happen to be -/
  | begin (env : Env) (op : Op) (rest : Db)
  | commit
  | rollback

/-- the rows as read, under the sequence as it is by now -/
def Underway.found (u : Underway) (stored : Table AdcsJob) : Db := { u.view with jobs := u.view.jobs.advance stored.next }

/-- the jobs table after the commit -/
def Underway.committed (u : Underway) (stored : Table AdcsJob) : Table AdcsJob :=
  Table.merge assignedJob u.view.jobs (leaves u.env (u.found stored) u.op).jobs stored

def act (_ : ℕ) (stored : Table AdcsJob) (l : Option Underway) : Act → Table AdcsJob × Option Underway
  | .begin env op rest => (stored, some ⟨env, op, { rest with jobs := stored }⟩)
  | .commit =>
    match l with
    | none => (stored, none)
    | some u => (u.committed stored, none)
  | .rollback => (stored, none)

abbrev St := Threads.St (Table AdcsJob) (Option Underway)

abbrev step : St → ℕ × Act → St := Threads.step act

/-- no transaction is under way -/
def quiet (jobs : Table AdcsJob) : St := ⟨jobs, fun _ => none⟩

/-! ## What is asked of a run -/

/-- the commit answers `who` with job `j` -/
def Hands (j : ℕ) (who : Actor) (s : St) (o : ℕ × Act) : Prop :=
  o.2 = .commit ∧ ∃ u limit jobs, s.loc o.1 = some u ∧ u.op = .claim who limit ∧
    (Tx.transact (gatewayClaim u.env who limit) (u.found s.shared)).1 = .ok jobs ∧ j ∈ jobs.map Prod.fst

/-- the commit accepts what `who` reports of job `j` -/
def Completes (j : ℕ) (who : Actor) (s : St) (o : ℕ × Act) : Prop :=
  o.2 = .commit ∧ ∃ u r, s.loc o.1 = some u ∧ u.op = .complete who j r ∧
    (Tx.transact (gatewayComplete u.env who j r) (u.found s.shared)).1 = .ok ()

/-- the commit adds a job for this CSR: the transaction found none open -/
def Queues (appId : ℕ) (csrHash : String) (s : St) (o : ℕ × Act) : Prop :=
  o.2 = .commit ∧ ∃ u profile csrPem ca tmpl requestedBy, s.loc o.1 = some u ∧
    u.op = .enqueueIssue appId profile csrPem ca tmpl requestedBy ∧
    csrHash = u.env.sha256 (String.ofList (strip csrPem.toList)) ∧
    ∀ i j, u.view.jobs.get i = some j → ¬ j.OpenRequest appId csrHash

/-- an app's CSR is open in at most one job -/
def NoTwins (jobs : Table AdcsJob) : Prop :=
  ∀ appId csrHash i j a b, jobs.get i = some a → jobs.get j = some b → a.OpenRequest appId csrHash →
    b.OpenRequest appId csrHash → i = j

/-- the protocol, with `by'` for who may report a job -/
structure Protocol (by' : Actor → AdcsJob → Prop) (s : St) (ops : List (ℕ × Act)) : Prop where
  handedOnce : ∀ j, AtMostOnce step (fun s o => ∃ who, Hands j who s o) s ops
  completedOnce : ∀ j, AtMostOnce step (fun s o => ∃ who, Completes j who s o) s ops
  completedBy : Along step (fun s o => ∀ j who, Completes j who s o → ∃ job, s.shared.get j = some job ∧ by' who job) s ops
  terminal : ∀ j before mid after, ops = before ++ mid ++ after → ∀ job, (run step s before).shared.get j = some job →
    job.Over → ∃ job', (run step s (before ++ mid)).shared.get j = some job' ∧ job'.status = job.status
  noTwins : ∀ before after, ops = before ++ after → NoTwins (run step s before).shared

/-- only the worker that claimed it -/
def Claimer (who : Actor) (job : AdcsJob) : Prop := job.claimedBy = some who.name

/-- any gateway or admin -/
def Authorized (who : Actor) (_ : AdcsJob) : Prop := who.role = .admin ∨ who.role = .gateway

/-- a commit finds the jobs it takes still pending, the job it reports not over, and no open job for the CSR it queues -/
structure InTime (s : St) (o : ℕ × Act) : Prop where
  hands : ∀ j who, Hands j who s o → ∀ job, s.shared.get j = some job → job.status = .pending
  completes : ∀ j who, Completes j who s o → ∀ job, s.shared.get j = some job → ¬ job.Over
  queues : ∀ appId csrHash, Queues appId csrHash s o → ∀ i job, s.shared.get i = some job → ¬ job.OpenRequest appId csrHash

/-! ## One transaction -/

/-- what a job is for stays -/
structure SameRequest (a b : AdcsJob) : Prop where
  jobType : b.jobType = a.jobType
  appId : b.appId = a.appId
  csrHash : b.csrHash = a.csrHash

theorem SameRequest.refl (a : AdcsJob) : SameRequest a a := ⟨rfl, rfl, rfl⟩

section One

variable {env : Env} {d : Db}

theorem claimAll_rows (worker : String) (jobs : List (ℕ × AdcsJob)) (s : Session Db) :
    ∃ s', claimAll env worker jobs s = (.ok (), s') ∧ s'.work.jobs.next = s.work.jobs.next ∧
      ∀ i, s'.work.jobs.get i =
        if i ∈ jobs.map Prod.fst then (s.work.jobs.get i).map (markClaimed env worker) else s.work.jobs.get i := by
  induction jobs generalizing s with
  | nil => exact ⟨s, rfl, rfl, fun i => by simp⟩
  | cons p rest ih =>
    obtain ⟨s', hrun, hnext, hrows⟩ := ih ⟨s.committed, Col.jobs.put s.work (s.work.jobs.update p.1 (markClaimed env worker))⟩
    refine ⟨s', hrun, hnext, fun i => ?_⟩
    have hrow : (Col.jobs.put s.work (s.work.jobs.update p.1 (markClaimed env worker))).jobs.get i =
        if i = p.1 then (s.work.jobs.get i).map (markClaimed env worker) else s.work.jobs.get i := Table.get_update _ _ _ _
    rw [hrows i, hrow]
    by_cases hi : i = p.1
    · -- marking a job twice is marking it once
      have htwice : ∀ j, markClaimed env worker (markClaimed env worker j) = markClaimed env worker j := fun j => rfl
      simp [hi, Function.comp_def, htwice]
    · simp only [List.map_cons, List.mem_cons, hi, false_or, if_false]

/-- the jobs a worker is handed are pending as it read them, and marked claimed -/
structure Claims (d d' : Db) (env : Env) (who : Actor) (jobs : List (ℕ × AdcsJob)) : Prop where
  next : d'.jobs.next = d.jobs.next
  rows : ∀ i, d'.jobs.get i =
    if i ∈ jobs.map Prod.fst then (d.jobs.get i).map (markClaimed env who.name) else d.jobs.get i
  pending : ∀ i ∈ jobs.map Prod.fst, ∃ a, d.jobs.get i = some a ∧ a.status = .pending

theorem claim_spec (who : Actor) (limit : ℕ) :
    (∃ e, Tx.transact (gatewayClaim env who limit) d = (.error e, d)) ∨
      ∃ jobs d', Tx.transact (gatewayClaim env who limit) d = (.ok jobs, d') ∧ Claims d d' env who jobs := by
  unfold gatewayClaim
  cases who.require [.admin, .gateway] with
  | error e => exact Or.inl ⟨e, rfl⟩
  | ok u =>
    right
    let taken := (d.jobs.all fun j => j.status = .pending).take limit
    let jobs := taken.map fun p => (p.1, markClaimed env who.name p.2)
    obtain ⟨s', hrun, hnext, hrows⟩ := @claimAll_rows env who.name taken ⟨d, d⟩
    have hclaim : claim env who.name limit ⟨d, d⟩ = (.ok jobs, s') := by
      unfold claim
      rw [Tx.get_bind]
      exact Tx.bind_ok hrun
    have hkeys : jobs.map Prod.fst = taken.map Prod.fst := List.map_map
    obtain ⟨event, hcount⟩ : ∃ event : AuditEvent,
        record env who.name "adcs.gateway.claim" "gateway" [("count", .num jobs.length)] s' =
          (.ok (), { s' with work := { s'.work with audit := s'.work.audit ++ [event] } }) := ⟨_, rfl⟩
    refine ⟨jobs, { s'.work with audit := s'.work.audit ++ [event] }, ?_, hnext, ?_, ?_⟩
    · unfold Tx.transact
      rw [lift_ok_bind, Tx.bind_ok hclaim, Tx.bind_ok hcount]
      rfl
    · rw [hkeys]
      exact hrows
    · rw [hkeys]
      intro i hi
      obtain ⟨p, hp, rfl⟩ := List.mem_map.1 hi
      obtain ⟨hget, hpending⟩ := Table.mem_all.1 (List.mem_of_mem_take hp)
      exact ⟨p.2, hget, by simpa using hpending⟩

/-! ### Reports -/

/-- writes to the queue on the way to a report: columns of job `j` that are not what it is for -/
def Notes (j : ℕ) (a b : Db) : Prop :=
  b.jobs = a.jobs ∨ ∃ f : AdcsJob → AdcsJob, (∀ x, SameRequest x (f x)) ∧ b.jobs = a.jobs.update j f

theorem notes_same {j : ℕ} {a b : Db} (h : Inventories env 0 a b) : Notes j a b := Or.inl h.2

theorem notes_setJob {j : ℕ} {f : AdcsJob → AdcsJob} (h : ∀ x, SameRequest x (f x)) :
    Tx.Calm (Notes j) (setPlain Col.jobs j f) := Tx.calm_modify fun _ => Or.inr ⟨f, h, rfl⟩

theorem notes_carryOut (actor : Actor) (j : ℕ) (job : AdcsJob) (r : Report) :
    Tx.Calm (Notes j) (carryOut env actor j job r) := by
  unfold carryOut
  split
  · refine Tx.calm_ofExcept_bind fun p _ => Tx.calm_bind (fun s => ?_) fun id => Tx.calm_bind (fun s => ?_) fun _ => ?_
    · exact (inventories_ingest (by decide) _ _ _ _ s).mono fun _ _ => notes_same
    · have hset : ∀ i f, Tx.CalmAt (Inventories env 0) s (setRow env Col.certificates i f) := fun i f =>
        inventories_setCertificate fun h => absurd h (Nat.not_lt_zero _)
      exact (hset _ _).mono fun _ _ => notes_same
    · exact notes_setJob fun x => ⟨rfl, rfl, rfl⟩
  · exact Tx.calm_pure _
  · exact Tx.calm_get_bind fun d s => (inventories_ingestAll _ _ _ _ s).mono fun _ _ => notes_same

/-- an accepted report: the job was open as it was read, and is over from then on; the other jobs are as they were -/
structure Reports (d d' : Db) (who : Actor) (j : ℕ) : Prop where
  role : who.role = .admin ∨ who.role = .gateway
  next : d'.jobs.next = d.jobs.next
  others : ∀ i, i ≠ j → d'.jobs.get i = d.jobs.get i
  row : ∃ a b, d.jobs.get j = some a ∧ d'.jobs.get j = some b ∧ ¬ a.Over ∧ b.Over ∧ SameRequest a b

/-- the job after the notes, and then after it is done or failed -/
theorem reports_of_update {who : Actor} {j : ℕ} {a : AdcsJob} {d₁ d' : Db} (hrole : who.role = .admin ∨ who.role = .gateway)
    (hget : d.jobs.get j = some a) (hopen : ¬ a.Over) (hnotes : Relation.ReflTransGen (Notes j) d d₁)
    {f : AdcsJob → AdcsJob} (hf : ∀ x, (f x).Over ∧ SameRequest x (f x)) (hd' : d'.jobs = d₁.jobs.update j f) :
    Reports d d' who j := by
  have hnoted : d₁.jobs.next = d.jobs.next ∧ (∀ i, i ≠ j → d₁.jobs.get i = d.jobs.get i) ∧
      ∃ b, d₁.jobs.get j = some b ∧ SameRequest a b := by
    refine Tx.reaches_inv (I := fun e => e.jobs.next = d.jobs.next ∧ (∀ i, i ≠ j → e.jobs.get i = d.jobs.get i) ∧
      ∃ b, e.jobs.get j = some b ∧ SameRequest a b) ?_ hnotes ⟨rfl, fun _ _ => rfl, a, hget, .refl a⟩
    rintro x y hxy ⟨hnext, hothers, b, hb, hsame⟩
    rcases hxy with heq | ⟨g, hg, heq⟩
    · rw [heq]
      exact ⟨hnext, hothers, b, hb, hsame⟩
    · rw [heq]
      refine ⟨hnext, fun i hi => (Table.get_update_of_ne _ _ hi).trans (hothers i hi), g b, ?_, ?_⟩
      · rw [Table.get_update_self, hb]
        rfl
      · obtain ⟨htype, happ, hcsr⟩ := hg b
        exact ⟨htype.trans hsame.jobType, happ.trans hsame.appId, hcsr.trans hsame.csrHash⟩
  obtain ⟨hnext, hothers, b, hb, hsame⟩ := hnoted
  refine ⟨hrole, ?_, fun i hi => ?_, a, f b, hget, ?_, hopen, (hf b).1, ?_⟩
  · rw [hd']
    exact hnext
  · rw [hd']
    exact (Table.get_update_of_ne _ _ hi).trans (hothers i hi)
  · rw [hd', Table.get_update_self, hb]
    rfl
  · obtain ⟨htype, happ, hcsr⟩ := (hf b).2
    exact ⟨htype.trans hsame.jobType, happ.trans hsame.appId, hcsr.trans hsame.csrHash⟩

theorem complete_spec (who : Actor) (j : ℕ) (r : Report) :
    (∃ e, Tx.transact (gatewayComplete env who j r) d = (.error e, d)) ∨
      ∃ d', Tx.transact (gatewayComplete env who j r) d = (.ok (), d') ∧ Reports d d' who j := by
  cases hmay : mayComplete d who j with
  | error e =>
    left
    refine ⟨e, ?_⟩
    unfold Tx.transact gatewayComplete
    rw [Tx.get_bind, hmay]
    rfl
  | ok job =>
    obtain ⟨hrole, hget, hdone, hfailed⟩ := mayComplete_ok.1 hmay
    have hopen : ¬ job.Over := fun h => h.elim hdone hfailed
    have hrole : who.role = .admin ∨ who.role = .gateway := by
      unfold Actor.require at hrole
      dsimp only at hrole
      split at hrole
      · next h => simpa using h
      · cases hrole
    cases herror : r.error.filter (· ≠ "") with
    | some error =>
      right
      have hrun : ∃ d', Tx.transact (gatewayComplete env who j r) d = (.ok (), d') ∧ d'.jobs = d.jobs.update j fun j =>
          { j with
            status := .failed
            error := some (String.ofList (error.toList.take 2000))
            completedAt := some env.now } := by
        unfold Tx.transact gatewayComplete
        rw [Tx.get_bind, hmay, lift_ok_bind, herror]
        exact ⟨_, rfl, rfl⟩
      obtain ⟨d', hrun, hjobs⟩ := hrun
      refine ⟨d', hrun, reports_of_update hrole hget hopen .refl ?_ hjobs⟩
      exact fun x => ⟨Or.inr rfl, rfl, rfl, rfl⟩
    | none =>
      have hcalm := @notes_carryOut env who j job r ⟨d, d⟩
      rcases hcarry : carryOut env who j job r ⟨d, d⟩ with ⟨e | u, s'⟩
      · left
        refine ⟨e, ?_⟩
        unfold Tx.CalmAt at hcalm
        rw [hcarry] at hcalm
        unfold Tx.transact gatewayComplete
        rw [Tx.get_bind, hmay, lift_ok_bind, herror]
        dsimp only
        rw [Tx.bind_error hcarry]
        exact congrArg (Prod.mk _) hcalm.1
      · right
        unfold Tx.CalmAt at hcalm
        rw [hcarry] at hcalm
        have hrun : ∃ d', Tx.transact (gatewayComplete env who j r) d = (.ok (), d') ∧
            d'.jobs = s'.work.jobs.update j fun j => { j with status := .done, completedAt := some env.now } := by
          unfold Tx.transact gatewayComplete
          rw [Tx.get_bind, hmay, lift_ok_bind, herror]
          dsimp only
          rw [Tx.bind_ok hcarry]
          exact ⟨_, rfl, rfl⟩
        obtain ⟨d', hrun, hjobs⟩ := hrun
        refine ⟨d', hrun, reports_of_update hrole hget hopen hcalm.2 ?_ hjobs⟩
        exact fun x => ⟨Or.inl rfl, rfl, rfl, rfl⟩

/-! ### The queue -/

/-- a request finds an open job for its CSR, or adds one -/
theorem enqueueIssue_spec (appId : ℕ) (profile csrPem : String) (ca tmpl : Option String) (requestedBy : String) :
    leaves env d (.enqueueIssue appId profile csrPem ca tmpl requestedBy) = d ∨
      (∀ i j, d.jobs.get i = some j → ¬ j.OpenRequest appId (env.sha256 (String.ofList (strip csrPem.toList)))) ∧
        ∃ job : AdcsJob, job.status = .pending ∧ job.appId = some appId ∧
          job.csrHash = some (env.sha256 (String.ofList (strip csrPem.toList))) ∧
          (leaves env d (.enqueueIssue appId profile csrPem ca tmpl requestedBy)).jobs = d.jobs.insert job := by
  have hquery : ∀ j : AdcsJob, (j.jobType = .issue && j.appId = some appId &&
      j.csrHash = some (env.sha256 (String.ofList (strip csrPem.toList))) && (j.status = .pending || j.status = .claimed)) =
        true ↔ j.OpenRequest appId (env.sha256 (String.ofList (strip csrPem.toList))) := by
    intro j
    simp [AdcsJob.OpenRequest, AdcsJob.Open, and_assoc]
  unfold leaves Tx.transact Platform.enqueueIssue
  dsimp only
  rw [Tx.get_bind]
  cases hfirst : d.jobs.first fun j => j.jobType = .issue && j.appId = some appId &&
      j.csrHash = some (env.sha256 (String.ofList (strip csrPem.toList))) && (j.status = .pending || j.status = .claimed) with
  | some p => exact Or.inl rfl
  | none =>
    right
    refine ⟨fun i j hget hopen => ?_, _, rfl, rfl, rfl, rfl⟩
    have hno := Table.first_none.1 hfirst i j hget
    rw [(hquery j).2 hopen] at hno
    cases hno

/-- the other calls that queue a job -/
theorem enqueueOther_spec {op : Op} (h : (∃ certId cert reason ca requestedBy, op = .enqueueRevoke certId cert reason ca requestedBy) ∨
    ∃ actor ca, op = .requestInventory actor ca) :
    leaves env d op = d ∨ ∃ job : AdcsJob, job.status = .pending ∧ job.jobType ≠ .issue ∧
      (leaves env d op).jobs = d.jobs.insert job := by
  rcases h with ⟨certId, cert, reason, ca, requestedBy, rfl⟩ | ⟨actor, ca, rfl⟩
  · refine Or.inr ⟨_, rfl, ?_, rfl⟩
    exact nofun
  · unfold leaves
    dsimp only
    unfold Tx.transact Gateway.requestInventory
    cases actor.require [.admin, .operator] with
    | error e => exact Or.inl rfl
    | ok u =>
      refine Or.inr ⟨_, rfl, ?_, rfl⟩
      exact nofun

end One

/-! ## One commit -/

/-- the rows a transaction under way read are still there, and its sequence is not ahead -/
def Reads (s : St) : Prop :=
  ∀ t u, s.loc t = some u → u.view.jobs.next ≤ s.shared.next ∧
    ∀ i a, u.view.jobs.get i = some a → ∃ c, s.shared.get i = some c

section Commit

variable {s : St} {t : ℕ} {u : Underway} {i : ℕ} {c : AdcsJob}

theorem commit_shared (hu : s.loc t = some u) : (step s (t, .commit)).shared = u.committed s.shared := by
  simp [act, hu]

/-- a row the transaction leaves as it read it -/
theorem committed_same (hget : s.shared.get i = some c)
    (h : (leaves u.env (u.found s.shared) u.op).jobs.get i = u.view.jobs.get i ∨ u.view.jobs.get i = none) :
    (u.committed s.shared).get i = some c := by
  unfold Underway.committed
  rw [Table.get_merge hget]
  rcases h with h | h
  · rw [h]
    cases u.view.jobs.get i with
    | none => rfl
    | some a =>
      have hsame : assignedJob a a c = c := by simp [assignedJob, written]
      exact congrArg some hsame
  · rw [h]

/-- a row the transaction writes: the status is its own, and what the job is for stays -/
theorem committed_written {a b : AdcsJob} (hget : s.shared.get i = some c) (ha : u.view.jobs.get i = some a)
    (hb : (leaves u.env (u.found s.shared) u.op).jobs.get i = some b) (hst : b.status ≠ a.status) (hsame : SameRequest a b) :
    ∃ c', (u.committed s.shared).get i = some c' ∧ c'.status = b.status ∧ SameRequest c c' := by
  refine ⟨assignedJob a b c, ?_, ?_, ?_, ?_, ?_⟩
  · unfold Underway.committed
    rw [Table.get_merge hget, ha, hb]
  · exact if_neg hst
  · exact if_pos hsame.jobType
  · exact if_pos hsame.appId
  · exact if_pos hsame.csrHash

/-- a stored job after a commit: as it was, or the commit hands it out, or the commit reports it -/
theorem commit_row (hu : s.loc t = some u) (hget : s.shared.get i = some c) :
    ∃ c', (u.committed s.shared).get i = some c' ∧ SameRequest c c' ∧
      (c' = c ∨ ((∃ who, Hands i who s (t, .commit)) ∧ c'.status = .claimed) ∨
        ((∃ who, Completes i who s (t, .commit)) ∧ c'.Over)) := by
  have hsame : ((leaves u.env (u.found s.shared) u.op).jobs.get i = u.view.jobs.get i ∨ u.view.jobs.get i = none) →
      ∃ c', (u.committed s.shared).get i = some c' ∧ SameRequest c c' ∧
        (c' = c ∨ ((∃ who, Hands i who s (t, .commit)) ∧ c'.status = .claimed) ∨
          ((∃ who, Completes i who s (t, .commit)) ∧ c'.Over)) := fun h =>
    ⟨c, committed_same hget h, .refl c, Or.inl rfl⟩
  have hinsert : ∀ job, (leaves u.env (u.found s.shared) u.op).jobs = (u.found s.shared).jobs.insert job →
      (leaves u.env (u.found s.shared) u.op).jobs.get i = u.view.jobs.get i ∨ u.view.jobs.get i = none := by
    intro job h
    cases hview : u.view.jobs.get i with
    | none => exact Or.inr rfl
    | some a =>
      left
      rw [h]
      exact Table.get_insert_of_some hview
  cases hop : u.op with
  | enqueueIssue appId profile csrPem ca tmpl requestedBy =>
    rcases @enqueueIssue_spec u.env (u.found s.shared) appId profile csrPem ca tmpl requestedBy with h | ⟨-, job, -, -, -, h⟩
    · exact hsame (Or.inl (by rw [hop, h]; rfl))
    · exact hsame (hinsert job (by rw [hop, h]))
  | enqueueRevoke certId cert reason ca requestedBy =>
    rcases @enqueueOther_spec u.env (u.found s.shared) _ (Or.inl ⟨certId, cert, reason, ca, requestedBy, rfl⟩) with
      h | ⟨job, -, -, h⟩
    · exact hsame (Or.inl (by rw [hop, h]; rfl))
    · exact hsame (hinsert job (by rw [hop, h]))
  | requestInventory actor ca =>
    rcases @enqueueOther_spec u.env (u.found s.shared) _ (Or.inr ⟨actor, ca, rfl⟩) with h | ⟨job, -, -, h⟩
    · exact hsame (Or.inl (by rw [hop, h]; rfl))
    · exact hsame (hinsert job (by rw [hop, h]))
  | claim who limit =>
    rcases @claim_spec u.env (u.found s.shared) who limit with ⟨e, h⟩ | ⟨jobs, d', h, hclaims⟩
    · exact hsame (Or.inl (by rw [hop, leaves, h]; rfl))
    · have hrow : (leaves u.env (u.found s.shared) u.op).jobs.get i = d'.jobs.get i := by rw [hop, leaves, h]
      rw [hclaims.rows i] at hrow
      by_cases hi : i ∈ jobs.map Prod.fst
      · obtain ⟨a, ha, hpending⟩ := hclaims.pending i hi
        rw [if_pos hi, ha] at hrow
        obtain ⟨c', hc', hstatus, hkept⟩ := committed_written (b := markClaimed u.env who.name a) hget ha hrow
          (by rw [hpending]; exact nofun) ⟨rfl, rfl, rfl⟩
        exact ⟨c', hc', hkept, Or.inr (Or.inl ⟨⟨who, rfl, u, limit, jobs, hu, hop, by rw [h], hi⟩, hstatus⟩)⟩
      · rw [if_neg hi] at hrow
        exact hsame (Or.inl hrow)
  | complete who j r =>
    rcases @complete_spec u.env (u.found s.shared) who j r with ⟨e, h⟩ | ⟨d', h, hreports⟩
    · exact hsame (Or.inl (by rw [hop, leaves, completed, h]; rfl))
    · have hrow : (leaves u.env (u.found s.shared) u.op).jobs.get i = d'.jobs.get i := by rw [hop, leaves, completed, h]
      by_cases hi : i = j
      · subst hi
        obtain ⟨a, b, ha, hb, hopen, hover, hkept⟩ := hreports.row
        obtain ⟨c', hc', hstatus, hkept⟩ := committed_written hget ha (hrow.trans hb)
          (fun heq => hopen (by unfold AdcsJob.Over at hover ⊢; rwa [heq] at hover)) hkept
        refine ⟨c', hc', hkept, Or.inr (Or.inr ⟨⟨who, rfl, u, r, hu, hop, by rw [h]⟩, ?_⟩)⟩
        unfold AdcsJob.Over at hover ⊢
        rwa [hstatus]
      · rw [hreports.others i hi] at hrow
        exact hsame (Or.inl hrow)

/-- a job a commit hands out was read by its transaction, and is claimed from then on -/
theorem hands_row {who : Actor} (h : Hands i who s (t, .commit)) (hs : Reads s) :
    ∃ c', (step s (t, .commit)).shared.get i = some c' ∧ c'.status = .claimed ∧ ∃ c, s.shared.get i = some c := by
  obtain ⟨-, u, limit, jobs, hu, hop, hret, hi⟩ := h
  rcases @claim_spec u.env (u.found s.shared) who limit with ⟨e, hrun⟩ | ⟨jobs', d', hrun, hclaims⟩
  · rw [hrun] at hret
    cases hret
  · rw [hrun] at hret
    obtain rfl := Except.ok.inj hret
    obtain ⟨a, ha, hpending⟩ := hclaims.pending i hi
    obtain ⟨c, hget⟩ := (hs t u hu).2 i a ha
    have hrow : (leaves u.env (u.found s.shared) u.op).jobs.get i = some (markClaimed u.env who.name a) := by
      rw [hop, leaves, hrun]
      have hrows := hclaims.rows i
      rwa [if_pos hi, ha] at hrows
    obtain ⟨c', hc', hstatus, -⟩ := committed_written hget ha hrow (by rw [hpending]; exact nofun) ⟨rfl, rfl, rfl⟩
    exact ⟨c', by rw [commit_shared hu]; exact hc', hstatus, c, hget⟩

/-- a job a commit reports was read by its transaction, and is over from then on; who reports it is a gateway or an admin -/
theorem completes_row {who : Actor} (h : Completes i who s (t, .commit)) (hs : Reads s) :
    (who.role = .admin ∨ who.role = .gateway) ∧
      ∃ c', (step s (t, .commit)).shared.get i = some c' ∧ c'.Over ∧ ∃ c, s.shared.get i = some c := by
  obtain ⟨-, u, r, hu, hop, hret⟩ := h
  rcases @complete_spec u.env (u.found s.shared) who i r with ⟨e, hrun⟩ | ⟨d', hrun, hreports⟩
  · rw [hrun] at hret
    cases hret
  · obtain ⟨a, b, ha, hb, hopen, hover, hkept⟩ := hreports.row
    obtain ⟨c, hget⟩ := (hs t u hu).2 i a ha
    have hrow : (leaves u.env (u.found s.shared) u.op).jobs.get i = some b := by
      rw [hop, leaves, completed, hrun]
      exact hb
    obtain ⟨c', hc', hstatus, -⟩ := committed_written hget ha hrow
      (fun heq => hopen (by unfold AdcsJob.Over at hover ⊢; rwa [heq] at hover)) hkept
    refine ⟨hreports.role, c', by rw [commit_shared hu]; exact hc', ?_, c, hget⟩
    unfold AdcsJob.Over at hover ⊢
    rwa [hstatus]

/-- what a transaction adds to the queue: at most one job, pending, and a request only where it found none open -/
theorem leaves_next (hu : s.loc t = some u) (hs : Reads s) :
    (leaves u.env (u.found s.shared) u.op).jobs.next = s.shared.next ∧
        (∀ i, s.shared.next ≤ i → (leaves u.env (u.found s.shared) u.op).jobs.get i = none) ∨
      (leaves u.env (u.found s.shared) u.op).jobs.next = s.shared.next + 1 ∧
        ∃ job : AdcsJob, job.status = .pending ∧
          (∀ i, s.shared.next ≤ i → (leaves u.env (u.found s.shared) u.op).jobs.get i =
            if i = s.shared.next then some job else none) ∧
          (job.jobType = .issue → ∃ appId csrHash, Queues appId csrHash s (t, .commit) ∧ job.appId = some appId ∧
            job.csrHash = some csrHash) := by
  have hbelow := (hs t u hu).1
  have hnext : (u.found s.shared).jobs.next = s.shared.next := max_eq_right hbelow
  have hnone : ∀ i, s.shared.next ≤ i → (u.found s.shared).jobs.get i = none := by
    intro i hi
    cases hget : (u.found s.shared).jobs.get i with
    | none => rfl
    | some a => exact absurd (Table.get_lt hget) (not_lt.2 (by rw [hnext]; exact hi))
  have hsame : ∀ d : Db, leaves u.env (u.found s.shared) u.op = d → d.jobs.next = (u.found s.shared).jobs.next →
      (∀ i, d.jobs.get i = (u.found s.shared).jobs.get i ∨ ∃ a, (u.found s.shared).jobs.get i = some a) →
      (leaves u.env (u.found s.shared) u.op).jobs.next = s.shared.next ∧
        ∀ i, s.shared.next ≤ i → (leaves u.env (u.found s.shared) u.op).jobs.get i = none := by
    rintro d rfl hd hrows
    refine ⟨hd.trans hnext, fun i hi => ?_⟩
    rcases hrows i with heq | ⟨a, ha⟩
    · exact heq.trans (hnone i hi)
    · exact absurd ha (by rw [hnone i hi]; exact nofun)
  have hinsert : ∀ job : AdcsJob, (leaves u.env (u.found s.shared) u.op).jobs = (u.found s.shared).jobs.insert job →
      (leaves u.env (u.found s.shared) u.op).jobs.next = s.shared.next + 1 ∧
        ∀ i, s.shared.next ≤ i → (leaves u.env (u.found s.shared) u.op).jobs.get i =
          if i = s.shared.next then some job else none := by
    intro job h
    rw [h]
    refine ⟨congrArg (· + 1) hnext, fun i hi => ?_⟩
    rw [Table.get_insert, hnext, hnone i hi]
  cases hop : u.op with
  | enqueueIssue appId profile csrPem ca tmpl requestedBy =>
    rcases @enqueueIssue_spec u.env (u.found s.shared) appId profile csrPem ca tmpl requestedBy with
      h | ⟨hfree, job, hpending, happ, hcsr, h⟩
    · rw [← hop] at h ⊢
      exact Or.inl (hsame _ h rfl fun i => Or.inl rfl)
    · rw [← hop] at h ⊢
      obtain ⟨hn, hrows⟩ := hinsert job h
      exact Or.inr ⟨hn, job, hpending, hrows, fun _ => ⟨appId, _,
        ⟨rfl, u, profile, csrPem, ca, tmpl, requestedBy, hu, hop, rfl, hfree⟩, happ, hcsr⟩⟩
  | enqueueRevoke certId cert reason ca requestedBy =>
    rcases @enqueueOther_spec u.env (u.found s.shared) _ (Or.inl ⟨certId, cert, reason, ca, requestedBy, rfl⟩) with
      h | ⟨job, hpending, htype, h⟩
    · rw [← hop] at h ⊢
      exact Or.inl (hsame _ h rfl fun i => Or.inl rfl)
    · rw [← hop] at h ⊢
      obtain ⟨hn, hrows⟩ := hinsert job h
      exact Or.inr ⟨hn, job, hpending, hrows, fun hissue => absurd hissue htype⟩
  | requestInventory actor ca =>
    rcases @enqueueOther_spec u.env (u.found s.shared) _ (Or.inr ⟨actor, ca, rfl⟩) with h | ⟨job, hpending, htype, h⟩
    · rw [← hop] at h ⊢
      exact Or.inl (hsame _ h rfl fun i => Or.inl rfl)
    · rw [← hop] at h ⊢
      obtain ⟨hn, hrows⟩ := hinsert job h
      exact Or.inr ⟨hn, job, hpending, hrows, fun hissue => absurd hissue htype⟩
  | claim who limit =>
    rw [← hop]
    rcases @claim_spec u.env (u.found s.shared) who limit with ⟨e, h⟩ | ⟨jobs, d', h, hclaims⟩
    · exact Or.inl (hsame (u.found s.shared) (by rw [hop, leaves, h]) rfl fun i => Or.inl rfl)
    · refine Or.inl (hsame d' (by rw [hop, leaves, h]) hclaims.next fun i => ?_)
      rw [hclaims.rows i]
      split
      · next hi =>
        obtain ⟨a, ha, -⟩ := hclaims.pending i hi
        exact Or.inr ⟨a, ha⟩
      · exact Or.inl rfl
  | complete who j r =>
    rw [← hop]
    rcases @complete_spec u.env (u.found s.shared) who j r with ⟨e, h⟩ | ⟨d', h, hreports⟩
    · exact Or.inl (hsame (u.found s.shared) (by rw [hop, leaves, completed, h]) rfl fun i => Or.inl rfl)
    · refine Or.inl (hsame d' (by rw [hop, leaves, completed, h]) hreports.next fun i => ?_)
      by_cases hi : i = j
      · obtain ⟨a, b, ha, -⟩ := hreports.row
        exact Or.inr ⟨a, hi ▸ ha⟩
      · exact Or.inl (hreports.others i hi)

/-- a job that was not there before a commit -/
theorem committed_new {c' : AdcsJob} (hu : s.loc t = some u) (hs : Reads s) (hnone : s.shared.get i = none)
    (hget : (u.committed s.shared).get i = some c') :
    i = s.shared.next ∧ c'.status = .pending ∧ (c'.jobType = .issue → ∃ appId csrHash,
      Queues appId csrHash s (t, .commit) ∧ c'.appId = some appId ∧ c'.csrHash = some csrHash) := by
  unfold Underway.committed at hget
  rw [Table.get_merge_new hnone] at hget
  split at hget
  · next hle =>
    rcases leaves_next hu hs with ⟨-, hrows⟩ | ⟨-, job, hpending, hrows, hissue⟩
    · rw [hrows i hle] at hget
      cases hget
    · rw [hrows i hle] at hget
      split at hget
      · next hi =>
        obtain rfl := Option.some.inj hget
        exact ⟨hi, hpending, hissue⟩
      · cases hget
  · cases hget

end Commit

/-! ## Runs -/

section Steps

variable {s : St} {o : ℕ × Act} {i : ℕ} {c : AdcsJob}

/-- a stored job after any action -/
theorem step_row (hget : s.shared.get i = some c) :
    ∃ c', (step s o).shared.get i = some c' ∧ SameRequest c c' ∧
      (c' = c ∨ ((∃ who, Hands i who s o) ∧ c'.status = .claimed) ∨ ((∃ who, Completes i who s o) ∧ c'.Over)) := by
  obtain ⟨t, a⟩ := o
  cases a with
  | begin env op rest => exact ⟨c, hget, .refl c, Or.inl rfl⟩
  | rollback => exact ⟨c, hget, .refl c, Or.inl rfl⟩
  | commit =>
    cases hu : s.loc t with
    | none =>
      have hsame : (step s (t, .commit)).shared = s.shared := by simp [act, hu]
      exact ⟨c, by rw [hsame]; exact hget, .refl c, Or.inl rfl⟩
    | some u =>
      rw [commit_shared hu]
      exact commit_row hu hget

/-- a job that was not there before an action -/
theorem step_new {c' : AdcsJob} (hs : Reads s) (hnone : s.shared.get i = none) (hget : (step s o).shared.get i = some c') :
    i = s.shared.next ∧ c'.status = .pending ∧ (c'.jobType = .issue → ∃ appId csrHash,
      Queues appId csrHash s o ∧ c'.appId = some appId ∧ c'.csrHash = some csrHash) := by
  obtain ⟨t, a⟩ := o
  cases a with
  | begin env op rest => exact absurd (hnone.symm.trans hget) nofun
  | rollback => exact absurd (hnone.symm.trans hget) nofun
  | commit =>
    cases hu : s.loc t with
    | none =>
      have hsame : (step s (t, .commit)).shared = s.shared := by simp [act, hu]
      rw [hsame] at hget
      exact absurd (hnone.symm.trans hget) nofun
    | some u =>
      rw [commit_shared hu] at hget
      exact committed_new hu hs hnone hget

theorem step_next (s : St) (o : ℕ × Act) : s.shared.next ≤ (step s o).shared.next := by
  obtain ⟨t, a⟩ := o
  cases a with
  | begin env op rest => exact le_rfl
  | rollback => exact le_rfl
  | commit =>
    cases hu : s.loc t with
    | none =>
      have hsame : (step s (t, .commit)).shared = s.shared := by simp [act, hu]
      rw [hsame]
    | some u =>
      rw [commit_shared hu]
      exact le_max_left _ _

theorem reads_step (s : St) (o : ℕ × Act) (hs : Reads s) : Reads (step s o) := by
  intro t u hu
  have hkept : ∀ v : Underway, v.view.jobs.next ≤ s.shared.next →
      (∀ i a, v.view.jobs.get i = some a → ∃ c, s.shared.get i = some c) →
      v.view.jobs.next ≤ (step s o).shared.next ∧
        ∀ i a, v.view.jobs.get i = some a → ∃ c, (step s o).shared.get i = some c := by
    intro v hnext hrows
    refine ⟨hnext.trans (step_next s o), fun i a ha => ?_⟩
    obtain ⟨c, hget⟩ := hrows i a ha
    obtain ⟨c', hc', -⟩ := @step_row s o i c hget
    exact ⟨c', hc'⟩
  by_cases ht : t = o.1
  · subst ht
    obtain ⟨t, a⟩ := o
    rw [Threads.step_loc_self] at hu
    cases a with
    | begin env op rest =>
      obtain rfl := Option.some.inj hu
      exact hkept _ le_rfl fun i a ha => ⟨a, ha⟩
    | rollback => cases hu
    | commit =>
      cases hl : s.loc t with
      | none =>
        rw [hl] at hu
        cases hu
      | some v =>
        rw [hl] at hu
        cases hu
  · obtain ⟨t', a⟩ := o
    rw [Threads.step_loc_other s a ht] at hu
    exact hkept u (hs t u hu).1 (hs t u hu).2

/-- a reported job stays as reported, if the commits are in time -/
theorem over_step (hin : InTime s o) (hget : s.shared.get i = some c) (hover : c.Over) :
    ∃ c', (step s o).shared.get i = some c' ∧ c'.status = c.status := by
  obtain ⟨c', hc', -, rfl | ⟨⟨who, hhands⟩, -⟩ | ⟨⟨who, hcompletes⟩, -⟩⟩ := @step_row s o i c hget
  · exact ⟨c', hc', rfl⟩
  · have hpending := hin.hands i who hhands c hget
    rcases hover with h | h
    · rw [hpending] at h
      cases h
    · rw [hpending] at h
      cases h
  · exact absurd hover (hin.completes i who hcompletes c hget)

/-- a job whose hand-out or report is in time was open already if it is open afterwards -/
theorem open_before (hin : InTime s o) {c' : AdcsJob} (hget : s.shared.get i = some c) (hget' : (step s o).shared.get i = some c')
    (hopen : c'.Open) : c.Open ∧ SameRequest c c' := by
  obtain ⟨c'', hc'', hsame, hcases⟩ := @step_row s o i c hget
  obtain rfl := Option.some.inj (hget'.symm.trans hc'')
  refine ⟨?_, hsame⟩
  rcases hcases with rfl | ⟨⟨who, hhands⟩, -⟩ | ⟨-, hover⟩
  · exact hopen
  · exact Or.inl (hin.hands i who hhands c hget)
  · rcases hopen with h | h <;> rcases hover with h' | h' <;> · rw [h] at h'; cases h'

theorem noTwins_step (hs : Reads s) (hin : InTime s o) (hno : NoTwins s.shared) : NoTwins (step s o).shared := by
  -- an open request afterwards was one before, or is the one this commit adds
  have hbefore : ∀ {appId csrHash i a}, (step s o).shared.get i = some a → a.OpenRequest appId csrHash →
      (∃ a₀, s.shared.get i = some a₀ ∧ a₀.OpenRequest appId csrHash) ∨
        (i = s.shared.next ∧ Queues appId csrHash s o) := by
    intro appId csrHash i a hget ⟨htype, happ, hcsr, hopen⟩
    cases hold : s.shared.get i with
    | some a₀ =>
      obtain ⟨hopen₀, hsame⟩ := open_before hin hold hget hopen
      exact Or.inl ⟨a₀, rfl, hsame.jobType ▸ htype, hsame.appId ▸ happ, hsame.csrHash ▸ hcsr, hopen₀⟩
    | none =>
      obtain ⟨hi, -, hissue⟩ := step_new hs hold hget
      obtain ⟨appId', csrHash', hqueues, happ', hcsr'⟩ := hissue htype
      obtain rfl := Option.some.inj (happ'.symm.trans happ)
      obtain rfl := Option.some.inj (hcsr'.symm.trans hcsr)
      exact Or.inr ⟨hi, hqueues⟩
  intro appId csrHash i j a b ha hb hopenA hopenB
  rcases hbefore ha hopenA with ⟨a₀, ha₀, hopen₀⟩ | ⟨hi, hqueues⟩
  · rcases hbefore hb hopenB with ⟨b₀, hb₀, hopenB₀⟩ | ⟨-, hqueues⟩
    · exact hno appId csrHash i j a₀ b₀ ha₀ hb₀ hopen₀ hopenB₀
    · exact absurd hopen₀ (hin.queues appId csrHash hqueues i a₀ ha₀)
  · rcases hbefore hb hopenB with ⟨b₀, hb₀, hopenB₀⟩ | ⟨hj, -⟩
    · exact absurd hopenB₀ (hin.queues appId csrHash hqueues j b₀ hb₀)
    · exact hi.trans hj.symm

/-- from quiet: the transactions under way have read what is there, and no CSR is open twice -/
structure Inv (s : St) : Prop where
  reads : Reads s
  noTwins : NoTwins s.shared

theorem inv_step (s : St) (o : ℕ × Act) (hs : Inv s) (hin : InTime s o) : Inv (step s o) :=
  ⟨reads_step s o hs.reads, noTwins_step hs.reads hin hs.noTwins⟩

theorem inv_quiet {jobs : Table AdcsJob} (h : NoTwins jobs) : Inv (quiet jobs) := by
  refine ⟨fun t u hu => ?_, h⟩
  cases hu

theorem handed_once {ops : List (ℕ × Act)} (hs : Inv s) (hin : Along step InTime s ops) (j : ℕ) :
    AtMostOnce step (fun s o => ∃ who, Hands j who s o) s ops := by
  refine atMostOnce_of_open (P := fun s => ∀ c, s.shared.get j = some c → c.status = .pending) inv_step ?_ ?_ hs hin
    (hin.mono fun s o h ⟨who, hhands⟩ => h.hands j who hhands)
  · rintro s ⟨t, a⟩ hs hin ⟨who, hhands⟩ hpending
    obtain rfl : a = .commit := hhands.1
    obtain ⟨c', hc', hclaimed, -⟩ := hands_row hhands hs.reads
    rw [hpending c' hc'] at hclaimed
    cases hclaimed
  · intro s o hs hin hnot hpending
    apply hnot
    intro c hget
    obtain ⟨c', hc', -, rfl | ⟨⟨who, hhands⟩, -⟩ | ⟨-, hover⟩⟩ := @step_row s o j c hget
    · exact hpending c' hc'
    · exact hin.hands j who hhands c hget
    · have hst := hpending c' hc'
      rcases hover with h | h
      · rw [hst] at h
        cases h
      · rw [hst] at h
        cases h

theorem completed_once {ops : List (ℕ × Act)} (hs : Inv s) (hin : Along step InTime s ops) (j : ℕ) :
    AtMostOnce step (fun s o => ∃ who, Completes j who s o) s ops := by
  refine atMostOnce_of_open (P := fun s => ∀ c, s.shared.get j = some c → ¬ c.Over) inv_step ?_ ?_ hs hin
    (hin.mono fun s o h ⟨who, hcompletes⟩ => h.completes j who hcompletes)
  · rintro s ⟨t, a⟩ hs hin ⟨who, hcompletes⟩ hopen
    obtain rfl : a = .commit := hcompletes.1
    obtain ⟨-, c', hc', hover, -⟩ := completes_row hcompletes hs.reads
    exact hopen c' hc' hover
  · intro s o hs hin hnot hopen
    apply hnot
    intro c hget hover
    obtain ⟨c', hc', hsame⟩ := over_step hin hget hover
    exact hopen c' hc' (by unfold AdcsJob.Over at hover ⊢; rwa [hsame])

/-- **The gateway protocol**: in every run whose commits are in time, a job is handed to at most one worker and reported at
most once, by a gateway or an admin; done and failed are terminal; an app's CSR is open in at most one job. -/
theorem protocol_kept {jobs : Table AdcsJob} {ops : List (ℕ × Act)} (hno : NoTwins jobs)
    (hin : Along step InTime (quiet jobs) ops) : Protocol Authorized (quiet jobs) ops := by
  have hs := inv_quiet hno
  refine ⟨handed_once hs hin, completed_once hs hin, ?_, ?_, ?_⟩
  · refine along_of_inv inv_step ?_ hs hin
    rintro s ⟨t, a⟩ hs - j who hcompletes
    obtain rfl : a = .commit := hcompletes.1
    obtain ⟨hrole, -, -, -, c, hget⟩ := completes_row hcompletes hs.reads
    exact ⟨c, hget, hrole⟩
  · intro j before mid after hops job hget hover
    rw [hops, along_append, along_append] at hin
    rw [run_append]
    refine run_inv (I := fun s => ∃ job', s.shared.get j = some job' ∧ job'.status = job.status) ?_ ⟨job, hget, rfl⟩ hin.1.2
    rintro s o ⟨job', hget', hsame⟩ hin
    obtain ⟨job'', hget'', hsame'⟩ := over_step hin hget' (by unfold AdcsJob.Over at hover ⊢; rwa [hsame])
    exact ⟨job'', hget'', hsame'.trans hsame⟩
  · intro before after hops
    rw [hops, along_append] at hin
    exact (run_inv inv_step hs hin.1).noTwins

/-! ### When commits are in time -/

theorem inTime_begin (s : St) (t : ℕ) (env : Env) (op : Op) (rest : Db) : InTime s (t, .begin env op rest) := by
  constructor
  · rintro j who ⟨hcommit, -⟩
    cases hcommit
  · rintro j who ⟨hcommit, -⟩
    cases hcommit
  · rintro appId csrHash ⟨hcommit, -⟩
    cases hcommit

theorem inTime_claim {t : ℕ} {env : Env} {who : Actor} {limit : ℕ} {view : Db}
    (hu : s.loc t = some ⟨env, .claim who limit, view⟩)
    (h : ∀ i job, s.shared.get i = some job → job.status = .pending) : InTime s (t, .commit) := by
  constructor
  · exact fun j _ _ => h j
  · rintro j who' ⟨-, u, r, hu', hop, -⟩
    obtain rfl := Option.some.inj (hu.symm.trans hu')
    cases hop
  · rintro appId csrHash ⟨-, u, profile, csrPem, ca, tmpl, requestedBy, hu', hop, -⟩
    obtain rfl := Option.some.inj (hu.symm.trans hu')
    cases hop

theorem inTime_complete {t : ℕ} {env : Env} {who : Actor} {jobId : ℕ} {r : Report} {view : Db}
    (hu : s.loc t = some ⟨env, .complete who jobId r, view⟩)
    (h : ∀ i job, s.shared.get i = some job → ¬ job.Over) : InTime s (t, .commit) := by
  constructor
  · rintro j who' ⟨-, u, limit, jobs, hu', hop, -⟩
    obtain rfl := Option.some.inj (hu.symm.trans hu')
    cases hop
  · exact fun j _ _ => h j
  · rintro appId csrHash ⟨-, u, profile, csrPem, ca, tmpl, requestedBy, hu', hop, -⟩
    obtain rfl := Option.some.inj (hu.symm.trans hu')
    cases hop

end Steps

/-! ### Two workers -/

section Examples

def gw2 : Actor := ⟨"gw-2", .gateway, none⟩

/-- one pending issue job -/
def pendingJobs : Table AdcsJob :=
  Table.empty.insert
    ⟨.issue, .pending, some 2, some "windows", some "ca-1", none, some "csr", some "hash", none, none, none, none, none,
      none, some "joe", none, none, none⟩

theorem pendingJobs_noTwins : NoTwins pendingJobs := by
  intro appId csrHash i j a b ha hb _ _
  have honly : ∀ k c, pendingJobs.get k = some c → k = 1 := by decide
  rw [honly i a ha, honly j b hb]

def claims (who : Actor) : Act := .begin demoEnv (.claim who 10) Db.empty

def reportsError (who : Actor) : Act := .begin demoEnv (.complete who 1 ⟨none, none, some "denied", none⟩) Db.empty

/-- gw-1 claims the job, and then gw-2 reports it -/
def inTurn : List (ℕ × Act) := [(0, claims gw1), (0, .commit), (1, reportsError gw2), (1, .commit)]

theorem inTurn_inTime : Along step InTime (quiet pendingJobs) inTurn := by
  refine ⟨inTime_begin _ _ _ _ _, inTime_claim rfl ?_, inTime_begin _ _ _ _ _, inTime_complete rfl ?_, trivial⟩
  · decide +kernel
  · decide +kernel

theorem inTurn_kept : Protocol Authorized (quiet pendingJobs) inTurn := protocol_kept pendingJobs_noTwins inTurn_inTime

/-- The claim and the report are one after the other, and gw-2 reports what gw-1 claimed. -/
theorem reported_by_another :
    NoTwins pendingJobs ∧ Along step InTime (quiet pendingJobs) inTurn ∧ ¬ Protocol Claimer (quiet pendingJobs) inTurn := by
  refine ⟨pendingJobs_noTwins, inTurn_inTime, fun h => ?_⟩
  obtain ⟨-, -, -, hcompletedBy, -⟩ := h.completedBy
  obtain ⟨job, hget, hclaimer⟩ := hcompletedBy 1 gw2 ⟨rfl, _, _, rfl, rfl, rfl⟩
  have hclaimed : ∀ i job, (run step (quiet pendingJobs) (inTurn.take 3)).shared.get i = some job →
      job.claimedBy = some "gw-1" := by decide +kernel
  have hother := (hclaimed 1 job hget).symm.trans hclaimer
  revert hother
  decide

/-- both workers have read the queue before either commits -/
def overlapping : List (ℕ × Act) := [(0, claims gw1), (1, claims gw2), (0, .commit), (1, .commit)]

/-- Both are handed the job. -/
theorem handed_twice : ¬ AtMostOnce step (fun s o => ∃ who, Hands 1 who s o) (quiet pendingJobs) overlapping := by
  intro h
  have hfirst : Hands 1 gw1 (run step (quiet pendingJobs) (overlapping.take 2)) (0, .commit) :=
    ⟨rfl, _, 10, _, rfl, rfl, rfl, by decide +kernel⟩
  have hsecond : Hands 1 gw2 (run step (quiet pendingJobs) (overlapping.take 3)) (1, .commit) :=
    ⟨rfl, _, 10, _, rfl, rfl, rfl, by decide +kernel⟩
  have hsame := h (overlapping.take 2) (0, .commit) [(1, .commit)] (overlapping.take 3) (1, .commit) [] rfl rfl
    ⟨gw1, hfirst⟩ ⟨gw2, hsecond⟩
  exact absurd (congrArg List.length hsame) (by decide)

end Examples

end Gateway

end Certadillo
