/-
What a provisioning run leaves, by the point where it ends.

A run issues a certificate, pushes it, checks the endpoint and retires the certificate the installation pointed to. It may fail
at any of these.

- `calm_revokeAside`: what a revocation leaves, also where it raises half-way.
- `attempted_cases`: a run raises with nothing written to its tables, or it ends at one of five points; `Leaves` says what it
  leaves there.
-/
import Certadillo.Services.Provisioning
import Certadillo.Services.Requests
import Certadillo.Revocation.Lasting

namespace Certadillo.Provisioning

open Integrity Policy Py Machine Platform

/-! ## What the end of a run leaves -/

/-- what a revocation of row `id` may leave, also where it raises half-way -/
structure Aside (id : ℕ) (a b : Db) : Prop where
  next : b.certificates.next = a.certificates.next
  row : ∀ c, a.certificates.get id = some c → ∃ c', b.certificates.get id = some c' ∧ (c'.status = c.status ∨ c'.status = .revoked)
  others : ∀ i, i ≠ id → b.certificates.get i = a.certificates.get i
  installations : b.installations = a.installations
  runs : b.provisioningRuns = a.provisioningRuns
  approvals : b.approvals = a.approvals
  jobs : ∀ j job, b.jobs.get j = some job → a.jobs.get j = some job ∨ job.jobType = .revoke

theorem Aside.refl (id : ℕ) (a : Db) : Aside id a a :=
  ⟨rfl, fun c h => ⟨c, h, Or.inl rfl⟩, fun _ _ => rfl, rfl, rfl, rfl, fun _ _ h => Or.inl h⟩

theorem Aside.trans {id : ℕ} {a b c : Db} (hab : Aside id a b) (hbc : Aside id b c) : Aside id a c where
  next := hbc.next.trans hab.next
  row := by
    intro x hx
    obtain ⟨y, hy, hxy⟩ := hab.row x hx
    obtain ⟨z, hz, hyz⟩ := hbc.row y hy
    refine ⟨z, hz, ?_⟩
    rcases hyz with heq | hrevoked
    · rw [heq]
      exact hxy
    · exact Or.inr hrevoked
  others i hi := (hbc.others i hi).trans (hab.others i hi)
  installations := hbc.installations.trans hab.installations
  runs := hbc.runs.trans hab.runs
  approvals := hbc.approvals.trans hab.approvals
  jobs j job h := by
    rcases hbc.jobs j job h with hb | hrevoke
    · exact hab.jobs j job hb
    · exact Or.inr hrevoke

section Revoking

variable {env : Env} {id : ℕ}

theorem calm_revokeAside (actor : Actor) (reason : String) (changeRef : Option String) :
    Tx.Calm (Aside id) (revoke env actor id reason changeRef) := by
  refine calm_revoke_of (fun d => ?_) (fun d job hjob => ?_) (fun d _ => ?_) (fun d _ => ?_) actor changeRef
  · refine ⟨rfl, fun c hc => ?_, fun i hi => Table.get_update_of_ne _ _ hi, rfl, rfl, rfl, fun _ _ h => Or.inl h⟩
    refine ⟨_, (Table.get_update_self _ _ _).trans (congrArg _ hc), Or.inr ?_⟩
    exact flushed_status _ _ _
  · refine ⟨rfl, fun c h => ⟨c, h, Or.inl rfl⟩, fun _ _ => rfl, rfl, rfl, rfl, fun j row hrow => ?_⟩
    rw [Table.get_insert] at hrow
    split at hrow
    · obtain rfl := Option.some.inj hrow
      exact Or.inr hjob
    · exact Or.inl hrow
  · exact ⟨rfl, fun c h => ⟨c, h, Or.inl rfl⟩, fun _ _ => rfl, rfl, rfl, rfl, fun _ _ h => Or.inl h⟩
  · exact ⟨rfl, fun c h => ⟨c, h, Or.inl rfl⟩, fun _ _ => rfl, rfl, rfl, rfl, fun _ _ h => Or.inl h⟩

end Revoking

/-- the rows that the end of a run sets: its own, and the installation's -/
structure Closed (run : Run) (status : String) (issued pointer : Option ℕ) (a b : Db) : Prop where
  runs : ∃ f : ProvisioningRun → ProvisioningRun, b.provisioningRuns = a.provisioningRuns.update run.runId f ∧
    ∀ r, (f r).installationId = r.installationId ∧ (f r).status = status ∧ (f r).certificateId = issued.or r.certificateId
  installation : ∃ f : Installation → Installation, b.installations = a.installations.update run.instId f ∧
    ∀ i, (f i).certificateId = pointer.or i.certificateId
  approvals : b.approvals = a.approvals

/-- the rows after the revocation of a certificate that was not delivered -/
def tidied (env : Env) (run : Run) (p : Progress) (s : Session Db) : Db :=
  match p.issued with
  | none => s.work
  | some (id, _) =>
    if p.installed || ((s.work.certificates.get id).map (·.status)) ≠ some .active then s.work
    else (revoke env (actorOf run.instId run.inst.appId) id "cessation_of_operation" none s).2.work

section Ending

variable {env : Env} {run : Run} {s : Session Db}

/-- a sealed installation's row: the pointer is the assigned one -/
theorem flushed_certificateId (st : SealState) (old new : Installation) :
    (flushed st old new).certificateId = new.certificateId := by
  rcases flushed_eq st old new with h | ⟨x, h⟩
  · rw [h]
  · rw [h]
    rfl

/-- what is not delivered is revoked, if that raises nothing or what it raises is recorded -/
theorem revokeUndelivered_cases (env : Env) (run : Run) (p : Progress) (s : Session Db) :
    (∃ c s', revokeUndelivered env run.instId run.inst.appId p s = (.error (.integrity c), s') ∧ s'.committed = s.committed) ∨
      ∃ steps, revokeUndelivered env run.instId run.inst.appId p s = (.ok steps, ⟨s.committed, tidied env run p s⟩) := by
  unfold revokeUndelivered tidied
  obtain ⟨issued, installed, steps⟩ := p
  cases issued with
  | none => exact Or.inr ⟨_, rfl⟩
  | some pair =>
    dsimp only
    rw [Tx.get_bind]
    split
    · exact Or.inr ⟨_, rfl⟩
    have hcommitted := (@calm_revokeAside env pair.1 (actorOf run.instId run.inst.appId)
      "cessation_of_operation" none s).1
    rw [Tx.bind_ok (Tx.attempt_run _ _)]
    rcases hrun : revoke env (actorOf run.instId run.inst.appId) pair.1 "cessation_of_operation" none s with ⟨e | u, s'⟩
    · rw [hrun] at hcommitted
      obtain ⟨c, w⟩ := s'
      obtain rfl : c = s.committed := hcommitted
      cases e with
      | integrity c => exact Or.inl ⟨c, _, rfl, rfl⟩
      | _ => exact Or.inr ⟨_, rfl⟩
    · rw [hrun] at hcommitted
      obtain ⟨c, w⟩ := s'
      obtain rfl : c = s.committed := hcommitted
      exact Or.inr ⟨_, rfl⟩

theorem tidied_aside {p : Progress} {id : ℕ} {row : Certificate} (h : p.issued = some (id, row)) :
    Aside id s.work (tidied env run p s) := by
  unfold tidied
  rw [h]
  dsimp only
  split
  · exact Aside.refl id _
  · have hcalm := (@calm_revokeAside env id (actorOf run.instId run.inst.appId)
      "cessation_of_operation" none s).2
    exact Tx.reaches_inv (I := Aside id s.work) (fun _ _ hw h => h.trans hw) hcalm (Aside.refl id _)

theorem tidied_none {p : Progress} (h : p.issued = none) : tidied env run p s = s.work := by
  unfold tidied
  rw [h]

theorem tidied_installed {p : Progress} (h : p.installed = true) : tidied env run p s = s.work := by
  unfold tidied
  split
  · rfl
  · rw [if_pos (by rw [h, Bool.true_or])]

theorem tidied_same (p : Progress) :
    (tidied env run p s).installations = s.work.installations ∧
      (tidied env run p s).provisioningRuns = s.work.provisioningRuns ∧
        (tidied env run p s).approvals = s.work.approvals := by
  cases hissued : p.issued with
  | none =>
    rw [tidied_none hissued]
    exact ⟨rfl, rfl, rfl⟩
  | some pair =>
    have haside := @tidied_aside env run s p pair.1 pair.2 hissued
    exact ⟨haside.installations, haside.runs, haside.approvals⟩

/-- the last writes of a run -/
theorem closes {status : String} {issued pointer : Option ℕ} {f : Installation → Installation}
    {g : ProvisioningRun → ProvisioningRun} (hf : ∀ i, (f i).certificateId = pointer.or i.certificateId)
    (hg : ∀ r, (g r).installationId = r.installationId ∧ (g r).status = status ∧ (g r).certificateId = issued.or r.certificateId)
    (env : Env) (serial error : Option String) (steps : List String) (c mid : Db) :
    ∃ b, (do
      setRow env Col.installations run.instId f
      setPlain Col.provisioningRuns run.runId g
      report env run.instId run.runId run.inst run.target run.actorName run.trigger status serial error steps : M Unit)
        ⟨c, mid⟩ = (.ok (), ⟨c, b⟩) ∧ Closed run status issued pointer mid b ∧ b.certificates = mid.certificates ∧
          b.jobs = mid.jobs := by
  refine ⟨_, rfl, ⟨⟨fun r => { g r with steps := steps }, ?_, hg⟩, ⟨fun i => flushed env.st i (f i), rfl, fun i => ?_⟩, rfl⟩, rfl,
    rfl⟩
  · exact Table.update_update mid.provisioningRuns run.runId g fun r => { r with steps := steps }
  · rw [flushed_certificateId]
    exact hf i

/-- the other rows a run writes are as they were -/
theorem Closed.of_same {status : String} {issued pointer : Option ℕ} {a mid b : Db}
    (h : Closed run status issued pointer mid b) (hinst : mid.installations = a.installations)
    (hruns : mid.provisioningRuns = a.provisioningRuns) (happrovals : mid.approvals = a.approvals) :
    Closed run status issued pointer a b := by
  obtain ⟨hrun, hinstallation, happroval⟩ := h
  rw [hruns] at hrun
  rw [hinst] at hinstallation
  exact ⟨hrun, hinstallation, happroval.trans happrovals⟩

/-- what the except branch leaves where it returns -/
structure Recorded (env : Env) (run : Run) (p : Progress) (s : Session Db) (b : Db) : Prop where
  closed : Closed run "failed" (p.issued.map Prod.fst) (if p.installed then p.issued.map Prod.fst else none) s.work b
  certificates : b.certificates = (tidied env run p s).certificates
  jobs : b.jobs = (tidied env run p s).jobs

/-- the except branch: it raises for a broken constraint, and closes the run otherwise -/
theorem failed_cases (p : Progress) (e : Err) (s : Session Db) :
    (∃ c s', failed env run p e s = (.error (.integrity c), s') ∧ s'.committed = s.committed) ∨
      ∃ b, failed env run p e s = (.ok (), ⟨s.committed, b⟩) ∧ Recorded env run p s b := by
  have hbranch : failed env run p e = (do
        let steps ← revokeUndelivered env run.instId run.inst.appId p
        setRow env Col.installations run.instId (failedInstallation env p (message e))
        setPlain Col.provisioningRuns run.runId fun r =>
          { r with status := "failed", error := some (message e), certificateId := (p.issued.map Prod.fst).or r.certificateId }
        report env run.instId run.runId run.inst run.target run.actorName run.trigger "failed"
          (p.issued.map fun c => c.2.serialHex) (some (message e)) steps) →
      (∃ c s', failed env run p e s = (.error (.integrity c), s') ∧ s'.committed = s.committed) ∨
        ∃ b, failed env run p e s = (.ok (), ⟨s.committed, b⟩) ∧ Recorded env run p s b := by
    intro hfailed
    rw [hfailed]
    rcases revokeUndelivered_cases env run p s with ⟨c, s', hrun, hcommitted⟩ | ⟨steps, hrun⟩
    · exact Or.inl ⟨c, s', Tx.bind_error hrun, hcommitted⟩
    · right
      obtain ⟨hinst, hruns, happrovals⟩ := @tidied_same env run s p
      have hpointer : ∀ i, (failedInstallation env p (message e) i).certificateId =
          (if p.installed then p.issued.map Prod.fst else none).or i.certificateId := by
        intro i
        unfold failedInstallation
        cases p.installed with
        | true => rfl
        | false => rfl
      obtain ⟨b, hclose, hclosed, hcertificates, hjobs⟩ := @closes run "failed" (p.issued.map Prod.fst) _ _
        (fun r => { r with
          status := "failed", error := some (message e), certificateId := (p.issued.map Prod.fst).or r.certificateId })
        hpointer (fun r => ⟨rfl, rfl, rfl⟩) env (p.issued.map fun c => c.2.serialHex) (some (message e)) steps s.committed
        (tidied env run p s)
      exact ⟨b, (Tx.bind_ok hrun).trans hclose, hclosed.of_same hinst hruns happrovals, hcertificates, hjobs⟩
  cases e with
  | integrity c => exact Or.inl ⟨c, s, rfl, rfl⟩
  | _ => exact hbranch rfl

/-- the end of a run retires the certificate the installation points to, and no other -/
structure Retired (run : Run) (id : ℕ) (a b : Db) : Prop where
  pointed : ∀ prev, run.inst.certificateId = some prev → prev ≠ 0 → prev ≠ id →
    ∀ c, a.certificates.get prev = some c → c.status = .active → ∃ c', b.certificates.get prev = some c' ∧ c'.status = .superseded
  others : ∀ i, b.certificates.get i = a.certificates.get i ∨ (run.inst.certificateId = some i ∧ i ≠ id)
  next : b.certificates.next = a.certificates.next
  ended : ∀ i c, a.certificates.get i = some c → c.status ≠ .active → b.certificates.get i = some c

theorem retired_refl {id : ℕ} {a : Db} (h : ∀ prev, run.inst.certificateId = some prev → prev ≠ 0 → prev ≠ id →
    ∀ c, a.certificates.get prev = some c → c.status ≠ .active) : Retired run id a a where
  pointed prev hp h0 hne c hget hactive := absurd hactive (h prev hp h0 hne c hget)
  others _ := Or.inl rfl
  next := rfl
  ended _ _ hget _ := hget

theorem retirePrevious_run (env : Env) (run : Run) (id : ℕ) (s : Session Db) :
    ∃ steps b, retirePrevious env run id s = (.ok steps, ⟨s.committed, b⟩) ∧ Retired run id s.work b ∧
      b.installations = s.work.installations ∧ b.provisioningRuns = s.work.provisioningRuns ∧
      b.approvals = s.work.approvals := by
  unfold retirePrevious
  rw [Tx.get_bind]
  cases hprevious : (run.inst.certificateId.filter (· ≠ 0)).bind fun i => (s.work.certificates.get i).map (i, ·) with
  | none =>
    refine ⟨[], s.work, rfl, retired_refl fun prev hp h0 _ c hget => ?_, rfl, rfl, rfl⟩
    rw [hp, Option.filter_some_pos (by simpa using h0), Option.bind_some, hget] at hprevious
    cases hprevious
  | some found =>
    obtain ⟨prevId, hpointer, hfound⟩ := Option.bind_eq_some_iff.1 hprevious
    obtain ⟨prev, hget, rfl⟩ := Option.map_eq_some_iff.1 hfound
    obtain ⟨hpointer, -⟩ := Option.filter_eq_some_iff.1 hpointer
    dsimp only
    by_cases hretired : prev.status = .active ∧ prevId ≠ id
    · rw [if_pos (by simpa using hretired)]
      refine ⟨_, _, rfl, ?_, rfl, rfl, rfl⟩
      refine ⟨fun i hi _ _ c hc _ => ?_, fun i => ?_, rfl, fun i c hc hended => ?_⟩
      · obtain rfl := Option.some.inj (hpointer.symm.trans hi)
        exact ⟨_, (Table.get_update_self _ _ _).trans (congrArg _ hc), flushed_status _ _ _⟩
      · by_cases hi : i = prevId
        · exact Or.inr ⟨hi ▸ hpointer, hi ▸ hretired.2⟩
        · exact Or.inl (Table.get_update_of_ne _ _ hi)
      · have hi : i ≠ prevId := by
          intro hi
          subst hi
          obtain rfl := Option.some.inj (hget.symm.trans hc)
          exact hended hretired.1
        exact (Table.get_update_of_ne _ _ hi).trans hc
    · rw [if_neg (by simpa using hretired)]
      refine ⟨[], s.work, rfl, retired_refl fun i hi _ hne c hc hactive => ?_, rfl, rfl, rfl⟩
      obtain rfl := Option.some.inj (hpointer.symm.trans hi)
      obtain rfl := Option.some.inj (hget.symm.trans hc)
      exact hretired ⟨hactive, hne⟩

/-- the end of a run that succeeds -/
theorem finished_run (env : Env) (run : Run) (issued : ℕ × Certificate) (status : String) (steps : List String)
    (s : Session Db) :
    ∃ b, finished env run issued status steps s = (.ok (), ⟨s.committed, b⟩) ∧ Retired run issued.1 s.work b ∧
      Closed run "ok" (some issued.1) (some issued.1) s.work b := by
  unfold finished
  obtain ⟨retired, mid, hrun, hretired, hinst, hruns, happrovals⟩ := retirePrevious_run env run issued.1 s
  obtain ⟨b, hclose, hclosed, hcertificates, -⟩ := @closes run "ok" (some issued.1) (some issued.1)
    (fun i => { i with
      status := status, certificateId := some issued.1, failures := 0, lastError := none, nextAttemptAt := none })
    (fun r => { r with status := "ok", certificateId := some issued.1 }) (fun _ => rfl) (fun _ => ⟨rfl, rfl, rfl⟩) env
    (some issued.2.serialHex) none (steps ++ retired) s.committed mid
  refine ⟨b, (Tx.bind_ok hrun).trans hclose, ?_, hclosed.of_same hinst hruns happrovals⟩
  obtain ⟨hpointed, hothers, hnext, hended⟩ := hretired
  rw [← hcertificates] at hpointed hothers hnext hended
  exact ⟨hpointed, hothers, hnext, hended⟩

end Ending

/-! ## How a run ends -/

/-- a run of the installation gets certificate `id`, in the session it leaves -/
structure Gets (env : Env) (w : Drivers) (run : Run) (s : Session Db) (p : Prepared) (id : ℕ) (row : Certificate)
    (s' : Session Db) : Prop where
  prepared : prepare env w run = .ok p
  issued : issueNow env run p.csrPem s = (.ok (id, row), s')

/-- the target takes the certificate -/
def Installs (env : Env) (w : Drivers) (p : Prepared) (row : Certificate) (s' : Session Db) : Prop :=
  ∃ chain added updates, chainPem env s'.work row = .ok chain ∧ w.install p.target p.params row chain = (added, .ok updates)

/-- the endpoint serves it, or there is none to check -/
def Served (w : Drivers) (run : Run) (row : Certificate) : Prop := ∃ v, validate w run row = .ok v

/-- the session in which a run begins: its row is there -/
def begun (d : Db) (instId : ℕ) (actorName trigger : String) : Session Db :=
  ⟨d, { d with provisioningRuns := d.provisioningRuns.insert ⟨instId, trigger, "running", none, [], none, actorName⟩ }⟩

/-- the run that begins -/
def runOf (d : Db) (instId : ℕ) (inst : Installation) (actorName trigger : String) : Run :=
  ⟨instId, inst, d.provisioningRuns.next, d.apps.get inst.appId, d.targets.get inst.targetId, actorName, trigger⟩

section Attempt

variable {env : Env} {w : Drivers} {run : Run} {s : Session Db}

/-- a session in which certificate `id` is new -/
structure Issued (run : Run) (s : Session Db) (id : ℕ) (row : Certificate) (s' : Session Db) : Prop where
  committed : s'.committed = s.committed
  row : s'.work.certificates.get id = some row
  new : NewCertificate run.inst.appId s.work s'.work id

/-- a request that was not decided on the spot: nothing is written, or the approval or the job -/
def HandedOn (env : Env) (run : Run) (csrPem : String) (s s' : Session Db) : Prop :=
  s'.committed = s.committed ∧ ∃ app csr decision out, Way env app decision out ∧ (∀ id, out ≠ .certificate id) ∧
    DecidedFor env s.work (actorOf run.instId run.inst.appId) run.inst.appId
      ⟨some csrPem, none, none, none, "push", none, false, none⟩ app csr decision ∧
    Fulfilled env run.inst.appId ⟨some csrPem, none, none, none, "push", none, false, none⟩ s.work s'.work out

/-- a certificate is issued; or the request raises and nothing is written, or it is handed on -/
theorem issueNow_cases (env : Env) (run : Run) (csrPem : String) (s : Session Db) :
    (∃ id row s', issueNow env run csrPem s = (.ok (id, row), s') ∧ Issued run s id row s') ∨
      ∃ e s', issueNow env run csrPem s = (.error e, s') ∧ (StillSession s s' ∨
        ((∀ c, e ≠ .integrity c) ∧ HandedOn env run csrPem s s')) := by
  unfold issueNow
  rcases hrequest : requestCertificate env (actorOf run.instId run.inst.appId) run.inst.appId
    ⟨some csrPem, none, none, none, "push", none, false, none⟩ s with ⟨e | out, s'⟩
  · right
    have hsame : StillSession s s := ⟨Or.inl rfl, Still.refl s.work⟩
    have hstill : StillSession s s' := raisesStill_request hsame e s' hrequest
    exact ⟨e, s', Tx.bind_error hrequest, Or.inl hstill⟩
  · obtain ⟨app, csr, decision, hdecided, hway, hcommitted, hfulfilled⟩ := request_returned hrequest
    cases out with
    | certificate i =>
      left
      obtain ⟨mid, hnew, rfl⟩ := hfulfilled
      obtain ⟨c, hget, -⟩ := hnew.row
      refine ⟨i, c, s', (Tx.bind_ok hrequest).trans ?_, hcommitted, hget, hnew⟩
      dsimp only
      rw [Tx.get_bind, hget]
      rfl
    | approval i =>
      right
      exact ⟨_, s', (Tx.bind_ok hrequest).trans rfl,
        Or.inr ⟨nofun, hcommitted, app, csr, decision, _, hway, nofun, hdecided, hfulfilled⟩⟩
    | job i =>
      right
      exact ⟨_, s', (Tx.bind_ok hrequest).trans rfl,
        Or.inr ⟨nofun, hcommitted, app, csr, decision, _, hway, nofun, hdecided, hfulfilled⟩⟩

/-- what a run that returns leaves, by where it ended -/
inductive Leaves (env : Env) (w : Drivers) (run : Run) (s : Session Db) (b : Db) : Prop where
  /-- nothing was requested -/
  | unprepared (e : Err) (hprepare : prepare env w run = .error e) (h : Recorded env run ⟨none, false, []⟩ s b)
  /-- no certificate was issued -/
  | refused (p : Prepared) (e : Err) (mid : Session Db) (hprepare : prepare env w run = .ok p)
      (hissue : issueNow env run p.csrPem s = (.error e, mid)) (h : Recorded env run ⟨none, false, p.steps⟩ mid b)
  /-- it was issued, and not installed -/
  | undelivered (p : Prepared) (id : ℕ) (row : Certificate) (mid : Session Db) (steps : List String)
      (hgets : Gets env w run s p id row mid) (hissued : Issued run s id row mid) (hnot : ¬ Installs env w p row mid)
      (h : Recorded env run ⟨some (id, row), false, steps⟩ mid b)
  /-- it was installed, and the endpoint does not serve it -/
  | unserved (p : Prepared) (id : ℕ) (row : Certificate) (mid : Session Db) (hgets : Gets env w run s p id row mid)
      (hissued : Issued run s id row mid) (hinstalls : Installs env w p row mid) (hnot : ¬ Served w run row)
      (hcertificates : b.certificates = mid.work.certificates) (h : Closed run "failed" (some id) (some id) mid.work b)
  /-- it was installed and checked -/
  | succeeded (p : Prepared) (id : ℕ) (row : Certificate) (mid : Session Db) (hgets : Gets env w run s p id row mid)
      (hissued : Issued run s id row mid) (hinstalls : Installs env w p row mid) (hserved : Served w run row)
      (hretired : Retired run id mid.work b) (h : Closed run "ok" (some id) (some id) mid.work b)

/-- the push changes the installation's parameters, and its pointer after that -/
theorem Closed.after_push {status : String} {issued pointer : Option ℕ} {a b : Db} {f : Installation → Installation}
    (h : Closed run status issued pointer { a with installations := a.installations.update run.instId f } b)
    (hf : ∀ i, (f i).certificateId = i.certificateId) : Closed run status issued pointer a b := by
  obtain ⟨hrun, ⟨g, hinstallation, hg⟩, happrovals⟩ := h
  refine ⟨hrun, ⟨fun i => g (f i), hinstallation.trans (Table.update_update _ _ _ _), fun i => ?_⟩, happrovals⟩
  rw [hg, hf]

/-- how a run ends that has its certificate -/
theorem push_cases {p : Prepared} {id : ℕ} {row : Certificate} {mid : Session Db} (hgets : Gets env w run s p id row mid)
    (hissued : Issued run s id row mid) :
    (∃ c s', push env w run p (id, row) mid = (.error (.integrity c), s') ∧ s'.committed = mid.committed) ∨
      ∃ b, push env w run p (id, row) mid = (.ok (), ⟨mid.committed, b⟩) ∧ Leaves env w run s b := by
  have hnot : ∀ steps e, ¬ Installs env w p row mid →
      (∃ c s', failed env run ⟨some (id, row), false, steps⟩ e mid = (.error (.integrity c), s') ∧
        s'.committed = mid.committed) ∨
      ∃ b, failed env run ⟨some (id, row), false, steps⟩ e mid = (.ok (), ⟨mid.committed, b⟩) ∧ Leaves env w run s b := by
    intro steps e hnot
    rcases failed_cases ⟨some (id, row), false, steps⟩ e mid with hraises | ⟨b, hrun, hrecorded⟩
    · exact Or.inl hraises
    · exact Or.inr ⟨b, hrun, .undelivered p id row mid steps hgets hissued hnot hrecorded⟩
  unfold push
  rw [Tx.get_bind]
  cases hchain : chainPem env mid.work row with
  | error e =>
    refine hnot _ e ?_
    rintro ⟨chain, _, _, hok, -⟩
    cases hchain.symm.trans hok
  | ok chain =>
  dsimp only
  rcases hinstall : w.install p.target p.params row chain with ⟨added, e | updates⟩
  · refine hnot _ (.other e) ?_
    rintro ⟨chain', _, _, hok, hinstalls⟩
    obtain rfl := Except.ok.inj (hchain.symm.trans hok)
    cases hinstall.symm.trans hinstalls
  have hinstalls : Installs env w p row mid := ⟨chain, added, updates, hchain, hinstall⟩
  -- the installation's parameters and status are set, its pointer is not
  have hset : ∀ f : Installation → Installation, setRow env Col.installations run.instId f mid =
      (.ok (), ⟨mid.committed, { mid.work with
        installations := mid.work.installations.update run.instId fun i => flushed env.st i (f i) }⟩) := fun f => rfl
  dsimp only
  rw [Tx.bind_ok (hset _)]
  cases hvalidate : validate w run row with
  | error e =>
    have hunserved : ¬ Served w run row := by
      rintro ⟨v, hv⟩
      cases hvalidate.symm.trans hv
    rcases failed_cases ⟨some (id, row), true, _⟩ e ⟨mid.committed, { mid.work with
      installations := mid.work.installations.update run.instId _ }⟩ with hraises | ⟨b, hrun, hrecorded⟩
    · exact Or.inl hraises
    · right
      have hcertificates := hrecorded.certificates
      rw [tidied_installed rfl] at hcertificates
      exact ⟨b, hrun, .unserved p id row mid hgets hissued hinstalls hunserved hcertificates
        (hrecorded.closed.after_push fun i => flushed_certificateId _ _ _)⟩
  | ok v =>
    right
    obtain ⟨b, hrun, hretired, hclosed⟩ := finished_run env run (id, row) v.2 _
      ⟨mid.committed, { mid.work with installations := mid.work.installations.update run.instId _ }⟩
    refine ⟨b, hrun, .succeeded p id row mid hgets hissued hinstalls ⟨v, hvalidate⟩ ?_
      (hclosed.after_push fun i => flushed_certificateId _ _ _)⟩
    exact ⟨hretired.pointed, hretired.others, hretired.next, hretired.ended⟩

/-- how a run ends -/
theorem attempted_cases (env : Env) (w : Drivers) (run : Run) (s : Session Db) :
    (∃ e s', attempted env w run s = (.error e, s') ∧ (s'.committed = s.committed ∨ Still s.work s'.committed)) ∨
      ∃ s', attempted env w run s = (.ok (), s') ∧ Leaves env w run s s'.work := by
  unfold attempted
  cases hprepare : prepare env w run with
  | error e =>
    rcases failed_cases ⟨none, false, []⟩ e s with ⟨c, s', hrun, hcommitted⟩ | ⟨b, hrun, hrecorded⟩
    · exact Or.inl ⟨_, s', hrun, Or.inl hcommitted⟩
    · exact Or.inr ⟨_, hrun, .unprepared e hprepare hrecorded⟩
  | ok p =>
  dsimp only
  rcases issueNow_cases env run p.csrPem s with ⟨id, row, mid, hissue, hissued⟩ | ⟨e, mid, hissue, hleft⟩
  · rw [Tx.bind_ok (Tx.attempt_run _ _), hissue]
    rcases push_cases ⟨hprepare, hissue⟩ hissued with ⟨c, s', hrun, hcommitted⟩ | ⟨b, hrun, hleaves⟩
    · exact Or.inl ⟨_, s', hrun, Or.inl (hcommitted.trans hissued.committed)⟩
    · exact Or.inr ⟨_, hrun, hleaves⟩
  · rw [Tx.bind_ok (Tx.attempt_run _ _), hissue]
    rcases failed_cases ⟨none, false, p.steps⟩ e mid with ⟨c, s', hrun, hcommitted⟩ | ⟨b, hrun, hrecorded⟩
    · refine Or.inl ⟨_, s', hrun, ?_⟩
      rcases hleft with hstill | ⟨-, hhanded, -⟩
      · rw [hcommitted]
        exact hstill.1
      · exact Or.inl (hcommitted.trans hhanded)
    · exact Or.inr ⟨_, hrun, .refused p e mid hprepare hissue hrecorded⟩

end Attempt

end Certadillo.Provisioning
