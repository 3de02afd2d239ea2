/-
Provisioning runs with a central key that fail before the certificate is installed: the key is gone with the run.

A certificate that was issued is revoked. A request that the policy hands on, to an approver or to the gateway, stays.

- `failed_leaves_nothing_iff`: such a run leaves no active certificate, no pending approval and no open gateway job iff its
  request was not handed on.
- `approval_left`: the app's profile needs an approval by now, and the run leaves one pending for a key nobody holds.
-/
import Certadillo.Services.LiveCertificates

namespace Certadillo.Provisioning

open Integrity Policy Py Platform

/-! ## What a run is about to request -/

/-- the request of a run for its CSR -/
def pushRequest (csrPem : String) : CertRequest := ⟨some csrPem, none, none, none, "push", none, false, none⟩

/-- The request is decided, but not on the spot: it needs an approval, or the profile's certificates come from the gateway. -/
def HandsOn (env : Env) (w : Drivers) (instId : ℕ) (inst : Installation) (actorName trigger : String) (d : Db) : Prop :=
  ∃ p app csr decision, prepare env w (runOf d instId inst actorName trigger) = .ok p ∧
    DecidedFor env (begun d instId actorName trigger).work (actorOf instId inst.appId) inst.appId (pushRequest p.csrPem) app csr
      decision ∧
    (decision.dualControl = true ∨ (isAdcs env app.profile = true ∧ p.csrPem ≠ ""))

/-- nothing that certifies the discarded key, or would: the key is younger than everything that was there before the run -/
structure LeavesNothing (d d' : Db) : Prop where
  certificates : ∀ id, Active d' id → Active d id
  approvals : ∀ id req, d'.approvals.get id = some req → req.status = .pending → d.approvals.get id = some req
  jobs : ∀ id job, d'.jobs.get id = some job → job.jobType = .issue → job.status = .pending ∨ job.status = .claimed →
    d.jobs.get id = some job

/-- the installation's run fails before the certificate is installed, and returns; where it revokes, that succeeds -/
structure FailsBefore (env : Env) (w : Drivers) (instId : ℕ) (inst : Installation) (actorName trigger : String) (d : Db) :
    Prop where
  found : d.installations.get instId = some inst
  central : inst.keyLocation = "central"
  returns : ∃ runId, (Tx.transact (provision env w instId actorName trigger) d).1 = .ok runId
  notInstalled : ∀ p id row mid, Gets env w (runOf d instId inst actorName trigger) (begun d instId actorName trigger) p id row mid →
    ¬ Installs env w p row mid
  revokes : ∀ p id row mid, Gets env w (runOf d instId inst actorName trigger) (begun d instId actorName trigger) p id row mid →
    Tx.Returns (revoke env (actorOf instId inst.appId) id "cessation_of_operation" none) mid

/-- a new key: no open job is for its request -/
def FreshKey (env : Env) (w : Drivers) (inst : Installation) (d : Db) : Prop :=
  ∀ csrPem, w.centralCsr inst = .ok csrPem → ∀ id job, d.jobs.get id = some job → ¬ QueuedFor env inst.appId csrPem job

section Run

variable {env : Env} {w : Drivers} {instId : ℕ} {inst : Installation} {actorName trigger : String} {d : Db}

/-- the CSR of a central key comes from the key generation -/
theorem prepare_central {run : Run} {p : Prepared} (h : prepare env w run = .ok p) (hcentral : run.inst.keyLocation = "central") :
    w.centralCsr run.inst = .ok p.csrPem := by
  unfold prepare at h
  split at h
  · cases h
  · split at h
    · cases h
    · cases h
  · split at h
    · cases h
    split at h
    · cases h
    obtain ⟨params, -, h⟩ := except_bind_ok.1 h
    extract_lets -underBinder kind at h
    obtain ⟨csrPem, hcsr, h⟩ := except_bind_ok.1 h
    cases h
    exact libCall_ok hcsr

/-- a revocation that returns leaves the row revoked -/
theorem revoked_not_active {actor : Actor} {id : ℕ} {reason : String} {mid : Session Db}
    (h : Tx.Returns (revoke env actor id reason none) mid) : ¬ Active (revoke env actor id reason none mid).2.work id := by
  obtain ⟨u, s', hrun⟩ := h
  obtain ⟨row, hstored, ⟨f, hcertificates, -, -, hst⟩, -, -⟩ := Revocation.revoke_ok hrun
  rw [hrun]
  rintro ⟨c, hget, hactive⟩
  have hrow : s'.work.certificates.get id = some (f row) := by
    rw [hcertificates, Table.get_update_self, hstored]
    rfl
  obtain rfl := Option.some.inj (hget.symm.trans hrow)
  rw [hst] at hactive
  cases hactive

/-- handing on raises nothing -/
theorem fulfil_handsOn {actor : Actor} {appId : ℕ} {app : App} {csr : Csr} {decision : Decision} {csrPem : String}
    {s : Session Db} (hon : decision.dualControl = true ∨ (isAdcs env app.profile = true ∧ csrPem ≠ "")) {e : Err}
    {s' : Session Db} : fulfil env actor appId app app.profile csr decision (pushRequest csrPem) s ≠ (.error e, s') := by
  intro hraises
  unfold fulfil at hraises
  cases hdual : decision.dualControl with
  | true =>
    rw [if_pos hdual] at hraises
    cases hraises
  | false =>
    obtain ⟨hadcs, hne⟩ := hon.resolve_left (by rw [hdual]; decide)
    have hpem : (pushRequest csrPem).csrPem.filter (· ≠ "") = some csrPem := by
      simpa [pushRequest] using hne
    rw [if_neg (by rw [hdual]; decide), if_pos hadcs] at hraises
    unfold enqueueAdcsIssue at hraises
    rw [hpem] at hraises
    obtain ⟨id, b, hrun, -⟩ := enqueueIssue_cases env appId decision.profile csrPem
      ((env.policies.profiles.lookup decision.profile).bind (·.adcsCa))
      ((env.policies.profiles.lookup decision.profile).bind (·.adcsTemplate)) actor.name s
    dsimp only at hraises
    rw [Tx.bind_run, Tx.bind_run, hrun] at hraises
    cases hraises

/-- the run has its answer: it is handed on -/
theorem handsOn_issue {run : Run} {p : Prepared} {s : Session Db} {app : App} {csr : Csr} {decision : Decision}
    (hdecided : DecidedFor env s.work (actorOf run.instId run.inst.appId) run.inst.appId (pushRequest p.csrPem) app csr decision)
    (hon : decision.dualControl = true ∨ (isAdcs env app.profile = true ∧ p.csrPem ≠ "")) :
    ∃ e mid out, issueNow env run p.csrPem s = (.error e, mid) ∧ (∀ id, out ≠ .certificate id) ∧
      Fulfilled env run.inst.appId (pushRequest p.csrPem) s.work mid.work out := by
  have hrequest := request_decided rfl hdecided
  rcases @fulfil_cases env run.inst.appId app (actorOf run.instId run.inst.appId) (pushRequest p.csrPem) csr decision s
    with ⟨e, hraises⟩ | ⟨out, b, hfulfil, hfulfilled, hway⟩
  · exact absurd hraises (fulfil_handsOn hon)
  have hout : ∀ id, out ≠ .certificate id := by
    rintro id rfl
    obtain ⟨hdual, hadcs⟩ := hway
    rcases hon with hdual' | ⟨hadcs', -⟩
    · cases hdual.symm.trans hdual'
    · cases hadcs.symm.trans hadcs'
  have hrun : requestCertificate env (actorOf run.instId run.inst.appId) run.inst.appId (pushRequest p.csrPem) s =
      (.ok out, ⟨s.committed, b⟩) := hrequest.trans hfulfil
  refine ⟨.other "the profile did not issue on the spot (approval or gateway required)", ⟨s.committed, b⟩, out,
    (Tx.bind_ok hrun).trans ?_, hout, hfulfilled⟩
  cases out with
  | certificate id => exact absurd rfl (hout id)
  | approval id => rfl
  | job id => rfl

/-- what a run leaves that was refused by then -/
theorem refused_leaves {p : Prepared} {e : Err} {mid : Session Db} {b : Db}
    (hissue : issueNow env (runOf d instId inst actorName trigger) p.csrPem (begun d instId actorName trigger) = (.error e, mid))
    (hrecorded : Recorded env (runOf d instId inst actorName trigger) ⟨none, false, p.steps⟩ mid b) :
    b.certificates = d.certificates ∧ b.approvals = mid.work.approvals ∧ b.jobs = mid.work.jobs := by
  obtain ⟨hclosed, hcertificates, hjobs⟩ := hrecorded
  exact ⟨hcertificates.trans (refused_same hissue).1, hclosed.approvals, hjobs⟩

variable (h : FailsBefore env w instId inst actorName trigger d)

include h

/-- a run that hands its request on leaves what it handed on -/
theorem handsOn_left (hfresh : FreshKey env w inst d) (hon : HandsOn env w instId inst actorName trigger d) :
    ¬ LeavesNothing d (Tx.transact (provision env w instId actorName trigger) d).2 := by
  intro hnothing
  obtain ⟨p, app, csr, decision, hprepare, hdecided, hon⟩ := hon
  obtain ⟨e, mid, out, hissue, hout, hfulfilled⟩ :=
    @handsOn_issue env (runOf d instId inst actorName trigger) p _ app csr decision hdecided hon
  obtain ⟨runId, hreturns⟩ := h.returns
  rcases @provision_cases env w instId inst actorName trigger d h.found with ⟨e', hraised, -⟩ | ⟨-, hleaves⟩
  · cases hraised.symm.trans hreturns
  cases hleaves with
  | unprepared e' hraises _ => cases hprepare.symm.trans hraises
  | refused p' e' mid' hprepare' hissue' hrecorded =>
    obtain rfl := Except.ok.inj (hprepare.symm.trans hprepare')
    obtain ⟨-, rfl⟩ := Prod.mk.inj (hissue.symm.trans hissue')
    obtain ⟨-, happrovals, hjobs⟩ := refused_leaves hissue hrecorded
    cases out with
    | certificate id => exact absurd rfl (hout id)
    | approval id =>
      obtain ⟨hnew, ⟨req, hget, hst⟩, -⟩ := hfulfilled
      have hbefore := hnothing.approvals id req ((congrArg (·.get id) happrovals).trans hget) hst
      cases hbefore.symm.trans hnew
    | job id =>
      obtain ⟨⟨job, pem, hget, hpem, -, hqueued⟩, -⟩ := hfulfilled
      obtain rfl := Option.some.inj hpem
      have hbefore := hnothing.jobs id job ((congrArg (·.get id) hjobs).trans hget) hqueued.1 hqueued.2.2.2
      exact hfresh _ (prepare_central hprepare h.central) id job hbefore hqueued
  | undelivered p' id row mid' steps hgets _ _ _ =>
    obtain rfl := Except.ok.inj (hprepare.symm.trans hgets.prepared)
    cases hissue.symm.trans hgets.issued
  | unserved p' id row mid' hgets _ _ _ _ _ =>
    obtain rfl := Except.ok.inj (hprepare.symm.trans hgets.prepared)
    cases hissue.symm.trans hgets.issued
  | succeeded p' id row mid' hgets _ _ _ _ _ =>
    obtain rfl := Except.ok.inj (hprepare.symm.trans hgets.prepared)
    cases hissue.symm.trans hgets.issued

/-- a run that hands nothing on leaves nothing -/
theorem nothing_left (hon : ¬ HandsOn env w instId inst actorName trigger d) :
    LeavesNothing d (Tx.transact (provision env w instId actorName trigger) d).2 := by
  obtain ⟨runId, hreturns⟩ := h.returns
  rcases @provision_cases env w instId inst actorName trigger d h.found with ⟨e', hraised, -⟩ | ⟨-, hleaves⟩
  · cases hraised.symm.trans hreturns
  generalize (Tx.transact (provision env w instId actorName trigger) d).2 = b at hleaves
  cases hleaves with
  | unprepared e hraises hrecorded =>
    obtain ⟨hclosed, hcertificates, hjobs⟩ := hrecorded
    refine ⟨fun id hid => (active_congr (congrArg (·.get id) hcertificates)).1 hid, fun id req hget _ => ?_,
      fun id job hget _ _ => ?_⟩
    · exact (congrArg (·.get id) hclosed.approvals).symm.trans hget
    · exact (congrArg (·.get id) hjobs).symm.trans hget
  | refused p e mid hprepare hissue hrecorded =>
    obtain ⟨hcertificates, happrovals, hjobs⟩ := refused_leaves hissue hrecorded
    have hstill : Still (begun d instId actorName trigger).work mid.work := by
      rcases issueNow_cases env (runOf d instId inst actorName trigger) p.csrPem (begun d instId actorName trigger) with
        ⟨id, row, s₁, hrun, -⟩ | ⟨e', s₁, hrun, hleft⟩
      · cases hissue.symm.trans hrun
      obtain ⟨-, rfl⟩ := Prod.mk.inj (hissue.symm.trans hrun)
      rcases hleft with hstill | ⟨-, -, app, csr, decision, out, hway, hout, hdecided, hfulfilled⟩
      · exact hstill.2
      refine absurd ⟨p, app, csr, decision, hprepare, hdecided, ?_⟩ hon
      cases out with
      | certificate id => exact absurd rfl (hout id)
      | approval id => exact Or.inl hway
      | job id =>
        obtain ⟨⟨job, pem, -, hpem, hne, -⟩, -⟩ := hfulfilled
        obtain rfl := Option.some.inj hpem
        exact Or.inr ⟨hway.2, hne⟩
    refine ⟨fun id hid => (active_congr (congrArg (·.get id) hcertificates)).1 hid, fun id req hget _ => ?_,
      fun id job hget _ _ => ?_⟩
    · exact (congrArg (·.get id) (happrovals.trans hstill.approvals)).symm.trans hget
    · exact (congrArg (·.get id) (hjobs.trans hstill.jobs)).symm.trans hget
  | undelivered p id row mid steps hgets hissued hnot hrecorded =>
    obtain ⟨hclosed, hcertificates, hjobs⟩ := hrecorded
    obtain ⟨-, hrevoked⟩ := @tidied_revoke env _ _ _ _ _ hissued steps
    have haside : Aside id mid.work (tidied env (runOf d instId inst actorName trigger) ⟨some (id, row), false, steps⟩ mid) :=
      tidied_aside rfl
    refine ⟨fun i hi => ?_, fun i req hget _ => ?_, fun i job hget htype _ => ?_⟩
    · have hi := (active_congr (congrArg (·.get i) hcertificates)).1 hi
      by_cases hid : i = id
      · subst hid
        rw [hrevoked] at hi
        exact absurd hi (revoked_not_active (h.revokes p i row mid hgets))
      · exact (active_congr ((haside.others i hid).trans (hissued.new.others i hid))).1 hi
    · exact (congrArg (·.get i) (hclosed.approvals.trans hissued.new.approvals)).symm.trans hget
    · rw [hjobs] at hget
      rcases haside.jobs i job hget with hbefore | hrevoke
      · exact (congrArg (·.get i) hissued.new.jobs).symm.trans hbefore
      · cases htype.symm.trans hrevoke
  | unserved p id row mid hgets _ hinstalls _ _ _ => exact absurd hinstalls (h.notInstalled p id row mid hgets)
  | succeeded p id row mid hgets _ hinstalls _ _ _ => exact absurd hinstalls (h.notInstalled p id row mid hgets)

/-- **What a failed run leaves.** A run with a central key that fails before the installation leaves no active certificate, no
pending approval and no open gateway job for the discarded key, iff its request was not handed on. -/
theorem failed_leaves_nothing_iff (hfresh : FreshKey env w inst d) :
    LeavesNothing d (Tx.transact (provision env w instId actorName trigger) d).2 ↔
      ¬ HandsOn env w instId inst actorName trigger d :=
  ⟨fun hnothing hon => handsOn_left h hfresh hon hnothing, nothing_left h⟩

end Run

/-! ### An approval nobody can use -/

section Examples

/-- the installation as it is stored -/
def storedInstallation : Installation := inserted demoState (webInstallation "central")

/-- the target refuses what is pushed to it -/
def refuses : Drivers := { takes true with install := fun _ _ _ _ => (["connected"], .error "permission denied") }

/-- issuing a certificate of the profile needs an approval by now -/
def approvalEnv : Env :=
  { demoEnv with policies := ⟨[("web", { demoWeb with dualControl := true })], "corp.example", []⟩ }

theorem refuses_notInstalled {env : Env} {p : Prepared} {row : Certificate} {mid : Session Db} :
    ¬ Installs env refuses p row mid := by
  rintro ⟨chain, added, updates, -, hinstall⟩
  cases hinstall

theorem no_jobs {env : Env} {w : Drivers} : FreshKey env w storedInstallation installationDb := by
  intro csrPem _ id job hget
  cases hget

/-- the run on `installationDb` -/
def demoRun : Run := runOf installationDb 1 storedInstallation "system" "renewal"

/-- the answer to the request of the run -/
def answer (env : Env) : Except Err (Except Err (ℕ × Certificate) × Session Db) :=
  (prepare env refuses demoRun).map fun p => issueNow env demoRun p.csrPem (begun installationDb 1 "system" "renewal")

/-- a certificate is issued, and it can be revoked -/
def revocable (env : Env) : Bool :=
  match answer env with
  | .ok (.ok (id, _), mid) => decide (Tx.Returns (revoke env (actorOf 1 1) id "cessation_of_operation" none) mid)
  | _ => false

theorem answer_prepared {env : Env} {p : Prepared} (h : prepare env refuses demoRun = .ok p) :
    answer env = .ok (issueNow env demoRun p.csrPem (begun installationDb 1 "system" "renewal")) := by
  unfold answer
  rw [h]
  rfl

theorem answer_gets {env : Env} {p : Prepared} {id : ℕ} {row : Certificate} {mid : Session Db}
    (h : Gets env refuses demoRun (begun installationDb 1 "system" "renewal") p id row mid) :
    answer env = .ok (.ok (id, row), mid) := by
  rw [answer_prepared h.prepared, h.issued]

/-- a certificate is issued, the target refuses it, and it is revoked -/
theorem refused_fails : FailsBefore demoEnv refuses 1 storedInstallation "system" "renewal" installationDb where
  found := rfl
  central := rfl
  returns := ⟨1, by decide +kernel⟩
  notInstalled _ _ _ _ _ := refuses_notInstalled
  revokes p id row mid hgets := by
    have h : revocable demoEnv = true := by decide +kernel
    unfold revocable at h
    rw [answer_gets hgets] at h
    exact of_decide_eq_true h

/-- nothing usable is left of it -/
theorem refused_leaves_nothing :
    LeavesNothing installationDb (Tx.transact (provision demoEnv refuses 1 "system" "renewal") installationDb).2 := by
  refine (failed_leaves_nothing_iff refused_fails no_jobs).2 ?_
  rintro ⟨p, app, csr, decision, hprepare, hdecided, hon⟩
  obtain ⟨e, mid, out, hissue, -⟩ := @handsOn_issue _ demoRun p _ app csr decision hdecided hon
  have h : revocable demoEnv = true := by decide +kernel
  unfold revocable at h
  rw [answer_prepared hprepare, hissue] at h
  cases h

/-- the request asks for an approval, and the run fails -/
theorem approval_fails : FailsBefore approvalEnv refuses 1 storedInstallation "system" "renewal" installationDb where
  found := rfl
  central := rfl
  returns := ⟨1, by decide +kernel⟩
  notInstalled _ _ _ _ _ := refuses_notInstalled
  revokes p id row mid hgets := by
    have h : (answer approvalEnv).toOption.map (fun r => r.1.isOk) = some false := by decide +kernel
    rw [answer_gets hgets] at h
    cases h

/-- The approval stays pending, for a key nobody holds. -/
theorem approval_left :
    ¬ ∀ (env : Env) (w : Drivers) (instId : ℕ) (inst : Installation) (actorName trigger : String) (d : Db),
      FailsBefore env w instId inst actorName trigger d → FreshKey env w inst d →
        LeavesNothing d (Tx.transact (provision env w instId actorName trigger) d).2 := by
  intro h
  have hnothing := h approvalEnv refuses 1 storedInstallation "system" "renewal" installationDb approval_fails no_jobs
  have hpending : ((Tx.transact (provision approvalEnv refuses 1 "system" "renewal") installationDb).2.approvals.get 1).map
      (·.status) = some .pending := by decide +kernel
  obtain ⟨req, hget, hst⟩ := Option.map_eq_some_iff.1 hpending
  cases hnothing.approvals 1 req hget hst

end Examples

end Certadillo.Provisioning
