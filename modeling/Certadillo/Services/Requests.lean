/-
What a request for a certificate leaves, on each way through it, and what a revocation writes.

- `sign_cases`, `enqueueIssue_cases`: a certificate is signed, or its signing is queued.
- `fulfil_cases`: what is done with a decision, on each of its three ways.
- `raisesStill_request`: a request that raises has written nothing but its rejection.
- `request_returned`, `request_decided`: a request returns iff it is decided and the decision is carried out.
- `calm_revoke_of`: the writes of a revocation.
-/
import Certadillo.Services.Signed

namespace Certadillo.Platform

open Integrity Policy Py

/-! ## Certificates, approvals and jobs -/

/-- nothing is written to these tables -/
structure Still (a b : Db) : Prop where
  certificates : b.certificates = a.certificates
  installations : b.installations = a.installations
  runs : b.provisioningRuns = a.provisioningRuns
  approvals : b.approvals = a.approvals
  jobs : b.jobs = a.jobs

theorem Still.refl (a : Db) : Still a a := ⟨rfl, rfl, rfl, rfl, rfl⟩

theorem Still.trans {a b c : Db} (hab : Still a b) (hbc : Still b c) : Still a c :=
  ⟨hbc.certificates.trans hab.certificates, hbc.installations.trans hab.installations, hbc.runs.trans hab.runs,
    hbc.approvals.trans hab.approvals, hbc.jobs.trans hab.jobs⟩

/-- row `id` is new, and active -/
structure NewCertificate (appId : ℕ) (a b : Db) (id : ℕ) : Prop where
  fresh : id = a.certificates.next
  next : b.certificates.next = a.certificates.next + 1
  row : ∃ c, b.certificates.get id = some c ∧ c.status = .active ∧ c.appId = some appId
  others : ∀ i, i ≠ id → b.certificates.get i = a.certificates.get i
  installations : b.installations = a.installations
  runs : b.provisioningRuns = a.provisioningRuns
  approvals : b.approvals = a.approvals
  jobs : b.jobs = a.jobs

/-- an open issue job of the app for this CSR -/
def QueuedFor (env : Env) (appId : ℕ) (csrPem : String) (j : AdcsJob) : Prop :=
  j.jobType = .issue ∧ j.appId = some appId ∧ j.csrHash = some (env.sha256 (String.ofList (strip csrPem.toList))) ∧
    (j.status = .pending ∨ j.status = .claimed)

/-- the certificate that is replaced is superseded by row `id`, and no other, and the renewal is recorded -/
def Replaced (env : Env) (previous : Option ℕ) (id : ℕ) (a b : Db) : Prop :=
  match previous with
  | none => b = a
  | some prev =>
    (b.certificates = a.certificates.update prev fun c =>
      flushed env.st c { c with status := .superseded, replacedBy := some id }) ∧
    ∃ e : AuditEvent, b.audit = a.audit ++ [e] ∧ e.action = "certificate.renew" ∧
      e.target = ((a.certificates.get prev).map (·.serialHex)).getD ""

/-- what a request leaves where it returns -/
def Fulfilled (env : Env) (appId : ℕ) (r : CertRequest) (a b : Db) : Outcome → Prop
  | .certificate id => ∃ mid, NewCertificate appId a mid id ∧ Replaced env r.previous id mid b
  | .approval id => a.approvals.get id = none ∧ (∃ req, b.approvals.get id = some req ∧ req.status = .pending) ∧
      b.certificates = a.certificates ∧ b.installations = a.installations ∧ b.provisioningRuns = a.provisioningRuns
  | .job id => (∃ j pem, b.jobs.get id = some j ∧ r.csrPem = some pem ∧ pem ≠ "" ∧ QueuedFor env appId pem j) ∧
      b.certificates = a.certificates ∧ b.installations = a.installations ∧ b.provisioningRuns = a.provisioningRuns

/-- the way a decision is carried out -/
def Way (env : Env) (app : App) (decision : Decision) : Outcome → Prop
  | .certificate _ => decision.dualControl = false ∧ isAdcs env app.profile = false
  | .approval _ => decision.dualControl = true
  | .job _ => decision.dualControl = false ∧ isAdcs env app.profile = true

/-! ## Requests -/

section Request

variable {env : Env} {s : Session Db} {appId : ℕ} {app : App} {csr : Csr} {decision : Decision} {actor : Actor} {r : CertRequest}

/-- an INSERT: its unique constraint is broken, or the row is there -/
theorem addRow_run {α : Type} [Sealed α] (env : Env) (c : Col α) (clash : Table α → Option String) (a : α) (s : Session Db) :
    (∃ u, addRow env c clash a s = (.error (.integrity u), s)) ∨
      addRow env c clash a s =
        (.ok (c.get s.work).next, { s with work := c.put s.work ((c.get s.work).insert (inserted env.st a)) }) := by
  unfold addRow
  rw [Tx.get_bind]
  cases clash (c.get s.work) with
  | some u => exact Or.inl ⟨u, rfl⟩
  | none => exact Or.inr rfl

/-- signing raises before it writes, or adds one active certificate -/
theorem sign_cases (env : Env) (csr : Csr) (decision : Decision) (appId : ℕ) (app : App) (protocol : String) (actor : Actor)
    (s : Session Db) :
    (∃ e, sign env csr decision appId app protocol actor s = (.error e, s)) ∨
      ∃ id b, sign env csr decision appId app protocol actor s = (.ok id, ⟨s.committed, b⟩) ∧
        NewCertificate appId s.work b id := by
  unfold sign
  rw [Tx.get_bind]
  cases hrow : signRow env s.work csr decision appId with
  | error e => exact Or.inl ⟨e, rfl⟩
  | ok row =>
    have hsigned := signRow_ok hrow
    rw [lift_ok_bind]
    rcases addRow_run env Col.certificates
      (unique "certificates.fingerprint_sha256" (·.fingerprintSha256) row.fingerprintSha256) row s with ⟨u, hadd⟩ | hadd
    · exact Or.inl ⟨_, Tx.bind_error hadd⟩
    · right
      refine ⟨_, _, (Tx.bind_ok hadd).trans rfl, rfl, rfl, ?_, fun i hi => ?_, rfl, rfl, rfl, rfl⟩
      · obtain ⟨x, hx⟩ := inserted_certificate env.st row
        obtain ⟨y, hy⟩ := flushed_certificate env.st (inserted env.st row) { inserted env.st row with protocol := some protocol }
        refine ⟨_, (Table.get_update_self _ _ _).trans (congrArg _ (Table.get_insert_next _ _)), ?_, ?_⟩
        · show (flushed env.st (inserted env.st row) { inserted env.st row with protocol := some protocol }).status = .active
          rw [hy, hx]
          exact hsigned.active
        · show (flushed env.st (inserted env.st row) { inserted env.st row with protocol := some protocol }).appId = some appId
          rw [hy, hx]
          exact hsigned.owner
      · exact (Table.get_update_of_ne _ _ hi).trans ((Table.get_insert _ _ _).trans (if_neg hi))

/-- an identical open request is found, or the job is queued -/
theorem enqueueIssue_cases (env : Env) (appId : ℕ) (profileName csrPem : String) (ca tmpl : Option String)
    (requestedBy : String) (s : Session Db) :
    ∃ id b, enqueueIssue env appId profileName csrPem ca tmpl requestedBy s = (.ok id, ⟨s.committed, b⟩) ∧
      (∃ j, b.jobs.get id = some j ∧ QueuedFor env appId csrPem j) ∧ b.certificates = s.work.certificates ∧
        b.installations = s.work.installations ∧ b.provisioningRuns = s.work.provisioningRuns := by
  unfold enqueueIssue
  rw [Tx.get_bind]
  cases hfirst : s.work.jobs.first fun j => j.jobType = .issue && j.appId = some appId &&
      j.csrHash = some (env.sha256 (String.ofList (strip csrPem.toList))) && (j.status = .pending || j.status = .claimed) with
  | some p =>
    obtain ⟨hget, hopen⟩ := Table.first_some hfirst
    refine ⟨p.1, s.work, rfl, ⟨p.2, hget, ?_⟩, rfl, rfl, rfl⟩
    simpa [QueuedFor, and_assoc] using hopen
  | none => exact ⟨s.work.jobs.next, _, rfl, ⟨_, Table.get_insert_next _ _, rfl, rfl, rfl, Or.inl rfl⟩, rfl, rfl, rfl⟩

/-- what is done with a decision: nothing, and it raises, or one of the three ways -/
theorem fulfil_cases (csr : Csr) (decision : Decision) (s : Session Db) :
    (∃ e, fulfil env actor appId app app.profile csr decision r s = (.error e, s)) ∨
      ∃ out b, fulfil env actor appId app app.profile csr decision r s = (.ok out, ⟨s.committed, b⟩) ∧
        Fulfilled env appId r s.work b out ∧ Way env app decision out := by
  unfold fulfil
  cases hdual : decision.dualControl with
  | true =>
    right
    rw [if_pos rfl]
    refine ⟨.approval s.work.approvals.next, _, rfl, ⟨Table.get_next _, ⟨_, Table.get_insert_next _ _, ?_⟩, rfl, rfl, rfl⟩,
      hdual⟩
    obtain ⟨x, hx⟩ := inserted_approval env.st
      ⟨.issueCertificate, .obj (issuePayload env appId app.profile r), actor.name, .pending, none, none, none, none⟩
    exact congrArg ApprovalRequest.status hx
  | false =>
    rw [if_neg nofun]
    cases hadcs : isAdcs env app.profile with
    | true =>
      rw [if_pos rfl]
      unfold enqueueAdcsIssue
      cases hpem : r.csrPem.filter (· ≠ "") with
      | none => exact Or.inl ⟨_, rfl⟩
      | some pem =>
        right
        obtain ⟨hcsr, hne⟩ := Option.filter_eq_some_iff.1 hpem
        obtain ⟨id, b, hrun, hqueued⟩ := enqueueIssue_cases env appId decision.profile pem
          ((env.policies.profiles.lookup decision.profile).bind (·.adcsCa))
          ((env.policies.profiles.lookup decision.profile).bind (·.adcsTemplate)) actor.name s
        have hrecorded : ∃ audit, (do
            record env actor.name "adcs.job.issue" s!"job:{id}"
              [("app", .str app.name), ("profile", .str decision.profile),
                ("template", .ofStr? ((env.policies.profiles.lookup decision.profile).bind (·.adcsTemplate)))]
            pure id : M ℕ) ⟨s.committed, b⟩ = (.ok id, ⟨s.committed, { b with audit := audit }⟩) := ⟨_, rfl⟩
        obtain ⟨audit, hrecorded⟩ := hrecorded
        refine ⟨.job id, { b with audit := audit }, Tx.bind_ok ((Tx.bind_ok hrun).trans hrecorded), ⟨?_, hqueued.2⟩, hdual,
          hadcs⟩
        obtain ⟨j, hget, hfor⟩ := hqueued.1
        exact ⟨j, pem, hget, hcsr, of_decide_eq_true hne, hfor⟩
    | false =>
      rw [if_neg nofun]
      rcases sign_cases env csr decision appId app r.protocol actor s with ⟨e, hsign⟩ | ⟨id, b, hsign, hnew⟩
      · exact Or.inl ⟨e, Tx.bind_error hsign⟩
      · right
        cases hprev : r.previous with
        | none =>
          refine ⟨.certificate id, b, Tx.bind_ok hsign, ⟨b, hnew, ?_⟩, hdual, hadcs⟩
          rw [hprev]
          rfl
        | some prev =>
          refine ⟨.certificate id, _, (Tx.bind_ok hsign).trans rfl, ⟨b, hnew, ?_⟩, hdual, hadcs⟩
          rw [hprev]
          exact ⟨rfl, _, rfl, rfl, rfl⟩

/-- these tables are as in `s₀`, committed with what it holds or not -/
def StillSession (s₀ s : Session Db) : Prop :=
  (s.committed = s₀.committed ∨ Still s₀.work s.committed) ∧ Still s₀.work s.work

/-- where `m` raises, it has written nothing to these tables -/
def RaisesStill {α : Type} (s₀ : Session Db) (m : M α) (s : Session Db) : Prop :=
  ∀ e s', m s = (.error e, s') → StillSession s₀ s'

section Raises

variable {α β : Type} {s₀ : Session Db}

theorem raisesStill_bind {m : M α} {f : α → M β} (hm : RaisesStill s₀ m s)
    (hf : ∀ a s', m s = (.ok a, s') → RaisesStill s₀ (f a) s') : RaisesStill s₀ (m >>= f) s := by
  intro e s'' h
  rw [Tx.bind_run] at h
  rcases hms : m s with ⟨e' | a, s'⟩
  · rw [hms] at h
    cases h
    exact hm e s'' hms
  · rw [hms] at h
    exact hf a s' hms e s'' h

theorem raisesStill_lift_bind {x : Except Err α} {f : α → M β} (hs : StillSession s₀ s)
    (hf : ∀ a, x = .ok a → RaisesStill s₀ (f a) s) : RaisesStill s₀ (lift x >>= f) s := by
  refine raisesStill_bind ?_ fun a s' h => ?_
  · intro e s' h
    obtain ⟨-, rfl⟩ := Prod.mk.inj h
    exact hs
  · obtain ⟨hx, rfl⟩ := Prod.mk.inj h
    exact hf a hx

/-- a rejection is committed with its audit event -/
theorem still_rejected (hs : StillSession s₀ s) (audit : List AuditEvent) :
    StillSession s₀ ⟨{ s.work with audit := audit }, { s.work with audit := audit }⟩ := by
  have hstill : Still s₀.work { s.work with audit := audit } := hs.2.trans ⟨rfl, rfl, rfl, rfl, rfl⟩
  exact ⟨Or.inr hstill, hstill⟩

theorem raisesStill_reject (hs : StillSession s₀ s) (profileName protocol : String) (v : Violations) :
    RaisesStill s₀ (rejectRequest env actor app profileName protocol v : M α) s := by
  intro e s' h
  cases h
  exact still_rejected hs _

theorem raisesStill_decideLogon (hs : StillSession s₀ s) (decision : Decision) (protocol : String) :
    RaisesStill s₀ (decideLogon env decision app protocol) s := by
  intro e s' h
  unfold decideLogon applyLogonSid at h
  split at h
  · cases h
  cases hanswer : logonAnswer env decision with
  | unconfigured =>
    rw [hanswer] at h
    cases h
    exact hs
  | refused v =>
    rw [hanswer] at h
    cases h
    exact still_rejected hs _
  | account account =>
    rw [hanswer] at h
    cases h

theorem raisesStill_request (hs : StillSession s₀ s) :
    RaisesStill s₀ (requestCertificate env actor appId r) s := by
  unfold requestCertificate
  refine raisesStill_bind (fun e s' h => nomatch h) fun d' s' h => ?_
  obtain ⟨rfl, rfl⟩ : d' = s.work ∧ s = s' := by
    obtain ⟨hd, rfl⟩ := Prod.mk.inj h
    exact ⟨(Except.ok.inj hd).symm, rfl⟩
  refine raisesStill_lift_bind hs fun app _ => ?_
  dsimp only
  split
  · exact raisesStill_reject hs _ _ _
  next hprofile =>
  rw [not_not.1 hprofile]
  refine raisesStill_lift_bind hs fun csr _ => raisesStill_lift_bind hs fun prevFp _ => ?_
  split
  · exact raisesStill_reject hs _ _ _
  · intro e s' h
    cases h
    exact hs
  · refine raisesStill_bind (raisesStill_decideLogon hs _ _) fun decision s' h => ?_
    obtain ⟨-, rfl⟩ := decideLogon_ok.1 h
    intro e s'' h
    rcases @fulfil_cases env appId app actor r csr decision s' with ⟨e', hrun⟩ | ⟨out, b, hrun, -⟩
    · rw [hrun] at h
      cases h
      exact hs
    · rw [hrun] at h
      cases h

end Raises

/-- a request that returns was decided, and the decision was carried out -/
theorem request_returned {out : Outcome} {s' : Session Db}
    (h : requestCertificate env actor appId r s = (.ok out, s')) :
    ∃ app csr decision, DecidedFor env s.work actor appId r app csr decision ∧ Way env app decision out ∧
      s'.committed = s.committed ∧ Fulfilled env appId r s.work s'.work out := by
  obtain ⟨app, csr, decision, hdecided, hfulfil⟩ := requestCertificate_decided h
  rcases fulfil_cases csr decision s with ⟨e, hrun⟩ | ⟨out', b, hrun, hfulfilled, hway⟩
  · rw [hrun] at hfulfil
    cases hfulfil
  · rw [hrun] at hfulfil
    cases hfulfil
    exact ⟨app, csr, decision, hdecided, hway, rfl, hfulfilled⟩

/-- a decided request is carried out -/
theorem request_decided (hprofile : r.profile = none) {app : App} {csr : Csr} {decision : Decision}
    (h : DecidedFor env s.work actor appId r app csr decision) :
    requestCertificate env actor appId r s = fulfil env actor appId app app.profile csr decision r s := by
  obtain ⟨hallowed, hrequested, prevFp, first, hfp, heval, hlogon⟩ := h
  unfold requestCertificate
  rw [Tx.get_bind, hallowed, lift_ok_bind]
  simp only [hprofile, Option.filter_none, Option.getD_none]
  rw [if_neg (not_not.2 rfl), hrequested, lift_ok_bind, hfp, lift_ok_bind, heval]
  exact Tx.bind_ok (decideLogon_ok.2 ⟨hlogon, rfl⟩)

end Request

/-! ## Revocations -/

/-- a revocation marks its row, and queues a job, writes CRLs and records the event -/
theorem calm_revoke_of {env : Env} {W : Db → Db → Prop} {id : ℕ} {reason : String}
    (hmark : ∀ d, W d { d with certificates := d.certificates.update id fun c => flushed env.st c (markRevoked env reason c) })
    (hjob : ∀ d (job : AdcsJob), job.jobType = .revoke → W d { d with jobs := d.jobs.insert job })
    (hcas : ∀ d t, W d { d with cas := t }) (haudit : ∀ d t, W d { d with audit := t }) (actor : Actor)
    (changeRef : Option String) : Tx.Calm W (revoke env actor id reason changeRef) := by
  unfold revoke
  refine Tx.calm_get_bind fun d => Tx.calm_ofExcept_bind fun row _ => ?_
  extract_lets -underBinder upstream
  have hevent : Tx.Calm W (record env actor.name "certificate.revoke" row.serialHex
      [("reason", .str reason), ("change_ref", .ofStr? changeRef)]) := Tx.calm_modify fun d => haudit d _
  have hset : Tx.Calm W (setRow env Col.certificates id (markRevoked env reason)) := Tx.calm_modify hmark
  split
  · refine Tx.calm_bind ?_ fun _ => Tx.calm_bind hset fun _ => hevent
    exact Tx.calm_get_bind fun d => Tx.calm_bind (Tx.calm_modify fun d => hjob d _ rfl) fun _ => Tx.calm_pure _
  split
  · split
    · exact Tx.calm_bind (Tx.calm_throw _) fun _ => hevent
    · exact Tx.calm_ofExcept_bind fun _ _ => Tx.calm_bind hset fun _ => hevent
  · refine Tx.calm_bind ?_ fun _ => ?_
    · unfold CAService.revoke
      refine Tx.calm_ite (fun _ => Tx.calm_throw _) fun _ => Tx.calm_ite (fun _ => Tx.calm_throw _) fun _ => ?_
      exact Tx.calm_ite (fun _ => Tx.calm_pure _) fun _ => hset
    · split
      · exact Tx.calm_bind (Tx.calm_throw _) fun _ => hevent
      · exact Tx.calm_bind (CAService.calm_generateCrl_of hcas _ _) fun _ => hevent

end Certadillo.Platform
