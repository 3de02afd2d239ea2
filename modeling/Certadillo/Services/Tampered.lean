/-
Issuance over tampered rows: which of the rows a request is evaluated against are checked.

`request_certificate` verifies the app's row; `_evaluate` reads the settings of the app's folder and of every folder
above it as they are. Carrying out an approved request verifies neither.

- `requestCertificate_returns`, `execute_returns`: when a request, or an approved one, is served.
- `raises_issues_nothing`, ...: where it raises, no certificate row is added or changed.
- `broken_rows_refused_iff`: broken rows are refused iff no request is served over them.
-/
import Certadillo.Services.Atomic

namespace Certadillo

open Integrity Policy Py
open Tx (Returns returns_bind returns_get_bind CalmAt Calm)

namespace Platform

section Served

variable {env : Env} {α β : Type}

/-! ## What returns -/

theorem returns_lift_bind {s : Session Db} {x : Except Err α} {f : α → M β} :
    Returns (lift x >>= f) s ↔ ∃ a, x = .ok a ∧ Returns (f a) s := Tx.returns_ofExcept_bind

theorem not_returns_raise {s : Session Db} (e : Err) : ¬ Returns (raise e : M α) s := Tx.returns_throw e

/-- the row to sign exists and no stored certificate has its fingerprint -/
def Signs (env : Env) (d : Db) (csr : Csr) (decision : Decision) (appId : ℕ) : Prop :=
  ∃ row, signRow env d csr decision appId = .ok row ∧
    (d.certificates.first fun c => c.fingerprintSha256 = row.fingerprintSha256) = none

theorem addRow_returns [Sealed α] {c : Col α} {clash : Table α → Option String} {a : α} {s : Session Db} :
    Returns (addRow env c clash a) s ↔ clash (c.get s.work) = none := by
  unfold addRow
  rw [returns_get_bind]
  cases clash (c.get s.work) with
  | none => exact iff_of_true (Tx.returns_of_run rfl) rfl
  | some u => exact iff_of_false (not_returns_raise _) (by simp)

theorem unique_none [DecidableEq β] {name : String} {col : α → β} {v : β} {t : Table α} :
    unique name col v t = none ↔ (t.first fun a => col a = v) = none := by
  unfold unique
  split_ifs with h
  · exact iff_of_false (by simp) fun hn => by simp [hn] at h
  · exact iff_of_true rfl (by simpa using h)

theorem sign_returns {csr : Csr} {decision : Decision} {appId : ℕ} {app : App} {protocol : String} {actor : Actor}
    {s : Session Db} : Returns (sign env csr decision appId app protocol actor) s ↔ Signs env s.work csr decision appId := by
  unfold sign
  rw [returns_get_bind, returns_lift_bind]
  refine exists_congr fun row => and_congr_right fun _ => ?_
  have hadd : Returns (addCertificate env row) s ↔
      (s.work.certificates.first fun c => c.fingerprintSha256 = row.fingerprintSha256) = none :=
    addRow_returns.trans unique_none
  rw [← hadd]
  exact Tx.returns_bind_total fun id s' => Tx.returns_of_run rfl

theorem enqueueIssue_returns {appId : ℕ} {profileName csrPem : String} {ca tmpl : Option String} {requestedBy : String}
    {s : Session Db} : Returns (enqueueIssue env appId profileName csrPem ca tmpl requestedBy) s := by
  unfold enqueueIssue
  rw [returns_get_bind]
  split
  · exact Tx.returns_of_run rfl
  · exact Tx.returns_of_run rfl

theorem enqueueAdcsIssue_returns {actor : Actor} {appId : ℕ} {app : App} {decision : Decision}
    {csrPem : Option String} {s : Session Db} :
    Returns (enqueueAdcsIssue env actor appId app decision csrPem) s ↔ csrPem.filter (· ≠ "") ≠ none := by
  unfold enqueueAdcsIssue
  cases csrPem.filter (· ≠ "") with
  | none => exact iff_of_false (not_returns_raise _) (by simp)
  | some pem =>
    refine iff_of_true ?_ (by simp)
    exact (Tx.returns_bind_total fun id s' => Tx.returns_of_run rfl).2 enqueueIssue_returns

/-! ## Requests -/

/-- the decision with the account's SID; `none` when the lookup is not configured or refuses -/
def logonDecision (env : Env) (decision : Decision) : Option Decision :=
  if decision.upns.isEmpty then some decision
  else
    match logonAnswer env decision with
    | .account account =>
      some (if account.adminCount then { decision with sid := some account.sid, dualControl := true }
        else { decision with sid := some account.sid })
    | _ => none

theorem decideLogon_ok {decision decision' : Decision} {app : App} {protocol : String} {s s' : Session Db} :
    decideLogon env decision app protocol s = (.ok decision', s') ↔ logonDecision env decision = some decision' ∧ s' = s := by
  unfold decideLogon logonDecision applyLogonSid
  split
  · simp [eq_comm]
  · cases logonAnswer env decision with
    | unconfigured => simp [raise, Tx.bind_run]
    | refused v => simp [rejectLogon, raise, record, Tx.bind_run]
    | account account =>
      obtain ⟨sid, enabled, admin⟩ := account
      cases admin
      all_goals
        constructor
        · intro h
          cases h
          exact ⟨rfl, rfl⟩
        · rintro ⟨h, rfl⟩
          cases h
          rfl

/-- what is done with a decision succeeds: a second person is asked, the gateway has a PKCS#10 request, or it is signed -/
def Fulfils (env : Env) (d : Db) (appId : ℕ) (profileName : String) (csr : Csr) (decision : Decision)
    (csrPem : Option String) : Prop :=
  decision.dualControl = true ∨
    if isAdcs env profileName then csrPem.filter (· ≠ "") ≠ none else Signs env d csr decision appId

theorem fulfil_returns {actor : Actor} {appId : ℕ} {app : App} {profileName : String} {csr : Csr} {decision : Decision}
    {r : CertRequest} {s : Session Db} :
    Returns (fulfil env actor appId app profileName csr decision r) s ↔
      Fulfils env s.work appId profileName csr decision r.csrPem := by
  unfold fulfil Fulfils
  split
  · next hd => exact iff_of_true (Tx.returns_of_run rfl) (Or.inl hd)
  next hd =>
  rw [or_iff_right hd]
  split
  · exact (Tx.returns_bind_total fun id s' => Tx.returns_of_run rfl).trans enqueueAdcsIssue_returns
  · refine (Tx.returns_bind_total fun id s' => ?_).trans sign_returns
    cases r.previous with
    | none => exact Tx.returns_of_run rfl
    | some prev => exact Tx.returns_of_run rfl

/-- the profile a request asks for: its own, else the app's -/
def profileOf (app : App) (r : CertRequest) : String := (r.profile.filter (· ≠ "")).getD app.profile

/-- a request is served: the app's row is intact and active, and the policy, read from the rows as they are, and the
issuer accept it -/
def Served (env : Env) (d : Db) (actor : Actor) (appId : ℕ) (r : CertRequest) : Prop :=
  ∃ app csr prevFp decision decision', mayRequest env d actor appId = .ok app ∧ profileOf app r = app.profile ∧
    requestedCsr env r = .ok csr ∧ previousFp env d r.previous = .ok prevFp ∧
    evaluateRequest env d csr app app.profile r.days r.hours prevFp r.popVerified = .ok decision ∧
    logonDecision env decision = some decision' ∧ Fulfils env d appId app.profile csr decision' r.csrPem

theorem not_returns_rejectRequest {actor : Actor} {app : App} {profileName protocol : String} {v : Violations}
    {s : Session Db} : ¬ Returns (@rejectRequest α env actor app profileName protocol v) s :=
  fun ⟨_, _, h⟩ => nomatch h

theorem requestCertificate_returns {actor : Actor} {appId : ℕ} {r : CertRequest} {s : Session Db} :
    Returns (requestCertificate env actor appId r) s ↔ Served env s.work actor appId r := by
  unfold requestCertificate
  rw [returns_get_bind, returns_lift_bind]
  constructor
  · rintro ⟨app, happ, h⟩
    dsimp only at h
    split at h
    · exact absurd h not_returns_rejectRequest
    next hprof =>
    replace hprof : profileOf app r = app.profile := not_not.1 hprof
    rw [returns_lift_bind] at h
    obtain ⟨csr, hcsr, h⟩ := h
    rw [returns_lift_bind] at h
    obtain ⟨fp, hfp, h⟩ := h
    split at h
    · exact absurd h not_returns_rejectRequest
    · exact absurd h (not_returns_raise _)
    · next decision hd =>
      obtain ⟨decision', s', hrun, hful⟩ := returns_bind.1 h
      obtain ⟨hlogon, hs⟩ := decideLogon_ok.1 hrun
      subst hs
      refine ⟨app, csr, fp, decision, decision', happ, hprof, hcsr, hfp, ?_, hlogon, ?_⟩
      · exact hprof ▸ hd
      · exact hprof ▸ fulfil_returns.1 hful
  · rintro ⟨app, csr, fp, decision, decision', happ, hprof, hcsr, hfp, hd, hlogon, hful⟩
    refine ⟨app, happ, ?_⟩
    have hname : (r.profile.filter (· ≠ "")).getD app.profile = app.profile := hprof
    dsimp only
    rw [hname, if_neg (by simp), returns_lift_bind]
    refine ⟨csr, hcsr, returns_lift_bind.2 ⟨fp, hfp, ?_⟩⟩
    rw [hd]
    exact returns_bind.2 ⟨decision', s, decideLogon_ok.2 ⟨hlogon, rfl⟩, fulfil_returns.2 hful⟩

/-! ## Approved requests -/

/-- the decision with the SID the account has at issuance -/
def sidDecision (env : Env) (decision : Decision) : Option Decision :=
  if decision.upns.isEmpty then some decision
  else
    match logonAnswer env decision with
    | .account account => some { decision with sid := some account.sid }
    | _ => none

theorem resolveSid_ok {decision decision' : Decision} {app : App} {protocol : String} {s s' : Session Db} :
    resolveSid env decision app protocol s = (.ok decision', s') ↔ sidDecision env decision = some decision' ∧ s' = s := by
  unfold resolveSid sidDecision applyLogonSid
  split
  · simp [eq_comm]
  · cases logonAnswer env decision with
    | unconfigured => simp [raise, Tx.bind_run]
    | refused v => simp [rejectLogon, raise, record, Tx.bind_run]
    | account account => simp [Tx.bind_run, eq_comm]

/-- the PKCS#10 request of an approval -/
def IssueArgs.pem (a : IssueArgs) : Option String :=
  match a.csrPem with
  | .str s => some s
  | _ => none

/-- an approved request is served: its payload reads back, the policy, read from the rows as they are, accepts it, and
the gateway takes it or it is signed -/
def ServedApproved (env : Env) (d : Db) (req : ApprovalRequest) : Prop :=
  (∃ kvs, req.payload = .obj kvs) ∧ ∃ a app csr decision decision', IssueArgs.ofPayload req.payload = .ok a ∧
    issueDecision env d a = .ok (app, csr, decision) ∧ sidDecision env decision = some decision' ∧
    if isAdcs env a.profile then a.pem.filter (· ≠ "") ≠ none else Signs env d csr decision' a.appId

theorem issueApproved_returns {requestedBy : String} {a : IssueArgs} {app : App} {csr : Csr} {decision : Decision}
    {s : Session Db} :
    Returns (issueApproved env requestedBy a app csr decision) s ↔
      if isAdcs env a.profile then a.pem.filter (· ≠ "") ≠ none else Signs env s.work csr decision a.appId := by
  unfold issueApproved
  split
  · exact (Tx.returns_bind_total fun id s' => Tx.returns_of_run rfl).trans enqueueAdcsIssue_returns
  · refine (Tx.returns_bind_total fun id s' => ?_).trans sign_returns
    rw [returns_get_bind]
    split
    · split
      · split
        · exact Tx.returns_of_run rfl
        · exact Tx.returns_of_run rfl
      · exact Tx.returns_of_run rfl
    · exact Tx.returns_of_run rfl

theorem execute_returns {approvalId : ℕ} {req : ApprovalRequest} {decidedBy : String} {s : Session Db}
    (hreq : req.action = .issueCertificate) :
    Returns (execute env approvalId req decidedBy) s ↔ ServedApproved env s.work req := by
  unfold execute ServedApproved
  split
  · next kvs hp =>
    refine (Tx.returns_bind_total fun keys s' => ?_).trans ?_
    · cases keys with
      | none => exact Tx.returns_of_run rfl
      | some keys => exact Tx.returns_of_run rfl
    rw [executeBranch_issue hreq, returns_lift_bind, and_iff_right ⟨kvs, hp⟩]
    refine exists_congr fun a => ?_
    have hissue : Returns (executeIssue env req.requestedBy a) s ↔ ∃ app csr decision decision',
        issueDecision env s.work a = .ok (app, csr, decision) ∧ sidDecision env decision = some decision' ∧
        if isAdcs env a.profile then a.pem.filter (· ≠ "") ≠ none else Signs env s.work csr decision' a.appId := by
      unfold executeIssue
      rw [returns_get_bind, returns_lift_bind]
      constructor
      · rintro ⟨⟨app, csr, decision⟩, hd, h⟩
        obtain ⟨decision', s', hrun, h'⟩ := returns_bind.1 h
        obtain ⟨hsid, hs⟩ := resolveSid_ok.1 hrun
        subst hs
        exact ⟨app, csr, decision, decision', hd, hsid, issueApproved_returns.1 h'⟩
      · rintro ⟨app, csr, decision, decision', hd, hsid, h⟩
        refine ⟨(app, csr, decision), hd, ?_⟩
        exact returns_bind.2 ⟨decision', s, resolveSid_ok.2 ⟨hsid, rfl⟩, issueApproved_returns.2 h⟩
    have hlast : Returns (executeIssue env req.requestedBy a >>= fun keys => pure (some keys)) s ↔
        Returns (executeIssue env req.requestedBy a) s := Tx.returns_bind_total fun keys s' => Tx.returns_of_run rfl
    rw [hlast, hissue]
    simp only [exists_and_left]
  · next hp =>
    refine iff_of_false (not_returns_raise _) ?_
    rintro ⟨⟨kvs, hkvs⟩, -⟩
    exact hp kvs hkvs

/-! ## Raising issues nothing -/

/-- the certificates are as they were, for this session and the others -/
def Untouched (t : Table Certificate) (s : Session Db) : Prop :=
  s.committed.certificates = t ∧ s.work.certificates = t

/-- `m` leaves the committed certificates as they were -/
def CommitsNone (t : Table Certificate) (m : M α) (s : Session Db) : Prop := (m s).2.committed.certificates = t

variable {t : Table Certificate} {s : Session Db}

theorem commitsNone_calm {W : Db → Db → Prop} {m : M α} (h : CalmAt W s m) (hs : Untouched t s) : CommitsNone t m s := by
  rw [CommitsNone, h.1]
  exact hs.1

theorem commitsNone_bind {m : M α} {f : α → M β} (hm : Untouched t (m s).2)
    (hf : ∀ a s', Untouched t s' → CommitsNone t (f a) s') : CommitsNone t (m >>= f) s :=
  Tx.bind_post hm (fun _ h => h.1) fun a s' _ => hf a s'

theorem commitsNone_bind_calm {W : Db → Db → Prop} {m : M α} {f : α → M β} (hm : CommitsNone t m s)
    (hf : ∀ a, Calm W (f a)) : CommitsNone t (m >>= f) s := by
  unfold CommitsNone at hm ⊢
  rw [Tx.bind_run]
  rcases hms : m s with ⟨e | a, s'⟩
  · simpa [hms] using hm
  · rw [hms] at hm
    exact (congrArg Db.certificates (hf a s').1).trans hm

theorem untouched_resolveSid {decision : Decision} {app : App} {protocol : String} (hs : Untouched t s) :
    Untouched t (resolveSid env decision app protocol s).2 := by
  unfold resolveSid applyLogonSid
  split
  · exact hs
  · cases logonAnswer env decision with
    | unconfigured => exact hs
    | refused v => exact ⟨hs.2, hs.2⟩
    | account account => exact hs

theorem untouched_decideLogon {decision : Decision} {app : App} {protocol : String} (hs : Untouched t s) :
    Untouched t (decideLogon env decision app protocol s).2 := by
  unfold decideLogon applyLogonSid
  split
  · exact hs
  · cases logonAnswer env decision with
    | unconfigured => exact hs
    | refused v => exact ⟨hs.2, hs.2⟩
    | account account => exact hs

/-- rejections are committed before anything is signed, and what is signed is not committed inside -/
theorem commitsNone_request {actor : Actor} {appId : ℕ} {r : CertRequest} (hs : Untouched t s) :
    CommitsNone t (requestCertificate env actor appId r) s := by
  unfold requestCertificate
  refine commitsNone_bind hs fun d s hs => commitsNone_bind hs fun app s hs => ?_
  dsimp only
  split
  · exact hs.2
  refine commitsNone_bind hs fun csr s hs => commitsNone_bind hs fun fp s hs => ?_
  split
  · exact hs.2
  · exact hs.1
  · refine commitsNone_bind (untouched_decideLogon hs) fun decision' s hs => ?_
    have hcalm : ∀ p, Calm (Write env .full) (fulfil env actor appId app p csr decision' r) := fun p =>
      calm_fulfil (fun _ _ _ => trivial) (fun _ _ _ => trivial) _ _ _ _
    exact commitsNone_calm (hcalm _ s) hs

theorem commitsNone_execute {approvalId : ℕ} {req : ApprovalRequest} {decidedBy : String}
    (hreq : req.action = .issueCertificate) (hs : Untouched t s) :
    CommitsNone t (execute env approvalId req decidedBy) s := by
  unfold execute
  split
  · have hstore : ∀ keys, Calm (Write env .full) (match keys with
        | some keys => setRow env Col.approvals approvalId fun r => { r with payload := addKeys req.payload keys }
        | none => pure ()) := calm_storePayload trivial _
    refine commitsNone_bind_calm ?_ hstore
    rw [executeBranch_issue hreq]
    refine commitsNone_bind hs fun a s hs => ?_
    have hissue : CommitsNone t (executeIssue env req.requestedBy a) s := by
      unfold executeIssue
      refine commitsNone_bind hs fun d s hs => commitsNone_bind hs fun r s hs => ?_
      refine commitsNone_bind (untouched_resolveSid hs) fun decision s hs => ?_
      have hcalm : Calm (Write env .full) (issueApproved env req.requestedBy a r.1 r.2.1 decision) :=
        calm_issueApproved (fun _ _ _ => trivial) _ (fun _ _ => trivial) _ _ _
      exact commitsNone_calm (hcalm s) hs
    have hlast : ∀ keys : List (String × Json), Calm (Write env .full) (pure (some keys) : M _) := fun _ =>
      Tx.calm_pure _
    exact commitsNone_bind_calm hissue hlast
  · exact hs.1

/-! ## Broken rows -/

/-- the app's row fails verification -/
def BrokenApp (env : Env) (d : Db) (appId : ℕ) : Prop := ∃ app, d.apps.get appId = some app ∧ verify env.st app = false

/-- a folder of the app's chain, its own or one above, fails verification -/
def BrokenFolder (env : Env) (d : Db) (appId : ℕ) : Prop :=
  ∃ app chain, d.apps.get appId = some app ∧ Folders.chain d.folders app.folderId = .ok chain ∧
    ∃ f ∈ chain, verify env.st f.2 = false

/-- a transaction that raises and leaves the certificates as they were -/
def IssuesNothing (m : M α) (d : Db) : Prop :=
  (∃ e, (Tx.transact m d).1 = .error e) ∧ (Tx.transact m d).2.certificates = d.certificates

theorem issuesNothing_iff {m : M α} {d : Db} (h : CommitsNone d.certificates m ⟨d, d⟩) :
    IssuesNothing m d ↔ ¬ Returns m ⟨d, d⟩ := by
  unfold IssuesNothing
  rw [Tx.transact_raises, and_iff_left_iff_imp]
  intro hr
  rw [Tx.transact_snd_of_raises hr]
  exact h

/-- an app whose own row is broken is served nothing -/
theorem not_served_of_brokenApp {d : Db} {actor : Actor} {appId : ℕ} {r : CertRequest} (h : BrokenApp env d appId) :
    ¬ Served env d actor appId r := by
  rintro ⟨app, -, -, -, -, hmay, -⟩
  obtain ⟨app', happ, hv⟩ := h
  unfold mayRequest at hmay
  rw [happ] at hmay
  dsimp only at hmay
  split_ifs at hmay with h1 h2 h3 h4
  exact h4 (by simp [hv])

/-- the app an approved request is for -/
def appOf (req : ApprovalRequest) : Option ℕ :=
  match IssueArgs.ofPayload req.payload with
  | .ok a => some a.appId
  | .error _ => none

/-- a request over a broken app or folder raises and issues nothing -/
def RequestRefused (env : Env) (d : Db) (actor : Actor) (appId : ℕ) (r : CertRequest) : Prop :=
  BrokenApp env d appId ∨ BrokenFolder env d appId → IssuesNothing (requestCertificate env actor appId r) d

/-- carrying out an approved request over a broken app or folder raises and issues nothing -/
def ApprovedRefused (env : Env) (d : Db) (approvalId : ℕ) (req : ApprovalRequest) (decidedBy : String) : Prop :=
  req.action = .issueCertificate → ∀ i ∈ appOf req, BrokenApp env d i ∨ BrokenFolder env d i →
    IssuesNothing (execute env approvalId req decidedBy) d

theorem requestRefused_iff {d : Db} {actor : Actor} {appId : ℕ} {r : CertRequest} :
    RequestRefused env d actor appId r ↔ ¬ (BrokenFolder env d appId ∧ Served env d actor appId r) := by
  unfold RequestRefused
  rw [issuesNothing_iff (commitsNone_request ⟨rfl, rfl⟩), requestCertificate_returns]
  constructor
  · rintro h ⟨hf, hs⟩
    exact h (Or.inr hf) hs
  · rintro h (ha | hf) hs
    · exact not_served_of_brokenApp ha hs
    · exact h ⟨hf, hs⟩

theorem approvedRefused_iff {d : Db} {approvalId : ℕ} {req : ApprovalRequest} {decidedBy : String} :
    ApprovedRefused env d approvalId req decidedBy ↔
      ¬ (req.action = .issueCertificate ∧ (∃ i ∈ appOf req, BrokenApp env d i ∨ BrokenFolder env d i) ∧
        ServedApproved env d req) := by
  have hiff : req.action = .issueCertificate →
      (IssuesNothing (execute env approvalId req decidedBy) d ↔ ¬ ServedApproved env d req) := fun hreq => by
    rw [issuesNothing_iff (commitsNone_execute hreq ⟨rfl, rfl⟩), execute_returns hreq]
  constructor
  · rintro h ⟨hreq, ⟨i, hi, hb⟩, hs⟩
    exact (hiff hreq).1 (h hreq i hi hb) hs
  · intro h hreq i hi hb
    exact (hiff hreq).2 fun hs => h ⟨hreq, ⟨i, hi, hb⟩, hs⟩

/-- **Issuance over tampered rows**: a request, and an approved one, over an app or a folder chain with a broken row raise
and issue nothing iff neither is served: the request over a broken folder, the approved one over a broken app or
folder. -/
theorem broken_rows_refused_iff (d : Db) (actor : Actor) (appId : ℕ) (r : CertRequest) (approvalId : ℕ)
    (req : ApprovalRequest) (decidedBy : String) :
    RequestRefused env d actor appId r ∧ ApprovedRefused env d approvalId req decidedBy ↔
      ¬ (BrokenFolder env d appId ∧ Served env d actor appId r) ∧
      ¬ (req.action = .issueCertificate ∧ (∃ i ∈ appOf req, BrokenApp env d i ∨ BrokenFolder env d i) ∧
        ServedApproved env d req) :=
  and_congr requestRefused_iff approvedRefused_iff

/-! ### A widened folder -/

section Examples

/-- the settings of a folder that only allows names of one zone -/
def zoneSettings (zone : String) : Json :=
  .obj [("allowed_zones", .obj [("value", .ofStrs [zone]), ("locked", .bool true)])]

/-- The folder the application stored allows `lab.corp.example`; a database write allows all of `corp.example` and leaves
the seal. The app's own row is intact. -/
def widenedDb : Db :=
  { Db.empty with
    folders := (Table.empty.insert (inserted demoState ⟨"lab", none, zoneSettings "lab.corp.example", "adm", none⟩)).update
      1 fun f => { f with settings := zoneSettings "corp.example" }
    apps := Table.empty.insert (inserted demoState { demoApp "web" with folderId := some 1 })
    cas := Table.empty.insert ⟨"issuing", none, "ca-pem", "file:ca", "file", false, 0, none, none, none, none, none, none,
      none, none, none, none⟩ }

def webRequest : CertRequest := ⟨some "web-csr", none, none, none, "rest", none, false, none⟩

/-- an approval the same request was given before -/
def webApproval : ApprovalRequest :=
  ⟨.issueCertificate, .obj (issuePayload demoEnv 1 "web" webRequest), "olga", .approved, some "ann", some 900, none, none⟩

/-- Both are served: a certificate for `www.corp.example` is issued. -/
theorem widened_folder_issues :
    ¬ (RequestRefused demoEnv widenedDb ⟨"olga", .operator, none⟩ 1 webRequest ∧
      ApprovedRefused demoEnv widenedDb 1 webApproval "ann") := by
  rintro ⟨hreq, -⟩
  have hbroken : BrokenFolder demoEnv widenedDb 1 :=
    ⟨_, _, rfl, rfl, _, List.mem_cons_self, by decide⟩
  obtain ⟨⟨e, he⟩, -⟩ := hreq (Or.inr hbroken)
  have hok : (Tx.transact (requestCertificate demoEnv ⟨"olga", .operator, none⟩ 1 webRequest) widenedDb).1 =
      .ok (.certificate 1) := by decide
  rw [hok] at he
  cases he

end Examples

end Served

end Platform

end Certadillo
