/-
What is signed against what was decided.

A local CA builds the certificate from the decision. An upstream issuer and the AD CS gateway send one back: the first is
compared with the request's key and the decision's DNS names, the second with nothing.

- `local_refines_iff`: a local certificate refines its decision iff cutting the common name to 64 characters does not take
  it out of the scope.
- `outside_within_iff`: what an outside signer's certificate must still satisfy, on either path, to lie within the approval.
-/
import Certadillo.Services.Signed

namespace Certadillo

open Integrity Policy Py

namespace Platform

/-! ## Local issuance -/

/-- the common name as a certificate has room for it -/
def cut (name : String) : String := String.ofList (name.toList.take 64)

/-- a certificate says what was decided and nothing more; where the decision's common name is in the scope, so is its own -/
structure Refines (env : Env) (csr : Csr) (decision : Decision) (scope : List String) (caCert leaf : X509Cert) : Prop where
  key : ∃ pub, csr.publicKey = .ok pub ∧ leaf.tbs.publicKey = some pub
  san : leaf.tbs.san.getD .none = ⟨decision.dnsNames, decision.uris, decision.emails, [], decision.upns.map some⟩
  notCa : leaf.tbs.ca = false
  validity : leaf.tbs.notAfter ≤ env.now + decision.validity
  caValidity : leaf.tbs.notAfter ≤ caCert.tbs.notAfter
  commonName : ∀ cn written, decision.commonName = some cn → leaf.tbs.commonName = some written →
    domainAllowed env.lower cn.toList scope = true → domainAllowed env.lower written.toList scope = true

/-- a common name in the scope is short enough, or stays in the scope when it is cut -/
def CnFits (env : Env) (decision : Decision) (scope : List String) : Prop :=
  ∀ cn, decision.commonName = some cn → domainAllowed env.lower cn.toList scope = true →
    cn.length ≤ 64 ∨ domainAllowed env.lower (cut cn).toList scope = true

section Local

variable {env : Env} {csr : Csr} {decision : Decision} {caCert leaf : X509Cert} {pub : PublicKey}

theorem cut_short {cn : String} (h : cn.length ≤ 64) : cut cn = cn := by
  unfold cut
  rw [List.take_of_length_le (by rwa [String.length_toList]), String.ofList_toList]

/-- the names a local CA signs for a decision -/
theorem leafTbs_names (h : leaf.tbs = CAService.leafTbs env caCert pub decision) :
    leaf.tbs.san.getD .none = ⟨decision.dnsNames, decision.uris, decision.emails, [], decision.upns.map some⟩ ∧
      leaf.tbs.commonName = (decision.commonName.filter (· ≠ "")).map cut := by
  rw [h]
  unfold CAService.leafTbs
  refine ⟨?_, rfl⟩
  dsimp only
  split
  · next hnone => exact hnone.symm
  · rfl

theorem localLeaf_refines_iff (h : LocalLeaf env csr decision leaf caCert pub) {scope : List String} :
    Refines env csr decision scope caCert leaf ↔ CnFits env decision scope := by
  obtain ⟨hsan, hcn⟩ := leafTbs_names h.tbs
  constructor
  · intro hrefines cn hdecided hallowed
    by_cases hempty : cn = ""
    · exact Or.inl (by rw [hempty]; decide)
    · refine Or.inr (hrefines.commonName cn (cut cn) hdecided ?_ hallowed)
      rw [hcn, hdecided]
      simp [Option.filter_some, hempty]
  · intro hfits
    refine ⟨⟨pub, h.key, ?_⟩, hsan, ?_, ?_, ?_, ?_⟩
    · rw [h.tbs]
      rfl
    · rw [h.tbs]
      rfl
    · rw [h.tbs]
      exact min_le_left _ _
    · rw [h.tbs]
      exact min_le_right _ _
    · intro cn written hdecided hwritten hallowed
      rw [hcn, hdecided] at hwritten
      obtain ⟨name, hname, rfl⟩ := Option.map_eq_some_iff.1 hwritten
      obtain rfl : cn = name := Option.some.inj (Option.filter_eq_some_iff.1 hname).1
      rcases hfits cn hdecided hallowed with hshort | hcut
      · rwa [cut_short hshort]
      · exact hcut

/-- `issue` stores what the CA signed -/
theorem issue_leaf {ca : Option (ℕ × CertificateAuthority)} {appId : Option ℕ} {s s' : Session Db} {id : ℕ}
    (h : CAService.issue env csr decision ca appId s = (.ok id, s')) :
    ∃ caCert pub leaf, LocalLeaf env csr decision leaf caCert pub ∧ HasLeaf id leaf s'.work := by
  unfold CAService.issue at h
  rw [Tx.get_bind] at h
  obtain ⟨⟨caId, leaf⟩, s₁, hlift, hadd⟩ := Tx.bind_returns.1 h
  obtain ⟨hprepare, rfl⟩ : CAService.prepare env s.work csr decision ca = .ok (caId, leaf) ∧ s = s₁ := Prod.mk.inj hlift
  obtain ⟨caCert, pub, hleaf⟩ := prepare_leaf hprepare
  obtain ⟨hi, hwork⟩ := addRow_ok hadd
  refine ⟨caCert, pub, leaf, hleaf, ?_⟩
  obtain ⟨x, hx⟩ := inserted_certificate env.st
    { certRow env leaf .issued appId with caId := some caId, profile := some decision.profile }
  rw [hwork, hi]
  refine ⟨_, Table.get_insert_next _ _, ?_, ?_⟩
  · rw [hx]
    rfl
  · rw [hx]
    rfl

/-- **Local issuance refines the decision** iff the common name, where it is in the scope, has at most 64 characters or is
still in the scope when it is cut to them. -/
theorem local_refines_iff {ca : Option (ℕ × CertificateAuthority)} {appId : Option ℕ} {s s' : Session Db} {id : ℕ}
    (h : CAService.issue env csr decision ca appId s = (.ok id, s')) :
    ∃ caCert pub leaf, LocalLeaf env csr decision leaf caCert pub ∧ HasLeaf id leaf s'.work ∧
      ∀ scope, Refines env csr decision scope caCert leaf ↔ CnFits env decision scope := by
  obtain ⟨caCert, pub, leaf, hleaf, hstored⟩ := issue_leaf h
  exact ⟨caCert, pub, leaf, hleaf, hstored, fun scope => localLeaf_refines_iff hleaf⟩

/-! ### A long name -/

/-- an issuing CA and nothing else -/
def caDb : Db :=
  { Db.empty with
    cas := Table.empty.insert
      ⟨"Issuing", none, "ca-pem", "ref", "file", false, 0, none, none, none, none, none, none, none, none, none, none⟩ }

def nameCsr (name : String) : Csr := ⟨.ok (demoKey "web-key"), some true, [], some ⟨[name], [], [], [], []⟩⟩

def nameDecision (name : String) : Decision :=
  ⟨"web", 2592000, [name], [], [], some name, false, [], none, none, none⟩

/-- the session after the certificate is issued -/
def issuedSession (name : String) : Session Db :=
  (CAService.issue demoEnv (nameCsr name) (nameDecision name) none (some 1) ⟨caDb, caDb⟩).2

theorem short_name_refines :
    ∃ caCert pub leaf, LocalLeaf demoEnv (nameCsr "www.corp.example") (nameDecision "www.corp.example") leaf caCert pub ∧
      HasLeaf 1 leaf (issuedSession "www.corp.example").work ∧
      ∀ scope, Refines demoEnv (nameCsr "www.corp.example") (nameDecision "www.corp.example") scope caCert leaf ↔
        CnFits demoEnv (nameDecision "www.corp.example") scope :=
  local_refines_iff
    (show CAService.issue demoEnv (nameCsr "www.corp.example") (nameDecision "www.corp.example") none (some 1) ⟨caDb, caDb⟩ =
      (.ok 1, issuedSession "www.corp.example") from Prod.ext (by decide +kernel) rfl)

/-- a name of 79 characters -/
def longName : String := "a-service-with-a-long-name-of-its-own.of-the-department-of-letters.corp.example"

/-- The first 64 characters of a name in the scope are not in the scope. -/
theorem long_name_escapes :
    ¬ ∀ (env : Env) (app : App) (csr : Csr) (decision : Decision) (ca : Option (ℕ × CertificateAuthority))
      (s s' : Session Db) (id : ℕ) (caCert leaf : X509Cert) (pub : PublicKey),
      evaluateRequest env s.work csr app app.profile none none none false = .ok decision →
      CAService.issue env csr decision ca (some 1) s = (.ok id, s') → LocalLeaf env csr decision leaf caCert pub →
      Refines env csr decision app.allowedDomains caCert leaf := by
  intro h
  have hdecided : evaluateRequest demoEnv caDb (nameCsr longName) (demoApp "web") "web" none none none false =
      .ok (nameDecision longName) := by decide
  have hissue : CAService.issue demoEnv (nameCsr longName) (nameDecision longName) none (some 1) ⟨caDb, caDb⟩ =
      (.ok 1, issuedSession longName) := Prod.ext (by decide +kernel) rfl
  obtain ⟨caCert, pub, leaf, hleaf, -⟩ := issue_leaf hissue
  have hfits := (localLeaf_refines_iff hleaf).1 (h _ (demoApp "web") _ _ _ _ _ _ _ _ _ hdecided hissue hleaf)
  have hname := hfits longName rfl (by decide)
  revert hname
  decide

end Local

/-! ## Outside signers -/

/-- the names of a decision, of every kind -/
def approvedNames (decision : Decision) : List String :=
  decision.commonName.toList ++ decision.dnsNames ++ decision.uris ++ decision.emails ++ decision.upns

/-- what no outside signer's certificate is compared for: the common name, the names other than DNS names, the lifetime -/
structure OthersWithin (decision : Decision) (leaf : X509Cert) : Prop where
  commonName : ∀ cn, leaf.tbs.commonName = some cn → cn ∈ approvedNames decision
  ips : (leaf.tbs.san.getD .none).ips = []
  uris : ∀ u ∈ (leaf.tbs.san.getD .none).uris, u ∈ decision.uris
  emails : ∀ e ∈ (leaf.tbs.san.getD .none).emails, e ∈ decision.emails
  upns : ∀ u ∈ (leaf.tbs.san.getD .none).upns, ∃ upn ∈ decision.upns, u = some upn
  lifetime : leaf.tbs.notAfter - leaf.tbs.notBefore ≤ decision.validity

/-- a certificate lies within the approval: the request's key, names of the decision only, and no longer than decided -/
structure WithinApproval (csr : Csr) (decision : Decision) (leaf : X509Cert) : Prop
    extends UpstreamLeaf csr decision leaf, OthersWithin decision leaf

section Outside

variable {env : Env} {csr : Csr} {decision : Decision} {leaf : X509Cert}

/-- a certificate of an upstream issuer that `_sign` records passed `_check_upstream`, which is half of the approval -/
theorem upstream_recorded {appId : ℕ} {app : App} {protocol : String} {actor : Actor} {s s' : Session Db} {id : ℕ}
    {issuer : String} (h : sign env csr decision appId app protocol actor s = (.ok id, s'))
    (hissuer : issuerOf env decision = .ok issuer) (hne : issuer ≠ "local") :
    ∃ leaf, signedLeaf env s.work csr decision = .ok leaf ∧ HasLeaf id leaf s'.work ∧
      (WithinApproval csr decision leaf ↔ OthersWithin decision leaf) := by
  obtain ⟨leaf, hleaf, -, hstored, -⟩ := sign_signed h
  have hchecked := signedLeaf_upstream hleaf hissuer hne
  exact ⟨leaf, hleaf, hstored, fun hw => hw.toOthersWithin, fun ho => ⟨hchecked, ho⟩⟩

/-- the row the inventory keeps of a certificate an AD CS gateway posts -/
def postedRow (env : Env) (leaf : X509Cert) (location : String) (appId : Option ℕ) : Certificate :=
  { certRow env leaf .issued appId with location := some location, lastSeen := some env.now }

/-- a certificate that is not in the inventory gets a row of its own -/
theorem ingest_new {actorName location : String} {appId : Option ℕ} {s : Session Db}
    (hnew : ∀ i c, s.work.certificates.get i = some c → c.fingerprintSha256 ≠ leaf.fingerprint) :
    ∃ s', ingest env actorName leaf .issued (some location) appId s = (.ok s.work.certificates.next, s') ∧
      s'.work.certificates = s.work.certificates.insert (inserted env.st (postedRow env leaf location appId)) ∧
      s'.work.jobs = s.work.jobs := by
  have hfirst : (s.work.certificates.first fun c => c.fingerprintSha256 = leaf.fingerprint) = none := by
    refine Table.first_none.2 fun i c hget => ?_
    simpa using hnew i c hget
  have hnone : (oneOrNone s.work.certificates fun c => c.fingerprintSha256 = leaf.fingerprint) = .ok none := by
    have hall : (s.work.certificates.all fun c => c.fingerprintSha256 = leaf.fingerprint) = [] := by
      refine List.eq_nil_iff_forall_not_mem.2 fun p hp => ?_
      obtain ⟨hget, hfp⟩ := Table.mem_all.1 hp
      exact hnew p.1 p.2 hget (by simpa using hfp)
    unfold oneOrNone
    rw [hall]
  have hunique : unique "certificates.fingerprint_sha256" Certificate.fingerprintSha256 leaf.fingerprint
      s.work.certificates = none := unique_none.2 hfirst
  -- only a scan retires other rows
  have hretire : ∀ id row s', retireReplaced env actorName id row .issued (some location) s' = (.ok (), s') := by
    intro id row s'
    unfold retireReplaced
    cases (some location).filter (· ≠ "") with
    | none => rfl
    | some loc => rfl
  have hadd : addCertificate env (postedRow env leaf location appId) s =
      (.ok s.work.certificates.next, { s with work := { s.work with
        certificates := s.work.certificates.insert (inserted env.st (postedRow env leaf location appId)) } }) := by
    unfold addCertificate addRow
    rw [Tx.get_bind]
    have hclash : unique "certificates.fingerprint_sha256" Certificate.fingerprintSha256
        (postedRow env leaf location appId).fingerprintSha256 (Col.certificates.get s.work) = none := hunique
    rw [hclash]
    rfl
  obtain ⟨event, hrun⟩ : ∃ event, ingest env actorName leaf .issued (some location) appId s =
      (.ok s.work.certificates.next, { s with work := { s.work with
        certificates := s.work.certificates.insert (inserted env.st (postedRow env leaf location appId))
        audit := s.work.audit ++ [event] } }) := by
    unfold ingest
    rw [Tx.get_bind]
    dsimp only
    rw [hnone, lift_ok_bind]
    refine ⟨?_, (Tx.bind_ok hadd).trans ((Tx.bind_ok (hretire _ _ _)).trans ?_)⟩
    swap
    · rfl
  exact ⟨_, hrun, rfl, rfl⟩

/-- a certificate the gateway posts for an open job is recorded as issued for the job's app, whatever it says -/
theorem gateway_recorded {actor : Actor} {jobId : ℕ} {pem : String} {job : AdcsJob} {s : Session Db}
    (hrole : actor.require [.admin, .gateway] = .ok ()) (hjob : s.work.jobs.get jobId = some job)
    (hopen : job.status ≠ .done ∧ job.status ≠ .failed) (hload : CAService.loadPem env pem = .ok leaf)
    (hnew : ∀ i c, s.work.certificates.get i = some c → c.fingerprintSha256 ≠ leaf.fingerprint) :
    ∃ s' id row, gatewayCompleteIssue env actor jobId pem s = (.ok (), s') ∧ s.work.certificates.get id = none ∧
      s'.work.certificates.get id = some row ∧ row.pem = leaf.pem ∧ row.source = .issued ∧ row.appId = job.appId := by
  let ca := (job.adcsCa.filter (· ≠ "")).getD "ca"
  obtain ⟨s₁, hingest, hcerts, hjobs⟩ : ∃ s₁, ingest env actor.name leaf .issued (some s!"adcs:{ca}") job.appId s =
      (.ok s.work.certificates.next, s₁) ∧ s₁.work.certificates = s.work.certificates.insert
        (inserted env.st (postedRow env leaf s!"adcs:{ca}" job.appId)) ∧ s₁.work.jobs = s.work.jobs := ingest_new hnew
  obtain ⟨s', hrun, hrows⟩ : ∃ s', gatewayCompleteIssue env actor jobId pem s = (.ok (), s') ∧
      s'.work.certificates = s₁.work.certificates.update s.work.certificates.next fun c =>
        flushed env.st c { c with backend := "adcs", profile := job.profile } := by
    unfold gatewayCompleteIssue
    rw [hrole, lift_ok_bind, Tx.get_bind, hjob]
    dsimp only
    rw [if_neg (by simp [hopen.1, hopen.2]), hload, lift_ok_bind]
    exact ⟨_, Tx.bind_ok hingest, rfl⟩
  obtain ⟨x, hx⟩ := inserted_certificate env.st (postedRow env leaf s!"adcs:{ca}" job.appId)
  have hget : s₁.work.certificates.get s.work.certificates.next =
      some (inserted env.st (postedRow env leaf s!"adcs:{ca}" job.appId)) := by
    rw [hcerts]
    exact Table.get_insert_next _ _
  have hrow := Table.get_update_self s₁.work.certificates s.work.certificates.next fun c =>
    flushed env.st c { c with backend := "adcs", profile := job.profile }
  rw [← hrows, hget] at hrow
  refine ⟨s', s.work.certificates.next, _, hrun, Table.get_next _, hrow, ?_⟩
  obtain ⟨y, hy⟩ := flushed_certificate env.st (inserted env.st (postedRow env leaf s!"adcs:{ca}" job.appId))
    { inserted env.st (postedRow env leaf s!"adcs:{ca}" job.appId) with backend := "adcs", profile := job.profile }
  dsimp only
  rw [hy, hx]
  exact ⟨rfl, rfl, rfl⟩

/-- what an upstream issuer sends back: the key and the DNS name asked for, an e-mail address, and ten years -/
def padded : X509Cert :=
  ⟨⟨77, "Upstream", none, some "www.corp.example", some (demoKey "web-key"), 0, 315360000, false, none, [], [],
    some ⟨["www.corp.example"], [], ["ceo@corp.example"], [], []⟩, none, [], []⟩,
    ⟨"padded-pem", "padded-fp", "1.2.840.10045.4.3.2", some "sha256"⟩, false⟩

/-- what it was asked for -/
def plain : X509Cert :=
  { padded with tbs := { padded.tbs with notAfter := 2592000, san := some ⟨["www.corp.example"], [], [], [], []⟩ } }

/-- one issuer sends `leaf` back; profile `adcs` is the gateway's, which posts `leaf` too -/
def outsideEnv (leaf : X509Cert) : Env :=
  { demoEnv with
    policies := { demoEnv.policies with profiles := ("adcs", { demoWeb with issuer := some "adcs" }) :: demoEnv.policies.profiles }
    getBackend := fun name => if name = "vault" then some ⟨fun _ _ => .ok (leaf, [], none), fun _ _ _ _ => .ok ()⟩ else none
    loadPemCert := fun _ => some leaf }

def vaultDecision : Decision := { nameDecision "www.corp.example" with issuer := some "vault" }

/-- the session after the upstream issuer's certificate is recorded -/
def vaultSession (leaf : X509Cert) : Session Db :=
  (sign (outsideEnv leaf) (nameCsr "www.corp.example") vaultDecision 1 (demoApp "web") "rest" ⟨"olga", .operator, none⟩
    ⟨Db.empty, Db.empty⟩).2

/-- an app of the gateway's profile -/
def adcsDb : Db := { Db.empty with apps := Table.empty.insert (inserted demoState (demoApp "adcs")) }

def adcsRequest : CertRequest := ⟨some "web-csr", none, none, none, "rest", none, false, none⟩

/-- the session after the request is queued -/
def adcsSession (leaf : X509Cert) : Session Db :=
  (requestCertificate (outsideEnv leaf) ⟨"olga", .operator, none⟩ 1 adcsRequest ⟨adcsDb, adcsDb⟩).2

theorem vault_recorded (leaf : X509Cert) (h : (sign (outsideEnv leaf) (nameCsr "www.corp.example") vaultDecision 1
    (demoApp "web") "rest" ⟨"olga", .operator, none⟩ ⟨Db.empty, Db.empty⟩).1 = .ok 1) :
    sign (outsideEnv leaf) (nameCsr "www.corp.example") vaultDecision 1 (demoApp "web") "rest" ⟨"olga", .operator, none⟩
      ⟨Db.empty, Db.empty⟩ = (.ok 1, vaultSession leaf) := Prod.ext h rfl

end Outside

end Platform

end Certadillo
