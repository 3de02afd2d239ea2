/-
The certificate behind a request: what was signed for the row that a request returns.

- `signedLeaf`: the certificate `signRow` takes its columns from.
- `issuerFor`: the issuer of an app's certificates, from its folders and its profile; `DecidedFor.issuer` shows that a
  decision on its requests names no other.
- `requestCertificate_signed`: a request that returns a certificate was decided and signed, and the certificate is stored
  under the number returned.
-/
import Certadillo.Policy.NameScope
import Certadillo.Services.Tampered

namespace Certadillo

open Integrity Policy Py

namespace Platform

/-! ## Certificates behind rows -/

/-- the issuing CA a decision chooses -/
def chosenCa (d : Db) (decision : Decision) : Except Err (Option (ℕ × CertificateAuthority)) :=
  match decision.ca.filter (· ≠ "") with
  | some name => (CAService.get d name).map some
  | none => .ok none

/-- the certificate `signRow` makes a row of -/
def signedLeaf (env : Env) (d : Db) (csr : Csr) (decision : Decision) : Except Err X509Cert := do
  let issuer ← issuerOf env decision
  if issuer = "local" then
    let ca ← chosenCa d decision
    let (_, cert) ← CAService.prepare env d csr decision ca
    pure cert
  else
    match env.getBackend issuer with
    | none => throw (.runtime s!"issuer backend '{issuer}' is not configured")
    | some backend =>
      let (leaf, _, _) ← libCall .other (backend.sign csr decision)
      checkUpstream leaf csr decision issuer
      pure leaf

/-- row `id` stores the certificate -/
def HasLeaf (id : ℕ) (leaf : X509Cert) (d : Db) : Prop :=
  ∃ row, d.certificates.get id = some row ∧ row.pem = leaf.pem ∧ row.fingerprintSha256 = leaf.fingerprint

section Leaf

variable {env : Env} {csr : Csr} {decision : Decision} {leaf : X509Cert}

theorem chosenCa_some {d : Db} {name : String} (h : decision.ca.filter (· ≠ "") = some name) :
    chosenCa d decision = (CAService.get d name).map some := by
  unfold chosenCa
  rw [h]

theorem chosenCa_none {d : Db} (h : decision.ca.filter (· ≠ "") = none) : chosenCa d decision = .ok none := by
  unfold chosenCa
  rw [h]

theorem signRow_leaf {d : Db} {appId : ℕ} {row : Certificate} (h : signRow env d csr decision appId = .ok row) :
    ∃ leaf, signedLeaf env d csr decision = .ok leaf ∧ row.pem = leaf.pem ∧ row.fingerprintSha256 = leaf.fingerprint := by
  unfold signRow at h
  unfold signedLeaf
  obtain ⟨issuer, hissuer, h⟩ := except_bind_ok.1 h
  rw [hissuer, except_ok_bind]
  split at h
  · next hlocal =>
    rw [if_pos hlocal]
    extract_lets -underBinder rest at h
    have hrest : ∀ ca, rest ca = .ok row → ∃ caId leaf, CAService.prepare env d csr decision ca = .ok (caId, leaf) ∧
        row.pem = leaf.pem ∧ row.fingerprintSha256 = leaf.fingerprint := by
      intro ca h
      obtain ⟨⟨caId, cert⟩, hp, h⟩ := except_bind_ok.1 h
      rw [except_pure_ok] at h
      subst h
      exact ⟨caId, cert, hp, rfl, rfl⟩
    obtain ⟨ca, hca, hrow⟩ : ∃ ca, chosenCa d decision = .ok ca ∧ rest ca = .ok row := by
      split at h
      · next name hname =>
        obtain ⟨ca, hget, h⟩ := except_bind_ok.1 h
        refine ⟨some ca, ?_, h⟩
        rw [chosenCa_some hname]
        exact except_map_ok.2 ⟨ca, hget, rfl⟩
      · next hname => exact ⟨none, chosenCa_none hname, h⟩
    obtain ⟨caId, leaf, hp, hcols⟩ := hrest ca hrow
    refine ⟨leaf, ?_, hcols⟩
    rw [hca, except_ok_bind, hp]
    rfl
  · next hlocal =>
    rw [if_neg hlocal]
    cases hb : env.getBackend issuer with
    | none => simp [hb] at h
    | some backend =>
      simp only [hb] at h
      obtain ⟨⟨leaf, chain, ref⟩, hs, h⟩ := except_bind_ok.1 h
      obtain ⟨u, hcheck, h⟩ := except_bind_ok.1 h
      rw [except_pure_ok] at h
      subst h
      refine ⟨leaf, ?_, rfl, rfl⟩
      dsimp only
      rw [hs, except_ok_bind, hcheck]
      rfl

/-- what a local CA signs, under its own certificate and for the request's key -/
structure LocalLeaf (env : Env) (csr : Csr) (decision : Decision) (leaf caCert : X509Cert) (pub : PublicKey) : Prop where
  ca : ∃ pem, CAService.loadPem env pem = .ok caCert
  key : csr.publicKey = .ok pub
  tbs : leaf.tbs = CAService.leafTbs env caCert pub decision

theorem prepare_leaf {d : Db} {ca : Option (ℕ × CertificateAuthority)} {caId : ℕ}
    (h : CAService.prepare env d csr decision ca = .ok (caId, leaf)) :
    ∃ caCert pub, LocalLeaf env csr decision leaf caCert pub := by
  unfold CAService.prepare at h
  extract_lets -underBinder rest at h
  obtain ⟨c, h⟩ : ∃ c, rest c = .ok (caId, leaf) := by
    split at h
    all_goals
      obtain ⟨c, -, h⟩ := except_bind_ok.1 h
      exact ⟨c, h⟩
  obtain ⟨caCert, hca, h⟩ := except_bind_ok.1 h
  obtain ⟨pub, hpub, h⟩ := except_bind_ok.1 h
  split at h
  · simp at h
  obtain ⟨signer, -, h⟩ := except_bind_ok.1 h
  obtain ⟨cert, hsign, h⟩ := except_bind_ok.1 h
  obtain ⟨signed, -, hsign⟩ := except_bind_ok.1 hsign
  cases h
  cases hsign
  exact ⟨caCert, pub, ⟨_, hca⟩, libCall_ok hpub, rfl⟩

theorem signedLeaf_local {d : Db} (h : signedLeaf env d csr decision = .ok leaf)
    (hissuer : issuerOf env decision = .ok "local") : ∃ caCert pub, LocalLeaf env csr decision leaf caCert pub := by
  unfold signedLeaf at h
  rw [hissuer, except_ok_bind, if_pos rfl] at h
  obtain ⟨ca, -, h⟩ := except_bind_ok.1 h
  obtain ⟨⟨caId, cert⟩, hprepare, h⟩ := except_bind_ok.1 h
  obtain rfl := Except.ok.inj h
  exact prepare_leaf hprepare

/-- an upstream issuer's certificate is for the request's key, with no DNS name the decision does not hold -/
structure UpstreamLeaf (csr : Csr) (decision : Decision) (leaf : X509Cert) : Prop where
  key : ∃ k pub, leaf.tbs.publicKey = some k ∧ csr.publicKey = .ok pub ∧ k.spki = pub.spki
  dns : ∀ name ∈ (leaf.tbs.san.getD .none).dns, name ∈ decision.dnsNames

theorem checkUpstream_ok {issuer : String} (h : checkUpstream leaf csr decision issuer = .ok ()) :
    UpstreamLeaf csr decision leaf := by
  unfold checkUpstream at h
  extract_lets -underBinder rest at h
  obtain ⟨k, hk, h⟩ : ∃ k, leaf.tbs.publicKey = some k ∧ rest k = .ok () := by
    split at h
    · next k hk =>
      obtain ⟨k', hpure, h⟩ := except_bind_ok.1 h
      obtain rfl := Except.ok.inj hpure
      exact ⟨k, hk, h⟩
    · cases h
  obtain ⟨pub, hpub, h⟩ := except_bind_ok.1 h
  split at h
  · cases h
  next hspki =>
  extract_lets -underBinder names extra shown at h
  split at h
  swap
  · cases h
  next hempty =>
  refine ⟨⟨k, pub, hk, libCall_ok hpub, not_not.1 hspki⟩, fun name hname => ?_⟩
  by_contra hno
  have hextra : name ∈ extra := by
    refine mem_sorted.2 (List.mem_filter.2 ⟨List.mem_dedup.2 hname, ?_⟩)
    simpa using hno
  rw [List.isEmpty_iff.1 hempty] at hextra
  cases hextra

theorem signedLeaf_upstream {d : Db} {issuer : String} (h : signedLeaf env d csr decision = .ok leaf)
    (hissuer : issuerOf env decision = .ok issuer) (hne : issuer ≠ "local") : UpstreamLeaf csr decision leaf := by
  unfold signedLeaf at h
  rw [hissuer, except_ok_bind, if_neg hne] at h
  split at h
  · cases h
  obtain ⟨⟨cert, chain, ref⟩, -, h⟩ := except_bind_ok.1 h
  obtain ⟨u, hcheck, h⟩ := except_bind_ok.1 h
  obtain rfl := Except.ok.inj h
  exact checkUpstream_ok hcheck

/-- an assignment to other columns leaves the stored certificate -/
theorem HasLeaf.update {id j : ℕ} {d : Db} (h : HasLeaf id leaf d) {f : Certificate → Certificate}
    (hf : ∀ c, (f c).pem = c.pem ∧ (f c).fingerprintSha256 = c.fingerprintSha256) :
    HasLeaf id leaf { d with certificates := d.certificates.update j fun c => flushed env.st c (f c) } := by
  obtain ⟨row, hget, hpem, hfp⟩ := h
  by_cases hid : id = j
  · subst hid
    obtain ⟨x, hx⟩ := flushed_certificate env.st row (f row)
    refine ⟨flushed env.st row (f row), ?_, ?_, ?_⟩
    · show (d.certificates.update id _).get id = _
      rw [Table.get_update_self, hget]
      rfl
    · rw [hx]
      exact (hf row).1.trans hpem
    · rw [hx]
      exact (hf row).2.trans hfp
  · exact ⟨row, (Table.get_update_of_ne _ _ hid).trans hget, hpem, hfp⟩

/-- `sign` adds a row for the certificate it signed, and touches no other component's rows -/
theorem sign_signed {appId : ℕ} {app : App} {protocol : String} {actor : Actor} {s s' : Session Db} {id : ℕ}
    (h : sign env csr decision appId app protocol actor s = (.ok id, s')) :
    ∃ leaf, signedLeaf env s.work csr decision = .ok leaf ∧ s.work.certificates.get id = none ∧
      HasLeaf id leaf s'.work ∧ s'.work.frontEnd = s.work.frontEnd := by
  unfold sign at h
  rw [Tx.get_bind] at h
  obtain ⟨row, s₁, hlift, h⟩ := Tx.bind_returns.1 h
  obtain ⟨hrow, rfl⟩ : signRow env s.work csr decision appId = .ok row ∧ s = s₁ := Prod.mk.inj hlift
  obtain ⟨leaf, hleaf, hpem, hfp⟩ := signRow_leaf hrow
  obtain ⟨i, s₂, hadd, h⟩ := Tx.bind_returns.1 h
  obtain ⟨hi, hwork⟩ := addRow_ok hadd
  cases h
  subst hi
  refine ⟨leaf, hleaf, Table.get_next _, ?_, ?_⟩
  · have hstored : HasLeaf s.work.certificates.next leaf s₂.work := by
      obtain ⟨x, hx⟩ := inserted_certificate env.st row
      refine ⟨inserted env.st row, ?_, ?_, ?_⟩
      · rw [hwork]
        exact Table.get_insert_next _ _
      · rw [hx]
        exact hpem
      · rw [hx]
        exact hfp
    exact hstored.update (f := fun c => { c with protocol := some protocol }) fun c => ⟨rfl, rfl⟩
  · show s₂.work.frontEnd = s.work.frontEnd
    rw [hwork]
    rfl

end Leaf

/-! ## Decisions behind certificates -/

/-- two decisions are about the same names -/
structure SameNames (d d' : Decision) : Prop where
  profile : d'.profile = d.profile
  dnsNames : d'.dnsNames = d.dnsNames
  uris : d'.uris = d.uris
  emails : d'.emails = d.emails
  upns : d'.upns = d.upns
  commonName : d'.commonName = d.commonName

/-- the issuer an app's folders set -/
def issuerSetting (eff : Folders.Eff) : Except Err (Option String) :=
  match eff.lookup "issuer" with
  | some s => Folders.nameSet s.value
  | none => .ok none

theorem issuerSetting_some {eff : Folders.Eff} {s : Folders.Setting} (h : eff.lookup "issuer" = some s) :
    issuerSetting eff = Folders.nameSet s.value := by
  unfold issuerSetting
  rw [h]

theorem issuerSetting_none {eff : Folders.Eff} (h : eff.lookup "issuer" = none) : issuerSetting eff = .ok none := by
  unfold issuerSetting
  rw [h]

/-- the issuer of an app's certificates: its folders', else its profile's, else local -/
def issuerFor (env : Env) (d : Db) (app : App) : Except Err String := do
  let eff ← Folders.effective d.folders app.folderId
  match (← issuerSetting eff).filter (· ≠ "") with
  | some i => pure i
  | none =>
    match env.policies.profiles.lookup app.profile with
    | some prof => pure (prof.issuer.getD "local")
    | none => throw (.key app.profile)

/-- a request of an app, as it is decided before it is signed -/
structure DecidedFor (env : Env) (d : Db) (actor : Actor) (appId : ℕ) (r : CertRequest) (app : App) (csr : Csr)
    (decision : Decision) : Prop where
  allowed : mayRequest env d actor appId = .ok app
  requested : requestedCsr env r = .ok csr
  evaluated : ∃ prevFp first, previousFp env d r.previous = .ok prevFp ∧
    evaluateRequest env d csr app app.profile r.days r.hours prevFp r.popVerified = .ok first ∧
    logonDecision env first = some decision

section Decisions

variable {env : Env} {d : Db} {csr : Csr} {days hours : Option ℤ}

/-- a profile's decision leaves the issuer to the folders -/
theorem evaluate_fresh {lower : Chars → Chars} {sha256 : String → String} {pol : Policies} {profileName : String}
    {scope : List String} {previousFp : Option String} {popVerified : Bool} {decision : Decision}
    (h : evaluate lower sha256 pol csr profileName scope days hours previousFp popVerified = .ok decision) :
    decision.profile = profileName ∧ decision.issuer = none := by
  unfold evaluate at h
  obtain ⟨prof, -, h⟩ := except_bind_ok.1 h
  split at h
  · cases h
  extract_lets -underBinder v at h
  split at h
  · unfold evaluateWindowsLogon at h
    obtain ⟨upns, -, h⟩ := except_bind_ok.1 h
    extract_lets -underBinder at h
    obtain ⟨n, -, h⟩ := except_bind_ok.1 h
    obtain ⟨most, -, h⟩ := except_bind_ok.1 h
    extract_lets -underBinder at h
    obtain ⟨-, h⟩ := of_check h
    obtain ⟨validity, -, h⟩ := except_bind_ok.1 h
    obtain rfl := except_pure_ok.1 h
    exact ⟨rfl, rfl⟩
  · obtain ⟨⟨vval, validity⟩, -, h⟩ := except_bind_ok.1 h
    obtain ⟨-, rfl⟩ := pure_of_check h
    exact ⟨rfl, rfl⟩

/-- the folders narrow a decision: its names stay, and they may choose its issuer -/
theorem apply_names {lower : Chars → Chars} {eff : Folders.Eff} {decision decision' : Decision}
    (hissuer : decision.issuer = none) (h : Folders.apply lower eff decision csr days hours = .ok decision') :
    SameNames decision decision' ∧ issuerSetting eff = .ok decision'.issuer := by
  unfold Folders.apply at h
  split at h
  · next hempty =>
    obtain rfl := Except.ok.inj h
    obtain rfl := List.isEmpty_iff.1 hempty
    exact ⟨⟨rfl, rfl, rfl, rfl, rfl, rfl⟩, by rw [hissuer]; rfl⟩
  · next hne =>
    extract_lets -underBinder zoned at h
    obtain ⟨v, h⟩ : ∃ v, zoned v = .ok decision' := by
      split at h
      all_goals
        obtain ⟨v, -, h⟩ := except_bind_ok.1 h
        exact ⟨v, h⟩
    dsimp -zeta only [zoned] at h
    extract_lets -underBinder keyed at h
    obtain ⟨k, h⟩ : ∃ k, keyed k = .ok decision' := by
      split at h
      · obtain ⟨k, -, h⟩ := except_bind_ok.1 h
        exact ⟨k, h⟩
      · cases h
    obtain ⟨⟨c, validity⟩, -, h⟩ := except_bind_ok.1 h
    dsimp -zeta only at h
    split at h
    · cases h
    extract_lets -underBinder chosen at h
    obtain ⟨ca, h⟩ : ∃ ca, chosen ca = .ok decision' := by
      split at h
      all_goals
        obtain ⟨ca, -, h⟩ := except_bind_ok.1 h
        exact ⟨ca, h⟩
    dsimp only [chosen] at h
    split at h
    · next setting hs =>
      obtain ⟨issuer, hset, h⟩ := except_bind_ok.1 h
      obtain rfl := Except.ok.inj h
      exact ⟨⟨rfl, rfl, rfl, rfl, rfl, rfl⟩, (issuerSetting_some hs).trans hset⟩
    · next hs =>
      obtain ⟨issuer, hset, h⟩ := except_bind_ok.1 h
      obtain rfl := Except.ok.inj h
      obtain rfl := Except.ok.inj hset
      exact ⟨⟨rfl, rfl, rfl, rfl, rfl, rfl⟩, by rw [issuerSetting_none hs, hissuer]⟩

theorem logonDecision_names {decision decision' : Decision} (h : logonDecision env decision = some decision') :
    SameNames decision decision' ∧ decision'.issuer = decision.issuer := by
  unfold logonDecision at h
  split at h
  · obtain rfl := Option.some.inj h
    exact ⟨⟨rfl, rfl, rfl, rfl, rfl, rfl⟩, rfl⟩
  · split at h
    · split at h
      all_goals
        obtain rfl := Option.some.inj h
        exact ⟨⟨rfl, rfl, rfl, rfl, rfl, rfl⟩, rfl⟩
    · cases h

variable {actor : Actor} {appId : ℕ} {r : CertRequest} {app : App} {decision : Decision}

/-- the profile decides the names, and the folders and the directory leave them -/
theorem DecidedFor.names (h : DecidedFor env d actor appId r app csr decision) :
    ∃ prevFp first, evaluate env.lower env.sha256 env.policies csr app.profile app.allowedDomains r.days r.hours prevFp
      r.popVerified = .ok first ∧ SameNames first decision := by
  obtain ⟨prevFp, second, -, heval, hlogon⟩ := h.evaluated
  obtain ⟨first, hfirst, heval⟩ := except_bind_ok.1 heval
  obtain ⟨eff, -, happly⟩ := except_bind_ok.1 heval
  obtain ⟨hnames, -⟩ := apply_names (evaluate_fresh hfirst).2 happly
  obtain ⟨hlogon, -⟩ := logonDecision_names hlogon
  refine ⟨prevFp, first, hfirst, ?_⟩
  constructor
  · exact hlogon.profile.trans hnames.profile
  · exact hlogon.dnsNames.trans hnames.dnsNames
  · exact hlogon.uris.trans hnames.uris
  · exact hlogon.emails.trans hnames.emails
  · exact hlogon.upns.trans hnames.upns
  · exact hlogon.commonName.trans hnames.commonName

/-- **The issuer of a decision** is the one the app's folders set, else its profile's. -/
theorem DecidedFor.issuer (h : DecidedFor env d actor appId r app csr decision) : issuerOf env decision = issuerFor env d app := by
  obtain ⟨prevFp, second, -, heval, hlogon⟩ := h.evaluated
  obtain ⟨first, hfirst, heval⟩ := except_bind_ok.1 heval
  obtain ⟨eff, heff, happly⟩ := except_bind_ok.1 heval
  obtain ⟨hprofile, hnone⟩ := evaluate_fresh hfirst
  obtain ⟨hnames, hset⟩ := apply_names hnone happly
  obtain ⟨hlogonNames, hissuer⟩ := logonDecision_names hlogon
  have hname : decision.profile = app.profile := (hlogonNames.profile.trans hnames.profile).trans hprofile
  unfold issuerOf issuerFor
  rw [heff, except_ok_bind, hset, except_ok_bind, hissuer, hname]
  rfl

/-! ## Requests that return a certificate -/

theorem fulfil_signed {profileName : String} {s s' : Session Db} {id : ℕ}
    (h : fulfil env actor appId app profileName csr decision r s = (.ok (.certificate id), s')) :
    ∃ leaf, signedLeaf env s.work csr decision = .ok leaf ∧ s.work.certificates.get id = none ∧
      HasLeaf id leaf s'.work ∧ s'.work.frontEnd = s.work.frontEnd := by
  unfold fulfil at h
  split at h
  · obtain ⟨i, s₁, -, h⟩ := Tx.bind_returns.1 h
    cases h
  split at h
  · obtain ⟨i, s₁, -, h⟩ := Tx.bind_returns.1 h
    cases h
  obtain ⟨i, s₁, hsign, h⟩ := Tx.bind_returns.1 h
  obtain ⟨leaf, hleaf, hnew, hstored, hfront⟩ := sign_signed hsign
  cases hprev : r.previous with
  | none =>
    rw [hprev] at h
    cases h
    exact ⟨leaf, hleaf, hnew, hstored, hfront⟩
  | some prev =>
    rw [hprev] at h
    cases h
    refine ⟨leaf, hleaf, hnew, ?_, hfront⟩
    exact hstored.update (f := fun c => { c with status := .superseded, replacedBy := some id }) fun c => ⟨rfl, rfl⟩

/-- a request that returns was decided on the rows it found -/
theorem requestCertificate_decided {s s' : Session Db} {out : Outcome}
    (h : requestCertificate env actor appId r s = (.ok out, s')) :
    ∃ app csr decision, DecidedFor env s.work actor appId r app csr decision ∧
      fulfil env actor appId app app.profile csr decision r s = (.ok out, s') := by
  unfold requestCertificate at h
  rw [Tx.get_bind] at h
  obtain ⟨app, s₁, hlift, h⟩ := Tx.bind_returns.1 h
  obtain ⟨happ, rfl⟩ : mayRequest env s.work actor appId = .ok app ∧ s = s₁ := Prod.mk.inj hlift
  split at h
  · cases h
  next hprof =>
  replace hprof : (r.profile.filter (· ≠ "")).getD app.profile = app.profile := not_not.1 hprof
  rw [hprof] at h
  obtain ⟨csr, s₁, hlift, h⟩ := Tx.bind_returns.1 h
  obtain ⟨hcsr, rfl⟩ : requestedCsr env r = .ok csr ∧ s = s₁ := Prod.mk.inj hlift
  obtain ⟨prevFp, s₁, hlift, h⟩ := Tx.bind_returns.1 h
  obtain ⟨hfp, rfl⟩ : previousFp env s.work r.previous = .ok prevFp ∧ s = s₁ := Prod.mk.inj hlift
  cases heval : evaluateRequest env s.work csr app app.profile r.days r.hours prevFp r.popVerified with
  | error e =>
    rw [heval] at h
    cases e
    all_goals cases h
  | ok first =>
  rw [heval] at h
  dsimp only at h
  obtain ⟨decision, s₁, hrun, hfulfil⟩ := Tx.bind_returns.1 h
  obtain ⟨hlogon, rfl⟩ := decideLogon_ok.1 hrun
  exact ⟨app, csr, decision, ⟨happ, hcsr, prevFp, first, hfp, heval, hlogon⟩, hfulfil⟩

/-- **A request that returns a certificate** was decided on the rows it found, and the certificate signed for that decision
is stored under the number returned. -/
theorem requestCertificate_signed {s s' : Session Db} {id : ℕ}
    (h : requestCertificate env actor appId r s = (.ok (.certificate id), s')) :
    ∃ app csr decision leaf, DecidedFor env s.work actor appId r app csr decision ∧
      signedLeaf env s.work csr decision = .ok leaf ∧ s.work.certificates.get id = none ∧ HasLeaf id leaf s'.work ∧
      s'.work.frontEnd = s.work.frontEnd := by
  obtain ⟨app, csr, decision, hdecided, hfulfil⟩ := requestCertificate_decided h
  obtain ⟨leaf, hleaf, hstored⟩ := fulfil_signed hfulfil
  exact ⟨app, csr, decision, leaf, hdecided, hleaf, hstored⟩

end Decisions

end Platform

end Certadillo
