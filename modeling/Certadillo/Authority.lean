/-
The certificate authority (`ca/authority.py`) and the status seals give its rows (`integrity.py`).

- `trustedStatus`: the status OCSP and the CRL report, from the seal and the audit trail.
- `CAService`: the CA hierarchy, issuance, revocation and CRLs. A signature enters through `Env`; everything that is
  signed is built here.
-/
import Certadillo.Policy.Folders

namespace Certadillo

open Integrity Policy Py

/-! ## Trusted status -/

namespace Integrity

/-- True if the audit trail records this serial's revocation. -/
def revokedInAudit (d : Db) (serialHex : String) : Bool :=
  d.audit.any fun e => e.action = "certificate.revoke" && e.target = serialHex

def revokedSerials (d : Db) : List String :=
  (d.audit.filter fun e => e.action = "certificate.revoke").map (·.target)

/-- The status OCSP and the CRL should report. -/
def trustedStatus (st : SealState) (d : Db) (cert : Certificate) : CertStatus :=
  if !verify st cert then .revoked
  else if cert.status ≠ .revoked && st.key.isSome && revokedInAudit d cert.serialHex then .revoked
  else cert.status

theorem mem_revokedSerials {d : Db} {s : String} : s ∈ revokedSerials d ↔ revokedInAudit d s = true := by
  simp [revokedSerials, revokedInAudit, and_assoc]

end Integrity

/-! ## Certificate rows -/

/-- the reason codes a CRL entry can carry -/
def REASONS : List String :=
  ["unspecified", "key_compromise", "ca_compromise", "affiliation_changed", "superseded", "cessation_of_operation",
    "certificate_hold", "privilege_withdrawn"]

/-- `Certificate(**cert_row_fields(cert), ...)` with the column defaults -/
def certRow (env : Env) (cert : X509Cert) (source : CertSource) (appId : Option ℕ) : Certificate :=
  let (ktype, bits, _) := describeCertKey cert.tbs.publicKey
  let sans := (cert.tbs.san.map San.strings).getD []
  { serialHex := hex cert.tbs.serialNumber
    fingerprintSha256 := cert.fingerprint
    caId := none
    appId := appId
    commonName := cert.tbs.commonName.getD (sans.head?.getD "")
    sans := sans
    notBefore := cert.tbs.notBefore
    notAfter := cert.tbs.notAfter
    keyType := ktype
    keySize := bits
    profile := none
    pem := cert.pem
    status := .active
    source := source
    backend := "local"
    protocol := none
    location := none
    revokedAt := none
    revocationReason := none
    replacedBy := none
    lastSeen := none
    createdAt := env.now
    sealHex := none
    backendRef := none
    chainPem := none }

/-- add a certificate row; its fingerprint is unique -/
def addCertificate (env : Env) (row : Certificate) : M ℕ :=
  addRow env Col.certificates (unique "certificates.fingerprint_sha256" (·.fingerprintSha256) row.fingerprintSha256) row

/-- the SHA-256 of a certificate's SubjectPublicKeyInfo -/
def spkiSha256 (env : Env) (cert : X509Cert) : Option String := cert.tbs.publicKey.map fun k => env.sha256 k.spki

namespace CAService

/-! ## Hierarchy -/

/-- `x509.load_pem_x509_certificate` -/
def loadPem (env : Env) (pem : String) : Except Err X509Cert :=
  match env.loadPemCert pem with
  | some c => .ok c
  | none => .error (.value "Unable to load PEM file")

def get (d : Db) (name : String) : Except Err (ℕ × CertificateAuthority) := do
  match ← oneOrNone d.cas fun ca => ca.name = name with
  | some ca => pure ca
  | none => throw (.lookup s!"CA {name} not found")

def pathLength (env : Env) (ca : CertificateAuthority) : Except Err (Option ℕ) := do
  let cert ← loadPem env ca.certPem
  pure cert.tbs.pathLength

/-- the first CA of the list that issues end-entity certificates (pathlen 0) -/
def firstIssuing (env : Env) : List (ℕ × CertificateAuthority) → Except Err (ℕ × CertificateAuthority)
  | [] => .error (.lookup "no issuing CA; run `certadillo init`")
  | ca :: rest => do
    let pl ← pathLength env ca.2
    if pl = some 0 then pure ca else firstIssuing env rest

/-- Newest CA that issues end-entity certificates (pathlen 0). -/
def defaultIssuing (env : Env) (d : Db) : Except Err (ℕ × CertificateAuthority) :=
  firstIssuing env (d.cas.all fun ca => !ca.isRoot).reverse

/-- Return the parent's pathlen, refusing parents that cannot have sub-CAs. -/
def checkCanSignCa (env : Env) (parent : CertificateAuthority) : Except Err (Option ℕ) := do
  let pl ← pathLength env parent
  let name := parent.name
  if pl = some 0 then throw (.value s!"CA {name} has pathlen 0 and cannot issue subordinate CAs")
  pure pl

/-- The key behind key_ref must be the one in the CA certificate. -/
def signerFor (env : Env) (ca : CertificateAuthority) : Except Err Signer := do
  let name := ca.name
  let ref := ca.keyRef
  if startsWith ca.keyRef.toList "offline:".toList then
    throw (.runtime (s!"CA {name}'s key is offline; sign with it in the offline ceremony " ++
      "(`certadillo offline-root`), not on this server"))
  else
    let signer ← libCall .other (env.keystoreLoad ca.keyRef)
    let cert ← loadPem env ca.certPem
    if cert.tbs.publicKey.map (·.spki) ≠ some signer.publicKey.spki then
      throw (.runtime s!"the key behind {ref} does not match CA {name}'s certificate; refusing to sign")
    else pure signer

/-- `sign_x509(b, signer)` -/
def signX509 (env : Env) (signer : Signer) (tbs : Tbs) : Except Err X509Cert := do
  let signed ← libCall .value (env.signX509 signer tbs)
  pure ⟨tbs, signed, false⟩

/-- the chain from a CA to its root -/
def chainFrom (env : Env) (d : Db) : ℕ → Option (ℕ × CertificateAuthority) → Except Err (List X509Cert)
  | _, none => .ok []
  | 0, some _ => .error (.runtime "the CA hierarchy has a cycle")
  | n + 1, some (_, ca) => do
    let cert ← loadPem env ca.certPem
    let parent := match ca.parentId with
      | none => none
      | some p => if p = 0 then none else (d.cas.get p).map (p, ·)
    let rest ← chainFrom env d n parent
    pure (cert :: rest)

/-- the loop over parents ends only on an acyclic hierarchy, which has at most one step for each CA -/
def chain (env : Env) (d : Db) (ca : ℕ × CertificateAuthority) : Except Err (List X509Cert) :=
  chainFrom env d (d.cas.rows.length + 1) (some ca)

/-- what a CA signs for its own service keys (OCSP, TSA) -/
def serviceTbs (env : Env) (draw : ℕ) (issuer : String) (cn : String) (pub : PublicKey) (notAfter : ℤ)
    (keyUsage ekus : List String) : Tbs :=
  { serialNumber := env.randomSerial draw
    issuer := issuer
    organization := some env.orgName
    commonName := some cn
    publicKey := some pub
    notBefore := env.now - 300
    notAfter := notAfter
    ca := false
    pathLength := none
    keyUsage := keyUsage
    ekus := ekus
    san := none
    sid := none
    permitted := []
    excluded := [] }

def rotateOcspSigner (env : Env) (caId : ℕ) (ca : CertificateAuthority) (days : ℤ) : M Unit := do
  let name := ca.name
  let now := env.now
  let caCert ← lift (loadPem env ca.certPem)
  let osigner ← lift (libCall .other (env.keystoreGenerate s!"ocsp-{name}-{now}" "ec-p256"))
  let signer ← lift (signerFor env ca)
  let subject := caCert.tbs.commonName.getD ""
  let cert ← lift (signX509 env signer (serviceTbs env 1 subject s!"OCSP Responder {name}" osigner.publicKey
    (env.now + days * 86400) [] ["ocsp_signing"]))
  setPlain Col.cas caId fun ca => { ca with ocspCertPem := some cert.pem, ocspKeyRef := some osigner.keyRef }

def createSubordinate (env : Env) (parent : ℕ × CertificateAuthority) (name : String) (years : ℤ)
    (alg : String) (pathLen : ℕ) : M ℕ := do
  let parentPl ← lift (checkCanSignCa env parent.2)
  let pathLen := match parentPl with
    | some pl => min pathLen (pl - 1)
    | none => pathLen
  let parentCert ← lift (loadPem env parent.2.certPem)
  let parentSigner ← lift (signerFor env parent.2)
  let signer ← lift (libCall .other (env.keystoreGenerate name alg))
  let org := env.orgName
  let tbs : Tbs :=
    { serialNumber := env.randomSerial 0
      issuer := parentCert.tbs.commonName.getD ""
      organization := some env.orgName
      commonName := some s!"{org} Issuing CA {name}"
      publicKey := some signer.publicKey
      notBefore := env.now - 300
      notAfter := min (env.now + 365 * years * 86400) parentCert.tbs.notAfter
      ca := true
      pathLength := some pathLen
      keyUsage := ["digital_signature", "key_cert_sign", "crl_sign"]
      ekus := []
      san := none
      sid := none
      permitted := env.caPermittedDns ++ env.caPermittedEmail
      excluded := env.caExcludedDns }
  let cert ← lift (signX509 env parentSigner tbs)
  let ca : CertificateAuthority :=
    { name := name, parentId := some parent.1, certPem := cert.pem, keyRef := signer.keyRef, signerType := signer.kind,
      isRoot := false, crlNumber := 0, crlLastGenerated := none, crlDer := none, ocspCertPem := none,
      ocspKeyRef := none, scepRaCertPem := none, scepRaKeyRef := none, cmpRaCertPem := none, cmpRaKeyRef := none, tsaCertPem := none, tsaKeyRef := none }
  let id ← addPlain Col.cas (unique "cas.name" (·.name) name) ca
  rotateOcspSigner env id ca 30
  pure id

/-- `tsa.ensure_tsa`: the time-stamping unit of an issuing CA, created on first use and renewed when under 30 days
remain -/
def ensureTsa (env : Env) (caId : ℕ) (ca : CertificateAuthority) : M (X509Cert × Signer) := do
  let stored ← lift (match ca.tsaCertPem, ca.tsaKeyRef with
    | some pem, some ref => do
      let cert ← loadPem env pem
      pure (if cert.tbs.notAfter - env.now > 30 * 86400 then some (cert, ref) else none)
    | _, _ => pure none)
  match stored with
  | some (cert, ref) =>
    let signer ← lift (libCall .other (env.keystoreLoad ref))
    pure (cert, signer)
  | none =>
    let name := ca.name
    let now := env.now
    let caCert ← lift (loadPem env ca.certPem)
    let signer ← lift (libCall .other (env.keystoreGenerate s!"tsa-{name}-{now}" "ec-p384"))
    let caSigner ← lift (signerFor env ca)
    let cert ← lift (signX509 env caSigner (serviceTbs env 2 (caCert.tbs.commonName.getD "")
      s!"Time Stamping Unit {name}" signer.publicKey (min (env.now + 365 * 86400) caCert.tbs.notAfter)
      ["digital_signature"] ["time_stamping"]))
    setPlain Col.cas caId fun ca => { ca with tsaCertPem := some cert.pem, tsaKeyRef := some signer.keyRef }
    pure (cert, signer)

/-! ## Issuance -/

/-- `EKU`: the names a profile may list -/
def EKU : List String :=
  ["server_auth", "client_auth", "code_signing", "email_protection", "smartcard_logon", "pkinit_client", "kdc_auth"]

/-- `_profile_ekus` -/
def profileEkus (pol : Policies) (profile : String) : List String :=
  ((pol.profiles.lookup profile).bind (·.extendedKeyUsage)).getD ["server_auth"]

/-- the certificate `issue` signs -/
def leafTbs (env : Env) (caCert : X509Cert) (pub : PublicKey) (decision : Decision) : Tbs :=
  let ekus := profileEkus env.policies decision.profile
  let isRsa := (describeKey pub).1 = "rsa"
  let cn := decision.commonName.filter (· ≠ "")
  let san : San := ⟨decision.dnsNames, decision.uris, decision.emails, [], decision.upns.map some⟩
  { serialNumber := env.randomSerial 0
    issuer := caCert.tbs.commonName.getD ""
    organization := some env.orgName
    commonName := cn.map fun cn => String.ofList (cn.toList.take 64)
    publicKey := some pub
    notBefore := env.now - 60
    notAfter := min (env.now + decision.validity) caCert.tbs.notAfter
    ca := false
    pathLength := none
    keyUsage := "digital_signature" ::
      (if isRsa && !ekus.contains "code_signing" then ["key_encipherment"] else [])
    ekus := ekus
    san := if san = .none then none else some san
    sid := decision.sid.filter (· ≠ "")
    permitted := []
    excluded := [] }

/-- what `issue` signs and with which CA, before the row is added -/
def prepare (env : Env) (d : Db) (csr : Csr) (decision : Decision) (ca : Option (ℕ × CertificateAuthority)) :
    Except Err (ℕ × X509Cert) := do
  let ca ← match ca with
    | some ca => pure ca
    | none => defaultIssuing env d
  let caCert ← loadPem env ca.2.certPem
  let pub ← libCall .value csr.publicKey
  match (profileEkus env.policies decision.profile).find? fun e => !EKU.contains e with
  | some e => throw (.key e)
  | none =>
    let signer ← signerFor env ca.2
    let cert ← signX509 env signer (leafTbs env caCert pub decision)
    pure (ca.1, cert)

def issue (env : Env) (csr : Csr) (decision : Decision) (ca : Option (ℕ × CertificateAuthority)) (appId : Option ℕ) :
    M ℕ := do
  let d ← Tx.get
  let (caId, cert) ← lift (prepare env d csr decision ca)
  addCertificate env { certRow env cert .issued appId with caId := some caId, profile := some decision.profile }

/-! ## Revocation -/

/-- `CAService.revoke` -/
def revoke (env : Env) (id : ℕ) (row : Certificate) (reason : String) : M Unit :=
  if !REASONS.contains reason then raise (.value s!"unknown reason {reason}")
  else if row.source ≠ .issued then raise (.value "only certificates issued by this platform can be revoked here")
  else if row.status = .revoked then pure ()
  else setRow env Col.certificates id fun c =>
    { c with status := .revoked, revokedAt := some env.now, revocationReason := some reason }

/-- the rows a CRL of CA `caId` lists: revoked ones, then those whose seal is broken or whose serial the audit trail says
was revoked -/
def crlRows (st : SealState) (d : Db) (caId : ℕ) : List Certificate :=
  let rows := (d.certificates.vals).filter fun c => c.caId = some caId
  let audited := revokedSerials d
  rows.filter (fun c => c.status = .revoked) ++
    rows.filter fun c => c.status ≠ .revoked && (!verify st c || audited.contains c.serialHex)

/-- a stored row is on the CRL iff it is one of the CA's and is revoked, broken, or recorded as revoked -/
theorem mem_crlRows {st : SealState} {d : Db} {caId i : ℕ} {c : Certificate} (hget : d.certificates.get i = some c) :
    c ∈ crlRows st d caId ↔ c.caId = some caId ∧
      (c.status = .revoked ∨ verify st c = false ∨ revokedInAudit d c.serialHex = true) := by
  have hmem : c ∈ d.certificates.vals := List.mem_map.2 ⟨(i, c), Table.mem_rows.2 hget, rfl⟩
  have haudit : (revokedSerials d).contains c.serialHex = revokedInAudit d c.serialHex := by
    rw [Bool.eq_iff_iff, List.contains_iff_mem]
    exact mem_revokedSerials
  unfold crlRows
  simp only [List.mem_append, List.mem_filter, hmem, haudit]
  by_cases hst : c.status = .revoked
  · simp [hst]
  · simp [hst]

/-- `_EARLIEST_UTC_TIME` of the certificate library: 1950 January 1 -/
def earliestUtcTime : ℤ := -631152000

/-- a CRL entry; the builder takes serials of at most 159 bits -/
def crlEntry (st : SealState) (now : ℤ) (r : Certificate) : Except Err CrlEntry := do
  let date := r.revokedAt.getD now
  let ok := r.status = .revoked && verify st r
  let reason := ((if ok then r.revocationReason else none).filter (· ≠ "")).getD "unspecified"
  let serial ← intOfHex r.serialHex
  if serial ≤ 0 then throw (.value "The serial number should be positive")
  else if serial.toNat ≥ 2 ^ 159 then throw (.value "The serial number should not be more than 159 bits.")
  else if date < earliestUtcTime then throw (.value "The revocation date must be on or after 1950 January 1.")
  else if !REASONS.contains reason then throw (.key reason)
  else pure ⟨serial.toNat, date, reason⟩

/-- an entry has its row's serial -/
theorem crlEntry_serial {st : SealState} {now : ℤ} {r : Certificate} {e : CrlEntry} (h : crlEntry st now r = .ok e) :
    intOfHex r.serialHex = .ok (e.serial : ℤ) := by
  unfold crlEntry at h
  extract_lets -underBinder date ok reason at h
  obtain ⟨n, hn, h⟩ := except_bind_ok.1 h
  split_ifs at h with hpos hbig hdate hreason
  cases h
  have hnonneg : 0 ≤ n := by omega
  rw [hn, Int.toNat_of_nonneg hnonneg]

/-- the CRL `generate_crl` builds for a CA whose counter is already incremented -/
def buildCrl (env : Env) (d : Db) (caId : ℕ) (number : ℤ) (nextUpdateHours : ℤ) : Except Err Crl := do
  let entries ← (crlRows env.st d caId).mapM (crlEntry env.st env.now)
  pure ⟨number, env.now, env.now + nextUpdateHours * 3600, entries⟩

def generateCrl (env : Env) (caId : ℕ) (nextUpdateHours : ℤ) : M Unit := do
  let d ← Tx.get
  match d.cas.get caId with
  | none => raise (.attribute "'NoneType' object has no attribute 'cert_pem'")
  | some ca =>
    let _ ← lift (loadPem env ca.certPem)
    setPlain Col.cas caId fun ca => { ca with crlNumber := ca.crlNumber + 1 }
    let d ← Tx.get
    let crl ← lift (buildCrl env d caId (ca.crlNumber + 1) nextUpdateHours)
    let signer ← lift (signerFor env ca)
    lift (libCall .value (env.signCrl signer crl))
    setPlain Col.cas caId fun ca => { ca with crlLastGenerated := some env.now, crlDer := some crl }

end CAService

end Certadillo
