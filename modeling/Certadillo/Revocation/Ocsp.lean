/-
The OCSP responder (`revocation/ocsp.py`).

`Lib` is what the responder takes from its libraries: the parser of requests, the hash of a CA's key, and the response
builder and its signature, which only succeed or fail.

- `respond_fst`: what the responder answers, as a computation on the database it finds; renewing its own certificate
  changes nothing it looks up.
- `answerTo_congr`: the columns of the database the answer depends on.
-/
import Certadillo.Authority

namespace Certadillo

open Integrity Policy Py

namespace Ocsp

/-! ## Model -/

structure OcspRequest where
  hashAlgorithm : String
  issuerNameHash : String
  issuerKeyHash : String
  serialNumber : ℤ
  nonce : Option String

/-- `OCSPCertStatus`, with the time and reason of a revocation -/
inductive CertAnswer where
  | good
  | unknown
  | revoked (time : ℤ) (reason : String)
deriving DecidableEq

inductive Response where
  | malformed
  | unauthorized
  | successful (answer : CertAnswer) (serialNumber : ℤ) (nonce : Option String)
deriving DecidableEq

structure Lib where
  loadDerOcspRequest : String → Option OcspRequest
  /-- `_hash(alg, _key_bits(pub))` -/
  keyHash : String → PublicKey → String
  sign : Signer → OcspRequest → CertAnswer → Except String Unit

/-- `format(n, "x")` of any integer -/
def hexInt (n : ℤ) : String := if n < 0 then "-" ++ hex n.natAbs else hex n.toNat

@[simp] theorem hexInt_natCast (n : ℕ) : hexInt n = hex n := by
  unfold hexInt
  rw [if_neg (by omega)]
  rfl

section

variable (env : Env) (lib : Lib)

/-- the first CA of the list whose key hash the request names -/
def target (req : OcspRequest) : List (ℕ × CertificateAuthority) → Except Err (Option (ℕ × CertificateAuthority))
  | [] => .ok none
  | ca :: rest => do
    let cert ← CAService.loadPem env ca.2.certPem
    match cert.tbs.publicKey with
    | none => throw (.other "Unsupported key type")
    | some key => if lib.keyHash req.hashAlgorithm key = req.issuerKeyHash then pure (some ca) else target req rest

/-- the CAs the responder answers for -/
def issuers (d : Db) : List (ℕ × CertificateAuthority) := d.cas.all fun ca => !ca.isRoot

/-- the responder's key, behind its certificate -/
def responderKey (certPem keyRef : Option String) : Except Err Signer := do
  let _ ← CAService.loadPem env (certPem.getD "")
  libCall .other (env.keystoreLoad (keyRef.getD ""))

/-- the query for the certificate's row -/
def asks (serialNumber : ℤ) (caId : ℕ) (c : Certificate) : Bool :=
  c.serialHex = hexInt serialNumber && c.caId = some caId

/-- the response builder takes a revocation only with its time -/
def revokedAnswer (time : Option ℤ) (reason : String) : Except Err CertAnswer :=
  match time with
  | none => .error (.type "revocation_time must be a datetime object")
  | some time =>
    if time < CAService.earliestUtcTime then .error (.value "The revocation_time must be on or after 1950 January 1.")
    else .ok (.revoked time reason)

/-- the status of the answer -/
def certAnswer (st : SealState) (d : Db) (now : ℤ) : Option Certificate → Except Err CertAnswer
  | none => .ok .unknown
  | some row =>
    if row.status ≠ .revoked ∧ trustedStatus st d row = .revoked then
      revokedAnswer (some (row.revokedAt.getD now)) "unspecified"
    else if row.status = .revoked then
      let reason := (row.revocationReason.filter (· ≠ "")).getD "unspecified"
      if !REASONS.contains reason then .error (.key reason) else revokedAnswer row.revokedAt reason
    else .ok .good

/-- the responder's certificate is replaced two days before it ends -/
def renewSigner (caId : ℕ) (ca : CertificateAuthority) (pem : String) : M Unit := do
  let responderCert ← lift (CAService.loadPem env pem)
  if responderCert.tbs.notAfter < env.now + 2 * 86400 then CAService.rotateOcspSigner env caId ca 30 else pure ()

/-- look the certificate up and sign its status -/
def signStatus (req : OcspRequest) (caId : ℕ) (ca : CertificateAuthority) : M Response := do
  let d ← Tx.get
  let ca := (d.cas.get caId).getD ca
  let key ← lift (responderKey env ca.ocspCertPem ca.ocspKeyRef)
  let row ← lift (oneOrNone d.certificates (asks req.serialNumber caId))
  let answer ← lift (certAnswer env.st d env.now (row.map Prod.snd))
  lift (libCall .value (lib.sign key req answer))
  pure (.successful answer req.serialNumber req.nonce)

def respond (der : String) : M Response := do
  let d ← Tx.get
  match lib.loadDerOcspRequest der with
  | none => pure .malformed
  | some req =>
    match ← lift (target env lib req (issuers d)) with
    | none => pure .unauthorized
    | some (caId, ca) =>
      match ca.ocspCertPem.filter (· ≠ "") with
      | none => pure .unauthorized
      | some pem => do
        renewSigner env caId ca pem
        signStatus env lib req caId ca

end

/-! ## The answer as a computation -/

section Answer

variable (env : Env) (lib : Lib)

/-- a new OCSP signer: its certificate and key -/
def rotated (ca : CertificateAuthority) (days : ℤ) : Except Err (String × String) := do
  let name := ca.name
  let now := env.now
  let caCert ← CAService.loadPem env ca.certPem
  let osigner ← libCall .other (env.keystoreGenerate s!"ocsp-{name}-{now}" "ec-p256")
  let signer ← CAService.signerFor env ca
  let subject := caCert.tbs.commonName.getD ""
  let cert ← CAService.signX509 env signer (CAService.serviceTbs env 1 subject s!"OCSP Responder {name}"
    osigner.publicKey (env.now + days * 86400) [] ["ocsp_signing"])
  pure (cert.pem, osigner.keyRef)

/-- the CA's row after the renewal -/
def renewed (ca : CertificateAuthority) (pem : String) : Except Err CertificateAuthority := do
  let responderCert ← CAService.loadPem env pem
  if responderCert.tbs.notAfter < env.now + 2 * 86400 then do
    let p ← rotated env ca 30
    pure { ca with ocspCertPem := some p.1, ocspKeyRef := some p.2 }
  else pure ca

/-- the signed status of a certificate of `ca` -/
def statusOf (d : Db) (req : OcspRequest) (caId : ℕ) (ca : CertificateAuthority) : Except Err Response := do
  let key ← responderKey env ca.ocspCertPem ca.ocspKeyRef
  let row ← oneOrNone d.certificates (asks req.serialNumber caId)
  let answer ← certAnswer env.st d env.now (row.map Prod.snd)
  libCall .value (lib.sign key req answer)
  pure (.successful answer req.serialNumber req.nonce)

/-- what the responder answers -/
def answerTo (d : Db) (der : String) : Except Err Response :=
  match lib.loadDerOcspRequest der with
  | none => .ok .malformed
  | some req => do
    match ← target env lib req (issuers d) with
    | none => pure .unauthorized
    | some (caId, ca) =>
      match ca.ocspCertPem.filter (· ≠ "") with
      | none => pure .unauthorized
      | some pem => do
        let ca ← renewed env ca pem
        statusOf env lib d req caId ca

variable {env lib}

theorem target_mem {req : OcspRequest} {l : List (ℕ × CertificateAuthority)} {p : ℕ × CertificateAuthority}
    (h : target env lib req l = .ok (some p)) : p ∈ l := by
  induction l with
  | nil => cases h
  | cons ca rest ih =>
    obtain ⟨cert, -, h⟩ := except_bind_ok.1 h
    split at h
    · cases h
    split at h
    · cases h
      exact List.mem_cons_self
    · exact List.mem_cons_of_mem _ (ih h)

/-- the CA found is a stored one -/
theorem target_stored {req : OcspRequest} {d : Db} {caId : ℕ} {ca : CertificateAuthority}
    (h : target env lib req (issuers d) = .ok (some (caId, ca))) : d.cas.get caId = some ca :=
  (Table.mem_all.1 (target_mem h)).1

theorem rotateOcspSigner_eq (caId : ℕ) (ca : CertificateAuthority) (days : ℤ) :
    CAService.rotateOcspSigner env caId ca days = (do
      let p ← lift (rotated env ca days)
      setPlain Col.cas caId fun ca => { ca with ocspCertPem := some p.1, ocspKeyRef := some p.2 }) := by
  unfold CAService.rotateOcspSigner rotated
  simp only [lift_bind, Tx.bind_assoc]
  rfl

/-- the renewal changes the CA's row only -/
theorem renewSigner_run {caId : ℕ} {ca : CertificateAuthority} {pem : String} {s : Session Db}
    (hca : s.work.cas.get caId = some ca) :
    match renewed env ca pem with
    | .error e => (renewSigner env caId ca pem s).1 = .error e
    | .ok ca' => ∃ t : Table CertificateAuthority, t.get caId = some ca' ∧
        renewSigner env caId ca pem s = (.ok (), { s with work := { s.work with cas := t } }) := by
  unfold renewed renewSigner
  cases CAService.loadPem env pem with
  | error e => rfl
  | ok cert =>
    rw [lift_ok_bind, rotateOcspSigner_eq, except_ok_bind]
    by_cases hends : cert.tbs.notAfter < env.now + 2 * 86400
    · rw [if_pos hends, if_pos hends]
      cases rotated env ca 30 with
      | error e => rfl
      | ok p =>
        refine ⟨s.work.cas.update caId fun ca => { ca with ocspCertPem := some p.1, ocspKeyRef := some p.2 }, ?_, rfl⟩
        rw [Table.get_update_self, hca]
        rfl
    · rw [if_neg hends, if_neg hends]
      exact ⟨s.work.cas, hca, rfl⟩

theorem signStatus_fst {req : OcspRequest} {caId : ℕ} {ca ca' : CertificateAuthority} {s : Session Db}
    (hca : s.work.cas.get caId = some ca') : (signStatus env lib req caId ca s).1 = statusOf env lib s.work req caId ca' := by
  unfold signStatus statusOf
  rw [Tx.get_bind, hca]
  dsimp only [Option.getD_some]
  cases responderKey env ca'.ocspCertPem ca'.ocspKeyRef with
  | error e => rfl
  | ok key =>
  rw [lift_ok_bind, except_ok_bind]
  cases oneOrNone s.work.certificates (asks req.serialNumber caId) with
  | error e => rfl
  | ok row =>
  rw [lift_ok_bind, except_ok_bind]
  cases certAnswer env.st s.work env.now (row.map Prod.snd) with
  | error e => rfl
  | ok answer =>
  rw [lift_ok_bind, except_ok_bind]
  cases libCall .value (lib.sign key req answer) with
  | error e => rfl
  | ok u => rfl

/-- what the responder answers does not depend on what renewing its certificate writes -/
theorem respond_fst (der : String) (s : Session Db) : (respond env lib der s).1 = answerTo env lib s.work der := by
  unfold respond answerTo
  rw [Tx.get_bind]
  cases lib.loadDerOcspRequest der with
  | none => rfl
  | some req =>
  dsimp only
  cases htarget : target env lib req (issuers s.work) with
  | error e => rfl
  | ok found =>
  rw [lift_ok_bind]
  match found, htarget with
  | none, _ => rfl
  | some (caId, ca), htarget =>
  dsimp only
  rw [except_ok_bind]
  dsimp only
  cases ca.ocspCertPem.filter (· ≠ "") with
  | none => rfl
  | some pem =>
  dsimp only
  have hrun := @renewSigner_run env caId ca pem s (target_stored htarget)
  cases hrenewed : renewed env ca pem with
  | error e =>
    rw [hrenewed] at hrun
    rw [except_error_bind, Tx.bind_run]
    generalize renewSigner env caId ca pem s = r at hrun
    obtain ⟨_, s'⟩ := r
    obtain rfl := hrun
    rfl
  | ok ca' =>
    rw [hrenewed] at hrun
    obtain ⟨t, hget, hrun⟩ := hrun
    rw [Tx.bind_ok hrun, signStatus_fst hget, except_ok_bind]
    rfl

/-- a signed status is that of the row the query finds -/
theorem answerTo_successful {d : Db} {der : String} {answer : CertAnswer} {n : ℤ} {nonce : Option String}
    (h : answerTo env lib d der = .ok (.successful answer n nonce)) :
    ∃ caId row, oneOrNone d.certificates (asks n caId) = .ok row ∧
      certAnswer env.st d env.now (row.map Prod.snd) = .ok answer := by
  unfold answerTo at h
  split at h
  · cases h
  next req _ =>
  obtain ⟨found, -, h⟩ := except_bind_ok.1 h
  split at h
  · cases h
  next caId ca =>
  split at h
  · cases h
  obtain ⟨ca', -, h⟩ := except_bind_ok.1 h
  unfold statusOf at h
  obtain ⟨key, -, h⟩ := except_bind_ok.1 h
  obtain ⟨row, hrow, h⟩ := except_bind_ok.1 h
  obtain ⟨answer', hanswer, h⟩ := except_bind_ok.1 h
  obtain ⟨_, -, h⟩ := except_bind_ok.1 h
  cases h
  exact ⟨caId, row, hrow, hanswer⟩

theorem revokedAnswer_ok {time : Option ℤ} {reason : String} {answer : CertAnswer}
    (h : revokedAnswer time reason = .ok answer) :
    ∃ t, time = some t ∧ CAService.earliestUtcTime ≤ t ∧ answer = .revoked t reason := by
  unfold revokedAnswer at h
  split at h
  · cases h
  next t =>
  split_ifs at h with hearly
  cases h
  exact ⟨t, rfl, by omega, rfl⟩

/-- GOOD is answered for a row that is not revoked, as trusted -/
theorem certAnswer_good {st : SealState} {d : Db} {now : ℤ} {row : Option Certificate}
    (h : certAnswer st d now row = .ok .good) : ∃ c, row = some c ∧ trustedStatus st d c ≠ .revoked := by
  unfold certAnswer at h
  split at h
  · cases h
  next c =>
  split at h
  · obtain ⟨t, -, -, hans⟩ := revokedAnswer_ok h
    cases hans
  next htrusted =>
  split at h
  · dsimp only at h
    split at h
    · cases h
    · obtain ⟨t, -, -, hans⟩ := revokedAnswer_ok h
      cases hans
  · next hst =>
    exact ⟨c, rfl, fun ht => htrusted ⟨hst, ht⟩⟩

end Answer

/-- one request, for serial 16 of the issuing CA -/
def demoLib : Lib where
  loadDerOcspRequest _ := some ⟨"sha1", "issuing", "ca-key", 16, none⟩
  keyHash _ key := key.spki
  sign _ _ _ := .ok ()

end Ocsp

end Certadillo
