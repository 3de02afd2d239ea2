/-
`revoke-cert` of the ACME server: a certificate is revoked by the account of its app, or under its own key (RFC 8555 7.6).

The DER of the payload's certificate and the thumbprint of its key enter through `Certificates`.

- `codes_reasons`: every reason code the server accepts names a reason of a CRL.
- `doesAt_revokeCert`: what a request writes, whatever its revocation writes.
-/
import Certadillo.Enrollment.Acme
import Certadillo.Discovery.Reports
import Certadillo.Services.Effects

namespace Certadillo.Acme

open Integrity Policy Py Platform
open Tx (Calm CalmAt Does DoesAt)

structure Certificates where
  /-- `x509.load_der_x509_certificate(b64u_dec(v))` -/
  loadDer : Json → Except Err X509Cert
  /-- `thumbprint(_pub_jwk(cert.public_key()))` -/
  ownThumbprint : X509Cert → Except Err String

def codes : List (ℤ × String) :=
  [(0, "unspecified"), (1, "key_compromise"), (3, "affiliation_changed"), (4, "superseded"), (5, "cessation_of_operation")]

/-- the key `reason` is among the codes: True and False are 1 and 0, and a list or a dict has no hash -/
def codeOf : Json → Except Err (Option ℤ)
  | .num n => .ok (some n)
  | .bool b => .ok (some (if b then 1 else 0))
  | .arr _ => .error (.type "unhashable type: 'list'")
  | .obj _ => .error (.type "unhashable type: 'dict'")
  | _ => .ok none

/-- the reason a payload's code names -/
def reasonNamed (payload : Json) : Except Err String := do
  let reason ← dgetOr payload "reason" (.num 0)
  match (← codeOf reason).bind fun code => codes.lookup code with
  | some name => pure name
  | none =>
    let shown := Discovery.strOf reason
    throw (.acme "badRevocationReason" s!"reason code {shown} is not accepted" 400)

/-- the row of the payload's certificate -/
def namedRow (certs : Certificates) (d : Db) (payload : Json) : Except Err (X509Cert × ℕ × Certificate) := do
  let cert ← certs.loadDer (← item payload "certificate")
  match ← oneOrNone d.certificates fun c => c.fingerprintSha256 = cert.fingerprint with
  | none => throw (.acme "unauthorized" "certificate not issued here" 403)
  | some (id, row) => pure (cert, id, row)

/-- who revokes: the certificate's own key, or the account of its app -/
def revokerOf (certs : Certificates) (site : Site) (d : Db) (req : Request) (cert : X509Cert) (row : Certificate) :
    Option (ℕ × AcmeAccount) → Except Err Actor
  | none =>
    match req.keyId with
    | .jwk jwk => do
      let given ← site.thumbprint jwk
      let own ← certs.ownThumbprint cert
      let serial := row.serialHex
      if given ≠ own then throw (.acme "unauthorized" "the JWS key is not the certificate's key" 403)
      else pure ⟨s!"acme:cert-key:{serial}", .app, row.appId⟩
    | _ => .error (.key "jwk")
  | some acct =>
    if row.appId ≠ some acct.2.appId then
      .error (.acme "unauthorized" "certificate not issued to this account's app" 403)
    else do
      let (who, _) ← appActor d acct
      pure who

/-- `revoke_cert`, up to the revocation -/
def mayRevokeCert (certs : Certificates) (site : Site) (d : Db) (req : Request) : Except Err (Actor × ℕ × String) := do
  let (payload, acct) ← identify d req false true
  let (cert, id, row) ← namedRow certs d payload
  let who ← revokerOf certs site d req cert row acct
  if row.status = .revoked then throw (.acme "alreadyRevoked" "certificate already revoked" 400)
  else
    let reason ← reasonNamed payload
    pure (who, id, reason)

/-- `revoke_cert`, inside the try -/
def revokeNamed (env : Env) (certs : Certificates) (site : Site) (draws : Draws) (req : Request) : M Reply := do
  let d ← Tx.get
  let nonce ← lift (takeNonce d req)
  spendNonce nonce
  let d ← Tx.get
  let (who, id, reason) ← lift (mayRevokeCert certs site d req)
  revoke env who id reason none
  resp env draws .empty

def revokeCert (env : Env) (certs : Certificates) (site : Site) (draws : Draws) (req : Request) :
    M (Except (String × String × ℕ) Reply) :=
  answer env draws (revokeNamed env certs site draws req)

/-! ## What a request writes -/

theorem codes_reasons {code : ℤ} {name : String} (h : codes.lookup code = some name) : name ∈ REASONS := by
  have hall : ∀ p ∈ codes, p.2 ∈ REASONS := by decide
  obtain ⟨l₁, l₂, hl, -⟩ := List.lookup_eq_some_iff.1 h
  exact hall (code, name) (hl ▸ List.mem_append_right _ List.mem_cons_self)

theorem reasonNamed_mem {payload : Json} {reason : String} (h : reasonNamed payload = .ok reason) : reason ∈ REASONS := by
  unfold reasonNamed at h
  obtain ⟨j, -, h⟩ := except_bind_ok.1 h
  obtain ⟨code, -, h⟩ := except_bind_ok.1 h
  split at h
  · next name hname =>
    obtain ⟨n, -, hlookup⟩ := Option.bind_eq_some_iff.1 hname
    obtain rfl := Except.ok.inj h
    exact codes_reasons hlookup
  · cases h

/-- the row and the reason a request names -/
def Asks (certs : Certificates) (d : Db) (req : Request) (i : ℕ) (reason : String) : Prop :=
  ∃ payload cert row, req.payload = .ok payload ∧ namedRow certs d payload = .ok (cert, i, row) ∧
    reasonNamed payload = .ok reason

section Writes

variable {env : Env} {certs : Certificates} {site : Site} {draws : Draws} {d : Db} {req : Request}

theorem identify_payload {allowJwk : Bool} {payload : Json} {acct : Option (ℕ × AcmeAccount)}
    (h : identify d req false allowJwk = .ok (payload, acct)) : req.payload = .ok payload := by
  unfold identify at h
  obtain ⟨url, -, h⟩ := except_bind_ok.1 h
  split at h
  · cases h
  split at h
  · split at h
    · cases h
    obtain ⟨_, -, h⟩ := except_bind_ok.1 h
    obtain ⟨p, hp, h⟩ := except_bind_ok.1 h
    obtain ⟨rfl, -⟩ := Prod.mk.inj (Except.ok.inj h)
    exact hp
  · split at h
    · cases h
    split at h
    · cases h
    dsimp only at h
    split at h
    · cases h
    obtain ⟨_, -, h⟩ := except_bind_ok.1 h
    obtain ⟨p, hp, h⟩ := except_bind_ok.1 h
    obtain ⟨rfl, -⟩ := Prod.mk.inj (Except.ok.inj h)
    exact hp
  · cases h

theorem mayRevokeCert_asks {who : Actor} {i : ℕ} {reason : String} (h : mayRevokeCert certs site d req = .ok (who, i, reason)) :
    Asks certs d req i reason := by
  unfold mayRevokeCert at h
  obtain ⟨⟨payload, acct⟩, hidentify, h⟩ := except_bind_ok.1 h
  obtain ⟨⟨cert, id, row⟩, hrow, h⟩ := except_bind_ok.1 h
  obtain ⟨_, -, h⟩ := except_bind_ok.1 h
  split at h
  · cases h
  obtain ⟨name, hname, h⟩ := except_bind_ok.1 h
  obtain ⟨-, hpair⟩ := Prod.mk.inj (Except.ok.inj h)
  obtain ⟨rfl, rfl⟩ := Prod.mk.inj hpair
  exact ⟨payload, cert, row, identify_payload hidentify, hrow, hname⟩

/-- **A revoke-cert request writes** its nonces, and what the revocation it asks for writes. -/
theorem doesAt_revokeCert {W : Db → Db → Prop} (hnonces : ∀ d t, W d { d with acmeNonces := t }) {s : Session Db}
    (hrevoke : ∀ i reason, Asks certs s.work req i reason → ∀ who, Does W (revoke env who i reason none)) :
    DoesAt W s (revokeCert env certs site draws req) := by
  have hnew : Calm W (newNonce env draws) := by
    unfold newNonce
    exact Tx.calm_bind (calm_addPlain_of fun d => hnonces d _) fun _ => Tx.calm_pure _
  have hanswered : DoesAt W s (revokeNamed env certs site draws req) := by
    unfold revokeNamed
    refine Tx.doesAt_get_bind (Tx.doesAt_ofExcept_bind fun nonce _ => ?_)
    have hspend : Does W (spendNonce nonce) :=
      Tx.does_bind (Tx.calm_modify fun d => hnonces d _).does fun _ => Tx.does_commit
    refine Tx.doesAt_bind (hspend s) fun _ s' hrun => Tx.doesAt_get_bind (Tx.doesAt_ofExcept_bind fun asked hasked => ?_)
    cases hrun
    obtain ⟨who, i, reason⟩ := asked
    -- the rows are those the request found, but for its nonce
    have hasks : Asks certs s.work req i reason := mayRevokeCert_asks hasked
    refine Tx.doesAt_bind (hrevoke i reason hasks who _) fun _ s' _ => ?_
    exact Tx.does_bind hnew.does (fun _ => Tx.does_bind Tx.does_commit fun _ => (Tx.calm_pure _).does) s'
  unfold revokeCert answer
  refine Tx.doesAt_bind (m := Tx.attempt _) hanswered fun result s' _ => ?_
  split
  · exact (Tx.calm_pure _).does s'
  · refine Tx.does_bind Tx.does_rollback (fun _ => ?_) s'
    exact Tx.does_bind hnew.does fun _ => Tx.does_bind Tx.does_commit fun _ => (Tx.calm_pure _).does
  · exact (Tx.calm_throw _).does s'

end Writes

end Certadillo.Acme
