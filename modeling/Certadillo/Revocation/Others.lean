/-
A revocation and the other certificates.

The audit trail records a revocation under the serial alone, and the trusted status and the CRL look a serial up there,
whoever issued it. So a revocation changes what is reported of the certificates of other issuers with the same serial.

- `respond_congr`: what of the database a response depends on.
- `revoke_frame_iff`: which other certificates a revocation leaves alone; `same_serial_affected` is one it does not.
-/
import Certadillo.Revocation.Agreement

namespace Certadillo.Revocation

open Integrity Policy Py Machine

/-! ## What a response depends on -/

section Congr

variable {env : Env} {lib : Ocsp.Lib} {d d' : Db} {der : String}

def withoutCrls (l : List (ℕ × CertificateAuthority)) : List (ℕ × CertificateAuthority) :=
  l.map fun p => (p.1, withoutCrl p.2)

theorem issuers_withoutCrls (d : Db) : withoutCrls (Ocsp.issuers d) = (caRows d).filter fun p => !p.2.isRoot := by
  simp only [withoutCrls, Ocsp.issuers, Table.all, caRows, List.filter_map]
  rfl

theorem target_withoutCrls {req : Ocsp.OcspRequest} (l : List (ℕ × CertificateAuthority)) :
    Ocsp.target env lib req (withoutCrls l) =
      (Ocsp.target env lib req l).map (Option.map fun p => (p.1, withoutCrl p.2)) := by
  induction l with
  | nil => rfl
  | cons ca rest ih =>
    unfold withoutCrls at ih ⊢
    simp only [List.map_cons, Ocsp.target]
    rw [show (withoutCrl ca.2).certPem = ca.2.certPem from rfl]
    cases CAService.loadPem env ca.2.certPem with
    | error e => rfl
    | ok cert =>
      rw [except_ok_bind, except_ok_bind]
      cases cert.tbs.publicKey with
      | none => rfl
      | some key =>
        dsimp only
        split
        · rfl
        · exact ih

theorem renewed_withoutCrl {ca : CertificateAuthority} {pem : String} :
    Ocsp.renewed env (withoutCrl ca) pem = (Ocsp.renewed env ca pem).map withoutCrl := by
  unfold Ocsp.renewed
  cases CAService.loadPem env pem with
  | error e => rfl
  | ok cert =>
    rw [except_ok_bind, except_ok_bind]
    split
    · rw [show Ocsp.rotated env (withoutCrl ca) 30 = Ocsp.rotated env ca 30 from rfl]
      cases Ocsp.rotated env ca 30 with
      | error e => rfl
      | ok p => rfl
    · rfl

/-- the verdict on the serial of a request to a CA -/
def verdict (env : Env) (d : Db) (req : Ocsp.OcspRequest) (caId : ℕ) : Except Err Ocsp.CertAnswer := do
  let row ← oneOrNone d.certificates (Ocsp.asks req.serialNumber caId)
  Ocsp.certAnswer env.st d env.now (row.map Prod.snd)

theorem statusOf_verdict {req : Ocsp.OcspRequest} {caId : ℕ} {ca : CertificateAuthority} :
    Ocsp.statusOf env lib d req caId ca = (do
      let key ← Ocsp.responderKey env ca.ocspCertPem ca.ocspKeyRef
      let answer ← verdict env d req caId
      libCall .value (lib.sign key req answer)
      pure (.successful answer req.serialNumber req.nonce)) := by
  unfold Ocsp.statusOf verdict
  cases Ocsp.responderKey env ca.ocspCertPem ca.ocspKeyRef with
  | error e => rfl
  | ok key =>
    rw [except_ok_bind, except_ok_bind]
    cases oneOrNone d.certificates (Ocsp.asks req.serialNumber caId) with
    | error e => rfl
    | ok row => rfl

/-- the answer of the responder of one CA -/
def answerOf (env : Env) (lib : Ocsp.Lib) (d : Db) (req : Ocsp.OcspRequest) (caId : ℕ) (ca : CertificateAuthority) :
    Except Err Ocsp.Response :=
  match ca.ocspCertPem.filter (· ≠ "") with
  | none => .ok .unauthorized
  | some pem => do
    let ca ← Ocsp.renewed env ca pem
    Ocsp.statusOf env lib d req caId ca

theorem answerOf_withoutCrl {req : Ocsp.OcspRequest} {caId : ℕ} {ca : CertificateAuthority} :
    answerOf env lib d req caId (withoutCrl ca) = answerOf env lib d req caId ca := by
  unfold answerOf
  rw [show (withoutCrl ca).ocspCertPem = ca.ocspCertPem from rfl]
  cases ca.ocspCertPem.filter (· ≠ "") with
  | none => rfl
  | some pem =>
    dsimp only
    rw [renewed_withoutCrl]
    cases Ocsp.renewed env ca pem with
    | error e => rfl
    | ok ca' => rfl

/-- a response depends on the CAs apart from their CRLs, and on the verdict on what it asks for -/
theorem respond_congr (hcas : caRows d' = caRows d)
    (hverdict : ∀ req caId ca, lib.loadDerOcspRequest der = some req →
      Ocsp.target env lib req (Ocsp.issuers d) = .ok (some (caId, ca)) → verdict env d' req caId = verdict env d req caId) :
    (Ocsp.respond env lib der ⟨d', d'⟩).1 = (Ocsp.respond env lib der ⟨d, d⟩).1 := by
  rw [Ocsp.respond_fst, Ocsp.respond_fst]
  unfold Ocsp.answerTo
  cases hreq : lib.loadDerOcspRequest der with
  | none => rfl
  | some req =>
  dsimp only
  have htarget : (Ocsp.target env lib req (Ocsp.issuers d')).map (Option.map fun p => (p.1, withoutCrl p.2)) =
      (Ocsp.target env lib req (Ocsp.issuers d)).map (Option.map fun p => (p.1, withoutCrl p.2)) := by
    rw [← target_withoutCrls, ← target_withoutCrls, issuers_withoutCrls, issuers_withoutCrls, hcas]
  cases hfound : Ocsp.target env lib req (Ocsp.issuers d) with
  | error e =>
    rw [hfound] at htarget
    cases hfound' : Ocsp.target env lib req (Ocsp.issuers d') with
    | error e' =>
      rw [hfound'] at htarget
      rw [Except.error.inj htarget]
      rfl
    | ok found' =>
      rw [hfound'] at htarget
      cases htarget
  | ok found =>
    rw [hfound] at htarget
    cases hfound' : Ocsp.target env lib req (Ocsp.issuers d') with
    | error e' =>
      rw [hfound'] at htarget
      cases htarget
    | ok found' =>
    rw [hfound'] at htarget
    have hsame := Except.ok.inj htarget
    cases found with
    | none =>
      rw [Option.map_eq_none_iff.1 hsame]
      rfl
    | some p =>
      obtain ⟨p', rfl, hp⟩ := Option.map_eq_some_iff.1 hsame
      obtain ⟨caId, ca⟩ := p
      obtain ⟨caId', ca'⟩ := p'
      obtain ⟨rfl, hca⟩ := Prod.mk.inj hp
      change answerOf env lib d' req caId' ca' = answerOf env lib d req caId' ca
      rw [← answerOf_withoutCrl, hca, answerOf_withoutCrl]
      unfold answerOf
      simp only [statusOf_verdict, hverdict req caId' ca hreq hfound]

end Congr

/-! ## The frame of a revocation -/

/-- the request is about the certificate: it resolves to the certificate's CA and names its serial -/
def AsksFor (env : Env) (lib : Ocsp.Lib) (d : Db) (der : String) (c : Certificate) : Prop :=
  ∃ req caId ca, lib.loadDerOcspRequest der = some req ∧
    Ocsp.target env lib req (Ocsp.issuers d) = .ok (some (caId, ca)) ∧ c.caId = some caId ∧
      c.serialHex = Ocsp.hexInt req.serialNumber

/-- what is reported of the certificate in row `j` is the same in both states -/
structure Unaffected (st : SealState) (j : ℕ) (c : Certificate) (d d' : Db) : Prop where
  stored : d'.certificates.get j = some c
  trusted : trustedStatus st d' c = trustedStatus st d c
  answered : ∀ (env : Env) (lib : Ocsp.Lib) (der : String), env.st = st → AsksFor env lib d der c →
    (Ocsp.respond env lib der ⟨d', d'⟩).1 = (Ocsp.respond env lib der ⟨d, d⟩).1
  listed : ∀ caId, c ∈ CAService.crlRows st d' caId ↔ c ∈ CAService.crlRows st d caId

section Frame

variable {st : SealState} {certId j : ℕ} {row c : Certificate} {d d' : Db}

theorem trustedStatus_intact (hv : verify st c = true) (hst : c.status ≠ .revoked) :
    trustedStatus st d c = if st.key.isSome && revokedInAudit d c.serialHex then .revoked else c.status := by
  simp [trustedStatus, hv, hst]

theorem Revoked.recorded (h : Revoked certId row d d') (x : String) :
    revokedInAudit d' x = true ↔ revokedInAudit d x = true ∨ x = row.serialHex := by
  obtain ⟨e, haudit, haction, htarget⟩ := h.audit
  simp only [revokedInAudit, haudit, List.any_append, List.any_cons, List.any_nil, Bool.or_false, Bool.or_eq_true,
    Bool.and_eq_true, decide_eq_true_eq, haction, htarget, true_and]
  rw [eq_comm (a := x)]

/-- the query for another certificate finds what it found -/
theorem Revoked.verdict_same (h : Revoked certId row d d') (hget : d.certificates.get j = some c) (hne : j ≠ certId)
    {env : Env} (htrusted : trustedStatus env.st d' c = trustedStatus env.st d c) {req : Ocsp.OcspRequest} {caId : ℕ}
    (hasks : Ocsp.asks req.serialNumber caId c = true) : verdict env d' req caId = verdict env d req caId := by
  obtain ⟨f, hcerts, hserial, hca, -⟩ := h.certificates
  have hall : d'.certificates.all (Ocsp.asks req.serialNumber caId) =
      (d.certificates.all (Ocsp.asks req.serialNumber caId)).map fun q => if q.1 = certId then (q.1, f q.2) else q := by
    rw [hcerts]
    apply Table.all_update
    intro a ha
    obtain rfl := Option.some.inj (ha.symm.trans h.stored)
    simp only [Ocsp.asks, hserial, hca]
  unfold verdict oneOrNone
  rw [hall]
  have hmem : (j, c) ∈ d.certificates.all (Ocsp.asks req.serialNumber caId) := Table.mem_all.2 ⟨hget, hasks⟩
  cases hl : d.certificates.all (Ocsp.asks req.serialNumber caId) with
  | nil => simp [hl] at hmem
  | cons q rest =>
    cases rest with
    | cons q' rest' => rfl
    | nil =>
      rw [hl, List.mem_singleton] at hmem
      subst hmem
      simp only [List.map_cons, List.map_nil, if_neg hne]
      rw [except_ok_bind, except_ok_bind]
      simp only [Option.map_some, Ocsp.certAnswer, htrusted]

/-- **What a revocation leaves alone**: another certificate's trusted status, OCSP answer and place on CRLs, if its serial
is a different one, or was already recorded as revoked, or nobody looks it up in the audit trail. -/
theorem revoke_frame_iff {env : Env} {actor : Actor} {reason : String} {changeRef : Option String} {s' : Session Db}
    {u : Unit} (h : Platform.revoke env actor certId reason changeRef ⟨d, d⟩ = (.ok u, s'))
    (hrow : d.certificates.get certId = some row) (hget : d.certificates.get j = some c) (hne : j ≠ certId)
    (hintact : verify env.st c = true) (hactive : c.status ≠ .revoked) :
    Unaffected env.st j c d s'.work ↔
      c.serialHex ≠ row.serialHex ∨ revokedInAudit d c.serialHex = true ∨ (env.st.key = none ∧ c.caId = none) := by
  obtain ⟨row', hrevoked⟩ := revoke_ok h
  obtain rfl := Option.some.inj (hrow.symm.trans hrevoked.stored)
  have hrecorded := hrevoked.recorded c.serialHex
  obtain ⟨f, hcerts, -⟩ := hrevoked.certificates
  have hstored : s'.work.certificates.get j = some c := by
    rw [hcerts, Table.get_update_of_ne _ _ hne]
    exact hget
  constructor
  · intro hsame
    by_contra hno
    obtain ⟨hserial, hno⟩ := not_or.1 hno
    obtain ⟨hbefore, hlooked⟩ := not_or.1 hno
    have hafter : revokedInAudit s'.work c.serialHex = true := hrecorded.2 (Or.inr (not_ne_iff.1 hserial))
    by_cases hk : env.st.key = none
    · obtain ⟨caId, hca⟩ := Option.ne_none_iff_exists'.1 fun hca => hlooked ⟨hk, hca⟩
      have hnow : c ∈ CAService.crlRows env.st s'.work caId :=
        (CAService.mem_crlRows hstored).2 ⟨hca, Or.inr (Or.inr hafter)⟩
      have hthen := (CAService.mem_crlRows hget).1 ((hsame.listed caId).1 hnow)
      simp [hactive, hintact, hbefore] at hthen
    · have htrusted := hsame.trusted
      rw [trustedStatus_intact hintact hactive, trustedStatus_intact hintact hactive] at htrusted
      have hsome : env.st.key.isSome = true := Option.isSome_iff_ne_none.2 hk
      rw [hsome, hafter, Bool.eq_false_iff.2 hbefore] at htrusted
      exact hactive htrusted.symm
  · intro hcond
    -- the audit lookup is the same, or nothing depends on it
    have hlookup : revokedInAudit s'.work c.serialHex = revokedInAudit d c.serialHex ∨
        (env.st.key = none ∧ c.caId = none) := by
      rcases hcond with hserial | hbefore | hunused
      · left
        rw [Bool.eq_iff_iff, hrecorded]
        simp [hserial]
      · left
        rw [hrecorded.2 (Or.inl hbefore), hbefore]
      · exact Or.inr hunused
    have htrusted : trustedStatus env.st s'.work c = trustedStatus env.st d c := by
      rw [trustedStatus_intact hintact hactive, trustedStatus_intact hintact hactive]
      rcases hlookup with hsame | ⟨hk, -⟩
      · rw [hsame]
      · simp [hk]
    refine ⟨hstored, htrusted, fun env' lib der hst hasks => ?_, fun caId => ?_⟩
    · refine respond_congr hrevoked.cas fun req caId ca hreq htarget => ?_
      obtain ⟨req', caId', ca', hreq', htarget', hca, hserial⟩ := hasks
      obtain rfl := Option.some.inj (hreq.symm.trans hreq')
      obtain ⟨rfl, -⟩ := Prod.mk.inj (Option.some.inj (Except.ok.inj (htarget.symm.trans htarget')))
      refine hrevoked.verdict_same hget hne (by rw [hst]; exact htrusted) ?_
      simp [Ocsp.asks, hca, hserial]
    · rw [CAService.mem_crlRows hstored, CAService.mem_crlRows hget]
      rcases hlookup with hsame | ⟨-, hca⟩
      · rw [hsame]
      · simp [hca]

end Frame

/-! ### A certificate of another issuer -/

section Examples

/-- the row of a certificate that AD CS issued -/
def adcsRow (serial : ℕ) : Certificate := { issuedRow serial with backend := "adcs", caId := none }

/-- a local certificate with serial 16, and one from AD CS -/
def mixedDb (serial : ℕ) : Db :=
  { answeringDb with
    certificates := (Table.empty.insert (inserted demoState (issuedRow 16))).insert
      (inserted demoState (adcsRow serial)) }

/-- the database after the AD CS certificate is revoked -/
def adcsRevoked (serial : ℕ) : Db :=
  (Platform.revoke demoEnv olga 2 "superseded" none ⟨mixedDb serial, mixedDb serial⟩).2.work

/-- with another serial it leaves the local certificate alone -/
theorem other_serial_unaffected :
    Unaffected demoState 1 (((mixedDb 17).certificates.get 1).get (by decide)) (mixedDb 17) (adcsRevoked 17) := by
  have hrevoke : Platform.revoke demoEnv olga 2 "superseded" none ⟨mixedDb 17, mixedDb 17⟩ =
      (.ok (), (Platform.revoke demoEnv olga 2 "superseded" none ⟨mixedDb 17, mixedDb 17⟩).2) := rfl
  have hrow : (mixedDb 17).certificates.get 2 = some (((mixedDb 17).certificates.get 2).get (by decide)) :=
    (Option.some_get _).symm
  exact (revoke_frame_iff hrevoke hrow (Option.some_get _).symm (by decide) (by decide) (by decide)).2 (Or.inl (by decide))

/-- Revoking a certificate of AD CS revokes a local one with the same serial. -/
theorem same_serial_affected :
    ¬ ∀ (d : Db) (s' : Session Db) (c : Certificate),
      Platform.revoke demoEnv olga 2 "superseded" none ⟨d, d⟩ = (.ok (), s') → d.certificates.get 1 = some c →
        verify demoState c = true → c.status ≠ .revoked → Unaffected demoState 1 c d s'.work := by
  intro h
  have hsame := h (mixedDb 16) (Platform.revoke demoEnv olga 2 "superseded" none ⟨mixedDb 16, mixedDb 16⟩).2
    (((mixedDb 16).certificates.get 1).get (by decide)) rfl (Option.some_get _).symm (by decide) (by decide)
  have hbefore : trustedStatus demoState (mixedDb 16) (((mixedDb 16).certificates.get 1).get (by decide)) = .active := by
    decide
  have hafter : trustedStatus demoState (adcsRevoked 16) (((mixedDb 16).certificates.get 1).get (by decide)) = .revoked := by
    decide
  have htrusted := hsame.trusted
  rw [hbefore] at htrusted
  exact absurd (hafter.symm.trans htrusted) (by decide)

end Examples

end Certadillo.Revocation
