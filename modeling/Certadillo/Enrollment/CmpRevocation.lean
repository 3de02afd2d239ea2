/-
Who may revoke by CMP.

A revocation request is signed with a certificate of an app. The signer's row may be revoked already, so that a repeated
request for the signer itself is answered, but the handler then revokes every certificate of the app the message names.

- `scoped_handle`: a message of an app changes the status of that app's certificates only.
- `accepted_iff`: the signers of the revocation requests that are accepted.
- `rr_authority_iff`: the authority of a request is as it should be exactly where no accepted signer is revoked.
- `revoked_signer_revokes`: a revoked certificate that revokes another.
-/
import Certadillo.Enrollment.Isolation
import Certadillo.Services.Requests
import Certadillo.Revocation.Lasting

namespace Certadillo.Cmp

open Integrity Policy Py Platform
open Tx (Calm CalmAt Does DoesAt calm_pure calmAt_bind calmAt_get_bind does_bind doesAt_bind)

/-! ## The certificates of one app -/

/-- rows keep their app, none is added, and only rows of `P` change -/
structure Within (P : ℕ → Prop) (a b : Db) : Prop where
  kept : ∀ i c', b.certificates.get i = some c' → ∃ c, a.certificates.get i = some c ∧ c'.appId = c.appId
  others : ∀ i, ¬ P i → b.certificates.get i = a.certificates.get i

section Within

variable {P : ℕ → Prop} {a b c : Db}

theorem within_of (h : b.certificates = a.certificates) : Within P a b where
  kept i c' hc' := ⟨c', h ▸ hc', rfl⟩
  others i _ := by rw [h]

theorem Within.refl (P : ℕ → Prop) (a : Db) : Within P a a := within_of rfl

theorem Within.trans (hab : Within P a b) (hbc : Within P b c) : Within P a c where
  kept i z hz := by
    obtain ⟨y, hy, hzy⟩ := hbc.kept i z hz
    obtain ⟨x, hx, hyx⟩ := hab.kept i y hy
    exact ⟨x, hx, hzy.trans hyx⟩
  others i hi := (hbc.others i hi).trans (hab.others i hi)

theorem within_reaches (h : Relation.ReflTransGen (Within P) a b) : Within P a b :=
  Tx.reaches_inv (I := Within P a) (fun _ _ hw h => h.trans hw) h (.refl P a)

end Within

/-- the rows of an app -/
def RowsOf (d : Db) (appId : ℕ) (i : ℕ) : Prop := ∃ c, d.certificates.get i = some c ∧ c.appId = some appId

section Scope

variable {env : Env} {w : Wire} {d : Db} {P : ℕ → Prop}

theorem calm_revokeWithin {id : ℕ} (hid : P id) (actor : Actor) (reason : String) (changeRef : Option String) :
    Calm (Within P) (revoke env actor id reason changeRef) := by
  refine calm_revoke_of (fun d => ?_) (fun _ _ _ => within_of rfl) (fun _ _ => within_of rfl) (fun _ _ => within_of rfl)
    actor changeRef
  refine ⟨fun i c' hc' => ?_, fun i hi => Table.get_update_of_ne _ _ ?_⟩
  · rw [Table.get_update] at hc'
    split at hc'
    · obtain ⟨c, hc, rfl⟩ := Option.map_eq_some_iff.1 hc'
      obtain ⟨x, hx⟩ := flushed_certificate env.st c (markRevoked env reason c)
      exact ⟨c, hc, by rw [hx]; rfl⟩
    · exact ⟨c', hc', rfl⟩
  · rintro rfl
    exact hi hid

/-- one revocation of an app's request, in a session that has changed nothing else -/
theorem revokeOne_within {appId : ℕ} {s : Session Db} (h : Within (RowsOf d appId) d s.work) (row : Certificate)
    (det : RevDetails) : CalmAt (Within (RowsOf d appId)) s (revokeOne env row appId det) := by
  unfold revokeOne
  split
  · exact calm_pure _ s
  refine calmAt_get_bind ?_
  split
  · exact calm_pure _ s
  next id c hfirst =>
  obtain ⟨hget, hp⟩ := Table.first_some hfirst
  have hid : RowsOf d appId id := by
    simp only [Bool.and_eq_true, decide_eq_true_eq] at hp
    obtain ⟨c₀, hc₀, hsame⟩ := h.kept id c hget
    exact ⟨c₀, hc₀, hsame.symm.trans hp.2⟩
  split
  · exact calm_pure _ s
  exact calmAt_bind (calm_revokeWithin hid _ _ _ s) fun _ s' _ => calm_pure _ s'

theorem revokeEach_within {appId : ℕ} (row : Certificate) (details : List RevDetails) {s : Session Db}
    (h : Within (RowsOf d appId) d s.work) : CalmAt (Within (RowsOf d appId)) s (revokeEach env row appId details) := by
  induction details generalizing s with
  | nil => exact calm_pure _ s
  | cons det rest ih =>
    have hone := @revokeOne_within env d appId s h row det
    refine calmAt_bind hone fun st s' hrun => ?_
    have h' : Within (RowsOf d appId) d s'.work := by
      refine h.trans (within_reaches ?_)
      have hreach := hone.2
      rwa [hrun] at hreach
    exact calmAt_bind (ih h') fun sts s'' _ => calm_pure _ s''

end Scope

/-! ## One request -/

/-- the message is authenticated, by a credential of the endpoint's app -/
structure Accepted (env : Env) (w : Wire) (d : Db) (req : CmpRequest) (label : Option String) (prot : Protection) : Prop where
  authenticated : authenticate env w d req = .ok prot
  labelled : Labelled prot label

/-- the certificates of the app whose certificate signed the message -/
def OfSigner (env : Env) (w : Wire) (d : Db) (req : CmpRequest) (label : Option String) (i : ℕ) : Prop :=
  ∃ prot id row app, Accepted env w d req label prot ∧ prot.sender = .sig id row ∧ prot.app = some app ∧ RowsOf d app.1 i

section Requests

variable {env : Env} {w : Wire} {d : Db} {req : CmpRequest} {label : Option String} {details : List RevDetails}

theorem Within.mono {P Q : ℕ → Prop} {a b : Db} (h : Within P a b) (hPQ : ∀ i, P i → Q i) : Within Q a b :=
  ⟨h.kept, fun i hi => h.others i fun hp => hi (hPQ i hp)⟩

theorem handleRr_within {prot : Protection} (hacc : Accepted env w d req label prot) {s : Session Db}
    (hs : s.work.certificates = d.certificates) :
    DoesAt (Within (OfSigner env w d req label)) s (handleRr env prot details) := by
  unfold handleRr
  cases hsender : prot.sender with
  | mac _ => exact (Tx.calm_throw _ s).does
  | sig id row =>
    refine Tx.doesAt_ofExcept_bind fun app happ => ?_
    have heach := @revokeEach_within env d app.1 row details s (within_of hs)
    have hof : ∀ i, RowsOf d app.1 i → OfSigner env w d req label i := fun i hi => ⟨prot, id, row, app, hacc, hsender, appOfSender_ok happ, hi⟩
    refine doesAt_bind (heach.mono fun a b h => h.mono hof).does fun out s' _ => ?_
    exact does_bind Tx.does_commit (fun _ => (calm_pure _).does) s'

theorem answer_within (hbody : req.body = .rr details) {prot : Protection} (hacc : Accepted env w d req label prot) :
    DoesAt (Within (OfSigner env w d req label)) ⟨d, d⟩ (answer env w req prot) := by
  unfold answer
  have hresponder : Calm (Within (OfSigner env w d req label)) (responder env) := calm_responder_of fun _ _ _ _ => within_of rfl
  refine doesAt_bind (hresponder _).does fun ca s' hs' => ?_
  obtain ⟨cas, hwork⟩ := @responder_work env ⟨d, d⟩
  rw [hs'] at hwork
  have hrows : s'.work.certificates = d.certificates := by rw [show s'.work = { d with cas := cas } from hwork]
  rw [hbody]
  exact handleRr_within hacc hrows

/-- **A revocation request touches the signer's app alone**: whatever serials it names, the rows it changes are its -/
theorem scoped_handle (hbody : req.body = .rr details) :
    Within (OfSigner env w d req label) d (Tx.transact (handle env w req label) d).2 := by
  have hdispatch : DoesAt (Within (OfSigner env w d req label)) ⟨d, d⟩ (dispatch env w req label) := by
    unfold dispatch
    refine Tx.doesAt_get_bind (Tx.doesAt_ofExcept_bind fun prot hprot => ?_)
    split
    · next name hname =>
      refine Tx.doesAt_ofExcept_bind fun app happ => ?_
      split
      · exact (Tx.calm_throw _ _).does
      · next heq => exact answer_within hbody ⟨hprot, labelled_of hname happ (not_not.1 heq)⟩
    · next hnone => exact answer_within hbody ⟨hprot, fun name hname => absurd (hnone.symm.trans hname) nofun⟩
  exact within_reaches (Tx.transact_doesAt (doesAt_guarded (fun _ _ _ _ => within_of rfl) (fun _ _ _ => within_of rfl) hdispatch))

/-! ## Accepted signers -/

/-- the message passes every check but the one of its signer's status: it is signed with the key of `cert`, a certificate
this platform issued under `row` for an active app, that is within its dates -/
structure WellSigned (env : Env) (w : Wire) (d : Db) (req : CmpRequest) (label : Option String) (cert : X509Cert)
    (id : ℕ) (row : Certificate) (app : ℕ × App) : Prop where
  hasProtection : req.protection.isSome
  algorithm : ∃ alg, req.protAlg = some alg ∧ SIG.contains alg = true
  carried : ∃ rest, req.extraCerts = cert :: rest
  verifies : w.signatureVerifies cert req = true
  issued : issuedRow d cert = .ok (some (id, row))
  signed : ∃ ca, row.caId = some ca ∧ signedBy env d ca cert = true
  valid : validNow env cert = true
  tenant : senderApp d row.appId = some app
  active : app.2.status = .active
  labelled : ∀ name, label.filter (· ≠ "") = some name → app.2.name = name

/-- for a revocation request a revoked row counts as issued here -/
theorem issuedHere_rr {cert : X509Cert} {id : ℕ} {row : Certificate} :
    issuedHere env d cert true = .ok (some (id, row)) ↔
      issuedRow d cert = .ok (some (id, row)) ∧ (∃ ca, row.caId = some ca ∧ signedBy env d ca cert = true) ∧
        validNow env cert = true ∧ (row.status = .active ∨ row.status = .revoked) := by
  unfold issuedHere
  rw [except_bind_ok]
  constructor
  · rintro ⟨found, hfound, h⟩
    split at h
    · cases h
    split at h
    · cases h
    next ca hca =>
    split at h
    · cases h
    next hst =>
    split at h
    · cases h
    next hvalid =>
    split at h
    · cases h
    next hsigned =>
    cases h
    refine ⟨hfound, ⟨ca, hca, by simpa using hsigned⟩, by simpa using hvalid, ?_⟩
    by_cases hactive : row.status = .active
    · exact .inl hactive
    · exact .inr (by simpa [hactive] using hst)
  · rintro ⟨hfound, ⟨ca, hca, hsigned⟩, hvalid, hst⟩
    refine ⟨_, hfound, ?_⟩
    rcases hst with hst | hst <;> simp [hca, hsigned, hvalid, hst]

/-- a MAC is not from a certificate -/
theorem authenticateMac_sender {prot : Protection} (h : authenticateMac env w d req = .ok prot) (id : ℕ) (row : Certificate) :
    prot.sender ≠ .sig id row := by
  unfold authenticateMac at h
  obtain ⟨found, -, h⟩ := except_bind_ok.1 h
  split at h
  · cases h
  dsimp only at h
  split at h
  · cases h
  obtain ⟨_, -, h⟩ := except_bind_ok.1 h
  obtain ⟨secret, -, h⟩ := except_bind_ok.1 h
  split at h
  · cases h
  obtain rfl := Except.ok.inj h
  exact nofun

/-- who a signed revocation request is from: the row of the certificate it carries, revoked or not -/
theorem authenticateSig_rr (hbody : req.body = .rr details) {prot : Protection} :
    authenticateSig env w d req = .ok prot ↔
      ∃ cert rest id row app, req.extraCerts = cert :: rest ∧ w.signatureVerifies cert req = true ∧
        issuedHere env d cert true = .ok (some (id, row)) ∧ senderApp d row.appId = some app ∧ app.2.status = .active ∧
        prot = ⟨.sig id row, some app⟩ := by
  have hname : req.body.name = "rr" := by rw [hbody]; rfl
  unfold authenticateSig
  cases hcerts : req.extraCerts with
  | nil => simp
  | cons cert rest =>
    by_cases hverifies : w.signatureVerifies cert req = true
    · simp only [hverifies, hname, Bool.not_true, Bool.false_eq_true, if_false, decide_true]
      rw [except_bind_ok]
      have hother : (("rr" : String) = "certConf") = False ∧ (("rr" : String) = "pollReq") = False := by decide
      simp only [hother.1, hother.2, decide_false, Bool.or_false, Bool.and_false, Bool.false_eq_true, if_false]
      constructor
      · intro h
        obtain ⟨current, hcurrent, h⟩ := h
        obtain ⟨found, hfound, h⟩ := except_bind_ok.1 h
        obtain rfl := Except.ok.inj hfound
        split at h
        · cases h
        next id row _ =>
        split at h
        · next appId app happ =>
          split at h
          · cases h
          · next hactive =>
            obtain rfl := Except.ok.inj h
            exact ⟨cert, rest, id, row, (appId, app), rfl, hverifies, hcurrent, happ, not_not.1 hactive, rfl⟩
        · cases h
      · intro h
        obtain ⟨cert', rest', id, row, app, heq, -, hissued, happ, hactive, rfl⟩ := h
        obtain ⟨rfl, rfl⟩ := List.cons.inj heq
        refine ⟨_, hissued, except_bind_ok.2 ⟨_, rfl, ?_⟩⟩
        simp [happ, hactive]
    · simp only [hverifies]
      constructor
      · intro h
        cases h
      · intro h
        obtain ⟨cert', rest', id, row, app, heq, hv, -⟩ := h
        obtain ⟨rfl, rfl⟩ := List.cons.inj heq
        exact absurd hv hverifies

/-- **The signers of accepted revocation requests** are the certificates that pass every other check, whether they are
active or revoked -/
theorem accepted_iff (hbody : req.body = .rr details) {id : ℕ} {row : Certificate} :
    (∃ prot, Accepted env w d req label prot ∧ prot.sender = .sig id row) ↔
      (∃ cert app, WellSigned env w d req label cert id row app) ∧ (row.status = .active ∨ row.status = .revoked) := by
  constructor
  · intro h
    obtain ⟨prot, ⟨hauth, hlabel⟩, hsender⟩ := h
    unfold authenticate at hauth
    split at hauth
    · next bits alg hbits halg =>
      split at hauth
      · exact absurd hsender (authenticateMac_sender hauth id row)
      split at hauth
      · next hpbm hsig =>
        obtain ⟨cert, rest, id', row', app, hcerts, hverifies, hissued, happ, hactive, rfl⟩ := (authenticateSig_rr hbody).1 hauth
        obtain ⟨rfl, rfl⟩ := Sender.sig.inj hsender
        obtain ⟨hfound, hsigned, hvalid, hst⟩ := issuedHere_rr.1 hissued
        refine ⟨⟨cert, app, by rw [hbits]; rfl, ⟨alg, halg, hsig⟩, ⟨rest, hcerts⟩, hverifies, hfound, hsigned, hvalid, happ,
          hactive, fun name hname => ?_⟩, hst⟩
        obtain ⟨app', happ', heq⟩ := hlabel name hname
        obtain rfl := Option.some.inj happ'
        exact heq
      · cases hauth
    · cases hauth
  · intro h
    obtain ⟨⟨cert, app, hwell⟩, hst⟩ := h
    obtain ⟨alg, halg, hsig⟩ := hwell.algorithm
    obtain ⟨bits, hbits⟩ := Option.isSome_iff_exists.1 hwell.hasProtection
    obtain ⟨rest, hcerts⟩ := hwell.carried
    have hpbm : alg ≠ PBM := by
      rintro rfl
      exact absurd hsig (by decide)
    refine ⟨⟨.sig id row, some app⟩, ⟨?_, fun name hname => ⟨app, rfl, hwell.labelled name hname⟩⟩, rfl⟩
    unfold authenticate
    simp only [hbits, halg, if_neg hpbm, hsig, if_true]
    exact (authenticateSig_rr hbody).2 ⟨cert, rest, id, row, app, hcerts, hwell.verifies,
      issuedHere_rr.2 ⟨hwell.issued, hwell.signed, hwell.valid, hst⟩, hwell.tenant, hwell.active, rfl⟩

/-! ## Authority -/

/-- the request keeps to its authority: what changes status is of its signer's app, and its signer was not revoked -/
structure KeepsAuthority (env : Env) (w : Wire) (d : Db) (req : CmpRequest) (label : Option String) : Prop where
  inScope : ∀ i, ((Tx.transact (handle env w req label) d).2.certificates.get i).map (·.status) ≠
    (d.certificates.get i).map (·.status) → OfSigner env w d req label i
  current : ∀ prot id row, Accepted env w d req label prot → prot.sender = .sig id row → row.status ≠ .revoked

/-- no certificate that passes the other checks is revoked -/
def SignerCurrent (env : Env) (w : Wire) (d : Db) (req : CmpRequest) (label : Option String) : Prop :=
  ∀ cert id row app, WellSigned env w d req label cert id row app → row.status ≠ .revoked

end Requests

/-- **A revocation request keeps to its authority** exactly when its signer, should every other check pass, is not
revoked: the scope always holds, and nothing but the signer's status is let through. -/
theorem rr_authority_iff (env : Env) (w : Wire) (d : Db) (req : CmpRequest) (details : List RevDetails)
    (label : Option String) :
    KeepsAuthority env w d { req with body := .rr details } label ↔
      SignerCurrent env w d { req with body := .rr details } label := by
  constructor
  · intro h cert id row app hwell hrevoked
    obtain ⟨prot, hacc, hsender⟩ := (accepted_iff rfl).2 ⟨⟨cert, app, hwell⟩, .inr hrevoked⟩
    exact h.current prot id row hacc hsender hrevoked
  · intro h
    refine ⟨fun i hchanged => ?_, fun prot id row hacc hsender => ?_⟩
    · by_contra hi
      exact hchanged (by rw [(scoped_handle rfl).others i hi])
    · obtain ⟨⟨cert, app, hwell⟩, -⟩ := (accepted_iff rfl).1 ⟨prot, hacc, hsender⟩
      exact h cert id row app hwell

/-! ### A stolen key -/

section Examples

/-- two certificates of an app -/
def holderDb : Db :=
  { Revocation.answeringDb with
    apps := Table.empty.insert (inserted demoState (demoApp "web"))
    certificates := (Table.empty.insert (inserted demoState { Revocation.issuedRow 16 with appId := some 1 })).insert
      (inserted demoState { Revocation.issuedRow 17 with appId := some 1 }) }

/-- the operator revoked the first: its key was stolen -/
def stolenDb : Db := (Tx.transact (Platform.revoke demoMessageEnv Revocation.olga 1 "key_compromise" none) holderDb).2

/-- signatures verify -/
def signedWire : Wire := { demoWire with signatureVerifies := fun _ _ => true }

/-- the thief asks for the revocation of the second, signed with the stolen key -/
def stolenRequest : CmpRequest :=
  ⟨.rr [⟨some 17, none⟩], "aa", "", some "1.2.840.10045.4.3.2", .error "no PBM", some "sig",
    [demoLeaf 16 "pem-16" "fp-16"], false⟩

def afterTheft : Db := (Tx.transact (handle demoMessageEnv signedWire stolenRequest none) stolenDb).2

example : (stolenDb.certificates.get 1).map (·.status) = some .revoked ∧
    (stolenDb.certificates.get 2).map (·.status) = some .active ∧
    (afterTheft.certificates.get 2).map (·.status) = some .revoked := by decide +kernel

/-- The revoked certificate revokes the other. -/
theorem revoked_signer_revokes : ¬ ∀ (env : Env) (w : Wire) (d : Db) (req : CmpRequest) (details : List RevDetails)
    (label : Option String), KeepsAuthority env w d { req with body := .rr details } label := by
  intro h
  have hauth : (authenticate demoMessageEnv signedWire stolenDb stolenRequest).toOption.map
      (fun prot => match prot.sender with
        | .sig _ row => decide (row.status = .revoked)
        | .mac _ => false) = some true := by decide +kernel
  cases hprot : authenticate demoMessageEnv signedWire stolenDb stolenRequest with
  | error e => simp [hprot, Except.toOption] at hauth
  | ok prot =>
    have hcurrent := (h demoMessageEnv signedWire stolenDb stolenRequest [⟨some 17, none⟩] none).current prot
    cases hsender : prot.sender with
    | mac _ => simp [hprot, Except.toOption, hsender] at hauth
    | sig id row =>
      have hrevoked : row.status = .revoked := by simpa [hprot, Except.toOption, hsender] using hauth
      exact hcurrent id row ⟨hprot, nofun⟩ hsender hrevoked

end Examples

end Certadillo.Cmp
