/-
Which certificates the front ends add: EST, SCEP, CMP, ACME and push provisioning over `requestCertificate`.

A front end writes to tables of its own before it asks for a certificate and after (`FrontWrite`), so the certificate is
decided from the rows the message found, and whatever the answer is it is not signed again.

- `Est.alone_handle`, `Scep.alone_handlePkiOperation`, `Cmp.alone_handle`, `Acme.alone_handle`,
  `Provisioning.alone_provision`:
  a message only adds certificates signed under a decision nobody asked a second person for.
- `FrontWrite.steady`: a front end changes no row such a decision is made from.
-/
import Certadillo.Enrollment.Scep
import Certadillo.Enrollment.Est
import Certadillo.Enrollment.Acme
import Certadillo.Enrollment.CmpEffects
import Certadillo.Services.Provisioning
import Certadillo.Services.DualControl

namespace Certadillo

open Integrity Policy Py Platform
open Tx (Calm CalmAt Onward OnwardAt Does DoesAt calm_pure calm_throw calm_bind calm_get_bind calm_ofExcept_bind onward_bind
  onward_get_bind onward_ofExcept_bind onward_commit does_bind does_rollback)

/-! ## Writes -/

/-- a write of a front end: to the tables of its protocol, to the mark of a one-time credential, or an event -/
inductive FrontWrite : Db → Db → Prop where
  | frame {d d' : Db} (h : Steady d d') (challenges : d'.scepChallenges = d.scepChallenges)
      (secrets : d'.cmpSecrets = d.cmpSecrets) (bindings : d'.acmeEab = d.acmeEab)
      (nonces : d'.acmeNonces = d.acmeNonces) : FrontWrite d d'
  | redeem (d : Db) (id : ℕ) :
      FrontWrite d { d with scepChallenges := d.scepChallenges.update id fun c => { c with used := true } }
  | bind (d : Db) (id : ℕ) (f : AcmeEab → AcmeEab) (hf : ∀ e, (f e).used = e.used ∨ (f e).used = true) :
      FrontWrite d { d with acmeEab := d.acmeEab.update id f }
  | addNonce (d : Db) (n : AcmeNonce) : FrontWrite d { d with acmeNonces := d.acmeNonces.insert n }
  | dropNonces (d : Db) (p : ℕ → AcmeNonce → Bool) : FrontWrite d { d with acmeNonces := d.acmeNonces.delete p }

theorem FrontWrite.steady {d d' : Db} (h : FrontWrite d d') : Steady d d' := by
  cases h with
  | frame h => exact h
  | redeem => exact ⟨rfl, rfl, rfl⟩
  | bind => exact ⟨rfl, rfl, rfl⟩
  | addNonce => exact ⟨rfl, rfl, rfl⟩
  | dropNonces => exact ⟨rfl, rfl, rfl⟩

/-- a write of a front end, or of the registration authority behind it -/
inductive MessageWrite (env : Env) (adds : Certificate → Prop) : Db → Db → Prop where
  | front {d d' : Db} (h : FrontWrite d d') : MessageWrite env adds d d'
  | authority {d d' : Db} (h : Write env (.adding adds) d d') : MessageWrite env adds d d'

theorem MessageWrite.cert {env : Env} {adds : Certificate → Prop} {d d' : Db} (h : MessageWrite env adds d d') :
    CertWrite env adds d d' := by
  cases h with
  | front h => exact .keep h.steady.certificates
  | authority h => exact h.cert

section Writes

variable {env : Env} {adds : Certificate → Prop} {d : Db} {s : Session Db} {α : Type}

/-- a table neither decisions nor one-time credentials are read from -/
def Aside (c : Col α) : Prop := ∀ d t, FrontWrite d (c.put d t)

theorem aside_cas : Aside Col.cas := fun _ _ => .frame ⟨rfl, rfl, rfl⟩ rfl rfl rfl rfl

theorem aside_scepTransactions : Aside Col.scepTransactions := fun _ _ => .frame ⟨rfl, rfl, rfl⟩ rfl rfl rfl rfl

theorem aside_acmeAccounts : Aside Col.acmeAccounts := fun _ _ => .frame ⟨rfl, rfl, rfl⟩ rfl rfl rfl rfl

theorem aside_acmeOrders : Aside Col.acmeOrders := fun _ _ => .frame ⟨rfl, rfl, rfl⟩ rfl rfl rfl rfl

theorem aside_acmeAuthz : Aside Col.acmeAuthz := fun _ _ => .frame ⟨rfl, rfl, rfl⟩ rfl rfl rfl rfl

theorem aside_installations : Aside Col.installations := fun _ _ => .frame ⟨rfl, rfl, rfl⟩ rfl rfl rfl rfl

theorem aside_provisioningRuns : Aside Col.provisioningRuns := fun _ _ => .frame ⟨rfl, rfl, rfl⟩ rfl rfl rfl rfl

theorem front_setPlain {c : Col α} (h : Aside c) (id : ℕ) (f : α → α) : Calm FrontWrite (setPlain c id f) :=
  Tx.calm_modify fun d => h d _

theorem front_setRow [Sealed α] [DecidableEq α] {c : Col α} (h : Aside c) (id : ℕ) (f : α → α) :
    Calm FrontWrite (setRow env c id f) := Tx.calm_modify fun d => h d _

/-- an INSERT: the check of its unique constraints, and the row -/
theorem front_insert {c : Col α} {a : α} (h : ∀ d, FrontWrite d (c.put d ((c.get d).insert a)))
    (clash : Table α → Option String) : Calm FrontWrite (addPlain c clash a) := by
  unfold addPlain
  refine calm_get_bind fun d => ?_
  cases clash (c.get d) with
  | some u => exact calm_throw _
  | none => exact calm_bind (Tx.calm_modify h) fun _ => calm_pure _

theorem front_addPlain {c : Col α} (h : Aside c) (clash : Table α → Option String) (a : α) :
    Calm FrontWrite (addPlain c clash a) := front_insert (fun d => h d _) clash

theorem front_record (actor action target : String) (details : List (String × Json)) :
    Calm FrontWrite (record env actor action target details) :=
  Tx.calm_modify fun _ => .frame ⟨rfl, rfl, rfl⟩ rfl rfl rfl rfl

/-- what a part of a front end leaves the decision to be made from -/
theorem steady_after {m : M α} (h : OnwardAt FrontWrite s m) (hd : Steady d s.work) {r : Except Err α} {s' : Session Db}
    (hrun : m s = (r, s')) : Steady d s'.work := h.keeps (fun _ _ hw hs => hs.trans hw.steady) hd hrun

theorem does_front {m : M α} (h : Onward FrontWrite m) : Does (MessageWrite env adds) m := fun s =>
  (h s).does.mono fun _ _ => .front

theorem doesAt_front {m : M α} (h : OnwardAt FrontWrite s m) : DoesAt (MessageWrite env adds) s m :=
  h.does.mono fun _ _ => .front

theorem does_authority {m : M α} (h : Does (Write env (.adding adds)) m) : Does (MessageWrite env adds) m := fun s =>
  (h s).mono fun _ _ => .authority

/-- a request for a certificate adds it only if it is signed alone -/
theorem alone_certificate (hd : Steady d s.work) (hadds : ∀ c, SignedAlone env d c → adds c) (actor : Actor)
    (appId : ℕ) (r : CertRequest) : DoesAt (MessageWrite env adds) s (requestCertificate env actor appId r) :=
  (doesAt_requestCertificate hd hadds actor appId r).mono fun _ _ => .authority

end Writes

/-! ## EST -/

namespace Est

section Handle

variable {env : Env} {adds : Certificate → Prop} {d : Db} {s : Session Db}

theorem front_enrolled (who : Actor) (how : How) (previous : Option ℕ) (outcome : Outcome) :
    Onward FrontWrite (enrolled env who how previous outcome) := by
  cases outcome with
  | certificate id =>
    refine onward_get_bind fun d => onward_bind (front_record _ _ _ _).onward fun _ => onward_bind onward_commit fun _ => ?_
    exact onward_ofExcept_bind fun _ _ => (calm_pure _).onward
  | approval id => exact onward_bind onward_commit fun _ => (calm_pure _).onward
  | job id => exact onward_bind onward_commit fun _ => (calm_pure _).onward

theorem alone_enroll (hd : Steady d s.work) (hadds : ∀ c, SignedAlone env d c → adds c) (who : Actor) (csrPem : String)
    (how : How) (previous : Option ℕ) : DoesAt (MessageWrite env adds) s (enroll env who csrPem how previous) := by
  unfold enroll
  refine Tx.doesAt_ofExcept_bind fun appId _ => ?_
  refine Tx.doesAt_bind (m := Tx.attempt _) (alone_certificate hd hadds _ _ _) fun result s' _ => ?_
  cases result with
  | error e => exact (calm_throw _).does s'
  | ok outcome => exact does_front (front_enrolled _ _ _ _) s'

theorem front_generated (who : Actor) (how : How) (outcome : Outcome) : Onward FrontWrite (generated env who how outcome) := by
  cases outcome with
  | certificate id =>
    unfold generated
    refine onward_get_bind fun d => ?_
    split
    · exact (calm_throw _).onward
    · refine onward_bind (front_record _ _ _ _).onward fun _ => onward_bind onward_commit fun _ => ?_
      exact onward_ofExcept_bind fun _ _ => (calm_pure _).onward
  | approval id => exact (calm_throw _).onward
  | job id => exact (calm_throw _).onward

/-- **EST adds only certificates signed alone**, its server-side key generation included. -/
theorem alone_handle (hd : Steady d s.work) (hadds : ∀ c, SignedAlone env d c → adds c) (site : Site) (req : Request)
    (endpoint : Endpoint) : DoesAt (MessageWrite env adds) s (handle env site req endpoint) := by
  cases endpoint with
  | simpleenroll =>
    refine Tx.doesAt_get_bind (Tx.doesAt_ofExcept_bind fun id _ => Tx.doesAt_ofExcept_bind fun csr _ => ?_)
    exact alone_enroll hd hadds _ _ _ _
  | simplereenroll =>
    refine Tx.doesAt_get_bind (Tx.doesAt_ofExcept_bind fun id _ => Tx.doesAt_ofExcept_bind fun csr _ => ?_)
    split
    · refine Tx.doesAt_ofExcept_bind fun _ _ => ?_
      exact alone_enroll hd hadds _ _ _ _
    split
    · exact (calm_throw _).does s
    · refine Tx.doesAt_ofExcept_bind fun _ _ => ?_
      exact alone_enroll hd hadds _ _ _ _
  | serverkeygen =>
    refine Tx.doesAt_get_bind (Tx.doesAt_ofExcept_bind fun id _ => Tx.doesAt_ofExcept_bind fun appId _ => ?_)
    refine Tx.doesAt_ofExcept_bind fun tmpl _ => Tx.doesAt_ofExcept_bind fun prof _ => ?_
    refine Tx.doesAt_ofExcept_bind fun csrPem _ => ?_
    refine Tx.doesAt_bind (m := Tx.attempt _) (alone_certificate hd hadds _ _ _) fun result s' _ => ?_
    cases result with
    | error e => exact (calm_throw _).does s'
    | ok outcome => exact does_front (front_generated _ _ _) s'

end Handle

end Est

/-! ## SCEP -/

namespace Scep

/-- the columns that say who opened a transaction and what it waits for -/
structure SameOpening (t t' : ScepTransaction) : Prop where
  transactionId : t'.transactionId = t.transactionId
  appId : t'.appId = t.appId
  approvalId : t'.approvalId = t.approvalId
  signerCertPem : t'.signerCertPem = t.signerCertPem

/-- a relation that holds of the writes of a message other than a new transaction and those of a request for a certificate -/
structure Admits (W : Db → Db → Prop) : Prop where
  event : ∀ d e, W d { d with audit := d.audit ++ [e] }
  cas : ∀ d t, W d { d with cas := t }
  redeem : ∀ d id, W d { d with scepChallenges := d.scepChallenges.update id fun c => { c with used := true } }
  move : ∀ d id f, (∀ t, SameOpening t (f t)) → W d { d with scepTransactions := d.scepTransactions.update id f }

theorem admits_front : Admits FrontWrite where
  event _ _ := .frame ⟨rfl, rfl, rfl⟩ rfl rfl rfl rfl
  cas := aside_cas
  redeem := .redeem
  move d _ _ _ := aside_scepTransactions d _

section Parts

variable {env : Env} {w : Wire} {W : Db → Db → Prop}

theorem calm_record (hW : Admits W) (actor action target : String) (details : List (String × Json)) :
    Calm W (record env actor action target details) := Tx.calm_modify fun d => hW.event d _

/-- a transaction moves along -/
theorem calm_move (hW : Admits W) (id : ℕ) {f : ScepTransaction → ScepTransaction} (hf : ∀ t, SameOpening t (f t)) :
    Calm W (setPlain Col.scepTransactions id f) := Tx.calm_modify fun d => hW.move d id f hf

theorem calm_ensureScepRa (hW : Admits W) (caId : ℕ) (ca : CertificateAuthority) : Calm W (ensureScepRa env caId ca) := by
  unfold ensureScepRa
  refine calm_ofExcept_bind fun current _ => ?_
  cases current with
  | some cert => exact calm_ofExcept_bind fun _ _ => calm_pure _
  | none =>
    refine calm_ofExcept_bind fun caCert _ => calm_ofExcept_bind fun signer _ => calm_ofExcept_bind fun caSigner _ => ?_
    refine calm_ofExcept_bind fun cert _ => ?_
    exact calm_bind (Tx.calm_modify fun d => hW.cas d _) fun _ => calm_pure _

theorem onward_fail (hW : Admits W) (txid info why : String) : Onward W (fail env txid info why) := by
  unfold fail
  exact onward_bind (calm_record hW _ _ _ _).onward fun _ => onward_bind onward_commit fun _ => (calm_pure _).onward

theorem onward_success (msg : PkiMessage) (id : ℕ) (row : Certificate) : Onward W (success env w msg id row) := by
  unfold success
  refine onward_ofExcept_bind fun cert _ => onward_ofExcept_bind fun _ _ => ?_
  exact onward_bind onward_commit fun _ => (calm_pure _).onward

theorem onward_reject (hW : Admits W) (txid : String) (txnId : ℕ) (why : String) :
    Onward W (reject env txid txnId why) := by
  unfold reject
  refine onward_bind (Calm.onward (calm_move hW _ ?_)) fun _ => onward_fail hW _ _ _
  exact fun _ => ⟨rfl, rfl, rfl, rfl⟩

theorem onward_deliver (hW : Admits W) (msg : PkiMessage) (txnId : ℕ) (payload : Json) :
    Onward W (deliver env w msg txnId payload) := by
  unfold deliver
  refine onward_get_bind fun d => onward_ofExcept_bind fun certId _ => ?_
  split
  · exact onward_fail hW _ _ _
  · refine onward_bind (Calm.onward (calm_move hW _ ?_)) fun _ => onward_success _ _ _
    exact fun _ => ⟨rfl, rfl, rfl, rfl⟩

/-- a poll delivers what is stored -/
theorem onward_poll (hW : Admits W) (msg : PkiMessage) : Onward W (poll env w msg) := by
  unfold poll
  refine onward_get_bind fun d => ?_
  split
  · exact onward_fail hW _ _ _
  refine onward_ofExcept_bind fun original _ => onward_ofExcept_bind fun key _ => ?_
  split
  · exact onward_fail hW _ _ _
  split
  · exact onward_reject hW _ _ _
  dsimp only
  split
  · exact onward_reject hW _ _ _
  split
  · exact onward_reject hW _ _ _
  split
  · exact onward_bind onward_commit fun _ => (calm_pure _).onward
  · exact onward_deliver hW _ _ _

theorem calm_redeem (hW : Admits W) (raw : String) : Calm W (redeemScepChallenge env raw) := by
  unfold redeemScepChallenge
  refine calm_get_bind fun d => calm_ofExcept_bind fun ch _ => ?_
  exact calm_bind (Tx.calm_modify fun d => hW.redeem d _) fun _ => Tx.calm_ofExcept _

theorem calm_authorize (hW : Admits W) (challenge csrDer : String) (req : LoadedCsr) (txid : String)
    (appName : Option String) : Calm W (authorize env w challenge csrDer req txid appName) := by
  cases appName with
  | none => exact calm_redeem hW _
  | some name =>
    unfold authorize
    refine calm_get_bind fun d => calm_ofExcept_bind fun found _ => ?_
    split
    · exact calm_throw _
    refine calm_ofExcept_bind fun validation _ => ?_
    split
    · refine calm_ofExcept_bind fun ch _ => ?_
      split
      · exact calm_throw _
      split
      · exact calm_throw _
      · exact calm_redeem hW _
    split
    · exact calm_throw _
    split
    · exact calm_throw _
    refine calm_ofExcept_bind fun valid _ => calm_ofExcept_bind fun reason _ => ?_
    dsimp only
    split
    · exact calm_throw _
    · exact calm_bind (calm_record hW _ _ _ _) fun _ => calm_pure _

end Parts

section Handle

variable {env : Env} {w : Wire} {adds : Certificate → Prop} {d : Db} {s : Session Db}

theorem front_enrolled (msg : PkiMessage) (req : LoadedCsr) (who : Actor) (app : ℕ × App) (outcome : Outcome) :
    Onward FrontWrite (enrolled env w msg req who app outcome) := by
  cases outcome with
  | approval approvalId =>
    unfold enrolled
    refine onward_bind (Calm.onward (front_addPlain aside_scepTransactions _ _)) fun _ => ?_
    refine onward_bind (front_record _ _ _ _).onward fun _ => ?_
    exact onward_bind onward_commit fun _ => (calm_pure _).onward
  | certificate id =>
    unfold enrolled
    refine onward_get_bind fun d => ?_
    split
    · exact onward_success _ _ _
    · exact (calm_throw _).onward
  | job id => exact (calm_throw _).onward

theorem alone_request (hd : Steady d s.work) (hadds : ∀ c, SignedAlone env d c → adds c) (msg : PkiMessage)
    (req : LoadedCsr) (who : Actor) (app : ℕ × App) (previous : Option ℕ) :
    DoesAt (MessageWrite env adds) s (request env w msg req who app previous) := by
  unfold request
  refine Tx.doesAt_bind (m := Tx.attempt _) (alone_certificate hd hadds _ _ _) fun result s' _ => ?_
  split
  · exact does_front (front_enrolled _ _ _ _ _) s'
  · exact does_front (onward_fail admits_front _ _ _) s'
  · exact does_front (onward_fail admits_front _ _ _) s'
  · exact (calm_throw _).does s'

theorem alone_renewal (hd : Steady d s.work) (hadds : ∀ c, SignedAlone env d c → adds c) (msg : PkiMessage)
    (req : LoadedCsr) (appName : Option String) (current : Option (ℕ × Certificate)) :
    DoesAt (MessageWrite env adds) s (renewal env w msg req appName current) := by
  unfold renewal
  refine Tx.doesAt_get_bind ?_
  split
  · exact does_front (onward_fail admits_front _ _ _) s
  split
  · exact does_front (onward_fail admits_front _ _ _) s
  split
  · exact does_front (onward_fail admits_front _ _ _) s
  · exact alone_request hd hadds _ _ _ _ _

theorem alone_enrollment (hd : Steady d s.work) (hadds : ∀ c, SignedAlone env d c → adds c) (msg : PkiMessage)
    (csrDer : String) (req : LoadedCsr) (appName : Option String) :
    DoesAt (MessageWrite env adds) s (enrollment env w msg csrDer req appName) := by
  unfold enrollment
  split
  · exact does_front (onward_fail admits_front _ _ _) s
  next challenge hchallenge =>
  have honward : OnwardAt FrontWrite s (Tx.attempt (authorize env w challenge csrDer req msg.transactionId appName)) :=
    Tx.onward_attempt (calm_authorize admits_front _ _ _ _ _).onward s
  refine Tx.doesAt_bind (doesAt_front honward) fun result s' hrun => ?_
  split
  · exact does_front (onward_fail admits_front _ _ _) s'
  · exact (calm_throw _).does s'
  · exact alone_request (steady_after honward hd hrun) hadds _ _ _ _ _

theorem alone_answer (hd : Steady d s.work) (hadds : ∀ c, SignedAlone env d c → adds c) (ra : X509Cert)
    (msg : PkiMessage) (appName : Option String) : DoesAt (MessageWrite env adds) s (answer env w ra msg appName) := by
  unfold answer
  refine Tx.doesAt_get_bind ?_
  dsimp only
  split
  · exact does_front (onward_poll admits_front _) s
  split
  · exact does_front (onward_fail admits_front _ _ _) s
  split
  · exact does_front (onward_fail admits_front _ _ _) s
  split
  · exact does_front (onward_fail admits_front _ _ _) s
  refine Tx.doesAt_ofExcept_bind fun current _ => ?_
  split
  · exact alone_renewal hd hadds _ _ _ _
  · exact alone_enrollment hd hadds _ _ _ _

/-- **SCEP adds only certificates signed alone.** -/
theorem alone_handlePkiOperation (hd : Steady d s.work) (hadds : ∀ c, SignedAlone env d c → adds c) (der : String)
    (appName : Option String) : DoesAt (MessageWrite env adds) s (handlePkiOperation env w der appName) := by
  unfold handlePkiOperation
  refine Tx.doesAt_get_bind (Tx.doesAt_ofExcept_bind fun ca _ => ?_)
  have honward : OnwardAt FrontWrite s (ensureScepRa env ca.1 ca.2) := (calm_ensureScepRa admits_front _ _).onward s
  refine Tx.doesAt_bind (doesAt_front honward) fun ra s' hrun => ?_
  refine Tx.doesAt_ofExcept_bind fun parsed _ => ?_
  cases parsed with
  | error detail => exact (calm_pure _).does s'
  | ok msg =>
    have hanswer := alone_answer (w := w) (steady_after honward hd hrun) hadds ra msg appName
    exact Tx.doesAt_bind hanswer fun _ s'' _ => (calm_pure _).does s''

end Handle

end Scep

/-! ## CMP -/

namespace Cmp

section Handle

variable {env : Env} {w : Wire} {adds : Certificate → Prop} {d : Db} {s : Session Db}

theorem alone_answer (hd : Steady d s.work) (hadds : ∀ c, SignedAlone env d c → adds c) (req : CmpRequest)
    (prot : Protection) : DoesAt (Write env (.adding adds)) s (answer env w req prot) := by
  refine answer_doesAt (fun _ _ _ => trivial) (fun _ => trivial) fun _ ca s' hrun => ?_
  have hsteady : Steady d s'.work := by
    obtain ⟨t, ht⟩ := @responder_work env s
    rw [hrun] at ht
    exact hd.trans (ht ▸ ⟨rfl, rfl, rfl⟩)
  refine handleEnrollment_doesAt admits_write (converses_write fun _ => trivial) (fun _ _ _ => trivial) (fun _ _ actor appId r _ => ?_) ca
  exact doesAt_requestCertificate hsteady hadds actor appId r

theorem message_guarded {req : CmpRequest} {m : M Reply} (h : DoesAt (Write env (.adding adds)) s m) :
    DoesAt (MessageWrite env adds) s (guarded env req m) :=
  Tx.DoesAt.mono (fun _ _ => .authority) (doesAt_guarded (fun _ _ _ _ => .frame _ _ rfl rfl rfl rfl rfl) .event h)

/-- **CMP adds only certificates signed alone.** -/
theorem alone_handle (hd : Steady d s.work) (hadds : ∀ c, SignedAlone env d c → adds c) (req : CmpRequest)
    (label : Option String) : DoesAt (MessageWrite env adds) s (handle env w req label) :=
  message_guarded (dispatch_doesAt (fun prot _ => alone_answer hd hadds req prot) label)

end Handle

end Cmp

/-! ## ACME -/

namespace Acme

section Handle

variable {env : Env} {site : Site} {draws : Draws} {adds : Certificate → Prop} {d : Db} {s : Session Db}

theorem front_saveRow {α : Type} [DecidableEq α] {c : Col α} (h : Aside c) (assign : α → α → α → α) (id : ℕ)
    (loaded new : α) : Calm FrontWrite (saveRow c assign id loaded new) := by
  unfold saveRow
  split
  · exact calm_pure _
  refine calm_get_bind fun d => ?_
  split
  · exact Tx.calm_modify fun d => h d _
  · exact calm_throw _

theorem front_saveOrder (id : ℕ) (loaded new : AcmeOrder) : Calm FrontWrite (saveOrder id loaded new) :=
  front_saveRow aside_acmeOrders _ _ _ _

theorem front_saveAuthz (id : ℕ) (loaded new : AcmeAuthz) : Calm FrontWrite (saveAuthz id loaded new) :=
  front_saveRow aside_acmeAuthz _ _ _ _

theorem front_saveAccount (id : ℕ) (loaded new : AcmeAccount) : Calm FrontWrite (saveAccount id loaded new) :=
  front_saveRow aside_acmeAccounts _ _ _ _

theorem front_newNonce : Calm FrontWrite (newNonce env draws) :=
  calm_bind (front_insert (fun d => .addNonce d _) _) fun _ => calm_pure _

theorem front_resp (reply : Reply) : Onward FrontWrite (resp env draws reply) := by
  unfold resp
  exact onward_bind front_newNonce.onward fun _ => onward_bind onward_commit fun _ => (calm_pure _).onward

/-- an UPDATE of a binding leaves its mark, or sets it -/
theorem assignEab_used (loaded stored : AcmeEab) :
    (assignEab loaded { loaded with used := true } stored).used = stored.used ∨
      (assignEab loaded { loaded with used := true } stored).used = true := by
  have hused : (assignEab loaded { loaded with used := true } stored).used = written loaded.used true stored.used := rfl
  rw [hused]
  unfold written
  split
  · exact Or.inl rfl
  · exact Or.inr rfl

theorem front_useEab (id : ℕ) (loaded : AcmeEab) : Calm FrontWrite (saveEab id loaded { loaded with used := true }) := by
  unfold saveEab saveRow
  split
  · exact calm_pure _
  refine calm_get_bind fun d => ?_
  split
  · exact Tx.calm_modify fun d => .bind d id _ (assignEab_used loaded)
  · exact calm_throw _

theorem front_storeNewAccount (l : NewAccount) : Onward FrontWrite (storeNewAccount env draws l) := by
  cases l with
  | existing id => exact front_resp _
  | create cred account =>
    unfold storeNewAccount
    refine onward_bind (front_useEab _ _).onward fun _ => ?_
    refine onward_bind (Calm.onward (front_addPlain aside_acmeAccounts _ _)) fun _ => ?_
    exact onward_bind (front_record _ _ _ _).onward fun _ => front_resp _

theorem front_closeAuthz (dead : AuthzStatus) (authz : List (ℕ × AcmeAuthz)) : Calm FrontWrite (closeAuthz dead authz) := by
  induction authz with
  | nil => exact calm_pure _
  | cons a rest ih => exact calm_bind (front_saveAuthz _ _ _) fun _ => ih

theorem front_closeOrders (text : AcmeOrder → Option String) (dead : AuthzStatus) (orders : List Closing) :
    Calm FrontWrite (closeOrders text dead orders) := by
  induction orders with
  | nil => exact calm_pure _
  | cons c rest ih =>
    refine calm_bind (front_saveOrder _ _ _) fun _ => calm_bind (front_closeAuthz _ _) fun _ => ?_
    exact calm_bind ih fun n => calm_pure _

theorem front_storeAccount (l : (ℕ × AcmeAccount) × AccountUpdate) : Onward FrontWrite (storeAccount env draws l) := by
  unfold storeAccount updateAccount
  refine onward_bind (Calm.onward ?_) fun _ => front_resp _
  split
  · unfold deactivateAccount
    refine calm_bind (front_saveAccount _ _ _) fun _ => calm_bind (front_closeOrders _ _ _) fun _ => ?_
    exact front_record _ _ _ _
  · unfold updateContact
    exact calm_bind (front_saveAccount _ _ _) fun _ => front_record _ _ _ _
  · exact calm_pure _

theorem front_addAuthz (orderId : ℕ) (status : AuthzStatus) (ctype : Option String) (k : ℕ) (names : List String) :
    Calm FrontWrite (addAuthz draws orderId status ctype k names) := by
  induction names generalizing k with
  | nil => exact calm_pure _
  | cons n rest ih => exact calm_bind (front_addPlain aside_acmeAuthz _ _) fun _ => ih _

theorem front_addOrder (acctId : ℕ) (names : List String) (replaces : Option String) (replacesCertId : Option ℕ) :
    Calm FrontWrite (addOrder env site draws acctId names replaces replacesCertId) := by
  unfold addOrder
  refine calm_bind (front_addPlain aside_acmeOrders _ _) fun orderId => ?_
  split
  · refine calm_bind (front_addAuthz _ _ _ _ _) fun _ => ?_
    exact calm_bind (front_setPlain aside_acmeOrders _ _) fun _ => calm_pure _
  · exact calm_bind (front_addAuthz _ _ _ _ _) fun _ => calm_pure _

theorem front_storeNewOrder (l : NewOrder) : Onward FrontWrite (storeNewOrder env site draws l) := by
  cases l with
  | refuse who app violations =>
    exact onward_bind (front_record _ _ _ _).onward fun _ => onward_bind onward_commit fun _ => (calm_throw _).onward
  | create acct names replaces replacesCertId =>
    exact onward_bind (front_addOrder _ _ _ _).onward fun _ => front_resp _

theorem front_storeGetAuthz (l : Owned × Bool) : Onward FrontWrite (storeGetAuthz env draws l) := by
  unfold storeGetAuthz updateAuthz
  refine onward_bind (Calm.onward ?_) fun _ => front_resp _
  split
  · unfold deactivateAuthz
    refine calm_bind (front_saveOrder _ _ _) fun _ => calm_bind (front_saveAuthz _ _ _) fun _ => ?_
    exact front_record _ _ _ _
  · exact calm_pure _

theorem front_storeChallenge (ctype : String) (why : Option String) (l : Owned) :
    Onward FrontWrite (storeChallenge env draws ctype why l) := by
  unfold storeChallenge updateChallenge
  refine onward_bind (Calm.onward ?_) fun _ => front_resp _
  split
  · unfold recordValidation
    refine calm_bind (front_saveOrder _ _ _) fun _ => calm_bind (front_saveAuthz _ _ _) fun _ => ?_
    refine calm_get_bind fun d => ?_
    split
    · exact front_saveOrder _ _ _
    · exact calm_pure _
  · exact calm_pure _

theorem front_expireOrder (o : ℕ × AcmeOrder) : Onward FrontWrite (expireOrder o) := by
  unfold expireOrder
  exact onward_bind (front_saveOrder _ _ _).onward fun _ => onward_bind onward_commit fun _ => (calm_throw _).onward

theorem alone_storeFinalize (hd : Steady d s.work) (hadds : ∀ c, SignedAlone env d c → adds c) (l : Finalizing) :
    DoesAt (MessageWrite env adds) s (storeFinalize env draws l) := by
  unfold storeFinalize
  have hsave : OnwardAt FrontWrite s (saveOrder l.order.1 l.order.2 (processing l.order.2)) :=
    (front_saveOrder _ _ _).onward s
  refine Tx.doesAt_bind (doesAt_front hsave) fun _ s1 hrun => Tx.doesAt_get_bind ?_
  have hd := steady_after hsave hd hrun
  refine Tx.doesAt_bind (m := Tx.attempt _) (alone_certificate hd hadds _ _ _) fun result s2 _ => ?_
  split
  · refine does_front (onward_bind (front_saveOrder _ _ _).onward fun _ => ?_) s2
    exact onward_bind (front_resp _) fun _ => (calm_pure _).onward
  · exact (calm_throw _).does s2
  · exact (calm_pure _).does s2
  · exact (calm_throw _).does s2

theorem alone_finalizeOrder (hd : Steady d s.work) (hadds : ∀ c, SignedAlone env d c → adds c) (l : Finalizing) :
    DoesAt (MessageWrite env adds) s (finalizeOrder env draws l) := by
  unfold finalizeOrder
  refine Tx.doesAt_bind (alone_storeFinalize hd hadds l) fun result s' _ => ?_
  cases result with
  | ok reply => exact (calm_pure _).does s'
  | error text =>
    refine does_front (onward_bind (front_saveOrder _ _ _).onward fun _ => ?_) s'
    exact onward_bind onward_commit fun _ => (calm_throw _).onward

theorem alone_serve (hd : Steady d s.work) (hadds : ∀ c, SignedAlone env d c → adds c) (req : Request) (call : Call) :
    DoesAt (MessageWrite env adds) s (serve env site draws req call) := by
  cases call with
  | newAccount =>
    exact Tx.doesAt_get_bind (Tx.doesAt_ofExcept_bind fun l _ => does_front (front_storeNewAccount l) s)
  | account acctId =>
    exact Tx.doesAt_get_bind (Tx.doesAt_ofExcept_bind fun l _ => does_front (front_storeAccount l) s)
  | newOrder =>
    exact Tx.doesAt_get_bind (Tx.doesAt_ofExcept_bind fun l _ => does_front (front_storeNewOrder l) s)
  | getAuthz authzId =>
    exact Tx.doesAt_get_bind (Tx.doesAt_ofExcept_bind fun l _ => does_front (front_storeGetAuthz l) s)
  | challenge authzId ctype =>
    refine Tx.doesAt_get_bind (Tx.doesAt_ofExcept_bind fun l _ => ?_)
    split
    · exact does_front (front_expireOrder _) s
    · exact does_front (front_storeChallenge _ _ l) s
  | finalize orderId =>
    refine Tx.doesAt_get_bind (Tx.doesAt_ofExcept_bind fun acct _ => Tx.doesAt_ofExcept_bind fun o _ => ?_)
    split
    · exact does_front (front_expireOrder _) s
    · exact Tx.doesAt_ofExcept_bind fun l _ => alone_finalizeOrder hd hadds l

theorem front_spendNonce (id : ℕ) : Onward FrontWrite (spendNonce id) :=
  onward_bind (Calm.onward (Tx.calm_modify fun d => .dropNonces d _)) fun _ => onward_commit

/-- a problem is answered with a nonce -/
theorem message_answer {handler : M Reply} (h : DoesAt (MessageWrite env adds) s handler) :
    DoesAt (MessageWrite env adds) s (answer env draws handler) := by
  unfold answer
  refine Tx.doesAt_bind (m := Tx.attempt _) h fun result s' _ => ?_
  split
  · exact (calm_pure _).does s'
  · refine does_bind does_rollback (fun _ => does_front ?_) s'
    exact onward_bind front_newNonce.onward fun _ => onward_bind onward_commit fun _ => (calm_pure _).onward
  · exact (calm_throw _).does s'

/-- **ACME adds only certificates signed alone.** -/
theorem alone_handle (hd : Steady d s.work) (hadds : ∀ c, SignedAlone env d c → adds c) (req : Request) (call : Call) :
    DoesAt (MessageWrite env adds) s (handle env site draws req call) := by
  unfold handle
  refine message_answer (Tx.doesAt_get_bind (Tx.doesAt_ofExcept_bind fun nonce _ => ?_))
  have hspend : OnwardAt FrontWrite s (spendNonce nonce) := front_spendNonce nonce s
  exact Tx.doesAt_bind (doesAt_front hspend) fun _ s' hrun => alone_serve (steady_after hspend hd hrun) hadds req call

end Handle

end Acme

/-! ## Push provisioning -/

namespace Provisioning

section Provision

variable {env : Env} {w : Drivers} {adds : Certificate → Prop} {d : Db} {s : Session Db}

theorem does_revoke (actor : Actor) (certId : ℕ) (reason : String) (changeRef : Option String) :
    Does (MessageWrite env adds) (revoke env actor certId reason changeRef) :=
  does_authority (calm_revoke (fun _ => trivial) _ _ _).does

theorem does_revokeUndelivered (instId appId : ℕ) (p : Progress) :
    Does (MessageWrite env adds) (revokeUndelivered env instId appId p) := by
  unfold revokeUndelivered
  split
  · exact (calm_pure _).does
  refine Tx.does_get_bind fun d => ?_
  dsimp only
  split
  · exact (calm_pure _).does
  refine does_bind (Tx.does_attempt (does_revoke _ _ _ _)) fun result => ?_
  split
  · exact (calm_pure _).does
  · exact (calm_throw _).does
  · exact (calm_pure _).does

theorem front_report (instId runId : ℕ) (inst : Installation) (target : Option ProvisioningTarget)
    (actorName trigger status : String) (serial error : Option String) (steps : List String) :
    Calm FrontWrite (report env instId runId inst target actorName trigger status serial error steps) :=
  calm_bind (front_setPlain aside_provisioningRuns _ _) fun _ => front_record _ _ _ _

theorem does_failed (run : Run) (p : Progress) (e : Err) : Does (MessageWrite env adds) (failed env run p e) := by
  have hrest : Does (MessageWrite env adds) (do
      let why := message e
      let steps ← revokeUndelivered env run.instId run.inst.appId p
      setRow env Col.installations run.instId (failedInstallation env p why)
      setPlain Col.provisioningRuns run.runId fun r =>
        { r with status := "failed", error := some why, certificateId := (p.issued.map Prod.fst).or r.certificateId }
      report env run.instId run.runId run.inst run.target run.actorName run.trigger "failed"
        (p.issued.map fun c => c.2.serialHex) (some why) steps) := by
    refine does_bind (does_revokeUndelivered _ _ _) fun steps => does_front ?_
    refine onward_bind (Calm.onward (front_setRow aside_installations _ _)) fun _ => ?_
    refine onward_bind (Calm.onward (front_setPlain aside_provisioningRuns _ _)) fun _ => ?_
    exact (front_report _ _ _ _ _ _ _ _ _ _).onward
  cases e with
  | integrity c => exact (calm_throw _).does
  | _ => exact hrest

theorem does_finished (run : Run) (issued : ℕ × Certificate) (status : String) (steps : List String) :
    Does (MessageWrite env adds) (finished env run issued status steps) := by
  have hretire : Does (MessageWrite env adds) (retirePrevious env run issued.1) := by
    unfold retirePrevious
    refine Tx.does_get_bind fun d => ?_
    split
    · dsimp only
      split
      · exact does_authority (does_bind (calm_supersede (fun _ => trivial) _).does fun _ => (calm_pure _).does)
      · exact (calm_pure _).does
    · exact (calm_pure _).does
  unfold finished
  refine does_bind hretire fun retired => does_front ?_
  refine onward_bind (Calm.onward (front_setRow aside_installations _ _)) fun _ => ?_
  refine onward_bind (Calm.onward (front_setPlain aside_provisioningRuns _ _)) fun _ => ?_
  exact (front_report _ _ _ _ _ _ _ _ _ _).onward

theorem does_push (run : Run) (p : Prepared) (issued : ℕ × Certificate) :
    Does (MessageWrite env adds) (push env w run p issued) := by
  unfold push
  refine Tx.does_get_bind fun d => ?_
  split
  · exact does_failed _ _ _
  split
  · exact does_failed _ _ _
  refine does_bind (does_front (Calm.onward (front_setRow aside_installations _ _))) fun _ => ?_
  split
  · exact does_failed _ _ _
  · exact does_finished _ _ _ _

theorem alone_issueNow (hd : Steady d s.work) (hadds : ∀ c, SignedAlone env d c → adds c) (run : Run) (csrPem : String) :
    DoesAt (MessageWrite env adds) s (issueNow env run csrPem) := by
  unfold issueNow
  refine Tx.doesAt_bind (alone_certificate hd hadds _ _ _) fun outcome s' _ => ?_
  split
  · refine Tx.doesAt_get_bind ?_
    split
    · exact (calm_pure _).does s'
    · exact (calm_throw _).does s'
  · exact (calm_throw _).does s'

theorem alone_attempted (hd : Steady d s.work) (hadds : ∀ c, SignedAlone env d c → adds c) (run : Run) :
    DoesAt (MessageWrite env adds) s (attempted env w run) := by
  unfold attempted
  split
  · exact does_failed _ _ _ s
  · refine Tx.doesAt_bind (m := Tx.attempt _) (alone_issueNow hd hadds _ _) fun result s' _ => ?_
    cases result with
    | error e => exact does_failed _ _ _ s'
    | ok issued => exact does_push _ _ _ s'

/-- **Push provisioning adds only certificates signed alone.** -/
theorem alone_provision (hd : Steady d s.work) (hadds : ∀ c, SignedAlone env d c → adds c) (instId : ℕ)
    (actorName trigger : String) : DoesAt (MessageWrite env adds) s (provision env w instId actorName trigger) := by
  unfold provision
  refine Tx.doesAt_get_bind ?_
  split
  · exact (calm_throw _).does s
  next inst hinst =>
  have hadd := Calm.onward (front_addPlain aside_provisioningRuns noClash
    ⟨instId, trigger, "running", none, [], none, actorName⟩) s
  refine Tx.doesAt_bind (doesAt_front hadd) fun runId s' hrun => ?_
  refine Tx.doesAt_bind (alone_attempted (steady_after hadd hd hrun) hadds _) fun _ s'' _ => ?_
  exact does_bind onward_commit.does (fun _ => (calm_pure _).does) s''

end Provision

end Provisioning

end Certadillo
