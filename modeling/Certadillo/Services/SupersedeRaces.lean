/-
Transactions that replace a certificate, and revocations, under READ COMMITTED.

A transaction reads its rows when it begins (`begin`) and writes what it made of them when it commits (`commit`): an UPDATE
sets the columns it changed, whatever was committed in between. Five front ends, approved requests, provisioning runs and
endpoint tracking set a certificate they loaded as active to superseded.

- `begin_commit`: a transaction with nothing in between leaves what its operation leaves.
- `leaves_ended`: what a transaction does to the status of a row it loaded.
- `revoked_stays`: a revoked certificate stays revoked in every run in which no transaction commits the replacement of a
  certificate that was revoked since it loaded it; `superseded_after_revoked` is a run in which one does.
-/
import Certadillo.Lib.Threads
import Certadillo.Enrollment.LoginRuns
import Certadillo.Revocation.Lasting

namespace Certadillo.Supersede

open Integrity Policy Py Machine Platform Relation

/-! ## The certificate a front end replaces -/

/-- how a request names the certificate it replaces -/
inductive Replacing where
  | renew (certId : ℕ)
  | estCertificate (cert : X509Cert)
  | estBasic (appId : Option ℕ) (commonName : String)
  | acme (replacesCertId : Option ℕ)
  | scep (cert : X509Cert)
  | cmp (cert : X509Cert)

/-- `order_by(not_after.desc()).first()` -/
def newest : List (ℕ × Certificate) → Option (ℕ × Certificate)
  | [] => none
  | r :: rest =>
    match newest rest with
    | some last => if r.2.notAfter < last.2.notAfter then some last else some r
    | none => some r

/-- the row the front end passes to `request_certificate` -/
def Replacing.previous (env : Env) (d : Db) : Replacing → Except Err (Option ℕ)
  | .renew certId =>
    match d.certificates.get certId with
    | none => .error (.notFound "certificate not found or not issued here")
    | some prev =>
      let status := prev.status.text
      if prev.source ≠ .issued then .error (.notFound "certificate not found or not issued here")
      else if prev.status ≠ .active then .error (.value s!"certificate is {status}")
      else .ok (some certId)
  | .estCertificate cert => do
    let row ← Est.certRow env d cert
    pure ((row.filter fun r => validNow env cert && (Est.certApp env d r.2).isSome).map Prod.fst)
  | .estBasic appId commonName =>
    let rows := d.certificates.all fun c => c.appId = appId && c.status = .active && c.commonName = commonName
    match newest rows with
    | none => .error (.other "no active certificate with this subject to re-enroll")
    | some prev => .ok (some prev.1)
  | .acme replacesCertId =>
    match (replacesCertId.filter (· ≠ 0)).bind fun i => (d.certificates.get i).map fun c => (i, c) with
    | some (i, previous) => .ok (if previous.status ≠ .active then none else some i)
    | none => .ok none
  | .scep cert => do pure ((← Scep.issuedHere env d cert).map Prod.fst)
  | .cmp cert => do pure ((← Cmp.issuedHere env d cert false).map Prod.fst)

/-! ## Provisioning -/

structure Installation where
  id : ℕ
  appId : ℕ
  commonName : String
  /-- the certificate on the target -/
  certificateId : Option ℕ

/-- what the target does: the CSR for its key, whether it takes the bundle, and whether it serves it -/
structure Push where
  csrPem : String
  installs : Bool
  serves : Bool

/-- the previous certificate of the installation is retired -/
def retireInstalled (env : Env) (inst : Installation) (issued : ℕ) : M Unit := do
  let d ← Tx.get
  match inst.certificateId with
  | none => pure ()
  | some prevId =>
    match d.certificates.get prevId with
    | none => pure ()
    | some previous =>
      if previous.status = .active ∧ prevId ≠ issued then
        setRow env Col.certificates prevId fun c => { c with status := .superseded, replacedBy := some issued }
      else pure ()

/-- a certificate that never reached the target is revoked -/
def revokeUndelivered (env : Env) (provisioner : Actor) (issued : ℕ) : M Unit := do
  let d ← Tx.get
  if (d.certificates.get issued).map (·.status) = some .active then
    let _ ← Tx.attempt (revoke env provisioner issued "cessation_of_operation" none)
    pure ()
  else pure ()

/-- what is done with the outcome of the request, and the run's status -/
def deliver (env : Env) (provisioner : Actor) (inst : Installation) (push : Push) : Except Err Outcome → M String
  | .ok (.certificate issued) =>
    if !push.installs then do
      revokeUndelivered env provisioner issued
      pure "failed"
    else if !push.serves then pure "failed"
    else do
      retireInstalled env inst issued
      pure "ok"
  | _ => pure "failed"

/-- `provision`: a run that fails is recorded and retried later -/
def provision (env : Env) (actorName trigger : String) (inst : Installation) (push : Push) : M Unit := do
  let installation := inst.id
  let provisioner : Actor := ⟨s!"provisioner:{installation}", .app, some inst.appId⟩
  let result ← Tx.attempt (requestCertificate env provisioner inst.appId
    ⟨some push.csrPem, none, none, none, "push", none, false, none⟩)
  let status ← deliver env provisioner inst push result
  record env actorName "provisioning.run" inst.commonName
    [("installation", .num inst.id), ("trigger", .str trigger), ("status", .str status)]

/-! ## Transactions -/

inductive Op where
  | request (replacing : Replacing) (actor : Actor) (appId : ℕ) (r : CertRequest)
  | decide (actor : Actor) (approvalId : ℕ) (approve : Bool) (comment : Option String)
  | provision (actorName trigger : String) (inst : Installation) (push : Push)
  | ingest (actorName : String) (cert : X509Cert) (feed : Feed) (location : Option String) (appId : Option ℕ)
  | revoke (actor : Actor) (certId : ℕ) (reason : String) (changeRef : Option String)

/-- `request_certificate` for the certificate the front end found -/
def replace (env : Env) (replacing : Replacing) (actor : Actor) (appId : ℕ) (r : CertRequest) : M Outcome := do
  let d ← Tx.get
  let previous ← lift (replacing.previous env d)
  requestCertificate env actor appId { r with previous := previous }

/-- the database a transaction leaves, alone on `d` -/
def leaves (env : Env) (d : Db) : Op → Db
  | .request replacing actor appId r => (Tx.transact (replace env replacing actor appId r) d).2
  | .decide actor approvalId approve comment => (Tx.transact (Platform.decide env actor approvalId approve comment) d).2
  | .provision actorName trigger inst push => (Tx.transact (Supersede.provision env actorName trigger inst push) d).2
  | .ingest actorName cert feed location appId =>
    (Tx.transact (Platform.ingest env actorName cert feed.source location appId) d).2
  | .revoke actor certId reason changeRef => (Tx.transact (Platform.revoke env actor certId reason changeRef) d).2

/-- the UPDATE of a row, on the row as it is stored by then -/
def assigned (loaded new stored : Certificate) : Certificate where
  serialHex := written loaded.serialHex new.serialHex stored.serialHex
  fingerprintSha256 := written loaded.fingerprintSha256 new.fingerprintSha256 stored.fingerprintSha256
  caId := written loaded.caId new.caId stored.caId
  appId := written loaded.appId new.appId stored.appId
  commonName := written loaded.commonName new.commonName stored.commonName
  sans := written loaded.sans new.sans stored.sans
  notBefore := written loaded.notBefore new.notBefore stored.notBefore
  notAfter := written loaded.notAfter new.notAfter stored.notAfter
  keyType := written loaded.keyType new.keyType stored.keyType
  keySize := written loaded.keySize new.keySize stored.keySize
  profile := written loaded.profile new.profile stored.profile
  pem := written loaded.pem new.pem stored.pem
  status := written loaded.status new.status stored.status
  source := written loaded.source new.source stored.source
  backend := written loaded.backend new.backend stored.backend
  protocol := written loaded.protocol new.protocol stored.protocol
  location := written loaded.location new.location stored.location
  revokedAt := written loaded.revokedAt new.revokedAt stored.revokedAt
  revocationReason := written loaded.revocationReason new.revocationReason stored.revocationReason
  replacedBy := written loaded.replacedBy new.replacedBy stored.replacedBy
  lastSeen := written loaded.lastSeen new.lastSeen stored.lastSeen
  createdAt := written loaded.createdAt new.createdAt stored.createdAt
  sealHex := written loaded.sealHex new.sealHex stored.sealHex
  backendRef := written loaded.backendRef new.backendRef stored.backendRef
  chainPem := written loaded.chainPem new.chainPem stored.chainPem

/-- a transaction under way, with the database as it read it -/
structure Underway where
  env : Env
  op : Op
  view : Db

inductive Act where
  /-- the certificates are read as committed; the other tables are as they happen to be -/
  | begin (env : Env) (op : Op) (rest : Db)
  | commit
  | rollback

/-- the rows as read, under the sequence as it is by now -/
def Underway.found (u : Underway) (stored : Table Certificate) : Db :=
  { u.view with certificates := u.view.certificates.advance stored.next }

/-- the certificates table after the commit -/
def Underway.committed (u : Underway) (stored : Table Certificate) : Table Certificate :=
  Table.merge assigned u.view.certificates (leaves u.env (u.found stored) u.op).certificates stored

def act (_ : ℕ) (stored : Table Certificate) (l : Option Underway) : Act → Table Certificate × Option Underway
  | .begin env op rest => (stored, some ⟨env, op, { rest with certificates := stored }⟩)
  | .commit =>
    match l with
    | none => (stored, none)
    | some u => (u.committed stored, none)
  | .rollback => (stored, none)

abbrev St := Threads.St (Table Certificate) (Option Underway)

abbrev step : St → ℕ × Act → St := Threads.step act

/-- certificate `i` is committed as revoked -/
def RevokedRow (i : ℕ) (s : St) : Prop := ∃ c, s.shared.get i = some c ∧ c.status = .revoked

/-- once committed as revoked, a certificate stays so -/
def Absorbing (s : St) (ops : List (ℕ × Act)) : Prop :=
  ∀ i before mid after, ops = before ++ mid ++ after → RevokedRow i (run step s before) → RevokedRow i (run step s (before ++ mid))

/-- the rows a transaction replaces, as it read them -/
def Op.Replaces (env : Env) (view : Db) (i : ℕ) : Op → Prop
  | .request replacing _ _ _ => replacing.previous env view = .ok (some i)
  | .decide actor approvalId approve _ => ∃ req a, decideChecks env view actor approvalId approve = .ok req ∧
      IssueArgs.ofPayload req.payload = .ok a ∧ a.previousId = some i
  | .provision _ _ inst _ => inst.certificateId = some i
  | .ingest _ _ feed location _ => feed.source = .discovered ∧ ∃ c, view.certificates.get i = some c ∧ AtEndpoint location c
  | .revoke .. => False

/-- a commit replaces no certificate that was loaded as active and is revoked by now -/
def InTime (s : St) (o : ℕ × Act) : Prop :=
  o.2 = .commit → ∀ u, s.loc o.1 = some u → ∀ i c, u.op.Replaces u.env (u.found s.shared) i →
    u.view.certificates.get i = some c → c.status = .active → ¬ RevokedRow i s

/-! ## One transaction -/

section One

variable {env : Env} {g : Grant} {d view : Db} {i : ℕ}

theorem newest_mem {rows : List (ℕ × Certificate)} {p : ℕ × Certificate} (h : newest rows = some p) : p ∈ rows := by
  induction rows with
  | nil => cases h
  | cons r rest ih =>
    unfold newest at h
    split at h
    · next last hlast =>
      split at h
      · cases h
        exact List.mem_cons_of_mem _ (ih hlast)
      · cases h
        exact List.mem_cons_self
    · cases h
      exact List.mem_cons_self

theorem certRow_get {cert : X509Cert} {row : ℕ × Certificate} (h : Est.certRow env d cert = .ok (some row)) :
    d.certificates.get row.1 = some row.2 := by
  unfold Est.certRow at h
  obtain ⟨found, hfound, h⟩ := except_bind_ok.1 h
  split at h
  · cases h
  next id c =>
  split at h
  · cases h
  next ca _ =>
  have hrow : (if signedBy env d ca cert = true then some (id, c) else none) = some row := Except.ok.inj h
  split at hrow
  · cases hrow
    exact (Login.issuedRow_ok hfound).1
  · cases hrow

theorem trusted_active {st : SealState} {c : Certificate} (h : trustedStatus st d c = .active) : c.status = .active := by
  unfold trustedStatus at h
  split at h
  · cases h
  split at h
  · cases h
  · exact h

/-- the certificate found is active -/
theorem previous_active {replacing : Replacing} (h : replacing.previous env d = .ok (some i)) :
    ∃ c, d.certificates.get i = some c ∧ c.status = .active := by
  cases replacing with
  | renew certId =>
    simp only [Replacing.previous] at h
    split at h
    · cases h
    next prev hget =>
    split_ifs at h with hsource hactive
    cases h
    exact ⟨prev, hget, not_not.1 hactive⟩
  | estCertificate cert =>
    simp only [Replacing.previous] at h
    obtain ⟨row, hrow, h⟩ := except_bind_ok.1 h
    obtain ⟨p, hp, rfl⟩ := Option.map_eq_some_iff.1 (Except.ok.inj h)
    obtain ⟨rfl, hlogin⟩ := Option.filter_eq_some_iff.1 hp
    obtain ⟨appId, happ⟩ := Option.isSome_iff_exists.1 (Bool.and_eq_true_iff.1 hlogin).2
    exact ⟨p.2, certRow_get hrow, trusted_active (Login.certApp_trusted happ)⟩
  | estBasic appId commonName =>
    simp only [Replacing.previous] at h
    split at h
    · cases h
    next prev hnewest =>
    cases h
    obtain ⟨hget, hp⟩ := Table.mem_all.1 (newest_mem hnewest)
    simp only [Bool.and_eq_true, decide_eq_true_eq] at hp
    exact ⟨prev.2, hget, hp.1.2⟩
  | acme replacesCertId =>
    simp only [Replacing.previous] at h
    split at h
    · next j previous hfound =>
      obtain ⟨j', -, hj⟩ := Option.bind_eq_some_iff.1 hfound
      obtain ⟨c, hget, heq⟩ := Option.map_eq_some_iff.1 hj
      obtain ⟨rfl, rfl⟩ := Prod.mk.inj heq
      have hactive := Except.ok.inj h
      split at hactive
      · cases hactive
      next hst =>
      cases hactive
      exact ⟨c, hget, not_not.1 hst⟩
    · cases h
  | scep cert =>
    simp only [Replacing.previous] at h
    obtain ⟨row, hrow, h⟩ := except_bind_ok.1 h
    obtain ⟨p, rfl, rfl⟩ := Option.map_eq_some_iff.1 (Except.ok.inj h)
    rw [Login.scep_eq_cmp] at hrow
    obtain ⟨hget, hexposed⟩ := Login.cmp_accepted hrow
    exact ⟨p.2, hget, hexposed.active⟩
  | cmp cert =>
    simp only [Replacing.previous] at h
    obtain ⟨row, hrow, h⟩ := except_bind_ok.1 h
    obtain ⟨p, rfl, rfl⟩ := Option.map_eq_some_iff.1 (Except.ok.inj h)
    obtain ⟨hget, hexposed⟩ := Login.cmp_accepted hrow
    exact ⟨p.2, hget, hexposed.active⟩

/-- what a transaction is granted: to supersede the rows it replaces, if they are active as it read them -/
def grantOf (env : Env) (view : Db) (op : Op) : Grant :=
  { Grant.full with supersedes := fun i st => op.Replaces env view i ∧
      (st = .active ∨ ∃ c, view.certificates.get i = some c ∧ c.status = .active) }

theorem calm_retireInstalled {inst : Installation} (hp : ∀ prev, inst.certificateId = some prev → g.supersedes prev .active)
    (issued : ℕ) : Tx.Calm (Write env g) (retireInstalled env inst issued) := by
  unfold retireInstalled
  intro s
  refine Tx.calmAt_get_bind ?_
  split
  · exact Tx.calm_pure _ s
  next prevId hprev =>
  split
  · exact Tx.calm_pure _ s
  next previous hget =>
  split
  · next hactive =>
    refine Tx.calmAt_modify (.setCertificate _ _ (fun c => { c with status := .superseded, replacedBy := some issued })
      (fun c => ⟨rfl, rfl, rfl, rfl, rfl, Or.inr (Or.inl rfl)⟩) fun c hc _ => ?_)
    obtain rfl := Option.some.inj (hget.symm.trans hc)
    right
    rw [hactive.1]
    exact hp prevId hprev
  · exact Tx.calm_pure _ s

theorem does_revokeUndelivered (hr : ∀ j x, g.revokes j x) (provisioner : Actor) (issued : ℕ) :
    Tx.Does (Write env g) (revokeUndelivered env provisioner issued) := by
  unfold revokeUndelivered
  refine Tx.does_get_bind fun d => ?_
  split
  · refine Tx.does_bind (Tx.does_attempt (calm_revoke (hr issued) _ _ _).does) fun _ => ?_
    exact (Tx.calm_pure _).does
  · exact (Tx.calm_pure _).does

theorem does_provision (hg : ∀ c, Offered env c → g.adds c) (hr : ∀ j x, g.revokes j x) {inst : Installation}
    (hp : ∀ prev, inst.certificateId = some prev → g.supersedes prev .active) (actorName trigger : String) (push : Push) :
    Tx.Does (Write env g) (provision env actorName trigger inst push) := by
  unfold provision
  extract_lets -underBinder installation provisioner
  have hrequest : Tx.Does (Write env g) (requestCertificate env provisioner inst.appId
      ⟨some push.csrPem, none, none, none, "push", none, false, none⟩) :=
    does_requestCertificate hg (fun _ h => by cases h) _ _
  refine Tx.does_bind (Tx.does_attempt hrequest) fun result => ?_
  refine Tx.does_bind ?_ fun status => (calm_record (by decide)).does
  unfold deliver
  split
  · next issued =>
    split
    · exact Tx.does_bind (does_revokeUndelivered hr _ _) fun _ => (Tx.calm_pure _).does
    split
    · exact (Tx.calm_pure _).does
    · exact Tx.does_bind (calm_retireInstalled hp issued).does fun _ => (Tx.calm_pure _).does
  · exact (Tx.calm_pure _).does

theorem leaves_writes (op : Op) : ReflTransGen (Write env (grantOf env d op)) d (leaves env d op) := by
  cases op with
  | request replacing actor appId r =>
    refine Tx.transact_doesAt (Tx.doesAt_get_bind (Tx.doesAt_ofExcept_bind fun previous hprevious => ?_))
    refine does_requestCertificate (fun _ _ => trivial) (fun prev hprev st => ?_) _ _ _
    obtain rfl : previous = some prev := hprev
    exact ⟨hprevious, Or.inr (previous_active hprevious)⟩
  | decide actor approvalId approve comment =>
    refine Tx.transact_doesAt (doesAt_decide comment (fun req hreq _ => ?_) trivial)
    refine ⟨fun _ _ _ _ _ => trivial, fun _ a ha prev hprev => ?_, fun _ _ _ _ _ => trivial⟩
    exact ⟨⟨req, a, hreq, ha, hprev⟩, Or.inl rfl⟩
  | provision actorName trigger inst push =>
    refine Tx.transact_does (does_provision (fun _ _ => trivial) (fun _ _ => trivial) (fun prev hprev => ?_) _ _ _) d
    exact ⟨hprev, Or.inl rfl⟩
  | ingest actorName cert feed location appId =>
    refine Tx.transact_doesAt (Tx.CalmAt.does (calmAt_ingest (fun _ _ _ => trivial) ?_ (fun hsource j c hget hat st => ?_) _ _ _))
    · cases feed <;> decide
    · exact ⟨⟨hsource, c, hget, hat⟩, Or.inr ⟨c, hget, hat.2.2⟩⟩
  | revoke actor certId reason changeRef =>
    exact Tx.transact_does (calm_revoke (fun _ => trivial) _ _ _).does d

/-- what writes make of a status: it stays, is revoked, or is superseded where that is granted -/
def Ended (g : Grant) (i : ℕ) (st st' : CertStatus) : Prop :=
  st' = st ∨ st' = .revoked ∨ (st' = .superseded ∧ ∃ x, g.supersedes i x ∧ (x = .active → st = .active))

theorem write_ended {a b : Db} {st : CertStatus} (h : Write env g a b)
    (ha : ∃ c, a.certificates.get i = some c ∧ Ended g i st c.status) :
    ∃ c, b.certificates.get i = some c ∧ Ended g i st c.status := by
  obtain ⟨c, hget, hended⟩ := ha
  cases h with
  | frame _ certs _ _ _ _ => exact ⟨c, certs ▸ hget, hended⟩
  | addCertificate row _ => exact ⟨c, Table.get_insert_of_some hget, hended⟩
  | setCertificate j f hf hs =>
    by_cases hij : i = j
    · subst hij
      refine ⟨flushed env.st c (f c), by rw [Table.get_update_self, hget]; rfl, ?_⟩
      rw [flushed_status]
      rcases (hf c).status with hsame | hsup | hrev
      · rw [hsame]
        exact hended
      · rcases hs c hget hsup with hbefore | hgranted
        · rw [hsup, ← hbefore]
          exact hended
        · refine Or.inr (Or.inr ⟨hsup, c.status, hgranted, fun hactive => ?_⟩)
          rcases hended with heq | heq | ⟨heq, -⟩
          · exact heq.symm.trans hactive
          · cases heq.symm.trans hactive
          · cases heq.symm.trans hactive
      · exact Or.inr (Or.inl hrev)
    · exact ⟨c, by rw [Table.get_update_of_ne _ _ hij]; exact hget, hended⟩
  | _ => exact ⟨c, hget, hended⟩

/-- a row a transaction loaded keeps its status, or is revoked, or it was active and is one the transaction replaces -/
theorem leaves_ended {op : Op} {c : Certificate} (hget : d.certificates.get i = some c) :
    ∃ c', (leaves env d op).certificates.get i = some c' ∧
      (c'.status = c.status ∨ c'.status = .revoked ∨ (c'.status = .superseded ∧ c.status = .active ∧ op.Replaces env d i)) := by
  have hended := Tx.reaches_inv (I := fun a => ∃ c', a.certificates.get i = some c' ∧ Ended (grantOf env d op) i c.status c'.status)
    (fun _ _ => write_ended) (leaves_writes op) ⟨c, hget, Or.inl rfl⟩
  obtain ⟨c', hget', hsame | hrev | ⟨hsup, x, ⟨hreplaces, hx⟩, hback⟩⟩ := hended
  · exact ⟨c', hget', Or.inl hsame⟩
  · exact ⟨c', hget', Or.inr (Or.inl hrev)⟩
  · refine ⟨c', hget', Or.inr (Or.inr ⟨hsup, ?_, hreplaces⟩)⟩
    rcases hx with hx | ⟨c0, hc0, hactive⟩
    · exact hback hx
    · obtain rfl := Option.some.inj (hget.symm.trans hc0)
      exact hactive

theorem assigned_loaded (a b : Certificate) : assigned a b a = b := by
  simp only [assigned, written_self]

/-- a transaction adds rows under keys of the sequence only -/
theorem leaves_none {op : Op} (hget : d.certificates.get i = none) (hi : i < d.certificates.next) :
    (leaves env d op).certificates.get i = none := by
  refine (Tx.reaches_inv (I := fun a => a.certificates.get i = none ∧ i < a.certificates.next) ?_
    (leaves_writes op) ⟨hget, hi⟩).1
  rintro a b hw ⟨hnone, hlt⟩
  cases hw with
  | frame _ certs _ _ _ _ =>
    rw [certs]
    exact ⟨hnone, hlt⟩
  | addCertificate row _ =>
    refine ⟨?_, Nat.lt_succ_of_lt hlt⟩
    rw [Table.get_insert, if_neg (Nat.ne_of_lt hlt)]
    exact hnone
  | setCertificate j f hf hs =>
    refine ⟨?_, hlt⟩
    rw [Table.get_update, hnone]
    split <;> rfl
  | _ => exact ⟨hnone, hlt⟩

/-- with nothing in between, a commit leaves what the operation leaves -/
theorem begin_commit (op : Op) (i : ℕ) :
    (Underway.committed ⟨env, op, d⟩ d.certificates).get i = (leaves env d op).certificates.get i := by
  have hfound : Underway.found ⟨env, op, d⟩ d.certificates = d := by
    unfold Underway.found
    rw [Table.advance_next]
  unfold Underway.committed
  rw [hfound]
  cases hget : d.certificates.get i with
  | some c =>
    obtain ⟨c', hc', -⟩ := @leaves_ended env d i op c hget
    rw [Table.get_merge hget, hget, hc']
    exact congrArg some (assigned_loaded c c')
  | none =>
    rw [Table.get_merge_new hget]
    split
    · rfl
    · next hlt => exact (leaves_none hget (not_le.1 hlt)).symm

end One

/-! ## Runs -/

/-- one action of a run keeps a revoked certificate revoked, unless it commits the replacement of it -/
theorem step_revoked {s : St} {o : ℕ × Act} {i : ℕ} (hs : RevokedRow i s) (hin : InTime s o) : RevokedRow i (step s o) := by
  obtain ⟨t, a⟩ := o
  obtain ⟨c, hget, hst⟩ := id hs
  cases a with
  | begin env op rest => exact hs
  | rollback => exact hs
  | commit =>
    cases hu : s.loc t with
    | none =>
      have hsame : (step s (t, .commit)).shared = s.shared := by simp [act, hu]
      exact ⟨c, by rw [hsame]; exact hget, hst⟩
    | some u =>
      have hshared : (step s (t, .commit)).shared = u.committed s.shared := by simp [act, hu]
      have hrow := @Table.get_merge _ assigned u.view.certificates (leaves u.env (u.found s.shared) u.op).certificates
        s.shared i c hget
      rw [RevokedRow, hshared, Underway.committed]
      refine ⟨_, hrow, ?_⟩
      split
      · next a b hloaded hfinal =>
        obtain ⟨b', hb', hended⟩ := @leaves_ended u.env (u.found s.shared) i u.op a hloaded
        obtain rfl := Option.some.inj (hfinal.symm.trans hb')
        change written a.status b.status c.status = .revoked
        rcases hended with hsame | hrev | ⟨-, hactive, hreplaces⟩
        · rw [hsame, written, if_pos rfl, hst]
        · rw [hrev, hst, written, ite_self]
        · exact absurd hs (hin rfl u hu i a hreplaces hloaded hactive)
      · exact hst

/-- **Revoked is absorbing** in every run in which no transaction commits the replacement of a certificate that was
revoked since it loaded it. -/
theorem revoked_stays {s : St} {ops : List (ℕ × Act)} (hin : Along step InTime s ops) : Absorbing s ops := by
  intro i before mid after hops hrevoked
  rw [hops, along_append, along_append] at hin
  rw [run_append]
  exact run_inv (fun s o hs ho => step_revoked hs ho) hrevoked hin.1.2

/-! ### A renewal and a revocation -/

section Examples

/-- an app, the issuing CA, and the app's certificate -/
def renewalDb : Db :=
  { Revocation.answeringDb with
    apps := Table.empty.insert (inserted demoState (demoApp "web"))
    certificates := Table.empty.insert (inserted demoState
      { Revocation.issuedRow 17 with appId := some 1, profile := some "web", pem := "ca-pem" }) }

def start : St := ⟨renewalDb.certificates, fun _ => none⟩

/-- the certificate is renewed, and revoked -/
def renews : Act := .begin demoEnv (.request (.renew 1) Revocation.olga 1 webRequest) renewalDb

def revokes : Act := .begin demoEnv (.revoke Revocation.olga 1 "key_compromise" none) renewalDb

def statusOf (ops : List (ℕ × Act)) : Option CertStatus := ((run step start ops).shared.get 1).map (·.status)

theorem revokedRow_of_status {ops : List (ℕ × Act)} : RevokedRow 1 (run step start ops) ↔ statusOf ops = some .revoked := by
  unfold RevokedRow statusOf
  rw [Option.map_eq_some_iff]

/-- one transaction after the other -/
def inTurn : List (ℕ × Act) := [(0, renews), (0, .commit), (1, revokes), (1, .commit)]

theorem inTurn_absorbing : Absorbing start inTurn := by
  refine revoked_stays ⟨nofun, ?_, nofun, ?_, trivial⟩
  · rintro - u - i c - - - ⟨c', hget, hst⟩
    have hnone : ∀ p ∈ (step start (0, renews)).shared.rows, p.2.status ≠ .revoked := by decide
    exact hnone (i, c') (Table.mem_rows.2 hget) hst
  · intro _ u hu i c hreplaces
    obtain rfl := Option.some.inj hu
    exact hreplaces.elim

/-- both have read the certificate, and the revocation commits -/
def revokedFirst : List (ℕ × Act) := [(0, renews), (1, revokes), (1, .commit)]

/-- the renewal commits after it -/
def renewalCommits : List (ℕ × Act) := [(0, .commit)]

theorem racing_statuses :
    statusOf revokedFirst = some .revoked ∧ statusOf (revokedFirst ++ renewalCommits) = some .superseded := by
  decide

/-- A renewal that read the certificate before its revocation committed sets it to superseded. -/
theorem superseded_after_revoked : ¬ ∀ ops, Absorbing start ops := by
  intro h
  have hrevoked := revokedRow_of_status.2 racing_statuses.1
  have hstays := h (revokedFirst ++ renewalCommits) 1 revokedFirst renewalCommits [] (List.append_nil _).symm hrevoked
  rw [revokedRow_of_status, racing_statuses.2] at hstays
  cases hstays

end Examples

end Certadillo.Supersede
