/-
The AD CS gateway's side of the queue (`adcs/gateway.py`, `gateway_claim` and `gateway_complete` of `services.py`): a worker
claims the oldest pending jobs, carries them out on the Microsoft CA and posts what came of them.

- `gatewayComplete_issue`: with a certificate and nothing else, `gatewayComplete` is `gatewayCompleteIssue`.
- `complete_leaves_others_iff`: what a gateway posts changes no other certificate, unless it completes an issue job with a
  certificate that is already recorded with another backend or under another profile.
- `local_certificate_rewritten`: a certificate of the local CA, posted for an AD CS job.
-/
import Certadillo.Services.Refines

namespace Certadillo

open Integrity Policy Py

def JobType.text : JobType → String
  | issue => "issue"
  | revoke => "revoke"
  | inventory => "inventory"

def JobStatus.text : JobStatus → String
  | pending => "pending"
  | claimed => "claimed"
  | done => "done"
  | failed => "failed"

namespace Gateway

open Platform

/-! ## The queue -/

/-- `enqueue_revoke` -/
def enqueueRevoke (certId : ℕ) (cert : Certificate) (reason : String) (ca : Option String) (requestedBy : String) : M ℕ :=
  addPlain Col.jobs noClash
    ⟨.revoke, .pending, cert.appId, none, ca, none, none, none, some cert.serialHex, some reason, none, none, none,
      some certId, some requestedBy, none, none, none⟩

/-- `enqueue_inventory` -/
def enqueueInventory (ca requestedBy : String) : M ℕ :=
  addPlain Col.jobs noClash
    ⟨.inventory, .pending, none, none, some ca, none, none, none, none, none, none, none, none, none, some requestedBy,
      none, none, none⟩

def markClaimed (env : Env) (worker : String) (j : AdcsJob) : AdcsJob :=
  { j with status := .claimed, claimedBy := some worker, claimedAt := some env.now }

/-- the loop of `claim` -/
def claimAll (env : Env) (worker : String) : List (ℕ × AdcsJob) → M Unit
  | [] => pure ()
  | (id, _) :: rest => do
    setPlain Col.jobs id (markClaimed env worker)
    claimAll env worker rest

/-- `claim`: the oldest pending jobs -/
def claim (env : Env) (worker : String) (limit : ℕ) : M (List (ℕ × AdcsJob)) := do
  let d ← Tx.get
  let jobs := (d.jobs.all fun j => j.status = .pending).take limit
  claimAll env worker jobs
  pure (jobs.map fun p => (p.1, markClaimed env worker p.2))

/-- `fail` -/
def fail (env : Env) (jobId : ℕ) (error : String) : M Unit :=
  setPlain Col.jobs jobId fun j =>
    { j with
      status := .failed
      error := some (String.ofList (error.toList.take 2000))
      completedAt := some env.now }

/-! ## What a worker asks and posts -/

def gatewayClaim (env : Env) (actor : Actor) (limit : ℕ) : M (List (ℕ × AdcsJob)) := do
  lift (actor.require [.admin, .gateway])
  let jobs ← claim env actor.name limit
  record env actor.name "adcs.gateway.claim" "gateway" [("count", .num jobs.length)]
  pure jobs

def requestInventory (env : Env) (actor : Actor) (ca : String) : M ℕ := do
  lift (actor.require [.admin, .operator])
  let id ← enqueueInventory ca actor.name
  record env actor.name "adcs.job.inventory" s!"job:{id}" [("ca", .str ca)]
  pure id

/-- `AdcsJobCompleteIn` -/
structure Report where
  certificatePem : Option String
  chainPem : Option String
  error : Option String
  /-- what an inventory job found -/
  certificates : Option (List Json)

/-- `template_to_app`: the app a profile's template belongs to, the last one that names it -/
def templateToApp (env : Env) (d : Db) : List (String × ℕ) :=
  d.apps.rows.foldl (fun owners p =>
    match env.policies.profiles.lookup p.2.profile with
    | none => owners
    | some prof =>
      match prof.adcsTemplate.filter (· ≠ "") with
      | none => owners
      | some tmpl => if prof.issuer = some "adcs" then setItem owners tmpl p.1 else owners) []

/-- an item's certificate and template; an item that is not a dict is the certificate itself -/
def itemOf : Json → Json × Json
  | .obj kvs => ((kvs.lookup "certificate_pem").getD .null, (kvs.lookup "template").getD .null)
  | j => (j, .null)

/-- `pem.encode()` -/
def encoded : Json → Except Err String
  | .str s => .ok s
  | _ => .error (.attribute "object has no attribute 'encode'")

/-- `template_to_app.get(template)`: a list or a dict has no hash -/
def ownerOf (owners : List (String × ℕ)) : Json → Except Err (Option ℕ)
  | .str t => .ok (owners.lookup t)
  | .arr _ => .error (.type "unhashable type: 'list'")
  | .obj _ => .error (.type "unhashable type: 'dict'")
  | _ => .ok none

/-- the loop of `_ingest_inventory` -/
def ingestAll (env : Env) (actorName location : String) (owners : List (String × ℕ)) : List Json → M Unit
  | [] => pure ()
  | item :: rest =>
    if truthy (itemOf item).1 then do
      let pem ← lift (encoded (itemOf item).1)
      let cert ← lift (CAService.loadPem env pem)
      let appId ← lift (ownerOf owners (itemOf item).2)
      let _ ← ingest env actorName cert .imported (some location) appId
      ingestAll env actorName location owners rest
    else ingestAll env actorName location owners rest

def ingestInventory (env : Env) (actorName : String) (job : AdcsJob) (certificates : List Json) : M Unit := do
  let d ← Tx.get
  let ca := (job.adcsCa.filter (· ≠ "")).getD "ca"
  ingestAll env actorName s!"adcs:{ca}" (templateToApp env d) certificates

/-- the certificate of an issue job -/
def reported (env : Env) (r : Report) : Except Err (String × X509Cert) :=
  match r.certificatePem with
  | none => .error (.attribute "'NoneType' object has no attribute 'encode'")
  | some pem => do
    let cert ← CAService.loadPem env pem
    pure (pem, cert)

/-- an issue job brings its certificate, an inventory what it found; a revocation was marked when it was requested -/
def carryOut (env : Env) (actor : Actor) (jobId : ℕ) (job : AdcsJob) (r : Report) : M Unit :=
  match job.jobType with
  | .issue => do
    let (pem, cert) ← lift (reported env r)
    let ca := (job.adcsCa.filter (· ≠ "")).getD "ca"
    let id ← ingest env actor.name cert .issued (some s!"adcs:{ca}") job.appId
    setRow env Col.certificates id fun c => { c with backend := "adcs", profile := job.profile }
    setPlain Col.jobs jobId fun j =>
      { j with certificateId := some id, resultCertPem := some pem, resultChainPem := r.chainPem }
  | .revoke => pure ()
  | .inventory => ingestInventory env actor.name job (r.certificates.getD [])

/-- a job that can still be reported -/
def mayComplete (d : Db) (actor : Actor) (jobId : ℕ) : Except Err AdcsJob := do
  actor.require [.admin, .gateway]
  match d.jobs.get jobId with
  | none => throw (.notFound "job not found")
  | some job =>
    let status := job.status.text
    if job.status = .done || job.status = .failed then
      throw (.policy [("job_state", s!"job {jobId} is already {status}")])
    else pure job

def gatewayComplete (env : Env) (actor : Actor) (jobId : ℕ) (r : Report) : M Unit := do
  let d ← Tx.get
  let job ← lift (mayComplete d actor jobId)
  match r.error.filter (· ≠ "") with
  | some error =>
    fail env jobId error
    record env actor.name "adcs.job.failed" s!"job:{jobId}"
      [("type", .str job.jobType.text), ("error", .str (String.ofList (error.toList.take 200)))]
  | none =>
    carryOut env actor jobId job r
    setPlain Col.jobs jobId fun j => { j with status := .done, completedAt := some env.now }
    record env actor.name "adcs.job.done" s!"job:{jobId}" [("type", .str job.jobType.text)]

/-! ## Lemmas -/

theorem mayComplete_ok {d : Db} {actor : Actor} {jobId : ℕ} {job : AdcsJob} :
    mayComplete d actor jobId = .ok job ↔ actor.require [.admin, .gateway] = .ok () ∧ d.jobs.get jobId = some job ∧
      job.status ≠ .done ∧ job.status ≠ .failed := by
  unfold mayComplete
  constructor
  · intro h
    obtain ⟨u, hrole, h⟩ := except_bind_ok.1 h
    cases hget : d.jobs.get jobId with
    | none => simp [hget] at h
    | some j =>
      simp only [hget] at h
      split at h
      · cases h
      · next hopen =>
        obtain rfl := except_pure_ok.1 h
        simp only [Bool.or_eq_true, decide_eq_true_eq, not_or] at hopen
        exact ⟨hrole, rfl, hopen⟩
  · rintro ⟨hrole, hget, hdone, hfailed⟩
    refine except_bind_ok.2 ⟨(), hrole, ?_⟩
    simp [hget, hdone, hfailed]

/-- two assignments to a job are one -/
theorem setPlain_jobs_twice {α : Type} (id : ℕ) (f g : AdcsJob → AdcsJob) (k : Unit → M α) (s : Session Db) :
    (setPlain Col.jobs id f >>= fun _ => setPlain Col.jobs id g >>= k) s =
      (setPlain Col.jobs id (fun j => g (f j)) >>= k) s := by
  have hput : ∀ d : Db, Col.jobs.put (Col.jobs.put d ((Col.jobs.get d).update id f))
      ((Col.jobs.get (Col.jobs.put d ((Col.jobs.get d).update id f))).update id g) =
        Col.jobs.put d ((Col.jobs.get d).update id fun j => g (f j)) := fun d =>
    congrArg (fun t => { d with jobs := t }) (Table.update_update d.jobs id f g)
  unfold setPlain
  simp only [Tx.modify_bind, hput]

/-- a report of a certificate, and of nothing else, for an issue job -/
theorem gatewayComplete_issue {env : Env} {actor : Actor} {jobId : ℕ} {pem : String} {s : Session Db} {job : AdcsJob}
    (hget : s.work.jobs.get jobId = some job) (htype : job.jobType = .issue) :
    gatewayComplete env actor jobId ⟨some pem, none, none, none⟩ s = gatewayCompleteIssue env actor jobId pem s := by
  unfold gatewayComplete gatewayCompleteIssue
  rw [Tx.get_bind]
  cases hrole : actor.require [.admin, .gateway] with
  | error e =>
    have hmay : mayComplete s.work actor jobId = .error e := by
      unfold mayComplete
      rw [hrole]
      rfl
    rw [hmay]
    rfl
  | ok u =>
    rw [lift_ok_bind, Tx.get_bind, hget]
    dsimp only
    by_cases hopen : (decide (job.status = .done) || decide (job.status = .failed)) = true
    · have hmay : mayComplete s.work actor jobId = .error (.policy [("job_state", s!"job {jobId} is already {job.status.text}")]) := by
        unfold mayComplete
        rw [hrole, except_ok_bind, hget]
        dsimp only
        rw [if_pos hopen]
        rfl
      rw [hmay, if_pos hopen]
      rcases Bool.or_eq_true_iff.1 hopen with hdone | hfailed
      · rw [if_pos (by simpa using hdone), of_decide_eq_true hdone]
        rfl
      · rw [if_neg (by simp [of_decide_eq_true hfailed]), of_decide_eq_true hfailed]
        rfl
    · have hstatus : job.status ≠ .done ∧ job.status ≠ .failed := by simpa using hopen
      rw [mayComplete_ok.2 ⟨hrole, hget, hstatus⟩, lift_ok_bind, if_neg hopen]
      unfold carryOut reported
      simp only [htype]
      cases CAService.loadPem env pem with
      | error e => rfl
      | ok cert =>
        have hready : (do let cert ← Except.ok cert; pure (pem, cert) : Except Err (String × X509Cert)) = .ok (pem, cert) := rfl
        rw [hready, lift_ok_bind]
        simp only [Option.filter_none, Tx.bind_assoc]
        rw [lift_ok_bind, Tx.bind_run, Tx.bind_run]
        rcases ingest env actor.name cert .issued (some ("adcs:" ++ (job.adcsCa.filter (· ≠ "")).getD "ca")) job.appId s with
          ⟨e | id, s'⟩
        · rfl
        · dsimp only
          unfold setRow
          rw [Tx.modify_bind, Tx.modify_bind]
          exact setPlain_jobs_twice _ _ _ _ _

/-! ## Other certificates -/

/-- what may change of a certificate: when it was last seen, and a location it did not have; its seal holds as before -/
structure Untouched (env : Env) (c c' : Certificate) : Prop where
  columns : c' = { c with lastSeen := c'.lastSeen, location := c'.location, sealHex := c'.sealHex }
  location : c'.location = c.location ∨ (c.location.filter (· ≠ "")).isNone
  holds : verify env.st c' = verify env.st c

/-- the certificates recorded before are untouched -/
def LeavesOthers (env : Env) (d d' : Db) : Prop :=
  ∀ i c, d.certificates.get i = some c → ∃ c', d'.certificates.get i = some c' ∧ Untouched env c c'

/-- the database a report leaves -/
def completed (env : Env) (d : Db) (actor : Actor) (jobId : ℕ) (r : Report) : Db :=
  (Tx.transact (gatewayComplete env actor jobId r) d).2

/-- the report completes an issue job with the certificate of row `i`, which is not the gateway's or of another profile -/
structure Rewrites (env : Env) (d : Db) (actor : Actor) (jobId : ℕ) (r : Report) (job : AdcsJob) (i : ℕ) (c : Certificate) :
    Prop where
  mayComplete : mayComplete d actor jobId = .ok job
  noError : r.error.filter (· ≠ "") = none
  jobType : job.jobType = .issue
  reported : ∃ pem cert, reported env r = .ok (pem, cert) ∧
    oneOrNone d.certificates (fun c => c.fingerprintSha256 = cert.fingerprint) = .ok (some (i, c))
  other : ¬ (c.backend = "adcs" ∧ c.profile = job.profile)

section Others

variable {env : Env}

theorem Untouched.refl (c : Certificate) : Untouched env c c := ⟨rfl, Or.inl rfl, rfl⟩

theorem Untouched.trans {a b c : Certificate} (hab : Untouched env a b) (hbc : Untouched env b c) : Untouched env a c := by
  constructor
  · rw [hbc.columns, hab.columns]
  · rcases hbc.location with hsame | hempty
    · rw [hsame]
      exact hab.location
    · rcases hab.location with hsame | hempty'
      · rw [← hsame]
        exact Or.inr hempty
      · exact Or.inr hempty'
  · exact hbc.holds.trans hab.holds

theorem Untouched.backend {c c' : Certificate} (h : Untouched env c c') : c'.backend = c.backend := by
  rw [h.columns]

theorem Untouched.profile {c c' : Certificate} (h : Untouched env c c') : c'.profile = c.profile := by
  rw [h.columns]

/-- an UPDATE of unsealed columns keeps the seal as it is, broken or not -/
theorem verify_flushed_unsealed {c c' : Certificate} (hv : Sealed.getattr c' = Sealed.getattr c)
    (hs : c'.sealHex = c.sealHex) : verify env.st (flushed env.st c c') = verify env.st c := by
  have hsame : verify env.st c' = verify env.st c := by
    simp only [verify, Sealed.row, hv]
    rw [show Sealed.sealHex c' = Sealed.sealHex c from hs]
  cases hk : env.st.key with
  | none => simp [verify, verifyRow, hk]
  | some κ =>
    cases hc : verify env.st c with
    | true => exact verify_flushed hk hc
    | false =>
      have hbroken : matchesSeal env.st (Sealed.kind Certificate) (Sealed.getattr c) (Sealed.sealHex c) = false := by
        simpa [verify, verifyRow, hk, Sealed.row] using hc
      have hkept : flushed env.st c c' = c' := by
        unfold flushed
        simp [hbroken]
      rw [hkept, hsame, hc]

theorem flushed_self (st : SealState) (c : Certificate) : flushed st c c = c := by
  unfold flushed
  simp

/-- the columns an issue job assigns are the row's own -/
theorem untouched_own {c : Certificate} {profile : Option String} (hbackend : c.backend = "adcs")
    (hprofile : c.profile = profile) : Untouched env c (flushed env.st c { c with backend := "adcs", profile := profile }) := by
  have hsame : { c with backend := "adcs", profile := profile } = c := by
    rw [← hbackend, ← hprofile]
  rw [hsame, flushed_self]
  exact .refl c

/-- what `ingest` assigns to a row it finds -/
def seenAgain (env : Env) (location : Option String) (c : Certificate) : Certificate :=
  { c with
    lastSeen := some env.now
    location := if (c.location.filter (· ≠ "")).isNone && (location.filter (· ≠ "")).isSome then location else c.location }

theorem seenAgain_untouched (location : Option String) (c : Certificate) :
    Untouched env c (flushed env.st c (seenAgain env location c)) := by
  obtain ⟨x, hx⟩ := flushed_certificate env.st c (seenAgain env location c)
  constructor
  · rw [hx]
    rfl
  · rw [hx]
    unfold seenAgain
    dsimp only
    split
    · next h => exact Or.inr (Bool.and_eq_true_iff.1 h).1
    · exact Or.inl rfl
  · exact verify_flushed_unsealed rfl rfl

/-- only a scan retires other rows -/
theorem retireReplaced_issued {source : CertSource} (hsource : source ≠ .discovered) (actorName : String) (id : ℕ)
    (row : Certificate) (location : Option String) (s : Session Db) :
    retireReplaced env actorName id row source location s = (.ok (), s) := by
  unfold retireReplaced
  cases location.filter (· ≠ "") with
  | none => rfl
  | some loc =>
    dsimp only
    rw [if_pos hsource]
    rfl

/-- a certificate that is in the inventory already -/
theorem ingest_existing {actorName : String} {cert : X509Cert} {source : CertSource} (hsource : source ≠ .discovered)
    {location : Option String} {appId : Option ℕ} {s : Session Db} {i : ℕ} {c : Certificate}
    (hfound : oneOrNone s.work.certificates (fun c => c.fingerprintSha256 = cert.fingerprint) = .ok (some (i, c))) :
    ingest env actorName cert source location appId s =
      (.ok i, { s with work := { s.work with
        certificates := s.work.certificates.update i fun c => flushed env.st c (seenAgain env location c) } }) := by
  unfold ingest
  rw [Tx.get_bind]
  dsimp only
  rw [hfound, lift_ok_bind]
  exact Tx.bind_ok (retireReplaced_issued hsource _ _ _ _ _)

/-! ### Writes that leave the rows below a key untouched -/

def KeepsBelow (env : Env) (n : ℕ) (a b : Db) : Prop :=
  ∀ i < n, ∀ c, a.certificates.get i = some c → ∃ c', b.certificates.get i = some c' ∧ Untouched env c c'

variable {n : ℕ} {s : Session Db}

/-- writes to the inventory: the rows below `n` stay untouched, and the queue as it is -/
def Inventories (env : Env) (n : ℕ) (a b : Db) : Prop := KeepsBelow env n a b ∧ b.jobs = a.jobs

theorem keepsBelow_same {a b : Db} (h : b.certificates = a.certificates) : KeepsBelow env n a b := fun i _ c hget =>
  ⟨c, by rw [h]; exact hget, .refl c⟩

theorem inventories_record (actor action target : String) (details : List (String × Json)) :
    Tx.Calm (Inventories env n) (record env actor action target details) :=
  Tx.calm_modify fun _ => ⟨keepsBelow_same rfl, rfl⟩

theorem keeps_setJob (id : ℕ) (f : AdcsJob → AdcsJob) : Tx.Calm (KeepsBelow env n) (setPlain Col.jobs id f) :=
  Tx.calm_modify fun _ => keepsBelow_same rfl

/-- an UPDATE of row `i` that leaves it untouched, if its key is below `n` -/
theorem inventories_setCertificate {i : ℕ} {f : Certificate → Certificate}
    (h : i < n → ∀ c, s.work.certificates.get i = some c → Untouched env c (flushed env.st c (f c))) :
    Tx.CalmAt (Inventories env n) s (setRow env Col.certificates i f) := by
  refine Tx.calmAt_modify ⟨fun j hj c hget => ?_, rfl⟩
  by_cases hji : j = i
  · subst hji
    refine ⟨flushed env.st c (f c), ?_, h hj c hget⟩
    exact (Table.get_update_self _ _ _).trans (by rw [show Col.certificates.get s.work = s.work.certificates from rfl, hget]; rfl)
  · exact ⟨c, (Table.get_update_of_ne _ _ hji).trans hget, .refl c⟩

theorem inventories_addCertificate (row : Certificate) : Tx.Calm (Inventories env n) (addCertificate env row) := by
  unfold addCertificate addRow
  refine Tx.calm_get_bind fun d => ?_
  split
  · exact Tx.calm_throw _
  · refine Tx.calm_bind (Tx.calm_modify fun d => ⟨fun i _ c hget => ?_, rfl⟩) fun _ => Tx.calm_pure _
    exact ⟨c, Table.get_insert_of_some hget, .refl c⟩

theorem inventories_ingest {source : CertSource} (hsource : source ≠ .discovered) (actorName : String) (cert : X509Cert)
    (location : Option String) (appId : Option ℕ) :
    Tx.Calm (Inventories env n) (ingest env actorName cert source location appId) := by
  have hretire : ∀ id row, Tx.Calm (Inventories env n) (retireReplaced env actorName id row source location) := by
    intro id row s
    unfold Tx.CalmAt
    rw [retireReplaced_issued hsource]
    exact ⟨rfl, .refl⟩
  unfold ingest
  refine Tx.calm_get_bind fun d => Tx.calm_ofExcept_bind fun found _ => ?_
  cases found with
  | some p =>
    refine Tx.calm_bind (fun s => ?_) fun _ => Tx.calm_bind (hretire _ _) fun _ => Tx.calm_pure _
    exact inventories_setCertificate fun _ c _ => seenAgain_untouched location c
  | none =>
    refine Tx.calm_bind (inventories_addCertificate _) fun id => Tx.calm_bind (hretire _ _) fun _ => ?_
    exact Tx.calm_bind (inventories_record _ _ _ _) fun _ => Tx.calm_pure _

theorem inventories_ingestAll (actorName location : String) (owners : List (String × ℕ)) (items : List Json) :
    Tx.Calm (Inventories env n) (ingestAll env actorName location owners items) := by
  induction items with
  | nil => exact Tx.calm_pure _
  | cons item rest ih =>
    unfold ingestAll
    refine Tx.calm_ite (fun _ => ?_) fun _ => ih
    refine Tx.calm_ofExcept_bind fun pem _ => Tx.calm_ofExcept_bind fun cert _ => Tx.calm_ofExcept_bind fun appId _ => ?_
    exact Tx.calm_bind (inventories_ingest (by decide) _ _ _ _) fun _ => ih

/-- the row `ingest` returns was there under the fingerprint, or is a new one -/
theorem ingest_row {actorName : String} {cert : X509Cert} {source : CertSource} (hsource : source ≠ .discovered)
    {location : Option String} {appId : Option ℕ} {s s' : Session Db} {id : ℕ}
    (h : ingest env actorName cert source location appId s = (.ok id, s')) :
    id = s.work.certificates.next ∨
      ∃ c, oneOrNone s.work.certificates (fun c => c.fingerprintSha256 = cert.fingerprint) = .ok (some (id, c)) ∧
        s'.work.certificates = s.work.certificates.update id fun c => flushed env.st c (seenAgain env location c) := by
  obtain ⟨found, hfound⟩ : ∃ found, oneOrNone s.work.certificates (fun c => c.fingerprintSha256 = cert.fingerprint) =
      .ok found := by
    unfold ingest at h
    rw [Tx.get_bind] at h
    obtain ⟨found, s₁, hfound, -⟩ := Tx.bind_returns.1 h
    exact ⟨found, (Prod.mk.inj hfound).1⟩
  cases found with
  | none =>
    left
    unfold ingest at h
    rw [Tx.get_bind] at h
    dsimp only at h
    rw [hfound, lift_ok_bind] at h
    obtain ⟨i, s₂, hadd, h⟩ := Tx.bind_returns.1 h
    obtain ⟨rfl, -⟩ := addRow_ok hadd
    obtain ⟨_, s₃, -, h⟩ := Tx.bind_returns.1 h
    obtain ⟨_, s₄, -, h⟩ := Tx.bind_returns.1 h
    exact (Except.ok.inj (Prod.mk.inj h).1).symm
  | some p =>
    right
    obtain ⟨i, c⟩ := p
    rw [ingest_existing hsource hfound] at h
    cases h
    exact ⟨c, hfound, rfl⟩

/-- an issue job that rewrites no row, or any other job, leaves the rows there were untouched -/
theorem keeps_carryOut {d : Db} {actor : Actor} {jobId : ℕ} {job : AdcsJob} {r : Report}
    (hown : job.jobType = .issue → ∀ pem cert i c, reported env r = .ok (pem, cert) →
      oneOrNone d.certificates (fun c => c.fingerprintSha256 = cert.fingerprint) = .ok (some (i, c)) →
      c.backend = "adcs" ∧ c.profile = job.profile) :
    Tx.CalmAt (KeepsBelow env d.certificates.next) ⟨d, d⟩ (carryOut env actor jobId job r) := by
  unfold carryOut
  split
  · next htype =>
    refine Tx.calmAt_ofExcept_bind fun p hp => ?_
    have hingest : ∀ location, Tx.CalmAt (Inventories env d.certificates.next) ⟨d, d⟩
        (ingest env actor.name p.2 .issued location job.appId) := fun location =>
      inventories_ingest (by decide) _ _ _ _ _
    refine Tx.calmAt_bind ((hingest _).mono fun _ _ => And.left) fun id s' hrun => ?_
    refine Tx.calmAt_bind (Tx.CalmAt.mono (fun _ _ => And.left) (inventories_setCertificate fun hid c hget => ?_))
      fun _ s'' _ => keeps_setJob _ _ s''
    rcases ingest_row (by decide) hrun with hnew | ⟨c₀, hfound, hcerts⟩
    · exact absurd hid (by rw [hnew]; exact lt_irrefl _)
    · -- the gateway's own certificate, recorded before under the same profile
      obtain ⟨hbackend, hprofile⟩ := hown htype p.1 p.2 id c₀ hp hfound
      rw [hcerts, Table.get_update_self, (oneOrNone_some hfound).1] at hget
      obtain rfl := Option.some.inj hget
      have hseen : ∀ location, Untouched env c₀ (flushed env.st c₀ (seenAgain env location c₀)) := fun location =>
        seenAgain_untouched location c₀
      exact untouched_own ((hseen _).backend.trans hbackend) ((hseen _).profile.trans hprofile)
  · exact Tx.calm_pure _ _
  · exact Tx.calmAt_get_bind ((inventories_ingestAll _ _ _ _ _).mono fun _ _ => And.left)

theorem keeps_gatewayComplete {d : Db} {actor : Actor} {jobId : ℕ} {r : Report}
    (hno : ∀ job i c, ¬ Rewrites env d actor jobId r job i c) :
    Tx.CalmAt (KeepsBelow env d.certificates.next) ⟨d, d⟩ (gatewayComplete env actor jobId r) := by
  have hend : ∀ f action details, Tx.Calm (KeepsBelow env d.certificates.next) (do
      setPlain Col.jobs jobId f
      record env actor.name action s!"job:{jobId}" details) := fun f action details =>
    Tx.calm_bind (keeps_setJob _ _) fun _ => fun s => (inventories_record _ _ _ _ s).mono fun _ _ => And.left
  unfold gatewayComplete
  refine Tx.calmAt_get_bind (Tx.calmAt_ofExcept_bind fun job hjob => ?_)
  split
  · exact hend _ _ _ _
  next hnoError =>
  refine Tx.calmAt_bind (keeps_carryOut fun htype pem cert i c hreported hfound => ?_) fun _ s' _ => hend _ _ _ s'
  by_contra hother
  exact hno job i c ⟨hjob, hnoError, htype, ⟨pem, cert, hreported, hfound⟩, hother⟩

/-- the certificate of an issue job that is recorded already, after the report -/
theorem rewritten_row {d : Db} {actor : Actor} {jobId : ℕ} {r : Report} {job : AdcsJob} {i : ℕ} {c : Certificate}
    (h : Rewrites env d actor jobId r job i c) :
    ∃ c', (completed env d actor jobId r).certificates.get i = some c' ∧ c'.backend = "adcs" ∧ c'.profile = job.profile := by
  obtain ⟨pem, cert, hreported, hfound⟩ := h.reported
  let ca := (job.adcsCa.filter (· ≠ "")).getD "ca"
  let f := fun c => flushed env.st c (seenAgain env (some s!"adcs:{ca}") c)
  let g := fun c : Certificate => flushed env.st c { c with backend := "adcs", profile := job.profile }
  obtain ⟨s', hrun, hcerts⟩ : ∃ s', gatewayComplete env actor jobId r ⟨d, d⟩ = (.ok (), s') ∧
      s'.work.certificates = (d.certificates.update i f).update i g := by
    have hingest : ingest env actor.name cert .issued (some s!"adcs:{ca}") job.appId ⟨d, d⟩ =
      (.ok i, ⟨d, { d with certificates := d.certificates.update i f }⟩) := ingest_existing (by decide) hfound
    unfold gatewayComplete
    rw [Tx.get_bind, h.mayComplete, lift_ok_bind, h.noError]
    unfold carryOut
    simp only [h.jobType]
    rw [hreported, Tx.bind_assoc, lift_ok_bind, Tx.bind_assoc, Tx.bind_ok hingest]
    exact ⟨_, rfl, rfl⟩
  refine ⟨g (f c), ?_, ?_, ?_⟩
  · rw [completed, Tx.transact_snd_of_run hrun, hcerts, Table.get_update_self, Table.get_update_self,
      (oneOrNone_some hfound).1]
    rfl
  · obtain ⟨x, hx⟩ := flushed_certificate env.st (f c) { f c with backend := "adcs", profile := job.profile }
    exact congrArg Certificate.backend hx
  · obtain ⟨x, hx⟩ := flushed_certificate env.st (f c) { f c with backend := "adcs", profile := job.profile }
    exact congrArg Certificate.profile hx

/-- **Completing a job leaves the other certificates as they are**, unless it is an issue job reported with a certificate that
is recorded already under another backend or profile. -/
theorem complete_leaves_others_iff (env : Env) (d : Db) (actor : Actor) (jobId : ℕ) (r : Report) :
    LeavesOthers env d (completed env d actor jobId r) ↔ ∀ job i c, ¬ Rewrites env d actor jobId r job i c := by
  constructor
  · intro hleaves job i c h
    obtain ⟨pem, cert, -, hfound⟩ := h.reported
    obtain ⟨c', hget', huntouched⟩ := hleaves i c (oneOrNone_some hfound).1
    obtain ⟨c'', hget'', hbackend, hprofile⟩ := rewritten_row h
    obtain rfl := Option.some.inj (hget'.symm.trans hget'')
    exact h.other ⟨huntouched.backend.symm.trans hbackend, huntouched.profile.symm.trans hprofile⟩
  · intro hno i c hget
    have hreach := Tx.transact_doesAt (keeps_gatewayComplete hno).does
    refine Tx.reaches_inv (I := fun b => ∃ c', b.certificates.get i = some c' ∧ Untouched env c c') ?_ hreach ⟨c, hget, .refl c⟩
    rintro a b hab ⟨c', hget', hc'⟩
    obtain ⟨c'', hget'', hc''⟩ := hab i (Table.get_lt hget) c' hget'
    exact ⟨c'', hget'', hc'.trans hc''⟩

end Others

/-! ### A certificate of the local CA -/

section Examples

/-- an app's certificate from the local CA, and an issue job of another app -/
def queueDb : Db :=
  { Db.empty with
    certificates := Table.empty.insert (inserted demoState
      { certRow demoEnv demoCaCert .issued (some 1) with profile := some "web" })
    jobs := Table.empty.insert
      ⟨.issue, .claimed, some 2, some "windows", some "ca-1", none, some "csr", some "hash", none, none, none, none, none,
        none, some "joe", some "gw-1", some 10, none⟩ }

def gw1 : Actor := ⟨"gw-1", .gateway, none⟩

/-- the worker posts the local CA's certificate -/
def postsLocal : Report := ⟨some "ca-pem", none, none, none⟩

/-- The local CA's certificate is from then on an AD CS certificate of the job's profile. -/
theorem local_certificate_rewritten :
    ¬ ∀ (env : Env) (d : Db) (actor : Actor) (jobId : ℕ) (r : Report), LeavesOthers env d (completed env d actor jobId r) := by
  intro h
  obtain ⟨c', hget, huntouched⟩ := h demoEnv queueDb gw1 1 postsLocal 1
    (inserted demoState { certRow demoEnv demoCaCert .issued (some 1) with profile := some "web" }) (by decide)
  have hbackend : ((completed demoEnv queueDb gw1 1 postsLocal).certificates.get 1).map (·.backend) = some "adcs" := by
    decide +kernel
  rw [hget] at hbackend
  have hlocal := huntouched.backend.symm.trans (Option.some.inj hbackend)
  revert hlocal
  decide

end Examples

end Gateway

end Certadillo
