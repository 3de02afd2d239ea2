/-
Dual control of one request: what asks for a second person, and what is signed without one.

- `DecidedFor.single`: a decision that is not under dual control is one for which neither the app's profile nor its folders
  ask for a second person, and that names no account the directory marks sensitive.
- `doesAt_requestCertificate`: a request only adds rows signed under such a decision (`SignedAlone`).
- `doesAt_decide_approved`: deciding an approval only adds rows for the app the approval is for.
- `stored_row`: a certificate row stored after writes of `CertWrite` was there before or was added by one of them.

A front end may write before it asks for a certificate, but not to the rows the decision is made from (`Steady`).
-/
import Certadillo.Services.Signed

namespace Certadillo

open Integrity Policy Py Relation

/-! ## Writes to the certificates -/

/-- a row keeps its identity, whatever its status -/
structure SameIdentity (c c' : Certificate) : Prop where
  source : c'.source = c.source
  caId : c'.caId = c.caId
  appId : c'.appId = c.appId
  sans : c'.sans = c.sans

theorem SameIdentity.refl (c : Certificate) : SameIdentity c c := ⟨rfl, rfl, rfl, rfl⟩

theorem SameIdentity.trans {a b c : Certificate} (h : SameIdentity a b) (h' : SameIdentity b c) : SameIdentity a c :=
  ⟨h'.source.trans h.source, h'.caId.trans h.caId, h'.appId.trans h.appId, h'.sans.trans h.sans⟩

theorem Retires.same {c c' : Certificate} (h : Retires c c') : SameIdentity c c' :=
  ⟨h.source, h.caId, h.appId, h.sans⟩

theorem same_inserted (st : SealState) (c : Certificate) : SameIdentity c (inserted st c) := by
  obtain ⟨s, h⟩ := inserted_certificate st c
  rw [h]
  exact ⟨rfl, rfl, rfl, rfl⟩

theorem same_flushed (st : SealState) (old new : Certificate) : SameIdentity new (flushed st old new) := by
  obtain ⟨s, h⟩ := flushed_certificate st old new
  rw [h]
  exact ⟨rfl, rfl, rfl, rfl⟩

/-- a write that adds no certificate but those of `adds` -/
inductive CertWrite (env : Env) (adds : Certificate → Prop) : Db → Db → Prop where
  | keep {d d' : Db} (h : d'.certificates = d.certificates) : CertWrite env adds d d'
  | add {d d' : Db} (c : Certificate) (hc : adds c)
      (h : d'.certificates = d.certificates.insert (inserted env.st c)) : CertWrite env adds d d'
  | set {d d' : Db} (id : ℕ) (f : Certificate → Certificate) (hf : ∀ c, Retires c (f c))
      (h : d'.certificates = d.certificates.update id fun c => flushed env.st c (f c)) : CertWrite env adds d d'

/-- everything but the certificates that may be added is granted -/
def Grant.adding (adds : Certificate → Prop) : Grant := { Grant.full with adds := adds }

theorem Write.cert {env : Env} {g : Grant} {d d' : Db} (h : Write env g d d') : CertWrite env g.adds d d' := by
  cases h with
  | frame d' certs _ _ _ _ => exact .keep certs
  | addCertificate c hg => exact .add c hg rfl
  | setCertificate id f hf _ => exact .set id f hf rfl
  | event => exact .keep rfl
  | revokeEvent => exact .keep rfl
  | addApproval => exact .keep rfl
  | setApproval => exact .keep rfl
  | openTxn => exact .keep rfl
  | setTxn => exact .keep rfl
  | useSecret => exact .keep rfl

section Rows

variable {env : Env} {adds : Certificate → Prop} {d : Db}

/-- every row was there before, or is a new one that was added -/
structure Accounted (adds : Certificate → Prop) (d d' : Db) : Prop where
  next : d.certificates.next ≤ d'.certificates.next
  rows : ∀ i row, d'.certificates.get i = some row →
    (∃ old, d.certificates.get i = some old ∧ SameIdentity old row) ∨
      d.certificates.get i = none ∧ ∃ c, adds c ∧ SameIdentity c row

theorem accounted_step {a b : Db} (h : CertWrite env adds a b) (ha : Accounted adds d a) : Accounted adds d b := by
  cases h with
  | keep heq =>
    constructor
    · rw [heq]
      exact ha.next
    · rw [heq]
      exact ha.rows
  | add c hc heq =>
    constructor
    · rw [heq, Table.next_insert]
      exact Nat.le_succ_of_le ha.next
    · intro i row hget
      rw [heq, Table.get_insert] at hget
      split at hget
      · next hi =>
        obtain rfl := Option.some.inj hget
        refine Or.inr ⟨?_, c, hc, same_inserted _ _⟩
        -- the row's number was not given before `a`
        by_contra hsome
        obtain ⟨old, hold⟩ := Option.ne_none_iff_exists'.1 hsome
        have hlt := Table.get_lt hold
        have hle := ha.next
        omega
      · exact ha.rows i row hget
  | set id f hf heq =>
    constructor
    · rw [heq, Table.next_update]
      exact ha.next
    · intro i row hget
      rw [heq] at hget
      by_cases hid : i = id
      · subst hid
        rw [Table.get_update_self, Option.map_eq_some_iff] at hget
        obtain ⟨c, hc, rfl⟩ := hget
        have hsame : SameIdentity c (flushed env.st c (f c)) := (hf c).same.trans (same_flushed _ _ _)
        refine (ha.rows i c hc).imp ?_ ?_
        · intro ⟨old, hold, hbefore⟩
          exact ⟨old, hold, hbefore.trans hsame⟩
        · intro ⟨hnone, c', hadds, hbefore⟩
          exact ⟨hnone, c', hadds, hbefore.trans hsame⟩
      · exact ha.rows i row ((Table.get_update_of_ne _ _ hid).symm.trans hget)

/-- **A stored row was there or was added**: what a run of writes leaves is accounted for. -/
theorem stored_row {d' : Db} (h : ReflTransGen (CertWrite env adds) d d') : Accounted adds d d' := by
  have hstart : Accounted adds d d := ⟨le_refl _, fun i row hget => Or.inl ⟨row, hget, .refl row⟩⟩
  exact Tx.reaches_inv (I := Accounted adds d) (fun _ _ hw ha => accounted_step hw ha) h hstart

end Rows

namespace Platform

/-! ## What asks for a second person -/

/-- the app's profile -/
def ProfileDual (env : Env) (app : App) : Prop :=
  (env.policies.profiles.lookup app.profile).map (·.dualControl) = some true

/-- the effective policy of the app's folder -/
def FolderDual (d : Db) (app : App) : Prop :=
  ∃ eff, Folders.effective d.folders app.folderId = .ok eff ∧
    (eff.lookup "dual_control").map (fun s => truthy s.value) = some true

/-- the directory marks the Windows account sensitive -/
def Sensitive (env : Env) (upn : String) : Prop :=
  ∃ resolveUpn account, env.directory = some resolveUpn ∧ resolveUpn upn = .ok account ∧ account.adminCount = true

/-- nobody asks for a second person: neither the profile, nor the folders, nor an account of the decision -/
structure SinglePerson (env : Env) (d : Db) (app : App) (decision : Decision) : Prop where
  profile : ¬ ProfileDual env app
  folder : ¬ FolderDual d app
  account : ∀ upn ∈ decision.upns, ¬ Sensitive env upn

section Decisions

variable {env : Env} {d : Db} {csr : Csr} {days hours : Option ℤ}

/-- a profile's decision is under dual control iff the profile is -/
theorem evaluate_dual {lower : Chars → Chars} {sha256 : String → String} {pol : Policies} {profileName : String}
    {scope : List String} {previousFp : Option String} {popVerified : Bool} {decision : Decision}
    (h : evaluate lower sha256 pol csr profileName scope days hours previousFp popVerified = .ok decision) :
    ∃ prof, pol.profiles.lookup profileName = some prof ∧ decision.dualControl = prof.dualControl ∧
      decision.upns.length ≤ 1 := by
  have heval := h
  unfold evaluate at h
  obtain ⟨prof, hprof, h⟩ := except_bind_ok.1 h
  have hlookup : pol.profiles.lookup profileName = some prof := by
    unfold profile at hprof
    split at hprof
    · next p hp => exact hp.trans (congrArg some (Except.ok.inj hprof))
    · cases hprof
  have hnames := evaluate_decided hlookup heval
  split at h
  · cases h
  extract_lets -underBinder v at h
  split at h
  · next hw =>
    rw [if_pos hw] at hnames
    obtain ⟨upn, hupns, -⟩ := hnames.upn
    unfold evaluateWindowsLogon at h
    obtain ⟨upns, -, h⟩ := except_bind_ok.1 h
    extract_lets -underBinder at h
    obtain ⟨n, -, h⟩ := except_bind_ok.1 h
    obtain ⟨most, -, h⟩ := except_bind_ok.1 h
    extract_lets -underBinder at h
    obtain ⟨-, h⟩ := of_check h
    obtain ⟨validity, -, h⟩ := except_bind_ok.1 h
    obtain rfl := except_pure_ok.1 h
    exact ⟨prof, hlookup, rfl, by rw [hupns]; rfl⟩
  · obtain ⟨⟨vval, validity⟩, -, h⟩ := except_bind_ok.1 h
    obtain ⟨-, rfl⟩ := pure_of_check h
    exact ⟨prof, hlookup, rfl, Nat.zero_le _⟩

/-- the folders may ask for dual control, and never drop it -/
theorem apply_dual {lower : Chars → Chars} {eff : Folders.Eff} {decision decision' : Decision}
    (h : Folders.apply lower eff decision csr days hours = .ok decision') (hdual : decision'.dualControl = false) :
    decision.dualControl = false ∧ (eff.lookup "dual_control").map (fun s => truthy s.value) ≠ some true := by
  unfold Folders.apply at h
  split at h
  · next hnil =>
    obtain rfl := except_pure_ok.1 h
    rw [List.isEmpty_iff.1 hnil]
    exact ⟨hdual, by simp⟩
  · extract_lets -underBinder zoned at h
    obtain ⟨v, h⟩ : ∃ v, zoned v = .ok decision' := by
      split at h
      all_goals
        obtain ⟨v, -, h⟩ := except_bind_ok.1 h
        exact ⟨v, h⟩
    dsimp -zeta only [zoned] at h
    extract_lets -underBinder keyed at h
    obtain ⟨k, h⟩ : ∃ k, keyed k = .ok decision' := by
      split at h
      · obtain ⟨k, -, h⟩ := except_bind_ok.1 h
        exact ⟨k, h⟩
      · cases h
    obtain ⟨⟨c, validity⟩, -, h⟩ := except_bind_ok.1 h
    dsimp -zeta only at h
    split at h
    · cases h
    extract_lets -underBinder chosen at h
    obtain ⟨ca, h⟩ : ∃ ca, chosen ca = .ok decision' := by
      split at h
      all_goals
        obtain ⟨ca, -, h⟩ := except_bind_ok.1 h
        exact ⟨ca, h⟩
    dsimp -zeta only [chosen] at h
    extract_lets -underBinder named at h
    obtain ⟨issuer, h⟩ : ∃ issuer, named issuer = .ok decision' := by
      split at h
      all_goals
        obtain ⟨issuer, -, h⟩ := except_bind_ok.1 h
        exact ⟨issuer, h⟩
    obtain rfl := except_pure_ok.1 h
    simp only [Bool.or_eq_false_iff] at hdual
    refine ⟨hdual.1, fun htrue => ?_⟩
    rw [htrue] at hdual
    cases hdual.2

/-- the directory may ask for dual control -/
theorem logonDecision_dual {decision decision' : Decision} (h : logonDecision env decision = some decision')
    (hdual : decision'.dualControl = false) :
    decision.dualControl = false ∧ ∀ upn, decision.upns.head? = some upn → ¬ Sensitive env upn := by
  unfold logonDecision at h
  split at h
  · next hnil =>
    obtain rfl := Option.some.inj h
    rw [List.isEmpty_iff.1 hnil]
    exact ⟨hdual, by simp⟩
  split at h
  · next account hacc =>
    have hadmin : account.adminCount = false := by
      cases hc : account.adminCount with
      | false => rfl
      | true =>
        rw [hc, if_pos rfl] at h
        obtain rfl := Option.some.inj h
        cases hdual
    rw [hadmin, if_neg Bool.false_ne_true] at h
    obtain rfl := Option.some.inj h
    refine ⟨hdual, fun upn hupn => ?_⟩
    rintro ⟨resolveUpn, account', hdir, hresolve, hsensitive⟩
    unfold logonAnswer at hacc
    rw [hdir] at hacc
    simp only [hupn, Option.getD_some, hresolve] at hacc
    split at hacc
    · cases hacc
    · obtain rfl := LogonAnswer.account.inj hacc
      rw [hadmin] at hsensitive
      cases hsensitive
  · cases h

variable {actor : Actor} {appId : ℕ} {r : CertRequest} {app : App} {decision : Decision}

/-- **A decision that is not under dual control** is one nobody asks a second person for. -/
theorem DecidedFor.single (h : DecidedFor env d actor appId r app csr decision) (hdual : decision.dualControl = false) :
    SinglePerson env d app decision := by
  obtain ⟨prevFp, second, -, heval, hlogon⟩ := h.evaluated
  obtain ⟨first, hfirst, heval⟩ := except_bind_ok.1 heval
  obtain ⟨eff, heff, happly⟩ := except_bind_ok.1 heval
  obtain ⟨hsecond, haccount⟩ := logonDecision_dual hlogon hdual
  obtain ⟨hfirstDual, hfolder⟩ := apply_dual happly hsecond
  obtain ⟨prof, hlookup, hprofile, hone⟩ := evaluate_dual hfirst
  obtain ⟨hnames, -⟩ := apply_names (evaluate_fresh hfirst).2 happly
  obtain ⟨hlogonNames, -⟩ := logonDecision_names hlogon
  constructor
  · intro hp
    rw [ProfileDual, hlookup, Option.map_some, ← hprofile, hfirstDual] at hp
    cases hp
  · rintro ⟨eff', heff', hset⟩
    obtain rfl : eff = eff' := Except.ok.inj (heff.symm.trans heff')
    exact hfolder hset
  · intro upn hmem
    rw [hlogonNames.upns] at hmem
    refine haccount upn ?_
    rw [hnames.upns] at hmem ⊢
    obtain ⟨u, rest, hu⟩ := List.exists_cons_of_ne_nil (List.ne_nil_of_mem hmem)
    rw [hu] at hmem hone ⊢
    obtain rfl : rest = [] := List.length_eq_zero_iff.1 (by simpa using hone)
    rw [List.mem_singleton.1 hmem]
    rfl

end Decisions

/-! ## What a request signs -/

/-- the row of a certificate signed for an app on the rows of `d`, under a decision nobody asked a second person for -/
def SignedAlone (env : Env) (d : Db) (c : Certificate) : Prop :=
  ∃ actor appId r app csr decision, DecidedFor env d actor appId r app csr decision ∧
    SinglePerson env d app decision ∧ c.appId = some appId ∧
    (c.caId ≠ none → c.sans = decision.dnsNames ++ decision.uris ++ decision.emails ++ decision.upns)

theorem SignedAlone.same {env : Env} {d : Db} {c c' : Certificate} (h : SignedAlone env d c) (hs : SameIdentity c c') :
    SignedAlone env d c' := by
  obtain ⟨actor, appId, r, app, csr, decision, hdecided, hsingle, howner, hnames⟩ := h
  refine ⟨actor, appId, r, app, csr, decision, hdecided, hsingle, hs.appId.trans howner, fun hca => ?_⟩
  rw [hs.caId] at hca
  exact hs.sans.trans (hnames hca)

/-- what a certificate needs two people for -/
inductive NeedsTwo (env : Env) (d : Db) (c : Certificate) : Prop where
  | profile {appId : ℕ} {app : App} (owner : c.appId = some appId) (stored : d.apps.get appId = some app)
      (asks : ProfileDual env app)
  | folder {appId : ℕ} {app : App} (owner : c.appId = some appId) (stored : d.apps.get appId = some app)
      (asks : FolderDual d app)
  /-- a logon certificate the platform's own CA signs for a sensitive account -/
  | account {appId : ℕ} {app : App} {prof : Profile} {upn : String} (owner : c.appId = some appId)
      (stored : d.apps.get appId = some app) (lookup : env.policies.profiles.lookup app.profile = some prof)
      (logon : prof.windowsLogon = true) (own : c.caId ≠ none) (names : upn ∈ c.sans) (asks : Sensitive env upn)

theorem mayRequest_ok {env : Env} {d : Db} {actor : Actor} {appId : ℕ} {app : App}
    (h : mayRequest env d actor appId = .ok app) : d.apps.get appId = some app := by
  unfold mayRequest at h
  split at h
  · cases h
  next a ha =>
  split_ifs at h
  obtain rfl := Except.ok.inj h
  exact ha

/-- **What is signed alone needs nobody else**: whichever rule would ask for a second person did not. -/
theorem SignedAlone.enough {env : Env} {d : Db} {c : Certificate} (h : SignedAlone env d c) : ¬ NeedsTwo env d c := by
  obtain ⟨actor, appId, r, app, csr, decision, hdecided, hsingle, howner, hnames⟩ := h
  have hstored := mayRequest_ok hdecided.allowed
  have hsame : ∀ {appId' : ℕ} {app' : App}, c.appId = some appId' → d.apps.get appId' = some app' → app' = app := by
    intro appId' app' howner' hstored'
    obtain rfl : appId = appId' := Option.some.inj (howner.symm.trans howner')
    exact Option.some.inj (hstored'.symm.trans hstored)
  intro hneeds
  cases hneeds with
  | profile howner' hstored' hasks => exact hsingle.profile (hsame howner' hstored' ▸ hasks)
  | folder howner' hstored' hasks => exact hsingle.folder (hsame howner' hstored' ▸ hasks)
  | @account _ _ prof upn howner' hstored' hlookup hlogon hown hmem hasks =>
    obtain rfl := hsame howner' hstored'
    refine hsingle.account upn ?_ hasks
    obtain ⟨prevFp, first, hfirst, hsameNames⟩ := hdecided.names
    have hfirst := evaluate_decided hlookup hfirst
    rw [if_pos hlogon] at hfirst
    obtain ⟨hdns, huris, hemails⟩ := hfirst.empty
    rw [hnames hown, hsameNames.dnsNames, hsameNames.uris, hsameNames.emails, hdns, huris, hemails] at hmem
    simpa using hmem

/-- the rows a decision is made from stay as they are -/
structure Steady (d d' : Db) : Prop where
  apps : d'.apps = d.apps
  folders : d'.folders = d.folders
  certificates : d'.certificates = d.certificates

theorem Steady.refl (d : Db) : Steady d d := ⟨rfl, rfl, rfl⟩

theorem Steady.trans {a b c : Db} (h : Steady a b) (h' : Steady b c) : Steady a c :=
  ⟨h'.apps.trans h.apps, h'.folders.trans h.folders, h'.certificates.trans h.certificates⟩

theorem Steady.decided {env : Env} {d d' : Db} (h : Steady d d') {actor : Actor} {appId : ℕ} {r : CertRequest} {app : App}
    {csr : Csr} {decision : Decision} (hd : DecidedFor env d' actor appId r app csr decision) :
    DecidedFor env d actor appId r app csr decision := by
  obtain ⟨hallowed, hrequested, prevFp, first, hfp, heval, hlogon⟩ := hd
  refine ⟨?_, hrequested, prevFp, first, ?_, ?_, hlogon⟩
  · unfold mayRequest at hallowed ⊢
    rwa [← h.apps]
  · unfold previousFp at hfp ⊢
    rwa [← h.certificates]
  · unfold evaluateRequest at heval ⊢
    rwa [← h.folders]

theorem Steady.single {env : Env} {d d' : Db} (h : Steady d d') {app : App} {decision : Decision}
    (hs : SinglePerson env d' app decision) : SinglePerson env d app decision := by
  obtain ⟨hprofile, hfolder, haccount⟩ := hs
  refine ⟨hprofile, ?_, haccount⟩
  unfold FolderDual at hfolder ⊢
  rwa [← h.folders]

open Tx (DoesAt)

section Requests

variable {env : Env} {adds : Certificate → Prop} {d : Db} {s : Session Db}

/-- **A request signs alone or not at all**: the rows it adds are signed under decisions nobody asked a second person for. -/
theorem doesAt_requestCertificate (hd : Steady d s.work) (hadds : ∀ c, SignedAlone env d c → adds c) (actor : Actor)
    (appId : ℕ) (r : CertRequest) : DoesAt (Write env (.adding adds)) s (requestCertificate env actor appId r) := by
  unfold requestCertificate
  refine Tx.doesAt_get_bind (Tx.doesAt_ofExcept_bind fun app happ => ?_)
  dsimp only
  split
  · exact (onward_rejectRequest _ _ _ _ _).does s
  next hprof =>
  replace hprof : (r.profile.filter (· ≠ "")).getD app.profile = app.profile := not_not.1 hprof
  rw [hprof]
  refine Tx.doesAt_ofExcept_bind fun csr hcsr => Tx.doesAt_ofExcept_bind fun prevFp hfp => ?_
  split
  · exact (onward_rejectRequest _ _ _ _ _).does s
  · exact (calm_raise _).does s
  · next first hfirst =>
    refine Tx.doesAt_bind ((onward_decideLogon _ _ _).does s) fun decision s' hrun => ?_
    obtain ⟨hlogon, rfl⟩ := decideLogon_ok.1 hrun
    have hdecided : DecidedFor env d actor appId r app csr decision :=
      hd.decided ⟨happ, hcsr, prevFp, first, hfp, hfirst, hlogon⟩
    refine (calm_fulfil (fun hdual c hc => hadds c ?_) (fun _ _ _ => trivial) _ _ _ _).does _
    exact ⟨actor, appId, r, app, csr, decision, hdecided, hdecided.single hdual, hc.owner, hc.names⟩

theorem doesAt_renew (hd : Steady d s.work) (hadds : ∀ c, SignedAlone env d c → adds c) (actor : Actor) (certId : ℕ)
    (csrPem protocol : String) : DoesAt (Write env (.adding adds)) s (renew env actor certId csrPem protocol) := by
  unfold renew
  refine Tx.doesAt_get_bind ?_
  split
  · exact (calm_raise _).does s
  dsimp only
  split
  · exact (calm_raise _).does s
  split
  · exact (calm_raise _).does s
  split
  · exact (calm_raise _).does s
  · exact doesAt_requestCertificate hd hadds _ _ _

end Requests

/-! ## What an approval signs -/

/-- the row is for the app of a pending, intact approval that `actor` approves, and someone else asked for it -/
structure SignedApproved (env : Env) (d : Db) (actor : Actor) (approvalId : ℕ) (c : Certificate) : Prop where
  approver : actor.role = .approver
  request : ∃ req appId, d.approvals.get approvalId = some req ∧ verify env.st req = true ∧ req.status = .pending ∧
    req.requestedBy ≠ actor.name ∧ Issues req appId ∧ c.appId = some appId

theorem SignedApproved.same {env : Env} {d : Db} {actor : Actor} {approvalId : ℕ} {c c' : Certificate}
    (h : SignedApproved env d actor approvalId c) (hs : SameIdentity c c') : SignedApproved env d actor approvalId c' := by
  obtain ⟨happrover, req, appId, hget, hintact, hpending, hother, hissues, howner⟩ := h
  exact ⟨happrover, req, appId, hget, hintact, hpending, hother, hissues, hs.appId.trans howner⟩

/-- **What an approval signs**: rows for its own app, and only if it is approved. -/
theorem doesAt_decide_approved {env : Env} {adds : Certificate → Prop} {s : Session Db} {actor : Actor} {approvalId : ℕ}
    {approve : Bool} (hadds : approve = true → ∀ c, SignedApproved env s.work actor approvalId c → adds c)
    (comment : Option String) : DoesAt (Write env (.adding adds)) s (decide env actor approvalId approve comment) := by
  refine doesAt_decide comment (fun req hreq happrove => ?_) trivial
  have hmay := decideChecks_ok hreq
  refine ⟨fun appId hissues decision c hc => hadds happrove c ?_, fun _ _ _ _ _ => trivial, fun _ _ _ _ _ => trivial⟩
  exact ⟨hmay.approver, req, appId, hmay.stored, hmay.intact, hmay.pending, hmay.other, hissues, hc.owner⟩

end Platform

end Certadillo
