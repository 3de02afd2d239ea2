/-
The names of an ACME certificate against the identifiers of its order.

`finalize` compares the CSR's DNS subjectAltNames and its common name with the order, in lower case. What else the CSR
carries, and what the issuer makes of it, is left to the profile and the issuer.

- `own_exact_iff`, `upstream_exact_iff`: when a certificate of a local CA, or of an upstream issuer, names exactly the
  order's identifiers.
- `finalized_exact_iff`: the same of every finalization that succeeds.
-/
import Certadillo.Enrollment.AcmeRaces
import Certadillo.Policy.SpiffeScope
import Certadillo.Services.Refines

namespace Certadillo.Acme

open Integrity Policy Py Platform

/-! ## Identities -/

/-- a subject identity of a certificate -/
inductive Identity where
  | dns (name : String)
  | uri (uri : String)
  | ip (address : String)
  | email (address : String)
  | upn (upn : Option String)
deriving DecidableEq

/-- the DNS names of a certificate, the common name among them, in lower case -/
def dnsNames (env : Env) (cert : X509Cert) : List String :=
  ((cert.tbs.san.getD .none).dns ++ cert.tbs.commonName.toList).map (lowered env)

/-- the identities of a certificate -/
def identities (env : Env) (cert : X509Cert) : List Identity :=
  let san := cert.tbs.san.getD .none
  (dnsNames env cert).map .dns ++ san.uris.map .uri ++ san.ips.map .ip ++ san.emails.map .email ++ san.upns.map .upn

/-- the certificate is about the identifiers of the order and nothing else -/
def NamesExactly (env : Env) (o : AcmeOrder) (cert : X509Cert) : Prop :=
  ∀ x, x ∈ identities env cert ↔ x ∈ o.identifiers.map .dns

/-- the common name of a CSR without URIs and e-mail addresses: its own, else its first DNS name -/
def shownName (csr : Csr) : Option String :=
  ((csr.commonNames.head?.filter (· ≠ "")).or (csr.san.getD .none).dns.head?).filter (· ≠ "")

/-- what a local CA makes of the CSR is about the order: nothing in it is another kind of name, and the common name, cut to
the length a certificate has room for, is still one of the order's -/
structure OwnOk (env : Env) (prof : Profile) (csr : Csr) (o : AcmeOrder) : Prop where
  logon : prof.windowsLogon = false
  uris : (csr.san.getD .none).uris = []
  emails : (csr.san.getD .none).emails = []
  cn : ∀ name ∈ shownName csr, lowered env (cut name) ∈ o.identifiers

/-- an upstream issuer's certificate holds no other kind of name, its common name is one of the order's, and it leaves
none of them out -/
structure UpstreamOk (env : Env) (leaf : X509Cert) (o : AcmeOrder) : Prop where
  uris : (leaf.tbs.san.getD .none).uris = []
  ips : (leaf.tbs.san.getD .none).ips = []
  emails : (leaf.tbs.san.getD .none).emails = []
  upns : (leaf.tbs.san.getD .none).upns = []
  cn : ∀ name ∈ leaf.tbs.commonName, lowered env name ∈ o.identifiers
  complete : ∀ n ∈ o.identifiers, n ∈ dnsNames env leaf

section Names

variable {env : Env} {csr : Csr} {o : AcmeOrder} {leaf : X509Cert}

theorem mem_csrNames {n : String} : n ∈ csrNames env csr ↔ ∃ name ∈ (csr.san.getD .none).dns, lowered env name = n := by
  unfold csrNames
  rw [mem_sorted, List.mem_dedup, List.mem_map]

/-- what the comparison establishes -/
theorem checkCsr_ok (h : checkCsr env csr o = .ok ()) :
    csrNames env csr = o.identifiers ∧ ∀ cn ∈ csr.commonNames.head?, lowered env cn ∈ o.identifiers := by
  unfold checkCsr at h
  extract_lets -underBinder names identifiers at h
  split at h
  · next cn rest hcn =>
    split at h
    · cases h
    next hmem =>
    split at h
    · cases h
    next hnames =>
    refine ⟨not_not.1 hnames, fun x hx => ?_⟩
    rw [hcn] at hx
    obtain rfl := Option.some.inj hx
    simpa using hmem
  · next hcn =>
    split at h
    · cases h
    next hnames =>
    refine ⟨not_not.1 hnames, fun x hx => ?_⟩
    rw [hcn] at hx
    cases hx

/-- a certificate names exactly the order's identifiers iff it holds no other kind of name and its DNS names are those -/
theorem namesExactly_iff :
    NamesExactly env o leaf ↔
      ((leaf.tbs.san.getD .none).uris = [] ∧ (leaf.tbs.san.getD .none).ips = [] ∧ (leaf.tbs.san.getD .none).emails = [] ∧
        (leaf.tbs.san.getD .none).upns = []) ∧ ∀ n, n ∈ dnsNames env leaf ↔ n ∈ o.identifiers := by
  constructor
  · intro h
    have hother : ∀ x ∈ identities env leaf, ∃ n, x = .dns n := by
      intro x hx
      obtain ⟨n, -, hn⟩ := List.mem_map.1 ((h x).1 hx)
      exact ⟨n, hn.symm⟩
    refine ⟨⟨?_, ?_, ?_, ?_⟩, fun n => ?_⟩
    · refine List.eq_nil_iff_forall_not_mem.2 fun u hu => ?_
      obtain ⟨n, hn⟩ := hother (.uri u) (by simp [identities, hu])
      cases hn
    · refine List.eq_nil_iff_forall_not_mem.2 fun a ha => ?_
      obtain ⟨n, hn⟩ := hother (.ip a) (by simp [identities, ha])
      cases hn
    · refine List.eq_nil_iff_forall_not_mem.2 fun e he => ?_
      obtain ⟨n, hn⟩ := hother (.email e) (by simp [identities, he])
      cases hn
    · refine List.eq_nil_iff_forall_not_mem.2 fun u hu => ?_
      obtain ⟨n, hn⟩ := hother (.upn u) (by simp [identities, hu])
      cases hn
    · simpa [identities] using h (.dns n)
  · rintro ⟨⟨huris, hips, hemails, hupns⟩, hdns⟩ x
    cases x with
    | dns n => simpa [identities] using hdns n
    | uri u => simp [identities, huris]
    | ip a => simp [identities, hips]
    | email e => simp [identities, hemails]
    | upn u => simp [identities, hupns]

/-! ## Certificates of a local CA -/

variable {prof : Profile} {decision first : Decision} {scope : List String}

/-- the names decided are, in lower case, those compared with the order -/
theorem decided_lowered (hnames : SameNames first decision)
    (hdecided : if prof.windowsLogon then DecidedLogon csr first else Decided env.lower env.policies prof csr scope first)
    (hcheck : checkCsr env csr o = .ok ()) {n : String} : n ∈ decision.dnsNames.map (lowered env) ↔ n ∈ o.identifiers := by
  obtain ⟨hsame, hcn⟩ := checkCsr_ok hcheck
  rw [hnames.dnsNames, ← hsame, mem_csrNames, List.mem_map]
  cases hw : prof.windowsLogon with
  | true =>
    rw [hw, if_pos rfl] at hdecided
    rw [hdecided.empty.1, hdecided.none.1]
  | false =>
    rw [hw, if_neg Bool.false_ne_true] at hdecided
    rw [decided_names hw hdecided]
    constructor
    · rintro ⟨name, hname, rfl⟩
      rcases List.mem_append.1 hname with hfolded | hdns
      · -- a folded common name is one of the order's
        have hhead : csr.commonNames.head? = some name := by
          have hfold := Option.mem_toList.1 hfolded
          exact (Option.filter_eq_some_iff.1 hfold).1
        rw [← mem_csrNames, hsame]
        exact hcn name hhead
      · exact ⟨name, hdns, rfl⟩
    · rintro ⟨name, hname, rfl⟩
      exact ⟨name, List.mem_append_right _ hname, rfl⟩

/-- the common name a decision gives a certificate, where the CSR holds no URI and no e-mail address -/
theorem decided_shown (hw : prof.windowsLogon = false) (hdecided : Decided env.lower env.policies prof csr scope first)
    (huris : (csr.san.getD .none).uris = []) (hemails : (csr.san.getD .none).emails = []) :
    first.commonName.filter (· ≠ "") = shownName csr := by
  -- a SPIFFE profile would have asked for a URI
  have hspiffe : prof.requireSpiffeId = false := by
    by_contra hs
    obtain ⟨sid, huri, -⟩ := spiffe_checked (hdecided.spiffe (by simpa using hs))
    rw [huris] at huri
    cases huri
  have hnames := decided_names hw hdecided
  rw [hdecided.commonName, hdecided.emails, hemails]
  unfold subjectCn decidedCn shownName
  rw [hspiffe, if_neg Bool.false_ne_true]
  cases hcn : csr.commonNames.head? with
  | none =>
    have hfold : foldedName prof csr = none := by simp [foldedName, hcn]
    rw [hnames, hfold]
    simp
  | some cn =>
    by_cases hne : cn = ""
    · have hfold : foldedName prof csr = none := by simp [foldedName, hcn, hne]
      rw [hnames, hfold]
      simp [hne, Option.filter_some]
    · simp [hne, Option.filter_some]

/-- **A local CA's certificate names exactly the order's identifiers** iff the CSR asked for no other kind of name and the
common name, cut to 64 characters, is one of them. -/
theorem own_exact_iff {caCert : X509Cert} {pub : PublicKey} (hnames : SameNames first decision)
    (hdecided : if prof.windowsLogon then DecidedLogon csr first else Decided env.lower env.policies prof csr scope first)
    (hcheck : checkCsr env csr o = .ok ()) (hleaf : leaf.tbs = CAService.leafTbs env caCert pub decision) :
    NamesExactly env o leaf ↔ OwnOk env prof csr o := by
  obtain ⟨hsan, hcn⟩ := leafTbs_names hleaf
  have hdns := fun n => decided_lowered (n := n) hnames hdecided hcheck
  have hmem : ∀ n, n ∈ dnsNames env leaf ↔ n ∈ o.identifiers ∨ ∃ name ∈ leaf.tbs.commonName, lowered env name = n := by
    intro n
    unfold dnsNames
    rw [List.map_append, List.mem_append, hsan, hdns]
    simp
  rw [namesExactly_iff, hsan]
  dsimp only
  rw [hnames.uris, hnames.emails, hnames.upns]
  cases hw : prof.windowsLogon with
  | true =>
    -- a logon certificate holds a UPN
    rw [hw, if_pos rfl] at hdecided
    obtain ⟨upn, hupn, -⟩ := hdecided.upn
    refine iff_of_false ?_ ?_
    · rintro ⟨⟨-, -, -, hnil⟩, -⟩
      rw [hupn] at hnil
      cases hnil
    · rintro ⟨hlogon, -⟩
      rw [hw] at hlogon
      cases hlogon
  | false =>
    rw [hw, if_neg Bool.false_ne_true] at hdecided
    rw [hdecided.uris, hdecided.emails, hdecided.upns]
    have hshown : (csr.san.getD .none).uris = [] → (csr.san.getD .none).emails = [] →
        leaf.tbs.commonName = (shownName csr).map cut := by
      intro huris hemails
      rw [hcn, hnames.commonName, decided_shown hw hdecided huris hemails]
    constructor
    · rintro ⟨⟨huris, -, hemails, -⟩, hall⟩
      refine ⟨hw, huris, hemails, fun name hname => (hall _).1 ?_⟩
      refine (hmem _).2 (Or.inr ⟨cut name, ?_, rfl⟩)
      rw [hshown huris hemails]
      exact Option.mem_map_of_mem cut hname
    · rintro ⟨-, huris, hemails, hname⟩
      refine ⟨⟨huris, rfl, hemails, rfl⟩, fun n => ?_⟩
      rw [hmem, or_iff_left_iff_imp]
      rintro ⟨name, hcommon, rfl⟩
      rw [hshown huris hemails] at hcommon
      obtain ⟨shown, hshownName, rfl⟩ := Option.map_eq_some_iff.1 hcommon
      exact hname shown hshownName

/-! ## Certificates of an upstream issuer -/

/-- **An upstream issuer's certificate names exactly the order's identifiers** iff it is one `checkUpstream` would have to
compare with more than the decision's DNS names. -/
theorem upstream_exact_iff (hnames : SameNames first decision)
    (hdecided : if prof.windowsLogon then DecidedLogon csr first else Decided env.lower env.policies prof csr scope first)
    (hcheck : checkCsr env csr o = .ok ()) (hleaf : ∀ name ∈ (leaf.tbs.san.getD .none).dns, name ∈ decision.dnsNames) :
    NamesExactly env o leaf ↔ UpstreamOk env leaf o := by
  rw [namesExactly_iff]
  constructor
  · rintro ⟨⟨huris, hips, hemails, hupns⟩, hall⟩
    refine ⟨huris, hips, hemails, hupns, fun name hname => (hall _).1 ?_, fun n hn => (hall n).2 hn⟩
    unfold dnsNames
    rw [List.map_append]
    exact List.mem_append_right _ (List.mem_map_of_mem (Option.mem_toList.2 hname))
  · rintro ⟨huris, hips, hemails, hupns, hcn, hcomplete⟩
    refine ⟨⟨huris, hips, hemails, hupns⟩, fun n => ⟨fun hn => ?_, hcomplete n⟩⟩
    obtain ⟨name, hname, rfl⟩ := List.mem_map.1 hn
    rcases List.mem_append.1 hname with hsan | hcommon
    · exact (decided_lowered hnames hdecided hcheck).1 (List.mem_map_of_mem (hleaf name hsan))
    · exact hcn name (Option.mem_toList.1 hcommon)

end Names

/-! ## Finalization -/

/-- a certificate is about its order: what is left to check, by who issued it -/
def NamesOk (env : Env) (issuer : String) (prof : Profile) (csr : Csr) (leaf : X509Cert) (o : AcmeOrder) : Prop :=
  if issuer = "local" then OwnOk env prof csr o else UpstreamOk env leaf o

/-- what a finalization asks the registration authority -/
def finalRequest (d : Db) (l : Finalizing) : CertRequest :=
  ⟨some l.csrPem, none, none, none, "acme", previousOf d l.order.2, false, none⟩

/-- a finalization over `d` signed `leaf` for the CSR and stored it; an order without a certificate has it in `d'` -/
structure Finalized (env : Env) (d d' : Db) (l : Finalizing) (csr : Csr) (app : App) (decision : Decision) (leaf : X509Cert) :
    Prop where
  decided : DecidedFor env d l.who l.appId (finalRequest d l) app csr decision
  signed : signedLeaf env d csr decision = .ok leaf
  stored : ∃ id, d.certificates.get id = none ∧ HasLeaf id leaf d' ∧
    (l.order.2.certificateId = none → ∃ o, d'.acmeOrders.get l.order.1 = some o ∧ o.certificateId = some id)

deriving instance DecidableEq for Finalizing

section Finalize

variable {env : Env} {d d₀ : Db} {req : Request} {acct : ℕ × AcmeAccount} {o : ℕ × AcmeOrder} {l : Finalizing}
  {draws : Draws} {reply : Reply} {s : Session Db}

/-- what the checks of a finalization establish -/
theorem mayFinalize_checked (h : mayFinalize env d₀ req acct o = .ok l) :
    l.order = o ∧ ∃ csr, env.loadPemCsr l.csrPem = some csr ∧ checkCsr env csr o.2 = .ok () := by
  unfold mayFinalize at h
  extract_lets -underBinder at h
  split at h
  · cases h
  split at h
  · cases h
  next pem csr hcsr =>
  obtain ⟨u, hcheck, h⟩ := except_bind_ok.1 h
  obtain ⟨⟨who, app⟩, -, h⟩ := except_bind_ok.1 h
  obtain rfl := Except.ok.inj h
  obtain ⟨pem', -, hread⟩ := Option.bind_eq_some_iff.1 hcsr
  obtain ⟨csr', hload, hpair⟩ := Option.map_eq_some_iff.1 hread
  obtain ⟨rfl, rfl⟩ := Prod.mk.inj hpair
  exact ⟨rfl, csr', hload, hcheck⟩

/-- a response commits what the session holds, and a nonce -/
theorem resp_ok {reply' : Reply} {s' : Session Db} (h : resp env draws reply s = (.ok reply', s')) :
    ∃ nonces, s'.committed = { s.work with acmeNonces := nonces } := by
  unfold resp newNonce at h
  obtain ⟨u, s₁, hnonce, h⟩ := Tx.bind_returns.1 h
  obtain ⟨i, s₂, hadd, hpure⟩ := Tx.bind_returns.1 hnonce
  cases hpure
  cases h
  unfold addPlain at hadd
  rw [Tx.get_bind] at hadd
  cases hclash : unique "acme_nonces.value" AcmeNonce.value draws.nonce s.work.acmeNonces with
  | some u =>
    rw [show Col.acmeNonces.get s.work = s.work.acmeNonces from rfl, hclash] at hadd
    cases hadd
  | none =>
    rw [show Col.acmeNonces.get s.work = s.work.acmeNonces from rfl, hclash] at hadd
    cases hadd
    exact ⟨_, rfl⟩

/-- the first save of a finalization writes no table but the orders -/
theorem saveOrder_orders {id : ℕ} {loaded new : AcmeOrder} {u : Unit} {s' : Session Db}
    (h : saveOrder id loaded new s = (.ok u, s')) : ∃ orders, s'.work = { s.work with acmeOrders := orders } := by
  rcases saveRow_ok h with ⟨-, rfl⟩ | ⟨-, rfl⟩
  · exact ⟨s'.work.acmeOrders, rfl⟩
  · exact ⟨_, rfl⟩

/-- the last save of a finalization links an order that had no certificate -/
theorem saveOrder_linked {id certId : ℕ} {loaded : AcmeOrder} {u : Unit} {s' : Session Db}
    (h : saveOrder id (processing loaded) (issued loaded certId) s = (.ok u, s')) (hnone : loaded.certificateId = none) :
    ∃ o, s'.work.acmeOrders.get id = some o ∧ o.certificateId = some certId := by
  rcases saveRow_ok h with ⟨heq, -⟩ | ⟨hsome, rfl⟩
  · have hid : some certId = loaded.certificateId := congrArg AcmeOrder.certificateId heq
    rw [hnone] at hid
    cases hid
  · obtain ⟨o, ho⟩ := Option.isSome_iff_exists.1 hsome
    refine ⟨assignOrder (processing loaded) (issued loaded certId) o, ?_, ?_⟩
    · show (s.work.acmeOrders.update id _).get id = _
      rw [Table.get_update_self]
      exact congrArg _ ho
    · show written loaded.certificateId (some certId) o.certificateId = some certId
      rw [hnone]
      rfl

/-- a finalization that succeeds signed a certificate and stored it for its order -/
theorem storeFinalize_signed (h : storeFinalize env draws l ⟨d, d⟩ = (.ok (.ok reply), s)) :
    ∃ app csr decision leaf, Finalized env d s.committed l csr app decision leaf := by
  unfold storeFinalize at h
  obtain ⟨u₁, s₁, hsave, h⟩ := Tx.bind_returns.1 h
  rw [Tx.get_bind] at h
  obtain ⟨result, s₂, hattempt, h⟩ := Tx.bind_returns.1 h
  -- the request reads every table but the orders as `d` has it
  obtain ⟨orders, hwork⟩ := saveOrder_orders hsave
  rw [hwork] at hattempt
  obtain ⟨hresult, hs₂⟩ := Prod.mk.inj hattempt
  have hresult := Except.ok.inj hresult
  cases result with
  | error e =>
    cases e
    all_goals cases h
  | ok outcome =>
  cases outcome with
  | approval id => cases h
  | job id => cases h
  | certificate id =>
    have hrequest : requestCertificate env l.who l.appId (finalRequest d l) s₁ = (.ok (.certificate id), s₂) :=
      Prod.ext hresult hs₂
    obtain ⟨app, csr, decision, leaf, hdecided, hleaf, hnew, hstored, -⟩ := requestCertificate_signed hrequest
    rw [hwork] at hdecided hleaf hnew
    obtain ⟨u₃, s₃, hissue, h⟩ := Tx.bind_returns.1 h
    obtain ⟨reply', s₄, hresp, h⟩ := Tx.bind_returns.1 h
    cases h
    obtain ⟨nonces, hcommitted⟩ := resp_ok hresp
    obtain ⟨orders', hwork'⟩ := saveOrder_orders hissue
    refine ⟨app, csr, decision, leaf, ⟨hdecided.allowed, hdecided.requested, hdecided.evaluated⟩, hleaf, id, hnew, ?_, ?_⟩
    · rw [hcommitted, hwork']
      exact hstored
    · intro hnone
      rw [hcommitted]
      exact saveOrder_linked hissue hnone

/-- the same of a certificate that was finalized for a CSR the order was compared with -/
theorem exact_of_finalized {d' : Db} {csr : Csr} {app : App} {decision : Decision} {leaf : X509Cert}
    (h : Finalized env d d' l csr app decision leaf) (hcheck : checkCsr env csr l.order.2 = .ok ()) :
    ∃ prof issuer, env.policies.profiles.lookup app.profile = some prof ∧ issuerFor env d app = .ok issuer ∧
      (NamesExactly env l.order.2 leaf ↔ NamesOk env issuer prof csr leaf l.order.2) := by
  obtain ⟨prevFp, first, hfirst, hnames⟩ := h.decided.names
  obtain ⟨prof, hprof⟩ : ∃ prof, env.policies.profiles.lookup app.profile = some prof := by
    obtain ⟨prof, hlookup, -⟩ := except_bind_ok.1 hfirst
    refine ⟨prof, ?_⟩
    unfold profile at hlookup
    split at hlookup
    · next hsome =>
      rw [hsome]
      exact congrArg _ (Except.ok.inj hlookup)
    · cases hlookup
  have hdecided := evaluate_decided hprof hfirst
  obtain ⟨issuer, hissuer, -⟩ := except_bind_ok.1 h.signed
  refine ⟨prof, issuer, hprof, h.decided.issuer ▸ hissuer, ?_⟩
  unfold NamesOk
  split
  · next hlocal =>
    obtain ⟨caCert, pub, hleaf⟩ := signedLeaf_local h.signed (hlocal ▸ hissuer)
    exact own_exact_iff hnames hdecided hcheck hleaf.tbs
  · next hne => exact upstream_exact_iff hnames hdecided hcheck (signedLeaf_upstream h.signed hissuer hne).dns

/-- **A finalized certificate names exactly the identifiers of its order** iff, from a local CA, the CSR asked for no other
kind of name and the common name is still one of the order's when cut to 64 characters, or, from an upstream issuer, what
came back holds no other kind of name, no other common name and all of the order's. -/
theorem finalized_exact_iff (hmay : mayFinalize env d₀ req acct o = .ok l)
    (hrun : storeFinalize env draws l ⟨d, d⟩ = (.ok (.ok reply), s)) :
    ∃ app csr decision leaf prof issuer, Finalized env d s.committed l csr app decision leaf ∧
      env.policies.profiles.lookup app.profile = some prof ∧ issuerFor env d app = .ok issuer ∧
      (NamesExactly env o.2 leaf ↔ NamesOk env issuer prof csr leaf o.2) := by
  obtain ⟨rfl, csr, hload, hcheck⟩ := mayFinalize_checked hmay
  obtain ⟨app, csr', decision, leaf, hfinal⟩ := storeFinalize_signed hrun
  have hcsr : csr' = csr := by
    have hreq := hfinal.decided.requested
    simp only [finalRequest, requestedCsr, Option.bind_some, hload] at hreq
    exact (Except.ok.inj hreq).symm
  subst hcsr
  obtain ⟨prof, issuer, hprof, hissuer, hiff⟩ := exact_of_finalized hfinal hcheck
  exact ⟨app, csr', decision, leaf, prof, issuer, hfinal, hprof, hissuer, hiff⟩

end Finalize

/-! ### A long name -/

section Examples

/-- an order of account 1 that is ready -/
def readyOrder (name : String) : AcmeOrder := ⟨1, [name], .ready, 30000, none, none, none, none⟩

def readyDb (name : String) : Db := { accountDb with acmeOrders := Table.empty.insert (readyOrder name) }

def finalizing (name : String) : Finalizing := ⟨(1, readyOrder name), "web-csr", ⟨"acme:1:crm", .app, some 1⟩, 1⟩

/-- the session after the order is finalized -/
def finalizedSession (env : Env) (name : String) : Session Db :=
  (storeFinalize env (demoDraws "nonce-1") (finalizing name) ⟨readyDb name, readyDb name⟩).2

/-- an order for a short name is issued -/
theorem short_name_ok :
    ∃ app csr decision leaf prof issuer,
      Finalized demoEnv (readyDb "www.corp.example") (finalizedSession demoEnv "www.corp.example").committed
        (finalizing "www.corp.example") csr app decision leaf ∧
      demoEnv.policies.profiles.lookup app.profile = some prof ∧
      issuerFor demoEnv (readyDb "www.corp.example") app = .ok issuer ∧
      (NamesExactly demoEnv (readyOrder "www.corp.example") leaf ↔
        NamesOk demoEnv issuer prof csr leaf (readyOrder "www.corp.example")) :=
  finalized_exact_iff
    (show mayFinalize demoEnv (readyDb "www.corp.example") (demoRequest "/acme/order/1/finalize" .null)
      (1, ⟨"tp", .null, 1, .valid, .arr []⟩) (1, readyOrder "www.corp.example") = .ok (finalizing "www.corp.example") by
        decide +kernel)
    (show storeFinalize demoEnv (demoDraws "nonce-1") (finalizing "www.corp.example")
      ⟨readyDb "www.corp.example", readyDb "www.corp.example"⟩ =
        (.ok (.ok (.order 1)), finalizedSession demoEnv "www.corp.example") from Prod.ext (by decide +kernel) rfl)

/-- the same environment; every CSR asks for the long name and has no common name -/
def longEnv : Env :=
  { demoEnv with loadPemCsr := fun _ => some (nameCsr longName) }

/-- The common name of an order's certificate is the first 64 characters of the name that was validated. -/
theorem long_name_cut :
    ¬ ∀ (env : Env) (d₀ d : Db) (req : Request) (acct : ℕ × AcmeAccount) (o : ℕ × AcmeOrder) (l : Finalizing)
      (draws : Draws) (reply : Reply) (s : Session Db) (csr : Csr) (app : App) (decision : Decision) (leaf : X509Cert),
      mayFinalize env d₀ req acct o = .ok l → storeFinalize env draws l ⟨d, d⟩ = (.ok (.ok reply), s) →
      Finalized env d s.committed l csr app decision leaf → NamesExactly env o.2 leaf := by
  intro h
  have hmay : mayFinalize longEnv (readyDb longName) (demoRequest "/acme/order/1/finalize" .null)
      (1, ⟨"tp", .null, 1, .valid, .arr []⟩) (1, readyOrder longName) = .ok (finalizing longName) := by
    decide +kernel
  have hrun : storeFinalize longEnv (demoDraws "nonce-1") (finalizing longName) ⟨readyDb longName, readyDb longName⟩ =
      (.ok (.ok (.order 1)), finalizedSession longEnv longName) := Prod.ext (by decide +kernel) rfl
  obtain ⟨app, csr, decision, leaf, hfinal⟩ := storeFinalize_signed hrun
  have hexact := h _ _ _ _ _ _ _ _ _ _ _ _ _ _ hmay hrun hfinal
  obtain ⟨-, csr', hload, hcheck⟩ := mayFinalize_checked hmay
  have happ : app = inserted demoState (demoApp "web") := Except.ok.inj (hfinal.decided.allowed.symm.trans (by rfl))
  have hcsr : csr' = csr := by
    have hreq := hfinal.decided.requested
    simp only [finalRequest, requestedCsr, Option.bind_some, hload] at hreq
    exact Except.ok.inj hreq
  subst hcsr happ
  obtain ⟨prof, issuer, -, hissuer, hiff⟩ := exact_of_finalized hfinal hcheck
  have hlocal : issuer = "local" := Except.ok.inj (hissuer.symm.trans (by rfl))
  have hok := hiff.1 hexact
  rw [NamesOk, if_pos hlocal] at hok
  obtain rfl : csr' = nameCsr longName := Option.some.inj (hload.symm.trans rfl)
  have hcn := hok.cn longName (by decide)
  revert hcn
  decide

end Examples

end Certadillo.Acme
