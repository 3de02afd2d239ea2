/-
What a request runs in: the process and the outside world (`Env`), and the session operations of the services.

`Env` holds the settings the modelled code reads and, as functions, what is not in the repository: certificate and CSR
parsing, the signing keys, the directory, the upstream issuers, the clock and the random serials of this request. The
random serials are indexed by the certificates one request can make: 0 is the leaf or the CA, 1 the OCSP responder, 2 the
time-stamping unit.

- `setRow`, `addRow`: an UPDATE and an INSERT of a sealed row, through the hook; `flushed_flushRow` ties the first to the
  hook over attribute history.
- `record`: one audit event.
-/
import Certadillo.Db
import Certadillo.Flush
import Certadillo.Lib.Tx
import Certadillo.Policy.Engine

namespace Certadillo

open Integrity Policy

/-! ## The outside world -/

/-- what the directory says of a UPN's account -/
structure Account where
  sid : String
  enabled : Bool
  adminCount : Bool
deriving DecidableEq

/-- an upstream issuer: `sign` returns the leaf, its chain and the issuer's own id of it -/
structure Backend where
  sign : Csr → Decision → Except String (X509Cert × List X509Cert × Option String)
  revoke : String → String → Option String → String → Except String Unit

/-- a signing key of a key store: its reference, the kind of store and its public key -/
structure Signer where
  keyRef : String
  kind : String
  publicKey : PublicKey
deriving DecidableEq

/-- DER of the parts of a CMP template, base64, and back -/
structure TemplateCodec where
  name : List String → String
  nameFromDer : String → Except String (List String)
  loadDerPublicKey : String → Except String PublicKey
  san : San → String
  sanFromDer : String → Except String San

structure Env where
  st : SealState
  now : ℤ
  randomSerial : ℕ → ℕ
  lower : Py.Chars → Py.Chars
  sha256 : String → String
  policies : Policies
  dualControlActions : List String
  devDomains : List String
  orgName : String
  caPermittedDns : List String
  caPermittedEmail : List String
  caExcludedDns : List String
  /-- `CERTADILLO_ADCS_LDAP_URL`, `_USER` and `_BASE` are set, and how the directory answers -/
  directory : Option (String → Except String Account)
  loadPemCsr : String → Option Csr
  loadPemCert : String → Option X509Cert
  verifyDirectlyIssuedBy : X509Cert → X509Cert → Bool
  /-- a certificate's subject as text -/
  rfc4514 : X509Cert → String
  keystoreLoad : String → Except String Signer
  keystoreGenerate : String → String → Except String Signer
  signX509 : Signer → Tbs → Except String Signed
  /-- a CRL signature only succeeds or fails -/
  signCrl : Signer → Crl → Except String Unit
  /-- `signed_data`: the CMS structure over a digest, or its failure -/
  signedData : Signer → X509Cert → String → String → Except String String
  getBackend : String → Option Backend
  template : TemplateCodec

/-- the process has a seal key, and bootstrap has turned enforcement on -/
structure Env.Sealing (env : Env) (κ : Key) : Prop where
  key : env.st.key = some κ
  enforce : env.st.enforce = true

/-! ## Session operations -/

/-- a service call: one session, Python exceptions -/
abbrev M := Tx Err Db

/-- a name the request presents; `app_id` binds an app credential to its app -/
structure Actor where
  name : String
  role : Role
  appId : Option ℕ
deriving DecidableEq

/-- `Actor.require` -/
def Actor.require (a : Actor) (roles : List Role) : Except Err Unit :=
  let needs := Py.join ", " (roles.map Role.text)
  let role := a.role.text
  if a.role ∈ roles then .ok ()
  else .error (.forbidden s!"role '{role}' cannot perform this action (needs one of {needs})")

def raise {α : Type} (e : Err) : M α := Tx.throw e

def lift {α : Type} (x : Except Err α) : M α := Tx.ofExcept x

theorem lift_bind {α β : Type} (x : Except Err α) (f : α → Except Err β) :
    lift (x >>= f) = lift x >>= fun a => lift (f a) := by
  cases x with
  | error e => rfl
  | ok a => rfl

theorem lift_ok_bind {α β : Type} (a : α) (f : α → M β) (s : Session Db) : (lift (.ok a) >>= f) s = f a s := rfl

/-- a library call: its failure text becomes an exception of the given class -/
def libCall {α : Type} (mk : String → Err) : Except String α → Except Err α
  | .ok a => .ok a
  | .error e => .error (mk e)

/-- `query.filter(..).one_or_none()` -/
def oneOrNone {α : Type} (t : Table α) (p : α → Bool) : Except Err (Option (ℕ × α)) :=
  match t.all p with
  | [] => .ok none
  | [a] => .ok (some a)
  | _ => .error (.other "Multiple rows were found when one or none was required")

/-- what is found is a matching row -/
theorem oneOrNone_some {α : Type} {t : Table α} {p : α → Bool} {i : ℕ} {a : α}
    (h : oneOrNone t p = .ok (some (i, a))) : t.get i = some a ∧ p a = true := by
  refine Table.mem_all.1 ?_
  unfold oneOrNone at h
  split at h
  · cases h
  · next x hone =>
    cases h
    rw [hone]
    exact List.mem_singleton.2 rfl
  · cases h

/-- a matching row is the one found -/
theorem oneOrNone_ok {α : Type} {t : Table α} {p : α → Bool} {o : Option (ℕ × α)} (h : oneOrNone t p = .ok o) {i : ℕ}
    {a : α} (hget : t.get i = some a) (hp : p a = true) : o = some (i, a) := by
  have hmem : (i, a) ∈ t.all p := Table.mem_all.2 ⟨hget, hp⟩
  unfold oneOrNone at h
  split at h
  · next hnil => simp [hnil] at hmem
  · next x hone =>
    cases h
    simpa [hone, eq_comm] using hmem
  · cases h

/-- the only matching row is found -/
theorem oneOrNone_unique {α : Type} {t : Table α} {p : α → Bool} {i : ℕ} {a : α} (hget : t.get i = some a) (hp : p a = true)
    (honly : ∀ j b, t.get j = some b → p b = true → j = i) : oneOrNone t p = .ok (some (i, a)) := by
  have hmem : (i, a) ∈ t.all p := Table.mem_all.2 ⟨hget, hp⟩
  have hkeys : ∀ q ∈ t.all p, q = (i, a) := by
    intro q hq
    obtain ⟨hqget, hqp⟩ := Table.mem_all.1 hq
    obtain ⟨j, b⟩ := q
    obtain rfl := honly j b hqget hqp
    obtain rfl := Option.some.inj (hqget.symm.trans hget)
    rfl
  have hall : t.all p = [(i, a)] := by
    have hnodup : (t.all p).Nodup := t.nodup_rows.filter _
    cases hl : t.all p with
    | nil => simp [hl] at hmem
    | cons q rest =>
      rw [hl] at hkeys hnodup
      have hrest : rest = [] := by
        cases rest with
        | nil => rfl
        | cons q' rest' =>
          have heq : q = q' := (hkeys q (by simp)).trans (hkeys q' (by simp)).symm
          simp [heq] at hnodup
      rw [hrest, hkeys q (by simp)]
  unfold oneOrNone
  rw [hall]

/-- a table of the database, and how to put it back -/
structure Col (α : Type) where
  get : Db → Table α
  put : Db → Table α → Db

namespace Col

def apps : Col App := ⟨Db.apps, fun d t => { d with apps := t }⟩
def folders : Col PolicyFolder := ⟨Db.folders, fun d t => { d with folders := t }⟩
def principals : Col Principal := ⟨Db.principals, fun d t => { d with principals := t }⟩
def certificates : Col Certificate := ⟨Db.certificates, fun d t => { d with certificates := t }⟩
def approvals : Col ApprovalRequest := ⟨Db.approvals, fun d t => { d with approvals := t }⟩
def cas : Col CertificateAuthority := ⟨Db.cas, fun d t => { d with cas := t }⟩
def jobs : Col AdcsJob := ⟨Db.jobs, fun d t => { d with jobs := t }⟩
def campaigns : Col RenewalCampaign := ⟨Db.campaigns, fun d t => { d with campaigns := t }⟩
def signingKeys : Col SigningKey := ⟨Db.signingKeys, fun d t => { d with signingKeys := t }⟩
def signingRequests : Col SigningRequest := ⟨Db.signingRequests, fun d t => { d with signingRequests := t }⟩
def trustAnchors : Col EstTrustAnchor := ⟨Db.trustAnchors, fun d t => { d with trustAnchors := t }⟩
def cmpTransactions : Col CmpTransaction := ⟨Db.cmpTransactions, fun d t => { d with cmpTransactions := t }⟩
def cmpSecrets : Col CmpSecret := ⟨Db.cmpSecrets, fun d t => { d with cmpSecrets := t }⟩
def scepChallenges : Col ScepChallenge := ⟨Db.scepChallenges, fun d t => { d with scepChallenges := t }⟩
def scepTransactions : Col ScepTransaction := ⟨Db.scepTransactions, fun d t => { d with scepTransactions := t }⟩
def acmeAccounts : Col AcmeAccount := ⟨Db.acmeAccounts, fun d t => { d with acmeAccounts := t }⟩
def acmeOrders : Col AcmeOrder := ⟨Db.acmeOrders, fun d t => { d with acmeOrders := t }⟩
def acmeAuthz : Col AcmeAuthz := ⟨Db.acmeAuthz, fun d t => { d with acmeAuthz := t }⟩
def acmeEab : Col AcmeEab := ⟨Db.acmeEab, fun d t => { d with acmeEab := t }⟩
def acmeNonces : Col AcmeNonce := ⟨Db.acmeNonces, fun d t => { d with acmeNonces := t }⟩
def installations : Col Installation := ⟨Db.installations, fun d t => { d with installations := t }⟩
def provisioningRuns : Col ProvisioningRun := ⟨Db.provisioningRuns, fun d t => { d with provisioningRuns := t }⟩

end Col

/-- assign columns of a row of a table without seals -/
def setPlain {α : Type} (c : Col α) (id : ℕ) (f : α → α) : M Unit :=
  Tx.modify fun d => c.put d ((c.get d).update id f)

/-- assign columns of a sealed row -/
def setRow {α : Type} [Sealed α] [DecidableEq α] (env : Env) (c : Col α) (id : ℕ) (f : α → α) : M Unit :=
  Tx.modify fun d => c.put d ((c.get d).update id fun a => flushed env.st a (f a))

/-- add a row to a table without seals; `clash` names a unique constraint it would break -/
def addPlain {α : Type} (c : Col α) (clash : Table α → Option String) (a : α) : M ℕ := do
  let d ← Tx.get
  match clash (c.get d) with
  | some u => raise (.integrity u)
  | none =>
    Tx.modify fun d => c.put d ((c.get d).insert a)
    pure (c.get d).next

/-- add a sealed row -/
def addRow {α : Type} [Sealed α] (env : Env) (c : Col α) (clash : Table α → Option String) (a : α) : M ℕ := do
  let d ← Tx.get
  match clash (c.get d) with
  | some u => raise (.integrity u)
  | none =>
    Tx.modify fun d => c.put d ((c.get d).insert (inserted env.st a))
    pure (c.get d).next

/-- no unique constraint applies -/
def noClash {α : Type} (_ : Table α) : Option String := none

/-- a unique column -/
def unique {α β : Type} [DecidableEq β] (name : String) (col : α → β) (v : β) (t : Table α) : Option String :=
  if (t.first fun a => col a = v).isSome then some name else none

/-- `audit.log.record` -/
def record (env : Env) (actor action target : String) (details : List (String × Json)) : M Unit :=
  Tx.modify fun d => { d with audit := d.audit ++ [⟨env.now, actor, action, target, .obj details⟩] }

/-! ### Rows loaded before others committed -/

/-- an UPDATE writes a column whose value is not the loaded one -/
def written {α : Type} [DecidableEq α] (loaded new stored : α) : α := if new = loaded then stored else new

theorem written_self {α : Type} [DecidableEq α] (a b : α) : written a b a = b := by
  unfold written
  split
  · next h => exact h.symm
  · rfl

/-- the UPDATE of a certificate's columns, on the row as it is stored by then -/
def updated (loaded new stored : Certificate) : Certificate :=
  { stored with
    status := written loaded.status new.status stored.status
    revokedAt := written loaded.revokedAt new.revokedAt stored.revokedAt
    revocationReason := written loaded.revocationReason new.revocationReason stored.revocationReason
    replacedBy := written loaded.replacedBy new.replacedBy stored.replacedBy
    sealHex := written loaded.sealHex new.sealHex stored.sealHex }

/-! ## The sealed update is the hook's -/

section Hook

variable {α : Type} [Sealed α] [DecidableEq α]

/-- an UPDATE of a row this session loaded, as the hook over attribute history makes it: the object holds every loaded
value and the assigned ones, and an unsealed column is modified if the rows differ at all -/
theorem flushed_flushRow {st : SealState} {κ : Key} (hk : st.key = some κ) {old new : α}
    (hs : Sealed.sealHex new = Sealed.sealHex old) :
    let o := Obj.edit (Sealed.row old) (Sealed.getattr new) (decide (old ≠ new))
    (flushRow st (Sealed.kind α) o (Sealed.row old)).sealHex = Sealed.sealHex (flushed st old new) ∧
      ∀ f ∈ FIELDS (Sealed.kind α),
        (flushRow st (Sealed.kind α) o (Sealed.row old)).vals f = Sealed.getattr (flushed st old new) f := by
  intro o
  have hseal : o.sealHex.modified = false := by simp [o, Obj.edit, Attr.fresh, Attr.modified, Attr.history]
  have hf : Fresh (Sealed.kind α) o (Sealed.row old) := fresh_edit _ _ _ _
  have hvals : ∀ f, o.values (Sealed.row old) f = Sealed.getattr new f := by
    intro f; simp [o, Obj.values, Obj.edit, Attr.get]
  by_cases he : old = new
  · have hm : o.isModified (Sealed.kind α) = false := by
      rw [Bool.eq_false_iff, ne_eq, edit_modified]
      simp [Sealed.row, he]
    have hu := update_unmodified hm hseal (Sealed.row old)
    rw [flushRow_unmodified hm, show flushed st old new = old by simp [flushed, he]]
    exact hu
  · have hm : o.isModified (Sealed.kind α) = true := (edit_modified _ _ _ _).2 (Or.inl (by simpa using he))
    refine ⟨?_, fun f hf' => ?_⟩
    · rw [flush_fresh_seal hk hm hseal hf, compute_congr st fun f _ => hvals f]
      by_cases hc : matchesSeal st (Sealed.kind α) (Sealed.getattr old) (Sealed.sealHex old) = true
      · simp [flushed, hk, he, hc, Sealed.row]
      · simp [flushed, hk, he, hc, Sealed.row, hs]
    · rw [flush_fresh_vals hk hm hf f hf', hvals, getattr_flushed]

end Hook

/-! ## A small environment for examples -/

section Demo

/-- a TLS profile -/
def demoWeb : Profile :=
  ⟨some ["server_auth"], some 30, some 90, none, none, true, false, some 2048, some ["secp256r1"], true, false, false,
    false, false, none, none, none⟩

/-- a Windows logon profile -/
def demoLogon : Profile :=
  ⟨some ["smartcard_logon"], some 30, some 90, none, none, false, false, some 2048, some ["secp256r1"], true, true,
    false, false, false, none, none, none⟩

def demoKey (spki : String) : PublicKey := ⟨.ec "secp256r1" 256, spki⟩

/-- a request for one DNS name, and one for a UPN -/
def demoCsr (pem : String) : Option Csr :=
  if pem = "web-csr" then
    some ⟨.ok (demoKey "web-key"), some true, ["www.corp.example"], some ⟨["www.corp.example"], [], [], [], []⟩⟩
  else if pem = "logon-csr" then
    some ⟨.ok (demoKey "logon-key"), some true, [], some ⟨[], [], [], [], [some "joe@corp.example"]⟩⟩
  else none

/-- the issuing CA's certificate -/
def demoCaCert : X509Cert :=
  ⟨⟨7, "Root", some "Org", some "Issuing", some (demoKey "ca-key"), 0, 10 ^ 9, true, some 0, [], [], none, none, [], []⟩,
    ⟨"ca-pem", "ca-fp", "1.2.840.10045.4.3.2", some "sha256"⟩, false⟩

/-- every signature succeeds, the directory knows one account and it is disabled, and no upstream is configured -/
def demoEnv : Env where
  st := demoState
  now := 1000
  randomSerial n := 16 + n
  lower := List.map Char.toLower
  sha256 s := "sha256:" ++ s
  policies := ⟨[("web", demoWeb), ("logon", demoLogon)], "corp.example", []⟩
  dualControlActions := ["onboard_prod_app", "policy_change"]
  devDomains := ["dev.example"]
  orgName := "Org"
  caPermittedDns := []
  caPermittedEmail := []
  caExcludedDns := []
  directory := some fun _ => .ok ⟨"S-1-5-21", false, false⟩
  loadPemCsr := demoCsr
  loadPemCert pem := if pem = "ca-pem" then some demoCaCert else none
  verifyDirectlyIssuedBy _ _ := true
  rfc4514 c := c.tbs.commonName.getD ""
  keystoreLoad ref := .ok ⟨ref, "file", demoKey "ca-key"⟩
  keystoreGenerate name _ := .ok ⟨name, "file", demoKey name⟩
  signX509 _ tbs := .ok ⟨"pem-" ++ toString tbs.serialNumber, "fp-" ++ toString tbs.serialNumber,
    "1.2.840.10045.4.3.2", some "sha256"⟩
  signCrl _ _ := .ok ()
  signedData _ _ _ digest := .ok ("cms-" ++ digest)
  getBackend _ := none
  template := ⟨fun cns => cns.headD "", fun s => .ok [s], fun s => .ok (demoKey s), fun _ => "", fun _ => .ok .none⟩

/-- an active app with a name scope -/
def demoApp (profile : String) : App :=
  ⟨1, "crm", .test, profile, ["*.corp.example", "corp.example"], "internal", .active, "olga", none, .null, none⟩

end Demo

end Certadillo
