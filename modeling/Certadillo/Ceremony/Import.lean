/-
The offline root: importing an issuing CA (`ca/offline.py`, `prepare_issuing` and `import_issuing`).

A ceremony is open while its file is there. The file and the key store are outside the database's transaction: the import
writes rows, and moves the file aside last.

- `prepareIssuing`, `importIssuing`: the two server sides of the ceremony.
- `checkChain_ok`, `importRows_ok`: what an import that returns has checked.
- `importIssuing_raises`: one that raises has changed nothing once its session is rolled back.
- `held_step`: an open ceremony's reference still loads the key generated for it, if no step replaces that key.
- `import_checks_ceremony`: the law over runs.

Premise: a signature check that passes means a signature with the issuer's key.
-/
import Certadillo.Ceremony.Offline
import Certadillo.Lib.Run

namespace Certadillo.Ceremony.Import

open Integrity Policy Py Machine Tx

/-! ## The certificate library -/

inductive GeneralName where
  | dns (value : String)
  | email (value : String)
  | other (kind value : String)
deriving DecidableEq

/-- an absent list is not the same as an empty one -/
structure NameConstraints where
  permitted : Option (List GeneralName)
  excluded : Option (List GeneralName)
deriving DecidableEq

structure BasicConstraints where
  ca : Bool
  pathLength : Option ℕ
deriving DecidableEq

structure KeyUsage where
  keyCertSign : Bool
  crlSign : Bool
deriving DecidableEq

/-- the extensions the import reads -/
structure Extensions where
  basicConstraints : Option BasicConstraints
  keyUsage : Option KeyUsage
  nameConstraints : Option NameConstraints
deriving DecidableEq

/-- the request for an issuing CA -/
structure IssuingCsr where
  commonName : String
  publicKey : PublicKey
  basicConstraints : BasicConstraints
  nameConstraints : Option NameConstraints
deriving DecidableEq

/-- names, extensions and requests, as the library reads and builds them; `path` is the file of a ceremony -/
structure CertLib where
  subject : X509Cert → String
  issuer : X509Cert → String
  extensions : X509Cert → Except String Extensions
  dnsName : String → Except String String
  rfc822Name : String → Except String String
  signCsr : Signer → IssuingCsr → Except String Unit
  isoformat : ℤ → String
  path : String → String

/-- a ceremony's file, and the key it was opened for, which the request in it carries -/
structure Pending where
  keyRef : String
  signer : String
  csr : IssuingCsr
  spkiSha256 : String
  operator : String
  witness : String
deriving DecidableEq

/-- what an import answers -/
structure Receipt where
  issuing : String
  sha256 : String
  root : String
  rootSha256 : String
  notAfter : String
  signer : String
deriving DecidableEq

/-- the database, what each key reference loads, and the open ceremonies by file -/
structure World where
  d : Db
  keys : String → Except String Signer
  pending : String → Option Pending

/-! ## Preparing -/

section Prepare

variable (lib : CertLib) (env : Env)

def stripped (s : String) : String := String.ofList (strip s.toList)

def lowered (s : String) : String := String.ofList (env.lower (strip s.toList))

/-- `_check_people` -/
def checkPeople (operator witness : String) : Except Err Unit :=
  if stripped operator = "" ∨ stripped witness = "" then throw (.value "a ceremony needs an operator and a witness")
  else if lowered env operator = lowered env witness then throw (.value "the witness must be a different person")
  else pure ()

/-- `_NAME` -/
def isName (name : String) : Bool :=
  3 ≤ name.length && name.length ≤ 60 &&
    name.toList.all fun c => ('a' ≤ c && c ≤ 'z') || ('0' ≤ c && c ≤ '9') || c = '-'

/-- `_dns_subtree` -/
def dnsSubtree (value : String) : Except Err GeneralName := do
  let name := lstrip (· = '.') (lstrip (· = '*') (strip value.toList))
  let dns ← libCall .value (lib.dnsName (String.ofList name))
  pure (.dns dns)

def emailSubtree (value : String) : Except Err GeneralName := do
  let email ← libCall .value (lib.rfc822Name (stripped value))
  pure (.email email)

/-- `permitted or None` -/
def orNone (names : List GeneralName) : Option (List GeneralName) := if names = [] then none else some names

/-- `_name_constraints`: what the server requires of its issuing CAs -/
def caNameConstraints : Except Err (Option NameConstraints) := do
  let dns ← env.caPermittedDns.mapM (dnsSubtree lib)
  let emails ← env.caPermittedEmail.mapM (emailSubtree lib)
  let excluded ← env.caExcludedDns.mapM (dnsSubtree lib)
  let permitted := dns ++ emails
  pure (if permitted = [] ∧ excluded = [] then none else some ⟨orNone permitted, orNone excluded⟩)

def checkOpening (w : World) (name operator witness : String) : Except Err Unit := do
  checkPeople env operator witness
  if !isName name then throw (.value "CA names are 3-60 lowercase letters, digits and hyphens")
  else if (w.d.cas.first fun ca => ca.name = name).isSome then throw (.value s!"a CA named {name} already exists")
  else if (w.pending (lib.path name)).isSome then
    let pending := lib.path name
    throw (.value s!"a ceremony for {name} is already open ({pending}); import its certificate first")
  else pure ()

def issuingCsr (signer : Signer) (name : String) : Except Err IssuingCsr := do
  let nc ← caNameConstraints lib env
  let org := env.orgName
  let csr : IssuingCsr := ⟨s!"{org} Issuing CA {name}", signer.publicKey, ⟨true, some 0⟩, nc⟩
  libCall .value (lib.signCsr signer csr)
  pure csr

/-- generate the issuing CA's key and open its ceremony; the caller commits -/
def prepareIssuing (name alg operator witness : String) (w : World) : Except Err IssuingCsr × World :=
  match checkOpening lib env w name operator witness with
  | .error e => (.error e, w)
  | .ok () =>
    match libCall .other (env.keystoreGenerate name alg) with
    | .error e => (.error e, w)
    | .ok signer =>
      -- the key stays where it is, whatever happens next
      let generated := { w with keys := Function.update w.keys signer.keyRef (.ok signer) }
      match issuingCsr lib env signer name with
      | .error e => (.error e, generated)
      | .ok csr =>
        let spki := env.sha256 signer.publicKey.spki
        let state : Pending := ⟨signer.keyRef, signer.kind, csr, spki, operator, witness⟩
        let opened := { generated with pending := Function.update w.pending (lib.path name) (some state) }
        let recorded := Tx.transact (record env s!"ceremony:{operator}" "ca.offline.csr" name
          [("key_ref", .str signer.keyRef), ("signer", .str signer.kind), ("operator", .str operator),
            ("witness", .str witness), ("spki_sha256", .str spki)]) w.d
        (.ok csr, { opened with d := recorded.2 })

end Prepare

/-! ## Importing -/

section Import

variable (lib : CertLib) (env : Env)

/-- `_check_ca` -/
def checkCa (cert : X509Cert) (what : String) : Except Err Extensions := do
  let ext ← libCall .value (lib.extensions cert)
  if (ext.basicConstraints.map (·.ca)) ≠ some true then
    throw (.value s!"the {what} certificate is not a CA (BasicConstraints cA is not set)")
  else if (ext.keyUsage.map fun ku => ku.keyCertSign && ku.crlSign) ≠ some true then
    throw (.value s!"the {what} certificate lacks keyCertSign and cRLSign")
  else if ¬ (cert.tbs.notBefore ≤ env.now ∧ env.now ≤ cert.tbs.notAfter) then
    throw (.value s!"the {what} certificate is not in its validity period")
  else pure ext

/-- the root: self-signed, a CA, able to sign certificates, in its validity period -/
def checkRoot (root : X509Cert) : Except Err Unit := do
  if lib.subject root ≠ lib.issuer root then throw (.value "the root certificate is not self-signed")
  else if !env.verifyDirectlyIssuedBy root root then
    throw (.value "the root certificate's self-signature does not verify")
  else
    let _ ← checkCa lib env root "root"
    pure ()

/-- the name constraints the server requires -/
def checkConstraints (ext : Extensions) : Except Err Unit := do
  match ← caNameConstraints lib env with
  | none => pure ()
  | some wanted =>
    if ext.nameConstraints ≠ some wanted then
      throw (.value ("the certificate does not carry the name constraints this server requires " ++
        "(CERTADILLO_CA_PERMITTED_DNS / _EXCLUDED_DNS / _PERMITTED_EMAIL)"))
    else pure ()

/-- the issuing CA: carries our key, signed by that root, a CA with pathlen 0 -/
def checkIssuing (state : Pending) (cert root : X509Cert) : Except Err Unit := do
  let signer ← libCall .other (env.keystoreLoad state.keyRef)
  match cert.tbs.publicKey with
  | none => throw (.value "unsupported public key")
  | some pub =>
    if pub.spki ≠ signer.publicKey.spki then
      throw (.value "the certificate does not carry the key generated for this ceremony")
    else if lib.issuer cert ≠ lib.subject root then
      throw (.value "the certificate was not issued by this root (issuer name differs)")
    else if !env.verifyDirectlyIssuedBy cert root then
      throw (.value "the certificate's signature does not verify with the root's key")
    else
      let ext ← checkCa lib env cert "issuing CA"
      if ext.basicConstraints.bind (·.pathLength) ≠ some 0 then
        throw (.value "an issuing CA must have pathLenConstraint 0, so it cannot create further CAs")
      else if root.tbs.notAfter < cert.tbs.notAfter then throw (.value "the issuing CA outlives its root")
      else checkConstraints lib env ext

def loadCertificate (pem : String) : Except Err X509Cert :=
  match env.loadPemCert pem with
  | some cert => pure cert
  | none => throw (.value "not a PEM certificate: Unable to load PEM file")

/-- everything that is checked of the two certificates -/
def checkChain (state : Pending) (certPem rootPem : String) : Except Err (X509Cert × X509Cert) := do
  let cert ← loadCertificate env certPem
  let root ← loadCertificate env rootPem
  checkRoot lib env root
  checkIssuing lib env state cert root
  pure (cert, root)

/-- the root's row, if there is one: known by fingerprint -/
def knownRoot (d : Db) (name rootName : String) (root : X509Cert) : Except Err (Option ℕ) := do
  if (d.cas.first fun ca => ca.name = name).isSome then throw (.value s!"a CA named {name} already exists")
  else
    match ← oneOrNone d.cas fun ca => ca.name = rootName with
    | none => pure none
    | some (id, row) =>
      let known ← CAService.loadPem env row.certPem
      if known.fingerprint ≠ root.fingerprint then throw (.value s!"a different CA named {rootName} already exists")
      else pure (some id)

/-- a CA without CRLs and service keys -/
def caRow (name : String) (parentId : Option ℕ) (cert : X509Cert) (keyRef signerType : String) (isRoot : Bool) :
    CertificateAuthority :=
  { name := name, parentId := parentId, certPem := cert.pem, keyRef := keyRef, signerType := signerType, isRoot := isRoot,
    crlNumber := 0, crlLastGenerated := none, crlDer := none, ocspCertPem := none, ocspKeyRef := none,
    scepRaCertPem := none, scepRaKeyRef := none, cmpRaCertPem := none, cmpRaKeyRef := none, tsaCertPem := none,
    tsaKeyRef := none }

/-- the root's row, added without a key if it is new -/
def rootRow (known : Option ℕ) (rootName : String) (root : X509Cert) : M ℕ :=
  match known with
  | some id => pure id
  | none =>
    let fp := root.fingerprint
    addPlain Col.cas (unique "cas.name" (·.name) rootName) (caRow rootName none root s!"{offline}:{fp}" offline true)

/-- all of the import but the last step -/
def importRows (pending : Option Pending) (name certPem rootPem operator witness rootName : String) :
    M Receipt := do
  lift (checkPeople env operator witness)
  match pending with
  | none => raise (.value s!"no open ceremony for {name}; start with `certadillo ca offline-csr`")
  | some state =>
    let (cert, root) ← lift (checkChain lib env state certPem rootPem)
    let d ← Tx.get
    let known ← lift (knownRoot env d name rootName root)
    let rootId ← rootRow known rootName root
    let ca := caRow name (some rootId) cert state.keyRef state.signer false
    let id ← addPlain Col.cas (unique "cas.name" (·.name) name) ca
    let _ ← lift (CAService.signerFor env ca)
    CAService.rotateOcspSigner env id ca 30
    CAService.generateCrl env id 24
    record env s!"ceremony:{operator}" "ca.offline.import" name
      [("root", .str rootName), ("root_sha256", .str root.fingerprint), ("sha256", .str cert.fingerprint),
        ("key_ref", .str state.keyRef), ("operator", .str operator), ("witness", .str witness),
        ("prepared_by", .str state.operator)]
    pure ⟨name, cert.fingerprint, rootName, root.fingerprint, lib.isoformat cert.tbs.notAfter, state.signer⟩

/-- make the certificate the offline root signed a working issuing CA: its rows, in the caller's session, then the
ceremony's file, which is moved aside -/
def importIssuing (rename : String → Except String Unit) (name certPem rootPem operator witness rootName : String)
    (w : World) : Except Err Receipt × Session Db × (String → Option Pending) :=
  let file := lib.path name
  match importRows lib { env with keystoreLoad := w.keys } (w.pending file) name certPem rootPem operator witness rootName
      ⟨w.d, w.d⟩ with
  | (.error e, s) => (.error e, s, w.pending)
  | (.ok receipt, s) =>
    match libCall .other (rename file) with
    | .error e => (.error e, s, w.pending)
    | .ok () => (.ok receipt, s, Function.update w.pending file none)

/-- `ca import-issuing`: the caller commits, and rolls back what raises -/
def caImportIssuing (rename : String → Except String Unit) (name certPem rootPem operator witness rootName : String)
    (w : World) : World :=
  match importIssuing lib env rename name certPem rootPem operator witness rootName w with
  | (.ok _, s, pending) => { w with d := s.work, pending := pending }
  | (.error _, s, pending) => { w with d := s.committed, pending := pending }

end Import

/-! ## What an import that returns has checked -/

section Checks

variable {lib : CertLib} {env : Env} {signedBy : X509Cert → PublicKey → Prop}

/-- a currently valid CA certificate that can sign certificates and CRLs -/
structure ValidCa (lib : CertLib) (now : ℤ) (cert : X509Cert) (ext : Extensions) : Prop where
  extensions : lib.extensions cert = .ok ext
  ca : ext.basicConstraints.map (·.ca) = some true
  usage : ext.keyUsage.map (fun ku => ku.keyCertSign && ku.crlSign) = some true
  begun : cert.tbs.notBefore ≤ now
  current : now ≤ cert.tbs.notAfter

/-- the certificate verifies with the key of the other -/
def SignedWith (signedBy : X509Cert → PublicKey → Prop) (cert issuer : X509Cert) : Prop :=
  ∃ pub, issuer.tbs.publicKey = some pub ∧ signedBy cert pub

/-- a signature check that passes means a signature with the issuer's key -/
def ChecksSignatures (env : Env) (signedBy : X509Cert → PublicKey → Prop) : Prop :=
  ∀ cert issuer, env.verifyDirectlyIssuedBy cert issuer = true → SignedWith signedBy cert issuer

/-- the key is the ceremony's, and the name constraints are those the server requires, if it requires any -/
structure CarriesOurs (lib : CertLib) (env : Env) (key : String) (cert : X509Cert) (ext : Extensions) : Prop where
  key : cert.tbs.publicKey.map (·.spki) = some key
  constraints : ∀ wanted, caNameConstraints lib env = .ok (some wanted) → ext.nameConstraints = some wanted

/-- a root and an issuing CA under it -/
structure Chains (lib : CertLib) (env : Env) (signedBy : X509Cert → PublicKey → Prop) (key : String)
    (cert root : X509Cert) : Prop where
  rootNamed : lib.subject root = lib.issuer root
  rootSigned : SignedWith signedBy root root
  rootValid : ∃ ext, ValidCa lib env.now root ext
  named : lib.issuer cert = lib.subject root
  signed : SignedWith signedBy cert root
  valid : ∃ ext, ValidCa lib env.now cert ext ∧ ext.basicConstraints.bind (·.pathLength) = some 0 ∧
    CarriesOurs lib env key cert ext
  outlived : cert.tbs.notAfter ≤ root.tbs.notAfter

theorem checkCa_ok {cert : X509Cert} {what : String} {ext : Extensions} (h : checkCa lib env cert what = .ok ext) :
    ValidCa lib env.now cert ext := by
  unfold checkCa at h
  obtain ⟨e, hext, h⟩ := except_bind_ok.1 h
  split at h
  · cases h
  next hca =>
    split at h
    · cases h
    next hku =>
      split at h
      · cases h
      next hnow =>
        obtain rfl := Except.ok.inj h
        obtain ⟨hbegun, hcurrent⟩ := not_not.1 hnow
        exact ⟨libCall_ok hext, not_not.1 hca, not_not.1 hku, hbegun, hcurrent⟩

theorem checkRoot_ok {root : X509Cert} (h : checkRoot lib env root = .ok ()) :
    lib.subject root = lib.issuer root ∧ env.verifyDirectlyIssuedBy root root = true ∧ ∃ ext, ValidCa lib env.now root ext := by
  unfold checkRoot at h
  split at h
  · cases h
  next hname =>
    split at h
    · cases h
    next hsigned =>
      obtain ⟨ext, hext, -⟩ := except_bind_ok.1 h
      exact ⟨not_not.1 hname, by simpa using hsigned, ext, checkCa_ok hext⟩

theorem checkConstraints_ok {ext : Extensions} (h : checkConstraints lib env ext = .ok ()) {wanted : NameConstraints}
    (hwanted : caNameConstraints lib env = .ok (some wanted)) : ext.nameConstraints = some wanted := by
  unfold checkConstraints at h
  rw [hwanted, except_ok_bind] at h
  dsimp only at h
  split at h
  · cases h
  next hsame => exact not_not.1 hsame

/-- what is checked of the issuing CA, and of the key its reference loads -/
theorem checkIssuing_ok {state : Pending} {cert root : X509Cert} (h : checkIssuing lib env state cert root = .ok ()) :
    ∃ signer ext, env.keystoreLoad state.keyRef = .ok signer ∧ lib.issuer cert = lib.subject root ∧
      env.verifyDirectlyIssuedBy cert root = true ∧ ValidCa lib env.now cert ext ∧
      ext.basicConstraints.bind (·.pathLength) = some 0 ∧ cert.tbs.notAfter ≤ root.tbs.notAfter ∧
      CarriesOurs lib env signer.publicKey.spki cert ext := by
  unfold checkIssuing at h
  obtain ⟨signer, hload, h⟩ := except_bind_ok.1 h
  split at h
  · cases h
  next pub hpub =>
    split at h
    · cases h
    next hkey =>
      split at h
      · cases h
      next hissuer =>
        split at h
        · cases h
        next hsigned =>
          obtain ⟨ext, hext, h⟩ := except_bind_ok.1 h
          split at h
          · cases h
          next hpath =>
            split at h
            · cases h
            next hafter =>
              refine ⟨signer, ext, libCall_ok hload, not_not.1 hissuer, by simpa using hsigned, checkCa_ok hext,
                not_not.1 hpath, not_lt.1 hafter, ?_, fun wanted hwanted => checkConstraints_ok h hwanted⟩
              rw [hpub]
              exact congrArg some (not_not.1 hkey)

theorem loadCertificate_ok {pem : String} {cert : X509Cert} (h : loadCertificate env pem = .ok cert) :
    env.loadPemCert pem = some cert := by
  unfold loadCertificate at h
  split at h
  · next c hc =>
    obtain rfl := Except.ok.inj h
    exact hc
  · cases h

/-- **Two certificates that pass are a root and an issuing CA under it**, which carries the key its reference loads. -/
theorem checkChain_ok (hsig : ChecksSignatures env signedBy) {state : Pending} {certPem rootPem : String}
    {cert root : X509Cert} (h : checkChain lib env state certPem rootPem = .ok (cert, root)) :
    env.loadPemCert certPem = some cert ∧ env.loadPemCert rootPem = some root ∧
      ∃ signer, env.keystoreLoad state.keyRef = .ok signer ∧
        Chains lib env signedBy signer.publicKey.spki cert root := by
  unfold checkChain at h
  obtain ⟨cert', hcert, h⟩ := except_bind_ok.1 h
  obtain ⟨root', hroot, h⟩ := except_bind_ok.1 h
  obtain ⟨u, hcheckRoot, h⟩ := except_bind_ok.1 h
  obtain ⟨v, hcheck, h⟩ := except_bind_ok.1 h
  obtain ⟨rfl, rfl⟩ := Prod.mk.inj (Except.ok.inj h)
  obtain ⟨hrootNamed, hrootSigned, hrootValid⟩ := checkRoot_ok hcheckRoot
  obtain ⟨signer, ext, hload, hnamed, hsigned, hvalid, hpath, houtlived, hours⟩ := checkIssuing_ok hcheck
  refine ⟨loadCertificate_ok hcert, loadCertificate_ok hroot, signer, hload, ?_⟩
  exact
    { rootNamed := hrootNamed
      rootSigned := hsig _ _ hrootSigned
      rootValid := hrootValid
      named := hnamed
      signed := hsig _ _ hsigned
      valid := ⟨ext, hvalid, hpath, hours⟩
      outlived := houtlived }

/-- the root is the CA known under its name, if there is one -/
def KnownAs (env : Env) (d : Db) (rootName : String) (root : X509Cert) : Prop :=
  ∀ id row, d.cas.get id = some row → row.name = rootName →
    ∃ known, CAService.loadPem env row.certPem = .ok known ∧ known.fingerprint = root.fingerprint

theorem knownRoot_ok {d : Db} {name rootName : String} {root : X509Cert} {o : Option ℕ}
    (h : knownRoot env d name rootName root = .ok o) :
    (∀ id row, d.cas.get id = some row → row.name ≠ name) ∧ KnownAs env d rootName root := by
  unfold knownRoot at h
  split at h
  · cases h
  next hfree =>
    constructor
    · intro id row hget hname
      have hnone : (d.cas.first fun ca => ca.name = name) = none := by simpa using hfree
      have hother := Table.first_none.1 hnone id row hget
      simp [hname] at hother
    · intro id row hget hname
      obtain ⟨found, hone, h⟩ := except_bind_ok.1 h
      obtain rfl := oneOrNone_ok hone hget (by simpa using hname)
      obtain ⟨known, hknown, h⟩ := except_bind_ok.1 h
      split at h
      · cases h
      next hsame => exact ⟨known, hknown, not_not.1 hsame⟩

end Checks

/-! ## One import -/

section One

variable {lib : CertLib} {env : Env} {signedBy : X509Cert → PublicKey → Prop}
  {name certPem rootPem operator witness rootName : String}

/-- what an import that returns has found: an open ceremony, a root and an issuing CA under it, and a free name -/
theorem importRows_ok (hsig : ChecksSignatures env signedBy) {pending : Option Pending} {s s' : Session Db}
    {receipt : Receipt} (h : importRows lib env pending name certPem rootPem operator witness rootName s = (.ok receipt, s')) :
    ∃ state cert root signer, pending = some state ∧ env.loadPemCert certPem = some cert ∧
      env.loadPemCert rootPem = some root ∧ env.keystoreLoad state.keyRef = .ok signer ∧
      Chains lib env signedBy signer.publicKey.spki cert root ∧
      (∀ id row, s.work.cas.get id = some row → row.name ≠ name) ∧ KnownAs env s.work rootName root := by
  unfold importRows at h
  obtain ⟨u, s₁, hpeople, h₁⟩ := Tx.bind_returns.1 h
  obtain ⟨-, rfl⟩ := Prod.mk.inj hpeople
  cases pending with
  | none => cases h₁
  | some state =>
    obtain ⟨⟨cert, root⟩, s₂, hcheck, h₂⟩ := Tx.bind_returns.1 h₁
    obtain ⟨hchain, rfl⟩ := Prod.mk.inj hcheck
    dsimp only at h₂
    rw [Tx.get_bind] at h₂
    obtain ⟨known, s₃, hknown, -⟩ := Tx.bind_returns.1 h₂
    obtain ⟨hroot, rfl⟩ := Prod.mk.inj hknown
    obtain ⟨hcert, hrootPem, signer, hload, hchains⟩ := checkChain_ok hsig hchain
    obtain ⟨hfree, hknownAs⟩ := knownRoot_ok hroot
    exact ⟨state, cert, root, signer, rfl, hcert, hrootPem, hload, hchains, hfree, hknownAs⟩

/-- the import commits nothing of its own -/
theorem calm_importRows (pending : Option Pending) :
    Calm (Write env .full) (importRows lib env pending name certPem rootPem operator witness rootName) := by
  unfold importRows
  refine calm_lift_bind fun _ _ => ?_
  cases pending with
  | none => exact calm_raise _
  | some state =>
    refine calm_lift_bind fun imported _ => calm_get_bind fun d => calm_lift_bind fun known _ => ?_
    refine calm_bind ?_ fun rootId => ?_
    · unfold rootRow
      cases known with
      | some id => exact calm_pure id
      | none => exact calm_addPlain_of fun d => admits_write.addCa d _ rfl
    · refine calm_bind (calm_addPlain_of fun d => admits_write.addCa d _ rfl) fun id => calm_lift_bind fun _ _ => ?_
      refine calm_bind (CAService.calm_rotateOcspSigner_of admits_write _ _ _) fun _ => ?_
      refine calm_bind (CAService.calm_generateCrl_of (fun _ _ => .frame _ _ rfl rfl rfl rfl rfl) _ _) fun _ => ?_
      exact calm_bind (calm_record (by decide)) fun _ => calm_pure _

variable {rename : String → Except String Unit} {w : World}

/-- an import returns when its rows are in the session and the ceremony's file is moved aside -/
theorem importIssuing_ok {receipt : Receipt} {s : Session Db} {pending : String → Option Pending}
    (h : importIssuing lib env rename name certPem rootPem operator witness rootName w = (.ok receipt, s, pending)) :
    importRows lib { env with keystoreLoad := w.keys } (w.pending (lib.path name)) name certPem rootPem operator witness
        rootName ⟨w.d, w.d⟩ = (.ok receipt, s) ∧
      pending = Function.update w.pending (lib.path name) none := by
  unfold importIssuing at h
  dsimp only at h
  split at h
  · cases h
  · next receipt' s' hrows =>
    split at h
    · cases h
    · obtain ⟨hreceipt, hrest⟩ := Prod.mk.inj h
      obtain ⟨rfl, rfl⟩ := Prod.mk.inj hrest
      obtain rfl := Except.ok.inj hreceipt
      exact ⟨hrows, rfl⟩

/-- **An import that raises leaves the ceremony open, and has committed nothing.** -/
theorem importIssuing_raises {e : Err} {s : Session Db} {pending : String → Option Pending}
    (h : importIssuing lib env rename name certPem rootPem operator witness rootName w = (.error e, s, pending)) :
    s.committed = w.d ∧ pending = w.pending := by
  have hcalm := (@calm_importRows lib { env with keystoreLoad := w.keys } name certPem rootPem operator witness rootName
    (w.pending (lib.path name)) ⟨w.d, w.d⟩).1
  unfold importIssuing at h
  dsimp only at h
  split at h
  · next e' s' hrows =>
    rw [hrows] at hcalm
    obtain ⟨-, hrest⟩ := Prod.mk.inj h
    obtain ⟨rfl, rfl⟩ := Prod.mk.inj hrest
    exact ⟨hcalm, rfl⟩
  · next receipt s' hrows =>
    rw [hrows] at hcalm
    split at h
    · obtain ⟨-, hrest⟩ := Prod.mk.inj h
      obtain ⟨rfl, rfl⟩ := Prod.mk.inj hrest
      exact ⟨hcalm, rfl⟩
    · cases h

end One

/-! ## Runs -/

section Runs

/-- what the server does around its ceremonies; its other work writes to the database, and generates keys -/
inductive Op where
  | prepare (env : Env) (name alg operator witness : String)
  | importIssuing (env : Env) (rename : String → Except String Unit)
      (name certPem rootPem operator witness rootName : String)
  | other (d : Db) (keys : String → Except String Signer)

def step (lib : CertLib) (w : World) : Op → World
  | .prepare env name alg operator witness => (prepareIssuing lib env name alg operator witness w).2
  | .importIssuing env rename name certPem rootPem operator witness rootName =>
    caImportIssuing lib env rename name certPem rootPem operator witness rootName w
  | .other d keys => { w with d := d, keys := keys }

variable (lib : CertLib)

/-- the step replaces no key of a ceremony that stays open -/
def KeepsKeys (w : World) (o : Op) : Prop :=
  ∀ file state, w.pending file = some state → (step lib w o).pending file = some state →
    (step lib w o).keys state.keyRef = w.keys state.keyRef

/-- the reference of every open ceremony loads the key generated for it -/
def Held (w : World) : Prop :=
  ∀ file state, w.pending file = some state → ∃ signer, w.keys state.keyRef = .ok signer ∧ signer.publicKey = state.csr.publicKey

variable {lib} {w : World}

theorem issuingCsr_ok {env : Env} {signer : Signer} {name : String} {csr : IssuingCsr}
    (h : issuingCsr lib env signer name = .ok csr) : csr.publicKey = signer.publicKey := by
  unfold issuingCsr at h
  obtain ⟨nc, -, h⟩ := except_bind_ok.1 h
  obtain ⟨u, -, h⟩ := except_bind_ok.1 h
  obtain rfl := Except.ok.inj h
  rfl

/-- what preparing does to the open ceremonies: nothing, or it opens one whose reference loads the key of its request -/
theorem prepareIssuing_pending (env : Env) (name alg operator witness : String) (w : World) :
    (prepareIssuing lib env name alg operator witness w).2.pending = w.pending ∨
    ∃ signer state, state.keyRef = signer.keyRef ∧ state.csr.publicKey = signer.publicKey ∧
      (prepareIssuing lib env name alg operator witness w).2.pending =
        Function.update w.pending (lib.path name) (some state) ∧
      (prepareIssuing lib env name alg operator witness w).2.keys =
        Function.update w.keys signer.keyRef (.ok signer) := by
  unfold prepareIssuing
  split
  · exact Or.inl rfl
  · split
    · exact Or.inl rfl
    · next signer _ =>
      dsimp only
      split
      · exact Or.inl rfl
      · next csr hcsr => exact Or.inr ⟨signer, _, rfl, issuingCsr_ok hcsr, rfl, rfl⟩

/-- an import opens no ceremony, and leaves the keys -/
theorem caImportIssuing_pending (env : Env) (rename : String → Except String Unit)
    (name certPem rootPem operator witness rootName : String) (w : World) :
    (caImportIssuing lib env rename name certPem rootPem operator witness rootName w).keys = w.keys ∧
      ∀ file state, (caImportIssuing lib env rename name certPem rootPem operator witness rootName w).pending file = some state →
        w.pending file = some state := by
  unfold caImportIssuing
  split
  · next receipt s pending hrun =>
    obtain ⟨-, rfl⟩ := importIssuing_ok hrun
    refine ⟨rfl, fun file state hfile => ?_⟩
    dsimp only at hfile
    by_cases hsame : file = lib.path name
    · subst hsame
      rw [Function.update_self] at hfile
      cases hfile
    · rwa [Function.update_of_ne hsame] at hfile
  · next e s pending hrun =>
    obtain ⟨-, rfl⟩ := importIssuing_raises hrun
    exact ⟨rfl, fun file state hfile => hfile⟩

/-- **An open ceremony keeps its key** under every step that replaces none. -/
theorem held_step (hheld : Held w) {o : Op} (hkept : KeepsKeys lib w o) : Held (step lib w o) := by
  intro file state hfile
  have hstays : w.pending file = some state → ∃ signer, (step lib w o).keys state.keyRef = .ok signer ∧
      signer.publicKey = state.csr.publicKey := by
    intro hbefore
    rw [hkept file state hbefore hfile]
    exact hheld file state hbefore
  cases o with
  | prepare env name alg operator witness =>
    rcases prepareIssuing_pending env name alg operator witness w with hsame | ⟨signer, opened, href, hkey, hpending, hkeys⟩
    · apply hstays
      rw [← hsame]
      exact hfile
    · by_cases hnew : file = lib.path name
      · subst hnew
        change (prepareIssuing lib env name alg operator witness w).2.pending _ = _ at hfile
        rw [hpending, Function.update_self] at hfile
        obtain rfl := Option.some.inj hfile
        refine ⟨signer, ?_, hkey.symm⟩
        show (prepareIssuing lib env name alg operator witness w).2.keys opened.keyRef = _
        rw [hkeys, href, Function.update_self]
      · apply hstays
        change (prepareIssuing lib env name alg operator witness w).2.pending _ = _ at hfile
        rwa [hpending, Function.update_of_ne hnew] at hfile
  | importIssuing env rename name certPem rootPem operator witness rootName =>
    apply hstays
    exact (@caImportIssuing_pending lib env rename name certPem rootPem operator witness rootName w).2 file state hfile
  | other d keys => exact hstays hfile

/-- what an import finds where every open ceremony's reference loads its key -/
theorem importIssuing_checked (hheld : Held w) {env : Env} {signedBy : X509Cert → PublicKey → Prop}
    (hsig : ChecksSignatures env signedBy) {rename : String → Except String Unit}
    {name certPem rootPem operator witness rootName : String} {state : Pending}
    (hopen : w.pending (lib.path name) = some state) {receipt : Receipt} {s : Session Db}
    {pending : String → Option Pending}
    (h : importIssuing lib env rename name certPem rootPem operator witness rootName w = (.ok receipt, s, pending)) :
    ∃ cert root, env.loadPemCert certPem = some cert ∧ env.loadPemCert rootPem = some root ∧
      Chains lib env signedBy state.csr.publicKey.spki cert root ∧ KnownAs env w.d rootName root := by
  obtain ⟨hrows, -⟩ := importIssuing_ok h
  have hsig' : ChecksSignatures { env with keystoreLoad := w.keys } signedBy := hsig
  obtain ⟨state', cert, root, signer, hstate, hcert, hroot, hload, hchains, -, hknown⟩ := importRows_ok hsig' hrows
  obtain rfl := Option.some.inj (hopen.symm.trans hstate)
  obtain ⟨signer', hkeys, hkey⟩ := hheld _ _ hopen
  have hsame : signer' = signer := Except.ok.inj (hkeys.symm.trans hload)
  rw [← hsame, hkey] at hchains
  obtain ⟨ext, hvalid, hpath, hours⟩ := hchains.valid
  have hchains' : Chains lib env signedBy state.csr.publicKey.spki cert root :=
    { rootNamed := hchains.rootNamed
      rootSigned := hchains.rootSigned
      rootValid := hchains.rootValid
      named := hchains.named
      signed := hchains.signed
      valid := ⟨ext, hvalid, hpath, hours.key, hours.constraints⟩
      outlived := hchains.outlived }
  exact ⟨cert, root, hcert, hroot, hchains', hknown⟩

/-- **What an import checks, in every state a run reaches that replaces no key of an open ceremony.** One that returns has
been given an issuing CA with the key generated for the ceremony, under a valid self-signed root that is the one known
under its name; one that raises, once rolled back, has stored nothing and left the ceremony open. -/
theorem import_checks_ceremony (hfresh : ∀ file, w.pending file = none) {ops : List Op}
    (hkept : Along (step lib) (KeepsKeys lib) w ops) {env : Env} {signedBy : X509Cert → PublicKey → Prop}
    (hsig : ChecksSignatures env signedBy) (rename : String → Except String Unit)
    (name certPem rootPem operator witness rootName : String) {state : Pending}
    (hopen : (run (step lib) w ops).pending (lib.path name) = some state) :
    (∀ receipt s pending,
      importIssuing lib env rename name certPem rootPem operator witness rootName (run (step lib) w ops) =
        (.ok receipt, s, pending) →
      ∃ cert root, env.loadPemCert certPem = some cert ∧ env.loadPemCert rootPem = some root ∧
        Chains lib env signedBy state.csr.publicKey.spki cert root ∧
        KnownAs env (run (step lib) w ops).d rootName root) ∧
    ∀ e s pending,
      importIssuing lib env rename name certPem rootPem operator witness rootName (run (step lib) w ops) =
        (.error e, s, pending) →
      s.committed = (run (step lib) w ops).d ∧ pending (lib.path name) = some state := by
  have hheld : Held (run (step lib) w ops) := by
    refine run_inv (I := Held) (C := KeepsKeys lib) (fun _ _ hheld hkept => held_step hheld hkept) ?_ hkept
    intro file state hfile
    rw [hfresh file] at hfile
    cases hfile
  constructor
  · intro receipt s pending hrun
    exact importIssuing_checked hheld hsig hopen hrun
  · intro e s pending hrun
    obtain ⟨hcommitted, rfl⟩ := importIssuing_raises hrun
    exact ⟨hcommitted, hopen⟩

end Runs

section Examples

/-- a certificate of the ceremony: every one of them is signed with the root's key -/
def ceremonyCert (cn spki : String) (pathLength : ℕ) (permitted : List String) (pem : String) : X509Cert :=
  ⟨⟨1, "Root", some "Org", some cn, some (demoKey spki), 0, 10 ^ 9, true, some pathLength, [], [], none, none, permitted, []⟩,
    ⟨pem, pem ++ "-fp", "1.2.840.10045.4.3.2", some "sha256"⟩, false⟩

/-- the root, the certificate of the key generated for `issuing-ca-1`, and that of another key -/
def ceremonyPem (pem : String) : Option X509Cert :=
  if pem = "root-pem" then some (ceremonyCert "Root" "root-key" 1 [] pem)
  else if pem = "issuing-pem" then some (ceremonyCert "Issuing" "issuing-ca-1" 0 ["corp.example"] pem)
  else if pem = "release-pem" then some (ceremonyCert "Issuing" "release" 0 [] pem)
  else none

def ceremonyEnv (permittedDns : List String) : Env :=
  { demoEnv with
    loadPemCert := ceremonyPem
    verifyDirectlyIssuedBy := fun _ root => root.tbs.publicKey = some (demoKey "root-key")
    caPermittedDns := permittedDns }

def ceremonyLib : CertLib where
  subject c := c.tbs.commonName.getD ""
  issuer c := c.tbs.issuer
  extensions c := .ok ⟨some ⟨c.tbs.ca, c.tbs.pathLength⟩, some ⟨true, true⟩,
    if c.tbs.permitted = [] then none else some ⟨some (c.tbs.permitted.map .dns), none⟩⟩
  dnsName := .ok
  rfc822Name := .ok
  signCsr _ _ := .ok ()
  isoformat _ := ""
  path name := name ++ ".json"

def ceremonySigned (_ : X509Cert) (pub : PublicKey) : Prop := pub = demoKey "root-key"

def noCeremony : World := ⟨Db.empty, fun _ => .error "no key", fun _ => none⟩

/-- a ceremony is opened, and the root signs its request -/
def opening (env : Env) (name : String) : List Op := [.prepare env name "ec-p384" "alice" "bob"]

def imported (env : Env) (name certPem : String) (ops : List Op) : Except Err Receipt × Session Db × (String → Option Pending) :=
  importIssuing ceremonyLib env (fun _ => .ok ()) name certPem "root-pem" "alice" "bob" "root-ca"
    (run (step ceremonyLib) noCeremony ops)

def issuingReceipt : Receipt := ⟨"issuing-ca-1", "issuing-pem-fp", "root-ca", "root-pem-fp", "", "file"⟩

/-- the import of a genuine certificate, with the name constraints the server requires -/
theorem genuine_import_checked :
    ∃ cert root, ceremonyPem "issuing-pem" = some cert ∧ ceremonyPem "root-pem" = some root ∧
      Chains ceremonyLib (ceremonyEnv ["*.corp.example"]) ceremonySigned "issuing-ca-1" cert root ∧
      KnownAs (ceremonyEnv ["*.corp.example"])
        (run (step ceremonyLib) noCeremony (opening (ceremonyEnv ["*.corp.example"]) "issuing-ca-1")).d "root-ca" root := by
  have hkept : Along (step ceremonyLib) (KeepsKeys ceremonyLib) noCeremony
      (opening (ceremonyEnv ["*.corp.example"]) "issuing-ca-1") := by
    refine ⟨fun file state hfile _ => ?_, trivial⟩
    cases hfile
  have hsig : ChecksSignatures (ceremonyEnv ["*.corp.example"]) ceremonySigned := by
    intro cert issuer h
    exact ⟨demoKey "root-key", of_decide_eq_true h, rfl⟩
  have hopen : (run (step ceremonyLib) noCeremony (opening (ceremonyEnv ["*.corp.example"]) "issuing-ca-1")).pending
      (ceremonyLib.path "issuing-ca-1") =
      some ⟨"issuing-ca-1", "file", ⟨"Org Issuing CA issuing-ca-1", demoKey "issuing-ca-1", ⟨true, some 0⟩,
        some ⟨some [.dns "corp.example"], none⟩⟩, "sha256:issuing-ca-1", "alice", "bob"⟩ := by
    decide +kernel
  have hreturns : (imported (ceremonyEnv ["*.corp.example"]) "issuing-ca-1" "issuing-pem"
      (opening (ceremonyEnv ["*.corp.example"]) "issuing-ca-1")).1 = .ok issuingReceipt := by
    decide +kernel
  exact (import_checks_ceremony (fun _ => rfl) hkept hsig (fun _ => .ok ()) "issuing-ca-1" "issuing-pem" "root-pem" "alice"
    "bob" "root-ca" hopen).1 issuingReceipt _ _ (Prod.ext hreturns rfl)

/-- the key store's keys after another key was generated under the reference of an open ceremony -/
def replacedKeys (ref : String) : Except String Signer :=
  if ref = "codesign-release" then .ok ⟨"codesign-release", "file", demoKey "release"⟩ else .error "no key"

def afterReplacement : List Op := opening (ceremonyEnv []) "codesign-release" ++ [.other Db.empty replacedKeys]

/-- **A server that requires no name constraints imports a CA that has some**; and where another key was generated under
the ceremony's reference, it imports a CA with that key, which is not the one the ceremony was opened for. -/
theorem import_accepts_other_constraints :
    (imported (ceremonyEnv []) "issuing-ca-1" "issuing-pem" (opening (ceremonyEnv []) "issuing-ca-1")).1 = .ok issuingReceipt ∧
      caNameConstraints ceremonyLib (ceremonyEnv []) = .ok none ∧
      (ceremonyPem "issuing-pem").map (fun c => (ceremonyLib.extensions c).map (·.nameConstraints)) =
        some (.ok (some ⟨some [.dns "corp.example"], none⟩)) ∧
      (imported (ceremonyEnv []) "codesign-release" "release-pem" afterReplacement).1.isOk = true ∧
      ((run (step ceremonyLib) noCeremony afterReplacement).pending "codesign-release.json").map (·.csr.publicKey.spki) =
        some "codesign-release" ∧
      ((ceremonyPem "release-pem").bind (·.tbs.publicKey)).map (·.spki) = some "release" := by
  decide +kernel

end Examples

end Certadillo.Ceremony.Import
