/-
A certificate template on its way through an approval (`policy/engine.py`, `TemplateRequest`; `enrollment/cmp.py`,
`_template`).

A CMP request that needs a second approver waits as JSON: the DER of its subject, key and subjectAltName, base64. They are
read back through an unsigned CSR that is built around them, since the library has no parser for the parts.

- `throwaway_eq`: what is built is a PKCS#10 request with just this subject and this extension.
- `fromPayload_toPayload`: what is read back is the template that was written.
- `approved_is_requested`: so an approval is evaluated over the subject, the key and the SANs that were requested, and comes
  to the decision that was made at the time of the request as long as the policy stays.

Premises: the library reads back what it has encoded itself, alone or in a PKCS#10 request (`Documented`).
-/
import Certadillo.Crypto.Der
import Certadillo.Enrollment.Cmp
import Certadillo.Lib.Base64
import Certadillo.Lib.JsonText
import Certadillo.Policy.Narrowing
import Certadillo.Services.Approvals

namespace Certadillo.TemplateRequests

open Bytes Crypto.Der Platform Policy Py
open Cmp (BAD_CERT_TEMPLATE)

/-! ## Model -/

/-- a general name, as its kind's value is read -/
inductive GeneralName where
  | dns (value : String)
  | email (value : String)
  | uri (value : String)
  | ip (value : String)
  /-- its type, and its text if that is a UTF8String -/
  | otherName (typeId : String) (utf8 : Option String)
  | directoryName (value : String)
  | registeredId (oid : String)
deriving DecidableEq

def UPN_OTHERNAME_OID : String := "1.3.6.1.4.1.311.20.2.3"

/-- an extension of a request -/
inductive Extension (SubjectAltName : Type) where
  | subjectAltName (critical : Bool) (value : SubjectAltName)
  | other (oid : String) (critical : Bool)

/-- a CSR that the library has loaded; its extensions are read when they are asked for -/
structure LoadedCsr (Name SubjectAltName : Type) where
  subject : Name
  extensions : Except Err (List (Extension SubjectAltName))

structure Library (Name Key SubjectAltName : Type) where
  /-- `Name.public_bytes()` -/
  nameBytes : Name → Octets
  /-- the common names of a subject, in order -/
  commonNames : Name → List String
  /-- `public_bytes(DER, SubjectPublicKeyInfo)` -/
  keyBytes : Key → Octets
  /-- what is read of a key -/
  publicKey : Key → PublicKey
  loadDerPublicKey : Octets → Except Err Key
  /-- `SubjectAlternativeName.public_bytes()` -/
  sanBytes : SubjectAltName → Octets
  /-- the names of the extension, in order -/
  generalNames : SubjectAltName → List GeneralName
  loadDerX509Csr : Octets → Except Err (LoadedCsr Name SubjectAltName)

/-- `TemplateRequest`: the only extension it has is the subjectAltName -/
structure TemplateRequest (Name Key SubjectAltName : Type) where
  subject : Name
  publicKey : Key
  san : Option SubjectAltName
deriving DecidableEq

section Model

variable {Name Key SubjectAltName : Type} (lib : Library Name Key SubjectAltName)

/-- `base64.b64encode(b).decode()` -/
def b64encode (b : Octets) : String := String.ofList (Base64.encode b)

def b64decode (s : String) : Except Err Octets :=
  match Base64.decode s.toList with
  | some b => .ok b
  | none => .error (.value "Incorrect padding")

/-- a P-256 key whose point is a placeholder -/
def spki : Octets :=
  [0x30, 0x59, 0x30, 0x13, 0x06, 0x07, 0x2a, 0x86, 0x48, 0xce, 0x3d, 0x02, 0x01, 0x06, 0x08, 0x2a, 0x86, 0x48, 0xce, 0x3d,
    0x03, 0x01, 0x07, 0x03, 0x42, 0x00, 0x04] ++ List.replicate 64 0x01

/-- the CSR of `_parse_via_csr` -/
def throwaway (subjectDer : Octets) (extensionsDer : Option Octets) : Octets :=
  let attrs :=
    match extensionsDer with
    | some der => tlv 0x30 (tlv 0x06 [0x2a, 0x86, 0x48, 0x86, 0xf7, 0x0d, 0x01, 0x09, 0x0e] ++ tlv 0x31 der)
    | none => []
  let cri := tlv 0x30 ([0x02, 0x01, 0x00] ++ subjectDer ++ spki ++ tlv 0xA0 attrs)
  let alg := tlv 0x30 (tlv 0x06 [0x2a, 0x86, 0x48, 0xce, 0x3d, 0x04, 0x03, 0x02])
  tlv 0x30 (cri ++ alg ++ tlv 0x03 ([0x00] ++ [0x30, 0x06, 0x02, 0x01, 0x01, 0x02, 0x01, 0x01]))

/-- `_parse_via_csr` -/
def parseViaCsr (subjectDer : Octets) (extensionsDer : Option Octets) : Except Err (LoadedCsr Name SubjectAltName) :=
  lib.loadDerX509Csr (throwaway subjectDer extensionsDer)

def nameFromDer (der : Octets) : Except Err Name := do
  let csr ← parseViaCsr lib der none
  pure csr.subject

def extensionsFromDer (der : Octets) : Except Err (List (Extension SubjectAltName)) := do
  let csr ← parseViaCsr lib [0x30, 0x00] (some der)
  csr.extensions

/-- `get_extension_for_class(SubjectAlternativeName)`, if there is one -/
def findSan (exts : List (Extension SubjectAltName)) : Option SubjectAltName :=
  exts.findSome? fun
    | .subjectAltName _ value => some value
    | .other _ _ => none

/-- `_san_from_der` -/
def sanFromDer (der : Octets) : Except Err SubjectAltName := do
  let exts ← extensionsFromDer lib (tlv 0x30 (tlv 0x30 (tlv 0x06 [0x55, 0x1d, 0x11] ++ tlv 0x04 der)))
  match findSan exts with
  | some san => pure san
  | none => throw (.other "No subjectAltName extension was found")

/-- the extension in a payload -/
def sanPayload (san : Option SubjectAltName) : Json :=
  match san.map lib.sanBytes with
  | none => .null
  | some der => if der = [] then .null else .str (b64encode der)

/-- `TemplateRequest.to_payload` -/
def toPayload (t : TemplateRequest Name Key SubjectAltName) : Json :=
  .obj [("subject", .str (b64encode (lib.nameBytes t.subject))), ("spki", .str (b64encode (lib.keyBytes t.publicKey))),
    ("san", sanPayload lib t.san)]

def sanFromPayload (d : Json) : Except Err (Option SubjectAltName) := do
  let san ← dget d "san"
  if truthy san then do
    let der ← b64decode (← toStr san)
    let san ← sanFromDer lib der
    pure (some san)
  else pure none

/-- `TemplateRequest.from_payload` -/
def fromPayload (d : Json) : Except Err (TemplateRequest Name Key SubjectAltName) := do
  let san ← sanFromPayload lib d
  let subject ← nameFromDer lib (← b64decode (← toStr (← item d "subject")))
  let publicKey ← lib.loadDerPublicKey (← b64decode (← toStr (← item d "spki")))
  pure ⟨subject, publicKey, san⟩

/-- what the policy engine and the CA read of the names -/
def sanOf (names : List GeneralName) : San where
  dns := names.filterMap fun
    | .dns v => some v
    | _ => none
  uris := names.filterMap fun
    | .uri v => some v
    | _ => none
  emails := names.filterMap fun
    | .email v => some v
    | _ => none
  ips := names.filterMap fun
    | .ip v => some v
    | _ => none
  upns := names.filterMap fun
    | .otherName typeId utf8 => if typeId = UPN_OTHERNAME_OID then some utf8 else none
    | _ => none

/-- the template as the policy engine sees it -/
def TemplateRequest.csr (t : TemplateRequest Name Key SubjectAltName) : Csr :=
  .template (lib.commonNames t.subject) (lib.publicKey t.publicKey) (t.san.map fun s => sanOf (lib.generalNames s))

/-! ### The CMP front end -/

/-- the DER of a certificate template's fields, as they are tagged in it -/
structure CertTemplate where
  publicKey : Option Octets
  subject : Option Octets
  extensions : Option Octets

/-- the certificate that is updated -/
structure OldCertificate (Name SubjectAltName : Type) where
  subject : Name
  extensions : List (Extension SubjectAltName)

/-- Content of a TLV (drop an EXPLICIT tag wrapper). -/
def inner (der : Octets) : Except Err Octets := do
  let (length, pos) ← readLen der 1
  pure (slice der pos (pos + length))

/-- Undo an IMPLICIT tag on a constructed type. -/
def retag (der : Octets) : Octets := 0x30 :: der.drop 1

/-- `_template` -/
def template (tmpl : CertTemplate) (old : Option (OldCertificate Name SubjectAltName)) :
    Except Err (TemplateRequest Name Key SubjectAltName) :=
  match tmpl.publicKey with
  | none => .error (.cmp BAD_CERT_TEMPLATE "the template has no public key (central key generation is not offered)")
  | some key => do
    let pub ← match lib.loadDerPublicKey (retag key) with
      | .ok pub => pure pub
      | .error (.value _) => throw (.cmp BAD_CERT_TEMPLATE "cannot read the template public key")
      | .error e => throw e
    let subject ← match tmpl.subject, old with
      | some der, _ => do nameFromDer lib (← inner der)
      | none, some old => pure old.subject
      | none, none => throw (.cmp BAD_CERT_TEMPLATE "the template has no subject")
    let own ← match tmpl.extensions with
      | some der => do
        let parsed ← extensionsFromDer lib (retag der)
        pure (findSan parsed)
      | none => pure none
    pure ⟨subject, pub, own.or (old.bind fun c => findSan c.extensions)⟩

/-! ### The approval -/

/-- the options of a request that is held for approval -/
structure Held where
  appId : ℕ
  profile : String
  days : Option ℤ
  hours : Option ℤ
  protocol : String
  previousId : Option ℕ
  popVerified : Bool

def ofInt? : Option ℤ → Json
  | none => .null
  | some n => .num n

/-- the payload of the approval that `request_certificate` asks for -/
def approvalPayload (r : Held) (t : TemplateRequest Name Key SubjectAltName) : Json :=
  .obj [("app_id", .num r.appId), ("csr_pem", .null), ("template", toPayload lib t), ("profile", .str r.profile),
    ("days", ofInt? r.days), ("hours", ofInt? r.hours), ("protocol", .str r.protocol),
    ("previous_id", .ofNat? r.previousId), ("pop_verified", .bool r.popVerified)]

/-- the request of an approval that is carried out -/
def approvedCsr (env : Env) (a : IssueArgs) : Except Err Csr :=
  if truthy a.template then do
    let t ← fromPayload lib a.template
    pure (t.csr lib)
  else a.csr env

/-- the issue_certificate branch of `_execute`, up to the decision -/
def approvedDecision (env : Env) (d : Db) (payload : Json) : Except Err Decision := do
  let a ← IssueArgs.ofPayload payload
  match d.apps.get a.appId with
  | none => throw (.attribute "'NoneType' object has no attribute 'allowed_domains'")
  | some app => do
    let csr ← approvedCsr lib env a
    evaluateRequest env d csr app a.profile a.days a.hours none a.popVerified

end Model

/-! ### The stored text -/

mutual

def value : Json → JsonText.Value
  | .null => .null
  | .bool b => .bool b
  | .num n => .int n
  | .str s => .str s
  | .arr xs => .arr (values xs)
  | .obj kvs => .obj (fields kvs)

def values : List Json → List JsonText.Value
  | [] => []
  | x :: xs => value x :: values xs

def fields : List (String × Json) → List (String × JsonText.Value)
  | [] => []
  | (k, x) :: kvs => (k, value x) :: fields kvs

end

/-- the text of a JSON column, blanks aside -/
def text (j : Json) : JsonText.Text := JsonText.print (value j)

mutual

theorem value_injective : ∀ a b : Json, value a = value b → a = b
  | .null, b => by cases b <;> simp [value]
  | .bool x, b => by cases b <;> simp [value]
  | .num n, b => by cases b <;> simp [value]
  | .str s, b => by cases b <;> simp [value]
  | .arr xs, b => by
    cases b with
    | arr ys => simpa [value] using values_injective xs ys
    | _ => simp [value]
  | .obj xs, b => by
    cases b with
    | obj ys => simpa [value] using fields_injective xs ys
    | _ => simp [value]

theorem values_injective : ∀ a b : List Json, values a = values b → a = b
  | [], b => by cases b <;> simp [values]
  | x :: xs, b => by
    cases b with
    | nil => simp [values]
    | cons y ys =>
      intro h
      obtain ⟨h1, h2⟩ := List.cons.inj h
      rw [value_injective x y h1, values_injective xs ys h2]

theorem fields_injective : ∀ a b : List (String × Json), fields a = fields b → a = b
  | [], b => by cases b <;> simp [fields]
  | (k, x) :: xs, b => by
    cases b with
    | nil => simp [fields]
    | cons y ys =>
      obtain ⟨l, y⟩ := y
      intro h
      obtain ⟨hfirst, hrest⟩ := List.cons.inj h
      obtain ⟨rfl, hvalue⟩ := Prod.mk.inj hfirst
      rw [value_injective x y hvalue, fields_injective xs ys hrest]

end

/-- what is read of the stored text is what was stored -/
theorem text_injective {a b : Json} (h : text a = text b) : a = b := by
  apply value_injective
  exact (JsonText.print_unambiguous _ _ JsonText.stops_nil JsonText.stops_nil
    (congrArg (· ++ []) h)).1

/-! ## What the library documents -/

/-- the base-128 digits of an arc, the last one without its continuation bit -/
def arcBytes (n : ℕ) : Octets :=
  match (Nat.digits 128 n).reverse with
  | [] => [0]
  | ds => ds.dropLast.map (fun d => UInt8.ofNat (128 + d)) ++ [UInt8.ofNat (n % 128)]

/-- X.690 object identifiers -/
def oid : List ℕ → Octets
  | a :: b :: arcs => tlv 0x06 (arcBytes (40 * a + b) ++ arcs.flatMap arcBytes)
  | _ => []

def sequence (parts : List Octets) : Octets := tlv 0x30 parts.flatten

def setOf (parts : List Octets) : Octets := tlv 0x31 parts.flatten

def octetString (contents : Octets) : Octets := tlv 0x04 contents

/-- whole octets -/
def bitString (contents : Octets) : Octets := tlv 0x03 (0x00 :: contents)

def integer (n : ℕ) : Octets := tlv 0x02 [UInt8.ofNat n]

/-- a key on P-256 -/
def subjectPublicKeyInfo (point : Octets) : Octets :=
  sequence [sequence [oid [1, 2, 840, 10045, 2, 1], oid [1, 2, 840, 10045, 3, 1, 7]], bitString point]

/-- PKCS#10 (RFC 2986), version 1 -/
def certificationRequest (subject key : Octets) (attributes : List Octets) (algorithm signature : Octets) : Octets :=
  sequence [sequence [integer 0, subject, key, tlv 0xA0 attributes.flatten], algorithm, signature]

/-- the extensionRequest attribute with a subjectAltName that is not critical -/
def extensionRequest (san : Octets) : Octets :=
  sequence [oid [1, 2, 840, 113549, 1, 9, 14], setOf [sequence [sequence [oid [2, 5, 29, 17], octetString san]]]]

def placeholderPoint : Octets := 0x04 :: List.replicate 64 0x01

/-- an ECDSA signature of one and one -/
def placeholderSignature : Octets := bitString (sequence [integer 1, integer 1])

def ecdsaWithSha256 : Octets := sequence [oid [1, 2, 840, 10045, 4, 3, 2]]

variable {Name Key SubjectAltName : Type} {lib : Library Name Key SubjectAltName}

structure Documented (lib : Library Name Key SubjectAltName) : Prop where
  /-- a key in DER is read back -/
  key : ∀ k, lib.loadDerPublicKey (lib.keyBytes k) = .ok k
  /-- the empty name -/
  noName : ∃ n, lib.nameBytes n = sequence []
  /-- a subjectAltName is a SEQUENCE -/
  sanBytes : ∀ s, ∃ names, lib.sanBytes s = sequence names
  /-- a PKCS#10 request with a subject and at most a subjectAltName is read back; its signature is not checked -/
  csr : ∀ n (s : Option SubjectAltName), ∃ csr,
    lib.loadDerX509Csr (certificationRequest (lib.nameBytes n) (subjectPublicKeyInfo placeholderPoint)
      (s.toList.map fun s => extensionRequest (lib.sanBytes s)) ecdsaWithSha256 placeholderSignature) = .ok csr ∧
    csr.subject = n ∧ csr.extensions = .ok (s.toList.map (.subjectAltName false))

/-! ## The throwaway CSR -/

theorem spki_eq : spki = subjectPublicKeyInfo placeholderPoint := by decide +kernel

theorem oid_extensionRequest : tlv 0x06 [0x2a, 0x86, 0x48, 0x86, 0xf7, 0x0d, 0x01, 0x09, 0x0e] =
    oid [1, 2, 840, 113549, 1, 9, 14] := by decide +kernel

theorem oid_subjectAltName : tlv 0x06 [0x55, 0x1d, 0x11] = oid [2, 5, 29, 17] := by decide +kernel

theorem oid_ecdsaWithSha256 : tlv 0x06 [0x2a, 0x86, 0x48, 0xce, 0x3d, 0x04, 0x03, 0x02] =
    oid [1, 2, 840, 10045, 4, 3, 2] := by decide +kernel

/-- around a name: a PKCS#10 request with this subject and no attribute -/
theorem throwaway_name (subject : Octets) : throwaway subject none =
    certificationRequest subject (subjectPublicKeyInfo placeholderPoint) [] ecdsaWithSha256 placeholderSignature := by
  unfold throwaway certificationRequest ecdsaWithSha256
  rw [oid_ecdsaWithSha256, spki_eq]
  simp only [sequence, List.flatten_cons, List.flatten_nil, List.append_nil, List.append_assoc]
  rfl

/-- around an extension: one that asks for a subjectAltName -/
theorem throwaway_san (san : Octets) :
    throwaway [0x30, 0x00] (some (tlv 0x30 (tlv 0x30 (tlv 0x06 [0x55, 0x1d, 0x11] ++ tlv 0x04 san)))) =
      certificationRequest (sequence []) (subjectPublicKeyInfo placeholderPoint) [extensionRequest san] ecdsaWithSha256
        placeholderSignature := by
  unfold throwaway certificationRequest ecdsaWithSha256 extensionRequest
  rw [oid_ecdsaWithSha256, oid_extensionRequest, oid_subjectAltName, spki_eq]
  simp only [sequence, setOf, octetString, List.flatten_cons, List.flatten_nil, List.append_nil, List.append_assoc]
  rfl

section Documented

variable (hlib : Documented lib)
include hlib

theorem nameFromDer_nameBytes (n : Name) : nameFromDer lib (lib.nameBytes n) = .ok n := by
  obtain ⟨csr, hcsr, hsubject, -⟩ := hlib.csr n none
  unfold nameFromDer parseViaCsr
  rw [throwaway_name]
  have hload : lib.loadDerX509Csr (certificationRequest (lib.nameBytes n) (subjectPublicKeyInfo placeholderPoint) []
      ecdsaWithSha256 placeholderSignature) = .ok csr := hcsr
  rw [hload, ← hsubject]
  rfl

theorem sanFromDer_sanBytes (s : SubjectAltName) : sanFromDer lib (lib.sanBytes s) = .ok s := by
  obtain ⟨noName, hno⟩ := hlib.noName
  obtain ⟨csr, hcsr, -, hexts⟩ := hlib.csr noName (some s)
  unfold sanFromDer extensionsFromDer parseViaCsr
  rw [throwaway_san, ← hno]
  have hload : lib.loadDerX509Csr (certificationRequest (lib.nameBytes noName) (subjectPublicKeyInfo placeholderPoint)
      [extensionRequest (lib.sanBytes s)] ecdsaWithSha256 placeholderSignature) = .ok csr := hcsr
  rw [hload]
  dsimp only [bind, Except.bind]
  rw [hexts]
  rfl

omit hlib in
theorem b64decode_b64encode (b : Octets) : b64decode (b64encode b) = .ok b := by
  unfold b64decode b64encode
  rw [String.toList_ofList, Base64.decode_encode]

omit hlib in
theorem b64encode_ne_empty {b : Octets} (hb : b ≠ []) : b64encode b ≠ "" := by
  intro h
  have hdecode := b64decode_b64encode b
  rw [h] at hdecode
  exact hb (Except.ok.inj hdecode).symm

theorem sanFromPayload_toPayload (t : TemplateRequest Name Key SubjectAltName) :
    sanFromPayload lib (toPayload lib t) = .ok t.san := by
  have hget : dget (toPayload lib t) "san" = .ok (sanPayload lib t.san) := rfl
  unfold sanFromPayload
  rw [hget]
  dsimp only [bind, Except.bind]
  cases hs : t.san with
  | none => rfl
  | some s =>
    have hne : lib.sanBytes s ≠ [] := by
      obtain ⟨names, hnames⟩ := hlib.sanBytes s
      rw [hnames]
      exact List.cons_ne_nil _ _
    have hpayload : sanPayload lib (some s) = .str (b64encode (lib.sanBytes s)) := if_neg hne
    have htruthy : truthy (.str (b64encode (lib.sanBytes s))) = true := by
      simp [truthy, b64encode_ne_empty hne]
    rw [hpayload, if_pos htruthy]
    dsimp only [toStr]
    rw [b64decode_b64encode]
    dsimp only
    rw [sanFromDer_sanBytes hlib]
    rfl

/-- **The round trip.** A template is read back as it was written: its subject, its key and its SANs in their order. -/
theorem fromPayload_toPayload (t : TemplateRequest Name Key SubjectAltName) : fromPayload lib (toPayload lib t) = .ok t := by
  have hsubject : item (toPayload lib t) "subject" = .ok (.str (b64encode (lib.nameBytes t.subject))) := rfl
  have hspki : item (toPayload lib t) "spki" = .ok (.str (b64encode (lib.keyBytes t.publicKey))) := rfl
  unfold fromPayload
  rw [sanFromPayload_toPayload hlib, hsubject, hspki]
  dsimp only [bind, Except.bind, toStr]
  rw [b64decode_b64encode, b64decode_b64encode]
  dsimp only
  rw [nameFromDer_nameBytes hlib, hlib.key]
  rfl

end Documented

/-! ## The decision -/

section Decision

variable {lower : Chars → Chars} {sha256 : String → String} {pol : Policies} {csr : Csr} {profileName : String}
  {scope : List String} {days hours : Option ℤ} {previousFp : Option String} {popVerified : Bool} {decision : Decision}

/-- a request that is granted breaks no rule about its key -/
theorem evaluate_keyViolations {prof : Profile} {pub : PublicKey} (hprof : profile pol profileName = .ok prof)
    (hpub : csr.publicKey = .ok pub)
    (h : evaluate lower sha256 pol csr profileName scope days hours previousFp popVerified = .ok decision) :
    keyViolations sha256 csr pub prof previousFp popVerified = [] := by
  unfold evaluate at h
  obtain ⟨prof', hprof', h⟩ := except_bind_ok.1 h
  obtain rfl := Except.ok.inj (hprof'.symm.trans hprof)
  rw [hpub] at h
  dsimp only at h
  split at h
  · unfold evaluateWindowsLogon at h
    obtain ⟨upns, -, h⟩ := except_bind_ok.1 h
    obtain ⟨n, -, h⟩ := except_bind_ok.1 h
    obtain ⟨most, -, h⟩ := except_bind_ok.1 h
    have hnil := List.isEmpty_iff.1 (of_check h).1
    simp only [List.append_eq_nil_iff] at hnil
    exact hnil.1.1.1.1
  · obtain ⟨⟨vval, validity⟩, -, h⟩ := except_bind_ok.1 h
    have hnil := List.isEmpty_iff.1 (pure_of_check h).1
    simp only [List.append_eq_nil_iff] at hnil
    exact hnil.1.1.1.1.1

/-- what is granted as an update is granted without the certificate it updates -/
theorem evaluate_noPrevious
    (h : evaluate lower sha256 pol csr profileName scope days hours previousFp popVerified = .ok decision) :
    evaluate lower sha256 pol csr profileName scope days hours none popVerified = .ok decision := by
  obtain ⟨pub, hpub⟩ := Folders.evaluate_key h
  have hwhole := h
  unfold evaluate at h
  obtain ⟨prof, hprof, -⟩ := except_bind_ok.1 h
  have hkeys := evaluate_keyViolations hprof hpub hwhole
  have hnone : keyViolations sha256 csr pub prof none popVerified = [] := by
    unfold keyViolations at hkeys ⊢
    simp only [List.append_eq_nil_iff] at hkeys ⊢
    refine ⟨hkeys.1, ?_⟩
    simp
  unfold evaluate at hwhole ⊢
  rw [hprof] at hwhole ⊢
  dsimp only [bind, Except.bind] at hwhole ⊢
  rw [hpub] at hwhole ⊢
  dsimp only at hwhole ⊢
  rw [hkeys] at hwhole
  rw [hnone]
  exact hwhole

end Decision

/-- the policy has not changed for the app: the profiles, its scope, and what its folder comes to -/
structure SamePolicy (env : Env) (d : Db) (env' : Env) (d' : Db) (app app' : App) : Prop where
  lower : env'.lower = env.lower
  sha256 : env'.sha256 = env.sha256
  policies : env'.policies = env.policies
  scope : app'.allowedDomains = app.allowedDomains
  folder : Folders.effective d'.folders app'.folderId = Folders.effective d.folders app.folderId

theorem evaluateRequest_same {env env' : Env} {d d' : Db} {app app' : App} (hsame : SamePolicy env d env' d' app app')
    (csr : Csr) (profileName : String) (days hours : Option ℤ) (previousFp : Option String) (popVerified : Bool) :
    evaluateRequest env' d' csr app' profileName days hours previousFp popVerified =
      evaluateRequest env d csr app profileName days hours previousFp popVerified := by
  unfold evaluateRequest
  rw [hsame.lower, hsame.sha256, hsame.policies, hsame.scope, hsame.folder]

theorem evaluateRequest_noPrevious {env : Env} {d : Db} {csr : Csr} {app : App} {profileName : String}
    {days hours : Option ℤ} {previousFp : Option String} {popVerified : Bool} {decision : Decision}
    (h : evaluateRequest env d csr app profileName days hours previousFp popVerified = .ok decision) :
    evaluateRequest env d csr app profileName days hours none popVerified = .ok decision := by
  unfold evaluateRequest at h ⊢
  obtain ⟨first, hfirst, h⟩ := except_bind_ok.1 h
  rw [evaluate_noPrevious hfirst]
  exact h

/-- the arguments of the approval, as they were written -/
theorem ofPayload_approvalPayload (lib : Library Name Key SubjectAltName) (r : Held) (t : TemplateRequest Name Key SubjectAltName) :
    IssueArgs.ofPayload (approvalPayload lib r t) = .ok
      ⟨r.appId, toPayload lib t, .null, r.profile, r.days, r.hours, r.popVerified, r.protocol, r.previousId.filter (· ≠ 0)⟩ := by
  have hdays : ∀ o : Option ℤ, toInt? (ofInt? o) = .ok o := by
    intro o
    cases o <;> rfl
  have hprevious : ∀ o : Option ℕ, toId? (.ofNat? o) = .ok o := by
    intro o
    cases o with
    | none => rfl
    | some n => simp [Json.ofNat?, toId?]
  have hprotocol : dget (approvalPayload lib r t) "protocol" = .ok (.str r.protocol) := rfl
  have happ : item (approvalPayload lib r t) "app_id" = .ok (.num r.appId) := rfl
  have htemplate : dget (approvalPayload lib r t) "template" = .ok (toPayload lib t) := rfl
  have hpem : dget (approvalPayload lib r t) "csr_pem" = .ok .null := rfl
  have hprofile : item (approvalPayload lib r t) "profile" = .ok (.str r.profile) := rfl
  have hdays' : dget (approvalPayload lib r t) "days" = .ok (ofInt? r.days) := rfl
  have hhours : dget (approvalPayload lib r t) "hours" = .ok (ofInt? r.hours) := rfl
  have hpop : dget (approvalPayload lib r t) "pop_verified" = .ok (.bool r.popVerified) := rfl
  have hprev : dget (approvalPayload lib r t) "previous_id" = .ok (.ofNat? r.previousId) := rfl
  have hid : toId (.num r.appId) = .ok r.appId := by
    unfold toId toId?
    simp
    rfl
  unfold IssueArgs.ofPayload
  rw [hprotocol, happ, htemplate, hpem, hprofile, hdays', hhours, hpop, hprev]
  dsimp only [bind, Except.bind, pure, Except.pure, toStr]
  rw [hid, hdays, hdays, hprevious]
  rfl

/-! ### The model of the approvals -/

/-- the parts of a template are read as the library reads them -/
structure Agrees (env : Env) (lib : Library Name Key SubjectAltName) : Prop where
  name : ∀ s n, (b64decode s >>= nameFromDer lib) = .ok n → env.template.nameFromDer s = .ok (lib.commonNames n)
  key : ∀ s k, (b64decode s >>= lib.loadDerPublicKey) = .ok k → env.template.loadDerPublicKey s = .ok (lib.publicKey k)
  san : ∀ s x, (b64decode s >>= sanFromDer lib) = .ok x → env.template.sanFromDer s = .ok (sanOf (lib.generalNames x))

/-- a payload that is read here is read there, as the same request -/
theorem templateOfPayload_ok {env : Env} (h : Agrees env lib) {j : Json} {t : TemplateRequest Name Key SubjectAltName}
    (hj : fromPayload lib j = .ok t) : templateOfPayload env j = .ok (t.csr lib) := by
  unfold fromPayload at hj
  obtain ⟨san, hsan, hj⟩ := except_bind_ok.1 hj
  obtain ⟨subjectJ, hsubjectJ, hj⟩ := except_bind_ok.1 hj
  obtain ⟨subjectText, hsubjectText, hj⟩ := except_bind_ok.1 hj
  obtain ⟨subjectDer, hsubjectDer, hj⟩ := except_bind_ok.1 hj
  obtain ⟨subject, hsubject, hj⟩ := except_bind_ok.1 hj
  obtain ⟨keyJ, hkeyJ, hj⟩ := except_bind_ok.1 hj
  obtain ⟨keyText, hkeyText, hj⟩ := except_bind_ok.1 hj
  obtain ⟨keyDer, hkeyDer, hj⟩ := except_bind_ok.1 hj
  obtain ⟨publicKey, hkey, hj⟩ := except_bind_ok.1 hj
  obtain rfl := Except.ok.inj hj
  have hname := h.name subjectText subject (except_bind_ok.2 ⟨subjectDer, hsubjectDer, hsubject⟩)
  have hpub := h.key keyText publicKey (except_bind_ok.2 ⟨keyDer, hkeyDer, hkey⟩)
  unfold sanFromPayload at hsan
  obtain ⟨sanJ, hsanJ, hsan⟩ := except_bind_ok.1 hsan
  unfold templateOfPayload
  rw [hsanJ, hsubjectJ, hkeyJ]
  dsimp only [bind, Except.bind]
  rw [hsubjectText, hkeyText]
  dsimp only
  rw [hname, hpub]
  split at hsan
  · next htruthy =>
    obtain ⟨sanText, hsanText, hsan⟩ := except_bind_ok.1 hsan
    obtain ⟨sanDer, hsanDer, hsan⟩ := except_bind_ok.1 hsan
    obtain ⟨x, hx, hsan⟩ := except_bind_ok.1 hsan
    obtain rfl := Except.ok.inj hsan
    rw [if_pos htruthy, hsanText]
    dsimp only
    rw [h.san sanText x (except_bind_ok.2 ⟨sanDer, hsanDer, hx⟩)]
    rfl
  · next hfalsy =>
    obtain rfl := Except.ok.inj hsan
    rw [if_neg hfalsy]
    rfl

/-- so the model of the approvals comes to the decision that is made here -/
theorem issueDecision_ok {env : Env} (h : Agrees env lib) {d : Db} {payload : Json} {a : IssueArgs} {app : App} {decision : Decision}
    {t : TemplateRequest Name Key SubjectAltName} (hargs : IssueArgs.ofPayload payload = .ok a)
    (htemplate : truthy a.template = true) (ht : fromPayload lib a.template = .ok t) (happ : d.apps.get a.appId = some app)
    (hdecision : approvedDecision lib env d payload = .ok decision) :
    issueDecision env d a = .ok (app, t.csr lib, decision) := by
  unfold approvedDecision approvedCsr at hdecision
  rw [hargs, except_ok_bind, happ] at hdecision
  dsimp only at hdecision
  rw [if_pos htemplate, ht] at hdecision
  unfold issueDecision IssueArgs.csr
  rw [happ]
  dsimp only
  rw [if_pos htemplate, templateOfPayload_ok h ht, except_ok_bind]
  exact except_bind_ok.2 ⟨decision, hdecision, rfl⟩

/-- **What is approved is what was requested.** The approval of a template that the CMP front end has built, once its payload
is read back from the stored text, is about this subject, this key and these SANs in their order. As long as the policy stays,
it is evaluated as the template would be at the time of the request; and a decision that was made then, with or without a
certificate being updated, is made again. -/
theorem approved_is_requested (hlib : Documented lib) {tmpl : CertTemplate}
    {old : Option (OldCertificate Name SubjectAltName)} {t : TemplateRequest Name Key SubjectAltName}
    (_ : template lib tmpl old = .ok t) (r : Held) {payload : Json} (hp : text payload = text (approvalPayload lib r t)) :
    (∃ a, IssueArgs.ofPayload payload = .ok a ∧ fromPayload lib a.template = .ok t) ∧
    ∀ (env : Env) (d : Db) (env' : Env) (d' : Db) (app app' : App), d'.apps.get r.appId = some app' →
      SamePolicy env d env' d' app app' →
      approvedDecision lib env' d' payload =
        evaluateRequest env d (t.csr lib) app r.profile r.days r.hours none r.popVerified ∧
      ∀ previousFp decision,
        evaluateRequest env d (t.csr lib) app r.profile r.days r.hours previousFp r.popVerified = .ok decision →
        approvedDecision lib env' d' payload = .ok decision := by
  obtain rfl := text_injective hp
  have hargs := ofPayload_approvalPayload lib r t
  refine ⟨⟨_, hargs, fromPayload_toPayload hlib t⟩, fun env d env' d' app app' happ hsame => ?_⟩
  have hcsr : approvedCsr lib env' ⟨r.appId, toPayload lib t, .null, r.profile, r.days, r.hours, r.popVerified, r.protocol,
      r.previousId.filter (· ≠ 0)⟩ = .ok (t.csr lib) := by
    unfold approvedCsr
    have htruthy : truthy (toPayload lib t) = true := rfl
    rw [if_pos htruthy, fromPayload_toPayload hlib]
    rfl
  have hdecision : approvedDecision lib env' d' (approvalPayload lib r t) =
      evaluateRequest env d (t.csr lib) app r.profile r.days r.hours none r.popVerified := by
    unfold approvedDecision
    rw [hargs]
    dsimp only [bind, Except.bind]
    rw [happ]
    dsimp only
    rw [hcsr]
    exact evaluateRequest_same hsame _ _ _ _ _ _
  refine ⟨hdecision, fun previousFp decision h => ?_⟩
  rw [hdecision]
  exact evaluateRequest_noPrevious h

/-! ### A template for a Windows logon -/

inductive DemoName where
  | empty
  | joe
deriving DecidableEq

def ascii (s : String) : Octets := s.toList.map fun c => UInt8.ofNat c.toNat

/-- CN=joe, a key on P-256, and a UPN -/
def demoName : DemoName → Octets
  | .empty => sequence []
  | .joe => sequence [setOf [sequence [oid [2, 5, 4, 3], tlv 0x0C (ascii "joe")]]]

def demoSan : Octets :=
  sequence [tlv 0xA0 (oid [1, 3, 6, 1, 4, 1, 311, 20, 2, 3] ++ tlv 0xA0 (tlv 0x0C (ascii "joe@corp.example")))]

def demoSpki : Octets := subjectPublicKeyInfo (0x04 :: List.replicate 64 0x02)

/-- the requests that are read, with what is read of them -/
def demoRequests : List (Octets × DemoName × Bool) :=
  [DemoName.empty, .joe].flatMap fun n => [false, true].map fun named =>
    (certificationRequest (demoName n) (subjectPublicKeyInfo placeholderPoint)
      (if named then [extensionRequest demoSan] else []) ecdsaWithSha256 placeholderSignature, n, named)

def demoLibrary : Library DemoName Unit Unit where
  nameBytes := demoName
  commonNames
    | .empty => []
    | .joe => ["joe"]
  keyBytes _ := demoSpki
  publicKey _ := demoKey "joe"
  loadDerPublicKey der := if der = demoSpki then .ok () else .error (.value "Could not deserialize key data")
  sanBytes _ := demoSan
  generalNames _ := [.otherName UPN_OTHERNAME_OID (some "joe@corp.example")]
  loadDerX509Csr der :=
    match demoRequests.lookup der with
    | some (n, named) => .ok ⟨n, .ok (if named then [.subjectAltName false ()] else [])⟩
    | none => .error (.value "error parsing asn1 value")

theorem demo_documented : Documented demoLibrary where
  key _ := rfl
  noName := ⟨.empty, rfl⟩
  sanBytes _ := ⟨_, rfl⟩
  csr n s := by
    have hread : ∀ n named, demoRequests.lookup (certificationRequest (demoName n) (subjectPublicKeyInfo placeholderPoint)
        (if named then [extensionRequest demoSan] else []) ecdsaWithSha256 placeholderSignature) = some (n, named) := by
      intro n named
      cases n <;> cases named <;> decide +kernel
    cases s with
    | none =>
      refine ⟨⟨n, .ok []⟩, ?_, rfl, rfl⟩
      have h := hread n false
      rw [if_neg Bool.false_ne_true] at h
      dsimp only [demoLibrary, Option.toList, List.map]
      rw [h]
      rfl
    | some s =>
      refine ⟨⟨n, .ok [.subjectAltName false ()]⟩, ?_, rfl, rfl⟩
      have h := hread n true
      rw [if_pos rfl] at h
      dsimp only [demoLibrary, Option.toList, List.map]
      rw [h]
      rfl

/-- the fields as CMP tags them -/
def demoTemplate : CertTemplate :=
  ⟨some (0xA6 :: demoSpki.drop 1), some (tlv 0xA5 (demoName .joe)),
    some (0xA9 :: (tlv 0x30 (sequence [oid [2, 5, 29, 17], octetString demoSan])).drop 1)⟩

def demoHeld : Held := ⟨1, "logon", none, none, "cmp", none, false⟩

def demoApprovals : Db := { Db.empty with apps := Table.empty.insert (inserted Integrity.demoState (demoApp "logon")) }

def demoRequest : TemplateRequest DemoName Unit Unit := ⟨.joe, (), some ()⟩

def demoDecision : Decision := ⟨"logon", 2592000, [], [], [], some "joe@corp.example", false, ["joe@corp.example"], none, none, none⟩

/-- the logon certificate that waits for its approver -/
theorem demo_approved : approvedDecision demoLibrary demoEnv demoApprovals (approvalPayload demoLibrary demoHeld demoRequest) =
    .ok demoDecision := by
  have htemplate : template demoLibrary demoTemplate none = .ok demoRequest := by decide +kernel
  have hdecision : evaluateRequest demoEnv demoApprovals (demoRequest.csr demoLibrary) (demoApp "logon") "logon" none none none
      false = .ok demoDecision := by decide +kernel
  have hresults := (approved_is_requested demo_documented htemplate demoHeld rfl).2 demoEnv demoApprovals demoEnv demoApprovals
    (demoApp "logon") (inserted Integrity.demoState (demoApp "logon")) rfl ⟨rfl, rfl, rfl, rfl, rfl⟩
  exact hresults.2 none demoDecision hdecision

end Certadillo.TemplateRequests
