/-
The policy engine (`policy/engine.py`): one place that decides whether a request may be signed.

`evaluate` is translated check by check, with the rule names and texts of its violations. Scope entries and zones are
matched by `domainAllowed` and `withinDomains`.
-/
import Certadillo.X509

namespace Certadillo.Policy

open Py

/-- a certificate profile of the policy file; a key the file may leave out is an option -/
structure Profile where
  extendedKeyUsage : Option (List String)
  defaultValidityDays : Option ℤ
  maxValidityDays : Option ℤ
  defaultValidityHours : Option ℤ
  maxValidityHours : Option ℤ
  requireDnsSan : Bool
  allowWildcard : Bool
  rsaMinBits : Option ℕ
  ecCurves : Option (List String)
  requireNewKeyOnRenewal : Bool
  windowsLogon : Bool
  requireSpiffeId : Bool
  requireEmailSan : Bool
  dualControl : Bool
  issuer : Option String
  adcsCa : Option String
  adcsTemplate : Option String
deriving DecidableEq, Repr

structure Policies where
  profiles : List (String × Profile)
  spiffeTrustDomain : String
  /-- from a date on, the longest validity of a publicly trusted TLS certificate, in days -/
  publicTlsSchedule : List (ℤ × ℤ)

structure Decision where
  profile : String
  /-- seconds -/
  validity : ℤ
  dnsNames : List String
  uris : List String
  emails : List String
  commonName : Option String
  dualControl : Bool
  upns : List String
  sid : Option String
  /-- the issuing CA chosen by the app's policy folder; `none` means the default -/
  ca : Option String
  /-- an upstream issuer chosen by the policy folder; `none` means the profile's -/
  issuer : Option String
deriving DecidableEq, Repr

/-! ## Names and scopes -/

/-- `_LABEL` -/
def label (s : Chars) : Bool :=
  let cls (c : Char) : Bool := ('a' ≤ c && c ≤ 'z') || ('0' ≤ c && c ≤ '9') || c = '_' || c = '-'
  matchLine cls 63 s && (s.takeWhile cls).head? ≠ some '-' && (s.takeWhile cls).getLast? ≠ some '-'

/-- `_dns_labels_ok` -/
def dnsLabelsOk (body : Chars) : Bool := !body.isEmpty && body.length ≤ 253 && (split '.' body).all label

/-- `_SPIFFE_SEGMENT` -/
def spiffeSegment (s : Chars) : Bool := matchLine (fun c => c.isAlphanum || c = '.' || c = '_' || c = '-') s.length s

section Lower

variable (lower : Chars → Chars)

/-- SPIFFE ID rules (SPIFFE-ID spec 2.1-2.2) -/
def spiffeIdValid (uri : Chars) : Bool :=
  if !startsWith uri "spiffe://".toList then false
  else
    let (td, path) := partition '/' (uri.drop "spiffe://".length)
    if td.isEmpty || td ≠ lower td ||
        !td.all (fun c => ('a' ≤ c && c ≤ 'z') || ('0' ≤ c && c ≤ '9') || c = '.' || c = '_' || c = '-') then false
    else if uri.any (fun c => "?#%@".toList.contains c) || path.isEmpty then false
    else (split '/' path).all fun seg => seg ≠ ".".toList && seg ≠ "..".toList && spiffeSegment seg

/-- Check and normalise an app's name scope before it is stored. -/
def validateScope (patterns : List String) : Except Err (List String) := do
  let out ← patterns.mapM fun raw => do
    let p := strip raw.toList
    if startsWith (lower p) "spiffe://".toList then
      let base := if endsWith p "/*".toList then p.dropLast.dropLast else p
      if base.contains '*' || !spiffeIdValid lower base then
        throw (.value s!"{pyRepr raw} is not a SPIFFE ID or a spiffe://trust.domain/path/* prefix")
      else pure (String.ofList p)
    else
      let p := rstrip (· = '.') (lower p)
      let body := if startsWith p "*.".toList then p.drop 2 else p
      if !dnsLabelsOk body then throw (.value s!"{pyRepr raw} is not a DNS name or a *.suffix pattern")
      else if startsWith p "*.".toList && (split '.' body).length < 2 then
        throw (.value s!"{pyRepr raw} is too broad: a wildcard scope needs at least two labels after '*.'")
      else pure (String.ofList p)
  if out.isEmpty then throw (.value "the scope needs at least one name")
  pure out

/-- the name a zone is compared with -/
def zoneKey (pattern : Chars) : Chars :=
  let p := rstrip (· = '.') (lower pattern)
  if startsWith p "spiffe://".toList then firstPart '/' (p.drop "spiffe://".length)
  else if startsWith p "*.".toList then p.drop 2
  else p

/-- one zone of `within_domains` -/
def inZone (p zone : Chars) : Bool :=
  let z := rstrip (· = '.') (lstrip (fun c => c = '*' || c = '.') (strip (lower zone)))
  !z.isEmpty && (p = z || endsWith p ('.' :: z))

/-- True when every name the scope entry can match lies inside one of zones. -/
def withinDomains (pattern : String) (zones : List String) : Bool :=
  zones.any fun z => inZone lower (zoneKey lower pattern.toList) z.toList

def domainAllowed (name : Chars) (patterns : List String) : Bool :=
  let name := rstrip (· = '.') (lower name)
  patterns.any fun p =>
    let p := rstrip (· = '.') (lower p.toList)
    -- "*.example.com" allows any depth of subdomain but not the apex.
    if startsWith p "*.".toList then endsWith name p.tail else fnmatchcase name p

/-! ## Evaluation -/

abbrev Violations := List (String × String)

/-- the value of a key the profile must have -/
def need (key : String) : Option ℤ → Except Err ℤ
  | some v => .ok v
  | none => .error (.key key)

/-- `requested or default`: a missing or zero request takes the default -/
def requestedOr (requested : Option ℤ) (key : String) (dflt : Option ℤ) : Except Err ℤ :=
  match requested with
  | some v => if v = 0 then need key dflt else .ok v
  | none => need key dflt

/-- `parse_upn_sans`: raises where a UPN otherName is not a UTF8String -/
def parseUpnSans (csr : Csr) : Except Err (List String) :=
  match csr.san with
  | none => .ok []
  | some san => san.upns.mapM fun
    | some u => .ok u
    | none => .error (.value "Error parsing asn1crypto.core.UTF8String")

/-- `user@suffix` with one at sign and a user -/
def userAtSuffix (e : String) : Bool := e.toList.count '@' = 1 && !(firstPart '@' e.toList).isEmpty

/-- proof of possession, the key's strength and its reuse -/
def keyViolations (sha256 : String → String) (csr : Csr) (pub : PublicKey) (prof : Profile)
    (previousPublicKeyFp : Option String) (popVerified : Bool) : Violations :=
  let popOk := popVerified || csr.isSignatureValid = some true
  let (ktype, bits, curve) := describeKey pub
  let least := (prof.rsaMinBits.map toString).getD "None"
  (if popOk then [] else [("csr_signature", "CSR signature does not verify (proof of possession failed)")]) ++
  (if ktype = "rsa" && bits < prof.rsaMinBits.getD 2048 then
      [("key_strength", s!"RSA {bits} below minimum {least}")]
    else if ktype = "ec" && !(prof.ecCurves.getD []).contains curve then [("key_curve", s!"curve {curve} not allowed")]
    else if ktype ≠ "rsa" && ktype ≠ "ec" then
      [("key_type", s!"key type {ktype} not allowed for this profile")]
    else []) ++
  (if prof.requireNewKeyOnRenewal && previousPublicKeyFp = some (sha256 pub.spki) then
    [("key_reuse", "renewal must use a new key pair")] else [])

/-- the names of the request: at least one where required, valid DNS names, in scope -/
def dnsViolations (prof : Profile) (allowedDomains dns ips : List String) : Violations :=
  (if prof.requireDnsSan && dns.isEmpty then [("san_required", "at least one DNS SAN is required")] else []) ++
  (dns.flatMap fun name =>
    let wild := startsWith name.toList "*.".toList
    if !dnsLabelsOk (if wild then name.toList.drop 2 else name.toList) then
      [("dns_name", s!"{pyRepr name} is not a valid DNS name")]
    else
      (if wild && !prof.allowWildcard then [("wildcard", s!"wildcard {name} not allowed")] else []) ++
      (if domainAllowed lower name.toList allowedDomains then []
        else [("san_scope", s!"{name} is outside the app's approved domains")])) ++
  (if ips.isEmpty then [] else [("ip_san", "IP SANs are not issued; use DNS names")])

def spiffeViolations (pol : Policies) (allowedDomains uris : List String) : Violations :=
  match uris with
  | [sid] =>
    let td := pol.spiffeTrustDomain
    if !startsWith sid.toList "spiffe://".toList then
      [("spiffe_id", "exactly one URI SAN, a spiffe:// ID, is required")]
    else if !spiffeIdValid lower sid.toList then
      [("spiffe_id", s!"{sid} is not a valid SPIFFE ID (no '.', '..' or empty segments, query or port)")]
    else if !startsWith sid.toList ("spiffe://" ++ td ++ "/").toList then
      [("spiffe_trust_domain", s!"{sid} is not in trust domain {td}")]
    else if !domainAllowed lower sid.toList allowedDomains then
      [("spiffe_scope", s!"{sid} is outside the app's approved SPIFFE IDs")]
    else []
  | _ => [("spiffe_id", "exactly one URI SAN, a spiffe:// ID, is required")]

def emailViolations (allowedDomains emails : List String) : Violations :=
  (if emails.isEmpty then [("email_required", "an rfc822Name SAN is required")] else []) ++
  emails.flatMap fun e =>
    if !userAtSuffix e then [("email_format", s!"{pyRepr e} must be local@domain")]
    else if domainAllowed lower (lastPart '@' e.toList) allowedDomains then []
    else [("email_scope", s!"{e} is outside the app's approved mail domains")]

/-- A CN that looks like a host name is an identity claim for TLS profiles even when DNS SANs are optional: its
violations, or the names with the CN folded in. -/
def foldCn (prof : Profile) (allowedDomains : List String) (cn : Option String) (dns : List String) :
    Violations × List String :=
  let ekus := prof.extendedKeyUsage.getD []
  match cn with
  | none => ([], dns)
  | some cn =>
    if cn ≠ "" && !prof.requireSpiffeId && (ekus.contains "server_auth" || ekus.contains "client_auth") &&
        !dns.contains cn then
      if !domainAllowed lower cn.toList allowedDomains then
        ([("cn_scope", s!"CN {cn} is outside the app's approved domains")], dns)
      else if startsWith cn.toList "*.".toList && !prof.allowWildcard then
        ([("wildcard", s!"wildcard {cn} not allowed")], dns)
      else ([], cn :: dns)
    else ([], dns)

/-- the validity in seconds, and its violations -/
def validityOf (prof : Profile) (requestedDays requestedHours : Option ℤ) : Except Err (Violations × ℤ) :=
  match prof.maxValidityHours with
  | some most => do
    let hours ← requestedOr requestedHours "default_validity_hours" prof.defaultValidityHours
    let v := if hours > most then [("validity", s!"{hours}h exceeds {most}h")] else []
    pure (v, ← timedelta (hours * 3600))
  | none => do
    let days ← requestedOr requestedDays "default_validity_days" prof.defaultValidityDays
    let most ← need "max_validity_days" prof.maxValidityDays
    let v := if days > most then [("validity", s!"{days}d exceeds {most}d")] else []
    pure (v, ← timedelta (days * 86400))

/-- Smart-card / PKINIT logon profile. The identity is a UPN otherName; its suffix is checked against the app scope. -/
def evaluateWindowsLogon (csr : Csr) (profileName : String) (prof : Profile) (allowedDomains : List String)
    (requestedDays : Option ℤ) (v : Violations) : Except Err Decision := do
  let upns ← parseUpnSans csr
  let san := csr.san.getD .none
  -- any other SAN type is a scope escape for a logon certificate
  let others := san.dns ++ san.emails ++ san.ips ++ san.uris
  let v := v ++
    (if others.isEmpty then [] else [("san_type", "a Windows logon certificate carries only UPN otherName SANs")]) ++
    (if upns.length ≠ 1 then [("upn_required", "exactly one UPN otherName SAN is required")] else []) ++
    upns.flatMap fun upn =>
      let suffix := lastPart '@' upn.toList
      if !userAtSuffix upn then [("upn_format", s!"UPN {pyRepr upn} must be user@suffix")]
      else if domainAllowed lower suffix allowedDomains then []
      else [("upn_scope", s!"UPN suffix {String.ofList suffix} is outside the app's approved domains")]
  let days ← requestedOr requestedDays "default_validity_days" prof.defaultValidityDays
  let most ← need "max_validity_days" prof.maxValidityDays
  let v := v ++ if days > most then [("validity", s!"{days}d exceeds {most}d")] else []
  if v.isEmpty then
    let validity ← timedelta (days * 86400)
    pure { profile := profileName, validity := validity, dnsNames := [], uris := [], emails := [],
           commonName := upns.head?, dualControl := prof.dualControl, upns := upns, sid := none, ca := none,
           issuer := none }
  else throw (.policy v)

/-- `PolicyEngine.profile` -/
def profile (pol : Policies) (name : String) : Except Err Profile :=
  match pol.profiles.lookup name with
  | some p => .ok p
  | none => .error (.policy [("unknown_profile", s!"profile '{name}' is not defined")])

/-- `PolicyEngine.evaluate` -/
def evaluate (sha256 : String → String) (pol : Policies) (csr : Csr) (profileName : String)
    (allowedDomains : List String) (requestedDays requestedHours : Option ℤ) (previousPublicKeyFp : Option String)
    (popVerified : Bool) : Except Err Decision := do
  let prof ← profile pol profileName
  match csr.publicKey with
  | .error exc =>
    let text := s!"the CSR's public key cannot be read: {exc}"
    throw (.policy [("csr_key", String.ofList (text.toList.take 200))])
  | .ok pub =>
    let v := keyViolations sha256 csr pub prof previousPublicKeyFp popVerified
    if prof.windowsLogon then
      evaluateWindowsLogon lower csr profileName prof allowedDomains requestedDays v
    else
      let san := csr.san.getD .none
      let cn := csr.commonNames.head?
      -- RFC 6125: names must be in SAN; fold CN in
      let dns := match cn with
        | some cn => if cn ≠ "" && prof.requireDnsSan && !san.dns.contains cn then cn :: san.dns else san.dns
        | none => san.dns
      let v := v ++ dnsViolations lower prof allowedDomains dns san.ips ++
        (if prof.requireSpiffeId then spiffeViolations lower pol allowedDomains san.uris
          else if san.uris.isEmpty then []
          else [("uri_san", "URI SANs are only issued under the spiffe-svid profile")]) ++
        (if prof.requireEmailSan then emailViolations lower allowedDomains san.emails
          else if san.emails.isEmpty then []
          else [("email_san", "email SANs are only issued under the smime profile")])
      let cn := if prof.requireSpiffeId then none else cn
      let (vcn, dns) := foldCn lower prof allowedDomains cn dns
      let (vval, validity) ← validityOf prof requestedDays requestedHours
      let v := v ++ vcn ++ vval
      if v.isEmpty then
        pure { profile := profileName, validity := validity, dnsNames := dns, uris := san.uris, emails := san.emails,
               commonName := match cn with
                 | some cn => if cn ≠ "" then some cn else dns.head?.or san.emails.head?
                 | none => dns.head?.or san.emails.head?
               dualControl := prof.dualControl, upns := [], sid := none, ca := none, issuer := none }
      else throw (.policy v)

end Lower

/-! ## Grading -/

/-- ML-DSA and SLH-DSA signature OIDs -/
def pqcSigOids : List String :=
  ["2.16.840.1.101.3.4.3.17", "2.16.840.1.101.3.4.3.18", "2.16.840.1.101.3.4.3.19"] ++
    (List.range 12).map fun n => "2.16.840.1.101.3.4.3." ++ toString (n + 20)

def publicTlsMaxDays (pol : Policies) (on : ℤ) : ℤ :=
  pol.publicTlsSchedule.foldl (fun best step => if on ≥ step.1 then step.2 else best) 398

/-- Findings for discovered or imported certificates (not issued by us). -/
def gradeCertificate (pol : Policies) (cert : X509Cert) : Violations :=
  let (ktype, bits, _) := describeCertKey cert.tbs.publicKey
  let lifetime := (cert.tbs.notAfter - cert.tbs.notBefore) / 86400
  let limit := publicTlsMaxDays pol cert.tbs.notBefore
  (if ktype = "unknown" then [("unknown_key", "public key algorithm not recognized")] else []) ++
  (if ktype = "rsa" && bits < 2048 then [("weak_key", s!"RSA {bits}")] else []) ++
  (match cert.signed.sigHash with
    | some h => if h = "sha1" || h = "md5" then [("weak_signature", h)] else []
    | none => []) ++
  (if cert.scts && lifetime > limit then
    [("public_validity", s!"{lifetime}d exceeds CA/B limit {limit}d at issuance")] else []) ++
  (if !pqcSigOids.contains cert.signed.sigOid && (ktype = "rsa" || ktype = "ec") then
    let upper := if ktype = "rsa" then "RSA" else "EC"
    [("quantum_vulnerable", s!"{upper} key, plan PQC migration")] else [])

end Certadillo.Policy
