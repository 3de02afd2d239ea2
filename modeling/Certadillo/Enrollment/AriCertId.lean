/-
Certificate identifiers of renewal information (`enrollment/ari.py`): base64url(AKI keyIdentifier) '.' base64url(serial).

- `b64uDec_b64u`: unpadded base64url is read back.
- `serialBytes_minimal`: the serial is the shortest two's complement, with a leading zero octet where it needs one.
- `parseCertId_certId`: an identifier is read back, so two certificates share one only with key identifier and serial.
- `findByCertId_certId`: where serials are unique per issuing CA, the certificate of an identifier is found.
-/
import Certadillo.Lib.Base64
import Certadillo.Lib.Bytes
import Certadillo.Policy.Patterns
import Certadillo.Authority

namespace Certadillo.Ari

open Bytes Py Policy

/-! ## Model -/

/-- `_b64u` -/
def b64u (b : Octets) : String := String.ofList (rstrip (· = '=') (Base64.urlEncode b))

/-- `_b64u_dec` -/
def b64uDec (s : String) : Except Err Octets :=
  let padded := s.toList ++ List.replicate ((4 - s.toList.length % 4) % 4) '='
  if padded.any fun c => 128 ≤ c.toNat then .error (.value "string argument should contain only ASCII characters")
  else
    match Base64.urlDecode padded with
    | none => .error (.value "Incorrect padding")
    | some b => .ok b

/-- DER INTEGER value octets: big-endian two's complement, minimal length. -/
def serialBytes (serial : ℤ) : Except Err Octets :=
  if serial < 0 then .error (.other "can't convert negative int to unsigned")
  else .ok (toBE (bitLength serial.natAbs / 8 + 1) serial.natAbs)

/-- what an identifier is made of -/
structure Identified where
  /-- the AuthorityKeyIdentifier extension, and the `key_identifier` in it -/
  authorityKeyIdentifier : Option (Option Octets)
  serialNumber : ℤ

/-- ARI CertID: base64url(AKI keyIdentifier) '.' base64url(serial). -/
def certId (cert : Identified) : Except Err String :=
  match cert.authorityKeyIdentifier with
  | none => .error (.other "No AuthorityKeyIdentifier extension was found")
  | some none => .error (.type "a bytes-like object is required, not 'NoneType'")
  | some (some aki) => do
    let serial ← serialBytes cert.serialNumber
    pure (b64u aki ++ "." ++ b64u serial)

/-- both parts, decoded -/
def certIdParts (value : String) : Except Err (Octets × Octets) :=
  match split '.' value.toList with
  | [akiS, serialS] => do
    let aki ← b64uDec (String.ofList akiS)
    let serial ← b64uDec (String.ofList serialS)
    pure (aki, serial)
  | _ => .error (.value "not two parts")

def parseCertId (value : String) : Except Err (Octets × ℕ) :=
  match certIdParts value with
  | .error (.value _) => .error (.value "CertID must be base64url(AKI).base64url(serial)")
  | .error e => .error e
  | .ok (aki, serial) =>
    match aki, serial with
    | _ :: _, d :: _ =>
      if d &&& 0x80 ≠ 0 then .error (.value "CertID has an empty key identifier or a negative serial")
      else .ok (aki, ofBE serial)
    | _, _ => .error (.value "CertID has an empty key identifier or a negative serial")

/-- `SubjectKeyIdentifier.from_public_key(ca_cert.public_key()).digest` of a CA -/
def caKeyIdentifier (env : Env) (digest : PublicKey → Octets) (d : Db) (caId : ℕ) : Except Err Octets := do
  match d.cas.get caId with
  | none => throw (.attribute "'NoneType' object has no attribute 'cert_pem'")
  | some ca =>
    let caCert ← CAService.loadPem env ca.certPem
    match caCert.tbs.publicKey with
    | none => throw (.value "the certificate's public key cannot be read")
    | some pub => pure (digest pub)

/-- the loop of `find_by_cert_id` over the rows with the serial -/
def firstOfIssuer (env : Env) (digest : PublicKey → Octets) (d : Db) (aki : Octets) :
    List (ℕ × Certificate) → Except Err (Option (ℕ × Certificate))
  | [] => .ok none
  | (id, row) :: rows =>
    match row.caId with
    | none => firstOfIssuer env digest d aki rows
    | some caId => do
      let ski ← caKeyIdentifier env digest d caId
      if ski = aki then pure (some (id, row)) else firstOfIssuer env digest d aki rows

def findByCertId (env : Env) (digest : PublicKey → Octets) (d : Db) (value : String) :
    Except Err (Option (ℕ × Certificate)) := do
  let (aki, serial) ← parseCertId value
  firstOfIssuer env digest d aki (d.certificates.all fun c => c.serialHex = hex serial)

/-! ## Base64url -/

section Base64url

variable {b : Octets}

/-- what is written has no dot and no padding; the padding is found again from its length -/
theorem b64u_digits (b : Octets) : ∃ digits pads, b64u b = String.ofList digits ∧ Base64.urlEncode b =
    digits ++ List.replicate pads '=' ∧ pads = (4 - digits.length % 4) % 4 ∧ ∀ c ∈ digits, Base64.UrlDigit c := by
  obtain ⟨digits, pads, heq, hpads, hlen, hdigits⟩ := Base64.urlEncode_eq b
  refine ⟨digits, pads, ?_, heq, by omega, hdigits⟩
  unfold b64u
  rw [heq]
  congr 1
  have hself : rstrip (· = '=') digits = digits := by
    apply rstrip_eq_self
    intro c hc
    have hne := (hdigits c (List.mem_of_getLast? hc)).1
    simpa using hne
  unfold rstrip at hself ⊢
  rw [List.reverse_append, List.reverse_replicate, List.dropWhile_append_of_pos, hself]
  intro c hc
  rw [List.eq_of_mem_replicate hc]
  rfl

/-- **Unpadded base64url is read back.** -/
theorem b64uDec_b64u (b : Octets) : b64uDec (b64u b) = .ok b := by
  obtain ⟨digits, pads, heq, hencode, hpads, hdigits⟩ := b64u_digits b
  have hascii : (digits ++ List.replicate pads '=').any (fun c => 128 ≤ c.toNat) = false := by
    rw [List.any_eq_false]
    intro c hc
    rcases List.mem_append.1 hc with hc | hc
    · have hlt := (hdigits c hc).2.2
      simpa using hlt
    · rw [List.eq_of_mem_replicate hc]
      decide
  have hdecode := Base64.urlDecode_urlEncode b
  rw [hencode] at hdecode
  unfold b64uDec
  rw [heq, String.toList_ofList, ← hpads]
  dsimp only
  rw [hascii, hdecode]
  rfl

theorem dot_not_mem_b64u : '.' ∉ (b64u b).toList := by
  obtain ⟨digits, pads, heq, -, -, hdigits⟩ := b64u_digits b
  rw [heq, String.toList_ofList]
  intro hmem
  exact (hdigits '.' hmem).2.1 rfl

end Base64url

/-! ## Serials -/

section Serials

variable {n : ℕ}

theorem serialBytes_natCast (n : ℕ) : serialBytes n = .ok (toBE (bitLength n / 8 + 1) n) := by
  have hsign : ¬ (n : ℤ) < 0 := by omega
  unfold serialBytes
  rw [if_neg hsign, Int.natAbs_natCast]

theorem ofTwos_serial (n : ℕ) : ofTwos (toBE (bitLength n / 8 + 1) n) = n := by
  apply ofTwos_toBE
  exact bitLength_le.1 (by omega)

/-- **The shortest two's complement.** No shorter octets stand for the serial, and no others as short. -/
theorem serial_shortest {b : Octets} (hne : b ≠ []) (hb : ofTwos b = n) :
    (toBE (bitLength n / 8 + 1) n).length ≤ b.length ∧
      (b.length = (toBE (bitLength n / 8 + 1) n).length → b = toBE (bitLength n / 8 + 1) n) := by
  obtain ⟨hbits, hself⟩ := of_ofTwos hne hb
  rw [length_toBE]
  constructor
  · omega
  · intro hlen
    rw [hlen] at hself
    exact hself

/-- **The leading octet.** Behind a zero octet where the first bit of the magnitude is set, and as it is elsewhere. -/
theorem serial_leading (hpos : 0 < n) : ∃ d rest, toBE ((bitLength n + 7) / 8) n = d :: rest ∧ d ≠ 0 ∧
    toBE (bitLength n / 8 + 1) n = if 0x80 ≤ d.toNat then 0 :: d :: rest else d :: rest := by
  have hone : 0 < bitLength n := lt_two_pow_of_lt_bitLength.2 (by rw [pow_zero]; exact hpos)
  obtain ⟨k, hk⟩ : ∃ k, (bitLength n + 7) / 8 = k + 1 := ⟨(bitLength n + 7) / 8 - 1, by omega⟩
  have hfit := lt_octets n
  have hpow : ∀ j, (256 : ℕ) ^ j = 2 ^ (8 * j) := by
    intro j
    rw [pow_mul]
    norm_num
  have hlow : 256 ^ k ≤ n := by
    rw [hpow]
    exact lt_two_pow_of_lt_bitLength.1 (by omega)
  have hquotient : n / 256 ^ k < 256 := by
    rw [Nat.div_lt_iff_lt_mul (by positivity), ← pow_succ', ← hk]
    exact hfit
  have hfirst : 1 ≤ n / 256 ^ k := (Nat.one_le_div_iff (by positivity)).2 hlow
  have hbyte : (UInt8.ofNat (n / 256 ^ k % 256)).toNat = n / 256 ^ k := by
    rw [toNat_ofNat (Nat.mod_lt _ (by omega)), Nat.mod_eq_of_lt hquotient]
  refine ⟨UInt8.ofNat (n / 256 ^ k % 256), toBE k n, ?_, ?_, ?_⟩
  · rw [hk, toBE_cons]
  · intro hzero
    rw [hzero] at hbyte
    have h0 : (0 : UInt8).toNat = 0 := rfl
    omega
  · -- the first bit is set iff the bits fill all their octets
    have htop : 0x80 ≤ n / 256 ^ k ↔ 8 * k + 7 < bitLength n := by
      have hhalf : (2 : ℕ) ^ (8 * k + 7) = 128 * 256 ^ k := by
        rw [hpow, pow_add, mul_comm]
        norm_num
      rw [lt_two_pow_of_lt_bitLength, hhalf, Nat.le_div_iff_mul_le (by positivity)]
    rw [hbyte, ← toBE_cons]
    split
    · next hset =>
      have hwidth : bitLength n / 8 + 1 = k + 1 + 1 := by
        have := htop.1 hset
        omega
      rw [hwidth, toBE_cons_of_lt (by rw [← hk]; exact hfit)]
    · next hclear =>
      have hwidth : bitLength n / 8 + 1 = k + 1 := by
        have : ¬ 8 * k + 7 < bitLength n := fun h => hclear (htop.2 h)
        omega
      rw [hwidth]

end Serials

/-! ## Round trip -/

section RoundTrip

variable {cert : Identified} {aki : Octets} {n : ℕ}

theorem certId_eq (hkid : cert.authorityKeyIdentifier = some (some aki)) (hserial : cert.serialNumber = n) :
    certId cert = .ok (b64u aki ++ "." ++ b64u (toBE (bitLength n / 8 + 1) n)) := by
  unfold certId
  rw [hkid, hserial, serialBytes_natCast]
  rfl

theorem certIdParts_eq (a b : Octets) : certIdParts (b64u a ++ "." ++ b64u b) = .ok (a, b) := by
  have hsplit : split '.' (b64u a ++ "." ++ b64u b).toList = [(b64u a).toList, (b64u b).toList] := by
    rw [String.toList_append, String.toList_append, List.append_assoc]
    change split '.' ((b64u a).toList ++ '.' :: (b64u b).toList) = _
    rw [split_append, split_of_not_mem dot_not_mem_b64u, split_of_not_mem dot_not_mem_b64u]
    rfl
  unfold certIdParts
  rw [hsplit]
  dsimp only
  rw [String.ofList_toList, String.ofList_toList, b64uDec_b64u, b64uDec_b64u]
  rfl

/-- the bit that `parseCertId` tests -/
theorem sign_clear {d : UInt8} (h : ¬ 0x80 ≤ d.toNat) : d &&& 0x80 = 0 := by
  have h80 : (0x80 : UInt8).toNat = 2 ^ 7 := rfl
  apply UInt8.toNat_inj.1
  rw [UInt8.toNat_and, h80]
  apply Nat.eq_of_testBit_eq
  intro i
  rw [Nat.testBit_and, Nat.testBit_two_pow]
  by_cases hi : 7 = i
  · rw [← hi, Nat.testBit_lt_two_pow (by omega)]
    rfl
  · simp [hi]

/-- **An identifier is read back.** -/
theorem parseCertId_certId (hkid : cert.authorityKeyIdentifier = some (some aki)) (hne : aki ≠ [])
    (hserial : cert.serialNumber = n) (hpos : 0 < n) : ∃ text, certId cert = .ok text ∧ parseCertId text = .ok (aki, n) := by
  refine ⟨_, certId_eq hkid hserial, ?_⟩
  unfold parseCertId
  rw [certIdParts_eq]
  have htwos := ofTwos_serial n
  have hvalue : ofBE (toBE (bitLength n / 8 + 1) n) = n := by
    apply ofBE_toBE
    exact lt_of_lt_of_le (lt_octets n) (Nat.pow_le_pow_right (by omega) (by omega))
  obtain ⟨a, as, rfl⟩ := List.exists_cons_of_ne_nil hne
  rw [toBE_cons] at htwos hvalue ⊢
  dsimp only
  have hsign : ¬ 0x80 ≤ (UInt8.ofNat (n / 256 ^ (bitLength n / 8) % 256)).toNat := by
    intro hset
    have hlt := ofBE_lt (UInt8.ofNat (n / 256 ^ (bitLength n / 8) % 256) :: toBE (bitLength n / 8) n)
    have hcast : (ofBE (UInt8.ofNat (n / 256 ^ (bitLength n / 8) % 256) :: toBE (bitLength n / 8) n) : ℤ) <
        256 ^ (UInt8.ofNat (n / 256 ^ (bitLength n / 8) % 256) :: toBE (bitLength n / 8) n).length := by
      exact_mod_cast hlt
    rw [ofTwos, if_pos hset] at htwos
    omega
  rw [sign_clear hsign, if_neg (by simp), hvalue]

end RoundTrip

/-! ## Lookup -/

section Lookup

variable {env : Env} {digest : PublicKey → Octets} {d : Db}

/-- every certificate's CA is there, and its own certificate loads -/
def CasLoad (env : Env) (digest : PublicKey → Octets) (d : Db) : Prop :=
  ∀ id row caId, d.certificates.get id = some row → row.caId = some caId → ∃ kid, caKeyIdentifier env digest d caId = .ok kid

/-- serials are unique per issuing CA, which is known by its key -/
def SerialsUnique (env : Env) (digest : PublicKey → Octets) (d : Db) : Prop :=
  ∀ id row id' row' caId caId' kid, d.certificates.get id = some row → d.certificates.get id' = some row' →
    row.caId = some caId → row'.caId = some caId' → caKeyIdentifier env digest d caId = .ok kid →
    caKeyIdentifier env digest d caId' = .ok kid → row.serialHex = row'.serialHex → id = id'

/-- the loop returns the only row of the issuer -/
theorem firstOfIssuer_of_unique {aki : Octets} {rows : List (ℕ × Certificate)} {id caId : ℕ} {row : Certificate}
    (hmem : (id, row) ∈ rows) (hca : row.caId = some caId) (hkid : caKeyIdentifier env digest d caId = .ok aki)
    (hloads : ∀ e ∈ rows, ∀ ca, e.2.caId = some ca → ∃ kid, caKeyIdentifier env digest d ca = .ok kid)
    (honly : ∀ e ∈ rows, ∀ ca, e.2.caId = some ca → caKeyIdentifier env digest d ca = .ok aki → e = (id, row)) :
    firstOfIssuer env digest d aki rows = .ok (some (id, row)) := by
  induction rows with
  | nil => cases hmem
  | cons e rows ih =>
    obtain ⟨id', row'⟩ := e
    have hrest : (id', row') ≠ (id, row) → firstOfIssuer env digest d aki rows = .ok (some (id, row)) := by
      intro hne
      apply ih
      · exact (List.mem_cons.1 hmem).resolve_left (Ne.symm hne)
      · exact fun e he => hloads e (List.mem_cons_of_mem _ he)
      · exact fun e he => honly e (List.mem_cons_of_mem _ he)
    unfold firstOfIssuer
    cases hca' : row'.caId with
    | none =>
      apply hrest
      intro heq
      obtain ⟨rfl, rfl⟩ := Prod.mk.inj heq
      rw [hca'] at hca
      cases hca
    | some ca =>
      obtain ⟨kid, hload⟩ := hloads _ List.mem_cons_self ca hca'
      dsimp only
      rw [hload]
      dsimp only [bind, Except.bind]
      split
      · next hsame =>
        rw [hsame] at hload
        rw [honly _ List.mem_cons_self ca hca' hload]
        rfl
      · next hother =>
        apply hrest
        intro heq
        obtain ⟨rfl, rfl⟩ := Prod.mk.inj heq
        obtain rfl := Option.some.inj (hca'.symm.trans hca)
        exact hother (Except.ok.inj (hload.symm.trans hkid))

/-- **The certificate of an identifier is found.** -/
theorem findByCertId_certId (hloads : CasLoad env digest d) (hserials : SerialsUnique env digest d) {cert : Identified}
    {aki : Octets} {n id caId : ℕ} {row : Certificate} (hkid : cert.authorityKeyIdentifier = some (some aki)) (hne : aki ≠ [])
    (hserial : cert.serialNumber = n) (hpos : 0 < n) (hrow : d.certificates.get id = some row) (hhex : row.serialHex = hex n)
    (hca : row.caId = some caId) (hissuer : caKeyIdentifier env digest d caId = .ok aki) :
    ∃ text, certId cert = .ok text ∧ findByCertId env digest d text = .ok (some (id, row)) := by
  obtain ⟨text, htext, hparse⟩ := parseCertId_certId hkid hne hserial hpos
  refine ⟨text, htext, ?_⟩
  unfold findByCertId
  rw [hparse]
  refine firstOfIssuer_of_unique (Table.mem_all.2 ⟨hrow, decide_eq_true hhex⟩) hca hissuer ?_ ?_
  · intro e he ca hca'
    exact hloads e.1 e.2 ca (Table.mem_all.1 he).1 hca'
  · intro e he ca hca' hkid'
    obtain ⟨hget, hsame⟩ := Table.mem_all.1 he
    have hserialEq : e.2.serialHex = row.serialHex := by
      rw [hhex]
      exact of_decide_eq_true hsame
    have hid := hserials e.1 e.2 id row ca caId aki hget hrow hca' hca hkid' hissuer hserialEq
    obtain ⟨id', row'⟩ := e
    obtain rfl := hid
    exact congrArg (Prod.mk id') (Option.some.inj (hget.symm.trans hrow))

end Lookup

/-! ## Certificate identifiers -/

/-- **Certificate identifiers round-trip.** With a key identifier and a positive serial, an identifier is read back; its
serial is the shortest two's complement, behind a zero octet where the first bit is set and only there; two certificates
share an identifier only with key identifier and serial; and the certificate that it is of is found by it. -/
theorem certId_identifies :
    (∀ (cert : Identified) (aki : Octets) (n : ℕ), cert.authorityKeyIdentifier = some (some aki) → aki ≠ [] →
      cert.serialNumber = n → 0 < n → ∃ text, certId cert = .ok text ∧ parseCertId text = .ok (aki, n)) ∧
    (∀ n : ℕ, 0 < n → ∃ b, serialBytes n = .ok b ∧ ofTwos b = n ∧
      (∀ b', b' ≠ [] → ofTwos b' = n → b.length ≤ b'.length ∧ (b'.length = b.length → b' = b)) ∧
      ∃ first rest, toBE ((bitLength n + 7) / 8) n = first :: rest ∧ first ≠ 0 ∧
        b = if 0x80 ≤ first.toNat then 0 :: first :: rest else first :: rest) ∧
    (∀ (cert cert' : Identified) (aki aki' : Octets) (n n' : ℕ) (text : String),
      cert.authorityKeyIdentifier = some (some aki) → aki ≠ [] → cert.serialNumber = n → 0 < n →
      cert'.authorityKeyIdentifier = some (some aki') → aki' ≠ [] → cert'.serialNumber = n' → 0 < n' →
      certId cert = .ok text → certId cert' = .ok text → aki = aki' ∧ n = n') ∧
    (∀ (env : Env) (digest : PublicKey → Octets) (d : Db), CasLoad env digest d → SerialsUnique env digest d →
      ∀ (cert : Identified) (aki : Octets) (n id caId : ℕ) (row : Certificate),
        cert.authorityKeyIdentifier = some (some aki) → aki ≠ [] → cert.serialNumber = n → 0 < n →
        d.certificates.get id = some row → row.serialHex = hex n → row.caId = some caId →
        caKeyIdentifier env digest d caId = .ok aki →
        ∃ text, certId cert = .ok text ∧ findByCertId env digest d text = .ok (some (id, row))) := by
  refine ⟨fun cert aki n => parseCertId_certId, fun n hpos => ?_, ?_, fun env digest d hloads hserials cert aki n id caId row =>
    findByCertId_certId hloads hserials⟩
  · exact ⟨_, serialBytes_natCast n, ofTwos_serial n, fun b hne hb => serial_shortest hne hb, serial_leading hpos⟩
  · intro cert cert' aki aki' n n' text hkid hne hserial hpos hkid' hne' hserial' hpos' htext htext'
    obtain ⟨text₁, htext₁, hparse⟩ := parseCertId_certId hkid hne hserial hpos
    obtain ⟨text₂, htext₂, hparse'⟩ := parseCertId_certId hkid' hne' hserial' hpos'
    obtain rfl := Except.ok.inj (htext₁.symm.trans htext)
    obtain rfl := Except.ok.inj (htext₂.symm.trans htext')
    exact Prod.mk.inj (Except.ok.inj (hparse.symm.trans hparse'))

/-! ### A serial with its first bit set -/

def namedRow (serial : ℕ) : Certificate :=
  { certRow demoEnv ⟨{ demoCaCert.tbs with serialNumber := serial, ca := false },
      ⟨"pem-" ++ hex serial, "fp-" ++ hex serial, "1.2.840.10045.4.3.2", some "sha256"⟩, false⟩ .issued none with
    caId := some 1 }

/-- a CA and two certificates it issued -/
def namedDb : Db :=
  { Db.empty with
    cas := Table.empty.insert ⟨"issuing", none, "ca-pem", "file:ca", "file", false, 0, none, none, none, none, none, none,
      none, none, none, none⟩
    certificates := (Table.empty.insert (namedRow 0x7F)).insert (namedRow 0x80) }

/-- the octets of the key's text -/
def demoDigest (pub : PublicKey) : Octets := pub.spki.toList.map fun c => UInt8.ofNat c.toNat

theorem namedDb_rows {id : ℕ} {row : Certificate} (h : namedDb.certificates.get id = some row) :
    row.caId = some 1 ∧ (row.serialHex = hex 0x7F ∧ id = 1 ∨ row.serialHex = hex 0x80 ∧ id = 2) := by
  unfold namedDb at h
  dsimp only at h
  rw [Table.get_insert, Table.get_insert] at h
  split at h
  · next hid =>
    obtain rfl := Option.some.inj h
    exact ⟨rfl, .inr ⟨rfl, hid⟩⟩
  split at h
  · next hid =>
    obtain rfl := Option.some.inj h
    exact ⟨rfl, .inl ⟨rfl, hid⟩⟩
  · cases h

theorem namedDb_loads : CasLoad demoEnv demoDigest namedDb := by
  intro id row caId hrow hca
  obtain ⟨hone, -⟩ := namedDb_rows hrow
  obtain rfl := Option.some.inj (hone.symm.trans hca)
  exact ⟨demoDigest (demoKey "ca-key"), by decide⟩

theorem namedDb_unique : SerialsUnique demoEnv demoDigest namedDb := by
  intro id row id' row' caId caId' kid hrow hrow' _ _ _ _ hserial
  have hne : hex 0x7F ≠ hex 0x80 := by decide
  obtain ⟨-, hcases⟩ := namedDb_rows hrow
  obtain ⟨-, hcases'⟩ := namedDb_rows hrow'
  rcases hcases with ⟨h, rfl⟩ | ⟨h, rfl⟩
  · rcases hcases' with ⟨h', rfl⟩ | ⟨h', rfl⟩
    · rfl
    · exact absurd (h.symm.trans (hserial.trans h')) hne
  · rcases hcases' with ⟨h', rfl⟩ | ⟨h', rfl⟩
    · exact absurd (h'.symm.trans (hserial.symm.trans h)) hne
    · rfl

/-- the second certificate is found by its identifier -/
theorem found_by_certId : ∃ text, certId ⟨some (some (demoDigest (demoKey "ca-key"))), 0x80⟩ = .ok text ∧
    findByCertId demoEnv demoDigest namedDb text = .ok (some (2, namedRow 0x80)) :=
  certId_identifies.2.2.2 demoEnv demoDigest namedDb namedDb_loads namedDb_unique
    ⟨some (some (demoDigest (demoKey "ca-key"))), 0x80⟩ _ 0x80 2 1 _ rfl (by decide) rfl (by decide) rfl rfl rfl (by decide)

example : serialBytes 0x7F = .ok [0x7F] ∧ serialBytes 0x80 = .ok [0, 0x80] := by decide

end Certadillo.Ari
