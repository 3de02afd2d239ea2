/-
Signing with a key that never leaves its device (`crypto/signers.py`, `sign_x509`).

cryptography's builders sign with a key in the process only. For another signer the builder signs with a throwaway key of the
same kind, its to-be-signed bytes are signed by the device, and the structure is rebuilt around the new signature.

- `signX509_eq`: the structure has the builder's to-be-signed bytes (of a CSR, with the signer's public key in them), its
  algorithm and the signer's signature over these bytes, whatever the length of that signature.
- `signX509_agrees`: so a signer that signs as some key does gives what the builder gives with that key.

Premises: what cryptography documents of its builders and loaders.
-/
import Certadillo.Crypto.Der

namespace Certadillo.Crypto

open Bytes Der

/-! ## Model -/

inductive Kind where
  | certificate | csr | crl
deriving DecidableEq

/-- cryptography; an object it builds or loads is known by its DER -/
structure Library (Builder Key PublicKey Hash : Type) where
  kind : Builder → Kind
  isEc : PublicKey → Bool
  publicKey : Key → PublicKey
  /-- the DER of the SubjectPublicKeyInfo -/
  spki : PublicKey → Octets
  /-- `builder.sign(key, hash_alg)` -/
  sign : Builder → Key → Hash → Except Err Octets
  /-- `tbs_certificate_bytes`, `tbs_certrequest_bytes` or `tbs_certlist_bytes` -/
  tbsBytes : Kind → Octets → Octets
  /-- `load_der_x509_certificate`, `load_der_x509_csr` or `load_der_x509_crl` -/
  load : Kind → Octets → Except Err Octets
  /-- `_dummy_key`: an EC key, or an RSA key -/
  dummyKey : Bool → Key
  sha384 : Hash

structure Signer (Key PublicKey Hash : Type) where
  /-- `private_key`, where it can leave the signer -/
  privateKey : Option Key
  publicKey : PublicKey
  sign : Octets → Hash → Except Err Octets

/-- `xs[i]` -/
def itemAt (xs : List Octets) (i : ℕ) : Except Err Octets :=
  match xs[i]? with
  | some x => .ok x
  | none => .error indexError

variable {Builder Key PublicKey Hash : Type}

/-- a CSR around the signer's own public key -/
def signCsr (lib : Library Builder Key PublicKey Hash) (signer : Signer Key PublicKey Hash) (hash : Hash) (tmp : Octets) :
    Except Err Octets := do
  let info ← splitSequence (lib.tbsBytes .csr tmp)
  let version ← itemAt info 0
  let subject ← itemAt info 1
  let tbs := tlv 0x30 (version ++ subject ++ lib.spki signer.publicKey ++ (info.drop 3).flatten)
  let outer ← splitSequence tmp
  let sig ← signer.sign tbs hash
  let algorithm ← itemAt outer 1
  lib.load .csr (tlv 0x30 (tbs ++ algorithm ++ tlv 0x03 (0x00 :: sig)))

/-- `sign_x509` -/
def signX509 (lib : Library Builder Key PublicKey Hash) (builder : Builder) (signer : Signer Key PublicKey Hash)
    (hashAlg : Option Hash) : Except Err Octets := do
  let hash := hashAlg.getD lib.sha384
  match signer.privateKey with
  | some key => lib.sign builder key hash
  | none =>
    let tmp ← lib.sign builder (lib.dummyKey (lib.isEc signer.publicKey)) hash
    match lib.kind builder with
    | .csr => signCsr lib signer hash tmp
    | kind =>
      let tbs := lib.tbsBytes kind tmp
      let sig ← signer.sign tbs hash
      let der ← replaceSignature tmp tbs sig
      lib.load kind der

/-! ## What the library documents -/

/-- what a builder holds: the bytes of a certificate or CRL, or the fields of a CSR around its public key -/
inductive Content where
  | signed (tbs algorithm : Octets)
  | request (version subject algorithm : Octets) (attributes : List Octets)

namespace Content

/-- the bytes to be signed -/
def tbs (spki : Octets) : Content → Octets
  | signed tbs _ => tbs
  | request version subject _ attributes => tlv 0x30 (version ++ subject ++ spki ++ attributes.flatten)

def algorithm : Content → Octets
  | signed _ algorithm => algorithm
  | request _ _ algorithm _ => algorithm

/-- the structure around a signature -/
def der (spki signature : Octets) (c : Content) : Octets :=
  tlv 0x30 (c.tbs spki ++ c.algorithm ++ tlv 0x03 (0x00 :: signature))

/-- the fields are elements, and only a CSR takes its public key from the signing key -/
def Fits (kind : Kind) : Content → Prop
  | signed tbs algorithm => kind ≠ .csr ∧ Element tbs ∧ Element algorithm
  | request version subject algorithm attributes =>
    kind = .csr ∧ Element version ∧ Element subject ∧ Element algorithm ∧ ∀ a ∈ attributes, Element a

end Content

/-- a builder's content depends on the kind of the key and the hash; keys of `bits` sign it -/
structure Documented (lib : Library Builder Key PublicKey Hash) (content : Builder → Bool → Hash → Except Err Content)
    (bits : Key → Hash → Octets → Octets) : Prop where
  sign_eq : ∀ b k h, lib.sign b k h = (content b (lib.isEc (lib.publicKey k)) h).map fun c =>
    c.der (lib.spki (lib.publicKey k)) (bits k h (c.tbs (lib.spki (lib.publicKey k))))
  fits : ∀ b ec h c, content b ec h = .ok c → c.Fits (lib.kind b)
  spki_element : ∀ p, Element (lib.spki p)
  /-- no structure of 4 GiB or more -/
  small : ∀ b k h c, content b (lib.isEc (lib.publicKey k)) h = .ok c →
    (c.der (lib.spki (lib.publicKey k)) (bits k h (c.tbs (lib.spki (lib.publicKey k))))).length < 2 ^ 32
  tbs_eq : ∀ b k h c, content b (lib.isEc (lib.publicKey k)) h = .ok c →
    lib.tbsBytes (lib.kind b) (c.der (lib.spki (lib.publicKey k)) (bits k h (c.tbs (lib.spki (lib.publicKey k))))) =
      c.tbs (lib.spki (lib.publicKey k))
  /-- a structure is loaded as it is; its signature is not looked at -/
  load_eq : ∀ b ec h c p sig, content b ec h = .ok c →
    lib.load (lib.kind b) (c.der (lib.spki p) sig) = .ok (c.der (lib.spki p) sig)
  dummy_kind : ∀ ec, lib.isEc (lib.publicKey (lib.dummyKey ec)) = ec

/-! ## The external path -/

section External

variable {lib : Library Builder Key PublicKey Hash} {content : Builder → Bool → Hash → Except Err Content}
  {bits : Key → Hash → Octets → Octets} {b : Builder} {signer : Signer Key PublicKey Hash} {c : Content} {hash : Hash}

theorem flatten_three (x y z : Octets) : [x, y, z].flatten = x ++ y ++ z := by simp

theorem elements_three {x y z : Octets} (hx : Element x) (hy : Element y) (hz : Element z) :
    ∀ e ∈ [x, y, z], Element e := by
  intro e he
  simp only [List.mem_cons, List.not_mem_nil, or_false] at he
  rcases he with rfl | rfl | rfl
  · exact hx
  · exact hy
  · exact hz

theorem length_tlv_lt {tag : UInt8} {v : Octets} {n : ℕ} (h : (tlv tag v).length < n) : v.length < n := by
  unfold tlv at h
  rw [List.length_cons, List.length_append] at h
  omega

theorem Content.Fits.algorithm_element {kind : Kind} (h : c.Fits kind) : Element c.algorithm := by
  cases c with
  | signed tbs algorithm => exact h.2.2
  | request version subject algorithm attributes => exact h.2.2.2.1

theorem Content.Fits.tbs_element {kind : Kind} {spki : Octets} (h : c.Fits kind) (hlen : (c.tbs spki).length < 2 ^ 32) :
    Element (c.tbs spki) := by
  cases c with
  | signed tbs algorithm => exact h.2.1
  | request version subject algorithm attributes => exact element_tlv _ (length_tlv_lt hlen)

/-- the three parts of what the builder signed -/
theorem split_der {kind : Kind} {spki signature : Octets} (h : c.Fits kind) (hlen : (c.der spki signature).length < 2 ^ 32) :
    splitSequence (c.der spki signature) = .ok [c.tbs spki, c.algorithm, tlv 0x03 (0x00 :: signature)] ∧
      Element (c.tbs spki) ∧ Element (tlv 0x03 (0x00 :: signature)) := by
  have hinner := length_tlv_lt hlen
  have hparts : (c.tbs spki).length < 2 ^ 32 ∧ (tlv 0x03 (0x00 :: signature)).length < 2 ^ 32 := by
    rw [List.length_append, List.length_append] at hinner
    omega
  have htbs := h.tbs_element hparts.1
  have hsig : Element (tlv 0x03 (0x00 :: signature)) := element_tlv _ (length_tlv_lt hparts.2)
  have hsplit := splitSequence_tlv [c.tbs spki, c.algorithm, tlv 0x03 (0x00 :: signature)]
    (elements_three htbs h.algorithm_element hsig) (by rwa [flatten_three])
  rw [flatten_three] at hsplit
  exact ⟨hsplit, htbs, hsig⟩

/-- the fields of a CSR's to-be-signed bytes -/
theorem split_request {version subject algorithm spki : Octets} {attributes : List Octets}
    (h : (Content.request version subject algorithm attributes).Fits .csr) (hspki : Element spki)
    (hlen : ((Content.request version subject algorithm attributes).tbs spki).length < 2 ^ 32) :
    splitSequence ((Content.request version subject algorithm attributes).tbs spki) =
      .ok (version :: subject :: spki :: attributes) := by
  obtain ⟨-, hversion, hsubject, -, hattributes⟩ := h
  have hall : ∀ x ∈ version :: subject :: spki :: attributes, Element x := by
    intro x hx
    rcases List.mem_cons.1 hx with rfl | hx
    · exact hversion
    rcases List.mem_cons.1 hx with rfl | hx
    · exact hsubject
    rcases List.mem_cons.1 hx with rfl | hx
    · exact hspki
    · exact hattributes x hx
  have hflat : (version :: subject :: spki :: attributes).flatten = version ++ subject ++ spki ++ attributes.flatten := by
    simp
  have hsplit := splitSequence_tlv _ hall (by rw [hflat]; exact length_tlv_lt hlen)
  rwa [hflat] at hsplit

/-- a CSR gets the signer's public key, and nothing else in it changes -/
theorem signCsr_eq {dummySpki dummySig : Octets} (hkind : c.Fits .csr) (hdummy : Element dummySpki)
    (hlen : (c.der dummySpki dummySig).length < 2 ^ 32) (htbs : lib.tbsBytes .csr (c.der dummySpki dummySig) = c.tbs dummySpki)
    (hload : ∀ sig, lib.load .csr (c.der (lib.spki signer.publicKey) sig) = .ok (c.der (lib.spki signer.publicKey) sig)) :
    signCsr lib signer hash (c.der dummySpki dummySig) =
      (signer.sign (c.tbs (lib.spki signer.publicKey)) hash).map fun sig => c.der (lib.spki signer.publicKey) sig := by
  obtain ⟨hsplit, htbsElement, -⟩ := split_der hkind hlen
  have htbsLen : (c.tbs dummySpki).length < 2 ^ 32 := by
    have hinner := length_tlv_lt hlen
    rw [List.length_append, List.length_append] at hinner
    omega
  cases c with
  | signed tbs algorithm => exact absurd rfl hkind.1
  | request version subject algorithm attributes =>
    have hinfo := split_request hkind hdummy htbsLen
    unfold signCsr
    rw [htbs, hinfo, hsplit]
    dsimp only [bind, Except.bind]
    change (do
      let sig ← signer.sign ((Content.request version subject algorithm attributes).tbs (lib.spki signer.publicKey)) hash
      lib.load .csr ((Content.request version subject algorithm attributes).der (lib.spki signer.publicKey) sig)) = _
    cases signer.sign ((Content.request version subject algorithm attributes).tbs (lib.spki signer.publicKey)) hash with
    | error e => rfl
    | ok sig => exact hload sig

/-- a certificate or a CRL gets the signer's signature, and nothing else in it changes -/
theorem replaced_eq {kind : Kind} {tbs algorithm dummySpki dummySig : Octets}
    (hkind : (Content.signed tbs algorithm).Fits kind)
    (hlen : ((Content.signed tbs algorithm).der dummySpki dummySig).length < 2 ^ 32)
    (htbs : lib.tbsBytes kind ((Content.signed tbs algorithm).der dummySpki dummySig) = tbs)
    (hload : ∀ sig, lib.load kind ((Content.signed tbs algorithm).der (lib.spki signer.publicKey) sig) =
      .ok ((Content.signed tbs algorithm).der (lib.spki signer.publicKey) sig)) :
    (do
      let sig ← signer.sign (lib.tbsBytes kind ((Content.signed tbs algorithm).der dummySpki dummySig)) hash
      let der ← replaceSignature ((Content.signed tbs algorithm).der dummySpki dummySig)
        (lib.tbsBytes kind ((Content.signed tbs algorithm).der dummySpki dummySig)) sig
      lib.load kind der) =
    (do
      let sig ← signer.sign tbs hash
      pure ((Content.signed tbs algorithm).der (lib.spki signer.publicKey) sig)) := by
  obtain ⟨-, htbsElement, hold⟩ := split_der hkind hlen
  rw [htbs]
  dsimp only [bind, Except.bind]
  cases signer.sign tbs hash with
  | error e => rfl
  | ok sig =>
    have hreplace := @replaceSignature_tlv tbs algorithm (tlv 0x03 (0x00 :: dummySig)) sig htbsElement hkind.algorithm_element
      hold (length_tlv_lt hlen)
    dsimp only
    unfold Content.der Content.tbs Content.algorithm
    dsimp only
    rw [hreplace]
    exact hload sig

/-- **External keys.** The structure that `signX509` returns for a signer without an exportable key: the builder's content
for a key of this kind, the signer's public key in a CSR, and the signer's own signature over the bytes. -/
theorem signX509_eq (doc : Documented lib content bits) (hkey : signer.privateKey = none) (hashAlg : Option Hash) :
    signX509 lib b signer hashAlg = (do
      let c ← content b (lib.isEc signer.publicKey) (hashAlg.getD lib.sha384)
      let sig ← signer.sign (c.tbs (lib.spki signer.publicKey)) (hashAlg.getD lib.sha384)
      pure (c.der (lib.spki signer.publicKey) sig)) := by
  unfold signX509
  rw [hkey]
  dsimp only
  generalize hashAlg.getD lib.sha384 = hash
  have hdummy := doc.dummy_kind (lib.isEc signer.publicKey)
  generalize lib.dummyKey (lib.isEc signer.publicKey) = dummy at hdummy
  rw [doc.sign_eq, hdummy]
  cases hc : content b (lib.isEc signer.publicKey) hash with
  | error e => rfl
  | ok c =>
    have hc' : content b (lib.isEc (lib.publicKey dummy)) hash = .ok c := by rw [hdummy, hc]
    have hfits := doc.fits b _ hash c hc
    have hlen := doc.small b dummy hash c hc'
    have htbs := doc.tbs_eq b dummy hash c hc'
    have hload := fun sig => doc.load_eq b _ hash c signer.publicKey sig hc
    dsimp only [Except.map, bind, Except.bind]
    generalize bits dummy hash (c.tbs (lib.spki (lib.publicKey dummy))) = dummySig at *
    -- a CSR is rebuilt field by field; a certificate or a CRL only gets a new signature
    cases hkind : lib.kind b with
    | csr =>
      rw [hkind] at hfits htbs hload
      dsimp only
      rw [signCsr_eq hfits (doc.spki_element _) hlen htbs hload]
      rfl
    | certificate =>
      rw [hkind] at hfits htbs hload
      cases c with
      | request version subject algorithm attributes => exact absurd hfits.1 (by decide)
      | signed tbs algorithm => exact replaced_eq hfits hlen htbs hload
    | crl =>
      rw [hkind] at hfits htbs hload
      cases c with
      | request version subject algorithm attributes => exact absurd hfits.1 (by decide)
      | signed tbs algorithm => exact replaced_eq hfits hlen htbs hload

/-- a signer that signs as a key does gives what the builder gives with that key -/
theorem signX509_agrees (doc : Documented lib content bits) (hkey : signer.privateKey = none) (hashAlg : Option Hash) {k : Key}
    (hpublic : signer.publicKey = lib.publicKey k)
    (hsign : ∀ t, signer.sign t (hashAlg.getD lib.sha384) = .ok (bits k (hashAlg.getD lib.sha384) t)) :
    signX509 lib b signer hashAlg = lib.sign b k (hashAlg.getD lib.sha384) := by
  rw [signX509_eq doc hkey, doc.sign_eq, hpublic]
  cases content b (lib.isEc (lib.publicKey k)) (hashAlg.getD lib.sha384) with
  | error e => rfl
  | ok c =>
    dsimp only [bind, Except.bind]
    rw [hsign]
    rfl

/-- **The two paths agree.** For a signer without an exportable key the structure holds the builder's bytes, the builder's
algorithm and the signer's signature over the bytes; it is what the builder gives with a key that signs alike. -/
theorem signX509_external (doc : Documented lib content bits) :
    (∀ b (signer : Signer Key PublicKey Hash) hashAlg, signer.privateKey = none → signX509 lib b signer hashAlg = (do
      let c ← content b (lib.isEc signer.publicKey) (hashAlg.getD lib.sha384)
      let sig ← signer.sign (c.tbs (lib.spki signer.publicKey)) (hashAlg.getD lib.sha384)
      pure (tlv 0x30 (c.tbs (lib.spki signer.publicKey) ++ c.algorithm ++ tlv 0x03 (0x00 :: sig))))) ∧
    (∀ b (signer : Signer Key PublicKey Hash) hashAlg k, signer.privateKey = none → signer.publicKey = lib.publicKey k →
      (∀ t, signer.sign t (hashAlg.getD lib.sha384) = .ok (bits k (hashAlg.getD lib.sha384) t)) →
      signX509 lib b signer hashAlg = lib.sign b k (hashAlg.getD lib.sha384)) ∧
    (∀ children : List Octets, (∀ x ∈ children, Element x) → children.flatten.length < 2 ^ 32 →
      splitSequence (tlv 0x30 children.flatten) = .ok children) ∧
    ∀ data pos n, n < 2 ^ 32 → At data pos (encodeLen n) → readLen data pos = .ok (n, pos + (encodeLen n).length) :=
  ⟨fun _ _ hashAlg hkey => signX509_eq doc hkey hashAlg,
    fun _ _ hashAlg _ hkey hpublic hsign => signX509_agrees doc hkey hashAlg hpublic hsign,
    splitSequence_tlv, fun _ _ _ hn hat => readLen_at (length_encodeLen hn) hat⟩

end External

/-! ## A CSR from a device -/

/-- a library with one CSR; keys are EC or RSA, and on a device or not -/
def csrContent : Content := .request [0x02, 0x01, 0x00] [0x30, 0x00] [0x30, 0x02, 0x05, 0x00] [[0xA0, 0x00]]

def demoSpki (p : Bool × Bool) : Octets := if p.2 then [0x30, 0x01, 0x07] else [0x30, 0x02, 0x08, 0x08]

def demoLibrary : Library Unit (Bool × Bool) (Bool × Bool) Unit where
  kind _ := .csr
  isEc p := p.1
  publicKey k := k
  spki := demoSpki
  sign _ k _ := .ok (csrContent.der (demoSpki k) [0x55])
  tbsBytes _ der := match splitSequence der with
    | .ok (tbs :: _) => tbs
    | _ => []
  load _ der := .ok der
  dummyKey ec := (ec, false)
  sha384 := ()

theorem csrContent_fits : csrContent.Fits .csr := by
  refine ⟨rfl, ⟨0x02, [1], [0x00], .short 1 (by decide), rfl⟩, ⟨0x30, [0], [], .short 0 (by decide), rfl⟩,
    ⟨0x30, [2], [0x05, 0x00], .short 2 (by decide), rfl⟩, ?_⟩
  intro a ha
  rw [List.mem_singleton.1 ha]
  exact ⟨0xA0, [0], [], .short 0 (by decide), rfl⟩

theorem demoSpki_element (p : Bool × Bool) : Element (demoSpki p) := by
  obtain ⟨ec, device⟩ := p
  cases device with
  | false => exact ⟨0x30, [2], [0x08, 0x08], .short 2 (by decide), rfl⟩
  | true => exact ⟨0x30, [1], [0x07], .short 1 (by decide), rfl⟩

theorem csrContent_small : ∀ k, (csrContent.der (demoSpki k) [0x55]).length < 2 ^ 32 := by decide

theorem demoLibrary_documented : Documented demoLibrary (fun _ _ _ => .ok csrContent) (fun _ _ _ => [0x55]) where
  sign_eq _ _ _ := rfl
  fits _ _ _ c hc := by
    obtain rfl := Except.ok.inj hc
    exact csrContent_fits
  spki_element := demoSpki_element
  small _ k _ c hc := by
    obtain rfl := Except.ok.inj hc
    exact csrContent_small k
  tbs_eq _ k _ c hc := by
    obtain rfl := Except.ok.inj hc
    have hsplit := (split_der csrContent_fits (csrContent_small k)).1
    change (match splitSequence (csrContent.der (demoSpki k) [0x55]) with
      | .ok (tbs :: _) => tbs
      | _ => []) = csrContent.tbs (demoSpki k)
    rw [hsplit]
  load_eq _ _ _ _ _ _ _ := rfl
  dummy_kind _ := rfl

/-- the device's key and signature stand in the CSR, those of the throwaway key do not -/
theorem device_csr : signX509 demoLibrary () ⟨none, (true, true), fun _ _ => .ok [1, 2, 3]⟩ none =
    .ok [0x30, 22, 0x30, 10, 0x02, 0x01, 0x00, 0x30, 0x00, 0x30, 0x01, 0x07, 0xA0, 0x00, 0x30, 0x02, 0x05, 0x00,
      0x03, 4, 0x00, 1, 2, 3] :=
  (signX509_external demoLibrary_documented).1 () ⟨none, (true, true), fun _ _ => .ok [1, 2, 3]⟩ none rfl

end Certadillo.Crypto
