/-
Runs of a process that signs with keys in Vault: calls in any order, between them anything may happen to Vault, and the process
may be restarted.

- `signatures_match_certificate`: whatever Vault answers, a signature made for a CA verifies under the key in its certificate.
- `references_stay`: in one process a reference stands for one public key, which Vault is not asked for again.
- `rotation_harmless`: over a Vault that does what it documents, a reference made in a run goes on signing, with the same key,
  after rotations and restarts.

Premises of the last: `Transit`. The calls of several threads are not interleaved here.
-/
import Certadillo.Crypto.VaultSigner
import Certadillo.Lib.Run

namespace Certadillo.VaultSigner

open Py Bytes Machine

variable {σ PublicKey Hash : Type}

/-! ## Runs -/

inductive Act (σ PublicKey Hash : Type) where
  | generate (name alg : String)
  | load (keyRef : String)
  | signerFor (ca : Ca PublicKey)
  /-- with a signer handed out before -/
  | sign (i : ℕ) (data : Octets) (hash : Hash)
  | health (keyRef : String)
  /-- whatever happens outside the process -/
  | outside (f : σ → σ)
  | restart

/-- a signer, and the CA it was asked for -/
structure Handed (PublicKey : Type) where
  ca : Option (Ca PublicKey)
  signer : Signer PublicKey

structure Signature (PublicKey Hash : Type) where
  by_ : Handed PublicKey
  data : Octets
  hash : Hash
  sig : Octets

structure Run (σ PublicKey Hash : Type) where
  process : Process σ PublicKey
  /-- the signers in the process -/
  signers : List (Handed PublicKey)
  /-- the signatures that have left it -/
  signatures : List (Signature PublicKey Hash)

def Run.start (s : σ) : Run σ PublicKey Hash := ⟨⟨[], s⟩, [], []⟩

/-- a signer is kept where a call returned one -/
def Run.hand (r : Run σ PublicKey Hash) (ca : Option (Ca PublicKey)) :
    Outcome Failure (Signer PublicKey) × Process σ PublicKey → Run σ PublicKey Hash
  | (.returned s, a) => { r with process := a, signers := r.signers ++ [⟨ca, s⟩] }
  | (_, a) => { r with process := a }

def Run.signed (r : Run σ PublicKey Hash) (h : Handed PublicKey) (data : Octets) (hash : Hash) :
    Outcome Failure Octets × Process σ PublicKey → Run σ PublicKey Hash
  | (.returned sig, a) => { r with process := a, signatures := r.signatures ++ [⟨h, data, hash, sig⟩] }
  | (_, a) => { r with process := a }

def step (w : World σ PublicKey Hash) (store : KeyStore) (r : Run σ PublicKey Hash) : Act σ PublicKey Hash → Run σ PublicKey Hash
  | .generate name alg => r.hand none (generate w store name alg r.process)
  | .load keyRef => r.hand none (load w store keyRef r.process)
  | .signerFor ca => r.hand (some ca) (signerFor w store ca r.process)
  | .sign i data hash =>
    match r.signers[i]? with
    | none => r
    | some h => r.signed h data hash (sign w store h.signer data hash r.process)
  | .health keyRef => { r with process := (health w store keyRef r.process).2 }
  | .outside f => { r with process := { r.process with outside := f r.process.outside } }
  | .restart => { r with process := ⟨[], r.process.outside⟩, signers := [] }

/-! ## Whatever Vault answers -/

section Adversary

variable {w : World σ PublicKey Hash} {store : KeyStore}

/-- a signer is remembered with its key, and matches the CA it was asked for -/
structure Sound (w : World σ PublicKey Hash) (a : Process σ PublicKey) (h : Handed PublicKey) : Prop where
  pinned : Pinned h.signer a
  matches_ : ∀ ca, h.ca = some ca → w.spki h.signer.publicKey = w.spki ca.publicKey

/-- a signature verifies, and so does the key it was made with -/
structure Verifies (w : World σ PublicKey Hash) (x : Signature PublicKey Hash) : Prop where
  valid : w.verify x.by_.signer.publicKey (paddingOf w x.by_.signer) x.sig x.data x.hash = .ok true
  matches_ : ∀ ca, x.by_.ca = some ca → w.spki x.by_.signer.publicKey = w.spki ca.publicKey

structure Inv (w : World σ PublicKey Hash) (r : Run σ PublicKey Hash) : Prop where
  signers : ∀ h ∈ r.signers, Sound w r.process h
  signatures : ∀ x ∈ r.signatures, Verifies w x

theorem inv_start (s : σ) : Inv w (Run.start s : Run σ PublicKey Hash) :=
  ⟨fun _ h => absurd h List.not_mem_nil, fun _ h => absurd h List.not_mem_nil⟩

theorem Sound.mono {a b : Process σ PublicKey} {h : Handed PublicKey} (hs : Sound w a h) (he : Extends a.pubs b.pubs) :
    Sound w b h := ⟨he _ _ hs.pinned, hs.matches_⟩

/-- a call that hands out a signer keeps the invariant -/
theorem inv_hand {r : Run σ PublicKey Hash} {ca : Option (Ca PublicKey)} {m : Call σ PublicKey (Signer PublicKey)}
    (hr : Inv w r) (hends : Prog.Ends m)
    (hm : Prog.Holds (fun a => a.pubs = r.process.pubs) m
      (fun s a => Extends r.process.pubs a.pubs ∧ Pinned s a ∧ ∀ c, ca = some c → w.spki s.publicKey = w.spki c.publicKey)
      (fun _ a => Extends r.process.pubs a.pubs)) : Inv w (r.hand ca (m r.process)) := by
  have h := hm r.process rfl
  have hends := hends r.process
  generalize m r.process = x at h hends
  obtain ⟨o, a⟩ := x
  have hold : ∀ {b : Process σ PublicKey}, Extends r.process.pubs b.pubs → ∀ h ∈ r.signers, Sound w b h :=
    fun he h hh => (hr.signers h hh).mono he
  cases o with
  | returned s =>
    obtain ⟨he, hp, hc⟩ := h
    refine ⟨fun h hh => ?_, hr.signatures⟩
    rcases List.mem_append.1 hh with hh | hh
    · exact hold he h hh
    · rw [List.mem_singleton.1 hh]
      exact ⟨hp, hc⟩
  | raised e => exact ⟨hold h, hr.signatures⟩
  | running => exact absurd rfl hends

/-- a call that hands out nothing, and forgets no public key, keeps the invariant -/
theorem Inv.forward {r : Run σ PublicKey Hash} {a : Process σ PublicKey} (hr : Inv w r) (he : Extends r.process.pubs a.pubs) :
    Inv w { r with process := a } := ⟨fun h hh => (hr.signers h hh).mono he, hr.signatures⟩

/-- a signature made with a signer of the process keeps the invariant -/
theorem inv_signed {r : Run σ PublicKey Hash} {h : Handed PublicKey} (hr : Inv w r) (hh : h ∈ r.signers) (data : Octets)
    (hash : Hash) : Inv w (r.signed h data hash (sign w store h.signer data hash r.process)) := by
  have hpost : Prog.Post _ _ (sign w store h.signer data hash r.process) := sign_verified h.signer data hash r.process rfl
  have hends : (sign w store h.signer data hash r.process).1 ≠ .running := ends_sign h.signer data hash r.process
  generalize sign w store h.signer data hash r.process = x at hpost hends
  obtain ⟨o, a⟩ := x
  have hkeep : ∀ {b : Process σ PublicKey}, b.pubs = r.process.pubs → Extends r.process.pubs b.pubs := by
    intro b hb
    rw [hb]
    exact .refl
  cases o with
  | returned sig =>
    obtain ⟨hpubs, hvalid⟩ := hpost
    refine ⟨fun h hh => (hr.signers h hh).mono (hkeep hpubs), fun x hx => ?_⟩
    rcases List.mem_append.1 hx with hx | hx
    · exact hr.signatures x hx
    · rw [List.mem_singleton.1 hx]
      exact ⟨hvalid, (hr.signers h hh).matches_⟩
  | raised e => exact hr.forward (hkeep hpost)
  | running => exact absurd rfl hends

/-- one act -/
theorem step_inv (r : Run σ PublicKey Hash) (o : Act σ PublicKey Hash) (hr : Inv w r) : Inv w (step w store r o) := by
  have hraise : ∀ {a : Process σ PublicKey}, a.pubs = r.process.pubs → Extends r.process.pubs a.pubs := by
    intro a ha
    rw [ha]
    exact .refl
  cases o with
  | generate name alg =>
    refine inv_hand hr (ends_generate name alg) ((generate_pins name alg).mono (fun _ h => h) ?_ fun _ _ => hraise)
    exact fun s a h => ⟨h.1, h.2, fun c hc => by cases hc⟩
  | load keyRef =>
    refine inv_hand hr (ends_load keyRef) ((load_pins keyRef).mono (fun _ h => h) ?_ fun _ _ => hraise)
    exact fun s a h => ⟨h.1, h.2, fun c hc => by cases hc⟩
  | signerFor ca =>
    refine inv_hand hr (ends_signerFor ca) ((signerFor_pins ca).post fun s a h => ⟨h.1, h.2.1, ?_⟩)
    intro c hc
    cases hc
    exact h.2.2
  | sign i data hash =>
    simp only [step]
    cases hi : r.signers[i]? with
    | none => exact hr
    | some h => exact inv_signed hr (List.mem_of_getElem? hi) data hash
  | health keyRef => exact hr.forward (hraise ((health_pubs keyRef).state (ends_health keyRef) rfl))
  | outside f => exact hr.forward .refl
  | restart => exact ⟨fun _ h => absurd h List.not_mem_nil, hr.signatures⟩

theorem run_inv_start (s : σ) (ops : List (Act σ PublicKey Hash)) : Inv w (run (step w store) (Run.start s) ops) :=
  run_keeps (fun r o hr => step_inv r o hr) (inv_start s) ops

/-- **Whatever Vault answers, a signature made for a CA verifies under the public key in its certificate**: in every run, over
restarts, and whatever happens to Vault in between. -/
theorem signatures_match_certificate (hspki : Function.Injective w.spki) (s : σ) (ops : List (Act σ PublicKey Hash))
    {x : Signature PublicKey Hash} {ca : Ca PublicKey} (hx : x ∈ (run (step w store) (Run.start s) ops).signatures)
    (hca : x.by_.ca = some ca) :
    w.verify ca.publicKey (if w.isRsa ca.publicKey then .pkcs1v15 else .ecdsa) x.sig x.data x.hash = .ok true := by
  obtain ⟨hvalid, hmatch⟩ := (run_inv_start s ops).signatures x hx
  have hkey : x.by_.signer.publicKey = ca.publicKey := hspki (hmatch ca hca)
  rw [← hkey]
  exact hvalid

/-- **In one process a reference stands for one key**: a signer that was handed out is what its reference loads from then on,
and Vault is not asked for the public key again. -/
theorem references_stay (s : σ) (ops : List (Act σ PublicKey Hash)) {h : Handed PublicKey}
    (hh : h ∈ (run (step w store) (Run.start s) ops).signers) :
    load w store h.signer.keyRef (run (step w store) (Run.start s) ops).process =
      (.returned h.signer, (run (step w store) (Run.start s) ops).process) :=
  load_pinned ((run_inv_start s ops).signers h hh).pinned

end Adversary

/-! ## A Vault that does what it documents -/

/-- what Vault says of a key has this public key under this version -/
def Describes (w : World σ PublicKey Hash) (info : Json) (version : ℤ) (pub : PublicKey) : Prop :=
  ∃ fields keys entry pem, info = .obj fields ∧ fields.lookup "keys" = some (.obj keys) ∧
    keys.lookup (str version) = some (.obj entry) ∧ entry.lookup "public_key" = some (.str pem) ∧ pem ≠ "" ∧
      w.loadPem pem = .ok pub

/-- a response with these data in its body -/
def Response.Carries (r : Response) (data : Json) : Prop :=
  r.statusCode < 400 ∧ r.statusCode ≠ 204 ∧ r.text ≠ "" ∧ ∃ fields, r.json = some (.obj fields) ∧
    fields.lookup "data" = some data

/-- a request as the client sends it -/
def toVault (store : KeyStore) (token method path : String) (json : Option Json) : Request :=
  ⟨method, urlOf store.client path, json, token, store.client.vaultNamespace.filter (· ≠ "")⟩

/-- the requests of a key store -/
inductive Sent (store : KeyStore) : String → String → Prop where
  | read (keyName : String) : Sent store "GET" (keysPath store keyName)
  | create (keyName : String) : Sent store "POST" (keysPath store keyName)
  | sign (keyName : String) : Sent store "POST" (signPath store keyName)

/-- Vault's Transit engine, and its documentation -/
structure Transit (w : World σ PublicKey Hash) (store : KeyStore) where
  /-- it is reachable and unsealed, and the process has a token for it -/
  Ready : σ → Prop
  /-- it holds this version of the key, with this public key -/
  Has : σ → String → ℤ → PublicKey → Prop
  token : ∀ {s}, Ready s → ∃ t, tokenOf w store.client s = .ok t
  one : ∀ {s keyName version pub pub'}, Has s keyName version pub → Has s keyName version pub' → pub = pub'
  /-- reading, creating and signing seal nothing off and delete no version -/
  ready : ∀ {s method path} (t json), Ready s → Sent store method path →
    Ready (w.send (toVault store t method path json) s).2
  keeps : ∀ {s method path keyName version pub} (t json), Has s keyName version pub → Sent store method path →
    Has (w.send (toVault store t method path json) s).2 keyName version pub
  /-- a key is read with the versions it has -/
  read : ∀ {s keyName version pub t}, Ready s → tokenOf w store.client s = .ok t → Has s keyName version pub →
    ∃ resp info, (w.send (toVault store t "GET" (keysPath store keyName) none) s).1 = .ok resp ∧ resp.Carries info ∧
      Describes w info version pub
  /-- and with no others -/
  truthful : ∀ {s keyName version pub t resp info}, Ready s → tokenOf w store.client s = .ok t →
    (w.send (toVault store t "GET" (keysPath store keyName) none) s).1 = .ok resp → resp.Carries info →
      Describes w info version pub → Has s keyName version pub
  /-- a version signs as its public key verifies, and says which version it is -/
  sign : ∀ {s keyName version pub t} (alg) (hash : Hash) (data), Ready s → tokenOf w store.client s = .ok t →
    Has s keyName version pub → HASHES.lookup (w.hashName hash) = some alg →
      ∃ resp fields sig, (w.send (toVault store t "POST" (signPath store keyName)
          (some (signBody w ⟨keyName, version, pub⟩ alg data))) s).1 = .ok resp ∧ resp.Carries (.obj fields) ∧
        fields.lookup "signature" = some (.str ("vault:v" ++ str version ++ ":" ++ String.ofList (Base64.encode sig))) ∧
        w.verify pub (paddingOf w ⟨keyName, version, pub⟩) sig data hash = .ok true

section Honest

variable {w : World σ PublicKey Hash} {store : KeyStore} {V : Transit w store}

/-- from one state of Vault to another nothing is taken away -/
def Transit.Later (V : Transit w store) (s s' : σ) : Prop :=
  V.Ready s' ∧ ∀ keyName version pub, V.Has s keyName version pub → V.Has s' keyName version pub

/-- Vault is there, and has the keys the process remembers -/
structure Transit.Backed (V : Transit w store) (s₀ : σ) (a : Process σ PublicKey) : Prop where
  ready : V.Ready a.outside
  later : ∀ keyName version pub, V.Has s₀ keyName version pub → V.Has a.outside keyName version pub
  pubs : ∀ keyName version pub, a.pubs.lookup (keyName, version) = some pub → V.Has a.outside keyName version pub

def Transit.HasSigner (V : Transit w store) (s : Signer PublicKey) (a : Process σ PublicKey) : Prop :=
  V.Has a.outside s.keyName s.version s.publicKey

theorem answerOf_carries {r : Response} {data : Json} (h : r.Carries data) (method path : String) :
    ∃ body, answerOf method path r = .ok body ∧ item body "data" = .ok data := by
  obtain ⟨hcode, h204, htext, fields, hjson, hdata⟩ := h
  refine ⟨.obj fields, ?_, ?_⟩
  · unfold answerOf
    rw [if_neg (by omega), if_neg (by simp [h204, htext]), hjson]
  · simp [item, hdata]

theorem carries_of_answer {method path : String} {r : Response} {body data : Json} (h : answerOf method path r = .ok body)
    (hdata : item body "data" = .ok data) : r.Carries data := by
  have hfields : ∃ fields, body = .obj fields ∧ fields.lookup "data" = some data := by
    cases body with
    | obj fields =>
      refine ⟨fields, rfl, ?_⟩
      simp only [item] at hdata
      split at hdata
      · next v hv =>
        cases hdata
        exact hv
      · cases hdata
    | null => cases hdata
    | bool b => cases hdata
    | num n => cases hdata
    | str s => cases hdata
    | arr xs => cases hdata
  obtain ⟨fields, rfl, hlookup⟩ := hfields
  unfold answerOf at h
  split at h
  · split at h <;> cases h
  · split at h
    · cases h
      cases hlookup
    · next hcode hempty =>
      split at h
      · next body hjson =>
        cases h
        refine ⟨by omega, fun h204 => hempty (Or.inl h204), fun htext => hempty (Or.inr htext), fields, hjson, hlookup⟩
      · cases h

/-- the store reads the public key that Vault describes, and no other -/
theorem publicKeyIn_iff {info : Json} {keyName : String} {version : ℤ} {pub : PublicKey} :
    publicKeyIn w info keyName version = .ok pub ↔ Describes w info version pub := by
  constructor
  · intro h
    unfold publicKeyIn at h
    dsimp only at h
    split at h
    · next found hread =>
      cases h
      obtain ⟨keys, hkeys, hread⟩ := except_bind_ok.1 hread
      obtain ⟨entry, hentry, hread⟩ := except_bind_ok.1 hread
      split at hread
      · next hentryTrue =>
        obtain ⟨pem, hpem, hread⟩ := except_bind_ok.1 hread
        split at hread
        · next hpemTrue =>
          obtain ⟨text, htext, hread⟩ := except_bind_ok.1 hread
          obtain ⟨pub', hload, hread⟩ := except_bind_ok.1 hread
          cases hread
          obtain ⟨fields, rfl, hk⟩ := dget_ok.1 hkeys
          obtain ⟨ks, hks, he⟩ := dget_ok.1 hentry
          obtain ⟨es, rfl, hp⟩ := dget_ok.1 hpem
          have hne : keys ≠ .null ∧ keys = .obj ks := by
            unfold orDict at hks
            split at hks
            · next htrue =>
              subst hks
              exact ⟨fun h => (by cases h), rfl⟩
            · cases hks
              cases he
          obtain ⟨hnull, rfl⟩ := hne
          cases pem with
          | str s =>
            cases htext
            refine ⟨fields, ks, es, text, rfl, lookup_of_getD hk hnull, lookup_of_getD he (fun h => (by cases h)),
              lookup_of_getD hp (fun h => (by cases h)), ?_, hload⟩
            simpa [truthy] using hpemTrue
          | null => cases htext
          | bool b => cases htext
          | num n => cases htext
          | arr xs => cases htext
          | obj kvs => cases htext
        · cases hread
      · cases hread
    · cases h
    · cases h
  · rintro ⟨fields, keys, entry, pem, rfl, hk, he, hp, hne, hload⟩
    have hkeys : truthy (.obj keys) = true := by
      cases keys with
      | nil => cases he
      | cons k ks => rfl
    have hentry : truthy (.obj entry) = true := by
      cases entry with
      | nil => cases hp
      | cons k ks => rfl
    have hpem : truthy (.str pem) = true := by simp [truthy, hne]
    have hdict : orDict (.obj keys) = .obj keys := by
      unfold orDict
      rw [if_pos hkeys]
    simp [publicKeyIn, dget, hk, hdict, he, hp, hentry, hpem, toStr, hload, bind, Except.bind, pure, Except.pure]

theorem exchange_of_token {s : σ} {t method path : String} {json : Option Json} (ht : tokenOf w store.client s = .ok t) :
    (exchange w store.client method path json s).2 = (w.send (toVault store t method path json) s).2 ∧
      ∀ body, (exchange w store.client method path json s).1 = .ok body ↔
        ∃ resp, (w.send (toVault store t method path json) s).1 = .ok resp ∧ answerOf method path resp = .ok body := by
  unfold exchange
  rw [ht]
  dsimp only [toVault]
  generalize w.send _ s = x
  obtain ⟨r, s'⟩ := x
  cases r with
  | error e => simp
  | ok resp => simp

/-- what the store asks takes nothing away -/
theorem Transit.Backed.asked {s₀ : σ} {a : Process σ PublicKey} (ha : V.Backed s₀ a) {method path : String}
    (hsent : Sent store method path) (json : Option Json) :
    V.Backed s₀ { a with outside := (exchange w store.client method path json a.outside).2 } := by
  obtain ⟨t, ht⟩ := V.token ha.ready
  rw [(exchange_of_token ht).1]
  exact ⟨V.ready t json ha.ready hsent, fun k v pub h => V.keeps t json (ha.later k v pub h) hsent,
    fun k v pub h => V.keeps t json (ha.pubs k v pub h) hsent⟩

theorem request_backed {s₀ : σ} {method path : String} (hsent : Sent store method path) (json : Option Json) :
    Prog.Holds (V.Backed s₀) (request w store.client method path json) (fun _ => V.Backed s₀) (fun _ => V.Backed s₀) :=
  Prog.holds_talk_state fun _ ha => ha.asked hsent json

theorem lift_backed {s₀ : σ} {α : Type} (x : Except Err α) :
    Prog.Holds (V.Backed s₀) (lift x) (fun _ => V.Backed s₀) (fun _ => V.Backed s₀) :=
  Prog.holds_ofExcept (fun _ _ _ h => h) fun _ _ _ h => h

/-- what the store is told of a key is so -/
theorem keyInfo_backed {s₀ : σ} (keyName : String) :
    Prog.Holds (V.Backed s₀) (keyInfo w store keyName)
      (fun info a => V.Backed s₀ a ∧ ∀ version pub, Describes w info version pub → V.Has a.outside keyName version pub)
      (fun _ => V.Backed s₀) := by
  refine Prog.holds_bind (Q := fun body a => V.Backed s₀ a ∧ ∀ info, item body "data" = .ok info → ∀ version pub,
    Describes w info version pub → V.Has a.outside keyName version pub) (Prog.holds_talk ?_ ?_) fun body => ?_
  · intro body a a' hrun ha
    obtain ⟨hbody, rfl⟩ := Prod.mk.inj hrun
    refine ⟨ha.asked (.read keyName) none, fun info hinfo version pub hd => ?_⟩
    obtain ⟨t, ht⟩ := V.token ha.ready
    obtain ⟨resp, hresp, hanswer⟩ := ((exchange_of_token ht).2 body).1 hbody
    have hhas := V.truthful ha.ready ht hresp (carries_of_answer hanswer hinfo) hd
    have hkept := V.keeps t none hhas (.read keyName)
    rwa [← (exchange_of_token ht).1] at hkept
  · intro e a a' hrun ha
    obtain ⟨-, rfl⟩ := Prod.mk.inj hrun
    exact ha.asked (.read keyName) none
  · refine Prog.holds_ofExcept (fun info a hx h => ⟨h.1, h.2 info (mapError_eq_ok.1 hx)⟩) fun _ _ _ h => h.1

/-- a signer that is handed out is backed by Vault -/
theorem signer_backed {s₀ : σ} (keyName : String) (version : ℤ) (info : Option Json) :
    Prog.Holds
      (fun a => V.Backed s₀ a ∧ ∀ i, info = some i → ∀ v pub, Describes w i v pub → V.Has a.outside keyName v pub)
      (signer w store keyName version info) (fun s a => V.Backed s₀ a ∧ V.HasSigner s a) (fun _ => V.Backed s₀) := by
  unfold signer
  refine Prog.holds_get_bind fun d hd => ?_
  cases hlookup : d.pubs.lookup (keyName, version) with
  | some pub =>
    refine Prog.holds_pure _ fun a h => ?_
    obtain ⟨-, rfl⟩ := h
    exact ⟨hd.1, hd.1.pubs _ _ _ hlookup⟩
  | none =>
    refine Prog.holds_bind (Q := fun i (a : Process σ PublicKey) => V.Backed s₀ a ∧
      ∀ v pub, Describes w i v pub → V.Has a.outside keyName v pub) ?_ fun i => ?_
    · unfold infoOr
      cases hinfo : info.filter truthy with
      | some i => exact Prog.holds_pure _ fun a h => ⟨h.1.1, h.1.2 i (Option.filter_eq_some_iff.1 hinfo).1⟩
      | none => exact (keyInfo_backed keyName).pre fun a h => h.1.1
    · refine Prog.holds_bind (Q := fun pub (a : Process σ PublicKey) => V.Backed s₀ a ∧ V.Has a.outside keyName version pub)
        (Prog.holds_ofExcept (fun pub a hx h => ⟨h.1, h.2 version pub (publicKeyIn_iff.1 hx)⟩) fun _ _ _ h => h.1)
        fun pub => ?_
      refine Prog.holds_bind (Q := fun _ (a : Process σ PublicKey) => V.Backed s₀ a ∧ V.Has a.outside keyName version pub)
        (Prog.holds_modify fun a h => ⟨⟨h.1.ready, h.1.later, fun k v pub' hl => ?_⟩, h.2⟩) fun _ =>
          Prog.holds_pure _ fun a h => h
      rw [List.lookup_cons] at hl
      split at hl
      · next heq =>
        cases hl
        cases eq_of_beq heq
        exact h.2
      · exact h.1.pubs k v pub' hl

theorem load_backed {s₀ : σ} (keyRef : String) :
    Prog.Holds (V.Backed s₀) (load w store keyRef) (fun s a => V.Backed s₀ a ∧ V.HasSigner s a) (fun _ => V.Backed s₀) := by
  unfold load
  split
  · exact Prog.holds_raise _ fun _ h => h
  · dsimp only
    generalize rpartition ':' _ = parts
    refine Prog.holds_bind (lift_backed _) fun version => (signer_backed _ version none).pre fun a h => ⟨h, ?_⟩
    intro i hi
    cases hi

theorem generate_backed {s₀ : σ} (name alg : String) :
    Prog.Holds (V.Backed s₀) (generate w store name alg) (fun s a => V.Backed s₀ a ∧ V.HasSigner s a)
      (fun _ => V.Backed s₀) := by
  unfold generate
  cases VAULT_TYPES.lookup alg with
  | none => exact Prog.holds_raise _ fun _ h => h
  | some type =>
    dsimp only
    generalize store.keyPrefix ++ name = keyName
    have hnew : Prog.Holds (V.Backed s₀) (mustBeNew w store keyName) (fun _ => V.Backed s₀) (fun _ => V.Backed s₀) := by
      refine Prog.holds_bind (Prog.holds_attempt (keyInfo_backed keyName)) fun r => ?_
      cases r with
      | ok info => exact Prog.holds_raise _ fun _ h => h.1
      | error e =>
        cases e with
        | other e => exact Prog.holds_raise _ fun _ h => h
        | vault message status =>
          dsimp only
          split
          · exact Prog.holds_pure _ fun _ h => h
          · exact Prog.holds_raise _ fun _ h => h
    refine Prog.holds_bind hnew fun _ => Prog.holds_bind (request_backed (.create keyName) _) fun _ => ?_
    refine Prog.holds_bind (keyInfo_backed keyName) fun info => ?_
    have hlift : ∀ {α : Type} (x : Except Err α), Prog.Holds
        (fun a => V.Backed s₀ a ∧ ∀ version pub, Describes w info version pub → V.Has a.outside keyName version pub) (lift x)
        (fun _ a => V.Backed s₀ a ∧ ∀ version pub, Describes w info version pub → V.Has a.outside keyName version pub)
        (fun _ => V.Backed s₀) := fun x => Prog.holds_ofExcept (fun _ _ _ h => h) fun _ _ _ h => h.1
    refine Prog.holds_bind (hlift _) fun exportable => Prog.holds_bind (hlift _) fun backup => ?_
    split
    · exact Prog.holds_raise _ fun _ h => h.1
    · refine Prog.holds_bind (hlift _) fun version => (signer_backed keyName version (some info)).pre fun a h => ⟨h.1, ?_⟩
      intro i hi
      cases hi
      exact h.2

theorem signerFor_backed {s₀ : σ} (ca : Ca PublicKey) :
    Prog.Holds (V.Backed s₀) (signerFor w store ca) (fun s a => V.Backed s₀ a ∧ V.HasSigner s a) (fun _ => V.Backed s₀) := by
  unfold signerFor
  dsimp only
  split
  · exact Prog.holds_raise _ fun _ h => h
  · refine Prog.holds_bind (load_backed ca.keyRef) fun s => ?_
    split
    · exact Prog.holds_raise _ fun _ h => h.1
    · exact Prog.holds_pure _ fun _ h => h

theorem sign_backed {s₀ : σ} (s : Signer PublicKey) (data : Octets) (hash : Hash) :
    Prog.Holds (V.Backed s₀) (sign w store s data hash) (fun _ => V.Backed s₀) (fun _ => V.Backed s₀) := by
  unfold sign
  cases HASHES.lookup (w.hashName hash) with
  | none => exact Prog.holds_raise _ fun _ h => h
  | some alg =>
    exact Prog.holds_bind (request_backed (.sign s.keyName) _) fun resp =>
      Prog.holds_ofExcept (fun _ _ _ h => h) fun _ _ _ h => h

theorem health_backed {s₀ : σ} (keyRef : String) :
    Prog.Holds (V.Backed s₀) (health w store keyRef) (fun _ => V.Backed s₀) (fun _ => V.Backed s₀) := by
  unfold health
  dsimp only
  generalize rpartition ':' _ = parts
  refine Prog.holds_bind ((keyInfo_backed _).post fun _ _ h => h.1) fun info => Prog.holds_bind (lift_backed _) fun version => ?_
  refine Prog.holds_bind (lift_backed _) fun latest => Prog.holds_bind (lift_backed _) fun exportable => ?_
  refine Prog.holds_bind (lift_backed _) fun deletion => Prog.holds_bind (lift_backed _) fun present => ?_
  exact Prog.holds_pure _ fun _ h => h

/-! ## Runs over it -/

/-- between the calls: rotations, new keys and other clients' requests, but nothing that seals Vault, cuts the token off or
deletes a version -/
def Transit.Allowed (V : Transit w store) (r : Run σ PublicKey Hash) : Act σ PublicKey Hash → Prop
  | .outside f => V.Ready (f r.process.outside) ∧
    ∀ keyName version pub, V.Has r.process.outside keyName version pub → V.Has (f r.process.outside) keyName version pub
  | _ => True

structure Transit.RunInv (V : Transit w store) (s₀ : σ) (r : Run σ PublicKey Hash) : Prop where
  backed : V.Backed s₀ r.process
  signers : ∀ h ∈ r.signers, V.HasSigner h.signer r.process

/-- from one process state to a later one -/
theorem Transit.Backed.mono {s₀ : σ} {a b : Process σ PublicKey} (ha : V.Backed s₀ a) (hb : V.Backed a.outside b) :
    V.Backed s₀ b := ⟨hb.ready, fun k v pub h => hb.later k v pub (ha.later k v pub h), hb.pubs⟩

/-- a process is backed from its own state on -/
theorem Transit.Backed.self {s₀ : σ} {a : Process σ PublicKey} (ha : V.Backed s₀ a) : V.Backed a.outside a :=
  ⟨ha.ready, fun _ _ _ h => h, ha.pubs⟩

/-- a call that hands out a signer Vault has -/
theorem runInv_hand {s₀ : σ} {r : Run σ PublicKey Hash} {ca : Option (Ca PublicKey)} {m : Call σ PublicKey (Signer PublicKey)}
    (hr : V.RunInv s₀ r) (hends : Prog.Ends m)
    (hm : Prog.Holds (V.Backed r.process.outside) m (fun s a => V.Backed r.process.outside a ∧ V.HasSigner s a)
      (fun _ => V.Backed r.process.outside)) : V.RunInv s₀ (r.hand ca (m r.process)) := by
  have h := hm r.process hr.backed.self
  have hends := hends r.process
  generalize m r.process = x at h hends
  obtain ⟨o, a⟩ := x
  cases o with
  | returned s =>
    refine ⟨hr.backed.mono h.1, fun h' hh => ?_⟩
    rcases List.mem_append.1 hh with hh | hh
    · exact h.1.later _ _ _ (hr.signers h' hh)
    · rw [List.mem_singleton.1 hh]
      exact h.2
  | raised e => exact ⟨hr.backed.mono h, fun h' hh => h.later _ _ _ (hr.signers h' hh)⟩
  | running => exact absurd rfl hends

theorem RunInv.forward {s₀ : σ} {r r' : Run σ PublicKey Hash} (hr : V.RunInv s₀ r)
    (hb : V.Backed r.process.outside r'.process) (hsigners : r'.signers = r.signers) : V.RunInv s₀ r' := by
  refine ⟨hr.backed.mono hb, fun h hh => ?_⟩
  rw [hsigners] at hh
  exact hb.later _ _ _ (hr.signers h hh)

theorem signed_process {r : Run σ PublicKey Hash} {h : Handed PublicKey} {data : Octets} {hash : Hash}
    (x : Outcome Failure Octets × Process σ PublicKey) : (r.signed h data hash x).process = x.2 ∧
      (r.signed h data hash x).signers = r.signers := by
  obtain ⟨o, a⟩ := x
  cases o <;> exact ⟨rfl, rfl⟩

/-- one act -/
theorem step_runInv {s₀ : σ} (r : Run σ PublicKey Hash) (o : Act σ PublicKey Hash) (hr : V.RunInv s₀ r) (ho : V.Allowed r o) :
    V.RunInv s₀ (step w store r o) := by
  cases o with
  | generate name alg => exact runInv_hand hr (ends_generate name alg) (generate_backed name alg)
  | load keyRef => exact runInv_hand hr (ends_load keyRef) (load_backed keyRef)
  | signerFor ca => exact runInv_hand hr (ends_signerFor ca) (signerFor_backed ca)
  | sign i data hash =>
    simp only [step]
    cases hi : r.signers[i]? with
    | none => exact hr
    | some h =>
      have hb := (sign_backed h.signer data hash).state (ends_sign h.signer data hash) hr.backed.self
      refine RunInv.forward hr ?_ (signed_process _).2
      rw [(signed_process _).1]
      exact hb
  | health keyRef => exact RunInv.forward hr ((health_backed keyRef).state (ends_health keyRef) hr.backed.self) rfl
  | outside f =>
    refine RunInv.forward hr ⟨ho.1, ho.2, fun k v pub h => ho.2 k v pub (hr.backed.pubs k v pub h)⟩ rfl
  | restart =>
    refine ⟨⟨hr.backed.ready, hr.backed.later, fun k v pub h => ?_⟩, fun h hh => absurd hh List.not_mem_nil⟩
    cases h

theorem request_returns {a : Process σ PublicKey} {method path : String} {json : Option Json} {body : Json}
    (h : (exchange w store.client method path json a.outside).1 = .ok body) :
    request w store.client method path json a =
      (.returned body, { a with outside := (exchange w store.client method path json a.outside).2 }) := by
  simp only [request, Prog.talk, h]
  rfl

theorem lift_returns {α : Type} {x : Except Err α} {y : α} (h : x = .ok y) (a : Process σ PublicKey) :
    (lift x : Call σ PublicKey α) a = (.returned y, a) := by
  rw [h]
  rfl

/-- a version Vault has is loaded -/
theorem signer_returns {s₀ : σ} {a : Process σ PublicKey} (ha : V.Backed s₀ a) {s : Signer PublicKey}
    (hs : V.HasSigner s a) : ∃ a', signer w store s.keyName s.version none a = (.returned s, a') ∧ V.Backed a.outside a' := by
  have hbacked := signer_backed (V := V) s.keyName s.version none a ⟨ha.self, fun i hi => by cases hi⟩
  suffices h : ∃ a', signer w store s.keyName s.version none a = (.returned s, a') by
    obtain ⟨a', h⟩ := h
    rw [h] at hbacked
    exact ⟨a', h, hbacked.1⟩
  unfold signer
  rw [Prog.bind_returned (m := Prog.get) rfl]
  cases hlookup : a.pubs.lookup (s.keyName, s.version) with
  | some pub =>
    have hsame := V.one (ha.pubs _ _ _ hlookup) hs
    exact ⟨a, by rw [hsame]; rfl⟩
  | none =>
    obtain ⟨t, ht⟩ := V.token ha.ready
    obtain ⟨resp, info, hresp, hcarries, hdescribes⟩ := V.read ha.ready ht hs
    obtain ⟨body, hanswer, hdata⟩ := answerOf_carries hcarries "GET" (keysPath store s.keyName)
    have hexchange := ((exchange_of_token ht).2 body).2 ⟨resp, hresp, hanswer⟩
    have hinfo : ∃ a₁, infoOr w store s.keyName none a = (.returned info, a₁) := by
      unfold infoOr keyInfo
      exact ⟨_, (Prog.bind_returned (request_returns hexchange)).trans (lift_returns hdata _)⟩
    obtain ⟨a₁, hinfo⟩ := hinfo
    refine ⟨{ a₁ with pubs := ((s.keyName, s.version), s.publicKey) :: a₁.pubs }, ?_⟩
    dsimp only
    rw [Prog.bind_returned hinfo, publicKeyIn_iff.2 hdescribes]
    rfl

/-- a version Vault has signs -/
theorem sign_returns {s₀ : σ} {a : Process σ PublicKey} (ha : V.Backed s₀ a) {s : Signer PublicKey} (hs : V.HasSigner s a)
    (data : Octets) {hash : Hash} {alg : String} (halg : HASHES.lookup (w.hashName hash) = some alg) :
    ∃ sig a', sign w store s data hash a = (.returned sig, a') ∧
      w.verify s.publicKey (paddingOf w s) sig data hash = .ok true := by
  obtain ⟨t, ht⟩ := V.token ha.ready
  obtain ⟨resp, fields, sig, hresp, hcarries, hsignature, hvalid⟩ := V.sign alg hash data ha.ready ht hs halg
  obtain ⟨body, hanswer, hdata⟩ := answerOf_carries hcarries "POST" (signPath store s.keyName)
  have hexchange := ((exchange_of_token ht).2 body).2 ⟨resp, hresp, hanswer⟩
  have hparts : signatureParts body = .ok ("vault".toList, 'v' :: (str s.version).toList, Base64.encode sig) := by
    have hversion : ':' ∉ 'v' :: JsonText.intText s.version := by
      intro h
      rcases List.mem_cons.1 h with h | h
      · cases h
      · exact colon_notMem_intText _ h
    have htext : ("vault:v" ++ str s.version ++ ":" ++ String.ofList (Base64.encode sig)).toList =
        "vault".toList ++ ':' :: (('v' :: JsonText.intText s.version) ++ ':' :: Base64.encode sig) := by
      simp [str, String.toList_append]
    have hitem : item (.obj fields) "signature" =
        .ok (.str ("vault:v" ++ str s.version ++ ":" ++ String.ofList (Base64.encode sig))) := by
      simp [item, hsignature]
    unfold signatureParts
    simp only [hdata, hitem, htext, except_ok_bind, split3_append (show ':' ∉ "vault".toList by decide) hversion]
    simp [str, pure, Except.pure]
  have hdecode : b64decode (Base64.encode sig) = .ok sig := by
    unfold b64decode
    have hascii : ((Base64.encode sig).any fun c => decide (128 ≤ c.toNat)) = false := by
      simpa using Base64.encode_ascii sig
    rw [if_neg (by simp [hascii]), Base64.decode_encode]
  have hchecked : checked w s data hash body = .ok sig := by
    unfold checked
    rw [hparts]
    simp [except_ok_bind, hdecode, Except.mapError, hvalid, pure, Except.pure]
  have hrun : sign w store s data hash a = (Prog.ofExcept (checked w s data hash body) : Call σ PublicKey Octets)
      { a with outside := (exchange w store.client "POST" (signPath store s.keyName) (some (signBody w s alg data)) a.outside).2 } := by
    unfold sign
    rw [halg]
    exact Prog.bind_returned (request_returns hexchange)
  rw [hchecked] at hrun
  exact ⟨sig, _, hrun, hvalid⟩

/-- **Rotating a key in Vault, and restarting, does not break a CA.** Over a Vault that does what it documents, a reference that
was handed out in a run loads the same key at every later point of it, and that key signs. -/
theorem rotation_harmless (V : Transit w store) {s : σ} (hs : V.Ready s) (before after : List (Act σ PublicKey Hash))
    (hallowed : Along (step w store) V.Allowed (Run.start s) (before ++ after)) {h : Handed PublicKey}
    (hh : h ∈ (run (step w store) (Run.start s) before).signers) (data : Octets) {hash : Hash}
    (hhash : w.hashName hash ∈ HASHES.map (·.1)) :
    ∃ a sig a', load w store h.signer.keyRef (run (step w store) (Run.start s) (before ++ after)).process =
        (.returned h.signer, a) ∧ sign w store h.signer data hash a = (.returned sig, a') ∧
      w.verify h.signer.publicKey (paddingOf w h.signer) sig data hash = .ok true := by
  obtain ⟨hbefore, hafter⟩ := (along_append _ _ _).1 hallowed
  have hstart : V.RunInv s (Run.start s : Run σ PublicKey Hash) :=
    ⟨⟨hs, fun _ _ _ h => h, fun _ _ _ h => by cases h⟩, fun _ h => absurd h List.not_mem_nil⟩
  have hmid := run_inv (fun r o hr ho => step_runInv r o hr ho) hstart hbefore
  have hhas := hmid.signers h hh
  have hself : V.RunInv (run (step w store) (Run.start s) before).process.outside (run (step w store) (Run.start s) before) :=
    ⟨hmid.backed.self, hmid.signers⟩
  have hend := run_inv (fun r o hr ho => step_runInv r o hr ho) hself hafter
  rw [run_append]
  have hlater := hend.backed.later _ _ _ hhas
  obtain ⟨a, hload, hbacked⟩ := signer_returns hend.backed hlater
  have halg : ∃ alg, HASHES.lookup (w.hashName hash) = some alg := by
    cases hl : HASHES.lookup (w.hashName hash) with
    | some alg => exact ⟨alg, rfl⟩
    | none =>
      obtain ⟨p, hp, hname⟩ := List.mem_map.1 hhash
      have hne := List.lookup_eq_none_iff.1 hl p hp
      simp [hname] at hne
  obtain ⟨alg, halg⟩ := halg
  obtain ⟨sig, a', hsign, hvalid⟩ := sign_returns hbacked (hbacked.later _ _ _ hlater) data halg
  exact ⟨a, sig, a', (congrFun (load_keyRef h.signer) _).trans hload, hsign, hvalid⟩

end Honest

/-! ## A small Vault -/

/-- one key, called `ca`; the state is how often it was made or rotated, and two versions are kept apart -/
def versions (s : ℕ) : List ℤ := if s = 0 then [] else if s = 1 then [1] else [1, 2]

def textBytes (s : String) : Octets := s.toList.map fun c => UInt8.ofNat c.toNat

def smallStore : KeyStore := ⟨⟨"http://vault", some "token", none, none⟩, "transit", ""⟩

def okay (data : Json) : Except String Response := .ok ⟨200, "body", some (.obj [("data", data)])⟩

theorem okay_carries (data : Json) : ∃ resp, okay data = .ok resp ∧ resp.Carries data :=
  ⟨_, rfl, by simp, by simp, by simp, [("data", data)], rfl, rfl⟩

def missing : Except String Response := .ok ⟨404, "no such key", some (.obj [("errors", .arr [])])⟩

def keyEntry (v : ℤ) : String × Json := (str v, .obj [("public_key", .str (str v))])

/-- the signature of a version: its public key, and what was signed -/
def smallSignature (body : Json) : Json :=
  match dget body "key_version", dget body "input" with
  | .ok (.num v), .ok (.str input) =>
    .obj [("signature", .str ("vault:v" ++ str v ++ ":" ++
      String.ofList (Base64.encode (textBytes (str v) ++ (Base64.decode input.toList).getD []))))]
  | _, _ => .obj []

def smallSend (r : Request) (s : ℕ) : Except String Response × ℕ :=
  if r.url = urlOf smallStore.client "transit/keys/ca" then
    if r.method = "POST" then (okay (.obj []), max s 1)
    else if s = 0 then (missing, s)
    else (okay (.obj [("latest_version", .num (versions s).length), ("keys", .obj ((versions s).map keyEntry))]), s)
  else if r.url = urlOf smallStore.client "transit/sign/ca" then (okay (smallSignature (r.json.getD .null)), s)
  else (missing, s)

def smallWorld : World ℕ Octets Unit where
  send := smallSend
  readText _ _ := .error "no such file"
  loadPem pem := .ok (textBytes pem)
  isRsa _ := false
  hashName _ := "sha384"
  verify pub _ sig data _ := .ok (sig == pub ++ data)
  spki pub := pub

theorem str_inj {m n : ℤ} (h : str m = str n) : m = n := by
  have htext := congrArg String.toList h
  simp only [str, String.toList_ofList] at htext
  exact JsonText.intText_inj htext

theorem keysUrl_inj {n : String} (h : urlOf smallStore.client (keysPath smallStore n) = urlOf smallStore.client "transit/keys/ca") :
    n = "ca" := by
  have hpath : lstrip (· = '/') (keysPath smallStore n).toList = "transit/keys/".toList ++ n.toList := by
    simp [keysPath, smallStore, lstrip, String.toList_append]
  have hurl := congrArg String.toList h
  simp only [urlOf, hpath, String.toList_append, String.toList_ofList] at hurl
  have hca : lstrip (· = '/') "transit/keys/ca".toList = "transit/keys/".toList ++ "ca".toList := by decide
  rw [hca] at hurl
  exact String.toList_inj.1 (List.append_cancel_left (List.append_cancel_left hurl))

/-- it has the versions made so far -/
def smallHas (s : ℕ) (keyName : String) (version : ℤ) (pub : Octets) : Prop :=
  keyName = "ca" ∧ version ∈ versions s ∧ pub = textBytes (str version)

theorem lookup_keyEntry {s : ℕ} {v : ℤ} :
    ((versions s).map keyEntry).lookup (str v) = if v ∈ versions s then some (keyEntry v).2 else none := by
  generalize versions s = vs
  induction vs with
  | nil => rfl
  | cons u vs ih =>
    rw [List.map_cons, keyEntry, List.lookup_cons]
    by_cases h : v = u
    · subst h
      simp [keyEntry]
    · have hne : (str v == str u) = false := by simpa using fun heq => h (str_inj heq)
      rw [hne]
      dsimp only
      rw [ih]
      simp [h]

theorem smallSend_read (s : ℕ) (keyName t : String) :
    smallSend (toVault smallStore t "GET" (keysPath smallStore keyName) none) s =
      if keyName = "ca" ∧ s ≠ 0 then
        (okay (.obj [("latest_version", .num (versions s).length), ("keys", .obj ((versions s).map keyEntry))]), s)
      else (missing, s) := by
  unfold smallSend toVault
  dsimp only
  by_cases hname : keyName = "ca"
  · subst hname
    rw [if_pos (by decide), if_neg (by decide)]
    by_cases hs : s = 0
    · simp [hs]
    · simp [hs]
  · rw [if_neg fun h => hname (keysUrl_inj h), if_neg, if_neg fun h => hname h.1]
    intro h
    have hurl := congrArg String.toList h
    have hpath : lstrip (· = '/') (keysPath smallStore keyName).toList = "transit/keys/".toList ++ keyName.toList := by
      simp [keysPath, smallStore, lstrip, String.toList_append]
    have hsign : lstrip (· = '/') "transit/sign/ca".toList = "transit/sign/ca".toList := by decide
    simp only [urlOf, hpath, hsign, String.toList_append, String.toList_ofList] at hurl
    simp [List.append_cancel_left_eq] at hurl

theorem smallSend_state (r : Request) (s : ℕ) : (smallSend r s).2 = s ∨ (smallSend r s).2 = max s 1 := by
  unfold smallSend
  split
  · split
    · exact Or.inr rfl
    · split
      · exact Or.inl rfl
      · exact Or.inl rfl
  · split
    · exact Or.inl rfl
    · exact Or.inl rfl

theorem versions_mono {s s' : ℕ} (h : s ≤ s') {v : ℤ} (hv : v ∈ versions s) : v ∈ versions s' := by
  unfold versions at hv ⊢
  split at hv
  · cases hv
  · rw [if_neg (by omega)]
    split at hv
    · split
      · exact hv
      · exact List.mem_cons.2 (Or.inl (List.mem_singleton.1 hv))
    · rwa [if_neg (by omega)]

theorem smallHas_mono {s s' : ℕ} (h : s ≤ s') {keyName : String} {version : ℤ} {pub : Octets}
    (hs : smallHas s keyName version pub) : smallHas s' keyName version pub := ⟨hs.1, versions_mono h hs.2.1, hs.2.2⟩

/-- it does what Transit documents -/
def smallTransit : Transit smallWorld smallStore where
  Ready _ := True
  Has := smallHas
  token := fun _ => ⟨"token", rfl⟩
  one := fun h h' => h.2.2.trans h'.2.2.symm
  ready := fun _ _ _ _ => trivial
  keeps := by
    intro s method path keyName version pub t json h _
    rcases smallSend_state (toVault smallStore t method path json) s with hs | hs
    · exact smallHas_mono hs.ge h
    · exact smallHas_mono ((le_max_left s 1).trans hs.ge) h
  read := by
    rintro s keyName version pub t - - ⟨rfl, hv, rfl⟩
    have hs : s ≠ 0 := by
      rintro rfl
      cases hv
    change ∃ resp info, (smallSend _ s).1 = _ ∧ _
    rw [smallSend_read, if_pos ⟨rfl, hs⟩]
    obtain ⟨resp, hresp, hcarries⟩ := okay_carries (.obj [("latest_version", .num (versions s).length),
      ("keys", .obj ((versions s).map keyEntry))])
    refine ⟨resp, _, hresp, hcarries, _, (versions s).map keyEntry, [("public_key", .str (str version))], str version, rfl,
      rfl, ?_, rfl, ?_, rfl⟩
    · rw [lookup_keyEntry, if_pos hv]
      rfl
    · intro h
      have htext := congrArg String.toList h
      simp only [str, String.toList_ofList] at htext
      cases version <;> simp [JsonText.intText] at htext
  truthful := by
    rintro s keyName version pub t resp info - - hsend hcarries hdescribes
    change (smallSend _ s).1 = _ at hsend
    rw [smallSend_read] at hsend
    split at hsend
    · next h =>
      cases hsend
      obtain ⟨-, -, -, fields, hfields, hdata⟩ := hcarries
      cases hfields
      cases hdata
      obtain ⟨fields, keys, entry, pem, hinfo, hkeys, hentry, hpem, -, hload⟩ := hdescribes
      cases hinfo
      cases hkeys
      rw [lookup_keyEntry] at hentry
      split at hentry
      · next hv =>
        cases hentry
        cases hpem
        cases hload
        exact ⟨h.1, hv, rfl⟩
      · cases hentry
    · cases hsend
      exact absurd hcarries.1 (by decide)
  sign := by
    rintro s keyName version pub t alg hash data - - ⟨rfl, hv, rfl⟩ -
    have hbody : smallSignature (signBody smallWorld ⟨"ca", version, textBytes (str version)⟩ alg data) =
        .obj [("signature", .str ("vault:v" ++ str version ++ ":" ++
          String.ofList (Base64.encode (textBytes (str version) ++ data))))] := by
      have hversion : dget (signBody smallWorld ⟨"ca", version, textBytes (str version)⟩ alg data) "key_version" =
          .ok (.num version) := rfl
      have hinput : dget (signBody smallWorld ⟨"ca", version, textBytes (str version)⟩ alg data) "input" =
          .ok (.str (String.ofList (Base64.encode data))) := rfl
      unfold smallSignature
      rw [hversion, hinput]
      simp [Base64.decode_encode]
    obtain ⟨resp, hresp, hcarries⟩ := okay_carries
      (smallSignature (signBody smallWorld ⟨"ca", version, textBytes (str version)⟩ alg data))
    rw [hbody] at hcarries
    exact ⟨resp, _, textBytes (str version) ++ data, hresp, hcarries, rfl, by simp [smallWorld]⟩

def smallCa : Ca Octets := ⟨"ca", "vault-transit:ca:1", textBytes "1"⟩

def caHanded : Handed Octets := ⟨some smallCa, ⟨"ca", 1, textBytes "1"⟩⟩

/-- the second version of the key is there, and the CA signs with the first -/
theorem signed_for_ca : smallWorld.verify (textBytes "1") .ecdsa [0x31, 0x30] [0x30] () = .ok true :=
  @signatures_match_certificate ℕ Octets Unit smallWorld smallStore (fun _ _ h => h) 2
    [.signerFor smallCa, .sign 0 [0x30] ()] ⟨caHanded, [0x30], (), [0x31, 0x30]⟩ smallCa (List.mem_singleton.2 rfl) rfl

def newHanded : Handed Octets := ⟨none, ⟨"ca", 1, textBytes "1"⟩⟩

def smallRun (ops : List (Act ℕ Octets Unit)) : Run ℕ Octets Unit := run (step smallWorld smallStore) (Run.start 0) ops

/-- a new key, loaded from its reference -/
theorem reference_of_new_key : load smallWorld smallStore "vault-transit:ca:1" (smallRun [.generate "ca" "ec-p384"]).process =
    (.returned newHanded.signer, (smallRun [.generate "ca" "ec-p384"]).process) :=
  @references_stay ℕ Octets Unit smallWorld smallStore 0 [.generate "ca" "ec-p384"] newHanded (List.mem_singleton.2 rfl)

/-- a new key, rotated before the process starts again -/
theorem new_key_rotated : ∃ a sig a', load smallWorld smallStore "vault-transit:ca:1"
      (smallRun ([.generate "ca" "ec-p384"] ++ [.outside (· + 1), .restart])).process = (.returned newHanded.signer, a) ∧
    sign smallWorld smallStore newHanded.signer [0x30] () a = (.returned sig, a') ∧
    smallWorld.verify (textBytes "1") .ecdsa sig [0x30] () = .ok true :=
  rotation_harmless smallTransit trivial [.generate "ca" "ec-p384"] [.outside (· + 1), .restart]
    ⟨trivial, ⟨trivial, fun _ _ _ h => smallHas_mono (Nat.le_succ _) h⟩, trivial, trivial⟩ (h := newHanded)
    (List.mem_singleton.2 rfl) [0x30] (by decide)

end Certadillo.VaultSigner
