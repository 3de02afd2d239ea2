/-
Account keys of the ACME server (`enrollment/acme.py`): JWKs, their thumbprints, new accounts and key rollover.

An account is found by the thumbprint of its JWK, which RFC 7638 takes of the text of the JWK's members. A key has many JWKs:
base64url is read with any unused padding bits and any leading zero octets.

- `newAccount_accounts`, `keyChange_accounts`: what a request does to the accounts.
- `one_account_per_key`: in every run whose requests spell a key that an account holds as this account does, no two accounts
  hold one key, and the account of a key is found.
- `respelled_key`: the same key with other padding bits gets a second account.
-/
import Certadillo.Enrollment.AcmeBody
import Certadillo.Enrollment.AriCertId
import Certadillo.Enrollment.AcmeRaces

namespace Certadillo.AcmeKeys

open Integrity Policy Py Platform Acme Bytes Machine
open AcmeBody (Curve)
open Tx (CalmAt DoesAt Calm Does)

/-! ## Keys -/

/-- the numbers of a JWK -/
inductive Numbers where
  | ec (curve : Curve) (x y : ℕ)
  | rsa (e n : ℕ)
deriving DecidableEq

/-- what the libraries do with numbers and with JSON -/
structure Libs (Key : Type) where
  /-- `public_key()` -/
  publicKey : Numbers → Except Err Key
  /-- base64url of the SHA-256 of the members as canonical JSON -/
  canonicalSha256 : List (String × Json) → String

/-- `b64u_dec`, as in `ari.py` -/
def b64uDec : Json → Except Err Octets
  | .str s => Ari.b64uDec s
  | _ => .error (.type "object has no len()")

/-- `{"P-256": .., "P-384": ..}[v]` -/
def curveOf : Json → Except Err Curve
  | .arr _ => .error (.type "unhashable type: 'list'")
  | .obj _ => .error (.type "unhashable type: 'dict'")
  | v => if v = .str "P-256" then .ok .p256 else if v = .str "P-384" then .ok .p384 else .error (.key "crv")

/-- `int.from_bytes(b64u_dec(jwk[key]), "big")` -/
def number (jwk : Json) (key : String) : Except Err ℕ := do
  let v ← item jwk key
  let octets ← b64uDec v
  pure (ofBE octets)

section Keys

variable {Key : Type} (lib : Libs Key)

def jwkToKey (jwk : Json) : Except Err Key := do
  let kty ← dget jwk "kty"
  if kty = .str "EC" then
    let crv ← item jwk "crv"
    let curve ← curveOf crv
    let x ← number jwk "x"
    let y ← number jwk "y"
    lib.publicKey (.ec curve x y)
  else if kty = .str "RSA" then
    let e ← number jwk "e"
    let n ← number jwk "n"
    lib.publicKey (.rsa e n)
  else throw (.acme "badPublicKey" "unsupported JWK" 400)

/-- the members that RFC 7638 takes -/
def members (jwk : Json) : Except Err (List (String × Json)) := do
  let kty ← item jwk "kty"
  let req := if kty = .str "EC" then ["crv", "kty", "x", "y"] else ["e", "kty", "n"]
  req.mapM fun k => (item jwk k).map (k, ·)

/-- RFC 7638. -/
def thumbprint (jwk : Json) : Except Err String := (members jwk).map lib.canonicalSha256

/-! ## Requests -/

/-- a flattened JWS -/
structure Signed (Key : Type) where
  path : String
  nonce : Except Err String
  url : Except Err String
  keyId : KeyId
  /-- `verify_jws_sig` with the header's algorithm -/
  verifyJwsSig : Key → Except Err Unit
  payload : Except Err Json

/-- the request, its signature under the key of a JWK -/
def Signed.request (r : Signed Key) : Request where
  path := r.path
  nonce := r.nonce
  url := r.url
  keyId := r.keyId
  verifyJws jwk := do
    let key ← jwkToKey lib jwk
    r.verifyJwsSig key
  payload := r.payload
  csrPem := none

def siteOf (site : Site) : Site := { site with thumbprint := thumbprint lib }

/-- the inner JWS of a rollover, signed by the new key -/
structure Inner (Key : Type) where
  prot : Json
  payload : Json
  verifyJwsSig : Key → Except Err Unit

/-- a rollover: the outer JWS, the url and kid of its header, and how its payload is read as a JWS -/
structure Rollover (Key : Type) where
  outer : Signed Key
  url : Json
  kid : Json
  inner : Json → Option (Inner Key)

/-- the inner header carries the new key, and what else it must and must not -/
def checkInner (r : Rollover Key) (i : Inner Key) : Except Err Unit := do
  let hasJwk ← isIn "jwk" i.prot
  let hasKid ← if hasJwk then isIn "kid" i.prot else pure true
  if hasKid then throw (.acme "malformed" "the inner JWS must carry the new key as jwk" 400)
  else if ← isIn "nonce" i.prot then throw (.acme "malformed" "the inner JWS must not have a nonce" 400)
  else
    let url ← dget i.prot "url"
    if url ≠ r.url then throw (.acme "malformed" "inner and outer url differ" 400) else pure ()

/-- the new JWK, once its signature over the inner payload is verified -/
def innerKey (r : Rollover Key) (i : Inner Key) : Except Err Json := do
  checkInner r i
  let jwk ← item i.prot "jwk"
  let newKey ← jwkToKey lib jwk
  i.verifyJwsSig newKey
  pure jwk

/-- the inner payload is of the account that signs -/
def checkAccount (r : Rollover Key) (i : Inner Key) : Except Err Unit := do
  let account ← dget i.payload "account"
  if account ≠ r.kid then throw (.acme "malformed" "inner payload account does not match the outer kid" 400) else pure ()

/-- `oldKey` is the account's current key -/
def checkOldKey (i : Inner Key) (acct : AcmeAccount) : Except Err Unit := do
  let oldKey ← dget i.payload "oldKey"
  let old := if truthy oldKey then oldKey else .obj []
  match thumbprint lib old with
  | .error (.key _) => throw (.acme "malformed" "oldKey is not a JWK" 400)
  | .error e => throw e
  | .ok oldTp =>
    if oldTp ≠ acct.thumbprint then throw (.acme "unauthorized" "oldKey is not this account's current key" 401)
    else pure ()

/-- an account and its new key -/
structure NewKey where
  acct : ℕ × AcmeAccount
  jwk : Json
  thumbprint : String

/-- `key_change`, up to the first write; a conflict is answered as a problem is -/
def mayKeyChange (d : Db) (r : Rollover Key) : Except Err NewKey := do
  let (payload, acct) ← accountOf d (r.outer.request lib)
  match r.inner payload with
  | none => throw (.acme "malformed" "payload must be a flattened JWS signed by the new key" 400)
  | some i =>
    let jwk ← innerKey lib r i
    checkAccount r i
    checkOldKey lib i acct.2
    let newTp ← thumbprint lib jwk
    match ← oneOrNone d.acmeAccounts fun a => a.thumbprint = newTp with
    | some _ => throw (.acme "conflict" "the new key already belongs to an account" 409)
    | none => pure ⟨acct, jwk, newTp⟩

/-- `mayKeyChange` has seen in the same session that no account has the thumbprint, which is unique -/
def storeKeyChange (env : Env) (draws : Draws) (l : NewKey) : M Reply := do
  let acctId := l.acct.1
  let appId := l.acct.2.appId
  saveAccount acctId l.acct.2 { l.acct.2 with jwk := l.jwk, thumbprint := l.thumbprint }
  record env s!"acme:{acctId}" "acme.account.key_change" s!"app:{appId}"
    [("old_thumbprint", .str l.acct.2.thumbprint), ("new_thumbprint", .str l.thumbprint)]
  resp env draws (.account acctId false)

/-! ## Runs -/

/-- a request, with the server's settings and draws at that time -/
inductive Event (Key : Type) where
  | newAccount (env : Env) (site : Site) (draws : Draws) (r : Signed Key)
  | keyChange (env : Env) (draws : Draws) (r : Rollover Key)

/-- a handler behind its nonce -/
def behindNonce (env : Env) (draws : Draws) (req : Request) (handler : M Reply) : M (Except (String × String × ℕ) Reply) :=
  answer env draws do
    let d ← Tx.get
    let nonce ← lift (takeNonce d req)
    spendNonce nonce
    handler

def newAccount (env : Env) (site : Site) (draws : Draws) (r : Signed Key) : M (Except (String × String × ℕ) Reply) :=
  handle env (siteOf lib site) draws (r.request lib) .newAccount

def keyChange (env : Env) (draws : Draws) (r : Rollover Key) : M (Except (String × String × ℕ) Reply) :=
  behindNonce env draws (r.outer.request lib) do
    let d ← Tx.get
    let l ← lift (mayKeyChange lib d r)
    storeKeyChange env draws l

/-- one request, in its session -/
def step (d : Db) : Event Key → Db
  | .newAccount env site draws r => (Tx.transact (newAccount lib env site draws r) d).2
  | .keyChange env draws r => (Tx.transact (keyChange lib env draws r) d).2

end Keys

/-! ## Accounts -/

/-- what leaves the accounts alone -/
def SameAccounts (a b : Db) : Prop := b.acmeAccounts = a.acmeAccounts

/-- the accounts of a table are left alone, or are once given others -/
def Once (t : Table AcmeAccount) (others : Table AcmeAccount → Prop) (a b : Db) : Prop :=
  SameAccounts a b ∨ a.acmeAccounts = t ∧ others b.acmeAccounts

section Effects

variable {env : Env} {draws : Draws} {W : Db → Db → Prop} (hW : ∀ a b, SameAccounts a b → W a b)

theorem calm_newNonce_accounts : Calm SameAccounts (Acme.newNonce env draws) := by
  unfold Acme.newNonce addPlain
  apply Tx.calm_bind
  · apply Tx.calm_get_bind
    intro d
    split
    · exact Tx.calm_throw _
    · exact Tx.calm_bind (Tx.calm_modify fun _ => rfl) fun _ => Tx.calm_pure _
  · exact fun _ => Tx.calm_pure _

theorem calm_record_accounts {actor action target : String} {details : List (String × Json)} :
    Calm SameAccounts (record env actor action target details) := Tx.calm_modify fun _ => rfl

theorem calm_saveEab_accounts (id : ℕ) (loaded new : AcmeEab) : Calm SameAccounts (saveEab id loaded new) :=
  fun _ => calmAt_saveRow rfl

include hW

theorem does_resp_accounts (reply : Reply) : Does W (resp env draws reply) := by
  have hnonce : Calm W (Acme.newNonce env draws) := fun s => (calm_newNonce_accounts s).mono hW
  unfold resp
  exact Tx.does_bind hnonce.does fun _ => Tx.does_bind Tx.does_commit fun _ => (Tx.calm_pure _).does

/-- a problem writes a nonce only -/
theorem doesAt_answer_accounts {s : Session Db} {handler : M Reply} (h : DoesAt W s handler) :
    DoesAt W s (answer env draws handler) := by
  have hnonce : Calm W (Acme.newNonce env draws) := fun s => (calm_newNonce_accounts s).mono hW
  unfold answer
  refine Tx.doesAt_bind h fun result s' _ => ?_
  split
  · exact (Tx.calm_pure _).does s'
  · refine Tx.does_bind Tx.does_rollback (fun _ => ?_) s'
    exact Tx.does_bind hnonce.does fun _ => Tx.does_bind Tx.does_commit fun _ => (Tx.calm_pure _).does
  · exact (Tx.calm_throw _).does s'

/-- behind its nonce a handler finds the accounts as they were -/
theorem doesAt_behindNonce {d : Db} {req : Request} {handler : M Reply}
    (h : ∀ s : Session Db, s.work.acmeAccounts = d.acmeAccounts → DoesAt W s handler) :
    DoesAt W ⟨d, d⟩ (behindNonce env draws req handler) := by
  unfold behindNonce
  apply doesAt_answer_accounts hW
  apply Tx.doesAt_get_bind
  apply Tx.doesAt_ofExcept_bind
  intro nonce _
  have hspend : Does W (spendNonce nonce) := by
    refine Tx.does_bind (Tx.calm_modify fun a => ?_).does fun _ => Tx.does_commit
    exact hW _ _ rfl
  refine Tx.doesAt_bind (hspend _) fun _ s' hrun => h s' ?_
  obtain rfl := (Prod.mk.inj hrun).2
  rfl

end Effects

section Writes

variable {Key : Type} {lib : Libs Key} {env : Env} {draws : Draws} {d : Db}

/-- what `Once` allows in a whole run of it -/
theorem reaches_once {t : Table AcmeAccount} {others : Table AcmeAccount → Prop} {b : Db}
    (h : Relation.ReflTransGen (Once t others) d b) (hd : d.acmeAccounts = t) : b.acmeAccounts = t ∨ others b.acmeAccounts := by
  refine Tx.reaches_inv (I := fun d => d.acmeAccounts = t ∨ others d.acmeAccounts) ?_ h (Or.inl hd)
  intro a b hab ha
  rcases hab with hsame | ⟨-, hother⟩
  · rwa [show b.acmeAccounts = a.acmeAccounts from hsame]
  · exact Or.inr hother

/-- an account of a JWK that no account had the thumbprint of -/
structure Registers (lib : Libs Key) (t : Table AcmeAccount) (jwk : Json) (account : AcmeAccount) : Prop where
  jwk_eq : account.jwk = jwk
  decodes : ∃ key, jwkToKey lib jwk = .ok key
  thumbprint_eq : thumbprint lib jwk = .ok account.thumbprint
  free : ∀ id acct, t.get id = some acct → acct.thumbprint ≠ account.thumbprint

theorem free_of_none {t : Table AcmeAccount} {tp : String} (h : oneOrNone t (fun a => decide (a.thumbprint = tp)) = .ok none) {id : ℕ}
    {acct : AcmeAccount} (hget : t.get id = some acct) : acct.thumbprint ≠ tp := by
  intro heq
  have hfound := oneOrNone_ok h hget (decide_eq_true heq)
  cases hfound

/-- what a request that brings its JWK has passed -/
theorem identify_jwk {req : Request} {jwk payload : Json} {o : Option (ℕ × AcmeAccount)} (hkey : req.keyId = .jwk jwk)
    (h : identify d req true false = .ok (payload, o)) : req.verifyJws jwk = .ok () := by
  unfold identify at h
  obtain ⟨url, -, h⟩ := except_bind_ok.1 h
  split at h
  · cases h
  · rw [hkey] at h
    obtain ⟨⟨⟩, hverify, -⟩ := except_bind_ok.1 h
    exact hverify

theorem verified_decodes {r : Signed Key} {jwk : Json} (h : (r.request lib).verifyJws jwk = .ok ()) :
    ∃ key, jwkToKey lib jwk = .ok key := by
  obtain ⟨key, hkey, -⟩ := except_bind_ok.1 h
  exact ⟨key, hkey⟩

theorem mayNewAccount_create {site : Site} {r : Signed Key} {cred : ℕ × AcmeEab} {account : AcmeAccount}
    (h : mayNewAccount (siteOf lib site) d (r.request lib) = .ok (.create cred account)) :
    ∃ jwk, r.keyId = .jwk jwk ∧ Registers lib d.acmeAccounts jwk account := by
  unfold mayNewAccount at h
  obtain ⟨⟨payload, o⟩, hidentify, h⟩ := except_bind_ok.1 h
  cases hkey : r.keyId with
  | kid acctId =>
    change (r.request lib).keyId = _ at hkey
    rw [hkey] at h
    cases h
  | neither =>
    change (r.request lib).keyId = _ at hkey
    rw [hkey] at h
    cases h
  | jwk jwk =>
    have hverify := identify_jwk (show (r.request lib).keyId = _ from hkey) hidentify
    change (r.request lib).keyId = _ at hkey
    rw [hkey] at h
    obtain ⟨tp, htp, h⟩ := except_bind_ok.1 h
    obtain ⟨found, hfound, h⟩ := except_bind_ok.1 h
    cases found with
    | some existing =>
      dsimp only at h
      split at h
      · cases h
      · cases h
    | none =>
      obtain ⟨only, -, h⟩ := except_bind_ok.1 h
      split at h
      · cases h
      obtain ⟨eab, -, h⟩ := except_bind_ok.1 h
      split at h
      · cases h
      obtain ⟨cred', -, h⟩ := except_bind_ok.1 h
      obtain ⟨contact, -, h⟩ := except_bind_ok.1 h
      have hnew := Except.ok.inj h
      injection hnew with hcred haccount
      subst haccount
      exact ⟨jwk, rfl, rfl, verified_decodes hverify, htp, fun id acct hget => free_of_none hfound hget⟩

/-- the accounts with one more, of the request's JWK -/
def Registered (lib : Libs Key) (r : Signed Key) (t t' : Table AcmeAccount) : Prop :=
  ∃ jwk account, r.keyId = .jwk jwk ∧ Registers lib t jwk account ∧ t' = t.insert account

/-- **A new account**: the accounts stay as they are, or get one of the request's JWK. -/
theorem newAccount_accounts (site : Site) (r : Signed Key) :
    (step lib d (.newAccount env site draws r)).acmeAccounts = d.acmeAccounts ∨
      Registered lib r d.acmeAccounts (step lib d (.newAccount env site draws r)).acmeAccounts := by
  have hW : ∀ a b, SameAccounts a b → Once d.acmeAccounts (Registered lib r d.acmeAccounts) a b := fun _ _ => Or.inl
  have hdoes : DoesAt (Once d.acmeAccounts (Registered lib r d.acmeAccounts)) ⟨d, d⟩ (newAccount lib env site draws r) := by
    apply doesAt_behindNonce hW
    intro s hs
    apply Tx.doesAt_get_bind
    apply Tx.doesAt_ofExcept_bind
    intro l hl
    cases l with
    | existing id => exact does_resp_accounts hW _ s
    | create cred account =>
      obtain ⟨jwk, hjwk, hregisters⟩ := mayNewAccount_create hl
      rw [hs] at hregisters
      have hsave := calm_saveEab_accounts cred.1 cred.2 { cred.2 with used := true } s
      unfold storeNewAccount addPlain
      refine Tx.doesAt_bind (hsave.mono hW).does fun _ s1 hrun => ?_
      have hs1 : s1.work.acmeAccounts = d.acmeAccounts :=
        hsave.keeps (I := fun a => a.acmeAccounts = d.acmeAccounts) (fun a b hab ha => hab.trans ha) hs hrun
      refine Tx.doesAt_bind ?_ fun id s2 _ => ?_
      · apply Tx.doesAt_get_bind
        have hwrite : Once d.acmeAccounts (Registered lib r d.acmeAccounts) s1.work
            (Col.acmeAccounts.put s1.work ((Col.acmeAccounts.get s1.work).insert account)) :=
          Or.inr ⟨hs1, jwk, account, hjwk, hregisters, congrArg (Table.insert · account) hs1⟩
        split
        · exact (Tx.calm_throw _).does s1
        · exact Tx.doesAt_bind (Tx.calmAt_modify hwrite).does fun _ s' _ => (Tx.calm_pure _).does s'
      · exact Tx.does_bind (fun s => ((calm_record_accounts s).mono hW).does) (fun _ => does_resp_accounts hW _) s2
  exact reaches_once (Tx.transact_doesAt hdoes) rfl

/-- the account that signs, and the payload -/
theorem accountOf_ok {req : Request} {payload : Json} {acct : ℕ × AcmeAccount} (h : accountOf d req = .ok (payload, acct)) :
    req.keyId = .kid (some acct.1) ∧ d.acmeAccounts.get acct.1 = some acct.2 ∧ req.payload = .ok payload := by
  unfold accountOf at h
  obtain ⟨⟨payload', o⟩, hidentify, h⟩ := except_bind_ok.1 h
  cases o with
  | none => cases h
  | some acct' =>
    obtain ⟨rfl, rfl⟩ := Prod.mk.inj (Except.ok.inj h)
    unfold identify at hidentify
    obtain ⟨url, -, hidentify⟩ := except_bind_ok.1 hidentify
    split at hidentify
    · cases hidentify
    cases hkey : req.keyId with
    | jwk jwk =>
      rw [hkey] at hidentify
      cases hidentify
    | neither =>
      rw [hkey] at hidentify
      cases hidentify
    | kid acctId =>
      rw [hkey] at hidentify
      dsimp only at hidentify
      rw [if_neg (by decide)] at hidentify
      split at hidentify
      · cases hidentify
      · next id account hfound =>
        obtain ⟨i, rfl, hrow⟩ := Option.bind_eq_some_iff.1 hfound
        obtain ⟨account', hget, heq⟩ := Option.map_eq_some_iff.1 hrow
        obtain ⟨rfl, rfl⟩ := Prod.mk.inj heq
        split at hidentify
        · cases hidentify
        · obtain ⟨⟨⟩, -, hidentify⟩ := except_bind_ok.1 hidentify
          obtain ⟨payload, hpayload, hidentify⟩ := except_bind_ok.1 hidentify
          obtain ⟨rfl, hacct⟩ := Prod.mk.inj (Except.ok.inj hidentify)
          obtain rfl := Option.some.inj hacct
          exact ⟨rfl, hget, hpayload⟩

theorem innerKey_ok {r : Rollover Key} {i : Inner Key} {jwk : Json} (h : innerKey lib r i = .ok jwk) :
    item i.prot "jwk" = .ok jwk ∧ ∃ key, jwkToKey lib jwk = .ok key := by
  unfold innerKey at h
  obtain ⟨⟨⟩, -, h⟩ := except_bind_ok.1 h
  obtain ⟨jwk', hjwk, h⟩ := except_bind_ok.1 h
  obtain ⟨key, hkey, h⟩ := except_bind_ok.1 h
  obtain ⟨⟨⟩, -, h⟩ := except_bind_ok.1 h
  obtain rfl := Except.ok.inj h
  exact ⟨hjwk, key, hkey⟩

/-- the JWK that a rollover brings -/
def Rollover.Brings (r : Rollover Key) (jwk : Json) : Prop :=
  ∃ payload i, r.outer.payload = .ok payload ∧ r.inner payload = some i ∧ item i.prot "jwk" = .ok jwk

/-- the new key of an account, whose thumbprint no account had -/
structure Changes (lib : Libs Key) (r : Rollover Key) (t : Table AcmeAccount) (l : NewKey) : Prop where
  signs : r.outer.keyId = .kid (some l.acct.1)
  stored : t.get l.acct.1 = some l.acct.2
  brings : r.Brings l.jwk
  decodes : ∃ key, jwkToKey lib l.jwk = .ok key
  thumbprint_eq : AcmeKeys.thumbprint lib l.jwk = .ok l.thumbprint
  free : ∀ id acct, t.get id = some acct → acct.thumbprint ≠ l.thumbprint

theorem mayKeyChange_ok {r : Rollover Key} {l : NewKey} (h : mayKeyChange lib d r = .ok l) :
    Changes lib r d.acmeAccounts l := by
  unfold mayKeyChange at h
  obtain ⟨⟨payload, acct⟩, hacct, h⟩ := except_bind_ok.1 h
  obtain ⟨hsigns, hstored, hpayload⟩ := accountOf_ok hacct
  dsimp only at h
  split at h
  · cases h
  · next i hinner =>
    obtain ⟨jwk, hkey, h⟩ := except_bind_ok.1 h
    obtain ⟨hjwk, hdecodes⟩ := innerKey_ok hkey
    obtain ⟨⟨⟩, -, h⟩ := except_bind_ok.1 h
    obtain ⟨⟨⟩, -, h⟩ := except_bind_ok.1 h
    obtain ⟨tp, htp, h⟩ := except_bind_ok.1 h
    obtain ⟨clash, hclash, h⟩ := except_bind_ok.1 h
    cases clash with
    | some _ => cases h
    | none =>
      obtain rfl := Except.ok.inj h
      exact ⟨hsigns, hstored, ⟨payload, i, hpayload, hinner, hjwk⟩, hdecodes, htp, fun id acct hget => free_of_none hclash hget⟩

/-- the accounts with the new key of one -/
def Changed (lib : Libs Key) (r : Rollover Key) (t t' : Table AcmeAccount) : Prop :=
  ∃ l, Changes lib r t l ∧ t' = t.update l.acct.1 fun a => { a with jwk := l.jwk, thumbprint := l.thumbprint }

/-- **A rollover**: the accounts stay as they are, or the account that signs gets the new JWK. -/
theorem keyChange_accounts (r : Rollover Key) :
    (step lib d (.keyChange env draws r)).acmeAccounts = d.acmeAccounts ∨
      Changed lib r d.acmeAccounts (step lib d (.keyChange env draws r)).acmeAccounts := by
  have hW : ∀ a b, SameAccounts a b → Once d.acmeAccounts (Changed lib r d.acmeAccounts) a b := fun _ _ => Or.inl
  have hdoes : DoesAt (Once d.acmeAccounts (Changed lib r d.acmeAccounts)) ⟨d, d⟩ (keyChange lib env draws r) := by
    apply doesAt_behindNonce hW
    intro s hs
    apply Tx.doesAt_get_bind
    apply Tx.doesAt_ofExcept_bind
    intro l hl
    have hchanges := mayKeyChange_ok hl
    rw [hs] at hchanges
    have hwrite : Once d.acmeAccounts (Changed lib r d.acmeAccounts) s.work
        (Col.acmeAccounts.put s.work ((Col.acmeAccounts.get s.work).update l.acct.1
          (assignAccount l.acct.2 { l.acct.2 with jwk := l.jwk, thumbprint := l.thumbprint }))) := by
      refine Or.inr ⟨hs, l, hchanges, ?_⟩
      change s.work.acmeAccounts.update _ _ = _
      rw [hs]
      apply Table.update_congr
      intro a ha
      obtain rfl := Option.some.inj (ha.symm.trans hchanges.stored)
      unfold assignAccount
      simp only [written_self]
    unfold storeKeyChange
    refine Tx.doesAt_bind (calmAt_saveRow hwrite).does fun _ s1 _ => ?_
    exact Tx.does_bind (fun s => ((calm_record_accounts s).mono hW).does) (fun _ => does_resp_accounts hW _) s1
  exact reaches_once (Tx.transact_doesAt hdoes) rfl

end Writes

/-! ## One account per key -/

section Unique

variable {Key : Type} {lib : Libs Key} {d : Db} {es : List (Event Key)}

/-- the account's JWK is one of the key -/
def Holds (lib : Libs Key) (d : Db) (id : ℕ) (acct : AcmeAccount) (key : Key) : Prop :=
  d.acmeAccounts.get id = some acct ∧ jwkToKey lib acct.jwk = .ok key

/-- every account is stored under the thumbprint of its JWK, and no two hold one key or have one thumbprint -/
structure KeysUnique (lib : Libs Key) (d : Db) : Prop where
  thumbprint_eq : ∀ id acct, d.acmeAccounts.get id = some acct → thumbprint lib acct.jwk = .ok acct.thumbprint
  decodes : ∀ id acct, d.acmeAccounts.get id = some acct → ∃ key, Holds lib d id acct key
  thumbprints : ∀ i j a b, d.acmeAccounts.get i = some a → d.acmeAccounts.get j = some b → a.thumbprint = b.thumbprint → i = j
  keys : ∀ i j a b key, Holds lib d i a key → Holds lib d j b key → i = j

/-- the JWK that a request brings, of a new account or of a rollover -/
def Event.Brings (jwk : Json) : Event Key → Prop
  | .newAccount _ _ _ r => r.keyId = .jwk jwk
  | .keyChange _ _ r => r.Brings jwk

/-- the account that a rollover is of -/
def Event.Own (id : ℕ) : Event Key → Prop
  | .newAccount _ _ _ _ => False
  | .keyChange _ _ r => r.outer.keyId = .kid (some id)

/-- where another account holds the key of a request's JWK, the JWK has the members of that account's -/
def SpelledAlike (lib : Libs Key) (d : Db) (e : Event Key) : Prop :=
  ∀ jwk key id acct, e.Brings jwk → jwkToKey lib jwk = .ok key → Holds lib d id acct key → ¬ e.Own id →
    members jwk = members acct.jwk

theorem thumbprint_congr {a b : Json} (h : members a = members b) : thumbprint lib a = thumbprint lib b := by
  unfold thumbprint
  rw [h]

/-- no other account holds a key whose thumbprint is free -/
theorem not_held {e : Event Key} (hd : KeysUnique lib d) (halike : SpelledAlike lib d e) {jwk : Json} {key : Key} {tp : String}
    (hbrings : e.Brings jwk) (hkey : jwkToKey lib jwk = .ok key) (htp : thumbprint lib jwk = .ok tp)
    (hfree : ∀ id acct, d.acmeAccounts.get id = some acct → acct.thumbprint ≠ tp) {id : ℕ} {acct : AcmeAccount}
    (hholds : Holds lib d id acct key) : e.Own id := by
  by_contra hother
  have hmembers := halike jwk key id acct hbrings hkey hholds hother
  have hsame := hd.thumbprint_eq id acct hholds.1
  rw [← thumbprint_congr hmembers, htp] at hsame
  exact hfree id acct hholds.1 (Except.ok.inj hsame).symm

theorem keysUnique_congr {d' : Db} (h : d'.acmeAccounts = d.acmeAccounts) (hd : KeysUnique lib d) : KeysUnique lib d' := by
  obtain ⟨hthumb, hdecodes, hthumbs, hkeys⟩ := hd
  unfold Holds at hdecodes hkeys
  refine ⟨?_, ?_, ?_, ?_⟩
  · rwa [h]
  · unfold Holds
    rwa [h]
  · rwa [h]
  · unfold Holds
    rwa [h]

theorem keysUnique_registered {env : Env} {site : Site} {draws : Draws} {r : Signed Key} {d' : Db} (hd : KeysUnique lib d)
    (halike : SpelledAlike lib d (.newAccount env site draws r)) (h : Registered lib r d.acmeAccounts d'.acmeAccounts) :
    KeysUnique lib d' := by
  obtain ⟨jwk, account, hjwk, ⟨rfl, ⟨key, hkey⟩, htp, hfree⟩, htable⟩ := h
  have hget : ∀ id acct, d'.acmeAccounts.get id = some acct →
      (id = d.acmeAccounts.next ∧ acct = account) ∨ d.acmeAccounts.get id = some acct := by
    intro id acct h
    rw [htable, Table.get_insert] at h
    split at h
    · next hid => exact .inl ⟨hid, (Option.some.inj h).symm⟩
    · exact .inr h
  have hnew : ∀ id acct key', d.acmeAccounts.get id = some acct → jwkToKey lib acct.jwk = .ok key' →
      jwkToKey lib account.jwk ≠ .ok key' := by
    intro id acct key' hrow hacct hsame
    obtain rfl := Except.ok.inj (hkey.symm.trans hsame)
    exact not_held hd halike hjwk hkey htp hfree ⟨hrow, hacct⟩
  refine ⟨?_, ?_, ?_, ?_⟩
  · intro id acct h
    rcases hget id acct h with ⟨-, rfl⟩ | h
    · exact htp
    · exact hd.thumbprint_eq id acct h
  · intro id acct h
    rcases hget id acct h with ⟨-, rfl⟩ | hold
    · exact ⟨key, h, hkey⟩
    · obtain ⟨key', -, hkey'⟩ := hd.decodes id acct hold
      exact ⟨key', h, hkey'⟩
  · intro i j a b ha hb hsame
    rcases hget i a ha with ⟨rfl, rfl⟩ | ha
    · rcases hget j b hb with ⟨rfl, -⟩ | hb
      · rfl
      · exact absurd hsame.symm (hfree j b hb)
    · rcases hget j b hb with ⟨rfl, rfl⟩ | hb
      · exact absurd hsame (hfree i a ha)
      · exact hd.thumbprints i j a b ha hb hsame
  · intro i j a b key' ha hb
    rcases hget i a ha.1 with ⟨rfl, rfl⟩ | hi
    · rcases hget j b hb.1 with ⟨rfl, -⟩ | hj
      · rfl
      · exact absurd ha.2 (hnew j b key' hj hb.2)
    · rcases hget j b hb.1 with ⟨rfl, rfl⟩ | hj
      · exact absurd hb.2 (hnew i a key' hi ha.2)
      · exact hd.keys i j a b key' ⟨hi, ha.2⟩ ⟨hj, hb.2⟩

theorem keysUnique_changed {env : Env} {draws : Draws} {r : Rollover Key} {d' : Db} (hd : KeysUnique lib d)
    (halike : SpelledAlike lib d (.keyChange env draws r)) (h : Changed lib r d.acmeAccounts d'.acmeAccounts) :
    KeysUnique lib d' := by
  obtain ⟨l, ⟨hsigns, hstored, hbrings, ⟨key, hkey⟩, htp, hfree⟩, htable⟩ := h
  have hget : ∀ id acct, d'.acmeAccounts.get id = some acct →
      (id = l.acct.1 ∧ acct = { l.acct.2 with jwk := l.jwk, thumbprint := l.thumbprint }) ∨
        id ≠ l.acct.1 ∧ d.acmeAccounts.get id = some acct := by
    intro id acct h
    rw [htable] at h
    by_cases hid : id = l.acct.1
    · rw [hid, Table.get_update_self, hstored] at h
      exact .inl ⟨hid, (Option.some.inj h).symm⟩
    · rw [Table.get_update_of_ne _ _ hid] at h
      exact .inr ⟨hid, h⟩
  have hnew : ∀ id acct key', id ≠ l.acct.1 → d.acmeAccounts.get id = some acct → jwkToKey lib acct.jwk = .ok key' →
      jwkToKey lib l.jwk ≠ .ok key' := by
    intro id acct key' hother hrow hacct hsame
    obtain rfl := Except.ok.inj (hkey.symm.trans hsame)
    have hown := not_held (e := .keyChange env draws r) hd halike hbrings hkey htp hfree ⟨hrow, hacct⟩
    have hsame := hsigns.symm.trans hown
    injection hsame with hsame
    exact hother (Option.some.inj hsame).symm
  refine ⟨?_, ?_, ?_, ?_⟩
  · intro id acct h
    rcases hget id acct h with ⟨-, rfl⟩ | ⟨-, h⟩
    · exact htp
    · exact hd.thumbprint_eq id acct h
  · intro id acct h
    rcases hget id acct h with ⟨-, rfl⟩ | ⟨-, hold⟩
    · exact ⟨key, h, hkey⟩
    · obtain ⟨key', -, hkey'⟩ := hd.decodes id acct hold
      exact ⟨key', h, hkey'⟩
  · intro i j a b ha hb hsame
    rcases hget i a ha with ⟨rfl, rfl⟩ | ⟨-, ha⟩
    · rcases hget j b hb with ⟨rfl, -⟩ | ⟨-, hb⟩
      · rfl
      · exact absurd hsame.symm (hfree j b hb)
    · rcases hget j b hb with ⟨rfl, rfl⟩ | ⟨-, hb⟩
      · exact absurd hsame (hfree i a ha)
      · exact hd.thumbprints i j a b ha hb hsame
  · intro i j a b key' ha hb
    rcases hget i a ha.1 with ⟨rfl, rfl⟩ | ⟨hi, hrow⟩
    · rcases hget j b hb.1 with ⟨rfl, -⟩ | ⟨hj, hrow⟩
      · rfl
      · exact absurd ha.2 (hnew j b key' hj hrow hb.2)
    · rcases hget j b hb.1 with ⟨rfl, rfl⟩ | ⟨hj, hrow'⟩
      · exact absurd hb.2 (hnew i a key' hi hrow ha.2)
      · exact hd.keys i j a b key' ⟨hrow, ha.2⟩ ⟨hrow', hb.2⟩

/-- what one request keeps -/
theorem step_keysUnique {e : Event Key} (hd : KeysUnique lib d) (halike : SpelledAlike lib d e) :
    KeysUnique lib (step lib d e) := by
  cases e with
  | newAccount env site draws r =>
    rcases newAccount_accounts site r with hsame | hregistered
    · exact keysUnique_congr hsame hd
    · exact keysUnique_registered hd halike hregistered
  | keyChange env draws r =>
    rcases keyChange_accounts r with hsame | hchanged
    · exact keysUnique_congr hsame hd
    · exact keysUnique_changed hd halike hchanged

/-- a request signed by the key of an account is answered for that account -/
theorem newAccount_finds {env : Env} {site : Site} {draws : Draws} {r : Signed Key} {payload jwk : Json} {key : Key} {id : ℕ}
    {acct : AcmeAccount} (hd : KeysUnique lib d) (halike : SpelledAlike lib d (.newAccount env site draws r))
    (hjwk : r.keyId = .jwk jwk) (hidentify : identify d (r.request lib) true false = .ok (payload, none))
    (hkey : jwkToKey lib jwk = .ok key) (hholds : Holds lib d id acct key) :
    mayNewAccount (siteOf lib site) d (r.request lib) = AcmeBody.shown (id, acct) := by
  have hmembers := halike jwk key id acct hjwk hkey hholds (fun h => h)
  have htp : thumbprint lib jwk = .ok acct.thumbprint := by
    rw [thumbprint_congr hmembers]
    exact hd.thumbprint_eq id acct hholds.1
  have hfound : oneOrNone d.acmeAccounts (fun a => decide (a.thumbprint = acct.thumbprint)) = .ok (some (id, acct)) :=
    oneOrNone_unique hholds.1 (decide_eq_true rfl) fun j b hb hsame =>
      hd.thumbprints j id b acct hb hholds.1 (of_decide_eq_true hsame)
  have hreq : (r.request lib).keyId = .jwk jwk := hjwk
  have hsite : (siteOf lib site).thumbprint jwk = .ok acct.thumbprint := htp
  unfold mayNewAccount
  rw [hidentify]
  dsimp only [bind, Except.bind]
  rw [hreq]
  dsimp only
  rw [hsite]
  dsimp only
  rw [hfound]
  rfl

/-- **One account per key.** In every run in which a JWK has the members of the JWK of any other account that holds its key,
no two accounts hold one key, and a new-account request signed by the key of an account is answered for that account. -/
theorem one_account_per_key (lib : Libs Key) (hd : KeysUnique lib d) (h : Along (step lib) (SpelledAlike lib) d es) :
    (∀ i j a b key, Holds lib (run (step lib) d es) i a key → Holds lib (run (step lib) d es) j b key → i = j) ∧
      ∀ env site draws (r : Signed Key) payload jwk key id acct,
        SpelledAlike lib (run (step lib) d es) (.newAccount env site draws r) → r.keyId = .jwk jwk →
        identify (run (step lib) d es) (r.request lib) true false = .ok (payload, none) → jwkToKey lib jwk = .ok key →
        Holds lib (run (step lib) d es) id acct key →
        mayNewAccount (siteOf lib site) (run (step lib) d es) (r.request lib) = AcmeBody.shown (id, acct) := by
  have hrun : KeysUnique lib (run (step lib) d es) := run_inv (fun _ _ => step_keysUnique) hd h
  exact ⟨hrun.keys, fun env site draws r payload jwk key id acct halike hjwk hidentify hkey hholds =>
    newAccount_finds hrun halike hjwk hidentify hkey hholds⟩

theorem keysUnique_empty : KeysUnique lib Db.empty := by
  have hnone : ∀ id acct, Db.empty.acmeAccounts.get id ≠ some acct := by
    intro id acct h
    cases h
  refine ⟨?_, ?_, ?_, ?_⟩
  · exact fun id acct h => absurd h (hnone id acct)
  · exact fun id acct h => absurd h (hnone id acct)
  · exact fun i j a b h => absurd h (hnone i a)
  · exact fun i j a b key h => absurd h.1 (hnone i a)

end Unique

/-! ### A key and its spellings -/

/-- numbers are their own key, and the members their own digest -/
def demoLibs : Libs Numbers where
  publicKey := .ok
  canonicalSha256 ms := String.join (ms.map fun m => match m.2 with
    | .str s => s ++ "."
    | _ => ".")

/-- the base point of P-256, with any spelling of its x -/
def demoJwk (x : String) : Json :=
  .obj [("kty", .str "EC"), ("crv", .str "P-256"), ("x", .str x), ("y", .str "T-NC4v4af5uO5-tKfA-eFivOM1drMV7Oy7ZAaDe_UfU")]

def canonicalX : String := "axfR8uEsQkf4vOblY6RA8ncDfYEt6zOg9KE5RdiYwpY"

/-- the same octets, with one of the unused bits set -/
def respelledX : String := "axfR8uEsQkf4vOblY6RA8ncDfYEt6zOg9KE5RdiYwpZ"

def demoKey : Numbers := .ec .p256 0x6B17D1F2E12C4247F8BCE6E563A440F277037D812DEB33A0F4A13945D898C296
  0x4FE342E2FE1A7F9B8EE7EB4A7C0F9E162BCE33576B315ECECBB6406837BF51F5

def keysSite : Site :=
  { demoSite with
    binding := fun eab => do
      let kid ← item eab "kid"
      let jwk ← item eab "jwk"
      match kid with
      | .str kid => pure ⟨kid, .str "HS256", fun _ => .ok true, .ok jwk⟩
      | _ => throw (.type "kid") }

/-- an app with two credentials, and two nonces -/
def keysDb : Db :=
  { Db.empty with
    apps := Table.empty.insert (inserted demoState (demoApp "web"))
    acmeEab := (Table.empty.insert ⟨"eab-1", "a2V5", none, 1, false⟩).insert ⟨"eab-2", "a2V5", none, 1, false⟩
    acmeNonces := (Table.empty.insert ⟨"nonce-1", 1000⟩).insert ⟨"nonce-2", 1000⟩ }

def demoPayload (kid : String) (jwk : Json) : Json :=
  .obj [("externalAccountBinding", .obj [("kid", .str kid), ("jwk", jwk)])]

def demoSigned (nonce kid : String) (jwk : Json) : Signed Numbers :=
  ⟨"/acme/new-account", .ok nonce, .ok "/acme/new-account", .jwk jwk, fun _ => .ok (), .ok (demoPayload kid jwk)⟩

def demoRegister (nonce kid fresh : String) (jwk : Json) : Event Numbers :=
  .newAccount demoEnv keysSite (demoDraws fresh) (demoSigned nonce kid jwk)

/-- the key is registered in its canonical spelling -/
def registered : List (Event Numbers) := [demoRegister "nonce-1" "eab-1" "nonce-3" (demoJwk canonicalX)]

theorem keysDb_unique : KeysUnique demoLibs keysDb := keysUnique_congr (d := Db.empty) rfl keysUnique_empty

theorem registered_only : ∀ id acct, (run (step demoLibs) keysDb registered).acmeAccounts.get id = some acct →
    acct.jwk = demoJwk canonicalX := by
  have hall : ∀ e ∈ (run (step demoLibs) keysDb registered).acmeAccounts.all (fun _ => true), e.2.jwk = demoJwk canonicalX := by
    decide +kernel
  exact fun id acct h => hall (id, acct) (Table.mem_all.2 ⟨h, rfl⟩)

/-- once more in the same spelling, the key's account is found -/
theorem registered_found :
    mayNewAccount (siteOf demoLibs keysSite) (run (step demoLibs) keysDb registered)
      ((demoSigned "nonce-2" "eab-2" (demoJwk canonicalX)).request demoLibs) = .ok (.existing 1) := by
  obtain ⟨acct, hget, hstatus⟩ : ∃ acct, (run (step demoLibs) keysDb registered).acmeAccounts.get 1 = some acct ∧
      acct.status = .valid := by
    have hrow : ((run (step demoLibs) keysDb registered).acmeAccounts.get 1).map (·.status) = some .valid := by decide +kernel
    exact Option.map_eq_some_iff.1 hrow
  have halike : SpelledAlike demoLibs (run (step demoLibs) keysDb registered)
      (demoRegister "nonce-2" "eab-2" "nonce-4" (demoJwk canonicalX)) := by
    intro jwk key id acct hbrings _ hholds _
    rw [registered_only id acct hholds.1, ← KeyId.jwk.inj hbrings]
  have hfirst : Along (step demoLibs) (SpelledAlike demoLibs) keysDb registered := by
    refine ⟨?_, trivial⟩
    intro jwk key id acct _ _ hholds
    cases hholds.1
  have hkey : jwkToKey demoLibs (demoJwk canonicalX) = .ok demoKey := by decide +kernel
  have hfound := (one_account_per_key demoLibs keysDb_unique hfirst).2 demoEnv keysSite (demoDraws "nonce-4")
    (demoSigned "nonce-2" "eab-2" (demoJwk canonicalX)) (demoPayload "eab-2" (demoJwk canonicalX)) (demoJwk canonicalX)
    demoKey 1 acct halike rfl (by decide +kernel) hkey
    ⟨hget, by rw [registered_only 1 acct hget]; exact hkey⟩
  rw [hfound]
  unfold AcmeBody.shown
  dsimp only
  rw [if_neg (by rw [hstatus]; decide)]

/-- The same key in another spelling: its account is not found, and a second account holds it. -/
theorem respelled_key : ∃ i j a b, i ≠ j ∧
    Holds demoLibs (run (step demoLibs) keysDb (registered ++ [demoRegister "nonce-2" "eab-2" "nonce-4" (demoJwk respelledX)]))
      i a demoKey ∧
    Holds demoLibs (run (step demoLibs) keysDb (registered ++ [demoRegister "nonce-2" "eab-2" "nonce-4" (demoJwk respelledX)]))
      j b demoKey := by
  have hrows : ((run (step demoLibs) keysDb (registered ++
      [demoRegister "nonce-2" "eab-2" "nonce-4" (demoJwk respelledX)])).acmeAccounts.get 1).map (·.jwk) =
        some (demoJwk canonicalX) ∧
      ((run (step demoLibs) keysDb (registered ++
      [demoRegister "nonce-2" "eab-2" "nonce-4" (demoJwk respelledX)])).acmeAccounts.get 2).map (·.jwk) =
        some (demoJwk respelledX) := by
    decide +kernel
  obtain ⟨a, ha, hajwk⟩ := Option.map_eq_some_iff.1 hrows.1
  obtain ⟨b, hb, hbjwk⟩ := Option.map_eq_some_iff.1 hrows.2
  refine ⟨1, 2, a, b, by decide, ⟨ha, ?_⟩, ⟨hb, ?_⟩⟩
  · rw [hajwk]
    decide +kernel
  · rw [hbjwk]
    decide +kernel

end Certadillo.AcmeKeys
