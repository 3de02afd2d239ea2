/-
Encrypted columns over changes of the key source (`crypto/fieldcipher.py`).

A stored value says which source it was encrypted with, and `decrypt` reads that, but a cipher only has a Vault client if Vault
is the source it encrypts with now.

- `decrypt_own`, `decrypt_vault`: what each kind of value decrypts to.
- `readable_iff`: every stored value can be read exactly where Vault is the source or no value is Vault's.
- `readable_after_switches_iff`: the same over runs.
- `switch_back_unreadable`: from Vault back to the local key.

Premises: Fernet and Vault Transit decrypt what they encrypted, and Transit takes no key name with a colon.
-/
import Certadillo.Py
import Certadillo.Lib.Base64
import Certadillo.Lib.Run
import Certadillo.Lib.Tx

namespace Certadillo.Crypto

open Py Machine

/-! ## Model -/

abbrev Bytes := List UInt8

/-- where Vault is and how to log in -/
structure VaultSettings where
  addr : String
  token : Option String
  tokenFile : Option String
deriving DecidableEq

structure Settings where
  fieldCipher : String
  keyPassphrase : String
  vault : VaultSettings
  transitMount : String
  transitKey : String

/-- the libraries, and Vault; a number stands for the randomness of an encryption -/
structure World where
  lower : Chars → Chars
  /-- HKDF over the passphrase, as a Fernet key -/
  deriveKey : String → String
  fernetEncrypt : String → ℕ → Bytes → String
  fernetDecrypt : String → String → Option Bytes
  /-- `VaultClient.request("POST", path, body)`, or the text of its `VaultError` -/
  request : VaultSettings → ℕ → String → Json → Except String Json

/-- `PREFIX` -/
def marker : String := "enc:v1:"

def isEncrypted (value : String) : Bool := value ≠ "" && startsWith value.toList marker.toList

/-- `VaultClient.from_settings` -/
def vaultClient (v : VaultSettings) : Except String VaultSettings :=
  if v.addr = "" then .error "CERTADILLO_VAULT_ADDR is not set"
  else if (v.token.getD "") = "" && (v.tokenFile.getD "") = "" then
    .error "set CERTADILLO_VAULT_TOKEN_FILE (Vault Agent sink) or CERTADILLO_VAULT_TOKEN"
  else .ok v

structure FieldCipher where
  mode : String
  settings : Settings
  fernetKey : String
  client : Option VaultSettings

/-- `(settings.field_cipher or "local").lower()` -/
def modeOf (w : World) (settings : Settings) : String :=
  let source := if settings.fieldCipher = "" then "local" else settings.fieldCipher
  String.ofList (w.lower source.toList)

/-- `FieldCipher(settings)` -/
def FieldCipher.init (w : World) (settings : Settings) : Except Err FieldCipher :=
  let mode := modeOf w settings
  let fernetKey := w.deriveKey settings.keyPassphrase
  if mode = "vault" then
    match vaultClient settings.vault with
    | .error exc => .error (.other s!"CERTADILLO_FIELD_CIPHER=vault: {exc}")
    | .ok client => .ok ⟨mode, settings, fernetKey, some client⟩
  else .ok ⟨mode, settings, fernetKey, none⟩

/-- `_vault`: the `data` of Transit's answer -/
def transit (w : World) (c : FieldCipher) (draw : ℕ) (op key : String) (body : Json) : Except Err Json :=
  match c.client with
  | none => .error (.attribute "'NoneType' object has no attribute 'request'")
  | some client =>
    match w.request client draw (c.settings.transitMount ++ "/" ++ op ++ "/" ++ key) body with
    | .error exc => .error (.other s!"Vault Transit {op} failed: {exc}")
    | .ok answer =>
      match item answer "data" with
      | .error (.key name) => .error (.other s!"Vault Transit {op} failed: '{name}'")
      | result => result

/-- a `str` or `bytes` -/
inductive Plaintext where
  | str (s : String)
  | bytes (b : Bytes)

/-- what is encrypted -/
def Plaintext.data : Plaintext → Bytes
  | .str s => s.toByteArray.data.toList
  | .bytes b => b

def b64encode (b : Bytes) : String := String.ofList (Base64.encode b)

/-- `base64.b64decode` of a text -/
def b64decode (text : String) : Except Err Bytes :=
  if text.toList.any fun c => 128 ≤ c.toNat then .error (.value "string argument should contain only ASCII characters")
  else
    match Base64.decode text.toList with
    | none => .error (.value "Incorrect padding")
    | some b => .ok b

def encrypt (w : World) (c : FieldCipher) (draw : ℕ) (plaintext : Plaintext) : Except Err String :=
  if c.mode = "vault" then do
    let key := c.settings.transitKey
    let answer ← transit w c draw "encrypt" key (.obj [("plaintext", .str (b64encode plaintext.data))])
    match ← item answer "ciphertext" with
    | .str ct => pure (marker ++ "vault:" ++ key ++ ":" ++ ct)
    | _ => throw (.type "Transit answers with texts")
  else .ok (marker ++ "local:" ++ w.fernetEncrypt c.fernetKey draw plaintext.data)

def decrypt (w : World) (c : FieldCipher) (draw : ℕ) (value : String) : Except Err Bytes :=
  if !isEncrypted value then .error (.other "value is not encrypted")
  else
    let (scheme, rest) := partition ':' (value.toList.drop marker.length)
    if scheme = "local".toList then
      match w.fernetDecrypt c.fernetKey (String.ofList rest) with
      | none => .error (.other "local field key does not decrypt this value")
      | some b => .ok b
    else if scheme = "vault".toList then do
      let (key, ct) := partition ':' rest
      let answer ← transit w c draw "decrypt" (String.ofList key) (.obj [("ciphertext", .str (String.ofList ct))])
      match ← item answer "plaintext" with
      | .str text => b64decode text
      | _ => throw (.type "argument should be a bytes-like object or ASCII string")
    else
      let shown := pyRepr (String.ofList scheme)
      .error (.other s!"unknown field cipher scheme {shown}")

/-- `decrypt_str` -/
def decryptStr (w : World) (c : FieldCipher) (draw : ℕ) (value : String) : Except Err String := do
  let b ← decrypt w c draw value
  match String.fromUTF8? ⟨b.toArray⟩ with
  | some s => pure s
  | none => throw (.value "'utf-8' codec can't decode")

/-! ## What the libraries promise -/

/-- Fernet and Transit decrypt what they encrypted, and Transit's key names have no colon -/
structure World.Sound (w : World) (v : VaultSettings) (mount : String) : Prop where
  fernet : ∀ key draw b, w.fernetDecrypt key (w.fernetEncrypt key draw b) = some b
  names : ∀ draw key body answer, w.request v draw (mount ++ "/" ++ "encrypt" ++ "/" ++ key) body = .ok answer →
    ':' ∉ key.toList
  roundTrip : ∀ draw key b answer ct,
    w.request v draw (mount ++ "/" ++ "encrypt" ++ "/" ++ key) (.obj [("plaintext", .str (b64encode b))]) = .ok answer →
    (item answer "data" >>= fun data => item data "ciphertext") = .ok (.str ct) →
    ∀ draw', ∃ answer', w.request v draw' (mount ++ "/" ++ "decrypt" ++ "/" ++ key) (.obj [("ciphertext", .str ct)]) = .ok answer' ∧
      ∃ data', item answer' "data" = .ok data' ∧ item data' "plaintext" = .ok (.str (b64encode b))

/-! ## Texts -/

theorem partition_append {sep : Char} {k t : Chars} (h : sep ∉ k) : partition sep (k ++ sep :: t) = (k, t) := by
  have hne : ∀ c ∈ k, decide (c ≠ sep) = true := by
    intro c hc
    refine decide_eq_true fun heq => h ?_
    rw [← heq]
    exact hc
  have htake : (k ++ sep :: t).takeWhile (· ≠ sep) = k := by
    rw [List.takeWhile_append_of_pos hne]
    simp
  have hdrop : (k ++ sep :: t).dropWhile (· ≠ sep) = sep :: t := by
    rw [List.dropWhile_append_of_pos hne]
    simp
  unfold partition
  rw [htake, hdrop]
  rfl

theorem b64decode_encode (b : Bytes) : b64decode (b64encode b) = .ok b := by
  have hascii : ((Base64.encode b).any fun c => 128 ≤ c.toNat) = false := by
    rw [List.any_eq_false]
    intro c hc
    have hlt := Base64.encode_ascii b c hc
    simpa using hlt
  unfold b64decode b64encode
  rw [String.toList_ofList, hascii, Base64.decode_encode]
  rfl

/-- a stored value of each source -/
def localValue (token : String) : String := marker ++ "local:" ++ token

def vaultValue (key ct : String) : String := marker ++ "vault:" ++ key ++ ":" ++ ct

/-- the value was encrypted by Vault -/
def isVault (value : String) : Bool := startsWith value.toList (marker ++ "vault:").toList

theorem localValue_toList (token : String) : (localValue token).toList =
    'e' :: 'n' :: 'c' :: ':' :: 'v' :: '1' :: ':' :: 'l' :: 'o' :: 'c' :: 'a' :: 'l' :: ':' :: token.toList := by
  simp [localValue, marker]

theorem vaultValue_toList (key ct : String) : (vaultValue key ct).toList =
    'e' :: 'n' :: 'c' :: ':' :: 'v' :: '1' :: ':' :: 'v' :: 'a' :: 'u' :: 'l' :: 't' :: ':' :: (key.toList ++ ':' :: ct.toList) := by
  simp [vaultValue, marker]

theorem isEncrypted_of_toList {value : String} {rest : Chars}
    (h : value.toList = 'e' :: 'n' :: 'c' :: ':' :: 'v' :: '1' :: ':' :: rest) : isEncrypted value = true := by
  have hne : value ≠ "" := by
    rintro rfl
    cases h
  have hstarts : startsWith value.toList marker.toList = true := by
    rw [h]
    rfl
  unfold isEncrypted
  rw [hstarts, decide_eq_true hne]
  rfl

section Decrypt

variable {w : World} {c : FieldCipher} {draw : ℕ}

theorem decrypt_local (token : String) : decrypt w c draw (localValue token) =
    match w.fernetDecrypt c.fernetKey token with
    | none => .error (.other "local field key does not decrypt this value")
    | some b => .ok b := by
  have hencrypted : isEncrypted (localValue token) = true := isEncrypted_of_toList (localValue_toList token)
  have hsplit : partition ':' ((localValue token).toList.drop marker.length) = ("local".toList, token.toList) := by
    rw [localValue_toList]
    exact partition_append (k := "local".toList) (t := token.toList) (by decide)
  unfold decrypt
  rw [hencrypted, hsplit]
  simp

/-- the answer's plaintext -/
def plaintextOf (answer : Json) : Except Err Bytes := do
  match ← item answer "plaintext" with
  | .str text => b64decode text
  | _ => throw (.type "argument should be a bytes-like object or ASCII string")

theorem decrypt_vault {key : String} (ct : String) (hkey : ':' ∉ key.toList) : decrypt w c draw (vaultValue key ct) =
    transit w c draw "decrypt" key (.obj [("ciphertext", .str ct)]) >>= plaintextOf := by
  have hencrypted : isEncrypted (vaultValue key ct) = true := isEncrypted_of_toList (vaultValue_toList key ct)
  have hsplit : partition ':' ((vaultValue key ct).toList.drop marker.length) =
      ("vault".toList, key.toList ++ ':' :: ct.toList) := by
    rw [vaultValue_toList]
    exact partition_append (k := "vault".toList) (t := key.toList ++ ':' :: ct.toList) (by decide)
  have hscheme : "vault".toList ≠ "local".toList := by decide
  unfold decrypt
  rw [hencrypted, hsplit]
  simp only [Bool.not_true, Bool.false_eq_true, if_false, hscheme, if_true, partition_append hkey, String.ofList_toList]
  rfl

/-- a value is only Vault's if it was encrypted by Vault -/
theorem isVault_local (token : String) : isVault (localValue token) = false := by
  unfold isVault startsWith
  rw [localValue_toList]
  rfl

theorem isVault_vault (key ct : String) : isVault (vaultValue key ct) = true := by
  unfold isVault startsWith
  rw [vaultValue_toList]
  rfl

end Decrypt

/-! ## Runs -/

/-- the running cipher, and what was encrypted so far -/
structure St where
  cipher : FieldCipher
  values : List (Plaintext × String)

inductive Op where
  | switch (mode transitKey : String)
  | encrypt (draw : ℕ) (plaintext : Plaintext)

section Runs

variable (w : World) (base : Settings)

/-- the deployment's settings with this source; the passphrase and Vault stay -/
def settingsOf (mode transitKey : String) : Settings := { base with fieldCipher := mode, transitKey := transitKey }

/-- a restart with another source, which leaves the old process where the new one does not start; or an encryption -/
def step (s : Crypto.St) : Crypto.Op → Crypto.St
  | .switch mode transitKey =>
    match FieldCipher.init w (settingsOf base mode transitKey) with
    | .ok c => { s with cipher := c }
    | .error _ => s
  | .encrypt draw plaintext =>
    match Crypto.encrypt w s.cipher draw plaintext with
    | .ok value => { s with values := (plaintext, value) :: s.values }
    | .error _ => s

/-- every stored value decrypts to what was encrypted -/
def Readable (s : Crypto.St) : Prop := ∀ p ∈ s.values, ∀ draw, decrypt w s.cipher draw p.2 = .ok p.1.data

/-- Vault is the source, or no stored value is Vault's -/
def VaultKept (s : Crypto.St) : Prop := s.cipher.mode = "vault" ∨ ∀ p ∈ s.values, isVault p.2 = false

/-- a cipher of the deployment -/
structure Deployed (c : FieldCipher) : Prop where
  fernetKey : c.fernetKey = w.deriveKey base.keyPassphrase
  mount : c.settings.transitMount = base.transitMount
  client : c.client = if c.mode = "vault" then some base.vault else none

/-- where a stored value comes from -/
inductive Origin : Plaintext × String → Prop where
  | fernet (draw : ℕ) (plaintext : Plaintext) :
      Origin (plaintext, localValue (w.fernetEncrypt (w.deriveKey base.keyPassphrase) draw plaintext.data))
  | vault (draw : ℕ) (plaintext : Plaintext) (key ct : String) (answer : Json)
      (hanswer : w.request base.vault draw (base.transitMount ++ "/" ++ "encrypt" ++ "/" ++ key)
        (.obj [("plaintext", .str (b64encode plaintext.data))]) = .ok answer)
      (hct : (item answer "data" >>= fun data => item data "ciphertext") = .ok (.str ct)) :
      Origin (plaintext, vaultValue key ct)

structure Inv (s : Crypto.St) : Prop where
  cipher : Deployed w base s.cipher
  values : ∀ p ∈ s.values, Origin w base p

end Runs

section Step

variable {w : World} {base : Settings} {c : FieldCipher} {s : Crypto.St}

theorem init_deployed {mode transitKey : String} (h : FieldCipher.init w (settingsOf base mode transitKey) = .ok c) :
    Deployed w base c := by
  unfold FieldCipher.init at h
  dsimp only at h
  split at h
  · next hmode =>
    split at h
    · cases h
    · next client hclient =>
      obtain rfl := Except.ok.inj h
      have hsame : client = base.vault := by
        unfold vaultClient at hclient
        split at hclient
        · cases hclient
        · split at hclient
          · cases hclient
          · exact (Except.ok.inj hclient).symm
      exact ⟨rfl, rfl, by rw [if_pos hmode, hsame]⟩
  · next hmode =>
    obtain rfl := Except.ok.inj h
    exact ⟨rfl, rfl, by rw [if_neg hmode]⟩

/-- a value that is encrypted has its source's form -/
theorem encrypt_origin (hc : Deployed w base c) {draw : ℕ} {plaintext : Plaintext} {value : String}
    (h : encrypt w c draw plaintext = .ok value) : Origin w base (plaintext, value) := by
  unfold encrypt at h
  split at h
  · next hmode =>
    obtain ⟨data, hdata, h₁⟩ := except_bind_ok.1 h
    obtain ⟨ct, hct, h₂⟩ := except_bind_ok.1 h₁
    split at h₂
    · next text =>
      obtain rfl := Except.ok.inj h₂
      unfold transit at hdata
      rw [hc.client, if_pos hmode, hc.mount] at hdata
      dsimp only at hdata
      split at hdata
      · cases hdata
      · next answer hanswer =>
        refine .vault draw plaintext c.settings.transitKey text answer hanswer ?_
        split at hdata
        · cases hdata
        · rw [hdata]
          exact hct
    · cases h₂
  · obtain rfl := Except.ok.inj h
    rw [hc.fernetKey]
    exact .fernet draw plaintext

theorem inv_step (hinv : Crypto.Inv w base s) (o : Crypto.Op) : Crypto.Inv w base (Crypto.step w base s o) := by
  cases o with
  | switch mode transitKey =>
    cases hinit : FieldCipher.init w (settingsOf base mode transitKey) with
    | error e =>
      simp only [Crypto.step, hinit]
      exact hinv
    | ok c =>
      simp only [Crypto.step, hinit]
      exact ⟨init_deployed hinit, hinv.values⟩
  | encrypt draw plaintext =>
    cases henc : Crypto.encrypt w s.cipher draw plaintext with
    | error e =>
      simp only [Crypto.step, henc]
      exact hinv
    | ok value =>
      simp only [Crypto.step, henc]
      refine ⟨hinv.cipher, fun p hp => ?_⟩
      rcases List.mem_cons.1 hp with rfl | hp
      · exact encrypt_origin hinv.cipher henc
      · exact hinv.values p hp

/-- a value decrypts to what was encrypted, unless it is Vault's and the cipher has no Vault client -/
theorem decrypt_iff (hsound : w.Sound base.vault base.transitMount) (hc : Deployed w base c) {p : Plaintext × String}
    (h : Origin w base p) (draw : ℕ) : decrypt w c draw p.2 = .ok p.1.data ↔ c.mode = "vault" ∨ isVault p.2 = false := by
  cases h with
  | fernet draw' plaintext =>
    refine iff_of_true ?_ (Or.inr (isVault_local _))
    rw [decrypt_local, hc.fernetKey, hsound.fernet]
  | vault draw' plaintext key ct answer hanswer hct =>
    have hkey : ':' ∉ key.toList := hsound.names _ _ _ _ hanswer
    have hisVault : isVault (vaultValue key ct) = true := isVault_vault key ct
    rw [decrypt_vault ct hkey, hisVault]
    by_cases hmode : c.mode = "vault"
    · refine iff_of_true ?_ (Or.inl hmode)
      obtain ⟨answer', hanswer', data', hdata', hplain⟩ := hsound.roundTrip _ _ _ _ _ hanswer hct draw
      have htransit : transit w c draw "decrypt" key (.obj [("ciphertext", .str ct)]) = .ok data' := by
        unfold transit
        rw [hc.client, if_pos hmode, hc.mount]
        dsimp only
        rw [hanswer']
        dsimp only
        rw [hdata']
      rw [htransit]
      show plaintextOf data' = _
      unfold plaintextOf
      rw [hplain]
      exact b64decode_encode _
    · refine iff_of_false (fun hok => ?_) fun hor => ?_
      · unfold transit at hok
        rw [hc.client, if_neg hmode] at hok
        cases hok
      · rcases hor with hvault | hlocal
        · exact hmode hvault
        · cases hlocal

/-- **Every stored value can be read exactly where Vault is the source or no value is Vault's.** -/
theorem readable_iff (hsound : w.Sound base.vault base.transitMount) (hinv : Crypto.Inv w base s) :
    Readable w s ↔ VaultKept s := by
  constructor
  · intro hreadable
    by_cases hmode : s.cipher.mode = "vault"
    · exact Or.inl hmode
    · refine Or.inr fun p hp => ?_
      have hor := (decrypt_iff hsound hinv.cipher (hinv.values p hp) 0).1 (hreadable p hp 0)
      exact hor.resolve_left hmode
  · intro hkept p hp draw
    exact (decrypt_iff hsound hinv.cipher (hinv.values p hp) draw).2 (hkept.imp_right fun hall => hall p hp)

/-- **After every change of source and every encryption of a run all stored values can be read, exactly where Vault stays
the source from the first value it encrypted on.** -/
theorem readable_after_switches_iff (hsound : w.Sound base.vault base.transitMount) {mode transitKey : String}
    (hinit : FieldCipher.init w (settingsOf base mode transitKey) = .ok c) (ops : List Crypto.Op) :
    Along (Crypto.step w base) (fun s o => Readable w (Crypto.step w base s o)) ⟨c, []⟩ ops ↔
      Along (Crypto.step w base) (fun s o => VaultKept (Crypto.step w base s o)) ⟨c, []⟩ ops :=
  along_congr_inv (I := Crypto.Inv w base) (fun _ o hinv _ => inv_step hinv o)
    (fun _ o hinv => readable_iff hsound (inv_step hinv o)) ⟨init_deployed hinit, nofun⟩

/-- a text that was encrypted is read as that text -/
theorem decryptStr_str {draw : ℕ} {value text : String} (h : decrypt w c draw value = .ok (Plaintext.str text).data) :
    decryptStr w c draw value = .ok text := by
  have hbytes : (⟨(Plaintext.str text).data.toArray⟩ : ByteArray) = text.toByteArray := rfl
  have hdecode : String.fromUTF8? text.toByteArray = some text := by
    unfold String.fromUTF8?
    rw [dif_pos text.isValidUTF8]
    rfl
  unfold decryptStr
  rw [h, except_ok_bind, hbytes, hdecode]
  rfl

end Step

/-! ### From Vault back to the local key -/

section Examples

/-- a Transit that only wraps, with one key, and a Fernet that only encodes -/
def demoWorld : World where
  lower := List.map Char.toLower
  deriveKey passphrase := passphrase
  fernetEncrypt _ _ b := b64encode b
  fernetDecrypt _ token := Base64.decode token.toList
  request _ _ path body :=
    if path = "transit/encrypt/certadillo-fields" then
      match item body "plaintext" with
      | .ok (.str text) => .ok (.obj [("data", .obj [("ciphertext", .str ("vault:v1:" ++ text))])])
      | _ => .error "missing plaintext"
    else if path = "transit/decrypt/certadillo-fields" then
      match item body "ciphertext" with
      | .ok (.str text) => .ok (.obj [("data", .obj [("plaintext", .str (String.ofList (text.toList.drop 9)))])])
      | _ => .error "missing ciphertext"
    else .error "permission denied"

def demoSettings : Settings := ⟨"local", "correct horse battery staple", ⟨"https://vault:8200", some "s.test", none⟩, "transit", ""⟩

/-- only the path of the key is Transit's -/
theorem encrypt_path {key : String} :
    demoSettings.transitMount ++ "/" ++ "encrypt" ++ "/" ++ key = "transit/encrypt/certadillo-fields" ↔
      key = "certadillo-fields" := by
  constructor
  · intro h
    have hlist := congrArg String.toList h
    simp [demoSettings] at hlist
    exact String.toList_inj.1 (by simpa using hlist)
  · rintro rfl
    rfl

theorem encrypt_path_ne (key : String) :
    demoSettings.transitMount ++ "/" ++ "encrypt" ++ "/" ++ key ≠ "transit/decrypt/certadillo-fields" := by
  intro h
  have hlist := congrArg String.toList h
  simp [demoSettings] at hlist

theorem demoWorld_sound : demoWorld.Sound demoSettings.vault demoSettings.transitMount where
  fernet _ _ b := by
    show Base64.decode (String.ofList (Base64.encode b)).toList = some b
    rw [String.toList_ofList, Base64.decode_encode]
  names draw key body answer h := by
    have hkey : key = "certadillo-fields" := by
      by_contra hne
      simp only [demoWorld, encrypt_path, hne, if_false, encrypt_path_ne] at h
      cases h
    rw [hkey]
    decide
  roundTrip draw key b answer ct h hct draw' := by
    have hkey : key = "certadillo-fields" := by
      by_contra hne
      simp only [demoWorld, encrypt_path, hne, if_false, encrypt_path_ne] at h
      cases h
    subst hkey
    obtain rfl := Except.ok.inj (show Except.ok (Json.obj [("data", .obj [("ciphertext", .str ("vault:v1:" ++ b64encode b))])]) =
      .ok answer from h)
    obtain rfl := Json.str.inj (Except.ok.inj (show Except.ok (Json.str ("vault:v1:" ++ b64encode b)) = .ok (.str ct) from hct))
    refine ⟨.obj [("data", .obj [("plaintext", .str (String.ofList (("vault:v1:" ++ b64encode b).toList.drop 9)))])], rfl, ?_⟩
    refine ⟨.obj [("plaintext", .str (String.ofList (("vault:v1:" ++ b64encode b).toList.drop 9)))], rfl, ?_⟩
    have hdrop : String.ofList (("vault:v1:" ++ b64encode b).toList.drop 9) = b64encode b := by
      rw [String.toList_append]
      exact String.ofList_toList
    rw [hdrop]
    rfl

def vaultCipher : FieldCipher :=
  ⟨"vault", settingsOf demoSettings "Vault" "certadillo-fields", "correct horse battery staple", some demoSettings.vault⟩

theorem vaultCipher_init :
    FieldCipher.init demoWorld (settingsOf demoSettings "Vault" "certadillo-fields") = .ok vaultCipher := rfl

/-- a secret encrypted by Vault, then the local key -/
def switchBack : List Crypto.Op := [.encrypt 0 (.str "hmac"), .switch "local" "certadillo-fields"]

theorem switchBack_readable_iff :
    Along (Crypto.step demoWorld demoSettings) (fun s o => Readable demoWorld (Crypto.step demoWorld demoSettings s o))
      ⟨vaultCipher, []⟩ switchBack ↔
    Along (Crypto.step demoWorld demoSettings) (fun s o => VaultKept (Crypto.step demoWorld demoSettings s o))
      ⟨vaultCipher, []⟩ switchBack :=
  readable_after_switches_iff demoWorld_sound vaultCipher_init switchBack

/-- after the switch -/
def switched : Crypto.St := run (Crypto.step demoWorld demoSettings) ⟨vaultCipher, []⟩ switchBack

/-- The cipher has no Vault client any more, and the call on it fails. -/
theorem switch_back_unreadable :
    ¬ ∀ (w : World) (base : Settings) (c : FieldCipher) (mode transitKey : String) (ops : List Crypto.Op),
      w.Sound base.vault base.transitMount → FieldCipher.init w (settingsOf base mode transitKey) = .ok c →
        Along (Crypto.step w base) (fun s o => Readable w (Crypto.step w base s o)) ⟨c, []⟩ ops := by
  intro h
  have hreadable : Readable demoWorld switched :=
    (h demoWorld demoSettings vaultCipher "Vault" "certadillo-fields" switchBack demoWorld_sound vaultCipher_init).2.1
  have hvalues : switched.values = [(.str "hmac", vaultValue "certadillo-fields" "vault:v1:aG1hYw==")] := by
    rfl
  have hdecrypted := hreadable (.str "hmac", vaultValue "certadillo-fields" "vault:v1:aG1hYw==")
    (by rw [hvalues]; exact List.mem_cons_self) 0
  have hraised : decrypt demoWorld switched.cipher 0 (vaultValue "certadillo-fields" "vault:v1:aG1hYw==") =
      .error (.attribute "'NoneType' object has no attribute 'request'") := by
    rfl
  rw [hraised] at hdecrypted
  cases hdecrypted

end Examples

end Certadillo.Crypto
