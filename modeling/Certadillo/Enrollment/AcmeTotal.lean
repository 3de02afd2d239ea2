/-
Which bodies of a new-account request end in success, an ACME problem or a 4xx answer.

An exception that the application maps to no 4xx escapes as a server error. Reading a request is a chain of accesses, and
each raises a TypeError, an AttributeError or a RecursionError exactly on values of another shape.

- `get_only`, `b64uDec_only`, `loads_only`, ...: the shape each access needs.
- `parsed_only`, `register_only`: the same of the parts of the handler.
- `newAccount_total_iff`: nothing escapes exactly where every access that is reached finds its shape.
- `list_header_escapes`: a protected header that is a list.
-/
import Certadillo.Enrollment.AcmeBody
import Certadillo.Enrollment.AcmeRaces
import Certadillo.Lib.Raises

namespace Certadillo.AcmeBody

open Integrity Policy Py Platform Acme

/-! ## Exceptions -/

/-- the application maps it to a 4xx answer; a KeyError is a LookupError -/
def Answered : Err → Prop
  | .policy _ => True
  | .forbidden _ => True
  | .notFound _ => True
  | .key _ => True
  | .lookup _ => True
  | .value _ => True
  | _ => False

/-- answered, or an ACME problem -/
def Handled : Err → Prop
  | .acme _ _ _ => True
  | e => Answered e

/-! ## Shapes -/

namespace Value

def IsDict (v : Value) : Prop := ∃ kvs, v = .dict kvs

def IsStr (v : Value) : Prop := ∃ t, v = .str t

def Hashable : Value → Prop
  | .list _ => False
  | .dict _ => False
  | _ => True

/-- the member, if it is there, is a str -/
def StrMember (v : Value) (key : String) : Prop := IfReturns (v.item key) IsStr

theorem get_only {v : Value} {key : String} {dflt : Value} : OnlyRaises Handled (v.get key dflt) ↔ v.IsDict := by
  unfold get IsDict
  cases v with
  | dict kvs => simp
  | _ => simp [Handled, Answered]

theorem item_only {v : Value} {key : String} : OnlyRaises Handled (v.item key) ↔ v.IsDict := by
  unfold item IsDict
  cases v with
  | dict kvs =>
    refine iff_of_true ?_ ⟨kvs, rfl⟩
    dsimp only
    cases kvs.lookup (text key) with
    | none => simp [Handled, Answered]
    | some a => simp
  | _ => simp [Handled, Answered]

theorem isText_unique {v : Value} {a b : String} (ha : v.isText a = true) (hb : v.isText b = true) : text a = text b := by
  cases v with
  | str t => exact (of_decide_eq_true ha).symm.trans (of_decide_eq_true hb)
  | _ => cases ha

end Value

section Reading

variable {lib : Libs}

/-- the JSON is not nested too deeply -/
def Shallow (lib : Libs) (bytes : List UInt8) : Prop := ∀ e, lib.loads bytes = .error e → e ≠ .tooDeep

/-- `Session.get` takes the identifier -/
def Identifies (lib : Libs) : Value → Prop
  | .none => True
  | .str _ => True
  | v => OnlyRaises Handled (lib.identity v)

theorem loads_only {bytes : List UInt8} : OnlyRaises Handled (loads lib bytes) ↔ Shallow lib bytes := by
  unfold loads Shallow
  cases lib.loads bytes with
  | ok v => simp
  | error e => cases e <;> simp [Handled, Answered]

theorem b64uDec_only {v : Value} : OnlyRaises Handled (b64uDec lib v) ↔ v.IsStr := by
  unfold b64uDec Value.IsStr
  cases v with
  | str t =>
    refine iff_of_true ?_ ⟨t, rfl⟩
    dsimp only
    split <;> simp [Handled, Answered]
  | _ => simp [Handled, Answered]

theorem encode_only {t : Text} : OnlyRaises Handled (encode t) := by
  unfold encode
  split <;> simp [Handled, Answered]

theorem identity_only {v : Value} : OnlyRaises Handled (identity lib v) ↔ Identifies lib v := by
  cases v with
  | none => simp [identity, Identifies]
  | str t =>
    refine iff_of_true ?_ trivial
    show OnlyRaises Handled ((encode t).map some)
    unfold encode
    split <;> simp [Except.map, Handled, Answered]
  | _ => exact Iff.rfl

theorem urlPath_only {v : Value} : OnlyRaises Handled (urlPath lib v) ↔ v.IsStr ∨ v.truthy = false := by
  cases v with
  | str t =>
    refine iff_of_true ?_ (Or.inl ⟨t, rfl⟩)
    unfold urlPath
    dsimp only
    split <;> simp [Handled, Answered]
  | _ =>
    unfold urlPath Value.IsStr
    dsimp only
    rw [onlyRaises_ite]
    simp [Handled, Answered]

theorem curveOf_only {v : Value} : OnlyRaises Handled (curveOf v) ↔ v.Hashable := by
  cases v with
  | list xs => simp [curveOf, Value.Hashable, Handled, Answered]
  | dict kvs => simp [curveOf, Value.Hashable, Handled, Answered]
  | _ =>
    refine iff_of_true ?_ trivial
    unfold curveOf
    dsimp only
    split
    · simp
    · split <;> simp [Handled, Answered]

theorem publicKey_only {key : JwkKey} : OnlyRaises Handled (publicKey lib key) := by
  unfold publicKey
  split <;> simp [Handled, Answered]

theorem bytesOf_only {v : Value} {key : String} (h : v.IsDict) :
    OnlyRaises Handled (bytesOf lib v key) ↔ v.StrMember key := by
  unfold bytesOf Value.StrMember
  rw [onlyRaises_bind, and_iff_right (Value.item_only.2 h)]
  exact ifReturns_congr fun a _ => b64uDec_only

/-! ## The key and its signature -/

/-- a dict; of an EC key a hashable curve and, if that is known, texts; of an RSA key texts -/
def KeyShaped (lib : Libs) (jwk : Value) : Prop :=
  jwk.IsDict ∧ IfReturns (jwk.get "kty" .none) fun kty =>
    (kty.isText "EC" = true → IfReturns (jwk.item "crv") fun crv => crv.Hashable ∧ IfReturns (curveOf crv) fun _ =>
      jwk.StrMember "x" ∧ IfReturns (bytesOf lib jwk "x") fun _ => jwk.StrMember "y") ∧
    (¬ kty.isText "EC" = true → kty.isText "RSA" = true →
      jwk.StrMember "e" ∧ IfReturns (bytesOf lib jwk "e") fun _ => jwk.StrMember "n")

theorem jwkToKey_only {jwk : Value} : OnlyRaises Handled (jwkToKey lib jwk) ↔ KeyShaped lib jwk := by
  unfold jwkToKey KeyShaped
  rw [onlyRaises_bind, Value.get_only]
  refine and_congr_right fun hdict => ifReturns_congr fun kty _ => ?_
  rw [onlyRaises_ite, onlyRaises_ite]
  refine and_congr (forall_congr' fun _ => ?_) (forall_congr' fun _ => ?_)
  · unfold ecKey
    rw [onlyRaises_bind, and_iff_right (Value.item_only.2 hdict)]
    refine ifReturns_congr fun crv _ => ?_
    rw [onlyRaises_bind, curveOf_only]
    refine and_congr_right fun _ => ifReturns_congr fun curve _ => ?_
    rw [onlyRaises_bind, bytesOf_only hdict]
    refine and_congr_right fun _ => ifReturns_congr fun x _ => ?_
    rw [onlyRaises_bind, bytesOf_only hdict]
    exact and_iff_left fun y _ => publicKey_only
  · rw [and_iff_left fun _ => (onlyRaises_throw _).2 trivial]
    refine forall_congr' fun _ => ?_
    unfold rsaKey
    rw [onlyRaises_bind, bytesOf_only hdict]
    refine and_congr_right fun _ => ifReturns_congr fun e _ => ?_
    rw [onlyRaises_bind, bytesOf_only hdict]
    exact and_iff_left fun n _ => publicKey_only

/-- the algorithm is not one of the other key type -/
def AlgFits (alg : Value) : JwkKey → Prop
  | .ec _ _ _ => alg.isText "RS256" = false
  | .rsa _ _ => alg.isText "ES256" = false ∧ alg.isText "ES384" = false

theorem verifyJwsSig_only {alg : Value} {key : JwkKey} {signingInput : Text} {sig : List UInt8} :
    OnlyRaises Handled (verifyJwsSig lib alg key signingInput sig) ↔ AlgFits alg key := by
  have hrsa : ∀ s, text s ≠ text "RS256" → alg.isText s = true → alg.isText "RS256" = false := by
    intro s hne hs
    rw [← Bool.not_eq_true]
    exact fun h => hne (Value.isText_unique hs h)
  unfold verifyJwsSig AlgFits
  by_cases hes : (alg.isText "ES256" || alg.isText "ES384") = true
  · rw [if_pos hes]
    cases key with
    | ec curve x y =>
      refine iff_of_true ?_ ?_
      · dsimp only
        split <;> simp [invalidSignature, Handled]
      · rcases Bool.or_eq_true_iff.1 hes with h256 | h384
        · exact hrsa "ES256" (by decide) h256
        · exact hrsa "ES384" (by decide) h384
    | rsa e n =>
      refine iff_of_false (fun h => (onlyRaises_error _).1 h) ?_
      rw [← Bool.or_eq_false_iff, hes]
      show ¬ true = false
      decide
  · rw [if_neg hes]
    rw [Bool.not_eq_true, Bool.or_eq_false_iff] at hes
    by_cases hrs : alg.isText "RS256" = true
    · rw [if_pos hrs]
      cases key with
      | ec curve x y =>
        refine iff_of_false (fun h => (onlyRaises_error _).1 h) ?_
        show ¬ alg.isText "RS256" = false
        rw [hrs]
        decide
      | rsa e n =>
        refine iff_of_true ?_ hes
        dsimp only
        split <;> simp [invalidSignature, Handled]
    · rw [if_neg hrs]
      refine iff_of_true ((onlyRaises_error _).2 trivial) ?_
      cases key with
      | ec curve x y => exact Bool.not_eq_true _ ▸ hrs
      | rsa e n => exact hes

/-! ## Parsing -/

/-- falsy, or a text whose JSON is shallow -/
def PayloadShaped (lib : Libs) (payloadRaw : Value) : Prop :=
  payloadRaw.truthy = true → payloadRaw.IsStr ∧ IfReturns (b64uDec lib payloadRaw) (Shallow lib)

theorem payloadOf_only {payloadRaw : Value} :
    OnlyRaises Handled (payloadOf lib payloadRaw) ↔ PayloadShaped lib payloadRaw := by
  unfold payloadOf PayloadShaped
  rw [onlyRaises_ite, and_iff_left fun _ => onlyRaises_ok _]
  refine forall_congr' fun _ => ?_
  rw [onlyRaises_bind, b64uDec_only]
  exact and_congr_right fun _ => ifReturns_congr fun bytes _ => loads_only

theorem headerKey_only {header : Value} (h : header.IsDict) :
    OnlyRaises Handled (headerKey lib header) ↔ (header.has "jwk" = true → IfReturns (header.item "jwk") (KeyShaped lib)) := by
  unfold headerKey
  have hproblem : OnlyRaises Handled (if header.has "kid" = true then
      (.error (.acme "malformed" "newAccount requires jwk" 400) : Except Err JwkKey)
      else .error (.acme "malformed" "jwk or kid required" 400)) := by
    split <;> simp [Handled]
  rw [onlyRaises_ite, and_iff_left fun _ => hproblem]
  refine forall_congr' fun _ => ?_
  rw [onlyRaises_bind, and_iff_right (Value.item_only.2 h)]
  exact ifReturns_congr fun jwk _ => jwkToKey_only

def signingInput (lib : Libs) (jws : Jws) : Except Err Text :=
  encode (formatted lib jws.protectedPart ++ text "." ++ formatted lib jws.payloadRaw)

/-- what the signature and the payload need -/
def SignedShaped (lib : Libs) (jws : Jws) : Prop :=
  IfReturns (signingInput lib jws) fun input =>
    (jws.header.has "jwk" = true → IfReturns (jws.header.item "jwk") (KeyShaped lib)) ∧
      IfReturns (headerKey lib jws.header) fun key => IfReturns (jws.header.get "alg" (.str [])) fun alg =>
        AlgFits alg key ∧ IfReturns (verifyJwsSig lib alg key input jws.sig) fun _ => PayloadShaped lib jws.payloadRaw

theorem signedPayload_only {jws : Jws} (h : jws.header.IsDict) :
    OnlyRaises Handled (signedPayload lib jws) ↔ SignedShaped lib jws := by
  unfold signedPayload SignedShaped signingInput
  rw [onlyRaises_bind, and_iff_right encode_only]
  refine ifReturns_congr fun input _ => ?_
  rw [onlyRaises_bind, headerKey_only h]
  refine and_congr_right fun _ => ifReturns_congr fun key _ => ?_
  rw [onlyRaises_bind, and_iff_right (Value.get_only.2 h)]
  refine ifReturns_congr fun alg _ => ?_
  rw [onlyRaises_bind, verifyJwsSig_only]
  exact and_congr_right fun _ => ifReturns_congr fun _ _ => payloadOf_only

/-- a url that is a text or falsy, and where it is the request's, the rest -/
def ParsedShaped (lib : Libs) (path : Text) (jws : Jws) : Prop :=
  IfReturns (jws.header.get "url" (.str [])) fun url => (url.IsStr ∨ url.truthy = false) ∧
    IfReturns (urlPath lib url) fun p => p = some path → SignedShaped lib jws

theorem parsed_only {path : Text} {jws : Jws} (h : jws.header.IsDict) :
    OnlyRaises Handled (parsed lib path jws) ↔ ParsedShaped lib path jws := by
  unfold parsed ParsedShaped
  rw [onlyRaises_bind, and_iff_right (Value.get_only.2 h)]
  refine ifReturns_congr fun url _ => ?_
  rw [onlyRaises_bind, urlPath_only]
  refine and_congr_right fun _ => ifReturns_congr fun p _ => ?_
  rw [onlyRaises_ite, and_iff_right fun _ => (onlyRaises_throw _).2 trivial, not_ne_iff]
  exact forall_congr' fun _ => signedPayload_only h

/-! ## The account -/

variable {site : Site}

theorem mapM_item_only {v : Value} (h : v.IsDict) (keys : List String) :
    OnlyRaises Handled (keys.mapM fun k => (v.item k).map (k, ·)) := by
  induction keys with
  | nil => exact onlyRaises_pure _
  | cons k keys ih =>
    rw [List.mapM_cons, onlyRaises_bind]
    refine ⟨?_, fun a _ => onlyRaises_bind.2 ⟨ih, fun _ _ => onlyRaises_pure _⟩⟩
    have hitem : OnlyRaises Handled (v.item k) := Value.item_only.2 h
    cases hk : v.item k with
    | error e => exact (onlyRaises_error e).2 (hitem e hk)
    | ok a => exact onlyRaises_ok _

theorem thumbprint_only {jwk : Value} : OnlyRaises Handled (thumbprint lib jwk) ↔ jwk.IsDict := by
  unfold thumbprint
  rw [onlyRaises_bind, Value.item_only]
  refine and_iff_left_of_imp fun h kty _ => ?_
  exact onlyRaises_bind.2 ⟨mapM_item_only h _, fun _ _ => onlyRaises_pure _⟩

/-- what the binding's MAC and payload need of a credential -/
def BindingSigned (lib : Libs) (site : Site) (cred : AcmeEab) (eab eabProt : Value) : Prop :=
  OnlyRaises Handled (eabHmacKey site cred) ∧ IfReturns (eabHmacKey site cred) fun stored =>
    IfReturns (b64uDec lib (.str (text stored))) fun key => IfReturns (eab.item "protected") fun part =>
      IfReturns (eab.item "payload") fun payload => IfReturns (encode (formatted lib part ++ text "." ++ formatted lib payload))
        fun input => IfReturns (eabProt.get "alg" .none) fun alg => alg.isText "HS256" = true →
          eab.StrMember "signature" ∧ IfReturns (bytesOf lib eab "signature") fun sig =>
            lib.compareDigest key input sig = true → payload.IsStr ∧ IfReturns (b64uDec lib payload) (Shallow lib)

theorem signedBinding_only {cred : AcmeEab} {eab eabProt jwk : Value} (heab : eab.IsDict) (hprot : eabProt.IsDict) :
    OnlyRaises Handled (signedBinding lib site cred eab eabProt jwk) ↔ BindingSigned lib site cred eab eabProt := by
  unfold signedBinding BindingSigned
  rw [onlyRaises_bind]
  refine and_congr_right fun _ => ifReturns_congr fun stored _ => ?_
  rw [onlyRaises_bind, and_iff_right (b64uDec_only.2 ⟨_, rfl⟩)]
  refine ifReturns_congr fun key _ => ?_
  rw [onlyRaises_bind, and_iff_right (Value.item_only.2 heab)]
  refine ifReturns_congr fun part _ => ?_
  rw [onlyRaises_bind, and_iff_right (Value.item_only.2 heab)]
  refine ifReturns_congr fun payload _ => ?_
  rw [onlyRaises_bind, and_iff_right encode_only]
  refine ifReturns_congr fun input _ => ?_
  rw [onlyRaises_bind, and_iff_right (Value.get_only.2 hprot)]
  refine ifReturns_congr fun alg _ => ?_
  rw [onlyRaises_ite, and_iff_right fun _ => (onlyRaises_throw _).2 trivial]
  simp only [Bool.not_eq_true', Bool.not_eq_false]
  refine forall_congr' fun _ => ?_
  rw [onlyRaises_bind, bytesOf_only heab]
  refine and_congr_right fun _ => ifReturns_congr fun sig _ => ?_
  rw [onlyRaises_ite, and_iff_right fun _ => (onlyRaises_throw _).2 trivial]
  simp only [Bool.not_eq_false]
  refine forall_congr' fun _ => ?_
  rw [onlyRaises_bind, b64uDec_only]
  refine and_congr_right fun _ => ifReturns_congr fun bytes _ => ?_
  rw [onlyRaises_bind, loads_only]
  refine and_iff_left fun bound _ => ?_
  show OnlyRaises Handled (if bound.eq jwk = false then _ else _)
  rw [onlyRaises_ite]
  exact ⟨fun _ => (onlyRaises_throw _).2 trivial, fun _ => onlyRaises_pure _⟩

/-- what the account binding needs -/
def BindingShaped (lib : Libs) (site : Site) (d : Db) (eab : Value) : Prop :=
  eab.IsDict ∧ eab.StrMember "protected" ∧ IfReturns (bytesOf lib eab "protected") fun bytes => Shallow lib bytes ∧
    IfReturns (loads lib bytes) fun eabProt => eabProt.IsDict ∧ IfReturns (eabProt.get "kid" (.str [])) fun kid =>
      Identifies lib kid ∧ IfReturns (identity lib kid) fun key => IfReturns (unusedCred d key) fun cred =>
        BindingSigned lib site cred.2 eab eabProt

theorem bytesOf_dict {v : Value} {key : String} (h : OnlyRaises Handled (bytesOf lib v key)) : v.IsDict := by
  unfold bytesOf at h
  exact Value.item_only.1 (onlyRaises_bind.1 h).1

theorem unusedCred_only {d : Db} {key : Option Text} : OnlyRaises Handled (unusedCred d key) := by
  unfold unusedCred
  split
  · simp [unknownBinding, Handled]
  · split <;> simp [unknownBinding, Handled]

theorem bindingCred_only {d : Db} {eab jwk : Value} :
    OnlyRaises Handled (bindingCred lib site d eab jwk) ↔ BindingShaped lib site d eab := by
  unfold bindingCred BindingShaped
  rw [onlyRaises_bind]
  have hfirst : OnlyRaises Handled (bytesOf lib eab "protected") ↔ eab.IsDict ∧ eab.StrMember "protected" := by
    constructor
    · exact fun h => ⟨bytesOf_dict h, (bytesOf_only (bytesOf_dict h)).1 h⟩
    · exact fun h => (bytesOf_only h.1).2 h.2
  rw [hfirst, and_assoc]
  refine and_congr_right fun heab => and_congr_right fun _ => ifReturns_congr fun bytes _ => ?_
  rw [onlyRaises_bind, loads_only]
  refine and_congr_right fun _ => ifReturns_congr fun eabProt _ => ?_
  rw [onlyRaises_bind, Value.get_only]
  refine and_congr_right fun hprot => ifReturns_congr fun kid _ => ?_
  rw [onlyRaises_bind, identity_only]
  refine and_congr_right fun _ => ifReturns_congr fun key _ => ?_
  rw [onlyRaises_bind, and_iff_right unusedCred_only]
  refine ifReturns_congr fun cred _ => ?_
  rw [onlyRaises_bind, signedBinding_only heab hprot]
  exact and_iff_left fun _ _ => onlyRaises_pure _

/-- a payload that is a dict, whose binding, if it comes to it, is shaped -/
def RegisterShaped (lib : Libs) (site : Site) (d : Db) (payload : Value) : Prop :=
  payload.IsDict ∧ IfReturns (payload.get "onlyReturnExisting" .none) fun only => only.truthy = false →
    IfReturns (payload.get "externalAccountBinding" .none) fun eab => eab.truthy = true → BindingShaped lib site d eab

theorem mayRegister_only {d : Db} {tp : String} {jwk payload : Value} :
    OnlyRaises Handled (mayRegister lib site d tp jwk payload) ↔ RegisterShaped lib site d payload := by
  unfold mayRegister RegisterShaped
  rw [onlyRaises_bind, Value.get_only]
  refine and_congr_right fun hdict => ifReturns_congr fun only _ => ?_
  rw [onlyRaises_ite, and_iff_right fun _ => (onlyRaises_throw _).2 trivial, Bool.not_eq_true]
  refine forall_congr' fun _ => ?_
  rw [onlyRaises_bind, and_iff_right (Value.get_only.2 hdict)]
  refine ifReturns_congr fun eab _ => ?_
  rw [onlyRaises_ite, and_iff_right fun _ => (onlyRaises_throw _).2 trivial]
  simp only [Bool.not_eq_true', Bool.not_eq_false]
  refine forall_congr' fun _ => ?_
  rw [onlyRaises_bind, bindingCred_only]
  exact and_iff_left fun cred _ => onlyRaises_bind.2 ⟨Value.get_only.2 hdict, fun _ _ => onlyRaises_pure _⟩

theorem shown_only {existing : ℕ × AcmeAccount} : OnlyRaises Handled (shown existing) := by
  unfold shown
  dsimp only
  split <;> simp [Handled]

/-- a key that is a dict and, where no account has it, a payload that is shaped -/
def AccountShaped (lib : Libs) (site : Site) (d : Db) (header payload : Value) : Prop :=
  IfReturns (header.item "jwk") fun jwk => jwk.IsDict ∧ IfReturns (thumbprint lib jwk) fun tp =>
    IfReturns (oneOrNone d.acmeAccounts fun a => a.thumbprint = tp) fun existing => existing = none →
      RegisterShaped lib site d payload

/-- accounts have different thumbprints -/
def ThumbprintsUnique (d : Db) : Prop :=
  ∀ i j a b, d.acmeAccounts.get i = some a → d.acmeAccounts.get j = some b → a.thumbprint = b.thumbprint → i = j

theorem oneOrNone_accounts {d : Db} (h : ThumbprintsUnique d) (tp : String) :
    OnlyRaises Handled (oneOrNone d.acmeAccounts fun a => a.thumbprint = tp) := by
  by_cases hsome : ∃ i a, d.acmeAccounts.get i = some a ∧ a.thumbprint = tp
  · obtain ⟨i, a, hget, htp⟩ := hsome
    rw [oneOrNone_unique hget (decide_eq_true htp) fun j b hb hp => h j i b a hb hget ((of_decide_eq_true hp).trans htp.symm)]
    exact onlyRaises_ok _
  · have hnone : d.acmeAccounts.all (fun a => decide (a.thumbprint = tp)) = [] := by
      rw [List.eq_nil_iff_forall_not_mem]
      rintro ⟨i, a⟩ hmem
      obtain ⟨hget, htp⟩ := Table.mem_all.1 hmem
      exact hsome ⟨i, a, hget, of_decide_eq_true htp⟩
    unfold oneOrNone
    rw [hnone]
    exact onlyRaises_ok _

theorem mayNewAccount_only {d : Db} (hunique : ThumbprintsUnique d) {header payload : Value} (h : header.IsDict) :
    OnlyRaises Handled (mayNewAccount lib site d header payload) ↔ AccountShaped lib site d header payload := by
  unfold mayNewAccount AccountShaped
  rw [onlyRaises_bind, and_iff_right (Value.item_only.2 h)]
  refine ifReturns_congr fun jwk _ => ?_
  rw [onlyRaises_bind, thumbprint_only]
  refine and_congr_right fun _ => ifReturns_congr fun tp _ => ?_
  rw [onlyRaises_bind, and_iff_right (oneOrNone_accounts hunique tp)]
  refine ifReturns_congr fun existing _ => ?_
  cases existing with
  | some existing => exact iff_of_true shown_only (by simp)
  | none => exact mayRegister_only.trans (by simp)

/-! ## The handler -/

variable {env : Env} {draws : Draws}

/-- the nonce that the answer draws is not stored -/
def Fresh (draws : Draws) (d : Db) : Prop := ∀ i n, d.acmeNonces.get i = some n → n.value ≠ draws.nonce

theorem newNonce_returns {s : Session Db} (h : Fresh draws s.work) :
    newNonce env draws s =
      (.ok (), { s with work := { s.work with acmeNonces := s.work.acmeNonces.insert ⟨draws.nonce, env.now⟩ } }) := by
  have hnone : s.work.acmeNonces.first (fun n => decide (n.value = draws.nonce)) = none :=
    Table.first_none.2 fun i n hget => decide_eq_false (h i n hget)
  unfold newNonce addPlain
  rw [Tx.bind_run, Tx.get_bind]
  have hclash : unique "acme_nonces.value" AcmeNonce.value draws.nonce (Col.acmeNonces.get s.work) = none := by
    unfold unique
    rw [show Col.acmeNonces.get s.work = s.work.acmeNonces from rfl, hnone]
    rfl
  rw [hclash]
  rfl

theorem resp_returns {reply : Reply} {s : Session Db} (h : Fresh draws s.work) :
    ∃ s', resp env draws reply s = (.ok reply, s') := by
  unfold resp
  rw [Tx.bind_ok (newNonce_returns h)]
  exact ⟨_, rfl⟩

/-- a problem is answered, and any other exception goes on -/
theorem answer_only {handler : M Reply} {s s' : Session Db} {out : Except Err Reply} (hrun : handler s = (out, s'))
    (hfresh : ∀ e, out = .error e → Fresh draws s'.committed) :
    OnlyRaises Answered (answer env draws handler s).1 ↔ OnlyRaises Handled out := by
  unfold answer
  rw [Tx.bind_run, Tx.attempt_run, hrun]
  cases out with
  | ok reply => exact iff_of_true (onlyRaises_ok _) (onlyRaises_ok _)
  | error e =>
    rw [onlyRaises_error]
    cases e with
    | acme kind detail status =>
      refine iff_of_true ?_ trivial
      show OnlyRaises Answered ((do
        newNonce env draws
        Tx.commit
        pure (.error (kind, detail, status)) : M (Except (String × String × ℕ) Reply)) ⟨s'.committed, s'.committed⟩).1
      rw [Tx.bind_ok (newNonce_returns (hfresh _ rfl))]
      exact onlyRaises_ok _
    | _ => exact onlyRaises_error _

theorem storeNewAccount_returns {l : NewAccount} {s : Session Db} (hfresh : Fresh draws s.work)
    (hl : ∀ cred account, l = .create cred account → s.work.acmeEab.get cred.1 = some cred.2 ∧
      ∀ i a, s.work.acmeAccounts.get i = some a → a.thumbprint ≠ account.thumbprint) :
    ∃ reply s', storeNewAccount env draws l s = (.ok reply, s') := by
  cases l with
  | existing id =>
    obtain ⟨s', h⟩ := @resp_returns env draws (.account id false) s hfresh
    exact ⟨_, s', h⟩
  | create cred account =>
    obtain ⟨hcred, hclash⟩ := hl cred account rfl
    unfold storeNewAccount
    -- the credential's row is there, and no account has the thumbprint
    have hsave : ∃ s1, saveEab cred.1 cred.2 { cred.2 with used := true } s = (.ok (), s1) ∧
        s1.work.acmeAccounts = s.work.acmeAccounts ∧ s1.work.acmeNonces = s.work.acmeNonces := by
      unfold saveEab saveRow
      split
      · exact ⟨s, rfl, rfl, rfl⟩
      · rw [Tx.get_bind, show Col.acmeEab.get s.work = s.work.acmeEab from rfl, hcred]
        exact ⟨_, rfl, rfl, rfl⟩
    obtain ⟨s1, hsave, haccounts, hnonces⟩ := hsave
    dsimp only at hsave ⊢
    rw [Tx.bind_ok hsave]
    have hnone : unique "acme_accounts.thumbprint" AcmeAccount.thumbprint account.thumbprint (Col.acmeAccounts.get s1.work) =
        none := by
      unfold unique
      rw [show Col.acmeAccounts.get s1.work = s1.work.acmeAccounts from rfl, haccounts,
        Table.first_none.2 fun i a hget => decide_eq_false (hclash i a hget)]
      rfl
    have hadd : ∃ id s2, addPlain Col.acmeAccounts (unique "acme_accounts.thumbprint" AcmeAccount.thumbprint account.thumbprint)
        account s1 = (.ok id, s2) ∧ s2.work.acmeNonces = s1.work.acmeNonces := by
      unfold addPlain
      rw [Tx.get_bind, hnone]
      exact ⟨_, _, rfl, rfl⟩
    obtain ⟨id, s2, hadd, hnonces2⟩ := hadd
    rw [Tx.bind_ok hadd]
    have hfresh2 : Fresh draws s2.work := by
      unfold Fresh
      rw [hnonces2, hnonces]
      exact hfresh
    obtain ⟨s', h⟩ := @resp_returns env draws (.account id true) { s2 with work := { s2.work with audit := s2.work.audit ++
      [⟨env.now, s!"acme:{id}", "acme.account.create", s!"app:{account.appId}", .obj [("thumbprint", .str account.thumbprint),
        ("eab_kid", .str cred.2.kid)]⟩] } } hfresh2
    exact ⟨_, s', h⟩

theorem unusedCred_ok {d : Db} {key : Option Text} {cred : ℕ × AcmeEab} (h : unusedCred d key = .ok cred) :
    d.acmeEab.get cred.1 = some cred.2 := by
  unfold unusedCred at h
  split at h
  · cases h
  · next id row hfound =>
    split at h
    · cases h
    · obtain rfl := Except.ok.inj h
      obtain ⟨t, -, hfirst⟩ := Option.bind_eq_some_iff.1 hfound
      exact (Table.first_some hfirst).1

/-- a new account's credential is stored, and no account has its thumbprint -/
theorem mayNewAccount_create {d : Db} {header payload : Value} {cred : ℕ × AcmeEab} {account : AcmeAccount}
    (h : mayNewAccount lib site d header payload = .ok (.create cred account)) :
    d.acmeEab.get cred.1 = some cred.2 ∧ ∀ i a, d.acmeAccounts.get i = some a → a.thumbprint ≠ account.thumbprint := by
  unfold mayNewAccount at h
  obtain ⟨jwk, -, h⟩ := except_bind_ok.1 h
  obtain ⟨tp, -, h⟩ := except_bind_ok.1 h
  obtain ⟨existing, hexisting, h⟩ := except_bind_ok.1 h
  cases existing with
  | some existing =>
    unfold shown at h
    dsimp only at h
    split at h <;> cases h
  | none =>
    unfold mayRegister at h
    obtain ⟨only, -, h⟩ := except_bind_ok.1 h
    split at h
    · cases h
    · obtain ⟨eab, -, h⟩ := except_bind_ok.1 h
      split at h
      · cases h
      · obtain ⟨cred', hcred, h⟩ := except_bind_ok.1 h
        obtain ⟨contact, -, h⟩ := except_bind_ok.1 h
        obtain ⟨rfl, rfl⟩ := NewAccount.create.inj (Except.ok.inj h)
        unfold bindingCred at hcred
        obtain ⟨bytes, -, hcred⟩ := except_bind_ok.1 hcred
        obtain ⟨eabProt, -, hcred⟩ := except_bind_ok.1 hcred
        obtain ⟨kid, -, hcred⟩ := except_bind_ok.1 hcred
        obtain ⟨key, -, hcred⟩ := except_bind_ok.1 hcred
        obtain ⟨found, hfound, hcred⟩ := except_bind_ok.1 hcred
        obtain ⟨u, -, hcred⟩ := except_bind_ok.1 hcred
        obtain rfl := Except.ok.inj hcred
        refine ⟨unusedCred_ok hfound, fun i a hget htp => ?_⟩
        exact absurd (oneOrNone_ok hexisting hget (decide_eq_true htp)) (by simp)

/-- every access of the body that is reached finds the shape it needs -/
def BodyShaped (lib : Libs) (site : Site) (path : Text) (bytes : List UInt8) (d : Db) : Prop :=
  IfReturns (flattened lib bytes) fun jws => jws.header.IsDict ∧
    (IfReturns (jws.header.get "nonce" (.str [])) fun value => Identifies lib value) ∧
      IfReturns (takeNonce lib d jws) fun _ => ParsedShaped lib path jws ∧ IfReturns (parsed lib path jws) fun payload =>
        AccountShaped lib site d jws.header payload

theorem takeNonce_only {d : Db} {jws : Jws} : OnlyRaises Handled (takeNonce lib d jws) ↔
    jws.header.IsDict ∧ IfReturns (jws.header.get "nonce" (.str [])) fun value => Identifies lib value := by
  unfold takeNonce
  rw [onlyRaises_bind, Value.get_only]
  refine and_congr_right fun _ => ifReturns_congr fun value _ => ?_
  rw [onlyRaises_bind, identity_only]
  refine and_iff_left fun key _ => ?_
  show OnlyRaises Handled (nonceRow d key)
  unfold nonceRow
  split
  · exact onlyRaises_ok _
  · exact (onlyRaises_error _).2 trivial

/-- the database with the nonce spent -/
def spent (d : Db) (id : ℕ) : Db := { d with acmeNonces := d.acmeNonces.delete fun i _ => i = id }

/-- what the request comes to -/
def decided (lib : Libs) (site : Site) (path : Text) (bytes : List UInt8) (d : Db) : Except Err NewAccount := do
  let jws ← flattened lib bytes
  let _ ← takeNonce lib d jws
  let payload ← parsed lib path jws
  mayNewAccount lib site d jws.header payload

theorem flattened_only {bytes : List UInt8} : OnlyRaises Handled (flattened lib bytes) := by
  unfold flattened
  split
  · exact onlyRaises_ok _
  · exact (onlyRaises_error _).2 trivial

theorem decided_only {path : Text} {bytes : List UInt8} {d : Db} (hunique : ThumbprintsUnique d) :
    OnlyRaises Handled (decided lib site path bytes d) ↔ BodyShaped lib site path bytes d := by
  unfold decided BodyShaped
  rw [onlyRaises_bind, and_iff_right flattened_only]
  refine ifReturns_congr fun jws _ => ?_
  rw [onlyRaises_bind, takeNonce_only, and_assoc]
  refine and_congr_right fun hdict => and_congr_right fun _ => ifReturns_congr fun id _ => ?_
  rw [onlyRaises_bind, parsed_only hdict]
  exact and_congr_right fun _ => ifReturns_congr fun payload _ => mayNewAccount_only hunique hdict

/-- the program raises what the decision raises, before or after the nonce is spent, or it returns -/
theorem register_run {path : Text} {bytes : List UInt8} {d : Db} (hfresh : Fresh draws d) :
    ∃ out s', register lib site env draws path bytes ⟨d, d⟩ = (out, s') ∧
      (∀ e, out = .error e → Fresh draws s'.committed) ∧
      (OnlyRaises Handled out ↔ OnlyRaises Handled (decided lib site path bytes d)) := by
  have hspent : ∀ id, Fresh draws (spent d id) := by
    intro id i n hget
    have hdelete := Table.get_delete d.acmeNonces (fun i _ => i = id) i
    rw [show (spent d id).acmeNonces = d.acmeNonces.delete fun i _ => i = id from rfl, hdelete] at hget
    exact hfresh i n (Option.mem_filter_iff.1 hget).1
  have hraises : ∀ e : Err, OnlyRaises Handled (.error e : Except Err Reply) ↔
      OnlyRaises Handled (.error e : Except Err NewAccount) := fun e => (onlyRaises_error e).trans (onlyRaises_error e).symm
  unfold register decided
  cases hjws : flattened lib bytes with
  | error e => exact ⟨.error e, ⟨d, d⟩, rfl, fun _ _ => hfresh, hraises e⟩
  | ok jws =>
    rw [lift_ok_bind, Tx.get_bind, except_ok_bind]
    cases hnonce : takeNonce lib d jws with
    | error e => exact ⟨.error e, ⟨d, d⟩, rfl, fun _ _ => hfresh, hraises e⟩
    | ok id =>
      rw [lift_ok_bind, except_ok_bind, Tx.bind_ok (show spendNonce id ⟨d, d⟩ = (.ok (), ⟨spent d id, spent d id⟩) from rfl),
        Tx.get_bind]
      cases hpayload : parsed lib path jws with
      | error e => exact ⟨.error e, ⟨spent d id, spent d id⟩, rfl, fun _ _ => hspent id, hraises e⟩
      | ok payload =>
        rw [lift_ok_bind, except_ok_bind]
        show ∃ out s', (lift (mayNewAccount lib site d jws.header payload) >>= storeNewAccount env draws) _ = _ ∧ _
        cases hmay : mayNewAccount lib site d jws.header payload with
        | error e => exact ⟨.error e, ⟨spent d id, spent d id⟩, rfl, fun _ _ => hspent id, hraises e⟩
        | ok l =>
          rw [lift_ok_bind]
          obtain ⟨reply, s', hstore⟩ := @storeNewAccount_returns env draws l ⟨spent d id, spent d id⟩ (hspent id) (by
            intro cred account hl
            exact mayNewAccount_create (hl ▸ hmay))
          exact ⟨.ok reply, s', hstore, nofun, iff_of_true (onlyRaises_ok _) (onlyRaises_ok _)⟩

/-- **A new-account request escapes as a server error** exactly where an access it reaches finds another shape. -/
theorem newAccount_total_iff {path : Text} {bytes : List UInt8} {d : Db} (hunique : ThumbprintsUnique d)
    (hfresh : Fresh draws d) :
    (∀ e, (newAccount lib site env draws path bytes ⟨d, d⟩).1 = .error e → Answered e) ↔ BodyShaped lib site path bytes d := by
  obtain ⟨out, s', hrun, hcommitted, hdecided⟩ := @register_run lib site env draws path bytes d hfresh
  exact (answer_only hrun hcommitted).trans (hdecided.trans (decided_only hunique))

end Reading

/-! ### A header that is a list -/

section Examples

def ascii (s : String) : List UInt8 := s.toList.map fun c => c.toNat.toUInt8

/-- a flattened JWS with this header, no payload and no signature -/
def body (header : String) : List UInt8 :=
  ascii ("\x7b\"protected\":\"" ++ header ++ "\",\"payload\":\"\",\"signature\":\"\"\x7d")

def bodyValue (header : String) : Value :=
  .dict [(text "protected", .str (text header)), (text "payload", .str []), (text "signature", .str [])]

/-- the libraries on two bodies, whose headers are an empty list and an empty object, and on those headers -/
def demoLibs : Libs where
  loads bytes :=
    if bytes = body "W10" then .ok (bodyValue "W10")
    else if bytes = body "e30" then .ok (bodyValue "e30")
    else if bytes = [91, 93] then .ok (.list [])
    else if bytes = [123, 125] then .ok (.dict [])
    else .error .invalid
  urlsafeB64decode t :=
    if t = text "W10=" then some [91, 93] else if t = text "e30=" then some [123, 125] else if t = [] then some [] else none
  str _ := []
  urlparsePath t := some t
  publicKey _ := false
  verify _ _ _ _ := false
  canonicalSha256 _ := ""
  compareDigest _ _ _ := false
  identity _ := .ok none
  column _ := .null

def demoPath : Text := text "/acme/new-account"

theorem list_flattened : flattened demoLibs (body "W10") = .ok ⟨.str (text "W10"), .list [], .str [], []⟩ := by
  rfl

theorem empty_flattened : flattened demoLibs (body "e30") = .ok ⟨.str (text "e30"), .dict [], .str [], []⟩ := by
  rfl

theorem empty_unique : ThumbprintsUnique Db.empty := by
  intro i j a b ha
  cases ha

theorem empty_fresh (draws : Draws) : Fresh draws Db.empty := by
  intro i n hn
  cases hn

/-- an empty header has no nonce, and that is a problem: the request is answered -/
theorem empty_header_answered :
    (∃ out, (newAccount demoLibs demoSite demoEnv (demoDraws "fresh") demoPath (body "e30") ⟨Db.empty, Db.empty⟩).1 = .ok out) ∧
      BodyShaped demoLibs demoSite demoPath (body "e30") Db.empty := by
  have hreturns : ∃ out,
      (newAccount demoLibs demoSite demoEnv (demoDraws "fresh") demoPath (body "e30") ⟨Db.empty, Db.empty⟩).1 = .ok out := by
    unfold newAccount register
    rw [empty_flattened]
    exact ⟨_, rfl⟩
  refine ⟨hreturns, (@newAccount_total_iff demoLibs demoSite demoEnv (demoDraws "fresh") _ _ _ empty_unique
    (empty_fresh _)).1 fun e he => ?_⟩
  obtain ⟨out, hout⟩ := hreturns
  rw [hout] at he
  cases he

/-- A header that is an empty list has no `get`. -/
theorem list_header_escapes :
    ¬ ∀ (lib : Libs) (site : Site) (env : Env) (draws : Draws) (path : Text) (bytes : List UInt8) (d : Db), ThumbprintsUnique d →
      Fresh draws d → ∀ e, (newAccount lib site env draws path bytes ⟨d, d⟩).1 = .error e → Answered e := by
  intro h
  have hescapes : (newAccount demoLibs demoSite demoEnv (demoDraws "fresh") demoPath (body "W10") ⟨Db.empty, Db.empty⟩).1 =
      .error (.attribute "object has no attribute 'get'") := by
    unfold newAccount register
    rw [list_flattened]
    rfl
  exact h demoLibs demoSite demoEnv (demoDraws "fresh") demoPath (body "W10") Db.empty empty_unique (empty_fresh _) _ hescapes

end Examples

end Certadillo.AcmeBody
