/-
Integrity seals (`integrity.py`): the sealed fields of each table, the canonical body of a row, the HMAC over it and the
check of a stored seal.

HMAC-SHA256 is modelled symbolically: `Seal.hmac key body` is the hex digest of the canonical body under the key, and
`Seal.raw` is any other string. The constructor is injective, and that no string an attacker can make up is a digest
under the seal key is a condition on the attacker's writes (`Unforged`), not built in.

- `canonical_eq_iff`: two rows have the same canonical body iff they are of one table and agree on its sealed fields.
- `matchesSeal_hmac`: a digest matches a row iff it was made with the current or the previous key from the same body.
- `matches_compute`: the seal computed for a row matches it.
-/
import Certadillo.Json

namespace Certadillo.Integrity

/-! ## Sealed fields -/

/-- the sealed tables, under their KIND names -/
inductive Kind where
  | principal
  | approval
  | certificate
  | provisioningTarget
  | installation
  | app
  | policyFolder
deriving DecidableEq, Repr

/-- the columns named in FIELDS -/
inductive Field where
  | name | role | keyHash | appId | active | createdBy
  | action | payload | requestedBy | status | decidedBy
  | fingerprintSha256 | serialHex | caId | revocationReason | source | backend
  | kind | teamId | config | credentialRef
  | targetId | commonName | sans | keyType | keyLocation | params | validateEndpoint
  | environment | profile | allowedDomains | folderId
  | parentId | settings
deriving DecidableEq, Repr

/-- Fields covered per model. Timestamps are left out on purpose. -/
def FIELDS : Kind → List Field
  | .principal => [.name, .role, .keyHash, .appId, .active, .createdBy]
  | .approval => [.action, .payload, .requestedBy, .status, .decidedBy]
  | .certificate =>
    [.fingerprintSha256, .serialHex, .caId, .appId, .status, .revocationReason, .source, .backend]
  | .provisioningTarget => [.name, .kind, .teamId, .config, .credentialRef, .status]
  | .installation =>
    [.appId, .targetId, .commonName, .sans, .keyType, .keyLocation, .params, .validateEndpoint]
  | .app => [.teamId, .name, .environment, .profile, .allowedDomains, .status, .folderId]
  | .policyFolder => [.name, .parentId, .settings]

/-! ## The HMAC -/

/-- a seal key (raw bytes) -/
abbrev Key := String

/-- the values of a row, by column -/
abbrev Values := Field → Json

/-- the canonical JSON body an HMAC is computed over: the kind and the sealed fields -/
structure Body where
  kind : Kind
  fields : List (Field × Json)
deriving DecidableEq, Repr

/-- a seal column's text: the digest of a body under a key, or any other string -/
inductive Seal where
  | hmac (key : Key) (body : Body)
  | raw (text : String)
deriving DecidableEq, Repr

/-- `_state`: the current and the previous key, and whether a missing seal counts as tampering -/
structure SealState where
  key : Option Key
  previous : Option Key
  enforce : Bool
deriving DecidableEq, Repr

/-- `_canonical` -/
def canonical (k : Kind) (values : Values) : Body := ⟨k, (FIELDS k).map fun f => (f, values f)⟩

/-- `_mac` -/
def mac (key : Key) (k : Kind) (values : Values) : Seal := .hmac key (canonical k values)

def compute (st : SealState) (k : Kind) (values : Values) : Option Seal := st.key.map fun key => mac key k values

/-- `_matches` -/
def matchesSeal (st : SealState) (k : Kind) (values : Values) : Option Seal → Bool
  -- rows from before sealing existed are sealed once by backfill; after that a missing seal is as bad as a wrong one
  | none => !st.enforce
  | some s => [st.key, st.previous].any fun key =>
    match key with
    | none => false
    | some key => mac key k values == s

/-! ## Lemmas -/

theorem canonical_eq_iff {k k' : Kind} {v v' : Values} :
    canonical k v = canonical k' v' ↔ k = k' ∧ ∀ f ∈ FIELDS k, v f = v' f := by
  simp only [canonical, Body.mk.injEq]
  constructor
  · rintro ⟨rfl, h⟩
    refine ⟨rfl, fun f hf => ?_⟩
    have := List.map_inj_left.1 h f hf
    exact (Prod.mk.inj this).2
  · rintro ⟨rfl, h⟩
    exact ⟨rfl, List.map_inj_left.2 fun f hf => by rw [h f hf]⟩

theorem canonical_congr {k : Kind} {v v' : Values} (h : ∀ f ∈ FIELDS k, v f = v' f) : canonical k v = canonical k v' :=
  canonical_eq_iff.2 ⟨rfl, h⟩

theorem compute_congr (st : SealState) {k : Kind} {v v' : Values} (h : ∀ f ∈ FIELDS k, v f = v' f) :
    compute st k v = compute st k v' := by
  simp only [compute, mac, canonical_congr h]

theorem matchesSeal_congr (st : SealState) {k : Kind} {v v' : Values} (s : Option Seal)
    (h : ∀ f ∈ FIELDS k, v f = v' f) : matchesSeal st k v s = matchesSeal st k v' s := by
  cases s with
  | none => rfl
  | some s => simp only [matchesSeal, mac, canonical_congr h]

/-- the keys a seal is checked under -/
def SealState.keys (st : SealState) : List Key := st.key.toList ++ st.previous.toList

theorem SealState.mem_keys {st : SealState} {κ : Key} : κ ∈ st.keys ↔ st.key = some κ ∨ st.previous = some κ := by
  simp [SealState.keys]

theorem matchesSeal_some {st : SealState} {k : Kind} {v : Values} {s : Seal} :
    matchesSeal st k v (some s) = true ↔ ∃ κ ∈ st.keys, s = mac κ k v := by
  simp only [SealState.mem_keys]
  cases hk : st.key <;> cases hp : st.previous <;> simp [matchesSeal, hk, hp, eq_comm (a := s)]

/-- a digest matches a row iff it was made under a configured key from the same body -/
theorem matchesSeal_hmac {st : SealState} {k : Kind} {v : Values} {κ : Key} {b : Body} :
    matchesSeal st k v (some (.hmac κ b)) = true ↔ κ ∈ st.keys ∧ b = canonical k v := by
  rw [matchesSeal_some]
  constructor
  · rintro ⟨κ', hκ, h⟩
    cases h
    exact ⟨hκ, rfl⟩
  · rintro ⟨hκ, rfl⟩
    exact ⟨κ, hκ, rfl⟩

theorem matches_compute {st : SealState} {κ : Key} (hk : st.key = some κ) (k : Kind) (v : Values) :
    matchesSeal st k v (compute st k v) = true := by
  simp only [compute, hk, Option.map_some]
  exact matchesSeal_hmac.2 ⟨SealState.mem_keys.2 (Or.inl hk), rfl⟩

/-- one seal matches two rows of a table only if they agree on its sealed fields -/
theorem matchesSeal_unique {st : SealState} {k : Kind} {v v' : Values} {s : Seal}
    (h : matchesSeal st k v (some s) = true) (h' : matchesSeal st k v' (some s) = true) : ∀ f ∈ FIELDS k, v f = v' f := by
  obtain ⟨κ, -, rfl⟩ := matchesSeal_some.1 h
  exact (canonical_eq_iff.1 (matchesSeal_hmac.1 h').2).2

/-! ## Sealed rows -/

/-- a row of a sealed table as the database holds it -/
structure Row where
  vals : Values
  sealHex : Option Seal

/-- True if the row's stored state carries a valid seal (or sealing is off). -/
def verifyRow (st : SealState) (k : Kind) (r : Row) : Bool := st.key.isNone || matchesSeal st k r.vals r.sealHex

theorem verifyRow_iff {st : SealState} {κ : Key} (hk : st.key = some κ) {k : Kind} {r : Row} :
    verifyRow st k r = true ↔ matchesSeal st k r.vals r.sealHex = true := by
  simp [verifyRow, hk]

/-- a model class with a seal column -/
class Sealed (α : Type) where
  kind : Kind
  getattr : α → Values
  sealHex : α → Option Seal
  withSeal : α → Option Seal → α
  sealHex_withSeal : ∀ a s, sealHex (withSeal a s) = s
  getattr_withSeal : ∀ a s, getattr (withSeal a s) = getattr a

attribute [simp] Sealed.sealHex_withSeal Sealed.getattr_withSeal

variable {α : Type} [Sealed α]

def Sealed.row (o : α) : Row := ⟨Sealed.getattr o, Sealed.sealHex o⟩

def verify (st : SealState) (o : α) : Bool := verifyRow st (Sealed.kind α) (Sealed.row o)

/-! ## Unforgeability -/

/-- the digests in a seal column an attacker writes under the configured keys were computed by the application before:
`made` holds what it computed -/
def Unforged (st : SealState) (made : Body → Prop) (s : Option Seal) : Prop :=
  ∀ κ b, s = some (.hmac κ b) → κ ∈ st.keys → made b

end Certadillo.Integrity
