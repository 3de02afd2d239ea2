/-
Import of a keycensus inventory (`discovery/keycensus.py`): keys and certificates Certadillo does not manage.

- `assetOf`: what an asset of the document says, its id with it; texts are cut to the length of their columns.
- `importAsset`: one row for each (cut) asset id, with the columns of the last asset; linked to the certificate with its
  fingerprint.
- `openFindings`: a finding for each row noted as untracked, from the row as it is after the whole document; the open ones of
  no such row are resolved.
- `importInventory`: the import, committed by its caller.
-/
import Certadillo.Discovery.SshFindings
import Certadillo.Lib.Upserts
import Certadillo.Audit.Log

namespace Certadillo.Keycensus

open Integrity Policy Py Datetime Discovery Audit

/-! ## Values of the document -/

def SOURCE : String := "keycensus"

def MAX_ASSETS : ℕ := 100000

section Values

variable (fromisoformat : String → Option DateTime)

/-- `_dt` -/
def dt : Json → Option DateTime
  | .str v =>
    if v = "" then none
    else (fromisoformat (String.ofList (v.toList.flatMap fun c => if c = 'Z' then "+00:00".toList else [c]))).map asUtc
  | _ => none

/-- `str.lower` as far as hex digits go: no other character becomes one -/
def hexLower (c : Char) : Char := if 'A' ≤ c ∧ c ≤ 'F' then Char.ofNat (c.toNat + 32) else c

def isHexDigit (c : Char) : Bool := "0123456789abcdef".toList.contains c

/-- `_fp` -/
def fp : Json → Option String
  | .str v =>
    let h := (strip (v.toList.filter (· ≠ ':'))).map hexLower
    if h.length = 64 && h.all isHexDigit then some (String.ofList h) else none
  | _ => none

/-- `_s` -/
def s (v : Json) (n : ℕ) : Option String := if v = .null ∨ v = .str "" then none else some (cut n (strOf v))

/-- what `for x in v or []` goes through -/
def itemsOf (v : Json) : Except Err (List Json) :=
  if truthy v then
    match v with
    | .arr xs => .ok xs
    | .obj kvs => .ok (kvs.map fun p => .str p.1)
    | .str t => .ok (t.toList.map fun c => .str (String.ofList [c]))
    | _ => .error (.type "object is not iterable")
  else .ok []

def boolOf : Json → Option Bool
  | .bool b => some b
  | _ => none

/-- an application that uses the asset, as text -/
def useOf : Json → Option (List (String × String))
  | .obj kvs => some (kvs.map fun p => (p.1, cut 200 (strOf p.2)))
  | _ => none

end Values

/-! ## Rows -/

inductive AssetKind where
  | key | certificate | protocol
deriving DecidableEq

def kindOf (v : Json) : Option AssetKind :=
  if v = .str "key" then some .key
  else if v = .str "certificate" then some .certificate
  else if v = .str "protocol" then some .protocol
  else none

/-- the columns an asset of the document sets -/
structure Entry where
  assetId : String
  kind : AssetKind
  name : String
  origin : Option String
  originType : Option String
  algorithm : Option String
  curve : Option String
  keySize : Option ℤ
  location : Option String
  state : Option String
  hardwareBacked : Option Bool
  exportable : Option Bool
  expires : Option DateTime
  lastRotated : Option DateTime
  fingerprintSha256 : Option String
  applications : List String
  usedBy : List (List (String × String))
deriving DecidableEq

inductive AssetStatus where
  | present | removed
deriving DecidableEq

/-- an `ExternalAsset` row -/
structure ExternalAsset extends Entry where
  source : String
  certificateId : Option ℕ
  status : AssetStatus
  firstSeen : ℤ
  lastSeen : ℤ
deriving DecidableEq

/-- the id an asset is stored under -/
def shortId (id : Json) : String := (s id 64).getD ""

/-- one asset of the document: its id, and what its row will hold -/
def assetOf (fromisoformat : String → Option DateTime) : Json → Except Err (Json × Entry)
  | .obj a =>
    let get := fun key => (a.lookup key).getD .null
    match truthy (get "id"), kindOf (get "kind") with
    | true, some kind => do
      let applications ← itemsOf (get "applications")
      let usedBy ← itemsOf (get "used_by")
      let aid := shortId (get "id")
      pure (get "id",
        { assetId := aid
          kind := kind
          name := (s (get "name") 255).getD aid
          origin := s (get "source") 255
          originType := s (get "source_type") 32
          algorithm := s (get "algorithm") 32
          curve := s (get "curve") 32
          keySize := SshKeys.intOf (get "key_size")
          location := s (get "location") 512
          state := s (get "state") 32
          hardwareBacked := boolOf (get "hardware_backed")
          exportable := boolOf (get "exportable")
          expires := dt fromisoformat (get "expires")
          lastRotated := dt fromisoformat (get "last_rotated")
          fingerprintSha256 := fp (get "fingerprint_sha256")
          applications := (applications.map fun x => cut 120 (strOf x)).take 200
          usedBy := (usedBy.filterMap useOf).take 200 })
    | _, _ => throw (.value "each asset needs an id and a kind of key, certificate or protocol")
  | _ => throw (.value "each asset needs an id and a kind of key, certificate or protocol")

/-! ## The loop over the assets -/

/-- `by_fp` -/
def byFp (certs : Table Certificate) : List (String × ℕ) :=
  updateItems [] (certs.rows.map fun p => (p.2.fingerprintSha256, p.1))

/-- the certificate an asset is linked to -/
def certOf (certs : Table Certificate) (e : Entry) : Option ℕ :=
  if e.kind = .certificate then e.fingerprintSha256.bind fun fp => (byFp certs).lookup fp else none

/-- microseconds since 1970 -/
def unixOf (t : DateTime) : ℤ := t.instant - 62135683200000000

def unexpired (env : Env) (e : Entry) : Bool :=
  match e.expires with
  | none => true
  | some t => decide (env.now * 1000000 < unixOf t)

/-- an unexpired certificate that is not in the inventory -/
def isUntracked (env : Env) (certs : Table Certificate) (e : Entry) : Bool :=
  (certOf certs e).isNone && e.kind = .certificate && e.fingerprintSha256.isSome && unexpired env e

/-- the loop's variables, with the rows it noted as seen and as untracked -/
structure Progress where
  assets : Table ExternalAsset
  seen : List ℕ
  new : ℕ
  matched : ℕ
  untracked : List ℕ

def stored (env : Env) (certs : Table Certificate) (e : Entry) (firstSeen : ℤ) : ExternalAsset :=
  { e with
    source := SOURCE
    certificateId := certOf certs e
    status := .present
    firstSeen := firstSeen
    lastSeen := env.now }

def Progress.note (acc : Progress) (env : Env) (certs : Table Certificate) (e : Entry) (id new : ℕ)
    (assets : Table ExternalAsset) : Progress where
  assets := assets
  seen := acc.seen ++ [id]
  new := acc.new + new
  matched := if (certOf certs e).isSome then acc.matched + 1 else acc.matched
  untracked := if isUntracked env certs e then acc.untracked ++ [id] else acc.untracked

/-- one asset's row -/
def importAsset (env : Env) (certs : Table Certificate) (acc : Progress) (e : Entry) : Except Err Progress := do
  match ← oneOrNone acc.assets fun r => r.source = SOURCE && r.assetId = e.assetId with
  | none => pure (acc.note env certs e acc.assets.next 1 (acc.assets.insert (stored env certs e env.now)))
  | some (id, _) => pure (acc.note env certs e id 0 (acc.assets.update id fun r => stored env certs e r.firstSeen))

/-- the loop -/
def importAssets (fromisoformat : String → Option DateTime) (env : Env) (certs : Table Certificate) (acc : Progress)
    (assets : List Json) : Except Err Progress :=
  assets.foldlM (fun acc a => do
    let line ← assetOf fromisoformat a
    importAsset env certs acc line.2) acc

def removed (r : ExternalAsset) : ExternalAsset := { r with status := .removed }

/-- the rows that were present before and are not in the document -/
def gone (acc : Progress) : List ℕ :=
  ((acc.assets.all fun r => r.source = SOURCE && r.status = .present).map Prod.fst).filter fun i => i ∉ acc.seen

/-! ## Findings -/

def UNTRACKED : FindingKind := .other "untracked_certificate"

/-- a finding's key; without a fingerprint Python writes None -/
def untrackedKey (fp : Option String) : String :=
  let text := fp.getD "None"
  s!"untracked_certificate:{text}"

def detailOf (r : ExternalAsset) : Dict :=
  [("name", .str r.name), ("fingerprint", .ofStr? r.fingerprintSha256), ("origin", .ofStr? r.origin),
    ("location", .ofStr? r.location), ("applications", .ofStrs r.applications),
    ("expires", .ofStr? (r.expires.map fun t => String.ofList (asUtc t).isoformat))]

def findingLocation (r : ExternalAsset) : String :=
  let origin := r.origin.getD "None"
  let place := (r.location.filter (· ≠ "")).getD r.name
  cut 512 s!"keycensus:{origin}:{place}"

def newFinding (env : Env) (r : ExternalAsset) : DiscoveryFinding :=
  ⟨UNTRACKED, untrackedKey r.fingerprintSha256, some (findingLocation r), detailOf r, .opened, env.now, env.now, none⟩

/-- what is untracked again -/
def reopened (env : Env) (r : ExternalAsset) (f : DiscoveryFinding) : DiscoveryFinding :=
  { f with
    detail := detailOf r
    lastSeen := env.now
    status := if f.status = .resolved then .opened else f.status }

/-- one untracked row -/
def openFinding (env : Env) (findings : Table DiscoveryFinding) (r : ExternalAsset) :
    Except Err (Table DiscoveryFinding) := do
  match ← oneOrNone findings fun f => f.key = untrackedKey r.fingerprintSha256 with
  | none => pure (findings.insert (newFinding env r))
  | some (id, _) => pure (findings.update id (reopened env r))

def resolved (f : DiscoveryFinding) : DiscoveryFinding := { f with status := .resolved }

/-- `_findings` -/
def openFindings (env : Env) (findings : Table DiscoveryFinding) (untracked : List ExternalAsset) :
    Except Err (Table DiscoveryFinding) := do
  let keys := untracked.map fun r => untrackedKey r.fingerprintSha256
  let findings ← untracked.foldlM (openFinding env) findings
  let stale := (findings.all fun f => f.kind = UNTRACKED && f.status = .opened).filter fun p => p.2.key ∉ keys
  pure (findings.updateAll (stale.map Prod.fst) resolved)

/-! ## The import -/

/-- the database, with the tables discovery and this import use -/
structure Store where
  main : Discovery.Store
  externalAssets : Table ExternalAsset

def onMain {α : Type} (m : D α) : Tx Err Keycensus.Store α := fun s =>
  let out := m ⟨s.committed.main, s.work.main⟩
  (out.1, ⟨{ s.committed with main := out.2.committed }, { s.work with main := out.2.work }⟩)

/-- the assets of a document that looks like an inventory -/
def assetsOf (doc : Json) : Except Err (List Json) :=
  match doc with
  | .obj kvs =>
    match decide (kvs.lookup "tool" = some (.str "keycensus")), kvs.lookup "assets" with
    | true, some (.arr assets) =>
      if MAX_ASSETS < assets.length then throw (.value "more than 100000 assets in one import") else pure assets
    | _, _ => throw (.value "not a keycensus inventory.json (expected tool: keycensus and an assets list)")
  | _ => throw (.value "not a keycensus inventory.json (expected tool: keycensus and an assets list)")

/-- what an import makes of the tables, and what it returns -/
structure Imported where
  result : Dict
  assets : Table ExternalAsset
  findings : Table DiscoveryFinding

def resultOf (doc : Json) (assets : List Json) (acc : Progress) : Dict :=
  let generatedAt := match doc with
    | .obj kvs => (kvs.lookup "generated_at").getD .null
    | _ => .null
  [("assets", .num assets.length), ("new", .num acc.new), ("removed", .num (gone acc).length),
    ("certificates_matched", .num acc.matched), ("certificates_untracked", .num acc.untracked.length),
    ("generated_at", .ofStr? (s generatedAt 40))]

/-- `import_inventory`, up to the audit event -/
def reconcile (fromisoformat : String → Option DateTime) (env : Env) (d : Keycensus.Store) (doc : Json) :
    Except Err Imported := do
  let assets ← assetsOf doc
  let acc ← importAssets fromisoformat env d.main.db.certificates ⟨d.externalAssets, [], 0, 0, []⟩ assets
  let rows := acc.assets.updateAll (gone acc) removed
  -- the rows noted in the loop are read here, after the last asset
  let findings ← openFindings env d.main.findings (acc.untracked.filterMap rows.get)
  pure ⟨resultOf doc assets acc, rows, findings⟩

/-- `import_inventory` -/
def importInventory (fromisoformat : String → Option DateTime) (env : Env) (actorName : String) (doc : Json) :
    Tx Err Keycensus.Store Dict := do
  let d ← Tx.get
  let out ← Tx.ofExcept (reconcile fromisoformat env d doc)
  Tx.modify fun d => ⟨{ d.main with findings := out.findings }, out.assets⟩
  onMain (onDb (record env actorName "inventory.keycensus.import" SOURCE out.result))
  pure out.result

end Certadillo.Keycensus
