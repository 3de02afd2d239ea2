/-
Host agent reports (`discovery/sources.py`, `discovery/sshkeys.py` and the `agent-report` route): certificates, private key
files other users can read, and static SSH keys.

- `ingestAgentReport`: certificates into the inventory, a finding for each readable key file, and the ones of this host that
  are not reported any more resolved. A finding belongs to a host by its location, matched with SQL's LIKE.
- `SshKeys.ingest`: one row for each host, path and fingerprint; `refreshFindings` recomputes every SSH finding from the
  rows that are present.
-/
import Certadillo.Services.Gateway

namespace Certadillo.Discovery

open Integrity Policy Py

/-! ## Text -/

/-- `s[:n]` -/
def cut (n : ℕ) (s : String) : String := String.ofList (s.toList.take n)

mutual

/-- `repr(v)` -/
def reprOf : Json → String
  | .null => "None"
  | .bool b => if b then "True" else "False"
  | .num n => toString n
  | .str s => pyRepr s
  | .arr xs => "[" ++ join ", " (reprList xs) ++ "]"
  | .obj kvs => "\x7b" ++ join ", " (reprFields kvs) ++ "\x7d"

def reprList : List Json → List String
  | [] => []
  | x :: xs => reprOf x :: reprList xs

def reprFields : List (String × Json) → List String
  | [] => []
  | (k, v) :: kvs => (pyRepr k ++ ": " ++ reprOf v) :: reprFields kvs

end

/-- `str(v)` -/
def strOf : Json → String
  | .str s => s
  | v => reprOf v

/-! ### LIKE -/

/-- the databases it runs on: SQLite's LIKE ignores the case of ASCII letters, PostgreSQL's has an escape character -/
inductive Dialect where
  | sqlite | postgresql
deriving DecidableEq

inductive LikeTok where
  | lit (c : Char)
  | one
  | many
deriving DecidableEq

def likeTokens (dialect : Dialect) : Chars → List LikeTok
  | [] => []
  | '%' :: cs => .many :: likeTokens dialect cs
  | '_' :: cs => .one :: likeTokens dialect cs
  | ['\\'] => [.lit '\\']
  | '\\' :: c :: cs =>
    match dialect with
    | .postgresql => .lit c :: likeTokens dialect cs
    | .sqlite => .lit '\\' :: likeTokens dialect (c :: cs)
  | c :: cs => .lit c :: likeTokens dialect cs

def sameChar : Dialect → Char → Char → Bool
  | .sqlite, c, d => c.toLower == d.toLower
  | .postgresql, c, d => c == d

def likeMatch (same : Char → Char → Bool) : List LikeTok → Chars → Bool
  | [], s => s.isEmpty
  | .many :: ts, s => s.tails.any (likeMatch same ts)
  | .one :: _, [] => false
  | .one :: ts, _ :: s => likeMatch same ts s
  | .lit _ :: _, [] => false
  | .lit c :: ts, d :: s => same c d && likeMatch same ts s

/-- `text LIKE pattern` -/
def like (dialect : Dialect) (text pattern : String) : Bool :=
  likeMatch (sameChar dialect) (likeTokens dialect pattern.toList) text.toList

/-! ## Tables -/

inductive SshRule where
  | weakKey | sharedKey | rootUnrestricted | orphanedKey | rotationDue
deriving DecidableEq

def SshRule.text : SshRule → String
  | weakKey => "ssh_weak_key"
  | sharedKey => "ssh_shared_key"
  | rootUnrestricted => "ssh_root_unrestricted"
  | orphanedKey => "ssh_orphaned_key"
  | rotationDue => "ssh_rotation_due"

inductive FindingKind where
  | keyReadable
  | ssh (rule : SshRule)
  | other (s : String)
deriving DecidableEq

inductive FindingStatus where
  | opened | resolved | acknowledged
deriving DecidableEq

/-- a `DiscoveryFinding` row -/
structure DiscoveryFinding where
  kind : FindingKind
  key : String
  location : Option String
  detail : List (String × Json)
  status : FindingStatus
  firstSeen : ℤ
  lastSeen : ℤ
  acknowledgedBy : Option String
deriving DecidableEq

inductive KeyKind where
  | authorized | host
deriving DecidableEq

/-- what one line of a key file says -/
structure Entry where
  fingerprint : String
  path : String
  keyType : String
  bits : Option ℤ
  comment : Option String
  kind : KeyKind
  account : Option String
  accountExists : Bool
  options : List (String × Json)
  fileMtime : Option ℤ
deriving DecidableEq

inductive KeyStatus where
  | present | removed
deriving DecidableEq

/-- an `SshKey` row -/
structure SshKey extends Entry where
  host : String
  firstSeen : ℤ
  lastSeen : ℤ
  status : KeyStatus
  owner : Option String
  ownerNote : Option String
deriving DecidableEq

/-- the database, with the tables only discovery uses -/
structure Store where
  db : Db
  findings : Table DiscoveryFinding
  sshKeys : Table SshKey

abbrev D := Tx Err Store

/-- an operation on the rest of the database, in the same session -/
def onDb {α : Type} (m : M α) : D α := fun s =>
  let out := m ⟨s.committed.db, s.work.db⟩
  (out.1, ⟨{ s.committed with db := out.2.committed }, { s.work with db := out.2.work }⟩)

def setFinding (id : ℕ) (f : DiscoveryFinding → DiscoveryFinding) : D Unit :=
  Tx.modify fun d => { d with findings := d.findings.update id f }

def setSshKey (id : ℕ) (f : SshKey → SshKey) : D Unit :=
  Tx.modify fun d => { d with sshKeys := d.sshKeys.update id f }

/-- add a finding; its key is unique -/
def addFinding (f : DiscoveryFinding) : D Unit := do
  let d ← Tx.get
  match unique "discovery_findings.key" DiscoveryFinding.key f.key d.findings with
  | some u => Tx.throw (.integrity u)
  | none => Tx.modify fun d => { d with findings := d.findings.insert f }

/-! ## Readable keys -/

structure Settings where
  dialect : Dialect
  /-- `load_der_x509_certificate(base64.b64decode(data))` -/
  loadDer : String → Except Err X509Cert
  sshRsaMinBits : ℤ
  sshKeyMaxAgeDays : ℤ

/-- an item of a report -/
abbrev Dict := List (String × Json)

/-- `v or ""` -/
def orEmpty (v : Option Json) : Json := if (v.map truthy).getD false then v.getD .null else .str ""

def certOf (cfg : Settings) (env : Env) (item : Dict) : Except Err X509Cert := do
  let data := orEmpty (item.lookup "pem")
  if ← isIn "BEGIN" data then CAService.loadPem env (← Gateway.encoded data)
  else
    match data with
    | .str s => cfg.loadDer s
    | _ => throw (.type "argument should be a bytes-like object or ASCII string")

theorem agent_source : "agent" ∉ ["issued", "discovered", "imported"] := by decide

/-- the certificates of a report; how many were new -/
def ingestCerts (cfg : Settings) (env : Env) (actorName host : String) : List Dict → D ℕ
  | [] => pure 0
  | item :: rest => do
    let cert ← Tx.ofExcept (certOf cfg env item)
    let path := strOf ((item.lookup "path").getD (.str "?"))
    let d ← Tx.get
    let id ← onDb (Platform.ingest env actorName cert (.other "agent" agent_source) (some (cut 255 s!"{host}:{path}")) none)
    let new ← ingestCerts cfg env actorName host rest
    pure (if id = d.db.certificates.next then new + 1 else new)

def keyLocation (host : String) (k : Dict) : String :=
  let path := strOf ((k.lookup "path").getD .null)
  cut 500 s!"{host}:{path}"

def readableKey (location : String) : String := cut 255 s!"key_readable:{location}"

def worldReadable (k : Dict) : Bool := truthy ((k.lookup "world_readable").getD .null)

/-- the keys of the findings a report's key files ask for -/
def exposedKeys (host : String) (keyFiles : List Dict) : List String :=
  (keyFiles.filter worldReadable).map fun k => readableKey (keyLocation host k)

/-- what seeing a key file again does to its finding -/
def seenFinding (env : Env) (f : DiscoveryFinding) : DiscoveryFinding :=
  { f with lastSeen := env.now, status := if f.status = .resolved then .opened else f.status }

/-- one key file that others can read -/
def exposeKey (env : Env) (host : String) (k : Dict) : D Unit := do
  let location := keyLocation host k
  let key := readableKey location
  let d ← Tx.get
  match ← Tx.ofExcept (oneOrNone d.findings fun f => f.key = key) with
  | none =>
    addFinding ⟨.keyReadable, key, some location,
      [("mode", (k.lookup "mode").getD .null), ("owner", (k.lookup "owner").getD .null), ("host", .str host)],
      .opened, env.now, env.now, none⟩
  | some (id, _) => setFinding id (seenFinding env)

/-- the loop over the key files -/
def exposeAll (env : Env) (host : String) : List Dict → D Unit
  | [] => pure ()
  | k :: rest =>
    if worldReadable k then do
      exposeKey env host k
      exposeAll env host rest
    else exposeAll env host rest

/-- keys on this host that were exposed before and are not any more -/
def resolveAll (seen : List String) : List (ℕ × DiscoveryFinding) → D Unit
  | [] => pure ()
  | (id, f) :: rest =>
    if f.key ∉ seen ∧ f.status = .opened then do
      setFinding id fun f => { f with status := .resolved }
      resolveAll seen rest
    else resolveAll seen rest

/-- the findings a report of this host takes for its own -/
def ofHost (dialect : Dialect) (host : String) (f : DiscoveryFinding) : Bool :=
  f.kind = .keyReadable && (f.location.map fun l => like dialect l s!"{host}:%").getD false

/-- what is recorded and returned -/
def ingestAgentReport (cfg : Settings) (env : Env) (actor : Actor) (host : String) (items keyFiles : List Dict) : D Dict := do
  let new ← ingestCerts cfg env actor.name host items
  exposeAll env host keyFiles
  let d ← Tx.get
  resolveAll (exposedKeys host keyFiles) (d.findings.all (ofHost cfg.dialect host))
  let out : Dict := [("certificates", .num items.length), ("new", .num new),
    ("keys_exposed", .num (exposedKeys host keyFiles).length)]
  onDb (record env actor.name "discovery.agent.report" host out)
  pure out

/-! ## SSH keys -/

namespace SshKeys

/-- `isinstance(v, int)`: a bool is one -/
def intOf : Json → Option ℤ
  | .num n => some n
  | .bool b => some (if b then 1 else 0)
  | _ => none

/-- `(v or "")[:200] or None`, for a str -/
def commentOf (v : Json) : Except Err (Option String) :=
  if truthy v then
    match v with
    | .str s => .ok (some (cut 200 s))
    | _ => .error (.type "unhashable type: 'slice'")
  else .ok none

/-- the options by name, and a restriction's value only as text -/
def optionsOf (v : Json) : Except Err (List (String × Json)) :=
  if truthy v then
    match v with
    | .obj kvs => .ok (kvs.foldl (fun opts p => setItem opts (cut 40 p.1)
        (match p.2 with
          | .bool b => .bool b
          | v => .str (cut 300 (strOf v)))) [])
    | _ => .error (.attribute "object has no attribute 'items'")
  else .ok []

/-- `datetime.fromtimestamp`: years 1 to 9999 -/
def mtimeOf (v : Json) : Except Err (Option ℤ) :=
  match intOf v with
  | none => .ok none
  | some t => if -62135596800 ≤ t ∧ t < 253402300800 then .ok (some t) else .error (.value s!"year is out of range")

/-- what an item of the report says of a key -/
def entryOf (k : Dict) : Except Err Entry := do
  let fp := cut 64 (strOf ((k.lookup "fingerprint").getD (.str "")))
  let path := cut 512 (strOf ((k.lookup "path").getD (.str "")))
  if !startsWith fp.toList "SHA256:".toList || path = "" then
    throw (.value "each SSH key needs a SHA256 fingerprint and a path")
  else
    let comment ← commentOf ((k.lookup "comment").getD .null)
    let options ← optionsOf ((k.lookup "options").getD .null)
    let mtime ← mtimeOf ((k.lookup "file_mtime").getD .null)
    let user := (k.lookup "user").getD .null
    pure { fingerprint := fp
           path := path
           keyType := cut 48 (strOf ((k.lookup "key_type").getD (.str "?")))
           bits := intOf ((k.lookup "bits").getD .null)
           comment := comment
           kind := if (k.lookup "kind").getD .null = .str "host" then .host else .authorized
           account := if truthy user then some (cut 120 (strOf user)) else none
           accountExists := truthy ((k.lookup "user_exists").getD (.bool true))
           options := options
           fileMtime := mtime }

/-- one row for each host, path and fingerprint, with the columns of the last line; its id, and whether it is new -/
def ingestKey (env : Env) (host : String) (e : Entry) : D (ℕ × Bool) := do
  let d ← Tx.get
  match ← Tx.ofExcept (oneOrNone d.sshKeys fun r => r.host = host && r.path = e.path && r.fingerprint = e.fingerprint) with
  | none =>
    Tx.modify fun d => { d with sshKeys := d.sshKeys.insert ⟨e, host, env.now, env.now, .present, none, none⟩ }
    pure (d.sshKeys.next, true)
  | some (id, _) =>
    setSshKey id fun r => { r with toEntry := e, lastSeen := env.now, status := .present }
    pure (id, false)

/-- the loop over the keys: the rows it saw -/
def ingestKeys (env : Env) (host : String) : List Dict → D (List (ℕ × Bool))
  | [] => pure []
  | k :: rest => do
    let e ← Tx.ofExcept (entryOf k)
    let row ← ingestKey env host e
    let rows ← ingestKeys env host rest
    pure (row :: rows)

/-- the rows of this host that were not reported; how many -/
def removeAll (seen : List ℕ) : List (ℕ × SshKey) → D ℕ
  | [] => pure 0
  | (id, _) :: rest =>
    if id ∉ seen then do
      setSshKey id fun r => { r with status := .removed }
      let removed ← removeAll seen rest
      pure (removed + 1)
    else removeAll seen rest

/-! ### Findings -/

/-- what a finding is about: a rule and the place of a key, or a key that is shared -/
def findingKey (rule : SshRule) (key : String) : String :=
  let kind := rule.text
  cut 255 s!"{kind}:{key}"

def placeKey (host path fingerprint : String) : String := s!"{host}:{path}:{fingerprint}"

/-- a finding `refresh_findings` wants: its kind, location and detail, under its key -/
structure Wanted where
  rule : SshRule
  location : String
  detail : List (String × Json)

def weak (cfg : Settings) (k : Entry) : Bool :=
  k.keyType = "ssh-dss" || (k.keyType = "ssh-rsa" && decide (k.bits.getD 0 < cfg.sshRsaMinBits))

def unrestrictedRoot (k : Entry) : Bool := k.account = some "root" && (k.options.lookup "from").isNone

/-- the file was not changed for longer than a key may be used -/
def due (cfg : Settings) (env : Env) (k : Entry) (firstSeen : ℤ) : Bool :=
  decide (cfg.sshKeyMaxAgeDays * 86400 < env.now - k.fileMtime.getD firstSeen)

/-- the rules about one key at one place -/
def flags (cfg : Settings) (env : Env) (k : Entry) (firstSeen : ℤ) : List SshRule :=
  (if weak cfg k then [.weakKey] else []) ++
  (if k.kind = .authorized then
    (if unrestrictedRoot k then [.rootUnrestricted] else []) ++
    (if k.accountExists then [] else [.orphanedKey]) ++
    (if due cfg env k firstSeen then [.rotationDue] else [])
  else [])

def baseDetail (id : ℕ) (k : SshKey) : List (String × Json) :=
  [("host", .str k.host), ("account", .ofStr? k.account), ("fingerprint", .str k.fingerprint), ("key_type", .str k.keyType),
    ("bits", (k.bits.map Json.num).getD .null), ("comment", .ofStr? k.comment), ("ssh_key_id", .num id)]

/-- what the rules want of one row, by key -/
def wantedOf (cfg : Settings) (env : Env) (p : ℕ × SshKey) : List (String × Wanted) :=
  let k := p.2
  let loc := k.host ++ ":" ++ k.path
  (flags cfg env k.toEntry k.firstSeen).map fun rule =>
    (findingKey rule (placeKey k.host k.path k.fingerprint),
      ⟨rule, cut 512 loc,
        if rule = .rotationDue then
          baseDetail p.1 k ++ [("unchanged_days", .num ((env.now - k.fileMtime.getD k.firstSeen) / 86400))]
        else baseDetail p.1 k⟩)

/-- the hosts and accounts a key is authorized for -/
def placesOf (present : List (ℕ × SshKey)) (fp : String) : List (String × Option String) :=
  ((present.filter fun p => p.2.kind = .authorized && p.2.fingerprint = fp).map fun p => (p.2.host, p.2.account)).dedup

/-- the keys authorized somewhere -/
def authorizedKeys (present : List (ℕ × SshKey)) : List String :=
  ((present.filter fun p => p.2.kind = .authorized).map fun p => p.2.fingerprint).dedup

def spots (places : List (String × Option String)) : List String :=
  sorted (places.map fun p =>
    let account := ((p.2.filter (· ≠ "")).getD "?")
    s!"{account}@{p.1}")

/-- what the shared-key rule wants -/
def wantedShared (present : List (ℕ × SshKey)) : List (String × Wanted) :=
  ((authorizedKeys present).filter fun fp => 1 < (placesOf present fp).length).map fun fp =>
    (findingKey .sharedKey fp,
      ⟨.sharedKey, cut 512 (join ", " (spots (placesOf present fp))),
        [("fingerprint", .str fp), ("authorized_for", .ofStrs (spots (placesOf present fp)))]⟩)

/-- `wanted`: a later finding replaces an earlier one under the same key -/
def wanted (cfg : Settings) (env : Env) (present : List (ℕ × SshKey)) : List (String × Wanted) :=
  updateItems [] (present.flatMap (wantedOf cfg env) ++ wantedShared present)

/-- what a wanted finding that exists becomes -/
def refreshed (env : Env) (w : Wanted) (f : DiscoveryFinding) : DiscoveryFinding :=
  { f with
    location := some w.location
    detail := w.detail
    lastSeen := env.now
    status := if f.status = .resolved then .opened else f.status }

/-- one wanted finding -/
def openFinding (env : Env) (existing : List (ℕ × DiscoveryFinding)) (key : String) (w : Wanted) : D Unit :=
  match existing.find? fun p => p.2.key = key with
  | none => addFinding ⟨.ssh w.rule, key, some w.location, w.detail, .opened, env.now, env.now, none⟩
  | some (id, _) => setFinding id (refreshed env w)

/-- the loop over the wanted findings -/
def openAll (env : Env) (existing : List (ℕ × DiscoveryFinding)) : List (String × Wanted) → D Unit
  | [] => pure ()
  | (key, w) :: rest => do
    openFinding env existing key w
    openAll env existing rest

def isSsh (f : DiscoveryFinding) : Bool :=
  match f.kind with
  | .ssh _ => true
  | _ => false

/-- `refresh_findings`: every SSH finding from the current inventory -/
def refreshFindings (cfg : Settings) (env : Env) : D Unit := do
  let d ← Tx.get
  let want := wanted cfg env (d.sshKeys.all fun k => k.status = .present)
  let existing := d.findings.all isSsh
  openAll env existing want
  resolveAll (want.map Prod.fst) existing

def ingest (cfg : Settings) (env : Env) (host : String) (keys : List Dict) : D Dict := do
  let rows ← ingestKeys env host keys
  let d ← Tx.get
  let removed ← removeAll (rows.map Prod.fst) (d.sshKeys.all fun k => k.host = host && k.status = .present)
  refreshFindings cfg env
  pure [("ssh_keys", .num keys.length), ("new", .num (rows.countP Prod.snd)), ("removed", .num removed)]

end SshKeys

/-! ## The route -/

/-- `AgentReportIn`; without `sshKeys` the host's SSH inventory is left alone -/
structure Report where
  host : String
  certificates : List Dict
  keyFiles : List Dict
  sshKeys : Option (List Dict)

def agentReport (cfg : Settings) (env : Env) (actor : Actor) (r : Report) : D Dict := do
  Tx.ofExcept (actor.require [.agent, .admin, .operator])
  let out ← ingestAgentReport cfg env actor r.host r.certificates r.keyFiles
  match r.sshKeys with
  | none => pure out
  | some keys => do
    let res ← SshKeys.ingest cfg env r.host keys
    onDb (record env actor.name "discovery.agent.ssh_keys" r.host res)
    pure (updateItems out res)

/-- `acknowledge_finding` -/
def acknowledge (env : Env) (actor : Actor) (id : ℕ) (comment : String) : D Unit := do
  Tx.ofExcept (actor.require [.admin, .operator])
  let d ← Tx.get
  match d.findings.get id with
  | none => Tx.throw (.notFound "finding not found")
  | some f => do
    setFinding id fun f =>
      { f with
        status := .acknowledged
        acknowledgedBy := some actor.name
        detail := setItem f.detail "acknowledged_comment" (.str comment) }
    onDb (record env actor.name "discovery.finding.acknowledge" f.key [("comment", .str comment)])

end Certadillo.Discovery
