/-
Scheduled discovery sources (`discovery/sources.py`): Certificate Transparency, and the cloud stores by what they yield.

- `issuances`: Cert Spotter's API, batch after batch and zone after zone. The API is outside; what it answers to each request
  of a run is given, and so is the fuel for the loop over the batches.
- `runCt`: a finding for each unexpired certificate of the zones that was neither issued here nor imported.
- `runSource`: one run, recorded; `runDue`: a run of each source whose interval is over, each committed.
-/
import Certadillo.Discovery.Reports
import Certadillo.PyText

namespace Certadillo.Sources

open Integrity Policy Py Discovery

/-! ## Tables -/

inductive RunStatus where
  | ok | failed
deriving DecidableEq

/-- a `DiscoveryRun` row -/
structure DiscoveryRun where
  source : String
  status : RunStatus
  found : ℕ
  new : ℕ
  error : Option String
  startedAt : ℤ
  finishedAt : Option ℤ
deriving DecidableEq

/-- the database, with the runs of the sources -/
structure Store where
  main : Discovery.Store
  runs : Table DiscoveryRun

abbrev S := Tx Err Store

/-- an operation on the rest of the database, in the same session -/
def onMain {α : Type} (m : D α) : S α := fun s =>
  let out := m ⟨s.committed.main, s.work.main⟩
  (out.1, ⟨{ s.committed with main := out.2.committed }, { s.work with main := out.2.work }⟩)

def setRun (id : ℕ) (f : DiscoveryRun → DiscoveryRun) : S Unit := Tx.modify fun d => { d with runs := d.runs.update id f }

/-! ## Cert Spotter -/

/-- an answer of the API -/
structure Response where
  statusCode : ℤ
  text : String
  json : Except Err Json

/-- how the API answers the requests of a run, one after the other -/
abbrev Api := ℕ → List (String × Json) → Except Err Response

/-- what a generator yields, and the exception it ends with -/
structure Collected (α : Type) where
  items : List α
  raised : Option Err

/-- the query for a zone, from an issuance on -/
def query (zone : String) (after : Json) : List (String × Json) :=
  [("domain", .str zone), ("include_subdomains", .str "true"), ("expand", .str "dns_names"), ("expand", .str "issuer"),
    ("expand", .str "cert")] ++ (if truthy after then [("after", after)] else [])

/-- what `yield from batch` goes through -/
def iter : Json → Except Err (List Json)
  | .arr xs => .ok xs
  | .obj kvs => .ok (kvs.map fun p => .str p.1)
  | .str t => .ok (t.toList.map fun c => .str (String.ofList [c]))
  | _ => .error (.type "object is not iterable")

/-- `batch[-1]["id"]` -/
def lastId : Json → Except Err Json
  | .arr xs =>
    match xs.getLast? with
    | some x => item x "id"
    | none => .error (.lookup "list index out of range")
  | .obj _ => .error (.key "-1")
  | _ => .error (.type "string indices must be integers")

/-- one request: the batch, and what it yields -/
def fetch (api : Api) (n : ℕ) (zone : String) (after : Json) : Except Err (Json × List Json) := do
  let r ← api n (query zone after)
  let code := r.statusCode
  let text := cut 200 r.text
  if code ≠ 200 then throw (.other s!"Cert Spotter returned {code}: {text}")
  else
    let batch ← r.json
    let items ← iter batch
    pure (batch, items)

/-- the loop over the batches of a zone, from request `n` on; nothing, if the fuel is not enough for it to end -/
def zoneIssuances (api : Api) (pageSize : ℤ) (zone : String) : ℕ → ℕ → Json → Option (Collected Json × ℕ)
  | 0, _, _ => none
  | fuel + 1, n, after =>
    match fetch api n zone after with
    | .error e => some (⟨[], some e⟩, n + 1)
    | .ok (batch, items) =>
      if (items.length : ℤ) < pageSize then some (⟨items, none⟩, n + 1)
      else
        match lastId batch with
        | .error e => some (⟨items, some e⟩, n + 1)
        | .ok last =>
          (zoneIssuances api pageSize zone fuel (n + 1) last).map fun rest =>
            (⟨items ++ rest.1.items, rest.1.raised⟩, rest.2)

/-- `issuances`: the zones in turn -/
def issuances (api : Api) (pageSize : ℤ) (fuel : ℕ) : ℕ → List String → Option (Collected Json)
  | _, [] => some ⟨[], none⟩
  | n, zone :: zones =>
    (zoneIssuances api pageSize zone fuel n .null).bind fun c =>
      if c.1.raised.isSome then some c.1
      else (issuances api pageSize fuel c.2 zones).map fun rest => ⟨c.1.items ++ rest.items, rest.raised⟩

/-! ## An issuance -/

/-- the libraries -/
structure Outside where
  /-- `datetime.fromisoformat`, in seconds; a naive datetime is no point in time -/
  fromisoformat : String → Option (Option ℤ)
  /-- `base64.b64decode` and `load_der_x509_certificate`; nothing, of no octets -/
  loadDer : String → Except Err (Option X509Cert)
  /-- the certificate has the precertificate poison extension -/
  poisoned : X509Cert → Except Err Bool
  /-- an exception's class and text -/
  describe : Err → String

/-- `iss["not_after"]`, in seconds -/
def notAfterOf (o : Outside) (iss : Json) : Except Err ℤ := do
  match ← item iss "not_after" with
  | .str t =>
    match o.fromisoformat (String.ofList (t.toList.flatMap fun c => if c = 'Z' then "+00:00".toList else [c])) with
    | none => throw (.value "Invalid isoformat string")
    | some none => throw (.type "can't compare offset-naive and offset-aware datetimes")
    | some (some at_) => pure at_
  | _ => throw (.attribute "object has no attribute 'replace'")

/-- the certificate of an issuance -/
def certOf (o : Outside) (iss : Json) : Except Err (Option X509Cert) := do
  let cert ← dget iss "cert"
  if truthy cert then
    match ← item cert "data" with
    | .str s => o.loadDer s
    | _ => throw (.type "argument should be a bytes-like object or ASCII string")
  else pure none

/-- the serial number, of the certificate or else as the API gives it -/
def serialOf (env : Env) (iss : Json) : Option X509Cert → Except Err String
  | some cert => .ok (hex cert.tbs.serialNumber)
  | none => do
    match ← dgetOr iss "serial" (.str "") with
    | .str s => pure (String.ofList ((env.lower s.toList).dropWhile (· = '0')))
    | _ => throw (.attribute "object has no attribute 'lower'")

/-- the certificate with this serial number is one issued here or imported -/
def known (d : Db) (serial : String) : Bool :=
  match d.certificates.first fun c => c.serialHex = serial with
  | some (_, row) => row.source = .issued || row.source = .imported
  | none => false

def UNKNOWN_PUBLIC_CERT : FindingKind := .other "unknown_public_cert"

def unknownKey (serial : String) : String := s!"unknown_public_cert:{serial}"

def issuerOf (iss : Json) : Except Err Json := do
  let issuer ← dget iss "issuer"
  let friendly ← dget (orDict issuer) "friendly_name"
  if truthy friendly then pure friendly else dget (orDict issuer) "name"

def issuanceLocation (iss : Json) : Except Err String := do
  let id ← dget iss "id"
  pure ("ct:" ++ strOf id)

/-- the finding for an issuance -/
def findingOf (env : Env) (name serial : String) (iss : Json) : Except Err DiscoveryFinding := do
  let names ← dgetOr iss "dns_names" (.arr [])
  let issuer ← issuerOf iss
  let notAfter ← item iss "not_after"
  let location ← issuanceLocation iss
  pure ⟨UNKNOWN_PUBLIC_CERT, unknownKey serial, some location,
    [("serial", .str serial), ("dns_names", names), ("issuer", issuer), ("not_after", notAfter), ("source", .str name)],
    .opened, env.now, env.now, none⟩

theorem ct_source : "ct" ∉ ["issued", "discovered", "imported"] := by decide

/-- a final certificate, not a precertificate, goes into the inventory -/
def track (o : Outside) (env : Env) (actor : String) (iss : Json) : Option X509Cert → S Unit
  | none => pure ()
  | some cert => do
    let poison ← Tx.ofExcept (o.poisoned cert)
    if poison then pure ()
    else
      let location ← Tx.ofExcept (issuanceLocation iss)
      let _ ← onMain (onDb (Platform.ingest env actor cert (.other "ct" ct_source) (some location) none))

/-- what became of an issuance -/
inductive Seen where
  | expired | known | again | new
deriving DecidableEq

/-- a finding under this key, the first time -/
def report (env : Env) (name serial : String) (iss : Json) : S Seen := do
  let d ← Tx.get
  match ← Tx.ofExcept (oneOrNone d.main.findings fun f => f.key = unknownKey serial) with
  | none =>
    let f ← Tx.ofExcept (findingOf env name serial iss)
    onMain (addFinding f)
    pure .new
  | some (id, _) =>
    let _ ← Tx.ofExcept (findingOf env name serial iss)
    onMain (setFinding id fun f => { f with lastSeen := env.now })
    pure .again

/-- one issuance -/
def watch (o : Outside) (env : Env) (name actor : String) (iss : Json) : S Seen := do
  let notAfter ← Tx.ofExcept (notAfterOf o iss)
  if notAfter < env.now then pure .expired
  else
    let cert ← Tx.ofExcept (certOf o iss)
    let serial ← Tx.ofExcept (serialOf env iss cert)
    let d ← Tx.get
    if known d.main.db serial then pure .known
    else
      track o env actor iss cert
      report env name serial iss

/-- the loop over the issuances -/
def watchAll (o : Outside) (env : Env) (name actor : String) : List Json → S (List Seen)
  | [] => pure []
  | iss :: rest => do
    let seen ← watch o env name actor iss
    let others ← watchAll o env name actor rest
    pure (seen :: others)

/-- the exception the generator ended with -/
def ending {α : Type} (c : Collected α) : Except Err Unit :=
  match c.raised with
  | some e => .error e
  | none => .ok ()

/-- `_run_ct`: how many issuances were unexpired, and how many findings are new -/
def runCt (o : Outside) (env : Env) (name actor : String) (c : Collected Json) : S (ℕ × ℕ) := do
  let seen ← watchAll o env name actor c.items
  Tx.ofExcept (ending c)
  pure (seen.countP (· ≠ .expired), seen.countP (· = .new))

/-! ## Runs -/

/-- what a source yields in a run: the issuances of the zones, or a cloud store's certificates and where they are -/
inductive Yield where
  | ct (c : Collected Json)
  | cloud (c : Collected (X509Cert × String))

theorem cloud_source : "cloud" ∉ ["issued", "discovered", "imported"] := by decide

/-- the loop over a cloud store's certificates, counted on the run -/
def ingestAll (env : Env) (actor : String) (runId : ℕ) : List (X509Cert × String) → S Unit
  | [] => pure ()
  | (cert, location) :: rest => do
    setRun runId fun r => { r with found := r.found + 1 }
    let d ← Tx.get
    let id ← onMain (onDb (Platform.ingest env actor cert (.other "cloud" cloud_source) (some location) none))
    setRun runId fun r => { r with new := if id = d.main.db.certificates.next then r.new + 1 else r.new }
    ingestAll env actor runId rest

/-- what a run does before it is recorded -/
def collect (o : Outside) (env : Env) (name actor : String) (runId : ℕ) : Yield → S Unit
  | .ct c => do
    let counts ← runCt o env name actor c
    setRun runId fun r => { r with found := counts.1, new := counts.2 }
  | .cloud c => do
    ingestAll env actor runId c.items
    Tx.ofExcept (ending c)

/-- the exceptions that are recorded on the run; after a refused INSERT the session can only be rolled back -/
def survives : Err → Bool
  | .integrity _ => false
  | _ => true

def failed (o : Outside) (runId : ℕ) (e : Err) : S Unit :=
  if survives e then setRun runId fun r => { r with status := .failed, error := some (cut 500 (o.describe e)) }
  else Tx.throw (.other "This Session's transaction has been rolled back due to a previous exception during flush.")

/-- how the collecting ended, on the run -/
def noted (o : Outside) (runId : ℕ) : Except Err Unit → S Unit
  | .ok () => pure ()
  | .error e => failed o runId e

def RunStatus.text : RunStatus → String
  | ok => "ok"
  | failed => "failed"

/-- the audit event of a run -/
def recordRun (env : Env) (actor name : String) (runId : ℕ) : S Unit := do
  let d ← Tx.get
  match d.runs.get runId with
  | none => pure ()
  | some run =>
    onMain (onDb (record env actor "discovery.source.run" name
      [("status", .str run.status.text), ("found", .num run.found), ("new", .num run.new), ("error", .ofStr? run.error)]))

/-- `run_source`: the row of the run -/
def runSource (o : Outside) (env : Env) (name actor : String) (src : Yield) : S ℕ := do
  let d ← Tx.get
  let runId := d.runs.next
  Tx.modify fun d => { d with runs := d.runs.insert ⟨name, .ok, 0, 0, none, env.now, none⟩ }
  let result ← Tx.attempt (collect o env name actor runId src)
  noted o runId result
  setRun runId fun r => { r with finishedAt := some env.now }
  recordRun env actor name runId
  pure runId

/-- a configured source: its name, its interval in seconds, and what it yields if it is run now -/
structure Source where
  name : String
  every : ℤ
  env : Env
  yields : Yield

/-- the newest run of a source -/
def lastRun (d : Store) (name : String) : Option (ℕ × DiscoveryRun) := (d.runs.all fun r => r.source = name).getLast?

/-- the interval of a source is over -/
def isDue (d : Store) (now : ℤ) (s : Source) : Bool :=
  match lastRun d s.name with
  | some last => !decide (now - last.2.startedAt < s.every)
  | none => true

/-- `run_due`: the runs -/
def runDue (o : Outside) (now : ℤ) : List Source → S (List ℕ)
  | [] => pure []
  | s :: rest => do
    let d ← Tx.get
    if isDue d now s then
      let run ← runSource o s.env s.name "system" s.yields
      Tx.commit
      let runs ← runDue o now rest
      pure (run :: runs)
    else runDue o now rest

end Certadillo.Sources
