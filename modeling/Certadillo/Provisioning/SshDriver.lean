/-
Installations over SSH (`provisioning/drivers/ssh.py`): the checks of a target and of an installation's paths, and what a
run does to the files of the host.

A run is the list of what it does to the files of the host, in the order of the source. The mode of a file is left out.

- `clean_normpath`, `checkParams_allowed`: an accepted path has no empty, "." or ".." component, and starts with an allowed
  directory.
- `program_inside`: every path that a run opens or renames, derived names included, lies inside an allowed directory.
-/
import Certadillo.Discovery.Reports
import Certadillo.Lib.Bytes
import Certadillo.Lib.Files
import Certadillo.Lib.Threads
import Certadillo.Policy.Patterns
import Certadillo.X509

namespace Certadillo.SshDriver

open Py
open Discovery (strOf)
open Bytes (Octets)

/-! ## The checks -/

abbrev Dict := List (String × Json)

/-- `d.get(key)` -/
def get (d : Dict) (key : String) : Json := (d.lookup key).getD .null

/-- `str.split()`: the words between white space -/
def words (s : Chars) : List Chars := (split ' ' (s.map fun c => if isSpace c then ' ' else c)).filter (· ≠ [])

/-- `Driver.require` -/
def require (config : Dict) (keys : List String) : Except Err Unit :=
  let missing := keys.filter fun k => !truthy (get config k)
  if missing = [] then .ok () else .error (.value ("target config needs " ++ join ", " missing))

/-- an absolute directory without ".." -/
def cleanDir : Json → Bool
  | .str d => startsWith d.toList ['/'] && !isSubstring ['.', '.'] d.toList
  | _ => false

def checkConfig (config : Dict) : Except Err Dict := do
  require config ["host", "username", "host_key", "allowed_dirs"]
  match words (strOf (get config "host_key")).toList with
  | kind :: _ :: _ =>
    if !(startsWith kind "ssh-".toList || startsWith kind "ecdsa-".toList) then
      throw (.value "host_key must be the server's public host key, e.g. 'ssh-ed25519 AAAA...'")
    else
      match get config "allowed_dirs" with
      | .arr ds =>
        if !ds.all cleanDir then throw (.value "allowed_dirs must be a list of absolute directories")
        else
          match (config.lookup "auth").getD (.str "key") with
          | .str "key" | .str "password" => pure config
          | _ => throw (.value "auth must be 'key' or 'password'")
      | _ => throw (.value "allowed_dirs must be a list of absolute directories")
  | _ => throw (.value "host_key must be the server's public host key, e.g. 'ssh-ed25519 AAAA...'")

/-- `config["allowed_dirs"]`, which `checkConfig` leaves a list of strings -/
def allowedDirs (config : Dict) : List Chars :=
  match get config "allowed_dirs" with
  | .arr ds => ds.filterMap fun
    | .str d => some d.toList
    | _ => none
  | _ => []

/-- a component of `posixpath.normpath`'s result so far -/
def normComp (initial : Bool) (out : List Chars) (comp : Chars) : List Chars :=
  if comp = [] || comp = ['.'] then out
  else if comp ≠ ['.', '.'] || (!initial && out.isEmpty) || out.getLast? = some ['.', '.'] then out ++ [comp]
  else out.dropLast

/-- `posixpath.normpath`: one or two slashes in front are kept, three and more count as one -/
def normpath (path : Chars) : Chars :=
  let initial := startsWith path ['/']
  let slashes := if startsWith path ['/', '/'] && !startsWith path ['/', '/', '/'] then ['/', '/']
    else if initial then ['/'] else []
  let out := slashes ++ ['/'].intercalate ((split '/' path).foldl (normComp initial) [])
  if out = [] then ['.'] else out

/-- `_path` -/
def path (config : Dict) (value : Json) (what : String) : Except Err (Option String) :=
  match value with
  | .null => .ok none
  | .str v =>
    if !startsWith v.toList ['/'] then .error (.value s!"{what} must be an absolute path")
    else if normpath v.toList ≠ v.toList || v.toList.any fun c => c = '\n' || c = '\r' || c = '\x00' then
      .error (.value s!"{what} {pyRepr v} is not a clean path")
    else if !(allowedDirs config).any fun d => startsWith v.toList (rstrip (· = '/') d ++ ['/']) then
      .error (.value s!"{what} {pyRepr v} is outside the target's allowed_dirs")
    else .ok (some v)
  | _ => .error (.value s!"{what} must be an absolute path")

structure Params where
  certPath : String
  keyPath : String
  chainPath : Option String
  fullchain : Bool
deriving DecidableEq

def checkParams (config params : Dict) : Except Err Params := do
  let certPath ← path config (get params "cert_path") "cert_path"
  let keyPath ← path config (get params "key_path") "key_path"
  let chainPath ← path config (get params "chain_path") "chain_path"
  let fullchain := truthy ((params.lookup "fullchain").getD (.bool true))
  match certPath, keyPath with
  | some c, some k =>
    if c = "" || k = "" then throw (.value "an ssh installation needs cert_path and key_path")
    else pure ⟨c, k, chainPath, fullchain⟩
  | _, _ => throw (.value "an ssh installation needs cert_path and key_path")

/-! ## Paths -/

/-- the components of a path -/
def parts (p : Chars) : List Chars := (split '/' p).filter (· ≠ [])

/-- the path lies in the tree below the directory, and goes nowhere else on the way -/
def Inside (d p : Chars) : Prop := parts d <+: parts p ∧ ∀ c ∈ parts p, c ≠ ['.'] ∧ c ≠ ['.', '.']

theorem parts_append (a b : Chars) : parts (a ++ '/' :: b) = parts a ++ parts b := by
  unfold parts
  rw [split_append, List.filter_append]

theorem parts_slash (b : Chars) : parts ('/' :: b) = parts b := parts_append [] b

/-- slashes at the end add no component -/
theorem parts_slashes {t : Chars} (h : ∀ c ∈ t, c = '/') (a : Chars) : parts (a ++ t) = parts a := by
  have hnil : ∀ t : Chars, (∀ c ∈ t, c = '/') → parts t = [] := by
    intro t ht
    induction t with
    | nil => rfl
    | cons c t ih =>
      obtain rfl := ht c List.mem_cons_self
      rw [parts_slash]
      exact ih fun c hc => ht c (List.mem_cons_of_mem _ hc)
  cases t with
  | nil => rw [List.append_nil]
  | cons c t =>
    obtain rfl := h c List.mem_cons_self
    rw [parts_append, hnil t fun c hc => h c (List.mem_cons_of_mem _ hc), List.append_nil]

theorem parts_rstrip (d : Chars) : parts (rstrip (· = '/') d) = parts d := by
  have hsplit : d = rstrip (· = '/') d ++ (d.reverse.takeWhile (· = '/')).reverse := by
    unfold rstrip
    rw [← List.reverse_append, List.takeWhile_append_dropWhile, List.reverse_reverse]
  have hslashes : ∀ c ∈ (d.reverse.takeWhile (· = '/')).reverse, c = '/' := by
    intro c hc
    simpa using List.mem_takeWhile_imp (List.mem_reverse.1 hc)
  conv_rhs => rw [hsplit]
  exact (parts_slashes hslashes _).symm

/-- a part of a split text has no separator in it -/
theorem sep_not_mem_split {sep : Char} {s w : Chars} (h : w ∈ split sep s) : sep ∉ w := by
  induction s generalizing w with
  | nil =>
    rw [split, List.mem_singleton] at h
    simp [h]
  | cons c s ih =>
    obtain ⟨v, vs, hs, hc⟩ := split_cons sep c s
    rw [hc] at h
    rw [hs] at ih
    split at h
    · rcases List.mem_cons.1 h with rfl | h
      · exact List.not_mem_nil
      · exact ih h
    · next hne =>
      rcases List.mem_cons.1 h with rfl | h
      · intro hmem
        rcases List.mem_cons.1 hmem with rfl | hmem
        · exact hne rfl
        · exact ih List.mem_cons_self hmem
      · exact ih (List.mem_cons_of_mem _ h)

/-- text without a slash after a path lengthens its last component -/
theorem split_snoc {suffix : Chars} (hs : '/' ∉ suffix) (s : Chars) :
    ∃ ws w, split '/' s = ws ++ [w] ∧ split '/' (s ++ suffix) = ws ++ [w ++ suffix] := by
  induction s with
  | nil => exact ⟨[], [], rfl, split_of_not_mem hs⟩
  | cons c s ih =>
    obtain ⟨ws, w, h1, h2⟩ := ih
    by_cases hc : c = '/'
    · subst hc
      have hcons : ∀ b : Chars, split '/' ('/' :: b) = [] :: split '/' b := fun b => split_append '/' [] b
      exact ⟨[] :: ws, w, by rw [hcons, h1]; rfl, by rw [List.cons_append, hcons, h2]; rfl⟩
    · rw [List.cons_append, split, split, h1, h2]
      cases ws with
      | nil => exact ⟨[], c :: w, by simp [hc], by simp [hc]⟩
      | cons v vs => exact ⟨(c :: v) :: vs, w, by simp [hc], by simp [hc]⟩

/-- the names that the driver derives from a path lie where the path lies -/
theorem Inside.suffixed {d p suffix : Chars} (h : ∃ rest, p = rstrip (· = '/') d ++ '/' :: rest)
    (hdots : ∀ c ∈ parts p, c ≠ ['.'] ∧ c ≠ ['.', '.']) (hs : '/' ∉ suffix) (hlen : 2 < suffix.length) :
    Inside d (p ++ suffix) := by
  obtain ⟨rest, rfl⟩ := h
  constructor
  · rw [List.append_assoc, List.cons_append, parts_append, parts_rstrip]
    exact List.prefix_append _ _
  · intro c hc
    obtain ⟨ws, w, h1, h2⟩ := split_snoc hs (rstrip (· = '/') d ++ '/' :: rest)
    unfold parts at hc hdots
    rw [h2] at hc
    rw [h1] at hdots
    rw [List.filter_append, List.mem_append] at hc
    rcases hc with hc | hc
    · apply hdots
      rw [List.filter_append]
      exact List.mem_append_left _ hc
    · obtain rfl := List.mem_singleton.1 (List.mem_filter.1 hc).1
      constructor
      · intro heq
        have := congrArg List.length heq
        simp at this
        omega
      · intro heq
        have := congrArg List.length heq
        simp at this
        omega

/-! ### What normpath leaves -/

/-- the components below the root: no empty one, no "." and no ".." -/
def Clean (cs : List Chars) : Prop := ∀ c ∈ cs, c ≠ [] ∧ c ≠ ['.'] ∧ c ≠ ['.', '.'] ∧ '/' ∉ c

theorem clean_normComp {cs : List Chars} {comp : Chars} (h : Clean cs) (hcomp : '/' ∉ comp) :
    Clean (normComp true cs comp) := by
  have hlast : cs.getLast? ≠ some ['.', '.'] := fun hl => (h _ (List.mem_of_getLast? hl)).2.2.1 rfl
  unfold normComp
  split
  · exact h
  · next hskip =>
    split
    · next hkeep =>
      intro c hc
      rcases List.mem_append.1 hc with hc | hc
      · exact h c hc
      · rw [List.mem_singleton.1 hc]
        simp only [Bool.or_eq_true, decide_eq_true_eq, not_or] at hskip
        have hdots : comp ≠ ['.', '.'] := by simpa [hlast] using hkeep
        exact ⟨hskip.1, hskip.2, hdots, hcomp⟩
    · exact fun c hc => h c (List.mem_of_mem_dropLast hc)

theorem clean_foldl {comps cs : List Chars} (h : Clean cs) (hcomps : ∀ c ∈ comps, '/' ∉ c) :
    Clean (comps.foldl (normComp true) cs) := by
  induction comps generalizing cs with
  | nil => exact h
  | cons c comps ih =>
    exact ih (clean_normComp h (hcomps c List.mem_cons_self)) fun c' hc' => hcomps c' (List.mem_cons_of_mem _ hc')

theorem parts_intercalate {cs : List Chars} (h : Clean cs) : parts (['/'].intercalate cs) = cs := by
  induction cs with
  | nil => rfl
  | cons c cs ih =>
    obtain ⟨hne, -, -, hslash⟩ := h c List.mem_cons_self
    have hone : parts c = [c] := by
      unfold parts
      rw [split_of_not_mem hslash, List.filter_cons_of_pos (by simpa using hne), List.filter_nil]
    cases cs with
    | nil => simpa using hone
    | cons c' cs =>
      have hrest := ih fun x hx => h x (List.mem_cons_of_mem _ hx)
      rw [List.intercalate_cons_cons, List.append_assoc, List.singleton_append, parts_append, hone, hrest]
      rfl

/-- an absolute path that is its own normal form has clean components -/
theorem clean_normpath {p : Chars} (habs : startsWith p ['/'] = true) (h : normpath p = p) : Clean (parts p) := by
  unfold normpath at h
  dsimp only at h
  rw [habs, if_pos rfl] at h
  have hclean : Clean ((split '/' p).foldl (normComp true) []) :=
    clean_foldl (fun c hc => absurd hc List.not_mem_nil) fun c hc => sep_not_mem_split hc
  have hparts : parts p = (split '/' p).foldl (normComp true) [] := by
    conv_lhs => rw [← h]
    split_ifs with htwo hempty hempty
    · cases hempty
    · rw [List.cons_append, List.cons_append, List.nil_append, parts_slash, parts_slash]
      exact parts_intercalate hclean
    · cases hempty
    · rw [List.singleton_append, parts_slash]
      exact parts_intercalate hclean
  rw [hparts]
  exact hclean

variable {config : Dict} {params : Params}

/-- what an accepted path is: clean, and below one of the allowed directories -/
def Allowed (config : Dict) (p : String) : Prop :=
  Clean (parts p.toList) ∧ ∃ d ∈ allowedDirs config, ∃ rest, p.toList = rstrip (· = '/') d ++ '/' :: rest

theorem path_allowed {value : Json} {what p : String} (h : path config value what = .ok (some p)) : Allowed config p := by
  unfold path at h
  split at h
  · cases h
  · next v =>
    split_ifs at h with habs hclean hdirs
    obtain rfl := Option.some.inj (Except.ok.inj h)
    rw [Bool.not_eq_true, Bool.not_eq_false'] at habs hdirs
    rw [Bool.or_eq_true, not_or, decide_eq_true_eq, not_not] at hclean
    obtain ⟨d, hd, hstart⟩ := List.any_eq_true.1 hdirs
    obtain ⟨rest, hrest⟩ := Policy.startsWith_iff.1 hstart
    refine ⟨clean_normpath habs hclean.1, d, hd, rest, ?_⟩
    rw [hrest, List.append_assoc]
    rfl
  · cases h

/-- every path of an accepted installation is allowed -/
theorem checkParams_allowed {raw : Dict} (h : checkParams config raw = .ok params) :
    Allowed config params.certPath ∧ Allowed config params.keyPath ∧ ∀ c, params.chainPath = some c → Allowed config c := by
  unfold checkParams at h
  obtain ⟨certPath, hcert, h⟩ := except_bind_ok.1 h
  obtain ⟨keyPath, hkey, h⟩ := except_bind_ok.1 h
  obtain ⟨chainPath, hchain, h⟩ := except_bind_ok.1 h
  dsimp only at h
  split at h
  · next c k =>
    split_ifs at h
    · obtain rfl := Except.ok.inj h
      refine ⟨path_allowed hcert, path_allowed hkey, ?_⟩
      rintro c rfl
      exact path_allowed hchain
  · cases h

theorem Allowed.inside {p : String} (h : Allowed config p) : ∃ d ∈ allowedDirs config, Inside d p.toList := by
  obtain ⟨hclean, d, hd, rest, hrest⟩ := h
  refine ⟨d, hd, ?_, fun c hc => ⟨(hclean c hc).2.1, (hclean c hc).2.2.1⟩⟩
  rw [hrest, parts_append, parts_rstrip]
  exact List.prefix_append _ _

/-- and so are the names that the driver derives from it -/
theorem Allowed.suffixed_inside {p suffix : String} (h : Allowed config p) (hs : '/' ∉ suffix.toList)
    (hlen : 2 < suffix.toList.length) : ∃ d ∈ allowedDirs config, Inside d (p ++ suffix).toList := by
  obtain ⟨hclean, d, hd, hrest⟩ := h
  refine ⟨d, hd, ?_⟩
  rw [String.toList_append]
  exact Inside.suffixed hrest (fun c hc => ⟨(hclean c hc).2.1, (hclean c hc).2.2.1⟩) hs hlen

/-! ## What a run does to the host -/

/-- `str.encode()` -/
def encode (s : String) : Octets := s.toByteArray.data.toList

inductive Op where
  /-- the file is opened for writing -/
  | create (path : String)
  /-- the file that was opened is written and closed -/
  | write (data : Octets)
  | rename (src dst : String)
  /-- the target's reload command -/
  | command (c : Json)

/-- the paths of an operation -/
def Op.paths : Op → List String
  | .create p => [p]
  | .rename a b => [a, b]
  | _ => []

def temp (path : String) : String := path ++ ".certadillo-tmp"

def next (path : String) : String := path ++ ".next"

/-- `_put` -/
def put (path : String) (data : Octets) : List Op := [.create (temp path), .write data, .rename (temp path) path]

/-- `device_csr`: openssl writes the key it generates -/
def deviceCsr (params : Params) (keyPem : Octets) : List Op := [.create (next params.keyPath), .write keyPem]

structure InstallBundle where
  certPem : String
  chainPem : String
  /-- none when the key was generated on the device and never left it -/
  keyPem : Option Octets

/-- the certificate's file -/
def certBody (params : Params) (bundle : InstallBundle) : String :=
  bundle.certPem ++ if params.fullchain then bundle.chainPem else ""

/-- the key that was sent, or the one that was generated on the device -/
def installKey (params : Params) (bundle : InstallBundle) : List Op :=
  match bundle.keyPem with
  | some pem => put params.keyPath pem
  | none => [.rename (next params.keyPath) params.keyPath]

def installChain (params : Params) (bundle : InstallBundle) : List Op :=
  match params.chainPath with
  | some chain => put chain (encode bundle.chainPem)
  | none => []

def reload (config : Dict) : List Op :=
  let reloadCmd := get config "reload_command"
  if truthy reloadCmd then [.command reloadCmd] else []

def install (config : Dict) (params : Params) (bundle : InstallBundle) : List Op :=
  installKey params bundle ++ installChain params bundle ++ put params.certPath (encode (certBody params bundle)) ++
    reload config

/-- a private key in PEM, and its public key -/
structure KeyPair where
  pem : Octets
  publicKey : PublicKey

/-- a target that `create_target` took -/
structure Target where
  config : Dict
  accepted : ∃ c, checkConfig config = .ok c

/-- a run of an installation on the target: its parameters pass the check, and its certificate is issued on the request
that its own key signed -/
structure Job (target : Target) where
  raw : Dict
  params : Params
  accepted : checkParams target.config raw = .ok params
  /-- `key_location` is "central" -/
  central : Bool
  key : KeyPair
  cert : X509Cert
  certified : cert.tbs.publicKey = some key.publicKey
  chainPem : String

variable {target : Target}

def Job.bundle (job : Job target) : InstallBundle := ⟨job.cert.pem, job.chainPem, if job.central then some job.key.pem else none⟩

/-- `provision`: the key and the install -/
def program (job : Job target) : List Op :=
  (if job.central then [] else deviceCsr job.params job.key.pem) ++ install target.config job.params job.bundle

theorem put_paths {path p : String} {data : Octets} {op : Op} (hop : op ∈ put path data) (hp : p ∈ op.paths) :
    p = path ∨ p = temp path := by
  simp only [put, List.mem_cons, List.not_mem_nil, or_false] at hop
  rcases hop with rfl | rfl | rfl
  · exact .inr (List.mem_singleton.1 hp)
  · cases hp
  · simp only [Op.paths, List.mem_cons, List.not_mem_nil, or_false] at hp
    exact hp.symm

theorem installKey_paths {bundle : InstallBundle} {op : Op} {p : String} (hop : op ∈ installKey params bundle)
    (hp : p ∈ op.paths) : p = params.keyPath ∨ p = temp params.keyPath ∨ p = next params.keyPath := by
  unfold installKey at hop
  split at hop
  · exact (put_paths hop hp).imp_right .inl
  · obtain rfl := List.mem_singleton.1 hop
    simp only [Op.paths, List.mem_cons, List.not_mem_nil, or_false] at hp
    exact hp.symm.imp_right .inr

/-- every path of a run is one of the installation's, or derived from one -/
theorem program_paths (job : Job target) {op : Op} {p : String} (hop : op ∈ program job) (hp : p ∈ op.paths) :
    ∃ q, Allowed target.config q ∧ (p = q ∨ p = temp q ∨ p = next q) := by
  obtain ⟨hcert, hkey, hchain⟩ := checkParams_allowed job.accepted
  have hput : ∀ {q : String} {data : Octets}, Allowed target.config q → op ∈ put q data →
      ∃ q, Allowed target.config q ∧ (p = q ∨ p = temp q ∨ p = next q) := by
    intro q data hq hop
    exact ⟨q, hq, (put_paths hop hp).imp_right .inl⟩
  unfold program install at hop
  rcases List.mem_append.1 hop with hop | hop
  · split_ifs at hop
    · cases hop
    · simp only [deviceCsr, List.mem_cons, List.not_mem_nil, or_false] at hop
      rcases hop with rfl | rfl
      · exact ⟨_, hkey, .inr (.inr (List.mem_singleton.1 hp))⟩
      · cases hp
  rcases List.mem_append.1 hop with hop | hop
  · rcases List.mem_append.1 hop with hop | hop
    · rcases List.mem_append.1 hop with hop | hop
      · exact ⟨_, hkey, installKey_paths hop hp⟩
      · unfold installChain at hop
        split at hop
        · next chain hc => exact hput (hchain chain hc) hop
        · cases hop
    · exact hput hcert hop
  · unfold reload at hop
    dsimp only at hop
    split_ifs at hop
    · rw [List.mem_singleton.1 hop] at hp
      cases hp
    · cases hop

/-- whatever the checks accept, every file that a run opens, moves or replaces lies inside an allowed directory -/
theorem program_inside (job : Job target) {op : Op} {p : String} (hop : op ∈ program job) (hp : p ∈ op.paths) :
    ∃ d ∈ allowedDirs target.config, Inside d p.toList := by
  obtain ⟨q, hq, rfl | rfl | rfl⟩ := program_paths job hop hp
  · exact hq.inside
  · exact hq.suffixed_inside (by decide) (by decide)
  · exact hq.suffixed_inside (by decide) (by decide)

end Certadillo.SshDriver
