/-
Scope containment: what an entry inside the zones can match.

- `zone_exact`, `zone_suffix`, `zone_spiffe`, `zone_below`: the name `within_domains` compares for each kind of entry.
- `inZone_below`: what lies below a text inside a zone is inside it.
- `ByTrustDomain`: a SPIFFE ID that a `*.suffix` entry matches has its trust domain under that suffix.
- `contained_iff`: whatever an entry matches lies inside every zone the entry lies inside iff that is so; then a scope
  inside the zones allows no name outside them.
-/
import Certadillo.Policy.SpiffeScope

namespace Certadillo.Policy

open Py

section Zones

variable {lower : Chars → Chars} {name p body base z key : Chars} {n : String}

/-! ## The name a zone is compared with -/

theorem firstPart_eq {sep : Char} {a : Chars} (h : sep ∉ a) (b : Chars) : firstPart sep (a ++ sep :: b) = a := by
  have hsplit : split sep a = [a] := by
    induction a with
    | nil => rfl
    | cons c a ih =>
      simp only [List.mem_cons, not_or] at h
      obtain ⟨w, ws, hs, hc⟩ := split_cons sep c a
      rw [ih h.2] at hs
      obtain ⟨rfl, rfl⟩ := List.cons.inj hs
      rw [hc, if_neg (Ne.symm h.1)]
  unfold firstPart
  rw [split_append, hsplit]
  rfl

/-- `within_domains` sees a name only after folding -/
def keyOf (folded : Chars) : Chars :=
  if startsWith folded "spiffe://".toList then firstPart '/' (folded.drop "spiffe://".length)
  else if startsWith folded "*.".toList then folded.drop 2
  else folded

theorem zoneKey_eq : zoneKey lower name = keyOf (folded lower name) := rfl

/-- the trust domain of a SPIFFE ID -/
def trustDomain (sid : Chars) : Chars := firstPart '/' (sid.drop "spiffe://".length)

theorem keyOf_spiffe {host rest : Chars} (h : '/' ∉ host) : keyOf ("spiffe://".toList ++ (host ++ '/' :: rest)) = host := by
  have hstart : startsWith ("spiffe://".toList ++ (host ++ '/' :: rest)) "spiffe://".toList = true :=
    startsWith_iff.2 ⟨_, rfl⟩
  have hdrop : ("spiffe://".toList ++ (host ++ '/' :: rest)).drop "spiffe://".length = host ++ '/' :: rest := rfl
  unfold keyOf
  rw [if_pos hstart, hdrop, firstPart_eq h]

/-- a text without a colon is no SPIFFE ID -/
theorem not_spiffe_of_colon (h : ':' ∉ name) : startsWith name "spiffe://".toList = false := by
  rw [Bool.eq_false_iff]
  intro hs
  exact h (colon_of_spiffeEntry hs)

/-- what ends in a suffix still does after the check's own prefix is dropped, unless it is a SPIFFE ID -/
theorem keyOf_suffix {t : Chars} (h : startsWith (t ++ '.' :: body) "spiffe://".toList = false) :
    keyOf (t ++ '.' :: body) = body ∨ ∃ u, keyOf (t ++ '.' :: body) = u ++ '.' :: body := by
  unfold keyOf
  rw [if_neg (by rw [h]; exact Bool.false_ne_true)]
  split
  · next hstar =>
    obtain ⟨rest, hrest⟩ := startsWith_iff.1 hstar
    match t with
    | [] => cases hrest
    | [_] => exact Or.inl rfl
    | _ :: _ :: u => exact Or.inr ⟨u, rfl⟩
  · exact Or.inr ⟨t, rfl⟩

/-! ## Zones -/

/-- a zone as it is compared -/
def zoneOf (lower : Chars → Chars) (zone : Chars) : Chars :=
  rstrip (· = '.') (lstrip (fun c => c = '*' || c = '.') (strip (lower zone)))

theorem inZone_iff : inZone lower key z = true ↔
    zoneOf lower z ≠ [] ∧ (key = zoneOf lower z ∨ ∃ u, key = u ++ '.' :: zoneOf lower z) := by
  show (!(zoneOf lower z).isEmpty && (key = zoneOf lower z || endsWith key ('.' :: zoneOf lower z))) = true ↔ _
  simp [endsWith_iff]

/-- what lies below a text inside a zone is inside it -/
theorem inZone_below (h : inZone lower body z = true) (hkey : key = body ∨ ∃ u, key = u ++ '.' :: body) :
    inZone lower key z = true := by
  rw [inZone_iff] at h ⊢
  obtain ⟨hne, hbody⟩ := h
  refine ⟨hne, ?_⟩
  rcases hkey with rfl | ⟨u, rfl⟩
  · exact hbody
  · rcases hbody with hbody | ⟨v, hbody⟩
    · exact Or.inr ⟨u, by rw [hbody]⟩
    · exact Or.inr ⟨u ++ '.' :: v, by rw [hbody, List.append_assoc]; rfl⟩

theorem within_iff {zones : List String} :
    withinDomains lower n zones = true ↔ ∃ zone ∈ zones, inZone lower (zoneKey lower n.toList) zone.toList = true :=
  List.any_eq_true

/-! ## The kinds of entries -/

theorem rstrip_append {q : Char → Bool} {c : Char} (hc : q c = false) (a b : Chars) :
    rstrip q (a ++ c :: b) = a ++ c :: rstrip q b := by
  unfold rstrip
  rw [List.reverse_append, List.reverse_cons, List.append_assoc, List.dropWhile_append]
  split
  · next hempty =>
    rw [List.isEmpty_iff.1 hempty]
    simp [hc]
  · simp

/-- the trust domain of a SPIFFE ID is in lower case -/
theorem spiffe_host (hl : LowerAscii lower) (h : spiffeIdValid lower p = true) : ∃ host path,
    p = "spiffe://".toList ++ (host ++ '/' :: path) ∧ '/' ∉ host ∧ lower p = "spiffe://".toList ++ (host ++ '/' :: path.map Char.toLower) := by
  obtain ⟨host, path, rfl, hhost, -⟩ := spiffeIdValid_ok h
  have hslash : '/' ∉ host := fun hc => absurd (hhost _ hc) (by decide)
  have hsame : lower host = host := by
    have hne : ∀ c ∈ host, decide (c ≠ '/') = true := by
      intro c hc
      rw [decide_eq_true_eq]
      rintro rfl
      exact hslash hc
    have htake : (host ++ '/' :: path).takeWhile (· ≠ '/') = host := by
      rw [List.takeWhile_append_of_pos hne]
      simp
    unfold spiffeIdValid at h
    split at h
    · cases h
    have hdrop : ("spiffe://".toList ++ (host ++ '/' :: path)).drop "spiffe://".length = host ++ '/' :: path := rfl
    rw [hdrop] at h
    dsimp only [partition] at h
    rw [htake] at h
    split at h
    · cases h
    next hok =>
    simp only [Bool.or_eq_true, not_or, decide_eq_true_eq] at hok
    exact (not_not.1 hok.1.2).symm
  refine ⟨host, path, rfl, hslash, ?_⟩
  rw [lower_uri hl h, List.map_append, List.map_append, List.map_cons,
    ← hl host fun c hc => segmentChar_lt (hhost c hc), hsame]
  rfl

/-- the zones of a SPIFFE ID are those of its trust domain -/
theorem zone_spiffe (hl : LowerAscii lower) (h : spiffeIdValid lower p = true) : zoneKey lower p = trustDomain p := by
  obtain ⟨host, path, hp, hslash, hlower⟩ := spiffe_host hl h
  have htrust : trustDomain p = host := by
    rw [hp]
    exact firstPart_eq hslash path
  have hfolded : folded lower p =
      "spiffe://".toList ++ (host ++ '/' :: rstrip (· = '.') (path.map Char.toLower)) := by
    unfold folded
    rw [hlower, ← List.append_assoc, rstrip_append (by decide), List.append_assoc]
  rw [zoneKey_eq, hfolded, keyOf_spiffe hslash, htrust]

/-- what a SPIFFE prefix matches has its trust domain -/
theorem zone_below (hl : LowerAscii lower) (h : spiffeIdValid lower base = true)
    (hm : matchesEntry lower name (base ++ "/*".toList) = true) :
    zoneKey lower name = zoneKey lower (base ++ "/*".toList) := by
  obtain ⟨t, ht⟩ := (matches_below hl h).1 hm
  obtain ⟨host, path, -, hslash, hlower⟩ := spiffe_host hl h
  have hkey : ∀ rest, keyOf (lower base ++ '/' :: rest) = host := by
    intro rest
    rw [hlower, List.append_assoc, List.append_assoc, List.cons_append]
    exact keyOf_spiffe hslash
  rw [zoneKey_eq, zoneKey_eq, ht, folded_below hl h, hkey, List.append_assoc]
  exact (hkey ['*']).symm

/-- a wildcard entry lies inside the zones of its suffix -/
theorem zone_suffix (hl : LowerAscii lower) (h : dnsLabelsOk body = true) : zoneKey lower ("*.".toList ++ body) = body := by
  have hstar : ∀ c ∈ "*.".toList, Plain c := by simp [Plain]
  have hne : body ≠ [] := by
    rintro rfl
    exact absurd h (by decide)
  have hfolded : folded lower ("*.".toList ++ body) = "*.".toList ++ body := by
    refine folded_plain hl (fun c hc => ?_) ?_
    · rcases List.mem_append.1 hc with hc | hc
      · exact hstar c hc
      · exact (dnsLabelsOk_plain h hc).1
    · rw [List.getLast?_append_of_ne_nil _ hne]
      exact (dnsLabelsOk_dot h).2
  rw [zoneKey_eq, hfolded]
  unfold keyOf
  rw [if_neg (by rw [not_spiffe_of_colon (colon_not_suffix h)]; exact Bool.false_ne_true),
    if_pos (startsWith_iff.2 ⟨body, rfl⟩)]
  rfl

/-- a DNS name, as a request or a scope writes it -/
def IsDnsName (name : Chars) : Prop := dnsLabelsOk (if startsWith name "*.".toList then name.drop 2 else name) = true

instance (name : Chars) : Decidable (IsDnsName name) := inferInstanceAs (Decidable (_ = true))

theorem dnsName_plain (h : IsDnsName name) : (∀ c ∈ name, Plain c) ∧ ':' ∉ name := by
  unfold IsDnsName at h
  split at h
  · next hstar =>
    obtain ⟨body, rfl⟩ := startsWith_iff.1 hstar
    have hbody : dnsLabelsOk body = true := h
    have hplain : ∀ c ∈ "*.".toList, Plain c := by simp [Plain]
    refine ⟨fun c hc => ?_, colon_not_suffix hbody⟩
    rcases List.mem_append.1 hc with hc | hc
    · exact hplain c hc
    · exact (dnsLabelsOk_plain hbody hc).1
  · exact ⟨fun c hc => (dnsLabelsOk_plain h hc).1, colon_not_dns h⟩

/-- a DNS name is no SPIFFE ID after folding -/
theorem dnsName_folded (hl : LowerAscii lower) (h : IsDnsName name) :
    startsWith (folded lower name) "spiffe://".toList = false := by
  obtain ⟨hplain, hcolon⟩ := dnsName_plain h
  apply not_spiffe_of_colon
  intro hc
  unfold folded at hc
  rw [lower_plain hl hplain] at hc
  exact hcolon (mem_rstrip hc)

/-! ## Containment -/

/-- where a `*.suffix` entry matches the ID, the trust domain is the suffix or lies below it -/
def ByTrustDomain (lower : Chars → Chars) (p sid : Chars) : Prop :=
  ∀ body, p = "*.".toList ++ body → endsWith (folded lower sid) ('.' :: body) = true →
    trustDomain sid = body ∨ endsWith (trustDomain sid) ('.' :: body) = true

/-- what an entry inside a zone matches is inside it -/
theorem entry_contained (hl : LowerAscii lower) (hentry : Entry lower p)
    (hname : IsDnsName name ∨ spiffeIdValid lower name = true ∧ ByTrustDomain lower p name)
    (hm : matchesEntry lower name p = true) (hz : inZone lower (zoneKey lower p) z = true) :
    inZone lower (zoneKey lower name) z = true := by
  cases hentry with
  | exact _ hp hwild =>
    have hfolded : folded lower p = p := folded_plain hl (fun c hc => (dnsLabelsOk_plain hp hc).1) (dnsLabelsOk_dot hp).2
    have hsame : folded lower name = p := (matches_exact hl hp hwild).1 hm
    rwa [zoneKey_eq, hsame, ← hfolded, ← zoneKey_eq]
  | suffix body hp =>
    obtain ⟨t, ht⟩ := (matches_suffix hl hp).1 hm
    rw [zone_suffix hl hp] at hz
    refine inZone_below hz ?_
    rcases hname with hdns | ⟨hsid, htrust⟩
    · have hno := dnsName_folded hl hdns
      rw [ht] at hno
      rw [zoneKey_eq, ht]
      exact keyOf_suffix hno
    · rw [zone_spiffe hl hsid]
      rcases htrust body rfl (endsWith_iff.2 ⟨t, ht⟩) with h | h
      · exact Or.inl h
      · exact Or.inr (endsWith_iff.1 h)
  | spiffe _ hp =>
    have hsame : folded lower name = folded lower p := (matches_spiffe hl hp).1 hm
    rwa [zoneKey_eq, hsame, ← zoneKey_eq]
  | below base hp => rwa [zone_below hl hp hm]

/-- a zone that is the suffix of a wildcard entry -/
theorem zone_of_suffix (hl : LowerAscii lower) (h : dnsLabelsOk body = true) : zoneOf lower (body ++ ['.']) = body := by
  have hplain : ∀ c ∈ body ++ ['.'], Plain c := by
    intro c hc
    rcases List.mem_append.1 hc with hc | hc
    · exact (dnsLabelsOk_plain h hc).1
    · obtain rfl := List.mem_singleton.1 hc
      decide
  -- the first label is not empty, so the text starts with one of its characters
  obtain ⟨c, s, rfl, hc⟩ : ∃ c s, body = c :: s ∧ labelChar c = true := by
    cases body with
    | nil => exact absurd h (by decide)
    | cons c s =>
      refine ⟨c, s, rfl, ?_⟩
      have hdot := (dnsLabelsOk_dot h).1
      simp only [dnsLabelsOk, Bool.and_eq_true, List.all_eq_true] at h
      obtain ⟨w, ws, -, hsplit⟩ := split_cons '.' c s
      rw [if_neg (by simpa using hdot)] at hsplit
      obtain ⟨l, hl, hs⟩ := label_iff.1 (h.2 (c :: w) (by simp [hsplit]))
      cases l with
      | nil => exact absurd rfl hl.nonempty
      | cons d l =>
        have hd : c = d := by
          rcases hs with hs | hs
          · exact (List.cons.inj hs).1
          · exact (List.cons.inj hs).1
        rw [hd]
        exact hl.chars d List.mem_cons_self
  have hspace : isSpace c = false ∧ (c = '*' || c = '.') = false := by
    have htable : ∀ n < 128, labelChar (Char.ofNat n) = true →
        isSpace (Char.ofNat n) = false ∧ (Char.ofNat n = '*' || Char.ofNat n = '.') = false := by decide
    have hn := htable c.toNat (labelChar_lt hc)
    rw [Char.ofNat_toNat] at hn
    exact hn hc
  have hstrip : strip (c :: s ++ ['.']) = c :: s ++ ['.'] := by
    unfold strip lstrip
    rw [List.cons_append, List.dropWhile_cons_of_neg (by simp [hspace.1])]
    refine rstrip_eq_self fun d hd => ?_
    rw [← List.cons_append, List.getLast?_append_of_ne_nil _ (by simp)] at hd
    cases hd
    decide
  have hfirst : lstrip (fun c => c = '*' || c = '.') (c :: s ++ ['.']) = c :: s ++ ['.'] := by
    unfold lstrip
    rw [List.cons_append, List.dropWhile_cons_of_neg (by rw [hspace.2]; exact Bool.false_ne_true)]
  unfold zoneOf
  rw [lower_plain hl hplain, hstrip, hfirst]
  have hlast := (dnsLabelsOk_dot h).2
  have hdots : rstrip (· = '.') (c :: s ++ ['.']) = rstrip (· = '.') (c :: s) := by
    unfold rstrip
    simp
  rw [hdots]
  refine rstrip_eq_self fun d hd => ?_
  simp only [decide_eq_false_iff_not]
  rintro rfl
  exact hlast hd

end Zones

/-- **Scope containment**: everything of a kind an entry matches lies inside the zones the entry lies inside, whatever the
zones, iff a SPIFFE ID that a `*.suffix` entry matches has its trust domain under the suffix. Then a scope inside the zones
allows no name outside them. -/
theorem contained_iff {lower : Chars → Chars} (hl : LowerAscii lower) {patterns scope : List String}
    (hscope : validateScope lower patterns = .ok scope) {n : String}
    (hn : IsDnsName n.toList ∨ spiffeIdValid lower n.toList = true) :
    (∀ p ∈ scope, (∀ zones, domainAllowed lower n.toList [p] = true → withinDomains lower p zones = true →
        withinDomains lower n zones = true) ↔
      (spiffeIdValid lower n.toList = true → ByTrustDomain lower p.toList n.toList)) ∧
    ((∀ p ∈ scope, spiffeIdValid lower n.toList = true → ByTrustDomain lower p.toList n.toList) →
      ∀ zones, (∀ p ∈ scope, withinDomains lower p zones = true) → domainAllowed lower n.toList scope = true →
        withinDomains lower n zones = true) := by
  have hcontained : ∀ p ∈ scope, (spiffeIdValid lower n.toList = true → ByTrustDomain lower p.toList n.toList) →
      ∀ zones, domainAllowed lower n.toList [p] = true → withinDomains lower p zones = true →
        withinDomains lower n zones = true := by
    intro p hp htrust zones hallowed hwithin
    obtain ⟨zone, hzone, hz⟩ := within_iff.1 hwithin
    rw [domainAllowed_single] at hallowed
    refine within_iff.2 ⟨zone, hzone, entry_contained hl (validateScope_entry hscope hp) ?_ hallowed hz⟩
    rcases hn with hdns | hsid
    · exact Or.inl hdns
    · exact Or.inr ⟨hsid, htrust hsid⟩
  refine ⟨fun p hp => ⟨fun hall hsid body hbody hend => ?_, hcontained p hp⟩, fun htrust zones hwithin hallowed => ?_⟩
  · -- the entry's suffix is a zone the entry lies inside
    have hok : dnsLabelsOk body = true := suffix_entry (hbody ▸ validateScope_entry hscope hp)
    have hne : body ≠ [] := by
      rintro rfl
      exact absurd hok (by decide)
    have hzone : zoneOf lower (String.ofList (body ++ ['.'])).toList = body := by
      rw [String.toList_ofList]
      exact zone_of_suffix hl hok
    have hin := hall [String.ofList (body ++ ['.'])]
      (by
        rw [domainAllowed_single, hbody]
        exact (matches_suffix hl hok).2 (endsWith_iff.1 hend))
      (by
        refine within_iff.2 ⟨_, List.mem_singleton_self _, inZone_iff.2 ?_⟩
        rw [hzone, hbody, zone_suffix hl hok]
        exact ⟨hne, Or.inl rfl⟩)
    obtain ⟨zone, hmem, hz⟩ := within_iff.1 hin
    obtain rfl := List.mem_singleton.1 hmem
    rw [inZone_iff, hzone, zone_spiffe hl hsid] at hz
    rcases hz.2 with h | h
    · exact Or.inl h
    · exact Or.inr (endsWith_iff.2 h)
  · obtain ⟨p, hp, hm⟩ := domainAllowed_iff.1 hallowed
    exact hcontained p hp (htrust p hp) zones (by rw [domainAllowed_single]; exact hm) (hwithin p hp)

/-- the scope of an application inside the zone `corp.example` -/
theorem corpScope_ok : validateScope (List.map Char.toLower) ["*.corp.example"] = .ok ["*.corp.example"] := by decide

theorem web_contained :
    (∀ p ∈ ["*.corp.example"], (∀ zones, domainAllowed (List.map Char.toLower) "www.corp.example".toList [p] = true →
        withinDomains (List.map Char.toLower) p zones = true →
        withinDomains (List.map Char.toLower) "www.corp.example" zones = true) ↔
      (spiffeIdValid (List.map Char.toLower) "www.corp.example".toList = true →
        ByTrustDomain (List.map Char.toLower) p.toList "www.corp.example".toList)) ∧
    ((∀ p ∈ ["*.corp.example"], spiffeIdValid (List.map Char.toLower) "www.corp.example".toList = true →
        ByTrustDomain (List.map Char.toLower) p.toList "www.corp.example".toList) →
      ∀ zones, (∀ p ∈ ["*.corp.example"], withinDomains (List.map Char.toLower) p zones = true) →
        domainAllowed (List.map Char.toLower) "www.corp.example".toList ["*.corp.example"] = true →
        withinDomains (List.map Char.toLower) "www.corp.example" zones = true) :=
  contained_iff lowerAscii_toLower corpScope_ok (Or.inl (by decide))

/-- The wildcard entry matches an ID by its path; its trust domain is outside the zone of the entry. -/
theorem id_outside_zone :
    ¬ ∀ (lower : Chars → Chars) (patterns scope zones : List String) (p n : String), LowerAscii lower →
      validateScope lower patterns = .ok scope → p ∈ scope →
      (IsDnsName n.toList ∨ spiffeIdValid lower n.toList = true) → domainAllowed lower n.toList [p] = true →
      withinDomains lower p zones = true → withinDomains lower n zones = true := by
  intro h
  have hin := h (List.map Char.toLower) _ _ ["corp.example"] "*.corp.example" "spiffe://other/web.corp.example"
    lowerAscii_toLower corpScope_ok (List.mem_singleton_self _) (Or.inr (by decide)) (by decide) (by decide)
  exact absurd hin (by decide)

end Certadillo.Policy
