/-
What the entries of a name scope match.

- `split_*`, `fnmatch_*`: the parts of a text, and shell patterns without special characters before their last star.
- `label_iff`: what the label expression accepts; its `$` also accepts a newline at the end of a label.
- `validateScope_entry`: the entries a scope is made of; `entry_matches`: what each of them matches, after lower-casing
  and dropping trailing dots.
-/
import Mathlib.Data.List.TakeWhile
import Certadillo.Lib.Tx
import Certadillo.Policy.Engine

namespace Certadillo.Py

/-! ## Parts of a text -/

section Split

variable {sep c : Char} {s w : Chars}

theorem split_cons (sep c : Char) (s : Chars) : ∃ w ws, split sep s = w :: ws ∧
    split sep (c :: s) = if c = sep then [] :: w :: ws else (c :: w) :: ws := by
  obtain ⟨w, ws, hs⟩ : ∃ w ws, split sep s = w :: ws := by
    induction s with
    | nil => exact ⟨[], [], rfl⟩
    | cons d s ih =>
      obtain ⟨w, ws, hs⟩ := ih
      unfold split
      rw [hs]
      by_cases hd : d = sep
      · exact ⟨[], w :: ws, by simp [hd]⟩
      · exact ⟨d :: w, ws, by simp [hd]⟩
  refine ⟨w, ws, hs, ?_⟩
  rw [split, hs]

/-- a text is made of its parts and the separators -/
theorem mem_split (h : w ∈ split sep s) (hc : c ∈ w) : c ∈ s := by
  induction s generalizing w with
  | nil =>
    obtain rfl := List.mem_singleton.1 h
    cases hc
  | cons d s ih =>
    obtain ⟨v, ws, hs, hd⟩ := split_cons sep d s
    rw [hd] at h
    rw [hs] at ih
    split at h
    · rcases List.mem_cons.1 h with rfl | h
      · cases hc
      · exact List.mem_cons_of_mem _ (ih h hc)
    · rcases List.mem_cons.1 h with rfl | h
      · rcases List.mem_cons.1 hc with rfl | hc
        · exact List.mem_cons_self
        · exact List.mem_cons_of_mem _ (ih List.mem_cons_self hc)
      · exact List.mem_cons_of_mem _ (ih (List.mem_cons_of_mem _ h) hc)

theorem exists_split (sep : Char) (h : c ∈ s) : c = sep ∨ ∃ w ∈ split sep s, c ∈ w := by
  induction s with
  | nil => cases h
  | cons d s ih =>
    obtain ⟨v, ws, hs, hd⟩ := split_cons sep d s
    rw [hs] at ih
    rw [hd]
    by_cases hsep : d = sep
    · rw [if_pos hsep]
      rcases List.mem_cons.1 h with rfl | h
      · exact Or.inl hsep
      · rcases ih h with rfl | ⟨w, hw, hc⟩
        · exact Or.inl rfl
        · exact Or.inr ⟨w, List.mem_cons_of_mem _ hw, hc⟩
    · rw [if_neg hsep]
      rcases List.mem_cons.1 h with rfl | h
      · exact Or.inr ⟨_, List.mem_cons_self, List.mem_cons_self⟩
      · rcases ih h with rfl | ⟨w, hw, hc⟩
        · exact Or.inl rfl
        · rcases List.mem_cons.1 hw with rfl | hw
          · exact Or.inr ⟨_, List.mem_cons_self, List.mem_cons_of_mem _ hc⟩
          · exact Or.inr ⟨w, List.mem_cons_of_mem _ hw, hc⟩

/-- two texts with a separator between them -/
theorem split_append (sep : Char) (a b : Chars) : split sep (a ++ sep :: b) = split sep a ++ split sep b := by
  induction a with
  | nil =>
    obtain ⟨w, ws, hs, hb⟩ := split_cons sep sep b
    rw [List.nil_append, hb, if_pos rfl, hs]
    rfl
  | cons c a ih =>
    obtain ⟨w, ws, hs, hc⟩ := split_cons sep c a
    obtain ⟨v, vs, hv, hd⟩ := split_cons sep c (a ++ sep :: b)
    rw [ih, hs, List.cons_append] at hv
    obtain ⟨rfl, rfl⟩ := List.cons.inj hv
    rw [List.cons_append, hd, hc]
    split <;> rfl

/-- a text without the separator is its only part -/
theorem split_of_not_mem {sep : Char} (h : sep ∉ s) : split sep s = [s] := by
  induction s with
  | nil => rfl
  | cons c s ih =>
    rw [split, ih fun hmem => h (List.mem_cons_of_mem _ hmem)]
    have hc : c ≠ sep := fun heq => h (heq ▸ List.mem_cons_self)
    dsimp only
    rw [if_neg hc]

end Split

theorem rstrip_eq_self {p : Char → Bool} {s : Chars} (h : ∀ c, s.getLast? = some c → p c = false) : rstrip p s = s := by
  unfold rstrip
  cases hr : s.reverse with
  | nil => simpa using hr.symm
  | cons c cs =>
    have hc : p c = false := h c (by rw [List.getLast?_eq_head?_reverse, hr]; rfl)
    rw [List.dropWhile_cons_of_neg (by simp [hc]), ← hr, List.reverse_reverse]

theorem mem_rstrip {p : Char → Bool} {s : Chars} {c : Char} (h : c ∈ rstrip p s) : c ∈ s := by
  unfold rstrip at h
  exact List.mem_reverse.1 ((List.dropWhile_sublist _).subset (List.mem_reverse.1 h))

/-- only what `p` holds of is stripped -/
theorem mem_rstrip_of_not {p : Char → Bool} {s : Chars} {c : Char} (h : c ∈ s) (hc : p c = false) : c ∈ rstrip p s := by
  rw [← List.mem_reverse, ← List.takeWhile_append_dropWhile (p := p) (l := s.reverse)] at h
  unfold rstrip
  rw [List.mem_reverse]
  rcases List.mem_append.1 h with h | h
  · rw [List.mem_takeWhile_imp h] at hc
    cases hc
  · exact h

/-- `str.lower` of ASCII text -/
def LowerAscii (lower : Chars → Chars) : Prop :=
  ∀ s : Chars, (∀ c ∈ s, c.toNat < 128) → lower s = s.map Char.toLower

/-! ## Shell patterns -/

section Shell

variable {name pre rest : Chars}

/-- not a special character of a shell pattern -/
def Literal (c : Char) : Prop := c ≠ '*' ∧ c ≠ '?' ∧ c ≠ '['

theorem tokens_literal {c : Char} (h : Literal c) (n : ℕ) (cs : Chars) : tokens (n + 1) (c :: cs) = .lit c :: tokens n cs := by
  obtain ⟨hstar, hany, hcls⟩ := h
  rw [tokens]
  · exact fun e => hstar e
  · exact fun e => hany e
  · exact fun e => hcls e

/-- the characters before the first special one are the name's first -/
theorem matchToks_literal (h : ∀ c ∈ pre, Literal c) (n : ℕ) :
    matchToks (tokens (pre.length + n) (pre ++ rest)) name = true ↔
      ∃ t, name = pre ++ t ∧ matchToks (tokens n rest) t = true := by
  induction pre generalizing name with
  | nil => simp
  | cons c pre ih =>
    have hc : Literal c := h c List.mem_cons_self
    rw [List.length_cons, Nat.succ_add, List.cons_append, tokens_literal hc]
    cases name with
    | nil => simp [matchToks]
    | cons d name =>
      simp only [matchToks, Bool.and_eq_true, decide_eq_true_eq, ih fun c hc => h c (List.mem_cons_of_mem _ hc)]
      constructor
      · rintro ⟨rfl, t, rfl, ht⟩
        exact ⟨t, rfl, ht⟩
      · rintro ⟨t, he, ht⟩
        obtain ⟨rfl, rfl⟩ := List.cons.inj he
        exact ⟨rfl, t, rfl, ht⟩

theorem fnmatch_literal (h : ∀ c ∈ pre, Literal c) : fnmatchcase name pre = true ↔ name = pre := by
  have hm := @matchToks_literal name pre [] h 0
  rw [List.append_nil, Nat.add_zero] at hm
  unfold fnmatchcase
  rw [hm]
  simp [tokens, matchToks]

theorem fnmatch_star (h : ∀ c ∈ pre, Literal c) : fnmatchcase name (pre ++ ['*']) = true ↔ ∃ t, name = pre ++ t := by
  have hm := @matchToks_literal name pre ['*'] h 1
  unfold fnmatchcase
  rw [List.length_append, List.length_singleton, hm]
  have hstar : ∀ t, matchToks (tokens 1 ['*']) t = true := by
    intro t
    simp only [tokens, matchToks, List.any_eq_true]
    exact ⟨[], (List.mem_tails _ _).2 List.nil_suffix, rfl⟩
  simp [hstar]

end Shell

/-! ## Lines -/

/-- a class, at most so many times, and a newline that may follow -/
theorem matchLine_iff {cls : Char → Bool} {most : ℕ} {s : Chars} (hn : cls '\n' = false) :
    matchLine cls most s = true ↔
      ∃ body, (∀ c ∈ body, cls c = true) ∧ body ≠ [] ∧ body.length ≤ most ∧ (s = body ∨ s = body ++ ['\n']) := by
  unfold matchLine
  simp only [Bool.and_eq_true, Bool.or_eq_true, decide_eq_true_eq]
  constructor
  · rintro ⟨⟨hpos, hmost⟩, hrest⟩
    refine ⟨s.takeWhile cls, fun c hc => List.mem_takeWhile_imp hc, List.ne_nil_of_length_pos hpos, hmost, ?_⟩
    have hs := List.takeWhile_append_dropWhile (p := cls) (l := s)
    rcases hrest with h | h
    · rw [h, List.append_nil] at hs
      exact Or.inl hs.symm
    · rw [h] at hs
      exact Or.inr hs.symm
  · rintro ⟨body, hcls, hne, hmost, hs⟩
    have hpos : 1 ≤ body.length := List.length_pos_of_ne_nil hne
    rcases hs with rfl | rfl
    · rw [List.takeWhile_eq_self_iff.2 hcls, List.dropWhile_eq_nil_iff.2 hcls]
      exact ⟨⟨hpos, hmost⟩, Or.inl rfl⟩
    · rw [List.takeWhile_append_of_pos hcls, List.dropWhile_append_of_pos hcls]
      simp [hn, hpos, hmost]

end Certadillo.Py

namespace Certadillo.Policy

open Py

/-! ## Labels -/

section Labels

variable {c : Char} {s l body : Chars}

/-- a character of a DNS label -/
def labelChar (c : Char) : Bool := ('a' ≤ c && c ≤ 'z') || ('0' ≤ c && c ≤ '9') || c = '_' || c = '-'

/-- a DNS label -/
structure IsLabel (l : Chars) : Prop where
  chars : ∀ c ∈ l, labelChar c = true
  nonempty : l ≠ []
  length : l.length ≤ 63
  first : l.head? ≠ some '-'
  last : l.getLast? ≠ some '-'

/-- a label, and a newline that may follow -/
theorem label_iff : label s = true ↔ ∃ l, IsLabel l ∧ (s = l ∨ s = l ++ ['\n']) := by
  have hlabel : label s = (matchLine labelChar 63 s && (s.takeWhile labelChar).head? ≠ some '-' &&
      (s.takeWhile labelChar).getLast? ≠ some '-') := rfl
  have hnewline : labelChar '\n' = false := by decide
  have htake : ∀ l : Chars, (∀ c ∈ l, labelChar c = true) → (s = l ∨ s = l ++ ['\n']) → s.takeWhile labelChar = l := by
    rintro l hl (rfl | rfl)
    · exact List.takeWhile_eq_self_iff.2 hl
    · rw [List.takeWhile_append_of_pos hl]
      simp [hnewline]
  rw [hlabel]
  simp only [Bool.and_eq_true, decide_eq_true_eq, matchLine_iff hnewline]
  constructor
  · rintro ⟨⟨⟨l, hl, hne, hlen, hs⟩, hfirst⟩, hlast⟩
    rw [htake l hl hs] at hfirst hlast
    exact ⟨l, ⟨hl, hne, hlen, hfirst, hlast⟩, hs⟩
  · rintro ⟨l, hl, hs⟩
    rw [htake l hl.chars hs]
    exact ⟨⟨⟨l, hl.chars, hl.nonempty, hl.length, hs⟩, hl.first⟩, hl.last⟩

/-- an ASCII character that `lower` leaves as it is -/
def Plain (c : Char) : Prop := c.toNat < 128 ∧ c.toLower = c

instance (c : Char) : Decidable (Plain c) := inferInstanceAs (Decidable (_ ∧ _))

theorem labelChar_lt (h : labelChar c = true) : c.toNat < 128 := by
  simp only [labelChar, Bool.or_eq_true, Bool.and_eq_true, decide_eq_true_eq] at h
  rcases h with ((⟨-, h⟩ | ⟨-, h⟩) | rfl) | rfl
  · exact lt_of_le_of_lt (show c.toNat ≤ 'z'.toNat from h) (by decide)
  · exact lt_of_le_of_lt (show c.toNat ≤ '9'.toNat from h) (by decide)
  · decide
  · decide

theorem labelChar_plain (h : labelChar c = true) : Plain c ∧ Literal c := by
  have htable : ∀ n < 128, labelChar (Char.ofNat n) = true →
      Plain (Char.ofNat n) ∧ Char.ofNat n ≠ '*' ∧ Char.ofNat n ≠ '?' ∧ Char.ofNat n ≠ '[' := by decide
  have hc := htable c.toNat (labelChar_lt h)
  rw [Char.ofNat_toNat] at hc
  exact hc h

theorem lower_plain {lower : Chars → Chars} (hl : LowerAscii lower) (h : ∀ c ∈ s, Plain c) : lower s = s := by
  rw [hl s fun c hc => (h c hc).1]
  conv_rhs => rw [← List.map_id s]
  exact List.map_congr_left fun c hc => (h c hc).2

/-- the characters of a DNS name -/
theorem dnsLabelsOk_mem (h : dnsLabelsOk body = true) (hc : c ∈ body) : labelChar c = true ∨ c = '.' ∨ c = '\n' := by
  simp only [dnsLabelsOk, Bool.and_eq_true, List.all_eq_true] at h
  rcases exists_split '.' hc with rfl | ⟨w, hw, hcw⟩
  · exact Or.inr (Or.inl rfl)
  · obtain ⟨l, hl, rfl | rfl⟩ := label_iff.1 (h.2 w hw)
    · exact Or.inl (hl.chars c hcw)
    · rcases List.mem_append.1 hcw with hcl | hcn
      · exact Or.inl (hl.chars c hcl)
      · exact Or.inr (Or.inr (List.mem_singleton.1 hcn))

theorem dnsLabelsOk_plain (h : dnsLabelsOk body = true) (hc : c ∈ body) : Plain c ∧ Literal c := by
  rcases dnsLabelsOk_mem h hc with hc | rfl | rfl
  · exact labelChar_plain hc
  · exact ⟨by decide, by decide, by decide, by decide⟩
  · exact ⟨by decide, by decide, by decide, by decide⟩

/-- no label is empty, so a dot stands at neither end -/
theorem labels_dot (h : (split '.' body).all label = true) : body.head? ≠ some '.' ∧ body.getLast? ≠ some '.' := by
  have hnil : [] ∉ split '.' body := by
    intro hmem
    obtain ⟨l, hl, hs⟩ := label_iff.1 (List.all_eq_true.1 h [] hmem)
    have hne := hl.nonempty
    simp_all
  refine ⟨fun hfirst => hnil ?_, fun hlast => hnil ?_⟩
  · obtain ⟨s, rfl⟩ := List.head?_eq_some_iff.1 hfirst
    rw [← List.nil_append ('.' :: s), split_append]
    exact List.mem_append_left _ List.mem_cons_self
  · obtain ⟨s, rfl⟩ := List.getLast?_eq_some_iff.1 hlast
    rw [split_append]
    exact List.mem_append_right _ List.mem_cons_self

theorem dnsLabelsOk_dot (h : dnsLabelsOk body = true) : body.head? ≠ some '.' ∧ body.getLast? ≠ some '.' := by
  simp only [dnsLabelsOk, Bool.and_eq_true] at h
  exact labels_dot h.2

end Labels

theorem startsWith_iff {s p : Chars} : startsWith s p = true ↔ ∃ t, s = p ++ t := by
  unfold startsWith
  rw [List.isPrefixOf_iff_prefix]
  exact ⟨fun ⟨t, h⟩ => ⟨t, h.symm⟩, fun ⟨t, h⟩ => ⟨t, h.symm⟩⟩

theorem endsWith_iff {s p : Chars} : endsWith s p = true ↔ ∃ t, s = t ++ p := by
  unfold endsWith
  rw [List.isSuffixOf_iff_suffix]
  exact ⟨fun ⟨t, h⟩ => ⟨t, h.symm⟩, fun ⟨t, h⟩ => ⟨t, h.symm⟩⟩

/-! ## SPIFFE IDs -/

section Spiffe

variable {c : Char} {lower : Chars → Chars} {uri seg : Chars}

theorem isAlphanum_iff {c : Char} :
    c.isAlphanum = true ↔ (65 ≤ c.val ∧ c.val ≤ 90 ∨ 97 ≤ c.val ∧ c.val ≤ 122) ∨ 48 ≤ c.val ∧ c.val ≤ 57 := by
  have hunfold : c.isAlphanum = ((decide (c.val ≥ 65 ∧ c.val ≤ 90) || (decide (c.val ≥ 97) && decide (c.val ≤ 122))) ||
      (decide (c.val ≥ 48) && decide (c.val ≤ 57))) := rfl
  simp only [hunfold, Bool.or_eq_true, Bool.and_eq_true, decide_eq_true_eq, ge_iff_le]

/-- a character of a path segment -/
def segmentChar (c : Char) : Bool := c.isAlphanum || c = '.' || c = '_' || c = '-'

/-- a segment of a SPIFFE ID's path -/
structure IsSegment (seg : Chars) : Prop where
  chars : ∀ c ∈ seg, segmentChar c = true
  nonempty : seg ≠ []
  dot : seg ≠ ".".toList
  dots : seg ≠ "..".toList

theorem segment_iff : spiffeSegment seg = true ↔
    ∃ body, (∀ c ∈ body, segmentChar c = true) ∧ body ≠ [] ∧ (seg = body ∨ seg = body ++ ['\n']) := by
  have hsegment : spiffeSegment seg = matchLine segmentChar seg.length seg := rfl
  rw [hsegment, matchLine_iff (by decide)]
  constructor
  · rintro ⟨body, hchars, hne, -, hs⟩
    exact ⟨body, hchars, hne, hs⟩
  · rintro ⟨body, hchars, hne, hs⟩
    refine ⟨body, hchars, hne, ?_, hs⟩
    rcases hs with rfl | rfl
    · exact le_refl _
    · simp

/-- what a URI accepted as a SPIFFE ID is made of: its segments may end in a newline -/
theorem spiffeIdValid_ok (h : spiffeIdValid lower uri = true) : ∃ host path,
    uri = "spiffe://".toList ++ (host ++ '/' :: path) ∧ (∀ c ∈ host, segmentChar c = true) ∧
      ∀ seg ∈ split '/' path, seg ≠ ".".toList ∧ seg ≠ "..".toList ∧ spiffeSegment seg = true := by
  unfold spiffeIdValid at h
  split at h
  · cases h
  next hstart =>
  rw [Bool.not_eq_true', Bool.not_eq_false] at hstart
  obtain ⟨rest, rfl⟩ := startsWith_iff.1 hstart
  have hdrop : ("spiffe://".toList ++ rest).drop "spiffe://".length = rest := rfl
  rw [hdrop] at h
  dsimp only [partition] at h
  split at h
  · cases h
  next hhost =>
  split at h
  · cases h
  next hbad =>
  simp only [Bool.or_eq_true, not_or, Bool.not_eq_true', Bool.not_eq_false, List.all_eq_true, Bool.and_eq_true,
    decide_eq_true_eq] at hhost h
  have hslash : rest.dropWhile (· ≠ '/') = '/' :: (rest.dropWhile (· ≠ '/')).tail := by
    cases hd : rest.dropWhile (· ≠ '/') with
    | nil =>
      rw [hd] at hbad
      simp at hbad
    | cons d ds =>
      have hhead := List.head?_dropWhile_not (fun c => decide (c ≠ '/')) rest
      rw [hd] at hhead
      simp_all
  refine ⟨rest.takeWhile (· ≠ '/'), (rest.dropWhile (· ≠ '/')).tail, ?_, fun c hc => ?_, fun seg hseg => ?_⟩
  · rw [← hslash, List.takeWhile_append_dropWhile]
  · have hclass := hhost.2 c hc
    have hlower : (('a' ≤ c ∧ c ≤ 'z') → c.isAlphanum = true) ∧ (('0' ≤ c ∧ c ≤ '9') → c.isAlphanum = true) := by
      simp only [isAlphanum_iff, Char.le_def]
      exact ⟨fun h => Or.inl (Or.inr h), fun h => Or.inr h⟩
    simp only [segmentChar, Bool.or_eq_true, decide_eq_true_eq]
    tauto
  · obtain ⟨⟨hdot, hdots⟩, hmatch⟩ := h seg hseg
    exact ⟨hdot, hdots, hmatch⟩

theorem segmentChar_lt (h : segmentChar c = true) : c.toNat < 128 := by
  simp only [segmentChar, Bool.or_eq_true, isAlphanum_iff, decide_eq_true_eq, UInt32.le_iff_toNat_le] at h
  have hval : c.toNat = c.val.toNat := rfl
  rcases h with ((((⟨-, h⟩ | ⟨-, h⟩) | ⟨-, h⟩) | rfl) | rfl) | rfl
  · exact hval ▸ lt_of_le_of_lt h (by decide)
  · exact hval ▸ lt_of_le_of_lt h (by decide)
  · exact hval ▸ lt_of_le_of_lt h (by decide)
  · decide
  · decide
  · decide

/-- a character of a SPIFFE ID, or the newline its segments may end in -/
def uriChar (c : Char) : Bool := segmentChar c || c = ':' || c = '/' || c = '\n'

theorem uriChar_ascii (h : uriChar c = true) : c.toNat < 128 ∧ Literal c ∧ Literal c.toLower := by
  have hlt : c.toNat < 128 := by
    simp only [uriChar, Bool.or_eq_true, decide_eq_true_eq] at h
    rcases h with ((h | rfl) | rfl) | rfl
    · exact segmentChar_lt h
    · decide
    · decide
    · decide
  have htable : ∀ n < 128, uriChar (Char.ofNat n) = true →
      (Char.ofNat n ≠ '*' ∧ Char.ofNat n ≠ '?' ∧ Char.ofNat n ≠ '[') ∧
        (Char.ofNat n).toLower ≠ '*' ∧ (Char.ofNat n).toLower ≠ '?' ∧ (Char.ofNat n).toLower ≠ '[' := by decide
  have hc := htable c.toNat hlt
  rw [Char.ofNat_toNat] at hc
  exact ⟨hlt, hc h⟩

theorem spiffeIdValid_mem (h : spiffeIdValid lower uri = true) (hc : c ∈ uri) : uriChar c = true := by
  obtain ⟨host, path, rfl, hhost, hpath⟩ := spiffeIdValid_ok h
  have hseg : ∀ {c}, segmentChar c = true → uriChar c = true := by
    intro c hc
    simp [uriChar, hc]
  have hscheme : ∀ c ∈ "spiffe://".toList, uriChar c = true := List.all_eq_true.1 (by decide)
  rcases List.mem_append.1 hc with hc | hc
  · exact hscheme c hc
  rcases List.mem_append.1 hc with hc | hc
  · exact hseg (hhost c hc)
  rcases List.mem_cons.1 hc with rfl | hc
  · decide
  rcases exists_split '/' hc with rfl | ⟨w, hw, hcw⟩
  · decide
  obtain ⟨body, hbody, -, rfl | rfl⟩ := segment_iff.1 (hpath w hw).2.2
  · exact hseg (hbody c hcw)
  · rcases List.mem_append.1 hcw with hcb | hcn
    · exact hseg (hbody c hcb)
    · obtain rfl := List.mem_singleton.1 hcn
      decide

end Spiffe

/-! ## Scope entries -/

section Scope

variable {lower : Chars → Chars} {name p body base : Chars}

/-- the entries a scope may hold -/
inductive Entry (lower : Chars → Chars) : Chars → Prop where
  | exact (p : Chars) (h : dnsLabelsOk p = true) (hw : startsWith p "*.".toList = false) : Entry lower p
  | suffix (body : Chars) (h : dnsLabelsOk body = true) : Entry lower ("*.".toList ++ body)
  | spiffe (p : Chars) (h : spiffeIdValid lower p = true) : Entry lower p
  | below (base : Chars) (h : spiffeIdValid lower base = true) : Entry lower (base ++ "/*".toList)

theorem validateScope_entry {patterns out : List String} (h : validateScope lower patterns = .ok out) {e : String}
    (he : e ∈ out) : Entry lower e.toList := by
  unfold validateScope at h
  obtain ⟨ps, hps, h⟩ := except_bind_ok.1 h
  split at h
  · cases h
  cases h
  obtain ⟨raw, -, hraw⟩ := (except_mapM_mem hps).1 he
  extract_lets -underBinder p base p' body at hraw
  split at hraw
  · split at hraw
    · cases hraw
    next hok =>
    cases hraw
    simp only [Bool.or_eq_true, not_or, Bool.not_eq_true', Bool.not_eq_false] at hok
    rw [String.toList_ofList]
    by_cases hend : endsWith p "/*".toList = true
    · obtain ⟨t, ht⟩ := endsWith_iff.1 hend
      have hbase : base = t := by
        dsimp only [base]
        rw [if_pos hend, ht]
        simp
      rw [ht, ← hbase]
      exact .below base hok.2
    · have hbase : base = p := if_neg hend
      exact .spiffe p (hbase ▸ hok.2)
  · split at hraw
    · cases hraw
    next hok =>
    split at hraw
    · cases hraw
    next hbroad =>
    cases hraw
    rw [String.toList_ofList]
    rw [Bool.not_eq_true', Bool.not_eq_false] at hok
    cases hw : startsWith p' "*.".toList with
    | true =>
      obtain ⟨t, ht⟩ := startsWith_iff.1 hw
      have hbody : body = t := by
        dsimp only [body]
        rw [if_pos hw, ht]
        rfl
      rw [ht, ← hbody]
      exact .suffix body hok
    | false =>
      have hbody : body = p' := by
        dsimp only [body]
        rw [hw]
        rfl
      exact .exact p' (hbody ▸ hok) hw

/-- a name as it is compared: in lower case, without trailing dots -/
def folded (lower : Chars → Chars) (name : Chars) : Chars := rstrip (· = '.') (lower name)

/-- one pattern of `domain_allowed` -/
def matchesEntry (lower : Chars → Chars) (name p : Chars) : Bool :=
  let q := folded lower p
  if startsWith q "*.".toList then endsWith (folded lower name) q.tail else fnmatchcase (folded lower name) q

theorem domainAllowed_iff {patterns : List String} :
    domainAllowed lower name patterns = true ↔ ∃ p ∈ patterns, matchesEntry lower name p.toList = true :=
  List.any_eq_true

theorem folded_plain (hl : LowerAscii lower) (h : ∀ c ∈ p, Plain c) (hdot : p.getLast? ≠ some '.') : folded lower p = p := by
  unfold folded
  rw [lower_plain hl h]
  refine rstrip_eq_self fun c hc => ?_
  simp only [decide_eq_false_iff_not]
  rintro rfl
  exact hdot hc

/-- an exact DNS name matches itself -/
theorem matches_exact (hl : LowerAscii lower) (h : dnsLabelsOk p = true) (hw : startsWith p "*.".toList = false) :
    matchesEntry lower name p = true ↔ folded lower name = p := by
  unfold matchesEntry
  rw [folded_plain hl (fun c hc => (dnsLabelsOk_plain h hc).1) (dnsLabelsOk_dot h).2]
  dsimp only
  rw [hw, if_neg Bool.false_ne_true]
  exact fnmatch_literal fun c hc => (dnsLabelsOk_plain h hc).2

/-- a wildcard entry matches what ends in a dot and its suffix -/
theorem matches_suffix (hl : LowerAscii lower) (h : dnsLabelsOk body = true) :
    matchesEntry lower name ("*.".toList ++ body) = true ↔ ∃ t, folded lower name = t ++ '.' :: body := by
  have hstar : ∀ c ∈ "*.".toList, Plain c := by simp [Plain]
  have hplain : ∀ c ∈ "*.".toList ++ body, Plain c := by
    intro c hc
    rcases List.mem_append.1 hc with hc | hc
    · exact hstar c hc
    · exact (dnsLabelsOk_plain h hc).1
  have hne : body ≠ [] := by
    rintro rfl
    exact absurd h (by decide)
  have hlast : ("*.".toList ++ body).getLast? ≠ some '.' := by
    rw [List.getLast?_append_of_ne_nil _ hne]
    exact (dnsLabelsOk_dot h).2
  have hstart : startsWith ("*.".toList ++ body) "*.".toList = true := startsWith_iff.2 ⟨body, rfl⟩
  unfold matchesEntry
  rw [folded_plain hl hplain hlast]
  dsimp only
  rw [hstart, if_pos rfl]
  exact endsWith_iff

theorem lower_uri (hl : LowerAscii lower) (h : spiffeIdValid lower p = true) : lower p = p.map Char.toLower :=
  hl p fun _ hc => (uriChar_ascii (spiffeIdValid_mem h hc)).1

theorem literal_lower_uri (hl : LowerAscii lower) (h : spiffeIdValid lower p = true) : ∀ c ∈ lower p, Literal c := by
  intro c hc
  rw [lower_uri hl h] at hc
  obtain ⟨d, hd, rfl⟩ := List.mem_map.1 hc
  exact (uriChar_ascii (spiffeIdValid_mem h hd)).2.2

theorem startsWith_star {s : Chars} (h : ∀ c, s.head? = some c → Literal c) :
    startsWith s "*.".toList = false := by
  rw [Bool.eq_false_iff]
  intro hs
  obtain ⟨t, rfl⟩ := startsWith_iff.1 hs
  exact (h '*' rfl).1 rfl

/-- lower-casing leaves the scheme of a SPIFFE ID -/
theorem colon_mem_lower (hl : LowerAscii lower) (h : spiffeIdValid lower p = true) : ':' ∈ lower p := by
  obtain ⟨host, path, rfl, -, -⟩ := spiffeIdValid_ok h
  rw [lower_uri hl h]
  exact List.mem_map.2 ⟨':', List.mem_append_left _ (by decide), by decide⟩

/-- an exact SPIFFE ID matches what folds to the same -/
theorem matches_spiffe (hl : LowerAscii lower) (h : spiffeIdValid lower p = true) :
    matchesEntry lower name p = true ↔ folded lower name = folded lower p := by
  have hliteral : ∀ c ∈ folded lower p, Literal c := fun c hc => literal_lower_uri hl h c (mem_rstrip hc)
  unfold matchesEntry
  dsimp only
  rw [startsWith_star fun _ hc => hliteral _ (List.mem_of_head? hc), if_neg Bool.false_ne_true]
  exact fnmatch_literal hliteral

/-- a SPIFFE prefix after folding -/
theorem folded_below (hl : LowerAscii lower) (h : spiffeIdValid lower base = true) :
    folded lower (base ++ "/*".toList) = lower base ++ ['/'] ++ ['*'] := by
  have hend : ∀ c ∈ "/*".toList, c.toNat < 128 := by simp
  have hlower : lower (base ++ "/*".toList) = lower base ++ ['/'] ++ ['*'] := by
    rw [hl (base ++ "/*".toList), List.map_append, ← lower_uri hl h, List.append_assoc]
    · rfl
    · intro c hc
      rcases List.mem_append.1 hc with hc | hc
      · exact (uriChar_ascii (spiffeIdValid_mem h hc)).1
      · exact hend c hc
  unfold folded
  rw [hlower]
  refine rstrip_eq_self fun _ hc => ?_
  rw [List.getLast?_append_of_ne_nil _ (by simp)] at hc
  cases hc
  decide

/-- a SPIFFE prefix matches what starts with it after folding -/
theorem matches_below (hl : LowerAscii lower) (h : spiffeIdValid lower base = true) :
    matchesEntry lower name (base ++ "/*".toList) = true ↔ ∃ t, folded lower name = lower base ++ '/' :: t := by
  have hliteral : ∀ c ∈ lower base ++ ['/'], Literal c := by
    intro c hc
    rcases List.mem_append.1 hc with hc | hc
    · exact literal_lower_uri hl h c hc
    · obtain rfl := List.mem_singleton.1 hc
      exact ⟨by decide, by decide, by decide⟩
  have hstart : startsWith (lower base ++ ['/'] ++ ['*']) "*.".toList = false := by
    refine startsWith_star fun c hc => hliteral c ?_
    rw [List.head?_append_of_ne_nil _ (by simp)] at hc
    exact List.mem_of_head? hc
  unfold matchesEntry
  rw [folded_below hl h]
  dsimp only
  rw [hstart, if_neg Bool.false_ne_true, fnmatch_star hliteral]
  simp

end Scope

end Certadillo.Policy
