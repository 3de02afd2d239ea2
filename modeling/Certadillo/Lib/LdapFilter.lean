/-
LDAP search filters in their text form (RFC 4515), and which entries they match.

Items are equality, presence and substrings; the comparisons `>=`, `<=`, `~=` and `:=` are not read.

- `parts_escape`: an escaped text is one value, with the octets of the text, whatever characters it has.
- `readFilter_item`, `readFilter_and`: how an item and a conjunction are read, with what follows them left over.
- `holds_and`: a conjunction matches what all its filters match.
-/
import Certadillo.Lib.Bytes

namespace Ldap

open Bytes

/-! ## Filters -/

inductive Filter where
  | and (fs : List Filter)
  | or (fs : List Filter)
  | not (f : Filter)
  | equality (attr : List Char) (value : Octets)
  /-- the initial part, the ones between, and the final part -/
  | substrings (attr : List Char) (parts : List Octets)
  | present (attr : List Char)

/-- how a directory compares the values of an attribute with what a filter asserts -/
structure Rules where
  equality : List Char → Octets → Octets → Bool
  substrings : List Char → Octets → List Octets → Bool

mutual

/-- whether an entry with these attributes matches -/
def Filter.holds (r : Rules) (entry : List Char → List Octets) : Filter → Bool
  | .and fs => Filter.holdsAll r entry fs
  | .or fs => Filter.holdsAny r entry fs
  | .not f => !f.holds r entry
  | .equality attr value => (entry attr).any fun stored => r.equality attr stored value
  | .substrings attr parts => (entry attr).any fun stored => r.substrings attr stored parts
  | .present attr => !(entry attr).isEmpty

def Filter.holdsAll (r : Rules) (entry : List Char → List Octets) : List Filter → Bool
  | [] => true
  | f :: fs => f.holds r entry && Filter.holdsAll r entry fs

def Filter.holdsAny (r : Rules) (entry : List Char → List Octets) : List Filter → Bool
  | [] => false
  | f :: fs => f.holds r entry || Filter.holdsAny r entry fs

end

theorem holdsAll_eq (r : Rules) (entry : List Char → List Octets) (fs : List Filter) :
    Filter.holdsAll r entry fs = fs.all fun f => f.holds r entry := by
  induction fs with
  | nil => rfl
  | cons f fs ih =>
    rw [Filter.holdsAll, ih]
    rfl

/-- a conjunction matches what all its filters match -/
theorem holds_and (r : Rules) (entry : List Char → List Octets) (fs : List Filter) :
    (Filter.and fs).holds r entry = fs.all fun f => f.holds r entry := by
  rw [Filter.holds, holdsAll_eq]

/-! ## Values -/

def hexVal (c : Char) : Option ℕ :=
  let n := c.toNat
  if 48 ≤ n ∧ n ≤ 57 then some (n - 48)
  else if 97 ≤ n ∧ n ≤ 102 then some (n - 87)
  else if 65 ≤ n ∧ n ≤ 70 then some (n - 55)
  else none

/-- octets in front of the first part -/
def prepend (b : Octets) : List Octets → List Octets
  | [] => [b]
  | p :: ps => (b ++ p) :: ps

/-- the parts of an assertion value between its asterisks; a backslash is followed by the two digits of an octet -/
def parts : List Char → Option (List Octets)
  | [] => some [[]]
  | '\\' :: a :: b :: cs =>
    match hexVal a, hexVal b with
    | some x, some y => (parts cs).map (prepend [UInt8.ofNat (x * 16 + y)])
    | _, _ => none
  | c :: cs =>
    if c = '*' then (parts cs).map ([] :: ·)
    else if c = '\\' ∨ c = '(' ∨ c = ')' ∨ c = Char.ofNat 0 then none
    else (parts cs).map (prepend (String.utf8EncodeChar c))

/-- a text as octets -/
def utf8 (s : List Char) : Octets := s.flatMap String.utf8EncodeChar

def escapeChar (c : Char) : List Char :=
  if c = '\\' then ['\\', '5', 'c']
  else if c = '*' then ['\\', '2', 'a']
  else if c = '(' then ['\\', '2', '8']
  else if c = ')' then ['\\', '2', '9']
  else if c = Char.ofNat 0 then ['\\', '0', '0']
  else [c]

/-- a text as an assertion value -/
def escape (s : List Char) : List Char := s.flatMap escapeChar

theorem parts_plain {c : Char} {cs : List Char} (hstar : c ≠ '*') (hback : c ≠ '\\') (hopen : c ≠ '(') (hclose : c ≠ ')')
    (hnul : c ≠ Char.ofNat 0) : parts (c :: cs) = (parts cs).map (prepend (String.utf8EncodeChar c)) := by
  rw [parts.eq_3 c cs (by intro a b rest h; exact (hback h).elim)]
  rw [if_neg hstar, if_neg (by simp [hback, hopen, hclose, hnul])]

theorem parts_escapeChar (c : Char) (cs : List Char) :
    parts (escapeChar c ++ cs) = (parts cs).map (prepend (String.utf8EncodeChar c)) := by
  unfold escapeChar
  split_ifs with hback hstar hopen hclose hnul
  · subst hback
    rfl
  · subst hstar
    rfl
  · subst hopen
    rfl
  · subst hclose
    rfl
  · subst hnul
    rfl
  · exact parts_plain hstar hback hopen hclose hnul

/-- **An escaped text is one value**, with the octets of the text. -/
theorem parts_escape (s : List Char) : parts (escape s) = some [utf8 s] := by
  induction s with
  | nil => rfl
  | cons c s ih =>
    have hcons : escape (c :: s) = escapeChar c ++ escape s := rfl
    rw [hcons, parts_escapeChar, ih]
    rfl

theorem close_notMem_escape (s : List Char) : ')' ∉ escape s := by
  intro h
  obtain ⟨c, -, hc⟩ := List.mem_flatMap.1 h
  unfold escapeChar at hc
  split_ifs at hc with hback hstar hopen hclose hnul
  all_goals simp at hc
  exact hclose hc.symm

/-! ## Reading -/

/-- a character of an attribute description -/
def attrChar (c : Char) : Bool := c.isAlphanum || c = '-' || c = '.' || c = ';'

def itemOf (attr : List Char) : List Octets → Filter
  | [value] => .equality attr value
  | [[], []] => .present attr
  | ps => .substrings attr ps

/-- an item, after its opening parenthesis -/
def readItem (cs : List Char) : Option (Filter × List Char) :=
  let body := cs.takeWhile (· ≠ ')')
  let attr := body.takeWhile (· ≠ '=')
  match cs.dropWhile (· ≠ ')'), body.dropWhile (· ≠ '=') with
  | _ :: rest, _ :: value =>
    if attr ≠ [] ∧ attr.all attrChar then (parts value).map fun ps => (itemOf attr ps, rest) else none
  | _, _ => none

mutual

/-- the filter at the front of a text, and what follows it -/
def readFilter : ℕ → List Char → Option (Filter × List Char)
  | n + 1, '(' :: '&' :: cs => (readList n cs).map fun r => (.and r.1, r.2)
  | n + 1, '(' :: '|' :: cs => (readList n cs).map fun r => (.or r.1, r.2)
  | n + 1, '(' :: '!' :: cs =>
    match readFilter n cs with
    | some (f, ')' :: rest) => some (.not f, rest)
    | _ => none
  | _ + 1, '(' :: cs => readItem cs
  | _, _ => none

/-- filters up to the closing parenthesis -/
def readList : ℕ → List Char → Option (List Filter × List Char)
  | _ + 1, ')' :: rest => some ([], rest)
  | n + 1, cs =>
    match readFilter n cs with
    | some (f, rest) => (readList n rest).map fun r => (f :: r.1, r.2)
    | none => none
  | 0, _ => none

end

/-- the filter a text is -/
def parse (cs : List Char) : Option Filter :=
  match readFilter (cs.length + 1) cs with
  | some (f, []) => some f
  | _ => none

/-- the text of an item -/
def itemText (attr value : List Char) : List Char := '(' :: (attr ++ '=' :: (value ++ [')']))

section Reads

variable {attr value rest : List Char} {ps : List Octets}

theorem attrChar_ne {c d : Char} (h : attrChar c = true) (hd : attrChar d = false) : c ≠ d := by
  intro heq
  rw [heq, hd] at h
  cases h

theorem readItem_text (hne : attr ≠ []) (hattr : ∀ c ∈ attr, attrChar c = true) (hvalue : ')' ∉ value)
    (hparts : parts value = some ps) : readItem (attr ++ '=' :: (value ++ ')' :: rest)) = some (itemOf attr ps, rest) := by
  have hbody : ∀ c ∈ attr ++ '=' :: value, decide (c ≠ ')') = true := by
    intro c hc
    rw [List.mem_append, List.mem_cons] at hc
    rcases hc with hc | rfl | hc
    · exact decide_eq_true (attrChar_ne (hattr c hc) (by decide))
    · decide
    · exact decide_eq_true fun h => hvalue (h ▸ hc)
  have hname : ∀ c ∈ attr, decide (c ≠ '=') = true := fun c hc => decide_eq_true (attrChar_ne (hattr c hc) (by decide))
  have hsplit : attr ++ '=' :: (value ++ ')' :: rest) = (attr ++ '=' :: value) ++ ')' :: rest := by simp
  have htake : (attr ++ '=' :: (value ++ ')' :: rest)).takeWhile (· ≠ ')') = attr ++ '=' :: value := by
    rw [hsplit, List.takeWhile_append_of_pos hbody]
    simp
  have hdrop : (attr ++ '=' :: (value ++ ')' :: rest)).dropWhile (· ≠ ')') = ')' :: rest := by
    rw [hsplit, List.dropWhile_append_of_pos hbody]
    simp
  have hattrs : (attr ++ '=' :: value).takeWhile (· ≠ '=') = attr := by
    rw [List.takeWhile_append_of_pos hname]
    simp
  have hvalues : (attr ++ '=' :: value).dropWhile (· ≠ '=') = '=' :: value := by
    rw [List.dropWhile_append_of_pos hname]
    simp
  unfold readItem
  simp only [htake, hdrop, hattrs, hvalues]
  rw [if_pos ⟨hne, List.all_eq_true.2 hattr⟩, hparts]
  rfl

/-- an item is read -/
theorem readFilter_item (n : ℕ) (hne : attr ≠ []) (hattr : ∀ c ∈ attr, attrChar c = true) (hvalue : ')' ∉ value)
    (hparts : parts value = some ps) : readFilter (n + 1) (itemText attr value ++ rest) = some (itemOf attr ps, rest) := by
  have htext : itemText attr value ++ rest = '(' :: (attr ++ '=' :: (value ++ ')' :: rest)) := by simp [itemText]
  rw [htext, ← readItem_text hne hattr hvalue hparts]
  cases attr with
  | nil => exact absurd rfl hne
  | cons c attr =>
    have hc := hattr c List.mem_cons_self
    rw [List.cons_append]
    refine readFilter.eq_4 n _ ?_ ?_ ?_
    · intro cs h
      exact attrChar_ne hc (by decide) (List.cons.inj h).1
    · intro cs h
      exact attrChar_ne hc (by decide) (List.cons.inj h).1
    · intro cs h
      exact attrChar_ne hc (by decide) (List.cons.inj h).1

/-- the end of a list -/
theorem readList_close (n : ℕ) (rest : List Char) : readList (n + 1) (')' :: rest) = some ([], rest) := rfl

/-- an item in a list, and the items after it -/
theorem readList_item {fs : List Filter} {left : List Char} (attr : List Char) (n : ℕ) (hne : attr ≠ []) (hattr : ∀ c ∈ attr, attrChar c = true)
    (hvalue : ')' ∉ value) (hparts : parts value = some ps) (hrest : readList (n + 1) rest = some (fs, left)) :
    readList (n + 2) (itemText attr value ++ rest) = some (itemOf attr ps :: fs, left) := by
  have hopen : ∀ more, itemText attr value ++ rest ≠ ')' :: more := by
    intro more h
    cases h
  rw [readList.eq_2 _ _ hopen, readFilter_item n hne hattr hvalue hparts]
  simp only [hrest]
  rfl

/-- **A conjunction is read as the list of its filters.** -/
theorem readFilter_and {fs : List Filter} {cs left : List Char} {n : ℕ} (h : readList n cs = some (fs, left)) :
    readFilter (n + 1) ('(' :: '&' :: cs) = some (.and fs, left) := by
  rw [readFilter.eq_1, h]
  rfl

theorem parse_of_read {f : Filter} {cs : List Char} (h : readFilter (cs.length + 1) cs = some (f, [])) : parse cs = some f := by
  unfold parse
  rw [h]

end Reads

end Ldap
