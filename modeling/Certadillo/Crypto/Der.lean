/-
DER by hand (`crypto/der.py`): lengths, elements, and the children of a SEQUENCE.

- `readLen_at`: a length of one to five octets is read, in whatever form it was written; `length_encodeLen`: what `encodeLen`
  writes below 2 ^ 32 is one.
- `splitSequence_at`, `splitSequence_tlv`: the children of a SEQUENCE of elements with single-byte tags are these elements.
- `replaceSignature_tlv`: only the signature changes.
- `elements_unique`, `ber_unique`: octets are read as elements in one way only, also next to what BER allows.
- `childrenFrom_whole`, `childrenFrom_encoded`: what the children are of octets that are split at all.
-/
import Certadillo.Lib.Bytes
import Certadillo.Lib.Tx
import Certadillo.Py

namespace Certadillo.Crypto.Der

open Bytes

/-! ## Model -/

/-- an IndexError, which is a LookupError -/
def indexError : Err := .lookup "index out of range"

/-- `data[pos]` -/
def byteAt (data : Octets) (pos : ℕ) : Except Err ℕ :=
  match data[pos]? with
  | some b => .ok b.toNat
  | none => .error indexError

/-- `data[start:stop]` -/
def slice (data : Octets) (start stop : ℕ) : Octets := (data.drop start).take (stop - start)

/-- `_read_len`: the length, and the position after it -/
def readLen (data : Octets) (pos : ℕ) : Except Err (ℕ × ℕ) := do
  let first ← byteAt data pos
  if first < 0x80 then pure (first, pos + 1)
  else
    let n := first &&& 0x7F
    if n = 0 ∨ 4 < n then throw (.value "unsupported DER length")
    pure (ofBE (slice data (pos + 1) (pos + 1 + n)), pos + 1 + n)

def encodeLen (n : ℕ) : Octets :=
  if n < 0x80 then [UInt8.ofNat n]
  else
    let body := toBE ((bitLength n + 7) / 8) n
    UInt8.ofNat (0x80 ||| body.length) :: body

def tlv (tag : UInt8) (value : Octets) : Octets := tag :: (encodeLen value.length ++ value)

theorem readLen_pos {data : Octets} {pos n next : ℕ} (h : readLen data pos = .ok (n, next)) : pos < next := by
  unfold readLen at h
  cases hbyte : byteAt data pos with
  | error e =>
    rw [hbyte] at h
    cases h
  | ok first =>
    rw [hbyte] at h
    dsimp only [bind, Except.bind, pure, Except.pure] at h
    split at h
    · obtain ⟨-, rfl⟩ := Prod.mk.inj (Except.ok.inj h)
      omega
    · split at h
      · cases h
      · obtain ⟨-, rfl⟩ := Prod.mk.inj (Except.ok.inj h)
        omega

/-- the loop of `split_sequence`: elements with one-byte tags, up to `stop` -/
def childrenFrom (data : Octets) (stop pos : ℕ) : Except Err (List Octets) :=
  if pos < stop then
    match _h : readLen data (pos + 1) with
    | .error e => .error e
    | .ok (clen, next) =>
      match childrenFrom data stop (next + clen) with
      | .error e => .error e
      | .ok rest => .ok (slice data pos (next + clen) :: rest)
  else .ok []
termination_by stop - pos
decreasing_by
  have := readLen_pos _h
  omega

def splitSequence (data : Octets) : Except Err (List Octets) := do
  let tag ← byteAt data 0
  if tag ≠ 0x30 then throw (.value "not a SEQUENCE")
  let (length, pos) ← readLen data 1
  childrenFrom data (pos + length) pos

/-- `Certificate` and `CertificateList` with a new signature value -/
def replaceSignature (signedDer tbsDer signature : Octets) : Except Err Octets := do
  match ← splitSequence signedDer with
  | [tbs, algorithm, _] =>
    if tbs ≠ tbsDer then throw (.value "unexpected structure")
    pure (tlv 0x30 (tbs ++ algorithm ++ tlv 0x03 (0x00 :: signature)))
  | _ => throw (.value "unexpected structure")

/-! ## Lengths -/

/-- octets that say a length: in one octet, or in up to `most` after their count -/
inductive LengthIn (most : ℕ) : Octets → ℕ → Prop where
  | short (n : ℕ) : n < 0x80 → LengthIn most [UInt8.ofNat n] n
  | long (body : Octets) : 1 ≤ body.length → body.length ≤ most →
    LengthIn most (UInt8.ofNat (0x80 + body.length) :: body) (ofBE body)

/-- the lengths that are read here -/
abbrev Length : Octets → ℕ → Prop := LengthIn 4

section Lengths

variable {data l v : Octets} {pos n : ℕ}

theorem byteAt_at {b : UInt8} (h : At data pos (b :: v)) : byteAt data pos = .ok b.toNat := by
  unfold byteAt
  rw [h.head]

theorem slice_at (h : At data pos v) : slice data pos (pos + v.length) = v := by
  unfold slice
  rw [Nat.add_sub_cancel_left, h.take]

/-- the count of a long form -/
theorem count_of_first {k : ℕ} (h : k ≤ 126) : (UInt8.ofNat (0x80 + k)).toNat = 0x80 + k ∧ (0x80 + k) &&& 0x7F = k := by
  have hmask : 0x80 + k &&& 0x7F = (0x80 + k) % 2 ^ 7 := Nat.and_two_pow_sub_one_eq_mod _ 7
  constructor
  · exact toNat_ofNat (by omega)
  · omega

/-- **A length is read** wherever it stands. -/
theorem readLen_at (hl : Length l n) (h : At data pos l) : readLen data pos = .ok (n, pos + l.length) := by
  unfold readLen
  cases hl with
  | short n hn =>
    have hbyte : (UInt8.ofNat n).toNat = n := toNat_ofNat (by omega)
    rw [byteAt_at h, hbyte]
    dsimp only [bind, Except.bind]
    rw [if_pos hn]
    rfl
  | long body hone hfour =>
    obtain ⟨hfirst, hcount⟩ := count_of_first (show body.length ≤ 126 by omega)
    have hvalid : ¬ (body.length = 0 ∨ 4 < body.length) := by omega
    rw [byteAt_at h, hfirst]
    dsimp only [bind, Except.bind]
    rw [if_neg (by omega), hcount, if_neg hvalid, slice_at h.tail, List.length_cons]
    exact congrArg (fun p => Except.ok (ofBE body, p)) (by omega)

/-- what is written is a length, in as many octets as it takes -/
theorem lengthIn_encodeLen {most : ℕ} (hone : 1 ≤ most) (hmost : most ≤ 126) (h : n < 2 ^ (8 * most)) :
    LengthIn most (encodeLen n) n := by
  have hcount : ∀ k ≤ 126, 0x80 ||| k = 0x80 + k := by decide
  unfold encodeLen
  split
  · next hn => exact .short n hn
  · next hn =>
    have hbits : bitLength n ≤ 8 * most := bitLength_le.2 h
    have hne : ¬ bitLength n ≤ 7 := fun hle => hn (bitLength_le.1 hle)
    have hlong := @LengthIn.long most (toBE ((bitLength n + 7) / 8) n) (by rw [length_toBE]; omega) (by rw [length_toBE]; omega)
    rw [ofBE_toBE (lt_octets n)] at hlong
    dsimp only
    rw [length_toBE] at hlong ⊢
    rw [hcount _ (by omega)]
    exact hlong

/-- what is written below 2 ^ 32 is a length -/
theorem length_encodeLen (h : n < 2 ^ 32) : Length (encodeLen n) n := lengthIn_encodeLen (by omega) (by omega) h

end Lengths

/-! ## Elements -/

/-- an element with a one-byte tag and a definite length below 2 ^ 32 -/
def Element (x : Octets) : Prop := ∃ tag l v, Length l v.length ∧ x = tag :: (l ++ v)

section Elements

variable {data : Octets} {pos : ℕ}

theorem element_tlv (tag : UInt8) {v : Octets} (h : v.length < 2 ^ 32) : Element (tlv tag v) :=
  ⟨tag, encodeLen v.length, v, length_encodeLen h, rfl⟩

theorem length_pos {x : Octets} (h : Element x) : 0 < x.length := by
  obtain ⟨tag, l, v, -, rfl⟩ := h
  rw [List.length_cons]
  omega

theorem childrenFrom_at (children : List Octets) (hall : ∀ x ∈ children, Element x) (h : At data pos children.flatten) :
    childrenFrom data (pos + children.flatten.length) pos = .ok children := by
  induction children generalizing pos with
  | nil =>
    unfold childrenFrom
    rw [if_neg (by simp)]
  | cons x children ih =>
    rw [List.flatten_cons] at h ⊢
    have hx := hall x List.mem_cons_self
    have hpos := length_pos hx
    have hrest := ih (fun y hy => hall y (List.mem_cons_of_mem _ hy)) h.append_right
    have hself := slice_at h.append_left
    obtain ⟨tag, l, v, hl, rfl⟩ := hx
    have hread := readLen_at hl h.append_left.tail.append_left
    have hnext : pos + 1 + l.length + v.length = pos + (tag :: (l ++ v)).length := by
      rw [List.length_cons, List.length_append]
      omega
    have hstop : pos + (tag :: (l ++ v) ++ children.flatten).length =
        pos + (tag :: (l ++ v)).length + children.flatten.length := by
      rw [List.length_append]
      omega
    unfold childrenFrom
    rw [if_pos (by rw [List.length_append]; omega)]
    split
    · next e herror =>
      rw [hread] at herror
      cases herror
    · next clen next hok =>
      rw [hread] at hok
      obtain ⟨rfl, rfl⟩ := Prod.mk.inj (Except.ok.inj hok)
      rw [hnext, hstop, hrest, hself]

/-- **The children of a SEQUENCE** whose length is written in whatever form. -/
theorem splitSequence_at {l rest : Octets} (children : List Octets) (hall : ∀ x ∈ children, Element x)
    (hl : Length l children.flatten.length) :
    splitSequence (0x30 :: (l ++ children.flatten) ++ rest) = .ok children := by
  have hstart : At (0x30 :: (l ++ children.flatten) ++ rest) 0 (0x30 :: (l ++ children.flatten)) := List.prefix_append _ _
  have hread := readLen_at hl hstart.tail.append_left
  have hchildren := childrenFrom_at children hall hstart.tail.append_right
  unfold splitSequence
  rw [byteAt_at hstart]
  dsimp only [bind, Except.bind]
  rw [if_neg (by decide), hread]
  exact hchildren

theorem splitSequence_tlv (children : List Octets) (hall : ∀ x ∈ children, Element x)
    (hlen : children.flatten.length < 2 ^ 32) : splitSequence (tlv 0x30 children.flatten) = .ok children := by
  have h := @splitSequence_at _ [] children hall (length_encodeLen hlen)
  rwa [List.append_nil] at h

/-- **Only the signature changes.** -/
theorem replaceSignature_tlv {tbs algorithm old new : Octets} (htbs : Element tbs) (halgorithm : Element algorithm)
    (hold : Element old) (hlen : (tbs ++ algorithm ++ old).length < 2 ^ 32) :
    replaceSignature (tlv 0x30 (tbs ++ algorithm ++ old)) tbs new =
      .ok (tlv 0x30 (tbs ++ algorithm ++ tlv 0x03 (0x00 :: new))) := by
  have hflat : [tbs, algorithm, old].flatten = tbs ++ algorithm ++ old := by simp
  have hall : ∀ x ∈ [tbs, algorithm, old], Element x := by
    intro x hx
    simp only [List.mem_cons, List.not_mem_nil, or_false] at hx
    rcases hx with rfl | rfl | rfl
    · exact htbs
    · exact halgorithm
    · exact hold
  have hsplit := splitSequence_tlv [tbs, algorithm, old] hall (by rwa [hflat])
  rw [hflat] at hsplit
  unfold replaceSignature
  rw [hsplit]
  dsimp only [bind, Except.bind]
  rw [if_neg (fun h => h rfl)]
  rfl

end Elements

/-! ## One reading only -/

/-- the octets of a tag: more than one for a high tag number -/
def IsTag (tag : Octets) : Prop := ∃ t more, tag = t :: more ∧ (t.toNat % 32 = 31 ↔ more ≠ [])

/-- an element with these contents as BER allows it: a definite length in any form, or an indefinite one -/
inductive Encoded (tag contents : Octets) : Octets → Prop where
  | definite (l : Octets) : LengthIn 126 l contents.length → Encoded tag contents (tag ++ (l ++ contents))
  | indefinite : Encoded tag contents (tag ++ 0x80 :: (contents ++ [0, 0]))

def BerElement (x : Octets) : Prop := ∃ tag contents, IsTag tag ∧ Encoded tag contents x

/-- an element with a low tag and a definite length below 2 ^ 32 -/
def LowElement (x : Octets) : Prop := ∃ tag l v, tag.toNat % 32 ≠ 31 ∧ Length l v.length ∧ x = tag :: (l ++ v)

theorem LowElement.element {x : Octets} (h : LowElement x) : Element x := by
  obtain ⟨tag, l, v, -, hl, rfl⟩ := h
  exact ⟨tag, l, v, hl, rfl⟩

section Unique

variable {data : Octets} {pos stop : ℕ}

/-- a length of at most four octets is below 2 ^ 32 -/
theorem length_lt {l : Octets} {n : ℕ} (h : Length l n) : n < 2 ^ 32 ∧ l.length ≤ 5 := by
  cases h with
  | short n hn =>
    have hone : [UInt8.ofNat n].length = 1 := rfl
    omega
  | long body hone hfour =>
    have hlt : ofBE body < 2 ^ 32 :=
      lt_of_lt_of_le (ofBE_lt body) (le_trans (Nat.pow_le_pow_right (by omega) hfour) (by norm_num))
    rw [List.length_cons]
    omega

/-- the first octet of a length is never that of an indefinite one -/
theorem length_first {most n : ℕ} {l : Octets} (hmost : most ≤ 126) (h : LengthIn most l n) :
    ∃ d rest, l = d :: rest ∧ d ≠ 0x80 := by
  have h80 : (0x80 : UInt8).toNat = 0x80 := rfl
  cases h with
  | short n hn =>
    refine ⟨_, _, rfl, fun heq => ?_⟩
    have hto := congrArg UInt8.toNat heq
    rw [toNat_ofNat (by omega)] at hto
    omega
  | long body hone hfour =>
    refine ⟨_, _, rfl, fun heq => ?_⟩
    have hto := congrArg UInt8.toNat heq
    rw [toNat_ofNat (by omega)] at hto
    omega

/-- **One length.** Two lengths at the same place are the same, in whatever forms they may be written. -/
theorem length_unique {a b m n : ℕ} {l l' r r' : Octets} (ha : a ≤ 126) (hb : b ≤ 126) (h : LengthIn a l m)
    (h' : LengthIn b l' n) (heq : l ++ r = l' ++ r') : l = l' ∧ m = n ∧ r = r' := by
  cases h with
  | short m hm =>
    cases h' with
    | short n hn =>
      obtain ⟨hd, hr⟩ := List.cons.inj heq
      have hto := congrArg UInt8.toNat hd
      rw [toNat_ofNat (by omega), toNat_ofNat (by omega)] at hto
      subst hto
      exact ⟨rfl, rfl, hr⟩
    | long body hone hmost =>
      have hto := congrArg UInt8.toNat (List.cons.inj heq).1
      rw [toNat_ofNat (by omega), toNat_ofNat (by omega)] at hto
      omega
  | long body hone hmost =>
    cases h' with
    | short n hn =>
      have hto := congrArg UInt8.toNat (List.cons.inj heq).1
      rw [toNat_ofNat (by omega), toNat_ofNat (by omega)] at hto
      omega
    | long body' hone' hmost' =>
      obtain ⟨hd, hrest⟩ := List.cons.inj heq
      have hto := congrArg UInt8.toNat hd
      rw [toNat_ofNat (by omega), toNat_ofNat (by omega)] at hto
      obtain ⟨rfl, hr⟩ := List.append_inj hrest (by omega)
      exact ⟨rfl, rfl, hr⟩

/-- what follows equal tags: the same contents, and the same rest -/
theorem contents_unique {a b : ℕ} {l l' v v' r r' : Octets} (ha : a ≤ 126) (hb : b ≤ 126) (hl : LengthIn a l v.length)
    (hl' : LengthIn b l' v'.length) (heq : l ++ v ++ r = l' ++ v' ++ r') : l = l' ∧ v = v' ∧ r = r' := by
  rw [List.append_assoc, List.append_assoc] at heq
  obtain ⟨rfl, hlen, htail⟩ := length_unique ha hb hl hl' heq
  obtain ⟨rfl, rfl⟩ := List.append_inj htail hlen
  exact ⟨rfl, rfl, rfl⟩

/-- **One element.** Two elements at the same place are the same. -/
theorem element_unique {x y r r' : Octets} (hx : Element x) (hy : Element y) (heq : x ++ r = y ++ r') : x = y ∧ r = r' := by
  obtain ⟨t, l, v, hl, rfl⟩ := hx
  obtain ⟨t', l', v', hl', rfl⟩ := hy
  obtain ⟨rfl, hrest⟩ := List.cons.inj heq
  obtain ⟨rfl, rfl, rfl⟩ := contents_unique (by omega) (by omega) hl hl' hrest
  exact ⟨rfl, rfl⟩

/-- **One list of elements.** -/
theorem elements_unique {xs ys : List Octets} (hx : ∀ x ∈ xs, Element x) (hy : ∀ y ∈ ys, Element y)
    (heq : xs.flatten = ys.flatten) : xs = ys := by
  induction xs generalizing ys with
  | nil =>
    cases ys with
    | nil => rfl
    | cons y ys =>
      have hpos := length_pos (hy y List.mem_cons_self)
      have hlen := congrArg List.length heq
      rw [List.flatten_nil, List.flatten_cons, List.length_append, List.length_nil] at hlen
      omega
  | cons x xs ih =>
    cases ys with
    | nil =>
      have hpos := length_pos (hx x List.mem_cons_self)
      have hlen := congrArg List.length heq
      rw [List.flatten_nil, List.flatten_cons, List.length_append, List.length_nil] at hlen
      omega
    | cons y ys =>
      rw [List.flatten_cons, List.flatten_cons] at heq
      obtain ⟨rfl, hrest⟩ := element_unique (hx x List.mem_cons_self) (hy y List.mem_cons_self) heq
      rw [ih (fun z hz => hx z (List.mem_cons_of_mem _ hz)) (fun z hz => hy z (List.mem_cons_of_mem _ hz)) hrest]

/-- **DER and BER.** Where an element with a low tag and a definite length stands, BER reads no other. -/
theorem ber_unique {e x r r' : Octets} (he : LowElement e) (hx : BerElement x) (heq : e ++ r = x ++ r') : e = x ∧ r = r' := by
  obtain ⟨t, l, v, hlow, hl, rfl⟩ := he
  obtain ⟨_, contents, ⟨t', more, rfl, htag⟩, hx⟩ := hx
  have hmore : t = t' → more = [] := by
    intro h
    by_contra hne
    exact hlow (h ▸ htag.2 hne)
  cases hx with
  | definite l' hl' =>
    obtain ⟨rfl, hrest⟩ := List.cons.inj heq
    obtain rfl := hmore rfl
    obtain ⟨rfl, rfl, rfl⟩ := contents_unique (by omega) le_rfl hl hl' hrest
    exact ⟨rfl, rfl⟩
  | indefinite =>
    obtain ⟨rfl, hrest⟩ := List.cons.inj heq
    obtain rfl := hmore rfl
    obtain ⟨d, rest, rfl, hd⟩ := length_first (by omega) hl
    exact absurd (List.cons.inj hrest).1 hd

/-- an element that is written here and read elsewhere -/
theorem tlv_unique {t t' : UInt8} {x l y r r' : Octets} (hl : Length l y.length) (hx : x.length < 2 ^ 40)
    (heq : tlv t x ++ r = t' :: (l ++ y) ++ r') : t = t' ∧ x = y ∧ r = r' := by
  obtain ⟨rfl, hrest⟩ := List.cons.inj heq
  have hlong : LengthIn 5 (encodeLen x.length) x.length := lengthIn_encodeLen (by omega) (by omega) hx
  obtain ⟨-, rfl, rfl⟩ := contents_unique (by omega) (by omega) hlong hl hrest
  exact ⟨rfl, rfl, rfl⟩

/-! ### What a reading says of the octets -/

/-- a length that is read, and not past the end, stands there -/
theorem readLen_sound {n next : ℕ} (h : readLen data pos = .ok (n, next)) (hnext : next ≤ data.length) :
    ∃ l, Length l n ∧ At data pos l ∧ next = pos + l.length := by
  unfold readLen byteAt at h
  cases hbyte : data[pos]? with
  | none =>
    rw [hbyte] at h
    cases h
  | some b =>
    have hb := b.toNat_lt
    have hat := At.of_getElem? hbyte
    rw [hbyte] at h
    dsimp only [bind, Except.bind, pure, Except.pure] at h
    split at h
    · next hshort =>
      obtain ⟨rfl, rfl⟩ := Prod.mk.inj (Except.ok.inj h)
      have hself := @LengthIn.short 4 b.toNat hshort
      rw [UInt8.ofNat_toNat] at hself
      exact ⟨[b], hself, hat, rfl⟩
    · next hlong =>
      split at h
      · cases h
      · next hcount =>
        have hand : b.toNat &&& 0x7F = b.toNat - 0x80 := by
          have hmask : b.toNat &&& 0x7F = b.toNat % 2 ^ 7 := Nat.and_two_pow_sub_one_eq_mod _ 7
          omega
        obtain ⟨rfl, rfl⟩ := Prod.mk.inj (Except.ok.inj h)
        rw [hand] at hcount hnext ⊢
        have hbody : (slice data (pos + 1) (pos + 1 + (b.toNat - 0x80))).length = b.toNat - 0x80 := by
          unfold slice
          rw [List.length_take, List.length_drop]
          omega
        have hself := @LengthIn.long 4 (slice data (pos + 1) (pos + 1 + (b.toNat - 0x80))) (by omega) (by omega)
        have hfirst : UInt8.ofNat (0x80 + (b.toNat - 0x80)) = b := by
          rw [show 0x80 + (b.toNat - 0x80) = b.toNat by omega, UInt8.ofNat_toNat]
        rw [hbody, hfirst] at hself
        refine ⟨_, hself, ?_, ?_⟩
        · exact hat.append (List.take_prefix _ _)
        · rw [List.length_cons, hbody]
          omega

/-- an element that BER allows is read as it is, or not at all -/
theorem readLen_encoded {t : UInt8} {contents x : Octets} {n next : ℕ} (hx : Encoded [t] contents x) (hat : At data pos x)
    (h : readLen data (pos + 1) = .ok (n, next)) :
    ∃ l, Length l contents.length ∧ x = t :: (l ++ contents) ∧ n = contents.length ∧ next = pos + 1 + l.length := by
  cases hx with
  | indefinite =>
    have h80 : (0x80 : UInt8).toNat = 0x80 := rfl
    unfold readLen at h
    rw [byteAt_at hat.tail, h80] at h
    cases h
  | definite l hl =>
    have htail : At data (pos + 1) (l ++ contents) := hat.tail
    have hlength : Length l contents.length := by
      generalize contents.length = k at hl
      cases hl with
      | short k hk => exact .short k hk
      | long body hone hmost =>
        by_cases hfour : body.length ≤ 4
        · exact .long body hone hfour
        · obtain ⟨hfirst, hcount⟩ := count_of_first hmost
          unfold readLen at h
          rw [byteAt_at htail, hfirst] at h
          dsimp only [bind, Except.bind] at h
          rw [if_neg (by omega), hcount, if_pos (by omega)] at h
          cases h
    rw [readLen_at hlength htail.append_left] at h
    obtain ⟨rfl, rfl⟩ := Prod.mk.inj (Except.ok.inj h)
    exact ⟨l, hlength, rfl, rfl, rfl⟩

/-- one more child, and the rest of them -/
theorem childrenFrom_ok {parts : List Octets} (h : childrenFrom data stop pos = .ok parts) :
    (stop ≤ pos ∧ parts = []) ∨ ∃ clen next rest, pos < stop ∧ readLen data (pos + 1) = .ok (clen, next) ∧
      childrenFrom data stop (next + clen) = .ok rest ∧ parts = slice data pos (next + clen) :: rest := by
  unfold childrenFrom at h
  split at h
  · next hlt =>
    right
    split at h
    · cases h
    · next clen next hread =>
      cases hrest : childrenFrom data stop (next + clen) with
      | error e =>
        rw [hrest] at h
        cases h
      | ok rest =>
        rw [hrest] at h
        exact ⟨clen, next, rest, hlt, hread, hrest, (Except.ok.inj h).symm⟩
  · next hge => exact .inl ⟨by omega, (Except.ok.inj h).symm⟩

theorem slice_append_drop {q : ℕ} (h : pos ≤ q) : slice data pos q ++ data.drop q = data.drop pos := by
  have hdrop : data.drop q = (data.drop pos).drop (q - pos) := by
    rw [List.drop_drop]
    congr 1
    omega
  unfold slice
  rw [hdrop, List.take_append_drop]

/-- a child that does not reach past the end is an element -/
theorem element_slice {clen next : ℕ} (hlt : pos < data.length) (hread : readLen data (pos + 1) = .ok (clen, next))
    (hinside : next + clen ≤ data.length) : Element (slice data pos (next + clen)) := by
  obtain ⟨l, hl, hat, rfl⟩ := readLen_sound hread (by omega)
  have hbody : (slice data (pos + 1 + l.length) (pos + 1 + l.length + clen)).length = clen := by
    unfold slice
    rw [List.length_take, List.length_drop]
    omega
  have hself : At data pos ([data[pos]] ++ (l ++ slice data (pos + 1 + l.length) (pos + 1 + l.length + clen))) :=
    (At.of_getElem? (List.getElem?_eq_getElem hlt)).append (hat.append (List.take_prefix _ _))
  have hslice := slice_at hself
  have hstop : pos + ([data[pos]] ++ (l ++ slice data (pos + 1 + l.length) (pos + 1 + l.length + clen))).length =
      pos + 1 + l.length + clen := by
    rw [List.length_append, List.length_append, hbody, List.length_singleton]
    omega
  rw [hstop] at hslice
  rw [hslice]
  exact ⟨data[pos], l, _, by rwa [hbody], rfl⟩

/-- **The children of a whole.** Together they are all the octets; each but the last is an element. -/
theorem childrenFrom_whole {parts : List Octets} (h : childrenFrom data data.length pos = .ok parts) (hpos : pos ≤ data.length) :
    parts.flatten = data.drop pos ∧ ∀ x ∈ parts.dropLast, Element x := by
  induction parts generalizing pos with
  | nil =>
    rcases childrenFrom_ok h with ⟨hge, -⟩ | ⟨clen, next, rest, -, -, -, hparts⟩
    · rw [List.drop_of_length_le hge]
      exact ⟨rfl, by simp⟩
    · cases hparts
  | cons x parts ih =>
    rcases childrenFrom_ok h with ⟨-, hparts⟩ | ⟨clen, next, rest, hlt, hread, hrest, hparts⟩
    · cases hparts
    obtain ⟨rfl, rfl⟩ := List.cons.inj hparts
    have hafter := readLen_pos hread
    by_cases hinside : next + clen ≤ data.length
    · obtain ⟨hflat, hall⟩ := ih hrest hinside
      constructor
      · rw [List.flatten_cons, hflat, slice_append_drop (by omega)]
      · intro y hy
        cases parts with
        | nil => cases hy
        | cons z zs =>
          rw [List.dropLast_cons_cons] at hy
          rcases List.mem_cons.1 hy with rfl | hy
          · exact element_slice hlt hread hinside
          · exact hall y hy
    · -- the child reaches past the end: it is the last one
      rcases childrenFrom_ok hrest with ⟨-, rfl⟩ | ⟨-, -, -, hagain, -⟩
      · have hdrop : data.drop (next + clen) = [] := List.drop_of_length_le (by omega)
        constructor
        · rw [← slice_append_drop (show pos ≤ next + clen by omega), hdrop]
          rfl
        · intro y hy
          cases hy
      · omega

/-- **Elements that BER allows** are split as they are, or not at all. -/
theorem childrenFrom_encoded {xs parts : List Octets} (hall : ∀ x ∈ xs, ∃ t contents, Encoded [t] contents x)
    (hat : At data pos xs.flatten) (h : childrenFrom data (pos + xs.flatten.length) pos = .ok parts) :
    parts = xs ∧ ∀ x ∈ xs, Element x := by
  induction xs generalizing pos parts with
  | nil =>
    rcases childrenFrom_ok h with ⟨-, rfl⟩ | ⟨clen, next, rest, hlt, -⟩
    · exact ⟨rfl, by simp⟩
    · rw [List.flatten_nil, List.length_nil] at hlt
      omega
  | cons x xs ih =>
    rw [List.flatten_cons] at hat h
    obtain ⟨t, contents, hx⟩ := hall x List.mem_cons_self
    have hlen : (x ++ xs.flatten).length = x.length + xs.flatten.length := List.length_append
    rcases childrenFrom_ok h with ⟨hge, -⟩ | ⟨clen, next, rest, -, hread, hrest, rfl⟩
    · exfalso
      cases hx with
      | definite l hl =>
        simp only [List.length_append, List.length_singleton] at hge
        omega
      | indefinite =>
        simp only [List.length_append, List.length_singleton] at hge
        omega
    · obtain ⟨l, hl, hself, rfl, rfl⟩ := readLen_encoded hx hat.append_left hread
      have hnext : pos + 1 + l.length + contents.length = pos + x.length := by
        rw [hself, List.length_cons, List.length_append]
        omega
      rw [hnext] at hrest ⊢
      rw [hlen, ← Nat.add_assoc] at hrest
      obtain ⟨rfl, htail⟩ := ih (fun y hy => hall y (List.mem_cons_of_mem _ hy)) hat.append_right hrest
      rw [slice_at hat.append_left]
      refine ⟨rfl, ?_⟩
      intro y hy
      rcases List.mem_cons.1 hy with rfl | hy
      · exact ⟨t, l, contents, hl, hself⟩
      · exact htail y hy

/-- a SEQUENCE that BER allows is opened as it is, or not at all -/
theorem splitSequence_encoded {contents x : Octets} {parts : List Octets} (hx : Encoded [0x30] contents x)
    (h : splitSequence x = .ok parts) : ∃ l, Length l contents.length ∧ x = 0x30 :: (l ++ contents) ∧
      childrenFrom x (1 + l.length + contents.length) (1 + l.length) = .ok parts := by
  have hat : At x 0 x := List.prefix_refl x
  unfold splitSequence at h
  obtain ⟨tag, -, h⟩ := except_bind_ok.1 h
  split at h
  · cases h
  · obtain ⟨⟨length, pos⟩, hread, h⟩ := except_bind_ok.1 h
    obtain ⟨l, hl, hself, rfl, rfl⟩ := readLen_encoded hx hat hread
    rw [Nat.zero_add] at h
    exact ⟨l, hl, hself, h⟩

end Unique

end Certadillo.Crypto.Der
