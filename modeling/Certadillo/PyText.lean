/-
Texts as Python cuts them up and reads numbers off them.

- `rpartition_append`: a text is cut at its last separator.
- `intOf_intText`: a number is read back from the digits it is written with.
-/
import Certadillo.Py
import Certadillo.Lib.JsonText

namespace Certadillo.Py

/-! ## Cutting -/

/-- `str.rpartition(sep)` without the separator: what stands before the last one, and after it -/
def rpartition (sep : Char) (s : Chars) : Chars × Chars :=
  let after := s.reverse.takeWhile (· ≠ sep)
  let before := s.reverse.dropWhile (· ≠ sep)
  (before.tail.reverse, after.reverse)

theorem rpartition_append {sep : Char} {a b : Chars} (hb : sep ∉ b) : rpartition sep (a ++ sep :: b) = (a, b) := by
  have hall : ∀ c ∈ b.reverse, decide (c ≠ sep) = true := by
    intro c hc
    have hcb : c ∈ b := List.mem_reverse.1 hc
    exact decide_eq_true fun h => hb (h ▸ hcb)
  have hsplit : (a ++ sep :: b).reverse = b.reverse ++ sep :: a.reverse := by simp
  unfold rpartition
  rw [hsplit, List.takeWhile_append_of_pos hall, List.dropWhile_append_of_pos hall]
  simp

/-- `str.removeprefix(p)` -/
def removeprefix (p s : Chars) : Chars := if startsWith s p then s.drop p.length else s

theorem removeprefix_append (p s : Chars) : removeprefix p (p ++ s) = s := by
  unfold removeprefix startsWith
  rw [if_pos (by simp [List.isPrefixOf_iff_prefix])]
  exact List.drop_left

theorem startsWith_append (p s : Chars) : startsWith (p ++ s) p = true := by
  simp [startsWith, List.isPrefixOf_iff_prefix]

/-- `str.split(":", 2)`, where it gives three parts -/
def split3 (s : Chars) : Option (Chars × Chars × Chars) :=
  let a := partition ':' s
  let b := partition ':' a.2
  if ':' ∈ s ∧ ':' ∈ a.2 then some (a.1, b.1, b.2) else none

theorem partition_append {sep : Char} {a b : Chars} (ha : sep ∉ a) : partition sep (a ++ sep :: b) = (a, b) := by
  have hall : ∀ c ∈ a, decide (c ≠ sep) = true := fun c hc => decide_eq_true fun h => ha (h ▸ hc)
  unfold partition
  rw [List.takeWhile_append_of_pos hall, List.dropWhile_append_of_pos hall]
  simp

theorem split3_append {a b c : Chars} (ha : ':' ∉ a) (hb : ':' ∉ b) :
    split3 (a ++ ':' :: (b ++ ':' :: c)) = some (a, b, c) := by
  unfold split3
  simp [partition_append ha, partition_append hb]

/-! ## Dictionaries -/

/-- `d or {}` -/
def orDict (d : Json) : Json := if truthy d then d else .obj []

theorem dget_ok {d v : Json} {key : String} :
    dget d key = .ok v ↔ ∃ fields, d = .obj fields ∧ (fields.lookup key).getD .null = v := by
  cases d <;> simp [dget]

/-- a value that is not null was there -/
theorem lookup_of_getD {fields : List (String × Json)} {key : String} {v : Json} (h : (fields.lookup key).getD .null = v)
    (hv : v ≠ .null) : fields.lookup key = some v := by
  cases hl : fields.lookup key with
  | none => exact absurd (by rw [← h, hl]; rfl) hv
  | some u =>
    rw [hl] at h
    rw [← h]
    rfl

/-- `sep.join(xs)`, of what a JSON value iterates over -/
def joined (sep : String) : Json → Except Err String
  | .arr xs => do pure (join sep (← xs.mapM toStr))
  | .str s => .ok (join sep (s.toList.map fun c => String.ofList [c]))
  | .obj kvs => .ok (join sep (kvs.map (·.1)))
  | _ => .error (.type "can only join an iterable")

/-! ## Numbers -/

/-- digits with single underscores between them; `digit` says that the last character was one -/
def decShape : Bool → Chars → Bool
  | digit, [] => digit
  | digit, '_' :: cs => digit && decShape false cs
  | _, c :: cs => c.isDigit && decShape true cs

/-- whether a minus stands in front, and what follows the sign -/
def signed : Chars → Bool × Chars
  | '-' :: cs => (true, cs)
  | '+' :: cs => (false, cs)
  | cs => (false, cs)

/-- `int(s)`, over the ASCII digits -/
def intOf (s : Chars) : Option ℤ :=
  let number := signed (strip s)
  if decShape false number.2 then
    let n : ℤ := Nat.ofDigitChars 10 (number.2.filter (· ≠ '_')) 0
    some (if number.1 then -n else n)
  else none

theorem digit_plain {c : Char} (h : c.isDigit = true) : c ≠ '_' ∧ c ≠ '-' ∧ c ≠ '+' ∧ c ≠ ':' ∧ isSpace c = false := by
  have hne : ∀ d : Char, d.isDigit = false → c ≠ d := by
    intro d hd heq
    rw [heq, hd] at h
    cases h
  refine ⟨hne _ (by decide), hne _ (by decide), hne _ (by decide), hne _ (by decide), ?_⟩
  have hrange : 48 ≤ c.toNat ∧ c.toNat ≤ 57 := by
    simpa [Char.isDigit, UInt32.le_iff_toNat_le] using h
  simp only [isSpace]
  simp
  omega

theorem decShape_digits {digit : Bool} {cs : Chars} (h : ∀ c ∈ cs, c.isDigit = true) (hne : digit = true ∨ cs ≠ []) :
    decShape digit cs = true := by
  induction cs generalizing digit with
  | nil => simpa [decShape] using hne
  | cons c cs ih =>
    have hc := h c List.mem_cons_self
    have hrest : decShape true cs = true := ih (fun d hd => h d (List.mem_cons_of_mem c hd)) (Or.inl rfl)
    unfold decShape
    split
    · next heq => cases heq
    · next heq =>
      cases heq
      exact absurd rfl (digit_plain hc).1
    · next heq =>
      cases heq
      simp [hc, hrest]

theorem digits_number (n : ℕ) : decShape false (Nat.toDigits 10 n) = true ∧
    Nat.ofDigitChars 10 ((Nat.toDigits 10 n).filter (· ≠ '_')) 0 = n := by
  have hdigit : ∀ c ∈ Nat.toDigits 10 n, c.isDigit = true := fun c hc => JsonText.digits_digit hc
  have hfilter : (Nat.toDigits 10 n).filter (· ≠ '_') = Nat.toDigits 10 n :=
    List.filter_eq_self.2 fun c hc => decide_eq_true (digit_plain (hdigit c hc)).1
  exact ⟨decShape_digits hdigit (Or.inr Nat.toDigits_ne_nil), by rw [hfilter, Nat.ofDigitChars_ten_toDigits]⟩

theorem signed_digits {cs : Chars} (h : ∀ c ∈ cs, c.isDigit = true) : signed cs = (false, cs) := by
  unfold signed
  split
  · exact absurd rfl (digit_plain (h '-' List.mem_cons_self)).2.1
  · exact absurd rfl (digit_plain (h '+' List.mem_cons_self)).2.2.1
  · rfl

/-- **A number is read back from its text.** -/
theorem intOf_intText (n : ℤ) : intOf (JsonText.intText n) = some n := by
  have hspace : ∀ c ∈ JsonText.intText n, isSpace c = false := by
    intro c hc
    rcases JsonText.intText_chars hc with h | rfl
    · exact (digit_plain h).2.2.2.2
    · decide
  unfold intOf
  rw [strip_eq_self hspace]
  cases n with
  | negSucc n =>
    obtain ⟨hshape, hvalue⟩ := digits_number (n + 1)
    simp only [JsonText.intText, signed, hshape, hvalue, if_true]
    rfl
  | ofNat n =>
    obtain ⟨hshape, hvalue⟩ := digits_number n
    have hsign := signed_digits fun c (hc : c ∈ Nat.toDigits 10 n) => JsonText.digits_digit hc
    simp only [JsonText.intText, hsign, hshape, hvalue, if_true]
    rfl

/-- `int(v)` of a JSON value -/
def intOfJson : Json → Except Err ℤ
  | .str s =>
    match intOf s.toList with
    | some n => .ok n
    | none =>
      let shown := pyRepr s
      .error (.value s!"invalid literal for int() with base 10: {shown}")
  | j => toInt j

/-- no colon in the text of a number -/
theorem colon_notMem_intText (n : ℤ) : ':' ∉ JsonText.intText n := by
  intro h
  rcases JsonText.intText_chars h with h | h
  · exact absurd rfl (digit_plain h).2.2.2.1
  · exact absurd h (by decide)

end Certadillo.Py
