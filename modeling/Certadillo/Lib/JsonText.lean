/-
JSON texts: ASCII only, no spaces, object keys in order.

A number with a fraction is kept as the text it is written as. Strings are Unicode texts; characters outside ASCII are
written as escapes, those above U+FFFF as two.

- `print`: a value as it stands; `dumps`: with the keys of every object sorted (`canon`).
- `quote_unambiguous`, `print_unambiguous`: a text that starts with a printed value determines the value and what follows.
- `dumps_eq_iff`: two values have one text iff they are equal up to the order of keys; `canon_lookup`: then the entries of
  two objects are.
-/
import Mathlib.Tactic

namespace JsonText

abbrev Text := List Char

/-! ## Values -/

/-- a character of a number -/
def numberChar (c : Char) : Bool := c.isDigit || c = '-' || c = '+' || c = '.' || c = 'e' || c = 'N' || c = 'I' ||
  c = 'a' || c = 'n' || c = 'f' || c = 'i' || c = 't' || c = 'y'

/-- a number that is not an integer -/
structure Float where
  text : Text
  chars : ∀ c ∈ text, numberChar c = true
  marked : ∃ c ∈ text, c.isDigit = false ∧ c ≠ '-'
  starts : ∃ c t, text = c :: t ∧ (c.isDigit = true ∨ c = '-' ∨ c = 'N' ∨ c = 'I')

inductive Value where
  | null
  | bool (b : Bool)
  | int (n : ℤ)
  | float (f : Float)
  | str (s : String)
  | arr (xs : List Value)
  | obj (kvs : List (String × Value))

instance : Inhabited Value := ⟨.null⟩

/-! ## Strings -/

def hexDigit (d : ℕ) : Char := "0123456789abcdef".toList.getD d '0'

/-- four hexadecimal digits -/
def hex4 (n : ℕ) : Text := [hexDigit (n / 4096 % 16), hexDigit (n / 256 % 16), hexDigit (n / 16 % 16), hexDigit (n % 16)]

/-- the escape of one character -/
def escapeChar (c : Char) : Text :=
  if c = '"' then ['\\', '"']
  else if c = '\\' then ['\\', '\\']
  else if c = '\n' then ['\\', 'n']
  else if c = '\r' then ['\\', 'r']
  else if c = '\t' then ['\\', 't']
  else if c.toNat = 12 then ['\\', 'f']
  else if c.toNat = 8 then ['\\', 'b']
  else if 32 ≤ c.toNat ∧ c.toNat ≤ 126 then [c]
  else if c.toNat < 65536 then '\\' :: 'u' :: hex4 c.toNat
  -- a surrogate pair
  else '\\' :: 'u' :: hex4 (55296 + (c.toNat - 65536) / 1024) ++ '\\' :: 'u' :: hex4 (56320 + (c.toNat - 65536) % 1024)

def escape (s : Text) : Text := s.flatMap escapeChar

def quote (s : String) : Text := '"' :: (escape s.toList ++ ['"'])

/-! ## Printing -/

def intText : ℤ → Text
  | .ofNat n => Nat.toDigits 10 n
  | .negSucc n => '-' :: Nat.toDigits 10 (n + 1)

mutual

def print : Value → Text
  | .null => ['n', 'u', 'l', 'l']
  | .bool true => ['t', 'r', 'u', 'e']
  | .bool false => ['f', 'a', 'l', 's', 'e']
  | .int n => intText n
  | .float f => f.text
  | .str s => quote s
  | .arr [] => ['[', ']']
  | .arr (x :: xs) => '[' :: (print x ++ printRest xs)
  | .obj [] => ['{', '}']
  | .obj ((k, v) :: kvs) => '{' :: (quote k ++ ':' :: (print v ++ printFields kvs))

/-- the elements of an array after the first -/
def printRest : List Value → Text
  | [] => [']']
  | x :: xs => ',' :: (print x ++ printRest xs)

/-- the entries of an object after the first -/
def printFields : List (String × Value) → Text
  | [] => ['}']
  | (k, v) :: kvs => ',' :: (quote k ++ ':' :: (print v ++ printFields kvs))

end

/-- entries in the order of their keys, equal keys in the order they stand in -/
def sortKeys {β : Type} (kvs : List (String × β)) : List (String × β) := kvs.insertionSort fun a b => a.1 ≤ b.1

mutual

/-- the same value with the keys of every object sorted -/
def canon : Value → Value
  | .arr xs => .arr (canonList xs)
  | .obj kvs => .obj (sortKeys (canonFields kvs))
  | v => v

def canonList : List Value → List Value
  | [] => []
  | x :: xs => canon x :: canonList xs

def canonFields : List (String × Value) → List (String × Value)
  | [] => []
  | (k, v) :: kvs => (k, canon v) :: canonFields kvs

end

/-- the text with sorted keys -/
def dumps (v : Value) : Text := print (canon v)

/-! ## Strings are unambiguous -/

theorem hexDigit_inj : ∀ d < 16, ∀ e < 16, hexDigit d = hexDigit e → d = e := by decide

theorem hex4_inj {m n : ℕ} (hm : m < 65536) (hn : n < 65536) (h : hex4 m = hex4 n) : m = n := by
  simp only [hex4, List.cons.injEq, and_true] at h
  obtain ⟨h₁, h₂, h₃, h₄⟩ := h
  have e₁ := hexDigit_inj _ (Nat.mod_lt _ (by decide)) _ (Nat.mod_lt _ (by decide)) h₁
  have e₂ := hexDigit_inj _ (Nat.mod_lt _ (by decide)) _ (Nat.mod_lt _ (by decide)) h₂
  have e₃ := hexDigit_inj _ (Nat.mod_lt _ (by decide)) _ (Nat.mod_lt _ (by decide)) h₃
  have e₄ := hexDigit_inj _ (Nat.mod_lt _ (by decide)) _ (Nat.mod_lt _ (by decide)) h₄
  omega

@[simp] theorem hex4_length (n : ℕ) : (hex4 n).length = 4 := rfl

/-- the letter of a short escape -/
def shortEscape (c : Char) : Option Char :=
  if c = '"' then some '"'
  else if c = '\\' then some '\\'
  else if c = '\n' then some 'n'
  else if c = '\r' then some 'r'
  else if c = '\t' then some 't'
  else if c.toNat = 12 then some 'f'
  else if c.toNat = 8 then some 'b'
  else none

/-- the kinds of escapes -/
inductive Escape (c : Char) : Text → Prop
  | short (x : Char) (h : shortEscape c = some x) : Escape c ['\\', x]
  | plain (hbar : c ≠ '\\') (hquote : c ≠ '"') : Escape c [c]
  | one (h : c.toNat < 65536) : Escape c ('\\' :: 'u' :: hex4 c.toNat)
  | two (h : 65536 ≤ c.toNat) : Escape c ('\\' :: 'u' :: hex4 (55296 + (c.toNat - 65536) / 1024) ++
      '\\' :: 'u' :: hex4 (56320 + (c.toNat - 65536) % 1024))

theorem escapeChar_escape (c : Char) : Escape c (escapeChar c) := by
  unfold escapeChar
  split_ifs with h₁ h₂ h₃ h₄ h₅ h₆ h₇ h₈ h₉
  · exact .short _ (by simp [shortEscape, h₁])
  · exact .short _ (by simp [shortEscape, h₂])
  · exact .short _ (by simp [shortEscape, h₃])
  · exact .short _ (by simp [shortEscape, h₄])
  · exact .short _ (by simp [shortEscape, h₅])
  · exact .short _ (by simp [shortEscape, h₁, h₂, h₃, h₄, h₅, h₆])
  · exact .short _ (by simp [shortEscape, h₁, h₂, h₃, h₄, h₅, h₇])
  · exact .plain h₂ h₁
  · exact .one h₉
  · exact .two (not_lt.1 h₉)

/-- the character of a short escape -/
theorem shortEscape_code {c x : Char} (h : shortEscape c = some x) : x ≠ 'u' ∧ (c.toNat, x) ∈
    [(34, '"'), (92, '\\'), (10, 'n'), (13, 'r'), (9, 't'), (12, 'f'), (8, 'b')] := by
  unfold shortEscape at h
  split_ifs at h with h₁ h₂ h₃ h₄ h₅ h₆ h₇
  all_goals
    obtain rfl := Option.some.inj h
    simp_all

theorem shortEscape_inj {c d x : Char} (hc : shortEscape c = some x) (hd : shortEscape d = some x) : c = d := by
  have hcode := (shortEscape_code hc).2
  have hcode' := (shortEscape_code hd).2
  apply Char.toNat_inj.1
  simp only [List.mem_cons, Prod.mk.injEq, List.not_mem_nil, or_false] at hcode hcode'
  rcases hcode with ⟨h, rfl⟩ | ⟨h, rfl⟩ | ⟨h, rfl⟩ | ⟨h, rfl⟩ | ⟨h, rfl⟩ | ⟨h, rfl⟩ | ⟨h, rfl⟩
  all_goals
    simp only [Char.reduceEq, and_false, and_true, or_false, false_or] at hcode'
    omega

/-- a surrogate is no character -/
theorem not_surrogate (c : Char) : c.toNat < 1114112 ∧ (c.toNat < 55296 ∨ 57343 < c.toNat) := by
  have h : c.toNat.isValidChar := c.valid
  unfold Nat.isValidChar at h
  omega

/-- no escape is the start of another -/
theorem escape_unambiguous {c d : Char} {a b r r' : Text} (ha : Escape c a) (hb : Escape d b) (h : a ++ r = b ++ r') :
    c = d ∧ r = r' := by
  have hc := not_surrogate c
  have hd := not_surrogate d
  cases ha with
  | short x hx =>
    cases hb with
    | short y hy =>
      simp only [List.cons_append, List.nil_append, List.cons.injEq, true_and] at h
      obtain ⟨rfl, hr⟩ := h
      exact ⟨shortEscape_inj hx hy, hr⟩
    | plain hbar _ =>
      simp only [List.cons_append, List.cons.injEq] at h
      exact absurd h.1.symm hbar
    | one _ =>
      simp only [List.cons_append, List.cons.injEq, true_and] at h
      exact absurd h.1 (shortEscape_code hx).1
    | two _ =>
      simp only [List.cons_append, List.cons.injEq, true_and] at h
      exact absurd h.1 (shortEscape_code hx).1
  | plain hbar hquote =>
    cases hb with
    | plain _ _ =>
      simp only [List.cons_append, List.nil_append, List.cons.injEq] at h
      exact h
    | _ =>
      simp only [List.cons_append, List.cons.injEq] at h
      exact absurd h.1 hbar
  | one hlt =>
    cases hb with
    | short y hy =>
      simp only [List.cons_append, List.cons.injEq, true_and] at h
      exact absurd h.1.symm (shortEscape_code hy).1
    | plain hbar _ =>
      simp only [List.cons_append, List.cons.injEq] at h
      exact absurd h.1.symm hbar
    | one hlt' =>
      simp only [List.cons_append, List.cons.injEq, true_and] at h
      obtain ⟨hhex, hr⟩ := List.append_inj h (by simp)
      exact ⟨Char.toNat_inj.1 (hex4_inj hlt hlt' hhex), hr⟩
    | two hge =>
      simp only [List.cons_append, List.append_assoc, List.cons.injEq, true_and] at h
      have hhex := hex4_inj hlt (by omega) (List.append_inj h (by simp)).1
      omega
  | two hge =>
    cases hb with
    | short y hy =>
      simp only [List.cons_append, List.cons.injEq, true_and] at h
      exact absurd h.1.symm (shortEscape_code hy).1
    | plain hbar _ =>
      simp only [List.cons_append, List.cons.injEq] at h
      exact absurd h.1.symm hbar
    | one hlt =>
      simp only [List.cons_append, List.append_assoc, List.cons.injEq, true_and] at h
      have hhex := hex4_inj (by omega) hlt (List.append_inj h (by simp)).1
      omega
    | two hge' =>
      simp only [List.cons_append, List.append_assoc, List.cons.injEq, true_and] at h
      obtain ⟨hhigh, h⟩ := List.append_inj h (by simp)
      simp only [List.cons.injEq, true_and] at h
      obtain ⟨hlow, hr⟩ := List.append_inj h (by simp)
      have ehigh := hex4_inj (by omega) (by omega) hhigh
      have elow := hex4_inj (by omega) (by omega) hlow
      exact ⟨Char.toNat_inj.1 (by omega), hr⟩

/-- the closing quote is no escape -/
theorem escape_ne_quote {c : Char} {a r r' : Text} (ha : Escape c a) : a ++ r ≠ '"' :: r' := by
  intro h
  cases ha with
  | plain _ hquote =>
    simp only [List.cons_append, List.cons.injEq] at h
    exact hquote h.1
  | _ =>
    simp only [List.cons_append, List.cons.injEq] at h
    exact absurd h.1 (by decide)

/-- a quoted string ends where its quote closes -/
theorem quote_unambiguous {s s' : String} {r r' : Text} (h : quote s ++ r = quote s' ++ r') : s = s' ∧ r = r' := by
  have hchars : ∀ (a b : Text) (r r' : Text), escape a ++ '"' :: r = escape b ++ '"' :: r' → a = b ∧ r = r' := by
    intro a
    induction a with
    | nil =>
      intro b r r' h
      cases b with
      | nil => exact ⟨rfl, (List.cons.inj h).2⟩
      | cons d b =>
        rw [escape, escape, List.flatMap_nil, List.flatMap_cons, List.nil_append, List.append_assoc] at h
        exact absurd h.symm (escape_ne_quote (escapeChar_escape d))
    | cons c a ih =>
      intro b r r' h
      cases b with
      | nil =>
        rw [escape, escape, List.flatMap_nil, List.flatMap_cons, List.nil_append, List.append_assoc] at h
        exact absurd h (escape_ne_quote (escapeChar_escape c))
      | cons d b =>
        rw [escape, escape, List.flatMap_cons, List.flatMap_cons, List.append_assoc, List.append_assoc] at h
        obtain ⟨rfl, hrest⟩ := escape_unambiguous (escapeChar_escape c) (escapeChar_escape d) h
        obtain ⟨rfl, hr⟩ := ih b r r' hrest
        exact ⟨rfl, hr⟩
  unfold quote at h
  simp only [List.cons_append, List.append_assoc, List.nil_append, List.cons.injEq, true_and] at h
  obtain ⟨hs, hr⟩ := hchars _ _ r r' h
  exact ⟨String.toList_inj.1 hs, hr⟩

/-! ## Numbers are unambiguous -/

/-- what may follow a value -/
def Stops (r : Text) : Prop := ∀ c t, r = c :: t → numberChar c = false

theorem stops_nil : Stops [] := fun _ _ h => by cases h

theorem stops_cons {c : Char} {t : Text} (h : numberChar c = false) : Stops (c :: t) := by
  rintro d u ⟨⟩
  exact h

/-- a text of number characters ends where something else follows -/
theorem number_unambiguous {a b r r' : Text} (ha : ∀ c ∈ a, numberChar c = true) (hb : ∀ c ∈ b, numberChar c = true)
    (hr : Stops r) (hr' : Stops r') (h : a ++ r = b ++ r') : a = b ∧ r = r' := by
  induction a generalizing b with
  | nil =>
    cases b with
    | nil => exact ⟨rfl, h⟩
    | cons c b => exact absurd (hb c List.mem_cons_self) (by rw [hr c _ h]; exact Bool.false_ne_true)
  | cons c a ih =>
    cases b with
    | nil => exact absurd (ha c List.mem_cons_self) (by rw [hr' c _ h.symm]; exact Bool.false_ne_true)
    | cons d b =>
      obtain ⟨rfl, hrest⟩ := List.cons.inj h
      obtain ⟨rfl, hr⟩ := ih (fun c hc => ha c (List.mem_cons_of_mem _ hc)) (fun c hc => hb c (List.mem_cons_of_mem _ hc))
        hrest
      exact ⟨rfl, hr⟩

theorem digits_inj {m n : ℕ} (h : Nat.toDigits 10 m = Nat.toDigits 10 n) : m = n := by
  rw [← Nat.ofDigitChars_ten_toDigits (n := m), h, Nat.ofDigitChars_ten_toDigits]

theorem digits_digit {n : ℕ} {c : Char} (h : c ∈ Nat.toDigits 10 n) : c.isDigit = true :=
  Nat.isDigit_of_mem_toDigits (by decide) (by decide) h

theorem intText_chars {n : ℤ} {c : Char} (h : c ∈ intText n) : c.isDigit = true ∨ c = '-' := by
  cases n with
  | ofNat n => exact Or.inl (digits_digit h)
  | negSucc n =>
    rcases List.mem_cons.1 h with rfl | h
    · exact Or.inr rfl
    · exact Or.inl (digits_digit h)

theorem intText_number {n : ℤ} : ∀ c ∈ intText n, numberChar c = true := by
  intro c hc
  rcases intText_chars hc with h | rfl
  · simp [numberChar, h]
  · decide

theorem intText_inj {m n : ℤ} (h : intText m = intText n) : m = n := by
  have hminus : ∀ k l : ℕ, Nat.toDigits 10 k ≠ '-' :: Nat.toDigits 10 l := by
    intro k l h
    have hdigit := digits_digit (n := k) (c := '-') (by rw [h]; exact List.mem_cons_self)
    exact absurd hdigit (by decide)
  cases m with
  | ofNat m =>
    cases n with
    | ofNat n => exact congrArg _ (digits_inj h)
    | negSucc n => exact absurd h (hminus _ _)
  | negSucc m =>
    cases n with
    | ofNat n => exact absurd h.symm (hminus _ _)
    | negSucc n =>
      have hsucc := digits_inj (List.cons.inj h).2
      rw [Nat.succ_inj.1 hsucc]

/-- a number with a fraction is no integer -/
theorem float_ne_int (f : Float) (n : ℤ) : f.text ≠ intText n := by
  intro h
  obtain ⟨c, hc, hdigit, hminus⟩ := f.marked
  rw [h] at hc
  rcases intText_chars hc with hd | hm
  · rw [hd] at hdigit
    cases hdigit
  · exact hminus hm

/-! ## Values are unambiguous -/

/-- the kind of value a text starts, by its first character -/
def headTag (c : Char) : ℕ :=
  if c = 'n' then 0
  else if c = 't' then 1
  else if c = 'f' then 2
  else if c = '"' then 4
  else if c = '[' then 5
  else if c = '{' then 6
  else if c.isDigit || c = '-' || c = 'N' || c = 'I' then 3
  else 7

def tag : Value → ℕ
  | .null => 0
  | .bool true => 1
  | .bool false => 2
  | .int _ => 3
  | .float _ => 3
  | .str _ => 4
  | .arr _ => 5
  | .obj _ => 6

theorem headTag_number {c : Char} (h : c.isDigit = true ∨ c = '-' ∨ c = 'N' ∨ c = 'I') : headTag c = 3 := by
  rcases h with h | rfl | rfl | rfl
  · have hne : ∀ d : Char, d.isDigit = false → c ≠ d := by
      rintro d hd rfl
      rw [h] at hd
      cases hd
    unfold headTag
    rw [if_neg (hne _ (by decide)), if_neg (hne _ (by decide)), if_neg (hne _ (by decide)), if_neg (hne _ (by decide)),
      if_neg (hne _ (by decide)), if_neg (hne _ (by decide)), if_pos (by simp [h])]
  · decide
  · decide
  · decide

/-- a value's text starts with a character of its kind -/
theorem print_head (v : Value) : ∃ c t, print v = c :: t ∧ headTag c = tag v := by
  cases v with
  | null => exact ⟨_, _, rfl, by decide⟩
  | bool b =>
    cases b with
    | true => exact ⟨_, _, rfl, by decide⟩
    | false => exact ⟨_, _, rfl, by decide⟩
  | int n =>
    have hne : intText n ≠ [] := by
      cases n with
      | ofNat n => exact Nat.toDigits_ne_nil
      | negSucc n => exact List.cons_ne_nil _ _
    obtain ⟨c, t, ht⟩ := List.exists_cons_of_ne_nil hne
    have hc : c ∈ intText n := by rw [ht]; exact List.mem_cons_self
    refine ⟨c, t, ht, headTag_number ?_⟩
    rcases intText_chars hc with h | h
    · exact Or.inl h
    · exact Or.inr (Or.inl h)
  | float f =>
    obtain ⟨c, t, ht, hc⟩ := f.starts
    exact ⟨c, t, ht, headTag_number hc⟩
  | str s => exact ⟨_, _, rfl, rfl⟩
  | arr xs =>
    cases xs with
    | nil => exact ⟨_, _, rfl, rfl⟩
    | cons x xs => exact ⟨_, _, rfl, rfl⟩
  | obj kvs =>
    cases kvs with
    | nil => exact ⟨_, _, rfl, rfl⟩
    | cons p kvs =>
      obtain ⟨k, v⟩ := p
      exact ⟨_, _, rfl, rfl⟩

theorem tag_eq {v w : Value} {r r' : Text} (h : print v ++ r = print w ++ r') : tag v = tag w := by
  obtain ⟨c, t, hv, hc⟩ := print_head v
  obtain ⟨d, u, hw, hd⟩ := print_head w
  rw [hv, hw] at h
  rw [← hc, ← hd, (List.cons.inj h).1]

/-- no value's text starts with a closing bracket -/
theorem print_ne_close {v : Value} {c : Char} (hc : headTag c = 7) (r r' : Text) : print v ++ r ≠ c :: r' := by
  obtain ⟨d, t, hv, hd⟩ := print_head v
  intro h
  rw [hv] at h
  obtain rfl := (List.cons.inj h).1
  have hle : tag v ≤ 6 := by
    cases v with
    | bool b => cases b <;> decide
    | _ => simp [tag]
  omega

theorem stops_rest (xs : List Value) (r : Text) : Stops (printRest xs ++ r) := by
  cases xs with
  | nil => exact stops_cons (by decide)
  | cons x xs => exact stops_cons (by decide)

theorem stops_fields (kvs : List (String × Value)) (r : Text) : Stops (printFields kvs ++ r) := by
  cases kvs with
  | nil => exact stops_cons (by decide)
  | cons p kvs =>
    obtain ⟨k, v⟩ := p
    exact stops_cons (by decide)

theorem print_arr (x : Value) (xs : List Value) (r : Text) :
    print (.arr (x :: xs)) ++ r = '[' :: (print x ++ (printRest xs ++ r)) := by
  simp [print]

theorem print_obj (k : String) (v : Value) (kvs : List (String × Value)) (r : Text) :
    print (.obj ((k, v) :: kvs)) ++ r = '{' :: (quote k ++ ':' :: (print v ++ (printFields kvs ++ r))) := by
  simp [print]

theorem printRest_cons (x : Value) (xs : List Value) (r : Text) :
    printRest (x :: xs) ++ r = ',' :: (print x ++ (printRest xs ++ r)) := by
  simp [printRest]

theorem printFields_cons (k : String) (v : Value) (kvs : List (String × Value)) (r : Text) :
    printFields ((k, v) :: kvs) ++ r = ',' :: (quote k ++ ':' :: (print v ++ (printFields kvs ++ r))) := by
  simp [printFields]

theorem quote_ne_close {s : String} {r r' : Text} : quote s ++ r ≠ '}' :: r' := by
  intro h
  exact absurd (List.cons.inj h).1 (by decide)

mutual

/-- a text that starts with a printed value determines the value and what follows -/
theorem print_unambiguous : ∀ (v w : Value) {r r' : Text}, Stops r → Stops r' → print v ++ r = print w ++ r' →
    v = w ∧ r = r'
  | .null, w, r, r', hr, hr', h => by
    have htag := tag_eq h
    cases w with
    | null => exact ⟨rfl, List.append_cancel_left h⟩
    | bool b => cases b <;> simp [tag] at htag
    | _ => simp [tag] at htag
  | .bool b, w, r, r', hr, hr', h => by
    have htag := tag_eq h
    cases w with
    | bool b' =>
      have hb : b = b' := by
        cases b <;> cases b' <;> simp [tag] at htag ⊢
      subst hb
      exact ⟨rfl, List.append_cancel_left h⟩
    | _ => cases b <;> simp [tag] at htag
  | .int n, w, r, r', hr, hr', h => by
    have htag := tag_eq h
    cases w with
    | int m =>
      obtain ⟨htext, hrest⟩ := number_unambiguous intText_number intText_number hr hr' h
      exact ⟨congrArg _ (intText_inj htext), hrest⟩
    | float f =>
      obtain ⟨htext, -⟩ := number_unambiguous intText_number f.chars hr hr' h
      exact absurd htext.symm (float_ne_int f n)
    | bool b => cases b <;> simp [tag] at htag
    | _ => simp [tag] at htag
  | .float f, w, r, r', hr, hr', h => by
    have htag := tag_eq h
    cases w with
    | int m =>
      obtain ⟨htext, -⟩ := number_unambiguous f.chars intText_number hr hr' h
      exact absurd htext (float_ne_int f m)
    | float g =>
      obtain ⟨htext, hrest⟩ := number_unambiguous f.chars g.chars hr hr' h
      obtain ⟨t, _, _, _⟩ := f
      obtain ⟨u, _, _, _⟩ := g
      obtain rfl : t = u := htext
      exact ⟨rfl, hrest⟩
    | bool b => cases b <;> simp [tag] at htag
    | _ => simp [tag] at htag
  | .str s, w, r, r', hr, hr', h => by
    have htag := tag_eq h
    cases w with
    | str s' =>
      obtain ⟨rfl, hrest⟩ := quote_unambiguous h
      exact ⟨rfl, hrest⟩
    | bool b => cases b <;> simp [tag] at htag
    | _ => simp [tag] at htag
  | .arr [], w, r, r', hr, hr', h => by
    have htag := tag_eq h
    cases w with
    | arr ys =>
      cases ys with
      | nil => exact ⟨rfl, List.append_cancel_left h⟩
      | cons y ys =>
        rw [print_arr] at h
        exact absurd (List.cons.inj h).2.symm (print_ne_close (by decide) _ _)
    | bool b => cases b <;> simp [tag] at htag
    | _ => simp [tag] at htag
  | .arr (x :: xs), w, r, r', hr, hr', h => by
    have htag := tag_eq h
    cases w with
    | arr ys =>
      rw [print_arr] at h
      cases ys with
      | nil => exact absurd (List.cons.inj h).2 (print_ne_close (by decide) _ _)
      | cons y ys =>
        rw [print_arr] at h
        obtain ⟨rfl, hxs⟩ := print_unambiguous x y (stops_rest _ _) (stops_rest _ _) (List.cons.inj h).2
        obtain ⟨rfl, hrest⟩ := printRest_unambiguous xs ys hxs
        exact ⟨rfl, hrest⟩
    | bool b => cases b <;> simp [tag] at htag
    | _ => simp [tag] at htag
  | .obj [], w, r, r', hr, hr', h => by
    have htag := tag_eq h
    cases w with
    | obj kvs' =>
      cases kvs' with
      | nil => exact ⟨rfl, List.append_cancel_left h⟩
      | cons p kvs' =>
        obtain ⟨k, v⟩ := p
        rw [print_obj] at h
        exact absurd (List.cons.inj h).2.symm quote_ne_close
    | bool b => cases b <;> simp [tag] at htag
    | _ => simp [tag] at htag
  | .obj ((k, v) :: kvs), w, r, r', hr, hr', h => by
    have htag := tag_eq h
    cases w with
    | obj kvs' =>
      rw [print_obj] at h
      cases kvs' with
      | nil => exact absurd (List.cons.inj h).2 quote_ne_close
      | cons p kvs' =>
        obtain ⟨k', v'⟩ := p
        rw [print_obj] at h
        obtain ⟨rfl, hv⟩ := quote_unambiguous (List.cons.inj h).2
        obtain ⟨rfl, hkvs⟩ := print_unambiguous v v' (stops_fields _ _) (stops_fields _ _) (List.cons.inj hv).2
        obtain ⟨rfl, hrest⟩ := printFields_unambiguous kvs kvs' hkvs
        exact ⟨rfl, hrest⟩
    | bool b => cases b <;> simp [tag] at htag
    | _ => simp [tag] at htag

theorem printRest_unambiguous : ∀ (xs ys : List Value) {r r' : Text}, printRest xs ++ r = printRest ys ++ r' →
    xs = ys ∧ r = r'
  | [], ys, r, r', h => by
    cases ys with
    | nil => exact ⟨rfl, List.append_cancel_left h⟩
    | cons y ys =>
      rw [printRest_cons] at h
      exact absurd (List.cons.inj h).1 (by decide)
  | x :: xs, ys, r, r', h => by
    rw [printRest_cons] at h
    cases ys with
    | nil => exact absurd (List.cons.inj h).1 (by decide)
    | cons y ys =>
      rw [printRest_cons] at h
      obtain ⟨rfl, hxs⟩ := print_unambiguous x y (stops_rest _ _) (stops_rest _ _) (List.cons.inj h).2
      obtain ⟨rfl, hrest⟩ := printRest_unambiguous xs ys hxs
      exact ⟨rfl, hrest⟩

theorem printFields_unambiguous : ∀ (kvs kvs' : List (String × Value)) {r r' : Text},
    printFields kvs ++ r = printFields kvs' ++ r' → kvs = kvs' ∧ r = r'
  | [], kvs', r, r', h => by
    cases kvs' with
    | nil => exact ⟨rfl, List.append_cancel_left h⟩
    | cons p kvs' =>
      obtain ⟨k, v⟩ := p
      rw [printFields_cons] at h
      exact absurd (List.cons.inj h).1 (by decide)
  | (k, v) :: kvs, kvs', r, r', h => by
    rw [printFields_cons] at h
    cases kvs' with
    | nil => exact absurd (List.cons.inj h).1 (by decide)
    | cons p kvs' =>
      obtain ⟨k', v'⟩ := p
      rw [printFields_cons] at h
      obtain ⟨rfl, hv⟩ := quote_unambiguous (List.cons.inj h).2
      obtain ⟨rfl, hkvs⟩ := print_unambiguous v v' (stops_fields _ _) (stops_fields _ _) (List.cons.inj hv).2
      obtain ⟨rfl, hrest⟩ := printFields_unambiguous kvs kvs' hkvs
      exact ⟨rfl, hrest⟩

end

/-! ## Equality of texts -/

/-- **Two values have one text iff they are equal up to the order of keys.** -/
theorem dumps_eq_iff {v w : Value} : dumps v = dumps w ↔ canon v = canon w := by
  constructor
  · intro h
    have happ : print (canon v) ++ [] = print (canon w) ++ [] := by rw [List.append_nil, List.append_nil]; exact h
    exact (print_unambiguous _ _ stops_nil stops_nil happ).1
  · exact fun h => congrArg print h

/-- sorting keeps what a key finds -/
theorem lookup_sortKeys {β : Type} (kvs : List (String × β)) (key : String) : (sortKeys kvs).lookup key = kvs.lookup key := by
  have hinsert : ∀ (p : String × β) (l : List (String × β)),
      (l.orderedInsert (fun a b => a.1 ≤ b.1) p).lookup key = (p :: l).lookup key := by
    intro p l
    induction l with
    | nil => rfl
    | cons q l ih =>
      rw [List.orderedInsert_cons]
      split
      · rfl
      · next hle =>
        have hne : p.1 ≠ q.1 := fun e => hle (e ▸ String.le_refl _)
        obtain ⟨k, v⟩ := p
        obtain ⟨k', v'⟩ := q
        rw [List.lookup_cons, ih, List.lookup_cons, List.lookup_cons, List.lookup_cons]
        by_cases hk : key = k
        · subst hk
          have hother : (key == k') = false := by simpa using hne
          simp [hother]
        · have hbeq : (key == k) = false := by simpa using hk
          simp [hbeq]
  induction kvs with
  | nil => rfl
  | cons p kvs ih =>
    obtain ⟨k, v⟩ := p
    unfold sortKeys at ih ⊢
    rw [List.insertionSort_cons, hinsert, List.lookup_cons, List.lookup_cons, ih]

theorem lookup_canonFields (kvs : List (String × Value)) (key : String) :
    (canonFields kvs).lookup key = (kvs.lookup key).map canon := by
  induction kvs with
  | nil => rfl
  | cons p kvs ih =>
    obtain ⟨k, v⟩ := p
    rw [canonFields, List.lookup_cons, List.lookup_cons, ih]
    cases key == k <;> rfl

/-- objects that are equal up to the order of keys have the same entries -/
theorem canon_lookup {kvs kvs' : List (String × Value)} (h : canon (.obj kvs) = canon (.obj kvs')) (key : String) :
    (kvs.lookup key).map canon = (kvs'.lookup key).map canon := by
  simp only [canon, Value.obj.injEq] at h
  rw [← lookup_canonFields, ← lookup_canonFields, ← lookup_sortKeys, h, lookup_sortKeys]

end JsonText
