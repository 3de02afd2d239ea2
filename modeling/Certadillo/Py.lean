/-
The Python string functions the policy code calls, on lists of characters, and the exceptions it raises.

`lower` is a parameter wherever it is used: its table is Unicode's. The regular expressions keep Python's `$`, which also
matches before one newline at the end of the text.
-/
import Certadillo.Json

namespace Certadillo

/-- the exceptions of the modelled code, with their texts -/
inductive Err where
  | forbidden (msg : String)
  | notFound (msg : String)
  | policy (violations : List (String × String))
  | value (msg : String)
  | type (msg : String)
  | key (name : String)
  | attribute (msg : String)
  | lookup (msg : String)
  | runtime (msg : String)
  /-- a unique constraint of the database -/
  | integrity (constraint : String)
  /-- `CmpError`: a PKIFailureInfo bit and a text -/
  | cmp (fail : ℕ) (text : String)
  /-- `AcmeError` -/
  | acme (kind detail : String) (status : ℕ)
  /-- an exception of a library, by its text -/
  | other (msg : String)
deriving DecidableEq, Repr

namespace Py

abbrev Chars := List Char

/-! ## timedelta -/

/-- `timedelta`, in seconds: at most 999999999 days either way -/
def timedelta (seconds : ℤ) : Except Err ℤ :=
  let days := seconds / 86400
  if days < -2147483648 ∨ 2147483647 < days then .error (.other "Python int too large to convert to C int")
  else if days < -999999999 ∨ 999999999 < days then
    .error (.other s!"days={days}; must have magnitude <= 999999999")
  else .ok seconds

theorem timedelta_ok {n m : ℤ} : timedelta n = .ok m ↔ n = m ∧ -999999999 ≤ n / 86400 ∧ n / 86400 ≤ 999999999 := by
  unfold timedelta
  dsimp only
  split
  · simp only [reduceCtorEq, false_iff]
    omega
  split
  · simp only [reduceCtorEq, false_iff]
    omega
  · simp only [Except.ok.injEq]
    omega

/-- a longer one overflows -/
theorem timedelta_overflow {n : ℤ} (h : 999999999 < n / 86400) : ∃ text, timedelta n = .error (.other text) := by
  unfold timedelta
  dsimp only
  split
  · exact ⟨_, rfl⟩
  · rw [if_pos (by omega)]
    exact ⟨_, rfl⟩

/-! ## str methods -/

/-- `str.isspace` of one character -/
def isSpace (c : Char) : Bool :=
  let n := c.toNat
  (9 ≤ n && n ≤ 13) || (28 ≤ n && n ≤ 32) || n = 133 || n = 160 || n = 5760 || (8192 ≤ n && n ≤ 8202) ||
    n = 8232 || n = 8233 || n = 8239 || n = 8287 || n = 12288

/-- `str.lstrip(chars)` -/
def lstrip (p : Char → Bool) (s : Chars) : Chars := s.dropWhile p

/-- `str.rstrip(chars)` -/
def rstrip (p : Char → Bool) (s : Chars) : Chars := (s.reverse.dropWhile p).reverse

/-- `str.strip()` -/
def strip (s : Chars) : Chars := rstrip isSpace (lstrip isSpace s)

/-- `str.split(sep)` for a one-character separator -/
def split (sep : Char) : Chars → List Chars
  | [] => [[]]
  | c :: cs =>
    match split sep cs with
    | [] => [[]]
    | w :: ws => if c = sep then [] :: w :: ws else (c :: w) :: ws

/-- `str.partition(sep)` without the separator: all of the text before the first one, and after it -/
def partition (sep : Char) (s : Chars) : Chars × Chars := (s.takeWhile (· ≠ sep), (s.dropWhile (· ≠ sep)).tail)

/-- `str.split(sep)[-1]`, which for a text without the separator is the text -/
def lastPart (sep : Char) (s : Chars) : Chars := (split sep s).getLast?.getD []

/-- `str.split(sep)[0]` -/
def firstPart (sep : Char) (s : Chars) : Chars := (split sep s).head?.getD []

def startsWith (s p : Chars) : Bool := p.isPrefixOf s

def endsWith (s p : Chars) : Bool := p.isSuffixOf s

/-- `p in s` -/
def isSubstring (p : Chars) : Chars → Bool
  | [] => p.isEmpty
  | c :: cs => p.isPrefixOf (c :: cs) || isSubstring p cs

/-- `repr` of a string, up to the escapes of unprintable characters other than newline, return and tab -/
def pyRepr (s : String) : String :=
  let q := if s.toList.contains '\'' && !s.toList.contains '"' then '"' else '\''
  let esc := s.toList.flatMap fun c =>
    if c = q || c = '\\' then ['\\', c]
    else if c = '\n' then ['\\', 'n']
    else if c = '\r' then ['\\', 'r']
    else if c = '\t' then ['\\', 't']
    else [c]
  String.ofList (q :: esc ++ [q])

/-- `", ".join` and its like -/
def join (sep : String) (xs : List String) : String := String.intercalate sep xs

/-- `sorted` of strings: by code points -/
def sorted (xs : List String) : List String := xs.mergeSort fun a b => decide (a ≤ b)

theorem mem_sorted {xs : List String} {x : String} : x ∈ sorted xs ↔ x ∈ xs := (xs.mergeSort_perm _).mem_iff

/-- `format(n, "x")` -/
def hex (n : ℕ) : String := String.ofList (Nat.toDigits 16 n)

/-- the value of a hexadecimal digit -/
def hexVal (c : Char) : Option ℕ :=
  if '0' ≤ c && c ≤ '9' then some (c.toNat - '0'.toNat)
  else if 'a' ≤ c && c ≤ 'f' then some (c.toNat - 'a'.toNat + 10)
  else if 'A' ≤ c && c ≤ 'F' then some (c.toNat - 'A'.toNat + 10)
  else none

/-- digits with single underscores between them; `digit` says that the last character was one -/
def hexRun : ℕ → Bool → Chars → Option ℕ
  | acc, digit, [] => if digit then some acc else none
  | acc, digit, '_' :: cs => if digit then hexRun acc false cs else none
  | acc, _, c :: cs => (hexVal c).bind fun v => hexRun (acc * 16 + v) true cs

/-- `int(s, 16)` -/
def intOfHex (s : String) : Except Err ℤ :=
  let body := strip s.toList
  let (neg, body) := match body with
    | '-' :: cs => (true, cs)
    | '+' :: cs => (false, cs)
    | cs => (false, cs)
  let digits := match body with
    | '0' :: 'x' :: cs | '0' :: 'X' :: cs => if cs.head? = some '_' then cs.tail else cs
    | cs => cs
  let shown := pyRepr s
  match hexRun 0 false digits with
  | some n => .ok (if neg then -n else n)
  | none => .error (.value s!"invalid literal for int() with base 16: {shown}")

/-- the digits `hex` writes -/
theorem mem_toDigits_hex {n : ℕ} {c : Char} (h : c ∈ Nat.toDigits 16 n) : ∃ d < 16, c = d.digitChar := by
  induction n using Nat.strong_induction_on with
  | _ n ih =>
    rw [Nat.toDigits_eq_if (by omega)] at h
    split at h
    · next hn => exact ⟨n, hn, List.mem_singleton.1 h⟩
    · next hn =>
      rcases List.mem_append.1 h with h | h
      · exact ih (n / 16) (Nat.div_lt_self (by omega) (by omega)) h
      · exact ⟨n % 16, Nat.mod_lt _ (by omega), List.mem_singleton.1 h⟩

theorem digitChar_hex : ∀ d < 16, hexVal d.digitChar = some d ∧ isSpace d.digitChar = false ∧
    d.digitChar ∉ ['_', '-', '+', 'x', 'X'] := by
  decide

/-- one more digit at the end -/
theorem hexRun_snoc {c : Char} {v : ℕ} (hv : hexVal c = some v) (hc : c ≠ '_') {acc m : ℕ} {digit : Bool} {cs : Chars}
    (h : hexRun acc digit cs = some m) : hexRun acc digit (cs ++ [c]) = some (m * 16 + v) := by
  induction cs generalizing acc digit with
  | nil =>
    cases digit with
    | false => cases h
    | true =>
      cases h
      simp [hexRun, hv]
  | cons d cs ih =>
    by_cases hd : d = '_'
    · subst hd
      simp only [List.cons_append, hexRun] at h ⊢
      split at h
      · next hdigit =>
        rw [if_pos hdigit]
        exact ih h
      · cases h
    · simp only [List.cons_append, hexRun] at h ⊢
      cases hv' : hexVal d with
      | none => simp [hv'] at h
      | some w =>
        simp only [hv', Option.bind_some] at h ⊢
        exact ih h

theorem hexRun_toDigits (n : ℕ) : hexRun 0 false (Nat.toDigits 16 n) = some n := by
  induction n using Nat.strong_induction_on with
  | _ n ih =>
    rw [Nat.toDigits_eq_if (by omega)]
    split
    · next hn =>
      obtain ⟨hv, -, hc⟩ := digitChar_hex n hn
      simp_all [hexRun]
    · next hn =>
      obtain ⟨hv, -, hc⟩ := digitChar_hex (n % 16) (Nat.mod_lt _ (by omega))
      rw [hexRun_snoc hv (by simp_all) (ih (n / 16) (Nat.div_lt_self (by omega) (by omega)))]
      congr 1
      omega

theorem strip_eq_self {s : Chars} (h : ∀ c ∈ s, isSpace c = false) : strip s = s := by
  have hdrop : ∀ l : Chars, (∀ c ∈ l, isSpace c = false) → l.dropWhile isSpace = l := by
    intro l hl
    cases l with
    | nil => rfl
    | cons c l => rw [List.dropWhile_cons_of_neg (by simp [hl c])]
  unfold strip rstrip lstrip
  rw [hdrop s h, hdrop s.reverse (by simpa using h), List.reverse_reverse]

/-- `int(format(n, "x"), 16)` -/
theorem intOfHex_hex (n : ℕ) : intOfHex (hex n) = .ok n := by
  have hdigits : ∀ c ∈ Nat.toDigits 16 n, isSpace c = false ∧ c ∉ ['_', '-', '+', 'x', 'X'] := by
    intro c hc
    obtain ⟨d, hd, rfl⟩ := mem_toDigits_hex hc
    exact (digitChar_hex d hd).2
  have hrun := hexRun_toDigits n
  unfold intOfHex hex
  rw [String.toList_ofList, strip_eq_self fun c hc => (hdigits c hc).1]
  generalize Nat.toDigits 16 n = l at hdigits hrun
  cases l with
  | nil => cases hrun
  | cons c cs =>
    have hc := (hdigits c List.mem_cons_self).2
    have hsign : c ≠ '-' ∧ c ≠ '+' := by simp_all
    have hprefix : ∀ d ds, cs = d :: ds → d ≠ 'x' ∧ d ≠ 'X' := by
      rintro d ds rfl
      have hd := (hdigits d (by simp)).2
      simp_all
    extract_lets -underBinder text
    split
    next neg body hbody =>
    have hsame : neg = false ∧ body = c :: cs := by
      dsimp only [text] at hbody
      split at hbody
      · simp_all
      · simp_all
      · simp_all
    obtain ⟨rfl, rfl⟩ := hsame
    dsimp only
    have hdigits' : ∀ digits : Chars, digits = c :: cs → hexRun 0 false digits = some n := by
      rintro _ rfl
      exact hrun
    rw [hdigits']
    · rfl
    · split
      · simp_all
      · simp_all
      · rfl

theorem hex_injective {m n : ℕ} (h : hex m = hex n) : m = n := by
  have hm := intOfHex_hex m
  rw [h, intOfHex_hex n] at hm
  exact_mod_cast (Except.ok.inj hm).symm

/-- a `re` class, one to `most` times, between `^` and `$`: the `$` lets one newline follow -/
def matchLine (cls : Char → Bool) (most : ℕ) (s : Chars) : Bool :=
  let body := s.takeWhile cls
  let rest := s.dropWhile cls
  1 ≤ body.length && body.length ≤ most && (rest = [] || rest = ['\n'])

/-! ## fnmatch.fnmatchcase -/

inductive Tok where
  | star
  | any
  | lit (c : Char)
  | cls (neg : Bool) (ranges : List (Char × Char))
deriving DecidableEq

/-- the ranges of a bracket's content; a hyphen at either end is itself -/
def ranges : Chars → List (Char × Char)
  | a :: '-' :: b :: cs => (a, b) :: ranges cs
  | a :: cs => (a, a) :: ranges cs
  | [] => []

/-- the text after `[` as (negated, content, rest), if a closing bracket follows; a `]` right at the start is content -/
def bracket (cs : Chars) : Option (Bool × Chars × Chars) :=
  let neg := cs.head? = some '!'
  let cs := if neg then cs.tail else cs
  let (pre, cs) := if cs.head? = some ']' then ([']'], cs.tail) else ([], cs)
  match cs.dropWhile (· ≠ ']') with
  | [] => none
  | _ :: rest => some (neg, pre ++ cs.takeWhile (· ≠ ']'), rest)

/-- the pattern's tokens; every token takes at least one character, so its length is fuel enough -/
def tokens : ℕ → Chars → List Tok
  | 0, _ => []
  | _, [] => []
  | n + 1, '*' :: cs => .star :: tokens n cs
  | n + 1, '?' :: cs => .any :: tokens n cs
  | n + 1, '[' :: cs =>
    match bracket cs with
    | some (neg, content, rest) => .cls neg (ranges content) :: tokens n rest
    | none => .lit '[' :: tokens n cs
  | n + 1, c :: cs => .lit c :: tokens n cs

def matchToks : List Tok → Chars → Bool
  | [], s => s.isEmpty
  | .star :: ts, s => s.tails.any (matchToks ts)
  | .any :: ts, s =>
    match s with
    | [] => false
    | _ :: s => matchToks ts s
  | .lit c :: ts, s =>
    match s with
    | [] => false
    | d :: s => c = d && matchToks ts s
  | .cls neg rs :: ts, s =>
    match s with
    | [] => false
    | d :: s => (rs.any fun r => r.1 ≤ d && d ≤ r.2) != neg && matchToks ts s

def fnmatchcase (name pat : Chars) : Bool := matchToks (tokens pat.length pat) name

/-! ## JSON values as Python sees them -/

/-- `bool(v)` -/
def truthy : Json → Bool
  | .null => false
  | .bool b => b
  | .num n => n ≠ 0
  | .str s => s ≠ ""
  | .arr xs => !xs.isEmpty
  | .obj kvs => !kvs.isEmpty

/-- `d[key]` -/
def item (d : Json) (key : String) : Except Err Json :=
  match d with
  | .obj kvs =>
    match kvs.lookup key with
    | some v => .ok v
    | none => .error (.key key)
  | _ => .error (.type "indices must be integers")

/-- `d.get(key)` -/
def dget (d : Json) (key : String) : Except Err Json :=
  match d with
  | .obj kvs => .ok ((kvs.lookup key).getD .null)
  | _ => .error (.attribute "object has no attribute 'get'")

/-- `d.get(key, dflt)` -/
def dgetOr (d : Json) (key : String) (dflt : Json) : Except Err Json :=
  match d with
  | .obj kvs => .ok ((kvs.lookup key).getD dflt)
  | _ => .error (.attribute "object has no attribute 'get'")

/-- `d[key] = v` of a dict: in place if the key is there -/
def setItem {β : Type} (d : List (String × β)) (key : String) (v : β) : List (String × β) :=
  if (d.lookup key).isSome then d.map fun p => if p.1 = key then (key, v) else p else d ++ [(key, v)]

/-- `d.update(e)` -/
def updateItems {β : Type} (d e : List (String × β)) : List (String × β) := e.foldl (fun d p => setItem d p.1 p.2) d

theorem lookup_setItem {β : Type} (d : List (String × β)) (key k : String) (v : β) :
    (setItem d key v).lookup k = if k = key then some v else d.lookup k := by
  have hmap : (d.map fun p => if p.1 = key then (key, v) else p).lookup k =
      if k = key then (d.lookup k).map fun _ => v else d.lookup k := by
    induction d with
    | nil => simp
    | cons p d ih =>
      obtain ⟨l, w⟩ := p
      by_cases hl : l = key
      · subst hl
        by_cases hk : k = l
        · simp [hk]
        · have hne : (k == l) = false := by simpa using hk
          rw [if_neg hk] at ih
          simp [List.lookup_cons, hne, hk, ih]
      · by_cases hk : k = l
        · subst hk
          simp [hl]
        · have hne : (k == l) = false := by simpa using hk
          simp [List.lookup_cons, hl, hne, ih]
  unfold setItem
  split
  · next h =>
    rw [hmap]
    by_cases hk : k = key
    · subst hk
      obtain ⟨w, hw⟩ := Option.isSome_iff_exists.1 h
      simp [hw]
    · simp [hk]
  · next h =>
    have hnone : d.lookup key = none := Option.not_isSome_iff_eq_none.1 h
    rw [List.lookup_append]
    by_cases hk : k = key
    · subst hk
      simp [hnone]
    · have hne : (k == key) = false := by simpa using hk
      simp [List.lookup_cons, hne, hk]

theorem lookup_updateItems {β : Type} (d e : List (String × β)) {key : String} (h : ∀ p ∈ e, p.1 ≠ key) :
    (updateItems d e).lookup key = d.lookup key := by
  unfold updateItems
  induction e generalizing d with
  | nil => rfl
  | cons p e ih =>
    have hp : key ≠ p.1 := Ne.symm (h p List.mem_cons_self)
    rw [List.foldl_cons, ih _ fun q hq => h q (List.mem_cons_of_mem p hq), lookup_setItem, if_neg hp]

/-- `x in v` for a string x -/
def isIn (x : String) : Json → Except Err Bool
  | .arr xs => .ok (xs.contains (.str x))
  | .str s => .ok (isSubstring x.toList s.toList)
  | .obj kvs => .ok (kvs.any (·.1 == x))
  | _ => .error (.type "argument is not iterable")

/-- a number, where Python would compare or multiply one -/
def toInt : Json → Except Err ℤ
  | .num n => .ok n
  | .bool b => .ok (if b then 1 else 0)
  | _ => .error (.type "not a number")

/-- an optional primary key -/
def toId? : Json → Except Err (Option ℕ)
  | .null => .ok none
  | .num n => if 0 ≤ n then .ok (some n.toNat) else .ok (some 0)
  | _ => .error (.type "not an integer")

/-- a primary key -/
def toId (j : Json) : Except Err ℕ := do
  match ← toId? j with
  | some i => pure i
  | none => throw (.attribute "'NoneType' object has no attribute 'id'")

def toStr : Json → Except Err String
  | .str s => .ok s
  | _ => .error (.type "not a string")

/-- an optional number -/
def toInt? : Json → Except Err (Option ℤ)
  | .null => .ok none
  | j => do pure (some (← toInt j))

/-- an optional string -/
def toStr? : Json → Except Err (Option String)
  | .null => .ok none
  | j => do pure (some (← toStr j))

/-- `repr` of a list of strings -/
def listRepr (xs : List String) : String :=
  let items := join ", " (xs.map pyRepr)
  "[" ++ items ++ "]"

example : fnmatchcase "a.b.internal".toList "a*.intern[!x]l".toList = true := by decide
example : fnmatchcase "abc".toList "a[c-a]c".toList = false := by decide

end Py

end Certadillo
