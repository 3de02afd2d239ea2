/-
Base64 with the standard alphabet and the URL-safe one, as Python's `base64` encodes and decodes it.

The decoder is the lenient one: it skips what is not in the alphabet and stops at complete padding.

- `value_digit`: a digit stands for its value.
- `decode_encode`, `urlDecode_urlEncode`: what is encoded is decoded.
- `urlEncode_eq`: digits of the URL-safe alphabet, and padding to a multiple of four.
-/
import Mathlib.Data.List.Basic

namespace Base64

/-! ## Digits -/

def alphabet : List Char := "ABCDEFGHIJKLMNOPQRSTUVWXYZabcdefghijklmnopqrstuvwxyz0123456789+/".toList

def digit (n : ℕ) : Char := alphabet.getD n 'A'

/-- the value of a digit -/
def value (c : Char) : Option ℕ := alphabet.findIdx? (· = c)

theorem digit_spec : ∀ n < 64, value (digit n) = some n ∧ digit n ≠ '=' ∧ (digit n).toNat < 128 := by
  decide +kernel

theorem value_digit {n : ℕ} (h : n < 64) : value (digit n) = some n := (digit_spec n h).1

theorem digit_ne_pad {n : ℕ} (h : n < 64) : digit n ≠ '=' := (digit_spec n h).2.1

theorem digit_ascii {n : ℕ} (h : n < 64) : (digit n).toNat < 128 := (digit_spec n h).2.2

/-! ## Encoding and decoding -/

/-- three bytes to four digits -/
def encode : List UInt8 → List Char
  | [] => []
  | [a] => [digit (a.toNat / 4), digit (a.toNat % 4 * 16), '=', '=']
  | [a, b] => [digit (a.toNat / 4), digit (a.toNat % 4 * 16 + b.toNat / 16), digit (b.toNat % 16 * 4), '=']
  | a :: b :: c :: rest =>
    digit (a.toNat / 4) :: digit (a.toNat % 4 * 16 + b.toNat / 16) :: digit (b.toNat % 16 * 4 + c.toNat / 64) ::
      digit (c.toNat % 64) :: encode rest

/-- the digits read of a group, the bits left over of the last one, and the padding seen -/
def decodeFrom : ℕ → ℕ → ℕ → List Char → Option (List UInt8)
  | pos, _, _, [] => if pos = 0 then some [] else none
  | pos, left, pads, c :: cs =>
    if c = '=' then
      if 2 ≤ pos then
        -- complete padding ends the text
        if 4 ≤ pos + (pads + 1) then some [] else decodeFrom pos left (pads + 1) cs
      else decodeFrom pos left pads cs
    else
      match value c with
      | none => decodeFrom pos left pads cs
      | some v =>
        match pos with
        | 0 => decodeFrom 1 v 0 cs
        | 1 => (decodeFrom 2 (v % 16) 0 cs).map (UInt8.ofNat (left * 4 + v / 16) :: ·)
        | 2 => (decodeFrom 3 (v % 4) 0 cs).map (UInt8.ofNat (left * 16 + v / 4) :: ·)
        | _ => (decodeFrom 0 0 0 cs).map (UInt8.ofNat (left * 64 + v) :: ·)

def decode (text : List Char) : Option (List UInt8) := decodeFrom 0 0 0 text

/-! ## One digit at a time -/

section Digits

variable {v left pads : ℕ} {cs : List Char}

theorem decodeFrom_zero (h : v < 64) : decodeFrom 0 left pads (digit v :: cs) = decodeFrom 1 v 0 cs := by
  rw [decodeFrom, if_neg (digit_ne_pad h), value_digit h]
  rfl

theorem decodeFrom_one (h : v < 64) :
    decodeFrom 1 left pads (digit v :: cs) = (decodeFrom 2 (v % 16) 0 cs).map (UInt8.ofNat (left * 4 + v / 16) :: ·) := by
  rw [decodeFrom, if_neg (digit_ne_pad h), value_digit h]
  rfl

theorem decodeFrom_two (h : v < 64) :
    decodeFrom 2 left pads (digit v :: cs) = (decodeFrom 3 (v % 4) 0 cs).map (UInt8.ofNat (left * 16 + v / 4) :: ·) := by
  rw [decodeFrom, if_neg (digit_ne_pad h), value_digit h]
  rfl

theorem decodeFrom_three (h : v < 64) :
    decodeFrom 3 left pads (digit v :: cs) = (decodeFrom 0 0 0 cs).map (UInt8.ofNat (left * 64 + v) :: ·) := by
  rw [decodeFrom, if_neg (digit_ne_pad h), value_digit h]
  rfl

/-- a byte from its number -/
theorem ofNat_eq {a : UInt8} {n : ℕ} (h : n = a.toNat) : UInt8.ofNat n = a := by
  rw [h, UInt8.ofNat_toNat]

end Digits

/-- **What is encoded is decoded.** -/
theorem decode_encode (data : List UInt8) : decode (encode data) = some data := by
  unfold decode
  induction data using encode.induct with
  | case1 => rfl
  | case2 a =>
    have ha := a.toNat_lt
    unfold encode
    rw [decodeFrom_zero (by omega), decodeFrom_one (by omega)]
    have hbyte : UInt8.ofNat (a.toNat / 4 * 4 + a.toNat % 4 * 16 / 16) = a := ofNat_eq (by omega)
    rw [hbyte]
    rfl
  | case3 a b =>
    have ha := a.toNat_lt
    have hb := b.toNat_lt
    unfold encode
    rw [decodeFrom_zero (by omega), decodeFrom_one (by omega), decodeFrom_two (by omega)]
    have hfirst : UInt8.ofNat (a.toNat / 4 * 4 + (a.toNat % 4 * 16 + b.toNat / 16) / 16) = a := ofNat_eq (by omega)
    have hsecond : UInt8.ofNat ((a.toNat % 4 * 16 + b.toNat / 16) % 16 * 16 + b.toNat % 16 * 4 / 4) = b :=
      ofNat_eq (by omega)
    rw [hfirst, hsecond]
    rfl
  | case4 a b c rest ih =>
    have ha := a.toNat_lt
    have hb := b.toNat_lt
    have hc := c.toNat_lt
    unfold encode
    rw [decodeFrom_zero (by omega), decodeFrom_one (by omega), decodeFrom_two (by omega), decodeFrom_three (by omega), ih]
    have hfirst : UInt8.ofNat (a.toNat / 4 * 4 + (a.toNat % 4 * 16 + b.toNat / 16) / 16) = a := ofNat_eq (by omega)
    have hsecond : UInt8.ofNat ((a.toNat % 4 * 16 + b.toNat / 16) % 16 * 16 + (b.toNat % 16 * 4 + c.toNat / 64) / 4) = b :=
      ofNat_eq (by omega)
    have hthird : UInt8.ofNat ((b.toNat % 16 * 4 + c.toNat / 64) % 4 * 64 + c.toNat % 64) = c := ofNat_eq (by omega)
    rw [hfirst, hsecond, hthird]
    rfl

/-- what is encoded is ASCII -/
theorem encode_ascii (data : List UInt8) : ∀ c ∈ encode data, c.toNat < 128 := by
  have hpad : ('=' : Char).toNat < 128 := by decide
  induction data using encode.induct with
  | case1 => nofun
  | case2 a =>
    have ha := a.toNat_lt
    simp only [encode, List.forall_mem_cons]
    exact ⟨digit_ascii (by omega), digit_ascii (by omega), hpad, hpad, nofun⟩
  | case3 a b =>
    have ha := a.toNat_lt
    have hb := b.toNat_lt
    simp only [encode, List.forall_mem_cons]
    exact ⟨digit_ascii (by omega), digit_ascii (by omega), digit_ascii (by omega), hpad, nofun⟩
  | case4 a b c rest ih =>
    have ha := a.toNat_lt
    have hb := b.toNat_lt
    have hc := c.toNat_lt
    simp only [encode, List.forall_mem_cons]
    exact ⟨digit_ascii (by omega), digit_ascii (by omega), digit_ascii (by omega), digit_ascii (by omega), ih⟩

example : encode [77, 97] = "TWE=".toList := by decide +kernel

/-! ## The URL-safe alphabet -/

def toUrl (c : Char) : Char := if c = '+' then '-' else if c = '/' then '_' else c

def fromUrl (c : Char) : Char := if c = '-' then '+' else if c = '_' then '/' else c

/-- `urlsafe_b64encode` -/
def urlEncode (data : List UInt8) : List Char := (encode data).map toUrl

/-- `urlsafe_b64decode`; it takes the digits of the standard alphabet as well -/
def urlDecode (text : List Char) : Option (List UInt8) := decode (text.map fromUrl)

/-- a digit of the URL-safe alphabet -/
def UrlDigit (c : Char) : Prop := c ≠ '=' ∧ c ≠ '.' ∧ c.toNat < 128

theorem urlDigit_digit : ∀ n < 64, UrlDigit (toUrl (digit n)) ∧ fromUrl (toUrl (digit n)) = digit n := by
  unfold UrlDigit
  decide +kernel

/-- what is encoded is digits and at most two pads, four to a group -/
theorem encode_eq (data : List UInt8) : ∃ digits pads, encode data = digits ++ List.replicate pads '=' ∧ pads < 4 ∧
    (digits.length + pads) % 4 = 0 ∧ ∀ c ∈ digits, ∃ n < 64, c = digit n := by
  induction data using encode.induct with
  | case1 => exact ⟨[], 0, rfl, by omega, rfl, nofun⟩
  | case2 a =>
    have ha := a.toNat_lt
    refine ⟨[digit (a.toNat / 4), digit (a.toNat % 4 * 16)], 2, rfl, by omega, by simp, ?_⟩
    simp only [List.forall_mem_cons]
    exact ⟨⟨_, by omega, rfl⟩, ⟨_, by omega, rfl⟩, nofun⟩
  | case3 a b =>
    have ha := a.toNat_lt
    have hb := b.toNat_lt
    refine ⟨[digit (a.toNat / 4), digit (a.toNat % 4 * 16 + b.toNat / 16), digit (b.toNat % 16 * 4)], 1, rfl, by omega,
      by simp, ?_⟩
    simp only [List.forall_mem_cons]
    exact ⟨⟨_, by omega, rfl⟩, ⟨_, by omega, rfl⟩, ⟨_, by omega, rfl⟩, nofun⟩
  | case4 a b c rest ih =>
    have ha := a.toNat_lt
    have hb := b.toNat_lt
    have hc := c.toNat_lt
    obtain ⟨digits, pads, heq, hpads, hlen, hdigits⟩ := ih
    refine ⟨digit (a.toNat / 4) :: digit (a.toNat % 4 * 16 + b.toNat / 16) :: digit (b.toNat % 16 * 4 + c.toNat / 64) ::
      digit (c.toNat % 64) :: digits, pads, ?_, hpads, ?_, ?_⟩
    · rw [encode, heq]
      rfl
    · simp only [List.length_cons]
      omega
    · simp only [List.forall_mem_cons]
      exact ⟨⟨_, by omega, rfl⟩, ⟨_, by omega, rfl⟩, ⟨_, by omega, rfl⟩, ⟨_, by omega, rfl⟩, hdigits⟩

/-- **What is encoded**, in the URL-safe alphabet. -/
theorem urlEncode_eq (data : List UInt8) : ∃ digits pads, urlEncode data = digits ++ List.replicate pads '=' ∧ pads < 4 ∧
    (digits.length + pads) % 4 = 0 ∧ ∀ c ∈ digits, UrlDigit c := by
  obtain ⟨digits, pads, heq, hpads, hlen, hdigits⟩ := encode_eq data
  refine ⟨digits.map toUrl, pads, ?_, hpads, ?_, ?_⟩
  · unfold urlEncode
    rw [heq, List.map_append, List.map_replicate]
    rfl
  · rwa [List.length_map]
  · intro c hc
    obtain ⟨d, hd, rfl⟩ := List.mem_map.1 hc
    obtain ⟨n, hn, rfl⟩ := hdigits d hd
    exact (urlDigit_digit n hn).1

/-- **What is encoded is decoded**, in the URL-safe alphabet. -/
theorem urlDecode_urlEncode (data : List UInt8) : urlDecode (urlEncode data) = some data := by
  obtain ⟨digits, pads, heq, -, -, hdigits⟩ := encode_eq data
  have hback : ∀ c ∈ encode data, fromUrl (toUrl c) = c := by
    intro c hc
    rw [heq] at hc
    rcases List.mem_append.1 hc with hc | hc
    · obtain ⟨n, hn, rfl⟩ := hdigits c hc
      exact (urlDigit_digit n hn).2
    · rw [List.eq_of_mem_replicate hc]
      rfl
  calc urlDecode (urlEncode data) = decode ((encode data).map fun c => fromUrl (toUrl c)) := by
        unfold urlDecode urlEncode
        rw [List.map_map]
        rfl
    _ = decode ((encode data).map id) := by rw [List.map_congr_left hback]; rfl
    _ = some data := by rw [List.map_id, decode_encode]

end Base64
