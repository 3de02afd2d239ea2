/-
Byte strings: numbers of a fixed width in both byte orders, and parts that stand at an offset.

- `ofBE_toBE`, `toBE_ofBE`, `ofLE_toLE`: a number and its octets.
- `bitLength`, `lt_octets`: how many bits and octets a number takes.
- `ofTwos_toBE`, `of_ofTwos`: a number and its octets where the first bit is the sign.
- `At`: the octets from an offset on begin with these; `At.append_left`, `At.append_right`, `At.append`: the same of the pieces.
-/
import Mathlib.Algebra.Order.Ring.Nat
import Mathlib.Data.List.Induction
import Mathlib.Tactic.NormNum
import Mathlib.Tactic.Positivity
import Mathlib.Tactic.Ring

namespace Bytes

abbrev Octets := List UInt8

/-! ## Big-endian numbers -/

/-- the number that octets stand for, the first one being the most significant -/
def ofBE (b : Octets) : ℕ := b.foldl (fun n d => n * 256 + d.toNat) 0

/-- the `width` low octets of a number, the most significant first -/
def toBE : ℕ → ℕ → Octets
  | 0, _ => []
  | width + 1, n => toBE width (n / 256) ++ [UInt8.ofNat (n % 256)]

@[simp] theorem ofBE_nil : ofBE [] = 0 := rfl

theorem ofBE_concat (b : Octets) (d : UInt8) : ofBE (b ++ [d]) = ofBE b * 256 + d.toNat := by
  simp [ofBE, List.foldl_append]

theorem ofBE_append (a b : Octets) : ofBE (a ++ b) = ofBE a * 256 ^ b.length + ofBE b := by
  induction b using List.reverseRecOn with
  | nil => simp
  | append_singleton b d ih =>
    rw [← List.append_assoc, ofBE_concat, ofBE_concat, ih, List.length_append, List.length_singleton, pow_succ]
    ring

theorem ofBE_cons (d : UInt8) (b : Octets) : ofBE (d :: b) = d.toNat * 256 ^ b.length + ofBE b := by
  rw [← List.singleton_append, ofBE_append]
  simp [ofBE]

theorem ofBE_lt (b : Octets) : ofBE b < 256 ^ b.length := by
  induction b using List.reverseRecOn with
  | nil => simp
  | append_singleton b d ih =>
    have hd := d.toNat_lt
    rw [ofBE_concat, List.length_append, List.length_singleton, pow_succ]
    omega

@[simp] theorem length_toBE (width n : ℕ) : (toBE width n).length = width := by
  induction width generalizing n with
  | zero => rfl
  | succ width ih => rw [toBE, List.length_append, ih, List.length_singleton]

theorem toNat_ofNat {n : ℕ} (h : n < 256) : (UInt8.ofNat n).toNat = n := by
  rw [UInt8.toNat_ofNat']
  exact Nat.mod_eq_of_lt h

theorem ofBE_toBE {width n : ℕ} (h : n < 256 ^ width) : ofBE (toBE width n) = n := by
  induction width generalizing n with
  | zero =>
    rw [pow_zero] at h
    rw [toBE, ofBE_nil]
    omega
  | succ width ih =>
    have hdiv : n / 256 < 256 ^ width := by
      rw [Nat.div_lt_iff_lt_mul (by omega), ← pow_succ]
      exact h
    rw [toBE, ofBE_concat, ih hdiv, toNat_ofNat (Nat.mod_lt _ (by omega))]
    omega

theorem toBE_ofBE (b : Octets) : toBE b.length (ofBE b) = b := by
  induction b using List.reverseRecOn with
  | nil => rfl
  | append_singleton b d ih =>
    have hd := d.toNat_lt
    have hdiv : (ofBE b * 256 + d.toNat) / 256 = ofBE b := by omega
    have hmod : (ofBE b * 256 + d.toNat) % 256 = d.toNat := by omega
    rw [ofBE_concat, List.length_append, List.length_singleton, toBE, hdiv, hmod, ih, UInt8.ofNat_toNat]

/-- the bits of a number, without leading zeros -/
def bitLength (n : ℕ) : ℕ := if n = 0 then 0 else n.log2 + 1

theorem bitLength_le {n k : ℕ} : bitLength n ≤ k ↔ n < 2 ^ k := by
  unfold bitLength
  split
  · next hzero =>
    rw [hzero]
    exact iff_of_true (Nat.zero_le k) (by positivity)
  · next hne => rw [Nat.succ_le_iff, Nat.log2_lt hne]

theorem lt_two_pow_bitLength (n : ℕ) : n < 2 ^ bitLength n := bitLength_le.1 le_rfl

/-- the octets that the bits fill -/
theorem lt_octets (n : ℕ) : n < 256 ^ ((bitLength n + 7) / 8) := by
  have h256 : (256 : ℕ) ^ ((bitLength n + 7) / 8) = 2 ^ (8 * ((bitLength n + 7) / 8)) := by
    rw [pow_mul]
    norm_num
  rw [h256]
  exact lt_of_lt_of_le (lt_two_pow_bitLength n) (Nat.pow_le_pow_right (by omega) (by omega))

theorem lt_two_pow_of_lt_bitLength {n k : ℕ} : k < bitLength n ↔ 2 ^ k ≤ n := by
  rw [← not_le, bitLength_le, not_lt]

/-- the first octet is the most significant one -/
theorem toBE_cons (width n : ℕ) : toBE (width + 1) n = UInt8.ofNat (n / 256 ^ width % 256) :: toBE width n := by
  induction width generalizing n with
  | zero => simp [toBE]
  | succ width ih =>
    rw [toBE, ih, List.cons_append, Nat.div_div_eq_div_mul, ← pow_succ']
    rfl

theorem toBE_cons_of_lt {width n : ℕ} (h : n < 256 ^ width) : toBE (width + 1) n = 0 :: toBE width n := by
  rw [toBE_cons, Nat.div_eq_of_lt h]
  rfl

/-! ### Two's complement -/

/-- the number that octets stand for where the first bit is the sign -/
def ofTwos : Octets → ℤ
  | [] => 0
  | d :: b => if 0x80 ≤ d.toNat then (ofBE (d :: b) : ℤ) - 256 ^ (d :: b).length else ofBE (d :: b)

theorem ofTwos_toBE {width n : ℕ} (h : n < 2 ^ (8 * width + 7)) : ofTwos (toBE (width + 1) n) = n := by
  have hpow : (2 : ℕ) ^ (8 * width + 7) = 128 * 256 ^ width := by
    rw [pow_add, pow_mul, mul_comm]
    norm_num
  have hfirst : n / 256 ^ width < 128 := by
    rw [Nat.div_lt_iff_lt_mul (by positivity)]
    omega
  have hbyte : (UInt8.ofNat (n / 256 ^ width % 256)).toNat = n / 256 ^ width := by
    rw [toNat_ofNat (Nat.mod_lt _ (by omega)), Nat.mod_eq_of_lt (by omega)]
  have hvalue : ofBE (toBE (width + 1) n) = n := ofBE_toBE (by rw [pow_succ]; omega)
  rw [toBE_cons] at hvalue ⊢
  rw [ofTwos, if_neg (by omega), hvalue]

/-- octets of a number that is not negative have room for its bits and a sign -/
theorem of_ofTwos {b : Octets} {n : ℕ} (hne : b ≠ []) (h : ofTwos b = n) : bitLength n < 8 * b.length ∧ b = toBE b.length n := by
  cases b with
  | nil => exact absurd rfl hne
  | cons d b =>
    have hlt := ofBE_lt (d :: b)
    rw [ofTwos] at h
    split at h
    · exfalso
      have hcast : ((ofBE (d :: b) : ℕ) : ℤ) < 256 ^ (d :: b).length := by exact_mod_cast hlt
      omega
    · next hsign =>
      have hvalue : ofBE (d :: b) = n := by exact_mod_cast h
      constructor
      · have hrest := ofBE_lt b
        have hpow : (2 : ℕ) ^ (8 * b.length + 7) = 128 * 256 ^ b.length := by
          rw [pow_add, pow_mul, mul_comm]
          norm_num
        have hmul : d.toNat * 256 ^ b.length ≤ 127 * 256 ^ b.length := Nat.mul_le_mul_right _ (by omega)
        rw [ofBE_cons] at hvalue
        have hbits : bitLength n ≤ 8 * b.length + 7 := bitLength_le.2 (by omega)
        rw [List.length_cons]
        omega
      · rw [← hvalue, toBE_ofBE]

/-! ## Little-endian numbers -/

def ofLE : Octets → ℕ
  | [] => 0
  | d :: b => d.toNat + 256 * ofLE b

def toLE : ℕ → ℕ → Octets
  | 0, _ => []
  | width + 1, n => UInt8.ofNat (n % 256) :: toLE width (n / 256)

@[simp] theorem length_toLE (width n : ℕ) : (toLE width n).length = width := by
  induction width generalizing n with
  | zero => rfl
  | succ width ih => rw [toLE, List.length_cons, ih]

theorem ofLE_toLE {width n : ℕ} (h : n < 256 ^ width) : ofLE (toLE width n) = n := by
  induction width generalizing n with
  | zero =>
    rw [pow_zero] at h
    rw [toLE, ofLE]
    omega
  | succ width ih =>
    have hdiv : n / 256 < 256 ^ width := by
      rw [Nat.div_lt_iff_lt_mul (by omega), ← pow_succ]
      exact h
    rw [toLE, ofLE, ih hdiv, toNat_ofNat (Nat.mod_lt _ (by omega))]
    omega

/-! ## Parts at an offset -/

/-- from the offset on, `data` begins with `part` -/
def At (data : Octets) (offset : ℕ) (part : Octets) : Prop := part <+: data.drop offset

section At

variable {data a b : Octets} {offset : ℕ}

theorem At.append_left (h : At data offset (a ++ b)) : At data offset a := (List.prefix_append a b).trans h

theorem At.append_right (h : At data offset (a ++ b)) : At data (offset + a.length) b := by
  obtain ⟨rest, hrest⟩ := h
  refine ⟨rest, ?_⟩
  rw [← List.drop_drop, ← hrest, List.append_assoc, List.drop_left]

theorem At.length_le (h : At data offset a) (hne : a ≠ []) : offset + a.length ≤ data.length := by
  have hle := List.IsPrefix.length_le h
  rw [List.length_drop] at hle
  have hpos := List.length_pos_iff.2 hne
  omega

theorem At.take (h : At data offset a) : (data.drop offset).take a.length = a := by
  obtain ⟨rest, hrest⟩ := h
  rw [← hrest, List.take_left]

theorem At.head {d : UInt8} (h : At data offset (d :: a)) : data[offset]? = some d := by
  obtain ⟨rest, hrest⟩ := h
  have hdrop : (data.drop offset)[0]? = some d := by
    rw [← hrest]
    rfl
  rwa [List.getElem?_drop, Nat.add_zero] at hdrop

theorem At.tail {d : UInt8} (h : At data offset (d :: a)) : At data (offset + 1) a :=
  At.append_right (a := [d]) h

theorem At.append (ha : At data offset a) (hb : At data (offset + a.length) b) : At data offset (a ++ b) := by
  obtain ⟨r, hr⟩ := ha
  have hrest : data.drop (offset + a.length) = r := by rw [← List.drop_drop, ← hr, List.drop_left]
  unfold At at hb
  rw [hrest] at hb
  obtain ⟨r', rfl⟩ := hb
  refine ⟨r', ?_⟩
  rw [List.append_assoc]
  exact hr

theorem At.of_getElem? {d : UInt8} (h : data[offset]? = some d) : At data offset [d] := by
  obtain ⟨hlt, rfl⟩ := List.getElem?_eq_some_iff.1 h
  refine ⟨data.drop (offset + 1), ?_⟩
  rw [List.singleton_append, ← List.drop_eq_getElem_cons hlt]

end At

end Bytes
