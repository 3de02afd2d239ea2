/-
Delivery at least once: a log that receives a sequence in order, where what was received may come again.

`Log R xs n bs m`: a log that had the first `n` elements of `xs` receives `bs`, in which new elements come in order and others
may repeat, and then has the first `m`. `R x b` says that the entry `b` stands for the element `x`.

- `Log.append`, `Log.extend`: logs continue each other, and the sequence may grow at its end.
- `Log.received`: every new element is among the entries.
- `log_redelivered`: a sender that starts again behind what was received delivers a part of the sequence.
-/
import Mathlib.Tactic

namespace AtLeastOnce

variable {α β : Type*} {R : α → β → Prop} {xs ys : List α} {bs cs : List β} {n m k : ℕ}

inductive Log (R : α → β → Prop) (xs : List α) : ℕ → List β → ℕ → Prop where
  | nil (n : ℕ) : Log R xs n [] n
  | again {n m i : ℕ} {x : α} {b : β} {bs : List β} (hi : i < n) (hx : xs[i]? = some x) (hb : R x b)
      (rest : Log R xs n bs m) : Log R xs n (b :: bs) m
  | next {n m : ℕ} {x : α} {b : β} {bs : List β} (hx : xs[n]? = some x) (hb : R x b) (rest : Log R xs (n + 1) bs m) :
      Log R xs n (b :: bs) m

theorem Log.append (h : Log R xs n bs m) (h' : Log R xs m cs k) : Log R xs n (bs ++ cs) k := by
  induction h with
  | nil n => exact h'
  | again hi hx hb _ ih => exact Log.again hi hx hb (ih h')
  | next hx hb _ ih => exact Log.next hx hb (ih h')

theorem Log.le (h : Log R xs n bs m) : n ≤ m := by
  induction h with
  | nil n => exact le_refl n
  | again _ _ _ _ ih => exact ih
  | next _ _ _ ih => omega

theorem getElem?_extend {i : ℕ} {x : α} (h : xs[i]? = some x) : (xs ++ ys)[i]? = some x := by
  obtain ⟨hi, -⟩ := List.getElem?_eq_some_iff.1 h
  rw [List.getElem?_append_left hi, h]

theorem Log.extend (h : Log R xs n bs m) (ys : List α) : Log R (xs ++ ys) n bs m := by
  induction h with
  | nil n => exact Log.nil n
  | again hi hx hb _ ih => exact Log.again hi (getElem?_extend hx) hb ih
  | next hx hb _ ih => exact Log.next (getElem?_extend hx) hb ih

/-- every entry stands for an element -/
theorem Log.entry (h : Log R xs n bs m) {b : β} (hb : b ∈ bs) : ∃ x ∈ xs, R x b := by
  induction h with
  | nil n => exact absurd hb List.not_mem_nil
  | again _ hx hR _ ih =>
    rcases List.mem_cons.1 hb with rfl | hb
    · exact ⟨_, List.mem_of_getElem? hx, hR⟩
    · exact ih hb
  | next hx hR _ ih =>
    rcases List.mem_cons.1 hb with rfl | hb
    · exact ⟨_, List.mem_of_getElem? hx, hR⟩
    · exact ih hb

/-- every new element was received -/
theorem Log.received (h : Log R xs n bs m) {i : ℕ} {x : α} (hn : n ≤ i) (hm : i < m) (hx : xs[i]? = some x) :
    ∃ b ∈ bs, R x b := by
  induction h with
  | nil n => omega
  | again _ _ _ _ ih =>
    obtain ⟨b, hb, hR⟩ := ih hn hm
    exact ⟨b, List.mem_cons_of_mem _ hb, hR⟩
  | @next n m y b bs hy hb _ ih =>
    by_cases hi : i = n
    · subst hi
      obtain rfl : y = x := Option.some.inj (hy.symm.trans hx)
      exact ⟨b, List.mem_cons_self, hb⟩
    · obtain ⟨b', hb', hR⟩ := ih (by omega) hm
      exact ⟨b', List.mem_cons_of_mem _ hb', hR⟩

/-- a part of the sequence, delivered from a place up to which everything was received -/
theorem log_redelivered {c : ℕ} (hc : c ≤ n) (hys : ys <+: xs.drop c) (h : List.Forall₂ R ys bs) :
    Log R xs n bs (max n (c + ys.length)) := by
  induction h generalizing c n with
  | nil =>
    have hmax : max n (c + ([] : List α).length) = n := by simpa using hc
    rw [hmax]
    exact Log.nil n
  | @cons y b ys bs hR _ ih =>
    obtain ⟨zs, hzs⟩ := hys
    have hy : xs[c]? = some y := by
      have hhead := congrArg List.head? hzs
      rw [List.head?_drop] at hhead
      exact hhead.symm
    have hrest : ys <+: xs.drop (c + 1) := by
      refine ⟨zs, ?_⟩
      rw [← List.tail_drop, ← hzs]
      rfl
    have hlen : c + (y :: ys).length = (c + 1) + ys.length := by
      rw [List.length_cons]
      omega
    rw [hlen]
    by_cases hlt : c < n
    · exact Log.again hlt hy hR (ih hlt hrest)
    · obtain rfl : c = n := by omega
      have hmax : max c (c + 1 + ys.length) = max (c + 1) (c + 1 + ys.length) := by omega
      rw [hmax]
      exact Log.next hy hR (ih le_rfl hrest)

end AtLeastOnce
