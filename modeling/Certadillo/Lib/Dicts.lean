/-
Python dictionaries as lists of pairs, and loops over their items.

- `setItem_nodup`, `updateItems_spec`: building a dictionary keeps its keys distinct.
- `pass`: a loop over the items of a dictionary that writes to another under the item's key and emits something.
- `pass_lookup`, `pass_emitted`: what it leaves and what it emits, one key at a time.
-/
import Certadillo.Py

namespace Certadillo.Py

/-! ## Building dictionaries -/

section Dicts

variable {β : Type} {d e : List (String × β)} {key : String} {v : β}

theorem mem_of_lookup (h : d.lookup key = some v) : (key, v) ∈ d := by
  induction d with
  | nil => cases h
  | cons p rest ih =>
    obtain ⟨k, w⟩ := p
    by_cases hk : key = k
    · subst hk
      rw [List.lookup_cons_self] at h
      obtain rfl := Option.some.inj h
      exact List.mem_cons_self
    · have hne : (key == k) = false := by simpa using hk
      rw [List.lookup_cons, hne] at h
      exact List.mem_cons_of_mem _ (ih h)

theorem lookup_isSome_of_mem (h : (key, v) ∈ d) : ∃ w, d.lookup key = some w := by
  induction d with
  | nil => cases h
  | cons p rest ih =>
    obtain ⟨k, w⟩ := p
    by_cases hk : key = k
    · subst hk
      exact ⟨w, List.lookup_cons_self⟩
    · have hne : (key == k) = false := by simpa using hk
      rcases List.mem_cons.1 h with heq | hmem
      · exact absurd (Prod.mk.inj heq).1 hk
      · rw [List.lookup_cons, hne]
        exact ih hmem

/-- an item is the one found under its key, where keys are distinct -/
theorem lookup_of_mem (hnodup : (d.map Prod.fst).Nodup) (h : (key, v) ∈ d) : d.lookup key = some v := by
  induction d with
  | nil => cases h
  | cons p rest ih =>
    obtain ⟨k, w⟩ := p
    rw [List.map_cons, List.nodup_cons] at hnodup
    rcases List.mem_cons.1 h with heq | hmem
    · obtain ⟨rfl, rfl⟩ := Prod.mk.inj heq
      exact List.lookup_cons_self
    · have hkey : key ≠ k := fun heq => hnodup.1 (heq ▸ List.mem_map.2 ⟨_, hmem, rfl⟩)
      have hne : (key == k) = false := by simpa using hkey
      rw [List.lookup_cons, hne]
      exact ih hnodup.2 hmem

theorem setItem_nodup (h : (d.map Prod.fst).Nodup) (key : String) (v : β) : ((setItem d key v).map Prod.fst).Nodup := by
  unfold setItem
  split
  · have hkeys : (d.map fun p => if p.1 = key then (key, v) else p).map Prod.fst = d.map Prod.fst := by
      rw [List.map_map]
      refine List.map_congr_left fun p _ => ?_
      by_cases hp : p.1 = key
      · simp [hp]
      · simp [hp]
    rw [hkeys]
    exact h
  · next hnone =>
    rw [List.map_append, List.nodup_append]
    refine ⟨h, List.nodup_singleton _, fun k hk k' hk' heq => ?_⟩
    obtain ⟨p, hp, rfl⟩ := List.mem_map.1 hk
    obtain ⟨w, hw⟩ := lookup_isSome_of_mem (show (p.1, p.2) ∈ d from hp)
    have hsame : p.1 = key := heq.trans (List.mem_singleton.1 hk')
    rw [← hsame, hw] at hnone
    exact hnone rfl

/-- building a dict from pairs: its keys are distinct, and its pairs are among them -/
theorem updateItems_spec (h : (d.map Prod.fst).Nodup) :
    ((updateItems d e).map Prod.fst).Nodup ∧
    (∀ key v, (updateItems d e).lookup key = some v → (key, v) ∈ e ∨ d.lookup key = some v) ∧
    ∀ key, (∃ v, (key, v) ∈ e) ∨ (d.lookup key).isSome → ((updateItems d e).lookup key).isSome := by
  unfold updateItems
  induction e generalizing d with
  | nil => exact ⟨h, fun _ _ hlookup => Or.inr hlookup, fun key hkey => hkey.resolve_left fun ⟨_, hmem⟩ => by cases hmem⟩
  | cons p rest ih =>
    obtain ⟨hnodup, hfrom, hhas⟩ := ih (setItem_nodup h p.1 p.2)
    refine ⟨hnodup, fun key v hlookup => ?_, fun key hkey => ?_⟩
    · rcases hfrom key v hlookup with hmem | hset
      · exact Or.inl (List.mem_cons_of_mem _ hmem)
      · rw [lookup_setItem] at hset
        split at hset
        · next hk =>
          obtain rfl := Option.some.inj hset
          exact Or.inl (hk ▸ List.mem_cons_self)
        · exact Or.inr hset
    · apply hhas
      rw [lookup_setItem]
      rcases hkey with ⟨v, hmem⟩ | hd
      · rcases List.mem_cons.1 hmem with heq | hmem
        · rw [← heq, if_pos rfl]
          exact Or.inr rfl
        · exact Or.inl ⟨v, hmem⟩
      · split
        · exact Or.inr rfl
        · exact Or.inr hd

end Dicts

/-! ## Loops over items -/

section Pass

variable {α β γ : Type} {f : String → α → Option β × List γ} {items : List (String × α)} {d : List (String × β)} {key : String}

/-- one turn for each item: what it writes under the item's key, if anything, and what it emits -/
def pass (f : String → α → Option β × List γ) : List (String × α) → List (String × β) → List (String × β) × List γ
  | [], d => (d, [])
  | (key, a) :: rest, d =>
    let d' := match (f key a).1 with
      | some v => setItem d key v
      | none => d
    let later := pass f rest d'
    (later.1, (f key a).2 ++ later.2)

theorem pass_nodup (h : (d.map Prod.fst).Nodup) : ((pass f items d).1.map Prod.fst).Nodup := by
  induction items generalizing d with
  | nil => exact h
  | cons p rest ih =>
    unfold pass
    apply ih
    cases (f p.1 p.2).1 with
    | none => exact h
    | some v => exact setItem_nodup h p.1 v

theorem lookup_eq_none_of_notMem (h : key ∉ items.map Prod.fst) : items.lookup key = none := by
  cases hlookup : items.lookup key with
  | none => rfl
  | some a => exact absurd (List.mem_map.2 ⟨_, mem_of_lookup hlookup, rfl⟩) h

/-- **A loop over distinct keys leaves under each what its own turn wrote.** -/
theorem pass_lookup (h : (items.map Prod.fst).Nodup) :
    (pass f items d).1.lookup key = ((items.lookup key).bind fun a => (f key a).1).or (d.lookup key) := by
  induction items generalizing d with
  | nil => rfl
  | cons p rest ih =>
    obtain ⟨k, a⟩ := p
    rw [List.map_cons, List.nodup_cons] at h
    unfold pass
    rw [ih h.2]
    by_cases hk : key = k
    · subst hk
      rw [lookup_eq_none_of_notMem h.1, List.lookup_cons_self]
      simp only [Option.bind_none, Option.none_or, Option.bind_some]
      cases (f key a).1 with
      | none => rfl
      | some v =>
        rw [lookup_setItem, if_pos rfl]
        rfl
    · have hne : (key == k) = false := by simpa using hk
      rw [List.lookup_cons, hne]
      congr 1
      cases (f k a).1 with
      | none => rfl
      | some v => rw [lookup_setItem, if_neg hk]

/-- **What it emits about a key is what the key's own turn emits**, where a turn emits nothing about other keys. -/
theorem pass_emitted (h : (items.map Prod.fst).Nodup) {about : γ → Bool}
    (hother : ∀ p ∈ items, p.1 ≠ key → ∀ c ∈ (f p.1 p.2).2, about c = false) :
    (pass f items d).2.filter about = ((items.lookup key).map fun a => (f key a).2.filter about).getD [] := by
  induction items generalizing d with
  | nil => rfl
  | cons p rest ih =>
    obtain ⟨k, a⟩ := p
    rw [List.map_cons, List.nodup_cons] at h
    unfold pass
    rw [List.filter_append, ih h.2 fun p hp => hother p (List.mem_cons_of_mem _ hp)]
    by_cases hk : key = k
    · subst hk
      rw [lookup_eq_none_of_notMem h.1, List.lookup_cons_self]
      simp
    · have hne : (key == k) = false := by simpa using hk
      have hnone : (f k a).2.filter about = [] := List.filter_eq_nil_iff.2 fun c hc => by
        rw [hother (k, a) List.mem_cons_self (Ne.symm hk) c hc]
        exact Bool.false_ne_true
      rw [List.lookup_cons, hne, hnone, List.nil_append]

end Pass

end Certadillo.Py
