/-
Tables kept by key: each entry of a list updates the row that has its key, or adds one.

- `lastWith`: the last entry of a list with a key.
- `Upserted`: a table after the entries of a list, from the table before. A row with the key of an entry holds the last such
  entry; the other rows are as they were. `Upserted.insert`, `Upserted.update`: one more entry.
- `updateAll`: the same change at several rows.
- `first_insert_of_some`, `first_update`: what the first match becomes.
-/
import Certadillo.Lib.Table

namespace Table

variable {α : Type}

/-- one change at each of these rows -/
def updateAll (t : Table α) (ids : List ℕ) (f : α → α) : Table α := ids.foldl (fun t i => t.update i f) t

/-- a change that does nothing the second time -/
theorem get_updateAll {f : α → α} (hf : ∀ a, f (f a) = f a) (t : Table α) (ids : List ℕ) (j : ℕ) :
    (t.updateAll ids f).get j = if j ∈ ids then (t.get j).map f else t.get j := by
  induction ids generalizing t with
  | nil => rfl
  | cons i ids ih =>
    show ((t.update i f).updateAll ids f).get j = _
    rw [ih]
    by_cases hj : j = i
    · subst hj
      have hcomp : f ∘ f = f := funext hf
      simp [get_update_self, hcomp]
    · simp [get_update_of_ne t f hj, hj]

/-! ### The first match -/

theorem first_insert_of_some {t : Table α} {p : α → Bool} {x : ℕ × α} (h : t.first p = some x) (a : α) :
    (t.insert a).first p = some x := by
  unfold first insert at *
  simp [List.find?_append, h]

theorem first_insert_of_none {t : Table α} {p : α → Bool} (h : t.first p = none) (a : α) :
    (t.insert a).first p = if p a then some (t.next, a) else none := by
  unfold first insert at *
  rw [List.find?_append, h]
  by_cases hp : p a = true
  · simp [hp]
  · simp [hp]

/-- an update that keeps what the match is about -/
theorem first_update {t : Table α} {p : α → Bool} {i : ℕ} {f : α → α} (h : ∀ a, p (f a) = p a) :
    (t.update i f).first p = (t.first p).map fun q => if q.1 = i then (q.1, f q.2) else q := by
  unfold first update
  dsimp only
  rw [List.find?_map]
  congr 1
  refine congrArg (fun q => t.rows.find? q) (funext fun q => ?_)
  by_cases hq : q.1 = i
  · simp [hq, h]
  · simp [hq]

/-- no two rows have the same key -/
def UniqueBy {κ : Type} (key : α → κ) (t : Table α) : Prop :=
  ∀ i j a b, t.get i = some a → t.get j = some b → key a = key b → i = j

/-- the last of the rows that match -/
theorem last_all {t : Table α} {p : α → Bool} {i : ℕ} {a : α} (h : (t.all p).getLast? = some (i, a)) :
    t.get i = some a ∧ p a = true ∧ ∀ j b, t.get j = some b → p b = true → j ≤ i := by
  obtain ⟨ys, hys⟩ := List.getLast?_eq_some_iff.1 h
  have hmem := mem_all.1 (show (i, a) ∈ t.all p by rw [hys]; simp)
  refine ⟨hmem.1, hmem.2, fun j b hb hp => ?_⟩
  have hj : (j, b) ∈ ys ++ [(i, a)] := hys ▸ mem_all.2 ⟨hb, hp⟩
  have hsorted : (ys ++ [(i, a)]).Pairwise fun x y => x.1 < y.1 := by
    rw [← hys]
    exact (List.pairwise_map.1 t.sorted).sublist List.filter_sublist
  rcases List.mem_append.1 hj with hj | hj
  · exact ((List.pairwise_append.1 hsorted).2.2 _ hj (i, a) (by simp)).le
  · cases List.mem_singleton.1 hj
    exact le_refl _

theorem get_update_cases {t : Table α} {i j : ℕ} {f : α → α} {b : α} (h : (t.update i f).get j = some b) :
    ∃ a, t.get j = some a ∧ (b = a ∨ b = f a) := by
  by_cases hj : j = i
  · subst hj
    rw [get_update_self] at h
    obtain ⟨a, ha, rfl⟩ := Option.map_eq_some_iff.1 h
    exact ⟨a, ha, Or.inr rfl⟩
  · rw [get_update_of_ne t f hj] at h
    exact ⟨b, h, Or.inl rfl⟩

theorem UniqueBy.update {κ : Type} {key : α → κ} {t : Table α} (h : t.UniqueBy key) {f : α → α}
    (hf : ∀ a, key (f a) = key a) (i : ℕ) : (t.update i f).UniqueBy key := by
  intro j k a b ha hb hkey
  obtain ⟨a', ha', hsame⟩ := get_update_cases ha
  obtain ⟨b', hb', hsame'⟩ := get_update_cases hb
  refine h j k a' b' ha' hb' ?_
  rcases hsame with rfl | rfl <;> rcases hsame' with rfl | rfl <;> simpa [hf] using hkey

theorem UniqueBy.insert {κ : Type} {key : α → κ} {t : Table α} (h : t.UniqueBy key) {a : α}
    (hfresh : ∀ j c, t.get j = some c → key c ≠ key a) : (t.insert a).UniqueBy key := by
  intro j k b c hb hc hkey
  rw [get_insert] at hb hc
  split at hb
  · next hj =>
    cases hb
    split at hc
    · next hk => exact hj.trans hk.symm
    · exact absurd hkey.symm (hfresh k c hc)
  · split at hc
    · cases hc
      exact absurd hkey (hfresh j b hb)
    · exact h j k b c hb hc hkey

end Table

namespace Upserts

variable {ε κ ρ : Type} [DecidableEq κ]

/-! ## The last entry -/

/-- the last entry with this key -/
def lastWith (key : ε → κ) (k : κ) (es : List ε) : Option ε := es.reverse.find? fun e => key e = k

section Last

variable {key : ε → κ} {k : κ} {es : List ε} {e : ε}

@[simp] theorem lastWith_nil : lastWith key k ([] : List ε) = none := rfl

theorem lastWith_snoc : lastWith key k (es ++ [e]) = if key e = k then some e else lastWith key k es := by
  unfold lastWith
  rw [List.reverse_append, List.reverse_singleton, List.singleton_append, List.find?_cons]
  split
  · next h => rw [if_pos (of_decide_eq_true h)]
  · next h => rw [if_neg (of_decide_eq_false h)]

theorem lastWith_some (h : lastWith key k es = some e) : e ∈ es ∧ key e = k := by
  have hkey := List.find?_some h
  exact ⟨List.mem_reverse.1 (List.mem_of_find?_eq_some h), of_decide_eq_true hkey⟩

theorem lastWith_eq_none : lastWith key k es = none ↔ k ∉ es.map key := by
  simp [lastWith]

theorem lastWith_isSome (h : k ∈ es.map key) : ∃ e, lastWith key k es = some e := by
  cases hlast : lastWith key k es with
  | none => exact absurd h (lastWith_eq_none.1 hlast)
  | some e => exact ⟨e, rfl⟩

/-- only which entries match counts -/
theorem lastWith_congr {κ' : Type} [DecidableEq κ'] {key' : ε → κ'} {k' : κ'} (h : ∀ e ∈ es, key e = k ↔ key' e = k') :
    lastWith key k es = lastWith key' k' es := by
  induction es using List.reverseRecOn with
  | nil => rfl
  | append_singleton es e ih =>
    rw [lastWith_snoc, lastWith_snoc, ih fun x hx => h x (List.mem_append_left _ hx)]
    simp only [h e (List.mem_append_right _ (List.mem_singleton.2 rfl))]

end Last

/-! ## Entries into a table -/

/-- The table after the entries `es`. `Holds e b`: row `b` has what entry `e` says. `R a b`: what entries may do to a row `a`
that was there; `N b`: what a row they added is. -/
structure Upserted (key : ρ → κ) (ekey : ε → κ) (Holds : ε → ρ → Prop) (R : ρ → ρ → Prop) (N : ρ → Prop) (es : List ε)
    (t t' : Table ρ) : Prop where
  unique : t'.UniqueBy key
  old : ∀ i a, t.get i = some a → ∃ b, t'.get i = some b ∧ key b = key a ∧ if key a ∈ es.map ekey then R a b else b = a
  new : ∀ i b, t.get i = none → t'.get i = some b → key b ∈ es.map ekey ∧ N b
  has : ∀ k ∈ es.map ekey, ∃ i b, t'.get i = some b ∧ key b = k
  last : ∀ i b e, t'.get i = some b → lastWith ekey (key b) es = some e → Holds e b

section Upserted

variable {key : ρ → κ} {ekey : ε → κ} {Holds : ε → ρ → Prop} {R : ρ → ρ → Prop} {N : ρ → Prop} {es : List ε} {e : ε}
  {t t' : Table ρ}

theorem upserted_nil (h : t.UniqueBy key) : Upserted key ekey Holds R N [] t t where
  unique := h
  old := fun i a ha => ⟨a, ha, rfl, by simp⟩
  new := fun i b hnone hb => by rw [hnone] at hb; cases hb
  has := fun k hk => by cases hk
  last := fun i b e hb hlast => by cases hlast

/-- a row whose key no entry has is as it was -/
theorem Upserted.untouched (h : Upserted key ekey Holds R N es t t') {i : ℕ} {b : ρ} (hb : t'.get i = some b)
    (hkey : key b ∉ es.map ekey) : t.get i = some b := by
  cases ha : t.get i with
  | none => exact absurd (h.new i b ha hb).1 hkey
  | some a =>
    obtain ⟨b', hb', hsame, hrel⟩ := h.old i a ha
    obtain rfl := Option.some.inj (hb.symm.trans hb')
    rw [if_neg (by rwa [← hsame])] at hrel
    rw [hrel]

/-- an entry whose key no row has adds one -/
theorem Upserted.insert (h : Upserted key ekey Holds R N es t t') {b : ρ} (hkey : key b = ekey e) (hholds : Holds e b)
    (hN : N b) (hfresh : ∀ j c, t'.get j = some c → key c ≠ ekey e) :
    Upserted key ekey Holds R N (es ++ [e]) t (t'.insert b) := by
  -- a row is the new one, or was there and has another key
  have hrows : ∀ j c, (t'.insert b).get j = some c → (j = t'.next ∧ c = b) ∨ (t'.get j = some c ∧ key c ≠ ekey e) := by
    intro j c hc
    rw [Table.get_insert] at hc
    split at hc
    · next hj => exact Or.inl ⟨hj, (Option.some.inj hc).symm⟩
    · exact Or.inr ⟨hc, hfresh j c hc⟩
  have hstays : ∀ j c, t'.get j = some c → (t'.insert b).get j = some c := fun j c hc => Table.get_insert_of_some hc
  refine ⟨fun i j a c ha hc hsame => ?_, fun i a ha => ?_, fun i c hnone hc => ?_, fun k hk => ?_, fun i c e' hc hlast => ?_⟩
  · rcases hrows i a ha with ⟨rfl, rfl⟩ | ⟨ha', hnea⟩
    · rcases hrows j c hc with ⟨rfl, -⟩ | ⟨-, hnec⟩
      · rfl
      · exact absurd (hsame.symm.trans hkey) hnec
    · rcases hrows j c hc with ⟨rfl, rfl⟩ | ⟨hc', -⟩
      · exact absurd (hsame.trans hkey) hnea
      · exact h.unique i j a c ha' hc' hsame
  · obtain ⟨c, hc, hsame, hrel⟩ := h.old i a ha
    refine ⟨c, hstays i c hc, hsame, ?_⟩
    have hne : key a ≠ ekey e := fun he => hfresh i c hc (hsame.trans he)
    simpa [hne] using hrel
  · rcases hrows i c hc with ⟨-, rfl⟩ | ⟨hc', -⟩
    · exact ⟨by simp [hkey], hN⟩
    · obtain ⟨hmem, hnew⟩ := h.new i c hnone hc'
      exact ⟨by rw [List.map_append]; exact List.mem_append_left _ hmem, hnew⟩
  · rw [List.map_append, List.mem_append] at hk
    rcases hk with hk | hk
    · obtain ⟨i, c, hc, hck⟩ := h.has k hk
      exact ⟨i, c, hstays i c hc, hck⟩
    · exact ⟨t'.next, b, Table.get_insert_next t' b, hkey.trans (List.mem_singleton.1 hk).symm⟩
  · rw [lastWith_snoc] at hlast
    rcases hrows i c hc with ⟨-, rfl⟩ | ⟨hc', hne⟩
    · rw [if_pos hkey.symm] at hlast
      obtain rfl := Option.some.inj hlast
      exact hholds
    · rw [if_neg hne.symm] at hlast
      exact h.last i c e' hc' hlast

/-- an entry whose key a row has changes that row -/
theorem Upserted.update (h : Upserted key ekey Holds R N es t t') {i : ℕ} {a : ρ} {f : ρ → ρ} (hget : t'.get i = some a)
    (hkey : key a = ekey e) (hf : key (f a) = key a) (hholds : Holds e (f a)) (hR : R a (f a))
    (htrans : ∀ b, R b a → R b (f a)) (hN : N a → N (f a)) :
    Upserted key ekey Holds R N (es ++ [e]) t (t'.update i f) := by
  have hself : (t'.update i f).get i = some (f a) := by rw [Table.get_update_self, hget]; rfl
  -- a row is the changed one, or was there and has another key
  have hrows : ∀ j c, (t'.update i f).get j = some c →
      (j = i ∧ c = f a) ∨ (j ≠ i ∧ t'.get j = some c ∧ key c ≠ ekey e) := by
    intro j c hc
    by_cases hj : j = i
    · subst hj
      exact Or.inl ⟨rfl, Option.some.inj (hc.symm.trans hself)⟩
    · rw [Table.get_update_of_ne t' f hj] at hc
      exact Or.inr ⟨hj, hc, fun he => hj (h.unique j i c a hc hget (he.trans hkey.symm))⟩
  have hstays : ∀ j c, t'.get j = some c → ∃ c', (t'.update i f).get j = some c' ∧ key c' = key c := by
    intro j c hc
    by_cases hj : j = i
    · subst hj
      obtain rfl := Option.some.inj (hget.symm.trans hc)
      exact ⟨f a, hself, hf⟩
    · exact ⟨c, by rw [Table.get_update_of_ne t' f hj, hc], rfl⟩
  refine ⟨fun j k b c hb hc hsame => ?_, fun j b hb => ?_, fun j c hnone hc => ?_, fun k hk => ?_, fun j c e' hc hlast => ?_⟩
  · rcases hrows j b hb with ⟨rfl, rfl⟩ | ⟨-, hb', hneb⟩
    · rcases hrows k c hc with ⟨rfl, -⟩ | ⟨-, -, hnec⟩
      · rfl
      · exact absurd (hsame.symm.trans (hf.trans hkey)) hnec
    · rcases hrows k c hc with ⟨rfl, rfl⟩ | ⟨-, hc', -⟩
      · exact absurd (hsame.trans (hf.trans hkey)) hneb
      · exact h.unique j k b c hb' hc' hsame
  · obtain ⟨c, hc, hsame, hrel⟩ := h.old j b hb
    by_cases hj : j = i
    · subst hj
      obtain rfl := Option.some.inj (hget.symm.trans hc)
      refine ⟨f a, hself, hf.trans hsame, ?_⟩
      rw [if_pos (by simp [← hsame, hkey])]
      split at hrel
      · exact htrans b hrel
      · rw [← hrel]
        exact hR
    · refine ⟨c, by rw [Table.get_update_of_ne t' f hj, hc], hsame, ?_⟩
      have hne : key b ≠ ekey e := fun he => hj (h.unique j i c a hc hget (hsame.trans (he.trans hkey.symm)))
      simpa [hne] using hrel
  · rcases hrows j c hc with ⟨rfl, rfl⟩ | ⟨-, hc', -⟩
    · exact ⟨by simp [hf, hkey], hN (h.new j a hnone hget).2⟩
    · obtain ⟨hmem, hnew⟩ := h.new j c hnone hc'
      exact ⟨by rw [List.map_append]; exact List.mem_append_left _ hmem, hnew⟩
  · rw [List.map_append, List.mem_append] at hk
    rcases hk with hk | hk
    · obtain ⟨j, c, hc, hck⟩ := h.has k hk
      obtain ⟨c', hc', hsame⟩ := hstays j c hc
      exact ⟨j, c', hc', hsame.trans hck⟩
    · exact ⟨i, f a, hself, (hf.trans hkey).trans (List.mem_singleton.1 hk).symm⟩
  · rw [lastWith_snoc] at hlast
    rcases hrows j c hc with ⟨-, rfl⟩ | ⟨-, hc', hne⟩
    · rw [if_pos (hf.trans hkey).symm] at hlast
      obtain rfl := Option.some.inj hlast
      exact hholds
    · rw [if_neg hne.symm] at hlast
      exact h.last j c e' hc' hlast

end Upserted

end Upserts
