/-
A database table: rows under increasing integer keys, and the next value of the key's sequence.

- `get_insert`, `get_update`: what a lookup finds after an insert or an update of one row.
- `get_delete`: what it finds after a DELETE.
- `get_next`: the key of the next insert is free.
- `mem_rows`: the rows are what `get` finds.
-/
import Mathlib.Tactic

/-- rows in key order, with every key below the sequence -/
structure Table (α : Type) where
  rows : List (ℕ × α)
  next : ℕ
  sorted : (rows.map Prod.fst).Pairwise (· < ·)
  below : ∀ i ∈ rows.map Prod.fst, i < next

namespace Table

variable {α : Type}

/-- the sequence starts at 1 -/
def empty : Table α := ⟨[], 1, by simp, by simp⟩

instance : Inhabited (Table α) := ⟨empty⟩

/-- lookup by primary key -/
def get (t : Table α) (i : ℕ) : Option α := (t.rows.find? fun p => p.1 == i).map Prod.snd

/-- INSERT with the next key -/
def insert (t : Table α) (a : α) : Table α where
  rows := t.rows ++ [(t.next, a)]
  next := t.next + 1
  sorted := by
    rw [List.map_append, List.pairwise_append]
    refine ⟨t.sorted, by simp, fun i hi j hj => ?_⟩
    simp only [List.map_cons, List.map_nil, List.mem_singleton] at hj
    exact hj ▸ t.below i hi
  below := by
    intro i hi
    rw [List.map_append, List.mem_append] at hi
    rcases hi with hi | hi
    · exact Nat.lt_succ_of_lt (t.below i hi)
    · simp only [List.map_cons, List.map_nil, List.mem_singleton] at hi
      omega

/-- UPDATE of the row under one key -/
def update (t : Table α) (i : ℕ) (f : α → α) : Table α where
  rows := t.rows.map fun p => if p.1 = i then (p.1, f p.2) else p
  next := t.next
  sorted := by
    have h : (t.rows.map fun p => if p.1 = i then (p.1, f p.2) else p).map Prod.fst = t.rows.map Prod.fst := by
      rw [List.map_map]
      exact List.map_congr_left fun p _ => by by_cases h : p.1 = i <;> simp [h]
    rw [h]
    exact t.sorted
  below := by
    have h : (t.rows.map fun p => if p.1 = i then (p.1, f p.2) else p).map Prod.fst = t.rows.map Prod.fst := by
      rw [List.map_map]
      exact List.map_congr_left fun p _ => by by_cases h : p.1 = i <;> simp [h]
    rw [h]
    exact t.below

/-- DELETE of the rows that match -/
def delete (t : Table α) (p : ℕ → α → Bool) : Table α where
  rows := t.rows.filter fun q => !p q.1 q.2
  next := t.next
  sorted := t.sorted.sublist (List.filter_sublist.map _)
  below := fun i hi => t.below i ((List.filter_sublist.map _).subset hi)

/-- the rows with the sequence advanced to `n` -/
def advance (t : Table α) (n : ℕ) : Table α where
  rows := t.rows
  next := max t.next n
  sorted := t.sorted
  below := fun i hi => lt_of_lt_of_le (t.below i hi) (le_max_left _ _)

/-- what is left of `stored` by a transaction that loaded the rows of `loaded` and made those of `final` of them: `write`
updates a row it changed, and its own rows have keys it drew from the sequence of `stored` -/
def merge (write : α → α → α → α) (loaded final stored : Table α) : Table α where
  rows := stored.rows.map (fun p => (p.1, match loaded.get p.1, final.get p.1 with
    | some a, some b => write a b p.2
    | _, _ => p.2)) ++ final.rows.filter fun p => stored.next ≤ p.1
  next := max stored.next final.next
  sorted := by
    rw [List.map_append, List.map_map, List.pairwise_append]
    refine ⟨stored.sorted, ?_, fun i hi j hj => ?_⟩
    · exact final.sorted.sublist (List.filter_sublist.map _)
    · obtain ⟨q, hq, rfl⟩ := List.mem_map.1 hj
      have hj := (List.mem_filter.1 hq).2
      exact lt_of_lt_of_le (stored.below i hi) (by simpa using hj)
  below := by
    intro i hi
    rw [List.map_append, List.map_map, List.mem_append] at hi
    rcases hi with hi | hi
    · exact lt_of_lt_of_le (stored.below i hi) (le_max_left _ _)
    · obtain ⟨q, hq, rfl⟩ := List.mem_map.1 hi
      have hmem := List.mem_map_of_mem (f := Prod.fst) (List.mem_filter.1 hq).1
      exact lt_of_lt_of_le (final.below _ hmem) (le_max_right _ _)

/-- the rows' contents, in key order -/
def vals (t : Table α) : List α := t.rows.map Prod.snd

/-- `query.filter(..).first()` in key order -/
def first (t : Table α) (p : α → Bool) : Option (ℕ × α) := t.rows.find? fun q => p q.2

/-- `query.filter(..).all()` in key order -/
def all (t : Table α) (p : α → Bool) : List (ℕ × α) := t.rows.filter fun q => p q.2

/-! ## Lemmas -/

private theorem find_eq_of_pairwise {l : List (ℕ × α)} (hs : (l.map Prod.fst).Pairwise (· < ·)) {i : ℕ} {a : α}
    (h : (i, a) ∈ l) : l.find? (fun p => p.1 == i) = some (i, a) := by
  induction l with
  | nil => simp at h
  | cons p l ih =>
    rw [List.map_cons, List.pairwise_cons] at hs
    rcases List.mem_cons.1 h with rfl | h
    · simp
    · have hlt := hs.1 i (List.mem_map_of_mem (f := Prod.fst) h)
      have hne : ¬ p.1 = i := by omega
      rw [List.find?_cons_of_neg (by simpa using hne)]
      exact ih hs.2 h

theorem mem_rows {t : Table α} {i : ℕ} {a : α} : (i, a) ∈ t.rows ↔ t.get i = some a := by
  constructor
  · intro h
    simp [get, find_eq_of_pairwise t.sorted h]
  · intro h
    simp only [get, Option.map_eq_some_iff] at h
    obtain ⟨⟨j, b⟩, hf, rfl⟩ := h
    have hj : j = i := by simpa using List.find?_some hf
    exact hj ▸ List.mem_of_find?_eq_some hf

instance (t : Table α) (p : ℕ → α → Prop) [∀ i a, Decidable (p i a)] : Decidable (∀ i a, t.get i = some a → p i a) :=
  decidable_of_iff (∀ q ∈ t.rows, p q.1 q.2)
    ⟨fun h i a hget => h (i, a) (mem_rows.2 hget), fun h q hq => h q.1 q.2 (mem_rows.1 hq)⟩

instance (t : Table α) (i : ℕ) (p : α → Prop) [∀ a, Decidable (p a)] : Decidable (∀ a, t.get i = some a → p a) :=
  match h : t.get i with
  | none => .isTrue fun _ ha => nomatch ha
  | some a => decidable_of_iff (p a) ⟨fun hp b hb => Option.some.inj hb ▸ hp, fun hp => hp a rfl⟩

theorem nodup_rows (t : Table α) : t.rows.Nodup :=
  List.Nodup.of_map Prod.fst (t.sorted.imp fun h => Nat.ne_of_lt h)

theorem get_lt {t : Table α} {i : ℕ} {a : α} (h : t.get i = some a) : i < t.next :=
  t.below i (List.mem_map_of_mem (f := Prod.fst) (mem_rows.2 h))

@[simp] theorem get_empty (i : ℕ) : (empty : Table α).get i = none := rfl

theorem get_next (t : Table α) : t.get t.next = none := by
  by_contra h
  obtain ⟨a, ha⟩ := Option.ne_none_iff_exists'.1 h
  exact absurd (get_lt ha) (lt_irrefl _)

@[simp] theorem next_insert (t : Table α) (a : α) : (t.insert a).next = t.next + 1 := rfl

@[simp] theorem next_update (t : Table α) (i : ℕ) (f : α → α) : (t.update i f).next = t.next := rfl

theorem get_insert (t : Table α) (a : α) (i : ℕ) :
    (t.insert a).get i = if i = t.next then some a else t.get i := by
  by_cases h : i = t.next
  · subst h
    rw [if_pos rfl, ← mem_rows]
    simp [insert]
  · rw [if_neg h]
    simp only [get, insert, List.find?_append]
    cases t.rows.find? fun p => p.1 == i with
    | some p => rfl
    | none =>
      have : ¬ t.next = i := fun e => h e.symm
      simp [this]

@[simp] theorem get_insert_next (t : Table α) (a : α) : (t.insert a).get t.next = some a := by
  rw [get_insert, if_pos rfl]

theorem get_insert_of_some {t : Table α} {i : ℕ} {a b : α} (h : t.get i = some a) : (t.insert b).get i = some a := by
  rw [get_insert, if_neg (Nat.ne_of_lt (get_lt h)), h]

theorem get_update (t : Table α) (i j : ℕ) (f : α → α) :
    (t.update i f).get j = if j = i then (t.get j).map f else t.get j := by
  simp only [get, update]
  induction t.rows with
  | nil => simp
  | cons p l ih =>
    by_cases hp : p.1 = j
    · by_cases hi : p.1 = i
      · have : j = i := hp ▸ hi
        simp [hp, this]
      · have : ¬ j = i := hp ▸ hi
        simp [hp, this]
    · by_cases hi : p.1 = i
      · have : ¬ i = j := hi ▸ hp
        simpa [hp, hi, this] using ih
      · simpa [hp, hi] using ih

theorem get_update_self (t : Table α) (i : ℕ) (f : α → α) : (t.update i f).get i = (t.get i).map f := by
  rw [get_update, if_pos rfl]

theorem get_update_of_ne (t : Table α) {i j : ℕ} (f : α → α) (h : j ≠ i) : (t.update i f).get j = t.get j := by
  rw [get_update, if_neg h]

/-- one update after another of the same row -/
theorem update_update (t : Table α) (i : ℕ) (f g : α → α) : (t.update i f).update i g = t.update i fun a => g (f a) := by
  have hrows : ((t.rows.map fun p => if p.1 = i then (p.1, f p.2) else p).map fun p => if p.1 = i then (p.1, g p.2) else p) =
      t.rows.map fun p => if p.1 = i then (p.1, g (f p.2)) else p := by
    rw [List.map_map]
    apply List.map_congr_left
    intro p _
    by_cases hi : p.1 = i
    · simp [hi]
    · simp [hi]
  simp only [update, hrows]

/-- an update only depends on what it does to the row -/
theorem update_congr {t : Table α} {i : ℕ} {f g : α → α} (h : ∀ a, t.get i = some a → f a = g a) :
    t.update i f = t.update i g := by
  have hrows : (t.rows.map fun p => if p.1 = i then (p.1, f p.2) else p) =
      t.rows.map fun p => if p.1 = i then (p.1, g p.2) else p := by
    apply List.map_congr_left
    intro p hp
    by_cases hi : p.1 = i
    · have hget : t.get i = some p.2 := mem_rows.1 (hi ▸ hp)
      simp [hi, h p.2 hget]
    · simp [hi]
  simp only [update, hrows]

/-- an update that keeps the row keeps the table -/
theorem update_eq_self {t : Table α} {i : ℕ} {f : α → α} (h : ∀ a, t.get i = some a → f a = a) : t.update i f = t := by
  have hrows : (t.rows.map fun p => if p.1 = i then (p.1, f p.2) else p) = t.rows := by
    conv_rhs => rw [← List.map_id t.rows]
    apply List.map_congr_left
    intro p hp
    by_cases hi : p.1 = i
    · have hget : t.get i = some p.2 := mem_rows.1 (hi ▸ hp)
      rw [if_pos hi, h p.2 hget]
      rfl
    · rw [if_neg hi]
      rfl
  cases t
  simpa only [update, mk.injEq, and_true] using hrows

/-- an update that keeps what is looked at -/
theorem map_rows_update {γ : Type*} {g : ℕ × α → γ} (t : Table α) {i : ℕ} {f : α → α} (h : ∀ a, g (i, f a) = g (i, a)) :
    (t.update i f).rows.map g = t.rows.map g := by
  simp only [update, List.map_map]
  apply List.map_congr_left
  intro p _
  obtain ⟨j, a⟩ := p
  by_cases hi : j = i
  · subst hi
    simp [h]
  · simp [hi]

@[simp] theorem next_delete (t : Table α) (p : ℕ → α → Bool) : (t.delete p).next = t.next := rfl

theorem get_delete (t : Table α) (p : ℕ → α → Bool) (i : ℕ) :
    (t.delete p).get i = (t.get i).filter fun a => !p i a := by
  refine Option.ext fun a => ?_
  rw [← mem_rows, Option.filter_eq_some_iff, ← mem_rows]
  simp [delete]

@[simp] theorem get_advance (t : Table α) (n i : ℕ) : (t.advance n).get i = t.get i := rfl

theorem advance_next (t : Table α) : t.advance t.next = t := by
  simp [advance]

/-- a stored row after a transaction: written if the transaction had loaded it -/
theorem get_merge {write : α → α → α → α} {loaded final stored : Table α} {i : ℕ} {c : α} (h : stored.get i = some c) :
    (merge write loaded final stored).get i = some (match loaded.get i, final.get i with
      | some a, some b => write a b c
      | _, _ => c) := by
  rw [← mem_rows]
  refine List.mem_append_left _ (List.mem_map.2 ⟨(i, c), mem_rows.2 h, rfl⟩)

/-- a row after a transaction that was not there before it -/
theorem get_merge_new {write : α → α → α → α} {loaded final stored : Table α} {i : ℕ} (h : stored.get i = none) :
    (merge write loaded final stored).get i = if stored.next ≤ i then final.get i else none := by
  refine Option.ext fun a => ?_
  rw [← mem_rows]
  have hold : ∀ b, (i, b) ∉ stored.rows := fun b hb => by simp [mem_rows.1 hb] at h
  have hnot : (i, a) ∉ stored.rows.map fun p => (p.1, match loaded.get p.1, final.get p.1 with
      | some a, some b => write a b p.2
      | _, _ => p.2) := by
    intro hmem
    obtain ⟨p, hp, heq⟩ := List.mem_map.1 hmem
    exact hold p.2 ((Prod.mk.inj heq).1 ▸ hp)
  unfold merge
  rw [List.mem_append, or_iff_right hnot, List.mem_filter, mem_rows]
  split
  · next hle => simp [hle]
  · next hle => simp [hle]

theorem mem_all {t : Table α} {p : α → Bool} {i : ℕ} {a : α} : (i, a) ∈ t.all p ↔ t.get i = some a ∧ p a = true := by
  simp [all, mem_rows]

/-- an update that keeps what the filter sees -/
theorem all_update {t : Table α} {p : α → Bool} {i : ℕ} {f : α → α} (h : ∀ a, t.get i = some a → p (f a) = p a) :
    (t.update i f).all p = (t.all p).map fun q => if q.1 = i then (q.1, f q.2) else q := by
  simp only [all, update, List.filter_map]
  congr 1
  apply List.filter_congr
  intro q hq
  by_cases hi : q.1 = i
  · have hget : t.get i = some q.2 := mem_rows.1 (hi ▸ hq)
    simp [hi, h q.2 hget]
  · simp [hi]

theorem first_some {t : Table α} {p : α → Bool} {i : ℕ} {a : α} (h : t.first p = some (i, a)) :
    t.get i = some a ∧ p a = true :=
  ⟨mem_rows.1 (List.mem_of_find?_eq_some h), by simpa using List.find?_some h⟩

theorem first_none {t : Table α} {p : α → Bool} : t.first p = none ↔ ∀ i a, t.get i = some a → p a = false := by
  simp [first, List.find?_eq_none, mem_rows]

end Table
