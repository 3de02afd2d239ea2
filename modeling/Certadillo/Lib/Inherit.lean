/-
Settings inherited along a path of levels, from the top down: a level may set a value, and lock it. What came down locked
stands; else the level's own value stands; else what came down.

- `pass`, `resolve`: one level, and a whole path.
- `resolve_locked`: the topmost lock decides, whatever is set below it.
- `resolve_nearest`: where nothing is locked above, the last level that sets a value decides.
- `resolve_unset`: what no level sets has no value.
-/
import Mathlib.Tactic

namespace Inherit

variable {α : Type*} {locked : α → Bool}

/-- what a level passes on: what came down to it if that is locked, else its own, else what came down -/
def pass (locked : α → Bool) (above own : Option α) : Option α :=
  if above.any locked then above else own.or above

/-- what is left of a path of levels, the topmost first -/
def resolve (locked : α → Bool) (levels : List (Option α)) : Option α := levels.foldl (pass locked) none

@[simp] theorem pass_none (above : Option α) : pass locked above none = above := by
  simp [pass]

theorem pass_locked {a : α} (h : locked a = true) (own : Option α) : pass locked (some a) own = some a := by
  simp [pass, h]

theorem pass_open {above : Option α} (h : above.any locked = false) (a : α) : pass locked above (some a) = some a := by
  simp [pass, h]

/-- a lock stands all the way down -/
theorem foldl_locked {a : α} (h : locked a = true) (below : List (Option α)) :
    below.foldl (pass locked) (some a) = some a := by
  induction below with
  | nil => rfl
  | cons own below ih => rw [List.foldl_cons, pass_locked h, ih]

/-- levels that set nothing pass on what came down -/
theorem foldl_unset {below : List (Option α)} (h : ∀ own ∈ below, own = none) (above : Option α) :
    below.foldl (pass locked) above = above := by
  induction below with
  | nil => rfl
  | cons own below ih =>
    obtain ⟨rfl, hbelow⟩ := List.forall_mem_cons.1 h
    rw [List.foldl_cons, pass_none, ih hbelow]

/-- levels that lock nothing pass on nothing locked -/
theorem foldl_open {levels : List (Option α)} (h : ∀ own ∈ levels, own.any locked = false) {above : Option α}
    (habove : above.any locked = false) : (levels.foldl (pass locked) above).any locked = false := by
  induction levels generalizing above with
  | nil => exact habove
  | cons own levels ih =>
    obtain ⟨hown, hlevels⟩ := List.forall_mem_cons.1 h
    refine ih hlevels ?_
    cases own with
    | none => simpa using habove
    | some a => simpa [pass_open habove] using hown

theorem resolve_append (above : List (Option α)) (own : Option α) (below : List (Option α)) :
    resolve locked (above ++ own :: below) = below.foldl (pass locked) (pass locked (resolve locked above) own) := by
  simp [resolve]

/-- the topmost lock decides -/
theorem resolve_locked {above below : List (Option α)} {a : α} (ha : locked a = true)
    (habove : ∀ own ∈ above, own.any locked = false) : resolve locked (above ++ some a :: below) = some a := by
  have hopen : (resolve locked above).any locked = false := foldl_open habove rfl
  rw [resolve_append, pass_open hopen, foldl_locked ha]

/-- where nothing above is locked, the last level that sets a value decides -/
theorem resolve_nearest {above below : List (Option α)} {a : α} (habove : ∀ own ∈ above, own.any locked = false)
    (hbelow : ∀ own ∈ below, own = none) : resolve locked (above ++ some a :: below) = some a := by
  have hopen : (resolve locked above).any locked = false := foldl_open habove rfl
  rw [resolve_append, pass_open hopen, foldl_unset hbelow]

theorem resolve_unset {levels : List (Option α)} (h : ∀ own ∈ levels, own = none) : resolve locked levels = none :=
  foldl_unset h none

/-- what is left is something a level set -/
theorem resolve_mem {levels : List (Option α)} {a : α} (h : resolve locked levels = some a) : some a ∈ levels := by
  have hfold : ∀ above, levels.foldl (pass locked) above = some a → above = some a ∨ some a ∈ levels := by
    clear h
    induction levels with
    | nil => exact fun above h => Or.inl h
    | cons own levels ih =>
      intro above h
      rw [List.foldl_cons] at h
      rcases ih _ h with hpass | hmem
      · unfold pass at hpass
        split at hpass
        · exact Or.inl hpass
        · cases own with
          | none => exact Or.inl hpass
          | some b =>
            obtain rfl := Option.some.inj hpass
            exact Or.inr (by simp)
      · exact Or.inr (List.mem_cons_of_mem _ hmem)
  rcases hfold none h with hnone | hmem
  · cases hnone
  · exact hmem

end Inherit
