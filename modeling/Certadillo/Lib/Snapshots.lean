/-
Numbered copies of a set that only grows.

A publisher counts the copies it gives out. Whoever has one and takes only copies with a higher number never loses a member,
whatever is lost, repeated or reordered on the way.

- `Ordered.grow`, `Ordered.issue`: the publisher's two steps.
- `Ordered.mono`: of two copies the one with the higher number has every member of the other.
-/
import Mathlib.Data.Set.Insert

namespace Snapshots

/-- a copy of the set, with its number -/
structure Snapshot (α : Type*) where
  number : ℤ
  members : Set α

/-- what a publisher has given out, with its counter and the set now -/
structure Ordered {α : Type*} (number : ℤ) (members : Set α) (out : Set (Snapshot α)) : Prop where
  number_le : ∀ c ∈ out, c.number ≤ number
  subset : ∀ c ∈ out, c.members ⊆ members
  mono : ∀ c ∈ out, ∀ c' ∈ out, c.number < c'.number → c.members ⊆ c'.members

variable {α : Type*} {number : ℤ} {members members' : Set α} {out : Set (Snapshot α)}

theorem ordered_empty (number : ℤ) (members : Set α) : Ordered number members ∅ := ⟨nofun, nofun, nofun⟩

/-- the set grows -/
theorem Ordered.grow (h : Ordered number members out) (hsub : members ⊆ members') : Ordered number members' out where
  number_le := h.number_le
  subset c hc := (h.subset c hc).trans hsub
  mono := h.mono

/-- a copy is given out under the next number -/
theorem Ordered.issue (h : Ordered number members out) :
    Ordered (number + 1) members (insert ⟨number + 1, members⟩ out) where
  number_le := by
    intro c hc
    rcases hc with rfl | hc
    · exact le_rfl
    · have hle := h.number_le c hc
      omega
  subset := by
    intro c hc
    rcases hc with rfl | hc
    · exact subset_rfl
    · exact h.subset c hc
  mono := by
    intro c hc c' hc' hlt
    rcases hc with rfl | hc
    · rcases hc' with rfl | hc'
      · exact subset_rfl
      · -- the new copy has the highest number
        have hle := h.number_le c' hc'
        dsimp only at hlt
        omega
    · rcases hc' with rfl | hc'
      · exact h.subset c hc
      · exact h.mono c hc c' hc' hlt

end Snapshots
