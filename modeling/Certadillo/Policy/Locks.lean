/-
Locks of the policy tree over whole runs.

- `Forest`: a table of folders whose parent links end, each with settings as `check_settings` stores them.
- `Line`: a folder's path from the root; `ancestors_line`: what `ancestors` returns.
- `effective_resolve`: the effective policy is the path's settings resolved level by level (`Inherit.resolve`).
- `Inherits`: the topmost lock decides, else the nearest folder that sets the setting; `inherits_of_forest`.
- `FolderEdit`, `applyPolicyChange_edit`, `FolderEdit.forest`: what an operation does to the folders, and that the forest
  stays one; `locks_hold`: after any sequence of operations.
-/
import Certadillo.Lib.Inherit
import Certadillo.Lib.Run
import Certadillo.Services.Effects

namespace Certadillo.Folders

open Policy Py Integrity

/-! ## The forest -/

/-- a value and whether it is locked, as one entry of a folder's settings holds them -/
def entryOf (spec : Json) : Option (Json × Bool) :=
  match spec with
  | .obj s => (s.lookup "value").map fun v => (v, truthy ((s.lookup "locked").getD .null))
  | _ => none

/-- what a folder itself sets -/
def ownSetting (f : PolicyFolder) (key : String) : Option (Json × Bool) :=
  match f.settings with
  | .obj kvs => (kvs.lookup key).bind entryOf
  | _ => none

/-- settings as they are stored: a dict of dicts with a value -/
def Proper (settings : Json) : Prop :=
  ∃ kvs, settings = .obj kvs ∧ (kvs.map Prod.fst).Nodup ∧ ∀ p ∈ kvs, ∃ s v, p.2 = .obj s ∧ s.lookup "value" = some v

/-- folders whose parents exist, whose parent links end, and whose settings are stored ones -/
structure Forest (t : Table PolicyFolder) : Prop where
  parents : ∀ i f p, t.get i = some f → f.parentId = some p → (t.get p).isSome
  ends : ∃ rank : ℕ → ℕ, ∀ i f j g, t.get i = some f → parentOf t f = some (j, g) → rank j < rank i
  proper : ∀ i f, t.get i = some f → Proper f.settings

theorem forest_empty : Forest .empty where
  parents := by simp
  ends := ⟨id, by simp⟩
  proper := by simp

/-- the kind of value each setting holds -/
def Checked (key : String) (v : Json) : Prop :=
  match key with
  | "allowed_profiles" | "allowed_zones" | "ec_curves" => ∃ xs, v = .ofStrs xs
  | "rsa_min_bits" | "max_validity_days" => ∃ n : ℤ, v = .num n ∧ 0 < n
  | "dual_control" => ∃ b, v = .bool b
  | _ => ∃ s, v = .str s

/-- every setting a folder holds is of its kind -/
def Stored (f : PolicyFolder) : Prop := ∀ key v locked, ownSetting f key = some (v, locked) → Checked key v

/-- the path of a folder: the root first, the folder last -/
inductive Line (t : Table PolicyFolder) : ℕ × PolicyFolder → List (ℕ × PolicyFolder) → Prop
  | root {x} : parentOf t x.2 = none → Line t x [x]
  | under {x y l} : parentOf t x.2 = some y → Line t y l → Line t x (l ++ [x])

section Line

variable {t : Table PolicyFolder} {x : ℕ × PolicyFolder} {line : List (ℕ × PolicyFolder)}

/-- the folders of a path are folders of the table, with distinct keys -/
theorem Line.folders {rank : ℕ → ℕ}
    (hrank : ∀ i f j g, t.get i = some f → parentOf t f = some (j, g) → rank j < rank i) (h : Line t x line)
    (hx : t.get x.1 = some x.2) :
    (∀ y ∈ line, t.get y.1 = some y.2 ∧ rank y.1 ≤ rank x.1) ∧ (line.map Prod.fst).Nodup := by
  induction h with
  | root _ => simp [hx]
  | @under x y l hparent _ ih =>
    have hy : t.get y.1 = some y.2 := parentOf_get hparent
    have hlt : rank y.1 < rank x.1 := hrank x.1 x.2 y.1 y.2 hx hparent
    obtain ⟨hin, hnodup⟩ := ih hy
    refine ⟨fun z hz => ?_, ?_⟩
    · rcases List.mem_append.1 hz with hz | hz
      · exact ⟨(hin z hz).1, le_trans (hin z hz).2 (le_of_lt hlt)⟩
      · obtain rfl := List.mem_singleton.1 hz
        exact ⟨hx, le_rfl⟩
    · rw [List.map_append, List.nodup_append]
      refine ⟨hnodup, by simp, fun i hi j hj => ?_⟩
      obtain ⟨z, hz, rfl⟩ := List.mem_map.1 hi
      obtain rfl : j = x.1 := by simpa using hj
      have hle := (hin z hz).2
      intro heq
      rw [heq] at hle
      omega

/-- every folder of a forest has a path -/
theorem Forest.exists_line (ht : Forest t) (hx : t.get x.1 = some x.2) : ∃ line, Line t x line := by
  obtain ⟨rank, hrank⟩ := ht.ends
  induction hn : rank x.1 using Nat.strong_induction_on generalizing x with
  | _ n ih =>
    cases hp : parentOf t x.2 with
    | none => exact ⟨[x], .root hp⟩
    | some y =>
      have hlt : rank y.1 < rank x.1 := hrank x.1 x.2 y.1 y.2 hx hp
      obtain ⟨line, hline⟩ := ih (rank y.1) (hn ▸ hlt) (parentOf_get hp) rfl
      exact ⟨line ++ [x], .under hp hline⟩

/-- the walk up a path that meets none of the keys seen returns it -/
theorem ancestorsFrom_line (h : Line t x line) : ∀ (n : ℕ) (seen : List ℕ), (line.map Prod.fst).Nodup →
    (∀ i ∈ line.map Prod.fst, i ∉ seen) → line.length ≤ n → ancestorsFrom t n seen (some x) = .ok line := by
  induction h with
  | @root x hparent =>
    intro n seen _ hseen hlen
    obtain ⟨n, rfl⟩ : ∃ m, n = m + 1 := ⟨n - 1, by simp at hlen; omega⟩
    have hx : x.1 ∉ seen := hseen x.1 (by simp)
    obtain ⟨i, f⟩ := x
    rw [ancestorsFrom, if_neg hx, hparent]
    cases n <;> rfl
  | @under x y l hparent _ ih =>
    intro n seen hnodup hseen hlen
    obtain ⟨n, rfl⟩ : ∃ m, n = m + 1 := ⟨n - 1, by simp at hlen; omega⟩
    rw [List.map_append, List.nodup_append] at hnodup
    have hx : x.1 ∉ seen := hseen x.1 (by simp)
    have hup := ih n (x.1 :: seen) hnodup.1
      (fun i hi hmem => by
        rcases List.mem_cons.1 hmem with rfl | hmem
        · exact hnodup.2.2 _ hi _ (by simp) rfl
        · exact hseen i (by rw [List.map_append]; exact List.mem_append_left _ hi) hmem)
      (by simp at hlen; omega)
    obtain ⟨i, f⟩ := x
    rw [ancestorsFrom, if_neg hx, hparent, hup]
    rfl

/-- `ancestors` returns the path -/
theorem Forest.ancestors_line (ht : Forest t) (hx : t.get x.1 = some x.2) (h : Line t x line) :
    ancestors t (some x) = .ok line := by
  obtain ⟨rank, hrank⟩ := ht.ends
  obtain ⟨hin, hnodup⟩ := h.folders hrank hx
  refine ancestorsFrom_line h _ [] hnodup (by simp) ?_
  have hsub : line.map Prod.fst ⊆ t.rows.map Prod.fst := by
    intro i hi
    obtain ⟨y, hy, rfl⟩ := List.mem_map.1 hi
    exact List.mem_map_of_mem (f := Prod.fst) (Table.mem_rows.2 (hin y hy).1)
  have hlen : (line.map Prod.fst).length ≤ (t.rows.map Prod.fst).length := (hnodup.subperm hsub).length_le
  simp only [List.length_map] at hlen
  omega

/-- every folder of a forest has a path text -/
theorem Forest.path_ok (ht : Forest t) (hx : t.get x.1 = some x.2) : ∃ where_, path t (some x) = .ok where_ := by
  obtain ⟨line, hline⟩ := ht.exists_line hx
  refine ⟨"\\" ++ join "\\" (line.map (·.2.name)), ?_⟩
  show (ancestors t (some x) >>= fun chain => pure ("\\" ++ join "\\" (chain.map (·.2.name)))) = _
  rw [ht.ancestors_line hx hline]
  rfl

end Line

/-! ## The effective policy, level by level -/

/-- what a folder with the path text `where_` puts into the effective policy for a setting -/
def level (where_ : String) (f : PolicyFolder) (key : String) : Option Setting :=
  (ownSetting f key).map fun own => ⟨own.1, own.2, where_⟩

/-- one folder's settings over what came down to it, setting by setting -/
theorem mergeItems_pass (where_ : String) (items : List (String × Json)) : ∀ (out : Eff), (items.map Prod.fst).Nodup →
    (∀ p ∈ items, ∃ s v, p.2 = .obj s ∧ s.lookup "value" = some v) → ∃ out', mergeItems (.ok where_) items out = .ok out' ∧
      ∀ key, out'.lookup key = Inherit.pass Setting.locked (out.lookup key)
        (((items.lookup key).bind entryOf).map fun own => ⟨own.1, own.2, where_⟩) := by
  induction items with
  | nil =>
    intro out _ _
    exact ⟨out, rfl, fun key => by simp⟩
  | cons p items ih =>
    intro out hnodup hvals
    obtain ⟨k, spec⟩ := p
    obtain ⟨⟨s, v, hs, hv⟩, hrest⟩ := List.forall_mem_cons.1 hvals
    dsimp only at hs
    subst hs
    have hnotin : k ∉ items.map Prod.fst := (List.nodup_cons.1 hnodup).1
    have hnone : items.lookup k = none := List.lookup_eq_none_iff.2 fun p hp => by
      have hne : ¬ k = p.1 := fun e => hnotin (e ▸ List.mem_map_of_mem (f := Prod.fst) hp)
      simpa using hne
    have hentry : entryOf (.obj s) = some (v, truthy ((s.lookup "locked").getD .null)) := by
      simp [entryOf, hv]
    unfold mergeItems
    by_cases hlock : (out.lookup k).any Setting.locked = true
    · -- what came down is locked
      have hget : ((out.lookup k).map (·.locked)).getD false = true := by
        cases ho : out.lookup k with
        | none => simp [ho] at hlock
        | some a => simpa [ho] using hlock
      rw [if_pos hget]
      obtain ⟨out', hrun, hkeys⟩ := ih out (List.nodup_cons.1 hnodup).2 hrest
      refine ⟨out', hrun, fun key => ?_⟩
      rw [hkeys key]
      by_cases hk : key = k
      · subst hk
        simp [Inherit.pass, hlock]
      · have hne : (key == k) = false := by simpa using hk
        simp [List.lookup_cons, hne]
    · have hget : ¬ ((out.lookup k).map (·.locked)).getD false = true := by
        cases ho : out.lookup k with
        | none => simp
        | some a => simpa [ho] using hlock
      rw [if_neg hget]
      have hitem : item (.obj s) "value" = .ok v := by simp [item, hv]
      rw [hitem, except_ok_bind]
      obtain ⟨out', hrun, hkeys⟩ := ih (setItem out k ⟨v, truthy ((s.lookup "locked").getD .null), where_⟩)
        (List.nodup_cons.1 hnodup).2 hrest
      refine ⟨out', hrun, fun key => ?_⟩
      rw [hkeys key, lookup_setItem]
      by_cases hk : key = k
      · subst hk
        have hopen : (out.lookup key).any Setting.locked = false := by simpa using hlock
        simp [hnone, hentry, Inherit.pass_open hopen]
      · have hne : (key == k) = false := by simpa using hk
        simp [List.lookup_cons, hne, hk]

/-- the text of a folder's path -/
def pathText (t : Table PolicyFolder) (x : ℕ × PolicyFolder) : String := (path t (some x)).toOption.getD ""

/-- the settings of the folders of a path, each over what came down to it -/
theorem mergeFolders_resolve {t : Table PolicyFolder} (ht : Forest t) (line : List (ℕ × PolicyFolder)) :
    ∀ (out : Eff), (∀ y ∈ line, t.get y.1 = some y.2) → ∃ out', mergeFolders t line out = .ok out' ∧
      ∀ key, out'.lookup key =
        (line.map fun y => level (pathText t y) y.2 key).foldl (Inherit.pass Setting.locked) (out.lookup key) := by
  induction line with
  | nil =>
    intro out _
    exact ⟨out, rfl, fun key => rfl⟩
  | cons y line ih =>
    intro out hin
    obtain ⟨hy, hline⟩ := List.forall_mem_cons.1 hin
    obtain ⟨kvs, hset, hnodup, hvals⟩ := ht.proper y.1 y.2 hy
    obtain ⟨where_, hpath⟩ := ht.path_ok hy
    have htext : pathText t y = where_ := by
      unfold pathText
      rw [hpath]
      rfl
    obtain ⟨out₁, hitems, hkeys₁⟩ := mergeItems_pass where_ kvs out hnodup hvals
    obtain ⟨out', hrun, hkeys⟩ := ih out₁ hline
    refine ⟨out', ?_, fun key => ?_⟩
    · unfold mergeFolders
      rw [hset]
      show (mergeItems (path t (some y)) kvs out >>= fun out => mergeFolders t line out) = _
      rw [hpath, hitems]
      exact hrun
    · rw [hkeys key, hkeys₁ key, List.map_cons, List.foldl_cons]
      simp only [level, ownSetting, hset, htext]

/-- The effective policy at a folder of a forest is the settings on its path, resolved from the root down. -/
theorem effective_resolve {t : Table PolicyFolder} (ht : Forest t) {i : ℕ} {f : PolicyFolder} (hf : t.get i = some f)
    {line : List (ℕ × PolicyFolder)} (hline : Line t (i, f) line) : ∃ eff, effective t (some i) = .ok eff ∧
      ∀ key, eff.lookup key = Inherit.resolve Setting.locked (line.map fun y => level (pathText t y) y.2 key) := by
  obtain ⟨rank, hrank⟩ := ht.ends
  obtain ⟨eff, hmerge, hkeys⟩ := mergeFolders_resolve ht line [] fun y hy => ((hline.folders hrank hf).1 y hy).1
  refine ⟨eff, ?_, hkeys⟩
  have hchain : chain t (some i) = .ok line := by
    show ancestors t ((t.get i).map (i, ·)) = _
    rw [hf]
    exact ht.ancestors_line hf hline
  unfold effective
  rw [hchain]
  exact hmerge

/-! ## Locks and nearest values -/

/-- a folder locks a setting -/
def Locks (f : PolicyFolder) (key : String) : Prop := ∃ v, ownSetting f key = some (v, true)

/-- What a path of folders must give for a setting: the value of the topmost folder that locks it, whatever is set below;
if none locks it, the value of the nearest folder that sets it; if none sets it, nothing. -/
structure Inherits (t : Table PolicyFolder) (line : List (ℕ × PolicyFolder)) (key : String) (got : Option Setting) :
    Prop where
  locked : ∀ above x below v, line = above ++ x :: below → ownSetting x.2 key = some (v, true) →
    (∀ y ∈ above, ¬ Locks y.2 key) → ∃ where_, path t (some x) = .ok where_ ∧ got = some ⟨v, true, where_⟩
  nearest : (∀ y ∈ line, ¬ Locks y.2 key) → ∀ above x below v, line = above ++ x :: below →
    ownSetting x.2 key = some (v, false) → (∀ y ∈ below, ownSetting y.2 key = none) →
    ∃ where_, path t (some x) = .ok where_ ∧ got = some ⟨v, false, where_⟩
  unset : (∀ y ∈ line, ownSetting y.2 key = none) → got = none

theorem level_open {where_ : String} {f : PolicyFolder} {key : String} (h : ¬ Locks f key) :
    (level where_ f key).any Setting.locked = false := by
  unfold level
  cases hown : ownSetting f key with
  | none => rfl
  | some own =>
    obtain ⟨v, locked⟩ := own
    cases locked with
    | false => rfl
    | true => exact absurd ⟨v, hown⟩ h

/-- what the levels of a path resolve to is what the path must give -/
theorem inherits_resolve {t : Table PolicyFolder} (ht : Forest t) {line : List (ℕ × PolicyFolder)}
    (hin : ∀ y ∈ line, t.get y.1 = some y.2) (key : String) :
    Inherits t line key (Inherit.resolve Setting.locked (line.map fun y => level (pathText t y) y.2 key)) := by
  have hopen : ∀ ys : List (ℕ × PolicyFolder), (∀ y ∈ ys, ¬ Locks y.2 key) →
      ∀ own ∈ ys.map fun y => level (pathText t y) y.2 key, own.any Setting.locked = false := by
    intro ys hys own hown
    obtain ⟨y, hy, rfl⟩ := List.mem_map.1 hown
    exact level_open (hys y hy)
  have hunset : ∀ ys : List (ℕ × PolicyFolder), (∀ y ∈ ys, ownSetting y.2 key = none) →
      ∀ own ∈ ys.map fun y => level (pathText t y) y.2 key, own = none := by
    intro ys hys own hown
    obtain ⟨y, hy, rfl⟩ := List.mem_map.1 hown
    simp [level, hys y hy]
  have hpath : ∀ x ∈ line, path t (some x) = .ok (pathText t x) := by
    intro x hx
    obtain ⟨where_, hwhere⟩ := ht.path_ok (hin x hx)
    unfold pathText
    rw [hwhere]
    rfl
  constructor
  · intro above x below v hsplit hown habove
    refine ⟨pathText t x, hpath x (by simp [hsplit]), ?_⟩
    have hlevel : level (pathText t x) x.2 key = some ⟨v, true, pathText t x⟩ := by simp [level, hown]
    rw [hsplit, List.map_append, List.map_cons, hlevel]
    exact Inherit.resolve_locked rfl (hopen above habove)
  · intro hnone above x below v hsplit hown hbelow
    refine ⟨pathText t x, hpath x (by simp [hsplit]), ?_⟩
    have hlevel : level (pathText t x) x.2 key = some ⟨v, false, pathText t x⟩ := by simp [level, hown]
    rw [hsplit, List.map_append, List.map_cons, hlevel]
    exact Inherit.resolve_nearest (hopen above fun y hy => hnone y (by rw [hsplit]; exact List.mem_append_left _ hy))
      (hunset below hbelow)
  · intro hnone
    exact Inherit.resolve_unset (hunset line hnone)

/-- every folder of a forest inherits along its path -/
theorem Forest.inherits {t : Table PolicyFolder} (ht : Forest t) {i : ℕ} {f : PolicyFolder} (hf : t.get i = some f) :
    ∃ line eff, Line t (i, f) line ∧ effective t (some i) = .ok eff ∧ ∀ key, Inherits t line key (eff.lookup key) := by
  obtain ⟨line, hline⟩ := ht.exists_line (x := (i, f)) hf
  obtain ⟨eff, heff, hkeys⟩ := effective_resolve ht hf hline
  obtain ⟨rank, hrank⟩ := ht.ends
  refine ⟨line, eff, hline, heff, fun key => ?_⟩
  rw [hkeys key]
  exact inherits_resolve ht (fun y hy => ((hline.folders hrank hf).1 y hy).1) key

/-! ## Operations -/

/-- what an operation does to the table of folders: nothing, a new folder under one that is there, or new settings -/
inductive FolderEdit (t : Table PolicyFolder) : Table PolicyFolder → Prop
  | same : FolderEdit t t
  | created (f : PolicyFolder) (hparent : ∀ p, f.parentId = some p → (t.get p).isSome) (hset : Proper f.settings)
      (hstored : Stored f) : FolderEdit t (t.insert f)
  | updated (i : ℕ) (g : PolicyFolder → PolicyFolder)
      (h : ∀ f, (g f).parentId = f.parentId ∧ Proper (g f).settings ∧ Stored (g f)) : FolderEdit t (t.update i g)

/-- the parent of a folder is looked up by its key -/
theorem parentOf_some {t : Table PolicyFolder} {f : PolicyFolder} {y : ℕ × PolicyFolder} :
    parentOf t f = some y ↔ f.parentId = some y.1 ∧ y.1 ≠ 0 ∧ t.get y.1 = some y.2 := by
  unfold parentOf
  cases hp : f.parentId with
  | none => simp
  | some p =>
    obtain ⟨j, g⟩ := y
    dsimp only
    split
    · next h0 =>
      subst h0
      simp only [Option.some.injEq, reduceCtorEq, false_iff, not_and]
      exact fun h hne => absurd h.symm hne
    · next h0 =>
      simp only [Option.map_eq_some_iff, Prod.mk.injEq, Option.some.injEq]
      constructor
      · rintro ⟨g', hg, rfl, rfl⟩
        exact ⟨rfl, h0, hg⟩
      · rintro ⟨rfl, -, hg⟩
        exact ⟨g, hg, rfl, rfl⟩

/-- the operations keep the forest one -/
theorem FolderEdit.forest {t t' : Table PolicyFolder} (h : FolderEdit t t') (ht : Forest t) : Forest t' := by
  cases h with
  | same => exact ht
  | created f hparent hset _ =>
    have hold : ∀ p, (t.get p).isSome → ((t.insert f).get p).isSome := by
      intro p hp
      obtain ⟨g, hg⟩ := Option.isSome_iff_exists.1 hp
      rw [Table.get_insert_of_some hg]
      rfl
    obtain ⟨rank, hrank⟩ := ht.ends
    refine ⟨fun i g p hget hp => ?_, ?_, fun i g hget => ?_⟩
    · rw [Table.get_insert] at hget
      split at hget
      · obtain rfl := Option.some.inj hget
        exact hold p (hparent p hp)
      · exact hold p (ht.parents i g p hget hp)
    · -- the new folder ranks above the parent it names
      refine ⟨fun i => if i = t.next then rank (f.parentId.getD 0) + 1 else rank i, fun i g j g' hget hp => ?_⟩
      rw [Table.get_insert] at hget
      obtain ⟨hid, h0, hj⟩ := parentOf_some.1 hp
      dsimp only at hid h0 hj
      split at hget
      · next hi =>
        obtain rfl := Option.some.inj hget
        obtain ⟨g₀, hg₀⟩ := Option.isSome_iff_exists.1 (hparent j hid)
        have hne : j ≠ t.next := Nat.ne_of_lt (Table.get_lt hg₀)
        simp [hi, hne, hid]
      · next hi =>
        obtain ⟨g₀, hg₀⟩ := Option.isSome_iff_exists.1 (ht.parents i g j hget hid)
        have hne : j ≠ t.next := Nat.ne_of_lt (Table.get_lt hg₀)
        simp only [if_neg hi, if_neg hne]
        exact hrank i g j g₀ hget (parentOf_some.2 ⟨hid, h0, hg₀⟩)
    · rw [Table.get_insert] at hget
      split at hget
      · obtain rfl := Option.some.inj hget
        exact hset
      · exact ht.proper i g hget
  | updated i g hg =>
    -- the folder under a key before, and what it was
    have hback : ∀ j f, (t.update i g).get j = some f →
        ∃ f₀, t.get j = some f₀ ∧ f.parentId = f₀.parentId ∧ (Proper f₀.settings → Proper f.settings) := by
      intro j f hget
      rw [Table.get_update] at hget
      split at hget
      · obtain ⟨f₀, hf₀, rfl⟩ := Option.map_eq_some_iff.1 hget
        exact ⟨f₀, hf₀, (hg f₀).1, fun _ => (hg f₀).2.1⟩
      · exact ⟨f, hget, rfl, id⟩
    obtain ⟨rank, hrank⟩ := ht.ends
    refine ⟨fun j f p hget hp => ?_, ⟨rank, fun j f k f' hget hp => ?_⟩, fun j f hget => ?_⟩
    · obtain ⟨f₀, hf₀, hid, -⟩ := hback j f hget
      obtain ⟨g₀, hg₀⟩ := Option.isSome_iff_exists.1 (ht.parents j f₀ p hf₀ (hid ▸ hp))
      rw [Table.get_update]
      split
      · simp [hg₀]
      · simp [hg₀]
    · obtain ⟨f₀, hf₀, hid, -⟩ := hback j f hget
      obtain ⟨hp, h0, hk⟩ := parentOf_some.1 hp
      obtain ⟨k₀, hk₀, -, -⟩ := hback k f' hk
      exact hrank j f₀ k k₀ hf₀ (parentOf_some.2 ⟨hid ▸ hp, h0, hk₀⟩)
    · obtain ⟨f₀, hf₀, -, hset⟩ := hback j f hget
      exact hset (ht.proper j f₀ hf₀)

/-- the operations keep every setting of its kind -/
theorem FolderEdit.stored {t t' : Table PolicyFolder} (h : FolderEdit t t') (ht : ∀ i f, t.get i = some f → Stored f) :
    ∀ i f, t'.get i = some f → Stored f := by
  intro i f hget
  cases h with
  | same => exact ht i f hget
  | created f₀ _ _ hstored =>
    rw [Table.get_insert] at hget
    split at hget
    · obtain rfl := Option.some.inj hget
      exact hstored
    · exact ht i f hget
  | updated j g hg =>
    rw [Table.get_update] at hget
    split at hget
    · obtain ⟨f₀, -, rfl⟩ := Option.map_eq_some_iff.1 hget
      exact (hg f₀).2.2
    · exact ht i f hget

/-- the settings of an operation are a dict, so no key stands in them twice -/
def DictSettings : Platform.PolicyOp → Prop
  | .createFolder _ _ settings => ∀ kvs, settings = .obj kvs → (kvs.map Prod.fst).Nodup
  | .updateFolder _ settings => ∀ kvs, settings = .obj kvs → (kvs.map Prod.fst).Nodup
  | .moveApp _ _ => True

theorem listOfStr_ok {v : Json} {xs : List String} (h : listOfStr v = .ok xs) : v = .ofStrs xs := by
  cases v with
  | arr js =>
    refine congrArg Json.arr ?_
    unfold listOfStr at h
    dsimp only at h
    induction js generalizing xs with
    | nil =>
      obtain rfl := except_pure_ok.1 h
      rfl
    | cons j js ih =>
      rw [List.mapM_cons] at h
      obtain ⟨x, hx, h⟩ := except_bind_ok.1 h
      obtain ⟨ys, hys, h⟩ := except_bind_ok.1 h
      obtain rfl := except_pure_ok.1 h
      rw [List.map_cons, ← ih hys]
      cases j with
      | str s =>
        dsimp only at hx
        split at hx
        · cases hx
        · cases hx
          rfl
      | _ => cases hx
  | _ => cases h

theorem posInt_ok {v w : Json} (h : posInt v = .ok w) : ∃ n : ℤ, w = .num n ∧ 0 < n := by
  cases v with
  | num n =>
    unfold posInt at h
    dsimp only at h
    split at h
    · cases h
    · next hn =>
      cases h
      exact ⟨n, rfl, not_le.1 hn⟩
  | _ => cases h

theorem boolOnly_ok {v w : Json} (h : boolOnly v = .ok w) : ∃ b, w = .bool b := by
  cases v with
  | bool b =>
    cases h
    exact ⟨b, rfl⟩
  | _ => cases h

theorem caName_ok {v w : Json} (h : caName v = .ok w) : ∃ s, w = .str s := by
  cases v with
  | str s =>
    unfold caName at h
    dsimp only at h
    split at h
    · cases h
    · cases h
      exact ⟨s, rfl⟩
  | _ => cases h

theorem curves_ok {v w : Json} (h : curves v = .ok w) : ∃ xs, w = .ofStrs xs := by
  unfold curves at h
  obtain ⟨xs, hxs, h⟩ := except_bind_ok.1 h
  dsimp only at h
  split at h
  · obtain rfl := except_pure_ok.1 h
    exact ⟨xs, listOfStr_ok hxs⟩
  · cases h

/-- a validator of the schema returns a value of its kind -/
theorem schema_checked {lower : Chars → Chars} {key : String} {check : Json → Except Err Json} {raw v : Json}
    (hkey : (settingSchema lower).lookup key = some check) (h : under key (check raw) = .ok v) : Checked key v := by
  have hv : check raw = .ok v := by
    cases hc : check raw with
    | ok w => rwa [hc] at h
    | error e =>
      rw [hc] at h
      cases e <;> cases h
  have hmem : (key, check) ∈ settingSchema lower := by
    obtain ⟨l₁, l₂, hl, -⟩ := List.lookup_eq_some_iff.1 hkey
    simp [hl]
  simp only [settingSchema, List.mem_cons, Prod.mk.injEq, List.not_mem_nil, or_false] at hmem
  rcases hmem with ⟨rfl, rfl⟩ | ⟨rfl, rfl⟩ | ⟨rfl, rfl⟩ | ⟨rfl, rfl⟩ | ⟨rfl, rfl⟩ | ⟨rfl, rfl⟩ | ⟨rfl, rfl⟩ | ⟨rfl, rfl⟩
  · -- allowed_profiles
    obtain ⟨xs, hxs, hv⟩ := except_bind_ok.1 hv
    obtain rfl := except_pure_ok.1 hv
    exact ⟨xs, listOfStr_ok hxs⟩
  · -- allowed_zones
    obtain ⟨xs, -, hv⟩ := except_bind_ok.1 hv
    obtain ⟨_, -, hv⟩ := except_bind_ok.1 hv
    exact ⟨_, (except_pure_ok.1 hv).symm⟩
  · exact posInt_ok hv
  · exact curves_ok hv
  · exact posInt_ok hv
  · exact caName_ok hv
  · exact boolOnly_ok hv
  · exact caName_ok hv

/-- what `check_setting` stores of one setting -/
theorem checkSetting_entry {env : Env} {d : Db} {inherited : Eff} {key : String} {spec out : Json}
    (h : checkSetting env d inherited key spec = .ok out) :
    ∃ v b, out = .obj [("value", v), ("locked", .bool b)] ∧ Checked key v := by
  unfold checkSetting at h
  split at h
  · cases h
  next check hcheck =>
  extract_lets -underBinder valueOf at h
  clear_value valueOf
  split at h
  · cases h
  next raw =>
  split at h
  · cases h
  obtain ⟨value, hvalue, h⟩ := except_bind_ok.1 h
  extract_lets -underBinder name issuer at h
  obtain ⟨u, h⟩ : ∃ u, issuer u = .ok out := by
    split at h
    · obtain ⟨u, -, h⟩ := except_bind_ok.1 h
      exact ⟨u, h⟩
    · exact ⟨(), h⟩
  dsimp -zeta only [issuer] at h
  extract_lets -underBinder tail at h
  obtain ⟨u', h⟩ : ∃ u, tail u = .ok out := by
    split at h
    · obtain ⟨u', -, h⟩ := except_bind_ok.1 h
      exact ⟨u', h⟩
    · exact ⟨(), h⟩
  obtain ⟨locked, -, h⟩ := except_bind_ok.1 h
  exact ⟨value, truthy locked, (except_pure_ok.1 h).symm, schema_checked hcheck hvalue⟩

/-- what `check_settings` returns can be stored -/
theorem checkSettings_proper {env : Env} {d : Db} {parentId : Option ℕ} {settings out : Json}
    (hdict : ∀ kvs, settings = .obj kvs → (kvs.map Prod.fst).Nodup)
    (h : checkSettings env d parentId settings = .ok out) :
    Proper out ∧ ∀ f : PolicyFolder, f.settings = out → Stored f := by
  unfold checkSettings at h
  cases settings with
  | obj kvs =>
    dsimp only at h
    obtain ⟨inherited, -, h⟩ := except_bind_ok.1 h
    obtain ⟨entries, hentries, h⟩ := except_bind_ok.1 h
    obtain rfl := except_pure_ok.1 h
    have hkeys : ∀ (kvs entries : List (String × Json)), (kvs.mapM fun p => do
        pure (p.1, ← checkSetting env d inherited p.1 p.2)) = .ok entries →
        entries.map Prod.fst = kvs.map Prod.fst := by
      intro kvs
      induction kvs with
      | nil =>
        intro entries h
        obtain rfl := except_pure_ok.1 h
        rfl
      | cons p kvs ih =>
        intro entries h
        rw [List.mapM_cons] at h
        obtain ⟨q, hq, h⟩ := except_bind_ok.1 h
        obtain ⟨qs, hqs, h⟩ := except_bind_ok.1 h
        obtain ⟨v, -, hq⟩ := except_bind_ok.1 hq
        obtain rfl := except_pure_ok.1 h
        obtain rfl := except_pure_ok.1 hq
        rw [List.map_cons, List.map_cons, ih qs hqs]
    have hentry : ∀ p ∈ entries, ∃ v b, p.2 = .obj [("value", v), ("locked", .bool b)] ∧ Checked p.1 v := by
      intro p hp
      obtain ⟨q, -, hq⟩ := (except_mapM_mem hentries).1 hp
      obtain ⟨spec, hspec, hq⟩ := except_bind_ok.1 hq
      obtain rfl := except_pure_ok.1 hq
      exact checkSetting_entry hspec
    refine ⟨⟨entries, rfl, ?_, fun p hp => ?_⟩, fun f hf key v locked hown => ?_⟩
    · rw [hkeys kvs entries hentries]
      exact hdict kvs rfl
    · obtain ⟨v, b, hp, -⟩ := hentry p hp
      exact ⟨_, v, hp, rfl⟩
    · unfold ownSetting at hown
      rw [hf] at hown
      obtain ⟨spec, hspec, hown⟩ := Option.bind_eq_some_iff.1 hown
      obtain ⟨l₁, l₂, hl, -⟩ := List.lookup_eq_some_iff.1 hspec
      obtain ⟨w, b, hspec', hchecked⟩ := hentry (key, spec) (by simp [hl])
      dsimp only at hspec'
      subst hspec'
      cases hown
      exact hchecked
  | _ => cases h

/-! ## Runs -/

section Runs

open Tx (CalmAt calmAt_bind calmAt_get_bind calmAt_ofExcept_bind calmAt_modify calm_pure calm_throw)

/-- an operation, as it is applied at once or by an approval -/
structure Change where
  env : Env
  who : String
  op : Platform.PolicyOp
  dict : DictSettings op

def applyChange (d : Db) (c : Change) : Db := (Tx.transact (Platform.applyPolicyChange c.env c.who c.op false) d).2

/-- the folders change by an operation -/
abbrev Edited (d d' : Db) : Prop := FolderEdit d.folders d'.folders

theorem calmAt_record {s : Session Db} (env : Env) (who action target : String) (details : List (String × Json)) :
    CalmAt Edited s (record env who action target details) := calmAt_modify .same

/-- the hook writes no column of a folder but the seal -/
theorem inserted_folder (st : SealState) (f : PolicyFolder) : ∃ x, inserted st f = { f with sealHex := x } := by
  rcases inserted_eq st f with h | ⟨x, h⟩
  · exact ⟨f.sealHex, h⟩
  · exact ⟨x, h⟩

theorem flushed_folder (st : SealState) (old new : PolicyFolder) :
    ∃ x, flushed st old new = { new with sealHex := x } := by
  rcases flushed_eq st old new with h | ⟨x, h⟩
  · exact ⟨new.sealHex, h⟩
  · exact ⟨x, h⟩

theorem orEmpty_dict {settings : Json} (h : ∀ kvs, settings = .obj kvs → (kvs.map Prod.fst).Nodup) :
    ∀ kvs, Platform.orEmpty settings = .obj kvs → (kvs.map Prod.fst).Nodup := by
  intro kvs hkvs
  unfold Platform.orEmpty at hkvs
  split at hkvs
  · exact h kvs hkvs
  · cases hkvs
    simp

theorem intactFolder_get {env : Env} {d : Db} {fid : ℕ} {f : ℕ × PolicyFolder}
    (h : Platform.intactFolder env d fid = .ok f) : f.1 = fid ∧ d.folders.get fid = some f.2 := by
  unfold Platform.intactFolder getFolder at h
  cases hf : d.folders.get fid with
  | none =>
    rw [hf] at h
    cases h
  | some g =>
    rw [hf] at h
    dsimp only [Option.map_some] at h
    obtain ⟨chain, -, h⟩ := except_bind_ok.1 h
    split at h
    · obtain rfl := except_pure_ok.1 h
      exact ⟨rfl, rfl⟩
    · cases h

/-- **An operation on the tree**: it adds a folder under one that is there, or replaces a folder's settings by checked
ones, or leaves the folders alone. -/
theorem applyPolicyChange_edit {env : Env} {who : String} {op : Platform.PolicyOp} {s : Session Db}
    (hdict : DictSettings op) : CalmAt Edited s (Platform.applyPolicyChange env who op false) := by
  unfold Platform.applyPolicyChange
  refine calmAt_get_bind ?_
  cases op with
  | createFolder name parentId settings =>
    refine calmAt_ofExcept_bind fun name _ => ?_
    extract_lets -underBinder rest
    have hrest : (∀ p, parentId = some p → (s.work.folders.get p).isSome) → CalmAt Edited s (rest ()) := by
      intro hparent
      dsimp only [rest]
      split
      · exact calm_throw _ s
      refine calmAt_ofExcept_bind fun settings hset => ?_
      rw [if_neg (by simp)]
      obtain ⟨hproper, hstored⟩ := checkSettings_proper (orEmpty_dict hdict) hset
      refine calmAt_bind ?_ fun id s' _ => calmAt_get_bind <| calmAt_ofExcept_bind fun path _ =>
        calmAt_bind (calmAt_record _ _ _ _ _) fun _ s' _ => calm_pure _ s'
      obtain ⟨x, hseal⟩ := inserted_folder env.st ⟨name, parentId, settings, who, none⟩
      refine calmAt_get_bind (calmAt_bind (calmAt_modify ?_) fun _ s' _ => calm_pure _ s')
      refine FolderEdit.created _ ?_ ?_ ?_
      · rw [hseal]
        exact hparent
      · rw [hseal]
        exact hproper
      · rw [hseal]
        exact hstored _ rfl
    cases parentId with
    | none => exact hrest (by simp)
    | some pid =>
      refine calmAt_ofExcept_bind fun f hf => hrest fun p hp => ?_
      obtain rfl := Option.some.inj hp
      rw [(intactFolder_get hf).2]
      rfl
  | updateFolder folderId settings =>
    refine calmAt_ofExcept_bind fun f hf => calmAt_ofExcept_bind fun settings hset => ?_
    obtain ⟨hproper, hstored⟩ := checkSettings_proper (orEmpty_dict hdict) hset
    rw [if_neg (by simp)]
    refine calmAt_bind (calmAt_modify ?_) fun _ s' _ => calmAt_get_bind <| calmAt_ofExcept_bind fun path _ =>
      calmAt_bind (calmAt_record _ _ _ _ _) fun _ s' _ => calm_pure _ s'
    refine FolderEdit.updated (t := s.work.folders) f.1 (fun a => flushed env.st a { a with settings := settings })
      fun g => ?_
    obtain ⟨x, hseal⟩ := flushed_folder env.st g { g with settings := settings }
    rw [hseal]
    exact ⟨rfl, hproper, hstored _ rfl⟩
  | moveApp appId folderId =>
    dsimp only
    split
    · exact calm_throw _ s
    next app happ =>
    split
    · exact calm_throw _ s
    cases folderId
    case' some fid => refine calmAt_ofExcept_bind fun _ _ => ?_
    all_goals
      refine calmAt_ofExcept_bind fun eff _ => calmAt_ofExcept_bind fun _ _ => ?_
      rw [if_neg (by simp)]
      refine calmAt_ofExcept_bind fun src _ => calmAt_bind (calmAt_modify .same) fun _ s' _ => ?_
      exact calmAt_ofExcept_bind fun dst _ => calmAt_bind (calmAt_record _ _ _ _ _) fun _ s' _ => calm_pure _ s'

/-- one operation keeps the forest one -/
theorem applyChange_forest (d : Db) (c : Change) (h : Forest d.folders) : Forest (applyChange d c).folders :=
  Tx.reaches_inv (I := fun d : Db => Forest d.folders) (fun _ _ hedit ht => hedit.forest ht)
    (Tx.transact_doesAt (applyPolicyChange_edit c.dict).does) h

theorem applyChange_stored (d : Db) (c : Change) (h : ∀ i f, d.folders.get i = some f → Stored f) :
    ∀ i f, (applyChange d c).folders.get i = some f → Stored f :=
  Tx.reaches_inv (I := fun d : Db => ∀ i f, d.folders.get i = some f → Stored f) (fun _ _ hedit ht => hedit.stored ht)
    (Tx.transact_doesAt (applyPolicyChange_edit c.dict).does) h

/-- **Locks hold over whole runs.** In any forest, after any sequence of folder operations and application moves, every
folder's effective policy gives each setting the value of the topmost folder on its path that locks it, whatever the folders
below set; a setting no folder on the path locks has the value of the nearest folder that sets it. -/
theorem locks_hold {d : Db} (h : Forest d.folders) (cs : List Change) {i : ℕ} {f : PolicyFolder}
    (hf : (Machine.run applyChange d cs).folders.get i = some f) :
    ∃ line eff, Line (Machine.run applyChange d cs).folders (i, f) line ∧
      effective (Machine.run applyChange d cs).folders (some i) = .ok eff ∧
      ∀ key, Inherits (Machine.run applyChange d cs).folders line key (eff.lookup key) := by
  have hforest : Forest (Machine.run applyChange d cs).folders :=
    Machine.run_keeps (I := fun d : Db => Forest d.folders) applyChange_forest h cs
  exact hforest.inherits hf

/-- the bank sets a default, retail its own value under it, and the bank locks the setting afterwards -/
def bankChanges : List Change :=
  let days (n : ℤ) (locked : Bool) : Json := .obj [("max_validity_days", .obj [("value", .num n), ("locked", .bool locked)])]
  [⟨demoEnv, "olga", .createFolder (.str "Bank") none (days 365 false), by simp [DictSettings, days]⟩,
    ⟨demoEnv, "olga", .createFolder (.str "Retail") (some 1) (days 30 false), by simp [DictSettings, days]⟩,
    ⟨demoEnv, "olga", .updateFolder 1 (days 90 true), by simp [DictSettings, days]⟩]

theorem locks_hold_bank : ∃ retail line eff, (Machine.run applyChange Db.empty bankChanges).folders.get 2 = some retail ∧
    Line (Machine.run applyChange Db.empty bankChanges).folders (2, retail) line ∧
    effective (Machine.run applyChange Db.empty bankChanges).folders (some 2) = .ok eff ∧
    ∀ key, Inherits (Machine.run applyChange Db.empty bankChanges).folders line key (eff.lookup key) := by
  obtain ⟨retail, hretail⟩ : ∃ f, (Machine.run applyChange Db.empty bankChanges).folders.get 2 = some f :=
    Option.isSome_iff_exists.1 (by decide +kernel)
  obtain ⟨line, eff, hline, heff, hkeys⟩ := locks_hold forest_empty bankChanges hretail
  exact ⟨retail, line, eff, hretail, hline, heff, hkeys⟩

/-- the lock above wins over the value below -/
example : ((effective (Machine.run applyChange Db.empty bankChanges).folders (some 2)).toOption.bind fun eff =>
    eff.lookup "max_validity_days") = some ⟨.num 90, true, "\\Bank"⟩ := by decide +kernel

end Runs

end Certadillo.Folders
