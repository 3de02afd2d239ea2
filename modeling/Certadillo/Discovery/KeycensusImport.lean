/-
The two loops of a keycensus import: over the assets of the document, and over the rows it noted as untracked.

- `oneOrNone_by`: a lookup by a unique key.
- `loop_run`: the rows after the loop over the assets.
- `rowsAfter_get`: the rows after those that are gone are marked removed.
- `openFindings_run`: the open findings after the rows noted as untracked.
-/
import Certadillo.Discovery.Keycensus

namespace Certadillo.Keycensus

open Integrity Policy Py Datetime Discovery Upserts

/-! ## Lookups by key -/

/-- where keys are unique, a lookup by key finds the row, or there is none -/
theorem oneOrNone_by {α κ : Type} {key : α → κ} {t : Table α} (hunique : t.UniqueBy key) {p : α → Bool} {k : κ}
    (hp : ∀ a, p a = true ↔ key a = k) :
    (oneOrNone t p = .ok none ∧ ∀ i a, t.get i = some a → key a ≠ k) ∨
      ∃ i a, oneOrNone t p = .ok (some (i, a)) ∧ t.get i = some a ∧ key a = k := by
  by_cases hrow : ∃ i a, t.get i = some a ∧ key a = k
  · obtain ⟨i, a, hget, hkey⟩ := hrow
    right
    refine ⟨i, a, oneOrNone_unique hget ((hp a).2 hkey) fun j b hb hpb => ?_, hget, hkey⟩
    exact hunique j i b a hb hget (((hp b).1 hpb).trans hkey.symm)
  · left
    have hnone : t.all p = [] := by
      apply List.eq_nil_iff_forall_not_mem.2
      intro q hq
      obtain ⟨hget, hpq⟩ := Table.mem_all.1 hq
      exact hrow ⟨q.1, q.2, hget, (hp q.2).1 hpq⟩
    refine ⟨by unfold oneOrNone; rw [hnone], fun i a hget hkey => hrow ⟨i, a, hget, hkey⟩⟩

/-! ## The loop -/

/-- what a row is known by -/
def rowKey (r : ExternalAsset) : String × String := (r.source, r.assetId)

def entryKey (e : Entry) : String × String := (SOURCE, e.assetId)

/-- a row with the columns of this entry -/
def Holds (certs : Table Certificate) (e : Entry) (r : ExternalAsset) : Prop :=
  r.toEntry = e ∧ r.certificateId = certOf certs e ∧ r.status = .present

/-- the rows after the entries `es` -/
abbrev Written (certs : Table Certificate) (es : List Entry) (t t' : Table ExternalAsset) : Prop :=
  Upserted rowKey entryKey (Holds certs) (fun _ _ => True) (fun _ => True) es t t'

/-- the loop's variables after the entries `es` -/
structure Looped (env : Env) (certs : Table Certificate) (es : List Entry) (t : Table ExternalAsset) (acc : Progress) :
    Prop where
  rows : Written certs es t acc.assets
  seen : ∀ i r, acc.assets.get i = some r → (i ∈ acc.seen ↔ rowKey r ∈ es.map entryKey)
  untracked : ∀ i, i ∈ acc.untracked ↔
    ∃ r, acc.assets.get i = some r ∧ ∃ e ∈ es, isUntracked env certs e = true ∧ entryKey e = rowKey r

section Loop

variable {env : Env} {certs : Table Certificate} {es : List Entry} {e : Entry} {t : Table ExternalAsset} {acc : Progress}

/-- one asset writes one row, under its key -/
theorem importAsset_run (hunique : acc.assets.UniqueBy rowKey) :
    ∃ id new assets b, importAsset env certs acc e = .ok (acc.note env certs e id new assets) ∧ assets.get id = some b ∧
      rowKey b = entryKey e ∧ (∀ j, j ≠ id → assets.get j = acc.assets.get j) ∧
      ∀ {es t}, Written certs es t acc.assets → Written certs (es ++ [e]) t assets := by
  have hp : ∀ r : ExternalAsset, (decide (r.source = SOURCE) && decide (r.assetId = e.assetId)) = true ↔
      rowKey r = entryKey e := by
    intro r
    simp [rowKey, entryKey]
  rcases oneOrNone_by hunique hp with ⟨hnone, hfresh⟩ | ⟨id, a, hsome, hget, hkey⟩
  · refine ⟨acc.assets.next, 1, acc.assets.insert (stored env certs e env.now), stored env certs e env.now, ?_,
      Table.get_insert_next _ _, rfl, fun j hj => ?_, fun h => ?_⟩
    · unfold importAsset
      rw [hnone]
      rfl
    · rw [Table.get_insert, if_neg hj]
    · exact h.insert rfl ⟨rfl, rfl, rfl⟩ trivial hfresh
  · refine ⟨id, 0, acc.assets.update id fun r => stored env certs e r.firstSeen, stored env certs e a.firstSeen, ?_,
      by rw [Table.get_update_self, hget]; rfl, rfl, fun j hj => Table.get_update_of_ne _ _ hj, fun h => ?_⟩
    · unfold importAsset
      rw [hsome]
      rfl
    · exact h.update hget hkey hkey.symm ⟨rfl, rfl, rfl⟩ trivial (fun _ _ => trivial) fun _ => trivial

theorem looped_start (hunique : t.UniqueBy rowKey) : Looped env certs [] t ⟨t, [], 0, 0, []⟩ where
  rows := upserted_nil hunique
  seen := by simp
  untracked := by simp

/-- one more asset -/
theorem Looped.snoc (h : Looped env certs es t acc) (e : Entry) :
    ∃ acc', importAsset env certs acc e = .ok acc' ∧ Looped env certs (es ++ [e]) t acc' := by
  obtain ⟨id, new, assets, b, hrun, hb, hkey, hsame, hwritten⟩ :=
    @importAsset_run env certs e acc h.rows.unique
  have hrows := hwritten h.rows
  refine ⟨_, hrun, hrows, fun i r hr => ?_, fun i => ?_⟩
  · -- the row of the new entry, or one of before under another key
    show i ∈ acc.seen ++ [id] ↔ _
    rw [List.map_append, List.mem_append, List.mem_append]
    by_cases hi : i = id
    · subst hi
      obtain rfl := Option.some.inj (hb.symm.trans hr)
      simp [hkey]
    · have hne : rowKey r ≠ entryKey e := fun he => hi (hrows.unique i id r b hr hb (he.trans hkey.symm))
      have hbefore : acc.assets.get i = some r := by rw [← hsame i hi]; exact hr
      simp [hi, hne, h.seen i r hbefore]
  · have hstays : ∀ j c, acc.assets.get j = some c → ∃ c', assets.get j = some c' ∧ rowKey c' = rowKey c := by
      intro j c hc
      obtain ⟨c', hc', hck, -⟩ := (hwritten (upserted_nil h.rows.unique)).old j c hc
      exact ⟨c', hc', hck⟩
    have hnoted : i ∈ (acc.note env certs e id new assets).untracked ↔
        i ∈ acc.untracked ∨ (isUntracked env certs e = true ∧ i = id) := by
      by_cases hu : isUntracked env certs e = true
      · simp [Progress.note, hu]
      · simp [Progress.note, hu]
    rw [hnoted]
    constructor
    · intro hi
      rcases hi with hi | ⟨hu, rfl⟩
      · obtain ⟨r, hr, e', he', hu, hek⟩ := (h.untracked i).1 hi
        obtain ⟨r', hr', hrk⟩ := hstays i r hr
        exact ⟨r', hr', e', List.mem_append_left _ he', hu, hek.trans hrk.symm⟩
      · exact ⟨b, hb, e, List.mem_append_right _ (List.mem_singleton.2 rfl), hu, hkey.symm⟩
    · intro hi
      obtain ⟨r, hr, e', he', hu, hek⟩ := hi
      rcases List.mem_append.1 he' with he' | he'
      · -- the row of an earlier entry was there, under the same key
        obtain ⟨j, c, hc, hck⟩ := h.rows.has (entryKey e') (List.mem_map_of_mem he')
        obtain ⟨c', hc', hck'⟩ := hstays j c hc
        obtain rfl := hrows.unique j i c' r hc' hr (hck'.trans (hck.trans hek))
        exact Or.inl ((h.untracked j).2 ⟨c, hc, e', he', hu, hck.symm⟩)
      · obtain rfl := List.mem_singleton.1 he'
        exact Or.inr ⟨hu, hrows.unique i id r b hr hb (hek.symm.trans hkey.symm)⟩

variable (env certs) in
/-- **The loop over a document's assets returns, with its last entries in the rows.** -/
theorem loop_run (hunique : t.UniqueBy rowKey) (es : List Entry) :
    ∃ acc, es.foldlM (importAsset env certs) ⟨t, [], 0, 0, []⟩ = .ok acc ∧ Looped env certs es t acc := by
  induction es using List.reverseRecOn with
  | nil => exact ⟨_, rfl, looped_start hunique⟩
  | append_singleton es e ih =>
    obtain ⟨acc, hacc, hlooped⟩ := ih
    obtain ⟨acc', hacc', hlooped'⟩ := hlooped.snoc e
    refine ⟨acc', ?_, hlooped'⟩
    rw [List.foldlM_append, hacc, except_ok_bind, List.foldlM_cons, hacc', except_ok_bind]
    rfl

/-- the loop reads each asset before its row: it returns iff it reads them all, and the rows come from what it read -/
theorem importAssets_ok {fromisoformat : String → Option DateTime} {assets : List Json} {acc' : Progress} :
    importAssets fromisoformat env certs acc assets = .ok acc' ↔ ∃ lines, assets.mapM (assetOf fromisoformat) = .ok lines ∧
      (lines.map Prod.snd).foldlM (importAsset env certs) acc = .ok acc' := by
  unfold importAssets
  induction assets generalizing acc with
  | nil =>
    constructor
    · intro h
      exact ⟨[], rfl, h⟩
    · intro h
      obtain ⟨lines, hlines, hloop⟩ := h
      obtain rfl := Except.ok.inj hlines
      exact hloop
  | cons a rest ih =>
    rw [List.foldlM_cons, List.mapM_cons]
    constructor
    · intro h
      obtain ⟨acc₁, hone, hrest⟩ := except_bind_ok.1 h
      obtain ⟨line, hline, hrow⟩ := except_bind_ok.1 hone
      obtain ⟨lines, hlines, hloop⟩ := ih.1 hrest
      refine ⟨line :: lines, ?_, ?_⟩
      · rw [hline, hlines]
        rfl
      · rw [List.map_cons, List.foldlM_cons, hrow, except_ok_bind]
        exact hloop
    · intro h
      obtain ⟨lines', hread, hloop⟩ := h
      obtain ⟨line, hline, hread⟩ := except_bind_ok.1 hread
      obtain ⟨lines, hlines, hread⟩ := except_bind_ok.1 hread
      obtain rfl := Except.ok.inj hread
      rw [List.map_cons, List.foldlM_cons] at hloop
      obtain ⟨acc₁, hrow, hrest⟩ := except_bind_ok.1 hloop
      refine except_bind_ok.2 ⟨acc₁, ?_, ih.2 ⟨lines, hlines, hrest⟩⟩
      rw [hline, except_ok_bind]
      exact hrow

end Loop

/-! ### The rows that are gone -/

/-- the rows after an import -/
def rowsAfter (acc : Progress) : Table ExternalAsset := acc.assets.updateAll (gone acc) removed

theorem removed_removed (r : ExternalAsset) : removed (removed r) = removed r := rfl

@[simp] theorem rowKey_removed (r : ExternalAsset) : rowKey (removed r) = rowKey r := rfl

section Gone

variable {env : Env} {certs : Table Certificate} {es : List Entry} {t : Table ExternalAsset} {acc : Progress}

theorem mem_gone {i : ℕ} {r : ExternalAsset} (hr : acc.assets.get i = some r) :
    i ∈ gone acc ↔ r.source = SOURCE ∧ r.status = .present ∧ i ∉ acc.seen := by
  unfold gone
  rw [List.mem_filter, List.mem_map]
  constructor
  · intro h
    obtain ⟨⟨p, hp, rfl⟩, hseen⟩ := h
    obtain ⟨hget, hown⟩ := Table.mem_all.1 hp
    obtain rfl := Option.some.inj (hr.symm.trans hget)
    simp only [Bool.and_eq_true, decide_eq_true_eq] at hown hseen
    exact ⟨hown.1, hown.2, hseen⟩
  · intro h
    obtain ⟨hsource, hstatus, hseen⟩ := h
    exact ⟨⟨(i, r), Table.mem_all.2 ⟨hr, by simp [hsource, hstatus]⟩, rfl⟩, by simpa using hseen⟩

/-- a row after the import is one of the loop, removed if the loop did not see it -/
theorem rowsAfter_get (h : Looped env certs es t acc) (hsource : ∀ i r, t.get i = some r → r.source = SOURCE) {i : ℕ}
    {r : ExternalAsset} (hr : acc.assets.get i = some r) :
    (rowsAfter acc).get i = some (if rowKey r ∈ es.map entryKey then r else removed r) := by
  unfold rowsAfter
  rw [Table.get_updateAll removed_removed, hr]
  by_cases hmem : rowKey r ∈ es.map entryKey
  · have hnot : i ∉ gone acc := fun hgone => ((mem_gone hr).1 hgone).2.2 ((h.seen i r hr).2 hmem)
    rw [if_neg hnot, if_pos hmem]
  · rw [if_neg hmem]
    have hbefore := hsource i r (h.rows.untouched hr hmem)
    cases hstatus : r.status with
    | present =>
      rw [if_pos ((mem_gone hr).2 ⟨hbefore, hstatus, fun hseen => hmem ((h.seen i r hr).1 hseen)⟩)]
      rfl
    | removed =>
      have hself : removed r = r := by
        unfold removed
        rw [← hstatus]
      split
      · rfl
      · rw [hself]

theorem rowsAfter_none {i : ℕ} (hr : acc.assets.get i = none) : (rowsAfter acc).get i = none := by
  unfold rowsAfter
  rw [Table.get_updateAll removed_removed, hr]
  split
  · rfl
  · rfl

/-- every row after the import is a row of the loop -/
theorem rowsAfter_some (h : Looped env certs es t acc) (hsource : ∀ i r, t.get i = some r → r.source = SOURCE) {i : ℕ}
    {r' : ExternalAsset} (hr' : (rowsAfter acc).get i = some r') :
    ∃ r, acc.assets.get i = some r ∧ r' = if rowKey r ∈ es.map entryKey then r else removed r := by
  cases hr : acc.assets.get i with
  | none =>
    rw [rowsAfter_none hr] at hr'
    cases hr'
  | some r =>
    rw [rowsAfter_get h hsource hr] at hr'
    exact ⟨r, rfl, (Option.some.inj hr').symm⟩

end Gone

/-! ## Findings -/

/-- the keys of the untracked-certificate findings with this status -/
def keysWith (status : FindingStatus) (fs : Table DiscoveryFinding) : Set String :=
  {key | ∃ i f, fs.get i = some f ∧ f.kind = UNTRACKED ∧ f.status = status ∧ f.key = key}

/-- keys are unique, and those of an untracked certificate are of that kind -/
structure FindingsInv (fs : Table DiscoveryFinding) : Prop where
  unique : fs.UniqueBy DiscoveryFinding.key
  kinds : ∀ i f fp, fs.get i = some f → f.key = untrackedKey fp → f.kind = UNTRACKED

def keyOf (r : ExternalAsset) : String := untrackedKey r.fingerprintSha256

/-- what being seen again does to a finding -/
def SeenAgain (f g : DiscoveryFinding) : Prop :=
  g.kind = f.kind ∧ g.status = if f.status = .resolved then .opened else f.status

/-- what a new finding is -/
def NewlyOpen (f : DiscoveryFinding) : Prop := f.kind = UNTRACKED ∧ f.status = .opened

/-- the findings after the untracked rows `rs` -/
abbrev Opened (rs : List ExternalAsset) (fs fs' : Table DiscoveryFinding) : Prop :=
  Upserted DiscoveryFinding.key keyOf (fun _ _ => True) SeenAgain NewlyOpen rs fs fs'

section Findings

variable {env : Env} {rs : List ExternalAsset} {fs fs' : Table DiscoveryFinding}

theorem seenAgain_reopened (r : ExternalAsset) (f : DiscoveryFinding) : SeenAgain f (reopened env r f) := ⟨rfl, rfl⟩

theorem SeenAgain.reopened {f g : DiscoveryFinding} (h : SeenAgain f g) (r : ExternalAsset) :
    SeenAgain f (Keycensus.reopened env r g) := by
  refine ⟨h.1, ?_⟩
  show (if g.status = .resolved then FindingStatus.opened else g.status) = _
  rw [h.2]
  cases f.status <;> rfl

theorem NewlyOpen.reopened {f : DiscoveryFinding} (h : NewlyOpen f) (r : ExternalAsset) :
    NewlyOpen (Keycensus.reopened env r f) := by
  refine ⟨h.1, ?_⟩
  show (if f.status = .resolved then FindingStatus.opened else f.status) = _
  rw [h.2]
  rfl

variable (env) in
/-- one more untracked row -/
theorem opened_snoc (h : Opened rs fs fs') (r : ExternalAsset) :
    ∃ fs'', openFinding env fs' r = .ok fs'' ∧ Opened (rs ++ [r]) fs fs'' := by
  have hp : ∀ f : DiscoveryFinding, decide (f.key = untrackedKey r.fingerprintSha256) = true ↔ f.key = keyOf r := fun f =>
    decide_eq_true_iff
  rcases oneOrNone_by h.unique hp with ⟨hnone, hfresh⟩ | ⟨id, f, hsome, hget, hkey⟩
  · refine ⟨fs'.insert (newFinding env r), ?_, h.insert rfl trivial ⟨rfl, rfl⟩ hfresh⟩
    unfold openFinding
    rw [hnone]
    rfl
  · refine ⟨fs'.update id (reopened env r), ?_, h.update hget hkey rfl trivial (seenAgain_reopened r f)
      (fun b hb => hb.reopened r) fun hn => hn.reopened r⟩
    unfold openFinding
    rw [hsome]
    rfl

variable (env) in
theorem openAll_run (hunique : fs.UniqueBy DiscoveryFinding.key) (rs : List ExternalAsset) :
    ∃ fs', rs.foldlM (openFinding env) fs = .ok fs' ∧ Opened rs fs fs' := by
  induction rs using List.reverseRecOn with
  | nil => exact ⟨fs, rfl, upserted_nil hunique⟩
  | append_singleton rs r ih =>
    obtain ⟨fs₁, hfs₁, hopened⟩ := ih
    obtain ⟨fs₂, hfs₂, hopened'⟩ := opened_snoc env hopened r
    refine ⟨fs₂, ?_, hopened'⟩
    rw [List.foldlM_append, hfs₁, except_ok_bind, List.foldlM_cons, hfs₂, except_ok_bind]
    rfl

theorem resolved_resolved (f : DiscoveryFinding) : resolved (resolved f) = resolved f := rfl

/-- an old finding after the loop: acknowledged iff it was -/
theorem opened_old (h : Opened rs fs fs') {i : ℕ} {f : DiscoveryFinding} (hf : fs.get i = some f) :
    ∃ g, fs'.get i = some g ∧ g.key = f.key ∧ g.kind = f.kind ∧
      (g.status = .acknowledged ↔ f.status = .acknowledged) := by
  obtain ⟨g, hg, hkey, hrel⟩ := h.old i f hf
  refine ⟨g, hg, hkey, ?_⟩
  split at hrel
  · refine ⟨hrel.1, ?_⟩
    rw [hrel.2]
    cases f.status <;> simp
  · rw [hrel]
    exact ⟨rfl, Iff.rfl⟩

/-- a finding after the loop is an old one or a new one -/
theorem opened_back (h : Opened rs fs fs') {i : ℕ} {g : DiscoveryFinding} (hg : fs'.get i = some g) :
    (∃ f, fs.get i = some f ∧ g.key = f.key ∧ g.kind = f.kind ∧ (g.status = .acknowledged ↔ f.status = .acknowledged)) ∨
      NewlyOpen g := by
  cases hf : fs.get i with
  | none => exact Or.inr (h.new i g hf hg).2
  | some f =>
    obtain ⟨g', hg', hsame⟩ := opened_old h hf
    obtain rfl := Option.some.inj (hg.symm.trans hg')
    exact Or.inl ⟨f, rfl, hsame⟩

theorem opened_inv (hinv : FindingsInv fs) (h : Opened rs fs fs') : FindingsInv fs' := by
  refine ⟨h.unique, fun i g fp hg hkey => ?_⟩
  rcases opened_back h hg with ⟨f, hf, hsame, hkind, -⟩ | hnew
  · rw [hkind]
    exact hinv.kinds i f fp hf (hsame.symm.trans hkey)
  · exact hnew.1

/-- a finding with a wanted key is open after the loop, or was acknowledged -/
theorem opened_wanted (hinv : FindingsInv fs) (h : Opened rs fs fs') {key : String} (hkey : key ∈ rs.map keyOf) :
    ∃ i g, fs'.get i = some g ∧ g.kind = UNTRACKED ∧ g.key = key ∧
      (g.status = .opened ∨ key ∈ keysWith .acknowledged fs) := by
  obtain ⟨i, g, hg, hgk⟩ := h.has key hkey
  obtain ⟨r, -, hr⟩ := List.mem_map.1 hkey
  have hkind : g.kind = UNTRACKED := (opened_inv hinv h).kinds i g r.fingerprintSha256 hg (hgk.trans hr.symm)
  refine ⟨i, g, hg, hkind, hgk, ?_⟩
  cases hf : fs.get i with
  | none => exact Or.inl (h.new i g hf hg).2.2
  | some f =>
    obtain ⟨g', hg', hsame, hrel⟩ := h.old i f hf
    obtain rfl := Option.some.inj (hg.symm.trans hg')
    have hfk : f.key = key := hsame.symm.trans hgk
    rw [if_pos (by rw [hfk]; exact hkey)] at hrel
    cases hstatus : f.status with
    | opened => exact Or.inl (by rw [hrel.2, hstatus]; rfl)
    | resolved => exact Or.inl (by rw [hrel.2, hstatus]; rfl)
    | acknowledged => exact Or.inr ⟨i, f, hf, hrel.1.symm.trans hkind, hstatus, hfk⟩

/-- the findings the last loop resolves -/
def staleIn (keys : List String) (fs : Table DiscoveryFinding) : List ℕ :=
  ((fs.all fun f => f.kind = UNTRACKED && f.status = .opened).filter fun p => p.2.key ∉ keys).map Prod.fst

theorem mem_staleIn {keys : List String} {i : ℕ} {f : DiscoveryFinding} (hf : fs.get i = some f) :
    i ∈ staleIn keys fs ↔ f.kind = UNTRACKED ∧ f.status = .opened ∧ f.key ∉ keys := by
  unfold staleIn
  rw [List.mem_map]
  constructor
  · intro h
    obtain ⟨p, hp, rfl⟩ := h
    obtain ⟨hall, hkey⟩ := List.mem_filter.1 hp
    obtain ⟨hget, hown⟩ := Table.mem_all.1 hall
    obtain rfl := Option.some.inj (hf.symm.trans hget)
    simp only [Bool.and_eq_true, decide_eq_true_eq] at hown hkey
    exact ⟨hown.1, hown.2, hkey⟩
  · intro h
    obtain ⟨hkind, hstatus, hkey⟩ := h
    exact ⟨(i, f), List.mem_filter.2 ⟨Table.mem_all.2 ⟨hf, by simp [hkind, hstatus]⟩, by simpa using hkey⟩, rfl⟩

theorem get_resolveStale {keys : List String} {i : ℕ} {f : DiscoveryFinding} (hf : fs.get i = some f) :
    (fs.updateAll (staleIn keys fs) resolved).get i =
      some (if f.kind = UNTRACKED ∧ f.status = .opened ∧ f.key ∉ keys then resolved f else f) := by
  rw [Table.get_updateAll resolved_resolved, hf]
  by_cases hstale : f.kind = UNTRACKED ∧ f.status = .opened ∧ f.key ∉ keys
  · rw [if_pos ((mem_staleIn hf).2 hstale), if_pos hstale]
    rfl
  · rw [if_neg fun hmem => hstale ((mem_staleIn hf).1 hmem), if_neg hstale]

/-- every finding after the last loop was there before it, resolved or not -/
theorem resolveStale_back {keys : List String} {i : ℕ} {g : DiscoveryFinding}
    (hg : (fs.updateAll (staleIn keys fs) resolved).get i = some g) :
    ∃ f, fs.get i = some f ∧ g = if f.kind = UNTRACKED ∧ f.status = .opened ∧ f.key ∉ keys then resolved f else f := by
  cases hf : fs.get i with
  | none =>
    rw [Table.get_updateAll resolved_resolved, hf] at hg
    split at hg
    · cases hg
    · cases hg
  | some f =>
    rw [get_resolveStale hf] at hg
    exact ⟨f, rfl, (Option.some.inj hg).symm⟩

/-- an acknowledged finding was so before the import, and the other way -/
theorem acknowledged_after (h : Opened rs fs fs') (keys : List String) :
    keysWith .acknowledged (fs'.updateAll (staleIn keys fs') resolved) = keysWith .acknowledged fs := by
  ext key
  constructor
  · intro hkey
    obtain ⟨i, g, hg, hkind, hstatus, rfl⟩ := hkey
    obtain ⟨f, hf, rfl⟩ := resolveStale_back hg
    split at hstatus
    · cases hstatus
    · next hnot =>
      rw [if_neg hnot] at hkind ⊢
      rcases opened_back h hf with ⟨f₀, hf₀, hsame, hk, hacked⟩ | hnew
      · exact ⟨i, f₀, hf₀, hk.symm.trans hkind, hacked.1 hstatus, hsame.symm⟩
      · rw [hnew.2] at hstatus
        cases hstatus
  · intro hkey
    obtain ⟨i, f, hf, hkind, hstatus, rfl⟩ := hkey
    obtain ⟨g, hg, hsame, hk, hacked⟩ := opened_old h hf
    have hgstatus := hacked.2 hstatus
    refine ⟨i, g, ?_, hk.trans hkind, hgstatus, hsame⟩
    rw [get_resolveStale hg, if_neg fun hstale => ?_]
    rw [hstale.2.1] at hgstatus
    cases hgstatus

variable (env) in
/-- **After an import the open findings are those of the rows noted as untracked, but for the acknowledged ones.** -/
theorem openFindings_run (hinv : FindingsInv fs) (rs : List ExternalAsset) :
    ∃ fs', openFindings env fs rs = .ok fs' ∧ FindingsInv fs' ∧
      keysWith .opened fs' = {key | key ∈ rs.map keyOf} \ keysWith .acknowledged fs ∧
      keysWith .acknowledged fs' = keysWith .acknowledged fs := by
  obtain ⟨fs₁, hrun, hopened⟩ := openAll_run env hinv.unique rs
  have hinv₁ := opened_inv hinv hopened
  have hrun' : openFindings env fs rs = .ok (fs₁.updateAll (staleIn (rs.map keyOf) fs₁) resolved) := by
    unfold openFindings
    dsimp only
    rw [hrun]
    rfl
  refine ⟨_, hrun', ⟨fun i j f g hf hg hsame => ?_, fun i g fp hg hkey => ?_⟩, ?_, acknowledged_after hopened _⟩
  · obtain ⟨f₁, hf₁, rfl⟩ := resolveStale_back hf
    obtain ⟨g₁, hg₁, rfl⟩ := resolveStale_back hg
    refine hinv₁.unique i j f₁ g₁ hf₁ hg₁ ?_
    simpa only [apply_ite DiscoveryFinding.key, resolved, ite_self] using hsame
  · obtain ⟨f, hf, rfl⟩ := resolveStale_back hg
    have hkind := hinv₁.kinds i f fp hf (by simpa only [apply_ite DiscoveryFinding.key, resolved, ite_self] using hkey)
    simpa only [apply_ite DiscoveryFinding.kind, resolved, ite_self] using hkind
  ext key
  constructor
  · intro hkey
    obtain ⟨i, g, hg, hkind, hstatus, rfl⟩ := hkey
    obtain ⟨f, hf, rfl⟩ := resolveStale_back hg
    split at hstatus
    · cases hstatus
    next hnot =>
    rw [if_neg hnot] at hkind ⊢
    refine ⟨by_contra fun hkey => hnot ⟨hkind, hstatus, hkey⟩, fun hacked => ?_⟩
    -- an acknowledged finding with this key is this one, and still acknowledged
    obtain ⟨j, f₀, hf₀, -, hstatus₀, hsame₀⟩ := hacked
    obtain ⟨g₀, hg₀, hkey₀, -, hacked₀⟩ := opened_old hopened hf₀
    obtain rfl := hinv₁.unique i j f g₀ hf hg₀ (hsame₀.symm.trans hkey₀.symm)
    obtain rfl := Option.some.inj (hf.symm.trans hg₀)
    rw [hacked₀.2 hstatus₀] at hstatus
    cases hstatus
  · intro h
    obtain ⟨hkey, hacked⟩ := h
    obtain ⟨i, g, hg, hkind, rfl, hstatus⟩ := opened_wanted hinv hopened hkey
    refine ⟨i, g, ?_, hkind, hstatus.resolve_right hacked, rfl⟩
    rw [get_resolveStale hg, if_neg fun hstale => hstale.2.2 hkey]

end Findings

end Certadillo.Keycensus
