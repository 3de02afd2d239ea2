/-
Whose findings and keys an agent's report touches.

A finding of a readable key names its host in its detail, but a report takes for its own the findings whose location matches
the pattern "host:%", and updates those whose key is that of one of its files. Both compare texts in which the host is not
marked off.

- `exposeAll_run`, `resolveAll_run`: what the two loops over the findings leave.
- `keeps_ingest`: the SSH keys of a report.
- `report_isolated_iff`: when a report leaves the findings and the keys of every other host alone.
- `reports_isolated_iff`: the same over runs of reports.
- `wildcard_resolves`: a host whose name matches another's.
-/
import Certadillo.Discovery.Reports
import Certadillo.Lib.Run

namespace Certadillo.Discovery

open Integrity Policy Py Machine

/-! ## Rows of other hosts -/

/-- the rows that `P` picks are the same -/
def Agree {α : Type} (P : α → Prop) (t t' : Table α) : Prop := ∀ i a, P a → (t.get i = some a ↔ t'.get i = some a)

section Agree

variable {α : Type} {P : α → Prop}

theorem Agree.refl (t : Table α) : Agree P t t := fun _ _ _ => Iff.rfl

theorem Agree.trans {a b c : Table α} (hab : Agree P a b) (hbc : Agree P b c) : Agree P a c :=
  fun i x hx => (hab i x hx).trans (hbc i x hx)

theorem agree_update {t : Table α} {i : ℕ} {f : α → α} (h : ∀ a, t.get i = some a → ¬ P a ∧ ¬ P (f a)) :
    Agree P t (t.update i f) := by
  intro j a ha
  by_cases hj : j = i
  · subst hj
    rw [Table.get_update_self]
    cases hget : t.get j with
    | none => simp
    | some b =>
      obtain ⟨hb, hfb⟩ := h b hget
      constructor
      · intro hba
        cases hba
        exact absurd ha hb
      · intro hba
        cases hba
        exact absurd ha hfb
  · rw [Table.get_update_of_ne _ _ hj]

theorem agree_insert {t : Table α} {b : α} (h : ¬ P b) : Agree P t (t.insert b) := by
  intro i a ha
  rw [Table.get_insert]
  split
  · next hi =>
    subst hi
    rw [Table.get_next]
    constructor
    · intro hnone
      cases hnone
    · intro hba
      cases hba
      exact absurd ha h
  · exact Iff.rfl

end Agree

/-- the host a finding of a readable key was made for -/
def hostOf (f : DiscoveryFinding) : Option Json := f.detail.lookup "host"

def OtherReadable (host : String) (f : DiscoveryFinding) : Prop := f.kind = .keyReadable ∧ hostOf f ≠ some (.str host)

/-- the findings of readable keys and the SSH keys of every other host are the same -/
structure Isolated (host : String) (d d' : Store) : Prop where
  findings : Agree (OtherReadable host) d.findings d'.findings
  sshKeys : Agree (fun k => k.host ≠ host) d.sshKeys d'.sshKeys

/-! ## The loops over the findings -/

section Findings

variable {cfg : Settings} {env : Env} {host : String} {s : Session Store}

theorem onDb_returns {α : Type} {m : M α} {a : α} {s' : Session Store} (h : onDb m s = (.ok a, s')) :
    s'.work.findings = s.work.findings ∧ s'.work.sshKeys = s.work.sshKeys := by
  obtain ⟨-, rfl⟩ := Prod.mk.inj h
  exact ⟨rfl, rfl⟩

theorem ingestCerts_returns {actorName : String} {items : List Dict} {n : ℕ} {s' : Session Store}
    (h : ingestCerts cfg env actorName host items s = (.ok n, s')) :
    s'.work.findings = s.work.findings ∧ s'.work.sshKeys = s.work.sshKeys := by
  induction items generalizing s n with
  | nil =>
    obtain ⟨-, rfl⟩ := Prod.mk.inj h
    exact ⟨rfl, rfl⟩
  | cons item rest ih =>
    unfold ingestCerts at h
    obtain ⟨cert, s₁, hcert, h⟩ := Tx.bind_returns.1 h
    obtain ⟨-, rfl⟩ := Prod.mk.inj hcert
    replace h := Tx.bind_returns.1 h
    obtain ⟨d, s₀, hget, h⟩ := h
    obtain ⟨-, rfl⟩ := Prod.mk.inj hget
    obtain ⟨id, s₂, hingest, h⟩ := Tx.bind_returns.1 h
    obtain ⟨new, s₃, hrest, h⟩ := Tx.bind_returns.1 h
    obtain ⟨-, rfl⟩ := Prod.mk.inj h
    obtain ⟨hfindings, hkeys⟩ := ih hrest
    obtain ⟨hfindings', hkeys'⟩ := onDb_returns hingest
    exact ⟨hfindings.trans hfindings', hkeys.trans hkeys'⟩

theorem seenFinding_idem (f : DiscoveryFinding) : seenFinding env (seenFinding env f) = seenFinding env f := by
  unfold seenFinding
  dsimp only
  by_cases h : f.status = .resolved
  · simp [h]
  · simp [h]

theorem seenFinding_eq_self {f : DiscoveryFinding} : seenFinding env f = f ↔ f.lastSeen = env.now ∧ f.status ≠ .resolved := by
  obtain ⟨kind, key, location, detail, status, firstSeen, lastSeen, acknowledgedBy⟩ := f
  unfold seenFinding
  cases status <;> simp [eq_comm]

theorem addFinding_returns {f : DiscoveryFinding} {u : Unit} {s' : Session Store} (h : addFinding f s = (.ok u, s')) :
    (∀ i g, s.work.findings.get i = some g → g.key ≠ f.key) ∧
      s' = ⟨s.committed, { s.work with findings := s.work.findings.insert f }⟩ := by
  unfold addFinding at h
  rw [Tx.get_bind] at h
  cases hclash : unique "discovery_findings.key" DiscoveryFinding.key f.key s.work.findings with
  | some u =>
    rw [hclash] at h
    cases h
  | none =>
    rw [hclash] at h
    refine ⟨fun i g hg hkey => ?_, (Prod.mk.inj h).2.symm⟩
    unfold unique at hclash
    split at hclash
    · cases hclash
    · next hfirst =>
      have hnone := Table.first_none.1 (Option.not_isSome_iff_eq_none.1 hfirst) i g hg
      simp [hkey] at hnone

/-- the finding of one key file is refreshed, or added -/
theorem exposeKey_run {k : Dict} {u : Unit} {s' : Session Store} (h : exposeKey env host k s = (.ok u, s')) :
    s'.work.sshKeys = s.work.sshKeys ∧
    (∀ i f, s.work.findings.get i = some f →
      s'.work.findings.get i = some (if f.key = readableKey (keyLocation host k) then seenFinding env f else f)) ∧
    ∀ i f, s.work.findings.get i = none → s'.work.findings.get i = some f → hostOf f = some (.str host) := by
  unfold exposeKey at h
  rw [Tx.get_bind] at h
  obtain ⟨found, s₁, hlift, hwrite⟩ := Tx.bind_returns.1 h
  obtain ⟨hfound, rfl⟩ := Prod.mk.inj hlift
  cases found with
  | none =>
    obtain ⟨hfresh, rfl⟩ := addFinding_returns hwrite
    refine ⟨rfl, fun i f hf => ?_, fun i f hnone hsome => ?_⟩
    · rw [if_neg (hfresh i f hf)]
      exact Table.get_insert_of_some hf
    · have hsome : (s.work.findings.insert _).get i = some f := hsome
      rw [Table.get_insert] at hsome
      split at hsome
      · cases hsome
        rfl
      · rw [hnone] at hsome
        cases hsome
  | some p =>
    obtain ⟨id, g⟩ := p
    obtain ⟨-, rfl⟩ := Prod.mk.inj hwrite
    refine ⟨rfl, fun i f hf => ?_, fun i f hnone hsome => ?_⟩
    · show (s.work.findings.update id (seenFinding env)).get i = _
      by_cases hkey : f.key = readableKey (keyLocation host k)
      · have hi : i = id := congrArg Prod.fst (Option.some.inj (oneOrNone_ok hfound hf (by simpa using hkey))).symm
        subst hi
        rw [Table.get_update_self, hf, if_pos hkey]
        rfl
      · have hi : i ≠ id := by
          intro heq
          subst heq
          obtain ⟨hg, hgkey⟩ := oneOrNone_some hfound
          obtain rfl := Option.some.inj (hf.symm.trans hg)
          exact hkey (by simpa using hgkey)
        rw [Table.get_update_of_ne _ _ hi, if_neg hkey]
        exact hf
    · have hsome : (s.work.findings.update id (seenFinding env)).get i = some f := hsome
      rw [Table.get_update, hnone] at hsome
      split at hsome
      · cases hsome
      · cases hsome

theorem exposedKeys_cons (k : Dict) (rest : List Dict) : exposedKeys host (k :: rest) =
    if worldReadable k then readableKey (keyLocation host k) :: exposedKeys host rest else exposedKeys host rest := by
  unfold exposedKeys
  cases hreadable : worldReadable k with
  | true => simp [hreadable]
  | false => simp [hreadable]

/-- a file seen again has its finding refreshed, and what is added is of this host -/
theorem exposeAll_run {files : List Dict} {u : Unit} {s' : Session Store} (h : exposeAll env host files s = (.ok u, s')) :
    s'.work.sshKeys = s.work.sshKeys ∧
    (∀ i f, s.work.findings.get i = some f →
      s'.work.findings.get i = some (if f.key ∈ exposedKeys host files then seenFinding env f else f)) ∧
    ∀ i f, s.work.findings.get i = none → s'.work.findings.get i = some f → hostOf f = some (.str host) := by
  induction files generalizing s with
  | nil =>
    obtain ⟨-, rfl⟩ := Prod.mk.inj h
    refine ⟨rfl, fun i f hf => hf, fun i f hnone hsome => ?_⟩
    rw [hnone] at hsome
    cases hsome
  | cons k rest ih =>
    unfold exposeAll at h
    by_cases hreadable : worldReadable k = true
    · rw [if_pos hreadable] at h
      obtain ⟨v, s₁, hone, hrest⟩ := Tx.bind_returns.1 h
      obtain ⟨hssh, hold, hnew⟩ := exposeKey_run hone
      obtain ⟨hssh', hold', hnew'⟩ := ih hrest
      rw [exposedKeys_cons, if_pos hreadable]
      refine ⟨hssh'.trans hssh, fun i f hf => ?_, fun i f hnone hsome => ?_⟩
      · rw [hold' i _ (hold i f hf)]
        by_cases hkey : f.key = readableKey (keyLocation host k)
        · have hmem : f.key ∈ readableKey (keyLocation host k) :: exposedKeys host rest := List.mem_cons.2 (Or.inl hkey)
          rw [if_pos hkey, if_pos hmem]
          split
          · rw [seenFinding_idem]
          · rfl
        · rw [if_neg hkey]
          simp [hkey]
      · cases hmid : s₁.work.findings.get i with
        | none => exact hnew' i f hmid hsome
        | some g =>
          -- added for this file, and perhaps seen again
          have hhost := hnew i g hnone hmid
          have hrow := hold' i g hmid
          rw [hsome] at hrow
          obtain rfl := Option.some.inj hrow
          split
          · exact hhost
          · exact hhost
    · rw [if_neg hreadable] at h
      rw [exposedKeys_cons, if_neg hreadable]
      exact ih h

/-- the open findings of the list that are not wanted any more -/
def goneIn (seen : List String) (stale : List (ℕ × DiscoveryFinding)) : List ℕ :=
  (stale.filter fun p => p.2.key ∉ seen ∧ p.2.status = .opened).map Prod.fst

theorem resolveAll_run (seen : List String) (stale : List (ℕ × DiscoveryFinding)) (s : Session Store) :
    ∃ s', resolveAll seen stale s = (.ok (), s') ∧ s'.work.sshKeys = s.work.sshKeys ∧
      ∀ i, s'.work.findings.get i =
        if i ∈ goneIn seen stale then (s.work.findings.get i).map fun f => { f with status := .resolved }
        else s.work.findings.get i := by
  induction stale generalizing s with
  | nil => exact ⟨s, rfl, rfl, fun i => by simp [goneIn]⟩
  | cons p rest ih =>
    obtain ⟨id, f⟩ := p
    unfold resolveAll
    by_cases hgone : f.key ∉ seen ∧ f.status = .opened
    · rw [if_pos hgone]
      obtain ⟨s', hrun, hssh, hfindings⟩ := ih ⟨s.committed, { s.work with
        findings := s.work.findings.update id fun f => { f with status := .resolved } }⟩
      refine ⟨s', hrun, hssh, fun i => ?_⟩
      have hcons : goneIn seen ((id, f) :: rest) = id :: goneIn seen rest := by
        unfold goneIn
        rw [List.filter_cons_of_pos (by simpa using hgone), List.map_cons]
      rw [hfindings i, hcons]
      show (if i ∈ goneIn seen rest then ((s.work.findings.update id _).get i).map _ else (s.work.findings.update id _).get i) = _
      rw [Table.get_update]
      by_cases hi : i = id
      · subst hi
        cases s.work.findings.get i with
        | none => simp
        | some g => simp
      · simp [hi]
    · rw [if_neg hgone]
      obtain ⟨s', hrun, hssh, hfindings⟩ := ih s
      refine ⟨s', hrun, hssh, fun i => ?_⟩
      have hcons : goneIn seen ((id, f) :: rest) = goneIn seen rest := by
        unfold goneIn
        rw [List.filter_cons_of_neg (by simpa using hgone)]
      rw [hfindings i, hcons]

end Findings

/-! ## SSH keys -/

section Ssh

variable {cfg : Settings} {env : Env} {host : String} {s s' : Session Store}

open SshKeys

/-- the row of a line is its host's -/
theorem ingestKey_keeps {e : Entry} {r : ℕ × Bool} (h : ingestKey env host e s = (.ok r, s')) :
    s'.work.findings = s.work.findings ∧ Agree (fun k => k.host ≠ host) s.work.sshKeys s'.work.sshKeys := by
  unfold ingestKey at h
  rw [Tx.get_bind] at h
  obtain ⟨found, s₁, hlift, hwrite⟩ := Tx.bind_returns.1 h
  obtain ⟨hfound, rfl⟩ := Prod.mk.inj hlift
  cases found with
  | none =>
    obtain ⟨u, s₂, hinsert, hpure⟩ := Tx.bind_returns.1 hwrite
    obtain ⟨-, rfl⟩ := Prod.mk.inj hinsert
    obtain ⟨-, rfl⟩ := Prod.mk.inj hpure
    exact ⟨rfl, agree_insert fun hne => hne rfl⟩
  | some p =>
    obtain ⟨id, row⟩ := p
    obtain ⟨u, s₂, hset, hpure⟩ := Tx.bind_returns.1 hwrite
    obtain ⟨-, rfl⟩ := Prod.mk.inj hset
    obtain ⟨-, rfl⟩ := Prod.mk.inj hpure
    obtain ⟨hget, hplace⟩ := oneOrNone_some hfound
    refine ⟨rfl, agree_update fun a ha => ?_⟩
    obtain rfl := Option.some.inj (hget.symm.trans ha)
    have hhost : row.host = host := by
      simp only [Bool.and_eq_true, decide_eq_true_eq] at hplace
      exact hplace.1.1
    exact ⟨fun hne => hne hhost, fun hne => hne hhost⟩

theorem ingestKeys_keeps {keys : List Dict} {rows : List (ℕ × Bool)} (h : ingestKeys env host keys s = (.ok rows, s')) :
    s'.work.findings = s.work.findings ∧ Agree (fun k => k.host ≠ host) s.work.sshKeys s'.work.sshKeys := by
  induction keys generalizing s rows with
  | nil =>
    obtain ⟨-, rfl⟩ := Prod.mk.inj h
    exact ⟨rfl, .refl _⟩
  | cons k rest ih =>
    unfold ingestKeys at h
    obtain ⟨e, s₁, hentry, h₁⟩ := Tx.bind_returns.1 h
    obtain ⟨-, rfl⟩ := Prod.mk.inj hentry
    obtain ⟨row, s₂, hone, h₂⟩ := Tx.bind_returns.1 h₁
    obtain ⟨rows', s₃, hrest, h₃⟩ := Tx.bind_returns.1 h₂
    obtain ⟨-, rfl⟩ := Prod.mk.inj h₃
    obtain ⟨hfindings, hkeys⟩ := ingestKey_keeps hone
    obtain ⟨hfindings', hkeys'⟩ := ih hrest
    exact ⟨hfindings'.trans hfindings, hkeys.trans hkeys'⟩

/-- the rows of the list that were not seen -/
def unseenIn (seen : List ℕ) (stale : List (ℕ × SshKey)) : List ℕ := (stale.map Prod.fst).filter fun i => i ∉ seen

theorem removeAll_run (seen : List ℕ) (stale : List (ℕ × SshKey)) (s : Session Store) :
    ∃ n s', removeAll seen stale s = (.ok n, s') ∧ s'.work.findings = s.work.findings ∧
      ∀ i, s'.work.sshKeys.get i =
        if i ∈ unseenIn seen stale then (s.work.sshKeys.get i).map fun k => { k with status := .removed }
        else s.work.sshKeys.get i := by
  induction stale generalizing s with
  | nil => exact ⟨0, s, rfl, rfl, fun i => by simp [unseenIn]⟩
  | cons p rest ih =>
    obtain ⟨id, k⟩ := p
    unfold removeAll
    by_cases hseen : id ∉ seen
    · rw [if_pos hseen]
      obtain ⟨n, s', hrun, hfindings, hkeys⟩ := ih ⟨s.committed, { s.work with
        sshKeys := s.work.sshKeys.update id fun k => { k with status := .removed } }⟩
      refine ⟨n + 1, s', Tx.bind_returns.2 ⟨(), _, rfl, Tx.bind_returns.2 ⟨n, s', hrun, rfl⟩⟩, hfindings, fun i => ?_⟩
      have hcons : unseenIn seen ((id, k) :: rest) = id :: unseenIn seen rest := by
        unfold unseenIn
        rw [List.map_cons, List.filter_cons_of_pos (by simpa using hseen)]
      rw [hkeys i, hcons]
      show (if i ∈ unseenIn seen rest then ((s.work.sshKeys.update id _).get i).map _ else (s.work.sshKeys.update id _).get i) = _
      rw [Table.get_update]
      by_cases hi : i = id
      · subst hi
        cases s.work.sshKeys.get i with
        | none => simp
        | some g => simp
      · simp [hi]
    · rw [if_neg hseen]
      obtain ⟨n, s', hrun, hfindings, hkeys⟩ := ih s
      refine ⟨n, s', hrun, hfindings, fun i => ?_⟩
      have hcons : unseenIn seen ((id, k) :: rest) = unseenIn seen rest := by
        unfold unseenIn
        rw [List.map_cons, List.filter_cons_of_neg (by simpa using hseen)]
      rw [hkeys i, hcons]

def Readable (f : DiscoveryFinding) : Prop := f.kind = .keyReadable

/-- the findings that are loaded are SSH findings, and so is every one that is added -/
theorem openAll_keeps {existing : List (ℕ × DiscoveryFinding)} {want : List (String × Wanted)} {u : Unit}
    (h : openAll env existing want s = (.ok u, s'))
    (hexisting : ∀ p ∈ existing, ∀ f, s.work.findings.get p.1 = some f → ¬ Readable f) :
    s'.work.sshKeys = s.work.sshKeys ∧ Agree Readable s.work.findings s'.work.findings ∧
      ∀ p ∈ existing, ∀ f, s'.work.findings.get p.1 = some f → ¬ Readable f := by
  induction want generalizing s with
  | nil =>
    obtain ⟨-, rfl⟩ := Prod.mk.inj h
    exact ⟨rfl, .refl _, hexisting⟩
  | cons p rest ih =>
    obtain ⟨key, w⟩ := p
    unfold openAll at h
    obtain ⟨v, s₁, hone, hrest⟩ := Tx.bind_returns.1 h
    unfold openFinding at hone
    cases hfound : existing.find? (fun p => p.2.key = key) with
    | none =>
      rw [hfound] at hone
      obtain ⟨-, rfl⟩ := addFinding_returns hone
      obtain ⟨hssh, hagree, hstill⟩ := ih hrest fun p hp f hf => by
        have hf : (s.work.findings.insert _).get p.1 = some f := hf
        rw [Table.get_insert] at hf
        split at hf
        · cases hf
          intro hreadable
          cases hreadable
        · exact hexisting p hp f hf
      have hinsert := agree_insert (P := Readable) (t := s.work.findings)
        (b := ⟨.ssh w.rule, key, some w.location, w.detail, .opened, env.now, env.now, none⟩) fun hreadable => by cases hreadable
      exact ⟨hssh, hinsert.trans hagree, hstill⟩
    | some q =>
      rw [hfound] at hone
      obtain ⟨-, rfl⟩ := Prod.mk.inj hone
      have hq : q ∈ existing := List.mem_of_find?_eq_some hfound
      obtain ⟨hssh, hagree, hstill⟩ := ih hrest fun p hp f hf => by
        have hf : (s.work.findings.update q.1 (refreshed env w)).get p.1 = some f := hf
        rw [Table.get_update] at hf
        split at hf
        · obtain ⟨g, hg, rfl⟩ := Option.map_eq_some_iff.1 hf
          exact hexisting p hp g hg
        · exact hexisting p hp f hf
      have hupdate := agree_update (P := Readable) (f := refreshed env w) fun a ha =>
        ⟨hexisting q hq a ha, hexisting q hq a ha⟩
      exact ⟨hssh, hupdate.trans hagree, hstill⟩

theorem mem_goneIn {seen : List String} {stale : List (ℕ × DiscoveryFinding)} {i : ℕ} :
    i ∈ goneIn seen stale ↔ ∃ f, (i, f) ∈ stale ∧ f.key ∉ seen ∧ f.status = .opened := by
  simp [goneIn]

theorem isSsh_not_readable {f : DiscoveryFinding} (h : isSsh f = true) : ¬ Readable f := by
  intro hreadable
  unfold isSsh at h
  rw [show f.kind = .keyReadable from hreadable] at h
  cases h

theorem refreshFindings_keeps {u : Unit} (h : refreshFindings cfg env s = (.ok u, s')) :
    s'.work.sshKeys = s.work.sshKeys ∧ Agree Readable s.work.findings s'.work.findings := by
  unfold refreshFindings at h
  rw [Tx.get_bind] at h
  obtain ⟨v, s₁, hopen, hresolve⟩ := Tx.bind_returns.1 h
  have hexisting : ∀ p ∈ s.work.findings.all isSsh, ∀ f, s.work.findings.get p.1 = some f → ¬ Readable f := by
    intro p hp f hf
    obtain ⟨hget, hssh⟩ := Table.mem_all.1 hp
    obtain rfl := Option.some.inj (hget.symm.trans hf)
    exact isSsh_not_readable hssh
  obtain ⟨hssh, hagree, hstill⟩ := openAll_keeps hopen hexisting
  obtain ⟨s₂, hrun, hssh', hfindings⟩ := resolveAll_run
    ((wanted cfg env (s.work.sshKeys.all fun k => k.status = .present)).map Prod.fst) (s.work.findings.all isSsh) s₁
  obtain ⟨-, rfl⟩ := Prod.mk.inj (hresolve.symm.trans hrun)
  refine ⟨hssh'.trans hssh, hagree.trans fun i f hf => ?_⟩
  rw [hfindings i]
  split
  · next hgone =>
    obtain ⟨g, hg, -⟩ := mem_goneIn.1 hgone
    constructor
    · intro hget
      exact absurd hf (hstill _ hg f hget)
    · intro hget
      obtain ⟨a, ha, rfl⟩ := Option.map_eq_some_iff.1 hget
      exact absurd hf (hstill _ hg a ha)
  · exact Iff.rfl

/-- the SSH part of a report touches no readable key, and no SSH key of another host -/
theorem keeps_ingest {keys : List Dict} {out : Dict} (h : SshKeys.ingest cfg env host keys s = (.ok out, s')) :
    Agree Readable s.work.findings s'.work.findings ∧ Agree (fun k => k.host ≠ host) s.work.sshKeys s'.work.sshKeys := by
  unfold SshKeys.ingest at h
  obtain ⟨rows, s₁, hkeys, h₁⟩ := Tx.bind_returns.1 h
  rw [Tx.get_bind] at h₁
  obtain ⟨n, s₂, hremove, h₂⟩ := Tx.bind_returns.1 h₁
  obtain ⟨u, s₃, hrefresh, h₃⟩ := Tx.bind_returns.1 h₂
  obtain ⟨-, rfl⟩ := Prod.mk.inj h₃
  obtain ⟨hfindings, hagree⟩ := ingestKeys_keeps hkeys
  obtain ⟨n', s₂', hrun, hfindings', hremoved⟩ := removeAll_run (rows.map Prod.fst)
    (s₁.work.sshKeys.all fun k => k.host = host && k.status = .present) s₁
  obtain ⟨-, rfl⟩ := Prod.mk.inj (hremove.symm.trans hrun)
  obtain ⟨hssh, hreadable⟩ := refreshFindings_keeps hrefresh
  rw [hfindings', hfindings] at hreadable
  refine ⟨hreadable, ?_⟩
  rw [hssh]
  refine hagree.trans fun i k hk => ?_
  rw [hremoved i]
  split
  · next hgone =>
    obtain ⟨p, hp, rfl⟩ := List.mem_map.1 (List.mem_filter.1 hgone).1
    obtain ⟨hget, hpresent⟩ := Table.mem_all.1 hp
    have hhost : p.2.host = host := by
      simp only [Bool.and_eq_true, decide_eq_true_eq] at hpresent
      exact hpresent.1
    rw [hget]
    constructor
    · intro hsome
      obtain rfl := Option.some.inj hsome
      exact absurd hhost hk
    · intro hsome
      obtain rfl := Option.some.inj hsome
      exact absurd hhost hk
  · exact Iff.rfl

end Ssh

/-! ## A report -/

section Reports

variable {cfg : Settings} {env : Env} {s s' : Session Store}

/-- what a report with these key files makes of a finding -/
def reported (cfg : Settings) (env : Env) (host : String) (keyFiles : List Dict) (f : DiscoveryFinding) : DiscoveryFinding :=
  if f.key ∈ exposedKeys host keyFiles then seenFinding env f
  else if ofHost cfg.dialect host f = true ∧ f.status = .opened then { f with status := .resolved }
  else f

theorem ingestAgentReport_run {actor : Actor} {host : String} {items keyFiles : List Dict} {out : Dict}
    (h : ingestAgentReport cfg env actor host items keyFiles s = (.ok out, s')) :
    s'.work.sshKeys = s.work.sshKeys ∧
    (∀ i f, s.work.findings.get i = some f → s'.work.findings.get i = some (reported cfg env host keyFiles f)) ∧
    ∀ i f, s.work.findings.get i = none → s'.work.findings.get i = some f → hostOf f = some (.str host) := by
  unfold ingestAgentReport at h
  obtain ⟨new, s₁, hcerts, h₁⟩ := Tx.bind_returns.1 h
  obtain ⟨u, s₂, hexpose, h₂⟩ := Tx.bind_returns.1 h₁
  rw [Tx.get_bind] at h₂
  obtain ⟨v, s₃, hresolve, h₃⟩ := Tx.bind_returns.1 h₂
  obtain ⟨w, s₄, hrecord, h₄⟩ := Tx.bind_returns.1 h₃
  obtain ⟨-, rfl⟩ := Prod.mk.inj h₄
  obtain ⟨hcertFindings, hcertKeys⟩ := ingestCerts_returns hcerts
  obtain ⟨hexposeKeys, hold, hnew⟩ := exposeAll_run hexpose
  obtain ⟨s₅, hrun, hresolveKeys, hresolved⟩ := resolveAll_run (exposedKeys host keyFiles)
    (s₂.work.findings.all (ofHost cfg.dialect host)) s₂
  obtain ⟨-, rfl⟩ := Prod.mk.inj (hresolve.symm.trans hrun)
  obtain ⟨hrecordFindings, hrecordKeys⟩ := onDb_returns hrecord
  rw [hcertFindings] at hold hnew
  rw [hrecordFindings, hrecordKeys]
  have hgone : ∀ i f, s₂.work.findings.get i = some f → (i ∈ goneIn (exposedKeys host keyFiles)
      (s₂.work.findings.all (ofHost cfg.dialect host)) ↔
        f.key ∉ exposedKeys host keyFiles ∧ ofHost cfg.dialect host f = true ∧ f.status = .opened) := by
    intro i f hf
    rw [mem_goneIn]
    constructor
    · intro hmem
      obtain ⟨g, hg, hkey, hopened⟩ := hmem
      obtain ⟨hget, hhost⟩ := Table.mem_all.1 hg
      obtain rfl := Option.some.inj (hf.symm.trans hget)
      exact ⟨hkey, hhost, hopened⟩
    · intro hf'
      exact ⟨f, Table.mem_all.2 ⟨hf, hf'.2.1⟩, hf'.1, hf'.2.2⟩
  refine ⟨(hresolveKeys.trans hexposeKeys).trans hcertKeys, fun i f hf => ?_, fun i f hnone hsome => ?_⟩
  · have hmid := hold i f hf
    rw [hresolved i, hmid]
    unfold reported
    by_cases hkey : f.key ∈ exposedKeys host keyFiles
    · rw [if_pos hkey, if_pos hkey] at *
      rw [if_neg]
      intro hmem
      exact ((hgone i _ hmid).1 hmem).1 hkey
    · rw [if_neg hkey] at hmid
      rw [if_neg hkey, if_neg hkey]
      by_cases hown : ofHost cfg.dialect host f = true ∧ f.status = .opened
      · rw [if_pos hown, if_pos ((hgone i f hmid).2 ⟨hkey, hown⟩)]
        rfl
      · rw [if_neg hown, if_neg fun hmem => hown ((hgone i f hmid).1 hmem).2]
  · rw [hresolved i] at hsome
    split at hsome
    · obtain ⟨g, hg, rfl⟩ := Option.map_eq_some_iff.1 hsome
      exact hnew i g hnone hg
    · exact hnew i f hnone hsome

theorem reported_other {host g : String} {keyFiles : List Dict} {f : DiscoveryFinding} :
    OtherReadable g (reported cfg env host keyFiles f) ↔ OtherReadable g f := by
  unfold reported OtherReadable hostOf seenFinding
  split
  · exact Iff.rfl
  · split
    · exact Iff.rfl
    · exact Iff.rfl

theorem reported_eq_self {host : String} {keyFiles : List Dict} {f : DiscoveryFinding} :
    reported cfg env host keyFiles f = f ↔
      (f.key ∈ exposedKeys host keyFiles → f.lastSeen = env.now ∧ f.status ≠ .resolved) ∧
      (f.key ∉ exposedKeys host keyFiles → f.status = .opened → ofHost cfg.dialect host f = false) := by
  unfold reported
  by_cases hkey : f.key ∈ exposedKeys host keyFiles
  · rw [if_pos hkey, seenFinding_eq_self]
    simp [hkey]
  · rw [if_neg hkey]
    by_cases hown : ofHost cfg.dialect host f = true ∧ f.status = .opened
    · rw [if_pos hown]
      refine iff_of_false (fun heq => ?_) fun h => ?_
      · have hstatus := congrArg DiscoveryFinding.status heq
        rw [hown.2] at hstatus
        cases hstatus
      · rw [h.2 hkey hown.2] at hown
        cases hown.1
    · rw [if_neg hown]
      refine iff_of_true rfl ⟨fun hmem => absurd hmem hkey, fun _ hopened => ?_⟩
      simpa [hopened] using hown

/-- no finding of another host has the key of a file this report names, unless it was seen at this very time; and none that is
open has a location the host's pattern matches -/
def OnlyOwn (cfg : Settings) (env : Env) (r : Report) (d : Store) : Prop :=
  ∀ i f, d.findings.get i = some f → OtherReadable r.host f →
    (f.key ∈ exposedKeys r.host r.keyFiles → f.lastSeen = env.now ∧ f.status ≠ .resolved) ∧
    (f.key ∉ exposedKeys r.host r.keyFiles → f.status = .opened → ofHost cfg.dialect r.host f = false)

/-- **A report leaves every other host alone exactly where it only takes its own findings for its own.** -/
theorem report_isolated_iff {actor : Actor} {r : Report} {out : Dict} (h : agentReport cfg env actor r s = (.ok out, s')) :
    Isolated r.host s.work s'.work ↔ OnlyOwn cfg env r s.work := by
  unfold agentReport at h
  obtain ⟨u, s₀, hrole, h₁⟩ := Tx.bind_returns.1 h
  obtain ⟨-, rfl⟩ := Prod.mk.inj hrole
  obtain ⟨out₁, s₁, hreadable, h₂⟩ := Tx.bind_returns.1 h₁
  obtain ⟨hkeys, hold, hnew⟩ := ingestAgentReport_run hreadable
  -- the SSH part changes no finding of a readable key
  have hssh : Agree Readable s₁.work.findings s'.work.findings ∧
      Agree (fun k => k.host ≠ r.host) s₁.work.sshKeys s'.work.sshKeys := by
    cases hsome : r.sshKeys with
    | none =>
      rw [hsome] at h₂
      obtain ⟨-, rfl⟩ := Prod.mk.inj h₂
      exact ⟨.refl _, .refl _⟩
    | some keys =>
      rw [hsome] at h₂
      obtain ⟨res, s₂, hingest, h₃⟩ := Tx.bind_returns.1 h₂
      obtain ⟨v, s₃, hrecord, h₄⟩ := Tx.bind_returns.1 h₃
      obtain ⟨-, rfl⟩ := Prod.mk.inj h₄
      obtain ⟨hfindings, hsshKeys⟩ := onDb_returns hrecord
      rw [hfindings, hsshKeys]
      exact keeps_ingest hingest
  have hfindings : Isolated r.host s.work s'.work ↔ Agree (OtherReadable r.host) s.work.findings s₁.work.findings := by
    have hafter : Agree (OtherReadable r.host) s₁.work.findings s'.work.findings := fun i f hf => hssh.1 i f hf.1
    constructor
    · intro hisolated i f hf
      exact (hisolated.findings i f hf).trans (hafter i f hf).symm
    · intro hagree
      refine ⟨hagree.trans hafter, ?_⟩
      rw [← hkeys]
      exact hssh.2
  rw [hfindings]
  constructor
  · intro hagree i f hf hother
    have hsame := (hagree i f hother).1 hf
    rw [hold i f hf] at hsame
    exact reported_eq_self.1 (Option.some.inj hsame)
  · intro honly i f hother
    constructor
    · intro hf
      rw [hold i f hf, reported_eq_self.2 (honly i f hf hother)]
    · intro hf
      cases hbefore : s.work.findings.get i with
      | none => exact absurd (hnew i f hbefore hf) hother.2
      | some g =>
        have hrow := hold i g hbefore
        rw [hf] at hrow
        obtain rfl := Option.some.inj hrow
        rw [reported_eq_self.2 (honly i g hbefore (reported_other.1 hother))]

/-! ## A report that raises -/

/-- it commits nothing -/
abbrev Quiet {α : Type} (m : D α) : Prop := Tx.Calm (fun _ _ => True) m

section Quiet

variable {cfg : Settings} {env : Env}

open SshKeys

theorem quiet_modify (f : Store → Store) : Quiet (Tx.modify f) := Tx.calm_modify fun _ => trivial

theorem quiet_onDb {α : Type} {W : Db → Db → Prop} {m : M α} (h : Tx.Calm W m) : Quiet (onDb m) := by
  intro s
  refine ⟨?_, .single trivial⟩
  show { s.committed with db := (m ⟨s.committed.db, s.work.db⟩).2.committed } = s.committed
  rw [(h ⟨s.committed.db, s.work.db⟩).1]

theorem quiet_record (actor action target : String) (details : List (String × Json)) :
    Quiet (onDb (record env actor action target details)) :=
  quiet_onDb (W := fun _ _ => True) (Tx.calm_modify fun _ => trivial)

theorem quiet_ingestCerts (actorName host : String) (items : List Dict) : Quiet (ingestCerts cfg env actorName host items) := by
  induction items with
  | nil => exact Tx.calm_pure _
  | cons item rest ih =>
    unfold ingestCerts
    refine Tx.calm_ofExcept_bind fun cert _ => Tx.calm_get_bind fun d => ?_
    refine Tx.calm_bind (quiet_onDb (W := Gateway.Inventories env 0) (Gateway.inventories_ingest (by decide) _ _ _ _)) fun id => ?_
    exact Tx.calm_bind ih fun _ => Tx.calm_pure _

theorem quiet_addFinding (f : DiscoveryFinding) : Quiet (addFinding f) := by
  unfold addFinding
  refine Tx.calm_get_bind fun d => ?_
  split
  · exact Tx.calm_throw _
  · exact quiet_modify _

theorem quiet_exposeAll (host : String) (files : List Dict) : Quiet (exposeAll env host files) := by
  induction files with
  | nil => exact Tx.calm_pure _
  | cons k rest ih =>
    unfold exposeAll
    refine Tx.calm_ite (fun _ => Tx.calm_bind ?_ fun _ => ih) fun _ => ih
    unfold exposeKey
    refine Tx.calm_get_bind fun d => Tx.calm_ofExcept_bind fun found _ => ?_
    cases found with
    | none => exact quiet_addFinding _
    | some p => exact quiet_modify _

theorem quiet_resolveAll (seen : List String) (stale : List (ℕ × DiscoveryFinding)) : Quiet (resolveAll seen stale) := by
  induction stale with
  | nil => exact Tx.calm_pure _
  | cons p rest ih =>
    unfold resolveAll
    exact Tx.calm_ite (fun _ => Tx.calm_bind (quiet_modify _) fun _ => ih) fun _ => ih

theorem quiet_ingestKeys (host : String) (keys : List Dict) : Quiet (ingestKeys env host keys) := by
  induction keys with
  | nil => exact Tx.calm_pure _
  | cons k rest ih =>
    unfold ingestKeys
    refine Tx.calm_ofExcept_bind fun e _ => Tx.calm_bind ?_ fun row => Tx.calm_bind ih fun rows => Tx.calm_pure _
    unfold ingestKey
    refine Tx.calm_get_bind fun d => Tx.calm_ofExcept_bind fun found _ => ?_
    cases found with
    | none => exact Tx.calm_bind (quiet_modify _) fun _ => Tx.calm_pure _
    | some p => exact Tx.calm_bind (quiet_modify _) fun _ => Tx.calm_pure _

theorem quiet_removeAll (seen : List ℕ) (stale : List (ℕ × SshKey)) : Quiet (removeAll seen stale) := by
  induction stale with
  | nil => exact Tx.calm_pure _
  | cons p rest ih =>
    unfold removeAll
    exact Tx.calm_ite (fun _ => Tx.calm_bind (quiet_modify _) fun _ => Tx.calm_bind ih fun _ => Tx.calm_pure _) fun _ => ih

theorem quiet_openAll (existing : List (ℕ × DiscoveryFinding)) (want : List (String × Wanted)) :
    Quiet (openAll env existing want) := by
  induction want with
  | nil => exact Tx.calm_pure _
  | cons p rest ih =>
    unfold openAll
    refine Tx.calm_bind ?_ fun _ => ih
    unfold openFinding
    split
    · exact quiet_addFinding _
    · exact quiet_modify _

theorem quiet_agentReport (actor : Actor) (r : Report) : Quiet (agentReport cfg env actor r) := by
  unfold agentReport ingestAgentReport
  refine Tx.calm_ofExcept_bind fun _ _ => Tx.calm_bind ?_ fun out => ?_
  · refine Tx.calm_bind (quiet_ingestCerts _ _ _) fun _ => Tx.calm_bind (quiet_exposeAll _ _) fun _ => ?_
    refine Tx.calm_get_bind fun d => Tx.calm_bind (quiet_resolveAll _ _) fun _ => ?_
    exact Tx.calm_bind (quiet_record _ _ _ _) fun _ => Tx.calm_pure _
  · split
    · exact Tx.calm_pure _
    · unfold SshKeys.ingest refreshFindings
      refine Tx.calm_bind ?_ fun res => Tx.calm_bind (quiet_record _ _ _ _) fun _ => Tx.calm_pure _
      refine Tx.calm_bind (quiet_ingestKeys _ _) fun _ => Tx.calm_get_bind fun d => ?_
      refine Tx.calm_bind (quiet_removeAll _ _) fun _ => Tx.calm_bind ?_ fun _ => Tx.calm_pure _
      exact Tx.calm_get_bind fun d => Tx.calm_bind (quiet_openAll _ _) fun _ => quiet_resolveAll _ _

theorem quiet_acknowledge (actor : Actor) (id : ℕ) (comment : String) :
    Quiet (Discovery.acknowledge env actor id comment) := by
  refine Tx.calm_ofExcept_bind fun _ _ => Tx.calm_get_bind fun d => ?_
  cases d.findings.get id with
  | none => exact Tx.calm_throw _
  | some f => exact Tx.calm_bind (quiet_modify _) fun _ => quiet_record _ _ _ _

/-- its transaction leaves the store -/
theorem Quiet.transact_of_raises {α : Type} {m : D α} (hquiet : Quiet m) {d : Store} {e : Err} {s' : Session Store}
    (h : m ⟨d, d⟩ = (.error e, s')) : (Tx.transact m d).2 = d := by
  rw [Tx.transact_of_raises h]
  have hcommitted := (hquiet ⟨d, d⟩).1
  rwa [h] at hcommitted

end Quiet

/-! ## Runs -/

/-- reports of any hosts, and acknowledgements between them -/
inductive Op where
  | report (cfg : Settings) (env : Env) (actor : Actor) (r : Report)
  | acknowledge (env : Env) (actor : Actor) (id : ℕ) (comment : String)

def step (d : Store) : Op → Store
  | .report cfg env actor r => (Tx.transact (agentReport cfg env actor r) d).2
  | .acknowledge env actor id comment => (Tx.transact (Discovery.acknowledge env actor id comment) d).2

/-- a report leaves every other host alone -/
def Isolates (d : Store) : Op → Prop
  | .report cfg env actor r => Isolated r.host d (Discovery.step d (.report cfg env actor r))
  | .acknowledge .. => True

/-- a report that is accepted only takes its own findings for its own -/
def TakesOwn (d : Store) : Op → Prop
  | .report cfg env actor r => Tx.Returns (agentReport cfg env actor r) ⟨d, d⟩ → OnlyOwn cfg env r d
  | .acknowledge .. => True

theorem isolates_iff (d : Store) (o : Discovery.Op) : Isolates d o ↔ TakesOwn d o := by
  cases o with
  | acknowledge env actor id comment => exact Iff.rfl
  | report cfg env actor r =>
    show Isolated r.host d (Tx.transact (agentReport cfg env actor r) d).2 ↔ _
    cases hrun : agentReport cfg env actor r ⟨d, d⟩ with
    | mk out s =>
      cases out with
      | error e =>
        rw [(quiet_agentReport actor r).transact_of_raises hrun]
        refine iff_of_true ⟨.refl _, .refl _⟩ fun hreturns => ?_
        obtain ⟨a, s', hok⟩ := hreturns
        rw [hrun] at hok
        cases hok
      | ok out =>
        rw [Tx.transact_snd_of_run hrun, report_isolated_iff hrun]
        constructor
        · intro hown _
          exact hown
        · intro hown
          exact hown ⟨out, s, hrun⟩

/-- **Every report of a run leaves the other hosts alone exactly where every report that is accepted takes only its own
findings for its own**, whatever the host names are. -/
theorem reports_isolated_iff (d : Store) (ops : List Discovery.Op) :
    Along Discovery.step Isolates d ops ↔ Along Discovery.step TakesOwn d ops :=
  ⟨fun h => h.mono fun s o => (isolates_iff s o).1, fun h => h.mono fun s o => (isolates_iff s o).2⟩

end Reports

/-! ### A host whose name is a pattern -/

section Examples

def plainSettings : Settings := ⟨.postgresql, fun _ => .error (.value "no certificate"), 2048, 365⟩

def emptyStore : Store := ⟨Db.empty, .empty, .empty⟩

def agentActor : Actor := ⟨"agent", .agent, none⟩

def keyFileReport (host : String) (files : List Dict) : Discovery.Op :=
  .report plainSettings demoEnv agentActor ⟨host, [], files, none⟩

/-- the store after a host reported a readable key -/
def reportedStore : Store :=
  Discovery.step emptyStore (keyFileReport "web01" [[("path", .str "/etc/ssl/key.pem"), ("world_readable", .bool true)]])

/-- then another host, whose name matches the first's, reports none -/
def resolvedStore : Store := Discovery.step reportedStore (keyFileReport "web_1" [])

/-- The underscore of a host name matches any character, and the other host's open finding is resolved. -/
theorem wildcard_resolves :
    ¬ ∀ (d : Store) (ops : List Discovery.Op), Along Discovery.step Isolates d ops := by
  intro h
  have hsecond := (h emptyStore [keyFileReport "web01" [[("path", .str "/etc/ssl/key.pem"), ("world_readable", .bool true)]],
    keyFileReport "web_1" []]).2.1
  have hlast : Isolated "web_1" reportedStore resolvedStore := hsecond
  have hbefore : (reportedStore.findings.get 1).map (fun f => (f.kind, hostOf f, f.status)) =
      some (.keyReadable, some (.str "web01"), .opened) := by
    decide +kernel
  have hafter : (resolvedStore.findings.get 1).map (·.status) = some .resolved := by
    decide +kernel
  obtain ⟨f, hf, hcolumns⟩ := Option.map_eq_some_iff.1 hbefore
  obtain ⟨hkind, hrest⟩ := Prod.mk.inj hcolumns
  obtain ⟨hhost, hopened⟩ := Prod.mk.inj hrest
  have hother : OtherReadable "web_1" f := by
    refine ⟨hkind, ?_⟩
    rw [hhost]
    decide
  rw [(hlast.findings 1 f hother).1 hf] at hafter
  have hresolved : f.status = .resolved := Option.some.inj hafter
  rw [hopened] at hresolved
  cases hresolved

end Examples

end Certadillo.Discovery
