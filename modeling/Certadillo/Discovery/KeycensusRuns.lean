/-
Imports of keycensus inventories, one after another.

A row is known by the first 64 characters of an asset's id, and the findings are opened after the loop from the rows the loop
noted. So two ids can share a row, and an untracked certificate whose id comes again gets the finding of the later entry.

- `reconcile_run`: an import reconciles exactly where its document is `Unambiguous`.
- `unambiguous_of_nodup`: as one is whose ids differ in their first 64 characters, each once.
- `imports_reconcile_iff`: the same for every import of a run.
- `repeated_id_misleads`: a certificate whose id comes again as a key.
-/
import Certadillo.Discovery.KeycensusImport

namespace Certadillo.Keycensus

open Integrity Policy Py Datetime Discovery Machine Upserts

/-! ## The certificate inventory -/

section Certificates

variable {env : Env} {certs : Table Certificate} {e : Entry}

theorem byFp_iff (hunique : certs.UniqueBy Certificate.fingerprintSha256) {fp : String} {c : ℕ} :
    (byFp certs).lookup fp = some c ↔ ∃ cert, certs.get c = some cert ∧ cert.fingerprintSha256 = fp := by
  obtain ⟨-, hfrom, hhas⟩ :=
    updateItems_spec (d := []) (e := certs.rows.map fun p => (p.2.fingerprintSha256, p.1)) List.nodup_nil
  have hback : ∀ {fp c}, (byFp certs).lookup fp = some c →
      ∃ cert, certs.get c = some cert ∧ cert.fingerprintSha256 = fp := by
    intro fp c h
    rcases hfrom fp c h with hmem | hnil
    · obtain ⟨p, hp, heq⟩ := List.mem_map.1 hmem
      obtain ⟨rfl, rfl⟩ := Prod.mk.inj heq
      exact ⟨p.2, Table.mem_rows.1 hp, rfl⟩
    · cases hnil
  refine ⟨hback, fun h => ?_⟩
  obtain ⟨cert, hcert, rfl⟩ := h
  have hsome := hhas cert.fingerprintSha256 (Or.inl ⟨c, List.mem_map.2 ⟨(c, cert), Table.mem_rows.2 hcert, rfl⟩⟩)
  obtain ⟨c', hc'⟩ := Option.isSome_iff_exists.1 hsome
  obtain ⟨cert', hcert', hfp⟩ := hback hc'
  obtain rfl := hunique c' c cert' cert hcert' hcert hfp
  exact hc'

/-- an asset is linked iff it is a certificate with that certificate's fingerprint -/
theorem certOf_iff (hunique : certs.UniqueBy Certificate.fingerprintSha256) {c : ℕ} :
    certOf certs e = some c ↔
      e.kind = .certificate ∧ ∃ cert, certs.get c = some cert ∧ e.fingerprintSha256 = some cert.fingerprintSha256 := by
  unfold certOf
  split
  · next hkind =>
    rw [Option.bind_eq_some_iff]
    constructor
    · intro h
      obtain ⟨fp, hfp, hlookup⟩ := h
      obtain ⟨cert, hcert, rfl⟩ := (byFp_iff hunique).1 hlookup
      exact ⟨hkind, cert, hcert, hfp⟩
    · intro h
      obtain ⟨-, cert, hcert, hfp⟩ := h
      exact ⟨_, hfp, (byFp_iff hunique).2 ⟨cert, hcert, rfl⟩⟩
  · next hkind => simp [hkind]

/-- an unexpired certificate entry with a fingerprint that no certificate has -/
structure Untracked (env : Env) (certs : Table Certificate) (e : Entry) (fp : String) : Prop where
  kind : e.kind = .certificate
  fingerprint : e.fingerprintSha256 = some fp
  unexpired : ∀ t, e.expires = some t → env.now * 1000000 < unixOf t
  unknown : ∀ c cert, certs.get c = some cert → cert.fingerprintSha256 ≠ fp

theorem unexpired_iff : unexpired env e = true ↔ ∀ t, e.expires = some t → env.now * 1000000 < unixOf t := by
  unfold unexpired
  cases e.expires with
  | none => simp
  | some t => simp

theorem isUntracked_iff (hunique : certs.UniqueBy Certificate.fingerprintSha256) :
    isUntracked env certs e = true ↔ ∃ fp, Untracked env certs e fp := by
  simp only [isUntracked, Bool.and_eq_true, decide_eq_true_eq, Option.isNone_iff_eq_none, unexpired_iff]
  constructor
  · intro h
    obtain ⟨⟨⟨hnone, hkind⟩, hsome⟩, hexpires⟩ := h
    obtain ⟨fp, hfp⟩ := Option.isSome_iff_exists.1 hsome
    refine ⟨fp, hkind, hfp, hexpires, fun c cert hcert hsame => ?_⟩
    rw [(certOf_iff hunique).2 ⟨hkind, cert, hcert, hfp.trans (congrArg some hsame.symm)⟩] at hnone
    cases hnone
  · intro h
    obtain ⟨fp, h⟩ := h
    refine ⟨⟨⟨?_, h.kind⟩, by rw [h.fingerprint]; rfl⟩, h.unexpired⟩
    by_contra hlinked
    obtain ⟨c, hc⟩ := Option.ne_none_iff_exists'.1 hlinked
    obtain ⟨-, cert, hcert, hfp⟩ := (certOf_iff hunique).1 hc
    exact h.unknown c cert hcert (Option.some.inj (hfp.symm.trans h.fingerprint))

end Certificates

/-! ## Documents -/

/-- the ids of a document's assets and what these say, in order -/
abbrev Lines := List (Json × Entry)

def linesOf (fromisoformat : String → Option DateTime) (doc : Json) : Except Err Lines := do
  let assets ← assetsOf doc
  assets.mapM (assetOf fromisoformat)

def idsOf (lines : Lines) : Set Json := {x | x ∈ lines.map Prod.fst}

/-- the last entry for an id -/
def lastOf (lines : Lines) (x : Json) : Option Entry := (lastWith Prod.fst x lines).map Prod.snd

def presentRows (t : Table ExternalAsset) : Set ℕ := {i | ∃ r, t.get i = some r ∧ r.status = .present}

/-- rows of this source, one for each asset id, with the links they should have -/
structure RowsInv (certs : Table Certificate) (t : Table ExternalAsset) : Prop where
  unique : t.UniqueBy (·.assetId)
  source : ∀ i r, t.get i = some r → r.source = SOURCE
  linked : ∀ i r, t.get i = some r → r.certificateId = certOf certs r.toEntry

/-- the rows after a document with the entries `es` -/
structure AssetsAfter (certs : Table Certificate) (es : List Entry) (t : Table ExternalAsset) : Prop
    extends RowsInv certs t where
  present : ∀ i r, t.get i = some r → (r.status = .present ↔ r.assetId ∈ es.map Entry.assetId)
  last : ∀ i r e, t.get i = some r → lastWith Entry.assetId r.assetId es = some e → r.toEntry = e
  has : ∀ aid ∈ es.map Entry.assetId, ∃ i r, t.get i = some r ∧ r.assetId = aid

section Assets

variable {env : Env} {certs : Table Certificate} {es : List Entry} {t : Table ExternalAsset} {acc : Progress}

theorem RowsInv.byKey (h : RowsInv certs t) : t.UniqueBy rowKey := by
  intro i j a b ha hb hsame
  exact h.unique i j a b ha hb (Prod.mk.inj hsame).2

theorem mem_entryKeys {r : ExternalAsset} (hsource : r.source = SOURCE) :
    rowKey r ∈ es.map entryKey ↔ r.assetId ∈ es.map Entry.assetId := by
  simp [rowKey, entryKey, hsource]

theorem lastWith_rowKey {r : ExternalAsset} (hsource : r.source = SOURCE) :
    lastWith entryKey (rowKey r) es = lastWith Entry.assetId r.assetId es := by
  apply lastWith_congr
  intro e _
  simp [rowKey, entryKey, hsource]

/-- a row of the loop is of this source -/
theorem looped_source (hinv : RowsInv certs t) (h : Looped env certs es t acc) {i : ℕ} {r : ExternalAsset}
    (hr : acc.assets.get i = some r) : r.source = SOURCE := by
  by_cases hmem : rowKey r ∈ es.map entryKey
  · obtain ⟨e, -, he⟩ := List.mem_map.1 hmem
    exact (Prod.mk.inj he).1.symm
  · exact hinv.source i r (h.rows.untouched hr hmem)

/-- a row of the loop is linked as it should be -/
theorem looped_linked (hinv : RowsInv certs t) (h : Looped env certs es t acc) {i : ℕ} {r : ExternalAsset}
    (hr : acc.assets.get i = some r) : r.certificateId = certOf certs r.toEntry := by
  by_cases hmem : rowKey r ∈ es.map entryKey
  · obtain ⟨e, he⟩ := lastWith_isSome hmem
    obtain ⟨rfl, hlink, -⟩ := h.rows.last i r e hr he
    exact hlink
  · exact hinv.linked i r (h.rows.untouched hr hmem)

theorem assetsAfter_loop (hinv : RowsInv certs t) (h : Looped env certs es t acc) :
    AssetsAfter certs es (rowsAfter acc) := by
  have hsome : ∀ {i r'}, (rowsAfter acc).get i = some r' → ∃ r, acc.assets.get i = some r ∧ r'.assetId = r.assetId ∧
      r'.source = r.source ∧ r'.toEntry = r.toEntry ∧ r'.certificateId = r.certificateId ∧
      (rowKey r ∈ es.map entryKey → r' = r) ∧ (rowKey r ∉ es.map entryKey → r'.status = .removed) := by
    intro i r' hr'
    obtain ⟨r, hr, rfl⟩ := rowsAfter_some h hinv.source hr'
    refine ⟨r, hr, ?_⟩
    split
    · next hmem => exact ⟨rfl, rfl, rfl, rfl, fun _ => rfl, fun hnot => absurd hmem hnot⟩
    · next hmem => exact ⟨rfl, rfl, rfl, rfl, fun hin => absurd hin hmem, fun _ => rfl⟩
  refine ⟨⟨fun i j a b ha hb hsame => ?_, fun i r' hr' => ?_, fun i r' hr' => ?_⟩, fun i r' hr' => ?_,
    fun i r' e hr' hlast => ?_, fun aid haid => ?_⟩
  · obtain ⟨a₀, ha₀, hak, has, -⟩ := hsome ha
    obtain ⟨b₀, hb₀, hbk, hbs, -⟩ := hsome hb
    refine h.rows.unique i j a₀ b₀ ha₀ hb₀ (Prod.ext ?_ (hak.symm.trans (hsame.trans hbk)))
    exact (looped_source hinv h ha₀).trans (looped_source hinv h hb₀).symm
  · obtain ⟨r, hr, -, hsource, -⟩ := hsome hr'
    exact hsource.trans (looped_source hinv h hr)
  · obtain ⟨r, hr, -, -, hentry, hlink, -⟩ := hsome hr'
    rw [hlink, hentry]
    exact looped_linked hinv h hr
  · obtain ⟨r, hr, hk, -, -, -, hin, hout⟩ := hsome hr'
    rw [hk, ← mem_entryKeys (looped_source hinv h hr)]
    constructor
    · intro hpresent
      by_contra hmem
      rw [hout hmem] at hpresent
      cases hpresent
    · intro hmem
      obtain ⟨e, he⟩ := lastWith_isSome hmem
      rw [hin hmem]
      exact (h.rows.last i r e hr he).2.2
  · obtain ⟨r, hr, hk, -, hentry, -⟩ := hsome hr'
    rw [hk, ← lastWith_rowKey (looped_source hinv h hr)] at hlast
    rw [hentry]
    exact (h.rows.last i r e hr hlast).1
  · obtain ⟨e, he, rfl⟩ := List.mem_map.1 haid
    obtain ⟨i, r, hr, hk⟩ := h.rows.has (entryKey e) (List.mem_map_of_mem he)
    refine ⟨i, r, ?_, (Prod.mk.inj hk).2⟩
    rw [rowsAfter_get h hinv.source hr, if_pos (by rw [hk]; exact List.mem_map_of_mem he)]

/-- the keys of the rows the loop noted as untracked: those of the last entries under the ids of the untracked entries -/
theorem untrackedKeys_loop (hinv : RowsInv certs t) (h : Looped env certs es t acc) {key : String} :
    key ∈ (acc.untracked.filterMap (rowsAfter acc).get).map keyOf ↔ ∃ e ∈ es, isUntracked env certs e = true ∧
      ∃ e', lastWith Entry.assetId e.assetId es = some e' ∧ untrackedKey e'.fingerprintSha256 = key := by
  have hrow : ∀ {i r}, acc.assets.get i = some r → ∀ {e}, e ∈ es → entryKey e = rowKey r →
      (rowsAfter acc).get i = some r ∧ ∃ e', lastWith Entry.assetId e.assetId es = some e' ∧ r.toEntry = e' := by
    intro i r hr e he hek
    have hmem : rowKey r ∈ es.map entryKey := by rw [← hek]; exact List.mem_map_of_mem he
    refine ⟨by rw [rowsAfter_get h hinv.source hr, if_pos hmem], ?_⟩
    obtain ⟨e', he'⟩ := lastWith_isSome hmem
    refine ⟨e', ?_, (h.rows.last i r e' hr he').1⟩
    rw [lastWith_rowKey (looped_source hinv h hr)] at he'
    rw [(Prod.mk.inj hek).2]
    exact he'
  rw [List.mem_map]
  constructor
  · intro hkey
    obtain ⟨r', hr', rfl⟩ := hkey
    obtain ⟨i, hi, hget⟩ := List.mem_filterMap.1 hr'
    obtain ⟨r, hr, e, he, hu, hek⟩ := (h.untracked i).1 hi
    obtain ⟨hafter, e', he', hentry⟩ := hrow hr he hek
    obtain rfl := Option.some.inj (hget.symm.trans hafter)
    exact ⟨e, he, hu, e', he', by rw [← hentry]; rfl⟩
  · intro hkey
    obtain ⟨e, he, hu, e', he', rfl⟩ := hkey
    obtain ⟨i, r, hr, hk⟩ := h.rows.has (entryKey e) (List.mem_map_of_mem he)
    obtain ⟨hafter, e'', he'', hentry⟩ := hrow hr he hk.symm
    obtain rfl := Option.some.inj (he'.symm.trans he'')
    refine ⟨r, List.mem_filterMap.2 ⟨i, (h.untracked i).2 ⟨r, hr, e, he, hu, hk.symm⟩, hafter⟩, ?_⟩
    rw [← hentry]
    rfl

end Assets

/-! ## One import -/

/-- After the document the present rows stand for its ids, each with the last entry for its id; a row is linked to the
certificate it is; and the open findings are the fingerprints of the document's untracked certificates, but for the
acknowledged ones. -/
structure Reconciled (env : Env) (lines : Lines) (d : Keycensus.Store) : Prop where
  assets : ∃ row : Json → ℕ, Set.BijOn row (idsOf lines) (presentRows d.externalAssets) ∧
    ∀ x e, lastOf lines x = some e → ∃ r, d.externalAssets.get (row x) = some r ∧ r.toEntry = e
  linked : ∀ i r c, d.externalAssets.get i = some r → (r.certificateId = some c ↔ r.kind = .certificate ∧
    ∃ cert, d.main.db.certificates.get c = some cert ∧ r.fingerprintSha256 = some cert.fingerprintSha256)
  findings : keysWith .opened d.main.findings =
    {key | ∃ p ∈ lines, ∃ fp, Untracked env d.main.db.certificates p.2 fp ∧ untrackedKey (some fp) = key} \
      keysWith .acknowledged d.main.findings

/-- No two ids of the document share their first 64 characters, and the last entries under the ids of its untracked
certificates have the fingerprints these have, but for those that are acknowledged. -/
structure Unambiguous (env : Env) (lines : Lines) (d : Keycensus.Store) : Prop where
  ids : Set.InjOn shortId (idsOf lines)
  last : ∀ key ∉ keysWith .acknowledged d.main.findings,
    (∃ p ∈ lines, ∃ fp, Untracked env d.main.db.certificates p.2 fp ∧
      ∃ e, lastOf lines p.1 = some e ∧ untrackedKey e.fingerprintSha256 = key) ↔
    ∃ p ∈ lines, ∃ fp, Untracked env d.main.db.certificates p.2 fp ∧ untrackedKey (some fp) = key

/-- what every import keeps -/
structure Inv (d : Keycensus.Store) : Prop where
  certificates : d.main.db.certificates.UniqueBy Certificate.fingerprintSha256
  rows : RowsInv d.main.db.certificates d.externalAssets
  findings : FindingsInv d.main.findings

section Import

variable {fromisoformat : String → Option DateTime} {env : Env} {lines : Lines} {d : Keycensus.Store} {doc : Json}

/-- an entry is stored under the short form of its id -/
theorem assetOf_id {a x : Json} {e : Entry} (h : assetOf fromisoformat a = .ok (x, e)) : e.assetId = shortId x := by
  unfold assetOf at h
  split at h
  · dsimp only at h
    split at h
    · obtain ⟨applications, -, h⟩ := except_bind_ok.1 h
      obtain ⟨usedBy, -, h⟩ := except_bind_ok.1 h
      obtain ⟨rfl, rfl⟩ := Prod.mk.inj (Except.ok.inj h)
      rfl
    · cases h
  · cases h

theorem linesOf_ids (h : linesOf fromisoformat doc = .ok lines) {p : Json × Entry} (hp : p ∈ lines) :
    p.2.assetId = shortId p.1 := by
  obtain ⟨assets, -, hread⟩ := except_bind_ok.1 h
  obtain ⟨a, -, ha⟩ := (except_mapM_mem hread).1 hp
  exact assetOf_id ha

theorem lastOf_some {x : Json} {e : Entry} (h : lastOf lines x = some e) : (x, e) ∈ lines := by
  obtain ⟨p, hp, rfl⟩ := Option.map_eq_some_iff.1 h
  obtain ⟨hmem, rfl⟩ := lastWith_some hp
  exact hmem

theorem lastOf_isSome {x : Json} (h : x ∈ idsOf lines) : ∃ e, lastOf lines x = some e := by
  obtain ⟨p, hp⟩ := lastWith_isSome h
  exact ⟨p.2, by unfold lastOf; rw [hp]; rfl⟩

/-- where ids differ under the short form, the last entry for an id is the last one stored under it -/
theorem lastOf_short (hids : ∀ p ∈ lines, p.2.assetId = shortId p.1) (hinj : Set.InjOn shortId (idsOf lines)) {x : Json}
    (hx : x ∈ idsOf lines) : lastWith Entry.assetId (shortId x) (lines.map Prod.snd) = lastOf lines x := by
  have hmap : lastWith Entry.assetId (shortId x) (lines.map Prod.snd) =
      (lastWith (fun p : Json × Entry => p.2.assetId) (shortId x) lines).map Prod.snd := by
    unfold lastWith
    rw [← List.map_reverse, List.find?_map]
    rfl
  rw [hmap]
  unfold lastOf
  refine congrArg _ (lastWith_congr fun p hp => ?_)
  rw [hids p hp]
  exact hinj.eq_iff (List.mem_map_of_mem hp) hx

theorem mem_shortIds (hids : ∀ p ∈ lines, p.2.assetId = shortId p.1) {aid : String} :
    aid ∈ (lines.map Prod.snd).map Entry.assetId ↔ ∃ x ∈ idsOf lines, shortId x = aid := by
  rw [List.map_map, List.mem_map]
  constructor
  · intro h
    obtain ⟨p, hp, rfl⟩ := h
    exact ⟨p.1, List.mem_map_of_mem hp, (hids p hp).symm⟩
  · intro h
    obtain ⟨x, hx, rfl⟩ := h
    obtain ⟨p, hp, rfl⟩ := List.mem_map.1 hx
    exact ⟨p, hp, hids p hp⟩

/-- the present rows stand for the ids iff these differ under the short form -/
theorem assets_iff {certs : Table Certificate} {t : Table ExternalAsset} (hids : ∀ p ∈ lines, p.2.assetId = shortId p.1)
    (h : AssetsAfter certs (lines.map Prod.snd) t) :
    (∃ row : Json → ℕ, Set.BijOn row (idsOf lines) (presentRows t) ∧
      ∀ x e, lastOf lines x = some e → ∃ r, t.get (row x) = some r ∧ r.toEntry = e) ↔ Set.InjOn shortId (idsOf lines) := by
  constructor
  · intro hrow x hx y hy hsame
    obtain ⟨row, hbij, hlast⟩ := hrow
    -- the row of an id is stored under its short form
    have hstored : ∀ x ∈ idsOf lines, ∃ r, t.get (row x) = some r ∧ r.assetId = shortId x := by
      intro x hx
      obtain ⟨e, he⟩ := lastOf_isSome hx
      obtain ⟨r, hr, rfl⟩ := hlast x e he
      exact ⟨r, hr, hids _ (lastOf_some he)⟩
    obtain ⟨r, hr, hk⟩ := hstored x hx
    obtain ⟨r', hr', hk'⟩ := hstored y hy
    exact hbij.injOn hx hy (h.unique _ _ r r' hr hr' (hk.trans (hsame.trans hk'.symm)))
  · intro hinj
    have hrow : ∀ x : Json, ∃ i, x ∈ idsOf lines → ∃ r, t.get i = some r ∧ r.assetId = shortId x := by
      intro x
      by_cases hx : x ∈ idsOf lines
      · obtain ⟨i, r, hr⟩ := h.has (shortId x) ((mem_shortIds hids).2 ⟨x, hx, rfl⟩)
        exact ⟨i, fun _ => ⟨r, hr⟩⟩
      · exact ⟨0, fun hx' => absurd hx' hx⟩
    choose row hrow using hrow
    refine ⟨row, ⟨fun x hx => ?_, fun x hx y hy hsame => ?_, fun i hi => ?_⟩, fun x e he => ?_⟩
    · obtain ⟨r, hr, hk⟩ := hrow x hx
      exact ⟨r, hr, (h.present _ r hr).2 ((mem_shortIds hids).2 ⟨x, hx, hk.symm⟩)⟩
    · obtain ⟨r, hr, hk⟩ := hrow x hx
      obtain ⟨r', hr', hk'⟩ := hrow y hy
      rw [hsame] at hr
      obtain rfl := Option.some.inj (hr.symm.trans hr')
      exact hinj hx hy (hk.symm.trans hk')
    · obtain ⟨r, hr, hstatus⟩ := hi
      obtain ⟨x, hx, hk⟩ := (mem_shortIds hids).1 ((h.present i r hr).1 hstatus)
      obtain ⟨r', hr', hk'⟩ := hrow x hx
      exact ⟨x, hx, h.unique _ i r' r hr' hr (hk'.trans hk)⟩
    · have hx : x ∈ idsOf lines := List.mem_map.2 ⟨(x, e), lastOf_some he, rfl⟩
      obtain ⟨r, hr, hk⟩ := hrow x hx
      refine ⟨r, hr, h.last _ r e hr ?_⟩
      rw [hk, lastOf_short hids hinj hx, he]

theorem diff_eq_diff_iff {α : Type} {a b c : Set α} : a \ c = b \ c ↔ ∀ x ∉ c, x ∈ a ↔ x ∈ b := by
  constructor
  · intro h x hx
    have hmem := Set.ext_iff.1 h x
    exact ⟨fun ha => (hmem.1 ⟨ha, hx⟩).1, fun hb => (hmem.2 ⟨hb, hx⟩).1⟩
  · intro h
    ext x
    exact ⟨fun hx => ⟨(h x hx.2).1 hx.1, hx.2⟩, fun hx => ⟨(h x hx.2).2 hx.1, hx.2⟩⟩

/-- the keys the loop opens, in terms of the document -/
theorem openedKeys_iff {certs : Table Certificate} (hcerts : certs.UniqueBy Certificate.fingerprintSha256)
    (hids : ∀ p ∈ lines, p.2.assetId = shortId p.1) (hinj : Set.InjOn shortId (idsOf lines)) {key : String} :
    (∃ e ∈ lines.map Prod.snd, isUntracked env certs e = true ∧
        ∃ e', lastWith Entry.assetId e.assetId (lines.map Prod.snd) = some e' ∧ untrackedKey e'.fingerprintSha256 = key) ↔
      ∃ p ∈ lines, ∃ fp, Untracked env certs p.2 fp ∧
        ∃ e, lastOf lines p.1 = some e ∧ untrackedKey e.fingerprintSha256 = key := by
  constructor
  · intro h
    obtain ⟨e, he, hu, e', hlast, hkey⟩ := h
    obtain ⟨p, hp, rfl⟩ := List.mem_map.1 he
    obtain ⟨fp, hfp⟩ := (isUntracked_iff hcerts).1 hu
    rw [hids p hp, lastOf_short hids hinj (List.mem_map_of_mem hp)] at hlast
    exact ⟨p, hp, fp, hfp, e', hlast, hkey⟩
  · intro h
    obtain ⟨p, hp, fp, hfp, e, hlast, hkey⟩ := h
    refine ⟨p.2, List.mem_map_of_mem hp, (isUntracked_iff hcerts).2 ⟨fp, hfp⟩, e, ?_, hkey⟩
    rw [hids p hp, lastOf_short hids hinj (List.mem_map_of_mem hp), hlast]

variable (env) in
/-- **An import of a document that can be read returns, and reconciles exactly where the document is unambiguous.** -/
theorem reconcile_run (hinv : Inv d) (hlines : linesOf fromisoformat doc = .ok lines) :
    ∃ out, reconcile fromisoformat env d doc = .ok out ∧ ∀ d' : Keycensus.Store,
      d'.main.db.certificates = d.main.db.certificates → d'.main.findings = out.findings → d'.externalAssets = out.assets →
        Inv d' ∧ (Reconciled env lines d' ↔ Unambiguous env lines d) := by
  obtain ⟨assets, hassets, hread⟩ := except_bind_ok.1 hlines
  have hids : ∀ p ∈ lines, p.2.assetId = shortId p.1 := fun p hp => linesOf_ids hlines hp
  obtain ⟨acc, hloop, hlooped⟩ :=
    loop_run env d.main.db.certificates hinv.rows.byKey (lines.map Prod.snd)
  have hafter := assetsAfter_loop hinv.rows hlooped
  obtain ⟨fs, hfs, hfindings, hopen, hacked⟩ :=
    openFindings_run env hinv.findings (acc.untracked.filterMap (rowsAfter acc).get)
  refine ⟨⟨resultOf doc assets acc, rowsAfter acc, fs⟩, ?_, fun d' hcerts hfs' hrows => ?_⟩
  · unfold reconcile
    rw [hassets, except_ok_bind, importAssets_ok.2 ⟨lines, hread, hloop⟩, except_ok_bind]
    show (openFindings env d.main.findings (acc.untracked.filterMap (rowsAfter acc).get) >>= _) = _
    rw [hfs]
    rfl
  dsimp only at hfs' hrows
  refine ⟨⟨?_, ?_, ?_⟩, ?_⟩
  · rw [hcerts]
    exact hinv.certificates
  · rw [hcerts, hrows]
    exact hafter.toRowsInv
  · rw [hfs']
    exact hfindings
  constructor
  · intro h
    have hinj : Set.InjOn shortId (idsOf lines) := by
      rw [← assets_iff hids hafter, ← hrows]
      exact h.assets
    refine ⟨hinj, fun key hkey => ?_⟩
    have hsame := h.findings
    rw [hfs', hopen, hacked, hcerts] at hsame
    rw [← openedKeys_iff hinv.certificates hids hinj, ← untrackedKeys_loop hinv.rows hlooped]
    exact diff_eq_diff_iff.1 hsame key hkey
  · intro h
    refine ⟨?_, fun i r c hr => ?_, ?_⟩
    · rw [hrows]
      exact (assets_iff hids hafter).2 h.ids
    · rw [hrows] at hr
      rw [hafter.linked i r hr, hcerts]
      exact certOf_iff hinv.certificates
    · rw [hfs', hopen, hacked, hcerts]
      refine diff_eq_diff_iff.2 fun key hkey => ?_
      rw [Set.mem_ofPred_eq, untrackedKeys_loop hinv.rows hlooped, openedKeys_iff hinv.certificates hids h.ids]
      exact h.last key hkey

/-- a document that cannot be read is refused -/
theorem reconcile_reads {out : Imported} (h : reconcile fromisoformat env d doc = .ok out) :
    ∃ lines, linesOf fromisoformat doc = .ok lines := by
  obtain ⟨assets, hassets, h⟩ := except_bind_ok.1 h
  obtain ⟨acc, hacc, -⟩ := except_bind_ok.1 h
  obtain ⟨lines, hlines, -⟩ := importAssets_ok.1 hacc
  refine ⟨lines, ?_⟩
  unfold linesOf
  rw [hassets, except_ok_bind, hlines]

/-- ids that differ in their first 64 characters, each once -/
theorem unambiguous_of_nodup (h : (lines.map fun p => shortId p.1).Nodup) : Unambiguous env lines d := by
  have hone : ∀ p ∈ lines, ∀ q ∈ lines, shortId p.1 = shortId q.1 → p = q :=
    fun p hp q hq => List.inj_on_of_nodup_map h hp hq
  have hlast : ∀ p ∈ lines, lastOf lines p.1 = some p.2 := by
    intro p hp
    obtain ⟨e, he⟩ := lastOf_isSome (List.mem_map_of_mem hp)
    rw [he, hone p hp (p.1, e) (lastOf_some he) rfl]
  refine ⟨fun x hx y hy hsame => ?_, fun key _ => ?_⟩
  · obtain ⟨p, hp, rfl⟩ := List.mem_map.1 hx
    obtain ⟨q, hq, rfl⟩ := List.mem_map.1 hy
    rw [hone p hp q hq hsame]
  · constructor
    · intro hkey
      obtain ⟨p, hp, fp, hfp, e, he, hkey⟩ := hkey
      obtain rfl := Option.some.inj ((hlast p hp).symm.trans he)
      exact ⟨p, hp, fp, hfp, by rw [← hfp.fingerprint]; exact hkey⟩
    · intro hkey
      obtain ⟨p, hp, fp, hfp, hkey⟩ := hkey
      exact ⟨p, hp, fp, hfp, p.2, hlast p hp, by rw [hfp.fingerprint]; exact hkey⟩

end Import

/-! ## Runs -/

/-- imports, and acknowledgements between them -/
inductive Op where
  | importDoc (env : Env) (actorName : String) (doc : Json)
  | acknowledge (env : Env) (actor : Actor) (id : ℕ) (comment : String)

/-- a database before the first import: the schema's keys are unique, and nothing is of an import -/
structure Start where
  main : Discovery.Store
  certificates : main.db.certificates.UniqueBy Certificate.fingerprintSha256
  keys : main.findings.UniqueBy DiscoveryFinding.key
  others : ∀ i f fp, main.findings.get i = some f → f.key ≠ untrackedKey fp

def Start.store (s : Start) : Keycensus.Store := ⟨s.main, .empty⟩

section Runs

variable {fromisoformat : String → Option DateTime} {env : Env} {d : Keycensus.Store} {doc : Json} {actorName : String}

variable (fromisoformat) in
def step (d : Keycensus.Store) : Keycensus.Op → Keycensus.Store
  | .importDoc env actorName doc => (Tx.transact (importInventory fromisoformat env actorName doc) d).2
  | .acknowledge env actor id comment => (Tx.transact (onMain (Discovery.acknowledge env actor id comment)) d).2

variable (fromisoformat) in
/-- an import of a document that can be read returns and reconciles -/
def Reconciles (d : Keycensus.Store) : Keycensus.Op → Prop
  | .importDoc env actorName doc => ∀ lines, linesOf fromisoformat doc = .ok lines →
      (∃ out, (Tx.transact (importInventory fromisoformat env actorName doc) d).1 = .ok out) ∧
        Reconciled env lines (Keycensus.step fromisoformat d (.importDoc env actorName doc))
  | .acknowledge .. => True

variable (fromisoformat) in
/-- the document of an import is unambiguous -/
def ReadsOnce (d : Keycensus.Store) : Keycensus.Op → Prop
  | .importDoc env _ doc => ∀ lines, linesOf fromisoformat doc = .ok lines → Unambiguous env lines d
  | .acknowledge .. => True

theorem inv_start (s : Start) : Inv s.store := by
  have hempty : ∀ {i : ℕ} {r : ExternalAsset}, s.store.externalAssets.get i ≠ some r := by
    intro i r hr
    cases hr
  refine ⟨s.certificates, ⟨fun i j a b ha => absurd ha hempty, fun i r hr => absurd hr hempty,
    fun i r hr => absurd hr hempty⟩, s.keys, fun i f fp hf hkey => absurd hkey (s.others i f fp hf)⟩

variable (actorName) in
/-- an import that returns leaves what it reconciled -/
theorem import_returns {out : Imported} (h : reconcile fromisoformat env d doc = .ok out) :
    ∃ d', Tx.transact (importInventory fromisoformat env actorName doc) d = (.ok out.result, d') ∧
      d'.main.db.certificates = d.main.db.certificates ∧ d'.main.findings = out.findings ∧
        d'.externalAssets = out.assets := by
  have hrun : ∃ s' : Session Keycensus.Store, importInventory fromisoformat env actorName doc ⟨d, d⟩ = (.ok out.result, s') ∧
      s'.work.main.db.certificates = d.main.db.certificates ∧ s'.work.main.findings = out.findings ∧
        s'.work.externalAssets = out.assets := by
    unfold importInventory
    rw [Tx.get_bind, h]
    exact ⟨_, rfl, rfl, rfl, rfl⟩
  obtain ⟨s', hs', hkeeps⟩ := hrun
  exact ⟨s'.work, Tx.transact_of_returns hs', hkeeps⟩

/-- one that is refused leaves the database -/
theorem import_raises {e : Err} (h : reconcile fromisoformat env d doc = .error e) :
    Tx.transact (importInventory fromisoformat env actorName doc) d = (.error e, d) := by
  have hrun : importInventory fromisoformat env actorName doc ⟨d, d⟩ = (.error e, ⟨d, d⟩) := by
    unfold importInventory
    rw [Tx.get_bind, h]
    rfl
  exact Tx.transact_of_raises hrun

/-- **An import keeps the invariant, and reconciles iff its document is unambiguous.** -/
theorem import_step (hinv : Inv d) (env : Env) (actorName : String) (doc : Json) :
    Inv (Keycensus.step fromisoformat d (.importDoc env actorName doc)) ∧
      (Reconciles fromisoformat d (.importDoc env actorName doc) ↔
        ReadsOnce fromisoformat d (.importDoc env actorName doc)) := by
  cases hlines : linesOf fromisoformat doc with
  | error e =>
    have hnone : ∀ lines, linesOf fromisoformat doc ≠ .ok lines := by
      intro lines h
      rw [hlines] at h
      cases h
    refine ⟨?_, ⟨fun _ lines h => absurd h (hnone lines), fun _ lines h => absurd h (hnone lines)⟩⟩
    cases hrun : reconcile fromisoformat env d doc with
    | error e' =>
      show Inv (Tx.transact (importInventory fromisoformat env actorName doc) d).2
      rw [import_raises hrun]
      exact hinv
    | ok out =>
      obtain ⟨lines, h⟩ := reconcile_reads hrun
      exact absurd h (hnone lines)
  | ok lines =>
    obtain ⟨out, hrun, hafter⟩ := reconcile_run env hinv hlines
    obtain ⟨d', htransact, hcerts, hfs, hrows⟩ := import_returns actorName hrun
    obtain ⟨hinv', hiff⟩ := hafter d' hcerts hfs hrows
    have hstep : Keycensus.step fromisoformat d (.importDoc env actorName doc) = d' := congrArg Prod.snd htransact
    rw [hstep]
    refine ⟨hinv', fun h lines' hlines' => ?_, fun h lines' hlines' => ?_⟩
    · obtain rfl := Except.ok.inj (hlines.symm.trans hlines')
      have hreconciled := (h lines hlines).2
      rw [hstep] at hreconciled
      exact hiff.1 hreconciled
    · obtain rfl := Except.ok.inj (hlines.symm.trans hlines')
      refine ⟨⟨out.result, congrArg Prod.fst htransact⟩, ?_⟩
      rw [hstep]
      exact hiff.2 (h lines hlines)

theorem transact_onMain {α : Type} (m : D α) :
    (Tx.transact (onMain m) d).2 = { d with main := (Tx.transact m d.main).2 } := by
  unfold Tx.transact onMain
  dsimp only
  cases hrun : m ⟨d.main, d.main⟩ with
  | mk out s' =>
    cases out with
    | error e => rfl
    | ok a => rfl

/-- an acknowledgement changes the one finding, and neither its key nor its kind -/
theorem acknowledge_step (hinv : Inv d) (env : Env) (actor : Actor) (id : ℕ) (comment : String) :
    Inv (Keycensus.step fromisoformat d (.acknowledge env actor id comment)) := by
  show Inv (Tx.transact (onMain (Discovery.acknowledge env actor id comment)) d).2
  rw [transact_onMain]
  rcases @acknowledge_run env actor d.main id comment with hsame | ⟨-, hfindings, hcerts⟩
  · rw [hsame]
    exact hinv
  have hback : ∀ i g, (d.main.findings.update id (acknowledged actor comment)).get i = some g →
      ∃ f, d.main.findings.get i = some f ∧ f.key = g.key ∧ f.kind = g.kind := by
    intro i g hg
    rw [Table.get_update] at hg
    split at hg
    · obtain ⟨f, hf, rfl⟩ := Option.map_eq_some_iff.1 hg
      exact ⟨f, hf, rfl, rfl⟩
    · exact ⟨g, hg, rfl, rfl⟩
  refine ⟨?_, ?_, ⟨fun i j f g hf hg hsame => ?_, fun i g fp hg hkey => ?_⟩⟩
  · rw [hcerts]
    exact hinv.certificates
  · rw [hcerts]
    exact hinv.rows
  · rw [hfindings] at hf hg
    obtain ⟨f₀, hf₀, hfk, -⟩ := hback i f hf
    obtain ⟨g₀, hg₀, hgk, -⟩ := hback j g hg
    exact hinv.findings.unique i j f₀ g₀ hf₀ hg₀ (hfk.trans (hsame.trans hgk.symm))
  · rw [hfindings] at hg
    obtain ⟨g₀, hg₀, hgk, hkind⟩ := hback i g hg
    rw [← hkind]
    exact hinv.findings.kinds i g₀ fp hg₀ (hgk.trans hkey)

theorem inv_step (hinv : Inv d) (o : Keycensus.Op) : Inv (Keycensus.step fromisoformat d o) := by
  cases o with
  | importDoc env actorName doc => exact (import_step hinv env actorName doc).1
  | acknowledge env actor id comment => exact acknowledge_step hinv env actor id comment

theorem reconciles_iff (hinv : Inv d) (o : Keycensus.Op) : Reconciles fromisoformat d o ↔ ReadsOnce fromisoformat d o := by
  cases o with
  | importDoc env actorName doc => exact (import_step hinv env actorName doc).2
  | acknowledge env actor id comment => exact Iff.rfl

/-- **Every import of a run reconciles exactly where every document is unambiguous**: its ids differ in their first 64
characters, and the last entries under the ids of its untracked certificates have the fingerprints these have. -/
theorem imports_reconcile_iff (fromisoformat : String → Option DateTime) (start : Start) (ops : List Keycensus.Op) :
    Along (Keycensus.step fromisoformat) (Reconciles fromisoformat) start.store ops ↔
      Along (Keycensus.step fromisoformat) (ReadsOnce fromisoformat) start.store ops :=
  along_congr_inv (I := Inv) (fun _ o hinv _ => inv_step hinv o) (fun _ o hinv => reconciles_iff hinv o) (inv_start start)

end Runs

/-! ### An id that comes again -/

section Examples

def noTable : Start where
  main := emptyStore
  certificates := fun i j a b ha => by cases ha
  keys := fun i j f g hf => by cases hf
  others := fun i f fp hf => by cases hf

def demoFingerprint : String := String.ofList (List.replicate 64 'a')

def demoDoc (assets : List Json) : Json := .obj [("tool", .str "keycensus"), ("assets", .arr assets)]

def demoAsset (id kind : String) (rest : Dict) : Json := .obj (("id", .str id) :: ("kind", .str kind) :: rest)

/-- a certificate nobody issued here, and a key under the same id -/
def twice : Json :=
  demoDoc [demoAsset "k1" "certificate" [("fingerprint_sha256", .str demoFingerprint)], demoAsset "k1" "key" []]

def demoLines : Lines := ((linesOf (fun _ => none) twice).toOption).getD []

def afterTwice : Keycensus.Store := Keycensus.step (fun _ => none) noTable.store (.importDoc demoEnv "ops" twice)

/-- The finding of the certificate is opened from the key's row: it has no fingerprint. -/
theorem repeated_id_misleads :
    ¬ ∀ (fromisoformat : String → Option DateTime) (start : Start) (ops : List Keycensus.Op),
      Along (Keycensus.step fromisoformat) (Reconciles fromisoformat) start.store ops := by
  intro h
  have hlines : linesOf (fun _ => none) twice = .ok demoLines := by decide +kernel
  obtain ⟨-, hreconciled⟩ := (h (fun _ => none) noTable [.importDoc demoEnv "ops" twice]).1 demoLines hlines
  have hopen : (afterTwice.main.findings.get 1).map (fun f => (f.kind, f.status, f.key)) =
      some (UNTRACKED, .opened, untrackedKey none) := by
    decide +kernel
  obtain ⟨f, hf, hcolumns⟩ := Option.map_eq_some_iff.1 hopen
  obtain ⟨hkind, hrest⟩ := Prod.mk.inj hcolumns
  obtain ⟨hstatus, hkey⟩ := Prod.mk.inj hrest
  have hmem : untrackedKey none ∈ keysWith .opened afterTwice.main.findings := ⟨1, f, hf, hkind, hstatus, hkey⟩
  have hfindings := hreconciled.findings
  rw [show Keycensus.step (fun _ => none) noTable.store (.importDoc demoEnv "ops" twice) = afterTwice from rfl] at hfindings
  rw [hfindings] at hmem
  obtain ⟨⟨p, hp, fp, hu, hfp⟩, -⟩ := hmem
  have hall : ∀ p ∈ demoLines, ∀ fp ∈ p.2.fingerprintSha256, untrackedKey (some fp) ≠ untrackedKey none := by decide +kernel
  exact hall p hp fp hu.fingerprint hfp

/-- two keys whose ids differ after 64 characters -/
def longIds : Json :=
  let long := String.ofList (List.replicate 64 'k')
  demoDoc [demoAsset (long ++ "1") "key" [], demoAsset (long ++ "2") "key" []]

example :
    (Keycensus.step (fun _ => none) noTable.store (.importDoc demoEnv "ops" longIds)).externalAssets.rows.length = 1 := by
  decide +kernel

end Examples

end Certadillo.Keycensus
