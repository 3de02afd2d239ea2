/-
Endpoint tracking over runs of scans: which discovered certificates are active, against what was last seen where.

A row keeps the first endpoint its certificate was seen at, and no scan makes a superseded row active again. So tracking
goes wrong when a certificate returns to an endpoint where it was replaced, and when it is served at several endpoints.

- `scan_run`: a scan in terms of the columns tracking reads.
- `right_landed_iff`, `right_retired_iff`: when the rows of the scanned certificate and of the others stay right.
- `tracked_iff`: a run tracks what was last seen exactly where every scan meets `Follows`.
- `rollback_lost`: a certificate that returns is not active.
-/
import Certadillo.Services.Requests

namespace Certadillo.Endpoints

open Integrity Policy Platform Machine

/-! ## What was seen where -/

structure Endpoint where
  name : String
  named : name ≠ ""
deriving DecidableEq

/-- certificates by fingerprint at the endpoints that served them, newest first -/
abbrev Sightings := List (Endpoint × String)

def lastAt (seen : Sightings) (e : Endpoint) : Option String := (seen.find? fun p => p.1 = e).map Prod.snd

def SeenSomewhere (seen : Sightings) (fp : String) : Prop := ∃ e, (e, fp) ∈ seen

def LastSomewhere (seen : Sightings) (fp : String) : Prop := ∃ e, lastAt seen e = some fp

def LastElsewhere (seen : Sightings) (e : Endpoint) (fp : String) : Prop := ∃ e', e' ≠ e ∧ lastAt seen e' = some fp

section Sightings

variable {seen : Sightings} {e : Endpoint} {fp g : String}

theorem lastAt_cons_self : lastAt ((e, g) :: seen) e = some g := by
  simp [lastAt]

theorem lastAt_cons_of_ne {e' : Endpoint} (h : e' ≠ e) : lastAt ((e, g) :: seen) e' = lastAt seen e' := by
  simp [lastAt, h.symm]

theorem lastSomewhere_cons_self : LastSomewhere ((e, g) :: seen) g := ⟨e, lastAt_cons_self⟩

/-- another certificate's sighting takes its endpoint away, and no other -/
theorem lastSomewhere_cons (hne : fp ≠ g) : LastSomewhere ((e, g) :: seen) fp ↔ LastElsewhere seen e fp := by
  constructor
  · intro h
    obtain ⟨e', hlast⟩ := h
    by_cases he : e' = e
    · subst he
      rw [lastAt_cons_self] at hlast
      exact absurd (Option.some.inj hlast).symm hne
    · exact ⟨e', he, (lastAt_cons_of_ne he).symm.trans hlast⟩
  · intro h
    obtain ⟨e', he, hlast⟩ := h
    exact ⟨e', (lastAt_cons_of_ne he).trans hlast⟩

theorem seenSomewhere_cons (hne : fp ≠ g) : SeenSomewhere ((e, g) :: seen) fp ↔ SeenSomewhere seen fp := by
  simp [SeenSomewhere, hne]

theorem LastElsewhere.somewhere (h : LastElsewhere seen e fp) : LastSomewhere seen fp :=
  h.imp fun _ h => h.2

theorem LastSomewhere.wasSeen (h : LastSomewhere seen fp) : SeenSomewhere seen fp := by
  obtain ⟨e, hlast⟩ := h
  obtain ⟨p, hp, hfp⟩ := Option.map_eq_some_iff.1 hlast
  have he : p.1 = e := by simpa using List.find?_some hp
  refine ⟨e, ?_⟩
  rw [← he, ← hfp]
  exact List.mem_of_find?_eq_some hp

/-- it was last seen here and nowhere else, or elsewhere, or nowhere -/
theorem lastSomewhere_iff : LastSomewhere seen fp ↔ lastAt seen e = some fp ∨ LastElsewhere seen e fp := by
  constructor
  · intro h
    obtain ⟨e', hlast⟩ := h
    by_cases he : e' = e
    · exact Or.inl (he ▸ hlast)
    · exact Or.inr ⟨e', he, hlast⟩
  · intro h
    rcases h with hlast | hlast
    · exact ⟨e, hlast⟩
    · exact hlast.somewhere

end Sightings

/-! ## What tracking reads of a row -/

structure View where
  fingerprint : String
  source : CertSource
  status : CertStatus
  location : Option String
deriving DecidableEq

def view (c : Certificate) : View := ⟨c.fingerprintSha256, c.source, c.status, c.location⟩

def views (d : Db) (i : ℕ) : Option View := (d.certificates.get i).map view

/-- a discovered certificate is active if it is the last one seen at some endpoint and not revoked, and is not active if it
was seen and is the last one nowhere -/
def Right (seen : Sightings) (v : View) : Prop :=
  v.source = .discovered →
    (v.status ≠ .revoked → LastSomewhere seen v.fingerprint → v.status = .active) ∧
    (SeenSomewhere seen v.fingerprint → ¬ LastSomewhere seen v.fingerprint → v.status ≠ .active)

/-- what a scan of `e` leaves of the row of another certificate -/
def retired (e : Endpoint) (v : View) : View :=
  if v.location = some e.name ∧ v.source = .discovered ∧ v.status = .active then { v with status := .superseded } else v

/-- what it leaves of the row of the certificate it found there -/
def landed (e : Endpoint) (v : View) : View :=
  { v with location := if (v.location.filter (· ≠ "")).isNone then some e.name else v.location }

section Views

variable {seen : Sightings} {e : Endpoint} {fp : String} {v : View}

/-- the row of the certificate a scan of `e` found is active, unless it is revoked; an active row of another certificate names
`e` as its location only if it was last seen nowhere else, and does name it if it was last seen there and nowhere else -/
def Kept (seen : Sightings) (e : Endpoint) (fp : String) (v : View) : Prop :=
  v.source = .discovered →
    (v.fingerprint = fp → v.status = .active ∨ v.status = .revoked) ∧
    (v.fingerprint ≠ fp → v.status = .active →
      (v.location = some e.name → ¬ LastElsewhere seen e v.fingerprint) ∧
      (lastAt seen e = some v.fingerprint → ¬ LastElsewhere seen e v.fingerprint → v.location = some e.name))

/-- no scan makes a superseded row active again -/
theorem right_landed_iff (hfp : v.fingerprint = fp) : Right ((e, fp) :: seen) (landed e v) ↔ Kept seen e fp v := by
  unfold Right Kept
  have hlast : LastSomewhere ((e, fp) :: seen) (landed e v).fingerprint := by
    show LastSomewhere _ v.fingerprint
    rw [hfp]
    exact lastSomewhere_cons_self
  show (v.source = .discovered → _) ↔ (v.source = .discovered → _)
  refine imp_congr_right fun _ => ?_
  constructor
  · intro h
    refine ⟨fun _ => ?_, fun hne => absurd hfp hne⟩
    by_cases hrevoked : v.status = .revoked
    · exact Or.inr hrevoked
    · exact Or.inl (h.1 hrevoked hlast)
  · intro h
    exact ⟨fun hrevoked _ => (h.1 hfp).resolve_right hrevoked, fun _ hnot => absurd hlast hnot⟩

theorem retired_of_stale (h : v.location = some e.name ∧ v.source = .discovered ∧ v.status = .active) :
    retired e v = { v with status := .superseded } := if_pos h

theorem retired_of_not (h : ¬ (v.location = some e.name ∧ v.source = .discovered ∧ v.status = .active)) :
    retired e v = v := if_neg h

/-- a row is judged by its recorded location, whatever endpoints served its certificate -/
theorem right_retired_iff (hright : Right seen v) (hfp : v.fingerprint ≠ fp) :
    Right ((e, fp) :: seen) (retired e v) ↔ Kept seen e fp v := by
  by_cases hsource : v.source = .discovered
  · obtain ⟨hactive, hgone⟩ := hright hsource
    by_cases hstale : v.location = some e.name ∧ v.source = .discovered ∧ v.status = .active
    · -- the row becomes superseded
      rw [retired_of_stale hstale]
      constructor
      · intro h hd
        refine ⟨fun heq => absurd heq hfp, fun _ _ => ⟨fun _ helsewhere => ?_, fun _ _ => hstale.1⟩⟩
        have hsuperseded := (h hd).1 nofun ((lastSomewhere_cons hfp).2 helsewhere)
        cases hsuperseded
      · intro h hd
        have hnot := ((h hd).2 hfp hstale.2.2).1 hstale.1
        exact ⟨fun _ hlast => absurd ((lastSomewhere_cons hfp).1 hlast) hnot, fun _ _ => nofun⟩
    · rw [retired_of_not hstale]
      constructor
      · intro h hd
        refine ⟨fun heq => absurd heq hfp, fun _ hst => ⟨fun hloc => absurd ⟨hloc, hd, hst⟩ hstale, fun hlast hnot => ?_⟩⟩
        -- it was seen, and is now the last one nowhere
        have hseen : SeenSomewhere seen v.fingerprint := LastSomewhere.wasSeen ⟨e, hlast⟩
        exact absurd hst ((h hd).2 ((seenSomewhere_cons hfp).2 hseen) fun h' => hnot ((lastSomewhere_cons hfp).1 h'))
      · intro h hd
        refine ⟨fun hrevoked hlast => hactive hrevoked ((lastSomewhere_cons hfp).1 hlast).somewhere, fun hseen hnot hst => ?_⟩
        have hnot' : ¬ LastElsewhere seen e v.fingerprint := fun h' => hnot ((lastSomewhere_cons hfp).2 h')
        have hlast : LastSomewhere seen v.fingerprint := by
          by_contra hnever
          exact hgone ((seenSomewhere_cons hfp).1 hseen) hnever hst
        have hhere : lastAt seen e = some v.fingerprint := (lastSomewhere_iff.1 hlast).resolve_right hnot'
        exact hstale ⟨((h hd).2 hfp hst).2 hhere hnot', hd, hst⟩
  · have hretired : (retired e v).source = v.source := by
      unfold retired
      split
      · rfl
      · rfl
    constructor
    · intro _ hd
      exact absurd hd hsource
    · intro _ hd
      exact absurd (hretired.symm.trans hd) hsource

end Views

/-! ## Scans -/

section Scans

variable {env : Env} {actorName : String} {e : Endpoint} {s : Session Db}

theorem view_flushed (st : SealState) (a b : Certificate) : view (flushed st a b) = view b := by
  obtain ⟨x, hx⟩ := flushed_certificate st a b
  rw [hx]
  rfl

theorem view_inserted (st : SealState) (a : Certificate) : view (inserted st a) = view a := by
  obtain ⟨x, hx⟩ := inserted_certificate st a
  rw [hx]
  rfl

/-- an UPDATE of one row, in the columns tracking reads -/
theorem views_update {d : Db} {k : ℕ} {f : Certificate → Certificate} {g : View → View} (h : ∀ c, view (f c) = g (view c))
    (i : ℕ) : views { d with certificates := d.certificates.update k fun c => flushed env.st c (f c) } i =
      if i = k then (views d k).map g else views d i := by
  unfold views
  show ((d.certificates.update k _).get i).map view = _
  rw [Table.get_update]
  by_cases hi : i = k
  · subst hi
    rw [if_pos rfl, if_pos rfl, Option.map_map, Option.map_map]
    congr 1
    funext c
    exact (view_flushed _ _ _).trans (h c)
  · rw [if_neg hi, if_neg hi]

/-- the old rows become superseded -/
theorem retireAll_run (k : ℕ) (current : Certificate) (location : String) (stale : List (ℕ × Certificate)) (s : Session Db) :
    ∃ s', retireAll env actorName k current location stale s = (.ok (), s') ∧
      ∀ i, views s'.work i = if i ∈ stale.map Prod.fst then (views s.work i).map fun v => { v with status := .superseded }
        else views s.work i := by
  induction stale generalizing s with
  | nil => exact ⟨s, rfl, fun i => by simp⟩
  | cons p rest ih =>
    obtain ⟨id, old⟩ := p
    obtain ⟨s', hrun, hviews⟩ := ih ⟨s.committed, { s.work with
      certificates := s.work.certificates.update id fun c =>
        flushed env.st c { c with status := .superseded, replacedBy := some k }
      audit := s.work.audit ++ [⟨env.now, actorName, "certificate.replaced_at_endpoint", old.serialHex,
        .obj [("location", .str location), ("new_serial", .str current.serialHex)]⟩] }⟩
    refine ⟨s', hrun, fun i => ?_⟩
    have hupdate := @views_update env s.work id (fun c => { c with status := .superseded, replacedBy := some k })
      (fun v => { v with status := .superseded }) (fun _ => rfl) i
    rw [hviews i]
    show (if i ∈ rest.map Prod.fst then
        (views { s.work with certificates := s.work.certificates.update id _ } i).map fun v => { v with status := .superseded }
      else views { s.work with certificates := s.work.certificates.update id _ } i) = _
    rw [hupdate]
    by_cases hi : i = id
    · subst hi
      cases views s.work i with
      | none => simp
      | some v => simp
    · have hmem : i ∈ ((id, old) :: rest).map Prod.fst ↔ i ∈ rest.map Prod.fst := by simp [hi]
      simp only [if_neg hi, hmem]

/-- every other active discovered row at the endpoint -/
theorem retireReplaced_run (k : ℕ) (current : Certificate) (s : Session Db) :
    ∃ s', retireReplaced env actorName k current .discovered (some e.name) s = (.ok (), s') ∧
      ∀ i, views s'.work i = if i = k then views s.work k else (views s.work i).map (retired e) := by
  have hname : (some e.name).filter (fun l => decide (l ≠ "")) = some e.name := by
    simp [Option.filter, e.named]
  unfold retireReplaced
  rw [hname]
  dsimp only
  rw [if_neg (by decide), Tx.get_bind]
  obtain ⟨s', hrun, hviews⟩ := retireAll_run k current e.name ((s.work.certificates.all fun c =>
    c.location = some e.name && c.source = .discovered && c.status = .active).filter fun p => p.1 ≠ k) s
  refine ⟨s', hrun, fun i => ?_⟩
  rw [hviews i]
  by_cases hi : i = k
  · subst hi
    rw [if_pos rfl, if_neg]
    simp
  · rw [if_neg hi]
    unfold views
    cases hget : s.work.certificates.get i with
    | none => simp
    | some c =>
      by_cases hstale : c.location = some e.name ∧ c.source = .discovered ∧ c.status = .active
      · rw [if_pos, Option.map_some, Option.map_some, Option.map_some, retired_of_stale (v := view c) hstale]
        refine List.mem_map.2 ⟨(i, c), List.mem_filter.2 ⟨Table.mem_all.2 ⟨hget, ?_⟩, by simp [hi]⟩, rfl⟩
        simp [hstale]
      · rw [if_neg, Option.map_some, Option.map_some, retired_of_not (v := view c) hstale]
        intro hmem
        obtain ⟨p, hp, rfl⟩ := List.mem_map.1 hmem
        obtain ⟨hpget, hpstale⟩ := Table.mem_all.1 (List.mem_filter.1 hp).1
        obtain rfl := Option.some.inj (hget.symm.trans hpget)
        refine hstale ?_
        simpa [and_assoc] using hpstale

/-- the row `ingest` finds or adds, before it retires the others -/
def landing (e : Endpoint) (fp : String) : Option View → View
  | some v => landed e v
  | none => ⟨fp, .discovered, .active, some e.name⟩

/-- a scan lands on one row and retires others: on the one with the certificate's fingerprint, or a new one -/
theorem scan_run {cert : X509Cert} {appId : Option ℕ} {found : Option (ℕ × Certificate)}
    (hfound : oneOrNone s.work.certificates (fun c => c.fingerprintSha256 = cert.fingerprint) = .ok found) :
    ∃ k s', ingest env actorName cert .discovered (some e.name) appId s = (.ok k, s') ∧
      (∀ c, s.work.certificates.get k = some c → c.fingerprintSha256 = cert.fingerprint) ∧
      (∀ i c, s.work.certificates.get i = some c → c.fingerprintSha256 = cert.fingerprint → i = k) ∧
      ∀ i, views s'.work i = if i = k then some (landing e cert.fingerprint (views s.work k))
        else (views s.work i).map (retired e) := by
  unfold ingest
  rw [Tx.get_bind]
  dsimp only
  rw [hfound, lift_ok_bind]
  cases found with
  | some p =>
    obtain ⟨k, existing⟩ := p
    obtain ⟨hget, hfp⟩ := oneOrNone_some hfound
    have hfp : existing.fingerprintSha256 = cert.fingerprint := by simpa using hfp
    have hland := @views_update env s.work k (fun c =>
      { c with lastSeen := some env.now
               location := if (c.location.filter (· ≠ "")).isNone && ((some e.name).filter (· ≠ "")).isSome then some e.name
                 else c.location }) (landed e) (fun c => by
        have hname : (some e.name).filter (fun l => decide (l ≠ "")) = some e.name := by
          simp [Option.filter, e.named]
        simp only [hname, Option.isSome_some, Bool.and_true]
        rfl)
    obtain ⟨s', hrun, hviews⟩ := @retireReplaced_run env actorName e k existing
      ⟨s.committed, { s.work with
        certificates := s.work.certificates.update k fun c => flushed env.st c
          { c with lastSeen := some env.now
                   location := if (c.location.filter (· ≠ "")).isNone && ((some e.name).filter (· ≠ "")).isSome then
                     some e.name else c.location } }⟩
    refine ⟨k, s', ?_, ?_, ?_, fun i => ?_⟩
    · exact Tx.bind_returns.2 ⟨(), _, rfl, Tx.bind_returns.2 ⟨(), s', hrun, rfl⟩⟩
    · intro c hc
      obtain rfl := Option.some.inj (hget.symm.trans hc)
      exact hfp
    · intro i c hc hsame
      exact congrArg Prod.fst (Option.some.inj (oneOrNone_ok hfound hc (by simpa using hsame))).symm
    · rw [hviews i, hland k, hland i, if_pos rfl]
      by_cases hi : i = k
      · subst hi
        rw [if_pos rfl, if_pos rfl]
        unfold views
        rw [hget]
        rfl
      · rw [if_neg hi, if_neg hi, if_neg hi]
  | none =>
    have hfresh : ∀ i c, s.work.certificates.get i = some c → c.fingerprintSha256 ≠ cert.fingerprint := by
      intro i c hc hsame
      have hsome := oneOrNone_ok hfound hc (by simpa using hsame)
      cases hsome
    have hclash : unique "certificates.fingerprint_sha256" Certificate.fingerprintSha256 cert.fingerprint
        s.work.certificates = none := by
      have hfirst : s.work.certificates.first (fun c => c.fingerprintSha256 = cert.fingerprint) = none :=
        Table.first_none.2 fun i c hc => by simpa using hfresh i c hc
      unfold unique
      rw [hfirst]
      rfl
    have hnext := Table.get_next s.work.certificates
    obtain ⟨s', hrun, hviews⟩ := @retireReplaced_run env actorName e s.work.certificates.next
      { certRow env cert .discovered appId with location := some e.name, lastSeen := some env.now }
      ⟨s.committed, { s.work with
        certificates := s.work.certificates.insert (inserted env.st
          { certRow env cert .discovered appId with location := some e.name, lastSeen := some env.now }) }⟩
    have hadd : addCertificate env { certRow env cert .discovered appId with location := some e.name, lastSeen := some env.now } s =
        (.ok s.work.certificates.next, ⟨s.committed, { s.work with
          certificates := s.work.certificates.insert (inserted env.st
            { certRow env cert .discovered appId with location := some e.name, lastSeen := some env.now }) }⟩) := by
      unfold addCertificate addRow
      rw [Tx.get_bind]
      have hfree : unique "certificates.fingerprint_sha256" Certificate.fingerprintSha256
          { certRow env cert .discovered appId with
            location := some e.name, lastSeen := some env.now }.fingerprintSha256 (Col.certificates.get s.work) = none := hclash
      rw [hfree]
      rfl
    refine ⟨s.work.certificates.next, ⟨s'.committed, { s'.work with audit := _ }⟩, Tx.bind_returns.2 ⟨_, _, hadd,
      Tx.bind_returns.2 ⟨(), s', hrun, Tx.bind_returns.2 ⟨(), _, rfl, rfl⟩⟩⟩, ?_, ?_, fun i => ?_⟩
    · intro c hc
      rw [hnext] at hc
      cases hc
    · intro i c hc hsame
      exact absurd hsame (hfresh i c hc)
    · show views s'.work i = _
      rw [hviews i]
      have hinsert : ∀ j, views { s.work with certificates := s.work.certificates.insert (inserted env.st
          { certRow env cert .discovered appId with location := some e.name, lastSeen := some env.now }) } j =
          if j = s.work.certificates.next then some ⟨cert.fingerprint, .discovered, .active, some e.name⟩ else views s.work j := by
        intro j
        unfold views
        show ((s.work.certificates.insert _).get j).map view = _
        rw [Table.get_insert]
        split
        · rw [Option.map_some, view_inserted]
          rfl
        · rfl
      rw [hinsert, hinsert, if_pos rfl]
      by_cases hi : i = s.work.certificates.next
      · rw [if_pos hi, if_pos hi]
        unfold views
        rw [hnext]
        rfl
      · rw [if_neg hi, if_neg hi, if_neg hi]

/-- two rows with its fingerprint, which the database excludes -/
theorem scan_raises {cert : X509Cert} {appId : Option ℕ} {err : Err}
    (hfound : oneOrNone s.work.certificates (fun c => c.fingerprintSha256 = cert.fingerprint) = .error err) :
    ingest env actorName cert .discovered (some e.name) appId s = (.error err, s) := by
  unfold ingest
  rw [Tx.get_bind]
  dsimp only
  rw [hfound]
  rfl

end Scans

/-! ## Runs -/

structure St where
  db : Db
  seen : Sightings

/-- scans of endpoints, with revocations between them -/
inductive Op where
  | scan (env : Env) (actorName : String) (cert : X509Cert) (e : Endpoint) (appId : Option ℕ)
  | revoke (env : Env) (actor : Actor) (id : ℕ) (reason : String) (changeRef : Option String)

/-- a scan that raises is rolled back and saw nothing -/
def step (s : St) : Op → St
  | .scan env actorName cert e appId =>
    match Tx.transact (ingest env actorName cert .discovered (some e.name) appId) s.db with
    | (.ok _, d) => ⟨d, (e, cert.fingerprint) :: s.seen⟩
    | (.error _, d) => ⟨d, s.seen⟩
  | .revoke env actor id reason changeRef => ⟨(Tx.transact (Platform.revoke env actor id reason changeRef) s.db).2, s.seen⟩

/-- every row is as what was last seen says -/
def Tracked (s : St) : Prop := ∀ i c, s.db.certificates.get i = some c → Right s.seen (view c)

/-- a scan finds every row in a state it keeps right; two rows never share a fingerprint, and with two a scan raises -/
def Follows (s : St) : Op → Prop
  | .scan _ _ cert e _ =>
    (∃ found, oneOrNone s.db.certificates (fun c => c.fingerprintSha256 = cert.fingerprint) = .ok found) →
      ∀ i c, s.db.certificates.get i = some c → Kept s.seen e cert.fingerprint (view c)
  | .revoke .. => True

section Runs

variable {s : St}

theorem tracked_views : Tracked s ↔ ∀ i v, views s.db i = some v → Right s.seen v := by
  constructor
  · intro h i v hv
    obtain ⟨c, hc, rfl⟩ := Option.map_eq_some_iff.1 hv
    exact h i c hc
  · intro h i c hc
    refine h i (view c) ?_
    unfold views
    rw [hc]
    rfl

/-- one scan, from rows that are all right -/
theorem tracked_scan_iff (h : Tracked s) (env : Env) (actorName : String) (cert : X509Cert) (e : Endpoint) (appId : Option ℕ) :
    Tracked (Endpoints.step s (.scan env actorName cert e appId)) ↔ Follows s (.scan env actorName cert e appId) := by
  cases hfound : oneOrNone s.db.certificates (fun c => c.fingerprintSha256 = cert.fingerprint) with
  | error err =>
    have hraises := @scan_raises env actorName e ⟨s.db, s.db⟩ cert appId err hfound
    have hstep : Endpoints.step s (.scan env actorName cert e appId) = s := by
      unfold Endpoints.step
      simp only [Tx.transact_of_raises hraises]
    rw [hstep]
    refine iff_of_true h fun hsome => ?_
    obtain ⟨found, hok⟩ := hsome
    rw [hfound] at hok
    cases hok
  | ok found =>
    obtain ⟨k, s', hrun, hown, honly, hviews⟩ := @scan_run env actorName e ⟨s.db, s.db⟩ cert appId found hfound
    have hstep : Endpoints.step s (.scan env actorName cert e appId) = ⟨s'.work, (e, cert.fingerprint) :: s.seen⟩ := by
      unfold Endpoints.step
      simp only [Tx.transact_of_returns hrun]
    rw [hstep, tracked_views]
    show (∀ i v, views s'.work i = some v → _) ↔ _
    constructor
    · intro hright _ i c hc
      have hview : views s.db i = some (view c) := by
        unfold views
        rw [hc]
        rfl
      by_cases hi : i = k
      · subst hi
        refine (right_landed_iff (hown c hc)).1 (hright i _ ?_)
        rw [hviews i, if_pos rfl]
        show some (landing e cert.fingerprint (views s.db i)) = _
        rw [hview]
        rfl
      · refine (right_retired_iff (h i c hc) fun hsame => hi (honly i c hc hsame)).1 (hright i _ ?_)
        rw [hviews i, if_neg hi]
        show (views s.db i).map (retired e) = _
        rw [hview]
        rfl
    · intro hfollows i v hv
      have hkept := hfollows ⟨found, hfound⟩
      rw [hviews i] at hv
      by_cases hi : i = k
      · subst hi
        rw [if_pos rfl] at hv
        obtain rfl := Option.some.inj hv
        cases hget : s.db.certificates.get i with
        | none =>
          have hnone : views s.db i = none := by
            unfold views
            rw [hget]
            rfl
          show Right _ (landing e cert.fingerprint (views s.db i))
          rw [hnone]
          exact fun _ => ⟨fun _ _ => rfl, fun _ hnot => absurd lastSomewhere_cons_self hnot⟩
        | some c =>
          have hsome : views s.db i = some (view c) := by
            unfold views
            rw [hget]
            rfl
          show Right _ (landing e cert.fingerprint (views s.db i))
          rw [hsome]
          exact (right_landed_iff (hown c hget)).2 (hkept i c hget)
      · rw [if_neg hi] at hv
        obtain ⟨w, hw, rfl⟩ := Option.map_eq_some_iff.1 hv
        obtain ⟨c, hc, rfl⟩ := Option.map_eq_some_iff.1 hw
        exact (right_retired_iff (h i c hc) fun hsame => hi (honly i c hc hsame)).2 (hkept i c hc)

/-- a revoked certificate need not be active and is not -/
theorem right_revoked {seen : Sightings} {v : View} : Right seen { v with status := .revoked } :=
  fun _ => ⟨fun hnot => absurd rfl hnot, fun _ _ => nofun⟩

theorem tracked_revoke (h : Tracked s) (env : Env) (actor : Actor) (id : ℕ) (reason : String) (changeRef : Option String) :
    Tracked (Endpoints.step s (.revoke env actor id reason changeRef)) := by
  have hcalm : Tx.Calm (fun a b : Db => ∀ i, views b i = views a i ∨
      views b i = (views a i).map fun v => { v with status := .revoked }) (Platform.revoke env actor id reason changeRef) := by
    refine calm_revoke_of (fun d i => ?_) (fun _ _ _ _ => Or.inl rfl) (fun _ _ _ => Or.inl rfl) (fun _ _ _ => Or.inl rfl)
      actor changeRef
    rw [@views_update env d id (markRevoked env reason) (fun v => { v with status := .revoked }) (fun _ => rfl) i]
    by_cases hi : i = id
    · subst hi
      exact Or.inr (if_pos rfl)
    · exact Or.inl (if_neg hi)
  have hreach := Tx.transact_does hcalm.does s.db
  refine Tx.reaches_inv (I := fun d => Tracked ⟨d, s.seen⟩) (fun a b hab ha => ?_) hreach h
  rw [tracked_views] at ha ⊢
  intro i v hv
  rcases hab i with hsame | hmarked
  · exact ha i v (hsame ▸ hv)
  · rw [show views b i = _ from hmarked] at hv
    obtain ⟨w, -, rfl⟩ := Option.map_eq_some_iff.1 hv
    exact right_revoked

theorem tracked_step_iff (h : Tracked s) (o : Endpoints.Op) : Tracked (Endpoints.step s o) ↔ Follows s o := by
  cases o with
  | scan env actorName cert e appId => exact tracked_scan_iff h env actorName cert e appId
  | revoke env actor id reason changeRef => exact iff_of_true (tracked_revoke h env actor id reason changeRef) trivial

/-- before any sighting nothing is expected of a row -/
theorem tracked_start (d : Db) : Tracked ⟨d, []⟩ := by
  intro i c _ _
  refine ⟨fun _ hlast => ?_, fun hseen => ?_⟩
  · obtain ⟨e, hlast⟩ := hlast
    cases hlast
  · obtain ⟨e, hseen⟩ := hseen
    cases hseen

/-- **Every state of a run tracks what was last seen exactly where every scan follows**: the certificate it found was not
superseded, the active rows it retires were last seen nowhere else, and those last seen only there have that location. -/
theorem tracked_iff (d : Db) (ops : List Endpoints.Op) :
    Along Endpoints.step (fun s o => Tracked (Endpoints.step s o)) ⟨d, []⟩ ops ↔ Along Endpoints.step Follows ⟨d, []⟩ ops :=
  along_congr_inv (fun _ o hs hfollows => (tracked_step_iff hs o).2 hfollows) (fun _ o hs => tracked_step_iff hs o)
    (tracked_start d)

end Runs

/-! ### A certificate that returns -/

section Examples

def website : Endpoint := ⟨"www.corp.example:443", by decide⟩

def servedCert (fp : String) : X509Cert := { demoCaCert with signed := { demoCaCert.signed with fingerprint := fp } }

/-- the site's certificate is replaced, and the replacement is rolled back -/
def rollback : List Endpoints.Op :=
  [.scan demoEnv "cli" (servedCert "old") website none, .scan demoEnv "cli" (servedCert "new") website none,
    .scan demoEnv "cli" (servedCert "old") website none]

/-- The certificate that is served is superseded, and nothing alerts on its expiry. -/
theorem rollback_lost : ¬ ∀ (d : Db) (ops : List Endpoints.Op), Tracked (run Endpoints.step ⟨d, []⟩ ops) := by
  intro h
  have htracked := tracked_views.1 (h Db.empty rollback)
  have hrow : views (run Endpoints.step ⟨Db.empty, []⟩ rollback).db 1 =
      some ⟨"old", .discovered, .superseded, some "www.corp.example:443"⟩ := by
    decide +kernel
  have hseen : lastAt (run Endpoints.step ⟨Db.empty, []⟩ rollback).seen website = some "old" := by
    decide +kernel
  have hactive := (htracked 1 _ hrow rfl).1 (by decide) ⟨website, hseen⟩
  cases hactive

end Examples

end Certadillo.Endpoints
