/-
Windows security descriptors as `adcs/sd.py` reads them.

- `parse_total`: every byte string gives a descriptor or a ValueError.
- `parse_selfRelative`: of a self-relative descriptor the parser returns the owner, the group and the allow entries of its
  DACL, in order, wherever its parts lie.

The layout is described on its own: SIDs, GUIDs and access control entries with their octets, and where a descriptor's header
says that its parts are.
-/
import Certadillo.Lib.Bytes
import Certadillo.Py

namespace Certadillo.Adcs

open Py Bytes

/-! ## Reading octets -/

/-- what the parser's reads can raise -/
inductive Exn where
  | index (msg : String)
  | struct (msg : String)
  | value (msg : String)
deriving DecidableEq

/-- `data[i]` -/
def index (data : Octets) (i : ℕ) : Except Exn ℕ :=
  match data[i]? with
  | some b => .ok b.toNat
  | none => .error (.index "index out of range")

/-- `struct.unpack_from`, up to the fields: that many octets from the offset on -/
def unpackFrom (data : Octets) (size offset : ℕ) : Except Exn Octets :=
  if offset + size ≤ data.length then .ok ((data.drop offset).take size)
  else .error (.struct (s!"unpack_from requires a buffer of at least {offset + size} bytes for unpacking {size} bytes " ++
    s!"at offset {offset} (actual buffer size is {data.length})"))

/-- one little-endian number -/
def unpack (data : Octets) (size offset : ℕ) : Except Exn ℕ := (unpackFrom data size offset).map ofLE

/-! ## The parser -/

def ACCESS_ALLOWED_ACE_TYPE : ℕ := 0x00
def ACCESS_ALLOWED_OBJECT_ACE_TYPE : ℕ := 0x05
def ACE_OBJECT_TYPE_PRESENT : ℕ := 0x01
def ACE_INHERITED_OBJECT_TYPE_PRESENT : ℕ := 0x02

/-- `"-".join` of the parts of a SID -/
def sidText (revision authority : ℕ) (subs : List ℕ) : String :=
  join "-" (s!"S-{revision}-{authority}" :: subs.map toString)

def subsFrom (data : Octets) : ℕ → ℕ → Except Exn (List ℕ)
  | 0, _ => pure []
  | count + 1, pos => do
    let sub ← unpack data 4 pos
    let rest ← subsFrom data count (pos + 4)
    pure (sub :: rest)

/-- `_sid_to_string`: the text, and the octets it took -/
def sidToString (data : Octets) (offset : ℕ) : Except Exn (String × ℕ) := do
  let revision ← index data offset
  let subCount ← index data (offset + 1)
  if data.length < offset + 8 + 4 * subCount then throw (.index "SID runs past the end of the descriptor")
  let authority := ofBE ((data.drop (offset + 2)).take 6)
  let subs ← subsFrom data subCount (offset + 8)
  pure (sidText revision authority subs, 8 + 4 * subCount)

def hexDigit (n : ℕ) : Char := Nat.digitChar n

/-- two hexadecimal digits for each octet -/
def hexOf (b : Octets) : Chars := b.flatMap fun d => [hexDigit (d.toNat / 16), hexDigit (d.toNat % 16)]

/-- `str(uuid.UUID(bytes_le=b))` -/
def uuidText (b : Octets) : String :=
  let part (i n : ℕ) := (b.drop i).take n
  String.ofList (hexOf (part 0 4).reverse ++ '-' :: hexOf (part 4 2).reverse ++ '-' :: hexOf (part 6 2).reverse ++
    '-' :: hexOf (part 8 2) ++ '-' :: hexOf (part 10 6))

structure Ace where
  sid : String
  mask : ℕ
  objectType : Option String
  aceType : ℕ
deriving DecidableEq

structure SecurityDescriptor where
  owner : Option String
  group : Option String
  aces : List Ace
deriving DecidableEq

/-- a flag of a bit field -/
def hasBit (n bit : ℕ) : Bool := n &&& bit ≠ 0

/-- the object type of an object entry, and where its next field is -/
def objectTypeAt (data : Octets) (objFlags p : ℕ) : Except Exn (Option String × ℕ) :=
  if hasBit objFlags ACE_OBJECT_TYPE_PRESENT then
    if data.length < p + 16 then .error (.index "object ACE GUID runs past the end of the descriptor")
    else .ok (some (uuidText ((data.drop p).take 16)), p + 16)
  else .ok (none, p)

/-- one entry: what it grants, if it is of a type that grants -/
def parseAce (data : Octets) (aceType body : ℕ) : Except Exn (Option Ace) :=
  if aceType = ACCESS_ALLOWED_ACE_TYPE then do
    let mask ← unpack data 4 body
    let (sid, _) ← sidToString data (body + 4)
    pure (some ⟨sid, mask, none, aceType⟩)
  else if aceType = ACCESS_ALLOWED_OBJECT_ACE_TYPE then do
    let fields ← unpackFrom data 8 body
    let mask := ofLE (fields.take 4)
    let objFlags := ofLE (fields.drop 4)
    let (objectType, p) ← objectTypeAt data objFlags (body + 8)
    let p := if hasBit objFlags ACE_INHERITED_OBJECT_TYPE_PRESENT then p + 16 else p
    let (sid, _) ← sidToString data p
    pure (some ⟨sid, mask, objectType, aceType⟩)
  -- other types (deny, audit) do not grant enrollment
  else pure none

/-- the loop of `_parse_acl`: as many entries as the count says, each as long as it says itself -/
def acesFrom (data : Octets) : ℕ → ℕ → Except Exn (List Ace)
  | 0, _ => pure []
  | count + 1, pos => do
    let header ← unpackFrom data 4 pos
    let ace ← parseAce data (ofLE (header.take 1)) (pos + 4)
    let rest ← acesFrom data count (pos + ofLE (header.drop 2))
    pure (ace.toList ++ rest)

/-- `_parse_acl` -/
def parseAcl (data : Octets) (offset : ℕ) : Except Exn (List Ace) := do
  let header ← unpackFrom data 8 offset
  acesFrom data (ofLE ((header.drop 4).take 2)) (offset + 8)

/-- a part that the header points to; an offset of zero is no part -/
def partAt {α : Type} (read : ℕ → Except Exn α) (offset : ℕ) : Except Exn (Option α) :=
  if offset = 0 then pure none else some <$> read offset

/-- `_parse` -/
def parseRaw (data : Octets) : Except Exn SecurityDescriptor := do
  if data.length < 20 then throw (.value "security descriptor too short")
  let header ← unpackFrom data 20 0
  let field (i : ℕ) := ofLE ((header.drop i).take 4)
  let owner ← partAt (fun off => Prod.fst <$> sidToString data off) (field 4)
  let group ← partAt (fun off => Prod.fst <$> sidToString data off) (field 8)
  let aces ← partAt (parseAcl data) (field 16)
  pure ⟨owner, group, aces.getD []⟩

/-- `SecurityDescriptor.parse`: what is malformed raises ValueError -/
def parse (data : Octets) : Except Exn SecurityDescriptor :=
  match parseRaw data with
  | .error (.index msg) | .error (.struct msg) => .error (.value s!"malformed security descriptor: {msg}")
  | r => r

/-- every byte string is read or refused with a ValueError -/
theorem parse_total (data : Octets) : (∃ sd, parse data = .ok sd) ∨ ∃ msg, parse data = .error (.value msg) := by
  unfold parse
  cases parseRaw data with
  | ok sd => exact Or.inl ⟨sd, rfl⟩
  | error e =>
    cases e with
    | index msg => exact Or.inr ⟨_, rfl⟩
    | struct msg => exact Or.inr ⟨_, rfl⟩
    | value msg => exact Or.inr ⟨msg, rfl⟩

/-! ## The layout -/

/-- a security identifier -/
structure Sid where
  revision : UInt8
  authority : ℕ
  subs : List UInt32
  authority_lt : authority < 256 ^ 6
  subs_lt : subs.length < 256

def Sid.octets (s : Sid) : Octets :=
  [s.revision, UInt8.ofNat s.subs.length] ++ (toBE 6 s.authority ++ s.subs.flatMap fun sub => toLE 4 sub.toNat)

/-- in the notation S-R-A-S1-S2 -/
def Sid.text (s : Sid) : String := sidText s.revision.toNat s.authority (s.subs.map UInt32.toNat)

structure Guid where
  data1 : UInt32
  data2 : UInt16
  data3 : UInt16
  data4 : Octets
  length_data4 : data4.length = 8

def Guid.octets (g : Guid) : Octets := toLE 4 g.data1.toNat ++ (toLE 2 g.data2.toNat ++ (toLE 2 g.data3.toNat ++ g.data4))

/-- a number in so many hexadecimal digits -/
def hexNumber : ℕ → ℕ → Chars
  | 0, _ => []
  | width + 1, n => hexNumber width (n / 16) ++ [hexDigit (n % 16)]

/-- the registry form of a GUID, in lower case -/
def Guid.text (g : Guid) : String :=
  String.ofList (hexNumber 8 g.data1.toNat ++ '-' :: hexNumber 4 g.data2.toNat ++ '-' :: hexNumber 4 g.data3.toNat ++
    '-' :: hexOf (g.data4.take 2) ++ '-' :: hexOf (g.data4.drop 2))

/-- an access control entry: what follows the SID belongs to the entry, and so does the body of other types -/
inductive WireAce where
  | allow (flags : UInt8) (mask : UInt32) (sid : Sid) (extra : Octets)
  | allowObject (flags : UInt8) (mask : UInt32) (objectType inherited : Option Guid) (sid : Sid) (extra : Octets)
  | other (type flags : UInt8) (body : Octets) (noAllow : type.toNat ≠ 0x00) (noAllowObject : type.toNat ≠ 0x05)

namespace WireAce

def type : WireAce → UInt8
  | allow .. => 0x00
  | allowObject .. => 0x05
  | other t .. => t

def flags : WireAce → UInt8
  | allow f .. => f
  | allowObject f .. => f
  | other _ f .. => f

/-- which of the two GUIDs are there -/
def objectFlags (objectType inherited : Option Guid) : ℕ :=
  (if objectType.isSome then 1 else 0) + (if inherited.isSome then 2 else 0)

def guidOctets : Option Guid → Octets
  | some g => g.octets
  | none => []

def body : WireAce → Octets
  | allow _ mask sid extra => toLE 4 mask.toNat ++ (sid.octets ++ extra)
  | allowObject _ mask objectType inherited sid extra =>
    toLE 4 mask.toNat ++ (toLE 4 (objectFlags objectType inherited) ++
      (guidOctets objectType ++ (guidOctets inherited ++ (sid.octets ++ extra))))
  | other _ _ body _ _ => body

def size (a : WireAce) : ℕ := 4 + a.body.length

def octets (a : WireAce) : Octets := [a.type, a.flags] ++ (toLE 2 a.size ++ a.body)

/-- what an entry grants: only the allow types do -/
def granted : WireAce → Option Ace
  | allow _ mask sid _ => some ⟨sid.text, mask.toNat, none, 0x00⟩
  | allowObject _ mask objectType _ sid _ => some ⟨sid.text, mask.toNat, objectType.map Guid.text, 0x05⟩
  | other .. => none

end WireAce

/-- an access control list; the count and the sizes of its entries are 16-bit numbers -/
structure WireAcl where
  revision : UInt8
  sbz1 : UInt8
  size : UInt16
  sbz2 : UInt16
  aces : List WireAce
  count_lt : aces.length < 256 ^ 2
  sizes_lt : ∀ a ∈ aces, a.size < 256 ^ 2

def WireAcl.octets (l : WireAcl) : Octets :=
  [l.revision, l.sbz1] ++ (toLE 2 l.size.toNat ++ (toLE 2 l.aces.length ++ (toLE 2 l.sbz2.toNat ++
    l.aces.flatMap WireAce.octets)))

/-- a part of the descriptor and its offset in the header: zero where there is no such part -/
inductive Placed {α : Type} (octets : α → Octets) (data : Octets) (offset : UInt32) : Option α → Prop where
  | absent : offset = 0 → Placed octets data offset none
  | there (x : α) : offset ≠ 0 → At data offset.toNat (octets x) → Placed octets data offset (some x)

/-- what a descriptor says -/
structure WireSd where
  owner : Option Sid
  group : Option Sid
  dacl : Option WireAcl

/-- the octets of a self-relative descriptor: the header, and its parts in any order and place -/
structure SelfRelative (data : Octets) (d : WireSd) : Prop where
  layout : ∃ (revision sbz1 : UInt8) (control : UInt16) (offOwner offGroup offSacl offDacl : UInt32),
    At data 0 ([revision, sbz1] ++ (toLE 2 control.toNat ++ (toLE 4 offOwner.toNat ++ (toLE 4 offGroup.toNat ++
      (toLE 4 offSacl.toNat ++ toLE 4 offDacl.toNat))))) ∧
    Placed Sid.octets data offOwner d.owner ∧ Placed Sid.octets data offGroup d.group ∧
    Placed WireAcl.octets data offDacl d.dacl

/-- owner, group and what the DACL grants -/
def WireSd.read (d : WireSd) : SecurityDescriptor where
  owner := d.owner.map Sid.text
  group := d.group.map Sid.text
  aces := (d.dacl.map fun l => l.aces.filterMap WireAce.granted).getD []

/-! ## Well-formed descriptors are read -/

section Reads

variable {data a b : Octets} {offset : ℕ}

theorem index_at {d : UInt8} (h : At data offset (d :: a)) : index data offset = .ok d.toNat := by
  unfold index
  rw [h.head]

theorem unpackFrom_at (h : At data offset a) (hne : a ≠ []) : unpackFrom data a.length offset = .ok a := by
  unfold unpackFrom
  rw [if_pos (h.length_le hne), h.take]

theorem unpack_at {width n : ℕ} (h : At data offset (toLE width n)) (hwidth : width ≠ 0) (hn : n < 256 ^ width) :
    unpack data width offset = .ok n := by
  have hne : toLE width n ≠ [] := by
    intro hnil
    apply hwidth
    rw [← length_toLE width n, hnil]
    rfl
  have hread := unpackFrom_at h hne
  rw [length_toLE] at hread
  unfold unpack
  rw [hread]
  exact congrArg Except.ok (ofLE_toLE hn)

theorem uint32_lt (n : UInt32) : n.toNat < 256 ^ 4 := n.toNat_lt

theorem uint16_lt (n : UInt16) : n.toNat < 256 ^ 2 := n.toNat_lt

theorem subsFrom_at (subs : List UInt32) (h : At data offset (subs.flatMap fun sub => toLE 4 sub.toNat)) :
    subsFrom data subs.length offset = .ok (subs.map UInt32.toNat) := by
  induction subs generalizing offset with
  | nil => rfl
  | cons sub subs ih =>
    rw [List.flatMap_cons] at h
    have hrest := h.append_right
    rw [length_toLE] at hrest
    rw [List.length_cons, subsFrom, unpack_at h.append_left (by omega) (uint32_lt sub), ih hrest]
    rfl

theorem sidToString_at (s : Sid) (h : At data offset s.octets) :
    sidToString data offset = .ok (s.text, 8 + 4 * s.subs.length) := by
  unfold Sid.octets at h
  have hcount : (UInt8.ofNat s.subs.length).toNat = s.subs.length := toNat_ofNat s.subs_lt
  have htail := h.append_right
  have hauthority := htail.append_left
  have hsubs := htail.append_right
  rw [length_toBE] at hsubs
  have hlen : (s.subs.flatMap fun sub => toLE 4 sub.toNat).length = 4 * s.subs.length := by
    rw [List.length_flatMap]
    simp [Nat.mul_comm]
  have hfits : ¬ data.length < offset + 8 + 4 * s.subs.length := by
    have hle := h.length_le (by simp)
    simp only [List.length_append, List.length_cons, List.length_nil, length_toBE, hlen] at hle
    omega
  have hread : ofBE ((data.drop (offset + 2)).take 6) = s.authority := by
    have htake := hauthority.take
    rw [length_toBE] at htake
    rw [show offset + 2 = offset + [s.revision, UInt8.ofNat s.subs.length].length from rfl, htake,
      ofBE_toBE s.authority_lt]
  unfold sidToString
  rw [index_at h, index_at h.tail, hcount]
  dsimp only [bind, Except.bind]
  rw [if_neg hfits]
  dsimp only [pure, Except.pure]
  rw [hread, show offset + 8 = offset + [s.revision, UInt8.ofNat s.subs.length].length + 6 from rfl,
    subsFrom_at s.subs hsubs]
  rfl

/-! ### GUIDs -/

theorem hexOf_append (a b : Octets) : hexOf (a ++ b) = hexOf a ++ hexOf b := List.flatMap_append

theorem hexOf_toLE (width n : ℕ) : hexOf (toLE width n).reverse = hexNumber (2 * width) n := by
  induction width generalizing n with
  | zero => rfl
  | succ width ih =>
    have hbyte : (UInt8.ofNat (n % 256)).toNat = n % 256 := toNat_ofNat (Nat.mod_lt _ (by omega))
    have hhigh : n % 256 / 16 = n / 16 % 16 := by omega
    have hlow : n % 256 % 16 = n % 16 := by omega
    have hdiv : n / 16 / 16 = n / 256 := by omega
    rw [toLE, List.reverse_cons, hexOf_append, ih, show 2 * (width + 1) = 2 * width + 1 + 1 by ring, hexNumber, hexNumber, hdiv]
    simp [hexOf, hbyte, hhigh, hlow]

theorem length_guid (g : Guid) : g.octets.length = 16 := by
  unfold Guid.octets
  simp [g.length_data4]

theorem uuidText_octets (g : Guid) : uuidText g.octets = g.text := by
  have hstart : At g.octets 0 (toLE 4 g.data1.toNat ++ (toLE 2 g.data2.toNat ++ (toLE 2 g.data3.toNat ++ g.data4))) :=
    List.prefix_rfl
  have h4 := hstart.append_right
  have h6 := h4.append_right
  have h8 := h6.append_right
  rw [length_toLE] at h4
  rw [length_toLE, length_toLE] at h6
  rw [length_toLE, length_toLE, length_toLE] at h8
  have htake1 := hstart.append_left.take
  have htake2 := h4.append_left.take
  have htake3 := h6.append_left.take
  have hdrop : g.octets.drop 8 = g.data4 := by
    unfold Guid.octets
    rw [← List.append_assoc, ← List.append_assoc]
    exact List.drop_left' (by simp)
  have hrest : (g.octets.drop 10).take 6 = g.data4.drop 2 := by
    rw [show 10 = 8 + 2 from rfl, ← List.drop_drop, hdrop]
    exact List.take_of_length_le (by rw [List.length_drop, g.length_data4])
  rw [length_toLE] at htake1 htake2 htake3
  unfold uuidText Guid.text
  dsimp only
  rw [htake1, htake2, htake3, hdrop, hrest, hexOf_toLE, hexOf_toLE, hexOf_toLE]

/-! ### Entries -/

theorem hasBit_flags (objectType inherited : Option Guid) :
    hasBit (WireAce.objectFlags objectType inherited) ACE_OBJECT_TYPE_PRESENT = objectType.isSome ∧
      hasBit (WireAce.objectFlags objectType inherited) ACE_INHERITED_OBJECT_TYPE_PRESENT = inherited.isSome := by
  unfold WireAce.objectFlags
  generalize objectType.isSome = b
  generalize inherited.isSome = c
  revert b c
  decide

theorem objectFlags_lt (objectType inherited : Option Guid) : WireAce.objectFlags objectType inherited < 256 ^ 4 := by
  unfold WireAce.objectFlags
  split <;> split <;> decide

theorem objectTypeAt_at {objFlags : ℕ} (guid : Option Guid) (hbit : hasBit objFlags ACE_OBJECT_TYPE_PRESENT = guid.isSome)
    (h : At data offset (WireAce.guidOctets guid)) :
    objectTypeAt data objFlags offset = .ok (guid.map Guid.text, offset + (WireAce.guidOctets guid).length) := by
  unfold objectTypeAt
  rw [hbit]
  cases guid with
  | none => rfl
  | some g =>
    have hlen : (WireAce.guidOctets (some g)).length = 16 := length_guid g
    have hne : WireAce.guidOctets (some g) ≠ [] := by
      intro hnil
      rw [hnil] at hlen
      cases hlen
    have hle := h.length_le hne
    have htake := h.take
    rw [hlen] at hle htake
    rw [Option.isSome_some, if_pos rfl, if_neg (by omega), htake, hlen]
    exact congrArg (fun t => Except.ok (some t, offset + 16)) (uuidText_octets g)

theorem parseAce_at (ace : WireAce) (h : At data offset ace.body) :
    parseAce data ace.type.toNat offset = .ok ace.granted := by
  cases ace with
  | allow flags mask sid extra =>
    have hsid := h.append_right.append_left
    rw [length_toLE] at hsid
    have htype : (WireAce.allow flags mask sid extra).type.toNat = ACCESS_ALLOWED_ACE_TYPE := rfl
    unfold parseAce
    rw [if_pos htype, unpack_at h.append_left (by omega) (uint32_lt mask)]
    dsimp only [bind, Except.bind]
    rw [sidToString_at sid hsid]
    rfl
  | allowObject flags mask objectType inherited sid extra =>
    obtain ⟨hobject, hinherited⟩ := hasBit_flags objectType inherited
    have hfields : At data offset
        (toLE 4 mask.toNat ++ toLE 4 (WireAce.objectFlags objectType inherited) ++
          (WireAce.guidOctets objectType ++ (WireAce.guidOctets inherited ++ (sid.octets ++ extra)))) := by
      rw [List.append_assoc]
      exact h
    have hread := unpackFrom_at hfields.append_left (by simp [toLE])
    have hguid := hfields.append_right
    rw [List.length_append, length_toLE, length_toLE] at hread hguid
    have hinner := hguid.append_right
    have hsid := hinner.append_right.append_left
    have hplain : (WireAce.allowObject flags mask objectType inherited sid extra).type.toNat ≠ ACCESS_ALLOWED_ACE_TYPE := by
      change (0x05 : UInt8).toNat ≠ 0
      decide
    have htype : (WireAce.allowObject flags mask objectType inherited sid extra).type.toNat =
        ACCESS_ALLOWED_OBJECT_ACE_TYPE := rfl
    have hskip : (if inherited.isSome = true then offset + (4 + 4) + (WireAce.guidOctets objectType).length + 16
        else offset + (4 + 4) + (WireAce.guidOctets objectType).length) =
        offset + (4 + 4) + (WireAce.guidOctets objectType).length + (WireAce.guidOctets inherited).length := by
      cases inherited with
      | none => rfl
      | some g => exact congrArg (_ + ·) (length_guid g).symm
    unfold parseAce
    rw [if_neg hplain, if_pos htype, hread]
    dsimp only [bind, Except.bind]
    rw [List.take_left' (length_toLE 4 _), List.drop_left' (length_toLE 4 _), ofLE_toLE (uint32_lt mask),
      ofLE_toLE (objectFlags_lt objectType inherited), objectTypeAt_at objectType hobject hguid.append_left]
    dsimp only
    rw [hinherited, hskip, sidToString_at sid hsid]
    rfl
  | other type flags body noAllow noAllowObject =>
    have hplain : (WireAce.other type flags body noAllow noAllowObject).type.toNat ≠ ACCESS_ALLOWED_ACE_TYPE := noAllow
    have hobject : (WireAce.other type flags body noAllow noAllowObject).type.toNat ≠ ACCESS_ALLOWED_OBJECT_ACE_TYPE :=
      noAllowObject
    unfold parseAce
    rw [if_neg hplain, if_neg hobject]
    rfl

theorem acesFrom_at (aces : List WireAce) (hsize : ∀ a ∈ aces, a.size < 256 ^ 2)
    (h : At data offset (aces.flatMap WireAce.octets)) :
    acesFrom data aces.length offset = .ok (aces.filterMap WireAce.granted) := by
  induction aces generalizing offset with
  | nil => rfl
  | cons ace aces ih =>
    rw [List.flatMap_cons] at h
    have hace := h.append_left
    have hrest := h.append_right
    have hlen : ace.octets.length = ace.size := by
      unfold WireAce.octets WireAce.size
      simp only [List.length_append, List.length_cons, List.length_nil, length_toLE]
      omega
    rw [hlen] at hrest
    have hheader : At data offset ([ace.type, ace.flags] ++ toLE 2 ace.size ++ ace.body) := by
      rw [List.append_assoc]
      exact hace
    have hread := unpackFrom_at hheader.append_left (by simp)
    have hbody := hheader.append_right
    rw [List.length_append, length_toLE] at hread hbody
    have hsizeOf : ofLE (toLE 2 ace.size) = ace.size := ofLE_toLE (hsize ace List.mem_cons_self)
    have htype : ofLE (([ace.type, ace.flags] ++ toLE 2 ace.size).take 1) = ace.type.toNat := by
      simp [ofLE]
    have hdrop : ([ace.type, ace.flags] ++ toLE 2 ace.size).drop 2 = toLE 2 ace.size := rfl
    have hpos : offset + 4 = offset + ([ace.type, ace.flags].length + 2) := rfl
    rw [List.length_cons, acesFrom, show (4 : ℕ) = [ace.type, ace.flags].length + 2 from rfl, hread]
    dsimp only [bind, Except.bind]
    rw [htype, hdrop, hsizeOf, parseAce_at ace hbody, ih (fun a ha => hsize a (List.mem_cons_of_mem _ ha)) hrest,
      List.filterMap_cons]
    cases ace.granted with
    | none => rfl
    | some granted => rfl

/-! ### Descriptors -/

theorem parseAcl_at (l : WireAcl) (h : At data offset l.octets) :
    parseAcl data offset = .ok (l.aces.filterMap WireAce.granted) := by
  have hfields : At data offset ([l.revision, l.sbz1] ++ toLE 2 l.size.toNat ++ toLE 2 l.aces.length ++
      toLE 2 l.sbz2.toNat ++ l.aces.flatMap WireAce.octets) := by
    simpa [WireAcl.octets] using h
  have hread := unpackFrom_at hfields.append_left (by simp)
  have haces := hfields.append_right
  have hlen : ([l.revision, l.sbz1] ++ toLE 2 l.size.toNat ++ toLE 2 l.aces.length ++ toLE 2 l.sbz2.toNat).length = 8 := by
    simp
  rw [hlen] at hread haces
  have hcount : (([l.revision, l.sbz1] ++ toLE 2 l.size.toNat ++ toLE 2 l.aces.length ++ toLE 2 l.sbz2.toNat).drop 4).take 2 =
      toLE 2 l.aces.length := by
    rw [List.append_assoc _ (toLE 2 l.aces.length), List.drop_left' (by simp), List.take_left' (length_toLE 2 _)]
  unfold parseAcl
  rw [hread]
  dsimp only [bind, Except.bind]
  rw [hcount, ofLE_toLE l.count_lt, acesFrom_at l.aces l.sizes_lt haces]

theorem partAt_placed {α β : Type} {octets : α → Octets} {off : UInt32} {part : Option α} {read : ℕ → Except Exn β}
    {value : α → β} (h : Placed octets data off part)
    (hread : ∀ x, At data off.toNat (octets x) → read off.toNat = .ok (value x)) :
    partAt read off.toNat = .ok (part.map value) := by
  cases h with
  | absent hzero =>
    rw [hzero]
    rfl
  | there x hne hat =>
    have hoff : off.toNat ≠ 0 := fun hzero => hne (UInt32.toNat_inj.1 hzero)
    unfold partAt
    rw [if_neg hoff, hread x hat]
    rfl

/-- **Well-formed descriptors.** The parser returns what the descriptor says, wherever its parts lie; and it refuses with
ValueError whatever it cannot read. -/
theorem parse_selfRelative :
    (∀ data d, SelfRelative data d → parse data = .ok d.read) ∧
      ∀ data, (∃ sd, parse data = .ok sd) ∨ ∃ msg, parse data = .error (.value msg) := by
  refine ⟨fun data d h => ?_, parse_total⟩
  obtain ⟨revision, sbz1, control, offOwner, offGroup, offSacl, offDacl, hheader, howner, hgroup, hdacl⟩ := h.layout
  generalize hoctets : [revision, sbz1] ++ (toLE 2 control.toNat ++ (toLE 4 offOwner.toNat ++ (toLE 4 offGroup.toNat ++
      (toLE 4 offSacl.toNat ++ toLE 4 offDacl.toNat)))) = header at hheader
  have hlen : header.length = 20 := by
    rw [← hoctets]
    simp
  have hne : header ≠ [] := by
    intro hnil
    rw [hnil] at hlen
    cases hlen
  have hread := unpackFrom_at hheader hne
  have hlong := hheader.length_le hne
  rw [hlen] at hread hlong
  have hfield : ∀ (i : ℕ) (n : UInt32), At header i (toLE 4 n.toNat) → ofLE ((header.drop i).take 4) = n.toNat := by
    intro i n hat
    have htake := hat.take
    rw [length_toLE] at htake
    rw [htake, ofLE_toLE (uint32_lt n)]
  have hcontrol : At header 0 header := List.prefix_rfl
  rw [← hoctets] at hcontrol
  have h4 := hcontrol.append_right.append_right
  have h8 := h4.append_right
  have h12 := h8.append_right
  have h16 := h12.append_right
  simp only [length_toLE, List.length_cons, List.length_nil, Nat.zero_add, Nat.reduceAdd] at h4 h8 h12 h16
  rw [hoctets] at h4 h8 h12 h16
  have hownerField := hfield 4 offOwner h4.append_left
  have hgroupField := hfield 8 offGroup h8.append_left
  have hdaclField := hfield 16 offDacl h16
  have hsid : ∀ offset (sid : Sid), At data offset sid.octets →
      (fun off => Prod.fst <$> sidToString data off) offset = .ok sid.text := by
    intro offset sid hat
    dsimp only
    rw [sidToString_at sid hat]
    rfl
  have hraw : parseRaw data = .ok d.read := by
    unfold parseRaw
    rw [if_neg (by omega)]
    dsimp only [bind, Except.bind, pure, Except.pure]
    rw [hread]
    dsimp only
    rw [hownerField, hgroupField, hdaclField, partAt_placed howner (hsid _)]
    dsimp only
    rw [partAt_placed hgroup (hsid _)]
    dsimp only
    rw [partAt_placed hdacl parseAcl_at]
    rfl
  unfold parse
  rw [hraw]

end Reads

/-! ## A descriptor -/

/-- Domain Users of some domain -/
def domainUsers : Sid := ⟨1, 5, [21, 1, 2, 3, 513], by decide, by decide⟩

/-- the Enroll extended right -/
def enrollGuid : Guid := ⟨0x0e10c968, 0x78fb, 0x11d2, [0x90, 0xd4, 0x00, 0xc0, 0x4f, 0x79, 0xdc, 0x55], rfl⟩

/-- a deny entry before the Enroll right for the domain's users, with an inherited object type and padding -/
def enrollSd : WireSd where
  owner := some domainUsers
  group := none
  dacl := some
    { revision := 4, sbz1 := 0, size := 100, sbz2 := 0
      aces := [.other 1 0 [1, 2, 3, 4, 5] (by decide) (by decide),
        .allowObject 0 0x100 (some enrollGuid) (some enrollGuid) domainUsers [0, 0, 0, 0]]
      count_lt := by decide
      sizes_lt := by decide }

/-- the DACL first, then the owner -/
def enrollOctets : Octets :=
  [1, 0] ++ toLE 2 0x8004 ++ toLE 4 113 ++ toLE 4 0 ++ toLE 4 0 ++ toLE 4 20 ++
    (enrollSd.dacl.map WireAcl.octets).getD [] ++ domainUsers.octets

theorem parse_enrollOctets : parse enrollOctets = .ok
    ⟨some "S-1-5-21-1-2-3-513", none,
      [⟨"S-1-5-21-1-2-3-513", 0x100, some "0e10c968-78fb-11d2-90d4-00c04f79dc55", 5⟩]⟩ := by
  have hread : enrollSd.read = ⟨some "S-1-5-21-1-2-3-513", none,
      [⟨"S-1-5-21-1-2-3-513", 0x100, some "0e10c968-78fb-11d2-90d4-00c04f79dc55", 5⟩]⟩ := by
    decide +kernel
  rw [← hread]
  refine parse_selfRelative.1 _ _ ⟨1, 0, 0x8004, 113, 0, 0, 20, ?_, ?_, .absent rfl, ?_⟩
  · unfold At
    decide +kernel
  · exact .there _ (by decide) (by unfold At; decide +kernel)
  · exact .there _ (by decide) (by unfold At; decide +kernel)

end Certadillo.Adcs
