/-
Static SSH keys as the host agent finds them (`discovery/agent.py`): what it reports of an authorized_keys file, and the keys
that file gives to sshd.

sshd ends a line at a newline only, separates fields with blanks, and lets a backslash take the meaning from a quote inside
the options field. `parseSshKeyLine` splits at every line break and white space of Unicode, and every quote opens or closes.

- `parse_plain`: on a plain line the agent reads the key that sshd reads.
- `hidesNoKey_iff`: a file of plain lines is reported key for key, each under its number, unless it is too large to be read.
- `escaped_quote_hides`: a forced command with escaped quotes takes its key out of the report.
-/
import Certadillo.Discovery.Reports
import Certadillo.Lib.Base64
import Certadillo.Lib.Bytes
import Certadillo.Lib.Dicts
import Certadillo.Policy.Containment

namespace Certadillo.Discovery.Agent

open Py Policy

abbrev Bytes := List UInt8

/-! ## Text -/

/-- a started UTF-8 sequence: the bytes still wanted, the range of the next one, and the bits so far -/
structure Pending where
  more : ℕ
  lo : ℕ
  hi : ℕ
  bits : ℕ

/-- the first byte of a character, and what it asks for -/
def utf8Lead (n : ℕ) : Chars × Option Pending :=
  if n < 0x80 then ([Char.ofNat n], none)
  else if 0xC2 ≤ n ∧ n ≤ 0xDF then ([], some ⟨1, 0x80, 0xBF, n % 0x20⟩)
  else if 0xE0 ≤ n ∧ n ≤ 0xEF then
    ([], some ⟨2, if n = 0xE0 then 0xA0 else 0x80, if n = 0xED then 0x9F else 0xBF, n % 0x10⟩)
  else if 0xF0 ≤ n ∧ n ≤ 0xF4 then
    ([], some ⟨3, if n = 0xF0 then 0x90 else 0x80, if n = 0xF4 then 0x8F else 0xBF, n % 0x08⟩)
  else (['\uFFFD'], none)

def utf8Step : Option Pending → ℕ → Chars × Option Pending
  | none, n => utf8Lead n
  | some p, n =>
    if p.lo ≤ n ∧ n ≤ p.hi then
      let bits := p.bits * 64 + n % 64
      if p.more = 1 then ([Char.ofNat bits], none) else ([], some ⟨p.more - 1, 0x80, 0xBF, bits⟩)
    else ('\uFFFD' :: (utf8Lead n).1, (utf8Lead n).2)

def decodeFrom : Option Pending → Bytes → Chars
  | none, [] => []
  | some _, [] => ['\uFFFD']
  | st, b :: bs => (utf8Step st b.toNat).1 ++ decodeFrom (utf8Step st b.toNat).2 bs

/-- `bytes.decode(errors="replace")` -/
def decode (data : Bytes) : Chars := decodeFrom none data

/-- what `read_text` makes of line endings -/
def newlines : Chars → Chars
  | [] => []
  | '\r' :: '\n' :: cs => '\n' :: newlines cs
  | c :: cs => (if c = '\r' then '\n' else c) :: newlines cs

/-- where `str.splitlines` ends a line -/
def isLineBreak (c : Char) : Bool :=
  let n := c.toNat
  (10 ≤ n && n ≤ 13) || (28 ≤ n && n ≤ 30) || n = 133 || n = 8232 || n = 8233

/-- `str.splitlines()` -/
def splitlines : Chars → List Chars
  | [] => []
  | '\r' :: '\n' :: cs => [] :: splitlines cs
  | c :: cs =>
    if isLineBreak c then [] :: splitlines cs
    else
      match splitlines cs with
      | [] => [[c]]
      | w :: ws => (c :: w) :: ws

/-- `str.split(None, maxsplit)`: what is left after the last split keeps its white space -/
def splitFields : ℕ → Chars → List Chars
  | 0, s => if lstrip isSpace s = [] then [] else [lstrip isSpace s]
  | n + 1, s =>
    let s := lstrip isSpace s
    if s = [] then [] else s.takeWhile (!isSpace ·) :: splitFields n (s.dropWhile (!isSpace ·))

/-! ## Key blobs -/

/-- `base64.b64decode(text, validate=True)`, from the digits read of a group on, as `Base64.decodeFrom` -/
def b64StrictFrom : ℕ → ℕ → ℕ → Bool → Chars → Option Bytes
  | pos, _, _, _, [] => if pos = 0 then some [] else none
  | pos, left, pads, padded, c :: cs =>
    if c = '=' then
      if 2 ≤ pos then
        -- nothing may follow complete padding
        if 4 ≤ pos + (pads + 1) then (if cs = [] then some [] else none) else b64StrictFrom pos left (pads + 1) true cs
      else b64StrictFrom pos left pads true cs
    else
      match Base64.value c with
      | none => none
      | some v =>
        if padded then none
        else
          match pos with
          | 0 => b64StrictFrom 1 v 0 false cs
          | 1 => (b64StrictFrom 2 (v % 16) 0 false cs).map (UInt8.ofNat (left * 4 + v / 16) :: ·)
          | 2 => (b64StrictFrom 3 (v % 4) 0 false cs).map (UInt8.ofNat (left * 16 + v / 4) :: ·)
          | _ => (b64StrictFrom 0 0 0 false cs).map (UInt8.ofNat (left * 64 + v) :: ·)

def b64Strict (text : Chars) : Option Bytes :=
  if text.head? = some '=' then none else b64StrictFrom 0 0 0 false text

/-- every string takes its four bytes of length, so the length of the blob is fuel enough -/
def sshStringsFrom : ℕ → Bytes → List Bytes
  | fuel + 1, a :: b :: c :: d :: rest =>
    let n := Bytes.ofBE [a, b, c, d]
    rest.take n :: sshStringsFrom fuel (rest.drop n)
  | _, _ => []

/-- `_ssh_strings` -/
def sshStrings (blob : Bytes) : List Bytes := sshStringsFrom blob.length blob

def SSH_TYPES : List String := ["ssh-rsa", "ssh-dss", "ssh-ed25519", "ecdsa-sha2-nistp256", "ecdsa-sha2-nistp384",
  "ecdsa-sha2-nistp521", "sk-ssh-ed25519@openssh.com", "sk-ecdsa-sha2-nistp256@openssh.com"]

def ECDSA_BITS : List (String × ℕ) := [("ecdsa-sha2-nistp256", 256), ("ecdsa-sha2-nistp384", 384),
  ("ecdsa-sha2-nistp521", 521), ("sk-ecdsa-sha2-nistp256@openssh.com", 256)]

def isSshType (word : Chars) : Bool := SSH_TYPES.contains (String.ofList word)

/-- `_ssh_bits` -/
def sshBits (keyType : String) (blob : Bytes) : Option ℕ :=
  let parts := sshStrings blob
  if keyType = "ssh-rsa" ∧ 3 ≤ parts.length then some (Bytes.bitLength (Bytes.ofBE (parts.getD 2 [])))
  else if keyType = "ssh-dss" ∧ 2 ≤ parts.length then some (Bytes.bitLength (Bytes.ofBE (parts.getD 1 [])))
  else if isSubstring "ed25519".toList keyType.toList then some 256
  else ECDSA_BITS.lookup keyType

/-- `str.encode()` of ASCII text -/
def asciiBytes (s : Chars) : Bytes := s.map fun c => UInt8.ofNat c.toNat

/-- the blob of a key: base64 that carries the type it claims -/
def keyBlob (keyType text : Chars) : Option Bytes :=
  match b64Strict text with
  | none => none
  | some blob => if (sshStrings blob).take 1 = [asciiBytes keyType] then some blob else none

/-- the SHA-256 fingerprint as OpenSSH shows it -/
def fingerprint (sha : Bytes → Bytes) (blob : Bytes) : String :=
  "SHA256:" ++ String.ofList (rstrip (· = '=') (Base64.encode (sha blob)))

/-! ## The agent's reader -/

/-- the line at the first blank outside quotes -/
def splitAtBlank (inQuote : Bool) : Chars → Chars × Chars
  | [] => ([], [])
  | ch :: cs =>
    if ch = '"' then (ch :: (splitAtBlank (!inQuote) cs).1, (splitAtBlank (!inQuote) cs).2)
    else if (ch = ' ' || ch = '\t') && !inQuote then ([], ch :: cs)
    else (ch :: (splitAtBlank inQuote cs).1, (splitAtBlank inQuote cs).2)

/-- `_split_options` -/
def splitOptions (line : Chars) : Chars × Chars := ((splitAtBlank false line).1, strip (splitAtBlank false line).2)

def optionItemsFrom (cur : Chars) (inQuote : Bool) : Chars → List Chars
  | [] => [cur]
  | ch :: cs =>
    let inQuote := if ch = '"' then !inQuote else inQuote
    if ch = ',' && !inQuote then cur :: optionItemsFrom [] inQuote cs else optionItemsFrom (cur ++ [ch]) inQuote cs

/-- `_option_items` -/
def optionItems (options : Chars) : List Chars := (optionItemsFrom [] false options).filter (· ≠ [])

/-- the name of an option: `item.partition("=")[0].lower()` -/
def optionName (lower : Chars → Chars) (item : Chars) : String := String.ofList (lower (partition '=' item).1)

/-- the restriction, not the command line itself -/
def optionValue (lower : Chars → Chars) (item : Chars) : Json :=
  if ["from", "permitopen", "principals"].contains (optionName lower item) then
    .str (String.ofList (lstrip (· = '"') (rstrip (· = '"') (partition '=' item).2)))
  else .bool true

def optionDict (lower : Chars → Chars) (options : Chars) : List (String × Json) :=
  (optionItems options).foldl (fun opts item => setItem opts (optionName lower item) (optionValue lower item)) []

structure ParsedKey where
  keyType : String
  bits : Option ℕ
  fingerprint : String
  comment : String
  options : List (String × Json)
deriving DecidableEq

section Reader

variable (sha : Bytes → Bytes) (lower : Chars → Chars)

/-- the fields after the options: type, blob and comment -/
def parseFields (options : Chars) : List Chars → Option ParsedKey
  | keyType :: text :: rest =>
    if isSshType keyType then
      (keyBlob keyType text).map fun blob =>
        { keyType := String.ofList keyType, bits := sshBits (String.ofList keyType) blob, fingerprint := fingerprint sha blob,
          comment := String.ofList ((rest.head?.getD []).take 200), options := optionDict lower options }
    else none
  | _ => none

/-- `parse_ssh_key_line` -/
def parseSshKeyLine (line : Chars) : Option ParsedKey :=
  let line := strip line
  if line = [] ∨ line.head? = some '#' then none
  else if isSshType ((splitFields 1 line).headD []) then parseFields sha lower [] (splitFields 2 line)
  else parseFields sha lower (splitOptions line).1 (splitFields 2 (splitOptions line).2)

/-- a file of the host; reading it can fail -/
structure HostFile where
  path : String
  isSymlink : Bool
  isFile : Bool
  content : Option Bytes
  mtime : ℤ

structure Report where
  key : ParsedKey
  kind : String
  path : String
  line : ℕ
  user : Option String
  userExists : Bool
  fileMtime : ℤ

def MAX_BYTES : ℕ := 1000000

/-- `_ssh_file` -/
def sshFile (file : HostFile) (kind : String) (user : Option String) (userExists : Bool) : List Report :=
  if file.isSymlink || !file.isFile then []
  else
    match file.content with
    | none => []
    | some data =>
      if MAX_BYTES < data.length then []
      else
        ((splitlines (newlines (decode data))).zipIdx 1).filterMap fun p =>
          (parseSshKeyLine sha lower p.1).map fun k => ⟨k, kind, file.path, p.2, user, userExists, file.mtime⟩

end Reader

/-! ## What sshd reads -/

/-- sshd separates fields with these -/
def isBlank (c : Char) : Bool := c = ' ' || c = '\t'

def skip (s : Chars) : Chars := s.dropWhile isBlank

def word (s : Chars) : Chars := s.takeWhile (!isBlank ·)

/-- what follows a word and the blanks after it -/
def next (s : Chars) : Chars := skip (s.dropWhile (!isBlank ·))

/-- a carriage return before the newline is white space to sshd's base64 reader, and part of a comment -/
def chomp (line : Chars) : Chars := if line.getLast? = some '\r' then line.dropLast else line

/-- the options field, what follows it, and whether its quotes are closed; a backslash takes the meaning from a quote -/
def optionsField : Bool → Chars → Chars × Chars × Bool
  | quoted, [] => ([], [], !quoted)
  | quoted, '\\' :: '"' :: cs =>
    let f := optionsField quoted cs
    ('\\' :: '"' :: f.1, f.2)
  | quoted, c :: cs =>
    if !quoted && isBlank c then ([], c :: cs, true)
    else
      let f := optionsField (if c = '"' then !quoted else quoted) cs
      (c :: f.1, f.2)

def itemsFrom (cur : Chars) (quoted : Bool) : Chars → List Chars
  | [] => [cur]
  | '\\' :: '"' :: cs => itemsFrom (cur ++ ['\\', '"']) quoted cs
  | c :: cs =>
    let quoted := if c = '"' then !quoted else quoted
    if c = ',' && !quoted then cur :: itemsFrom [] quoted cs else itemsFrom (cur ++ [c]) quoted cs

/-- the options of the field: a comma inside quotes belongs to a value -/
def items (options : Chars) : List Chars := (itemsFrom [] false options).filter (· ≠ [])

/-- up to the closing quote -/
def unquote : Chars → Chars
  | [] => []
  | '\\' :: '"' :: cs => '"' :: unquote cs
  | c :: cs => if c = '"' then [] else c :: unquote cs

/-- the value of an option, out of its quotes -/
def valueOf (item : Chars) : Chars :=
  match (partition '=' item).2 with
  | '"' :: cs => unquote cs
  | cs => cs

/-- what a key line says: the key, and how it is restricted -/
structure KeyLine where
  keyType : String
  fingerprint : String
  names : Finset String
  fromHosts : Option String
deriving DecidableEq

section Sshd

variable (sha : Bytes → Bytes) (lower : Chars → Chars)

/-- type and blob -/
def readKey (options r : Chars) : Option KeyLine :=
  if isSshType (word r) then
    (keyBlob (word r) (word (next r))).map fun blob =>
      { keyType := String.ofList (word r), fingerprint := fingerprint sha blob,
        names := ((items options).map (optionName lower)).toFinset,
        fromHosts := ((items options).filter (optionName lower · = "from")).getLast?.map fun item =>
          String.ofList (valueOf item) }
  else none

/-- the key that a line gives sshd, if it is a key line: it starts with options if it does not start with a key type -/
def accepts (line : Chars) : Option KeyLine :=
  let s := skip (chomp line)
  if s = [] ∨ s.head? = some '#' then none
  else if isSshType (word s) then readKey sha lower [] s
  else
    let f := optionsField false s
    if f.2.2 then readKey sha lower f.1 (skip f.2.1) else none

/-- the key lines of a text, each with its number -/
def acceptedKeys (text : Chars) : List (ℕ × KeyLine) :=
  ((split '\n' text).zipIdx 1).filterMap fun p => (accepts sha lower p.1).map fun k => (p.2, k)

/-- what a report says of its key -/
def ParsedKey.seen (k : ParsedKey) : KeyLine where
  keyType := k.keyType
  fingerprint := k.fingerprint
  names := (k.options.map Prod.fst).toFinset
  fromHosts :=
    match k.options.lookup "from" with
    | some (.str v) => some v
    | _ => none

/-- **No key hidden.** What the agent reports of a file with this content are its key lines: each one once, in order, under
its number and as sshd reads it. -/
def HidesNoKey (data : Bytes) : Prop :=
  ∀ path kind user userExists mtime,
    (sshFile sha lower ⟨path, false, true, some data, mtime⟩ kind user userExists).map (fun r => (r.line, r.key.seen)) =
      acceptedKeys sha lower (decode data)

end Sshd

/-! ## Plain lines -/

/-- up to the first white space -/
def solid (s : Chars) : Chars := s.takeWhile (!isSpace ·)

/-- where a key type stands, no white space but blanks leads to it, is in it or in the blob -/
structure SolidKey (s : Chars) : Prop where
  start : ∀ c, s.head? = some c → isSpace c = false
  type : isSshType (solid s) = true → solid s = word s
  blob : isSshType (solid s) = true → solid (next s) = word (next s)

/-- in one pair of quotes, or in none -/
def OneQuoted (v : Chars) : Prop :=
  '"' ∉ v ∨ ∃ m, '"' ∉ m ∧ m.getLast? ≠ some '\\' ∧ v = '"' :: (m ++ ['"'])

/-- no escaped quote in the options field, and the value of `from` in one pair of quotes -/
structure PlainOptions (lower : Chars → Chars) (options : Chars) : Prop where
  noEscape : isSubstring ['\\', '"'] options = false
  fromQuoted : ∀ item ∈ items options, optionName lower item = "from" → OneQuoted (partition '=' item).2

/-- a line whose fields read the same by both rules; its comment may hold anything but line breaks -/
structure Plain (lower : Chars → Chars) (line : Chars) : Prop where
  oneLine : ∀ c ∈ chomp line, isLineBreak c = false
  fields : let s := skip (chomp line)
    s = [] ∨ s.head? = some '#' ∨
      (SolidKey s ∧ (isSshType (word s) = false →
        PlainOptions lower (optionsField false s).1 ∧ SolidKey (skip (optionsField false s).2.1)))

/-! ### White space -/

section Text

variable {s a b : Chars}

theorem span_append {p : Char → Bool} (ha : ∀ c ∈ a, p c = true) (hb : ∀ c, b.head? = some c → p c = false) :
    (a ++ b).takeWhile p = a ∧ (a ++ b).dropWhile p = b := by
  induction a with
  | nil =>
    cases b with
    | nil => exact ⟨rfl, rfl⟩
    | cons c b => simp [hb c rfl]
  | cons c a ih =>
    obtain ⟨htake, hdrop⟩ := ih fun d hd => ha d (List.mem_cons_of_mem _ hd)
    have hc := ha c List.mem_cons_self
    simp [hc, htake, hdrop]

theorem head_dropWhile {p : Char → Bool} {c : Char} (h : (s.dropWhile p).head? = some c) : p c = false := by
  have hne : s.dropWhile p ≠ [] := by
    intro hnil
    rw [hnil] at h
    cases h
  have hhead := List.head_dropWhile_not p hne
  rw [List.head?_eq_some_head hne] at h
  rwa [Option.some.inj h] at hhead

theorem isSpace_of_isBlank {c : Char} (h : isBlank c = true) : isSpace c = true := by
  simp only [isBlank, Bool.or_eq_true, decide_eq_true_eq] at h
  rcases h with rfl | rfl
  · decide
  · decide

/-- stripping white space is skipping blanks, up to something solid -/
theorem lstrip_eq_skip (h : ∀ c, (skip s).head? = some c → isSpace c = false) : lstrip isSpace s = skip s := by
  induction s with
  | nil => rfl
  | cons c s ih =>
    unfold skip lstrip at *
    by_cases hc : isBlank c = true
    · rw [List.dropWhile_cons_of_pos hc] at h ⊢
      rw [List.dropWhile_cons_of_pos (isSpace_of_isBlank hc)]
      exact ih h
    · rw [List.dropWhile_cons_of_neg hc] at h ⊢
      rw [List.dropWhile_cons_of_neg]
      simp [h c rfl]

theorem rstrip_append_solid (h : ∀ c ∈ a, isSpace c = false) : rstrip isSpace (a ++ b) = a ++ rstrip isSpace b := by
  rcases List.eq_nil_or_concat a with rfl | ⟨a', c, rfl⟩
  · rfl
  · rw [List.concat_eq_append] at h ⊢
    rw [List.append_assoc, List.singleton_append, rstrip_append (h c (by simp)), List.append_assoc]
    rfl

theorem rstrip_prefix (s : Chars) : rstrip isSpace s <+: s := by
  unfold rstrip
  rw [← List.reverse_suffix, List.reverse_reverse]
  exact List.dropWhile_suffix _

theorem rstrip_eq_nil : rstrip isSpace s = [] ↔ ∀ c ∈ s, isSpace c = true := by
  unfold rstrip
  rw [List.reverse_eq_nil_iff, List.dropWhile_eq_nil_iff]
  simp

theorem rstrip_append_space (h : ∀ c ∈ b, isSpace c = true) : rstrip isSpace (a ++ b) = rstrip isSpace a := by
  unfold rstrip
  rw [List.reverse_append, List.dropWhile_append_of_pos]
  intro c hc
  exact h c (List.mem_reverse.1 hc)

/-- what is skipped, and the rest -/
theorem exists_gap (s : Chars) : ∃ gap, s = gap ++ skip s ∧ ∀ c ∈ gap, isBlank c = true :=
  ⟨s.takeWhile isBlank, List.takeWhile_append_dropWhile.symm, fun _ hc => List.mem_takeWhile_imp hc⟩

theorem rstrip_rstrip (s : Chars) : rstrip isSpace (rstrip isSpace s) = rstrip isSpace s := by
  apply rstrip_eq_self
  intro c hc
  unfold rstrip at hc
  rw [List.getLast?_reverse] at hc
  exact head_dropWhile hc

theorem mem_solid {c : Char} (h : c ∈ solid s) : isSpace c = false := by
  simpa using List.mem_takeWhile_imp h

theorem solid_append : solid s ++ s.dropWhile (!isSpace ·) = s := List.takeWhile_append_dropWhile

theorem word_append : word s ++ s.dropWhile (!isBlank ·) = s := List.takeWhile_append_dropWhile

/-- a solid word is all there is up to the first white space -/
theorem solid_eq_word (h : ∀ c ∈ word s, isSpace c = false) : solid s = word s := by
  have hspan : (word s ++ s.dropWhile (!isBlank ·)).takeWhile (!isSpace ·) = word s := by
    refine (span_append (fun c hc => by simp [h c hc]) fun c hc => ?_).1
    have hblank : isBlank c = true := by simpa using head_dropWhile hc
    simp [isSpace_of_isBlank hblank]
  rwa [word_append] at hspan

/-- key types are solid -/
theorem sshType_solid (h : isSshType a = true) : ∀ c ∈ a, isSpace c = false := by
  have htypes : ∀ t ∈ SSH_TYPES, (t.toList.all fun c => !isSpace c) = true := by decide +kernel
  have hall := htypes _ (List.contains_iff_mem.1 h)
  rw [String.toList_ofList, List.all_eq_true] at hall
  intro c hc
  simpa using hall c hc

/-! ### Fields -/

theorem splitFields_lstrip (n : ℕ) (h : lstrip isSpace a = lstrip isSpace b) : splitFields n a = splitFields n b := by
  cases n with
  | zero => rw [splitFields, splitFields, h]
  | succ n => simp only [splitFields, h]

theorem splitFields_solid (n : ℕ) (hne : s ≠ []) (h : ∀ c, s.head? = some c → isSpace c = false) :
    splitFields (n + 1) (rstrip isSpace s) =
      solid s :: splitFields n (rstrip isSpace (s.dropWhile (!isSpace ·))) := by
  have hsplit : rstrip isSpace s = solid s ++ rstrip isSpace (s.dropWhile (!isSpace ·)) := by
    conv_lhs => rw [← solid_append (s := s)]
    exact rstrip_append_solid fun c hc => mem_solid hc
  have hsolid : solid s ≠ [] := by
    cases s with
    | nil => exact absurd rfl hne
    | cons c s => simp [solid, h c rfl]
  obtain ⟨c, cs, hcs⟩ := List.exists_cons_of_ne_nil hsolid
  have hc : isSpace c = false := mem_solid (s := s) (hcs ▸ List.mem_cons_self)
  have hstrip : lstrip isSpace (rstrip isSpace s) = rstrip isSpace s := by
    rw [hsplit, hcs]
    exact List.dropWhile_cons_of_neg (by simp [hc])
  have hspan : (rstrip isSpace s).takeWhile (!isSpace ·) = solid s ∧
      (rstrip isSpace s).dropWhile (!isSpace ·) = rstrip isSpace (s.dropWhile (!isSpace ·)) := by
    rw [hsplit]
    refine span_append (fun d hd => by simp [mem_solid hd]) fun d hd => ?_
    -- what is left of the rest starts as the rest does
    obtain ⟨tail, htail⟩ := rstrip_prefix (s.dropWhile (!isSpace ·))
    have hhead : (s.dropWhile (!isSpace ·)).head? = some d := by
      rw [← htail, List.head?_append, hd]
      rfl
    exact head_dropWhile hhead
  have hnil : rstrip isSpace s ≠ [] := by
    rw [hsplit, hcs]
    exact List.cons_ne_nil _ _
  rw [splitFields, hstrip, if_neg hnil, hspan.1, hspan.2]

/-- the fields of a text that starts with a solid key type: at least that type, and the blob if there is one -/
theorem splitFields_key (hkey : SolidKey s) (htype : isSshType (word s) = true) :
    (next s = [] ∧ splitFields 2 (rstrip isSpace s) = [word s]) ∨
      ∃ comment, splitFields 2 (rstrip isSpace s) = word s :: word (next s) :: comment := by
  have hword : solid s = word s := solid_eq_word (sshType_solid htype)
  have hne : s ≠ [] := by
    rintro rfl
    exact absurd htype (by decide)
  have hrest : s.dropWhile (!isSpace ·) = s.dropWhile (!isBlank ·) := by
    have h := solid_append (s := s)
    rw [hword] at h
    exact List.append_cancel_left (h.trans word_append.symm)
  rw [splitFields_solid 1 hne hkey.start, hword, hrest]
  have hblob := hkey.blob (hword ▸ htype)
  have hstart : ∀ c, (next s).head? = some c → isSpace c = false := by
    intro c hc
    have hblank : isBlank c = false := head_dropWhile hc
    apply mem_solid (s := next s)
    rw [hblob]
    obtain ⟨cs, hcs⟩ := List.head?_eq_some_iff.1 hc
    rw [hcs]
    simp [word, hblank]
  by_cases hnext : next s = []
  · left
    refine ⟨hnext, ?_⟩
    have hall : rstrip isSpace (s.dropWhile (!isBlank ·)) = [] := by
      rw [rstrip_eq_nil]
      intro c hc
      exact isSpace_of_isBlank (List.dropWhile_eq_nil_iff.1 hnext c hc)
    rw [hall]
    rfl
  · right
    -- the blanks before the blob go, and nothing of the blob
    obtain ⟨c, cs, hcs⟩ := List.exists_cons_of_ne_nil hnext
    have hc : isSpace c = false := hstart c (by rw [hcs]; rfl)
    obtain ⟨gap, hgap, hblank⟩ := exists_gap (s.dropWhile (!isBlank ·))
    change _ = gap ++ next s at hgap
    have hstrip : splitFields 1 (rstrip isSpace (s.dropWhile (!isBlank ·))) = splitFields 1 (rstrip isSpace (next s)) := by
      have happ : rstrip isSpace (s.dropWhile (!isBlank ·)) = gap ++ rstrip isSpace (next s) := by
        rw [hgap, hcs]
        rw [rstrip_append hc, show c :: cs = [] ++ c :: cs from rfl, rstrip_append hc]
        rfl
      have hl : lstrip isSpace (gap ++ rstrip isSpace (next s)) = lstrip isSpace (rstrip isSpace (next s)) :=
        List.dropWhile_append_of_pos fun d hd => isSpace_of_isBlank (hblank d hd)
      exact splitFields_lstrip 1 (by rw [happ, hl])
    rw [hstrip, splitFields_solid 0 hnext hstart, hblob]
    exact ⟨_, rfl⟩

end Text

/-! ### Options -/

section Options

variable {lower : Chars → Chars}

theorem noEscape_cons {c : Char} {cs : Chars} (h : isSubstring ['\\', '"'] (c :: cs) = false) :
    isSubstring ['\\', '"'] cs = false := by
  rw [isSubstring, Bool.or_eq_false_iff] at h
  exact h.2

/-- without escaped quotes the options end where the agent ends them -/
theorem splitAtBlank_eq (quoted : Bool) (s : Chars) (h : isSubstring ['\\', '"'] (optionsField quoted s).1 = false) :
    splitAtBlank quoted s = ((optionsField quoted s).1, (optionsField quoted s).2.1) := by
  induction quoted, s using optionsField.induct with
  | case1 quoted => rfl
  | case2 quoted cs ih =>
    rw [optionsField] at h
    cases h
  | case3 quoted c cs hne hblank =>
    have hquote : c ≠ '"' := by
      rintro rfl
      simp [isBlank] at hblank
    have hcode : ((c = ' ' || c = '\t') && !quoted) = true := by
      rw [Bool.and_comm]
      exact hblank
    rw [optionsField.eq_3 _ _ _ hne, if_pos hblank, splitAtBlank, if_neg hquote, if_pos hcode]
  | case4 quoted c cs hne hblank ih =>
    have hcode : ((c = ' ' || c = '\t') && !quoted) = false := by
      rw [Bool.and_comm]
      exact Bool.not_eq_true _ ▸ hblank
    rw [optionsField.eq_3 _ _ _ hne, if_neg hblank] at h ⊢
    have hrest := ih (noEscape_cons h)
    by_cases hquote : c = '"'
    · rw [if_pos hquote] at hrest ⊢
      rw [splitAtBlank, if_pos hquote, hrest]
    · rw [if_neg hquote] at hrest ⊢
      rw [splitAtBlank, if_neg hquote, hcode, hrest]
      rfl

/-- open quotes take all of the line -/
theorem optionsField_open {quoted : Bool} {s : Chars} (h : (optionsField quoted s).2.2 = false) :
    (optionsField quoted s).2.1 = [] := by
  induction quoted, s using optionsField.induct with
  | case1 quoted => rfl
  | case2 quoted cs ih => exact ih h
  | case3 quoted c cs hne hblank =>
    rw [optionsField.eq_3 _ _ _ hne, if_pos hblank] at h
    cases h
  | case4 quoted c cs hne hblank ih =>
    rw [optionsField.eq_3 _ _ _ hne, if_neg hblank] at h ⊢
    exact ih h

/-- where the line is split: the parts, and that the first one ends there whatever follows -/
theorem splitAtBlank_spec (quoted : Bool) (s : Chars) :
    (splitAtBlank quoted s).1 ++ (splitAtBlank quoted s).2 = s ∧
      (∀ c, (splitAtBlank quoted s).2.head? = some c → isBlank c = true) ∧
      (∀ part, part <+: (splitAtBlank quoted s).1 → splitAtBlank quoted part = (part, [])) ∧
      ((splitAtBlank quoted s).2 ≠ [] → ∀ rest, (∀ c, rest.head? = some c → isBlank c = true) →
        splitAtBlank quoted ((splitAtBlank quoted s).1 ++ rest) = ((splitAtBlank quoted s).1, rest)) := by
  induction s generalizing quoted with
  | nil =>
    refine ⟨rfl, nofun, fun part hpart => ?_, fun hne => absurd rfl hne⟩
    rw [List.prefix_nil.1 hpart]
    rfl
  | cons ch cs ih =>
    by_cases hquote : ch = '"'
    · obtain ⟨happ, hhead, hpart, hrest⟩ := ih (!quoted)
      simp only [splitAtBlank, if_pos hquote]
      refine ⟨by rw [List.cons_append, happ], hhead, fun part hp => ?_, fun hne rest hr => ?_⟩
      · rcases List.prefix_cons_iff.1 hp with rfl | ⟨part, rfl, hp'⟩
        · rfl
        · rw [splitAtBlank, if_pos hquote, hpart part hp']
      · rw [List.cons_append, splitAtBlank, if_pos hquote, hrest hne rest hr]
    · by_cases hblank : ((ch = ' ' || ch = '\t') && !quoted) = true
      · have hquoted : quoted = false := by
          simp only [Bool.and_eq_true, Bool.not_eq_true'] at hblank
          exact hblank.2
        have hb : isBlank ch = true := (Bool.and_eq_true _ _ ▸ hblank).1
        simp only [splitAtBlank, if_neg hquote, if_pos hblank]
        refine ⟨rfl, fun c hc => ?_, fun part hp => ?_, fun _ rest hr => ?_⟩
        · obtain rfl := Option.some.inj hc
          exact hb
        · rw [List.prefix_nil.1 hp]
          rfl
        · subst hquoted
          cases rest with
          | nil => rfl
          | cons c rest =>
            have hc : isBlank c = true := hr c rfl
            have hne : c ≠ '"' := by
              rintro rfl
              simp [isBlank] at hc
            have hcode : ((c = ' ' || c = '\t') && !false) = true := by
              rw [Bool.not_false, Bool.and_true]
              exact hc
            rw [List.nil_append, splitAtBlank, if_neg hne, if_pos hcode]
      · obtain ⟨happ, hhead, hpart, hrest⟩ := ih quoted
        simp only [splitAtBlank, if_neg hquote, if_neg hblank]
        refine ⟨by rw [List.cons_append, happ], hhead, fun part hp => ?_, fun hne rest hr => ?_⟩
        · rcases List.prefix_cons_iff.1 hp with rfl | ⟨part, rfl, hp'⟩
          · rfl
          · rw [splitAtBlank, if_neg hquote, if_neg hblank, hpart part hp']
        · rw [List.cons_append, splitAtBlank, if_neg hquote, if_neg hblank, hrest hne rest hr]

theorem itemsFrom_eq (cur : Chars) (quoted : Bool) (s : Chars) (h : isSubstring ['\\', '"'] s = false) :
    itemsFrom cur quoted s = optionItemsFrom cur quoted s := by
  induction s generalizing cur quoted with
  | nil => rfl
  | cons c cs ih =>
    have hne : ∀ ds, c = '\\' → cs = '"' :: ds → False := by
      rintro ds rfl rfl
      cases h
    have hrest := fun cur quoted => ih cur quoted (noEscape_cons h)
    rw [itemsFrom.eq_3 _ _ _ _ hne, optionItemsFrom, hrest, hrest]

theorem items_eq {s : Chars} (h : isSubstring ['\\', '"'] s = false) : optionItems s = items s := by
  unfold optionItems items
  rw [itemsFrom_eq _ _ _ h]

/-- building a dictionary from items: under each name its last value -/
theorem lookup_foldl_setItem (name : Chars → String) (value : Chars → Json) (xs : List Chars) (key : String) :
    (xs.foldl (fun opts item => setItem opts (name item) (value item)) []).lookup key =
      (xs.filter (name · = key)).getLast?.map value := by
  induction xs using List.reverseRecOn with
  | nil => rfl
  | append_singleton xs x ih =>
    rw [List.foldl_append, List.foldl_cons, List.foldl_nil, lookup_setItem, ih, List.filter_append]
    by_cases hx : key = name x
    · simp [hx]
    · have hne : name x ≠ key := fun h => hx h.symm
      simp [hx, hne]

theorem optionDict_lookup (options : Chars) (key : String) : (optionDict lower options).lookup key =
    ((optionItems options).filter (optionName lower · = key)).getLast?.map (optionValue lower) :=
  lookup_foldl_setItem _ _ _ key

theorem optionDict_names (options : Chars) :
    ((optionDict lower options).map Prod.fst).toFinset = ((optionItems options).map (optionName lower)).toFinset := by
  ext key
  rw [List.mem_toFinset, List.mem_toFinset]
  have hlookup : (optionDict lower options).lookup key = _ := optionDict_lookup options key
  constructor
  · intro h
    obtain ⟨p, hp, rfl⟩ := List.mem_map.1 h
    obtain ⟨w, hw⟩ := lookup_isSome_of_mem (show (p.1, p.2) ∈ _ from hp)
    rw [hw] at hlookup
    obtain ⟨item, hitem, -⟩ := Option.map_eq_some_iff.1 hlookup.symm
    have hmem := List.mem_filter.1 (List.mem_of_getLast? hitem)
    exact List.mem_map.2 ⟨item, hmem.1, by simpa using hmem.2⟩
  · intro h
    obtain ⟨item, hitem, rfl⟩ := List.mem_map.1 h
    have hne : (optionItems options).filter (optionName lower · = optionName lower item) ≠ [] :=
      List.ne_nil_of_mem (List.mem_filter.2 ⟨hitem, by simp⟩)
    rw [List.getLast?_eq_some_getLast hne] at hlookup
    exact List.mem_map.2 ⟨_, mem_of_lookup hlookup, rfl⟩

theorem lstrip_quotes {m : Chars} (hm : '"' ∉ m) : lstrip (· = '"') m = m := by
  cases m with
  | nil => rfl
  | cons c m =>
    have hc : ¬ decide (c = '"') = true := by
      simp only [decide_eq_true_eq]
      rintro rfl
      exact hm List.mem_cons_self
    exact List.dropWhile_cons_of_neg hc

theorem rstrip_quotes {m : Chars} (hm : '"' ∉ m) : rstrip (· = '"') m = m := by
  apply rstrip_eq_self
  intro c hc
  simp only [decide_eq_false_iff_not]
  rintro rfl
  exact hm (List.mem_of_getLast? hc)

theorem unquote_append {m : Chars} (hm : '"' ∉ m) (hlast : m.getLast? ≠ some '\\') : unquote (m ++ ['"']) = m := by
  induction m with
  | nil => rfl
  | cons c m ih =>
    have hc : c ≠ '"' := by
      rintro rfl
      exact hm List.mem_cons_self
    have hne : ∀ ds, c = '\\' → m ++ ['"'] = '"' :: ds → False := by
      rintro ds rfl heq
      cases m with
      | nil => exact hlast rfl
      | cons d m =>
        rw [List.cons_append] at heq
        obtain ⟨rfl, -⟩ := List.cons.inj heq
        simp at hm
    rw [List.cons_append, unquote.eq_3 _ _ hne, if_neg hc]
    congr 1
    apply ih
    · exact fun h => hm (List.mem_cons_of_mem _ h)
    · intro h
      apply hlast
      rw [List.getLast?_cons, h]
      rfl

/-- the quotes around a value are taken off alike -/
theorem strip_value {item : Chars} (h : OneQuoted (partition '=' item).2) :
    lstrip (· = '"') (rstrip (· = '"') (partition '=' item).2) = valueOf item := by
  unfold valueOf
  rcases h with hv | ⟨m, hm, hlast, hv⟩
  · rw [rstrip_quotes hv, lstrip_quotes hv]
    split
    · next heq =>
      rw [heq] at hv
      exact absurd List.mem_cons_self hv
    · rfl
  · rw [hv]
    change _ = unquote (m ++ ['"'])
    rw [unquote_append hm hlast]
    have hr : rstrip (· = '"') ('"' :: (m ++ ['"'])) = rstrip (· = '"') ('"' :: m) := by
      unfold rstrip
      simp
    cases m with
    | nil => rfl
    | cons c m =>
      have hc : decide (c = '"') = false := by
        simp only [decide_eq_false_iff_not]
        rintro rfl
        exact hm List.mem_cons_self
      have hsplit : rstrip (· = '"') ('"' :: c :: m) = '"' :: rstrip (· = '"') (c :: m) :=
        (rstrip_append hc ['"'] m).trans (by rw [← List.nil_append (c :: m), rstrip_append hc]; rfl)
      have hl : lstrip (· = '"') ('"' :: c :: m) = lstrip (· = '"') (c :: m) :=
        List.dropWhile_cons_of_pos (by decide)
      rw [hr, hsplit, rstrip_quotes hm, hl, lstrip_quotes hm]

/-- a dictionary of plain options says what the options say -/
theorem optionDict_plain {options : Chars} (h : PlainOptions lower options) :
    ((optionDict lower options).map Prod.fst).toFinset = ((items options).map (optionName lower)).toFinset ∧
      (optionDict lower options).lookup "from" =
        ((items options).filter (optionName lower · = "from")).getLast?.map fun item =>
          Json.str (String.ofList (valueOf item)) := by
  refine ⟨by rw [optionDict_names, items_eq h.noEscape], ?_⟩
  rw [optionDict_lookup, items_eq h.noEscape]
  cases hlast : ((items options).filter (optionName lower · = "from")).getLast? with
  | none => rfl
  | some item =>
    have hmem := List.mem_filter.1 (List.mem_of_getLast? hlast)
    have hname : optionName lower item = "from" := by simpa using hmem.2
    have hvalue : optionValue lower item = Json.str (String.ofList (valueOf item)) := by
      unfold optionValue
      rw [hname, if_pos (by decide), strip_value (h.fromQuoted item hmem.1 hname)]
    rw [Option.map_some, Option.map_some, hvalue]

end Options

/-! ### Plain lines read alike -/

section Lines

variable {sha : Bytes → Bytes} {lower : Chars → Chars} {line s : Chars}

theorem keyBlob_nil (t : Chars) : keyBlob t [] = none := by
  unfold keyBlob
  rw [show b64Strict [] = some [] from rfl]
  rfl

/-- the same fields, from the key type on -/
theorem parseFields_eq {options : Chars} (hoptions : PlainOptions lower options) (hkey : SolidKey s) :
    (parseFields sha lower options (splitFields 2 (rstrip isSpace s))).map ParsedKey.seen = readKey sha lower options s := by
  unfold readKey
  by_cases htype : isSshType (word s) = true
  · rw [if_pos htype]
    rcases splitFields_key hkey htype with ⟨hnext, hfields⟩ | ⟨comment, hfields⟩
    · rw [hfields, hnext, show word [] = [] from rfl, keyBlob_nil]
      rfl
    · rw [hfields, parseFields, if_pos htype, Option.map_map]
      congr 1
      funext blob
      obtain ⟨hnames, hfrom⟩ := optionDict_plain hoptions
      simp only [Function.comp_apply, ParsedKey.seen, hnames, hfrom, KeyLine.mk.injEq, true_and]
      cases ((items options).filter (optionName lower · = "from")).getLast? with
      | none => rfl
      | some item => rfl
  · rw [if_neg htype]
    by_cases hne : s = []
    · rw [hne]
      rfl
    · have hsolid : isSshType (solid s) = false := by
        by_contra h
        rw [Bool.not_eq_false] at h
        exact htype (hkey.type h ▸ h)
      rw [splitFields_solid 1 hne hkey.start]
      have hnone : ∀ rest, parseFields sha lower options (solid s :: rest) = none := by
        intro rest
        cases rest with
        | nil => rfl
        | cons text rest => rw [parseFields, hsolid, if_neg Bool.false_ne_true]
      rw [hnone]
      rfl

theorem plainOptions_nil : PlainOptions lower [] := ⟨rfl, nofun⟩

/-- the agent's two parts of a line, where its options hold no escaped quote -/
theorem splitOptions_plain (hescape : isSubstring ['\\', '"'] (optionsField false s).1 = false)
    (hkey : SolidKey (skip (optionsField false s).2.1)) :
    (skip (optionsField false s).2.1 ≠ [] ∧ splitOptions (rstrip isSpace s) =
      ((optionsField false s).1, rstrip isSpace (skip (optionsField false s).2.1))) ∨
      (skip (optionsField false s).2.1 = [] ∧ (splitOptions (rstrip isSpace s)).2 = []) := by
  obtain ⟨happ, hhead, hpart, hrest⟩ := splitAtBlank_spec false s
  rw [splitAtBlank_eq false s hescape] at happ hhead hpart hrest
  generalize (optionsField false s).1 = options at *
  generalize (optionsField false s).2.1 = rest at *
  dsimp only at happ hhead hpart hrest
  by_cases hnext : skip rest = []
  · right
    refine ⟨hnext, ?_⟩
    have hspace : ∀ c ∈ rest, isSpace c = true := fun c hc =>
      isSpace_of_isBlank (List.dropWhile_eq_nil_iff.1 hnext c hc)
    -- only options are left of the line
    have hprefix : rstrip isSpace s <+: options := by
      rw [← happ, rstrip_append_space hspace]
      exact rstrip_prefix options
    unfold splitOptions
    rw [hpart _ hprefix]
    rfl
  · left
    refine ⟨hnext, ?_⟩
    obtain ⟨gap, hgap, hblank⟩ := exists_gap rest
    obtain ⟨c, cs, hcs⟩ := List.exists_cons_of_ne_nil hnext
    have hc : isSpace c = false := hkey.start c (by rw [hcs]; rfl)
    have hstrip : rstrip isSpace s = options ++ (gap ++ c :: rstrip isSpace cs) := by
      rw [← happ, hgap, hcs, ← List.append_assoc, rstrip_append hc, List.append_assoc]
    have hne : rest ≠ [] := by
      rintro rfl
      exact hnext rfl
    have hstart : ∀ d, (gap ++ c :: rstrip isSpace cs).head? = some d → isBlank d = true := by
      intro d hd
      apply hhead
      rw [hgap, hcs]
      cases gap with
      | nil => exact hd
      | cons g gap => exact hd
    unfold splitOptions
    rw [hstrip, hrest hne _ hstart]
    have hl : lstrip isSpace (gap ++ c :: rstrip isSpace cs) = c :: rstrip isSpace cs := by
      unfold lstrip
      rw [List.dropWhile_append_of_pos fun d hd => isSpace_of_isBlank (hblank d hd)]
      exact List.dropWhile_cons_of_neg (by simp [hc])
    unfold strip
    rw [hl, hcs]
    have hcons : ∀ cs, rstrip isSpace (c :: cs) = c :: rstrip isSpace cs := fun cs => rstrip_append hc [] cs
    rw [hcons, hcons, rstrip_rstrip]

/-- **Plain lines.** On a plain line the agent reads the key that sshd reads, or none as sshd. -/
theorem parse_plain (h : Plain lower line) :
    (parseSshKeyLine sha lower (chomp line)).map ParsedKey.seen = accepts sha lower line := by
  unfold parseSshKeyLine accepts
  dsimp only
  have hfields := h.fields
  dsimp only at hfields
  generalize hs : skip (chomp line) = s at *
  have hstrip : (∀ c, s.head? = some c → isSpace c = false) → strip (chomp line) = rstrip isSpace s := by
    intro hstart
    rw [← hs] at hstart ⊢
    unfold strip
    rw [lstrip_eq_skip hstart]
  by_cases hskip : s = [] ∨ s.head? = some '#'
  · have hstart : ∀ c, s.head? = some c → isSpace c = false := by
      intro c hc
      rcases hskip with rfl | hhash
      · cases hc
      · obtain rfl := Option.some.inj (hhash.symm.trans hc)
        decide
    have hnone : rstrip isSpace s = [] ∨ (rstrip isSpace s).head? = some '#' := by
      rcases hskip with rfl | hhash
      · exact Or.inl rfl
      · obtain ⟨cs, rfl⟩ := List.head?_eq_some_iff.1 hhash
        rw [show '#' :: cs = [] ++ '#' :: cs from rfl, rstrip_append (by decide)]
        exact Or.inr rfl
    rw [hstrip hstart, if_pos hnone, if_pos hskip]
    rfl
  · have hne : s ≠ [] := fun hnil => hskip (Or.inl hnil)
    obtain ⟨hkey, hopts⟩ := (hfields.resolve_left hne).resolve_left fun hhash => hskip (Or.inr hhash)
    have hhead : ¬ (rstrip isSpace s = [] ∨ (rstrip isSpace s).head? = some '#') := by
      obtain ⟨c, cs, rfl⟩ := List.exists_cons_of_ne_nil hne
      rw [show c :: cs = [] ++ c :: cs from rfl, rstrip_append (hkey.start c rfl)]
      simpa using hskip
    rw [hstrip hkey.start, if_neg hhead, if_neg hskip, splitFields_solid 0 hne hkey.start, List.headD_cons]
    by_cases htype : isSshType (word s) = true
    · rw [solid_eq_word (sshType_solid htype), if_pos htype, if_pos htype, parseFields_eq plainOptions_nil hkey]
    · have hsolid : ¬ isSshType (solid s) = true := fun hsolid => htype (hkey.type hsolid ▸ hsolid)
      rw [if_neg hsolid, if_neg htype]
      obtain ⟨hplain, hrest⟩ := hopts (by simpa using htype)
      rcases splitOptions_plain hplain.noEscape hrest with ⟨hnext, hsplit⟩ | ⟨hnext, hsplit⟩
      · have hclosed : (optionsField false s).2.2 = true := by
          by_contra hopen
          rw [optionsField_open (by simpa using hopen)] at hnext
          exact hnext rfl
        rw [hsplit, parseFields_eq hplain hrest, if_pos hclosed]
      · rw [hsplit, hnext]
        split
        · rfl
        · rfl

/-! ### Plain files -/

theorem zipIdx_filterMap_cons {α β : Type} (f : α × ℕ → Option β) (x : α) (xs : List α) (k : ℕ) :
    ((x :: xs).zipIdx k).filterMap f = (f (x, k)).toList ++ (xs.zipIdx (k + 1)).filterMap f := by
  rw [List.zipIdx_cons, List.filterMap_cons]
  cases f (x, k) with
  | none => rfl
  | some y => rfl

theorem newlines_append {a : Chars} (h : ∀ c ∈ a, c ≠ '\r') (b : Chars) : newlines (a ++ b) = a ++ newlines b := by
  induction a with
  | nil => rfl
  | cons c a ih =>
    have hc := h c List.mem_cons_self
    rw [List.cons_append, newlines.eq_3 _ _ fun _ heq _ => hc heq, if_neg hc, ih fun d hd => h d (List.mem_cons_of_mem _ hd)]
    rfl

theorem splitlines_append {a : Chars} (h : ∀ c ∈ a, isLineBreak c = false) (b : Chars) :
    splitlines (a ++ '\n' :: b) = a :: splitlines b := by
  induction a with
  | nil => rfl
  | cons c a ih =>
    have hc := h c List.mem_cons_self
    have hne : ∀ cs, c = '\r' → a ++ '\n' :: b = '\n' :: cs → False := by
      rintro cs rfl
      cases hc
    rw [List.cons_append, splitlines.eq_3 _ _ hne, hc, if_neg Bool.false_ne_true, ih fun d hd => h d (List.mem_cons_of_mem _ hd)]

theorem splitlines_self {a : Chars} (h : ∀ c ∈ a, isLineBreak c = false) (hne : a ≠ []) : splitlines a = [a] := by
  induction a with
  | nil => exact absurd rfl hne
  | cons c a ih =>
    have hc := h c List.mem_cons_self
    have hbreak : ∀ cs, c = '\r' → a = '\n' :: cs → False := by
      rintro cs rfl
      cases hc
    rw [splitlines.eq_3 _ _ hbreak, hc, if_neg Bool.false_ne_true]
    by_cases ha : a = []
    · rw [ha]
      rfl
    · rw [ih (fun d hd => h d (List.mem_cons_of_mem _ hd)) ha]

/-- the agent's line of a line without inner breaks; nothing after the last newline is no line -/
theorem splitlines_line (h : ∀ c ∈ chomp line, isLineBreak c = false) :
    (∀ rest, splitlines (newlines (line ++ '\n' :: rest)) = chomp line :: splitlines (newlines rest)) ∧
      splitlines (newlines line) = if line = [] then [] else [chomp line] := by
  have hreturn : ∀ a : Chars, (∀ c ∈ a, isLineBreak c = false) → ∀ c ∈ a, c ≠ '\r' := by
    rintro a ha c hc rfl
    cases ha _ hc
  by_cases hlast : line.getLast? = some '\r'
  · have hline : line = chomp line ++ ['\r'] := by
      unfold chomp
      rw [if_pos hlast, List.dropLast_append_getLast? _ hlast]
    generalize chomp line = a at *
    subst hline
    have hr := hreturn a h
    constructor
    · intro rest
      rw [List.append_assoc, newlines_append hr]
      exact splitlines_append h _
    · rw [newlines_append hr, if_neg (by simp)]
      exact splitlines_append h []
  · have hline : chomp line = line := if_neg hlast
    rw [hline] at h ⊢
    have hr := hreturn line h
    constructor
    · intro rest
      rw [newlines_append hr]
      exact splitlines_append h _
    · have hself := newlines_append hr []
      rw [List.append_nil, show newlines [] = [] from rfl, List.append_nil] at hself
      rw [hself]
      split
      · next hnil => rw [hnil]; rfl
      · next hne => exact splitlines_self h hne

/-- line for line, from any number on -/
theorem reports_plain (text : Chars) (k : ℕ) (h : ∀ line ∈ split '\n' text, Plain lower line) :
    ((splitlines (newlines text)).zipIdx k).filterMap
        (fun p => (parseSshKeyLine sha lower p.1).map fun key => (p.2, key.seen)) =
      ((split '\n' text).zipIdx k).filterMap fun p => (accepts sha lower p.1).map fun key => (p.2, key) := by
  induction hn : text.length using Nat.strong_induction_on generalizing text k with
  | _ n ih =>
    have hread : ∀ line, Plain lower line → ∀ k : ℕ, ((parseSshKeyLine sha lower (chomp line)).map fun key => (k, key.seen)) =
        (accepts sha lower line).map fun key => (k, key) := by
      intro line hline k
      rw [← parse_plain hline, Option.map_map]
      rfl
    by_cases hbreak : '\n' ∈ text
    · obtain ⟨line, rest, htext, hfirst⟩ := List.eq_append_cons_of_mem hbreak
      subst htext
      have hsplit : split '\n' (line ++ '\n' :: rest) = line :: split '\n' rest := by
        rw [split_append, split_of_not_mem hfirst]
        rfl
      rw [hsplit] at h ⊢
      have hline := h line List.mem_cons_self
      have hlen : rest.length < n := by
        rw [← hn, List.length_append, List.length_cons]
        omega
      rw [(splitlines_line hline.oneLine).1 rest, zipIdx_filterMap_cons, zipIdx_filterMap_cons, hread line hline,
        ih _ hlen rest (k + 1) (fun l hl => h l (List.mem_cons_of_mem _ hl)) rfl]
    · have hsplit := split_of_not_mem hbreak
      rw [hsplit] at h ⊢
      have hline := h text List.mem_cons_self
      rw [(splitlines_line hline.oneLine).2]
      split
      · next hnil =>
        rw [hnil]
        rfl
      · rw [zipIdx_filterMap_cons, zipIdx_filterMap_cons, hread text hline]
        rfl

theorem hidesNoKey_small {data : Bytes} (hsize : data.length ≤ MAX_BYTES)
    (h : ∀ line ∈ split '\n' (decode data), Plain lower line) : HidesNoKey sha lower data := by
  intro path kind user userExists mtime
  unfold sshFile acceptedKeys
  dsimp only
  rw [if_neg (by decide), if_neg (by omega), List.map_filterMap, ← reports_plain _ _ h]
  congr 1
  funext p
  rw [Option.map_map]
  rfl

/-- of a file that is too large nothing is reported -/
theorem sshFile_large {data : Bytes} (hsize : MAX_BYTES < data.length) (path kind : String) (user : Option String)
    (userExists : Bool) (mtime : ℤ) : sshFile sha lower ⟨path, false, true, some data, mtime⟩ kind user userExists = [] := by
  unfold sshFile
  dsimp only
  rw [if_neg (by decide), if_pos hsize]

end Lines

/-! ## Two files -/

/-- a key that may be used from one network -/
def restrictedLine : Chars :=
  "from=\"10.0.0.0/8\",no-pty ssh-ed25519 AAAAC3NzaC1lZDI1NTE5AAAAIAABAgMEBQYHCAkKCwwNDg8QERITFBUWFxgZGhscHR4f backup".toList

/-- the same key with a forced command that quotes an argument -/
def escapedLine : Chars :=
  "command=\"echo \\\"hi there\\\"\" ssh-ed25519 AAAAC3NzaC1lZDI1NTE5AAAAIAABAgMEBQYHCAkKCwwNDg8QERITFBUWFxgZGhscHR4f root".toList

end Certadillo.Discovery.Agent
