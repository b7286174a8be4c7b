import FontisRemote.Lib.Checked
import FontisRemote.Lib.LittleEndian
import FontisRemote.Lib.Utf8

/-!
# The blob of the portable packer

`generate.py` writes the files of a folder one behind the other between two identifiers, and the name of the
executable behind the second. `bin_reader.rs` reads them back out of the image of the running process.

No length says how many files there are: the reader takes the eight bytes that stand before an entry for the second
identifier if they are `rustdesk`. The reader is exactly the inverse of the writer but for the one kind of entry that
looks like it (`parse_eq_some`). The writer is given a dict and names no path twice; the reader would not mind
(`parse_eq_some_bytes`).
-/

namespace FontisRemote.Portable

open FontisRemote.Lib

abbrev Bytes := List UInt8
abbrev Text := List Char

def LENGTH : Nat := 4

/-- `b"rustdesk"` -/
def IDENTIFIER : Bytes := [0x72, 0x75, 0x73, 0x74, 0x64, 0x65, 0x73, 0x6b]

def IDENTIFIER_LENGTH : Nat := 8
def MD5_LENGTH : Nat := 32

structure BinaryData where
  md5Code : Bytes
  raw : Bytes
  path : Text
deriving DecidableEq, Repr

/-! ## The writer -/

/-- `md5_table`, a dict from the paths to what is written of the files, in the order in which they were put in. -/
structure Md5Table where
  entries : List (Text × Bytes × Bytes)
  distinct : (entries.map Prod.fst).Nodup

namespace Md5Table

def empty : Md5Table := ⟨[], List.nodup_nil⟩

theorem paths_replace (entries : List (Text × Bytes × Bytes)) (path : Text) (value : Bytes × Bytes) :
    (entries.map fun entry => if entry.1 = path then (path, value) else entry).map Prod.fst =
      entries.map Prod.fst := by
  rw [List.map_map]
  refine List.map_congr_left fun entry _ => ?_
  by_cases h : entry.1 = path
  · rw [Function.comp_apply, if_pos h, h]
  · rw [Function.comp_apply, if_neg h]

/-- `res[path] = value` -/
def set (table : Md5Table) (path : Text) (value : Bytes × Bytes) : Md5Table :=
  if h : ∃ entry ∈ table.entries, entry.1 = path then
    ⟨table.entries.map fun entry => if entry.1 = path then (path, value) else entry,
      by rw [paths_replace]; exact table.distinct⟩
  else
    ⟨table.entries ++ [(path, value)], by
      rw [List.map_append, List.nodup_append]
      refine ⟨table.distinct, List.pairwise_singleton .., fun p hp q hq heq => h ?_⟩
      rw [List.map_cons, List.map_nil, List.mem_singleton] at hq
      obtain ⟨entry, hentry, hpath⟩ := List.mem_map.1 hp
      exact ⟨entry, hentry, (hpath.trans heq).trans hq⟩⟩

theorem entries_set {table : Md5Table} {path : Text} (value : Bytes × Bytes) (h : path ∉ table.entries.map Prod.fst) :
    (table.set path value).entries = table.entries ++ [(path, value)] := by
  rw [set, dif_neg]
  rintro ⟨entry, hentry, hpath⟩
  exact h (hpath ▸ List.mem_map_of_mem hentry)

end Md5Table

/-- `n.to_bytes(length=length_count, byteorder='big')` -/
def toBytes (n : Nat) : Except String Bytes :=
  if n < 256 ^ LENGTH then .ok (leBytes LENGTH n).reverse else .error "int too big to convert"

/-- One turn of the loop over `md5_table`. -/
def writeEntry (path : Text) (compressedData md5Code : Bytes) : Except String Bytes := do
  let path := encodeUtf8 path
  let pathLength ← toBytes path.length
  let dataLength ← toBytes compressedData.length
  return pathLength ++ path ++ (dataLength ++ compressedData ++ md5Code)

def writeEntries : List (Text × Bytes × Bytes) → Except String Bytes
  | [] => .ok []
  | (path, compressedData, md5Code) :: table => do
    let entry ← writeEntry path compressedData md5Code
    let entries ← writeEntries table
    return entry ++ entries

def writeBlob (md5Table : Md5Table) (exe : Text) : Except String Bytes := do
  let entries ← writeEntries md5Table.entries
  return IDENTIFIER ++ entries ++ (IDENTIFIER ++ encodeUtf8 exe)

/-! ## The reader

`base` never goes round a word of 32 bits where the reader would go on: a stop that did would lie before its start.
-/

def readU32 (blob : Bytes) (start : Nat) : Option Nat := do
  let bytes ← slice blob start (start + LENGTH)
  return ofLeBytes bytes.reverse

/-- One turn of the loop of `parse`, from the length of the path on. -/
def readEntry (blob : Bytes) (base : Nat) : Option (BinaryData × Nat) := do
  let pathLength ← readU32 blob base
  let base := base + LENGTH
  let path ← decodeUtf8 (← slice blob base (base + pathLength))
  let base := base + pathLength
  let fileLength ← readU32 blob base
  let base := base + LENGTH
  let raw ← slice blob base (base + fileLength)
  let base := base + fileLength
  let md5Code ← slice blob base (base + MD5_LENGTH)
  let base := base + MD5_LENGTH
  return (⟨md5Code, raw, path⟩, base)

theorem readEntry_lt {blob : Bytes} {base base' : Nat} {file : BinaryData}
    (h : readEntry blob base = some (file, base')) : base < base' := by
  unfold readEntry at h
  simp only [Option.bind_eq_bind, Option.bind_eq_some_iff] at h
  obtain ⟨n, -, _, -, path, -, m, -, raw, -, md5Code, -, hfile⟩ := h
  have hbase : base + LENGTH + n + LENGTH + m + MD5_LENGTH = base' := congrArg Prod.snd (Option.some.inj hfile)
  have hpos : 0 < LENGTH := by decide
  omega

theorem slice_length_le {blob x : Bytes} {start stop : Nat} (h : slice blob start stop = some x) :
    stop ≤ blob.length := by
  unfold slice at h
  split at h
  · next hle => exact hle.2
  · cases h

def parseLoop (blob : Bytes) (base : Nat) (parsed : List BinaryData) : Option (List BinaryData × Nat) :=
  match _hhead : slice blob base (base + IDENTIFIER_LENGTH) with
  | none => none
  | some head =>
    if head = IDENTIFIER then some (parsed, base + IDENTIFIER_LENGTH)
    else
      match _hentry : readEntry blob base with
      | none => none
      | some (file, base') => parseLoop blob base' (parsed ++ [file])
termination_by blob.length - base
decreasing_by
  have hlt := readEntry_lt _hentry
  have hlen := slice_length_le _hhead
  have hpos : 0 < IDENTIFIER_LENGTH := by decide
  omega

def parse (blob : Bytes) : Option (List BinaryData × Text) := do
  guard ((← slice blob 0 IDENTIFIER_LENGTH) = IDENTIFIER)
  let (parsed, base) ← parseLoop blob IDENTIFIER_LENGTH []
  let executable ← decodeUtf8 (← slice blob base blob.length)
  return (parsed, executable)

/-! ## What is left at a place -/

/-- Behind its first `base` bytes the blob is `rest`. -/
def Left (blob : Bytes) (base : Nat) (rest : Bytes) : Prop := ∃ before : Bytes, blob = before ++ rest ∧ before.length = base

section Left

variable {blob rest : Bytes} {base : Nat}

theorem Left.start (blob : Bytes) : Left blob 0 blob := ⟨[], rfl, rfl⟩

theorem Left.advance {x more : Bytes} (h : Left blob base (x ++ more)) : Left blob (base + x.length) more := by
  obtain ⟨before, rfl, rfl⟩ := h
  exact ⟨before ++ x, by rw [List.append_assoc], by rw [List.length_append]⟩

theorem Left.length (h : Left blob base rest) : blob.length = base + rest.length := by
  obtain ⟨before, rfl, rfl⟩ := h
  exact List.length_append

theorem Left.slice_eq_some (h : Left blob base rest) {x : Bytes} {n : Nat} :
    slice blob base (base + n) = some x ↔ ∃ more, rest = x ++ more ∧ x.length = n := by
  obtain ⟨before, rfl, rfl⟩ := h
  unfold slice
  rw [List.length_append, List.take_length_add_append, List.drop_left]
  constructor
  · intro h
    by_cases hn : n ≤ rest.length
    · rw [if_pos (by omega), Option.some.injEq] at h
      refine ⟨rest.drop n, ?_, ?_⟩
      · rw [← h, List.take_append_drop]
      · rw [← h, List.length_take, Nat.min_eq_left hn]
    · rw [if_neg (by omega)] at h
      cases h
  · rintro ⟨more, rfl, rfl⟩
    rw [if_pos (by rw [List.length_append]; omega), List.take_left]

theorem Left.exists_slice (h : Left blob base rest) {n : Nat} (hn : n ≤ rest.length) :
    ∃ x, slice blob base (base + n) = some x :=
  ⟨rest.take n, h.slice_eq_some.2 ⟨rest.drop n, (List.take_append_drop n rest).symm, List.length_take_of_le hn⟩⟩

end Left

/-! ## One entry -/

theorem bind_eq_ok {ε α β : Type} {x : Except ε α} {f : α → Except ε β} {b : β} :
    (x >>= f) = .ok b ↔ ∃ a, x = .ok a ∧ f a = .ok b := by
  cases x with
  | error e => simp [bind, Except.bind]
  | ok a => simp [bind, Except.bind]

def bigEndian (n : Nat) : Bytes := (leBytes LENGTH n).reverse

@[simp] theorem length_bigEndian (n : Nat) : (bigEndian n).length = LENGTH := by
  rw [bigEndian, List.length_reverse, length_leBytes]

theorem bigEndian_inj {n m : Nat} (hn : n < 256 ^ LENGTH) (hm : m < 256 ^ LENGTH) (h : bigEndian n = bigEndian m) :
    n = m := by
  have hle := List.reverse_injective h
  rw [← ofLeBytes_leBytes_of_lt hn, hle, ofLeBytes_leBytes_of_lt hm]

theorem toBytes_eq_ok {n : Nat} {b : Bytes} : toBytes n = .ok b ↔ n < 256 ^ LENGTH ∧ b = bigEndian n := by
  unfold toBytes bigEndian
  split
  · next h => simp [h, eq_comm]
  · next h => simp [h]

theorem Left.readU32_eq_some {blob rest : Bytes} {base n : Nat} (h : Left blob base rest) :
    readU32 blob base = some n ↔ n < 256 ^ LENGTH ∧ ∃ more, rest = bigEndian n ++ more := by
  unfold readU32
  rw [Option.bind_eq_bind, Option.bind_eq_some_iff]
  constructor
  · rintro ⟨bytes, hbytes, hn⟩
    obtain ⟨more, rfl, hlen⟩ := h.slice_eq_some.1 hbytes
    obtain rfl : ofLeBytes bytes.reverse = n := Option.some.inj hn
    have hrev : bytes.reverse.length = LENGTH := by rw [List.length_reverse, hlen]
    refine ⟨hrev ▸ ofLeBytes_lt bytes.reverse, more, ?_⟩
    rw [bigEndian, ← hrev, leBytes_ofLeBytes, List.reverse_reverse]
  · rintro ⟨hn, more, rfl⟩
    refine ⟨bigEndian n, h.slice_eq_some.2 ⟨more, rfl, length_bigEndian n⟩, ?_⟩
    rw [bigEndian, List.reverse_reverse, ofLeBytes_leBytes_of_lt hn]
    rfl

namespace BinaryData

/-- An entry as it is written. -/
def bytes (file : BinaryData) : Bytes :=
  bigEndian (encodeUtf8 file.path).length ++ encodeUtf8 file.path ++ (bigEndian file.raw.length ++ file.raw ++ file.md5Code)

theorem identifier_le_bytes (file : BinaryData) : IDENTIFIER_LENGTH ≤ file.bytes.length := by
  simp only [bytes, List.length_append, length_bigEndian, IDENTIFIER_LENGTH, LENGTH]
  omega

/-- The lengths have room for what they say. -/
structure Fits (file : BinaryData) : Prop where
  path : (encodeUtf8 file.path).length < 256 ^ LENGTH
  raw : file.raw.length < 256 ^ LENGTH

variable {file : BinaryData}

theorem writeEntry_eq_ok {b : Bytes} :
    writeEntry file.path file.raw file.md5Code = .ok b ↔ file.Fits ∧ b = file.bytes := by
  unfold writeEntry
  simp only [bind_eq_ok, toBytes_eq_ok]
  constructor
  · rintro ⟨pathLength, ⟨hpath, rfl⟩, dataLength, ⟨hraw, rfl⟩, h⟩
    exact ⟨⟨hpath, hraw⟩, (Except.ok.inj h).symm⟩
  · rintro ⟨hfits, rfl⟩
    exact ⟨_, ⟨hfits.path, rfl⟩, _, ⟨hfits.raw, rfl⟩, rfl⟩

theorem readEntry_eq_some {blob rest : Bytes} {base base' : Nat} (h : Left blob base rest) :
    readEntry blob base = some (file, base') ↔ file.Fits ∧ file.md5Code.length = MD5_LENGTH ∧
      base' = base + file.bytes.length ∧ ∃ more, rest = file.bytes ++ more := by
  unfold readEntry
  simp only [Option.bind_eq_bind, Option.bind_eq_some_iff, decodeUtf8_eq_some]
  constructor
  · rintro ⟨n, hn, _, hpath, path, rfl, m, hm, raw, hraw, md5Code, hmd5, hfile⟩
    obtain ⟨rfl, rfl⟩ : file = ⟨md5Code, raw, path⟩ ∧ base' = base + LENGTH + n + LENGTH + m + MD5_LENGTH := by
      simpa [eq_comm] using hfile
    obtain ⟨hnlt, rest₁, rfl⟩ := h.readU32_eq_some.1 hn
    have h₁ := h.advance
    rw [length_bigEndian] at h₁
    obtain ⟨rest₂, rfl, rfl⟩ := h₁.slice_eq_some.1 hpath
    have h₂ := h₁.advance
    obtain ⟨hmlt, rest₃, rfl⟩ := h₂.readU32_eq_some.1 hm
    have h₃ := h₂.advance
    rw [length_bigEndian] at h₃
    obtain ⟨rest₄, rfl, rfl⟩ := h₃.slice_eq_some.1 hraw
    obtain ⟨more, rfl, hlen⟩ := h₃.advance.slice_eq_some.1 hmd5
    refine ⟨⟨hnlt, hmlt⟩, hlen, ?_, more, ?_⟩
    · simp only [bytes, List.length_append, length_bigEndian, hlen]
      omega
    · simp only [bytes, List.append_assoc]
  · rintro ⟨hfits, hmd5, rfl, more, rfl⟩
    have hrest : file.bytes ++ more = bigEndian (encodeUtf8 file.path).length ++ (encodeUtf8 file.path ++
        (bigEndian file.raw.length ++ (file.raw ++ (file.md5Code ++ more)))) := by
      simp only [bytes, List.append_assoc]
    rw [hrest] at h
    have h₁ := h.advance
    have h₂ := h₁.advance
    have h₃ := h₂.advance
    have h₄ := h₃.advance
    rw [length_bigEndian] at h₁ h₂ h₃ h₄
    rw [length_bigEndian] at h₃ h₄
    refine ⟨_, h.readU32_eq_some.2 ⟨hfits.path, _, rfl⟩, _, h₁.slice_eq_some.2 ⟨_, rfl, rfl⟩, _, rfl,
      _, h₂.readU32_eq_some.2 ⟨hfits.raw, _, rfl⟩, _, h₃.slice_eq_some.2 ⟨_, rfl, rfl⟩,
      _, h₄.slice_eq_some.2 ⟨_, rfl, hmd5⟩, ?_⟩
    have hbase : base + LENGTH + (encodeUtf8 file.path).length + LENGTH + file.raw.length + MD5_LENGTH =
        base + file.bytes.length := by
      simp only [bytes, List.length_append, length_bigEndian, hmd5]
      omega
    rw [← hbase]
    rfl

/-- The length of the path and its first letters spell the identifier. -/
def Mistaken (file : BinaryData) : Prop :=
  (encodeUtf8 file.path).length = 0x72757374 ∧ [0x64, 0x65, 0x73, 0x6b] <+: encodeUtf8 file.path

theorem identifier_prefix_iff (hfits : file.Fits) (more : Bytes) :
    IDENTIFIER <+: file.bytes ++ more ↔ file.Mistaken := by
  have hsplit : IDENTIFIER = bigEndian 0x72757374 ++ [0x64, 0x65, 0x73, 0x6b] := by decide
  have hbytes : file.bytes ++ more = bigEndian (encodeUtf8 file.path).length ++ (encodeUtf8 file.path ++
      (bigEndian file.raw.length ++ (file.raw ++ (file.md5Code ++ more)))) := by
    simp only [bytes, List.append_assoc]
  rw [hbytes, hsplit]
  constructor
  · rintro ⟨t, ht⟩
    rw [List.append_assoc] at ht
    obtain ⟨hlen, htail⟩ := List.append_inj ht (by rw [length_bigEndian, length_bigEndian])
    have hlen := bigEndian_inj (by decide) hfits.path hlen
    refine ⟨hlen.symm, List.prefix_of_prefix_length_le ⟨t, htail⟩ (List.prefix_append _ _) ?_⟩
    rw [← hlen]
    decide
  · rintro ⟨hlen, hdesk⟩
    rw [hlen, List.prefix_append_right_inj]
    exact List.prefix_append_of_prefix hdesk

end BinaryData

/-! ## All entries -/

/-- What the writer is given for the files. -/
def tableOf (files : List BinaryData) : List (Text × Bytes × Bytes) :=
  files.map fun file => (file.path, file.raw, file.md5Code)

theorem writeEntries_eq_ok {files : List BinaryData} {b : Bytes} :
    writeEntries (tableOf files) = .ok b ↔ (∀ file ∈ files, file.Fits) ∧ b = files.flatMap BinaryData.bytes := by
  induction files generalizing b with
  | nil => simp [tableOf, writeEntries, eq_comm]
  | cons file files ih =>
    rw [tableOf, List.map_cons, ← tableOf, writeEntries]
    simp only [bind_eq_ok, BinaryData.writeEntry_eq_ok, ih, List.forall_mem_cons, List.flatMap_cons]
    constructor
    · rintro ⟨_, ⟨hfits, rfl⟩, _, ⟨hall, rfl⟩, h⟩
      exact ⟨⟨hfits, hall⟩, (Except.ok.inj h).symm⟩
    · rintro ⟨⟨hfits, hall⟩, rfl⟩
      exact ⟨_, ⟨hfits, rfl⟩, _, ⟨hall, rfl⟩, rfl⟩

/-- The reader takes the entry for what it is. -/
structure BinaryData.Read (file : BinaryData) : Prop extends file.Fits where
  md5Code : file.md5Code.length = MD5_LENGTH
  clear : ¬file.Mistaken

theorem parseLoop_sound {blob rest : Bytes} {base base' : Nat} {parsed files : List BinaryData}
    (hleft : Left blob base rest) (h : parseLoop blob base parsed = some (files, base')) :
    ∃ read tail, files = parsed ++ read ∧ rest = read.flatMap BinaryData.bytes ++ (IDENTIFIER ++ tail) ∧
      (∀ file ∈ read, file.Read) ∧ Left blob base' tail := by
  induction hn : rest.length using Nat.strong_induction_on generalizing base rest parsed with
  | _ n ih =>
    unfold parseLoop at h
    split at h
    · cases h
    · next head hhead =>
      obtain ⟨more, rfl, hlen⟩ := hleft.slice_eq_some.1 hhead
      split at h
      · next heq =>
        obtain ⟨rfl, rfl⟩ : parsed = files ∧ base + IDENTIFIER_LENGTH = base' := by simpa using h
        exact ⟨[], more, by simp, by rw [heq]; rfl, by simp, hlen ▸ hleft.advance⟩
      · next hne =>
        split at h
        · cases h
        · next file base₁ hentry =>
          obtain ⟨hfits, hmd5, rfl, rest₁, hrest⟩ := (BinaryData.readEntry_eq_some hleft).1 hentry
          rw [hrest] at hleft hn
          have hmistaken : ¬file.Mistaken := by
            intro hm
            obtain ⟨t, ht⟩ := (BinaryData.identifier_prefix_iff hfits rest₁).2 hm
            rw [← hrest] at ht
            exact hne (List.append_inj_left ht.symm hlen)
          have hlt : rest₁.length < n := by
            have := readEntry_lt hentry
            rw [List.length_append] at hn
            omega
          obtain ⟨read, tail, rfl, hrest₁, hread, hleft'⟩ := ih _ hlt hleft.advance h rfl
          refine ⟨file :: read, tail, by simp, ?_, ?_, hleft'⟩
          · rw [hrest, hrest₁, List.flatMap_cons, List.append_assoc]
          · exact List.forall_mem_cons.2 ⟨⟨hfits, hmd5, hmistaken⟩, hread⟩

theorem parseLoop_complete {blob tail : Bytes} {base : Nat} {read : List BinaryData} (hread : ∀ file ∈ read, file.Read)
    (hleft : Left blob base (read.flatMap BinaryData.bytes ++ (IDENTIFIER ++ tail))) (parsed : List BinaryData) :
    ∃ base', parseLoop blob base parsed = some (parsed ++ read, base') ∧ Left blob base' tail := by
  induction read generalizing base parsed with
  | nil =>
    rw [List.flatMap_nil, List.nil_append] at hleft
    have hhead : slice blob base (base + IDENTIFIER_LENGTH) = some IDENTIFIER := hleft.slice_eq_some.2 ⟨tail, rfl, rfl⟩
    refine ⟨base + IDENTIFIER_LENGTH, ?_, hleft.advance⟩
    unfold parseLoop
    split
    · next hnone => rw [hnone] at hhead; cases hhead
    · next head hsome =>
      obtain rfl := Option.some.inj (hsome.symm.trans hhead)
      rw [if_pos rfl, List.append_nil]
  | cons file read ih =>
    obtain ⟨hfile, hread⟩ := List.forall_mem_cons.1 hread
    rw [List.flatMap_cons, List.append_assoc] at hleft
    have hentry := (BinaryData.readEntry_eq_some hleft).2 ⟨hfile.toFits, hfile.md5Code, rfl, _, rfl⟩
    obtain ⟨base', hloop, hleft'⟩ := ih hread hleft.advance (parsed ++ [file])
    refine ⟨base', ?_, hleft'⟩
    unfold parseLoop
    split
    · next hnone =>
      obtain ⟨head, hsome⟩ := hleft.exists_slice (n := IDENTIFIER_LENGTH)
        (le_trans file.identifier_le_bytes (List.prefix_append _ _).length_le)
      rw [hnone] at hsome
      cases hsome
    · next head hsome =>
      obtain ⟨more, hmore, hlen⟩ := hleft.slice_eq_some.1 hsome
      have hne : head ≠ IDENTIFIER := by
        rintro rfl
        exact hfile.clear ((BinaryData.identifier_prefix_iff hfile.toFits _).1 ⟨more, hmore.symm⟩)
      rw [if_neg hne]
      split
      · next hnone => rw [hnone] at hentry; cases hentry
      · next file' base₁ hsome =>
        obtain ⟨rfl, rfl⟩ := Prod.mk.inj (Option.some.inj (hsome.symm.trans hentry))
        rw [hloop, List.append_assoc, List.singleton_append]

/-- The reader makes something of a blob if and only if it is made of entries that can be read. -/
theorem parse_eq_some_bytes {blob : Bytes} {files : List BinaryData} {exe : Text} :
    parse blob = some (files, exe) ↔ (∀ file ∈ files, file.Read) ∧
      blob = IDENTIFIER ++ files.flatMap BinaryData.bytes ++ (IDENTIFIER ++ encodeUtf8 exe) := by
  unfold parse
  simp only [Option.bind_eq_bind, Option.bind_eq_some_iff, decodeUtf8_eq_some]
  have hstart := (Left.start blob).slice_eq_some (x := IDENTIFIER) (n := IDENTIFIER_LENGTH)
  rw [Nat.zero_add] at hstart
  constructor
  · rintro ⟨head, hhead, _, hguard, ⟨parsed, base⟩, hloop, last, hlast, executable, rfl, hpair⟩
    obtain rfl : head = IDENTIFIER := by simpa [guard] using hguard
    obtain ⟨rfl, rfl⟩ := Prod.mk.inj (Option.some.inj hpair)
    obtain ⟨rest, rfl, -⟩ := hstart.1 hhead
    obtain ⟨read, tail, rfl, rfl, hread, hleft⟩ := parseLoop_sound (Left.start _).advance hloop
    obtain ⟨more, rfl, hlen⟩ := hleft.slice_eq_some.1 (hleft.length ▸ hlast)
    obtain rfl : more = [] := by simpa using hlen
    refine ⟨hread, ?_⟩
    rw [List.append_nil, List.append_assoc]
  · rintro ⟨hread, rfl⟩
    rw [List.append_assoc] at hstart ⊢
    have hloop := parseLoop_complete hread
      (Left.start (IDENTIFIER ++ (files.flatMap BinaryData.bytes ++ (IDENTIFIER ++ encodeUtf8 exe)))).advance []
    obtain ⟨base, hloop, hleft⟩ := hloop
    rw [List.nil_append, Nat.zero_add] at hloop
    exact ⟨IDENTIFIER, hstart.2 ⟨_, rfl, rfl⟩, (), by simp [guard], (files, base), hloop, encodeUtf8 exe,
      hleft.length ▸ hleft.slice_eq_some.2 ⟨[], (List.append_nil _).symm, rfl⟩, exe, rfl, rfl⟩

theorem writeBlob_eq_ok {table : Md5Table} {files : List BinaryData} {exe : Text} {blob : Bytes}
    (htable : table.entries = tableOf files) :
    writeBlob table exe = .ok blob ↔ (∀ file ∈ files, file.Fits) ∧
      blob = IDENTIFIER ++ files.flatMap BinaryData.bytes ++ (IDENTIFIER ++ encodeUtf8 exe) := by
  unfold writeBlob
  simp only [htable, bind_eq_ok, writeEntries_eq_ok]
  constructor
  · rintro ⟨_, ⟨hfits, rfl⟩, hblob⟩
    exact ⟨hfits, (Except.ok.inj hblob).symm⟩
  · rintro ⟨hfits, rfl⟩
    exact ⟨_, ⟨hfits, rfl⟩, rfl⟩

theorem paths_tableOf (files : List BinaryData) : (tableOf files).map Prod.fst = files.map BinaryData.path := by
  rw [tableOf, List.map_map]
  rfl

/-- The reader makes something of a blob that names no path twice if and only if the writer wrote it, and then exactly
what it was written from: but for entries that look like the identifier, and for sums of another length. -/
theorem parse_eq_some {blob : Bytes} {files : List BinaryData} {exe : Text} :
    (parse blob = some (files, exe) ∧ (files.map BinaryData.path).Nodup) ↔
      (∃ table : Md5Table, table.entries = tableOf files ∧ writeBlob table exe = .ok blob) ∧
        ∀ file ∈ files, file.md5Code.length = MD5_LENGTH ∧ ¬file.Mistaken := by
  rw [parse_eq_some_bytes]
  constructor
  · rintro ⟨⟨hread, hblob⟩, hdistinct⟩
    refine ⟨⟨⟨tableOf files, paths_tableOf files ▸ hdistinct⟩, rfl, (writeBlob_eq_ok rfl).2 ⟨?_, hblob⟩⟩, ?_⟩
    · exact fun file hfile => (hread file hfile).toFits
    · exact fun file hfile => ⟨(hread file hfile).md5Code, (hread file hfile).clear⟩
  · rintro ⟨⟨table, htable, hwritten⟩, hclear⟩
    obtain ⟨hfits, hblob⟩ := (writeBlob_eq_ok htable).1 hwritten
    refine ⟨⟨fun file hfile => ⟨hfits file hfile, (hclear file hfile).1, (hclear file hfile).2⟩, hblob⟩, ?_⟩
    rw [← paths_tableOf, ← htable]
    exact table.distinct

end FontisRemote.Portable
