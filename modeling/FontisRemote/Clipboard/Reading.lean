import FontisRemote.Clipboard.Descriptor
import FontisRemote.Lib.Checked

/-!
# Reading an untrusted list

`parse_file_descriptors` once more, with what can panic in it: the reads from `Bytes`, the slices and the
arithmetic, on 64 bits. No list of bytes makes it panic, and the names it accepts are relative paths that
stay below where they start.
-/

namespace FontisRemote.Clipboard

open FontisRemote.Lib
open FontisRemote.FileTransfer

/-- `get_u32_le` and the like. -/
def getLe? (width : Nat) (bytes : List UInt8) : Option (Nat × List UInt8) :=
  if width ≤ bytes.length then some (getLe width bytes) else none

def parseName? (block : List UInt8) : Option (Except CliprdrError Text) :=
  match (leUnits block).findIdx? (· == 0) with
  | none => some (.error (.invalidRequest "clipboard file name is not null-terminated"))
  | some position => do
    let nameEnd ← checkedMul 64 position 2
    let name ← slice block 0 nameEnd
    match decodeUtf16 (leUnits name) with
    | none => some (.error .conversionFailure)
    | some name => some (.ok name)

/-- `Duration::new` and the addition to the epoch, whose seconds are an `i64`. -/
def sinceEpoch? (seconds nanoseconds : Nat) : Option Int := do
  let seconds ← checkedAdd 64 seconds (nanoseconds / 1000000000)
  let seconds ← checkedAdd 63 0 seconds
  some ((seconds : Int) * 1000000000 + (nanoseconds % 1000000000 : Nat))

def parseLastModified? (flags lastWriteTime : Nat) : Option Int :=
  if flags &&& FLAGS_FD_LAST_WRITE ≠ 0 ∧ LDAP_EPOCH_DELTA ≤ lastWriteTime then do
    let lastWriteTime ← checkedSub lastWriteTime LDAP_EPOCH_DELTA
    let nanoseconds ← checkedMul 32 (lastWriteTime % 10000000 % 2 ^ 32) 100
    sinceEpoch? (lastWriteTime / 10000000) nanoseconds
  else some 0

def parseFileDescriptor? (bytes : List UInt8) (connId : Int) (clipDataId : Int32) :
    Option (Except CliprdrError (FileDescription × List UInt8)) := do
  let (flags, bytes) ← getLe? 4 bytes
  let bytes ← advance 32 bytes
  let (attributes, bytes) ← getLe? 4 bytes
  let bytes ← advance 12 bytes
  let (perm, bytes) ← getLe? 4 bytes
  let (lastWriteTime, bytes) ← getLe? 8 bytes
  let (fileSizeHigh, bytes) ← getLe? 4 bytes
  let (fileSizeLow, bytes) ← getLe? 4 bytes
  let block ← slice bytes 0 FILE_NAME_FIELD_SIZE
  let bytes ← advance FILE_NAME_FIELD_SIZE bytes
  match ← parseName? block with
  | .error error => some (.error error)
  | .ok wstr =>
    if flags &&& FLAGS_FD_ATTRIBUTES = 0 then
      some (.error (.invalidRequest "file description must have valid attributes"))
    else do
      let size ← checkedAdd 64 (fileSizeHigh * 2 ^ 32) fileSizeLow
      let lastModified ← parseLastModified? flags lastWriteTime
      let name := slashed wstr
      match validateFileName name with
      | .error error => some (.error error)
      | .ok () =>
        some (.ok ({
          connId := connId
          name := name
          kind := if attributes &&& 0x10 ≠ 0 then .directory else .file
          atime := lastModified
          lastModified := lastModified
          lastMetadataChanged := lastModified
          creationTime := lastModified
          size := UInt64.ofNat size
          perm := parsePerm flags attributes perm
          clipDataId := clipDataId }, bytes))

def parseRecords? (connId : Int) (clipDataId : Int32) :
    (count : Nat) → (bytes : List UInt8) → Option (Except CliprdrError (List FileDescription))
  | 0, _ => some (.ok [])
  | count + 1, bytes => do
    match ← parseFileDescriptor? bytes connId clipDataId with
    | .error error => some (.error error)
    | .ok (desc, bytes) =>
      match ← parseRecords? connId clipDataId count bytes with
      | .error error => some (.error error)
      | .ok files => some (.ok (desc :: files))

def parseFileDescriptors? (fileDescriptorPdu : List UInt8) (connId : Int) :
    Option (Except CliprdrError (List FileDescription)) :=
  let clipDataId := fileListId fileDescriptorPdu
  if fileDescriptorPdu.length < 4 then
    some (.error (.invalidRequest "file descriptor request with infficient length"))
  else do
    let (count, data) ← getLe? 4 fileDescriptorPdu
    if data.length = 0 ∧ count = 0 then some (.ok [])
    else do
      let length ← checkedMul 64 FILE_DESCRIPTOR_SIZE count
      if data.length ≠ length then
        some (.error (.invalidRequest "file descriptor request with invalid length"))
      else parseRecords? connId clipDataId count data

/-! ## Nothing panics -/

theorem getLe?_of_le {width : Nat} {bytes : List UInt8} (h : width ≤ bytes.length) :
    getLe? width bytes = some (getLe width bytes) := if_pos h

theorem parseName?_eq {block : List UInt8} (h : block.length ≤ FILE_NAME_FIELD_SIZE) :
    parseName? block = some (parseName block) := by
  unfold parseName? parseName
  cases hend : (leUnits block).findIdx? (· == 0) with
  | none => rfl
  | some position =>
    have hposition : position < (leUnits block).length := by
      have := List.findIdx?_eq_some_iff_getElem.mp hend
      exact this.1
    rw [length_leUnits] at hposition
    have hfield : FILE_NAME_FIELD_SIZE = 520 := rfl
    dsimp only
    rw [checkedMul_of_lt (by omega), some_bind,
      slice_of_le (Nat.zero_le _) (by omega), some_bind, List.drop_zero,
      leUnits_take]
    cases decodeUtf16 ((leUnits block).take position) <;> rfl

/-- Ticks of 100 ns since the epoch. -/
theorem sinceEpoch?_ticks {ticks : Nat} (h : ticks < 2 ^ 64) :
    ((checkedMul 32 (ticks % 10000000 % 2 ^ 32) 100).bind fun nanoseconds =>
      sinceEpoch? (ticks / 10000000) nanoseconds) =
        some ((ticks : Int) / 10000000 * 1000000000 + (ticks : Int) % 10000000 * 100) := by
  have hlow : ticks % 10000000 % 2 ^ 32 = ticks % 10000000 := by omega
  have hcarry : ticks % 10000000 * 100 / 1000000000 = 0 := by omega
  have hnanos : ticks % 10000000 * 100 % 1000000000 = ticks % 10000000 * 100 := by omega
  have hfits : ticks % 10000000 * 100 < 2 ^ 32 := by omega
  have hseconds : ticks / 10000000 + 0 < 2 ^ 64 := by omega
  have hsigned : 0 + ticks / 10000000 < 2 ^ 63 := by omega
  rw [hlow, checkedMul_of_lt hfits, Option.bind_some]
  unfold sinceEpoch?
  rw [hcarry, hnanos, checkedAdd_of_lt hseconds, some_bind, Nat.add_zero,
    checkedAdd_of_lt hsigned, some_bind, Nat.zero_add]
  push_cast
  rfl

theorem parseLastModified?_eq {lastWriteTime : Nat} (flags : Nat) (h : lastWriteTime < 2 ^ 64) :
    parseLastModified? flags lastWriteTime = some (parseLastModified flags lastWriteTime) := by
  unfold parseLastModified? parseLastModified
  split
  · rename_i hvalid
    rw [checkedSub_of_le hvalid.2, some_bind]
    exact sinceEpoch?_ticks ((Nat.sub_le _ _).trans_lt h)
  · rfl

theorem parseFileDescriptor?_eq {bytes : List UInt8} (connId : Int) (clipDataId : Int32)
    (h : FILE_DESCRIPTOR_SIZE ≤ bytes.length) :
    parseFileDescriptor? bytes connId clipDataId = some (parseFileDescriptor bytes connId clipDataId) := by
  have hlen : 592 ≤ bytes.length := h
  have hget : ∀ (width skipped : Nat), skipped + width ≤ 592 → getLe? width (bytes.drop skipped) =
      some (ofLeBytes ((bytes.drop skipped).take width), bytes.drop (skipped + width)) := by
    intro width skipped hfits
    rw [getLe?_of_le (by rw [List.length_drop]; omega), getLe, List.drop_drop]
  have hadvance : ∀ (n skipped : Nat), skipped + n ≤ 592 →
      advance n (bytes.drop skipped) = some (bytes.drop (skipped + n)) := by
    intro n skipped hfits
    rw [advance_of_le (by rw [List.length_drop]; omega), List.drop_drop]
  have hflags : getLe? 4 bytes = some (ofLeBytes (bytes.take 4), bytes.drop 4) := hget 4 0 (by decide)
  have hblock : slice (bytes.drop 72) 0 FILE_NAME_FIELD_SIZE =
      some ((bytes.drop 72).take FILE_NAME_FIELD_SIZE) := by
    rw [slice_of_le (Nat.zero_le _), List.drop_zero]
    rw [List.length_drop, show FILE_NAME_FIELD_SIZE = 520 from rfl]
    omega
  have hname : parseName? ((bytes.drop 72).take FILE_NAME_FIELD_SIZE) =
      some (parseName ((bytes.drop 72).take FILE_NAME_FIELD_SIZE)) := parseName?_eq (List.length_take_le ..)
  have hsize : checkedAdd 64 (ofLeBytes ((bytes.drop 64).take 4) * 2 ^ 32)
      (ofLeBytes ((bytes.drop 68).take 4)) =
      some (ofLeBytes ((bytes.drop 64).take 4) * 2 ^ 32 + ofLeBytes ((bytes.drop 68).take 4)) := by
    have hhigh : ofLeBytes ((bytes.drop 64).take 4) < 256 ^ 4 := getLe_lt 4 (bytes.drop 64)
    have hlow : ofLeBytes ((bytes.drop 68).take 4) < 256 ^ 4 := getLe_lt 4 (bytes.drop 68)
    exact checkedAdd_of_lt (by omega)
  have htime : ∀ flags, parseLastModified? flags (ofLeBytes ((bytes.drop 56).take 8)) =
      some (parseLastModified flags (ofLeBytes ((bytes.drop 56).take 8))) := by
    intro flags
    have htime : ofLeBytes ((bytes.drop 56).take 8) < 256 ^ 8 := getLe_lt 8 (bytes.drop 56)
    exact parseLastModified?_eq flags (by omega)
  unfold parseFileDescriptor?
  rw [hflags, some_bind]
  dsimp only
  rw [hadvance 32 4 (by decide), some_bind, hget 4 36 (by decide), some_bind]
  dsimp only
  rw [hadvance 12 40 (by decide), some_bind, hget 4 52 (by decide), some_bind]
  dsimp only
  rw [hget 8 56 (by decide), some_bind]
  dsimp only
  rw [hget 4 64 (by decide), some_bind]
  dsimp only
  rw [hget 4 68 (by decide), some_bind]
  dsimp only
  rw [hblock, some_bind, hadvance FILE_NAME_FIELD_SIZE 72 (by decide), some_bind, hname,
    some_bind, hsize, htime]
  unfold parseFileDescriptor
  dsimp only [getLe]
  simp only [List.drop_drop, Nat.reduceAdd]
  cases parseName ((bytes.drop 72).take FILE_NAME_FIELD_SIZE) with
  | error error => rfl
  | ok wstr =>
    dsimp only
    split
    · rfl
    · cases validateFileName (slashed wstr) <;> rfl

/-- What a record leaves is a record less. -/
theorem length_parseFileDescriptor {bytes rest : List UInt8} {connId : Int} {clipDataId : Int32}
    {desc : FileDescription} (h : parseFileDescriptor bytes connId clipDataId = .ok (desc, rest)) :
    rest.length = bytes.length - FILE_DESCRIPTOR_SIZE ∧ validateFileName desc.name = .ok () := by
  unfold parseFileDescriptor at h
  simp only [getLe, List.drop_drop, Nat.reduceAdd] at h
  cases hname : parseName ((bytes.drop 72).take FILE_NAME_FIELD_SIZE) with
  | error error =>
    rw [hname] at h
    cases h
  | ok wstr =>
    rw [hname] at h
    dsimp only at h
    split at h
    · cases h
    · cases hvalid : validateFileName (slashed wstr) with
      | error error =>
        rw [hvalid] at h
        cases h
      | ok u =>
        rw [hvalid] at h
        obtain ⟨rfl, rfl⟩ := Prod.mk.inj (Except.ok.inj h)
        exact ⟨by rw [List.length_drop]; rfl, hvalid⟩

theorem parseRecords?_eq (connId : Int) (clipDataId : Int32) {count : Nat} {bytes : List UInt8}
    (h : FILE_DESCRIPTOR_SIZE * count ≤ bytes.length) :
    parseRecords? connId clipDataId count bytes = some (parseRecords connId clipDataId count bytes) := by
  induction count generalizing bytes with
  | zero => rfl
  | succ count ih =>
    have hsize : FILE_DESCRIPTOR_SIZE = 592 := rfl
    rw [Nat.mul_succ] at h
    unfold parseRecords? parseRecords
    rw [parseFileDescriptor?_eq connId clipDataId (by omega), some_bind]
    cases hrecord : parseFileDescriptor bytes connId clipDataId with
    | error error => rfl
    | ok parsed =>
      obtain ⟨desc, rest⟩ := parsed
      have hrest := (length_parseFileDescriptor hrecord).1
      dsimp only
      rw [ih (by omega), some_bind]
      cases parseRecords connId clipDataId count rest <;> rfl

/-- No bytes make the reader panic. -/
theorem parseFileDescriptors?_eq (fileDescriptorPdu : List UInt8) (connId : Int) :
    parseFileDescriptors? fileDescriptorPdu connId =
      some (parseFileDescriptors fileDescriptorPdu connId) := by
  unfold parseFileDescriptors? parseFileDescriptors
  dsimp only
  split
  · rfl
  · rename_i hlen
    have hcount : (getLe 4 fileDescriptorPdu).1 < 256 ^ 4 := getLe_lt 4 fileDescriptorPdu
    have hfits : FILE_DESCRIPTOR_SIZE * (getLe 4 fileDescriptorPdu).1 < 2 ^ 64 := by
      rw [show FILE_DESCRIPTOR_SIZE = 592 from rfl]
      omega
    rw [getLe?_of_le (by omega), some_bind]
    split
    · rfl
    · rw [checkedMul_of_lt hfits, some_bind]
      split
      · rfl
      · rename_i hrecords
        exact parseRecords?_eq connId _ (Nat.le_of_eq (not_not.mp hrecords).symm)

/-! ## The names -/

theorem valid_of_parseRecords {connId : Int} {clipDataId : Int32} {count : Nat} {bytes : List UInt8}
    {files : List FileDescription} (h : parseRecords connId clipDataId count bytes = .ok files) :
    ∀ desc ∈ files, validateFileName desc.name = .ok () := by
  induction count generalizing bytes files with
  | zero =>
    obtain rfl := Except.ok.inj h
    simp
  | succ count ih =>
    unfold parseRecords at h
    cases hrecord : parseFileDescriptor bytes connId clipDataId with
    | error error =>
      rw [hrecord] at h
      cases h
    | ok parsed =>
      obtain ⟨desc, rest⟩ := parsed
      rw [hrecord] at h
      dsimp only at h
      cases hrest : parseRecords connId clipDataId count rest with
      | error error =>
        rw [hrest] at h
        cases h
      | ok files' =>
        rw [hrest] at h
        obtain rfl := Except.ok.inj h
        intro desc' hdesc'
        obtain rfl | hmem := List.mem_cons.mp hdesc'
        · exact (length_parseFileDescriptor hrecord).2
        · exact ih hrest desc' hmem

theorem valid_of_parse {fileDescriptorPdu : List UInt8} {connId : Int} {files : List FileDescription}
    (h : parseFileDescriptors fileDescriptorPdu connId = .ok files) :
    ∀ desc ∈ files, validateFileName desc.name = .ok () := by
  unfold parseFileDescriptors at h
  dsimp only at h
  split at h
  · cases h
  · split at h
    · obtain rfl := Except.ok.inj h
      simp
    · split at h
      · cases h
      · exact valid_of_parseRecords h

/-- The pieces of a name. -/
def pieces (name : Text) : List Text :=
  name.splitOnP (· == '/')

/-- A piece that is a component by itself. -/
structure Plain (seg : Text) : Prop where
  ne_nil : seg ≠ []
  ne_dot : seg ≠ ['.']
  ne_dots : seg ≠ ['.', '.']
  no_sep : '/' ∉ seg

theorem isSep_unix : isSep false = (· == '/') := by
  funext c
  simp [isSep]

/-- A text that has no separator in front, by its pieces. -/
theorem components_unix {text : Text} (hsep : text.head?.any (isSep false) = false)
    (hplain : ∀ seg ∈ pieces text, Plain seg) : components false text = (pieces text).map .normal := by
  have hsegments : segments false text = pieces text := by
    rw [segments_eq rfl, isSep_unix]
    exact List.filter_eq_self.mpr fun seg hseg => decide_eq_true (hplain seg hseg).ne_nil
  have hdot : leadingDot false text = false := by
    unfold leadingDot
    rw [hsegments]
    have hhead : (pieces text).head? ≠ some ['.'] := fun hhead =>
      (hplain _ (List.mem_of_mem_head? hhead)).ne_dot rfl
    rw [decide_eq_false hhead, Bool.and_false, Bool.false_and]
  have hnormal : ∀ segs : List Text, (∀ seg ∈ segs, Plain seg) →
      segs.filterMap (component? false) = segs.map .normal := by
    intro segs hsegs
    induction segs with
    | nil => rfl
    | cons seg segs ih =>
      have hseg := hsegs seg (List.mem_cons_self ..)
      have hcomponent : component? false seg = some (.normal seg) := by
        unfold component?
        rw [if_neg hseg.ne_dot, if_neg hseg.ne_dots]
      rw [List.filterMap_cons_some hcomponent, List.map_cons,
        ih fun s hs => hsegs s (List.mem_cons_of_mem _ hs)]
  rw [components_eq rfl hsep, hdot, hsegments, hnormal _ hplain]
  rfl

theorem pieces_plain {name : Text} (h : validateFileName name = .ok ()) : ∀ seg ∈ pieces name, Plain seg := by
  intro seg hseg
  unfold validateFileName at h
  split at h
  · cases h
  · rename_i hnormal
    split at h
    · cases h
    · rename_i hok
      obtain ⟨-, hdots, -, -⟩ := validateFileNameNoTraversal_ok hok
      rw [isSep_unix] at hdots
      simp only [Bool.or_eq_true, List.any_eq_true, not_or, not_exists, not_and] at hnormal
      have hpiece := hnormal.2 seg hseg
      simp only [beq_iff_eq] at hpiece
      refine ⟨hpiece.1, hpiece.2, ?_, fun hmem => ?_⟩
      · rintro rfl
        exact hdots hseg
      · have := not_mem_of_mem_splitOnP hseg '/' hmem
        simp at this

theorem head_of_valid {name : Text} (h : validateFileName name = .ok ()) :
    name.head?.any (isSep false) = false := by
  unfold validateFileName at h
  split at h
  · cases h
  · split at h
    · cases h
    · rename_i hok
      exact (validateFileNameNoTraversal_ok hok).2.2.2

/-- A name that is accepted is relative and has normal components only, which are its pieces. -/
theorem components_of_valid {name : Text} (h : validateFileName name = .ok ()) :
    components false name = (pieces name).map .normal :=
  components_unix (head_of_valid h) (pieces_plain h)

theorem pieces_ne_nil (name : Text) : pieces name ≠ [] :=
  List.splitOnP_ne_nil _ name

theorem Plain.pieces {seg : Text} (h : Plain seg) : pieces seg = [seg] := by
  refine List.splitOnP_eq_singleton fun c hc => ?_
  rw [beq_eq_false_iff_ne]
  rintro rfl
  exact h.no_sep hc

/-- A plain piece is one component. -/
theorem Plain.components {seg : Text} (h : Plain seg) : components false seg = [.normal seg] := by
  have hsep : seg.head?.any (isSep false) = false := by
    rw [isSep_unix]
    cases seg with
    | nil => rfl
    | cons c seg =>
      refine beq_eq_false_iff_ne.mpr ?_
      rintro rfl
      exact h.no_sep (List.mem_cons_self ..)
  rw [components_unix hsep (by rw [h.pieces]; simpa using h), h.pieces]
  rfl

/-- The pieces with separators between them. -/
theorem intercalate_pieces (name : Text) : ['/'].intercalate (pieces name) = name :=
  List.intercalate_splitOn '/'

end FontisRemote.Clipboard
