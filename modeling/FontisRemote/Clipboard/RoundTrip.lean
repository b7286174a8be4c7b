import FontisRemote.Clipboard.Descriptor
import Mathlib.Data.List.Forall2

/-!
# What a file descriptor says to the peer

A record read back gives the file's description, with the name as the reader sees it: backslashes are
separators to it, whoever wrote them.
-/

namespace FontisRemote.Clipboard

open FontisRemote.Lib
open FontisRemote.FileTransfer (Text validateFileNameNoTraversal validateFileNameNoTraversal_ok)

variable {Handle : Text → Type}

section Name

theorem nul_not_mem_of_valid {name : Text} (h : validateFileName name = .ok ()) : '\x00' ∉ name := by
  unfold validateFileName at h
  split at h
  · cases h
  · split at h
    · cases h
    · rename_i hok
      exact (validateFileNameNoTraversal_ok hok).1

theorem parseName_field {name : Text} (hnul : '\x00' ∉ name) (pad : List UInt8) :
    parseName ((encodeUtf16 name).flatMap (leBytes 2) ++ (leBytes 2 0 ++ pad)) = .ok name := by
  have hunits : leUnits ((encodeUtf16 name).flatMap (leBytes 2) ++ (leBytes 2 0 ++ pad)) =
      encodeUtf16 name ++ 0 :: leUnits pad :=
    leUnits_flatMap_append (fun u hu => lt_of_mem_encodeUtf16 hu) _
  have hend : (encodeUtf16 name ++ 0 :: leUnits pad).findIdx? (· == 0) = some (encodeUtf16 name).length := by
    have hnone : (encodeUtf16 name).findIdx? (· == 0) = none := by
      rw [List.findIdx?_eq_none_iff]
      intro u hu
      refine beq_false_of_ne fun hzero => hnul ?_
      exact zero_mem_encodeUtf16 (hzero ▸ hu)
    rw [List.findIdx?_append, hnone, List.findIdx?_cons]
    simp
  unfold parseName
  rw [hunits, hend]
  dsimp only
  rw [List.take_left, decodeUtf16_encodeUtf16]

theorem putDescriptorName_ok {file : LocalFile Handle} {nameField : List UInt8}
    (h : file.putDescriptorName = .ok nameField) :
    validateFileName file.descriptorName = .ok () ∧ nameField.length = FILE_NAME_FIELD_SIZE ∧
      parseName nameField = .ok file.descriptorName := by
  unfold LocalFile.putDescriptorName at h
  split at h
  · cases h
  · rename_i hvalid
    dsimp only at h
    split at h
    · cases h
    · rename_i hsize
      obtain rfl := Except.ok.inj h
      refine ⟨hvalid, ?_, ?_⟩
      · rw [List.length_append, List.length_append, length_leBytes, List.length_replicate]
        omega
      · rw [List.append_assoc]
        exact parseName_field (nul_not_mem_of_valid hvalid) _

end Name

section Fields

variable (file : LocalFile Handle)

theorem fileAttributes_lt : file.fileAttributes < 256 := by
  unfold LocalFile.fileAttributes
  cases file.readOnly <;> cases file.hidden <;> cases file.system <;> cases file.isDir <;>
    cases file.archive <;> cases file.normal <;> decide

theorem fileAttributes_directory : file.fileAttributes &&& 0x10 ≠ 0 ↔ file.isDir = true := by
  unfold LocalFile.fileAttributes
  cases file.readOnly <;> cases file.hidden <;> cases file.system <;> cases file.isDir <;>
    cases file.archive <;> cases file.normal <;> decide

theorem parsePerm_flags (attributes : Nat) (perm : UInt32) :
    parsePerm LocalFile.flags attributes perm.toNat = perm.toUInt16 := by
  unfold parsePerm
  rw [if_pos (by decide)]
  rfl

theorem size_halves : UInt64.ofNat (file.size.toNat / 2 ^ 32 * 2 ^ 32 + file.size.toNat % 2 ^ 32) = file.size := by
  rw [Nat.div_add_mod', UInt64.ofNat_toNat]

/-- The time that comes back, in whole units of 100 ns. -/
def decodedTime (time : Int) : Int :=
  parseLastModified LocalFile.flags ((time.toNat / 100 % 2 ^ 64 + LDAP_EPOCH_DELTA) % 2 ^ 64)

/-- The time rounded down to 100 ns, the epoch when it is earlier. -/
def roundedTime (time : Int) : Int :=
  (time.toNat / 100 * 100 : Nat)

theorem parseLastModified_flags {t : Nat} (h : LDAP_EPOCH_DELTA ≤ t) :
    parseLastModified LocalFile.flags t = ((t - LDAP_EPOCH_DELTA) * 100 : Nat) := by
  unfold parseLastModified
  rw [if_pos ⟨by decide, h⟩]
  have hunits := Nat.div_add_mod (t - LDAP_EPOCH_DELTA) 10000000
  dsimp only
  omega

theorem parseLastModified_early {t : Nat} (h : ¬ LDAP_EPOCH_DELTA ≤ t) :
    parseLastModified LocalFile.flags t = 0 := by
  unfold parseLastModified
  rw [if_neg fun hboth => h hboth.2]

/-- The clock of the records ends before that of the files. -/
theorem decodedTime_eq_iff (time : Int) :
    decodedTime time = roundedTime time ↔ time.toNat / 100 + LDAP_EPOCH_DELTA < 2 ^ 64 := by
  unfold decodedTime roundedTime
  generalize time.toNat / 100 = units
  have hdelta : LDAP_EPOCH_DELTA = 116444736000000000 := rfl
  by_cases hle : LDAP_EPOCH_DELTA ≤ (units % 2 ^ 64 + LDAP_EPOCH_DELTA) % 2 ^ 64
  · rw [parseLastModified_flags hle]
    omega
  · rw [parseLastModified_early hle]
    omega

end Fields

/-- The description that comes out of a file's record. -/
def described (connId : Int) (clipDataId : Int32) (file : LocalFile Handle) : FileDescription where
  connId := connId
  name := slashed file.descriptorName
  kind := if file.isDir then .directory else .file
  atime := decodedTime file.lastWriteTime
  lastModified := decodedTime file.lastWriteTime
  lastMetadataChanged := decodedTime file.lastWriteTime
  creationTime := decodedTime file.lastWriteTime
  size := file.size
  perm := file.perm.toUInt16
  clipDataId := clipDataId

/-- A file's record, with any bytes where the reader skips. -/
def recordWith (reserved : List UInt8) (file : LocalFile Handle) (nameField : List UInt8) : List UInt8 :=
  leBytes 4 LocalFile.flags ++ (reserved ++ (leBytes 4 file.fileAttributes ++ (List.replicate 12 0 ++
    (leBytes 4 file.perm.toNat ++ (leBytes 8 file.win32Time ++ (leBytes 4 (file.size.toNat / 2 ^ 32) ++
      (leBytes 4 (file.size.toNat % 2 ^ 32) ++ nameField)))))))

theorem asBin_ok {file : LocalFile Handle} {record : List UInt8} (h : file.asBin = .ok record) :
    ∃ nameField, file.putDescriptorName = .ok nameField ∧
      record = recordWith (List.replicate 32 0) file nameField := by
  unfold LocalFile.asBin at h
  split at h
  · cases h
  · rename_i nameField hname
    obtain rfl := Except.ok.inj h
    refine ⟨nameField, hname, ?_⟩
    unfold recordWith
    simp only [List.append_assoc]

theorem length_recordWith {reserved nameField : List UInt8} (file : LocalFile Handle)
    (hreserved : reserved.length = 32) (hname : nameField.length = FILE_NAME_FIELD_SIZE) :
    (recordWith reserved file nameField).length = FILE_DESCRIPTOR_SIZE := by
  unfold recordWith
  simp only [List.length_append, length_leBytes, List.length_replicate, hreserved, hname]
  rfl

theorem parseFileDescriptor_record {file : LocalFile Handle} {reserved nameField : List UInt8}
    (hreserved : reserved.length = 32) (hfield : file.putDescriptorName = .ok nameField) (rest : List UInt8)
    (connId : Int) (clipDataId : Int32) :
    parseFileDescriptor (recordWith reserved file nameField ++ rest) connId clipDataId =
      match validateFileName (slashed file.descriptorName) with
      | .error error => .error error
      | .ok () => .ok (described connId clipDataId file, rest) := by
  obtain ⟨-, hlength, hname⟩ := putDescriptorName_ok hfield
  have hsize := file.size.toNat_lt
  have hattributes := fileAttributes_lt file
  have hperm := file.perm.toNat_lt
  have htime : file.win32Time < 256 ^ 8 := Nat.mod_lt _ (by decide)
  unfold parseFileDescriptor recordWith
  simp only [List.append_assoc]
  rw [getLe_append (by decide)]
  dsimp only
  rw [List.drop_left' hreserved, getLe_append (by omega)]
  dsimp only
  rw [List.drop_left' List.length_replicate, getLe_append hperm]
  dsimp only
  rw [getLe_append htime]
  dsimp only
  rw [getLe_append (by omega)]
  dsimp only
  rw [getLe_append (by omega)]
  dsimp only
  rw [List.take_left' hlength, List.drop_left' hlength, hname]
  dsimp only
  rw [if_neg (by decide), size_halves, parsePerm_flags]
  simp only [fileAttributes_directory]
  rfl

section Records

/-- The records of these files. -/
inductive Written : List (LocalFile Handle) → List UInt8 → Prop
  | nil : Written [] []
  | cons {file : LocalFile Handle} {files : List (LocalFile Handle)} {reserved nameField records : List UInt8} :
      reserved.length = 32 → file.putDescriptorName = .ok nameField → Written files records →
        Written (file :: files) (recordWith reserved file nameField ++ records)

theorem putFiles_ok {files : List (LocalFile Handle)} {records : List UInt8} (h : putFiles files = .ok records) :
    Written files records := by
  induction files generalizing records with
  | nil =>
    obtain rfl := Except.ok.inj h
    exact .nil
  | cons file files ih =>
    unfold putFiles at h
    split at h
    · cases h
    · rename_i record hrecord
      split at h
      · cases h
      · rename_i rest hrest
        obtain rfl := Except.ok.inj h
        obtain ⟨nameField, hfield, rfl⟩ := asBin_ok hrecord
        exact .cons List.length_replicate hfield (ih hrest)

theorem Written.length {files : List (LocalFile Handle)} {records : List UInt8} (h : Written files records) :
    records.length = FILE_DESCRIPTOR_SIZE * files.length := by
  induction h with
  | nil => rfl
  | @cons file files reserved nameField records hreserved hfield hrest ih =>
    have hname := (putDescriptorName_ok hfield).2.1
    rw [List.length_append, length_recordWith file hreserved hname, ih, List.length_cons, Nat.mul_succ]
    omega

/-- The random bytes only touch what the reader skips. -/
theorem Written.nonce {files : List (LocalFile Handle)} {records : List UInt8} (h : Written files records)
    (nonce : Vector UInt8 16) (count : Nat) :
    ∃ records', writeNonce nonce (leBytes 4 count ++ records) = leBytes 4 count ++ records' ∧
      Written files records' := by
  cases h with
  | nil =>
    refine ⟨[], ?_, .nil⟩
    unfold writeNonce
    rw [List.append_nil, if_neg (by rw [length_leBytes]; decide)]
  | @cons file files reserved nameField records hreserved hfield hrest =>
    have hname := (putDescriptorName_ok hfield).2.1
    have hnonce : (nonce.toList ++ reserved.drop 16).length = 32 := by
      rw [List.length_append, Vector.length_toList, List.length_drop, hreserved]
    refine ⟨_, ?_, .cons hnonce hfield hrest⟩
    have hlong : 24 ≤ (leBytes 4 count ++ (recordWith reserved file nameField ++ records)).length := by
      rw [List.length_append, List.length_append, length_recordWith file hreserved hname]
      exact Nat.le_add_left_of_le (Nat.le_add_right_of_le (by decide))
    have hhead : (leBytes 4 count ++ leBytes 4 LocalFile.flags).length = 8 := by
      rw [List.length_append, length_leBytes, length_leBytes]
    unfold writeNonce
    rw [if_pos hlong]
    unfold recordWith
    simp only [List.append_assoc]
    rw [← List.append_assoc (leBytes 4 count), List.take_left' hhead]
    have hdrop : ∀ rest, ((leBytes 4 count ++ leBytes 4 LocalFile.flags) ++ (reserved ++ rest)).drop 24 =
        reserved.drop 16 ++ rest := by
      intro rest
      rw [List.drop_append, hhead, List.drop_eq_nil_of_le (by rw [hhead]; decide), List.nil_append,
        List.drop_append_of_le_length (by rw [hreserved]; decide)]
    rw [hdrop, List.append_assoc]

theorem Written.parse_ok {files : List (LocalFile Handle)} {records : List UInt8} (h : Written files records)
    {connId : Int} {clipDataId : Int32} {descs : List FileDescription}
    (hparse : parseRecords connId clipDataId files.length records = .ok descs) :
    descs = files.map (described connId clipDataId) := by
  induction h generalizing descs with
  | nil => exact (Except.ok.inj hparse).symm
  | cons hreserved hfield hrest ih =>
    rw [List.length_cons, parseRecords, parseFileDescriptor_record hreserved hfield] at hparse
    split at hparse
    · cases hparse
    · rename_i hone
      split at hone
      · cases hone
      · obtain ⟨rfl, rfl⟩ := Prod.mk.inj (Except.ok.inj hone)
        split at hparse
        · cases hparse
        · rename_i hmore
          obtain rfl := Except.ok.inj hparse
          rw [List.map_cons, ih hmore]

theorem slashed_eq_self_iff (name : Text) : slashed name = name ↔ '\\' ∉ name := by
  unfold slashed
  constructor
  · intro h hmem
    rw [← h] at hmem
    obtain ⟨c, -, hc⟩ := List.mem_map.mp hmem
    split at hc
    · exact absurd hc (by decide)
    · contradiction
  · intro hnot
    induction name with
    | nil => rfl
    | cons c name ih =>
      have hc : c ≠ '\\' := fun hc => hnot (hc ▸ List.mem_cons_self ..)
      rw [List.map_cons, if_neg hc, ih fun hmem => hnot (List.mem_cons_of_mem c hmem)]

theorem Written.parse {files : List (LocalFile Handle)} {records : List UInt8} (h : Written files records)
    (hplain : ∀ file ∈ files, '\\' ∉ file.descriptorName) (connId : Int) (clipDataId : Int32) :
    parseRecords connId clipDataId files.length records = .ok (files.map (described connId clipDataId)) := by
  induction h with
  | nil => rfl
  | @cons file files reserved nameField records hreserved hfield hrest ih =>
    have hname : slashed file.descriptorName = file.descriptorName :=
      (slashed_eq_self_iff _).mpr (hplain file (List.mem_cons_self ..))
    -- the writer has checked the same name
    have hvalid := (putDescriptorName_ok hfield).1
    have hmore := ih fun f hf => hplain f (List.mem_cons_of_mem _ hf)
    rw [List.length_cons, parseRecords, parseFileDescriptor_record hreserved hfield, hname, hvalid]
    dsimp only
    rw [hmore]
    rfl

end Records

/-- The PDU of a list: its count and its records, with the id that the reader computes as well. -/
theorem buildFileListPdu_ok {files : List (LocalFile Handle)} {nonce : Vector UInt8 16} {pdu : List UInt8}
    {id : Int32} (h : buildFileListPdu files nonce = .ok (pdu, id)) :
    id = fileListId pdu ∧ ∃ records, pdu = leBytes 4 (files.length % 2 ^ 32) ++ records ∧ Written files records := by
  unfold buildFileListPdu at h
  split at h
  · cases h
  · rename_i records hrecords
    obtain ⟨rfl, rfl⟩ := Prod.mk.inj (Except.ok.inj h)
    exact ⟨rfl, (putFiles_ok hrecords).nonce nonce _⟩

/-- The reader takes the records of a PDU if it counts as many as there are. -/
theorem parseFileDescriptors_pdu {files : List (LocalFile Handle)} {records : List UInt8}
    (h : Written files records) (connId : Int) {descs : List FileDescription} :
    parseFileDescriptors (leBytes 4 (files.length % 2 ^ 32) ++ records) connId = .ok descs ↔
      files.length < 2 ^ 32 ∧
        parseRecords connId (fileListId (leBytes 4 (files.length % 2 ^ 32) ++ records)) files.length records =
          .ok descs := by
  have hlength : records.length = 592 * files.length := h.length
  have hcount : files.length % 2 ^ 32 < 256 ^ 4 := Nat.mod_lt _ (by decide)
  unfold parseFileDescriptors FILE_DESCRIPTOR_SIZE
  dsimp only
  rw [if_neg (by rw [List.length_append, length_leBytes]; omega), getLe_append hcount]
  dsimp only
  by_cases hshort : files.length < 2 ^ 32
  · rw [Nat.mod_eq_of_lt hshort]
    by_cases hnone : files.length = 0
    · obtain rfl := List.eq_nil_of_length_eq_zero hnone
      rw [if_pos ⟨by omega, rfl⟩]
      exact ⟨fun hok => ⟨hshort, hok⟩, fun hok => hok.2⟩
    · rw [if_neg fun hboth => hnone hboth.2, if_neg (by omega)]
      exact ⟨fun hok => ⟨hshort, hok⟩, fun hok => hok.2⟩
  · -- the count has wrapped, and the length gives it away
    rw [if_neg (by omega), if_pos (by omega)]
    exact ⟨nofun, fun hok => absurd hok.1 hshort⟩

/-- The description says of the file what the file is. -/
structure Describes (id : Int32) (file : LocalFile Handle) (desc : FileDescription) : Prop where
  name : desc.name = file.descriptorName
  kind : desc.kind = if file.isDir then .directory else .file
  size : desc.size = file.size
  perm : desc.perm = file.perm.toUInt16
  lastModified : desc.lastModified = roundedTime file.lastWriteTime
  clipDataId : desc.clipDataId = id

/-- A list of descriptions made one a file. -/
theorem describes_map_iff (connId : Int) (id : Int32) (files : List (LocalFile Handle)) :
    List.Forall₂ (Describes id) files (files.map (described connId id)) ↔
      ∀ file ∈ files, Describes id file (described connId id file) := by
  rw [List.forall₂_map_right_iff, List.forall₂_same]

theorem described_lastModified (connId : Int) (id : Int32) (file : LocalFile Handle) :
    (described connId id file).lastModified = decodedTime file.lastWriteTime := by
  unfold described
  dsimp only

theorem describes_described_iff (connId : Int) (id : Int32) (file : LocalFile Handle) :
    Describes id file (described connId id file) ↔
      '\\' ∉ file.descriptorName ∧ file.lastWriteTime.toNat / 100 + LDAP_EPOCH_DELTA < 2 ^ 64 := by
  rw [← slashed_eq_self_iff, ← decodedTime_eq_iff, ← described_lastModified connId id]
  exact ⟨fun h => ⟨h.name, h.lastModified⟩, fun h => ⟨h.1, rfl, rfl, rfl, h.2, rfl⟩⟩

/-- The reader gets back what was written exactly when no name has a backslash in it, the count fits and
no file is later than the clock of the records can tell. -/
theorem descriptors_round_trip_iff {files : List (LocalFile Handle)} {nonce : Vector UInt8 16} {pdu : List UInt8}
    {id : Int32} (h : buildFileListPdu files nonce = .ok (pdu, id)) (connId : Int) :
    (∃ descs, parseFileDescriptors pdu connId = .ok descs ∧ List.Forall₂ (Describes id) files descs) ↔
      files.length < 2 ^ 32 ∧ ∀ file ∈ files,
        '\\' ∉ file.descriptorName ∧ file.lastWriteTime.toNat / 100 + LDAP_EPOCH_DELTA < 2 ^ 64 := by
  obtain ⟨rfl, records, rfl, hwritten⟩ := buildFileListPdu_ok h
  constructor
  · rintro ⟨descs, hparse, hdescribes⟩
    obtain ⟨hshort, hrecords⟩ := (parseFileDescriptors_pdu hwritten connId).mp hparse
    rw [hwritten.parse_ok hrecords, describes_map_iff] at hdescribes
    exact ⟨hshort, fun file hfile => (describes_described_iff connId _ file).mp (hdescribes file hfile)⟩
  · rintro ⟨hshort, hfiles⟩
    have hrecords := hwritten.parse (fun file hfile => (hfiles file hfile).1) connId
      (fileListId (leBytes 4 (files.length % 2 ^ 32) ++ records))
    refine ⟨_, (parseFileDescriptors_pdu hwritten connId).mpr ⟨hshort, hrecords⟩, ?_⟩
    rw [describes_map_iff]
    exact fun file hfile => (describes_described_iff connId _ file).mpr (hfiles file hfile)

/-- A file of this name, last written at the epoch. -/
def fileNamed (name : Text) : LocalFile fun _ => Unit where
  path := name
  name := name
  descriptorName := name
  size := 8
  lastWriteTime := 0
  isDir := false
  perm := 0o100644
  readOnly := false
  hidden := false
  system := false
  archive := false
  normal := true

/-- A directory with a file in it, of which the file was written later. -/
def twoFiles : List (LocalFile fun _ => Unit) :=
  [{ fileNamed ['a'] with size := 0, isDir := true, perm := 0o040755, normal := false },
    { fileNamed ['a', '/', 'b'] with lastWriteTime := 1700000000123456700 }]

theorem twoFiles_builds : ∃ pdu id, buildFileListPdu twoFiles (Vector.replicate 16 7) = .ok (pdu, id) :=
  ⟨_, _, rfl⟩

theorem descriptors_round_trip_two : ∃ pdu id,
    buildFileListPdu twoFiles (Vector.replicate 16 7) = .ok (pdu, id) ∧
      ∃ descs, parseFileDescriptors pdu 1 = .ok descs ∧ List.Forall₂ (Describes id) twoFiles descs := by
  obtain ⟨pdu, id, hbuild⟩ := twoFiles_builds
  exact ⟨pdu, id, hbuild, (descriptors_round_trip_iff hbuild 1).mpr ⟨by decide, by decide⟩⟩

theorem backslash_builds : ∃ pdu id,
    buildFileListPdu [fileNamed ['a', '\\', 'b']] (Vector.replicate 16 7) = .ok (pdu, id) :=
  ⟨_, _, rfl⟩

/-- `a\b` is a file's name on Unix; its peer reads `a/b`. -/
theorem backslash_not_kept : ∃ pdu id,
    buildFileListPdu [fileNamed ['a', '\\', 'b']] (Vector.replicate 16 7) = .ok (pdu, id) ∧
      ¬ ∃ descs, parseFileDescriptors pdu 1 = .ok descs ∧
        List.Forall₂ (Describes id) [fileNamed ['a', '\\', 'b']] descs := by
  obtain ⟨pdu, id, hbuild⟩ := backslash_builds
  refine ⟨pdu, id, hbuild, ?_⟩
  rintro ⟨descs, hparse, hdescribes⟩
  obtain ⟨rfl, records, rfl, hwritten⟩ := buildFileListPdu_ok hbuild
  obtain ⟨-, hrecords⟩ := (parseFileDescriptors_pdu hwritten 1).mp hparse
  rw [hwritten.parse_ok hrecords, describes_map_iff] at hdescribes
  have hname : slashed ['a', '\\', 'b'] = ['a', '\\', 'b'] := (hdescribes _ (List.mem_singleton_self _)).name
  exact absurd hname (by decide)

end FontisRemote.Clipboard
