import FontisRemote.FileTransfer.Path
import FontisRemote.Lib.LittleEndian
import FontisRemote.Lib.Utf16

/-!
# File descriptors on the clipboard

A list of copied files goes to the peer as a count and one record of 592 bytes a file. `as_bin` of
`local_file.rs` writes the records, `parse_file_descriptor` of `filetype.rs` reads them.

Times are nanoseconds from the Unix epoch, earlier ones negative. Additions of `u64` wrap, as they do in a
release build.
-/

namespace FontisRemote.Clipboard

open FontisRemote.Lib
open FontisRemote.FileTransfer (Text validateFileNameNoTraversal)

def FLAGS_FD_ATTRIBUTES : Nat := 0x04
def FLAGS_FD_UNIX_MODE : Nat := 0x08
def FLAGS_FD_LAST_WRITE : Nat := 0x20
def FLAGS_FD_SIZE : Nat := 0x40
def FLAGS_FD_PROGRESSUI : Nat := 0x4000

def FILE_NAME_CODE_UNITS : Nat := 260
def FILE_NAME_FIELD_SIZE : Nat := FILE_NAME_CODE_UNITS * 2
def MAX_FILE_NAME_CODE_UNITS : Nat := FILE_NAME_CODE_UNITS - 1
def FILE_DESCRIPTOR_SIZE : Nat := 592

/-- The Unix epoch on the clock of the records, which counts 100 ns from 1601. -/
def LDAP_EPOCH_DELTA : Nat := 116444736000000000

def PERM_READ : UInt16 := 0o444
def PERM_RW : UInt16 := 0o644
def PERM_SELF_RO : UInt16 := 0o400
def PERM_RWX : UInt16 := 0o755

inductive CliprdrError
  | conversionFailure
  | fileError (path : Text) (err : String)
  | invalidRequest (description : String)
deriving DecidableEq, Repr

/-- `Handle path` is a file that was opened at this path, at some position. -/
structure LocalFile (Handle : Text → Type) where
  path : Text
  handle : Option (Handle path) := none
  offset : Nat := 0
  name : Text
  descriptorName : Text
  size : UInt64
  lastWriteTime : Int
  isDir : Bool
  perm : UInt32
  readOnly : Bool
  hidden : Bool
  system : Bool
  archive : Bool
  normal : Bool

inductive FileType
  | file
  | directory
deriving DecidableEq, Repr

structure FileDescription where
  connId : Int
  name : Text
  kind : FileType
  atime : Int
  lastModified : Int
  lastMetadataChanged : Int
  creationTime : Int
  size : UInt64
  perm : UInt16
  clipDataId : Int32
deriving DecidableEq, Repr

/-- FNV-1a. -/
def fileListId (fileDescriptorPdu : List UInt8) : Int32 :=
  (fileDescriptorPdu.foldl (fun (id : UInt32) byte => (id ^^^ byte.toUInt32) * 0x01000193) 0x811c9dc5).toInt32

def startsWithDrive : Text → Bool
  | letter :: ':' :: '/' :: _ => letter.isAlpha
  | _ => false

def validateFileName (name : Text) : Except CliprdrError Unit :=
  if startsWithDrive name || (name.splitOnP (· == '/')).any fun component => component == [] || component == ['.'] then
    .error (.invalidRequest "clipboard file name is not a normalized relative path")
  else
    match validateFileNameNoTraversal false name with
    | .error error => .error (.invalidRequest error)
    | .ok () => .ok ()

/-! ## Writing -/

namespace LocalFile

variable {Handle : Text → Type} (file : LocalFile Handle)

def descriptorNameTooLongError : CliprdrError :=
  .invalidRequest s!"clipboard file name exceeds {MAX_FILE_NAME_CODE_UNITS} UTF-16 code units"

/-- The name, its terminator and the rest of the field. -/
def putDescriptorName : Except CliprdrError (List UInt8) :=
  match validateFileName file.descriptorName with
  | .error error => .error error
  | .ok () =>
    let name := (encodeUtf16 file.descriptorName).flatMap (leBytes 2)
    let nameFieldSize := name.length + 2
    if FILE_NAME_FIELD_SIZE < nameFieldSize then .error descriptorNameTooLongError
    else .ok (name ++ leBytes 2 0 ++ List.replicate (FILE_NAME_FIELD_SIZE - nameFieldSize) 0)

def fileAttributes : Nat :=
  (if file.readOnly then 0x1 else 0) ||| (if file.hidden then 0x2 else 0) ||| (if file.system then 0x4 else 0) |||
    (if file.isDir then 0x10 else 0) ||| (if file.archive then 0x20 else 0) ||| (if file.normal then 0x80 else 0)

def win32Time : Nat :=
  (file.lastWriteTime.toNat / 100 % 2 ^ 64 + LDAP_EPOCH_DELTA) % 2 ^ 64

def flags : Nat :=
  FLAGS_FD_SIZE ||| FLAGS_FD_LAST_WRITE ||| FLAGS_FD_ATTRIBUTES ||| FLAGS_FD_PROGRESSUI ||| FLAGS_FD_UNIX_MODE

def asBin : Except CliprdrError (List UInt8) :=
  match file.putDescriptorName with
  | .error error => .error error
  | .ok nameField =>
    .ok (leBytes 4 flags ++ List.replicate 32 0 ++ leBytes 4 file.fileAttributes ++ List.replicate 12 0 ++
      leBytes 4 file.perm.toNat ++ leBytes 8 file.win32Time ++ leBytes 4 (file.size.toNat / 2 ^ 32) ++
      leBytes 4 (file.size.toNat % 2 ^ 32) ++ nameField)

end LocalFile

/-- The records one after the other. -/
def putFiles {Handle : Text → Type} : List (LocalFile Handle) → Except CliprdrError (List UInt8)
  | [] => .ok []
  | file :: files =>
    match file.asBin with
    | .error error => .error error
    | .ok record =>
      match putFiles files with
      | .error error => .error error
      | .ok records => .ok (record ++ records)

/-- The random bytes go where every peer skips them, into the first record if there is one. -/
def writeNonce (nonce : Vector UInt8 16) (pdu : List UInt8) : List UInt8 :=
  if 24 ≤ pdu.length then pdu.take 8 ++ nonce.toList ++ pdu.drop 24 else pdu

/-- The PDU of a list and its id. -/
def buildFileListPdu {Handle : Text → Type} (files : List (LocalFile Handle)) (nonce : Vector UInt8 16) :
    Except CliprdrError (List UInt8 × Int32) :=
  match putFiles files with
  | .error error => .error error
  | .ok records =>
    let filesPdu := writeNonce nonce (leBytes 4 (files.length % 2 ^ 32) ++ records)
    .ok (filesPdu, fileListId filesPdu)

/-! ## Reading -/

/-- The name in a record's field, up to the first zero unit. -/
def parseName (block : List UInt8) : Except CliprdrError Text :=
  match (leUnits block).findIdx? (· == 0) with
  | none => .error (.invalidRequest "clipboard file name is not null-terminated")
  | some nameEnd =>
    match decodeUtf16 ((leUnits block).take nameEnd) with
    | none => .error .conversionFailure
    | some name => .ok name

def parsePerm (flags attributes perm : Nat) : UInt16 :=
  if flags &&& FLAGS_FD_UNIX_MODE ≠ 0 then UInt16.ofNat perm
  else if attributes = 0x80 then PERM_RWX
  else if attributes &&& 0x10 ≠ 0 then PERM_RWX
  else if attributes &&& 0x01 ≠ 0 then PERM_READ
  else if attributes &&& 0x02 ≠ 0 then PERM_SELF_RO
  else PERM_RW

def parseLastModified (flags lastWriteTime : Nat) : Int :=
  if flags &&& FLAGS_FD_LAST_WRITE ≠ 0 ∧ LDAP_EPOCH_DELTA ≤ lastWriteTime then
    let lastWriteTime := lastWriteTime - LDAP_EPOCH_DELTA
    lastWriteTime / 10000000 * 1000000000 + lastWriteTime % 10000000 * 100
  else 0

def slashed (name : Text) : Text :=
  name.map fun c => if c = '\\' then '/' else c

/-- The description in the bytes at the front, which are a whole record, and the bytes after it. -/
def parseFileDescriptor (bytes : List UInt8) (connId : Int) (clipDataId : Int32) :
    Except CliprdrError (FileDescription × List UInt8) :=
  let (flags, bytes) := getLe 4 bytes
  let bytes := bytes.drop 32
  let (attributes, bytes) := getLe 4 bytes
  let bytes := bytes.drop 12
  let (perm, bytes) := getLe 4 bytes
  let (lastWriteTime, bytes) := getLe 8 bytes
  let (fileSizeHigh, bytes) := getLe 4 bytes
  let (fileSizeLow, bytes) := getLe 4 bytes
  match parseName (bytes.take FILE_NAME_FIELD_SIZE) with
  | .error error => .error error
  | .ok wstr =>
    if flags &&& FLAGS_FD_ATTRIBUTES = 0 then
      .error (.invalidRequest "file description must have valid attributes")
    else
      let lastModified := parseLastModified flags lastWriteTime
      let name := slashed wstr
      match validateFileName name with
      | .error error => .error error
      | .ok () =>
        .ok ({
          connId := connId
          name := name
          kind := if attributes &&& 0x10 ≠ 0 then .directory else .file
          atime := lastModified
          lastModified := lastModified
          lastMetadataChanged := lastModified
          creationTime := lastModified
          size := UInt64.ofNat (fileSizeHigh * 2 ^ 32 + fileSizeLow)
          perm := parsePerm flags attributes perm
          clipDataId := clipDataId }, bytes.drop FILE_NAME_FIELD_SIZE)

def parseRecords (connId : Int) (clipDataId : Int32) :
    (count : Nat) → (bytes : List UInt8) → Except CliprdrError (List FileDescription)
  | 0, _ => .ok []
  | count + 1, bytes =>
    match parseFileDescriptor bytes connId clipDataId with
    | .error error => .error error
    | .ok (desc, bytes) =>
      match parseRecords connId clipDataId count bytes with
      | .error error => .error error
      | .ok files => .ok (desc :: files)

def parseFileDescriptors (fileDescriptorPdu : List UInt8) (connId : Int) :
    Except CliprdrError (List FileDescription) :=
  let clipDataId := fileListId fileDescriptorPdu
  if fileDescriptorPdu.length < 4 then
    .error (.invalidRequest "file descriptor request with infficient length")
  else
    let (count, data) := getLe 4 fileDescriptorPdu
    if data.length = 0 ∧ count = 0 then .ok []
    else if data.length ≠ FILE_DESCRIPTOR_SIZE * count then
      .error (.invalidRequest "file descriptor request with invalid length")
    else parseRecords connId clipDataId count data

end FontisRemote.Clipboard
