import FontisRemote.Lib.Base64
import FontisRemote.Lib.Utf8
import FontisRemote.Transport.Encrypt

/-!
# Secrets in the configuration

`password_security.rs`: a secret is stored as `00` and the base64 of a format byte, a nonce and the
ciphertext, under a key made of the machine's id. Whether a value is stored already is told by its shape
alone (`isEncrypted`), so that a changed key does not make a ciphertext look like a password.

The cipher and base64 are those of the sodium library, a parameter here. What stands for bytes that are no
text, where a decrypted string is not one, is a parameter too, about which nothing is assumed.
-/

namespace FontisRemote.Config

open FontisRemote.Lib
open FontisRemote.Transport (Bytes Key Nonce Sodium KEYBYTES NONCEBYTES)

def MACBYTES : Nat := 16

def VERSION_LEN : Nat := 2

def FORMAT_V1 : UInt8 := 1

/-- A string: bytes that are a text. -/
structure Str where
  bytes : Bytes
  valid : Utf8 bytes
deriving DecidableEq

namespace Str

def empty : Str where
  bytes := []
  valid := .nil

/-- `s.chars().count()` -/
def charCount (s : Str) : Nat :=
  s.bytes.countP fun b => !isContinuation b

def append (s t : Str) : Str where
  bytes := s.bytes ++ t.bytes
  valid := s.valid.append t.valid

def ofAscii (bytes : Bytes) (h : ∀ b ∈ bytes, b < 128) : Str where
  bytes := bytes
  valid := .of_ascii h

end Str

/-- The bytes of `00`. -/
def encVersion : Bytes := [48, 48]

/-- `PASSWORD_ENC_VERSION` -/
def PASSWORD_ENC_VERSION : Str := .ofAscii encVersion (by decide +kernel)

/-- What the sodium library gives, and the text for bytes that are none. -/
structure Library extends Sodium where
  base64Encode : Bytes → Str
  base64Decode : Bytes → Option Bytes
  replaceInvalid : Bytes → Str

/-- The laws of base64 and `secretbox`: what is encoded is decoded again, what is sealed is opened again
under its nonce and key, and a ciphertext has the length of the message and the tag. -/
structure Library.Lawful (lib : Library) : Prop where
  decode_encode : ∀ v, lib.base64Decode (lib.base64Encode v).bytes = some v
  length_encode : ∀ v, (lib.base64Encode v).bytes.length = (v.length + 2) / 3 * 4
  open_seal : ∀ m n k, lib.secretboxOpen (lib.secretboxSeal m n k) n k = some m
  length_seal : ∀ m n k, (lib.secretboxSeal m n k).length = m.length + MACBYTES
  open_short : ∀ c n k, c.length < MACBYTES → lib.secretboxOpen c n k = none

/-- The machine: its id, and whether it is a phone. -/
structure Machine where
  uuid : Bytes
  mobile : Bool

/-- `keybuf.resize(secretbox::KEYBYTES, 0)` -/
def keyOf (keybuf : Bytes) : Key where
  bytes := (keybuf ++ List.replicate KEYBYTES 0).take KEYBYTES
  length_eq := by simp

/-- The nonce of the format before `FORMAT_V1`. -/
def legacyNonce : Nonce where
  bytes := List.replicate NONCEBYTES 0
  length_eq := List.length_replicate ..

/-- The nonce that follows the format byte. -/
def payloadNonce (data : Bytes) (h : 1 + NONCEBYTES + MACBYTES ≤ data.length) : Nonce where
  bytes := (data.drop 1).take NONCEBYTES
  length_eq := by
    simp only [List.length_take, List.length_drop]
    omega

section Functions

variable (lib : Library)

def openSecretboxPayload (data : Bytes) (key : Key) : Option Bytes :=
  if h : data.head? = some FORMAT_V1 ∧ 1 + NONCEBYTES + MACBYTES ≤ data.length then
    match lib.secretboxOpen (data.drop (1 + NONCEBYTES)) (payloadNonce data h.2) key with
    | some decrypted => some decrypted
    | none => lib.secretboxOpen data legacyNonce key
  else lib.secretboxOpen data legacyNonce key

/-- What `symmetric_crypt` is called for: to encrypt under a fresh nonce, or to decrypt, with the public
key of the existing key pair to fall back on. -/
inductive Crypt
  | encrypt (nonce : Nonce)
  | decrypt (pk : Option Bytes)

variable (m : Machine)

def symmetricCrypt (data : Bytes) : Crypt → Option Bytes
  | .encrypt nonce => some (FORMAT_V1 :: (nonce.bytes ++ lib.secretboxSeal data nonce (keyOf m.uuid)))
  | .decrypt pk =>
    match openSecretboxPayload lib data (keyOf m.uuid) with
    | some decrypted => some decrypted
    | none =>
      if m.mobile then none
      else
        match pk with
        | some pk => if pk ≠ m.uuid then openSecretboxPayload lib data (keyOf pk) else none
        | none => none

def encrypt (v : Bytes) (nonce : Nonce) : Option Str :=
  if v ≠ [] then (symmetricCrypt lib m v (.encrypt nonce)).map lib.base64Encode else none

def decrypt (v : Bytes) (pk : Option Bytes) : Option Bytes :=
  if v ≠ [] then (lib.base64Decode v).bind fun v => symmetricCrypt lib m v (.decrypt pk) else none

/-- The version, and base64 of at least a tag's length. -/
def isEncrypted (v : Bytes) : Bool :=
  if v.length ≤ VERSION_LEN || !encVersion.isPrefixOf v then false
  else
    match lib.base64Decode (v.drop VERSION_LEN) with
    | some decoded => MACBYTES ≤ decoded.length
    | none => false

def fromUtf8Lossy (v : Bytes) : Str :=
  if h : fromUtf8 v = true then ⟨v, fromUtf8_iff.1 h⟩ else lib.replaceInvalid v

def encryptStrOrOriginal (s version : Str) (maxLen : Nat) (nonce : Nonce) : Str :=
  if isEncrypted lib s.bytes then s
  else if s.charCount > maxLen then .empty
  else if version.bytes = encVersion then
    match encrypt lib m s.bytes nonce with
    | some e => version.append e
    | none => s
  else s

/-- The string, whether it was decrypted, and whether it should be stored again. -/
def decryptStrOrOriginal (s currentVersion : Str) (pk : Option Bytes) : Str × Bool × Bool :=
  let original := (s, false, decide (s.bytes ≠ []) && !isEncrypted lib s.bytes)
  if s.bytes.length > VERSION_LEN && encVersion.isPrefixOf s.bytes then
    match decrypt lib m (s.bytes.drop VERSION_LEN) pk with
    | some v => (fromUtf8Lossy lib v, true, decide (encVersion ≠ currentVersion.bytes))
    | none => original
  else original

def encryptVecOrOriginal (v : Bytes) (version : Str) (maxLen : Nat) (nonce : Nonce) : Bytes :=
  if isEncrypted lib v then v
  else if v.length > maxLen then []
  else if version.bytes = encVersion then
    match encrypt lib m v nonce with
    | some e => version.bytes ++ e.bytes
    | none => v
  else v

def decryptVecOrOriginal (v : Bytes) (currentVersion : Str) (pk : Option Bytes) : Bytes × Bool × Bool :=
  let original := (v, false, decide (v ≠ []) && !isEncrypted lib v)
  if v.length > VERSION_LEN then
    let version := v.take VERSION_LEN
    if version = encVersion then
      match decrypt lib m (v.drop VERSION_LEN) pk with
      | some decrypted => (decrypted, true, decide (version ≠ currentVersion.bytes))
      | none => original
    else original
  else original

end Functions

end FontisRemote.Config
