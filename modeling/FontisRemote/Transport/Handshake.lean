import FontisRemote.Transport.Encrypt

/-!
# The key exchange of two peers

`identity_handshake` of the controlled side and `Client::secure_connection` of the controller. The
controlled side signs a fresh public key together with the newest version it speaks; the controller
seals a key to it and says, unsigned, which version it picked. Each side then keys its stream from what
it saw itself (`set_negotiated_key`): version 0 uses the exchanged key as it is, version 1 one key for
each direction with the transcript mixed in.

Signatures, boxes and the encoding of `IdPk` come from libraries and are parameters (`KxLib`). What a
handshake draws and what reaches it from the wire are in its record, so a handshake is a function of
that record.
-/

namespace FontisRemote.Transport

/-- The newest version this build speaks. -/
def KX_VERSION_LATEST : UInt32 := 1

/-- The highest version both sides support. -/
def kxVersionFor (advertised : UInt32) : UInt32 :=
  min advertised KX_VERSION_LATEST

structure IdPk where
  id : String
  pk : Bytes
  dtlsFingerprint : String
  kxVersion : UInt32
deriving DecidableEq

/-- What the handshakes use besides: `sign::sign` and `sign::verify`, `box_::seal` and `box_::open` with
the nonce of zeros, and the encoding of `IdPk`. -/
structure KxLib extends Sodium where
  sign : Bytes → Bytes → Bytes
  verify : Bytes → Bytes → Option Bytes
  boxSeal : Bytes → Bytes → Bytes → Bytes
  boxOpen : Bytes → Bytes → Bytes → Option Bytes
  writeIdPk : IdPk → Bytes
  parseIdPk : Bytes → Option IdPk

def SIGNPUBLICKEYBYTES : Nat := 32

def SIGNSECRETKEYBYTES : Nat := 64

/-- `Stream`. -/
inductive StreamKind
  | tcp
  | webSocket
  | webRtc
deriving DecidableEq, Repr

/-- `Message`, as far as the handshakes tell messages apart. -/
inductive HandshakeMessage
  | empty
  | signedId (id : Bytes)
  | publicKey (asymmetricValue symmetricValue : Bytes) (kxVersion : UInt32)
  | other
deriving DecidableEq

/-- What `timeout(stream.next())` gives: bytes are what they parse as, or nothing. -/
inductive Arrived
  | timedOut
  | closed
  | failed (error : String)
  | bytes (msg : Option HandshakeMessage)
deriving DecidableEq

/-- What `set_negotiated_key` is called with. -/
structure Negotiated where
  key : Key
  isInitiator : Bool
  transcript : KxTranscript
deriving DecidableEq

/-- What a handshake has done: the messages it sent, what it negotiated and the key its stream has. -/
structure Outcome where
  sent : List HandshakeMessage := []
  negotiated : Option Negotiated := none
  encrypt : Option Encrypt := none
  result : Except String (Option Bytes)

section

variable (lib : KxLib)

def Encrypt.new (key : Key) : Encrypt :=
  ⟨key, 0, 0, none⟩

/-- `Stream::set_negotiated_key`. A WebRTC stream takes no key of its own. -/
def setNegotiatedKey (stream : StreamKind) (n : Negotiated) : Except String (Option Encrypt) :=
  if n.transcript.picked = 0 then
    .ok (if stream = .webRtc then none else some (Encrypt.new n.key))
  else if n.transcript.picked = 1 then
    if stream = .webRtc then .error "key exchange version 1 does not apply to WebRTC"
    else (Encrypt.newSplit lib.toSodium n.key n.isInitiator n.transcript).map some
  else .error s!"unsupported key exchange version {n.transcript.picked}"

/-- The stream is keyed, or the handshake fails. -/
def negotiate (stream : StreamKind) (sent : List HandshakeMessage) (n : Negotiated)
    (result : Option Bytes) : Outcome :=
  match setNegotiatedKey lib stream n with
  | .error e => { sent := sent, negotiated := some n, result := .error e }
  | .ok encrypt => { sent := sent, negotiated := some n, encrypt := encrypt, result := .ok result }

/-- `decode_id_pk_dtls`. -/
def decodeIdPkDtls (signed key : Bytes) : Except String (String × Bytes × String × UInt32) :=
  match lib.verify signed key with
  | none => .error "Signature mismatch"
  | some bytes =>
    match lib.parseIdPk bytes with
    | none => .error "protobuf"
    | some res =>
      if res.pk.length = 32 then .ok (res.id, res.pk, res.dtlsFingerprint, res.kxVersion)
      else .error "Wrong their public length"

def decodeIdPk (signed key : Bytes) : Except String (String × Bytes) :=
  (decodeIdPkDtls lib signed key).map fun r => (r.1, r.2.1)

def dtlsFingerprintBound (signedFp actualFp : String) : Bool :=
  !signedFp.isEmpty && signedFp == actualFp

/-- `Encrypt::decode`. -/
def Encrypt.decode (symmetricData theirPk ourSk : Bytes) : Except String Key :=
  if theirPk.length ≠ PUBLICKEYBYTES then
    .error s!"Handshake failed: pk length {theirPk.length}"
  else
    match lib.boxOpen symmetricData theirPk ourSk with
    | none => .error "Handshake failed: box decryption failure"
    | some bytes =>
      if h : bytes.length = KEYBYTES then .ok ⟨bytes, h⟩
      else .error "Handshake failed: invalid secret key length from peer"

end

/-! ## The controller -/

/-- A call of `secure_connection`, with the keys it draws in `create_symmetric_key_msg`. -/
structure Controller where
  peerId : String
  signedIdPk : Bytes
  /-- `get_rs_pk` of the configured key. -/
  rsPk : Option Bytes
  stream : StreamKind
  /-- `dtls_fingerprint(false)`. -/
  actualFp : Option String
  /-- Whether `send` succeeds. -/
  sends : Bool
  arrives : Arrived
  pk : Bytes
  sk : Bytes
  key : Key

namespace Controller

variable (lib : KxLib) (c : Controller)

/-- The peer's verified signing key, `sign_pk`. -/
def signPk : Option Bytes :=
  if c.signedIdPk = [] then none
  else
    match c.rsPk with
    | none => none
    | some rsPk =>
      match decodeIdPk lib c.signedIdPk rsPk with
      | .error _ => none
      | .ok (id, pk) => if id = c.peerId then some pk else none

/-- A message goes out and the handshake ends without a key. -/
def unsecured (msg : HandshakeMessage) : Outcome :=
  if c.sends then { sent := [msg], result := .ok (c.signPk lib) } else { result := .error "send" }

/-- The same, except that a WebRTC stream is refused. -/
def fallBack (refused : String) (msg : HandshakeMessage) : Outcome :=
  if c.stream = .webRtc then { result := .error refused } else c.unsecured lib msg

/-- Why the channel of a WebRTC stream is not the verified peer's. -/
def unbound (signedFp : String) : Option String :=
  if c.stream = .webRtc then
    match c.actualFp with
    | none => some "WebRTC DTLS fingerprint unavailable"
    | some actualFp =>
      if dtlsFingerprintBound signedFp actualFp then none
      else some "WebRTC DTLS fingerprint not bound to peer identity (possible MITM)"
  else none

/-- What the controller picks, for what it sees as advertised. -/
def picked (kxVersion : UInt32) : UInt32 :=
  if c.stream = .webRtc then 0 else kxVersionFor kxVersion

/-- `create_symmetric_key_msg` and what follows. -/
def exchange (theirPk : Bytes) (kxVersion : UInt32) : Outcome :=
  let picked := c.picked kxVersion
  if c.sends then
    negotiate lib c.stream [.publicKey c.pk (lib.boxSeal c.key.bytes theirPk c.sk) picked]
      { key := c.key
        isInitiator := true
        transcript := ⟨c.pk, theirPk, kxVersion, picked⟩ } (c.signPk lib)
  else { result := .error "send" }

def secureConnection : Outcome :=
  match c.signPk lib with
  | none => c.unsecured lib .empty
  | some signPk =>
    match c.arrives with
    | .timedOut => { result := .error "deadline has elapsed" }
    | .closed => { result := .error "Reset by the peer" }
    | .failed e => { result := .error e }
    | .bytes none => c.fallBack lib "WebRTC handshake received a malformed message" .empty
    | .bytes (some (.signedId signed)) =>
      match decodeIdPkDtls lib signed signPk with
      | .error _ =>
        c.fallBack lib "WebRTC peer identity could not be verified (refusing unbound channel)"
          (.publicKey [] [] 0)
      | .ok (id, theirPk, signedFp, kxVersion) =>
        if id = c.peerId then
          match c.unbound signedFp with
          | some e => { result := .error e }
          | none => c.exchange lib theirPk kxVersion
        else c.fallBack lib "WebRTC handshake id mismatch (possible MITM)" .empty
    | .bytes (some _) =>
      c.fallBack lib "WebRTC handshake received an unexpected message type" .empty

/-- The public key its own key was sealed to, if it came to that. -/
def sealedTo : Option Bytes :=
  (c.secureConnection lib).negotiated.map fun n => n.transcript.responderPk

end Controller

/-! ## The controlled side -/

/-- The identity of the controlled side, `Config::get_id` and `Config::get_key_pair`. -/
structure Device where
  id : String
  pk : Bytes
  sk : Bytes

/-- `switch_grant_signed_msg`: what the device key signs besides its identities. -/
def switchGrantSignedMsg (id switchCodeVerifier timestamp : String) : Bytes :=
  -- `switch-grant` and a zero
  [0x73, 0x77, 0x69, 0x74, 0x63, 0x68, 0x2d, 0x67, 0x72, 0x61, 0x6e, 0x74, 0x00] ++
    id.toUTF8.data.toList ++ [0] ++ switchCodeVerifier.toUTF8.data.toList ++ [0] ++ timestamp.toUTF8.data.toList

/-- A call of `identity_handshake`, with the key pair it draws. -/
structure Session where
  secure : Bool
  stream : StreamKind
  /-- `dtls_fingerprint(true)`. -/
  fingerprint : Option String
  sends : Bool
  arrives : Arrived
  pk : Bytes
  sk : Bytes

namespace Session

variable (lib : KxLib) (device : Device) (s : Session)

def advertised : UInt32 :=
  if s.stream = .webRtc then 0 else KX_VERSION_LATEST

/-- What it signs. -/
def idPk : IdPk where
  id := device.id
  pk := s.pk
  dtlsFingerprint := s.fingerprint.getD ""
  kxVersion := s.advertised

def signedId : HandshakeMessage :=
  .signedId (lib.sign (lib.writeIdPk (s.idPk device)) device.sk)

/-- A `PublicKey` has arrived. -/
def accept (asymmetricValue symmetricValue : Bytes) (kxVersion : UInt32) : Outcome :=
  let sent := [s.signedId lib device]
  if asymmetricValue.length = PUBLICKEYBYTES then
    match Encrypt.decode lib symmetricValue asymmetricValue s.sk with
    | .error e => { sent := sent, result := .error e }
    | .ok key =>
      if kxVersion > s.advertised then
        { sent := sent,
          result := .error
            s!"Handshake failed: key exchange version {kxVersion} not offered, {s.advertised} was" }
      else
        negotiate lib s.stream sent
          { key := key
            isInitiator := false
            transcript := ⟨asymmetricValue, s.pk, s.advertised, kxVersion⟩ } none
  else if asymmetricValue = [] then { sent := sent, result := .ok none }
  else
    { sent := sent,
      result := .error "Handshake failed: invalid public sign key length from peer" }

def identityHandshake : Outcome :=
  if s.secure ∧ device.pk.length = SIGNPUBLICKEYBYTES ∧ device.sk.length = SIGNSECRETKEYBYTES then
    if s.stream = .webRtc ∧ s.fingerprint.getD "" = "" then
      { result := .error "WebRTC local DTLS fingerprint unavailable" }
    else if s.sends then
      let sent := [s.signedId lib device]
      match s.arrives with
      | .timedOut => { sent := sent, result := .error "deadline has elapsed" }
      | .closed => { sent := sent, result := .error "Failed to receive public key" }
      | .failed e => { sent := sent, result := .error e }
      | .bytes none => { sent := sent, result := .error "Handshake failed: invalid message format" }
      | .bytes (some (.publicKey asymmetricValue symmetricValue kxVersion)) =>
        s.accept lib device asymmetricValue symmetricValue kxVersion
      | .bytes (some _) => { sent := sent, result := .ok none }
    else { result := .error "send" }
  else { result := .ok none }

end Session

end FontisRemote.Transport
