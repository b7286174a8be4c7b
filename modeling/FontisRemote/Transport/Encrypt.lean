import FontisRemote.Lib.Framing
import FontisRemote.Lib.Run

/-!
# The encrypted stream

`Encrypt` of the transport: a sending key, the two counters that the nonces are made of, and the
receiving key where the key exchange split it. `FramedStream.next` and `WsFramedStream.next` hand each
frame of the wire to `Encrypt.dec`; a frame of at most one byte goes through as it is, which is how the
rendezvous connection keeps its empty heartbeats outside the encryption. The cipher and the keyed hash
are those of the sodium library, a parameter here (`Sodium`).

The counters are 64-bit words and come round as the release build's do.
-/

namespace FontisRemote.Transport

open FontisRemote.Lib

abbrev Bytes := List UInt8

def KEYBYTES : Nat := 32

def NONCEBYTES : Nat := 24

def PUBLICKEYBYTES : Nat := 32

/-- A key of `secretbox`. -/
structure Key where
  bytes : Bytes
  length_eq : bytes.length = KEYBYTES
deriving DecidableEq

/-- A nonce of `secretbox`. -/
structure Nonce where
  bytes : Bytes
  length_eq : bytes.length = NONCEBYTES
deriving DecidableEq

/-- What the stream uses of the sodium library: `secretbox::seal`, `secretbox::open` and the hash
`generichash` of the concatenated parts under a key, with a key's length of output. -/
structure Sodium where
  secretboxSeal : Bytes → Nonce → Key → Bytes
  secretboxOpen : Bytes → Nonce → Key → Option Bytes
  generichash : Key → Bytes → Option Key

inductive ErrorKind
  | other
  | invalidData
deriving DecidableEq, Repr

structure Error where
  kind : ErrorKind
  text : String
deriving DecidableEq, Repr

/-! ## Numbers on the wire -/

/-- The lowest `width` bytes of a number, lowest first. -/
def toLeBytes (width n : Nat) : Bytes := (List.range width).map fun i => UInt8.ofNat (n / 256 ^ i)

@[simp] theorem length_toLeBytes (width n : Nat) : (toLeBytes width n).length = width := by
  simp [toLeBytes]

theorem toLeBytes_inj {width n m : Nat} (hn : n < 256 ^ width) (hm : m < 256 ^ width)
    (h : toLeBytes width n = toLeBytes width m) : n = m := by
  refine eq_of_digits width hn hm fun i hi => ?_
  have hbyte := List.map_inj_left.1 h i (List.mem_range.2 hi)
  simpa using congrArg UInt8.toNat hbyte

/-- `FramedStream::get_nonce`: the counter in the first eight bytes. -/
def getNonce (seqnum : UInt64) : Nonce where
  bytes := toLeBytes 8 seqnum.toNat ++ List.replicate (NONCEBYTES - 8) 0
  length_eq := by simp [NONCEBYTES]

theorem getNonce_inj {a b : UInt64} (h : getNonce a = getNonce b) : a = b := by
  have hbytes := congrArg Nonce.bytes h
  have hle := (List.append_inj hbytes (by simp)).1
  refine UInt64.toNat_inj.1 (toLeBytes_inj ?_ ?_ hle)
  · exact a.toNat_lt
  · exact b.toNat_lt

/-! ## Keys -/

/-- What both sides saw during the key exchange. -/
structure KxTranscript where
  initiatorPk : Bytes
  responderPk : Bytes
  advertised : UInt32
  picked : UInt32
deriving DecidableEq

/-- The bytes of `rdkx-spl`. -/
def KX_SPLIT_CONTEXT : Bytes := [0x72, 0x64, 0x6b, 0x78, 0x2d, 0x73, 0x70, 0x6c]

def KX_SPLIT_INITIATOR : UInt8 := 1

def KX_SPLIT_RESPONDER : UInt8 := 2

/-- The sending key, the send and receive counters, and the receiving key where it differs. -/
structure Encrypt where
  key : Key
  sent : UInt64
  received : UInt64
  receivingKey : Option Key
deriving DecidableEq

namespace Encrypt

variable (so : Sodium)

/-- What the hash is fed, in one piece. -/
def subkeyInput (direction : UInt8) (t : KxTranscript) : Bytes :=
  KX_SPLIT_CONTEXT ++ [direction] ++ toLeBytes 4 t.advertised.toNat ++ toLeBytes 4 t.picked.toNat ++
    t.initiatorPk ++ t.responderPk

def deriveSubkey (key : Key) (direction : UInt8) (t : KxTranscript) : Except String Key :=
  if t.initiatorPk.length ≠ PUBLICKEYBYTES ∨ t.responderPk.length ≠ PUBLICKEYBYTES then
    .error "key exchange transcript has a public key of the wrong length"
  else
    match so.generichash key (subkeyInput direction t) with
    | none => .error "key derivation failed"
    | some subkey => .ok subkey

/-- The initiator sends under one subkey and receives under the other; the responder the reverse. -/
def newSplit (key : Key) (isInitiator : Bool) (t : KxTranscript) : Except String Encrypt := do
  let initiator ← deriveSubkey so key KX_SPLIT_INITIATOR t
  let responder ← deriveSubkey so key KX_SPLIT_RESPONDER t
  return if isInitiator then ⟨initiator, 0, 0, some responder⟩ else ⟨responder, 0, 0, some initiator⟩

/-- A frame that opens is replaced by its message. The counter has moved on also when it does not. -/
def dec (e : Encrypt) (bytes : Bytes) : Except Error Bytes × Encrypt :=
  if bytes.length ≤ 1 then
    (.ok bytes, e)
  else
    let e := { e with received := e.received + 1 }
    match so.secretboxOpen bytes (getNonce e.received) (e.receivingKey.getD e.key) with
    | some res => (.ok res, e)
    | none => (.error ⟨.other, "decryption error"⟩, e)

def enc (e : Encrypt) (data : Bytes) : Bytes × Encrypt :=
  let e := { e with sent := e.sent + 1 }
  (so.secretboxSeal data (getNonce e.sent) e.key, e)

theorem dec_short (e : Encrypt) {bytes : Bytes} (h : bytes.length ≤ 1) : e.dec so bytes = (.ok bytes, e) :=
  if_pos h

theorem dec_long_snd (e : Encrypt) {bytes : Bytes} (h : 1 < bytes.length) :
    (e.dec so bytes).2 = { e with received := e.received + 1 } := by
  simp only [dec, Nat.not_le.2 h, if_false]
  split <;> rfl

theorem dec_long_ok_iff (e : Encrypt) {bytes m : Bytes} (h : 1 < bytes.length) :
    (e.dec so bytes).1 = .ok m ↔
      so.secretboxOpen bytes (getNonce (e.received + 1)) (e.receivingKey.getD e.key) = some m := by
  simp only [dec, Nat.not_le.2 h, if_false]
  split
  · next res hres => rw [hres, Except.ok.injEq, Option.some.injEq]
  · next hnone => simp [hnone]

end Encrypt

/-! ## What a call of `next` returns -/

/-- `FramedStream::next`, given what its codec yields. -/
def FramedStream.next (so : Sodium) (key : Option Encrypt) (res : Option (Except Error Bytes)) :
    Option (Except Error Bytes) × Option Encrypt :=
  match res, key with
  | some (.ok bytes), some key =>
    let (r, key) := key.dec so bytes
    (some r, some key)
  | res, key => (res, key)

inductive WsMessage
  | binary (data : Bytes)
  | text (text : Bytes)
  | ping (data : Bytes)
  | pong (data : Bytes)
  | close
  | frame (data : Bytes)
deriving DecidableEq

/-- `WsFramedStream::next`, given what its stream yields until it ends. -/
def WsFramedStream.next (so : Sodium) (encrypt : Option Encrypt) :
    List (Except String WsMessage) → Option (Except Error Bytes) × Option Encrypt
  | [] => (none, encrypt)
  | .error e :: _ => (some (.error ⟨.other, "WebSocket protocol error: " ++ e⟩), encrypt)
  | .ok (.binary data) :: _ =>
    match encrypt with
    | some key =>
      let (r, key) := key.dec so data
      (some r, some key)
    | none => (some (.ok data), none)
  | .ok (.text text) :: _ =>
    if encrypt.isSome then
      (some (.error ⟨.invalidData, "WebSocket text frame received after encryption was enabled"⟩), encrypt)
    else
      (some (.ok text), encrypt)
  | .ok .close :: _ => (none, encrypt)
  | .ok (.ping _) :: rest => next so encrypt rest
  | .ok (.pong _) :: rest => next so encrypt rest
  | .ok (.frame _) :: rest => next so encrypt rest

/-- What the wire hands to one call of `next`, on either transport. -/
inductive Arrival
  | tcp (res : Option (Except Error Bytes))
  | ws (stream : List (Except String WsMessage))

def Arrival.next (so : Sodium) (encrypt : Option Encrypt) :
    Arrival → Option (Except Error Bytes) × Option Encrypt
  | .tcp res => FramedStream.next so encrypt res
  | .ws stream => WsFramedStream.next so encrypt stream

/-- The binary message a web socket gets to, past what it skips. -/
def wsFrame : List (Except String WsMessage) → Option Bytes
  | .ok (.binary data) :: _ => some data
  | .ok (.ping _) :: rest => wsFrame rest
  | .ok (.pong _) :: rest => wsFrame rest
  | .ok (.frame _) :: rest => wsFrame rest
  | _ => none

/-- The frame that the call hands to `dec`. -/
def Arrival.frame : Arrival → Option Bytes
  | .tcp (some (.ok bytes)) => some bytes
  | .tcp _ => none
  | .ws stream => wsFrame stream

theorem wsNext_of_frame (so : Sodium) (e : Encrypt) {stream : List (Except String WsMessage)} {c : Bytes}
    (h : wsFrame stream = some c) :
    WsFramedStream.next so (some e) stream = (some (e.dec so c).1, some (e.dec so c).2) := by
  fun_induction wsFrame stream with
  | case1 data rest =>
    cases h
    rfl
  | case2 _ rest ih => exact ih h
  | case3 _ rest ih => exact ih h
  | case4 _ rest ih => exact ih h
  | case5 => cases h

theorem wsNext_of_no_frame (so : Sodium) (e : Encrypt) {stream : List (Except String WsMessage)}
    (h : wsFrame stream = none) :
    (WsFramedStream.next so (some e) stream).2 = some e ∧
      ∀ m, (WsFramedStream.next so (some e) stream).1 ≠ some (.ok m) := by
  fun_induction WsFramedStream.next so (some e) stream with
  | case1 => exact ⟨rfl, nofun⟩
  | case2 => exact ⟨rfl, nofun⟩
  | case3 => cases h
  | case4 => cases h
  | case5 => exact ⟨rfl, nofun⟩
  | case6 _ _ hnone => exact absurd rfl hnone
  | case7 => exact ⟨rfl, nofun⟩
  | case8 _ rest ih => exact ih h
  | case9 _ rest ih => exact ih h
  | case10 _ rest ih => exact ih h

/-- A call that gets a frame returns what `dec` makes of it. -/
theorem Arrival.next_of_frame (so : Sodium) (e : Encrypt) {a : Arrival} {c : Bytes} (h : a.frame = some c) :
    a.next so (some e) = (some (e.dec so c).1, some (e.dec so c).2) := by
  cases a with
  | tcp res =>
    rcases res with _ | _ | bytes
    · cases h
    · cases h
    · cases h
      rfl
  | ws stream => exact wsNext_of_frame so e h

/-- A call that gets none delivers nothing and leaves the counters alone. -/
theorem Arrival.next_of_no_frame (so : Sodium) (e : Encrypt) {a : Arrival} (h : a.frame = none) :
    (a.next so (some e)).2 = some e ∧ ∀ m, (a.next so (some e)).1 ≠ some (.ok m) := by
  cases a with
  | tcp res =>
    rcases res with _ | _ | bytes
    · exact ⟨rfl, nofun⟩
    · exact ⟨rfl, nofun⟩
    · cases h
  | ws stream => exact wsNext_of_no_frame so e h

end FontisRemote.Transport
