import FontisRemote.Transport.Handshake

/-!
# Agreement of the key exchange

Any number of handshakes of one controlled side and of controllers, of whatever peers, with an attacker
who hands each of them what it likes. `World.Ideal` says what is assumed of the libraries: no forged
signature, no box that opens elsewhere or tells its content, no collision of the keyed hash, no frame
that opens under another key.

Every key a stream works with is the exchanged key itself or a hash of it with the transcript
(`Negotiated.Uses`). Two ends that use the same one have therefore either hashed the same key and
transcript, or one of them runs version 0. The controlled side signs version 1 together with its public
key, so for the second case the attacker would have had to know the controller's key.
-/

namespace FontisRemote.Transport

/-- All handshakes there are, and the attacker. -/
structure World where
  device : Device
  sessions : List Session
  controllers : List Controller
  /-- What the attacker ever knows. -/
  known : Bytes → Prop
  /-- A box to this public key opens under this secret key. There is more than one such public key, as
  one bit of it is ignored. -/
  opens : Bytes → Bytes → Prop

namespace World

variable (lib : KxLib) (w : World)

/-- Something that one of the handshakes has come to. -/
def Some (P : Outcome → Prop) : Prop :=
  (∃ c ∈ w.controllers, P (c.secureConnection lib)) ∨
    ∃ s ∈ w.sessions, P (s.identityHandshake lib w.device)

def Negotiates (n : Negotiated) : Prop :=
  w.Some lib fun o => o.negotiated = some n

def Holds (e : Encrypt) : Prop :=
  w.Some lib fun o => o.encrypt = some e

/-- What is assumed of signatures, boxes, the keyed hash and `secretbox`. -/
structure Ideal : Prop where
  /-- Only what the controlled side signed verifies. -/
  signature : ∀ signed m, lib.verify signed w.device.pk = some m →
    (∃ s ∈ w.sessions, m = lib.writeIdPk (s.idPk w.device)) ∨
      ∃ switchCodeVerifier timestamp, m = switchGrantSignedMsg w.device.id switchCodeVerifier timestamp
  /-- A switch grant is no message: its second byte has a wire type that does not exist. -/
  grant : ∀ switchCodeVerifier timestamp,
    lib.parseIdPk (switchGrantSignedMsg w.device.id switchCodeVerifier timestamp) = none
  encoding : ∀ s ∈ w.sessions,
    lib.parseIdPk (lib.writeIdPk (s.idPk w.device)) = some (s.idPk w.device)
  /-- What opens is a controller's key in a box to this session, or was put there by the attacker. -/
  box : ∀ s ∈ w.sessions, ∀ sealed pk m, lib.boxOpen sealed pk s.sk = some m →
    w.known m ∨ ∃ c ∈ w.controllers, ∃ pk', c.sealedTo lib = some pk' ∧ w.opens pk' s.sk ∧
      m = c.key.bytes
  fresh : ∀ s ∈ w.sessions, ∀ s' ∈ w.sessions, w.opens s.pk s'.sk → s = s'
  /-- A key in a box to a session stays secret, and the hashes under it. -/
  secret : ∀ c ∈ w.controllers, ∀ s ∈ w.sessions, c.sealedTo lib = some s.pk →
    ¬ w.known c.key.bytes ∧ ∀ n, (c.secureConnection lib).negotiated = some n → ∀ direction h,
      lib.generichash c.key (Encrypt.subkeyInput direction n.transcript) = some h → ¬ w.known h.bytes
  drawn : ∀ c ∈ w.controllers, ∀ c' ∈ w.controllers, c.key = c'.key → c = c'
  /-- The hash is injective where it is used, -/
  hash : ∀ n n', w.Negotiates lib n → w.Negotiates lib n' → ∀ direction direction' h,
    lib.generichash n.key (Encrypt.subkeyInput direction n.transcript) = some h →
    lib.generichash n'.key (Encrypt.subkeyInput direction' n'.transcript) = some h →
    n.key = n'.key ∧
      Encrypt.subkeyInput direction n.transcript = Encrypt.subkeyInput direction' n'.transcript
  /-- and gives nobody's drawn key. -/
  hash_drawn : ∀ n, w.Negotiates lib n → ∀ c ∈ w.controllers, ∀ direction,
    lib.generichash n.key (Encrypt.subkeyInput direction n.transcript) ≠ some c.key
  secretbox : ∀ e e', w.Holds lib e → w.Holds lib e' → ∀ data nonce nonce' m,
    lib.secretboxOpen (lib.secretboxSeal data nonce e.key) nonce' (e'.receivingKey.getD e'.key) =
      some m → e'.receivingKey.getD e'.key = e.key
  /-- A frame has its authenticator in front. -/
  overhead : ∀ data nonce key, 1 < (lib.secretboxSeal data nonce key).length

end World

/-! ## The keys of a stream -/

theorem Key.bytes_inj {a b : Key} (h : a.bytes = b.bytes) : a = b := by
  cases a
  cases b
  cases h
  rfl

namespace Encrypt

/-- The transcript can be read off what is hashed. -/
theorem subkeyInput_inj {direction direction' : UInt8} {t t' : KxTranscript}
    (hi : t.initiatorPk.length = t'.initiatorPk.length)
    (h : subkeyInput direction t = subkeyInput direction' t') : t = t' := by
  obtain ⟨initiatorPk, responderPk, advertised, picked⟩ := t
  obtain ⟨initiatorPk', responderPk', advertised', picked'⟩ := t'
  unfold subkeyInput at h
  simp only [List.append_assoc] at h
  obtain ⟨-, h⟩ := List.append_inj h rfl
  obtain ⟨-, h⟩ := List.append_inj h rfl
  obtain ⟨hadvertised, h⟩ := List.append_inj h (by simp)
  obtain ⟨hpicked, h⟩ := List.append_inj h (by simp)
  obtain ⟨rfl, rfl⟩ := List.append_inj h hi
  obtain rfl : advertised = advertised' :=
    UInt32.toNat_inj.1 (toLeBytes_inj advertised.toNat_lt advertised'.toNat_lt hadvertised)
  obtain rfl : picked = picked' :=
    UInt32.toNat_inj.1 (toLeBytes_inj picked.toNat_lt picked'.toNat_lt hpicked)
  rfl

theorem deriveSubkey_ok {so : Sodium} {key subkey : Key} {direction : UInt8} {t : KxTranscript}
    (h : deriveSubkey so key direction t = .ok subkey) :
    t.initiatorPk.length = PUBLICKEYBYTES ∧
      so.generichash key (subkeyInput direction t) = some subkey := by
  unfold deriveSubkey at h
  split at h
  · cases h
  · rename_i hlen
    refine ⟨?_, ?_⟩
    · by_contra hne
      exact hlen (.inl hne)
    · split at h
      · cases h
      · rename_i hsome
        cases h
        exact hsome

/-- A frame of one end that the other end's `dec` takes, whatever both have sent and received before. -/
def Accepts (so : Sodium) (sender receiver : Encrypt) : Prop :=
  ∃ sent received data m,
    ({ receiver with received := received }.dec so ({ sender with sent := sent }.enc so data).1).1 =
      .ok m

end Encrypt

namespace Negotiated

/-- The key under which a stream sends in a direction, or receives. -/
def Uses (so : Sodium) (n : Negotiated) (direction : UInt8) (key : Key) : Prop :=
  (n.transcript.picked = 0 ∧ key = n.key) ∨
    (n.transcript.picked = 1 ∧ n.transcript.initiatorPk.length = PUBLICKEYBYTES ∧
      so.generichash n.key (Encrypt.subkeyInput direction n.transcript) = some key)

variable {lib : KxLib} {n : Negotiated} {stream : StreamKind} {e : Encrypt}

/-- The direction of what a side sends. -/
def outgoing (n : Negotiated) : UInt8 :=
  if n.isInitiator then KX_SPLIT_INITIATOR else KX_SPLIT_RESPONDER

def incoming (n : Negotiated) : UInt8 :=
  if n.isInitiator then KX_SPLIT_RESPONDER else KX_SPLIT_INITIATOR

theorem uses_of_setNegotiatedKey (h : setNegotiatedKey lib stream n = .ok (some e)) :
    n.Uses lib.toSodium n.outgoing e.key ∧
      n.Uses lib.toSodium n.incoming (e.receivingKey.getD e.key) := by
  unfold setNegotiatedKey at h
  split at h
  · rename_i hzero
    split at h
    · cases h
    · cases h
      exact ⟨.inl ⟨hzero, rfl⟩, .inl ⟨hzero, rfl⟩⟩
  split at h
  · rename_i hone
    split at h
    · cases h
    -- version 1: both subkeys, swapped between the two sides
    simp only [Encrypt.newSplit, bind, Except.bind, Except.map] at h
    split at h
    · cases h
    rename_i split hsplit
    split at hsplit
    · cases hsplit
    rename_i initiator hinitiator
    split at hsplit
    · cases hsplit
    rename_i responder hresponder
    obtain ⟨hlen, hinitiator⟩ := Encrypt.deriveSubkey_ok hinitiator
    obtain ⟨-, hresponder⟩ := Encrypt.deriveSubkey_ok hresponder
    cases h
    cases hsplit
    unfold outgoing incoming
    cases n.isInitiator with
    | true => exact ⟨.inr ⟨hone, hlen, hinitiator⟩, .inr ⟨hone, hlen, hresponder⟩⟩
    | false => exact ⟨.inr ⟨hone, hlen, hresponder⟩, .inr ⟨hone, hlen, hinitiator⟩⟩
  · cases h

end Negotiated

theorem negotiate_encrypt {lib : KxLib} {n : Negotiated} {stream : StreamKind} {e : Encrypt}
    {sent : List HandshakeMessage} {result : Option Bytes}
    (h : (negotiate lib stream sent n result).encrypt = some e) :
    (negotiate lib stream sent n result).negotiated = some n ∧
      setNegotiatedKey lib stream n = .ok (some e) := by
  unfold negotiate at h ⊢
  split at h
  · cases h
  · rename_i encrypt hset
    obtain rfl : encrypt = some e := h
    exact ⟨rfl, hset⟩

theorem setNegotiatedKey_webRtc (lib : KxLib) (n : Negotiated) (e : Encrypt) :
    setNegotiatedKey lib .webRtc n ≠ .ok (some e) := by
  unfold setNegotiatedKey
  split
  · simp
  · split <;> simp

/-! ## What a side has seen when it has a key -/

namespace Controller

variable {lib : KxLib} {c : Controller} {e : Encrypt}

/-- What the controller negotiates for an identity that verifies. -/
def negotiation (c : Controller) (theirPk : Bytes) (kxVersion : UInt32) : Negotiated where
  key := c.key
  isInitiator := true
  transcript := ⟨c.pk, theirPk, kxVersion, c.picked kxVersion⟩

theorem unsecured_encrypt (msg : HandshakeMessage) : (c.unsecured lib msg).encrypt = none := by
  unfold unsecured
  split <;> rfl

theorem fallBack_encrypt (refused : String) (msg : HandshakeMessage) :
    (c.fallBack lib refused msg).encrypt = none := by
  unfold fallBack
  split
  · rfl
  · exact unsecured_encrypt msg

/-- The key is there only after an identity that verifies under the peer's signing key. -/
theorem verified_of_encrypt (h : (c.secureConnection lib).encrypt = some e) :
    ∃ signPk signed theirPk signedFp kxVersion, c.signPk lib = some signPk ∧
      decodeIdPkDtls lib signed signPk = .ok (c.peerId, theirPk, signedFp, kxVersion) ∧
      (c.secureConnection lib).negotiated = some (c.negotiation theirPk kxVersion) ∧
      setNegotiatedKey lib c.stream (c.negotiation theirPk kxVersion) = .ok (some e) := by
  unfold secureConnection at h ⊢
  split at h
  case h_1 =>
    rw [unsecured_encrypt] at h
    cases h
  rename_i signPk hsignPk
  split at h
  case h_1 => cases h
  case h_2 => cases h
  case h_3 => cases h
  case h_4 =>
    rw [fallBack_encrypt] at h
    cases h
  case h_6 =>
    rw [fallBack_encrypt] at h
    cases h
  rename_i signed _
  split at h
  case h_1 =>
    rw [fallBack_encrypt] at h
    cases h
  rename_i id theirPk signedFp kxVersion hdecode
  split at h
  case isFalse =>
    rw [fallBack_encrypt] at h
    cases h
  rename_i hid
  subst hid
  split at h
  case h_1 => cases h
  unfold exchange at h ⊢
  split at h
  case isFalse => cases h
  rename_i hsends
  obtain ⟨hnegotiated, hset⟩ := negotiate_encrypt h
  refine ⟨signPk, signed, theirPk, signedFp, kxVersion, hsignPk, hdecode, ?_, hset⟩
  rw [if_pos rfl, if_pos hsends]
  exact hnegotiated

end Controller

namespace Session

variable {lib : KxLib} {device : Device} {s : Session} {e : Encrypt}

/-- What the controlled side negotiates for a key that it has opened. -/
def negotiation (s : Session) (theirPk : Bytes) (kxVersion : UInt32) (key : Key) : Negotiated where
  key := key
  isInitiator := false
  transcript := ⟨theirPk, s.pk, s.advertised, kxVersion⟩

/-- The key is there only after a box that opens under the session's secret key. -/
theorem opened_of_encrypt (h : (s.identityHandshake lib device).encrypt = some e) :
    ∃ theirPk symmetricValue kxVersion key,
      Encrypt.decode lib symmetricValue theirPk s.sk = .ok key ∧
      (s.identityHandshake lib device).negotiated = some (s.negotiation theirPk kxVersion key) ∧
      setNegotiatedKey lib s.stream (s.negotiation theirPk kxVersion key) = .ok (some e) := by
  unfold identityHandshake at h ⊢
  split at h
  case isFalse => cases h
  rename_i hsecure
  split at h
  case isTrue => cases h
  rename_i hfingerprint
  split at h
  case isFalse => cases h
  rename_i hsends
  rw [if_pos hsecure, if_neg hfingerprint, if_pos hsends]
  dsimp only at h ⊢
  split at h
  case h_1 => cases h
  case h_2 => cases h
  case h_3 => cases h
  case h_4 => cases h
  case h_6 => cases h
  rename_i theirPk symmetricValue kxVersion _
  unfold accept at h ⊢
  dsimp only at h ⊢
  split at h
  case isFalse =>
    split at h <;> cases h
  rename_i hlen
  split at h
  case h_1 => cases h
  rename_i key hdecode
  split at h
  case isTrue => cases h
  rename_i hoffered
  obtain ⟨hnegotiated, hset⟩ := negotiate_encrypt h
  refine ⟨theirPk, symmetricValue, kxVersion, key, hdecode, ?_, hset⟩
  rw [if_pos hlen, if_neg hoffered]
  exact hnegotiated

end Session

theorem Encrypt.boxOpen_of_decode {lib : KxLib} {symmetricData theirPk ourSk : Bytes} {key : Key}
    (h : Encrypt.decode lib symmetricData theirPk ourSk = .ok key) :
    lib.boxOpen symmetricData theirPk ourSk = some key.bytes := by
  unfold Encrypt.decode at h
  split at h
  case isTrue => cases h
  split at h
  case h_1 => cases h
  rename_i bytes hopen
  split at h
  case isFalse => cases h
  cases h
  exact hopen

/-! ## Agreement -/

namespace World

variable {lib : KxLib} {w : World} {c : Controller} {s : Session} {ec es : Encrypt}

/-- What a verified identity says was signed by a session, with its own public key. -/
theorem Ideal.signed_by (h : w.Ideal lib) {signed theirPk : Bytes} {id fp : String}
    {kxVersion : UInt32}
    (hdecode : decodeIdPkDtls lib signed w.device.pk = .ok (id, theirPk, fp, kxVersion)) :
    ∃ s ∈ w.sessions, theirPk = s.pk ∧ kxVersion = s.advertised := by
  unfold decodeIdPkDtls at hdecode
  split at hdecode
  case h_1 => cases hdecode
  rename_i bytes hverify
  obtain ⟨s, hs, rfl⟩ | ⟨switchCodeVerifier, timestamp, rfl⟩ := h.signature _ _ hverify
  case inr =>
    rw [h.grant] at hdecode
    cases hdecode
  rw [h.encoding s hs] at hdecode
  dsimp only at hdecode
  split at hdecode
  case isFalse => cases hdecode
  cases hdecode
  exact ⟨s, hs, rfl, rfl⟩

/-- A frame that is taken was sealed under the key it is opened with. -/
theorem Ideal.key_eq_of_accepts (h : w.Ideal lib) {e e' : Encrypt} (he : w.Holds lib e)
    (he' : w.Holds lib e') (hacc : Encrypt.Accepts lib.toSodium e e') :
    e'.receivingKey.getD e'.key = e.key := by
  obtain ⟨sent, received, data, m, hdec⟩ := hacc
  have hlong : 1 < ({ e with sent := sent }.enc lib.toSodium data).1.length := h.overhead _ _ _
  rw [Encrypt.dec_long_ok_iff _ _ hlong] at hdec
  exact h.secretbox e e' he he' _ _ _ _ hdec

/-- The same key in one direction at a controller and at a session: both run version 1 on one key and one
transcript. -/
theorem Ideal.agree_of_uses (h : w.Ideal lib) (hc : c ∈ w.controllers) (hs : s ∈ w.sessions)
    {theirPk : Bytes} {kxVersion : UInt32} (hstream : c.stream ≠ .webRtc)
    (hnc : (c.secureConnection lib).negotiated = some (c.negotiation theirPk kxVersion))
    (hsigned : ∃ s' ∈ w.sessions, theirPk = s'.pk ∧ kxVersion = s'.advertised)
    (hadvertised : s.advertised = KX_VERSION_LATEST)
    {pk sealed : Bytes} {picked : UInt32} {key : Key}
    (hopen : lib.boxOpen sealed pk s.sk = some key.bytes)
    (hns : (s.identityHandshake lib w.device).negotiated = some (s.negotiation pk picked key))
    {direction : UInt8} {used : Key}
    (huc : (c.negotiation theirPk kxVersion).Uses lib.toSodium direction used)
    (hus : (s.negotiation pk picked key).Uses lib.toSodium direction used) :
    c.key = key ∧
      (c.negotiation theirPk kxVersion).transcript = (s.negotiation pk picked key).transcript := by
  obtain ⟨s', hs', rfl, rfl⟩ := hsigned
  have hwc : w.Negotiates lib (c.negotiation s'.pk s'.advertised) := .inl ⟨c, hc, hnc⟩
  have hws : w.Negotiates lib (s.negotiation pk picked key) := .inr ⟨s, hs, hns⟩
  have hsealed : c.sealedTo lib = some s'.pk := by
    rw [Controller.sealedTo, hnc]
    rfl
  obtain ⟨hsecret, hsubkeys⟩ := h.secret c hc s' hs' hsealed
  obtain ⟨hpc, rfl⟩ | ⟨-, hlen, hhash⟩ := huc
  · obtain ⟨-, hkey⟩ | ⟨-, -, hhash'⟩ := hus
    · -- both run version 0: the session has opened a box with the controller's key in it
      obtain hknown | ⟨c', hc', pk', hsealed', hopens, hcontent⟩ := h.box s hs _ _ _ hopen
      · rw [← show c.key = key from hkey] at hknown
        exact (hsecret hknown).elim
      · obtain rfl : c' = c := by
          have hsame : c.key = key := hkey
          exact h.drawn c' hc' c hc (hsame.trans (Key.bytes_inj hcontent)).symm
        -- so it is the one whose identity the controller saw, which says version 1
        obtain rfl : s'.pk = pk' := Option.some.inj (hsealed.symm.trans hsealed')
        obtain rfl := h.fresh s' hs' s hs hopens
        exfalso
        have hzero : c'.picked s'.advertised = 0 := hpc
        rw [Controller.picked, if_neg hstream, hadvertised] at hzero
        exact absurd hzero (by decide)
    · exact (h.hash_drawn _ hws c hc direction hhash').elim
  · obtain ⟨-, rfl⟩ | ⟨-, hlen', hhash'⟩ := hus
    · -- the session has opened a box with a hash under the controller's key in it
      obtain hknown | ⟨c', hc', -, -, -, hcontent⟩ := h.box s hs _ _ _ hopen
      · exact (hsubkeys _ hnc direction _ hhash hknown).elim
      · refine (h.hash_drawn _ hwc c' hc' direction ?_).elim
        rw [hhash, Key.bytes_inj hcontent]
    · obtain ⟨hkey, hinput⟩ := h.hash _ _ hwc hws direction direction used hhash hhash'
      exact ⟨hkey, Encrypt.subkeyInput_inj (hlen.trans hlen'.symm) hinput⟩

/-- If a frame of one end of a connection is taken by the other, then both have the same key and saw the
same: the public keys, the version advertised and the version picked, in opposite roles, and the version
is the highest both speak. So an attacker who changes what either side sees of it leaves no pair that
works. -/
theorem transcripts_agree (h : w.Ideal lib) (hc : c ∈ w.controllers) (hs : s ∈ w.sessions)
    (hverified : c.signPk lib = some w.device.pk)
    (hec : (c.secureConnection lib).encrypt = some ec)
    (hes : (s.identityHandshake lib w.device).encrypt = some es)
    (hacc : Encrypt.Accepts lib.toSodium ec es ∨ Encrypt.Accepts lib.toSodium es ec) :
    ∃ nc ns, (c.secureConnection lib).negotiated = some nc ∧
      (s.identityHandshake lib w.device).negotiated = some ns ∧
      nc.key = ns.key ∧ nc.transcript = ns.transcript ∧
      nc.isInitiator = true ∧ ns.isInitiator = false ∧
      nc.transcript.picked = min nc.transcript.advertised KX_VERSION_LATEST ∧
      nc.transcript.advertised = s.advertised ∧ s.advertised = KX_VERSION_LATEST := by
  obtain ⟨signPk, signed, theirPk, fp, kxVersion, hsignPk, hdecode, hnc, hsetc⟩ :=
    Controller.verified_of_encrypt hec
  obtain rfl : signPk = w.device.pk := Option.some.inj (hsignPk.symm.trans hverified)
  obtain ⟨pk, sealed, picked, key, hopen, hns, hsets⟩ := Session.opened_of_encrypt hes
  have hstreamc : c.stream ≠ .webRtc := by
    intro hrtc
    rw [hrtc] at hsetc
    exact setNegotiatedKey_webRtc _ _ _ hsetc
  have hadvertised : s.advertised = KX_VERSION_LATEST := by
    refine if_neg fun hrtc => ?_
    rw [hrtc] at hsets
    exact setNegotiatedKey_webRtc _ _ _ hsets
  obtain ⟨houtc, hinc⟩ := Negotiated.uses_of_setNegotiatedKey hsetc
  obtain ⟨houts, hins⟩ := Negotiated.uses_of_setNegotiatedKey hsets
  have hholdc : w.Holds lib ec := .inl ⟨c, hc, hec⟩
  have hholds : w.Holds lib es := .inr ⟨s, hs, hes⟩
  have hsigned := h.signed_by hdecode
  have hbox := Encrypt.boxOpen_of_decode hopen
  have hagree : c.key = key ∧
      (c.negotiation theirPk kxVersion).transcript = (s.negotiation pk picked key).transcript := by
    obtain hacc | hacc := hacc
    · have hkey := h.key_eq_of_accepts hholdc hholds hacc
      exact h.agree_of_uses hc hs hstreamc hnc hsigned hadvertised hbox hns houtc (hkey ▸ hins)
    · have hkey := h.key_eq_of_accepts hholds hholdc hacc
      exact h.agree_of_uses hc hs hstreamc hnc hsigned hadvertised hbox hns (hkey ▸ hinc) houts
  obtain ⟨hkey, htranscript⟩ := hagree
  refine ⟨_, _, hnc, hns, hkey, htranscript, rfl, rfl, ?_, ?_, hadvertised⟩
  · exact if_neg hstreamc
  · rw [htranscript]
    rfl

/-! ## An exchange -/

namespace Exchange

/-- The device `123456789` and a controller, with the keys each of them draws. -/
def devicePk : Bytes :=
  [0xd7, 0x59, 0x79, 0x3b, 0xbc, 0x13, 0xa2, 0x81, 0x9a, 0x82, 0x7c, 0x76, 0xad, 0xb6, 0xfb, 0xa8,
   0xa4, 0x9a, 0xee, 0x00, 0x7f, 0x49, 0xf2, 0xd0, 0x99, 0x2d, 0x99, 0xb8, 0x25, 0xad, 0x2c, 0x48]

def deviceSk : Bytes :=
  List.replicate 32 0x44 ++ devicePk

def rsPk : Bytes :=
  [0xc6, 0x82, 0x26, 0x37, 0xc7, 0xd3, 0x10, 0xec, 0x57, 0x62, 0x7b, 0xe0, 0x0b, 0xa2, 0x59, 0xd2,
   0x53, 0x74, 0x9f, 0x4a, 0xaf, 0x64, 0x44, 0x70, 0xcf, 0xfb, 0xe5, 0x3a, 0x35, 0xf7, 0x32, 0x42]

def sessionPk : Bytes :=
  [0x21, 0x9e, 0x4d, 0x80, 0x0d, 0xa9, 0x68, 0xd2, 0xa5, 0xfc, 0xb0, 0x09, 0xc7, 0x84, 0xf4, 0x74,
   0x6c, 0x71, 0x38, 0xed, 0xb9, 0xee, 0x48, 0x44, 0xb7, 0x39, 0xe8, 0x30, 0xb0, 0x5c, 0xf4, 0x24]

def sessionSk : Bytes :=
  List.replicate 32 0x66

def controllerPk : Bytes :=
  [0x1c, 0xf5, 0x79, 0xab, 0xa4, 0x5a, 0x10, 0xba, 0x1d, 0x1e, 0xf0, 0x6d, 0x91, 0xfc, 0xa2, 0xaa,
   0x9e, 0xd0, 0xa1, 0x15, 0x05, 0x15, 0x65, 0x31, 0x55, 0x40, 0x5d, 0x0b, 0x18, 0xcb, 0x9a, 0x67]

def controllerSk : Bytes :=
  List.replicate 32 0x77

def exchanged : Key :=
  ⟨List.replicate 32 0x11, List.length_replicate⟩

/-- What the device signs of its session, and what the rendezvous server signed of the device. -/
def sessionIdPk : IdPk :=
  ⟨"123456789", sessionPk, "", 1⟩

def sessionBytes : Bytes :=
  [0x0a, 0x09, 0x31, 0x32, 0x33, 0x34, 0x35, 0x36, 0x37, 0x38, 0x39, 0x12, 0x20, 0x21, 0x9e, 0x4d,
   0x80, 0x0d, 0xa9, 0x68, 0xd2, 0xa5, 0xfc, 0xb0, 0x09, 0xc7, 0x84, 0xf4, 0x74, 0x6c, 0x71, 0x38,
   0xed, 0xb9, 0xee, 0x48, 0x44, 0xb7, 0x39, 0xe8, 0x30, 0xb0, 0x5c, 0xf4, 0x24, 0x20, 0x01]

def sessionSigned : Bytes :=
  [0xca, 0x06, 0xb2, 0x6a, 0x9b, 0x9a, 0xa6, 0x9c, 0xa1, 0x2e, 0x44, 0xb5, 0xec, 0x05, 0x80, 0x49,
   0xee, 0x1a, 0xa5, 0x2b, 0xc5, 0xd5, 0xc2, 0xec, 0x81, 0x79, 0xb5, 0x29, 0xe1, 0x36, 0x67, 0xdd,
   0x2a, 0xd1, 0x1a, 0x09, 0x90, 0xc6, 0xf2, 0x4a, 0xff, 0x98, 0x35, 0x4a, 0xfa, 0xa0, 0xb6, 0x79,
   0xc8, 0xd0, 0xf6, 0xe6, 0x59, 0xf4, 0xed, 0x91, 0xb6, 0x40, 0x5e, 0x9b, 0xa9, 0x52, 0x68, 0x07] ++
    sessionBytes

def deviceIdPk : IdPk :=
  ⟨"123456789", devicePk, "", 0⟩

def deviceBytes : Bytes :=
  [0x0a, 0x09, 0x31, 0x32, 0x33, 0x34, 0x35, 0x36, 0x37, 0x38, 0x39, 0x12, 0x20, 0xd7, 0x59, 0x79,
   0x3b, 0xbc, 0x13, 0xa2, 0x81, 0x9a, 0x82, 0x7c, 0x76, 0xad, 0xb6, 0xfb, 0xa8, 0xa4, 0x9a, 0xee,
   0x00, 0x7f, 0x49, 0xf2, 0xd0, 0x99, 0x2d, 0x99, 0xb8, 0x25, 0xad, 0x2c, 0x48]

def deviceSigned : Bytes :=
  [0x6e, 0x6b, 0x25, 0xd8, 0x5b, 0xd1, 0x6f, 0xa5, 0x37, 0x77, 0xc7, 0x87, 0x48, 0x7c, 0xeb, 0x49,
   0x2f, 0xd8, 0x56, 0xae, 0x1c, 0x84, 0xea, 0xaa, 0x37, 0xf0, 0xd8, 0xe4, 0x0a, 0xf3, 0x06, 0xd8,
   0x25, 0x2d, 0xc1, 0xc9, 0x14, 0xbf, 0x55, 0x27, 0x0b, 0x1c, 0xc0, 0x46, 0x98, 0x6b, 0xd8, 0x0d,
   0x33, 0x54, 0x08, 0x56, 0x4d, 0xe0, 0x43, 0x01, 0xaa, 0x63, 0x22, 0x5b, 0xed, 0x25, 0x1b, 0x0a] ++
    deviceBytes

def box : Bytes :=
  [0xdf, 0x9a, 0x28, 0x29, 0x53, 0x87, 0xc8, 0x06, 0xe0, 0x8d, 0x2d, 0xb2, 0xd1, 0x66, 0x9f, 0x41,
   0x73, 0x72, 0xce, 0x7b, 0x22, 0xe5, 0x3c, 0x38, 0x5d, 0x53, 0x9c, 0x14, 0x4d, 0x9c, 0xb9, 0xaa,
   0x75, 0x65, 0x1f, 0x6e, 0x96, 0x87, 0x98, 0x1d, 0xb3, 0x66, 0x99, 0xf4, 0xdf, 0x35, 0x2e, 0xac]

def seen : KxTranscript :=
  ⟨controllerPk, sessionPk, 1, 1⟩

def fromInitiator : Key :=
  ⟨[0x9f, 0xeb, 0x61, 0xd8, 0x8d, 0x9c, 0xa9, 0xcf, 0x11, 0x0d, 0xe4, 0xcc, 0x31, 0x66, 0x7b, 0xb6,
    0xe9, 0x09, 0xab, 0x7c, 0x76, 0xd2, 0x43, 0xcd, 0x48, 0xe4, 0xe6, 0xb4, 0xac, 0x8f, 0x70, 0x81], rfl⟩

def fromResponder : Key :=
  ⟨[0x3f, 0xf2, 0x44, 0x31, 0x1d, 0xdf, 0x7f, 0xe6, 0x32, 0xa1, 0xe0, 0x6a, 0x23, 0xf1, 0xc5, 0x95,
    0x61, 0x27, 0x1b, 0x02, 0xd0, 0x37, 0x40, 0x1f, 0x21, 0x3d, 0x43, 0x7f, 0xce, 0xbc, 0x89, 0x38], rfl⟩

/-- The text `hello` as the controller's first frame. -/
def greeting : Bytes :=
  [0x68, 0x65, 0x6c, 0x6c, 0x6f]

def greetingFrame : Bytes :=
  [0xe2, 0x34, 0x53, 0x0c, 0xad, 0x58, 0xc9, 0x47, 0xa7, 0xb7, 0x5c, 0x52, 0x14, 0x43, 0xd9, 0xdd,
   0x16, 0xef, 0x41, 0xd2, 0x31]

/-- The libraries, on what these two handshakes call them with. -/
def libraries : KxLib where
  secretboxSeal data nonce k :=
    if k = fromInitiator ∧ nonce = getNonce 1 ∧ data = greeting then greetingFrame
    else k.bytes ++ nonce.bytes ++ data
  secretboxOpen frame nonce k :=
    if k = fromInitiator ∧ nonce = getNonce 1 ∧ frame = greetingFrame then some greeting else none
  generichash k input :=
    if k = exchanged ∧ input = Encrypt.subkeyInput KX_SPLIT_INITIATOR seen then some fromInitiator
    else if k = exchanged ∧ input = Encrypt.subkeyInput KX_SPLIT_RESPONDER seen then
      some fromResponder
    else none
  sign m sk := if m = sessionBytes ∧ sk = deviceSk then sessionSigned else []
  verify signed pk :=
    if signed = sessionSigned ∧ pk = devicePk then some sessionBytes
    else if signed = deviceSigned ∧ pk = rsPk then some deviceBytes
    else none
  boxSeal m pk sk := if m = exchanged.bytes ∧ pk = sessionPk ∧ sk = controllerSk then box else []
  boxOpen c pk sk :=
    if c = box ∧ pk = controllerPk ∧ sk = sessionSk then some exchanged.bytes else none
  writeIdPk x := if x = sessionIdPk then sessionBytes else deviceBytes
  parseIdPk bytes :=
    if bytes = sessionBytes then some sessionIdPk
    else if bytes = deviceBytes then some deviceIdPk
    else none

def controller : Controller where
  peerId := "123456789"
  signedIdPk := deviceSigned
  rsPk := some rsPk
  stream := .tcp
  actualFp := none
  sends := true
  arrives := .bytes (some (.signedId sessionSigned))
  pk := controllerPk
  sk := controllerSk
  key := exchanged

def session : Session where
  secure := true
  stream := .tcp
  fingerprint := none
  sends := true
  arrives := .bytes (some (.publicKey controllerPk box 1))
  pk := sessionPk
  sk := sessionSk

def world : World where
  device := ⟨"123456789", devicePk, deviceSk⟩
  sessions := [session]
  controllers := [controller]
  known m := m ≠ exchanged.bytes ∧ m ≠ fromInitiator.bytes ∧ m ≠ fromResponder.bytes
  opens pk sk := pk = sessionPk ∧ sk = sessionSk

theorem controller_encrypt : (controller.secureConnection libraries).encrypt =
    some ⟨fromInitiator, 0, 0, some fromResponder⟩ := by decide

theorem session_encrypt : (session.identityHandshake libraries world.device).encrypt =
    some ⟨fromResponder, 0, 0, some fromInitiator⟩ := by decide

theorem generichash_some {k h : Key} {input : Bytes} (heq : libraries.generichash k input = some h) :
    k = exchanged ∧
      (input = Encrypt.subkeyInput KX_SPLIT_INITIATOR seen ∧ h = fromInitiator ∨
        input = Encrypt.subkeyInput KX_SPLIT_RESPONDER seen ∧ h = fromResponder) := by
  simp only [libraries] at heq
  split at heq
  · rename_i hin
    cases heq
    exact ⟨hin.1, .inl ⟨hin.2, rfl⟩⟩
  · split at heq
    · rename_i hin
      cases heq
      exact ⟨hin.1, .inr ⟨hin.2, rfl⟩⟩
    · cases heq

theorem secretboxOpen_some {frame m : Bytes} {nonce : Nonce} {k : Key}
    (h : libraries.secretboxOpen frame nonce k = some m) : k = fromInitiator ∧ frame = greetingFrame := by
  simp only [libraries] at h
  split at h
  · rename_i hin
    exact ⟨hin.1, hin.2.2⟩
  · cases h

theorem holds_cases {e : Encrypt} (h : world.Holds libraries e) :
    e = ⟨fromInitiator, 0, 0, some fromResponder⟩ ∨ e = ⟨fromResponder, 0, 0, some fromInitiator⟩ := by
  obtain ⟨c, hc, he⟩ | ⟨s, hs, he⟩ := h
  · rw [List.mem_singleton.mp hc, controller_encrypt] at he
    exact .inl (Option.some.inj he).symm
  · rw [List.mem_singleton.mp hs, session_encrypt] at he
    exact .inr (Option.some.inj he).symm

theorem ideal : world.Ideal libraries where
  signature := by
    intro signed m hverify
    refine .inl ⟨session, List.mem_singleton_self _, ?_⟩
    have hwrite : libraries.writeIdPk (session.idPk world.device) = sessionBytes := by decide
    rw [hwrite]
    simp only [libraries] at hverify
    split at hverify
    · exact (Option.some.inj hverify).symm
    · split at hverify
      · rename_i hrs
        exact absurd hrs.2 (by decide)
      · cases hverify
  grant := by
    intro switchCodeVerifier timestamp
    have hfirst : ∀ bytes, switchGrantSignedMsg world.device.id switchCodeVerifier timestamp = bytes →
        bytes.head? = some 0x73 := by
      rintro _ rfl
      rfl
    simp only [libraries]
    split
    · rename_i hsession
      exact absurd (hfirst _ hsession) (by decide)
    · split
      · rename_i hdevice
        exact absurd (hfirst _ hdevice) (by decide)
      · rfl
  encoding := by
    intro s hs
    rw [List.mem_singleton.mp hs]
    decide
  box := by
    intro s hs sealed pk m hopen
    rw [List.mem_singleton.mp hs] at hopen ⊢
    refine .inr ⟨controller, List.mem_singleton_self _, sessionPk, by decide, ⟨rfl, rfl⟩, ?_⟩
    simp only [libraries] at hopen
    split at hopen
    · exact (Option.some.inj hopen).symm
    · cases hopen
  fresh := by
    intro s hs s' hs' _
    rw [List.mem_singleton.mp hs, List.mem_singleton.mp hs']
  secret := by
    intro c hc s _ _
    rw [List.mem_singleton.mp hc]
    refine ⟨fun hknown => hknown.1 rfl, fun n _ direction h hhash hknown => ?_⟩
    obtain ⟨-, ⟨-, rfl⟩ | ⟨-, rfl⟩⟩ := generichash_some hhash
    · exact hknown.2.1 rfl
    · exact hknown.2.2 rfl
  drawn := by
    intro c hc c' hc' _
    rw [List.mem_singleton.mp hc, List.mem_singleton.mp hc']
  hash := by
    intro n n' _ _ direction direction' h hhash hhash'
    have hne : fromInitiator ≠ fromResponder := by decide
    obtain ⟨hkey, ⟨hinput, rfl⟩ | ⟨hinput, rfl⟩⟩ := generichash_some hhash
    · obtain ⟨hkey', ⟨hinput', -⟩ | ⟨-, heq⟩⟩ := generichash_some hhash'
      · exact ⟨hkey.trans hkey'.symm, hinput.trans hinput'.symm⟩
      · exact absurd heq hne
    · obtain ⟨hkey', ⟨-, heq⟩ | ⟨hinput', -⟩⟩ := generichash_some hhash'
      · exact absurd heq.symm hne
      · exact ⟨hkey.trans hkey'.symm, hinput.trans hinput'.symm⟩
  hash_drawn := by
    intro n _ c hc direction hhash
    rw [List.mem_singleton.mp hc] at hhash
    obtain ⟨-, ⟨-, heq⟩ | ⟨-, heq⟩⟩ := generichash_some hhash
    · exact absurd heq (by decide)
    · exact absurd heq (by decide)
  secretbox := by
    intro e e' he he' data nonce nonce' m hopen
    obtain ⟨hkey, hframe⟩ := secretboxOpen_some hopen
    rw [hkey]
    obtain rfl | rfl := holds_cases he
    · rfl
    · -- no frame of the other key is the one that opens
      have hne : fromResponder ≠ fromInitiator := by decide
      have hlen := congrArg List.length hframe
      simp only [libraries, hne, false_and, if_false, List.length_append, fromResponder.length_eq,
        KEYBYTES] at hlen
      have hshort : greetingFrame.length = 21 := by decide
      omega
  overhead := by
    intro data nonce k
    simp only [libraries]
    split
    · decide
    · simp only [List.length_append, k.length_eq, KEYBYTES]
      omega

end Exchange

theorem transcripts_agree_exchange :
    (∃ m, ((⟨Exchange.fromResponder, 0, 0, some Exchange.fromInitiator⟩ : Encrypt).dec
      Exchange.libraries.toSodium Exchange.greetingFrame).1 = .ok m) ∧
    ∃ nc ns, (Exchange.controller.secureConnection Exchange.libraries).negotiated = some nc ∧
      (Exchange.session.identityHandshake Exchange.libraries Exchange.world.device).negotiated = some ns ∧
      nc.transcript = ns.transcript ∧ nc.transcript.picked = 1 := by
  have haccepts : Encrypt.Accepts Exchange.libraries.toSodium
      ⟨Exchange.fromInitiator, 0, 0, some Exchange.fromResponder⟩
      ⟨Exchange.fromResponder, 0, 0, some Exchange.fromInitiator⟩ :=
    ⟨0, 0, Exchange.greeting, Exchange.greeting, by decide⟩
  obtain ⟨nc, ns, hnc, hns, -, htranscript, -, -, hpicked, hadvertised, hlatest⟩ :=
    transcripts_agree Exchange.ideal (List.mem_singleton_self _) (List.mem_singleton_self _)
      (by decide) Exchange.controller_encrypt Exchange.session_encrypt (.inl haccepts)
  refine ⟨⟨Exchange.greeting, by decide⟩, nc, ns, hnc, hns, htranscript, ?_⟩
  rw [hpicked, hadvertised, hlatest]
  decide

end World

end FontisRemote.Transport
