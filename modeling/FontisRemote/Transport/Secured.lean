import Mathlib.Logic.Function.Basic
import FontisRemote.Transport.Codec
import FontisRemote.Transport.Handshake
import FontisRemote.Transport.Integrity

/-!
# Messages over a byte stream

Two `FramedStream`s with a byte stream in each direction. A message is encrypted, if there is a key, framed and written;
the bytes arrive in pieces of any size; `next` decodes a frame and opens it. The counters of both directions and the
decoders are what has to keep in step (`Direction`).

Of the cipher only its documented round trip is used, and that it puts sixteen bytes in front.
-/

namespace FontisRemote.Transport

open FontisRemote.Lib

/-- `BytesCodec::new` -/
def BytesCodec.new : BytesCodec := ⟨.head, false, 18446744073709551615⟩

def MACBYTES : Nat := 16

/-- What `secretbox` documents. -/
structure Sodium.Opens (so : Sodium) : Prop where
  opens : ∀ m n k, so.secretboxOpen (so.secretboxSeal m n k) n k = some m
  length : ∀ m n k, (so.secretboxSeal m n k).length = MACBYTES + m.length

/-- A `FramedStream`, with what was passed to `send_raw` and what `next` has returned, oldest first. -/
structure FramedEnd where
  codec : BytesCodec
  buffer : Bytes
  encrypt : Option Encrypt
  passed : List Bytes
  returned : List (Except Error Bytes)
  /-- A call of `send_raw` has returned an error. -/
  failed : Bool

namespace FramedEnd

variable (so : Sodium) (e : FramedEnd)

/-- What `send_raw` makes of a message. -/
def outgoing (data : Bytes) : Bytes × Option Encrypt :=
  match e.encrypt with
  | some key =>
    let (msg, key) := key.enc so data
    (msg, some key)
  | none => (data, none)

/-- `send_raw`, with the bytes that it writes; `taken` if the sink takes the frame before the timeout. -/
def sendRaw (data : Bytes) (taken : Bool) : FramedEnd × Bytes :=
  let (msg, encrypt) := e.outgoing so data
  let e := { e with encrypt, passed := e.passed ++ [data] }
  match taken, e.codec.encode msg [] with
  | true, (.ok (), bytes) => (e, bytes)
  | _, _ => ({ e with failed := true }, [])

/-- `next`, where nothing more arrives: nothing is returned if there is no whole frame. -/
def next : FramedEnd :=
  match e.codec.decode e.buffer with
  | (.error err, codec, buffer) =>
    { e with codec, buffer, returned := e.returned ++ [.error ⟨.invalidData, err⟩] }
  | (.ok none, codec, buffer) => { e with codec, buffer }
  | (.ok (some frame), codec, buffer) =>
    let (res, encrypt) := FramedStream.next so e.encrypt (some (.ok frame))
    { e with codec, buffer, encrypt, returned := e.returned ++ res.toList }

end FramedEnd

structure Duplex where
  ends : Side → FramedEnd
  /-- The bytes that an end has written and that have not arrived. -/
  wire : Side → Bytes

namespace Duplex

inductive Event
  | send (x : Side) (data : Bytes) (taken : Bool)
  | arrive (x : Side) (n : Nat)
  | next (x : Side)

def step (so : Sodium) (s : Duplex) : Event → Option Duplex
  | .send x data taken =>
    let (e, bytes) := FramedEnd.sendRaw so (s.ends x) data taken
    some { s with ends := Function.update s.ends x e, wire := Function.update s.wire x (s.wire x ++ bytes) }
  | .arrive x n =>
    let e := s.ends x
    some
      { ends := Function.update s.ends x { e with buffer := e.buffer ++ (s.wire x.peer).take n }
        wire := Function.update s.wire x.peer ((s.wire x.peer).drop n) }
  | .next x => some { s with ends := Function.update s.ends x (FramedEnd.next so (s.ends x)) }

end Duplex

/-- What the two ends have for keys: none, the one of `set_key`, or those of `set_key_split`. -/
inductive Keyed (so : Sodium) : Option Encrypt → Option Encrypt → Prop
  | plain : Keyed so none none
  | one (key : Key) : Keyed so (some (.new key)) (some (.new key))
  | split {key : Key} {t : KxTranscript} {initiator responder : Encrypt}
      (hinitiator : Encrypt.newSplit so key true t = .ok initiator)
      (hresponder : Encrypt.newSplit so key false t = .ok responder) : Keyed so (some initiator) (some responder)

structure Duplex.Init (so : Sodium) (s : Duplex) : Prop where
  ends : ∀ x, ∃ encrypt, s.ends x = ⟨.new, [], encrypt, [], [], false⟩
  keyed : Keyed so (s.ends .initiator).encrypt (s.ends .responder).encrypt
  wire : ∀ x, s.wire x = []

/-! ## Frames and counters -/

/-- The frames of messages from a counter on. -/
def sealedFrom (so : Sodium) (key : Key) (n : UInt64) : List Bytes → List Bytes
  | [] => []
  | m :: ms => so.secretboxSeal m (getNonce (n + 1)) key :: sealedFrom so key (n + 1) ms

theorem sealedFrom_append (so : Sodium) (key : Key) (n : UInt64) (ms ms' : List Bytes) :
    sealedFrom so key n (ms ++ ms') = sealedFrom so key n ms ++ sealedFrom so key (n + UInt64.ofNat ms.length) ms' := by
  induction ms generalizing n with
  | nil => simp [sealedFrom]
  | cons m ms ih =>
    have hn : n + 1 + UInt64.ofNat ms.length = n + UInt64.ofNat (ms.length + 1) := by
      rw [UInt64.ofNat_add, UInt64.add_assoc, UInt64.add_comm 1]
      rfl
    rw [List.cons_append, sealedFrom, sealedFrom, ih, hn]
    rfl

theorem length_sealedFrom (so : Sodium) (key : Key) (n : UInt64) (ms : List Bytes) :
    (sealedFrom so key n ms).length = ms.length := by
  induction ms generalizing n with
  | nil => rfl
  | cons m ms ih => rw [sealedFrom, List.length_cons, List.length_cons, ih]

/-- The frames on their way are those of the messages to come, by the keys and the counters of both ends. -/
inductive Matched (so : Sodium) (todo : List Bytes) : Option Encrypt → Option Encrypt → List Bytes → Prop
  | plain : Matched so todo none none todo
  | keyed {snd rcv : Encrypt} (hkey : rcv.receivingKey.getD rcv.key = snd.key)
      (hsent : snd.sent = rcv.received + UInt64.ofNat todo.length) :
      Matched so todo (some snd) (some rcv) (sealedFrom so snd.key rcv.received todo)

section Matched

variable {so : Sodium} {todo frames : List Bytes} {snd rcv : Option Encrypt}

theorem Matched.length_eq (h : Matched so todo snd rcv frames) : frames.length = todo.length := by
  cases h with
  | plain => rfl
  | keyed => exact length_sealedFrom ..

/-- What the sender received is not its business. -/
theorem Matched.received (h : Matched so todo snd rcv frames) (n : UInt64) :
    Matched so todo (snd.map fun e => { e with received := n }) rcv frames := by
  cases h with
  | plain => exact .plain
  | keyed hkey hsent => exact .keyed hkey hsent

theorem Matched.sent (h : Matched so todo snd rcv frames) (n : UInt64) :
    Matched so todo snd (rcv.map fun e => { e with sent := n }) frames := by
  cases h with
  | plain => exact .plain
  | keyed hkey hsent => exact .keyed hkey hsent

end Matched

/-! ## One call -/

namespace FramedEnd

variable {so : Sodium} {e rcv : FramedEnd} {todo frames : List Bytes}

theorem outgoing_matched (h : Matched so todo e.encrypt rcv.encrypt frames) (data : Bytes) :
    Matched so (todo ++ [data]) (e.outgoing so data).2 rcv.encrypt (frames ++ [(e.outgoing so data).1]) := by
  unfold outgoing
  generalize e.encrypt = snd at h ⊢
  generalize rcv.encrypt = other at h ⊢
  cases h with
  | plain => exact .plain
  | @keyed snd other hkey hsent =>
    have hframes : sealedFrom so snd.key other.received (todo ++ [data]) =
        sealedFrom so snd.key other.received todo ++ [so.secretboxSeal data (getNonce (snd.sent + 1)) snd.key] := by
      rw [sealedFrom_append, ← hsent]
      rfl
    have hcount : snd.sent + 1 = other.received + UInt64.ofNat (todo ++ [data]).length := by
      rw [List.length_append, UInt64.ofNat_add, ← UInt64.add_assoc, ← hsent]
      rfl
    have hkeyed : Matched so (todo ++ [data]) (some { snd with sent := snd.sent + 1 }) (some other) _ := .keyed hkey hcount
    exact hframes ▸ hkeyed

theorem outgoing_encrypt (so : Sodium) (e : FramedEnd) (data : Bytes) :
    ∃ n, (e.outgoing so data).2 = e.encrypt.map fun k => { k with sent := n } := by
  unfold outgoing
  cases e.encrypt with
  | none => exact ⟨0, rfl⟩
  | some key => exact ⟨key.sent + 1, rfl⟩

theorem sendRaw_fields (so : Sodium) (e : FramedEnd) (data : Bytes) (taken : Bool) :
    (sendRaw so e data taken).1.codec = e.codec ∧ (sendRaw so e data taken).1.buffer = e.buffer ∧
    (sendRaw so e data taken).1.returned = e.returned ∧
    (sendRaw so e data taken).1.encrypt = (e.outgoing so data).2 ∧
    (sendRaw so e data taken).1.passed = e.passed ++ [data] := by
  unfold sendRaw
  generalize e.outgoing so data = out
  obtain ⟨msg, encrypt⟩ := out
  dsimp only
  split <;> exact ⟨rfl, rfl, rfl, rfl, rfl⟩

/-- A call without an error has written the frame. -/
theorem sendRaw_ok {data : Bytes} {taken : Bool} (hraw : e.codec.raw = false)
    (h : (sendRaw so e data taken).1.failed = false) :
    e.failed = false ∧ (e.outgoing so data).1.length ≤ BytesCodec.MAX_FRAME_LENGTH ∧
      (sendRaw so e data taken).2 = BytesCodec.frame (e.outgoing so data).1 := by
  unfold sendRaw at h ⊢
  generalize e.outgoing so data = out at h ⊢
  obtain ⟨msg, encrypt⟩ := out
  dsimp only at h ⊢
  split at h
  · next bytes hencode =>
    unfold BytesCodec.encode at hencode
    rw [hraw, if_neg (by decide)] at hencode
    split at hencode
    · next head hhead =>
      obtain ⟨-, hbytes⟩ := Prod.mk.inj hencode
      refine ⟨h, ?_, ?_⟩
      · by_contra hlong
        unfold BytesCodec.header at hhead
        unfold BytesCodec.MAX_FRAME_LENGTH at hhead hlong
        split_ifs at hhead <;> omega
      · rw [BytesCodec.frame, hhead]
        exact hbytes.symm
    · cases (Prod.mk.inj hencode).1
  · cases h

/-- What `dec` makes of a key is its counter. -/
theorem next_encrypt (so : Sodium) (key : Option Encrypt) (frame : Bytes) :
    ∃ n, (FramedStream.next so key (some (.ok frame))).2 = key.map fun k => { k with received := n } := by
  cases key with
  | none => exact ⟨0, rfl⟩
  | some key =>
    rcases Nat.lt_or_ge 1 frame.length with hlong | hshort
    · exact ⟨key.received + 1, congrArg some (Encrypt.dec_long_snd so key hlong)⟩
    · exact ⟨key.received, congrArg (fun r : Except Error Bytes × Encrypt => some r.2) (Encrypt.dec_short so key hshort)⟩

theorem decode_raw (codec : BytesCodec) (src : Bytes) : (codec.decode src).2.1.raw = codec.raw := by
  have hfinish : ∀ n src, (codec.finish n src).2.1.raw = codec.raw := by
    intro n src
    rcases Nat.lt_or_ge src.length n with hlt | hle
    · rw [BytesCodec.finish_of_lt hlt]
    · rw [BytesCodec.finish_of_le hle]
  unfold BytesCodec.decode
  split
  · split <;> rfl
  · split
    · split
      · rfl
      · rfl
      · exact hfinish ..
    · exact hfinish ..

/-- A call of `next` leaves what the end sends. -/
theorem next_fields (so : Sodium) (e : FramedEnd) :
    (next so e).passed = e.passed ∧ (next so e).failed = e.failed ∧ (next so e).codec.raw = e.codec.raw ∧
      ∃ n, (next so e).encrypt = e.encrypt.map fun k => { k with received := n } := by
  have hraw := decode_raw e.codec e.buffer
  have hsame : ∃ n, e.encrypt = e.encrypt.map fun k => { k with received := n } := by
    cases e.encrypt with
    | none => exact ⟨0, rfl⟩
    | some k => exact ⟨k.received, rfl⟩
  unfold next
  split
  · next heq => exact ⟨rfl, rfl, by rw [← hraw, heq], hsame⟩
  · next heq => exact ⟨rfl, rfl, by rw [← hraw, heq], hsame⟩
  · next frame codec buffer heq => exact ⟨rfl, rfl, by rw [← hraw, heq], next_encrypt so e.encrypt frame⟩

end FramedEnd

/-- One more payload is written. -/
theorem BytesCodec.Expects.write {limit : Nat} {payloads : List Bytes} {codec : BytesCodec} {buf rest data : Bytes}
    (h : BytesCodec.Expects limit payloads codec buf rest) (hlen : data.length ≤ min BytesCodec.MAX_FRAME_LENGTH limit) :
    BytesCodec.Expects limit (payloads ++ [data]) codec buf (rest ++ BytesCodec.frame data) := by
  obtain ⟨hraw, hmax, hall, hbuf⟩ := h
  have hframes : ∀ ps : List Bytes, ((ps ++ [data]).map BytesCodec.frame).flatten =
      (ps.map BytesCodec.frame).flatten ++ BytesCodec.frame data := fun ps => by simp
  refine ⟨hraw, hmax, ?_, ?_⟩
  · intro x hx
    rcases List.mem_append.1 hx with hx | hx
    · exact hall x hx
    · exact List.mem_singleton.1 hx ▸ hlen
  · cases hstate : codec.state with
    | head =>
      rw [hstate] at hbuf
      dsimp only at hbuf ⊢
      rw [← List.append_assoc, hbuf, hframes]
    | data n =>
      rw [hstate] at hbuf
      obtain ⟨first, later, rfl, hn, hbuf⟩ := hbuf
      refine ⟨first, later ++ [data], rfl, hn, ?_⟩
      rw [← List.append_assoc, hbuf, hframes, List.append_assoc]

/-! ## One direction -/

/-- What one end has sent, as far as the other has not returned it: in its buffer, or still to arrive. -/
structure Direction (so : Sodium) (snd rcv : FramedEnd) (wire : Bytes) (todo frames : List Bytes) : Prop where
  passed : snd.passed.map Except.ok = rcv.returned ++ todo.map Except.ok
  matched : Matched so todo snd.encrypt rcv.encrypt frames
  expects : BytesCodec.Expects BytesCodec.new.maxPacketLength frames rcv.codec rcv.buffer wire

section Direction

variable {so : Sodium} {snd rcv : FramedEnd} {wire : Bytes} {todo frames : List Bytes}

theorem Direction.send (h : Direction so snd rcv wire todo frames) (hraw : snd.codec.raw = false) {data : Bytes}
    {taken : Bool} (hok : (FramedEnd.sendRaw so snd data taken).1.failed = false) :
    Direction so (FramedEnd.sendRaw so snd data taken).1 rcv (wire ++ (FramedEnd.sendRaw so snd data taken).2)
      (todo ++ [data]) (frames ++ [(snd.outgoing so data).1]) := by
  obtain ⟨-, -, -, hencrypt, hpassed⟩ := FramedEnd.sendRaw_fields so snd data taken
  obtain ⟨-, hlen, hbytes⟩ := FramedEnd.sendRaw_ok hraw hok
  refine ⟨?_, ?_, ?_⟩
  · rw [hpassed, List.map_append, List.map_append, h.passed, List.append_assoc]
  · rw [hencrypt]
    exact FramedEnd.outgoing_matched h.matched data
  · rw [hbytes]
    exact h.expects.write (le_min hlen (hlen.trans (by decide)))

/-- The receiver sends something itself. -/
theorem Direction.receiver_sends (h : Direction so snd rcv wire todo frames) (data : Bytes) (taken : Bool) :
    Direction so snd (FramedEnd.sendRaw so rcv data taken).1 wire todo frames := by
  obtain ⟨hcodec, hbuffer, hreturned, hencrypt, -⟩ := FramedEnd.sendRaw_fields so rcv data taken
  obtain ⟨n, hn⟩ := FramedEnd.outgoing_encrypt so rcv data
  refine ⟨?_, ?_, ?_⟩
  · rw [hreturned]
    exact h.passed
  · rw [hencrypt, hn]
    exact h.matched.sent n
  · rw [hcodec, hbuffer]
    exact h.expects

theorem Direction.arrive (h : Direction so snd rcv wire todo frames) (n : Nat) :
    Direction so snd { rcv with buffer := rcv.buffer ++ wire.take n } (wire.drop n) todo frames where
  passed := h.passed
  matched := h.matched
  expects := (BytesCodec.follows _).arrive (by rw [List.take_append_drop]; exact h.expects)

/-- The sender takes something itself. -/
theorem Direction.sender_next (h : Direction so snd rcv wire todo frames) :
    Direction so (FramedEnd.next so snd) rcv wire todo frames := by
  obtain ⟨hpassed, -, -, n, hn⟩ := FramedEnd.next_fields so snd
  refine ⟨?_, ?_, h.expects⟩
  · rw [hpassed]
    exact h.passed
  · rw [hn]
    exact h.matched.received n

/-- The frame that comes next is opened to the message that comes next. -/
theorem Matched.open (hso : so.Opens) {key : Option Encrypt} {frame : Bytes}
    (h : Matched so todo snd.encrypt key (frame :: frames)) :
    ∃ m later, todo = m :: later ∧ (FramedStream.next so key (some (.ok frame))).1 = some (.ok m) ∧
      Matched so later snd.encrypt (FramedStream.next so key (some (.ok frame))).2 frames := by
  generalize snd.encrypt = sender at h ⊢
  generalize hall : frame :: frames = all at h
  cases h with
  | plain =>
    subst hall
    exact ⟨frame, frames, rfl, rfl, .plain⟩
  | @keyed sender rcv hkey hsent =>
    cases todo with
    | nil => cases hall
    | cons m later =>
      obtain ⟨rfl, rfl⟩ := List.cons.inj hall
      have hlong : 1 < (so.secretboxSeal m (getNonce (rcv.received + 1)) sender.key).length := by
        rw [hso.length, MACBYTES]
        omega
      refine ⟨m, later, rfl, ?_, ?_⟩
      · refine congrArg some ((Encrypt.dec_long_ok_iff so rcv hlong).2 ?_)
        rw [hkey]
        exact hso.opens ..
      · have hencrypt : (FramedStream.next so (some rcv)
            (some (.ok (so.secretboxSeal m (getNonce (rcv.received + 1)) sender.key)))).2 =
            some { rcv with received := rcv.received + 1 } :=
          congrArg some (Encrypt.dec_long_snd so rcv hlong)
        rw [hencrypt]
        refine .keyed hkey ?_
        rw [hsent, List.length_cons, UInt64.ofNat_add, UInt64.add_comm (UInt64.ofNat later.length), ← UInt64.add_assoc]
        rfl

/-- A call of `next` returns the message that comes next, or nothing for want of bytes. -/
theorem Direction.next (hso : so.Opens) (h : Direction so snd rcv wire todo frames) :
    (∃ m later frames', todo = m :: later ∧ (FramedEnd.next so rcv).returned = rcv.returned ++ [.ok m] ∧
      Direction so snd (FramedEnd.next so rcv) wire later frames') ∨
    (FramedEnd.next so rcv).returned = rcv.returned ∧ Direction so snd (FramedEnd.next so rcv) wire todo frames ∧
      BytesCodec.Waits frames (FramedEnd.next so rcv).codec (FramedEnd.next so rcv).buffer := by
  rcases (BytesCodec.follows _).decode h.expects with
    ⟨frame, frames', codec, buffer, rfl, hdecode, hexpects⟩ | ⟨codec, buffer, hdecode, hexpects, hwaits⟩
  · replace hdecode : rcv.codec.decode rcv.buffer = (.ok (some frame), codec, buffer) := hdecode
    obtain ⟨m, later, rfl, hres, hmatched⟩ := h.matched.open hso
    have hreturned : (FramedEnd.next so rcv).returned = rcv.returned ++ [.ok m] := by
      simp only [FramedEnd.next, hdecode, hres, Option.toList_some]
    refine .inl ⟨m, later, frames', rfl, hreturned, ?_, ?_, ?_⟩
    · rw [hreturned, h.passed, List.map_cons, List.append_assoc]
      rfl
    · simpa only [FramedEnd.next, hdecode] using hmatched
    · simpa only [FramedEnd.next, hdecode] using hexpects
  · replace hdecode : rcv.codec.decode rcv.buffer = (.ok none, codec, buffer) := hdecode
    have hnext : FramedEnd.next so rcv = { rcv with codec, buffer } := by
      simp only [FramedEnd.next, hdecode]
    rw [hnext]
    exact .inr ⟨rfl, ⟨h.passed, h.matched, hexpects⟩, hwaits⟩

end Direction

/-! ## Both directions -/

namespace Duplex

variable {so : Sodium} {s s' : Duplex}

/-- As long as no call of an end's `send_raw` has failed, what it passed is returned by the other end or on its way. -/
def Inv (so : Sodium) (s : Duplex) : Prop :=
  ∀ x, (s.ends x).codec.raw = false ∧
    ((s.ends x).failed = false → ∃ todo frames, Direction so (s.ends x) (s.ends x.peer) (s.wire x) todo frames)

theorem peer_ne (x : Side) : x.peer ≠ x := by cases x <;> decide

theorem peer_peer (x : Side) : x.peer.peer = x := by cases x <;> rfl

/-- An invariant of the ends, where a step touches one of them. -/
theorem forall_side {P : Side → Prop} (x : Side) (hx : P x) (hpeer : P x.peer) : ∀ y, P y := by
  intro y
  cases x <;> cases y <;> assumption

theorem Inv.init (h : Init so s) : Inv so s := by
  have hmatched : ∀ x, Matched so [] (s.ends x).encrypt (s.ends (Side.peer x)).encrypt [] := by
    have hkeyed := h.keyed
    generalize hi : (s.ends .initiator).encrypt = initiator at hkeyed
    generalize hr : (s.ends .responder).encrypt = responder at hkeyed
    refine forall_side .initiator ?_ ?_
    · rw [hi, Side.peer, hr]
      cases hkeyed with
      | plain => exact .plain
      | one key => exact .keyed rfl rfl
      | split hinitiator hresponder =>
        obtain ⟨ki, kr, hki, hkr, rfl⟩ := Link.newSplit_ok hinitiator
        obtain ⟨ki', kr', hki', hkr', rfl⟩ := Link.newSplit_ok hresponder
        obtain rfl := Except.ok.inj (hki.symm.trans hki')
        exact .keyed rfl rfl
    · rw [Side.peer, Side.peer, hi, hr]
      cases hkeyed with
      | plain => exact .plain
      | one key => exact .keyed rfl rfl
      | split hinitiator hresponder =>
        obtain ⟨ki, kr, hki, hkr, rfl⟩ := Link.newSplit_ok hinitiator
        obtain ⟨ki', kr', hki', hkr', rfl⟩ := Link.newSplit_ok hresponder
        obtain rfl := Except.ok.inj (hkr.symm.trans hkr')
        exact .keyed rfl rfl
  intro x
  obtain ⟨encrypt, hx⟩ := h.ends x
  obtain ⟨encrypt', hpeer⟩ := h.ends x.peer
  have hx' := hmatched x
  rw [hx, hpeer, h.wire] at *
  exact ⟨rfl, fun _ => ⟨[], [], rfl, hx', rfl, rfl, by simp, rfl⟩⟩

theorem Inv.send (h : Inv so s) (x : Side) (data : Bytes) (taken : Bool)
    (hstep : s.step so (.send x data taken) = some s') : Inv so s' := by
  have hs' : s' =
      { ends := Function.update s.ends x (FramedEnd.sendRaw so (s.ends x) data taken).1
        wire := Function.update s.wire x (s.wire x ++ (FramedEnd.sendRaw so (s.ends x) data taken).2) } :=
    (Option.some.inj hstep).symm
  subst hs'
  obtain ⟨hcodec, -⟩ := FramedEnd.sendRaw_fields so (s.ends x) data taken
  refine forall_side x ?_ ?_
  · simp only [Function.update_self, Function.update_of_ne (peer_ne x)]
    refine ⟨by rw [hcodec]; exact (h x).1, fun hok => ?_⟩
    obtain ⟨todo, frames, hdir⟩ := (h x).2 (FramedEnd.sendRaw_ok (h x).1 hok).1
    exact ⟨_, _, hdir.send (h x).1 hok⟩
  · simp only [peer_peer, Function.update_self, Function.update_of_ne (peer_ne x)]
    refine ⟨(h x.peer).1, fun hok => ?_⟩
    obtain ⟨todo, frames, hdir⟩ := (h x.peer).2 hok
    rw [peer_peer] at hdir
    exact ⟨todo, frames, hdir.receiver_sends data taken⟩

theorem Inv.arrive (h : Inv so s) (x : Side) (n : Nat) (hstep : s.step so (.arrive x n) = some s') : Inv so s' := by
  obtain rfl := Option.some.inj hstep
  refine forall_side x ?_ ?_
  · simp only [Function.update_self, Function.update_of_ne (peer_ne x), Function.update_of_ne (peer_ne x).symm]
    refine ⟨(h x).1, fun hok => ?_⟩
    obtain ⟨todo, frames, hdir⟩ := (h x).2 hok
    exact ⟨todo, frames, hdir.passed, hdir.matched, hdir.expects⟩
  · simp only [peer_peer, Function.update_self, Function.update_of_ne (peer_ne x)]
    refine ⟨(h x.peer).1, fun hok => ?_⟩
    obtain ⟨todo, frames, hdir⟩ := (h x.peer).2 hok
    rw [peer_peer] at hdir
    exact ⟨todo, frames, hdir.arrive n⟩

theorem Inv.next (hso : so.Opens) (h : Inv so s) (x : Side) (hstep : s.step so (.next x) = some s') : Inv so s' := by
  obtain rfl := Option.some.inj hstep
  obtain ⟨-, hfailed, hraw, -⟩ := FramedEnd.next_fields so (s.ends x)
  refine forall_side x ?_ ?_
  · simp only [Function.update_self, Function.update_of_ne (peer_ne x)]
    refine ⟨hraw.trans (h x).1, fun hok => ?_⟩
    obtain ⟨todo, frames, hdir⟩ := (h x).2 (hfailed.symm.trans hok)
    exact ⟨todo, frames, hdir.sender_next⟩
  · simp only [peer_peer, Function.update_self, Function.update_of_ne (peer_ne x)]
    refine ⟨(h x.peer).1, fun hok => ?_⟩
    obtain ⟨todo, frames, hdir⟩ := (h x.peer).2 hok
    rw [peer_peer] at hdir
    rcases hdir.next hso with ⟨-, later, frames', -, -, hnext⟩ | ⟨-, hnext, -⟩
    · exact ⟨later, frames', hnext⟩
    · exact ⟨todo, frames, hnext⟩

theorem inv_of_reachable (hso : so.Opens) (h : Reachable (Init so) (step so) s) : Inv so s := by
  obtain ⟨history, hrun⟩ := h
  refine hrun.invariant (fun _ hinit => Inv.init hinit) fun s e s' hi hstep => ?_
  cases e with
  | send x data taken => exact hi.send x data taken hstep
  | arrive x n => exact hi.arrive x n hstep
  | next x => exact hi.next hso x hstep

end Duplex

/-- In every run, as long as no `send_raw` of an end has failed, the other end has returned what that one passed, in
order and without an error, up to what is on its way; and when nothing is left to arrive and `next` has nothing more to
return, that is all of it. -/
theorem messages_arrive {so : Sodium} (hso : so.Opens) {s : Duplex} (h : Reachable (Duplex.Init so) (Duplex.step so) s)
    {x : Side} (hok : (s.ends x).failed = false) :
    (s.ends x.peer).returned <+: (s.ends x).passed.map Except.ok ∧
    (s.wire x = [] → (FramedEnd.next so (s.ends x.peer)).returned = (s.ends x.peer).returned →
      (s.ends x.peer).returned = (s.ends x).passed.map Except.ok) := by
  obtain ⟨todo, frames, hdir⟩ := (Duplex.inv_of_reachable hso h x).2 hok
  refine ⟨⟨_, hdir.passed.symm⟩, fun hwire hidle => ?_⟩
  rcases hdir.next hso with ⟨m, later, frames', -, hreturned, -⟩ | ⟨-, hnext, hwaits⟩
  · rw [hreturned] at hidle
    exact absurd hidle (by simp)
  · have hexpects := hnext.expects
    rw [hwire] at hexpects
    obtain ⟨hframes, -⟩ := hexpects.finished hwaits
    have htodo : todo = [] := by
      rw [← List.length_eq_zero_iff, ← hdir.matched.length_eq, hframes, List.length_nil]
    rw [hdir.passed, htodo, List.map_nil, List.append_nil]

/-! ## A message of the wire vectors -/

namespace Wire

/-- The library on these values, and what it documents on all others. -/
def documented : Sodium where
  secretboxSeal data nonce k :=
    if k = initiatorKey ∧ nonce = getNonce 1 ∧ data = hello then helloFrame
    else List.replicate MACBYTES 0 ++ data
  secretboxOpen frame nonce k :=
    if k = initiatorKey ∧ nonce = getNonce 1 ∧ frame = helloFrame then some hello
    else if frame.take MACBYTES = List.replicate MACBYTES 0 then some (frame.drop MACBYTES)
    else none
  generichash := sodium.generichash

theorem documented_opens : documented.Opens where
  opens m n k := by
    unfold documented
    dsimp only
    by_cases h : k = initiatorKey ∧ n = getNonce 1 ∧ m = hello
    · rw [if_pos h, if_pos ⟨h.1, h.2.1, rfl⟩, h.2.2]
    · have hframe : List.replicate MACBYTES 0 ++ m ≠ helloFrame := fun heq => by
        have hhead := congrArg List.head? heq
        cases hhead
      rw [if_neg h, if_neg fun heq => hframe heq.2.2, if_pos (List.take_left' (List.length_replicate ..)),
        List.drop_left' (List.length_replicate ..)]
  length m n k := by
    unfold documented
    dsimp only
    split
    · next h =>
      rw [h.2.2]
      rfl
    · rw [List.length_append, List.length_replicate]

def duplex : Duplex where
  ends
    | .initiator => ⟨.new, [], some ⟨initiatorKey, 0, 0, some responderKey⟩, [], [], false⟩
    | .responder => ⟨.new, [], some ⟨responderKey, 0, 0, some initiatorKey⟩, [], [], false⟩
  wire _ := []

theorem duplex_init : Duplex.Init documented duplex where
  ends x := by cases x <;> exact ⟨_, rfl⟩
  keyed := @Keyed.split documented key transcript _ _ (by decide +kernel) (by decide +kernel)
  wire _ := rfl

def duplexAfter (es : List Duplex.Event) : Duplex := (runs (Duplex.step documented) duplex es).getD duplex

/-- The frame arrives in two pieces, the first of which ends within it. -/
def pieces : List Duplex.Event :=
  [.send .initiator hello true, .arrive .responder 5, .next .responder, .arrive .responder 100, .next .responder]

end Wire

open Wire in
/-- It is returned once all of it has arrived. -/
theorem messages_arrive_hello : Reachable (Duplex.Init documented) (Duplex.step documented) (duplexAfter pieces) ∧
    ((duplexAfter pieces).ends .initiator).passed = [hello] ∧
    ((duplexAfter pieces).ends .responder).returned = ((duplexAfter pieces).ends .initiator).passed.map Except.ok := by
  have hreach : Reachable (Duplex.Init documented) (Duplex.step documented) (duplexAfter pieces) :=
    Reachable.append ⟨_, .start duplex_init⟩ (show runs _ _ pieces = _ from rfl)
  exact ⟨hreach, by decide +kernel,
    (messages_arrive documented_opens hreach (x := .initiator) (by decide +kernel)).2 (by decide +kernel) (by decide +kernel)⟩

end FontisRemote.Transport
