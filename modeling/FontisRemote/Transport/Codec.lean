import FontisRemote.Lib.Decoder

/-!
# Frames on a byte stream

`BytesCodec` of `hbb_common`: a payload goes out with a header of one to four bytes in front, whose two
low bits say how long the header is and the rest how long the payload is. The decoder takes the header
off as soon as it is there and then waits for the payload, so a stream may be cut anywhere.
-/

namespace FontisRemote.Transport

open FontisRemote.Lib

namespace BytesCodec

/-- The largest payload that a header of four bytes can announce. -/
def MAX_FRAME_LENGTH : Nat := 0x3FFFFFFF

inductive DecodeState
  | head
  | data (n : Nat)
deriving DecidableEq, Repr

end BytesCodec

structure BytesCodec where
  state : BytesCodec.DecodeState
  raw : Bool
  maxPacketLength : Nat
deriving DecidableEq, Repr

namespace BytesCodec

variable (codec : BytesCodec)

/-- The length in a header that is there, of the bytes at its front. -/
def headValue (headLen : Nat) (src : List UInt8) : Nat :=
  let byte i := (src.getD i 0).toNat
  let n := byte 0
  let n := if headLen > 1 then n ||| byte 1 <<< 8 else n
  let n := if headLen > 2 then n ||| byte 2 <<< 16 else n
  let n := if headLen > 3 then n ||| byte 3 <<< 24 else n
  n >>> 2

def decodeHead : List UInt8 → Except String (Option Nat) × List UInt8
  | [] => (.ok none, [])
  | src@(first :: _) =>
    let headLen := ((first &&& 0x3) + 1).toNat
    if src.length < headLen then (.ok none, src)
    else
      let n := headValue headLen src
      if n > codec.maxPacketLength then (.error "Too big packet", src)
      else (.ok (some n), src.drop headLen)

/-- The payload, once all of it is there. -/
def decodeData (n : Nat) (src : List UInt8) : Option (List UInt8) × List UInt8 :=
  if src.length < n then (none, src) else (some (src.take n), src.drop n)

/-- The end of `decode`, when the length is known. -/
def finish (n : Nat) (src : List UInt8) : Except String (Option (List UInt8)) × BytesCodec × List UInt8 :=
  match decodeData n src with
  | (some data, src) => (.ok (some data), { codec with state := .head }, src)
  | (none, src) => (.ok none, { codec with state := .data n }, src)

def decode (src : List UInt8) : Except String (Option (List UInt8)) × BytesCodec × List UInt8 :=
  if codec.raw then
    if src ≠ [] then (.ok (some src), codec, []) else (.ok none, codec, src)
  else
    match codec.state with
    | .head =>
      match codec.decodeHead src with
      | (.error err, src) => (.error err, codec, src)
      | (.ok none, src) => (.ok none, codec, src)
      | (.ok (some n), src) => codec.finish n src
    | .data n => codec.finish n src

/-- Little-endian bytes, as many as asked for. -/
def putLe (width n : Nat) : List UInt8 := (List.range width).map fun i => UInt8.ofNat (n >>> (8 * i))

/-- The header of a payload, where there is one for its length. -/
def header (len : Nat) : Option (List UInt8) :=
  if len ≤ 0x3F then some (putLe 1 (len <<< 2 % 2 ^ 8))
  else if len ≤ 0x3FFF then some (putLe 2 (len <<< 2 % 2 ^ 16 ||| 0x1))
  else if len ≤ 0x3FFFFF then
    let h := len <<< 2 % 2 ^ 32 ||| 0x2
    some (putLe 2 (h &&& 0xFFFF) ++ putLe 1 (h >>> 16 % 2 ^ 8))
  else if len ≤ MAX_FRAME_LENGTH then some (putLe 4 (len <<< 2 % 2 ^ 32 ||| 0x3))
  else none

def encode (data buf : List UInt8) : Except String Unit × List UInt8 :=
  if codec.raw then (.ok (), buf ++ data)
  else
    match header data.length with
    | some head => (.ok (), buf ++ head ++ data)
    | none => (.error "Overflow", buf)

/-- Encode one payload after the other, up to the first that cannot be. -/
def encodeAll (buf : List UInt8) : List (List UInt8) → Except String Unit × List UInt8
  | [] => (.ok (), buf)
  | data :: rest =>
    match codec.encode data buf with
    | (.error err, buf) => (.error err, buf)
    | (.ok (), buf) => encodeAll buf rest

/-! ## Headers -/

theorem or_shiftLeft {a k : Nat} (b : Nat) (h : a < 2 ^ k) : a ||| b <<< k = a + b * 2 ^ k := by
  rw [Nat.or_comm, ← Nat.shiftLeft_add_eq_or_of_lt h, Nat.shiftLeft_eq, Nat.add_comm]

theorem shiftLeft_or {c : Nat} (len : Nat) (h : c < 4) : len <<< 2 ||| c = len * 4 + c := by
  rw [← Nat.shiftLeft_add_eq_or_of_lt (show c < 2 ^ 2 from h), Nat.shiftLeft_eq]

theorem putLe_one (n : Nat) : putLe 1 n = [UInt8.ofNat n] := rfl

theorem putLe_two (n : Nat) : putLe 2 n = [UInt8.ofNat n, UInt8.ofNat (n >>> 8)] := rfl

theorem putLe_four (n : Nat) :
    putLe 4 n = [UInt8.ofNat n, UInt8.ofNat (n >>> 8), UInt8.ofNat (n >>> 16), UInt8.ofNat (n >>> 24)] := rfl

theorem headLen_eq (n : Nat) : ((UInt8.ofNat n &&& 0x3) + 1).toNat = n % 4 + 1 := by
  have hand : n % 256 &&& 3 = n % 256 % 4 := Nat.and_two_pow_sub_one_eq_mod _ 2
  simp [UInt8.toNat_add, hand]
  omega

section HeadValue

variable (a b c d : UInt8) (more : List UInt8)

theorem headValue_one : headValue 1 (a :: more) = a.toNat / 4 := by
  show a.toNat >>> 2 = _
  rw [Nat.shiftRight_eq_div_pow]

theorem headValue_two : headValue 2 (a :: b :: more) = (a.toNat + b.toNat * 2 ^ 8) / 4 := by
  show (a.toNat ||| b.toNat <<< 8) >>> 2 = _
  rw [or_shiftLeft _ a.toNat_lt, Nat.shiftRight_eq_div_pow]

theorem headValue_three :
    headValue 3 (a :: b :: c :: more) = (a.toNat + b.toNat * 2 ^ 8 + c.toNat * 2 ^ 16) / 4 := by
  have ha := a.toNat_lt
  have hb := b.toNat_lt
  have hab : a.toNat + b.toNat * 2 ^ 8 < 2 ^ 16 := by omega
  show (a.toNat ||| b.toNat <<< 8 ||| c.toNat <<< 16) >>> 2 = _
  rw [or_shiftLeft _ ha, or_shiftLeft _ hab, Nat.shiftRight_eq_div_pow]

theorem headValue_four :
    headValue 4 (a :: b :: c :: d :: more)
      = (a.toNat + b.toNat * 2 ^ 8 + c.toNat * 2 ^ 16 + d.toNat * 2 ^ 24) / 4 := by
  have ha := a.toNat_lt
  have hb := b.toNat_lt
  have hc := c.toNat_lt
  have hab : a.toNat + b.toNat * 2 ^ 8 < 2 ^ 16 := by omega
  have habc : a.toNat + b.toNat * 2 ^ 8 + c.toNat * 2 ^ 16 < 2 ^ 24 := by omega
  show (a.toNat ||| b.toNat <<< 8 ||| c.toNat <<< 16 ||| d.toNat <<< 24) >>> 2 = _
  rw [or_shiftLeft _ ha, or_shiftLeft _ hab, or_shiftLeft _ habc, Nat.shiftRight_eq_div_pow]

end HeadValue

/-- A header says how long it is and how long the payload is, whatever comes after it. -/
theorem header_spec {len : Nat} (hlen : len ≤ MAX_FRAME_LENGTH) :
    ∃ first tail, header len = some (first :: tail) ∧ ((first &&& 0x3) + 1).toNat = tail.length + 1 ∧
      ∀ more, headValue (tail.length + 1) (first :: tail ++ more) = len := by
  unfold MAX_FRAME_LENGTH at hlen
  unfold header MAX_FRAME_LENGTH
  have hshift : len <<< 2 = len * 4 := Nat.shiftLeft_eq len 2
  split_ifs with h1 h2 h3
  · refine ⟨_, [], congrArg some (putLe_one _), ?_, fun more => ?_⟩
    · rw [headLen_eq, List.length_nil]
      omega
    · rw [List.cons_append, List.length_nil, headValue_one, UInt8.toNat_ofNat']
      omega
  · have hmod : len <<< 2 % 2 ^ 16 = len <<< 2 := by omega
    rw [hmod, shiftLeft_or len (by decide)]
    refine ⟨_, [_], congrArg some (putLe_two _), ?_, fun more => ?_⟩
    · rw [headLen_eq, List.length_singleton]
      omega
    · rw [List.cons_append, List.cons_append, List.length_singleton, headValue_two, UInt8.toNat_ofNat',
        UInt8.toNat_ofNat', Nat.shiftRight_eq_div_pow]
      omega
  · have hmod : len <<< 2 % 2 ^ 32 = len <<< 2 := by omega
    have hlow : (len * 4 + 2) &&& 0xFFFF = (len * 4 + 2) % 2 ^ 16 := Nat.and_two_pow_sub_one_eq_mod _ 16
    dsimp only
    rw [hmod, shiftLeft_or len (by decide), hlow]
    refine ⟨_, [_, _], congrArg some (congrArg₂ (· ++ ·) (putLe_two _) (putLe_one _)), ?_, fun more => ?_⟩
    · rw [headLen_eq]
      show (len * 4 + 2) % 2 ^ 16 % 4 + 1 = 2 + 1
      omega
    · show headValue 3 _ = len
      rw [List.cons_append, List.cons_append, List.cons_append, headValue_three,
        UInt8.toNat_ofNat', UInt8.toNat_ofNat', UInt8.toNat_ofNat', Nat.shiftRight_eq_div_pow,
        Nat.shiftRight_eq_div_pow]
      omega
  · have hmod : len <<< 2 % 2 ^ 32 = len <<< 2 := by omega
    rw [hmod, shiftLeft_or len (by decide)]
    refine ⟨_, [_, _, _], congrArg some (putLe_four _), ?_, fun more => ?_⟩
    · rw [headLen_eq]
      show (len * 4 + 3) % 4 + 1 = 3 + 1
      omega
    · show headValue 4 _ = len
      rw [List.cons_append, List.cons_append, List.cons_append, List.cons_append, headValue_four,
        UInt8.toNat_ofNat', UInt8.toNat_ofNat', UInt8.toNat_ofNat', UInt8.toNat_ofNat',
        Nat.shiftRight_eq_div_pow, Nat.shiftRight_eq_div_pow, Nat.shiftRight_eq_div_pow]
      omega


/-! ## The stream of a list of payloads -/

/-- A payload with its header. -/
def frame (data : List UInt8) : List UInt8 := (header data.length).getD [] ++ data

theorem encode_eq {codec : BytesCodec} (hraw : codec.raw = false) {data : List UInt8}
    (hlen : data.length ≤ MAX_FRAME_LENGTH) (buf : List UInt8) :
    codec.encode data buf = (.ok (), buf ++ frame data) := by
  obtain ⟨first, tail, hhead, -, -⟩ := header_spec hlen
  simp [encode, hraw, frame, hhead]

theorem encodeAll_eq {codec : BytesCodec} (hraw : codec.raw = false) {payloads : List (List UInt8)}
    (hlen : ∀ data ∈ payloads, data.length ≤ MAX_FRAME_LENGTH) (buf : List UInt8) :
    codec.encodeAll buf payloads = (.ok (), buf ++ (payloads.map frame).flatten) := by
  induction payloads generalizing buf with
  | nil => simp [encodeAll]
  | cons data rest ih =>
    obtain ⟨hdata, hrest⟩ := List.forall_mem_cons.1 hlen
    rw [encodeAll, encode_eq hraw hdata]
    dsimp only
    rw [ih hrest, List.map_cons, List.flatten_cons, List.append_assoc]

/-! ## The decoder on such a stream -/

section Decode

variable {codec : BytesCodec}

theorem finish_of_lt {n : Nat} {src : List UInt8} (h : src.length < n) :
    codec.finish n src = (.ok none, { codec with state := .data n }, src) := by
  rw [finish, decodeData, if_pos h]

theorem finish_of_le {n : Nat} {src : List UInt8} (h : n ≤ src.length) :
    codec.finish n src = (.ok (some (src.take n)), { codec with state := .head }, src.drop n) := by
  rw [finish, decodeData, if_neg (Nat.not_lt.2 h)]

theorem finish_size {n : Nat} {src data src' : List UInt8} {codec' : BytesCodec}
    (h : codec.finish n src = (.ok (some data), codec', src')) :
    codec'.state = .head ∧ src'.length ≤ src.length := by
  by_cases hlen : src.length < n
  · rw [finish_of_lt hlen] at h
    cases h
  · rw [finish_of_le (Nat.not_lt.1 hlen)] at h
    cases h
    exact ⟨rfl, by simp⟩

/-- The codec as a decoder that can be polled: an item takes a header or the wait for a payload away. -/
def decoder : Decoder BytesCodec UInt8 (List UInt8) String where
  decode := decode
  size codec src := 2 * src.length + if codec.state = .head then 0 else 1
  decode_lt := by
    intro codec src data codec' src' h
    unfold decode at h
    cases hraw : codec.raw with
    | true =>
      rw [hraw, if_pos rfl] at h
      split_ifs at h with hsrc
      · cases h
        have hpos : 0 < src.length := List.length_pos_iff.2 hsrc
        rw [List.length_nil]
        omega
      · cases h
    | false =>
      rw [hraw, if_neg (by decide)] at h
      cases hstate : codec.state with
      | head =>
        rw [hstate] at h
        dsimp only at h
        unfold decodeHead at h
        cases src with
        | nil => cases h
        | cons first rest =>
          dsimp only at h
          split_ifs at h with hshort hbig
          · cases h
          · cases h
          · obtain ⟨hhead, hlen⟩ := finish_size h
            have hpos : 0 < ((first &&& 0x3) + 1).toNat := by
              rw [show first = UInt8.ofNat first.toNat by simp, headLen_eq]
              omega
            rw [List.length_drop] at hlen
            rw [hhead, if_pos rfl]
            omega
      | data n =>
        rw [hstate] at h
        obtain ⟨hhead, hlen⟩ := finish_size h
        rw [hhead, if_pos rfl, if_neg nofun]
        omega

/-- The payloads to come, the codec, what it holds and what has not arrived: nothing of the next payload
has been taken off, or its header has. -/
def Expects (limit : Nat) (payloads : List (List UInt8)) (codec : BytesCodec) (buf rest : List UInt8) : Prop :=
  codec.raw = false ∧ codec.maxPacketLength = limit ∧
    (∀ data ∈ payloads, data.length ≤ min MAX_FRAME_LENGTH limit) ∧
    match codec.state with
    | .head => buf ++ rest = (payloads.map frame).flatten
    | .data n => ∃ data later, payloads = data :: later ∧ n = data.length ∧
        buf ++ rest = data ++ (later.map frame).flatten

/-- What is held is less than a header, or less than the payload that a header announced. -/
def Waits (payloads : List (List UInt8)) (codec : BytesCodec) (buf : List UInt8) : Prop :=
  match codec.state with
  | .head => ∀ data ∈ payloads.head?, buf.length < (frame data).length - data.length
  | .data n => buf.length < n

/-- The payload is next, with its header taken off. -/
theorem expects_finish {limit : Nat} {data : List UInt8} {later : List (List UInt8)} {buf rest : List UInt8}
    (hraw : codec.raw = false) (hmax : codec.maxPacketLength = limit)
    (hlen : ∀ x ∈ data :: later, x.length ≤ min MAX_FRAME_LENGTH limit)
    (h : buf ++ rest = data ++ (later.map frame).flatten) :
    (∃ codec' buf', codec.finish data.length buf = (.ok (some data), codec', buf') ∧
        Expects limit later codec' buf' rest) ∨
      ∃ codec' buf', codec.finish data.length buf = (.ok none, codec', buf') ∧
        Expects limit (data :: later) codec' buf' rest ∧ Waits (data :: later) codec' buf' := by
  by_cases hshort : buf.length < data.length
  · exact .inr ⟨_, _, finish_of_lt hshort, ⟨hraw, hmax, hlen, data, later, rfl, rfl, h⟩, hshort⟩
  · have hle := Nat.not_lt.1 hshort
    have htake : buf.take data.length = data := by
      rw [← List.take_append_of_le_length hle, h, List.take_left]
    have hdrop : buf.drop data.length ++ rest = (later.map frame).flatten := by
      rw [← List.drop_append_of_le_length hle, h, List.drop_left]
    have hfinish : codec.finish data.length buf = _ := finish_of_le hle
    rw [htake] at hfinish
    exact .inl ⟨_, _, hfinish, hraw, hmax, (List.forall_mem_cons.1 hlen).2, hdrop⟩

theorem follows (limit : Nat) : decoder.Follows (Expects limit) Waits where
  arrive := by
    rintro payloads codec buf c rest ⟨hraw, hmax, hlen, hbuf⟩
    refine ⟨hraw, hmax, hlen, ?_⟩
    cases hstate : codec.state with
    | head =>
      rw [hstate] at hbuf
      exact (List.append_assoc ..).trans hbuf
    | data n =>
      rw [hstate] at hbuf
      obtain ⟨data, later, hpayloads, hn, hbuf⟩ := hbuf
      exact ⟨data, later, hpayloads, hn, (List.append_assoc ..).trans hbuf⟩
  decode := by
    rintro payloads codec buf rest ⟨hraw, hmax, hlen, hbuf⟩
    show (∃ i js s' b', _ ∧ codec.decode buf = _ ∧ _) ∨ ∃ s' b', codec.decode buf = _ ∧ _ ∧ _
    unfold BytesCodec.decode
    rw [hraw, if_neg (by decide)]
    cases hstate : codec.state with
    | data n =>
      rw [hstate] at hbuf
      obtain ⟨data, later, rfl, rfl, hbuf⟩ := hbuf
      dsimp only
      rcases expects_finish hraw hmax hlen hbuf with ⟨codec', buf', hfinish, h⟩ | ⟨codec', buf', hfinish, h, hw⟩
      · exact .inl ⟨data, later, codec', buf', rfl, hfinish, h⟩
      · exact .inr ⟨codec', buf', hfinish, h, hw⟩
    | head =>
      rw [hstate] at hbuf
      dsimp only at hbuf ⊢
      cases payloads with
      | nil =>
        obtain ⟨rfl, rfl⟩ := List.append_eq_nil_iff.1 hbuf
        refine .inr ⟨codec, [], rfl, ⟨hraw, hmax, hlen, ?_⟩, ?_⟩
        · rw [hstate]
          rfl
        · rw [Waits, hstate]
          nofun
      | cons data later =>
        have hdata := hlen data (List.mem_cons_self ..)
        obtain ⟨first, tail, hhead, hheadLen, hvalue⟩ := header_spec (le_trans hdata (min_le_left _ _))
        have hframe : frame data = first :: tail ++ data := by rw [frame, hhead, Option.getD_some]
        rw [List.map_cons, List.flatten_cons, hframe, List.append_assoc] at hbuf
        by_cases hshort : buf.length < tail.length + 1
        · -- part of a header, or nothing
          have hnone : codec.decodeHead buf = (.ok none, buf) := by
            cases buf with
            | nil => rfl
            | cons b rest' =>
              obtain ⟨rfl, -⟩ := List.cons.inj hbuf
              rw [decodeHead, hheadLen]
              exact if_pos hshort
          rw [hnone]
          refine .inr ⟨codec, buf, rfl, ⟨hraw, hmax, hlen, ?_⟩, ?_⟩
          · rw [hstate]
            show buf ++ rest = _
            rw [hbuf, List.map_cons, List.flatten_cons, hframe, List.append_assoc]
          · rw [Waits, hstate]
            intro data' hdata'
            cases hdata'
            rw [hframe, List.length_append, List.length_cons]
            omega
        · have hpre : first :: tail <+: buf :=
            List.prefix_of_prefix_length_le ⟨_, hbuf.symm⟩ ⟨rest, rfl⟩ (Nat.not_lt.1 hshort)
          obtain ⟨buf', rfl⟩ := hpre
          have hrest : buf' ++ rest = data ++ (later.map frame).flatten := by
            rw [List.append_assoc] at hbuf
            exact List.append_cancel_left hbuf
          have hsome : codec.decodeHead (first :: tail ++ buf') = (.ok (some data.length), buf') := by
            rw [List.cons_append, decodeHead]
            dsimp only
            rw [hheadLen, if_neg (by simp), ← List.cons_append, hvalue, hmax,
              if_neg (Nat.not_lt.2 (le_trans hdata (min_le_right _ _)))]
            simp
          rw [hsome]
          dsimp only
          rcases expects_finish hraw hmax hlen hrest with ⟨codec', b', hfinish, h⟩ | ⟨codec', b', hfinish, h, hw⟩
          · exact .inl ⟨data, later, codec', b', rfl, hfinish, h⟩
          · exact .inr ⟨codec', b', hfinish, h, hw⟩

end Decode

/-- Where the payloads of a stream stand when part of it has arrived: `k` of them are complete, and the
next one is not. -/
def Contains (payloads : List (List UInt8)) (arrived : List UInt8) (k : Nat) : Prop :=
  k ≤ payloads.length ∧ ((payloads.take k).map frame).flatten.length ≤ arrived.length ∧
    (k < payloads.length → arrived.length < ((payloads.take (k + 1)).map frame).flatten.length)

section Stream

variable {limit : Nat} {todo : List (List UInt8)} {codec : BytesCodec} {buf rest : List UInt8}

theorem frame_eq {data : List UInt8} (hlen : data.length ≤ MAX_FRAME_LENGTH) :
    ∃ first tail, frame data = first :: tail ++ data := by
  obtain ⟨first, tail, hhead, -, -⟩ := header_spec hlen
  exact ⟨first, tail, by rw [frame, hhead, Option.getD_some]⟩

/-- A decoder that waits holds less than the next payload with its header. -/
theorem Expects.held (h : Expects limit todo codec buf rest) (hw : Waits todo codec buf) :
    ∃ taken, taken ++ buf ++ rest = (todo.map frame).flatten ∧
      ∀ data ∈ todo.head?, (taken ++ buf).length < (frame data).length := by
  obtain ⟨-, -, hlen, hbuf⟩ := h
  unfold Waits at hw
  cases hstate : codec.state with
  | head =>
    rw [hstate] at hbuf hw
    refine ⟨[], hbuf, fun data hdata => ?_⟩
    exact lt_of_lt_of_le (hw data hdata) (Nat.sub_le _ _)
  | data n =>
    rw [hstate] at hbuf hw
    obtain ⟨data, later, rfl, rfl, hbuf⟩ := hbuf
    have hdata := hlen data (List.mem_cons_self ..)
    obtain ⟨first, tail, hframe⟩ := frame_eq (le_trans hdata (min_le_left _ _))
    refine ⟨first :: tail, ?_, fun data' hdata' => ?_⟩
    · rw [List.append_assoc, hbuf, List.map_cons, List.flatten_cons, hframe, List.append_assoc]
    · cases hdata'
      rw [hframe, List.length_append, List.length_append]
      exact Nat.add_lt_add_left hw _

/-- A decoder that waits when everything has arrived is done. -/
theorem Expects.finished (h : Expects limit todo codec buf []) (hw : Waits todo codec buf) :
    todo = [] ∧ codec = ⟨.head, false, limit⟩ ∧ buf = [] := by
  obtain ⟨taken, htaken, hnext⟩ := h.held hw
  cases todo with
  | cons data later =>
    have hlt := hnext data rfl
    rw [List.append_nil, List.map_cons, List.flatten_cons] at htaken
    rw [htaken, List.length_append] at hlt
    omega
  | nil =>
    have hbuf : buf = [] := by
      rw [List.append_nil] at htaken
      exact (List.append_eq_nil_iff.1 htaken).2
    obtain ⟨hraw, hmax, -, hstate⟩ := h
    obtain ⟨state, raw, max⟩ := codec
    cases state with
    | head => exact ⟨rfl, by simp_all, hbuf⟩
    | data n =>
      obtain ⟨data, later, hnil, -⟩ := hstate
      cases hnil

end Stream

/-- However the stream of a list of payloads is cut and however much of it has arrived, the decoder has
returned the payloads that are complete, without an error; at the end it is as it was at the start and
holds nothing. -/
theorem feed_stream (enc : BytesCodec) (henc : enc.raw = false) (codec : BytesCodec) (hraw : codec.raw = false)
    (hstate : codec.state = .head) (payloads : List (List UInt8))
    (hlen : ∀ data ∈ payloads, data.length ≤ min MAX_FRAME_LENGTH codec.maxPacketLength) :
    ∃ stream, enc.encodeAll [] payloads = (.ok (), stream) ∧
      ∀ chunks rest, chunks.flatten ++ rest = stream → ∃ k codec' buf,
        decoder.feed codec [] chunks = (payloads.take k, .ok (), codec', buf) ∧
          Contains payloads chunks.flatten k ∧
          (rest = [] → k = payloads.length ∧ codec' = codec ∧ buf = []) := by
  have hmax : ∀ data ∈ payloads, data.length ≤ MAX_FRAME_LENGTH := fun data hdata =>
    le_trans (hlen data hdata) (min_le_left _ _)
  refine ⟨_, encodeAll_eq henc hmax [], ?_⟩
  intro chunks rest hstream
  have hstart : Expects codec.maxPacketLength payloads codec [] (chunks.flatten ++ rest) := by
    refine ⟨hraw, rfl, hlen, ?_⟩
    rw [hstate]
    exact hstream
  have hwaits : Waits payloads codec [] := by
    rw [Waits, hstate]
    intro data hdata
    obtain ⟨first, tail, hframe⟩ := frame_eq (hmax data (List.mem_of_mem_head? hdata))
    rw [hframe, List.length_append, List.length_cons, List.length_nil]
    omega
  obtain ⟨done, todo, codec', buf, hsplit, hfeed, hexpects, hwaits'⟩ :=
    Decoder.feed_follows (follows _) chunks hstart hwaits
  have htake : payloads.take done.length = done := by rw [hsplit, List.take_left]
  refine ⟨done.length, codec', buf, by rw [htake, hfeed], ?_, fun hrest => ?_⟩
  · obtain ⟨taken, htaken, hnext⟩ := hexpects.held hwaits'
    have harrived : chunks.flatten = (done.map frame).flatten ++ (taken ++ buf) := by
      rw [List.nil_append, hsplit, List.map_append, List.flatten_append, ← htaken,
        ← List.append_assoc] at hstream
      exact List.append_cancel_right hstream
    refine ⟨by rw [hsplit, List.length_append]; omega, ?_, fun hlt => ?_⟩
    · rw [htake, harrived, List.length_append]
      omega
    · cases todo with
      | nil =>
        rw [hsplit, List.append_nil] at hlt
        omega
      | cons data later =>
        have htake' : payloads.take (done.length + 1) = done ++ [data] := by
          rw [hsplit, List.take_length_add_append]
          rfl
        have hheld := hnext data rfl
        rw [htake', harrived, List.map_append, List.flatten_append, List.length_append, List.length_append]
        simpa using hheld
  · subst hrest
    obtain ⟨htodo, hcodec, hbuf⟩ := hexpects.finished hwaits'
    refine ⟨by rw [hsplit, htodo, List.append_nil], ?_, hbuf⟩
    rw [hcodec, ← hstate, ← hraw]

/-- Three short payloads, one of them empty. -/
theorem feed_stream_three : ∃ stream,
    BytesCodec.encodeAll ⟨.head, false, 8⟩ [] [[1, 2], [], [3]] = (.ok (), stream) ∧
      ∀ chunks rest, chunks.flatten ++ rest = stream → ∃ k codec' buf,
        decoder.feed ⟨.head, false, 8⟩ [] chunks = ([[1, 2], [], [3]].take k, .ok (), codec', buf) ∧
          Contains [[1, 2], [], [3]] chunks.flatten k ∧
          (rest = [] → k = 3 ∧ codec' = ⟨.head, false, 8⟩ ∧ buf = []) :=
  feed_stream ⟨.head, false, 8⟩ rfl ⟨.head, false, 8⟩ rfl rfl [[1, 2], [], [3]] (by decide)

end BytesCodec

end FontisRemote.Transport
